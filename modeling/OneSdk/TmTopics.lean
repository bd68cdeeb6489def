import OneSdk.MqttRouting
import OneSdk.TmSend

namespace OneSdk.TmTopics

open CString ErrorCode MqttContext MqttRouting TopicBuilders TmSend

section Split

/-- Each piece ends before the next separator. Behind the last separator there is a piece
even where it is empty. -/
def awsByteCursorSplitOnChar (splitOn : UInt8) (input : Bytes) : List Bytes :=
  let substr := input.takeWhile (· != splitOn)
  if substr.length < input.length then
    substr :: awsByteCursorSplitOnChar splitOn (input.drop (substr.length + 1))
  else [substr]
termination_by input.length
decreasing_by
  rw [List.length_drop]
  omega

/-- `aws_array_list_get_at` leaves a zeroed cursor as it is where there is no such piece. -/
def getAt (pieces : List Bytes) (index : Nat) : Bytes := pieces.getD index []

variable {c : UInt8}

theorem takeWhile_closes {input : Bytes} (hshort : (input.takeWhile (· != c)).length < input.length) :
    input = input.takeWhile (· != c) ++ c :: input.drop ((input.takeWhile (· != c)).length + 1) := by
  have hwhole := List.takeWhile_append_dropWhile (p := (· != c)) (l := input)
  cases hdrop : input.dropWhile (· != c) with
  | nil =>
      rw [hdrop, List.append_nil] at hwhole
      rw [hwhole] at hshort
      exact absurd hshort (Nat.lt_irrefl _)
  | cons x rest =>
      have hx : x = c := by
        have hhead := List.head?_dropWhile_not (· != c) input
        rw [hdrop] at hhead
        simpa using hhead
      rw [hdrop, hx] at hwhole
      have hrest : (input.takeWhile (· != c) ++ c :: rest).drop ((input.takeWhile (· != c)).length + 1) = rest := by
        rw [List.drop_length_add_append, List.drop_succ_cons, List.drop_zero]
      rw [hwhole] at hrest
      rw [hrest, hwhole]

theorem notMem_takeWhile (input : Bytes) : c ∉ input.takeWhile (· != c) :=
  fun h => absurd (List.mem_takeWhile_imp h) (by simp)

theorem splitOnChar_eq (input : Bytes) : awsByteCursorSplitOnChar c input = input.splitOn c := by
  fun_induction awsByteCursorSplitOnChar c input with
  | case1 input substr hshort ih =>
      have hjoin := takeWhile_closes hshort
      rw [ih]
      conv => rhs; rw [hjoin]
      rw [List.splitOn_append_cons_self_of_not_mem (notMem_takeWhile input)]
  | case2 input substr hlong =>
      have hall : substr = input := (List.takeWhile_prefix _).eq_of_length_le (Nat.not_lt.mp hlong)
      rw [List.splitOn_eq_singleton (hall ▸ notMem_takeWhile input), hall]

def joinLevels (levels : List Bytes) : Bytes := [slash].intercalate levels

theorem split_joinLevels {levels : List Bytes} (hlevels : ∀ level ∈ levels, slash ∉ level) (last : Bytes) :
    awsByteCursorSplitOnChar slash (joinLevels (levels ++ [last])) = levels ++ awsByteCursorSplitOnChar slash last := by
  rw [splitOnChar_eq, splitOnChar_eq]
  induction levels with
  | nil => rw [List.nil_append, List.nil_append, joinLevels, List.intercalate_singleton]
  | cons level levels ih =>
      obtain ⟨hlevel, hrest⟩ := List.forall_mem_cons.mp hlevels
      have hne : levels ++ [last] ≠ [] := List.append_ne_nil_of_right_ne_nil _ (List.cons_ne_nil _ _)
      rw [List.cons_append, joinLevels, List.intercalate_cons_of_ne_nil hne, List.append_assoc, List.singleton_append,
        List.splitOn_append_cons_self_of_not_mem hlevel, ← joinLevels, ih hrest, List.cons_append]

theorem split_levels {levels : List Bytes} (hlevels : ∀ level ∈ levels, slash ∉ level) (hne : levels ≠ []) :
    awsByteCursorSplitOnChar slash (joinLevels levels) = levels := by
  rw [splitOnChar_eq]
  exact List.splitOn_intercalate slash hlevels hne

theorem getAt_split_zero (input : Bytes) : getAt (awsByteCursorSplitOnChar c input) 0 = input.takeWhile (· != c) := by
  rw [awsByteCursorSplitOnChar]
  split <;> rfl

theorem takeWhile_eq_self_iff_notMem {input : Bytes} : input.takeWhile (· != c) = input ↔ c ∉ input := by
  constructor
  · intro h
    rw [← h]
    exact notMem_takeWhile input
  · intro h
    rw [List.takeWhile_eq_self_iff]
    intro b hb
    exact bne_iff_ne.mpr (fun heq => h (heq ▸ hb))

end Split

section Send

variable {V : Type} (json : TmSend.CJson V)

structure RecvServiceCall where
  msgId : Bytes
  version : Bytes
  moduleKey : Bytes
  identifier : Bytes
  topicUuid : Bytes
  paramsJsonStr : Bytes

structure RecvCustomTopic where
  customTopicSuffix : Bytes
  paramsJsonStr : Bytes

inductive RecvData where
  | serviceCall (data : RecvServiceCall)
  | customTopic (data : RecvCustomTopic)

structure Recv where
  productKey : Bytes
  deviceName : Bytes
  data : RecvData

inductive Effect where
  | recvHandler (handler : Pointer) (recv : Recv)
  | subscribe (topic : Bytes) (qos : Int)
  | publish (topic payload : Bytes) (qos : Int)

/-- What `iot_tm_send` does on arguments that are not `NULL`, without the queue. -/
def tmSend (now : Moment) (handle : TmHandler) (msg : Msg V) : Option (Int × List Effect) :=
  if isUnknown msg.data then some (volcErrTmUserInputOutRange, [])
  else if handle.mqttHandle.isNone then some (volcErrNullPointer, [])
  else
    (dmPrepareSendTopic handle msg).bind (fun topic =>
      (payloadOf json now msg.data).map (fun payload => (volcOk, [.publish topic payload qos1])))

variable {json}

theorem tmSend_prepared {now : Moment} {handle : TmHandler} {msg : Msg V} {ctx : Ctx} {topic payload : Bytes}
    (hctx : handle.mqttHandle = some ctx) (hknown : isUnknown msg.data = false)
    (htopic : dmPrepareSendTopic handle msg = some topic) (hpayload : payloadOf json now msg.data = some payload) :
    tmSend json now handle msg = some (volcOk, [.publish topic payload qos1]) := by
  have hmqtt : handle.mqttHandle.isNone = false := by rw [hctx]; rfl
  rw [tmSend, hknown, hmqtt, if_neg Bool.false_ne_true, if_neg Bool.false_ne_true, htopic, hpayload]
  rfl

end Send

end OneSdk.TmTopics
