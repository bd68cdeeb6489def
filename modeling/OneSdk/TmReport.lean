import OneSdk.MqttQueue
import OneSdk.TmSendTopic

namespace OneSdk.TmReport

open CString ErrorCode MqttContext MqttPublish MqttQueue TmSend TmTopics TmSendTopic

variable {V : Type} (json : CJson V)

def queueOf (handle : Option TmHandler) : List Entry :=
  match handle.bind TmHandler.mqttHandle with
  | none => []
  | some ctx => ctx.pubEntries

/-- One entry is new in the queue: the last, not yet sent, with the topic and the payload
that were built for the message. -/
def Appended (handle : Option TmHandler) (msg : Option (Msg V)) (call : Call) (after : Option TmHandler) : Prop :=
  ∃ h m topic payload, handle = some h ∧ msg = some m ∧ dmPrepareSendTopic h m = some topic ∧
    payloadOf json call.now m.data = some payload ∧
    queueOf after = queueOf handle ++ [(pubParam call.serial topic payload qos1, false)]

def Complete (handle : Option TmHandler) (msg : Option (Msg V)) : Prop :=
  (handle.bind TmHandler.mqttHandle).isSome = true ∧ ∃ m, msg = some m ∧ isUnknown m.data = false

def HasRoom (ctx : Ctx) (alloc : PublishAlloc) (payload : Bytes) : Prop :=
  ctx.pubEntries.length ≤ 10 ∧ alloc.topic = true ∧ (payload ≠ [] → alloc.payload = true) ∧
    (ctx.pendingPubList = none → alloc.list = true) ∧ alloc.params = true ∧ alloc.sent = true

/-- No payload of an event post has been taken before, or it holds no parameters. -/
def RootFresh : MsgData V → Prop
  | .eventPost post => post.payloadRoot = none ∨ post.params = none
  | _ => True

def Truthful (handle : Option TmHandler) (msg : Option (Msg V)) (call : Call) : Prop :=
  Complete handle msg → ∀ h ctx m, handle = some h → h.mqttHandle = some ctx → msg = some m →
    Fits h m ∧ RootFresh m.data ∧
      ∀ payload, payloadOf json call.now m.data = some payload → HasRoom ctx call.alloc payload

variable {json} {ctx : Ctx} {alloc : PublishAlloc} {payload : Bytes} {call : Call} {data : MsgData V}

theorem enqueue_ok_iff (list : Option PendingPubList) (p : PublishParam) :
    (enqueue list p alloc).2 = volcOk ↔
      (list.elim [] PendingPubList.entries).length ≤ 10 ∧ (list = none → alloc.list = true) ∧
        alloc.params = true ∧ alloc.sent = true := by
  have hgrow (l : PendingPubList) : (enqueue.grow p alloc l).2 = volcOk ↔
      l.entries.length ≤ 10 ∧ alloc.params = true ∧ alloc.sent = true := by
    rw [enqueue.grow, PendingPubList.entries_length]
    split
    next hfull => exact iff_of_false mqttPub_ne_ok (fun h => absurd h.1 (Nat.not_le.mpr hfull))
    next hroom =>
      split
      next hparams => exact iff_of_false malloc_ne_ok (fun h => by simp [h.2.1] at hparams)
      next hparams =>
        split
        next hsent => exact iff_of_false malloc_ne_ok (fun h => by simp [h.2.2] at hsent)
        next hsent => exact iff_of_true rfl ⟨Nat.not_lt.mp hroom, by simpa using hparams, by simpa using hsent⟩
  cases list with
  | none =>
      rw [enqueue]
      split
      next hlist =>
        rw [hgrow]
        exact and_congr_right (fun _ => (and_iff_right (fun _ => hlist)).symm)
      next hlist => exact iff_of_false malloc_ne_ok (fun h => hlist (h.2.1 rfl))
  | some l =>
      rw [enqueue, hgrow]
      exact and_congr_right (fun _ => (and_iff_right (fun h => absurd h (Option.some_ne_none l))).symm)

theorem publish_ok_iff (ctx : Ctx) (serial : Nat) (topic payload : Bytes) (qos : Int) (alloc : PublishAlloc) :
    (iotMqttPublish ctx serial topic payload qos alloc).2.2 = volcOk ↔ HasRoom ctx alloc payload := by
  have hempty : payload ≠ [] ↔ payload.length > 0 := List.length_pos_iff.symm
  rw [HasRoom, iotMqttPublish, pubEntries_eq, hempty]
  split
  next htopic => exact iff_of_false malloc_ne_ok (fun h => by simp [h.2.1] at htopic)
  next htopic =>
    split
    next hpayload =>
      rw [Bool.and_eq_true, decide_eq_true_iff] at hpayload
      exact iff_of_false malloc_ne_ok (fun h => by simp [h.2.2.1 hpayload.1] at hpayload)
    next hpayload =>
      have htopic' : alloc.topic = true := by simpa using htopic
      have hpayload' : payload.length > 0 → alloc.payload = true := by simpa using hpayload
      dsimp only
      rw [enqueue_ok_iff, and_iff_right htopic', and_iff_right hpayload']

theorem sendFunction_publishes (json : CJson V) (ctx : Ctx) (call : Call) (topic : Bytes) (h : isUnknown data = false) :
    sendFunction json ctx call topic data = (payloadOf json call.now data).map (publishPayload ctx call topic) := by
  cases data with
  | unknown => exact nomatch h
  | eventPost post =>
      rw [sendFunction, tmSendEventPost, payloadOf, Option.map_map]
      rfl
  | _ => rfl

/-- What a call does that is not refused, with the outcome of `iot_mqtt_publish`. -/
theorem iotTmSend_complete (json : CJson V) (call : Call) {h : TmHandler} {m : Msg V} (hctx : h.mqttHandle = some ctx)
    (hm : isUnknown m.data = false) :
    iotTmSend json (some h) (some m) call =
      (dmPrepareSendTopic h m).bind (fun topic => (payloadOf json call.now m.data).map (fun payload =>
        let r := iotMqttPublish ctx call.serial topic payload qos1 call.alloc
        (some { h with mqttHandle := some r.1 }, r.2.1, volcOk))) := by
  rw [iotTmSend]
  dsimp only
  rw [if_neg (by rw [hm]; decide), hctx]
  refine congrArg (Option.bind _) (funext fun topic => ?_)
  rw [sendFunction_publishes json ctx call topic hm, Option.map_map]
  rfl

theorem tmSend_sends {call : Call} {handle : TmHandler} {msg : Msg V} {code : Int} {topic payload : Bytes} {qos : Int}
    (hctx : handle.mqttHandle = some ctx)
    (hsend : tmSend json call.now handle msg = some (code, [.publish topic payload qos])) :
    let r := iotMqttPublish ctx call.serial topic payload qos call.alloc
    iotTmSend json (some handle) (some msg) call = some (some { handle with mqttHandle := some r.1 }, r.2.1, code) := by
  have hmqtt : handle.mqttHandle.isNone = false := by rw [hctx]; rfl
  rw [tmSend, hmqtt, if_neg Bool.false_ne_true] at hsend
  cases hunknown : isUnknown msg.data with
  | true =>
      rw [hunknown] at hsend
      cases hsend
  | false =>
      rw [hunknown, if_neg Bool.false_ne_true] at hsend
      obtain ⟨prepared, hprepared, hsend⟩ := Option.bind_eq_some_iff.mp hsend
      obtain ⟨built, hbuilt, heffects⟩ := Option.map_eq_some_iff.mp hsend
      obtain ⟨rfl, hpublish⟩ := Prod.mk.inj heffects
      obtain ⟨rfl, rfl, rfl⟩ := Effect.publish.inj (List.singleton_injective hpublish)
      rw [iotTmSend_complete json call hctx hunknown, hprepared, hbuilt]
      rfl

section FullQueue

def textJson : CJson Bytes where
  createObject := [123, 125]
  createString s := [34] ++ s ++ [34]
  createNumber d := ascii (toString d).toList
  addToObject object key value :=
    object.dropLast ++ (if object.length = 2 then [] else [44]) ++ [34] ++ key ++ [34, 58] ++ value ++ [125]
  removeFromObject object _ := object
  printUnformatted object := some object

def waitingMessage : PublishParam := pubParam 0 [116] [123, 125] qos1

/-- A client that is not connected, with eleven messages in its queue. -/
def fullClient : Ctx :=
  { iotMqttInit ⟨true, 60⟩ with
    pendingPubList := some ⟨List.replicate 11 waitingMessage, List.replicate 11 false, 11, by decide, by decide⟩ }

def fullHandler : TmHandler := ⟨some fullClient, text "pk", text "dn"⟩

end FullQueue

end OneSdk.TmReport
