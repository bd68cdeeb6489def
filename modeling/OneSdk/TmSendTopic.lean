import OneSdk.TmTopics

namespace OneSdk.TmSendTopic

open CString MqttRouting TopicBuilders TmSend TmTopics

def conversions : List Char → Nat
  | '%' :: 's' :: fmt => conversions fmt + 1
  | _ :: fmt => conversions fmt
  | [] => 0

def wantedName (own : Option Bytes) (configured : Bytes) : Bytes :=
  match own with
  | some (b :: s) => b :: s
  | _ => configured

section Lengths

variable {fmt : List Char} {args ss : List Bytes}

theorem sprintf_length (h : conversions fmt = args.length) :
    (sprintf fmt args).length + 2 * args.length = fmt.length + (args.map List.length).sum := by
  fun_induction sprintf fmt args with
  | case1 fmt arg args ih =>
      rw [conversions, List.length_cons, Nat.add_right_cancel_iff] at h
      have hrest := ih h
      simp only [List.length_append, List.length_cons, List.map_cons, List.sum_cons]
      omega
  | case2 c fmt args hplain ih =>
      have hrest : conversions fmt = args.length := by
        by_cases hconv : ∃ rest, c = '%' ∧ fmt = 's' :: rest
        · obtain ⟨rest, rfl, rfl⟩ := hconv
          cases args with
          | nil =>
              rw [conversions] at h
              exact absurd h (Nat.succ_ne_zero _)
          | cons arg args => exact (hplain rest arg args rfl rfl rfl).elim
        · rwa [conversions.eq_2 c fmt (fun rest hc hs => hconv ⟨rest, hc, hs⟩)] at h
      have hlen := ih hrest
      rw [List.length_append, List.length_cons, ascii, List.length_map, List.length_singleton]
      omega
  | case3 args =>
      obtain rfl : args = [] := List.eq_nil_of_length_eq_zero (h.symm.trans (by rw [conversions]))
      rfl

theorem measured_sum (ss : List Bytes) :
    (∀ s ∈ ss, s.length < 1024) ∧ (ss.map (fun s => secureStrlen (some s))).sum = (ss.map List.length).sum ∨
      (¬∀ s ∈ ss, s.length < 1024) ∧ (ss.map (fun s => secureStrlen (some s))).sum + 1024 ≤
        (ss.map List.length).sum := by
  induction ss with
  | nil => exact .inl ⟨nofun, rfl⟩
  | cons s ss ih =>
      have hhead : secureStrlen (some s) = if s.length < 1024 then s.length else 0 := rfl
      simp only [List.forall_mem_cons, List.map_cons, List.sum_cons]
      by_cases hs : s.length < 1024
      · rw [if_pos hs] at hhead
        rcases ih with ⟨hall, hsum⟩ | ⟨hsome, hsum⟩
        · exact .inl ⟨⟨hs, hall⟩, by omega⟩
        · exact .inr ⟨fun h => hsome h.2, by omega⟩
      · rw [if_neg hs] at hhead
        refine .inr ⟨fun h => hs h.1, ?_⟩
        rcases ih with ⟨-, hsum⟩ | ⟨-, hsum⟩ <;> omega

theorem room_le (n : Nat) : room n ≤ n + 1 := by
  rw [room]
  split <;> omega

/-- Where all of it is measured, only the `int` is a limit; a string that is not leaves the memory too small. -/
theorem printTopic_iff {fmt : String} {measured : Prop} {sum : Nat} {topic : Bytes}
    (hconv : conversions fmt.toList = args.length) (hargs : args.length < 512)
    (hne : args ≠ [])
    (hsum : measured ∧ sum = fmt.length + (args.map List.length).sum ∨
      ¬measured ∧ sum + 1024 ≤ fmt.length + (args.map List.length).sum) :
    printTopic sum fmt args = some topic ↔
      (measured ∧ fmt.length + (args.map List.length).sum + 1 < 2 ^ 31) ∧ topic = sprintf fmt.toList args := by
  have hlen := sprintf_length hconv
  have hpos := List.length_pos_iff.mpr hne
  rw [String.length_toList] at hlen
  rw [printTopic, Printing.sprintf_eq_some]
  apply and_congr_left
  intro _
  rcases hsum with ⟨hmeasured, rfl⟩ | ⟨hnot, hsum⟩
  · rw [and_iff_right hmeasured, room]
    split <;> omega
  · have hroom := room_le sum
    exact iff_of_false (by omega) (fun h => hnot h.1)

end Lengths

section Names

variable {own : Option Bytes} {configured : Bytes}

/-- The lengths of a name that the message gives in vain. -/
def Ignored (name : Bytes) : Prop := name.length = 1 ∨ 1024 ≤ name.length

instance (name : Bytes) : Decidable (Ignored name) := inferInstanceAs (Decidable (_ ∨ _))

def Heeded (own : Option Bytes) (configured : Bytes) : Prop :=
  ∀ name, own = some name → Ignored name → name = configured

theorem chosenName_ignored {name : Bytes} (h : Ignored name) : chosenName (some name) configured = configured := by
  have hlen : secureStrlen (some name) = if name.length < 1024 then name.length else 0 := rfl
  rw [chosenName, if_neg]
  rw [hlen]
  split <;> rcases h with h | h <;> omega

theorem wantedName_ignored {name : Bytes} (h : Ignored name) : wantedName (some name) configured = name := by
  cases name with
  | nil => rcases h with h | h <;> simp at h
  | cons b s => rfl

theorem chosenName_eq_of_not_ignored (h : ∀ name, own = some name → ¬Ignored name) :
    chosenName own configured = wantedName own configured := by
  match own with
  | none => rfl
  | some [] => rfl
  | some (b :: s) =>
      have hnot := h _ rfl
      have hlen : secureStrlen (some (b :: s)) = if (b :: s).length < 1024 then (b :: s).length else 0 := rfl
      rw [Ignored, List.length_cons] at hnot
      rw [List.length_cons] at hlen
      rw [chosenName, if_pos, wantedName, Option.getD_some]
      rw [hlen]
      split <;> omega

theorem chosenName_eq_iff : chosenName own configured = wantedName own configured ↔ Heeded own configured := by
  by_cases hignored : ∃ name, own = some name ∧ Ignored name
  · obtain ⟨name, rfl, hname⟩ := hignored
    rw [chosenName_ignored hname, wantedName_ignored hname]
    constructor
    · rintro rfl other hother -
      exact (Option.some.inj hother).symm
    · intro h
      exact (h name rfl hname).symm
  · have hnone : ∀ name, own = some name → ¬Ignored name := fun name hown hname => hignored ⟨name, hown, hname⟩
    exact iff_of_true (chosenName_eq_of_not_ignored hnone) (fun name hown hname => absurd hname (hnone name hown))

end Names

section Topics

variable {V : Type} (handle : TmHandler) (msg : Msg V)

def usedNames : List Bytes := [chosenName msg.productKey handle.productKey, chosenName msg.deviceName handle.deviceName]

def wantedNames : List Bytes := [wantedName msg.productKey handle.productKey,
    wantedName msg.deviceName handle.deviceName]

def plainArgs : List Bytes :=
  match msg.data with
  | .serviceCallReply _ => []
  | _ => usedNames handle msg

/-- What is measured by `secure_strlen`. The reply to a service call has its names measured so as well. -/
def measuredArgs : List Bytes :=
  match msg.data with
  | .serviceCallReply _ => usedNames handle msg ++ topicParams msg.data
  | _ => topicParams msg.data

/-- The block is as large as the text and its terminator: nothing is measured as empty, and
the sum is an `int`. -/
def Fits : Prop :=
  (∀ s ∈ measuredArgs handle msg, s.length < 1024) ∧
    (topicFormat msg.data).length + ((usedNames handle msg ++ topicParams msg.data).map List.length).sum + 1 < 2 ^ 31

/-- The template of its type with the names that are meant, printed within the block. -/
def TopicRight : Prop :=
  dmPrepareSendTopic handle msg =
    some (sprintf (topicFormat msg.data).toList (wantedNames handle msg ++ topicParams msg.data))

/-- Names that are both ignored are no loss where the two of the configuration make the
same text. -/
def NamesKept : Prop :=
  Heeded msg.productKey handle.productKey ∧ Heeded msg.deviceName handle.deviceName ∨
    ∃ key name, msg.productKey = some key ∧ msg.deviceName = some name ∧ Ignored key ∧ Ignored name ∧
      key ++ slash :: name = handle.productKey ++ slash :: handle.deviceName

variable {handle} {msg} {topic : Bytes}

theorem format_conversions {data : MsgData V} (hknown : isUnknown data = false) :
    conversions (topicFormat data).toList = (topicParams data).length + 2 := by
  cases data with
  | unknown => cases hknown
  | _ =>
      simp only [topicFormat, topicParams, List.length_cons, List.length_nil]
      rfl

theorem topicParams_length (data : MsgData V) : (topicParams data).length ≤ 3 := by
  cases data <;> simp [topicParams]

theorem plain_append_measured (handle : TmHandler) (msg : Msg V) :
    plainArgs handle msg ++ measuredArgs handle msg = usedNames handle msg ++ topicParams msg.data := by
  rw [plainArgs, measuredArgs]
  split <;> rfl

theorem format_measured (data : MsgData V) :
    secureStrlen (some (text (topicFormat data))) = (topicFormat data).length := by
  have hshort : (topicFormat data).length < 1024 := by
    cases data <;> (simp only [topicFormat]; decide)
  have hlen : (text (topicFormat data)).length = (topicFormat data).length := by
    rw [text, ascii, List.length_map, String.length_toList]
  rw [secureStrlen, hlen, if_pos hshort]

theorem dmPrepareSendTopic_prints (hknown : isUnknown msg.data = false) :
    dmPrepareSendTopic handle msg =
      printTopic ((topicFormat msg.data).length + ((plainArgs handle msg).map List.length).sum +
        ((measuredArgs handle msg).map (fun s => secureStrlen (some s))).sum) (topicFormat msg.data)
        (usedNames handle msg ++ topicParams msg.data) := by
  have hfmt := format_measured msg.data
  obtain ⟨own, name, data⟩ := msg
  cases data with
  | unknown => cases hknown
  | _ =>
      apply congrArg (printTopic · _ _)
      simp only [plainArgs, measuredArgs, usedNames, topicParams, List.map_cons, List.map_nil, List.sum_cons,
        List.sum_nil, List.cons_append, List.nil_append, hfmt]
      omega

theorem dmPrepareSendTopic_iff (hknown : isUnknown msg.data = false) :
    dmPrepareSendTopic handle msg = some topic ↔
      Fits handle msg ∧ topic = sprintf (topicFormat msg.data).toList
        (usedNames handle msg ++ topicParams msg.data) := by
  have hconv : conversions (topicFormat msg.data).toList = (usedNames handle msg ++ topicParams msg.data).length := by
    rw [format_conversions hknown, List.length_append, Nat.add_comm]
    rfl
  have hparams := topicParams_length msg.data
  have hall := congrArg (fun args => (args.map List.length).sum) (plain_append_measured handle msg)
  simp only [List.map_append, List.sum_append] at hall
  rw [dmPrepareSendTopic_prints hknown, Fits]
  refine printTopic_iff hconv ?_ (List.cons_ne_nil _ _) ?_
  · rw [← hconv, format_conversions hknown]
    omega
  · rw [List.map_append, List.sum_append]
    rcases measured_sum (measuredArgs handle msg) with ⟨hmeasured, hsum⟩ | ⟨hnot, hsum⟩
    · exact .inl ⟨hmeasured, by omega⟩
    · exact .inr ⟨hnot, by omega⟩

theorem format_names {data : MsgData V} (hknown : isUnknown data = false) :
    (topicFormat data).toList = "sys/%s/%s".toList ++ (topicFormat data).toList.drop 9 := by
  cases data with
  | unknown => cases hknown
  | _ =>
      simp only [topicFormat]
      rfl

theorem sprintf_names {data : MsgData V} (hknown : isUnknown data = false) (key name : Bytes) :
    sprintf (topicFormat data).toList ([key, name] ++ topicParams data) =
      text "sys/" ++ (key ++ slash :: name) ++ sprintf ((topicFormat data).toList.drop 9) (topicParams data) := by
  rw [format_names hknown]
  generalize (topicFormat data).toList.drop 9 = rest
  have hfront : ∀ params, sprintf ("sys/%s/%s".toList ++ rest) (key :: name :: params) =
      text "sys/" ++ (key ++ (slash :: (name ++ sprintf rest params))) := fun params => rfl
  have hdrop : ("sys/%s/%s".toList ++ rest).drop 9 = rest := rfl
  rw [List.cons_append, List.singleton_append, hfront, hdrop]
  simp only [List.append_assoc, List.cons_append]

theorem names_eq_iff : chosenName msg.productKey handle.productKey ++
    slash :: chosenName msg.deviceName handle.deviceName =
      wantedName msg.productKey handle.productKey ++ slash :: wantedName msg.deviceName handle.deviceName ↔
    NamesKept handle msg := by
  obtain ⟨own, name, data⟩ := msg
  rw [NamesKept, ← chosenName_eq_iff, ← chosenName_eq_iff]
  dsimp only
  constructor
  · intro h
    by_cases hkey : chosenName own handle.productKey = wantedName own handle.productKey
    · rw [hkey, List.append_right_inj, List.cons.injEq] at h
      exact .inl ⟨hkey, h.2⟩
    · by_cases hname : chosenName name handle.deviceName = wantedName name handle.deviceName
      · rw [hname, List.append_left_inj] at h
        exact absurd h hkey
      · have hneg : ∀ {own : Option Bytes} {configured : Bytes}, chosenName own configured ≠ wantedName own configured →
            ∃ name, own = some name ∧ Ignored name := by
          intro own configured hne
          by_contra hnone
          exact hne (chosenName_eq_of_not_ignored (fun name hown hname => hnone ⟨name, hown, hname⟩))
        obtain ⟨p, rfl, hp⟩ := hneg hkey
        obtain ⟨d, rfl, hd⟩ := hneg hname
        rw [chosenName_ignored hp, chosenName_ignored hd, wantedName_ignored hp, wantedName_ignored hd] at h
        exact .inr ⟨p, d, rfl, rfl, hp, hd, h.symm⟩
  · rintro (⟨hkey, hname⟩ | ⟨p, d, rfl, rfl, hp, hd, h⟩)
    · rw [hkey, hname]
    · rw [chosenName_ignored hp, chosenName_ignored hd, wantedName_ignored hp, wantedName_ignored hd]
      exact h.symm

theorem topicRight_iff (hknown : isUnknown msg.data = false) :
    TopicRight handle msg ↔ NamesKept handle msg ∧ Fits handle msg := by
  rw [TopicRight, dmPrepareSendTopic_iff hknown, and_comm]
  apply and_congr_left
  intro _
  rw [usedNames, wantedNames, sprintf_names hknown, sprintf_names hknown, List.append_left_inj, List.append_right_inj,
    ← names_eq_iff]
  exact eq_comm

end Topics

section Devices

def gateway : TmHandler := ⟨some (MqttContext.iotMqttInit ⟨true, 60⟩), text "pk", text "dn"⟩

def eventOf (deviceName identifier : Bytes) : Msg Unit :=
  ⟨none, some deviceName, .eventPost ⟨none, none, text "m", identifier, none, none⟩⟩

theorem topicRight_lamp : TopicRight gateway (eventOf (text "lamp") (text "on")) := by
  refine (topicRight_iff rfl).mpr ⟨.inl ⟨nofun, ?_⟩, by decide, by decide⟩
  intro name hname hignored
  obtain rfl := Option.some.inj hname
  exact absurd hignored (by decide)

/-- A device whose name has one byte is taken for the configured one. -/
theorem shortName_misaddressed :
    dmPrepareSendTopic gateway (eventOf (text "a") (text "on")) = some (text "sys/pk/dn/thingmodel/event/m/on/post") ∧
      ¬TopicRight gateway (eventOf (text "a") (text "on")) := by
  have htopic : dmPrepareSendTopic gateway (eventOf (text "a") (text "on")) =
      some (text "sys/pk/dn/thingmodel/event/m/on/post") := by decide +kernel
  refine ⟨htopic, fun h => ?_⟩
  rw [TopicRight, htopic] at h
  exact absurd h (by decide +kernel)

end Devices

end OneSdk.TmSendTopic
