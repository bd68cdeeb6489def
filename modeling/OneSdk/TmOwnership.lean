import OneSdk.JsonOwnership
import OneSdk.TmSend

namespace OneSdk.TmOwnership

open CString JsonOwnership
open KvStore (foldName)
open TmSend (sdkVersion)

/-- A pointer in a structure, which may not be set yet and may be `NULL`. -/
abbrev Field := Option (Option Nat)

/-- A message with the memory of the nodes. A kind of message has some of the pointers; the others are not set. -/
structure State (H : Type) where
  heap : H
  id : Option Bytes
  params : Field
  report : Field
  payloadRoot : Field

/-- What a call adds. An object is one that the caller made for the call. -/
inductive Param where
  | num
  | object (given : Bool)
  | jsonStr (jsonVal : Option Bytes)
  | string (value : Option Bytes)

section Model

variable {H : Type} (json : CJson H)

def made (h : H) : Param → Option Nat × H
  | .num => ((json.createValue h).1, (json.createValue h).2)
  | .object true => ((json.createObject h).1, (json.createObject h).2)
  | .object false => (none, h)
  | .jsonStr jsonVal => awsJsonValueNewFromString json h jsonVal
  | .string (some _) => ((json.createValue h).1, (json.createValue h).2)
  | .string none => (none, h)

def addParam (h : H) (object : Option Nat) (key : Bytes) (param : Param) : Option H :=
  awsJsonAddJsonObj json (made json h param).2 object key (made json h param).1

def iotPropertyPostInitWithId (h : H) (id : Option Bytes) : State H where
  heap := (json.createObject h).2
  id := id
  params := some (some (json.createObject h).1)
  report := none
  payloadRoot := some none

def iotPropertyPostAddParam (pty : State H) (key : Bytes) (param : Param) : Option (State H) :=
  let wrapper := json.createObject pty.heap
  (addParam json wrapper.2 (some wrapper.1) (text "value") param).bind fun h =>
    (awsJsonAddNumVal json h (some wrapper.1) (text "time")).bind fun h =>
      pty.params.bind fun params =>
        (awsJsonAddJsonObj json h params key (some wrapper.1)).map fun h => { pty with heap := h }

def iotPropertyPostPayload (pty : State H) : Option (Option Nat × State H) :=
  pty.payloadRoot.bind fun payloadRoot =>
    match payloadRoot with
    | some root => some (some root, pty)
    | none =>
        let root := json.createObject pty.heap
        (awsJsonAddStrVal json root.2 (some root.1) (text "id") pty.id).bind fun h =>
          (awsJsonAddStrVal json h (some root.1) (text "version") (some sdkVersion)).bind fun h =>
            pty.params.bind fun params =>
              (awsJsonAddJsonObj json h (some root.1) (text "params") params).map fun h =>
                (some root.1, { pty with heap := h, payloadRoot := some (some root.1) })

def freeRootOrParams (msg : State H) : Option H :=
  msg.payloadRoot.bind fun payloadRoot =>
    if payloadRoot ≠ none then awsJsonValueDestroy json msg.heap payloadRoot
    else msg.params.bind fun params => awsJsonValueDestroy json msg.heap params

def iotPropertyPostFree (pty : State H) : Option H := freeRootOrParams json pty

def iotShadowPostInitWithId (h : H) (id : Bytes) : State H :=
  let params := json.createObject h
  let report := json.createObject params.2
  { heap := report.2, id := some id, params := some (some params.1), report := some (some report.1),
    payloadRoot := some none }

def iotShadowPostAddParam (pty : State H) (key : Bytes) (param : Param) : Option (State H) :=
  pty.report.bind fun report =>
    (addParam json pty.heap report key param).map fun h => { pty with heap := h }

def iotShadowPostPayload (pty : State H) : Option (Option Nat × State H) :=
  pty.payloadRoot.bind fun payloadRoot =>
    match payloadRoot with
    | some root => some (some root, pty)
    | none =>
        let root := json.createObject pty.heap
        (awsJsonAddStrVal json root.2 (some root.1) (text "id") pty.id).bind fun h =>
          (awsJsonAddStrVal json h (some root.1) (text "version") (some sdkVersion)).bind fun h =>
            pty.params.bind fun params =>
              (awsJsonAddNumVal json h params (text "version")).bind fun h =>
                pty.report.bind fun report =>
                  (awsJsonAddJsonObj json h params (text "report") report).bind fun h =>
                    (awsJsonAddJsonObj json h (some root.1) (text "params") params).map fun h =>
                      (some root.1, { pty with heap := h, payloadRoot := some (some root.1) })

def iotShadowPostFree (pty : State H) : Option H :=
  pty.payloadRoot.bind fun payloadRoot =>
    (awsJsonValueDestroy json pty.heap payloadRoot).bind fun h =>
      pty.params.bind fun params => awsJsonValueDestroy json h params

/-- The memory of the structure is not cleared, and its root is not set. -/
def iotShadowGetInitWithId (h : H) (id : Bytes) : State H := ⟨h, some id, none, none, none⟩

def iotShadowGetPayload (pty : State H) : Option (Option Nat × State H) :=
  pty.payloadRoot.bind fun payloadRoot =>
    match payloadRoot with
    | some root => some (some root, pty)
    | none =>
        let root := json.createObject pty.heap
        (awsJsonAddStrVal json root.2 (some root.1) (text "id") pty.id).bind fun h =>
          (awsJsonAddStrVal json h (some root.1) (text "version") (some sdkVersion)).map fun h =>
            (some root.1, { pty with heap := h, payloadRoot := some (some root.1) })

def freeRoot (pty : State H) : Option H :=
  pty.payloadRoot.bind fun payloadRoot => awsJsonValueDestroy json pty.heap payloadRoot

def iotShadowGetFree (pty : State H) : Option H := freeRoot json pty

def iotShadowClearInitWithId (h : H) (id : Bytes) : State H := ⟨h, some id, none, none, some none⟩

def iotShadowClearPayload (clearId : Bytes) (pty : State H) : Option (Option Nat × State H) :=
  pty.payloadRoot.bind fun payloadRoot =>
    match payloadRoot with
    | some root => some (some root, pty)
    | none =>
        let root := json.createObject pty.heap
        (awsJsonAddStrVal json root.2 (some root.1) (text "ID") (some clearId)).bind fun h =>
          (awsJsonAddStrVal json h (some root.1) (text "Version") (some sdkVersion)).bind fun h =>
            (awsJsonAddNumVal json h (some root.1) (text "Params")).map fun h =>
              (some root.1, { pty with heap := h, payloadRoot := some (some root.1) })

def iotShadowClearFree (pty : State H) : Option H := freeRoot json pty

/-- The memory of the structure is not cleared, and its root is not set. -/
def iotTmMsgEventPostInit (h : H) (id : Bytes) : State H where
  heap := (json.createObject h).2
  id := some id
  params := some (some (json.createObject h).1)
  report := none
  payloadRoot := none

inductive EventCall where
  | addNum (key : Bytes)
  | addString (key : Bytes) (value : Option Bytes)
  | setPramsJsonStr (paramJsonStr : Option Bytes)

/-- The old parameters are destroyed, and those of a text take their place. -/
def setPramsJsonStr (msg : State H) (paramJsonStr : Option Bytes) : Option (State H) :=
  msg.params.bind fun params =>
    (awsJsonValueDestroy json msg.heap params).map fun h =>
      let parsed := awsJsonValueNewFromString json h paramJsonStr
      { msg with heap := parsed.2, params := some parsed.1 }

def eventCall (event : State H) : EventCall → Option (State H)
  | .addNum key =>
      event.params.bind fun params =>
        (awsJsonAddNumVal json event.heap params key).map fun h => { event with heap := h }
  | .addString key value =>
      event.params.bind fun params =>
        (awsJsonAddStrVal json event.heap params key value).map fun h => { event with heap := h }
  | .setPramsJsonStr paramJsonStr => setPramsJsonStr json event paramJsonStr

def iotTmMsgEventPostPayload (event : State H) : Option (Option Nat × State H) :=
  event.payloadRoot.bind fun payloadRoot =>
    (awsJsonValueDestroy json event.heap payloadRoot).bind fun h =>
      let root := json.createObject h
      (awsJsonAddStrVal json root.2 (some root.1) (text "ID") event.id).bind fun h =>
        (awsJsonAddStrVal json h (some root.1) (text "Version") (some sdkVersion)).bind fun h =>
          let params := json.createObject h
          (awsJsonAddNumVal json params.2 (some params.1) (text "Time")).bind fun h =>
            event.params.bind fun value =>
              (awsJsonAddJsonObj json h (some params.1) (text "Value") value).bind fun h =>
                (awsJsonAddJsonObj json h (some root.1) (text "Params") (some params.1)).map fun h =>
                  (some root.1, { event with heap := h, payloadRoot := some (some root.1) })

def iotTmMsgEventPostFree (event : State H) : Option H := freeRootOrParams json event

def iotTmMsgServiceCallReplyInit (h : H) (msgId : Option Bytes) : State H where
  heap := (json.createObject h).2
  id := msgId
  params := some (some (json.createObject h).1)
  report := none
  payloadRoot := some none

def iotTmMsgServiceCallReplySetPramsJsonStr (reply : State H) (paramJsonStr : Option Bytes) : Option (State H) :=
  setPramsJsonStr json reply paramJsonStr

def iotTmMsgServiceCallReplyPayload (reply : State H) : Option (Option Nat × State H) :=
  reply.payloadRoot.bind fun payloadRoot =>
    match payloadRoot with
    | some root => some (some root, reply)
    | none =>
        let root := json.createObject reply.heap
        (awsJsonAddStrVal json root.2 (some root.1) (text "id") reply.id).bind fun h =>
          (awsJsonAddNumVal json h (some root.1) (text "code")).bind fun h =>
            reply.params.bind fun params =>
              (awsJsonAddJsonObj json h (some root.1) (text "Data") params).map fun h =>
                (some root.1, { reply with heap := h, payloadRoot := some (some root.1) })

/-- The root is looked at the wrong way round. -/
def iotTmMsgServiceCallReplyFree (reply : State H) : Option H :=
  reply.payloadRoot.bind fun payloadRoot =>
    if payloadRoot = none then awsJsonValueDestroy json reply.heap payloadRoot
    else reply.params.bind fun params => awsJsonValueDestroy json reply.heap params

end Model

section Runs

variable {H A : Type} (json : CJson H)

def callAll (call : State H → A → Option (State H)) : List A → State H → Option (State H)
  | [], s => some s
  | a :: as, s => (call s a).bind (callAll call as)

def payloads (payload : State H → Option (Option Nat × State H)) :
    Nat → State H → Option (List (Option Nat × H) × State H)
  | 0, s => some ([], s)
  | n + 1, s =>
      (payload s).bind fun r => (payloads payload n r.2).map fun rest => ((r.1, r.2.heap) :: rest.1, rest.2)

inductive Use where
  | propertyPost (id : Option Bytes) (adds : List (Bytes × Param)) (count : Nat)
  | shadowPost (id : Bytes) (adds : List (Bytes × Param)) (count : Nat)
  | shadowGet (id : Bytes) (count : Nat)
  | shadowClear (id clearId : Bytes) (count : Nat)
  | eventPost (id : Bytes) (calls : List EventCall) (count : Nat)
  | serviceCallReply (msgId : Option Bytes) (texts : List (Option Bytes)) (count : Nat)

/-- From the start to the end of a message: the calls, the payloads and the release. -/
def live (s : State H) (call : State H → A → Option (State H)) (calls : List A)
    (payload : State H → Option (Option Nat × State H)) (count : Nat) (free : State H → Option H) :
    Option (List (Option Nat × H) × H) :=
  (callAll call calls s).bind fun s =>
    (payloads payload count s).bind fun r => (free r.2).map fun h => (r.1, h)

def run (h : H) : Use → Option (List (Option Nat × H) × H)
  | .propertyPost id adds count =>
      live (iotPropertyPostInitWithId json h id) (fun s add => iotPropertyPostAddParam json s add.1 add.2) adds
        (iotPropertyPostPayload json) count (iotPropertyPostFree json)
  | .shadowPost id adds count =>
      live (iotShadowPostInitWithId json h id) (fun s add => iotShadowPostAddParam json s add.1 add.2) adds
        (iotShadowPostPayload json) count (iotShadowPostFree json)
  | .shadowGet id count =>
      live (iotShadowGetInitWithId h id) (fun s (_ : Unit) => some s) []
        (iotShadowGetPayload json) count (iotShadowGetFree json)
  | .shadowClear id clearId count =>
      live (iotShadowClearInitWithId h id) (fun s (_ : Unit) => some s) []
        (iotShadowClearPayload json clearId) count (iotShadowClearFree json)
  | .eventPost id calls count =>
      live (iotTmMsgEventPostInit json h id) (eventCall json) calls
        (iotTmMsgEventPostPayload json) count (iotTmMsgEventPostFree json)
  | .serviceCallReply msgId texts count =>
      live (iotTmMsgServiceCallReplyInit json h msgId) (iotTmMsgServiceCallReplySetPramsJsonStr json) texts
        (iotTmMsgServiceCallReplyPayload json) count (iotTmMsgServiceCallReplyFree json)

/-- Nothing is read that is not set, gone or owned by another node, all payloads are alike, and in the end
the nodes are as they were before. -/
def Owned (root : H → Nat → Option Root) (h : H) (use : Use) : Prop :=
  ∃ yields h', run json h use = some (yields, h') ∧ root h' = root h ∧ ∀ y ∈ yields, ∀ z ∈ yields, y = z

def Careful : Use → Prop
  | .propertyPost _ adds _ => (adds.map (fun add => foldName (cstr add.1))).Nodup
  | .shadowPost _ _ _ => False
  | .shadowGet _ _ => False
  | .shadowClear _ _ _ => True
  | .eventPost _ _ _ => False
  | .serviceCallReply _ texts count =>
      count = 0 ∧ ∃ last, texts.getLast? = some last ∧ json.wellFormed (cstr (last.getD [])) = false

end Runs

section Adds

variable {H : Type} {json : CJson H} {root : H → Nat → Option Root} {h : H} {o p : Nat} {t : Root} {key : Bytes}

theorem made_spec (hj : Assumed json root) (h : H) (param : Param) :
    (made json h param).1 = none ∧ root (made json h param).2 = root h ∨
      ∃ v, (made json h param).1 = some v ∧ Makes root h v (made json h param).2 := by
  cases param with
  | num => exact Or.inr ⟨_, rfl, value_makes hj h⟩
  | object given =>
      cases given with
      | true => exact Or.inr ⟨_, rfl, object_makes hj h⟩
      | false => exact Or.inl ⟨rfl, rfl⟩
  | jsonStr jsonVal =>
      rw [made, awsJsonValueNewFromString]
      cases hparse : (json.parse h (cstr (jsonVal.getD []))).1 with
      | none => exact Or.inl ⟨rfl, hj.unparsed h _ hparse⟩
      | some v => exact Or.inr ⟨v, rfl, hj.parsedNode h _ v hparse⟩
  | string value =>
      cases value with
      | none => exact Or.inl ⟨rfl, rfl⟩
      | some value => exact Or.inr ⟨_, rfl, value_makes hj h⟩

theorem root_eta (ho : root h o = some t) (hobject : t.isObject = true) :
    root h = Function.update (root h) o (some ⟨true, t.names⟩) := by
  have ht : some ⟨true, t.names⟩ = root h o := by rw [ho, ← hobject]
  rw [ht, Function.update_eq_self]

theorem addParam_absent (hj : Assumed json root) (ho : root h o = some t) (hobject : t.isObject = true)
    (habsent : foldName (cstr key) ∉ t.names.map foldName) (param : Param) :
    ∃ h' names, addParam json h (some o) key param = some h' ∧
      root h' = Function.update (root h) o (some ⟨true, names⟩) ∧
        (names = t.names ∨ names = t.names ++ [cstr key]) := by
  rw [addParam]
  rcases made_spec hj h param with ⟨hnone, hsame⟩ | ⟨v, hsome, hmakes⟩
  · rw [hnone]
    refine ⟨_, t.names, remove_absent hj (by rw [hsame, ho]) hobject habsent, ?_, Or.inl rfl⟩
    rw [hsame, ← root_eta ho hobject]
  · rw [hsome]
    obtain ⟨h', hadd, hroot⟩ := addNew_absent hj hmakes ho hobject habsent
    exact ⟨h', _, hadd, hroot, Or.inr rfl⟩

theorem addNum_absent (hj : Assumed json root) (ho : root h o = some t) (hobject : t.isObject = true)
    (habsent : foldName (cstr key) ∉ t.names.map foldName) :
    ∃ h', awsJsonAddNumVal json h (some o) key = some h' ∧
      root h' = Function.update (root h) o (some ⟨true, t.names ++ [cstr key]⟩) :=
  addNew_absent hj (value_makes hj h) ho hobject habsent

theorem addStr_absent (hj : Assumed json root) (ho : root h o = some t) (hobject : t.isObject = true)
    (habsent : foldName (cstr key) ∉ t.names.map foldName) (value : Option Bytes) :
    ∃ h' names, awsJsonAddStrVal json h (some o) key value = some h' ∧
      root h' = Function.update (root h) o (some ⟨true, names⟩) ∧
        (names = t.names ∨ names = t.names ++ [cstr key]) := by
  have hadd := addParam_absent hj ho hobject habsent (.string value)
  cases value with
  | none => exact hadd
  | some value => exact hadd

theorem wrapper_makes (hj : Assumed json root) (h : H) (param : Param) :
    ∃ h₁ h₂, addParam json (json.createObject h).2 (some (json.createObject h).1) (text "value") param = some h₁ ∧
      awsJsonAddNumVal json h₁ (some (json.createObject h).1) (text "time") = some h₂ ∧
        Makes root h (json.createObject h).1 h₂ := by
  obtain ⟨hfree, hcreated⟩ := hj.objectCreated h
  have hwrapper : root (json.createObject h).2 (json.createObject h).1 = some ⟨true, []⟩ := by
    rw [hcreated, Function.update_self]
  obtain ⟨h₁, names, hvalue, hroot₁, hnames⟩ :=
    addParam_absent hj hwrapper rfl (by decide : foldName (cstr (text "value")) ∉ _) param
  have hheld : root h₁ (json.createObject h).1 = some ⟨true, names⟩ := by rw [hroot₁, Function.update_self]
  have htime : foldName (cstr (text "time")) ∉ names.map foldName := by
    rcases hnames with rfl | rfl
    · decide
    · decide
  obtain ⟨h₂, hadd, hroot₂⟩ := addNum_absent hj hheld rfl htime
  refine ⟨h₁, h₂, hvalue, hadd, hfree, ⟨true, names ++ [cstr (text "time")]⟩, ?_⟩
  rw [hroot₂, hroot₁, hcreated, Function.update_idem, Function.update_idem]

theorem root_makes (hj : Assumed json root) (h : H) (value : Option Bytes) {first second third : Bytes} (last : Bytes)
    (hsecond : foldName (cstr second) ≠ foldName (cstr first))
    (hthird : foldName (cstr third) ∉ [cstr first, cstr second].map foldName) :
    ∃ h₁ h₂ names, awsJsonAddStrVal json (json.createObject h).2 (some (json.createObject h).1) first value = some h₁ ∧
      awsJsonAddStrVal json h₁ (some (json.createObject h).1) second (some last) = some h₂ ∧
        root h (json.createObject h).1 = none ∧
          root h₂ = Function.update (root h) (json.createObject h).1 (some ⟨true, names⟩) ∧
            foldName (cstr third) ∉ names.map foldName := by
  obtain ⟨hfree, hcreated⟩ := hj.objectCreated h
  have hnew : root (json.createObject h).2 (json.createObject h).1 = some ⟨true, []⟩ := by
    rw [hcreated, Function.update_self]
  obtain ⟨h₁, names, hadd₁, hroot₁, hnames⟩ := addStr_absent hj hnew rfl List.not_mem_nil value
  have hheld : root h₁ (json.createObject h).1 = some ⟨true, names⟩ := by rw [hroot₁, Function.update_self]
  have habsent : foldName (cstr second) ∉ names.map foldName := by
    rcases hnames with rfl | rfl
    · exact List.not_mem_nil
    · exact fun hmem => hsecond (List.mem_singleton.mp hmem)
  obtain ⟨h₂, hadd₂, hroot₂⟩ := addNum_absent hj hheld rfl habsent
  refine ⟨h₁, h₂, names ++ [cstr second], hadd₁, hadd₂, hfree, ?_, ?_⟩
  · rw [hroot₂, hroot₁, hcreated, Function.update_idem, Function.update_idem]
  · rcases hnames with rfl | rfl
    · exact fun hmem => hthird (List.mem_cons_of_mem _ hmem)
    · exact hthird

end Adds

section PropertyPost

variable {H : Type} {json : CJson H} {root : H → Nat → Option Root} {pty : State H} {p : Nat}
  {rest : Nat → Option Root} {names : List Bytes}

/-- The message holds its parameters, and besides them stand the nodes of `rest`. -/
structure Holding (root : H → Nat → Option Root) (pty : State H) (p : Nat) (rest : Nat → Option Root)
    (names : List Bytes) : Prop where
  params : pty.params = some (some p)
  payloadRoot : pty.payloadRoot = some none
  apart : rest p = none
  heap : root pty.heap = Function.update rest p (some ⟨true, names⟩)

theorem Holding.held (hp : Holding root pty p rest names) : root pty.heap p = some ⟨true, names⟩ := by
  rw [hp.heap, Function.update_self]

theorem addProperty_step (hj : Assumed json root) (hp : Holding root pty p rest names) (key : Bytes) (param : Param) :
    ∃ pty', iotPropertyPostAddParam json pty key param = some pty' ∧
      (foldName (cstr key) ∉ names.map foldName ∧ Holding root pty' p rest (names ++ [cstr key]) ∨
        foldName (cstr key) ∈ names.map foldName ∧
          ∃ w t, rest w = none ∧ Holding root pty' p (Function.update rest w (some t)) names) := by
  obtain ⟨h₁, h₂, hvalue, htime, hmakes⟩ := wrapper_makes hj pty.heap param
  simp only [iotPropertyPostAddParam, hvalue, htime, hp.params, Option.bind_some, awsJsonAddJsonObj]
  by_cases hkey : foldName (cstr key) ∈ names.map foldName
  · obtain ⟨hne, hheld⟩ := hmakes.other hp.held
    obtain ⟨w, hwrapper⟩ := hmakes.self
    refine ⟨{ pty with heap := h₂ }, ?_, Or.inr ⟨hkey, ?_⟩⟩
    · rw [add_present hj hheld rfl hwrapper hkey, Option.map_some, hp.params]
    · obtain ⟨hfree, t, hroot⟩ := hmakes
      have hrest : rest (json.createObject pty.heap).1 = none := by
        rwa [hp.heap, Function.update_of_ne hne.symm] at hfree
      refine ⟨_, t, hrest, hp.params, hp.payloadRoot, ?_, ?_⟩
      · rw [Function.update_of_ne hne, hp.apart]
      · rw [hroot, hp.heap, Function.update_comm hne]
  · obtain ⟨h₃, hadd, hroot⟩ := addNew_absent hj hmakes hp.held rfl hkey
    refine ⟨{ pty with heap := h₃ }, ?_, Or.inl ⟨hkey, hp.params, hp.payloadRoot, hp.apart, ?_⟩⟩
    · rw [hadd, Option.map_some, hp.params]
    · rw [hroot, hp.heap, Function.update_idem]

/-- No wrapper is left over exactly if all keys are new. -/
theorem addProperty_run (hj : Assumed json root) (adds : List (Bytes × Param)) (hp : Holding root pty p rest names) :
    ∃ pty' rest' names', callAll (fun s add => iotPropertyPostAddParam json s add.1 add.2) adds pty = some pty' ∧
      Holding root pty' p rest' names' ∧ (∀ n t, rest n = some t → rest' n = some t) ∧
        (rest' = rest ↔ (∀ add ∈ adds, foldName (cstr add.1) ∉ names.map foldName) ∧
          (adds.map (fun add => foldName (cstr add.1))).Nodup) := by
  induction adds generalizing pty rest names with
  | nil => exact ⟨pty, rest, names, rfl, hp, fun _ _ h => h, by simp⟩
  | cons add adds ih =>
      obtain ⟨pty', hadd, ⟨hkey, hp'⟩ | ⟨hkey, w, t, hfree, hp'⟩⟩ := addProperty_step hj hp add.1 add.2
      · obtain ⟨pty'', rest', names', hcalls, hp'', hkept, hall⟩ := ih hp'
        refine ⟨pty'', rest', names', by rw [callAll, hadd, Option.bind_some, hcalls], hp'', hkept, ?_⟩
        have hsplit : (∀ a ∈ adds, foldName (cstr a.1) ∉ (names ++ [cstr add.1]).map foldName) ↔
            (∀ a ∈ adds, foldName (cstr a.1) ∉ names.map foldName) ∧
              foldName (cstr add.1) ∉ adds.map (fun a => foldName (cstr a.1)) := by
          simp only [List.map_append, List.map_singleton, List.mem_append, List.mem_singleton, not_or, forall_and,
            List.mem_map, not_exists, not_and]
        rw [hall, hsplit, List.map_cons, List.nodup_cons, List.forall_mem_cons]
        exact ⟨fun h => ⟨⟨hkey, h.1.1⟩, h.1.2, h.2⟩, fun h => ⟨⟨h.1.2, h.2.1⟩, h.2.2⟩⟩
      · obtain ⟨pty'', rest', names', hcalls, hp'', hkept, -⟩ := ih hp'
        refine ⟨pty'', rest', names', by rw [callAll, hadd, Option.bind_some, hcalls], hp'', ?_, ?_⟩
        · intro n t' hn
          refine hkept n t' ?_
          rw [Function.update_of_ne, hn]
          rintro rfl
          rw [hfree] at hn
          cases hn
        · refine iff_of_false ?_ (fun h => h.1 add List.mem_cons_self hkey)
          rintro rfl
          rw [hkept w t (Function.update_self _ _ _)] at hfree
          cases hfree

theorem property_payload (hj : Assumed json root) (hp : Holding root pty p rest names) :
    ∃ r t pty', iotPropertyPostPayload json pty = some (some r, pty') ∧ pty'.payloadRoot = some (some r) ∧
      rest r = none ∧ root pty'.heap = Function.update rest r (some t) := by
  obtain ⟨h₁, h₂, ns, hid, hversion, hfree, hroot, habsent⟩ := root_makes hj pty.heap pty.id sdkVersion
    (by decide : foldName (cstr (text "version")) ≠ foldName (cstr (text "id")))
    (by decide : foldName (cstr (text "params")) ∉ _)
  have hne := ne_of_alone hfree hp.held
  have hr : root h₂ (json.createObject pty.heap).1 = some ⟨true, ns⟩ := by rw [hroot, Function.update_self]
  have hheld : root h₂ p = some ⟨true, names⟩ := by rw [hroot, Function.update_of_ne hne.symm, hp.held]
  obtain ⟨h₃, hadd, hroot₃⟩ := add_absent hj hr rfl hheld hne habsent
  refine ⟨_, ⟨true, ns ++ [cstr (text "params")]⟩,
    { pty with heap := h₃, payloadRoot := some (some (json.createObject pty.heap).1) }, ?_, rfl, ?_, ?_⟩
  · simp only [iotPropertyPostPayload, hp.payloadRoot, hid, hversion, hp.params, awsJsonAddJsonObj, hadd,
      Option.bind_some, Option.map_some]
  · rwa [hp.heap, Function.update_of_ne hne] at hfree
  · rw [hroot₃, hroot, hp.heap]
    funext n
    by_cases hn : n = (json.createObject pty.heap).1
    · rw [hn, Function.update_self, Function.update_self]
    · rw [Function.update_of_ne hn, Function.update_of_ne hn]
      by_cases hnp : n = p
      · rw [hnp, Function.update_self, hp.apart]
      · rw [Function.update_of_ne hnp, Function.update_of_ne hn, Function.update_of_ne hnp]

end PropertyPost

section Runs

variable {H A : Type} {json : CJson H} {root : H → Nat → Option Root} {s : State H}
  {payload : State H → Option (Option Nat × State H)} {r : Option Nat}

theorem payloads_stay (h : payload s = some (r, s)) (n : Nat) :
    payloads payload n s = some (List.replicate n (r, s.heap), s) := by
  induction n with
  | zero => rfl
  | succ n ih => rw [payloads, h, Option.bind_some, ih, Option.map_some, List.replicate_succ]

theorem payloads_succ {s' : State H} (h : payload s = some (r, s')) (h' : payload s' = some (r, s')) (n : Nat) :
    payloads payload (n + 1) s = some (List.replicate (n + 1) (r, s'.heap), s') := by
  rw [payloads, h, Option.bind_some, payloads_stay h', Option.map_some, List.replicate_succ]

theorem replicate_alike {B : Type} {b : B} (n : Nat) : ∀ y ∈ List.replicate n b, ∀ z ∈ List.replicate n b, y = z :=
  fun _ hy _ hz => (List.eq_of_mem_replicate hy).trans (List.eq_of_mem_replicate hz).symm

/-- A message that is held is freed with all that belongs to it, after any number of payloads. -/
theorem property_ends (hj : Assumed json root) {p : Nat} {rest : Nat → Option Root} {names : List Bytes}
    (hp : Holding root s p rest names) (count : Nat) :
    ∃ y s' h', payloads (iotPropertyPostPayload json) count s = some (List.replicate count y, s') ∧
      iotPropertyPostFree json s' = some h' ∧ root h' = rest := by
  cases count with
  | zero =>
      obtain ⟨h', hdestroy, hroot⟩ := destroy_root hj hp.held
      refine ⟨(none, s.heap), s, h', rfl, ?_, ?_⟩
      · simp only [iotPropertyPostFree, freeRootOrParams, hp.payloadRoot, hp.params, Option.bind_some, ne_eq,
          not_true_eq_false, if_false, hdestroy]
      · rw [hroot, hp.heap, Function.update_idem, ← hp.apart, Function.update_eq_self]
  | succ n =>
      obtain ⟨r, t, s', hpayload, hset, hfree, hheap⟩ := property_payload hj hp
      have hagain : iotPropertyPostPayload json s' = some (some r, s') := by
        rw [iotPropertyPostPayload, hset, Option.bind_some]
      have hr : root s'.heap r = some t := by rw [hheap, Function.update_self]
      obtain ⟨h', hdestroy, hroot⟩ := destroy_root hj hr
      refine ⟨_, s', h', payloads_succ hpayload hagain n, ?_, ?_⟩
      · simp only [iotPropertyPostFree, freeRootOrParams, hset, Option.bind_some, ne_eq, reduceCtorEq,
          not_false_eq_true, if_true, hdestroy]
      · rw [hroot, hheap, Function.update_idem, ← hfree, Function.update_eq_self]

theorem property_owned (hj : Assumed json root) (h : H) (id : Option Bytes) (adds : List (Bytes × Param))
    (count : Nat) :
    Owned json root h (.propertyPost id adds count) ↔ Careful json (.propertyPost id adds count) := by
  obtain ⟨hfree, hcreated⟩ := hj.objectCreated h
  have hinit : Holding root (iotPropertyPostInitWithId json h id) (json.createObject h).1 (root h) [] :=
    ⟨rfl, rfl, hfree, hcreated⟩
  obtain ⟨s, rest, names, hcalls, hp, -, hall⟩ := addProperty_run hj adds hinit
  obtain ⟨y, s', h', hpayloads, hend, hroot⟩ := property_ends hj hp count
  have hrun : run json h (.propertyPost id adds count) = some (List.replicate count y, h') := by
    simp only [run, live, hcalls, hpayloads, hend, Option.bind_some, Option.map_some]
  have hnodup : root h' = root h ↔ (adds.map (fun add => foldName (cstr add.1))).Nodup := by
    rw [hroot, hall]
    exact and_iff_right (fun add _ => List.not_mem_nil)
  rw [Owned, Careful, ← hnodup]
  constructor
  · rintro ⟨yields, h'', hrun', hsame, -⟩
    rw [hrun] at hrun'
    obtain ⟨-, rfl⟩ := Prod.mk.inj (Option.some.inj hrun')
    exact hsame
  · exact fun hsame => ⟨_, h', hrun, hsame, replicate_alike count⟩

end Runs

section ShadowPost

variable {H : Type} {json : CJson H} {root : H → Nat → Option Root} {h : H} {pty : State H} {o p q : Nat} {t : Root}

theorem addParam_keeps (hj : Assumed json root) (ho : root h o = some t) (hobject : t.isObject = true) (key : Bytes)
    (param : Param) :
    ∃ h' names, addParam json h (some o) key param = some h' ∧ root h' o = some ⟨true, names⟩ ∧
      ∀ n ≠ o, ∀ u, root h n = some u → root h' n = some u := by
  by_cases hkey : foldName (cstr key) ∈ t.names.map foldName
  · rw [addParam]
    rcases made_spec hj h param with ⟨hnone, hsame⟩ | ⟨v, hsome, hmakes⟩
    · obtain ⟨h', names, hremove, hroot⟩ := remove_present hj (by rw [hsame, ho]) hobject hkey
      rw [hnone]
      refine ⟨h', names, hremove, by rw [hroot, Function.update_self], ?_⟩
      intro n hne u hn
      rw [hroot, Function.update_of_ne hne, hsame, hn]
    · obtain ⟨-, hheld⟩ := hmakes.other ho
      obtain ⟨w, hv⟩ := hmakes.self
      rw [hsome]
      refine ⟨_, t.names, add_present hj hheld hobject hv hkey, by rw [hheld, ← hobject], ?_⟩
      exact fun n _ u hn => (hmakes.other hn).2
  · obtain ⟨h', names, hadd, hroot, -⟩ := addParam_absent hj ho hobject hkey param
    refine ⟨h', names, hadd, by rw [hroot, Function.update_self], ?_⟩
    intro n hne u hn
    rw [hroot, Function.update_of_ne hne, hn]

structure Reporting (root : H → Nat → Option Root) (pty : State H) (p q : Nat) : Prop where
  params : pty.params = some (some p)
  report : pty.report = some (some q)
  payloadRoot : pty.payloadRoot = some none
  apart : p ≠ q
  held : root pty.heap p = some ⟨true, []⟩
  reported : ∃ names, root pty.heap q = some ⟨true, names⟩

theorem reporting_run (hj : Assumed json root) (adds : List (Bytes × Param)) (hp : Reporting root pty p q) :
    ∃ pty', callAll (fun s add => iotShadowPostAddParam json s add.1 add.2) adds pty = some pty' ∧
      Reporting root pty' p q := by
  induction adds generalizing pty with
  | nil => exact ⟨pty, rfl, hp⟩
  | cons add adds ih =>
      obtain ⟨names, hreported⟩ := hp.reported
      obtain ⟨h', names', hadd, hkept, hother⟩ := addParam_keeps hj hreported rfl add.1 add.2
      have hp' : Reporting root { pty with heap := h' } p q :=
        ⟨hp.params, hp.report, hp.payloadRoot, hp.apart, hother p hp.apart _ hp.held, names', hkept⟩
      obtain ⟨pty', hcalls, hend⟩ := ih hp'
      refine ⟨pty', ?_, hend⟩
      rw [callAll, iotShadowPostAddParam, hp.report, Option.bind_some, hadd, Option.map_some, Option.bind_some,
        ← hcalls, hp.report]

theorem shadow_payload (hj : Assumed json root) (hp : Reporting root pty p q) :
    ∃ r t pty', iotShadowPostPayload json pty = some (some r, pty') ∧ pty'.payloadRoot = some (some r) ∧
      pty'.params = some (some p) ∧ root pty'.heap r = some t ∧ root pty'.heap p = none := by
  obtain ⟨names, hreported⟩ := hp.reported
  obtain ⟨h₁, h₂, ns, hid, hversion, hfree, hroot, habsent⟩ := root_makes hj pty.heap pty.id sdkVersion
    (by decide : foldName (cstr (text "version")) ≠ foldName (cstr (text "id")))
    (by decide : foldName (cstr (text "params")) ∉ _)
  have hrp := ne_of_alone hfree hp.held
  have hrq := ne_of_alone hfree hreported
  have hr : root h₂ (json.createObject pty.heap).1 = some ⟨true, ns⟩ := by rw [hroot, Function.update_self]
  have hheld : root h₂ p = some ⟨true, []⟩ := by rw [hroot, Function.update_of_ne hrp.symm, hp.held]
  obtain ⟨h₃, hnum, hroot₃⟩ :=
    addNum_absent hj hheld rfl (by decide : foldName (cstr (text "version")) ∉ _)
  have hheld₃ : root h₃ p = some ⟨true, [cstr (text "version")]⟩ := by rw [hroot₃, Function.update_self]; rfl
  have hq₃ : root h₃ q = some ⟨true, names⟩ := by
    rw [hroot₃, Function.update_of_ne hp.apart.symm, hroot, Function.update_of_ne hrq.symm, hreported]
  obtain ⟨h₄, hreport, hroot₄⟩ :=
    add_absent hj hheld₃ rfl hq₃ hp.apart (by decide : foldName (cstr (text "report")) ∉ _)
  have hr₄ : root h₄ (json.createObject pty.heap).1 = some ⟨true, ns⟩ := by
    rw [hroot₄, Function.update_of_ne hrp, Function.update_of_ne hrq, hroot₃, Function.update_of_ne hrp, hr]
  have hheld₄ : ∃ u, root h₄ p = some u := ⟨_, by rw [hroot₄, Function.update_self]⟩
  obtain ⟨u, hheld₄⟩ := hheld₄
  obtain ⟨h₅, hparams, hroot₅⟩ := add_absent hj hr₄ rfl hheld₄ hrp habsent
  refine ⟨_, _, { pty with heap := h₅, payloadRoot := some (some (json.createObject pty.heap).1) }, ?_, rfl, hp.params,
    by rw [hroot₅, Function.update_self], ?_⟩
  · simp only [iotShadowPostPayload, hp.payloadRoot, hid, hversion, hp.params, hp.report, hnum,
      awsJsonAddJsonObj, hreport, hparams, Option.bind_some, Option.map_some]
  · rw [hroot₅, Function.update_of_ne hrp.symm, Function.update_self]

theorem shadow_init (hj : Assumed json root) (h : H) (id : Bytes) :
    ∃ p q, root h q = none ∧ Reporting root (iotShadowPostInitWithId json h id) p q := by
  have hparams := object_makes hj h
  obtain ⟨-, hroot⟩ := hj.objectCreated h
  have hheld : root (json.createObject h).2 (json.createObject h).1 = some ⟨true, []⟩ := by
    rw [hroot, Function.update_self]
  obtain ⟨hfree, hroot'⟩ := hj.objectCreated (json.createObject h).2
  obtain ⟨hne, hkept⟩ := (object_makes hj (json.createObject h).2).other hheld
  refine ⟨_, _, ?_, rfl, rfl, rfl, hne, hkept, [], by rw [iotShadowPostInitWithId, hroot', Function.update_self]⟩
  rwa [hroot, Function.update_of_ne hne.symm] at hfree

theorem shadow_notOwned (hj : Assumed json root) (h : H) (id : Bytes) (adds : List (Bytes × Param)) (count : Nat) :
    ¬Owned json root h (.shadowPost id adds count) := by
  rintro ⟨yields, h', hrun, hsame, -⟩
  obtain ⟨p, q, hfree, hinit⟩ := shadow_init hj h id
  obtain ⟨pty, hcalls, hp⟩ := reporting_run hj adds hinit
  simp only [run, live, hcalls, Option.bind_some] at hrun
  cases count with
  | zero =>
      obtain ⟨names, hreported⟩ := hp.reported
      obtain ⟨h'', hdestroy, hroot⟩ := destroy_root hj hp.held
      simp only [payloads, Option.bind_some, iotShadowPostFree, hp.payloadRoot, awsJsonValueDestroy.eq_1, hp.params,
        hdestroy, Option.map_some, Option.some.injEq, Prod.mk.injEq] at hrun
      rw [← hrun.2, hroot] at hsame
      have hq := congrFun hsame q
      rw [Function.update_of_ne hp.apart.symm, hreported, hfree] at hq
      cases hq
  | succ n =>
      obtain ⟨r, t, pty', hpayload, hset, hparams, hr, hgone⟩ := shadow_payload hj hp
      have hagain : iotShadowPostPayload json pty' = some (some r, pty') := by
        rw [iotShadowPostPayload, hset, Option.bind_some]
      obtain ⟨h'', hdestroy, hroot⟩ := destroy_root hj hr
      have hgone' : root h'' p = none := by
        rw [hroot, Function.update_apply]
        split
        · rfl
        · exact hgone
      simp only [payloads_succ hpayload hagain, Option.bind_some, iotShadowPostFree, hset, hdestroy, hparams,
        destroy_notAlone hj hgone', Option.map_none] at hrun
      cases hrun

end ShadowPost

section Unset

variable {H : Type} {json : CJson H} {root : H → Nat → Option Root} {h : H} {event event' : State H}

theorem shadowGet_notOwned (h : H) (id : Bytes) (count : Nat) : ¬Owned json root h (.shadowGet id count) := by
  rintro ⟨yields, h', hrun, -⟩
  cases count with
  | zero => cases hrun
  | succ n => cases hrun

theorem eventCall_payloadRoot {call : EventCall} (hcall : eventCall json event call = some event') :
    event'.payloadRoot = event.payloadRoot := by
  cases call with
  | addNum key =>
      obtain ⟨params, -, hcall⟩ := Option.bind_eq_some_iff.mp hcall
      obtain ⟨h', -, rfl⟩ := Option.map_eq_some_iff.mp hcall
      rfl
  | addString key value =>
      obtain ⟨params, -, hcall⟩ := Option.bind_eq_some_iff.mp hcall
      obtain ⟨h', -, rfl⟩ := Option.map_eq_some_iff.mp hcall
      rfl
  | setPramsJsonStr paramJsonStr =>
      obtain ⟨params, -, hcall⟩ := Option.bind_eq_some_iff.mp hcall
      obtain ⟨h', -, rfl⟩ := Option.map_eq_some_iff.mp hcall
      rfl

theorem eventCalls_payloadRoot {calls : List EventCall} (hcalls : callAll (eventCall json) calls event = some event') :
    event'.payloadRoot = event.payloadRoot := by
  induction calls generalizing event with
  | nil => rw [Option.some.inj hcalls]
  | cons call calls ih =>
      obtain ⟨event₁, hcall, hcalls⟩ := Option.bind_eq_some_iff.mp hcalls
      rw [ih hcalls, eventCall_payloadRoot hcall]

theorem eventPost_notOwned (h : H) (id : Bytes) (calls : List EventCall) (count : Nat) :
    ¬Owned json root h (.eventPost id calls count) := by
  rintro ⟨yields, h', hrun, -⟩
  obtain ⟨event, hcalls, hrun⟩ := Option.bind_eq_some_iff.mp hrun
  have hunset : event.payloadRoot = none := eventCalls_payloadRoot hcalls
  cases count with
  | zero =>
      simp only [payloads, Option.bind_some, iotTmMsgEventPostFree, freeRootOrParams, hunset, Option.bind_none,
        Option.map_none] at hrun
      cases hrun
  | succ n =>
      simp only [payloads, iotTmMsgEventPostPayload, hunset, Option.bind_none] at hrun
      cases hrun

end Unset

section ShadowClear

variable {H : Type} {json : CJson H} {root : H → Nat → Option Root} {pty : State H}

theorem clear_payload (hj : Assumed json root) (clearId : Bytes) (hset : pty.payloadRoot = some none) :
    ∃ r t pty', iotShadowClearPayload json clearId pty = some (some r, pty') ∧ pty'.payloadRoot = some (some r) ∧
      root pty.heap r = none ∧ root pty'.heap = Function.update (root pty.heap) r (some t) := by
  obtain ⟨h₁, h₂, ns, hid, hversion, hfree, hroot, habsent⟩ := root_makes hj pty.heap (some clearId) sdkVersion
    (by decide : foldName (cstr (text "Version")) ≠ foldName (cstr (text "ID")))
    (by decide : foldName (cstr (text "Params")) ∉ _)
  have hr : root h₂ (json.createObject pty.heap).1 = some ⟨true, ns⟩ := by rw [hroot, Function.update_self]
  obtain ⟨h₃, hnum, hroot₃⟩ := addNum_absent hj hr rfl habsent
  refine ⟨_, ⟨true, ns ++ [cstr (text "Params")]⟩,
    { pty with heap := h₃, payloadRoot := some (some (json.createObject pty.heap).1) }, ?_, rfl, hfree, ?_⟩
  · simp only [iotShadowClearPayload, hset, hid, hversion, hnum, Option.bind_some, Option.map_some]
  · rw [hroot₃, hroot, Function.update_idem]

theorem shadowClear_owned (hj : Assumed json root) (h : H) (id clearId : Bytes) (count : Nat) :
    Owned json root h (.shadowClear id clearId count) := by
  cases count with
  | zero => exact ⟨[], h, rfl, rfl, fun _ hy => absurd hy List.not_mem_nil⟩
  | succ n =>
      have hinit : (iotShadowClearInitWithId h id).payloadRoot = some none := rfl
      obtain ⟨r, t, pty', hpayload, hset, hfree, hheap⟩ := clear_payload hj clearId hinit
      have hagain : iotShadowClearPayload json clearId pty' = some (some r, pty') := by
        rw [iotShadowClearPayload, hset, Option.bind_some]
      have hr : root pty'.heap r = some t := by rw [hheap, Function.update_self]
      obtain ⟨h', hdestroy, hroot⟩ := destroy_root hj hr
      refine ⟨List.replicate (n + 1) (some r, pty'.heap), h', ?_, ?_, replicate_alike (n + 1)⟩
      · simp only [run, live, callAll, payloads_succ hpayload hagain, Option.bind_some, iotShadowClearFree,
          freeRoot, hset, hdestroy, Option.map_some]
      · rw [hroot, hheap, Function.update_idem, ← hfree, Function.update_eq_self]
        rfl

end ShadowClear

section ServiceCallReply

variable {H : Type} {json : CJson H} {root : H → Nat → Option Root} {h : H} {reply : State H}
  {rest : Nat → Option Root}

structure Replying (root : H → Nat → Option Root) (reply : State H) (held : Option Nat)
    (rest : Nat → Option Root) : Prop where
  params : reply.params = some held
  payloadRoot : reply.payloadRoot = some none
  none_heap : held = none → root reply.heap = rest
  some_heap (p : Nat) : held = some p → rest p = none ∧ ∃ t, root reply.heap = Function.update rest p (some t)

theorem setPrams_step (hj : Assumed json root) {params : Option Nat} (hr : Replying root reply params rest)
    (paramJsonStr : Option Bytes) :
    ∃ reply' params', iotTmMsgServiceCallReplySetPramsJsonStr json reply paramJsonStr = some reply' ∧
      Replying root reply' params' rest ∧
        (params' = none ↔ json.wellFormed (cstr (paramJsonStr.getD [])) = false) := by
  have hdestroyed : ∃ h', awsJsonValueDestroy json reply.heap params = some h' ∧ root h' = rest := by
    cases params with
    | none => exact ⟨reply.heap, rfl, hr.none_heap rfl⟩
    | some p =>
        obtain ⟨hapart, t, hheap⟩ := hr.some_heap p rfl
        have hheld : root reply.heap p = some t := by rw [hheap, Function.update_self]
        obtain ⟨h', hdestroy, hroot⟩ := destroy_root hj hheld
        exact ⟨h', hdestroy, by rw [hroot, hheap, Function.update_idem, ← hapart, Function.update_eq_self]⟩
  obtain ⟨h', hdestroy, hroot⟩ := hdestroyed
  let parsed := awsJsonValueNewFromString json h' paramJsonStr
  refine ⟨{ reply with heap := parsed.2, params := some parsed.1 }, parsed.1, ?_, ⟨rfl, hr.payloadRoot, ?_, ?_⟩, ?_⟩
  · rw [iotTmMsgServiceCallReplySetPramsJsonStr, setPramsJsonStr, hr.params, Option.bind_some, hdestroy,
      Option.map_some]
  · intro hnone
    rw [← hroot]
    exact hj.unparsed h' _ hnone
  · intro p hsome
    obtain ⟨hfree, t, hmade⟩ := hj.parsedNode h' _ p hsome
    rw [hroot] at hfree hmade
    exact ⟨hfree, t, hmade⟩
  · rw [← hj.parsed h', Option.isSome_eq_false_iff, Option.isNone_iff_eq_none]
    rfl

theorem setPrams_run (hj : Assumed json root) (texts : List (Option Bytes)) {params : Option Nat}
    (hr : Replying root reply params rest) :
    ∃ reply' params', callAll (iotTmMsgServiceCallReplySetPramsJsonStr json) texts reply = some reply' ∧
      Replying root reply' params' rest ∧
        (params' = none ↔ (texts = [] ∧ params = none) ∨
          ∃ last, texts.getLast? = some last ∧ json.wellFormed (cstr (last.getD [])) = false) := by
  induction texts generalizing reply params with
  | nil => exact ⟨reply, params, rfl, hr, by simp⟩
  | cons text texts ih =>
      obtain ⟨reply₁, params₁, hset, hr₁, hfirst⟩ := setPrams_step hj hr text
      obtain ⟨reply', params', hcalls, hr', hlast⟩ := ih hr₁
      refine ⟨reply', params', by rw [callAll, hset, Option.bind_some, hcalls], hr', ?_⟩
      rw [hlast]
      cases texts with
      | nil => simp [hfirst]
      | cons text' texts => simp [List.getLast?_cons_cons]

theorem service_payload (hj : Assumed json root) {params : Option Nat} (hr : Replying root reply params rest) :
    ∃ r t reply', iotTmMsgServiceCallReplyPayload json reply = some (some r, reply') ∧
      reply'.payloadRoot = some (some r) ∧ reply'.params = some params ∧ rest r = none ∧
        root reply'.heap r = some t ∧ ∀ p, params = some p → root reply'.heap p = none := by
  obtain ⟨h₁, h₂, ns, hid, hcode, hfree, hroot, habsent⟩ := root_makes hj reply.heap reply.id sdkVersion
    (by decide : foldName (cstr (text "code")) ≠ foldName (cstr (text "id")))
    (by decide : foldName (cstr (text "Data")) ∉ _)
  have hcode' : awsJsonAddNumVal json h₁ (some (json.createObject reply.heap).1) (text "code") = some h₂ := hcode
  have hroot₂ : root h₂ (json.createObject reply.heap).1 = some ⟨true, ns⟩ := by rw [hroot, Function.update_self]
  cases params with
  | none =>
      have hremove := remove_absent hj hroot₂ rfl habsent
      refine ⟨_, _, { reply with heap := h₂, payloadRoot := some (some (json.createObject reply.heap).1) }, ?_, rfl,
        hr.params, by rwa [← hr.none_heap rfl], hroot₂,
        fun _ hp => (by cases hp)⟩
      simp only [iotTmMsgServiceCallReplyPayload, hr.payloadRoot, hid, hcode', hr.params, awsJsonAddJsonObj, hremove,
        Option.bind_some, Option.map_some]
  | some p =>
      obtain ⟨hapart, t, hheap⟩ := hr.some_heap p rfl
      have hheld : root reply.heap p = some t := by rw [hheap, Function.update_self]
      have hne := ne_of_alone hfree hheld
      have hheld₂ : root h₂ p = some t := by rw [hroot, Function.update_of_ne hne.symm, hheld]
      obtain ⟨h₃, hadd, hroot₃⟩ := add_absent hj hroot₂ rfl hheld₂ hne habsent
      refine ⟨_, _, { reply with heap := h₃, payloadRoot := some (some (json.createObject reply.heap).1) }, ?_, rfl,
        hr.params, ?_, by rw [hroot₃, Function.update_self], ?_⟩
      · simp only [iotTmMsgServiceCallReplyPayload, hr.payloadRoot, hid, hcode', hr.params, awsJsonAddJsonObj, hadd,
          Option.bind_some, Option.map_some]
      · rwa [hheap, Function.update_of_ne hne] at hfree
      · intro p' hp'
        obtain rfl := Option.some.inj hp'
        rw [hroot₃, Function.update_of_ne hne.symm, Function.update_self]

theorem service_owned (hj : Assumed json root) (h : H) (msgId : Option Bytes) (texts : List (Option Bytes))
    (count : Nat) :
    Owned json root h (.serviceCallReply msgId texts count) ↔ Careful json (.serviceCallReply msgId texts count) := by
  obtain ⟨hfree, hcreated⟩ := hj.objectCreated h
  have hinit : Replying root (iotTmMsgServiceCallReplyInit json h msgId) (some (json.createObject h).1) (root h) :=
    ⟨rfl, rfl, fun hnone => (by cases hnone), fun p hp => by
      obtain rfl := Option.some.inj hp
      exact ⟨hfree, _, hcreated⟩⟩
  obtain ⟨reply, params, hcalls, hr, hnone⟩ := setPrams_run hj texts hinit
  have hlast : params = none ↔
      ∃ last, texts.getLast? = some last ∧ json.wellFormed (cstr (last.getD [])) = false := by
    rw [hnone]
    simp
  rw [Careful, ← hlast]
  cases count with
  | zero =>
      have hrun : run json h (.serviceCallReply msgId texts 0) = some ([], reply.heap) := by
        simp only [run, live, hcalls, payloads, Option.bind_some, iotTmMsgServiceCallReplyFree, hr.payloadRoot, if_true,
          awsJsonValueDestroy, Option.map_some]
      rw [and_iff_right rfl]
      constructor
      · rintro ⟨yields, h', hrun', hsame, -⟩
        rw [hrun] at hrun'
        obtain ⟨-, rfl⟩ := Prod.mk.inj (Option.some.inj hrun')
        cases params with
        | none => rfl
        | some p =>
            obtain ⟨hapart, t, hheap⟩ := hr.some_heap p rfl
            rw [hheap] at hsame
            have hp := congrFun hsame p
            rw [Function.update_self, hapart] at hp
            cases hp
      · exact fun hparams => ⟨[], reply.heap, hrun, hr.none_heap hparams, fun _ hy => absurd hy List.not_mem_nil⟩
  | succ n =>
      refine iff_of_false ?_ (fun hcareful => absurd hcareful.1 (Nat.succ_ne_zero n))
      rintro ⟨yields, h', hrun, hsame, -⟩
      obtain ⟨r, t, reply', hpayload, hset, hparams, hapart, hheld, htaken⟩ := service_payload hj hr
      have hagain : iotTmMsgServiceCallReplyPayload json reply' = some (some r, reply') := by
        rw [iotTmMsgServiceCallReplyPayload, hset, Option.bind_some]
      simp only [run, live, hcalls, payloads_succ hpayload hagain, Option.bind_some, iotTmMsgServiceCallReplyFree, hset,
        hparams, reduceCtorEq, if_false] at hrun
      cases params with
      | none =>
          simp only [awsJsonValueDestroy, Option.map_some, Option.some.injEq, Prod.mk.injEq] at hrun
          rw [← hrun.2] at hsame
          have hr' := congrFun hsame r
          rw [hheld, hapart] at hr'
          cases hr'
      | some p =>
          rw [destroy_notAlone hj (htaken p rfl), Option.map_none] at hrun
          cases hrun

end ServiceCallReply

/-- Of the six kinds only a property whose keys are all new, the clearing of a shadow, and a reply without
parameters whose payload is never taken are released as they should be. -/
theorem owned_iff {H : Type} {json : CJson H} {root : H → Nat → Option Root} (hj : Assumed json root) (h : H)
    (use : Use) :
    Owned json root h use ↔ Careful json use := by
  cases use with
  | propertyPost id adds count => exact property_owned hj h id adds count
  | shadowPost id adds count => exact iff_of_false (shadow_notOwned hj h id adds count) not_false
  | shadowGet id count => exact iff_of_false (shadowGet_notOwned h id count) not_false
  | shadowClear id clearId count => exact iff_of_true (shadowClear_owned hj h id clearId count) trivial
  | eventPost id calls count => exact iff_of_false (eventPost_notOwned h id calls count) not_false
  | serviceCallReply msgId texts count => exact service_owned hj h msgId texts count

section Sample

structure Memory where
  next : Nat
  root : Nat → Option Root
  fresh : ∀ n, next ≤ n → root n = none

def Memory.change (m : Memory) (n : Nat) (t : Option Root) : Memory where
  next := max m.next (n + 1)
  root := Function.update m.root n t
  fresh := by
    intro k hk
    rw [Function.update_of_ne (by omega)]
    exact m.fresh k (by omega)

def Memory.empty : Memory := ⟨0, fun _ => none, fun _ _ => rfl⟩

def memoryJson : CJson Memory where
  createObject := fun m => (m.next, m.change m.next (some ⟨true, []⟩))
  createValue := fun m => (m.next, m.change m.next (some ⟨false, []⟩))
  wellFormed := fun _ => false
  parse := fun m _ => (none, m)
  isObject := fun m n => (m.root n).map Root.isObject
  isInvalid := fun m n => (m.root n).map (fun _ => false)
  hasObjectItem := fun m n name => (m.root n).map (fun t => decide (foldName name ∈ t.names.map foldName))
  addItemToObject := fun m o name v =>
    (m.root o).bind fun t => (m.root v).map fun _ => (m.change v none).change o (some ⟨true, t.names ++ [name]⟩)
  deleteItemFromObject := fun m o name =>
    (m.root o).map fun t => m.change o (some ⟨true, t.names.eraseP (fun n => foldName n == foldName name)⟩)
  delete := fun m n => (m.root n).map fun _ => m.change n none

theorem memoryJson_assumed : Assumed memoryJson Memory.root where
  objectCreated m := ⟨m.fresh _ (Nat.le_refl _), rfl⟩
  valueCreated m := ⟨m.fresh _ (Nat.le_refl _), rfl⟩
  parsed _ _ := rfl
  unparsed _ _ _ := rfl
  parsedNode _ _ _ h := by cases h
  typed m n t h := by simp only [memoryJson, h, Option.map_some]
  valid m n t h := by simp only [memoryJson, h, Option.map_some]
  neverInvalid m n := by
    simp only [memoryJson]
    cases m.root n with
    | none => exact (Option.some_ne_none true).symm
    | some t => simp
  has m n name t h := by simp only [memoryJson, h, Option.map_some]
  added m o v name t w ho _ hv _ := ⟨_, by simp only [memoryJson, ho, hv, Option.bind_some, Option.map_some]; rfl, rfl⟩
  deletedItem m o name t ho _ := ⟨_, by simp only [memoryJson, ho, Option.map_some]; rfl, rfl⟩
  deleted m n t h := ⟨_, by simp only [memoryJson, h, Option.map_some]; rfl, rfl⟩
  notAlone m n h := by simp only [memoryJson, h, Option.map_none]

theorem owned_thermometer : Owned memoryJson Memory.root Memory.empty
    (.propertyPost none [(text "temp", .num), (text "unit", .string (some (text "C")))] 2) :=
  (owned_iff memoryJson_assumed _ _).mpr (by rw [Careful]; decide)

/-- A report is destroyed with its payload, and then again. -/
theorem report_destroyed_twice : ¬Owned memoryJson Memory.root Memory.empty
    (.shadowPost (text "1") [(text "temp", .num)] 1) :=
  shadow_notOwned memoryJson_assumed _ _ _ _

end Sample

end OneSdk.TmOwnership
