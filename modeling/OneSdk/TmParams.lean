import OneSdk.KeptFirst
import OneSdk.KvStore
import OneSdk.TmSend

namespace OneSdk.TmParams

open CString KeyedList KeptFirst TmSend
open KvStore (foldName)

/-- cJSON's nodes of type `J`, with numbers of type `D`. Names are C strings. -/
structure Nodes (D J : Type) where
  createObject : J
  createString : Bytes → J
  createNumber : D → J
  double : Int → D
  isObject : J → Bool
  isInvalid : J → Bool
  children : J → List (Bytes × J)
  hasObjectItem : J → Bytes → Bool
  getObjectItem : J → Bytes → Option J
  addItemToObject : J → Bytes → J → J
  deleteItemFromObject : J → Bytes → J
  parse : Bytes → Option J
  printUnformatted : J → Option Bytes

/-- Names are compared without the case of ASCII letters. -/
structure Assumed {D J : Type} (json : Nodes D J) : Prop where
  created : json.isObject json.createObject = true ∧ json.children json.createObject = []
  valid (j : J) : json.isInvalid j = false
  has (o : J) (name : Bytes) : json.isObject o = true →
    json.hasObjectItem o name = (lookup (place foldName) (foldName name) (json.children o)).isSome
  got (o : J) (name : Bytes) : json.isObject o = true →
    json.getObjectItem o name = (lookup (place foldName) (foldName name) (json.children o)).map Prod.snd
  added (o : J) (name : Bytes) (item : J) : json.isObject o = true →
    json.isObject (json.addItemToObject o name item) = true ∧
      json.children (json.addItemToObject o name item) = json.children o ++ [(name, item)]
  deleted (o : J) (name : Bytes) : json.isObject o = true →
    json.isObject (json.deleteItemFromObject o name) = true ∧
      json.children (json.deleteItemFromObject o name) = erase (place foldName) (foldName name) (json.children o)
  parse_empty : json.parse [] = none

inductive Param (D J : Type) where
  | num (value : D)
  | object (value : Option J)
  | jsonStr (jsonVal : Option Bytes)
  | string (value : Option Bytes)

inductive EventParam (D : Type) where
  | num (value : D)
  | string (value : Option Bytes)

section Model

variable {D J : Type} (json : Nodes D J)

def awsJsonValueAddToObject (object : J) (key : Bytes) (value : J) : J :=
  if json.isObject object = false then object
  else if json.isInvalid value = true then object
  else if json.hasObjectItem object (cstr key) = true then object
  else json.addItemToObject object (cstr key) value

def awsJsonValueRemoveFromObject (object : J) (key : Bytes) : J :=
  if json.isObject object = false then object
  else if json.hasObjectItem object (cstr key) = false then object
  else json.deleteItemFromObject object (cstr key)

/-- No text is read as the empty one. -/
def awsJsonValueNewFromString (text : Option Bytes) : Option J := json.parse (cstr (text.getD []))

def library : CJson J where
  createObject := json.createObject
  createString := fun s => json.createString (cstr s)
  createNumber := fun n => json.createNumber (json.double n)
  addToObject := awsJsonValueAddToObject json
  removeFromObject := awsJsonValueRemoveFromObject json
  printUnformatted := json.printUnformatted

def awsJsonAddNumVal (object : J) (key : Bytes) (value : D) : J :=
  awsJsonValueAddToObject json object key (json.createNumber value)

def iotPropertyPostInitWithId (id : Option Bytes) : PropertyPost J where
  id := id
  version := some sdkVersion
  params := some json.createObject
  payloadRoot := none

def timed (time : D) (value : Option J) : J :=
  awsJsonAddNumVal json (awsJsonAddJsonObj (library json) json.createObject (text "value") value) (text "time") time

def addTimed (time : D) (pty : PropertyPost J) (key : Bytes) (value : Option J) : PropertyPost J :=
  { pty with params := pty.params.map (fun params =>
      awsJsonAddJsonObj (library json) params key (some (timed json time value))) }

def iotPropertyPostAddParamNum (time : D) (pty : PropertyPost J) (key : Bytes) (value : D) : PropertyPost J :=
  addTimed json time pty key (some (json.createNumber value))

def iotPropertyPostAddParamObject (time : D) (pty : PropertyPost J) (key : Bytes) (value : Option J) : PropertyPost J :=
  addTimed json time pty key value

def iotPropertyPostAddParamJsonStr (time : D) (pty : PropertyPost J) (key : Bytes) (jsonVal : Option Bytes) :
    PropertyPost J :=
  addTimed json time pty key (awsJsonValueNewFromString json jsonVal)

def iotPropertyPostAddParamString (time : D) (pty : PropertyPost J) (key : Bytes) (value : Option Bytes) :
    PropertyPost J :=
  addTimed json time pty key (value.map (library json).createString)

def addProperty (pty : PropertyPost J) (call : Bytes × Param D J × D) : PropertyPost J :=
  match call.2.1 with
  | .num value => iotPropertyPostAddParamNum json call.2.2 pty call.1 value
  | .object value => iotPropertyPostAddParamObject json call.2.2 pty call.1 value
  | .jsonStr jsonVal => iotPropertyPostAddParamJsonStr json call.2.2 pty call.1 jsonVal
  | .string value => iotPropertyPostAddParamString json call.2.2 pty call.1 value

def iotShadowPostInitWithId (randomString : Bytes) (id : Option Bytes) : ShadowPost J where
  id := some (id.getD randomString)
  version := some sdkVersion
  params := json.createObject
  report := some json.createObject
  payloadRoot := none

def addReported (post : ShadowPost J) (key : Bytes) (value : Option J) : ShadowPost J :=
  { post with report := post.report.map (fun report => awsJsonAddJsonObj (library json) report key value) }

def iotShadowPostAddParamNum (post : ShadowPost J) (key : Bytes) (value : D) : ShadowPost J :=
  addReported json post key (some (json.createNumber value))

def iotShadowPostAddParamObject (post : ShadowPost J) (key : Bytes) (value : Option J) : ShadowPost J :=
  addReported json post key value

def iotShadowPostAddParamJsonStr (post : ShadowPost J) (key : Bytes) (jsonVal : Option Bytes) : ShadowPost J :=
  iotShadowPostAddParamObject json post key (awsJsonValueNewFromString json jsonVal)

def iotShadowPostAddParamString (post : ShadowPost J) (key : Bytes) (value : Option Bytes) : ShadowPost J :=
  addReported json post key (value.map (library json).createString)

def addShadow (post : ShadowPost J) (call : Bytes × Param D J) : ShadowPost J :=
  match call.2 with
  | .num value => iotShadowPostAddParamNum json post call.1 value
  | .object value => iotShadowPostAddParamObject json post call.1 value
  | .jsonStr jsonVal => iotShadowPostAddParamJsonStr json post call.1 jsonVal
  | .string value => iotShadowPostAddParamString json post call.1 value

/-- The function leaves the root unset, which then is what the memory held before: `NULL`, or something else. -/
def iotTmMsgEventPostInit (held : Option J) (randomString moduleKey identifier : Bytes) : EventPost J where
  id := some randomString
  version := some sdkVersion
  moduleKey := moduleKey
  identifier := identifier
  params := some json.createObject
  payloadRoot := held

def addEventParam (event : EventPost J) (key : Bytes) (value : Option J) : EventPost J :=
  { event with params := event.params.map (fun params => awsJsonAddJsonObj (library json) params key value) }

def iotTmMsgEventPostParamAddNum (event : EventPost J) (key : Bytes) (value : D) : EventPost J :=
  addEventParam json event key (some (json.createNumber value))

def iotTmMsgEventPostParamAddString (event : EventPost J) (key : Bytes) (value : Option Bytes) : EventPost J :=
  addEventParam json event key (value.map (library json).createString)

def addEvent (event : EventPost J) (call : Bytes × EventParam D) : EventPost J :=
  match call.2 with
  | .num value => iotTmMsgEventPostParamAddNum json event call.1 value
  | .string value => iotTmMsgEventPostParamAddString json event call.1 value

/-- A message from its start and the calls made on it. A property's calls come with their times, an event with what the
memory of its root held. -/
inductive Filled (D J : Type) where
  | property (id : Option Bytes) (calls : List (Bytes × Param D J × D))
  | shadow (randomString : Bytes) (id : Option Bytes) (calls : List (Bytes × Param D J))
  | event (held : Option J) (randomString moduleKey identifier : Bytes) (calls : List (Bytes × EventParam D))

def paramsObject (now : Moment) : Filled D J → Option J
  | .property id calls =>
      json.getObjectItem
        (iotPropertyPostPayload (library json) (calls.foldl (addProperty json) (iotPropertyPostInitWithId json id)))
        (text "params")
  | .shadow randomString id calls =>
      (json.getObjectItem
        (iotShadowPostPayload (library json) now
          (calls.foldl (addShadow json) (iotShadowPostInitWithId json randomString id)))
        (text "params")).bind (fun params => json.getObjectItem params (text "report"))
  | .event held randomString moduleKey identifier calls =>
      ((iotTmMsgEventPostPayload (library json) now
          (calls.foldl (addEvent json) (iotTmMsgEventPostInit json held randomString moduleKey identifier))).bind
        (fun root => json.getObjectItem root (text "Params"))).bind
          (fun params => json.getObjectItem params (text "Value"))

def Param.wanted : Param D J → Option J
  | .num value => some (json.createNumber value)
  | .object value => value
  | .jsonStr none => none
  | .jsonStr (some jsonVal) => json.parse (cstr jsonVal)
  | .string none => none
  | .string (some value) => some (json.createString (cstr value))

def EventParam.wanted : EventParam D → Option J
  | .num value => some (json.createNumber value)
  | .string none => none
  | .string (some value) => some (json.createString (cstr value))

def timedValue (member : J) : Option J := json.getObjectItem member (text "value")

def keyed {P : Type} (calls : List (Bytes × P)) : List (Bytes × P) := calls.map (fun call => (cstr call.1, call.2))

/-- The parameters hold the last value of each key. -/
def HoldsLast (now : Moment) (filled : Filled D J) : Prop :=
  ∃ params, paramsObject json now filled = some params ∧
    match filled with
    | .property _ calls =>
        Latest (fun p : Param D J × D => p.1.wanted json) (timedValue json) (keyed calls) (json.children params)
    | .shadow _ _ calls => Latest (Param.wanted json) some (keyed calls) (json.children params)
    | .event _ _ _ _ calls => Latest (EventParam.wanted json) some (keyed calls) (json.children params)

/-- Of the calls for a key up to case, since the last that passes no value, the first has the value of
the last call for the key itself. Passing no value does not remove a property. The root of an event has to be `NULL` by
chance. -/
def FirstIsLast : Filled D J → Prop
  | .property _ calls => DecidedAlike (fun _ => false) (fun p : Param D J × D => p.1.wanted json) foldName (keyed calls)
  | .shadow _ _ calls =>
      DecidedAlike (fun p : Param D J => (p.wanted json).isNone) (Param.wanted json) foldName (keyed calls)
  | .event held _ _ _ calls =>
      held = none ∧ DecidedAlike (fun p : EventParam D => (EventParam.wanted (J := J) json p).isNone)
        (EventParam.wanted json) foldName (keyed calls)

end Model

section Objects

variable {D J : Type} {json : Nodes D J} {o : J}

structure Proper (json : Nodes D J) (o : J) : Prop where
  object : json.isObject o = true
  keyed : Keyed (place foldName) (json.children o)

theorem created_proper (hj : Assumed json) : Proper json json.createObject := by
  refine ⟨hj.created.1, ?_⟩
  rw [hj.created.2]
  exact keyed_nil

theorem removed_children (hj : Assumed json) (ho : json.isObject o = true) (key : Bytes) :
    json.isObject (awsJsonValueRemoveFromObject json o key) = true ∧
      json.children (awsJsonValueRemoveFromObject json o key) =
        erase (place foldName) (foldName (cstr key)) (json.children o) := by
  rw [awsJsonValueRemoveFromObject, if_neg (by simp [ho])]
  split
  next hnone =>
    rw [hj.has o _ ho, Option.isSome_eq_false_iff, Option.isNone_iff_eq_none, lookup_eq_none] at hnone
    refine ⟨ho, ?_⟩
    rw [erase, List.eraseP_of_forall_not]
    exact fun e he => by simpa using hnone e he
  next => exact hj.deleted o (cstr key) ho

theorem add_change (hj : Assumed json) (ho : json.isObject o = true) (key : Bytes) (value : Option J) :
    json.isObject (awsJsonAddJsonObj (library json) o key value) = true ∧
      json.children (awsJsonAddJsonObj (library json) o key value) =
        change foldName (json.children o) (cstr key, value) := by
  cases value with
  | none => exact removed_children hj ho key
  | some v =>
      change json.isObject (awsJsonValueAddToObject json o key v) = true ∧
        json.children (awsJsonValueAddToObject json o key v) = _
      rw [awsJsonValueAddToObject, if_neg (by simp [ho]), if_neg (by simp [hj.valid]), hj.has o _ ho]
      simp only [KeptFirst.change]
      split
      · exact ⟨ho, rfl⟩
      · exact hj.added o (cstr key) v ho

theorem add_proper (hj : Assumed json) (ho : Proper json o) (key : Bytes) (value : Option J) :
    Proper json (awsJsonAddJsonObj (library json) o key value) := by
  obtain ⟨hobject, hchildren⟩ := add_change hj ho.object key value
  refine ⟨hobject, ?_⟩
  rw [hchildren]
  exact keyed_change ho.keyed _

theorem getObjectItem_add (hj : Assumed json) (ho : Proper json o) (key name : Bytes) (value : Option J) :
    json.getObjectItem (awsJsonAddJsonObj (library json) o key value) name =
      if foldName (cstr key) = foldName name then value.bind (fun v => (json.getObjectItem o name).or (some v))
      else json.getObjectItem o name := by
  obtain ⟨hobject, hchildren⟩ := add_change hj ho.object key value
  rw [hj.got _ _ hobject, hchildren, lookup_change ho.keyed, hj.got _ _ ho.object]
  split
  · cases value with
    | none => rfl
    | some v => cases lookup (place foldName) (foldName name) (json.children o) <;> rfl
  · rfl

theorem getObjectItem_created (hj : Assumed json) (name : Bytes) :
    json.getObjectItem json.createObject name = none := by
  rw [hj.got _ _ hj.created.1, hj.created.2]
  rfl

theorem fold_changes {P : Type} (hj : Assumed json) (value : P → Option J) (calls : List (Bytes × P)) :
    let filled := calls.foldl (fun o call => awsJsonAddJsonObj (library json) o call.1 (value call.2)) json.createObject
    Proper json filled ∧ json.children filled = changes foldName ((keyed calls).map (request value)) := by
  induction calls using List.reverseRecOn with
  | nil => exact ⟨created_proper hj, hj.created.2⟩
  | append_singleton calls call ih =>
      obtain ⟨hproper, hchildren⟩ := ih
      rw [List.foldl_append]
      refine ⟨add_proper hj hproper _ _, ?_⟩
      rw [List.foldl_cons, List.foldl_nil, (add_change hj hproper.object _ _).2, hchildren, keyed, keyed,
        List.map_append, List.map_append, changes, changes, List.foldl_append]
      rfl

end Objects

section Messages

variable {D J : Type} {json : Nodes D J}

def filledWith {P : Type} (json : Nodes D J) (value : P → Option J) (calls : List (Bytes × P)) : J :=
  calls.foldl (fun o call => awsJsonAddJsonObj (library json) o call.1 (value call.2)) json.createObject

theorem addProperty_eq (hj : Assumed json) (pty : PropertyPost J) (call : Bytes × Param D J × D) :
    addProperty json pty call = addTimed json call.2.2 pty call.1 (call.2.1.wanted json) := by
  obtain ⟨key, param, time⟩ := call
  cases param with
  | num value => rfl
  | object value => rfl
  | jsonStr jsonVal =>
      cases jsonVal with
      | none =>
          have hnone : awsJsonValueNewFromString json none = none := hj.parse_empty
          simp only [addProperty, iotPropertyPostAddParamJsonStr, hnone, Param.wanted]
      | some jsonVal => rfl
  | string value => cases value <;> rfl

theorem addShadow_eq (hj : Assumed json) (post : ShadowPost J) (call : Bytes × Param D J) :
    addShadow json post call = addReported json post call.1 (call.2.wanted json) := by
  obtain ⟨key, param⟩ := call
  cases param with
  | num value => rfl
  | object value => rfl
  | jsonStr jsonVal =>
      cases jsonVal with
      | none =>
          have hnone : awsJsonValueNewFromString json none = none := hj.parse_empty
          simp only [addShadow, iotShadowPostAddParamJsonStr, iotShadowPostAddParamObject, hnone, Param.wanted]
      | some jsonVal => rfl
  | string value => cases value <;> rfl

theorem addEvent_eq (event : EventPost J) (call : Bytes × EventParam D) :
    addEvent json event call = addEventParam json event call.1 (call.2.wanted json) := by
  obtain ⟨key, param⟩ := call
  cases param with
  | num value => rfl
  | string value => cases value <;> rfl

def timedParam (json : Nodes D J) (p : Param D J × D) : Option J := some (timed json p.2 (p.1.wanted json))

theorem property_filled (hj : Assumed json) (id : Option Bytes) (calls : List (Bytes × Param D J × D)) :
    calls.foldl (addProperty json) (iotPropertyPostInitWithId json id) =
      { iotPropertyPostInitWithId json id with params := some (filledWith json (timedParam json) calls) } := by
  induction calls using List.reverseRecOn with
  | nil => rfl
  | append_singleton calls call ih =>
      rw [List.foldl_append, ih, List.foldl_cons, List.foldl_nil, addProperty_eq hj, filledWith, filledWith,
        List.foldl_append]
      rfl

theorem shadow_filled (hj : Assumed json) (randomString : Bytes) (id : Option Bytes)
    (calls : List (Bytes × Param D J)) :
    calls.foldl (addShadow json) (iotShadowPostInitWithId json randomString id) =
      { iotShadowPostInitWithId json randomString id with
        report := some (filledWith json (Param.wanted json) calls) } := by
  induction calls using List.reverseRecOn with
  | nil => rfl
  | append_singleton calls call ih =>
      rw [List.foldl_append, ih, List.foldl_cons, List.foldl_nil, addShadow_eq hj, filledWith, filledWith,
        List.foldl_append]
      rfl

theorem event_filled (held : Option J) (randomString moduleKey identifier : Bytes)
    (calls : List (Bytes × EventParam D)) :
    calls.foldl (addEvent json) (iotTmMsgEventPostInit json held randomString moduleKey identifier) =
      { iotTmMsgEventPostInit json held randomString moduleKey identifier with
        params := some (filledWith json (EventParam.wanted json) calls) } := by
  induction calls using List.reverseRecOn with
  | nil => rfl
  | append_singleton calls call ih =>
      rw [List.foldl_append, ih, List.foldl_cons, List.foldl_nil, addEvent_eq, filledWith, filledWith,
        List.foldl_append]
      rfl

theorem third_member (hj : Assumed json) {first second third : Bytes} (a b : Option J) (params : J)
    (hfirst : foldName (cstr first) ≠ foldName third) (hsecond : foldName (cstr second) ≠ foldName third)
    (hthird : cstr third = third) :
    json.getObjectItem
      (awsJsonAddJsonObj (library json)
        (awsJsonAddJsonObj (library json) (awsJsonAddJsonObj (library json) json.createObject first a) second b)
        third (some params)) third = some params := by
  have hone := add_proper hj (created_proper hj) first a
  have htwo := add_proper hj hone second b
  rw [getObjectItem_add hj htwo, hthird, if_pos rfl, getObjectItem_add hj hone, if_neg hsecond,
    getObjectItem_add hj (created_proper hj), if_neg hfirst, getObjectItem_created hj, Option.bind_some, Option.none_or]

theorem second_member (hj : Assumed json) {first second : Bytes} (a : Option J) (params : J)
    (hfirst : foldName (cstr first) ≠ foldName second) (hsecond : cstr second = second) :
    json.getObjectItem
      (awsJsonAddJsonObj (library json) (awsJsonAddJsonObj (library json) json.createObject first a)
        second (some params)) second = some params := by
  have hone := add_proper hj (created_proper hj) first a
  rw [getObjectItem_add hj hone, hsecond, if_pos rfl, getObjectItem_add hj (created_proper hj), if_neg hfirst,
    getObjectItem_created hj, Option.bind_some, Option.none_or]

theorem property_params (hj : Assumed json) (now : Moment) (id : Option Bytes) (calls : List (Bytes × Param D J × D)) :
    paramsObject json now (.property id calls) = some (filledWith json (timedParam json) calls) := by
  rw [paramsObject, property_filled hj]
  exact third_member hj _ _ _ (by decide) (by decide) (by decide)

theorem shadow_params (hj : Assumed json) (now : Moment) (randomString : Bytes) (id : Option Bytes)
    (calls : List (Bytes × Param D J)) :
    paramsObject json now (.shadow randomString id calls) = some (filledWith json (Param.wanted json) calls) := by
  rw [paramsObject, shadow_filled hj]
  exact Option.bind_eq_some_iff.mpr
    ⟨_, third_member hj _ _ _ (by decide) (by decide) (by decide),
      second_member hj (some ((library json).createNumber now.currentTimeMil)) _ (by decide) (by decide)⟩

theorem event_params (hj : Assumed json) (now : Moment) (randomString moduleKey identifier : Bytes)
    (calls : List (Bytes × EventParam D)) :
    paramsObject json now (.event none randomString moduleKey identifier calls) =
      some (filledWith json (EventParam.wanted json) calls) := by
  rw [paramsObject, event_filled, iotTmMsgEventPostPayload, if_neg (fun h => absurd h.1 Bool.false_ne_true),
    Option.bind_some]
  exact Option.bind_eq_some_iff.mpr
    ⟨_, third_member hj _ _ _ (by decide) (by decide) (by decide),
      second_member hj (some ((library json).createNumber now.currentTimeMil)) _ (by decide) (by decide)⟩

theorem event_held (now : Moment) (held : J) (randomString moduleKey identifier : Bytes)
    (calls : List (Bytes × EventParam D)) :
    paramsObject json now (.event (some held) randomString moduleKey identifier calls) = none := by
  rw [paramsObject, event_filled, iotTmMsgEventPostPayload, if_pos ⟨rfl, rfl⟩]
  rfl

theorem timedValue_timed (hj : Assumed json) (time : D) (value : Option J) :
    timedValue json (timed json time value) = value := by
  have hvalue := add_proper hj (created_proper hj) (text "value") value
  change json.getObjectItem (awsJsonAddJsonObj (library json) _ (text "time") (some _)) (text "value") = value
  rw [getObjectItem_add hj hvalue, if_neg (by decide), getObjectItem_add hj (created_proper hj), if_pos (by decide),
    getObjectItem_created hj]
  cases value <;> rfl

/-- What is passed first for a place stays, so the last call for a key counts where it agrees with the first. -/
theorem holdsLast_iff (hj : Assumed json) (now : Moment) (filled : Filled D J) :
    HoldsLast json now filled ↔ FirstIsLast json filled := by
  cases filled with
  | property id calls =>
      have hfilled := (fold_changes hj (timedParam json) calls).2
      rw [HoldsLast, FirstIsLast]
      simp only [property_params hj, Option.some.injEq, exists_eq_left', filledWith, hfilled]
      refine latest_iff (fun _ => rfl) ?_
      intro p m hm
      rw [← Option.some.inj hm, timedValue_timed hj]
  | shadow randomString id calls =>
      have hfilled := (fold_changes hj (Param.wanted json) calls).2
      rw [HoldsLast, FirstIsLast]
      simp only [shadow_params hj, Option.some.injEq, exists_eq_left', filledWith, hfilled]
      exact latest_iff (fun p => (Option.not_isNone _).symm) (fun p m hm => hm.symm)
  | event held randomString moduleKey identifier calls =>
      rw [HoldsLast, FirstIsLast]
      cases held with
      | none =>
          have hfilled := (fold_changes hj (EventParam.wanted json) calls).2
          simp only [event_params hj, Option.some.injEq, exists_eq_left', filledWith, hfilled, true_and]
          exact latest_iff (fun p => (Option.not_isNone _).symm) (fun p m hm => hm.symm)
      | some held =>
          rw [event_held]
          refine iff_of_false ?_ ?_
          · rintro ⟨_, ⟨⟩, _⟩
          · rintro ⟨⟨⟩, _⟩

end Messages

section Sample

inductive Tree where
  | object (members : List (Bytes × Tree))
  | string (s : Bytes)
  | number (n : Int)

def Tree.isObject : Tree → Bool
  | .object _ => true
  | _ => false

def Tree.members : Tree → List (Bytes × Tree)
  | .object members => members
  | _ => []

def Tree.mapMembers (f : List (Bytes × Tree) → List (Bytes × Tree)) : Tree → Tree
  | .object members => .object (f members)
  | tree => tree

def trees : Nodes Int Tree where
  createObject := .object []
  createString := .string
  createNumber := .number
  double := id
  isObject := Tree.isObject
  isInvalid := fun _ => false
  children := Tree.members
  hasObjectItem := fun o name => (lookup (place foldName) (foldName name) o.members).isSome
  getObjectItem := fun o name => (lookup (place foldName) (foldName name) o.members).map Prod.snd
  addItemToObject := fun o name item => o.mapMembers (fun members => members ++ [(name, item)])
  deleteItemFromObject := fun o name => o.mapMembers (erase (place foldName) (foldName name))
  parse := fun _ => none
  printUnformatted := fun _ => none

theorem trees_assumed : Assumed trees where
  created := ⟨rfl, rfl⟩
  valid _ := rfl
  has _ _ _ := rfl
  got _ _ _ := rfl
  added o name item ho := by
    cases o with
    | object members => exact ⟨rfl, rfl⟩
    | string s => exact absurd ho Bool.false_ne_true
    | number n => exact absurd ho Bool.false_ne_true
  deleted o name ho := by
    cases o with
    | object members => exact ⟨rfl, rfl⟩
    | string s => exact absurd ho Bool.false_ne_true
    | number n => exact absurd ho Bool.false_ne_true
  parse_empty := rfl

def renewed : Filled Int Tree :=
  .shadow [] none [(text "temp", .num 20), (text "temp", .object none), (text "temp", .num 21)]

def twoReadings : Filled Int Tree := .shadow [] none [(text "temp", .num 20), (text "temp", .num 21)]

theorem renewed_holdsLast : HoldsLast trees ⟨0, []⟩ renewed := by
  refine (holdsLast_iff trees_assumed ⟨0, []⟩ renewed).mpr ⟨?_, ?_⟩
  · intro n p v hlast hwant
    by_cases hn : cstr (text "temp") = n
    · subst hn
      exact ⟨p, by rw [← Option.some.inj hlast]; rfl, hwant⟩
    · rw [lastFor_eq_none.mpr (by simpa [keyed] using hn)] at hlast
      exact absurd hlast nofun
  · intro n p hlast hwant
    by_cases hn : cstr (text "temp") = n
    · subst hn
      rw [← Option.some.inj hlast] at hwant
      exact absurd hwant nofun
    · rw [lastFor_eq_none.mpr (by simpa [keyed] using hn)] at hlast
      exact absurd hlast nofun

/-- The second reading of a key is lost. -/
theorem twoReadings_first : ¬HoldsLast trees ⟨0, []⟩ twoReadings := by
  rintro ⟨params, hparams, hlatest⟩
  obtain rfl := Option.some.inj hparams
  have htemp : [some (Tree.number 20)] = [some (Tree.number 21)] := hlatest (text "temp")
  simp at htemp

end Sample

end OneSdk.TmParams
