import OneSdk.CString
import OneSdk.KeyedList

namespace OneSdk.KvStore

open CString KeyedList

/-- What a member of a JSON object holds, as far as the store tells values apart.
A string is a C string. -/
inductive Node (D : Type) where
  | null
  | string (s : Bytes)
  | number (d : D)
  | other
  deriving DecidableEq

abbrev Entry (D : Type) := Bytes × Node D

def tolower (c : UInt8) : UInt8 := if 65 ≤ c ∧ c ≤ 90 then c + 32 else c

/-- A member's name as the lookups compare it. -/
def foldName (name : Bytes) : Bytes := name.map tolower

def entryName {D : Type} (e : Entry D) : Bytes := foldName e.1

/-- cJSON, whose objects are of type `O` and whose numbers are of type `D`. Names are C strings. -/
structure CJson (D O : Type) where
  createObject : O
  isObject : O → Bool
  children : O → List (Entry D)
  hasObjectItem : O → Bytes → Bool
  getObjectItem : O → Bytes → Option (Node D)
  addItemToObject : O → Bytes → Node D → O
  deleteItemFromObject : O → Bytes → O
  printUnformatted : O → Option Bytes
  parse : Bytes → Option O

/-- What the store relies on. Names are compared without the case of ASCII letters. -/
structure Assumed {D O : Type} (json : CJson D O) : Prop where
  created : json.isObject json.createObject = true ∧ json.children json.createObject = []
  has (o : O) (name : Bytes) : json.isObject o = true →
    json.hasObjectItem o name = (lookup entryName (foldName name) (json.children o)).isSome
  got (o : O) (name : Bytes) : json.isObject o = true →
    json.getObjectItem o name = (lookup entryName (foldName name) (json.children o)).map Prod.snd
  added (o : O) (name : Bytes) (item : Node D) : json.isObject o = true →
    json.isObject (json.addItemToObject o name item) = true ∧
      json.children (json.addItemToObject o name item) = json.children o ++ [(name, item)]
  deleted (o : O) (name : Bytes) : json.isObject o = true →
    json.isObject (json.deleteItemFromObject o name) = true ∧
      json.children (json.deleteItemFromObject o name) = erase entryName (foldName name) (json.children o)

def awsOpSuccess : Int := 0

def awsOpErr : Int := -1

section Model

variable {D O : Type} (json : CJson D O)

def awsJsonValueNewString (s : Bytes) : Node D := .string (cstr s)

def awsJsonValueNewNumber (number : D) : Node D := .number number

def awsJsonValueAddToObject (object : O) (key : Bytes) (value : Node D) : Int × O :=
  if json.isObject object = false then (awsOpErr, object)
  else if json.hasObjectItem object (cstr key) = true then (awsOpErr, object)
  else (awsOpSuccess, json.addItemToObject object (cstr key) value)

def awsJsonValueGetFromObject (object : O) (key : Bytes) : Option (Node D) :=
  if json.isObject object = false then none
  else if json.hasObjectItem object (cstr key) = false then none
  else json.getObjectItem object (cstr key)

def awsJsonValueRemoveFromObject (object : O) (key : Bytes) : Int × O :=
  if json.isObject object = false then (awsOpErr, object)
  else if json.hasObjectItem object (cstr key) = false then (awsOpErr, object)
  else (awsOpSuccess, json.deleteItemFromObject object (cstr key))

def awsJsonValueIsNull : Option (Node D) → Bool
  | some .null => true
  | _ => false

/-- The caller's variable keeps its value when there is no string. -/
def awsJsonValueGetString : Option (Node D) → Bytes → Int × Bytes
  | some (.string s), _ => (awsOpSuccess, s)
  | _, output => (awsOpErr, output)

def awsJsonValueGetNumber : Option (Node D) → D → Int × D
  | some (.number d), _ => (awsOpSuccess, d)
  | _, output => (awsOpErr, output)

def awsByteBufAppendJsonString (value : O) : Bytes := (json.printUnformatted value).getD []

def awsJsonValueNewFromString (text : Bytes) : Option O := json.parse (cstr text)

/-- The store in memory and the content of its file, if there is one. -/
structure KvCtx (O : Type) where
  kvJsonData : O
  file : Option Bytes

def iotKvInit (file : Option Bytes) : KvCtx O where
  kvJsonData := match file with
    | none => json.createObject
    | some text => (awsJsonValueNewFromString json text).getD json.createObject
  file := file

def iotWriteFile (ctx : KvCtx O) : KvCtx O :=
  { ctx with file := some (awsByteBufAppendJsonString json ctx.kvJsonData) }

def iotAddKvString (ctx : KvCtx O) (key value : Bytes) : KvCtx O :=
  let removed := (awsJsonValueRemoveFromObject json ctx.kvJsonData key).2
  iotWriteFile json
    { ctx with kvJsonData := (awsJsonValueAddToObject json removed key (awsJsonValueNewString value)).2 }

def iotKvSetNumUseCur (ctx : KvCtx O) (key : Bytes) (num : D) : KvCtx O :=
  let removed := (awsJsonValueRemoveFromObject json ctx.kvJsonData key).2
  iotWriteFile json
    { ctx with kvJsonData := (awsJsonValueAddToObject json removed key (awsJsonValueNewNumber num)).2 }

def iotRemoveKey (ctx : KvCtx O) (key : Bytes) : KvCtx O :=
  iotWriteFile json { ctx with kvJsonData := (awsJsonValueRemoveFromObject json ctx.kvJsonData key).2 }

/-- The bytes that the caller's cursor spans afterwards. -/
def iotGetKvString (ctx : KvCtx O) (key out : Bytes) : Bytes :=
  let valueJson := awsJsonValueGetFromObject json ctx.kvJsonData key
  if awsJsonValueIsNull valueJson = false then (awsJsonValueGetString valueJson out).2 else []

/-- `value` is what the uninitialised local variable holds. -/
def iotKvGetNumUseCur [Zero D] (ctx : KvCtx O) (key : Bytes) (value : D) : D :=
  let valueJson := awsJsonValueGetFromObject json ctx.kvJsonData key
  if awsJsonValueIsNull valueJson = false then (awsJsonValueGetNumber valueJson value).2 else 0

def iotGetKvKeys (ctx : KvCtx O) (keyList : List Bytes) : List Bytes :=
  keyList ++ (json.children ctx.kvJsonData).map Prod.fst

inductive Write (D : Type) where
  | addString (key value : Bytes)
  | setNum (key : Bytes) (num : D)
  | removeKey (key : Bytes)
  deriving DecidableEq

def perform (ctx : KvCtx O) : Write D → KvCtx O
  | .addString key value => iotAddKvString json ctx key value
  | .setNum key num => iotKvSetNumUseCur json ctx key num
  | .removeKey key => iotRemoveKey json ctx key

end Model

section Entries

variable {D O : Type} {json : CJson D O} {ctx : KvCtx O} {key : Bytes} {w : Write D}

def Write.onEntries (l : List (Entry D)) : Write D → List (Entry D)
  | .addString key value => put entryName (cstr key, .string (cstr value)) l
  | .setNum key num => put entryName (cstr key, .number num) l
  | .removeKey key => erase entryName (foldName (cstr key)) l

structure WellFormed (json : CJson D O) (o : O) : Prop where
  object : json.isObject o = true
  keyed : Keyed entryName (json.children o)

theorem created_wellFormed (hj : Assumed json) : WellFormed json json.createObject := by
  refine ⟨hj.created.1, ?_⟩
  rw [hj.created.2]
  exact keyed_nil

theorem removed (hj : Assumed json) {o : O} (ho : WellFormed json o) (key : Bytes) :
    json.isObject (awsJsonValueRemoveFromObject json o key).2 = true ∧
      json.children (awsJsonValueRemoveFromObject json o key).2 =
        erase entryName (foldName (cstr key)) (json.children o) := by
  rw [awsJsonValueRemoveFromObject, if_neg (by simp [ho.object])]
  split
  next hnone =>
    rw [hj.has o _ ho.object, Option.isSome_eq_false_iff, Option.isNone_iff_eq_none, lookup_eq_none] at hnone
    refine ⟨ho.object, ?_⟩
    rw [erase, List.eraseP_of_forall_not]
    exact fun e he => by simpa using hnone e he
  next => exact hj.deleted o (cstr key) ho.object

theorem replaced (hj : Assumed json) {o : O} (ho : WellFormed json o) (key : Bytes) (node : Node D) :
    json.isObject (awsJsonValueAddToObject json (awsJsonValueRemoveFromObject json o key).2 key node).2 = true ∧
      json.children (awsJsonValueAddToObject json (awsJsonValueRemoveFromObject json o key).2 key node).2 =
        put entryName (cstr key, node) (json.children o) := by
  obtain ⟨hobj, hchildren⟩ := removed hj ho key
  have hfree : json.hasObjectItem (awsJsonValueRemoveFromObject json o key).2 (cstr key) = false := by
    rw [hj.has _ _ hobj, Option.isSome_eq_false_iff, Option.isNone_iff_eq_none, lookup_eq_none, hchildren]
    exact fun e he => ((mem_erase ho.keyed).mp he).2
  rw [awsJsonValueAddToObject, if_neg (by simp [hobj]), if_neg (by simp [hfree])]
  have hadd := hj.added _ (cstr key) node hobj
  rw [hchildren] at hadd
  exact hadd

theorem perform_object (hj : Assumed json) (hc : WellFormed json ctx.kvJsonData) (w : Write D) :
    json.isObject (perform json ctx w).kvJsonData = true ∧
      json.children (perform json ctx w).kvJsonData = w.onEntries (json.children ctx.kvJsonData) := by
  cases w with
  | addString key value => exact replaced hj hc key (.string (cstr value))
  | setNum key num => exact replaced hj hc key (.number num)
  | removeKey key => exact removed hj hc key

theorem perform_wellFormed (hj : Assumed json) (hc : WellFormed json ctx.kvJsonData) (w : Write D) :
    WellFormed json (perform json ctx w).kvJsonData := by
  obtain ⟨hobj, hchildren⟩ := perform_object hj hc w
  refine ⟨hobj, ?_⟩
  rw [hchildren]
  cases w with
  | addString key value => exact keyed_put hc.keyed
  | setNum key num => exact keyed_put hc.keyed
  | removeKey key => exact keyed_erase hc.keyed

theorem perform_file (ctx : KvCtx O) (w : Write D) :
    (perform json ctx w).file = some (awsByteBufAppendJsonString json (perform json ctx w).kvJsonData) := by
  cases w <;> rfl

theorem getFromObject (hj : Assumed json) {o : O} (ho : WellFormed json o) (key : Bytes) :
    awsJsonValueGetFromObject json o key =
      (lookup entryName (foldName (cstr key)) (json.children o)).map Prod.snd := by
  rw [awsJsonValueGetFromObject, if_neg (by simp [ho.object])]
  split
  next hnone =>
    rw [hj.has o _ ho.object, Option.isSome_eq_false_iff, Option.isNone_iff_eq_none] at hnone
    rw [hnone, Option.map_none]
  next => exact hj.got o (cstr key) ho.object

theorem getFromObject_eq_some (hj : Assumed json) {o : O} (ho : WellFormed json o) {key : Bytes} {node : Node D} :
    awsJsonValueGetFromObject json o key = some node ↔
      ∃ name, (name, node) ∈ json.children o ∧ foldName name = foldName (cstr key) := by
  rw [getFromObject hj ho, Option.map_eq_some_iff]
  constructor
  · rintro ⟨⟨name, _⟩, hfound, rfl⟩
    exact ⟨name, (lookup_eq_some ho.keyed).mp hfound⟩
  · rintro ⟨name, hmem, hname⟩
    exact ⟨(name, node), (lookup_eq_some ho.keyed).mpr ⟨hmem, hname⟩, rfl⟩

theorem getString_of_mem (hj : Assumed json) (hc : WellFormed json ctx.kvJsonData) {name s : Bytes}
    (hmem : (name, .string s) ∈ json.children ctx.kvJsonData) (hname : foldName name = foldName (cstr key))
    (out : Bytes) : iotGetKvString json ctx key out = s := by
  rw [iotGetKvString, (getFromObject_eq_some hj hc).mpr ⟨name, hmem, hname⟩]
  rfl

theorem getNum_of_mem [Zero D] (hj : Assumed json) (hc : WellFormed json ctx.kvJsonData) {name : Bytes} {d : D}
    (hmem : (name, .number d) ∈ json.children ctx.kvJsonData) (hname : foldName name = foldName (cstr key))
    (value : D) : iotKvGetNumUseCur json ctx key value = d := by
  rw [iotKvGetNumUseCur, (getFromObject_eq_some hj hc).mpr ⟨name, hmem, hname⟩]
  rfl

theorem getString_added (hj : Assumed json) (hc : WellFormed json ctx.kvJsonData) (key value k out : Bytes) :
    iotGetKvString json (iotAddKvString json ctx key value) k out =
      if foldName (cstr k) = foldName (cstr key) then cstr value else iotGetKvString json ctx k out := by
  have hwf := perform_wellFormed hj hc (.addString key value)
  have hchildren := (perform_object hj hc (.addString key value)).2
  rw [perform] at hwf hchildren
  rw [iotGetKvString, getFromObject hj hwf, hchildren, Write.onEntries, lookup_put hc.keyed, entryName,
    iotGetKvString, getFromObject hj hc]
  split <;> rfl

theorem getString_removed (hj : Assumed json) (hc : WellFormed json ctx.kvJsonData) (key k out : Bytes) :
    iotGetKvString json (iotRemoveKey json ctx key) k out =
      if foldName (cstr k) = foldName (cstr key) then out else iotGetKvString json ctx k out := by
  have hwf := perform_wellFormed hj hc (.removeKey key)
  have hchildren := (perform_object hj hc (.removeKey key)).2
  rw [perform] at hwf hchildren
  rw [iotGetKvString, getFromObject hj hwf, hchildren, Write.onEntries, lookup_erase hc.keyed,
    iotGetKvString, getFromObject hj hc]
  split <;> rfl

theorem getString_of_none (hj : Assumed json) (hc : WellFormed json ctx.kvJsonData)
    (hnull : ∀ name, (name, .null) ∉ json.children ctx.kvJsonData)
    (hnone : ∀ name s, (name, .string s) ∈ json.children ctx.kvJsonData → foldName name ≠ foldName (cstr key))
    (out : Bytes) : iotGetKvString json ctx key out = out := by
  rw [iotGetKvString]
  cases h : awsJsonValueGetFromObject json ctx.kvJsonData key with
  | none => rfl
  | some node =>
      obtain ⟨name, hmem, hname⟩ := (getFromObject_eq_some hj hc).mp h
      cases node with
      | null => exact absurd hmem (hnull name)
      | string s => exact absurd hname (hnone name s hmem)
      | number d => rfl
      | other => rfl

theorem getNum_of_none [Zero D] (hj : Assumed json) (hc : WellFormed json ctx.kvJsonData)
    (hnull : ∀ name, (name, .null) ∉ json.children ctx.kvJsonData)
    (hnone : ∀ name d, (name, .number d) ∈ json.children ctx.kvJsonData → foldName name ≠ foldName (cstr key))
    (value : D) : iotKvGetNumUseCur json ctx key value = value := by
  rw [iotKvGetNumUseCur]
  cases h : awsJsonValueGetFromObject json ctx.kvJsonData key with
  | none => rfl
  | some node =>
      obtain ⟨name, hmem, hname⟩ := (getFromObject_eq_some hj hc).mp h
      cases node with
      | null => exact absurd hmem (hnull name)
      | string s => rfl
      | number d => exact absurd hname (hnone name d hmem)
      | other => rfl

end Entries

section Lists

def quoted (s : Bytes) : Bytes := 34 :: s ++ [34]

/-- The text of a value, for strings without a character that is escaped. -/
def nodeText : Node Nat → Bytes
  | .null => text "null"
  | .string s => quoted s
  | .number d => ascii (Nat.toDigits 10 d)
  | .other => text "true"

def objectText (o : List (Entry Nat)) : Bytes :=
  123 :: [44].intercalate (o.map (fun e => quoted e.1 ++ 58 :: nodeText e.2)) ++ [125]

def listJson (known : List (List (Entry Nat))) : CJson Nat (List (Entry Nat)) where
  createObject := []
  isObject _ := true
  children o := o
  hasObjectItem o name := (lookup entryName (foldName name) o).isSome
  getObjectItem o name := (lookup entryName (foldName name) o).map Prod.snd
  addItemToObject o name item := o ++ [(name, item)]
  deleteItemFromObject o name := erase entryName (foldName name) o
  printUnformatted o := some (objectText o)
  parse text := known.find? (fun o => objectText o == text)

theorem listJson_assumed (known : List (List (Entry Nat))) : Assumed (listJson known) where
  created := ⟨rfl, rfl⟩
  has _ _ _ := rfl
  got _ _ _ := rfl
  added _ _ _ _ := ⟨rfl, rfl⟩
  deleted _ _ _ := ⟨rfl, rfl⟩

end Lists

end OneSdk.KvStore
