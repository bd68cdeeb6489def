import OneSdk.KvStore
import Mathlib.Logic.Function.Basic

namespace OneSdk.JsonOwnership

open CString
open KvStore (foldName)

structure Root where
  isObject : Bool
  names : List Bytes

/-- cJSON with the memory `H` of its nodes. There is no result where a node is gone, or has an owner
and must have none. What strings and numbers say plays no part. -/
structure CJson (H : Type) where
  createObject : H → Nat × H
  createValue : H → Nat × H
  wellFormed : Bytes → Bool
  parse : H → Bytes → Option Nat × H
  isObject : H → Nat → Option Bool
  isInvalid : H → Nat → Option Bool
  hasObjectItem : H → Nat → Bytes → Option Bool
  addItemToObject : H → Nat → Bytes → Nat → Option H
  deleteItemFromObject : H → Nat → Bytes → Option H
  delete : H → Nat → Option H

/-- `root` gives the nodes that stand alone. An added item goes over to the object, which destroys it in
the end, so it must not be destroyed itself. -/
structure Assumed {H : Type} (json : CJson H) (root : H → Nat → Option Root) : Prop where
  objectCreated (h : H) : root h (json.createObject h).1 = none ∧
    root (json.createObject h).2 = Function.update (root h) (json.createObject h).1 (some ⟨true, []⟩)
  valueCreated (h : H) : root h (json.createValue h).1 = none ∧
    root (json.createValue h).2 = Function.update (root h) (json.createValue h).1 (some ⟨false, []⟩)
  parsed (h : H) (text : Bytes) : (json.parse h text).1.isSome = json.wellFormed text
  unparsed (h : H) (text : Bytes) : (json.parse h text).1 = none → root (json.parse h text).2 = root h
  parsedNode (h : H) (text : Bytes) (n : Nat) : (json.parse h text).1 = some n →
    root h n = none ∧ ∃ t, root (json.parse h text).2 = Function.update (root h) n (some t)
  typed (h : H) (n : Nat) (t : Root) : root h n = some t → json.isObject h n = some t.isObject
  valid (h : H) (n : Nat) (t : Root) : root h n = some t → json.isInvalid h n = some false
  neverInvalid (h : H) (n : Nat) : json.isInvalid h n ≠ some true
  has (h : H) (n : Nat) (name : Bytes) (t : Root) : root h n = some t →
    json.hasObjectItem h n name = some (decide (foldName name ∈ t.names.map foldName))
  added (h : H) (o v : Nat) (name : Bytes) (t w : Root) : root h o = some t → t.isObject = true →
    root h v = some w → o ≠ v → ∃ h', json.addItemToObject h o name v = some h' ∧
      root h' = Function.update (Function.update (root h) v none) o (some ⟨true, t.names ++ [name]⟩)
  deletedItem (h : H) (o : Nat) (name : Bytes) (t : Root) : root h o = some t → t.isObject = true →
    ∃ h', json.deleteItemFromObject h o name = some h' ∧
      root h' = Function.update (root h) o
        (some ⟨true, t.names.eraseP (fun n => foldName n == foldName name)⟩)
  deleted (h : H) (n : Nat) (t : Root) : root h n = some t →
    ∃ h', json.delete h n = some h' ∧ root h' = Function.update (root h) n none
  notAlone (h : H) (n : Nat) : root h n = none → json.delete h n = none

section Model

variable {H : Type} (json : CJson H)

def awsJsonValueAddToObject (h : H) (object : Option Nat) (key : Bytes) (value : Nat) : Option H :=
  match object with
  | none => some h
  | some o =>
      (json.isObject h o).bind fun isObject =>
        if isObject = false then some h
        else (json.isInvalid h value).bind fun isInvalid =>
          if isInvalid = true then some h
          else (json.hasObjectItem h o (cstr key)).bind fun has =>
            if has = true then some h else json.addItemToObject h o (cstr key) value

def awsJsonValueRemoveFromObject (h : H) (object : Option Nat) (key : Bytes) : Option H :=
  match object with
  | none => some h
  | some o =>
      (json.isObject h o).bind fun isObject =>
        if isObject = false then some h
        else (json.hasObjectItem h o (cstr key)).bind fun has =>
          if has = false then some h else json.deleteItemFromObject h o (cstr key)

def awsJsonAddJsonObj (h : H) (object : Option Nat) (key : Bytes) : Option Nat → Option H
  | none => awsJsonValueRemoveFromObject json h object key
  | some value => awsJsonValueAddToObject json h object key value

def awsJsonAddNumVal (h : H) (object : Option Nat) (key : Bytes) : Option H :=
  let value := json.createValue h
  awsJsonValueAddToObject json value.2 object key value.1

def awsJsonAddStrVal (h : H) (object : Option Nat) (key : Bytes) : Option Bytes → Option H
  | none => awsJsonValueRemoveFromObject json h object key
  | some _ => awsJsonAddNumVal json h object key

def awsJsonValueNewFromString (h : H) (text : Option Bytes) : Option Nat × H := json.parse h (cstr (text.getD []))

def awsJsonValueDestroy (h : H) : Option Nat → Option H
  | none => some h
  | some n => (json.isInvalid h n).bind fun isInvalid => if isInvalid = true then some h else json.delete h n

end Model

section Rules

variable {H : Type} {json : CJson H} {root : H → Nat → Option Root} {h h' : H} {o v n : Nat} {t w : Root} {key : Bytes}

theorem destroy_root (hj : Assumed json root) (hn : root h n = some t) :
    ∃ h', awsJsonValueDestroy json h (some n) = some h' ∧ root h' = Function.update (root h) n none := by
  obtain ⟨h', hdelete, hroot⟩ := hj.deleted h n t hn
  refine ⟨h', ?_, hroot⟩
  rw [awsJsonValueDestroy, hj.valid h n t hn, Option.bind_some, if_neg Bool.false_ne_true, hdelete]

theorem destroy_notAlone (hj : Assumed json root) (hn : root h n = none) :
    awsJsonValueDestroy json h (some n) = none := by
  rw [awsJsonValueDestroy]
  cases hinvalid : json.isInvalid h n with
  | none => rfl
  | some isInvalid =>
      cases isInvalid with
      | true => exact absurd hinvalid (hj.neverInvalid h n)
      | false => rw [Option.bind_some, if_neg Bool.false_ne_true, hj.notAlone h n hn]

theorem add_absent (hj : Assumed json root) (ho : root h o = some t) (hobject : t.isObject = true)
    (hv : root h v = some w) (hne : o ≠ v) (habsent : foldName (cstr key) ∉ t.names.map foldName) :
    ∃ h', awsJsonValueAddToObject json h (some o) key v = some h' ∧
      root h' = Function.update (Function.update (root h) v none) o (some ⟨true, t.names ++ [cstr key]⟩) := by
  obtain ⟨h', hadd, hroot⟩ := hj.added h o v (cstr key) t w ho hobject hv hne
  refine ⟨h', ?_, hroot⟩
  simp only [awsJsonValueAddToObject, hj.typed h o t ho, hobject, hj.valid h v w hv, hj.has h o (cstr key) t ho, hadd,
    Option.bind_some, habsent, decide_false, Bool.false_eq_true, reduceCtorEq, if_false]

theorem add_present (hj : Assumed json root) (ho : root h o = some t) (hobject : t.isObject = true)
    (hv : root h v = some w) (hpresent : foldName (cstr key) ∈ t.names.map foldName) :
    awsJsonValueAddToObject json h (some o) key v = some h := by
  simp only [awsJsonValueAddToObject, hj.typed h o t ho, hobject, hj.valid h v w hv, hj.has h o (cstr key) t ho,
    Option.bind_some, hpresent, decide_true, Bool.false_eq_true, reduceCtorEq, if_false, if_true]

theorem remove_absent (hj : Assumed json root) (ho : root h o = some t) (hobject : t.isObject = true)
    (habsent : foldName (cstr key) ∉ t.names.map foldName) :
    awsJsonValueRemoveFromObject json h (some o) key = some h := by
  simp only [awsJsonValueRemoveFromObject, hj.typed h o t ho, hobject, hj.has h o (cstr key) t ho, Option.bind_some,
    habsent, decide_false, reduceCtorEq, if_false, if_true]

theorem remove_present (hj : Assumed json root) (ho : root h o = some t) (hobject : t.isObject = true)
    (hpresent : foldName (cstr key) ∈ t.names.map foldName) :
    ∃ h' names, awsJsonValueRemoveFromObject json h (some o) key = some h' ∧
      root h' = Function.update (root h) o (some ⟨true, names⟩) := by
  obtain ⟨h', hdelete, hroot⟩ := hj.deletedItem h o (cstr key) t ho hobject
  refine ⟨h', _, ?_, hroot⟩
  simp only [awsJsonValueRemoveFromObject, hj.typed h o t ho, hobject, hj.has h o (cstr key) t ho, hdelete,
    Option.bind_some, hpresent, decide_true, reduceCtorEq, if_false]

theorem ne_of_alone {m : Nat} (hn : root h n = none) (hm : root h m = some t) : n ≠ m := by
  rintro rfl
  rw [hn] at hm
  cases hm

def Makes (root : H → Nat → Option Root) (h : H) (v : Nat) (h' : H) : Prop :=
  root h v = none ∧ ∃ w, root h' = Function.update (root h) v (some w)

theorem object_makes (hj : Assumed json root) (h : H) : Makes root h (json.createObject h).1 (json.createObject h).2 :=
  ⟨(hj.objectCreated h).1, _, (hj.objectCreated h).2⟩

theorem value_makes (hj : Assumed json root) (h : H) : Makes root h (json.createValue h).1 (json.createValue h).2 :=
  ⟨(hj.valueCreated h).1, _, (hj.valueCreated h).2⟩

theorem Makes.self (hmakes : Makes root h v h') : ∃ w, root h' v = some w := by
  obtain ⟨-, w, hroot⟩ := hmakes
  exact ⟨w, by rw [hroot, Function.update_self]⟩

theorem Makes.other (hmakes : Makes root h v h') (hn : root h n = some t) : n ≠ v ∧ root h' n = some t := by
  obtain ⟨hfree, w, hroot⟩ := hmakes
  have hne := (ne_of_alone hfree hn).symm
  exact ⟨hne, by rw [hroot, Function.update_of_ne hne, hn]⟩

theorem addNew_absent (hj : Assumed json root) (hmakes : Makes root h v h') (ho : root h o = some t)
    (hobject : t.isObject = true) (habsent : foldName (cstr key) ∉ t.names.map foldName) :
    ∃ h'', awsJsonValueAddToObject json h' (some o) key v = some h'' ∧
      root h'' = Function.update (root h) o (some ⟨true, t.names ++ [cstr key]⟩) := by
  obtain ⟨hne, ho'⟩ := hmakes.other ho
  obtain ⟨w, hv⟩ := hmakes.self
  obtain ⟨h'', hadd, hroot⟩ := add_absent hj ho' hobject hv hne habsent
  refine ⟨h'', hadd, ?_⟩
  obtain ⟨hfree, w', hmade⟩ := hmakes
  have hback : Function.update (root h') v none = root h := by
    rw [hmade, Function.update_idem, ← hfree, Function.update_eq_self]
  rw [hroot, hback]

end Rules

end OneSdk.JsonOwnership
