import Mathlib.Data.List.GetD
import Mathlib.Tactic.Ring

namespace OneSdk.BlockChaining

variable {α β : Type}

section Chain

variable (mix : β → β → β)

def encrypt (enc : β → β) : β → List β → List β
  | _, [] => []
  | iv, block :: rest => enc (mix block iv) :: encrypt enc (enc (mix block iv)) rest

def decrypt (dec : β → β) : β → List β → List β
  | _, [] => []
  | iv, block :: rest => mix (dec block) iv :: decrypt dec block rest

variable {mix} {enc dec : β → β}

theorem encrypt_length (iv : β) (blocks : List β) : (encrypt mix enc iv blocks).length = blocks.length := by
  induction blocks generalizing iv with
  | nil => rfl
  | cons block rest ih => rw [encrypt, List.length_cons, ih, List.length_cons]

theorem decrypt_length (iv : β) (blocks : List β) : (decrypt mix dec iv blocks).length = blocks.length := by
  induction blocks generalizing iv with
  | nil => rfl
  | cons block rest ih => rw [decrypt, List.length_cons, ih, List.length_cons]

theorem decrypt_encrypt (hmix : ∀ b c, mix (mix b c) c = b) (hdec : ∀ b, dec (enc b) = b) (iv : β) (blocks : List β) :
    decrypt mix dec iv (encrypt mix enc iv blocks) = blocks := by
  induction blocks generalizing iv with
  | nil => rfl
  | cons block rest ih => rw [encrypt, decrypt, hdec, hmix, ih]

end Chain

section Split

variable {n : Nat}

def join (blocks : List (Vector α n)) : List α := (blocks.map Vector.toList).flatten

theorem join_length (blocks : List (Vector α n)) : (join blocks).length = n * blocks.length := by
  induction blocks with
  | nil => rfl
  | cons v rest ih =>
      have hcons : join (v :: rest) = v.toList ++ join rest := rfl
      rw [hcons, List.length_append, ih, Vector.length_toList, List.length_cons]
      ring

variable [Inhabited α]

def front (n : Nat) (l : List α) : Vector α n := Vector.ofFn (fun i => l.getD i default)

def split (n : Nat) : Nat → List α → List (Vector α n)
  | 0, _ => []
  | k + 1, l => front n l :: split n k (l.drop n)

theorem front_getElem {l : List α} {i : Nat} (hi : i < n) (hl : i < l.length) : (front n l)[i] = l[i] :=
  (Vector.getElem_ofFn hi).trans (List.getD_eq_getElem l default hl)

theorem front_append (v : Vector α n) (l : List α) : front n (v.toList ++ l) = v := by
  apply Vector.ext
  intro i hi
  have hv : i < v.toList.length := by rw [Vector.length_toList]; exact hi
  have hlt : i < (v.toList ++ l).length := by rw [List.length_append]; exact Nat.lt_add_right l.length hv
  rw [front_getElem hi hlt, List.getElem_append_left hv, Vector.getElem_toList]

theorem front_toList {l : List α} (h : n ≤ l.length) : (front n l).toList = l.take n := by
  apply List.ext_getElem
  · rw [Vector.length_toList, List.length_take, Nat.min_eq_left h]
  · intro i hi _
    rw [Vector.length_toList] at hi
    rw [Vector.getElem_toList, front_getElem hi (hi.trans_le h), List.getElem_take]

theorem front_take {l : List α} (h : n ≤ l.length) : front n (l.take n) = front n l := by
  have hlen : n ≤ (l.take n).length := by rw [List.length_take, Nat.min_eq_left h]
  apply Vector.toList_inj.mp
  rw [front_toList hlen, front_toList h, List.take_take, Nat.min_self]

theorem split_length (k : Nat) (l : List α) : (split n k l).length = k := by
  induction k generalizing l with
  | zero => rfl
  | succ k ih => rw [split, List.length_cons, ih]

theorem split_join (blocks : List (Vector α n)) : split n blocks.length (join blocks) = blocks := by
  induction blocks with
  | nil => rfl
  | cons v rest ih =>
      have hcons : join (v :: rest) = v.toList ++ join rest := rfl
      have hdrop : (v.toList ++ join rest).drop n = join rest := List.drop_left' Vector.length_toList
      rw [List.length_cons, split, hcons, front_append, hdrop, ih]

theorem join_split {k : Nat} {l : List α} (h : l.length = n * k) : join (split n k l) = l := by
  induction k generalizing l with
  | zero =>
      rw [Nat.mul_zero, List.length_eq_zero_iff] at h
      rw [h]
      rfl
  | succ k ih =>
      have hcons : join (front n l :: split n k (l.drop n)) = (front n l).toList ++ join (split n k (l.drop n)) := rfl
      have hfirst : n ≤ l.length := by rw [h, Nat.mul_succ]; exact Nat.le_add_left n (n * k)
      have hrest : (l.drop n).length = n * k := by rw [List.length_drop, h, Nat.mul_succ, Nat.add_sub_cancel]
      rw [split, hcons, front_toList hfirst, ih hrest, List.take_append_drop]

end Split

end OneSdk.BlockChaining
