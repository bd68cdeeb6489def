import Mathlib.Data.List.Perm.Basic

namespace OneSdk.KeyClasses

variable {α κ : Type} (same : κ → κ → Bool) (key : α → κ)

def lookup (l : List α) (k : κ) : Option α := l.find? (fun x => same k (key x))

def Separate (l : List α) : Prop := l.Pairwise (fun x y => same (key x) (key y) = false)

variable {same key} {l l' : List α} {x y : α} {k k' : κ}

theorem lookup_eq_none : lookup same key l k = none ↔ ∀ x ∈ l, same k (key x) = false := by
  simp only [lookup, List.find?_eq_none, Bool.not_eq_true]

theorem lookup_cons : lookup same key (x :: l) k = if same k (key x) then some x else lookup same key l k := by
  rw [lookup, List.find?_cons]
  cases same k (key x) with
  | true => rfl
  | false => rfl

theorem mem_of_lookup (h : lookup same key l k = some x) : x ∈ l ∧ same k (key x) = true :=
  ⟨List.mem_of_find?_eq_some h, (List.find?_some h :)⟩

theorem separate_cons :
    Separate same key (x :: l) ↔ lookup same key l (key x) = none ∧ Separate same key l := by
  rw [Separate, List.pairwise_cons, lookup_eq_none]
  rfl

section Assign

/-- All keys that count as the given one have the value. -/
def assign {β : Type} (same : κ → κ → Bool) (k : κ) (x : Option β) (m : κ → Option β) (k' : κ) : Option β :=
  if same k' k then x else m k'

theorem assign_assign {β : Type} (x y : Option β) (m : κ → Option β) :
    assign same k x (assign same k y m) = assign same k x m := by
  funext k'
  rw [assign, assign, assign]
  split
  · rfl
  · rfl

theorem map_assign {β γ : Type} (f : β → γ) (x : Option β) (m : κ → Option β) (k' : κ) :
    (assign same k x m k').map f = assign same k (x.map f) (fun a => (m a).map f) k' := by
  rw [assign, assign]
  split
  · rfl
  · rfl

end Assign

variable (heq : Equivalence (fun a b => same a b = true))

include heq

theorem same_comm : same k k' = same k' k := by
  cases h : same k' k with
  | true => exact heq.symm h
  | false =>
      rw [Bool.eq_false_iff]
      intro h'
      rw [heq.symm h'] at h
      cases h

theorem same_left (h : same k k' = true) (a : κ) : same k a = same k' a := by
  cases ha : same k' a with
  | true => exact heq.trans h ha
  | false =>
      rw [Bool.eq_false_iff]
      intro h'
      rw [heq.trans (heq.symm h) h'] at ha
      cases ha

theorem lookup_congr (h : same k k' = true) : lookup same key l k = lookup same key l k' := by
  rw [lookup, lookup]
  congr 1
  funext x
  exact same_left heq h (key x)

theorem Separate.perm (hl : Separate same key l) (h : l.Perm l') : Separate same key l' :=
  h.pairwise hl (fun {x y} hxy => by rwa [same_comm heq])

theorem lookup_eq_some (hl : Separate same key l) :
    lookup same key l k = some x ↔ x ∈ l ∧ same k (key x) = true := by
  refine ⟨mem_of_lookup, ?_⟩
  rintro ⟨hx, hk⟩
  induction l with
  | nil => cases hx
  | cons y l ih =>
      obtain ⟨hy, hl⟩ := separate_cons.mp hl
      rw [lookup_cons]
      rcases List.mem_cons.mp hx with rfl | hx
      · rw [if_pos hk]
      · rw [if_neg]
        · exact ih hl hx
        · intro hyk
          have hboth : same (key y) (key x) = true := heq.trans (heq.symm hyk) hk
          rw [lookup_eq_none.mp hy x hx] at hboth
          cases hboth

theorem lookup_perm (hl : Separate same key l) (h : l.Perm l') (k : κ) :
    lookup same key l k = lookup same key l' k := by
  refine Option.ext fun x => ?_
  rw [lookup_eq_some heq hl, lookup_eq_some heq (hl.perm heq h), h.mem_iff]

theorem lookup_rest (hl : Separate same key l) (h : (x :: l').Perm l) (k : κ) :
    lookup same key l' k = if same k (key x) then none else lookup same key l k := by
  have hsep := hl.perm heq h.symm
  rw [lookup_perm heq hl h.symm, lookup_cons]
  split
  · next hk => rw [lookup_congr heq hk, (separate_cons.mp hsep).1]
  · rfl

theorem lookup_replaced {new : Option α} (hnew : ∀ x ∈ new, same k (key x) = true) (h : lookup same key l k = none)
    (k' : κ) : lookup same key (new.toList ++ l) k' = assign same k new (lookup same key l) k' := by
  rw [assign]
  by_cases hk : same k' k = true
  · rw [if_pos hk, lookup_congr heq hk]
    cases new with
    | none => exact h
    | some x => exact lookup_cons.trans (if_pos (hnew x rfl))
  · rw [if_neg hk]
    cases new with
    | none => rfl
    | some x => exact lookup_cons.trans (if_neg (fun hx => hk (heq.trans hx (heq.symm (hnew x rfl)))))

theorem covered_back (hl : Separate same key l) (hl' : Separate same key l')
    (h : ∀ x ∈ l, (lookup same key l' (key x)).isSome) :
    l.length ≤ l'.length ∧ (l'.length ≤ l.length → ∀ y ∈ l', (lookup same key l (key y)).isSome) := by
  induction l generalizing l' with
  | nil =>
      refine ⟨Nat.zero_le _, fun hlen y hy => ?_⟩
      rw [List.eq_nil_of_length_eq_zero (Nat.le_zero.mp hlen)] at hy
      cases hy
  | cons x l ih =>
      obtain ⟨hx, hl⟩ := separate_cons.mp hl
      obtain ⟨y, hy⟩ := Option.isSome_iff_exists.mp (h x List.mem_cons_self)
      obtain ⟨hmem, hxy⟩ := mem_of_lookup hy
      obtain ⟨front, back, hsplit⟩ := List.append_of_mem hmem
      have hperm : (y :: (front ++ back)).Perm l' := by
        rw [hsplit]
        exact List.perm_middle.symm
      have hrest := (separate_cons.mp (hl'.perm heq hperm.symm)).2
      have hcover : ∀ z ∈ l, (lookup same key (front ++ back) (key z)).isSome := by
        intro z hz
        rw [lookup_rest heq hl' hperm, if_neg]
        · exact h z (List.mem_cons_of_mem _ hz)
        · intro hzy
          have hxz := heq.trans hxy (heq.symm hzy)
          rw [lookup_eq_none.mp hx z hz] at hxz
          cases hxz
      obtain ⟨hlen, hback⟩ := ih hl hrest hcover
      rw [← hperm.length_eq]
      refine ⟨Nat.succ_le_succ hlen, fun hle w hw => ?_⟩
      rw [lookup_cons]
      rcases List.mem_cons.mp (hperm.mem_iff.mpr hw) with rfl | hw
      · rw [if_pos (heq.symm hxy)]
        rfl
      · split
        · rfl
        · exact hback (Nat.le_of_succ_le_succ hle) w hw

end OneSdk.KeyClasses
