import Mathlib.Data.List.Forall2
import Mathlib.Data.List.Induction

namespace OneSdk.TopicFilter

section Levels

variable {α : Type} [DecidableEq α] (sep wild : α)

def LevelMatches (level pattern : List α) : Prop := pattern = [wild] ∨ level = pattern

/-- A topic matches a filter level by level, the wildcard standing for one level. -/
def Matches (topic filter : List α) : Prop :=
  List.Forall₂ (LevelMatches wild) (topic.splitOn sep) (filter.splitOn sep)

instance (level pattern : List α) : Decidable (LevelMatches wild level pattern) :=
  inferInstanceAs (Decidable (_ ∨ _))

instance (topic filter : List α) : Decidable (Matches sep wild topic filter) :=
  inferInstanceAs (Decidable (List.Forall₂ _ _ _))

omit [DecidableEq α] in
theorem levels_eq {levels patterns : List (List α)} (h : List.Forall₂ (LevelMatches wild) levels patterns)
    (hw : [wild] ∉ patterns) : levels = patterns := by
  induction h with
  | nil => rfl
  | cons hlevel _ ih =>
      obtain ⟨hne, hrest⟩ := not_or.mp (fun ho => hw (List.mem_cons.mpr ho))
      rw [ih hrest, hlevel.resolve_left (fun he => hne he.symm)]

theorem matches_literal {topic filter : List α} (hw : [wild] ∉ filter.splitOn sep) :
    Matches sep wild topic filter ↔ topic = filter := by
  constructor
  · intro h
    have heq : topic.splitOn sep = filter.splitOn sep := levels_eq wild h hw
    exact (List.intercalate_splitOn sep).symm.trans (heq ▸ List.intercalate_splitOn sep)
  · rintro rfl
    exact List.forall₂_same.mpr (fun _ _ => .inr rfl)

def Opens (stem : List α) : Prop := stem = [] ∨ ∃ init, stem = init ++ [sep]

inductive Served : List α → List α → Prop
  | same (topic : List α) : Served topic topic
  | level {stem level : List α} (hstem : Opens sep stem) (hlevel : sep ∉ level) :
      Served (stem ++ level) (stem ++ [wild])

variable {sep wild}

theorem splitOn_after {stem a : List α} (hstem : Opens sep stem) (ha : sep ∉ a) :
    (stem ++ a).splitOn sep = (stem.splitOn sep).dropLast ++ [a] := by
  rcases hstem with rfl | ⟨init, rfl⟩
  · rw [List.nil_append, List.splitOn_eq_singleton ha, List.splitOn_nil]
    rfl
  · rw [List.append_assoc, List.singleton_append, List.splitOn_append_cons_self, List.splitOn_append_cons_self,
      List.splitOn_eq_singleton ha, List.splitOn_nil, List.dropLast_concat]

theorem matches_after {stem a b : List α} (hstem : Opens sep stem) (ha : sep ∉ a) (hb : sep ∉ b) :
    Matches sep wild (stem ++ a) (stem ++ b) ↔ LevelMatches wild a b := by
  rw [Matches, splitOn_after hstem ha, splitOn_after hstem hb]
  constructor
  · intro h
    have hlast := List.forall₂_drop ((stem.splitOn sep).dropLast.length) h
    rw [List.drop_left, List.drop_left] at hlast
    exact (List.forall₂_cons.mp hlast).1
  · intro h
    exact List.rel_append (List.forall₂_same.mpr (fun _ _ => .inr rfl)) (.cons h .nil)

theorem length_splitOn (xs : List α) : (xs.splitOn sep).length = xs.count sep + 1 := by
  induction xs with
  | nil => rfl
  | cons x xs ih =>
      rw [List.splitOn_cons_eq_if_modifyHead, List.count_cons]
      split
      · rw [List.length_cons, ih]
      · rw [List.length_modifyHead, ih, Nat.add_zero]

theorem Matches.count_eq {topic filter : List α} (h : Matches sep wild topic filter) :
    topic.count sep = filter.count sep := by
  have hlength := List.Forall₂.length_eq h
  rw [length_splitOn, length_splitOn] at hlength
  exact Nat.succ.inj hlength

theorem exists_opens (sep : α) (xs : List α) : ∃ stem level, xs = stem ++ level ∧ Opens sep stem ∧ sep ∉ level := by
  induction xs using List.reverseRecOn with
  | nil => exact ⟨[], [], rfl, .inl rfl, List.not_mem_nil⟩
  | append_singleton xs x ih =>
      obtain ⟨stem, level, rfl, hstem, hlevel⟩ := ih
      by_cases hx : x = sep
      · subst hx
        exact ⟨stem ++ level ++ [x], [], (List.append_nil _).symm, .inr ⟨_, rfl⟩, List.not_mem_nil⟩
      · refine ⟨stem, level ++ [x], List.append_assoc _ _ _, hstem, fun h => ?_⟩
        rcases List.mem_append.mp h with h | h
        · exact hlevel h
        · exact hx (List.mem_singleton.mp h).symm

theorem Matches.served {stem a b : List α} (h : Matches sep wild (stem ++ a) (stem ++ b)) (hab : sep ∉ a ∨ sep ∉ b) :
    Served sep wild (stem ++ a) (stem ++ b) := by
  have hcount := h.count_eq
  rw [List.count_append, List.count_append, Nat.add_left_cancel_iff] at hcount
  have hboth : sep ∉ a ∧ sep ∉ b := by
    rw [← List.count_eq_zero, ← List.count_eq_zero] at hab ⊢
    omega
  obtain ⟨init, level, rfl, hinit, hlevel⟩ := exists_opens sep stem
  have hlast {x : List α} (hx : sep ∉ x) : sep ∉ level ++ x := fun h => (List.mem_append.mp h).elim hlevel hx
  rw [List.append_assoc, List.append_assoc] at h ⊢
  rcases (matches_after hinit (hlast hboth.1) (hlast hboth.2)).mp h with hwild | hsame
  · rw [hwild]
    exact .level hinit (hlast hboth.1)
  · rw [hsame]
    exact .same _

theorem Served.matches (hne : sep ≠ wild) {topic filter : List α} (h : Served sep wild topic filter) :
    Matches sep wild topic filter := by
  cases h with
  | same => exact List.forall₂_same.mpr (fun _ _ => .inr rfl)
  | level hstem hlevel =>
      refine (matches_after hstem hlevel ?_).mpr (.inl rfl)
      exact fun h => hne (List.mem_singleton.mp h)

end Levels

section FirstMatch

variable {β : Type}

def firstMatch (p : β → Bool) : Nat → List β → Option (Nat × β)
  | _, [] => none
  | i, x :: xs => if p x then some (i, x) else firstMatch p (i + 1) xs

variable {p q : β → Bool}

theorem firstMatch_ge {i j : Nat} {xs : List β} {x : β} (h : firstMatch p i xs = some (j, x)) : i ≤ j := by
  induction xs generalizing i with
  | nil => simp [firstMatch] at h
  | cons y xs ih =>
      rw [firstMatch] at h
      split at h
      · obtain ⟨rfl, -⟩ : i = j ∧ y = x := by simpa using h
        exact Nat.le_refl i
      · exact Nat.le_of_succ_le (ih h)

theorem firstMatch_fst_ne (i : Nat) (xs : List β) : (firstMatch p (i + 1) xs).map Prod.fst ≠ some i := by
  intro h
  obtain ⟨⟨j, x⟩, hj, rfl⟩ := Option.map_eq_some_iff.mp h
  exact absurd (firstMatch_ge hj) (Nat.not_succ_le_self _)

theorem firstMatch_eq_none {i : Nat} {xs : List β} : firstMatch p i xs = none ↔ ∀ x ∈ xs, p x = false := by
  induction xs generalizing i with
  | nil => exact iff_of_true rfl (fun x hx => absurd hx List.not_mem_nil)
  | cons y xs ih =>
      rw [firstMatch, List.forall_mem_cons]
      cases hy : p y with
      | true => simp
      | false => simpa using ih

theorem mem_of_firstMatch {i j : Nat} {xs : List β} {x : β} (h : firstMatch p i xs = some (j, x)) :
    x ∈ xs ∧ p x = true := by
  induction xs generalizing i with
  | nil => simp [firstMatch] at h
  | cons y xs ih =>
      rw [firstMatch] at h
      split at h
      next hy =>
        obtain ⟨-, rfl⟩ : i = j ∧ y = x := by simpa using h
        exact ⟨List.mem_cons_self, hy⟩
      next => exact (ih h).imp_left (List.mem_cons_of_mem y)

def Agree (p q : β → Bool) (xs : List β) : Prop :=
  ∀ x ∈ xs.find? (fun x => p x || q x), p x = true ∧ q x = true

instance (xs : List β) : Decidable (Agree p q xs) := inferInstanceAs (Decidable (∀ x ∈ xs.find? _, _))

theorem agree_cons (x : β) (xs : List β) :
    Agree p q (x :: xs) ↔ if p x || q x then p x = true ∧ q x = true else Agree p q xs := by
  rw [Agree, List.find?_cons]
  cases h : (p x || q x) with
  | true => simp
  | false => rfl

/-- Two tests select the same element, at the same place, exactly when they agree. -/
theorem firstMatch_fst_eq_iff (i : Nat) (xs : List β) :
    (firstMatch p i xs).map Prod.fst = (firstMatch q i xs).map Prod.fst ↔ Agree p q xs := by
  induction xs generalizing i with
  | nil => simp [firstMatch, Agree]
  | cons x xs ih =>
      rw [agree_cons, firstMatch, firstMatch]
      cases hp : p x with
      | true =>
          cases hq : q x with
          | true => simp
          | false =>
              have hne := firstMatch_fst_ne (p := q) i xs
              simpa [eq_comm] using hne
      | false =>
          cases hq : q x with
          | true => simpa using firstMatch_fst_ne (p := p) i xs
          | false => simpa using ih (i + 1)

theorem firstMatch_of_agree (i : Nat) {xs : List β} (h : Agree p q xs) : firstMatch p i xs = firstMatch q i xs := by
  induction xs generalizing i with
  | nil => rfl
  | cons x xs ih =>
      rw [agree_cons] at h
      rw [firstMatch, firstMatch]
      cases hp : p x with
      | true => simp [hp] at h; simp [h]
      | false =>
          cases hq : q x with
          | true => simp [hp, hq] at h
          | false => simpa using ih (i + 1) (by simpa [hp, hq] using h)

end FirstMatch

end OneSdk.TopicFilter
