import Mathlib.Data.List.Nodup

namespace OneSdk.KeyedList

variable {α β : Type} {f : α → β} {l : List α} {x y : α} {b : β}

def Keyed (f : α → β) (l : List α) : Prop := (l.map f).Nodup

theorem keyed_nil : Keyed f [] := List.nodup_nil

variable [DecidableEq β]

def lookup (f : α → β) (b : β) (l : List α) : Option α := l.find? (fun x => f x == b)

def erase (f : α → β) (b : β) (l : List α) : List α := l.eraseP (fun x => f x == b)

/-- Takes the place of a member with the same key, at the end. -/
def put (f : α → β) (x : α) (l : List α) : List α := erase f (f x) l ++ [x]

theorem lookup_eq_none : lookup f b l = none ↔ ∀ x ∈ l, f x ≠ b := by
  simp only [lookup, List.find?_eq_none, beq_iff_eq, ne_eq]

theorem lookup_eq_some (hl : Keyed f l) : lookup f b l = some x ↔ x ∈ l ∧ f x = b := by
  constructor
  · intro h
    exact ⟨List.mem_of_find?_eq_some h, beq_iff_eq.mp (List.find?_some h :)⟩
  · rintro ⟨hx, rfl⟩
    cases h : lookup f (f x) l with
    | none => exact absurd rfl (lookup_eq_none.mp h x hx)
    | some y =>
        have hy := List.mem_of_find?_eq_some h
        have hkey : f y = f x := beq_iff_eq.mp (List.find?_some h :)
        rw [List.inj_on_of_nodup_map hl hy hx hkey]

theorem mem_erase (hl : Keyed f l) : x ∈ erase f b l ↔ x ∈ l ∧ f x ≠ b := by
  induction l with
  | nil => simp [erase]
  | cons y l ih =>
      obtain ⟨hy, hl⟩ := List.nodup_cons.mp (hl : ((y :: l).map f).Nodup)
      by_cases hb : f y = b
      · subst hb
        have hne : ∀ z ∈ l, f z ≠ f y := fun z hz he => hy (he ▸ List.mem_map_of_mem hz)
        rw [erase, List.eraseP_cons_of_pos (by simp), List.mem_cons]
        constructor
        · exact fun hx => ⟨Or.inr hx, hne x hx⟩
        · rintro ⟨rfl | hx, hk⟩
          · exact absurd rfl hk
          · exact hx
      · have ih := ih hl
        rw [erase] at ih
        rw [erase, List.eraseP_cons_of_neg (by simpa using hb), List.mem_cons, ih, List.mem_cons]
        constructor
        · rintro (rfl | ⟨hx, hk⟩)
          · exact ⟨Or.inl rfl, hb⟩
          · exact ⟨Or.inr hx, hk⟩
        · rintro ⟨rfl | hx, hk⟩
          · exact Or.inl rfl
          · exact Or.inr ⟨hx, hk⟩

theorem keyed_erase (hl : Keyed f l) : Keyed f (erase f b l) :=
  List.Nodup.sublist (List.eraseP_sublist.map f) hl

theorem mem_put (hl : Keyed f l) : y ∈ put f x l ↔ y = x ∨ y ∈ l ∧ f y ≠ f x := by
  rw [put, List.mem_append, mem_erase hl, List.mem_singleton, or_comm]

theorem keyed_put (hl : Keyed f l) : Keyed f (put f x l) := by
  rw [Keyed, put, List.map_append, List.map_singleton]
  refine List.nodup_append.mpr ⟨keyed_erase hl, List.nodup_singleton _, ?_⟩
  intro b hb c hc he
  obtain ⟨y, hy, rfl⟩ := List.mem_map.mp hb
  rw [List.mem_singleton.mp hc] at he
  exact ((mem_erase hl).mp hy).2 he

theorem lookup_erase (hl : Keyed f l) (b c : β) :
    lookup f b (erase f c l) = if b = c then none else lookup f b l := by
  split
  next heq =>
    rw [heq, lookup_eq_none]
    exact fun x hx => ((mem_erase hl).mp hx).2
  next hne =>
    apply Option.ext
    intro x
    rw [lookup_eq_some (keyed_erase hl), lookup_eq_some hl, mem_erase hl]
    constructor
    · exact fun h => ⟨h.1.1, h.2⟩
    · exact fun h => ⟨⟨h.1, h.2 ▸ hne⟩, h.2⟩

theorem lookup_put (hl : Keyed f l) (b : β) (x : α) :
    lookup f b (put f x l) = if b = f x then some x else lookup f b l := by
  split
  next heq => exact (lookup_eq_some (keyed_put hl)).mpr ⟨(mem_put hl).mpr (Or.inl rfl), heq.symm⟩
  next hne =>
    apply Option.ext
    intro y
    rw [lookup_eq_some (keyed_put hl), lookup_eq_some hl, mem_put hl]
    constructor
    · rintro ⟨rfl | ⟨hy, -⟩, hkey⟩
      · exact absurd hkey.symm hne
      · exact ⟨hy, hkey⟩
    · exact fun h => ⟨Or.inr ⟨h.1, h.2 ▸ hne⟩, h.2⟩

theorem erase_eq_nil (hl : Keyed f l) : erase f b l = [] ↔ ∀ x ∈ l, f x = b := by
  rw [List.eq_nil_iff_forall_not_mem]
  simp only [mem_erase hl, ne_eq, not_and, not_not]

theorem put_ne_nil : put f x l ≠ [] := List.append_ne_nil_of_right_ne_nil _ (List.cons_ne_nil _ _)

theorem mem_put_member (hl : Keyed f l) (hx : x ∈ l) : y ∈ put f x l ↔ y ∈ l := by
  rw [mem_put hl]
  constructor
  · rintro (rfl | ⟨hy, -⟩)
    · exact hx
    · exact hy
  · intro hy
    by_cases hkey : f y = f x
    · exact Or.inl (List.inj_on_of_nodup_map hl hy hx hkey)
    · exact Or.inr ⟨hy, hkey⟩

omit [DecidableEq β] in
theorem keyed_map {g : α → α} (hg : ∀ x, f (g x) = f x) (hl : Keyed f l) : Keyed f (l.map g) := by
  rw [Keyed, List.map_map, show f ∘ g = f from funext hg]
  exact hl

end OneSdk.KeyedList
