import Mathlib.Data.List.Basic

namespace OneSdk

/-- Objects by the order of their allocation. No object is given out twice, so a pointer
to a released one stays dead whatever takes its memory. -/
structure Lifetimes where
  allocated : Nat
  released : List Nat
  released_allocated : ∀ n ∈ released, n < allocated

end OneSdk

namespace OneSdk.Lifetimes

def empty : Lifetimes := ⟨0, [], fun _ h => absurd h List.not_mem_nil⟩

def Live (l : Lifetimes) (n : Nat) : Prop := n < l.allocated ∧ n ∉ l.released

instance decidableLive (l : Lifetimes) (n : Nat) : Decidable (l.Live n) := inferInstanceAs (Decidable (_ ∧ _))

def allocate (l : Lifetimes) : Lifetimes where
  allocated := l.allocated + 1
  released := l.released
  released_allocated := fun n h => Nat.lt_succ_of_lt (l.released_allocated n h)

def release (l : Lifetimes) (n : Nat) (h : n < l.allocated) : Lifetimes where
  allocated := l.allocated
  released := n :: l.released
  released_allocated := by
    intro m hm
    rcases List.mem_cons.mp hm with rfl | hm
    · exact h
    · exact l.released_allocated m hm

def transient (l : Lifetimes) : Lifetimes := l.allocate.release l.allocated (Nat.lt_succ_self _)

variable {l : Lifetimes} {n m : Nat}

theorem release_live {h : n < l.allocated} : (l.release n h).Live m ↔ l.Live m ∧ m ≠ n := by
  constructor
  · rintro ⟨hlt, hnot⟩
    exact ⟨⟨hlt, fun hm => hnot (List.mem_cons_of_mem _ hm)⟩, fun he => hnot (he ▸ List.mem_cons_self)⟩
  · rintro ⟨⟨hlt, hnot⟩, hne⟩
    refine ⟨hlt, fun hm => ?_⟩
    rcases List.mem_cons.mp hm with he | hm
    · exact hne he
    · exact hnot hm

theorem allocate_live : l.allocate.Live n ↔ l.Live n ∨ n = l.allocated := by
  constructor
  · rintro ⟨hlt, hnot⟩
    rcases Nat.lt_succ_iff_lt_or_eq.mp hlt with hlt | rfl
    · exact .inl ⟨hlt, hnot⟩
    · exact .inr rfl
  · rintro (⟨hlt, hnot⟩ | rfl)
    · exact ⟨Nat.lt_succ_of_lt hlt, hnot⟩
    · exact ⟨Nat.lt_succ_self _, fun h => Nat.lt_irrefl _ (l.released_allocated _ h)⟩

structure Extends (l l' : Lifetimes) : Prop where
  allocated : l.allocated ≤ l'.allocated
  live : ∀ n < l.allocated, l'.Live n ↔ l.Live n

theorem Extends.refl (l : Lifetimes) : l.Extends l := ⟨Nat.le_refl _, fun _ _ => Iff.rfl⟩

theorem Extends.trans {l₁ l₂ l₃ : Lifetimes} (h : l₁.Extends l₂) (h' : l₂.Extends l₃) : l₁.Extends l₃ :=
  ⟨Nat.le_trans h.allocated h'.allocated,
    fun n hn => (h'.live n (Nat.lt_of_lt_of_le hn h.allocated)).trans (h.live n hn)⟩

theorem extends_allocate (l : Lifetimes) : l.Extends l.allocate := by
  refine ⟨Nat.le_succ _, fun n hn => ?_⟩
  rw [allocate_live]
  exact or_iff_left (Nat.ne_of_lt hn)

theorem allocate_live_of_ne (h : l.allocate.Live n) (hne : n ≠ l.allocated) : l.Live n :=
  ⟨Nat.lt_of_le_of_ne (Nat.le_of_lt_succ h.1) hne, h.2⟩

theorem transient_live (h : l.transient.Live n) : l.Live n := by
  obtain ⟨hlive, hne⟩ := release_live.mp h
  exact allocate_live_of_ne hlive hne

theorem transient_dead : ¬l.transient.Live l.allocated := fun h => (release_live.mp h).2 rfl

end OneSdk.Lifetimes
