import Mathlib.Data.List.Basic

namespace OneSdk.Runs

variable {S E : Type}

/-- A system driven by events. `enabled` is what the environment guarantees about
the moment of an event; the step itself is total. -/
structure Machine (S E : Type) where
  enabled : S → E → Prop
  next : S → E → S

def final (M : Machine S E) : S → List E → S
  | s, [] => s
  | s, e :: es => final M (M.next s e) es

def EveryStep (M : Machine S E) (Q : S → E → Prop) : S → List E → Prop
  | _, [] => True
  | s, e :: es => Q s e ∧ EveryStep M Q (M.next s e) es

/-- The event sequences that the environment can produce from a state. -/
def Legal (M : Machine S E) : S → List E → Prop := EveryStep M M.enabled

/-- A state property at the start of a run and after each of its steps. -/
def Always (M : Machine S E) (P : S → Prop) (s : S) (es : List E) : Prop :=
  P s ∧ EveryStep M (fun s e => P (M.next s e)) s es

instance decidableEveryStep (M : Machine S E) (Q : S → E → Prop) [∀ s e, Decidable (Q s e)] :
    (s : S) → (es : List E) → Decidable (EveryStep M Q s es)
  | _, [] => .isTrue trivial
  | s, e :: es => @instDecidableAnd _ _ _ (decidableEveryStep M Q (M.next s e) es)

instance decidableAlways (M : Machine S E) (P : S → Prop) [∀ s, Decidable (P s)] (s : S) (es : List E) :
    Decidable (Always M P s es) := inferInstanceAs (Decidable (_ ∧ _))

variable {M : Machine S E}

theorem everyStep_of_forall {Q : S → E → Prop} (h : ∀ s e, Q s e) (s : S) (es : List E) : EveryStep M Q s es := by
  induction es generalizing s with
  | nil => trivial
  | cons e es ih => exact ⟨h s e, ih _⟩

theorem everyStep_mono {Q R : S → E → Prop} (h : ∀ s e, Q s e → R s e) {s : S} {es : List E}
    (hq : EveryStep M Q s es) : EveryStep M R s es := by
  induction es generalizing s with
  | nil => trivial
  | cons e es ih => exact ⟨h s e hq.1, ih hq.2⟩

theorem everyStep_and {Q R : S → E → Prop} {s : S} {es : List E} :
    EveryStep M (fun s e => Q s e ∧ R s e) s es ↔ EveryStep M Q s es ∧ EveryStep M R s es := by
  induction es generalizing s with
  | nil => exact (and_self_iff (a := True)).symm
  | cons e es ih => rw [EveryStep, EveryStep, EveryStep, ih, and_and_and_comm]

theorem everyStep_iff_split {Q : S → E → Prop} {s : S} {es : List E} :
    EveryStep M Q s es ↔ ∀ pre e post, es = pre ++ e :: post → Q (final M s pre) e := by
  induction es generalizing s with
  | nil => exact iff_of_true trivial fun pre e post h => by simp at h
  | cons e es ih =>
      rw [EveryStep, ih]
      constructor
      · rintro ⟨he, hrest⟩ pre d post h
        cases pre with
        | nil =>
            obtain ⟨rfl, -⟩ := List.cons_eq_cons.mp h
            exact he
        | cons c pre =>
            obtain ⟨rfl, htail⟩ := List.cons_eq_cons.mp h
            exact hrest pre d post htail
      · exact fun h => ⟨h [] e es rfl, fun pre d post htail => h (e :: pre) d post (congrArg (e :: ·) htail)⟩

/-- The induction over runs. An invariant that each step keeps while a condition
on the steps holds gives, at each step, whatever it gives there. -/
theorem everyStep_of_invariant {I : S → Prop} {C Q : S → E → Prop}
    (hkeep : ∀ s e, I s → M.enabled s e → C s e → I (M.next s e))
    (hq : ∀ s e, I s → M.enabled s e → C s e → Q s e)
    {s : S} (hs : I s) {es : List E} (hl : Legal M s es) (hc : EveryStep M C s es) :
    EveryStep M Q s es := by
  induction es generalizing s with
  | nil => trivial
  | cons e es ih =>
      have hn := hkeep s e hs hl.1 hc.1
      exact ⟨hq s e hs hl.1 hc.1, ih hn hl.2 hc.2⟩

theorem always_of_invariant {I P : S → Prop} {C : S → E → Prop}
    (hkeep : ∀ s e, I s → M.enabled s e → C s e → I (M.next s e)) (hp : ∀ s, I s → P s)
    {s : S} (hs : I s) {es : List E} (hl : Legal M s es) (hc : EveryStep M C s es) :
    Always M P s es :=
  ⟨hp s hs, everyStep_of_invariant hkeep (fun s e hi he hc => hp _ (hkeep s e hi he hc)) hs hl hc⟩

theorem always_final {P : S → Prop} {s : S} {es : List E} (h : Always M P s es) : P (final M s es) := by
  induction es generalizing s with
  | nil => exact h.1
  | cons e es ih => exact ih h.2

theorem everyStep_of_legal {I : S → Prop} {Q : S → E → Prop}
    (hkeep : ∀ s e, I s → M.enabled s e → I (M.next s e)) (hq : ∀ s e, I s → M.enabled s e → Q s e)
    {s : S} (hs : I s) {es : List E} (hl : Legal M s es) : EveryStep M Q s es := by
  induction es generalizing s with
  | nil => trivial
  | cons e es ih => exact ⟨hq s e hs hl.1, ih (hkeep s e hs hl.1) hl.2⟩

theorem final_of_invariant {I : S → Prop}
    (hkeep : ∀ s e, I s → M.enabled s e → I (M.next s e))
    {s : S} (hs : I s) {es : List E} (hl : Legal M s es) : I (final M s es) := by
  induction es generalizing s with
  | nil => exact hs
  | cons e es ih => exact ih (hkeep s e hs hl.1) hl.2

/-- A step that breaks the condition leaves something wrong that no later step
puts right, so a run that ends well has met the condition throughout. -/
theorem everyStep_of_final {I Bad : S → Prop} {C : S → E → Prop}
    (hkeep : ∀ s e, I s → M.enabled s e → I (M.next s e))
    (hbad : ∀ s e, I s → M.enabled s e → ¬C s e → Bad (M.next s e))
    (hstay : ∀ s e, I s → M.enabled s e → Bad s → Bad (M.next s e))
    {s : S} (hs : I s) {es : List E} (hl : Legal M s es) (hf : ¬Bad (final M s es)) : EveryStep M C s es := by
  have hlast : ∀ {s : S}, I s → ∀ {es : List E}, Legal M s es → Bad s → Bad (final M s es) := by
    intro s hs es hl hb
    induction es generalizing s with
    | nil => exact hb
    | cons e es ih => exact ih (hkeep s e hs hl.1) hl.2 (hstay s e hs hl.1 hb)
  induction es generalizing s with
  | nil => trivial
  | cons e es ih =>
      have hn := hkeep s e hs hl.1
      refine ⟨?_, ih hn hl.2 hf⟩
      by_contra hc
      exact hf (hlast hn hl.2 (hbad s e hs hl.1 hc))

/-- A condition on steps is exact for a property of steps when the invariant makes
the two agree. The invariant itself is only known to survive steps that meet the
condition, which is enough: the property forces the condition step by step. -/
theorem everyStep_iff {I : S → Prop} {C Q : S → E → Prop}
    (hkeep : ∀ s e, I s → M.enabled s e → C s e → I (M.next s e))
    (hiff : ∀ s e, I s → M.enabled s e → (Q s e ↔ C s e))
    {s : S} (hs : I s) {es : List E} (hl : Legal M s es) :
    EveryStep M Q s es ↔ EveryStep M C s es := by
  induction es generalizing s with
  | nil => exact Iff.rfl
  | cons e es ih =>
      have he := hiff s e hs hl.1
      constructor
      · rintro ⟨hq, hrest⟩
        have hc := he.mp hq
        exact ⟨hc, (ih (hkeep s e hs hl.1 hc) hl.2).mp hrest⟩
      · rintro ⟨hc, hrest⟩
        exact ⟨he.mpr hc, (ih (hkeep s e hs hl.1 hc) hl.2).mpr hrest⟩

theorem always_iff {I P : S → Prop} {C : S → E → Prop}
    (hkeep : ∀ s e, I s → M.enabled s e → C s e → I (M.next s e)) (hp : ∀ s, I s → P s)
    (hneed : ∀ s e, I s → M.enabled s e → P (M.next s e) → C s e)
    {s : S} (hs : I s) {es : List E} (hl : Legal M s es) :
    Always M P s es ↔ EveryStep M C s es := by
  have h := everyStep_iff (M := M) (Q := fun s e => P (M.next s e)) hkeep
    (fun s e hi he => ⟨hneed s e hi he, fun hc => hp _ (hkeep s e hi he hc)⟩) hs hl
  exact ⟨fun ha => h.mp ha.2, fun hc => ⟨hp s hs, h.mpr hc⟩⟩

section Simulation

variable {S' E' : Type} {M' : Machine S' E'} {f : S → S'} {op : S → E → E'}

/-- The events of one machine as another sees them, where that depends on the state. -/
def image (M : Machine S E) (op : S → E → E') : S → List E → List E'
  | _, [] => []
  | s, e :: es => op s e :: image M op (M.next s e) es

theorem everyStep_image (hnext : ∀ s e, f (M.next s e) = M'.next (f s) (op s e))
    {Q : S' → E' → Prop} {s : S} {es : List E} :
    EveryStep M' Q (f s) (image M op s es) ↔ EveryStep M (fun s e => Q (f s) (op s e)) s es := by
  induction es generalizing s with
  | nil => exact Iff.rfl
  | cons e es ih =>
      rw [image, EveryStep, EveryStep, ← hnext, ih]

theorem everyStep_congr {Q R : S → E → Prop} (h : ∀ s e, Q s e ↔ R s e) {s : S} {es : List E} :
    EveryStep M Q s es ↔ EveryStep M R s es := by
  induction es generalizing s with
  | nil => exact Iff.rfl
  | cons e es ih => rw [EveryStep, EveryStep, h, ih]

end Simulation

end OneSdk.Runs
