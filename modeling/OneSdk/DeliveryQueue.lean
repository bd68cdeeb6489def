import Mathlib.Data.List.Basic

namespace OneSdk.DeliveryQueue

/-- What a message asks of the link: to be handed over, to be handed over and
acknowledged, or something that the sender does not offer. -/
inductive Service
  | once
  | acked
  | never
  deriving DecidableEq

variable {M : Type}

abbrev Slot (M : Type) := M × Bool

/-- One pass of the sender from position `i`. It tries every message not handed over
yet, in order, and stops at the first acknowledged one that the link takes. The
result is the queue, whether it stopped so, and the attempts with their outcome. -/
def sendPass (service : M → Service) (ok : Nat → Bool) :
    Nat → List (Slot M) → List (Slot M) × Bool × List (Slot M)
  | _, [] => ([], false, [])
  | i, (m, true) :: q =>
      let r := sendPass service ok (i + 1) q
      ((m, true) :: r.1, r.2)
  | i, (m, false) :: q =>
      let r := sendPass service ok (i + 1) q
      match service m with
      | .once => ((m, ok i) :: r.1, r.2.1, (m, ok i) :: r.2.2)
      | .acked =>
          if ok i then ((m, true) :: q, true, [(m, true)])
          else ((m, false) :: r.1, r.2.1, (m, false) :: r.2.2)
      | .never => ((m, false) :: r.1, r.2)

/-- Messages that need no acknowledgement leave once they have been handed over. -/
def settle (service : M → Service) (q : List (Slot M)) : List (Slot M) :=
  q.filter (fun e => !(e.2 && service e.1 = .once))

/-- An acknowledgement takes out the first message that could be awaiting one. -/
def acknowledge (service : M → Service) (q : List (Slot M)) : List (Slot M) :=
  q.eraseP (fun e => e.2 && service e.1 ≠ .once)

def unsent (q : List (Slot M)) : Prop := ∀ e ∈ q, e.2 = false

def eligible (service : M → Service) (q : List (Slot M)) : List M :=
  (q.filter (fun e => !e.2 && service e.1 ≠ .never)).map Prod.fst

theorem eligible_sublist (service : M → Service) (q : List (Slot M)) :
    (eligible service q).Sublist (q.map Prod.fst) := List.filter_sublist.map Prod.fst

theorem mem_eligible {service : M → Service} {q : List (Slot M)} {m : M} :
    m ∈ eligible service q ↔ (m, false) ∈ q ∧ service m ≠ .never := by
  simp [eligible]

variable (service : M → Service) (ok : Nat → Bool)

/-- What a pass can do to a queue, whatever the link answers: the queue before it, the
queue after it, whether it stopped early, and the attempts. -/
inductive Passes (service : M → Service) :
    List (Slot M) → List (Slot M) → Bool → List (Slot M) → Prop
  | nil : Passes service [] [] false []
  | sent (m) {q r f a} : Passes service q r f a → Passes service ((m, true) :: q) ((m, true) :: r) f a
  | once (m) (b) {q r f a} (hm : service m = .once) : Passes service q r f a →
      Passes service ((m, false) :: q) ((m, b) :: r) f ((m, b) :: a)
  | taken (m) (q) (hm : service m = .acked) :
      Passes service ((m, false) :: q) ((m, true) :: q) true [(m, true)]
  | refused (m) {q r f a} (hm : service m = .acked) : Passes service q r f a →
      Passes service ((m, false) :: q) ((m, false) :: r) f ((m, false) :: a)
  | never (m) {q r f a} (hm : service m = .never) : Passes service q r f a →
      Passes service ((m, false) :: q) ((m, false) :: r) f a

theorem pass_passes (i : Nat) (q : List (Slot M)) :
    Passes service q (sendPass service ok i q).1 (sendPass service ok i q).2.1 (sendPass service ok i q).2.2 := by
  induction q generalizing i with
  | nil => exact .nil
  | cons e q ih =>
      obtain ⟨m, sent⟩ := e
      cases sent with
      | true => exact .sent m (ih (i + 1))
      | false =>
          cases hm : service m with
          | once => simpa [sendPass, hm] using Passes.once m (ok i) hm (ih (i + 1))
          | acked =>
              cases ho : ok i with
              | true => simpa [sendPass, hm, ho] using Passes.taken m q hm
              | false => simpa [sendPass, hm, ho] using Passes.refused m hm (ih (i + 1))
          | never => simpa [sendPass, hm] using Passes.never m hm (ih (i + 1))

variable {service ok} {q r a : List (Slot M)} {f : Bool}

theorem Passes.messages (h : Passes service q r f a) : r.map Prod.fst = q.map Prod.fst := by
  induction h with
  | nil | taken => rfl
  | sent m _ ih | once m b hm _ ih | refused m hm _ ih | never m hm _ ih => simp [ih]

/-- The attempts of a pass are the messages not handed over that the sender can
serve, from the head of the queue and without a gap. -/
theorem Passes.attempts (h : Passes service q r f a) : a.map Prod.fst <+: eligible service q := by
  rw [eligible]
  induction h with
  | nil => simp
  | sent m _ ih => simpa using ih
  | taken m q hm => simp [hm]
  | once m b hm _ ih | refused m hm _ ih | never m hm _ ih => simpa [hm] using ih

theorem Passes.attempt_mem (h : Passes service q r f a) {m : M} {b : Bool} (hm : (m, b) ∈ a) :
    (m, false) ∈ q :=
  (mem_eligible.mp (h.attempts.subset (List.mem_map_of_mem hm))).1

theorem Passes.mem_after (h : Passes service q r f a) {m : M} {b : Bool} (hm : (m, b) ∈ r) :
    (m, b) ∈ q ∨ b = true ∧ (m, true) ∈ a := by
  induction h with
  | nil => exact .inl hm
  | taken n q hn => grind
  | once n c hn _ ih => cases c <;> grind
  | sent n _ ih | refused n hn _ ih | never n hn _ ih => grind

theorem Passes.mem_before (h : Passes service q r f a) {m : M} (hm : (m, false) ∈ q) :
    (m, false) ∈ r ∨ (m, true) ∈ a := by
  induction h with
  | nil => exact .inl hm
  | taken n q hn => grind
  | once n c hn _ ih => cases c <;> grind
  | sent n _ ih | refused n hn _ ih | never n hn _ ih => grind

theorem Passes.unsent_not_taken (h : Passes service q r f a) (hq : (q.map Prod.fst).Nodup) {m : M}
    (hm : (m, false) ∈ r) : (m, true) ∉ a := by
  intro ha
  induction h with
  | nil => simp at hm
  | taken n q hn => grind
  | sent n h ih | once n c hn h ih | refused n hn h ih | never n hn h ih =>
      have hr := h.messages
      have hback := fun hm : (m, true) ∈ _ => h.attempt_mem hm
      grind

/-- From a queue with nothing handed over, what stays handed over after the pass are
the acknowledged messages that the link took, and there is at most one of them. -/
theorem Passes.settled (h : Passes service q r f a) (hq : unsent q) :
    (settle service r).filter Prod.snd = a.filter (fun e => e.2 && service e.1 = .acked) := by
  induction h with
  | nil => rfl
  | sent m _ _ => exact absurd (hq (m, true) (by simp)) (by simp)
  | once m b hm _ ih =>
      have hi := ih (fun e he => hq e (by simp [he]))
      cases b <;> simpa [settle, hm] using hi
  | taken m q hm =>
      have hn : ∀ e ∈ q, e.2 = false := fun e he => hq e (by simp [he])
      have htail : (settle service q).filter Prod.snd = [] := by
        rw [List.filter_eq_nil_iff]
        intro e he
        simp [hn e (List.mem_of_mem_filter he)]
      simpa [settle, hm] using htail
  | refused m hm _ ih | never m hm _ ih =>
      have hi := ih (fun e he => hq e (by simp [he]))
      simpa [settle, hm] using hi

theorem Passes.awaited (h : Passes service q r f a) :
    (f = false ∧ a.filter (fun e => e.2 && service e.1 = .acked) = []) ∨
      (f = true ∧ ∃ m, service m = .acked ∧
        a.filter (fun e => e.2 && service e.1 = .acked) = [(m, true)]) := by
  induction h with
  | nil => exact .inl ⟨rfl, rfl⟩
  | taken m q hm => exact .inr ⟨rfl, m, hm, by simp [hm]⟩
  | once m b hm _ ih | refused m hm _ ih => simpa [hm] using ih
  | sent m _ ih | never m hm _ ih => exact ih

theorem exists_getElem?_cons {α : Type} {P : Nat → α → Prop} {x : α} {xs : List α} :
    (∃ k y, (x :: xs)[k]? = some y ∧ P k y) ↔ P 0 x ∨ ∃ k y, xs[k]? = some y ∧ P (k + 1) y := by
  constructor
  · rintro ⟨k, y, hk, hp⟩
    cases k with
    | zero =>
        obtain rfl : x = y := by simpa using hk
        exact .inl hp
    | succ k => exact .inr ⟨k, y, by simpa using hk, hp⟩
  · rintro (hp | ⟨k, y, hk, hp⟩)
    · exact ⟨0, x, rfl, hp⟩
    · exact ⟨k + 1, y, by simpa using hk, hp⟩

theorem forall_getElem?_cons {α : Type} {P : Nat → α → Prop} {x : α} {xs : List α} :
    (∀ k y, (x :: xs)[k]? = some y → P k y) ↔ P 0 x ∧ ∀ k y, xs[k]? = some y → P (k + 1) y := by
  have h := not_congr (@exists_getElem?_cons α (fun k y => ¬P k y) x xs)
  push Not at h
  exact h

variable (service ok)

def Takes (i : Nat) (q : List (Slot M)) : Prop :=
  ∃ k e, q[k]? = some e ∧ e.2 = false ∧ service e.1 = .acked ∧ ok (i + k) = true

/-- Every message not handed over can leave in this pass, and the link takes it. -/
def Clears (i : Nat) (q : List (Slot M)) : Prop :=
  ∀ k e, q[k]? = some e → e.2 = false → service e.1 = .once ∧ ok (i + k) = true

theorem takes_cons (i : Nat) (e : Slot M) (q : List (Slot M)) :
    Takes service ok i (e :: q) ↔
      (e.2 = false ∧ service e.1 = .acked ∧ ok i = true) ∨ Takes service ok (i + 1) q := by
  simp only [Takes, exists_getElem?_cons, Nat.add_zero, Nat.add_assoc, Nat.add_comm 1]

theorem clears_cons (i : Nat) (e : Slot M) (q : List (Slot M)) :
    Clears service ok i (e :: q) ↔
      (e.2 = false → service e.1 = .once ∧ ok i = true) ∧ Clears service ok (i + 1) q := by
  simp only [Clears, forall_getElem?_cons, Nat.add_zero, Nat.add_assoc, Nat.add_comm 1]

theorem pass_stops_iff (i : Nat) (q : List (Slot M)) :
    (sendPass service ok i q).2.1 = true ↔ Takes service ok i q := by
  induction q generalizing i with
  | nil => simp [sendPass, Takes]
  | cons e q ih =>
      obtain ⟨m, sent⟩ := e
      rw [takes_cons, ← ih (i + 1)]
      cases sent with
      | true => simp [sendPass]
      | false => cases hm : service m <;> cases ho : ok i <;> simp [sendPass, hm, ho]

/-- A pass that does not stop early leaves nothing unsent exactly when it can clear
the whole queue. -/
theorem pass_leaves_iff (i : Nat) (q : List (Slot M)) (hs : (sendPass service ok i q).2.1 = false) :
    (∀ m, (m, false) ∉ (sendPass service ok i q).1) ↔ Clears service ok i q := by
  induction q generalizing i with
  | nil => simp [sendPass, Clears]
  | cons e q ih =>
      obtain ⟨m, sent⟩ := e
      rw [clears_cons]
      cases sent with
      | true => simpa [sendPass] using ih (i + 1) (by simpa [sendPass] using hs)
      | false =>
          cases hm : service m with
          | once =>
              have hi := ih (i + 1) (by simpa [sendPass, hm] using hs)
              cases ho : ok i with
              | true => simpa [sendPass, hm, ho] using hi
              | false =>
                  have hleft : ¬∀ n, (n, false) ∉ (sendPass service ok i ((m, false) :: q)).1 :=
                    fun h => h m (by simp [sendPass, hm, ho])
                  simp [hleft]
          | acked =>
              cases ho : ok i with
              | true => simp [sendPass, hm, ho] at hs
              | false =>
                  have hleft : ¬∀ n, (n, false) ∉ (sendPass service ok i ((m, false) :: q)).1 :=
                    fun h => h m (by simp [sendPass, hm, ho])
                  simp [hleft]
          | never =>
              have hleft : ¬∀ n, (n, false) ∉ (sendPass service ok i ((m, false) :: q)).1 :=
                fun h => h m (by simp [sendPass, hm])
              simp [hleft]

end OneSdk.DeliveryQueue
