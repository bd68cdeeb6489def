import OneSdk.Emits

namespace OneSdk.StreamParse

open Emits

variable {α V : Type}

/-- The values that a parser takes from the front of a buffer, and what is left. A parser
that goes nowhere, or beyond the buffer, ends in a fault. -/
def drain (parse : List α → Option (V × Nat)) : Nat → List α → Emits V (List α)
  | 0, _ => fault
  | k + 1, b =>
      match parse b with
      | none => pure b
      | some (v, n) =>
          if n ≤ b.length then do
            emit v
            drain parse k (b.drop n)
          else fault

def takes (parse : List α → Option (V × Nat)) : Nat → List α → List (List α × V)
  | 0, _ => []
  | k + 1, b =>
      match parse b with
      | none => []
      | some (v, n) => if n ≤ b.length then (b, v) :: takes parse k (b.drop n) else []

def received (parse : List α → Option (V × Nat)) : List α → List (List α) → Emits V (List α)
  | b, [] => pure b
  | b, c :: cs => do
      let b ← drain parse ((b ++ c).length + 1) (b ++ c)
      received parse b cs

/-- A text that is read as a first value whatever follows, and not before it is whole. -/
structure Frame (parse : List α → Option (V × Nat)) (text : List α) (v : V) : Prop where
  nonempty : text ≠ []
  whole : ∀ rest, parse (text ++ rest) = some (v, text.length)
  unfinished : ∀ part, part <+: text → part ≠ text → parse part = none

/-- A text as a sequence of frames, with a tail that never becomes one, and their values. -/
inductive Stream (parse : List α → Option (V × Nat)) : List α → List V → Prop
  | tail {t : List α} : (∀ part, part <+: t → parse part = none) → Stream parse t []
  | frame {text rest : List α} {v : V} {vs : List V} :
      Frame parse text v → Stream parse rest vs → Stream parse (text ++ rest) (v :: vs)

variable {parse : List α → Option (V × Nat)} {b c l : List α} {vs : List V}

theorem drain_none {k : Nat} (hk : 0 < k) (h : parse b = none) : drain parse k b = pure b := by
  cases k with
  | zero => exact absurd hk (Nat.lt_irrefl 0)
  | succ k => rw [drain, h]

theorem drain_frame {text rest : List α} {v : V} (h : Frame parse text v) (k : Nat) :
    drain parse (k + 1) (text ++ rest) = ⟨v :: (drain parse k rest).out, (drain parse k rest).next⟩ := by
  have hlen : text.length ≤ (text ++ rest).length := by
    rw [List.length_append]
    exact Nat.le_add_right _ _
  rw [drain, h.whole]
  dsimp only
  rw [if_pos hlen, List.drop_left]
  rfl

theorem drain_length {k : Nat} {rest : List α} (h : (drain parse k b).next = some rest) : rest.length ≤ b.length := by
  induction k generalizing b with
  | zero => exact absurd h (by simp [drain, fault])
  | succ k ih =>
      rw [drain] at h
      split at h
      next => exact Option.some.inj h ▸ Nat.le_refl _
      next v n _ =>
        split at h
        · have hdrop := ih h
          rw [List.length_drop] at hdrop
          omega
        · exact absurd h (by simp [fault])

theorem drain_takes (k : Nat) (b : List α) : (drain parse k b).out = (takes parse k b).map Prod.snd := by
  induction k generalizing b with
  | zero => rfl
  | succ k ih =>
      rw [drain, takes]
      cases parse b with
      | none => rfl
      | some r =>
          dsimp only
          split
          · rw [List.map_cons, ← ih]
            rfl
          · rfl

theorem drain_total (h : ∀ b v n, parse b = some (v, n) → 0 < n ∧ n ≤ b.length) {k : Nat} (hk : b.length < k) :
    ∃ rest, (drain parse k b).next = some rest := by
  induction k generalizing b with
  | zero => exact absurd hk (Nat.not_lt_zero _)
  | succ k ih =>
      rw [drain]
      cases hb : parse b with
      | none => exact ⟨b, rfl⟩
      | some r =>
          obtain ⟨v, n⟩ := r
          obtain ⟨hpos, hle⟩ := h b v n hb
          dsimp only
          rw [if_pos hle]
          have hdrop : (b.drop n).length < k := by
            rw [List.length_drop]
            omega
          exact ih hdrop

theorem takes_length {k : Nat} {t : List α × V} (h : t ∈ takes parse k b) : t.1.length ≤ b.length := by
  induction k generalizing b with
  | zero => exact absurd h List.not_mem_nil
  | succ k ih =>
      rw [takes] at h
      cases hb : parse b with
      | none =>
          rw [hb] at h
          exact absurd h List.not_mem_nil
      | some r =>
          rw [hb] at h
          dsimp only at h
          split at h
          · rcases List.mem_cons.mp h with rfl | h
            · exact Nat.le_refl _
            · have hrest := ih h
              rw [List.length_drop] at hrest
              omega
          · exact absurd h List.not_mem_nil

/-- What is drained from the front of a stream are its first values, and what is left
begins a stream of the others. -/
theorem Stream.drain (h : Stream parse (b ++ c) vs) {k : Nat} (hk : b.length < k) :
    ∃ us ws rest, vs = us ++ ws ∧ StreamParse.drain parse k b = ⟨us, some rest⟩ ∧ parse rest = none ∧
      Stream parse (rest ++ c) ws := by
  generalize hl : b ++ c = l at h
  induction h generalizing b k with
  | tail htail =>
      have hnone : parse b = none := htail b (hl ▸ List.prefix_append b c)
      refine ⟨[], [], b, rfl, drain_none (Nat.zero_lt_of_lt hk) hnone, hnone, ?_⟩
      rw [hl]
      exact .tail htail
  | @frame text rest v vs hframe hrest ih =>
      by_cases hwhole : text <+: b
      · obtain ⟨more, rfl⟩ := hwhole
        rw [List.append_assoc] at hl
        cases k with
        | zero => exact absurd hk (Nat.not_lt_zero _)
        | succ k =>
            have hpos := List.length_pos_iff.mpr hframe.nonempty
            rw [List.length_append] at hk
            have hmore : more.length < k := by omega
            obtain ⟨us, ws, left, rfl, hdrain, hnone, hleft⟩ := ih hmore (List.append_cancel_left hl)
            rw [drain_frame hframe, hdrain]
            exact ⟨v :: us, ws, left, rfl, rfl, hnone, hleft⟩
      · have hb : b <+: text ++ rest := hl ▸ List.prefix_append b c
        have hunfinished : b <+: text :=
          (List.prefix_or_prefix_of_prefix hb (List.prefix_append text rest)).resolve_right hwhole
        have hnone : parse b = none :=
          hframe.unfinished b hunfinished (fun he => hwhole (he ▸ List.prefix_refl b))
        refine ⟨[], v :: vs, b, rfl, drain_none (Nat.zero_lt_of_lt hk) hnone, hnone, ?_⟩
        rw [hl]
        exact .frame hframe hrest

theorem Stream.received {cs : List (List α)} (h : Stream parse (b ++ cs.flatten) vs) (hb : parse b = none) :
    ∃ rest, StreamParse.received parse b cs = ⟨vs, some rest⟩ := by
  induction cs generalizing b vs with
  | nil =>
      rw [List.flatten_nil, List.append_nil] at h
      cases h with
      | tail htail => exact ⟨b, rfl⟩
      | frame hframe hrest =>
          rw [hframe.whole] at hb
          exact absurd hb (by simp)
  | cons c cs ih =>
      rw [List.flatten_cons, ← List.append_assoc] at h
      obtain ⟨us, ws, rest, rfl, hdrain, hnone, hrest⟩ := h.drain (Nat.lt_succ_self _)
      obtain ⟨last, hlast⟩ := ih hrest hnone
      refine ⟨last, ?_⟩
      rw [StreamParse.received, hdrain, bind_some, hlast]

end OneSdk.StreamParse
