import Mathlib.Data.List.Basic

namespace OneSdk.Framing

variable {α : Type} [DecidableEq α]

def find (d : List α) : List α → Option Nat
  | [] => if d = [] then some 0 else none
  | x :: xs => if d <+: x :: xs then some 0 else (find d xs).map (· + 1)

theorem find_some {d l : List α} {i : Nat} (h : find d l = some i) : d <+: l.drop i := by
  induction l generalizing i with
  | nil =>
      rw [find] at h
      split at h
      next hd => simp [hd]
      next => simp at h
  | cons x xs ih =>
      rw [find] at h
      split at h
      next hp =>
        obtain rfl : 0 = i := by simpa using h
        exact hp
      next =>
        obtain ⟨j, hj, rfl⟩ := Option.map_eq_some_iff.mp h
        exact ih hj

theorem not_infix_of_find {d l : List α} (h : find d l = none) : ¬d <:+: l := by
  induction l with
  | nil =>
      rw [find] at h
      split at h
      · exact absurd h (by simp)
      next hd => exact fun hin => hd (List.infix_nil.mp hin)
  | cons x xs ih =>
      rw [find] at h
      split at h
      · exact absurd h (by simp)
      next hp =>
        rw [List.infix_cons_iff, not_or]
        exact ⟨hp, ih (Option.map_eq_none_iff.mp h)⟩

theorem find_prefix {d l : List α} (h : d <+: l) : find d l = some 0 := by
  cases l with
  | nil => simp [find, List.prefix_nil.mp h]
  | cons x xs => simp [find, h]

theorem find_append {d e rest : List α} (h : ∀ i < e.length, ¬d <+: (e ++ rest).drop i) :
    find d (e ++ rest) = (find d rest).map (· + e.length) := by
  induction e with
  | nil => simp
  | cons x e ih =>
      have hhead : ¬d <+: x :: (e ++ rest) := h 0 (Nat.succ_pos _)
      have htail := ih (fun i hi => h (i + 1) (Nat.succ_lt_succ hi))
      rw [List.cons_append, find, if_neg hhead, htail, Option.map_map]
      congr 1

theorem find_at {d l : List α} {i : Nat} (hi : d <+: l.drop i) (hl : i ≤ l.length)
    (hfirst : ∀ j < i, ¬d <+: l.drop j) : find d l = some i := by
  have hlen : (l.take i).length = i := by rw [List.length_take, Nat.min_eq_left hl]
  have hskip : find d (l.take i ++ l.drop i) = _ :=
    find_append (fun j hj => by rw [List.take_append_drop]; exact hfirst j (hlen ▸ hj))
  rw [List.take_append_drop] at hskip
  rw [hskip, find_prefix hi, hlen]
  simp

omit [DecidableEq α] in
theorem suffix_of_occurrence {d l : List α} {i : Nat} (h : d <+: l.drop i) : d <:+ l.take (i + d.length) := by
  obtain ⟨u, hu⟩ := h
  rw [List.take_add, ← hu, List.take_left]
  exact List.suffix_append _ _

/-- Two block terminators. No block that the short one ends can hold the beginning of
the long one at its end. -/
structure Delims (α : Type) where
  short : List α
  long : List α
  short_pos : 0 < short.length
  long_pos : 0 < long.length
  apart : ∀ k, 0 < k → k < long.length → ∀ e, short <:+ e → ¬long.take k <:+ e

variable (D : Delims α)

def ends (l : List α) : Bool := decide (D.short <:+ l) || decide (D.long <:+ l)

/-- Read the stream byte by byte, closing a block at the first terminator. -/
def feed (s : List (List α) × List α) (b : α) : List (List α) × List α :=
  if ends D (s.2 ++ [b]) then (s.1 ++ [s.2 ++ [b]], []) else (s.1, s.2 ++ [b])

def segments (l : List α) : List (List α) × List α := l.foldl (feed D) ([], [])

def cut (l : List α) : Option Nat :=
  match find D.long l with
  | some i => some (i + D.long.length)
  | none => (find D.short l).map (· + D.short.length)

def frames : Nat → List α → List (List α) × List α
  | 0, l => ([], l)
  | k + 1, l =>
      match cut D l with
      | some n => (l.take n :: (frames k (l.drop n)).1, (frames k (l.drop n)).2)
      | none => ([], l)

def isLong (e : List α) : Bool := decide (D.long <:+ e)

/-- What looking for the long terminator first does to the blocks of a buffer: those
that the short one ends are taken together with the next long one. -/
def merge : List (List α) → List (List α)
  | [] => []
  | e :: es =>
      if isLong D e || !es.any (isLong D) then e :: merge es
      else
        match merge es with
        | m :: ms => (e ++ m) :: ms
        | [] => [e]

structure Block (e : List α) : Prop where
  closed : ends D e = true
  first : ∀ k < e.length, ends D (e.take k) = false

def Open (t : List α) : Prop := ∀ k ≤ t.length, ends D (t.take k) = false

variable {D} {e t rest : List α}

theorem ends_nil : ends D [] = false := by
  have hs := List.length_pos_iff.mp D.short_pos
  have hl := List.length_pos_iff.mp D.long_pos
  simp [ends, hs, hl]

theorem Block.pos (h : Block D e) : 0 < e.length := by
  refine Nat.pos_of_ne_zero (fun h0 => ?_)
  have hc := h.closed
  rw [List.length_eq_zero_iff.mp h0, ends_nil] at hc
  exact absurd hc (by simp)

theorem Block.not_occurs (h : Block D e) {d : List α} (hd : d = D.short ∨ d = D.long) {i : Nat}
    (hi : i + d.length < e.length) : ¬d <+: (e ++ rest).drop i := by
  intro hocc
  have hsuf := suffix_of_occurrence hocc
  rw [List.take_append_of_le_length (Nat.le_of_lt hi)] at hsuf
  have hno := h.first _ hi
  rw [ends, Bool.or_eq_false_iff, decide_eq_false_iff_not, decide_eq_false_iff_not] at hno
  rcases hd with rfl | rfl
  · exact hno.1 hsuf
  · exact hno.2 hsuf

theorem Block.find_end (h : Block D e) {d : List α} (hd : d = D.short ∨ d = D.long) (hsuf : d <:+ e) :
    find d (e ++ rest) = some (e.length - d.length) := by
  have hlen := hsuf.length_le
  refine find_at ?_ (by simp only [List.length_append]; omega) ?_
  · rw [List.drop_append_of_le_length (Nat.sub_le _ _), ← List.suffix_iff_eq_drop.mp hsuf]
    exact List.prefix_append d rest
  · intro j hj
    exact h.not_occurs hd (by omega)

theorem Block.short_suffix (h : Block D e) (hl : isLong D e = false) : D.short <:+ e := by
  have he := h.closed
  rw [ends, Bool.or_eq_true, decide_eq_true_eq, decide_eq_true_eq] at he
  exact he.resolve_right (by simpa [isLong] using hl)

theorem Block.find_long_skip (h : Block D e) (hl : isLong D e = false) :
    find D.long (e ++ rest) = (find D.long rest).map (· + e.length) := by
  refine find_append (fun i hi hocc => ?_)
  rcases Nat.lt_trichotomy (i + D.long.length) e.length with hlt | heq | hgt
  · exact h.not_occurs (.inr rfl) hlt hocc
  · have hsuf := suffix_of_occurrence hocc
    rw [heq, List.take_left] at hsuf
    exact absurd hsuf (by simpa [isLong] using hl)
  · refine D.apart (e.length - i) (by omega) (by omega) e (h.short_suffix hl) ?_
    have hpre : D.long.take (e.length - i) = e.drop i := by
      rw [List.drop_append_of_le_length (Nat.le_of_lt hi)] at hocc
      obtain ⟨u, hu⟩ := hocc
      have := congrArg (List.take (e.length - i)) hu
      rw [List.take_append_of_le_length (by omega), ← List.length_drop, List.take_left] at this
      rwa [List.length_drop] at this
    rw [hpre]
    exact List.drop_suffix i e

theorem Open.find_none (h : Open D t) {d : List α} (hd : d = D.short ∨ d = D.long) : find d t = none := by
  cases hf : find d t with
  | none => rfl
  | some i =>
      have hocc := find_some hf
      have hsuf := suffix_of_occurrence hocc
      have hlen := hocc.length_le
      have hpos : 0 < d.length := by rcases hd with rfl | rfl <;> [exact D.short_pos; exact D.long_pos]
      rw [List.length_drop] at hlen
      have hno := h (i + d.length) (by omega)
      rw [ends, Bool.or_eq_false_iff, decide_eq_false_iff_not, decide_eq_false_iff_not] at hno
      rcases hd with rfl | rfl
      · exact absurd hsuf hno.1
      · exact absurd hsuf hno.2

theorem find_long_none (es : List (List α)) (hb : ∀ e ∈ es, Block D e) (ho : Open D t) :
    find D.long (es.flatten ++ t) = none ↔ es.any (isLong D) = false := by
  induction es with
  | nil => simpa using ho.find_none (.inr rfl)
  | cons e es ih =>
      have hi := ih (fun x hx => hb x (List.mem_cons_of_mem e hx))
      have he := hb e List.mem_cons_self
      rw [List.flatten_cons, List.append_assoc]
      cases hl : isLong D e with
      | true =>
          rw [he.find_end (.inr rfl) (by simpa [isLong] using hl)]
          simp [hl]
      | false =>
          rw [he.find_long_skip hl, Option.map_eq_none_iff, hi]
          simp [hl]

theorem cut_long (h : Block D e) (hl : isLong D e = true) : cut D (e ++ rest) = some e.length := by
  have hsuf : D.long <:+ e := by simpa [isLong] using hl
  rw [cut, h.find_end (.inr rfl) hsuf]
  have := hsuf.length_le
  simp only [Option.some.injEq]
  omega

theorem cut_short (h : Block D e) (hl : isLong D e = false) (hr : find D.long rest = none) :
    cut D (e ++ rest) = some e.length := by
  have hsuf := h.short_suffix hl
  rw [cut, h.find_long_skip hl, hr, Option.map_none, h.find_end (.inl rfl) hsuf]
  have := hsuf.length_le
  simp only [Option.map_some, Option.some.injEq]
  omega

theorem cut_merged (h : Block D e) (hl : isLong D e = false) {i : Nat} (hr : find D.long rest = some i) :
    cut D rest = some (i + D.long.length) ∧ cut D (e ++ rest) = some (e.length + (i + D.long.length)) := by
  rw [cut, cut, h.find_long_skip hl, hr]
  refine ⟨rfl, ?_⟩
  simp only [Option.map_some, Option.some.injEq]
  omega

theorem frames_of_cut {k n : Nat} {l : List α} (hc : cut D l = some n) :
    frames D (k + 1) l = (l.take n :: (frames D k (l.drop n)).1, (frames D k (l.drop n)).2) := by
  rw [frames, hc]

/-- Draining a buffer gives its blocks, merged, and leaves its unfinished end. -/
theorem frames_eq_merge (es : List (List α)) (hb : ∀ e ∈ es, Block D e) (ho : Open D t) (k : Nat)
    (hk : es.length ≤ k) : frames D k (es.flatten ++ t) = (merge D es, t) := by
  induction es generalizing k with
  | nil =>
      cases k with
      | zero => rfl
      | succ k =>
          have hc : cut D t = none := by rw [cut, ho.find_none (.inr rfl), ho.find_none (.inl rfl)]; rfl
          rw [List.flatten_nil, List.nil_append, frames, hc]
          rfl
  | cons e es ih =>
      have he := hb e List.mem_cons_self
      have hes : ∀ x ∈ es, Block D x := fun x hx => hb x (List.mem_cons_of_mem e hx)
      obtain ⟨k, rfl⟩ : ∃ j, k = j + 1 := ⟨k - 1, by simp at hk; omega⟩
      have hk : es.length ≤ k := Nat.le_of_succ_le_succ hk
      rw [List.flatten_cons, List.append_assoc, merge]
      have halone (hc : cut D (e ++ (es.flatten ++ t)) = some e.length) :
          frames D (k + 1) (e ++ (es.flatten ++ t)) = (e :: merge D es, t) := by
        rw [frames_of_cut hc, List.take_left, List.drop_left, ih hes k hk]
      cases hl : isLong D e with
      | true => simpa using halone (cut_long he hl)
      | false =>
          cases hr : find D.long (es.flatten ++ t) with
          | none =>
              have hany := (find_long_none es hes ho).mp hr
              simpa [hany] using halone (cut_short he hl hr)
          | some i =>
              have hany : es.any (isLong D) = true := by
                by_contra hno
                have := (find_long_none es hes ho).mpr (by simpa using hno)
                simp [this] at hr
              obtain ⟨hcut, hcut'⟩ := cut_merged (e := e) he hl hr
              have hrest := ih hes (k + 1) (Nat.le_succ_of_le hk)
              rw [frames_of_cut hcut, Prod.mk.injEq] at hrest
              rw [frames_of_cut hcut', List.take_length_add_append, List.drop_length_add_append, hrest.2, ← hrest.1]
              simp [hany]

end OneSdk.Framing
