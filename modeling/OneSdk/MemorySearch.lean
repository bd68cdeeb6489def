import Mathlib.Data.Nat.Find
import OneSdk.HttpLibs

namespace OneSdk.MemorySearch

open CString

/-- Memory that an argument points to, with as many bytes as the length beside it says. -/
structure Range where
  bytes : Bytes
  sized : bytes.length < 2 ^ 64

def sizeSub (a b : Nat) : Nat := (a + 2 ^ 64 - b) % 2 ^ 64

/-- Both ranges are read to the end of what is compared. There is no result where one of
them ends before. -/
def memcmp (hay ndl : Range) (i n : Nat) : Option Bool :=
  if i + n ≤ hay.bytes.length ∧ n ≤ ndl.bytes.length then some ((hay.bytes.drop i).take n == ndl.bytes.take n) else none

/-- The loop from `i` on, which goes wrong when it runs out of passes. -/
def searchFrom (hay ndl : Range) (last : Nat) : Nat → Nat → Option (Option Nat)
  | 0, _ => none
  | k + 1, i =>
      if i ≤ last then
        (memcmp hay ndl i ndl.bytes.length).bind fun equal =>
          if equal then some (some i) else searchFrom hay ndl last k ((i + 1) % 2 ^ 64)
      else some none

/-- The position in the haystack of what is returned, nothing inside for `NULL`. The
pointers are `none` where they are `NULL`. -/
def onesdkMemmem (haystack needle : Option Range) : Option (Option Nat) :=
  match haystack, needle with
  | some hay, some ndl =>
      if ndl.bytes.length = 0 ∨ hay.bytes.length < ndl.bytes.length then some none
      else
        let last := sizeSub hay.bytes.length ndl.bytes.length
        searchFrom hay ndl last (last + 2) 0
  | _, _ => some none

def First (needle haystack : Bytes) (i : Nat) : Prop :=
  needle <+: haystack.drop i ∧ ∀ j < i, ¬needle <+: haystack.drop j

variable {hay ndl : Range}

theorem memcmp_within {i : Nat} (h : i + ndl.bytes.length ≤ hay.bytes.length) :
    memcmp hay ndl i ndl.bytes.length = some ((hay.bytes.drop i).take ndl.bytes.length == ndl.bytes) := by
  rw [memcmp, if_pos ⟨h, Nat.le_refl _⟩, List.take_length]

theorem sizeSub_of_le {a b : Nat} (ha : a < 2 ^ 64) (hle : b ≤ a) : sizeSub a b = a - b := by
  rw [sizeSub]
  omega

theorem searchFrom_eq {last i k : Nat} (hlast : last + ndl.bytes.length = hay.bytes.length)
    (hpos : 0 < ndl.bytes.length)
    (hi : i ≤ last + 1) (hk : last + 1 - i < k) :
    searchFrom hay ndl last k i =
      some ((List.range' i (last + 1 - i)).find? (fun i => (hay.bytes.drop i).take ndl.bytes.length == ndl.bytes)) := by
  induction k generalizing i with
  | zero => exact absurd hk (Nat.not_lt_zero _)
  | succ k ih =>
      rw [searchFrom]
      by_cases hle : i ≤ last
      · have hsized := hay.sized
        have hwrap : (i + 1) % 2 ^ 64 = i + 1 := Nat.mod_eq_of_lt (by omega)
        have hrange : List.range' i (last + 1 - i) = i :: List.range' (i + 1) (last + 1 - (i + 1)) := by
          rw [show last + 1 - i = last + 1 - (i + 1) + 1 by omega, List.range'_succ]
        rw [if_pos hle, memcmp_within (by omega), Option.bind_some, hwrap, ih (by omega) (by omega), hrange,
          List.find?_cons]
        cases (hay.bytes.drop i).take ndl.bytes.length == ndl.bytes <;> rfl
      · have hend : last + 1 - i = 0 := by omega
        rw [if_neg hle, hend, List.range'_zero, List.find?_nil]

/-- The loop ends, reads nothing outside, and finds what the search in a list finds. -/
theorem onesdkMemmem_eq (hay ndl : Range) :
    onesdkMemmem (some hay) (some ndl) = some (HttpLibs.onesdkMemmem hay.bytes ndl.bytes) := by
  rw [onesdkMemmem, HttpLibs.onesdkMemmem]
  dsimp only
  by_cases hnone : ndl.bytes.length = 0 ∨ hay.bytes.length < ndl.bytes.length
  · rw [if_pos hnone, if_pos (hnone.imp_left List.length_eq_zero_iff.mp)]
  · obtain ⟨hpos, hle⟩ := not_or.mp hnone
    have hle := Nat.not_lt.mp hle
    rw [if_neg hnone, if_neg (fun h => hnone (h.imp_left List.length_eq_zero_iff.mpr)), sizeSub_of_le hay.sized hle,
      searchFrom_eq (by omega) (Nat.pos_of_ne_zero hpos) (Nat.zero_le _) (by omega), Nat.sub_zero,
      List.range_eq_range']

theorem occurs_within {needle haystack : Bytes} {i : Nat} (hne : needle ≠ []) (h : needle <+: haystack.drop i) :
    i ≤ haystack.length := by
  have hlen := h.length_le
  have hpos := List.length_pos_iff.mpr hne
  rw [List.length_drop] at hlen
  omega

theorem find_eq_iff_first {needle haystack : Bytes} (hne : needle ≠ []) (i : Nat) :
    Framing.find needle haystack = some i ↔ First needle haystack i := by
  constructor
  · intro hfind
    -- the first of all positions is found as well
    have hex : ∃ j, needle <+: haystack.drop j := ⟨i, Framing.find_some hfind⟩
    have hmin := Framing.find_at (Nat.find_spec hex) (occurs_within hne (Nat.find_spec hex))
      (fun j hj => Nat.find_min hex hj)
    obtain rfl : i = Nat.find hex := Option.some.inj (hfind.symm.trans hmin)
    exact ⟨Nat.find_spec hex, fun j hj => Nat.find_min hex hj⟩
  · rintro ⟨hi, hfirst⟩
    exact Framing.find_at hi (occurs_within hne hi) hfirst

theorem find_eq_none_iff {needle haystack : Bytes} :
    Framing.find needle haystack = none ↔ ∀ i, ¬needle <+: haystack.drop i := by
  constructor
  · intro hfind i hoccurs
    obtain ⟨rest, hrest⟩ := hoccurs
    refine Framing.not_infix_of_find hfind ⟨haystack.take i, rest, ?_⟩
    rw [List.append_assoc, hrest, List.take_append_drop]
  · intro hnot
    cases hfind : Framing.find needle haystack with
    | none => rfl
    | some i => exact absurd (Framing.find_some hfind) (hnot i)

def bytesOf (haystack : Option Range) : Bytes := haystack.elim [] Range.bytes

/-- The search ends without a byte read outside the two ranges, with the first occurrence
of the needle where there is one. -/
theorem onesdkMemmem_first (haystack : Option Range) (needle : Range) (hne : needle.bytes ≠ []) :
    ∃ found, onesdkMemmem haystack (some needle) = some found ∧
      (∀ i, found = some i ↔ First needle.bytes (bytesOf haystack) i) ∧
      (found = none ↔ ∀ i, ¬needle.bytes <+: (bytesOf haystack).drop i) := by
  cases haystack with
  | none =>
      refine ⟨none, rfl, ?_, ?_⟩
      · intro i
        rw [← find_eq_iff_first hne, bytesOf, Option.elim_none, Framing.find, if_neg hne]
      · rw [← find_eq_none_iff, bytesOf, Option.elim_none, Framing.find, if_neg hne]
  | some hay =>
      refine ⟨_, onesdkMemmem_eq hay needle, ?_, ?_⟩
      · intro i
        rw [HttpLibs.onesdkMemmem_eq_find hne]
        exact find_eq_iff_first hne i
      · rw [HttpLibs.onesdkMemmem_eq_find hne]
        exact find_eq_none_iff

def line : Range := ⟨text "a\n\nb", by decide⟩

def terminator : Range := ⟨text "\n\n", by decide⟩

theorem terminator_first : onesdkMemmem (some line) (some terminator) = some (some 1) ∧
    First terminator.bytes line.bytes 1 := by
  obtain ⟨found, hfound, hfirst, -⟩ := onesdkMemmem_first (some line) terminator (by decide)
  have hone : onesdkMemmem (some line) (some terminator) = some (some 1) := by
    rw [onesdkMemmem_eq]
    rfl
  exact ⟨hone, (hfirst 1).mp (Option.some.inj (hfound.symm.trans hone))⟩

end OneSdk.MemorySearch
