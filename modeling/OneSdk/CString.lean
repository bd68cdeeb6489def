import Mathlib.Algebra.Ring.Int.Defs
import Mathlib.Algebra.Ring.Nat
import Mathlib.Data.List.TakeWhile

namespace OneSdk

/-- The bytes of a C string before its terminator, or of a buffer. -/
abbrev Bytes := List UInt8

abbrev Pointer := Nat

end OneSdk

namespace OneSdk.CString

def ascii (s : List Char) : Bytes := s.map (fun c => c.toNat.toUInt8)

def text (s : String) : Bytes := ascii s.toList

def newline : UInt8 := 10

def carriageReturn : UInt8 := 13

def isspace (c : UInt8) : Bool := c == 32 || (9 ≤ c && c ≤ 13)

/-- What a C function reads as a string in a memory: the bytes before the first NUL. -/
def cstr (s : Bytes) : Bytes := s.takeWhile (· != 0)

def strchr (c : UInt8) (s : Bytes) : Option Nat := (cstr s).findIdx? (· == c)

def memchr (c : UInt8) (n : Nat) (s : Bytes) : Option Nat := (s.take n).findIdx? (· == c)

def toInt (len : Nat) : Int :=
  if len % 2 ^ 32 < 2 ^ 31 then ((len % 2 ^ 32 : Nat) : Int) else ((len % 2 ^ 32 : Nat) : Int) - 2 ^ 32

theorem toInt_le (len : Nat) : toInt len ≤ len := by
  have hmod := Nat.mod_le len (2 ^ 32)
  rw [toInt]
  split <;> omega

theorem toInt_short {len : Nat} (h : len < 2 ^ 31) : toInt len = len := by
  have hmod : len % 2 ^ 32 = len := Nat.mod_eq_of_lt (by omega)
  rw [toInt, hmod, if_pos h]

theorem toInt_nonneg_iff {len : Nat} : 0 ≤ toInt len ↔ len % 2 ^ 32 < 2 ^ 31 := by
  rw [toInt]
  split <;> omega

theorem set_middle {α : Type} (xs ys : List α) (x y : α) : (xs ++ x :: ys).set xs.length y = xs ++ y :: ys := by
  rw [List.set_append_right _ _ (Nat.le_refl _), Nat.sub_self, List.set_cons_zero]

theorem zero_notMem_cstr (s : Bytes) : (0 : UInt8) ∉ cstr s := by
  intro h
  exact absurd (List.mem_takeWhile_imp h) (by decide)

theorem cstr_eq_self {s : Bytes} : cstr s = s ↔ (0 : UInt8) ∉ s := by
  rw [cstr, List.takeWhile_eq_self_iff]
  constructor
  · intro h h0
    exact absurd (h 0 h0) (by decide)
  · intro h b hb
    exact bne_iff_ne.mpr (fun h0 => h (h0 ▸ hb))

theorem cstr_append (s r : Bytes) : cstr (s ++ r) = if (0 : UInt8) ∈ s then cstr s else s ++ cstr r := by
  induction s with
  | nil => rfl
  | cons b s ih =>
      rw [List.cons_append, cstr, List.takeWhile_cons, cstr, List.takeWhile_cons]
      by_cases hb : b = 0
      · simp [hb]
      · rw [cstr] at ih
        have hne : ¬(0 : UInt8) = b := Ne.symm hb
        simp only [bne_iff_ne, ne_eq, hb, not_false_eq_true, if_true, ih, List.mem_cons, hne, false_or]
        split <;> rfl

theorem takeWhile_closed {p : UInt8 → Bool} {b : UInt8} (hb : p b = false) (w r : Bytes) :
    (w ++ b :: r).takeWhile p = w.takeWhile p := by
  induction w with
  | nil =>
      rw [List.nil_append, List.takeWhile_cons, hb]
      rfl
  | cons a w ih => rw [List.cons_append, List.takeWhile_cons, List.takeWhile_cons, ih]

theorem cstr_terminated (w r : Bytes) : cstr (w ++ 0 :: r) = cstr w := takeWhile_closed rfl w r

theorem strchr_first {c : UInt8} {s : Bytes} (hc : c ∉ s) (h0 : (0 : UInt8) ∉ s) (hne : c ≠ 0) (r : Bytes) :
    strchr c (s ++ c :: r) = some s.length := by
  have hnone : s.findIdx? (· == c) = none := by
    rw [List.findIdx?_eq_none_iff]
    intro b hb
    exact beq_false_of_ne (fun h => hc (h ▸ hb))
  rw [strchr, cstr_append, if_neg h0, List.findIdx?_append, hnone, cstr,
    List.takeWhile_cons_of_pos (by simpa using hne), List.findIdx?_cons]
  simp

theorem strchr_none {c : UInt8} {s : Bytes} (hc : c ∉ cstr s) : strchr c s = none := by
  rw [strchr, List.findIdx?_eq_none_iff]
  intro b hb
  exact beq_false_of_ne (fun h => hc (h ▸ hb))

theorem strchr_append (c : UInt8) (s r : Bytes) :
    (strchr c (s ++ r)).filter (· < s.length) = strchr c s := by
  have hself : (strchr c s).filter (· < s.length) = strchr c s := by
    cases h : strchr c s with
    | none => rfl
    | some i =>
        have hi := (List.findIdx?_eq_some_iff_findIdx_eq.mp h).1
        have hlen : (cstr s).length ≤ s.length := (List.takeWhile_sublist _).length_le
        have hlt : i < s.length := by omega
        simp [hlt]
  rw [strchr, cstr_append]
  split
  next => exact hself
  next h0 =>
    rw [strchr, cstr_eq_self.mpr h0] at hself
    rw [strchr, cstr_eq_self.mpr h0, List.findIdx?_append]
    cases h : s.findIdx? (· == c) with
    | some i => rw [h] at hself; simpa using hself
    | none => simp

theorem memchr_line (c : UInt8) (l r : Bytes) (n : Nat) (hl : c ∉ l) (hn : l.length < n) :
    memchr c n (l ++ c :: r) = some l.length := by
  have htake : (l ++ c :: r).take n = l ++ c :: r.take (n - l.length - 1) := by
    obtain ⟨k, rfl⟩ : ∃ k, n = l.length + (k + 1) := ⟨n - l.length - 1, by omega⟩
    rw [List.take_length_add_append, List.take_succ_cons]
    congr 3
    omega
  have hnone : l.findIdx? (· == c) = none := by
    rw [List.findIdx?_eq_none_iff]
    intro x hx
    simpa using fun h : x = c => hl (h ▸ hx)
  rw [memchr, htake, List.findIdx?_append, hnone, List.findIdx?_cons]
  simp

theorem spaces_beyond {s r : Bytes} {b : UInt8} (hs : ∀ x ∈ s, isspace x = true) (hb : isspace b = true) :
    s.length < ((s ++ b :: r).takeWhile isspace).length := by
  rw [List.takeWhile_append_of_pos hs, List.takeWhile_cons, hb, if_pos rfl, List.length_append, List.length_cons]
  omega

theorem spaces_within {s : Bytes} (hs : ¬∀ x ∈ s, isspace x = true) (r : Bytes) :
    (s ++ r).takeWhile isspace = s.takeWhile isspace := by
  rw [List.takeWhile_append, if_neg]
  intro hlen
  exact hs (List.takeWhile_eq_self_iff.mp ((List.takeWhile_prefix isspace).eq_of_length hlen))

end OneSdk.CString
