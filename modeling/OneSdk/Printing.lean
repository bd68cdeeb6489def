import OneSdk.CString

namespace OneSdk.Printing

open CString

/-- A text printed into an array of `size` bytes, or none where its terminator has no room. -/
def sprintf (size : Nat) (text : Bytes) : Option Bytes := if text.length < size then some text else none

/-- What is left of a text where the array is too small. -/
def snprintf (size : Nat) (text : Bytes) : Bytes := text.take (size - 1)

def decimal (n : Nat) : Bytes := ascii (Nat.toDigits 10 n)

def signedDecimal : Int → Bytes
  | .ofNat n => decimal n
  | .negSucc n => 45 :: decimal (n + 1)

section Arrays

variable {size : Nat} {text out : Bytes}

theorem sprintf_eq_some : sprintf size text = some out ↔ text.length < size ∧ out = text := by
  rw [sprintf]
  split
  · next h => exact ⟨fun heq => ⟨h, (Option.some.inj heq).symm⟩, fun heq => by rw [heq.2]⟩
  · next h => exact ⟨fun heq => absurd heq.symm (Option.some_ne_none _), fun heq => absurd heq.1 h⟩

theorem snprintf_eq_self (hsize : 0 < size) : snprintf size text = text ↔ text.length < size := by
  constructor
  · intro h
    have hlen := congrArg List.length h
    rw [snprintf, List.length_take] at hlen
    omega
  · intro h
    exact List.take_of_length_le (Nat.le_sub_one_of_lt h)

theorem snprintf_length (hsize : 0 < size) : (snprintf size text).length < size := by
  rw [snprintf, List.length_take]
  omega

end Arrays

section Digits

theorem digit_toNat {c : Char} (h : c.isDigit = true) :
    c.toNat.toUInt8.toNat = c.toNat ∧ 48 ≤ c.toNat ∧ c.toNat ≤ 57 := by
  obtain ⟨hlow, hhigh⟩ := Char.isDigit_iff_toNat.mp h
  change 48 ≤ c.toNat at hlow
  change c.toNat ≤ 57 at hhigh
  exact ⟨UInt8.toNat_ofNat_of_lt' (hhigh.trans_lt (by decide)), hlow, hhigh⟩

theorem isDigit_of_mem {n : Nat} {c : Char} (h : c ∈ Nat.toDigits 10 n) : c.isDigit = true :=
  Nat.isDigit_of_mem_toDigits (by decide) (by decide) h

theorem decimal_digits {n : Nat} {b : UInt8} (hb : b ∈ decimal n) : 48 ≤ b.toNat ∧ b.toNat ≤ 57 := by
  obtain ⟨c, hc, rfl⟩ := List.mem_map.mp hb
  obtain ⟨hnat, hbounds⟩ := digit_toNat (isDigit_of_mem hc)
  rw [hnat]
  exact hbounds

theorem signedDecimal_bytes {i : Int} {b : UInt8} (hb : b ∈ signedDecimal i) : 45 ≤ b.toNat ∧ b.toNat ≤ 57 := by
  cases i with
  | ofNat n =>
      have h := decimal_digits hb
      omega
  | negSucc n =>
      rcases List.mem_cons.mp hb with rfl | hb
      · decide
      · have h := decimal_digits hb
        omega

theorem read_decimal (n : Nat) : (decimal n).map (fun b => Char.ofNat b.toNat) = Nat.toDigits 10 n := by
  have hread : ∀ c ∈ Nat.toDigits 10 n, ((fun b : UInt8 => Char.ofNat b.toNat) ∘ fun c => c.toNat.toUInt8) c =
      id c := by
    intro c hc
    change Char.ofNat c.toNat.toUInt8.toNat = c
    rw [(digit_toNat (isDigit_of_mem hc)).1, Char.ofNat_toNat]
  rw [decimal, ascii, List.map_map, List.map_congr_left hread, List.map_id]

theorem decimal_injective : Function.Injective decimal := by
  intro n m h
  have hdigits : Nat.toDigits 10 n = Nat.toDigits 10 m := by rw [← read_decimal n, h, read_decimal m]
  calc
    n = Nat.ofDigitChars 10 (Nat.toDigits 10 n) 0 := Nat.ofDigitChars_ten_toDigits.symm
    _ = Nat.ofDigitChars 10 (Nat.toDigits 10 m) 0 := by rw [hdigits]
    _ = m := Nat.ofDigitChars_ten_toDigits

theorem decimal_ne_minus (n m : Nat) : decimal n ≠ 45 :: decimal m := by
  intro h
  have hmem : (45 : UInt8) ∈ decimal n := by
    rw [h]
    exact List.mem_cons_self
  exact absurd (decimal_digits hmem).1 (by decide)

theorem signedDecimal_injective : Function.Injective signedDecimal := by
  intro i j h
  cases i with
  | ofNat n =>
      cases j with
      | ofNat m => exact congrArg Int.ofNat (decimal_injective h)
      | negSucc m => exact absurd h (decimal_ne_minus n (m + 1))
  | negSucc n =>
      cases j with
      | ofNat m => exact absurd h.symm (decimal_ne_minus m (n + 1))
      | negSucc m => exact congrArg Int.negSucc (Nat.succ_injective (decimal_injective (List.cons.inj h).2))

end Digits

theorem closed_inj {c : UInt8} {a b r s : Bytes} (ha : c ∉ a) (hb : c ∉ b) (h : a ++ c :: r = b ++ c :: s) :
    a = b ∧ r = s := by
  have hfirst {l : Bytes} (t : Bytes) (hl : c ∉ l) : (l ++ c :: t).takeWhile (· != c) = l := by
    rw [takeWhile_closed (by rw [bne_self_eq_false])]
    exact List.takeWhile_eq_self_iff.mpr (fun x hx => bne_iff_ne.mpr (fun heq => hl (heq ▸ hx)))
  have hab : a = b := by rw [← hfirst r ha, h, hfirst s hb]
  rw [hab] at h
  exact ⟨hab, (List.cons.inj (List.append_cancel_left h)).2⟩

end OneSdk.Printing
