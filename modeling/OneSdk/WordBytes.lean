import Mathlib.Algebra.Ring.Nat
import Mathlib.Data.Nat.Bitwise

namespace OneSdk.WordBytes

def byteAt (w : UInt32) (j : Nat) : UInt8 := UInt8.ofNat (w.toNat >>> (8 * j))

def word (b0 b1 b2 b3 : UInt8) : UInt32 :=
  b0.toUInt32 ||| b1.toUInt32 <<< 8 ||| b2.toUInt32 <<< 16 ||| b3.toUInt32 <<< 24

variable {v w : UInt32} {j : Nat}

theorem byteAt_toNat (w : UInt32) (j : Nat) : (byteAt w j).toNat = w.toNat >>> (8 * j) % 2 ^ 8 := by
  rw [byteAt, UInt8.toNat_ofNat']

theorem word_ext (h : ∀ j < 4, byteAt v j = byteAt w j) : v = w := by
  have hbyte (j : Nat) (hj : j < 4) : v.toNat >>> (8 * j) % 2 ^ 8 = w.toNat >>> (8 * j) % 2 ^ 8 := by
    rw [← byteAt_toNat, ← byteAt_toNat, h j hj]
  have h0 := hbyte 0 (by decide)
  have h1 := hbyte 1 (by decide)
  have h2 := hbyte 2 (by decide)
  have h3 := hbyte 3 (by decide)
  have hv := v.toNat_lt
  have hw := w.toNat_lt
  simp only [Nat.shiftRight_eq_div_pow] at h0 h1 h2 h3
  rw [← UInt32.toNat_inj]
  omega

theorem byteAt_xor (v w : UInt32) (j : Nat) : byteAt (v ^^^ w) j = byteAt v j ^^^ byteAt w j := by
  rw [← UInt8.toNat_inj, UInt8.toNat_xor, byteAt_toNat, byteAt_toNat, byteAt_toNat, UInt32.toNat_xor,
    Nat.shiftRight_xor_distrib, Nat.xor_mod_two_pow]

theorem byteAt_or (v w : UInt32) (j : Nat) : byteAt (v ||| w) j = byteAt v j ||| byteAt w j := by
  rw [← UInt8.toNat_inj, UInt8.toNat_or, byteAt_toNat, byteAt_toNat, byteAt_toNat, UInt32.toNat_or,
    Nat.shiftRight_or_distrib, Nat.or_mod_two_pow]

theorem byteAt_shift (b : UInt8) {shift : UInt32} {k : Nat} (hshift : shift.toNat = 8 * k) (hk : k < 4) (hj : j < 4) :
    byteAt (b.toUInt32 <<< shift) j = if j = k then b else 0 := by
  have hb := b.toNat_lt
  have hto : (byteAt (b.toUInt32 <<< shift) j).toNat = b.toNat * 2 ^ (8 * k) % 2 ^ 32 / 2 ^ (8 * j) % 2 ^ 8 := by
    rw [byteAt_toNat, UInt32.toNat_shiftLeft, UInt8.toNat_toUInt32, hshift, Nat.shiftRight_eq_div_pow, Nat.shiftLeft_eq,
      Nat.mod_eq_of_lt (show 8 * k < 32 by omega)]
  rw [← UInt8.toNat_inj, hto, apply_ite UInt8.toNat]
  obtain rfl | rfl | rfl | rfl : k = 0 ∨ k = 1 ∨ k = 2 ∨ k = 3 := by omega
  all_goals
    obtain rfl | rfl | rfl | rfl : j = 0 ∨ j = 1 ∨ j = 2 ∨ j = 3 := by omega
    all_goals
      simp only [Nat.reduceMul, Nat.reducePow, Nat.reduceEqDiff, reduceIte, UInt8.toNat_zero]
      omega

theorem byteAt_low (b : UInt8) (hj : j < 4) : byteAt b.toUInt32 j = if j = 0 then b else 0 := by
  have h := byteAt_shift b (show (0 : UInt32).toNat = 8 * 0 from rfl) (by decide) hj
  rwa [UInt32.shiftLeft_zero] at h

theorem byteAt_word (b0 b1 b2 b3 : UInt8) (hj : j < 4) :
    byteAt (word b0 b1 b2 b3) j = if j = 0 then b0 else if j = 1 then b1 else if j = 2 then b2 else b3 := by
  rw [word, byteAt_or, byteAt_or, byteAt_or, byteAt_low b0 hj, byteAt_shift b1 (k := 1) rfl (by decide) hj,
    byteAt_shift b2 (k := 2) rfl (by decide) hj, byteAt_shift b3 (k := 3) rfl (by decide) hj]
  obtain rfl | rfl | rfl | rfl : j = 0 ∨ j = 1 ∨ j = 2 ∨ j = 3 := by omega
  all_goals simp

theorem word_xor (b0 b1 b2 b3 c0 c1 c2 c3 : UInt8) :
    word (b0 ^^^ c0) (b1 ^^^ c1) (b2 ^^^ c2) (b3 ^^^ c3) = word b0 b1 b2 b3 ^^^ word c0 c1 c2 c3 := by
  apply word_ext
  intro j hj
  rw [byteAt_xor, byteAt_word _ _ _ _ hj, byteAt_word _ _ _ _ hj, byteAt_word _ _ _ _ hj]
  obtain rfl | rfl | rfl | rfl : j = 0 ∨ j = 1 ∨ j = 2 ∨ j = 3 := by omega
  all_goals simp

theorem word_byteAt (w : UInt32) : word (byteAt w 0) (byteAt w 1) (byteAt w 2) (byteAt w 3) = w := by
  apply word_ext
  intro j hj
  rw [byteAt_word _ _ _ _ hj]
  obtain rfl | rfl | rfl | rfl : j = 0 ∨ j = 1 ∨ j = 2 ∨ j = 3 := by omega
  all_goals simp

theorem word_toNat (b0 b1 b2 b3 : UInt8) :
    (word b0 b1 b2 b3).toNat = b0.toNat + b1.toNat * 2 ^ 8 + b2.toNat * 2 ^ 16 + b3.toNat * 2 ^ 24 := by
  have hvalue (j : Nat) (hj : j < 4) := byteAt_toNat (word b0 b1 b2 b3) j
  have h0 := hvalue 0 (by decide)
  have h1 := hvalue 1 (by decide)
  have h2 := hvalue 2 (by decide)
  have h3 := hvalue 3 (by decide)
  have hlt := (word b0 b1 b2 b3).toNat_lt
  rw [byteAt_word _ _ _ _ (by decide), Nat.shiftRight_eq_div_pow] at h0 h1 h2 h3
  simp only [reduceIte, Nat.reduceMul, Nat.reducePow, Nat.reduceEqDiff] at h0 h1 h2 h3 hlt ⊢
  omega

theorem word_eq_xor (b0 b1 b2 b3 : UInt8) :
    word b0 b1 b2 b3 = b0.toUInt32 ^^^ b1.toUInt32 <<< 8 ^^^ b2.toUInt32 <<< 16 ^^^ b3.toUInt32 <<< 24 := by
  apply word_ext
  intro j hj
  rw [byteAt_word _ _ _ _ hj, byteAt_xor, byteAt_xor, byteAt_xor, byteAt_low b0 hj,
    byteAt_shift b1 (k := 1) rfl (by decide) hj, byteAt_shift b2 (k := 2) rfl (by decide) hj,
    byteAt_shift b3 (k := 3) rfl (by decide) hj]
  obtain rfl | rfl | rfl | rfl : j = 0 ∨ j = 1 ∨ j = 2 ∨ j = 3 := by omega
  all_goals simp

end OneSdk.WordBytes
