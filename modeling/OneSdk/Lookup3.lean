import Mathlib.Tactic.IntervalCases
import OneSdk.Memory

namespace OneSdk.Lookup3

structure Abc where
  a : UInt32
  b : UInt32
  c : UInt32
  deriving DecidableEq

def rot (x : UInt32) (k : UInt32) : UInt32 := (x <<< k) ||| (x >>> (32 - k))

def mix (s : Abc) : Abc :=
  let ⟨a, b, c⟩ := s
  let a := a - c; let a := a ^^^ rot c 4; let c := c + b
  let b := b - a; let b := b ^^^ rot a 6; let a := a + c
  let c := c - b; let c := c ^^^ rot b 8; let b := b + a
  let a := a - c; let a := a ^^^ rot c 16; let c := c + b
  let b := b - a; let b := b ^^^ rot a 19; let a := a + c
  let c := c - b; let c := c ^^^ rot b 4; let b := b + a
  ⟨a, b, c⟩

def final (s : Abc) : Abc :=
  let ⟨a, b, c⟩ := s
  let c := c ^^^ b; let c := c - rot b 14
  let a := a ^^^ c; let a := a - rot c 11
  let b := b ^^^ a; let b := b - rot a 25
  let c := c ^^^ b; let c := c - rot b 16
  let a := a ^^^ c; let a := a - rot c 4
  let b := b ^^^ a; let b := b - rot a 14
  let c := c ^^^ b; let c := c - rot b 24
  ⟨a, b, c⟩

section Reads

variable (m : Memory)

def k8 (i : Nat) : UInt32 := (m i).toUInt32

def k16 (i : Nat) : UInt32 := UInt32.ofNat ((m i).toNat + (m (i + 1)).toNat * 2 ^ 8)

def k32 (i : Nat) : UInt32 :=
  UInt32.ofNat ((m i).toNat + (m (i + 1)).toNat * 2 ^ 8 + (m (i + 2)).toNat * 2 ^ 16 + (m (i + 3)).toNat * 2 ^ 24)

end Reads

/-- All but the last block: `add` takes up twelve bytes. -/
def blocks (add : Nat → Abc → Abc) (length k : Nat) (s : Abc) : Nat × Nat × Abc :=
  if length > 12 then blocks add (length - 12) (k + 12) (mix (add k s)) else (length, k, s)
termination_by length

section Words

variable (m : Memory) (k : Nat) (s : Abc)

def addWords : Abc := ⟨s.a + k32 m k, s.b + k32 m (k + 4), s.c + k32 m (k + 8)⟩

/-- The reads go beyond the end, and what is read there is masked off. -/
def lastWords (length : Nat) : Option Abc :=
  match length with
  | 12 => some ⟨s.a + k32 m k, s.b + k32 m (k + 4), s.c + k32 m (k + 8)⟩
  | 11 => some ⟨s.a + k32 m k, s.b + k32 m (k + 4), s.c + (k32 m (k + 8) &&& 0xffffff)⟩
  | 10 => some ⟨s.a + k32 m k, s.b + k32 m (k + 4), s.c + (k32 m (k + 8) &&& 0xffff)⟩
  | 9 => some ⟨s.a + k32 m k, s.b + k32 m (k + 4), s.c + (k32 m (k + 8) &&& 0xff)⟩
  | 8 => some ⟨s.a + k32 m k, s.b + k32 m (k + 4), s.c⟩
  | 7 => some ⟨s.a + k32 m k, s.b + (k32 m (k + 4) &&& 0xffffff), s.c⟩
  | 6 => some ⟨s.a + k32 m k, s.b + (k32 m (k + 4) &&& 0xffff), s.c⟩
  | 5 => some ⟨s.a + k32 m k, s.b + (k32 m (k + 4) &&& 0xff), s.c⟩
  | 4 => some ⟨s.a + k32 m k, s.b, s.c⟩
  | 3 => some ⟨s.a + (k32 m k &&& 0xffffff), s.b, s.c⟩
  | 2 => some ⟨s.a + (k32 m k &&& 0xffff), s.b, s.c⟩
  | 1 => some ⟨s.a + (k32 m k &&& 0xff), s.b, s.c⟩
  | _ => none

end Words

section Halves

variable (m : Memory) (k : Nat) (s : Abc)

def addHalves : Abc :=
  ⟨s.a + (k16 m k + k16 m (k + 2) <<< 16), s.b + (k16 m (k + 4) + k16 m (k + 6) <<< 16),
    s.c + (k16 m (k + 8) + k16 m (k + 10) <<< 16)⟩

def lastHalves (length : Nat) : Option Abc :=
  let a := s.a + (k16 m k + k16 m (k + 2) <<< 16)
  let b := s.b + (k16 m (k + 4) + k16 m (k + 6) <<< 16)
  match length with
  | 12 => some ⟨a, b, s.c + (k16 m (k + 8) + k16 m (k + 10) <<< 16)⟩
  | 11 => some ⟨a, b, s.c + k8 m (k + 10) <<< 16 + k16 m (k + 8)⟩
  | 10 => some ⟨a, b, s.c + k16 m (k + 8)⟩
  | 9 => some ⟨a, b, s.c + k8 m (k + 8)⟩
  | 8 => some ⟨a, b, s.c⟩
  | 7 => some ⟨a, s.b + k8 m (k + 6) <<< 16 + k16 m (k + 4), s.c⟩
  | 6 => some ⟨a, s.b + k16 m (k + 4), s.c⟩
  | 5 => some ⟨a, s.b + k8 m (k + 4), s.c⟩
  | 4 => some ⟨a, s.b, s.c⟩
  | 3 => some ⟨s.a + k8 m (k + 2) <<< 16 + k16 m k, s.b, s.c⟩
  | 2 => some ⟨s.a + k16 m k, s.b, s.c⟩
  | 1 => some ⟨s.a + k8 m k, s.b, s.c⟩
  | _ => none

end Halves

section Bytes

variable (m : Memory) (k : Nat) (s : Abc)

def addBytes : Abc :=
  ⟨s.a + k8 m k + k8 m (k + 1) <<< 8 + k8 m (k + 2) <<< 16 + k8 m (k + 3) <<< 24,
    s.b + k8 m (k + 4) + k8 m (k + 5) <<< 8 + k8 m (k + 6) <<< 16 + k8 m (k + 7) <<< 24,
    s.c + k8 m (k + 8) + k8 m (k + 9) <<< 8 + k8 m (k + 10) <<< 16 + k8 m (k + 11) <<< 24⟩

/-- Case `n` of a switch whose cases fall through, and the ones above it. -/
def fallIn (length n : Nat) (x y : UInt32) : UInt32 := if length ≥ n then x + y else x

def lastBytes (length : Nat) : Option Abc :=
  if length = 0 then none
  else
    let c := fallIn length 12 s.c (k8 m (k + 11) <<< 24)
    let c := fallIn length 11 c (k8 m (k + 10) <<< 16)
    let c := fallIn length 10 c (k8 m (k + 9) <<< 8)
    let c := fallIn length 9 c (k8 m (k + 8))
    let b := fallIn length 8 s.b (k8 m (k + 7) <<< 24)
    let b := fallIn length 7 b (k8 m (k + 6) <<< 16)
    let b := fallIn length 6 b (k8 m (k + 5) <<< 8)
    let b := fallIn length 5 b (k8 m (k + 4))
    let a := fallIn length 4 s.a (k8 m (k + 3) <<< 24)
    let a := fallIn length 3 a (k8 m (k + 2) <<< 16)
    let a := fallIn length 2 a (k8 m (k + 1) <<< 8)
    let a := fallIn length 1 a (k8 m k)
    some ⟨a, b, c⟩

end Bytes

def hashBy (add : Nat → Abc → Abc) (last : Nat → Abc → Nat → Option Abc) (key length : Nat) (s : Abc) : Abc :=
  let (length, k, s) := blocks add length key s
  match last k s length with
  | none => s
  | some s => final s

/-- On a little-endian machine, the path by how the key is aligned; the results are `*pc` and `*pb`. -/
def hashlittle2 (m : Memory) (key length : Nat) (pc pb : UInt32) : UInt32 × UInt32 :=
  let a := 0xdeadbeef + UInt32.ofNat length + pc
  let s : Abc := ⟨a, a, a + pb⟩
  let s :=
    if key % 4 = 0 then hashBy (addWords m) (lastWords m) key length s
    else if key % 2 = 0 then hashBy (addHalves m) (lastHalves m) key length s
    else hashBy (addBytes m) (lastBytes m) key length s
  (s.c, s.b)

section Paths

variable (m : Memory) (k : Nat) (s : Abc)

theorem ofNat_shift (x : Nat) {n : Nat} (hn : n < 32) :
    UInt32.ofNat x <<< UInt32.ofNat n = UInt32.ofNat (x * 2 ^ n) := by
  rw [← UInt32.ofNat_shiftLeft x n hn, Nat.shiftLeft_eq]

theorem ofNat_shift8 (x : Nat) : UInt32.ofNat x <<< 8 = UInt32.ofNat (x * 2 ^ 8) := ofNat_shift x (by decide)

theorem ofNat_shift16 (x : Nat) : UInt32.ofNat x <<< 16 = UInt32.ofNat (x * 2 ^ 16) := ofNat_shift x (by decide)

theorem ofNat_shift24 (x : Nat) : UInt32.ofNat x <<< 24 = UInt32.ofNat (x * 2 ^ 24) := ofNat_shift x (by decide)

theorem k8_eq (i : Nat) : k8 m i = UInt32.ofNat (m i).toNat := by
  rw [← UInt32.toNat_inj, UInt32.toNat_ofNat', k8, UInt8.toNat_toUInt32]
  exact (Nat.mod_eq_of_lt ((UInt8.toNat_lt _).trans (by decide))).symm

theorem k16_eq (i : Nat) : k16 m i = k8 m i + k8 m (i + 1) <<< 8 := by
  rw [k16, UInt32.ofNat_add, k8_eq, k8_eq, ofNat_shift8]

theorem k16_shift (i : Nat) : k16 m i <<< 16 = k8 m i <<< 16 + k8 m (i + 1) <<< 24 := by
  rw [k16, ofNat_shift16, k8_eq, k8_eq, ofNat_shift16, ofNat_shift24, ← UInt32.ofNat_add]
  refine congrArg UInt32.ofNat ?_
  omega

theorem k32_eq (i : Nat) : k32 m i = k16 m i + k16 m (i + 2) <<< 16 := by
  rw [k16, k16, ofNat_shift16, ← UInt32.ofNat_add, k32, Nat.add_assoc i 2 1]
  refine congrArg UInt32.ofNat ?_
  omega

theorem mask_ofNat (x n : Nat) : UInt32.ofNat x &&& UInt32.ofNat (2 ^ n - 1) = UInt32.ofNat (x % 2 ^ n) := by
  rw [← UInt32.ofNat_and, Nat.and_two_pow_sub_one_eq_mod]

theorem mask8 (x : Nat) : UInt32.ofNat x &&& 0xff = UInt32.ofNat (x % 2 ^ 8) := mask_ofNat x 8

theorem mask16 (x : Nat) : UInt32.ofNat x &&& 0xffff = UInt32.ofNat (x % 2 ^ 16) := mask_ofNat x 16

theorem mask24 (x : Nat) : UInt32.ofNat x &&& 0xffffff = UInt32.ofNat (x % 2 ^ 24) := mask_ofNat x 24

theorem k32_mask8 (i : Nat) : k32 m i &&& 0xff = k8 m i := by
  have hlt := UInt8.toNat_lt (m i)
  rw [k32, mask8, k8_eq]
  refine congrArg UInt32.ofNat ?_
  omega

theorem k32_mask16 (i : Nat) : k32 m i &&& 0xffff = k16 m i := by
  have hlt := UInt8.toNat_lt (m i)
  have hlt' := UInt8.toNat_lt (m (i + 1))
  rw [k32, mask16, k16]
  refine congrArg UInt32.ofNat ?_
  omega

theorem k32_mask24 (i : Nat) : k32 m i &&& (0xffffff : UInt32) = k8 m (i + 2) <<< 16 + k16 m i := by
  have hlt := UInt8.toNat_lt (m i)
  have hlt' := UInt8.toNat_lt (m (i + 1))
  have hlt'' := UInt8.toNat_lt (m (i + 2))
  rw [k32, mask24, k8_eq, ofNat_shift16, k16, ← UInt32.ofNat_add]
  refine congrArg UInt32.ofNat ?_
  omega

theorem addHalves_eq : addHalves m k s = addBytes m k s := by
  rw [addHalves, addBytes]
  simp only [k16_shift]
  simp only [k16_eq, UInt32.add_assoc, Nat.add_assoc, Nat.reduceAdd]

theorem addWords_eq : addWords m k s = addHalves m k s := by
  rw [addWords, addHalves, k32_eq, k32_eq, k32_eq]

theorem lastWords_eq (length : Nat) : lastWords m k s length = lastHalves m k s length := by
  unfold lastWords lastHalves
  simp only [k32_mask8, k32_mask16, k32_mask24, UInt32.add_assoc]
  simp only [k32_eq, Nat.add_assoc, Nat.reduceAdd]

theorem tail2 (x : UInt32) (i : Nat) : x + k8 m (i + 1) <<< 8 + k8 m i = x + k16 m i := by
  rw [k16_eq, UInt32.add_comm (k8 m i), UInt32.add_assoc]

theorem tail4 (x : UInt32) (i : Nat) :
    x + k8 m (i + 3) <<< 24 + k8 m (i + 2) <<< 16 + k16 m i = x + (k16 m i + k16 m (i + 2) <<< 16) := by
  rw [k16_shift, UInt32.add_comm (k16 m i), UInt32.add_comm (k8 m (i + 2) <<< 16)]
  simp only [UInt32.add_assoc]

theorem lastHalves_eq {length : Nat} (h : length ≤ 12) : lastHalves m k s length = lastBytes m k s length := by
  have hb := fun x => tail2 m x (k + 4)
  have hb' := fun x => tail4 m x (k + 4)
  have hc := fun x => tail2 m x (k + 8)
  have hc' := fun x => tail4 m x (k + 8)
  simp only [Nat.add_assoc, Nat.reduceAdd] at hb hb' hc hc'
  interval_cases length <;>
    simp only [lastHalves, lastBytes, fallIn, ge_iff_le, Nat.reduceLeDiff, Nat.le_refl, reduceIte, Nat.one_ne_zero,
      OfNat.ofNat_ne_zero, tail4, tail2, hb, hb', hc, hc']

theorem blocks_length (add : Nat → Abc → Abc) (length k : Nat) (s : Abc) : (blocks add length k s).1 ≤ 12 := by
  induction length, k, s using blocks.induct add with
  | case1 length k s hlong ih =>
      rw [blocks, if_pos hlong]
      exact ih
  | case2 length k s hshort =>
      rw [blocks, if_neg hshort]
      omega

theorem hashBy_congr {add : Nat → Abc → Abc} {last last' : Nat → Abc → Nat → Option Abc}
    (h : ∀ k s length, length ≤ 12 → last k s length = last' k s length) (key length : Nat) (s : Abc) :
    hashBy add last key length s = hashBy add last' key length s := by
  rw [hashBy, hashBy]
  dsimp only
  rw [h _ _ _ (blocks_length add length key s)]

/-- However the key is aligned and whatever stands behind it, it is hashed byte by byte. -/
theorem hashlittle2_bytes (key length : Nat) (pc pb : UInt32) :
    hashlittle2 m key length pc pb =
      let a := 0xdeadbeef + UInt32.ofNat length + pc
      let s := hashBy (addBytes m) (lastBytes m) key length ⟨a, a, a + pb⟩
      (s.c, s.b) := by
  have hwords : addWords m = addHalves m := by
    funext k s
    exact addWords_eq m k s
  have hhalves : addHalves m = addBytes m := by
    funext k s
    exact addHalves_eq m k s
  rw [hashlittle2, hwords, hhalves]
  rw [hashBy_congr (fun k s length h => (lastWords_eq m k s length).trans (lastHalves_eq m k s h)),
    hashBy_congr (fun k s length h => lastHalves_eq m k s h), ite_self, ite_self]

end Paths

section Content

variable {m m' : Memory} {k k' length n j : Nat} {x x' : UInt32} {s : Abc}

theorem fallIn_congr (h : ∀ i < length, m (k + i) = m' (k' + i)) (hx : x = x') (hj : j < n) (sh : UInt32) :
    fallIn length n x (k8 m (k + j) <<< sh) = fallIn length n x' (k8 m' (k' + j) <<< sh) := by
  subst hx
  rw [fallIn, fallIn]
  split
  · rw [k8, k8, h j (by omega)]
  · rfl

theorem fallIn_last (h : ∀ i < length, m (k + i) = m' (k' + i)) (hx : x = x') (hj : j < n) :
    fallIn length n x (k8 m (k + j)) = fallIn length n x' (k8 m' (k' + j)) := by
  subst hx
  rw [fallIn, fallIn]
  split
  · rw [k8, k8, h j (by omega)]
  · rfl

theorem lastBytes_congr (h : ∀ i < length, m (k + i) = m' (k' + i)) :
    lastBytes m k s length = lastBytes m' k' s length := by
  rw [lastBytes, lastBytes]
  split
  · rfl
  · refine congrArg some (Abc.mk.injEq .. ▸ ⟨?_, ?_, ?_⟩)
    · exact fallIn_last (j := 0) h (fallIn_congr h (fallIn_congr h (fallIn_congr h rfl (by decide) 24) (by decide) 16)
        (by decide) 8) (by decide)
    · exact fallIn_last h (fallIn_congr h (fallIn_congr h (fallIn_congr h rfl (by decide) 24) (by decide) 16)
        (by decide) 8) (by decide)
    · exact fallIn_last h (fallIn_congr h (fallIn_congr h (fallIn_congr h rfl (by decide) 24) (by decide) 16)
        (by decide) 8) (by decide)

theorem addBytes_congr (h : ∀ i < 12, m (k + i) = m' (k' + i)) : addBytes m k s = addBytes m' k' s := by
  have h0 : m k = m' k' := h 0 (by decide)
  rw [addBytes, addBytes]
  simp only [k8, h0, h 1 (by decide), h 2 (by decide), h 3 (by decide), h 4 (by decide), h 5 (by decide),
    h 6 (by decide), h 7 (by decide), h 8 (by decide), h 9 (by decide), h 10 (by decide), h 11 (by decide)]

theorem hashBy_content (h : ∀ i < length, m (k + i) = m' (k' + i)) :
    hashBy (addBytes m) (lastBytes m) k length s = hashBy (addBytes m') (lastBytes m') k' length s := by
  induction length, k, s using blocks.induct (addBytes m) generalizing k' with
  | case1 length k s hlong ih =>
      have hadd : addBytes m k s = addBytes m' k' s := addBytes_congr fun i hi => h i (by omega)
      have hnext : ∀ i < length - 12, m (k + 12 + i) = m' (k' + 12 + i) := fun i hi => by
        rw [Nat.add_assoc, Nat.add_assoc]
        exact h (12 + i) (by omega)
      have hrest := ih hnext
      rw [hashBy, hashBy] at hrest ⊢
      rw [blocks, blocks.eq_def (addBytes m') length, if_pos hlong, if_pos hlong, ← hadd]
      exact hrest
  | case2 length k s hshort =>
      rw [hashBy, hashBy, blocks, blocks.eq_def (addBytes m') length, if_neg hshort, if_neg hshort]
      dsimp only
      rw [lastBytes_congr h]

/-- The hash of a key is that of its bytes. -/
theorem hashlittle2_content {key key' : Nat} (h : ∀ i < length, m (key + i) = m' (key' + i)) (pc pb : UInt32) :
    hashlittle2 m key length pc pb = hashlittle2 m' key' length pc pb := by
  rw [hashlittle2_bytes, hashlittle2_bytes]
  dsimp only
  rw [hashBy_content h]

/-- At a multiple of four, and one byte after it. -/
theorem hashlittle2_content_shifted :
    hashlittle2 (fun i => UInt8.ofNat i) 4 30 0 0 = hashlittle2 (fun i => UInt8.ofNat (i - 1)) 5 30 0 0 := by
  refine hashlittle2_content (fun i _ => ?_) 0 0
  rw [show 5 + i - 1 = 4 + i by omega]

end Content

end OneSdk.Lookup3
