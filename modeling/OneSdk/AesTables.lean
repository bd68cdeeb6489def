import Mathlib.Data.List.GetD
import Mathlib.Data.List.Rotate
import OneSdk.WordBytes

namespace OneSdk.Aes

open WordBytes

section Rom

def romFsb : List UInt8 :=
  [0x63, 0x7C, 0x77, 0x7B, 0xF2, 0x6B, 0x6F, 0xC5, 0x30, 0x01, 0x67, 0x2B, 0xFE, 0xD7, 0xAB, 0x76,
    0xCA, 0x82, 0xC9, 0x7D, 0xFA, 0x59, 0x47, 0xF0, 0xAD, 0xD4, 0xA2, 0xAF, 0x9C, 0xA4, 0x72, 0xC0,
    0xB7, 0xFD, 0x93, 0x26, 0x36, 0x3F, 0xF7, 0xCC, 0x34, 0xA5, 0xE5, 0xF1, 0x71, 0xD8, 0x31, 0x15,
    0x04, 0xC7, 0x23, 0xC3, 0x18, 0x96, 0x05, 0x9A, 0x07, 0x12, 0x80, 0xE2, 0xEB, 0x27, 0xB2, 0x75,
    0x09, 0x83, 0x2C, 0x1A, 0x1B, 0x6E, 0x5A, 0xA0, 0x52, 0x3B, 0xD6, 0xB3, 0x29, 0xE3, 0x2F, 0x84,
    0x53, 0xD1, 0x00, 0xED, 0x20, 0xFC, 0xB1, 0x5B, 0x6A, 0xCB, 0xBE, 0x39, 0x4A, 0x4C, 0x58, 0xCF,
    0xD0, 0xEF, 0xAA, 0xFB, 0x43, 0x4D, 0x33, 0x85, 0x45, 0xF9, 0x02, 0x7F, 0x50, 0x3C, 0x9F, 0xA8,
    0x51, 0xA3, 0x40, 0x8F, 0x92, 0x9D, 0x38, 0xF5, 0xBC, 0xB6, 0xDA, 0x21, 0x10, 0xFF, 0xF3, 0xD2,
    0xCD, 0x0C, 0x13, 0xEC, 0x5F, 0x97, 0x44, 0x17, 0xC4, 0xA7, 0x7E, 0x3D, 0x64, 0x5D, 0x19, 0x73,
    0x60, 0x81, 0x4F, 0xDC, 0x22, 0x2A, 0x90, 0x88, 0x46, 0xEE, 0xB8, 0x14, 0xDE, 0x5E, 0x0B, 0xDB,
    0xE0, 0x32, 0x3A, 0x0A, 0x49, 0x06, 0x24, 0x5C, 0xC2, 0xD3, 0xAC, 0x62, 0x91, 0x95, 0xE4, 0x79,
    0xE7, 0xC8, 0x37, 0x6D, 0x8D, 0xD5, 0x4E, 0xA9, 0x6C, 0x56, 0xF4, 0xEA, 0x65, 0x7A, 0xAE, 0x08,
    0xBA, 0x78, 0x25, 0x2E, 0x1C, 0xA6, 0xB4, 0xC6, 0xE8, 0xDD, 0x74, 0x1F, 0x4B, 0xBD, 0x8B, 0x8A,
    0x70, 0x3E, 0xB5, 0x66, 0x48, 0x03, 0xF6, 0x0E, 0x61, 0x35, 0x57, 0xB9, 0x86, 0xC1, 0x1D, 0x9E,
    0xE1, 0xF8, 0x98, 0x11, 0x69, 0xD9, 0x8E, 0x94, 0x9B, 0x1E, 0x87, 0xE9, 0xCE, 0x55, 0x28, 0xDF,
    0x8C, 0xA1, 0x89, 0x0D, 0xBF, 0xE6, 0x42, 0x68, 0x41, 0x99, 0x2D, 0x0F, 0xB0, 0x54, 0xBB, 0x16]

def romRsb : List UInt8 :=
  [0x52, 0x09, 0x6A, 0xD5, 0x30, 0x36, 0xA5, 0x38, 0xBF, 0x40, 0xA3, 0x9E, 0x81, 0xF3, 0xD7, 0xFB,
    0x7C, 0xE3, 0x39, 0x82, 0x9B, 0x2F, 0xFF, 0x87, 0x34, 0x8E, 0x43, 0x44, 0xC4, 0xDE, 0xE9, 0xCB,
    0x54, 0x7B, 0x94, 0x32, 0xA6, 0xC2, 0x23, 0x3D, 0xEE, 0x4C, 0x95, 0x0B, 0x42, 0xFA, 0xC3, 0x4E,
    0x08, 0x2E, 0xA1, 0x66, 0x28, 0xD9, 0x24, 0xB2, 0x76, 0x5B, 0xA2, 0x49, 0x6D, 0x8B, 0xD1, 0x25,
    0x72, 0xF8, 0xF6, 0x64, 0x86, 0x68, 0x98, 0x16, 0xD4, 0xA4, 0x5C, 0xCC, 0x5D, 0x65, 0xB6, 0x92,
    0x6C, 0x70, 0x48, 0x50, 0xFD, 0xED, 0xB9, 0xDA, 0x5E, 0x15, 0x46, 0x57, 0xA7, 0x8D, 0x9D, 0x84,
    0x90, 0xD8, 0xAB, 0x00, 0x8C, 0xBC, 0xD3, 0x0A, 0xF7, 0xE4, 0x58, 0x05, 0xB8, 0xB3, 0x45, 0x06,
    0xD0, 0x2C, 0x1E, 0x8F, 0xCA, 0x3F, 0x0F, 0x02, 0xC1, 0xAF, 0xBD, 0x03, 0x01, 0x13, 0x8A, 0x6B,
    0x3A, 0x91, 0x11, 0x41, 0x4F, 0x67, 0xDC, 0xEA, 0x97, 0xF2, 0xCF, 0xCE, 0xF0, 0xB4, 0xE6, 0x73,
    0x96, 0xAC, 0x74, 0x22, 0xE7, 0xAD, 0x35, 0x85, 0xE2, 0xF9, 0x37, 0xE8, 0x1C, 0x75, 0xDF, 0x6E,
    0x47, 0xF1, 0x1A, 0x71, 0x1D, 0x29, 0xC5, 0x89, 0x6F, 0xB7, 0x62, 0x0E, 0xAA, 0x18, 0xBE, 0x1B,
    0xFC, 0x56, 0x3E, 0x4B, 0xC6, 0xD2, 0x79, 0x20, 0x9A, 0xDB, 0xC0, 0xFE, 0x78, 0xCD, 0x5A, 0xF4,
    0x1F, 0xDD, 0xA8, 0x33, 0x88, 0x07, 0xC7, 0x31, 0xB1, 0x12, 0x10, 0x59, 0x27, 0x80, 0xEC, 0x5F,
    0x60, 0x51, 0x7F, 0xA9, 0x19, 0xB5, 0x4A, 0x0D, 0x2D, 0xE5, 0x7A, 0x9F, 0x93, 0xC9, 0x9C, 0xEF,
    0xA0, 0xE0, 0x3B, 0x4D, 0xAE, 0x2A, 0xF5, 0xB0, 0xC8, 0xEB, 0xBB, 0x3C, 0x83, 0x53, 0x99, 0x61,
    0x17, 0x2B, 0x04, 0x7E, 0xBA, 0x77, 0xD6, 0x26, 0xE1, 0x69, 0x14, 0x63, 0x55, 0x21, 0x0C, 0x7D]

end Rom

section Generation

def xtime (x : Nat) : Nat := (x <<< 1) ^^^ (if x &&& 0x80 ≠ 0 then 0x1B else 0)

def powFrom : Nat → Nat → List Nat
  | 0, _ => []
  | n + 1, x => x :: powFrom n ((x ^^^ xtime x) &&& 0xFF)

def pow : List Nat := powFrom 256 1

/-- At each member of a table, the place where it stands last. -/
def placesOf (table : List Nat) : List Nat :=
  table.zipIdx.foldl (fun places p => places.set p.1 p.2) (List.replicate 256 0)

/-- `log[0]` is never written and never read. -/
def log : List Nat := placesOf pow

def mul (x y : Nat) : Nat := if x ≠ 0 ∧ y ≠ 0 then pow.getD ((log.getD x 0 + log.getD y 0) % 255) 0 else 0

def turnLeft (y : Nat) : Nat := ((y <<< 1) ||| (y >>> 7)) &&& 0xFF

def sboxAt (i : Nat) : Nat :=
  let x := pow.getD (255 - log.getD i 0) 0
  let y := turnLeft x
  let x := x ^^^ y
  let y := turnLeft y
  let x := x ^^^ y
  let y := turnLeft y
  let x := x ^^^ y
  let y := turnLeft y
  x ^^^ (y ^^^ 0x63)

def fsb : List UInt8 := 0x63 :: (List.range' 1 255).map (fun i => UInt8.ofNat (sboxAt i))

def rsb : List UInt8 := (placesOf (fsb.map UInt8.toNat)).map UInt8.ofNat

def rconFrom : Nat → Nat → List UInt32
  | 0, _ => []
  | n + 1, x => UInt32.ofNat x :: rconFrom n (xtime x &&& 0xFF)

def rcon : List UInt32 := rconFrom 10 1

def rotl8 (x : UInt32) : UInt32 := ((x <<< 8) &&& (0xFFFFFFFF : UInt32)) ||| (x >>> 24)

def ft0 : List UInt32 :=
  fsb.map (fun b =>
    let x := b.toNat
    let y := xtime x &&& 0xFF
    let z := (y ^^^ x) &&& 0xFF
    UInt32.ofNat y ^^^ UInt32.ofNat x <<< 8 ^^^ UInt32.ofNat x <<< 16 ^^^ UInt32.ofNat z <<< 24)

def rt0 : List UInt32 :=
  rsb.map (fun b =>
    let x := b.toNat
    UInt32.ofNat (mul 0x0E x) ^^^ UInt32.ofNat (mul 0x09 x) <<< 8 ^^^ UInt32.ofNat (mul 0x0D x) <<< 16 ^^^
      UInt32.ofNat (mul 0x0B x) <<< 24)

def ft1 : List UInt32 := ft0.map rotl8

def ft2 : List UInt32 := ft1.map rotl8

def ft3 : List UInt32 := ft2.map rotl8

def rt1 : List UInt32 := rt0.map rotl8

def rt2 : List UInt32 := rt1.map rotl8

def rt3 : List UInt32 := rt2.map rotl8

end Generation

section Evaluation

def powTable : { table : List Nat // pow = table } :=
  ⟨[1, 3, 5, 15, 17, 51, 85, 255, 26, 46, 114, 150, 161, 248, 19, 53,
    95, 225, 56, 72, 216, 115, 149, 164, 247, 2, 6, 10, 30, 34, 102, 170,
    229, 52, 92, 228, 55, 89, 235, 38, 106, 190, 217, 112, 144, 171, 230, 49,
    83, 245, 4, 12, 20, 60, 68, 204, 79, 209, 104, 184, 211, 110, 178, 205,
    76, 212, 103, 169, 224, 59, 77, 215, 98, 166, 241, 8, 24, 40, 120, 136,
    131, 158, 185, 208, 107, 189, 220, 127, 129, 152, 179, 206, 73, 219, 118, 154,
    181, 196, 87, 249, 16, 48, 80, 240, 11, 29, 39, 105, 187, 214, 97, 163,
    254, 25, 43, 125, 135, 146, 173, 236, 47, 113, 147, 174, 233, 32, 96, 160,
    251, 22, 58, 78, 210, 109, 183, 194, 93, 231, 50, 86, 250, 21, 63, 65,
    195, 94, 226, 61, 71, 201, 64, 192, 91, 237, 44, 116, 156, 191, 218, 117,
    159, 186, 213, 100, 172, 239, 42, 126, 130, 157, 188, 223, 122, 142, 137, 128,
    155, 182, 193, 88, 232, 35, 101, 175, 234, 37, 111, 177, 200, 67, 197, 84,
    252, 31, 33, 99, 165, 244, 7, 9, 27, 45, 119, 153, 176, 203, 70, 202,
    69, 207, 74, 222, 121, 139, 134, 145, 168, 227, 62, 66, 198, 81, 243, 14,
    18, 54, 90, 238, 41, 123, 141, 140, 143, 138, 133, 148, 167, 242, 13, 23,
    57, 75, 221, 124, 132, 151, 162, 253, 28, 36, 108, 180, 199, 82, 246, 1],
  by decide +kernel⟩

/-- The logarithms as they come out. The powers run through all bytes but zero. -/
def logTable : { table : List Nat // log = table ∧
    (List.range' 1 255).map (fun x => powTable.1.getD (table.getD x 0 % 255) 0) = List.range' 1 255 } :=
  ⟨[0, 255, 25, 1, 50, 2, 26, 198, 75, 199, 27, 104, 51, 238, 223, 3,
    100, 4, 224, 14, 52, 141, 129, 239, 76, 113, 8, 200, 248, 105, 28, 193,
    125, 194, 29, 181, 249, 185, 39, 106, 77, 228, 166, 114, 154, 201, 9, 120,
    101, 47, 138, 5, 33, 15, 225, 36, 18, 240, 130, 69, 53, 147, 218, 142,
    150, 143, 219, 189, 54, 208, 206, 148, 19, 92, 210, 241, 64, 70, 131, 56,
    102, 221, 253, 48, 191, 6, 139, 98, 179, 37, 226, 152, 34, 136, 145, 16,
    126, 110, 72, 195, 163, 182, 30, 66, 58, 107, 40, 84, 250, 133, 61, 186,
    43, 121, 10, 21, 155, 159, 94, 202, 78, 212, 172, 229, 243, 115, 167, 87,
    175, 88, 168, 80, 244, 234, 214, 116, 79, 174, 233, 213, 231, 230, 173, 232,
    44, 215, 117, 122, 235, 22, 11, 245, 89, 203, 95, 176, 156, 169, 81, 160,
    127, 12, 246, 111, 23, 196, 73, 236, 216, 67, 31, 45, 164, 118, 123, 183,
    204, 187, 62, 90, 251, 96, 177, 134, 59, 82, 161, 108, 170, 85, 41, 157,
    151, 178, 135, 144, 97, 190, 220, 252, 188, 149, 207, 205, 55, 63, 91, 209,
    83, 57, 132, 60, 65, 162, 109, 71, 20, 42, 158, 93, 86, 242, 211, 171,
    68, 17, 146, 217, 35, 32, 46, 137, 180, 124, 184, 38, 119, 153, 227, 165,
    103, 74, 237, 222, 197, 49, 254, 24, 13, 99, 140, 128, 192, 247, 112, 7],
  by
    constructor
    · rw [log, powTable.2]
      decide +kernel
    · decide +kernel⟩

set_option maxRecDepth 2000 in
theorem fsb_eq : fsb = romFsb := by
  have hrest : (List.range' 1 255).map (fun i => UInt8.ofNat (sboxAt i)) = romFsb.tail := by
    simp only [sboxAt, powTable.2, logTable.2.1]
    decide +kernel
  rw [fsb, hrest]
  rfl

theorem romRsb_eq : (placesOf (romFsb.map UInt8.toNat)).map UInt8.ofNat = romRsb ∧
    romFsb.map (fun b => romRsb.getD b.toNat 0) = (List.range 256).map UInt8.ofNat := by
  decide +kernel

theorem rsb_eq : rsb = romRsb := by
  rw [rsb, fsb_eq, romRsb_eq.1]

end Evaluation

section Field

def double (b : UInt8) : UInt8 := (b <<< 1) ^^^ (if b >>> 7 = 1 then 0x1B else 0)

/-- The product of a byte with a number of four bits. -/
def times (k : Nat) (b : UInt8) : UInt8 :=
  (if k.testBit 0 then b else 0) ^^^ (if k.testBit 1 then double b else 0) ^^^
    (if k.testBit 2 then double (double b) else 0) ^^^ (if k.testBit 3 then double (double (double b)) else 0)

theorem forall_byte {p : UInt8 → Prop} (h : ∀ i : Fin 256, p (UInt8.ofNat i)) (b : UInt8) : p b := by
  have hb := h ⟨b.toNat, b.toNat_lt⟩
  rwa [UInt8.ofNat_toNat] at hb

theorem top_bit (b : UInt8) : b >>> 7 = 0 ∨ b >>> 7 = 1 := by
  have hb := b.toNat_lt
  have htop : (b >>> 7).toNat = b.toNat / 2 ^ 7 := by rw [UInt8.toNat_shiftRight, Nat.shiftRight_eq_div_pow]; rfl
  rw [← UInt8.toNat_inj, ← UInt8.toNat_inj, htop]
  change _ = 0 ∨ _ = 1
  omega

theorem double_xor (a b : UInt8) : double (a ^^^ b) = double a ^^^ double b := by
  have hcarry : (if (a ^^^ b) >>> 7 = 1 then (0x1B : UInt8) else 0) =
      (if a >>> 7 = 1 then 0x1B else 0) ^^^ (if b >>> 7 = 1 then 0x1B else 0) := by
    rw [UInt8.shiftRight_xor]
    rcases top_bit a with ha | ha
    · rcases top_bit b with hb | hb
      · rw [ha, hb]
        decide
      · rw [ha, hb]
        decide
    · rcases top_bit b with hb | hb
      · rw [ha, hb]
        decide
      · rw [ha, hb]
        decide
  rw [double, double, double, hcarry, UInt8.shiftLeft_xor]
  ac_rfl

theorem times_xor (k : Nat) (a b : UInt8) : times k (a ^^^ b) = times k a ^^^ times k b := by
  have hpart (p : Bool) (x y : UInt8) : (if p then x ^^^ y else 0) = (if p then x else 0) ^^^ (if p then y else 0) := by
    cases p with
    | false => exact (UInt8.xor_self).symm
    | true => rfl
  rw [times, times, times, double_xor, double_xor, double_xor, hpart, hpart, hpart, hpart]
  ac_rfl

theorem times_zero (k : Nat) : times k 0 = 0 := by
  have hdouble : double 0 = 0 := rfl
  rw [times, hdouble, hdouble, hdouble, ite_self, ite_self, ite_self, ite_self]
  rfl

theorem powFrom_length (n x : Nat) : (powFrom n x).length = n := by
  induction n generalizing x with
  | zero => rfl
  | succ n ih => rw [powFrom, List.length_cons, ih]

theorem powTable_length : powTable.1.length = 256 := by rw [← powTable.2, pow, powFrom_length]

theorem pow_log_at {x : Nat} (hx : x ≠ 0) (hlt : x < 256) :
    powTable.1.getD (logTable.1.getD x 0 % 255) 0 = x := by
  have hplace : (List.range' 1 255)[x - 1]? = some x := by
    rw [List.getElem?_range' (by omega)]
    congr 1
    omega
  have hvalue : (((List.range' 1 255).map
      (fun x => powTable.1.getD (logTable.1.getD x 0 % 255) 0))[x - 1]?) = some x := by
    rw [logTable.2.2, hplace]
  rw [List.getElem?_map, hplace] at hvalue
  exact Option.some.inj hvalue

theorem mul_of_rotate {k : Nat} (hk : k ≠ 0)
    (h : (powTable.1.take 255).map (fun x => (times k (UInt8.ofNat x)).toNat) =
      (powTable.1.take 255).rotate (logTable.1.getD k 0)) (b : UInt8) :
    mul k b.toNat = (times k b).toNat := by
  by_cases hb : b.toNat = 0
  · rw [mul, if_neg (fun h => h.2 hb), show b = 0 from UInt8.toNat_inj.mp hb, times_zero]
    rfl
  · have hplace := pow_log_at hb b.toNat_lt
    rw [mul, if_pos ⟨hk, hb⟩, powTable.2, logTable.2.1]
    generalize logTable.1.getD k 0 = n at h ⊢
    generalize logTable.1.getD b.toNat 0 = i at hplace ⊢
    have hi : i % 255 < 255 := Nat.mod_lt _ (by decide)
    have hsize := powTable_length
    have hlen : (powTable.1.take 255).length = 255 := by rw [List.length_take, hsize]; rfl
    have hbyte : powTable.1[i % 255]? = some b.toNat := by
      rw [← hplace, List.getD_eq_getElem _ _ (by omega)]
      exact List.getElem?_eq_getElem _
    have hnext : (powTable.1.take 255)[(i % 255 + n) % 255]? = some (times k b).toNat := by
      have hrotate := @List.getElem?_rotate _ (powTable.1.take 255) n (i % 255) (by rwa [hlen])
      rw [hlen] at hrotate
      rw [← hrotate, ← h, List.getElem?_map, List.getElem?_take, if_pos hi, hbyte, Option.map_some, UInt8.ofNat_toNat]
    rw [List.getElem?_take, if_pos (Nat.mod_lt _ (by decide))] at hnext
    rw [show (n + i) % 255 = (i % 255 + n) % 255 by omega, List.getD_eq_getElem?_getD, hnext]
    rfl

theorem times_rotated : ∀ k ∈ [0x0E, 0x09, 0x0D, 0x0B],
    (powTable.1.take 255).map (fun x => (times k (UInt8.ofNat x)).toNat) =
      (powTable.1.take 255).rotate (logTable.1.getD k 0) := by
  decide +kernel

theorem mul_times (b : UInt8) {k : Nat} (hk : k ∈ [0x0E, 0x09, 0x0D, 0x0B]) : mul k b.toNat = (times k b).toNat := by
  refine mul_of_rotate ?_ (times_rotated k hk) b
  rintro rfl
  exact absurd hk (by decide)

end Field

section Lookup

def subByte (b : UInt8) : UInt8 := fsb.getD b.toNat 0

def invSubByte (b : UInt8) : UInt8 := rsb.getD b.toNat 0

def spread (k0 k1 k2 k3 : Nat) (b : UInt8) : UInt32 := word (times k0 b) (times k1 b) (times k2 b) (times k3 b)

theorem fsb_length : fsb.length = 256 := by
  rw [fsb, List.length_cons, List.length_map, List.length_range']

theorem placesOf_length (table : List Nat) : (placesOf table).length = 256 := by
  have hset : ∀ (ps : List (Nat × Nat)) (places : List Nat),
      (ps.foldl (fun places p => places.set p.1 p.2) places).length = places.length := by
    intro ps
    induction ps with
    | nil => exact fun places => rfl
    | cons p ps ih => exact fun places => by rw [List.foldl_cons, ih, List.length_set]
  rw [placesOf, hset, List.length_replicate]

theorem rsb_length : rsb.length = 256 := by rw [rsb, List.length_map, placesOf_length]

theorem invSubByte_subByte (b : UInt8) : invSubByte (subByte b) = b := by
  have hlt := b.toNat_lt
  have hlen : romFsb.length = 256 := by rw [← fsb_eq, fsb_length]
  have hvalue : (romFsb.map (fun b => romRsb.getD b.toNat 0))[b.toNat]? = some b := by
    rw [romRsb_eq.2, List.getElem?_map, List.getElem?_range hlt, Option.map_some, UInt8.ofNat_toNat]
  rw [List.getElem?_map, List.getElem?_eq_getElem (by omega), Option.map_some, Option.some.injEq] at hvalue
  rw [subByte, invSubByte, fsb_eq, rsb_eq, List.getD_eq_getElem romFsb _ (by omega), hvalue]

theorem getD_map_lt {α β : Type} {f : α → β} {l : List α} {i : Nat} (h : i < l.length) (a : α) (b : β) :
    (l.map f).getD i b = f (l.getD i a) := by
  rw [List.getD_eq_getElem _ _ (by rwa [List.length_map]), List.getElem_map, List.getD_eq_getElem _ _ h]

theorem xtime_eq (b : UInt8) : UInt32.ofNat (xtime b.toNat &&& 0xFF) = (times 2 b).toUInt32 ∧
    UInt32.ofNat (((xtime b.toNat &&& 0xFF) ^^^ b.toNat) &&& 0xFF) = (times 3 b).toUInt32 := by
  revert b
  exact forall_byte (by decide +kernel)

theorem ofNat_toNat (b : UInt8) : UInt32.ofNat b.toNat = b.toUInt32 := by
  have hb := b.toNat_lt
  rw [← UInt32.toNat_inj, UInt32.toNat_ofNat', UInt8.toNat_toUInt32, Nat.mod_eq_of_lt (by omega)]

theorem times_one (b : UInt8) : times 1 b = b := by
  change b ^^^ 0 ^^^ 0 ^^^ 0 = b
  rw [UInt8.xor_zero, UInt8.xor_zero, UInt8.xor_zero]

theorem ft0_at (b : UInt8) : ft0.getD b.toNat 0 = spread 2 1 1 3 (subByte b) := by
  rw [ft0, getD_map_lt (by rw [fsb_length]; exact b.toNat_lt) 0, ← subByte]
  dsimp only
  rw [(xtime_eq _).1, (xtime_eq _).2, ofNat_toNat, ← word_eq_xor, spread, times_one]

theorem rt0_at (b : UInt8) : rt0.getD b.toNat 0 = spread 0x0E 0x09 0x0D 0x0B (invSubByte b) := by
  rw [rt0, getD_map_lt (by rw [rsb_length]; exact b.toNat_lt) 0, ← invSubByte]
  dsimp only
  rw [mul_times _ (by decide), mul_times _ (by decide), mul_times _ (by decide), mul_times _ (by decide), ofNat_toNat,
    ofNat_toNat, ofNat_toNat, ofNat_toNat, ← word_eq_xor, spread]

theorem rotl8_toNat (x : UInt32) : (rotl8 x).toNat = x.toNat % 2 ^ 24 * 2 ^ 8 + x.toNat / 2 ^ 24 := by
  have hx := x.toNat_lt
  have hmask : (x <<< 8 &&& (0xFFFFFFFF : UInt32)).toNat = (x.toNat % 2 ^ 24) <<< 8 := by
    rw [UInt32.toNat_and, UInt32.toNat_shiftLeft, show ((0xFFFFFFFF : UInt32).toNat = 2 ^ 32 - 1) from rfl,
      Nat.and_two_pow_sub_one_eq_mod, Nat.mod_mod, show ((8 : UInt32).toNat % 32 = 8) from rfl, Nat.shiftLeft_eq,
      Nat.shiftLeft_eq]
    omega
  rw [rotl8, UInt32.toNat_or, hmask, UInt32.toNat_shiftRight, show ((24 : UInt32).toNat % 32 = 24) from rfl,
    Nat.shiftRight_eq_div_pow, ← Nat.shiftLeft_add_eq_or_of_lt (by omega), Nat.shiftLeft_eq]

theorem rotl8_word (b0 b1 b2 b3 : UInt8) : rotl8 (word b0 b1 b2 b3) = word b3 b0 b1 b2 := by
  have h0 := b0.toNat_lt
  have h1 := b1.toNat_lt
  have h2 := b2.toNat_lt
  rw [← UInt32.toNat_inj, rotl8_toNat, word_toNat, word_toNat]
  omega

theorem rotated_at {table : List UInt32} {b s : UInt8} (hlen : table.length = 256) {k0 k1 k2 k3 : Nat}
    (h : table.getD b.toNat 0 = spread k0 k1 k2 k3 s) : (table.map rotl8).getD b.toNat 0 = spread k3 k0 k1 k2 s := by
  rw [getD_map_lt (by rw [hlen]; exact b.toNat_lt) 0, h, spread, rotl8_word, spread]

theorem ft_at (b : UInt8) :
    ft0.getD b.toNat 0 = spread 2 1 1 3 (subByte b) ∧ ft1.getD b.toNat 0 = spread 3 2 1 1 (subByte b) ∧
      ft2.getD b.toNat 0 = spread 1 3 2 1 (subByte b) ∧ ft3.getD b.toNat 0 = spread 1 1 3 2 (subByte b) := by
  have h0 : ft0.length = 256 := by rw [ft0, List.length_map, fsb_length]
  have h1 : ft1.length = 256 := by rw [ft1, List.length_map, h0]
  have h2 : ft2.length = 256 := by rw [ft2, List.length_map, h1]
  have hft1 := rotated_at h0 (ft0_at b)
  have hft2 := rotated_at h1 hft1
  exact ⟨ft0_at b, hft1, hft2, rotated_at h2 hft2⟩

theorem rt_at (b : UInt8) :
    rt0.getD b.toNat 0 = spread 0x0E 0x09 0x0D 0x0B (invSubByte b) ∧
      rt1.getD b.toNat 0 = spread 0x0B 0x0E 0x09 0x0D (invSubByte b) ∧
      rt2.getD b.toNat 0 = spread 0x0D 0x0B 0x0E 0x09 (invSubByte b) ∧
      rt3.getD b.toNat 0 = spread 0x09 0x0D 0x0B 0x0E (invSubByte b) := by
  have h0 : rt0.length = 256 := by rw [rt0, List.length_map, rsb_length]
  have h1 : rt1.length = 256 := by rw [rt1, List.length_map, h0]
  have h2 : rt2.length = 256 := by rw [rt2, List.length_map, h1]
  have hrt1 := rotated_at h0 (rt0_at b)
  have hrt2 := rotated_at h1 hrt1
  exact ⟨rt0_at b, hrt1, hrt2, rotated_at h2 hrt2⟩

end Lookup

end OneSdk.Aes
