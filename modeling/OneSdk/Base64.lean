import Mathlib.Tactic.IntervalCases
import OneSdk.CString

namespace OneSdk.Base64

open CString

def base64SentinelValue : UInt8 := 0xff

def base64EncodingTable : Bytes := ascii "ABCDEFGHIJKLMNOPQRSTUVWXYZabcdefghijklmnopqrstuvwxyz0123456789+/".toList

/-- The table of the source, where `0xDD` stands for a byte that is no digit. -/
def base64DecodingTable : Bytes :=
  [64,   0xDD, 0xDD, 0xDD, 0xDD, 0xDD, 0xDD, 0xDD, 0xDD, 0xDD, 0xDD, 0xDD, 0xDD, 0xDD, 0xDD, 0xDD,
   0xDD, 0xDD, 0xDD, 0xDD, 0xDD, 0xDD, 0xDD, 0xDD, 0xDD, 0xDD, 0xDD, 0xDD, 0xDD, 0xDD, 0xDD, 0xDD,
   0xDD, 0xDD, 0xDD, 0xDD, 0xDD, 0xDD, 0xDD, 0xDD, 0xDD, 0xDD, 0xDD, 62,   0xDD, 0xDD, 0xDD, 63,
   52,   53,   54,   55,   56,   57,   58,   59,   60,   61,   0xDD, 0xDD, 0xDD, 255,  0xDD, 0xDD,
   0xDD, 0,    1,    2,    3,    4,    5,    6,    7,    8,    9,    10,   11,   12,   13,   14,
   15,   16,   17,   18,   19,   20,   21,   22,   23,   24,   25,   0xDD, 0xDD, 0xDD, 0xDD, 0xDD,
   0xDD, 26,   27,   28,   29,   30,   31,   32,   33,   34,   35,   36,   37,   38,   39,   40,
   41,   42,   43,   44,   45,   46,   47,   48,   49,   50,   51] ++ List.replicate 133 0xDD

def base64GetDecodedValue (toDecode : UInt8) (allowSentinel : Bool) : Option UInt8 :=
  let decodeValue := base64DecodingTable.getD toDecode.toNat 0xDD
  if decodeValue ≠ 0xDD ∧ (decodeValue ≠ base64SentinelValue ∨ allowSentinel = true) then some decodeValue else none

def padding (toDecode : Bytes) : Nat :=
  match toDecode.reverse with
  | 61 :: 61 :: _ => 2
  | 61 :: _ => 1
  | _ => 0

def awsBase64ComputeDecodedLen (toDecode : Bytes) : Option Nat :=
  if toDecode.length = 0 then some 0
  else if toDecode.length % 4 ≠ 0 then none
  else some (toDecode.length * 3 / 4 - padding toDecode)

def firstByte (value1 value2 : UInt8) : UInt8 := (value1 <<< 2) ||| ((value2 >>> 4) &&& 0x03)

def secondByte (value2 value3 : UInt8) : UInt8 := ((value2 <<< 4) &&& (0xF0 : UInt8)) ||| ((value3 >>> 2) &&& 0x0F)

def thirdByte (value3 value4 : UInt8) : UInt8 := ((value3 &&& 0x03) <<< 6) ||| value4

/-- What is written for the last four characters, the only ones that may hold padding. -/
def lastBytes (value1 value2 value3 value4 : UInt8) : Bytes :=
  firstByte value1 value2 ::
    if value3 = base64SentinelValue then []
    else
      secondByte value2 value3 :: if value4 = base64SentinelValue then [] else [thirdByte value3 value4]

def decodeBlocks : Bytes → Option Bytes
  | [a, b, c, d] => do
      let value1 ← base64GetDecodedValue a false
      let value2 ← base64GetDecodedValue b false
      let value3 ← base64GetDecodedValue c true
      let value4 ← base64GetDecodedValue d true
      some (lastBytes value1 value2 value3 value4)
  | a :: b :: c :: d :: rest => do
      let value1 ← base64GetDecodedValue a false
      let value2 ← base64GetDecodedValue b false
      let value3 ← base64GetDecodedValue c false
      let value4 ← base64GetDecodedValue d false
      let written ← decodeBlocks rest
      some (firstByte value1 value2 :: secondByte value2 value3 :: thirdByte value3 value4 :: written)
  | _ => some []

/-- `aws_base64_decode` into a buffer of zeros. -/
def awsBase64Decode (toDecode : Bytes) : Option Bytes := do
  let decodedLength ← awsBase64ComputeDecodedLen toDecode
  let written ← decodeBlocks toDecode
  some ((written ++ List.replicate (decodedLength - written.length) 0).take decodedLength)

def block (a b c : UInt8) : UInt32 := (((a.toUInt32 <<< 8) ||| b.toUInt32) <<< 8) ||| c.toUInt32

def sixBits (block shift : UInt32) : UInt8 := ((block >>> shift) &&& 0x3F).toUInt8

def digit (block shift : UInt32) : UInt8 := base64EncodingTable.getD (sixBits block shift).toNat 0

def awsBase64Encode : Bytes → Bytes
  | a :: b :: c :: rest =>
      digit (block a b c) 18 :: digit (block a b c) 12 :: digit (block a b c) 6 :: digit (block a b c) 0 ::
        awsBase64Encode rest
  | [a, b] => [digit (block a b 0) 18, digit (block a b 0) 12, digit (block a b 0) 6, 61]
  | [a] => [digit (block a 0 0) 18, digit (block a 0 0) 12, 61, 61]
  | [] => []

example : awsBase64Decode (ascii "dGVzdA==".toList) = some (ascii "test".toList) := by decide

/-- Padding that does not end the text is accepted, and leaves the zeros of the buffer. -/
example : awsBase64Decode (ascii "dA=A".toList) = some [116, 0, 0] := by decide

theorem byte_ext {x y : UInt8} (h : ∀ (i : Nat) (hi : i < 8), x.toBitVec[i] = y.toBitVec[i]) : x = y := by
  apply UInt8.toBitVec_inj.mp
  exact BitVec.eq_of_getElem_eq h

theorem firstByte_block (a b c : UInt8) : firstByte (sixBits (block a b c) 18) (sixBits (block a b c) 12) = a := by
  apply byte_ext
  intro i hi
  simp only [firstByte, sixBits, block, UInt8.toBitVec_or, UInt8.toBitVec_and, UInt8.toBitVec_shiftLeft,
    UInt8.toBitVec_shiftRight, UInt32.toBitVec_toUInt8, UInt32.toBitVec_or, UInt32.toBitVec_and,
    UInt32.toBitVec_shiftLeft, UInt32.toBitVec_shiftRight, UInt8.toBitVec_toUInt32]
  interval_cases i <;> simp

theorem secondByte_block (a b c : UInt8) : secondByte (sixBits (block a b c) 12) (sixBits (block a b c) 6) = b := by
  apply byte_ext
  intro i hi
  simp only [secondByte, sixBits, block, UInt8.toBitVec_or, UInt8.toBitVec_and, UInt8.toBitVec_shiftLeft,
    UInt8.toBitVec_shiftRight, UInt32.toBitVec_toUInt8, UInt32.toBitVec_or, UInt32.toBitVec_and,
    UInt32.toBitVec_shiftLeft, UInt32.toBitVec_shiftRight, UInt8.toBitVec_toUInt32]
  interval_cases i <;> simp

theorem thirdByte_block (a b c : UInt8) : thirdByte (sixBits (block a b c) 6) (sixBits (block a b c) 0) = c := by
  apply byte_ext
  intro i hi
  simp only [thirdByte, sixBits, block, UInt8.toBitVec_or, UInt8.toBitVec_and, UInt8.toBitVec_shiftLeft,
    UInt32.toBitVec_toUInt8, UInt32.toBitVec_or, UInt32.toBitVec_and, UInt32.toBitVec_shiftLeft,
    UInt32.toBitVec_shiftRight, UInt8.toBitVec_toUInt32]
  interval_cases i <;> simp

theorem sixBits_lt (block shift : UInt32) : (sixBits block shift).toNat < 64 := by
  have hle : (block >>> shift &&& 0x3F).toNat ≤ 63 := by
    rw [UInt32.toNat_and]
    exact Nat.and_le_right
  rw [sixBits, UInt32.toNat_toUInt8]
  omega

theorem sixBits_ne_sentinel (block shift : UInt32) : sixBits block shift ≠ base64SentinelValue := by
  intro h
  have hlt := sixBits_lt block shift
  rw [h] at hlt
  exact absurd hlt (by decide)

theorem tables_agree :
    ∀ (k : Fin 64) (allowSentinel : Bool), base64GetDecodedValue (base64EncodingTable.getD k 0) allowSentinel =
      some k.val.toUInt8 := by
  decide +kernel

theorem decoded_digit (block shift : UInt32) (allowSentinel : Bool) :
    base64GetDecodedValue (digit block shift) allowSentinel = some (sixBits block shift) := by
  have hvalue : (sixBits block shift).toNat.toUInt8 = sixBits block shift := UInt8.ofNat_toNat
  rw [digit, tables_agree ⟨_, sixBits_lt block shift⟩, hvalue]

theorem decoded_padding : base64GetDecodedValue 61 true = some base64SentinelValue := by decide

theorem digit_ne_padding (block shift : UInt32) : digit block shift ≠ 61 := by
  intro h
  have hnone : base64GetDecodedValue 61 false = none := by decide
  have hdigit := decoded_digit block shift false
  rw [h, hnone] at hdigit
  exact absurd hdigit (by simp)

theorem decodeBlocks_digits (a b c : UInt8) (rest : Bytes) :
    decodeBlocks (digit (block a b c) 18 :: digit (block a b c) 12 :: digit (block a b c) 6 ::
        digit (block a b c) 0 :: rest) =
      (decodeBlocks rest).map (fun written => a :: b :: c :: written) := by
  cases rest with
  | nil =>
      have hlast : lastBytes (sixBits (block a b c) 18) (sixBits (block a b c) 12) (sixBits (block a b c) 6)
          (sixBits (block a b c) 0) = [a, b, c] := by
        rw [lastBytes, if_neg (sixBits_ne_sentinel _ _), if_neg (sixBits_ne_sentinel _ _), firstByte_block,
          secondByte_block, thirdByte_block]
      simp only [decodeBlocks, decoded_digit, Option.bind_eq_bind, Option.bind_some, hlast, Option.map_some]
  | cons e rest =>
      simp only [decodeBlocks, decoded_digit, Option.bind_eq_bind, Option.bind_some, firstByte_block,
        secondByte_block, thirdByte_block]
      cases decodeBlocks (e :: rest) <;> rfl

theorem decodeBlocks_encode (bytes : Bytes) : decodeBlocks (awsBase64Encode bytes) = some bytes := by
  induction bytes using awsBase64Encode.induct with
  | case1 a b c rest ih => rw [awsBase64Encode, decodeBlocks_digits, ih, Option.map_some]
  | case2 a b =>
      have hlast : lastBytes (sixBits (block a b 0) 18) (sixBits (block a b 0) 12) (sixBits (block a b 0) 6)
          base64SentinelValue = [a, b] := by
        rw [lastBytes, if_neg (sixBits_ne_sentinel _ _), if_pos rfl, firstByte_block, secondByte_block]
      simp only [awsBase64Encode, decodeBlocks, decoded_digit, decoded_padding, Option.bind_eq_bind,
        Option.bind_some, hlast]
  | case3 a =>
      have hlast : lastBytes (sixBits (block a 0 0) 18) (sixBits (block a 0 0) 12) base64SentinelValue
          base64SentinelValue = [a] := by
        rw [lastBytes, if_pos rfl, firstByte_block]
      simp only [awsBase64Encode, decodeBlocks, decoded_digit, decoded_padding, Option.bind_eq_bind,
        Option.bind_some, hlast]
  | case4 => rfl

theorem padding_snoc (l : Bytes) (c d : UInt8) :
    padding (l ++ [c, d]) = if d = 61 then if c = 61 then 2 else 1 else 0 := by
  rw [padding, List.reverse_append]
  by_cases hd : d = 61
  · by_cases hc : c = 61
    · rw [if_pos hd, if_pos hc, hc, hd]
      rfl
    · rw [if_pos hd, if_neg hc, hd]
      change (match 61 :: c :: l.reverse with | 61 :: 61 :: _ => 2 | 61 :: _ => 1 | _ => 0) = 1
      split
      · next heq => exact absurd (List.cons.inj (List.cons.inj heq).2).1 hc
      · rfl
      · next heq => exact absurd rfl (heq _)
  · rw [if_neg hd]
    change (match d :: c :: l.reverse with | 61 :: 61 :: _ => 2 | 61 :: _ => 1 | _ => 0) = 0
    split
    · next heq => exact absurd (List.cons.inj heq).1 hd
    · next heq => exact absurd (List.cons.inj heq).1 hd
    · rfl

/-- Four characters for three bytes, and the padding counts the bytes that are missing. -/
theorem encode_shape (bytes : Bytes) (hne : bytes ≠ []) :
    ∃ (k : Nat) (front : Bytes) (c d : UInt8), awsBase64Encode bytes = front ++ [c, d] ∧ front.length + 2 = 4 * k ∧
      bytes.length + (if d = 61 then if c = 61 then 2 else 1 else 0) = 3 * k := by
  induction bytes using awsBase64Encode.induct with
  | case1 a b c rest ih =>
      by_cases hrest : rest = []
      · refine ⟨1, [digit (block a b c) 18, digit (block a b c) 12], digit (block a b c) 6,
          digit (block a b c) 0, ?_, rfl, ?_⟩
        · rw [hrest]
          rfl
        · rw [hrest, if_neg (digit_ne_padding _ _)]
          rfl
      · obtain ⟨k, front, e, f, hencode, hlen, hbytes⟩ := ih hrest
        refine ⟨k + 1, digit (block a b c) 18 :: digit (block a b c) 12 :: digit (block a b c) 6 ::
          digit (block a b c) 0 :: front, e, f, ?_, ?_, ?_⟩
        · rw [awsBase64Encode, hencode]
          rfl
        · simp only [List.length_cons]
          omega
        · simp only [List.length_cons]
          omega
  | case2 a b =>
      refine ⟨1, [digit (block a b 0) 18, digit (block a b 0) 12], digit (block a b 0) 6, 61, rfl, rfl, ?_⟩
      rw [if_pos rfl, if_neg (digit_ne_padding _ _)]
      rfl
  | case3 a => exact ⟨1, [digit (block a 0 0) 18, digit (block a 0 0) 12], 61, 61, rfl, rfl, rfl⟩
  | case4 => exact absurd rfl hne

theorem computeDecodedLen_encode (bytes : Bytes) :
    awsBase64ComputeDecodedLen (awsBase64Encode bytes) = some bytes.length := by
  by_cases hne : bytes = []
  · rw [hne]
    rfl
  · obtain ⟨k, front, c, d, hencode, hlen, hbytes⟩ := encode_shape bytes hne
    have htext : (front ++ [c, d]).length = 4 * k := by
      rw [List.length_append]
      exact hlen
    have hsome : (4 * k ≠ 0) ∧ ¬(4 * k % 4 ≠ 0) ∧ 4 * k * 3 / 4 = 3 * k := by omega
    rw [hencode, awsBase64ComputeDecodedLen, htext, if_neg hsome.1, if_neg hsome.2.1, hsome.2.2, padding_snoc, ← hbytes,
      Nat.add_sub_cancel]

theorem awsBase64Decode_encode (bytes : Bytes) : awsBase64Decode (awsBase64Encode bytes) = some bytes := by
  rw [awsBase64Decode, computeDecodedLen_encode, decodeBlocks_encode]
  simp only [Option.bind_eq_bind, Option.bind_some, Nat.sub_self, List.replicate_zero, List.append_nil,
    List.take_length]

theorem encode_nonzero (bytes : Bytes) : (0 : UInt8) ∉ awsBase64Encode bytes := by
  have hdigit (x s : UInt32) : (0 : UInt8) ≠ digit x s := by
    intro h
    have hzero : base64GetDecodedValue 0 false = some 64 := by decide
    have hdecoded := decoded_digit x s false
    have hlt := sixBits_lt x s
    rw [← h, hzero] at hdecoded
    rw [← Option.some.inj hdecoded] at hlt
    exact absurd hlt (by decide)
  induction bytes using awsBase64Encode.induct with
  | case1 a b c rest ih =>
      rw [awsBase64Encode]
      simp only [List.mem_cons, not_or]
      exact ⟨hdigit _ _, hdigit _ _, hdigit _ _, hdigit _ _, ih⟩
  | case2 a b =>
      rw [awsBase64Encode]
      simp only [List.mem_cons, not_or]
      exact ⟨hdigit _ _, hdigit _ _, hdigit _ _, by decide, List.not_mem_nil⟩
  | case3 a =>
      rw [awsBase64Encode]
      simp only [List.mem_cons, not_or]
      exact ⟨hdigit _ _, hdigit _ _, by decide, by decide, List.not_mem_nil⟩
  | case4 => exact List.not_mem_nil

end OneSdk.Base64
