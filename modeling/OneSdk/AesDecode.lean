import Mathlib.Logic.Equiv.Basic
import OneSdk.Base64
import OneSdk.BlockChaining
import OneSdk.DynReg

namespace OneSdk.AesDecode

open CString BlockChaining Base64 DynReg

abbrev Block := Vector UInt8 16

structure BlockCipher where
  encrypt : Bytes → Nat → Block → Block
  decrypt : Bytes → Nat → Block → Block
  decrypt_encrypt : ∀ key keyBits block, keyBits = 128 ∨ keyBits = 192 → key.length * 8 = keyBits →
    decrypt key keyBits (encrypt key keyBits block) = block

inductive Mode where
  | encrypt
  | decrypt
  deriving DecidableEq

def xorBlock (output iv : Block) : Block := Vector.zipWith (· ^^^ ·) output iv

def decryptLoop (ecb : Block → Block) : Nat → Block → Bytes → Bytes
  | 0, _, _ => []
  | turns + 1, iv, input =>
      (xorBlock (ecb (front 16 input)) iv).toList ++ decryptLoop ecb turns (front 16 input) (input.drop 16)

def encryptLoop (ecb : Block → Block) : Nat → Block → Bytes → Bytes
  | 0, _, _ => []
  | turns + 1, iv, input =>
      (ecb (xorBlock (front 16 input) iv)).toList ++
        encryptLoop ecb turns (ecb (xorBlock (front 16 input) iv)) (input.drop 16)

section Cipher

variable (cipher : BlockCipher)

def utilsAesCryptCbc (mode : Mode) (key : Bytes) (keyBits length : Nat) (iv : Block) (input : Bytes) : Option Bytes :=
  if length % 16 ≠ 0 then none
  else
    match mode with
    | .decrypt => some (decryptLoop (cipher.decrypt key keyBits) (length / 16) iv input)
    | .encrypt => some (encryptLoop (cipher.encrypt key keyBits) (length / 16) iv input)

/-- Lengths are `uint32_t`. The room in the output is looked at only where something is
enciphered, which is where the zeros are appended. -/
def utilsAesCbc (mode : Mode) (key : Bytes) (keyBits : Nat) (iv : Block) (inData : Bytes) (outBuffLen : Nat) :
    Option Bytes :=
  let datalen := inData.length % 2 ^ 32
  match mode with
  | .encrypt =>
      if outBuffLen < (datalen + 16) % 2 ^ 32 then none
      else
        let padlen := 16 - datalen % 16
        utilsAesCryptCbc cipher mode key keyBits ((datalen + padlen) % 2 ^ 32) iv
          (inData.take datalen ++ List.replicate padlen 0)
  | .decrypt => utilsAesCryptCbc cipher mode key keyBits datalen iv inData

/-- What `aes_decode` calls. Its Base64 errors are not looked at: no bytes are left then. -/
def crypto : Crypto where
  base64Decode := fun text => (awsBase64Decode text).getD []
  utilsAesCbc := fun key keyBits iv data => utilsAesCbc cipher .decrypt key keyBits (front 16 iv) data decodeBuffLen

end Cipher

section Chain

variable {ecb : Block → Block}

theorem decryptLoop_eq (turns : Nat) (iv : Block) (input : Bytes) :
    decryptLoop ecb turns iv input = join (decrypt xorBlock ecb iv (split 16 turns input)) := by
  induction turns generalizing iv input with
  | zero => rfl
  | succ turns ih =>
      rw [decryptLoop, ih, split, decrypt]
      rfl

theorem encryptLoop_eq (turns : Nat) (iv : Block) (input : Bytes) :
    encryptLoop ecb turns iv input = join (encrypt xorBlock ecb iv (split 16 turns input)) := by
  induction turns generalizing iv input with
  | zero => rfl
  | succ turns ih =>
      rw [encryptLoop, ih, split, encrypt]
      rfl

theorem decryptLoop_length (turns : Nat) (iv : Block) (input : Bytes) :
    (decryptLoop ecb turns iv input).length = 16 * turns := by
  rw [decryptLoop_eq, join_length, decrypt_length, split_length]

theorem encryptLoop_length (turns : Nat) (iv : Block) (input : Bytes) :
    (encryptLoop ecb turns iv input).length = 16 * turns := by
  rw [encryptLoop_eq, join_length, encrypt_length, split_length]

theorem xorBlock_xorBlock (output iv : Block) : xorBlock (xorBlock output iv) iv = output := by
  apply Vector.ext
  intro i hi
  rw [xorBlock, xorBlock, Vector.getElem_zipWith, Vector.getElem_zipWith, UInt8.xor_assoc, UInt8.xor_self,
    UInt8.xor_zero]

theorem decryptLoop_encryptLoop {ecbInverse : Block → Block} (hecb : ∀ block, ecbInverse (ecb block) = block)
    {turns : Nat} {input : Bytes} (hlen : input.length = 16 * turns) (iv : Block) :
    decryptLoop ecbInverse turns iv (encryptLoop ecb turns iv input) = input := by
  have hturns : (encrypt xorBlock ecb iv (split 16 turns input)).length = turns := by rw [encrypt_length, split_length]
  have hsplit : split 16 turns (encryptLoop ecb turns iv input) = encrypt xorBlock ecb iv (split 16 turns input) := by
    have h := split_join (encrypt xorBlock ecb iv (split 16 turns input))
    rw [hturns] at h
    rw [encryptLoop_eq, h]
  rw [decryptLoop_eq, hsplit, decrypt_encrypt xorBlock_xorBlock hecb, join_split hlen]

end Chain

section Padding

/-- The two paddings a server may use: zeros, or some bytes that all say how many they are. -/
def Padded (plain padded : Bytes) : Prop :=
  padded.length % 16 = 0 ∧
    ((∃ k, padded = plain ++ List.replicate k 0) ∨
      ∃ k, 1 ≤ k ∧ k ≤ 16 ∧ padded = plain ++ List.replicate k (UInt8.ofNat k))

theorem urlTrim_plain {b : UInt8} (h : 33 ≤ b) : urlTrim b = false := by
  have hnat : 33 ≤ b.toNat := UInt8.le_iff_toNat_le.mp h
  have hlow : ¬b < 32 := fun hlt => absurd (UInt8.lt_iff_toNat_lt.mp hlt) (by change ¬b.toNat < 32; omega)
  have hlist : ∀ c ∈ ([32, 9, 10, 11, 12, 13, 7] : List UInt8), c.toNat ≤ 32 := by simp
  have hne : ([32, 9, 10, 11, 12, 13, 7] : List UInt8).contains b = false := by
    rw [List.contains_eq_mem, decide_eq_false_iff_not]
    intro hmem
    have hle := hlist b hmem
    omega
  rw [urlTrim, hne, decide_eq_false hlow]
  rfl

theorem toNat_low {k : Nat} (h : k ≤ 16) : (UInt8.ofNat k).toNat = k :=
  UInt8.toNat_ofNat_of_lt' (h.trans_lt (by decide))

theorem urlTrim_low {k : Nat} (h : k ≤ 16) : urlTrim (UInt8.ofNat k) = true := by
  have hlow : UInt8.ofNat k < 32 := by
    apply UInt8.lt_iff_toNat_lt.mpr
    rw [toNat_low h]
    change k < 32
    omega
  rw [urlTrim, decide_eq_true hlow, Bool.true_or]

theorem rdropWhile_replicate {p : UInt8 → Bool} {b : UInt8} (hb : p b = true) (l : Bytes) (k : Nat) :
    (l ++ List.replicate k b).rdropWhile p = l.rdropWhile p := by
  induction k with
  | zero => rw [List.replicate_zero, List.append_nil]
  | succ k ih => rw [List.replicate_succ', ← List.append_assoc, List.rdropWhile_concat_pos p _ b hb, ih]

theorem rdropWhile_plain {plain : Bytes} (hplain : ∀ b ∈ plain, 33 ≤ b) : plain.rdropWhile urlTrim = plain := by
  apply List.rdropWhile_eq_self_iff.mpr
  intro hne
  rw [urlTrim_plain (hplain _ (List.getLast_mem hne))]
  exact Bool.false_ne_true

theorem trimmed_padded {plain padded : Bytes} (hplain : ∀ b ∈ plain, 33 ≤ b) (hpadded : Padded plain padded)
    (r : Bytes) :
    (cstr (padded ++ 0 :: r)).rdropWhile urlTrim = plain := by
  have hzero : (0 : UInt8) ∉ plain := fun h => absurd (hplain 0 h) (by decide)
  obtain ⟨-, ⟨k, rfl⟩ | ⟨k, hk, hk16, rfl⟩⟩ := hpadded
  · have hcstr : cstr (plain ++ List.replicate k 0 ++ 0 :: r) = plain := by
      rw [cstr_terminated]
      cases k with
      | zero => rw [List.replicate_zero, List.append_nil, cstr_eq_self.mpr hzero]
      | succ k => rw [List.replicate_succ, cstr_terminated, cstr_eq_self.mpr hzero]
    rw [hcstr, rdropWhile_plain hplain]
  · have hne : (0 : UInt8) ∉ plain ++ List.replicate k (UInt8.ofNat k) := by
      rw [List.mem_append, List.mem_replicate]
      rintro (h | ⟨-, h⟩)
      · exact hzero h
      · have hnat := congrArg UInt8.toNat h
        rw [toNat_low hk16] at hnat
        change 0 = k at hnat
        omega
    rw [cstr_terminated, cstr_eq_self.mpr hne, rdropWhile_replicate (urlTrim_low hk16), rdropWhile_plain hplain]

theorem trimmed_string {buff : Bytes} {n : Nat} (hlen : buff.length ≤ n) (hzero : (0 : UInt8) ∈ buff) :
    ((cstr buff).rdropWhile urlTrim).length < n ∧ (0 : UInt8) ∉ (cstr buff).rdropWhile urlTrim := by
  have hcstr : cstr buff <+: buff := List.takeWhile_prefix _
  have hshort : (cstr buff).length < buff.length := by
    apply lt_of_le_of_ne hcstr.length_le
    intro heq
    exact cstr_eq_self.mp (hcstr.eq_of_length heq) hzero
  have htrim : (cstr buff).rdropWhile urlTrim <+: cstr buff := List.rdropWhile_prefix _ _
  exact ⟨htrim.length_le.trans_lt (hshort.trans_le hlen), fun hmem => zero_notMem_cstr buff (htrim.subset hmem)⟩

end Padding

section Decode

variable (cipher : BlockCipher)

theorem keyLength_bounds (truncated : Bool) : 16 ≤ keyLength truncated := by cases truncated <;> decide

theorem utilsAesCbc_multiple (key : Bytes) (keyBits : Nat) (iv : Block) {data : Bytes} (outBuffLen : Nat)
    (h : data.length % 16 = 0) : ∃ output, utilsAesCbc cipher .decrypt key keyBits iv data outBuffLen = some output ∧
      output.length = data.length % 2 ^ 32 := by
  have hblocks : ¬data.length % 2 ^ 32 % 16 ≠ 0 ∧ 16 * (data.length % 2 ^ 32 / 16) = data.length % 2 ^ 32 := by omega
  refine ⟨decryptLoop (cipher.decrypt key keyBits) (data.length % 2 ^ 32 / 16) iv data, ?_, ?_⟩
  · rw [utilsAesCbc, utilsAesCryptCbc, if_neg hblocks.1]
  · rw [decryptLoop_length, hblocks.2]

theorem utilsAesCbc_ragged (key : Bytes) (keyBits : Nat) (iv : Block) {data : Bytes} (outBuffLen : Nat)
    (h : data.length % 16 ≠ 0) : utilsAesCbc cipher .decrypt key keyBits iv data outBuffLen = none := by
  have hragged : data.length % 2 ^ 32 % 16 ≠ 0 := by omega
  rw [utilsAesCbc, utilsAesCryptCbc, if_pos hragged]

def deciphered (secret encryptData : Bytes) (truncated : Bool) : Option Bytes :=
  utilsAesCbc cipher .decrypt ((secret ++ [0]).take (keyLength truncated)) (keyLength truncated * 8)
    (front 16 ((secret ++ [0]).take 16)) ((awsBase64Decode (cstr encryptData)).getD []) decodeBuffLen

variable {cipher} {secret encryptData output : Bytes} {truncated : Bool}

theorem deciphered_multiple {data : Bytes} (hdata : (awsBase64Decode (cstr encryptData)).getD [] = data)
    (h16 : data.length % 16 = 0) :
    ∃ output, deciphered cipher secret encryptData truncated = some output ∧ output.length = data.length % 2 ^ 32 := by
  rw [deciphered, hdata]
  exact utilsAesCbc_multiple cipher _ _ _ _ h16

theorem deciphered_ragged {data : Bytes} (hdata : (awsBase64Decode (cstr encryptData)).getD [] = data)
    (h16 : data.length % 16 ≠ 0) : deciphered cipher secret encryptData truncated = none := by
  rw [deciphered, hdata]
  exact utilsAesCbc_ragged cipher _ _ _ _ h16

theorem secret_short_iff : (secret ++ [0]).length < keyLength truncated ↔ ¬keyLength truncated ≤ secret.length + 1 := by
  rw [List.length_append, List.length_singleton, not_le]

theorem aesDecode_short (hshort : ¬keyLength truncated ≤ secret.length + 1) :
    aesDecode (crypto cipher) (some secret) encryptData truncated = none := by
  rw [aesDecode]
  dsimp only
  rw [if_pos (secret_short_iff.mpr hshort)]

theorem aesDecode_long (hlong : keyLength truncated ≤ secret.length + 1) :
    aesDecode (crypto cipher) (some secret) encryptData truncated =
      match deciphered cipher secret encryptData truncated with
      | none => some none
      | some output =>
          if (output ++ List.replicate (decodeBuffLen - output.length) 0).length ≤ decodeBuffLen ∧
              (0 : UInt8) ∈ output ++ List.replicate (decodeBuffLen - output.length) 0 then
            some (some ((cstr (output ++ List.replicate (decodeBuffLen - output.length) 0)).rdropWhile urlTrim))
          else none := by
  rw [aesDecode]
  dsimp only
  rw [if_neg (fun h => secret_short_iff.mp h hlong)]
  rfl

theorem aesDecode_string {text : Bytes}
    (h : aesDecode (crypto cipher) (some secret) encryptData truncated = some (some text)) :
    text.length < decodeBuffLen ∧ (0 : UInt8) ∉ text := by
  have hlong : keyLength truncated ≤ secret.length + 1 := by
    by_contra hshort
    rw [aesDecode_short hshort] at h
    exact absurd h.symm (Option.some_ne_none _)
  rw [aesDecode_long hlong] at h
  split at h
  · exact absurd (Option.some.inj h).symm (Option.some_ne_none _)
  · split at h
    · next hfits =>
        rw [← Option.some.inj (Option.some.inj h)]
        exact trimmed_string hfits.1 hfits.2
    · exact absurd h.symm (Option.some_ne_none _)

theorem aesDecode_room (hlong : keyLength truncated ≤ secret.length + 1)
    (houtput : deciphered cipher secret encryptData truncated = some output) (hroom : output.length < decodeBuffLen) :
    ∃ rest, aesDecode (crypto cipher) (some secret) encryptData truncated =
      some (some ((cstr (output ++ 0 :: rest)).rdropWhile urlTrim)) := by
  obtain ⟨k, hk⟩ : ∃ k, decodeBuffLen - output.length = k + 1 := ⟨decodeBuffLen - output.length - 1, by omega⟩
  have hfits : (output ++ List.replicate (decodeBuffLen - output.length) 0).length ≤ decodeBuffLen ∧
      (0 : UInt8) ∈ output ++ List.replicate (decodeBuffLen - output.length) 0 := by
    rw [List.length_append, List.length_replicate, hk, List.replicate_succ]
    exact ⟨by omega, List.mem_append_right _ List.mem_cons_self⟩
  refine ⟨List.replicate k 0, ?_⟩
  rw [aesDecode_long hlong, houtput]
  dsimp only
  rw [if_pos hfits, hk, List.replicate_succ]

theorem aesDecode_ne_null (houtput : deciphered cipher secret encryptData truncated = some output) :
    aesDecode (crypto cipher) (some secret) encryptData truncated ≠ some none := by
  by_cases hlong : keyLength truncated ≤ secret.length + 1
  · rw [aesDecode_long hlong, houtput]
    dsimp only
    split
    · exact fun h => Option.some_ne_none _ (Option.some.inj h)
    · exact fun h => Option.some_ne_none _ h.symm
  · rw [aesDecode_short hlong]
    exact fun h => Option.some_ne_none _ h.symm

theorem aesDecode_overflow (houtput : deciphered cipher secret encryptData truncated = some output)
    (hlong : decodeBuffLen < output.length) : aesDecode (crypto cipher) (some secret) encryptData truncated = none := by
  by_cases hsecret : keyLength truncated ≤ secret.length + 1
  · rw [aesDecode_long hsecret, houtput]
    dsimp only
    rw [if_neg]
    rw [List.length_append]
    omega
  · exact aesDecode_short hsecret

variable (cipher)

theorem utilsAesCbc_pads {key inData : Bytes} {keyBits outBuffLen : Nat} {iv : Block}
    (hroom : inData.length + 16 ≤ outBuffLen) (hlen : outBuffLen < 2 ^ 32) :
    ∃ padded, Padded inData padded ∧ padded.length ≤ inData.length + 16 ∧
      utilsAesCbc cipher .encrypt key keyBits iv inData outBuffLen =
        utilsAesCryptCbc cipher .encrypt key keyBits padded.length iv padded := by
  have hdatalen : inData.length % 2 ^ 32 = inData.length := Nat.mod_eq_of_lt (by omega)
  have hsum : (inData.length + (16 - inData.length % 16)) % 2 ^ 32 = inData.length + (16 - inData.length % 16) :=
    Nat.mod_eq_of_lt (by omega)
  have hpadded : (inData ++ List.replicate (16 - inData.length % 16) 0).length =
      inData.length + (16 - inData.length % 16) := by rw [List.length_append, List.length_replicate]
  have hfits : ¬outBuffLen < (inData.length + 16) % 2 ^ 32 := by omega
  refine ⟨inData ++ List.replicate (16 - inData.length % 16) 0, ⟨?_, Or.inl ⟨_, rfl⟩⟩, ?_, ?_⟩
  · rw [hpadded]
    omega
  · rw [hpadded]
    omega
  · rw [utilsAesCbc]
    dsimp only
    rw [hdatalen, if_neg hfits, hsum, List.take_length, hpadded]

/-- Whatever the padding, the key size and the number of blocks, the plaintext comes back. -/
theorem aesDecode_round_trip {plain padded : Bytes} (hsecret : keyLength truncated ≤ secret.length)
    (hplain : ∀ b ∈ plain, 33 ≤ b) (hpadded : Padded plain padded) (hfits : padded.length ≤ 496) :
    ∃ encrypted, utilsAesCryptCbc cipher .encrypt (secret.take (keyLength truncated)) (keyLength truncated * 8)
        padded.length (front 16 secret) padded = some encrypted ∧
      aesDecode (crypto cipher) (some secret) (awsBase64Encode encrypted) truncated = some (some plain) := by
  have hkey : (secret ++ [0]).take (keyLength truncated) = secret.take (keyLength truncated) :=
    List.take_append_of_le_length hsecret
  have hiv : front 16 ((secret ++ [0]).take 16) = front 16 secret := by
    have h16 : 16 ≤ secret.length := (keyLength_bounds truncated).trans hsecret
    rw [List.take_append_of_le_length h16, front_take h16]
  have hbits : keyLength truncated * 8 = 128 ∨ keyLength truncated * 8 = 192 := by cases truncated <;> decide
  have hkeyBits : (secret.take (keyLength truncated)).length * 8 = keyLength truncated * 8 := by
    rw [List.length_take, Nat.min_eq_left hsecret]
  have hturns : padded.length = 16 * (padded.length / 16) := by
    have h := hpadded.1
    omega
  obtain ⟨encrypted, hencrypted⟩ : ∃ encrypted, encrypted = encryptLoop
      (cipher.encrypt (secret.take (keyLength truncated)) (keyLength truncated * 8)) (padded.length / 16)
        (front 16 secret) padded :=
    ⟨_, rfl⟩
  have hlen : encrypted.length = padded.length := by rw [hencrypted, encryptLoop_length, ← hturns]
  have hdecoded : awsBase64Decode (cstr (awsBase64Encode encrypted)) = some encrypted := by
    rw [cstr_eq_self.mpr (encode_nonzero encrypted), awsBase64Decode_encode]
  have hshort : encrypted.length % 2 ^ 32 = padded.length := by
    rw [hlen]
    exact Nat.mod_eq_of_lt (by omega)
  have houtput : deciphered cipher secret (awsBase64Encode encrypted) truncated = some padded := by
    rw [deciphered, hdecoded, hkey, hiv, Option.getD_some, utilsAesCbc, hshort, utilsAesCryptCbc,
      if_neg (not_not.mpr hpadded.1), hencrypted,
      decryptLoop_encryptLoop (fun block => cipher.decrypt_encrypt _ _ block hbits hkeyBits) hturns]
  refine ⟨encrypted, ?_, ?_⟩
  · rw [utilsAesCryptCbc, if_neg (not_not.mpr hpadded.1), hencrypted]
  · obtain ⟨rest, hrest⟩ := aesDecode_room (hsecret.trans (Nat.le_succ _)) houtput (by rw [decodeBuffLen]; omega)
    rw [hrest, trimmed_padded hplain hpadded]

/-- The text is no Base64, or what it stands for is not made of blocks or leaves no room
for a terminating zero. -/
def CannotDecode (encryptData : Bytes) : Prop :=
  awsBase64Decode (cstr encryptData) = none ∨
    ∃ decoded, awsBase64Decode (cstr encryptData) = some decoded ∧
      (decoded.length % 16 ≠ 0 ∨ decodeBuffLen ≤ decoded.length)

/-- Nothing is read or written out of bounds, a zero is left in the buffer, and what cannot
be decoded gives no pointer. -/
def DecodesSafely (secret encryptData : Bytes) (truncated : Bool) : Prop :=
  ∃ result, aesDecode (crypto cipher) (some secret) encryptData truncated = some result ∧
    (CannotDecode encryptData → result = none)

theorem aesDecode_safe_iff (secret encryptData : Bytes) (truncated : Bool) :
    DecodesSafely cipher secret encryptData truncated ↔
      keyLength truncated ≤ secret.length + 1 ∧
        ∃ decoded, awsBase64Decode (cstr encryptData) = some decoded ∧
          (decoded.length % 16 ≠ 0 ∨ decoded.length < decodeBuffLen) := by
  constructor
  · rintro ⟨result, hresult, hnull⟩
    have hmultiple {data : Bytes} (hdata : (awsBase64Decode (cstr encryptData)).getD [] = data)
        (h16 : data.length % 16 = 0) : ¬CannotDecode encryptData := by
      intro hcannot
      obtain ⟨output, houtput, -⟩ := deciphered_multiple hdata h16
      rw [hnull hcannot] at hresult
      exact aesDecode_ne_null houtput hresult
    refine ⟨?_, ?_⟩
    · by_contra hshort
      rw [aesDecode_short hshort] at hresult
      exact Option.some_ne_none _ hresult.symm
    · cases hdecoded : awsBase64Decode (cstr encryptData) with
      | none =>
          have hempty : (awsBase64Decode (cstr encryptData)).getD [] = [] := by rw [hdecoded, Option.getD_none]
          exact absurd (Or.inl hdecoded) (hmultiple hempty rfl)
      | some decoded =>
          have hdata : (awsBase64Decode (cstr encryptData)).getD [] = decoded := by rw [hdecoded, Option.getD_some]
          refine ⟨decoded, rfl, ?_⟩
          by_contra hno
          rw [not_or, not_not, not_lt] at hno
          exact hmultiple hdata hno.1 (Or.inr ⟨decoded, hdecoded, Or.inr hno.2⟩)
  · rintro ⟨hlong, decoded, hdecoded, hroom⟩
    have hdata : (awsBase64Decode (cstr encryptData)).getD [] = decoded := by rw [hdecoded, Option.getD_some]
    by_cases h16 : decoded.length % 16 = 0
    · obtain ⟨output, houtput, hlen⟩ := deciphered_multiple hdata h16
      have hshort : decoded.length < decodeBuffLen := hroom.resolve_left (not_not.mpr h16)
      obtain ⟨rest, hrest⟩ := aesDecode_room hlong houtput (by
        rw [hlen]
        exact (Nat.mod_le _ _).trans_lt hshort)
      refine ⟨_, hrest, ?_⟩
      rintro (hnone | ⟨other, hother, hbad⟩)
      · exact absurd (hdecoded.symm.trans hnone) (Option.some_ne_none _)
      · rw [← Option.some.inj (hdecoded.symm.trans hother)] at hbad
        exact absurd hbad (not_or.mpr ⟨not_not.mpr h16, not_le.mpr hshort⟩)
    · refine ⟨none, ?_, fun _ => rfl⟩
      rw [aesDecode_long hlong, deciphered_ragged hdata h16]

end Decode

section Samples

def sampleBlocks : Block × Block :=
  (xorBlock (front 16 (ascii "test-abc".toList ++ List.replicate 8 8)) (front 16 (ascii "1234567812345678".toList)),
    #v[138, 18, 215, 250, 107, 101, 55, 57, 186, 125, 122, 177, 145, 237, 47, 164])

def sampleCipher : BlockCipher where
  encrypt := fun _ _ => Equiv.swap sampleBlocks.1 sampleBlocks.2
  decrypt := fun _ _ => (Equiv.swap sampleBlocks.1 sampleBlocks.2).symm
  decrypt_encrypt := fun _ _ block _ _ => (Equiv.swap sampleBlocks.1 sampleBlocks.2).symm_apply_apply block

def sampleSecret : Bytes := ascii "1234567812345678".toList

def sampleText : Bytes := ascii "ihLX+mtlNzm6fXqxke0vpA==".toList

theorem aesDecode_round_trip_sample :
    ∃ encrypted, utilsAesCryptCbc sampleCipher .encrypt sampleSecret 128 16 (front 16 sampleSecret)
        (ascii "test-abc".toList ++ List.replicate 8 8) = some encrypted ∧ awsBase64Encode encrypted = sampleText ∧
      aesDecode (crypto sampleCipher) (some sampleSecret) (awsBase64Encode encrypted) true =
        some (some (ascii "test-abc".toList)) := by
  have hcompute : utilsAesCryptCbc sampleCipher .encrypt sampleSecret 128 16 (front 16 sampleSecret)
      (ascii "test-abc".toList ++ List.replicate 8 8) = some sampleBlocks.2.toList := by
    have hblock : encryptLoop (sampleCipher.encrypt sampleSecret 128) 1 (front 16 sampleSecret)
        (ascii "test-abc".toList ++ List.replicate 8 8) =
          (Equiv.swap sampleBlocks.1 sampleBlocks.2 sampleBlocks.1).toList ++ [] := rfl
    rw [utilsAesCryptCbc, if_neg (by decide), hblock, Equiv.swap_apply_left, List.append_nil]
  have hplain : ∀ b ∈ ascii "test-abc".toList, 33 ≤ b := by simp [ascii]
  obtain ⟨encrypted, hencrypted, hdecode⟩ :=
    @aesDecode_round_trip sampleCipher sampleSecret true (ascii "test-abc".toList)
    (ascii "test-abc".toList ++ List.replicate 8 8) (by decide) hplain
      ⟨rfl, Or.inr ⟨8, by decide, by decide, rfl⟩⟩ (by decide)
  refine ⟨encrypted, hencrypted, ?_, hdecode⟩
  rw [← Option.some.inj (hcompute.symm.trans hencrypted)]
  decide

/-- Text for 528 bytes, which is 16 more than there is room for. -/
def longText : Bytes := awsBase64Encode (List.replicate 528 0)

theorem longText_overflows : ¬DecodesSafely sampleCipher sampleSecret longText true := by
  rintro ⟨result, hresult, -⟩
  have hdecoded : (awsBase64Decode (cstr longText)).getD [] = List.replicate 528 0 := by
    rw [longText, cstr_eq_self.mpr (encode_nonzero _), awsBase64Decode_encode, Option.getD_some]
  have hlen : (List.replicate 528 (0 : UInt8)).length = 528 := List.length_replicate
  obtain ⟨output, houtput, hout⟩ := deciphered_multiple hdecoded (by rw [hlen])
  rw [aesDecode_overflow houtput (by rw [hout, hlen]; decide)] at hresult
  exact Option.some_ne_none _ hresult.symm

end Samples

end OneSdk.AesDecode
