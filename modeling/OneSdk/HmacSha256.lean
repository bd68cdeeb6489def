import OneSdk.RequestSignature
import OneSdk.Sha256

namespace OneSdk.HmacSha256

open BlockHash CString Printing Base64 RequestSignature Sha256

section Hmac

/-- The local `sha256` of `hmac_sha256.c`: its length is cut to the `uint32_t` that `Sha256Update` takes. -/
def sha256Wrapper (stack : Stack) (data : Bytes) (outlen : Nat) : Bytes :=
  let hash := sha256Finalise (sha256Update (sha256Initialise stack) data (UInt32.ofNat data.length)) stack.bytes
  hash.take (if outlen > 32 then 32 else outlen)

def hashBoth (stack : Stack) (x y : Bytes) (outlen : Nat) : Bytes := sha256Wrapper stack (x ++ y) outlen

def onesdkHmacSha256 (stack : Stack) (key data : Bytes) (outlen : Nat) : Bytes :=
  let zeros := List.replicate 64 0
  let k := if key.length > 64 then overwrite zeros 0 (sha256Wrapper stack key 64) else overwrite zeros 0 key
  let kIpad := (List.replicate 64 0x36).zipWith (· ^^^ ·) k
  let kOpad := (List.replicate 64 0x5C).zipWith (· ^^^ ·) k
  let ihash := hashBoth stack kIpad data 32
  let ohash := hashBoth stack kOpad ihash 32
  ohash.take (if outlen > 32 then 32 else outlen)

end Hmac

section Mac

variable {stack : Stack} {key data : Bytes}

theorem take_clipped {digest : Bytes} (h : digest.length = 32) (n : Nat) :
    digest.take (if n > 32 then 32 else n) = digest.take n := by
  split
  · next hlong => rw [List.take_of_length_le (Nat.le_of_eq h), List.take_of_length_le (by omega)]
  · rfl

theorem sha256Wrapper_eq (hdata : data.length < 2 ^ 32) (n : Nat) :
    sha256Wrapper stack data n = (sha256 data).take n := by
  have htaken := feed_taken (sha256Initialise_taken stack) hdata
  rw [feed, List.nil_append] at htaken
  rw [sha256Wrapper, sha256Finalise_eq htaken, take_clipped (sha256_length data)]

theorem sha256Wrapper_whole (hdata : data.length < 2 ^ 32) {n : Nat} (hn : 32 ≤ n) :
    sha256Wrapper stack data n = sha256 data := by
  rw [sha256Wrapper_eq hdata, List.take_of_length_le hn]

theorem keyBlock_short (key : Bytes) : (keyBlock sha256 64 key).length = 64 :=
  keyBlock_length (fun x => (sha256_length x).trans_le (by decide)) key

theorem pad_eq (c : UInt8) (key : Bytes) :
    (List.replicate 64 c).zipWith (· ^^^ ·) (keyBlock sha256 64 key) = (keyBlock sha256 64 key).map (· ^^^ c) := by
  refine List.ext_getElem ?_ (fun i hi hi' => ?_)
  · rw [List.length_zipWith, List.length_replicate, List.length_map, keyBlock_short, Nat.min_self]
  · rw [List.getElem_zipWith, List.getElem_replicate, List.getElem_map, UInt8.xor_comm]

theorem onesdkHmacSha256_eq (stack : Stack) (hkey : key.length < 2 ^ 32) (hdata : 64 + data.length < 2 ^ 32)
    (outlen : Nat) :
    onesdkHmacSha256 stack key data outlen = (mac sha256 64 key data).take outlen := by
  have hblock : (if key.length > 64 then overwrite (List.replicate 64 0) 0 (sha256Wrapper stack key 64)
      else overwrite (List.replicate 64 0) 0 key) = keyBlock sha256 64 key := by
    rw [sha256Wrapper_whole hkey (by decide), keyBlock, overwrite_front, overwrite_front]
    split
    · rfl
    · rfl
  have hinner : hashBoth stack ((keyBlock sha256 64 key).map (· ^^^ 0x36)) data 32 =
      sha256 ((keyBlock sha256 64 key).map (· ^^^ 0x36) ++ data) := by
    refine sha256Wrapper_whole ?_ (Nat.le_refl 32)
    rwa [List.length_append, List.length_map, keyBlock_short]
  have houter : ∀ x : Bytes, x.length = 32 → hashBoth stack ((keyBlock sha256 64 key).map (· ^^^ 0x5C)) x 32 =
      sha256 ((keyBlock sha256 64 key).map (· ^^^ 0x5C) ++ x) := by
    intro x hx
    refine sha256Wrapper_whole ?_ (Nat.le_refl 32)
    rw [List.length_append, List.length_map, keyBlock_short, hx]
    decide
  rw [onesdkHmacSha256, hblock, pad_eq, pad_eq, hinner, houter _ (sha256_length _), take_clipped (sha256_length _), mac]

end Mac

section Signature

variable {param : Param} {secret : Bytes}

/-- A request's text is shorter than its array, so what is signed is the code of the text under the secret. -/
theorem iotHmacSha256Encrypt_eq (stack : Stack) (param : Param) (hsecret : (cstr secret).length < 2 ^ 32) :
    iotHmacSha256Encrypt (fun key data => onesdkHmacSha256 stack key data 32) param secret =
      (inputStr param).map (fun text => awsBase64Encode (mac sha256 64 (cstr secret) (cstr text))) := by
  rw [iotHmacSha256Encrypt]
  cases htext : inputStr param with
  | none => rfl
  | some text =>
      have hlen : (cstr text).length < 256 := by
        obtain ⟨hfits, rfl⟩ := sprintf_eq_some.mp htext
        exact (List.takeWhile_prefix (· != (0 : UInt8))).length_le.trans_lt hfits
      rw [Option.map_some, Option.map_some, onesdkHmacSha256_eq stack hsecret (by omega),
        List.take_of_length_le (show (mac sha256 64 (cstr secret) (cstr text)).length ≤ 32 from
          Nat.le_of_eq (sha256_length _))]

theorem iotHmacSha256Encrypt_sample :
    iotHmacSha256Encrypt (fun key data => onesdkHmacSha256 ⟨List.replicate 64 0, [], rfl⟩ key data 32)
        (sampleParam shortName) [115, 0, 116] =
      (inputStr (sampleParam shortName)).map (fun text => awsBase64Encode (mac sha256 64 [115] (cstr text))) :=
  iotHmacSha256Encrypt_eq ⟨List.replicate 64 0, [], rfl⟩ (sampleParam shortName) (by decide)

end Signature

end OneSdk.HmacSha256
