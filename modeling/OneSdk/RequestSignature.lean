import OneSdk.Base64
import OneSdk.Printing

namespace OneSdk.RequestSignature

open CString Base64 Printing

/-- The part of `iot_dynamic_register_basic_param` that is signed, with C strings as names. -/
structure Param where
  productKey : Bytes
  deviceName : Bytes
  randomNum : Int32
  timestamp : UInt64
  authType : Int32
  deriving DecidableEq

def Plain (name : Bytes) : Prop := (0 : UInt8) ∉ name ∧ (38 : UInt8) ∉ name

structure PlainParam extends Param where
  productKey_plain : Plain productKey
  deviceName_plain : Plain deviceName

def inputStrSize : Nat := 256

def inputText (param : Param) : Bytes :=
  text "auth_type=" ++ signedDecimal param.authType.toInt ++ text "&device_name=" ++ param.deviceName ++
    text "&random_num=" ++ signedDecimal param.randomNum.toInt ++ text "&product_key=" ++ param.productKey ++
    text "&timestamp=" ++ decimal param.timestamp.toNat

def inputStr (param : Param) : Option Bytes := sprintf inputStrSize (inputText param)

def iotHmacSha256Encrypt (hmac : Bytes → Bytes → Bytes) (param : Param) (secret : Bytes) : Option Bytes :=
  (inputStr param).map (fun text => awsBase64Encode (hmac (cstr secret) (cstr text)))

/-- Each of two requests is signed as a string of its own. -/
def SignsApart (p q : Param) : Prop :=
  ∃ s t, inputStr p = some s ∧ inputStr q = some t ∧ (p ≠ q → s ≠ t)

def Fits (param : Param) : Prop :=
  (signedDecimal param.authType.toInt).length + param.deviceName.length + (signedDecimal param.randomNum.toInt).length +
    param.productKey.length + (decimal param.timestamp.toNat).length ≤ 196

instance : DecidablePred Fits := fun _ => inferInstanceAs (Decidable (_ ≤ 196))

section Text

variable {p q : Param}

theorem inputText_fields (param : Param) :
    inputText param =
      text "auth_type=" ++ (signedDecimal param.authType.toInt ++ 38 ::
        (text "device_name=" ++ (param.deviceName ++ 38 ::
          (text "random_num=" ++ (signedDecimal param.randomNum.toInt ++ 38 ::
            (text "product_key=" ++ (param.productKey ++ 38 ::
              (text "timestamp=" ++ decimal param.timestamp.toNat)))))))) := by
  rw [inputText]
  simp only [List.append_assoc]
  rfl

theorem separator_notMem (i : Int) : (38 : UInt8) ∉ signedDecimal i := by
  intro h
  exact absurd (signedDecimal_bytes h).1 (by decide)

theorem inputText_injective {p q : PlainParam} (h : inputText p.toParam = inputText q.toParam) :
    p.toParam = q.toParam := by
  rw [inputText_fields, inputText_fields] at h
  obtain ⟨hauth, h⟩ := closed_inj (separator_notMem _) (separator_notMem _) (List.append_cancel_left h)
  obtain ⟨hdevice, h⟩ := closed_inj p.deviceName_plain.2 q.deviceName_plain.2 (List.append_cancel_left h)
  obtain ⟨hrandom, h⟩ := closed_inj (separator_notMem _) (separator_notMem _) (List.append_cancel_left h)
  obtain ⟨hproduct, h⟩ := closed_inj p.productKey_plain.2 q.productKey_plain.2 (List.append_cancel_left h)
  have hstamp := List.append_cancel_left h
  obtain ⟨⟨productKey, deviceName, randomNum, timestamp, authType⟩, _, _⟩ := p
  obtain ⟨⟨productKey', deviceName', randomNum', timestamp', authType'⟩, _, _⟩ := q
  rw [Param.mk.injEq]
  refine ⟨hproduct, hdevice, ?_, ?_, ?_⟩
  · exact Int32.toInt_inj.mp (signedDecimal_injective hrandom)
  · exact UInt64.toNat_inj.mp (decimal_injective hstamp)
  · exact Int32.toInt_inj.mp (signedDecimal_injective hauth)

theorem inputText_length (param : Param) :
    (inputText param).length = (signedDecimal param.authType.toInt).length + param.deviceName.length +
      (signedDecimal param.randomNum.toInt).length + param.productKey.length +
        (decimal param.timestamp.toNat).length + 59 := by
  have hnames : (text "auth_type=").length = 10 ∧ (text "&device_name=").length = 13 ∧
      (text "&random_num=").length = 12 ∧ (text "&product_key=").length = 13 ∧
      (text "&timestamp=").length = 11 := ⟨rfl, rfl, rfl, rfl, rfl⟩
  obtain ⟨h1, h2, h3, h4, h5⟩ := hnames
  rw [inputText]
  simp only [List.length_append, h1, h2, h3, h4, h5]
  omega

theorem inputStr_eq_some {text : Bytes} : inputStr p = some text ↔ Fits p ∧ text = inputText p := by
  rw [inputStr, sprintf_eq_some, inputText_length, Fits, inputStrSize]
  apply and_congr_left'
  omega

theorem signature_eq_iff {hmac : Bytes → Bytes → Bytes} {secret : Bytes} {s t : Bytes} (hp : inputStr p = some s)
    (hq : inputStr q = some t) :
    iotHmacSha256Encrypt hmac p secret = iotHmacSha256Encrypt hmac q secret ↔
      hmac (cstr secret) (cstr s) = hmac (cstr secret) (cstr t) := by
  rw [iotHmacSha256Encrypt, iotHmacSha256Encrypt, hp, hq, Option.map_some, Option.map_some, Option.some_inj]
  constructor
  · intro h
    have hdecoded := awsBase64Decode_encode (hmac (cstr secret) (cstr s))
    rw [h, awsBase64Decode_encode] at hdecoded
    exact (Option.some.inj hdecoded).symm
  · intro h
    rw [h]

end Text

theorem signsApart_iff (p q : PlainParam) : SignsApart p.toParam q.toParam ↔ Fits p.toParam ∧ Fits q.toParam := by
  constructor
  · rintro ⟨s, t, hp, hq, -⟩
    exact ⟨(inputStr_eq_some.mp hp).1, (inputStr_eq_some.mp hq).1⟩
  · rintro ⟨hp, hq⟩
    refine ⟨_, _, inputStr_eq_some.mpr ⟨hp, rfl⟩, inputStr_eq_some.mpr ⟨hq, rfl⟩, ?_⟩
    intro hne heq
    exact hne (inputText_injective heq)

section Samples

def shortName : Bytes := [100]

def longName : Bytes := List.replicate 193 100

def sampleParam (deviceName : Bytes) : Param := ⟨shortName, deviceName, 1, 1, 1⟩

/-- A device name of 193 bytes leaves no room for the terminator. -/
theorem longName_overflows :
    Plain longName ∧ Plain shortName ∧ ¬SignsApart (sampleParam longName) (sampleParam shortName) := by
  have hlong {c : UInt8} (hc : c ≠ 100) : c ∉ longName := fun h => hc (List.eq_of_mem_replicate h)
  refine ⟨⟨hlong (by decide), hlong (by decide)⟩, ⟨by decide, by decide⟩, ?_⟩
  rintro ⟨s, t, hp, -⟩
  have hfits : Fits (sampleParam longName) := (inputStr_eq_some.mp hp).1
  have hlen : (sampleParam longName).deviceName.length = 193 := List.length_replicate
  have hauth : (signedDecimal (sampleParam longName).authType.toInt).length = 1 := by decide
  have hrandom : (signedDecimal (sampleParam longName).randomNum.toInt).length = 1 := by decide
  have hproduct : (sampleParam longName).productKey.length = 1 := rfl
  have hstamp : (decimal (sampleParam longName).timestamp.toNat).length = 1 := by decide
  rw [Fits, hlen, hauth, hrandom, hproduct, hstamp] at hfits
  omega

end Samples

end OneSdk.RequestSignature
