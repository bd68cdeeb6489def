import OneSdk.ApiRequest
import OneSdk.HttpClient

namespace OneSdk.DynReg

open CString ErrorCode HttpClient ApiRequest

/-- cJSON as the answers of the server are read: values of type `J`, numbers of type `D`. -/
structure CJson (J D : Type) where
  parse : Bytes → Option J
  isObject : J → Bool
  hasObjectItem : J → Bytes → Bool
  getObjectItem : J → Bytes → Option J
  getStringValue : J → Option Bytes
  getNumberValue : J → Option D
  /-- The cast of a number to `int32_t`. -/
  toInt32 : D → Int

/-- The two codings. A text that is no base64 gives no bytes, and `utils_aes_cbc` is given
the key, its bits, the initial vector and the data. -/
structure Crypto where
  base64Decode : Bytes → Bytes
  utilsAesCbc : Bytes → Nat → Bytes → Bytes → Option Bytes

section Reader

variable {J D : Type} (json : CJson J D)

def awsJsonValueNewFromString (text : Bytes) : Option J := json.parse (cstr text)

def awsJsonValueGetFromObject (object : Option J) (key : Bytes) : Option J :=
  match object with
  | none => none
  | some object =>
      if json.isObject object = false then none
      else if json.hasObjectItem object key = false then none
      else json.getObjectItem object key

def stringMember (object : Option J) (key : Bytes) : Option Bytes :=
  (awsJsonValueGetFromObject json object key).bind json.getStringValue

/-- A member that is missing or is no string reads as the empty string. -/
def awsJsonGetStr (object : Option J) (key : Bytes) : Bytes := (stringMember json object key).getD []

/-- `value` is what the uninitialised local variable holds. -/
def awsJsonGetNumVal (object : Option J) (key : Bytes) (value : D) : D :=
  ((awsJsonValueGetFromObject json object key).bind json.getNumberValue).getD value

end Reader

section Decode

variable (crypto : Crypto)

def decodeBuffLen : Nat := 512

def urlTrim (ch : UInt8) : Bool := ch < 32 || [32, 9, 10, 11, 12, 13, 7].contains ch

def keyLength (truncated : Bool) : Nat := if truncated then 16 else 24

/-- `aes_decode`: the pointer that it returns, or nothing where it reads beyond the secret
or goes beyond the end of its buffer. `truncated` is the source's `partial_secret`. -/
def aesDecode (deviceSecret : Option Bytes) (encryptData : Bytes) (truncated : Bool) : Option (Option Bytes) :=
  match deviceSecret with
  | none => none
  | some secret =>
      let secret := secret ++ [0]
      if secret.length < keyLength truncated then none
      else
        match crypto.utilsAesCbc (secret.take (keyLength truncated)) (keyLength truncated * 8) (secret.take 16)
            (crypto.base64Decode (cstr encryptData)) with
        | none => some none
        | some output =>
            let decodeBuff := output ++ List.replicate (decodeBuffLen - output.length) 0
            if decodeBuff.length ≤ decodeBuffLen ∧ (0 : UInt8) ∈ decodeBuff then
              some (some ((cstr decodeBuff).rdropWhile urlTrim))
            else none

variable {crypto}

theorem aesDecode_nothing {deviceSecret : Option Bytes} {secret encryptData : Bytes} {truncated : Bool}
    (hsecret : deviceSecret = some secret) (hlong : keyLength truncated ≤ secret.length + 1)
    (hnothing : crypto.utilsAesCbc ((secret ++ [0]).take (keyLength truncated)) (keyLength truncated * 8)
      ((secret ++ [0]).take 16) (crypto.base64Decode (cstr encryptData)) = some []) :
    aesDecode crypto deviceSecret encryptData truncated = some (some []) := by
  have hzeros : cstr (List.replicate decodeBuffLen 0) = [] := rfl
  have hfits : (List.replicate decodeBuffLen (0 : UInt8)).length ≤ decodeBuffLen ∧
      (0 : UInt8) ∈ List.replicate decodeBuffLen (0 : UInt8) := by
    rw [List.length_replicate, List.mem_replicate]
    exact ⟨le_rfl, by decide, rfl⟩
  rw [hsecret, aesDecode]
  dsimp only
  rw [if_neg (by rw [List.length_append, List.length_singleton]; exact not_lt.mpr hlong), hnothing]
  dsimp only
  rw [List.nil_append, List.length_nil, Nat.sub_zero, if_pos hfits, hzeros, List.rdropWhile_nil]

end Decode

section Register

variable {J D : Type} (json : CJson J D) (crypto : Crypto) (hmac : Bytes → Bytes → Bytes)

structure RegisterResult where
  len : Int
  payload : Bytes

def resultKey : Bytes := text "Result"

def lenKey : Bytes := text "len"

def payloadKey : Bytes := text "payload"

/-- `value` is an indeterminate variable of `aws_json_get_num_val`. -/
def parseDynamicRegister (response : Response) (value : D) : RegisterResult :=
  let responseJson := awsJsonValueNewFromString json (response.responseBody.getD [])
  let resultJson := awsJsonValueGetFromObject json responseJson resultKey
  { len := json.toInt32 (awsJsonGetNumVal json resultJson lenKey value)
    payload := awsJsonGetStr json resultJson payloadKey }

def hasDeviceSecret (config : BasicConfig) : Bool := 0 < (config.deviceSecret.getD []).length

def failureCode (response : Response) : Int :=
  if response.errorCode ≠ 0 then response.errorCode
  else if response.innerErrorCode ≠ 0 then response.innerErrorCode
  else volcErrHttpConnFailed

def takeRegisterAnswer (config : BasicConfig) (response : Option Response) (value : D) :
    Option (Int × Option BasicConfig) :=
  match response with
  | none => some (volcErrHttpConnFailed, some config)
  | some response =>
      if response.errorCode = 200 then
        let result := parseDynamicRegister json response value
        if 0 < result.len then
          (aesDecode crypto config.productSecret result.payload true).map
            (fun decoded => (volcOk, some { config with deviceSecret := decoded }))
        else some (-1, some config)
      else some (failureCode response, some config)

/-- The result and the configuration afterwards. `response` is what `http_request` returns for the request. -/
def dynamicRegister (config : Option BasicConfig) (draw : Draw) (response : Option Response) (value : D) :
    Option (Int × Option BasicConfig) :=
  match config with
  | none => some (-1, none)
  | some config =>
      if hasDeviceSecret config then some (0, some config)
      else
        (newRequest hmac config config.authType config.productSecret dynamicRegisterApi draw).bind
          (fun _ => takeRegisterAnswer json crypto config response value)

end Register

section Registering

variable {J D : Type} (json : CJson J D) (crypto : Crypto) (hmac : Bytes → Bytes → Bytes)

def Expected (config : BasicConfig) (response : Option Response) (value : D) (secret : Bytes) : Prop :=
  if hasDeviceSecret config then config.deviceSecret = some secret
  else ∃ r, response = some r ∧ r.errorCode = 200 ∧
    aesDecode crypto config.productSecret (parseDynamicRegister json r value).payload true = some (some secret)

/-- Success means a device secret that is not empty and is the expected one, and failure
leaves it as it was. -/
def Registers (config : BasicConfig) (draw : Draw) (response : Option Response) (value : D) : Prop :=
  ∃ ret after, dynamicRegister json crypto hmac (some config) draw response value = some (ret, some after) ∧
    (ret = volcOk ↔ ∃ secret, secret ≠ [] ∧ after.deviceSecret = some secret ∧
      Expected json crypto config response value secret) ∧
    (ret ≠ volcOk → after.deviceSecret = config.deviceSecret)

def Decrypts (config : BasicConfig) (response : Option Response) (value : D) : Prop :=
  hasDeviceSecret config = false → ∀ r, response = some r → r.errorCode = 200 →
    0 < (parseDynamicRegister json r value).len →
      ∃ secret, secret ≠ [] ∧
        aesDecode crypto config.productSecret (parseDynamicRegister json r value).payload true = some (some secret)

variable {config : BasicConfig} {draw : Draw} {response : Response} {value : D}

theorem failureCode_ne_ok (response : Response) : failureCode response ≠ volcOk := by
  rw [failureCode]
  split
  next h => exact h
  next =>
    split
    next h => exact h
    next => decide

theorem noSecret (h : hasDeviceSecret config = false) {secret : Bytes} (hs : config.deviceSecret = some secret) :
    secret = [] := by
  rw [hasDeviceSecret, hs] at h
  simpa using h

variable {json crypto hmac}

theorem dynamicRegister_sent (h : hasDeviceSecret config = false)
    (hsend : Sendable config config.authType dynamicRegisterApi draw)
    (response : Option Response) :
    dynamicRegister json crypto hmac (some config) draw response value =
      takeRegisterAnswer json crypto config response value := by
  obtain ⟨request, hrequest⟩ := Option.isSome_iff_exists.mp
    ((newRequest_isSome_iff config.productSecret hmac).mpr hsend)
  rw [dynamicRegister, if_neg (by rw [h]; decide), hrequest, Option.bind_some]

theorem registers_sendable {response : Option Response} (h : hasDeviceSecret config = false)
    (hregisters : Registers json crypto hmac config draw response value) :
    Sendable config config.authType dynamicRegisterApi draw := by
  obtain ⟨ret, after, hresult, -⟩ := hregisters
  rw [dynamicRegister, if_neg (by rw [h]; decide)] at hresult
  obtain ⟨request, hrequest, -⟩ := Option.bind_eq_some_iff.mp hresult
  exact (newRequest_isSome_iff _ hmac).mp (hrequest ▸ Option.isSome_some)

theorem registers_of_failure (ret : Int) (h : hasDeviceSecret config = false) {response : Option Response}
    (hret : ret ≠ volcOk)
    (hcall : dynamicRegister json crypto hmac (some config) draw response value = some (ret, some config)) :
    Registers json crypto hmac config draw response value := by
  refine ⟨ret, config, hcall, iff_of_false hret ?_, fun _ => rfl⟩
  rintro ⟨secret, hne, hs, -⟩
  exact hne (noSecret h hs)

theorem registers_of_earlier (h : hasDeviceSecret config = true) (response : Option Response) :
    Registers json crypto hmac config draw response value := by
  have hcall : dynamicRegister json crypto hmac (some config) draw response value = some (0, some config) := if_pos h
  refine ⟨0, config, hcall, iff_of_true rfl ?_, fun _ => rfl⟩
  rw [hasDeviceSecret] at h
  cases hs : config.deviceSecret with
  | none => simp [hs] at h
  | some secret =>
      refine ⟨secret, ?_, rfl, ?_⟩
      · rintro rfl
        simp [hs] at h
      · rw [Expected, hasDeviceSecret, hs, if_pos (by simpa [hs] using h)]

theorem registers_taken (h : hasDeviceSecret config = false)
    (hsend : Sendable config config.authType dynamicRegisterApi draw)
    (hstatus : response.errorCode = 200) (hlen : 0 < (parseDynamicRegister json response value).len) :
    Registers json crypto hmac config draw (some response) value ↔
      ∃ secret, secret ≠ [] ∧
        aesDecode crypto config.productSecret (parseDynamicRegister json response value).payload true =
          some (some secret) := by
  have hcall : dynamicRegister json crypto hmac (some config) draw (some response) value =
      (aesDecode crypto config.productSecret (parseDynamicRegister json response value).payload true).map
        (fun decoded => (volcOk, some { config with deviceSecret := decoded })) := by
    rw [dynamicRegister_sent h hsend, takeRegisterAnswer]
    dsimp only
    rw [if_pos hstatus, if_pos hlen]
  constructor
  · rintro ⟨ret, after, hresult, hiff, -⟩
    rw [hcall, Option.map_eq_some_iff] at hresult
    obtain ⟨decoded, hdecoded, hpair⟩ := hresult
    obtain ⟨rfl, rfl⟩ := Prod.mk.inj hpair |>.imp id Option.some.inj
    obtain ⟨secret, hne, rfl, -⟩ := hiff.mp rfl
    exact ⟨secret, hne, hdecoded⟩
  · rintro ⟨secret, hne, hdecoded⟩
    rw [hdecoded] at hcall
    refine ⟨volcOk, { config with deviceSecret := some secret }, hcall, iff_of_true rfl ⟨secret, hne, rfl, ?_⟩,
      fun hret => absurd rfl hret⟩
    rw [Expected, if_neg (by rw [h]; decide)]
    exact ⟨response, rfl, hstatus, hdecoded⟩

theorem registers_sent (h : hasDeviceSecret config = false)
    (hsend : Sendable config config.authType dynamicRegisterApi draw)
    (response : Option Response) :
    Registers json crypto hmac config draw response value ↔ Decrypts json crypto config response value := by
  have hcall := @dynamicRegister_sent _ _ json crypto hmac config draw value h hsend response
  cases response with
  | none =>
      refine iff_of_true (registers_of_failure volcErrHttpConnFailed h (by decide) ?_) (fun _ _ hr => nomatch hr)
      rw [hcall]
      rfl
  | some r =>
      by_cases hstatus : r.errorCode = 200
      · by_cases hlen : 0 < (parseDynamicRegister json r value).len
        · rw [registers_taken h hsend hstatus hlen]
          constructor
          · rintro hsecret - _ ⟨⟩ - -
            exact hsecret
          · exact fun hd => hd h r rfl hstatus hlen
        · refine iff_of_true (registers_of_failure (-1) h (by decide) ?_) ?_
          · rw [hcall, takeRegisterAnswer]
            dsimp only
            rw [if_pos hstatus, if_neg hlen]
          · rintro - _ ⟨⟩ - hpos
            exact absurd hpos hlen
      · refine iff_of_true (registers_of_failure (failureCode r) h (failureCode_ne_ok r) ?_) ?_
        · rw [hcall, takeRegisterAnswer]
          dsimp only
          rw [if_neg hstatus]
        · rintro - _ ⟨⟩ h200
          exact absurd h200 hstatus

/-- `dynamic_register` reports the truth just when a request that it needs can be made and the payload of an answer that
it takes decrypts to a text. -/
theorem registers_iff (json : CJson J D) (crypto : Crypto) (hmac : Bytes → Bytes → Bytes) (config : BasicConfig)
    (draw : Draw) (response : Option Response) (value : D) :
    Registers json crypto hmac config draw response value ↔
      (hasDeviceSecret config = false → Sendable config config.authType dynamicRegisterApi draw) ∧
        Decrypts json crypto config response value := by
  cases h : hasDeviceSecret config with
  | true => exact iff_of_true (registers_of_earlier h response) ⟨nofun, fun hnot => nomatch h.symm.trans hnot⟩
  | false =>
      constructor
      · intro hregisters
        have hsend := registers_sendable h hregisters
        exact ⟨fun _ => hsend, (registers_sent h hsend response).mp hregisters⟩
      · rintro ⟨hsend, hdecrypts⟩
        exact (registers_sent h (hsend rfl) response).mpr hdecrypts

end Registering

section EmptyPayload

inductive Tree where
  | string (s : Bytes)
  | number (d : Int)
  | object (members : List (Bytes × Tree))

def treeJson (text : Bytes) (tree : Tree) : CJson Tree Int where
  parse t := if t = text then some tree else none
  isObject
    | .object _ => true
    | _ => false
  hasObjectItem
    | .object members, key => members.any (fun m => m.1 == key)
    | _, _ => false
  getObjectItem
    | .object members, key => (members.find? (fun m => m.1 == key)).map Prod.snd
    | _, _ => none
  getStringValue
    | .string s => some s
    | _ => none
  getNumberValue
    | .number d => some d
    | _ => none
  toInt32 d := d

def emptyCrypto : Crypto := ⟨fun _ => [], fun _ _ _ data => some data⟩

def badPayload : Bytes := text "!!!!"

/-- `"Result":"len":1,"payload":"!!!!"` with its braces. -/
def badText : Bytes :=
  ascii "\x7b\"Result\":\x7b\"len\":1,\"payload\":\"!!!!\"\x7d\x7d".toList

def badTree : Tree := .object [(resultKey, .object [(lenKey, .number 1), (payloadKey, .string badPayload)])]

def unregistered : BasicConfig where
  httpHost := some (text "https://h")
  instanceId := some [105]
  productKey := some [112]
  deviceName := some [100]
  authType := 1
  productSecret := some (List.replicate 16 97)
  deviceSecret := none

def noDraw : Draw := ⟨0, 0⟩

theorem unregistered_sendable : Sendable unregistered 1 dynamicRegisterApi noDraw where
  instanceId := Option.some_ne_none _
  names := ⟨[112], [100], rfl, rfl, by decide⟩
  url := by decide

def badAnswer : Response := ⟨200, 0, some badText, badText.length⟩

theorem badAnswer_misreported :
    ¬Registers (treeJson badText badTree) emptyCrypto (fun _ _ => []) unregistered noDraw (some badAnswer) 0 := by
  have hdecode : aesDecode emptyCrypto unregistered.productSecret badPayload true = some (some []) :=
    aesDecode_nothing rfl (by decide) rfl
  have hresult : parseDynamicRegister (treeJson badText badTree) badAnswer 0 = ⟨1, badPayload⟩ := rfl
  rw [registers_taken rfl unregistered_sendable rfl (by rw [hresult]; decide), hresult]
  rintro ⟨secret, hne, hdecoded⟩
  rw [hdecode] at hdecoded
  cases hdecoded
  exact hne rfl

end EmptyPayload

end OneSdk.DynReg
