import OneSdk.RequestSignature

namespace OneSdk.ApiRequest

open CString RequestSignature

/-- The part of `iot_basic_config_t` that requests are made of. -/
structure BasicConfig where
  httpHost : Option Bytes
  instanceId : Option Bytes
  productKey : Option Bytes
  deviceName : Option Bytes
  authType : Int32
  productSecret : Option Bytes
  deviceSecret : Option Bytes
  deriving DecidableEq

structure Draw where
  randomNum : Int32
  timestamp : UInt64

structure Request where
  url : Bytes
  instanceId : Bytes
  param : Param
  /-- Whether the body has the `auth_type`. -/
  showsAuthType : Bool
  signature : Bytes

/-- What differs between the two requests. -/
structure Api where
  path : String
  action : String
  showsAuthType : Bool

def dynamicRegisterApi : Api := ⟨"/2021-12-14/DynamicRegister", "Action=DynamicRegister", true⟩

def getLlmConfigApi : Api := ⟨"/2021-12-14/GetLLMConfig", "Action=GetLLMConfig", false⟩

def urlStrSize : Nat := 1024

def writeWhole (buf piece : Bytes) : Bytes := if urlStrSize < buf.length + piece.length then buf else buf ++ piece

def urlStr (httpHost : Option Bytes) (api : Api) : Bytes :=
  [httpHost.getD [], text api.path, text "?", text api.action, text "&", text "Version=2021-12-14"].foldl writeWhole []

/-- The request up to `http_request`. There is none where a name is `NULL`, where the signed text runs over its array or
where no zero is left behind the URL. A secret that is `NULL` counts as empty. -/
def newRequest (hmac : Bytes → Bytes → Bytes) (config : BasicConfig) (authType : Int32) (secret : Option Bytes)
    (api : Api)
    (draw : Draw) : Option Request :=
  match config.instanceId, config.productKey, config.deviceName with
  | some instanceId, some productKey, some deviceName =>
      let param : Param := ⟨productKey, deviceName, draw.randomNum, draw.timestamp, authType⟩
      if (urlStr config.httpHost api).length < urlStrSize then
        (iotHmacSha256Encrypt hmac param (secret.getD [])).map
          (fun signature => ⟨urlStr config.httpHost api, instanceId, param, api.showsAuthType, signature⟩)
      else none
  | _, _, _ => none

/-- The names are there, the text that is signed fits, and so does the URL. -/
structure Sendable (config : BasicConfig) (authType : Int32) (api : Api) (draw : Draw) : Prop where
  instanceId : config.instanceId ≠ none
  names : ∃ productKey deviceName, config.productKey = some productKey ∧ config.deviceName = some deviceName ∧
    Fits ⟨productKey, deviceName, draw.randomNum, draw.timestamp, authType⟩
  url : (urlStr config.httpHost api).length < urlStrSize

variable {config : BasicConfig} {authType : Int32} {api : Api} {draw : Draw}

theorem newRequest_isSome_iff (secret : Option Bytes) (hmac : Bytes → Bytes → Bytes) :
    (newRequest hmac config authType secret api draw).isSome = true ↔ Sendable config authType api draw := by
  constructor
  · intro h
    rw [newRequest] at h
    split at h
    next instanceId productKey deviceName hid hkey hname =>
      dsimp only at h
      split at h
      next hurl =>
        rw [Option.isSome_map, iotHmacSha256Encrypt, Option.isSome_map, Option.isSome_iff_exists] at h
        obtain ⟨signed, hsigned⟩ := h
        exact ⟨hid ▸ Option.some_ne_none _,
          ⟨productKey, deviceName, hkey, hname, (inputStr_eq_some.mp hsigned).1⟩, hurl⟩
      next => exact absurd h (by simp)
    next => exact absurd h (by simp)
  · rintro ⟨hid, ⟨productKey, deviceName, hkey, hname, hfits⟩, hurl⟩
    obtain ⟨instanceId, hid⟩ := Option.ne_none_iff_exists'.mp hid
    rw [newRequest, hid, hkey, hname]
    dsimp only
    rw [if_pos hurl, Option.isSome_map, iotHmacSha256Encrypt, inputStr_eq_some.mpr ⟨hfits, rfl⟩]
    rfl

end OneSdk.ApiRequest
