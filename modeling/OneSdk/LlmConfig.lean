import OneSdk.DynReg

namespace OneSdk.LlmConfig

open CString HttpClient ApiRequest DynReg

def llmOk : Int := 0

def llmErrAllocFailed : Int := -99

def llmErrDevRegFailed : Int := -98

def llmErrNetworkFail : Int := -95

def llmErrParseFailed : Int := -94

structure AigwLlmConfig where
  url : Option Bytes
  apiKey : Option Bytes
  deriving DecidableEq

def apiKeyKey : Bytes := text "APIKey"

def urlKey : Bytes := text "URL"

section Source

variable {J D : Type} (json : CJson J D) (crypto : Crypto) (hmac : Bytes → Bytes → Bytes)

def resultOf (response : Response) : Option J :=
  awsJsonValueGetFromObject json (awsJsonValueNewFromString json (response.responseBody.getD [])) resultKey

/-- `parse_llm_config`. The getters of strings never return `NULL`, so the checks of `key`
and of `url` in the source are never taken. -/
def parseLlmConfig (deviceSecret : Option Bytes) (response : Response) (outConfig : Option AigwLlmConfig) :
    Option (Int × Option AigwLlmConfig) :=
  match outConfig with
  | none => some (llmErrAllocFailed, none)
  | some out =>
      match resultOf json response with
      | none => some (llmErrParseFailed, some out)
      | some result =>
          match aesDecode crypto deviceSecret (awsJsonGetStr json (some result) apiKeyKey) false with
          | none => none
          | some none => some (llmErrParseFailed, some out)
          | some (some apiKey) =>
              some (llmOk, some { apiKey := some apiKey, url := some (awsJsonGetStr json (some result) urlKey) })

def registerFirst (config : BasicConfig) (draw : Draw) (answer : Option Response) (value : D) :
    Option (Int × Option BasicConfig) :=
  match config.deviceSecret with
  | none => dynamicRegister json crypto hmac (some config) draw answer value
  | some _ => some (0, some config)

def takeLlmAnswer (config : Option BasicConfig) (outConfig : Option AigwLlmConfig) (response : Option Response) :
    Option (Int × Option BasicConfig × Option AigwLlmConfig) :=
  match response with
  | none => some (llmErrNetworkFail, config, outConfig)
  | some response =>
      (parseLlmConfig json crypto (config.bind BasicConfig.deviceSecret) response outConfig).map
        (fun parsed => (parsed.1, config, parsed.2))

/-- `answer` and `response` are what the two requests return, to register and for the configuration. The second
is signed
with an `auth_type` of 0, and with the secret that registering has left. -/
def getLlmConfig (config : BasicConfig) (outConfig : Option AigwLlmConfig) (draw registerDraw : Draw)
    (answer : Option Response) (value : D) (response : Option Response) :
    Option (Int × Option BasicConfig × Option AigwLlmConfig) :=
  match registerFirst json crypto hmac config registerDraw answer value with
  | none => none
  | some (registered, after) =>
      if registered ≠ 0 then some (llmErrDevRegFailed, after, outConfig)
      else
        (newRequest hmac config 0 (after.bind BasicConfig.deviceSecret) getLlmConfigApi draw).bind
          (fun _ => takeLlmAnswer json crypto after outConfig response)

end Source

section Fetching

variable {J D : Type} (json : CJson J D) (crypto : Crypto) (hmac : Bytes → Bytes → Bytes)

/-- The answer has status 200 and holds a key and a URL, of which `out` has the decryption
and the text. -/
def Filled (deviceSecret : Option Bytes) (response : Option Response) (out : Option AigwLlmConfig) : Prop :=
  ∃ r key url apiKey, response = some r ∧ r.errorCode = 200 ∧ key ≠ [] ∧ url ≠ [] ∧
    stringMember json (resultOf json r) apiKeyKey = some key ∧ stringMember json (resultOf json r) urlKey = some url ∧
    aesDecode crypto deviceSecret key false = some (some apiKey) ∧ out = some ⟨some url, some apiKey⟩

/-- Success means a filled configuration, and failure leaves it as it was. -/
def Fetches (config : BasicConfig) (outConfig : Option AigwLlmConfig) (draw registerDraw : Draw)
    (answer : Option Response) (value : D) (response : Option Response) : Prop :=
  ∃ ret after out,
    getLlmConfig json crypto hmac config outConfig draw registerDraw answer value response = some (ret, after, out) ∧
      (ret = llmOk → Filled json crypto (after.bind BasicConfig.deviceSecret) response out) ∧
      (ret ≠ llmOk → out = outConfig)

/-- A key that decrypts comes with status 200 and is not empty, nor is the URL beside it. -/
def Complete (deviceSecret : Option Bytes) (response : Response) : Prop :=
  ∀ result, resultOf json response = some result →
    ∃ decoded, aesDecode crypto deviceSecret (awsJsonGetStr json (some result) apiKeyKey) false = some decoded ∧
      (decoded ≠ none → response.errorCode = 200 ∧ awsJsonGetStr json (some result) apiKeyKey ≠ [] ∧
        awsJsonGetStr json (some result) urlKey ≠ [])

/-- Registering stays within bounds, and where it succeeds the request can be made and its answer is complete. -/
def Answered (config : BasicConfig) (outConfig : Option AigwLlmConfig) (draw registerDraw : Draw)
    (answer : Option Response) (value : D) (response : Option Response) : Prop :=
  ∃ registered after, registerFirst json crypto hmac config registerDraw answer value = some (registered, after) ∧
    (registered = 0 → Sendable config 0 getLlmConfigApi draw ∧
      (outConfig ≠ none → ∀ r, response = some r → Complete json crypto (after.bind BasicConfig.deviceSecret) r))

variable {json crypto hmac} {deviceSecret : Option Bytes} {response : Response} {outConfig : Option AigwLlmConfig}
  {config : BasicConfig} {draw registerDraw : Draw}

theorem awsJsonGetStr_ne_nil {object : Option J} {key : Bytes} (h : awsJsonGetStr json object key ≠ []) :
    stringMember json object key = some (awsJsonGetStr json object key) := by
  rw [awsJsonGetStr] at h ⊢
  cases hmember : stringMember json object key with
  | none => rw [hmember] at h; exact absurd rfl h
  | some text => rfl

theorem awsJsonGetStr_of_member {object : Option J} {key text : Bytes} (h : stringMember json object key = some text) :
    awsJsonGetStr json object key = text := by
  rw [awsJsonGetStr, h]
  rfl

def Parses (json : CJson J D) (crypto : Crypto) (deviceSecret : Option Bytes) (response : Response)
    (outConfig : Option AigwLlmConfig) : Prop :=
  ∃ ret out, parseLlmConfig json crypto deviceSecret response outConfig = some (ret, out) ∧
    (ret = llmOk → Filled json crypto deviceSecret (some response) out) ∧ (ret ≠ llmOk → out = outConfig)

theorem parses_of_failure (ret : Int) (hret : ret ≠ llmOk)
    (hparse : parseLlmConfig json crypto deviceSecret response outConfig = some (ret, outConfig)) :
    Parses json crypto deviceSecret response outConfig :=
  ⟨ret, outConfig, hparse, fun hok => absurd hok hret, fun _ => rfl⟩

theorem filled_iff {result : J} (hresult : resultOf json response = some result) {apiKey : Bytes}
    (hdecode : aesDecode crypto deviceSecret (awsJsonGetStr json (some result) apiKeyKey) false = some (some apiKey)) :
    Filled json crypto deviceSecret (some response)
        (some ⟨some (awsJsonGetStr json (some result) urlKey), some apiKey⟩) ↔
      response.errorCode = 200 ∧ awsJsonGetStr json (some result) apiKeyKey ≠ [] ∧
        awsJsonGetStr json (some result) urlKey ≠ [] := by
  constructor
  · rintro ⟨_, key, url, _, ⟨⟩, hstatus, hkey, hurl, hkeyMember, hurlMember, -, -⟩
    rw [hresult] at hkeyMember hurlMember
    rw [awsJsonGetStr_of_member hkeyMember, awsJsonGetStr_of_member hurlMember]
    exact ⟨hstatus, hkey, hurl⟩
  · rintro ⟨hstatus, hkey, hurl⟩
    refine ⟨response, _, _, apiKey, rfl, hstatus, hkey, hurl, ?_, ?_, hdecode, rfl⟩
    · rw [hresult]
      exact awsJsonGetStr_ne_nil hkey
    · rw [hresult]
      exact awsJsonGetStr_ne_nil hurl

theorem parses_iff {out : AigwLlmConfig} :
    Parses json crypto deviceSecret response (some out) ↔ Complete json crypto deviceSecret response := by
  cases hresult : resultOf json response with
  | none =>
      refine iff_of_true (parses_of_failure llmErrParseFailed (by decide) ?_) ?_
      · rw [parseLlmConfig, hresult]
      · intro result hsome
        exact nomatch hresult.symm.trans hsome
  | some result =>
      have hcomplete : Complete json crypto deviceSecret response ↔
          ∃ decoded, aesDecode crypto deviceSecret (awsJsonGetStr json (some result) apiKeyKey) false = some decoded ∧
            (decoded ≠ none → response.errorCode = 200 ∧ awsJsonGetStr json (some result) apiKeyKey ≠ [] ∧
              awsJsonGetStr json (some result) urlKey ≠ []) := by
        rw [Complete, hresult]
        constructor
        · exact fun h => h result rfl
        · rintro h _ ⟨⟩
          exact h
      rw [hcomplete]
      cases hdecode : aesDecode crypto deviceSecret (awsJsonGetStr json (some result) apiKeyKey) false with
      | none =>
          refine iff_of_false ?_ (fun ⟨_, hsome, _⟩ => nomatch hsome)
          rintro ⟨ret, after, hparse, -⟩
          rw [parseLlmConfig, hresult] at hparse
          simp only [hdecode] at hparse
          exact nomatch hparse
      | some decoded =>
          cases decoded with
          | none =>
              refine iff_of_true (parses_of_failure llmErrParseFailed (by decide) ?_)
                ⟨none, rfl, fun h => absurd rfl h⟩
              rw [parseLlmConfig, hresult]
              simp only [hdecode]
          | some apiKey =>
              have hparse : parseLlmConfig json crypto deviceSecret response (some out) =
                  some (llmOk, some ⟨some (awsJsonGetStr json (some result) urlKey), some apiKey⟩) := by
                rw [parseLlmConfig, hresult]
                simp only [hdecode]
              rw [← filled_iff hresult hdecode]
              constructor
              · rintro ⟨ret, after, hafter, hfilled, -⟩
                rw [hparse] at hafter
                cases hafter
                exact ⟨some apiKey, rfl, fun _ => hfilled rfl⟩
              · rintro ⟨_, ⟨⟩, hfilled⟩
                exact ⟨llmOk, _, hparse, fun _ => hfilled (Option.some_ne_none apiKey), fun h => absurd rfl h⟩

theorem parses_nowhere : Parses json crypto deviceSecret response none :=
  parses_of_failure llmErrAllocFailed (by decide) rfl

theorem fetches_failed (after : Option BasicConfig) (ret : Int) {answer response : Option Response} {value : D}
    (hret : ret ≠ llmOk)
    (hcall : getLlmConfig json crypto hmac config outConfig draw registerDraw answer value response =
      some (ret, after, outConfig)) :
    Fetches json crypto hmac config outConfig draw registerDraw answer value response :=
  ⟨ret, after, outConfig, hcall, fun hok => absurd hok hret, fun _ => rfl⟩

theorem getLlmConfig_sent {answer : Option Response} {value : D} {after : Option BasicConfig}
    (hregister : registerFirst json crypto hmac config registerDraw answer value = some (0, after))
    (hsend : Sendable config 0 getLlmConfigApi draw) (response : Option Response) :
    getLlmConfig json crypto hmac config outConfig draw registerDraw answer value response =
      takeLlmAnswer json crypto after outConfig response := by
  obtain ⟨request, hrequest⟩ := Option.isSome_iff_exists.mp
    ((newRequest_isSome_iff (after.bind BasicConfig.deviceSecret) hmac).mpr hsend)
  rw [getLlmConfig, hregister]
  dsimp only
  rw [if_neg (fun h => h rfl), hrequest, Option.bind_some]

theorem fetches_answered {answer : Option Response} {value : D} {after : Option BasicConfig}
    (hregister : registerFirst json crypto hmac config registerDraw answer value = some (0, after))
    (hsend : Sendable config 0 getLlmConfigApi draw) :
    Fetches json crypto hmac config outConfig draw registerDraw answer value (some response) ↔
      Parses json crypto (after.bind BasicConfig.deviceSecret) response outConfig := by
  have hcall : getLlmConfig json crypto hmac config outConfig draw registerDraw answer value (some response) =
      (parseLlmConfig json crypto (after.bind BasicConfig.deviceSecret) response outConfig).map
        (fun parsed => (parsed.1, after, parsed.2)) := getLlmConfig_sent hregister hsend (some response)
  constructor
  · rintro ⟨ret, config', out, hresult, hok, hfail⟩
    rw [hcall, Option.map_eq_some_iff] at hresult
    obtain ⟨⟨ret', out'⟩, hparse, hpair⟩ := hresult
    obtain ⟨rfl, rfl, rfl⟩ := hpair
    exact ⟨ret', out', hparse, hok, hfail⟩
  · rintro ⟨ret, out, hparse, hok, hfail⟩
    refine ⟨ret, after, out, ?_, hok, hfail⟩
    rw [hcall, hparse]
    rfl

theorem fetches_sendable {answer response : Option Response} {value : D} {after : Option BasicConfig}
    (hregister : registerFirst json crypto hmac config registerDraw answer value = some (0, after))
    (h : Fetches json crypto hmac config outConfig draw registerDraw answer value response) :
    Sendable config 0 getLlmConfigApi draw := by
  obtain ⟨ret, after', out, hcall, -⟩ := h
  rw [getLlmConfig, hregister] at hcall
  dsimp only at hcall
  rw [if_neg (fun h => h rfl)] at hcall
  obtain ⟨request, hrequest, -⟩ := Option.bind_eq_some_iff.mp hcall
  exact (newRequest_isSome_iff _ hmac).mp (hrequest ▸ Option.isSome_some)

theorem fetches_sent {answer response : Option Response} {value : D} {after : Option BasicConfig}
    (hregister : registerFirst json crypto hmac config registerDraw answer value = some (0, after))
    (hsend : Sendable config 0 getLlmConfigApi draw) :
    Fetches json crypto hmac config outConfig draw registerDraw answer value response ↔
      (outConfig ≠ none → ∀ r, response = some r → Complete json crypto (after.bind BasicConfig.deviceSecret) r) := by
  cases response with
  | none =>
      refine iff_of_true (fetches_failed after llmErrNetworkFail (by decide) ?_) (fun _ _ hr => nomatch hr)
      rw [getLlmConfig_sent hregister hsend]
      rfl
  | some r =>
      rw [fetches_answered hregister hsend]
      cases outConfig with
      | none => exact iff_of_true parses_nowhere (fun hnone => absurd rfl hnone)
      | some out =>
          rw [parses_iff]
          constructor
          · rintro hcomplete - _ ⟨⟩
            exact hcomplete
          · exact fun h => h (Option.some_ne_none out) r rfl

/-- `get_llm_config` reports the truth just when registering stays within bounds, the request can be made and an answer
with a key that decrypts has status 200, a key and a URL. -/
theorem fetches_iff (json : CJson J D) (crypto : Crypto) (hmac : Bytes → Bytes → Bytes) (config : BasicConfig)
    (outConfig : Option AigwLlmConfig) (draw registerDraw : Draw) (answer : Option Response) (value : D)
    (response : Option Response) :
    Fetches json crypto hmac config outConfig draw registerDraw answer value response ↔
      Answered json crypto hmac config outConfig draw registerDraw answer value response := by
  rw [Answered]
  cases hregister : registerFirst json crypto hmac config registerDraw answer value with
  | none =>
      refine iff_of_false ?_ (fun ⟨_, _, hsome, _⟩ => nomatch hsome)
      rintro ⟨ret, after, out, hcall, -⟩
      rw [getLlmConfig, hregister] at hcall
      exact nomatch hcall
  | some first =>
      obtain ⟨registered, after⟩ := first
      by_cases hzero : registered = 0
      · subst hzero
        constructor
        · intro h
          have hsend := fetches_sendable hregister h
          exact ⟨0, after, rfl, fun _ => ⟨hsend, (fetches_sent hregister hsend).mp h⟩⟩
        · rintro ⟨_, _, ⟨⟩, h⟩
          exact (fetches_sent hregister (h rfl).1).mpr (h rfl).2
      · refine iff_of_true (fetches_failed after llmErrDevRegFailed (by decide) ?_)
          ⟨registered, after, rfl, fun h => absurd h hzero⟩
        rw [getLlmConfig, hregister]
        exact if_pos hzero

end Fetching

section EmptyAnswer

/-- `"Result":` with an object that has no members, in braces. -/
def emptyText : Bytes := ascii "\x7b\"Result\":\x7b\x7d\x7d".toList

def emptyTree : Tree := .object [(resultKey, .object [])]

def registeredConfig : BasicConfig := { unregistered with deviceSecret := some (List.replicate 24 97) }

theorem registeredConfig_sendable : Sendable registeredConfig 0 getLlmConfigApi noDraw where
  instanceId := Option.some_ne_none _
  names := ⟨[112], [100], rfl, rfl, by decide⟩
  url := by decide

def serverError : Response := ⟨500, 0, some emptyText, emptyText.length⟩

/-- The answer to a failed request fills a configuration with empty strings. -/
theorem serverError_accepted :
    ¬Fetches (treeJson emptyText emptyTree) emptyCrypto (fun _ _ => []) registeredConfig
      (some ⟨none, none⟩) noDraw noDraw
      none 0 (some serverError) := by
  have hdecode : aesDecode emptyCrypto ((some registeredConfig).bind BasicConfig.deviceSecret) [] false =
    some (some []) :=
    aesDecode_nothing rfl (by decide) rfl
  have hresult : resultOf (treeJson emptyText emptyTree) serverError = some (.object []) := rfl
  have hkey : awsJsonGetStr (treeJson emptyText emptyTree) (some (.object [])) apiKeyKey = [] := rfl
  have hregister : registerFirst (treeJson emptyText emptyTree) emptyCrypto
    (fun _ _ => []) registeredConfig noDraw none 0 =
      some (0, some registeredConfig) := rfl
  rw [fetches_answered hregister registeredConfig_sendable, parses_iff]
  intro hcomplete
  obtain ⟨decoded, hdecoded, hchecked⟩ := hcomplete _ hresult
  rw [hkey, hdecode] at hdecoded
  cases hdecoded
  exact absurd (hchecked (Option.some_ne_none [])).1 (by decide)

end EmptyAnswer

end OneSdk.LlmConfig
