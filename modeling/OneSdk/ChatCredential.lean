import OneSdk.AesDecode
import OneSdk.HttpTls
import OneSdk.Printing

namespace OneSdk.ChatCredential

open CString HttpTls Printing

def chatCompletionsPath : Bytes := ascii "/v1/chat/completions".toList

def bearer : Bytes := ascii "Bearer ".toList

def fullPathSize : Nat := 256

def authHeaderSize : Nat := 256

def authHdrSize : Nat := 1024

structure ChatContext where
  http : Ctx
  bearerToken : Bytes

section Init

variable (parser : UriParser)

/-- `chat_request_context_init`: what it returns, or nothing where an array is overrun. -/
def chatRequestContextInit (endpoint : Option Bytes) (apiKey : Bytes) : Option (Option ChatContext) :=
  match endpoint with
  | none => some none
  | some endpoint =>
      if (cstr endpoint).length = 0 then some none
      else
        let fullPath := snprintf fullPathSize (cstr endpoint ++ chatCompletionsPath)
        (httpCtxSetUrl parser newHttpCtx (some fullPath)).map (fun http =>
          let authHeader := snprintf authHeaderSize (bearer ++ cstr apiKey)
          some ⟨http, authHeader⟩)

def appendHandshakeHeader (apiKey : Bytes) : Option Bytes := sprintf authHdrSize (bearer ++ cstr apiKey)

/-- Both channels name the whole key, and the chat request goes to the whole URL. -/
def PresentsCredential (endpoint apiKey : Bytes) : Prop :=
  (∃ ctx, chatRequestContextInit parser (some endpoint) apiKey = some (some ctx) ∧
    ctx.bearerToken = bearer ++ cstr apiKey ∧
    httpCtxSetUrl parser newHttpCtx (some (cstr endpoint ++ chatCompletionsPath)) = some ctx.http) ∧
  appendHandshakeHeader apiKey = some (bearer ++ cstr apiKey)

variable {parser} {ctx next : Ctx} {text endpoint apiKey : Bytes}

theorem setUrl_short (hlen : text.length < urlCopySize) (ctx : Ctx) :
    ∃ next, httpCtxSetUrl parser ctx (some text) = some next := by
  rw [httpCtxSetUrl]
  by_cases hempty : text = []
  · rw [if_pos hempty]
    exact ⟨_, rfl⟩
  · rw [if_neg hempty, if_neg (not_le.mpr hlen)]
    cases parser.parse text <;> exact ⟨_, rfl⟩

theorem setScheme_url (scheme : Bytes) (ctx : Ctx) : (setScheme scheme ctx).url = ctx.url := by
  rw [setScheme]
  split <;> split <;> split <;> rfl

theorem setUrl_url (hne : text ≠ []) (h : httpCtxSetUrl parser ctx (some text) = some next) : next.url = some text := by
  rw [httpCtxSetUrl, if_neg hne] at h
  split at h
  · exact absurd h.symm (Option.some_ne_none _)
  · split at h
    · rw [← Option.some.inj h]
    · rw [← Option.some.inj h, setScheme_url]

theorem setUrl_snprintf_iff (hne : endpoint ≠ []) :
    httpCtxSetUrl parser newHttpCtx (some (snprintf fullPathSize (endpoint ++ chatCompletionsPath))) =
        httpCtxSetUrl parser newHttpCtx (some (endpoint ++ chatCompletionsPath)) ↔
      endpoint.length + chatCompletionsPath.length < fullPathSize := by
  rw [← List.length_append, ← snprintf_eq_self (show 0 < fullPathSize by decide)]
  constructor
  · intro h
    have hcut : snprintf fullPathSize (endpoint ++ chatCompletionsPath) ≠ [] := by
      intro hnil
      have hlen := congrArg List.length hnil
      have hpos : 0 < endpoint.length := List.length_pos_iff.mpr hne
      rw [snprintf, List.length_take, List.length_append, List.length_nil, fullPathSize] at hlen
      omega
    obtain ⟨next, hnext⟩ := setUrl_short
      (show (snprintf fullPathSize (endpoint ++ chatCompletionsPath)).length < urlCopySize from
        (snprintf_length (by decide)).trans (by decide)) newHttpCtx
    have hwhole : endpoint ++ chatCompletionsPath ≠ [] := fun hnil => hne (List.append_eq_nil_iff.mp hnil).1
    have hurl := setUrl_url hwhole (h.symm.trans hnext)
    exact Option.some.inj ((setUrl_url hcut hnext).symm.trans hurl)
  · intro h
    rw [h]

theorem chatRequestContextInit_some (parser : UriParser) (apiKey : Bytes) (hne : (cstr endpoint).length ≠ 0) :
    ∃ http, httpCtxSetUrl parser newHttpCtx
      (some (snprintf fullPathSize (cstr endpoint ++ chatCompletionsPath))) = some http ∧
      chatRequestContextInit parser (some endpoint) apiKey =
        some (some ⟨http, snprintf authHeaderSize (bearer ++ cstr apiKey)⟩) := by
  obtain ⟨http, hhttp⟩ := setUrl_short
    (show (snprintf fullPathSize (cstr endpoint ++ chatCompletionsPath)).length < urlCopySize from
      (snprintf_length (by decide)).trans (by decide)) newHttpCtx
  refine ⟨http, hhttp, ?_⟩
  rw [chatRequestContextInit]
  dsimp only
  rw [if_neg hne, hhttp, Option.map_some]

theorem appendHandshakeHeader_decoded {cipher : AesDecode.BlockCipher} {secret encryptData : Bytes} {truncated : Bool}
    (h : DynReg.aesDecode (AesDecode.crypto cipher) (some secret) encryptData truncated = some (some apiKey)) :
    appendHandshakeHeader apiKey = some (bearer ++ apiKey) := by
  obtain ⟨hlen, hzero⟩ := AesDecode.aesDecode_string h
  have hbearer : bearer.length = 7 := rfl
  rw [appendHandshakeHeader, cstr_eq_self.mpr hzero]
  apply sprintf_eq_some.mpr
  refine ⟨?_, rfl⟩
  rw [List.length_append, hbearer, authHdrSize]
  change apiKey.length < 512 at hlen
  omega

variable (parser)

/-- The chat request is the channel that decides: its two arrays are the shorter ones. -/
theorem presentsCredential_iff (endpoint apiKey : Bytes) :
    PresentsCredential parser endpoint apiKey ↔
      (cstr apiKey).length ≤ 248 ∧ 0 < (cstr endpoint).length ∧ (cstr endpoint).length ≤ 235 := by
  have hbearer : (bearer ++ cstr apiKey).length = 7 + (cstr apiKey).length := List.length_append
  have hpath : chatCompletionsPath.length = 20 := rfl
  constructor
  · rintro ⟨⟨ctx, hctx, htoken, haddress⟩, -⟩
    have hne : (cstr endpoint).length ≠ 0 := by
      intro hzero
      rw [chatRequestContextInit] at hctx
      dsimp only at hctx
      rw [if_pos hzero] at hctx
      exact absurd (Option.some.inj hctx).symm (Option.some_ne_none _)
    obtain ⟨http, hhttp, hinit⟩ := chatRequestContextInit_some parser apiKey hne
    rw [hinit] at hctx
    rw [← Option.some.inj (Option.some.inj hctx)] at htoken haddress
    have hkey := (snprintf_eq_self (show 0 < authHeaderSize by decide)).mp htoken
    have hurl := (setUrl_snprintf_iff (fun hnil => hne (congrArg List.length hnil))).mp (hhttp.trans haddress.symm)
    rw [hbearer, authHeaderSize] at hkey
    rw [hpath, fullPathSize] at hurl
    omega
  · rintro ⟨hkey, hpos, hlen⟩
    obtain ⟨http, hhttp, hinit⟩ := chatRequestContextInit_some parser apiKey hpos.ne'
    have hurl : (cstr endpoint).length + chatCompletionsPath.length < fullPathSize := by
      rw [hpath, fullPathSize]
      omega
    refine ⟨⟨_, hinit, ?_, ?_⟩, ?_⟩
    · apply (snprintf_eq_self (by decide)).mpr
      rw [hbearer, authHeaderSize]
      omega
    · rw [← hhttp]
      exact ((setUrl_snprintf_iff (List.length_pos_iff.mp hpos)).mpr hurl).symm
    · apply sprintf_eq_some.mpr
      refine ⟨?_, rfl⟩
      rw [hbearer, authHdrSize]
      omega

end Init

section Samples

def longKey : Bytes := List.replicate 249 107

def sampleEndpoint : Bytes := ascii "https://ai".toList

/-- The last character of the key is missing in the chat request alone. -/
theorem longKey_cut : ¬PresentsCredential sampleParser sampleEndpoint longKey ∧
    appendHandshakeHeader longKey = some (bearer ++ longKey) := by
  have hcstr : cstr longKey = longKey := by
    apply cstr_eq_self.mpr
    intro h
    exact absurd (List.eq_of_mem_replicate h) (by decide)
  have hbearer : (bearer ++ longKey).length = 256 := by
    rw [List.length_append, longKey, List.length_replicate]
    rfl
  refine ⟨?_, ?_⟩
  · rintro ⟨⟨ctx, hctx, htoken, -⟩, -⟩
    obtain ⟨http, -, hinit⟩ := chatRequestContextInit_some sampleParser longKey
      (show (cstr sampleEndpoint).length ≠ 0 by decide)
    rw [hinit] at hctx
    rw [← Option.some.inj (Option.some.inj hctx)] at htoken
    have hfits := (snprintf_eq_self (show 0 < authHeaderSize by decide)).mp htoken
    rw [hcstr, hbearer] at hfits
    exact absurd hfits (by decide)
  · rw [appendHandshakeHeader, hcstr]
    apply sprintf_eq_some.mpr
    refine ⟨?_, rfl⟩
    rw [hbearer]
    decide

end Samples

end OneSdk.ChatCredential
