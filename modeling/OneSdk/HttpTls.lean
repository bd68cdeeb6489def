import Mathlib.Data.List.Induction
import OneSdk.CString

namespace OneSdk.HttpTls

open CString

def http : Bytes := text "http"

def https : Bytes := text "https"

def separator : Bytes := text "://"

def httpPrefix : Bytes := http ++ separator

def httpsPrefix : Bytes := https ++ separator

def httpPort : Int := 80

def httpsPort : Int := 443

/-- What `lws_parse_uri` finds in a URL. The port is none where it leaves the caller's as it is. -/
structure Uri where
  scheme : Bytes
  host : Bytes
  path : Bytes
  port : Option Int

/-- `lws_parse_uri`, which cuts off the separator and knows the ports of the two schemes. -/
structure UriParser where
  parse : Bytes → Option Uri
  bare : ∀ {text uri}, parse text = some uri → ¬separator <:+: uri.scheme
  known : ∀ {text uri}, parse text = some uri → uri.scheme = http ∨ uri.scheme = https → uri.port.isSome = true

structure Ctx where
  url : Option Bytes
  port : Int
  host : Option Bytes
  path : Option Bytes
  caCrt : Option Bytes
  isSsl : Bool
  verifySsl : Bool

def newHttpCtx : Ctx := ⟨none, 0, none, none, none, false, false⟩

def urlCopySize : Nat := 1024

/-- The three comparisons at the end of `http_ctx_set_url`. -/
def setScheme (scheme : Bytes) (ctx : Ctx) : Ctx :=
  let ctx :=
    if scheme = httpsPrefix then
      { ctx with isSsl := true, port := if ctx.port = 0 then httpsPort else ctx.port }
    else ctx
  let ctx :=
    if scheme = httpPrefix then
      { ctx with isSsl := false, port := if ctx.port = 0 then httpPort else ctx.port }
    else ctx
  if scheme = [] then { ctx with isSsl := false } else ctx

/-- None where the copy of the URL runs over its array. -/
def httpCtxSetUrl (parser : UriParser) (ctx : Ctx) (purl : Option Bytes) : Option Ctx :=
  match purl with
  | none => some ctx
  | some text =>
      if text = [] then some ctx
      else if urlCopySize ≤ text.length then none
      else
        match parser.parse text with
        | none => some { ctx with url := some text }
        | some uri =>
            some (setScheme uri.scheme
              { ctx with
                url := some text, port := uri.port.getD ctx.port, host := some uri.host, path := some uri.path })

def httpCtxSetCaCrt (ctx : Ctx) (caCrt : Option Bytes) : Ctx :=
  match caCrt with
  | none => ctx
  | some crt => { ctx with isSsl := true, caCrt := some crt }

def httpCtxSetVerifySsl (ctx : Ctx) (verifySsl : Bool) : Ctx := { ctx with verifySsl := verifySsl }

structure SslConnection where
  useSsl : Bool
  allowSelfsigned : Bool
  allowExpired : Bool
  allowInsecure : Bool

structure ConnectInfo where
  port : Int
  address : Option Bytes
  path : Option Bytes
  sslConnection : SslConnection

def initClientConnectInfo (ctx : Ctx) : ConnectInfo :=
  let none : SslConnection := ⟨false, false, false, false⟩
  let ssl := if ctx.caCrt.isSome = true ∨ ctx.port = httpsPort then ⟨true, false, false, false⟩ else none
  let ssl := if ctx.caCrt.isSome = true ∨ ctx.isSsl = true then ⟨true, false, false, false⟩ else ssl
  let ssl :=
    if ctx.verifySsl then ssl
    else { ssl with allowSelfsigned := true, allowExpired := true, allowInsecure := true }
  ⟨ctx.port, ctx.host, ctx.path, ssl⟩

structure Url (parser : UriParser) where
  text : Bytes
  uri : Uri
  text_ne : text ≠ []
  text_nul : (0 : UInt8) ∉ text
  parses : parser.parse text = some uri

inductive Call (parser : UriParser) where
  | setUrl (url : Url parser)
  | setCaCrt (caCrt : Option Bytes)
  | setVerifySsl (verifySsl : Bool)

variable {parser : UriParser}

def apply (ctx : Ctx) : Call parser → Option Ctx
  | .setUrl url => httpCtxSetUrl parser ctx (some url.text)
  | .setCaCrt caCrt => some (httpCtxSetCaCrt ctx caCrt)
  | .setVerifySsl verifySsl => some (httpCtxSetVerifySsl ctx verifySsl)

def prepare (calls : List (Call parser)) : Option Ctx := calls.foldlM apply newHttpCtx

def Call.url : Call parser → Option (Url parser)
  | .setUrl url => some url
  | _ => none

def lastUrl (calls : List (Call parser)) : Option (Url parser) := (calls.filterMap Call.url).getLast?

theorem prepare_append (calls : List (Call parser)) (c : Call parser) :
    prepare (calls ++ [c]) = (prepare calls).bind (fun ctx => apply ctx c) := by
  rw [prepare, List.foldlM_append, Option.bind_eq_bind, ← prepare]
  apply Option.bind_congr
  intro ctx _
  rw [List.foldlM_cons, Option.bind_eq_bind]
  exact Option.bind_fun_some _

def GivesCa (calls : List (Call parser)) : Prop := ∃ crt, .setCaCrt (some crt) ∈ calls

/-- TLS for https and none for http without a CA, whatever the port. -/
def Secures (calls : List (Call parser)) : Prop :=
  ∃ ctx, prepare calls = some ctx ∧ ∀ url, lastUrl calls = some url →
    (url.uri.scheme = https → (initClientConnectInfo ctx).sslConnection.useSsl = true) ∧
    (url.uri.scheme = http → ¬GivesCa calls → (initClientConnectInfo ctx).sslConnection.useSsl = false)

structure Decided (calls : List (Call parser)) (ctx : Ctx) : Prop where
  ssl : ctx.isSsl = true → ctx.caCrt.isSome = true
  ca : ctx.caCrt.isSome = true ↔ GivesCa calls
  port : ∀ url, lastUrl calls = some url → ∀ port, url.uri.port = some port → ctx.port = port

section Steps

variable {ctx next : Ctx} {calls : List (Call parser)}

/-- The scheme comes without its separator, so neither prefix is ever found. -/
theorem setScheme_bare {scheme : Bytes} (h : ¬separator <:+: scheme) (ctx : Ctx) :
    setScheme scheme ctx = if scheme = [] then { ctx with isSsl := false } else ctx := by
  have hhttps : scheme ≠ httpsPrefix := by
    rintro rfl
    exact h (List.suffix_append https separator).isInfix
  have hhttp : scheme ≠ httpPrefix := by
    rintro rfl
    exact h (List.suffix_append http separator).isInfix
  rw [setScheme, if_neg hhttps, if_neg hhttp]

theorem setUrl_long {url : Url parser} (h : urlCopySize ≤ url.text.length) (ctx : Ctx) :
    httpCtxSetUrl parser ctx (some url.text) = none := by
  simp only [httpCtxSetUrl]
  rw [if_neg url.text_ne, if_pos h]

theorem setUrl_fits {url : Url parser} (h : url.text.length < urlCopySize) (ctx : Ctx) :
    httpCtxSetUrl parser ctx (some url.text) =
      some (setScheme url.uri.scheme
        { ctx with
          url := some url.text, port := url.uri.port.getD ctx.port, host := some url.uri.host,
          path := some url.uri.path }) := by
  simp only [httpCtxSetUrl]
  rw [if_neg url.text_ne, if_neg (Nat.not_le.mpr h), url.parses]

theorem lastUrl_setUrl (calls : List (Call parser)) (url : Url parser) :
    lastUrl (calls ++ [.setUrl url]) = some url := by
  rw [lastUrl, List.filterMap_append]
  exact List.getLast?_concat

theorem lastUrl_other {c : Call parser} (h : c.url = none) (calls : List (Call parser)) :
    lastUrl (calls ++ [c]) = lastUrl calls := by
  rw [lastUrl, List.filterMap_append, List.filterMap_cons_none h, List.filterMap_nil, List.append_nil, lastUrl]

theorem givesCa_append (calls : List (Call parser)) (c : Call parser) :
    GivesCa (calls ++ [c]) ↔ GivesCa calls ∨ ∃ crt, c = .setCaCrt (some crt) := by
  constructor
  · rintro ⟨crt, hcrt⟩
    rcases List.mem_append.mp hcrt with hold | hnew
    · exact Or.inl ⟨crt, hold⟩
    · exact Or.inr ⟨crt, (List.mem_singleton.mp hnew).symm⟩
  · rintro (⟨crt, hold⟩ | ⟨crt, rfl⟩)
    · exact ⟨crt, List.mem_append_left [c] hold⟩
    · exact ⟨crt, List.mem_append_right calls (List.mem_singleton_self _)⟩

theorem Decided.setUrl (h : Decided calls ctx) {url : Url parser} (hfit : url.text.length < urlCopySize) :
    ∃ next, apply ctx (.setUrl url) = some next ∧ Decided (calls ++ [.setUrl url]) next := by
  have hca : GivesCa (calls ++ [.setUrl url]) ↔ GivesCa calls := by
    rw [givesCa_append]
    simp
  refine ⟨_, setUrl_fits hfit ctx, ?_⟩
  rw [setScheme_bare (parser.bare url.parses)]
  constructor
  · split
    · intro hssl
      exact absurd hssl Bool.false_ne_true
    · exact h.ssl
  · rw [hca, ← h.ca]
    split <;> rfl
  · rintro last hlast port hport
    rw [lastUrl_setUrl] at hlast
    rw [← Option.some.inj hlast] at hport
    have hkeep : url.uri.port.getD ctx.port = port := by rw [hport, Option.getD_some]
    split <;> exact hkeep

theorem Decided.setCaCrt (h : Decided calls ctx) (caCrt : Option Bytes) :
    Decided (calls ++ [.setCaCrt caCrt]) (httpCtxSetCaCrt ctx caCrt) := by
  cases caCrt with
  | none =>
      refine ⟨h.ssl, ?_, ?_⟩
      · rw [givesCa_append, ← h.ca]
        simp [httpCtxSetCaCrt]
      · rw [lastUrl_other rfl]
        exact h.port
  | some crt =>
      refine ⟨fun _ => rfl, ?_, ?_⟩
      · exact iff_of_true rfl ((givesCa_append calls _).mpr (Or.inr ⟨crt, rfl⟩))
      · rw [lastUrl_other rfl]
        exact h.port

theorem Decided.setVerifySsl (h : Decided calls ctx) (verifySsl : Bool) :
    Decided (calls ++ [.setVerifySsl verifySsl]) (httpCtxSetVerifySsl ctx verifySsl) := by
  refine ⟨h.ssl, ?_, ?_⟩
  · rw [givesCa_append, ← h.ca]
    simp [httpCtxSetVerifySsl]
  · rw [lastUrl_other rfl]
    exact h.port

theorem Decided.apply (h : Decided calls ctx) (c : Call parser)
    (hfit : ∀ url, c = .setUrl url → url.text.length < urlCopySize) :
    ∃ next, apply ctx c = some next ∧ Decided (calls ++ [c]) next := by
  cases c with
  | setUrl url => exact h.setUrl (hfit url rfl)
  | setCaCrt caCrt => exact ⟨_, rfl, h.setCaCrt caCrt⟩
  | setVerifySsl verifySsl => exact ⟨_, rfl, h.setVerifySsl verifySsl⟩

theorem prepare_decided (calls : List (Call parser))
    (hfit : ∀ url, .setUrl url ∈ calls → url.text.length < urlCopySize) :
    ∃ ctx, prepare calls = some ctx ∧ Decided calls ctx := by
  induction calls using List.reverseRecOn with
  | nil =>
      refine ⟨newHttpCtx, rfl, fun hssl => absurd hssl Bool.false_ne_true, ?_, fun url hlast => nomatch hlast⟩
      exact iff_of_false Bool.false_ne_true (fun ⟨_, hcrt⟩ => nomatch hcrt)
  | append_singleton calls c ih =>
      obtain ⟨ctx, hctx, hdecided⟩ := ih (fun url hurl => hfit url (List.mem_append_left [c] hurl))
      have hlast : ∀ url, c = .setUrl url → url.text.length < urlCopySize := by
        rintro url rfl
        exact hfit url (List.mem_append_right calls (List.mem_singleton_self _))
      obtain ⟨next, hnext, hdecided⟩ := hdecided.apply c hlast
      refine ⟨next, ?_, hdecided⟩
      rw [prepare_append, hctx, Option.bind_some, hnext]

theorem prepare_fits (h : prepare calls = some ctx) :
    ∀ url, .setUrl url ∈ calls → url.text.length < urlCopySize := by
  induction calls using List.reverseRecOn generalizing ctx with
  | nil => exact fun url hurl => nomatch hurl
  | append_singleton calls c ih =>
      rw [prepare_append] at h
      obtain ⟨before, hbefore, hc⟩ := Option.bind_eq_some_iff.mp h
      intro url hurl
      rcases List.mem_append.mp hurl with hold | hnew
      · exact ih hbefore url hold
      · rw [← List.mem_singleton.mp hnew, apply] at hc
        by_contra hlong
        rw [setUrl_long (Nat.not_lt.mp hlong)] at hc
        exact nomatch hc

theorem useSsl_iff (ctx : Ctx) :
    (initClientConnectInfo ctx).sslConnection.useSsl = true ↔
      ctx.caCrt.isSome = true ∨ ctx.port = httpsPort ∨ ctx.isSsl = true := by
  have hverify : (initClientConnectInfo ctx).sslConnection.useSsl =
      (initClientConnectInfo { ctx with verifySsl := true }).sslConnection.useSsl := by
    rw [initClientConnectInfo, initClientConnectInfo]
    cases ctx.verifySsl <;> rfl
  rw [hverify, initClientConnectInfo]
  by_cases hca : ctx.caCrt.isSome = true
  · simp [hca]
  · by_cases hssl : ctx.isSsl = true
    · simp [hssl]
    · by_cases hport : ctx.port = httpsPort
      · simp [hport]
      · simp [hca, hssl, hport]

theorem Decided.useSsl (h : Decided calls ctx) :
    (initClientConnectInfo ctx).sslConnection.useSsl = true ↔ GivesCa calls ∨ ctx.port = httpsPort := by
  rw [useSsl_iff, ← h.ca]
  constructor
  · rintro (hca | hport | hssl)
    · exact Or.inl hca
    · exact Or.inr hport
    · exact Or.inl (h.ssl hssl)
  · rintro (hca | hport)
    · exact Or.inl hca
    · exact Or.inr (Or.inl hport)

theorem Decided.port_iff (h : Decided calls ctx) {url : Url parser} (hlast : lastUrl calls = some url)
    (hscheme : url.uri.scheme = http ∨ url.uri.scheme = https) :
    ctx.port = httpsPort ↔ url.uri.port = some httpsPort := by
  obtain ⟨port, hport⟩ := Option.isSome_iff_exists.mp (parser.known url.parses hscheme)
  rw [h.port url hlast port hport, hport, Option.some.injEq]

end Steps

section Sample

def onHttpsPort : Bytes := http ++ separator ++ text "h:443/"

def offHttpsPort : Bytes := https ++ separator ++ text "h:8443/"

def sampleParse (url : Bytes) : Option Uri :=
  if url = onHttpsPort then some ⟨http, text "h", text "/", some 443⟩
  else if url = offHttpsPort then some ⟨https, text "h", text "/", some 8443⟩
  else none

theorem sampleParse_cases {text : Bytes} {uri : Uri} (h : sampleParse text = some uri) :
    (uri.scheme = http ∨ uri.scheme = https) ∧ uri.port.isSome = true := by
  rw [sampleParse] at h
  split at h
  · rw [← Option.some.inj h]
    exact ⟨Or.inl rfl, rfl⟩
  · split at h
    · rw [← Option.some.inj h]
      exact ⟨Or.inr rfl, rfl⟩
    · exact nomatch h

def sampleParser : UriParser where
  parse := sampleParse
  bare h := by
    rcases (sampleParse_cases h).1 with hscheme | hscheme
    · rw [hscheme]
      decide
    · rw [hscheme]
      decide
  known h _ := (sampleParse_cases h).2

def plainUrl : Url sampleParser :=
  ⟨onHttpsPort, ⟨http, text "h", text "/", some 443⟩, by decide, by decide, rfl⟩

def secureUrl : Url sampleParser :=
  ⟨offHttpsPort, ⟨https, text "h", text "/", some 8443⟩, by decide, by decide, rfl⟩

end Sample

/-- A CA or the port of https makes a request secure, and without a CA plain http is in clear
text on every other port. -/
theorem tls_decided (parser : UriParser) (calls : List (Call parser))
    (hfit : ∀ url, .setUrl url ∈ calls → url.text.length < urlCopySize) :
    ∃ ctx, prepare calls = some ctx ∧ ∀ url, lastUrl calls = some url →
      (url.uri.scheme = https → GivesCa calls ∨ url.uri.port = some httpsPort →
        (initClientConnectInfo ctx).sslConnection.useSsl = true) ∧
      (url.uri.scheme = http → ¬GivesCa calls →
        ((initClientConnectInfo ctx).sslConnection.useSsl = true ↔ url.uri.port = some httpsPort)) := by
  obtain ⟨ctx, hctx, hdecided⟩ := prepare_decided calls hfit
  refine ⟨ctx, hctx, fun url hlast => ⟨?_, ?_⟩⟩
  · intro hscheme hgiven
    rw [hdecided.useSsl, hdecided.port_iff hlast (Or.inr hscheme)]
    exact hgiven
  · intro hscheme hca
    rw [hdecided.useSsl, or_iff_right hca, hdecided.port_iff hlast (Or.inl hscheme)]

theorem tls_decided_sample :
    ∃ ctx, prepare [Call.setUrl secureUrl, .setCaCrt (some [1])] = some ctx ∧
      (initClientConnectInfo ctx).sslConnection.useSsl = true := by
  obtain ⟨ctx, hctx, hall⟩ := tls_decided sampleParser [.setUrl secureUrl, .setCaCrt (some [1])] (by
    intro url hurl
    rcases List.mem_cons.mp hurl with hfirst | hrest
    · rw [Call.setUrl.inj hfirst]
      decide
    · exact absurd hrest (by simp))
  exact ⟨ctx, hctx, (hall secureUrl rfl).1 rfl (Or.inl ⟨[1], by simp⟩)⟩

/-- Only the port and the CA tell the two schemes apart. -/
theorem secures_iff (calls : List (Call parser)) :
    Secures calls ↔ (∀ url, .setUrl url ∈ calls → url.text.length < urlCopySize) ∧
      ∀ url, lastUrl calls = some url →
        (url.uri.scheme = https → GivesCa calls ∨ url.uri.port = some httpsPort) ∧
        (url.uri.scheme = http → GivesCa calls ∨ url.uri.port ≠ some httpsPort) := by
  constructor
  · rintro ⟨ctx, hctx, hall⟩
    have hfit := prepare_fits hctx
    obtain ⟨same, hsame, hdecided⟩ := prepare_decided calls hfit
    obtain rfl : ctx = same := Option.some.inj (hctx.symm.trans hsame)
    refine ⟨hfit, fun url hlast => ⟨?_, ?_⟩⟩
    · intro hscheme
      rw [← hdecided.port_iff hlast (Or.inr hscheme)]
      exact hdecided.useSsl.mp ((hall url hlast).1 hscheme)
    · intro hscheme
      rw [Ne, ← hdecided.port_iff hlast (Or.inl hscheme)]
      by_contra hnot
      obtain ⟨hca, hon⟩ := not_or.mp hnot
      have hoff := (hall url hlast).2 hscheme hca
      rw [hdecided.useSsl.mpr (Or.inr (not_not.mp hon))] at hoff
      exact absurd hoff.symm Bool.false_ne_true
  · rintro ⟨hfit, hall⟩
    obtain ⟨ctx, hctx, hdecided⟩ := prepare_decided calls hfit
    refine ⟨ctx, hctx, fun url hlast => ⟨?_, ?_⟩⟩
    · intro hscheme
      rw [hdecided.useSsl, hdecided.port_iff hlast (Or.inr hscheme)]
      exact (hall url hlast).1 hscheme
    · intro hscheme hca
      rw [← Bool.not_eq_true, hdecided.useSsl, hdecided.port_iff hlast (Or.inl hscheme), not_or]
      exact ⟨hca, ((hall url hlast).2 hscheme).resolve_left hca⟩

/-- Plain http on the port of https is encrypted, and https on another port is not. -/
theorem port_overrides_scheme : ¬Secures [.setUrl plainUrl] ∧ ¬Secures [.setUrl secureUrl] := by
  constructor
  · intro h
    rcases (((secures_iff _).mp h).2 plainUrl rfl).2 rfl with ⟨crt, hcrt⟩ | hport
    · simp at hcrt
    · exact hport rfl
  · intro h
    rcases (((secures_iff _).mp h).2 secureUrl rfl).1 rfl with ⟨crt, hcrt⟩ | hport
    · simp at hcrt
    · exact absurd hport (by decide)

end OneSdk.HttpTls
