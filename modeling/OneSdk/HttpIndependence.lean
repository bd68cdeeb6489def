import OneSdk.HttpProcess

namespace OneSdk.HttpIndependence

open Runs ErrorCode CString HttpClient HttpTerminal HttpProcess

def untilCompleted : RequestContext → List Pass → List Pass × Bool
  | http, [] => ([], http.isConnectionCompleted)
  | http, pass :: passes =>
      if http.isConnectionCompleted then ([], true)
      else if pass.result < 0 then ([pass], true)
      else
        let rest := untilCompleted (service http pass.callbacks).1 passes
        (pass :: rest.1, rest.2)

def starts (net : Network) : Prop := net.created = true ∧ net.info = 0 ∧ net.connected = true

instance (net : Network) : Decidable (starts net) := inferInstanceAs (Decidable (_ ∧ _ ∧ _))

/-- What a request has to process, from the context and the behaviour of lws alone. -/
def due (http : RequestContext) (net : Network) : List Pass × Bool :=
  if starts net then untilCompleted (service { http with isAsyncRequest := false } net.connecting).1 net.passes
  else ([], true)

def Whole (c : Client) (net : Network) : Prop :=
  ((httpRequest c net).serving.served, (httpRequest c net).serving.returned) = due c.http net

/-- The request goes through all that it has to process, and reads no string that is gone. -/
def Processes (c : Client) (net : Network) : Prop :=
  Whole c net ∧ .gone ∉ (httpRequest c net).serving.client.authorizations

def answer (o : Reply) : Option (Option (Int × Option Bytes × Nat)) :=
  if o.serving.returned then some (o.response.map (fun r => (r.errorCode, r.responseBody, r.bodySize))) else none

def Independent (w₁ w₂ : World) (http : RequestContext) (net : Network) : Prop :=
  Processes (w₁.client http) net ∧ Processes (w₂.client http) net ∧
    answer (httpRequest (w₁.client http) net) = answer (httpRequest (w₂.client http) net)

def isConnectionError : Reason → Bool
  | .connectionError _ => true
  | _ => false

/-- No request of the process has been told that its connection failed. -/
def Unbroken (w : World) : Prop := ∀ r ∈ w.heard, isConnectionError r = false

def completes : Int → List Reason → Bool
  | _, [] => false
  | _, .connectionError _ :: _ => true
  | _, .closed :: _ => true
  | status, .appendHandshakeHeader _ :: rs => completes status rs
  | status, .completed :: rs => decide (status ≤ 300) || completes status rs
  | _, .established status :: rs => completes status rs
  | status, .filterPreEstablish _ _ :: rs => completes status rs
  | status, .read _ :: rs => completes status rs

/-- The request needs no service: it does not start, or it is over when it starts. -/
def OverAtOnce (http : RequestContext) (net : Network) : Prop :=
  starts net → http.isConnectionCompleted = true ∨ completes http.response.errorCode net.connecting = true

def dueCallbacks (http : RequestContext) (net : Network) : List Reason :=
  if net.created = true ∧ net.info = 0 then net.connecting ++ (due http net).1.flatMap Pass.callbacks else []

/-- The handshake of the request comes to the point where the credentials are read. -/
def Shakes (http : RequestContext) (net : Network) : Prop := .appendHandshakeHeader true ∈ dueCallbacks http net

def Event.brings (part : RequestContext → Option Pointer) : Event → Option Pointer
  | .request _ http net => if net.created then part http else none
  | .requestAsync _ http net => if net.created then part http else none
  | _ => none

def lastBrought (part : RequestContext → Option Pointer) (es : List Event) : Option Pointer :=
  es.foldl (fun last e => (Event.brings part e).or last) none

/-- The user and the password that this request brings, or else the last that an earlier
one has brought, are both still there, if there are both. -/
def Readable (es : List Event) (http : RequestContext) : Prop :=
  ∀ user ∈ http.authUser.or (lastBrought RequestContext.authUser es),
    ∀ password ∈ http.authPassword.or (lastBrought RequestContext.authPassword es),
      ((after es).process.strings user).isSome = true ∧ ((after es).process.strings password).isSome = true

variable {c : Client} {http : RequestContext} {net : Network} {w : World}

theorem service_completes (h : http.isConnectionCompleted = false) (rs : List Reason) :
    (service http rs).1.isConnectionCompleted = completes http.response.errorCode rs := by
  induction rs generalizing http with
  | nil => exact h
  | cons r rs ih =>
      rw [service]
      cases r with
      | connectionError text => exact service_stays_completed rfl rs
      | appendHandshakeHeader taken => exact ih h
      | filterPreEstablish contentType transferEncoding => exact ih h
      | established status => exact ih h
      | read body =>
          have hcode := congrArg (fun s => s.2.2.2.2.2) (read_settings http body)
          exact (ih ((read_completed body).trans h)).trans (congrArg (completes · rs) hcode)
      | completed =>
          rw [callbackOnesdkHttp, onCompleted, completes]
          split
          next hs => rw [ih h, decide_eq_false (Int.not_le.mpr hs), Bool.false_or]
          next hs => rw [service_stays_completed rfl rs, decide_eq_true (Int.not_lt.mp hs), Bool.true_or]
      | closed => exact service_stays_completed rfl rs

theorem service_completed (http : RequestContext) (rs : List Reason) :
    (service http rs).1.isConnectionCompleted =
    (http.isConnectionCompleted || completes http.response.errorCode rs) := by
  cases h : http.isConnectionCompleted with
  | true => exact service_stays_completed h rs
  | false => exact service_completes h rs

theorem overAtOnce_iff :
    OverAtOnce http net ↔
      (starts net → (service { http with isAsyncRequest := false } net.connecting).1.isConnectionCompleted = true) := by
  rw [OverAtOnce, service_completed, Bool.or_eq_true]

/-- The callbacks that stop the loops of the whole process complete their own request. -/
def Settled (c : Client) : Prop := c.process.interrupted = true → c.http.isConnectionCompleted = true

theorem hear_settled (h : Settled c) (r : Reason) : Settled (c.hear r) := by
  intro hi
  cases r with
  | connectionError text => rfl
  | appendHandshakeHeader taken => exact callback_completed (h hi) _
  | filterPreEstablish contentType transferEncoding => exact callback_completed (h hi) _
  | established status => exact callback_completed (h hi) _
  | read body => exact callback_completed (h hi) _
  | completed => exact callback_completed (h hi) _
  | closed => rfl

theorem hearAll_settled (h : Settled c) (rs : List Reason) : Settled (c.hearAll rs) := by
  induction rs generalizing c with
  | nil => exact h
  | cons r rs ih => exact ih (hear_settled h r)

theorem hear_interrupted (c : Client) (r : Reason) :
    (c.hear r).process.interrupted = (c.process.interrupted || isConnectionError r) := by
  cases r with
  | connectionError text => exact (Bool.or_true _).symm
  | appendHandshakeHeader | filterPreEstablish | established | read | completed | closed =>
      exact (Bool.or_false _).symm

theorem hearAll_interrupted (h : c.process.interrupted = true) (rs : List Reason) :
    (c.hearAll rs).process.interrupted = true := by
  induction rs generalizing c with
  | nil => exact h
  | cons r rs ih =>
      apply ih
      rw [hear_interrupted, h, Bool.true_or]

theorem hearAll_settled_iff (rs : List Reason) :
    Settled (c.hearAll rs) ↔ c.process.interrupted = false ∨ (c.hearAll rs).http.isConnectionCompleted = true := by
  constructor
  · intro h
    cases hi : c.process.interrupted with
    | false => exact .inl rfl
    | true => exact .inr (h (hearAll_interrupted hi rs))
  · rintro (hi | hc)
    · exact hearAll_settled (fun h => absurd (hi.symm.trans h) Bool.false_ne_true) rs
    · exact fun _ => hc

theorem serviceLoop_client (watch : Bool) (c : Client) (passes : List Pass) :
    (serviceLoop watch c passes).client = c.hearAll ((serviceLoop watch c passes).served.flatMap Pass.callbacks) := by
  induction passes generalizing c with
  | nil => rfl
  | cons pass passes ih =>
      rw [serviceLoop]
      split
      · rfl
      · split
        · rw [List.flatMap_singleton]
        · rw [List.flatMap_cons, hearAll_append]
          exact ih _

theorem serviceLoop_settled (h : Settled c) (passes : List Pass) :
    ((serviceLoop true c passes).served, (serviceLoop true c passes).returned) = untilCompleted c.http passes := by
  have hwatch {c : Client} (h : Settled c) :
      (c.http.isConnectionCompleted || true && c.process.interrupted) = c.http.isConnectionCompleted := by
    rw [Bool.true_and, Bool.or_eq_left_iff_imp]
    exact h
  induction passes generalizing c with
  | nil => rw [serviceLoop, untilCompleted, hwatch h]
  | cons pass passes ih =>
      rw [serviceLoop, untilCompleted, hwatch h]
      split
      · rfl
      · split
        · rfl
        · have hrest := ih (hearAll_settled h pass.callbacks)
          rw [hearAll_http] at hrest
          rw [← hrest]

theorem serviceLoop_interrupted (hi : c.process.interrupted = true) (hc : c.http.isConnectionCompleted = false)
    (passes : List Pass) :
    ((serviceLoop true c passes).served, (serviceLoop true c passes).returned) ≠ untilCompleted c.http passes := by
  cases passes with
  | nil =>
      rw [serviceLoop, untilCompleted, hi, hc]
      simp
  | cons pass passes =>
      have hloop : serviceLoop true c (pass :: passes) = ⟨c, [], true⟩ := by simp [serviceLoop, hi]
      have hne : (untilCompleted c.http (pass :: passes)).1 ≠ [] := by
        rw [untilCompleted, hc, if_neg Bool.false_ne_true]
        split <;> simp
      rw [hloop]
      exact fun h => hne (congrArg Prod.fst h).symm

theorem serviceLoop_whole_iff (c : Client) (passes : List Pass) :
    ((serviceLoop true c passes).served, (serviceLoop true c passes).returned) = untilCompleted c.http passes ↔
      Settled c := by
  refine ⟨fun h hi => ?_, fun h => serviceLoop_settled h passes⟩
  by_contra hc
  exact serviceLoop_interrupted hi (Bool.eq_false_iff.mpr hc) passes h

def opening (c : Client) (net : Network) : Client := (c.setAsync false).initConnectInfo.hearAll net.connecting

theorem opening_http (c : Client) (net : Network) :
    (opening c net).http = (service { c.http with isAsyncRequest := false } net.connecting).1 := hearAll_http _ _

theorem httpRequest_cases (c : Client) (net : Network) :
    (net.created = false ∧
      httpRequest c net = ⟨⟨(c.setAsync false).setInnerErrorCode volcErrInvalidHttpContext, [], true⟩, none⟩) ∨
    (net.created = true ∧ net.info ≠ 0 ∧
      httpRequest c net =
        ⟨⟨((c.setAsync false).initConnectInfo.setInnerErrorCode net.info).setErrorCode 1, [], true⟩, none⟩) ∨
    (net.created = true ∧ net.info = 0 ∧ net.connected = false ∧
      httpRequest c net =
        ⟨⟨(((opening c net).setInnerErrorCode volcErrHttpConnFailed).setBad 2).setErrorCode volcErrHttpConnFailed, [],
          true⟩, none⟩) ∨
    (starts net ∧
      httpRequest c net =
        ⟨serviceLoop true (opening c net) net.passes,
          some (serviceLoop true (opening c net) net.passes).client.http.response⟩) := by
  cases hcreated : net.created with
  | false => exact .inl ⟨rfl, by simp [httpRequest, lwsHttpClientInit, hcreated, volcErrInvalidHttpContext]⟩
  | true =>
      by_cases hinfo : net.info = 0
      · cases hconnected : net.connected with
        | false =>
            refine .inr (.inr (.inl ⟨rfl, hinfo, rfl, ?_⟩))
            simp [httpRequest, lwsHttpClientInit, lwsHttpClientConnect, hcreated, hinfo, hconnected, volcOk, opening,
              volcErrHttpConnFailed]
        | true =>
            refine .inr (.inr (.inr ⟨⟨hcreated, hinfo, hconnected⟩, ?_⟩))
            simp [httpRequest, lwsHttpClientInit, lwsHttpClientConnect, hcreated, hinfo, hconnected, volcOk, opening]
      · refine .inr (.inl ⟨rfl, hinfo, ?_⟩)
        simp [httpRequest, lwsHttpClientInit, lwsHttpClientConnect, hcreated, hinfo, volcOk]

theorem httpRequest_starts (h : starts net) :
    httpRequest c net =
      ⟨serviceLoop true (opening c net) net.passes,
        some (serviceLoop true (opening c net) net.passes).client.http.response⟩ := by
  obtain ⟨hcreated, hinfo, hconnected⟩ := h
  rcases httpRequest_cases c net with ⟨h, -⟩ | ⟨-, h, -⟩ | ⟨-, -, h, -⟩ | ⟨-, heq⟩
  · exact absurd (hcreated.symm.trans h) (by simp)
  · exact absurd hinfo h
  · exact absurd (hconnected.symm.trans h) (by simp)
  · exact heq

theorem httpRequest_not_starts (h : ¬starts net) :
    (httpRequest c net).serving.served = [] ∧ (httpRequest c net).serving.returned = true ∧
      (httpRequest c net).response = none := by
  rcases httpRequest_cases c net with ⟨-, heq⟩ | ⟨-, -, heq⟩ | ⟨-, -, -, heq⟩ | ⟨hs, -⟩
  · rw [heq]
    exact ⟨rfl, rfl, rfl⟩
  · rw [heq]
    exact ⟨rfl, rfl, rfl⟩
  · rw [heq]
    exact ⟨rfl, rfl, rfl⟩
  · exact absurd hs h

theorem whole_iff (c : Client) (net : Network) :
    Whole c net ↔ c.process.interrupted = false ∨ OverAtOnce c.http net := by
  rw [Whole, due, overAtOnce_iff]
  by_cases h : starts net
  · rw [if_pos h, httpRequest_starts h, ← opening_http, serviceLoop_whole_iff, opening, hearAll_settled_iff,
      forall_prop_of_true h]
    rfl
  · obtain ⟨hserved, hreturned, -⟩ := httpRequest_not_starts (c := c) h
    rw [if_neg h, hserved, hreturned]
    exact iff_of_true rfl (.inr fun hs => absurd hs h)

theorem answer_eq {c₁ c₂ : Client} (hhttp : c₁.http = c₂.http) (h₁ : Whole c₁ net) (h₂ : Whole c₂ net) :
    answer (httpRequest c₁ net) = answer (httpRequest c₂ net) := by
  have hserving : ((httpRequest c₁ net).serving.served, (httpRequest c₁ net).serving.returned) =
      ((httpRequest c₂ net).serving.served, (httpRequest c₂ net).serving.returned) := by
    rw [Whole] at h₁ h₂
    rw [h₁, h₂, hhttp]
  obtain ⟨hserved, hreturned⟩ := Prod.mk.inj hserving
  have hresponse : (httpRequest c₁ net).response = (httpRequest c₂ net).response := by
    by_cases h : starts net
    · rw [httpRequest_starts h, httpRequest_starts h] at hserved ⊢
      dsimp only at hserved ⊢
      rw [serviceLoop_client, serviceLoop_client, hserved, hearAll_http, hearAll_http, opening_http,
        opening_http, hhttp]
    · rw [(httpRequest_not_starts h).2.2, (httpRequest_not_starts h).2.2]
  rw [answer, answer, hreturned, hresponse]

theorem hear_gone_iff (c : Client) (r : Reason) :
    .gone ∈ (c.hear r).authorizations ↔
      .gone ∈ c.authorizations ∨ .appendHandshakeHeader true = r ∧ c.process.authorization = .gone := by
  rw [Client.hear, List.mem_append]
  apply or_congr_right
  cases r with
  | appendHandshakeHeader taken => cases taken <;> simp [authorized, eq_comm]
  | connectionError | filterPreEstablish | established | read | completed | closed => simp [authorized]

theorem hear_authorization (c : Client) (r : Reason) : (c.hear r).process.authorization = c.process.authorization := by
  cases r with
  | connectionError | appendHandshakeHeader | filterPreEstablish | established | read | completed | closed => rfl

theorem hearAll_authorization (c : Client) (rs : List Reason) :
    (c.hearAll rs).process.authorization = c.process.authorization := by
  induction rs generalizing c with
  | nil => rfl
  | cons r rs ih => exact (ih (c.hear r)).trans (hear_authorization c r)

theorem hearAll_gone_iff (c : Client) (rs : List Reason) :
    .gone ∈ (c.hearAll rs).authorizations ↔
      .gone ∈ c.authorizations ∨ .appendHandshakeHeader true ∈ rs ∧ c.process.authorization = .gone := by
  induction rs generalizing c with
  | nil => simp [Client.hearAll]
  | cons r rs ih =>
      have hrest := ih (c.hear r)
      rw [hear_gone_iff, hear_authorization, or_assoc, ← or_and_right, ← List.mem_cons] at hrest
      exact hrest

theorem httpRequest_gone_iff (hnew : c.authorizations = []) (h : Whole c net) :
    .gone ∈ (httpRequest c net).serving.client.authorizations ↔
      Shakes c.http net ∧ c.initConnectInfo.process.authorization = .gone := by
  have hopening : .gone ∈ (opening c net).authorizations ↔
      .appendHandshakeHeader true ∈ net.connecting ∧ c.initConnectInfo.process.authorization = .gone := by
    have hall := hearAll_gone_iff (c.setAsync false).initConnectInfo net.connecting
    rwa [show (c.setAsync false).initConnectInfo.authorizations = [] from hnew, or_iff_right List.not_mem_nil] at hall
  rw [Shakes, dueCallbacks, ← h]
  rcases httpRequest_cases c net with ⟨hcreated, heq⟩ | ⟨-, hinfo, heq⟩ | ⟨hcreated, hinfo, -, heq⟩ | ⟨hs, heq⟩
  · rw [if_neg (fun hn => absurd (hcreated.symm.trans hn.1) (by simp)), heq]
    exact iff_of_false (hnew ▸ List.not_mem_nil) (fun hn => List.not_mem_nil hn.1)
  · rw [if_neg (fun hn => hinfo hn.2), heq]
    exact iff_of_false (hnew ▸ List.not_mem_nil) (fun hn => List.not_mem_nil hn.1)
  · rw [if_pos ⟨hcreated, hinfo⟩, heq, List.flatMap_nil, List.append_nil]
    exact hopening
  · rw [if_pos ⟨hs.1, hs.2.1⟩, heq, serviceLoop_client, hearAll_gone_iff, hopening, opening, hearAll_authorization,
      List.mem_append, or_and_right]
    exact Iff.rfl

theorem processes_iff (w : World) (http : RequestContext) (net : Network) :
    Processes (w.client http) net ↔
      (w.process.interrupted = false ∨ OverAtOnce http net) ∧
        (Shakes http net → (w.client http).initConnectInfo.process.authorization ≠ .gone) := by
  have hwhole := whole_iff (w.client http) net
  constructor
  · rintro ⟨h, hgone⟩
    exact ⟨hwhole.mp h, fun hs ha => hgone ((httpRequest_gone_iff rfl h).mpr ⟨hs, ha⟩)⟩
  · rintro ⟨h, hgone⟩
    have hw := hwhole.mpr h
    exact ⟨hw, fun ha => hgone ((httpRequest_gone_iff rfl hw).mp ha).1 ((httpRequest_gone_iff rfl hw).mp ha).2⟩

def Recorded (c : Client) : Prop := c.process.interrupted = c.heard.any isConnectionError

theorem hearAll_recorded (h : Recorded c) (rs : List Reason) : Recorded (c.hearAll rs) := by
  induction rs generalizing c with
  | nil => exact h
  | cons r rs ih =>
      apply ih
      rw [Recorded, hear_interrupted, h]
      simp [Client.hear]

theorem serviceLoop_recorded (watch : Bool) (h : Recorded c) (passes : List Pass) :
    Recorded (serviceLoop watch c passes).client := by
  induction passes generalizing c with
  | nil => exact h
  | cons pass passes ih =>
      rw [serviceLoop]
      split
      · exact h
      · split
        · exact hearAll_recorded h _
        · exact ih (hearAll_recorded h _)

theorem init_recorded (h : Recorded c) : Recorded (lwsHttpClientInit c net).1 := by
  rw [lwsHttpClientInit]
  split
  · exact h
  · exact h

theorem connect_recorded (h : Recorded c) : Recorded (lwsHttpClientConnect c net).1 := by
  have hinfo : Recorded c.initConnectInfo := h
  rw [lwsHttpClientConnect]
  dsimp only
  split
  · exact h
  · split
    · exact hearAll_recorded hinfo _
    · exact hearAll_recorded hinfo _

theorem httpRequest_recorded (h : Recorded c) : Recorded (httpRequest c net).serving.client := by
  have hinit : Recorded (lwsHttpClientInit (c.setAsync false) net).1 := init_recorded h
  rw [httpRequest]
  dsimp only
  split
  · exact hinit
  · split
    · exact connect_recorded hinit
    · exact serviceLoop_recorded true (connect_recorded hinit) _

theorem httpRequestAsync_recorded (h : Recorded c) : Recorded (httpRequestAsync c net) := by
  have hinit : Recorded (lwsHttpClientInit (c.setAsync true) net).1 := init_recorded h
  rw [httpRequestAsync]
  dsimp only
  split
  · exact hinit
  · split
    · exact connect_recorded hinit
    · exact connect_recorded hinit

def InStep (w : World) : Prop := w.process.interrupted = w.heard.any isConnectionError

theorem next_inStep (h : InStep w) (e : Event) : InStep (next w e) := by
  cases e with
  | request id http net => exact httpRequest_recorded (c := w.client http) h
  | requestAsync id http net => exact httpRequestAsync_recorded (c := w.client http) h
  | waitComplete id passes => exact serviceLoop_recorded false (c := w.client _) h passes
  | release id closing => exact hearAll_recorded (c := { w.client (w.contexts id) with http := _ }) h closing
  | setString p s => exact h

theorem after_inStep (es : List Event) : InStep (after es) :=
  @final_of_invariant _ _ process InStep (fun _ e h _ => next_inStep h e) .initial rfl es
    (everyStep_of_forall (fun _ _ => trivial) _ es)

theorem unbroken_iff (es : List Event) : Unbroken (after es) ↔ (after es).process.interrupted = false := by
  rw [after_inStep es, List.any_eq_false, Unbroken]
  simp only [Bool.not_eq_true]

def credentials (g : Process) : Option Pointer × Option Pointer := (g.baUser, g.baPassword)

theorem hearAll_credentials (c : Client) (rs : List Reason) :
    credentials (c.hearAll rs).process = credentials c.process := by
  induction rs generalizing c with
  | nil => rfl
  | cons r rs ih =>
      refine (ih (c.hear r)).trans ?_
      cases r with
      | connectionError | appendHandshakeHeader | filterPreEstablish | established | read | completed | closed => rfl

theorem connect_credentials (c : Client) (net : Network) :
    credentials (lwsHttpClientConnect c net).1.process = credentials c.initConnectInfo.process := by
  rw [lwsHttpClientConnect]
  dsimp only
  split
  · rfl
  · split
    · exact hearAll_credentials _ _
    · exact hearAll_credentials _ _

theorem httpRequest_credentials (c : Client) (net : Network) :
    credentials (httpRequest c net).serving.client.process =
      credentials (if net.created then c.initConnectInfo.process else c.process) := by
  rcases httpRequest_cases c net with ⟨hcreated, heq⟩ | ⟨hcreated, -, heq⟩ | ⟨hcreated, -, -, heq⟩ | ⟨hs, heq⟩
  · rw [heq, hcreated]
    rfl
  · rw [heq, hcreated]
    rfl
  · rw [heq, hcreated]
    exact hearAll_credentials _ _
  · rw [heq, hs.1, serviceLoop_client, hearAll_credentials]
    exact hearAll_credentials _ _

theorem httpRequestAsync_credentials (c : Client) (net : Network) :
    credentials (httpRequestAsync c net).process =
      credentials (if net.created then c.initConnectInfo.process else c.process) := by
  cases hcreated : net.created with
  | false =>
      have hne : volcErrInvalidHttpContext ≠ 0 := by decide
      simp only [httpRequestAsync, lwsHttpClientInit, hcreated, Bool.false_eq_true, if_false, if_pos hne]
      rfl
  | true =>
      have hconnect := connect_credentials (c.setAsync true) net
      simp only [httpRequestAsync, lwsHttpClientInit, hcreated, if_true, volcOk, ne_eq, not_true, if_false]
      split
      · exact hconnect
      · exact hconnect

theorem next_credentials (w : World) (e : Event) :
    credentials (next w e).process =
      ((Event.brings RequestContext.authUser e).or w.process.baUser,
        (Event.brings RequestContext.authPassword e).or w.process.baPassword) := by
  cases e with
  | request id http net =>
      refine (httpRequest_credentials (w.client http) net).trans ?_
      rw [Event.brings, Event.brings]
      split <;> rfl
  | requestAsync id http net =>
      refine (httpRequestAsync_credentials (w.client http) net).trans ?_
      rw [Event.brings, Event.brings]
      split <;> rfl
  | waitComplete id passes =>
      refine (congrArg (fun c : Client => credentials c.process) (serviceLoop_client false _ passes)).trans ?_
      exact hearAll_credentials _ _
  | release id closing => exact hearAll_credentials _ _
  | setString p s => rfl

theorem after_credentials (es : List Event) :
    credentials (after es).process = (lastBrought RequestContext.authUser es,
      lastBrought RequestContext.authPassword es) := by
  have hfinal (w : World) : credentials (final process w es).process =
      (es.foldl (fun last e => (Event.brings RequestContext.authUser e).or last) w.process.baUser,
        es.foldl (fun last e => (Event.brings RequestContext.authPassword e).or last) w.process.baPassword) := by
    induction es generalizing w with
    | nil => rfl
    | cons e es ih =>
        obtain ⟨huser, hpassword⟩ := Prod.mk.inj (next_credentials w e)
        rw [final, ih, List.foldl_cons, List.foldl_cons, ← huser, ← hpassword]
        rfl
  exact hfinal .initial

theorem authorization_iff (g : Process) :
    g.authorization ≠ .gone ↔
      ∀ user ∈ g.baUser, ∀ password ∈ g.baPassword,
        (g.strings user).isSome = true ∧ (g.strings password).isSome = true := by
  rw [Process.authorization]
  cases g.baUser with
  | none => simp
  | some user =>
      cases g.baPassword with
      | none => simp
      | some password =>
          cases huser : g.strings user with
          | none => simp [huser]
          | some s =>
              cases hpassword : g.strings password with
              | none => simp [huser, hpassword]
              | some t => simp [huser, hpassword]

theorem readable_iff (es : List Event) (http : RequestContext) :
    Readable es http ↔ ((after es).client http).initConnectInfo.process.authorization ≠ .gone := by
  obtain ⟨huser, hpassword⟩ := Prod.mk.inj (after_credentials es)
  rw [Readable, ← huser, ← hpassword, authorization_iff]
  rfl

/-- A request is independent of what the process has done before just when no earlier
request has been told that its connection failed, or when it needs no service, and when
its handshake does not come to credentials that are gone. -/
theorem independent_iff (es₁ es₂ : List Event) (http : RequestContext) (net : Network) :
    Independent (after es₁) (after es₂) http net ↔
      ((Unbroken (after es₁) ∧ Unbroken (after es₂)) ∨ OverAtOnce http net) ∧
        (Shakes http net → Readable es₁ http ∧ Readable es₂ http) := by
  rw [unbroken_iff, unbroken_iff, readable_iff, readable_iff, and_or_right]
  constructor
  · rintro ⟨h₁, h₂, -⟩
    obtain ⟨hw₁, hr₁⟩ := (processes_iff _ _ _).mp h₁
    obtain ⟨hw₂, hr₂⟩ := (processes_iff _ _ _).mp h₂
    exact ⟨⟨hw₁, hw₂⟩, fun hs => ⟨hr₁ hs, hr₂ hs⟩⟩
  · rintro ⟨⟨hw₁, hw₂⟩, hr⟩
    have hp₁ := (processes_iff (after es₁) http net).mpr ⟨hw₁, fun hs => (hr hs).1⟩
    have hp₂ := (processes_iff (after es₂) http net).mpr ⟨hw₂, fun hs => (hr hs).2⟩
    exact ⟨hp₁, hp₂, answer_eq rfl hp₁.1 hp₂.1⟩

def failedRequest : Event := .request 0 newHttpCtx ⟨true, 0, [], true, [⟨[.connectionError none], 0⟩]⟩

def goodNetwork : Network :=
  ⟨true, 0, [], true,
    [⟨[.appendHandshakeHeader true, .filterPreEstablish [] [], .established 200], 0⟩, ⟨[.read [104, 105]], 0⟩,
      ⟨[.completed, .closed], 0⟩]⟩

/-- A request with a user and a password, which the application releases when it is over. -/
def authorizedRequest : List Event :=
  [.setString 1 (some [117]), .setString 2 (some [112]),
    .request 0 { newHttpCtx with authUser := some 1, authPassword := some 2 } goodNetwork, .setString 1 none,
    .setString 2 none]

/-- In the fresh process the answer comes; after the failure the call returns at once with
the status 0 and no body. After the request with credentials the handshake reads them where
they are gone. -/
theorem goodNetwork_unanswered :
    answer (httpRequest ((after []).client newHttpCtx) goodNetwork) = some (some (200, some [104, 105], 2)) ∧
      answer (httpRequest ((after [failedRequest]).client newHttpCtx) goodNetwork) = some (some (0, none, 0)) ∧
      (httpRequest ((after [failedRequest]).client newHttpCtx) goodNetwork).serving.served = [] ∧
      ¬Independent (after []) (after [failedRequest]) newHttpCtx goodNetwork ∧
      (httpRequest ((after authorizedRequest).client newHttpCtx) goodNetwork).serving.client.authorizations = [.gone] ∧
      ¬Independent (after []) (after authorizedRequest) newHttpCtx goodNetwork := by
  refine ⟨by decide, by decide, by decide, ?_, by decide, ?_⟩
  · rintro ⟨-, -, h⟩
    exact absurd h (by decide)
  · rintro ⟨-, ⟨-, h⟩, -⟩
    exact h (by decide)

end OneSdk.HttpIndependence
