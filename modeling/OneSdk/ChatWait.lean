import OneSdk.HttpProcess

namespace OneSdk.ChatWait

open ErrorCode CString HttpClient HttpTerminal HttpProcess

def streamRequest : RequestContext :=
  { newHttpCtx with
    onCompleteCb := some ⟨1, 0⟩
    onGetSseCb := some ⟨2, 0⟩
    onErrorCb := some ⟨3, 0⟩ }

def chatSendStreamRequest (g : Process) (net : Network) : Client := httpRequestAsync ⟨g, streamRequest, [], [], []⟩ net

/-- Nothing where `http_wait_complete` does not return. -/
def chatWaitComplete (s : Serving) : Option Int :=
  let httpCode := s.client.http.response.errorCode
  if s.returned then some (if 0 < httpCode ∧ httpCode < 300 then 0 else httpCode) else none

def completedCbCalled (onesdkChatCompletedCb : Bool) (calls : List Call) : Bool :=
  onesdkChatCompletedCb && decide (.complete ∈ calls.filterMap outcome)

/-- What `onesdk_chat_wait` returns after a streaming `onesdk_chat`, and whether the
application has heard of the completion by then. -/
def onesdkChatWait (onesdkChatCompletedCb : Bool) (g : Process) (net : Network) : Option Int × Bool :=
  let s := serviceLoop false (chatSendStreamRequest g net) net.passes
  (chatWaitComplete s, completedCbCalled onesdkChatCompletedCb s.client.calls)

/-- How a request can go: it does not start, the connection is refused at once or without
a word, or there is a connection. -/
inductive Behaviour where
  | notCreated
  | badInfo
  | notConnected (told : Option (Option Bytes))
  | connected (c : Connection)

def Behaviour.callbacks : Behaviour → List Reason
  | .notCreated => []
  | .badInfo => []
  | .notConnected none => []
  | .notConnected (some text) => [.connectionError text]
  | .connected c => c.callbacks

def Behaviour.Starts (net : Network) : Behaviour → Prop
  | .notCreated => net.created = false
  | .badInfo => net.created = true ∧ net.info ≠ 0
  | .notConnected _ => net.created = true ∧ net.info = 0 ∧ net.connected = false
  | .connected _ => net.created = true ∧ net.info = 0 ∧ net.connected = true

def Plays (net : Network) (b : Behaviour) : Prop :=
  b.Starts net ∧ net.connecting ++ net.passes.flatMap Pass.callbacks = b.callbacks ∧
    ∀ pass ∈ net.passes, 0 ≤ pass.result

/-- The call returns, and its result tells whether the application heard of the completion. -/
def Truthful (g : Process) (net : Network) : Prop :=
  ∃ code, (onesdkChatWait true g net).1 = some code ∧ (code = 0 ↔ (onesdkChatWait true g net).2 = true)

/-- A failure to connect that lws tells of before it returns, a completed answer whose
status is not 300, or an answer of status 300 or more that is cut off. -/
def Behaviour.Plain : Behaviour → Prop
  | .notCreated => False
  | .badInfo => False
  | .notConnected told => told.isSome = true
  | .connected (.refused _) => False
  | .connected (.served _ _ status _ completed) =>
      if completed then 0 ≤ status ∧ status ≠ 300 else status < 0 ∨ 300 ≤ status

variable {http : RequestContext} {c : Client} {conn : Connection} {g : Process} {net : Network} {b : Behaviour}
  {rs rest : List Reason} {passes : List Pass}

theorem reads_completed (http : RequestContext) (reads : List Bytes) :
    (service http (reads.map .read)).1.isConnectionCompleted = http.isConnectionCompleted := by
  induction reads generalizing http with
  | nil => rfl
  | cons body reads ih => exact (ih (onRead http body).1).trans (read_completed body)

theorem rest_of_completed (head : List Reason) {tail : List Reason}
    (hopen : (service http head).1.isConnectionCompleted = false)
    (h : rs ++ rest = head ++ tail) (hdone : (service http rs).1.isConnectionCompleted = true) :
    ∃ r late, tail = r :: late ++ rest := by
  rcases List.append_eq_append_iff.mp h with ⟨late, hhead, -⟩ | ⟨late, hrs, htail⟩
  · rw [hhead, service_append, service_stays_completed hdone] at hopen
    exact absurd hopen (by simp)
  · cases late with
    | nil =>
        rw [hrs, List.append_nil, hopen] at hdone
        exact absurd hdone (by simp)
    | cons r late => exact ⟨r, late, htail⟩

theorem connection_rest (hopen : http.isConnectionCompleted = false) (h : rs ++ rest = conn.callbacks)
    (hdone : (service http rs).1.isConnectionCompleted = true) : rest = [] ∨ rest = [.closed] := by
  cases conn with
  | refused text =>
      obtain ⟨r, late, htail⟩ := rest_of_completed [] hopen h hdone
      exact .inl (List.append_eq_nil_iff.mp (List.cons.inj htail).2.symm).2
  | served contentType transferEncoding status reads completed =>
      rw [Connection.callbacks, List.append_assoc] at h
      have hhead : (service http ([.filterPreEstablish contentType transferEncoding, .established status] ++
          reads.map .read)).1.isConnectionCompleted = false := by
        rw [service_append, reads_completed]
        exact hopen
      obtain ⟨r, late, htail⟩ := rest_of_completed _ hhead h hdone
      cases completed with
      | false => exact .inl (List.append_eq_nil_iff.mp (List.cons.inj htail).2.symm).2
      | true =>
          rcases List.append_eq_singleton_iff.mp (List.cons.inj htail).2.symm with ⟨-, hrest⟩ | ⟨-, hrest⟩
          · exact .inr hrest
          · exact .inl hrest

def verdict (http : RequestContext) (rs : List Reason) : Int × Prop :=
  ((service http rs).1.response.errorCode, .complete ∈ (service http rs).2.filterMap outcome)

theorem verdict_closed (http : RequestContext) (rs : List Reason) :
    verdict http (rs ++ [.closed]) = verdict http rs := by
  rw [verdict, verdict, service_append]
  simp [service, callbackOnesdkHttp]

theorem verdict_completed (hopen : http.isConnectionCompleted = false) (h : rs ++ rest = conn.callbacks)
    (hdone : (service http rs).1.isConnectionCompleted = true) : verdict http rs = verdict http conn.callbacks := by
  rcases connection_rest hopen h hdone with rfl | rfl
  · rw [← h, List.append_nil]
  · rw [← h, verdict_closed]

theorem verdict_refused (http : RequestContext) (text : Option Bytes) :
    verdict http (Connection.refused text).callbacks = (http.response.errorCode, False) := by
  have hend := connectionError_terminals http text
  simp only [verdict, Connection.callbacks, service, callbackOnesdkHttp, List.append_nil, hend]
  cases http.onErrorCb with
  | none => simp [onConnectionError]
  | some cb => simp [onConnectionError]

theorem onCompleted_errorCode (http : RequestContext) :
    (onCompleted http).1.response.errorCode = http.response.errorCode := by
  rw [onCompleted]
  split <;> rfl

theorem verdict_served (h : http.onCompleteCb.isSome = true) (contentType transferEncoding : Bytes) (status : Int)
    (reads : List Bytes) (completed : Bool) :
    verdict http (Connection.served contentType transferEncoding status reads completed).callbacks =
      (status, completed = true ∧ status ≤ 300) := by
  have hcode : (service http
      (Connection.served contentType transferEncoding status reads completed).callbacks).1.response.errorCode =
        status := by
    have hreads := (reads_silent (opened http contentType transferEncoding status) reads).2
    rw [opened_settings] at hreads
    have hstatus := congrArg (fun s => s.2.2.2.2.2) hreads
    rw [Connection.callbacks, service_append, service_append, service_append, ← opened]
    cases completed with
    | false => exact hstatus
    | true => exact (onCompleted_errorCode _).trans hstatus
  have hterm := served_terminals http contentType transferEncoding status reads completed
  rw [terminals] at hterm
  rw [verdict, hcode, hterm, h]
  cases completed with
  | false => simp
  | true =>
      by_cases hs : 300 < status
      · simp only [if_true, if_pos hs, Int.not_le.mpr hs, and_false]
        cases http.onErrorCb <;> simp
      · simp [hs, Int.not_lt.mp hs]

/-- The loop stops in front of a pass, and only where the connection is complete or the
passes are used up. -/
theorem serviceLoop_stops (hresults : ∀ pass ∈ passes, 0 ≤ pass.result) :
    ∃ rs rest, passes.flatMap Pass.callbacks = rs ++ rest ∧ (serviceLoop false c passes).client = c.hearAll rs ∧
      (serviceLoop false c passes).returned = (c.hearAll rs).http.isConnectionCompleted ∧
      ((serviceLoop false c passes).returned = false → rest = []) := by
  induction passes generalizing c with
  | nil => exact ⟨[], [], rfl, rfl, by simp [serviceLoop, Client.hearAll], fun _ => rfl⟩
  | cons pass passes ih =>
      obtain ⟨hpass, hpasses⟩ := List.forall_mem_cons.mp hresults
      cases hdone : c.http.isConnectionCompleted with
      | true =>
          have hloop : serviceLoop false c (pass :: passes) = ⟨c, [], true⟩ := by simp [serviceLoop, hdone]
          rw [hloop]
          exact ⟨[], _, rfl, rfl, hdone.symm, fun h => absurd h (by simp)⟩
      | false =>
          obtain ⟨rs, rest, hflat, hclient, hreturned, hrest⟩ := ih (c := c.hearAll pass.callbacks) hpasses
          have hloop : serviceLoop false c (pass :: passes) =
              { serviceLoop false (c.hearAll pass.callbacks) passes with
                served := pass :: (serviceLoop false (c.hearAll pass.callbacks) passes).served } := by
            simp [serviceLoop, hdone, Int.not_lt.mpr hpass]
          rw [hloop]
          refine ⟨pass.callbacks ++ rs, rest, ?_, ?_, ?_, hrest⟩
          · rw [List.flatMap_cons, hflat, List.append_assoc]
          · rw [hearAll_append]
            exact hclient
          · rw [hearAll_append]
            exact hreturned

theorem code_zero_iff (code : Int) : (if 0 < code ∧ code < 300 then 0 else code) = 0 ↔ 0 ≤ code ∧ code < 300 := by
  split <;> omega

theorem truthful_iff {s : Serving} (hs : serviceLoop false (chatSendStreamRequest g net) net.passes = s) :
    Truthful g net ↔
      s.returned = true ∧
        (0 ≤ s.client.http.response.errorCode ∧ s.client.http.response.errorCode < 300 ↔
          .complete ∈ s.client.calls.filterMap outcome) := by
  rw [Truthful, onesdkChatWait, hs, chatWaitComplete, completedCbCalled]
  dsimp only
  cases s.returned with
  | false => simp
  | true =>
      rw [if_pos rfl]
      simp only [Option.some.injEq, exists_eq_left', code_zero_iff, Bool.true_and, decide_eq_true_eq, true_and]

def sent (g : Process) : Client := ⟨g, { streamRequest with isAsyncRequest := true }, [], [], []⟩

theorem connected_start (h : (Behaviour.connected conn).Starts net) :
    chatSendStreamRequest g net = (sent g).hearAll net.connecting := by
  obtain ⟨hcreated, hinfo, hconnected⟩ := h
  simp [chatSendStreamRequest, httpRequestAsync, lwsHttpClientInit, lwsHttpClientConnect, hcreated, hinfo, hconnected,
    volcOk, sent, Client.setAsync, Client.initConnectInfo, streamRequest, newHttpCtx]

theorem notConnected_start {told : Option (Option Bytes)} (h : (Behaviour.notConnected told).Starts net) :
    chatSendStreamRequest g net =
      ((((sent g).hearAll net.connecting).setInnerErrorCode volcErrHttpConnFailed).setBad 2).setErrorCode
        volcErrHttpConnFailed := by
  obtain ⟨hcreated, hinfo, hconnected⟩ := h
  simp [chatSendStreamRequest, httpRequestAsync, lwsHttpClientInit, lwsHttpClientConnect, hcreated, hinfo, hconnected,
    volcOk, sent, Client.setAsync, Client.initConnectInfo, streamRequest, newHttpCtx, volcErrHttpConnFailed]

theorem silent_untruthful (hopen : (chatSendStreamRequest g net).http.isConnectionCompleted = false)
    (hsilent : net.passes.flatMap Pass.callbacks = []) (hresults : ∀ pass ∈ net.passes, 0 ≤ pass.result) :
    ¬Truthful g net := by
  obtain ⟨rs, rest, hflat, -, hreturned, -⟩ := serviceLoop_stops (c := chatSendStreamRequest g net) hresults
  obtain ⟨rfl, rfl⟩ := List.append_eq_nil_iff.mp (hflat.symm.trans hsilent)
  rw [truthful_iff rfl, hreturned]
  intro h
  exact absurd (hopen.symm.trans h.1) Bool.false_ne_true

theorem connected_verdict (h : Plays net (.connected conn)) :
    Truthful g net ↔
      (0 ≤ (verdict (sent g).http conn.callbacks).1 ∧ (verdict (sent g).http conn.callbacks).1 < 300 ↔
        (verdict (sent g).http conn.callbacks).2) := by
  obtain ⟨hstart, hcallbacks, hresults⟩ := h
  obtain ⟨rs, rest, hflat, hclient, hreturned, hrest⟩ := serviceLoop_stops (c := chatSendStreamRequest g net) hresults
  rw [connected_start hstart, ← hearAll_append, hearAll_http] at hreturned
  rw [connected_start hstart, ← hearAll_append] at hclient
  rw [hflat, ← List.append_assoc] at hcallbacks
  have hdone : (service (sent g).http (net.connecting ++ rs)).1.isConnectionCompleted = true := by
    by_contra hopen
    have hnil := hrest (by rw [connected_start hstart, hreturned]; exact Bool.eq_false_iff.mpr hopen)
    rw [hnil, List.append_nil] at hcallbacks
    exact hopen (hcallbacks ▸ connection_completes _ conn)
  have hsame := verdict_completed rfl hcallbacks hdone
  rw [← hsame, truthful_iff rfl, connected_start hstart, hreturned, hclient, hearAll_http, hearAll_calls]
  exact and_iff_right hdone

theorem connected_truthful_iff (h : Plays net (.connected conn)) :
    Truthful g net ↔ (Behaviour.connected conn).Plain := by
  rw [connected_verdict h]
  cases conn with
  | refused text =>
      rw [verdict_refused]
      exact iff_of_false (fun h => h.mp ⟨Int.le_refl 0, show (0 : Int) < 300 by decide⟩) id
  | served contentType transferEncoding status reads completed =>
      rw [verdict_served rfl, Behaviour.Plain]
      cases completed with
      | false => simp; omega
      | true => simp; omega

theorem unstarted_untruthful (h : Plays net b) (hb : b = .notCreated ∨ b = .badInfo) : ¬Truthful g net := by
  obtain ⟨hstart, hcallbacks, hresults⟩ := h
  rcases hb with rfl | rfl
  · refine silent_untruthful ?_ (List.append_eq_nil_iff.mp hcallbacks).2 hresults
    rw [Behaviour.Starts] at hstart
    simp [chatSendStreamRequest, httpRequestAsync, lwsHttpClientInit, hstart, volcErrInvalidHttpContext,
      Client.setInnerErrorCode, setResponse, Client.setAsync, streamRequest, newHttpCtx]
  · refine silent_untruthful ?_ (List.append_eq_nil_iff.mp hcallbacks).2 hresults
    obtain ⟨hcreated, hinfo⟩ := hstart
    simp [chatSendStreamRequest, httpRequestAsync, lwsHttpClientInit, lwsHttpClientConnect, hcreated, hinfo, volcOk,
      Client.setInnerErrorCode, Client.setErrorCode, setResponse, Client.setAsync, Client.initConnectInfo,
      streamRequest, newHttpCtx]

theorem notConnected_truthful_iff {told : Option (Option Bytes)} (h : Plays net (.notConnected told)) :
    Truthful g net ↔ told.isSome = true := by
  obtain ⟨hstart, hcallbacks, hresults⟩ := h
  have hsend := notConnected_start (g := g) hstart
  cases told with
  | none =>
      obtain ⟨hconnecting, hpasses⟩ := List.append_eq_nil_iff.mp hcallbacks
      refine iff_of_false (silent_untruthful ?_ hpasses hresults) (by simp)
      rw [hsend, hconnecting]
      rfl
  | some text =>
      refine iff_of_true ?_ rfl
      obtain ⟨rs, rest, hflat, hclient, hreturned, hrest⟩ :=
        serviceLoop_stops (c := chatSendStreamRequest g net) hresults
      have hlate : ¬volcErrHttpConnFailed < 300 := by decide
      have herror : ¬Outcome.complete ∈ [Outcome.error] := by decide
      rcases List.append_eq_singleton_iff.mp hcallbacks with ⟨hconnecting, hpasses⟩ | ⟨hconnecting, hpasses⟩
      · rw [hconnecting] at hsend
        rcases List.append_eq_singleton_iff.mp (hflat.symm.trans hpasses) with ⟨rfl, hlost⟩ | ⟨rfl, -⟩
        · rw [hsend] at hreturned hrest
          rw [hrest hreturned] at hlost
          exact absurd hlost (by simp)
        · rw [truthful_iff rfl, hreturned, hclient, hsend]
          exact ⟨rfl, iff_of_false (fun h => hlate h.2) herror⟩
      · obtain ⟨rfl, rfl⟩ := List.append_eq_nil_iff.mp (hflat.symm.trans hpasses)
        rw [truthful_iff rfl, hreturned, hclient, hsend, hconnecting]
        exact ⟨rfl, iff_of_false (fun h => hlate h.2) herror⟩

/-- For every request and every behaviour of lws, in any number of passes, the result of
the wait agrees with the completion callback just in the plain cases. -/
theorem wait_truthful_iff (g : Process) (net : Network) (b : Behaviour) (h : Plays net b) :
    Truthful g net ↔ b.Plain := by
  cases b with
  | notCreated => exact iff_of_false (unstarted_untruthful h (.inl rfl)) id
  | badInfo => exact iff_of_false (unstarted_untruthful h (.inr rfl)) id
  | notConnected told => exact notConnected_truthful_iff h
  | connected conn => exact connected_truthful_iff h

def answered : Connection := .served eventStream [] 200 [text "data: x\n\n"] true

theorem answered_truthful : Truthful .initial ⟨true, 0, [], true, [⟨answered.callbacks, 0⟩]⟩ :=
  (wait_truthful_iff .initial _ (.connected answered) ⟨⟨rfl, rfl, rfl⟩, rfl, by simp⟩).mpr ⟨by decide, by decide⟩

/-- The connection is refused, or it closes in the middle of the events. Either wait
returns 0, and nobody has heard of a completion. -/
theorem refused_and_cut_off_untruthful :
    onesdkChatWait true .initial ⟨true, 0, [], true, [⟨[.connectionError none], 0⟩]⟩ = (some 0, false) ∧
      onesdkChatWait true .initial
          ⟨true, 0, [], true, [⟨[.filterPreEstablish eventStream [], .established 200, .read [100], .closed], 0⟩]⟩ =
        (some 0, false) ∧
      ¬Truthful .initial ⟨true, 0, [], true, [⟨[.connectionError none], 0⟩]⟩ := by
  refine ⟨by decide, by decide, ?_⟩
  rintro ⟨code, hcode, hiff⟩
  have hzero : code = 0 := (Option.some.inj hcode).symm
  exact absurd (hiff.mp hzero) (by decide)

end OneSdk.ChatWait
