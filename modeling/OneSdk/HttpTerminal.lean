import OneSdk.HttpClient

namespace OneSdk.HttpTerminal

open HttpClient

inductive Connection where
  | refused (text : Option Bytes)
  | served (contentType transferEncoding : Bytes) (status : Int) (reads : List Bytes) (completed : Bool)
  deriving DecidableEq

/-- Without `APPEND_HANDSHAKE_HEADER`, which leaves the request as it is, and without what
`parse_sse_message` may write outside its arrays. -/
def Connection.callbacks : Connection → List Reason
  | .refused text => [.connectionError text]
  | .served contentType transferEncoding status reads completed =>
      [.filterPreEstablish contentType transferEncoding, .established status] ++ reads.map .read ++
        (if completed then [.completed] else []) ++ [.closed]

inductive Outcome where
  | complete
  | error
  deriving DecidableEq

def outcome : Call → Option Outcome
  | .complete _ => some .complete
  | .error _ _ _ => some .error
  | _ => none

def terminals (http : RequestContext) (c : Connection) : List Outcome :=
  (service http c.callbacks).2.filterMap outcome

def Connection.due : Connection → Outcome
  | .refused _ => .error
  | .served _ _ status _ completed => if completed = true ∧ status ≤ 300 then .complete else .error

def Connection.reported : Connection → Bool
  | .refused _ => true
  | .served _ _ _ _ completed => completed

def registered (http : RequestContext) : Outcome → Bool
  | .complete => http.onCompleteCb.isSome
  | .error => http.onErrorCb.isSome

theorem elim_filterMap {α : Type} (f : α → Call) (o : Option α) (t : Outcome) (h : ∀ a, outcome (f a) = some t) :
    (o.elim [] (fun a => [f a])).filterMap outcome = if o.isSome then [t] else [] := by
  cases o with
  | none => rfl
  | some a => simp [h]

theorem elim_silent {α : Type} (f : α → List Call) (o : Option α) (h : ∀ a, (f a).filterMap outcome = []) :
    (o.elim [] f).filterMap outcome = [] := by
  cases o with
  | none => rfl
  | some a => exact h a

theorem connectionError_terminals (http : RequestContext) (text : Option Bytes) :
    (onConnectionError http text).2.filterMap outcome = if http.onErrorCb.isSome then [.error] else [] := by
  rw [onConnectionError, List.filterMap_append, elim_silent _ _ (fun _ => rfl),
    elim_filterMap _ _ .error (fun _ => rfl)]
  rfl

theorem completed_terminals (http : RequestContext) :
    (onCompleted http).2.filterMap outcome =
      if 300 < http.response.errorCode then (if http.onErrorCb.isSome then [.error] else [])
      else (if http.onCompleteCb.isSome then [.complete] else []) := by
  rw [onCompleted]
  split
  · rw [List.filterMap_append, elim_silent _ _ (fun _ => rfl), elim_filterMap _ _ .error (fun _ => rfl)]
    rfl
  · rw [List.filterMap_append, elim_silent _ _ (fun _ => rfl), elim_filterMap _ _ .complete (fun _ => rfl)]
    rfl

theorem read_silent (http : RequestContext) (body : Bytes) : (onRead http body).2.filterMap outcome = [] := by
  have hsse (cb : Callback) : ((readSse http body).2.map (Call.getSse cb)).filterMap outcome = [] := by
    rw [List.filterMap_map, List.filterMap_eq_nil_iff]
    exact fun _ _ => rfl
  rw [onRead, readCalls, List.filterMap_append, List.filterMap_append, elim_silent _ _ hsse,
    elim_silent _ _ (fun _ => rfl), elim_silent _ _ (fun _ => rfl)]
  rfl

def settings (http : RequestContext) :
    Option Callback × Option Callback × Option Callback × Option Callback × Option DownloadContext × Int :=
  (http.onGetBodyCb, http.onGetSseCb, http.onCompleteCb, http.onErrorCb, http.downloadCtx, http.response.errorCode)

theorem receiveBody_errorCode (r : Response) (body : Bytes) : (receiveBody r body).1.errorCode = r.errorCode := by
  rw [receiveBody]
  split
  · rfl
  · split <;> rfl

theorem read_settings (http : RequestContext) (body : Bytes) :
    settings (onRead http body).1 = settings http := by
  rw [onRead, keepBody]
  split
  · rfl
  · simp [settings, setResponse, setSse, receiveBody_errorCode]

theorem reads_silent (http : RequestContext) (reads : List Bytes) :
    (service http (reads.map .read)).2.filterMap outcome = [] ∧
      settings (service http (reads.map .read)).1 = settings http := by
  induction reads generalizing http with
  | nil => exact ⟨rfl, rfl⟩
  | cons body reads ih =>
      obtain ⟨hsilent, hstate⟩ := ih (onRead http body).1
      refine ⟨?_, hstate.trans (read_settings http body)⟩
      change ((onRead http body).2 ++ _).filterMap outcome = []
      rw [List.filterMap_append, read_silent]
      exact hsilent

def arriving : RequestContext → List Bytes → List Bytes
  | _, [] => []
  | http, body :: reads => readBytes http body :: arriving (onRead http body).1 reads

theorem reads_calls {http : RequestContext} (h : http.onGetSseCb = none) (reads : List Bytes) :
    (service http (reads.map .read)).2 = (arriving http reads).flatMap (fun body => readCalls http body []) := by
  induction reads generalizing http with
  | nil => rfl
  | cons body reads ih =>
      have hsettings := read_settings http body
      simp only [settings, Prod.mk.injEq] at hsettings
      obtain ⟨hbody, hsse, -, -, hdownload, -⟩ := hsettings
      have hsame (b : Bytes) : readCalls (onRead http body).1 b [] = readCalls http b [] := by
        rw [readCalls, readCalls, hbody, hsse, hdownload]
      have hone : (onRead http body).2 = readCalls http (readBytes http body) [] := by
        rw [onRead, readCalls, readCalls, h]
        rfl
      rw [List.map_cons, service, arriving, List.flatMap_cons, ← hone]
      refine congrArg ((onRead http body).2 ++ ·) ((ih (hsse.trans h)).trans ?_)
      simp only [hsame]

theorem arriving_length (http : RequestContext) (reads : List Bytes) : (arriving http reads).length = reads.length := by
  induction reads generalizing http with
  | nil => rfl
  | cons body reads ih => rw [arriving, List.length_cons, ih, List.length_cons]

theorem read_nil {http : RequestContext} (h : http.clientData.sseCtx.buffer = []) :
    (onRead http []).1.clientData.sseCtx.buffer = [] := by
  have hread : (readSse http []).1.buffer = [] := by
    rw [readSse]
    split
    · rw [receiveSse, h]
      rfl
    · exact h
  rw [onRead_sseCtx, hread]

theorem arriving_any {http : RequestContext} (h : http.clientData.sseCtx.buffer = []) (reads : List Bytes) :
    (arriving http reads).any (fun body => body ≠ []) = reads.any (fun body => body ≠ []) := by
  induction reads generalizing http with
  | nil => rfl
  | cons body reads ih =>
      have hhead : readBytes http body = [] ↔ body = [] := by
        rw [readBytes, h]
        split
        · rw [List.take_eq_nil_iff]
          exact or_iff_right (by decide)
        · exact Iff.rfl
      rw [arriving, List.any_cons, List.any_cons]
      by_cases hbody : body = []
      · subst hbody
        rw [hhead.mpr rfl, ih (read_nil h)]
      · simp [hbody, hhead]

def opened (http : RequestContext) (contentType transferEncoding : Bytes) (status : Int) : RequestContext :=
  (service http [.filterPreEstablish contentType transferEncoding, .established status]).1

theorem opened_settings (http : RequestContext) (contentType transferEncoding : Bytes) (status : Int) :
    settings (opened http contentType transferEncoding status) =
      (http.onGetBodyCb, http.onGetSseCb, http.onCompleteCb, http.onErrorCb, http.downloadCtx, status) := rfl

theorem served_calls (http : RequestContext) (contentType transferEncoding : Bytes) (status : Int) (reads : List Bytes)
    (completed : Bool) :
    (service http (Connection.served contentType transferEncoding status reads completed).callbacks).2 =
      (service (opened http contentType transferEncoding status) (reads.map .read)).2 ++
        if completed then
          (onCompleted (service (opened http contentType transferEncoding status) (reads.map .read)).1).2
        else [] := by
  rw [Connection.callbacks, service_append, service_append, service_append, ← opened]
  cases completed with
  | false => simp [service, callbackOnesdkHttp]
  | true => simp [service, callbackOnesdkHttp]

theorem served_terminals (http : RequestContext) (contentType transferEncoding : Bytes) (status : Int)
    (reads : List Bytes) (completed : Bool) :
    terminals http (.served contentType transferEncoding status reads completed) =
      if completed then
        if 300 < status then (if http.onErrorCb.isSome then [.error] else [])
        else (if http.onCompleteCb.isSome then [.complete] else [])
      else [] := by
  obtain ⟨hsilent, hsettings⟩ := reads_silent (opened http contentType transferEncoding status) reads
  rw [opened_settings] at hsettings
  simp only [settings, Prod.mk.injEq] at hsettings
  obtain ⟨-, -, hcomplete, herror, -, hcode⟩ := hsettings
  rw [terminals, served_calls, List.filterMap_append, hsilent, List.nil_append]
  cases completed with
  | false => rfl
  | true =>
      rw [if_pos rfl, if_pos rfl, completed_terminals, hcomplete, herror, hcode]

/-- The request hears exactly once of its end, and of the right one, just when lws
reports more than a close and the callback is there. -/
theorem terminals_due_iff (http : RequestContext) (c : Connection) :
    terminals http c = [c.due] ↔ c.reported = true ∧ registered http c.due = true := by
  cases c with
  | refused text =>
      have hend := connectionError_terminals http text
      rw [terminals, Connection.callbacks, service, service, callbackOnesdkHttp, List.append_nil, hend, Connection.due,
        Connection.reported, registered]
      cases http.onErrorCb <;> simp
  | served contentType transferEncoding status reads completed =>
      rw [served_terminals]
      cases completed with
      | false => simp [Connection.reported]
      | true =>
          by_cases hbad : 300 < status
          · have hdue : (Connection.served contentType transferEncoding status reads true).due = .error :=
              if_neg (fun hok => absurd hok.2 (by omega))
            rw [hdue, if_pos rfl, if_pos hbad, registered]
            cases http.onErrorCb <;> simp [Connection.reported]
          · have hdue : (Connection.served contentType transferEncoding status reads true).due = .complete :=
              if_pos ⟨rfl, by omega⟩
            rw [hdue, if_pos rfl, if_neg hbad, registered]
            cases http.onCompleteCb <;> simp [Connection.reported]

def asyncRequest : RequestContext :=
  { newHttpCtx with isAsyncRequest := true, onCompleteCb := some ⟨1, 0⟩, onErrorCb := some ⟨2, 0⟩ }

/-- The server closes in the middle of the body. -/
theorem closed_in_body_unheard :
    terminals asyncRequest (.served [] [] 200 [[72, 105]] false) ≠
      [(Connection.served [] [] 200 [[72, 105]] false).due] := by decide

/-- `http_wait_complete` comes back from every connection, heard or not. -/
theorem connection_completes (http : RequestContext) (c : Connection) :
    (service http c.callbacks).1.isConnectionCompleted = true := by
  cases c with
  | refused text => rfl
  | served contentType transferEncoding status reads completed =>
      rw [Connection.callbacks, service_append]
      rfl

end OneSdk.HttpTerminal
