import OneSdk.ErrorCode
import OneSdk.HttpLibs

namespace OneSdk.HttpClient

open ErrorCode CString HttpLibs

structure Callback where
  fn : Pointer
  userData : Pointer
  deriving DecidableEq

/-- `http_download_context_t`, whose three functions `lws_http_download_init` sets. -/
structure DownloadContext where
  onDownloadData : Pointer
  onDownloadComplete : Pointer
  onDownloadError : Pointer
  userData : Pointer
  deriving DecidableEq

structure Response where
  errorCode : Int
  innerErrorCode : Int
  responseBody : Option Bytes
  bodySize : Nat
  deriving DecidableEq

structure ClientData where
  isSse : Bool
  isChunked : Bool
  sseCtx : SseContext
  deriving DecidableEq

/-- `http_request_context_t`, whose parts `new_http_ctx` allocates. -/
structure RequestContext where
  responseCode : Int
  authUser : Option Pointer
  authPassword : Option Pointer
  clientData : ClientData
  isAsyncRequest : Bool
  onGetBodyCb : Option Callback
  onGetSseCb : Option Callback
  onCompleteCb : Option Callback
  onErrorCb : Option Callback
  response : Response
  isConnectionCompleted : Bool
  downloadCtx : Option DownloadContext
  deriving DecidableEq

def newHttpCtx : RequestContext where
  responseCode := 0
  authUser := none
  authPassword := none
  clientData := ⟨false, false, emptySse⟩
  isAsyncRequest := false
  onGetBodyCb := none
  onGetSseCb := none
  onCompleteCb := none
  onErrorCb := none
  response := ⟨0, 0, none, 0⟩
  isConnectionCompleted := false
  downloadCtx := none

inductive Call where
  | getBody (cb : Callback) (body : Bytes)
  | getSse (cb : Callback) (event : SseEvent)
  | complete (cb : Callback)
  | error (cb : Callback) (code : Int) (msg : Option Bytes)
  | downloadData (dl : DownloadContext) (body : Bytes)
  | downloadComplete (dl : DownloadContext)
  | downloadError (dl : DownloadContext) (code : Int)
  deriving DecidableEq

/-- `taken` tells whether lws takes the headers that stand before the authorization. -/
inductive Reason where
  | connectionError (text : Option Bytes)
  | appendHandshakeHeader (taken : Bool)
  | filterPreEstablish (contentType transferEncoding : Bytes)
  | established (status : Int)
  | read (body : Bytes)
  | completed
  | closed
  deriving DecidableEq

def crlfcrlf : Bytes := [13, 10, 13, 10]

def lflf : Bytes := [10, 10]

def clearEvent (sse : SseContext) : SseContext := { sse with event := none, id := none, data := none }

def drain : Nat → Bytes → SseContext → SseContext × List SseEvent
  | 0, cur, sse => ({ sse with buffer := cur }, [])
  | k + 1, cur, sse =>
      if cur = [] then ({ sse with buffer := cur }, [])
      else
        match onesdkMemmem cur crlfcrlf with
        | some i =>
            let sse' := parseSseMessage (clearEvent sse) cur (i + 4)
            let rest := drain k (cur.drop (i + 4)) sse'
            (rest.1, sse'.payload :: rest.2)
        | none =>
            match onesdkMemmem cur lflf with
            | some i =>
                let sse' := parseSseMessage (clearEvent sse) cur (i + 2)
                let rest := drain k (cur.drop (i + 2)) sse'
                (rest.1, sse'.payload :: rest.2)
            | none => ({ clearEvent sse with buffer := cur }, [])

def receiveSse (sse : SseContext) (body : Bytes) : SseContext × List SseEvent :=
  let available := sseBufferSize - sse.buffer.length - 1
  let buffer := sse.buffer ++ body.take available
  drain buffer.length buffer sse

def maxBodySize : Nat := 10 * 1024

/-- The second component is what the callback returns to lws. -/
def receiveBody (r : Response) (body : Bytes) : Response × Int :=
  if r.responseBody = none ∧ r.bodySize = 0 then
    ({ r with responseBody := some body, bodySize := body.length }, volcOk)
  else if maxBodySize < r.bodySize + body.length then (r, volcErrHttpRecvTooLarge)
  else
    ({ r with responseBody := some (r.responseBody.getD [] ++ body), bodySize := r.bodySize + body.length }, volcOk)

def setSse (http : RequestContext) (sse : SseContext) : RequestContext :=
  { http with clientData := { http.clientData with sseCtx := sse } }

def setResponse (http : RequestContext) (r : Response) : RequestContext := { http with response := r }

def readSse (http : RequestContext) (body : Bytes) : SseContext × List SseEvent :=
  if http.clientData.isSse then receiveSse http.clientData.sseCtx body else (http.clientData.sseCtx, [])

def readCalls (http : RequestContext) (body : Bytes) (events : List SseEvent) : List Call :=
  http.onGetSseCb.elim [] (fun cb => events.map (.getSse cb)) ++
    http.onGetBodyCb.elim [] (fun cb => [.getBody cb body]) ++
    http.downloadCtx.elim [] (fun dl => [.downloadData dl body])

/-- An asynchronous request leaves the body to its callbacks, unless it has failed. -/
def keepBody (http : RequestContext) (body : Bytes) : RequestContext :=
  if http.isAsyncRequest ∧ ¬300 < http.response.errorCode then http
  else setResponse http (receiveBody http.response body).1

/-- What the later branches see of the body: `len` has been cut down to the free space. -/
def readBytes (http : RequestContext) (body : Bytes) : Bytes :=
  if http.clientData.isSse then body.take (sseBufferSize - http.clientData.sseCtx.buffer.length - 1) else body

def onRead (http : RequestContext) (body : Bytes) : RequestContext × List Call :=
  (keepBody (setSse http (readSse http body).1) (readBytes http body),
    readCalls http (readBytes http body) (readSse http body).2)

def onConnectionError (http : RequestContext) (text : Option Bytes) : RequestContext × List Call :=
  let http :=
    { http with
      response := { http.response with innerErrorCode := volcErrHttpConnFailed }
      isConnectionCompleted := true }
  let msg := text.getD (CString.text "(null)")
  (http,
    http.downloadCtx.elim [] (fun dl => [.downloadError dl volcErrHttpConnFailed]) ++
      http.onErrorCb.elim [] (fun cb => [.error cb volcErrHttpConnFailed (some msg)]))

def onCompleted (http : RequestContext) : RequestContext × List Call :=
  if 300 < http.response.errorCode then
    (http,
      http.downloadCtx.elim [] (fun dl => [.downloadError dl http.response.errorCode]) ++
        http.onErrorCb.elim [] (fun cb => [.error cb http.response.errorCode http.response.responseBody]))
  else
    ({ http with isConnectionCompleted := true },
      http.downloadCtx.elim [] (fun dl => [.downloadComplete dl]) ++
        http.onCompleteCb.elim [] (fun cb => [.complete cb]))

def eventStream : Bytes := text "text/event-stream"

def chunked : Bytes := text "chunked"

def onFilterPreEstablish (http : RequestContext) (contentType transferEncoding : Bytes) : RequestContext :=
  { http with
    clientData :=
      { http.clientData with
        isSse := http.clientData.isSse || eventStream.isPrefixOf contentType
        isChunked := http.clientData.isChunked || transferEncoding == chunked } }

def callbackOnesdkHttp (http : RequestContext) : Reason → RequestContext × List Call
  | .connectionError text => onConnectionError http text
  | .appendHandshakeHeader _ => (http, [])
  | .filterPreEstablish contentType transferEncoding =>
      (onFilterPreEstablish http contentType transferEncoding, [])
  | .established status =>
      ({ http with responseCode := status, response := { http.response with errorCode := status } }, [])
  | .read body => onRead http body
  | .completed => onCompleted http
  | .closed => ({ http with isConnectionCompleted := true }, [])

def service : RequestContext → List Reason → RequestContext × List Call
  | http, [] => (http, [])
  | http, r :: rs =>
      let rest := service (callbackOnesdkHttp http r).1 rs
      (rest.1, (callbackOnesdkHttp http r).2 ++ rest.2)

theorem service_append (http : RequestContext) (rs qs : List Reason) :
    service http (rs ++ qs) =
      ((service (service http rs).1 qs).1, (service http rs).2 ++ (service (service http rs).1 qs).2) := by
  induction rs generalizing http with
  | nil => rfl
  | cons r rs ih => simp only [List.cons_append, service, ih, List.append_assoc]

theorem onRead_sseCtx (http : RequestContext) (body : Bytes) :
    (onRead http body).1.clientData.sseCtx = (readSse http body).1 := by
  rw [onRead, keepBody]
  split <;> rfl

end OneSdk.HttpClient
