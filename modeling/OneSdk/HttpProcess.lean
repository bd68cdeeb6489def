import OneSdk.HttpTerminal
import OneSdk.Runs

namespace OneSdk.HttpProcess

open Runs ErrorCode CString HttpClient HttpTerminal

/-- The variables of the file that the callbacks of all requests share, and the strings
that the application holds at the addresses it gives for its credentials. -/
structure Process where
  interrupted : Bool
  bad : Int
  status : Int
  baUser : Option Pointer
  baPassword : Option Pointer
  strings : Pointer → Option Bytes

def Process.initial : Process := ⟨false, 1, 0, none, none, fun _ => none⟩

/-- `lws_http_client_http_response` gives `closed` the status that `established` has put
into the context. -/
def onProcess (g : Process) (http : RequestContext) : Reason → Process
  | .connectionError _ => { g with interrupted := true, bad := 3 }
  | .appendHandshakeHeader _ => g
  | .filterPreEstablish _ _ => g
  | .established status => { g with status := status }
  | .read _ => g
  | .completed => { g with bad := if g.status = 200 then 0 else 1 }
  | .closed => { g with status := http.responseCode, bad := if http.responseCode = 200 then 0 else 1 }

/-- What `lws_http_basic_auth_gen` gets from a handshake, which does not call it where one
of the two is NULL, and reads a string that is gone where the application has released one. -/
inductive Authorization where
  | absent
  | basic (user password : Bytes)
  | gone
  deriving DecidableEq

def Process.authorization (g : Process) : Authorization :=
  match g.baUser, g.baPassword with
  | some user, some password =>
      match g.strings user, g.strings password with
      | some user, some password => .basic user password
      | _, _ => .gone
  | _, _ => .absent

def authorized (g : Process) : Reason → List Authorization
  | .appendHandshakeHeader true => [g.authorization]
  | _ => []

/-- A request in its process. `heard` is a record of all callbacks of the process so far,
`authorizations` of the handshakes of this request, and `calls` of what its callbacks have
called. -/
structure Client where
  process : Process
  http : RequestContext
  heard : List Reason
  authorizations : List Authorization
  calls : List Call

def Client.hear (c : Client) (r : Reason) : Client where
  process := onProcess c.process c.http r
  http := (callbackOnesdkHttp c.http r).1
  heard := c.heard ++ [r]
  authorizations := c.authorizations ++ authorized c.process r
  calls := c.calls ++ (callbackOnesdkHttp c.http r).2

def Client.hearAll (c : Client) (rs : List Reason) : Client := rs.foldl Client.hear c

def Client.setInnerErrorCode (c : Client) (code : Int) : Client :=
  { c with http := setResponse c.http { c.http.response with innerErrorCode := code } }

def Client.setErrorCode (c : Client) (code : Int) : Client :=
  { c with http := setResponse c.http { c.http.response with errorCode := code } }

def Client.setAsync (c : Client) (isAsync : Bool) : Client :=
  { c with http := { c.http with isAsyncRequest := isAsync } }

def Client.setBad (c : Client) (bad : Int) : Client := { c with process := { c.process with bad := bad } }

structure Pass where
  callbacks : List Reason
  result : Int
  deriving DecidableEq

/-- What lws does with a request. `info` is what `lws_http_client_init_client_connect_info`
returns, and `connecting` are the callbacks that `lws_client_connect_via_info` makes. -/
structure Network where
  created : Bool
  info : Int
  connecting : List Reason
  connected : Bool
  passes : List Pass
  deriving DecidableEq

def lwsHttpClientInit (c : Client) (net : Network) : Client × Int :=
  if net.created then (c, volcOk)
  else (c.setInnerErrorCode volcErrInvalidHttpContext, volcErrInvalidHttpContext)

/-- `lws_http_client_init_client_connect_info`, as far as the variables of the file go. -/
def Client.initConnectInfo (c : Client) : Client :=
  { c with
    process :=
      { c.process with
        baUser := c.http.authUser.or c.process.baUser
        baPassword := c.http.authPassword.or c.process.baPassword } }

def lwsHttpClientConnect (c : Client) (net : Network) : Client × Int :=
  let c := c.initConnectInfo
  if net.info ≠ 0 then (c.setInnerErrorCode net.info, 1)
  else
    let c := c.hearAll net.connecting
    if net.connected then (c, 0)
    else ((c.setInnerErrorCode volcErrHttpConnFailed).setBad 2, volcErrHttpConnFailed)

/-- The loop is over, or it waits in a call of `lws_service` that does not return. -/
structure Serving where
  client : Client
  served : List Pass
  returned : Bool

/-- The loops around `lws_service`. The synchronous one also watches the process. -/
def serviceLoop (watch : Bool) : Client → List Pass → Serving
  | c, [] => ⟨c, [], c.http.isConnectionCompleted || watch && c.process.interrupted⟩
  | c, pass :: passes =>
      if c.http.isConnectionCompleted || watch && c.process.interrupted then ⟨c, [], true⟩
      else if pass.result < 0 then ⟨c.hearAll pass.callbacks, [pass], true⟩
      else
        let rest := serviceLoop watch (c.hearAll pass.callbacks) passes
        { rest with served := pass :: rest.served }

structure Reply where
  serving : Serving
  response : Option Response

def httpRequest (c : Client) (net : Network) : Reply :=
  let init := lwsHttpClientInit (c.setAsync false) net
  if init.2 ≠ 0 then ⟨⟨init.1, [], true⟩, none⟩
  else
    let connect := lwsHttpClientConnect init.1 net
    if connect.2 ≠ 0 then ⟨⟨connect.1.setErrorCode connect.2, [], true⟩, none⟩
    else
      let serving := serviceLoop true connect.1 net.passes
      ⟨serving, some serving.client.http.response⟩

def httpRequestAsync (c : Client) (net : Network) : Client :=
  let init := lwsHttpClientInit (c.setAsync true) net
  if init.2 ≠ 0 then init.1.setInnerErrorCode init.2
  else
    let connect := lwsHttpClientConnect init.1 net
    if connect.2 ≠ 0 then connect.1.setErrorCode connect.2 else connect.1

def httpWaitComplete (c : Client) (passes : List Pass) : Client := (serviceLoop false c passes).client

/-- `http_ctx_release`, with the callbacks that `lws_context_destroy` makes. -/
def httpCtxRelease (c : Client) (closing : List Reason) : Client :=
  Client.hearAll { c with http := { c.http with isConnectionCompleted := true } } closing

structure World where
  process : Process
  contexts : Nat → RequestContext
  heard : List Reason

def World.initial : World := ⟨.initial, fun _ => newHttpCtx, []⟩

/-- The requests of a process, each on a context of its own. Between them the application
writes its strings and releases them. -/
inductive Event where
  | request (id : Nat) (http : RequestContext) (net : Network)
  | requestAsync (id : Nat) (http : RequestContext) (net : Network)
  | waitComplete (id : Nat) (passes : List Pass)
  | release (id : Nat) (closing : List Reason)
  | setString (p : Pointer) (s : Option Bytes)

def World.client (w : World) (http : RequestContext) : Client := ⟨w.process, http, w.heard, [], []⟩

def World.keep (w : World) (id : Nat) (c : Client) : World :=
  ⟨c.process, Function.update w.contexts id c.http, c.heard⟩

def next (w : World) : Event → World
  | .request id http net => w.keep id (httpRequest (w.client http) net).serving.client
  | .requestAsync id http net => w.keep id (httpRequestAsync (w.client http) net)
  | .waitComplete id passes => w.keep id (httpWaitComplete (w.client (w.contexts id)) passes)
  | .release id closing => w.keep id (httpCtxRelease (w.client (w.contexts id)) closing)
  | .setString p s => { w with process := { w.process with strings := Function.update w.process.strings p s } }

def process : Machine World Event where
  enabled := fun _ _ => True
  next := next

def after (es : List Event) : World := final process .initial es

variable {c : Client} {http : RequestContext}

theorem hearAll_http (c : Client) (rs : List Reason) : (c.hearAll rs).http = (service c.http rs).1 := by
  induction rs generalizing c with
  | nil => rfl
  | cons r rs ih => exact ih (c.hear r)

theorem hearAll_calls (c : Client) (rs : List Reason) : (c.hearAll rs).calls = c.calls ++ (service c.http rs).2 := by
  induction rs generalizing c with
  | nil => exact (List.append_nil _).symm
  | cons r rs ih => exact (ih (c.hear r)).trans (List.append_assoc _ _ _)

theorem hearAll_append (c : Client) (rs qs : List Reason) : c.hearAll (rs ++ qs) = (c.hearAll rs).hearAll qs :=
  List.foldl_append

theorem read_completed (body : Bytes) : (onRead http body).1.isConnectionCompleted = http.isConnectionCompleted := by
  rw [onRead, keepBody]
  split
  · rfl
  · rfl

theorem callback_completed (h : http.isConnectionCompleted = true) (r : Reason) :
    (callbackOnesdkHttp http r).1.isConnectionCompleted = true := by
  cases r with
  | connectionError text => rfl
  | appendHandshakeHeader taken => exact h
  | filterPreEstablish contentType transferEncoding => exact h
  | established status => exact h
  | read body => exact (read_completed body).trans h
  | completed =>
      rw [callbackOnesdkHttp, onCompleted]
      split
      · exact h
      · rfl
  | closed => rfl

theorem service_stays_completed (h : http.isConnectionCompleted = true) (rs : List Reason) :
    (service http rs).1.isConnectionCompleted = true := by
  induction rs generalizing http with
  | nil => exact h
  | cons r rs ih => exact ih (callback_completed h r)

end OneSdk.HttpProcess
