import OneSdk.CString
import OneSdk.Runs

namespace OneSdk.McpClient

open CString Runs

/-- What the client uses of cJSON, over its nodes. `items` are the children that
`cJSON_GetArraySize` counts. -/
structure CJson (J : Type) where
  parse : Bytes → Option J
  print : J → Option Bytes
  getObjectItem : J → Bytes → Option J
  isArray : J → Bool
  items : J → List J
  valueint : J → Int
  valuestring : J → Option Bytes

structure Tool where
  name : Bytes
  description : Bytes
  inputSchemaRaw : Option Bytes
  deriving DecidableEq

structure ToolResultContent where
  type : Bytes
  text : Bytes
  deriving DecidableEq

structure ToolResult where
  isError : Bool
  content : List ToolResultContent
  deriving DecidableEq

inductive Result where
  | toolResult (r : ToolResult)
  | toolsList (tools : List Tool)
  deriving DecidableEq

def idKey : Bytes := text "id"

def resultKey : Bytes := text "result"

def toolsKey : Bytes := text "tools"

def nameKey : Bytes := text "name"

def descriptionKey : Bytes := text "description"

def inputSchemaKey : Bytes := text "inputSchema"

def contentKey : Bytes := text "content"

def typeKey : Bytes := text "type"

def textKey : Bytes := text "text"

def isErrorKey : Bytes := text "isError"

def endpointName : Bytes := text "endpoint"

section Parsers

variable {J : Type} (json : CJson J)

def sseParseRequestId (data : Option Bytes) : Int :=
  match data.bind json.parse with
  | none => -1
  | some root =>
      match json.getObjectItem root idKey with
      | none => -1
      | some id => json.valueint id

def sseGetResponseResult (data : Option Bytes) : Option Bytes :=
  match data.bind json.parse with
  | none => none
  | some root => (json.getObjectItem root resultKey).bind json.print

/-- `strdup` of the `valuestring` of a member. An absent member or one that is no
string is a null pointer in the hands of the caller. -/
def textOf (node : J) (key : Bytes) : Option Bytes := (json.getObjectItem node key).bind json.valuestring

def toolOf (tool : J) : Option Tool := do
  let name ← textOf json tool nameKey
  let description ← textOf json tool descriptionKey
  let inputSchema := json.getObjectItem tool inputSchemaKey
  return ⟨name, description, inputSchema.bind json.print⟩

/-- `none` where a null pointer is read, `some none` where `NULL` is returned. -/
def mcpToolsListParse (text : Option Bytes) : Option (Option (List Tool)) :=
  match text.bind json.parse with
  | none => some none
  | some root =>
      match json.getObjectItem root toolsKey with
      | none => some none
      | some tools => if json.isArray tools then ((json.items tools).mapM (toolOf json)).map some else some none

def contentOf (item : J) : Option ToolResultContent := do
  let type ← textOf json item typeKey
  let text ← textOf json item textKey
  return ⟨type, text⟩

def isErrorOf (root : J) : Bool :=
  match json.getObjectItem root isErrorKey with
  | none => false
  | some isError => json.valueint isError != 0

def mcpToolResultParse (text : Option Bytes) : Option (Option ToolResult) :=
  match text.bind json.parse with
  | none => some none
  | some root =>
      match json.getObjectItem root contentKey with
      | none => some none
      | some content =>
          ((json.items content).mapM (contentOf json)).map (fun items => some ⟨isErrorOf json root, items⟩)

/-- `mcp_tool_call` and `mcp_tools_list` differ in how they test the time left and
in how they parse. -/
inductive Kind where
  | toolCall
  | toolsList
  deriving DecidableEq

def Kind.timedOut : Kind → Int → Bool
  | .toolCall, timeoutMs => timeoutMs == 0
  | .toolsList, timeoutMs => timeoutMs ≤ 0

def Kind.parse : Kind → Option Bytes → Option (Option Result)
  | .toolCall, text => (mcpToolResultParse json text).map (Option.map Result.toolResult)
  | .toolsList, text => (mcpToolsListParse json text).map (Option.map Result.toolsList)

end Parsers

/-- `get_jsonrpc_requestID`: the id and the counter after it. -/
def getJsonrpcRequestId (counter : Nat) : Nat × Nat := if counter < 65535 then (counter, counter + 1) else (1, 1)

/-- An SSE event. `answers` is the call that the server responds to with it. -/
structure Packet where
  serial : Nat
  event : Option Bytes
  data : Option Bytes
  answers : Option Nat
  deriving DecidableEq

structure Server where
  address : Bytes
  port : Int
  deriving DecidableEq

def printInt : Int → Bytes
  | .ofNat n => ascii (Nat.toDigits 10 n)
  | .negSucc n => 45 :: ascii (Nat.toDigits 10 (n + 1))

def urlText (server : Server) (endpoint : Bytes) : Bytes :=
  text "http://" ++ server.address ++ 58 :: printInt server.port ++ endpoint

def urlSize : Nat := 128

def UrlFits (server : Server) (endpoint : Bytes) : Prop := (urlText server endpoint).length < urlSize

instance (server : Server) (endpoint : Bytes) : Decidable (UrlFits server endpoint) :=
  inferInstanceAs (Decidable (_ < _))

structure SseMessage where
  requestId : Int
  result : Option Bytes
  deriving DecidableEq

structure Ctx where
  server : Server
  initializeRequestId : Int
  initialized : Bool
  endpointGot : Bool
  endpoint : Option Bytes
  messages : SseMessage
  deriving DecidableEq

/-- Where the receiver thread stands. It has the lock unless it is idle. -/
inductive Receiver where
  | idle
  | stored (d : Packet)
  | notified (d : Packet)
  deriving DecidableEq

/-- Where a call stands. It ends with what it returns and with the packet that it
took that from. -/
inductive Phase where
  | awaitEndpoint
  | awaitInitialized
  | issue
  | request
  | poll
  | sleep
  | check
  | lock
  | done (ret : Option Result) (source : Option Packet)
  deriving DecidableEq

/-- A call in progress. `answered` is the response to it that was delivered before
its timeout. -/
structure Caller where
  kind : Kind
  timeoutMs : Int
  requestId : Option Int
  phase : Phase
  answered : Option Packet
  deriving DecidableEq

/-- The client and its calls. `source` is the packet that `ctx.messages` holds. -/
structure Sys where
  ctx : Ctx
  nextRequestId : Nat
  callers : List Caller
  receiver : Receiver
  source : Option Packet
  delivered : List Packet
  faulted : Bool
  deriving DecidableEq

inductive Event where
  | call (kind : Kind)
  | act (i : Nat)
  | deliver (d : Packet)
  | receive
  | elsewhere
  deriving DecidableEq

def mcpCtxNew (server : Server) : Ctx := ⟨server, 0, false, false, none, ⟨0, none⟩⟩

def start (server : Server) (counter : Nat) : Sys := ⟨mcpCtxNew server, counter, [], .idle, none, [], false⟩

def Caller.outcome (c : Caller) : Option (Option Result × Option Packet) :=
  match c.phase with
  | .done ret source => some (ret, source)
  | _ => none

def Caller.returned (c : Caller) : Bool := c.outcome.isSome

def Caller.new (kind : Kind) : Caller := ⟨kind, 5000, none, .awaitEndpoint, none⟩

def Caller.to (c : Caller) (phase : Phase) : Caller := { c with phase := phase }

def Caller.null (c : Caller) : Caller := c.to (.done none none)

def Caller.slept (c : Caller) : Caller := { c with timeoutMs := c.timeoutMs - 10 }

/-- `mcp_endpoint_got` and `mcp_initialized`: one look at the flag and, where it is
not set, one sleep. -/
def Caller.await (c : Caller) (flag : Bool) (next : Phase) : Caller :=
  if flag then c.to next else if 0 < c.timeoutMs then c.slept else c.null

section Steps

variable {J : Type} (json : CJson J)

/-- `mcp_tool_call` and `mcp_tools_list` up to their next access to the context,
`none` where they read a null pointer. -/
def advance (s : Sys) (c : Caller) : Option Caller :=
  match c.phase with
  | .awaitEndpoint => some (c.await s.ctx.endpointGot .awaitInitialized)
  | .awaitInitialized => some (c.await s.ctx.initialized .issue)
  | .issue => some { c with requestId := some (getJsonrpcRequestId s.nextRequestId).1, phase := .request }
  | .request => some (c.to .poll)
  | .poll =>
      if some s.ctx.messages.requestId ≠ c.requestId ∧ 0 < c.timeoutMs then some (c.to .sleep)
      else if c.kind.timedOut c.timeoutMs then some c.null
      else some (c.to .check)
  | .sleep => some (c.slept.to .poll)
  | .check => if some s.ctx.messages.requestId = c.requestId then some (c.to .lock) else some c.null
  | .lock => (c.kind.parse json s.ctx.messages.result).map (fun ret => c.to (.done ret s.source))
  | .done _ _ => some c

def Caller.counterAfter (c : Caller) (counter : Nat) : Nat :=
  if c.phase = .issue then (getJsonrpcRequestId counter).2 else counter

def fault (s : Sys) : Sys := { s with faulted := true }

def act (s : Sys) (i : Nat) : Sys :=
  match s.callers[i]? with
  | none => s
  | some c =>
      match advance json s c with
      | none => fault s
      | some c' => { s with callers := s.callers.set i c', nextRequestId := c.counterAfter s.nextRequestId }

def Caller.answer (d : Packet) (c : Caller) : Caller := if 0 < c.timeoutMs then { c with answered := some d } else c

def arrive (s : Sys) (d : Packet) : Sys :=
  { s with
    delivered := s.delivered ++ [d]
    callers := match d.answers with
      | none => s.callers
      | some i => s.callers.modify i (Caller.answer d) }

/-- The first `if` of `mcp_packet_handle`: `none` where `strcmp` reads a null pointer. -/
def isEndpoint (ctx : Ctx) (d : Packet) : Option Bool :=
  if ctx.endpointGot then some false
  else d.event.map (fun event => event == endpointName)

def takeEndpoint (s : Sys) (endpoint : Bytes) : Sys :=
  { s with
    ctx := { s.ctx with
      endpoint := some endpoint
      endpointGot := true
      initializeRequestId := (getJsonrpcRequestId s.nextRequestId).1 }
    nextRequestId := (getJsonrpcRequestId s.nextRequestId).2 }

def store (s : Sys) (d : Packet) : Sys :=
  { s with
    ctx := { s.ctx with messages := ⟨sseParseRequestId json d.data, none⟩ }
    source := some d
    receiver := .stored d }

/-- `mcp_packet_handle` up to the store of the request id, or all of it where it
takes the endpoint. `mcp_client_init` overruns its array with a URL that does not fit. -/
def mcpPacketHandle (s : Sys) (d : Packet) : Sys :=
  match isEndpoint s.ctx d with
  | none => fault s
  | some true =>
      match d.data with
      | none => fault s
      | some endpoint => if UrlFits s.ctx.server endpoint then takeEndpoint s endpoint else fault s
  | some false => store json s d

/-- `mcp_send_initialize_notification` takes an id only once the endpoint is there. -/
def sendInitializeNotification (s : Sys) : Sys :=
  { s with
    ctx := { s.ctx with initialized := true }
    nextRequestId := if s.ctx.endpointGot then (getJsonrpcRequestId s.nextRequestId).2 else s.nextRequestId }

def setResult (s : Sys) (result : Option Bytes) : Sys :=
  { s with ctx := { s.ctx with messages := { s.ctx.messages with result := result } }, receiver := .idle }

def receive (s : Sys) : Sys :=
  match s.receiver with
  | .idle => s
  | .stored d =>
      if s.ctx.initialized = false ∧ sseParseRequestId json d.data = s.ctx.initializeRequestId then
        { sendInitializeNotification s with receiver := .notified d }
      else { s with receiver := .notified d }
  | .notified d => setResult s (sseGetResponseResult json d.data)

def next (s : Sys) : Event → Sys
  | .call kind => { s with callers := s.callers ++ [Caller.new kind] }
  | .act i => act json s i
  | .deliver d => mcpPacketHandle json (arrive s d) d
  | .receive => receive json s
  | .elsewhere => { s with nextRequestId := (getJsonrpcRequestId s.nextRequestId).2 }

def Caller.Ready (s : Sys) (c : Caller) : Prop :=
  c.returned = false ∧ (c.phase = .lock → s.receiver = .idle)

/-- Every packet is delivered once, and each call has at most one response, which
bears the id that was issued to it. -/
def enabled (s : Sys) (e : Event) : Prop :=
  s.faulted = false ∧
    match e with
    | .call _ | .elsewhere => True
    | .act i => ∃ c ∈ s.callers[i]?, c.Ready s
    | .deliver d =>
        s.receiver = .idle ∧ d ∉ s.delivered ∧
          ∀ i ∈ d.answers, ∃ c ∈ s.callers[i]?, c.answered = none ∧ c.requestId = some (sseParseRequestId json d.data)
    | .receive => s.receiver ≠ .idle

def client : Machine Sys Event := ⟨enabled json, next json⟩

instance (s : Sys) (c : Caller) : Decidable (c.Ready s) := inferInstanceAs (Decidable (_ ∧ _))

instance decidableEnabled (s : Sys) (e : Event) : Decidable (enabled json s e) := by
  cases e <;> exact inferInstanceAs (Decidable (_ ∧ _))

instance (s : Sys) (es : List Event) : Decidable (Legal (client json) s es) :=
  @Runs.decidableEveryStep _ _ (client json) (enabled json) (fun s e => decidableEnabled json s e) s es

end Steps

inductive Node where
  | number (n : Int)
  | truth
  | array (items : List Node)
  | object (text : Bytes) (members : List (Bytes × Node))

def member : Node → Bytes → Option Node
  | .object _ members, key => (members.find? (·.1 == key)).map Prod.snd
  | _, _ => none

def printed : Node → Option Bytes
  | .object text _ => some text
  | _ => none

def nodeJson (texts : List (Bytes × Node)) : CJson Node where
  parse text := (texts.find? (·.1 == text)).map Prod.snd
  print := printed
  getObjectItem := member
  isArray node := match node with | .array _ => true | _ => false
  items node := match node with | .array items => items | _ => []
  valueint node := match node with | .number n => n | .truth => 1 | _ => 0
  valuestring _ := none

def sampleServer : Server := ⟨text "h", 80⟩

end OneSdk.McpClient
