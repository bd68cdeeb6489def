import OneSdk.CString
import OneSdk.ErrorCode
import OneSdk.SendQueue

namespace OneSdk.RealtimeWs

open ErrorCode CString SendQueue

structure AigwWsConfig where
  sendPing : Bool
  pingIntervalS : Int
  deriving DecidableEq

/-- The context for a ring of `n` messages. `callback` says whether the function is set. -/
structure AigwWsCtx (n : Nat) where
  activeConn : Option Pointer
  config : AigwWsConfig
  callback : Bool
  sendRing : Fifo Bytes n
  connected : Bool
  tryConnect : Bool
  pingCount : Int

structure Client (n : Nat) where
  ctx : AigwWsCtx n
  reconnectTimes : Nat

/-- The reasons that lws gives, with the connection that a new attempt gets and the result
of a write. -/
inductive Reason where
  | clientEstablished
  | clientConnectionError (conn : Option Pointer)
  | clientClosed
  | closed
  | clientReceive (data : Bytes)
  | clientWriteable (m : Int)
  | timer
  | other
  deriving DecidableEq

inductive Output where
  | callbackOnWritable
  | setTimerUsecs
  | write (message : Bytes) (m : Int)
  | writePing
  | callback (message : Bytes)
  deriving DecidableEq

def maxReconnectTimes : Nat := 3

def ringCount : Nat := 50

variable {n : Nat}

def aigwWsInit (config : AigwWsConfig) : AigwWsCtx n where
  activeConn := none
  config := config
  callback := false
  sendRing := .empty
  connected := false
  tryConnect := false
  pingCount := 0

/-- `conn` is what `lws_client_connect_via_info` returns. -/
def aigwWsConnect (ctx : AigwWsCtx n) (conn : Option Pointer) : Int × AigwWsCtx n :=
  (if conn = none then volcErrConnect else volcOk, { ctx with activeConn := conn })

def wakeWriter (ring : Fifo Bytes n) : List Output :=
  if ring.element.isSome then [.callbackOnWritable] else []

def countPing (ctx : AigwWsCtx n) : Int × Bool :=
  if ctx.config.sendPing then
    if ctx.pingCount = ctx.config.pingIntervalS then (0, true) else (ctx.pingCount + 1, false)
  else (ctx.pingCount, false)

def aigwLwsCallback (s : Client n) : Reason → Int × Client n × List Output
  | .clientEstablished =>
      (0, { ctx := { s.ctx with connected := true, tryConnect := true, pingCount := 0 }, reconnectTimes := 0 },
        [.callbackOnWritable, .setTimerUsecs])
  | .clientConnectionError conn =>
      let ctx := { s.ctx with connected := false }
      if s.reconnectTimes < maxReconnectTimes then
        (0, { ctx := (aigwWsConnect ctx conn).2, reconnectTimes := s.reconnectTimes + 1 }, [])
      else (0, { s with ctx := ctx }, [])
  | .clientClosed | .closed => (0, { s with ctx := { s.ctx with connected := false } }, [])
  | .clientReceive data => (0, s, if s.ctx.callback then [.callback data] else [])
  | .clientWriteable m =>
      if s.ctx.connected = false then (-1, s, [])
      else
        let ring := s.ctx.sendRing.consume
        match s.ctx.sendRing.element with
        | none => (0, { s with ctx := { s.ctx with sendRing := ring } }, wakeWriter ring)
        | some msg =>
            if m < toInt msg.length then (-1, s, [.write msg m])
            else (0, { s with ctx := { s.ctx with sendRing := ring } }, .write msg m :: wakeWriter ring)
  | .timer =>
      if s.ctx.connected then
        let (pingCount, due) := countPing s.ctx
        (0, { s with ctx := { s.ctx with pingCount := pingCount } },
          (if due then [.writePing] else []) ++ .setTimerUsecs :: wakeWriter s.ctx.sendRing)
      else (0, s, [])
  | .other => (0, s, [])

/-- The first part of `aigw_ws_send_request`, before the second that it sleeps. -/
def reconnect (ctx : AigwWsCtx n) (conn : Option Pointer) : AigwWsCtx n :=
  if ctx.connected = false ∧ ctx.tryConnect = true then { (aigwWsConnect ctx conn).2 with tryConnect := false } else ctx

/-- The part of `aigw_ws_send_request` under the lock. A message that finds no room is freed. -/
def insertMessage (ctx : AigwWsCtx n) (jsonStr : Bytes) : AigwWsCtx n :=
  { ctx with sendRing := (ctx.sendRing.insert jsonStr).2 }

/-- The last part, whose result is `VOLC_OK`. -/
def wakeAfterSend (ctx : AigwWsCtx n) : Int × List Output :=
  (volcOk, if ctx.connected then [.callbackOnWritable] else [])

end OneSdk.RealtimeWs
