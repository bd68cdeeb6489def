import OneSdk.MqttPublish
import OneSdk.MqttSubscribe

namespace OneSdk.MqttCallback

open ErrorCode MqttContext MqttPublish MqttSubscribe

structure InboundPublish where
  topic : Bytes
  payload : Bytes
  payloadLen : Nat
  deriving DecidableEq

/-- `!strncmp(a, b, n)`, on strings followed by their terminator. -/
def strncmpEq : Nat → Bytes → Bytes → Bool
  | 0, _, _ => true
  | _ + 1, [], [] => true
  | _ + 1, [], b :: _ => b == 0
  | _ + 1, a :: _, [] => a == 0
  | n + 1, a :: as, b :: bs => a == b && (a == 0 || strncmpEq n as bs)

def plus : UInt8 := 43

/-- The two tests of CLIENT_RX for one entry. For an empty filter the second reads the
byte before it, but then compares the whole strings, which the first has found to differ. -/
def topicMatches (topic filter : Bytes) : Bool :=
  strncmpEq topic.length topic filter ||
    (filter.getLast? == some plus && strncmpEq (filter.length - 1) topic filter)

def deliver (pub : InboundPublish) (m : TopicMap) : Action :=
  .messageCallback m.messageCallback pub.topic pub.payload pub.payloadLen m.userData

/-- The loop of CLIENT_RX from index `i`: where it breaks, and the call it has made. -/
def rxLoop (pub : InboundPublish) : Nat → List TopicMap → Option (Nat × Action)
  | _, [] => none
  | i, m :: maps => if topicMatches pub.topic m.topic then some (i, deliver pub m) else rxLoop pub (i + 1) maps

inductive Reason
  | clientConnectionError
  | clientClosed (conn : Option Wsi) (alloc : Nat → AppendAlloc)
  | clientEstablished
  | subscribed
  | clientWriteable (env : WriteableEnv)
  | ack
  | resend
  | clientRx (pub : InboundPublish)
  | timer
  | other

def writeable (ctx : Ctx) (wsi : Wsi) (env : WriteableEnv) : Ctx × List Action × Int :=
  if ctx.waitingForSuback then (ctx, [], 0)
  else
    match ctx.pendingSubList with
    | some (m :: ms) => writeableSubscribe ctx wsi (m :: ms) env
    | _ => ((writeablePublish ctx env.publishOk).1, (writeablePublish ctx env.publishOk).2, 0)

def hasPendingSubs (ctx : Ctx) : Bool :=
  match ctx.pendingSubList with
  | none => false
  | some l => l.length > 0

def hasPendingPubs (ctx : Ctx) : Bool :=
  match ctx.pendingPubList with
  | none => false
  | some l => l.count > 0

def setDisconnected (ctx : Ctx) : Ctx := { ctx with isConnected := false }

def handle (ctx : Ctx) (wsi : Wsi) : Reason → Ctx × List Action × Int
  | .clientConnectionError => (setDisconnected ctx, [], 0)
  | .clientClosed conn alloc =>
      if ctx.config.autoReconnect then
        ((iotMqttReconnect (setDisconnected ctx) conn alloc).1,
          (iotMqttReconnect (setDisconnected ctx) conn alloc).2.1, 0)
      else (setDisconnected ctx, [], 0)
  | .clientEstablished =>
      ({ ctx with isConnected := true, waitingForPuback := false, waitingForSuback := false },
        [.callbackOnWritable (some wsi), .setTimerUsecs wsi (ctx.config.pingInterval * 1000000)], 0)
  | .subscribed =>
      ({ ctx with waitingForSuback := false },
        (if hasPendingSubs ctx then [.callbackOnWritable (some wsi)] else []) ++
          (if hasPendingPubs ctx then [.callbackOnWritable (some wsi)] else []), 0)
  | .clientWriteable env => writeable ctx wsi env
  | .ack => (ackPublish ctx, [.callbackOnWritable (some wsi)], 0)
  | .resend => (ctx, [.callbackOnWritable (some wsi)], 0)
  | .clientRx pub => (ctx, (rxLoop pub 0 ctx.subTopicMaps).toList.map Prod.snd ++ [.callbackOnWritable (some wsi)], 0)
  | .timer =>
      (ctx, if ctx.isConnected then
          [.setTimerUsecs wsi (ctx.config.pingInterval * 1000000), .callbackOnWritable (some wsi), .cancelService]
        else [], 0)
  | .other => (ctx, [], 0)

def setWsi (ctx : Ctx) (wsi : Wsi) : Ctx := { ctx with wsi := some wsi }

@[simp] theorem pubEntries_setWsi (ctx : Ctx) (wsi : Wsi) : (setWsi ctx wsi).pubEntries = ctx.pubEntries := rfl

@[simp] theorem waitingForPuback_setWsi (ctx : Ctx) (wsi : Wsi) :
    (setWsi ctx wsi).waitingForPuback = ctx.waitingForPuback := rfl

def callbackMqtt (ctx : Ctx) (wsi : Wsi) (reason : Reason) : Ctx × List Action × Int :=
  handle (setWsi ctx wsi) wsi reason

theorem hasPendingSubs_iff (ctx : Ctx) : hasPendingSubs ctx = true ↔ ∃ m ms, ctx.pendingSubList = some (m :: ms) := by
  rw [hasPendingSubs]
  split
  next h => simp [h]
  next l h => cases l <;> simp [h]

theorem callback_writeable_cases (ctx : Ctx) (wsi : Wsi) (env : WriteableEnv) :
    (ctx.waitingForSuback = true ∧ callbackMqtt ctx wsi (.clientWriteable env) = (setWsi ctx wsi, [], 0)) ∨
      (ctx.waitingForSuback = false ∧ ∃ m ms, ctx.pendingSubList = some (m :: ms) ∧
        callbackMqtt ctx wsi (.clientWriteable env) = writeableSubscribe (setWsi ctx wsi) wsi (m :: ms) env) ∨
      (ctx.waitingForSuback = false ∧ hasPendingSubs ctx = false ∧
        callbackMqtt ctx wsi (.clientWriteable env) =
          ((writeablePublish (setWsi ctx wsi) env.publishOk).1,
            (writeablePublish (setWsi ctx wsi) env.publishOk).2, 0)) := by
  cases hs : ctx.waitingForSuback with
  | true => exact .inl ⟨rfl, by simp [callbackMqtt, handle, writeable, setWsi, hs]⟩
  | false =>
      refine .inr ?_
      by_cases hp : hasPendingSubs ctx = true
      · obtain ⟨m, ms, hl⟩ := (hasPendingSubs_iff ctx).mp hp
        exact .inl ⟨rfl, m, ms, hl, by simp [callbackMqtt, handle, writeable, setWsi, hs, hl]⟩
      · have hn : hasPendingSubs ctx = false := by simpa using hp
        refine .inr ⟨rfl, hn, ?_⟩
        rw [callbackMqtt, handle, writeable, if_neg (by simp [setWsi, hs])]
        split
        next m ms h => exact absurd ((hasPendingSubs_iff ctx).mpr ⟨m, ms, h⟩) hp
        next => rfl

end OneSdk.MqttCallback
