import OneSdk.MqttCallback
import OneSdk.MqttQueue
import OneSdk.Outbox

namespace OneSdk.MqttClient

open ErrorCode MqttContext MqttPublish MqttSubscribe MqttCallback MqttQueue DeliveryQueue Runs

/-- The client together with what lws and the broker have seen of it: whose callbacks
are raised, whether a write callback has been asked for since the last one began, the
topics of the SUBSCRIBEs taken on this connection, the QoS1 messages taken on it and
not acknowledged yet, and the messages accepted, taken and acknowledged so far. -/
structure Sys where
  ctx : Ctx
  current : Wsi
  armed : Bool
  subscribed : List Bytes
  inflight : List PublishParam
  accepted : List PublishParam
  handed : List PublishParam
  acked : List PublishParam
  nextSerial : Nat

def start (config : Config) : Sys where
  ctx := iotMqttInit config
  current := 0
  armed := false
  subscribed := []
  inflight := []
  accepted := []
  handed := []
  acked := []
  nextSerial := 0

inductive Event
  | publish (topic payload : Bytes) (qos : Int) (alloc : PublishAlloc)
  | subscribe (m : TopicMap) (alloc : AppendAlloc)
  | connect (conn : Option Wsi)
  | reconnect (conn : Option Wsi) (alloc : Nat → AppendAlloc)
  | connectionError (wsi : Wsi)
  | closed (conn : Option Wsi) (alloc : Nat → AppendAlloc)
  | established (wsi : Wsi)
  | suback
  | writeable (env : WriteableEnv)
  | ack (p : PublishParam)
  | resend
  | rx (pub : InboundPublish)
  | timer
  | other

def Event.isEstablished : Event → Bool
  | .established _ => true
  | _ => false

def takenMessage : Action → Option PublishParam
  | .sendPublish p true => some p
  | _ => none

def takenTopics : Action → List Bytes
  | .sendSubscribe topics true => topics.map Prod.fst
  | _ => []

def observe (s : Sys) (ctx : Ctx) (actions : List Action) : Sys :=
  { s with
    ctx := ctx
    armed := s.armed || actions.any (fun a => a = .callbackOnWritable (some s.current))
    subscribed := s.subscribed ++ actions.flatMap takenTopics
    inflight := s.inflight ++ (actions.filterMap takenMessage).filter (fun p => p.qos = qos1)
    handed := s.handed ++ actions.filterMap takenMessage }

def raise (s : Sys) (wsi : Wsi) (reason : Reason) : Sys :=
  observe s (callbackMqtt s.ctx wsi reason).1 (callbackMqtt s.ctx wsi reason).2.1

def publishStep (s : Sys) (topic payload : Bytes) (qos : Int) (alloc : PublishAlloc) : Sys :=
  let r := iotMqttPublish s.ctx s.nextSerial topic payload qos alloc
  observe { s with
    nextSerial := s.nextSerial + 1
    accepted := if r.2.2 = volcOk then s.accepted ++ [pubParam s.nextSerial topic payload qos] else s.accepted }
    r.1 r.2.1

def next (s : Sys) : Event → Sys
  | .publish topic payload qos alloc => publishStep s topic payload qos alloc
  | .subscribe m alloc => { s with ctx := (subscribeTopic s.ctx m alloc).1 }
  | .connect conn => observe s (iotMqttConnect s.ctx conn).1 (iotMqttConnect s.ctx conn).2.1
  | .reconnect conn alloc =>
      observe s (iotMqttReconnect s.ctx conn alloc).1 (iotMqttReconnect s.ctx conn alloc).2.1
  | .connectionError wsi => raise s wsi .clientConnectionError
  | .closed conn alloc => raise s s.current (.clientClosed conn alloc)
  | .established wsi =>
      raise { s with current := wsi, armed := false, subscribed := [], inflight := [] } wsi .clientEstablished
  | .suback => raise s s.current .subscribed
  | .writeable env => raise { s with armed := false } s.current (.clientWriteable env)
  | .ack p => raise { s with inflight := s.inflight.erase p, acked := s.acked ++ [p] } s.current .ack
  | .resend => raise s s.current .resend
  | .rx pub => raise s s.current (.clientRx pub)
  | .timer => raise s s.current .timer
  | .other => raise s s.current .other

/-- lws raises MQTT_ACK only for a message handed over on the current connection. -/
def enabled (s : Sys) : Event → Prop
  | .ack p => p ∈ s.inflight
  | _ => True

instance decidableEnabled (s : Sys) : (e : Event) → Decidable (enabled s e)
  | .ack p => inferInstanceAs (Decidable (p ∈ s.inflight))
  | .publish .. | .subscribe .. | .connect _ | .reconnect .. | .connectionError _ | .closed .. | .established _
  | .suback | .writeable _ | .resend | .rx _ | .timer | .other => .isTrue trivial

def client : Machine Sys Event := ⟨enabled, next⟩

/-- A call of `iot_mqtt_subscribe` is an event of the run, or changes nothing. -/
theorem iotMqttSubscribe_run (s : Sys) (m : Option TopicMap) (alloc : AppendAlloc) :
    (iotMqttSubscribe (some s.ctx) m alloc).1 = some (final client s (m.toList.map (.subscribe · alloc))).ctx := by
  cases m <;> rfl

theorem ack_frame (s : Sys) (p : PublishParam) : ∃ waiting list,
    next s (.ack p) = observe { s with inflight := s.inflight.erase p, acked := s.acked ++ [p] }
      { setWsi s.ctx s.current with waitingForPuback := waiting, pendingPubList := list }
      [.callbackOnWritable (some s.current)] := by
  obtain ⟨waiting, list, hf⟩ := ackPublish_frame (setWsi s.ctx s.current)
  refine ⟨waiting, list, ?_⟩
  rw [next, raise, callbackMqtt, handle]
  dsimp only
  rw [hf]

instance (s : Sys) (es : List Event) : Decidable (Legal client s es) :=
  @decidableEveryStep _ _ client enabled decidableEnabled s es

end OneSdk.MqttClient
