import OneSdk.MqttContext

namespace OneSdk.MqttPublish

open ErrorCode ParallelArrays MqttContext

structure PublishAlloc where
  topic : Bool
  payload : Bool
  list : Bool
  params : Bool
  sent : Bool
  deriving DecidableEq

def PublishAlloc.ok : PublishAlloc := ⟨true, true, true, true, true⟩

def pubParam (serial : Nat) (topic payload : Bytes) (qos : Int) : PublishParam where
  serial := serial
  topic := topic
  topicLen := topic.length
  payload := if payload.length > 0 then some payload else none
  payloadLen := payload.length
  qos := qos

def growParams (l : PendingPubList) : PendingPubList where
  publishParams := resize default (l.count + 1) l.publishParams
  sentList := l.sentList
  count := l.count
  params_alloc := by rw [length_resize]; omega
  sent_alloc := l.sent_alloc

def growSent (l : PendingPubList) : PendingPubList where
  publishParams := l.publishParams
  sentList := resize false (l.count + 1) l.sentList
  count := l.count
  params_alloc := l.params_alloc
  sent_alloc := by rw [length_resize]; omega

def store (l : PendingPubList) (hp : l.count < l.publishParams.length)
    (hs : l.count < l.sentList.length) (p : PublishParam) : PendingPubList where
  publishParams := l.publishParams.set l.count p
  sentList := l.sentList.set l.count false
  count := l.count + 1
  params_alloc := by rw [List.length_set]; exact hp
  sent_alloc := by rw [List.length_set]; exact hs

def pushBack (l : PendingPubList) (p : PublishParam) : PendingPubList :=
  store (growSent (growParams l)) (by simp [growSent, growParams, length_resize])
    (by simp [growSent, growParams, length_resize]) p

/-- The part of `iot_mqtt_publish` under `pub_topic_mutex`. -/
def enqueue (list : Option PendingPubList) (p : PublishParam) (alloc : PublishAlloc) :
    Option PendingPubList × Int :=
  match list with
  | none => if alloc.list then grow .empty else (none, volcErrMalloc)
  | some l => grow l
where
  grow (l : PendingPubList) : Option PendingPubList × Int :=
    if l.count > 10 then (some l, volcErrMqttPub)
    else if !alloc.params then (some l, volcErrMalloc)
    else if !alloc.sent then (some (growParams l), volcErrMalloc)
    else (some (pushBack l p), volcOk)

def wakeIfConnected (ctx : Ctx) : List Action :=
  if ctx.isConnected then [.callbackOnWritable ctx.wsi, .cancelService] else []

def iotMqttPublish (ctx : Ctx) (serial : Nat) (topic payload : Bytes) (qos : Int)
    (alloc : PublishAlloc) : Ctx × List Action × Int :=
  if !alloc.topic then (ctx, [], volcErrMalloc)
  else if payload.length > 0 && !alloc.payload then (ctx, [], volcErrMalloc)
  else
    let r := enqueue ctx.pendingPubList (pubParam serial topic payload qos) alloc
    ({ ctx with pendingPubList := r.1 }, wakeIfConnected ctx, r.2)

/-- The loop of CLIENT_WRITEABLE over the queue, from index `i`: the flags after it,
whether a QoS1 message went out, and the calls of `lws_mqtt_client_send_publish`.
`ok i` is the outcome of the call made for entry `i`. -/
def sendLoop (ok : Nat → Bool) : Nat → List PublishParam → List Bool → List Bool × Bool × List Action
  | i, p :: ps, sent :: flags =>
      if sent then
        let r := sendLoop ok (i + 1) ps flags
        (sent :: r.1, r.2)
      else if p.qos = qos0 then
        let r := sendLoop ok (i + 1) ps flags
        (ok i :: r.1, r.2.1, .sendPublish p (ok i) :: r.2.2)
      else if p.qos = qos1 then
        if ok i then (true :: flags, true, [.sendPublish p true])
        else
          let r := sendLoop ok (i + 1) ps flags
          (false :: r.1, r.2.1, .sendPublish p false :: r.2.2)
      else
        let r := sendLoop ok (i + 1) ps flags
        (false :: r.1, r.2)
  | _, _, flags => (flags, false, [])

theorem length_sendLoop (ok : Nat → Bool) (i : Nat) (ps : List PublishParam) (flags : List Bool) :
    (sendLoop ok i ps flags).1.length = flags.length := by
  induction ps generalizing i flags with
  | nil => rfl
  | cons p ps ih =>
      cases flags with
      | nil => rfl
      | cons sent flags =>
          rw [sendLoop]
          split
          · simp [ih]
          · split
            · simp [ih]
            · split
              · split <;> simp [ih]
              · simp [ih]

def markSent (l : PendingPubList) (ok : Nat → Bool) : PendingPubList where
  publishParams := l.publishParams
  sentList := (sendLoop ok 0 (l.publishParams.take l.count) l.sentList).1
  count := l.count
  params_alloc := l.params_alloc
  sent_alloc := by rw [length_sendLoop]; exact l.sent_alloc

def isSentQos0 (p : PublishParam) (sent : Bool) : Bool := sent && p.qos = qos0

/-- "Clean up sent QoS0 messages and compact the list". -/
def cleanUp (l : PendingPubList) : PendingPubList where
  publishParams := (compact isSentQos0 l.count 0 0 l.publishParams l.sentList).2.1
  sentList := (compact isSentQos0 l.count 0 0 l.publishParams l.sentList).2.2
  count := (compact isSentQos0 l.count 0 0 l.publishParams l.sentList).1
  params_alloc := by
    have h := compact_lengths isSentQos0 l.count 0 0 l.publishParams l.sentList
    have := l.params_alloc
    omega
  sent_alloc := by
    have h := compact_lengths isSentQos0 l.count 0 0 l.publishParams l.sentList
    have := l.sent_alloc
    omega

def freeIfEmpty (before after : PendingPubList) : Option PendingPubList :=
  if after.count < before.count ∧ after.count = 0 then none else some after

def writeablePublish (ctx : Ctx) (ok : Nat → Bool) : Ctx × List Action :=
  match ctx.pendingPubList with
  | none => (ctx, [])
  | some l =>
      if ctx.waitingForPuback then (ctx, [])
      else
        let r := sendLoop ok 0 (l.publishParams.take l.count) l.sentList
        let marked := markSent l ok
        ({ ctx with
            waitingForPuback := r.2.1
            pendingPubList := freeIfEmpty marked (cleanUp marked) }, r.2.2)

def isAwaited (e : Entry) : Bool := e.2 && e.1.qos ≠ qos0

def removeAt (l : PendingPubList) (k : Nat) (hk : k < l.count) : PendingPubList :=
  if h : k < l.count - 1 then
    { publishParams := move k (k + 1) (l.count - k - 1) l.publishParams
      sentList := move k (k + 1) (l.count - k - 1) l.sentList
      count := l.count - 1
      params_alloc := by have := l.params_alloc; rw [length_move] <;> omega
      sent_alloc := by have := l.sent_alloc; rw [length_move] <;> omega }
  else
    { publishParams := l.publishParams
      sentList := l.sentList
      count := l.count - 1
      params_alloc := by have := l.params_alloc; omega
      sent_alloc := by have := l.sent_alloc; omega }

/-- The search of MQTT_ACK for the acknowledged message, and its removal. -/
def removeAcked (l : PendingPubList) : Option PendingPubList :=
  match h : l.entries.findIdx? isAwaited with
  | none => some l
  | some k => freeIfEmpty l (removeAt l k (by
      have := (List.findIdx?_eq_some_iff_getElem.mp h).1
      rwa [l.entries_length] at this))

def ackPublish (ctx : Ctx) : Ctx :=
  if ctx.waitingForPuback then
    { ctx with
      waitingForPuback := false
      pendingPubList := ctx.pendingPubList.bind removeAcked }
  else ctx

end OneSdk.MqttPublish
