import OneSdk.CString
import OneSdk.ErrorCode
import OneSdk.ParallelArrays

namespace OneSdk.MqttContext

open ParallelArrays

abbrev Wsi := Nat

def qos0 : Int := 0

def qos1 : Int := 1

@[simp] theorem qos1_ne_qos0 : ¬qos1 = qos0 := by decide

@[simp] theorem qos0_ne_qos1 : ¬qos0 = qos1 := by decide

/-- `lws_mqtt_publish_param_t`. The source has no `serial`: it numbers the calls of
`iot_mqtt_publish`, so that two messages of equal content stay apart. -/
structure PublishParam where
  serial : Nat
  topic : Bytes
  topicLen : Nat
  payload : Option Bytes
  payloadLen : Nat
  qos : Int
  deriving DecidableEq

instance : Inhabited PublishParam := ⟨⟨0, [], 0, none, 0, 0⟩⟩

structure TopicMap where
  topic : Bytes
  messageCallback : Pointer
  eventCallback : Pointer
  userData : Pointer
  qos : Int
  deriving DecidableEq

/-- `iot_mqtt_pending_pub_list_t`: two arrays, of which the first `count` elements are
in use. The blocks may be larger than that. -/
structure PendingPubList where
  publishParams : List PublishParam
  sentList : List Bool
  count : Nat
  params_alloc : count ≤ publishParams.length
  sent_alloc : count ≤ sentList.length

structure Config where
  autoReconnect : Bool
  pingInterval : Int

/-- `iot_mqtt_ctx_t`. A NULL list pointer is `none`; the array of a topic list is
always reallocated to its element count. -/
structure Ctx where
  config : Config
  wsi : Option Wsi
  subTopicMaps : List TopicMap
  pendingSubList : Option (List TopicMap)
  pendingPubList : Option PendingPubList
  isConnected : Bool
  waitingForSuback : Bool
  waitingForPuback : Bool

/-- The context after `memset` and the assignments of `iot_mqtt_init`. -/
def iotMqttInit (config : Config) : Ctx where
  config := { config with pingInterval := if config.pingInterval ≤ 0 then 60 else config.pingInterval }
  wsi := none
  subTopicMaps := []
  pendingSubList := none
  pendingPubList := none
  isConnected := false
  waitingForSuback := false
  waitingForPuback := false

/-- The calls that the client makes into lws and into the application, with the
outcome where the code looks at it. -/
inductive Action
  | callbackOnWritable (wsi : Option Wsi)
  | setTimerUsecs (wsi : Wsi) (usecs : Int)
  | cancelService
  | clientConnect (wsi : Option Wsi)
  | sendSubscribe (topics : List (Bytes × Int)) (accepted : Bool)
  | sendPublish (param : PublishParam) (accepted : Bool)
  | messageCallback (callback : Pointer) (topic payload : Bytes) (len : Nat) (userData : Pointer)
  deriving DecidableEq

abbrev Entry := PublishParam × Bool

def PendingPubList.entries (l : PendingPubList) : List Entry :=
  (l.publishParams.zip l.sentList).take l.count

def Ctx.pubEntries (ctx : Ctx) : List Entry :=
  match ctx.pendingPubList with
  | none => []
  | some l => l.entries

def Ctx.pendingSubs (ctx : Ctx) : List TopicMap := ctx.pendingSubList.getD []

def PendingPubList.empty : PendingPubList := ⟨[], [], 0, Nat.le_refl 0, Nat.le_refl 0⟩

@[simp] theorem PendingPubList.entries_length (l : PendingPubList) : l.entries.length = l.count := by
  have hp := l.params_alloc
  have hs := l.sent_alloc
  simp only [entries, List.length_take, List.length_zip]
  omega

end OneSdk.MqttContext
