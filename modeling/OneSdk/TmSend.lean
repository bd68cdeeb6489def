import OneSdk.MqttPublish
import OneSdk.TopicBuilders

namespace OneSdk.TmSend

open CString ErrorCode MqttContext MqttPublish TopicBuilders

/-- cJSON's values as the payloads use them. All numbers that are sent are integers. -/
structure CJson (V : Type) where
  createObject : V
  createString : Bytes → V
  createNumber : Int → V
  addToObject : V → Bytes → V → V
  removeFromObject : V → Bytes → V
  printUnformatted : V → Option Bytes

structure PropertyPost (V : Type) where
  id : Option Bytes
  version : Option Bytes
  params : Option V
  payloadRoot : Option V

structure PropertySetPostReply (V : Type) where
  id : Option Bytes
  code : Int
  payloadRoot : Option V

structure ShadowPost (V : Type) where
  id : Option Bytes
  version : Option Bytes
  params : V
  report : Option V
  payloadRoot : Option V

structure ShadowGet (V : Type) where
  id : Option Bytes
  version : Option Bytes
  payloadRoot : Option V

structure ShadowClearPost (V : Type) where
  payloadRoot : Option V

structure WebshellCommandPong where
  pong : Option Bytes
  uid : Bytes

structure EventPost (V : Type) where
  id : Option Bytes
  version : Option Bytes
  moduleKey : Bytes
  identifier : Bytes
  params : Option V
  payloadRoot : Option V

structure ServiceCallReply (V : Type) where
  id : Option Bytes
  moduleKey : Bytes
  identifier : Bytes
  topicUuid : Bytes
  code : Int
  params : Option V
  payloadRoot : Option V

structure CustomTopicPost where
  customTopicSuffix : Bytes
  params : Option Bytes

/-- The type of a message with the member of the union that belongs to it. `unknown` is a
type from `IOT_TM_MSG_MAX` on. -/
inductive MsgData (V : Type) where
  | propertyPost (post : PropertyPost V)
  | propertySetReply (reply : PropertySetPostReply V)
  | shadowReport (post : ShadowPost V)
  | shadowGet (get : ShadowGet V)
  | shadowClear (clear : ShadowClearPost V)
  | webshellCommandReply (uid : Bytes)
  | webshellCommandPong (pong : WebshellCommandPong)
  | eventPost (post : EventPost V)
  | serviceCallReply (reply : ServiceCallReply V)
  | customTopic (post : CustomTopicPost)
  | unknown

structure Msg (V : Type) where
  productKey : Option Bytes
  deviceName : Option Bytes
  data : MsgData V

structure TmHandler where
  mqttHandle : Option Ctx
  productKey : Bytes
  deviceName : Bytes

structure Moment where
  currentTimeMil : Int
  randomString : Bytes

def sdkVersion : Bytes := text "1.0.0"

section Payloads

variable {V : Type} (json : CJson V) (now : Moment)

def awsJsonAddJsonObj (object : V) (key : Bytes) : Option V → V
  | none => json.removeFromObject object key
  | some value => json.addToObject object key value

def awsJsonAddStrVal (object : V) (key : Bytes) (value : Option Bytes) : V :=
  awsJsonAddJsonObj json object key (value.map json.createString)

def awsJsonAddNumVal (object : V) (key : Bytes) (value : Int) : V :=
  json.addToObject object key (json.createNumber value)

/-- A value that does not print gives an empty buffer. -/
def awsJsonObjToByteBuf (value : V) : Bytes := (json.printUnformatted value).getD []

def iotPropertyPostPayload (pty : PropertyPost V) : V :=
  pty.payloadRoot.getD
    (let root := awsJsonAddStrVal json json.createObject (text "id") pty.id
     let root := awsJsonAddStrVal json root (text "version") pty.version
     awsJsonAddJsonObj json root (text "params") pty.params)

def iotPropertySetPostReplyPayload (pty : PropertySetPostReply V) : V :=
  pty.payloadRoot.getD
    (let root := awsJsonAddStrVal json json.createObject (text "id") pty.id
     awsJsonAddNumVal json root (text "code") pty.code)

def iotShadowPostPayload (pty : ShadowPost V) : V :=
  pty.payloadRoot.getD
    (let root := awsJsonAddStrVal json json.createObject (text "id") pty.id
     let root := awsJsonAddStrVal json root (text "version") pty.version
     let params := awsJsonAddNumVal json pty.params (text "version") now.currentTimeMil
     let params := awsJsonAddJsonObj json params (text "report") pty.report
     json.addToObject root (text "params") params)

def iotShadowGetPayload (pty : ShadowGet V) : V :=
  pty.payloadRoot.getD
    (let root := awsJsonAddStrVal json json.createObject (text "id") pty.id
     awsJsonAddStrVal json root (text "version") pty.version)

def iotShadowClearPayload (pty : ShadowClearPost V) : V :=
  pty.payloadRoot.getD
    (let root := awsJsonAddStrVal json json.createObject (text "ID") (some now.randomString)
     let root := awsJsonAddStrVal json root (text "Version") (some sdkVersion)
     awsJsonAddNumVal json root (text "Params") now.currentTimeMil)

/-- The pong is the first member of its structure. -/
def iotWebshellCommandPongPayload (pong : Option Bytes) : Bytes := pong.getD []

/-- Built anew each time. A root that was taken before is destroyed, with the parameters that it holds, before they are
used again. -/
def iotTmMsgEventPostPayload (event : EventPost V) : Option V :=
  if event.payloadRoot.isSome = true ∧ event.params.isSome = true then none
  else
    let root := awsJsonAddStrVal json json.createObject (text "ID") event.id
    let root := awsJsonAddStrVal json root (text "Version") event.version
    let params := awsJsonAddNumVal json json.createObject (text "Time") now.currentTimeMil
    let params := awsJsonAddJsonObj json params (text "Value") event.params
    some (json.addToObject root (text "Params") params)

def iotTmMsgServiceCallReplyPayload (reply : ServiceCallReply V) : V :=
  reply.payloadRoot.getD
    (let root := awsJsonAddStrVal json json.createObject (text "id") reply.id
     let root := awsJsonAddNumVal json root (text "code") reply.code
     awsJsonAddJsonObj json root (text "Data") reply.params)

def customTopicPostPayload (post : CustomTopicPost) : Bytes := post.params.getD []

end Payloads

section Topics

variable {V : Type}

def topicFormat : MsgData V → String
  | .propertyPost _ => "sys/%s/%s/thingmodel/property/post"
  | .propertySetReply _ => "sys/%s/%s/thingmodel/service/preset/propertySet/post_reply"
  | .shadowReport _ => "sys/%s/%s/shadow/report"
  | .shadowGet _ => "sys/%s/%s/shadow/desired/get"
  | .shadowClear _ => "sys/%s/%s/shadow/desired/clear"
  | .webshellCommandReply _ => "sys/%s/%s/webshell/cmd/%s/post_reply"
  | .webshellCommandPong _ => "sys/%s/%s/webshell/cmd/%s/post_reply"
  | .eventPost _ => "sys/%s/%s/thingmodel/event/%s/%s/post"
  | .serviceCallReply _ => "sys/%s/%s/thingmodel/service/%s/%s/post_reply/%s"
  | .customTopic _ => "sys/%s/%s/custom/%s"
  | .unknown => ""

def topicParams : MsgData V → List Bytes
  | .webshellCommandReply uid => [uid]
  | .webshellCommandPong pong => [pong.uid]
  | .eventPost post => [post.moduleKey, post.identifier]
  | .serviceCallReply reply => [reply.moduleKey, reply.identifier, reply.topicUuid]
  | .customTopic post => [post.customTopicSuffix]
  | _ => []

/-- A name of the message stands for that of the configuration only with two bytes or more. -/
def chosenName (own : Option Bytes) (configured : Bytes) : Bytes :=
  if 1 < secureStrlen own then own.getD configured else configured

/-- It returns `VOLC_OK` whatever the type. None is a builder that prints beyond its memory. -/
def dmPrepareSendTopic (handle : TmHandler) (msg : Msg V) : Option Bytes :=
  let productKey := chosenName msg.productKey handle.productKey
  let deviceName := chosenName msg.deviceName handle.deviceName
  let fmt := topicFormat msg.data
  match msg.data with
  | .propertyPost _ | .propertySetReply _ | .shadowReport _ | .shadowGet _ | .shadowClear _ =>
      iotGetCommonTopic fmt productKey deviceName
  | .webshellCommandReply uid => iotGetTopicWith1CStrParam fmt productKey deviceName uid
  | .webshellCommandPong pong => iotGetTopicWith1CStrParam fmt productKey deviceName pong.uid
  | .eventPost post => iotGetTopicWith2CStrParam fmt productKey deviceName post.moduleKey post.identifier
  | .serviceCallReply reply =>
      iotGetTopicWith3CStrParam fmt productKey deviceName reply.moduleKey reply.identifier reply.topicUuid
  | .customTopic post => iotGetTopicWith1CStrParam fmt productKey deviceName post.customTopicSuffix
  | .unknown => some []

end Topics

section Send

variable {V : Type} (json : CJson V)

/-- What a call is given by its surroundings: the number of the publish call and the
outcome of its allocations, and the clock. -/
structure Call where
  serial : Nat
  alloc : PublishAlloc
  now : Moment

/-- The end of each send function: the result of `iot_mqtt_publish` is dropped. -/
def publishPayload (ctx : Ctx) (call : Call) (topic payload : Bytes) : Ctx × List Action × Int :=
  let r := iotMqttPublish ctx call.serial topic payload qos1 call.alloc
  (r.1, r.2.1, volcOk)

def tmSendPropertyPost (ctx : Ctx) (call : Call) (topic : Bytes) (post : PropertyPost V) :=
  publishPayload ctx call topic (awsJsonObjToByteBuf json (iotPropertyPostPayload json post))

def tmSendPropertySetPostReply (ctx : Ctx) (call : Call) (topic : Bytes) (reply : PropertySetPostReply V) :=
  publishPayload ctx call topic (awsJsonObjToByteBuf json (iotPropertySetPostReplyPayload json reply))

def tmSendShadowPost (ctx : Ctx) (call : Call) (topic : Bytes) (post : ShadowPost V) :=
  publishPayload ctx call topic (awsJsonObjToByteBuf json (iotShadowPostPayload json call.now post))

def tmSendShadowGet (ctx : Ctx) (call : Call) (topic : Bytes) (get : ShadowGet V) :=
  publishPayload ctx call topic (awsJsonObjToByteBuf json (iotShadowGetPayload json get))

def tmSendShadowClear (ctx : Ctx) (call : Call) (topic : Bytes) (clear : ShadowClearPost V) :=
  publishPayload ctx call topic (awsJsonObjToByteBuf json (iotShadowClearPayload json call.now clear))

/-- The union is read as a pong, whose first member is the `uid` here. -/
def tmSendWebshellCommandReply (ctx : Ctx) (call : Call) (topic uid : Bytes) :=
  publishPayload ctx call topic (iotWebshellCommandPongPayload (some uid))

def tmSendWebshellCommandPong (ctx : Ctx) (call : Call) (topic : Bytes) (pong : WebshellCommandPong) :=
  publishPayload ctx call topic (iotWebshellCommandPongPayload pong.pong)

def tmSendEventPost (ctx : Ctx) (call : Call) (topic : Bytes) (post : EventPost V) :=
  (iotTmMsgEventPostPayload json call.now post).map
    (fun payload => publishPayload ctx call topic (awsJsonObjToByteBuf json payload))

def tmSendServiceCallReply (ctx : Ctx) (call : Call) (topic : Bytes) (reply : ServiceCallReply V) :=
  publishPayload ctx call topic (awsJsonObjToByteBuf json (iotTmMsgServiceCallReplyPayload json reply))

def tmSendCustomTopicPostData (ctx : Ctx) (call : Call) (topic : Bytes) (post : CustomTopicPost) :=
  publishPayload ctx call topic (customTopicPostPayload post)

def sendFunction (ctx : Ctx) (call : Call) (topic : Bytes) : MsgData V → Option (Ctx × List Action × Int)
  | .propertyPost post => some (tmSendPropertyPost json ctx call topic post)
  | .propertySetReply reply => some (tmSendPropertySetPostReply json ctx call topic reply)
  | .shadowReport post => some (tmSendShadowPost json ctx call topic post)
  | .shadowGet get => some (tmSendShadowGet json ctx call topic get)
  | .shadowClear clear => some (tmSendShadowClear json ctx call topic clear)
  | .webshellCommandReply uid => some (tmSendWebshellCommandReply ctx call topic uid)
  | .webshellCommandPong pong => some (tmSendWebshellCommandPong ctx call topic pong)
  | .eventPost post => tmSendEventPost json ctx call topic post
  | .serviceCallReply reply => some (tmSendServiceCallReply json ctx call topic reply)
  | .customTopic post => some (tmSendCustomTopicPostData ctx call topic post)
  | .unknown => some (ctx, [], volcErrDmPublishTypeUnknown)

def isUnknown : MsgData V → Bool
  | .unknown => true
  | _ => false

/-- The client after the call, what it asks of lws, and the result. -/
def iotTmSend (handle : Option TmHandler) (msg : Option (Msg V)) (call : Call) :
    Option (Option TmHandler × List Action × Int) :=
  match handle, msg with
  | some handle, some msg =>
      if isUnknown msg.data then some (some handle, [], volcErrTmUserInputOutRange)
      else
        match handle.mqttHandle with
        | none => some (some handle, [], volcErrNullPointer)
        | some ctx =>
            (dmPrepareSendTopic handle msg).bind (fun topic =>
              (sendFunction json ctx call topic msg.data).map (fun r =>
                (some { handle with mqttHandle := some r.1 }, r.2.1, r.2.2)))
  | handle, _ => some (handle, [], volcErrNullPointer)

def payloadOf (now : Moment) : MsgData V → Option Bytes
  | .propertyPost post => some (awsJsonObjToByteBuf json (iotPropertyPostPayload json post))
  | .propertySetReply reply => some (awsJsonObjToByteBuf json (iotPropertySetPostReplyPayload json reply))
  | .shadowReport post => some (awsJsonObjToByteBuf json (iotShadowPostPayload json now post))
  | .shadowGet get => some (awsJsonObjToByteBuf json (iotShadowGetPayload json get))
  | .shadowClear clear => some (awsJsonObjToByteBuf json (iotShadowClearPayload json now clear))
  | .webshellCommandReply uid => some (iotWebshellCommandPongPayload (some uid))
  | .webshellCommandPong pong => some (iotWebshellCommandPongPayload pong.pong)
  | .eventPost post => (iotTmMsgEventPostPayload json now post).map (awsJsonObjToByteBuf json)
  | .serviceCallReply reply => some (awsJsonObjToByteBuf json (iotTmMsgServiceCallReplyPayload json reply))
  | .customTopic post => some (customTopicPostPayload post)
  | .unknown => some []

end Send

end OneSdk.TmSend
