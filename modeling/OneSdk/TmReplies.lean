import OneSdk.DynReg
import OneSdk.TmReport

namespace OneSdk.TmReplies

open CString ErrorCode MqttContext MqttRouting TopicBuilders TmSend TmReport TmTopics

def serviceReplyFormat : String := "sys/%s/%s/thingmodel/service/%s/%s/post_reply/%s"

section Service

variable {J D V : Type} (reader : DynReg.CJson J D) (printUnformatted : J → Option Bytes) (json : TmSend.CJson V)

def iotTmMsgServiceCallReplyInit (moduleKey identifier topicUuid msgId : Bytes) (code : Int) : ServiceCallReply V :=
  ⟨some msgId, moduleKey, identifier, topicUuid, code, some json.createObject, none⟩

def tmSendServerServiceCallReply (now : Moment) (handle : TmHandler) (moduleKey identifier topicUuid msgId : Bytes)
    (code : Int) : Option (List Effect) :=
  (tmSend json now handle
    ⟨none, none, .serviceCallReply (iotTmMsgServiceCallReplyInit json moduleKey identifier topicUuid msgId code)⟩).map
      Prod.snd

/-- A member that does not print gives an empty string. -/
def awsJsonGetJsonObj (object : Option J) (key : Bytes) : Bytes :=
  ((DynReg.awsJsonValueGetFromObject reader object key).bind printUnformatted).getD []

/-- `_tm_recv_service_call`: the application gets the call, and then it is answered. -/
def tmRecvServiceCall (now : Moment) (recvHandler : Option Pointer) (handle : TmHandler) (topic payload : Bytes) :
    Option (List Effect) :=
  match recvHandler with
  | none => some []
  | some handler =>
      let pieces := awsByteCursorSplitOnChar slash topic
      let payloadJson := DynReg.awsJsonValueNewFromString reader payload
      let serviceCall : RecvServiceCall :=
        { msgId := DynReg.awsJsonGetStr reader payloadJson (text "ID")
          version := DynReg.awsJsonGetStr reader payloadJson (text "Version")
          moduleKey := getAt pieces 5
          identifier := getAt pieces 6
          topicUuid := getAt pieces 8
          paramsJsonStr := awsJsonGetJsonObj reader printUnformatted payloadJson (text "Params") }
      let recv : Recv := ⟨getAt pieces 1, getAt pieces 2, .serviceCall serviceCall⟩
      (tmSendServerServiceCallReply json now handle serviceCall.moduleKey serviceCall.identifier serviceCall.topicUuid
        serviceCall.msgId 0).map (fun sent => .recvHandler handler recv :: sent)

end Service

section Delay

def delayReplyFormat : String := "sys/%s/%s/delay/%s/post_reply"

def tmSendDeviceDelayReplyData (handle : TmHandler) (uuid payload : Bytes) : Option (List Effect) :=
  match handle.mqttHandle with
  | none => none
  | some _ =>
      (iotGetTopicWith1Param delayReplyFormat handle.productKey handle.deviceName uuid).map
        (fun topic => [.publish topic payload qos1])

def tmRecvDeviceDelayInfo (handle : TmHandler) (topic payload : Bytes) : Option (List Effect) :=
  tmSendDeviceDelayReplyData handle (getAt (awsByteCursorSplitOnChar slash topic) 4) payload

end Delay

section Topics

variable (productKey deviceName m i u : Bytes)

def serviceTopic : Bytes :=
  joinLevels [text "sys", productKey, deviceName, text "thingmodel", text "service", m, i, text "post", u]

def serviceReplyTopic : Bytes :=
  joinLevels [text "sys", productKey, deviceName, text "thingmodel", text "service", m, i, text "post_reply", u]

def delayTopic : Bytes := joinLevels [text "sys", productKey, deviceName, text "delay", u, text "post"]

def delayReplyTopic : Bytes := joinLevels [text "sys", productKey, deviceName, text "delay", u, text "post_reply"]

/-- What a level of the topics is: it has no slash, and `secure_strlen` measures it. -/
def Segment (level : Bytes) : Prop := slash ∉ level ∧ level.length < 1024

variable {J D V : Type} (reader : DynReg.CJson J D) (printUnformatted : J → Option Bytes) (json : TmSend.CJson V)

def ServiceAnswered (now : Moment) (recvHandler : Pointer) (handle : TmHandler) (payload : Bytes) : Prop :=
  ∃ call reply,
    tmRecvServiceCall reader printUnformatted json now (some recvHandler) handle
      (serviceTopic handle.productKey handle.deviceName m i u) payload =
        some [.recvHandler recvHandler ⟨handle.productKey, handle.deviceName, .serviceCall call⟩,
          .publish (serviceReplyTopic handle.productKey handle.deviceName m i u) reply qos1] ∧
    call.moduleKey = m ∧ call.identifier = i ∧ call.topicUuid = u

def DelayAnswered (handle : TmHandler) (payload : Bytes) : Prop :=
  tmRecvDeviceDelayInfo handle (delayTopic handle.productKey handle.deviceName u) payload =
    some [.publish (delayReplyTopic handle.productKey handle.deviceName u) payload qos1]

end Topics

section Printed

variable {productKey deviceName m i u : Bytes}

theorem serviceReply_printed (hkey : productKey.length < 1024) (hname : deviceName.length < 1024) (hm : m.length < 1024)
    (hi : i.length < 1024) (hu : u.length < 1024) :
    iotGetTopicWith3CStrParam serviceReplyFormat productKey deviceName m i u =
      some (serviceReplyTopic productKey deviceName m i u) := by
  have hmeasured : ∀ {s : Bytes}, s.length < 1024 → secureStrlen s = s.length := fun h => if_pos h
  have hfmt : secureStrlen (text serviceReplyFormat) = 48 ∧ serviceReplyFormat.length = 48 := ⟨rfl, rfl⟩
  rw [iotGetTopicWith3CStrParam, hmeasured hkey, hmeasured hname, hmeasured hm, hmeasured hi, hmeasured hu, hfmt.1]
  apply printTopic_fits
  · simp only [hfmt.2, List.map_cons, List.map_nil, List.sum_cons, List.sum_nil]
    omega
  · omega

theorem delayReply_printed (hkey : productKey.length < 1024) (hname : deviceName.length < 1024) (hu : u.length < 1024) :
    iotGetTopicWith1Param delayReplyFormat productKey deviceName u =
      some (delayReplyTopic productKey deviceName u) := by
  have hfmt : secureStrlen (text delayReplyFormat) = 29 ∧ delayReplyFormat.length = 29 := ⟨rfl, rfl⟩
  rw [iotGetTopicWith1Param, hfmt.1]
  apply printTopic_fits
  · simp only [hfmt.2, List.map_cons, List.map_nil, List.sum_cons, List.sum_nil]
    omega
  · omega

theorem split_serviceTopic (hkey : slash ∉ productKey) (hname : slash ∉ deviceName) (hm : slash ∉ m) (hi : slash ∉ i)
    (hu : slash ∉ u) : awsByteCursorSplitOnChar slash (serviceTopic productKey deviceName m i u) =
      [text "sys", productKey, deviceName, text "thingmodel", text "service", m, i, text "post", u] := by
  apply split_levels
  · simp only [List.forall_mem_cons]
    exact ⟨by decide, hkey, hname, by decide, by decide, hm, hi, by decide, hu, nofun⟩
  · exact List.cons_ne_nil _ _

theorem split_delayTopic (hkey : slash ∉ productKey) (hname : slash ∉ deviceName) (hu : slash ∉ u) :
    awsByteCursorSplitOnChar slash (delayTopic productKey deviceName u) =
      [text "sys", productKey, deviceName, text "delay", u, text "post"] := by
  apply split_levels
  · simp only [List.forall_mem_cons]
    exact ⟨by decide, hkey, hname, by decide, hu, by decide, nofun⟩
  · exact List.cons_ne_nil _ _

end Printed

section Replies

variable {J D V : Type} (reader : DynReg.CJson J D) (printUnformatted : J → Option Bytes) (json : TmSend.CJson V)
  (now : Moment) {handle : TmHandler} {ctx : Ctx} {m i u : Bytes}

theorem serviceReply_sent (hctx : handle.mqttHandle = some ctx) (hkey : handle.productKey.length < 1024)
    (hname : handle.deviceName.length < 1024) (hm : m.length < 1024) (hi : i.length < 1024) (hu : u.length < 1024)
    (msgId : Bytes) (code : Int) :
    tmSendServerServiceCallReply json now handle m i u msgId code =
      some [.publish (serviceReplyTopic handle.productKey handle.deviceName m i u)
        (awsJsonObjToByteBuf json (iotTmMsgServiceCallReplyPayload json
          (iotTmMsgServiceCallReplyInit json m i u msgId code)))
        qos1] := by
  have hprepared : dmPrepareSendTopic handle
      ⟨none, none, .serviceCallReply (iotTmMsgServiceCallReplyInit json m i u msgId code)⟩ =
        some (serviceReplyTopic handle.productKey handle.deviceName m i u) :=
    serviceReply_printed hkey hname hm hi hu
  rw [tmSendServerServiceCallReply, tmSend_prepared hctx rfl hprepared rfl, Option.map_some]

theorem serviceCall_answered (recvHandler : Pointer) (payload : Bytes) (hctx : handle.mqttHandle = some ctx)
    (hkey : Segment handle.productKey) (hname : Segment handle.deviceName) (hm : Segment m) (hi : Segment i)
    (hu : Segment u) :
    ServiceAnswered m i u reader printUnformatted json now recvHandler handle payload := by
  let payloadJson := DynReg.awsJsonValueNewFromString reader payload
  let call : RecvServiceCall :=
    { msgId := DynReg.awsJsonGetStr reader payloadJson (text "ID")
      version := DynReg.awsJsonGetStr reader payloadJson (text "Version")
      moduleKey := m
      identifier := i
      topicUuid := u
      paramsJsonStr := awsJsonGetJsonObj reader printUnformatted payloadJson (text "Params") }
  have hcut : tmRecvServiceCall reader printUnformatted json now (some recvHandler) handle
      (serviceTopic handle.productKey handle.deviceName m i u) payload =
        (tmSendServerServiceCallReply json now handle m i u call.msgId 0).map
          (fun sent => .recvHandler recvHandler ⟨handle.productKey, handle.deviceName, .serviceCall call⟩ :: sent) := by
    rw [tmRecvServiceCall, split_serviceTopic hkey.1 hname.1 hm.1 hi.1 hu.1]
    rfl
  rw [serviceReply_sent json now hctx hkey.2 hname.2 hm.2 hi.2 hu.2, Option.map_some] at hcut
  exact ⟨call, _, hcut, rfl, rfl, rfl⟩

theorem delay_answered (payload : Bytes) (hctx : handle.mqttHandle = some ctx) (hkey : Segment handle.productKey)
    (hname : Segment handle.deviceName) (hu : Segment u) :
    DelayAnswered u handle payload := by
  have huuid : getAt [text "sys", handle.productKey, handle.deviceName, text "delay", u, text "post"] 4 = u := rfl
  rw [DelayAnswered, tmRecvDeviceDelayInfo, split_delayTopic hkey.1 hname.1 hu.1, huuid,
    tmSendDeviceDelayReplyData, hctx]
  dsimp only
  rw [delayReply_printed hkey.2 hname.2 hu.2, Option.map_some]

end Replies

/-- Whatever the payload, a service call and a delay message are answered on the topic that
belongs to their own. -/
theorem replies_go_back {J D V : Type} (reader : DynReg.CJson J D) (printUnformatted : J → Option Bytes)
    (json : TmSend.CJson V) (now : Moment) (recvHandler : Pointer) {handle : TmHandler} {ctx : Ctx} {m i u : Bytes}
    (payload : Bytes) (hctx : handle.mqttHandle = some ctx) (hkey : Segment handle.productKey)
    (hname : Segment handle.deviceName) (hm : Segment m) (hi : Segment i) (hu : Segment u) :
    ServiceAnswered m i u reader printUnformatted json now recvHandler handle payload ∧
      DelayAnswered u handle payload := by
  constructor
  · exact serviceCall_answered reader printUnformatted json now recvHandler payload hctx hkey hname hm hi hu
  · exact delay_answered payload hctx hkey hname hu

theorem replies_lamp :
    ServiceAnswered (text "lamp") [] (text "u1") (DynReg.treeJson (text "\x7b\x7d") (.object []))
      (fun _ => none) textJson
      ⟨0, []⟩ 7 fullHandler (text "\x7b\x7d") ∧ DelayAnswered (text "u1") fullHandler (text "\x7b\x7d") := by
  apply replies_go_back
  · rfl
  all_goals exact ⟨by decide, by decide⟩

end OneSdk.TmReplies
