import OneSdk.MqttClient
import OneSdk.TmReplies

namespace OneSdk.InboundTopics

open CString MqttContext MqttSubscribe MqttCallback MqttRouting MqttQueue MqttClient TopicBuilders TmSend
  TmTopics TmReplies TopicFilter
open Runs

inductive Handler
  | tmRecvPropertySetHandler
  | tmRecvPropertySetPostReply
  | tmRecvShadowReportReplyHandler
  | tmRecvShadowGetReplyHandler
  | tmRecvShadowSetHandler
  | tmRecvWebshellCommandHandler
  | tmRecvEventPostReply
  | tmRecvServiceCall
  | tmRecvDeviceNtpInfo
  | tmRecvDeviceDelayInfo
  | otaRevOtaNotifyInfo
  | otaRevOtaUpgradePostReply
  | sLogRevLogReportConfig
  | tmRecvCustomTopic
  deriving DecidableEq

structure Device where
  productKey : Bytes
  deviceName : Bytes
  tmHandler : Pointer
  otaHandler : Pointer
  logHandler : Pointer
  address : Handler → Pointer
  productKey_ends : 0 ∉ productKey
  deviceName_ends : 0 ∉ deviceName

section SetUp

variable (d : Device)

def userData : Handler → Pointer
  | .otaRevOtaNotifyInfo | .otaRevOtaUpgradePostReply => d.otaHandler
  | .sLogRevLogReportConfig => d.logHandler
  | _ => d.tmHandler

/-- `g_dm_recv_topic_mapping` without its types, which all lead to the same builder. -/
def dmRecvTopicMapping : List (String × Option Handler) :=
  [("sys/%s/%s/thingmodel/service/preset/propertySet/post", some .tmRecvPropertySetHandler),
    ("sys/%s/%s/thingmodel/property/post_reply", some .tmRecvPropertySetPostReply),
    ("sys/%s/%s/shadow/report_reply", some .tmRecvShadowReportReplyHandler),
    ("sys/%s/%s/shadow/desired/get/reply", some .tmRecvShadowGetReplyHandler),
    ("sys/%s/%s/shadow/desired/set", some .tmRecvShadowSetHandler),
    ("sys/%s/%s/webshell/cmd/+/post", some .tmRecvWebshellCommandHandler),
    ("sys/%s/%s/thingmodel/event/+/+/post_reply", some .tmRecvEventPostReply),
    ("sys/%s/%s/thingmodel/service/+/+/post/+", some .tmRecvServiceCall),
    ("sys/%s/%s/custom/+", none),
    ("sys/%s/%s/ntp/response", some .tmRecvDeviceNtpInfo)]

/-- What is subscribed: the function and the topic, if that has got the memory. -/
abbrev Call := Handler × Option Bytes

def subscribeCommon (fmt : String) (handler : Handler) : Call :=
  (handler, iotGetCommonTopic fmt d.productKey d.deviceName)

def tmSetUpMqttTopic : List Call :=
  dmRecvTopicMapping.filterMap (fun item => item.2.map (subscribeCommon d item.1))

def iotTmSetMqttHandler : List Call :=
  tmSetUpMqttTopic d ++ [subscribeCommon d "sys/%s/%s/delay/+/post" .tmRecvDeviceDelayInfo]

def iotOtaSetMqttHandler : List Call :=
  [subscribeCommon d "sys/%s/%s/ota/notify/+" .otaRevOtaNotifyInfo,
    subscribeCommon d "sys/%s/%s/ota/upgrade/post_reply" .otaRevOtaUpgradePostReply]

def aiotLogSetMqttHandler : List Call :=
  [subscribeCommon d "sys/%s/%s/log/batch/config" .sLogRevLogReportConfig]

def tmSubCustomTopic (topicSuffix : Bytes) : Call :=
  (.tmRecvCustomTopic, iotGetTopicWith1Param "sys/%s/%s/custom/%s" d.productKey d.deviceName topicSuffix)

def Calls (call : Call) : Prop :=
  call ∈ iotTmSetMqttHandler d ++ iotOtaSetMqttHandler d ++ aiotLogSetMqttHandler d ∨
    ∃ topicSuffix, 0 ∉ topicSuffix ∧ call = tmSubCustomTopic d topicSuffix

/-- An entry for a topic. Of the event callback, which the thing model leaves as it finds it, nothing is said. -/
def EntryOf (handler : Handler) (m : TopicMap) : Prop :=
  Calls d (handler, some m.topic) ∧ m.messageCallback = d.address handler ∧ m.userData = userData d handler ∧
    m.qos = qos1

def Known (m : TopicMap) : Prop := ∃ handler, EntryOf d handler m

/-- All that happens to the client of a device, where only the three set-ups and custom topics subscribe. -/
def device : Machine Sys Event :=
  ⟨fun s e => enabled s e ∧ ∀ m alloc, e = .subscribe m alloc → Known d m, next⟩

end SetUp

section Lists

variable {P : TopicMap → Prop} {ctx : Ctx} {s : Sys} {m : TopicMap}

def AllTopics (P : TopicMap → Prop) (ctx : Ctx) : Prop := (∀ m ∈ ctx.subTopicMaps, P m) ∧ ∀ m ∈ ctx.pendingSubs, P m

theorem AllTopics.append (h : AllTopics P ctx) (hm : P m) (alloc : AppendAlloc) :
    AllTopics P (iotMqttAppendSubTopic ctx m alloc) := by
  obtain ⟨list, hframe⟩ := append_frame ctx m alloc
  refine ⟨by rw [hframe]; exact h.1, fun n hn => ?_⟩
  rw [append_pending, List.mem_append] at hn
  rcases hn with hn | hn
  · exact h.2 n hn
  · split at hn
    · rwa [List.mem_singleton.mp hn]
    · exact absurd hn List.not_mem_nil

theorem AllTopics.appendAll (h : AllTopics P ctx) (alloc : Nat → AppendAlloc) (i : Nat) {ms : List TopicMap}
    (hms : ∀ m ∈ ms, P m) : AllTopics P (appendAll alloc i ms ctx) := by
  induction ms generalizing i ctx with
  | nil => exact h
  | cons m ms ih =>
      obtain ⟨hm, hrest⟩ := List.forall_mem_cons.mp hms
      exact ih (h.append hm (alloc i)) (i + 1) hrest

theorem AllTopics.reconnect (h : AllTopics P ctx) (conn : Option Wsi) (alloc : Nat → AppendAlloc) :
    AllTopics P (iotMqttReconnect ctx conn alloc).1 := by
  cases conn with
  | none => exact h
  | some w =>
      have hw : AllTopics P { ctx with wsi := some w } := h
      exact hw.appendAll alloc 0 h.1

theorem AllTopics.writeable (h : AllTopics P ctx) (wsi : Wsi) (env : WriteableEnv) :
    AllTopics P (callbackMqtt ctx wsi (.clientWriteable env)).1 := by
  have hset : AllTopics P (setWsi ctx wsi) := h
  rcases callback_writeable_cases ctx wsi env with ⟨_, hr⟩ | ⟨_, m, ms, hlist, hr⟩ | ⟨_, _, hr⟩
  · rw [hr]
    exact hset
  · have hpending : ∀ n ∈ m :: ms, P n := by
      intro n hn
      refine h.2 n ?_
      rwa [Ctx.pendingSubs, hlist]
    rw [hr]
    cases he : env.subscribes with
    | false =>
        rw [(writeableSubscribe_fails (setWsi ctx wsi) wsi (m :: ms) env he).1]
        exact hset
    | true =>
        obtain ⟨_, hmaps, hrest, _⟩ := writeableSubscribe_succeeds (setWsi ctx wsi) wsi (m :: ms) env he
        refine ⟨fun n hn => ?_, fun n hn => ?_⟩
        · rw [hmaps] at hn
          rcases mem_moveToMaps hn with hn | hn
          · exact h.1 n hn
          · exact hpending n (List.mem_of_mem_take hn)
        · rw [hrest] at hn
          exact hpending n (List.mem_of_mem_drop hn)
  · obtain ⟨w, list, hf⟩ := writeablePublish_frame (setWsi ctx wsi) env.publishOk
    rw [hr, hf]
    exact hset

/-- Nothing comes to the topics of the client but what is subscribed, whichever allocations and sends fail. -/
theorem AllTopics.next (h : AllTopics P s.ctx) {e : Event} (he : ∀ m alloc, e = .subscribe m alloc → P m) :
    AllTopics P (next s e).ctx := by
  cases e with
  | publish topic payload qos alloc =>
      obtain ⟨list, hf⟩ := publish_frame s.ctx s.nextSerial topic payload qos alloc
      rw [MqttClient.next, publishStep, observe, hf]
      exact h
  | subscribe m alloc =>
      rw [MqttClient.next, subscribeTopic]
      split
      · exact h
      · exact h.append (he m alloc rfl) alloc
  | reconnect conn alloc => exact h.reconnect conn alloc
  | closed conn alloc =>
      have hset : AllTopics P (setDisconnected (setWsi s.ctx s.current)) := h
      rw [MqttClient.next, raise, observe, callbackMqtt, handle]
      split
      · exact hset.reconnect conn alloc
      · exact hset
  | writeable env => exact h.writeable s.current env
  | ack p =>
      obtain ⟨w, list, hf⟩ := ack_frame s p
      rw [hf]
      exact h
  | connect _ | connectionError _ | established _ | suback | resend | rx _ | timer | other => exact h

theorem device_topics {d : Device} {config : Config} {es : List Event} (hl : Legal (device d) (start config) es) :
    AllTopics (Known d) (final (device d) (start config) es).ctx := by
  have hstart : AllTopics (Known d) (start config).ctx := by
    constructor
    · exact fun m hm => absurd hm List.not_mem_nil
    · exact fun m hm => absurd hm List.not_mem_nil
  have hkeep (s : Sys) (e : Event) (hs : AllTopics (Known d) s.ctx) (he : (device d).enabled s e) :
      AllTopics (Known d) ((device d).next s e).ctx := hs.next he.2
  exact final_of_invariant hkeep hstart hl

end Lists

section Text

variable (d : Device)

def own : Bytes := text "sys/" ++ d.productKey ++ [slash] ++ d.deviceName ++ [slash]

def rest : Handler → String
  | .tmRecvPropertySetHandler => "thingmodel/service/preset/propertySet/post"
  | .tmRecvPropertySetPostReply => "thingmodel/property/post_reply"
  | .tmRecvShadowReportReplyHandler => "shadow/report_reply"
  | .tmRecvShadowGetReplyHandler => "shadow/desired/get/reply"
  | .tmRecvShadowSetHandler => "shadow/desired/set"
  | .tmRecvWebshellCommandHandler => "webshell/cmd/+/post"
  | .tmRecvEventPostReply => "thingmodel/event/+/+/post_reply"
  | .tmRecvServiceCall => "thingmodel/service/+/+/post/+"
  | .tmRecvDeviceNtpInfo => "ntp/response"
  | .tmRecvDeviceDelayInfo => "delay/+/post"
  | .otaRevOtaNotifyInfo => "ota/notify/+"
  | .otaRevOtaUpgradePostReply => "ota/upgrade/post_reply"
  | .sLogRevLogReportConfig => "log/batch/config"
  | .tmRecvCustomTopic => "custom/"

/-- A custom filter goes on after its beginning, the others are fixed. -/
inductive Filter : Handler → Bytes → Prop
  | fixed (handler : Handler) (hfixed : handler ≠ .tmRecvCustomTopic) : Filter handler (own d ++ text (rest handler))
  | custom (suffix : Bytes) (hends : 0 ∉ suffix) : Filter .tmRecvCustomTopic (own d ++ (text "custom/" ++ suffix))

variable {d} {handler : Handler} {topic : Bytes}

theorem own_append (r : Bytes) :
    own d ++ r = text "sys/" ++ (d.productKey ++ ([slash] ++ (d.deviceName ++ ([slash] ++ r)))) := by
  simp only [own, List.append_assoc]

theorem sprintf_plain {fmt : List Char} (h : '%' ∉ fmt) (args : List Bytes) : sprintf fmt args = ascii fmt := by
  fun_induction sprintf fmt args with
  | case1 fmt arg args ih => exact absurd List.mem_cons_self h
  | case2 c fmt args hplain ih =>
      rw [ih (fun hfmt => h (List.mem_cons_of_mem c hfmt))]
      rfl
  | case3 args => rfl

theorem rest_plain (handler : Handler) : '%' ∉ (rest handler).toList := by cases handler <;> decide

theorem sprintf_common (d : Device) (handler : Handler) :
    sprintf ("sys/%s/%s/" ++ rest handler).toList [d.productKey, d.deviceName] = own d ++ text (rest handler) := by
  have hnames : sprintf ("sys/%s/%s/".toList ++ (rest handler).toList) [d.productKey, d.deviceName] =
      text "sys/" ++ (d.productKey ++ ([slash] ++
        (d.deviceName ++ ([slash] ++ sprintf (rest handler).toList [])))) := rfl
  rw [String.toList_append, hnames, sprintf_plain (rest_plain handler), own_append]
  rfl

theorem fixed_call {call : Call}
    (h : call ∈ iotTmSetMqttHandler d ++ iotOtaSetMqttHandler d ++ aiotLogSetMqttHandler d) :
    call = subscribeCommon d ("sys/%s/%s/" ++ rest call.1) call.1 ∧ call.1 ≠ .tmRecvCustomTopic := by
  have hcall {fmt : String} {handler : Handler} (hfixed : handler ≠ .tmRecvCustomTopic)
      (hfmt : fmt = "sys/%s/%s/" ++ rest handler) :
      subscribeCommon d fmt handler = subscribeCommon d ("sys/%s/%s/" ++ rest (subscribeCommon d fmt handler).1)
        (subscribeCommon d fmt handler).1 ∧ (subscribeCommon d fmt handler).1 ≠ .tmRecvCustomTopic :=
    ⟨congrArg (fun f => subscribeCommon d f handler) hfmt, hfixed⟩
  revert call
  simp only [iotTmSetMqttHandler, tmSetUpMqttTopic, dmRecvTopicMapping, iotOtaSetMqttHandler, aiotLogSetMqttHandler,
    List.filterMap_cons, List.filterMap_nil, Option.map_some, Option.map_none, List.cons_append, List.nil_append,
    List.forall_mem_cons]
  refine ⟨?_, ?_, ?_, ?_, ?_, ?_, ?_, ?_, ?_, ?_, ?_, ?_, ?_, nofun⟩
  all_goals exact hcall (by decide) (by decide)

theorem Calls.filter (h : Calls d (handler, some topic)) : Filter d handler topic := by
  rcases h with h | ⟨suffix, hends, h⟩
  · obtain ⟨hcall, hfixed⟩ := fixed_call h
    have htopic := (Prod.mk.inj hcall).2.symm
    rw [(Printing.sprintf_eq_some.mp htopic).2, sprintf_common]
    exact .fixed handler hfixed
  · obtain ⟨rfl, htopic⟩ := Prod.mk.inj h
    have htext : sprintf "sys/%s/%s/custom/%s".toList [d.productKey, d.deviceName, suffix] =
        own d ++ (text "custom/" ++ suffix) := by
      have hparts : sprintf "sys/%s/%s/custom/%s".toList [d.productKey, d.deviceName, suffix] = text "sys/" ++
          (d.productKey ++ ([slash] ++ (d.deviceName ++ ([slash] ++ (text "custom/" ++ (suffix ++ [])))))) := rfl
      rw [hparts, own_append, List.append_nil]
    rw [(Printing.sprintf_eq_some.mp htopic.symm).2, htext]
    exact .custom suffix hends

theorem rest_ends (handler : Handler) : 0 ∉ text (rest handler) := by cases handler <;> decide

theorem own_ends (d : Device) : 0 ∉ own d := by
  have hslash : (0 : UInt8) ∉ [slash] := by decide
  simp only [own, List.mem_append, not_or]
  exact ⟨⟨⟨⟨by decide, d.productKey_ends⟩, hslash⟩, d.deviceName_ends⟩, hslash⟩

theorem Filter.ends {filter : Bytes} (h : Filter d handler filter) : 0 ∉ filter := by
  cases h with
  | fixed handler hfixed => exact fun h => (List.mem_append.mp h).elim (own_ends d) (rest_ends handler)
  | custom suffix hends =>
      refine fun h => (List.mem_append.mp h).elim (own_ends d) (fun h => ?_)
      exact (List.mem_append.mp h).elim (by decide) hends

theorem concat_inj {a b stem : Bytes} (hb : b ≠ []) (h : a ++ b = stem ++ [plus]) :
    ∃ init, b = init ++ [plus] ∧ stem = a ++ init := by
  obtain rfl | ⟨init, x, rfl⟩ := List.eq_nil_or_concat b
  · exact absurd rfl hb
  · rw [List.concat_eq_append, ← List.append_assoc] at h
    obtain ⟨hstem, hx⟩ := List.append_inj' h rfl
    rw [List.concat_eq_append, hx]
    exact ⟨init, rfl, hstem.symm⟩

theorem Filter.stem {filter stem : Bytes} (h : Filter d handler filter) (hstem : filter = stem ++ [plus]) :
    plus ∈ stem ∨ (handler = .otaRevOtaNotifyInfo ∧ stem = own d ++ text "ota/notify/") ∨
      (handler = .tmRecvCustomTopic ∧ ∃ more, stem = own d ++ (text "custom/" ++ more)) := by
  cases h with
  | fixed handler hfixed =>
      obtain ⟨init, hinit, rfl⟩ := concat_inj (by cases handler <;> decide) hstem
      have hlast : (text (rest handler)).getLast? = some plus := by rw [hinit, List.getLast?_concat]
      have hdrop : init = (text (rest handler)).dropLast := by rw [hinit, List.dropLast_concat]
      cases handler with
      | tmRecvServiceCall =>
          refine .inl (List.mem_append_right _ ?_)
          rw [hdrop]
          decide
      | otaRevOtaNotifyInfo => exact .inr (.inl ⟨rfl, congrArg (own d ++ ·) hdrop⟩)
      | tmRecvCustomTopic => exact absurd rfl hfixed
      | _ => exact absurd hlast (by decide)
  | custom suffix hends =>
      obtain ⟨init, hinit, rfl⟩ := concat_inj (List.append_ne_nil_of_left_ne_nil (by decide) _) hstem
      obtain rfl | hsuffix := eq_or_ne suffix []
      · rw [List.append_nil] at hinit
        exact absurd (congrArg List.getLast? hinit) (by rw [List.getLast?_concat]; decide)
      · obtain ⟨more, _, rfl⟩ := concat_inj hsuffix hinit
        exact .inr (.inr ⟨rfl, more, rfl⟩)

end Text

section Hearing

/-- How the client takes a filter, for a topic that the filter does not go beyond. -/
def Hears (filter topic : Bytes) : Prop := topic = filter ∨ ∃ stem, filter = stem ++ [plus] ∧ stem <+: topic

def literal : List Handler :=
  [.tmRecvPropertySetHandler, .tmRecvPropertySetPostReply, .tmRecvShadowReportReplyHandler,
    .tmRecvShadowGetReplyHandler, .tmRecvShadowSetHandler, .tmRecvDeviceNtpInfo, .otaRevOtaUpgradePostReply,
    .sLogRevLogReportConfig]

def handlerOf (r : Bytes) : Option Handler :=
  if text "custom/" <+: r then some .tmRecvCustomTopic
  else if text "ota/notify/" <+: r then some .otaRevOtaNotifyInfo
  else literal.find? (fun handler => r = text (rest handler))

variable {d : Device} {handler : Handler} {filter topic : Bytes}

theorem topicMatches_hears (ht : 0 ∉ topic) (hf : 0 ∉ filter) (hwhole : topic <+: filter → topic = filter) :
    topicMatches topic filter = true ↔ Hears filter topic := by
  rw [topicMatches_iff ht hf, Hears]
  refine or_congr ⟨hwhole, ?_⟩ Iff.rfl
  rintro rfl
  exact List.prefix_rfl

theorem not_both {a b r : Bytes} (ha : a <+: r) (hb : b <+: r) (hab : ¬a <+: b) (hba : ¬b <+: a) : False :=
  (List.prefix_or_prefix_of_prefix ha hb).elim hab hba

theorem handlerOf_notify {r : Bytes} (h : text "ota/notify/" <+: r) : handlerOf r = some .otaRevOtaNotifyInfo := by
  rw [handlerOf, if_neg (fun hcustom => not_both hcustom h (by decide) (by decide)), if_pos h]

/-- Whoever hears a topic is the one that it is for. -/
theorem Filter.hears (h : Filter d handler filter) (hplus : plus ∉ topic) (hears : Hears filter topic) :
    ∃ r, topic = own d ++ r ∧ handlerOf r = some handler := by
  rcases hears with rfl | ⟨stem, hstem, more, rfl⟩
  · cases h with
    | fixed handler hfixed =>
        refine ⟨_, rfl, ?_⟩
        have hrest : plus ∉ text (rest handler) := fun h => hplus (List.mem_append_right _ h)
        cases handler with
        | tmRecvWebshellCommandHandler | tmRecvEventPostReply | tmRecvServiceCall | tmRecvDeviceDelayInfo
        | otaRevOtaNotifyInfo => exact absurd (by decide) hrest
        | tmRecvCustomTopic => exact absurd rfl hfixed
        | _ => decide
    | custom suffix hends => exact ⟨_, rfl, if_pos (List.prefix_append _ _)⟩
  · rcases h.stem hstem with hwild | ⟨rfl, rfl⟩ | ⟨rfl, next, rfl⟩
    · exact absurd (List.mem_append_left _ hwild) hplus
    · exact ⟨text "ota/notify/" ++ more, List.append_assoc _ _ _, handlerOf_notify (List.prefix_append _ _)⟩
    · refine ⟨text "custom/" ++ (next ++ more), by simp only [List.append_assoc], if_pos (List.prefix_append _ _)⟩

theorem Filter.hears_of_handlerOf (h : Filter d handler filter) (hfixed : handler ≠ .tmRecvCustomTopic) {r : Bytes}
    (hr : handlerOf r = some handler) : Hears filter (own d ++ r) := by
  rw [handlerOf] at hr
  split at hr
  next => exact absurd (Option.some.inj hr).symm hfixed
  next =>
    split at hr
    next hnotify =>
      obtain rfl := Option.some.inj hr
      cases h with
      | fixed _ _ =>
          obtain ⟨more, rfl⟩ := hnotify
          have hfilter : text (rest .otaRevOtaNotifyInfo) = text "ota/notify/" ++ [plus] := by decide
          refine .inr ⟨own d ++ text "ota/notify/", by rw [hfilter, List.append_assoc], ?_⟩
          rw [← List.append_assoc]
          exact List.prefix_append _ _
    next =>
      have htext := List.find?_some hr
      rw [decide_eq_true_eq] at htext
      cases h with
      | fixed _ _ => exact .inl (congrArg (own d ++ ·) htext)
      | custom _ _ => exact absurd rfl hfixed

end Hearing

section Results

variable {d : Device} {config : Config} {es : List Event}

def called (d : Device) (handler : Handler) (pub : InboundPublish) : Action :=
  .messageCallback (d.address handler) pub.topic pub.payload pub.payloadLen (userData d handler)

theorem rx_known {maps : List TopicMap} (hknown : ∀ m ∈ maps, Known d m) {pub : InboundPublish} (hends : 0 ∉ pub.topic)
    (hwhole : ∀ m ∈ maps, pub.topic <+: m.topic → pub.topic = m.topic) :
    (rxLoop pub 0 maps = none ↔ ∀ m ∈ maps, ¬Hears m.topic pub.topic) ∧
      ∀ i action, rxLoop pub 0 maps = some (i, action) →
        ∃ m ∈ maps, Hears m.topic pub.topic ∧ action = deliver pub m := by
  have htest {m : TopicMap} (hm : m ∈ maps) : topicMatches pub.topic m.topic = true ↔ Hears m.topic pub.topic := by
    obtain ⟨handler, hentry⟩ := hknown m hm
    exact topicMatches_hears hends hentry.1.filter.ends (hwhole m hm)
  rw [rxLoop_firstMatch, Option.map_eq_none_iff, firstMatch_eq_none]
  constructor
  · refine forall₂_congr fun m hm => ?_
    rw [← Bool.not_eq_true, htest hm]
  · intro i action haction
    obtain ⟨⟨j, m⟩, hfirst, heq⟩ := Option.map_eq_some_iff.mp haction
    obtain ⟨hm, hmatch⟩ := mem_of_firstMatch hfirst
    exact ⟨m, hm, (htest hm).mp hmatch, (Prod.mk.inj heq).2.symm⟩

/-- To which function a message goes follows from its topic, in whatever order the topics have been subscribed and
whatever has failed on the way. A fixed topic that is held hears all that is for its function, a custom topic
its own. -/
theorem rx_by_topic (hl : Legal (device d) (start config) es) {pub : InboundPublish} (hends : 0 ∉ pub.topic)
    (hplus : plus ∉ pub.topic) :
    let maps := (final (device d) (start config) es).ctx.subTopicMaps
    (∀ m ∈ maps, pub.topic <+: m.topic → pub.topic = m.topic) →
      (∀ i action, rxLoop pub 0 maps = some (i, action) →
        ∃ r handler, pub.topic = own d ++ r ∧ handlerOf r = some handler ∧ action = called d handler pub) ∧
      ∀ r handler, pub.topic = own d ++ r → handlerOf r = some handler →
        (∃ m ∈ maps, EntryOf d handler m ∧ (handler = .tmRecvCustomTopic → Hears m.topic pub.topic)) →
          ∃ i, rxLoop pub 0 maps = some (i, called d handler pub) := by
  intro maps hwhole
  have hknown := (device_topics hl).1
  obtain ⟨hnone, hsome⟩ := rx_known hknown hends hwhole
  have hcall : ∀ i action, rxLoop pub 0 maps = some (i, action) →
      ∃ r handler, pub.topic = own d ++ r ∧ handlerOf r = some handler ∧ action = called d handler pub := by
    intro i action haction
    obtain ⟨m, hm, hears, rfl⟩ := hsome i action haction
    obtain ⟨handler, hcalls, hcallback, hdata, _⟩ := hknown m hm
    obtain ⟨r, htopic, hr⟩ := hcalls.filter.hears hplus hears
    refine ⟨r, handler, htopic, hr, ?_⟩
    rw [deliver, hcallback, hdata, called]
  refine ⟨hcall, ?_⟩
  intro r handler htopic hr ⟨m, hm, hentry, hcustom⟩
  have hears : Hears m.topic pub.topic := by
    by_cases hfixed : handler = .tmRecvCustomTopic
    · exact hcustom hfixed
    · exact htopic ▸ hentry.1.filter.hears_of_handlerOf hfixed hr
  cases hrx : rxLoop pub 0 maps with
  | none => exact absurd hears (hnone.mp hrx m hm)
  | some found =>
      obtain ⟨i, action⟩ := found
      obtain ⟨r', handler', htopic', hr', rfl⟩ := hcall i action hrx
      obtain rfl := List.append_cancel_left (htopic.symm.trans htopic')
      obtain rfl := Option.some.inj (hr.symm.trans hr')
      exact ⟨i, rfl⟩

def shownDevice : Device where
  productKey := text "pk"
  deviceName := text "dn"
  tmHandler := 1
  otaHandler := 2
  logHandler := 3
  address handler := if handler = .otaRevOtaNotifyInfo then 11 else 12
  productKey_ends := by decide
  deviceName_ends := by decide

def notifyEntry : TopicMap := ⟨text "sys/pk/dn/ota/notify/+", 11, 0, 2, qos1⟩

theorem notifyEntry_of : EntryOf shownDevice .otaRevOtaNotifyInfo notifyEntry := by
  have htopic : subscribeCommon shownDevice "sys/%s/%s/ota/notify/+" .otaRevOtaNotifyInfo =
      (.otaRevOtaNotifyInfo, some notifyEntry.topic) := by decide
  refine ⟨.inl (List.mem_append_left _ (List.mem_append_right _ ?_)), rfl, rfl, rfl⟩
  rw [← htopic]
  exact List.mem_cons_self

def notifyRun : List Event := [.subscribe notifyEntry .ok, .established 1, .writeable .ok]

theorem legal_notifyRun : Legal (device shownDevice) (start ⟨true, 60⟩) notifyRun := by
  refine ⟨⟨trivial, ?_⟩, ⟨trivial, nofun⟩, ⟨trivial, nofun⟩, trivial⟩
  rintro m alloc hm
  obtain ⟨rfl, -⟩ := Event.subscribe.inj hm
  exact ⟨_, notifyEntry_of⟩

theorem rx_notifyRun :
    ∃ i, rxLoop ⟨text "sys/pk/dn/ota/notify/j1", [1], 1⟩ 0
      (final (device shownDevice) (start ⟨true, 60⟩) notifyRun).ctx.subTopicMaps =
        some (i, called shownDevice .otaRevOtaNotifyInfo ⟨text "sys/pk/dn/ota/notify/j1", [1], 1⟩) := by
  have hmaps : (final (device shownDevice) (start ⟨true, 60⟩) notifyRun).ctx.subTopicMaps = [notifyEntry] := rfl
  refine (rx_by_topic legal_notifyRun (by decide) (by decide) ?_).2 (text "ota/notify/j1") _ (by decide) (by decide) ?_
  · rw [hmaps]
    decide
  · rw [hmaps]
    exact ⟨notifyEntry, List.mem_cons_self, notifyEntry_of, nofun⟩

end Results

section Wildcards

structure Level (level : Bytes) : Prop where
  ends : 0 ∉ level
  noSlash : slash ∉ level
  noPlus : plus ∉ level

/-- The topics on which the server calls a service, answers an event, sends a command and measures the delay. -/
inductive ServerTopic (d : Device) : Handler → List Bytes → Prop
  | serviceCall {m i u : Bytes} (hm : Level m) (hi : Level i) (hu : Level u) :
      ServerTopic d .tmRecvServiceCall [text "thingmodel", text "service", m, i, text "post", u]
  | eventReply {m i : Bytes} (hm : Level m) (hi : Level i) :
      ServerTopic d .tmRecvEventPostReply [text "thingmodel", text "event", m, i, text "post_reply"]
  | webshellCommand {u : Bytes} (hu : Level u) :
      ServerTopic d .tmRecvWebshellCommandHandler [text "webshell", text "cmd", u, text "post"]
  | delay {u : Bytes} (hu : Level u) : ServerTopic d .tmRecvDeviceDelayInfo [text "delay", u, text "post"]

def serverTopic (d : Device) (levels : List Bytes) : Bytes :=
  joinLevels (text "sys" :: d.productKey :: d.deviceName :: levels)

variable {d : Device} {handler : Handler} {levels : List Bytes}

theorem serverTopic_eq (d : Device) (hne : levels ≠ []) : serverTopic d levels = own d ++ joinLevels levels := by
  rw [serverTopic, joinLevels, List.intercalate_cons_cons, List.intercalate_cons_cons,
    List.intercalate_cons_of_ne_nil hne, own_append]
  simp only [List.append_assoc]
  rfl

theorem level_text {s : String} (h : 0 ∉ text s ∧ slash ∉ text s ∧ plus ∉ text s) : Level (text s) :=
  ⟨h.1, h.2.1, h.2.2⟩

theorem ServerTopic.plain (h : ServerTopic d handler levels) : levels ≠ [] ∧ ∀ level ∈ levels, Level level := by
  cases h with
  | serviceCall hm hi hu =>
      refine ⟨List.cons_ne_nil _ _, ?_⟩
      simp only [List.forall_mem_cons]
      exact ⟨level_text (by decide), level_text (by decide), hm, hi, level_text (by decide), hu, nofun⟩
  | eventReply hm hi =>
      refine ⟨List.cons_ne_nil _ _, ?_⟩
      simp only [List.forall_mem_cons]
      exact ⟨level_text (by decide), level_text (by decide), hm, hi, level_text (by decide), nofun⟩
  | webshellCommand hu =>
      refine ⟨List.cons_ne_nil _ _, ?_⟩
      simp only [List.forall_mem_cons]
      exact ⟨level_text (by decide), level_text (by decide), hu, level_text (by decide), nofun⟩
  | delay hu =>
      refine ⟨List.cons_ne_nil _ _, ?_⟩
      simp only [List.forall_mem_cons]
      exact ⟨level_text (by decide), hu, level_text (by decide), nofun⟩

theorem mem_joinLevels {x : UInt8} (hx : x ≠ slash) (h : ∀ level ∈ levels, x ∉ level) : x ∉ joinLevels levels := by
  intro hmem
  rw [joinLevels] at hmem
  induction levels with
  | nil => exact absurd hmem List.not_mem_nil
  | cons level levels ih =>
      obtain ⟨hlevel, hrest⟩ := List.forall_mem_cons.mp h
      cases levels with
      | nil =>
          rw [List.intercalate_singleton] at hmem
          exact hlevel hmem
      | cons next levels =>
          rw [List.intercalate_cons_cons, List.append_assoc, List.mem_append, List.mem_append] at hmem
          rcases hmem with hmem | hmem | hmem
          · exact hlevel hmem
          · exact hx (List.mem_singleton.mp hmem)
          · exact ih hrest hmem

theorem matches_of {patterns : List Bytes} (hkey : slash ∉ d.productKey) (hname : slash ∉ d.deviceName)
    (hlevels : ∀ level ∈ levels, slash ∉ level) (hpatterns : ∀ pattern ∈ patterns, slash ∉ pattern)
    (hfilter : text (rest handler) = joinLevels patterns) (h : List.Forall₂ (LevelMatches plus) levels patterns)
    (hne : patterns ≠ []) : Matches slash plus (serverTopic d levels) (own d ++ text (rest handler)) := by
  have hsplit {ls : List Bytes} (hls : ∀ level ∈ ls, slash ∉ level) :
      (serverTopic d ls).splitOn slash = text "sys" :: d.productKey :: d.deviceName :: ls := by
    refine List.splitOn_intercalate slash ?_ (List.cons_ne_nil _ _)
    simp only [List.forall_mem_cons]
    exact ⟨by decide, hkey, hname, hls⟩
  rw [Matches, hfilter, ← serverTopic_eq d hne, hsplit hlevels, hsplit hpatterns]
  exact .cons (.inr rfl) (.cons (.inr rfl) (.cons (.inr rfl) h))

theorem ServerTopic.matches (h : ServerTopic d handler levels) (hkey : slash ∉ d.productKey)
    (hname : slash ∉ d.deviceName) :
    Matches slash plus (serverTopic d levels) (own d ++ text (rest handler)) := by
  have hlevels : ∀ level ∈ levels, slash ∉ level := fun level hlevel => (h.plain.2 level hlevel).noSlash
  cases h with
  | serviceCall _ _ _ =>
      refine @matches_of _ _ _ [text "thingmodel", text "service", [plus], [plus], text "post",
        [plus]] hkey hname hlevels
        (by decide) (by decide) ?_ (by decide)
      exact .cons (.inr rfl) (.cons (.inr rfl)
        (.cons (.inl rfl) (.cons (.inl rfl) (.cons (.inr rfl) (.cons (.inl rfl) .nil)))))
  | eventReply _ _ =>
      refine @matches_of _ _ _ [text "thingmodel", text "event", [plus], [plus], text "post_reply"] hkey hname hlevels
        (by decide) (by decide) ?_ (by decide)
      exact .cons (.inr rfl) (.cons (.inr rfl) (.cons (.inl rfl) (.cons (.inl rfl) (.cons (.inr rfl) .nil))))
  | webshellCommand _ =>
      refine @matches_of _ _ _ [text "webshell", text "cmd", [plus], text "post"] hkey hname hlevels (by decide)
        (by decide) ?_
        (by decide)
      exact .cons (.inr rfl) (.cons (.inr rfl) (.cons (.inl rfl) (.cons (.inr rfl) .nil)))
  | delay _ =>
      refine @matches_of _ _ _ [text "delay", [plus], text "post"] hkey hname hlevels (by decide) (by decide) ?_
        (by decide)
      exact .cons (.inr rfl) (.cons (.inl rfl) (.cons (.inr rfl) .nil))

/-- What follows the names in such a topic: the text before the first wildcard of its filter, and more, which makes it
the beginning of no filter. -/
structure Beyond (r start : Bytes) : Prop where
  goes : start <+: r
  fixed : ∀ handler, ¬r <+: text (rest handler)
  custom : ¬start <+: text "custom/" ∧ ¬text "custom/" <+: start
  notify : ¬start <+: text "ota/notify/" ∧ ¬text "ota/notify/" <+: start

theorem not_prefix {start more filter : Bytes} (hmore : more ≠ [] ∧ plus ∉ more)
    (h : ¬start <+: filter ∨ ∃ tail, filter = start ++ plus :: tail) : ¬start ++ more <+: filter := by
  intro hbegin
  rcases h with h | ⟨tail, rfl⟩
  · exact h ((List.prefix_append start more).trans hbegin)
  · obtain ⟨x, more, rfl⟩ := List.exists_cons_of_ne_nil hmore.1
    rw [List.prefix_append_right_inj, List.cons_prefix_cons] at hbegin
    exact hmore.2 (hbegin.1 ▸ List.mem_cons_self)

theorem joinLevels_ne_nil (a b : Bytes) (levels : List Bytes) : joinLevels (a :: b :: levels) ≠ [] := by
  rw [joinLevels, List.intercalate_cons_cons, List.append_assoc]
  exact List.append_ne_nil_of_right_ne_nil _ (List.cons_ne_nil _ _)

theorem count_slash_le {m i u : Bytes} : 3 ≤ (joinLevels [m, i, text "post", u]).count slash := by
  rw [joinLevels, List.intercalate_cons_cons, List.intercalate_cons_cons, List.intercalate_cons_cons]
  simp only [List.count_append, List.count_singleton_self]
  omega

theorem ServerTopic.beyond (h : ServerTopic d handler levels) : ∃ start, Beyond (joinLevels levels) start := by
  have hplus : plus ∉ joinLevels levels :=
    mem_joinLevels (by decide) (fun level hlevel => (h.plain.2 level hlevel).noPlus)
  have hmore {start a b : Bytes} {more : List Bytes}
    (hjoin : joinLevels levels = start ++ joinLevels (a :: b :: more)) :
      joinLevels (a :: b :: more) ≠ [] ∧ plus ∉ joinLevels (a :: b :: more) :=
    ⟨joinLevels_ne_nil a b more, fun hmem => hplus (hjoin ▸ List.mem_append_right start hmem)⟩
  cases h with
  | @serviceCall m i u _ _ _ =>
      have hjoin : joinLevels [text "thingmodel", text "service", m, i, text "post", u] =
          text "thingmodel/service/" ++ joinLevels [m, i, text "post", u] := rfl
      refine ⟨text "thingmodel/service/", hjoin ▸ List.prefix_append _ _, fun handler => ?_, by decide, by decide⟩
      rw [hjoin]
      cases handler with
      | tmRecvServiceCall => exact not_prefix (hmore hjoin) (.inr ⟨text "/+/post/+", by decide⟩)
      | tmRecvPropertySetHandler =>
          have hfilter : text (rest .tmRecvPropertySetHandler) = text "thingmodel/service/" ++
              text "preset/propertySet/post" := by
            decide
          rw [hfilter, List.prefix_append_right_inj]
          -- the topic has three slashes more, the filter two
          intro hbegin
          have hle := hbegin.sublist.count_le slash
          exact absurd (count_slash_le.trans hle) (by decide)
      | _ => exact not_prefix (hmore hjoin) (.inl (by decide))
  | @eventReply m i _ _ =>
      have hjoin : joinLevels [text "thingmodel", text "event", m, i, text "post_reply"] =
          text "thingmodel/event/" ++ joinLevels [m, i, text "post_reply"] := rfl
      refine ⟨text "thingmodel/event/", hjoin ▸ List.prefix_append _ _, fun handler => ?_, by decide, by decide⟩
      rw [hjoin]
      cases handler with
      | tmRecvEventPostReply => exact not_prefix (hmore hjoin) (.inr ⟨text "/+/post_reply", by decide⟩)
      | _ => exact not_prefix (hmore hjoin) (.inl (by decide))
  | @webshellCommand u _ =>
      have hjoin : joinLevels [text "webshell", text "cmd", u, text "post"] = text "webshell/cmd/" ++
        joinLevels [u, text "post"] := rfl
      refine ⟨text "webshell/cmd/", hjoin ▸ List.prefix_append _ _, fun handler => ?_, by decide, by decide⟩
      rw [hjoin]
      cases handler with
      | tmRecvWebshellCommandHandler => exact not_prefix (hmore hjoin) (.inr ⟨text "/post", by decide⟩)
      | _ => exact not_prefix (hmore hjoin) (.inl (by decide))
  | @delay u _ =>
      have hjoin : joinLevels [text "delay", u, text "post"] = text "delay/" ++ joinLevels [u, text "post"] := rfl
      refine ⟨text "delay/", hjoin ▸ List.prefix_append _ _, fun handler => ?_, by decide, by decide⟩
      rw [hjoin]
      cases handler with
      | tmRecvDeviceDelayInfo => exact not_prefix (hmore hjoin) (.inr ⟨text "/post", by decide⟩)
      | _ => exact not_prefix (hmore hjoin) (.inl (by decide))

/-- No filter that is subscribed passes the client's own test. -/
theorem Beyond.unheard {r start filter : Bytes} (h : Beyond r start) (hplus : plus ∉ own d ++ r)
    (hfilter : Filter d handler filter) : ¬own d ++ r <+: filter ∧ ¬∃ stem, filter = stem ++ [plus] ∧
      stem <+: own d ++ r := by
  constructor
  · intro hbegin
    cases hfilter with
    | fixed handler hfixed => exact h.fixed handler ((List.prefix_append_right_inj (own d)).mp hbegin)
    | custom suffix hends =>
        have hr := (List.prefix_append_right_inj (own d)).mp hbegin
        exact not_both (h.goes.trans hr) (List.prefix_append _ suffix) h.custom.1 h.custom.2
  · rintro ⟨stem, hstem, hbegin⟩
    rcases hfilter.stem hstem with hwild | ⟨-, rfl⟩ | ⟨-, more, rfl⟩
    · exact hplus (hbegin.subset hwild)
    · exact not_both h.goes ((List.prefix_append_right_inj (own d)).mp hbegin) h.notify.1 h.notify.2
    · have hr := (List.prefix_append _ more).trans ((List.prefix_append_right_inj (own d)).mp hbegin)
      exact not_both h.goes hr h.custom.1 h.custom.2

variable {config : Config} {es : List Event}

/-- Services, event replies, webshell commands and delay messages are subscribed and may be sent, but in no run does the
client hand one to any function. -/
theorem server_topics_unheard (hl : Legal (device d) (start config) es) (hkey : Level d.productKey)
    (hname : Level d.deviceName) (h : ServerTopic d handler levels) (payload : Bytes) (payloadLen : Nat) :
    Matches slash plus (serverTopic d levels) (own d ++ text (rest handler)) ∧
      rxLoop ⟨serverTopic d levels, payload, payloadLen⟩ 0
        (final (device d) (start config) es).ctx.subTopicMaps = none := by
  refine ⟨h.matches hkey.noSlash hname.noSlash, ?_⟩
  have hplain {x : UInt8} (hx : x ≠ slash) (hsys : x ∉ text "sys") (hk : x ∉ d.productKey) (hn : x ∉ d.deviceName)
      (hlevels : ∀ level ∈ levels, x ∉ level) : x ∉ serverTopic d levels := by
    refine mem_joinLevels hx ?_
    simp only [List.forall_mem_cons]
    exact ⟨hsys, hk, hn, hlevels⟩
  have hends := hplain (by decide) (by decide) hkey.ends hname.ends (fun level hlevel => (h.plain.2 level hlevel).ends)
  have hplus := hplain (by decide) (by decide) hkey.noPlus hname.noPlus
    (fun level hlevel => (h.plain.2 level hlevel).noPlus)
  obtain ⟨start, hbeyond⟩ := h.beyond
  rw [serverTopic_eq d h.plain.1] at hends hplus ⊢
  rw [rxLoop_firstMatch, Option.map_eq_none_iff, firstMatch_eq_none]
  intro m hm
  obtain ⟨handler', hentry⟩ := (device_topics hl).1 m hm
  have hunheard := hbeyond.unheard hplus hentry.1.filter
  rw [← Bool.not_eq_true, topicMatches_iff hends hentry.1.filter.ends]
  exact fun hmatch => hmatch.elim hunheard.1 hunheard.2

theorem commands_unheard :
    Matches slash plus (serverTopic shownDevice [text "webshell", text "cmd", text "u1", text "post"])
        (own shownDevice ++ text (rest .tmRecvWebshellCommandHandler)) ∧
      rxLoop ⟨serverTopic shownDevice [text "webshell", text "cmd", text "u1", text "post"], [108, 115], 2⟩ 0
        (final (device shownDevice) (start ⟨true, 60⟩) notifyRun).ctx.subTopicMaps = none :=
  server_topics_unheard legal_notifyRun (level_text (by decide)) (level_text (by decide))
    (.webshellCommand (level_text (by decide))) [108, 115] 2

end Wildcards

end OneSdk.InboundTopics
