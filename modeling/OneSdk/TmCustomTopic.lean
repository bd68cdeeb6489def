import OneSdk.TmReport

namespace OneSdk.TmCustomTopic

open CString ErrorCode MqttContext MqttRouting TopicBuilders TmSend TmReport TmTopics

def customFormat : String := "sys/%s/%s/custom/%s"

/-- `tm_sub_custom_topic`, or none where it reads through a null pointer or goes beyond the memory of its topic. -/
def tmSubCustomTopic (handle : TmHandler) (topicSuffix : Bytes) : Option (Int × List Effect) :=
  match handle.mqttHandle with
  | none => none
  | some _ =>
      (iotGetTopicWith1Param customFormat handle.productKey handle.deviceName topicSuffix).map
        (fun topic => (0, [.subscribe topic qos1]))

def tmRecvCustomTopic (recvHandler : Option Pointer) (topic payload : Bytes) : List Effect :=
  match recvHandler with
  | none => []
  | some handler =>
      let pieces := awsByteCursorSplitOnChar slash topic
      [.recvHandler handler ⟨getAt pieces 1, getAt pieces 2, .customTopic ⟨getAt pieces 4, payload⟩⟩]

def onesdkIotTmCustomTopicSub (tmHandler : Option TmHandler) (topicSuffix : Option Bytes) :
    Option (Int × List Effect) :=
  match tmHandler, topicSuffix with
  | none, _ => some (volcErrInit, [])
  | some _, none => some (volcErrInvalidParam, [])
  | some handle, some topicSuffix =>
      if topicSuffix.length = 0 then some (volcErrInvalidParam, []) else tmSubCustomTopic handle topicSuffix

section Pub

variable {V : Type} (json : TmSend.CJson V)

def onesdkIotTmCustomTopicPub (now : Moment) (tmHandler : Option TmHandler) (topicSuffix payload : Option Bytes) :
    Option (Int × List Effect) :=
  match tmHandler, topicSuffix, payload with
  | none, _, _ => some (volcErrInit, [])
  | some handle, some topicSuffix, some payload =>
      if topicSuffix.length = 0 ∨ payload.length = 0 then some (volcErrInvalidParam, [])
      else tmSend json now handle ⟨none, none, .customTopic ⟨topicSuffix, some payload⟩⟩
  | some _, _, _ => some (volcErrInvalidParam, [])

def OwnNames (handle : TmHandler) (msg : Msg V) : Prop :=
  (msg.productKey = none ∨ msg.productKey = some handle.productKey) ∧
    (msg.deviceName = none ∨ msg.deviceName = some handle.deviceName)

/-- The topic that is subscribed for a suffix: what arrives on it is handed over under the
names and the suffix, and what is sent with the suffix goes out on it. -/
def RoundTrips (now : Moment) (recvHandler : Pointer) (handle : TmHandler) (suffix : Bytes) : Prop :=
  ∃ topic, onesdkIotTmCustomTopicSub (some handle) (some suffix) = some (volcOk, [.subscribe topic qos1]) ∧
    (∀ payload, tmRecvCustomTopic (some recvHandler) topic payload =
      [.recvHandler recvHandler ⟨handle.productKey, handle.deviceName, .customTopic ⟨suffix, payload⟩⟩]) ∧
    (∀ msg : Msg V, OwnNames handle msg → ∀ post, msg.data = .customTopic post → post.customTopicSuffix = suffix →
      tmSend json now handle msg = some (volcOk, [.publish topic (customTopicPostPayload post) qos1])) ∧
    ∀ payload, payload ≠ [] → onesdkIotTmCustomTopicPub json now (some handle) (some suffix) (some payload) =
      some (volcOk, [.publish topic payload qos1])

end Pub

section Topic

variable {productKey deviceName suffix : Bytes}

theorem customText (productKey deviceName suffix : Bytes) :
    sprintf customFormat.toList [productKey, deviceName, suffix] =
      joinLevels ([text "sys", productKey, deviceName, text "custom"] ++ [suffix]) := by
  rfl

theorem customText_length (productKey deviceName suffix : Bytes) :
    (sprintf customFormat.toList [productKey, deviceName, suffix]).length =
      productKey.length + deviceName.length + suffix.length + 13 := by
  rw [customText, joinLevels]
  simp only [List.cons_append, List.nil_append, List.intercalate_cons_cons, List.intercalate_singleton,
    List.length_append, List.length_singleton, text, ascii, List.length_map]
  have hwords : "sys".toList.length = 3 ∧ "custom".toList.length = 6 := ⟨rfl, rfl⟩
  omega

theorem room_iff (key name n : Nat) :
    key + name + n + 13 < room (19 + key + name + n) ↔ key + name + n + 20 < 2 ^ 31 := by
  rw [room]
  split <;> omega

theorem room_unmeasured {key name n : Nat} (hlong : 1024 ≤ n) : ¬key + name + n + 13 < room (19 + key + name) := by
  rw [room]
  split <;> omega

variable {topic : Bytes}

theorem subTopic_iff :
    iotGetTopicWith1Param customFormat productKey deviceName suffix = some topic ↔
      productKey.length + deviceName.length + suffix.length + 20 < 2 ^ 31 ∧
        topic = joinLevels ([text "sys", productKey, deviceName, text "custom"] ++ [suffix]) := by
  have hfmt : secureStrlen (text customFormat) = 19 := rfl
  rw [iotGetTopicWith1Param, printTopic, Printing.sprintf_eq_some, customText_length, hfmt, room_iff, customText]

theorem sendTopic_iff :
    iotGetTopicWith1CStrParam customFormat productKey deviceName suffix = some topic ↔
      (suffix.length < 1024 ∧ productKey.length + deviceName.length + suffix.length + 20 < 2 ^ 31) ∧
        topic = joinLevels ([text "sys", productKey, deviceName, text "custom"] ++ [suffix]) := by
  have hfmt : secureStrlen (text customFormat) = 19 := rfl
  rw [iotGetTopicWith1CStrParam, printTopic, Printing.sprintf_eq_some, customText_length, hfmt, customText]
  apply and_congr_left
  intro _
  by_cases hshort : suffix.length < 1024
  · rw [secureStrlen, if_pos hshort, room_iff, and_iff_right hshort]
  · rw [secureStrlen, if_neg hshort, Nat.add_zero]
    exact iff_of_false (room_unmeasured (Nat.not_lt.mp hshort)) (fun h => hshort h.1)

theorem recv_custom (hkey : slash ∉ productKey) (hname : slash ∉ deviceName) (recvHandler : Pointer) (payload : Bytes) :
    tmRecvCustomTopic (some recvHandler) (joinLevels ([text "sys", productKey, deviceName, text "custom"] ++ [suffix]))
      payload =
        [.recvHandler recvHandler ⟨productKey, deviceName, .customTopic ⟨suffix.takeWhile (· != slash), payload⟩⟩] := by
  have hlevels : ∀ level ∈ [text "sys", productKey, deviceName, text "custom"], slash ∉ level := by
    simp only [List.forall_mem_cons]
    exact ⟨by decide, hkey, hname, by decide, nofun⟩
  rw [tmRecvCustomTopic, split_joinLevels hlevels, ← getAt_split_zero]
  rfl

end Topic

section RoundTrip

variable {V : Type} {json : TmSend.CJson V} {now : Moment} {handle : TmHandler} {ctx : Ctx} {suffix topic : Bytes}

theorem sub_iff (hctx : handle.mqttHandle = some ctx) (hne : suffix ≠ []) :
    onesdkIotTmCustomTopicSub (some handle) (some suffix) = some (volcOk, [.subscribe topic qos1]) ↔
      iotGetTopicWith1Param customFormat handle.productKey handle.deviceName suffix = some topic := by
  rw [onesdkIotTmCustomTopicSub, if_neg (fun h => hne (List.length_eq_zero_iff.mp h)), tmSubCustomTopic, hctx]
  dsimp only
  rw [Option.map_eq_some_iff]
  constructor
  · rintro ⟨topic', htopic, heffects⟩
    obtain ⟨rfl, -⟩ := Effect.subscribe.inj (List.singleton_injective (Prod.mk.inj heffects).2)
    exact htopic
  · intro h
    exact ⟨topic, h, rfl⟩

theorem chosenName_own {own : Option Bytes} {name : Bytes} (h : own = none ∨ own = some name) :
    chosenName own name = name := by
  rcases h with rfl | rfl <;> rw [chosenName] <;> split <;> rfl

theorem send_iff {msg : Msg V} {post : CustomTopicPost} (hctx : handle.mqttHandle = some ctx)
    (hown : OwnNames handle msg)
    (hdata : msg.data = .customTopic post) :
    tmSend json now handle msg = some (volcOk, [.publish topic (customTopicPostPayload post) qos1]) ↔
      iotGetTopicWith1CStrParam customFormat handle.productKey handle.deviceName post.customTopicSuffix =
        some topic := by
  have hprepared : dmPrepareSendTopic handle msg =
      iotGetTopicWith1CStrParam customFormat handle.productKey handle.deviceName post.customTopicSuffix := by
    rw [dmPrepareSendTopic, hdata, chosenName_own hown.1, chosenName_own hown.2]
    rfl
  have hmqtt : handle.mqttHandle.isNone = false := by rw [hctx]; rfl
  have hknown : isUnknown msg.data = false := by rw [hdata]; rfl
  rw [tmSend, hknown, hmqtt, if_neg Bool.false_ne_true, if_neg Bool.false_ne_true, hprepared, hdata,
    Option.bind_eq_some_iff]
  constructor
  · rintro ⟨topic', htopic, heffects⟩
    replace heffects := Option.some.inj heffects
    obtain ⟨rfl, -⟩ := Effect.publish.inj (List.singleton_injective (Prod.mk.inj heffects).2)
    exact htopic
  · intro h
    exact ⟨topic, h, rfl⟩

theorem RoundTrips.noSlash {recvHandler : Pointer} (h : RoundTrips json now recvHandler handle suffix)
    (hctx : handle.mqttHandle = some ctx) (hkey : slash ∉ handle.productKey) (hname : slash ∉ handle.deviceName)
    (hne : suffix ≠ []) : slash ∉ suffix := by
  obtain ⟨topic, hsub, hrecv, -⟩ := h
  obtain ⟨-, rfl⟩ := subTopic_iff.mp ((sub_iff hctx hne).mp hsub)
  have heffects := hrecv []
  rw [recv_custom hkey hname] at heffects
  obtain ⟨-, hrecv⟩ := Effect.recvHandler.inj (List.singleton_injective heffects)
  apply takeWhile_eq_self_iff_notMem.mp
  exact (RecvCustomTopic.mk.inj (RecvData.customTopic.inj (Recv.mk.inj hrecv).2.2)).1

end RoundTrip

/-- What is received of a suffix ends at its first slash, and the message is printed into
memory for a suffix of less than 1024 bytes. -/
theorem customTopic_roundTrips_iff {V : Type} (json : TmSend.CJson V) (now : Moment) (recvHandler : Pointer)
    {handle : TmHandler} {ctx : Ctx} {suffix : Bytes} (hctx : handle.mqttHandle = some ctx)
    (hkey : slash ∉ handle.productKey) (hname : slash ∉ handle.deviceName) (hne : suffix ≠ []) :
    RoundTrips json now recvHandler handle suffix ↔
      slash ∉ suffix ∧ suffix.length < 1024 ∧
        handle.productKey.length + handle.deviceName.length + suffix.length + 20 < 2 ^ 31 := by
  constructor
  · intro h
    have hslash := h.noSlash hctx hkey hname hne
    obtain ⟨topic, -, -, hsend, -⟩ := h
    have hsent := hsend ⟨none, none, .customTopic ⟨suffix, none⟩⟩ ⟨.inl rfl, .inl rfl⟩ _ rfl rfl
    obtain ⟨hbounds, -⟩ := sendTopic_iff.mp ((send_iff hctx ⟨.inl rfl, .inl rfl⟩ rfl).mp hsent)
    exact ⟨hslash, hbounds⟩
  · rintro ⟨hslash, hbounds⟩
    refine ⟨_, (sub_iff hctx hne).mpr (subTopic_iff.mpr ⟨hbounds.2, rfl⟩), ?_, ?_, ?_⟩
    · intro payload
      rw [recv_custom hkey hname, takeWhile_eq_self_iff_notMem.mpr hslash]
    · rintro msg hown post hdata rfl
      exact (send_iff hctx hown hdata).mpr (sendTopic_iff.mpr ⟨hbounds, rfl⟩)
    · intro payload hpayload
      have hsend := sendTopic_iff.mpr ⟨hbounds, rfl⟩
      rw [onesdkIotTmCustomTopicPub, if_neg (by simp [hne, hpayload])]
      have hpost : customTopicPostPayload ⟨suffix, some payload⟩ = payload := rfl
      rw [← hpost]
      exact (send_iff hctx ⟨.inl rfl, .inl rfl⟩ rfl).mpr hsend

section Documented

def shownHandler : TmHandler := ⟨some (iotMqttInit ⟨true, 60⟩), text "pk", text "dn"⟩

theorem roundTrips_alarm : RoundTrips textJson ⟨0, []⟩ 7 shownHandler (text "alarm") := by
  apply (customTopic_roundTrips_iff textJson ⟨0, []⟩ 7 rfl (by decide) (by decide) (by decide)).mpr
  decide

/-- The suffix that the documentation gives as its example. -/
theorem userGet_cut : ¬RoundTrips textJson ⟨0, []⟩ 7 shownHandler (text "user/get") := by
  intro h
  exact h.noSlash rfl (by decide) (by decide) (by decide) (by decide)

end Documented

end OneSdk.TmCustomTopic
