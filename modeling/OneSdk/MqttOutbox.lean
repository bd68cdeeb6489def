import OneSdk.MqttClient

namespace OneSdk.MqttOutbox

open ErrorCode MqttContext MqttPublish MqttSubscribe MqttCallback MqttQueue MqttClient DeliveryQueue Runs

def outboxOf (s : Sys) : Outbox.State PublishParam where
  queue := s.ctx.pubEntries
  waiting := s.ctx.waitingForPuback
  inflight := s.inflight
  accepted := s.accepted
  handed := s.handed
  acked := s.acked

def opOf (s : Sys) : Event → Outbox.Op PublishParam
  | .publish topic payload qos alloc =>
      if (iotMqttPublish s.ctx s.nextSerial topic payload qos alloc).2.2 = volcOk then
        .accept (pubParam s.nextSerial topic payload qos)
      else .idle
  | .writeable env => if s.ctx.waitingForSuback || hasPendingSubs s.ctx then .idle else .write env.publishOk
  | .ack p => .ack p
  | .established _ => .renew
  | _ => .idle

variable (s : Sys)

theorem outboxOf_congr {s t : Sys} (hc : t.ctx.pubEntries = s.ctx.pubEntries)
    (hw : t.ctx.waitingForPuback = s.ctx.waitingForPuback) (hi : t.inflight = s.inflight)
    (ha : t.accepted = s.accepted) (hh : t.handed = s.handed) (hk : t.acked = s.acked) :
    outboxOf t = outboxOf s := by
  simp only [outboxOf, hc, hw, hi, ha, hh, hk]

theorem observe_quiet {ctx : Ctx} {actions : List Action} (hp : ctx.pendingPubList = s.ctx.pendingPubList)
    (hw : ctx.waitingForPuback = s.ctx.waitingForPuback) (ha : actions.filterMap takenMessage = []) :
    outboxOf (observe s ctx actions) = outboxOf s := by
  have he : ctx.pubEntries = s.ctx.pubEntries := by rw [pubEntries_eq, pubEntries_eq, hp]
  exact outboxOf_congr he hw (by simp [observe, ha]) rfl (by simp [observe, ha]) rfl

theorem filterMap_wake (ctx : Ctx) : (wakeIfConnected ctx).filterMap takenMessage = [] := by
  rw [wakeIfConnected]
  split <;> rfl

theorem filterMap_rx (pub : InboundPublish) (i : Nat) (maps : List TopicMap) :
    ((rxLoop pub i maps).toList.map Prod.snd).filterMap takenMessage = [] := by
  induction maps generalizing i with
  | nil => rfl
  | cons m maps ih =>
      rw [rxLoop]
      split
      · rfl
      · exact ih (i + 1)

theorem filterMap_subscribe (ctx : Ctx) (wsi : Wsi) (pending : List TopicMap) (env : WriteableEnv) :
    (writeableSubscribe ctx wsi pending env).2.1.filterMap takenMessage = [] := by
  rw [writeableSubscribe]
  split
  · rfl
  · split
    · rfl
    · dsimp only
      split <;> rfl

theorem filterMap_publishes (attempts : List Entry) :
    (attempts.map (fun a => Action.sendPublish a.1 a.2)).filterMap takenMessage = Outbox.taken attempts := by
  induction attempts with
  | nil => rfl
  | cons a attempts ih =>
      obtain ⟨p, b⟩ := a
      cases b with
      | false => exact ih
      | true => exact congrArg (p :: ·) ih

theorem outboxOf_publish (topic payload : Bytes) (qos : Int) (alloc : PublishAlloc) :
    outboxOf (publishStep s topic payload qos alloc) =
      Outbox.next service (outboxOf s) (opOf s (.publish topic payload qos alloc)) := by
  have hopOf : opOf s (.publish topic payload qos alloc) =
      if (iotMqttPublish s.ctx s.nextSerial topic payload qos alloc).2.2 = volcOk then
        .accept (pubParam s.nextSerial topic payload qos) else .idle := rfl
  have hidle {r : Ctx × List Action × Int} (hr : iotMqttPublish s.ctx s.nextSerial topic payload qos alloc = r)
      (hc : r.2.2 ≠ volcOk) (he : r.1.pubEntries = s.ctx.pubEntries)
      (hw : r.1.waitingForPuback = s.ctx.waitingForPuback) (ha : r.2.1.filterMap takenMessage = []) :
      outboxOf (publishStep s topic payload qos alloc) =
        Outbox.next service (outboxOf s) (opOf s (.publish topic payload qos alloc)) := by
    rw [hopOf, hr, if_neg hc]
    exact outboxOf_congr (by simp [publishStep, observe, hr, he]) (by simp [publishStep, observe, hr, hw])
      (by simp [publishStep, observe, hr, ha]) (by simp [publishStep, observe, hr, hc])
      (by simp [publishStep, observe, hr, ha]) rfl
  by_cases ht : alloc.topic = true
  · by_cases hp : payload.length > 0 && !alloc.payload
    · exact hidle (r := (s.ctx, [], volcErrMalloc)) (by simp [iotMqttPublish, ht, hp]) malloc_ne_ok rfl rfl rfl
    · have hr : iotMqttPublish s.ctx s.nextSerial topic payload qos alloc =
          ({ s.ctx with pendingPubList :=
              (enqueue s.ctx.pendingPubList (pubParam s.nextSerial topic payload qos) alloc).1 },
            wakeIfConnected s.ctx,
            (enqueue s.ctx.pendingPubList (pubParam s.nextSerial topic payload qos) alloc).2) := by
        simp only [iotMqttPublish, ht, hp]; rfl
      rcases enqueue_cases s.ctx.pendingPubList (pubParam s.nextSerial topic payload qos) alloc with
        ⟨hc, he⟩ | ⟨hc, he⟩
      · rw [hopOf, hr, if_pos hc]
        simp only [outboxOf, publishStep, observe, hr, hc, if_true, filterMap_wake, Outbox.next, pubEntries_eq, he,
          List.filter_nil, List.append_nil]
      · exact hidle hr hc (by simpa only [pubEntries_eq] using he) rfl (filterMap_wake s.ctx)
  · exact hidle (r := (s.ctx, [], volcErrMalloc)) (by simp [iotMqttPublish, ht]) malloc_ne_ok rfl rfl rfl

theorem outboxOf_writeable (env : WriteableEnv) :
    outboxOf (next s (.writeable env)) = Outbox.next service (outboxOf s) (opOf s (.writeable env)) := by
  rw [next, raise]
  rcases callback_writeable_cases s.ctx s.current env with ⟨hs, hr⟩ | ⟨hs, m, ms, hl, hr⟩ | ⟨hs, hp, hr⟩
  · have hop : opOf s (.writeable env) = .idle := by simp [opOf, hs]
    simp only [hop, hr]
    exact observe_quiet { s with armed := false } rfl rfl rfl
  · have hop : opOf s (.writeable env) = .idle := by simp [opOf, (hasPendingSubs_iff s.ctx).mpr ⟨m, ms, hl⟩]
    obtain ⟨w, maps, list, hf⟩ := writeableSubscribe_frame (setWsi s.ctx s.current) s.current (m :: ms) env
    simp only [hop, hr]
    rw [hf]
    exact observe_quiet { s with armed := false } rfl rfl
      (filterMap_subscribe (setWsi s.ctx s.current) s.current (m :: ms) env)
  · have hop : opOf s (.writeable env) = .write env.publishOk := by simp [opOf, hs, hp]
    simp only [hop, hr]
    by_cases hw : s.ctx.waitingForPuback = true
    · have hi : Outbox.next service (outboxOf s) (.write env.publishOk) = outboxOf s := if_pos hw
      rw [writeablePublish_waiting (setWsi s.ctx s.current) _ hw, hi]
      exact observe_quiet { s with armed := false } rfl rfl rfl
    · have hw : s.ctx.waitingForPuback = false := by simpa using hw
      obtain ⟨he, hf, ha⟩ := writeablePublish_pass (setWsi s.ctx s.current) env.publishOk hw
      rw [pubEntries_setWsi] at he hf ha
      simp only [outboxOf, observe, Outbox.next, Outbox.write, hw, he, hf, ha, filterMap_publishes, service_acked,
        Bool.false_eq_true, if_false]

theorem outboxOf_ack (p : PublishParam) :
    outboxOf (next s (.ack p)) = Outbox.next service (outboxOf s) (opOf s (.ack p)) := by
  obtain ⟨he, hw⟩ := ackPublish_acknowledge (setWsi s.ctx s.current)
  rw [pubEntries_setWsi, waitingForPuback_setWsi] at he
  simp only [next, raise, callbackMqtt, handle, observe, outboxOf, opOf, Outbox.next, he, hw, List.filterMap_cons,
    takenMessage, List.filterMap_nil, List.filter_nil, List.append_nil]
  rfl

/-- Each event is one operation of the publish side. -/
theorem outboxOf_next (e : Event) : outboxOf (next s e) = Outbox.next service (outboxOf s) (opOf s e) := by
  cases e with
  | publish topic payload qos alloc => exact outboxOf_publish s topic payload qos alloc
  | writeable env => exact outboxOf_writeable s env
  | ack p => exact outboxOf_ack s p
  | subscribe m alloc =>
      rw [next, subscribeTopic]
      split
      · rfl
      · obtain ⟨list, hl⟩ := append_frame s.ctx m alloc
        simp only [hl]
        rfl
  | connect conn => exact observe_quiet s rfl rfl rfl
  | reconnect conn alloc =>
      obtain ⟨list, hl⟩ := reconnect_frame s.ctx conn alloc
      rw [next, reconnect_actions, hl]
      exact observe_quiet s rfl rfl rfl
  | closed conn alloc =>
      rw [next, raise, callbackMqtt, handle]
      split
      · obtain ⟨list, hl⟩ := reconnect_frame (setDisconnected (setWsi s.ctx s.current)) conn alloc
        dsimp only
        rw [reconnect_actions, hl]
        exact observe_quiet s rfl rfl rfl
      · exact observe_quiet s rfl rfl rfl
  | established wsi =>
      simp only [next, raise, callbackMqtt, handle, observe, outboxOf, opOf, Outbox.next, List.filterMap_cons,
        takenMessage, List.filterMap_nil, List.filter_nil, List.append_nil]
      rfl
  | suback =>
      rw [next, raise, callbackMqtt, handle]
      refine observe_quiet s rfl rfl ?_
      dsimp only
      split <;> split <;> rfl
  | rx pub =>
      refine observe_quiet s rfl rfl ?_
      rw [callbackMqtt, handle, List.filterMap_append, filterMap_rx]
      rfl
  | timer =>
      rw [next, raise, callbackMqtt, handle]
      refine observe_quiet s rfl rfl ?_
      dsimp only
      split <;> rfl
  | connectionError wsi | resend | other => exact observe_quiet s rfl rfl rfl

theorem everyStep_outbox {Q : Outbox.State PublishParam → Outbox.Op PublishParam → Prop} {s : Sys} {es : List Event} :
    EveryStep (Outbox.outbox service) Q (outboxOf s) (image client opOf s es) ↔
      EveryStep client (fun s e => Q (outboxOf s) (opOf s e)) s es :=
  everyStep_image outboxOf_next

/-- Serials of accepted messages are used up, so a new message is a new one. -/
def Numbered (s : Sys) : Prop := ∀ p ∈ s.accepted, p.serial < s.nextSerial

theorem numbered_start (config : Config) : Numbered (start config) := fun _ h => absurd h List.not_mem_nil

theorem numbered_next {s : Sys} (h : Numbered s) (e : Event) : Numbered (next s e) := by
  cases e with
  | publish topic payload qos alloc =>
      intro p hp
      simp only [next, publishStep, observe] at hp ⊢
      split at hp
      · rcases List.mem_append.mp hp with hp | hp
        · exact Nat.lt_succ_of_lt (h p hp)
        · rw [List.mem_singleton.mp hp]
          exact Nat.lt_succ_self s.nextSerial
      · exact Nat.lt_succ_of_lt (h p hp)
  | _ => exact h

theorem enabled_outbox {s : Sys} (h : Numbered s) {e : Event} (he : enabled s e) :
    Outbox.enabled (outboxOf s) (opOf s e) := by
  cases e with
  | publish topic payload qos alloc =>
      rw [opOf]
      split
      · intro hm
        exact absurd (h _ hm) (Nat.lt_irrefl _)
      · trivial
  | writeable env =>
      rw [opOf]
      split <;> trivial
  | ack p => exact he
  | _ => trivial

theorem legal_outbox {s : Sys} (h : Numbered s) {es : List Event} (hl : Legal client s es) :
    Legal (Outbox.outbox service) (outboxOf s) (image client opOf s es) := by
  have hq (t : Sys) (e : Event) (ht : Numbered t) (he : client.enabled t e) :
      (Outbox.outbox service).enabled (outboxOf t) (opOf t e) := enabled_outbox ht he
  exact everyStep_outbox.mpr (everyStep_of_legal (fun _ e ht _ => numbered_next ht e) hq h hl)

end OneSdk.MqttOutbox
