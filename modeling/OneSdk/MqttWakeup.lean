import OneSdk.MqttOutbox

namespace OneSdk.MqttWakeup

open MqttContext MqttPublish MqttSubscribe MqttCallback MqttQueue MqttClient DeliveryQueue Runs

def Waiting (ctx : Ctx) : Prop :=
  ctx.isConnected = true ∧ ctx.waitingForSuback = false ∧
    (ctx.pendingSubs ≠ [] ∨ ctx.waitingForPuback = false ∧ ∃ entry ∈ ctx.pubEntries, entry.2 = false)

/-- No lost wake-up: what waits has asked for its callback. -/
def Armed (s : Sys) : Prop := Waiting s.ctx → s.armed = true

/-- The application starts a connection only while it has none. -/
def connectsOffline (s : Sys) : Event → Prop
  | .connect _ | .reconnect .. => s.ctx.isConnected = false
  | _ => True

def soloClient : Machine Sys Event := ⟨fun s e => enabled s e ∧ connectsOffline s e, next⟩

/-- The steps that ask for the callback they need. A subscription has to find the
callback already asked for, and a CLIENT_WRITEABLE on an open connection has to get its
SUBSCRIBE out, or take a QoS1 message, or clear the queue. -/
def Wakes (s : Sys) : Event → Prop
  | .subscribe m alloc =>
      s.ctx.isConnected = true → s.ctx.waitingForSuback = false → s.armed = false →
        (∃ n ∈ s.ctx.subTopicMaps, m.topic = n.topic) ∨ appends s.ctx alloc = false
  | .writeable env =>
      s.ctx.isConnected = true → s.ctx.waitingForSuback = false →
        if hasPendingSubs s.ctx then env.subscribes = true
        else s.ctx.waitingForPuback = false →
          Takes service env.publishOk 0 s.ctx.pubEntries ∨ Clears service env.publishOk 0 s.ctx.pubEntries
  | _ => True

structure Attached (s : Sys) : Prop where
  armed : Armed s
  wsi : s.ctx.isConnected = true → s.ctx.wsi = some s.current

variable {s : Sys}

theorem armed_of_wake {ctx : Ctx} {actions : List Action} (h : .callbackOnWritable (some s.current) ∈ actions) :
    Armed (observe s ctx actions) := by
  intro _
  simp only [observe, Bool.or_eq_true, List.any_eq_true, decide_eq_true_eq]
  exact .inr ⟨_, h, rfl⟩

theorem armed_of_disconnected {t : Sys} (h : t.ctx.isConnected = false) : Armed t := by
  rintro ⟨hc, -⟩
  rw [h] at hc
  exact absurd hc (by simp)

theorem hasPendingSubs_eq (ctx : Ctx) : hasPendingSubs ctx = true ↔ ctx.pendingSubs ≠ [] := by
  rw [hasPendingSubs_iff, Ctx.pendingSubs]
  cases hl : ctx.pendingSubList with
  | none => simp
  | some l => cases l <;> simp

theorem hasPendingPubs_eq (ctx : Ctx) : hasPendingPubs ctx = true ↔ ctx.pubEntries ≠ [] := by
  rw [hasPendingPubs, Ctx.pubEntries]
  cases hl : ctx.pendingPubList with
  | none => simp
  | some l =>
      have hlen := l.entries_length
      simp only [gt_iff_lt, decide_eq_true_eq, ← hlen, List.length_pos_iff]

theorem armed_iff_of_unarmed (h : s.armed = false) : Armed s ↔ ¬Waiting s.ctx := by
  rw [Armed, h]
  simp

theorem unsent_settle {q : List Entry} :
    (∃ entry ∈ settle service q, entry.2 = false) ↔ ¬∀ p, (p, false) ∉ q := by
  simp only [not_forall, not_not]
  constructor
  · rintro ⟨⟨p, sent⟩, hp, rfl⟩
    exact ⟨p, (Outbox.mem_settle.mp hp).1⟩
  · rintro ⟨p, hp⟩
    exact ⟨(p, false), Outbox.mem_settle.mpr ⟨hp, by simp⟩, rfl⟩

theorem pass_rests_iff (ok : Nat → Bool) (q : List Entry) :
    ¬((sendPass service ok 0 q).2.1 = false ∧ ∃ entry ∈ settle service (sendPass service ok 0 q).1, entry.2 = false) ↔
      Takes service ok 0 q ∨ Clears service ok 0 q := by
  rw [unsent_settle, ← pass_stops_iff]
  cases hf : (sendPass service ok 0 q).2.1 with
  | true => simp
  | false =>
      rw [pass_leaves_iff service ok 0 q hf]
      simp

theorem writeable_armed (ctx : Ctx) (actions : List Action)
    (ha : ∀ a ∈ actions, a ≠ .callbackOnWritable (some s.current)) :
    (observe { s with armed := false } ctx actions).armed = false := by
  simp only [observe, Bool.false_or, List.any_eq_false, decide_eq_true_eq]
  exact ha

theorem armed_subscribe {m : TopicMap} {ms : List TopicMap} (hs : s.ctx.waitingForSuback = false)
    (hl : s.ctx.pendingSubList = some (m :: ms)) (env : WriteableEnv) :
    Armed (observe { s with armed := false } (writeableSubscribe (setWsi s.ctx s.current) s.current (m :: ms) env).1
      (writeableSubscribe (setWsi s.ctx s.current) s.current (m :: ms) env).2.1) ↔
      (s.ctx.isConnected = true → env.subscribes = true) := by
  cases he : env.subscribes with
  | false =>
      obtain ⟨hctx, hact⟩ := writeableSubscribe_fails (setWsi s.ctx s.current) s.current (m :: ms) env he
      have hun := writeable_armed (s := s) (setWsi s.ctx s.current)
        (writeableSubscribe (setWsi s.ctx s.current) s.current (m :: ms) env).2.1 (by
          intro a ha
          obtain ⟨topics, rfl⟩ := hact a ha
          simp)
      rw [hctx, armed_iff_of_unarmed hun]
      have hpend : (setWsi s.ctx s.current).pendingSubs ≠ [] := by simp [Ctx.pendingSubs, setWsi, hl]
      constructor
      · intro h hc
        exact absurd ⟨hc, hs, .inl hpend⟩ h
      · rintro h ⟨hc, -⟩
        exact absurd (h hc) (by simp)
  | true =>
      obtain ⟨hsub, -⟩ := writeableSubscribe_succeeds (setWsi s.ctx s.current) s.current (m :: ms) env he
      refine ⟨fun _ _ => rfl, ?_⟩
      rintro - ⟨-, hw, -⟩
      rw [observe, hsub] at hw
      exact absurd hw (by simp)

theorem armed_publish (hs : s.ctx.waitingForSuback = false) (hp : hasPendingSubs s.ctx = false)
    (ok : Nat → Bool) :
    Armed (observe { s with armed := false } (writeablePublish (setWsi s.ctx s.current) ok).1
      (writeablePublish (setWsi s.ctx s.current) ok).2) ↔
      (s.ctx.isConnected = true → s.ctx.waitingForPuback = false →
        Takes service ok 0 s.ctx.pubEntries ∨ Clears service ok 0 s.ctx.pubEntries) := by
  have hpend : s.ctx.pendingSubs = [] := by
    by_contra hne
    rw [(hasPendingSubs_eq s.ctx).mpr hne] at hp
    exact absurd hp (by simp)
  cases hw : s.ctx.waitingForPuback with
  | true =>
      rw [writeablePublish_waiting (setWsi s.ctx s.current) ok hw]
      refine ⟨fun _ _ h => absurd h (by simp), ?_⟩
      rintro - ⟨-, -, hne | ⟨hf, -⟩⟩
      · exact absurd hpend hne
      · exact absurd (hw.symm.trans hf) (by simp)
  | false =>
      obtain ⟨he, hf, ha⟩ := writeablePublish_pass (setWsi s.ctx s.current) ok hw
      obtain ⟨w, list, hframe⟩ := writeablePublish_frame (setWsi s.ctx s.current) ok
      have hun := writeable_armed (s := s)
        (writeablePublish (setWsi s.ctx s.current) ok).1 (writeablePublish (setWsi s.ctx s.current) ok).2 (by
          rw [ha]
          intro a ha
          obtain ⟨entry, -, rfl⟩ := List.mem_map.mp ha
          simp)
      have hc : (writeablePublish (setWsi s.ctx s.current) ok).1.isConnected = s.ctx.isConnected := by
        rw [hframe]; rfl
      have hsub : (writeablePublish (setWsi s.ctx s.current) ok).1.waitingForSuback = false := by
        rw [hframe]; exact hs
      have hnil : (writeablePublish (setWsi s.ctx s.current) ok).1.pendingSubs = [] := by
        rw [hframe]; exact hpend
      rw [armed_iff_of_unarmed hun, ← pass_rests_iff ok s.ctx.pubEntries]
      simp only [observe, Waiting, hc, hsub, hnil, he, hf, pubEntries_setWsi, ne_eq, not_true, false_or,
        true_and, not_and, forall_const]

/-- The callback of a CLIENT_WRITEABLE is used up when it begins, so the step is right
exactly when it leaves nothing waiting or asks again. -/
theorem armed_writeable (env : WriteableEnv) : Armed (next s (.writeable env)) ↔ Wakes s (.writeable env) := by
  rw [next, raise, Wakes]
  rcases callback_writeable_cases s.ctx s.current env with ⟨hs, hr⟩ | ⟨hs, m, ms, hl, hr⟩ | ⟨hs, hp, hr⟩
  · simp [hr, observe, Armed, Waiting, setWsi, hs]
  · have hpend : hasPendingSubs s.ctx = true := (hasPendingSubs_iff s.ctx).mpr ⟨m, ms, hl⟩
    simp only [hr, hpend, if_true, hs, forall_const]
    exact armed_subscribe hs hl env
  · simp only [hr, hp, Bool.false_eq_true, if_false, hs, forall_const]
    exact armed_publish hs hp env.publishOk

theorem armed_subscribeTopic (h : Armed s) (m : TopicMap) (alloc : AppendAlloc) :
    Armed (next s (.subscribe m alloc)) ↔ Wakes s (.subscribe m alloc) := by
  rw [next, subscribeTopic, Wakes]
  split
  next hknown =>
    have hex : ∃ n ∈ s.ctx.subTopicMaps, m.topic = n.topic := by simpa using hknown
    exact ⟨fun _ _ _ _ => .inl hex, fun _ => h⟩
  next hnew =>
    obtain ⟨list, hf⟩ := append_frame s.ctx m alloc
    have hp := append_pending s.ctx m alloc
    have hnone : ¬∃ n ∈ s.ctx.subTopicMaps, m.topic = n.topic := by simpa using hnew
    rw [hf] at hp ⊢
    cases ha : appends s.ctx alloc with
    | false =>
        have hsame : ({ s.ctx with pendingSubList := list } : Ctx).pendingSubs = s.ctx.pendingSubs := by
          rw [hp, ha]; simp
        refine ⟨fun _ _ _ _ => .inr rfl, fun _ hw => h ?_⟩
        rw [Waiting, hsame] at hw
        exact hw
    | true =>
        have hne : ({ s.ctx with pendingSubList := list } : Ctx).pendingSubs ≠ [] := by
          rw [hp, ha]; simp
        constructor
        · intro hn hc hs hu
          have harm : s.armed = true := hn ⟨hc, hs, .inl hne⟩
          exact absurd (hu.symm.trans harm) (by simp)
        · rintro hk ⟨hc, hs, -⟩
          by_contra hu
          have hor := hk hc hs (by simpa using hu)
          exact hor.elim hnone (by simp)

theorem armed_publishStep (h : Attached s) (topic payload : Bytes) (qos : Int) (alloc : PublishAlloc) :
    Armed (publishStep s topic payload qos alloc) := by
  rw [publishStep, iotMqttPublish]
  split
  · exact fun hw => by simpa [observe] using h.armed hw
  · split
    · exact fun hw => by simpa [observe] using h.armed hw
    · rintro ⟨hc, hrest⟩
      have hc : s.ctx.isConnected = true := hc
      refine armed_of_wake ?_ ⟨hc, hrest⟩
      simp [wakeIfConnected, hc, h.wsi hc]

theorem armed_suback (s : Sys) : Armed (next s .suback) := by
  rw [next, raise, callbackMqtt, handle]
  rintro ⟨hc, -, hp⟩
  rcases hp with hp | ⟨-, entry, hm, -⟩
  · have hs : hasPendingSubs (setWsi s.ctx s.current) = true := (hasPendingSubs_eq _).mpr hp
    simp [observe, hs]
  · have hs : hasPendingPubs (setWsi s.ctx s.current) = true :=
      (hasPendingPubs_eq _).mpr (List.ne_nil_of_mem hm)
    simp [observe, hs]

theorem armed_timer (s : Sys) : Armed (next s .timer) := by
  rw [next, raise, callbackMqtt, handle]
  rintro ⟨hc, hrest⟩
  have hc : (setWsi s.ctx s.current).isConnected = true := hc
  simp only [hc, if_true]
  exact armed_of_wake (by simp) ⟨hc, hrest⟩

theorem armed_next (h : Attached s) {e : Event} (he : connectsOffline s e) : Armed (next s e) ↔ Wakes s e := by
  have htrue {P : Prop} (hp : P) : P ↔ True := iff_true_intro hp
  cases e with
  | subscribe m alloc => exact armed_subscribeTopic h.armed m alloc
  | writeable env => exact armed_writeable env
  | publish topic payload qos alloc => exact htrue (armed_publishStep h topic payload qos alloc)
  | connect conn => exact htrue (armed_of_disconnected he)
  | reconnect conn alloc =>
      exact htrue (armed_of_disconnected ((reconnect_isConnected s.ctx conn alloc).trans he))
  | connectionError wsi => exact htrue (armed_of_disconnected rfl)
  | closed conn alloc =>
      refine htrue (armed_of_disconnected ?_)
      simp only [next, raise, observe, callbackMqtt, handle]
      split
      · exact reconnect_isConnected _ conn alloc
      · rfl
  | suback => exact htrue (armed_suback s)
  | timer => exact htrue (armed_timer s)
  | established wsi => exact htrue (armed_of_wake (by simp [callbackMqtt, handle]))
  | ack p => exact htrue (armed_of_wake (by simp [callbackMqtt, handle]))
  | resend => exact htrue (armed_of_wake (by simp [callbackMqtt, handle]))
  | rx pub => exact htrue (armed_of_wake (by simp [callbackMqtt, handle]))
  | other =>
      refine htrue (fun hw => ?_)
      simpa [next, raise, observe, callbackMqtt, handle] using h.armed hw

theorem wsi_writeable (env : WriteableEnv) : (next s (.writeable env)).ctx.wsi = some s.current := by
  rw [next, raise]
  rcases callback_writeable_cases s.ctx s.current env with ⟨-, hr⟩ | ⟨-, m, ms, -, hr⟩ | ⟨-, -, hr⟩
  · simp only [hr]
    rfl
  · obtain ⟨w, maps, list, hf⟩ := writeableSubscribe_frame (setWsi s.ctx s.current) s.current (m :: ms) env
    simp only [hr]
    rw [hf]
    rfl
  · obtain ⟨w, list, hf⟩ := writeablePublish_frame (setWsi s.ctx s.current) env.publishOk
    simp only [hr]
    rw [hf]
    rfl

theorem wsi_next (h : Attached s) {e : Event} (he : connectsOffline s e)
    (hc : (next s e).ctx.isConnected = true) : (next s e).ctx.wsi = some (next s e).current := by
  cases e with
  | publish topic payload qos alloc =>
      obtain ⟨list, hf⟩ := publish_frame s.ctx s.nextSerial topic payload qos alloc
      rw [next, publishStep, hf] at hc ⊢
      exact h.wsi hc
  | subscribe m alloc =>
      obtain ⟨list, hf⟩ := subscribeTopic_frame s.ctx m alloc
      rw [next, hf] at hc ⊢
      exact h.wsi hc
  | connect conn => exact absurd (hc.symm.trans he) (by simp)
  | reconnect conn alloc =>
      have hoff := (reconnect_isConnected s.ctx conn alloc).trans he
      exact absurd (hc.symm.trans hoff) (by simp)
  | closed conn alloc =>
      simp only [next, raise, observe, callbackMqtt, handle] at hc
      split at hc
      · rw [reconnect_isConnected] at hc
        exact absurd hc (by simp [setDisconnected])
      · exact absurd hc (by simp [setDisconnected])
  | connectionError wsi => exact absurd hc (by simp [next, raise, observe, callbackMqtt, handle, setDisconnected])
  | writeable env => exact wsi_writeable env
  | ack p =>
      obtain ⟨w, list, hf⟩ := ack_frame s p
      rw [hf]
      rfl
  | established wsi | suback | resend | rx pub | timer | other => rfl

theorem attached_next (h : Attached s) {e : Event} (he : connectsOffline s e) (hw : Wakes s e) :
    Attached (next s e) := ⟨(armed_next h he).mpr hw, wsi_next h he⟩

/-- No wake-up is lost in exactly the runs whose subscriptions find the callback asked
for and whose write callbacks finish what they begin. -/
theorem armed_iff (config : Config) (es : List Event) (hl : Legal soloClient (start config) es) :
    Always soloClient Armed (start config) es ↔ EveryStep soloClient Wakes (start config) es := by
  have hstart : Attached (start config) :=
    ⟨armed_of_disconnected rfl, fun hc => absurd hc (by simp [start, iotMqttInit])⟩
  have hkeep (s : Sys) (e : Event) (hi : Attached s) (he : soloClient.enabled s e) (hc : Wakes s e) :
      Attached (next s e) := attached_next hi he.2 hc
  have hneed (s : Sys) (e : Event) (hi : Attached s) (he : soloClient.enabled s e) (ha : Armed (next s e)) :
      Wakes s e := (armed_next hi he.2).mp ha
  exact always_iff hkeep (fun _ hi => hi.armed) hneed hstart hl

instance : Decidable (Waiting s.ctx) :=
  inferInstanceAs (Decidable (_ ∧ _ ∧ (_ ≠ [] ∨ _ ∧ ∃ entry ∈ s.ctx.pubEntries, _)))

instance : Decidable (Armed s) := inferInstanceAs (Decidable (_ → _))

instance decidableConnectsOffline (s : Sys) : (e : Event) → Decidable (connectsOffline s e)
  | .connect _ | .reconnect .. => inferInstanceAs (Decidable (s.ctx.isConnected = false))
  | .publish .. | .subscribe .. | .connectionError _ | .closed .. | .established _ | .suback | .writeable _
  | .ack _ | .resend | .rx _ | .timer | .other => .isTrue trivial

instance (s : Sys) (es : List Event) : Decidable (Legal soloClient s es) :=
  @decidableEveryStep _ _ soloClient soloClient.enabled
    (fun s e => @instDecidableAnd _ _ (decidableEnabled s e) (decidableConnectsOffline s e)) s es

def publishedRun : List Event :=
  [.connect (some 1), .subscribe ⟨[97], 1, 0, 0, qos1⟩ .ok, .established 1, .writeable .ok, .suback,
    .publish [97] [1] qos1 .ok, .writeable .ok, .ack (pubParam 0 [97] [1] qos1), .writeable .ok]

theorem wakes_publishedRun : EveryStep soloClient Wakes (start ⟨true, 60⟩) publishedRun :=
  (armed_iff ⟨true, 60⟩ publishedRun (by decide)).mp (by decide)

def subscribedLateRun : List Event :=
  [.connect (some 1), .established 1, .writeable .ok, .subscribe ⟨[97], 1, 0, 0, qos1⟩ .ok]

/-- A subscription on an idle connection waits for the keep-alive timer. -/
theorem armed_fails :
    Legal soloClient (start ⟨true, 60⟩) subscribedLateRun ∧
      ¬Always soloClient Armed (start ⟨true, 60⟩) subscribedLateRun := by
  decide

end OneSdk.MqttWakeup
