import OneSdk.MqttOutbox
import OneSdk.OutboxOrder

namespace OneSdk.MqttOrder

open MqttContext MqttPublish MqttSubscribe MqttCallback MqttQueue MqttClient MqttOutbox DeliveryQueue Runs

def attemptOf : Action → Option Entry
  | .sendPublish p accepted => some (p, accepted)
  | _ => none

def attemptsOf (s : Sys) : Event → List Entry
  | .writeable env => (callbackMqtt s.ctx s.current (.clientWriteable env)).2.1.filterMap attemptOf
  | _ => []

def HandsInOrder (s : Sys) (e : Event) : Prop :=
  ∀ x ∈ s.accepted, ∀ y ∈ s.accepted, [x, y].Sublist s.accepted → x.qos = y.qos →
    y ∉ s.handed → y ∈ (next s e).handed → [x, y].Sublist (next s e).handed

/-- The order that the send loop does keep: an older message of the same QoS is passed
over only when its own send failed before, in the same pass. -/
def HandsInOrderOrFails (s : Sys) (e : Event) : Prop :=
  ∀ x ∈ s.accepted, ∀ y ∈ s.accepted, [x, y].Sublist s.accepted → x.qos = y.qos →
    y ∉ s.handed → y ∈ (next s e).handed →
      [x, y].Sublist (next s e).handed ∨ [(x, false), (y, true)].Sublist (attemptsOf s e)

theorem filterMap_attempts (attempts : List Entry) :
    (attempts.map (fun a => Action.sendPublish a.1 a.2)).filterMap attemptOf = attempts := by
  induction attempts with
  | nil => rfl
  | cons a attempts ih => exact congrArg (a :: ·) ih

theorem attemptOf_subscribe (ctx : Ctx) (wsi : Wsi) (pending : List TopicMap) (env : WriteableEnv) :
    (writeableSubscribe ctx wsi pending env).2.1.filterMap attemptOf = [] := by
  rw [writeableSubscribe]
  split
  · rfl
  · split
    · rfl
    · dsimp only
      split <;> rfl

theorem attempts_outbox (s : Sys) (e : Event) :
    OutboxOrder.attempts service (outboxOf s) (opOf s e) = attemptsOf s e := by
  cases e with
  | publish topic payload qos alloc =>
      rw [opOf]
      split <;> rfl
  | writeable env =>
      rw [attemptsOf]
      rcases callback_writeable_cases s.ctx s.current env with ⟨hs, hr⟩ | ⟨hs, m, ms, hl, hr⟩ | ⟨hs, hp, hr⟩
      · have hop : opOf s (.writeable env) = .idle := by simp [opOf, hs]
        rw [hop, hr]
        rfl
      · have hop : opOf s (.writeable env) = .idle := by simp [opOf, (hasPendingSubs_iff s.ctx).mpr ⟨m, ms, hl⟩]
        rw [hop, hr, attemptOf_subscribe]
        rfl
      · have hop : opOf s (.writeable env) = .write env.publishOk := by simp [opOf, hs, hp]
        rw [hop, hr, OutboxOrder.attempts]
        split
        next hw => rw [writeablePublish_waiting (setWsi s.ctx s.current) _ hw]; rfl
        next hw =>
          have hw : s.ctx.waitingForPuback = false := by simpa [outboxOf] using hw
          rw [(writeablePublish_pass (setWsi s.ctx s.current) env.publishOk hw).2.2, filterMap_attempts]
          rfl
  | _ => rfl

theorem service_of_qos {p q : PublishParam} (h : p.qos = q.qos) : service p = service q := by
  rw [service, service, h]

theorem olderFirst_outbox (s : Sys) (e : Event)
    (h : OutboxOrder.OlderFirst service (outboxOf s) (opOf s e)) : HandsInOrderOrFails s e := by
  intro x _ y _ hxy hq hy hy'
  have ho := h x y hxy (service_of_qos hq) hy
  rw [← outboxOf_next, attempts_outbox] at ho
  exact ho hy'

theorem queued_start (config : Config) : OutboxOrder.Queued service (outboxOf (start config)) where
  nodup := List.nodup_nil
  order := List.Sublist.slnil
  fresh _ h := absurd h List.not_mem_nil
  pending _ h := absurd h List.not_mem_nil
  known _ h := absurd h List.not_mem_nil

/-- In every run, a message is first handed over after each older message of its QoS, or
in a pass that tried that one first and failed. -/
theorem handsInOrderOrFails (config : Config) (es : List Event) (hl : Legal client (start config) es) :
    EveryStep client HandsInOrderOrFails (start config) es := by
  have h := OutboxOrder.olderFirst_run (queued_start config) (legal_outbox (numbered_start config) hl)
  exact everyStep_mono olderFirst_outbox (everyStep_outbox.mp h)

instance (s : Sys) (e : Event) : Decidable (HandsInOrder s e) :=
  inferInstanceAs (Decidable (∀ x ∈ s.accepted, ∀ y ∈ s.accepted, _ → _))

def overtakingRun : List Event :=
  [.established 1, .publish [97] [1] qos0 .ok, .publish [98] [2] qos0 .ok,
    .writeable ⟨true, true, fun _ => true, fun i => i = 1⟩]

theorem handsInOrderOrFails_overtakingRun :
    EveryStep client HandsInOrderOrFails (start ⟨true, 60⟩) overtakingRun :=
  handsInOrderOrFails ⟨true, 60⟩ overtakingRun (by decide)

theorem handsInOrder_fails :
    Legal client (start ⟨true, 60⟩) overtakingRun ∧
      ¬EveryStep client HandsInOrder (start ⟨true, 60⟩) overtakingRun := by
  decide

end OneSdk.MqttOrder
