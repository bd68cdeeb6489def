import OneSdk.MqttOutbox

namespace OneSdk.MqttDelivery

open MqttContext MqttPublish MqttSubscribe MqttQueue MqttClient MqttOutbox DeliveryQueue Runs

/-- After the step every QoS1 message that was accepted and has not been acknowledged
is queued, and on a new connection it is queued to be handed over again. -/
def KeepsQos1 (s : Sys) (e : Event) : Prop :=
  ∀ p ∈ (next s e).accepted, p.qos = qos1 → p ∉ (next s e).acked →
    ∃ sent, (p, sent) ∈ (next s e).ctx.pubEntries ∧ (e.isEstablished = true → sent = false)

/-- A connection is established only while no QoS1 message is marked as sent. -/
def EstablishedUnsent (s : Sys) (e : Event) : Prop :=
  e.isEstablished = true → ∀ entry ∈ s.ctx.pubEntries, entry.2 = true → entry.1.qos ≠ qos1

theorem opOf_renew (s : Sys) (e : Event) : opOf s e = .renew ↔ e.isEstablished = true := by
  cases e with
  | publish topic payload qos alloc =>
      rw [opOf]
      split <;> simp [Event.isEstablished]
  | writeable env =>
      rw [opOf]
      split <;> simp [Event.isEstablished]
  | _ => simp [opOf, Event.isEstablished]

theorem delivers_outbox (s : Sys) (e : Event) :
    Outbox.Delivers service (outboxOf s) (opOf s e) ↔ KeepsQos1 s e := by
  simp only [Outbox.Delivers, KeepsQos1, ← outboxOf_next, opOf_renew, service_acked]
  rfl

theorem cleanRenewal_outbox (s : Sys) (e : Event) :
    Outbox.CleanRenewal service (outboxOf s) (opOf s e) ↔ EstablishedUnsent s e := by
  simp only [Outbox.CleanRenewal, Outbox.Clean, EstablishedUnsent, opOf_renew, ne_eq, service_acked]
  constructor
  · rintro h he ⟨p, sent⟩ hp rfl
    exact h he p hp
  · intro h he p hp
    exact h he (p, true) hp rfl

theorem tracked_start (config : Config) : Outbox.Tracked service (outboxOf (start config)) where
  nodup := List.nodup_nil
  owed _ _ h := absurd h (List.not_mem_nil)
  kept _ h := absurd h (List.not_mem_nil)
  known _ h := absurd h (List.not_mem_nil)
  awaited := ⟨none, rfl, rfl, rfl, by simp⟩

/-- QoS1 messages are kept until their own acknowledgement, and offered again to each
new connection, in exactly the runs where no connection is established while one of
them is marked as sent. -/
theorem keepsQos1_iff (config : Config) (es : List Event) (hl : Legal client (start config) es) :
    EveryStep client KeepsQos1 (start config) es ↔ EveryStep client EstablishedUnsent (start config) es := by
  calc EveryStep client KeepsQos1 (start config) es
      ↔ EveryStep client (fun s e => Outbox.Delivers service (outboxOf s) (opOf s e)) (start config) es :=
        everyStep_congr (fun s e => (delivers_outbox s e).symm)
    _ ↔ EveryStep client (fun s e => Outbox.CleanRenewal service (outboxOf s) (opOf s e)) (start config) es := by
        rw [← everyStep_outbox, ← everyStep_outbox]
        exact Outbox.delivers_run_iff (tracked_start config) (legal_outbox (numbered_start config) hl)
    _ ↔ EveryStep client EstablishedUnsent (start config) es := everyStep_congr cleanRenewal_outbox

/-- A connection is established only when every QoS1 message that lws has taken has been
acknowledged. -/
def EstablishedAcked (s : Sys) (e : Event) : Prop :=
  e.isEstablished = true → ∀ p ∈ s.handed, p.qos = qos1 → p ∈ s.acked

theorem ackedRenewal_outbox (s : Sys) (e : Event) :
    Outbox.AckedRenewal service (outboxOf s) (opOf s e) ↔ EstablishedAcked s e := by
  simp only [Outbox.AckedRenewal, EstablishedAcked, opOf_renew, service_acked]
  exact Iff.rfl

def ackOf : Event → Option PublishParam
  | .ack p => some p
  | _ => none

theorem acked_next (s : Sys) (e : Event) : (next s e).acked = s.acked ++ (ackOf e).toList := by
  cases e <;> simp [next, raise, publishStep, observe, ackOf]

theorem acked_final (s : Sys) (es : List Event) : (final client s es).acked = s.acked ++ es.filterMap ackOf := by
  induction es generalizing s with
  | nil => exact (List.append_nil _).symm
  | cons e es ih =>
      have hnext : (final client s (e :: es)).acked = (next s e).acked ++ es.filterMap ackOf := ih (next s e)
      rw [hnext, acked_next, List.append_assoc]
      cases h : ackOf e <;> simp [h]

theorem mem_acked_iff (config : Config) (es : List Event) (p : PublishParam) :
    p ∈ (final client (start config) es).acked ↔ .ack p ∈ es := by
  have hack (e : Event) : ackOf e = some p ↔ e = .ack p := by cases e <;> simp [ackOf]
  have hnone : (start config).acked = [] := rfl
  rw [acked_final, hnone, List.nil_append, List.mem_filterMap]
  simp only [hack, exists_eq_right]

/-- No QoS1 message is marked as sent when a connection is established in exactly the runs
where the PUBACKs of all that lws has taken have come before it. -/
theorem establishedUnsent_iff (config : Config) (es : List Event) (hl : Legal client (start config) es) :
    EveryStep client EstablishedUnsent (start config) es ↔
      ∀ pre wsi post, es = pre ++ .established wsi :: post →
        ∀ p ∈ (final client (start config) pre).handed, p.qos = qos1 → .ack p ∈ pre := by
  calc EveryStep client EstablishedUnsent (start config) es
      ↔ EveryStep client (fun s e => Outbox.CleanRenewal service (outboxOf s) (opOf s e)) (start config) es :=
        everyStep_congr (fun s e => (cleanRenewal_outbox s e).symm)
    _ ↔ EveryStep client (fun s e => Outbox.AckedRenewal service (outboxOf s) (opOf s e)) (start config) es := by
        rw [← everyStep_outbox, ← everyStep_outbox]
        exact Outbox.cleanRenewal_run_iff (tracked_start config) (fun _ _ => by simp [outboxOf, start])
          (legal_outbox (numbered_start config) hl)
    _ ↔ EveryStep client EstablishedAcked (start config) es := everyStep_congr ackedRenewal_outbox
    _ ↔ _ := by
        rw [everyStep_iff_split]
        constructor
        · intro h pre wsi post hes p hp hq
          exact (mem_acked_iff config pre p).mp (h pre _ post hes rfl p hp hq)
        · intro h pre e post hes he p hp hq
          cases e with
          | established wsi => exact (mem_acked_iff config pre p).mpr (h pre wsi post hes p hp hq)
          | _ => simp [Event.isEstablished] at he

instance (s : Sys) (e : Event) : Decidable (KeepsQos1 s e) :=
  inferInstanceAs (Decidable (∀ p ∈ (next s e).accepted, _))

instance (s : Sys) (e : Event) : Decidable (EstablishedUnsent s e) :=
  inferInstanceAs (Decidable (_ → _))

def resumedRun : List Event :=
  [.established 1, .publish [97] [1] qos1 .ok, .writeable .ok, .ack (pubParam 0 [97] [1] qos1),
    .publish [98] [2] qos1 .ok, .closed (some 2) (fun _ => .ok), .established 2, .writeable .ok]

theorem keepsQos1_resumedRun : EveryStep client KeepsQos1 (start ⟨true, 60⟩) resumedRun :=
  (keepsQos1_iff ⟨true, 60⟩ resumedRun (by decide)).mpr (by decide)

def interruptedRun : List Event :=
  [.established 1, .publish [97] [1] qos1 .ok, .writeable .ok, .closed (some 2) (fun _ => .ok),
    .established 2, .publish [98] [2] qos1 .ok, .writeable .ok, .ack (pubParam 1 [98] [2] qos1)]

/-- A message sent just before the closure is never offered again, and the PUBACK of
the next message takes it out of the queue. -/
theorem keepsQos1_fails :
    Legal client (start ⟨true, 60⟩) interruptedRun ∧
      ¬EveryStep client KeepsQos1 (start ⟨true, 60⟩) interruptedRun := by
  decide

end OneSdk.MqttDelivery
