import OneSdk.MqttOutbox
import OneSdk.TmReport

namespace OneSdk.MqttAtomic

open ErrorCode MqttContext MqttPublish MqttQueue MqttClient MqttOutbox TmReport DeliveryQueue Runs

/-- How many bits `lws_mqtt_publish_param_t` has for its two lengths. -/
structure Widths where
  topicLen : Nat
  payloadLen : Nat

def Holds (w : Widths) (p : PublishParam) (topic payload : Bytes) (qos : Int) : Prop :=
  p.topic = topic ∧ p.topicLen % 2 ^ w.topicLen = topic.length ∧
    p.payload.getD [] = payload ∧ p.payloadLen % 2 ^ w.payloadLen = payload.length ∧ p.qos = qos

def Sendable (p : PublishParam) : Prop :=
  ∃ (ctx : Ctx) (ok : Nat → Bool), Action.sendPublish p true ∈ (writeablePublish ctx ok).2

/-- A call that fails leaves the queue as it was, and one that succeeds has put its message
at the end of it, of a kind that will be sent. -/
structure Atomic (w : Widths) (ctx : Ctx) (serial : Nat) (topic payload : Bytes) (qos : Int)
    (alloc : PublishAlloc) : Prop where
  refused : (iotMqttPublish ctx serial topic payload qos alloc).2.2 ≠ volcOk →
    (iotMqttPublish ctx serial topic payload qos alloc).1.pubEntries = ctx.pubEntries
  accepted : (iotMqttPublish ctx serial topic payload qos alloc).2.2 = volcOk →
    ∃ p, (iotMqttPublish ctx serial topic payload qos alloc).1.pubEntries = ctx.pubEntries ++ [(p, false)] ∧
      Holds w p topic payload qos ∧ Sendable p

/-- The lengths fit into the record, and the sender has a case for the QoS. -/
def Servable (w : Widths) (topic payload : Bytes) (qos : Int) : Prop :=
  topic.length < 2 ^ w.topicLen ∧ payload.length < 2 ^ w.payloadLen ∧ (qos = qos0 ∨ qos = qos1)

variable {p : PublishParam} {s : Sys}

theorem service_never (p : PublishParam) : service p = .never ↔ p.qos ≠ qos0 ∧ p.qos ≠ qos1 := by
  rw [service]
  split
  next h => simp [h]
  next h₀ =>
    split
    next h₁ => simp [h₁]
    next h₁ => exact iff_of_true rfl ⟨h₀, h₁⟩

def single (p : PublishParam) : Ctx :=
  { iotMqttInit ⟨false, 0⟩ with pendingPubList := some (pushBack .empty p) }

theorem sendable_iff (p : PublishParam) : Sendable p ↔ p.qos = qos0 ∨ p.qos = qos1 := by
  constructor
  · rintro ⟨ctx, ok, hsent⟩
    have hnever : service p ≠ .never := by
      cases hw : ctx.waitingForPuback with
      | true =>
          rw [writeablePublish_waiting ctx ok hw] at hsent
          exact absurd hsent (by simp)
      | false =>
          rw [(writeablePublish_pass ctx ok hw).2.2] at hsent
          obtain ⟨a, ha, heq⟩ := List.mem_map.mp hsent
          obtain ⟨rfl, -⟩ := Action.sendPublish.inj heq
          have hpass := pass_passes service ok 0 ctx.pubEntries
          exact (mem_eligible.mp (hpass.attempts.subset (List.mem_map_of_mem ha))).2
    have hserved := mt (service_never p).mpr hnever
    rwa [not_and_or, not_not, not_not] at hserved
  · intro hqos
    refine ⟨single p, fun _ => true, ?_⟩
    have hentries : (single p).pubEntries = [(p, false)] := entries_pushBack .empty p
    rw [(writeablePublish_pass (single p) _ rfl).2.2, hentries]
    rcases hqos with h₀ | h₁
    · have hserve := (service_once p).mpr h₀
      simp [sendPass, hserve]
    · have hserve := (service_acked p).mpr h₁
      simp [sendPass, hserve]

theorem holds_pubParam (w : Widths) (serial : Nat) (topic payload : Bytes) (qos : Int) :
    Holds w (pubParam serial topic payload qos) topic payload qos ↔
      topic.length < 2 ^ w.topicLen ∧ payload.length < 2 ^ w.payloadLen := by
  have hpayload : (pubParam serial topic payload qos).payload.getD [] = payload := by
    rw [pubParam]
    cases payload <;> rfl
  have hmod (n k : Nat) : n % 2 ^ k = n ↔ n < 2 ^ k := by
    constructor
    · intro h
      rw [← h]
      exact Nat.mod_lt _ (Nat.two_pow_pos k)
    · exact Nat.mod_eq_of_lt
  rw [Holds, hpayload]
  change topic = topic ∧ topic.length % _ = _ ∧ payload = payload ∧ payload.length % _ = _ ∧ qos = qos ↔ _
  rw [hmod, hmod]
  simp

theorem atomic_iff (w : Widths) (ctx : Ctx) (serial : Nat) (topic payload : Bytes) (qos : Int) (alloc : PublishAlloc) :
    Atomic w ctx serial topic payload qos alloc ↔ (HasRoom ctx alloc payload → Servable w topic payload qos) := by
  rw [← publish_ok_iff ctx serial topic payload qos alloc]
  constructor
  · intro h hok
    obtain ⟨p, hentries, hholds, hsend⟩ := h.accepted hok
    obtain rfl : pubParam serial topic payload qos = p := by
      rcases publish_cases ctx serial topic payload qos alloc with ⟨-, happ⟩ | ⟨hne, -⟩
      · rw [happ, List.append_cancel_left_eq] at hentries
        simpa using hentries
      · exact absurd hok hne
    have hfit := (holds_pubParam w serial topic payload qos).mp hholds
    exact ⟨hfit.1, hfit.2, (sendable_iff _).mp hsend⟩
  · intro h
    rcases publish_cases ctx serial topic payload qos alloc with ⟨hok, happ⟩ | ⟨hne, hsame⟩
    · obtain ⟨htopic, hpayload, hqos⟩ := h hok
      refine ⟨fun hne => absurd hok hne, fun _ => ⟨_, happ, ?_, (sendable_iff _).mpr hqos⟩⟩
      exact (holds_pubParam w serial topic payload qos).mpr ⟨htopic, hpayload⟩
    · exact ⟨fun _ => hsame, fun hok => absurd hok hne⟩

/-- A message of another QoS, once accepted, keeps its place in the queue whatever happens. -/
theorem other_qos_stays (h₀ : p.qos ≠ qos0) (h₁ : p.qos ≠ qos1) (h : (p, false) ∈ s.ctx.pubEntries) (es : List Event) :
    (p, false) ∈ (final client s es).ctx.pubEntries := by
  have hnever := (service_never p).mpr ⟨h₀, h₁⟩
  induction es generalizing s with
  | nil => exact h
  | cons e es ih =>
      have hstep := Outbox.never_next (s := outboxOf s) hnever h (opOf s e)
      rw [← outboxOf_next] at hstep
      exact ih hstep

theorem qos2_accepted : ¬Atomic ⟨16, 32⟩ (iotMqttInit ⟨false, 0⟩) 0 [116] [1] 2 .ok := by
  intro h
  obtain ⟨p, hentries, ⟨-, -, -, -, hqos⟩, hsend⟩ := h.accepted (by decide)
  have hserved := (sendable_iff p).mp hsend
  rw [hqos] at hserved
  exact absurd hserved (by decide)

end OneSdk.MqttAtomic
