import OneSdk.OutboxMarks
import OneSdk.MqttOrder

namespace OneSdk.MqttPending

open ErrorCode MqttContext MqttPublish MqttSubscribe MqttCallback MqttQueue MqttClient MqttOutbox MqttOrder
open DeliveryQueue Runs

/-- `count > 10` is refused, so the list grows to one more than that. -/
def maxPending : Nat := 11

theorem length_of_accepted (list : Option PendingPubList) (p : PublishParam) (alloc : PublishAlloc)
    (h : (enqueue list p alloc).2 = volcOk) : (list.elim [] PendingPubList.entries).length < maxPending := by
  cases list with
  | none => exact Nat.zero_lt_succ 10
  | some l =>
      rw [Option.elim_some, l.entries_length]
      by_contra hfull
      have hfull : l.count > 10 := by rw [maxPending] at hfull; omega
      rw [enqueue, enqueue.grow, if_pos hfull] at h
      exact mqttPub_ne_ok h

theorem length_of_publish (ctx : Ctx) (serial : Nat) (topic payload : Bytes) (qos : Int) (alloc : PublishAlloc)
    (h : (iotMqttPublish ctx serial topic payload qos alloc).2.2 = volcOk) : ctx.pubEntries.length < maxPending := by
  rw [pubEntries_eq]
  refine length_of_accepted ctx.pendingPubList (pubParam serial topic payload qos) alloc ?_
  rw [iotMqttPublish] at h
  split at h
  · exact absurd h malloc_ne_ok
  · split at h
    · exact absurd h malloc_ne_ok
    · exact h

theorem room_of_accept (s : Sys) (e : Event) (p : PublishParam) (h : opOf s e = .accept p) :
    s.ctx.pubEntries.length < maxPending := by
  cases e with
  | publish topic payload qos alloc =>
      rw [opOf] at h
      split at h
      next hok => exact length_of_publish s.ctx s.nextSerial topic payload qos alloc hok
      next => cases h
  | writeable env =>
      rw [opOf] at h
      split at h <;> cases h
  | _ => cases h

theorem length_step (s : Sys) (e : Event) (h : s.ctx.pubEntries.length ≤ maxPending) :
    (next s e).ctx.pubEntries.length ≤ maxPending := by
  have hn := OutboxMarks.length_next service (outboxOf s) (opOf s e)
  rw [← outboxOf_next] at hn
  rcases hn with hle | ⟨p, hop, hl⟩
  · exact Nat.le_trans hle h
  · have hroom := room_of_accept s e p hop
    exact Nat.le_trans (Nat.le_of_eq hl) hroom

structure PendingPubs (s : Sys) : Prop where
  bounded : s.ctx.pubEntries.length ≤ maxPending
  paired : ∀ p sent, (p, sent) ∈ s.ctx.pubEntries → (sent = true ↔ p ∈ s.handed)
  ordered : (s.ctx.pubEntries.map Prod.fst).Sublist s.accepted
  oneInFlight : s.inflight.length = if s.ctx.waitingForPuback then 1 else 0
  noSentQos0 : ∀ p, (p, true) ∈ s.ctx.pubEntries → p.qos ≠ qos0

structure Inv (s : Sys) : Prop where
  numbered : Numbered s
  bounded : s.ctx.pubEntries.length ≤ maxPending
  queued : OutboxOrder.Queued service (outboxOf s)
  marked : OutboxMarks.Marked service (outboxOf s)

theorem inv_start (config : Config) : Inv (start config) where
  numbered := numbered_start config
  bounded := Nat.zero_le maxPending
  queued := queued_start config
  marked := ⟨fun _ h => absurd h List.not_mem_nil, fun _ h => absurd h List.not_mem_nil, rfl⟩

theorem Inv.next {s : Sys} (h : Inv s) {e : Event} (he : enabled s e) : Inv (next s e) := by
  have hop := enabled_outbox h.numbered he
  refine ⟨numbered_next h.numbered e, length_step s e h.bounded, ?_, ?_⟩
  · rw [outboxOf_next]
    exact h.queued.next hop
  · rw [outboxOf_next]
    exact h.marked.next hop

theorem Inv.pendingPubs {s : Sys} (h : Inv s) : PendingPubs s where
  bounded := h.bounded
  paired p sent hp := by
    cases sent with
    | true => exact ⟨fun _ => h.marked.taken p hp, fun _ => rfl⟩
    | false => exact ⟨fun hf => absurd hf Bool.false_ne_true, fun hh => absurd hh (h.queued.fresh p hp)⟩
  ordered := h.queued.order
  oneInFlight := by
    have hw : s.inflight.length = s.ctx.waitingForPuback.toNat := h.marked.window
    rw [hw]
    cases s.ctx.waitingForPuback <;> rfl
  noSentQos0 p hp hq := h.marked.settled p hp ((service_once p).mpr hq)

/-- The invariant of the publish queue, in every reachable state. -/
theorem pendingPubs_always (config : Config) (es : List Event) (hl : Legal client (start config) es) :
    Always client PendingPubs (start config) es := by
  have hkeep (s : Sys) (e : Event) (hi : Inv s) (he : client.enabled s e) : Inv (client.next s e) := hi.next he
  have hstep : EveryStep client (fun s e => PendingPubs (client.next s e)) (start config) es :=
    everyStep_of_legal hkeep (fun s e hi he => (hkeep s e hi he).pendingPubs) (inv_start config) hl
  exact ⟨(inv_start config).pendingPubs, hstep⟩

def acknowledgedRun : List Event :=
  [.established 1, .publish [97] [1] qos0 .ok, .publish [98] [2] qos1 .ok, .writeable .ok,
    .ack (pubParam 1 [98] [2] qos1), .closed (some 2) (fun _ => .ok), .established 2]

theorem pendingPubs_acknowledgedRun : Always client PendingPubs (start ⟨true, 60⟩) acknowledgedRun :=
  pendingPubs_always ⟨true, 60⟩ acknowledgedRun (by decide)

end OneSdk.MqttPending
