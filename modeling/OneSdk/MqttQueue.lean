import OneSdk.MqttPublish
import OneSdk.DeliveryQueue

namespace OneSdk.MqttQueue

open ErrorCode ParallelArrays MqttContext MqttPublish DeliveryQueue

/-- QoS0 and QoS1 are served; the send loop has no branch for any other value. -/
def service (p : PublishParam) : Service :=
  if p.qos = qos0 then .once else if p.qos = qos1 then .acked else .never

theorem service_once (p : PublishParam) : service p = .once ↔ p.qos = qos0 := by
  unfold service
  split
  · simp [*]
  · split <;> simp [*]

theorem service_acked (p : PublishParam) : service p = .acked ↔ p.qos = qos1 := by
  unfold service
  split
  next h => simp [h]
  · split <;> simp [*]

@[simp] theorem entries_growParams (l : PendingPubList) : (growParams l).entries = l.entries := by
  have hp := l.params_alloc
  simp only [PendingPubList.entries, growParams, List.zip, List.take_zipWith]
  rw [take_resize _ _ _ _ (by omega) hp]

@[simp] theorem entries_growSent (l : PendingPubList) : (growSent l).entries = l.entries := by
  have hs := l.sent_alloc
  simp only [PendingPubList.entries, growSent, List.zip, List.take_zipWith]
  rw [take_resize _ _ _ _ (by omega) hs]

theorem entries_store (l : PendingPubList) (hp : l.count < l.publishParams.length)
    (hs : l.count < l.sentList.length) (p : PublishParam) :
    (store l hp hs p).entries = l.entries ++ [(p, false)] := by
  have hz : l.count < (l.publishParams.zip l.sentList).length := by
    simp only [List.length_zip]; omega
  simp only [PendingPubList.entries, store]
  rw [zip_set, take_set_self _ _ _ hz]

theorem entries_pushBack (l : PendingPubList) (p : PublishParam) :
    (pushBack l p).entries = l.entries ++ [(p, false)] :=
  (entries_store (growSent (growParams l)) _ _ p).trans (by rw [entries_growSent, entries_growParams])

/-- The send loop is a pass over the paired arrays. -/
theorem sendLoop_pass (ok : Nat → Bool) (i : Nat) (ps : List PublishParam) (flags : List Bool)
    (hl : ps.length ≤ flags.length) :
    ps.zip (sendLoop ok i ps flags).1 = (sendPass service ok i (ps.zip flags)).1 ∧
      (sendLoop ok i ps flags).2.1 = (sendPass service ok i (ps.zip flags)).2.1 ∧
      (sendLoop ok i ps flags).2.2 =
        (sendPass service ok i (ps.zip flags)).2.2.map (fun a => .sendPublish a.1 a.2) := by
  induction ps generalizing i flags with
  | nil => simp [sendLoop, sendPass]
  | cons p ps ih =>
      cases flags with
      | nil => simp at hl
      | cons sent flags =>
          obtain ⟨hz, hf, ha⟩ := ih (i + 1) flags (by simpa using hl)
          cases sent with
          | true => simp [sendLoop, sendPass, hz, hf, ha]
          | false =>
              by_cases h₀ : p.qos = qos0
              · simp [sendLoop, sendPass, service, h₀, hz, hf, ha]
              · by_cases h₁ : p.qos = qos1
                · cases ho : ok i <;> simp [sendLoop, sendPass, service, h₁, ho, hz, hf, ha]
                · simp [sendLoop, sendPass, service, h₀, h₁, hz, hf, ha]

theorem entries_markSent (l : PendingPubList) (ok : Nat → Bool) :
    (markSent l ok).entries = (sendPass service ok 0 l.entries).1 := by
  have hp := l.params_alloc
  have hs := l.sent_alloc
  have hz := (sendLoop_pass ok 0 (l.publishParams.take l.count) l.sentList
    (by simp only [List.length_take]; omega)).1
  rw [zip_take, zip_take] at hz
  exact hz

theorem entries_cleanUp (l : PendingPubList) : (cleanUp l).entries = settle service l.entries := by
  have hp := l.params_alloc
  have hs := l.sent_alloc
  have hc := compact_filter isSentQos0 l.count 0 0 l.publishParams l.sentList (by omega) (by omega)
    (Nat.le_refl 0)
  simp only [PendingPubList.entries, cleanUp]
  rw [hc, List.take_zero, List.nil_append, List.drop_zero, settle]
  congr 1
  funext e
  simp [isSentQos0, service_once]

theorem entries_eq_zip (l : PendingPubList) :
    l.entries = (l.publishParams.take l.count).zip (l.sentList.take l.count) := by
  simp only [PendingPubList.entries, List.zip, List.take_zipWith]

theorem entries_removeAt (l : PendingPubList) (k : Nat) (hk : k < l.count) :
    (removeAt l k hk).entries = l.entries.eraseIdx k := by
  have hp := l.params_alloc
  have hs := l.sent_alloc
  rw [entries_eq_zip, entries_eq_zip, ← zip_eraseIdx, removeAt]
  split
  next =>
    dsimp only
    rw [take_move_erase _ _ _ hk hp, take_move_erase _ _ _ hk hs]
  next h =>
    have hlast : k + 1 = l.count := by omega
    dsimp only
    rw [take_pred_erase _ _ _ hlast hp, take_pred_erase _ _ _ hlast hs]

theorem entries_freeIfEmpty (before after : PendingPubList) :
    ((freeIfEmpty before after).elim [] PendingPubList.entries) = after.entries := by
  rw [freeIfEmpty]
  split
  next h => rw [← List.length_eq_zero_iff.mp (after.entries_length.trans h.2)]; rfl
  next => rfl

theorem entries_removeAcked (l : PendingPubList) :
    (removeAcked l).elim [] PendingPubList.entries = acknowledge service l.entries := by
  have hq : (fun e : Entry => e.2 && decide (service e.1 ≠ .once)) = isAwaited := by
    funext e
    simp [isAwaited, service_once]
  rw [acknowledge, hq, List.eraseP_eq_eraseIdx, removeAcked]
  split
  next h => rw [h]; rfl
  next k h =>
    rw [entries_freeIfEmpty, entries_removeAt]
    simp only [h]

theorem pubEntries_eq (ctx : Ctx) : ctx.pubEntries = ctx.pendingPubList.elim [] PendingPubList.entries := by
  rw [Ctx.pubEntries]
  cases ctx.pendingPubList <;> rfl

theorem enqueue_cases (list : Option PendingPubList) (p : PublishParam) (alloc : PublishAlloc) :
    ((enqueue list p alloc).2 = volcOk ∧
        (enqueue list p alloc).1.elim [] PendingPubList.entries =
          list.elim [] PendingPubList.entries ++ [(p, false)]) ∨
      ((enqueue list p alloc).2 ≠ volcOk ∧
        (enqueue list p alloc).1.elim [] PendingPubList.entries = list.elim [] PendingPubList.entries) := by
  have hgrow (l : PendingPubList) :
      ((enqueue.grow p alloc l).2 = volcOk ∧
          (enqueue.grow p alloc l).1.elim [] PendingPubList.entries = l.entries ++ [(p, false)]) ∨
        ((enqueue.grow p alloc l).2 ≠ volcOk ∧
          (enqueue.grow p alloc l).1.elim [] PendingPubList.entries = l.entries) := by
    rw [enqueue.grow]
    split
    · exact .inr ⟨mqttPub_ne_ok, rfl⟩
    · split
      · exact .inr ⟨malloc_ne_ok, rfl⟩
      · split
        · exact .inr ⟨malloc_ne_ok, entries_growParams l⟩
        · exact .inl ⟨rfl, entries_pushBack l p⟩
  cases list with
  | none =>
      rw [enqueue]
      split
      · exact hgrow .empty
      · exact .inr ⟨malloc_ne_ok, rfl⟩
  | some l => exact hgrow l

theorem publish_cases (ctx : Ctx) (serial : Nat) (topic payload : Bytes) (qos : Int) (alloc : PublishAlloc) :
    ((iotMqttPublish ctx serial topic payload qos alloc).2.2 = volcOk ∧
        (iotMqttPublish ctx serial topic payload qos alloc).1.pubEntries =
          ctx.pubEntries ++ [(pubParam serial topic payload qos, false)]) ∨
      ((iotMqttPublish ctx serial topic payload qos alloc).2.2 ≠ volcOk ∧
        (iotMqttPublish ctx serial topic payload qos alloc).1.pubEntries = ctx.pubEntries) := by
  rw [iotMqttPublish]
  split
  · exact .inr ⟨malloc_ne_ok, rfl⟩
  · split
    · exact .inr ⟨malloc_ne_ok, rfl⟩
    · rw [pubEntries_eq, pubEntries_eq]
      exact enqueue_cases ctx.pendingPubList (pubParam serial topic payload qos) alloc

/-- The publish part of CLIENT_WRITEABLE is a pass over the queue, and the removal of
what it has settled. -/
theorem writeablePublish_pass (ctx : Ctx) (ok : Nat → Bool) (hw : ctx.waitingForPuback = false) :
    (writeablePublish ctx ok).1.pubEntries = settle service (sendPass service ok 0 ctx.pubEntries).1 ∧
      (writeablePublish ctx ok).1.waitingForPuback = (sendPass service ok 0 ctx.pubEntries).2.1 ∧
      (writeablePublish ctx ok).2 =
        (sendPass service ok 0 ctx.pubEntries).2.2.map (fun a => .sendPublish a.1 a.2) := by
  cases hl : ctx.pendingPubList with
  | none => simp [writeablePublish, pubEntries_eq, hl, sendPass, settle, hw]
  | some l =>
      have hp := l.params_alloc
      have hs := l.sent_alloc
      have hpass := sendLoop_pass ok 0 (l.publishParams.take l.count) l.sentList
        (by simp only [List.length_take]; omega)
      rw [zip_take _ l.sentList] at hpass
      have hentries : ctx.pubEntries = (l.publishParams.zip l.sentList).take l.count := by
        rw [pubEntries_eq, hl]; rfl
      rw [hentries]
      refine ⟨?_, ?_, ?_⟩
      · rw [pubEntries_eq]
        simp only [writeablePublish, hl, hw, Bool.false_eq_true, if_false]
        rw [entries_freeIfEmpty, entries_cleanUp, entries_markSent]
        rfl
      · simpa only [writeablePublish, hl, hw, Bool.false_eq_true, if_false] using hpass.2.1
      · simpa only [writeablePublish, hl, hw, Bool.false_eq_true, if_false] using hpass.2.2

theorem writeablePublish_waiting (ctx : Ctx) (ok : Nat → Bool) (hw : ctx.waitingForPuback = true) :
    writeablePublish ctx ok = (ctx, []) := by
  cases hl : ctx.pendingPubList with
  | none => simp [writeablePublish, hl]
  | some l => simp [writeablePublish, hl, hw]

theorem writeablePublish_frame (ctx : Ctx) (ok : Nat → Bool) :
    ∃ waiting list, (writeablePublish ctx ok).1 =
      { ctx with waitingForPuback := waiting, pendingPubList := list } := by
  rw [writeablePublish]
  split
  · exact ⟨ctx.waitingForPuback, ctx.pendingPubList, rfl⟩
  · split
    · exact ⟨ctx.waitingForPuback, ctx.pendingPubList, rfl⟩
    · exact ⟨_, _, rfl⟩

theorem ackPublish_acknowledge (ctx : Ctx) :
    (ackPublish ctx).pubEntries =
      (if ctx.waitingForPuback then acknowledge service ctx.pubEntries else ctx.pubEntries) ∧
      (ackPublish ctx).waitingForPuback = false := by
  rw [ackPublish]
  split
  next hw =>
    refine ⟨?_, rfl⟩
    rw [pubEntries_eq, pubEntries_eq]
    cases hl : ctx.pendingPubList with
    | none => simp [acknowledge]
    | some l => simpa [hl] using entries_removeAcked l
  next hw => exact ⟨rfl, by simpa using hw⟩

theorem publish_frame (ctx : Ctx) (serial : Nat) (topic payload : Bytes) (qos : Int) (alloc : PublishAlloc) :
    ∃ list, (iotMqttPublish ctx serial topic payload qos alloc).1 = { ctx with pendingPubList := list } := by
  rw [iotMqttPublish]
  split
  · exact ⟨ctx.pendingPubList, rfl⟩
  · split
    · exact ⟨ctx.pendingPubList, rfl⟩
    · exact ⟨_, rfl⟩

theorem ackPublish_frame (ctx : Ctx) :
    ∃ waiting list, ackPublish ctx = { ctx with waitingForPuback := waiting, pendingPubList := list } := by
  rw [ackPublish]
  split
  · exact ⟨_, _, rfl⟩
  · exact ⟨ctx.waitingForPuback, ctx.pendingPubList, rfl⟩

end OneSdk.MqttQueue
