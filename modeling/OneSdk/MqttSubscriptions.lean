import OneSdk.FirstBinding
import OneSdk.MqttClient

namespace OneSdk.MqttSubscriptions

open ErrorCode MqttContext MqttPublish MqttSubscribe MqttCallback MqttQueue MqttClient Runs FirstBinding

def Allocated : Event → Prop
  | .subscribe _ alloc => alloc = .ok
  | .reconnect _ alloc | .closed _ alloc => ∀ i, alloc i = .ok
  | .writeable env => env.topicsAlloc = true ∧ ∀ i, env.mapsAlloc i = true
  | _ => True

def subscriber : Machine Sys Event := ⟨fun s e => enabled s e ∧ Allocated e, next⟩

def acceptedOf (s : Sys) : Event → List TopicMap
  | .subscribe m alloc => if (subscribeTopic s.ctx m alloc).2 = volcOk then [m] else []
  | _ => []

def acceptedSubs : Sys → List Event → List TopicMap
  | _, [] => []
  | s, e :: es => acceptedOf s e ++ acceptedSubs (next s e) es

def asked (s : Sys) : Event → List TopicMap
  | .subscribe m _ => if s.ctx.subTopicMaps.any (fun n => m.topic = n.topic) then [] else [m]
  | .reconnect (some _) _ => s.ctx.subTopicMaps
  | .closed (some _) _ => if s.ctx.config.autoReconnect then s.ctx.subTopicMaps else []
  | _ => []

variable {s : Sys} {e : Event} {calls : List TopicMap}

theorem moveToMaps_eq {alloc : Nat → Bool} (ha : ∀ i, alloc i = true) (i : Nat) (ms maps : List TopicMap) :
    moveToMaps alloc i ms maps = ms.foldl (insertNew TopicMap.topic) maps := by
  induction ms generalizing i maps with
  | nil => rfl
  | cons m ms ih =>
      rw [moveToMaps, List.foldl_cons, insertNew]
      split
      · exact ih (i + 1) maps
      · rw [if_pos (ha i)]
        exact ih (i + 1) (maps ++ [m])

theorem reconnect_asks (ctx : Ctx) (conn : Option Wsi) {alloc : Nat → AppendAlloc} (ha : ∀ i, alloc i = .ok) :
    (iotMqttReconnect ctx conn alloc).1.pendingSubs =
      ctx.pendingSubs ++ (if conn.isSome then ctx.subTopicMaps else []) := by
  cases conn with
  | none => simp [reconnect_fails]
  | some w => exact reconnect_pending ctx w alloc ha

theorem closed_lists (conn : Option Wsi) {alloc : Nat → AppendAlloc} (ha : ∀ i, alloc i = .ok) :
    (next s (.closed conn alloc)).ctx.subTopicMaps = s.ctx.subTopicMaps ∧
      (next s (.closed conn alloc)).ctx.pendingSubs = s.ctx.pendingSubs ++ asked s (.closed conn alloc) := by
  rw [next, raise, callbackMqtt, handle]
  split
  next hauto =>
      have hr := reconnect_asks (setDisconnected (setWsi s.ctx s.current)) conn ha
      have hauto : s.ctx.config.autoReconnect = true := hauto
      refine ⟨by rw [observe, reconnect_subTopicMaps]; rfl, ?_⟩
      rw [observe, hr]
      cases conn with
      | none => rfl
      | some w => rw [asked, if_pos hauto]; rfl
  next hauto =>
      have hauto : ¬s.ctx.config.autoReconnect = true := hauto
      refine ⟨rfl, ?_⟩
      cases conn with
      | none => exact (List.append_nil _).symm
      | some w => rw [asked, if_neg hauto, List.append_nil]; rfl

theorem writeable_lists (env : WriteableEnv) (hmaps : ∀ i, env.mapsAlloc i = true) :
    ((next s (.writeable env)).ctx.subTopicMaps = s.ctx.subTopicMaps ∧
        (next s (.writeable env)).ctx.pendingSubs = s.ctx.pendingSubs) ∨
      ∃ batch, s.ctx.pendingSubs = batch ++ (next s (.writeable env)).ctx.pendingSubs ∧
        (next s (.writeable env)).ctx.subTopicMaps = batch.foldl (insertNew TopicMap.topic) s.ctx.subTopicMaps := by
  rw [next, raise]
  rcases callback_writeable_cases s.ctx s.current env with ⟨-, hr⟩ | ⟨-, m, ms, hl, hr⟩ | ⟨-, -, hr⟩
  · rw [hr]
    exact .inl ⟨rfl, rfl⟩
  · have hpend : s.ctx.pendingSubs = m :: ms := by simp [Ctx.pendingSubs, hl]
    rw [hr]
    cases he : env.subscribes with
    | false =>
        obtain ⟨hctx, -⟩ := writeableSubscribe_fails (setWsi s.ctx s.current) s.current (m :: ms) env he
        rw [hctx]
        exact .inl ⟨rfl, rfl⟩
    | true =>
        obtain ⟨-, hm, hrest, -⟩ :=
          writeableSubscribe_succeeds (setWsi s.ctx s.current) s.current (m :: ms) env he
        refine .inr ⟨batchOf (m :: ms), ?_, ?_⟩
        · rw [observe, hrest, hpend]
          exact (List.take_append_drop _ _).symm
        · rw [observe, hm, moveToMaps_eq hmaps]
          rfl
  · obtain ⟨w, list, hf⟩ := writeablePublish_frame (setWsi s.ctx s.current) env.publishOk
    rw [hr, hf]
    exact .inl ⟨rfl, rfl⟩

/-- An event either moves a batch from the front of one list into the other, or leaves
`sub_topic_maps` alone and appends to `pending_sub_list`. -/
theorem next_lists (ha : Allocated e) :
    ((next s e).ctx.subTopicMaps = s.ctx.subTopicMaps ∧
        (next s e).ctx.pendingSubs = s.ctx.pendingSubs ++ asked s e) ∨
      (asked s e = [] ∧ acceptedOf s e = [] ∧ ∃ batch, s.ctx.pendingSubs = batch ++ (next s e).ctx.pendingSubs ∧
        (next s e).ctx.subTopicMaps = batch.foldl (insertNew TopicMap.topic) s.ctx.subTopicMaps) := by
  cases e with
  | publish topic payload qos alloc =>
      obtain ⟨list, hf⟩ := publish_frame s.ctx s.nextSerial topic payload qos alloc
      refine .inl ⟨?_, ?_⟩
      · rw [next, publishStep, observe, hf]
      · rw [next, publishStep, observe, hf]
        exact (List.append_nil _).symm
  | subscribe m alloc =>
      obtain rfl : alloc = .ok := ha
      rw [next, asked, subscribeTopic]
      split
      · exact .inl ⟨rfl, (List.append_nil _).symm⟩
      · obtain ⟨list, hf⟩ := append_frame s.ctx m .ok
        refine .inl ⟨by rw [hf], ?_⟩
        have hm : appends s.ctx .ok = true := by simp [appends, AppendAlloc.ok]
        rw [append_pending, if_pos hm]
  | connect conn => exact .inl ⟨rfl, (List.append_nil _).symm⟩
  | reconnect conn alloc =>
      refine .inl ⟨reconnect_subTopicMaps s.ctx conn alloc, ?_⟩
      have hr := reconnect_asks s.ctx conn ha
      rw [next, observe, hr]
      cases conn <;> rfl
  | closed conn alloc => exact .inl (closed_lists conn ha)
  | writeable env =>
      rw [show asked s (.writeable env) = [] from rfl, List.append_nil]
      exact (writeable_lists env ha.2).imp_right (fun h => ⟨rfl, rfl, h⟩)
  | ack p =>
      obtain ⟨w, list, hf⟩ := ack_frame s p
      rw [hf]
      exact .inl ⟨rfl, (List.append_nil _).symm⟩
  | connectionError wsi | established wsi | suback | resend | rx pub | timer | other =>
      exact .inl ⟨rfl, (List.append_nil _).symm⟩

/-- The subscriptions of the client, given the accepted calls so far: each topic is in
`sub_topic_maps` at most once, and the first entry for it, in the table or else in the
queue, is that of its first accepted call. -/
structure Subscriptions (s : Sys) (calls : List TopicMap) : Prop where
  distinct : (s.ctx.subTopicMaps.map TopicMap.topic).Nodup
  first : ∀ topic, lookup TopicMap.topic topic (s.ctx.subTopicMaps ++ s.ctx.pendingSubs) =
    lookup TopicMap.topic topic calls

theorem acceptedOf_subscribe (m : TopicMap) (alloc : AppendAlloc) : acceptedOf s (.subscribe m alloc) = [m] := by
  rw [acceptedOf, subscribeTopic]
  split <;> rfl

theorem asked_cases (s : Sys) (e : Event) :
    (∀ m ∈ asked s e, m.topic ∈ s.ctx.subTopicMaps.map TopicMap.topic) ∧
        (∀ m ∈ acceptedOf s e, m.topic ∈ s.ctx.subTopicMaps.map TopicMap.topic) ∨
      asked s e = acceptedOf s e := by
  have htable {m : TopicMap} (hm : m ∈ s.ctx.subTopicMaps) : m.topic ∈ s.ctx.subTopicMaps.map TopicMap.topic :=
    List.mem_map_of_mem hm
  cases e with
  | subscribe m alloc =>
      rw [acceptedOf_subscribe, asked]
      split
      next hany =>
        refine .inl ⟨fun n hn => absurd hn List.not_mem_nil, ?_⟩
        intro n hn
        rw [List.mem_singleton.mp hn]
        exact any_key_iff.mp hany
      next => exact .inr rfl
  | reconnect conn alloc =>
      refine .inl ⟨?_, fun n hn => absurd hn List.not_mem_nil⟩
      cases conn with
      | none => exact fun n hn => absurd hn List.not_mem_nil
      | some w => exact fun n hn => htable hn
  | closed conn alloc =>
      refine .inl ⟨?_, fun n hn => absurd hn List.not_mem_nil⟩
      cases conn with
      | none => exact fun n hn => absurd hn List.not_mem_nil
      | some w =>
          rw [asked]
          split
          · exact fun n hn => htable hn
          · exact fun n hn => absurd hn List.not_mem_nil
  | _ => exact .inr rfl

theorem Subscriptions.next (h : Subscriptions s calls) (ha : Allocated e) :
    Subscriptions (next s e) (calls ++ acceptedOf s e) := by
  rcases next_lists (s := s) ha with ⟨hmaps, hpend⟩ | ⟨-, hacc, batch, hpend, hmaps⟩
  · refine ⟨hmaps ▸ h.distinct, ?_⟩
    intro topic
    rw [hmaps, hpend, ← List.append_assoc]
    rcases asked_cases s e with ⟨hask, hacc⟩ | heq
    · have hbound {m : TopicMap} (hm : m.topic ∈ s.ctx.subTopicMaps.map TopicMap.topic) :
          m.topic ∈ (s.ctx.subTopicMaps ++ s.ctx.pendingSubs).map TopicMap.topic := by
        rw [List.map_append]
        exact List.mem_append.mpr (.inl hm)
      have hcalled {m : TopicMap} (hm : m.topic ∈ s.ctx.subTopicMaps.map TopicMap.topic) :
          m.topic ∈ calls.map TopicMap.topic := by
        rw [← lookup_isSome_iff, ← h.first, lookup_isSome_iff]
        exact hbound hm
      calc lookup TopicMap.topic topic (s.ctx.subTopicMaps ++ s.ctx.pendingSubs ++ asked s e)
          = lookup TopicMap.topic topic (s.ctx.subTopicMaps ++ s.ctx.pendingSubs) :=
            lookup_shadowed (fun m hm => hbound (hask m hm))
        _ = lookup TopicMap.topic topic calls := h.first topic
        _ = lookup TopicMap.topic topic (calls ++ acceptedOf s e) :=
            (lookup_shadowed (fun m hm => hcalled (hacc m hm))).symm
    · rw [heq, lookup_append, h.first, ← lookup_append]
  · refine ⟨?_, ?_⟩
    · rw [hmaps]
      exact nodup_insertAll h.distinct
    · intro topic
      rw [hmaps, hacc, List.append_nil, ← h.first, hpend, lookup_append, lookup_insertAll, ← lookup_append,
        List.append_assoc]

theorem Subscriptions.final (h : Subscriptions s calls) {es : List Event} (hl : Legal subscriber s es) :
    Subscriptions (final subscriber s es) (calls ++ acceptedSubs s es) := by
  induction es generalizing s calls with
  | nil =>
      rw [acceptedSubs, List.append_nil]
      exact h
  | cons e es ih =>
      rw [acceptedSubs, ← List.append_assoc]
      exact ih (h.next hl.1.2) hl.2

def PendingDistinct (s : Sys) : Prop := (s.ctx.pendingSubs.map TopicMap.topic).Nodup

/-- Nothing is appended to `pending_sub_list` whose topic is still in it. -/
def AsksNew (s : Sys) (e : Event) : Prop := ∀ m ∈ asked s e, m.topic ∉ s.ctx.pendingSubs.map TopicMap.topic

/-- The two lists hold no topic twice, each for itself. -/
structure Distinct (s : Sys) : Prop where
  table : (s.ctx.subTopicMaps.map TopicMap.topic).Nodup
  queue : PendingDistinct s

theorem asked_nodup (h : Distinct s) (e : Event) : ((asked s e).map TopicMap.topic).Nodup := by
  cases e with
  | subscribe m alloc =>
      rw [asked]
      split
      · exact List.nodup_nil
      · exact List.nodup_singleton m.topic
  | reconnect conn alloc =>
      cases conn with
      | none => exact List.nodup_nil
      | some w => exact h.table
  | closed conn alloc =>
      cases conn with
      | none => exact List.nodup_nil
      | some w =>
          rw [asked]
          split
          · exact h.table
          · exact List.nodup_nil
  | _ => exact List.nodup_nil

theorem Distinct.next (h : Distinct s) (ha : Allocated e) (hnew : AsksNew s e) : Distinct (next s e) := by
  rcases next_lists (s := s) ha with ⟨hmaps, hpend⟩ | ⟨-, -, batch, hpend, hmaps⟩
  · refine ⟨hmaps ▸ h.table, ?_⟩
    rw [PendingDistinct, hpend, List.map_append, List.nodup_append]
    refine ⟨h.queue, asked_nodup h e, ?_⟩
    intro t ht u hu he
    obtain ⟨m, hm, rfl⟩ := List.mem_map.mp hu
    exact hnew m hm (he ▸ ht)
  · refine ⟨hmaps ▸ nodup_insertAll h.table, ?_⟩
    have hq : (s.ctx.pendingSubs.map TopicMap.topic).Nodup := h.queue
    rw [hpend, List.map_append] at hq
    exact (List.nodup_append.mp hq).2.1

theorem asksNew_of_next (ha : Allocated e) (hn : PendingDistinct (next s e)) : AsksNew s e := by
  rcases next_lists (s := s) ha with ⟨-, hpend⟩ | ⟨hask, -⟩
  · intro m hm hq
    rw [PendingDistinct, hpend, List.map_append, List.nodup_append] at hn
    exact hn.2.2 m.topic hq m.topic (List.mem_map_of_mem hm) rfl
  · intro m hm
    rw [hask] at hm
    exact absurd hm List.not_mem_nil

theorem distinct_start (config : Config) : Distinct (start config) := ⟨List.nodup_nil, List.nodup_nil⟩

/-- No accepted subscription is lost or replaced, and `sub_topic_maps` holds each topic
once. The queue holds a topic twice exactly once it has been asked for again while queued. -/
theorem subscriptions_kept (config : Config) (es : List Event) (hl : Legal subscriber (start config) es) :
    let s := final subscriber (start config) es
    let calls := acceptedSubs (start config) es
    (s.ctx.subTopicMaps.map TopicMap.topic).Nodup ∧
      (∀ topic m, lookup TopicMap.topic topic calls = some m →
        (m ∈ s.ctx.subTopicMaps ∨ m ∈ s.ctx.pendingSubs) ∧
          lookup TopicMap.topic topic (s.ctx.subTopicMaps ++ s.ctx.pendingSubs) = some m) ∧
      (Always subscriber PendingDistinct (start config) es ↔ EveryStep subscriber AsksNew (start config) es) := by
  have hstart : Subscriptions (start config) [] := ⟨List.nodup_nil, fun _ => rfl⟩
  have hs := hstart.final hl
  rw [List.nil_append] at hs
  refine ⟨hs.distinct, ?_, ?_⟩
  · intro topic m hm
    have hf := (hs.first topic).trans hm
    exact ⟨List.mem_append.mp (mem_of_lookup hf), hf⟩
  · have hkeep (s : Sys) (e : Event) (hi : Distinct s) (he : subscriber.enabled s e) (hc : AsksNew s e) :
        Distinct (subscriber.next s e) := hi.next he.2 hc
    have hneed (s : Sys) (e : Event) (_ : Distinct s) (he : subscriber.enabled s e)
        (hn : PendingDistinct (subscriber.next s e)) : AsksNew s e := asksNew_of_next he.2 hn
    exact always_iff hkeep (fun _ hi => hi.queue) hneed (distinct_start config) hl

instance (s : Sys) : Decidable (PendingDistinct s) := inferInstanceAs (Decidable (List.Nodup _))

instance (s : Sys) (e : Event) : Decidable (AsksNew s e) :=
  inferInstanceAs (Decidable (∀ m ∈ asked s e, m.topic ∉ s.ctx.pendingSubs.map TopicMap.topic))

def alarm : TopicMap := ⟨[97], 1, 0, 0, qos1⟩

def alarmAgain : TopicMap := ⟨[97], 2, 0, 0, qos0⟩

def resubscribedRun : List Event :=
  [.subscribe alarm .ok, .established 1, .writeable .ok, .subscribe alarmAgain .ok, .closed (some 2) (fun _ => .ok)]

theorem legal_resubscribedRun : Legal subscriber (start ⟨true, 60⟩) resubscribedRun :=
  ⟨⟨trivial, rfl⟩, ⟨trivial, trivial⟩, ⟨trivial, rfl, fun _ => rfl⟩, ⟨trivial, rfl⟩, ⟨trivial, fun _ => rfl⟩, trivial⟩

theorem subscriptions_resubscribedRun :
    Always subscriber PendingDistinct (start ⟨true, 60⟩) resubscribedRun ∧
      (alarm ∈ (final subscriber (start ⟨true, 60⟩) resubscribedRun).ctx.subTopicMaps ∨
        alarm ∈ (final subscriber (start ⟨true, 60⟩) resubscribedRun).ctx.pendingSubs) := by
  obtain ⟨-, hkept, hiff⟩ := subscriptions_kept ⟨true, 60⟩ resubscribedRun legal_resubscribedRun
  exact ⟨hiff.mpr (by decide), (hkept [97] alarm (by decide)).1⟩

def subscribedTwiceRun : List Event := [.subscribe alarm .ok, .subscribe alarmAgain .ok]

/-- A topic subscribed again before the first WRITEABLE is queued twice. -/
theorem pendingDistinct_fails :
    Legal subscriber (start ⟨true, 60⟩) subscribedTwiceRun ∧
      ¬Always subscriber PendingDistinct (start ⟨true, 60⟩) subscribedTwiceRun :=
  ⟨⟨⟨trivial, rfl⟩, ⟨trivial, rfl⟩, trivial⟩, by decide⟩

end OneSdk.MqttSubscriptions
