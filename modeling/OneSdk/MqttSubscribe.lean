import OneSdk.MqttContext

namespace OneSdk.MqttSubscribe

open ErrorCode MqttContext

structure AppendAlloc where
  list : Bool
  topic : Bool
  maps : Bool
  deriving DecidableEq

def AppendAlloc.ok : AppendAlloc := ⟨true, true, true⟩

def iotMqttAppendSubTopic (ctx : Ctx) (m : TopicMap) (alloc : AppendAlloc) : Ctx :=
  match ctx.pendingSubList with
  | none => if alloc.list then append [] else ctx
  | some l => append l
where
  append (l : List TopicMap) : Ctx :=
    { ctx with pendingSubList := some (if alloc.topic && alloc.maps then l ++ [m] else l) }

def subscribeTopic (ctx : Ctx) (m : TopicMap) (alloc : AppendAlloc) : Ctx × Int :=
  if ctx.subTopicMaps.any (fun n => m.topic = n.topic) then (ctx, volcOk)
  else (iotMqttAppendSubTopic ctx m alloc, 0)

def iotMqttSubscribe (ctx : Option Ctx) (m : Option TopicMap) (alloc : AppendAlloc) : Option Ctx × Int :=
  match ctx, m with
  | some ctx, some m => ((subscribeTopic ctx m alloc).1, (subscribeTopic ctx m alloc).2)
  | ctx, _ => (ctx, volcErrInvalidParam)

/-- `conn` is what `lws_client_connect_via_info` returns. -/
def iotMqttConnect (ctx : Ctx) (conn : Option Wsi) : Ctx × List Action × Int :=
  ({ ctx with wsi := conn }, [.clientConnect conn], if conn.isSome then 0 else 1)

def iotMqttDisconnect (ctx : Ctx) : Ctx × List Action × Int := (ctx, [.cancelService], volcOk)

def appendAll (alloc : Nat → AppendAlloc) : Nat → List TopicMap → Ctx → Ctx
  | _, [], ctx => ctx
  | i, m :: ms, ctx => appendAll alloc (i + 1) ms (iotMqttAppendSubTopic ctx m (alloc i))

def iotMqttReconnect (ctx : Ctx) (conn : Option Wsi) (alloc : Nat → AppendAlloc) : Ctx × List Action × Int :=
  let d := iotMqttDisconnect ctx
  if d.2.2 ≠ volcOk then d
  else
    let c := iotMqttConnect d.1 conn
    if c.2.2 ≠ volcOk then (c.1, d.2.1 ++ c.2.1, c.2.2)
    else (appendAll alloc 0 c.1.subTopicMaps c.1, d.2.1 ++ c.2.1, c.2.2)

/-- The outcomes of the calls that one CLIENT_WRITEABLE can make. -/
structure WriteableEnv where
  topicsAlloc : Bool
  subscribeOk : Bool
  mapsAlloc : Nat → Bool
  publishOk : Nat → Bool

def WriteableEnv.ok : WriteableEnv := ⟨true, true, fun _ => true, fun _ => true⟩

/-- Move the topics of a SUBSCRIBE into `sub_topic_maps`, from index `i` of the batch. -/
def moveToMaps (alloc : Nat → Bool) : Nat → List TopicMap → List TopicMap → List TopicMap
  | _, [], maps => maps
  | i, m :: ms, maps =>
      if maps.any (fun n => m.topic = n.topic) then moveToMaps alloc (i + 1) ms maps
      else if alloc i then moveToMaps alloc (i + 1) ms (maps ++ [m])
      else moveToMaps alloc (i + 1) ms maps

def numToSubscribe (pending : List TopicMap) : Nat := if pending.length > 7 then 7 else pending.length

def batchOf (pending : List TopicMap) : List TopicMap := pending.take (numToSubscribe pending)

def remainingOf (pending : List TopicMap) : List TopicMap := pending.drop (numToSubscribe pending)

/-- The subscribe part of CLIENT_WRITEABLE, for a `pending_sub_list` that is not empty. -/
def writeableSubscribe (ctx : Ctx) (wsi : Wsi) (pending : List TopicMap) (env : WriteableEnv) :
    Ctx × List Action × Int :=
  let topics := (batchOf pending).map (fun m => (m.topic, m.qos))
  if !env.topicsAlloc then (ctx, [], volcErrMalloc)
  else if !env.subscribeOk then (ctx, [.sendSubscribe topics false], 0)
  else
    ({ ctx with
        waitingForSuback := true
        subTopicMaps := moveToMaps env.mapsAlloc 0 (batchOf pending) ctx.subTopicMaps
        pendingSubList := if (remainingOf pending).length > 0 then some (remainingOf pending) else none },
      .sendSubscribe topics true ::
        (if (remainingOf pending).length > 0 then [.callbackOnWritable (some wsi)] else []), 0)

theorem append_frame (ctx : Ctx) (m : TopicMap) (alloc : AppendAlloc) :
    ∃ list, iotMqttAppendSubTopic ctx m alloc = { ctx with pendingSubList := list } := by
  rw [iotMqttAppendSubTopic]
  split
  · split
    · exact ⟨_, rfl⟩
    · exact ⟨ctx.pendingSubList, rfl⟩
  · exact ⟨_, rfl⟩

theorem subscribeTopic_frame (ctx : Ctx) (m : TopicMap) (alloc : AppendAlloc) :
    ∃ list, (subscribeTopic ctx m alloc).1 = { ctx with pendingSubList := list } := by
  rw [subscribeTopic]
  split
  · exact ⟨ctx.pendingSubList, rfl⟩
  · exact append_frame ctx m alloc

theorem appendAll_frame (alloc : Nat → AppendAlloc) (i : Nat) (ms : List TopicMap) (ctx : Ctx) :
    ∃ list, appendAll alloc i ms ctx = { ctx with pendingSubList := list } := by
  induction ms generalizing i ctx with
  | nil => exact ⟨ctx.pendingSubList, rfl⟩
  | cons m ms ih =>
      obtain ⟨list, hl⟩ := append_frame ctx m (alloc i)
      obtain ⟨list', hl'⟩ := ih (i + 1) (iotMqttAppendSubTopic ctx m (alloc i))
      exact ⟨list', by rw [appendAll, hl', hl]⟩

def appends (ctx : Ctx) (alloc : AppendAlloc) : Bool :=
  (ctx.pendingSubList.isSome || alloc.list) && alloc.topic && alloc.maps

theorem append_pending (ctx : Ctx) (m : TopicMap) (alloc : AppendAlloc) :
    (iotMqttAppendSubTopic ctx m alloc).pendingSubs = ctx.pendingSubs ++ (if appends ctx alloc then [m] else []) := by
  rw [iotMqttAppendSubTopic]
  cases hl : ctx.pendingSubList with
  | none =>
      cases ha : alloc.list <;> cases ht : alloc.topic <;> cases hm : alloc.maps <;>
        simp [Ctx.pendingSubs, appends, iotMqttAppendSubTopic.append, hl, ha, ht, hm]
  | some l =>
      cases ht : alloc.topic <;> cases hm : alloc.maps <;>
        simp [Ctx.pendingSubs, appends, iotMqttAppendSubTopic.append, hl, ht, hm]

theorem appendAll_keeps (alloc : Nat → AppendAlloc) (i : Nat) (ms : List TopicMap) (ctx : Ctx) :
    ctx.pendingSubs <+: (appendAll alloc i ms ctx).pendingSubs := by
  induction ms generalizing i ctx with
  | nil => exact List.prefix_rfl
  | cons m ms ih =>
      refine List.IsPrefix.trans ?_ (ih (i + 1) (iotMqttAppendSubTopic ctx m (alloc i)))
      rw [append_pending]
      exact List.prefix_append _ _

theorem appendAll_pending (alloc : Nat → AppendAlloc) (ha : ∀ i, alloc i = .ok) (i : Nat) (ms : List TopicMap)
    (ctx : Ctx) : (appendAll alloc i ms ctx).pendingSubs = ctx.pendingSubs ++ ms := by
  induction ms generalizing i ctx with
  | nil => simp [appendAll]
  | cons m ms ih =>
      have hm : appends ctx (alloc i) = true := by simp [appends, ha i, AppendAlloc.ok]
      rw [appendAll, ih, append_pending, hm, if_pos rfl, List.append_assoc]
      rfl

theorem reconnect_keeps (ctx : Ctx) (conn : Option Wsi) (alloc : Nat → AppendAlloc) :
    ctx.pendingSubs <+: (iotMqttReconnect ctx conn alloc).1.pendingSubs := by
  cases conn with
  | none => exact List.prefix_rfl
  | some w => exact appendAll_keeps alloc 0 ctx.subTopicMaps { ctx with wsi := some w }

theorem reconnect_pending (ctx : Ctx) (w : Wsi) (alloc : Nat → AppendAlloc) (ha : ∀ i, alloc i = .ok) :
    (iotMqttReconnect ctx (some w) alloc).1.pendingSubs = ctx.pendingSubs ++ ctx.subTopicMaps :=
  appendAll_pending alloc ha 0 ctx.subTopicMaps { ctx with wsi := some w }

theorem reconnect_fails (ctx : Ctx) (alloc : Nat → AppendAlloc) :
    (iotMqttReconnect ctx none alloc).1.pendingSubs = ctx.pendingSubs := rfl

theorem reconnect_frame (ctx : Ctx) (conn : Option Wsi) (alloc : Nat → AppendAlloc) :
    ∃ list, (iotMqttReconnect ctx conn alloc).1 = { ctx with wsi := conn, pendingSubList := list } := by
  rw [iotMqttReconnect]
  cases conn with
  | none => exact ⟨ctx.pendingSubList, rfl⟩
  | some w =>
      obtain ⟨list, hl⟩ := appendAll_frame alloc 0 ctx.subTopicMaps { ctx with wsi := some w }
      exact ⟨list, hl⟩

@[simp] theorem reconnect_isConnected (ctx : Ctx) (conn : Option Wsi) (alloc : Nat → AppendAlloc) :
    (iotMqttReconnect ctx conn alloc).1.isConnected = ctx.isConnected := by
  obtain ⟨list, hf⟩ := reconnect_frame ctx conn alloc
  rw [hf]

@[simp] theorem reconnect_subTopicMaps (ctx : Ctx) (conn : Option Wsi) (alloc : Nat → AppendAlloc) :
    (iotMqttReconnect ctx conn alloc).1.subTopicMaps = ctx.subTopicMaps := by
  obtain ⟨list, hf⟩ := reconnect_frame ctx conn alloc
  rw [hf]

theorem reconnect_actions (ctx : Ctx) (conn : Option Wsi) (alloc : Nat → AppendAlloc) :
    (iotMqttReconnect ctx conn alloc).2.1 = [.cancelService, .clientConnect conn] := by
  cases conn <;> rfl

theorem mem_moveToMaps {alloc : Nat → Bool} {i : Nat} {ms maps : List TopicMap} {m : TopicMap}
    (hm : m ∈ moveToMaps alloc i ms maps) : m ∈ maps ∨ m ∈ ms := by
  induction ms generalizing i maps with
  | nil => exact .inl hm
  | cons n ms ih =>
      rw [moveToMaps] at hm
      split at hm
      · exact (ih hm).imp id (List.mem_cons_of_mem n)
      · split at hm
        · rcases ih hm with h | h
          · rcases List.mem_append.mp h with h | h
            · exact .inl h
            · exact .inr (List.mem_cons.mpr (.inl (List.mem_singleton.mp h)))
          · exact .inr (List.mem_cons_of_mem n h)
        · exact (ih hm).imp id (List.mem_cons_of_mem n)

theorem moveToMaps_keeps (alloc : Nat → Bool) (i : Nat) (ms maps : List TopicMap) :
    maps <+: moveToMaps alloc i ms maps := by
  induction ms generalizing i maps with
  | nil => exact List.prefix_rfl
  | cons m ms ih =>
      rw [moveToMaps]
      split
      · exact ih (i + 1) maps
      · split
        · exact (List.prefix_append _ _).trans (ih (i + 1) (maps ++ [m]))
        · exact ih (i + 1) maps

def WriteableEnv.subscribes (env : WriteableEnv) : Bool := env.topicsAlloc && env.subscribeOk

theorem writeableSubscribe_fails (ctx : Ctx) (wsi : Wsi) (pending : List TopicMap) (env : WriteableEnv)
    (he : env.subscribes = false) :
    (writeableSubscribe ctx wsi pending env).1 = ctx ∧
      ∀ a ∈ (writeableSubscribe ctx wsi pending env).2.1, ∃ topics, a = .sendSubscribe topics false := by
  rw [writeableSubscribe]
  cases ht : env.topicsAlloc with
  | false => exact ⟨rfl, by simp⟩
  | true =>
      have hs : env.subscribeOk = false := by simpa [WriteableEnv.subscribes, ht] using he
      simp [hs]

theorem writeableSubscribe_succeeds (ctx : Ctx) (wsi : Wsi) (pending : List TopicMap) (env : WriteableEnv)
    (he : env.subscribes = true) :
    (writeableSubscribe ctx wsi pending env).1.waitingForSuback = true ∧
      (writeableSubscribe ctx wsi pending env).1.subTopicMaps =
        moveToMaps env.mapsAlloc 0 (batchOf pending) ctx.subTopicMaps ∧
      (writeableSubscribe ctx wsi pending env).1.pendingSubs = remainingOf pending ∧
      (writeableSubscribe ctx wsi pending env).2.1 =
        .sendSubscribe ((batchOf pending).map (fun m => (m.topic, m.qos))) true ::
          (if (remainingOf pending).length > 0 then [.callbackOnWritable (some wsi)] else []) := by
  obtain ⟨ht, hs⟩ : env.topicsAlloc = true ∧ env.subscribeOk = true := by
    simpa [WriteableEnv.subscribes] using he
  have hr : (writeableSubscribe ctx wsi pending env).1.pendingSubs =
      (if (remainingOf pending).length > 0 then some (remainingOf pending) else none).getD [] := by
    simp [writeableSubscribe, Ctx.pendingSubs, ht, hs]
  refine ⟨by simp [writeableSubscribe, ht, hs], by simp [writeableSubscribe, ht, hs], ?_,
    by simp [writeableSubscribe, ht, hs]⟩
  rw [hr]
  split
  next => rfl
  next h => exact (List.length_eq_zero_iff.mp (by omega)).symm

theorem writeableSubscribe_frame (ctx : Ctx) (wsi : Wsi) (pending : List TopicMap) (env : WriteableEnv) :
    ∃ waiting maps list, (writeableSubscribe ctx wsi pending env).1 =
      { ctx with waitingForSuback := waiting, subTopicMaps := maps, pendingSubList := list } := by
  rw [writeableSubscribe]
  split
  · exact ⟨ctx.waitingForSuback, ctx.subTopicMaps, ctx.pendingSubList, rfl⟩
  · split
    · exact ⟨ctx.waitingForSuback, ctx.subTopicMaps, ctx.pendingSubList, rfl⟩
    · exact ⟨_, _, _, rfl⟩

end OneSdk.MqttSubscribe
