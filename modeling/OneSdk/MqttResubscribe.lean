import OneSdk.MqttClient

namespace OneSdk.MqttResubscribe

open MqttContext MqttPublish MqttSubscribe MqttCallback MqttQueue MqttClient Runs

def Queued (ctx : Ctx) (m : TopicMap) : Prop := m.topic ∈ ctx.pendingSubs.map TopicMap.topic

/-- Every topic that the client takes to be subscribed has been asked for on this
connection, or is still to be. -/
def Covered (s : Sys) : Prop :=
  s.ctx.isConnected = true → ∀ m ∈ s.ctx.subTopicMaps, Queued s.ctx m ∨ m.topic ∈ s.subscribed

/-- A connection is established only with every subscribed topic queued again. -/
def EstablishedQueued (s : Sys) (e : Event) : Prop :=
  e.isEstablished = true → ∀ m ∈ s.ctx.subTopicMaps, Queued s.ctx m

variable {s t : Sys} {m : TopicMap}

theorem Queued.mono {c d : Ctx} (h : Queued c m) (hp : c.pendingSubs <+: d.pendingSubs) : Queued d m :=
  (hp.map TopicMap.topic).subset h

/-- What a step keeps that is neither a CLIENT_WRITEABLE nor a CLIENT_ESTABLISHED. -/
structure Framed (s t : Sys) : Prop where
  connected : t.ctx.isConnected = true → s.ctx.isConnected = true
  config : t.ctx.config = s.ctx.config
  maps : t.ctx.subTopicMaps = s.ctx.subTopicMaps
  pending : s.ctx.pendingSubs <+: t.ctx.pendingSubs
  subscribed : s.subscribed <+: t.subscribed

theorem Framed.of_ctx {ctx : Ctx} (actions : List Action) (hc : ctx.isConnected = true → s.ctx.isConnected = true)
    (hconfig : ctx.config = s.ctx.config) (hm : ctx.subTopicMaps = s.ctx.subTopicMaps)
    (hp : s.ctx.pendingSubs <+: ctx.pendingSubs) : Framed s (observe s ctx actions) :=
  ⟨hc, hconfig, hm, hp, List.prefix_append _ _⟩

theorem Covered.of_framed (h : Covered s) (hf : Framed s t) : Covered t := by
  intro ht m hmt
  rw [hf.maps] at hmt
  exact (h (hf.connected ht) m hmt).imp (fun hq => hq.mono hf.pending) (fun hq => hf.subscribed.subset hq)

theorem framed_reconnect (s : Sys) {ctx : Ctx} (hctx : Framed s (observe s ctx [])) (conn : Option Wsi)
    (alloc : Nat → AppendAlloc) (actions : List Action) :
    Framed s (observe s (iotMqttReconnect ctx conn alloc).1 actions) := by
  obtain ⟨list, hf⟩ := reconnect_frame ctx conn alloc
  refine .of_ctx actions ?_ ?_ ?_ (hctx.pending.trans (reconnect_keeps ctx conn alloc))
  · rw [hf]
    exact hctx.connected
  · rw [hf]
    exact hctx.config
  · rw [hf]
    exact hctx.maps

theorem framed_next {e : Event} (hw : ∀ env, e ≠ .writeable env) (he : e.isEstablished = false) :
    Framed s (next s e) := by
  cases e with
  | publish topic payload qos alloc =>
      obtain ⟨list, hf⟩ := publish_frame s.ctx s.nextSerial topic payload qos alloc
      rw [next, publishStep, hf]
      exact ⟨id, rfl, rfl, List.prefix_rfl, List.prefix_append _ _⟩
  | subscribe m alloc =>
      rw [next, subscribeTopic]
      split
      · exact ⟨id, rfl, rfl, List.prefix_rfl, List.prefix_rfl⟩
      · have hpending := append_pending s.ctx m alloc
        obtain ⟨list, hf⟩ := append_frame s.ctx m alloc
        rw [hf] at hpending ⊢
        refine ⟨id, rfl, rfl, ?_, List.prefix_rfl⟩
        rw [hpending]
        exact List.prefix_append _ _
  | connect conn => exact .of_ctx _ id rfl rfl List.prefix_rfl
  | reconnect conn alloc => exact framed_reconnect s (.of_ctx [] id rfl rfl List.prefix_rfl) conn alloc _
  | closed conn alloc =>
      have hoff : Framed s (observe s (setDisconnected (setWsi s.ctx s.current)) []) :=
        .of_ctx [] (fun h => absurd h (by simp [setDisconnected])) rfl rfl List.prefix_rfl
      rw [next, raise, callbackMqtt, handle]
      split
      · exact framed_reconnect s hoff conn alloc _
      · exact hoff
  | connectionError wsi =>
      exact .of_ctx _ (fun h => absurd h (by simp [callbackMqtt, handle, setDisconnected])) rfl rfl List.prefix_rfl
  | established wsi => simp [Event.isEstablished] at he
  | writeable env => exact absurd rfl (hw env)
  | ack p =>
      obtain ⟨w, list, hf⟩ := ack_frame s p
      rw [hf]
      exact ⟨id, rfl, rfl, List.prefix_rfl, List.prefix_append _ _⟩
  | suback | resend | rx pub | timer | other => exact .of_ctx _ id rfl rfl List.prefix_rfl

theorem Covered.subscribe (h : Covered s) {n : TopicMap} {ms : List TopicMap}
    (hl : s.ctx.pendingSubList = some (n :: ms)) (env : WriteableEnv) :
    Covered (observe s (writeableSubscribe (setWsi s.ctx s.current) s.current (n :: ms) env).1
      (writeableSubscribe (setWsi s.ctx s.current) s.current (n :: ms) env).2.1) := by
  have hpend : s.ctx.pendingSubs = n :: ms := by simp [Ctx.pendingSubs, hl]
  cases he : env.subscribes with
  | false =>
      obtain ⟨hctx, -⟩ := writeableSubscribe_fails (setWsi s.ctx s.current) s.current (n :: ms) env he
      rw [hctx]
      exact h.of_framed (.of_ctx _ id rfl rfl List.prefix_rfl)
  | true =>
      obtain ⟨-, hmaps, hrest, hact⟩ :=
        writeableSubscribe_succeeds (setWsi s.ctx s.current) s.current (n :: ms) env he
      obtain ⟨w, maps, list, hf⟩ := writeableSubscribe_frame (setWsi s.ctx s.current) s.current (n :: ms) env
      intro hc m hm
      have hconn : s.ctx.isConnected = true := by
        rw [observe, hf] at hc
        exact hc
      have hasked (hin : m.topic ∈ (batchOf (n :: ms)).map TopicMap.topic) :
          m.topic ∈ s.subscribed ++
            (writeableSubscribe (setWsi s.ctx s.current) s.current (n :: ms) env).2.1.flatMap takenTopics := by
        rw [hact, List.flatMap_cons, takenTopics, List.map_map]
        exact List.mem_append.mpr (.inr (List.mem_append.mpr (.inl hin)))
      have hold : m ∈ s.ctx.subTopicMaps ∨ m ∈ batchOf (n :: ms) := by
        simp only [observe, hmaps] at hm
        exact mem_moveToMaps hm
      rcases hold with hold | hnew
      · rcases h hconn m hold with hq | hs
        · rw [Queued, hpend, ← List.take_append_drop (numToSubscribe (n :: ms)) (n :: ms), List.map_append,
            List.mem_append] at hq
          rcases hq with hq | hq
          · exact .inr (hasked hq)
          · refine .inl ?_
            simp only [Queued, observe, hrest]
            exact hq
        · exact .inr (List.mem_append.mpr (.inl hs))
      · exact .inr (hasked (List.mem_map_of_mem hnew))

theorem Covered.writeable (h : Covered s) (env : WriteableEnv) : Covered (next s (.writeable env)) := by
  rw [next, raise]
  have h' : Covered { s with armed := false } := h
  rcases callback_writeable_cases s.ctx s.current env with ⟨-, hr⟩ | ⟨-, m, ms, hl, hr⟩ | ⟨-, -, hr⟩
  · simp only [hr]
    exact h'.of_framed (.of_ctx [] id rfl rfl List.prefix_rfl)
  · simp only [hr]
    exact h'.subscribe hl env
  · simp only [hr]
    obtain ⟨w, list, hf⟩ := writeablePublish_frame (setWsi s.ctx s.current) env.publishOk
    rw [hf]
    exact h'.of_framed (.of_ctx _ id rfl rfl List.prefix_rfl)

theorem Covered.next (h : Covered s) {e : Event} (hc : EstablishedQueued s e) : Covered (next s e) := by
  cases e with
  | established wsi => exact fun _ m hm => .inl (hc rfl m hm)
  | writeable env => exact h.writeable env
  | _ => exact h.of_framed (framed_next (by simp) rfl)

theorem Covered.needed {e : Event} (h : Covered (MqttClient.next s e)) : EstablishedQueued s e := by
  intro he m hm
  cases e with
  | established wsi => exact (h rfl m hm).resolve_right (List.not_mem_nil)
  | _ => simp [Event.isEstablished] at he

/-- The client never loses a subscription without noticing in exactly the runs where
each new connection finds the subscribed topics queued again. -/
theorem covered_iff (config : Config) (es : List Event) (hl : Legal client (start config) es) :
    Always client Covered (start config) es ↔ EveryStep client EstablishedQueued (start config) es :=
  always_iff (fun _ _ hi _ hc => hi.next hc) (fun _ => id) (fun _ _ _ _ hn => hn.needed)
    (fun h => absurd h (by simp [start, iotMqttInit])) hl

instance : Decidable (Covered s) := inferInstanceAs (Decidable (_ → ∀ m ∈ s.ctx.subTopicMaps, (_ ∈ _) ∨ _))

instance (e : Event) : Decidable (EstablishedQueued s e) :=
  inferInstanceAs (Decidable (_ → ∀ m ∈ s.ctx.subTopicMaps, _ ∈ _))

section Reconnects

def AllQueued (s : Sys) : Prop := ∀ m ∈ s.ctx.subTopicMaps, Queued s.ctx m

/-- A reconnect that gets its connection and its memory. -/
def Requeues (config : Config) : Event → Prop
  | .reconnect (some _) alloc => ∀ i, alloc i = .ok
  | .closed (some _) alloc => config.autoReconnect = true ∧ ∀ i, alloc i = .ok
  | _ => False

def Event.isWriteable : Event → Bool
  | .writeable _ => true
  | _ => false

/-- Each connection is established after such a reconnect, or from a start with every topic
queued, and after no CLIENT_WRITEABLE since. -/
def Renews (config : Config) : Prop → List Event → Prop
  | _, [] => True
  | queued, e :: es =>
      (e.isEstablished = true → queued) ∧ Renews config (Requeues config e ∨ queued ∧ Event.isWriteable e = false) es

def Reconnects : Event → Bool
  | .reconnect conn _ => conn.isSome
  | .closed conn _ => conn.isSome
  | _ => false

theorem queued_after_reconnect {ctx : Ctx} (w : Wsi) {alloc : Nat → AppendAlloc} (ha : ∀ i, alloc i = .ok) :
    ∀ m ∈ ctx.subTopicMaps, Queued (iotMqttReconnect ctx (some w) alloc).1 m := by
  intro m hm
  rw [Queued, reconnect_pending ctx w alloc ha]
  exact List.mem_map_of_mem (List.mem_append.mpr (.inr hm))

theorem requeues_next {e : Event} (h : Requeues s.ctx.config e) : AllQueued (next s e) := by
  intro m hm
  cases e with
  | reconnect conn alloc =>
      cases conn with
      | none => exact h.elim
      | some w => exact queued_after_reconnect w h m (by simpa [next, observe] using hm)
  | closed conn alloc =>
      cases conn with
      | none => exact h.elim
      | some w =>
          have hctx : (next s (.closed (some w) alloc)).ctx =
              (iotMqttReconnect (setDisconnected (setWsi s.ctx s.current)) (some w) alloc).1 := by
            simp only [next, raise, observe, callbackMqtt, handle]
            rw [if_pos (show (setWsi s.ctx s.current).config.autoReconnect = true from h.1)]
          rw [hctx] at hm ⊢
          exact queued_after_reconnect w h.2 m (by simpa using hm)
  | _ => exact h.elim

theorem AllQueued.of_framed (h : AllQueued s) (hf : Framed s t) : AllQueued t := fun m hm =>
  (h m (hf.maps ▸ hm)).mono hf.pending

theorem next_config (e : Event) : (next s e).ctx.config = s.ctx.config := by
  cases e with
  | established wsi => rfl
  | writeable env =>
      rw [next, raise]
      rcases callback_writeable_cases s.ctx s.current env with ⟨-, hr⟩ | ⟨-, m, ms, -, hr⟩ | ⟨-, -, hr⟩
      · simp only [hr]
        rfl
      · obtain ⟨_, _, _, hf⟩ := writeableSubscribe_frame (setWsi s.ctx s.current) s.current (m :: ms) env
        simp only [hr]
        rw [hf]
        rfl
      · obtain ⟨_, _, hf⟩ := writeablePublish_frame (setWsi s.ctx s.current) env.publishOk
        simp only [hr]
        rw [hf]
        rfl
  | _ => exact (framed_next (by simp) rfl).config

/-- In a run whose connections come after reconnects that get their memory, each new
connection finds the subscribed topics queued again. -/
theorem establishedQueued_of_renews {queued : Prop} {es : List Event} (hqueued : queued → AllQueued s)
    (h : Renews s.ctx.config queued es) : EveryStep client EstablishedQueued s es := by
  induction es generalizing s queued with
  | nil => trivial
  | cons e es ih =>
      obtain ⟨hnow, hlater⟩ := h
      rw [← next_config (s := s) e] at hlater
      refine ⟨fun he => hqueued (hnow he), ih (s := next s e) ?_ hlater⟩
      rw [next_config]
      rintro (hrequeues | ⟨hold, hw⟩)
      · exact requeues_next hrequeues
      · cases e with
        | established wsi => exact hqueued hold
        | writeable env => simp [Event.isWriteable] at hw
        | _ => exact (hqueued hold).of_framed (framed_next (by simp) rfl)

theorem lost_writeable (hm : m ∈ s.ctx.subTopicMaps) (hlost : ¬Queued s.ctx m) (env : WriteableEnv) :
    m ∈ (next s (.writeable env)).ctx.subTopicMaps ∧ ¬Queued (next s (.writeable env)).ctx m := by
  rw [next, raise]
  rcases callback_writeable_cases s.ctx s.current env with ⟨-, hr⟩ | ⟨-, n, ms, hl, hr⟩ | ⟨-, -, hr⟩
  · simp only [hr]
    exact ⟨hm, hlost⟩
  · simp only [hr]
    cases he : env.subscribes with
    | false =>
        obtain ⟨hctx, -⟩ := writeableSubscribe_fails (setWsi s.ctx s.current) s.current (n :: ms) env he
        rw [hctx]
        exact ⟨hm, hlost⟩
    | true =>
        obtain ⟨-, hmaps, hrest, -⟩ := writeableSubscribe_succeeds (setWsi s.ctx s.current) s.current (n :: ms) env he
        have hpend : s.ctx.pendingSubs = n :: ms := by simp [Ctx.pendingSubs, hl]
        rw [Queued, hpend] at hlost
        simp only [observe, hmaps, Queued, hrest]
        exact ⟨(moveToMaps_keeps _ _ _ _).subset hm, fun hq => hlost (((List.drop_sublist _ _).map _).subset hq)⟩
  · simp only [hr]
    obtain ⟨w, list, hf⟩ := writeablePublish_frame (setWsi s.ctx s.current) env.publishOk
    rw [hf]
    exact ⟨hm, hlost⟩

theorem lost_next {e : Event} (hm : m ∈ s.ctx.subTopicMaps) (hlost : ¬Queued s.ctx m) (he : Reconnects e = false) :
    m ∈ (next s e).ctx.subTopicMaps ∧ ¬Queued (next s e).ctx m := by
  cases e with
  | writeable env => exact lost_writeable hm hlost env
  | subscribe n alloc =>
      rw [next, subscribeTopic]
      split
      · exact ⟨hm, hlost⟩
      next hnew =>
          obtain ⟨list, hf⟩ := append_frame s.ctx n alloc
          refine ⟨by rw [hf]; exact hm, ?_⟩
          have hne : m.topic ≠ n.topic := fun h => hnew (List.any_eq_true.mpr ⟨m, hm, decide_eq_true h.symm⟩)
          rw [Queued, append_pending, List.map_append, List.mem_append, not_or]
          refine ⟨hlost, ?_⟩
          split
          · simpa using hne
          · exact List.not_mem_nil
  | reconnect conn alloc =>
      obtain rfl : conn = none := by simpa [Reconnects] using he
      exact ⟨hm, hlost⟩
  | closed conn alloc =>
      obtain rfl : conn = none := by simpa [Reconnects] using he
      rw [next, raise, callbackMqtt, handle]
      split
      · exact ⟨hm, hlost⟩
      · exact ⟨hm, hlost⟩
  | publish topic payload qos alloc =>
      obtain ⟨list, hf⟩ := publish_frame s.ctx s.nextSerial topic payload qos alloc
      rw [next, publishStep, hf]
      exact ⟨hm, hlost⟩
  | ack p =>
      obtain ⟨w, list, hf⟩ := ack_frame s p
      rw [hf]
      exact ⟨hm, hlost⟩
  | connect | connectionError | established | suback | resend | rx | timer | other => exact ⟨hm, hlost⟩

/-- A connection that no such reconnect has come before finds the topic lost. -/
theorem not_establishedQueued {es : List Event} (hm : m ∈ s.ctx.subTopicMaps) (hlost : ¬Queued s.ctx m)
    (hes : ∀ e ∈ es, Reconnects e = false) (hest : ∃ e ∈ es, e.isEstablished = true) :
    ¬EveryStep client EstablishedQueued s es := by
  induction es generalizing s with
  | nil => simp at hest
  | cons e es ih =>
      rintro ⟨hnow, hlater⟩
      obtain ⟨hm', hlost'⟩ := lost_next hm hlost (hes e List.mem_cons_self)
      obtain ⟨d, hd, hestablished⟩ := hest
      rcases List.mem_cons.mp hd with rfl | hd
      · exact hlost (hnow hestablished m hm)
      · exact ih hm' hlost' (fun x hx => hes x (List.mem_cons_of_mem e hx)) ⟨d, hd, hestablished⟩ hlater

end Reconnects

def alarm : TopicMap := ⟨[97], 1, 0, 0, qos1⟩

def reconnectedRun : List Event :=
  [.established 1, .subscribe alarm .ok, .writeable .ok, .suback,
    .closed (some 2) (fun _ => .ok), .established 2]

theorem covered_reconnectedRun : Always client Covered (start ⟨true, 60⟩) reconnectedRun :=
  (covered_iff ⟨true, 60⟩ reconnectedRun (by decide)).mpr (by decide)

def connectedAgainRun : List Event :=
  [.established 1, .subscribe alarm .ok, .writeable .ok, .suback,
    .closed none (fun _ => .ok), .connect (some 2), .established 2]

/-- The automatic reconnect fails, a connect brings the client back, and its topic is
neither queued nor subscribed. -/
theorem covered_fails :
    Legal client (start ⟨true, 60⟩) connectedAgainRun ∧
      ¬Always client Covered (start ⟨true, 60⟩) connectedAgainRun := by
  decide

end OneSdk.MqttResubscribe
