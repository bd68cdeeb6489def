import OneSdk.SdkLifecycle

namespace OneSdk.SdkOwnership

open Accesses ErrorCode SdkLifecycle

section Pointers

variable (f : Features) (s : Sdk)

def ofChat (chat : ChatContext) : List Nat :=
  chat.self :: (chat.requestContext.toList ++ chat.llmConfig.toList ++ ofBasic chat.iotBasicCtx)

def ofMqtt (mqtt : IotMqttConfig) : List Nat :=
  mqtt.basicConfig.toList ++ (mqtt.username.toList ++ mqtt.password.toList)

def ofCtx : List Nat :=
  basicReleases s ++ s.ctx.chatCtx.toList.flatMap ofChat ++ s.ctx.aigwWsCtx.toList.map AigwWsCtx.self ++
    s.ctx.iotMqttCtx.toList.flatMap fun mqtt => [mqtt.self, mqtt.context]

def ofConfig : List Nat :=
  (if f.ai || f.aiRealtime then s.config.aigwLlmConfig.toList else []) ++
    if f.iot then s.config.mqttConfig.toList.flatMap ofMqtt else []

def NoDangling : Prop := ∀ n ∈ ofCtx s ++ ofConfig f s, s.heap.Live n

def ConfigLive : Prop := ∀ n ∈ ofConfig f s, s.heap.Live n

/-- What `onesdk_deinit` releases, and last what it only uses. -/
def held : List Nat :=
  wsReleases f s ++ llmReleases f s ++ chatReleases f s ++ (mqttReleases f s ++ (basicReleases s ++ mqttCtxs s))

def Owned : Prop := Owns s.heap (held f s)

end Pointers

variable {f : Features} {a : Attempt} {b : IotBasicCtx} {s s' : Sdk}

theorem basicAccesses_owned {l : Lifetimes} (h : Owns l (basicReleases s)) :
    ∃ l', perform l (basicAccesses s) = some l' := by
  cases hb : s.ctx.iotBasicCtx with
  | none => exact ⟨l, by rw [basicAccesses, hb]; rfl⟩
  | some b =>
      have hof : basicReleases s = ofBasic b := by
        rw [basicReleases, hb]
        exact List.append_nil _
      have haccesses : basicAccesses s = onesdkIotBasicDeinit b := by
        rw [basicAccesses, hb]
        exact List.append_nil _
      rw [hof] at h
      obtain ⟨l', hl', -⟩ := perform_frees_all h
      refine ⟨l', ?_⟩
      rw [haccesses, onesdkIotBasicDeinit,
        perform_use (h.2 b.self (List.mem_append_right _ (List.mem_singleton_self _)))]
      exact hl'

/-- No connection is closed that `iot_mqtt_reconnect` opens again. -/
def Quiet (up : Bool) (s : Sdk) : Prop :=
  ∀ mqtt, s.ctx.iotMqttCtx = some mqtt → (up && mqtt.wsi && reconnects s) = false

theorem mqttAccesses_quiet {up : Bool} (h : f.iot = true → Quiet up s) :
    mqttAccesses f s up = frees (mqttReleases f s) := by
  rw [mqttAccesses, mqttReleases]
  split
  next hiot =>
      cases hmqtt : s.ctx.iotMqttCtx with
      | none => rfl
      | some mqtt =>
          have hclosing : closingAccesses s up mqtt = [] := by
            rw [closingAccesses, h hiot mqtt hmqtt]
            exact if_neg Bool.false_ne_true
          dsimp only
          rw [hclosing, List.nil_append, frees, frees, frees, ← List.map_append]
  next => rfl

theorem onesdkDeinit_quiet {up : Bool} (h : Owned f s) (hquiet : f.iot = true → Quiet up s) :
    ∃ s', onesdkDeinit f s up = some s' := by
  obtain ⟨l₁, h₁, howns₁, -⟩ := perform_frees (mqttUses f s ++ (frees (mqttReleases f s) ++ basicAccesses s)) h
  have huses : ∀ n ∈ mqttCtxs s, l₁.Live n :=
    fun n hn => howns₁.2 n (List.mem_append_right _ (List.mem_append_right _ hn))
  have h₂ : perform l₁ (mqttUses f s ++ (frees (mqttReleases f s) ++ basicAccesses s)) =
      perform l₁ (frees (mqttReleases f s) ++ basicAccesses s) := by
    rw [mqttUses]
    split
    · exact perform_uses _ huses
    · rfl
  obtain ⟨l₃, h₃, howns₃, -⟩ := perform_frees (basicAccesses s) howns₁
  obtain ⟨l₄, h₄⟩ := basicAccesses_owned (owns_append.mp howns₃).1
  refine ⟨_, Option.map_eq_some_iff.mpr ⟨l₄, ?_, rfl⟩⟩
  rw [deinitAccesses, mqttAccesses_quiet hquiet, h₁, h₂, h₃, h₄]

theorem onesdkDeinit_owned (h : Owned f s) : ∃ s', onesdkDeinit f s false = some s' :=
  onesdkDeinit_quiet h fun _ _ _ => rfl

theorem onesdkDeinit_reconnects {up : Bool} (hiot : f.iot = true) (hstrings : stringReleases s ≠ [])
    (hnot : ¬Quiet up s) : onesdkDeinit f s up = none := by
  simp only [Quiet, not_forall, Bool.not_eq_false] at hnot
  obtain ⟨mqtt, hmqtt, hup⟩ := hnot
  obtain ⟨n, ns, hn⟩ := List.exists_cons_of_ne_nil hstrings
  have haccesses : deinitAccesses f s up =
      frees (wsReleases f s ++ llmReleases f s ++ chatReleases f s) ++ (mqttUses f s ++
        (frees (n :: ns) ++ [.use mqtt.context])) ++
          .use n :: (ns.map .use ++ (frees [mqtt.context] ++ basicAccesses s)) := by
    simp only [deinitAccesses, mqttAccesses, if_pos hiot, hmqtt, closingAccesses, if_pos hup, hn, List.map_cons,
      List.append_assoc, List.cons_append, List.nil_append]
  rw [onesdkDeinit, haccesses, perform_stale, Option.map_none]
  refine List.mem_append_right _ (List.mem_append_right _ (List.mem_append_left _ ?_))
  exact List.mem_map_of_mem List.mem_cons_self

/-- A context with its basic part, and whatever else has been built so far. -/
structure Ready (f : Features) (b : IotBasicCtx) (s : Sdk) : Prop where
  owned : Owned f s
  config : s.ctx.config = true
  basic : s.ctx.iotBasicCtx = some b
  chat : ∀ chat, s.ctx.chatCtx = some chat →
    f.ai = true ∧ chat.llmConfig = s.config.aigwLlmConfig ∧ chat.iotBasicCtx = b
  ws : s.ctx.aigwWsCtx ≠ none → f.aiRealtime = true
  mqtt : s.ctx.iotMqttCtx ≠ none → f.iot = true ∧ stringReleases s ≠ []

structure Equipped (f : Features) (a : Attempt) (s : Sdk) : Prop where
  chat : f.ai = true → s.ctx.chatCtx ≠ none
  ws : f.aiRealtime = true → ∃ self, s.ctx.aigwWsCtx = some ⟨self, a.wsContext⟩
  mqtt : f.iot = true → (s.ctx.iotMqttCtx = none ↔ s.config.mqttConfig = none)
  idle : ∀ mqtt, s.ctx.iotMqttCtx = some mqtt → mqtt.wsi = false

/-- An error return leaves no field that refers to a released object. -/
def Sound (f : Features) (r : Option (Int × Sdk)) : Prop :=
  ∃ ret s', r = some (ret, s') ∧ (ret ≠ volcOk → NoDangling f s')

def Builds (f : Features) (a : Attempt) (b : IotBasicCtx) (r : Option (Int × Sdk)) : Prop :=
  ∃ ret s', r = some (ret, s') ∧ Ready f b s' ∧ (ret = volcOk → Equipped f a s') ∧ (ret ≠ volcOk → NoDangling f s')

/-- A condition tells whether the rest of `onesdk_init` builds or leaves a field dangling. -/
structure Settles (f : Features) (a : Attempt) (b : IotBasicCtx) (P : Prop) (r : Option (Int × Sdk)) : Prop where
  built : P → Builds f a b r
  failed : ¬P → ¬Sound f r

def LlmClean (f : Features) (a : Attempt) : Prop :=
  (f.ai || f.aiRealtime) = true → a.llmConfig = true ∧ a.fetched = true

def ChatClean (f : Features) (a : Attempt) : Prop := f.ai = true → a.chatCtx = true ∧ a.endpoint = true

def WsClean (f : Features) (a : Attempt) : Prop :=
  f.aiRealtime = true → a.wsConfig = true ∧ a.wsCtx = true ∧ a.wsInit = true

/-- Without memory for the MQTT context the strings of an earlier one must be live. -/
def MqttClean (f : Features) (a : Attempt) (s : Sdk) : Prop :=
  f.iot = true → s.config.mqttConfig ≠ none →
    if a.mqttCtx = false then ∀ n ∈ stringReleases s, s.heap.Live n else a.lwsContext = true

theorem Settles.of_not {P : Prop} {r : Option (Int × Sdk)} (hnot : ¬P) (hr : ¬Sound f r) : Settles f a b P r :=
  ⟨fun h => absurd h hnot, fun _ => hr⟩

theorem Settles.congr {P Q : Prop} {r : Option (Int × Sdk)} (h : Settles f a b P r) (hiff : Q ↔ P) :
    Settles f a b Q r :=
  ⟨fun hq => h.built (hiff.mp hq), fun hq => h.failed (hq ∘ hiff.mpr)⟩

theorem mem_basicReleases (h : s.ctx.iotBasicCtx = some b) : b.self ∈ basicReleases s := by
  rw [basicReleases, h]
  exact List.mem_append_left _ (List.mem_append_right _ (List.mem_singleton_self _))

/-- Giving up after the context has got its basic part leaves that one dangling. -/
theorem abandon_not_sound {accesses : List Access} {code : Int} (hbasic : s.ctx.iotBasicCtx = some b)
    (hfree : .free b.self ∈ accesses) (hcode : code ≠ volcOk) : ¬Sound f (abandon s accesses code) := by
  rintro ⟨ret, s', hresult, hsound⟩
  obtain ⟨heap, hperform, hpair⟩ := Option.map_eq_some_iff.mp hresult
  cases hpair
  refine perform_freed hperform hfree (hsound hcode b.self ?_)
  refine List.mem_append_left _ (List.mem_append_left _ (List.mem_append_left _ (List.mem_append_left _ ?_)))
  exact mem_basicReleases hbasic

theorem free_mem_basicDeinit (b : IotBasicCtx) : .free b.self ∈ onesdkIotBasicDeinit b :=
  List.mem_cons_of_mem _ (List.mem_map_of_mem (List.mem_append_right _ (List.mem_singleton_self _)))

theorem Settles.abandon {P : Prop} {accesses : List Access} {code : Int} (hbasic : s.ctx.iotBasicCtx = some b)
    (hfree : .free b.self ∈ accesses) (hcode : code ≠ volcOk) (hnot : ¬P) : Settles f a b P (abandon s accesses code) :=
  .of_not hnot (abandon_not_sound hbasic hfree hcode)

section Stages

variable {s₀ : Sdk}

theorem stringReleases_congr (h : s'.config.mqttConfig = s.config.mqttConfig) :
    stringReleases s' = stringReleases s := by
  rw [stringReleases, stringReleases, h]

def Known (s : Sdk) : Prop := ∀ n ∈ stringReleases s, n < s.heap.allocated

/-- What `onesdk_init` has built so far is new, and it has not come to the MQTT part. -/
structure Since (s₀ s : Sdk) : Prop where
  heap : s₀.heap.Extends s.heap
  mqttConfig : s.config.mqttConfig = s₀.config.mqttConfig
  mqttCtx : s.ctx.iotMqttCtx = none

theorem mqttClean_since (hknown : Known s₀) (h : Since s₀ s) : MqttClean f a s ↔ MqttClean f a s₀ := by
  have hstrings := stringReleases_congr h.mqttConfig
  rw [MqttClean, MqttClean, h.mqttConfig, hstrings]
  apply imp_congr_right
  intro _
  apply imp_congr_right
  intro _
  split
  · exact forall₂_congr fun n hn => h.heap.live n (hknown n hn)
  · exact Iff.rfl

theorem mem_held_basic {n : Nat} (h : n ∈ basicReleases s) : n ∈ held f s :=
  List.mem_append_right _ (List.mem_append_right _ (List.mem_append_left _ h))

theorem Ready.live_basic (h : Ready f b s) {n : Nat} (hn : n ∈ ofBasic b) : s.heap.Live n := by
  apply h.owned.2
  apply mem_held_basic
  rw [basicReleases, h.basic]
  exact List.mem_append_left _ hn

theorem Ready.live_ws (h : Ready f b s) {ws : AigwWsCtx} (hn : s.ctx.aigwWsCtx = some ws) : s.heap.Live ws.self := by
  apply h.owned.2
  apply List.mem_append_left
  apply List.mem_append_left
  apply List.mem_append_left
  rw [wsReleases, if_pos (h.ws (by rw [hn]; exact Option.some_ne_none ws)), hn]
  exact List.mem_singleton_self ws.self

theorem Ready.live_llm (h : Ready f b s) (hf : (f.ai || f.aiRealtime) = true) {n : Nat}
    (hn : s.config.aigwLlmConfig = some n) : s.heap.Live n := by
  apply h.owned.2
  apply List.mem_append_left
  apply List.mem_append_left
  apply List.mem_append_right
  rw [llmReleases, if_pos (by rw [hf, h.config]; rfl), hn]
  exact List.mem_singleton_self n

theorem Ready.live_chat (h : Ready f b s) {chat : ChatContext} (hchat : s.ctx.chatCtx = some chat) {n : Nat}
    (hn : n ∈ ofChat chat) : s.heap.Live n := by
  obtain ⟨hai, hllm, hbasic⟩ := h.chat chat hchat
  have hown : n ∈ chat.requestContext.toList ++ [chat.self] → s.heap.Live n := by
    intro hmem
    apply h.owned.2
    apply List.mem_append_left
    apply List.mem_append_right
    rw [chatReleases, if_pos hai, hchat]
    exact hmem
  rcases List.mem_cons.mp hn with rfl | hn
  · exact hown (List.mem_append_right _ (List.mem_singleton_self _))
  · rcases List.mem_append.mp hn with hn | hn
    · rcases List.mem_append.mp hn with hn | hn
      · exact hown (List.mem_append_left _ hn)
      · rw [hllm] at hn
        exact h.live_llm (by rw [hai]; rfl) (Option.mem_toList.mp hn)
    · rw [hbasic] at hn
      exact h.live_basic hn

theorem Ready.noDangling (h : Ready f b s) (hnone : s.ctx.iotMqttCtx = none)
    (hconfig : f.iot = true → ∀ mqtt, s.config.mqttConfig = some mqtt → ∀ n ∈ ofMqtt mqtt, s.heap.Live n) :
    NoDangling f s := by
  intro n hn
  rw [ofCtx, ofConfig, hnone] at hn
  rcases List.mem_append.mp hn with hn | hn
  · rw [Option.toList_none, List.flatMap_nil, List.append_nil] at hn
    rcases List.mem_append.mp hn with hn | hn
    · rcases List.mem_append.mp hn with hn | hn
      · exact h.owned.2 n (mem_held_basic hn)
      · obtain ⟨chat, hchat, hn⟩ := List.mem_flatMap.mp hn
        exact h.live_chat (Option.mem_toList.mp hchat) hn
    · obtain ⟨ws, hws, rfl⟩ := List.mem_map.mp hn
      exact h.live_ws (Option.mem_toList.mp hws)
  · rcases List.mem_append.mp hn with hn | hn
    · split at hn
      next hf => exact h.live_llm hf (Option.mem_toList.mp hn)
      next => exact absurd hn List.not_mem_nil
    · split at hn
      next hf =>
        obtain ⟨mqtt, hmqtt, hn⟩ := List.mem_flatMap.mp hn
        exact hconfig hf mqtt (Option.mem_toList.mp hmqtt) n hn
      next => exact absurd hn List.not_mem_nil

theorem Ready.set_mqttConfig (h : Ready f b s) (hnone : s.ctx.iotMqttCtx = none) (mqttConfig : Option IotMqttConfig) :
    Ready f b { s with config := { s.config with mqttConfig := mqttConfig } } := by
  refine ⟨?_, h.config, h.basic, h.chat, h.ws, fun hsome => absurd hnone hsome⟩
  have hheld : held f { s with config := { s.config with mqttConfig := mqttConfig } } = held f s := by
    simp only [held, wsReleases, llmReleases, chatReleases, mqttReleases, basicReleases, mqttCtxs, hnone]
  rw [Owned, hheld]
  exact h.owned

theorem held_mqtt_none (hnone : s.ctx.iotMqttCtx = none) :
    held f s = wsReleases f s ++ llmReleases f s ++ chatReleases f s ++ basicReleases s := by
  rw [held, mqttReleases, mqttCtxs, hnone]
  split
  · rw [List.nil_append, Option.toList_none, List.map_nil, List.append_nil]
  · rw [List.nil_append, Option.toList_none, List.map_nil, List.append_nil]

def withMqtt (autoReconnect : Bool) (b : IotBasicCtx) (s : Sdk) : Sdk :=
  let l := s.heap
  { heap := l.allocate.allocate.allocate.allocate
    ctx := { s.ctx with iotMqttCtx := some ⟨l.allocated, l.allocate.allocate.allocate.allocated, false⟩ }
    config :=
      { s.config with
        mqttConfig :=
          some ⟨autoReconnect, b.config, some l.allocate.allocated, some l.allocate.allocate.allocated⟩ } }

theorem Ready.with_mqtt (h : Ready f b s) (autoReconnect : Bool) (hiot : f.iot = true)
    (hnone : s.ctx.iotMqttCtx = none) : Ready f b (withMqtt autoReconnect b s) := by
  refine ⟨?_, h.config, h.basic, h.chat, h.ws, fun _ => ⟨hiot, List.cons_ne_nil _ _⟩⟩
  have hown := h.owned
  rw [Owned, held_mqtt_none hnone] at hown
  have hheld : held f (withMqtt autoReconnect b s) = wsReleases f s ++ llmReleases f s ++ chatReleases f s ++
      [s.heap.allocate.allocated, s.heap.allocate.allocate.allocated] ++
        s.heap.allocate.allocate.allocate.allocated :: (basicReleases s ++ [s.heap.allocated]) := by
    simp [held, wsReleases, llmReleases, chatReleases, mqttReleases, stringReleases, basicReleases, mqttCtxs,
      withMqtt, hiot]
  generalize wsReleases f s ++ llmReleases f s ++ chatReleases f s = built at hown hheld
  have hctx : Owns s.heap.allocate (built ++ (basicReleases s ++ [s.heap.allocated])) := by
    rw [← List.append_assoc]
    exact owns_allocate _ [] (by rwa [List.append_nil])
  have husername := owns_allocate _ _ hctx
  have hpassword := owns_allocate (built ++ [s.heap.allocate.allocated]) (basicReleases s ++ [s.heap.allocated])
    (by rwa [List.append_assoc])
  rw [Owned, hheld]
  apply owns_allocate
  rw [List.append_assoc] at hpassword ⊢
  exact hpassword

/-- Without memory for its context the strings stored by an earlier `iot_mqtt_init` stay. -/
theorem initMqtt_noMemory (hready : Ready f b s) (hiot : f.iot = true) (hnone : s.ctx.iotMqttCtx = none)
    {mqtt : IotMqttConfig} (hmqtt : s.config.mqttConfig = some mqtt) :
    Settles f a b (f.iot = true → some mqtt ≠ none → ∀ n ∈ stringReleases s, s.heap.Live n)
      (some (volcErrInit,
        { s with config := { s.config with mqttConfig := some { mqtt with basicConfig := b.config } } })) := by
  have hstrings : stringReleases s = mqtt.username.toList ++ mqtt.password.toList := by rw [stringReleases, hmqtt]
  constructor
  · intro hclean
    have hset := hready.set_mqttConfig hnone (some { mqtt with basicConfig := b.config })
    refine ⟨volcErrInit, _, rfl, hset, fun h => absurd h init_ne_ok, fun _ => hset.noDangling hnone ?_⟩
    rintro - _ ⟨⟩ n hn
    rcases List.mem_append.mp hn with hn | hn
    · exact hset.live_basic (List.mem_append_left _ hn)
    · exact hclean hiot (Option.some_ne_none mqtt) n (hstrings ▸ hn)
  · rintro hnot ⟨ret, s', hresult, hsound⟩
    cases hresult
    apply hnot
    intro _ _ n hn
    apply hsound init_ne_ok n
    apply List.mem_append_right
    apply List.mem_append_right
    rw [if_pos hiot]
    rw [hstrings] at hn
    exact List.mem_flatMap.mpr ⟨_, List.mem_singleton_self _, List.mem_append_right _ hn⟩

theorem initMqtt_settles (hready : Ready f b s) (hchat : f.ai = true → s.ctx.chatCtx ≠ none)
    (hws : f.aiRealtime = true → ∃ self, s.ctx.aigwWsCtx = some ⟨self, a.wsContext⟩) (hknown : Known s₀)
    (hsince : Since s₀ s) :
    Settles f a b (MqttClean f a s₀) (initMqtt f a b s) := by
  apply Settles.congr _ (mqttClean_since hknown hsince).symm
  have hidle : ∀ mqtt, s.ctx.iotMqttCtx = some mqtt → mqtt.wsi = false :=
    fun mqtt hmqtt => nomatch hsince.mqttCtx.symm.trans hmqtt
  rw [initMqtt, MqttClean]
  by_cases hiot : f.iot = false
  · rw [if_pos hiot]
    have hno : ¬f.iot = true := Bool.eq_false_iff.mp hiot
    exact ⟨fun _ => ⟨volcOk, s, rfl, hready, fun _ => ⟨hchat, hws, fun h => absurd h hno, hidle⟩,
      fun h => absurd rfl h⟩, fun h => absurd (fun h' => absurd h' hno) h⟩
  rw [if_neg hiot]
  have hiot : f.iot = true := eq_true_of_ne_false hiot
  cases hmqtt : s.config.mqttConfig with
  | none =>
      exact ⟨fun _ => ⟨volcOk, s, rfl, hready, fun _ => ⟨hchat, hws, fun _ => iff_of_true hsince.mqttCtx hmqtt, hidle⟩,
        fun h => absurd rfl h⟩, fun h => absurd (fun _ h' => absurd rfl h') h⟩
  | some mqtt =>
      dsimp only
      by_cases hctx : a.mqttCtx = false
      · rw [if_pos hctx, if_pos hctx]
        exact initMqtt_noMemory hready hiot hsince.mqttCtx hmqtt
      · rw [if_neg hctx, if_neg hctx]
        by_cases hlws : a.lwsContext = false
        · rw [if_pos hlws]
          refine Settles.abandon hready.basic (List.mem_append_left _ (free_mem_basicDeinit b)) init_ne_ok fun h => ?_
          exact Bool.eq_false_iff.mp hlws (h hiot (Option.some_ne_none mqtt))
        · rw [if_neg hlws]
          have hlws : a.lwsContext = true := eq_true_of_ne_false hlws
          refine ⟨fun _ => ⟨volcOk, withMqtt mqtt.autoReconnect b s, rfl,
            hready.with_mqtt _ hiot hsince.mqttCtx, fun _ => ?_, fun h => absurd rfl h⟩, fun h =>
              absurd (fun _ _ => hlws) h⟩
          refine ⟨hchat, hws, fun _ => iff_of_false (Option.some_ne_none _) (Option.some_ne_none _), ?_⟩
          rintro _ ⟨⟩
          rfl

theorem Since.with_heap (h : Since s₀ s) {heap : Lifetimes} (hheap : s.heap.Extends heap) :
    Since s₀ { s with heap := heap } := ⟨h.heap.trans hheap, h.mqttConfig, h.mqttCtx⟩

theorem Ready.with_ws (h : Ready f b s) (lwsCtx : Bool) (hrealtime : f.aiRealtime = true)
    (hnone : s.ctx.aigwWsCtx = none) :
    ∃ heap, perform s.heap.allocate.allocate (frees [s.heap.allocated]) = some heap ∧ s.heap.Extends heap ∧
      Ready f b
        { s with heap := heap, ctx := { s.ctx with aigwWsCtx := some ⟨s.heap.allocate.allocated, lwsCtx⟩ } } := by
  have hconfig : Owns s.heap.allocate ([s.heap.allocated] ++ held f s) := owns_allocate [] _ h.owned
  have hctx : Owns s.heap.allocate.allocate ([s.heap.allocated] ++ s.heap.allocate.allocated :: held f s) :=
    owns_allocate _ _ hconfig
  obtain ⟨heap, hperform, howns, hlive⟩ := perform_frees [] hctx
  have hsome : perform s.heap.allocate.allocate (frees [s.heap.allocated]) = some heap := hperform
  refine ⟨heap, hsome, ⟨?_, fun n hn => ?_⟩, ?_, h.config, h.basic, h.chat, fun _ => hrealtime, h.mqtt⟩
  · rw [perform_allocated hsome]
    exact Nat.le_add_right _ 2
  · rw [hlive, ((Lifetimes.extends_allocate _).trans (Lifetimes.extends_allocate _)).live n hn, List.mem_singleton]
    exact and_iff_left (Nat.ne_of_lt hn)
  · have hheld : held f
        { s with heap := heap, ctx := { s.ctx with aigwWsCtx := some ⟨s.heap.allocate.allocated, lwsCtx⟩ } } =
        s.heap.allocate.allocated :: held f s := by
      simp [held, wsReleases, llmReleases, chatReleases, mqttReleases, stringReleases, basicReleases, mqttCtxs,
        hrealtime, hnone]
    rw [Owned, hheld]
    exact howns

theorem initWs_settles (hready : Ready f b s) (hchat : f.ai = true → s.ctx.chatCtx ≠ none)
    (hnone : s.ctx.aigwWsCtx = none) (hllm : f.aiRealtime = true → s.config.aigwLlmConfig ≠ none) (hknown : Known s₀)
    (hsince : Since s₀ s) : Settles f a b (WsClean f a ∧ MqttClean f a s₀) (initWs f a b s) := by
  rw [initWs]
  by_cases hrealtime : f.aiRealtime = false
  · have hno : ¬f.aiRealtime = true := Bool.eq_false_iff.mp hrealtime
    rw [if_pos hrealtime]
    apply (initMqtt_settles hready hchat (fun h => absurd h hno) hknown hsince).congr
    exact and_iff_right fun h => absurd h hno
  rw [if_neg hrealtime]
  have hrealtime : f.aiRealtime = true := eq_true_of_ne_false hrealtime
  by_cases hconfig : a.wsConfig = false
  · rw [if_pos hconfig]
    refine Settles.abandon hready.basic (free_mem_basicDeinit b) malloc_ne_ok fun h => ?_
    exact Bool.eq_false_iff.mp hconfig (h.1 hrealtime).1
  rw [if_neg hconfig]
  obtain ⟨llm, hsome⟩ := Option.ne_none_iff_exists'.mp (hllm hrealtime)
  have hnew : (new s).config.aigwLlmConfig = some llm := hsome
  dsimp only
  rw [hnew]
  dsimp only
  by_cases hctx : a.wsCtx = false
  · rw [if_pos hctx]
    refine Settles.abandon hready.basic (List.mem_append_left _ (free_mem_basicDeinit b)) malloc_ne_ok fun h => ?_
    exact Bool.eq_false_iff.mp hctx (h.1 hrealtime).2.1
  rw [if_neg hctx]
  by_cases hinit : a.wsInit = false
  · rw [if_pos hinit]
    refine Settles.abandon hready.basic
      (List.mem_append_right _ (List.mem_append_left _ (free_mem_basicDeinit b))) malloc_ne_ok fun h => ?_
    exact Bool.eq_false_iff.mp hinit (h.1 hrealtime).2.2
  rw [if_neg hinit]
  obtain ⟨heap, hperform, hextends, hready'⟩ := hready.with_ws a.wsContext hrealtime hnone
  have hsince' : Since s₀
      { s with heap := heap, ctx := { s.ctx with aigwWsCtx := some ⟨s.heap.allocate.allocated, a.wsContext⟩ } } :=
    ⟨hsince.heap.trans hextends, hsince.mqttConfig, hsince.mqttCtx⟩
  have hheap : perform (new (new s)).heap (frees [s.heap.allocated]) = some heap := hperform
  rw [hheap]
  apply (initMqtt_settles hready' hchat (fun _ => ⟨_, rfl⟩) hknown hsince').congr
  apply and_iff_right
  exact fun _ => ⟨eq_true_of_ne_false hconfig, eq_true_of_ne_false hctx, eq_true_of_ne_false hinit⟩

theorem Ready.with_chat (h : Ready f b s) (hai : f.ai = true) (hnone : s.ctx.chatCtx = none) :
    Ready f b
      { s with
        heap := s.heap.allocate
        ctx := { s.ctx with chatCtx := some ⟨s.heap.allocated, none, s.config.aigwLlmConfig, b, false⟩ } } := by
  refine ⟨?_, h.config, h.basic, ?_, h.ws, h.mqtt⟩
  · have hold : held f s = (wsReleases f s ++ llmReleases f s) ++
      (mqttReleases f s ++ (basicReleases s ++ mqttCtxs s)) := by
      simp [held, chatReleases, hnone]
    have hown := h.owned
    rw [Owned, hold] at hown
    rw [Owned]
    refine cast (congrArg (Owns _) ?_) (owns_allocate _ _ hown)
    simp [held, wsReleases, llmReleases, chatReleases, mqttReleases, stringReleases, basicReleases, mqttCtxs, hai]
  · rintro _ ⟨⟩
    exact ⟨hai, rfl, rfl⟩

theorem initChat_settles (hready : Ready f b s) (hnone : s.ctx.chatCtx = none) (hws : s.ctx.aigwWsCtx = none)
    (hllm : f.aiRealtime = true → s.config.aigwLlmConfig ≠ none) (hknown : Known s₀) (hsince : Since s₀ s) :
    Settles f a b (ChatClean f a ∧ WsClean f a ∧ MqttClean f a s₀) (initChat f a b s) := by
  rw [initChat]
  by_cases hai : f.ai = false
  · have hno : ¬f.ai = true := Bool.eq_false_iff.mp hai
    rw [if_pos hai]
    apply (initWs_settles hready (fun h => absurd h hno) hws hllm hknown hsince).congr
    exact and_iff_right fun h => absurd h hno
  rw [if_neg hai]
  have hai : f.ai = true := eq_true_of_ne_false hai
  by_cases hctx : a.chatCtx = false
  · rw [if_pos hctx]
    refine Settles.abandon hready.basic (free_mem_basicDeinit b) malloc_ne_ok fun h => ?_
    exact Bool.eq_false_iff.mp hctx (h.1 hai).1
  rw [if_neg hctx]
  dsimp only
  by_cases hendpoint : a.endpoint = false
  · rw [if_pos hendpoint]
    refine Settles.abandon hready.basic (free_mem_basicDeinit b) malloc_ne_ok fun h => ?_
    exact Bool.eq_false_iff.mp hendpoint (h.1 hai).2
  rw [if_neg hendpoint]
  have hsince' := hsince.with_heap (Lifetimes.extends_allocate s.heap)
  apply (initWs_settles (hready.with_chat hai hnone) (fun _ => Option.some_ne_none _) hws hllm hknown
    ⟨hsince'.heap, hsince.mqttConfig, hsince.mqttCtx⟩).congr
  apply and_iff_right
  exact fun _ => ⟨eq_true_of_ne_false hctx, eq_true_of_ne_false hendpoint⟩

def basicOnly (b : IotBasicCtx) : Ctx := ⟨true, some b, none, none, none⟩

theorem ready_basic (hctx : s.ctx = basicOnly b) (howns : Owns s.heap (llmReleases f s ++ ofBasic b)) :
    Ready f b s := by
  refine ⟨?_, by rw [hctx]; rfl, by rw [hctx]; rfl, ?_, ?_, ?_⟩
  · have hheld : held f s = llmReleases f s ++ ofBasic b := by
      simp [held, wsReleases, chatReleases, mqttReleases, basicReleases, mqttCtxs, hctx, basicOnly]
    rw [Owned, hheld]
    exact howns
  · intro chat hchat
    rw [hctx] at hchat
    exact nomatch hchat
  · intro hws
    rw [hctx] at hws
    exact absurd rfl hws
  · intro hmqtt
    rw [hctx] at hmqtt
    exact absurd rfl hmqtt

theorem initLlm_settles (hctx : s.ctx = basicOnly b) (howns : Owns s.heap (ofBasic b)) (hknown : Known s₀)
    (hsince : Since s₀ s) :
    Settles f a b (LlmClean f a ∧ ChatClean f a ∧ WsClean f a ∧ MqttClean f a s₀) (initLlm f a b s) := by
  have hbasic : s.ctx.iotBasicCtx = some b := by rw [hctx]; rfl
  have hchat : s.ctx.chatCtx = none := by rw [hctx]; rfl
  have hws : s.ctx.aigwWsCtx = none := by rw [hctx]; rfl
  rw [initLlm]
  by_cases hf : (f.ai || f.aiRealtime) = false
  · rw [if_pos hf]
    have hno : ¬(f.ai || f.aiRealtime) = true := Bool.eq_false_iff.mp hf
    have hnothing : llmReleases f s = [] := by rw [llmReleases, hf]; rfl
    have hready : Ready f b s := ready_basic hctx (by rw [hnothing]; exact howns)
    have hllm : f.aiRealtime = true → s.config.aigwLlmConfig ≠ none := by
      intro h
      rw [h, Bool.or_true] at hf
      exact nomatch hf
    apply (initChat_settles hready hchat hws hllm hknown hsince).congr
    exact and_iff_right fun h => absurd h hno
  rw [if_neg hf]
  have hf : (f.ai || f.aiRealtime) = true := eq_true_of_ne_false hf
  by_cases hmemory : a.llmConfig = false
  · rw [if_pos hmemory]
    apply Settles.of_not
    · intro h
      exact Bool.eq_false_iff.mp hmemory (h.1 hf).1
    · rintro ⟨_, _, hnone, -⟩
      exact nomatch hnone
  rw [if_neg hmemory]
  dsimp only
  by_cases hfetched : a.fetched = false
  · rw [if_pos hfetched]
    refine Settles.abandon hbasic (free_mem_basicDeinit b) invalidParam_ne_ok fun h => ?_
    exact Bool.eq_false_iff.mp hfetched (h.1 hf).2
  rw [if_neg hfetched]
  have hready : Ready f b
      { new s with config := { s.config with aigwLlmConfig := some s.heap.allocated } } := by
    refine ready_basic hctx ?_
    have hfetch : llmReleases f { new s with config := { s.config with aigwLlmConfig := some s.heap.allocated } } =
        [s.heap.allocated] := by
      simp [llmReleases, new, hctx, basicOnly, hf]
    rw [hfetch]
    exact owns_allocate [] _ howns
  apply (initChat_settles hready hchat hws (fun _ => Option.some_ne_none _) hknown
    ⟨hsince.heap.trans (Lifetimes.extends_allocate s.heap), hsince.mqttConfig, hsince.mqttCtx⟩).congr
  apply and_iff_right
  exact fun _ => ⟨eq_true_of_ne_false hmemory, eq_true_of_ne_false hfetched⟩

end Stages

end OneSdk.SdkOwnership
