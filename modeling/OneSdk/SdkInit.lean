import OneSdk.SdkOwnership

namespace OneSdk.SdkInit

open Accesses ErrorCode SdkLifecycle SdkOwnership

variable {f : Features} {a : Attempt} {b : IotBasicCtx} {s s' : Sdk}

/-- The way through `onesdk_init` leaves no field dangling: it gives up early and finds no
released object in the configuration, or it does not give up between storing the basic
part in the context and the MQTT part. -/
def Clean (f : Features) (a : Attempt) (s : Sdk) : Prop :=
  if a.iotBasicCtx = false ∨ s.config.deviceConfig = false then ConfigLive f s
  else
    a.configDup = true ∧
      if a.registered = false then ConfigLive f s
      else LlmClean f a ∧ ChatClean f a ∧ WsClean f a ∧ MqttClean f a s

def emptyCtx (config : Bool) : Ctx := ⟨config, none, none, none, none⟩

theorem configLive_congr (hconfig : s'.config = s.config) (hlive : ∀ n, s'.heap.Live n ↔ s.heap.Live n) :
    ConfigLive f s' ↔ ConfigLive f s := by
  rw [ConfigLive, ConfigLive, ofConfig, ofConfig, hconfig]
  exact forall₂_congr fun n _ => hlive n

theorem noDangling_empty {c : Bool} (hctx : s.ctx = emptyCtx c) : NoDangling f s ↔ ConfigLive f s := by
  have hnothing : ofCtx s = [] := by rw [ofCtx, basicReleases, hctx]; rfl
  rw [NoDangling, ConfigLive, hnothing, List.nil_append]

theorem owned_empty {c : Bool} (hctx : s.ctx = emptyCtx c) (hlive : ConfigLive f s) : Owned f s := by
  have hheld : held f s = llmReleases f s := by
    simp [held, wsReleases, chatReleases, mqttReleases, basicReleases, mqttCtxs, hctx, emptyCtx]
  rw [Owned, hheld, llmReleases]
  split
  next hf =>
    cases hllm : s.config.aigwLlmConfig with
    | none => exact owns_nil
    | some llm =>
        refine ⟨List.nodup_singleton llm, fun n hn => hlive n ?_⟩
        apply List.mem_append_left
        rw [if_pos (Bool.and_eq_true_iff.mp hf).1, hllm]
        exact hn
  next => exact owns_nil

/-- A call that is sound just when a condition holds, and then leaves what can be released. -/
structure Agrees (f : Features) (P : Prop) (r : Option (Int × Sdk)) : Prop where
  sound : Sound f r ↔ P
  owned : P → ∃ ret s', r = some (ret, s') ∧ Owned f s'

theorem early_agrees {c : Bool} {code : Int} (hcode : code ≠ volcOk) (hctx : s'.ctx = emptyCtx c)
    (hconfig : s'.config = s.config) (hlive : ∀ n, s'.heap.Live n ↔ s.heap.Live n) :
    Agrees f (ConfigLive f s) (some (code, s')) := by
  have hcongr : ConfigLive f s' ↔ ConfigLive f s := configLive_congr hconfig hlive
  refine ⟨?_, fun h => ⟨code, s', rfl, owned_empty hctx (hcongr.mpr h)⟩⟩
  rw [← hcongr, ← noDangling_empty hctx]
  constructor
  · rintro ⟨ret, _, ⟨⟩, hsound⟩
    exact hsound hcode
  · exact fun h => ⟨code, s', rfl, fun _ => h⟩

structure Fresh (l l' : Lifetimes) (b : IotBasicCtx) : Prop where
  owns : Owns l' (ofBasic b)
  live : ∀ n, l'.Live n ↔ l.Live n ∨ n ∈ ofBasic b
  new : ∀ n ∈ ofBasic b, ¬l.Live n

theorem fresh_basic (l : Lifetimes) : Fresh l l.allocate ⟨l.allocated, none⟩ := by
  refine ⟨owns_allocate [] [] owns_nil, fun n => ?_, fun n hn hlive => ?_⟩
  · rw [Lifetimes.allocate_live, ofBasic, Option.toList_none, List.nil_append, List.mem_singleton]
  · rw [List.mem_singleton.mp hn] at hlive
    exact Nat.lt_irrefl _ hlive.1

theorem fresh_config (l : Lifetimes) : Fresh l l.allocate.allocate ⟨l.allocated, some l.allocate.allocated⟩ := by
  have hself := (fresh_basic l).owns
  have hmem (n : Nat) :
      n ∈ ofBasic ⟨l.allocated, some l.allocate.allocated⟩ ↔ n = l.allocate.allocated ∨ n = l.allocated := by
    rw [ofBasic, Option.toList_some, List.singleton_append, List.mem_cons, List.mem_singleton]
  refine ⟨owns_allocate [] _ hself, fun n => ?_, fun n hn hlive => ?_⟩
  · rw [Lifetimes.allocate_live, Lifetimes.allocate_live, hmem, or_assoc, or_comm (a := n = l.allocated)]
  · rcases (hmem n).mp hn with rfl | rfl
    · exact absurd hlive.1 (Nat.not_lt_of_le (Nat.le_succ _))
    · exact absurd hlive.1 (Nat.lt_irrefl _)

theorem abandon_agrees {c : Bool} {code : Int} {l : Lifetimes} (hcode : code ≠ volcOk) (hfresh : Fresh s.heap l b) :
    Agrees f (ConfigLive f s)
      (abandon { s with heap := l, ctx := emptyCtx c } (onesdkIotBasicDeinit b) code) := by
  obtain ⟨heap, hperform, hfreed⟩ := perform_frees_all hfresh.owns
  have hdeinit : perform l (onesdkIotBasicDeinit b) = some heap := by
    rw [onesdkIotBasicDeinit,
      perform_use (hfresh.owns.2 b.self (List.mem_append_right _ (List.mem_singleton_self _)))]
    exact hperform
  rw [abandon]
  dsimp only
  rw [hdeinit]
  refine early_agrees hcode rfl rfl fun n => ?_
  dsimp only
  rw [hfreed, hfresh.live]
  constructor
  · rintro ⟨hold | hmem, hnot⟩
    · exact hold
    · exact absurd hmem hnot
  · exact fun hold => ⟨.inl hold, fun hmem => hfresh.new n hmem hold⟩

theorem onesdkInit_eq :
    onesdkInit f a s =
      if a.iotBasicCtx = false then some (volcErrMalloc, { s with ctx := emptyCtx false })
      else if s.config.deviceConfig = false then
        abandon { s with heap := s.heap.allocate, ctx := emptyCtx false }
          (onesdkIotBasicDeinit ⟨s.heap.allocated, none⟩) volcErrInvalidParam
      else if a.configDup = false then none
      else if a.registered = false then
        abandon { s with heap := s.heap.allocate.allocate, ctx := emptyCtx true }
          (onesdkIotBasicDeinit ⟨s.heap.allocated, some s.heap.allocate.allocated⟩) volcErrInvalidParam
      else
        initLlm f a ⟨s.heap.allocated, some s.heap.allocate.allocated⟩
          { s with
            heap := s.heap.allocate.allocate
            ctx := basicOnly ⟨s.heap.allocated, some s.heap.allocate.allocated⟩ } := rfl

theorem initLlm_registered (hknown : Known s) :
    Settles f a ⟨s.heap.allocated, some s.heap.allocate.allocated⟩
      (LlmClean f a ∧ ChatClean f a ∧ WsClean f a ∧ MqttClean f a s)
      (initLlm f a ⟨s.heap.allocated, some s.heap.allocate.allocated⟩
        { s with
          heap := s.heap.allocate.allocate
          ctx := basicOnly ⟨s.heap.allocated, some s.heap.allocate.allocated⟩ }) :=
  initLlm_settles rfl (fresh_config s.heap).owns hknown
    ⟨(Lifetimes.extends_allocate _).trans (Lifetimes.extends_allocate _), rfl, rfl⟩

theorem onesdkInit_agrees (hknown : Known s) : Agrees f (Clean f a s) (onesdkInit f a s) := by
  rw [onesdkInit_eq, Clean]
  by_cases hbasic : a.iotBasicCtx = false
  · rw [if_pos hbasic, if_pos (Or.inl hbasic)]
    exact early_agrees malloc_ne_ok rfl rfl fun _ => Iff.rfl
  rw [if_neg hbasic]
  by_cases hdevice : s.config.deviceConfig = false
  · rw [if_pos hdevice, if_pos (Or.inr hdevice)]
    exact abandon_agrees invalidParam_ne_ok (fresh_basic s.heap)
  rw [if_neg hdevice, if_neg (not_or.mpr ⟨hbasic, hdevice⟩)]
  by_cases hdup : a.configDup = false
  · rw [if_pos hdup]
    have hno : ¬a.configDup = true := Bool.eq_false_iff.mp hdup
    refine ⟨iff_of_false ?_ fun h => hno h.1, fun h => absurd h.1 hno⟩
    rintro ⟨_, _, hnone, -⟩
    exact nomatch hnone
  rw [if_neg hdup, and_iff_right (eq_true_of_ne_false hdup)]
  by_cases hregistered : a.registered = false
  · rw [if_pos hregistered, if_pos hregistered]
    exact abandon_agrees invalidParam_ne_ok (fresh_config s.heap)
  rw [if_neg hregistered, if_neg hregistered]
  have hsettles := initLlm_registered (f := f) (a := a) hknown
  constructor
  · constructor
    · intro hsound
      by_contra hnot
      exact hsettles.failed hnot hsound
    · intro hclean
      obtain ⟨ret, s', hresult, -, -, hfailed⟩ := hsettles.built hclean
      exact ⟨ret, s', hresult, hfailed⟩
  · intro hclean
    obtain ⟨ret, s', hresult, hready, -⟩ := hsettles.built hclean
    exact ⟨ret, s', hresult, hready.owned⟩

theorem abandon_code {accesses : List Access} {code ret : Int} (h : abandon s accesses code = some (ret, s')) :
    ret = code := by
  obtain ⟨heap, -, hpair⟩ := Option.map_eq_some_iff.mp h
  exact (Prod.mk.inj hpair).1.symm

theorem onesdkInit_equipped (hknown : Known s) (h : onesdkInit f a s = some (volcOk, s')) :
    ∃ b, Ready f b s' ∧ Equipped f a s' := by
  rw [onesdkInit_eq] at h
  split at h
  next => exact absurd (Prod.mk.inj (Option.some.inj h)).1 malloc_ne_ok
  next =>
    split at h
    next => exact absurd (abandon_code h).symm invalidParam_ne_ok
    next =>
      split at h
      next => exact nomatch h
      next =>
        split at h
        next => exact absurd (abandon_code h).symm invalidParam_ne_ok
        next =>
          have hsettles := initLlm_registered (f := f) (a := a) hknown
          have hclean : LlmClean f a ∧ ChatClean f a ∧ WsClean f a ∧ MqttClean f a s := by
            by_contra hnot
            exact hsettles.failed hnot ⟨volcOk, s', h, fun hne => absurd rfl hne⟩
          obtain ⟨ret, s₁, hresult, hready, hequipped, -⟩ := hsettles.built hclean
          rw [h] at hresult
          cases hresult
          exact ⟨_, hready, hequipped rfl⟩

end OneSdk.SdkInit
