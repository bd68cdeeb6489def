import OneSdk.SdkInit

namespace OneSdk.SdkKept

open Accesses SdkLifecycle SdkOwnership SdkInit

variable {f : Features} {a : Attempt} {b : IotBasicCtx} {s s' : Sdk}

/-- The strings in the configuration are allocated, the caller's part of it is as given,
and no object has been released twice. -/
structure Kept (given : Option Bool) (s : Sdk) : Prop where
  known : Known s
  once : s.heap.released.Nodup
  mqttConfig : s.config.mqttConfig.map IotMqttConfig.autoReconnect = given

variable {given : Option Bool} {ret : Int}

theorem Kept.of_heap (h : Kept given s) (hconfig : s'.config.mqttConfig = s.config.mqttConfig)
    (hheap : s.heap.allocated ≤ s'.heap.allocated) (honce : s'.heap.released.Nodup) : Kept given s' := by
  refine ⟨fun n hn => ?_, honce, by rw [hconfig, h.mqttConfig]⟩
  rw [stringReleases_congr hconfig] at hn
  exact Nat.lt_of_lt_of_le (h.known n hn) hheap

theorem Kept.new (h : Kept given s) : Kept given (new s) := h.of_heap rfl (Nat.le_succ _) h.once

theorem Kept.perform {heap : Lifetimes} {accesses : List Access} (h : Kept given s)
    (hperform : perform s.heap accesses = some heap) (hheap : s'.heap = heap)
    (hconfig : s'.config.mqttConfig = s.config.mqttConfig) : Kept given s' := by
  subst hheap
  exact h.of_heap hconfig (Nat.le_of_eq (perform_allocated hperform).symm) (perform_nodup hperform h.once)

theorem abandon_kept {accesses : List Access} {code : Int} (h : Kept given s)
    (hresult : abandon s accesses code = some (ret, s')) : Kept given s' := by
  obtain ⟨heap, hperform, hpair⟩ := Option.map_eq_some_iff.mp hresult
  cases hpair
  exact h.perform hperform rfl rfl

theorem initMqtt_kept (h : Kept given s) (hresult : initMqtt f a b s = some (ret, s')) : Kept given s' := by
  rw [initMqtt] at hresult
  split at hresult
  next =>
    cases hresult
    exact h
  next =>
    split at hresult
    next =>
      cases hresult
      exact h
    next mqtt hmqtt =>
      have hgiven : some mqtt.autoReconnect = given := by rw [← h.mqttConfig, hmqtt]; rfl
      have hstored : Kept given { s with
          heap := s.heap.allocate.allocate.allocate
          config := { s.config with
            mqttConfig := some ⟨mqtt.autoReconnect, b.config, some s.heap.allocate.allocated,
              some s.heap.allocate.allocate.allocated⟩ } } := by
        refine ⟨fun n hn => ?_, h.once, hgiven⟩
        rcases List.mem_cons.mp hn with rfl | hn
        · exact Nat.lt_succ_of_lt (Nat.lt_succ_self _)
        · rw [List.mem_singleton.mp hn]
          exact Nat.lt_succ_self _
      dsimp only at hresult
      split at hresult
      next =>
        cases hresult
        refine ⟨fun n hn => h.known n ?_, h.once, hgiven⟩
        rw [stringReleases, hmqtt]
        exact hn
      next =>
        split at hresult
        next => exact abandon_kept hstored hresult
        next =>
          cases hresult
          exact hstored.of_heap rfl (Nat.le_succ _) h.once

theorem initWs_kept (h : Kept given s) (hresult : initWs f a b s = some (ret, s')) : Kept given s' := by
  rw [initWs] at hresult
  split at hresult
  next => exact initMqtt_kept h hresult
  next =>
    split at hresult
    next => exact abandon_kept h hresult
    next =>
      dsimp only at hresult
      split at hresult
      next => exact abandon_kept h.new hresult
      next =>
        split at hresult
        next => exact abandon_kept h.new hresult
        next =>
          split at hresult
          next => exact abandon_kept h.new.new hresult
          next =>
            obtain ⟨heap, hperform, hresult⟩ := Option.bind_eq_some_iff.mp hresult
            refine initMqtt_kept ?_ hresult
            exact h.new.new.perform hperform rfl rfl

theorem initChat_kept (h : Kept given s) (hresult : initChat f a b s = some (ret, s')) : Kept given s' := by
  rw [initChat] at hresult
  split at hresult
  next => exact initWs_kept h hresult
  next =>
    split at hresult
    next => exact abandon_kept h hresult
    next =>
      dsimp only at hresult
      split at hresult
      next => exact abandon_kept h.new hresult
      next =>
        refine initWs_kept ?_ hresult
        exact h.new.of_heap rfl (Nat.le_refl _) h.once

theorem initLlm_kept (h : Kept given s) (hresult : initLlm f a b s = some (ret, s')) : Kept given s' := by
  rw [initLlm] at hresult
  split at hresult
  next => exact initChat_kept h hresult
  next =>
    split at hresult
    next => cases hresult
    next =>
      dsimp only at hresult
      split at hresult
      next => exact abandon_kept h.new hresult
      next =>
        refine initChat_kept ?_ hresult
        exact h.new.of_heap rfl (Nat.le_refl _) h.once

theorem onesdkInit_kept (h : Kept given s) (hresult : onesdkInit f a s = some (ret, s')) : Kept given s' := by
  rw [onesdkInit_eq] at hresult
  split at hresult
  next =>
    cases hresult
    exact h.of_heap rfl (Nat.le_refl _) h.once
  next =>
    split at hresult
    next =>
      refine abandon_kept ?_ hresult
      exact h.of_heap rfl (Nat.le_succ _) h.once
    next =>
      split at hresult
      next => exact nomatch hresult
      next =>
        have hbasic : Kept given { s with heap := s.heap.allocate.allocate } :=
          h.of_heap rfl (Nat.le_add_right _ 2) h.once
        split at hresult
        next =>
          refine abandon_kept ?_ hresult
          exact hbasic.of_heap rfl (Nat.le_refl _) h.once
        next =>
          refine initLlm_kept ?_ hresult
          exact hbasic.of_heap rfl (Nat.le_refl _) h.once

theorem onesdkDeinit_kept {up : Bool} (h : Kept given s) (hresult : onesdkDeinit f s up = some s') : Kept given s' := by
  obtain ⟨heap, hperform, rfl⟩ := Option.map_eq_some_iff.mp hresult
  exact h.perform hperform rfl rfl

theorem start_kept (g : Given) : Kept g.mqttConfig (start g) := by
  constructor
  · intro n hn
    rw [stringReleases, start] at hn
    cases hmqtt : g.mqttConfig with
    | none =>
        rw [hmqtt] at hn
        exact absurd hn List.not_mem_nil
    | some autoReconnect =>
        rw [hmqtt] at hn
        exact absurd hn List.not_mem_nil
  · rw [start]
    dsimp only
    split
    · exact List.nodup_nil
    · exact List.nodup_nil
  · rw [start]
    dsimp only
    rw [Option.map_map]
    exact Option.map_id'

end OneSdk.SdkKept
