import OneSdk.Runs
import OneSdk.SdkKept

namespace OneSdk.SdkCycles

open Runs Accesses SdkLifecycle SdkOwnership SdkInit SdkKept

inductive Call where
  | init (a : Attempt)
  | deinit

/-- `begun` after a call of `onesdk_init` that no call of `onesdk_deinit` has followed. -/
structure Cycle where
  sdk : Sdk
  begun : Bool

def next (f : Features) (c : Cycle) : Call → Cycle
  | .init a => ⟨((onesdkInit f a c.sdk).map Prod.snd).getD c.sdk, true⟩
  | .deinit => ⟨(onesdkDeinit f c.sdk false).getD c.sdk, false⟩

/-- Calls on one context and one configuration, in any order. Nothing connects between them. -/
def cycles (f : Features) : Machine Cycle Call := ⟨fun _ _ => True, next f⟩

/-- A failing `onesdk_init` leaves nothing dangling, and the `onesdk_deinit` after an
`onesdk_init` goes through, with every object released at most once. -/
def Right (f : Features) (c : Cycle) : Call → Prop
  | .init a => Sound f (onesdkInit f a c.sdk)
  | .deinit => c.begun = true → ∃ s', onesdkDeinit f c.sdk false = some s' ∧ s'.heap.released.Nodup

def CleanCall (f : Features) (c : Cycle) : Call → Prop
  | .init a => Clean f a c.sdk
  | .deinit => True

structure Inv (f : Features) (given : Option Bool) (c : Cycle) : Prop where
  kept : Kept given c.sdk
  owned : c.begun = true → Owned f c.sdk

variable {f : Features} {given : Option Bool} {c : Cycle} {call : Call}

theorem inv_next (h : Inv f given c) (hclean : CleanCall f c call) : Inv f given (next f c call) := by
  cases call with
  | init a =>
      obtain ⟨ret, s', hresult, howned⟩ := (onesdkInit_agrees h.kept.known).owned hclean
      have hnext : next f c (.init a) = ⟨s', true⟩ := by rw [next, hresult]; rfl
      rw [hnext]
      exact ⟨onesdkInit_kept h.kept hresult, fun _ => howned⟩
  | deinit =>
      refine ⟨?_, fun hbegun => nomatch hbegun⟩
      rw [next]
      cases hresult : onesdkDeinit f c.sdk false with
      | none => exact h.kept
      | some s' => exact onesdkDeinit_kept h.kept hresult

theorem right_iff (h : Inv f given c) : Right f c call ↔ CleanCall f c call := by
  cases call with
  | init a => exact (onesdkInit_agrees h.kept.known).sound
  | deinit =>
      refine iff_of_true (fun hbegun => ?_) trivial
      obtain ⟨s', hresult⟩ := onesdkDeinit_owned (h.owned hbegun)
      exact ⟨s', hresult, (onesdkDeinit_kept h.kept hresult).once⟩

theorem start_inv (f : Features) (g : Given) : Inv f g.mqttConfig ⟨start g, false⟩ :=
  ⟨start_kept g, fun hbegun => nomatch hbegun⟩

/-- In any build and whatever fails, the calls of `onesdk_init` and `onesdk_deinit` keep
their promise just when every `onesdk_init` takes a clean way. -/
theorem right_always_iff (f : Features) (g : Given) (calls : List Call) :
    EveryStep (cycles f) (Right f) ⟨start g, false⟩ calls ↔
      EveryStep (cycles f) (CleanCall f) ⟨start g, false⟩ calls := by
  have hkeep : ∀ c call, Inv f g.mqttConfig c → (cycles f).enabled c call → CleanCall f c call →
      Inv f g.mqttConfig ((cycles f).next c call) := fun _ _ hinv _ hclean => inv_next hinv hclean
  apply everyStep_iff hkeep
  · exact fun _ _ hinv _ => right_iff hinv
  · exact start_inv f g
  · exact everyStep_of_forall (fun _ _ => trivial) _ _

def notFetched : Attempt := ⟨true, true, true, true, false, true, true, true, true, true, true, true, true⟩

/-- The basic part stays in the context after its release, and `onesdk_deinit` uses it. -/
theorem notFetched_dangles :
    ¬EveryStep (cycles ⟨true, true, true⟩) (Right ⟨true, true, true⟩) ⟨start ⟨true, false, some false⟩, false⟩
        [.init notFetched, .deinit] ∧
      ((onesdkInit ⟨true, true, true⟩ notFetched (start ⟨true, false, some false⟩)).bind
        fun r => onesdkDeinit ⟨true, true, true⟩ r.2 false).isNone := by
  refine ⟨?_, by decide⟩
  rintro ⟨hinit, -⟩
  have hclean := (right_iff (start_inv _ _)).mp hinit
  exact absurd (hclean.2.1 rfl).2 (by decide)

end OneSdk.SdkCycles
