import Mathlib.Logic.Function.Basic

namespace OneSdk.Mutexes

variable {X T : Type} [DecidableEq X] [DecidableEq T]

abbrev Holders (X T : Type) := X → Option T

def acquire (h : Holders X T) (m : X) (t : T) : Holders X T := Function.update h m (some t)

def release (h : Holders X T) (m : X) : Holders X T := Function.update h m none

/-- How often a thread holds a mutex that is not recursive. -/
def holding (h : Holders X T) (m : X) (t : T) : Int := if h m = some t then 1 else 0

variable {h : Holders X T} {m n : X} {t u : T}

omit [DecidableEq X] in
theorem holding_nonneg : 0 ≤ holding h m t := by
  rw [holding]
  split <;> decide

omit [DecidableEq X] in
theorem holding_free (hm : h m = none) : holding h m t = 0 := by
  rw [holding, hm, if_neg (Option.some_ne_none t).symm]

theorem holding_acquire (hm : h m = none) :
    holding (acquire h m t) n u = holding h n u + if m = n ∧ t = u then 1 else 0 := by
  by_cases hmn : m = n
  · subst hmn
    rw [holding_free hm, holding, acquire, Function.update_self]
    by_cases htu : t = u
    · simp [htu]
    · simp [htu]
  · have hno : ¬(m = n ∧ t = u) := fun hand => hmn hand.1
    rw [if_neg hno, Int.add_zero, holding, holding, acquire, Function.update_of_ne (Ne.symm hmn)]

theorem holding_release (hm : h m = some t) :
    holding (release h m) n u = holding h n u - if m = n ∧ t = u then 1 else 0 := by
  by_cases hmn : m = n
  · subst hmn
    rw [holding, holding, release, Function.update_self, hm]
    by_cases htu : t = u
    · simp [htu]
    · simp [htu]
  · have hno : ¬(m = n ∧ t = u) := fun hand => hmn hand.1
    rw [if_neg hno, Int.sub_zero, holding, holding, release, Function.update_of_ne (Ne.symm hmn)]

end OneSdk.Mutexes
