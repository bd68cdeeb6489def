import Mathlib.Logic.Function.Basic
import Mathlib.Logic.Nontrivial.Basic

namespace OneSdk

/-- A computation over local variables that are not initialised. It is given what each of
them holds by chance, and tells what it has read of them. -/
def Leftovers {K : Type} (V : K → Type) (α : Type) := ((k : K) → V k) → List (Sigma V) × α

end OneSdk

namespace OneSdk.Leftovers

variable {K : Type} {V : K → Type} {α β : Type}

instance : Monad (Leftovers V) where
  pure a := fun _ => ([], a)
  bind m f := fun left => ((m left).1 ++ (f (m left).2 left).1, (f (m left).2 left).2)

theorem map_id (m : Leftovers V α) : id <$> m = m := by
  funext left
  exact Prod.ext (List.append_nil _) rfl

theorem bind_assoc {γ : Type} (m : Leftovers V α) (f : α → Leftovers V β) (g : β → Leftovers V γ) :
    m >>= f >>= g = m >>= fun a => f a >>= g := by
  funext left
  exact Prod.ext (List.append_assoc ..) rfl

instance : LawfulMonad (Leftovers V) := LawfulMonad.mk' (Leftovers V) map_id (fun _ _ => rfl) bind_assoc

/-- A variable is read, after something has been stored in it or nothing has. -/
def read (k : K) (stored : Option (V k)) : Leftovers V (V k) :=
  fun left => ([⟨k, stored.getD (left k)⟩], stored.getD (left k))

/-- Whatever the variables hold, all is as if they held certain values. -/
def Settled (fixed : (k : K) → V k) (m : Leftovers V α) : Prop := ∀ left, m left = m fixed

variable {fixed : (k : K) → V k} {k : K}

theorem settled_pure (a : α) : Settled fixed (pure a : Leftovers V α) := fun _ => rfl

theorem read_bind (stored : Option (V k)) (f : V k → Leftovers V β) (left : (k : K) → V k) :
    (read k stored >>= f) left =
      (⟨k, stored.getD (left k)⟩ :: (f (stored.getD (left k)) left).1, (f (stored.getD (left k)) left).2) := rfl

theorem settled_read_bind [Nontrivial (V k)] {stored : Option (V k)} {f : V k → Leftovers V β} :
    Settled fixed (read k stored >>= f) ↔ ∃ v, stored = some v ∧ Settled fixed (f v) := by
  classical
  cases stored with
  | none =>
      refine iff_of_false (fun h => ?_) (fun ⟨v, hv, _⟩ => nomatch hv)
      obtain ⟨v, hv⟩ := exists_ne (fixed k)
      have hleft := congrArg (fun r => r.1.head?) (h (Function.update fixed k v))
      simp only [read_bind, Option.getD_none, List.head?_cons, Option.some.injEq, Function.update_self, Sigma.mk.injEq,
        heq_eq_eq, true_and] at hleft
      exact hv hleft
  | some v =>
      simp only [Settled, read_bind, Option.getD_some, Prod.mk.injEq, List.cons.injEq, true_and, Option.some.injEq,
        exists_eq_left']
      refine forall_congr' fun left => ?_
      rw [Prod.ext_iff]

theorem settled_ite {c : Prop} [Decidable c] {m m' : Leftovers V α} :
    Settled fixed (if c then m else m') ↔ (c → Settled fixed m) ∧ (¬c → Settled fixed m') := by
  by_cases h : c
  · simp [h]
  · simp [h]

end OneSdk.Leftovers
