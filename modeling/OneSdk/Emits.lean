import Mathlib.Data.List.Basic

namespace OneSdk

/-- A computation with what it emits on the way. It ends in a value or in a fault. -/
structure Emits (O α : Type) where
  out : List O
  next : Option α

end OneSdk

namespace OneSdk.Emits

variable {O α β : Type}

instance : Monad (Emits O) where
  pure a := ⟨[], some a⟩
  bind r f :=
    match r.next with
    | none => ⟨r.out, none⟩
    | some a => ⟨r.out ++ (f a).out, (f a).next⟩

def emit (o : O) : Emits O Unit := ⟨[o], some ()⟩

def emitIf (c : Bool) (o : O) : Emits O Unit := if c then emit o else pure ()

def fault : Emits O α := ⟨[], none⟩

@[simp] theorem pure_def (a : α) : (pure a : Emits O α) = ⟨[], some a⟩ := rfl

@[simp] theorem bind_none (o : List O) (f : α → Emits O β) : ((⟨o, none⟩ : Emits O α) >>= f) = ⟨o, none⟩ := rfl

@[simp] theorem bind_some (o : List O) (a : α) (f : α → Emits O β) :
    ((⟨o, some a⟩ : Emits O α) >>= f) = ⟨o ++ (f a).out, (f a).next⟩ := rfl

theorem bind_of_none {r : Emits O α} (h : r.next = none) (f : α → Emits O β) : r >>= f = ⟨r.out, none⟩ := by
  obtain ⟨o, next⟩ := r
  obtain rfl : next = none := h
  rfl

theorem bind_of_some {r : Emits O α} {a : α} (h : r.next = some a) (f : α → Emits O β) :
    r >>= f = ⟨r.out ++ (f a).out, (f a).next⟩ := by
  obtain ⟨o, next⟩ := r
  obtain rfl : next = some a := h
  rfl

theorem bind_next (r : Emits O α) (f : α → Emits O β) : (r >>= f).next = r.next.bind (fun a => (f a).next) := by
  obtain ⟨o, next⟩ := r
  cases next <;> rfl

theorem map_id (r : Emits O α) : id <$> r = r := by
  obtain ⟨o, next⟩ := r
  cases next with
  | none => rfl
  | some a => exact congrArg (Emits.mk · (some a)) (List.append_nil o)

theorem bind_assoc {γ : Type} (r : Emits O α) (f : α → Emits O β) (g : β → Emits O γ) :
    r >>= f >>= g = r >>= fun a => f a >>= g := by
  obtain ⟨o, next⟩ := r
  cases next with
  | none => rfl
  | some a =>
      rw [bind_some, bind_some]
      generalize f a = r'
      obtain ⟨o', next'⟩ := r'
      cases next' with
      | none => rfl
      | some b => exact congrArg (Emits.mk · (g b).next) (List.append_assoc o o' _)

instance : LawfulMonad (Emits O) := LawfulMonad.mk' (Emits O) map_id (fun _ _ => rfl) bind_assoc

def AllOut (P : O → Prop) (r : Emits O α) : Prop := ∀ o ∈ r.out, P o

variable {P : O → Prop}

instance [DecidablePred P] (r : Emits O α) : Decidable (AllOut P r) := inferInstanceAs (Decidable (∀ o ∈ r.out, P o))

theorem allOut_pure (a : α) : AllOut P (pure a : Emits O α) := by simp [AllOut]

theorem allOut_fault : AllOut P (fault : Emits O α) := by simp [AllOut, fault]

theorem allOut_emit {o : O} (h : P o) : AllOut P (emit o) := by simpa [AllOut, emit] using h

theorem allOut_emitIf {c : Bool} {o : O} (h : P o) : AllOut P (emitIf c o) := by
  rw [emitIf]
  split
  · exact allOut_emit h
  · exact allOut_pure _

theorem allOut_bind_iff {r : Emits O α} {f : α → Emits O β} :
    AllOut P (r >>= f) ↔ AllOut P r ∧ ∀ a, r.next = some a → AllOut P (f a) := by
  obtain ⟨o, next⟩ := r
  cases next with
  | none => simp [AllOut]
  | some a => simp [AllOut, or_imp, forall_and]

theorem allOut_bind {r : Emits O α} {f : α → Emits O β} (hr : AllOut P r) (hf : ∀ a, AllOut P (f a)) :
    AllOut P (r >>= f) := allOut_bind_iff.mpr ⟨hr, fun a _ => hf a⟩

end OneSdk.Emits
