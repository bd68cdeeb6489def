import Mathlib.Data.List.Basic

namespace OneSdk.SendQueue

variable {α : Type} {n : Nat}

structure Fifo (α : Type) (n : Nat) where
  items : List α
  bounded : items.length ≤ n

namespace Fifo

def empty : Fifo α n := ⟨[], Nat.zero_le n⟩

def insert (q : Fifo α n) (x : α) : Nat × Fifo α n :=
  if h : q.items.length < n then (1, ⟨q.items ++ [x], by rw [List.length_append]; exact h⟩) else (0, q)

def element (q : Fifo α n) : Option α := q.items.head?

def consume (q : Fifo α n) : Fifo α n :=
  ⟨q.items.tail, by rw [List.length_tail]; exact Nat.le_trans (Nat.sub_le _ _) q.bounded⟩

theorem insert_items (q : Fifo α n) (x : α) :
    (q.insert x).2.items = if q.items.length < n then q.items ++ [x] else q.items := by
  rw [insert]
  split <;> rfl

end Fifo

/-- A queue between those who hand elements in and those who take them out, with what has
been accepted and what has arrived so far. -/
structure Ledger (α : Type) (n : Nat) where
  queue : Fifo α n
  accepted : List α
  arrived : List α

/-- An element is accepted; the first one leaves, and arrives or not; or neither. -/
inductive Op (α : Type) where
  | push (x : α)
  | pop (arrives : Bool)
  | idle
  deriving DecidableEq

def next (s : Ledger α n) : Op α → Ledger α n
  | .push x => { s with queue := (s.queue.insert x).2, accepted := s.accepted ++ [x] }
  | .pop arrives => { s with
      queue := s.queue.consume
      arrived := s.arrived ++ if arrives then s.queue.element.toList else [] }
  | .idle => s

def Kept (s : Ledger α n) : Prop := s.accepted = s.arrived ++ s.queue.items

/-- Nothing is accepted by a full queue, and what leaves the queue arrives. -/
def Careful (s : Ledger α n) : Op α → Prop
  | .push _ => s.queue.items.length < n
  | .pop arrives => s.queue.items ≠ [] → arrives = true
  | .idle => True

variable {s : Ledger α n}

theorem kept_push (h : Kept s) (x : α) : Kept (next s (.push x)) ↔ s.queue.items.length < n := by
  change s.accepted ++ [x] = s.arrived ++ (s.queue.insert x).2.items ↔ _
  rw [Fifo.insert_items, h]
  split
  next hroom => exact iff_of_true (List.append_assoc ..) hroom
  next hfull =>
    refine iff_of_false (fun he => ?_) hfull
    have hlen := congrArg List.length he
    rw [List.length_append, List.length_singleton] at hlen
    omega

theorem kept_pop (h : Kept s) (arrives : Bool) :
    Kept (next s (.pop arrives)) ↔ (s.queue.items ≠ [] → arrives = true) := by
  change s.accepted = (s.arrived ++ if arrives then s.queue.items.head?.toList else []) ++ s.queue.items.tail ↔ _
  rw [h]
  cases s.queue.items with
  | nil => simp
  | cons x items =>
      cases arrives with
      | true => exact iff_of_true (by simp) (fun _ => rfl)
      | false =>
          refine iff_of_false (fun he => ?_) (fun hall => nomatch hall (List.cons_ne_nil _ _))
          have hlen := congrArg List.length he
          simp at hlen

theorem next_kept_iff (h : Kept s) (op : Op α) : Kept (next s op) ↔ Careful s op := by
  cases op with
  | push x => exact kept_push h x
  | pop arrives => exact kept_pop h arrives
  | idle => exact iff_of_true h trivial

end OneSdk.SendQueue
