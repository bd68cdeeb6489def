import OneSdk.OutboxOrder

namespace OneSdk.OutboxMarks

open DeliveryQueue Runs Outbox OutboxOrder

variable {M : Type} [DecidableEq M] (service : M → Service)

/-- What a mark in the queue stands for, on a link however often renewed, and that
the window of the present link is what the sender waits for. -/
structure Marked (s : State M) : Prop where
  taken : ∀ m, (m, true) ∈ s.queue → m ∈ s.handed
  settled : ∀ m, (m, true) ∈ s.queue → service m ≠ .once
  window : s.inflight.length = s.waiting.toNat

variable {service} {s : State M} {o : Op M} {ok : Nat → Bool}

omit [DecidableEq M] in
theorem Marked.accept (h : Marked service s) (m : M) :
    Marked service { s with queue := s.queue ++ [(m, false)], accepted := s.accepted ++ [m] } where
  taken n hn := h.taken n (by simpa using hn)
  settled n hn := h.settled n (by simpa using hn)
  window := h.window

omit [DecidableEq M] in
theorem Marked.write (h : Marked service s) (hw : s.waiting = false) : Marked service (write service s ok) := by
  have hp := pass_passes service ok 0 s.queue
  refine ⟨?_, ?_, ?_⟩
  · intro m hm
    obtain ⟨hr, -⟩ := mem_settle.mp hm
    rw [Outbox.write, List.mem_append, mem_taken]
    rcases hp.mem_after hr with hq | ⟨-, ha⟩
    · exact .inl (h.taken m hq)
    · exact .inr ha
  · intro m hm
    exact (mem_settle.mp hm).2 rfl
  · have hempty : s.inflight.length = 0 := by rw [h.window, hw]; rfl
    rw [Outbox.write, List.length_append, filter_taken, List.length_map, hempty, Nat.zero_add]
    rcases hp.awaited with ⟨hf, ha⟩ | ⟨hf, m, -, ha⟩
    · rw [hf, ha]; rfl
    · rw [hf, ha]; rfl

theorem Marked.ack (h : Marked service s) {m : M} (hm : m ∈ s.inflight) :
    Marked service (next service s (.ack m)) := by
  have hsub : (next service s (.ack m)).queue.Sublist s.queue := by
    rw [next]
    split
    · exact acknowledge_sublist s.queue
    · exact List.Sublist.refl s.queue
  have hone : s.inflight.length ≤ 1 := by
    rw [h.window]
    exact Bool.toNat_le s.waiting
  refine ⟨fun n hn => h.taken n (hsub.subset hn), fun n hn => h.settled n (hsub.subset hn), ?_⟩
  have hl := List.length_erase_of_mem hm
  simp only [next, Bool.toNat_false]
  omega

theorem Marked.next (h : Marked service s) (he : enabled s o) : Marked service (next service s o) := by
  cases o with
  | accept m => exact h.accept m
  | write ok =>
      rw [Outbox.next]
      split
      · exact h
      next hw => exact h.write (by simpa using hw)
  | ack m => exact h.ack he
  | renew => exact ⟨h.taken, h.settled, rfl⟩
  | idle => exact h

variable (service) in
theorem length_next (s : State M) (o : Op M) :
    (next service s o).queue.length ≤ s.queue.length ∨ ∃ m, o = .accept m ∧
      (next service s o).queue.length = s.queue.length + 1 := by
  cases o with
  | accept m => exact .inr ⟨m, rfl, by simp [next]⟩
  | write ok =>
      refine .inl ?_
      rw [next]
      split
      · exact Nat.le_refl _
      · have hm := congrArg List.length (pass_passes service ok 0 s.queue).messages
        rw [List.length_map, List.length_map] at hm
        exact hm ▸ List.length_filter_le _ _
  | ack m =>
      refine .inl ?_
      rw [next]
      split
      · exact (acknowledge_sublist s.queue).length_le
      · exact Nat.le_refl _
  | renew | idle => exact .inl (Nat.le_refl _)

end OneSdk.OutboxMarks
