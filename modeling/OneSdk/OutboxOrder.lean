import OneSdk.Outbox

namespace OneSdk.OutboxOrder

open DeliveryQueue Runs Outbox

section Lists

variable {α β : Type} {l q r : List α} {x y : α}

theorem before_of_sublist (hl : l.Nodup) (hq : q.Sublist l) (hxy : [x, y].Sublist l) (hx : x ∈ q) (hy : y ∈ q) :
    [x, y].Sublist q := by
  induction hq with
  | slnil => simp at hx
  | cons a hq ih =>
      obtain ⟨ha, hl⟩ := List.nodup_cons.mp hl
      rcases List.sublist_cons_iff.mp hxy with h | ⟨t, ht, -⟩
      · exact ih hl h hx hy
      · obtain ⟨rfl, rfl⟩ := List.cons_eq_cons.mp ht
        exact absurd (hq.subset hx) ha
  | cons_cons a hq ih =>
      obtain ⟨ha, hl⟩ := List.nodup_cons.mp hl
      rcases List.sublist_cons_iff.mp hxy with h | ⟨t, ht, hsub⟩
      · have hxl : x ∈ _ := h.subset (by simp)
        have hyl : y ∈ _ := h.subset (by simp)
        have hx : x ∈ _ := (List.mem_cons.mp hx).resolve_left (fun he => ha (he ▸ hxl))
        have hy : y ∈ _ := (List.mem_cons.mp hy).resolve_left (fun he => ha (he ▸ hyl))
        exact (ih hl h hx hy).cons a
      · obtain ⟨rfl, rfl⟩ := List.cons_eq_cons.mp ht
        have hyl : y ∈ _ := hsub.subset (by simp)
        have hy : y ∈ _ := (List.mem_cons.mp hy).resolve_left (fun he => ha (he ▸ hyl))
        exact (List.singleton_sublist.mpr hy).cons_cons x

theorem before_in_prefix (hl : l.Nodup) (hq : q <+: l) (hxy : [x, y].Sublist l) (hy : y ∈ q) : [x, y].Sublist q := by
  refine before_of_sublist hl hq.sublist hxy ?_ hy
  obtain ⟨r, rfl⟩ := hq
  obtain ⟨a, b, hab, ha, hb⟩ := List.sublist_append_iff.mp hxy
  have hdisj := (List.nodup_append.mp hl).2.2
  cases a with
  | nil =>
      obtain rfl : [x, y] = b := hab
      exact absurd rfl (hdisj y hy y (hb.subset (by simp)))
  | cons z a =>
      obtain ⟨rfl, -⟩ := List.cons_eq_cons.mp hab
      exact ha.subset (by simp)

theorem before_of_map {l : List (α × β)} (h : [x, y].Sublist (l.map Prod.fst)) :
    ∃ b c, [(x, b), (y, c)].Sublist l := by
  obtain ⟨p, hp, he⟩ := List.sublist_map_iff.mp h
  match p, he with
  | [(_, b), (_, c)], rfl => exact ⟨b, c, hp⟩

end Lists

variable {M : Type} [DecidableEq M] (service : M → Service)

def attempts (s : State M) : Op M → List (Slot M)
  | .write ok => if s.waiting then [] else (sendPass service ok 0 s.queue).2.2
  | _ => []

/-- The queue holds, in the order of acceptance, every message that has yet to be
handed over. -/
structure Queued (s : State M) : Prop where
  nodup : s.accepted.Nodup
  order : (s.queue.map Prod.fst).Sublist s.accepted
  fresh : ∀ m, (m, false) ∈ s.queue → m ∉ s.handed
  pending : ∀ m ∈ s.accepted, service m ≠ .never → m ∈ s.handed ∨ (m, false) ∈ s.queue
  known : ∀ m ∈ s.handed, m ∈ s.accepted

variable {service} {s : State M} {o : Op M} {ok : Nat → Bool}

omit [DecidableEq M] in
theorem mem_taken {a : List (Slot M)} {m : M} : m ∈ taken a ↔ (m, true) ∈ a := by
  simp [taken]

omit [DecidableEq M] in
theorem Queued.queue_nodup (h : Queued service s) : (s.queue.map Prod.fst).Nodup := h.order.nodup h.nodup

theorem Queued.accept (h : Queued service s) {m : M} (hm : m ∉ s.accepted) :
    Queued service (next service s (.accept m)) where
  nodup := by
    rw [next, List.nodup_append]
    refine ⟨h.nodup, List.nodup_singleton m, ?_⟩
    intro x hx y hy he
    obtain rfl : y = m := by simpa using hy
    exact hm (he ▸ hx)
  order := by
    rw [next, List.map_append]
    exact h.order.append (List.Sublist.refl [m])
  fresh n hn := by
    simp only [next, List.mem_append, List.mem_singleton, Prod.mk.injEq] at hn ⊢
    rcases hn with hn | ⟨rfl, -⟩
    · exact h.fresh n hn
    · exact fun hh => hm (h.known n hh)
  pending n hn hs := by
    simp only [next, List.mem_append, List.mem_singleton] at hn ⊢
    rcases hn with hn | rfl
    · exact (h.pending n hn hs).imp id .inl
    · exact .inr (.inr (by simp))
  known n hn := List.mem_append.mpr (.inl (h.known n hn))

omit [DecidableEq M] in
theorem Queued.write (h : Queued service s) : Queued service (write service s ok) := by
  have hp := pass_passes service ok 0 s.queue
  refine ⟨h.nodup, ?_, ?_, ?_, ?_⟩
  · have hsub := (List.filter_sublist (p := fun e : Slot M => !(e.2 && service e.1 = .once))
      (l := (sendPass service ok 0 s.queue).1)).map Prod.fst
    exact hsub.trans (hp.messages ▸ h.order)
  · intro m hm
    obtain ⟨hr, -⟩ := mem_settle.mp hm
    have hq : (m, false) ∈ s.queue := (hp.mem_after hr).resolve_right (by simp)
    rw [Outbox.write, List.mem_append, not_or, mem_taken]
    exact ⟨h.fresh m hq, hp.unsent_not_taken h.queue_nodup hr⟩
  · intro m hm hs
    rw [Outbox.write, List.mem_append, mem_taken, mem_settle]
    rcases h.pending m hm hs with hh | hq
    · exact .inl (.inl hh)
    · rcases hp.mem_before hq with hr | ha
      · exact .inr ⟨hr, by simp⟩
      · exact .inl (.inr ha)
  · intro m hm
    rcases List.mem_append.mp hm with hm | hm
    · exact h.known m hm
    · have hq := hp.attempt_mem (mem_taken.mp hm)
      exact h.order.subset (List.mem_map_of_mem hq)

theorem Queued.ack (h : Queued service s) (m : M) : Queued service (next service s (.ack m)) := by
  rw [next]
  split
  · refine ⟨h.nodup, ((acknowledge_sublist s.queue).map Prod.fst).trans h.order, ?_, ?_, h.known⟩
    · exact fun n hn => h.fresh n ((acknowledge_sublist s.queue).subset hn)
    · intro n hn hs
      refine (h.pending n hn hs).imp id ?_
      intro hq
      exact (List.mem_eraseP_of_neg (by simp)).mpr hq
  · exact ⟨h.nodup, h.order, h.fresh, h.pending, h.known⟩

theorem Queued.next (h : Queued service s) (he : enabled s o) : Queued service (next service s o) := by
  cases o with
  | accept m => exact h.accept he
  | write ok =>
      rw [Outbox.next]
      split
      · exact h
      · exact h.write
  | ack m => exact h.ack m
  | renew => exact ⟨h.nodup, h.order, h.fresh, h.pending, h.known⟩
  | idle => exact h

variable (service) in
/-- Whatever is handed over first in this step, an older message of the same service
went before it, unless the link refused that one earlier in the same pass. -/
def OlderFirst (s : State M) (o : Op M) : Prop :=
  ∀ x y, [x, y].Sublist s.accepted → service x = service y → y ∉ s.handed → y ∈ (Outbox.next service s o).handed →
    [x, y].Sublist (Outbox.next service s o).handed ∨ [(x, false), (y, true)].Sublist (attempts service s o)

theorem Queued.olderFirst (h : Queued service s) : OlderFirst service s o := by
  intro x y hxy hserv hy hy'
  cases o with
  | accept m | ack m | renew | idle => exact absurd hy' hy
  | write ok =>
      rw [Outbox.next] at hy' ⊢
      rw [attempts]
      split at hy'
      next => exact absurd hy' hy
      next hw =>
        rw [if_neg hw, if_neg hw]
        have hp := pass_passes service ok 0 s.queue
        have hya : (y, true) ∈ (sendPass service ok 0 s.queue).2.2 :=
          mem_taken.mp ((List.mem_append.mp hy').resolve_left hy)
        have htried := hp.attempts
        have hsub := eligible_sublist service s.queue
        have hye := htried.subset (List.mem_map_of_mem hya)
        have hxs : service x ≠ .never := hserv ▸ (mem_eligible.mp hye).2
        rcases h.pending x (hxy.subset (by simp)) hxs with hxh | hxq
        · refine .inl (List.Sublist.append (List.singleton_sublist.mpr hxh) (List.singleton_sublist.mpr ?_))
          exact mem_taken.mpr hya
        · have helig := before_of_sublist h.nodup (hsub.trans h.order) hxy (mem_eligible.mpr ⟨hxq, hxs⟩) hye
          have htry := before_in_prefix (hsub.nodup h.queue_nodup) htried helig (List.mem_map_of_mem hya)
          obtain ⟨b, c, hbc⟩ := before_of_map htry
          have hyc : (y, c) ∈ (sendPass service ok 0 s.queue).2.2 := hbc.subset (by simp)
          have hnodup := htried.sublist.nodup (hsub.nodup h.queue_nodup)
          obtain rfl : c = true := by simpa using List.inj_on_of_nodup_map hnodup hyc hya rfl
          cases b with
          | false => exact .inr hbc
          | true =>
              refine .inl (List.Sublist.trans ?_ (List.sublist_append_right s.handed _))
              exact (hbc.filter Prod.snd).map Prod.fst

theorem olderFirst_run (h : Queued service s) {os : List (Op M)} (hl : Legal (outbox service) s os) :
    EveryStep (outbox service) (OlderFirst service) s os :=
  everyStep_of_legal (fun _ _ hs he => hs.next he) (fun _ _ hs _ => hs.olderFirst) h hl

end OneSdk.OutboxOrder
