import OneSdk.DeliveryQueue
import OneSdk.Runs
import Mathlib.Data.List.Nodup

namespace OneSdk.Outbox

open DeliveryQueue Runs

/-- A sender over a link that can be lost: its queue, whether it holds back for an
acknowledgement, the messages that the present link has yet to acknowledge, and what
has been accepted, handed over and acknowledged so far. -/
structure State (M : Type) where
  queue : List (Slot M)
  waiting : Bool
  inflight : List M
  accepted : List M
  handed : List M
  acked : List M

inductive Op (M : Type)
  | accept (m : M)
  | write (ok : Nat → Bool)
  | ack (m : M)
  | renew
  | idle

section Slots

variable {M : Type} {service : M → Service}

def taken (attempts : List (Slot M)) : List M := (attempts.filter Prod.snd).map Prod.fst

theorem mem_settle {q : List (Slot M)} {m : M} {b : Bool} :
    (m, b) ∈ settle service q ↔ (m, b) ∈ q ∧ (b = true → service m ≠ .once) := by
  cases b <;> simp [settle]

theorem unsent_of_filter {q : List (Slot M)} (h : q.filter Prod.snd = []) : unsent q := by
  intro e he
  simpa using List.filter_eq_nil_iff.mp h e he

theorem filter_taken (a : List (Slot M)) :
    (taken a).filter (fun m => service m = .acked) =
      (a.filter (fun e => e.2 && service e.1 = .acked)).map Prod.fst := by
  rw [taken, List.filter_map, List.filter_filter]
  congr 2
  funext e
  simp [Bool.and_comm]

theorem mem_acknowledge {q : List (Slot M)} {m : M} (hm : service m = .acked)
    (hq : q.filter Prod.snd = [(m, true)]) (e : Slot M) :
    e ∈ acknowledge service q ↔ e ∈ q ∧ e ≠ (m, true) := by
  induction q with
  | nil => simp at hq
  | cons x q ih =>
      obtain ⟨n, sent⟩ := x
      cases sent with
      | false =>
          have hi := ih (by simpa using hq)
          have hne : (n, false) ≠ (m, true) := by simp
          rw [acknowledge] at hi ⊢
          simp only [List.eraseP_cons, Bool.false_and, cond_false, List.mem_cons, hi]
          constructor
          · rintro (rfl | ⟨h, hx⟩)
            · exact ⟨.inl rfl, hne⟩
            · exact ⟨.inr h, hx⟩
          · rintro ⟨rfl | h, hx⟩
            · exact .inl rfl
            · exact .inr ⟨h, hx⟩
      | true =>
          obtain ⟨rfl, htail⟩ : n = m ∧ q.filter Prod.snd = [] := by simpa using hq
          have hu := unsent_of_filter htail
          have hhead : acknowledge service ((n, true) :: q) = q := by simp [acknowledge, hm]
          rw [hhead]
          constructor
          · intro h
            refine ⟨List.mem_cons_of_mem _ h, ?_⟩
            rintro rfl
            simpa using hu _ h
          · rintro ⟨h, hx⟩
            exact (List.mem_cons.mp h).resolve_left hx

theorem acknowledge_sublist (q : List (Slot M)) : (acknowledge service q).Sublist q := List.eraseP_sublist

end Slots

variable {M : Type} [DecidableEq M] (service : M → Service)

def write (s : State M) (ok : Nat → Bool) : State M :=
  let r := sendPass service ok 0 s.queue
  { s with
    queue := settle service r.1
    waiting := r.2.1
    inflight := s.inflight ++ (taken r.2.2).filter (fun m => service m = .acked)
    handed := s.handed ++ taken r.2.2 }

def next (s : State M) : Op M → State M
  | .accept m => { s with queue := s.queue ++ [(m, false)], accepted := s.accepted ++ [m] }
  | .write ok => if s.waiting then s else write service s ok
  | .ack m =>
      { s with
        queue := if s.waiting then acknowledge service s.queue else s.queue
        waiting := false
        inflight := s.inflight.erase m
        acked := s.acked ++ [m] }
  | .renew => { s with waiting := false, inflight := [] }
  | .idle => s

def enabled (s : State M) : Op M → Prop
  | .accept m => m ∉ s.accepted
  | .ack m => m ∈ s.inflight
  | _ => True

def outbox : Machine (State M) (Op M) := ⟨enabled, next service⟩

/-- The queue holds exactly what is owed: accepted messages, each once, among them
every unacknowledged one of the acknowledged service; and the one message handed over
and still queued is the one that the link has to acknowledge. -/
structure Tracked (s : State M) : Prop where
  nodup : (s.queue.map Prod.fst).Nodup
  owed : ∀ m b, (m, b) ∈ s.queue → m ∈ s.accepted ∧ m ∉ s.acked
  kept : ∀ m ∈ s.accepted, service m = .acked → m ∉ s.acked → ∃ b, (m, b) ∈ s.queue
  known : ∀ m ∈ s.acked, m ∈ s.accepted
  awaited : ∃ o : Option M, s.queue.filter Prod.snd = o.toList.map (fun m => (m, true)) ∧
    s.waiting = o.isSome ∧ s.inflight = o.toList ∧ ∀ m ∈ o, service m = .acked

variable {service} {s : State M} {ok : Nat → Bool}

omit [DecidableEq M] in
theorem Tracked.unsent (h : Tracked service s) (hw : s.waiting = false) : unsent s.queue := by
  obtain ⟨o, ho, hwait, -, -⟩ := h.awaited
  cases o with
  | none => exact unsent_of_filter ho
  | some m => simp [hw] at hwait

theorem Tracked.accept (h : Tracked service s) {m : M} (hm : m ∉ s.accepted) :
    Tracked service (next service s (.accept m)) where
  nodup := by
    have hnew : m ∉ s.queue.map Prod.fst := by
      intro hmem
      obtain ⟨⟨n, b⟩, hq, rfl⟩ := List.mem_map.mp hmem
      exact hm (h.owed n b hq).1
    rw [next, List.map_append, List.nodup_append]
    refine ⟨h.nodup, List.nodup_singleton m, ?_⟩
    intro x hx y hy he
    obtain rfl : y = m := by simpa using hy
    exact hnew (he ▸ hx)
  owed n b hq := by
    simp only [next, List.mem_append, List.mem_singleton, Prod.mk.injEq] at hq ⊢
    rcases hq with hq | ⟨rfl, rfl⟩
    · exact ⟨.inl (h.owed n b hq).1, (h.owed n b hq).2⟩
    · exact ⟨.inr rfl, fun ha => hm (h.known _ ha)⟩
  kept n hn hs ha := by
    simp only [next, List.mem_append, List.mem_singleton] at hn ⊢
    rcases hn with hn | rfl
    · obtain ⟨b, hb⟩ := h.kept n hn hs ha
      exact ⟨b, .inl hb⟩
    · exact ⟨false, .inr rfl⟩
  known n hn := List.mem_append.mpr (.inl (h.known n hn))
  awaited := by
    obtain ⟨o, ho, hrest⟩ := h.awaited
    exact ⟨o, by simpa [next] using ho, hrest⟩

omit [DecidableEq M] in
theorem Tracked.write (h : Tracked service s) (hw : s.waiting = false) :
    Tracked service (write service s ok) := by
  have hp := pass_passes service ok 0 s.queue
  have hu := h.unsent hw
  have hin : s.inflight = [] := by
    obtain ⟨o, -, hwait, hi, -⟩ := h.awaited
    cases o with
    | none => exact hi
    | some m => simp [hw] at hwait
  refine ⟨?_, ?_, ?_, h.known, ?_⟩
  · have hsub := (List.filter_sublist (p := fun e : Slot M => !(e.2 && service e.1 = .once))
      (l := (sendPass service ok 0 s.queue).1)).map Prod.fst
    exact hsub.nodup (hp.messages ▸ h.nodup)
  · intro m b hm
    have hr := List.mem_map_of_mem (f := Prod.fst) (mem_settle.mp hm).1
    rw [hp.messages] at hr
    obtain ⟨⟨n, c⟩, hq, rfl⟩ := List.mem_map.mp hr
    exact h.owed n c hq
  · intro m hm hs ha
    obtain ⟨b, hb⟩ := h.kept m hm hs ha
    have hr := List.mem_map_of_mem (f := Prod.fst) hb
    rw [← hp.messages] at hr
    obtain ⟨⟨n, c⟩, hq, rfl⟩ := List.mem_map.mp hr
    exact ⟨c, mem_settle.mpr ⟨hq, by simp [hs]⟩⟩
  · have hset := hp.settled hu
    rcases hp.awaited with ⟨hf, ha⟩ | ⟨hf, m, hm, ha⟩
    · refine ⟨none, ?_, hf, ?_, by simp⟩
      · exact hset.trans ha
      · simp only [Outbox.write, hin, filter_taken, ha]; rfl
    · refine ⟨some m, ?_, hf, ?_, by simpa using hm⟩
      · exact hset.trans ha
      · simp only [Outbox.write, hin, filter_taken, ha]; rfl

theorem Tracked.ack (h : Tracked service s) {m : M} (hm : m ∈ s.inflight) :
    Tracked service (next service s (.ack m)) := by
  obtain ⟨o, ho, hwait, hi, hs⟩ := h.awaited
  obtain rfl : o = some m := by
    cases o with
    | none => simp [hi] at hm
    | some n => simp [hi] at hm; rw [hm]
  have hw : s.waiting = true := hwait
  have hq : s.queue.filter Prod.snd = [(m, true)] := ho
  have hmem := mem_acknowledge (hs m rfl) hq
  have hsent : (m, true) ∈ s.queue := List.mem_of_mem_filter (hq ▸ List.mem_singleton_self _)
  have honly (b : Bool) (hb : (m, b) ∈ s.queue) : b = true := by
    simpa using List.inj_on_of_nodup_map h.nodup hb hsent rfl
  simp only [next, hw, if_true]
  refine ⟨(acknowledge_sublist s.queue).map Prod.fst |>.nodup h.nodup, ?_, ?_, ?_, none, ?_, rfl, ?_, by simp⟩
  · intro n b hn
    obtain ⟨hold, hne⟩ := (hmem (n, b)).mp hn
    obtain ⟨hacc, hack⟩ := h.owed n b hold
    refine ⟨hacc, ?_⟩
    rw [List.mem_append, List.mem_singleton]
    rintro (ha | rfl)
    · exact hack ha
    · exact hne (Prod.ext rfl (honly b hold))
  · intro n hn hserv ha
    rw [List.mem_append, List.mem_singleton, not_or] at ha
    obtain ⟨b, hb⟩ := h.kept n hn hserv ha.1
    refine ⟨b, (hmem (n, b)).mpr ⟨hb, ?_⟩⟩
    intro he
    exact ha.2 (congrArg Prod.fst he)
  · intro n hn
    rcases List.mem_append.mp hn with hn | hn
    · exact h.known n hn
    · rw [List.mem_singleton.mp hn]
      exact (h.owed m true hsent).1
  · rw [Option.toList_none, List.map_nil, List.filter_eq_nil_iff]
    intro e he hsnd
    obtain ⟨he, hne⟩ := (hmem e).mp he
    have : e ∈ s.queue.filter Prod.snd := List.mem_filter.mpr ⟨he, hsnd⟩
    rw [hq, List.mem_singleton] at this
    exact hne this
  · simp [hi]

/-- No message of the acknowledged service is queued as handed over. -/
def Clean (service : M → Service) (s : State M) : Prop := ∀ m, (m, true) ∈ s.queue → service m ≠ .acked

theorem Tracked.renew (h : Tracked service s) (hc : Clean service s) :
    Tracked service (next service s .renew) := by
  obtain ⟨o, ho, -, -, hs⟩ := h.awaited
  refine ⟨h.nodup, h.owed, h.kept, h.known, none, ?_, rfl, rfl, by simp⟩
  cases o with
  | none => exact ho
  | some m =>
      have hq : s.queue.filter Prod.snd = [(m, true)] := ho
      have hsent : (m, true) ∈ s.queue := List.mem_of_mem_filter (hq ▸ List.mem_singleton_self _)
      exact absurd (hs m rfl) (hc m hsent)

variable (service)

def CleanRenewal (s : State M) (o : Op M) : Prop := o = .renew → Clean service s

/-- After the step every unacknowledged message of the acknowledged service is queued,
and on a new link it is queued to be handed over. -/
def Delivers (s : State M) (o : Op M) : Prop :=
  ∀ m ∈ (next service s o).accepted, service m = .acked → m ∉ (next service s o).acked →
    ∃ b, (m, b) ∈ (next service s o).queue ∧ (o = .renew → b = false)

variable {service} {o : Op M}

theorem Tracked.next (h : Tracked service s) (he : enabled s o) (hc : CleanRenewal service s o) :
    Tracked service (next service s o) := by
  cases o with
  | accept m => exact h.accept he
  | write ok =>
      rw [Outbox.next]
      split
      · exact h
      next hw => exact h.write (by simpa using hw)
  | ack m => exact h.ack he
  | renew => exact h.renew (hc rfl)
  | idle => exact h

theorem Tracked.delivers_iff (h : Tracked service s) (he : enabled s o) :
    Delivers service s o ↔ CleanRenewal service s o := by
  constructor
  · rintro hd rfl m hsent hs
    obtain ⟨hacc, hack⟩ := h.owed m true hsent
    obtain ⟨b, hb, hfalse⟩ := hd m hacc hs hack
    have hbt : (m, b) = (m, true) := List.inj_on_of_nodup_map h.nodup hb hsent rfl
    simp [hfalse rfl] at hbt
  · intro hc m hm hs ha
    have hn := h.next he hc
    obtain ⟨b, hb⟩ := hn.kept m hm hs ha
    refine ⟨b, hb, ?_⟩
    rintro rfl
    exact hn.unsent rfl (m, b) hb

/-- A run delivers at every step exactly when the queue is clean at every renewal. -/
theorem delivers_run_iff (h : Tracked service s) {os : List (Op M)} (hl : Legal (outbox service) s os) :
    EveryStep (outbox service) (Delivers service) s os ↔
      EveryStep (outbox service) (CleanRenewal service) s os :=
  everyStep_iff (fun _ _ hi he hc => hi.next he hc) (fun _ _ hi he => hi.delivers_iff he) h hl

section Accounts

variable (service)

/-- What the present link has yet to acknowledge is what has been handed over and not been
acknowledged at all. -/
def Accounted (s : State M) : Prop :=
  ∀ m, service m = .acked → (m ∈ s.inflight ↔ m ∈ s.handed ∧ m ∉ s.acked)

/-- A link is only renewed when all that was handed over has been acknowledged. -/
def AckedRenewal (s : State M) (o : Op M) : Prop :=
  o = .renew → ∀ m ∈ s.handed, service m = .acked → m ∈ s.acked

variable {service}

omit [DecidableEq M] in
theorem Tracked.sent_iff (h : Tracked service s) (m : M) : (m, true) ∈ s.queue ↔ m ∈ s.inflight := by
  obtain ⟨o, ho, -, hi, -⟩ := h.awaited
  have hfilter : (m, true) ∈ s.queue ↔ (m, true) ∈ s.queue.filter Prod.snd := by simp [List.mem_filter]
  rw [hfilter, ho, hi]
  simp

theorem Tracked.clean_iff (h : Tracked service s) (ha : Accounted service s) :
    CleanRenewal service s o ↔ AckedRenewal service s o := by
  refine imp_congr_right fun _ => ?_
  constructor
  · intro hc m hm hs
    by_contra hack
    exact hc m ((h.sent_iff m).mpr ((ha m hs).mpr ⟨hm, hack⟩)) hs
  · intro hacked m hm hs
    obtain ⟨hhanded, hack⟩ := (ha m hs).mp ((h.sent_iff m).mp hm)
    exact hack (hacked m hhanded hs)

omit [DecidableEq M] in
theorem Accounted.write (ha : Accounted service s) (h : Tracked service s) :
    Accounted service (write service s ok) := by
  intro m hs
  have hp := pass_passes service ok 0 s.queue
  have howed (hm : m ∈ taken (sendPass service ok 0 s.queue).2.2) : m ∉ s.acked := by
    obtain ⟨⟨n, b⟩, hn, rfl⟩ := List.mem_map.mp hm
    exact (h.owed n false (hp.attempt_mem (List.mem_filter.mp hn).1)).2
  simp only [Outbox.write, List.mem_append, List.mem_filter, decide_eq_true_eq, hs, and_true, ha m hs, or_and_right]
  exact or_congr_right (and_iff_left_of_imp howed).symm

theorem Accounted.next (ha : Accounted service s) (h : Tracked service s) (he : enabled s o)
    (hc : CleanRenewal service s o) : Accounted service (next service s o) := by
  cases o with
  | accept m => exact ha
  | write ok =>
      rw [Outbox.next]
      split
      · exact ha
      · exact ha.write h
  | ack n =>
      obtain ⟨o, -, -, hi, -⟩ := h.awaited
      intro m hs
      have hinflight : s.inflight = [n] := by
        cases o with
        | none =>
            have hn : n ∈ s.inflight := he
            simp [hi] at hn
        | some k =>
            have hn : n ∈ s.inflight := he
            rw [hi] at hn ⊢
            rw [List.mem_singleton.mp hn]
            rfl
      have hm := ha m hs
      rw [hinflight, List.mem_singleton] at hm
      simp only [Outbox.next, hinflight, List.erase_cons_head, List.mem_append, List.mem_singleton, not_or]
      refine iff_of_false List.not_mem_nil ?_
      rintro ⟨hhanded, hack, hne⟩
      exact hne (hm.mpr ⟨hhanded, hack⟩)
  | renew =>
      intro m hs
      refine iff_of_false List.not_mem_nil fun hm => ?_
      exact hc rfl m ((h.sent_iff m).mpr ((ha m hs).mpr hm)) hs
  | idle => exact ha

/-- The queue is clean at every renewal just when every message handed over has been
acknowledged by then. -/
theorem cleanRenewal_run_iff (h : Tracked service s) (ha : Accounted service s) {os : List (Op M)}
    (hl : Legal (outbox service) s os) :
    EveryStep (outbox service) (CleanRenewal service) s os ↔ EveryStep (outbox service) (AckedRenewal service) s os :=
  (everyStep_iff (I := fun s => Tracked service s ∧ Accounted service s)
    (fun _ _ hi he hc =>
      ⟨hi.1.next he ((hi.1.clean_iff hi.2).mpr hc), hi.2.next hi.1 he ((hi.1.clean_iff hi.2).mpr hc)⟩)
    (fun _ _ hi _ => hi.1.clean_iff hi.2) ⟨h, ha⟩ hl)

end Accounts

section Never

theorem never_next (hm : service m = .never) (h : (m, false) ∈ s.queue) (o : Op M) :
    (m, false) ∈ (next service s o).queue := by
  cases o with
  | accept n => exact List.mem_append_left _ h
  | write ok =>
      rw [next]
      split
      · exact h
      · have hp := pass_passes service ok 0 s.queue
        rcases hp.mem_before h with hr | ha
        · exact mem_settle.mpr ⟨hr, fun hb => absurd hb (by simp)⟩
        · have heligible := mem_eligible.mp (hp.attempts.subset (List.mem_map_of_mem ha))
          exact absurd hm heligible.2
  | ack n =>
      rw [next]
      dsimp only
      split
      · exact (List.mem_eraseP_of_neg (by simp)).mpr h
      · exact h
  | renew | idle => exact h

end Never

end OneSdk.Outbox
