import OneSdk.McpClient

namespace OneSdk.McpCalls

open CString Runs McpClient

variable {J : Type} (json : CJson J)

def moved (s : Sys) (e : Event) (j : Nat) (c : Caller) : Caller :=
  match e with
  | .act i => if i = j then (advance json s c).getD c else c
  | .deliver d => if d.answers = some j then c.answer d else c
  | .call _ | .receive | .elsewhere => c

def entering : Event → List Caller
  | .call kind => [Caller.new kind]
  | .act _ | .deliver _ | .receive | .elsewhere => []

def resultOf (d : Packet) : Option Bytes := sseGetResponseResult json d.data

variable {json} {s t : Sys} {c c' : Caller} {i j : Nat} {e : Event} {d : Packet}

variable (json s d) in
theorem handle_cases :
    mcpPacketHandle json s d = fault s ∨
      (s.ctx.endpointGot = false ∧ ∃ endpoint, mcpPacketHandle json s d = takeEndpoint s endpoint) ∨
      isEndpoint s.ctx d = some false ∧ mcpPacketHandle json s d = store json s d := by
  unfold mcpPacketHandle
  split
  · exact .inl rfl
  next hend =>
      have hgot : s.ctx.endpointGot = false := by
        cases hg : s.ctx.endpointGot with
        | false => rfl
        | true => simp [isEndpoint, hg] at hend
      split
      · exact .inl rfl
      · split
        · exact .inr (.inl ⟨hgot, _, rfl⟩)
        · exact .inl rfl
  next hend => exact .inr (.inr ⟨hend, rfl⟩)

@[simp] theorem handle_callers : (mcpPacketHandle json s d).callers = s.callers := by
  rcases handle_cases json s d with h | ⟨-, endpoint, h⟩ | ⟨-, h⟩ <;> rw [h] <;> rfl

@[simp] theorem handle_delivered : (mcpPacketHandle json s d).delivered = s.delivered := by
  rcases handle_cases json s d with h | ⟨-, endpoint, h⟩ | ⟨-, h⟩ <;> rw [h] <;> rfl

@[simp] theorem receive_callers : (receive json s).callers = s.callers := by
  unfold receive
  split
  · rfl
  · split <;> rfl
  · rfl

theorem act_get (h : s.callers[i]? = some c) :
    (act json s i).callers[j]? = if i = j then some ((advance json s c).getD c) else s.callers[j]? := by
  rw [act, h]
  dsimp only
  cases ha : advance json s c with
  | none =>
      by_cases hij : i = j
      · subst hij
        simp [fault, h]
      · simp [fault, hij]
  | some c' =>
      have hlt : i < s.callers.length := (List.getElem?_eq_some_iff.mp h).1
      rw [List.getElem?_set]
      simp [hlt]

theorem arrive_get :
    (arrive s d).callers[j]? = (s.callers[j]?).map (fun c => if d.answers = some j then c.answer d else c) := by
  cases hd : d.answers with
  | none => simp [arrive, hd]
  | some i =>
      by_cases hij : i = j
      · simp [arrive, hd, hij]
      · simp [arrive, hd, hij]

theorem moved_other (hij : ¬i = j) : moved json s (.act i) j = id := by
  funext c
  rw [moved, if_neg hij, id]

theorem next_callers : (next json s e).callers = s.callers.mapIdx (moved json s e) ++ entering e := by
  apply List.ext_getElem?
  intro j
  cases e with
  | call kind =>
      have hm : s.callers.mapIdx (moved json s (.call kind)) = s.callers := by
        apply List.ext_getElem?
        intro j
        rw [List.getElem?_mapIdx]
        exact Option.map_id'
      rw [hm, next, entering]
  | act i =>
      rw [next, entering, List.append_nil, List.getElem?_mapIdx]
      by_cases hij : i = j
      · subst hij
        cases hi : s.callers[i]? with
        | none => rw [act, hi, hi, Option.map_none]
        | some c => rw [act_get hi, if_pos rfl, Option.map_some, moved, if_pos rfl]
      · rw [moved_other hij, Option.map_id_fun, id]
        cases hi : s.callers[i]? with
        | none => rw [act, hi]
        | some c => rw [act_get hi, if_neg hij]
  | deliver d =>
      rw [next, handle_callers, arrive_get, entering, List.append_nil, List.getElem?_mapIdx]
      rfl
  | receive =>
      rw [next, receive_callers, entering, List.append_nil, List.getElem?_mapIdx]
      exact Option.map_id'.symm
  | elsewhere =>
      rw [next, entering, List.append_nil, List.getElem?_mapIdx]
      exact Option.map_id'.symm

variable (json e) in
theorem next_get (h : s.callers[j]? = some c) : (next json s e).callers[j]? = some (moved json s e j c) := by
  have hlt : j < (s.callers.mapIdx (moved json s e)).length := by
    rw [List.length_mapIdx]
    exact (List.getElem?_eq_some_iff.mp h).1
  rw [next_callers, List.getElem?_append_left hlt, List.getElem?_mapIdx, h, Option.map_some]

theorem mem_next (h : c' ∈ (next json s e).callers) :
    (∃ j c, s.callers[j]? = some c ∧ c' = moved json s e j c) ∨ c' ∈ entering e := by
  rw [next_callers, List.mem_append] at h
  refine h.imp_left (fun hm => ?_)
  obtain ⟨j, hj, rfl⟩ := List.mem_mapIdx.mp hm
  exact ⟨j, _, List.getElem?_eq_getElem hj, rfl⟩

inductive Advances (json : CJson J) (s : Sys) (c : Caller) : Caller → Prop where
  | waited (hp : c.phase = .awaitEndpoint ∨ c.phase = .awaitInitialized)
      (ht : 0 < c.timeoutMs) : Advances json s c c.slept
  | gaveUp (hp : c.phase = .awaitEndpoint ∨ c.phase = .awaitInitialized) : Advances json s c c.null
  | connected (hp : c.phase = .awaitEndpoint) (hg : s.ctx.endpointGot = true) :
      Advances json s c (c.to .awaitInitialized)
  | admitted (hp : c.phase = .awaitInitialized) : Advances json s c (c.to .issue)
  | issued (hp : c.phase = .issue) :
      Advances json s c { c with requestId := some (getJsonrpcRequestId s.nextRequestId).1, phase := .request }
  | requested (hp : c.phase = .request) : Advances json s c (c.to .poll)
  | paused (hp : c.phase = .poll) (ht : 0 < c.timeoutMs) : Advances json s c (c.to .sleep)
  | timedOut (hp : c.phase = .poll) (ht : c.kind.timedOut c.timeoutMs = true) : Advances json s c c.null
  | polled (hp : c.phase = .poll) (ht : ¬c.kind.timedOut c.timeoutMs = true) : Advances json s c (c.to .check)
  | slept (hp : c.phase = .sleep) : Advances json s c (c.slept.to .poll)
  | matched (hp : c.phase = .check) (hid : some s.ctx.messages.requestId = c.requestId) : Advances json s c (c.to .lock)
  | mismatched (hp : c.phase = .check) (hid : ¬some s.ctx.messages.requestId = c.requestId) : Advances json s c c.null
  | parsed (hp : c.phase = .lock) (ret : Option Result) (hret : c.kind.parse json s.ctx.messages.result = some ret) :
      Advances json s c (c.to (.done ret s.source))
  | stayed (hr : c.returned = true) : Advances json s c c

theorem await_advances {flag : Bool} {phase : Phase} (hp : c.phase = .awaitEndpoint ∨ c.phase = .awaitInitialized)
    (hto : flag = true → Advances json s c (c.to phase)) : Advances json s c (c.await flag phase) := by
  unfold Caller.await
  split
  next hf => exact hto hf
  next =>
      split
      next ht => exact .waited hp ht
      next => exact .gaveUp hp

theorem advance_advances (ha : advance json s c = some c') : Advances json s c c' := by
  unfold advance at ha
  split at ha
  next hp =>
      obtain rfl := Option.some.inj ha
      exact await_advances (.inl hp) (.connected hp)
  next hp =>
      obtain rfl := Option.some.inj ha
      exact await_advances (.inr hp) (fun _ => .admitted hp)
  next hp =>
      obtain rfl := Option.some.inj ha
      exact .issued hp
  next hp =>
      obtain rfl := Option.some.inj ha
      exact .requested hp
  next hp =>
      split at ha
      next hw =>
          obtain rfl := Option.some.inj ha
          exact .paused hp hw.2
      next =>
          split at ha
          next ht =>
              obtain rfl := Option.some.inj ha
              exact .timedOut hp ht
          next ht =>
              obtain rfl := Option.some.inj ha
              exact .polled hp ht
  next hp =>
      obtain rfl := Option.some.inj ha
      exact .slept hp
  next hp =>
      split at ha
      next hid =>
          obtain rfl := Option.some.inj ha
          exact .matched hp hid
      next hid =>
          obtain rfl := Option.some.inj ha
          exact .mismatched hp hid
  next hp =>
      obtain ⟨ret, hret, rfl⟩ := Option.map_eq_some_iff.mp ha
      exact .parsed hp ret hret
  next hp =>
      obtain rfl := Option.some.inj ha
      exact .stayed (by simp [Caller.returned, Caller.outcome, hp])

theorem advance_none (ha : advance json s c = none) :
    c.phase = .lock ∧ c.kind.parse json s.ctx.messages.result = none := by
  unfold advance at ha
  split at ha
  case h_5 =>
      split at ha
      · cases ha
      · split at ha <;> cases ha
  case h_7 => split at ha <;> cases ha
  case h_8 hp => exact ⟨hp, Option.map_eq_none_iff.mp ha⟩
  all_goals cases ha

/-- What the steps of a call and of the receiver keep, whatever is delivered. -/
structure Caller.Sound (s : Sys) (c : Caller) : Prop where
  tens : ∃ n : Nat, c.timeoutMs = 10 * n
  unissued : c.phase = .awaitEndpoint ∨ c.phase = .awaitInitialized ∨ c.phase = .issue → c.requestId = none
  entered : c.phase = .awaitInitialized ∨ c.phase = .issue → s.ctx.endpointGot = true
  issued : ∀ id ∈ c.requestId, 1 ≤ id ∧ s.ctx.endpointGot = true
  asked : c.requestId = none → c.answered = none
  heard : ∀ d ∈ c.answered, d ∈ s.delivered
  asleep : c.phase = .sleep → 0 < c.timeoutMs
  found : c.phase = .lock → s.source ≠ none
  taken : ∀ ret d, c.phase = .done ret (some d) → d ∈ s.delivered

/-- What the receiver keeps of the slot. The result is there whenever the lock is free. -/
def Held (json : CJson J) (s : Sys) : Prop :=
  match s.receiver with
  | .idle => s.ctx.messages.result = s.source.bind (resultOf json)
  | .stored d | .notified d => s.source = some d

structure WellFormed (json : CJson J) (s : Sys) : Prop where
  callers : ∀ c ∈ s.callers, Caller.Sound s c
  counter : 1 ≤ s.nextRequestId
  origin : ∀ d ∈ s.source, d ∈ s.delivered
  blank : s.source = none → s.ctx.messages.requestId = 0
  held : Held json s

structure Grows (s t : Sys) : Prop where
  endpointGot : s.ctx.endpointGot = true → t.ctx.endpointGot = true
  delivered : s.delivered ⊆ t.delivered
  source : s.source ≠ none → t.source ≠ none

theorem Caller.Sound.mono (h : Caller.Sound s c) (hg : Grows s t) : Caller.Sound t c where
  tens := h.tens
  unissued := h.unissued
  entered he := hg.endpointGot (h.entered he)
  issued id hid := ⟨(h.issued id hid).1, hg.endpointGot (h.issued id hid).2⟩
  asked := h.asked
  heard d hd := hg.delivered (h.heard d hd)
  asleep := h.asleep
  found hl := hg.source (h.found hl)
  taken ret d hd := hg.delivered (h.taken ret d hd)

theorem Caller.Sound.to (h : Caller.Sound s c) {phase : Phase}
    (hu : phase = .awaitEndpoint ∨ phase = .awaitInitialized ∨ phase = .issue → c.requestId = none)
    (he : phase = .awaitInitialized ∨ phase = .issue → s.ctx.endpointGot = true)
    (ha : phase = .sleep → 0 < c.timeoutMs) (hf : phase = .lock → s.source ≠ none)
    (ht : ∀ ret d, phase = .done ret (some d) → d ∈ s.delivered) : Caller.Sound s (c.to phase) where
  tens := h.tens
  unissued := hu
  entered := he
  issued := h.issued
  asked := h.asked
  heard := h.heard
  asleep := ha
  found := hf
  taken := ht

theorem Caller.Sound.null (h : Caller.Sound s c) : Caller.Sound s c.null :=
  h.to (by simp) (by simp) (by simp) (by simp) (by simp)

theorem Caller.Sound.slept (h : Caller.Sound s c) (ht : 0 < c.timeoutMs) (hs : c.phase ≠ .sleep) :
    Caller.Sound s c.slept where
  tens := by
    obtain ⟨n, hn⟩ := h.tens
    exact ⟨n - 1, by simp only [Caller.slept]; omega⟩
  unissued := h.unissued
  entered := h.entered
  issued := h.issued
  asked := h.asked
  heard := h.heard
  asleep hl := absurd hl hs
  found := h.found
  taken := h.taken

theorem requestId_pos {counter : Nat} (h : 1 ≤ counter) :
    1 ≤ (getJsonrpcRequestId counter).1 ∧ 1 ≤ (getJsonrpcRequestId counter).2 := by
  unfold getJsonrpcRequestId
  split
  · exact ⟨h, Nat.le_add_left 1 counter⟩
  · exact ⟨le_rfl, le_rfl⟩

theorem Caller.Sound.advance (h : Caller.Sound s c) (hs : WellFormed json s)
    (ha : McpClient.advance json s c = some c') :
    Caller.Sound s c' := by
  cases advance_advances ha with
  | waited hp ht => exact h.slept ht (by rcases hp with hp | hp <;> simp [hp])
  | gaveUp hp => exact h.null
  | connected hp hg =>
      exact h.to (fun _ => h.unissued (.inl hp)) (fun _ => hg) (by simp) (by simp) (by simp)
  | admitted hp =>
      exact h.to (fun _ => h.unissued (.inr (.inl hp))) (fun _ => h.entered (.inl hp)) (by simp) (by simp) (by simp)
  | issued hp =>
      have hgot := h.entered (.inr hp)
      have hpos := (requestId_pos hs.counter).1
      have hnone := h.asked (h.unissued (.inr (.inr hp)))
      refine ⟨h.tens, by simp, by simp, ?_, by simp, by simp [hnone], by simp, by simp, by simp⟩
      rintro id ⟨⟩
      exact ⟨Int.ofNat_le.mpr hpos, hgot⟩
  | requested hp | polled hp ht => exact h.to (by simp) (by simp) (by simp) (by simp) (by simp)
  | paused hp ht => exact h.to (by simp) (by simp) (fun _ => ht) (by simp) (by simp)
  | timedOut hp ht | mismatched hp hid => exact h.null
  | slept hp =>
      have hpoll : Caller.Sound s (c.to .poll) := h.to (by simp) (by simp) (by simp) (by simp) (by simp)
      exact hpoll.slept (h.asleep hp) (by simp [Caller.to])
  | matched hp hid =>
      refine h.to (by simp) (by simp) (by simp) (fun _ hnone => ?_) (by simp)
      have hpos := (h.issued _ hid.symm).1
      have hzero := hs.blank hnone
      omega
  | parsed hp ret hret =>
      refine h.to (by simp) (by simp) (by simp) (by simp) ?_
      intro r d hd
      obtain ⟨-, hsrc⟩ := Phase.done.inj hd
      exact hs.origin d hsrc
  | stayed hr => exact h

theorem Caller.Sound.answer (h : Caller.Sound s c) (hr : c.requestId ≠ none) (hd : d ∈ s.delivered) :
    Caller.Sound s (c.answer d) := by
  unfold Caller.answer
  split
  · refine ⟨h.tens, h.unissued, h.entered, h.issued, fun hn => absurd hn hr, ?_, h.asleep, h.found, h.taken⟩
    rintro b ⟨⟩
    exact hd
  · exact h

variable (json s i) in
theorem act_frame : ∃ callers counter faulted,
    act json s i = { s with callers := callers, nextRequestId := counter, faulted := faulted } ∧
      (1 ≤ s.nextRequestId → 1 ≤ counter) := by
  unfold act
  split
  · exact ⟨_, _, _, rfl, id⟩
  · split
    · exact ⟨_, _, _, rfl, id⟩
    · refine ⟨_, _, _, rfl, fun h => ?_⟩
      unfold Caller.counterAfter
      split
      · exact (requestId_pos h).2
      · exact h

variable (json) in
theorem receive_cases (hr : s.receiver ≠ .idle) :
    (∃ d ctx counter, s.receiver = .stored d ∧
      receive json s = { s with ctx := ctx, nextRequestId := counter, receiver := .notified d } ∧
      ctx.messages = s.ctx.messages ∧ ctx.endpointGot = s.ctx.endpointGot ∧ (1 ≤ s.nextRequestId → 1 ≤ counter)) ∨
    ∃ d, s.receiver = .notified d ∧ receive json s = setResult s (resultOf json d) := by
  unfold receive
  split
  next h => exact absurd h hr
  next d h =>
      refine .inl ⟨d, ?_⟩
      split
      · refine ⟨_, _, h, rfl, rfl, rfl, fun hc => ?_⟩
        unfold sendInitializeNotification
        dsimp only
        split
        · exact (requestId_pos hc).2
        · exact hc
      · exact ⟨_, _, h, rfl, rfl, rfl, id⟩
  next d h => exact .inr ⟨d, h, rfl⟩

theorem next_grows (he : enabled json s e) : Grows s (next json s e) := by
  cases e with
  | call kind => exact ⟨id, List.Subset.refl _, id⟩
  | act i =>
      obtain ⟨callers, counter, faulted, h, -⟩ := act_frame json s i
      rw [next, h]
      exact ⟨id, List.Subset.refl _, id⟩
  | deliver d =>
      have hsub : s.delivered ⊆ s.delivered ++ [d] := List.subset_append_left _ _
      rw [next]
      rcases handle_cases json (arrive s d) d with h | ⟨-, endpoint, h⟩ | ⟨-, h⟩
      · rw [h]
        exact ⟨id, hsub, id⟩
      · rw [h]
        exact ⟨fun _ => rfl, hsub, id⟩
      · rw [h]
        exact ⟨id, hsub, fun _ => by simp [store]⟩
  | receive =>
      rw [next]
      rcases receive_cases json he.2 with ⟨d, ctx, counter, -, h, -, hgot, -⟩ | ⟨d, -, h⟩
      · rw [h]
        exact ⟨fun hg => hgot.trans hg, List.Subset.refl _, id⟩
      · rw [h]
        exact ⟨id, List.Subset.refl _, id⟩
  | elsewhere => exact ⟨id, List.Subset.refl _, id⟩

theorem next_source (he : enabled json s e) :
    (next json s e).source = s.source ∨ ∃ d, e = .deliver d ∧ (next json s e).source = some d := by
  cases e with
  | call kind | elsewhere => exact .inl rfl
  | act i =>
      obtain ⟨callers, counter, faulted, h, -⟩ := act_frame json s i
      rw [next, h]
      exact .inl rfl
  | deliver d =>
      rw [next]
      rcases handle_cases json (arrive s d) d with h | ⟨-, endpoint, h⟩ | ⟨-, h⟩
      · rw [h]
        exact .inl rfl
      · rw [h]
        exact .inl rfl
      · rw [h]
        exact .inr ⟨d, rfl, rfl⟩
  | receive =>
      rw [next]
      rcases receive_cases json he.2 with ⟨d, ctx, counter, -, h, -, -, -⟩ | ⟨d, -, h⟩
      · rw [h]
        exact .inl rfl
      · rw [h]
        exact .inl rfl

theorem moved_sound (h : WellFormed json s) (he : enabled json s e) (hj : s.callers[j]? = some c) :
    Caller.Sound (next json s e) (moved json s e j c) := by
  have hc : Caller.Sound s c := h.callers c (List.mem_of_getElem? hj)
  have hg := next_grows he
  cases e with
  | act i =>
      rw [moved]
      split
      · cases ha : advance json s c with
        | none => exact hc.mono hg
        | some c' => exact (hc.advance h ha).mono hg
      · exact hc.mono hg
  | deliver d =>
      rw [moved]
      split
      next hd =>
          obtain ⟨b, hb, -, hid⟩ := he.2.2.2 j hd
          obtain rfl : c = b := by simpa [hj] using hb
          refine (hc.mono hg).answer (by simp [hid]) ?_
          simp [next, arrive]
      next => exact hc.mono hg
  | call kind | receive | elsewhere => exact hc.mono hg

theorem new_sound (kind : Kind) : Caller.Sound s (Caller.new kind) :=
  ⟨⟨500, rfl⟩, fun _ => rfl, by simp [Caller.new], by simp [Caller.new], fun _ => rfl, by simp [Caller.new],
    by simp [Caller.new], by simp [Caller.new], by simp [Caller.new]⟩

theorem WellFormed.next (h : WellFormed json s) (he : enabled json s e) :
    WellFormed json (McpClient.next json s e) := by
  have hcallers : ∀ c ∈ (McpClient.next json s e).callers, Caller.Sound (McpClient.next json s e) c := by
    intro c' hc'
    rcases mem_next hc' with ⟨j, c, hj, rfl⟩ | hnew
    · exact moved_sound h he hj
    · cases e with
      | call kind =>
          obtain rfl := List.mem_singleton.mp hnew
          exact new_sound kind
      | act i | deliver d | receive | elsewhere => cases hnew
  cases e with
  | call kind => exact ⟨hcallers, h.counter, h.origin, h.blank, h.held⟩
  | act i =>
      obtain ⟨callers, counter, faulted, heq, hn⟩ := act_frame json s i
      rw [McpClient.next, heq] at hcallers ⊢
      exact ⟨hcallers, hn h.counter, h.origin, h.blank, h.held⟩
  | deliver d =>
      have horigin : ∀ b ∈ s.source, b ∈ s.delivered ++ [d] := fun b hb => List.mem_append_left _ (h.origin b hb)
      rw [McpClient.next] at hcallers ⊢
      rcases handle_cases json (arrive s d) d with heq | ⟨-, endpoint, heq⟩ | ⟨-, heq⟩
      · rw [heq] at hcallers ⊢
        exact ⟨hcallers, h.counter, horigin, h.blank, h.held⟩
      · rw [heq] at hcallers ⊢
        exact ⟨hcallers, (requestId_pos h.counter).2, horigin, h.blank, h.held⟩
      · rw [heq] at hcallers ⊢
        refine ⟨hcallers, h.counter, ?_, by simp [store], rfl⟩
        rintro b ⟨⟩
        simp [store, arrive]
  | receive =>
      have hheld := h.held
      rw [McpClient.next] at hcallers ⊢
      rcases receive_cases json he.2 with ⟨d, ctx, counter, hr, heq, hm, -, hn⟩ | ⟨d, hr, heq⟩
      · rw [heq] at hcallers ⊢
        rw [Held, hr] at hheld
        exact ⟨hcallers, hn h.counter, h.origin, fun hb => hm ▸ h.blank hb, hheld⟩
      · rw [heq] at hcallers ⊢
        rw [Held, hr] at hheld
        refine ⟨hcallers, h.counter, h.origin, h.blank, ?_⟩
        simp [Held, setResult, hheld]
  | elsewhere => exact ⟨hcallers, (requestId_pos h.counter).2, h.origin, h.blank, h.held⟩

variable (json) in
theorem start_wellFormed {server : Server} {counter : Nat} (h : 1 ≤ counter) : WellFormed json (start server counter) :=
  ⟨fun _ hc => absurd hc List.not_mem_nil, h, by simp [start], fun _ => rfl, rfl⟩

section Termination

def rank : Phase → Nat
  | .awaitEndpoint => 8
  | .awaitInitialized => 7
  | .issue => 6
  | .request => 5
  | .poll => 4
  | .sleep => 3
  | .check => 2
  | .lock => 1
  | .done _ _ => 0

def work (c : Caller) : Nat := 2 * (c.timeoutMs / 10).toNat + rank c.phase

def acts (i : Nat) (es : List Event) : Nat := es.count (.act i)

def budget (s : Sys) (i : Nat) : Nat :=
  if s.faulted then 0 else
    match s.callers[i]? with
    | none => 1008
    | some c => work c

theorem advance_work (h : Caller.Sound s c) (hr : c.returned = false) (ha : advance json s c = some c') :
    work c' < work c := by
  obtain ⟨n, hn⟩ := h.tens
  have hto {phase : Phase} (hlt : rank phase < rank c.phase) : work (c.to phase) < work c :=
    Nat.add_lt_add_left hlt _
  cases advance_advances ha with
  | waited hp ht =>
      simp only [work, Caller.slept]
      omega
  | gaveUp hp => exact hto (by rcases hp with hp | hp <;> simp [hp, rank])
  | issued hp => exact hto (by simp [hp, rank] : rank .request < rank c.phase)
  | connected hp | admitted hp | requested hp | paused hp | timedOut hp | polled hp | matched hp | mismatched hp
  | parsed hp => exact hto (by simp [hp, rank])
  | slept hp =>
      have hpos := h.asleep hp
      simp only [work, Caller.slept, Caller.to, hp, rank]
      omega
  | stayed hret => exact absurd (hr.symm.trans hret) Bool.false_ne_true

theorem work_answer : work (c.answer d) = work c := by
  unfold Caller.answer
  split <;> rfl

theorem work_moved (hne : e ≠ .act i) : work (moved json s e i c) = work c := by
  cases e with
  | act k =>
      have hk : ¬k = i := fun hk => hne (congrArg Event.act hk)
      rw [moved, if_neg hk]
  | deliver d =>
      rw [moved]
      split
      · exact work_answer
      · rfl
  | call kind | receive | elsewhere => rfl

theorem budget_le (h : s.callers[i]? = some c) : budget s i ≤ work c := by
  unfold budget
  split
  · exact Nat.zero_le _
  · rw [h]

theorem budget_new (h : s.callers[i]? = none) : budget (next json s e) i ≤ 1008 := by
  unfold budget
  split
  · exact Nat.zero_le _
  · split
    · exact le_rfl
    next c hc =>
        have hle : s.callers.length ≤ i := List.getElem?_eq_none_iff.mp h
        rw [next_callers, List.getElem?_append_right (by simpa using hle)] at hc
        cases e with
        | call kind =>
            obtain rfl := List.mem_singleton.mp (List.mem_of_getElem? hc)
            exact le_of_eq rfl
        | act i | deliver d | receive | elsewhere => cases hc

theorem next_budget (h : WellFormed json s) (he : enabled json s e) :
    budget (next json s e) i + (if e = .act i then 1 else 0) ≤ budget s i := by
  have hs : budget s i = match s.callers[i]? with | none => 1008 | some c => work c := by
    rw [budget, he.1]
    rfl
  rw [hs]
  cases hi : s.callers[i]? with
  | none =>
      have hne : e ≠ .act i := by
        rintro rfl
        obtain ⟨-, c, hc, -⟩ := he
        rw [hi] at hc
        cases hc
      rw [if_neg hne]
      exact budget_new hi
  | some c =>
      by_cases hact : e = .act i
      · subst hact
        obtain ⟨-, b, hb, hready, -⟩ := he
        obtain rfl : c = b := by simpa [hi] using hb
        rw [if_pos rfl]
        have hsound := h.callers c (List.mem_of_getElem? hi)
        cases ha : advance json s c with
        | none =>
            have hzero : budget (next json s (.act i)) i = 0 := by
              rw [budget, next, act, hi]
              simp only [ha, fault, if_true]
            have hpos : 0 < rank c.phase := by
              cases hp : c.phase with
              | done ret source => simp [Caller.returned, Caller.outcome, hp] at hready
              | _ => simp [rank]
            rw [hzero]
            exact hpos.trans_le (Nat.le_add_left _ _)
        | some c' =>
            have hmoved : moved json s (.act i) i c = c' := by rw [moved, if_pos rfl, ha, Option.getD_some]
            have hle := budget_le (next_get json (.act i) hi)
            rw [hmoved] at hle
            exact hle.trans_lt (advance_work hsound hready ha)
      · rw [if_neg hact, Nat.add_zero]
        exact (budget_le (next_get json e hi)).trans_eq (work_moved hact)

theorem acts_le (h : WellFormed json s) {es : List Event} (hl : Legal (client json) s es) :
    acts i es + budget (final (client json) s es) i ≤ budget s i := by
  induction es generalizing s with
  | nil => simp [acts, final]
  | cons e es ih =>
      have hrest := ih (h.next hl.1) hl.2
      have hstep := next_budget (i := i) h hl.1
      rw [acts, List.count_cons]
      rw [acts] at hrest
      simp only [final, beq_iff_eq]
      change List.count (.act i) es + budget (final (client json) (next json s e) es) i ≤ _ at hrest
      change _ + budget (final (client json) (next json s e) es) i ≤ _
      omega

/-- A call that has not returned can go on, or waits for the receiver to give the lock back. -/
theorem acts_or_waits (hf : s.faulted = false) (hc : s.callers[i]? = some c) (hr : c.returned = false) :
    enabled json s (.act i) ∨ enabled json s .receive := by
  by_cases hi : s.receiver = .idle
  · exact .inl ⟨hf, c, hc, hr, fun _ => hi⟩
  · exact .inr ⟨hf, hi⟩

end Termination

end OneSdk.McpCalls
