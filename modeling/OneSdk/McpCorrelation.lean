import OneSdk.McpCalls

namespace OneSdk.McpCorrelation

open CString Runs McpClient McpCalls

section Spec

variable {J : Type} (json : CJson J)

def parsed (c : Caller) (d : Option Packet) : Option (Option Result) := c.kind.parse json (d.bind (resultOf json))

/-- A call that has returned took what it returns from the response to it, if that
came before its timeout, and from no other packet. -/
def Correct (c : Caller) : Prop := ∀ o ∈ c.outcome, o.2 = c.answered ∧ parsed json c c.answered = some o.1

def Correlated (s : Sys) : Prop := s.faulted = false ∧ ∀ c ∈ s.callers, Correct json c

/-- The receiver does not crash on a packet, and it overwrites no response that a
call has yet to read. -/
def Spares (s : Sys) (d : Packet) : Prop :=
  isEndpoint s.ctx d = some true ∧ (∃ endpoint ∈ d.data, UrlFits s.ctx.server endpoint) ∨
    isEndpoint s.ctx d = some false ∧ ∀ c ∈ s.callers, c.answered ≠ none → c.returned = true

/-- A response finds its call waiting, unless that has timed out, and can be parsed. -/
def Awaited (s : Sys) (d : Packet) : Prop :=
  ∀ i ∈ d.answers, ∀ c ∈ s.callers[i]?, 0 < c.timeoutMs → c.returned = false ∧ parsed json c (some d) ≠ none

def Waits (c : Caller) (id : Int) : Prop := c.returned = false ∧ 0 < c.timeoutMs ∧ c.requestId = some id

/-- A packet that is stored is the response to every call that waits for the id it bears. -/
def Owned (s : Sys) (d : Packet) : Prop :=
  isEndpoint s.ctx d = some false →
    ∀ i < s.callers.length, ∀ c ∈ s.callers[i]?, Waits c (sseParseRequestId json d.data) → d.answers = some i

/-- No response comes in the last sleep before the timeout. -/
def InTime (c : Caller) : Prop := c.phase = .sleep → c.timeoutMs ≤ 10 → c.answered = none

/-- The id that a call gets is not the one in the slot. -/
def Fresh (s : Sys) (c : Caller) : Prop :=
  c.phase = .issue → 0 < c.timeoutMs → ((getJsonrpcRequestId s.nextRequestId).1 : Int) ≠ s.ctx.messages.requestId

def Undisturbed (s : Sys) : Event → Prop
  | .deliver d => Spares s d ∧ Awaited json s d ∧ Owned json s d
  | .act i => ∀ c ∈ s.callers[i]?, InTime c ∧ Fresh s c
  | .call _ | .receive | .elsewhere => True

/-- The step loses no response, and reads none but that of the call itself. -/
def Intact (s : Sys) : Event → Prop
  | .deliver d => Spares s d ∧ Awaited json s d
  | .act i => ∀ c ∈ s.callers[i]?, InTime c ∧ (c.phase = .lock → c.answered ≠ none)
  | .call _ | .receive | .elsewhere => True

instance (c : Caller) : Decidable (Correct json c) := inferInstanceAs (Decidable (∀ _ ∈ _, _))

instance (s : Sys) : Decidable (Correlated json s) := inferInstanceAs (Decidable (_ ∧ _))

instance (s : Sys) (d : Packet) : Decidable (Spares s d) := inferInstanceAs (Decidable (_ ∨ _))

instance (s : Sys) (d : Packet) : Decidable (Awaited json s d) := inferInstanceAs (Decidable (∀ _ ∈ _, _))

instance (s : Sys) (d : Packet) : Decidable (Owned json s d) :=
  inferInstanceAs (Decidable (_ → ∀ _ < _, ∀ _ ∈ _, _ ∧ _ → _))

instance (c : Caller) : Decidable (InTime c) := inferInstanceAs (Decidable (_ → _))

instance (s : Sys) (c : Caller) : Decidable (Fresh s c) := inferInstanceAs (Decidable (_ → _))

instance decidableUndisturbed (s : Sys) : (e : Event) → Decidable (Undisturbed json s e)
  | .deliver _ => inferInstanceAs (Decidable (_ ∧ _ ∧ _))
  | .act _ => inferInstanceAs (Decidable (∀ _ ∈ _, _))
  | .call _ | .receive | .elsewhere => .isTrue trivial

end Spec

variable {J : Type} {json : CJson J} {s t : Sys} {c c' : Caller} {i j : Nat} {e : Event} {d : Packet}

theorem parsed_none : parsed json c none = some none := by
  cases h : c.kind <;> simp [parsed, h, Kind.parse, mcpToolResultParse, mcpToolsListParse]

theorem correct_of_active (hr : c.returned = false) : Correct json c := by
  intro o ho
  rw [Caller.returned, Option.isSome_eq_false_iff, Option.isNone_iff_eq_none] at hr
  simp [hr] at ho

theorem correct_null (hn : c.answered = none) : Correct json c.null := by
  rintro o ⟨⟩
  exact ⟨hn.symm, by rw [show c.null.answered = none from hn]; exact parsed_none⟩

theorem handle_endpoint {endpoint : Bytes} (h : isEndpoint s.ctx d = some true) (hd : d.data = some endpoint)
    (hfits : UrlFits s.ctx.server endpoint) : mcpPacketHandle json s d = takeEndpoint s endpoint := by
  simp [mcpPacketHandle, h, hd, hfits]

theorem handle_misfit (h : isEndpoint s.ctx d = some true)
    (hmis : ¬∃ endpoint ∈ d.data, UrlFits s.ctx.server endpoint) :
    mcpPacketHandle json s d = fault s := by
  rw [mcpPacketHandle, h]
  dsimp only
  cases hd : d.data with
  | none => rfl
  | some endpoint => exact if_neg (fun hfits => hmis ⟨endpoint, hd, hfits⟩)

theorem handle_store (h : isEndpoint s.ctx d = some false) : mcpPacketHandle json s d = store json s d := by
  simp [mcpPacketHandle, h]

theorem result_held (h : WellFormed json s) (hr : s.receiver = .idle) :
    s.ctx.messages.result = s.source.bind (resultOf json) := by
  have hheld := h.held
  rwa [Held, hr] at hheld

theorem timedOut_iff (h : Caller.Sound s c) : c.kind.timedOut c.timeoutMs = true ↔ c.timeoutMs ≤ 0 := by
  obtain ⟨n, hn⟩ := h.tens
  cases hk : c.kind with
  | toolCall =>
      simp only [Kind.timedOut, beq_iff_eq]
      omega
  | toolsList => simp [Kind.timedOut]

section Kept

def Current (json : CJson J) (s : Sys) (c : Caller) : Prop :=
  c.returned = false → ∀ d ∈ c.answered,
    s.source = some d ∧ c.requestId = some s.ctx.messages.requestId ∧ 0 < c.timeoutMs ∧ parsed json c (some d) ≠ none

structure Kept (json : CJson J) (s : Sys) : Prop where
  correlated : Correlated json s
  current : ∀ c ∈ s.callers, Current json s c

theorem Current.of_frame (h : Current json s c) (hs : t.source = s.source)
    (hm : t.ctx.messages.requestId = s.ctx.messages.requestId) : Current json t c := by
  intro hr d hd
  rw [hs, hm]
  exact h hr d hd

theorem Current.to (h : Current json s c) (hr : c.returned = false) (phase : Phase) : Current json s (c.to phase) :=
  fun _ => h hr

theorem current_of_unanswered (hn : c.answered = none) : Current json s c := by
  intro _ d hd
  simp [hn] at hd

theorem kept_active (hr : c.returned = false) (hc : Current json s c) : Correct json c ∧ Current json s c :=
  ⟨correct_of_active hr, hc⟩

theorem kept_null (hn : c.answered = none) : Correct json c.null ∧ Current json s c.null :=
  ⟨correct_null hn, current_of_unanswered hn⟩

/-- What a step of a call keeps. The response to it, once there, is found by the
next poll and is still in the slot when the call has the lock. -/
theorem advance_kept (hw : WellFormed json s) (hs : Caller.Sound s c) (hc : Current json s c)
    (hready : c.Ready s) (hu : InTime c ∧ (c.phase = .lock → c.answered ≠ none)) (ha : advance json s c = some c') :
    Correct json c' ∧ Current json s c' := by
  have hr := hready.1
  have hwaits (hp : c.phase = .awaitEndpoint ∨ c.phase = .awaitInitialized) : c.answered = none :=
    hs.asked (hs.unissued (or_assoc.mp (.inl hp)))
  cases advance_advances ha with
  | waited hp ht => exact kept_active hr (current_of_unanswered (hwaits hp))
  | gaveUp hp => exact kept_null (hwaits hp)
  | issued hp =>
      exact kept_active rfl (current_of_unanswered (hs.asked (hs.unissued (.inr (.inr hp)))))
  | connected hp | admitted hp | requested hp | paused hp | polled hp | matched hp =>
      exact kept_active rfl (hc.to hr _)
  | timedOut hp ht =>
      refine kept_null ?_
      by_contra hne
      obtain ⟨d, hd⟩ := Option.ne_none_iff_exists'.mp hne
      exact absurd ((timedOut_iff hs).mp ht) (Int.not_le.mpr (hc hr d hd).2.2.1)
  | slept hp =>
      refine kept_active rfl (fun _ d hd => ?_)
      obtain ⟨hsrc, hid, -, hparse⟩ := hc hr d hd
      have hlong : ¬c.timeoutMs ≤ 10 := by
        intro hle
        have hn := hu.1 hp hle
        rw [show c.answered = some d from hd] at hn
        cases hn
      refine ⟨hsrc, hid, ?_, hparse⟩
      simp only [Caller.slept, Caller.to]
      omega
  | mismatched hp hid =>
      refine kept_null ?_
      by_contra hsome
      obtain ⟨d, hd⟩ := Option.ne_none_iff_exists'.mp hsome
      exact hid (hc hr d hd).2.1.symm
  | parsed hp ret hret =>
      obtain ⟨d, hd⟩ := Option.ne_none_iff_exists'.mp (hu.2 hp)
      have hsrc := (hc hr d hd).1
      rw [result_held hw (hready.2 hp), hsrc] at hret
      refine ⟨?_, fun hfalse => absurd hfalse (by simp [Caller.returned, Caller.outcome, Caller.to])⟩
      rintro o ⟨⟩
      refine ⟨hsrc.trans hd.symm, ?_⟩
      rw [show (c.to (.done ret s.source)).answered = some d from hd]
      exact hret
  | stayed hret => exact absurd (hr.symm.trans hret) Bool.false_ne_true

theorem advance_ne_none (hw : WellFormed json s) (hc : Current json s c) (hready : c.Ready s)
    (hu : InTime c ∧ (c.phase = .lock → c.answered ≠ none)) :
    advance json s c ≠ none := by
  intro ha
  obtain ⟨hp, hret⟩ := advance_none ha
  obtain ⟨d, hd⟩ := Option.ne_none_iff_exists'.mp (hu.2 hp)
  obtain ⟨hsrc, -, -, hparse⟩ := hc hready.1 d hd
  rw [result_held hw (hready.2 hp), hsrc] at hret
  exact hparse hret

theorem Kept.of_frame (h : Kept json s) (hc : t.callers = s.callers) (hf : t.faulted = s.faulted)
    (hs : t.source = s.source) (hm : t.ctx.messages.requestId = s.ctx.messages.requestId) : Kept json t where
  correlated := by
    rw [Correlated, hf, hc]
    exact h.correlated
  current c hmem := (h.current c (hc ▸ hmem)).of_frame hs hm

theorem Kept.act (h : Kept json s) (hw : WellFormed json s) (he : enabled json s (.act i))
    (hu : Intact json s (.act i)) : Kept json (next json s (.act i)) := by
  obtain ⟨hf, c, hi, hready⟩ := he
  have hmem := List.mem_of_getElem? hi
  cases ha : advance json s c with
  | none => exact absurd ha (advance_ne_none hw (h.current c hmem) hready (hu c hi))
  | some c' =>
      have hnew := advance_kept hw (hw.callers c hmem) (h.current c hmem) hready (hu c hi) ha
      have heq : next json s (.act i) =
          { s with callers := s.callers.set i c', nextRequestId := c.counterAfter s.nextRequestId } := by
        rw [next, McpClient.act, hi]
        simp only [ha]
      rw [heq]
      refine ⟨⟨hf, fun b hb => ?_⟩, fun b hb => ?_⟩
      · rcases List.mem_or_eq_of_mem_set hb with hb | rfl
        · exact h.correlated.2 b hb
        · exact hnew.1
      · rcases List.mem_or_eq_of_mem_set hb with hb | rfl
        · exact (h.current b hb).of_frame rfl rfl
        · exact hnew.2.of_frame rfl rfl

theorem answered_call (he : enabled json s (.deliver d)) (hd : d.answers = some j) (hj : s.callers[j]? = some c) :
    c.answered = none ∧ c.requestId = some (sseParseRequestId json d.data) := by
  obtain ⟨b, hb, hn, hid⟩ := he.2.2.2 j hd
  obtain rfl : c = b := by simpa [hj] using hb
  exact ⟨hn, hid⟩

theorem not_answers_endpoint (hw : WellFormed json s) (he : enabled json s (.deliver d))
    (hend : isEndpoint s.ctx d = some true) : d.answers = none := by
  cases ha : d.answers with
  | none => rfl
  | some j =>
      obtain ⟨c, hc, -, hid⟩ := he.2.2.2 j ha
      have hgot := ((hw.callers c (List.mem_of_getElem? hc)).issued _ hid).2
      simp [isEndpoint, hgot] at hend

theorem Kept.deliver (h : Kept json s) (hw : WellFormed json s) (he : enabled json s (.deliver d))
    (hu : Intact json s (.deliver d)) : Kept json (next json s (.deliver d)) := by
  obtain ⟨hspares, hawaited⟩ := hu
  rcases hspares with ⟨hend, endpoint, hep, hfits⟩ | ⟨hstore, hread⟩
  · have hnone := not_answers_endpoint hw he hend
    have hs : arrive s d = { s with delivered := s.delivered ++ [d] } := by rw [arrive, hnone]
    refine h.of_frame ?_ ?_ ?_ ?_ <;> rw [next, handle_endpoint (s := arrive s d) hend hep hfits, hs] <;> rfl
  · have hnext : next json s (.deliver d) = store json (arrive s d) d := by
      rw [next, handle_store (s := arrive s d) hstore]
    have hold {c : Caller} (hc : c ∈ s.callers) : Current json (store json (arrive s d) d) c := by
      intro hr b hb
      have htrue := hread c hc (by rw [Option.mem_def.mp hb]; exact Option.some_ne_none b)
      exact absurd (hr.symm.trans htrue) Bool.false_ne_true
    have hmem (c' : Caller) (hc' : c' ∈ (next json s (.deliver d)).callers) :
        Correct json c' ∧ Current json (next json s (.deliver d)) c' := by
      rcases mem_next hc' with ⟨j, c, hj, rfl⟩ | hnew
      · have hcm := List.mem_of_getElem? hj
        rw [hnext, moved]
        split
        next hd =>
            obtain ⟨hn, hid⟩ := answered_call he hd hj
            unfold Caller.answer
            split
            next ht =>
                obtain ⟨hr, hparse⟩ := hawaited j hd c hj ht
                refine ⟨correct_of_active hr, fun _ b hb => ?_⟩
                obtain rfl : d = b := Option.some.inj hb
                exact ⟨rfl, hid, ht, hparse⟩
            next => exact ⟨h.correlated.2 c hcm, hold hcm⟩
        next => exact ⟨h.correlated.2 c hcm, hold hcm⟩
      · cases hnew
    refine ⟨⟨?_, fun c hc => (hmem c hc).1⟩, fun c hc => (hmem c hc).2⟩
    rw [hnext]
    exact he.1

theorem Kept.next (h : Kept json s) (hw : WellFormed json s) (he : enabled json s e) (hu : Intact json s e) :
    Kept json (McpClient.next json s e) := by
  cases e with
  | call kind =>
      refine ⟨⟨he.1, fun c hc => ?_⟩, fun c hc => ?_⟩
      · rcases List.mem_append.mp hc with hc | hc
        · exact h.correlated.2 c hc
        · obtain rfl := List.mem_singleton.mp hc
          exact correct_of_active rfl
      · rcases List.mem_append.mp hc with hc | hc
        · exact (h.current c hc).of_frame rfl rfl
        · obtain rfl := List.mem_singleton.mp hc
          exact current_of_unanswered rfl
  | act i => exact h.act hw he hu
  | deliver d => exact h.deliver hw he hu
  | receive =>
      rw [McpClient.next]
      rcases receive_cases json he.2 with ⟨d, ctx, counter, -, heq, hm, -, -⟩ | ⟨d, -, heq⟩
      · rw [heq]
        exact h.of_frame rfl rfl rfl (congrArg SseMessage.requestId hm)
      · rw [heq]
        exact h.of_frame rfl rfl rfl rfl
  | elsewhere => exact h.of_frame rfl rfl rfl rfl

theorem start_kept {server : Server} {counter : Nat} : Kept json (start server counter) :=
  ⟨⟨rfl, fun _ hc => absurd hc List.not_mem_nil⟩, fun _ hc => absurd hc List.not_mem_nil⟩

end Kept

section Lost

def Lost (json : CJson J) (s : Sys) (c : Caller) : Prop :=
  (∃ ret source, c.phase = .done ret source ∧ source ≠ c.answered) ∨
    c.returned = false ∧ ∃ d, c.answered = some d ∧
      (parsed json c (some d) = none ∨ s.source ≠ some d ∨ c.phase = .poll ∧ c.timeoutMs ≤ 0)

def Spoiled (json : CJson J) (s : Sys) : Prop :=
  s.faulted = true ∨ ∃ (i : Nat) (c : Caller), s.callers[i]? = some c ∧ Lost json s c

theorem active_or_done (c : Caller) : c.returned = false ∨ ∃ ret source, c.phase = .done ret source := by
  cases hp : c.phase with
  | done ret source => exact .inr ⟨ret, source, rfl⟩
  | _ => simp [Caller.returned, Caller.outcome, hp]

theorem lost_null (hn : c.answered ≠ none) : Lost json s c.null := .inl ⟨none, none, rfl, hn.symm⟩

theorem Lost.advance (h : Lost json s c) (hw : WellFormed json s) (hs : Caller.Sound s c) (hready : c.Ready s)
    (ha : advance json s c = some c') : Lost json s c' := by
  have hr := hready.1
  rcases h with ⟨ret, source, hp, -⟩ | ⟨-, d, hd, hlost⟩
  · simp [Caller.returned, Caller.outcome, hp] at hr
  · have hne : c.answered ≠ none := by simp [hd]
    have hgone (hp : ¬(c.phase = .poll ∧ c.timeoutMs ≤ 0)) : parsed json c (some d) = none ∨ s.source ≠ some d :=
      hlost.imp_right (fun h => h.resolve_right hp)
    have hto (hp : ¬(c.phase = .poll ∧ c.timeoutMs ≤ 0)) {phase : Phase} (ht : (c.to phase).returned = false) :
        Lost json s (c.to phase) := .inr ⟨ht, d, hd, (hgone hp).imp_right .inl⟩
    cases advance_advances ha with
    | waited hp ht =>
        have hpoll : ¬(c.phase = .poll ∧ c.timeoutMs ≤ 0) := fun h => Int.not_le.mpr ht h.2
        exact .inr ⟨hr, d, hd, (hgone hpoll).imp_right .inl⟩
    | issued hp => exact .inr ⟨rfl, d, hd, (hgone (by simp [hp])).imp_right .inl⟩
    | connected hp | admitted hp | requested hp | matched hp => exact hto (by simp [hp]) rfl
    | paused hp ht => exact hto (fun h => Int.not_le.mpr ht h.2) rfl
    | polled hp ht => exact hto (fun h => ht ((timedOut_iff hs).mpr h.2)) rfl
    | gaveUp hp | timedOut hp | mismatched hp => exact lost_null hne
    | slept hp => exact .inr ⟨rfl, d, hd, (hgone (by simp [hp])).imp_right .inl⟩
    | parsed hp ret hret =>
        refine .inl ⟨ret, s.source, rfl, fun hsrc => ?_⟩
        replace hsrc : s.source = some d := hsrc.trans hd
        rw [result_held hw (hready.2 hp), hsrc] at hret
        rcases hgone (by simp [hp]) with hparse | hother
        · exact absurd (hparse.symm.trans hret) (by simp)
        · exact hother hsrc
    | stayed hret => exact absurd (hr.symm.trans hret) Bool.false_ne_true

theorem Lost.of_source (h : Lost json s c) (hs : ∀ d ∈ c.answered, t.source = s.source ∨ t.source ≠ some d) :
    Lost json t c := by
  refine h.imp_right (fun ⟨hr, d, hd, hlost⟩ => ⟨hr, d, hd, ?_⟩)
  rcases hlost with hparse | hother | hpoll
  · exact .inl hparse
  · rcases hs d hd with heq | hne
    · exact .inr (.inl (heq ▸ hother))
    · exact .inr (.inl hne)
  · exact .inr (.inr hpoll)

theorem source_other (hs : Caller.Sound s c) (he : enabled json s e) :
    ∀ d ∈ c.answered, (next json s e).source = s.source ∨ (next json s e).source ≠ some d := by
  intro d hd
  refine (next_source he).imp_right ?_
  rintro ⟨b, rfl, hb⟩ hsame
  obtain rfl : b = d := Option.some.inj (hb.symm.trans hsame)
  exact he.2.2.1 (hs.heard b hd)

theorem lost_of_taken (hs : Caller.Sound s c) (he : enabled json s (.deliver d)) {ret : Option Result}
    {source : Option Packet} (hp : c.phase = .done ret source) (ht : 0 < c.timeoutMs) : Lost json t (c.answer d) := by
  rw [Caller.answer, if_pos ht]
  refine .inl ⟨ret, source, hp, ?_⟩
  rintro rfl
  exact he.2.2.1 (hs.taken ret d hp)

theorem Lost.moved (h : Lost json s c) (hw : WellFormed json s) (he : enabled json s e)
    (hi : s.callers[i]? = some c) : Spoiled json (McpClient.next json s e) := by
  have hs := hw.callers c (List.mem_of_getElem? hi)
  have hget := next_get json e hi
  have hkeep : Lost json (McpClient.next json s e) c := h.of_source (source_other hs he)
  cases e with
  | act k =>
      by_cases hk : k = i
      · subst hk
        obtain ⟨-, b, hb, hready⟩ := he
        obtain rfl : c = b := by simpa [hi] using hb
        rw [McpCalls.moved, if_pos rfl] at hget
        cases ha : McpClient.advance json s c with
        | none =>
            refine .inl ?_
            simp only [McpClient.next, act, hi, ha, fault]
        | some c' =>
            rw [ha, Option.getD_some] at hget
            have hlost := h.advance hw hs hready ha
            refine .inr ⟨k, c', hget, hlost.of_source (fun d _ => ?_)⟩
            obtain ⟨callers, counter, faulted, heq, -⟩ := act_frame json s k
            rw [McpClient.next, heq]
            exact .inl rfl
      · rw [moved_other hk, id] at hget
        exact .inr ⟨i, c, hget, hkeep⟩
  | deliver d =>
      rw [McpCalls.moved] at hget
      split at hget
      next hd =>
          refine .inr ⟨i, _, hget, ?_⟩
          by_cases ht : 0 < c.timeoutMs
          · have hn := (answered_call he hd hi).1
            rcases h with ⟨ret, source, hp, -⟩ | ⟨-, b, hb, -⟩
            · exact lost_of_taken hs he hp ht
            · simp [hn] at hb
          · rw [Caller.answer, if_neg ht]
            exact hkeep
      next => exact .inr ⟨i, c, hget, hkeep⟩
  | call kind | receive | elsewhere => exact .inr ⟨i, c, hget, hkeep⟩

theorem Spoiled.next (h : Spoiled json s) (hw : WellFormed json s) (he : enabled json s e) :
    Spoiled json (McpClient.next json s e) := by
  rcases h with hf | ⟨i, c, hi, hlost⟩
  · exact absurd (he.1.symm.trans hf) Bool.false_ne_true
  · exact hlost.moved hw he hi

theorem spoiled_of_late (hw : WellFormed json s) (hi : s.callers[i]? = some c)
    (hu : ¬(InTime c ∧ (c.phase = .lock → c.answered ≠ none))) : Spoiled json (next json s (.act i)) := by
  have hs := hw.callers c (List.mem_of_getElem? hi)
  have hget := next_get json (.act i) hi
  rw [moved, if_pos rfl] at hget
  rw [not_and_or] at hu
  rcases hu with hu | hu
  · obtain ⟨hp, ht, hne⟩ : c.phase = .sleep ∧ c.timeoutMs ≤ 10 ∧ c.answered ≠ none := by
      simpa only [InTime, Classical.not_imp] using hu
    obtain ⟨d, hd⟩ := Option.ne_none_iff_exists'.mp hne
    have ha : advance json s c = some (c.slept.to .poll) := by simp [advance, hp]
    rw [ha, Option.getD_some] at hget
    refine .inr ⟨i, _, hget, .inr ⟨rfl, d, hd, .inr (.inr ⟨rfl, ?_⟩)⟩⟩
    simp only [Caller.slept, Caller.to]
    omega
  · obtain ⟨hp, hn⟩ : c.phase = .lock ∧ c.answered = none := by simpa only [Classical.not_imp, not_not] using hu
    cases ha : advance json s c with
    | none =>
        refine .inl ?_
        simp only [next, act, hi, ha, fault]
    | some c' =>
        rw [ha, Option.getD_some] at hget
        simp only [advance, hp, Option.map_eq_some_iff] at ha
        obtain ⟨ret, -, rfl⟩ := ha
        refine .inr ⟨i, _, hget, .inl ⟨ret, s.source, rfl, ?_⟩⟩
        rw [show (c.to (.done ret s.source)).answered = none from hn]
        exact hs.found hp

theorem spoiled_of_unawaited (hw : WellFormed json s) (he : enabled json s (.deliver d)) (hd : d.answers = some i)
    (hi : s.callers[i]? = some c) (ht : 0 < c.timeoutMs)
    (hu : ¬(c.returned = false ∧ parsed json c (some d) ≠ none)) : Spoiled json (next json s (.deliver d)) := by
  have hs := hw.callers c (List.mem_of_getElem? hi)
  have hget := next_get json (.deliver d) hi
  rw [moved, if_pos hd] at hget
  refine .inr ⟨i, _, hget, ?_⟩
  rcases active_or_done c with hr | ⟨ret, source, hp⟩
  · have hparse : parsed json c (some d) = none := by
      by_contra hne
      exact hu ⟨hr, hne⟩
    rw [Caller.answer, if_pos ht]
    exact .inr ⟨hr, d, rfl, .inl hparse⟩
  · exact lost_of_taken hs he hp ht

theorem spoiled_of_overwritten (hw : WellFormed json s) (he : enabled json s (.deliver d)) (hu : ¬Spares s d) :
    Spoiled json (next json s (.deliver d)) := by
  cases hend : isEndpoint s.ctx d with
  | none =>
      refine .inl ?_
      rw [next, mcpPacketHandle, show isEndpoint (arrive s d).ctx d = none from hend]
      rfl
  | some flag =>
      cases flag with
      | true =>
          refine .inl ?_
          rw [next, handle_misfit (s := arrive s d) hend (fun hfits => hu (.inl ⟨hend, hfits⟩))]
          rfl
      | false =>
          obtain ⟨c, hc, hne, hr⟩ : ∃ c ∈ s.callers, c.answered ≠ none ∧ c.returned = false := by
            by_contra hnone
            refine hu (.inr ⟨hend, fun c hc hne => ?_⟩)
            by_contra hr
            exact hnone ⟨c, hc, hne, Bool.eq_false_iff.mpr hr⟩
          obtain ⟨i, hlt, hi⟩ := List.mem_iff_getElem.mp hc
          have hi : s.callers[i]? = some c := List.getElem?_eq_some_iff.mpr ⟨hlt, hi⟩
          obtain ⟨b, hb⟩ := Option.ne_none_iff_exists'.mp hne
          have hget := next_get json (.deliver d) hi
          have hother : ¬d.answers = some i := fun hd => hne (answered_call he hd hi).1
          rw [moved, if_neg hother] at hget
          refine .inr ⟨i, c, hget, .inr ⟨hr, b, hb, .inr (.inl ?_)⟩⟩
          rw [next, handle_store (s := arrive s d) hend]
          rintro ⟨⟩
          exact he.2.2.1 ((hw.callers c hc).heard d hb)

theorem spoiled_of_not_intact (hw : WellFormed json s) (he : enabled json s e) (hu : ¬Intact json s e) :
    Spoiled json (next json s e) := by
  cases e with
  | act i =>
      obtain ⟨-, c, hc, -⟩ := he
      refine spoiled_of_late hw hc (fun hin => hu (fun b hb => ?_))
      obtain rfl : c = b := Option.some.inj (hc.symm.trans hb)
      exact hin
  | deliver d =>
      by_cases hspares : Spares s d
      · have hawaited : ¬Awaited json s d := fun h => hu ⟨hspares, h⟩
        simp only [Awaited, not_forall] at hawaited
        obtain ⟨i, hd, c, hi, ht, hnot⟩ := hawaited
        exact spoiled_of_unawaited hw he hd hi ht hnot
      · exact spoiled_of_overwritten hw he hspares
  | call kind | receive | elsewhere => exact absurd trivial hu

theorem not_spoiled (h : Correlated json s) (hr : ∀ c ∈ s.callers, c.returned = true) : ¬Spoiled json s := by
  rintro (hf | ⟨i, c, hi, ⟨ret, source, hp, hne⟩ | ⟨hactive, -⟩⟩)
  · exact absurd (h.1.symm.trans hf) Bool.false_ne_true
  · have hc := h.2 c (List.mem_of_getElem? hi) (ret, source) (by simp [Caller.outcome, hp])
    exact hne hc.1
  · exact absurd (hactive.symm.trans (hr c (List.mem_of_getElem? hi))) Bool.false_ne_true

end Lost

theorem kept_next (h : WellFormed json s ∧ Kept json s) (he : enabled json s e) (hu : Intact json s e) :
    WellFormed json (next json s e) ∧ Kept json (next json s e) :=
  ⟨h.1.next he, h.2.next h.1 he hu⟩

section Owners

structure Alone (s : Sys) (c : Caller) : Prop where
  apart : Waits c s.ctx.messages.requestId → c.answered ≠ none
  checked : c.phase = .check → 0 < c.timeoutMs
  locked : c.phase = .lock → c.answered ≠ none

theorem Alone.of_frame (h : Alone s c) (hm : t.ctx.messages.requestId = s.ctx.messages.requestId) : Alone t c :=
  ⟨fun hw => h.apart (hm ▸ hw), h.checked, h.locked⟩

theorem alone_null : Alone s c.null := ⟨fun hw => Bool.noConfusion hw.1, nofun, nofun⟩

theorem Alone.advance (h : Alone s c) (hs : Caller.Sound s c) (hr : c.returned = false) (hf : Fresh s c)
    (ha : McpClient.advance json s c = some c') : Alone s c' := by
  have hto {phase : Phase} (hcheck : phase = .check → 0 < c.timeoutMs) (hlock : phase = .lock → c.answered ≠ none) :
      Alone s (c.to phase) := ⟨fun hw => h.apart ⟨hr, hw.2⟩, hcheck, hlock⟩
  cases advance_advances ha with
  | waited hp ht =>
      refine ⟨fun hw => h.apart ⟨hr, ht, hw.2.2⟩, ?_, ?_⟩
      · rcases hp with hp | hp <;> simp [Caller.slept, hp]
      · rcases hp with hp | hp <;> simp [Caller.slept, hp]
  | gaveUp hp | timedOut hp | mismatched hp => exact alone_null
  | connected hp | admitted hp | requested hp | paused hp => exact hto (by rintro ⟨⟩) (by rintro ⟨⟩)
  | issued hp =>
      refine ⟨fun hw => ?_, by rintro ⟨⟩, by rintro ⟨⟩⟩
      exact absurd (Option.some.inj hw.2.2) (hf hp hw.2.1)
  | polled hp ht =>
      refine hto (fun _ => ?_) (by rintro ⟨⟩)
      exact Int.not_le.mp (fun hle => ht ((timedOut_iff hs).mpr hle))
  | slept hp => exact ⟨fun hw => h.apart ⟨hr, hs.asleep hp, hw.2.2⟩, by rintro ⟨⟩, by rintro ⟨⟩⟩
  | matched hp hid => exact hto (by rintro ⟨⟩) (fun _ => h.apart ⟨hr, h.checked hp, hid.symm⟩)
  | parsed hp => exact ⟨fun hw => Bool.noConfusion hw.1, by rintro ⟨⟩, by rintro ⟨⟩⟩
  | stayed hret => exact absurd (hr.symm.trans hret) Bool.false_ne_true

theorem Alone.answer (h : Alone s c) : Alone s (c.answer d) := by
  unfold Caller.answer
  split
  · exact ⟨fun _ => Option.some_ne_none d, h.checked, fun _ => Option.some_ne_none d⟩
  · exact h

theorem Alone.store (h : Alone s c) (hu : Waits c (sseParseRequestId json d.data) → d.answers = some j) :
    Alone (McpClient.store json (arrive s d) d) (if d.answers = some j then c.answer d else c) := by
  split
  next hd =>
      unfold Caller.answer
      split
      next => exact ⟨fun _ => Option.some_ne_none d, h.checked, fun _ => Option.some_ne_none d⟩
      next ht => exact ⟨fun hw => absurd hw.2.1 ht, h.checked, h.locked⟩
  next hd => exact ⟨fun hw => absurd (hu hw) hd, h.checked, h.locked⟩

theorem alone_deliver (h : ∀ c ∈ s.callers, Alone s c) (hu : Owned json s d) (hj : s.callers[j]? = some c) :
    Alone (next json s (.deliver d)) (moved json s (.deliver d) j c) := by
  have hc := h c (List.mem_of_getElem? hj)
  have hkept : Alone s (moved json s (.deliver d) j c) := by
    rw [moved]
    split
    · exact hc.answer
    · exact hc
  rw [next]
  rcases handle_cases json (arrive s d) d with heq | ⟨-, endpoint, heq⟩ | ⟨hend, heq⟩
  · rw [heq]
    exact hkept.of_frame rfl
  · rw [heq]
    exact hkept.of_frame rfl
  · rw [heq, moved]
    exact hc.store (hu hend j (List.getElem?_eq_some_iff.mp hj).1 c hj)

theorem alone_next (hw : WellFormed json s) (h : ∀ c ∈ s.callers, Alone s c) (he : enabled json s e)
    (hu : Undisturbed json s e) : ∀ c ∈ (next json s e).callers, Alone (next json s e) c := by
  intro c' hc'
  rcases mem_next hc' with ⟨j, c, hj, rfl⟩ | hnew
  · have hc := h c (List.mem_of_getElem? hj)
    cases e with
    | act i =>
        obtain ⟨callers, counter, faulted, heq, -⟩ := act_frame json s i
        have hid : (next json s (.act i)).ctx.messages.requestId = s.ctx.messages.requestId := by rw [next, heq]
        refine Alone.of_frame ?_ hid
        rw [moved]
        split
        next hij =>
            subst hij
            obtain ⟨-, b, hb, hready⟩ := he
            obtain rfl : c = b := by simpa [hj] using hb
            cases ha : advance json s c with
            | none => exact hc
            | some c' => exact hc.advance (hw.callers c (List.mem_of_getElem? hj)) hready.1 (hu c hj).2 ha
        next => exact hc
    | deliver d => exact alone_deliver h hu.2.2 hj
    | receive =>
        refine hc.of_frame ?_
        rw [next]
        rcases receive_cases json he.2 with ⟨d, ctx, counter, -, heq, hm, -, -⟩ | ⟨d, -, heq⟩
        · rw [heq]
          exact congrArg SseMessage.requestId hm
        · rw [heq]
          rfl
    | call kind | elsewhere => exact hc.of_frame rfl
  · cases e with
    | call kind =>
        obtain rfl := List.mem_singleton.mp hnew
        exact ⟨by rintro ⟨-, -, ⟨⟩⟩, by rintro ⟨⟩, by rintro ⟨⟩⟩
    | act i | deliver d | receive | elsewhere => cases hnew

theorem intact_of_alone (h : ∀ c ∈ s.callers, Alone s c) (hu : Undisturbed json s e) : Intact json s e := by
  cases e with
  | act i => exact fun c hc => ⟨(hu c hc).1, (h c (List.mem_of_getElem? hc)).locked⟩
  | deliver d => exact ⟨hu.1, hu.2.1⟩
  | call kind | receive | elsewhere => trivial

end Owners

/-- Responses reach their callers in every run that does not disturb them. More
closely, they do in every run that loses none, and of the runs in which all calls return
in no others. Every call returns, as it takes at most 1008 steps and is never stuck. -/
theorem correlated_iff (json : CJson J) (server : Server) (counter : Nat) (hpos : 1 ≤ counter) (es : List Event)
    (hl : Legal (client json) (start server counter) es) :
    (EveryStep (client json) (Undisturbed json) (start server counter) es →
      Always (client json) (Correlated json) (start server counter) es) ∧
    (EveryStep (client json) (Intact json) (start server counter) es →
      Always (client json) (Correlated json) (start server counter) es) ∧
    ((∀ c ∈ (final (client json) (start server counter) es).callers, c.returned = true) →
      Correlated json (final (client json) (start server counter) es) →
      EveryStep (client json) (Intact json) (start server counter) es) ∧
    (∀ i, acts i es ≤ 1008) ∧
    (∀ (i : Nat) (c : Caller), (final (client json) (start server counter) es).callers[i]? = some c →
      c.returned = false →
      (final (client json) (start server counter) es).faulted = false →
      enabled json (final (client json) (start server counter) es) (.act i) ∨
        enabled json (final (client json) (start server counter) es) .receive) := by
  have hw : WellFormed json (start server counter) := start_wellFormed json hpos
  have hintact (hi : EveryStep (client json) (Intact json) (start server counter) es) :
      Always (client json) (Correlated json) (start server counter) es :=
    always_of_invariant (M := client json) (fun s e h he hi => kept_next h he hi) (fun s h => h.2.correlated)
      ⟨hw, start_kept⟩ hl hi
  refine ⟨fun hu => hintact ?_, hintact, fun hr hc => ?_, fun i => ?_, fun i c hc hr hf => acts_or_waits hf hc hr⟩
  · exact everyStep_of_invariant (M := client json) (I := fun s => WellFormed json s ∧ ∀ c ∈ s.callers, Alone s c)
      (fun s e h he hu => ⟨h.1.next he, alone_next h.1 h.2 he hu⟩) (fun s e h he hu => intact_of_alone h.2 hu)
      ⟨hw, fun _ hc => absurd hc List.not_mem_nil⟩ hl hu
  · exact everyStep_of_final (M := client json) (fun s e h he => h.next he)
      (fun s e h he hu => spoiled_of_not_intact h he hu) (fun s e h he hs => Spoiled.next hs h he) hw hl
      (not_spoiled hc hr)
  · have hle := acts_le (i := i) hw hl
    have hstart : budget (start server counter) i = 1008 := by simp [budget, start]
    omega

def succeeded : Node :=
  .object (text "\x7b\n\t\"content\":\t[]\n\x7d")
    [(contentKey, .array [])]

def failed : Node :=
  .object (text "\x7b\n\t\"isError\":\ttrue,\n\t\"content\":\t[]\n\x7d")
    [(isErrorKey, .truth), (contentKey, .array [])]

def initialized : Bytes := text "\x7b\"id\":1\x7d"

def replyTo (id : Char) (result : Node) : Bytes :=
  text "\x7b\"id\":" ++ ascii [id] ++ text ",\"result\":" ++ (printed result).getD [] ++ text "\x7d"

def replyNode (id : Int) (result : Node) : Node :=
  .object [] [(idKey, .number id), (resultKey, result)]

def sampleJson : CJson Node :=
  nodeJson [(initialized, .object [] [(idKey, .number 1)]), (replyTo '3' succeeded, replyNode 3 succeeded),
    (replyTo '4' failed, replyNode 4 failed), ((printed succeeded).getD [], succeeded),
    ((printed failed).getD [], failed)]

def handled (d : Packet) : List Event := [.deliver d, .receive, .receive]

def requested : List Event :=
  [.deliver ⟨0, some endpointName, some (text "/m"), none⟩] ++
    handled ⟨1, none, some initialized, none⟩ ++
    [.call .toolCall, .call .toolCall, .act 0, .act 0, .act 0, .act 0, .act 1, .act 1, .act 1, .act 1]

def firstReply : Packet := ⟨2, none, some (replyTo '3' succeeded), some 0⟩

def secondReply : Packet := ⟨3, none, some (replyTo '4' failed), some 1⟩

def inTurn : List Event :=
  requested ++ handled firstReply ++ [.act 0, .act 0, .act 0] ++ handled secondReply ++ [.act 1, .act 1, .act 1]

theorem inTurn_correlated : Always (client sampleJson) (Correlated sampleJson) (start sampleServer 1) inTurn :=
  (correlated_iff sampleJson sampleServer 1 (by decide) inTurn (by decide)).1 (by decide)

/-- The second response comes between the last look of the first call at the id and
its lock. -/
def overtaken : List Event :=
  requested ++ handled firstReply ++ [.act 0, .act 0] ++ handled secondReply ++ [.act 0, .act 1, .act 1, .act 1]

theorem overtaken_mixed_up :
    Legal (client sampleJson) (start sampleServer 1) overtaken ∧
    ¬Always (client sampleJson) (Correlated sampleJson) (start sampleServer 1) overtaken ∧
    (final (client sampleJson) (start sampleServer 1) overtaken).callers.map (fun c => (c.outcome, c.answered)) =
      [(some (some (.toolResult ⟨true, []⟩), some secondReply), some firstReply),
        (some (some (.toolResult ⟨true, []⟩), some secondReply), some secondReply)] := by
  decide

end OneSdk.McpCorrelation
