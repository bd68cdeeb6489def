import OneSdk.McpCalls
import Mathlib.Data.Rat.Defs

namespace OneSdk.McpInitialized

open CString Runs McpClient McpCalls

def errorKey : Bytes := text "error"

section Spec

variable {J : Type} (json : CJson J) (number : J → Option Rat)

def Succeeds (d : Packet) (id : Int) : Prop :=
  ∃ root ∈ d.data.bind json.parse,
    (json.getObjectItem root idKey).bind number = some (id : Rat) ∧
    (json.getObjectItem root resultKey).isSome = true ∧
    (json.getObjectItem root errorKey).isSome = false

/-- The step that sets `initialized` handles such a response to the initialize request. -/
def SetBySuccess (s : Sys) (e : Event) : Prop :=
  s.ctx.initialized = false → (next json s e).ctx.initialized = true →
    s.ctx.endpointGot = true ∧ ∃ d, s.receiver = .stored d ∧ Succeeds json number d s.ctx.initializeRequestId

def IssuedWithEndpoint (s : Sys) (e : Event) : Prop :=
  (next json s e).ctx.endpointGot = s.ctx.endpointGot ∧
      (next json s e).ctx.initializeRequestId = s.ctx.initializeRequestId ∨
    s.ctx.endpointGot = false ∧ (next json s e).ctx.endpointGot = true ∧
      (next json s e).ctx.initializeRequestId = (getJsonrpcRequestId s.nextRequestId).1

/-- The server sends no id that reads as 0 before the endpoint, and then none that
reads as that of the initialize request but with the success of that request. -/
def Unmistaken (s : Sys) : Event → Prop
  | .deliver d =>
      s.ctx.initialized = false → isEndpoint s.ctx d = some false →
        if s.ctx.endpointGot then
          sseParseRequestId json d.data = s.ctx.initializeRequestId →
            Succeeds json number d s.ctx.initializeRequestId
        else sseParseRequestId json d.data ≠ 0
  | .call _ | .act _ | .receive | .elsewhere => True

instance (d : Packet) (id : Int) : Decidable (Succeeds json number d id) := inferInstanceAs (Decidable (∃ _ ∈ _, _))

instance decidableUnmistaken (s : Sys) : (e : Event) → Decidable (Unmistaken json number s e)
  | .deliver _ => inferInstanceAs (Decidable (_ → _ → _))
  | .call _ | .act _ | .receive | .elsewhere => .isTrue trivial

end Spec

variable {J : Type} {json : CJson J} {number : J → Option Rat} {s : Sys} {e : Event} {d : Packet}

def Takes (json : CJson J) (s : Sys) (d : Packet) : Prop :=
  s.receiver = .stored d ∧ s.ctx.initialized = false ∧ sseParseRequestId json d.data = s.ctx.initializeRequestId

structure Proper (json : CJson J) (number : J → Option Rat) (s : Sys) : Prop where
  unissued : s.ctx.endpointGot = false → s.ctx.initializeRequestId = 0
  handled : ∀ d, Takes json s d → s.ctx.endpointGot = true ∧ Succeeds json number d s.ctx.initializeRequestId

variable (json s) in
theorem next_own (he : ∀ d, e ≠ .deliver d) (hr : e ≠ .receive) :
    (next json s e).ctx = s.ctx ∧ (next json s e).receiver = s.receiver := by
  cases e with
  | call kind | elsewhere => exact ⟨rfl, rfl⟩
  | act i =>
      obtain ⟨callers, counter, faulted, h, -⟩ := act_frame json s i
      rw [next, h]
      exact ⟨rfl, rfl⟩
  | deliver d => exact absurd rfl (he d)
  | receive => exact absurd rfl hr

variable (json) in
theorem receive_ctx (hr : s.receiver ≠ .idle) :
    (receive json s).ctx.endpointGot = s.ctx.endpointGot ∧
      (receive json s).ctx.initializeRequestId = s.ctx.initializeRequestId ∧
      (∀ d, (receive json s).receiver ≠ .stored d) ∧
      ((∃ d, Takes json s d) ∧ (receive json s).ctx.initialized = true ∨
        (¬∃ d, Takes json s d) ∧ (receive json s).ctx.initialized = s.ctx.initialized) := by
  unfold receive
  split
  next h => exact absurd h hr
  next d h =>
      split
      next hm => exact ⟨rfl, rfl, by simp, .inl ⟨⟨d, h, hm⟩, rfl⟩⟩
      next hm =>
          refine ⟨rfl, rfl, by simp, .inr ⟨?_, rfl⟩⟩
          rintro ⟨b, hb, ht⟩
          obtain rfl : d = b := Receiver.stored.inj (h.symm.trans hb)
          exact hm ht
  next d h =>
      refine ⟨rfl, rfl, by simp [setResult], .inr ⟨?_, rfl⟩⟩
      rintro ⟨b, hb, -⟩
      cases h.symm.trans hb

theorem issued_with_endpoint (he : enabled json s e) : IssuedWithEndpoint json s e := by
  by_cases hr : e = .receive
  · subst hr
    have h := receive_ctx json he.2
    exact .inl ⟨h.1, h.2.1⟩
  · by_cases hd : ∃ d, e = .deliver d
    · obtain ⟨d, rfl⟩ := hd
      rw [IssuedWithEndpoint, next]
      rcases handle_cases json (arrive s d) d with h | ⟨hgot, endpoint, h⟩ | ⟨-, h⟩
      · rw [h]
        exact .inl ⟨rfl, rfl⟩
      · rw [h]
        exact .inr ⟨hgot, rfl, rfl⟩
      · rw [h]
        exact .inl ⟨rfl, rfl⟩
    · have h := (next_own json s (not_exists.mp hd) hr).1
      exact .inl ⟨congrArg Ctx.endpointGot h, congrArg Ctx.initializeRequestId h⟩

theorem set_iff (he : enabled json s e) (hi : s.ctx.initialized = false) :
    (next json s e).ctx.initialized = true ↔ e = .receive ∧ ∃ d, Takes json s d := by
  by_cases hr : e = .receive
  · subst hr
    rcases (receive_ctx json he.2).2.2.2 with ⟨ht, hset⟩ | ⟨ht, hset⟩
    · exact iff_of_true hset ⟨rfl, ht⟩
    · refine iff_of_false ?_ (fun h => ht h.2)
      rw [next, hset, hi]
      exact Bool.false_ne_true
  · refine iff_of_false ?_ (fun h => hr h.1)
    by_cases hd : ∃ d, e = .deliver d
    · obtain ⟨d, rfl⟩ := hd
      rw [next]
      rcases handle_cases json (arrive s d) d with h | ⟨-, endpoint, h⟩ | ⟨-, h⟩
      all_goals
        rw [h]
        exact ne_true_of_eq_false hi
    · rw [(next_own json s (not_exists.mp hd) hr).1, hi]
      exact Bool.false_ne_true

theorem setBySuccess_iff (he : enabled json s e) :
    SetBySuccess json number s e ↔
      (e = .receive → ∀ d, Takes json s d →
        s.ctx.endpointGot = true ∧ Succeeds json number d s.ctx.initializeRequestId) := by
  constructor
  · rintro h rfl d ht
    obtain ⟨hgot, b, hb, hs⟩ := h ht.2.1 ((set_iff he ht.2.1).mpr ⟨rfl, d, ht⟩)
    obtain rfl : d = b := Receiver.stored.inj (ht.1.symm.trans hb)
    exact ⟨hgot, hs⟩
  · intro h hi hset
    obtain ⟨hr, d, ht⟩ := (set_iff he hi).mp hset
    obtain ⟨hgot, hs⟩ := h hr d ht
    exact ⟨hgot, d, ht.1, hs⟩

theorem takes_of_deliver (hidle : s.receiver = .idle) {b : Packet} (ht : Takes json (next json s (.deliver d)) b) :
    b = d ∧ isEndpoint s.ctx d = some false ∧ (next json s (.deliver d)).ctx.endpointGot = s.ctx.endpointGot ∧
      (next json s (.deliver d)).ctx.initializeRequestId = s.ctx.initializeRequestId ∧ s.ctx.initialized = false ∧
      sseParseRequestId json d.data = s.ctx.initializeRequestId := by
  obtain ⟨hr, hi, hid⟩ := ht
  rw [next] at hr hi hid ⊢
  rcases handle_cases json (arrive s d) d with h | ⟨-, endpoint, h⟩ | ⟨hend, h⟩
  · rw [h] at hr
    cases hidle.symm.trans hr
  · rw [h] at hr
    cases hidle.symm.trans hr
  · rw [h] at hr hi hid ⊢
    obtain rfl : d = b := Receiver.stored.inj hr
    exact ⟨rfl, hend, rfl, rfl, hi, hid⟩

theorem unissued_next (he : enabled json s e) (h : s.ctx.endpointGot = false → s.ctx.initializeRequestId = 0)
    (hgot : (next json s e).ctx.endpointGot = false) : (next json s e).ctx.initializeRequestId = 0 := by
  rcases issued_with_endpoint he with ⟨hg, hid⟩ | ⟨-, hg, -⟩
  · rw [hid]
    exact h (hg.symm.trans hgot)
  · cases hg.symm.trans hgot

theorem Proper.next (h : Proper json number s) (he : enabled json s e) (hu : Unmistaken json number s e) :
    Proper json number (McpClient.next json s e) := by
  refine ⟨unissued_next he h.unissued, fun b ht => ?_⟩
  by_cases hr : e = .receive
  · subst hr
    exact absurd ht.1 ((receive_ctx json he.2).2.2.1 b)
  · by_cases hd : ∃ d, e = .deliver d
    · obtain ⟨d, rfl⟩ := hd
      obtain ⟨rfl, hend, hg, hid, hi, hm⟩ := takes_of_deliver he.2.1 ht
      have hu := hu hi hend
      rw [hg, hid]
      cases hgot : s.ctx.endpointGot with
      | true =>
          rw [hgot, if_pos rfl] at hu
          exact ⟨rfl, hu hm⟩
      | false =>
          rw [hgot, if_neg Bool.false_ne_true] at hu
          exact absurd (hm.trans (h.unissued hgot)) hu
    · obtain ⟨hctx, hrecv⟩ := next_own json s (not_exists.mp hd) hr
      rw [Takes, hctx, hrecv] at ht
      rw [hctx]
      exact h.handled b ht

theorem set_wrongly (ht : Takes json s d)
    (hbad : ¬(s.ctx.endpointGot = true ∧ Succeeds json number d s.ctx.initializeRequestId)) {es : List Event}
    (hl : Legal (client json) s es) (hidle : (final (client json) s es).receiver = .idle) :
    ¬EveryStep (client json) (SetBySuccess json number) s es := by
  induction es generalizing s with
  | nil => exact absurd (ht.1.symm.trans hidle) (by simp)
  | cons e es ih =>
      rintro ⟨hset, hrest⟩
      by_cases hr : e = .receive
      · exact hbad ((setBySuccess_iff hl.1).mp hset hr d ht)
      · by_cases hd : ∃ b, e = .deliver b
        · obtain ⟨b, rfl⟩ := hd
          exact absurd (ht.1.symm.trans hl.1.2.1) (by simp)
        · obtain ⟨hctx, hrecv⟩ := next_own json s (not_exists.mp hd) hr
          refine ih ?_ ?_ hl.2 hidle hrest
          · exact ⟨hrecv.trans ht.1, (congrArg Ctx.initialized hctx).trans ht.2.1,
              ht.2.2.trans (congrArg Ctx.initializeRequestId hctx).symm⟩
          · change ¬((next json s e).ctx.endpointGot = true ∧
              Succeeds json number d (next json s e).ctx.initializeRequestId)
            rw [hctx]
            exact hbad

theorem takes_of_mistaken (hun : s.ctx.endpointGot = false → s.ctx.initializeRequestId = 0)
    (hu : ¬Unmistaken json number s (.deliver d)) :
    Takes json (next json s (.deliver d)) d ∧
      ¬((next json s (.deliver d)).ctx.endpointGot = true ∧
        Succeeds json number d (next json s (.deliver d)).ctx.initializeRequestId) := by
  simp only [Unmistaken, Classical.not_imp] at hu
  obtain ⟨hi, hend, hu⟩ := hu
  have hstore : next json s (.deliver d) = store json (arrive s d) d := by
    rw [next, mcpPacketHandle, show isEndpoint (arrive s d).ctx d = some false from hend]
  rw [hstore]
  cases hgot : s.ctx.endpointGot with
  | true =>
      rw [hgot, if_pos rfl, Classical.not_imp] at hu
      exact ⟨⟨rfl, hi, hu.1⟩, fun h => hu.2 h.2⟩
  | false =>
      rw [hgot, if_neg Bool.false_ne_true, not_not] at hu
      refine ⟨⟨rfl, hi, hu.trans (hun hgot).symm⟩, fun h => ?_⟩
      cases hgot.symm.trans h.1

theorem unmistaken_of_setBySuccess (hun : s.ctx.endpointGot = false → s.ctx.initializeRequestId = 0)
    {es : List Event} (hl : Legal (client json) s es) (hidle : (final (client json) s es).receiver = .idle)
    (hset : EveryStep (client json) (SetBySuccess json number) s es) :
    EveryStep (client json) (Unmistaken json number) s es := by
  induction es generalizing s with
  | nil => trivial
  | cons e es ih =>
      refine ⟨?_, ih (unissued_next hl.1 hun) hl.2 hidle hset.2⟩
      by_contra hu
      cases e with
      | deliver d =>
          obtain ⟨ht, hbad⟩ := takes_of_mistaken hun hu
          exact set_wrongly ht hbad hl.2 hidle hset.2
      | call kind | act i | receive | elsewhere => exact hu trivial

/-- The flag is set by the success of the initialize request in every run in which
the server sends nothing that reads like it, and of the runs that the handler has
come to the end of in no others. -/
theorem setBySuccess_run_iff (json : CJson J) (number : J → Option Rat) (server : Server) (counter : Nat)
    (es : List Event) (hl : Legal (client json) (start server counter) es) :
    (EveryStep (client json) (Unmistaken json number) (start server counter) es →
      EveryStep (client json) (SetBySuccess json number) (start server counter) es) ∧
    ((final (client json) (start server counter) es).receiver = .idle →
      EveryStep (client json) (SetBySuccess json number) (start server counter) es →
      EveryStep (client json) (Unmistaken json number) (start server counter) es) ∧
    EveryStep (client json) (IssuedWithEndpoint json) (start server counter) es := by
  have hproper : Proper json number (start server counter) := ⟨fun _ => rfl, fun d ht => by simp [Takes, start] at ht⟩
  refine ⟨fun hu => ?_, fun hidle hset => ?_, everyStep_mono (fun s e he => issued_with_endpoint he) hl⟩
  · have hkeep (s : Sys) (e : Event) (h : Proper json number s) (he : (client json).enabled s e)
        (hu : Unmistaken json number s e) : Proper json number ((client json).next s e) := h.next he hu
    refine everyStep_of_invariant hkeep (fun s e h he _ => ?_) hproper hl hu
    exact (setBySuccess_iff he).mpr (fun _ d ht => h.handled d ht)
  · exact unmistaken_of_setBySuccess (fun _ => rfl) hl hidle hset

def numberOf : Node → Option Rat
  | .number n => some n
  | _ => none

def accepted : Bytes := text "\x7b\"id\":1,\"result\":\x7b\x7d\x7d"

def refused : Bytes := text "\x7b\"id\":1,\"error\":\x7b\x7d\x7d"

def ping : Bytes := text "\x7b\"id\":0,\"method\":\"ping\"\x7d"

def sampleJson : CJson Node :=
  nodeJson [
    (accepted, .object [] [(idKey, .number 1), (resultKey, .object (text "\x7b\x7d") [])]),
    (refused, .object [] [(idKey, .number 1), (errorKey, .object (text "\x7b\x7d") [])]),
    (ping, .object [] [(idKey, .number 0)])]

def endpointEvent : Packet := ⟨0, some endpointName, some (text "/m"), none⟩

def message (data : Bytes) : Packet := ⟨1, some (text "message"), some data, none⟩

theorem accepted_sets :
    EveryStep (client sampleJson) (SetBySuccess sampleJson numberOf) (start sampleServer 1)
      [.deliver endpointEvent, .deliver (message accepted), .receive, .receive] :=
  (setBySuccess_run_iff sampleJson numberOf sampleServer 1 _ (by decide)).1 (by decide)

/-- The server refuses to initialize, or it pings before it names the endpoint. -/
theorem refused_sets :
    Legal (client sampleJson) (start sampleServer 1) [.deliver endpointEvent, .deliver (message refused), .receive] ∧
    ¬EveryStep (client sampleJson) (SetBySuccess sampleJson numberOf) (start sampleServer 1)
      [.deliver endpointEvent, .deliver (message refused), .receive] ∧
    Legal (client sampleJson) (start sampleServer 1) [.deliver (message ping), .receive] ∧
    ¬EveryStep (client sampleJson) (SetBySuccess sampleJson numberOf) (start sampleServer 1)
      [.deliver (message ping), .receive] := by
  refine ⟨by decide, ?_, by decide, ?_⟩
  · rintro ⟨-, -, hset, -⟩
    obtain ⟨-, d, hd, hs⟩ := hset (by decide) (by decide)
    obtain rfl : message refused = d := Receiver.stored.inj hd
    exact absurd hs (by decide)
  · rintro ⟨-, hset, -⟩
    exact absurd (hset (by decide) (by decide)).1 (by decide)

end OneSdk.McpInitialized
