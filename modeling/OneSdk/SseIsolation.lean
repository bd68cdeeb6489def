import OneSdk.SseFitting
import OneSdk.SseReading

namespace OneSdk.SseIsolation

open CString HttpLibs HttpClient Framing SseTidy SseSplit SseFitting SseReading

/-- The loop of `drain`, with the bytes of each event and the context that the callback
gets for it. -/
def handed : Nat → Bytes → SseContext → List (Bytes × SseContext)
  | 0, _, _ => []
  | k + 1, cur, sse =>
      if cur = [] then []
      else
        match onesdkMemmem cur crlfcrlf with
        | some i =>
            let sse' := parseSseMessage (clearEvent sse) cur (i + 4)
            (cur.take (i + 4), sse') :: handed k (cur.drop (i + 4)) sse'
        | none =>
            match onesdkMemmem cur lflf with
            | some i =>
                let sse' := parseSseMessage (clearEvent sse) cur (i + 2)
                (cur.take (i + 2), sse') :: handed k (cur.drop (i + 2)) sse'
            | none => []

def filled (buffer c : Bytes) : Bytes := buffer ++ clip buffer c

def handedRead (sse : SseContext) (c : Bytes) : List (Bytes × SseContext) :=
  handed (filled sse.buffer c).length (filled sse.buffer c) sse

def handedAll : SseContext → List Bytes → List (Bytes × SseContext)
  | _, [] => []
  | sse, c :: cs => handedRead sse c ++ handedAll (receiveSse sse c).1 cs

def view (sse : SseContext) : Option Bytes × Nat × Option Bytes × Nat :=
  (sse.event, sse.eventLen, sse.data, sse.dataLen)

def Isolated (cs : List Bytes) : Prop :=
  ∀ p ∈ handedAll emptySse cs, p.2.stray = false ∧ view p.2 = view (parseBlock p.1)

def blocksOf : Bytes → List Bytes → List Bytes
  | _, [] => []
  | t, c :: cs =>
      let r := frames eventEnds (filled t c).length (filled t c)
      r.1 ++ blocksOf r.2 cs

/-- No event lacks a field that an earlier one had, unless it was empty there. -/
def NothingStale (name : Bytes) (es : List Bytes) : Prop :=
  ∀ pre e post, es = pre ++ e :: post → lastField name (blockFields e) = none →
    ∀ v ∈ (pre.filterMap (fun e => lastField name (blockFields e))).getLast?, v = []

def Sound (e : Bytes) : Prop := ∀ l ∈ readLines e, soundLine (chop l) = true

instance (e : Bytes) : Decidable (Sound e) := inferInstanceAs (Decidable (∀ _ ∈ _, _))

section Views

def lensOf (sse : SseContext) : Nat × Nat := (sse.eventLen, sse.dataLen)

def lastEvent (e : Bytes) : Option Bytes := lastField eventName (blockFields e)

def lastData (e : Bytes) : Option Bytes := lastField dataName (blockFields e)

/-- The length of a field stays where an event lacks the field. -/
def carry (n : Nat) (v : Option Bytes) : Nat := v.elim n List.length

def nextLens (lens : Nat × Nat) (e : Bytes) : Nat × Nat := (carry lens.1 (lastEvent e), carry lens.2 (lastData e))

def viewFrom (lens : Nat × Nat) (e : Bytes) : Option Bytes × Nat × Option Bytes × Nat :=
  (lastEvent e, carry lens.1 (lastEvent e), lastData e, carry lens.2 (lastData e))

def views : Nat × Nat → List Bytes → List (Option Bytes × Nat × Option Bytes × Nat)
  | _, [] => []
  | lens, e :: es => viewFrom lens e :: views (nextLens lens e) es

variable {lens : Nat × Nat} {e : Bytes} {es : List Bytes}

theorem views_append (lens : Nat × Nat) (es fs : List Bytes) :
    views lens (es ++ fs) = views lens es ++ views (es.foldl nextLens lens) fs := by
  induction es generalizing lens with
  | nil => rfl
  | cons e es ih => rw [List.cons_append, views, views, ih, List.foldl_cons, List.cons_append]

theorem views_eq_map_iff (lens : Nat × Nat) (es : List Bytes) (g : Bytes → Option Bytes × Nat × Option Bytes × Nat) :
    views lens es = es.map g ↔
      ∀ pre e post, es = pre ++ e :: post → viewFrom (pre.foldl nextLens lens) e = g e := by
  induction es generalizing lens with
  | nil =>
      refine iff_of_true rfl (fun pre e post h => ?_)
      exact absurd h.symm (List.append_ne_nil_of_right_ne_nil _ (List.cons_ne_nil e post))
  | cons e es ih =>
      rw [views, List.map_cons, List.cons.injEq, ih]
      constructor
      · rintro ⟨hhead, htail⟩ pre e' post h
        cases pre with
        | nil =>
            obtain ⟨rfl, -⟩ := List.cons.inj h
            exact hhead
        | cons p pre =>
            obtain ⟨rfl, htl⟩ := List.cons.inj h
            exact htail pre e' post htl
      · intro h
        refine ⟨h [] e es rfl, fun pre e' post hes => ?_⟩
        exact h (e :: pre) e' post (congrArg (e :: ·) hes)

theorem foldl_nextLens (lens : Nat × Nat) (es : List Bytes) :
    es.foldl nextLens lens =
      (carry lens.1 (es.filterMap lastEvent).getLast?, carry lens.2 (es.filterMap lastData).getLast?) := by
  have hsnoc (f : Bytes → Option Bytes) (n : Nat) (es : List Bytes) (e : Bytes) :
      carry (carry n (es.filterMap f).getLast?) (f e) = carry n ((es ++ [e]).filterMap f).getLast? := by
    rw [List.filterMap_append, List.filterMap_cons, List.filterMap_nil]
    cases f e with
    | none => rw [List.append_nil]; rfl
    | some v => rw [List.getLast?_concat]; rfl
  induction es using List.reverseRecOn with
  | nil => rfl
  | append_singleton es e ih =>
      rw [List.foldl_append, List.foldl_cons, List.foldl_nil, ih, nextLens, hsnoc, hsnoc]

theorem carry_eq_iff (n : Nat) (v : Option Bytes) : carry n v = carry 0 v ↔ (v = none → n = 0) := by
  cases v with
  | none => exact ⟨fun h _ => h, fun h => h rfl⟩
  | some v => exact iff_of_true rfl (fun h => nomatch h)

theorem carry_eq_zero_iff (v : Option Bytes) : carry 0 v = 0 ↔ ∀ b ∈ v, b = [] := by
  cases v with
  | none => exact iff_of_true rfl (fun b hb => nomatch hb)
  | some v =>
      simp only [Option.mem_def, Option.some.injEq, forall_eq']
      exact List.length_eq_zero_iff

theorem views_alone_iff (es : List Bytes) :
    views (0, 0) es = es.map (viewFrom (0, 0)) ↔ NothingStale eventName es ∧ NothingStale dataName es := by
  rw [views_eq_map_iff, NothingStale, NothingStale]
  have hpoint (pre : List Bytes) (e : Bytes) :
      viewFrom (pre.foldl nextLens (0, 0)) e = viewFrom (0, 0) e ↔
        (lastEvent e = none → ∀ v ∈ (pre.filterMap lastEvent).getLast?, v = []) ∧
          (lastData e = none → ∀ v ∈ (pre.filterMap lastData).getLast?, v = []) := by
    rw [foldl_nextLens, viewFrom, viewFrom, Prod.mk.injEq, Prod.mk.injEq, Prod.mk.injEq]
    rw [carry_eq_iff, carry_eq_iff, carry_eq_zero_iff, carry_eq_zero_iff]
    simp only [true_and]
  constructor
  · intro h
    constructor
    · exact fun pre e post hes => ((hpoint pre e).mp (h pre e post hes)).1
    · exact fun pre e post hes => ((hpoint pre e).mp (h pre e post hes)).2
  · rintro ⟨hevent, hdata⟩ pre e post hes
    exact (hpoint pre e).mpr ⟨hevent pre e post hes, hdata pre e post hes⟩

end Views

section Handing

structure Hands (out : List (Bytes × SseContext)) (before after : SseContext) (blocks : List Bytes) : Prop where
  bytes : out.map Prod.fst = blocks
  stray : after.stray = (before.stray || blocks.any (fun e => (parseBlock e).stray))
  sane : after.stray = false → ∀ p ∈ out, p.2.stray = false
  insane : before.stray = false → after.stray = true → ∃ p ∈ out, p.2.stray = true
  seen : after.stray = false → out.map (fun p => view p.2) = views (lensOf before) blocks
  lens : after.stray = false → lensOf after = blocks.foldl nextLens (lensOf before)

variable {out out' : List (Bytes × SseContext)} {sse sse' sse'' : SseContext} {blocks blocks' : List Bytes}
  {cur : Bytes}

theorem hands_nil (hstray : sse'.stray = sse.stray) (hlens : lensOf sse' = lensOf sse) : Hands [] sse sse' [] where
  bytes := rfl
  stray := by rw [hstray, List.any_nil, Bool.or_false]
  sane _ p hp := absurd hp List.not_mem_nil
  insane h h' := absurd (h'.symm.trans (hstray.trans h)) (by decide)
  seen _ := rfl
  lens _ := hlens

theorem Hands.append (h : Hands out sse sse' blocks) (h' : Hands out' sse' sse'' blocks') :
    Hands (out ++ out') sse sse'' (blocks ++ blocks') := by
  have hmid : sse''.stray = false → sse'.stray = false := by
    intro hs
    rw [h'.stray, Bool.or_eq_false_iff] at hs
    exact hs.1
  constructor
  · rw [List.map_append, h.bytes, h'.bytes]
  · rw [h'.stray, h.stray, List.any_append, Bool.or_assoc]
  · intro hs p hp
    rcases List.mem_append.mp hp with hp | hp
    · exact h.sane (hmid hs) p hp
    · exact h'.sane hs p hp
  · intro hs hs''
    cases hs' : sse'.stray with
    | true =>
        obtain ⟨p, hp, hstray⟩ := h.insane hs hs'
        exact ⟨p, List.mem_append_left _ hp, hstray⟩
    | false =>
        obtain ⟨p, hp, hstray⟩ := h'.insane hs' hs''
        exact ⟨p, List.mem_append_right _ hp, hstray⟩
  · intro hs
    rw [List.map_append, h.seen (hmid hs), h'.seen hs, h.lens (hmid hs), views_append]
  · intro hs
    rw [h'.lens hs, h.lens (hmid hs), List.foldl_append]

theorem view_fields {ctx : SseContext} (hclear : ctx.payload = (none, none)) (e : Bytes) :
    view ((blockFields e).foldl storeIn ctx) = viewFrom (lensOf ctx) e := by
  obtain ⟨hevent, heventLen, hdata, hdataLen⟩ := foldl_storeIn (blockFields e) ctx
  rw [view, hevent, heventLen, hdata, hdataLen, (Prod.mk.inj hclear).1, (Prod.mk.inj hclear).2, Option.or_none,
    Option.or_none]
  rfl

theorem hands_event {needle : Bytes} {i : Nat} (hn : needle.getLast? = some newline)
    (h : onesdkMemmem cur needle = some i) (sse : SseContext) :
    Hands [(cur.take (i + needle.length), parseSseMessage (clearEvent sse) cur (i + needle.length))] sse
      (parseSseMessage (clearEvent sse) cur (i + needle.length)) [cur.take (i + needle.length)] := by
  obtain ⟨hlast, hlen⟩ := memmem_block hn h
  have hclear : (clearEvent sse).payload = (none, none) := rfl
  have hstray := (parseSseMessage_block hlast _ hclear (cur.drop (i + needle.length))).1
  have hfields := parseSseMessage_fields (clearEvent sse) hlast (cur.drop (i + needle.length))
  rw [List.take_append_drop, hlen] at hstray hfields
  have hview (hs : (parseSseMessage (clearEvent sse) cur (i + needle.length)).stray = false) :
      view (parseSseMessage (clearEvent sse) cur (i + needle.length)) =
        viewFrom (lensOf sse) (cur.take (i + needle.length)) := by
    rw [hfields hs, view_fields hclear]
    rfl
  constructor
  · rfl
  · rw [hstray, List.any_cons, List.any_nil, Bool.or_false]
    rfl
  · intro hs p hp
    rw [List.mem_singleton.mp hp]
    exact hs
  · exact fun _ hs => ⟨_, List.mem_singleton_self _, hs⟩
  · intro hs
    rw [List.map_singleton, hview hs]
    rfl
  · intro hs
    have hlens := congrArg (fun v => (v.2.1, v.2.2.2)) (hview hs)
    exact hlens

theorem handed_drain (k : Nat) (cur : Bytes) (sse : SseContext) :
    Hands (handed k cur sse) sse (drain k cur sse).1 (frames eventEnds k cur).1 := by
  induction k generalizing cur sse with
  | zero => exact hands_nil rfl rfl
  | succ k ih =>
      by_cases hnil : cur = []
      · subst hnil
        exact hands_nil rfl rfl
      · rw [handed, drain, frames, cut_eq, if_neg hnil, if_neg hnil]
        cases hlong : onesdkMemmem cur crlfcrlf with
        | some i => exact (hands_event rfl hlong sse).append (ih _ _)
        | none =>
            cases hshort : onesdkMemmem cur lflf with
            | some i => exact (hands_event rfl hshort sse).append (ih _ _)
            | none => exact hands_nil rfl rfl

theorem receiveSse_filled (sse : SseContext) (c : Bytes) :
    receiveSse sse c = drain (filled sse.buffer c).length (filled sse.buffer c) sse := by
  have hroom : sseBufferSize - sse.buffer.length - 1 = bufferSpace - sse.buffer.length := by
    rw [bufferSpace]
    omega
  rw [receiveSse, hroom]
  rfl

theorem receiveSse_buffer (sse : SseContext) (c : Bytes) :
    (receiveSse sse c).1.buffer = (segments eventEnds (filled sse.buffer c)).2 := by
  rw [receiveSse_filled, (drain_frames _ _ _).1, Chunking.frames_segments]

theorem handedRead_hands (sse : SseContext) (c : Bytes) :
    Hands (handedRead sse c) sse (receiveSse sse c).1
      (frames eventEnds (filled sse.buffer c).length (filled sse.buffer c)).1 := by
  rw [receiveSse_filled]
  exact handed_drain _ _ _

def receiveAll (sse : SseContext) (cs : List Bytes) : SseContext := cs.foldl (fun sse c => (receiveSse sse c).1) sse

theorem handedAll_hands (sse : SseContext) (cs : List Bytes) :
    Hands (handedAll sse cs) sse (receiveAll sse cs) (blocksOf sse.buffer cs) := by
  induction cs generalizing sse with
  | nil => exact hands_nil rfl rfl
  | cons c cs ih =>
      have hbuffer : (receiveSse sse c).1.buffer =
          (frames eventEnds (filled sse.buffer c).length (filled sse.buffer c)).2 := by
        rw [receiveSse_filled]
        exact (drain_frames _ _ _).1
      have hrest := ih (receiveSse sse c).1
      rw [hbuffer] at hrest
      exact (handedRead_hands sse c).append hrest

end Handing

section Request

variable {http : RequestContext} {cb : Callback}

theorem handed_payload (k : Nat) (cur : Bytes) (sse : SseContext) :
    (handed k cur sse).map (fun p => p.2.payload) = (drain k cur sse).2 := by
  induction k generalizing cur sse with
  | zero => rfl
  | succ k ih =>
      rw [handed, drain]
      split
      · rfl
      · cases onesdkMemmem cur crlfcrlf with
        | some i => exact congrArg (_ :: ·) (ih _ _)
        | none =>
            cases onesdkMemmem cur lflf with
            | some i => exact congrArg (_ :: ·) (ih _ _)
            | none => rfl

theorem readAll_handed (h : Listens http cb) (cs : List Bytes) :
    delivered (readAll http cs).2 = (handedAll http.clientData.sseCtx cs).map (fun p => p.2.payload) := by
  induction cs generalizing http with
  | nil => rfl
  | cons c cs ih =>
      obtain ⟨hlistens, hsse, hevents⟩ := read_sse h c
      have hcalls : delivered (readAll http (c :: cs)).2 =
          delivered (onRead http c).2 ++ delivered (readAll (onRead http c).1 cs).2 := List.filterMap_append
      rw [hcalls, hevents, ih hlistens, hsse, receiveSse_filled, ← handed_payload, ← List.map_append,
        ← receiveSse_filled]
      rfl

end Request

theorem sound_iff {e : Bytes} (he : e.getLast? = some newline) : (parseBlock e).stray = false ↔ Sound e := by
  have hstray := parseLines_sound e.length he (Nat.le_refl _) [] ⟨emptySse, [], []⟩
  rw [List.append_nil] at hstray
  rw [parseBlock, parseSseMessage, hstray, Sound, ← List.all_eq_true, emptySse, Bool.false_or, Bool.not_eq_false']

theorem frames_newline (k : Nat) (cur : Bytes) : ∀ e ∈ (frames eventEnds k cur).1, e.getLast? = some newline := by
  induction k generalizing cur with
  | zero => exact fun e he => absurd he List.not_mem_nil
  | succ k ih =>
      rw [frames, cut_eq]
      have hcons {needle : Bytes} {i : Nat} (hn : needle.getLast? = some newline)
          (h : onesdkMemmem cur needle = some i) :
          ∀ e ∈ cur.take (i + needle.length) :: (frames eventEnds k (cur.drop (i + needle.length))).1,
            e.getLast? = some newline := by
        intro e he
        rcases List.mem_cons.mp he with rfl | he
        · exact (memmem_block hn h).1
        · exact ih _ e he
      cases hlong : onesdkMemmem cur crlfcrlf with
      | some i => exact hcons rfl hlong
      | none =>
          cases hshort : onesdkMemmem cur lflf with
          | some i => exact hcons rfl hshort
          | none => exact fun e he => absurd he List.not_mem_nil

theorem blocksOf_newline (t : Bytes) (cs : List Bytes) : ∀ e ∈ blocksOf t cs, e.getLast? = some newline := by
  induction cs generalizing t with
  | nil => exact fun e he => absurd he List.not_mem_nil
  | cons c cs ih =>
      intro e he
      rcases List.mem_append.mp he with he | he
      · exact frames_newline _ _ e he
      · exact ih _ e he

theorem parseBlock_view {e : Bytes} (he : e.getLast? = some newline) (hs : (parseBlock e).stray = false) :
    view (parseBlock e) = viewFrom (0, 0) e := by
  have hfields := parseSseMessage_fields emptySse he []
  rw [List.append_nil] at hfields
  rw [parseBlock, hfields hs, view_fields rfl]
  rfl

/-- However a stream arrives, each event is handed over as it reads alone just when the
parser stays within its arrays in all of them and no length of a field stays behind. What
is handed over is what the listener gets. -/
theorem isolated_iff (http : RequestContext) (cb : Callback) (cs : List Bytes) :
    (Isolated cs ↔
      (∀ e ∈ blocksOf [] cs, Sound e) ∧ NothingStale eventName (blocksOf [] cs) ∧
        NothingStale dataName (blocksOf [] cs)) ∧
      delivered (readAll (listening http cb) cs).2 = (handedAll emptySse cs).map (fun p => p.2.payload) := by
  refine ⟨?_, readAll_handed (listening_listens http cb) cs⟩
  have hands : Hands (handedAll emptySse cs) emptySse (receiveAll emptySse cs) (blocksOf [] cs) :=
    handedAll_hands emptySse cs
  have hstray : (receiveAll emptySse cs).stray = false ↔ ∀ e ∈ blocksOf [] cs, Sound e := by
    rw [hands.stray, emptySse, Bool.false_or, List.any_eq_false]
    refine forall₂_congr fun e he => ?_
    rw [Bool.not_eq_true]
    exact sound_iff (blocksOf_newline [] cs e he)
  have hviews (hsane : (receiveAll emptySse cs).stray = false) :
      (∀ p ∈ handedAll emptySse cs, view p.2 = view (parseBlock p.1)) ↔
        views (0, 0) (blocksOf [] cs) = (blocksOf [] cs).map (viewFrom (0, 0)) := by
    have hseen : (handedAll emptySse cs).map (fun p => view p.2) = views (0, 0) (blocksOf [] cs) := hands.seen hsane
    have halone : (blocksOf [] cs).map (viewFrom (0, 0)) =
        (handedAll emptySse cs).map (fun p => view (parseBlock p.1)) := by
      have hmap : (handedAll emptySse cs).map (fun p => view (parseBlock p.1)) =
          (blocksOf [] cs).map (fun e => view (parseBlock e)) := by
        rw [← hands.bytes, List.map_map]
        rfl
      rw [hmap]
      apply List.map_congr_left
      intro e he
      have hend := blocksOf_newline [] cs e he
      exact (parseBlock_view hend ((sound_iff hend).mpr (hstray.mp hsane e he))).symm
    rw [← hseen, halone]
    exact List.map_inj_left.symm
  rw [← views_alone_iff, ← hstray]
  constructor
  · intro h
    have hsane : (receiveAll emptySse cs).stray = false := by
      by_contra hs
      obtain ⟨p, hp, hstray⟩ := hands.insane rfl (eq_true_of_ne_false hs)
      exact absurd ((h p hp).1.symm.trans hstray) (by decide)
    exact ⟨hsane, (hviews hsane).mp fun p hp => (h p hp).2⟩
  · rintro ⟨hsane, h⟩ p hp
    exact ⟨hands.sane hsane p hp, (hviews hsane).mpr h p hp⟩

/-- `"event: a\ndata: b\n\n"` and then `"data: c\n\n"` -/
def namedThenPlain : Bytes := text "event: a\ndata: b\n\ndata: c\n\n"

/-- The second event has no name, and still the length of the first one's. -/
theorem lengths_leak : ¬Isolated [namedThenPlain] := by
  intro h
  have hsecond := (h (handedAll emptySse [namedThenPlain])[1] (List.getElem_mem _)).2
  exact absurd hsecond (by decide +kernel)

end OneSdk.SseIsolation
