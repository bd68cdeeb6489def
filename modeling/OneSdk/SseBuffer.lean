import OneSdk.Blocks
import OneSdk.SseBounds
import OneSdk.SseIsolation

namespace OneSdk.SseBuffer

open CString HttpLibs HttpClient SseSplit SseFitting SseIsolation SseBounds Framing Chunking Blocks

/-- `sse_context_t` with all of its buffer. Its other fields are in `ctx`, together with the
part of the buffer that is in use, which the branch itself does not look at. -/
structure SseMemory where
  cells : Bytes
  usedLen : Nat
  ctx : SseContext
  deriving DecidableEq

def SseMemory.text (m : SseMemory) : Bytes := m.cells.take m.usedLen

def newSse : SseMemory := ⟨List.replicate sseBufferSize 0, 0, emptySse⟩

/-- How the loop over the buffer ends: with `cur_pos` at `pos`, after turns that began at the
positions of `trail`. -/
structure Drained where
  ctx : SseContext
  pos : Nat
  trail : List Nat
  events : List SseEvent
  deriving DecidableEq

def Drained.after (pos : Nat) (event : SseEvent) (d : Drained) : Drained :=
  { d with trail := pos :: d.trail, events := event :: d.events }

/-- The loop, for as many turns as the first argument allows, or none where it has not ended
by then or has read outside the buffer. -/
def drainLoop : Nat → SseMemory → Nat → Option Drained
  | 0, _, _ => none
  | k + 1, m, pos =>
      if m.usedLen ≤ pos then some ⟨m.ctx, pos, [], []⟩
      else
        (copyOut m.cells pos (toSize ((m.usedLen : Int) - pos))).bind (fun window =>
          match onesdkMemmem window crlfcrlf with
          | some i =>
              let ctx := parseSseMessage (clearEvent m.ctx) (m.cells.drop pos) (i + 4)
              (drainLoop k { m with ctx := ctx } (pos + i + 4)).map (Drained.after pos ctx.payload)
          | none =>
              match onesdkMemmem window lflf with
              | some i =>
                  let ctx := parseSseMessage (clearEvent m.ctx) (m.cells.drop pos) (i + 2)
                  (drainLoop k { m with ctx := ctx } (pos + i + 2)).map (Drained.after pos ctx.payload)
              | none => some ⟨clearEvent m.ctx, pos, [pos], []⟩)

structure Branch where
  memory : SseMemory
  accepted : Bytes
  trail : List Nat
  events : List SseEvent
  deriving DecidableEq

def fillBuffer (m : SseMemory) (accepted : Bytes) : Option SseMemory :=
  (copyString m.cells m.usedLen accepted 0).map (fun cells => ⟨cells, m.usedLen + accepted.length, m.ctx⟩)

def shiftBuffer (m : SseMemory) (pos : Nat) : Option SseMemory :=
  let remaining := toSize ((m.usedLen : Int) - pos)
  ((if 0 < remaining then move m.cells 0 pos remaining else some m.cells).bind (fun cells =>
    copyIn cells remaining [0])).map (fun cells => ⟨cells, remaining, { m.ctx with buffer := cells.take remaining }⟩)

/-- The branch for server-sent events, or none where it copies or moves bytes from or to a
place outside the buffer, or its loop takes more turns than the buffer has bytes. -/
def sseBranch (m : SseMemory) (chunk : Bytes) : Option Branch :=
  let accepted := chunk.take (toSize ((sseBufferSize : Int) - m.usedLen - 1))
  (fillBuffer m accepted).bind (fun m =>
    (drainLoop sseBufferSize m 0).bind (fun d =>
      (shiftBuffer { m with ctx := d.ctx } d.pos).map (fun m => ⟨m, accepted, d.trail, d.events⟩)))

/-- A request with the memory of its event context. The source does not keep what the branch
has accepted so far nor the positions of its loops. -/
structure Request where
  http : RequestContext
  memory : SseMemory
  accepted : Bytes
  trails : List (List Nat)
  deriving DecidableEq

def newRequest : Request := ⟨newHttpCtx, newSse, [], []⟩

def handle (s : Request) (reason : Reason) : Option Request :=
  let http := (callbackOnesdkHttp s.http reason).1
  match reason with
  | .read chunk =>
      if s.http.clientData.isSse then
        (sseBranch s.memory chunk).map (fun b => ⟨http, b.memory, s.accepted ++ b.accepted, s.trails ++ [b.trail]⟩)
      else some { s with http := http }
  | _ => some { s with http := http }

def handleAll (s : Request) (reasons : List Reason) : Option Request := reasons.foldlM handle s

structure Fitted (m : SseMemory) : Prop where
  size : m.cells.length = sseBufferSize
  used : m.usedLen ≤ sseBufferSize - 1
  closed : m.cells[m.usedLen]? = some 0

/-- What stays in the buffer is the end of what has been accepted, without a terminator of
events, and each loop has gone forward within the buffer. -/
structure Sound (s : Request) : Prop where
  fitted : Fitted s.memory
  suffix : s.memory.text <:+ s.accepted
  no_lflf : ¬lflf <:+: s.memory.text
  no_crlfcrlf : ¬crlfcrlf <:+: s.memory.text
  forward : ∀ trail ∈ s.trails, trail.Pairwise (· < ·) ∧ ∀ pos ∈ trail, pos < sseBufferSize
  context : s.http.clientData.sseCtx = s.memory.ctx
  buffer : s.memory.ctx.buffer = s.memory.text

section Terminator

variable {w r : Bytes} {n : Nat}

theorem cstr_take_terminated (w r : Bytes) (q : Nat) : cstr ((w ++ 0 :: r).take q) = cstr (w.take q) := by
  rcases Nat.lt_or_ge w.length q with hlt | hle
  · obtain ⟨d, rfl⟩ := Nat.exists_eq_add_of_lt hlt
    rw [Nat.add_assoc, List.take_length_add_append, List.take_succ_cons, cstr_terminated,
      List.take_of_length_le (by omega)]
  · rw [List.take_append_of_le_length hle]

theorem getD_terminated {i : Nat} (h : i < w.length) : (w ++ 0 :: r).getD i 0 = w.getD i 0 := by
  rw [List.getD_eq_getElem?_getD, List.getD_eq_getElem?_getD, List.getElem?_append_left h]

theorem splitKeyValue_terminated (hn : n ≤ w.length) (s : Parse) :
    splitKeyValue (w ++ 0 :: r) n s = splitKeyValue w n s := by
  rw [splitKeyValue, splitKeyValue, strchr, cstr_terminated, ← strchr]
  cases hc : (strchr 58 w).filter (· < n) with
  | none => rfl
  | some colon =>
      have hlt : colon < n := by simpa using (Option.filter_eq_some_iff.mp hc).2
      have htake : (w ++ 0 :: r).take colon = w.take colon := List.take_append_of_le_length (by omega)
      have hkey := (List.rdropWhile_prefix isspace (w.take colon)).length_le
      have hgap : ((w ++ 0 :: r).drop (colon + 1)).takeWhile isspace = (w.drop (colon + 1)).takeWhile isspace := by
        rw [List.drop_append_of_le_length (by omega), takeWhile_closed rfl]
      have hstart : colon + 1 + ((w.drop (colon + 1)).takeWhile isspace).length ≤ w.length := by
        have := (List.takeWhile_sublist isspace (l := w.drop (colon + 1))).length_le
        rw [List.length_drop] at this
        omega
      rw [List.length_take] at hkey
      dsimp only
      rw [htake, hgap, List.take_append_of_le_length (by omega), List.drop_append_of_le_length hstart,
        cstr_take_terminated]

theorem parseLine_terminated (hn : n ≤ w.length) (s : Parse) :
    parseLine (w ++ 0 :: r) n s = parseLine w n s := by
  rw [parseLine, parseLine, splitKeyValue_terminated hn]

theorem lineLength_terminated (hn : n ≤ w.length) : lineLength (w ++ 0 :: r) n = lineLength w n := by
  rw [lineLength, lineLength]
  by_cases hpos : 0 < n
  · rw [getD_terminated (by omega)]
  · rw [if_neg (fun h => hpos h.1), if_neg (fun h => hpos h.1)]

theorem parseLines_terminated (k : Nat) (hn : n ≤ w.length) (s : Parse) :
    parseLines k (w ++ 0 :: r) n s = parseLines k w n s := by
  induction k generalizing w n s with
  | zero => rfl
  | succ k ih =>
      have heol := eol_le w n
      rw [parseLines, parseLines, memchr, List.take_append_of_le_length hn, ← memchr]
      generalize (memchr newline n w).getD n = eol at heol ⊢
      have hlen := lineLength_le w eol
      rw [lineLength_terminated (by omega), parseLine_terminated (by omega)]
      generalize (if eol < n then eol + 1 else eol) = next
      by_cases hend : n ≤ next
      · rw [if_pos (.inl hend), if_pos (.inl hend)]
      · rw [getD_terminated (by omega), List.drop_append_of_le_length (by omega), ih (by rw [List.length_drop]; omega)]

theorem parseSseMessage_terminated (ctx : SseContext) (hn : n ≤ w.length) :
    parseSseMessage ctx (w ++ 0 :: r) n = parseSseMessage ctx w n := by
  rw [parseSseMessage, parseSseMessage, parseLines_terminated n hn]

end Terminator

section Loop

variable {m : SseMemory} {t rest : Bytes} {k pos : Nat}

theorem toSize_sub {a b : Nat} (ha : a < sizeValues) (hb : b ≤ a) : toSize ((a : Int) - b) = a - b := by
  have hsub : (a : Int) - b = ((a - b : Nat) : Int) := by omega
  rw [hsub, toSize_natCast (by omega)]

theorem window_eq (hcells : m.cells = t ++ 0 :: rest) (hused : m.usedLen = t.length) (hsize : t.length < sizeValues)
    (hpos : pos ≤ t.length) :
    copyOut m.cells pos (toSize ((m.usedLen : Int) - pos)) = some (t.drop pos) := by
  have hsplit : m.cells = t.take pos ++ t.drop pos ++ 0 :: rest := by rw [hcells, List.take_append_drop]
  have hlen : (t.take pos).length = pos := by
    rw [List.length_take]
    omega
  have hcopy := copyOut_append (t.take pos) (t.drop pos) (0 :: rest)
  rw [hlen, List.length_drop] at hcopy
  rw [hused, toSize_sub hsize hpos, hsplit]
  exact hcopy

theorem memory_eq (hcells : m.cells = t ++ 0 :: rest) (hpos : pos ≤ t.length) :
    m.cells.drop pos = t.drop pos ++ 0 :: rest := by
  rw [hcells, List.drop_append_of_le_length hpos]

theorem turn_found {needle : Bytes} {i : Nat} (hn : needle.getLast? = some newline) (hcells : m.cells = t ++ 0 :: rest)
    (hpos : pos ≤ t.length) (h : onesdkMemmem (t.drop pos) needle = some i) (ctx : SseContext) :
    pos + i + needle.length ≤ t.length ∧
      parseSseMessage ctx (m.cells.drop pos) (i + needle.length) = parseSseMessage ctx (t.drop pos)
        (i + needle.length) ∧
      (t.drop pos).drop (i + needle.length) = t.drop (pos + i + needle.length) := by
  have hlen := (memmem_block hn h).2
  rw [List.length_take, List.length_drop] at hlen
  refine ⟨by omega, ?_, by rw [List.drop_drop, Nat.add_assoc]⟩
  rw [memory_eq hcells hpos]
  apply parseSseMessage_terminated
  rw [List.length_drop]
  omega

structure Drains (t : Bytes) (out : SseContext × List SseEvent) (pos : Nat) (d : Drained) : Prop where
  ordered : d.trail.Pairwise (· < ·)
  within : ∀ p ∈ d.trail, pos ≤ p ∧ p < t.length
  inside : d.pos ≤ t.length
  context : { d.ctx with buffer := t.drop d.pos } = out.1
  events : d.events = out.2

theorem Drains.after {out : SseContext × List SseEvent} {d : Drained} {next : Nat} (h : Drains t out next d)
    (hlt : pos < next)
    (hpos : pos < t.length) (e : SseEvent) : Drains t (out.1, e :: out.2) pos (d.after pos e) where
  ordered := by
    apply List.Pairwise.cons _ h.ordered
    intro p hp
    have := (h.within p hp).1
    omega
  within := by
    intro p hp
    rcases List.mem_cons.mp hp with rfl | hp
    · exact ⟨Nat.le_refl _, hpos⟩
    · have := h.within p hp
      omega
  inside := h.inside
  context := h.context
  events := congrArg (e :: ·) h.events

theorem drains_found {needle : Bytes} {i n j : Nat} (hn : needle.getLast? = some newline) (hlen : needle.length = n)
    (hcells : m.cells = t ++ 0 :: rest) (hpos : pos ≤ t.length) (h : onesdkMemmem (t.drop pos) needle = some i)
    (hk : 0 < n) (hrest : ∀ ctx : SseContext, pos + i + n ≤ t.length →
      ∃ d, drainLoop k { m with ctx := ctx } (pos + i + n) = some d ∧
        Drains t (drain j (t.drop (pos + i + n)) ctx) (pos + i + n) d) :
    let ctx := parseSseMessage (clearEvent m.ctx) (m.cells.drop pos) (i + n)
    let sse := parseSseMessage (clearEvent m.ctx) (t.drop pos) (i + n)
    let out := drain j ((t.drop pos).drop (i + n)) sse
    ∃ d, (drainLoop k { m with ctx := ctx } (pos + i + n)).map (Drained.after pos ctx.payload) = some d ∧
      Drains t (out.1, sse.payload :: out.2) pos d := by
  subst hlen
  obtain ⟨hle, hparse, hdrop⟩ := turn_found hn hcells hpos h (clearEvent m.ctx)
  dsimp only
  rw [hparse, hdrop]
  obtain ⟨d, hd, hdrains⟩ := hrest (parseSseMessage (clearEvent m.ctx) (t.drop pos) (i + needle.length)) hle
  rw [hd]
  exact ⟨_, rfl, hdrains.after (by omega) (by omega) _⟩

theorem drainLoop_drains (k j : Nat) (hcells : m.cells = t ++ 0 :: rest) (hused : m.usedLen = t.length)
    (hsize : t.length < sizeValues) (hpos : pos ≤ t.length) (hk : t.length - pos < k) (hj : t.length - pos ≤ j) :
    ∃ d, drainLoop k m pos = some d ∧ Drains t (drain j (t.drop pos) m.ctx) pos d := by
  induction k generalizing m pos j with
  | zero => omega
  | succ k ih =>
      rw [drainLoop]
      by_cases hend : m.usedLen ≤ pos
      · have hnil : t.drop pos = [] := List.drop_eq_nil_of_le (by omega)
        have hdrain : drain j (t.drop pos) m.ctx = ({ m.ctx with buffer := t.drop pos }, []) := by
          cases j with
          | zero => rfl
          | succ j => rw [drain, if_pos hnil]
        rw [if_pos hend, hdrain]
        exact ⟨_, rfl, List.Pairwise.nil, by simp, hpos, rfl, rfl⟩
      · have hne : t.drop pos ≠ [] := by
          intro hnil
          have := List.drop_eq_nil_iff.mp hnil
          omega
        obtain ⟨j, rfl⟩ : ∃ j', j = j' + 1 := ⟨j - 1, by omega⟩
        rw [if_neg hend, drain, if_neg hne, window_eq hcells hused hsize hpos, Option.bind_some]
        cases hlong : onesdkMemmem (t.drop pos) crlfcrlf with
        | some i =>
            apply drains_found (n := 4) rfl rfl hcells hpos hlong (by decide)
            intro ctx hle
            exact ih j hcells hused hle (by omega) (by omega)
        | none =>
            cases hshort : onesdkMemmem (t.drop pos) lflf with
            | some i =>
                apply drains_found (n := 2) rfl rfl hcells hpos hshort (by decide)
                intro ctx hle
                exact ih j hcells hused hle (by omega) (by omega)
            | none =>
                refine ⟨_, rfl, List.pairwise_singleton _ _, ?_, hpos, rfl, rfl⟩
                intro p hp
                obtain rfl := List.mem_singleton.mp hp
                omega

end Loop

section Branch

variable {m : SseMemory} {t : Bytes}

structure Holds (m : SseMemory) (t : Bytes) : Prop where
  size : m.cells.length = sseBufferSize
  used : m.usedLen = t.length
  cells : ∃ rest, m.cells = t ++ 0 :: rest

theorem Holds.length_lt (h : Holds m t) : t.length < sseBufferSize := by
  obtain ⟨rest, hcells⟩ := h.cells
  rw [← h.size, hcells, List.length_append, List.length_cons]
  omega

theorem Holds.text (h : Holds m t) : m.text = t := by
  obtain ⟨rest, hcells⟩ := h.cells
  rw [SseMemory.text, hcells, h.used, List.take_left]

theorem Holds.fitted (h : Holds m t) : Fitted m := by
  have hlt := h.length_lt
  obtain ⟨rest, hcells⟩ := h.cells
  refine ⟨h.size, by rw [h.used]; omega, ?_⟩
  rw [hcells, h.used]
  simp

theorem Fitted.holds (h : Fitted m) : Holds m m.text := by
  have hsize : sseBufferSize = 15360 := rfl
  obtain ⟨hcells, hused, hclosed⟩ := h
  have hlt : m.usedLen < m.cells.length := by omega
  refine ⟨hcells, ?_, m.cells.drop (m.usedLen + 1), ?_⟩
  · rw [SseMemory.text, List.length_take]
    omega
  · rw [List.getElem?_eq_getElem hlt] at hclosed
    rw [← Option.some.inj hclosed, SseMemory.text, ← List.drop_eq_getElem_cons hlt, List.take_append_drop]

theorem fillBuffer_holds (h : Holds m t) {accepted : Bytes} (hroom : t.length + accepted.length < sseBufferSize) :
    ∃ m', fillBuffer m accepted = some m' ∧ Holds m' (t ++ accepted) ∧ m'.ctx = m.ctx := by
  obtain ⟨rest, hcells⟩ := h.cells
  have hprefix : t <+: m.cells := ⟨0 :: rest, hcells.symm⟩
  have hfree : t.length + accepted.length < m.cells.length := by rw [h.size]; exact hroom
  obtain ⟨rest', hcopy, hlen⟩ := copyString_room hprefix hfree 0
  refine ⟨⟨t ++ accepted ++ 0 :: rest', m.usedLen + accepted.length, m.ctx⟩, ?_,
    ⟨hlen.trans h.size, ?_, rest', rfl⟩, rfl⟩
  · rw [fillBuffer, h.used, hcopy]
    rfl
  · rw [List.length_append, h.used]

theorem copyString_move (p q rest : Bytes) :
    (if 0 < q.length then move (p ++ q ++ rest) 0 p.length q.length else some (p ++ q ++ rest)).bind
        (fun cells => copyIn cells q.length [0]) =
      copyString (p ++ q ++ rest) 0 q 0 := by
  rw [copyString, move, copyOut_append, Option.bind_some, Nat.zero_add]
  split
  · rfl
  next hnil =>
    obtain rfl : q = [] := List.length_eq_zero_iff.mp (by omega)
    rfl

theorem shiftBuffer_holds (h : Holds m t) {pos : Nat} (hpos : pos ≤ t.length) :
    ∃ m', shiftBuffer m pos = some m' ∧ Holds m' (t.drop pos) ∧ m'.ctx = { m.ctx with buffer := t.drop pos } := by
  have hlt := h.length_lt
  obtain ⟨rest, hcells⟩ := h.cells
  have hremaining : toSize ((m.usedLen : Int) - pos) = (t.drop pos).length := by
    rw [h.used, toSize_sub (by rw [sizeValues]; rw [sseBufferSize] at hlt; omega) hpos, List.length_drop]
  have hpre : (t.take pos).length = pos := by
    rw [List.length_take]
    omega
  have hsplit : m.cells = t.take pos ++ t.drop pos ++ 0 :: rest := by rw [hcells, List.take_append_drop]
  have hfree : ([] : Bytes).length + (t.drop pos).length < m.cells.length := by
    rw [h.size, List.length_drop, List.length_nil]
    omega
  obtain ⟨rest', hcopy, hlen⟩ := copyString_room List.nil_prefix hfree 0
  rw [List.nil_append, List.length_nil] at hcopy
  rw [List.nil_append] at hlen
  have hmove := copyString_move (t.take pos) (t.drop pos) (0 :: rest)
  rw [hpre, ← hsplit] at hmove
  refine ⟨⟨t.drop pos ++ 0 :: rest', (t.drop pos).length, { m.ctx with buffer := t.drop pos }⟩, ?_,
    ⟨hlen.trans h.size, rfl, rest', rfl⟩, rfl⟩
  rw [shiftBuffer, hremaining]
  dsimp only
  rw [hmove, hcopy, Option.map_some, List.take_left]

/-- What the branch does to a buffer that holds a text: it does what `receiveSse` says, stays
within the buffer and ends. -/
theorem sseBranch_spec (h : Fitted m) (hbuffer : m.ctx.buffer = m.text) (chunk : Bytes) :
    ∃ b, sseBranch m chunk = some b ∧ Fitted b.memory ∧ b.accepted = clip m.text chunk ∧
      b.trail.Pairwise (· < ·) ∧ (∀ pos ∈ b.trail, pos < sseBufferSize) ∧
      b.memory.ctx = (receiveSse m.ctx chunk).1 ∧ b.memory.ctx.buffer = b.memory.text ∧
      b.events = (receiveSse m.ctx chunk).2 := by
  have hholds := h.holds
  have hlt := hholds.length_lt
  have hclip : chunk.take (toSize ((sseBufferSize : Int) - m.usedLen - 1)) = clip m.text chunk := by
    have hnat : (sseBufferSize : Int) - m.usedLen - 1 = ((bufferSpace - m.text.length : Nat) : Int) := by
      rw [bufferSpace, hholds.used]
      omega
    rw [hnat, toSize_natCast (by rw [bufferSpace, sseBufferSize, sizeValues]; omega), clip]
  have hroom : m.text.length + (clip m.text chunk).length < sseBufferSize := by
    rw [clip, List.length_take, bufferSpace]
    omega
  obtain ⟨m₁, hfill, hholds₁, hctx₁⟩ := fillBuffer_holds hholds hroom
  have hlt₁ := hholds₁.length_lt
  obtain ⟨rest, hcells₁⟩ := hholds₁.cells
  obtain ⟨d, hd, hdrains⟩ := drainLoop_drains sseBufferSize (filled m.text chunk).length hcells₁ hholds₁.used
    (by rw [sizeValues]; rw [sseBufferSize] at hlt₁; omega) (Nat.zero_le _) (by omega) (Nat.le_refl _)
  obtain ⟨m₂, hshift, hholds₂, hctx₂⟩ := shiftBuffer_holds (m := { m₁ with ctx := d.ctx })
    ⟨hholds₁.size, hholds₁.used, hholds₁.cells⟩ hdrains.inside
  have hreceive : receiveSse m.ctx chunk = drain (filled m.text chunk).length (filled m.text chunk) m.ctx := by
    rw [receiveSse_filled, hbuffer]
  rw [List.drop_zero, hctx₁] at hdrains
  refine ⟨⟨m₂, clip m.text chunk, d.trail, d.events⟩, ?_, hholds₂.fitted, rfl, hdrains.ordered, ?_, ?_, ?_, ?_⟩
  · rw [sseBranch, hclip, hfill, Option.bind_some, hd, Option.bind_some, hshift]
    rfl
  · intro pos hp
    have := (hdrains.within pos hp).2
    omega
  · rw [hreceive, hctx₂]
    exact hdrains.context
  · rw [hctx₂, hholds₂.text]
  · rw [hreceive]
    exact hdrains.events

end Branch

theorem sound_start : Sound newRequest where
  fitted := ⟨List.length_replicate, Nat.zero_le _, by rw [newRequest, newSse]; decide +kernel⟩
  suffix := List.suffix_refl _
  no_lflf := by decide
  no_crlfcrlf := by decide
  forward := by simp [newRequest]
  context := rfl
  buffer := rfl

theorem receiveSse_open (sse : SseContext) (chunk : Bytes) :
    (receiveSse sse chunk).1.buffer <:+ sse.buffer ++ clip sse.buffer chunk ∧
      ¬lflf <:+: (receiveSse sse chunk).1.buffer ∧ ¬crlfcrlf <:+: (receiveSse sse chunk).1.buffer := by
  obtain ⟨hflat, -, hopen⟩ := segments_spec (D := eventEnds) (filled sse.buffer chunk)
  rw [receiveSse_buffer]
  refine ⟨⟨_, hflat⟩, not_infix_of_find (hopen.find_none (.inl rfl)), not_infix_of_find (hopen.find_none (.inr rfl))⟩

theorem Sound.read {s : Request} (h : Sound s) (chunk : Bytes) : ∃ s', handle s (.read chunk) = some s' ∧ Sound s' := by
  rw [handle]
  cases hsse : s.http.clientData.isSse with
  | false =>
      have hsame : (onRead s.http chunk).1.clientData.sseCtx = s.http.clientData.sseCtx := by
        rw [onRead_sseCtx, readSse, hsse]
        rfl
      exact ⟨_, rfl, { h with context := hsame.trans h.context }⟩
  | true =>
      obtain ⟨b, hb, hfitted, haccepted, hordered, hwithin, hctx, hbuffer, -⟩ := sseBranch_spec h.fitted h.buffer chunk
      obtain ⟨hsuffix, hlflf, hcrlf⟩ := receiveSse_open s.memory.ctx chunk
      have hcontext : (onRead s.http chunk).1.clientData.sseCtx = (receiveSse s.memory.ctx chunk).1 := by
        rw [onRead_sseCtx, readSse, hsse, h.context]
        rfl
      rw [← hctx, hbuffer, h.buffer, ← haccepted] at hsuffix
      rw [← hctx, hbuffer] at hlflf hcrlf
      rw [hb]
      refine ⟨_, rfl, hfitted, ?_, hlflf, hcrlf, ?_, hcontext.trans hctx.symm, hbuffer⟩
      · obtain ⟨u, hu⟩ := h.suffix
        obtain ⟨v, hv⟩ := hsuffix
        refine ⟨u ++ v, ?_⟩
        calc
          u ++ v ++ b.memory.text = u ++ (v ++ b.memory.text) := List.append_assoc _ _ _
          _ = u ++ s.memory.text ++ b.accepted := by rw [hv, List.append_assoc]
          _ = s.accepted ++ b.accepted := by rw [hu]
      · intro trail htrail
        rcases List.mem_append.mp htrail with hold | hnew
        · exact h.forward trail hold
        · rw [List.mem_singleton.mp hnew]
          exact ⟨hordered, hwithin⟩

theorem Sound.handle {s : Request} (h : Sound s) (reason : Reason) :
    ∃ s', SseBuffer.handle s reason = some s' ∧ Sound s' := by
  cases reason with
  | read chunk => exact h.read chunk
  | connectionError _ | appendHandshakeHeader _ | filterPreEstablish _ _ | established _ | closed =>
      exact ⟨_, rfl, { h with }⟩
  | completed =>
      have hsame : (onCompleted s.http).1.clientData = s.http.clientData := by
        rw [onCompleted]
        split <;> rfl
      exact ⟨_, rfl, { h with context := (congrArg ClientData.sseCtx hsame).trans h.context }⟩

/-- Whatever has happened to a request since it was made, the branch has kept to its buffer and
ended, and holds the end of what it has accepted, with no whole event in it. -/
theorem sse_buffer_sound (reasons : List Reason) : ∃ s, handleAll newRequest reasons = some s ∧ Sound s := by
  induction reasons using List.reverseRecOn with
  | nil => exact ⟨newRequest, rfl, sound_start⟩
  | append_singleton reasons reason ih =>
      obtain ⟨s, hs, hsound⟩ := ih
      obtain ⟨s', hs', hsound'⟩ := hsound.handle reason
      refine ⟨s', ?_, hsound'⟩
      rw [handleAll, List.foldlM_append, ← handleAll, hs]
      exact (Option.bind_some _ _).trans (by rw [List.foldlM_cons, hs']; rfl)

end OneSdk.SseBuffer
