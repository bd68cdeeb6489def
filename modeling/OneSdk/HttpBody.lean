import OneSdk.Blocks
import OneSdk.SseIsolation

namespace OneSdk.HttpBody

open ErrorCode CString HttpLibs HttpClient SseSplit SseFitting SseIsolation Framing Chunking Blocks

/-- `response_body` with the whole of its block, and `body_size`. -/
structure Body where
  block : Option Bytes
  size : Nat
  deriving DecidableEq

def Body.text (b : Body) : Option Bytes := b.block.map (fun block => block.take b.size)

/-- The last part of the branch for a body that is kept. The second component is what the
callback returns; it is none when the block is freed in use or written past its end. -/
def receiveChunk (junk : Nat → UInt8) (b : Body) (chunk : Bytes) : Option (Body × Int) :=
  if b.block = none ∧ b.size = 0 then
    (copyString (List.replicate (chunk.length + 1) 0) 0 chunk 0).map (fun block =>
      (⟨some block, chunk.length⟩, volcOk))
  else
    let currLen := toInt b.size
    let newLen := toInt (b.size + chunk.length)
    if maxBodySize < newLen then some (b, volcErrHttpRecvTooLarge)
    -- as a size the number is out of reach, and `realloc` fails
    else if newLen + 1 < 0 then some (b, volcErrHttpMallocFailed)
    -- `realloc` to no size at all frees the block
    else if newLen + 1 = 0 then none
    else if currLen < 0 then none
    else
      ((copyIn (resize junk (b.block.getD []) (newLen + 1).toNat) currLen.toNat chunk).bind (fun block =>
        copyIn block newLen.toNat [0])).map (fun block => (⟨some block, newLen.toNat⟩, volcOk))

structure Reading where
  http : RequestContext
  body : Body

def Reading.request (s : Reading) : RequestContext :=
  setResponse s.http { s.http.response with responseBody := s.body.text, bodySize := s.body.size }

def readChunk (junk : Nat → UInt8) (s : Reading) (chunk : Bytes) : Option (Reading × Int) :=
  let http := setSse s.http (readSse s.http chunk).1
  if s.http.isAsyncRequest ∧ ¬300 < s.http.response.errorCode then some (⟨http, s.body⟩, volcOk)
  else (receiveChunk junk s.body (readBytes s.http chunk)).map (fun p => (⟨http, p.1⟩, p.2))

def readChunks (junk : Nat → UInt8) (s : Reading) (cs : List Bytes) : Option Reading :=
  cs.foldlM (fun s c => (readChunk junk s c).map Prod.fst) s

structure KeptRequest where
  http : RequestContext
  kept : http.isAsyncRequest = true → 300 < http.response.errorCode
  buffer_empty : http.clientData.sseCtx.buffer = []

def KeptRequest.start (r : KeptRequest) : Reading := ⟨r.http, ⟨none, 0⟩⟩

def Body.Holds (b : Body) (text : Bytes) : Prop := b.block = some (text ++ [0]) ∧ b.size = text.length

/-- While the limit allows it the body is all chunks, the chunk that goes over the limit is
refused, and the size never exceeds the limit. -/
structure Accumulates (junk : Nat → UInt8) (s : Reading) (cs : List Bytes) : Prop where
  joins : ∀ p c, p ++ [c] <+: cs → (p ++ [c]).flatten.length ≤ maxBodySize →
    ∃ s₁ s₂, readChunks junk s p = some s₁ ∧ readChunk junk s₁ c = some (s₂, volcOk) ∧
      s₂.body.Holds (p ++ [c]).flatten
  refuses : ∀ p c, p ++ [c] <+: cs → p.flatten.length ≤ maxBodySize → maxBodySize < (p ++ [c]).flatten.length →
    ∃ s₁ s₂ code, readChunks junk s p = some s₁ ∧ readChunk junk s₁ c = some (s₂, code) ∧
      code ≠ volcOk ∧ s₂.body = s₁.body
  limited : ∀ p, p <+: cs → ∃ s', readChunks junk s p = some s' ∧ s'.body.size ≤ maxBodySize

/-- The length that is too long does not pass for one that is not. -/
def Seen (n : Nat) : Prop := maxBodySize < n → toInt n < -1 ∨ maxBodySize < toInt n

def grown (k : Nat) (c : Bytes) : Nat := if k + c.length ≤ maxBodySize then k + c.length else k

def AllSeen : Nat → List Bytes → Prop
  | _, [] => True
  | k, c :: cs => Seen (k + c.length) ∧ AllSeen (grown k c) cs

variable {junk : Nat → UInt8} {b : Body} {s : Reading} {t c : Bytes} {cs ds : List Bytes} {n : Nat}

theorem receiveChunk_first (c : Bytes) :
    receiveChunk junk ⟨none, 0⟩ c = some (⟨some (c ++ [0]), c.length⟩, volcOk) := by
  have hcopy := copyString_append [] (List.replicate c.length 0) [] c 0 0 List.length_replicate
  have hblock : List.replicate (c.length + 1) (0 : UInt8) = [] ++ List.replicate c.length 0 ++ [0] :=
    List.replicate_succ'
  rw [receiveChunk, if_pos ⟨rfl, rfl⟩, hblock]
  exact congrArg (Option.map _) hcopy

theorem Body.Holds.set (h : b.Holds t) : ¬(b.block = none ∧ b.size = 0) := fun hnone => by
  have hblock := h.1.symm.trans hnone.1
  exact absurd hblock (by simp)

theorem receiveChunk_fits (junk : Nat → UInt8) (h : b.Holds t) (hroom : t.length + c.length ≤ maxBodySize) :
    ∃ b', receiveChunk junk b c = some (b', volcOk) ∧ b'.Holds (t ++ c) := by
  have hmax : maxBodySize = 10240 := rfl
  have hnew : toInt (b.size + c.length) = (t.length + c.length : Nat) := by
    rw [h.2, toInt_short (by omega)]
  have hcurr : toInt b.size = t.length := by
    rw [h.2, toInt_short (by omega)]
  have hsize : (((t.length + c.length : Nat) : Int) + 1).toNat = t.length + c.length + 1 := by omega
  have hprefix : t <+: resize junk (t ++ [0]) (t.length + c.length + 1) :=
    prefix_resize junk (List.prefix_append _ _) (by omega)
  have hlen := resize_length junk (t ++ [0]) (t.length + c.length + 1)
  have hfree : t.length + c.length < (resize junk (t ++ [0]) (t.length + c.length + 1)).length := by omega
  obtain ⟨rest, hcopy, hrest⟩ := copyString_room hprefix hfree 0
  have hnil : rest = [] := by
    rw [hlen] at hrest
    simp only [List.length_append, List.length_cons] at hrest
    exact List.length_eq_zero_iff.mp (by omega)
  subst hnil
  refine ⟨⟨some (t ++ c ++ [0]), t.length + c.length⟩, ?_, rfl, by rw [List.length_append]⟩
  rw [receiveChunk, if_neg h.set, hnew, hcurr, if_neg (by omega), if_neg (by omega), if_neg (by omega),
    if_neg (by omega), h.1, Option.getD_some, hsize, Int.toNat_natCast, Int.toNat_natCast]
  exact congrArg (Option.map _) hcopy

theorem receiveChunk_over (junk : Nat → UInt8) (h : b.Holds t) (hover : maxBodySize < t.length + c.length)
    (hseen : Seen (t.length + c.length)) :
    ∃ code, receiveChunk junk b c = some (b, code) ∧ code ≠ volcOk := by
  rw [receiveChunk, if_neg h.set, h.2]
  dsimp only
  rcases hseen hover with hneg | hlarge
  · refine ⟨volcErrHttpMallocFailed, ?_, by decide⟩
    rw [if_neg (by omega), if_pos (by omega)]
  · exact ⟨volcErrHttpRecvTooLarge, if_pos hlarge, by decide⟩

/-- Where the sum wraps, the block is freed or the chunk is written past its end. -/
theorem receiveChunk_unseen (h : b.Holds t) (ht : t.length ≤ maxBodySize) (hunseen : ¬Seen (t.length + c.length)) :
    receiveChunk junk b c = none := by
  obtain ⟨hover, hwrap⟩ := Classical.not_imp.mp hunseen
  obtain ⟨hge, hle⟩ := not_or.mp hwrap
  have hmax : maxBodySize = 10240 := rfl
  have hmod : toInt (t.length + c.length) ≤ ((t.length + c.length : Nat) : Int) - 2 ^ 32 := by
    rw [toInt] at hge hle ⊢
    split at hle <;> omega
  rw [receiveChunk, if_neg h.set, h.2]
  dsimp only
  generalize toInt (t.length + c.length) = newLen at hge hle hmod ⊢
  rw [if_neg hle, if_neg (by omega)]
  by_cases hfree : newLen + 1 = 0
  · exact if_pos hfree
  · have hcurr : toInt t.length = t.length := toInt_short (by omega)
    have hshort : (resize junk (b.block.getD []) (newLen + 1).toNat).length < t.length + c.length := by
      rw [resize_length]
      omega
    rw [if_neg hfree, hcurr, if_neg (by omega), Int.toNat_natCast, copyIn_none hshort]
    rfl

theorem readChunks_cons (s : Reading) (c : Bytes) (cs : List Bytes) :
    readChunks junk s (c :: cs) = (readChunk junk s c).bind (fun p => readChunks junk p.1 cs) := by
  rw [readChunks, List.foldlM_cons]
  cases readChunk junk s c <;> rfl

theorem readBytes_plain {http : RequestContext} (h : http.clientData.isSse = false) (c : Bytes) :
    readBytes http c = c := by
  rw [readBytes, h]
  rfl

theorem readBytes_short {http : RequestContext} (h : http.clientData.sseCtx.buffer.length + c.length ≤ maxBodySize) :
    readBytes http c = c := by
  have hmax : maxBodySize = 10240 := rfl
  have hsize : sseBufferSize = 15360 := rfl
  rw [readBytes]
  split
  · exact List.take_of_length_le (by omega)
  · rfl

theorem readBytes_long {http : RequestContext} (hbuffer : http.clientData.sseCtx.buffer.length ≤ n)
    (hn : n ≤ maxBodySize)
    (hover : maxBodySize < n + c.length) : maxBodySize < n + (readBytes http c).length := by
  have hmax : maxBodySize = 10240 := rfl
  have hsize : sseBufferSize = 15360 := rfl
  rw [readBytes]
  split
  · rw [List.length_take]
    omega
  · exact hover

theorem readBytes_seen (http : RequestContext) (hn : n ≤ maxBodySize)
    (hseen : http.clientData.isSse = true ∨ Seen (n + c.length)) :
    Seen (n + (readBytes http c).length) := by
  have hmax : maxBodySize = 10240 := rfl
  have hsize : sseBufferSize = 15360 := rfl
  by_cases hsse : http.clientData.isSse = true
  · have hshort : (readBytes http c).length ≤ 15360 := by
      rw [readBytes, if_pos hsse, List.length_take]
      omega
    intro hover
    right
    rw [toInt_short (by omega)]
    omega
  · rw [readBytes_plain (by simpa using hsse)]
    exact hseen.resolve_left hsse

structure Running (s : Reading) (t : Bytes) : Prop where
  kept : s.http.isAsyncRequest = true → 300 < s.http.response.errorCode
  holds : s.body.Holds t
  limited : t.length ≤ maxBodySize

def Behind (s : Reading) (t : Bytes) : Prop := s.http.clientData.sseCtx.buffer.length ≤ t.length

def afterChunk (s : Reading) (c : Bytes) (b : Body) : Reading := ⟨setSse s.http (readSse s.http c).1, b⟩

theorem readChunk_kept (h : s.http.isAsyncRequest = true → 300 < s.http.response.errorCode) (c : Bytes) :
    readChunk junk s c = (receiveChunk junk s.body (readBytes s.http c)).map (fun p => (afterChunk s c p.1, p.2)) :=
  if_neg (fun hasync => hasync.2 (h hasync.1))

theorem afterChunk_buffer (s : Reading) (c : Bytes) (b : Body) :
    (afterChunk s c b).http.clientData.sseCtx.buffer.length ≤ s.http.clientData.sseCtx.buffer.length + c.length := by
  change (readSse s.http c).1.buffer.length ≤ _
  rw [readSse]
  split
  · have hflat := congrArg List.length
      (segments_spec (D := eventEnds) (filled s.http.clientData.sseCtx.buffer c)).1
    rw [receiveSse_buffer]
    rw [List.length_append, filled, List.length_append, clip, List.length_take] at hflat
    rw [filled, clip]
    omega
  · exact Nat.le_add_right _ _

theorem Running.fits (junk : Nat → UInt8) (h : Running s t) (hbehind : Behind s t)
    (hroom : t.length + c.length ≤ maxBodySize) :
    ∃ s', readChunk junk s c = some (s', volcOk) ∧ Running s' (t ++ c) ∧ Behind s' (t ++ c) ∧
      s'.http.clientData.isSse = s.http.clientData.isSse := by
  obtain ⟨b', hreceive, hholds⟩ := receiveChunk_fits junk h.holds hroom
  have hbytes : readBytes s.http c = c := readBytes_short (by rw [Behind] at hbehind; omega)
  refine ⟨afterChunk s c b', ?_, ⟨h.kept, hholds, by rw [List.length_append]; exact hroom⟩, ?_, rfl⟩
  · rw [readChunk_kept h.kept, hbytes, hreceive]
    rfl
  · have hbuffer := afterChunk_buffer s c b'
    rw [Behind] at hbehind ⊢
    rw [List.length_append]
    omega

theorem Running.over (junk : Nat → UInt8) (h : Running s t)
    (hover : maxBodySize < t.length + (readBytes s.http c).length)
    (hseen : Seen (t.length + (readBytes s.http c).length)) :
    ∃ code, readChunk junk s c = some (afterChunk s c s.body, code) ∧ code ≠ volcOk := by
  obtain ⟨code, hreceive, hcode⟩ := receiveChunk_over junk h.holds hover hseen
  refine ⟨code, ?_, hcode⟩
  rw [readChunk_kept h.kept, hreceive]
  rfl

theorem Running.step (junk : Nat → UInt8) (h : Running s t)
    (hseen : s.http.clientData.isSse = true ∨ Seen (t.length + c.length)) :
    ∃ s' code t', readChunk junk s c = some (s', code) ∧ Running s' t' ∧
      s'.http.clientData.isSse = s.http.clientData.isSse ∧
      (s.http.clientData.isSse = false → t'.length = grown t.length c) := by
  have hbytes := readBytes_seen s.http h.limited hseen
  by_cases hroom : t.length + (readBytes s.http c).length ≤ maxBodySize
  · obtain ⟨b', hreceive, hholds⟩ := receiveChunk_fits junk h.holds hroom
    refine ⟨afterChunk s c b', volcOk, t ++ readBytes s.http c, ?_, ⟨h.kept, hholds, ?_⟩, rfl, fun hplain => ?_⟩
    · rw [readChunk_kept h.kept, hreceive]
      rfl
    · rw [List.length_append]
      exact hroom
    · rw [readBytes_plain hplain] at hroom ⊢
      rw [grown, if_pos hroom, List.length_append]
  · obtain ⟨code, hread, -⟩ := h.over junk (Nat.not_le.mp hroom) hbytes
    refine ⟨_, code, t, hread, ⟨h.kept, h.holds, h.limited⟩, rfl, fun hplain => ?_⟩
    rw [readBytes_plain hplain] at hroom
    rw [grown, if_neg hroom]

theorem Body.Holds.text (h : b.Holds t) : b.text = some t := by
  rw [Body.text, h.1, h.2, Option.map_some, List.take_left]

theorem Running.onRead_request {s' : Reading} {code : Int} (h : Running s t)
    (hseen : s.http.clientData.isSse = true ∨ Seen (t.length + c.length))
    (hread : readChunk junk s c = some (s', code)) :
    (onRead s.request c).1 = s'.request := by
  have hbytes := readBytes_seen s.http h.limited hseen
  have hkeep : (onRead s.request c).1 = setResponse (setSse s.request (readSse s.http c).1)
      (receiveBody s.request.response (readBytes s.http c)).1 :=
    if_neg (fun hasync => hasync.2 (h.kept hasync.1))
  have hresponse : s.request.response = { s.http.response with responseBody := some t, bodySize := t.length } := by
    rw [Reading.request, h.holds.text, h.holds.2]
    rfl
  rw [hkeep, receiveBody, hresponse, if_neg (fun hnone => absurd hnone.1 (by simp))]
  by_cases hroom : t.length + (readBytes s.http c).length ≤ maxBodySize
  · obtain ⟨b', hreceive, hholds⟩ := receiveChunk_fits junk h.holds hroom
    rw [readChunk_kept h.kept, hreceive] at hread
    obtain ⟨rfl, -⟩ := Prod.mk.inj (Option.some.inj hread)
    rw [if_neg (Nat.not_lt.mpr hroom), Reading.request, Reading.request, afterChunk, hholds.text, hholds.2,
      List.length_append]
    rfl
  · obtain ⟨code', hread', -⟩ := h.over junk (Nat.not_le.mp hroom) hbytes
    obtain ⟨rfl, -⟩ := Prod.mk.inj (Option.some.inj (hread.symm.trans hread'))
    rw [if_pos (Nat.not_le.mp hroom), Reading.request, Reading.request, afterChunk, h.holds.text, h.holds.2]
    rfl

theorem Running.run (junk : Nat → UInt8) (h : Running s t)
    (hseen : s.http.clientData.isSse = true ∨ AllSeen t.length cs) :
    ∃ s' t', readChunks junk s cs = some s' ∧ Running s' t' ∧ (readAll s.request cs).1 = s'.request := by
  induction cs generalizing s t with
  | nil => exact ⟨s, t, rfl, h, rfl⟩
  | cons c cs ih =>
      obtain ⟨s', code, t', hread, hrun, hsse, hgrown⟩ := h.step junk (hseen.imp_right And.left)
      have hrequest : (readAll s.request (c :: cs)).1 = (readAll s'.request cs).1 := by
        rw [← h.onRead_request (hseen.imp_right And.left) hread]
        rfl
      rw [readChunks_cons, hread, hrequest]
      apply ih hrun
      rw [hsse]
      cases hplain : s.http.clientData.isSse with
      | true => exact .inl rfl
      | false =>
          rw [hplain] at hseen
          rw [hgrown hplain]
          exact .inr (hseen.resolve_left (by simp)).2

theorem Running.run_fits (junk : Nat → UInt8) (cs : List Bytes) (h : Running s t) (hbehind : Behind s t)
    (hroom : t.length + cs.flatten.length ≤ maxBodySize) :
    ∃ s', readChunks junk s cs = some s' ∧ Running s' (t ++ cs.flatten) ∧ Behind s' (t ++ cs.flatten) ∧
      s'.http.clientData.isSse = s.http.clientData.isSse := by
  induction cs generalizing s t with
  | nil =>
      rw [List.flatten_nil, List.append_nil]
      exact ⟨s, rfl, h, hbehind, rfl⟩
  | cons c cs ih =>
      rw [List.flatten_cons, List.length_append] at hroom
      obtain ⟨s₁, hread, hrun, hnext, hsse⟩ := h.fits junk hbehind (c := c) (by omega)
      obtain ⟨s', hreads, hrun', hnext', hsse'⟩ := ih hrun hnext (by rw [List.length_append]; omega)
      rw [List.append_assoc, ← List.flatten_cons] at hrun' hnext'
      refine ⟨s', ?_, hrun', hnext', hsse'.trans hsse⟩
      rw [readChunks_cons, hread]
      exact hreads

theorem Running.allSeen (h : Running s t) (hplain : s.http.clientData.isSse = false)
    (hsome : ∀ p, p <+: cs → ∃ s', readChunks junk s p = some s') : AllSeen t.length cs := by
  induction cs generalizing s t with
  | nil => exact trivial
  | cons c cs ih =>
      have hseen : Seen (t.length + c.length) := by
        apply Classical.byContradiction
        intro hunseen
        obtain ⟨s', hs'⟩ := hsome [c] ⟨cs, rfl⟩
        rw [readChunks_cons, readChunk_kept h.kept, readBytes_plain hplain,
          receiveChunk_unseen h.holds h.limited hunseen] at hs'
        exact absurd hs' (by simp)
      obtain ⟨s', code, t', hread, hrun, hsse, hgrown⟩ := h.step junk (.inr hseen)
      refine ⟨hseen, ?_⟩
      rw [← hgrown hplain]
      apply ih hrun (hsse.trans hplain)
      intro p hp
      obtain ⟨s'', hs''⟩ := hsome (c :: p) (List.cons_prefix_cons.mpr ⟨rfl, hp⟩)
      rw [readChunks_cons, hread] at hs''
      exact ⟨s'', hs''⟩

theorem allSeen_prefix {k : Nat} (h : AllSeen k (cs ++ ds)) : AllSeen k cs := by
  induction cs generalizing k with
  | nil => exact trivial
  | cons c cs ih => exact ⟨h.1, ih h.2⟩

theorem allSeen_at {k : Nat} (h : AllSeen k cs) (hp : ds ++ [c] <+: cs) (hroom : k + ds.flatten.length ≤ maxBodySize) :
    Seen (k + ds.flatten.length + c.length) := by
  induction ds generalizing k cs with
  | nil =>
      obtain ⟨q, rfl⟩ := hp
      exact h.1
  | cons d ds ih =>
      obtain ⟨q, rfl⟩ := hp
      rw [List.flatten_cons, List.length_append] at hroom ⊢
      have hgrown : grown k d = k + d.length := if_pos (by omega)
      have hrest := ih h.2 ⟨q, rfl⟩ (by rw [hgrown]; omega)
      rw [hgrown] at hrest
      rwa [← Nat.add_assoc]

section Start

variable {r : KeptRequest}

theorem start_first (junk : Nat → UInt8) (r : KeptRequest) (c : Bytes) :
    readChunk junk r.start c =
      some (afterChunk r.start c ⟨some (readBytes r.http c ++ [0]), (readBytes r.http c).length⟩, volcOk) := by
  have hreceive : receiveChunk junk r.start.body (readBytes r.http c) = _ := receiveChunk_first (readBytes r.http c)
  have hread := @readChunk_kept junk r.start r.kept c
  exact hread.trans (congrArg (Option.map _) hreceive)

theorem start_onRead_request {s' : Reading} {code : Int} (hread : readChunk junk r.start c = some (s', code)) :
    (onRead r.start.request c).1 = s'.request := by
  have hkeep : (onRead r.start.request c).1 = setResponse (setSse r.start.request (readSse r.http c).1)
      (receiveBody r.start.request.response (readBytes r.http c)).1 :=
    if_neg (fun hasync => hasync.2 (r.kept hasync.1))
  have hholds : Body.Holds ⟨some (readBytes r.http c ++ [0]), (readBytes r.http c).length⟩
    (readBytes r.http c) := ⟨rfl, rfl⟩
  rw [start_first junk] at hread
  obtain ⟨rfl, -⟩ := Prod.mk.inj (Option.some.inj hread)
  have hnone : r.start.request.response.responseBody = none ∧ r.start.request.response.bodySize = 0 := ⟨rfl, rfl⟩
  rw [hkeep, receiveBody, if_pos hnone, Reading.request, Reading.request, afterChunk, hholds.text]
  rfl

theorem start_fits (junk : Nat → UInt8) (r : KeptRequest) (hfit : c.length ≤ maxBodySize) :
    ∃ s, readChunk junk r.start c = some (s, volcOk) ∧ Running s c ∧ Behind s c ∧
      s.http.clientData.isSse = r.http.clientData.isSse := by
  have hbytes : readBytes r.http c = c := by
    apply readBytes_short
    rw [r.buffer_empty]
    simpa using hfit
  have hread := start_first junk r c
  rw [hbytes] at hread
  refine ⟨_, hread, ⟨r.kept, ⟨rfl, rfl⟩, hfit⟩, ?_, rfl⟩
  have hbuffer := afterChunk_buffer r.start c ⟨some (c ++ [0]), c.length⟩
  have hempty : r.start.http.clientData.sseCtx.buffer = [] := r.buffer_empty
  rwa [hempty, List.length_nil, Nat.zero_add] at hbuffer

theorem start_over (junk : Nat → UInt8) (r : KeptRequest) (hlong : maxBodySize < c.length) :
    ∃ s, readChunks junk r.start [c] = some s ∧ maxBodySize < s.body.size := by
  have hbuffer : r.http.clientData.sseCtx.buffer.length ≤ 0 := by rw [r.buffer_empty]; rfl
  have hbytes : maxBodySize < 0 + (readBytes r.http c).length :=
    readBytes_long hbuffer (Nat.zero_le _) (by rwa [Nat.zero_add])
  rw [Nat.zero_add] at hbytes
  have hread := start_first junk r c
  refine ⟨afterChunk r.start c ⟨some (readBytes r.http c ++ [0]), (readBytes r.http c).length⟩, ?_, hbytes⟩
  rw [readChunks_cons, hread]
  rfl

theorem readChunks_first {code : Int} (hread : readChunk junk r.start c = some (s, code)) (ds : List Bytes) :
    readChunks junk r.start (c :: ds) = readChunks junk s ds := by
  rw [readChunks_cons, hread]
  rfl

theorem grown_first (hfit : c.length ≤ maxBodySize) : grown 0 c = c.length := by
  rw [grown, Nat.zero_add, if_pos hfit]

theorem Accumulates.fit (h : Accumulates junk r.start (c :: cs)) : c.length ≤ maxBodySize := by
  apply Nat.le_of_not_lt
  intro hlong
  obtain ⟨s, hs, hsize⟩ := start_over junk r hlong
  obtain ⟨s', hs', hlimit⟩ := h.limited [c] ⟨cs, rfl⟩
  rw [Option.some.inj (hs.symm.trans hs')] at hsize
  omega

theorem Accumulates.allSeen (h : Accumulates junk r.start (c :: cs)) (hplain : r.http.clientData.isSse = false) :
    AllSeen 0 (c :: cs) := by
  have hfit := h.fit
  obtain ⟨s, hread, hrun, -, hsse⟩ := start_fits junk r hfit
  refine ⟨fun hover => by omega, ?_⟩
  rw [grown_first hfit]
  apply hrun.allSeen (hsse.trans hplain)
  intro p hp
  obtain ⟨s', hs', -⟩ := h.limited (c :: p) (List.cons_prefix_cons.mpr ⟨rfl, hp⟩)
  rw [readChunks_first hread] at hs'
  exact ⟨s', hs'⟩

theorem Running.joins (junk : Nat → UInt8) (h : Running s t) (hbehind : Behind s t) (p : List Bytes) (d : Bytes)
    (hroom : t.length + p.flatten.length + d.length ≤ maxBodySize) :
    ∃ s₁ s₂, readChunks junk s p = some s₁ ∧ readChunk junk s₁ d = some (s₂, volcOk) ∧
      s₂.body.Holds (t ++ p.flatten ++ d) := by
  obtain ⟨s₁, hs₁, hrun₁, hbehind₁, -⟩ := h.run_fits junk p hbehind (by omega)
  obtain ⟨s₂, hs₂, hrun₂, -⟩ := hrun₁.fits junk hbehind₁ (c := d) (by rw [List.length_append]; exact hroom)
  exact ⟨s₁, s₂, hs₁, hs₂, hrun₂.holds⟩

theorem Running.refuses (junk : Nat → UInt8) (h : Running s t) (hbehind : Behind s t)
    (hseen : s.http.clientData.isSse = true ∨ AllSeen t.length cs) {p : List Bytes} {d : Bytes} (hp : p ++ [d] <+: cs)
    (hbelow : t.length + p.flatten.length ≤ maxBodySize)
    (habove : maxBodySize < t.length + p.flatten.length + d.length) :
    ∃ s₁ s₂ code, readChunks junk s p = some s₁ ∧ readChunk junk s₁ d = some (s₂, code) ∧
      code ≠ volcOk ∧ s₂.body = s₁.body := by
  obtain ⟨s₁, hs₁, hrun₁, hbehind₁, hsse₁⟩ := h.run_fits junk p hbehind hbelow
  have hlater : s₁.http.clientData.isSse = true ∨ Seen ((t ++ p.flatten).length + d.length) := by
    rw [hsse₁, List.length_append]
    exact hseen.imp_right (fun h => allSeen_at h hp hbelow)
  have hover : maxBodySize < (t ++ p.flatten).length + d.length := by
    rw [List.length_append]
    exact habove
  obtain ⟨code, hs₂, hcode⟩ := hrun₁.over junk (readBytes_long hbehind₁ hrun₁.limited hover)
    (readBytes_seen s₁.http hrun₁.limited hlater)
  exact ⟨s₁, _, code, hs₁, hs₂, hcode, rfl⟩

theorem accumulates_of_fit (hfit : c.length ≤ maxBodySize)
    (hseen : r.http.clientData.isSse = true ∨ AllSeen 0 (c :: cs)) :
    Accumulates junk r.start (c :: cs) := by
  obtain ⟨s, hread, hrun, hbehind, hsse⟩ := start_fits junk r hfit
  have hrest : s.http.clientData.isSse = true ∨ AllSeen c.length cs := by
    rw [hsse, ← grown_first hfit]
    exact hseen.imp_right And.right
  have htotal (p : List Bytes) (d : Bytes) : (c :: p ++ [d]).flatten = c ++ p.flatten ++ d := by simp
  refine ⟨?_, ?_, ?_⟩
  · intro p d hp hroom
    cases p with
    | nil =>
        obtain ⟨rfl, -⟩ := List.cons_prefix_cons.mp hp
        rw [List.nil_append, List.flatten_singleton]
        exact ⟨r.start, s, rfl, hread, hrun.holds⟩
    | cons c' p =>
        obtain ⟨rfl, -⟩ := List.cons_prefix_cons.mp hp
        rw [htotal, List.length_append, List.length_append] at hroom
        rw [htotal, readChunks_first hread]
        exact hrun.joins junk hbehind p d hroom
  · intro p d hp hbelow habove
    cases p with
    | nil =>
        obtain ⟨rfl, -⟩ := List.cons_prefix_cons.mp hp
        rw [List.nil_append, List.flatten_singleton] at habove
        omega
    | cons c' p =>
        obtain ⟨rfl, hp'⟩ := List.cons_prefix_cons.mp hp
        rw [List.flatten_cons, List.length_append] at hbelow
        rw [htotal, List.length_append, List.length_append] at habove
        rw [readChunks_first hread]
        exact hrun.refuses junk hbehind hrest hp' hbelow habove
  · intro p hp
    cases p with
    | nil => exact ⟨r.start, rfl, Nat.zero_le _⟩
    | cons c' p =>
        obtain ⟨rfl, q, rfl⟩ := List.cons_prefix_cons.mp hp
        obtain ⟨s', t', hs', hrun', -⟩ := hrun.run junk (hrest.imp_right allSeen_prefix)
        refine ⟨s', (readChunks_first hread p).trans hs', ?_⟩
        rw [hrun'.holds.2]
        exact hrun'.limited

/-- As long as the first chunk keeps to the limit and the lengths do not wrap, the other modules
know the request as the blocks have it. -/
theorem readChunks_request (junk : Nat → UInt8) (r : KeptRequest) (hfirst : ∀ c ∈ cs.head?, c.length ≤ maxBodySize)
    (hseen : r.http.clientData.isSse = true ∨ AllSeen 0 cs) :
    ∃ s, readChunks junk r.start cs = some s ∧ (readAll r.start.request cs).1 = s.request := by
  cases cs with
  | nil => exact ⟨r.start, rfl, rfl⟩
  | cons c cs =>
      have hfit := hfirst c rfl
      obtain ⟨s₁, hread, hrun, -, hsse⟩ := start_fits junk r hfit
      have hrest : s₁.http.clientData.isSse = true ∨ AllSeen c.length cs := by
        rw [hsse, ← grown_first hfit]
        exact hseen.imp_right And.right
      obtain ⟨s, t, hs, -, hrequest⟩ := hrun.run junk hrest
      refine ⟨s, (readChunks_first hread cs).trans hs, ?_⟩
      rw [← hrequest, ← start_onRead_request hread]
      rfl

/-- The body is accumulated as it should be just when its first chunk keeps to the limit and no
later chunk is so long that the sum of the lengths wraps around to one that is allowed. -/
theorem accumulates_iff (junk : Nat → UInt8) (r : KeptRequest) (cs : List Bytes) :
    Accumulates junk r.start cs ↔
      (∀ c ∈ cs.head?, c.length ≤ maxBodySize) ∧ (r.http.clientData.isSse = true ∨ AllSeen 0 cs) := by
  cases cs with
  | nil =>
      have hnone (p : List Bytes) (c : Bytes) : ¬p ++ [c] <+: [] := by simp
      refine ⟨fun _ => ⟨by simp, .inr trivial⟩, fun _ => ⟨?_, ?_, ?_⟩⟩
      · exact fun p c hp => absurd hp (hnone p c)
      · exact fun p c hp => absurd hp (hnone p c)
      · intro p hp
        rw [List.prefix_nil.mp hp]
        exact ⟨r.start, rfl, Nat.zero_le _⟩
  | cons c cs =>
      constructor
      · intro h
        refine ⟨by simpa using h.fit, ?_⟩
        cases hplain : r.http.clientData.isSse with
        | true => exact .inl rfl
        | false => exact .inr (h.allSeen hplain)
      · rintro ⟨hfirst, hseen⟩
        exact accumulates_of_fit (hfirst c rfl) hseen

def plainRequest : KeptRequest where
  http := newHttpCtx
  kept := by simp [newHttpCtx]
  buffer_empty := rfl

theorem first_chunk_unchecked : ¬Accumulates (fun _ => 0) plainRequest.start [List.replicate 10241 97] := by
  intro h
  have hlong : maxBodySize < (List.replicate 10241 (97 : UInt8)).length := by
    rw [List.length_replicate]
    decide
  obtain ⟨s, hs, hsize⟩ := start_over (fun _ => 0) plainRequest hlong
  obtain ⟨s', hs', hlimit⟩ := h.limited _ (List.prefix_refl _)
  rw [Option.some.inj (hs.symm.trans hs')] at hsize
  omega

end Start

end OneSdk.HttpBody
