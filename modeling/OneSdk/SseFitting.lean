import OneSdk.Crossing
import OneSdk.SseSplit

namespace OneSdk.SseFitting

open CString HttpLibs HttpClient Framing Chunking Crossing SseTidy SseSplit

def payloads (es : List Bytes) : List SseEvent := es.map (fun e => (parseBlock e).payload)

def eventsOf (s : Bytes) : List Bytes := (segments eventEnds s).1

/-- However the stream is cut, after some of its READs the listener has got every event
that fits into the buffer, each as it reads alone, with the parser within its arrays. -/
def DeliversFitting (http : RequestContext) (cb : Callback) (s : Bytes) : Prop :=
  ∀ cs : List Bytes, cs.flatten = s → ∃ pre post, cs = pre ++ post ∧
    (readAll (listening http cb) pre).1.clientData.sseCtx.stray = false ∧
    (payloads (fitting bufferSpace (eventsOf s))).Sublist (delivered (readAll (listening http cb) pre).2)

def readSize : Nat := 1024

def leading (es : List Bytes) : List Bytes := es.takeWhile (·.length ≤ bufferSpace)

/-- READs no longer than that buffer, none of which can bring the end of an event together
with more than there is room for. -/
structure SmallReads (cs : List Bytes) : Prop where
  reads : ∀ c ∈ cs, c.length ≤ readSize
  clear : ∀ e ∈ eventsOf cs.flatten, e.length + readSize ≤ bufferSpace + 1 ∨ bufferSpace < e.length
  separated : Separated eventEnds bufferSpace (leading (eventsOf cs.flatten))
  tidy : ∀ e ∈ leading (eventsOf cs.flatten), Tidy e

def clip (buffer c : Bytes) : Bytes := c.take (bufferSpace - buffer.length)

variable {http : RequestContext} {cb : Callback} {s : Bytes}

theorem receiveSse_clip (sse : SseContext) (c : Bytes) : receiveSse sse c = receiveSse sse (clip sse.buffer c) := by
  have hroom : sseBufferSize - sse.buffer.length - 1 = bufferSpace - sse.buffer.length := by
    rw [bufferSpace]
    omega
  rw [receiveSse, receiveSse, hroom, clip, List.take_take, Nat.min_self]

theorem readAll_append (cs ds : List Bytes) :
    readAll http (cs ++ ds) =
      ((readAll (readAll http cs).1 ds).1, (readAll http cs).2 ++ (readAll (readAll http cs).1 ds).2) := by
  rw [readAll, List.map_append, service_append]
  rfl

theorem readAll_listens (h : Listens http cb) (cs : List Bytes) : Listens (readAll http cs).1 cb := by
  induction cs generalizing http with
  | nil => exact h
  | cons c cs ih => exact ih (read_sse h c).1

theorem readAll_buffer (h : Listens http cb) (ho : Open eventEnds http.clientData.sseCtx.buffer) {cs : List Bytes}
    (hf : FitsBuffer http cs) :
    (readAll http cs).1.clientData.sseCtx.buffer =
      (segments eventEnds (http.clientData.sseCtx.buffer ++ cs.flatten)).2 := by
  induction cs generalizing http with
  | nil =>
      rw [List.flatten_nil, List.append_nil, segments_open ho]
      rfl
  | cons c cs ih =>
      have hbuffer := (read_drains h hf.1).1
      rw [frames_segments] at hbuffer
      have hi := ih (read_sse h c).1 (hbuffer ▸ (segments_spec _).2.2) hf.2
      rw [hbuffer] at hi
      rw [List.flatten_cons, ← List.append_assoc, segments_append (http.clientData.sseCtx.buffer ++ c)]
      exact hi

theorem readAll_clip (h : Listens http cb) (pre : List Bytes) (c : Bytes) {d : Bytes}
    (hd : clip (readAll http pre).1.clientData.sseCtx.buffer c = d) :
    (readAll http (pre ++ [c])).1.clientData.sseCtx = (readAll http (pre ++ [d])).1.clientData.sseCtx ∧
      delivered (readAll http (pre ++ [c])).2 = delivered (readAll http (pre ++ [d])).2 := by
  have hl := readAll_listens h pre
  obtain ⟨-, hsse, hevents⟩ := read_sse hl c
  obtain ⟨-, hsse', hevents'⟩ := read_sse hl d
  have hsame : receiveSse (readAll http pre).1.clientData.sseCtx c =
      receiveSse (readAll http pre).1.clientData.sseCtx d := by
    rw [receiveSse_clip, hd]
  have hone (b : Bytes) : readAll (readAll http pre).1 [b] =
      ((onRead (readAll http pre).1 b).1, (onRead (readAll http pre).1 b).2 ++ []) := rfl
  rw [readAll_append, readAll_append, hone, hone, List.append_nil, List.append_nil]
  refine ⟨hsse.trans (hsame ▸ hsse'.symm), ?_⟩
  have hsplit (x y : List Call) : delivered (x ++ y) = delivered x ++ delivered y := List.filterMap_append
  rw [hsplit, hsplit, hevents, hevents', hsame]

theorem listening_listens (http : RequestContext) (cb : Callback) : Listens (listening http cb) cb := ⟨rfl, rfl⟩

theorem readAll_received {cs : List Bytes} (hf : FitsBuffer (listening http cb) cs)
    (hs : Separated eventEnds bufferSpace (eventsOf cs.flatten)) :
    (readAll (listening http cb) cs).1.clientData.sseCtx.stray =
        (eventsOf cs.flatten).any (fun e => (parseBlock e).stray) ∧
      ((readAll (listening http cb) cs).1.clientData.sseCtx.stray = false →
        delivered (readAll (listening http cb) cs).2 = payloads (eventsOf cs.flatten)) := by
  have hl := listening_listens http cb
  have hfit : Fits eventEnds bufferSpace [] cs := (fitsBuffer_iff hl cs).mp hf
  have hr : received eventEnds [] cs = eventsOf cs.flatten := received_separated open_nil hfit hs
  obtain ⟨hstray, hevents⟩ := readAll_drains hl hf
  have hbuffer : (listening http cb).clientData.sseCtx.buffer = [] := rfl
  have hfalse : (listening http cb).clientData.sseCtx.stray = false := rfl
  rw [hbuffer, hr] at hstray hevents
  rw [hfalse, Bool.false_or] at hstray
  exact ⟨hstray, hevents⟩

/-- Every event that fits ends among the first bytes of the stream, as many as the
buffer holds; none that a bare newline pair ends comes before one that the carriage
returns end; and their lines are tidy. -/
structure Early (s : Bytes) : Prop where
  inTime : InTime bufferSpace 0 (eventsOf s)
  longFirst : LongFirst eventEnds (fitting bufferSpace (eventsOf s))
  tidy : ∀ e ∈ fitting bufferSpace (eventsOf s), Tidy e

theorem tidy_fitting (s : Bytes) {es : List Bytes} (hes : ∀ e ∈ es, e ∈ eventsOf s)
    (hlen : ∀ e ∈ es, e.length ≤ bufferSpace) :
    es.any (fun e => (parseBlock e).stray) = false ↔ ∀ e ∈ es, Tidy e := by
  rw [List.any_eq_false]
  refine forall₂_congr (fun e he => ?_)
  have hsize : e.length < valueSize := Nat.lt_of_le_of_lt (hlen e he) (by decide)
  rw [parseBlock_tidy (block_newline ((segments_spec s).2.1 e (hes e he))) hsize]
  simp

theorem mem_fitting {e : Bytes} {es : List Bytes} (h : e ∈ fitting bufferSpace es) :
    e ∈ es ∧ e.length ≤ bufferSpace := by
  rw [fitting, List.mem_filter, decide_eq_true_eq] at h
  exact h

theorem Early.delivered (h : Early s) {cs : List Bytes} (hf : FitsBuffer (listening http cb) cs)
    (hcs : eventsOf cs.flatten = fitting bufferSpace (eventsOf s)) :
    (readAll (listening http cb) cs).1.clientData.sseCtx.stray = false ∧
      delivered (readAll (listening http cb) cs).2 = payloads (fitting bufferSpace (eventsOf s)) := by
  obtain ⟨hstray, hevents⟩ := readAll_received hf (hcs ▸ h.longFirst.separated)
  rw [hcs] at hstray hevents
  have hfalse := hstray.trans ((tidy_fitting s (fun e he => (mem_fitting he).1)
    (fun e he => (mem_fitting he).2)).mpr h.tidy)
  exact ⟨hfalse, hevents hfalse⟩

theorem Early.delivers (h : Early s) : DeliversFitting http cb s := by
  rintro cs rfl
  have hl := listening_listens http cb
  rcases Nat.lt_or_ge bufferSpace cs.flatten.length with hover | hwithin
  · obtain ⟨pre, c, post, rfl, hpre, hc⟩ := exists_crossing (n := 0) (by simpa using hover) (Nat.zero_le bufferSpace)
    rw [Nat.zero_add] at hpre hc
    have hfits : Fits eventEnds bufferSpace [] pre := fits_of_length open_nil (by simpa using hpre)
    have hbuffer : (readAll (listening http cb) pre).1.clientData.sseCtx.buffer = (segments eventEnds pre.flatten).2 :=
      readAll_buffer hl open_nil ((fitsBuffer_iff hl pre).mpr hfits)
    obtain ⟨d, hd⟩ : ∃ d, clip (segments eventEnds pre.flatten).2 c = d := ⟨_, rfl⟩
    obtain ⟨rest, hrest⟩ : ∃ rest, c = d ++ rest := by
      rw [← hd, clip]
      exact ⟨_, (List.take_append_drop _ c).symm⟩
    have htail := congrArg List.length (segments_spec (D := eventEnds) pre.flatten).1
    rw [List.length_append] at htail
    have hdlen : d.length = min (bufferSpace - (segments eventEnds pre.flatten).2.length) c.length := by
      rw [← hd, clip, List.length_take]
    have hfitsAll : Fits eventEnds bufferSpace [] (pre ++ [d]) := by
      refine (fits_append open_nil pre [d]).mpr ⟨hfits, ?_, trivial⟩
      rw [List.nil_append]
      omega
    have hbounded : Bounded bufferSpace (segments eventEnds (pre ++ [d]).flatten) :=
      bounded_of_fits open_nil (Nat.zero_le bufferSpace) hfitsAll
    have hstream : (pre ++ c :: post).flatten = (pre ++ [d]).flatten ++ (rest ++ post.flatten) := by
      simp [hrest]
    have hlong : bufferSpace ≤ (pre ++ [d]).flatten.length := by
      simp only [List.flatten_append, List.length_append, List.flatten_cons, List.flatten_nil, List.length_nil]
      omega
    have hevents : eventsOf (pre ++ [d]).flatten = fitting bufferSpace (eventsOf (pre ++ c :: post).flatten) := by
      have hin := h.inTime
      rw [eventsOf, hstream] at hin
      rw [eventsOf, eventsOf, hstream, fitting_of_prefix hbounded.1 hlong hin]
    obtain ⟨hstray, hdelivered⟩ := h.delivered ((fitsBuffer_iff hl _).mpr hfitsAll) hevents
    obtain ⟨hsse, hsame⟩ := readAll_clip hl pre c (hbuffer ▸ hd)
    refine ⟨pre ++ [c], post, (List.append_cons pre c post), hsse ▸ hstray, ?_⟩
    rw [hsame, hdelivered]
  · have hwithin' : ([] : Bytes).length + cs.flatten.length ≤ bufferSpace := by rwa [List.length_nil, Nat.zero_add]
    have hfits : FitsBuffer (listening http cb) cs := (fitsBuffer_iff hl cs).mpr (fits_of_length open_nil hwithin')
    have hevents : eventsOf cs.flatten = fitting bufferSpace (eventsOf cs.flatten) :=
      (fitting_of_length ((flatten_segments_le _).trans hwithin)).symm
    obtain ⟨hstray, hdelivered⟩ := h.delivered hfits hevents
    refine ⟨cs, [], (List.append_nil cs).symm, hstray, ?_⟩
    rw [hdelivered]

theorem early_of_oversized (h : fitting bufferSpace (eventsOf s) = []) : Early s where
  inTime := inTime_of_oversized h
  longFirst := by
    rw [h]
    exact List.Pairwise.nil
  tidy := by
    rw [h]
    exact fun _ he => absurd he List.not_mem_nil

theorem early_of_single (hstray : (readAll (listening http cb) [s]).1.clientData.sseCtx.stray = false)
    (hsub : (payloads (fitting bufferSpace (eventsOf s))).Sublist (delivered (readAll (listening http cb) [s]).2)) :
    Early s := by
  have hl := listening_listens http cb
  obtain ⟨p, l, hp, hs⟩ : ∃ p l, clip [] s = p ∧ s = p ++ l := ⟨_, _, rfl, (List.take_append_drop _ s).symm⟩
  have hplen : p.length ≤ bufferSpace := by
    rw [← hp, clip, List.length_take]
    exact Nat.min_le_left _ _
  obtain ⟨hsse, hsame⟩ := readAll_clip hl [] s hp
  rw [List.nil_append, List.nil_append] at hsse hsame
  have hfits : FitsBuffer (listening http cb) [p] := ⟨by simpa [listening, emptySse] using hplen, trivial⟩
  obtain ⟨hstray', hevents⟩ := readAll_drains hl hfits
  have hmerged : received eventEnds (listening http cb).clientData.sseCtx.buffer [p] =
      merge eventEnds (eventsOf p) := by
    rw [received_cons, received, List.append_nil]
    rfl
  rw [hsse] at hstray
  have hflat := flatten_segments_le (D := eventEnds) p
  have hshort : (eventsOf p).flatten.length ≤ bufferSpace := hflat.trans hplen
  obtain ⟨later, hlater⟩ : ∃ later, eventsOf s = eventsOf p ++ later := by
    rw [eventsOf, hs, segments_append]
    exact ⟨_, rfl⟩
  have hfitting : fitting bufferSpace (eventsOf s) = eventsOf p ++ fitting bufferSpace later := by
    have hself := fitting_of_length hshort
    rw [fitting] at hself
    rw [hlater, fitting, List.filter_append, hself, fitting]
  rw [hsame, hevents hstray, hmerged, hfitting] at hsub
  have hcount := hsub.length_le
  have hmerge := merge_length_le (D := eventEnds) (eventsOf p)
  rw [payloads, List.length_map, List.length_map, List.length_append] at hcount
  have hnone : fitting bufferSpace later = [] := List.length_eq_zero_iff.mp (by omega)
  have hfirst : LongFirst eventEnds (eventsOf p) := longFirst_of_merge (by omega)
  rw [hnone, List.append_nil] at hfitting
  refine ⟨?_, hfitting ▸ hfirst, ?_⟩
  · rw [hlater]
    exact inTime_append.mpr ⟨inTime_of_length (by omega), inTime_of_oversized hnone⟩
  · rw [hfitting, ← tidy_fitting p (fun _ he => he)]
    · rw [hmerged, merge_separated hfirst.separated hshort] at hstray'
      exact (Bool.or_eq_false_iff.mp (hstray'.symm.trans hstray)).2
    · intro e he
      exact (List.sublist_flatten_of_mem he).length_le.trans hshort

theorem early_of_delivers (h : DeliversFitting http cb s) : Early s := by
  obtain ⟨pre, post, hsplit, hstray, hsub⟩ := h [s] List.flatten_singleton
  cases pre with
  | nil => exact early_of_oversized (List.map_eq_nil_iff.mp (List.sublist_nil.mp hsub))
  | cons c pre =>
      obtain ⟨rfl, hrest⟩ := List.cons_eq_cons.mp hsplit
      obtain ⟨rfl, -⟩ := List.append_eq_nil_iff.mp hrest.symm
      exact early_of_single hstray hsub

theorem readAll_full (h : Listens http cb) (ho : Open eventEnds http.clientData.sseCtx.buffer)
    (hfull : http.clientData.sseCtx.buffer.length = bufferSpace) (hsane : http.clientData.sseCtx.stray = false)
    (cs : List Bytes) : delivered (readAll http cs).2 = [] := by
  induction cs generalizing http with
  | nil => rfl
  | cons c cs ih =>
      have hclip : clip http.clientData.sseCtx.buffer c = [] := by rw [clip, hfull, Nat.sub_self, List.take_zero]
      obtain ⟨hl, hsse, hevents⟩ := read_sse h c
      obtain ⟨-, hsse', hevents'⟩ := read_sse h []
      rw [receiveSse_clip, hclip, ← hsse'] at hsse
      rw [receiveSse_clip, hclip, ← hevents'] at hevents
      have hdrains := read_drains h (c := []) (Nat.le_of_eq hfull)
      rw [List.append_nil, frames_segments, segments_open ho, ← hsse, ← hevents] at hdrains
      obtain ⟨hbuffer, hstray, hdrained⟩ := hdrains
      have hstray' : (onRead http c).1.clientData.sseCtx.stray = false := hstray.trans (by rw [hsane]; rfl)
      have hcalls : delivered (readAll http (c :: cs)).2 =
          delivered (onRead http c).2 ++ delivered (readAll (onRead http c).1 cs).2 := List.filterMap_append
      have hnone : delivered (onRead http c).2 = [] := hdrained hstray'
      rw [hcalls, hnone, ih hl (hbuffer ▸ ho) (hbuffer ▸ hfull) hstray', List.append_nil]

theorem readAll_events {cs : List Bytes} (hf : FitsBuffer (listening http cb) cs)
    (hs : Separated eventEnds bufferSpace (eventsOf cs.flatten)) (htidy : ∀ e ∈ eventsOf cs.flatten, Tidy e) :
    (readAll (listening http cb) cs).1.clientData.sseCtx.stray = false ∧
      delivered (readAll (listening http cb) cs).2 = payloads (eventsOf cs.flatten) := by
  have hfits := (fitsBuffer_iff (listening_listens http cb) cs).mp hf
  have hbounded : Bounded bufferSpace (segments eventEnds cs.flatten) :=
    bounded_of_fits open_nil (Nat.zero_le bufferSpace) hfits
  obtain ⟨hstray, hevents⟩ := readAll_received hf hs
  have hsane := (tidy_fitting cs.flatten (fun _ he => he) hbounded.1).mpr htidy
  exact ⟨hstray.trans hsane, hevents (hstray.trans hsane)⟩

theorem delivered_overrun {pre : List Bytes} {c tail : Bytes} (hpre : FitsBuffer (listening http cb) pre)
    (htail : (segments eventEnds pre.flatten).2 = tail) (hover : bufferSpace < tail.length + c.length)
    (ho : Open eventEnds ((tail ++ c).take bufferSpace)) (hs : Separated eventEnds bufferSpace (eventsOf pre.flatten))
    (htidy : ∀ e ∈ eventsOf pre.flatten, Tidy e) (post : List Bytes) :
    delivered (readAll (listening http cb) (pre ++ c :: post)).2 = payloads (eventsOf pre.flatten) := by
  have hl := listening_listens http cb
  have hfits : Fits eventEnds bufferSpace [] pre := (fitsBuffer_iff hl pre).mp hpre
  have hroom : tail.length ≤ bufferSpace := htail ▸ (bounded_of_fits open_nil (Nat.zero_le bufferSpace) hfits).2
  obtain ⟨d, hd⟩ : ∃ d, clip tail c = d := ⟨_, rfl⟩
  have hfull : (tail ++ c).take bufferSpace = tail ++ d := by
    rw [← hd, clip, List.take_append, List.take_of_length_le hroom]
  have hlength : (tail ++ d).length = bufferSpace := by
    rw [← hfull, List.length_take, List.length_append]
    omega
  rw [hfull] at ho
  have hfitsAll : FitsBuffer (listening http cb) (pre ++ [d]) := by
    refine (fitsBuffer_iff hl _).mpr ((fits_append open_nil pre [d]).mpr ⟨hfits, ?_, trivial⟩)
    rw [List.nil_append, htail, ← List.length_append, hlength]
  have hstream : segments eventEnds (pre ++ [d]).flatten = (eventsOf pre.flatten, tail ++ d) := by
    rw [List.flatten_append, List.flatten_singleton, segments_append, htail, segments_open ho, List.append_nil]
    rfl
  have hsame : eventsOf (pre ++ [d]).flatten = eventsOf pre.flatten := by rw [eventsOf, hstream]
  obtain ⟨hstray, hdelivered⟩ := readAll_events hfitsAll (hsame ▸ hs) (hsame ▸ htidy)
  have hbuffer : (readAll (listening http cb) (pre ++ [d])).1.clientData.sseCtx.buffer = tail ++ d :=
    (readAll_buffer hl open_nil hfitsAll).trans (congrArg Prod.snd hstream)
  obtain ⟨hsse, hcalls⟩ := readAll_clip hl pre c (d := d) (by
    rw [readAll_buffer hl open_nil hpre]
    exact htail ▸ hd)
  rw [← hsse] at hbuffer hstray
  have hlater := readAll_full (readAll_listens hl (pre ++ [c])) (hbuffer ▸ ho) (hbuffer ▸ hlength) hstray post
  have hsplit : delivered (readAll (listening http cb) (pre ++ c :: post)).2 =
      delivered (readAll (listening http cb) (pre ++ [c])).2 ++
        delivered (readAll (readAll (listening http cb) (pre ++ [c])).1 post).2 := by
    rw [List.append_cons, readAll_append]
    exact List.filterMap_append
  rw [hsplit, hlater, hcalls, hdelivered, hsame, List.append_nil]

/-- Small READs deliver the events before the first that does not fit, and nothing more. -/
theorem SmallReads.leads {cs : List Bytes} (h : SmallReads cs) :
    delivered (readAll (listening http cb) cs).2 = payloads (leading (eventsOf cs.flatten)) := by
  have hl := listening_listens http cb
  by_cases hfits : Fits eventEnds bufferSpace [] cs
  · have hbounded : Bounded bufferSpace (segments eventEnds cs.flatten) :=
      bounded_of_fits open_nil (Nat.zero_le bufferSpace) hfits
    have hall : leading (eventsOf cs.flatten) = eventsOf cs.flatten :=
      List.takeWhile_eq_self_iff.mpr fun e he => decide_eq_true (hbounded.1 e he)
    have hs := h.separated
    have htidy := h.tidy
    rw [hall] at hs htidy ⊢
    exact (readAll_events ((fitsBuffer_iff hl cs).mpr hfits) hs htidy).2
  · obtain ⟨pre, c, post, rfl, hpre, hover⟩ := exists_overflow open_nil hfits
    rw [List.nil_append] at hover
    have hc : c.length ≤ readSize := h.reads c (List.mem_append_right _ List.mem_cons_self)
    obtain ⟨tail, htail⟩ : ∃ tail, (segments eventEnds pre.flatten).2 = tail := ⟨_, rfl⟩
    have hopen : Open eventEnds tail := htail ▸ (segments_spec pre.flatten).2.2
    rw [htail] at hover
    have hevents : eventsOf (pre ++ c :: post).flatten =
        eventsOf pre.flatten ++ eventsOf (tail ++ (c ++ post.flatten)) := by
      rw [List.flatten_append, List.flatten_cons, eventsOf, segments_append, htail]
      rfl
    have hlong : ∀ e ∈ eventsOf (tail ++ (c ++ post.flatten)), tail.length < e.length → bufferSpace < e.length := by
      intro e he hbeyond
      rcases h.clear e (hevents ▸ List.mem_append_right _ he) with hshort | hlong
      · omega
      · exact hlong
    obtain ⟨htake, hnone⟩ := open_take hopen hlong
    rw [← List.append_assoc, List.take_append_of_le_length (by rw [List.length_append]; omega)] at htake
    have hpos : ∀ e ∈ eventsOf pre.flatten, decide (e.length ≤ bufferSpace) = true := fun e he =>
      decide_eq_true ((bounded_of_fits open_nil (Nat.zero_le bufferSpace) hpre).1 e he)
    have hleading : leading (eventsOf (pre ++ c :: post).flatten) = eventsOf pre.flatten := by
      rw [hevents, leading, List.takeWhile_append_of_pos hpos]
      exact (congrArg _ hnone).trans (List.append_nil _)
    rw [hleading]
    exact delivered_overrun ((fitsBuffer_iff hl pre).mpr hpre) htail hover htake (hleading ▸ h.separated)
      (hleading ▸ h.tidy) post

/-- However it is cut, a stream loses none of the events that fit exactly when they all
end early in it; a stream whose chunks fit loses none, wherever they end; and of one that
comes in small READs those are lost that come after one that does not fit. -/
theorem deliversFitting_iff (http : RequestContext) (cb : Callback) (s : Bytes) :
    (DeliversFitting http cb s ↔ Early s) ∧
      ∀ cs : List Bytes, cs.flatten = s →
        (FitsBuffer (listening http cb) cs → Separated eventEnds bufferSpace (eventsOf s) →
          (∀ e ∈ eventsOf s, Tidy e) → delivered (readAll (listening http cb) cs).2 = payloads (eventsOf s)) ∧
        (SmallReads cs → delivered (readAll (listening http cb) cs).2 = payloads (leading (eventsOf s)) ∧
          ((payloads (fitting bufferSpace (eventsOf s))).Sublist (delivered (readAll (listening http cb) cs).2) ↔
            (eventsOf s).Pairwise fun e later => bufferSpace < e.length → bufferSpace < later.length)) := by
  refine ⟨⟨early_of_delivers, Early.delivers⟩, ?_⟩
  rintro cs rfl
  refine ⟨fun hf hs htidy => (readAll_events hf hs htidy).2, fun h => ⟨h.leads, ?_⟩⟩
  rw [h.leads, ← fitting_eq_takeWhile, ← leading]
  have hsub : (leading (eventsOf cs.flatten)).Sublist (fitting bufferSpace (eventsOf cs.flatten)) :=
    takeWhile_sublist_filter _
  refine ⟨fun hdelivered => ?_, fun heq => heq ▸ List.Sublist.refl _⟩
  have hlength := hdelivered.length_le
  rw [payloads, payloads, List.length_map, List.length_map] at hlength
  exact (hsub.eq_of_length_le hlength).symm

instance (s : Bytes) : Decidable (Early s) :=
  decidable_of_iff (InTime bufferSpace 0 (eventsOf s) ∧ LongFirst eventEnds (fitting bufferSpace (eventsOf s)) ∧
    ∀ e ∈ fitting bufferSpace (eventsOf s), Tidy e) ⟨fun h => ⟨h.1, h.2.1, h.2.2⟩, fun h => ⟨h.1, h.2, h.3⟩⟩

theorem delivers_eventB_eventA :
    DeliversFitting newHttpCtx ⟨1, 0⟩ (eventB ++ eventA) ∧
      delivered (readAll (listening newHttpCtx ⟨1, 0⟩) [eventB, eventA]).2 = payloads (eventsOf (eventB ++ eventA)) ∧
      (payloads (fitting bufferSpace (eventsOf (eventB ++ eventA)))).Sublist
        (delivered (readAll (listening newHttpCtx ⟨1, 0⟩) [eventB, eventA]).2) := by
  obtain ⟨hstream, hreads⟩ := deliversFitting_iff newHttpCtx ⟨1, 0⟩ (eventB ++ eventA)
  obtain ⟨hfitting, hsmall⟩ := hreads [eventB, eventA] rfl
  have hevents : eventsOf [eventB, eventA].flatten = [eventB, eventA] := by decide +kernel
  have htidy : ∀ e ∈ [eventB, eventA], Tidy e := by decide +kernel
  refine ⟨hstream.mpr (by decide +kernel), hfitting (by decide) (by decide +kernel) (by decide +kernel), ?_⟩
  refine (hsmall ⟨by decide, ?_, ?_, ?_⟩).2.mpr (by decide +kernel)
  · rw [hevents]
    decide
  · rw [hevents]
    decide
  · rw [hevents]
    exact htidy

def oversized : Bytes := List.replicate 15360 120 ++ lflf

theorem ends_of_count {l : Bytes} (h : l.count newline ≤ 1) : ends eventEnds l = false := by
  have htwice {d : Bytes} (hd : d.count newline = 2) : ¬d <:+ l := by
    intro hsuf
    have := hsuf.sublist.count_le newline
    omega
  rw [ends, Bool.or_eq_false_iff, decide_eq_false_iff_not, decide_eq_false_iff_not]
  exact ⟨htwice rfl, htwice rfl⟩

theorem block_oversized : Block eventEnds oversized where
  closed := by
    rw [ends, Bool.or_eq_true]
    exact .inl (decide_eq_true (List.suffix_append _ _))
  first k hk := by
    apply ends_of_count
    have hsplit : oversized = (List.replicate 15360 120 ++ [newline]) ++ [newline] := by
      rw [List.append_assoc]
      rfl
    have hsnoc (l : Bytes) : (l ++ [newline]).length = l.length + 1 := List.length_append
    have hlen := congrArg List.length hsplit
    rw [hsnoc] at hlen
    rw [hsplit, List.take_append_of_le_length (by omega)]
    refine ((List.take_sublist _ _).count_le newline).trans ?_
    rw [List.count_append, List.count_replicate]
    decide

theorem block_eventA : Block eventEnds eventA := ⟨by decide +kernel, by decide +kernel⟩

theorem not_delivers_after {e : Bytes} (he : Block eventEnds e) (hlen : bufferSpace < e.length) :
    ¬DeliversFitting http cb (e ++ eventA) := by
  intro h
  have hin := (early_of_delivers h).inTime
  rw [eventsOf, segments_pair he block_eventA] at hin
  have hlate : 0 + e.length + eventA.length ≤ bufferSpace := hin.2.1 (by decide)
  omega

theorem oversized_blocks : ¬DeliversFitting newHttpCtx ⟨1, 0⟩ (oversized ++ eventA) := by
  apply not_delivers_after block_oversized
  rw [oversized, List.length_append, List.length_replicate]
  decide

end OneSdk.SseFitting
