import OneSdk.Chunking
import OneSdk.HttpClient
import OneSdk.SseTidy

namespace OneSdk.SseSplit

open CString HttpLibs HttpClient Framing Chunking SseTidy

theorem crlfcrlf_apart (k : Nat) (hpos : 0 < k) (hlt : k < crlfcrlf.length) (e : Bytes) (he : lflf <:+ e) :
    ¬crlfcrlf.take k <:+ e := by
  intro hk
  obtain rfl | rfl | rfl : k = 1 ∨ k = 2 ∨ k = 3 := by
    have hlt : k < 4 := hlt
    omega
  · exact absurd (List.suffix_of_suffix_length_le hk he (by decide)) (by decide)
  · exact absurd (List.suffix_of_suffix_length_le hk he (by decide)) (by decide)
  · exact absurd (List.suffix_of_suffix_length_le he hk (by decide)) (by decide)

def eventEnds : Delims UInt8 where
  short := lflf
  long := crlfcrlf
  short_pos := by decide
  long_pos := by decide
  apart := crlfcrlf_apart

def bufferSpace : Nat := sseBufferSize - 1

def delivered (calls : List Call) : List SseEvent :=
  calls.filterMap (fun call => match call with | .getSse _ event => some event | _ => none)

def FitsBuffer : RequestContext → List Bytes → Prop
  | _, [] => True
  | http, c :: cs =>
      http.clientData.sseCtx.buffer.length + c.length ≤ bufferSpace ∧
        FitsBuffer (callbackOnesdkHttp http (.read c)).1 cs

instance decidableFitsBuffer : (http : RequestContext) → (cs : List Bytes) → Decidable (FitsBuffer http cs)
  | _, [] => .isTrue trivial
  | http, c :: cs => @instDecidableAnd _ _ _ (decidableFitsBuffer (callbackOnesdkHttp http (.read c)).1 cs)

def listening (http : RequestContext) (cb : Callback) : RequestContext :=
  { http with clientData := { http.clientData with isSse := true, sseCtx := emptySse }, onGetSseCb := some cb }

def readAll (http : RequestContext) (cs : List Bytes) : RequestContext × List Call := service http (cs.map .read)

/-- However the stream is cut, the listener gets the same strings, and the parser keeps
to its arrays. -/
def SplitsAgree (http : RequestContext) (cb : Callback) (s : Bytes) : Prop :=
  ∀ cs ds : List Bytes, cs.flatten = s → ds.flatten = s →
    FitsBuffer (listening http cb) cs → FitsBuffer (listening http cb) ds →
    delivered (readAll (listening http cb) cs).2 = delivered (readAll (listening http cb) ds).2 ∧
      (readAll (listening http cb) cs).1.clientData.sseCtx.stray = false

theorem cut_eq (cur : Bytes) :
    cut eventEnds cur =
      match onesdkMemmem cur crlfcrlf with
      | some i => some (i + 4)
      | none => (onesdkMemmem cur lflf).map (· + 2) := by
  rw [onesdkMemmem_eq_find (by decide), onesdkMemmem_eq_find (by decide)]
  rfl

theorem memmem_block {needle cur : Bytes} {i : Nat} (hn : needle.getLast? = some newline)
    (h : onesdkMemmem cur needle = some i) :
    (cur.take (i + needle.length)).getLast? = some newline ∧
    (cur.take (i + needle.length)).length = i + needle.length := by
  have hne : needle ≠ [] := by
    rintro rfl
    exact absurd hn (by simp)
  rw [onesdkMemmem_eq_find hne] at h
  have hocc := find_some h
  have hlen := hocc.length_le
  have hpos := List.length_pos_iff.mpr hne
  rw [List.length_drop] at hlen
  obtain ⟨u, hu⟩ := suffix_of_occurrence hocc
  refine ⟨?_, by rw [List.length_take]; omega⟩
  rw [← hu, List.getLast?_append, hn]
  rfl

def DrainsAs (out : SseContext × List SseEvent) (stray : Bool) (blocks : List Bytes) (rest : Bytes) : Prop :=
  out.1.buffer = rest ∧ out.1.stray = (stray || blocks.any (fun e => (parseBlock e).stray)) ∧
    (out.1.stray = false → out.2 = blocks.map (fun e => (parseBlock e).payload))

theorem drainsAs_cons {needle cur : Bytes} {i : Nat} (hn : needle.getLast? = some newline)
    (h : onesdkMemmem cur needle = some i) (sse : SseContext) {out : SseContext × List SseEvent} {blocks : List Bytes}
    {rest : Bytes}
    (hout : DrainsAs out (parseSseMessage (clearEvent sse) cur (i + needle.length)).stray blocks rest) :
    DrainsAs (out.1, (parseSseMessage (clearEvent sse) cur (i + needle.length)).payload :: out.2) sse.stray
      (cur.take (i + needle.length) :: blocks) rest := by
  obtain ⟨hlast, hlen⟩ := memmem_block hn h
  have hclear : (clearEvent sse).payload = (none, none) := rfl
  obtain ⟨hstray, hpay⟩ := parseSseMessage_block hlast _ hclear (cur.drop (i + needle.length))
  rw [List.take_append_drop, hlen] at hstray hpay
  obtain ⟨hbuffer, hrest, hevents⟩ := hout
  refine ⟨hbuffer, ?_, fun hf => ?_⟩
  · rw [hrest, hstray, List.any_cons, Bool.or_assoc]
    rfl
  · have hf' := hf
    rw [hrest, Bool.or_eq_false_iff] at hf'
    rw [hevents hf, hpay hf'.1, List.map_cons]

theorem drain_frames (k : Nat) (cur : Bytes) (sse : SseContext) :
    DrainsAs (drain k cur sse) sse.stray (frames eventEnds k cur).1 (frames eventEnds k cur).2 := by
  induction k generalizing cur sse with
  | zero => exact ⟨rfl, by simp [drain, frames], fun _ => rfl⟩
  | succ k ih =>
      by_cases hnil : cur = []
      · subst hnil
        have hnone : frames eventEnds (k + 1) [] = ([], []) := rfl
        rw [hnone]
        exact ⟨rfl, by simp [drain], fun _ => rfl⟩
      · rw [drain, frames, cut_eq, if_neg hnil]
        cases hlong : onesdkMemmem cur crlfcrlf with
        | some i => exact drainsAs_cons rfl hlong sse (ih _ _)
        | none =>
            cases hshort : onesdkMemmem cur lflf with
            | some i => exact drainsAs_cons rfl hshort sse (ih _ _)
            | none => exact ⟨rfl, by simp [clearEvent], fun _ => rfl⟩

theorem receiveSse_fits (sse : SseContext) (body : Bytes) (h : sse.buffer.length + body.length ≤ bufferSpace) :
    receiveSse sse body = drain (sse.buffer ++ body).length (sse.buffer ++ body) sse := by
  have hroom : body.length ≤ sseBufferSize - sse.buffer.length - 1 := by
    rw [bufferSpace] at h
    omega
  rw [receiveSse, List.take_of_length_le hroom]

def Listens (http : RequestContext) (cb : Callback) : Prop :=
  http.clientData.isSse = true ∧ http.onGetSseCb = some cb

theorem delivered_readCalls {http : RequestContext} {cb : Callback} (h : http.onGetSseCb = some cb) (body : Bytes)
    (events : List SseEvent) : delivered (readCalls http body events) = events := by
  have hevents : delivered (events.map (Call.getSse cb)) = events := by
    rw [delivered, List.filterMap_map]
    exact List.filterMap_some
  have hbody : delivered (http.onGetBodyCb.elim [] (fun cb => [Call.getBody cb body])) = [] := by
    cases http.onGetBodyCb <;> rfl
  have hdownload : delivered (http.downloadCtx.elim [] (fun dl => [Call.downloadData dl body])) = [] := by
    cases http.downloadCtx <;> rfl
  rw [readCalls, h, delivered, List.filterMap_append, List.filterMap_append]
  rw [delivered] at hevents hbody hdownload
  rw [Option.elim_some, hevents, hbody, hdownload, List.append_nil, List.append_nil]

theorem read_sse {http : RequestContext} {cb : Callback} (h : Listens http cb) (body : Bytes) :
    Listens (onRead http body).1 cb ∧ (onRead http body).1.clientData.sseCtx =
      (receiveSse http.clientData.sseCtx body).1 ∧
      delivered (onRead http body).2 = (receiveSse http.clientData.sseCtx body).2 := by
  have hread : readSse http body = receiveSse http.clientData.sseCtx body := if_pos h.1
  refine ⟨?_, (onRead_sseCtx http body).trans (congrArg Prod.fst hread), ?_⟩
  · rw [onRead, keepBody]
    split
    · exact h
    · exact h
  · rw [onRead, hread]
    exact delivered_readCalls h.2 _ _

theorem read_drains {http : RequestContext} {cb : Callback} (h : Listens http cb) {c : Bytes}
    (hc : http.clientData.sseCtx.buffer.length + c.length ≤ bufferSpace) :
    DrainsAs ((onRead http c).1.clientData.sseCtx, delivered (onRead http c).2) http.clientData.sseCtx.stray
      (frames eventEnds (http.clientData.sseCtx.buffer ++ c).length (http.clientData.sseCtx.buffer ++ c)).1
      (frames eventEnds (http.clientData.sseCtx.buffer ++ c).length (http.clientData.sseCtx.buffer ++ c)).2 := by
  obtain ⟨-, hsse, hevents⟩ := read_sse h c
  rw [hsse, hevents, receiveSse_fits _ _ hc]
  exact drain_frames _ _ _

theorem fitsBuffer_iff {http : RequestContext} {cb : Callback} (h : Listens http cb) (cs : List Bytes) :
    FitsBuffer http cs ↔ Fits eventEnds bufferSpace http.clientData.sseCtx.buffer cs := by
  induction cs generalizing http with
  | nil => exact Iff.rfl
  | cons c cs ih =>
      refine and_congr_right (fun hc => ?_)
      rw [← (read_drains h hc).1]
      exact ih (read_sse h c).1

theorem readAll_drains {http : RequestContext} {cb : Callback} (h : Listens http cb) {cs : List Bytes}
    (hf : FitsBuffer http cs) :
    (readAll http cs).1.clientData.sseCtx.stray =
        (http.clientData.sseCtx.stray ||
          (received eventEnds http.clientData.sseCtx.buffer cs).any (fun e => (parseBlock e).stray)) ∧
      ((readAll http cs).1.clientData.sseCtx.stray = false →
        delivered (readAll http cs).2 =
          (received eventEnds http.clientData.sseCtx.buffer cs).map (fun e => (parseBlock e).payload)) := by
  induction cs generalizing http with
  | nil => exact ⟨by simp [readAll, service, received], fun _ => rfl⟩
  | cons c cs ih =>
      obtain ⟨hbuffer, hstray, hevents⟩ := read_drains h hf.1
      obtain ⟨hstray', hevents'⟩ := ih (read_sse h c).1 hf.2
      have hcalls : delivered (readAll http (c :: cs)).2 =
          delivered (onRead http c).2 ++ delivered (readAll (onRead http c).1 cs).2 := List.filterMap_append
      have hlast : (readAll http (c :: cs)).1 = (readAll (onRead http c).1 cs).1 := rfl
      rw [hlast, hcalls, received, List.any_append, List.map_append, ← hbuffer]
      refine ⟨?_, fun hf => ?_⟩
      · rw [hstray', hstray, Bool.or_assoc]
      · have hf' := hf
        rw [hstray', Bool.or_eq_false_iff] at hf'
        rw [hevents' hf]
        exact congrArg (· ++ _) (hevents hf'.1)

theorem block_newline {e : Bytes} (he : Block eventEnds e) : e.getLast? = some newline := by
  have hend := he.closed
  rw [ends, Bool.or_eq_true, decide_eq_true_eq, decide_eq_true_eq] at hend
  rcases hend with ⟨u, rfl⟩ | ⟨u, rfl⟩
  · rw [List.getLast?_append]
    rfl
  · rw [List.getLast?_append]
    rfl

theorem blocks_tidy {s : Bytes} (hN : Bounded bufferSpace (segments eventEnds s)) :
    (segments eventEnds s).1.any (fun e => (parseBlock e).stray) = false ↔ ∀ e ∈ (segments eventEnds s).1, Tidy e := by
  rw [List.any_eq_false]
  refine forall₂_congr (fun e he => ?_)
  have hsize : e.length < valueSize := Nat.lt_of_le_of_lt (hN.1 e he) (by decide)
  rw [parseBlock_tidy (block_newline ((segments_spec s).2.1 e he)) hsize]
  simp

/-- Events that the buffer can hold reach the listener alike however the stream is cut,
just when no two of them of different terminators fit in together, the one with the
carriage returns second, and the lines of all are tidy. -/
theorem splitsAgree_iff (http : RequestContext) (cb : Callback) (s : Bytes) :
    SplitsAgree http cb s ↔
      (Bounded bufferSpace (segments eventEnds s) →
        Separated eventEnds bufferSpace (segments eventEnds s).1 ∧ ∀ e ∈ (segments eventEnds s).1, Tidy e) := by
  have hlistens : Listens (listening http cb) cb := ⟨rfl, rfl⟩
  have hfits (cs : List Bytes) : FitsBuffer (listening http cb) cs ↔ Fits eventEnds bufferSpace [] cs :=
    fitsBuffer_iff hlistens cs
  constructor
  · intro h hN
    rw [← blocks_tidy hN, ← received_agree_iff (fun e => (parseBlock e).payload) (fun e => (parseBlock e).stray) s hN]
    intro cs ds hcs hds hfc hfd
    obtain ⟨hsame, hsane⟩ := h cs ds hcs hds ((hfits cs).mpr hfc) ((hfits ds).mpr hfd)
    have hsane' := (h ds ds hds hds ((hfits ds).mpr hfd) ((hfits ds).mpr hfd)).2
    obtain ⟨hstray, hevents⟩ := readAll_drains hlistens ((hfits cs).mpr hfc)
    have hevents' := (readAll_drains hlistens ((hfits ds).mpr hfd)).2
    exact ⟨(hevents hsane).symm.trans (hsame.trans (hevents' hsane')), hstray.symm.trans hsane⟩
  · intro h cs ds hcs hds hfc hfd
    have hN := (exists_fits_iff s).mp ⟨cs, hcs, (hfits cs).mp hfc⟩
    have hcond := h hN
    rw [← blocks_tidy hN] at hcond
    have hagree := (received_agree_iff (fun e => (parseBlock e).payload) (fun e => (parseBlock e).stray) s hN).mpr hcond
    obtain ⟨hsame, hsane⟩ := hagree cs ds hcs hds ((hfits cs).mp hfc) ((hfits ds).mp hfd)
    have hsane' := (hagree ds ds hds hds ((hfits ds).mp hfd) ((hfits ds).mp hfd)).2
    obtain ⟨hstray, hevents⟩ := readAll_drains hlistens hfc
    obtain ⟨hstray', hevents'⟩ := readAll_drains hlistens hfd
    have hc := hstray.trans hsane
    have hd := hstray'.trans hsane'
    exact ⟨(hevents hc).trans (hsame.trans (hevents' hd).symm), hc⟩

def eventA : Bytes := text "data: a" ++ lflf

def eventB : Bytes := text "data: b" ++ crlfcrlf

/-- In one READ the first event disappears in the second. -/
theorem mixed_terminators_disagree : ¬SplitsAgree newHttpCtx ⟨1, 0⟩ (eventA ++ eventB) := by
  intro h
  have hsame := (h [eventA ++ eventB] [eventA, eventB] rfl rfl (by decide) (by decide)).1
  exact absurd hsame (by decide)

end OneSdk.SseSplit
