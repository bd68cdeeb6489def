import OneSdk.HttpClient

namespace OneSdk.DownloadFile

open CString HttpClient HttpLibs

/-- `file_fd` and `downloaded_size`, with the file at `file_path` and how often a stream on
it has been opened and closed. -/
structure Download where
  file : Option Bytes
  fileFd : Bool
  downloadedSize : Nat
  opened : Nat
  closed : Nat
  deriving DecidableEq

def lwsHttpDownloadInit (old : Option Bytes) : Download := ⟨old, false, 0, 0, 0⟩

/-- One chunk of the body, whether `fopen` would succeed on it and how many bytes `fwrite` takes. -/
structure Read where
  body : Bytes
  opens : Bool
  written : Nat

def fwrite (d : Download) (data : Bytes) (written : Nat) : Download :=
  { d with file := some (d.file.getD [] ++ data.take written), downloadedSize := d.downloadedSize + data.length }

/-- `_internal_download_handle`. The mode `wb+` empties the file. -/
def internalDownloadHandle (r : Read) (d : Download) (data : Bytes) : Download :=
  if data = [] then d
  else if d.fileFd = true then fwrite d data r.written
  else if r.opens = true then fwrite { d with file := some [], fileFd := true, opened := d.opened + 1 } data r.written
  else d

def closeFile (d : Download) : Download :=
  if d.fileFd = true then { d with fileFd := false, closed := d.closed + 1 } else d

def internalDownloadComplete (d : Download) : Download := closeFile d

def internalDownloadError (d : Download) : Download := closeFile d

def lwsHttpDownloadDeinit (d : Download) : Download := closeFile d

def onCall (r : Read) (d : Download) : Call → Download
  | .downloadData _ data => internalDownloadHandle r d data
  | .downloadComplete _ => internalDownloadComplete d
  | .downloadError _ _ => internalDownloadError d
  | .getBody _ _ | .getSse _ _ | .complete _ | .error _ _ _ => d

def receive (s : RequestContext × Download) (r : Read) : RequestContext × Download :=
  ((callbackOnesdkHttp s.1 (.read r.body)).1, (callbackOnesdkHttp s.1 (.read r.body)).2.foldl (onCall r) s.2)

/-- How a request ends: by one of the callbacks, or by its release alone. -/
inductive Ending where
  | completed
  | failed (text : Option Bytes)
  | closed
  | early

def Ending.calls (http : RequestContext) : Ending → List Call
  | .completed => (callbackOnesdkHttp http .completed).2
  | .failed text => (callbackOnesdkHttp http (.connectionError text)).2
  | .closed => (callbackOnesdkHttp http .closed).2
  | .early => []

def finish (s : RequestContext × Download) (e : Ending) : Download := (e.calls s.1).foldl (onCall ⟨[], false, 0⟩) s.2

section Runs

variable (http : RequestContext) (dl : DownloadContext)

def downloading : RequestContext := { http with downloadCtx := some dl }

def received (old : Option Bytes) (reads : List Read) : RequestContext × Download :=
  reads.foldl receive (downloading http dl, lwsHttpDownloadInit old)

def Succeeds (old : Option Bytes) (reads : List Read) (e : Ending) : Prop :=
  .downloadComplete dl ∈ e.calls (received http dl old reads).1

def content (reads : List Read) : Bytes := (reads.map Read.body).flatten

def Downloads (reads : List Read) (e : Ending) : Prop :=
  ∀ old, (Succeeds http dl old reads e → (finish (received http dl old reads) e).file = some (content reads)) ∧
    ∀ d, d = lwsHttpDownloadDeinit (finish (received http dl old reads) e) →
      d.fileFd = false ∧ d.closed = d.opened ∧ d.opened ≤ 1

end Runs

/-- The bytes of each chunk reach the stream in full: none is cut off by the buffer for
server-sent events, and `fwrite` takes all of them. -/
def Kept (http : RequestContext) : List Read → Prop
  | [] => True
  | r :: rs => readBytes http r.body = r.body ∧ r.body.length ≤ r.written ∧ Kept (onRead http r.body).1 rs

def Opened (reads : List Read) : Prop := ∃ r, reads.find? (fun r => r.body ≠ []) = some r ∧ r.opens = true

section Steps

variable {http : RequestContext} {dl : DownloadContext} {d : Download} {r : Read}

theorem foldl_silent {calls : List Call} (h : ∀ c ∈ calls, ∀ d, onCall r d c = d) : calls.foldl (onCall r) d = d := by
  induction calls with
  | nil => rfl
  | cons c calls ih =>
      rw [List.foldl_cons, h c List.mem_cons_self]
      exact ih (fun c' hc' => h c' (List.mem_cons_of_mem c hc'))

theorem foldl_elim {α : Type} {f : α → List Call} (h : ∀ a, ∀ c ∈ f a, ∀ d, onCall r d c = d) (o : Option α) :
    (o.elim [] f).foldl (onCall r) d = d := by
  cases o with
  | none => rfl
  | some a => exact foldl_silent (h a)

theorem silent_singleton {c : Call} (h : ∀ d, onCall r d c = d) : ∀ c' ∈ [c], ∀ d, onCall r d c' = d := by
  intro c' hc'
  rw [List.mem_singleton.mp hc']
  exact h

theorem receive_eq (hdl : http.downloadCtx = some dl) :
    receive (http, d) r = ((onRead http r.body).1, internalDownloadHandle r d (readBytes http r.body)) := by
  have hsse (events : List SseEvent) (cb : Callback) : ∀ c ∈ events.map (Call.getSse cb), ∀ d, onCall r d c = d := by
    intro c hc d
    obtain ⟨event, -, rfl⟩ := List.mem_map.mp hc
    rfl
  have hcalls : (onRead http r.body).2.foldl (onCall r) d = internalDownloadHandle r d (readBytes http r.body) := by
    have hbody : (http.onGetBodyCb.elim [] (fun cb => [Call.getBody cb (readBytes http r.body)])).foldl
      (onCall r) d = d :=
      foldl_elim (fun _ => silent_singleton (fun _ => rfl)) _
    rw [onRead, readCalls, hdl, List.foldl_append, List.foldl_append, foldl_elim (hsse _), hbody]
    rfl
  rw [receive, callbackOnesdkHttp, hcalls]

theorem onRead_kept (http : RequestContext) (body : Bytes) :
    (onRead http body).1.downloadCtx = http.downloadCtx ∧
      (onRead http body).1.response.errorCode = http.response.errorCode := by
  have hbody (r : Response) (body : Bytes) : (receiveBody r body).1.errorCode = r.errorCode := by
    rw [receiveBody]
    split
    · rfl
    · split <;> rfl
  have hkeep (h : RequestContext) (body : Bytes) :
      (keepBody h body).downloadCtx = h.downloadCtx ∧ (keepBody h body).response.errorCode = h.response.errorCode := by
    rw [keepBody]
    split
    · exact ⟨rfl, rfl⟩
    · exact ⟨rfl, hbody _ _⟩
  exact hkeep _ _

@[simp] theorem closeFile_file (d : Download) : (closeFile d).file = d.file := by
  rw [closeFile]
  split <;> rfl

theorem closeFile_closeFile (d : Download) : closeFile (closeFile d) = closeFile d := by
  by_cases hopen : d.fileFd = true
  · rw [closeFile, closeFile, if_pos hopen]
    rfl
  · have hshut : closeFile d = d := if_neg hopen
    rw [hshut, hshut]

theorem closeFile_shut (d : Download) : (closeFile d).fileFd = false := by
  rw [closeFile]
  split
  · rfl
  · next h => exact eq_false_of_ne_true h

theorem finish_cases (hdl : http.downloadCtx = some dl) (d : Download) (e : Ending) :
    finish (http, d) e = d ∨ finish (http, d) e = closeFile d := by
  cases e with
  | completed =>
      right
      rw [finish, Ending.calls, callbackOnesdkHttp, onCompleted, hdl]
      split
      · rw [List.foldl_append, foldl_elim (fun _ => silent_singleton (fun _ => rfl))]
        rfl
      · rw [List.foldl_append, foldl_elim (fun _ => silent_singleton (fun _ => rfl))]
        rfl
  | failed text =>
      right
      rw [finish, Ending.calls, callbackOnesdkHttp, onConnectionError, hdl, List.foldl_append,
        foldl_elim (fun _ => silent_singleton (fun _ => rfl))]
      rfl
  | closed => exact .inl rfl
  | early => exact .inl rfl

theorem notMem_calls {α : Type} {f : α → Call} {o : Option α} {c call : Call} (hcall : c ≠ call) (hf : ∀ a, c ≠ f a) :
    c ∉ call :: o.elim [] (fun a => [f a]) := by
  intro h
  rcases List.mem_cons.mp h with h | h
  · exact hcall h
  · cases o with
    | none => exact List.not_mem_nil h
    | some a => exact hf a (List.mem_singleton.mp h)

theorem complete_called_iff (hdl : http.downloadCtx = some dl) (e : Ending) :
    .downloadComplete dl ∈ e.calls http ↔ e = .completed ∧ http.response.errorCode ≤ 300 := by
  cases e with
  | completed =>
      rw [Ending.calls, callbackOnesdkHttp, onCompleted, hdl]
      by_cases hcode : 300 < http.response.errorCode
      · rw [if_pos hcode]
        exact iff_of_false (notMem_calls (by simp) (by simp)) (fun h => Int.not_le.mpr hcode h.2)
      · rw [if_neg hcode]
        exact iff_of_true List.mem_cons_self ⟨rfl, Int.not_lt.mp hcode⟩
  | failed text =>
      rw [Ending.calls, callbackOnesdkHttp, onConnectionError, hdl]
      exact iff_of_false (notMem_calls (by simp) (by simp)) (fun h => absurd h.1 (by simp))
  | closed => exact ⟨fun h => absurd h List.not_mem_nil, fun h => absurd h.1 (by simp)⟩
  | early => exact ⟨fun h => absurd h List.not_mem_nil, fun h => absurd h.1 (by simp)⟩

end Steps

section Files

def kept (http : RequestContext) : List Read → Bytes
  | [] => []
  | r :: rs => (readBytes http r.body).take r.written ++ kept (onRead http r.body).1 rs

def made (http : RequestContext) : List Read → Option Bytes
  | [] => none
  | r :: rs =>
      if readBytes http r.body = [] ∨ r.opens = false then made (onRead http r.body).1 rs
      else some ((readBytes http r.body).take r.written ++ kept (onRead http r.body).1 rs)

variable {http : RequestContext} {dl : DownloadContext} {d : Download}

theorem handle_open (r : Read) {c : Bytes} (hopen : d.fileFd = true) (hfile : d.file = some c) (data : Bytes) :
    (internalDownloadHandle r d data).fileFd = true ∧
      (internalDownloadHandle r d data).file = some (c ++ data.take r.written) ∧
        (internalDownloadHandle r d data).opened = d.opened ∧ (internalDownloadHandle r d data).closed = d.closed := by
  by_cases hdata : data = []
  · rw [internalDownloadHandle, if_pos hdata, hdata, List.take_nil, List.append_nil]
    exact ⟨hopen, hfile, rfl, rfl⟩
  · rw [internalDownloadHandle, if_neg hdata, if_pos hopen, fwrite, hfile]
    exact ⟨hopen, rfl, rfl, rfl⟩

theorem run_open (hdl : http.downloadCtx = some dl) {c : Bytes} (hopen : d.fileFd = true) (hfile : d.file = some c)
    (reads : List Read) :
    (reads.foldl receive (http, d)).2.fileFd = true ∧
    (reads.foldl receive (http, d)).2.file = some (c ++ kept http reads) ∧
      (reads.foldl receive (http, d)).2.opened = d.opened ∧ (reads.foldl receive (http, d)).2.closed = d.closed := by
  induction reads generalizing http d c with
  | nil =>
      rw [kept, List.append_nil]
      exact ⟨hopen, hfile, rfl, rfl⟩
  | cons r rs ih =>
      obtain ⟨hopen', hfile', hopened, hclosed⟩ := handle_open r hopen hfile (readBytes http r.body)
      have hdl' : (onRead http r.body).1.downloadCtx = some dl := (onRead_kept http r.body).1.trans hdl
      rw [List.foldl_cons, receive_eq hdl, kept, ← List.append_assoc, ← hopened, ← hclosed]
      exact ih hdl' hopen' hfile'

/-- A run that begins without a file: it makes one, or leaves everything as it is. -/
theorem run_shut (hdl : http.downloadCtx = some dl) (hshut : d.fileFd = false) (reads : List Read) :
    (made http reads = none ∧ (reads.foldl receive (http, d)).2 = d) ∨
      (made http reads).isSome = true ∧ (reads.foldl receive (http, d)).2.fileFd = true ∧
        (reads.foldl receive (http, d)).2.file = made http reads ∧
          (reads.foldl receive (http, d)).2.opened = d.opened + 1 ∧ (reads.foldl receive (http, d)).2.closed =
            d.closed := by
  induction reads generalizing http with
  | nil => exact .inl ⟨rfl, rfl⟩
  | cons r rs ih =>
      have hdl' : (onRead http r.body).1.downloadCtx = some dl := (onRead_kept http r.body).1.trans hdl
      rw [List.foldl_cons, receive_eq hdl, made]
      by_cases hskip : readBytes http r.body = [] ∨ r.opens = false
      · have hsame : internalDownloadHandle r d (readBytes http r.body) = d := by
          rw [internalDownloadHandle]
          rcases hskip with hempty | hopens
          · rw [if_pos hempty]
          · rw [hshut, hopens, if_neg Bool.false_ne_true, if_neg Bool.false_ne_true, ite_self]
        rw [if_pos hskip, hsame]
        exact ih hdl'
      · obtain ⟨hdata, hopens⟩ := not_or.mp hskip
        have hwrite : internalDownloadHandle r d (readBytes http r.body) =
            fwrite { d with file := some [], fileFd := true, opened := d.opened + 1 }
              (readBytes http r.body) r.written := by
          rw [internalDownloadHandle, if_neg hdata, hshut, if_neg Bool.false_ne_true,
            if_pos (eq_true_of_ne_false hopens)]
        rw [if_neg hskip, hwrite]
        obtain ⟨hopen, hfile, hopened, hclosed⟩ := run_open (d := fwrite
          { d with file := some [], fileFd := true, opened := d.opened + 1 } (readBytes http r.body) r.written)
            hdl' rfl rfl rs
        exact .inr ⟨rfl, hopen, hfile, hopened, hclosed⟩

theorem content_cons (r : Read) (rs : List Read) : content (r :: rs) = r.body ++ content rs := rfl

theorem readBytes_within (http : RequestContext) (body : Bytes) : readBytes http body <+: body := by
  rw [readBytes]
  split
  · exact List.take_prefix _ _
  · exact List.prefix_refl body

theorem taken_within (http : RequestContext) (r : Read) : (readBytes http r.body).take r.written <+: r.body :=
  (List.take_prefix _ _).trans (readBytes_within http r.body)

theorem kept_length (http : RequestContext) (reads : List Read) :
    (kept http reads).length ≤ (content reads).length := by
  induction reads generalizing http with
  | nil => exact le_rfl
  | cons r rs ih =>
      have hfirst := (taken_within http r).length_le
      have hrest := ih (onRead http r.body).1
      rw [kept, content_cons, List.length_append, List.length_append]
      omega

theorem taken_eq_iff (http : RequestContext) (r : Read) :
    (readBytes http r.body).take r.written = r.body ↔ readBytes http r.body = r.body ∧ r.body.length ≤ r.written := by
  constructor
  · intro h
    have hlen := congrArg List.length h
    have hshort := (readBytes_within http r.body).length_le
    rw [List.length_take] at hlen
    refine ⟨(readBytes_within http r.body).eq_of_length (by omega), by omega⟩
  · rintro ⟨hread, hwritten⟩
    rw [hread, List.take_of_length_le hwritten]

/-- No later byte can stand for one that is missing: the lengths would not agree. -/
theorem kept_eq_iff (reads : List Read) : kept http reads = content reads ↔ Kept http reads := by
  induction reads generalizing http with
  | nil => exact ⟨fun _ => trivial, fun _ => rfl⟩
  | cons r rs ih =>
      rw [kept, content_cons, Kept, ← and_assoc, ← taken_eq_iff, ← ih]
      constructor
      · intro h
        have hlen := congrArg List.length h
        have hfirst := (taken_within http r).length_le
        have hrest := kept_length (onRead http r.body).1 rs
        rw [List.length_append, List.length_append] at hlen
        exact List.append_inj h (by omega)
      · rintro ⟨hfirst, hrest⟩
        rw [hfirst, hrest]

theorem made_length (reads : List Read) {c : Bytes} (h : made http reads = some c) :
    c.length ≤ (content reads).length := by
  induction reads generalizing http with
  | nil => exact absurd h.symm (Option.some_ne_none c)
  | cons r rs ih =>
      rw [made] at h
      rw [content_cons, List.length_append]
      split at h
      · have hrest := ih h
        omega
      · have hfirst := (taken_within http r).length_le
        have hrest := kept_length (onRead http r.body).1 rs
        rw [← Option.some.inj h, List.length_append]
        omega

theorem made_eq_iff (reads : List Read) : made http reads = some (content reads) ↔ Kept http reads ∧ Opened reads := by
  induction reads generalizing http with
  | nil => exact ⟨fun h => absurd h.symm (Option.some_ne_none _), fun h => absurd h.2 (by simp [Opened])⟩
  | cons r rs ih =>
      by_cases hbody : r.body = []
      · have hread : readBytes http r.body = r.body := by
          rw [hbody]
          exact List.prefix_nil.mp (readBytes_within http [])
        have hopened : Opened (r :: rs) ↔ Opened rs := by
          rw [Opened, List.find?_cons_of_neg (by simp [hbody])]
          rfl
        have hkept : Kept http (r :: rs) ↔ Kept (onRead http r.body).1 rs := by
          rw [Kept, hread, hbody]
          exact ⟨fun h => h.2.2, fun h => ⟨rfl, Nat.zero_le _, h⟩⟩
        rw [made, if_pos (.inl (hread.trans hbody)), content_cons, hopened, hkept, ← ih, hbody, List.nil_append]
      · have hopened : Opened (r :: rs) ↔ r.opens = true := by
          rw [Opened, List.find?_cons_of_pos (by simp [hbody])]
          exact ⟨fun ⟨_, heq, h⟩ => Option.some.inj heq ▸ h, fun h => ⟨r, rfl, h⟩⟩
        rw [hopened, made]
        by_cases hskip : readBytes http r.body = [] ∨ r.opens = false
        · rw [if_pos hskip]
          constructor
          · intro h
            have hlen := made_length rs h
            have hpos : 0 < r.body.length := List.length_pos_iff.mpr hbody
            rw [content_cons, List.length_append] at hlen
            omega
          · rintro ⟨hkept, hopens⟩
            rcases hskip with hempty | hshut
            · exact absurd (hkept.1.symm.trans hempty) hbody
            · exact absurd (hopens.symm.trans hshut) (by simp)
        · rw [if_neg hskip, Option.some_inj, ← kept_eq_iff, kept]
          exact ⟨fun h => ⟨h, eq_true_of_ne_false (not_or.mp hskip).2⟩, fun h => h.1⟩

theorem run_kept (hdl : http.downloadCtx = some dl) (d : Download) (reads : List Read) :
    (reads.foldl receive (http, d)).1.downloadCtx = some dl ∧
      (reads.foldl receive (http, d)).1.response.errorCode = http.response.errorCode := by
  induction reads generalizing http d with
  | nil => exact ⟨hdl, rfl⟩
  | cons r rs ih =>
      obtain ⟨hctx, hcode⟩ := onRead_kept http r.body
      rw [List.foldl_cons, receive_eq hdl, ← hcode]
      exact ih (hctx.trans hdl) _

end Files

section Main

variable (http : RequestContext) (dl : DownloadContext)

theorem downloading_ctx : (downloading http dl).downloadCtx = some dl := rfl

theorem finish_received (old : Option Bytes) (reads : List Read) (e : Ending) :
    finish (received http dl old reads) e = (received http dl old reads).2 ∨
      finish (received http dl old reads) e = closeFile (received http dl old reads).2 :=
  finish_cases (run_kept (downloading_ctx http dl) (lwsHttpDownloadInit old) reads).1 _ e

theorem finished_file (old : Option Bytes) (reads : List Read) (e : Ending) :
    (finish (received http dl old reads) e).file = (received http dl old reads).2.file := by
  rcases finish_received http dl old reads e with h | h
  · exact congrArg Download.file h
  · exact (congrArg Download.file h).trans (closeFile_file _)

theorem succeeds_iff (old : Option Bytes) (reads : List Read) (e : Ending) :
    Succeeds http dl old reads e ↔ e = .completed ∧ http.response.errorCode ≤ 300 := by
  have hhttp := run_kept (downloading_ctx http dl) (lwsHttpDownloadInit old) reads
  have hiff := complete_called_iff hhttp.1 e
  rw [hhttp.2] at hiff
  exact hiff

/-- The stream is opened once at most, and closed by the ending or by the release. -/
theorem released_once (old : Option Bytes) (reads : List Read) (e : Ending) :
    (lwsHttpDownloadDeinit (finish (received http dl old reads) e)).fileFd = false ∧
      (lwsHttpDownloadDeinit (finish (received http dl old reads) e)).closed =
        (lwsHttpDownloadDeinit (finish (received http dl old reads) e)).opened ∧
          (lwsHttpDownloadDeinit (finish (received http dl old reads) e)).opened ≤ 1 := by
  have hclose : lwsHttpDownloadDeinit (finish (received http dl old reads) e) =
      closeFile (received http dl old reads).2 := by
    rcases finish_received http dl old reads e with h | h
    · exact congrArg closeFile h
    · exact (congrArg closeFile h).trans (closeFile_closeFile _)
  rw [hclose]
  refine ⟨closeFile_shut _, ?_⟩
  rcases run_shut (downloading_ctx http dl) (show (lwsHttpDownloadInit old).fileFd = false from rfl) reads with
    ⟨-, hsame⟩ | ⟨-, hopen, -, hopened, hclosed⟩
  · rw [received, hsame]
    exact ⟨rfl, Nat.zero_le 1⟩
  · rw [received, closeFile, if_pos hopen]
    exact ⟨(congrArg (· + 1) hclosed).trans hopened.symm, hopened.le⟩

/-- Success is told truly exactly where there is a body and every chunk of it is written. -/
theorem downloads_iff (reads : List Read) (e : Ending) :
    Downloads http dl reads e ↔
      (e = .completed → http.response.errorCode ≤ 300 → Kept (downloading http dl) reads ∧ Opened reads) := by
  have hrun (old : Option Bytes) := run_shut (downloading_ctx http dl)
    (show (lwsHttpDownloadInit old).fileFd = false from rfl) reads
  constructor
  · intro h he hcode
    -- With another file there before, an untouched one is not what was sent.
    have hold := (h (some (0 :: content reads))).1 ((succeeds_iff http dl _ reads e).mpr ⟨he, hcode⟩)
    rw [finished_file] at hold
    apply (made_eq_iff reads).mp
    rcases hrun (some (0 :: content reads)) with ⟨-, hsame⟩ | ⟨-, -, hmade, -⟩
    · rw [received, hsame] at hold
      exact absurd (congrArg List.length (Option.some.inj hold)) (by simp)
    · rw [received, hmade] at hold
      exact hold
  · intro h old
    refine ⟨?_, ?_⟩
    · intro hs
      obtain ⟨he, hcode⟩ := (succeeds_iff http dl old reads e).mp hs
      have hmade := (made_eq_iff reads).mpr (h he hcode)
      rw [finished_file]
      rcases hrun old with ⟨hnone, -⟩ | ⟨-, -, heq, -⟩
      · exact absurd (hnone.symm.trans hmade) (Option.some_ne_none _).symm
      · exact heq.trans hmade
    · rintro d rfl
      exact released_once http dl old reads e

end Main

section Samples

def holeReads : List Read := [⟨[104, 105], false, 0⟩, ⟨[33], true, 1⟩]

theorem hole_reported : ¬Downloads newHttpCtx ⟨1, 2, 3, 0⟩ holeReads .completed := by
  intro h
  have hfile := (h none).1 (by rw [Succeeds]; decide)
  exact absurd hfile (by decide)

end Samples

end OneSdk.DownloadFile
