import OneSdk.OtaDownload

namespace OneSdk.OtaReports

open ErrorCode CString HttpClient HttpTerminal OtaTypes Emits OtaDownload
open OtaFileName (extractFilename)

def isTerminal (jobId : Bytes) : Output → Bool
  | .report id status _ => id = jobId && (status = .downloaded || status = .failed)
  | _ => false

/-- The call returns, and by then the end of the job has been reported once and its
records have been released once. -/
def Settles {α : Type} (job : JobInfo) (r : Emits Output α) : Prop :=
  r.next.isSome = true ∧ r.out.countP (isTerminal job.otaJobId) = 1 ∧ r.out.count (.releaseJob job) = 1 ∧
    r.out.count (.releaseTask job.otaJobId) = 1

instance {α : Type} (job : JobInfo) (r : Emits Output α) : Decidable (Settles job r) :=
  inferInstanceAs (Decidable (_ ∧ _ ∧ _ ∧ _))

/-- What `iot_ota_start_download` takes on: nothing for the id is finished or going on. -/
def Accepts (p : Platform) (s : Ota) (job : JobInfo) (env : StartEnv) : Prop :=
  job.url.isSome = true ∧ 0 < job.size ∧
    ∀ t, s.taskHashMap job.otaJobId = some t → reusable p s t env = false ∧ t.isPendingToRetry = true

def downloadPath (p : Platform) (s : Ota) (job : JobInfo) : Option Bytes :=
  (job.url.bind p.aesDecode).bind (fun decodeUrl =>
    s.downloadDir.bind (fun dir => (extractFilename decodeUrl).map (dir ++ ·)))

def fileThere (s : Ota) (path : Bytes) (writable : Bool) (reads : List Bytes) : Bool :=
  (s.files path).isSome || (writable && reads.any (· ≠ []))

/-- The HTTP layer reports an end that the callbacks can handle. -/
def Answered (p : Platform) (s : Ota) (job : JobInfo) (path : Bytes) (env : StartEnv) : Prop :=
  match env.http with
  | .notStarted reported => reported.isSome = true
  | .started (.refused _) => True
  | .started (.served _ _ status reads completed) =>
      completed = true ∧ (p.divZeroTraps = true → reads = []) ∧
        (status ≤ 300 → (signature job.sign).isSome = true ∧ fileThere s path env.writable reads = true)

/-- The url can be turned into a path, the id fits into the key of the task, and the
HTTP layer answers. -/
def Answerable (p : Platform) (s : Ota) (job : JobInfo) (env : StartEnv) : Prop :=
  ∃ path, downloadPath p s job = some path ∧ taskKeyFits job.otaJobId = true ∧ Answered p s job path env

def Quiet : Output → Prop
  | .progress _ _ _ => True
  | _ => False

variable {p : Platform} {s : Ota} {t : Task} {job : JobInfo} {α β : Type}

theorem quiet_counts {out : List Output} (h : ∀ o ∈ out, Quiet o) (job : JobInfo) :
    out.countP (isTerminal job.otaJobId) = 0 ∧ out.count (.releaseJob job) = 0 ∧
      out.count (.releaseTask job.otaJobId) = 0 := by
  refine ⟨?_, ?_, ?_⟩
  · rw [List.countP_eq_zero]
    intro o ho hterm
    have hq := h o ho
    cases o <;> simp_all [Quiet, isTerminal]
  · exact List.count_eq_zero.mpr (fun hmem => h _ hmem)
  · exact List.count_eq_zero.mpr (fun hmem => h _ hmem)

theorem not_settles_quiet {r : Emits Output α} (h : AllOut Quiet r) : ¬Settles job r := by
  rintro ⟨-, hterm, -⟩
  rw [(quiet_counts h job).1] at hterm
  exact absurd hterm (by decide)

theorem settles_bind {r : Emits Output α} {a : α} {f : α → Emits Output β} (h : AllOut Quiet r)
    (hr : r.next = some a) : Settles job (r >>= f) ↔ Settles job (f a) := by
  obtain ⟨out, next⟩ := r
  obtain rfl : next = some a := hr
  obtain ⟨hterm, hjob, htask⟩ := quiet_counts h job
  simp only [bind_some, Settles, List.countP_append, List.count_append, hterm, hjob, htask, Nat.zero_add]

theorem settles_map {r : Emits Output α} (f : α → β) :
    Settles job (r >>= fun a => pure (f a)) ↔ Settles job r := by
  obtain ⟨out, next⟩ := r
  cases next with
  | none => exact Iff.rfl
  | some a => simp [Settles]

theorem deleteTask_fits (h : taskKeyFits t.serverJobInfo.otaJobId = true) :
    (deleteTask s t).out = [.releaseJob t.serverJobInfo, .releaseTask t.serverJobInfo.otaJobId] ∧
      (deleteTask s t).next.isSome = true := by
  rw [deleteTask, iotOtaDeleteJobTaskInfo, if_pos h]
  exact ⟨rfl, rfl⟩

theorem deleteTask_overruns (h : ¬taskKeyFits t.serverJobInfo.otaJobId = true) : deleteTask s t = fault := by
  rw [deleteTask, iotOtaDeleteJobTaskInfo, if_neg h]
  rfl

theorem not_settles_overrun (ht : t.serverJobInfo = job) (h : ¬taskKeyFits job.otaJobId = true) (r : Emits Output Ota) :
    ¬Settles job (r >>= fun s => deleteTask s t) := by
  subst ht
  rintro ⟨hnext, -⟩
  rw [bind_next] at hnext
  simp only [deleteTask_overruns h] at hnext
  cases hr : r.next <;> simp [hr, fault] at hnext

theorem settles_deleteTask {r : Emits Output Ota} {s' : Ota} (ht : t.serverJobInfo = job) (hr : r.next = some s')
    (hterm : r.out.countP (isTerminal job.otaJobId) = 1) (hjob : r.out.count (.releaseJob job) = 0)
    (htask : r.out.count (.releaseTask job.otaJobId) = 0) :
    Settles job (r >>= fun s => deleteTask s t) ↔ taskKeyFits job.otaJobId = true := by
  by_cases hfit : taskKeyFits job.otaJobId = true
  · subst ht
    obtain ⟨out, next⟩ := r
    obtain rfl : next = some s' := hr
    obtain ⟨hout, hnext⟩ := deleteTask_fits (s := s') hfit
    refine iff_of_true ⟨hnext, ?_⟩ hfit
    simp only [bind_some, hout, List.countP_append, List.count_append, hterm, hjob, htask]
    simp [isTerminal]
  · exact iff_of_false (not_settles_overrun ht hfit r) hfit

theorem onDownloadError_settles (ht : t.serverJobInfo = job) (code : Int) :
    Settles job (onDownloadError s t code) ↔ taskKeyFits job.otaJobId = true := by
  have hreport : ((⟨[.report t.serverJobInfo.otaJobId .failed code], some (deleteFwInfoFile s t.otaFilePath)⟩ :
      Emits Output Ota) >>= fun s => deleteTask s t) = onDownloadError s t code := rfl
  rw [← hreport]
  exact settles_deleteTask ht rfl (by simp [ht, isTerminal]) (by simp) (by simp)

theorem checkDownload_reports (hfit : taskKeyFits t.serverJobInfo.otaJobId = true) (sign content : Bytes) :
    ∃ s', (checkDownload p s t sign content).next = some s' ∧
      (checkDownload p s t sign content).out.countP (isTerminal t.serverJobInfo.otaJobId) = 1 ∧
      (checkDownload p s t sign content).out.count (.releaseJob t.serverJobInfo) = 0 ∧
      (checkDownload p s t sign content).out.count (.releaseTask t.serverJobInfo.otaJobId) = 0 := by
  rw [checkDownload]
  split
  · rw [iotOtaSaveJobTaskInfo, if_pos hfit]
    cases hcb : s.downloadCompleteCallback with
    | true => exact ⟨_, rfl, by simp [emit, emitIf, isTerminal, downloadCompleteCall]⟩
    | false => exact ⟨_, rfl, by simp [emit, emitIf, isTerminal]⟩
  · exact ⟨_, rfl, by simp [emit, isTerminal]⟩

theorem onDownloadComplete_settles (ht : t.serverJobInfo = job) :
    Settles job (onDownloadComplete p s t) ↔
      taskKeyFits job.otaJobId = true ∧ (signature job.sign).isSome = true ∧ (s.files t.otaFilePath).isSome = true := by
  rw [onDownloadComplete, ht]
  cases hsign : signature job.sign with
  | none =>
      refine iff_of_false ?_ (by simp)
      rintro ⟨-, hterm, -⟩
      by_cases hfit : taskKeyFits t.serverJobInfo.otaJobId = true
      · rw [(deleteTask_fits hfit).1] at hterm
        simp [isTerminal] at hterm
      · rw [deleteTask_overruns hfit] at hterm
        simp [fault] at hterm
  | some sign =>
      cases hfile : s.files t.otaFilePath with
      | none => exact iff_of_false (not_settles_quiet allOut_fault) (by simp)
      | some content =>
          by_cases hfit : taskKeyFits job.otaJobId = true
          · obtain ⟨s', hnext, hterm, hjob, htask⟩ := checkDownload_reports (p := p) (s := s) (ht ▸ hfit) sign content
            rw [ht] at hterm hjob htask
            simpa using settles_deleteTask ht hnext hterm hjob htask
          · exact iff_of_false (not_settles_overrun ht hfit _) (fun h => hfit h.1)

theorem onCalls_append (writable : Bool) (d : Download) (xs ys : List Call) :
    onCalls p writable d (xs ++ ys) = onCalls p writable d xs >>= fun d => onCalls p writable d ys := by
  induction xs generalizing d with
  | nil => rfl
  | cons x xs ih =>
      rw [List.cons_append, onCalls, onCalls, bind_assoc]
      congr 1
      funext d
      exact ih d

structure Ready (job : JobInfo) (path : Bytes) (d : Download) : Prop where
  path_eq : d.path = path
  task : ∃ t, d.task = some t ∧ t.serverJobInfo = job ∧ t.otaFilePath = path ∧ t.downloadFileSize = 0
  opened : d.fileOpen = true → (d.ota.files path).isSome = true

def chunkCalls (body : Bytes) : List Call := [.getBody ⟨1, 0⟩ body, .downloadData ⟨4, 5, 6, 0⟩ body]

variable {path : Bytes} {d : Download} {w : Bool}

theorem handle_ready (h : Ready job path d) (body : Bytes) :
    Ready job path (internalDownloadHandle w d body) ∧
      ((internalDownloadHandle w d body).ota.files path).isSome =
        ((d.ota.files path).isSome || (w && decide (body ≠ []))) := by
  obtain ⟨hpath, htask, hopen⟩ := h
  rw [internalDownloadHandle]
  by_cases hbody : body = []
  · rw [if_pos hbody]
    exact ⟨⟨hpath, htask, hopen⟩, by simp [hbody]⟩
  · rw [if_neg hbody]
    by_cases hopened : (d.fileOpen || w) = true
    · rw [if_pos hopened]
      refine ⟨⟨hpath, htask, fun _ => by simp [put, hpath]⟩, ?_⟩
      rcases Bool.or_eq_true_iff.mp hopened with hf | hw
      · simp [put, hpath, hopen hf]
      · simp [put, hpath, hw, hbody]
    · rw [if_neg hopened]
      rw [Bool.or_eq_true, not_or] at hopened
      exact ⟨⟨hpath, htask, hopen⟩, by simp [hopened.2]⟩

theorem onDataReceived_traps (hsize : t.downloadFileSize = 0) (htrap : p.divZeroTraps = true) (len : Nat) :
    onDataReceived p s t len = fault := by
  rw [onDataReceived, divide, if_pos hsize, if_pos htrap]
  rfl

theorem onDataReceived_runs (hsize : t.downloadFileSize = 0) (htrap : p.divZeroTraps = false) (len : Nat) :
    AllOut Quiet (onDataReceived p s t len) ∧
      (onDataReceived p s t len).next = some { t with downloadedSize := t.downloadedSize + len } := by
  rw [onDataReceived, divide, if_pos hsize, htrap, if_neg (by simp)]
  cases hcb : s.revDataProgressCallback with
  | true => exact ⟨allOut_bind (allOut_pure _)
      (fun _ => allOut_bind (allOut_emit trivial) (fun _ => allOut_pure _)), rfl⟩
  | false => exact ⟨allOut_bind (allOut_pure _) (fun _ => allOut_bind (allOut_pure _) (fun _ => allOut_pure _)), rfl⟩

theorem chunk_traps (h : Ready job path d) (htrap : p.divZeroTraps = true) (body : Bytes) :
    onCalls p w d (chunkCalls body) = fault := by
  obtain ⟨t, htask, -, -, hsize⟩ := h.task
  rw [chunkCalls, onCalls, onCall, htask]
  simp only [onDataReceived_traps hsize htrap]
  rfl

theorem chunk_ready (h : Ready job path d) (htrap : p.divZeroTraps = false) (body : Bytes) :
    AllOut Quiet (onCalls p w d (chunkCalls body)) ∧
      ∃ d', (onCalls p w d (chunkCalls body)).next = some d' ∧ Ready job path d' ∧
        (d'.ota.files path).isSome = ((d.ota.files path).isSome || (w && decide (body ≠ []))) := by
  obtain ⟨t, htask, hjob, hfile, hsize⟩ := h.task
  obtain ⟨hquiet, hnext⟩ := onDataReceived_runs (s := d.ota) hsize htrap body.length
  have hready : Ready job path { d with task := some { t with downloadedSize := t.downloadedSize + body.length } } :=
    ⟨h.path_eq, ⟨_, rfl, hjob, hfile, hsize⟩, h.opened⟩
  obtain ⟨hready', hfiles⟩ := handle_ready (w := w) hready body
  rw [chunkCalls, onCalls, onCall, htask]
  refine ⟨?_, _, ?_, hready', hfiles⟩
  · refine allOut_bind (allOut_bind hquiet (fun _ => allOut_pure _)) (fun d' => ?_)
    exact allOut_bind (allOut_pure _) (fun _ => allOut_pure _)
  · simp only [bind_next, hnext]
    rfl

theorem chunks_ready (h : Ready job path d) (htrap : p.divZeroTraps = false) (reads : List Bytes) :
    AllOut Quiet (onCalls p w d (reads.flatMap chunkCalls)) ∧
      ∃ d', (onCalls p w d (reads.flatMap chunkCalls)).next = some d' ∧ Ready job path d' ∧
        (d'.ota.files path).isSome = fileThere d.ota path w reads := by
  induction reads generalizing d with
  | nil => exact ⟨allOut_pure _, d, rfl, h, by simp [fileThere]⟩
  | cons body reads ih =>
      obtain ⟨hquiet, d', hnext, hready, hfiles⟩ := chunk_ready (w := w) h htrap body
      obtain ⟨hquiet', d'', hnext', hready', hfiles'⟩ := ih hready
      rw [List.flatMap_cons, onCalls_append]
      refine ⟨allOut_bind_iff.mpr ⟨hquiet, fun a ha => ?_⟩, d'', ?_, hready', ?_⟩
      · rw [hnext] at ha
        rw [← Option.some.inj ha]
        exact hquiet'
      · rw [bind_next, hnext]
        exact hnext'
      · rw [hfiles', fileThere, fileThere, hfiles, List.any_cons, Bool.and_or_distrib_left, Bool.or_assoc]

theorem chunks_trap (h : Ready job path d) (htrap : p.divZeroTraps = true) {reads : List Bytes} (hne : reads ≠ []) :
    onCalls p w d (reads.flatMap chunkCalls) = fault := by
  obtain ⟨body, rest, rfl⟩ := List.exists_cons_of_ne_nil hne
  rw [List.flatMap_cons, onCalls_append, chunk_traps h htrap]
  rfl

theorem chunks_run (h : Ready job path d) {reads : List Bytes} (hrun : p.divZeroTraps = true → reads = []) :
    AllOut Quiet (onCalls p w d (reads.flatMap chunkCalls)) ∧
      ∃ d', (onCalls p w d (reads.flatMap chunkCalls)).next = some d' ∧ Ready job path d' ∧
        (d'.ota.files path).isSome = fileThere d.ota path w reads := by
  cases htrap : p.divZeroTraps with
  | false => exact chunks_ready h htrap reads
  | true =>
      obtain rfl := hrun htrap
      exact ⟨allOut_pure _, d, rfl, h, by simp [fileThere]⟩

theorem error_settles (h : Ready job path d) (code : Int) (msg : Option Bytes) :
    Settles job (onCalls p w d [.downloadError ⟨4, 5, 6, 0⟩ code, .error ⟨2, 0⟩ code msg]) ↔
      taskKeyFits job.otaJobId = true := by
  obtain ⟨t, htask, hjob, -, -⟩ := h.task
  have hcalls : Settles job (onCalls p w d [.downloadError ⟨4, 5, 6, 0⟩ code, .error ⟨2, 0⟩ code msg]) ↔
      Settles job (onDownloadError d.ota t code) := by
    simp only [onCalls, onCall, htask]
    exact (settles_bind (allOut_pure _) rfl).trans ((settles_map _).trans (settles_map _))
  rw [hcalls, onDownloadError_settles hjob]

theorem complete_settles (h : Ready job path d) :
    Settles job (onCalls p w d [.downloadComplete ⟨4, 5, 6, 0⟩, .complete ⟨3, 0⟩]) ↔
      taskKeyFits job.otaJobId = true ∧ (signature job.sign).isSome = true ∧ (d.ota.files path).isSome = true := by
  obtain ⟨t, htask, hjob, hfile, -⟩ := h.task
  have hcalls : Settles job (onCalls p w d [.downloadComplete ⟨4, 5, 6, 0⟩, .complete ⟨3, 0⟩]) ↔
      Settles job (onDownloadComplete p d.ota t) := by
    simp only [onCalls, onCall, htask]
    exact (settles_bind (allOut_pure _) rfl).trans ((settles_map _).trans (settles_map _))
  rw [hcalls, onDownloadComplete_settles hjob, hfile]

def begun (s : Ota) (job : JobInfo) (decodeUrl path : Bytes) : Download :=
  ⟨s, some (newTask s job decodeUrl path), path, false⟩

theorem begun_ready (s : Ota) (job : JobInfo) (decodeUrl path : Bytes) : Ready job path (begun s job decodeUrl path) :=
  ⟨rfl, ⟨_, rfl, rfl, rfl, rfl⟩, fun h => absurd h (by simp [begun])⟩

theorem served_settles (s : Ota) (job : JobInfo) (decodeUrl path contentType transferEncoding : Bytes) (status : Int)
    (reads : List Bytes) (completed : Bool) :
    Settles job (onCalls p w (begun s job decodeUrl path)
        (service downloadRequest (Connection.served contentType transferEncoding status reads completed).callbacks).2) ↔
      taskKeyFits job.otaJobId = true ∧ completed = true ∧ (p.divZeroTraps = true → reads = []) ∧
        (status ≤ 300 → (signature job.sign).isSome = true ∧ fileThere s path w reads = true) := by
  obtain ⟨pieces, hpieces⟩ : ∃ pieces,
    arriving (opened downloadRequest contentType transferEncoding status) reads = pieces :=
    ⟨_, rfl⟩
  have hreads : (service (opened downloadRequest contentType transferEncoding status) (reads.map .read)).2 =
      pieces.flatMap chunkCalls := hpieces ▸ reads_calls rfl reads
  have hempty : reads = [] ↔ pieces = [] := by
    rw [← List.length_eq_zero_iff, ← List.length_eq_zero_iff, ← hpieces, arriving_length]
  have hthere : fileThere s path w reads = fileThere s path w pieces := by
    rw [fileThere, fileThere, ← hpieces, arriving_any rfl]
  have hsettings := (reads_silent (opened downloadRequest contentType transferEncoding status) reads).2
  rw [opened_settings] at hsettings
  simp only [settings, Prod.mk.injEq] at hsettings
  obtain ⟨-, -, hcomplete, herror, hdownload, hcode⟩ := hsettings
  have hend : (onCompleted (service (opened downloadRequest contentType transferEncoding status)
    (reads.map .read)).1).2 =
      if 300 < status then
        [.downloadError ⟨4, 5, 6, 0⟩ status, .error ⟨2, 0⟩ status
          (service (opened downloadRequest contentType transferEncoding status)
            (reads.map .read)).1.response.responseBody]
      else [.downloadComplete ⟨4, 5, 6, 0⟩, .complete ⟨3, 0⟩] := by
    rw [onCompleted, hcode, hdownload, herror, hcomplete]
    split <;> rfl
  rw [served_calls, hreads, onCalls_append, hend, hempty, hthere]
  have hbegun := begun_ready s job decodeUrl path
  by_cases hrun : p.divZeroTraps = true → pieces = []
  · obtain ⟨hquiet, d, hnext, hready, hfile⟩ := chunks_run (w := w) hbegun hrun
    rw [settles_bind hquiet hnext]
    cases completed with
    | false => exact iff_of_false (not_settles_quiet (allOut_pure _)) (by simp)
    | true =>
        rw [if_pos rfl]
        by_cases hbad : 300 < status
        · have hno : ¬status ≤ 300 := by omega
          rw [if_pos hbad, error_settles hready]
          exact ⟨fun hfit => ⟨hfit, rfl, hrun, fun hok => absurd hok hno⟩, And.left⟩
        · have hok : status ≤ 300 := by omega
          rw [if_neg hbad, complete_settles hready, hfile]
          exact ⟨fun h => ⟨h.1, rfl, hrun, fun _ => h.2⟩, fun h => ⟨h.1, h.2.2.2 hok⟩⟩
  · have hboth : p.divZeroTraps = true ∧ pieces ≠ [] := by
      by_contra hno
      exact hrun (fun htrap => by_contra fun hne => hno ⟨htrap, hne⟩)
    rw [chunks_trap hbegun hboth.1 hboth.2]
    exact iff_of_false (not_settles_quiet allOut_fault) (fun h => hrun h.2.2.1)

theorem answerable_of_path {env : StartEnv} (h : downloadPath p s job = some path) :
    Answerable p s job env ↔ taskKeyFits job.otaJobId = true ∧ Answered p s job path env := by
  constructor
  · rintro ⟨path', hpath', hfit, hanswered⟩
    rw [h] at hpath'
    rw [Option.some.inj hpath']
    exact ⟨hfit, hanswered⟩
  · rintro ⟨hfit, hanswered⟩
    exact ⟨path, h, hfit, hanswered⟩

theorem refused_settles (decodeUrl : Bytes) (text : Option Bytes) :
    Settles job (onCalls p w (begun s job decodeUrl path) (service downloadRequest [.connectionError text]).2) ↔
      taskKeyFits job.otaJobId = true :=
  error_settles (begun_ready s job decodeUrl path) volcErrHttpConnFailed _

theorem request_settles (decodeUrl : Bytes) (env : StartEnv) :
    Settles job (onCalls p env.writable (begun s job decodeUrl path) (service downloadRequest env.http.callbacks).2) ↔
      taskKeyFits job.otaJobId = true ∧ Answered p s job path env := by
  obtain ⟨staleSign, writable, http⟩ := env
  cases http with
  | notStarted reported =>
      cases reported with
      | none => exact iff_of_false (not_settles_quiet (allOut_pure _)) (by simp [Answered])
      | some text => exact (refused_settles decodeUrl text).trans (and_iff_left rfl).symm
  | started c =>
      cases c with
      | refused text => exact (refused_settles decodeUrl text).trans (and_iff_left trivial).symm
      | served contentType transferEncoding status reads completed =>
          exact served_settles s job decodeUrl path _ _ _ _ _

theorem download_settles {url : Bytes} (hurl : job.url = some url) (env : StartEnv) :
    Settles job (download p s job url env) ↔ Answerable p s job env := by
  have hno : downloadPath p s job = none → ¬Answerable p s job env := by
    rintro h ⟨path, hsome, -⟩
    exact absurd (h.symm.trans hsome) (by simp)
  rw [download]
  cases hdecode : p.aesDecode url with
  | none => exact iff_of_false (not_settles_quiet allOut_fault) (hno (by simp [downloadPath, hurl, hdecode]))
  | some decodeUrl =>
      dsimp only
      cases hdir : s.downloadDir with
      | none => exact iff_of_false (not_settles_quiet allOut_fault) (hno (by simp [downloadPath, hdir]))
      | some dir =>
          cases hname : extractFilename decodeUrl with
          | none =>
              exact iff_of_false (not_settles_quiet allOut_fault)
                (hno (by simp [downloadPath, hurl, hdecode, hdir, hname]))
          | some fileName =>
              have hsome : downloadPath p s job = some (dir ++ fileName) := by
                simp [downloadPath, hurl, hdecode, hdir, hname]
              rw [answerable_of_path hsome, ← request_settles decodeUrl env]
              exact settles_map _

/-- A job that is taken on is reported and released just once exactly when the HTTP
layer gives an answer that the callbacks can handle. -/
theorem startDownload_settles_iff (p : Platform) (s : Ota) (job : JobInfo) (env : StartEnv) (h : Accepts p s job env) :
    Settles job (iotOtaStartDownload p s job env) ↔ Answerable p s job env := by
  obtain ⟨hurl, hsize, hlast⟩ := h
  obtain ⟨url, hurl⟩ := Option.isSome_iff_exists.mp hurl
  have hcheck : checkLastTask p s job env = pure false := by
    rw [checkLastTask]
    cases ht : s.taskHashMap job.otaJobId with
    | none => rfl
    | some t =>
        obtain ⟨hreuse, hpending⟩ := hlast t ht
        simp only [hreuse, hpending]
        rfl
  have hstart : iotOtaStartDownload p s job env = pure false >>= fun ends =>
      if ends = true then pure s else download p s job url env := by
    rw [iotOtaStartDownload, hcheck, hurl]
    simp only [Nat.ne_of_gt hsize, if_false]
  rw [hstart]
  exact (settles_bind (allOut_pure _) rfl).trans (download_settles hurl env)

def freshOta : Ota where
  kvJobs := fun _ => none
  kvTasks := fun _ => none
  deviceInfoArray := []
  downloadDir := some [47]
  downloadCompleteCallback := true
  revDataProgressCallback := false
  taskHashMap := fun _ => none
  files := fun _ => none

def signedJob : JobInfo := ⟨[74], 1, [50], some sampleUrl, [109], some digestA⟩

theorem freshOta_accepts (p : Platform) (env : StartEnv) : Accepts p freshOta signedJob env :=
  ⟨rfl, Nat.one_pos, fun t h => absurd h (by simp [freshOta])⟩

/-- A download whose pieces divide without a trap, and whose file is the signed one. -/
theorem signedJob_settles :
    Settles signedJob (iotOtaStartDownload (samplePlatform false) freshOta signedJob
      ⟨none, true, .started (.served [] [] 200 [[97]] true)⟩) :=
  (startDownload_settles_iff (samplePlatform false) freshOta signedJob _ (freshOta_accepts _ _)).mpr
    ⟨[47, 102, 119], by decide, by decide, rfl, by decide, fun _ => by decide⟩

/-- The connection closes in the middle of the body. -/
theorem closed_in_body_unsettled :
    Accepts (samplePlatform false) freshOta signedJob ⟨none, true, .started (.served [] [] 200 [[97]] false)⟩ ∧
      ¬Settles signedJob (iotOtaStartDownload (samplePlatform false) freshOta signedJob
        ⟨none, true, .started (.served [] [] 200 [[97]] false)⟩) :=
  ⟨freshOta_accepts _ _, by decide⟩

end OneSdk.OtaReports
