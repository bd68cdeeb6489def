import OneSdk.OtaDownload
import OneSdk.Runs

namespace OneSdk.OtaVerified

open Runs ErrorCode CString HttpClient OtaTypes Emits OtaDownload

/-- A download that is announced as a success has been verified: the job carries a
signature, and it is the digest of the file. -/
def Verified (p : Platform) : Output → Prop
  | .downloadComplete code job _ content =>
      code = volcOk → ∃ sign c, job.sign = some sign ∧ sign ≠ [] ∧ content = some c ∧ p.md5 c = sign
  | _ => True

inductive Event where
  | startDownload (job : JobInfo) (env : StartEnv)
  | setDeviceModuleInfo (devices : List DeviceInfo)
  | upgradeReply (job : JobInfo)
  | reportInstallFailed (jobId : Bytes)
  | setDownloadDir (dir : Bytes)
  | setCallbacks (complete progress : Bool)
  | changeFile (path : Bytes) (content : Option Bytes)

def perform (p : Platform) (s : Ota) : Event → Emits Output Ota
  | .startDownload job env => iotOtaStartDownload p s job env
  | .setDeviceModuleInfo devices => iotOtaSetDeviceModuleInfo s devices
  | .upgradeReply job => keepJob s job
  | .reportInstallFailed jobId => iotOtaReportInstallFailed s jobId
  | .setDownloadDir dir => pure { s with downloadDir := some dir }
  | .setCallbacks complete progress =>
      pure { s with downloadCompleteCallback := complete, revDataProgressCallback := progress }
  | .changeFile path content => pure { s with files := put s.files path content }

/-- There is no state after a fault. -/
def handler (p : Platform) : Machine (Option Ota) Event where
  enabled := fun _ _ => True
  next := fun s e => s.bind (fun s => (perform p s e).next)

def StepVerified (p : Platform) (s : Option Ota) (e : Event) : Prop :=
  ∀ t, s = some t → AllOut (Verified p) (perform p t e)

/-- The signature of the last task, where its file matches it, is that of the job. -/
def SameSignature (p : Platform) (s : Option Ota) (e : Event) : Prop :=
  ∀ job env, e = .startDownload job env → ∀ o last sign content,
    s = some o → o.taskHashMap job.otaJobId = some last → o.downloadCompleteCallback = true →
      env.staleSign = some sign → sign ≠ [] → o.files last.otaFilePath = some content → p.md5 content = sign →
        job.sign = some sign

variable {p : Platform} {s : Ota} {t : Task}

theorem saveJobTaskInfo_verified : AllOut (Verified p) (iotOtaSaveJobTaskInfo s t) := by
  rw [iotOtaSaveJobTaskInfo]
  split
  · exact allOut_pure _
  · exact allOut_fault

theorem deleteTask_verified : AllOut (Verified p) (deleteTask s t) := by
  refine allOut_bind ?_ (fun s => ?_)
  · rw [iotOtaDeleteJobTaskInfo]
    split
    · exact allOut_pure _
    · exact allOut_fault
  · exact allOut_bind (allOut_emit trivial) (fun _ => allOut_bind (allOut_emit trivial) (fun _ => allOut_pure _))

theorem onDownloadError_verified (code : Int) : AllOut (Verified p) (onDownloadError s t code) :=
  allOut_bind (allOut_emit trivial) (fun _ => deleteTask_verified)

theorem onDataReceived_verified (len : Nat) : AllOut (Verified p) (onDataReceived p s t len) := by
  refine allOut_bind ?_ (fun percent => ?_)
  · rw [divide]
    split
    · split
      · exact allOut_fault
      · exact allOut_pure _
    · exact allOut_pure _
  · exact allOut_bind (allOut_emitIf trivial) (fun _ => allOut_pure _)

theorem signature_some {sign : Option Bytes} {v : Bytes} (h : signature sign = some v) : sign = some v ∧ v ≠ [] := by
  rw [signature, Option.filter_eq_some_iff] at h
  simpa using h

theorem saveJobTaskInfo_files {s' : Ota} (h : (iotOtaSaveJobTaskInfo s t).next = some s') : s'.files = s.files := by
  rw [iotOtaSaveJobTaskInfo] at h
  split at h
  · obtain rfl := Option.some.inj h
    rfl
  · exact absurd h (by simp [fault])

theorem checkDownload_verified {sign content : Bytes} (hsign : t.serverJobInfo.sign = some sign) (hne : sign ≠ [])
    (hfile : s.files t.otaFilePath = some content) : AllOut (Verified p) (checkDownload p s t sign content) := by
  rw [checkDownload]
  split
  next hmd5 =>
    refine allOut_bind (allOut_emit trivial) (fun _ => allOut_bind_iff.mpr ⟨saveJobTaskInfo_verified, fun s' hs' => ?_⟩)
    refine allOut_bind (allOut_emitIf fun _ => ?_) (fun _ => allOut_pure _)
    exact ⟨sign, content, hsign, hne, by rw [saveJobTaskInfo_files hs', hfile], hmd5⟩
  next => exact allOut_bind (allOut_emit trivial) (fun _ => allOut_pure _)

theorem onDownloadComplete_verified : AllOut (Verified p) (onDownloadComplete p s t) := by
  rw [onDownloadComplete]
  split
  next => exact deleteTask_verified
  next sign hs =>
    obtain ⟨hsign, hne⟩ := signature_some hs
    split
    next => exact allOut_fault
    next content hfile => exact allOut_bind (checkDownload_verified hsign hne hfile) (fun _ => deleteTask_verified)

theorem onCall_verified (writable : Bool) (d : Download) (call : Call) :
    AllOut (Verified p) (onCall p writable d call) := by
  cases call with
  | getBody cb body =>
      rw [onCall]
      split
      · exact allOut_fault
      · exact allOut_bind (onDataReceived_verified _) (fun _ => allOut_pure _)
  | error cb code msg =>
      rw [onCall]
      split
      · exact allOut_fault
      · exact allOut_bind (onDownloadError_verified _) (fun _ => allOut_pure _)
  | complete cb =>
      rw [onCall]
      split
      · exact allOut_fault
      · exact allOut_bind onDownloadComplete_verified (fun _ => allOut_pure _)
  | getSse cb event => exact allOut_pure _
  | downloadData dl body => exact allOut_pure _
  | downloadComplete dl => exact allOut_pure _
  | downloadError dl code => exact allOut_pure _

theorem onCalls_verified (writable : Bool) (d : Download) (calls : List Call) :
    AllOut (Verified p) (onCalls p writable d calls) := by
  induction calls generalizing d with
  | nil => exact allOut_pure _
  | cons call calls ih => exact allOut_bind (onCall_verified writable d call) ih

theorem download_verified (job : JobInfo) (url : Bytes) (env : StartEnv) :
    AllOut (Verified p) (download p s job url env) := by
  rw [download]
  split
  · exact allOut_fault
  · split
    · exact allOut_bind (onCalls_verified _ _ _) (fun _ => allOut_pure _)
    · exact allOut_fault

theorem reusable_iff (env : StartEnv) :
    reusable p s t env = true ↔
      ∃ sign content, env.staleSign = some sign ∧ sign ≠ [] ∧ s.files t.otaFilePath = some content ∧
        p.md5 content = sign ∧ s.downloadCompleteCallback = true := by
  rw [reusable]
  split
  next sign content hs hfile =>
    obtain ⟨hsign, hne⟩ := signature_some hs
    rw [Bool.and_eq_true, beq_iff_eq]
    constructor
    · rintro ⟨hmd5, hcb⟩
      exact ⟨sign, content, hsign, hne, hfile, hmd5, hcb⟩
    · rintro ⟨v, c, hv, -, hc, hmd5, hcb⟩
      rw [hsign] at hv
      rw [hfile] at hc
      exact ⟨by rw [Option.some.inj hc, hmd5, Option.some.inj hv], hcb⟩
  next hnone =>
    refine iff_of_false (by simp) ?_
    rintro ⟨sign, content, hsign, hne, hfile, -⟩
    exact hnone sign content (by simp [signature, hsign, hne]) hfile

theorem checkLastTask_verified (job : JobInfo) (env : StartEnv) :
    AllOut (Verified p) (checkLastTask p s job env) ↔
      ∀ last, s.taskHashMap job.otaJobId = some last → reusable p s last env = true → job.sign = env.staleSign := by
  rw [checkLastTask]
  cases hlast : s.taskHashMap job.otaJobId with
  | none => exact iff_of_true (allOut_pure _) (fun last h => absurd h (by simp))
  | some t =>
      by_cases hr : reusable p s t env = true
      · obtain ⟨sign, content, hsign, hne, hfile, hmd5, -⟩ := (reusable_iff env).mp hr
        have hout : AllOut (Verified p) (emit (downloadCompleteCall s job t.otaFilePath)) ↔
            job.sign = env.staleSign := by
          simp only [AllOut, emit, List.mem_singleton, forall_eq, downloadCompleteCall, Verified, hfile, hsign]
          constructor
          · intro h
            obtain ⟨v, c, hv, -, hc, hvc⟩ := h trivial
            rw [hv, ← hvc, ← Option.some.inj hc, hmd5]
          · intro h _
            exact ⟨sign, content, h, hne, rfl, hmd5⟩
        simp only [hr, if_true, allOut_bind_iff, hout]
        constructor
        · rintro ⟨h, -⟩ last hl -
          exact h
        · intro h
          exact ⟨h t rfl hr, fun _ _ => allOut_pure _⟩
      · simp only [hr, Bool.false_eq_true, if_false]
        refine iff_of_true (allOut_pure _) (fun last hl hrl => ?_)
        rw [← Option.some.inj hl] at hrl
        exact absurd hrl hr

theorem startDownload_verified (job : JobInfo) (env : StartEnv) :
    AllOut (Verified p) (iotOtaStartDownload p s job env) ↔ SameSignature p (some s) (.startDownload job env) := by
  have hbind : AllOut (Verified p) (iotOtaStartDownload p s job env) ↔
      AllOut (Verified p) (checkLastTask p s job env) := by
    refine allOut_bind_iff.trans (and_iff_left (fun b _ => ?_))
    split
    · exact allOut_pure _
    · split
      · exact allOut_pure _
      · split
        · exact allOut_pure _
        · exact download_verified job _ env
  rw [hbind, checkLastTask_verified]
  constructor
  · rintro h job' env' he o last sign content ho hlast hcb hsign hne hfile hmd5
    obtain ⟨rfl, rfl⟩ := Event.startDownload.inj he
    obtain rfl := Option.some.inj ho
    rw [h last hlast ((reusable_iff env).mpr ⟨sign, content, hsign, hne, hfile, hmd5, hcb⟩), hsign]
  · intro h last hlast hr
    obtain ⟨sign, content, hsign, hne, hfile, hmd5, hcb⟩ := (reusable_iff env).mp hr
    rw [h job env rfl s last sign content rfl hlast hcb hsign hne hfile hmd5, hsign]

theorem restoreModule_verified (device : DeviceInfo) : AllOut (Verified p) (restoreModule s device) := by
  rw [restoreModule]
  split
  · exact allOut_pure _
  · split
    · exact allOut_fault
    · split
      · exact allOut_bind (allOut_emit trivial) (fun _ => allOut_pure _)
      · split
        · exact allOut_pure _
        · exact allOut_pure _

theorem restoreModules_verified (devices : List DeviceInfo) : AllOut (Verified p) (restoreModules s devices) := by
  induction devices generalizing s with
  | nil => exact allOut_pure _
  | cons device devices ih => exact allOut_bind (restoreModule_verified device) (fun s => ih)

theorem stepVerified_iff (o : Option Ota) (e : Event) : StepVerified p o e ↔ SameSignature p o e := by
  cases o with
  | none =>
      refine iff_of_true (fun t h => absurd h (by simp)) ?_
      intro job env _ o last sign content ho
      exact absurd ho (by simp)
  | some s =>
      have hstep : StepVerified p (some s) e ↔ AllOut (Verified p) (perform p s e) := by
        simp [StepVerified]
      rw [hstep]
      cases e with
      | startDownload job env => exact startDownload_verified job env
      | setDeviceModuleInfo devices =>
          refine iff_of_true ?_ (fun job env he => absurd he (by simp))
          exact allOut_bind (restoreModules_verified devices)
            (fun _ => allOut_bind (allOut_emit trivial) (fun _ => allOut_pure _))
      | upgradeReply job =>
          refine iff_of_true ?_ (fun job env he => absurd he (by simp))
          rw [perform, keepJob]
          split
          · exact allOut_pure _
          · exact allOut_pure _
      | reportInstallFailed jobId =>
          refine iff_of_true ?_ (fun job env he => absurd he (by simp))
          refine allOut_bind (allOut_emit trivial) (fun _ => ?_)
          split
          · exact allOut_pure _
          · exact allOut_pure _
      | setDownloadDir dir => exact iff_of_true (allOut_pure _) (fun job env he => absurd he (by simp))
      | setCallbacks complete progress => exact iff_of_true (allOut_pure _) (fun job env he => absurd he (by simp))
      | changeFile path content => exact iff_of_true (allOut_pure _) (fun job env he => absurd he (by simp))

/-- In every run from every state of the handler, all successes that are announced have
been verified just when no call uses the file of a last task against another signature
than that of its job. -/
theorem verified_iff (p : Platform) (s : Option Ota) (es : List Event) :
    EveryStep (handler p) (StepVerified p) s es ↔ EveryStep (handler p) (SameSignature p) s es :=
  everyStep_congr stepVerified_iff

def oldJob : JobInfo := ⟨[74], 1, [50], some sampleUrl, [109], some digestA⟩

def newJob : JobInfo := { oldJob with sign := some digestB }

def restarted : Ota where
  kvJobs := put (fun _ => none) oldJob.moduleName (some oldJob)
  kvTasks := put (fun _ => none) oldJob.otaJobId (some ⟨[47, 102, 119], sampleDecodeUrl, 0, .toUpgrade⟩)
  deviceInfoArray := []
  downloadDir := some [47]
  downloadCompleteCallback := true
  revDataProgressCallback := false
  taskHashMap := fun _ => none
  files := put (fun _ => none) [47, 102, 119] (some [97])

/-- The job id comes again with the signature of another file, and the old file is
announced for it. -/
theorem reused_file_unverified :
    ¬EveryStep (handler (samplePlatform true)) (StepVerified (samplePlatform true)) (some restarted)
      [.setDeviceModuleInfo [⟨[109], [49]⟩], .startDownload newJob ⟨some digestA, true, .notStarted none⟩] := by
  rintro ⟨-, h, -⟩
  have hcall := h _ rfl (.downloadComplete volcOk newJob [47, 102, 119] (some [97])) List.mem_cons_self rfl
  obtain ⟨sign, c, hsign, -, hc, hmd5⟩ := hcall
  rw [← Option.some.inj hc, ← Option.some.inj hsign] at hmd5
  exact absurd hmd5 (by decide)

end OneSdk.OtaVerified
