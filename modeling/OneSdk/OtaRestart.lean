import OneSdk.Lifetimes
import OneSdk.OtaReports
import OneSdk.OtaVerified

namespace OneSdk.OtaRestart

open Runs ErrorCode CString HttpClient HttpTerminal OtaTypes Emits OtaDownload OtaVerified

/-- A handler with the job records that it reads from its key-value file one by one.
`serverJobInfo` is where the task under an id points to. -/
structure Holding where
  ota : Ota
  records : Lifetimes
  serverJobInfo : Bytes → Option Nat

def reopen (s : Ota) : Holding where
  ota :=
    { kvJobs := s.kvJobs
      kvTasks := s.kvTasks
      deviceInfoArray := []
      downloadDir := none
      downloadCompleteCallback := false
      revDataProgressCallback := false
      taskHashMap := fun _ => none
      files := s.files }
  records := .empty
  serverJobInfo := fun _ => none

/-- The record of a job is allocated, put under a task that is restored, and released at
the end of either branch. -/
def restoreModuleRecord (m : Holding) (device : DeviceInfo) : Emits Output Holding := do
  let s ← restoreModule m.ota device
  match m.ota.kvJobs device.moduleName with
  | none => pure { m with ota := s }
  | some job =>
      let restored := job.destVersion ≠ device.version ∧ (m.ota.kvTasks job.otaJobId).isSome
      pure
        { ota := s
          records := m.records.transient
          serverJobInfo :=
            if restored then put m.serverJobInfo job.otaJobId (some m.records.allocated) else m.serverJobInfo }

def restoreModuleRecords : Holding → List DeviceInfo → Emits Output Holding
  | m, [] => pure m
  | m, device :: devices => do
      let m ← restoreModuleRecord m device
      restoreModuleRecords m devices

def setDeviceModuleInfo (m : Holding) (devices : List DeviceInfo) : Emits Output Holding := do
  let m ← restoreModuleRecords { m with ota := { m.ota with deviceInfoArray := devices } } devices
  emit (.reportVersion devices)
  pure m

def Completed (p : Platform) (s : Ota) (t : Task) : Prop :=
  ∃ sign content, t.serverJobInfo.sign = some sign ∧ sign ≠ [] ∧ s.files t.otaFilePath = some content ∧
    p.md5 content = sign

/-- Where a process stops that has completed a download, and what is done before. -/
inductive Stop where
  | inCallback (es : List Event)
  | afterReturn (es : List Event)

def stopped (p : Platform) (s : Ota) (t : Task) : Stop → Option Ota
  | .inCallback es => final (handler p) (iotOtaSaveJobTaskInfo s t).next es
  | .afterReturn es => final (handler p) (onDownloadComplete p s t).next es

/-- The map holds under the id what is known of the task, with a job record to read. -/
def HoldsLive (m : Holding) (t : Task) : Prop :=
  ∃ kept n, m.ota.taskHashMap t.serverJobInfo.otaJobId = some kept ∧
    kept.otaFilePath = t.otaFilePath ∧ kept.decodeUrl = t.decodeUrl ∧ kept.retryTime = t.retryTime ∧
    kept.upgradeDeviceStatus = t.upgradeDeviceStatus ∧
    m.serverJobInfo t.serverJobInfo.otaJobId = some n ∧ m.records.Live n

def Survives (p : Platform) (s : Ota) (t : Task) (stop : Stop) (devices : List DeviceInfo) : Prop :=
  ∃ s' m, stopped p s t stop = some s' ∧ (setDeviceModuleInfo (reopen s') devices).next = some m ∧ HoldsLive m t

def AllDead (m : Holding) : Prop := ∀ id n, m.serverJobInfo id = some n → ¬m.records.Live n

def Forgotten (id : Bytes) (s : Ota) : Prop := s.kvTasks id = none ∧ s.taskHashMap id = none

variable {p : Platform} {s s' : Ota} {t : Task} {m m' : Holding} {device : DeviceInfo} {devices : List DeviceInfo}
  {id : Bytes}

theorem restoreModuleRecord_next :
    (restoreModuleRecord m device).next = some m' ↔
      (restoreModule m.ota device).next = some m'.ota ∧
        match m.ota.kvJobs device.moduleName with
        | none => m'.records = m.records ∧ m'.serverJobInfo = m.serverJobInfo
        | some job =>
            m'.records = m.records.transient ∧
              m'.serverJobInfo =
                if job.destVersion ≠ device.version ∧ (m.ota.kvTasks job.otaJobId).isSome then
                  put m.serverJobInfo job.otaJobId (some m.records.allocated)
                else m.serverJobInfo := by
  rw [restoreModuleRecord, bind_next]
  cases hs : (restoreModule m.ota device).next with
  | none => simp
  | some s =>
      obtain ⟨s', records, serverJobInfo⟩ := m'
      cases m.ota.kvJobs device.moduleName with
      | none => simp [eq_comm (a := m.records), eq_comm (a := m.serverJobInfo)]
      | some job => simp only [pure_def, Option.bind_some, Option.some.injEq, Holding.mk.injEq, eq_comm]

theorem restoreModuleRecord_dead (hm : (restoreModuleRecord m device).next = some m') (h : AllDead m) :
    AllDead m' := by
  obtain ⟨-, hjob⟩ := restoreModuleRecord_next.mp hm
  intro id n hid
  cases hj : m.ota.kvJobs device.moduleName with
  | none =>
      simp only [hj] at hjob
      rw [hjob.2] at hid
      rw [hjob.1]
      exact h id n hid
  | some job =>
      simp only [hj] at hjob
      rw [hjob.2] at hid
      rw [hjob.1]
      have hold (hid : m.serverJobInfo id = some n) : ¬m.records.transient.Live n :=
        fun hlive => h id n hid (Lifetimes.transient_live hlive)
      split at hid
      · rw [put] at hid
        split at hid
        · rw [← Option.some.inj hid]
          exact Lifetimes.transient_dead
        · exact hold hid
      · exact hold hid

theorem restoreModuleRecords_dead (hm : (restoreModuleRecords m devices).next = some m') (h : AllDead m) :
    AllDead m' := by
  induction devices generalizing m with
  | nil => exact Option.some.inj hm ▸ h
  | cons device devices ih =>
      rw [restoreModuleRecords, bind_next, Option.bind_eq_some_iff] at hm
      obtain ⟨m₁, hm₁, hm⟩ := hm
      exact ih hm (restoreModuleRecord_dead hm₁ h)

theorem restoreModuleRecord_ota :
    (restoreModuleRecord m device).next.map Holding.ota = (restoreModule m.ota device).next := by
  rw [restoreModuleRecord, bind_next]
  cases (restoreModule m.ota device).next with
  | none => rfl
  | some s =>
      cases m.ota.kvJobs device.moduleName with
      | none => rfl
      | some job => rfl

theorem restoreModuleRecords_ota :
    (restoreModuleRecords m devices).next.map Holding.ota = (restoreModules m.ota devices).next := by
  induction devices generalizing m with
  | nil => rfl
  | cons device devices ih =>
      rw [restoreModuleRecords, restoreModules, bind_next, bind_next, ← restoreModuleRecord_ota]
      cases (restoreModuleRecord m device).next with
      | none => rfl
      | some m₁ => exact ih

theorem setDeviceModuleInfo_next :
    (setDeviceModuleInfo m devices).next =
      (restoreModuleRecords { m with ota := { m.ota with deviceInfoArray := devices } } devices).next := by
  rw [setDeviceModuleInfo, bind_next]
  cases (restoreModuleRecords { m with ota := { m.ota with deviceInfoArray := devices } } devices).next with
  | none => rfl
  | some m' => rfl

theorem setDeviceModuleInfo_ota :
    (setDeviceModuleInfo m devices).next.map Holding.ota = (iotOtaSetDeviceModuleInfo m.ota devices).next := by
  rw [setDeviceModuleInfo_next, restoreModuleRecords_ota, iotOtaSetDeviceModuleInfo, bind_next]
  cases (restoreModules { m.ota with deviceInfoArray := devices } devices).next with
  | none => rfl
  | some s => rfl

theorem setDeviceModuleInfo_dead (hm : (setDeviceModuleInfo (reopen s) devices).next = some m) : AllDead m := by
  rw [setDeviceModuleInfo_next] at hm
  exact restoreModuleRecords_dead hm (fun id n h => absurd h (by simp [reopen]))

theorem not_holdsLive (h : AllDead m) : ¬HoldsLive m t := by
  rintro ⟨kept, n, -, -, -, -, -, hid, hlive⟩
  exact h _ n hid hlive

theorem restoreModule_forgotten (hs : (restoreModule s device).next = some s') (h : Forgotten id s) :
    Forgotten id s' := by
  rw [restoreModule] at hs
  split at hs
  next => exact Option.some.inj hs ▸ h
  next job _ =>
    split at hs
    next => exact absurd hs (by simp [fault])
    next =>
      split at hs
      next =>
        obtain rfl := Option.some.inj hs
        refine ⟨?_, h.2⟩
        simp only [put, h.1, ite_self]
      next =>
        split at hs
        next => exact Option.some.inj hs ▸ h
        next saved hsaved =>
          obtain rfl := Option.some.inj hs
          refine ⟨h.1, ?_⟩
          have hne : id ≠ job.otaJobId := by
            rintro rfl
            exact absurd (h.1.symm.trans hsaved) (by simp)
          simp only [put, if_neg hne, h.2]

theorem restoreModules_forgotten (hs : (restoreModules s devices).next = some s') (h : Forgotten id s) :
    Forgotten id s' := by
  induction devices generalizing s with
  | nil => exact Option.some.inj hs ▸ h
  | cons device devices ih =>
      rw [restoreModules, bind_next, Option.bind_eq_some_iff] at hs
      obtain ⟨s₁, hs₁, hs⟩ := hs
      exact ih hs (restoreModule_forgotten hs₁ h)

theorem setDeviceModuleInfo_forgotten (hm : (setDeviceModuleInfo (reopen s) devices).next = some m)
    (h : s.kvTasks id = none) : Forgotten id m.ota := by
  rw [setDeviceModuleInfo_next] at hm
  have hota := congrArg (Option.map Holding.ota) hm
  rw [restoreModuleRecords_ota] at hota
  exact restoreModules_forgotten hota ⟨h, rfl⟩

theorem deleteTask_forgotten (hs : (deleteTask s t).next = some s') : Forgotten t.serverJobInfo.otaJobId s' := by
  rw [deleteTask, bind_next, Option.bind_eq_some_iff] at hs
  obtain ⟨s₁, hs₁, hs⟩ := hs
  rw [iotOtaDeleteJobTaskInfo] at hs₁
  split at hs₁
  · obtain rfl := Option.some.inj hs₁
    obtain rfl := Option.some.inj hs
    exact ⟨by simp [put], by simp [put]⟩
  · exact absurd hs₁ (by simp [fault])

theorem onDownloadComplete_forgotten (hs : (onDownloadComplete p s t).next = some s') :
    Forgotten t.serverJobInfo.otaJobId s' := by
  rw [onDownloadComplete] at hs
  split at hs
  next => exact deleteTask_forgotten hs
  next sign _ =>
    split at hs
    next => exact absurd hs (by simp [fault])
    next content _ =>
      rw [bind_next, Option.bind_eq_some_iff] at hs
      obtain ⟨s₁, -, hs⟩ := hs
      exact deleteTask_forgotten hs

theorem startDownload_forgotten {job : JobInfo} {url : Bytes} {env : StartEnv} (h : Forgotten job.otaJobId s)
    (hurl : job.url = some url) (hsize : job.size ≠ 0) : iotOtaStartDownload p s job env =
      download p s job url env := by
  have hlast : checkLastTask p s job env = pure false := by rw [checkLastTask, h.2]
  rw [iotOtaStartDownload, hlast, hurl]
  simp [hsize]

theorem restart_downloads {job : JobInfo} {url : Bytes} (env : StartEnv)
    (hs : (onDownloadComplete p s t).next = some s') (hm : (setDeviceModuleInfo (reopen s') devices).next = some m)
    (hid : job.otaJobId = t.serverJobInfo.otaJobId) (hurl : job.url = some url) (hsize : job.size ≠ 0) :
    iotOtaStartDownload p m.ota job env = download p m.ota job url env := by
  apply startDownload_forgotten _ hurl hsize
  rw [hid]
  exact setDeviceModuleInfo_forgotten hm (onDownloadComplete_forgotten hs).1

/-- No completed download survives, wherever the process stops and whatever it does
before: the record of a job is released as soon as a task points to it. -/
theorem survives_never (p : Platform) (s : Ota) (t : Task) (stop : Stop) (devices : List DeviceInfo) :
    ¬Survives p s t stop devices := by
  rintro ⟨s', m, -, hm, hlive⟩
  exact not_holdsLive (setDeviceModuleInfo_dead hm) hlive

def completedOta : Ota :=
  { OtaReports.freshOta with
    kvJobs := put (fun _ => none) [109] (some OtaReports.signedJob)
    files := put (fun _ => none) [47, 102, 119] (some [97]) }

def completedTask : Task where
  serverJobInfo := OtaReports.signedJob
  decodeUrl := sampleDecodeUrl
  retryTime := 0
  isPendingToRetry := false
  upgradeDeviceStatus := .toUpgrade
  otaFilePath := [47, 102, 119]
  downloadFileSize := 1
  downloadedSize := 1

/-- The job is still kept for its module, which runs the version 1, but nothing is left
of the task; a stop in the callback leaves one whose job record is released. -/
theorem completedTask_lost :
    Completed (samplePlatform false) completedOta completedTask ∧
      (∃ s' m, stopped (samplePlatform false) completedOta completedTask (.afterReturn []) = some s' ∧
        (setDeviceModuleInfo (reopen s') [⟨[109], [49]⟩]).next = some m ∧
        m.ota.kvJobs [109] = some OtaReports.signedJob ∧ OtaReports.signedJob.destVersion ≠ [49] ∧
        m.ota.taskHashMap [74] = none) ∧
      (∃ s' m, stopped (samplePlatform false) completedOta completedTask (.inCallback []) = some s' ∧
        (setDeviceModuleInfo (reopen s') [⟨[109], [49]⟩]).next = some m ∧
        (m.ota.taskHashMap [74]).isSome ∧ m.serverJobInfo [74] = some 0 ∧ 0 ∈ m.records.released) ∧
      ¬Survives (samplePlatform false) completedOta completedTask (.afterReturn []) [⟨[109], [49]⟩] ∧
      ¬Survives (samplePlatform false) completedOta completedTask (.inCallback []) [⟨[109], [49]⟩] := by
  refine ⟨⟨digestA, [97], rfl, by decide, rfl, by decide⟩, ?_, ?_, ?_, ?_⟩
  · exact ⟨_, _, rfl, rfl, rfl, by decide, rfl⟩
  · exact ⟨_, _, rfl, rfl, rfl, rfl, by decide⟩
  · rintro ⟨s', m, -, hm, hlive⟩
    exact not_holdsLive (setDeviceModuleInfo_dead hm) hlive
  · rintro ⟨s', m, -, hm, hlive⟩
    exact not_holdsLive (setDeviceModuleInfo_dead hm) hlive

end OneSdk.OtaRestart
