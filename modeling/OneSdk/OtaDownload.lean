import OneSdk.HttpTerminal
import OneSdk.OtaFileName
import OneSdk.OtaTypes

namespace OneSdk.OtaDownload

open ErrorCode CString HttpClient HttpTerminal OtaTypes Emits
open OtaFileName (extractFilename)

variable (p : Platform)

def deleteFwInfoFile (s : Ota) (path : Bytes) : Ota := { s with files := put s.files path none }

def iotOtaSaveJobTaskInfo (s : Ota) (t : Task) : Emits Output Ota :=
  if taskKeyFits t.serverJobInfo.otaJobId then
    pure
      { s with
        kvTasks := put s.kvTasks t.serverJobInfo.otaJobId
          (some ⟨t.otaFilePath, t.decodeUrl, t.retryTime, t.upgradeDeviceStatus⟩) }
  else fault

def iotOtaDeleteJobTaskInfo (s : Ota) (t : Task) : Emits Output Ota :=
  if taskKeyFits t.serverJobInfo.otaJobId then
    pure { s with kvTasks := put s.kvTasks t.serverJobInfo.otaJobId none }
  else fault

/-- The end that the three callbacks share. -/
def deleteTask (s : Ota) (t : Task) : Emits Output Ota := do
  let s ← iotOtaDeleteJobTaskInfo s t
  emit (.releaseJob t.serverJobInfo)
  emit (.releaseTask t.serverJobInfo.otaJobId)
  pure { s with taskHashMap := put s.taskHashMap t.serverJobInfo.otaJobId none }

def onDownloadError (s : Ota) (t : Task) (code : Int) : Emits Output Ota := do
  let s := deleteFwInfoFile s t.otaFilePath
  emit (.report t.serverJobInfo.otaJobId .failed code)
  deleteTask s t

def divide (n d : Nat) : Emits Output Nat :=
  if d = 0 then (if p.divZeroTraps then fault else pure 0) else pure (n / d)

def onDataReceived (s : Ota) (t : Task) (len : Nat) : Emits Output Task := do
  let t := { t with downloadedSize := t.downloadedSize + len }
  let percent ← divide p (100 * t.downloadedSize) t.downloadFileSize
  emitIf s.revDataProgressCallback (.progress t.serverJobInfo len percent)
  pure t

def downloadCompleteCall (s : Ota) (job : JobInfo) (path : Bytes) : Output :=
  .downloadComplete volcOk job path (s.files path)

/-- `sign != NULL && strlen(sign) > 0` -/
def signature (sign : Option Bytes) : Option Bytes := sign.filter (· ≠ [])

def checkDownload (s : Ota) (t : Task) (sign content : Bytes) : Emits Output Ota := do
  if p.md5 content = sign then
    emit (.report t.serverJobInfo.otaJobId .downloaded 0)
    let s ← iotOtaSaveJobTaskInfo s t
    emitIf s.downloadCompleteCallback (downloadCompleteCall s t.serverJobInfo t.otaFilePath)
    pure s
  else
    emit (.report t.serverJobInfo.otaJobId .failed volcErrOtaDownloadFileSignCheck)
    pure (deleteFwInfoFile s t.otaFilePath)

def onDownloadComplete (s : Ota) (t : Task) : Emits Output Ota := do
  match signature t.serverJobInfo.sign with
  | none => deleteTask s t
  | some sign =>
      match s.files t.otaFilePath with
      | none => fault
      | some content =>
          let s ← checkDownload p s t sign content
          deleteTask s t

/-- `ota_task`, until it is released, with the file that the download context holds. -/
structure Download where
  ota : Ota
  task : Option Task
  path : Bytes
  fileOpen : Bool

/-- `_internal_download_handle`. `writable` is whether the file can be opened for writing. -/
def internalDownloadHandle (writable : Bool) (d : Download) (body : Bytes) : Download :=
  if body = [] then d
  else if d.fileOpen || writable then
    let old := if d.fileOpen then (d.ota.files d.path).getD [] else []
    { d with ota := { d.ota with files := put d.ota.files d.path (some (old ++ body)) }, fileOpen := true }
  else d

def onCall (writable : Bool) (d : Download) : Call → Emits Output Download
  | .getBody _ body =>
      match d.task with
      | none => fault
      | some t => do
          let t ← onDataReceived p d.ota t body.length
          pure { d with task := some t }
  | .downloadData _ body => pure (internalDownloadHandle writable d body)
  | .error _ code _ =>
      match d.task with
      | none => fault
      | some t => do
          let s ← onDownloadError d.ota t code
          pure { d with ota := s, task := none }
  | .complete _ =>
      match d.task with
      | none => fault
      | some t => do
          let s ← onDownloadComplete p d.ota t
          pure { d with ota := s, task := none }
  | .downloadComplete _ => pure { d with fileOpen := false }
  | .downloadError _ _ => pure { d with fileOpen := false }
  | .getSse _ _ => pure d

def onCalls (writable : Bool) : Download → List Call → Emits Output Download
  | d, [] => pure d
  | d, call :: calls => do
      let d ← onCall p writable d call
      onCalls writable d calls

/-- What the HTTP layer does with a request: `http_request_async` fails, after the
connection error has been reported or without it, or the connection runs to its end. -/
inductive HttpBehaviour where
  | notStarted (reported : Option (Option Bytes))
  | started (c : Connection)
  deriving DecidableEq

def HttpBehaviour.callbacks : HttpBehaviour → List Reason
  | .notStarted none => []
  | .notStarted (some text) => [.connectionError text]
  | .started c => c.callbacks

def downloadRequest : RequestContext :=
  { newHttpCtx with
    isAsyncRequest := true
    onGetBodyCb := some ⟨1, 0⟩
    onErrorCb := some ⟨2, 0⟩
    onCompleteCb := some ⟨3, 0⟩
    downloadCtx := some ⟨4, 5, 6, 0⟩ }

/-- What the surroundings decide in one call: `staleSign` is what a read of the signature
finds in the record of the last task, which was released when the task was restored. -/
structure StartEnv where
  staleSign : Option Bytes
  writable : Bool
  http : HttpBehaviour
  deriving DecidableEq

def reusable (s : Ota) (t : Task) (env : StartEnv) : Bool :=
  match signature env.staleSign, s.files t.otaFilePath with
  | some sign, some content => p.md5 content == sign && s.downloadCompleteCallback
  | _, _ => false

def checkLastTask (s : Ota) (job : JobInfo) (env : StartEnv) : Emits Output Bool :=
  match s.taskHashMap job.otaJobId with
  | none => pure false
  | some t =>
      if reusable p s t env then do
        emit (downloadCompleteCall s job t.otaFilePath)
        pure true
      else pure (!t.isPendingToRetry)

def newTask (s : Ota) (job : JobInfo) (decodeUrl path : Bytes) : Task where
  serverJobInfo := job
  decodeUrl := decodeUrl
  retryTime := (s.taskHashMap job.otaJobId).elim 0 (fun t => t.retryTime + 1)
  isPendingToRetry := false
  upgradeDeviceStatus := .toUpgrade
  otaFilePath := path
  downloadFileSize := 0
  downloadedSize := 0

def download (s : Ota) (job : JobInfo) (url : Bytes) (env : StartEnv) : Emits Output Ota :=
  match p.aesDecode url with
  | none => fault
  | some decodeUrl =>
      match s.downloadDir, extractFilename decodeUrl with
      | some dir, some fileName => do
          let t := newTask s job decodeUrl (dir ++ fileName)
          let calls := (service downloadRequest env.http.callbacks).2
          let d ← onCalls p env.writable ⟨s, some t, dir ++ fileName, false⟩ calls
          pure d.ota
      | _, _ => fault

def iotOtaStartDownload (s : Ota) (job : JobInfo) (env : StartEnv) : Emits Output Ota := do
  if ← checkLastTask p s job env then pure s
  else
    match job.url with
    | none => pure s
    | some url => if job.size = 0 then pure s else download p s job url env

def iotOtaReportInstallFailed (s : Ota) (jobId : Bytes) : Emits Output Ota := do
  emit (.report jobId .failed volcErrOtaInstallFailed)
  match s.taskHashMap jobId with
  | none => pure s
  | some t => pure { s with taskHashMap := put s.taskHashMap jobId (some { t with isPendingToRetry := true }) }

/-- One module of `iot_ota_set_device_module_info`. The job record is released at the end
of either branch; a restored task goes on pointing to it. -/
def restoreModule (s : Ota) (device : DeviceInfo) : Emits Output Ota :=
  match s.kvJobs device.moduleName with
  | none => pure s
  | some job =>
      if ¬taskKeyFits job.otaJobId then fault
      else if job.destVersion = device.version then do
        emit (.report job.otaJobId .success 0)
        pure
          { s with
            kvJobs := put s.kvJobs device.moduleName none
            kvTasks := put s.kvTasks job.otaJobId none }
      else
        match s.kvTasks job.otaJobId with
        | none => pure s
        | some saved =>
            let t : Task :=
              { serverJobInfo := job
                decodeUrl := saved.decodeUrl
                retryTime := saved.retryTime
                isPendingToRetry := true
                upgradeDeviceStatus := saved.upgradeDeviceStatus
                otaFilePath := saved.otaFilePath
                downloadFileSize := 0
                downloadedSize := 0 }
            pure { s with taskHashMap := put s.taskHashMap job.otaJobId (some t) }

def restoreModules : Ota → List DeviceInfo → Emits Output Ota
  | s, [] => pure s
  | s, device :: devices => do
      let s ← restoreModule s device
      restoreModules s devices

def iotOtaSetDeviceModuleInfo (s : Ota) (devices : List DeviceInfo) : Emits Output Ota := do
  let s ← restoreModules { s with deviceInfoArray := devices } devices
  emit (.reportVersion devices)
  pure s

def keepJob (s : Ota) (job : JobInfo) : Emits Output Ota :=
  if job.url.isSome ∧ 0 < job.size then pure { s with kvJobs := put s.kvJobs job.moduleName (some job) } else pure s

end OneSdk.OtaDownload
