import OneSdk.CString
import OneSdk.Emits

namespace OneSdk.OtaTypes

open CString

inductive Status where
  | toUpgrade
  | downloading
  | downloaded
  | diffRecovering
  | diffRecovered
  | installing
  | installed
  | success
  | failed
  deriving DecidableEq

structure DeviceInfo where
  moduleName : Bytes
  version : Bytes
  deriving DecidableEq

structure JobInfo where
  otaJobId : Bytes
  size : Nat
  destVersion : Bytes
  url : Option Bytes
  moduleName : Bytes
  sign : Option Bytes
  deriving DecidableEq

/-- `iot_ota_job_task_info_t`. `calloc` and `aws_json_get_str` leave no path absent. -/
structure Task where
  serverJobInfo : JobInfo
  decodeUrl : Bytes
  retryTime : Int
  isPendingToRetry : Bool
  upgradeDeviceStatus : Status
  otaFilePath : Bytes
  downloadFileSize : Nat
  downloadedSize : Nat
  deriving DecidableEq

structure SavedTask where
  otaFilePath : Bytes
  decodeUrl : Bytes
  retryTime : Int
  upgradeDeviceStatus : Status
  deriving DecidableEq

/-- `iot_ota_handler_t`, with the key-value file taken apart into jobs by module and
tasks by job, and with the files that downloads go to. -/
structure Ota where
  kvJobs : Bytes → Option JobInfo
  kvTasks : Bytes → Option SavedTask
  deviceInfoArray : List DeviceInfo
  downloadDir : Option Bytes
  downloadCompleteCallback : Bool
  revDataProgressCallback : Bool
  taskHashMap : Bytes → Option Task
  files : Bytes → Option Bytes

inductive Output where
  | report (jobId : Bytes) (status : Status) (code : Int)
  | reportVersion (devices : List DeviceInfo)
  | progress (job : JobInfo) (len : Nat) (percent : Nat)
  /-- `content` is the file at the path at the moment of the callback. -/
  | downloadComplete (code : Int) (job : JobInfo) (path : Bytes) (content : Option Bytes)
  | releaseJob (job : JobInfo)
  | releaseTask (jobId : Bytes)
  deriving DecidableEq

/-- What the code is built on. `aesDecode` is `aes_decode` under the secret of the device,
nothing where that returns NULL or overruns its buffer, and `md5` the digest that `md5File`
writes out. The C standard leaves a division by zero open. -/
structure Platform where
  md5 : Bytes → Bytes
  aesDecode : Bytes → Option Bytes
  divZeroTraps : Bool

def put {α : Type} (m : Bytes → Option α) (k : Bytes) (v : Option α) : Bytes → Option α :=
  fun x => if x = k then v else m x

def keySaveTaskInfo : Bytes := text "key_save_task_info_"

def taskKeyFits (jobId : Bytes) : Bool := decide (keySaveTaskInfo.length + jobId.length < 100)

def digestA : Bytes := text "0cc175b9c0f1b6a831c399e269772661"

def digestB : Bytes := text "92eb5ffee6ae2fec3ad71c777531578f"

def sampleUrl : Bytes := text "P2PmmfBIkPNpFlY8iHUOmA=="

def sampleDecodeUrl : Bytes := text "http://h/fw"

def samplePlatform (divZeroTraps : Bool) : Platform where
  md5 := fun content => if content = [97] then digestA else if content = [98] then digestB else []
  aesDecode := fun url => if url = sampleUrl then some sampleDecodeUrl else none
  divZeroTraps := divZeroTraps

end OneSdk.OtaTypes
