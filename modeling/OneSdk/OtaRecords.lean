import OneSdk.KvCrash
import OneSdk.OtaKeys
import OneSdk.OtaRestart

namespace OneSdk.OtaRecords

open CString KvStore KvCrash OtaTypes OtaKeys Emits Runs

structure Numbers (D : Type) where
  ofInt : Int → D
  toInt32 : D → Int
  toUInt64 : D → Nat

/-- The handler over its key-value file, as far as it keeps jobs and tasks. -/
structure Sys (O : Type) where
  ctx : KvCtx O
  taskHashMap : Bytes → Option Task

/-- `leftover` is what a local variable of each number holds before it is set. -/
inductive Event (D O : Type) where
  | reply (data : O) (leftover : Bytes → D)
  | save (t : Task)
  | delete (t : Task)
  | setModule (device : DeviceInfo) (leftover : Bytes → D)
  | restart

section Records

def statuses : List Status :=
  [.toUpgrade, .downloading, .downloaded, .diffRecovering, .diffRecovered, .installing, .installed, .success, .failed]

def codeOf (status : Status) : Int := statuses.idxOf status

/-- No other codes are ever stored. -/
def statusOf (code : Int) : Status := statuses.getD code.toNat .toUpgrade

variable {D O : Type} (json : CJson D O) (numbers : Numbers D) (leftover : Bytes → D)

def member (dataJson : Option O) (key : Bytes) : Option (Node D) :=
  dataJson.bind (awsJsonValueGetFromObject json · key)

def awsJsonGetStr (dataJson : Option O) (key : Bytes) : Bytes :=
  cstr (awsJsonValueGetString (member json dataJson key) []).2

def awsJsonGetNumVal (dataJson : Option O) (key : Bytes) : D :=
  (awsJsonValueGetNumber (member json dataJson key) (leftover key)).2

def otaDataJsonToOtaJobInfo (dataJson : Option O) : JobInfo where
  otaJobId := awsJsonGetStr json dataJson (text "ota_job_id")
  size := numbers.toUInt64 (awsJsonGetNumVal json leftover dataJson (text "size"))
  destVersion := awsJsonGetStr json dataJson (text "dest_version")
  url := some (awsJsonGetStr json dataJson (text "url"))
  moduleName := awsJsonGetStr json dataJson (text "module")
  sign := some (awsJsonGetStr json dataJson (text "sign"))

def awsJsonAddStrVal (dataJson : O) (key value : Bytes) : O :=
  (awsJsonValueAddToObject json dataJson key (awsJsonValueNewString value)).2

def awsJsonAddNumVal1 (dataJson : O) (key : Bytes) (value : D) : O :=
  (awsJsonValueAddToObject json dataJson key (awsJsonValueNewNumber value)).2

/-- The path is added twice; the second time it is refused. -/
def taskJson (t : Task) : O :=
  let o := awsJsonAddStrVal json json.createObject (text "ota_file_path") t.otaFilePath
  let o := awsJsonAddStrVal json o (text "decode_url") t.decodeUrl
  let o := awsJsonAddNumVal1 json o (text "retry_time") (numbers.ofInt t.retryTime)
  let o := awsJsonAddNumVal1 json o (text "upgrade_device_status") (numbers.ofInt (codeOf t.upgradeDeviceStatus))
  awsJsonAddStrVal json o (text "ota_file_path") t.otaFilePath

def readJob (saved : Bytes) : JobInfo :=
  otaDataJsonToOtaJobInfo json numbers leftover (awsJsonValueNewFromString json saved)

def readTask (saved : Bytes) : SavedTask where
  otaFilePath := awsJsonGetStr json (awsJsonValueNewFromString json saved) (text "ota_file_path")
  decodeUrl := awsJsonGetStr json (awsJsonValueNewFromString json saved) (text "decode_url")
  retryTime :=
    numbers.toInt32 (awsJsonGetNumVal json leftover (awsJsonValueNewFromString json saved) (text "retry_time"))
  upgradeDeviceStatus := statusOf (numbers.toInt32
    (awsJsonGetNumVal json leftover (awsJsonValueNewFromString json saved) (text "upgrade_device_status")))

end Records

section Handler

variable {D O : Type} (json : CJson D O) (numbers : Numbers D)

def nameOf (s : Bytes) : Name := ⟨cstr s, zero_notMem_cstr s⟩

/-- What of a job info decides where its task is looked for and whether it is done. -/
def decode (saved : Bytes) : Name × Bytes :=
  (nameOf (awsJsonGetStr json (awsJsonValueNewFromString json saved) (text "ota_job_id")),
    awsJsonGetStr json (awsJsonValueNewFromString json saved) (text "dest_version"))

/-- The handler after a write to its file, or after the array of the key has been overrun. -/
def Sys.written (sys : Sys O) : Option (KvCtx O) → Emits Output (Sys O)
  | none => fault
  | some ctx => pure { sys with ctx := ctx }

def keepJob (sys : Sys O) (data : O) (leftover : Bytes → D) : Emits Output (Sys O) :=
  let job := otaDataJsonToOtaJobInfo json numbers leftover (some data)
  if job.url.isSome ∧ 0 < job.size then
    sys.written
      (otaRevOtaUpgradePostReply json sys.ctx (nameOf job.moduleName) (awsByteBufAppendJsonString json data))
  else pure sys

def saveTask (sys : Sys O) (t : Task) : Emits Output (Sys O) :=
  sys.written (iotOtaSaveJobTaskInfo json sys.ctx (nameOf t.serverJobInfo.otaJobId)
    (awsByteBufAppendJsonString json (taskJson json numbers t)))

def deleteTask (sys : Sys O) (t : Task) : Emits Output (Sys O) :=
  sys.written (iotOtaDeleteJobTaskInfo json sys.ctx (nameOf t.serverJobInfo.otaJobId))

def restoredTask (job : JobInfo) (saved : SavedTask) : Task where
  serverJobInfo := job
  decodeUrl := saved.decodeUrl
  retryTime := saved.retryTime
  isPendingToRetry := true
  upgradeDeviceStatus := saved.upgradeDeviceStatus
  otaFilePath := saved.otaFilePath
  downloadFileSize := 0
  downloadedSize := 0

def restoreModule (sys : Sys O) (device : DeviceInfo) (leftover : Bytes → D) : Emits Output (Sys O) :=
  match iotOtaSetDeviceModuleInfo json (decode json) sys.ctx (nameOf device.moduleName) device.version with
  | none => fault
  | some (ctx, none) => pure { sys with ctx := ctx }
  | some (ctx, some found) =>
      let job := readJob json numbers leftover found.jobInfo
      if found.installed then do
        emit (.report job.otaJobId .success 0)
        pure { sys with ctx := ctx }
      else if found.taskInfo = [] then pure { sys with ctx := ctx }
      else
        let t := restoredTask job (readTask json numbers leftover found.taskInfo)
        pure ⟨ctx, put sys.taskHashMap job.otaJobId (some t)⟩

def restart (sys : Sys O) : Sys O := ⟨iotKvInit json sys.ctx.file, fun _ => none⟩

def overFile (sys : Sys O) : Event D O → Emits Output (Sys O)
  | .reply data leftover => keepJob json numbers sys data leftover
  | .save t => saveTask json numbers sys t
  | .delete t => deleteTask json sys t
  | .setModule device leftover => restoreModule json numbers sys device leftover
  | .restart => pure (restart json sys)

/-- The same events where the file is a map of jobs and a map of tasks. -/
def overMaps (s : Ota) : Event D O → Emits Output Ota
  | .reply data leftover => OtaDownload.keepJob s (otaDataJsonToOtaJobInfo json numbers leftover (some data))
  | .save t => OtaDownload.iotOtaSaveJobTaskInfo s t
  | .delete t => OtaDownload.iotOtaDeleteJobTaskInfo s t
  | .setModule device _ => OtaDownload.restoreModule s device
  | .restart => pure (OtaRestart.reopen s).ota

end Handler

section Members

variable {D O : Type} {json : CJson D O} {rereadNumber : D → Node D} {o o' : O}

theorem member_eq (hj : Assumed json) (ho : json.isObject o = true) (key : Bytes) :
    member json (some o) key = (KeyedList.lookup entryName (foldName (cstr key)) (json.children o)).map Prod.snd := by
  rw [member, Option.bind_some, awsJsonValueGetFromObject, if_neg (by simp [ho])]
  split
  · next hnone =>
      rw [hj.has o _ ho, Option.isSome_eq_false_iff, Option.isNone_iff_eq_none] at hnone
      rw [hnone, Option.map_none]
  · exact hj.got o (cstr key) ho

theorem added_fresh (hj : Assumed json) (ho : json.isObject o = true) (key : Bytes) (node : Node D)
    (hfresh : KeyedList.lookup entryName (foldName (cstr key)) (json.children o) = none) :
    json.isObject (awsJsonValueAddToObject json o key node).2 = true ∧
      json.children (awsJsonValueAddToObject json o key node).2 = json.children o ++ [(cstr key, node)] := by
  rw [awsJsonValueAddToObject, if_neg (by simp [ho]), if_neg (by rw [hj.has o _ ho, hfresh]; exact Bool.false_ne_true)]
  exact hj.added o (cstr key) node ho

theorem added_refused (hj : Assumed json) (ho : json.isObject o = true) (key : Bytes) (node : Node D)
    (hthere : (KeyedList.lookup entryName (foldName (cstr key)) (json.children o)).isSome = true) :
    (awsJsonValueAddToObject json o key node).2 = o := by
  rw [awsJsonValueAddToObject, if_neg (by simp [ho]), if_pos (by rw [hj.has o _ ho, hthere])]

/-- What is read again has the members that have been written. -/
theorem reread_member (hj : Assumed json) (ho : json.isObject o = true) {printed : Bytes}
    (hr : Reads json rereadNumber o printed) (hfixed : ∀ e ∈ json.children o, rereadEntry rereadNumber e = e)
    (key : Bytes) : member json (awsJsonValueNewFromString json printed) key = member json (some o) key := by
  obtain ⟨o', hparse, ho', hchildren⟩ := hr.parsed
  rw [map_fixed hfixed] at hchildren
  rw [awsJsonValueNewFromString, cstr_eq_self.mpr hr.whole, hparse, member_eq hj ho', member_eq hj ho, hchildren]

def taskMembers (numbers : Numbers D) (t : Task) : List (Entry D) :=
  [(text "ota_file_path", .string (cstr t.otaFilePath)), (text "decode_url", .string (cstr t.decodeUrl)),
    (text "retry_time", .number (numbers.ofInt t.retryTime)),
    (text "upgrade_device_status", .number (numbers.ofInt (codeOf t.upgradeDeviceStatus)))]

theorem taskJson_children (hj : Assumed json) (numbers : Numbers D) (t : Task) :
    json.isObject (taskJson json numbers t) = true ∧
      json.children (taskJson json numbers t) = taskMembers numbers t := by
  obtain ⟨h0, hc0⟩ := hj.created
  obtain ⟨h1, hc1⟩ := added_fresh hj h0 (text "ota_file_path") (awsJsonValueNewString t.otaFilePath)
    (by rw [hc0]; rfl)
  rw [hc0] at hc1
  obtain ⟨h2, hc2⟩ := added_fresh hj h1 (text "decode_url") (awsJsonValueNewString t.decodeUrl)
    (by rw [hc1]; rfl)
  rw [hc1] at hc2
  obtain ⟨h3, hc3⟩ := added_fresh hj h2 (text "retry_time")
    (awsJsonValueNewNumber (numbers.ofInt t.retryTime)) (by rw [hc2]; rfl)
  rw [hc2] at hc3
  obtain ⟨h4, hc4⟩ := added_fresh hj h3 (text "upgrade_device_status")
    (awsJsonValueNewNumber (numbers.ofInt (codeOf t.upgradeDeviceStatus))) (by rw [hc3]; rfl)
  rw [hc3] at hc4
  have hrefused := added_refused hj h4 (text "ota_file_path") (awsJsonValueNewString t.otaFilePath)
    (by rw [hc4]; rfl)
  rw [taskJson]
  dsimp only [awsJsonAddStrVal, awsJsonAddNumVal1]
  rw [hrefused]
  exact ⟨h4, hc4⟩

end Members

section Reads

variable {D O : Type} {json : CJson D O} {rereadNumber : D → Node D} {numbers : Numbers D}

/-- What is relied on for numbers, and for an entry without text. -/
structure Reading (json : CJson D O) (rereadNumber : D → Node D) (numbers : Numbers D) : Prop where
  empty : json.parse [] = none
  int32 (i : Int) : -2 ^ 31 ≤ i → i < 2 ^ 31 →
    rereadNumber (numbers.ofInt i) = .number (numbers.ofInt i) ∧ numbers.toInt32 (numbers.ofInt i) = i

/-- A job as it comes from the service: an object with a size, which is read again as it is printed. -/
structure JobObject (json : CJson D O) (rereadNumber : D → Node D) (data : O) : Prop where
  object : json.isObject data = true
  size : ∃ d, member json (some data) (text "size") = some (.number d)
  fixed : ∀ e ∈ json.children data, rereadEntry rereadNumber e = e
  reads : Reads json rereadNumber data (awsByteBufAppendJsonString json data)

structure TaskRecord (json : CJson D O) (rereadNumber : D → Node D) (numbers : Numbers D) (t : Task) : Prop where
  path : (0 : UInt8) ∉ t.otaFilePath
  url : (0 : UInt8) ∉ t.decodeUrl
  retry : -2 ^ 31 ≤ t.retryTime ∧ t.retryTime < 2 ^ 31
  reads : Reads json rereadNumber (taskJson json numbers t) (awsByteBufAppendJsonString json (taskJson json numbers t))

theorem printed_ne_nil {o : O} {printed : Bytes} (hn : Reading json rereadNumber numbers)
    (hr : Reads json rereadNumber o printed) : printed ≠ [] := by
  rintro rfl
  obtain ⟨o', hparse, _⟩ := hr.parsed
  rw [hn.empty] at hparse
  cases hparse

theorem readJob_printed (hj : Assumed json) {data : O} (hd : JobObject json rereadNumber data)
    (leftover leftover' : Bytes → D) :
    readJob json numbers leftover (awsByteBufAppendJsonString json data) =
      otaDataJsonToOtaJobInfo json numbers leftover' (some data) := by
  obtain ⟨size, hsize⟩ := hd.size
  simp only [readJob, otaDataJsonToOtaJobInfo, awsJsonGetStr, awsJsonGetNumVal,
    reread_member hj hd.object hd.reads hd.fixed, hsize]
  rfl

theorem codeOf_range (status : Status) : -2 ^ 31 ≤ codeOf status ∧ codeOf status < 2 ^ 31 := by
  cases status <;> decide

theorem statusOf_codeOf (status : Status) : statusOf (codeOf status) = status := by
  cases status <;> rfl

theorem readTask_printed (hj : Assumed json) (hn : Reading json rereadNumber numbers) {t : Task}
    (ht : TaskRecord json rereadNumber numbers t) (leftover : Bytes → D) :
    readTask json numbers leftover (awsByteBufAppendJsonString json (taskJson json numbers t)) =
      ⟨t.otaFilePath, t.decodeUrl, t.retryTime, t.upgradeDeviceStatus⟩ := by
  obtain ⟨hobj, hchildren⟩ := taskJson_children hj numbers t
  have hretry := hn.int32 _ ht.retry.1 ht.retry.2
  have hcode := hn.int32 _ (codeOf_range t.upgradeDeviceStatus).1 (codeOf_range t.upgradeDeviceStatus).2
  have hfixed : ∀ e ∈ json.children (taskJson json numbers t), rereadEntry rereadNumber e = e := by
    rw [hchildren, taskMembers]
    simp only [List.forall_mem_cons, List.not_mem_nil, false_implies, implies_true, and_true]
    refine ⟨rfl, rfl, ?_, ?_⟩
    · rw [rereadEntry, rereadNode, hretry.1]
    · rw [rereadEntry, rereadNode, hcode.1]
  have hmember (key : Bytes) : member json (awsJsonValueNewFromString json (awsByteBufAppendJsonString json
      (taskJson json numbers t))) key =
        (KeyedList.lookup entryName (foldName (cstr key)) (taskMembers numbers t)).map Prod.snd := by
    rw [reread_member hj hobj ht.reads hfixed, member_eq hj hobj, hchildren]
  have hpath : KeyedList.lookup entryName (foldName (cstr (text "ota_file_path"))) (taskMembers numbers t) =
      some (text "ota_file_path", .string (cstr t.otaFilePath)) := rfl
  have hurl : KeyedList.lookup entryName (foldName (cstr (text "decode_url"))) (taskMembers numbers t) =
      some (text "decode_url", .string (cstr t.decodeUrl)) := rfl
  have hcount : KeyedList.lookup entryName (foldName (cstr (text "retry_time"))) (taskMembers numbers t) =
      some (text "retry_time", .number (numbers.ofInt t.retryTime)) := rfl
  have hstatus : KeyedList.lookup entryName (foldName (cstr (text "upgrade_device_status"))) (taskMembers numbers t) =
      some (text "upgrade_device_status", .number (numbers.ofInt (codeOf t.upgradeDeviceStatus))) := rfl
  rw [readTask]
  simp only [awsJsonGetStr, awsJsonGetNumVal, hmember, hpath, hurl, hcount, hstatus, Option.map_some,
    awsJsonValueGetString, awsJsonValueGetNumber, hretry.2, hcode.2, statusOf_codeOf, cstr_eq_self.mpr ht.path,
    cstr_eq_self.mpr ht.url]

end Reads

section Levels

variable {D O : Type} (json : CJson D O) (rereadNumber : D → Node D) (numbers : Numbers D) (modules jobIds : Set Name)

def writesOf (sys : Sys O) : Event D O → List (Write D)
  | .reply data leftover =>
      let job := otaDataJsonToOtaJobInfo json numbers leftover (some data)
      if 0 < job.size then [.addString (keySaveJobInfo ++ job.moduleName) (awsByteBufAppendJsonString json data)]
      else []
  | .save t =>
      [.addString (keySaveTaskInfo ++ t.serverJobInfo.otaJobId)
        (awsByteBufAppendJsonString json (taskJson json numbers t))]
  | .delete t => [.removeKey (keySaveTaskInfo ++ t.serverJobInfo.otaJobId)]
  | .setModule device _ =>
      let jobInfo := iotGetKvString json sys.ctx (keySaveJobInfo ++ device.moduleName) []
      if jobInfo ≠ [] ∧ (decode json jobInfo).2 = device.version then
        [.removeKey (keySaveJobInfo ++ device.moduleName), .removeKey (keySaveTaskInfo ++ (decode json jobInfo).1.val)]
      else []
  | .restart => []

def Named : Event D O → Prop
  | .reply data leftover =>
      let job := otaDataJsonToOtaJobInfo json numbers leftover (some data)
      JobObject json rereadNumber data ∧ nameOf job.moduleName ∈ modules ∧ nameOf job.otaJobId ∈ jobIds
  | .save t =>
      TaskRecord json rereadNumber numbers t ∧ ∃ jobId ∈ jobIds, jobId.val = t.serverJobInfo.otaJobId
  | .delete t => ∃ jobId ∈ jobIds, jobId.val = t.serverJobInfo.otaJobId
  | .setModule device _ => ∃ moduleName ∈ modules, moduleName.val = device.moduleName
  | .restart => True

/-- The handler over the file and the handler over the maps, each with its own state. -/
def levels : Machine (Sys O × Ota) (Event D O) where
  enabled p e :=
    Named json rereadNumber numbers modules jobIds e ∧
      Legal (KvCrash.machine json rereadNumber) p.1.ctx ((writesOf json numbers p.1 e).map .op)
  next p e :=
    ((overFile json numbers p.1 e).next.getD p.1, (overMaps json numbers p.2 e).next.getD p.2)

/-- Both levels report the same and restore the same tasks. -/
def Agree (p : Sys O × Ota) (e : Event D O) : Prop :=
  (overFile json numbers p.1 e).out = (overMaps json numbers p.2 e).out ∧
    ∃ sys s, (overFile json numbers p.1 e).next = some sys ∧ (overMaps json numbers p.2 e).next = some s ∧
      sys.taskHashMap = s.taskHashMap

def recordOf {α : Type} (read : Bytes → α) (printed : Bytes) : Option α :=
  if printed = [] then none else some (read printed)

/-- The maps hold what is read from the texts, whatever is left over in the local variables. -/
structure Recorded (saved : Saved) (s : Ota) : Prop where
  job : ∀ m ∈ modules, ∀ leftover, s.kvJobs m.val = recordOf (readJob json numbers leftover) (saved.jobs m)
  task : ∀ j ∈ jobIds, ∀ leftover, s.kvTasks j.val = recordOf (readTask json numbers leftover) (saved.tasks j)

structure Stands (sys : Sys O) (s : Ota) : Prop where
  texts : ∃ saved, Keeps json (decode json) modules jobIds sys.ctx saved ∧ Recorded json numbers modules jobIds saved s
  durable : Durable json rereadNumber sys.ctx
  tasks : sys.taskHashMap = s.taskHashMap

def Follows (r : Emits Output (Sys O)) (a : Emits Output Ota) : Prop :=
  r.out = a.out ∧ ∃ sys s, r.next = some sys ∧ a.next = some s ∧ Stands json rereadNumber numbers modules jobIds sys s

end Levels

section Steps

variable {D O : Type} {json : CJson D O} {rereadNumber : D → Node D} {numbers : Numbers D} {modules jobIds : Set Name}
  {saved : Saved} {sys : Sys O} {s : Ota}

theorem nameOf_val (n : Name) : nameOf n.val = n := Subtype.ext (cstr_eq_self.mpr n.property)

theorem recordOf_nil {α : Type} (read : Bytes → α) : recordOf read [] = none := if_pos rfl

theorem recordOf_some {α : Type} {read : Bytes → α} {printed : Bytes} {x : α} (hne : printed ≠ [])
    (hread : read printed = x) : recordOf read printed = some x := by
  rw [recordOf, if_neg hne, hread]

theorem put_update {α : Type} {f : Bytes → Option α} {g : Name → Bytes} {read : Bytes → α} {names : Set Name} {n : Name}
    {v : Bytes} (h : ∀ m ∈ names, f m.val = recordOf read (g m)) :
    ∀ m ∈ names, put f n.val (recordOf read v) m.val = recordOf read (Function.update g n v m) := by
  intro m hm
  by_cases hsame : m = n
  · subst hsame
    rw [put, if_pos rfl, Function.update_self]
  · rw [put, if_neg (fun hval => hsame (Subtype.ext hval)), Function.update_of_ne hsame]
    exact h m hm

theorem Recorded.setJob (h : Recorded json numbers modules jobIds saved s) (m : Name) {v : Bytes} (job : Option JobInfo)
    (hv : ∀ leftover, job = recordOf (readJob json numbers leftover) v) :
    Recorded json numbers modules jobIds { saved with jobs := Function.update saved.jobs m v }
      { s with kvJobs := put s.kvJobs m.val job } where
  job m' hm' leftover := by
    rw [hv leftover]
    exact put_update (fun m hm => h.job m hm leftover) m' hm'
  task := h.task

theorem Recorded.setTask (h : Recorded json numbers modules jobIds saved s) {j : Name} {v : Bytes}
    {task : Option SavedTask} (hv : ∀ leftover, task = recordOf (readTask json numbers leftover) v) :
    Recorded json numbers modules jobIds { saved with tasks := Function.update saved.tasks j v }
      { s with kvTasks := put s.kvTasks j.val task } where
  job := h.job
  task j' hj' leftover := by
    rw [hv leftover]
    exact put_update (fun j hj => h.task j hj leftover) j' hj'

theorem durable_of_writes (hj : Assumed json) {ctx : KvCtx O} (hd : Durable json rereadNumber ctx) {ws : List (Write D)}
    (hws : ∀ w ∈ ws, Readable rereadNumber w) (hl : Legal (KvCrash.machine json rereadNumber) ctx (ws.map .op)) :
    Durable json rereadNumber (ws.foldl (perform json) ctx) := by
  induction ws generalizing ctx with
  | nil => exact hd
  | cons w ws ih =>
      exact ih (op_durable hj hd hl.1 (hws w List.mem_cons_self)) (fun w' hw' => hws w' (List.mem_cons_of_mem _ hw'))
        hl.2

theorem follows_written (ctx : KvCtx O) {r : Option (KvCtx O)} (hr : r = some ctx)
    (h : Stands json rereadNumber numbers modules jobIds { sys with ctx := ctx } s) :
    Follows json rereadNumber numbers modules jobIds (sys.written r) (pure s) := by
  rw [hr]
  exact ⟨rfl, _, _, rfl, rfl, h⟩

theorem reply_follows (hj : Assumed json) (hn : Reading json rereadNumber numbers)
    (hs : ShortAndUncased modules jobIds) (h : Stands json rereadNumber numbers modules jobIds sys s) {data : O}
    {leftover : Bytes → D} (hnamed : Named json rereadNumber numbers modules jobIds (.reply data leftover))
    (hl : Legal (KvCrash.machine json rereadNumber) sys.ctx
      ((writesOf json numbers sys (.reply data leftover)).map .op)) :
    Follows json rereadNumber numbers modules jobIds (keepJob json numbers sys data leftover)
      (OtaDownload.keepJob s (otaDataJsonToOtaJobInfo json numbers leftover (some data))) := by
  obtain ⟨hdata, hm, hid⟩ := hnamed
  obtain ⟨saved, hk, hrec⟩ := h.texts
  rw [keepJob, OtaDownload.keepJob]
  generalize hjob : otaDataJsonToOtaJobInfo json numbers leftover (some data) = job at hm hid
  by_cases hkeep : job.url.isSome ∧ 0 < job.size
  · have hmodule : (nameOf job.moduleName).val = job.moduleName := by
      rw [← hjob]
      exact cstr_eq_self.mpr (zero_notMem_cstr _)
    have hwhole : cstr (awsByteBufAppendJsonString json data) = awsByteBufAppendJsonString json data :=
      cstr_eq_self.mpr hdata.reads.whole
    have hread (leftover' : Bytes → D) :
        readJob json numbers leftover' (awsByteBufAppendJsonString json data) = job :=
      (readJob_printed hj hdata leftover' leftover).trans hjob
    rw [if_pos hkeep, if_pos hkeep]
    rw [writesOf, hjob, if_pos hkeep.2, ← hmodule] at hl
    refine follows_written (iotAddKvString json sys.ctx (keySaveJobInfo ++ (nameOf job.moduleName).val)
      (awsByteBufAppendJsonString json data)) ?_ ⟨⟨_, hk.setJob hs hm
        (added_rewrites hj hk.wellFormed _ (awsByteBufAppendJsonString json data)) (fun _ => ?_), ?_⟩, ?_, h.tasks⟩
    · rw [otaRevOtaUpgradePostReply, postReplyKey, Keeps.jobKey hs hm]
      rfl
    · rw [hwhole]
      rwa [← hread leftover] at hid
    · have hset := hrec.setJob (nameOf job.moduleName) (some job)
        fun leftover' => (recordOf_some (printed_ne_nil hn hdata.reads) (hread leftover')).symm
      rwa [hmodule, ← hwhole] at hset
    · exact durable_of_writes hj h.durable (fun w hw => by rw [List.mem_singleton.mp hw]; trivial) hl
  · rw [if_neg hkeep, if_neg hkeep]
    exact ⟨rfl, _, _, rfl, rfl, h⟩

theorem save_follows (hj : Assumed json) (hn : Reading json rereadNumber numbers)
    (hs : ShortAndUncased modules jobIds) (h : Stands json rereadNumber numbers modules jobIds sys s) {t : Task}
    (hnamed : Named json rereadNumber numbers modules jobIds (.save t))
    (hl : Legal (KvCrash.machine json rereadNumber) sys.ctx ((writesOf json numbers sys (.save t)).map .op)) :
    Follows json rereadNumber numbers modules jobIds (saveTask json numbers sys t)
      (OtaDownload.iotOtaSaveJobTaskInfo s t) := by
  obtain ⟨htask, jobId, hmem, hid⟩ := hnamed
  obtain ⟨saved, hk, hrec⟩ := h.texts
  have hwhole : cstr (awsByteBufAppendJsonString json (taskJson json numbers t)) =
      awsByteBufAppendJsonString json (taskJson json numbers t) := cstr_eq_self.mpr htask.reads.whole
  have hfits : taskKeyFits jobId.val = true := by
    rw [← saveTaskKey_isSome, saveTaskKey, Keeps.taskKey hs hmem]
    rfl
  rw [writesOf, ← hid] at hl
  rw [saveTask, OtaDownload.iotOtaSaveJobTaskInfo, ← hid, nameOf_val, if_pos hfits]
  refine follows_written (iotAddKvString json sys.ctx (keySaveTaskInfo ++ jobId.val)
    (awsByteBufAppendJsonString json (taskJson json numbers t))) ?_
      ⟨⟨_, hk.setTask hs hmem (added_rewrites hj hk.wellFormed _ _), ?_⟩, ?_, h.tasks⟩
  · rw [iotOtaSaveJobTaskInfo, saveTaskKey, Keeps.taskKey hs hmem]
    rfl
  · rw [hwhole]
    exact hrec.setTask fun leftover =>
      (recordOf_some (printed_ne_nil hn htask.reads) (readTask_printed hj hn htask leftover)).symm
  · exact durable_of_writes hj h.durable (fun w hw => by rw [List.mem_singleton.mp hw]; trivial) hl

theorem delete_follows (hj : Assumed json) (hs : ShortAndUncased modules jobIds)
    (h : Stands json rereadNumber numbers modules jobIds sys s) {t : Task}
    (hnamed : Named json rereadNumber numbers modules jobIds (.delete t))
    (hl : Legal (KvCrash.machine json rereadNumber) sys.ctx ((writesOf json numbers sys (.delete t)).map .op)) :
    Follows json rereadNumber numbers modules jobIds (deleteTask json sys t)
      (OtaDownload.iotOtaDeleteJobTaskInfo s t) := by
  obtain ⟨jobId, hmem, hid⟩ := hnamed
  obtain ⟨saved, hk, hrec⟩ := h.texts
  have hfits : taskKeyFits jobId.val = true := by
    rw [← saveTaskKey_isSome, saveTaskKey, Keeps.taskKey hs hmem]
    rfl
  rw [writesOf, ← hid] at hl
  rw [deleteTask, OtaDownload.iotOtaDeleteJobTaskInfo, ← hid, nameOf_val, if_pos hfits]
  refine follows_written (iotRemoveKey json sys.ctx (keySaveTaskInfo ++ jobId.val)) ?_
    ⟨⟨_, hk.setTask hs hmem (removed_rewrites hj hk.wellFormed _),
      hrec.setTask fun leftover => (recordOf_nil _).symm⟩, ?_, h.tasks⟩
  · rw [iotOtaDeleteJobTaskInfo, deleteTaskKey, Keeps.taskKey hs hmem]
    rfl
  · exact durable_of_writes hj h.durable (fun w hw => by rw [List.mem_singleton.mp hw]; trivial) hl

theorem setModule_writes (numbers : Numbers D) (hs : ShortAndUncased modules jobIds) {m : Name}
    (hm : m ∈ modules) {device : DeviceInfo}
    (hmod : m.val = device.moduleName) {next : KvCtx O} {found : Option Found} (leftover : Bytes → D)
    (h : iotOtaSetDeviceModuleInfo json (decode json) sys.ctx m device.version = some (next, found)) :
    next = (writesOf json numbers sys (.setModule device leftover)).foldl (perform json) sys.ctx := by
  rw [iotOtaSetDeviceModuleInfo, deviceJobKey_short (hs.module_short m hm), hmod] at h
  rw [writesOf]
  dsimp only at h ⊢
  generalize iotGetKvString json sys.ctx (keySaveJobInfo ++ device.moduleName) [] = jobInfo at h ⊢
  by_cases hnone : jobInfo = []
  · rw [if_pos hnone, Option.some.injEq, Prod.mk.injEq] at h
    rw [if_neg (fun hboth => hboth.1 hnone)]
    exact h.1.symm
  · rw [if_neg hnone, Option.map_eq_some_iff] at h
    obtain ⟨taskKey, hkey, hbranch⟩ := h
    rw [(sprintfKey_eq_some.mp hkey).2] at hbranch
    by_cases hversion : (decode json jobInfo).2 = device.version
    · rw [if_pos hversion, Prod.mk.injEq] at hbranch
      rw [if_pos ⟨hnone, hversion⟩]
      exact hbranch.1.symm
    · rw [if_neg hversion, Prod.mk.injEq] at hbranch
      rw [if_neg (fun hboth => hversion hboth.2)]
      exact hbranch.1.symm

theorem readable_of_removal {ws : List (Write D)} (h : ∀ w ∈ ws, ∃ key, w = .removeKey key) :
    ∀ w ∈ ws, Readable rereadNumber w := by
  intro w hw
  obtain ⟨key, rfl⟩ := h w hw
  trivial

theorem setModule_readable {device : DeviceInfo} {leftover : Bytes → D} :
    ∀ w ∈ writesOf json numbers sys (.setModule device leftover), Readable rereadNumber w := by
  refine readable_of_removal fun w hw => ?_
  rw [writesOf] at hw
  split at hw
  · rcases List.mem_pair.mp hw with rfl | rfl
    · exact ⟨_, rfl⟩
    · exact ⟨_, rfl⟩
  · cases hw

theorem setModule_follows (hj : Assumed json) (hs : ShortAndUncased modules jobIds)
    (h : Stands json rereadNumber numbers modules jobIds sys s) {device : DeviceInfo} {leftover : Bytes → D}
    (hnamed : Named json rereadNumber numbers modules jobIds (.setModule device leftover))
    (hl : Legal (KvCrash.machine json rereadNumber) sys.ctx
      ((writesOf json numbers sys (.setModule device leftover)).map .op)) :
    Follows json rereadNumber numbers modules jobIds (restoreModule json numbers sys device leftover)
      (OtaDownload.restoreModule s device) := by
  obtain ⟨m, hm, hmod⟩ := hnamed
  obtain ⟨saved, hk, hrec⟩ := h.texts
  obtain ⟨next, hset, hkeep⟩ := hk.setModule hs hj hm device.version
  have hnext := setModule_writes numbers hs hm hmod leftover hset
  have hdurable : Durable json rereadNumber next := by
    rw [hnext]
    exact durable_of_writes hj h.durable setModule_readable hl
  have hjob := hrec.job m hm leftover
  rw [restoreModule, ← hmod, nameOf_val, hset, OtaDownload.restoreModule, ← hmod, hjob]
  rw [intended] at hkeep ⊢
  dsimp only at hkeep ⊢
  by_cases hnone : saved.jobs m = []
  · rw [if_pos hnone] at hkeep ⊢
    rw [hnone, recordOf_nil]
    exact ⟨rfl, _, _, rfl, rfl, ⟨saved, hkeep, hrec⟩, hdurable, h.tasks⟩
  · have hjobId := hk.named m hm hnone
    have hid : (readJob json numbers leftover (saved.jobs m)).otaJobId = (decode json (saved.jobs m)).1.val :=
      (cstr_eq_self.mpr (zero_notMem_cstr _)).symm
    have hversion : (readJob json numbers leftover (saved.jobs m)).destVersion = (decode json (saved.jobs m)).2 := rfl
    have hfits : taskKeyFits (decode json (saved.jobs m)).1.val = true := by
      rw [← saveTaskKey_isSome, saveTaskKey, Keeps.taskKey hs hjobId]
      rfl
    have htask := hrec.task _ hjobId leftover
    rw [if_neg hnone] at hkeep ⊢
    rw [recordOf_some hnone rfl]
    dsimp only
    rw [hid, hversion, if_neg (not_not.mpr hfits), htask]
    by_cases hdone : (decode json (saved.jobs m)).2 = device.version
    · rw [if_pos hdone] at hkeep ⊢
      dsimp only
      rw [if_pos rfl, if_pos hdone, hid]
      refine ⟨rfl, _, _, rfl, rfl, ⟨_, hkeep, ?_⟩, hdurable, h.tasks⟩
      exact (hrec.setJob m none fun _ => (recordOf_nil _).symm).setTask fun _ => (recordOf_nil _).symm
    · rw [if_neg hdone] at hkeep ⊢
      dsimp only
      rw [if_neg Bool.false_ne_true, if_neg hdone]
      by_cases hgone : saved.tasks (decode json (saved.jobs m)).1 = []
      · rw [if_pos hgone, hgone, recordOf_nil]
        exact ⟨rfl, _, _, rfl, rfl, ⟨saved, hkeep, hrec⟩, hdurable, h.tasks⟩
      · rw [if_neg hgone, recordOf_some hgone rfl]
        refine ⟨rfl, _, _, rfl, rfl, ⟨saved, hkeep, hrec.job, hrec.task⟩, hdurable, ?_⟩
        rw [h.tasks, hid]
        rfl

theorem getString_congr (hj : Assumed json) {ctx ctx' : KvCtx O} (hc : WellFormed json ctx.kvJsonData)
    (hc' : WellFormed json ctx'.kvJsonData) (hsame : json.children ctx'.kvJsonData = json.children ctx.kvJsonData)
    (key out : Bytes) : iotGetKvString json ctx' key out = iotGetKvString json ctx key out := by
  rw [iotGetKvString, iotGetKvString, getFromObject hj hc, getFromObject hj hc', hsame]

theorem restart_follows (hj : Assumed json) (h : Stands json rereadNumber numbers modules jobIds sys s) :
    Follows json rereadNumber numbers modules jobIds (pure (restart json sys)) (pure (OtaRestart.reopen s).ota) := by
  obtain ⟨saved, hk, hrec⟩ := h.texts
  have hsame := getString_congr hj hk.wellFormed h.durable.savedWellFormed h.durable.saved
  refine ⟨rfl, _, _, rfl, rfl, ⟨saved, ⟨h.durable.savedWellFormed, ?_, ?_, hk.named⟩, hrec.job, hrec.task⟩,
    reopen_durable h.durable, rfl⟩
  · exact fun m hm => (hsame _ _).trans (hk.job m hm)
  · exact fun j hj => (hsame _ _).trans (hk.task j hj)

theorem overFile_follows (hj : Assumed json) (hn : Reading json rereadNumber numbers)
    (hs : ShortAndUncased modules jobIds) (h : Stands json rereadNumber numbers modules jobIds sys s) {e : Event D O}
    (he : (levels json rereadNumber numbers modules jobIds).enabled (sys, s) e) :
    Follows json rereadNumber numbers modules jobIds (overFile json numbers sys e) (overMaps json numbers s e) := by
  cases e with
  | reply data leftover => exact reply_follows hj hn hs h he.1 he.2
  | save t => exact save_follows hj hn hs h he.1 he.2
  | delete t => exact delete_follows hj hs h he.1 he.2
  | setModule device leftover => exact setModule_follows hj hs h he.1 he.2
  | restart => exact restart_follows hj h

end Steps

section Results

variable {D O : Type} {json : CJson D O} {rereadNumber : D → Node D} {numbers : Numbers D} {modules jobIds : Set Name}

def opened (json : CJson D O) : Sys O × Ota :=
  (⟨iotKvInit json none, fun _ => none⟩,
    ⟨fun _ => none, fun _ => none, [], none, false, false, fun _ => none, fun _ => none⟩)

theorem opened_stands (hj : Assumed json) :
    Stands json rereadNumber numbers modules jobIds (opened json).1 (opened json).2 := by
  have hwf : WellFormed json (iotKvInit json none).kvJsonData := created_wellFormed hj
  have hnil : json.children (iotKvInit json none).kvJsonData = [] := hj.created.2
  have hempty : ∀ key, iotGetKvString json (iotKvInit json none) key [] = [] := by
    intro key
    apply getString_of_none hj hwf
    · exact fun name => by rw [hnil]; exact List.not_mem_nil
    · exact fun name s hmem => by rw [hnil] at hmem; exact absurd hmem List.not_mem_nil
  refine ⟨⟨⟨fun _ => [], fun _ => []⟩, ⟨hwf, fun m _ => hempty _, fun j _ => hempty _, fun _ _ hne => absurd rfl hne⟩,
    fun m _ leftover => (recordOf_nil _).symm, fun j _ leftover => (recordOf_nil _).symm⟩, ?_, rfl⟩
  change Durable json rereadNumber (iotKvInit json none)
  exact created_durable hj rfl

/-- In every run of job replies, saved and deleted tasks, restored modules and restarts of the process, the handler
over its JSON file does what it does over a map of jobs and a map of tasks. -/
theorem file_is_maps (hj : Assumed json) (hn : Reading json rereadNumber numbers) (hagree : KeysAgree modules jobIds)
    (es : List (Event D O)) (hl : Legal (levels json rereadNumber numbers modules jobIds) (opened json) es) :
    EveryStep (levels json rereadNumber numbers modules jobIds) (Agree json numbers) (opened json) es := by
  have hs := (keysAgree_iff modules jobIds).mp hagree
  apply everyStep_of_legal (I := fun p => Stands json rereadNumber numbers modules jobIds p.1 p.2)
    _ _ (opened_stands hj) hl
  · intro p e hp he
    obtain ⟨_, sys, s, hsys, hs', hstands⟩ := overFile_follows hj hn hs hp he
    change Stands json rereadNumber numbers modules jobIds ((overFile json numbers p.1 e).next.getD p.1)
      ((overMaps json numbers p.2 e).next.getD p.2)
    rw [hsys, hs']
    exact hstands
  · intro p e hp he
    obtain ⟨hout, sys, s, hsys, hs', hstands⟩ := overFile_follows hj hn hs hp he
    exact ⟨hout, sys, s, hsys, hs', hstands.tasks⟩

section Sample

def escaped (s : Bytes) : Bytes := s.flatMap (fun b => if b = 34 ∨ b = 92 then [92, b] else [b])

def stringText (s : Bytes) : Bytes := 34 :: escaped s ++ [34]

def valueText : Node Int → Bytes
  | .null => text "null"
  | .string s => stringText s
  | .number d => if d < 0 then 45 :: ascii (Nat.toDigits 10 d.natAbs) else ascii (Nat.toDigits 10 d.natAbs)
  | .other => text "true"

def membersText (o : List (Entry Int)) : Bytes :=
  123 :: [44].intercalate (o.map (fun e => stringText e.1 ++ 58 :: valueText e.2)) ++ [125]

/-- Objects as the lists of their members, with a parser for the texts of some of them. -/
def recordsJson (known : List (List (Entry Int))) : CJson Int (List (Entry Int)) where
  createObject := []
  isObject _ := true
  children o := o
  hasObjectItem o name := (KeyedList.lookup entryName (foldName name) o).isSome
  getObjectItem o name := (KeyedList.lookup entryName (foldName name) o).map Prod.snd
  addItemToObject o name item := o ++ [(name, item)]
  deleteItemFromObject o name := KeyedList.erase entryName (foldName name) o
  printUnformatted o := some (membersText o)
  parse printed := known.find? (fun o => membersText o == printed)

def wholeNumbers : Numbers Int := ⟨id, id, Int.toNat⟩

variable {known : List (List (Entry Int))} {o : List (Entry Int)}

theorem recordsJson_assumed (known : List (List (Entry Int))) : Assumed (recordsJson known) where
  created := ⟨rfl, rfl⟩
  has _ _ _ := rfl
  got _ _ _ := rfl
  added _ _ _ _ := ⟨rfl, rfl⟩
  deleted _ _ _ := ⟨rfl, rfl⟩

theorem recordsJson_reading (known : List (List (Entry Int))) : Reading (recordsJson known) .number wholeNumbers where
  empty := by
    refine List.find?_eq_none.mpr fun o _ => ?_
    rw [beq_iff_eq, membersText]
    exact List.cons_ne_nil _ _
  int32 _ _ _ := ⟨rfl, rfl⟩

theorem recordsJson_reads (hfind : known.find? (fun o' => membersText o' == membersText o) = some o)
    (hwhole : (0 : UInt8) ∉ membersText o)
    (hcut : ∀ o' ∈ known, (membersText o').isPrefixOf (membersText o) = true → membersText o' = membersText o) :
    Reads (recordsJson known) .number o (membersText o) where
  printed := rfl
  whole := hwhole
  parsed := by
    refine ⟨o, hfind, rfl, (map_fixed fun e _ => ?_).symm⟩
    obtain ⟨name, node⟩ := e
    cases node <;> rfl
  cut n hn := by
    refine List.find?_eq_none.mpr fun o' ho' heq => ?_
    rw [beq_iff_eq] at heq
    have hbegin : (membersText o').isPrefixOf (membersText o) = true := by
      rw [List.isPrefixOf_iff_prefix, heq]
      exact List.take_prefix n _
    rw [hcut o' ho' hbegin] at heq
    have hlength := congrArg List.length heq
    rw [List.length_take] at hlength
    omega

def moduleM : Name := ⟨[109], by decide⟩

def jobB : Name := ⟨[98], by decide⟩

def jobData : List (Entry Int) :=
  [(text "ota_job_id", .string [98]), (text "module", .string [109]), (text "dest_version", .string [50]),
    (text "size", .number 1)]

def taskB : Task where
  serverJobInfo := otaDataJsonToOtaJobInfo (recordsJson []) wholeNumbers (fun _ => 0) (some jobData)
  decodeUrl := [117]
  retryTime := 0
  isPendingToRetry := false
  upgradeDeviceStatus := .downloaded
  otaFilePath := [47, 102]
  downloadFileSize := 0
  downloadedSize := 0

def jobSaved : List (Entry Int) := [(text "key_save_job_info_m", .string (membersText jobData))]

def bothSaved : List (Entry Int) :=
  jobSaved ++ [(text "key_save_task_info_b", .string (membersText (taskMembers wholeNumbers taskB)))]

def sampleJson : CJson Int (List (Entry Int)) :=
  recordsJson [jobData, taskMembers wholeNumbers taskB, jobSaved, bothSaved]

def sampleRun : List (Event Int (List (Entry Int))) :=
  [.reply jobData (fun _ => 0), .save taskB, .restart, .setModule ⟨[109], [49]⟩ (fun _ => 0)]

def sampleLevels : Machine (Sys (List (Entry Int)) × Ota) (Event Int (List (Entry Int))) :=
  levels sampleJson .number wholeNumbers {moduleM} {jobB}

theorem sample_agree : KeysAgree {moduleM} {jobB} := by
  refine (keysAgree_iff _ _).mpr ⟨?_, ?_, ?_, ?_⟩
  · rintro _ rfl
    decide
  · rintro _ rfl
    decide
  · rintro _ rfl _ rfl _
    rfl
  · rintro _ rfl _ rfl _
    rfl

set_option maxRecDepth 20000 in
theorem sample_reads : ∀ o ∈ [jobData, taskMembers wholeNumbers taskB, jobSaved, bothSaved],
    Reads sampleJson .number o (membersText o) := by
  have hall : ∀ o ∈ [jobData, taskMembers wholeNumbers taskB, jobSaved, bothSaved],
      [jobData, taskMembers wholeNumbers taskB, jobSaved, bothSaved].find? (fun o' => membersText o' == membersText o) =
        some o ∧ (0 : UInt8) ∉ membersText o ∧
      ∀ o' ∈ [jobData, taskMembers wholeNumbers taskB, jobSaved, bothSaved],
        (membersText o').isPrefixOf (membersText o) = true → membersText o' = membersText o := by decide
  intro o ho
  obtain ⟨hfind, hwhole, hcut⟩ := hall o ho
  exact recordsJson_reads hfind hwhole hcut

set_option maxRecDepth 20000 in
theorem sample_legal : Legal sampleLevels (opened sampleJson) sampleRun := by
  have hjob : Reads sampleJson .number jobData (membersText jobData) := sample_reads _ (by simp)
  have htask : Reads sampleJson .number (taskMembers wholeNumbers taskB)
    (membersText (taskMembers wholeNumbers taskB)) :=
    sample_reads _ (by simp)
  have hfirst : Reads sampleJson .number jobSaved (membersText jobSaved) := sample_reads _ (by simp)
  have hboth : Reads sampleJson .number bothSaved (membersText bothSaved) := sample_reads _ (by simp)
  refine ⟨⟨⟨⟨rfl, ⟨1, rfl⟩, ?_, hjob⟩, rfl, rfl⟩, hfirst, trivial⟩,
    ⟨⟨⟨?_, ?_, ?_, htask⟩, jobB, rfl, rfl⟩, hboth, trivial⟩, ⟨trivial, trivial⟩, ⟨⟨moduleM, rfl, rfl⟩, trivial⟩,
    trivial⟩
  · intro e he
    obtain ⟨name, node⟩ := e
    cases node <;> rfl
  · decide
  · decide
  · decide

theorem file_is_maps_sample :
    EveryStep sampleLevels (Agree sampleJson wholeNumbers) (opened sampleJson) sampleRun :=
  file_is_maps (recordsJson_assumed _) (recordsJson_reading _) sample_agree sampleRun sample_legal

end Sample

end Results

end OneSdk.OtaRecords
