import OneSdk.KvMap
import OneSdk.OtaTypes

namespace OneSdk.OtaKeys

open CString KvStore KvMap OtaTypes Runs

abbrev Name := { s : Bytes // (0 : UInt8) ∉ s }

def keySaveJobInfo : Bytes := text "key_save_job_info_"

def kvKeySize : Nat := 100

def sprintfKey (format : Bytes) (name : Name) : Option Bytes :=
  if (format ++ name.val).length < kvKeySize then some (format ++ name.val) else none

def snprintfKey (format : Bytes) (name : Name) : Bytes := (format ++ name.val).take (kvKeySize - 1)

def postReplyKey (moduleName : Name) : Option Bytes := sprintfKey keySaveJobInfo moduleName

def deviceJobKey (moduleName : Name) : Bytes := snprintfKey keySaveJobInfo moduleName

def deviceTaskKey (jobId : Name) : Option Bytes := sprintfKey keySaveTaskInfo jobId

def saveTaskKey (jobId : Name) : Option Bytes := sprintfKey keySaveTaskInfo jobId

def deleteTaskKey (jobId : Name) : Option Bytes := sprintfKey keySaveTaskInfo jobId

structure Found where
  jobInfo : Bytes
  taskInfo : Bytes
  installed : Bool
  deriving DecidableEq

section Store

variable {D O : Type} (json : CJson D O) (decode : Bytes → Name × Bytes)

/-- `text` is the printed `data_json`. -/
def otaRevOtaUpgradePostReply (ctx : KvCtx O) (moduleName : Name) (text : Bytes) : Option (KvCtx O) :=
  (postReplyKey moduleName).map (fun key => iotAddKvString json ctx key text)

def iotOtaSaveJobTaskInfo (ctx : KvCtx O) (jobId : Name) (text : Bytes) : Option (KvCtx O) :=
  (saveTaskKey jobId).map (fun key => iotAddKvString json ctx key text)

def iotOtaDeleteJobTaskInfo (ctx : KvCtx O) (jobId : Name) : Option (KvCtx O) :=
  (deleteTaskKey jobId).map (iotRemoveKey json ctx)

/-- The loop body of `iot_ota_set_device_module_info`. `decode` reads the job id and the
destination version out of a job info. -/
def iotOtaSetDeviceModuleInfo (ctx : KvCtx O) (moduleName : Name) (version : Bytes) :
    Option (KvCtx O × Option Found) :=
  let jobKey := deviceJobKey moduleName
  let jobInfo := iotGetKvString json ctx jobKey []
  if jobInfo = [] then some (ctx, none)
  else
    (deviceTaskKey (decode jobInfo).1).map (fun taskKey =>
      let taskInfo := iotGetKvString json ctx taskKey []
      if (decode jobInfo).2 = version then
        (iotRemoveKey json (iotRemoveKey json ctx jobKey) taskKey, some ⟨jobInfo, taskInfo, true⟩)
      else (ctx, some ⟨jobInfo, taskInfo, false⟩))

end Store

/-- The names stay apart, every key fits, and all functions print the same key for a name. -/
structure KeysAgree (modules jobIds : Set Name) : Prop where
  job : ∀ m ∈ modules, postReplyKey m = some (deviceJobKey m)
  task : ∀ j ∈ jobIds, ∃ key, saveTaskKey j = some key ∧ deleteTaskKey j = some key ∧ deviceTaskKey j = some key
  modules_apart : ∀ m ∈ modules, ∀ m' ∈ modules, SameName (deviceJobKey m) (deviceJobKey m') → m = m'
  jobIds_apart : ∀ j ∈ jobIds, ∀ j' ∈ jobIds, ∀ key key', saveTaskKey j = some key → saveTaskKey j' = some key' →
    SameName key key' → j = j'

structure ShortAndUncased (modules jobIds : Set Name) : Prop where
  module_short : ∀ m ∈ modules, m.val.length ≤ 81
  jobId_short : ∀ j ∈ jobIds, j.val.length ≤ 80
  module_uncased : ∀ m ∈ modules, ∀ m' ∈ modules, foldName m.val = foldName m'.val → m = m'
  jobId_uncased : ∀ j ∈ jobIds, ∀ j' ∈ jobIds, foldName j.val = foldName j'.val → j = j'

section Keys

variable {format : Bytes} {name name' : Name} {key : Bytes}

theorem sprintfKey_eq_some :
    sprintfKey format name = some key ↔ format.length + name.val.length < kvKeySize ∧ key = format ++ name.val := by
  rw [sprintfKey, List.length_append]
  split
  next hfit => rw [Option.some.injEq, and_iff_right hfit, eq_comm]
  next hlong => exact iff_of_false nofun (fun h => hlong h.1)

theorem snprintfKey_fits (h : format.length + name.val.length < kvKeySize) :
    snprintfKey format name = format ++ name.val := by
  apply List.take_of_length_le
  rw [List.length_append]
  omega

theorem sprintf_eq_snprintf :
    sprintfKey format name = some (snprintfKey format name) ↔ format.length + name.val.length < kvKeySize := by
  rw [sprintfKey_eq_some]
  exact ⟨fun h => h.1, fun h => ⟨h, snprintfKey_fits h⟩⟩

theorem jobFormat_whole : (0 : UInt8) ∉ keySaveJobInfo := by decide

theorem taskFormat_whole : (0 : UInt8) ∉ keySaveTaskInfo := by decide

theorem cstr_key (hformat : (0 : UInt8) ∉ format) : cstr (format ++ name.val) = format ++ name.val := by
  rw [cstr_eq_self, List.mem_append, not_or]
  exact ⟨hformat, name.property⟩

theorem foldName_append (p q : Bytes) : foldName (p ++ q) = foldName p ++ foldName q := List.map_append

theorem sameName_append (hformat : (0 : UInt8) ∉ format) :
    SameName (format ++ name.val) (format ++ name'.val) ↔ foldName name.val = foldName name'.val := by
  rw [SameName, cstr_key hformat, cstr_key hformat, foldName_append, foldName_append, List.append_cancel_left_eq]

theorem saveTaskKey_isSome (jobId : Name) : (saveTaskKey jobId).isSome = taskKeyFits jobId.val := by
  rw [saveTaskKey, sprintfKey, List.length_append, taskKeyFits]
  split
  next hfit => exact (decide_eq_true hfit).symm
  next hlong => exact (decide_eq_false hlong).symm

theorem job_task_apart (m j : Name) : ¬SameName (keySaveJobInfo ++ m.val) (keySaveTaskInfo ++ j.val) := by
  intro h
  rw [SameName, cstr_key jobFormat_whole, cstr_key taskFormat_whole, foldName_append, foldName_append] at h
  have htenth := congrArg (List.take 10) h
  rw [List.take_append_of_le_length (by decide), List.take_append_of_le_length (by decide)] at htenth
  exact absurd htenth (by decide)

theorem jobKeys_iff (m : Name) : postReplyKey m = some (deviceJobKey m) ↔ m.val.length ≤ 81 := by
  have hlen : keySaveJobInfo.length = 18 := rfl
  rw [postReplyKey, deviceJobKey, sprintf_eq_snprintf, hlen, kvKeySize]
  omega

theorem taskKeys_iff (j : Name) :
    (∃ key, saveTaskKey j = some key ∧ deleteTaskKey j = some key ∧ deviceTaskKey j = some key) ↔
      j.val.length ≤ 80 := by
  have hlen : keySaveTaskInfo.length = 19 := rfl
  have hsize : kvKeySize = 100 := rfl
  constructor
  · rintro ⟨key, hkey, -, -⟩
    have := (sprintfKey_eq_some.mp hkey).1
    omega
  · intro hshort
    have hkey : sprintfKey keySaveTaskInfo j = some (keySaveTaskInfo ++ j.val) :=
      sprintfKey_eq_some.mpr ⟨by omega, rfl⟩
    exact ⟨_, hkey, hkey, hkey⟩

theorem deviceJobKey_short {m : Name} (h : m.val.length ≤ 81) : deviceJobKey m = keySaveJobInfo ++ m.val := by
  have hlen : keySaveJobInfo.length = 18 := rfl
  apply snprintfKey_fits
  rw [hlen, kvKeySize]
  omega

theorem saveTaskKey_short {j : Name} (h : j.val.length ≤ 80) : saveTaskKey j = some (keySaveTaskInfo ++ j.val) := by
  obtain ⟨key, hkey, -, -⟩ := (taskKeys_iff j).mpr h
  rw [hkey, (sprintfKey_eq_some.mp hkey).2]

theorem keysAgree_iff (modules jobIds : Set Name) : KeysAgree modules jobIds ↔ ShortAndUncased modules jobIds := by
  constructor
  · intro h
    have hmodule : ∀ m ∈ modules, m.val.length ≤ 81 := fun m hm => (jobKeys_iff m).mp (h.job m hm)
    have hjobId : ∀ j ∈ jobIds, j.val.length ≤ 80 := fun j hj => (taskKeys_iff j).mp (h.task j hj)
    refine ⟨hmodule, hjobId, fun m hm m' hm' hfold => ?_, fun j hj j' hj' hfold => ?_⟩
    · apply h.modules_apart m hm m' hm'
      rw [deviceJobKey_short (hmodule m hm), deviceJobKey_short (hmodule m' hm')]
      exact (sameName_append jobFormat_whole).mpr hfold
    · apply h.jobIds_apart j hj j' hj' _ _ (saveTaskKey_short (hjobId j hj)) (saveTaskKey_short (hjobId j' hj'))
      exact (sameName_append taskFormat_whole).mpr hfold
  · intro h
    refine ⟨fun m hm => ?_, fun j hj => ?_, fun m hm m' hm' hsame => ?_,
      fun j hj j' hj' key key' hkey hkey' hsame => ?_⟩
    · exact (jobKeys_iff m).mpr (h.module_short m hm)
    · exact (taskKeys_iff j).mpr (h.jobId_short j hj)
    · rw [deviceJobKey_short (h.module_short m hm), deviceJobKey_short (h.module_short m' hm')] at hsame
      exact h.module_uncased m hm m' hm' ((sameName_append jobFormat_whole).mp hsame)
    · rw [(sprintfKey_eq_some.mp hkey).2, (sprintfKey_eq_some.mp hkey').2] at hsame
      exact h.jobId_uncased j hj j' hj' ((sameName_append taskFormat_whole).mp hsame)

end Keys

def longName : Name := ⟨List.replicate 82 97, by decide⟩

def lowerName : Name := ⟨[97], by decide⟩

def upperName : Name := ⟨[65], by decide⟩

/-- The longer name runs over the array, and the two short ones share an entry. -/
theorem names_clash : ¬KeysAgree {longName} ∅ ∧ ¬KeysAgree {lowerName, upperName} ∅ := by
  constructor
  · intro h
    exact absurd (((keysAgree_iff _ _).mp h).module_short longName rfl) (by decide)
  · intro h
    have hsame := ((keysAgree_iff _ _).mp h).module_uncased lowerName (Or.inl rfl) upperName (Or.inr rfl) rfl
    exact absurd hsame (by decide)

/-- What the handler means to keep: one job info a module and one task info a job, each empty
where there is none. -/
structure Saved where
  jobs : Name → Bytes
  tasks : Name → Bytes

inductive Event where
  | postReply (moduleName : Name) (text : Bytes)
  | saveTask (jobId : Name) (text : Bytes)
  | deleteTask (jobId : Name)
  | setModule (moduleName : Name) (version : Bytes)

section TwoMaps

variable {D O : Type} (json : CJson D O) (decode : Bytes → Name × Bytes)

def handle (ctx : KvCtx O) : Event → Option (KvCtx O × Option Found)
  | .postReply moduleName text => (otaRevOtaUpgradePostReply json ctx moduleName text).map (·, none)
  | .saveTask jobId text => (iotOtaSaveJobTaskInfo json ctx jobId text).map (·, none)
  | .deleteTask jobId => (iotOtaDeleteJobTaskInfo json ctx jobId).map (·, none)
  | .setModule moduleName version => iotOtaSetDeviceModuleInfo json decode ctx moduleName version

def intended (saved : Saved) : Event → Saved × Option Found
  | .postReply moduleName text => ({ saved with jobs := Function.update saved.jobs moduleName (cstr text) }, none)
  | .saveTask jobId text => ({ saved with tasks := Function.update saved.tasks jobId (cstr text) }, none)
  | .deleteTask jobId => ({ saved with tasks := Function.update saved.tasks jobId [] }, none)
  | .setModule moduleName version =>
      let jobInfo := saved.jobs moduleName
      let jobId := (decode jobInfo).1
      if jobInfo = [] then (saved, none)
      else if (decode jobInfo).2 = version then
        (⟨Function.update saved.jobs moduleName [], Function.update saved.tasks jobId []⟩,
          some ⟨jobInfo, saved.tasks jobId, true⟩)
      else (saved, some ⟨jobInfo, saved.tasks jobId, false⟩)

/-- The store, none after an overrun, beside what it stands for. -/
structure Sys (O : Type) where
  ctx : Option (KvCtx O)
  saved : Saved

def Named (modules jobIds : Set Name) : Event → Prop
  | .postReply moduleName text => moduleName ∈ modules ∧ (decode (cstr text)).1 ∈ jobIds
  | .saveTask jobId _ | .deleteTask jobId => jobId ∈ jobIds
  | .setModule moduleName _ => moduleName ∈ modules

def storage (modules jobIds : Set Name) : Machine (Sys O) Event where
  enabled _ := Named decode modules jobIds
  next s e := ⟨s.ctx.bind (fun ctx => (handle json decode ctx e).map Prod.fst), (intended decode s.saved e).1⟩

def Finds (s : Sys O) (e : Event) : Prop :=
  ∃ ctx next, s.ctx = some ctx ∧ handle json decode ctx e = some (next, (intended decode s.saved e).2)

structure Keeps (modules jobIds : Set Name) (ctx : KvCtx O) (saved : Saved) : Prop where
  wellFormed : WellFormed json ctx.kvJsonData
  job : ∀ m ∈ modules, iotGetKvString json ctx (keySaveJobInfo ++ m.val) [] = saved.jobs m
  task : ∀ j ∈ jobIds, iotGetKvString json ctx (keySaveTaskInfo ++ j.val) [] = saved.tasks j
  named : ∀ m ∈ modules, saved.jobs m ≠ [] → (decode (saved.jobs m)).1 ∈ jobIds

structure Rewrites (ctx next : KvCtx O) (key v : Bytes) : Prop where
  wellFormed : WellFormed json next.kvJsonData
  here : iotGetKvString json next key [] = v
  elsewhere (k : Bytes) : ¬SameName k key → iotGetKvString json next k [] = iotGetKvString json ctx k []

variable {json decode} {modules jobIds : Set Name} {ctx next : KvCtx O} {saved : Saved} {key v : Bytes}

theorem added_rewrites (hj : Assumed json) (hc : WellFormed json ctx.kvJsonData) (key value : Bytes) :
    Rewrites json ctx (iotAddKvString json ctx key value) key (cstr value) where
  wellFormed := perform_wellFormed hj hc (.addString key value)
  here := by rw [getString_added hj hc, if_pos rfl]
  elsewhere k hk := (getString_added hj hc key value k []).trans (if_neg hk)

theorem removed_rewrites (hj : Assumed json) (hc : WellFormed json ctx.kvJsonData) (key : Bytes) :
    Rewrites json ctx (iotRemoveKey json ctx key) key [] where
  wellFormed := perform_wellFormed hj hc (.removeKey key)
  here := by rw [getString_removed hj hc, if_pos rfl]
  elsewhere k hk := (getString_removed hj hc key k []).trans (if_neg hk)

namespace Keeps

theorem setJob (hk : Keeps json decode modules jobIds ctx saved) (hs : ShortAndUncased modules jobIds) {m : Name}
    (hm : m ∈ modules) (hr : Rewrites json ctx next (keySaveJobInfo ++ m.val) v)
    (hv : v ≠ [] → (decode v).1 ∈ jobIds) :
    Keeps json decode modules jobIds next { saved with jobs := Function.update saved.jobs m v } where
  wellFormed := hr.wellFormed
  job m' hm' := by
    dsimp only
    by_cases hsame : m' = m
    · rw [hsame, hr.here, Function.update_self]
    · have hapart : ¬SameName (keySaveJobInfo ++ m'.val) (keySaveJobInfo ++ m.val) :=
        fun h => hsame (hs.module_uncased m' hm' m hm ((sameName_append jobFormat_whole).mp h))
      rw [hr.elsewhere _ hapart, Function.update_of_ne hsame]
      exact hk.job m' hm'
  task j hj := by
    rw [hr.elsewhere _ (fun hsame => job_task_apart m j hsame.symm)]
    exact hk.task j hj
  named m' hm' := by
    dsimp only
    by_cases hsame : m' = m
    · rw [hsame, Function.update_self]
      exact hv
    · rw [Function.update_of_ne hsame]
      exact hk.named m' hm'

theorem setTask (hk : Keeps json decode modules jobIds ctx saved) (hs : ShortAndUncased modules jobIds) {j : Name}
    (hj : j ∈ jobIds) (hr : Rewrites json ctx next (keySaveTaskInfo ++ j.val) v) :
    Keeps json decode modules jobIds next { saved with tasks := Function.update saved.tasks j v } where
  wellFormed := hr.wellFormed
  job m hm := by
    rw [hr.elsewhere _ (job_task_apart m j)]
    exact hk.job m hm
  task j' hj' := by
    dsimp only
    by_cases hsame : j' = j
    · rw [hsame, hr.here, Function.update_self]
    · have hapart : ¬SameName (keySaveTaskInfo ++ j'.val) (keySaveTaskInfo ++ j.val) :=
        fun h => hsame (hs.jobId_uncased j' hj' j hj ((sameName_append taskFormat_whole).mp h))
      rw [hr.elsewhere _ hapart, Function.update_of_ne hsame]
      exact hk.task j' hj'
  named := hk.named

theorem jobKey (hs : ShortAndUncased modules jobIds) {m : Name} (hm : m ∈ modules) :
    sprintfKey keySaveJobInfo m = some (keySaveJobInfo ++ m.val) := by
  rw [← deviceJobKey_short (hs.module_short m hm)]
  exact (jobKeys_iff m).mpr (hs.module_short m hm)

theorem taskKey (hs : ShortAndUncased modules jobIds) {j : Name} (hj : j ∈ jobIds) :
    sprintfKey keySaveTaskInfo j = some (keySaveTaskInfo ++ j.val) := saveTaskKey_short (hs.jobId_short j hj)

theorem setModule (hk : Keeps json decode modules jobIds ctx saved) (hs : ShortAndUncased modules jobIds)
    (hj : Assumed json) {m : Name} (hm : m ∈ modules) (version : Bytes) :
    ∃ next, iotOtaSetDeviceModuleInfo json decode ctx m version =
        some (next, (intended decode saved (.setModule m version)).2) ∧
      Keeps json decode modules jobIds next (intended decode saved (.setModule m version)).1 := by
  rw [iotOtaSetDeviceModuleInfo, intended, deviceJobKey_short (hs.module_short m hm), hk.job m hm]
  dsimp only
  by_cases hnone : saved.jobs m = []
  · rw [if_pos hnone, if_pos hnone]
    exact ⟨ctx, rfl, hk⟩
  · have hjobId := hk.named m hm hnone
    rw [if_neg hnone, if_neg hnone, deviceTaskKey, taskKey hs hjobId, Option.map_some, hk.task _ hjobId]
    by_cases hversion : (decode (saved.jobs m)).2 = version
    · rw [if_pos hversion, if_pos hversion]
      refine ⟨_, rfl, ?_⟩
      have hgone := hk.setJob hs hm (removed_rewrites hj hk.wellFormed _) (absurd rfl)
      exact hgone.setTask hs hjobId (removed_rewrites hj hgone.wellFormed _)
    · rw [if_neg hversion, if_neg hversion]
      exact ⟨ctx, rfl, hk⟩

theorem handles (hk : Keeps json decode modules jobIds ctx saved) (hs : ShortAndUncased modules jobIds)
    (hj : Assumed json) {e : Event} (he : Named decode modules jobIds e) :
    ∃ next, handle json decode ctx e = some (next, (intended decode saved e).2) ∧
      Keeps json decode modules jobIds next (intended decode saved e).1 := by
  cases e with
  | postReply m text =>
      refine ⟨iotAddKvString json ctx (keySaveJobInfo ++ m.val) text, ?_, ?_⟩
      · rw [handle, otaRevOtaUpgradePostReply, postReplyKey, jobKey hs he.1]
        rfl
      · exact hk.setJob hs he.1 (added_rewrites hj hk.wellFormed _ text) (fun _ => he.2)
  | saveTask j text =>
      refine ⟨iotAddKvString json ctx (keySaveTaskInfo ++ j.val) text, ?_, ?_⟩
      · rw [handle, iotOtaSaveJobTaskInfo, saveTaskKey, taskKey hs he]
        rfl
      · exact hk.setTask hs he (added_rewrites hj hk.wellFormed _ text)
  | deleteTask j =>
      refine ⟨iotRemoveKey json ctx (keySaveTaskInfo ++ j.val), ?_, ?_⟩
      · rw [handle, iotOtaDeleteJobTaskInfo, deleteTaskKey, taskKey hs he]
        rfl
      · exact hk.setTask hs he (removed_rewrites hj hk.wellFormed _)
  | setModule m version => exact hk.setModule hs hj he version

end Keeps

/-- Where the keys agree, the store is the two maps: every call of every run finds what was
last stored for exactly its module and job. -/
theorem store_is_two_maps (hj : Assumed json) (hagree : KeysAgree modules jobIds) (es : List Event)
    (hl : Legal (storage json decode modules jobIds) ⟨some (iotKvInit json none), ⟨fun _ => [], fun _ => []⟩⟩ es) :
    EveryStep (storage json decode modules jobIds) (Finds json decode)
      ⟨some (iotKvInit json none), ⟨fun _ => [], fun _ => []⟩⟩ es := by
  have hs := (keysAgree_iff modules jobIds).mp hagree
  apply everyStep_of_legal (I := fun s => ∃ ctx, s.ctx = some ctx ∧ Keeps json decode modules jobIds ctx s.saved)
    _ _ _ hl
  · rintro s e ⟨ctx, hctx, hk⟩ he
    obtain ⟨next, hnext, hkeep⟩ := hk.handles hs hj he
    refine ⟨next, ?_, hkeep⟩
    change s.ctx.bind _ = some next
    rw [hctx, Option.bind_some, hnext]
    rfl
  · rintro s e ⟨ctx, hctx, hk⟩ he
    obtain ⟨next, hnext, -⟩ := hk.handles hs hj he
    exact ⟨ctx, next, hctx, hnext⟩
  · have hwf : WellFormed json (iotKvInit json none).kvJsonData := created_wellFormed hj
    have hempty : ∀ key, iotGetKvString json (iotKvInit json none) key [] = [] := by
      intro key
      have hnil : json.children (iotKvInit json none).kvJsonData = [] := hj.created.2
      apply getString_of_none hj hwf
      · exact fun name => by rw [hnil]; exact List.not_mem_nil
      · exact fun name s hmem => by rw [hnil] at hmem; exact absurd hmem List.not_mem_nil
    exact ⟨_, rfl, hwf, fun m _ => hempty _, fun j _ => hempty _, fun _ _ hne => absurd rfl hne⟩

end TwoMaps

end OneSdk.OtaKeys
