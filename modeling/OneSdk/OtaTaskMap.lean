import OneSdk.HashTableWalk
import OneSdk.Lookup3
import OneSdk.OtaTypes

namespace OneSdk.OtaTaskMap

open HashTable Lookup3

section Strings

variable (m : Memory)

/-- The address of a string, which a NUL ends. -/
abbrev StringAt := { address : Nat // ∃ n, m (address + n) = 0 }

variable {m}

def strlen (s : StringAt m) : Nat := Nat.find s.2

def bytesAt (s : StringAt m) : Bytes := (List.range (strlen s)).map (fun i => m (s.1 + i))

def awsHashCString (s : StringAt m) : UInt64 :=
  let (c, b) := hashlittle2 m s.1 (strlen s) 0x885A308D 0x3243F6A8
  b.toUInt64 <<< 32 ||| c.toUInt64

def awsHashCallbackCStrEq (a b : StringAt m) : Bool := bytesAt a == bytesAt b

theorem awsHashCString_congr {m' : Memory} {s : StringAt m} {t : StringAt m'} (h : bytesAt s = bytesAt t) :
    awsHashCString s = awsHashCString t := by
  have hlen : strlen s = strlen t := by
    have := congrArg List.length h
    rwa [bytesAt, bytesAt, List.length_map, List.length_map, List.length_range, List.length_range] at this
  have hsame : ∀ i < strlen s, m (s.1 + i) = m' (t.1 + i) := by
    intro i hi
    have hget := congrArg (fun l : Bytes => l[i]?) h
    simpa [bytesAt, hi, hlen ▸ hi] using hget
  rw [awsHashCString, awsHashCString, hashlittle2_bytes, hashlittle2_bytes, hlen]
  dsimp only
  rw [hashBy_content (hlen ▸ hsame)]

end Strings

section Table

variable {V : Type} {m : Memory}

/-- What `iot_ota_init` gives to the table: two places at first, and no destructors. -/
def callbacks (m : Memory) (V : Type) : Callbacks (StringAt m) V :=
  ⟨awsHashCString, awsHashCallbackCStrEq, false, false⟩

theorem callbacks_lawful (m : Memory) (V : Type) : Lawful (callbacks m V) where
  symm h := beq_iff_eq.mpr (beq_iff_eq.mp h).symm
  trans h h' := beq_iff_eq.mpr ((beq_iff_eq.mp h).trans (beq_iff_eq.mp h'))
  consistent h := awsHashCString_congr (beq_iff_eq.mp h)

theorem same_iff (s t : StringAt m) :
    safeEqCheck (callbacks m V).equalsFn (some s) (some t) = true ↔ bytesAt s = bytesAt t := by
  rw [safeEqCheck_eq_true]
  constructor
  · rintro (h | ⟨_, _, ⟨⟩, ⟨⟩, h⟩)
    · rw [Option.some.inj h]
    · exact beq_iff_eq.mp h
  · exact fun h => Or.inr ⟨s, t, rfl, rfl, beq_iff_eq.mpr h⟩

inductive TaskOp (m : Memory) (V : Type)
  | put (job : StringAt m) (task : V)
  | find (job : StringAt m)
  | remove (job : StringAt m)

def TaskOp.toOp : TaskOp m V → Op (StringAt m) V
  | .put job task => .put (some job) (some task)
  | .find job => .find (some job)
  | .remove job => .remove (some job) false

def TaskOp.apply (tasks : Bytes → Option V) : TaskOp m V → Bytes → Option V
  | .put job task => OtaTypes.put tasks (bytesAt job) (some task)
  | .find _ => tasks
  | .remove job => OtaTypes.put tasks (bytesAt job) none

/-- What an operation answers: a put whether the id is new, and the others the task of the id. -/
def TaskOp.Answers (tasks : Bytes → Option V) : TaskOp m V → Answer (StringAt m) V → Prop
  | .put job _, .put wasCreated => wasCreated = (tasks (bytesAt job)).isNone
  | .find job, .found element => element.bind Element.value = tasks (bytesAt job)
  | .remove job, .removed element => element.bind Element.value = tasks (bytesAt job)
  | _, _ => False

def AnswersAll (tasks : Bytes → Option V) : List (TaskOp m V) → List (Answer (StringAt m) V) → Prop
  | [], [] => True
  | op :: ops, answer :: answers => op.Answers tasks answer ∧ AnswersAll (op.apply tasks) ops answers
  | _, _ => False

/-- The table maps the strings as the function maps their bytes. -/
def Maps (table : Option (StringAt m) → Option (Element (StringAt m) V)) (tasks : Bytes → Option V) : Prop :=
  ∀ s, (table (some s)).map Element.value = (tasks (bytesAt s)).map some

variable {table table' : Option (StringAt m) → Option (Element (StringAt m) V)} {tasks : Bytes → Option V}

theorem Maps.bind_value (h : Maps table tasks) (s : StringAt m) :
    (table (some s)).bind Element.value = tasks (bytesAt s) := by
  have hs := h s
  cases ht : tasks (bytesAt s) with
  | none =>
      rw [ht, Option.map_none, Option.map_eq_none_iff] at hs
      rw [hs, Option.bind_none]
  | some v =>
      rw [ht, Option.map_some, Option.map_eq_some_iff] at hs
      obtain ⟨e, he, hv⟩ := hs
      rw [he, Option.bind_some, hv]

theorem Maps.isNone (h : Maps table tasks) (s : StringAt m) : (table (some s)).isNone = (tasks (bytesAt s)).isNone := by
  have hs := congrArg Option.isNone (h s)
  rwa [Option.isNone_map, Option.isNone_map] at hs

theorem Maps.assign (h : Maps table tasks) (job : StringAt m) (task : Option V) :
    Maps (KeyClasses.assign (safeEqCheck (callbacks m V).equalsFn) (some job)
      (task.map (fun v => ⟨some job, some v⟩)) table) (OtaTypes.put tasks (bytesAt job) task) := by
  intro s
  rw [KeyClasses.assign, OtaTypes.put]
  by_cases hs : bytesAt s = bytesAt job
  · rw [if_pos ((same_iff s job).mpr hs), if_pos hs, Option.map_map]
    rfl
  · rw [if_neg (fun hsame => hs ((same_iff s job).mp hsame)), if_neg hs]
    exact h s

theorem Maps.step (h : Maps table tasks) (op : TaskOp m V) {answer : Answer (StringAt m) V} (hanswer : answer ≠ .failed)
    (hstep : MapStep (safeEqCheck (callbacks m V).equalsFn) table op.toOp answer table') :
    op.Answers tasks answer ∧ Maps table' (op.apply tasks) := by
  cases op with
  | put job task =>
      cases answer with
      | put created =>
          obtain ⟨rfl, rfl⟩ := hstep
          exact ⟨h.isNone job, h.assign job (some task)⟩
      | failed => exact absurd rfl hanswer
      | found element => exact hstep.elim
      | removed element => exact hstep.elim
      | cleared => exact hstep.elim
  | find job =>
      cases answer with
      | found element =>
          obtain ⟨rfl, rfl⟩ := hstep
          exact ⟨h.bind_value job, h⟩
      | failed => exact absurd rfl hanswer
      | put created => exact hstep.elim
      | removed element => exact hstep.elim
      | cleared => exact hstep.elim
  | remove job =>
      cases answer with
      | removed element =>
          obtain ⟨rfl, rfl⟩ := hstep
          exact ⟨h.bind_value job, h.assign job none⟩
      | failed => exact absurd rfl hanswer
      | put created => exact hstep.elim
      | found element => exact hstep.elim
      | cleared => exact hstep.elim

theorem Maps.run (h : Maps table tasks) (ops : List (TaskOp m V)) {answers : List (Answer (StringAt m) V)}
    (hanswers : ∀ answer ∈ answers, answer ≠ .failed)
    (hrun : MapRun (safeEqCheck (callbacks m V).equalsFn) table (ops.map TaskOp.toOp) answers table') :
    AnswersAll tasks ops answers ∧ Maps table' (ops.foldl TaskOp.apply tasks) := by
  induction ops generalizing table tasks answers with
  | nil =>
      cases answers with
      | nil =>
          obtain rfl := hrun
          exact ⟨trivial, h⟩
      | cons answer answers => exact hrun.elim
  | cons op ops ih =>
      cases answers with
      | nil => exact hrun.elim
      | cons answer answers =>
          obtain ⟨table₁, hstep, hrest⟩ := hrun
          obtain ⟨hfound, hmaps⟩ := h.step op (hanswers answer List.mem_cons_self) hstep
          obtain ⟨hall, hfinal⟩ := ih hmaps (fun a ha => hanswers a (List.mem_cons_of_mem _ ha)) hrest
          exact ⟨⟨hfound, hall⟩, hfinal⟩

/-- Wherever the job ids stand in memory, the table of the OTA handler is a map from their
text to the tasks, as long as no put fails; and none does in a run for which there is room. -/
theorem taskTable_maps (m : Memory) (ops : List (TaskOp m V)) :
    ∃ state state' log, awsHashTableInit 2 = some state ∧
      exec (callbacks m V) state (ops.map TaskOp.toOp) = some (state', log) ∧
      ((∀ a ∈ log, a.1 ≠ .failed) → AnswersAll (fun _ => none) ops (log.map Prod.fst) ∧
        ∀ job, (contents (callbacks m V) state' (some job)).bind Element.value =
          ops.foldl TaskOp.apply (fun _ => none) (bytesAt job)) ∧
      (ops.length ≤ loadOf (2 ^ 59) → ∀ a ∈ log, a.1 ≠ .failed) := by
  rcases awsHashTableInit_cases (callbacks m V) 2 with ⟨hlarge, _⟩ | ⟨state, hinit, _, _⟩
  · omega
  · obtain ⟨hv, hempty⟩ := init_valid (c := callbacks m V) hinit
    obtain ⟨state', log, _, hexec, _, hrun, _⟩ := exec_spec (callbacks_lawful m V) hv (ops.map TaskOp.toOp)
    rw [contents_of_empty hempty] at hrun
    refine ⟨state, state', log, hinit, hexec, fun hlog => ?_, fun hroom => ?_⟩
    · have hstart : Maps (fun _ => none : Option (StringAt m) → Option (Element (StringAt m) V)) (fun _ => none) :=
        fun _ => rfl
      have hanswers : ∀ answer ∈ log.map Prod.fst, answer ≠ .failed := by
        intro answer hanswer
        obtain ⟨a, ha, rfl⟩ := List.mem_map.mp hanswer
        exact hlog a ha
      obtain ⟨hfound, hmaps⟩ := hstart.run ops hanswers hrun
      exact ⟨hfound, hmaps.bind_value⟩
    · refine exec_answered (callbacks_lawful m V) hv ?_ hexec
      rw [hv.count, hempty, List.length_map, List.length_nil, Nat.zero_add]
      exact hroom

/-- One text at two places in memory, put under the one and found and removed under the other. -/
def copies : List (TaskOp (fun i => if i % 2 = 0 then 106 else 0) Nat) :=
  let s : StringAt (fun i => if i % 2 = 0 then 106 else 0) := ⟨0, 1, rfl⟩
  let t : StringAt (fun i => if i % 2 = 0 then 106 else 0) := ⟨2, 1, rfl⟩
  [.put s 7, .find t, .remove t, .find s]

theorem taskTable_maps_copies :
    ∃ state state' log, awsHashTableInit 2 = some state ∧
      exec (callbacks _ Nat) state (copies.map TaskOp.toOp) = some (state', log) ∧
      AnswersAll (fun _ => none) copies (log.map Prod.fst) ∧
      ∀ job, (contents (callbacks _ Nat) state' (some job)).bind Element.value =
        copies.foldl TaskOp.apply (fun _ => none) (bytesAt job) := by
  obtain ⟨state, state', log, hinit, hexec, hmaps, hroom⟩ := taskTable_maps _ copies
  exact ⟨state, state', log, hinit, hexec, hmaps (hroom (by decide))⟩

end Table

end OneSdk.OtaTaskMap
