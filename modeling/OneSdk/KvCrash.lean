import OneSdk.KvStore
import OneSdk.Runs

namespace OneSdk.KvCrash

open CString KeyedList KvStore Runs

/-- How far the rewriting of the file has come when the process ends: the file is not yet
opened, holds a part of the text (that `fwrite` or `fflush` has brought there), or all of it. -/
inductive Stop where
  | notOpened
  | partway (written : Nat)
  | complete
  deriving DecidableEq

inductive Event (D : Type) where
  | op (w : Write D)
  | reopen
  | crash (w : Write D) (stop : Stop)
  deriving DecidableEq

section Model

variable {D O : Type}

/-- What cJSON's parser makes of the text of a value, where numbers are written with a
limited number of digits. -/
def rereadNode (rereadNumber : D → Node D) : Node D → Node D
  | .number d => rereadNumber d
  | node => node

def rereadEntry (rereadNumber : D → Node D) (e : Entry D) : Entry D := (e.1, rereadNode rereadNumber e.2)

/-- What the store relies on for an object that it writes: its text is parsed again, and
no proper part of the text is. -/
structure Reads (json : CJson D O) (rereadNumber : D → Node D) (o : O) (text : Bytes) : Prop where
  printed : json.printUnformatted o = some text
  whole : (0 : UInt8) ∉ text
  parsed : ∃ o', json.parse text = some o' ∧ json.isObject o' = true ∧
    json.children o' = (json.children o).map (rereadEntry rereadNumber)
  cut : ∀ n < text.length, json.parse (text.take n) = none

variable (json : CJson D O) (rereadNumber : D → Node D)

def textOf (ctx : KvCtx O) (w : Write D) : Bytes := awsByteBufAppendJsonString json (perform json ctx w).kvJsonData

def fileAt (ctx : KvCtx O) (w : Write D) : Stop → Option Bytes
  | .notOpened => ctx.file
  | .partway written => some ((textOf json ctx w).take written)
  | .complete => some (textOf json ctx w)

def step (ctx : KvCtx O) : Event D → KvCtx O
  | .op w => perform json ctx w
  | .reopen => iotKvInit json ctx.file
  | .crash w stop => iotKvInit json (fileAt json ctx w stop)

def Permitted (ctx : KvCtx O) : Event D → Prop
  | .reopen => True
  | .op w => Reads json rereadNumber (perform json ctx w).kvJsonData (textOf json ctx w)
  | .crash w stop => Reads json rereadNumber (perform json ctx w).kvJsonData (textOf json ctx w) ∧
      ∀ n, stop = .partway n → n < (textOf json ctx w).length

def machine : Machine (KvCtx O) (Event D) where
  enabled := Permitted json rereadNumber
  next := step json

def members (ctx : KvCtx O) : List (Entry D) := json.children ctx.kvJsonData

def SameMap (l l' : List (Entry D)) : Prop := ∀ e, e ∈ l ↔ e ∈ l'

/-- A following `iotKvInit` finds the map before or the map after an operation that a crash
has cut short, and without a crash the map as it is. -/
def Recovers (ctx : KvCtx O) : Event D → Prop
  | .op w => SameMap (members json (iotKvInit json (perform json ctx w).file)) (members json (perform json ctx w))
  | .reopen => SameMap (members json (iotKvInit json ctx.file)) (members json ctx)
  | .crash w stop =>
      SameMap (members json (iotKvInit json (fileAt json ctx w stop))) (members json ctx) ∨
        SameMap (members json (iotKvInit json (fileAt json ctx w stop))) (members json (perform json ctx w))

def Readable : Write D → Prop
  | .setNum _ num => rereadNumber num = .number num
  | .addString _ _ | .removeKey _ => True

def Safe (ctx : KvCtx O) : Event D → Prop
  | .op w => Readable rereadNumber w
  | .reopen | .crash _ .notOpened => True
  | .crash w (.partway _) => members json ctx = [] ∨
      ∃ key, w = .removeKey key ∧ ∀ e ∈ members json ctx, entryName e = foldName (cstr key)
  | .crash w .complete => Readable rereadNumber w ∨
      ∃ key num, w = .setNum key num ∧ (cstr key, rereadNumber num) ∈ members json ctx

/-- The members are as a parser would find them, and the file holds them. -/
structure Durable (ctx : KvCtx O) : Prop where
  wellFormed : WellFormed json ctx.kvJsonData
  fixed : ∀ e ∈ members json ctx, rereadEntry rereadNumber e = e
  savedWellFormed : WellFormed json (iotKvInit json ctx.file).kvJsonData
  saved : members json (iotKvInit json ctx.file) = members json ctx

end Model

section Steps

variable {D O : Type} {json : CJson D O} {rereadNumber : D → Node D} {ctx : KvCtx O} {w : Write D} {stop : Stop}

theorem sameMap_refl (l : List (Entry D)) : SameMap l l := fun _ => Iff.rfl

theorem sameMap_nil {l : List (Entry D)} : SameMap [] l ↔ l = [] := by
  constructor
  · exact fun h => List.eq_nil_iff_forall_not_mem.mpr (fun e he => List.not_mem_nil ((h e).mpr he))
  · rintro rfl
    exact sameMap_refl []

theorem members_keyed (h : WellFormed json ctx.kvJsonData) : Keyed entryName (members json ctx) := h.keyed

theorem rereadEntry_name (e : Entry D) : entryName (rereadEntry rereadNumber e) = entryName e := rfl

/-- What is in the file after a complete write, as a following `iotKvInit` finds it. -/
theorem init_complete {text : Bytes} (hr : Reads json rereadNumber ctx.kvJsonData text) :
    json.isObject (iotKvInit json (some text)).kvJsonData = true ∧
      members json (iotKvInit json (some text)) = (members json ctx).map (rereadEntry rereadNumber) := by
  obtain ⟨o', hparse, hobj, hchildren⟩ := hr.parsed
  have hdata : (iotKvInit json (some text)).kvJsonData = o' := by
    rw [iotKvInit, awsJsonValueNewFromString, cstr_eq_self.mpr hr.whole, hparse]
    rfl
  rw [members, hdata]
  exact ⟨hobj, hchildren⟩

/-- A part of a text is no text, and the store starts empty. -/
theorem init_partway {o : O} {text : Bytes} (hr : Reads json rereadNumber o text) {n : Nat} (hn : n < text.length) :
    (iotKvInit json (some (text.take n))).kvJsonData = json.createObject := by
  have hwhole : (0 : UInt8) ∉ text.take n := fun h0 => hr.whole (List.mem_of_mem_take h0)
  rw [iotKvInit, awsJsonValueNewFromString, cstr_eq_self.mpr hwhole, hr.cut n hn]
  rfl

theorem members_perform (hj : Assumed json) (hc : WellFormed json ctx.kvJsonData) (w : Write D) :
    members json (perform json ctx w) = w.onEntries (members json ctx) := (perform_object hj hc w).2

/-- The members that an operation leaves read back as they are, except for a number that it
writes itself. -/
theorem fixed_iff (hj : Assumed json) (hd : Durable json rereadNumber ctx) (w : Write D) :
    (∀ e ∈ members json (perform json ctx w), rereadEntry rereadNumber e = e) ↔ Readable rereadNumber w := by
  rw [members_perform hj hd.wellFormed]
  have hput (key : Bytes) (node : Node D) : (∀ e ∈ put entryName (cstr key, node) (members json ctx),
      rereadEntry rereadNumber e = e) ↔ rereadNode rereadNumber node = node := by
    constructor
    · intro h
      have hlast := h (cstr key, node) ((mem_put hd.wellFormed.keyed).mpr (Or.inl rfl))
      exact congrArg Prod.snd hlast
    · intro h e he
      rcases (mem_put hd.wellFormed.keyed).mp he with rfl | ⟨hold, -⟩
      · rw [rereadEntry, h]
      · exact hd.fixed e hold
  cases w with
  | addString key value => exact iff_of_true ((hput key _).mpr rfl) trivial
  | setNum key num => exact hput key (.number num)
  | removeKey key => exact iff_of_true (fun e he => hd.fixed e ((mem_erase hd.wellFormed.keyed).mp he).1) trivial

theorem map_fixed {l : List (Entry D)} (h : ∀ e ∈ l, rereadEntry rereadNumber e = e) :
    l.map (rereadEntry rereadNumber) = l := by
  rw [List.map_congr_left h, List.map_id']

/-- Reading back gives the same map just when every member reads back as it is. -/
theorem sameMap_reread {l : List (Entry D)} (hl : Keyed entryName l) :
    SameMap (l.map (rereadEntry rereadNumber)) l ↔ ∀ e ∈ l, rereadEntry rereadNumber e = e := by
  constructor
  · intro h e he
    have hmem := (h _).mp (List.mem_map_of_mem he)
    exact List.inj_on_of_nodup_map hl hmem he (rereadEntry_name e)
  · intro h
    rw [map_fixed h]
    exact sameMap_refl l

theorem init_durable (ctx : KvCtx O) (hwf : WellFormed json (iotKvInit json ctx.file).kvJsonData)
    (hfixed : ∀ e ∈ members json (iotKvInit json ctx.file), rereadEntry rereadNumber e = e) :
    Durable json rereadNumber (iotKvInit json ctx.file) := ⟨hwf, hfixed, hwf, rfl⟩

theorem reopen_durable (hd : Durable json rereadNumber ctx) : Durable json rereadNumber (iotKvInit json ctx.file) :=
  init_durable ctx hd.savedWellFormed (by rw [hd.saved]; exact hd.fixed)

theorem complete_wellFormed (hj : Assumed json) (hc : WellFormed json ctx.kvJsonData)
    (hr : Reads json rereadNumber (perform json ctx w).kvJsonData (textOf json ctx w)) :
    WellFormed json (iotKvInit json (some (textOf json ctx w))).kvJsonData := by
  obtain ⟨hobj, hinit⟩ := init_complete hr
  refine ⟨hobj, ?_⟩
  change Keyed entryName (members json _)
  rw [hinit]
  exact keyed_map rereadEntry_name (perform_wellFormed hj hc w).keyed

theorem op_durable (hj : Assumed json) (hd : Durable json rereadNumber ctx)
    (hr : Reads json rereadNumber (perform json ctx w).kvJsonData (textOf json ctx w)) (hw : Readable rereadNumber w) :
    Durable json rereadNumber (perform json ctx w) := by
  have hfixed := (fixed_iff hj hd w).mpr hw
  have hinit := (init_complete hr).2
  rw [map_fixed hfixed] at hinit
  refine ⟨perform_wellFormed hj hd.wellFormed w, hfixed, ?_, ?_⟩
  · rw [perform_file]
    exact complete_wellFormed hj hd.wellFormed hr
  · rw [perform_file]
    exact hinit

theorem partway_iff (hj : Assumed json) (hc : WellFormed json ctx.kvJsonData)
    (hr : Reads json rereadNumber (perform json ctx w).kvJsonData (textOf json ctx w)) {n : Nat}
    (hn : n < (textOf json ctx w).length) :
    Recovers json ctx (.crash w (.partway n)) ↔ Safe json rereadNumber ctx (.crash w (.partway n)) := by
  have hempty : members json (iotKvInit json (fileAt json ctx w (.partway n))) = [] := by
    rw [fileAt, members, init_partway hr hn]
    exact hj.created.2
  rw [Recovers, Safe, hempty, sameMap_nil, sameMap_nil, members_perform hj hc]
  refine or_congr_right ?_
  cases w with
  | addString key value => exact iff_of_false put_ne_nil (fun ⟨_, h, _⟩ => nomatch h)
  | setNum key num => exact iff_of_false put_ne_nil (fun ⟨_, h, _⟩ => nomatch h)
  | removeKey key =>
      rw [Write.onEntries, erase_eq_nil (l := members json ctx) hc.keyed]
      constructor
      · exact fun h => ⟨key, rfl, h⟩
      · rintro ⟨_, ⟨⟩, h⟩
        exact h

theorem reread_put (hd : Durable json rereadNumber ctx) (name : Bytes) (num : D) :
    (put entryName (name, .number num) (members json ctx)).map (rereadEntry rereadNumber) =
      put entryName (name, rereadNumber num) (members json ctx) := by
  have herase : ∀ e ∈ erase entryName (foldName name) (members json ctx), rereadEntry rereadNumber e = e :=
    fun e he => hd.fixed e ((mem_erase (members_keyed hd.wellFormed)).mp he).1
  rw [put, List.map_append, entryName, map_fixed herase]
  rfl

theorem after_iff (hj : Assumed json) (hd : Durable json rereadNumber ctx) (w : Write D) :
    SameMap ((members json (perform json ctx w)).map (rereadEntry rereadNumber)) (members json (perform json ctx w)) ↔
      Readable rereadNumber w :=
  (sameMap_reread (perform_wellFormed hj hd.wellFormed w).keyed).trans (fixed_iff hj hd w)

theorem complete_iff (hj : Assumed json) (hd : Durable json rereadNumber ctx)
    (hr : Reads json rereadNumber (perform json ctx w).kvJsonData (textOf json ctx w)) :
    Recovers json ctx (.crash w .complete) ↔ Safe json rereadNumber ctx (.crash w .complete) := by
  have hafter := after_iff hj hd w
  rw [Recovers, Safe, fileAt, (init_complete hr).2]
  constructor
  · rintro (hbefore | h)
    · rw [members_perform hj hd.wellFormed] at hbefore
      cases w with
      | addString key value => exact Or.inl trivial
      | setNum key num =>
          rw [Write.onEntries, reread_put hd] at hbefore
          exact Or.inr ⟨key, num, rfl, (hbefore _).mp ((mem_put hd.wellFormed.keyed).mpr (Or.inl rfl))⟩
      | removeKey key => exact Or.inl trivial
    · exact Or.inl (hafter.mp h)
  · rintro (hw | ⟨key, num, rfl, hmem⟩)
    · exact Or.inr (hafter.mpr hw)
    · rw [members_perform hj hd.wellFormed, Write.onEntries, reread_put hd]
      exact Or.inl (fun e => mem_put_member hd.wellFormed.keyed hmem)

theorem complete_durable (hj : Assumed json) (hd : Durable json rereadNumber ctx)
    (hr : Reads json rereadNumber (perform json ctx w).kvJsonData (textOf json ctx w))
    (hc : Safe json rereadNumber ctx (.crash w .complete)) :
    Durable json rereadNumber (iotKvInit json (some (textOf json ctx w))) := by
  have hwf := complete_wellFormed hj hd.wellFormed hr
  refine init_durable ⟨ctx.kvJsonData, some (textOf json ctx w)⟩ hwf ?_
  rw [(init_complete hr).2]
  rcases hc with hw | ⟨key, num, rfl, hmem⟩
  · have hfixed := (fixed_iff hj hd w).mpr hw
    rw [map_fixed hfixed]
    exact hfixed
  · rw [members_perform hj hd.wellFormed, Write.onEntries, reread_put hd]
    exact fun e he => hd.fixed e ((mem_put_member hd.wellFormed.keyed hmem).mp he)

theorem created_durable (hj : Assumed json) {file : Option Bytes}
    (hfile : (iotKvInit json file).kvJsonData = json.createObject) :
    Durable json rereadNumber (iotKvInit json file) := by
  refine init_durable ⟨json.createObject, file⟩ ?_ ?_
  · rw [hfile]
    exact created_wellFormed hj
  · rw [members, hfile, hj.created.2]
    exact fun _ he => absurd he List.not_mem_nil

theorem step_keeps (hj : Assumed json) (hd : Durable json rereadNumber ctx) {e : Event D}
    (he : Permitted json rereadNumber ctx e) (hc : Safe json rereadNumber ctx e) :
    Durable json rereadNumber (step json ctx e) := by
  cases e with
  | op w => exact op_durable hj hd he hc
  | reopen => exact reopen_durable hd
  | crash w stop =>
      cases stop with
      | notOpened => exact reopen_durable hd
      | partway n => exact created_durable hj (init_partway he.1 (he.2 n rfl))
      | complete => exact complete_durable hj hd he.1 hc

theorem step_iff (hj : Assumed json) (hd : Durable json rereadNumber ctx) {e : Event D}
    (he : Permitted json rereadNumber ctx e) : Recovers json ctx e ↔ Safe json rereadNumber ctx e := by
  have hsaved : SameMap (members json (iotKvInit json ctx.file)) (members json ctx) := by
    rw [hd.saved]
    exact sameMap_refl _
  cases e with
  | op w =>
      rw [Recovers, perform_file, ← textOf, (init_complete he).2]
      exact after_iff hj hd w
  | reopen => exact iff_of_true hsaved trivial
  | crash w stop =>
      cases stop with
      | notOpened => exact iff_of_true (Or.inl hsaved) trivial
      | partway n => exact partway_iff hj hd.wellFormed he.1 (he.2 n rfl)
      | complete => exact complete_iff hj hd he.1

end Steps

/-- A store that starts without a file survives exactly the runs whose steps are safe. -/
theorem recovers_iff {D O : Type} {json : CJson D O} {rereadNumber : D → Node D} (hj : Assumed json)
    {es : List (Event D)} (hl : Legal (machine json rereadNumber) (iotKvInit json none) es) :
    EveryStep (machine json rereadNumber) (Recovers json) (iotKvInit json none) es ↔
      EveryStep (machine json rereadNumber) (Safe json rereadNumber) (iotKvInit json none) es :=
  everyStep_iff (M := machine json rereadNumber) (I := Durable json rereadNumber)
    (fun _ _ hd he hc => step_keeps hj hd he hc) (fun _ _ hd he => step_iff hj hd he)
    (created_durable hj rfl) hl

section Jobs

def job : Write Nat := .addString [97] [49]

def secondJob : Write Nat := .addString [98] [50]

def jobObject : List (Entry Nat) := [([97], .string [49])]

def jobObjects : List (Entry Nat) := [([97], .string [49]), ([98], .string [50])]

def jobsJson : CJson Nat (List (Entry Nat)) := listJson [[], jobObject, jobObjects]

def jobsMachine : Machine (KvCtx (List (Entry Nat))) (Event Nat) := machine jobsJson .number

theorem noJobs_reads : Reads jobsJson .number [] (objectText []) :=
  ⟨rfl, by decide, ⟨[], by decide, rfl, rfl⟩, by decide⟩

theorem jobObject_reads : Reads jobsJson .number jobObject (objectText jobObject) :=
  ⟨rfl, by decide, ⟨jobObject, by decide, rfl, rfl⟩, by decide⟩

theorem jobObjects_reads : Reads jobsJson .number jobObjects (objectText jobObjects) :=
  ⟨rfl, by decide, ⟨jobObjects, by decide, rfl, rfl⟩, by decide⟩

def killed : List (Event Nat) := [.op job, .crash secondJob (.partway 0)]

theorem killed_losesJobs :
    Legal jobsMachine (iotKvInit jobsJson none) killed ∧
      ¬EveryStep jobsMachine (Recovers jobsJson) (iotKvInit jobsJson none) killed := by
  refine ⟨⟨jobObject_reads, ⟨jobObjects_reads, ?_⟩, trivial⟩, ?_⟩
  · rintro n ⟨⟩
    decide
  · rintro ⟨-, h, -⟩
    have hempty : members jobsJson (iotKvInit jobsJson (fileAt jobsJson
        (perform jobsJson (iotKvInit jobsJson none) job) secondJob (.partway 0))) = [] := by decide
    have hmem : ([97], .string [49]) ∈ members jobsJson (perform jobsJson (iotKvInit jobsJson none) job) ∧
        ([97], .string [49]) ∈ members jobsJson
          (perform jobsJson (perform jobsJson (iotKvInit jobsJson none) job) secondJob) := by decide
    rcases h with h | h
    · exact List.not_mem_nil (hempty ▸ (h _).mpr hmem.1)
    · exact List.not_mem_nil (hempty ▸ (h _).mpr hmem.2)

def survived : List (Event Nat) :=
  [.op job, .crash secondJob .notOpened, .reopen, .crash (.removeKey [97]) (.partway 1), .crash job .complete]

theorem survived_recovers : EveryStep jobsMachine (Recovers jobsJson) (iotKvInit jobsJson none) survived := by
  have hlegal : Legal jobsMachine (iotKvInit jobsJson none) survived := by
    refine ⟨jobObject_reads, ⟨jobObjects_reads, nofun⟩, trivial, ⟨noJobs_reads, ?_⟩, ⟨jobObject_reads, nofun⟩, trivial⟩
    rintro n ⟨⟩
    decide
  refine (recovers_iff (listJson_assumed _) hlegal).mpr
    ⟨trivial, trivial, trivial, Or.inr ⟨[97], rfl, ?_⟩, Or.inl trivial, trivial⟩
  decide

end Jobs

end OneSdk.KvCrash
