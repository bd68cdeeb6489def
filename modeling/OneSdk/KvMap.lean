import OneSdk.KvStore
import OneSdk.Runs

namespace OneSdk.KvMap

open CString KeyedList KvStore Runs

inductive Value (D : Type) where
  | string (s : Bytes)
  | number (d : D)
  deriving DecidableEq

def Value.node {D : Type} : Value D → Node D
  | .string s => .string s
  | .number d => .number d

def Value.asString {D : Type} : Option (Value D) → Bytes
  | some (.string s) => s
  | _ => []

def Value.asNumber {D : Type} [Zero D] : Option (Value D) → D
  | some (.number d) => d
  | _ => 0

inductive Event (D : Type) where
  | write (w : Write D)
  | getString (key out : Bytes)
  | getNum (key : Bytes) (value : D)
  | getKeys
  deriving DecidableEq

/-- The store beside the map that it stands for. -/
structure State (D O : Type) where
  ctx : KvCtx O
  map : Bytes → Option (Value D)

def onMap {D : Type} (map : Bytes → Option (Value D)) : Write D → Bytes → Option (Value D)
  | .addString key value => Function.update map key (some (.string value))
  | .setNum key num => Function.update map key (some (.number num))
  | .removeKey key => Function.update map key none

section Machine

variable {D O : Type} [Zero D] (json : CJson D O)

def step (s : State D O) : Event D → State D O
  | .write w => ⟨perform json s.ctx w, onMap s.map w⟩
  | .getString _ _ | .getNum _ _ | .getKeys => s

def machine : Machine (State D O) (Event D) where
  enabled _ _ := True
  next := step json

def fresh : State D O := ⟨iotKvInit json none, fun _ => none⟩

def listed (s : State D O) : List Bytes := iotGetKvKeys json s.ctx []

/-- Each key that is present is listed once, and a get returns its value. -/
structure Holds (s : State D O) : Prop where
  once : (listed json s).Nodup
  present (key : Bytes) : key ∈ listed json s ↔ ∃ v, s.map key = some v
  string (key v out : Bytes) : s.map key = some (.string v) → iotGetKvString json s.ctx key out = v
  number (key : Bytes) (d value : D) : s.map key = some (.number d) → iotKvGetNumUseCur json s.ctx key value = d

/-- A get returns what was last written to exactly its key, and else nothing or zero. -/
def Answers (s : State D O) : Event D → Prop
  | .getString key out => iotGetKvString json s.ctx key out = Value.asString (s.map key)
  | .getNum key value => iotKvGetNumUseCur json s.ctx key value = Value.asNumber (s.map key)
  | .write _ | .getKeys => True

def ActsAsMap (es : List (Event D)) : Prop :=
  Always (machine json) (Holds json) (fresh json) es ∧ EveryStep (machine json) (Answers json) (fresh json) es

end Machine

def SameName (k k' : Bytes) : Prop := foldName (cstr k) = foldName (cstr k')

instance (k k' : Bytes) : Decidable (SameName k k') := inferInstanceAs (Decidable (_ = _))

section Condition

variable {D O : Type} [Zero D]

def Alone (map : Bytes → Option (Value D)) (key : Bytes) : Prop :=
  ∀ k v, map k = some v → SameName k key → k = key

def Distinct (s : State D O) : Event D → Prop
  | .write (.addString key value) => 0 ∉ key ∧ 0 ∉ value ∧ Alone s.map key
  | .write (.setNum key _) => 0 ∉ key ∧ Alone s.map key
  | .write (.removeKey key) => Alone s.map key
  | .getString key out =>
      (∀ k v, s.map k = some (.string v) → SameName k key → k = key ∨ v = []) ∧
        (out = [] ∨ ∃ k v, s.map k = some (.string v) ∧ SameName k key)
  | .getNum key value =>
      (∀ k d, s.map k = some (.number d) → SameName k key → k = key ∨ d = 0) ∧
        (value = 0 ∨ ∃ k d, s.map k = some (.number d) ∧ SameName k key)
  | .getKeys => True

end Condition

/-- The members of the object are the map, and their names are whole keys. -/
structure Mirrors {D O : Type} (json : CJson D O) (s : State D O) : Prop where
  wellFormed : WellFormed json s.ctx.kvJsonData
  mem (key : Bytes) (node : Node D) :
    (key, node) ∈ json.children s.ctx.kvJsonData ↔ ∃ v, s.map key = some v ∧ v.node = node
  whole (key : Bytes) (v : Value D) : s.map key = some v → (0 : UInt8) ∉ key

section Mirrored

variable {D O : Type} {json : CJson D O} {s : State D O} {ctx : KvCtx O} {key : Bytes} {v : Value D}

theorem mem_listed {ctx : KvCtx O} {map : Bytes → Option (Value D)} :
    key ∈ listed json ⟨ctx, map⟩ ↔ ∃ node, (key, node) ∈ json.children ctx.kvJsonData := by
  rw [listed, iotGetKvKeys, List.nil_append, List.mem_map]
  constructor
  · rintro ⟨⟨_, node⟩, hmem, rfl⟩
    exact ⟨node, hmem⟩
  · rintro ⟨node, hmem⟩
    exact ⟨(key, node), hmem, rfl⟩

theorem node_injective : Function.Injective (Value.node (D := D)) := by
  intro v w h
  cases v <;> cases w <;> cases h <;> rfl

theorem node_ne_null (v : Value D) : v.node ≠ .null := by
  cases v <;> exact nofun

namespace Mirrors

theorem value_mem (hm : Mirrors json s) (hv : s.map key = some v) :
    (key, v.node) ∈ json.children s.ctx.kvJsonData :=
  (hm.mem key v.node).mpr ⟨v, hv, rfl⟩

theorem mem_value (hm : Mirrors json s) (hmem : (key, v.node) ∈ json.children s.ctx.kvJsonData) :
    s.map key = some v := by
  obtain ⟨w, hw, hnode⟩ := (hm.mem key v.node).mp hmem
  rw [hw, node_injective hnode]

theorem null_notMem (hm : Mirrors json s) (name : Bytes) : (name, .null) ∉ json.children s.ctx.kvJsonData := by
  intro hmem
  obtain ⟨v, -, hv⟩ := (hm.mem name .null).mp hmem
  exact node_ne_null v hv

theorem name_whole (hm : Mirrors json s) {name : Bytes} {node : Node D}
    (hmem : (name, node) ∈ json.children s.ctx.kvJsonData) : (0 : UInt8) ∉ name := by
  obtain ⟨v, hv, -⟩ := (hm.mem name node).mp hmem
  exact hm.whole name v hv

theorem holds [Zero D] (hj : Assumed json) (hm : Mirrors json s) : Holds json s where
  once := by
    rw [listed, iotGetKvKeys, List.nil_append]
    exact List.Nodup.of_map foldName (by rw [List.map_map]; exact hm.wellFormed.keyed)
  present key := by
    rw [mem_listed]
    constructor
    · rintro ⟨node, hmem⟩
      obtain ⟨v, hv, -⟩ := (hm.mem key node).mp hmem
      exact ⟨v, hv⟩
    · rintro ⟨v, hv⟩
      exact ⟨v.node, hm.value_mem hv⟩
  string key v out hv :=
    getString_of_mem hj hm.wellFormed (hm.value_mem hv) (by rw [cstr_eq_self.mpr (hm.whole key _ hv)]) out
  number key d value hv :=
    getNum_of_mem hj hm.wellFormed (hm.value_mem hv) (by rw [cstr_eq_self.mpr (hm.whole key _ hv)]) value

theorem sameName (hm : Mirrors json s) {name : Bytes} {node : Node D}
    (hmem : (name, node) ∈ json.children s.ctx.kvJsonData) :
    SameName name key ↔ foldName name = foldName (cstr key) := by
  rw [SameName, cstr_eq_self.mpr (hm.name_whole hmem)]

theorem put (hm : Mirrors json s) (hwf : WellFormed json ctx.kvJsonData)
    (hchildren : json.children ctx.kvJsonData =
      KeyedList.put entryName (cstr key, v.node) (json.children s.ctx.kvJsonData))
    (hkey : (0 : UInt8) ∉ key) (halone : Alone s.map key) :
    Mirrors json ⟨ctx, Function.update s.map key (some v)⟩ where
  wellFormed := hwf
  mem k node := by
    dsimp only
    rw [hchildren, mem_put hm.wellFormed.keyed, cstr_eq_self.mpr hkey]
    by_cases hk : k = key
    · subst hk
      rw [Function.update_self]
      constructor
      · rintro (h | ⟨-, hne⟩)
        · exact ⟨v, rfl, (congrArg Prod.snd h).symm⟩
        · exact absurd rfl hne
      · rintro ⟨w, hw, rfl⟩
        cases hw
        exact Or.inl rfl
    · rw [Function.update_of_ne hk, ← hm.mem k node]
      constructor
      · rintro (h | ⟨hmem, -⟩)
        · exact absurd (congrArg Prod.fst h) hk
        · exact hmem
      · intro hmem
        refine Or.inr ⟨hmem, fun hname => hk ?_⟩
        obtain ⟨w, hw, -⟩ := (hm.mem k node).mp hmem
        refine halone k w hw ((hm.sameName hmem).mpr ?_)
        rw [cstr_eq_self.mpr hkey]
        exact hname
  whole k w hw := by
    by_cases hk : k = key
    · exact hk ▸ hkey
    · dsimp only at hw
      rw [Function.update_of_ne hk] at hw
      exact hm.whole k w hw

theorem erase (hm : Mirrors json s) (hwf : WellFormed json ctx.kvJsonData)
    (hchildren : json.children ctx.kvJsonData =
      KeyedList.erase entryName (foldName (cstr key)) (json.children s.ctx.kvJsonData))
    (halone : Alone s.map key) : Mirrors json ⟨ctx, Function.update s.map key none⟩ where
  wellFormed := hwf
  mem k node := by
    dsimp only
    rw [hchildren, mem_erase hm.wellFormed.keyed]
    by_cases hk : k = key
    · subst hk
      rw [Function.update_self]
      constructor
      · rintro ⟨hmem, hne⟩
        exact absurd ((hm.sameName hmem).mp rfl) hne
      · exact fun ⟨_, hw, _⟩ => nomatch hw
    · rw [Function.update_of_ne hk, ← hm.mem k node]
      constructor
      · exact fun h => h.1
      · intro hmem
        refine ⟨hmem, fun hname => hk ?_⟩
        obtain ⟨w, hw, -⟩ := (hm.mem k node).mp hmem
        exact halone k w hw ((hm.sameName hmem).mpr hname)
  whole k w hw := by
    by_cases hk : k = key
    · dsimp only at hw
      rw [hk, Function.update_self] at hw
      cases hw
    · dsimp only at hw
      rw [Function.update_of_ne hk] at hw
      exact hm.whole k w hw

/-- A write puts its key in the listing and takes every other spelling of it out. -/
theorem put_needs (hm : Mirrors json s) {node : Node D}
    (hchildren : json.children ctx.kvJsonData =
      KeyedList.put entryName (cstr key, node) (json.children s.ctx.kvJsonData))
    (hpresent : ∀ k, (∃ w, Function.update s.map key (some v) k = some w) →
      ∃ node, (k, node) ∈ json.children ctx.kvJsonData) : (0 : UInt8) ∉ key ∧ Alone s.map key := by
  have hcases : ∀ k, (∃ w, Function.update s.map key (some v) k = some w) →
      k = cstr key ∨ ∃ node', (k, node') ∈ json.children s.ctx.kvJsonData ∧ foldName k ≠ foldName (cstr key) := by
    intro k hk
    obtain ⟨node', hmem⟩ := hpresent k hk
    rw [hchildren, mem_put hm.wellFormed.keyed] at hmem
    rcases hmem with h | ⟨hold, hne⟩
    · exact Or.inl (congrArg Prod.fst h)
    · exact Or.inr ⟨node', hold, hne⟩
  have hkey : (0 : UInt8) ∉ key := by
    rcases hcases key ⟨v, Function.update_self ..⟩ with h | ⟨node', hmem, -⟩
    · exact cstr_eq_self.mp h.symm
    · exact hm.name_whole hmem
  refine ⟨hkey, fun k w hw hsame => ?_⟩
  by_contra hk
  rcases hcases k ⟨w, by rw [Function.update_of_ne hk, hw]⟩ with h | ⟨node', hmem, hne⟩
  · exact hk (h.trans (cstr_eq_self.mpr hkey))
  · exact hne ((hm.sameName hmem).mp hsame)

theorem erase_needs (hm : Mirrors json s)
    (hchildren : json.children ctx.kvJsonData =
      KeyedList.erase entryName (foldName (cstr key)) (json.children s.ctx.kvJsonData))
    (hpresent : ∀ k, (∃ w, Function.update s.map key none k = some w) →
      ∃ node, (k, node) ∈ json.children ctx.kvJsonData) : Alone s.map key := by
  intro k w hw hsame
  by_contra hk
  obtain ⟨node, hmem⟩ := hpresent k ⟨w, by rw [Function.update_of_ne hk, hw]⟩
  rw [hchildren, mem_erase hm.wellFormed.keyed] at hmem
  exact hmem.2 ((hm.sameName hmem.1).mp hsame)

variable [Zero D]

theorem write_keeps (hj : Assumed json) (hm : Mirrors json s) {w : Write D} (hc : Distinct s (.write w)) :
    Mirrors json (step json s (.write w)) := by
  have hwf := perform_wellFormed hj hm.wellFormed w
  have hchildren := (perform_object hj hm.wellFormed w).2
  cases w with
  | addString key value =>
      obtain ⟨hkey, hvalue, halone⟩ := hc
      rw [Write.onEntries, cstr_eq_self.mpr hvalue] at hchildren
      exact hm.put (v := .string value) hwf hchildren hkey halone
  | setNum key num => exact hm.put (v := .number num) hwf hchildren hc.1 hc.2
  | removeKey key => exact hm.erase hwf hchildren hc

theorem write_needs (hj : Assumed json) (hm : Mirrors json s) {w : Write D}
    (hh : Holds json (step json s (.write w))) : Distinct s (.write w) := by
  have hwf := perform_wellFormed hj hm.wellFormed w
  have hchildren := (perform_object hj hm.wellFormed w).2
  have hpresent := fun k h => mem_listed.mp ((hh.present k).mpr h)
  cases w with
  | addString key value =>
      obtain ⟨hkey, halone⟩ := hm.put_needs hchildren hpresent
      refine ⟨hkey, ?_, halone⟩
      have hget := hh.string key value [] (Function.update_self ..)
      have hmem : (cstr key, .string (cstr value)) ∈ json.children
          (perform json s.ctx (.addString key value)).kvJsonData := by
        rw [hchildren, Write.onEntries, mem_put hm.wellFormed.keyed]
        exact Or.inl rfl
      have hcut := getString_of_mem hj hwf hmem rfl []
      exact cstr_eq_self.mp (hcut.symm.trans hget)
  | setNum key num => exact hm.put_needs hchildren hpresent
  | removeKey key => exact hm.erase_needs hchildren hpresent

omit [Zero D] in
theorem same_key (hm : Mirrors json s) {k k' : Bytes} {v v' : Value D} (hv : s.map k = some v)
    (hv' : s.map k' = some v') (hk : SameName k key) (hk' : SameName k' key) : k = k' := by
  have hmem := hm.value_mem hv
  have hmem' := hm.value_mem hv'
  have hname : foldName k = foldName k' :=
    ((hm.sameName hmem).mp hk).trans ((hm.sameName hmem').mp hk').symm
  exact congrArg Prod.fst (List.inj_on_of_nodup_map hm.wellFormed.keyed hmem hmem' hname)

omit [Zero D] in
theorem get_iff (hm : Mirrors json s) {α : Type} (kind : α → Value D) {read : Option (Value D) → α}
    {zero out got : α} (hread : ∀ a, read (some (kind a)) = a)
    (hzero : ∀ v, (∀ a, v ≠ some (kind a)) → read v = zero)
    (hfound : ∀ k a, s.map k = some (kind a) → SameName k key → got = a)
    (hnone : (¬∃ k a, s.map k = some (kind a) ∧ SameName k key) → got = out) :
    got = read (s.map key) ↔
      (∀ k a, s.map k = some (kind a) → SameName k key → k = key ∨ a = zero) ∧
        (out = zero ∨ ∃ k a, s.map k = some (kind a) ∧ SameName k key) := by
  by_cases h : ∃ k a, s.map k = some (kind a) ∧ SameName k key
  · obtain ⟨k, a, hv, hsame⟩ := h
    rw [hfound k a hv hsame]
    by_cases hkey : ∃ b, s.map key = some (kind b)
    · obtain ⟨b, hb⟩ := hkey
      have hk : k = key := hm.same_key hv hb hsame rfl
      subst hk
      rw [hv, hread]
      refine iff_of_true rfl ⟨fun k' a' hv' hsame' => Or.inl ?_, Or.inr ⟨k, a, hv, rfl⟩⟩
      exact hm.same_key hv' hv hsame' rfl
    · rw [hzero _ (not_exists.mp hkey)]
      constructor
      · rintro rfl
        refine ⟨fun k' a' hv' hsame' => Or.inr ?_, Or.inr ⟨k, a, hv, hsame⟩⟩
        rw [← hfound k a hv hsame, hfound k' a' hv' hsame']
      · rintro ⟨hall, -⟩
        rcases hall k a hv hsame with rfl | ha
        · exact absurd ⟨a, hv⟩ hkey
        · exact ha
  · have hkey : ∀ a, s.map key ≠ some (kind a) := fun a ha => h ⟨key, a, ha, rfl⟩
    rw [hnone h, hzero _ hkey]
    constructor
    · exact fun hout => ⟨fun k a hv hsame => absurd ⟨k, a, hv, hsame⟩ h, Or.inl hout⟩
    · rintro ⟨-, hout | hex⟩
      · exact hout
      · exact absurd hex h

theorem getString_iff (hj : Assumed json) (hm : Mirrors json s) {out : Bytes} :
    Answers json s (.getString key out) ↔ Distinct s (.getString key out) := by
  refine hm.get_iff Value.string (fun _ => rfl) ?_ ?_ ?_
  · intro v hv
    cases v with
    | none => rfl
    | some v =>
        cases v with
        | string t => exact absurd rfl (hv t)
        | number d => rfl
  · intro k t hv hsame
    have hmem : (k, .string t) ∈ json.children s.ctx.kvJsonData := hm.value_mem hv
    exact getString_of_mem hj hm.wellFormed hmem ((hm.sameName hmem).mp hsame) out
  · intro hnone
    refine getString_of_none hj hm.wellFormed hm.null_notMem ?_ out
    intro k t hmem hname
    exact hnone ⟨k, t, hm.mem_value (v := .string t) hmem, (hm.sameName hmem).mpr hname⟩

theorem getNum_iff (hj : Assumed json) (hm : Mirrors json s) {value : D} :
    Answers json s (.getNum key value) ↔ Distinct s (.getNum key value) := by
  refine hm.get_iff Value.number (fun _ => rfl) ?_ ?_ ?_
  · intro v hv
    cases v with
    | none => rfl
    | some v =>
        cases v with
        | string t => rfl
        | number d => exact absurd rfl (hv d)
  · intro k d hv hsame
    have hmem : (k, .number d) ∈ json.children s.ctx.kvJsonData := hm.value_mem hv
    exact getNum_of_mem hj hm.wellFormed hmem ((hm.sameName hmem).mp hsame) value
  · intro hnone
    refine getNum_of_none hj hm.wellFormed hm.null_notMem ?_ value
    intro k d hmem hname
    exact hnone ⟨k, d, hm.mem_value (v := .number d) hmem, (hm.sameName hmem).mpr hname⟩

theorem step_keeps (hj : Assumed json) (hm : Mirrors json s) {e : Event D} (hc : Distinct s e) :
    Mirrors json (step json s e) := by
  cases e with
  | write w => exact hm.write_keeps hj hc
  | getString key out => exact hm
  | getNum key value => exact hm
  | getKeys => exact hm

theorem step_iff (hj : Assumed json) (hm : Mirrors json s) {e : Event D} :
    Holds json (step json s e) ∧ Answers json s e ↔ Distinct s e := by
  cases e with
  | write w =>
      constructor
      · exact fun h => hm.write_needs hj h.1
      · exact fun hc => ⟨(hm.write_keeps hj hc).holds hj, trivial⟩
  | getString key out => exact (and_iff_right (hm.holds hj)).trans (hm.getString_iff hj)
  | getNum key value => exact (and_iff_right (hm.holds hj)).trans (hm.getNum_iff hj)
  | getKeys => exact iff_of_true ⟨hm.holds hj, trivial⟩ trivial

end Mirrors

theorem fresh_mirrors (hj : Assumed json) : Mirrors json (fresh json) where
  wellFormed := created_wellFormed hj
  mem key node := by
    simp only [fresh, iotKvInit, hj.created.2, List.not_mem_nil, reduceCtorEq, false_and, exists_false]
  whole key v hv := nomatch hv

/-- The store is a map in exactly the runs whose keys are told apart. -/
theorem actsAsMap_iff [Zero D] (hj : Assumed json) (es : List (Event D)) :
    ActsAsMap json es ↔ EveryStep (machine json) Distinct (fresh json) es := by
  have hlegal : Legal (machine json) (fresh json) es := everyStep_of_forall (fun _ _ => trivial) _ _
  have hm := fresh_mirrors hj
  have hiff := everyStep_iff (M := machine json) (I := Mirrors json)
    (Q := fun s e => Holds json (step json s e) ∧ Answers json s e)
    (fun s e hs _ hc => hs.step_keeps hj hc) (fun s e hs _ => hs.step_iff hj) hm hlegal
  rw [← hiff, everyStep_and, ActsAsMap, Always, and_assoc]
  exact and_iff_right (hm.holds hj)

end Mirrored

section Aliases

def lowerKey : Bytes := text "job"

def upperKey : Bytes := text "JOB"

def twoSpellings : List (Event Nat) :=
  [.write (.addString lowerKey [49]), .write (.addString upperKey [50]), .getString lowerKey []]

theorem twoSpellings_interfere : ¬ActsAsMap (listJson []) twoSpellings := by
  intro h
  have hget : iotGetKvString (listJson []) (perform (listJson []) (perform (listJson []) (iotKvInit (listJson []) none)
      (.addString lowerKey [49])) (.addString upperKey [50])) lowerKey [] = [49] := h.2.2.2.1
  exact absurd hget (by decide)

def oneSpelling : List (Event Nat) := [.write (.addString lowerKey [49]), .getString lowerKey [50], .getKeys]

theorem oneSpelling_actsAsMap : ActsAsMap (listJson []) oneSpelling := by
  refine (actsAsMap_iff (listJson_assumed []) oneSpelling).mpr
    ⟨⟨by decide, by decide, nofun⟩, ⟨?_, ?_⟩, trivial, trivial⟩
  · intro k v hv _
    by_cases hk : k = lowerKey
    · exact Or.inl hk
    · exact nomatch (Function.update_of_ne hk ..).symm.trans hv
  · exact Or.inr ⟨lowerKey, [49], rfl, rfl⟩

end Aliases

end OneSdk.KvMap
