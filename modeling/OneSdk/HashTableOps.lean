import OneSdk.HashTableRing

namespace OneSdk.HashTable

open ProbeRing KeyClasses

variable {K V : Type}

/-- What `hash_table.h` asks of the owner's functions. -/
structure Lawful (c : Callbacks K V) : Prop where
  symm {a b : K} : c.equalsFn a b = true → c.equalsFn b a = true
  trans {a b d : K} : c.equalsFn a b = true → c.equalsFn b d = true → c.equalsFn a d = true
  consistent {a b : K} : c.equalsFn a b = true → c.hashFn a = c.hashFn b

section Keys

variable {c : Callbacks K V} {a b : Option K}

theorem hashFor_ne_zero (c : Callbacks K V) (key : Option K) : hashFor c key ≠ 0 := by
  cases key with
  | none => exact Nat.succ_ne_zero 41
  | some k =>
      rw [hashFor]
      split
      · exact Nat.one_ne_zero
      · next h => exact h

variable [DecidableEq K]

theorem safeEqCheck_refl (equalsFn : K → K → Bool) (a : Option K) : safeEqCheck equalsFn a a = true := if_pos rfl

theorem safeEqCheck_eq_true {equalsFn : K → K → Bool} :
    safeEqCheck equalsFn a b = true ↔ a = b ∨ ∃ x y, a = some x ∧ b = some y ∧ equalsFn x y = true := by
  unfold safeEqCheck
  by_cases hab : a = b
  · rw [if_pos hab]
    exact iff_of_true rfl (Or.inl hab)
  · rw [if_neg hab, or_iff_right hab]
    cases a with
    | none => exact iff_of_false Bool.false_ne_true (by rintro ⟨_, _, h, _⟩; cases h)
    | some x =>
        cases b with
        | none => exact iff_of_false Bool.false_ne_true (by rintro ⟨_, _, _, h, _⟩; cases h)
        | some y =>
            constructor
            · exact fun h => ⟨x, y, rfl, rfl, h⟩
            · rintro ⟨_, _, ⟨⟩, ⟨⟩, h⟩
              exact h

theorem Lawful.equivalence (hc : Lawful c) : Equivalence (fun a b => safeEqCheck c.equalsFn a b = true) where
  refl a := safeEqCheck_refl _ a
  symm := by
    intro a b hab
    rw [safeEqCheck_eq_true] at hab ⊢
    rcases hab with rfl | ⟨x, y, rfl, rfl, hxy⟩
    · exact Or.inl rfl
    · exact Or.inr ⟨y, x, rfl, rfl, hc.symm hxy⟩
  trans := by
    intro a b d hab hbd
    rw [safeEqCheck_eq_true] at hab hbd ⊢
    rcases hab with rfl | ⟨x, y, rfl, rfl, hxy⟩
    · exact hbd
    · rcases hbd with rfl | ⟨y', z, hy, rfl, hyz⟩
      · exact Or.inr ⟨x, y, rfl, rfl, hxy⟩
      · obtain rfl := Option.some.inj hy
        exact Or.inr ⟨x, z, rfl, rfl, hc.trans hxy hyz⟩

theorem Lawful.hashFor_eq (hc : Lawful c) (h : safeEqCheck c.equalsFn a b = true) : hashFor c a = hashFor c b := by
  rcases safeEqCheck_eq_true.mp h with rfl | ⟨x, y, rfl, rfl, hxy⟩
  · rfl
  · rw [hashFor, hashFor, hc.consistent hxy]

end Keys

section Contents

variable [DecidableEq K]

def entryOf (c : Callbacks K V) (state : State K V) (key : Option K) : Option (Entry K V) :=
  lookup (safeEqCheck c.equalsFn) (fun e : Entry K V => e.element.key) (entries state) key

/-- What the table maps a key to. -/
def contents (c : Callbacks K V) (state : State K V) (key : Option K) : Option (Element K V) :=
  (entryOf c state key).map Entry.element

/-- What holds of a table beyond what `hash_table_state_is_valid` checks. -/
structure Valid (c : Callbacks K V) (state : State K V) : Prop where
  mask : IsMask state.mask state.size
  two : 2 ≤ state.size
  length : state.slots.length = state.size
  load : state.maxLoad = loadOf state.size
  fits : state.size < 2 ^ 60
  count : state.entryCount = (entries state).length
  room : state.entryCount ≤ state.maxLoad
  hashed : ∀ e ∈ entries state, e.hashCode = hashFor c e.element.key
  separate : Separate (safeEqCheck c.equalsFn) (fun e : Entry K V => e.element.key) (entries state)
  settled : Settled Entry.hashCode (ring state.slots)

end Contents

section Find

variable [DecidableEq K] {c : Callbacks K V} {state : State K V} {key : Option K}

theorem Valid.ring_length (hv : Valid c state) : (ring state.slots).length = state.size := by
  rw [length_ring, hv.length]

theorem Valid.slots_mask (hv : Valid c state) : IsMask state.mask state.slots.length := by
  rw [hv.length]
  exact hv.mask

theorem Valid.gap (hv : Valid c state) : (ring state.slots).reduceOption.length < (ring state.slots).length := by
  have hload : loadOf state.size < state.size := loadOf_lt (by have := hv.two; omega)
  have hroom := hv.room
  rw [hv.count, hv.load] at hroom
  rw [hv.ring_length]
  exact hroom.trans_lt hload

theorem findEntry_eq (hm : IsMask state.mask state.slots.length) (hlen : state.slots.length = state.size) (h : Nat)
    (key : Option K) :
    findEntry c state h key =
      (probe (isEntryFor c h key) Entry.hashCode h (ring state.slots) ((ring state.slots).length + 1) 0).map
        (fun r => (r.1, (h + r.2) % state.slots.length, r.2)) := by
  rw [findEntry, length_ring, probe, place_ring, hm.and, Nat.add_zero, occupied]
  by_cases hzero : (slotAt state.slots (h % state.slots.length)).hashCode = 0
  · rw [if_pos hzero, if_pos hzero]
    rfl
  · rw [if_neg hzero, if_neg hzero]
    dsimp only
    by_cases hhit : isEntryFor c h key (slotAt state.slots (h % state.slots.length)) = true
    · rw [if_pos hhit, if_pos hhit]
      rfl
    · rw [if_neg hhit, if_neg hhit, if_neg (Nat.not_lt_zero _), findEntry1_eq hm c rfl rfl, hlen]

/-- The search ends at the entry of the key, or where one is due. -/
theorem findEntry_cases (hc : Lawful c) (hv : Valid c state) (key : Option K) :
    (∃ i e p, findEntry c state (hashFor c key) key = some (true, i, p) ∧ i < state.size ∧
      slotAt state.slots i = e ∧ e ∈ entries state ∧ safeEqCheck c.equalsFn key e.element.key = true) ∨
      ∃ i p, findEntry c state (hashFor c key) key = some (false, i, p) ∧ entryOf c state key = none ∧
        Due Entry.hashCode (ring state.slots) (hashFor c key) p := by
  have hn : 0 < state.slots.length := by
    rw [hv.length]
    exact hv.mask.pos
  have hhit (e : Entry K V) (h : isEntryFor c (hashFor c key) key e = true) : e.hashCode = hashFor c key := by
    rw [isEntryFor, Bool.and_eq_true, decide_eq_true_eq] at h
    exact h.1
  rw [findEntry_eq hv.slots_mask hv.length]
  rcases probe_cases hv.settled hv.gap hhit with ⟨q, e, hprobe, hplace, he⟩ | ⟨q, hprobe, hmissing⟩
  · refine Or.inl ⟨(hashFor c key + q) % state.slots.length, e, q, by rw [hprobe]; rfl, ?_, ?_, ?_, ?_⟩
    · rw [← hv.length]
      exact Nat.mod_lt _ hn
    · rw [place_ring, occupied_eq_some] at hplace
      exact hplace.1
    · exact mem_entries.mpr ⟨_, hplace⟩
    · rw [isEntryFor, Bool.and_eq_true] at he
      exact he.2
  · refine Or.inr ⟨_, q, by rw [hprobe]; rfl, ?_, hmissing.due⟩
    refine lookup_eq_none.mpr fun e he => Bool.eq_false_iff.mpr fun hsame => ?_
    have habsent := hmissing.absent e he
    rw [isEntryFor, hsame, hv.hashed e he, hc.hashFor_eq hsame] at habsent
    simp at habsent

theorem awsHashTableFind_eq (hc : Lawful c) (hv : Valid c state) (key : Option K) :
    awsHashTableFind c state key = some (contents c state key) := by
  rw [awsHashTableFind, contents]
  rcases findEntry_cases hc hv key with ⟨i, e, p, hfind, _, hslot, he, hsame⟩ | ⟨i, p, hfind, hnone, _⟩
  · have hentry : entryOf c state key = some e := (lookup_eq_some hc.equivalence hv.separate).mpr ⟨he, hsame⟩
    rw [hfind, hentry]
    dsimp only [Option.bind_eq_bind, Option.bind_some]
    rw [if_pos rfl, hslot]
    rfl
  · rw [hfind, hnone]
    rfl

end Find

section Emplace

structure Ringed (state : State K V) : Prop where
  mask : IsMask state.mask state.size
  length : state.slots.length = state.size
  settled : Settled Entry.hashCode (ring state.slots)

variable {state : State K V} {e : Entry K V} {p : Nat}

theorem emplaceItem_spec (hr : Ringed state) (hroom : (entries state).length < state.size) (hne : e.hashCode ≠ 0)
    (hdue : Due Entry.hashCode (ring state.slots) e.hashCode p) :
    ∃ slots r, emplaceItem state e p = some ({ state with slots := slots }, some r) ∧
      Ringed { state with slots := slots } ∧ (ring slots).reduceOption.Perm (e :: entries state) ∧
      r < state.size ∧ slotAt slots r = e := by
  have hlen : (ring state.slots).length = state.size := (length_ring _).trans hr.length
  have hm : IsMask state.mask state.slots.length := by
    rw [hr.length]
    exact hr.mask
  have hgap : (ring state.slots).reduceOption.length < (ring state.slots).length := by
    rw [hlen]
    exact hroom
  obtain ⟨slots', r, hemplace, hdone⟩ := emplace_due hr.settled hgap hdue
  have hloop := emplaceLoop_eq hm state.size none hne p
  rw [hlen] at hemplace
  rw [hemplace, Option.map_some, Option.map_eq_some_iff] at hloop
  obtain ⟨⟨slots, rval⟩, hsome, heq⟩ := hloop
  dsimp only at heq
  obtain ⟨rfl, rfl⟩ := Prod.mk.inj heq
  have hr' : r < state.size := by
    rw [← hlen]
    exact hdone.landed.2
  have hlen' : slots.length = state.size := by rw [← length_ring, hdone.length, hlen]
  have hstands := hdone.stands
  rw [Option.elim_none, ring, ← occupied_zero (K := K) (V := V), List.getD_map, occupied_eq_some] at hstands
  refine ⟨slots, r, ?_, ⟨hr.mask, hlen', hdone.settled⟩, hdone.entries, hr', hstands.1⟩
  rw [emplaceItem, hsome]
  rfl

theorem expandLoop_spec (es : List (Entry K V)) (hr : Ringed state)
    (hroom : (entries state).length + (ring es).reduceOption.length < state.size) :
    ∃ slots, expandLoop state es = some { state with slots := slots } ∧ Ringed { state with slots := slots } ∧
      (ring slots).reduceOption.Perm ((ring es).reduceOption ++ entries state) := by
  induction es generalizing state with
  | nil => exact ⟨state.slots, rfl, hr, List.Perm.refl _⟩
  | cons e es ih =>
      rw [expandLoop]
      by_cases hzero : e.hashCode = 0
      · rw [entries_cons_zero hzero] at hroom
        rw [if_pos hzero, entries_cons_zero hzero]
        exact ih hr hroom
      · rw [entries_cons_some hzero, List.length_cons] at hroom
        obtain ⟨slots, r, hemplace, hr', hperm, _, _⟩ :=
          emplaceItem_spec hr (by omega) hzero (due_zero (ring state.slots) e.hashCode)
        have hcount := hperm.length_eq
        rw [List.length_cons] at hcount
        have hroom' : (ring slots).reduceOption.length + (ring es).reduceOption.length < state.size := by omega
        obtain ⟨slots', hloop, hr'', hperm'⟩ := ih hr' hroom'
        refine ⟨slots', ?_, hr'', ?_⟩
        · rw [if_neg hzero, hemplace]
          exact hloop
        · rw [entries_cons_some hzero]
          exact hperm'.trans ((hperm.append_left _).trans List.perm_middle)

end Emplace

section Expand

variable {state : State K V}

theorem allocState_eq {template : State K V} {k : Nat} (hk : k < 60) (hsize : template.size = 2 ^ k) :
    allocState template = some { template with slots := List.replicate template.size Entry.zero } := by
  have hsome := (hashTableStateRequiredBytes_isSome (show k < 64 by omega)).mpr hk
  obtain ⟨bytes, hbytes⟩ := Option.isSome_iff_exists.mp hsome
  rw [allocState, hsize, hbytes]
  rfl

theorem allocState_none {template : State K V} {k : Nat} (hk : 60 ≤ k) (hk' : k < 64) (hsize : template.size = 2 ^ k) :
    allocState template = none := by
  have hnone := (hashTableStateRequiredBytes_isSome hk').not.mpr (by omega)
  rw [Option.not_isSome_iff_eq_none] at hnone
  rw [allocState, hsize, hnone]
  rfl

theorem updateTemplateSize_eq (template : State K V) {expected k : Nat}
    (h : roundUpToPowerOfTwo (max expected 2) = some (2 ^ k)) :
    updateTemplateSize template expected =
      some { template with size := 2 ^ k, maxLoad := loadOf (2 ^ k), mask := 2 ^ k - 1 } := by
  rw [updateTemplateSize, h]
  dsimp only [Option.bind_eq_bind, Option.bind_some]
  rw [if_neg (Nat.not_le.mpr (loadOf_lt (Nat.two_pow_pos k)))]
  rfl

def emptyTable (k entryCount : Nat) : State K V :=
  ⟨2 ^ k, entryCount, loadOf (2 ^ k), 2 ^ k - 1, List.replicate (2 ^ k) Entry.zero⟩

theorem entries_emptyTable (k n : Nat) : entries (emptyTable k n : State K V) = [] := by
  rw [entries, emptyTable, ring_replicate, List.reduceOption_replicate_none]

theorem emptyTable_ringed {k : Nat} (hk : k < 64) (n : Nat) : Ringed (emptyTable k n : State K V) where
  mask := ⟨⟨k, hk, rfl⟩, rfl⟩
  length := List.length_replicate
  settled i := by
    have hempty : place (ring (emptyTable k n : State K V).slots) (i + 1) = none := by
      cases h : place (ring (emptyTable k n : State K V).slots) (i + 1) with
      | none => rfl
      | some e =>
          have he : e ∈ entries (emptyTable k n) := mem_entries.mpr ⟨_, h⟩
          rw [entries_emptyTable] at he
          cases he
    rw [rank_gap hempty]
    exact Nat.zero_le _

theorem expandedState_cases {k : Nat} (hk : 0 < k) (hk' : k < 60) (hsize : state.size = 2 ^ k) :
    (k < 59 ∧ expandedState state = some (emptyTable (k + 1) state.entryCount)) ∨
      (k = 59 ∧ expandedState state = none) := by
  have hpow : 2 ^ k * 2 = 2 ^ (k + 1) := (Nat.pow_succ 2 k).symm
  have hle : 2 ^ (k + 1) ≤ 2 ^ 60 := Nat.pow_le_pow_right (by decide) (by omega)
  have hge : 2 ^ 1 ≤ 2 ^ k := Nat.pow_le_pow_right (by decide) hk
  have hmul : awsMulSizeChecked state.size 2 = some (2 ^ (k + 1)) := by
    rw [awsMulSizeChecked, hsize, if_neg (by omega), hpow]
  have hround : roundUpToPowerOfTwo (max (2 ^ (k + 1)) 2) = some (2 ^ (k + 1)) := by
    rw [Nat.max_eq_left (by omega)]
    exact roundUpToPowerOfTwo_pow (by omega)
  have hexpanded : expandedState state =
      allocState { state with size := 2 ^ (k + 1), maxLoad := loadOf (2 ^ (k + 1)), mask := 2 ^ (k + 1) - 1 } := by
    rw [expandedState, hmul]
    dsimp only [Option.bind_eq_bind, Option.bind_some]
    rw [updateTemplateSize_eq state hround]
    rfl
  rw [hexpanded]
  rcases Nat.lt_or_ge k 59 with hlt | hge
  · exact Or.inl ⟨hlt, allocState_eq (show k + 1 < 60 by omega) rfl⟩
  · exact Or.inr ⟨by omega, allocState_none (show 60 ≤ k + 1 by omega) (by omega) rfl⟩

end Expand

section Put

variable [DecidableEq K] {c : Callbacks K V} {state state' : State K V} {key : Option K} {e : Entry K V}

theorem Valid.size_eq (hv : Valid c state) : ∃ k, 0 < k ∧ k < 60 ∧ state.size = 2 ^ k := by
  obtain ⟨k, _, hk⟩ := hv.mask.power
  have htwo := hv.two
  have hfits := hv.fits
  rw [hk] at htwo hfits
  refine ⟨k, ?_, (Nat.pow_lt_pow_iff_right (by decide)).mp hfits, hk⟩
  by_contra h0
  rw [Nat.eq_zero_of_not_pos h0] at htwo
  omega

/-- The table is full, and one of twice the size cannot be had. -/
def Exhausted (state : State K V) : Prop := state.entryCount = state.maxLoad ∧ state.size = 2 ^ 59

theorem expandTable_cases (hc : Lawful c) (hv : Valid c state) :
    (expandTable state = some (.error ()) ∧ state.size = 2 ^ 59) ∨
      ∃ state', expandTable state = some (.ok state') ∧ Valid c state' ∧ (entries state').Perm (entries state) ∧
        state'.entryCount = state.entryCount ∧ state.entryCount < state'.maxLoad := by
  obtain ⟨k, hk, hk', hsize⟩ := hv.size_eq
  have hroom := hv.room
  rw [hv.load] at hroom
  have hload := loadOf_lt (show 0 < state.size by have := hv.two; omega)
  have hdouble : 2 ^ (k + 1) = state.size * 2 := by rw [Nat.pow_succ, hsize]
  have hmore := le_loadOf_double state.size
  rcases expandedState_cases hk hk' hsize with ⟨hlt, hexpanded⟩ | ⟨rfl, hexpanded⟩
  · right
    have hfits : (entries (emptyTable (k + 1) state.entryCount : State K V)).length +
        (ring state.slots).reduceOption.length < (emptyTable (k + 1) state.entryCount : State K V).size := by
      have hcount : (ring state.slots).reduceOption.length = state.entryCount := hv.count.symm
      rw [entries_emptyTable, hcount, emptyTable, hdouble]
      dsimp only [List.length_nil]
      omega
    obtain ⟨slots, hloop, hr, hperm⟩ :=
      expandLoop_spec state.slots (emptyTable_ringed (show k + 1 < 64 by omega) state.entryCount) hfits
    rw [entries_emptyTable, List.append_nil] at hperm
    have hexpand := congrArg (Option.map (Except.ok (ε := Unit))) hloop
    refine ⟨_, by rw [expandTable, hexpanded]; exact hexpand,
      ⟨hr.mask, ?_, hr.length, rfl, ?_, ?_, ?_, ?_, ?_, hr.settled⟩, hperm, rfl, ?_⟩
    · exact Nat.pow_le_pow_right (show 0 < 2 by decide) (show 1 ≤ k + 1 by omega)
    · exact Nat.pow_lt_pow_right (by decide) (show k + 1 < 60 by omega)
    · exact hv.count.trans hperm.length_eq.symm
    · dsimp only [emptyTable]
      rw [hdouble]
      omega
    · exact fun e he => hv.hashed e (hperm.mem_iff.mp he)
    · exact hv.separate.perm hc.equivalence hperm.symm
    · dsimp only [emptyTable]
      rw [hdouble]
      omega
  · exact Or.inl ⟨by rw [expandTable, hexpanded], hsize⟩

/-- One entry, or none, has come in the place of another, or of none, for the same key. -/
structure Replaced (c : Callbacks K V) (state state' : State K V) (key : Option K) (new : Option (Entry K V))
    (rest : List (Entry K V)) : Prop where
  before : ((entryOf c state key).toList ++ rest).Perm (entries state)
  after : (new.toList ++ rest).Perm (entries state')
  absent : lookup (safeEqCheck c.equalsFn) (fun e : Entry K V => e.element.key) rest key = none

theorem entryOf_eq_some (hc : Lawful c) (hv : Valid c state) :
    entryOf c state key = some e ↔ e ∈ entries state ∧ safeEqCheck c.equalsFn key e.element.key = true :=
  lookup_eq_some hc.equivalence hv.separate

theorem addEntry_spec (hv : Valid c state) (hroom : state.entryCount < state.maxLoad) (hc : Lawful c)
    (hnone : entryOf c state key = none) {p : Nat} (hdue : Due Entry.hashCode (ring state.slots) (hashFor c key) p) :
    ∃ state' r, addEntry state (hashFor c key) key p = some (state', some r) ∧ Valid c state' ∧
      (entries state').Perm (⟨⟨key, none⟩, hashFor c key⟩ :: entries state) ∧ r < state'.size ∧
      slotAt state'.slots r = ⟨⟨key, none⟩, hashFor c key⟩ := by
  have hgap := hv.gap
  rw [hv.ring_length] at hgap
  have hr : Ringed { state with entryCount := state.entryCount + 1 } := ⟨hv.mask, hv.length, hv.settled⟩
  obtain ⟨slots, r, hemplace, hr, hperm, hlt, hslot⟩ :=
    emplaceItem_spec (e := ⟨⟨key, none⟩, hashFor c key⟩) hr hgap (hashFor_ne_zero c key) hdue
  have hseparate : Separate (safeEqCheck c.equalsFn) (fun e : Entry K V => e.element.key)
      (⟨⟨key, none⟩, hashFor c key⟩ :: entries state) := separate_cons.mpr ⟨hnone, hv.separate⟩
  refine ⟨_, r, hemplace, ⟨hr.mask, hv.two, hr.length, hv.load, hv.fits, ?_, hroom, ?_, ?_, hr.settled⟩, hperm,
    hlt, hslot⟩
  · have hcount := hperm.length_eq
    rw [List.length_cons] at hcount
    exact (congrArg (· + 1) hv.count).trans hcount.symm
  · intro e he
    rcases List.mem_cons.mp (hperm.mem_iff.mp he) with rfl | he
    · rfl
    · exact hv.hashed e he
  · exact hseparate.perm hc.equivalence hperm.symm

structure Created (c : Callbacks K V) (state state' : State K V) (key : Option K) (r : Nat) (e : Entry K V)
    (wasCreated : Bool) : Prop where
  valid : Valid c state'
  lt : r < state'.size
  slot : slotAt state'.slots r = e
  mem : e ∈ entries state'
  same : safeEqCheck c.equalsFn key e.element.key = true
  created : wasCreated = true → entryOf c state key = none ∧ (entries state').Perm (e :: entries state)
  found : wasCreated = false → state' = state

theorem created_of_added {state₁ : State K V} {r : Nat} (hnone : entryOf c state key = none) (hv : Valid c state')
    (hlt : r < state'.size) (hold : (entries state₁).Perm (entries state))
    (hperm : (entries state').Perm (⟨⟨key, none⟩, hashFor c key⟩ :: entries state₁))
    (hslot : slotAt state'.slots r = ⟨⟨key, none⟩, hashFor c key⟩) :
    Created c state state' key r ⟨⟨key, none⟩, hashFor c key⟩ true where
  valid := hv
  lt := hlt
  slot := hslot
  mem := hperm.mem_iff.mpr List.mem_cons_self
  same := safeEqCheck_refl _ _
  created _ := ⟨hnone, hperm.trans (hold.cons _)⟩
  found h := by cases h

theorem awsHashTableCreate_cases (hc : Lawful c) (hv : Valid c state) (key : Option K) :
    (awsHashTableCreate c state key = some (.error ()) ∧ entryOf c state key = none ∧ Exhausted state) ∨
      ∃ state' r e wasCreated, awsHashTableCreate c state key = some (.ok (state', some r, wasCreated)) ∧
        Created c state state' key r e wasCreated := by
  rw [awsHashTableCreate]
  rcases findEntry_cases hc hv key with ⟨i, e, p, hfind, hlt, hslot, he, hsame⟩ | ⟨i, p, hfind, hnone, hdue⟩
  · refine Or.inr ⟨state, i, e, false, by rw [hfind]; rfl, hv, hlt, hslot, he, hsame, fun h => ?_, fun _ => rfl⟩
    cases h
  · have hcount : awsAddSizeChecked state.entryCount 1 = some (state.entryCount + 1) := by
      have hload := loadOf_lt (show 0 < state.size by have := hv.two; omega)
      have hroom := hv.room
      have hfits := hv.fits
      rw [hv.load] at hroom
      rw [awsAddSizeChecked, if_neg (by omega)]
    rw [hfind]
    dsimp only [Option.bind_eq_bind, Option.bind_some]
    rw [if_neg Bool.false_ne_true, hcount]
    dsimp only
    by_cases hfull : state.entryCount + 1 > state.maxLoad
    · rw [if_pos hfull]
      rcases expandTable_cases hc hv with ⟨herror, hsize⟩ | ⟨state₁, hexpand, hv₁, hperm₁, hcount₁, hroom₁⟩
      · have hroom := hv.room
        exact Or.inl ⟨by rw [herror]; rfl, hnone, by omega, hsize⟩
      · right
        have hnone₁ : entryOf c state₁ key = none := by
          rw [entryOf, lookup_perm hc.equivalence hv₁.separate hperm₁]
          exact hnone
        obtain ⟨state', r, hadd, hv', hperm, hlt, hslot⟩ :=
          addEntry_spec hv₁ (by rw [hcount₁]; exact hroom₁) hc hnone₁ (due_zero (ring state₁.slots) (hashFor c key))
        refine ⟨state', r, _, true, ?_, created_of_added hnone hv' hlt hperm₁ hperm hslot⟩
        rw [hexpand, Option.bind_some]
        dsimp only
        rw [hadd]
        rfl
    · rw [if_neg hfull]
      right
      obtain ⟨state', r, hadd, hv', hperm, hlt, hslot⟩ := addEntry_spec hv (by omega) hc hnone hdue
      refine ⟨state', r, _, true, ?_, created_of_added hnone hv' hlt (List.Perm.refl _) hperm hslot⟩
      rw [hadd]
      rfl

end Put

section Store

variable {c : Callbacks K V} {state state' : State K V} {key : Option K} {e : Entry K V}

theorem place_slot (hlen : state.slots.length = state.size) {r : Nat} (hr : r < state.size)
    (hslot : slotAt state.slots r = e) (hne : e.hashCode ≠ 0) : place (ring state.slots) r = some e := by
  rw [place_ring, hlen, Nat.mod_eq_of_lt hr, hslot, occupied_of_ne hne]

variable [DecidableEq K]

theorem Valid.hashCode_ne_zero (hv : Valid c state) (he : e ∈ entries state) : e.hashCode ≠ 0 := by
  rw [hv.hashed e he]
  exact hashFor_ne_zero c _

theorem Valid.change (hc : Lawful c) (hv : Valid c state) {e' : Entry K V} {rest : List (Entry K V)}
    (hbefore : (e :: rest).Perm (entries state)) (hsame : safeEqCheck c.equalsFn e'.element.key e.element.key = true)
    (hcode : e'.hashCode = e.hashCode) {slots : List (Entry K V)} (hlen : slots.length = state.slots.length)
    (hsettled : Settled Entry.hashCode (ring slots)) (hafter : (e' :: rest).Perm (ring slots).reduceOption) :
    Valid c { state with slots := slots } where
  mask := hv.mask
  two := hv.two
  length := hlen.trans hv.length
  load := hv.load
  fits := hv.fits
  count := by
    have hcount := hbefore.length_eq.symm.trans hafter.length_eq
    exact hv.count.trans hcount
  room := hv.room
  hashed := by
    intro x hx
    rcases List.mem_cons.mp (hafter.mem_iff.mpr hx) with rfl | hx
    · rw [hcode, hv.hashed e (hbefore.mem_iff.mp List.mem_cons_self), hc.hashFor_eq hsame]
    · exact hv.hashed x (hbefore.mem_iff.mp (List.mem_cons_of_mem _ hx))
  separate := by
    obtain ⟨hnone, hrest⟩ := separate_cons.mp (hv.separate.perm hc.equivalence hbefore.symm)
    refine (separate_cons.mpr ⟨?_, hrest⟩).perm hc.equivalence hafter
    rw [lookup_congr hc.equivalence hsame]
    exact hnone
  settled := hsettled

theorem storeElement_spec (hc : Lawful c) (hv : Valid c state) {r : Nat} (hr : r < state.size)
    (hslot : slotAt state.slots r = e) (he : e ∈ entries state)
    (hsame : safeEqCheck c.equalsFn key e.element.key = true)
    (value : Option V) :
    Valid c (storeElement state r ⟨key, value⟩) ∧
      (e :: entries (storeElement state r ⟨key, value⟩)).Perm (⟨⟨key, value⟩, e.hashCode⟩ :: entries state) := by
  have hne := hv.hashCode_ne_zero he
  have hplace := place_slot hv.length hr hslot hne
  have hring : ring (storeElement state r ⟨key, value⟩).slots =
      (ring state.slots).set (r % (ring state.slots).length) (some ⟨⟨key, value⟩, e.hashCode⟩) := by
    rw [hv.ring_length, Nat.mod_eq_of_lt hr, storeElement, hslot, ring_set]
    exact congrArg ((ring state.slots).set r) (occupied_of_ne hne)
  have hperm : (e :: entries (storeElement state r ⟨key, value⟩)).Perm
      (⟨⟨key, value⟩, e.hashCode⟩ :: entries state) := by
    rw [entries, hring]
    exact entries_set_some hplace _
  refine ⟨?_, hperm⟩
  obtain ⟨front, back, hsplit⟩ := List.append_of_mem he
  have hbefore : (e :: (front ++ back)).Perm (entries state) := by
    rw [hsplit]
    exact List.perm_middle.symm
  have hsame' : safeEqCheck c.equalsFn (Entry.mk ⟨key, value⟩ e.hashCode).element.key e.element.key = true := hsame
  refine hv.change hc hbefore hsame' rfl List.length_set ?_ ?_
  · exact hring ▸ hv.settled.replace hplace rfl
  · exact ((hperm.trans ((hbefore.symm.cons _).trans (List.Perm.swap _ _ _))).cons_inv).symm

def replacedCalls (c : Callbacks K V) (key : Option K) (old : Option (Entry K V)) : List (Item K V) :=
  old.elim [] (fun old =>
    (if old.element.key ≠ key then destroyKey c old.element.key else []) ++ destroyValue c old.element.value)

theorem awsHashTablePut_cases (hc : Lawful c) (hv : Valid c state) (key : Option K) (value : Option V) :
    (awsHashTablePut c state key value = some (.error ()) ∧ entryOf c state key = none ∧ Exhausted state) ∨
      ∃ state' rest, awsHashTablePut c state key value =
          some (.ok (state', (entryOf c state key).isNone, replacedCalls c key (entryOf c state key))) ∧
        Valid c state' ∧ Replaced c state state' key (some ⟨⟨key, value⟩, hashFor c key⟩) rest := by
  rw [awsHashTablePut]
  rcases awsHashTableCreate_cases hc hv key with ⟨herror, hnone, hfull⟩ | ⟨state₁, r, e, wasCreated, hcreate, hdone⟩
  · exact Or.inl ⟨by rw [herror]; rfl, hnone, hfull⟩
  · right
    obtain ⟨hstored, hperm⟩ := storeElement_spec hc hdone.valid hdone.lt hdone.slot hdone.mem hdone.same value
    have hcode : e.hashCode = hashFor c key := by
      rw [hdone.valid.hashed e hdone.mem, hc.hashFor_eq hdone.same]
    rw [hcode] at hperm
    rw [hcreate]
    dsimp only [Option.bind_eq_bind, Option.bind_some]
    rw [hdone.slot]
    cases wasCreated with
    | true =>
        obtain ⟨hnone, hold⟩ := hdone.created rfl
        rw [hnone]
        refine ⟨_, entries state, rfl, hstored, ⟨by rw [hnone]; exact List.Perm.refl _, ?_, hnone⟩⟩
        exact ((hperm.trans ((hold.cons _).trans (List.Perm.swap _ _ _))).cons_inv).symm
    | false =>
        obtain rfl := hdone.found rfl
        have hentry := (entryOf_eq_some hc hv).mpr ⟨hdone.mem, hdone.same⟩
        obtain ⟨front, back, hsplit⟩ := List.append_of_mem hdone.mem
        have hbefore : (e :: (front ++ back)).Perm (entries state₁) := by
          rw [hsplit]
          exact List.perm_middle.symm
        rw [hentry]
        refine ⟨_, front ++ back, rfl, hstored, ⟨by rw [hentry]; exact hbefore, ?_, ?_⟩⟩
        · exact ((hperm.trans ((hbefore.symm.cons _).trans (List.Perm.swap _ _ _))).cons_inv).symm
        · rw [lookup_congr hc.equivalence hdone.same]
          exact (separate_cons.mp (hv.separate.perm hc.equivalence hbefore.symm)).1

end Store

section Remove

variable [DecidableEq K] {c : Callbacks K V} {state state' : State K V} {key : Option K} {e : Entry K V}

/-- The entry of the place is gone, and `k` entries behind it have moved up. -/
structure Removed (c : Callbacks K V) (state : State K V) (r : Nat) (e : Entry K V) (k : Nat)
    (slots : List (Entry K V)) : Prop where
  valid : Valid c { state with entryCount := state.entryCount - 1, slots := slots }
  moved : MovedUp Entry.hashCode (ring state.slots) r k (ring slots)
  rest : (e :: (ring slots).reduceOption).Perm (entries state)

theorem removeEntry_spec (hc : Lawful c) (hv : Valid c state) {r : Nat} (hr : r < state.size)
    (hslot : slotAt state.slots r = e) (hne : e.hashCode ≠ 0) :
    ∃ slots k, removeEntry state r =
        some ({ state with entryCount := state.entryCount - 1, slots := slots }, (r + k) % state.size) ∧
      Removed c state r e k slots := by
  have hplace := place_slot hv.length hr hslot hne
  obtain ⟨g, hgn, hgap⟩ := gap_ahead hv.gap r
  have hg : 0 < g := by
    by_contra h0
    rw [Nat.eq_zero_of_not_pos h0, Nat.add_zero, hplace] at hgap
    cases hgap
  obtain ⟨slots', k, hwithdraw, _, hmoved⟩ : ∃ slots' k,
      withdraw Entry.hashCode (ring state.slots).length (ring state.slots) r = some (slots', r + k) ∧ k < g ∧
        MovedUp Entry.hashCode (ring state.slots) r k slots' := withdraw_spec hgap hg hgn (Nat.le_of_lt hgn)
  rw [hv.ring_length] at hwithdraw
  have hloop := removeLoop_eq hv.slots_mask state.size r
  rw [hwithdraw, Option.map_some, Option.map_eq_some_iff, hv.length, Nat.mod_eq_of_lt hr] at hloop
  obtain ⟨⟨slots, last⟩, hsome, heq⟩ := hloop
  dsimp only at heq
  obtain ⟨rfl, rfl⟩ := Prod.mk.inj heq
  have hrest := withdraw_entries hplace hwithdraw
  have hlen : slots.length = state.size := by rw [← length_ring, hmoved.length, hv.ring_length]
  obtain ⟨_, hseparate⟩ := separate_cons.mp (hv.separate.perm hc.equivalence hrest.symm)
  have hcount := hrest.length_eq
  rw [List.length_cons] at hcount
  have hcount' : state.entryCount = (ring slots).reduceOption.length + 1 := hv.count.trans hcount.symm
  refine ⟨slots, k, by rw [removeEntry, hsome]; rfl, ⟨hv.mask, hv.two, hlen, hv.load, hv.fits, ?_, ?_, ?_, hseparate,
    hmoved.settled_after hv.settled⟩, hmoved, hrest⟩
  · exact (congrArg (· - 1) hcount').trans (Nat.add_sub_cancel _ 1)
  · exact (Nat.sub_le _ _).trans hv.room
  · exact fun x hx => hv.hashed x (hrest.mem_iff.mp (List.mem_cons_of_mem _ hx))

def removedCalls (c : Callbacks K V) (takes : Bool) (old : Option (Entry K V)) : List (Item K V) :=
  old.elim [] (fun old => if takes then [] else destroyKey c old.element.key ++ destroyValue c old.element.value)

theorem awsHashTableRemove_eq (hc : Lawful c) (hv : Valid c state) (key : Option K) (takes : Bool) :
    ∃ state' rest, awsHashTableRemove c state key takes =
        some (state', contents c state key, removedCalls c takes (entryOf c state key)) ∧
      Valid c state' ∧ Replaced c state state' key none rest := by
  rw [awsHashTableRemove, contents]
  rcases findEntry_cases hc hv key with ⟨i, e, p, hfind, hlt, hslot, he, hsame⟩ | ⟨i, p, hfind, hnone, _⟩
  · have hentry := (entryOf_eq_some hc hv).mpr ⟨he, hsame⟩
    obtain ⟨slots, k, hremove, hdone⟩ := removeEntry_spec hc hv hlt hslot (hv.hashCode_ne_zero he)
    rw [hfind]
    dsimp only [Option.bind_eq_bind, Option.bind_some]
    rw [if_pos rfl, hremove, hslot, hentry]
    refine ⟨_, (ring slots).reduceOption, rfl, hdone.valid, ⟨by rw [hentry]; exact hdone.rest, List.Perm.refl _, ?_⟩⟩
    rw [lookup_congr hc.equivalence hsame]
    exact (separate_cons.mp (hv.separate.perm hc.equivalence hdone.rest.symm)).1
  · rw [hfind, hnone]
    exact ⟨state, entries state, rfl, hv, ⟨by rw [hnone]; exact List.Perm.refl _, List.Perm.refl _, hnone⟩⟩

end Remove

section Clear

variable [DecidableEq K] {c : Callbacks K V} {state : State K V}

theorem emptyTable_valid (c : Callbacks K V) {k : Nat} (hk : 0 < k) (hk' : k < 60) : Valid c (emptyTable k 0) where
  mask := (emptyTable_ringed (show k < 64 by omega) 0).mask
  two := Nat.pow_le_pow_right (show 0 < 2 by decide) hk
  length := (emptyTable_ringed (show k < 64 by omega) 0).length
  load := rfl
  fits := Nat.pow_lt_pow_right (by decide) hk'
  count := by
    rw [entries_emptyTable]
    rfl
  room := Nat.zero_le _
  hashed e he := by
    rw [entries_emptyTable] at he
    cases he
  separate := by
    rw [entries_emptyTable]
    exact List.Pairwise.nil
  settled := (emptyTable_ringed (show k < 64 by omega) 0).settled

theorem awsHashTableInit_cases (c : Callbacks K V) (size : Nat) :
    (2 ^ 59 < size ∧ (awsHashTableInit size : Option (State K V)) = none) ∨
      ∃ state, awsHashTableInit size = some state ∧ Valid c state ∧ entries state = [] := by
  rw [awsHashTableInit]
  rcases roundUpToPowerOfTwo_cases (Nat.le_max_right size 2) with ⟨k, hk, hround, hleast⟩ | ⟨hgt, hround⟩
  · rw [updateTemplateSize_eq _ hround, Option.bind_eq_bind, Option.bind_some]
    have hpos : 0 < k := by
      have := (hleast 0).not
      omega
    rcases Nat.lt_or_ge k 60 with hlt | hge
    · exact Or.inr ⟨emptyTable k 0, allocState_eq hlt rfl, emptyTable_valid c hpos hlt, entries_emptyTable k 0⟩
    · refine Or.inl ⟨?_, allocState_none hge hk rfl⟩
      have := (hleast 59).not
      omega
  · exact Or.inl ⟨by omega, by rw [updateTemplateSize, hround]; rfl⟩

theorem awsHashTableClear_spec (hv : Valid c state) :
    Valid c (awsHashTableClear c state).1 ∧ entries (awsHashTableClear c state).1 = [] := by
  obtain ⟨k, hk, hk', hsize⟩ := hv.size_eq
  have hclear : (awsHashTableClear c state).1 = emptyTable k 0 := by
    rw [awsHashTableClear, emptyTable, hv.load, hv.mask.pred, hsize]
  rw [hclear]
  exact ⟨emptyTable_valid c hk hk', entries_emptyTable k 0⟩

end Clear

end OneSdk.HashTable
