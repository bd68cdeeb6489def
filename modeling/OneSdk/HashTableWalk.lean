import OneSdk.HashTableMap

namespace OneSdk.HashTable

open ProbeRing KeyClasses

variable {K V : Type}

inductive IterStatus
  | done
  | deleteCalled
  | readyForUse

structure Iter (K V : Type) where
  element : Element K V
  slot : Nat
  limit : Nat
  status : IterStatus

structure Verdict where
  continues : Bool
  deletes : Bool
  fails : Bool

section Iterators

def getNextElement (state : State K V) (iter : Iter K V) (startSlot : Nat) : Iter K V :=
  match (List.range' startSlot (iter.limit - startSlot)).find? (fun i => (slotAt state.slots i).hashCode != 0) with
  | some i => { iter with element := (slotAt state.slots i).element, slot := i, status := .readyForUse }
  | none => { iter with element := ⟨none, none⟩, slot := iter.limit, status := .done }

def awsHashIterBegin (state : State K V) : Iter K V :=
  getNextElement state ⟨⟨none, none⟩, 0, state.size, .done⟩ 0

def awsHashIterDone (iter : Iter K V) : Bool := iter.slot == iter.limit

def awsHashIterNext (state : State K V) (iter : Iter K V) : Iter K V :=
  getNextElement state iter ((iter.slot + 1) % 2 ^ 64)

def awsHashIterDelete (c : Callbacks K V) (state : State K V) (iter : Iter K V) (destroyContents : Bool) :
    Option (State K V × Iter K V × List (Item K V)) := do
  let destroyed :=
    if destroyContents then destroyKey c iter.element.key ++ destroyValue c iter.element.value else []
  let (state, lastIndex) ← removeEntry state iter.slot
  let limit := if lastIndex < iter.slot ∨ lastIndex ≥ iter.limit then iter.limit - 1 else iter.limit
  pure (state, { iter with limit := limit, slot := sub64 iter.slot 1, status := .deleteCalled }, destroyed)

variable {X : Type} (c : Callbacks K V) (callback : X → Element K V → X × Verdict)

/-- Whether the walk has come through without an error, the table and the context. -/
def foreachLoop : Nat → State K V → Iter K V → X → Option (Bool × State K V × X)
  | 0, _, _, _ => none
  | fuel + 1, state, iter, context =>
      if awsHashIterDone iter then some (true, state, context)
      else
        let (context, rv) := callback context iter.element
        if rv.fails then some (false, state, context)
        else do
          let (state, iter) ←
            if rv.deletes then (awsHashIterDelete c state iter false).map (fun r => (r.1, r.2.1))
            else some (state, iter)
          if !rv.continues then some (true, state, context)
          else foreachLoop fuel state (awsHashIterNext state iter) context

def awsHashTableForeach (state : State K V) (context : X) : Option (Bool × State K V × X) :=
  foreachLoop c callback (state.size + 1) state (awsHashIterBegin state) context

def foreachEntry : X → List (Entry K V) → Bool × X × List (Entry K V)
  | context, [] => (true, context, [])
  | context, e :: es =>
      let (context, rv) := callback context e.element
      let kept := if rv.deletes then [] else [e]
      if rv.fails then (false, context, e :: es)
      else if !rv.continues then (true, context, kept ++ es)
      else
        let (success, context, left) := foreachEntry context es
        (success, context, kept ++ left)

end Iterators

section Walk

variable {state : State K V} {iter : Iter K V}

def ahead (state : State K V) (start limit : Nat) : List (Entry K V) :=
  (window (ring state.slots) start (limit - start)).reduceOption

theorem place_ring_lt {i : Nat} (hi : i < state.slots.length) :
    place (ring state.slots) i = occupied (slotAt state.slots i) := by
  rw [place_ring, Nat.mod_eq_of_lt hi]

theorem find_next {start len : Nat} (hlen : start + len ≤ state.slots.length) :
    ((List.range' start len).find? (fun i => (slotAt state.slots i).hashCode != 0) = none ∧
      (window (ring state.slots) start len).reduceOption = []) ∨
      ∃ i, start ≤ i ∧ i < start + len ∧
        (List.range' start len).find? (fun i => (slotAt state.slots i).hashCode != 0) = some i ∧
        (slotAt state.slots i).hashCode ≠ 0 ∧
        (window (ring state.slots) start len).reduceOption =
          slotAt state.slots i :: (window (ring state.slots) (i + 1) (start + len - (i + 1))).reduceOption := by
  induction len generalizing start with
  | zero => exact Or.inl ⟨rfl, rfl⟩
  | succ len ih =>
      rw [window_succ, place_ring_lt (by omega), List.range'_succ, List.find?_cons]
      by_cases hzero : (slotAt state.slots start).hashCode = 0
      · have hskip : ((slotAt state.slots start).hashCode != 0) = false := by rw [hzero]; rfl
        rw [hskip, occupied, if_pos hzero, List.reduceOption_cons_of_none]
        dsimp only
        have hbound : start + 1 + len ≤ state.slots.length := by omega
        rcases ih hbound with ⟨hfind, hnone⟩ | ⟨i, hi, hlt, hfind, hne, hrest⟩
        · exact Or.inl ⟨hfind, hnone⟩
        · refine Or.inr ⟨i, by omega, by omega, hfind, hne, ?_⟩
          rw [hrest, show start + 1 + len = start + (len + 1) by omega]
      · have hstop : ((slotAt state.slots start).hashCode != 0) = true := bne_iff_ne.mpr hzero
        rw [hstop, occupied_of_ne hzero]
        refine Or.inr ⟨start, Nat.le_refl _, by omega, rfl, hzero, ?_⟩
        rw [show start + (len + 1) - (start + 1) = len by omega]
        rfl

theorem getNextElement_cases {start : Nat} (hstart : start ≤ iter.limit) (hlimit : iter.limit ≤ state.slots.length) :
    (awsHashIterDone (getNextElement state iter start) = true ∧ ahead state start iter.limit = []) ∨
      ∃ i, i < iter.limit ∧ (slotAt state.slots i).hashCode ≠ 0 ∧
        awsHashIterDone (getNextElement state iter start) = false ∧
        getNextElement state iter start = ⟨(slotAt state.slots i).element, i, iter.limit, .readyForUse⟩ ∧
        ahead state start iter.limit = slotAt state.slots i :: ahead state (i + 1) iter.limit := by
  rw [getNextElement, ahead]
  have hbound : start + (iter.limit - start) ≤ state.slots.length := by omega
  rcases find_next hbound with ⟨hfind, hnone⟩ | ⟨i, hi, hlt, hfind, hne, hrest⟩
  · rw [hfind]
    exact Or.inl ⟨beq_self_eq_true _, hnone⟩
  · rw [hfind]
    refine Or.inr ⟨i, by omega, hne, ?_, rfl, ?_⟩
    · exact beq_eq_false_iff_ne.mpr (by dsimp only; omega)
    · rw [hrest, ahead, show start + (iter.limit - start) = iter.limit by omega]

variable [DecidableEq K] {c : Callbacks K V}

/-- After a delete, what is ahead of the slot is what was ahead of the next one. -/
theorem Removed.ahead {r k limit : Nat} {e : Entry K V} {slots : List (Entry K V)} (h : Removed c state r e k slots)
    (hlen : state.slots.length = state.size) (hr : r < limit) (hlimit : limit ≤ state.size) :
    HashTable.ahead { state with entryCount := state.entryCount - 1, slots := slots } r
        (if (r + k) % state.size < r ∨ (r + k) % state.size ≥ limit then limit - 1 else limit) =
      HashTable.ahead state (r + 1) limit := by
  have hwithin := h.moved.within
  rw [length_ring, hlen] at hwithin
  have hlt : limit - (r + 1) < (ring state.slots).length := by
    rw [length_ring, hlen]
    omega
  have hentries := h.moved.window_entries hlt
  rw [HashTable.ahead, HashTable.ahead, ← hentries]
  have hcond : ((r + k) % state.size < r ∨ (r + k) % state.size ≥ limit) ↔ limit - (r + 1) < k := by
    rcases Nat.lt_or_ge (r + k) state.size with hlt | hge
    · rw [Nat.mod_eq_of_lt hlt]
      omega
    · rw [Nat.mod_eq_sub_mod hge, Nat.mod_eq_of_lt (by omega)]
      omega
  by_cases hk : limit - (r + 1) < k
  · rw [if_pos (hcond.mpr hk), if_pos hk, show limit - 1 - r = limit - (r + 1) by omega]
  · rw [if_neg (hcond.not.mpr hk), if_neg hk, show limit - r = limit - (r + 1) + 1 by omega]

theorem awsHashIterDelete_spec (hc : Lawful c) (hv : Valid c state) (iter : Iter K V) {e : Entry K V}
    (hslot : slotAt state.slots iter.slot = e) (hne : e.hashCode ≠ 0) (hlt : iter.slot < iter.limit)
    (hlimit : iter.limit ≤ state.size) :
    ∃ state' iter', awsHashIterDelete c state iter false = some (state', iter', []) ∧ Valid c state' ∧
      (e :: entries state').Perm (entries state) ∧ (iter'.slot + 1) % 2 ^ 64 = iter.slot ∧
      iter.slot ≤ iter'.limit ∧ iter'.limit ≤ state'.size ∧ state'.size = state.size ∧
      HashTable.ahead state' iter.slot iter'.limit = HashTable.ahead state (iter.slot + 1) iter.limit := by
  have hfits := hv.fits
  obtain ⟨slots, k, hremove, hdone⟩ := removeEntry_spec hc hv (show iter.slot < state.size by omega) hslot hne
  have hback : (sub64 iter.slot 1 + 1) % 2 ^ 64 = iter.slot := by
    rw [sub64]
    omega
  have hdelete : awsHashIterDelete c state iter false =
      some ({ state with entryCount := state.entryCount - 1, slots := slots },
        ⟨iter.element, sub64 iter.slot 1,
          if (iter.slot + k) % state.size < iter.slot ∨ (iter.slot + k) % state.size ≥ iter.limit then iter.limit - 1
          else iter.limit, .deleteCalled⟩, []) := by
    rw [awsHashIterDelete, hremove, Option.bind_eq_bind, Option.bind_some, if_neg Bool.false_ne_true]
    rfl
  refine ⟨_, _, hdelete, hdone.valid, hdone.rest, hback, ?_, ?_, rfl, hdone.ahead hv.length hlt hlimit⟩
  · dsimp only
    split
    · omega
    · omega
  · dsimp only
    split
    · omega
    · exact hlimit

variable {X : Type} {callback : X → Element K V → X × Verdict}

theorem foreachLoop_spec (hc : Lawful c) (fuel : Nat) (hv : Valid c state) (iter : Iter K V) {start : Nat}
    (others : List (Entry K V)) (hstart : start ≤ iter.limit) (hlimit : iter.limit ≤ state.size)
    (hall : (ahead state start iter.limit ++ others).Perm (entries state))
    (hfuel : (ahead state start iter.limit).length < fuel) (context : X) :
    ∃ success state' context' left,
      foreachLoop c callback fuel state (getNextElement state iter start) context = some (success, state', context') ∧
      foreachEntry callback context (ahead state start iter.limit) = (success, context', left) ∧
      Valid c state' ∧ (left ++ others).Perm (entries state') := by
  induction fuel generalizing state iter start others context with
  | zero => exact absurd hfuel (Nat.not_lt_zero _)
  | succ fuel ih =>
      have hlen : iter.limit ≤ state.slots.length := by rwa [hv.length]
      rw [foreachLoop]
      rcases getNextElement_cases hstart hlen with ⟨hdone, hnone⟩ | ⟨i, hi, hne, hdone, hnext, hahead⟩
      · rw [hnone] at hall ⊢
        rw [hdone, if_pos rfl]
        exact ⟨true, state, context, [], rfl, rfl, hv, hall⟩
      · rw [hahead] at hall hfuel ⊢
        have hslot : i < state.size := by omega
        have hfits := hv.fits
        rw [hdone, if_neg Bool.false_ne_true, hnext, foreachEntry]
        dsimp only
        rcases callback context (slotAt state.slots i).element with ⟨context', rv⟩
        dsimp only
        by_cases hfails : rv.fails = true
        · rw [if_pos hfails, if_pos hfails]
          exact ⟨false, state, context', _, rfl, rfl, hv, hall⟩
        · rw [if_neg hfails, if_neg hfails]
          by_cases hdeletes : rv.deletes = true
          · obtain ⟨state₁, iter₁, hdelete, hv₁, hperm, hback, hstart₁, hlimit₁, hsize₁, hahead₁⟩ :=
              awsHashIterDelete_spec hc hv ⟨(slotAt state.slots i).element, i, iter.limit,
                .readyForUse⟩ rfl hne hi hlimit
            dsimp only at hback hstart₁ hahead₁
            have hall₁ : (ahead state (i + 1) iter.limit ++ others).Perm (entries state₁) :=
              (hall.trans hperm.symm).cons_inv
            rw [if_pos hdeletes, if_pos hdeletes, hdelete, Option.map_some, Option.bind_eq_bind, Option.bind_some]
            dsimp only
            by_cases hcontinues : (!rv.continues) = true
            · rw [if_pos hcontinues, if_pos hcontinues]
              exact ⟨true, state₁, context', _, rfl, rfl, hv₁, hall₁⟩
            · rw [if_neg hcontinues, if_neg hcontinues, awsHashIterNext, hback]
              rw [← hahead₁] at hall₁ ⊢
              exact ih hv₁ iter₁ others hstart₁ hlimit₁ hall₁ (by rw [hahead₁]; simpa using hfuel) context'
          · have hall₁ : (ahead state (i + 1) iter.limit ++ (slotAt state.slots i :: others)).Perm (entries state) :=
              List.perm_middle.trans hall
            rw [if_neg hdeletes, if_neg hdeletes, Option.bind_eq_bind, Option.bind_some]
            dsimp only
            by_cases hcontinues : (!rv.continues) = true
            · rw [if_pos hcontinues, if_pos hcontinues]
              exact ⟨true, state, context', _, rfl, rfl, hv, hall⟩
            · have hslot' : i + 1 < 2 ^ 64 := by omega
              obtain ⟨success, state', context'', left, hloop, hplain, hv', hperm⟩ :=
                ih hv ⟨(slotAt state.slots i).element, i, iter.limit, .readyForUse⟩ _ hi hlimit hall₁
                  (by simpa using hfuel) context'
              rw [if_neg hcontinues, if_neg hcontinues, awsHashIterNext, Nat.mod_eq_of_lt hslot']
              refine ⟨success, state', context'', slotAt state.slots i :: left, hloop, ?_, hv',
                List.perm_middle.symm.trans hperm⟩
              rw [hplain]
              rfl

/-- A walk goes through the entries in the order of their slots, each once, whatever the callback has deleted of
them. -/
theorem awsHashTableForeach_eq (hc : Lawful c) (hv : Valid c state) (context : X) :
    ∃ success state' context' left,
      awsHashTableForeach c callback state context = some (success, state', context') ∧
      foreachEntry callback context (entries state) = (success, context', left) ∧ Valid c state' ∧
      left.Perm (entries state') := by
  have hall : ahead state 0 state.size = entries state := by
    have hwindow := window_all (ring state.slots)
    rw [hv.ring_length] at hwindow
    rw [ahead, Nat.sub_zero, hwindow, entries]
  have hcount : (entries state).length < state.size + 1 := by
    have hgap := hv.gap
    rw [hv.ring_length] at hgap
    exact hgap.trans (Nat.lt_succ_self _)
  rw [awsHashTableForeach, awsHashIterBegin, ← hall]
  obtain ⟨success, state', context', left, hloop, hplain, hv', hperm⟩ :=
    foreachLoop_spec hc (state.size + 1) hv ⟨⟨none, none⟩, 0, state.size, .done⟩ [] (Nat.zero_le _) (Nat.le_refl _)
      (by rw [List.append_nil, hall]) (by rwa [hall]) context
  rw [List.append_nil] at hperm
  exact ⟨success, state', context', left, hloop, hplain, hv', hperm⟩

end Walk

section Equality

variable [DecidableEq K] [DecidableEq V]

def eqLoop (cb : Callbacks K V) (b : State K V) (valueEq : V → V → Bool) : List (Entry K V) → Option Bool
  | [] => some true
  | aEntry :: slots =>
      if aEntry.hashCode = 0 then eqLoop cb b valueEq slots
      else do
        match ← awsHashTableFind cb b aEntry.element.key with
        | none => some false
        | some bElement =>
            if safeEqCheck valueEq aEntry.element.value bElement.value then eqLoop cb b valueEq slots else some false

/-- The callbacks are those of the second table; the ones of the first are not called. -/
def awsHashTableEq (cb : Callbacks K V) (a b : State K V) (valueEq : V → V → Bool) : Option Bool :=
  if a.entryCount ≠ b.entryCount then some false else eqLoop cb b valueEq a.slots

def Agree (valueEq : V → V → Bool) (m m' : Option K → Option (Element K V)) : Prop :=
  ∀ key, Option.Rel (fun x y => safeEqCheck valueEq x.value y.value = true) (m key) (m' key)

variable {ca cb : Callbacks K V} {a b : State K V} {valueEq : V → V → Bool}

def Matched (cb : Callbacks K V) (b : State K V) (valueEq : V → V → Bool) (e : Entry K V) : Prop :=
  ∃ x, contents cb b e.element.key = some x ∧ safeEqCheck valueEq e.element.value x.value = true

theorem eqLoop_spec (hcb : Lawful cb) (hb : Valid cb b) (slots : List (Entry K V)) :
    ∃ r, eqLoop cb b valueEq slots = some r ∧
      (r = true ↔ ∀ e ∈ (ring slots).reduceOption, Matched cb b valueEq e) := by
  induction slots with
  | nil => exact ⟨true, rfl, iff_of_true rfl (fun e he => by cases he)⟩
  | cons e slots ih =>
      obtain ⟨r, hloop, hr⟩ := ih
      rw [eqLoop]
      by_cases hzero : e.hashCode = 0
      · rw [if_pos hzero, entries_cons_zero hzero]
        exact ⟨r, hloop, hr⟩
      · rw [if_neg hzero, entries_cons_some hzero, awsHashTableFind_eq hcb hb]
        simp only [List.forall_mem_cons]
        cases hx : contents cb b e.element.key with
        | none =>
            refine ⟨false, rfl, iff_of_false Bool.false_ne_true ?_⟩
            rintro ⟨⟨x, hsome, _⟩, _⟩
            rw [hx] at hsome
            cases hsome
        | some x =>
            rw [Option.bind_eq_bind, Option.bind_some]
            dsimp only
            by_cases hvalue : safeEqCheck valueEq e.element.value x.value = true
            · rw [if_pos hvalue]
              exact ⟨r, hloop, hr.trans (and_iff_right ⟨x, hx, hvalue⟩).symm⟩
            · rw [if_neg hvalue]
              refine ⟨false, rfl, iff_of_false Bool.false_ne_true ?_⟩
              rintro ⟨⟨y, hsome, hy⟩, _⟩
              rw [hx] at hsome
              obtain rfl := Option.some.inj hsome
              exact hvalue hy

theorem awsHashTableEq_iff (hca : Lawful ca) (hcb : Lawful cb) (ha : Valid ca a) (hb : Valid cb b)
    (hkeys : ca.equalsFn = cb.equalsFn) :
    ∃ r, awsHashTableEq cb a b valueEq = some r ∧ (r = true ↔ Agree valueEq (contents ca a) (contents cb b)) := by
  have hsepa : Separate (safeEqCheck cb.equalsFn) (fun e : Entry K V => e.element.key) (entries a) :=
    hkeys ▸ ha.separate
  have hmatched (hagree : Agree valueEq (contents ca a) (contents cb b)) : ∀ e ∈ entries a, Matched cb b valueEq e := by
    intro e he
    have hx := (contents_eq_some hca ha).mpr ⟨e, he, safeEqCheck_refl _ _, rfl⟩
    have hrel := hagree e.element.key
    rw [hx] at hrel
    cases hy : contents cb b e.element.key with
    | none =>
        rw [hy] at hrel
        cases hrel
    | some y =>
        rw [hy] at hrel
        cases hrel with
        | some hvalue => exact ⟨y, hy, hvalue⟩
  have hcover (hall : ∀ e ∈ entries a, Matched cb b valueEq e) : ∀ e ∈ entries a,
      (lookup (safeEqCheck cb.equalsFn) (fun e : Entry K V => e.element.key) (entries b) e.element.key).isSome := by
    intro e he
    obtain ⟨x, hx, _⟩ := hall e he
    rw [contents, Option.map_eq_some_iff] at hx
    obtain ⟨y, hy, _⟩ := hx
    exact Option.isSome_of_eq_some hy
  have hcounts := ha.count
  have hcountb := hb.count
  by_cases hcount : a.entryCount = b.entryCount
  · obtain ⟨r, hloop, hr⟩ := eqLoop_spec hcb hb a.slots
    rw [awsHashTableEq, if_neg (not_not.mpr hcount)]
    refine ⟨r, hloop, hr.trans ⟨fun hall key => ?_, hmatched⟩⟩
    cases hx : contents ca a key with
    | some x =>
        obtain ⟨e, he, hsame, rfl⟩ := (contents_eq_some hca ha).mp hx
        obtain ⟨y, hy, hvalue⟩ := hall e he
        rw [hkeys] at hsame
        rw [contents_congr hcb hsame, hy]
        exact Option.Rel.some hvalue
    | none =>
        cases hy : contents cb b key with
        | none => exact Option.Rel.none
        | some y =>
            obtain ⟨w, hw, hsame, rfl⟩ := (contents_eq_some hcb hb).mp hy
            have hback := (covered_back hcb.equivalence hsepa hb.separate (hcover hall)).2 (by omega) w hw
            rw [← hkeys] at hsame hback
            rw [contents, Option.map_eq_none_iff, entryOf, lookup_congr hca.equivalence hsame] at hx
            rw [hx] at hback
            cases hback
  · rw [awsHashTableEq, if_pos hcount]
    refine ⟨false, rfl, iff_of_false Bool.false_ne_true fun hagree => hcount ?_⟩
    have hcover' : ∀ w ∈ entries b,
        (lookup (safeEqCheck cb.equalsFn) (fun e : Entry K V => e.element.key) (entries a) w.element.key).isSome := by
      intro w hw
      have hy := (contents_eq_some hcb hb).mpr ⟨w, hw, safeEqCheck_refl _ _, rfl⟩
      have hrel := hagree w.element.key
      rw [hy] at hrel
      cases hx : contents ca a w.element.key with
      | none =>
          rw [hx] at hrel
          cases hrel
      | some x =>
          rw [contents, Option.map_eq_some_iff, entryOf, hkeys] at hx
          obtain ⟨e, he, _⟩ := hx
          exact Option.isSome_of_eq_some he
    have hle := (covered_back hcb.equivalence hsepa hb.separate (hcover (hmatched hagree))).1
    have hge := (covered_back hcb.equivalence hb.separate hsepa hcover').1
    omega

end Equality

section Results

variable [DecidableEq K] {c : Callbacks K V} {state state' : State K V} {size : Nat}

/-- A walk over a table that a run has made goes through its entries in the order of their slots, each once,
whatever the callback deletes of them, and leaves exactly the others. -/
theorem walk_of_run {X : Type} (callback : X → Element K V → X × Verdict) (hc : Lawful c)
    (hinit : awsHashTableInit size = some state) {ops : List (Op K V)} {log : List (Answer K V × Account K V)}
    (hexec : exec c state ops = some (state', log)) (context : X) :
    ∃ success state'' context' left,
      awsHashTableForeach c callback state' context = some (success, state'', context') ∧
      foreachEntry callback context (entries state') = (success, context', left) ∧
      left.Perm (entries state'') ∧ hashTableStateIsValid state'' = true ∧
      state''.entryCount = left.length := by
  obtain ⟨success, state'', context', left, hwalk, hplain, hv, hperm⟩ :=
    awsHashTableForeach_eq hc (exec_valid hc hinit hexec) context
  exact ⟨success, state'', context', left, hwalk, hplain, hperm, hv.isValid, hv.count.trans hperm.length_eq.symm⟩

def dropOdd (seen : List (Option Nat)) (element : Element Nat Nat) : List (Option Nat) × Verdict :=
  (seen ++ [element.key], ⟨element.key.any (fun n => n % 2 = 0) == false, true, false⟩)

theorem walk_of_run_numbers :
    ∃ success state'' context' left,
      awsHashTableForeach numbers dropOdd numbersRun.1 [] = some (success, state'', context') ∧
      foreachEntry dropOdd [] (entries numbersRun.1) = (success, context', left) ∧
      left.Perm (entries state'') ∧ hashTableStateIsValid state'' = true ∧ state''.entryCount = left.length :=
  walk_of_run dropOdd numbers_lawful (show awsHashTableInit 2 = some numbersTable from rfl)
    (show exec numbers numbersTable numbersOps = some (numbersRun.1, numbersRun.2) from rfl) []

/-- For tables that runs have made with one notion of equal keys, whatever their hash functions and sizes, the
comparison decides whether they map the same keys to equal values. -/
theorem eq_of_runs [DecidableEq V] {ca cb : Callbacks K V} {a a' b b' : State K V} {sizeA sizeB : Nat}
    (hca : Lawful ca) (hcb : Lawful cb) (hkeys : ca.equalsFn = cb.equalsFn) (ha : awsHashTableInit sizeA = some a)
    (hb : awsHashTableInit sizeB = some b) {opsA opsB : List (Op K V)} {logA logB : List (Answer K V × Account K V)}
    (hexecA : exec ca a opsA = some (a', logA)) (hexecB : exec cb b opsB = some (b', logB))
    (valueEq : V → V → Bool) :
    ∃ r, awsHashTableEq cb a' b' valueEq = some r ∧ (r = true ↔ Agree valueEq (contents ca a') (contents cb b')) :=
  awsHashTableEq_iff hca hcb (exec_valid hca ha hexecA) (exec_valid hcb hb hexecB) hkeys

theorem eq_of_runs_numbers :
    ∃ r, awsHashTableEq numbers numbersTable numbersRun.1 (fun x y => x == y) = some r ∧
      (r = true ↔ Agree (fun x y => x == y) (contents numbers numbersTable) (contents numbers numbersRun.1)) :=
  eq_of_runs numbers_lawful numbers_lawful rfl (show awsHashTableInit 2 = some numbersTable from rfl)
    (show awsHashTableInit 2 = some numbersTable from rfl) (show exec numbers numbersTable [] = some _ from rfl)
    (show exec numbers numbersTable numbersOps = some (numbersRun.1, numbersRun.2) from rfl) (fun x y => x == y)

end Results

end OneSdk.HashTable
