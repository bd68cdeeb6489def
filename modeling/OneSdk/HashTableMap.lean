import Mathlib.Data.Multiset.AddSub
import OneSdk.HashTableOps

namespace OneSdk.HashTable

open ProbeRing KeyClasses

variable {K V : Type}

inductive Op (K V : Type)
  | put (key : Option K) (value : Option V)
  | find (key : Option K)
  | remove (key : Option K) (takes : Bool)
  | clear

inductive Answer (K V : Type)
  | failed
  | put (wasCreated : Bool)
  | found (element : Option (Element K V))
  | removed (element : Option (Element K V))
  | cleared

section Run

variable [DecidableEq K] (c : Callbacks K V)

def step (state : State K V) : Op K V → Option (State K V × Answer K V × List (Item K V))
  | .put key value => do
      match ← awsHashTablePut c state key value with
      | .error _ => pure (state, .failed, [])
      | .ok (state, wasCreated, destroyed) => pure (state, .put wasCreated, destroyed)
  | .find key => do
      let element ← awsHashTableFind c state key
      pure (state, .found element, [])
  | .remove key takes => do
      let (state, element, destroyed) ← awsHashTableRemove c state key takes
      pure (state, .removed element, destroyed)
  | .clear =>
      let (state, destroyed) := awsHashTableClear c state
      some (state, .cleared, destroyed)

/-- What a step has handed to the table and what it has handed out. -/
structure Account (K V : Type) where
  taken : List (Item K V)
  given : List (Item K V)
  destroyed : List (Item K V)

def itemsOf (element : Element K V) : List (Item K V) := [.key element.key, .value element.value]

/-- A key that the table already has, the same pointer, is not handed over again. -/
def taken (state : State K V) : Op K V → Answer K V → List (Item K V)
  | .put key value, .put _ =>
      if (entryOf c state key).map (fun e => e.element.key) = some key then [.value value] else itemsOf ⟨key, value⟩
  | _, _ => []

def given : Op K V → Answer K V → List (Item K V)
  | .remove _ true, .removed (some element) => itemsOf element
  | _, _ => []

def exec (state : State K V) : List (Op K V) → Option (State K V × List (Answer K V × Account K V))
  | [] => some (state, [])
  | op :: ops => do
      let (state', answer, destroyed) ← step c state op
      let (final, log) ← exec state' ops
      pure (final, (answer, ⟨taken c state op answer, given op answer, destroyed⟩) :: log)

end Run

section Spec

variable (same : Option K → Option K → Bool)

/-- What a map does: a put that fails has met a key that is not there. -/
def MapStep (m : Option K → Option (Element K V)) :
    Op K V → Answer K V → (Option K → Option (Element K V)) → Prop
  | .put key _, .failed, m' => m key = none ∧ m' = m
  | .put key value, .put wasCreated, m' => wasCreated = (m key).isNone ∧ m' = assign same key (some ⟨key, value⟩) m
  | .find key, .found element, m' => element = m key ∧ m' = m
  | .remove key _, .removed element, m' => element = m key ∧ m' = assign same key none m
  | .clear, .cleared, m' => m' = fun _ => none
  | _, _, _ => False

def MapRun (m : Option K → Option (Element K V)) :
    List (Op K V) → List (Answer K V) → (Option K → Option (Element K V)) → Prop
  | [], [], m' => m' = m
  | op :: ops, answer :: answers, m' => ∃ m₁, MapStep same m op answer m₁ ∧ MapRun m₁ ops answers m'
  | _, _, _ => False

end Spec

section Items

variable (c : Callbacks K V)

def destroys : Item K V → Bool
  | .key _ => c.destroyKeyFn
  | .value _ => c.destroyValueFn

def itemsIn (es : List (Entry K V)) : List (Item K V) := es.flatMap (fun e => itemsOf e.element)

def items (state : State K V) : List (Item K V) := itemsIn (entries state)

variable {c} {es es' : List (Entry K V)} {e : Entry K V}

theorem destroyKey_eq (key : Option K) : destroyKey c key = [Item.key key].filter (destroys c) := by
  rw [destroyKey, List.filter_cons, List.filter_nil]
  rfl

theorem destroyValue_eq (value : Option V) : destroyValue c value = [Item.value value].filter (destroys c) := by
  rw [destroyValue, List.filter_cons, List.filter_nil]
  rfl

theorem destroyBoth_eq (element : Element K V) :
    destroyKey c element.key ++ destroyValue c element.value = (itemsOf element).filter (destroys c) := by
  rw [destroyKey_eq, destroyValue_eq, ← List.filter_append]
  rfl

theorem itemsIn_cons (e : Entry K V) (es : List (Entry K V)) : itemsIn (e :: es) = itemsOf e.element ++ itemsIn es :=
  List.flatMap_cons

theorem itemsIn_append (es es' : List (Entry K V)) : itemsIn (es ++ es') = itemsIn es ++ itemsIn es' :=
  List.flatMap_append

theorem itemsIn_perm (h : es.Perm es') : (itemsIn es).Perm (itemsIn es') := h.flatMap_right _

theorem clearCalls_eq (c : Callbacks K V) (state : State K V) :
    clearCalls c state = (items state).filter (destroys c) := by
  have hall : ∀ slots : List (Entry K V), slots.flatMap (fun entry =>
      if entry.hashCode = 0 then [] else destroyKey c entry.element.key ++ destroyValue c entry.element.value) =
        (itemsIn (ring slots).reduceOption).filter (destroys c) := by
    intro slots
    induction slots with
    | nil => rfl
    | cons e slots ih =>
        rw [List.flatMap_cons, ih]
        by_cases hzero : e.hashCode = 0
        · rw [if_pos hzero, entries_cons_zero hzero]
          rfl
        · rw [if_neg hzero, entries_cons_some hzero, itemsIn_cons, List.filter_append, destroyBoth_eq]
  rw [clearCalls, hall, items]
  split
  · rfl
  · next hno =>
      rw [Bool.or_eq_true, not_or, Bool.not_eq_true, Bool.not_eq_true] at hno
      refine (List.filter_eq_nil_iff.mpr fun item _ => ?_).symm
      cases item with
      | key k => rw [destroys, hno.1]; exact Bool.false_ne_true
      | value v => rw [destroys, hno.2]; exact Bool.false_ne_true

end Items

section Steps

variable [DecidableEq K] {c : Callbacks K V} {state state' : State K V} {key : Option K}

theorem lookup_entryOf (hc : Lawful c) (hv : Valid c state) {old : Option (Entry K V)} {rest : List (Entry K V)}
    (hperm : (old.toList ++ rest).Perm (entries state))
    (hold : ∀ e ∈ old, safeEqCheck c.equalsFn key e.element.key = true)
    (habsent : lookup (safeEqCheck c.equalsFn) (fun e : Entry K V => e.element.key) rest key = none) :
    entryOf c state = assign (safeEqCheck c.equalsFn) key old
      (lookup (safeEqCheck c.equalsFn) (fun e : Entry K V => e.element.key) rest) := by
  funext k
  rw [entryOf, ← lookup_replaced hc.equivalence hold habsent,
    lookup_perm hc.equivalence (hv.separate.perm hc.equivalence hperm.symm) hperm]

theorem Replaced.contents {new : Option (Entry K V)} {rest : List (Entry K V)}
    (h : Replaced c state state' key new rest) (hc : Lawful c) (hv : Valid c state) (hv' : Valid c state')
    (hnew : ∀ e ∈ new, safeEqCheck c.equalsFn key e.element.key = true) :
    contents c state' = assign (safeEqCheck c.equalsFn) key (new.map Entry.element) (contents c state) := by
  have hold : ∀ e ∈ entryOf c state key, safeEqCheck c.equalsFn key e.element.key = true := fun e he =>
    ((entryOf_eq_some hc hv).mp he).2
  have hbefore := lookup_entryOf hc hv h.before hold h.absent
  have hafter := lookup_entryOf hc hv' h.after hnew h.absent
  funext k
  rw [HashTable.contents, hafter, map_assign, ← assign_assign _ ((entryOf c state key).map Entry.element)]
  congr 1
  funext k'
  rw [HashTable.contents, congrFun hbefore k', map_assign]

theorem contents_isNone (key : Option K) : (contents c state key).isNone = (entryOf c state key).isNone := by
  rw [contents, Option.isNone_map]

theorem contents_of_empty (h : entries state = []) : contents c state = fun _ => none := by
  funext key
  rw [contents, entryOf, h]
  rfl

theorem contents_eq_some (hc : Lawful c) (hv : Valid c state) {x : Element K V} :
    contents c state key = some x ↔
      ∃ e ∈ entries state, safeEqCheck c.equalsFn key e.element.key = true ∧ e.element = x := by
  rw [contents, Option.map_eq_some_iff]
  constructor
  · rintro ⟨e, he, rfl⟩
    obtain ⟨hmem, hsame⟩ := (entryOf_eq_some hc hv).mp he
    exact ⟨e, hmem, hsame, rfl⟩
  · rintro ⟨e, hmem, hsame, rfl⟩
    exact ⟨e, (entryOf_eq_some hc hv).mpr ⟨hmem, hsame⟩, rfl⟩

theorem contents_congr (hc : Lawful c) {key' : Option K} (h : safeEqCheck c.equalsFn key key' = true) :
    contents c state key = contents c state key' := by
  rw [contents, contents, entryOf, entryOf, lookup_congr hc.equivalence h]

structure Stepped (c : Callbacks K V) (state : State K V) (op : Op K V) (state' : State K V) (answer : Answer K V)
    (destroyed : List (Item K V)) : Prop where
  valid : Valid c state'
  map : MapStep (safeEqCheck c.equalsFn) (contents c state) op answer (contents c state')
  dropped : ∃ dropped, (items state ++ taken c state op answer).Perm (dropped ++ given op answer ++ items state') ∧
    destroyed = dropped.filter (destroys c)

theorem perm_accounts {α : Type} {a t d g b t' d' g' e : List α} (h : (a ++ t).Perm (d ++ g ++ b))
    (h' : (b ++ t').Perm (d' ++ g' ++ e)) : (a ++ (t ++ t')).Perm (d ++ d' ++ (g ++ g') ++ e) := by
  rw [← Multiset.coe_eq_coe] at h h' ⊢
  simp only [← Multiset.coe_add] at h h' ⊢
  calc (a + (t + t') : Multiset α) = a + t + t' := (Multiset.add_assoc _ _ _).symm
    _ = d + g + (b + t') := by rw [h, Multiset.add_assoc]
    _ = d + d' + (g + g') + e := by
      rw [h', Multiset.add_assoc, Multiset.add_assoc, Multiset.add_assoc, Multiset.add_assoc, Multiset.add_assoc,
        ← Multiset.add_assoc (g : Multiset α), Multiset.add_comm (g : Multiset α), Multiset.add_assoc]

theorem perm_same_left {α : Type} {a b d e x : List α} (hb : b.Perm (a ++ x)) (he : e.Perm (d ++ x))
    {y z : List α} (h : (a ++ y).Perm (z ++ d)) : (b ++ y).Perm (z ++ e) :=
  calc (b ++ y).Perm (a ++ x ++ y) := hb.append_right y
    _ = a ++ (x ++ y) := List.append_assoc a x y
    _ |>.Perm (a ++ (y ++ x)) := List.perm_append_comm.append_left a
    _ = a ++ y ++ x := (List.append_assoc a y x).symm
    _ |>.Perm (z ++ d ++ x) := h.append_right x
    _ = z ++ (d ++ x) := List.append_assoc z d x
    _ |>.Perm (z ++ e) := he.symm.append_left z

theorem put_stepped (hc : Lawful c) (hv : Valid c state) (key : Option K) (value : Option V) :
    ∃ state' answer destroyed, step c state (.put key value) = some (state', answer, destroyed) ∧
      Stepped c state (.put key value) state' answer destroyed := by
  rw [step]
  rcases awsHashTablePut_cases hc hv key value with ⟨hput, hnone, _⟩ | ⟨state', rest, hput, hv', hreplaced⟩
  · refine ⟨state, .failed, [], by rw [hput]; rfl, hv, ⟨by rw [contents, hnone]; rfl, rfl⟩, [], ?_, rfl⟩
    exact List.Perm.of_eq (List.append_nil _)
  · have hmap := hreplaced.contents hc hv hv' (by rintro _ ⟨⟩; exact safeEqCheck_refl _ _)
    refine ⟨state', .put (entryOf c state key).isNone, _, by rw [hput]; rfl, hv',
      ⟨(contents_isNone key).symm, hmap⟩, ?_⟩
    have hbefore := itemsIn_perm hreplaced.before.symm
    have hafter := itemsIn_perm hreplaced.after.symm
    rw [itemsIn_append] at hbefore hafter
    rw [taken]
    cases hold : entryOf c state key with
    | none =>
        rw [hold] at hbefore
        exact ⟨[], perm_same_left hbefore hafter (List.Perm.refl _), rfl⟩
    | some old =>
        rw [hold] at hbefore
        by_cases hsame : old.element.key = key
        · refine ⟨[.value old.element.value], ?_, ?_⟩
          · rw [if_pos (by rw [Option.map_some, hsame])]
            refine perm_same_left hbefore hafter ?_
            rw [← hsame]
            exact List.Perm.swap _ _ _
          · rw [replacedCalls, Option.elim_some, if_neg (not_not.mpr hsame), List.nil_append, destroyValue_eq]
        · refine ⟨itemsOf old.element, ?_, ?_⟩
          · rw [Option.map_some, if_neg (fun h => hsame (Option.some.inj h))]
            exact perm_same_left hbefore hafter (List.Perm.refl _)
          · rw [replacedCalls, Option.elim_some, if_pos hsame, destroyBoth_eq]

theorem remove_stepped (hc : Lawful c) (hv : Valid c state) (key : Option K) (takes : Bool) :
    ∃ state' answer destroyed, step c state (.remove key takes) = some (state', answer, destroyed) ∧
      Stepped c state (.remove key takes) state' answer destroyed := by
  obtain ⟨state', rest, hremove, hv', hreplaced⟩ := awsHashTableRemove_eq hc hv key takes
  have hmap := hreplaced.contents hc hv hv' (fun _ h => by cases h)
  refine ⟨state', .removed (contents c state key), _, by rw [step, hremove]; rfl, hv', ⟨rfl, hmap⟩, ?_⟩
  have hbefore := itemsIn_perm hreplaced.before.symm
  have hafter := itemsIn_perm hreplaced.after.symm
  rw [itemsIn_append] at hbefore hafter
  rw [contents]
  cases hold : entryOf c state key with
  | none =>
      rw [hold] at hbefore
      cases takes with
      | true => exact ⟨[], perm_same_left hbefore hafter (List.Perm.refl _), rfl⟩
      | false => exact ⟨[], perm_same_left hbefore hafter (List.Perm.refl _), rfl⟩
  | some old =>
      rw [hold] at hbefore
      cases takes with
      | true => exact ⟨[], perm_same_left hbefore hafter (List.Perm.refl _), rfl⟩
      | false =>
          refine ⟨itemsOf old.element, perm_same_left hbefore hafter (List.Perm.refl _), ?_⟩
          rw [removedCalls, Option.elim_some, if_neg Bool.false_ne_true, destroyBoth_eq]

theorem step_spec (hc : Lawful c) (hv : Valid c state) (op : Op K V) :
    ∃ state' answer destroyed, step c state op = some (state', answer, destroyed) ∧
      Stepped c state op state' answer destroyed := by
  cases op with
  | put key value => exact put_stepped hc hv key value
  | remove key takes => exact remove_stepped hc hv key takes
  | find key =>
      refine ⟨state, .found (contents c state key), [], ?_, hv, ⟨rfl, rfl⟩, [],
        List.Perm.of_eq (List.append_nil _), rfl⟩
      rw [step, awsHashTableFind_eq hc hv]
      rfl
  | clear =>
      obtain ⟨hv', hempty⟩ := awsHashTableClear_spec hv
      refine ⟨(awsHashTableClear c state).1, .cleared, _, rfl, hv', contents_of_empty hempty, items state, ?_,
        clearCalls_eq c state⟩
      have hnothing : items (awsHashTableClear c state).1 = [] := by
        rw [items, hempty]
        rfl
      rw [hnothing]
      exact List.Perm.of_eq (List.append_nil _).symm

/-- What the steps of a run have been handed, have handed out and have destroyed, all together. -/
structure Settlement (c : Callbacks K V) (state state' : State K V) (log : List (Answer K V × Account K V))
    (dropped : List (Item K V)) : Prop where
  balance : (items state ++ log.flatMap (fun a => a.2.taken)).Perm
    (dropped ++ log.flatMap (fun a => a.2.given) ++ items state')
  destroyed : log.flatMap (fun a => a.2.destroyed) = dropped.filter (destroys c)

theorem exec_spec (hc : Lawful c) (hv : Valid c state) (ops : List (Op K V)) :
    ∃ state' log dropped, exec c state ops = some (state', log) ∧ Valid c state' ∧
      MapRun (safeEqCheck c.equalsFn) (contents c state) ops (log.map Prod.fst) (contents c state') ∧
      Settlement c state state' log dropped := by
  induction ops generalizing state with
  | nil => exact ⟨state, [], [], rfl, hv, rfl, List.Perm.of_eq (List.append_nil _), rfl⟩
  | cons op ops ih =>
      obtain ⟨state₁, answer, destroyed, hstep, hstepped⟩ := step_spec hc hv op
      obtain ⟨dropped, hbalance, hdestroyed⟩ := hstepped.dropped
      obtain ⟨state', log, dropped', hexec, hv', hrun, hrest⟩ := ih hstepped.valid
      have hall : exec c state (op :: ops) =
          some (state', (answer, ⟨taken c state op answer, given op answer, destroyed⟩) :: log) := by
        rw [exec, hstep]
        dsimp only [Option.bind_eq_bind, Option.bind_some]
        rw [hexec]
        rfl
      have hboth : MapRun (safeEqCheck c.equalsFn) (contents c state) (op :: ops) (answer :: log.map Prod.fst)
          (contents c state') := ⟨_, hstepped.map, hrun⟩
      refine ⟨state', _, dropped ++ dropped', hall, hv', hboth, perm_accounts hbalance hrest.balance, ?_⟩
      rw [List.flatMap_cons, hdestroyed, hrest.destroyed, List.filter_append]

theorem items_length (hv : Valid c state) : (items state).length = state.entryCount * 2 := by
  have htwo : (entries state).map (fun e => (itemsOf e.element).length) = (entries state).map (fun _ => 2) := rfl
  rw [items, itemsIn, List.length_flatMap, hv.count, htwo, List.map_const', List.sum_replicate_nat]

theorem taken_length (state : State K V) (op : Op K V) (answer : Answer K V) :
    (taken c state op answer).length ≤ 2 := by
  rw [taken.eq_def]
  split
  · split <;> simp [itemsOf]
  · exact Nat.zero_le 2

theorem Stepped.count_le {op : Op K V} {answer : Answer K V} {destroyed : List (Item K V)} (hv : Valid c state)
    (h : Stepped c state op state' answer destroyed) : state'.entryCount ≤ state.entryCount + 1 := by
  obtain ⟨dropped, hbalance, -⟩ := h.dropped
  have hlength := hbalance.length_eq
  have htaken := taken_length (c := c) state op answer
  rw [List.length_append, List.length_append, items_length hv, items_length h.valid] at hlength
  omega

/-- A step fails at a full table of the largest size only. -/
theorem step_failed (hc : Lawful c) (hv : Valid c state) {op : Op K V} {destroyed : List (Item K V)}
    (hstep : step c state op = some (state', .failed, destroyed)) : state.entryCount = loadOf (2 ^ 59) := by
  cases op with
  | put key value =>
      rw [step] at hstep
      rcases awsHashTablePut_cases hc hv key value with ⟨-, -, hfull, hsize⟩ | ⟨_, _, hput, -⟩
      · rw [hfull, hv.load, hsize]
      · rw [hput] at hstep
        cases hstep
  | find key =>
      rw [step, awsHashTableFind_eq hc hv] at hstep
      cases hstep
  | remove key takes =>
      obtain ⟨_, _, hremove, -⟩ := awsHashTableRemove_eq hc hv key takes
      rw [step, hremove] at hstep
      cases hstep
  | clear => cases hstep

/-- A table with room for all the calls of a run fails none of them. -/
theorem exec_answered (hc : Lawful c) (hv : Valid c state) {ops : List (Op K V)} {log : List (Answer K V × Account K V)}
    (hroom : state.entryCount + ops.length ≤ loadOf (2 ^ 59)) (hexec : exec c state ops = some (state', log)) :
    ∀ a ∈ log, a.1 ≠ .failed := by
  induction ops generalizing state log with
  | nil =>
      cases hexec
      exact fun _ ha => absurd ha List.not_mem_nil
  | cons op ops ih =>
      obtain ⟨state₁, answer, destroyed, hstep, hstepped⟩ := step_spec hc hv op
      rw [exec, hstep, Option.bind_eq_bind, Option.bind_some] at hexec
      obtain ⟨⟨final, rest⟩, hrest, hpair⟩ := Option.bind_eq_some_iff.mp hexec
      cases hpair
      rw [List.length_cons] at hroom
      have hcount := hstepped.count_le hv
      intro a ha
      rcases List.mem_cons.mp ha with rfl | ha
      · rintro ⟨⟩
        have hfull := step_failed hc hv hstep
        omega
      · exact ih hstepped.valid (by omega) hrest a ha

end Steps

section Numbers

def numbers : Callbacks Nat Nat := ⟨fun n => if n % 2 = 0 then 0 else 1, fun a b => a == b, false, true⟩

theorem numbers_lawful : Lawful numbers where
  symm h := by
    rw [numbers, beq_iff_eq] at h ⊢
    exact h.symm
  trans hab hbd := by
    rw [numbers, beq_iff_eq] at hab hbd ⊢
    exact hab.trans hbd
  consistent h := by
    rw [numbers, beq_iff_eq] at h
    rw [h]

def numbersTable : State Nat Nat := ⟨2, 0, 1, 1, [Entry.zero, Entry.zero]⟩

/-- Three keys with one hash, for which the table grows; one of them gets another value and is taken out. -/
def numbersOps : List (Op Nat Nat) :=
  [.put (some 1) (some 10), .put (some 3) (some 30), .put (some 5) none, .put (some 3) (some 31),
    .remove (some 3) true, .find (some 5)]

def numbersRun : State Nat Nat × List (Answer Nat Nat × Account Nat Nat) :=
  (exec numbers numbersTable numbersOps).get rfl

end Numbers

section Results

variable [DecidableEq K] {c : Callbacks K V} {state state' : State K V} {size : Nat}

theorem init_valid (hinit : awsHashTableInit size = some state) : Valid c state ∧ entries state = [] := by
  rcases awsHashTableInit_cases c size with ⟨_, hnone⟩ | ⟨state', hsome, hv, hempty⟩
  · rw [hnone] at hinit
    cases hinit
  · rw [hsome] at hinit
    obtain rfl := Option.some.inj hinit
    exact ⟨hv, hempty⟩

theorem exec_valid (hc : Lawful c) (hinit : awsHashTableInit size = some state) {ops : List (Op K V)}
    {log : List (Answer K V × Account K V)} (hexec : exec c state ops = some (state', log)) : Valid c state' := by
  obtain ⟨state₁, log₁, _, hexec', hv, _⟩ := exec_spec hc (init_valid (c := c) hinit).1 ops
  rw [hexec'] at hexec
  obtain ⟨rfl, rfl⟩ := Prod.mk.inj (Option.some.inj hexec)
  exact hv

/-- Every run of calls comes to an end, and the table has answered as a map does. -/
theorem table_is_map (hc : Lawful c) (hinit : awsHashTableInit size = some state) (ops : List (Op K V)) :
    ∃ state' log, exec c state ops = some (state', log) ∧
      MapRun (safeEqCheck c.equalsFn) (fun _ => none) ops (log.map Prod.fst) (contents c state') ∧
      ∀ key, awsHashTableFind c state' key = some (contents c state' key) := by
  obtain ⟨hv, hempty⟩ := init_valid (c := c) hinit
  obtain ⟨state', log, _, hexec, hv', hrun, _⟩ := exec_spec hc hv ops
  rw [contents_of_empty hempty] at hrun
  exact ⟨state', log, hexec, hrun, awsHashTableFind_eq hc hv'⟩

theorem table_is_map_numbers :
    ∃ state' log, exec numbers numbersTable numbersOps = some (state', log) ∧
      MapRun (safeEqCheck numbers.equalsFn) (fun _ => none) numbersOps (log.map Prod.fst) (contents numbers state') ∧
      ∀ key, awsHashTableFind numbers state' key = some (contents numbers state' key) :=
  table_is_map numbers_lawful (show awsHashTableInit 2 = some numbersTable from rfl) numbersOps

/-- What has been handed over is either handed out again or destroyed, once, by the time the table is cleaned up. -/
theorem owned_once (hc : Lawful c) (hinit : awsHashTableInit size = some state) {ops : List (Op K V)}
    {log : List (Answer K V × Account K V)} (hexec : exec c state ops = some (state', log)) :
    ∃ dropped, (log.flatMap (fun a => a.2.taken)).Perm (dropped ++ log.flatMap (fun a => a.2.given)) ∧
      log.flatMap (fun a => a.2.destroyed) ++ (awsHashTableCleanUp c (some state')).2 =
        dropped.filter (destroys c) := by
  obtain ⟨hv, hempty⟩ := init_valid (c := c) hinit
  obtain ⟨state₁, log₁, dropped, hexec', _, _, hsettled⟩ := exec_spec hc hv ops
  rw [hexec'] at hexec
  obtain ⟨rfl, rfl⟩ := Prod.mk.inj (Option.some.inj hexec)
  have hbalance := hsettled.balance
  rw [items, hempty] at hbalance
  refine ⟨dropped ++ items state₁, ?_, ?_⟩
  · refine hbalance.trans ?_
    rw [List.append_assoc, List.append_assoc]
    exact List.perm_append_comm.append_left dropped
  · rw [hsettled.destroyed, List.filter_append, awsHashTableCleanUp, awsHashTableClear, clearCalls_eq]

theorem owned_once_numbers :
    ∃ dropped, (numbersRun.2.flatMap (fun a => a.2.taken)).Perm
        (dropped ++ numbersRun.2.flatMap (fun a => a.2.given)) ∧
      numbersRun.2.flatMap (fun a => a.2.destroyed) ++ (awsHashTableCleanUp numbers (some numbersRun.1)).2 =
        dropped.filter (destroys numbers) :=
  owned_once numbers_lawful (show awsHashTableInit 2 = some numbersTable from rfl)
    (show exec numbers numbersTable numbersOps = some (numbersRun.1, numbersRun.2) from rfl)

theorem size_of_count (hv : Valid c state) (h : loadOf (2 ^ 59) ≤ state.entryCount) :
    state.size = 2 ^ 59 ∧ state.maxLoad = loadOf (2 ^ 59) := by
  obtain ⟨k, _, hk, hsize⟩ := hv.size_eq
  have hroom := hv.room
  rw [hv.load] at hroom
  have hk' : k = 59 := by
    by_contra hne
    have hle : state.size ≤ 2 ^ 58 := by
      rw [hsize]
      exact Nat.pow_le_pow_right (by decide) (by omega)
    have := loadOf_lt (show 0 < state.size by have := hv.two; omega)
    have : 2 ^ 58 < loadOf (2 ^ 59) := by decide
    omega
  rw [hv.load, hsize, hk']
  exact ⟨rfl, rfl⟩

/-- The only failure of a call: a new key, and as many entries as a table of the largest size takes. -/
theorem put_fails_iff (hc : Lawful c) (hinit : awsHashTableInit size = some state) {ops : List (Op K V)}
    {log : List (Answer K V × Account K V)} (hexec : exec c state ops = some (state', log)) (key : Option K)
    (value : Option V) : awsHashTablePut c state' key value = some (.error ()) ↔
      contents c state' key = none ∧ state'.entryCount = 547637714688252288 := by
  have hv := exec_valid hc hinit hexec
  have hcapacity : loadOf (2 ^ 59) = 547637714688252288 := by decide
  rw [← hcapacity]
  rcases awsHashTablePut_cases hc hv key value with ⟨hput, hnone, hfull, hsize⟩ | ⟨state'', rest, hput, hv', hreplaced⟩
  · refine iff_of_true hput ⟨by rw [contents, hnone]; rfl, ?_⟩
    rw [hfull, hv.load, hsize]
  · rw [hput]
    refine iff_of_false (fun h => by cases h) ?_
    rintro ⟨habsent, hcount⟩
    have hnone : entryOf c state' key = none := Option.map_eq_none_iff.mp habsent
    have hbefore := hreplaced.before.length_eq
    have hafter := hreplaced.after.length_eq
    rw [hnone] at hbefore
    rw [← hv.count] at hbefore
    rw [← hv'.count] at hafter
    simp only [Option.toList_none, Option.toList_some, List.nil_append, List.singleton_append,
      List.length_cons] at hbefore hafter
    obtain ⟨_, hload⟩ := size_of_count hv' (by omega)
    have hroom := hv'.room
    omega

theorem put_fails_iff_numbers :
    awsHashTablePut numbers numbersRun.1 (some 7) (some 70) = some (.error ()) ↔
      contents numbers numbersRun.1 (some 7) = none ∧ numbersRun.1.entryCount = 547637714688252288 :=
  put_fails_iff numbers_lawful (show awsHashTableInit 2 = some numbersTable from rfl)
    (show exec numbers numbersTable numbersOps = some (numbersRun.1, numbersRun.2) from rfl) (some 7) (some 70)

theorem Valid.isValid (hv : Valid c state) : hashTableStateIsValid state = true := by
  obtain ⟨k, _, _, hsize⟩ := hv.size_eq
  have hpower : awsIsPowerOfTwo state.size = true := by
    rw [awsIsPowerOfTwo, hsize, Nat.and_two_pow_sub_one_eq_mod, Nat.mod_self, Bool.and_eq_true]
    exact ⟨bne_iff_ne.mpr (Nat.two_pow_pos k).ne', rfl⟩
  rw [hashTableStateIsValid, hpower]
  simp only [Bool.and_eq_true, decide_eq_true_eq, beq_iff_eq]
  refine ⟨⟨⟨⟨hv.two, trivial⟩, hv.room⟩, ?_⟩, hv.mask.pred⟩
  rw [hv.load]
  exact loadOf_lt (by have := hv.two; omega)

/-- At every moment of every run the numbers are in order, and no entry is farther from home than the one before it
allows. -/
theorem always_in_order (hc : Lawful c) (hinit : awsHashTableInit size = some state) {ops : List (Op K V)}
    {log : List (Answer K V × Account K V)} (hexec : exec c state ops = some (state', log)) :
    hashTableStateIsValid state' = true ∧ state'.slots.length = state'.size ∧
      state'.entryCount = (entries state').length ∧ Settled Entry.hashCode (ring state'.slots) := by
  have hv := exec_valid hc hinit hexec
  exact ⟨hv.isValid, hv.length, hv.count, hv.settled⟩

theorem always_in_order_numbers :
    hashTableStateIsValid numbersRun.1 = true ∧ numbersRun.1.slots.length = numbersRun.1.size ∧
      numbersRun.1.entryCount = (entries numbersRun.1).length ∧ Settled Entry.hashCode (ring numbersRun.1.slots) :=
  always_in_order numbers_lawful (show awsHashTableInit 2 = some numbersTable from rfl)
    (show exec numbers numbersTable numbersOps = some (numbersRun.1, numbersRun.2) from rfl)

end Results

end OneSdk.HashTable
