import OneSdk.ProbeRing

namespace OneSdk.HashTable

/-- The functions of the owner. A key or a value is a pointer, `none` where it is `NULL`; of a destructor it
matters whether there is one. -/
structure Callbacks (K V : Type) where
  hashFn : K → UInt64
  equalsFn : K → K → Bool
  destroyKeyFn : Bool
  destroyValueFn : Bool

structure Element (K V : Type) where
  key : Option K
  value : Option V

/-- `hash_table_entry`, which is empty where its hash code is zero. -/
structure Entry (K V : Type) where
  element : Element K V
  hashCode : Nat

structure State (K V : Type) where
  size : Nat
  entryCount : Nat
  maxLoad : Nat
  mask : Nat
  slots : List (Entry K V)

/-- What the table owns, or a call of the destructor for it. -/
inductive Item (K V : Type)
  | key (key : Option K)
  | value (value : Option V)

variable {K V : Type}

def Entry.zero : Entry K V := ⟨⟨none, none⟩, 0⟩

section Sizes

def roundUpToPowerOfTwo (n : Nat) : Option Nat :=
  if n = 0 then some 1
  else if n > 2 ^ 63 then none
  else
    let n := n - 1
    let n := n ||| n >>> 1
    let n := n ||| n >>> 2
    let n := n ||| n >>> 4
    let n := n ||| n >>> 8
    let n := n ||| n >>> 16
    let n := n ||| n >>> 32
    some (n + 1)

def awsMulSizeChecked (a b : Nat) : Option Nat :=
  if a > 0 ∧ b > 0 ∧ a > (2 ^ 64 - 1) / b then none else some (a * b)

def awsAddSizeChecked (a b : Nat) : Option Nat := if b > 0 ∧ a > 2 ^ 64 - 1 - b then none else some (a + b)

def hashTableStateRequiredBytes (size : Nat) : Option Nat := do
  let elemsize ← awsMulSizeChecked size 24
  awsAddSizeChecked elemsize 80

/-- `max_load_factor` is the double 0.95, which times a power of two is exact. -/
def loadOf (size : Nat) : Nat := 4278419646001971 * size / 2 ^ 52

def updateTemplateSize (template : State K V) (expectedElements : Nat) : Option (State K V) := do
  let size ← roundUpToPowerOfTwo (max expectedElements 2)
  let maxLoad := if loadOf size ≥ size then size - 1 else loadOf size
  pure { template with size := size, maxLoad := maxLoad, mask := size - 1 }

/-- Memory that cannot be had ends the process. -/
def allocState (template : State K V) : Option (State K V) := do
  let _ ← hashTableStateRequiredBytes template.size
  pure { template with slots := List.replicate template.size Entry.zero }

def awsHashTableInit (size : Nat) : Option (State K V) := do
  let template ← updateTemplateSize ⟨0, 0, 0, 0, []⟩ size
  allocState template

end Sizes

section Find

variable [DecidableEq K] (c : Callbacks K V)

def hashFor (key : Option K) : Nat :=
  match key with
  | none => 42
  | some k => if (c.hashFn k).toNat = 0 then 1 else (c.hashFn k).toNat

def safeEqCheck {α : Type} [DecidableEq α] (equalsFn : α → α → Bool) (a b : Option α) : Bool :=
  if a = b then true
  else
    match a, b with
    | some a, some b => equalsFn a b
    | _, _ => false

def sub64 (a b : Nat) : Nat := (a + (2 ^ 64 - b % 2 ^ 64)) % 2 ^ 64

def slotAt (slots : List (Entry K V)) (index : Nat) : Entry K V := slots.getD index Entry.zero

def isEntryFor (hashCode : Nat) (key : Option K) (entry : Entry K V) : Bool :=
  entry.hashCode = hashCode && safeEqCheck c.equalsFn key entry.element.key

/-- Whether the entry has been found, its index and the number of the probe. -/
def findEntry1 (state : State K V) (hashCode : Nat) (key : Option K) : Nat → Nat → Option (Bool × Nat × Nat)
  | 0, _ => none
  | fuel + 1, probeIdx =>
      let index := (hashCode + probeIdx) % 2 ^ 64 &&& state.mask
      let entry := slotAt state.slots index
      if entry.hashCode = 0 then some (false, index, probeIdx)
      else if isEntryFor c hashCode key entry then some (true, index, probeIdx)
      else
        let entryProbe := sub64 index entry.hashCode &&& state.mask
        if entryProbe < probeIdx then some (false, index, probeIdx)
        else findEntry1 state hashCode key fuel (probeIdx + 1)

def findEntry (state : State K V) (hashCode : Nat) (key : Option K) : Option (Bool × Nat × Nat) :=
  let index := hashCode &&& state.mask
  let entry := slotAt state.slots index
  if entry.hashCode = 0 then some (false, index, 0)
  else if isEntryFor c hashCode key entry then some (true, index, 0)
  else findEntry1 c state hashCode key state.size 1

def awsHashTableFind (state : State K V) (key : Option K) : Option (Option (Element K V)) := do
  let (found, index, _) ← findEntry c state (hashFor c key) key
  pure (if found then some (slotAt state.slots index).element else none)

end Find

section Put

/-- The loop of `s_emplace_item`: an empty entry has been swapped out at its end. -/
def emplaceLoop (mask : Nat) : Nat → List (Entry K V) → Option Nat → Entry K V → Nat →
    Option (List (Entry K V) × Option Nat)
  | 0, slots, rval, entry, _ => if entry.hashCode = 0 then some (slots, rval) else none
  | fuel + 1, slots, rval, entry, probeIdx =>
      if entry.hashCode = 0 then some (slots, rval)
      else
        let index := (entry.hashCode + probeIdx) % 2 ^ 64 &&& mask
        let victim := slotAt slots index
        let victimProbeIdx := sub64 index victim.hashCode &&& mask
        if victim.hashCode = 0 ∨ victimProbeIdx < probeIdx then
          emplaceLoop mask fuel (slots.set index entry) (some (rval.getD index)) victim (victimProbeIdx + 1)
        else emplaceLoop mask fuel slots rval entry (probeIdx + 1)

def emplaceItem (state : State K V) (entry : Entry K V) (probeIdx : Nat) : Option (State K V × Option Nat) := do
  let (slots, rval) ← emplaceLoop state.mask state.size state.slots none entry probeIdx
  pure ({ state with slots := slots }, rval)

/-- `aws_mem_release` of the old state is all that follows. -/
def expandLoop (newState : State K V) : List (Entry K V) → Option (State K V)
  | [] => some newState
  | entry :: entries =>
      if entry.hashCode = 0 then expandLoop newState entries
      else do
        let (newState, _) ← emplaceItem newState entry 0
        expandLoop newState entries

def expandedState (oldState : State K V) : Option (State K V) := do
  let newSize ← awsMulSizeChecked oldState.size 2
  let template ← updateTemplateSize oldState newSize
  allocState template

/-- `error` where the table cannot be made larger; without a result the loop does not end. -/
def expandTable (oldState : State K V) : Option (Except Unit (State K V)) :=
  match expandedState oldState with
  | none => some (.error ())
  | some newState => (expandLoop newState oldState.slots).map .ok

variable [DecidableEq K] (c : Callbacks K V)

def addEntry (state : State K V) (hashCode : Nat) (key : Option K) (probeIdx : Nat) :
    Option (State K V × Option Nat) :=
  emplaceItem { state with entryCount := state.entryCount + 1 } ⟨⟨key, none⟩, hashCode⟩ probeIdx

/-- The state, the index that `p_elem` points to and `was_created`. -/
def awsHashTableCreate (state : State K V) (key : Option K) :
    Option (Except Unit (State K V × Option Nat × Bool)) := do
  let hashCode := hashFor c key
  let (found, index, probeIdx) ← findEntry c state hashCode key
  if found then pure (.ok (state, some index, false))
  else
    match awsAddSizeChecked state.entryCount 1 with
    | none => pure (.error ())
    | some incrEntryCount =>
        if incrEntryCount > state.maxLoad then
          match ← expandTable state with
          | .error _ => pure (.error ())
          | .ok state =>
              let (state, index) ← addEntry state hashCode key 0
              pure (.ok (state, index, true))
        else
          let (state, index) ← addEntry state hashCode key probeIdx
          pure (.ok (state, index, true))

def destroyKey (key : Option K) : List (Item K V) := if c.destroyKeyFn then [.key key] else []

def destroyValue (value : Option V) : List (Item K V) := if c.destroyValueFn then [.value value] else []

def storeElement (state : State K V) (index : Nat) (element : Element K V) : State K V :=
  { state with slots := state.slots.set index ⟨element, (slotAt state.slots index).hashCode⟩ }

/-- The state, `was_created` and the calls of destructors. -/
def awsHashTablePut (state : State K V) (key : Option K) (value : Option V) :
    Option (Except Unit (State K V × Bool × List (Item K V))) := do
  match ← awsHashTableCreate c state key with
  | .error _ => pure (.error ())
  | .ok (state, index, wasCreated) =>
      let index ← index
      let old := (slotAt state.slots index).element
      let destroyed :=
        if wasCreated then []
        else (if old.key ≠ key then destroyKey c old.key else []) ++ destroyValue c old.value
      pure (.ok (storeElement state index ⟨key, value⟩, wasCreated, destroyed))

end Put

section Remove

def removeLoop (mask : Nat) : Nat → List (Entry K V) → Nat → Option (List (Entry K V) × Nat)
  | 0, _, _ => none
  | fuel + 1, slots, index =>
      let nextIndex := (index + 1) % 2 ^ 64 &&& mask
      let next := slotAt slots nextIndex
      if next.hashCode = 0 then some (slots.set index Entry.zero, index)
      else if next.hashCode &&& mask = nextIndex then some (slots.set index Entry.zero, index)
      else removeLoop mask fuel (slots.set index next) nextIndex

/-- The state and the last slot that has been touched. -/
def removeEntry (state : State K V) (index : Nat) : Option (State K V × Nat) := do
  let (slots, last) ← removeLoop state.mask state.size state.slots index
  pure ({ state with entryCount := state.entryCount - 1, slots := slots }, last)

variable [DecidableEq K] (c : Callbacks K V)

/-- The state, the element if there was one, and the calls of destructors; with `takes` the element is given to
the caller. -/
def awsHashTableRemove (state : State K V) (key : Option K) (takes : Bool) :
    Option (State K V × Option (Element K V) × List (Item K V)) := do
  let (found, index, _) ← findEntry c state (hashFor c key) key
  if found then
    let element := (slotAt state.slots index).element
    let destroyed := if takes then [] else destroyKey c element.key ++ destroyValue c element.value
    let (state, _) ← removeEntry state index
    pure (state, some element, destroyed)
  else pure (state, none, [])

def clearCalls (state : State K V) : List (Item K V) :=
  if c.destroyKeyFn || c.destroyValueFn then
    state.slots.flatMap (fun entry =>
      if entry.hashCode = 0 then [] else destroyKey c entry.element.key ++ destroyValue c entry.element.value)
  else []

def awsHashTableClear (state : State K V) : State K V × List (Item K V) :=
  ({ state with slots := List.replicate state.size Entry.zero, entryCount := 0 }, clearCalls c state)

def awsHashTableCleanUp : Option (State K V) → Option (State K V) × List (Item K V)
  | none => (none, [])
  | some state => (none, (awsHashTableClear c state).2)

end Remove

section Valid

def awsIsPowerOfTwo (x : Nat) : Bool := x != 0 && (x &&& (x - 1)) == 0

/-- `hash_table_state_is_valid`, as far as it is about numbers. -/
def hashTableStateIsValid (state : State K V) : Bool :=
  decide (state.size ≥ 2) && awsIsPowerOfTwo state.size && decide (state.entryCount ≤ state.maxLoad) &&
    decide (state.maxLoad < state.size) && state.mask == state.size - 1

end Valid

end OneSdk.HashTable
