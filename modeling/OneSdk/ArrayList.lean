import OneSdk.Blocks
import OneSdk.CString
import OneSdk.HashTable

namespace OneSdk.ArrayList

open Blocks
open CString (set_middle)
open HashTable (awsAddSizeChecked awsMulSizeChecked)

inductive Error
  | invalidIndex
  | listExceedsMaxSize
  | overflowDetected
  | listEmpty
  | listStaticModeCantShrink
  deriving DecidableEq

/-- Why a call has no result: an error that it raises, or an access outside the data. -/
inductive Fault
  | raised (error : Error)
  | outside

/-- `aws_array_list`. Its `current_size` is the length of the data, which is `NULL` where there is none. -/
structure State where
  alloc : Bool
  itemSize : Nat
  length : Nat
  data : Bytes

section Calls

def raise {α : Type} (error : Error) : Except Fault α := .error (.raised error)

def checked : Option Nat → Except Fault Nat
  | none => raise .overflowDetected
  | some n => .ok n

def inside {α : Type} : Option α → Except Fault α
  | none => .error .outside
  | some a => .ok a

/-- A new block of memory; `junk` is what it holds. -/
def acquire (junk : Nat → UInt8) (size : Nat) : Bytes := (List.range size).map junk

def awsArrayListInitDynamic (junk : Nat → UInt8) (initialItemAllocation itemSize : Nat) : Except Fault State := do
  let allocationSize ← checked (awsMulSizeChecked initialItemAllocation itemSize)
  pure ⟨true, itemSize, 0, acquire junk allocationSize⟩

def awsArrayListInitStatic (rawArray : Bytes) (itemSize : Nat) : State := ⟨false, itemSize, 0, rawArray⟩

variable (junk : Nat → UInt8) (list : State)

def awsArrayListCalcNecessarySize (index : Nat) : Except Fault Nat := do
  let indexInc ← checked (awsAddSizeChecked index 1)
  checked (awsMulSizeChecked indexInc list.itemSize)

def awsArrayListEnsureCapacity (index : Nat) : Except Fault State := do
  let necessarySize ← awsArrayListCalcNecessarySize list index
  if list.data.length < necessarySize then
    if !list.alloc then raise .invalidIndex
    else
      let nextAllocationSize := list.data.length <<< 1 % 2 ^ 64
      let newSize := if nextAllocationSize > necessarySize then nextAllocationSize else necessarySize
      if newSize < list.data.length then raise .listExceedsMaxSize
      else do
        let temp ← inside (copyIn (acquire junk newSize) 0 list.data)
        pure { list with data := temp }
  else pure list

def awsArrayListSetAt (val : Bytes) (index : Nat) : Except Fault State := do
  let list ← awsArrayListEnsureCapacity junk list index
  let data ← inside (copyIn list.data (list.itemSize * index) val)
  if index ≥ list.length then do
    let length ← checked (awsAddSizeChecked index 1)
    pure { list with data := data, length := length }
  else pure { list with data := data }

/-- The two functions that add an item report a full static list with an error of their own. -/
def reportFull (r : Except Fault State) : Except Fault State :=
  match r with
  | .error (.raised .invalidIndex) => if list.alloc then r else raise .listExceedsMaxSize
  | _ => r

def awsArrayListPushBack (val : Bytes) : Except Fault State :=
  reportFull list (awsArrayListSetAt junk list val list.length)

def awsArrayListPushFront (val : Bytes) : Except Fault State := do
  let origLen := list.length
  let list ← reportFull list (awsArrayListEnsureCapacity junk list origLen)
  let data ← (if origLen ≠ 0 then inside (move list.data list.itemSize 0 (origLen * list.itemSize))
    else pure list.data)
  let data ← inside (copyIn data 0 val)
  pure { list with length := list.length + 1, data := data }

def awsArrayListClear : State := if list.data ≠ [] then { list with length := 0 } else list

def awsArrayListPopFrontN (n : Nat) : Except Fault State :=
  if n ≥ list.length then pure (awsArrayListClear list)
  else if n > 0 then do
    let poppingBytes := list.itemSize * n
    let remainingItems := list.length - n
    let data ← inside (move list.data 0 poppingBytes (remainingItems * list.itemSize))
    pure { list with data := data, length := remainingItems }
  else pure list

def awsArrayListPopFront : Except Fault State :=
  if list.length > 0 then awsArrayListPopFrontN list 1 else raise .listEmpty

def awsArrayListPopBack : Except Fault State :=
  if list.length > 0 then do
    let lastItemOffset := list.itemSize * (list.length - 1)
    let data ← inside (copyIn list.data lastItemOffset (List.replicate list.itemSize 0))
    pure { list with data := data, length := list.length - 1 }
  else raise .listEmpty

def awsArrayListErase (index : Nat) : Except Fault State :=
  if index ≥ list.length then raise .invalidIndex
  else if index = 0 then awsArrayListPopFront list
  else if index = list.length - 1 then awsArrayListPopBack list
  else do
    let item := index * list.itemSize
    let trailingItems := list.length - index - 1
    let data ← inside (move list.data item (item + list.itemSize) (trailingItems * list.itemSize))
    awsArrayListPopBack { list with data := data }

def awsArrayListGetAt (index : Nat) : Except Fault Bytes :=
  if list.length > index then inside (copyOut list.data (list.itemSize * index) list.itemSize)
  else raise .invalidIndex

def awsArrayListFront : Except Fault Bytes :=
  if list.length > 0 then inside (copyOut list.data 0 list.itemSize) else raise .listEmpty

def awsArrayListBack : Except Fault Bytes :=
  if list.length > 0 then inside (copyOut list.data (list.itemSize * (list.length - 1)) list.itemSize)
  else raise .listEmpty

def awsArrayListShrinkToFit : Except Fault State :=
  if list.alloc then do
    let idealSize ← checked (awsMulSizeChecked list.length list.itemSize)
    if idealSize < list.data.length then do
      let rawData ← (if idealSize > 0 then
          inside ((copyOut list.data 0 idealSize).bind (copyIn (acquire junk idealSize) 0))
        else pure [])
      pure { list with data := rawData }
    else pure list
  else raise .listStaticModeCantShrink

end Calls

section Items

variable {k n i : Nat} {xs : List Bytes}

theorem flatten_length (h : ∀ x ∈ xs, x.length = k) : xs.flatten.length = xs.length * k := by
  induction xs with
  | nil => rw [List.flatten_nil, List.length_nil, List.length_nil, Nat.zero_mul]
  | cons x xs ih =>
      rw [List.flatten_cons, List.length_append, h x List.mem_cons_self,
        ih (fun y hy => h y (List.mem_cons_of_mem _ hy)), List.length_cons, Nat.succ_mul, Nat.add_comm]

theorem exists_items (bytes : Bytes) (h : bytes.length = n * k) :
    ∃ gap : List Bytes, gap.length = n ∧ (∀ x ∈ gap, x.length = k) ∧ gap.flatten = bytes := by
  induction n generalizing bytes with
  | zero =>
      rw [Nat.zero_mul, List.length_eq_zero_iff] at h
      exact ⟨[], rfl, nofun, h.symm⟩
  | succ n ih =>
      rw [Nat.succ_mul] at h
      obtain ⟨gap, hlen, hwidth, hflat⟩ := ih (bytes.drop k) (by rw [List.length_drop]; omega)
      refine ⟨bytes.take k :: gap, congrArg Nat.succ hlen, List.forall_mem_cons.mpr ⟨?_, hwidth⟩, ?_⟩
      · rw [List.length_take]
        omega
      · rw [List.flatten_cons, hflat, List.take_append_drop]

theorem exists_split {items : List Bytes} (h : i < items.length) :
    ∃ xs ys, items = xs ++ items[i] :: ys ∧ xs.length = i := by
  refine ⟨items.take i, items.drop (i + 1), ?_, ?_⟩
  · rw [← List.drop_eq_getElem_cons h, List.take_append_drop]
  · rw [List.length_take]
    omega

end Items

section Sizes

variable {list : State} {junk : Nat → UInt8} {index : Nat}

/-- What is in the way of a number of items: the size is no size, or the array is static and smaller. -/
def obstacle (list : State) (n : Nat) : Option Error :=
  if n * list.itemSize ≥ 2 ^ 64 then some .overflowDetected
  else if !list.alloc && list.data.length < n * list.itemSize then some .invalidIndex
  else none

theorem awsMulSizeChecked_eq (a b : Nat) : awsMulSizeChecked a b = if a * b ≥ 2 ^ 64 then none else some (a * b) := by
  rw [awsMulSizeChecked]
  rcases Nat.eq_zero_or_pos b with rfl | hb
  · rw [if_neg (fun h => absurd h.2.1 (Nat.lt_irrefl 0)), Nat.mul_zero, if_neg (by decide)]
  · have hdiv : a > (2 ^ 64 - 1) / b ↔ a * b ≥ 2 ^ 64 := by
      rw [gt_iff_lt, Nat.div_lt_iff_lt_mul hb]
      omega
    by_cases hlarge : a * b ≥ 2 ^ 64
    · have ha : a > 0 := by
        rcases Nat.eq_zero_or_pos a with rfl | ha
        · rw [Nat.zero_mul] at hlarge
          omega
        · exact ha
      rw [if_pos ⟨ha, hb, hdiv.mpr hlarge⟩, if_pos hlarge]
    · rw [if_neg (fun h => hlarge (hdiv.mp h.2.2)), if_neg hlarge]

theorem awsArrayListCalcNecessarySize_eq (hk : 0 < list.itemSize) (index : Nat) :
    awsArrayListCalcNecessarySize list index =
      if (index + 1) * list.itemSize ≥ 2 ^ 64 then raise .overflowDetected
      else .ok ((index + 1) * list.itemSize) := by
  rw [awsArrayListCalcNecessarySize, awsAddSizeChecked]
  by_cases hlarge : index > 2 ^ 64 - 1 - 1
  · have hle : index + 1 ≤ (index + 1) * list.itemSize := Nat.le_mul_of_pos_right _ hk
    rw [if_pos ⟨Nat.one_pos, hlarge⟩, if_pos (by omega)]
    rfl
  · rw [if_neg (fun h => hlarge h.2)]
    change checked (awsMulSizeChecked (index + 1) list.itemSize) = _
    rw [awsMulSizeChecked_eq]
    split
    · rfl
    · rfl

theorem acquire_length (junk : Nat → UInt8) (size : Nat) : (acquire junk size).length = size := by
  rw [acquire, List.length_map, List.length_range]

/-- There is room for an index, or an error says what is in the way; the list grows to less than twice its size or
to what is needed. -/
theorem awsArrayListEnsureCapacity_cases (hk : 0 < list.itemSize) (hlt : list.data.length < 2 ^ 64)
    (junk : Nat → UInt8) (index : Nat) :
    (∃ e, obstacle list (index + 1) = some e ∧ awsArrayListEnsureCapacity junk list index = raise e) ∨
      obstacle list (index + 1) = none ∧ ∃ more,
        awsArrayListEnsureCapacity junk list index = .ok { list with data := list.data ++ more } ∧
        (index + 1) * list.itemSize ≤ (list.data ++ more).length ∧ (list.data ++ more).length < 2 ^ 64 ∧
        (list.alloc = false → more = []) := by
  rw [awsArrayListEnsureCapacity, awsArrayListCalcNecessarySize_eq hk, obstacle]
  by_cases hlarge : (index + 1) * list.itemSize ≥ 2 ^ 64
  · rw [if_pos hlarge, if_pos hlarge]
    exact Or.inl ⟨_, rfl, rfl⟩
  · rw [if_neg hlarge, if_neg hlarge]
    change (∃ e, _ ∧ (if list.data.length < (index + 1) * list.itemSize then _ else _) = _) ∨ _ ∧ ∃ more,
      (if list.data.length < (index + 1) * list.itemSize then _ else _) = _ ∧ _
    generalize (index + 1) * list.itemSize = needed at hlarge ⊢
    by_cases hroom : list.data.length < needed
    · cases halloc : list.alloc with
      | false =>
          simp only [Bool.not_false, Bool.true_and, hroom, decide_true, if_true]
          exact Or.inl ⟨_, rfl, rfl⟩
      | true =>
          simp only [Bool.not_true, Bool.false_and, hroom, if_true]
          generalize hnew : (if list.data.length <<< 1 % 2 ^ 64 > needed then list.data.length <<< 1 % 2 ^ 64
            else needed) = newSize
          have hsize : needed ≤ newSize ∧ newSize < 2 ^ 64 := by
            rw [← hnew]
            split
            · exact ⟨by omega, Nat.mod_lt _ (by decide)⟩
            · exact ⟨Nat.le_refl _, by omega⟩
          have hroom' : ([] : Bytes).length + list.data.length ≤ (acquire junk newSize).length := by
            rw [acquire_length, List.length_nil]
            omega
          obtain ⟨rest, hcopy, hlen⟩ := copyIn_room List.nil_prefix hroom'
          rw [acquire_length] at hlen
          rw [List.nil_append] at hcopy hlen
          rw [List.length_nil] at hcopy
          refine Or.inr ⟨rfl, rest, ?_, by omega, by omega, nofun⟩
          rw [if_neg Bool.false_ne_true, if_neg (by omega), hcopy]
          rfl
    · rw [if_neg hroom]
      refine Or.inr ⟨if_neg (by simp [hroom]), [], ?_⟩
      rw [List.append_nil]
      exact ⟨rfl, Nat.not_lt.mp hroom, hlt, fun _ => rfl⟩

end Sizes

section Invariant

variable {list list' list'' : State} {items xs ys zs : List Bytes} {val data : Bytes} {index n : Nat}

structure Holds (list : State) (items : List Bytes) : Prop where
  wide : 0 < list.itemSize
  small : list.data.length < 2 ^ 64
  length : list.length = items.length
  width : ∀ item ∈ items, item.length = list.itemSize
  front : items.flatten <+: list.data

structure Alike (list list' : State) : Prop where
  alloc : list'.alloc = list.alloc
  itemSize : list'.itemSize = list.itemSize
  size : list.alloc = false → list'.data.length = list.data.length

theorem Alike.refl (list : State) : Alike list list := ⟨rfl, rfl, fun _ => rfl⟩

theorem Alike.trans (h : Alike list list') (h' : Alike list' list'') : Alike list list'' :=
  ⟨h'.alloc.trans h.alloc, h'.itemSize.trans h.itemSize,
    fun hstatic => (h'.size (h.alloc.trans hstatic)).trans (h.size hstatic)⟩

theorem Alike.obstacle_eq (h : Alike list list') (n : Nat) : obstacle list' n = obstacle list n := by
  rw [obstacle, obstacle, h.itemSize, h.alloc]
  cases halloc : list.alloc with
  | true => rfl
  | false => rw [h.size halloc]

theorem Holds.reaches (h : Holds list items) : items.length * list.itemSize ≤ list.data.length := by
  rw [← flatten_length h.width]
  exact h.front.length_le

theorem Holds.grow (h : Holds list items) (more : Bytes) (hlt : (list.data ++ more).length < 2 ^ 64) :
    Holds { list with data := list.data ++ more } items :=
  ⟨h.wide, hlt, h.length, h.width, h.front.trans (List.prefix_append _ _)⟩

theorem Holds.shorten (h : Holds list (xs ++ ys)) : Holds { list with length := xs.length } xs := by
  refine ⟨h.wide, h.small, rfl, fun x hx => h.width x (List.mem_append_left _ hx), ?_⟩
  apply List.IsPrefix.trans _ h.front
  rw [List.flatten_append]
  exact List.prefix_append _ _

theorem Holds.reach (h : Holds list items) (hn : items.length ≤ n) (hroom : n * list.itemSize ≤ list.data.length) :
    ∃ gap : List Bytes, gap.length = n - items.length ∧ Holds { list with length := n } (items ++ gap) := by
  obtain ⟨rest, hrest⟩ := h.front
  have hlen := flatten_length h.width
  have hsize : n * list.itemSize = items.length * list.itemSize + (n - items.length) * list.itemSize := by
    rw [← Nat.add_mul, Nat.add_sub_cancel' hn]
  have hdata : list.data.length = items.flatten.length + rest.length := by rw [← hrest, List.length_append]
  have hbytes : (rest.take ((n - items.length) * list.itemSize)).length = (n - items.length) * list.itemSize := by
    rw [List.length_take]
    omega
  obtain ⟨gap, hgap, hwidth, hflat⟩ := exists_items _ hbytes
  refine ⟨gap, hgap, h.wide, h.small, ?_, ?_, ?_⟩
  · rw [List.length_append, hgap]
    exact (Nat.add_sub_cancel' hn).symm
  · intro x hx
    rcases List.mem_append.mp hx with hx | hx
    · exact h.width x hx
    · exact hwidth x hx
  · change _ <+: list.data
    rw [List.flatten_append, hflat, ← hrest]
    exact (List.prefix_append_right_inj _).mpr (List.take_prefix _ _)

theorem Holds.around {x : Bytes} (h : Holds list (xs ++ x :: ys)) :
    ∃ rest, list.data = xs.flatten ++ x ++ (ys.flatten ++ rest) ∧ xs.flatten.length = list.itemSize * xs.length ∧
      x.length = list.itemSize := by
  obtain ⟨rest, hrest⟩ := h.front
  refine ⟨rest, ?_, ?_, h.width x (List.mem_append_right _ List.mem_cons_self)⟩
  · rw [← hrest, List.flatten_append, List.flatten_cons]
    simp only [List.append_assoc]
  · rw [Nat.mul_comm]
    exact flatten_length (fun y hy => h.width y (List.mem_append_left _ hy))

theorem Holds.overwrite (h : Holds list items) (hindex : index < items.length) (hval : val.length = list.itemSize) :
    ∃ data, copyIn list.data (list.itemSize * index) val = some data ∧ data.length = list.data.length ∧
      Holds { list with data := data } (items.set index val) := by
  obtain ⟨xs, ys, hitems, rfl⟩ := exists_split hindex
  generalize items[xs.length] = x at hitems
  subst hitems
  rw [set_middle]
  obtain ⟨rest, hdata, hxs, hx⟩ := h.around
  refine ⟨xs.flatten ++ val ++ (ys.flatten ++ rest), ?_, ?_, h.wide, ?_, ?_, ?_, ?_⟩
  · rw [hdata, ← hxs]
    exact copyIn_append _ _ _ _ (hx.trans hval.symm)
  · rw [hdata]
    simp only [List.length_append]
    omega
  · have hsmall := h.small
    rw [hdata] at hsmall
    simp only [List.length_append] at hsmall ⊢
    omega
  · rw [List.length_append, List.length_cons]
    exact h.length.trans (by rw [List.length_append, List.length_cons])
  · intro y hy
    rcases List.mem_append.mp hy with hy | hy
    · exact h.width y (List.mem_append_left _ hy)
    · rcases List.mem_cons.mp hy with rfl | hy
      · exact hval
      · exact h.width y (List.mem_append_right _ (List.mem_cons_of_mem _ hy))
  · refine ⟨rest, ?_⟩
    rw [List.flatten_append, List.flatten_cons]
    simp only [List.append_assoc]

theorem Holds.item (h : Holds list items) (hindex : index < items.length) :
    copyOut list.data (list.itemSize * index) list.itemSize = some items[index] := by
  obtain ⟨xs, ys, hitems, rfl⟩ := exists_split hindex
  generalize items[xs.length] = x at hitems ⊢
  subst hitems
  obtain ⟨rest, hdata, hxs, hx⟩ := h.around
  rw [hdata, ← hxs, ← hx]
  exact copyOut_append _ _ _

theorem Holds.close_up (h : Holds list (xs ++ ys ++ zs)) :
    ∃ data, move list.data (xs.length * list.itemSize) ((xs.length + ys.length) * list.itemSize)
        (zs.length * list.itemSize) = some data ∧
      data.length = list.data.length ∧ (xs ++ zs).flatten <+: data := by
  obtain ⟨rest, hrest⟩ := h.front
  have hwidth (y : Bytes) (hy : y ∈ xs ∨ y ∈ ys ∨ y ∈ zs) : y.length = list.itemSize := by
    apply h.width y
    rw [List.append_assoc, List.mem_append, List.mem_append]
    exact hy
  have hxs := flatten_length (fun y hy => hwidth y (.inl hy))
  have hys := flatten_length (fun y hy => hwidth y (.inr (.inl hy)))
  have hzs := flatten_length (fun y hy => hwidth y (.inr (.inr hy)))
  have hdata : list.data = xs.flatten ++ ys.flatten ++ zs.flatten ++ rest := by
    rw [← hrest, List.flatten_append, List.flatten_append]
  have hread : copyOut list.data ((xs.length + ys.length) * list.itemSize) (zs.length * list.itemSize) =
      some zs.flatten := by
    rw [hdata, ← hzs, Nat.add_mul, ← hxs, ← hys, ← List.length_append]
    exact copyOut_append _ _ _
  have hroom : xs.flatten.length + zs.flatten.length ≤ list.data.length := by
    rw [hdata]
    simp only [List.length_append]
    omega
  have hfront : xs.flatten <+: list.data := by
    rw [hdata]
    simp only [List.append_assoc]
    exact List.prefix_append _ _
  obtain ⟨behind, hwrite, hlen⟩ := copyIn_room hfront hroom
  refine ⟨_, ?_, hlen, ?_⟩
  · rw [move, hread, Option.bind_some, ← hxs]
    exact hwrite
  · rw [List.flatten_append]
    exact List.prefix_append _ _

theorem Holds.copy_all (h : Holds list items) :
    copyOut list.data 0 (items.length * list.itemSize) = some items.flatten := by
  obtain ⟨rest, hrest⟩ := h.front
  rw [← hrest, ← flatten_length h.width]
  exact copyOut_append [] _ _

theorem Holds.make_room (h : Holds list items) (hroom : (items.length + 1) * list.itemSize ≤ list.data.length) :
    ∃ head rest, (if items.length ≠ 0 then
        inside (move list.data list.itemSize 0 (items.length * list.itemSize)) else pure list.data) =
        Except.ok (head ++ items.flatten ++ rest) ∧
      head.length = list.itemSize ∧ (head ++ items.flatten ++ rest).length = list.data.length := by
  have hlen := flatten_length h.width
  rw [Nat.add_mul, Nat.one_mul, ← hlen] at hroom
  have hhead : (list.data.take list.itemSize).length = list.itemSize := by
    rw [List.length_take]
    omega
  by_cases hnone : items.length = 0
  · rw [List.length_eq_zero_iff] at hnone
    subst hnone
    refine ⟨list.data.take list.itemSize, list.data.drop list.itemSize, ?_, hhead, ?_⟩
    · rw [List.flatten_nil, List.append_nil, List.take_append_drop]
      rfl
    · rw [List.flatten_nil, List.append_nil, List.take_append_drop]
  · have hfits : (list.data.take list.itemSize).length + items.flatten.length ≤ list.data.length := by omega
    obtain ⟨behind, hwrite, hsame⟩ := copyIn_room (List.take_prefix list.itemSize list.data) hfits
    refine ⟨list.data.take list.itemSize, behind, ?_, hhead, hsame⟩
    rw [if_pos hnone, move, h.copy_all, Option.bind_some]
    rw [hhead] at hwrite
    rw [hwrite]
    rfl

end Invariant

section Operations

variable {list : State} {items items' : List Bytes} {val x : Bytes} {index n : Nat} {e : Error}

def Gives (list : State) (r : Except Fault State) (wanted : List Bytes → Prop) : Prop :=
  ∃ list' items', r = .ok list' ∧ Holds list' items' ∧ Alike list list' ∧ wanted items'

/-- An item is stored at an index. Up to there the list is filled with items of unknown content. -/
def Stored (items : List Bytes) (val : Bytes) (index : Nat) (items' : List Bytes) : Prop :=
  ∃ gap : List Bytes, gap.length = index + 1 - items.length ∧ items' = (items ++ gap).set index val

def full : Error → Error
  | .invalidIndex => .listExceedsMaxSize
  | e => e

theorem Stored.push_back (h : Stored items val items.length items') : items' = items ++ [val] := by
  obtain ⟨gap, hgap, rfl⟩ := h
  rw [Nat.add_sub_cancel_left] at hgap
  obtain ⟨x, rfl⟩ := List.length_eq_one_iff.mp hgap
  exact set_middle items [] x val

theorem awsAddSizeChecked_one (h : index + 1 < 2 ^ 64) : awsAddSizeChecked index 1 = some (index + 1) := by
  rw [awsAddSizeChecked, if_neg]
  omega

theorem reportFull_raise (h : obstacle list n = some e) : reportFull list (raise e) = raise (full e) := by
  rw [obstacle] at h
  split at h
  · cases h
    rfl
  · split at h
    · rename_i hstatic
      rw [Bool.and_eq_true, Bool.not_eq_true'] at hstatic
      cases h
      exact if_neg (by rw [hstatic.1]; exact Bool.false_ne_true)
    · cases h

theorem awsArrayListSetAt_cases (h : Holds list items) (junk : Nat → UInt8) (hval : val.length = list.itemSize)
    (index : Nat) :
    (∃ e, obstacle list (index + 1) = some e ∧ awsArrayListSetAt junk list val index = raise e) ∨
      obstacle list (index + 1) = none ∧
        Gives list (awsArrayListSetAt junk list val index) (Stored items val index) := by
  rcases awsArrayListEnsureCapacity_cases h.wide h.small junk index with
    ⟨e, he, hraise⟩ | ⟨hnone, more, hgrown, hroom, hlt, hstatic⟩
  · refine .inl ⟨e, he, ?_⟩
    rw [awsArrayListSetAt, hraise]
    rfl
  · have hg := h.grow more hlt
    have hmax : max items.length (index + 1) * list.itemSize ≤ (list.data ++ more).length := by
      rcases Nat.le_total items.length (index + 1) with hle | hle
      · rw [Nat.max_eq_right hle]
        exact hroom
      · rw [Nat.max_eq_left hle]
        exact hg.reaches
    obtain ⟨gap, hgap, hreach⟩ := hg.reach (Nat.le_max_left _ _) hmax
    have hindex : index < (items ++ gap).length := by
      rw [List.length_append, hgap]
      omega
    obtain ⟨data, hcopy, hlen, hholds⟩ := hreach.overwrite hindex hval
    refine .inr ⟨hnone, _, _, ?_, hholds, ⟨rfl, rfl, fun hs => ?_⟩, gap, ?_, rfl⟩
    · have hsmall : index + 1 < 2 ^ 64 := by
        have hle : index + 1 ≤ (index + 1) * list.itemSize := Nat.le_mul_of_pos_right _ h.wide
        omega
      rw [awsArrayListSetAt, hgrown]
      change (inside (copyIn (list.data ++ more) (list.itemSize * index) val) >>= _) = _
      rw [show copyIn (list.data ++ more) (list.itemSize * index) val = some data from hcopy]
      change (if index ≥ list.length then _ else _) = _
      rw [h.length]
      by_cases hlonger : index ≥ items.length
      · rw [if_pos hlonger, awsAddSizeChecked_one hsmall, Nat.max_eq_right (by omega)]
        rfl
      · rw [if_neg hlonger, Nat.max_eq_left (by omega)]
        rfl
    · rw [hstatic hs, List.append_nil] at hlen
      exact hlen
    · rw [hgap]
      omega

theorem awsArrayListPushBack_cases (h : Holds list items) (junk : Nat → UInt8) (hval : val.length = list.itemSize) :
    (∃ e, obstacle list (items.length + 1) = some e ∧ awsArrayListPushBack junk list val = raise (full e)) ∨
      obstacle list (items.length + 1) = none ∧
        Gives list (awsArrayListPushBack junk list val) (· = items ++ [val]) := by
  rw [awsArrayListPushBack, h.length]
  rcases awsArrayListSetAt_cases h junk hval items.length with
    ⟨e, he, hraise⟩ | ⟨hnone, list', items', hset, hholds, halike, hstored⟩
  · refine .inl ⟨e, he, ?_⟩
    rw [hraise]
    exact reportFull_raise he
  · refine .inr ⟨hnone, list', items', ?_, hholds, halike, hstored.push_back⟩
    rw [hset]
    rfl

theorem awsArrayListPushFront_cases (h : Holds list items) (junk : Nat → UInt8) (hval : val.length = list.itemSize) :
    (∃ e, obstacle list (items.length + 1) = some e ∧ awsArrayListPushFront junk list val = raise (full e)) ∨
      obstacle list (items.length + 1) = none ∧
        Gives list (awsArrayListPushFront junk list val) (· = val :: items) := by
  rw [awsArrayListPushFront, h.length]
  rcases awsArrayListEnsureCapacity_cases h.wide h.small junk items.length with
    ⟨e, he, hraise⟩ | ⟨hnone, more, hgrown, hroom, hlt, hstatic⟩
  · refine .inl ⟨e, he, ?_⟩
    rw [hraise, reportFull_raise he]
    rfl
  · obtain ⟨head, rest, hmove, hhead, hlen⟩ := (h.grow more hlt).make_room hroom
    have hput : copyIn (head ++ items.flatten ++ rest) 0 val = some (val ++ items.flatten ++ rest) := by
      have hfirst := copyIn_append [] head (items.flatten ++ rest) val (hhead.trans hval.symm)
      rw [List.nil_append, List.nil_append, ← List.append_assoc, ← List.append_assoc] at hfirst
      exact hfirst
    have hsame : (val ++ items.flatten ++ rest).length = (list.data ++ more).length := by
      refine Eq.trans ?_ hlen
      simp only [List.length_append]
      have := hhead.trans hval.symm
      omega
    refine .inr ⟨hnone, ⟨list.alloc, list.itemSize, list.length + 1, val ++ items.flatten ++ rest⟩, val :: items, ?_,
      ⟨h.wide, hsame.trans_lt hlt, congrArg Nat.succ h.length, List.forall_mem_cons.mpr ⟨hval, h.width⟩, ?_⟩,
      ⟨rfl, rfl, fun hs => ?_⟩, rfl⟩
    · rw [hgrown]
      change ((if items.length ≠ 0 then
          inside (move (list.data ++ more) list.itemSize 0 (items.length * list.itemSize))
        else pure (list.data ++ more)) >>= _) = _
      dsimp only at hmove
      rw [hmove]
      change (inside (copyIn (head ++ items.flatten ++ rest) 0 val) >>= _) = _
      rw [hput]
      rfl
    · rw [List.flatten_cons]
      exact List.prefix_append _ _
    · rw [hstatic hs, List.append_nil] at hsame
      exact hsame

theorem awsArrayListPopBack_gives (h : Holds list (items ++ [x])) :
    Gives list (awsArrayListPopBack list) (· = items) := by
  have hlength : list.length = items.length + 1 := h.length.trans List.length_append
  have hindex : items.length < (items ++ [x]).length := by
    rw [List.length_append]
    exact Nat.lt_succ_self _
  obtain ⟨data, hcopy, hlen, hholds⟩ := h.overwrite hindex (List.length_replicate (a := (0 : UInt8)))
  rw [set_middle] at hholds
  refine ⟨_, items, ?_, hholds.shorten, ⟨rfl, rfl, fun _ => hlen⟩, rfl⟩
  rw [awsArrayListPopBack, hlength, if_pos (Nat.succ_pos _), Nat.add_sub_cancel]
  change (inside (copyIn list.data (list.itemSize * items.length) (List.replicate list.itemSize 0)) >>= _) = _
  rw [hcopy]
  rfl

theorem awsArrayListClear_holds (h : Holds list items) :
    Holds (awsArrayListClear list) [] ∧ Alike list (awsArrayListClear list) := by
  rw [awsArrayListClear]
  by_cases hdata : list.data ≠ []
  · rw [if_pos hdata]
    exact ⟨⟨h.wide, h.small, rfl, nofun, List.nil_prefix⟩, rfl, rfl, fun _ => rfl⟩
  · rw [if_neg hdata]
    have hreaches := h.reaches
    rw [not_not.mp hdata, List.length_nil, Nat.le_zero, Nat.mul_eq_zero] at hreaches
    have hnone : items.length = 0 := hreaches.resolve_right (Nat.pos_iff_ne_zero.mp h.wide)
    exact ⟨⟨h.wide, h.small, h.length.trans hnone, nofun, List.nil_prefix⟩, Alike.refl list⟩

theorem awsArrayListPopFrontN_gives (h : Holds list items) (n : Nat) :
    Gives list (awsArrayListPopFrontN list n) (· = items.drop n) := by
  rw [awsArrayListPopFrontN, h.length]
  by_cases hall : n ≥ items.length
  · rw [if_pos hall]
    obtain ⟨hholds, halike⟩ := awsArrayListClear_holds h
    exact ⟨_, [], rfl, hholds, halike, (List.drop_eq_nil_of_le hall).symm⟩
  · rw [if_neg hall]
    by_cases hn : n > 0
    · rw [if_pos hn]
      have hparts : Holds list ([] ++ items.take n ++ items.drop n) := by
        rw [List.nil_append, List.take_append_drop]
        exact h
      obtain ⟨data, hmove, hlen, hfront⟩ := hparts.close_up
      rw [List.length_nil, Nat.zero_mul, Nat.zero_add, List.length_take, List.length_drop, Nat.min_eq_left (by omega),
        Nat.mul_comm n] at hmove
      refine ⟨{ list with data := data, length := items.length - n }, items.drop n, ?_,
        ⟨h.wide, hlen.trans_lt h.small, List.length_drop.symm, fun y hy => h.width y (List.mem_of_mem_drop hy), hfront⟩,
        ⟨rfl, rfl, fun _ => hlen⟩, rfl⟩
      change (inside (move list.data 0 (list.itemSize * n) ((items.length - n) * list.itemSize)) >>= _) = _
      rw [hmove]
      rfl
    · rw [if_neg hn]
      have hzero : n = 0 := by omega
      exact ⟨list, items, rfl, h, Alike.refl list, by rw [hzero, List.drop_zero]⟩

theorem awsArrayListPopFront_gives (h : Holds list items) (hsome : 0 < items.length) :
    Gives list (awsArrayListPopFront list) (· = items.tail) := by
  rw [awsArrayListPopFront, h.length, if_pos hsome, ← List.drop_one]
  exact awsArrayListPopFrontN_gives h 1

theorem awsArrayListErase_gives (h : Holds list items) (hindex : index < items.length) :
    Gives list (awsArrayListErase list index) (· = items.eraseIdx index) := by
  rw [awsArrayListErase, h.length, if_neg (Nat.not_le.mpr hindex)]
  by_cases hfirst : index = 0
  · rw [if_pos hfirst, hfirst, List.eraseIdx_zero]
    exact awsArrayListPopFront_gives h (by omega)
  · rw [if_neg hfirst]
    obtain ⟨xs, ys, hitems, rfl⟩ := exists_split hindex
    generalize items[xs.length] = x at hitems
    subst hitems
    have hlength : (xs ++ x :: ys).length = xs.length + ys.length + 1 := by
      rw [List.length_append, List.length_cons]
      omega
    have herased : (xs ++ x :: ys).eraseIdx xs.length = xs ++ ys := by
      rw [List.eraseIdx_append_of_length_le (Nat.le_refl _), Nat.sub_self, List.eraseIdx_zero]
      rfl
    rw [herased]
    by_cases hlast : xs.length = (xs ++ x :: ys).length - 1
    · rw [if_pos hlast]
      have hnone : ys = [] := List.length_eq_zero_iff.mp (by omega)
      subst hnone
      rw [List.append_nil]
      exact awsArrayListPopBack_gives h
    · rw [if_neg hlast]
      have hparts : Holds list (xs ++ [x] ++ ys) := by
        rw [List.append_assoc]
        exact h
      obtain ⟨data, hmove, hlen, hfront⟩ := hparts.close_up
      have hclosed : Holds { list with data := data, length := (xs ++ ys).length } (xs ++ ys) := by
        refine ⟨h.wide, hlen.trans_lt h.small, rfl, fun y hy => h.width y ?_, hfront⟩
        rcases List.mem_append.mp hy with hy | hy
        · exact List.mem_append_left _ hy
        · exact List.mem_append_right _ (List.mem_cons_of_mem _ hy)
      have hroom : (xs ++ x :: ys).length * list.itemSize ≤ data.length := h.reaches.trans (Nat.le_of_eq hlen.symm)
      have hle : (xs ++ ys).length ≤ (xs ++ x :: ys).length := by
        rw [hlength, List.length_append]
        omega
      -- The place that the last item has left still counts until the list is popped.
      obtain ⟨gap, hgap, hreach⟩ := hclosed.reach hle hroom
      rw [hlength, List.length_append, Nat.add_sub_cancel_left] at hgap
      obtain ⟨last, rfl⟩ := List.length_eq_one_iff.mp hgap
      obtain ⟨list', items', hpop, hholds, halike, rfl⟩ := awsArrayListPopBack_gives hreach
      have hsame : Alike list { list with data := data, length := (xs ++ x :: ys).length } :=
        ⟨rfl, rfl, fun _ => hlen⟩
      refine ⟨list', _, ?_, hholds, hsame.trans halike, rfl⟩
      change (inside (move list.data (xs.length * list.itemSize) (xs.length * list.itemSize + list.itemSize)
        (((xs ++ x :: ys).length - xs.length - 1) * list.itemSize)) >>= _) = _
      rw [List.length_singleton, Nat.succ_mul] at hmove
      rw [show (xs ++ x :: ys).length - xs.length - 1 = ys.length by omega, hmove]
      exact hpop

theorem awsArrayListGetAt_eq (h : Holds list items) (index : Nat) :
    awsArrayListGetAt list index = match items[index]? with | some x => .ok x | none => raise .invalidIndex := by
  rw [awsArrayListGetAt, h.length]
  by_cases hindex : index < items.length
  · rw [if_pos hindex, h.item hindex, List.getElem?_eq_getElem hindex]
    rfl
  · rw [if_neg hindex, List.getElem?_eq_none (Nat.not_lt.mp hindex)]

theorem awsArrayListFront_eq (h : Holds list items) :
    awsArrayListFront list = match items.head? with | some x => .ok x | none => raise .listEmpty := by
  rw [awsArrayListFront, h.length]
  cases items with
  | nil => rfl
  | cons x items =>
      have hfirst : 0 < (x :: items).length := Nat.succ_pos _
      have hitem := h.item hfirst
      rw [Nat.mul_zero] at hitem
      rw [if_pos hfirst, hitem]
      rfl

theorem awsArrayListBack_eq (h : Holds list items) :
    awsArrayListBack list = match items.getLast? with | some x => .ok x | none => raise .listEmpty := by
  rw [awsArrayListBack, h.length]
  rcases List.eq_nil_or_concat' items with rfl | ⟨xs, x, rfl⟩
  · rfl
  · have hlength : (xs ++ [x]).length = xs.length + 1 := List.length_append
    have hlast : xs.length < (xs ++ [x]).length := by
      rw [hlength]
      exact Nat.lt_succ_self _
    have hitem := h.item hlast
    rw [List.getElem_concat_length rfl] at hitem
    rw [hlength, if_pos (Nat.succ_pos _), Nat.add_sub_cancel, List.getLast?_concat]
    change inside (copyOut list.data (list.itemSize * xs.length) list.itemSize) = _
    rw [hitem]
    rfl

theorem awsArrayListShrinkToFit_gives (h : Holds list items) (junk : Nat → UInt8) (halloc : list.alloc = true) :
    Gives list (awsArrayListShrinkToFit junk list) (· = items) := by
  have hlen := flatten_length h.width
  have hreaches := h.reaches
  have hsmall := h.small
  rw [awsArrayListShrinkToFit, if_pos halloc, h.length, awsMulSizeChecked_eq, if_neg (by omega)]
  change Gives list (if items.length * list.itemSize < list.data.length then _ else _) _
  by_cases hslack : items.length * list.itemSize < list.data.length
  · rw [if_pos hslack]
    refine ⟨{ list with data := items.flatten }, items, ?_, ⟨h.wide, ?_, h.length, h.width, List.prefix_refl _⟩,
      ⟨rfl, rfl, fun hstatic => nomatch halloc.symm.trans hstatic⟩, rfl⟩
    · by_cases hpos : items.length * list.itemSize > 0
      · have hcopy : copyIn (acquire junk (items.length * list.itemSize)) 0 items.flatten = some items.flatten := by
          have hall := copyIn_append [] (acquire junk (items.length * list.itemSize)) [] items.flatten
            ((acquire_length _ _).trans hlen.symm)
          rw [List.nil_append, List.append_nil, List.nil_append, List.append_nil] at hall
          exact hall
        rw [if_pos hpos, h.copy_all, Option.bind_some, hcopy, ← h.length]
        rfl
      · have hnone : items.flatten = [] := List.length_eq_zero_iff.mp (by omega)
        rw [if_neg hpos, hnone, ← h.length]
        rfl
    · change items.flatten.length < _
      omega
  · rw [if_neg hslack]
    exact ⟨list, items, rfl, h, Alike.refl list, rfl⟩

end Operations

section Runs

inductive Op
  | pushBack (val : Bytes)
  | pushFront (val : Bytes)
  | setAt (val : Bytes) (index : Nat)
  | popBack
  | popFront
  | popFrontN (n : Nat)
  | erase (index : Nat)
  | clear
  | shrinkToFit
  | front
  | back
  | getAt (index : Nat)

abbrev Answer := Except Error (Option Bytes)

def Op.Fits (itemSize : Nat) : Op → Prop
  | .pushBack val | .pushFront val | .setAt val _ => val.length = itemSize
  | _ => True

def changed (list : State) : Except Fault State → Option (State × Answer)
  | .ok list' => some (list', .ok none)
  | .error (.raised e) => some (list, .error e)
  | .error .outside => none

def looked (list : State) : Except Fault Bytes → Option (State × Answer)
  | .ok val => some (list, .ok (some val))
  | .error (.raised e) => some (list, .error e)
  | .error .outside => none

variable (junk : Nat → UInt8)

def step (list : State) : Op → Option (State × Answer)
  | .pushBack val => changed list (awsArrayListPushBack junk list val)
  | .pushFront val => changed list (awsArrayListPushFront junk list val)
  | .setAt val index => changed list (awsArrayListSetAt junk list val index)
  | .popBack => changed list (awsArrayListPopBack list)
  | .popFront => changed list (awsArrayListPopFront list)
  | .popFrontN n => changed list (awsArrayListPopFrontN list n)
  | .erase index => changed list (awsArrayListErase list index)
  | .clear => some (awsArrayListClear list, .ok none)
  | .shrinkToFit => changed list (awsArrayListShrinkToFit junk list)
  | .front => looked list (awsArrayListFront list)
  | .back => looked list (awsArrayListBack list)
  | .getAt index => looked list (awsArrayListGetAt list index)

def exec (list : State) : List Op → Option (State × List Answer)
  | [] => some (list, [])
  | op :: ops => do
      let (list', answer) ← step junk list op
      let (final, answers) ← exec list' ops
      pure (final, answer :: answers)

end Runs

section Spec

def Outcome (obstacle : Option Error) (items : List Bytes) (wanted : List Bytes → Prop) (answer : Answer)
    (items' : List Bytes) : Prop :=
  match obstacle with
  | some e => answer = .error e ∧ items' = items
  | none => answer = .ok none ∧ wanted items'

def Found (e : Error) (items : List Bytes) (val : Option Bytes) (answer : Answer) (items' : List Bytes) : Prop :=
  items' = items ∧ answer = match val with | some val => .ok (some val) | none => .error e

def empty (items : List Bytes) : Option Error := if items.length = 0 then some .listEmpty else none

/-- What a call does to a list of items. How many items there may be is up to the array that `origin` is. -/
def ListStep (origin : State) (items : List Bytes) : Op → Answer → List Bytes → Prop
  | .pushBack val => Outcome ((obstacle origin (items.length + 1)).map full) items (· = items ++ [val])
  | .pushFront val => Outcome ((obstacle origin (items.length + 1)).map full) items (· = val :: items)
  | .setAt val index => Outcome (obstacle origin (index + 1)) items (Stored items val index)
  | .popBack => Outcome (empty items) items (· = items.dropLast)
  | .popFront => Outcome (empty items) items (· = items.tail)
  | .popFrontN n => Outcome none items (· = items.drop n)
  | .erase index =>
      Outcome (if index < items.length then none else some .invalidIndex) items (· = items.eraseIdx index)
  | .clear => Outcome none items (· = [])
  | .shrinkToFit => Outcome (if origin.alloc then none else some .listStaticModeCantShrink) items (· = items)
  | .front => Found .listEmpty items items.head?
  | .back => Found .listEmpty items items.getLast?
  | .getAt index => Found .invalidIndex items items[index]?

def ListRun (origin : State) (items : List Bytes) : List Op → List Answer → List Bytes → Prop
  | [], [], items' => items' = items
  | op :: ops, answer :: answers, items' =>
      ∃ next, ListStep origin items op answer next ∧ ListRun origin next ops answers items'
  | _, _, _ => False

end Spec

section Results

variable {junk : Nat → UInt8} {origin list : State} {items : List Bytes} {obstacle : Option Error} {e : Error}

/-- A step of both: the array answers as the list, and still holds its items. -/
def Stepped (origin : State) (r : Option (State × Answer)) (wanted : Answer → List Bytes → Prop) : Prop :=
  ∃ list' answer items', r = some (list', answer) ∧ wanted answer items' ∧ Holds list' items' ∧ Alike origin list'

theorem changed_stepped {r : Except Fault State} {wanted : List Bytes → Prop} (halike : Alike origin list)
    (h : Holds list items) (hr : (∃ e, obstacle = some e ∧ r = raise e) ∨ obstacle = none ∧ Gives list r wanted) :
    Stepped origin (changed list r) (Outcome obstacle items wanted) := by
  rcases hr with ⟨e, rfl, rfl⟩ | ⟨rfl, list', items', rfl, hholds, hsame, hwanted⟩
  · exact ⟨list, .error e, items, rfl, ⟨rfl, rfl⟩, h, halike⟩
  · exact ⟨list', .ok none, items', rfl, ⟨rfl, hwanted⟩, hholds, halike.trans hsame⟩

theorem looked_stepped {r : Except Fault Bytes} {val : Option Bytes} (halike : Alike origin list) (h : Holds list items)
    (hr : r = match val with | some val => .ok val | none => raise e) :
    Stepped origin (looked list r) (Found e items val) := by
  subst hr
  cases val with
  | none => exact ⟨list, .error e, items, rfl, ⟨rfl, rfl⟩, h, halike⟩
  | some val => exact ⟨list, .ok (some val), items, rfl, ⟨rfl, rfl⟩, h, halike⟩

theorem full_cases {r : Except Fault State} {wanted : List Bytes → Prop}
    (hr : (∃ e, obstacle = some e ∧ r = raise (full e)) ∨ obstacle = none ∧ Gives list r wanted) :
    (∃ e, obstacle.map full = some e ∧ r = raise e) ∨ obstacle.map full = none ∧ Gives list r wanted := by
  rcases hr with ⟨e, rfl, hraise⟩ | ⟨rfl, hgives⟩
  · exact .inl ⟨full e, rfl, hraise⟩
  · exact .inr ⟨rfl, hgives⟩

theorem step_stepped (junk : Nat → UInt8) (halike : Alike origin list) (h : Holds list items) {op : Op}
    (hfits : op.Fits origin.itemSize) : Stepped origin (step junk list op) (ListStep origin items op) := by
  rw [← halike.itemSize] at hfits
  cases op with
  | pushBack val =>
      rw [ListStep, ← halike.obstacle_eq]
      exact changed_stepped halike h (full_cases (awsArrayListPushBack_cases h junk hfits))
  | pushFront val =>
      rw [ListStep, ← halike.obstacle_eq]
      exact changed_stepped halike h (full_cases (awsArrayListPushFront_cases h junk hfits))
  | setAt val index =>
      rw [ListStep, ← halike.obstacle_eq]
      exact changed_stepped halike h (awsArrayListSetAt_cases h junk hfits index)
  | popBack =>
      apply changed_stepped halike h
      rcases List.eq_nil_or_concat' items with rfl | ⟨xs, x, rfl⟩
      · refine .inl ⟨_, rfl, ?_⟩
        rw [awsArrayListPopBack, h.length]
        rfl
      · rw [List.dropLast_concat, empty, List.length_append, List.length_singleton, if_neg (Nat.succ_ne_zero _)]
        exact .inr ⟨rfl, awsArrayListPopBack_gives h⟩
  | popFront =>
      apply changed_stepped halike h
      cases items with
      | nil =>
          refine .inl ⟨_, rfl, ?_⟩
          rw [awsArrayListPopFront, h.length]
          rfl
      | cons x items => exact .inr ⟨rfl, awsArrayListPopFront_gives h (Nat.succ_pos _)⟩
  | popFrontN n => exact changed_stepped halike h (.inr ⟨rfl, awsArrayListPopFrontN_gives h n⟩)
  | erase index =>
      apply changed_stepped halike h
      by_cases hindex : index < items.length
      · rw [if_pos hindex]
        exact .inr ⟨rfl, awsArrayListErase_gives h hindex⟩
      · rw [if_neg hindex]
        refine .inl ⟨_, rfl, ?_⟩
        rw [awsArrayListErase, h.length, if_pos (Nat.not_lt.mp hindex)]
  | clear =>
      obtain ⟨hholds, hsame⟩ := awsArrayListClear_holds h
      exact ⟨awsArrayListClear list, .ok none, [], rfl, ⟨rfl, rfl⟩, hholds, halike.trans hsame⟩
  | shrinkToFit =>
      apply changed_stepped halike h
      rw [← halike.alloc]
      cases halloc : list.alloc with
      | true => exact .inr ⟨rfl, awsArrayListShrinkToFit_gives h junk halloc⟩
      | false =>
          refine .inl ⟨_, rfl, ?_⟩
          rw [awsArrayListShrinkToFit, halloc]
          rfl
  | front => exact looked_stepped halike h (awsArrayListFront_eq h)
  | back => exact looked_stepped halike h (awsArrayListBack_eq h)
  | getAt index => exact looked_stepped halike h (awsArrayListGetAt_eq h index)

theorem exec_spec (ops : List Op) (hfits : ∀ op ∈ ops, op.Fits origin.itemSize) (halike : Alike origin list)
    (h : Holds list items) :
    ∃ list' answers items', exec junk list ops = some (list', answers) ∧ ListRun origin items ops answers items' ∧
      Holds list' items' := by
  induction ops generalizing list items with
  | nil => exact ⟨list, [], items, rfl, rfl, h⟩
  | cons op ops ih =>
      obtain ⟨hop, hops⟩ := List.forall_mem_cons.mp hfits
      obtain ⟨next, answer, items₁, hstep, hlist, hholds, hsame⟩ := step_stepped junk halike h hop
      obtain ⟨list', answers, items', hexec, hrun, hholds'⟩ := ih hops hsame hholds
      refine ⟨list', answer :: answers, items', ?_, ⟨items₁, hlist, hrun⟩, hholds'⟩
      rw [exec, hstep, Option.bind_eq_bind, Option.bind_some]
      change (exec junk next ops >>= _) = _
      rw [hexec]
      rfl

def New (junk : Nat → UInt8) (list : State) : Prop :=
  (∃ initialItemAllocation itemSize, awsArrayListInitDynamic junk initialItemAllocation itemSize = .ok list) ∨
    ∃ rawArray itemSize, rawArray.length < 2 ^ 64 ∧ list = awsArrayListInitStatic rawArray itemSize

theorem New.holds (h : New junk list) (hk : 0 < list.itemSize) : Holds list [] := by
  rcases h with ⟨count, itemSize, hinit⟩ | ⟨rawArray, itemSize, hsmall, rfl⟩
  · rw [awsArrayListInitDynamic, awsMulSizeChecked_eq] at hinit
    split at hinit
    · cases hinit
    · rename_i hsmall
      cases hinit
      refine ⟨hk, ?_, rfl, nofun, List.nil_prefix⟩
      change (acquire junk _).length < _
      rw [acquire_length]
      omega
  · exact ⟨hk, hsmall, rfl, nofun, List.nil_prefix⟩

/-- No call of any run goes outside the data of the array, and all answers are those of a list of items. -/
theorem array_is_list (hnew : New junk origin) (hk : 0 < origin.itemSize) (ops : List Op)
    (hfits : ∀ op ∈ ops, op.Fits origin.itemSize) :
    ∃ list answers items, exec junk origin ops = some (list, answers) ∧ ListRun origin [] ops answers items ∧
      list.length = items.length ∧ items.flatten <+: list.data := by
  obtain ⟨list, answers, items, hexec, hrun, hholds⟩ := exec_spec ops hfits (Alike.refl origin) (hnew.holds hk)
  exact ⟨list, answers, items, hexec, hrun, hholds.length, hholds.front⟩

/-- One byte an item, in an array that is too small at first. -/
theorem array_is_list_bytes :
    ∃ list answers items,
      exec (fun _ => 255) ⟨true, 1, 0, [255]⟩ [.pushBack [5], .pushFront [6], .setAt [7] 3, .erase 1, .getAt 0] =
        some (list, answers) ∧
      ListRun ⟨true, 1, 0, [255]⟩ [] [.pushBack [5], .pushFront [6], .setAt [7] 3, .erase 1, .getAt 0] answers items ∧
      list.length = items.length ∧ items.flatten <+: list.data :=
  array_is_list (.inl ⟨1, 1, rfl⟩) Nat.one_pos _ (by simp [Op.Fits])

end Results

end OneSdk.ArrayList
