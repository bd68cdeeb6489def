import Mathlib.Data.Nat.Bitwise
import Mathlib.Data.Nat.Size
import OneSdk.HashTable
import OneSdk.KeyClasses

namespace OneSdk.HashTable

open ProbeRing KeyClasses

variable {K V : Type}

section Masks

structure IsMask (mask size : Nat) : Prop where
  power : ∃ k < 64, size = 2 ^ k
  pred : mask = size - 1

variable {mask size : Nat}

theorem IsMask.pos (h : IsMask mask size) : 0 < size := by
  obtain ⟨k, _, rfl⟩ := h.power
  exact Nat.two_pow_pos k

theorem IsMask.dvd (h : IsMask mask size) : size ∣ 2 ^ 64 := by
  obtain ⟨k, hk, rfl⟩ := h.power
  exact Nat.pow_dvd_pow 2 (Nat.le_of_lt hk)

theorem IsMask.and (h : IsMask mask size) (x : Nat) : x &&& mask = x % size := by
  rw [h.pred]
  obtain ⟨k, _, rfl⟩ := h.power
  exact Nat.and_two_pow_sub_one_eq_mod x k

theorem IsMask.index (h : IsMask mask size) (x : Nat) : x % 2 ^ 64 &&& mask = x % size := by
  rw [h.and, Nat.mod_mod_of_dvd _ h.dvd]

theorem IsMask.sub64 (h : IsMask mask size) (i x : Nat) : sub64 i x &&& mask = distance size x i := by
  rw [HashTable.sub64, h.index, distance]
  have hx : x % 2 ^ 64 ≤ 2 ^ 64 := Nat.le_of_lt (Nat.mod_lt _ (by decide))
  have hr : x % size ≤ size := Nat.le_of_lt (Nat.mod_lt _ h.pos)
  refine Nat.ModEq.add (Nat.mod_modEq i size).symm (Nat.ModEq.add_right_cancel (c := x % 2 ^ 64) (d := x % size) ?_ ?_)
  · rw [Nat.ModEq, Nat.mod_mod, Nat.mod_mod_of_dvd _ h.dvd]
  · rw [Nat.ModEq, Nat.sub_add_cancel hx, Nat.sub_add_cancel hr, Nat.mod_self]
    exact Nat.mod_eq_zero_of_dvd h.dvd

end Masks

section Growth

theorem testBit_spread {n x s : Nat} (h : ∀ i, x.testBit i = true ↔ ∃ j < s, n.testBit (i + j) = true) (i : Nat) :
    (x ||| x >>> s).testBit i = true ↔ ∃ j < s + s, n.testBit (i + j) = true := by
  rw [Nat.testBit_or, Nat.testBit_shiftRight, Bool.or_eq_true, h, h]
  constructor
  · rintro (⟨j, hj, hbit⟩ | ⟨j, hj, hbit⟩)
    · exact ⟨j, by omega, hbit⟩
    · exact ⟨s + j, by omega, by rwa [show i + (s + j) = s + i + j by omega]⟩
  · rintro ⟨j, hj, hbit⟩
    rcases Nat.lt_or_ge j s with hlt | hge
    · exact Or.inl ⟨j, hlt, hbit⟩
    · exact Or.inr ⟨j - s, by omega, by rwa [show s + i + (j - s) = i + j by omega]⟩

theorem roundUpToPowerOfTwo_eq {n : Nat} (hn : 0 < n) (hle : n ≤ 2 ^ 63) :
    roundUpToPowerOfTwo n = some (2 ^ (n - 1).size) := by
  have h0 : ∀ i, (n - 1).testBit i = true ↔ ∃ j < 1, (n - 1).testBit (i + j) = true := by
    intro i
    constructor
    · exact fun h => ⟨0, Nat.one_pos, h⟩
    · rintro ⟨j, hj, h⟩
      rwa [Nat.lt_one_iff.mp hj] at h
  have hspread := testBit_spread (testBit_spread (testBit_spread (testBit_spread (testBit_spread (testBit_spread h0)))))
  rw [roundUpToPowerOfTwo, if_neg (by omega), if_neg (by omega), Option.some.injEq]
  generalize (_ ||| _ >>> 32 : Nat) = x at hspread ⊢
  have hx : x = 2 ^ (n - 1).size - 1 := by
    refine Nat.eq_of_testBit_eq fun i => Bool.eq_iff_iff.mpr ?_
    rw [hspread, Nat.testBit_two_pow_sub_one, decide_eq_true_eq, Nat.lt_size]
    constructor
    · rintro ⟨j, _, hbit⟩
      exact (Nat.pow_le_pow_right (by decide) (Nat.le_add_right i j)).trans (Nat.ge_two_pow_of_testBit hbit)
    · intro hi
      obtain ⟨j, hj, hbit⟩ := Nat.exists_ge_and_testBit_of_ge_two_pow hi
      have hlt : j < 64 := by
        by_contra hge
        have := Nat.ge_two_pow_of_testBit hbit
        have := Nat.pow_le_pow_right (show 0 < 2 by decide) (Nat.not_lt.mp hge)
        omega
      exact ⟨j - i, by omega, by rwa [Nat.add_sub_cancel' hj]⟩
  rw [hx, Nat.sub_add_cancel (Nat.two_pow_pos _)]

theorem roundUpToPowerOfTwo_pow {k : Nat} (hk : k < 64) : roundUpToPowerOfTwo (2 ^ k) = some (2 ^ k) := by
  have hle : 2 ^ k ≤ 2 ^ 63 := Nat.pow_le_pow_right (by decide) (by omega)
  rw [roundUpToPowerOfTwo_eq (Nat.two_pow_pos k) hle]
  congr 2
  refine Nat.le_antisymm (Nat.size_le.mpr (Nat.sub_lt (Nat.two_pow_pos k) Nat.one_pos)) ?_
  cases k with
  | zero => exact Nat.zero_le _
  | succ k =>
      rw [Nat.succ_le_iff, Nat.lt_size, Nat.pow_succ]
      have := Nat.two_pow_pos k
      omega

theorem roundUpToPowerOfTwo_cases {n : Nat} (hn : 2 ≤ n) :
    (∃ k < 64, roundUpToPowerOfTwo n = some (2 ^ k) ∧ ∀ j, n ≤ 2 ^ j ↔ k ≤ j) ∨
      2 ^ 63 < n ∧ roundUpToPowerOfTwo n = none := by
  rcases Nat.lt_or_ge (2 ^ 63) n with hgt | hle
  · exact Or.inr ⟨hgt, by rw [roundUpToPowerOfTwo, if_neg (by omega), if_pos hgt]⟩
  · refine Or.inl ⟨(n - 1).size, ?_, roundUpToPowerOfTwo_eq (by omega) hle, fun j => ?_⟩
    · exact Nat.lt_succ_of_le (Nat.size_le.mpr (by omega))
    · rw [Nat.size_le]
      omega

theorem loadOf_lt {size : Nat} (h : 0 < size) : loadOf size < size := by
  rw [loadOf]
  omega

theorem le_loadOf_double (size : Nat) : size ≤ loadOf (size * 2) := by
  rw [loadOf]
  omega

theorem hashTableStateRequiredBytes_isSome {k : Nat} (hk : k < 64) :
    (hashTableStateRequiredBytes (2 ^ k)).isSome ↔ k < 60 := by
  rw [hashTableStateRequiredBytes, awsMulSizeChecked]
  rcases Nat.lt_or_ge k 60 with hlt | hge
  · have hle : 2 ^ k ≤ 2 ^ 59 := Nat.pow_le_pow_right (by decide) (by omega)
    rw [if_neg (by omega)]
    refine iff_of_true ?_ hlt
    dsimp only [Option.bind_eq_bind, Option.bind_some]
    rw [awsAddSizeChecked, if_neg (by omega)]
    rfl
  · have hle : 2 ^ 60 ≤ 2 ^ k := Nat.pow_le_pow_right (by decide) hge
    rw [if_pos (by omega)]
    exact iff_of_false Bool.false_ne_true (by omega)

end Growth

section Ring

def occupied (entry : Entry K V) : Option (Entry K V) := if entry.hashCode = 0 then none else some entry

def ring (slots : List (Entry K V)) : List (Option (Entry K V)) := slots.map occupied

def entries (state : State K V) : List (Entry K V) := (ring state.slots).reduceOption

variable {slots : List (Entry K V)} {entry e : Entry K V} {mask i k h p : Nat}

theorem occupied_zero : occupied (Entry.zero : Entry K V) = none := rfl

theorem occupied_of_ne (h : entry.hashCode ≠ 0) : occupied entry = some entry := if_neg h

theorem occupied_eq_some : occupied entry = some e ↔ entry = e ∧ e.hashCode ≠ 0 := by
  rw [occupied]
  split
  · next h =>
      refine iff_of_false (by simp) ?_
      rintro ⟨rfl, hne⟩
      exact hne h
  · next h =>
      rw [Option.some.injEq]
      constructor
      · rintro rfl
        exact ⟨rfl, h⟩
      · exact And.left

theorem length_ring (slots : List (Entry K V)) : (ring slots).length = slots.length := List.length_map ..

theorem place_ring (slots : List (Entry K V)) (i : Nat) :
    place (ring slots) i = occupied (slotAt slots (i % slots.length)) := by
  rw [place, length_ring, slotAt, ring, ← occupied_zero (K := K) (V := V), List.getD_map]

theorem ring_set (slots : List (Entry K V)) (i : Nat) (entry : Entry K V) :
    ring (slots.set i entry) = (ring slots).set i (occupied entry) := List.map_set

theorem entries_cons_zero (h : entry.hashCode = 0) :
    (ring (entry :: slots)).reduceOption = (ring slots).reduceOption := by
  rw [ring, List.map_cons, occupied, if_pos h]
  rfl

theorem entries_cons_some (h : entry.hashCode ≠ 0) :
    (ring (entry :: slots)).reduceOption = entry :: (ring slots).reduceOption := by
  rw [ring, List.map_cons, occupied_of_ne h]
  rfl

theorem ring_replicate (n : Nat) : ring (List.replicate n (Entry.zero : Entry K V)) = List.replicate n none := by
  rw [ring, List.map_replicate, occupied_zero]

end Ring

section Loops

variable {slots : List (Entry K V)} {mask : Nat} (hm : IsMask mask slots.length)

include hm

theorem findEntry1_eq [DecidableEq K] (c : Callbacks K V) {state : State K V} (hs : state.slots = slots)
    (hmask : state.mask = mask) (h : Nat) (key : Option K) (fuel p : Nat) :
    findEntry1 c state h key fuel p =
      (probe (isEntryFor c h key) Entry.hashCode h (ring slots) fuel p).map
        (fun r => (r.1, (h + r.2) % slots.length, r.2)) := by
  subst hs hmask
  induction fuel generalizing p with
  | zero => rfl
  | succ fuel ih =>
      rw [findEntry1, probe, place_ring, hm.index, occupied]
      by_cases hzero : (slotAt state.slots ((h + p) % state.slots.length)).hashCode = 0
      · rw [if_pos hzero, if_pos hzero]
        rfl
      · rw [if_neg hzero, if_neg hzero]
        dsimp only
        by_cases hhit : isEntryFor c h key (slotAt state.slots ((h + p) % state.slots.length)) = true
        · rw [if_pos hhit, if_pos hhit]
          rfl
        · rw [if_neg hhit, if_neg hhit, hm.sub64, length_ring, distance_mod]
          by_cases hnear : distance state.slots.length
            (slotAt state.slots ((h + p) % state.slots.length)).hashCode (h + p) < p
          · rw [if_pos hnear, if_pos hnear]
            rfl
          · rw [if_neg hnear, if_neg hnear, ih]

theorem emplaceLoop_eq (fuel : Nat) (rval : Option Nat) {entry : Entry K V} (hentry : entry.hashCode ≠ 0) (p : Nat) :
    (emplaceLoop mask fuel slots rval entry p).map (fun r => (ring r.1, r.2)) =
      (emplace Entry.hashCode fuel (ring slots) rval entry p).map (fun r => (r.1, some r.2)) := by
  induction fuel generalizing slots rval entry p with
  | zero =>
      rw [emplaceLoop, if_neg hentry]
      rfl
  | succ fuel ih =>
      have hset (i : Nat) (entry : Entry K V) : IsMask mask (slots.set i entry).length := by rwa [List.length_set]
      rw [emplaceLoop, if_neg hentry, emplace, hm.index, length_ring]
      dsimp only
      rw [place_ring, Nat.mod_mod, hm.sub64, distance_mod]
      generalize hvictim : slotAt slots ((entry.hashCode + p) % slots.length) = victim
      rw [occupied]
      by_cases hzero : victim.hashCode = 0
      · rw [if_pos (Or.inl hzero), if_pos hzero, ← occupied_of_ne hentry, ← ring_set]
        cases fuel with
        | zero =>
            rw [emplaceLoop, if_pos hzero]
            rfl
        | succ fuel =>
            rw [emplaceLoop, if_pos hzero]
            rfl
      · rw [if_neg hzero]
        dsimp only
        rw [distance_mod]
        by_cases hnear : distance slots.length victim.hashCode (entry.hashCode + p) < p
        · rw [if_pos (Or.inr hnear), if_pos hnear, ← occupied_of_ne hentry, ← ring_set, ih (hset _ _) _ hzero]
        · rw [if_neg (not_or.mpr ⟨hzero, hnear⟩), if_neg hnear, ih hm _ hentry]

theorem removeLoop_eq (fuel i : Nat) :
    (removeLoop mask fuel slots (i % slots.length)).map (fun r => (ring r.1, r.2)) =
      (withdraw Entry.hashCode fuel (ring slots) i).map (fun r => (r.1, r.2 % slots.length)) := by
  induction fuel generalizing slots i with
  | zero => rfl
  | succ fuel ih =>
      rw [removeLoop, withdraw, hm.index, Nat.mod_add_mod, place_ring, length_ring]
      generalize hnext : slotAt slots ((i + 1) % slots.length) = next
      rw [occupied]
      by_cases hzero : next.hashCode = 0
      · rw [if_pos hzero, if_pos hzero, ← occupied_zero (K := K) (V := V), ← ring_set]
        rfl
      · rw [if_neg hzero, if_neg hzero, hm.and]
        dsimp only
        by_cases hhome : next.hashCode % slots.length = (i + 1) % slots.length
        · rw [if_pos hhome, if_pos hhome, ← occupied_zero (K := K) (V := V), ← ring_set]
          rfl
        · rw [if_neg hhome, if_neg hhome, ← occupied_of_ne hzero, ← ring_set]
          have hset : IsMask mask (slots.set (i % slots.length) next).length := by rwa [List.length_set]
          have hrest := ih hset (i + 1)
          rwa [List.length_set] at hrest

end Loops

end OneSdk.HashTable
