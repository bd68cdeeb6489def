import OneSdk.CString

namespace OneSdk

/-- The bytes from the start of an object on, also those behind its end. -/
abbrev Memory := Nat → UInt8

end OneSdk

namespace OneSdk.Memory

open CString

def write (m : Memory) (start : Nat) (bytes : Bytes) : Memory :=
  fun i => if start ≤ i ∧ i < start + bytes.length then bytes.getD (i - start) 0 else m i

def contents (m : Memory) (n : Nat) : Bytes := (List.range n).map m

variable {m : Memory} {n start : Nat} {bytes : Bytes}

@[simp] theorem contents_length : (contents m n).length = n := by rw [contents, List.length_map, List.length_range]

theorem contents_succ : contents m (n + 1) = contents m n ++ [m n] := by
  rw [contents, contents, List.range_succ, List.map_append, List.map_singleton]

theorem contents_congr {m' : Memory} (h : ∀ i < n, m i = m' i) : contents m n = contents m' n :=
  List.map_congr_left (fun i hi => h i (List.mem_range.mp hi))

theorem write_behind {i : Nat} (h : start + bytes.length ≤ i) : write m start bytes i = m i := by
  rw [write, if_neg]
  omega

theorem contents_write_before (h : n ≤ start) : contents (write m start bytes) n = contents m n := by
  apply contents_congr
  intro i hi
  rw [write, if_neg]
  omega

theorem contents_getElem {i : Nat} (h : i < (contents m n).length) : (contents m n)[i] = m i := by
  simp only [contents, List.getElem_map, List.getElem_range]

theorem contents_write : contents (write m start bytes) (start + bytes.length) = contents m start ++ bytes := by
  apply List.ext_getElem
  · rw [contents_length, List.length_append, contents_length]
  · intro i hi hi'
    rw [contents_length] at hi
    rw [contents_getElem, write]
    by_cases hs : i < start
    · rw [if_neg (by omega), List.getElem_append_left (by rwa [contents_length]), contents_getElem]
    · rw [if_pos (by omega), List.getElem_append_right (by rw [contents_length]; omega),
        List.getD_eq_getElem?_getD, List.getElem?_eq_getElem (by omega), Option.getD_some]
      simp only [contents_length]

theorem contents_split {k : Nat} (h : k ≤ n) : ∃ rest, contents m n = contents m k ++ rest := by
  refine ⟨(contents m n).drop k, ?_⟩
  have htake : (contents m n).take k = contents m k := by
    rw [contents, contents, ← List.map_take, List.take_range, Nat.min_eq_left h]
  rw [← htake, List.take_append_drop]

theorem cstr_contents {text : Bytes} (htext : (0 : UInt8) ∉ text) (hn : text.length < n)
    (h : contents m (text.length + 1) = text ++ [0]) :
    0 ∈ contents m n ∧ cstr (contents m n) = text := by
  obtain ⟨rest, hrest⟩ := contents_split (m := m) (Nat.succ_le_of_lt hn)
  rw [hrest, h, List.append_assoc, cstr_append, if_neg htext]
  refine ⟨?_, ?_⟩
  · exact List.mem_append_right _ (List.mem_append_left _ List.mem_cons_self)
  · rw [List.singleton_append, cstr, List.takeWhile_cons_of_neg (by decide), List.append_nil]

end OneSdk.Memory
