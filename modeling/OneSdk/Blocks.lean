import Mathlib.Data.List.Basic

namespace OneSdk.Blocks

variable {α : Type} {block p q src rest : List α} {a : α} {n : Nat}

/-- A copy into an array, or none where it would leave the array. -/
def copyIn (block : List α) (start : Nat) (src : List α) : Option (List α) :=
  if start + src.length ≤ block.length then some (block.take start ++ src ++ block.drop (start + src.length))
  else none

def copyOut (block : List α) (start n : Nat) : Option (List α) :=
  if start + n ≤ block.length then some ((block.drop start).take n) else none

/-- The two places may overlap: all of the source is read before anything is written. -/
def move (block : List α) (dst src n : Nat) : Option (List α) := (copyOut block src n).bind (copyIn block dst)

def copyString (block : List α) (start : Nat) (src : List α) (a : α) : Option (List α) :=
  (copyIn block start src).bind (fun block => copyIn block (start + src.length) [a])

/-- A block that is given another size. What it holds beyond its old size is left open. -/
def resize (junk : Nat → α) (block : List α) (n : Nat) : List α :=
  block.take n ++ (List.range (n - block.length)).map junk

theorem copyIn_append (p q rest src : List α) (h : q.length = src.length) :
    copyIn (p ++ q ++ rest) p.length src = some (p ++ src ++ rest) := by
  have hroom : p.length + src.length ≤ (p ++ q ++ rest).length := by
    simp only [List.length_append]
    omega
  have htake : (p ++ q ++ rest).take p.length = p := by
    rw [List.append_assoc]
    exact List.take_left
  have hdrop : (p ++ q ++ rest).drop (p.length + src.length) = rest := by
    rw [← h, ← List.length_append]
    exact List.drop_left
  rw [copyIn, if_pos hroom, htake, hdrop]

theorem copyIn_none (h : block.length < n + src.length) : copyIn block n src = none := if_neg (Nat.not_le.mpr h)

theorem copyOut_append (p q rest : List α) : copyOut (p ++ q ++ rest) p.length q.length = some q := by
  have hroom : p.length + q.length ≤ (p ++ q ++ rest).length := by
    simp only [List.length_append]
    omega
  have hdrop : (p ++ q ++ rest).drop p.length = q ++ rest := by
    rw [List.append_assoc]
    exact List.drop_left
  rw [copyOut, if_pos hroom, hdrop, List.take_left]

theorem copyString_append (p q rest src : List α) (a b : α) (h : q.length = src.length) :
    copyString (p ++ q ++ b :: rest) p.length src a = some (p ++ src ++ a :: rest) := by
  have hend : copyIn (p ++ src ++ b :: rest) (p ++ src).length [a] = some (p ++ src ++ a :: rest) := by
    have hone := copyIn_append (p ++ src) [b] rest [a] rfl
    rw [List.append_assoc (p ++ src), List.append_assoc (p ++ src)] at hone
    exact hone
  rw [copyString, copyIn_append p q _ src h, Option.bind_some, ← List.length_append]
  exact hend

theorem copyIn_room (h : p <+: block) (hroom : p.length + src.length ≤ block.length) :
    ∃ rest, copyIn block p.length src = some (p ++ src ++ rest) ∧ (p ++ src ++ rest).length = block.length := by
  obtain ⟨tail, rfl⟩ := h
  rw [List.length_append] at hroom
  have hq : (tail.take src.length).length = src.length := by
    rw [List.length_take]
    omega
  refine ⟨tail.drop src.length, ?_, ?_⟩
  · conv_lhs => rw [← List.take_append_drop src.length tail, ← List.append_assoc]
    exact copyIn_append p _ _ src hq
  · simp only [List.length_append, List.length_drop]
    omega

theorem copyString_room (h : p <+: block) (hroom : p.length + src.length < block.length) (a : α) :
    ∃ rest, copyString block p.length src a = some (p ++ src ++ a :: rest) ∧
      (p ++ src ++ a :: rest).length = block.length := by
  obtain ⟨behind, hcopy, hsame⟩ := copyIn_room h (Nat.le_of_lt hroom)
  have hfits : (p ++ src).length + [a].length ≤ (p ++ src ++ behind).length := by
    rw [hsame, List.length_append]
    exact hroom
  obtain ⟨rest, hend, hlen⟩ := copyIn_room (List.prefix_append (p ++ src) behind) hfits
  have hcons : p ++ src ++ [a] ++ rest = p ++ src ++ a :: rest := List.append_assoc (p ++ src) [a] rest
  rw [hcons] at hend hlen
  refine ⟨rest, ?_, hlen.trans hsame⟩
  rw [copyString, hcopy, Option.bind_some, ← List.length_append]
  exact hend

theorem resize_length (junk : Nat → α) (block : List α) (n : Nat) : (resize junk block n).length = n := by
  rw [resize, List.length_append, List.length_map, List.length_range, List.length_take]
  omega

theorem prefix_resize (junk : Nat → α) (h : p <+: block) (hn : p.length ≤ n) : p <+: resize junk block n := by
  rw [resize]
  apply List.IsPrefix.trans (List.prefix_take_iff.mpr ⟨h, hn⟩)
  exact List.prefix_append _ _

end OneSdk.Blocks
