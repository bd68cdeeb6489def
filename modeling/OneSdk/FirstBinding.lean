import Mathlib.Data.List.Nodup

namespace OneSdk.FirstBinding

variable {α κ : Type} [DecidableEq κ] (key : α → κ)

def lookup (k : κ) (xs : List α) : Option α := xs.find? (fun x => key x = k)

def insertNew (xs : List α) (x : α) : List α := if xs.any (fun y => key x = key y) then xs else xs ++ [x]

variable {key} {k : κ} {x : α} {xs ys : List α}

theorem lookup_append : lookup key k (xs ++ ys) = (lookup key k xs).or (lookup key k ys) := List.find?_append

theorem mem_of_lookup (h : lookup key k xs = some x) : x ∈ xs := List.mem_of_find?_eq_some h

theorem lookup_isSome_iff : (lookup key k xs).isSome ↔ k ∈ xs.map key := by
  simp only [lookup, List.find?_isSome, List.mem_map, decide_eq_true_eq]

theorem lookup_shadowed (h : ∀ y ∈ ys, key y ∈ xs.map key) : lookup key k (xs ++ ys) = lookup key k xs := by
  rw [lookup_append]
  cases hx : lookup key k xs with
  | some x => rfl
  | none =>
      rw [Option.none_or]
      cases hy : lookup key k ys with
      | none => rfl
      | some y =>
          have hk : key y = k := by simpa using List.find?_some hy
          have hb : (lookup key k xs).isSome := lookup_isSome_iff.mpr (hk ▸ h y (mem_of_lookup hy))
          rw [hx] at hb
          exact absurd hb Bool.false_ne_true

theorem any_key_iff : xs.any (fun y => key x = key y) = true ↔ key x ∈ xs.map key := by
  rw [List.any_eq_true, List.mem_map]
  constructor
  · rintro ⟨y, hy, hk⟩
    exact ⟨y, hy, (of_decide_eq_true hk).symm⟩
  · rintro ⟨y, hy, hk⟩
    exact ⟨y, hy, decide_eq_true hk.symm⟩

theorem lookup_insertNew : lookup key k (insertNew key xs x ++ ys) = lookup key k (xs ++ x :: ys) := by
  rw [insertNew]
  split
  next hx =>
    have hs : lookup key k (xs ++ [x]) = lookup key k xs := by
      apply lookup_shadowed
      intro y hy
      rw [List.mem_singleton.mp hy]
      exact any_key_iff.mp hx
    have happ : xs ++ x :: ys = (xs ++ [x]) ++ ys := by rw [List.append_assoc, List.singleton_append]
    rw [happ, lookup_append, lookup_append, hs]
  next => rw [List.append_assoc, List.singleton_append]

theorem lookup_insertAll : lookup key k (ys.foldl (insertNew key) xs) = lookup key k (xs ++ ys) := by
  induction ys generalizing xs with
  | nil => rw [List.foldl_nil, List.append_nil]
  | cons y ys ih => rw [List.foldl_cons, ih, lookup_insertNew]

theorem nodup_insertNew (h : (xs.map key).Nodup) : ((insertNew key xs x).map key).Nodup := by
  rw [insertNew]
  split
  · exact h
  next hx =>
    rw [List.map_append, List.map_singleton, ← List.concat_eq_append]
    exact h.concat (fun hm => hx (any_key_iff.mpr hm))

theorem nodup_insertAll (h : (xs.map key).Nodup) : ((ys.foldl (insertNew key) xs).map key).Nodup := by
  induction ys generalizing xs with
  | nil => exact h
  | cons y ys ih => exact ih (nodup_insertNew h)

end OneSdk.FirstBinding
