import OneSdk.McpClient

namespace OneSdk.McpRequestIds

open McpClient

def requestIds : Nat → Nat → List Nat
  | 0, _ => []
  | n + 1, counter => (getJsonrpcRequestId counter).1 :: requestIds n (getJsonrpcRequestId counter).2

def jsonrpcRequestId : Nat := 1

/-- What the calls have left in the counter. It is back at its first value after 65535 of them. -/
def counterAfter (k : Nat) : Nat := k % 65535 + 1

def idAt (k : Nat) : Nat := (getJsonrpcRequestId (counterAfter k)).1

/-- The ids are within the range, and two of them are the same only where the calls are
at least 65534 apart. -/
structure Apart (ids : List Nat) : Prop where
  range : ∀ id ∈ ids, 1 ≤ id ∧ id ≤ 65534
  differ : ∀ i j a b, i < j → j - i < 65534 → ids[i]? = some a → ids[j]? = some b → a ≠ b

theorem counter_next (k : Nat) : (getJsonrpcRequestId (counterAfter k)).2 = counterAfter (k + 1) := by
  rw [getJsonrpcRequestId, counterAfter, counterAfter]
  split
  · dsimp only
    omega
  · dsimp only
    omega

theorem requestIds_eq_map (n k : Nat) : requestIds n (counterAfter k) = (List.range' k n).map idAt := by
  induction n generalizing k with
  | zero => rfl
  | succ n ih =>
      rw [requestIds, counter_next, ih, List.range'_succ, List.map_cons]
      rfl

theorem requestIds_start (n : Nat) : requestIds n jsonrpcRequestId = (List.range n).map idAt := by
  rw [List.range_eq_range']
  exact requestIds_eq_map n 0

theorem requestIds_getElem {n k : Nat} (hk : k < n) : (requestIds n jsonrpcRequestId)[k]? = some (idAt k) := by
  rw [requestIds_start, List.getElem?_map, List.getElem?_range hk, Option.map_some]

theorem idAt_eq (k : Nat) : idAt k = if k % 65535 < 65534 then k % 65535 + 1 else 1 := by
  rw [idAt, getJsonrpcRequestId, counterAfter]
  by_cases h : k % 65535 < 65534
  · rw [if_pos h, if_pos (by omega)]
  · rw [if_neg h, if_neg (by omega)]

theorem idAt_range (k : Nat) : 1 ≤ idAt k ∧ idAt k ≤ 65534 := by
  rw [idAt_eq]
  split <;> omega

theorem idAt_repeats_iff {i j : Nat} (hlt : i < j) (hclose : j - i < 65534) :
    idAt i = idAt j ↔ j = i + 1 ∧ counterAfter i = 65535 := by
  rw [idAt_eq, idAt_eq, counterAfter]
  constructor
  · intro h
    split at h <;> split at h <;> omega
  · rintro ⟨rfl, hend⟩
    rw [if_neg (by omega), if_pos (by omega)]
    omega

/-- Of the first `n` ids no two that are close together are the same as long as the calls
have not gone on behind the end of the counter. -/
theorem requestIds_apart_iff (n : Nat) : Apart (requestIds n jsonrpcRequestId) ↔ n ≤ 65535 := by
  constructor
  · intro h
    by_contra hn
    have hend := (idAt_repeats_iff (i := 65534) (j := 65535) (by decide) (by decide)).mpr ⟨rfl, rfl⟩
    exact h.differ 65534 65535 _ _ (by decide) (by decide) (requestIds_getElem (by omega))
      (requestIds_getElem (by omega)) hend
  · intro hn
    refine ⟨?_, ?_⟩
    · rw [requestIds_start, List.forall_mem_map]
      exact fun k _ => idAt_range k
    · intro i j a b hlt hclose hi hj heq
      have hjn : j < n := by
        have hlen := (List.getElem?_eq_some_iff.mp hj).1
        rwa [requestIds_start, List.length_map, List.length_range] at hlen
      rw [requestIds_getElem (Nat.lt_trans hlt hjn)] at hi
      rw [requestIds_getElem hjn] at hj
      have hsame : idAt i = idAt j := (Option.some.inj hi).trans (heq.trans (Option.some.inj hj).symm)
      obtain ⟨hnext, hend⟩ := (idAt_repeats_iff hlt hclose).mp hsame
      rw [counterAfter] at hend
      omega

theorem wrap_repeats : ¬Apart (requestIds 65536 jsonrpcRequestId) := by
  intro h
  refine h.differ 65534 65535 1 1 (by decide) (by decide) ?_ ?_ rfl
  · rw [requestIds_getElem (by decide)]
    rfl
  · rw [requestIds_getElem (by decide)]
    rfl

end OneSdk.McpRequestIds
