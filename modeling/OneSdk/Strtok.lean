import OneSdk.CString

namespace OneSdk.Strtok

open CString

def strspn (accept s : Bytes) : Nat := (s.takeWhile (fun b => b != 0 && accept.contains b)).length

def strcspn (reject s : Bytes) : Nat := (s.takeWhile (fun b => b != 0 && !reject.contains b)).length

/-- `strtok_r` on a memory, from the place that it has been given or has kept. It returns
where the token begins, the memory, in which the delimiter behind the token is now a NUL, and
the place that it keeps. -/
def strtokR (delims block : Bytes) (start : Nat) : Option (Nat × Bytes × Nat) :=
  let first := start + strspn delims (block.drop start)
  if block.getD first 0 = 0 then none
  else
    let stop := first + strcspn delims (block.drop first)
    if block.getD stop 0 = 0 then some (first, block, stop) else some (first, block.set stop 0, stop + 1)

variable {delims p seps token rest : Bytes} {b : UInt8}

theorem takeWhile_stop {q : UInt8 → Bool} (htoken : ∀ b ∈ token, q b = true) (hb : q b = false) (rest : Bytes) :
    (token ++ b :: rest).takeWhile q = token := by
  rw [List.takeWhile_append_of_pos htoken, List.takeWhile_cons, hb, if_neg (by simp), List.append_nil]

theorem strspn_stop (hseps : ∀ b ∈ seps, b ∈ delims ∧ b ≠ 0) (hb : b ∉ delims ∨ b = 0) (rest : Bytes) :
    strspn delims (seps ++ b :: rest) = seps.length := by
  rw [strspn, takeWhile_stop]
  · intro c hc
    obtain ⟨hin, hne⟩ := hseps c hc
    simp [hin, hne]
  · rcases hb with hout | rfl
    · simp [hout]
    · rfl

theorem strcspn_stop (htoken : ∀ b ∈ token, b ∉ delims ∧ b ≠ 0) (hb : b ∈ delims ∨ b = 0) (rest : Bytes) :
    strcspn delims (token ++ b :: rest) = token.length := by
  rw [strcspn, takeWhile_stop]
  · intro c hc
    obtain ⟨hout, hne⟩ := htoken c hc
    simp [hout, hne]
  · rcases hb with hin | rfl
    · simp [hin]
    · rfl

theorem getD_at (p : Bytes) (b : UInt8) (rest : Bytes) : (p ++ b :: rest).getD p.length 0 = b := by
  simp [List.getD_eq_getElem?_getD]

theorem strtokR_first (hseps : ∀ b ∈ seps, b ∈ delims ∧ b ≠ 0) (htoken : token ≠ [])
    (hplain : ∀ b ∈ token, b ∉ delims ∧ b ≠ 0) (p tail : Bytes) :
    strtokR delims (p ++ seps ++ (token ++ tail)) p.length =
      let first := (p ++ seps).length
      let stop := first + strcspn delims (token ++ tail)
      let block := p ++ seps ++ (token ++ tail)
      if block.getD stop 0 = 0 then some (first, block, stop) else some (first, block.set stop 0, stop + 1) := by
  obtain ⟨c, cs, rfl⟩ := List.exists_cons_of_ne_nil htoken
  obtain ⟨hout, hne⟩ := hplain c List.mem_cons_self
  have hspan : strspn delims ((p ++ seps ++ (c :: cs ++ tail)).drop p.length) = seps.length := by
    rw [List.append_assoc, List.drop_left]
    exact strspn_stop hseps (.inl hout) (cs ++ tail)
  have hfirst : p.length + seps.length = (p ++ seps).length := List.length_append.symm
  have hchar : (p ++ seps ++ (c :: cs ++ tail)).getD (p ++ seps).length 0 = c := getD_at (p ++ seps) c (cs ++ tail)
  rw [strtokR, hspan, hfirst]
  dsimp only
  rw [hchar, if_neg hne, List.drop_left]

theorem strtokR_token (hseps : ∀ b ∈ seps, b ∈ delims ∧ b ≠ 0) (htoken : token ≠ [])
    (hplain : ∀ b ∈ token, b ∉ delims ∧ b ≠ 0) (hb : b ∈ delims) (hne : b ≠ 0) (p rest : Bytes) :
    strtokR delims (p ++ seps ++ (token ++ b :: rest)) p.length =
      some ((p ++ seps).length, p ++ seps ++ token ++ 0 :: rest, (p ++ seps ++ token ++ [0]).length) := by
  have hspan : strcspn delims (token ++ b :: rest) = token.length := strcspn_stop hplain (.inl hb) rest
  have hstop : (p ++ seps).length + token.length = (p ++ seps ++ token).length := List.length_append.symm
  have hnext : (p ++ seps ++ token).length + 1 = (p ++ seps ++ token ++ [0]).length := by
    simp only [List.length_append, List.length_cons, List.length_nil, Nat.add_assoc]
  rw [strtokR_first hseps htoken hplain, hspan]
  dsimp only
  rw [hstop, ← List.append_assoc (p ++ seps), getD_at, if_neg hne, set_middle, hnext]

theorem strtokR_last (hseps : ∀ b ∈ seps, b ∈ delims ∧ b ≠ 0) (htoken : token ≠ [])
    (hplain : ∀ b ∈ token, b ∉ delims ∧ b ≠ 0) (p rest : Bytes) :
    strtokR delims (p ++ seps ++ (token ++ 0 :: rest)) p.length =
      some ((p ++ seps).length, p ++ seps ++ (token ++ 0 :: rest), (p ++ seps ++ token).length) := by
  have hspan : strcspn delims (token ++ 0 :: rest) = token.length := strcspn_stop hplain (.inr rfl) rest
  have hstop : (p ++ seps).length + token.length = (p ++ seps ++ token).length := List.length_append.symm
  rw [strtokR_first hseps htoken hplain, hspan]
  dsimp only
  rw [hstop, ← List.append_assoc (p ++ seps), getD_at, if_pos rfl]

theorem strtokR_none (hseps : ∀ b ∈ seps, b ∈ delims ∧ b ≠ 0) (p rest : Bytes) :
    strtokR delims (p ++ seps ++ 0 :: rest) p.length = none := by
  have hspan : strspn delims ((p ++ seps ++ 0 :: rest).drop p.length) = seps.length := by
    rw [List.append_assoc, List.drop_left]
    exact strspn_stop hseps (.inr rfl) rest
  have hfirst : p.length + seps.length = (p ++ seps).length := List.length_append.symm
  rw [strtokR, hspan, hfirst]
  dsimp only
  rw [getD_at, if_pos rfl]

end OneSdk.Strtok
