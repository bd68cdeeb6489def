import OneSdk.HttpLibs

namespace OneSdk.SseTidy

open CString HttpLibs

/-- A line is tidy when it has no colon, or a short name before the colon and a value
that is not blank after it. -/
def tidyLine (l : Bytes) : Bool :=
  match strchr 58 l with
  | none => true
  | some colon =>
      decide (((l.take colon).rdropWhile isspace).length < keySize) && !(l.drop (colon + 1)).all isspace

def fitsLine (l : Bytes) : Bool :=
  match strchr 58 l with
  | none => true
  | some colon => decide (((l.drop (colon + 1)).dropWhile isspace).length < valueSize)

def soundLine (l : Bytes) : Bool := tidyLine l && fitsLine l

/-- The lines that the parser reads: it stops before a later one that begins with NUL. -/
def readLines (e : Bytes) : List Bytes :=
  match e.splitOn newline with
  | [] => []
  | l :: ls => l :: ls.takeWhile (fun l => l.head? != some 0)

def Tidy (e : Bytes) : Prop := ∀ l ∈ readLines e, tidyLine (chop l) = true

instance (e : Bytes) : Decidable (Tidy e) := inferInstanceAs (Decidable (∀ _ ∈ _, _))

variable {s : Parse} {l r : Bytes} {b : UInt8}

theorem drop_takeWhile_length (p : UInt8 → Bool) (s : Bytes) : s.drop (s.takeWhile p).length = s.dropWhile p := by
  induction s with
  | nil => rfl
  | cons b s ih =>
      rw [List.takeWhile_cons, List.dropWhile_cons]
      split
      · exact ih
      · rfl

/-- The value starts behind the line just when it is blank. -/
theorem value_wraps_iff {colon : Nat} (hb : isspace b = true) (hlt : colon < l.length) :
    l.length < colon + 1 + (((l ++ b :: r).drop (colon + 1)).takeWhile isspace).length ↔
      (l.drop (colon + 1)).all isspace = true := by
  have hdrop : (l ++ b :: r).drop (colon + 1) = l.drop (colon + 1) ++ b :: r := List.drop_append_of_le_length hlt
  rw [List.all_eq_true, hdrop]
  constructor
  · intro hbeyond
    by_contra hblank
    have hle := (List.takeWhile_sublist isspace (l := l.drop (colon + 1))).length_le
    rw [spaces_within hblank] at hbeyond
    rw [List.length_drop] at hle
    omega
  · intro hblank
    have hbeyond := spaces_beyond (r := r) hblank hb
    rw [List.length_drop] at hbeyond
    omega

theorem valueLength_eq {colon : Nat} (hlt : colon < l.length) (hblank : (l.drop (colon + 1)).all isspace = false) :
    l.length - (colon + 1 + (((l ++ b :: r).drop (colon + 1)).takeWhile isspace).length) =
      ((l.drop (colon + 1)).dropWhile isspace).length := by
  have hnot : ¬∀ x ∈ l.drop (colon + 1), isspace x = true := fun h => absurd (List.all_eq_true.mpr h) (by simp [hblank])
  rw [List.drop_append_of_le_length hlt, spaces_within hnot, ← drop_takeWhile_length, List.length_drop,
    List.length_drop]
  omega

theorem splitKeyValue_sound (hb : isspace b = true) :
    (splitKeyValue (l ++ b :: r) l.length s).ctx.stray = (s.ctx.stray || !soundLine l) := by
  rw [splitKeyValue, strchr_append, soundLine, tidyLine, fitsLine]
  cases hc : strchr 58 l with
  | none => simp
  | some colon =>
      have hlt := strchr_lt hc
      have htake : (l ++ b :: r).take colon = l.take colon := List.take_append_of_le_length (Nat.le_of_lt hlt)
      have hwraps : decide (l.length < colon + 1 + (((l ++ b :: r).drop (colon + 1)).takeWhile isspace).length) =
          (l.drop (colon + 1)).all isspace := by
        rw [Bool.eq_iff_iff, decide_eq_true_eq]
        exact value_wraps_iff hb hlt
      simp only [htake, hwraps]
      cases hblank : (l.drop (colon + 1)).all isspace with
      | true => simp
      | false => simp only [valueLength_eq hlt hblank, Bool.or_false, Bool.not_false, Bool.and_true, Bool.not_and,
          Bool.or_assoc, ← decide_not, Nat.not_lt]

theorem parseLine_sound (l r : Bytes) (s : Parse) :
    (parseLine (l ++ newline :: r) (lineLength (l ++ newline :: r) l.length) s).ctx.stray =
      (s.ctx.stray || !soundLine (chop l)) := by
  obtain ⟨b, rest, hb, hline⟩ := line_shape l
  rw [(hline r).2, (hline r).1, parseLine]
  by_cases hpos : 0 < (chop l).length
  · rw [if_pos hpos, storeField_stray, splitKeyValue_sound hb]
  · have hnil : chop l = [] := List.length_eq_zero_iff.mp (by omega)
    have hsound : soundLine [] = true := rfl
    rw [if_neg hpos, hnil, hsound, Bool.not_true, Bool.or_false]

theorem readLines_line (hl : newline ∉ l) (m : Bytes) :
    readLines (l ++ newline :: m) = l :: (m.splitOn newline).takeWhile (fun l => l.head? != some 0) := by
  rw [readLines, List.splitOn_append_cons_self, List.splitOn_eq_singleton hl]
  rfl

theorem readLines_rest (c : UInt8) (m : Bytes) :
    ((c :: m).splitOn newline).takeWhile (fun l => l.head? != some 0) = if c = 0 then [] else readLines (c :: m) := by
  obtain ⟨l, ls, hsplit⟩ := List.exists_cons_of_ne_nil (List.splitOn_ne_nil newline m)
  rw [readLines, List.splitOn_cons_eq_if_modifyHead, hsplit]
  by_cases hc : c = newline
  · subst hc
    rfl
  · have hhead : (c == newline) = false := by simpa using hc
    rw [hhead, if_neg (by simp), List.modifyHead_cons, List.takeWhile_cons]
    by_cases h0 : c = 0 <;> simp [h0]

theorem parseLines_sound (k : Nat) {m : Bytes} (hm : m.getLast? = some newline) (hk : m.length ≤ k) (r : Bytes)
    (s : Parse) :
    (parseLines k (m ++ r) m.length s).ctx.stray =
    (s.ctx.stray || !(readLines m).all (fun l => soundLine (chop l))) := by
  induction k generalizing m s with
  | zero =>
      rw [List.length_eq_zero_iff.mp (Nat.le_zero.mp hk)] at hm
      exact absurd hm (by simp)
  | succ k ih =>
      obtain ⟨l, m', rfl, hl, hlen, hrest⟩ := exists_first_line hm
      rw [hlen] at hk
      have hnext := parseLine_sound l (m' ++ r) s
      rw [hlen, List.append_assoc, List.cons_append, parseLines_newline k hl, readLines_line hl]
      dsimp only
      cases m' with
      | nil =>
          have hlast : ((([] : Bytes).splitOn newline).takeWhile (fun l => l.head? != some 0)).all
              (fun l => soundLine (chop l)) = true := rfl
          rw [if_pos (.inl rfl), hnext, List.all_cons, hlast, Bool.and_true]
      | cons c m' =>
          rw [readLines_rest]
          by_cases h0 : c = 0
          · rw [if_pos (.inr (by rw [h0]; rfl)), if_pos h0, hnext]
            simp
          · rw [if_neg (by simp [h0]), if_neg h0, ih (hrest (List.cons_ne_nil c m')) (by omega), hnext,
              List.all_cons, Bool.not_and, Bool.or_assoc]

theorem chop_length_le (l : Bytes) : (chop l).length ≤ l.length := by
  rw [chop]
  split
  · rw [List.length_dropLast]
    exact Nat.sub_le _ _
  · exact Nat.le_refl _

theorem fitsLine_of_length (h : l.length < valueSize) : fitsLine l = true := by
  rw [fitsLine]
  split
  · rfl
  · refine decide_eq_true (Nat.lt_of_le_of_lt ?_ h)
    exact (List.length_dropWhile_le _ _).trans ((List.length_drop).trans_le (Nat.sub_le _ _))

theorem length_of_mem_splitOn {e : Bytes} (h : l ∈ e.splitOn newline) : l.length ≤ e.length := by
  induction e generalizing l with
  | nil =>
      rw [List.splitOn_nil, List.mem_singleton] at h
      rw [h]
  | cons x e ih =>
      obtain ⟨l₀, ls, hsplit⟩ := List.exists_cons_of_ne_nil (List.splitOn_ne_nil newline e)
      rw [hsplit] at ih
      rw [List.splitOn_cons_eq_if_modifyHead, hsplit] at h
      split at h
      · rcases List.mem_cons.mp h with rfl | h
        · exact Nat.zero_le _
        · exact Nat.le_succ_of_le (ih h)
      · rcases List.mem_cons.mp h with rfl | h
        · exact Nat.succ_le_succ (ih List.mem_cons_self)
        · exact Nat.le_succ_of_le (ih (List.mem_cons_of_mem _ h))

theorem length_of_mem_readLines {e : Bytes} (h : l ∈ readLines e) : l.length ≤ e.length := by
  rw [readLines] at h
  split at h
  next => exact absurd h List.not_mem_nil
  next l₀ ls hsplit =>
    apply length_of_mem_splitOn
    rw [hsplit]
    rcases List.mem_cons.mp h with rfl | h
    · exact List.mem_cons_self
    · exact List.mem_cons_of_mem _ ((List.takeWhile_sublist _).subset h)

theorem tidy_sound {e : Bytes} (hsize : e.length < valueSize) :
    (readLines e).all (fun l => soundLine (chop l)) = (readLines e).all (fun l => tidyLine (chop l)) := by
  rw [Bool.eq_iff_iff, List.all_eq_true, List.all_eq_true]
  refine forall₂_congr (fun l hl => ?_)
  have hfits : fitsLine (chop l) = true := by
    apply fitsLine_of_length
    exact Nat.lt_of_le_of_lt ((chop_length_le l).trans (length_of_mem_readLines hl)) hsize
  rw [soundLine, hfits, Bool.and_true]

/-- A block that fits is read within the local arrays just when its lines are tidy. -/
theorem parseBlock_tidy {e : Bytes} (he : e.getLast? = some newline) (hsize : e.length < valueSize) :
    (parseBlock e).stray = !decide (Tidy e) := by
  have hall : (readLines e).all (fun l => tidyLine (chop l)) = decide (Tidy e) := by
    rw [Bool.eq_iff_iff, List.all_eq_true, decide_eq_true_eq, Tidy]
  have hparse := parseLines_sound e.length he (Nat.le_refl _) [] ⟨emptySse, [], []⟩
  rw [List.append_nil, tidy_sound hsize, hall] at hparse
  exact hparse.trans (Bool.false_or _)

end OneSdk.SseTidy
