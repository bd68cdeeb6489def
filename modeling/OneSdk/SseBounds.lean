import OneSdk.SseTidy

namespace OneSdk.SseBounds

open CString HttpLibs SseTidy

/-- What the parser relies on: where it writes in its two arrays and the lengths that it
computes by a subtraction. -/
inductive Use where
  | key (index : Nat)
  | value (index : Nat)
  | length (n : Int)
  deriving DecidableEq

def Use.InBounds : Use → Prop
  | .key index => index < keySize
  | .value index => index < valueSize
  | .length n => 0 ≤ n

instance : (u : Use) → Decidable u.InBounds
  | .key _ | .value _ => inferInstanceAs (Decidable (_ < _))
  | .length _ => inferInstanceAs (Decidable (_ ≤ _))

@[simp] theorem key_inBounds (i : Nat) : (Use.key i).InBounds ↔ i < keySize := Iff.rfl

@[simp] theorem value_inBounds (i : Nat) : (Use.value i).InBounds ↔ i < valueSize := Iff.rfl

@[simp] theorem length_inBounds (n : Int) : (Use.length n).InBounds ↔ 0 ≤ n := Iff.rfl

def sizeValues : Nat := 2 ^ 64

def toSize (n : Int) : Nat := (n % sizeValues).toNat

/-- The uses of a line with a colon, in the order of the source. `strncpy` writes as many
bytes as it is told to. -/
def lineUses (line : Bytes) (lineLen : Nat) : List Use :=
  match (strchr 58 line).filter (· < lineLen) with
  | none => []
  | some colon =>
      let keyLen := ((line.take colon).rdropWhile isspace).length
      let valStart := colon + 1 + ((line.drop (colon + 1)).takeWhile isspace).length
      let valLen : Int := lineLen - valStart
      .length colon :: (List.range (min keyLen (keySize - 1))).map .key ++ .key keyLen ::
        .length valLen :: (List.range (min (toSize valLen) (valueSize - 1))).map .value ++ [.value (toSize valLen)]

/-- The uses of the parser's loop, from the line on. -/
def parseUses : Nat → Bytes → Nat → List Use
  | 0, _, _ => []
  | k + 1, line, n =>
      let eol := (memchr newline n line).getD n
      let lineLen := lineLength line eol
      let next := if eol < n then eol + 1 else eol
      .length n :: .length eol :: .length (lineLen : Int) :: (if 0 < lineLen then lineUses line lineLen else []) ++
        if n ≤ next ∨ line.getD next 0 = 0 then [] else parseUses k (line.drop next) (n - next)

variable {s : Parse} {line e r : Bytes} {n : Nat}

theorem toSize_natCast (h : n < sizeValues) : toSize n = n := by
  rw [toSize, Int.emod_eq_of_lt (Int.natCast_nonneg n) (Int.ofNat_lt.mpr h), Int.toNat_natCast]

theorem keyUses_inBounds (keyLen : Nat) :
    (∀ u ∈ (List.range (min keyLen (keySize - 1))).map Use.key, u.InBounds) := by
  intro u hu
  obtain ⟨i, hi, rfl⟩ := List.mem_map.mp hu
  have hlt := List.mem_range.mp hi
  simp only [key_inBounds, keySize] at hlt ⊢
  omega

theorem valueUses_inBounds (valLen : Nat) :
    (∀ u ∈ (List.range (min valLen (valueSize - 1))).map Use.value, u.InBounds) := by
  intro u hu
  obtain ⟨i, hi, rfl⟩ := List.mem_map.mp hu
  have hlt := List.mem_range.mp hi
  simp only [value_inBounds, valueSize] at hlt ⊢
  omega

theorem splitKeyValue_uses (s : Parse) (line : Bytes) (hn : n < sizeValues) :
    (splitKeyValue line n s).ctx.stray = false ↔ s.ctx.stray = false ∧ ∀ u ∈ lineUses line n, u.InBounds := by
  rw [splitKeyValue, lineUses]
  cases (strchr 58 line).filter (· < n) with
  | none => simp
  | some colon =>
      dsimp only
      generalize ((line.take colon).rdropWhile isspace).length = keyLen
      generalize colon + 1 + ((line.drop (colon + 1)).takeWhile isspace).length = valStart
      have hkeys := iff_true_intro (keyUses_inBounds keyLen)
      have hvalues := iff_true_intro (valueUses_inBounds (toSize ((n : Int) - valStart)))
      simp only [Bool.or_eq_false_iff, decide_eq_false_iff_not, List.forall_mem_append, List.forall_mem_cons,
        hkeys, hvalues, List.not_mem_nil, IsEmpty.forall_iff, implies_true, key_inBounds, value_inBounds,
        length_inBounds, Int.natCast_nonneg, true_and, and_true, and_assoc]
      refine and_congr_right (fun _ => and_congr (Nat.not_le) ?_)
      by_cases hwraps : n < valStart
      · constructor
        · exact fun h => absurd hwraps h.1
        · rintro ⟨h, -⟩
          omega
      · have hlen : (n : Int) - valStart = ((n - valStart : Nat) : Int) := by omega
        rw [hlen, toSize_natCast (by omega)]
        refine and_congr ⟨fun _ => Int.natCast_nonneg _, fun _ => hwraps⟩ Nat.not_le

theorem parseLine_uses (s : Parse) (line : Bytes) (hn : n < sizeValues) :
    (parseLine line n s).ctx.stray = false ↔
      s.ctx.stray = false ∧ ∀ u ∈ (if 0 < n then lineUses line n else []), u.InBounds := by
  rw [parseLine]
  split
  · rw [storeField_stray]
    exact splitKeyValue_uses s line hn
  · simp

theorem lineLength_le (line : Bytes) (eol : Nat) : lineLength line eol ≤ eol := by
  rw [lineLength]
  split
  · exact Nat.sub_le eol 1
  · exact Nat.le_refl eol

theorem eol_le (line : Bytes) (n : Nat) : (memchr newline n line).getD n ≤ n := by
  cases h : memchr newline n line with
  | none => exact Nat.le_refl n
  | some i =>
      have hi := (List.findIdx?_eq_some_iff_findIdx_eq.mp h).1
      rw [List.length_take] at hi
      rw [Option.getD_some]
      omega

theorem parseLines_uses (k : Nat) (line : Bytes) (hn : n < sizeValues) (s : Parse) :
    (parseLines k line n s).ctx.stray = false ↔ s.ctx.stray = false ∧ ∀ u ∈ parseUses k line n, u.InBounds := by
  induction k generalizing line n s with
  | zero => simp [parseLines, parseUses]
  | succ k ih =>
      have hle := eol_le line n
      rw [parseLines, parseUses]
      generalize (memchr newline n line).getD n = eol at hle ⊢
      have hlen := lineLength_le line eol
      have hline := parseLine_uses s line (n := lineLength line eol) (by omega)
      simp only [List.forall_mem_append, List.forall_mem_cons, length_inBounds, Int.natCast_nonneg, true_and]
      by_cases hstop : n ≤ (if eol < n then eol + 1 else eol) ∨ line.getD (if eol < n then eol + 1 else eol) 0 = 0
      · rw [if_pos hstop, if_pos hstop, hline]
        exact and_congr_right (fun _ => ⟨fun h => ⟨h, List.forall_mem_nil _⟩, fun h => h.1⟩)
      · rw [if_neg hstop, if_neg hstop, ih _ (by omega), hline, and_assoc]

/-- For a block that the callback passes to the parser, wherever it stands in the buffer:
the parser stays within its arrays and its lengths are real just when the lines are tidy. -/
theorem uses_inBounds_iff (he : e.getLast? = some newline) (hsize : e.length < sseBufferSize) (r : Bytes) :
    (∀ u ∈ parseUses e.length (e ++ r) e.length, u.InBounds) ↔ Tidy e := by
  have hlt : e.length < sizeValues := by
    simp only [sseBufferSize, sizeValues] at hsize ⊢
    omega
  have huses := parseLines_uses e.length (e ++ r) hlt ⟨emptySse, [], []⟩
  have hblock := (parseSseMessage_block he emptySse rfl r).1
  rw [parseBlock_tidy he hsize] at hblock
  have hstray : (parseSseMessage emptySse (e ++ r) e.length).stray = false ↔ Tidy e := by
    rw [hblock]
    simp [emptySse]
  rw [← hstray, parseSseMessage, huses]
  exact ⟨fun h => ⟨rfl, h⟩, fun h => h.2⟩

def spacedData : Bytes := text "data: a\n\n"

theorem spacedData_inBounds :
    Tidy spacedData ∧ ∀ u ∈ parseUses spacedData.length (spacedData ++ []) spacedData.length, u.InBounds := by
  have htidy : Tidy spacedData := by decide
  exact ⟨htidy, (uses_inBounds_iff (by decide) (by decide) []).mpr htidy⟩

def emptyData : Bytes := text "data:\n\n"

/-- The value starts behind the line, and its terminator is written far outside. -/
theorem emptyData_outOfBounds :
    emptyData.getLast? = some newline ∧ emptyData.length < sseBufferSize ∧
      ¬∀ u ∈ parseUses emptyData.length (emptyData ++ []) emptyData.length, u.InBounds := by
  refine ⟨by decide, by decide, fun h => ?_⟩
  have hstray := (parseLines_uses emptyData.length (emptyData ++ []) (by decide) ⟨emptySse, [], []⟩).mpr ⟨rfl, h⟩
  exact absurd hstray (by decide)

end OneSdk.SseBounds
