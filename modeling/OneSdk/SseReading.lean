import OneSdk.SseTidy

namespace OneSdk.SseReading

open CString HttpLibs SseTidy

def lineField (l : Bytes) : Option (Bytes × Bytes) :=
  (strchr 58 l).map fun colon => ((l.take colon).rdropWhile isspace, cstr ((l.drop (colon + 1)).dropWhile isspace))

def blockFields (e : Bytes) : List (Bytes × Bytes) := (readLines e).filterMap (fun l => lineField (chop l))

def storeIn (ctx : SseContext) (f : Bytes × Bytes) : SseContext := (storeField ⟨ctx, f.1, f.2⟩).ctx

def lastField (name : Bytes) (fs : List (Bytes × Bytes)) : Option Bytes := fs.reverse.lookup name

def eventName : Bytes := text "event"

def dataName : Bytes := text "data"

def Stored (s : Parse) : Prop := storeField s = s

variable {s : Parse} {l r e : Bytes} {b : UInt8} {ctx : SseContext}

theorem stored_start (ctx : SseContext) : Stored ⟨ctx, [], []⟩ := rfl

theorem data_ne_event : ¬dataName = eventName := by decide

theorem storeField_event (h : s.key = eventName) :
    storeField s = { s with ctx := { s.ctx with event := some s.value, eventLen := s.value.length } } := if_pos h

theorem storeField_data (h : s.key = dataName) :
    storeField s = { s with ctx := { s.ctx with data := some s.value, dataLen := s.value.length } } :=
  (if_neg (h ▸ data_ne_event)).trans (if_pos h)

theorem storeField_other (hevent : ¬s.key = eventName) (hdata : ¬s.key = dataName) : storeField s = s :=
  (if_neg hevent).trans (if_neg hdata)

theorem storeField_stored (s : Parse) : Stored (storeField s) := by
  by_cases hevent : s.key = eventName
  · rw [storeField_event hevent]
    exact storeField_event hevent
  · by_cases hdata : s.key = dataName
    · rw [storeField_data hdata]
      exact storeField_data hdata
    · rw [storeField_other hevent hdata]
      exact storeField_other hevent hdata

theorem splitKeyValue_line (hb : isspace b = true) (h : (splitKeyValue (l ++ b :: r) l.length s).ctx.stray = false) :
    splitKeyValue (l ++ b :: r) l.length s = (lineField l).elim s (fun f => ⟨s.ctx, f.1, f.2⟩) := by
  have hsound := h
  rw [splitKeyValue_sound hb, Bool.or_eq_false_iff, Bool.not_eq_false', soundLine, tidyLine, fitsLine] at hsound
  obtain ⟨hs, hline⟩ := hsound
  rw [splitKeyValue, strchr_append] at h ⊢
  rw [lineField]
  cases hc : strchr 58 l with
  | none => rfl
  | some colon =>
      have hlt := strchr_lt hc
      rw [hc] at hline h
      simp only [Bool.and_eq_true, decide_eq_true_eq, Bool.not_eq_true'] at hline
      obtain ⟨⟨hkey, hblank⟩, hvalue⟩ := hline
      have htake : (l ++ b :: r).take colon = l.take colon := List.take_append_of_le_length (Nat.le_of_lt hlt)
      have hlen := valueLength_eq (b := b) (r := r) hlt hblank
      have hwraps : ¬l.length < colon + 1 + (((l ++ b :: r).drop (colon + 1)).takeWhile isspace).length := by
        rw [value_wraps_iff hb hlt, hblank]
        exact Bool.false_ne_true
      have hkeyText : (l ++ b :: r).take ((l.take colon).rdropWhile isspace).length =
          (l.take colon).rdropWhile isspace := by
        have hprefix := (List.rdropWhile_prefix isspace (l.take colon)).trans
          ((List.take_prefix colon l).trans (List.prefix_append l (b :: r)))
        exact (List.prefix_iff_eq_take.mp hprefix).symm
      have hvalueText : ((l ++ b :: r).drop
        (colon + 1 + (((l ++ b :: r).drop (colon + 1)).takeWhile isspace).length)).take
          ((l.drop (colon + 1)).dropWhile isspace).length = (l.drop (colon + 1)).dropWhile isspace := by
        have hnot : ¬∀ x ∈ l.drop (colon + 1), isspace x = true :=
          fun h => absurd (List.all_eq_true.mpr h) (by simp [hblank])
        have hskip (n : Nat) : (l ++ b :: r).drop (colon + 1 + n) = (l.drop (colon + 1) ++ b :: r).drop n := by
          rw [← List.drop_append_of_le_length hlt, List.drop_drop]
        rw [hskip, List.drop_append_of_le_length hlt, spaces_within hnot,
          List.drop_append_of_le_length (List.takeWhile_sublist isspace).length_le, drop_takeWhile_length,
          List.take_left]
      simp only [htake, hlen, hwraps, decide_false, Bool.or_false] at h ⊢
      rw [Nat.min_eq_left (Nat.le_sub_one_of_lt hkey), hkeyText, if_neg Bool.false_ne_true,
        Nat.min_eq_left (Nat.le_sub_one_of_lt hvalue), hvalueText, h, ← hs]
      rfl

theorem parseLine_line (hb : isspace b = true) (hstored : Stored s)
    (h : (parseLine (l ++ b :: r) l.length s).ctx.stray = false) :
    Stored (parseLine (l ++ b :: r) l.length s) ∧
      (parseLine (l ++ b :: r) l.length s).ctx = (lineField l).elim s.ctx (storeIn s.ctx) := by
  rw [parseLine] at h ⊢
  split at h
  next hpos =>
    rw [storeField_stray] at h
    rw [if_pos hpos, splitKeyValue_line hb h]
    refine ⟨storeField_stored _, ?_⟩
    cases lineField l with
    | none => exact congrArg Parse.ctx hstored
    | some f => rfl
  next hpos =>
    have hnil : l = [] := List.length_eq_zero_iff.mp (by omega)
    rw [if_neg hpos, hnil]
    exact ⟨hstored, rfl⟩

theorem parseLine_first (hb : isspace b = true) (hstored : Stored s) {l : Bytes}
    (hsane : (parseLine (chop l ++ b :: r) (chop l).length s).ctx.stray = false) (ls : List Bytes) :
    Stored (parseLine (chop l ++ b :: r) (chop l).length s) ∧
      ((l :: ls).filterMap (fun l => lineField (chop l))).foldl storeIn s.ctx =
        (ls.filterMap (fun l => lineField (chop l))).foldl storeIn
          (parseLine (chop l ++ b :: r) (chop l).length s).ctx := by
  obtain ⟨hnext, hctx⟩ := parseLine_line hb hstored hsane
  refine ⟨hnext, ?_⟩
  rw [hctx, List.filterMap_cons]
  cases lineField (chop l) with
  | none => rfl
  | some f => rfl

theorem parseLines_fields (k : Nat) {m : Bytes} (hm : m.getLast? = some newline) (hk : m.length ≤ k)
    (hstored : Stored s) (h : (parseLines k (m ++ r) m.length s).ctx.stray = false) :
    (parseLines k (m ++ r) m.length s).ctx = (blockFields m).foldl storeIn s.ctx := by
  induction k generalizing m s with
  | zero =>
      rw [List.length_eq_zero_iff.mp (Nat.le_zero.mp hk)] at hm
      exact absurd hm (by simp)
  | succ k ih =>
      obtain ⟨l, m', rfl, hl, hlen, hrest⟩ := exists_first_line hm
      obtain ⟨b, rest, hb, hline⟩ := line_shape l
      rw [hlen] at hk
      rw [hlen, List.append_assoc, List.cons_append, parseLines_newline k hl, (hline _).2, (hline _).1] at h ⊢
      rw [blockFields, readLines_line hl]
      dsimp only at h ⊢
      split at h
      next hstop =>
        obtain ⟨-, hfold⟩ := parseLine_first hb hstored h ((m'.splitOn newline).takeWhile (fun l => l.head? != some 0))
        rw [if_pos hstop, hfold]
        cases m' with
        | nil => rfl
        | cons c m' =>
            have h0 : c = 0 := by simpa using hstop
            rw [readLines_rest, if_pos h0]
            rfl
      next hgo =>
        obtain ⟨hne, hzero⟩ := not_or.mp hgo
        have hsane : (parseLine (chop l ++ b :: rest (m' ++ r)) (chop l).length s).ctx.stray = false := by
          by_contra hstray
          rw [parseLines_stray k (eq_true_of_ne_false hstray)] at h
          exact Bool.false_ne_true h.symm
        obtain ⟨hnext, hfold⟩ := parseLine_first hb hstored hsane
          ((m'.splitOn newline).takeWhile (fun l => l.head? != some 0))
        rw [if_neg hgo, hfold]
        obtain ⟨c, m', rfl⟩ := List.exists_cons_of_ne_nil hne
        have h0 : ¬c = 0 := by simpa using hzero
        rw [readLines_rest, if_neg h0]
        exact ih (hrest hne) (by omega) hnext h

/-- A block is read field by field, as long as the parser stays within its arrays. -/
theorem parseSseMessage_fields (ctx : SseContext) (he : e.getLast? = some newline) (r : Bytes)
    (h : (parseSseMessage ctx (e ++ r) e.length).stray = false) :
    parseSseMessage ctx (e ++ r) e.length = (blockFields e).foldl storeIn ctx :=
  parseLines_fields e.length he (Nat.le_refl _) (stored_start ctx) h

theorem storeIn_fields (ctx : SseContext) (f : Bytes × Bytes) :
    (storeIn ctx f).event = (if f.1 = eventName then some f.2 else ctx.event) ∧
      (storeIn ctx f).eventLen = (if f.1 = eventName then f.2.length else ctx.eventLen) ∧
      (storeIn ctx f).data = (if f.1 = dataName then some f.2 else ctx.data) ∧
      (storeIn ctx f).dataLen = (if f.1 = dataName then f.2.length else ctx.dataLen) := by
  have hname : (⟨ctx, f.1, f.2⟩ : Parse).key = f.1 := rfl
  rw [storeIn]
  by_cases hevent : f.1 = eventName
  · have hdata : ¬f.1 = dataName := fun h => data_ne_event (h.symm.trans hevent)
    rw [storeField_event (hname.trans hevent), if_pos hevent, if_pos hevent, if_neg hdata, if_neg hdata]
    exact ⟨rfl, rfl, rfl, rfl⟩
  · rw [if_neg hevent, if_neg hevent]
    by_cases hdata : f.1 = dataName
    · rw [storeField_data (hname.trans hdata), if_pos hdata, if_pos hdata]
      exact ⟨rfl, rfl, rfl, rfl⟩
    · rw [storeField_other hevent hdata, if_neg hdata, if_neg hdata]
      exact ⟨rfl, rfl, rfl, rfl⟩

theorem lastField_snoc (name : Bytes) (fs : List (Bytes × Bytes)) (f : Bytes × Bytes) :
    lastField name (fs ++ [f]) = if f.1 = name then some f.2 else lastField name fs := by
  rw [lastField, List.reverse_append, List.reverse_singleton, List.singleton_append, List.lookup_cons]
  by_cases h : f.1 = name
  · rw [if_pos h, beq_iff_eq.mpr h.symm]
  · rw [if_neg h, beq_false_of_ne (Ne.symm h)]
    rfl

theorem foldl_storeIn (fs : List (Bytes × Bytes)) (ctx : SseContext) :
    (fs.foldl storeIn ctx).event = (lastField eventName fs).or ctx.event ∧
      (fs.foldl storeIn ctx).eventLen = (lastField eventName fs).elim ctx.eventLen List.length ∧
      (fs.foldl storeIn ctx).data = (lastField dataName fs).or ctx.data ∧
      (fs.foldl storeIn ctx).dataLen = (lastField dataName fs).elim ctx.dataLen List.length := by
  induction fs using List.reverseRecOn with
  | nil => exact ⟨rfl, rfl, rfl, rfl⟩
  | append_singleton fs f ih =>
      obtain ⟨hevent, heventLen, hdata, hdataLen⟩ := ih
      obtain ⟨hevent', heventLen', hdata', hdataLen'⟩ := storeIn_fields (fs.foldl storeIn ctx) f
      rw [List.foldl_append, List.foldl_cons, List.foldl_nil, hevent', heventLen', hdata', hdataLen', lastField_snoc,
        lastField_snoc]
      refine ⟨?_, ?_, ?_, ?_⟩
      · split
        · rfl
        · exact hevent
      · split
        · rfl
        · exact heventLen
      · split
        · rfl
        · exact hdata
      · split
        · rfl
        · exact hdataLen

end OneSdk.SseReading
