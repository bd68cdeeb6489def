import OneSdk.SseReading

namespace OneSdk.SseFields

open CString HttpLibs SseTidy SseReading

/-- A line of an event block. `text` is all that stands behind the colon, and a comment is a
field without a name. -/
structure Field where
  name : Bytes
  text : Bytes
  crlf : Bool
  name_short : name.length < keySize
  name_plain : ∀ b ∈ name, b ≠ 58 ∧ b ≠ newline ∧ b ≠ carriageReturn ∧ b ≠ 0
  text_plain : ∀ b ∈ text, b ≠ newline ∧ b ≠ carriageReturn ∧ b ≠ 0
  deriving DecidableEq

/-- One space after the colon does not belong to the value. -/
def Field.value (f : Field) : Bytes := if f.text.head? = some 32 then f.text.tail else f.text

def Field.body (f : Field) : Bytes := f.name ++ 58 :: f.text

def Field.bytes (f : Field) : Bytes := f.body ++ (if f.crlf then [carriageReturn] else []) ++ [newline]

inductive Closing where
  | none
  | lf
  | crlf
  deriving DecidableEq

def Closing.bytes : Closing → Bytes
  | .none => []
  | .lf => [newline]
  | .crlf => [carriageReturn, newline]

def block (fs : List Field) (closing : Closing) : Bytes := fs.flatMap Field.bytes ++ closing.bytes

def named (name : Bytes) (fs : List Field) : List Field := fs.filter (fun f => f.name = name)

def lastValue (name : Bytes) (fs : List Field) : Option Bytes := (named name fs).getLast?.map Field.value

def joinedData (fs : List Field) : Option Bytes :=
  if named dataName fs = [] then none else some ([newline].intercalate ((named dataName fs).map Field.value))

def Reads (fs : List Field) (closing : Closing) : Prop :=
  ∀ (ctx : SseContext) (r : Bytes), ctx.payload = (none, none) → ctx.stray = false →
    (parseSseMessage ctx (block fs closing ++ r) (block fs closing).length).stray = false ∧
      (parseSseMessage ctx (block fs closing ++ r) (block fs closing).length).event = lastValue eventName fs ∧
      (parseSseMessage ctx (block fs closing ++ r) (block fs closing).length).data = joinedData fs

def Field.Sound (f : Field) : Prop :=
  f.text.all isspace = false ∧ (f.text.dropWhile isspace).length < valueSize

instance (f : Field) : Decidable f.Sound := inferInstanceAs (Decidable (_ ∧ _))

def similar (name : Bytes) (fs : List Field) : List Field := fs.filter (fun f => f.name.rdropWhile isspace = name)

/-- The last field of about this name has exactly this name and a value that does not begin
with white space, or it says the same as the last one that has. -/
def LastPlain (name : Bytes) (fs : List Field) : Prop :=
  ∀ f ∈ (similar name fs).getLast?,
    if f.name = name then f.value.head?.all (!isspace ·) = true
    else lastValue name fs = some (f.text.dropWhile isspace)

def Plain (fs : List Field) : Prop :=
  (∀ f ∈ fs, f.Sound) ∧ LastPlain eventName fs ∧ LastPlain dataName fs ∧ (named dataName fs).length ≤ 1

def Field.reading (f : Field) : Bytes × Bytes := (f.name.rdropWhile isspace, f.text.dropWhile isspace)

variable {f : Field} {fs : List Field} {name l m : Bytes} {closing : Closing}

theorem strchr_body (f : Field) : strchr 58 f.body = some f.name.length := by
  have hzero : (0 : UInt8) ∉ f.name := fun h => (f.name_plain 0 h).2.2.2 rfl
  have hcolon : (58 : UInt8) ∉ f.name := fun h => (f.name_plain 58 h).1 rfl
  exact strchr_first hcolon hzero (by decide) f.text

theorem take_body (f : Field) : f.body.take f.name.length = f.name := List.take_left

theorem drop_body (f : Field) : f.body.drop (f.name.length + 1) = f.text := by
  rw [Field.body, List.drop_length_add_append]
  rfl

theorem lineField_body (f : Field) : lineField f.body = some f.reading := by
  have hzero : (0 : UInt8) ∉ f.text.dropWhile isspace := fun h =>
    (f.text_plain 0 ((List.dropWhile_sublist isspace).subset h)).2.2 rfl
  rw [lineField, strchr_body, Option.map_some, take_body, drop_body, cstr_eq_self.mpr hzero]
  rfl

theorem soundLine_body (f : Field) : soundLine f.body = true ↔ f.Sound := by
  have hkey : (f.name.rdropWhile isspace).length < keySize :=
    Nat.lt_of_le_of_lt (List.rdropWhile_prefix isspace f.name).length_le f.name_short
  rw [soundLine, tidyLine, fitsLine, strchr_body]
  dsimp only
  rw [take_body, drop_body, decide_eq_true hkey, Bool.true_and, Bool.and_eq_true, Bool.not_eq_true', decide_eq_true_eq]
  exact Iff.rfl

theorem body_plain (f : Field) : ∀ b ∈ f.body, b ≠ newline ∧ b ≠ carriageReturn ∧ b ≠ 0 := by
  intro b hb
  rcases List.mem_append.mp hb with hb | hb
  · exact (f.name_plain b hb).2
  · rcases List.mem_cons.mp hb with rfl | hb
    · decide
    · exact f.text_plain b hb

theorem bytes_line (f : Field) : ∃ l, f.bytes = l ++ [newline] ∧ newline ∉ l ∧ chop l = f.body := by
  refine ⟨_, rfl, ?_, ?_⟩
  · intro h
    rcases List.mem_append.mp h with h | h
    · exact (body_plain f newline h).1 rfl
    · split at h
      · exact absurd h (by decide)
      · exact absurd h List.not_mem_nil
  · split
    · rw [chop, List.getLast?_concat, if_pos rfl, List.dropLast_concat]
    · rw [List.append_nil, chop, if_neg]
      intro h
      exact (body_plain f _ (List.mem_of_getLast? h)).2.1 rfl

theorem readLines_cons (hl : newline ∉ l) (hm : m.head? ≠ some 0) :
    readLines (l ++ newline :: m) = l :: readLines m := by
  rw [readLines_line hl]
  cases m with
  | nil => rfl
  | cons c m => rw [readLines_rest, if_neg (fun h => hm (congrArg some h))]

theorem block_head (fs : List Field) (closing : Closing) : (block fs closing).head? ≠ some 0 := by
  cases fs with
  | nil => cases closing <;> decide
  | cons f fs =>
      intro h
      obtain ⟨b, rest, hbody⟩ : ∃ b rest, f.body = b :: rest :=
        List.exists_cons_of_ne_nil (List.append_ne_nil_of_right_ne_nil _ (List.cons_ne_nil _ _))
      have hhead : (block (f :: fs) closing).head? = some b := by
        rw [block, List.flatMap_cons, Field.bytes, hbody]
        rfl
      rw [hhead, Option.some.injEq] at h
      exact (body_plain f b (hbody ▸ List.mem_cons_self)).2.2 h

theorem readLines_block (fs : List Field) (closing : Closing) :
    ∃ rest, (readLines (block fs closing)).map chop = fs.map Field.body ++ rest ∧ ∀ l ∈ rest, l = [] := by
  induction fs with
  | nil =>
      refine ⟨(readLines (block [] closing)).map chop, rfl, ?_⟩
      cases closing <;> decide
  | cons f fs ih =>
      obtain ⟨rest, hrest, hempty⟩ := ih
      obtain ⟨l, hbytes, hl, hchop⟩ := bytes_line f
      refine ⟨rest, ?_, hempty⟩
      have hblock : block (f :: fs) closing = l ++ newline :: block fs closing := by
        rw [block, List.flatMap_cons, hbytes, List.append_assoc, List.append_assoc]
        rfl
      rw [hblock, readLines_cons hl (block_head fs closing), List.map_cons, List.map_cons, hchop, hrest]
      rfl

theorem blockFields_block (fs : List Field) (closing : Closing) :
    blockFields (block fs closing) = fs.map Field.reading := by
  obtain ⟨rest, hlines, hempty⟩ := readLines_block fs closing
  have hnone : rest.filterMap lineField = [] := by
    rw [List.filterMap_eq_nil_iff]
    intro l hl
    rw [hempty l hl]
    rfl
  have hmap : blockFields (block fs closing) = ((readLines (block fs closing)).map chop).filterMap lineField := by
    rw [List.filterMap_map]
    rfl
  rw [hmap, hlines, List.filterMap_append, hnone, List.append_nil, List.filterMap_map]
  rw [← List.filterMap_eq_map]
  congr 1
  funext f
  exact lineField_body f

theorem sound_block (fs : List Field) (closing : Closing) :
    (readLines (block fs closing)).all (fun l => soundLine (chop l)) = true ↔ ∀ f ∈ fs, f.Sound := by
  obtain ⟨rest, hlines, hempty⟩ := readLines_block fs closing
  have hmap : (readLines (block fs closing)).all (fun l => soundLine (chop l)) =
      ((readLines (block fs closing)).map chop).all soundLine := by
    rw [List.all_map]
    rfl
  have hrest : rest.all soundLine = true := by
    rw [List.all_eq_true]
    intro l hl
    rw [hempty l hl]
    rfl
  rw [hmap, hlines, List.all_append, hrest, Bool.and_true, List.all_map, List.all_eq_true]
  exact forall₂_congr fun f _ => soundLine_body f

theorem block_ends (fs : List Field) (closing : Closing) :
    fs = [] ∧ block fs closing = [] ∨ (block fs closing).getLast? = some newline := by
  cases closing with
  | lf => exact .inr List.getLast?_concat
  | crlf =>
      right
      rw [block, Closing.bytes, List.getLast?_append]
      rfl
  | none =>
      rw [block, Closing.bytes, List.append_nil]
      rcases List.eq_nil_or_concat fs with rfl | ⟨fs, f, rfl⟩
      · exact .inl ⟨rfl, rfl⟩
      · right
        rw [List.concat_eq_append, List.flatMap_append, List.flatMap_singleton, Field.bytes, ← List.append_assoc,
          List.getLast?_concat]

/-- Where the parser stays within its arrays, it stores the fields one after the other. -/
theorem parse_block (fs : List Field) (closing : Closing) (ctx : SseContext) (hsane : ctx.stray = false) (r : Bytes) :
    ((parseSseMessage ctx (block fs closing ++ r) (block fs closing).length).stray = false ↔ ∀ f ∈ fs, f.Sound) ∧
      ((∀ f ∈ fs, f.Sound) → parseSseMessage ctx (block fs closing ++ r) (block fs closing).length =
        (fs.map Field.reading).foldl storeIn ctx) := by
  rcases block_ends fs closing with ⟨rfl, hnil⟩ | hends
  · rw [hnil]
    exact ⟨iff_of_true hsane (fun f hf => absurd hf List.not_mem_nil), fun _ => rfl⟩
  · have hstray : (parseSseMessage ctx (block fs closing ++ r) (block fs closing).length).stray = false ↔
        ∀ f ∈ fs, f.Sound := by
      rw [parseSseMessage, parseLines_sound _ hends (Nat.le_refl _), hsane, Bool.false_or, Bool.not_eq_false',
        sound_block]
    refine ⟨hstray, fun hsound => ?_⟩
    rw [parseSseMessage_fields _ hends r (hstray.mpr hsound), blockFields_block]

theorem lastField_reading (name : Bytes) (fs : List Field) :
    lastField name (fs.map Field.reading) = (similar name fs).getLast?.map (fun f => f.text.dropWhile isspace) := by
  induction fs using List.reverseRecOn with
  | nil => rfl
  | append_singleton fs f ih =>
      rw [List.map_append, List.map_singleton, lastField_snoc]
      by_cases h : f.reading.1 = name
      · have hname : f.name.rdropWhile isspace = name := h
        have hkeep : similar name (fs ++ [f]) = similar name fs ++ [f] := by simp [similar, hname]
        rw [if_pos h, hkeep, List.getLast?_concat]
        rfl
      · have hname : ¬f.name.rdropWhile isspace = name := h
        have hskip : similar name (fs ++ [f]) = similar name fs := by simp [similar, hname]
        rw [if_neg h, hskip]
        exact ih

theorem value_plain (h : f.value.head?.all (!isspace ·) = true) : f.text.dropWhile isspace = f.value := by
  have hself : f.value.dropWhile isspace = f.value := by
    cases hv : f.value with
    | nil => rfl
    | cons b v =>
        rw [hv] at h
        exact List.dropWhile_cons_of_neg (by simpa using h)
  rw [← hself, Field.value]
  split
  next hspace =>
    obtain ⟨t, ht⟩ := List.head?_eq_some_iff.mp hspace
    rw [ht]
    rfl
  next => rfl

theorem plain_of_value (h : f.text.dropWhile isspace = f.value) : f.value.head?.all (!isspace ·) = true := by
  rw [← h]
  cases ht : f.text.dropWhile isspace with
  | nil => rfl
  | cons b t =>
      have hb := List.head_dropWhile_not isspace (l := f.text) (by rw [ht]; exact List.cons_ne_nil b t)
      simpa [ht] using hb

theorem named_eq (hname : name.rdropWhile isspace = name) (fs : List Field) :
    named name fs = named name (similar name fs) := by
  rw [named, named, similar, List.filter_filter]
  apply List.filter_congr
  intro f _
  rw [eq_comm, Bool.and_eq_left_iff_imp]
  intro hf
  rw [of_decide_eq_true hf, hname]
  exact decide_eq_true rfl

/-- The last field of about a name decides whether the value of the last one of that name
is read. -/
theorem lastPlain_iff (hname : name.rdropWhile isspace = name) (fs : List Field) :
    (similar name fs).getLast?.map (fun f => f.text.dropWhile isspace) = lastValue name fs ↔ LastPlain name fs := by
  rw [LastPlain]
  rcases List.eq_nil_or_concat (similar name fs) with hnil | ⟨before, f, hlast⟩
  · rw [lastValue, named_eq hname, hnil]
    exact iff_of_true rfl (fun f hf => nomatch hf)
  · rw [List.concat_eq_append] at hlast
    rw [hlast, List.getLast?_concat, Option.map_some]
    simp only [Option.mem_def, Option.some.injEq, forall_eq']
    split
    next hexact =>
      have hnamed : named name (before ++ [f]) = named name before ++ [f] := by simp [named, hexact]
      have hvalue : lastValue name fs = some f.value := by
        rw [lastValue, named_eq hname, hlast, hnamed, List.getLast?_concat]
        rfl
      rw [hvalue, Option.some.injEq]
      exact ⟨plain_of_value, value_plain⟩
    next => exact eq_comm

theorem newline_mem_intercalate {vs : List Bytes} (h : 2 ≤ vs.length) : newline ∈ [newline].intercalate vs := by
  match vs, h with
  | v :: v' :: vs, _ =>
      rw [List.intercalate_cons_cons]
      exact List.mem_append_left _ (List.mem_append_right _ List.mem_cons_self)

theorem joinedData_of_one (h : (named dataName fs).length ≤ 1) : joinedData fs = lastValue dataName fs := by
  rw [joinedData, lastValue]
  match named dataName fs, h with
  | [], _ => rfl
  | [d], _ => rw [if_neg (List.cons_ne_nil d []), List.map_singleton, List.intercalate_singleton]; rfl

theorem joinedData_of_many (h : ¬(named dataName fs).length ≤ 1) : ∃ v, joinedData fs = some v ∧ newline ∈ v := by
  have hne : named dataName fs ≠ [] := fun hnil => h (by rw [hnil]; exact Nat.zero_le 1)
  refine ⟨_, if_neg hne, newline_mem_intercalate ?_⟩
  rw [List.length_map]
  omega

theorem data_iff (fs : List Field) :
    (similar dataName fs).getLast?.map (fun f => f.text.dropWhile isspace) = joinedData fs ↔
      LastPlain dataName fs ∧ (named dataName fs).length ≤ 1 := by
  by_cases hone : (named dataName fs).length ≤ 1
  · rw [joinedData_of_one hone, lastPlain_iff (by decide), and_iff_left hone]
  · obtain ⟨v, hjoined, hmem⟩ := joinedData_of_many hone
    rw [hjoined]
    refine iff_of_false (fun h => ?_) (fun h => hone h.2)
    obtain ⟨f, -, rfl⟩ := Option.map_eq_some_iff.mp h
    exact (f.text_plain newline ((List.dropWhile_sublist isspace).subset hmem)).1 rfl

/-- A block is read as the format says just when no value is blank, at most one field is
`data`, and white space in names and values does not come in between. -/
theorem reads_iff (fs : List Field) (closing : Closing) : Reads fs closing ↔ Plain fs := by
  have hevent : ∀ {ctx : SseContext}, ctx.payload = (none, none) →
      ((fs.map Field.reading).foldl storeIn ctx).event =
        (similar eventName fs).getLast?.map (fun f => f.text.dropWhile isspace) := by
    intro ctx hclear
    rw [(foldl_storeIn _ ctx).1, (Prod.mk.inj hclear).1, Option.or_none, lastField_reading]
  have hdata : ∀ {ctx : SseContext}, ctx.payload = (none, none) →
      ((fs.map Field.reading).foldl storeIn ctx).data =
        (similar dataName fs).getLast?.map (fun f => f.text.dropWhile isspace) := by
    intro ctx hclear
    rw [(foldl_storeIn _ ctx).2.2.1, (Prod.mk.inj hclear).2, Option.or_none, lastField_reading]
  constructor
  · intro h
    have hread := h emptySse [] rfl rfl
    obtain ⟨hstray, hfold⟩ := parse_block fs closing emptySse rfl []
    have hsound := hstray.mp hread.1
    rw [hfold hsound, hevent rfl, hdata rfl, lastPlain_iff (by decide), data_iff] at hread
    exact ⟨hsound, hread.2⟩
  · rintro ⟨hsound, hlast⟩ ctx r hclear hsane
    obtain ⟨hstray, hfold⟩ := parse_block fs closing ctx hsane r
    refine ⟨hstray.mpr hsound, ?_⟩
    rw [hfold hsound, hevent hclear, hdata hclear, lastPlain_iff (by decide), data_iff]
    exact hlast

def dataField (text : Bytes) (h : ∀ b ∈ text, b ≠ newline ∧ b ≠ carriageReturn ∧ b ≠ 0) : Field where
  name := dataName
  text := text
  crlf := false
  name_short := by decide
  name_plain := by simp [dataName, CString.text, ascii, newline, carriageReturn]
  text_plain := h

/-- The parser overruns its array on `"data:\n\n"`, and it reads `"data:a\ndata:b\n\n"` as
`"b"`. -/
theorem data_misread :
    ¬Reads [dataField [] (by simp)] .lf ∧
      ¬Reads [dataField [97] (List.forall_mem_singleton.mpr (by decide)),
        dataField [98] (List.forall_mem_singleton.mpr (by decide))] .lf := by
  constructor
  · intro h
    exact absurd (h emptySse [] rfl rfl).1 (by decide)
  · intro h
    exact absurd (h emptySse [] rfl rfl).2.2 (by decide)

end OneSdk.SseFields
