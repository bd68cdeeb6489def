import Mathlib.Data.List.DropRight
import OneSdk.CString

namespace OneSdk.OtaFileName

open CString

def slash : UInt8 := 47

def question : UInt8 := 63

def lastIndex (c : UInt8) : Bytes → Option Nat
  | [] => none
  | b :: s => ((lastIndex c s).map (· + 1)).or (if b = c then some 0 else none)

def strrchr (c : UInt8) (s : Bytes) : Option Nat := lastIndex c (cstr s)

/-- The string that is returned, nothing for `NULL`. The memory for it is given. -/
def extractFilename (url : Bytes) : Option Bytes :=
  match strrchr slash url with
  | none => none
  | some filenameStart =>
      match strchr question (url.drop filenameStart) with
      | none => some (cstr (url.drop (filenameStart + 1)))
      | some filenameEnd => some (cstr ((url.drop (filenameStart + 1)).take (filenameEnd - 1)))

/-- What is in front of the query: `scheme://host/path`. -/
structure Location where
  scheme : Bytes
  host : Bytes
  path : Bytes
  schemePlain : slash ∉ scheme ∧ question ∉ scheme ∧ 0 ∉ scheme
  hostPlain : slash ∉ host ∧ question ∉ host ∧ 0 ∉ host
  pathPlain : question ∉ path ∧ 0 ∉ path

abbrev Query := { q : Bytes // 0 ∉ q }

def Location.text (l : Location) : Bytes := l.scheme ++ [58, slash, slash] ++ l.host ++ slash :: l.path

def queryText (query : Option Query) : Bytes := query.elim [] (fun q => question :: q.1)

def url (l : Location) (query : Option Query) : Bytes := l.text ++ queryText query

/-- The bytes behind the last slash, or all where there is none. -/
def lastSegment (s : Bytes) : Bytes := s.rtakeWhile (· != slash)

def upToQuery (s : Bytes) : Bytes := s.takeWhile (· != question)

section Segments

variable {c : UInt8} {s t : Bytes}

theorem lastIndex_none (h : c ∉ s) : lastIndex c s = none := by
  induction s with
  | nil => rfl
  | cons b s ih =>
      obtain ⟨hb, hs⟩ := List.ne_and_not_mem_of_not_mem_cons h
      rw [lastIndex, ih hs, if_neg (Ne.symm hb)]
      rfl

theorem lastIndex_last (h : c ∉ t) (s : Bytes) : lastIndex c (s ++ c :: t) = some s.length := by
  induction s with
  | nil =>
      rw [List.nil_append, lastIndex, lastIndex_none h, if_pos rfl]
      rfl
  | cons b s ih =>
      rw [List.cons_append, lastIndex, ih]
      rfl

theorem lastSegment_self (h : slash ∉ s) : lastSegment s = s := by
  rw [lastSegment, List.rtakeWhile_eq_self_iff]
  exact fun b hb => bne_iff_ne.mpr (fun heq => h (heq ▸ hb))

theorem lastSegment_notMem (s : Bytes) : slash ∉ lastSegment s :=
  fun h => absurd (List.mem_rtakeWhile_imp h) (by decide)

theorem lastSegment_cons (h : slash ∉ t) (s : Bytes) : lastSegment (s ++ slash :: t) = t := by
  have hall : ∀ b ∈ t.reverse, (b != slash) = true :=
    fun b hb => bne_iff_ne.mpr (fun heq => h (heq ▸ List.mem_reverse.mp hb))
  rw [lastSegment, List.rtakeWhile, List.reverse_append, List.reverse_cons, List.append_assoc,
    List.takeWhile_append_of_pos hall, List.singleton_append, List.takeWhile_cons_of_neg (by decide), List.append_nil,
    List.reverse_reverse]

theorem exists_last (h : slash ∈ s) : ∃ front, s = front ++ slash :: lastSegment s := by
  have hwhole : s.rdropWhile (· != slash) ++ lastSegment s = s := List.rdropWhile_append_rtakeWhile
  have hne : s.rdropWhile (· != slash) ≠ [] := by
    intro hnil
    have hself : lastSegment s = s := by rwa [hnil, List.nil_append] at hwhole
    rw [← hself] at h
    exact lastSegment_notMem s h
  have hlast : (s.rdropWhile (· != slash)).getLast hne = slash := by
    simpa using List.rdropWhile_last_not (· != slash) s hne
  have hfront := List.dropLast_append_getLast hne
  rw [hlast] at hfront
  refine ⟨(s.rdropWhile (· != slash)).dropLast, ?_⟩
  conv => lhs; rw [← hwhole, ← hfront]
  rw [List.append_assoc, List.singleton_append]

theorem lastSegment_append_of_mem (h : slash ∈ t) (s : Bytes) : lastSegment (s ++ t) = lastSegment t := by
  obtain ⟨front, ht⟩ := exists_last h
  have hwhole : s ++ t = (s ++ front) ++ slash :: lastSegment t := by
    conv => lhs; rw [ht]
    rw [List.append_assoc]
  rw [hwhole, lastSegment_cons (lastSegment_notMem t)]

theorem lastSegment_append_of_notMem (hs : slash ∈ s) (h : slash ∉ t) : lastSegment (s ++ t) = lastSegment s ++ t := by
  obtain ⟨front, hfront⟩ := exists_last hs
  have hwhole : s ++ t = front ++ slash :: (lastSegment s ++ t) := by
    conv => lhs; rw [hfront]
    rw [List.append_assoc, List.cons_append]
  rw [hwhole, lastSegment_cons]
  rw [List.mem_append, not_or]
  exact ⟨lastSegment_notMem s, h⟩

theorem upToQuery_self (h : question ∉ s) : upToQuery s = s := by
  rw [upToQuery, List.takeWhile_eq_self_iff]
  exact fun b hb => bne_iff_ne.mpr (fun heq => h (heq ▸ hb))

theorem upToQuery_append (h : question ∉ s) (t : Bytes) : upToQuery (s ++ question :: t) = s := by
  rw [upToQuery, takeWhile_closed (by decide)]
  exact upToQuery_self h

end Segments

theorem extractFilename_eq {text : Bytes} (h0 : 0 ∉ text) (hslash : slash ∈ text) :
    extractFilename text = some (upToQuery (lastSegment text)) := by
  obtain ⟨front, htext⟩ := exists_last hslash
  have hname := lastSegment_notMem text
  generalize lastSegment text = name at htext hname
  subst htext
  have hzero : 0 ∉ slash :: name := fun h => h0 (List.mem_append_right _ h)
  have hzeroName : 0 ∉ name := fun h => hzero (List.mem_cons_of_mem _ h)
  have hstart : strrchr slash (front ++ slash :: name) = some front.length := by
    rw [strrchr, cstr_eq_self.mpr h0, lastIndex_last hname]
  have hbehind : (front ++ slash :: name).drop (front.length + 1) = name := by
    rw [List.drop_length_add_append, List.drop_succ_cons, List.drop_zero]
  rw [extractFilename, hstart]
  dsimp only
  rw [List.drop_left, hbehind]
  by_cases hquery : question ∈ name
  · obtain ⟨segment, rest, rfl, hsegment⟩ := List.eq_append_cons_of_mem hquery
    have hfree : question ∉ slash :: segment := by
      rw [List.mem_cons, not_or]
      exact ⟨by decide, hsegment⟩
    have hzeroSegment : 0 ∉ slash :: segment := by
      intro h
      rw [← List.cons_append] at hzero
      exact hzero (List.mem_append_left _ h)
    have hend : strchr question (slash :: (segment ++ question :: rest)) = some (segment.length + 1) := by
      exact strchr_first hfree hzeroSegment (by decide) rest
    rw [hend]
    dsimp only
    rw [Nat.add_sub_cancel, List.take_left, upToQuery_append hsegment,
      cstr_eq_self.mpr (fun h => hzeroSegment (List.mem_cons_of_mem _ h))]
  · have hnone : strchr question (slash :: name) = none := by
      refine strchr_none ?_
      rw [cstr_eq_self.mpr hzero, List.mem_cons, not_or]
      exact ⟨by decide, hquery⟩
    rw [hnone]
    dsimp only
    rw [cstr_eq_self.mpr hzeroName, upToQuery_self hquery]

section Urls

variable (l : Location)

theorem slash_mem_text : slash ∈ l.text := List.mem_append_right _ List.mem_cons_self

theorem zero_notMem_url (query : Option Query) : 0 ∉ url l query := by
  intro h
  have hcolon : (0 : UInt8) ∉ [58, slash, slash] := by decide
  rcases List.mem_append.mp h with htext | hquery
  · rcases List.mem_append.mp htext with hfront | hpath
    · rcases List.mem_append.mp hfront with hscheme | hhost
      · rcases List.mem_append.mp hscheme with hscheme | hcolons
        · exact l.schemePlain.2.2 hscheme
        · exact hcolon hcolons
      · exact l.hostPlain.2.2 hhost
    · rcases List.mem_cons.mp hpath with hslash | hpath
      · exact absurd hslash (by decide)
      · exact l.pathPlain.2 hpath
  · cases query with
    | none => exact List.not_mem_nil hquery
    | some q =>
        rcases List.mem_cons.mp hquery with hmark | hq
        · exact absurd hmark (by decide)
        · exact q.2 hq

def segment : Bytes := lastSegment l.path

theorem lastSegment_text : lastSegment l.text = segment l := by
  rw [Location.text, segment]
  by_cases hpath : slash ∈ l.path
  · rw [lastSegment_append_of_mem (List.mem_cons_of_mem _ hpath), ← List.singleton_append,
      lastSegment_append_of_mem hpath]
  · rw [lastSegment_cons hpath, lastSegment_self hpath]

theorem question_notMem_segment : question ∉ segment l :=
  fun h => l.pathPlain.1 ((List.rtakeWhile_suffix _ _).subset h)

theorem extractFilename_url (query : Option Query) :
    extractFilename (url l query) =
      some (if slash ∈ queryText query then upToQuery (lastSegment (queryText query)) else segment l) := by
  have hslash : slash ∈ url l query := List.mem_append_left _ (slash_mem_text l)
  rw [extractFilename_eq (zero_notMem_url l query) hslash, url]
  split
  next hmem => rw [lastSegment_append_of_mem hmem]
  next hnot =>
    rw [lastSegment_append_of_notMem (slash_mem_text l) hnot, lastSegment_text]
    cases query with
    | none => rw [queryText, Option.elim_none, List.append_nil, upToQuery_self (question_notMem_segment l)]
    | some q => rw [queryText, Option.elim_some, upToQuery_append (question_notMem_segment l)]

/-- The file is called as the path ends, by a name with neither a slash nor a question mark. -/
def NamedByPath (query : Option Query) : Prop :=
  extractFilename (url l query) = some (segment l) ∧ slash ∉ segment l ∧ question ∉ segment l

/-- The query has no slash, or after its last one it begins as the path ends. -/
def Harmless (query : Option Query) : Prop :=
  slash ∈ queryText query → upToQuery (lastSegment (queryText query)) = segment l

theorem namedByPath_iff (query : Option Query) : NamedByPath l query ↔ Harmless l query := by
  rw [NamedByPath, extractFilename_url, Harmless, Option.some.injEq,
    and_iff_left ⟨lastSegment_notMem l.path, question_notMem_segment l⟩]
  split
  next hmem => exact ⟨fun h _ => h, fun h => h hmem⟩
  next hnot => exact iff_of_true rfl (fun h => absurd h hnot)

/-- Two URLs that differ in their queries only. -/
theorem sameFile_iff (query query' : Option Query) :
    (NamedByPath l query ∧ NamedByPath l query' ∧ extractFilename (url l query) = extractFilename (url l query')) ↔
      Harmless l query ∧ Harmless l query' := by
  rw [← namedByPath_iff, ← namedByPath_iff]
  constructor
  · rintro ⟨h, h', -⟩
    exact ⟨h, h'⟩
  · rintro ⟨h, h'⟩
    exact ⟨h, h', h.1.trans h'.1.symm⟩

def firmware : Location where
  scheme := text "https"
  host := text "h"
  path := text "fw.bin"
  schemePlain := by decide
  hostPlain := by decide
  pathPlain := by decide

def signature : Query := ⟨text "sig=a/b", by decide⟩

theorem signature_renames : extractFilename (url firmware none) = some firmware.path ∧
    extractFilename (url firmware (some signature)) = some [98] ∧ ¬NamedByPath firmware (some signature) := by
  have hname : extractFilename (url firmware (some signature)) = some [98] := by decide
  refine ⟨by decide, hname, fun h => ?_⟩
  rw [NamedByPath, hname] at h
  exact absurd h.1 (by decide)

end Urls

end OneSdk.OtaFileName
