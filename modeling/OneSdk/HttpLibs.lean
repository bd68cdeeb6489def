import OneSdk.CString
import OneSdk.Framing
import Mathlib.Data.List.DropRight

namespace OneSdk.HttpLibs

open CString

def sseBufferSize : Nat := 15360

/-- `sse_context_t`, with the part of its buffer that is in use. The source has no
`stray`: it says that the parser has written outside its two local arrays. -/
structure SseContext where
  buffer : Bytes
  data : Option Bytes
  dataLen : Nat
  event : Option Bytes
  eventLen : Nat
  id : Option Bytes
  idLen : Nat
  stray : Bool
  deriving DecidableEq

def emptySse : SseContext := ⟨[], none, 0, none, 0, none, 0, false⟩

abbrev SseEvent := Option Bytes × Option Bytes

def SseContext.payload (sse : SseContext) : SseEvent := (sse.event, sse.data)

def keySize : Nat := 128

def valueSize : Nat := 15360

structure Parse where
  ctx : SseContext
  key : Bytes
  value : Bytes
  deriving DecidableEq

def lineLength (line : Bytes) (eol : Nat) : Nat :=
  if 0 < eol ∧ line.getD (eol - 1) 0 = carriageReturn then eol - 1 else eol

/-- `line` is the memory from the line on, up to the terminator of the buffer. -/
def splitKeyValue (line : Bytes) (lineLen : Nat) (s : Parse) : Parse :=
  match (strchr 58 line).filter (· < lineLen) with
  | none => s
  | some colon =>
      let keyLen := ((line.take colon).rdropWhile isspace).length
      let valStart := colon + 1 + ((line.drop (colon + 1)).takeWhile isspace).length
      -- `val_len` is a `size_t`: when the value starts behind the line it is huge
      let wraps := decide (lineLen < valStart)
      let valLen := lineLen - valStart
      { ctx :=
          { s.ctx with
            stray := s.ctx.stray || decide (keySize ≤ keyLen) || wraps || decide (valueSize ≤ valLen) }
        key := line.take (min keyLen (keySize - 1))
        value := cstr ((line.drop valStart).take (if wraps then valueSize - 1 else min valLen (valueSize - 1))) }

def storeField (s : Parse) : Parse :=
  if s.key = text "event" then
    { s with ctx := { s.ctx with event := some s.value, eventLen := s.value.length } }
  else if s.key = text "data" then
    { s with ctx := { s.ctx with data := some s.value, dataLen := s.value.length } }
  else s

def parseLine (line : Bytes) (lineLen : Nat) (s : Parse) : Parse :=
  if 0 < lineLen then storeField (splitKeyValue line lineLen s) else s

def parseLines : Nat → Bytes → Nat → Parse → Parse
  | 0, _, _, s => s
  | k + 1, line, n, s =>
      let eol := (memchr newline n line).getD n
      let s' := parseLine line (lineLength line eol) s
      let next := if eol < n then eol + 1 else eol
      if n ≤ next ∨ line.getD next 0 = 0 then s' else parseLines k (line.drop next) (n - next) s'

/-- `message` is the memory from the message on, of which `len` bytes belong to it. -/
def parseSseMessage (ctx : SseContext) (message : Bytes) (len : Nat) : SseContext :=
  (parseLines len message len ⟨ctx, [], []⟩).ctx

def onesdkMemmem (haystack needle : Bytes) : Option Nat :=
  if needle = [] ∨ haystack.length < needle.length then none
  else
    (List.range (haystack.length - needle.length + 1)).find? (fun i => (haystack.drop i).take needle.length == needle)

/-- Two parses that cannot be told apart, or that both have gone astray. -/
def Alike (s t : Parse) : Prop :=
  (s.ctx.stray = true ∧ t.ctx.stray = true) ∨
    s.ctx.stray = t.ctx.stray ∧ s.key = t.key ∧ s.value = t.value ∧ s.ctx.payload = t.ctx.payload

theorem Alike.refl (s : Parse) : Alike s s := .inr ⟨rfl, rfl, rfl, rfl⟩

variable {s t : Parse} {l r₁ r₂ : Bytes} {b : UInt8}

theorem strchr_lt {c : UInt8} {i : Nat} (h : strchr c l = some i) : i < l.length := by
  rw [← strchr_append c l [], Option.filter_eq_some_iff] at h
  simpa using h.2

@[simp] theorem storeField_stray (s : Parse) : (storeField s).ctx.stray = s.ctx.stray := by
  rw [storeField]
  split
  · rfl
  · split <;> rfl

theorem splitKeyValue_stray (h : s.ctx.stray = true) (line : Bytes) (n : Nat) :
    (splitKeyValue line n s).ctx.stray = true := by
  rw [splitKeyValue]
  split
  · exact h
  · simp [h]

/-- How a line that ends in white space is read does not depend on what follows it,
unless its value is blank. -/
theorem splitKeyValue_alike (hb : isspace b = true) (h : Alike s t) :
    Alike (splitKeyValue (l ++ b :: r₁) l.length s) (splitKeyValue (l ++ b :: r₂) l.length t) := by
  rcases h with ⟨hs, ht⟩ | ⟨hstray, hkey, hvalue, hpay⟩
  · exact .inl ⟨splitKeyValue_stray hs _ _, splitKeyValue_stray ht _ _⟩
  rw [splitKeyValue, splitKeyValue, strchr_append, strchr_append]
  cases hc : strchr 58 l with
  | none => exact .inr ⟨hstray, hkey, hvalue, hpay⟩
  | some colon =>
      have hlt := strchr_lt hc
      have hdrop (r : Bytes) : (l ++ b :: r).drop (colon + 1) = l.drop (colon + 1) ++ b :: r :=
        List.drop_append_of_le_length hlt
      have htake (r : Bytes) : (l ++ b :: r).take colon = l.take colon :=
        List.take_append_of_le_length (Nat.le_of_lt hlt)
      by_cases hblank : ∀ x ∈ l.drop (colon + 1), isspace x = true
      · have hwraps (r : Bytes) :
            l.length < colon + 1 + (((l ++ b :: r).drop (colon + 1)).takeWhile isspace).length := by
          have hbeyond := spaces_beyond (r := r) hblank hb
          rw [List.length_drop] at hbeyond
          rw [hdrop]
          omega
        left
        simp only [hwraps, decide_true, Bool.or_true, Bool.true_or, and_self]
      · have hgap (r : Bytes) : ((l ++ b :: r).drop (colon + 1)).takeWhile isspace =
          (l.drop (colon + 1)).takeWhile isspace := by
          rw [hdrop, spaces_within hblank]
        have hlen : colon + 1 + ((l.drop (colon + 1)).takeWhile isspace).length ≤ l.length := by
          have := (List.takeWhile_sublist isspace (l := l.drop (colon + 1))).length_le
          rw [List.length_drop] at this
          omega
        simp only [hgap, htake, Nat.not_lt.mpr hlen, decide_false, Bool.or_false]
        right
        refine ⟨by rw [hstray], ?_, ?_, hpay⟩
        · have hkeyLen := (List.rdropWhile_prefix isspace (l.take colon)).length_le
          rw [List.length_take] at hkeyLen
          rw [List.take_append_of_le_length (by omega), List.take_append_of_le_length (by omega)]
        · simp only [Bool.false_eq_true, if_false]
          rw [List.drop_append_of_le_length hlen, List.drop_append_of_le_length hlen,
            List.take_append_of_le_length (by rw [List.length_drop]; omega),
            List.take_append_of_le_length (by rw [List.length_drop]; omega)]

theorem storeField_alike (h : Alike s t) : Alike (storeField s) (storeField t) := by
  rcases h with ⟨hs, ht⟩ | ⟨hstray, hkey, hvalue, hpay⟩
  · exact .inl ⟨(storeField_stray s).trans hs, (storeField_stray t).trans ht⟩
  · rw [SseContext.payload, SseContext.payload, Prod.mk.injEq] at hpay
    right
    refine ⟨by rw [storeField_stray, storeField_stray, hstray], ?_⟩
    rw [storeField, storeField, hkey, hvalue]
    split
    · exact ⟨rfl, rfl, by simp [SseContext.payload, hpay.2]⟩
    · split
      · exact ⟨rfl, rfl, by simp [SseContext.payload, hpay.1]⟩
      · exact ⟨hkey, hvalue, by simp [SseContext.payload, hpay.1, hpay.2]⟩

theorem parseLine_alike (hb : isspace b = true) (h : Alike s t) :
    Alike (parseLine (l ++ b :: r₁) l.length s) (parseLine (l ++ b :: r₂) l.length t) := by
  rw [parseLine, parseLine]
  split
  · exact storeField_alike (splitKeyValue_alike hb h)
  · exact h

def chop (l : Bytes) : Bytes := if l.getLast? = some carriageReturn then l.dropLast else l

theorem line_shape (l : Bytes) :
    ∃ (b : UInt8) (rest : Bytes → Bytes), isspace b = true ∧
      ∀ r, l ++ newline :: r = chop l ++ b :: rest r ∧ lineLength (l ++ newline :: r) l.length = (chop l).length := by
  rcases List.eq_nil_or_concat l with rfl | ⟨p, c, rfl⟩
  · exact ⟨newline, id, rfl, fun r => ⟨rfl, rfl⟩⟩
  · rw [List.concat_eq_append]
    have hlast (r : Bytes) : (p ++ [c] ++ newline :: r).getD (p.length + 1 - 1) 0 = c := by
      simp [List.getD_eq_getElem?_getD]
    by_cases hc : c = carriageReturn
    · have hchop : chop (p ++ [c]) = p := by simp [chop, hc]
      refine ⟨c, (newline :: ·), hc ▸ rfl, fun r => ⟨by simp [hchop], ?_⟩⟩
      rw [lineLength, List.length_append, List.length_singleton, hlast, if_pos ⟨Nat.succ_pos _, hc⟩, hchop]
      rfl
    · have hchop : chop (p ++ [c]) = p ++ [c] := by simp [chop, hc]
      refine ⟨newline, id, rfl, fun r => ⟨by rw [hchop]; rfl, ?_⟩⟩
      rw [lineLength, List.length_append, List.length_singleton, hlast, if_neg (fun hand => hc hand.2), hchop]
      simp

theorem parseLine_newline (l : Bytes) (h : Alike s t) :
    Alike (parseLine (l ++ newline :: r₁) (lineLength (l ++ newline :: r₁) l.length) s)
      (parseLine (l ++ newline :: r₂) (lineLength (l ++ newline :: r₂) l.length) t) := by
  obtain ⟨b, rest, hb, hline⟩ := line_shape l
  rw [(hline r₁).2, (hline r₁).1, (hline r₂).2, (hline r₂).1]
  exact parseLine_alike hb h

theorem parseLines_newline (k : Nat) (hl : newline ∉ l) (m r : Bytes) (s : Parse) :
    parseLines (k + 1) (l ++ newline :: (m ++ r)) (l.length + 1 + m.length) s =
      let s' := parseLine (l ++ newline :: (m ++ r)) (lineLength (l ++ newline :: (m ++ r)) l.length) s
      if m = [] ∨ m.head? = some 0 then s' else parseLines k (m ++ r) m.length s' := by
  have hlt : l.length < l.length + 1 + m.length := by omega
  have hdrop : (l ++ newline :: (m ++ r)).drop (l.length + 1) = m ++ r := by
    rw [List.drop_length_add_append]
    rfl
  rw [parseLines, memchr_line _ _ _ _ hl hlt]
  simp only [Option.getD_some, if_pos hlt, Nat.add_sub_cancel_left, hdrop]
  cases m with
  | nil => rw [if_pos (.inl (by simp)), if_pos (.inl rfl)]
  | cons c m =>
      have hhead : (l ++ newline :: (c :: m ++ r)).getD (l.length + 1) 0 = c := by simp [List.getD_eq_getElem?_getD]
      have hstop : l.length + 1 + (c :: m).length ≤ l.length + 1 ∨ c = 0 ↔ c :: m = [] ∨ (c :: m).head? = some 0 := by
        rw [List.length_cons, List.head?_cons, Option.some.injEq]
        exact or_congr_left (iff_of_false (by omega) (List.cons_ne_nil c m))
      rw [hhead]
      simp only [hstop]

theorem exists_first_line {m : Bytes} (hm : m.getLast? = some newline) :
    ∃ l m', m = l ++ newline :: m' ∧ newline ∉ l ∧ m.length = l.length + 1 + m'.length ∧
      (m' ≠ [] → m'.getLast? = some newline) := by
  obtain ⟨l, m', rfl, hl⟩ := List.eq_append_cons_of_mem (List.mem_of_getLast? hm)
  refine ⟨l, m', rfl, hl, ?_, fun hne => ?_⟩
  · rw [List.length_append, List.length_cons]
    omega
  · obtain ⟨c, m', rfl⟩ := List.exists_cons_of_ne_nil hne
    simpa using hm

theorem parseLines_alike (k : Nat) {m : Bytes} (hm : m.getLast? = some newline) (h : Alike s t) :
    Alike (parseLines k (m ++ r₁) m.length s) (parseLines k (m ++ r₂) m.length t) := by
  induction k generalizing m s t with
  | zero => exact h
  | succ k ih =>
      obtain ⟨l, m', rfl, hl, hlen, hrest⟩ := exists_first_line hm
      have hnext : Alike _ _ := @parseLine_newline s t (m' ++ r₁) (m' ++ r₂) l h
      rw [hlen, List.append_assoc, List.append_assoc, List.cons_append, List.cons_append, parseLines_newline k hl,
        parseLines_newline k hl]
      dsimp only
      split
      · exact hnext
      next hgo =>
        obtain ⟨hne, -⟩ := not_or.mp hgo
        exact ih (hrest hne) hnext

theorem parseLine_stray (h : s.ctx.stray = true) (line : Bytes) (n : Nat) : (parseLine line n s).ctx.stray = true := by
  rw [parseLine]
  split
  · rw [storeField_stray, splitKeyValue_stray h]
  · exact h

theorem parseLines_stray (k : Nat) (h : s.ctx.stray = true) (line : Bytes) (n : Nat) :
    (parseLines k line n s).ctx.stray = true := by
  induction k generalizing line n s with
  | zero => exact h
  | succ k ih =>
      rw [parseLines]
      generalize (memchr newline n line).getD n = eol
      have hnext := parseLine_stray h line (lineLength line eol)
      by_cases hstop : n ≤ (if eol < n then eol + 1 else eol) ∨ line.getD (if eol < n then eol + 1 else eol) 0 = 0
      · rw [if_pos hstop]
        exact hnext
      · rw [if_neg hstop]
        exact ih hnext _ _

def parseBlock (e : Bytes) : SseContext := parseSseMessage emptySse e e.length

theorem parseSseMessage_block {e : Bytes} (he : e.getLast? = some newline) (ctx : SseContext)
    (hctx : ctx.payload = (none, none)) (r : Bytes) :
    (parseSseMessage ctx (e ++ r) e.length).stray = (ctx.stray || (parseBlock e).stray) ∧
      ((parseSseMessage ctx (e ++ r) e.length).stray = false →
        (parseSseMessage ctx (e ++ r) e.length).payload = (parseBlock e).payload) := by
  cases hs : ctx.stray with
  | true =>
      have h : (parseSseMessage ctx (e ++ r) e.length).stray = true := parseLines_stray _ hs _ _
      rw [h]
      exact ⟨rfl, fun hf => absurd hf (by simp)⟩
  | false =>
      have hstart : Alike ⟨ctx, [], []⟩ ⟨emptySse, [], []⟩ := .inr ⟨hs, rfl, rfl, hctx⟩
      have h : Alike (parseLines e.length (e ++ r) e.length _) (parseLines e.length (e ++ []) e.length _) :=
        parseLines_alike e.length he hstart
      rw [List.append_nil] at h
      rcases h with ⟨h₁, h₂⟩ | ⟨hstray, -, -, hpay⟩
      · refine ⟨h₁.trans h₂.symm, fun hf => ?_⟩
        exact absurd (h₁.symm.trans hf) (by simp)
      · exact ⟨hstray, fun _ => hpay⟩

theorem onesdkMemmem_eq_find {needle : Bytes} (hn : needle ≠ []) (haystack : Bytes) :
    onesdkMemmem haystack needle = Framing.find needle haystack := by
  have hocc (i : Nat) : ((haystack.drop i).take needle.length == needle) = true ↔ needle <+: haystack.drop i := by
    rw [beq_iff_eq, List.prefix_iff_eq_take, eq_comm]
  have hfit {i : Nat} (h : needle <+: haystack.drop i) : needle.length ≤ haystack.length ∧
      i < haystack.length - needle.length + 1 := by
    have hpos := List.length_pos_iff.mpr hn
    have hlen := h.length_le
    rw [List.length_drop] at hlen
    omega
  rw [onesdkMemmem]
  by_cases hshort : needle = [] ∨ haystack.length < needle.length
  · rw [if_pos hshort]
    cases hf : Framing.find needle haystack with
    | none => rfl
    | some i =>
        have hlen := (hfit (Framing.find_some hf)).1
        rcases hshort with h0 | hlt
        · exact absurd h0 hn
        · exact absurd hlen (by omega)
  · rw [if_neg hshort]
    cases hr : (List.range (haystack.length - needle.length + 1)).find?
      (fun i => (haystack.drop i).take needle.length == needle) with
    | some i =>
        obtain ⟨hi, hlt, hfirst⟩ := List.find?_range_eq_some.mp hr
        rw [List.mem_range] at hlt
        symm
        refine Framing.find_at ((hocc i).mp hi) (by omega) (fun j hj hno => ?_)
        exact absurd ((hocc j).mpr hno) (by simpa using hfirst j hj)
    | none =>
        cases hf : Framing.find needle haystack with
        | none => rfl
        | some i =>
            have hi := Framing.find_some hf
            rw [List.find?_eq_none] at hr
            exact absurd ((hocc i).mpr hi) (hr i (List.mem_range.mpr (hfit hi).2))

end OneSdk.HttpLibs
