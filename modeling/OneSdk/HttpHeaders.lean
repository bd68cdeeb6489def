import OneSdk.Runs
import OneSdk.Strtok

namespace OneSdk.HttpHeaders

open CString Strtok Runs

structure Header where
  key : Bytes
  value : Bytes
  key_ne : key ≠ []
  key_plain : ∀ b ∈ key, b ≠ 58 ∧ b ≠ carriageReturn ∧ b ≠ newline ∧ b ≠ 0
  value_plain : ∀ b ∈ value, b ≠ carriageReturn ∧ b ≠ newline ∧ b ≠ 0
  value_start : value.head? ≠ some 32

def Header.pair (h : Header) : Bytes × Bytes := (h.key, h.value)

def crlf : Bytes := [carriageReturn, newline]

/-- The new block of `http_ctx_add_header`, with the bytes behind the string. -/
def httpCtxAddHeader (headers : Option Bytes) (key value : Bytes) : Bytes :=
  let current := cstr (headers.getD [0])
  let newLength := current.length + (key.length + 1) + (value.length + 1) + 4
  let text := current ++ key ++ [58, 32] ++ value ++ crlf
  text ++ List.replicate (newLength - text.length) 0

/-- What lws does in one handshake: whether it has been redirected to GET, whether it takes
the headers that come first, and which of the calls for the custom headers succeed. -/
structure Handshake where
  redirectedToGet : Bool
  takesOthers : Bool
  takes : Nat → Bool

/-- The loop over the custom headers, with the calls of `lws_add_http_header_by_name`. -/
def passHeaders (takes : Nat → Bool) : Nat → Nat → Bytes → Nat → Bytes × List (Bytes × Bytes)
  | 0, _, block, _ => (block, [])
  | k + 1, i, block, start =>
      match strtokR crlf block start with
      | none => (block, [])
      | some (header, block, next) =>
          match strchr 58 (block.drop header) with
          | none => passHeaders takes k i block next
          | some colon =>
              let block := block.set (header + colon) 0
              let value := header + colon + 1 + ((block.drop (header + colon + 1)).takeWhile (· == 32)).length
              let call := (cstr (block.drop header), cstr (block.drop value))
              if takes i then
                let rest := passHeaders takes k (i + 1) block next
                (rest.1, call :: rest.2)
              else (block, [call])

/-- The custom headers in the branch APPEND_HANDSHAKE_HEADER, which cuts them up where they are. -/
def appendHandshakeHeader (headers : Option Bytes) (env : Handshake) : Option Bytes × List (Bytes × Bytes) :=
  if env.redirectedToGet || !env.takesOthers then (headers, [])
  else
    match headers with
    | none => (none, [])
    | some block =>
        let r := passHeaders env.takes (block.length + 1) 0 block 0
        (some r.1, r.2)

/-- The source does not keep `added`: it is what has been passed to `http_ctx_add_header`. -/
structure Sys where
  headers : Option Bytes
  added : List (Bytes × Bytes)

inductive Event where
  | add (h : Header)
  | handshake (env : Handshake)

def next (s : Sys) : Event → Sys
  | .add h => ⟨some (httpCtxAddHeader s.headers h.key h.value), s.added ++ [h.pair]⟩
  | .handshake env => { s with headers := (appendHandshakeHeader s.headers env).1 }

def request : Machine Sys Event := ⟨fun _ _ => True, next⟩

def newRequest : Sys := ⟨none, []⟩

def Passes (s : Sys) : Event → Prop
  | .add _ => True
  | .handshake env => (appendHandshakeHeader s.headers env).2 = s.added

/-- lws takes the headers up to the last of `n`, if not the last. -/
def Handshake.Complete (env : Handshake) (n : Nat) : Prop :=
  env.redirectedToGet = false ∧ env.takesOthers = true ∧ ∀ i, i + 1 < n → env.takes i = true

def Event.isHandshake : Event → Bool
  | .add _ => false
  | .handshake _ => true

/-- Once there are headers, one handshake passes them, and it is the last. -/
def Undisturbed : Nat → List Event → Prop
  | _, [] => True
  | n, .add _ :: es => Undisturbed (n + 1) es
  | n, .handshake env :: es =>
      (n = 0 ∧ Undisturbed 0 es) ∨ (0 < n ∧ env.Complete n ∧ ∀ e ∈ es, e.isHandshake = false)

section Lines

def line (h : Header) : Bytes := h.key ++ [58, 32] ++ h.value ++ crlf

def lines (hs : List Header) : Bytes := hs.flatMap line

def offered (takes : Nat → Bool) : Nat → List Header → List (Bytes × Bytes)
  | _, [] => []
  | i, h :: hs => h.pair :: if takes i then offered takes (i + 1) hs else []

variable {takes : Nat → Bool} {h : Header} {hs : List Header}

theorem offered_length (takes : Nat → Bool) (i : Nat) (hs : List Header) : (offered takes i hs).length ≤ hs.length := by
  induction hs generalizing i with
  | nil => exact Nat.le_refl 0
  | cons h hs ih =>
      rw [offered, List.length_cons, List.length_cons]
      split
      · exact Nat.succ_le_succ (ih (i + 1))
      · exact Nat.succ_le_succ (Nat.zero_le _)

theorem offered_eq_iff (i : Nat) (hs : List Header) :
    offered takes i hs = hs.map Header.pair ↔ ∀ j, j + 1 < hs.length → takes (i + j) = true := by
  induction hs generalizing i with
  | nil => exact iff_of_true rfl (fun j hj => absurd hj (by simp))
  | cons h hs ih =>
      rw [offered, List.map_cons, List.cons.injEq, and_iff_right rfl]
      cases hs with
      | nil =>
          refine iff_of_true ?_ (fun j hj => absurd hj (by simp))
          split <;> rfl
      | cons h' hs =>
          constructor
          · intro heq j hj
            by_cases htake : takes i = true
            · rw [if_pos htake, ih] at heq
              cases j with
              | zero => exact htake
              | succ j =>
                  rw [← Nat.add_assoc, Nat.add_right_comm]
                  exact heq j (by simpa using hj)
            · rw [if_neg htake] at heq
              exact absurd heq (by simp)
          · intro hall
            have hhead : takes i = true := hall 0 (by simp)
            rw [if_pos hhead, ih]
            intro j hj
            rw [Nat.add_right_comm, Nat.add_assoc]
            exact hall (j + 1) (by simpa using hj)

theorem mem_crlf (b : UInt8) : b ∈ crlf ↔ b = carriageReturn ∨ b = newline := by
  rw [crlf, List.mem_cons, List.mem_singleton]

theorem text_plain (h : Header) : ∀ b ∈ h.key ++ [58, 32] ++ h.value, b ∉ crlf ∧ b ≠ 0 := by
  intro b hb
  rw [mem_crlf, not_or]
  rcases List.mem_append.mp hb with hb | hb
  · rcases List.mem_append.mp hb with hb | hb
    · obtain ⟨-, hcr, hlf, hzero⟩ := h.key_plain b hb
      exact ⟨⟨hcr, hlf⟩, hzero⟩
    · rcases List.mem_pair.mp hb with rfl | rfl <;> decide
  · obtain ⟨hcr, hlf, hzero⟩ := h.value_plain b hb
    exact ⟨⟨hcr, hlf⟩, hzero⟩

theorem value_spaces (h : Header) (rest : Bytes) :
    ((32 : UInt8) :: (h.value ++ 0 :: rest)).takeWhile (· == 32) = [32] := by
  rw [List.takeWhile_cons_of_pos (by decide)]
  congr 1
  have hstart := h.value_start
  cases hv : h.value with
  | nil => rfl
  | cons b v =>
      rw [hv, List.head?_cons, ne_eq, Option.some.injEq] at hstart
      rw [List.cons_append, List.takeWhile_cons, if_neg (by simpa using hstart)]

theorem passHeaders_line (k i : Nat) {sep : Bytes} (hsep : ∀ b ∈ sep, b ∈ crlf ∧ b ≠ 0) (h : Header) (p tail : Bytes) :
    passHeaders takes (k + 1) i (p ++ sep ++ (line h ++ tail)) p.length =
      let cut := p ++ sep ++ h.key ++ [0, 32] ++ h.value ++ [0]
      let block := cut ++ [newline] ++ tail
      if takes i then
        let rest := passHeaders takes k (i + 1) block cut.length
        (rest.1, h.pair :: rest.2)
      else (block, [h.pair]) := by
  have hline : line h ++ tail = h.key ++ [58, 32] ++ h.value ++ carriageReturn :: (newline :: tail) := by
    simp [line, crlf]
  have htoken : h.key ++ [58, 32] ++ h.value ≠ [] := by simp
  have hcr : carriageReturn ∈ crlf ∧ carriageReturn ≠ 0 := by decide
  have hzero : (0 : UInt8) ∉ h.key := fun hb => (h.key_plain 0 hb).2.2.2 rfl
  have hcolon : (58 : UInt8) ∉ h.key := fun hb => (h.key_plain 58 hb).1 rfl
  have hvalue : (0 : UInt8) ∉ h.value := fun hb => (h.value_plain 0 hb).2.2 rfl
  -- the memory with the first NUL, behind the token, and then with the second, behind the key
  have hone : p ++ sep ++ (h.key ++ [58, 32] ++ h.value) ++ 0 :: (newline :: tail) =
      p ++ sep ++ (h.key ++ 58 :: (32 :: (h.value ++ 0 :: (newline :: tail)))) := by simp
  have htwo : (p ++ sep ++ (h.key ++ 58 :: (32 :: (h.value ++ 0 :: (newline :: tail))))).set
      ((p ++ sep).length + h.key.length) 0 = p ++ sep ++
        (h.key ++ 0 :: (32 :: (h.value ++ 0 :: (newline :: tail)))) := by
    rw [← List.length_append, ← List.append_assoc, set_middle, List.append_assoc]
  have hafter (b : Bytes) : (p ++ sep ++ (h.key ++ 0 :: b)).drop ((p ++ sep).length + h.key.length + 1) = b := by
    rw [← List.length_append, ← List.append_assoc, List.drop_length_add_append]
    rfl
  have hbeyond (b : Bytes) :
      (p ++ sep ++ (h.key ++ 0 :: (32 :: b))).drop
        ((p ++ sep).length + h.key.length + 1 + [(32 : UInt8)].length) = b := by
    rw [← List.drop_drop, hafter]
    rfl
  have hend : (p ++ sep ++ h.key ++ [0, 32] ++ h.value ++ [0]).length =
      (p ++ sep ++ (h.key ++ [58, 32] ++ h.value) ++ [0]).length := by
    simp only [List.length_append, List.length_cons, List.length_nil]
    omega
  have hblock : p ++ sep ++ (h.key ++ 0 :: (32 :: (h.value ++ 0 :: (newline :: tail)))) =
      p ++ sep ++ h.key ++ [0, 32] ++ h.value ++ [0] ++ [newline] ++ tail := by simp
  rw [hline, passHeaders, strtokR_token hsep htoken (text_plain h) hcr.1 hcr.2]
  dsimp only
  rw [hone, List.drop_left, strchr_first hcolon hzero (by decide)]
  dsimp only
  rw [htwo, hafter, value_spaces, hbeyond, List.drop_left, cstr_terminated, cstr_terminated, cstr_eq_self.mpr hzero,
    cstr_eq_self.mpr hvalue, ← hend, hblock]
  rfl

theorem passHeaders_lines {k : Nat} (takes : Nat → Bool) (i : Nat) (hk : hs.length < k) {sep : Bytes}
    (hsep : ∀ b ∈ sep, b ∈ crlf ∧ b ≠ 0) (p rest : Bytes) :
    (passHeaders takes k i (p ++ sep ++ (lines hs ++ 0 :: rest)) p.length).2 = offered takes i hs ∧
      p <+: (passHeaders takes k i (p ++ sep ++ (lines hs ++ 0 :: rest)) p.length).1 ∧
      ∀ h ∈ hs.head?, p ++ sep ++ h.key ++
        [0] <+: (passHeaders takes k i (p ++ sep ++ (lines hs ++ 0 :: rest)) p.length).1 := by
  induction hs generalizing k i p sep with
  | nil =>
      obtain ⟨k, rfl⟩ := Nat.exists_eq_add_of_lt hk
      have hnone : strtokR crlf (p ++ sep ++ (lines [] ++ 0 :: rest)) p.length = none := strtokR_none hsep p rest
      rw [passHeaders, hnone]
      exact ⟨rfl, ⟨sep ++ 0 :: rest, (List.append_assoc p sep _).symm⟩, by simp⟩
  | cons h hs ih =>
      obtain ⟨k, rfl⟩ : ∃ k', k = k' + 1 := ⟨k - 1, by omega⟩
      have hsep' : ∀ b ∈ [newline], b ∈ crlf ∧ b ≠ 0 := List.forall_mem_singleton.mpr (by decide)
      have hlines : lines (h :: hs) ++ 0 :: rest = line h ++ (lines hs ++ 0 :: rest) := by
        rw [lines, List.flatMap_cons, List.append_assoc]
        rfl
      have hcut : p ++ sep ++ h.key ++ [0] <+: p ++ sep ++ h.key ++ [0, 32] ++ h.value ++ [0] :=
        ⟨32 :: (h.value ++ [0]), by simp⟩
      have hp : p <+: p ++ sep ++ h.key ++ [0] := ⟨sep ++ h.key ++ [0], by simp⟩
      rw [hlines, passHeaders_line k i hsep, offered]
      dsimp only
      have hkey (block : Bytes) (hblock : p ++ sep ++ h.key ++ [0, 32] ++ h.value ++ [0] <+: block) :
          p <+: block ∧ ∀ h' ∈ (h :: hs).head?, p ++ sep ++ h'.key ++ [0] <+: block := by
        refine ⟨hp.trans (hcut.trans hblock), ?_⟩
        intro h' hh'
        obtain rfl : h = h' := Option.some.inj hh'
        exact hcut.trans hblock
      split
      · obtain ⟨hcalls, hprefix, -⟩ := ih (i + 1) (k := k) (by simpa using hk) hsep'
          (p ++ sep ++ h.key ++ [0, 32] ++ h.value ++ [0])
        exact ⟨congrArg (h.pair :: ·) hcalls, hkey _ hprefix⟩
      · exact ⟨rfl, hkey _ ⟨[newline] ++ (lines hs ++ 0 :: rest), by simp⟩⟩

end Lines

section Requests

variable {headers : Option Bytes} {t : Bytes} {env : Handshake} {h : Header} {hs : List Header} {s : Sys}
  {es : List Event}

def Holds (headers : Option Bytes) (t : Bytes) : Prop :=
  (0 : UInt8) ∉ t ∧ (headers = none ∧ t = [] ∨ ∃ rest, headers = some (t ++ 0 :: rest))

theorem Holds.cstr_eq (hh : Holds headers t) : cstr (headers.getD [0]) = t := by
  rcases hh with ⟨hzero, ⟨rfl, rfl⟩ | ⟨rest, rfl⟩⟩
  · rfl
  · rw [Option.getD_some, cstr_terminated, cstr_eq_self.mpr hzero]

theorem zero_notMem_line (h : Header) : (0 : UInt8) ∉ line h := by
  intro hzero
  rcases List.mem_append.mp hzero with hz | hz
  · exact (text_plain h 0 hz).2 rfl
  · exact absurd hz (by decide)

theorem Holds.add (hh : Holds headers t) (h : Header) : Holds (some (httpCtxAddHeader headers h.key h.value))
    (t ++ line h) := by
  have hzero : (0 : UInt8) ∉ t ++ line h := fun hz => (List.mem_append.mp hz).elim hh.1 (zero_notMem_line h)
  refine ⟨hzero, .inr ⟨[0], ?_⟩⟩
  have hspare : t.length + (h.key.length + 1) + (h.value.length + 1) + 4 -
      (t ++ h.key ++ [58, 32] ++ h.value ++ crlf).length = 2 := by
    simp only [List.length_append, List.length_cons, List.length_nil, crlf]
    omega
  rw [httpCtxAddHeader, hh.cstr_eq, hspare, line]
  simp

theorem append_refused (hrefused : (env.redirectedToGet || !env.takesOthers) = true) :
    appendHandshakeHeader headers env = (headers, []) := if_pos hrefused

theorem length_le_lines (hs : List Header) : hs.length ≤ (lines hs).length := by
  induction hs with
  | nil => exact Nat.le_refl 0
  | cons h hs ih =>
      have hline : 0 < (line h).length := by
        simp only [line, List.length_append, List.length_cons]
        omega
      rw [lines, List.flatMap_cons, List.length_append, List.length_cons, ← lines]
      omega

theorem append_reached (hreached : (env.redirectedToGet || !env.takesOthers) = false) (headers : Option Bytes) :
    appendHandshakeHeader headers env =
      headers.elim (none, []) (fun block =>
        (some (passHeaders env.takes (block.length + 1) 0 block 0).1,
          (passHeaders env.takes (block.length + 1) 0 block 0).2)) := by
  cases headers with
  | none => exact if_neg (by simp [hreached])
  | some block => exact if_neg (by simp [hreached])

theorem append_lines (hh : Holds headers (lines hs)) (hreached : (env.redirectedToGet || !env.takesOthers) = false) :
    (appendHandshakeHeader headers env).2 = offered env.takes 0 hs ∧
      ∀ h ∈ hs.head?, Holds (appendHandshakeHeader headers env).1 h.key := by
  have hlength := length_le_lines hs
  rw [append_reached hreached]
  rcases hh with ⟨-, ⟨rfl, hnil⟩ | ⟨rest, rfl⟩⟩
  · rw [hnil] at hlength
    obtain rfl : hs = [] := List.length_eq_zero_iff.mp (Nat.le_zero.mp hlength)
    exact ⟨rfl, by simp⟩
  · have hk : hs.length < (lines hs ++ 0 :: rest).length + 1 := by
      rw [List.length_append]
      omega
    have hsep : ∀ b ∈ ([] : Bytes), b ∈ crlf ∧ b ≠ 0 := List.forall_mem_nil _
    obtain ⟨hcalls, -, hhead⟩ := passHeaders_lines env.takes 0 hk hsep [] rest
    refine ⟨hcalls, fun h hmem => ?_⟩
    obtain ⟨r, hr⟩ := hhead h hmem
    have hzero : (0 : UInt8) ∉ h.key := fun hb => (h.key_plain 0 hb).2.2.2 rfl
    refine ⟨hzero, .inr ⟨r, ?_⟩⟩
    rw [List.nil_append, List.nil_append, List.append_assoc] at hr
    exact congrArg some hr.symm

def KeyLike (t : Bytes) : Prop := ∀ b ∈ t, b ≠ 58 ∧ b ≠ carriageReturn ∧ b ≠ newline ∧ b ≠ 0

theorem append_key (env : Handshake) (hh : Holds headers t) (hkey : KeyLike t) :
    (appendHandshakeHeader headers env).2 = [] ∧ Holds (appendHandshakeHeader headers env).1 t := by
  cases hreached : (env.redirectedToGet || !env.takesOthers) with
  | true =>
      rw [append_refused hreached]
      exact ⟨rfl, hh⟩
  | false =>
      rw [append_reached hreached]
      obtain ⟨hzero, ⟨rfl, rfl⟩ | ⟨rest, rfl⟩⟩ := hh
      · exact ⟨rfl, by simp, .inl ⟨rfl, rfl⟩⟩
      · have hplain : ∀ b ∈ t, b ∉ crlf ∧ b ≠ 0 := by
          intro b hb
          obtain ⟨-, hcr, hlf, hne⟩ := hkey b hb
          rw [mem_crlf, not_or]
          exact ⟨⟨hcr, hlf⟩, hne⟩
        have hnone : strchr 58 (t ++ 0 :: rest) = none := by
          apply strchr_none
          rw [cstr_terminated, cstr_eq_self.mpr hzero]
          exact fun hb => (hkey 58 hb).1 rfl
        have hend : passHeaders env.takes (t ++ 0 :: rest).length 0 (t ++ 0 :: rest) t.length =
            (t ++ 0 :: rest, []) := by
          have hstop : strtokR crlf (t ++ 0 :: rest) t.length = none := by
            have hdone : strtokR crlf (t ++ [] ++ 0 :: rest) t.length = none := strtokR_none (by simp) t rest
            rwa [List.append_nil] at hdone
          rw [List.length_append, List.length_cons, ← Nat.add_assoc, passHeaders, hstop]
        have hpass : passHeaders env.takes ((t ++ 0 :: rest).length + 1) 0 (t ++ 0 :: rest) 0 =
            (t ++ 0 :: rest, []) := by
          cases t with
          | nil =>
              have hstop : strtokR crlf ([] ++ 0 :: rest) 0 = none := strtokR_none (List.forall_mem_nil _) [] rest
              rw [passHeaders, hstop]
          | cons c t =>
              have hlast : strtokR crlf (c :: t ++ 0 :: rest) 0 = some (0, c :: t ++ 0 :: rest, (c :: t).length) :=
                strtokR_last (List.forall_mem_nil _) (by simp) hplain [] rest
              rw [passHeaders, hlast]
              dsimp only
              rw [List.drop_zero, hnone]
              exact hend
        rw [Option.elim_some, hpass]
        exact ⟨rfl, hzero, .inr ⟨rest, rfl⟩⟩

def joined (t : Bytes) (hkey : KeyLike t) (h : Header) : Header where
  key := t ++ h.key
  value := h.value
  key_ne := by simp [h.key_ne]
  key_plain := by
    intro b hb
    exact (List.mem_append.mp hb).elim (hkey b) (h.key_plain b)
  value_plain := h.value_plain
  value_start := h.value_start

theorem line_joined (hkey : KeyLike t) (h : Header) : t ++ line h = lines [joined t hkey h] := by
  rw [lines, List.flatMap_singleton, line, line, joined]
  simp

theorem lines_snoc (hs : List Header) (h : Header) : lines (hs ++ [h]) = lines hs ++ line h := by
  rw [lines, List.flatMap_append, List.flatMap_singleton]
  rfl

def Whole (s : Sys) (hs : List Header) : Prop := Holds s.headers (lines hs) ∧ s.added = hs.map Header.pair

def Spoilt (s : Sys) : Prop :=
  s.added ≠ [] ∧ ((∃ t, KeyLike t ∧ Holds s.headers t) ∨ ∃ hs, Holds s.headers (lines hs) ∧ hs.length < s.added.length)

theorem whole_start : Whole newRequest [] := ⟨⟨by simp [lines], .inl ⟨rfl, rfl⟩⟩, rfl⟩

theorem Whole.add (hw : Whole s hs) (h : Header) : Whole (next s (.add h)) (hs ++ [h]) := by
  refine ⟨?_, ?_⟩
  · rw [lines_snoc]
    exact hw.1.add h
  · rw [next, hw.2, List.map_append]
    rfl

theorem Spoilt.add (hs : Spoilt s) (h : Header) : Spoilt (next s (.add h)) := by
  have hlen : (next s (.add h)).added.length = s.added.length + 1 := by
    rw [next, List.length_append]
    rfl
  refine ⟨by simp [next], .inr ?_⟩
  rcases hs.2 with ⟨t, hkey, hholds⟩ | ⟨hs', hholds, hshort⟩
  · have hpos := List.length_pos_iff.mpr hs.1
    refine ⟨[joined t hkey h], ?_, ?_⟩
    · rw [← line_joined]
      exact hholds.add h
    · rw [hlen, List.length_singleton]
      omega
  · refine ⟨hs' ++ [h], ?_, ?_⟩
    · rw [lines_snoc]
      exact hholds.add h
    · rw [hlen, List.length_append, List.length_singleton]
      omega

theorem Spoilt.not_passes (hs : Spoilt s) (env : Handshake) : ¬Passes s (.handshake env) := by
  intro hpass
  have hadded : (appendHandshakeHeader s.headers env).2 = s.added := hpass
  rcases hs.2 with ⟨t, hkey, hholds⟩ | ⟨hs', hholds, hshort⟩
  · exact hs.1 (hadded.symm.trans (append_key env hholds hkey).1)
  · cases hreached : (env.redirectedToGet || !env.takesOthers) with
    | true =>
        rw [append_refused hreached] at hadded
        exact hs.1 hadded.symm
    | false =>
        rw [(append_lines hholds hreached).1] at hadded
        have hlen := offered_length env.takes 0 hs'
        rw [hadded] at hlen
        omega

theorem Spoilt.everyStep (hs : Spoilt s) (es : List Event) :
    EveryStep request Passes s es ↔ ∀ e ∈ es, e.isHandshake = false := by
  induction es generalizing s with
  | nil => exact iff_of_true trivial (by simp)
  | cons e es ih =>
      rw [EveryStep, List.forall_mem_cons]
      cases e with
      | add h => exact and_congr (iff_of_true trivial rfl) (ih (hs.add h))
      | handshake env =>
          exact iff_of_false (fun h => hs.not_passes env h.1) (fun h => absurd h.1 (by simp [Event.isHandshake]))

theorem Whole.passes_iff (hw : Whole s hs) (hne : hs ≠ []) (env : Handshake) :
    Passes s (.handshake env) ↔ env.Complete hs.length := by
  have hpasses : Passes s (.handshake env) ↔ (appendHandshakeHeader s.headers env).2 = hs.map Header.pair := by
    rw [← hw.2]; rfl
  rw [hpasses]
  cases hreached : (env.redirectedToGet || !env.takesOthers) with
  | true =>
      rw [append_refused hreached]
      refine iff_of_false (by simpa using Ne.symm hne) ?_
      rintro ⟨hget, hothers, -⟩
      rw [hget, hothers] at hreached
      exact absurd hreached (by simp)
  | false =>
      rw [Bool.or_eq_false_iff, Bool.not_eq_false'] at hreached
      rw [(append_lines hw.1 (by simp [hreached])).1, offered_eq_iff, Handshake.Complete]
      simp only [hreached, true_and, Nat.zero_add]

theorem Whole.spoilt (hw : Whole s hs) (hne : hs ≠ []) {env : Handshake} (hc : env.Complete hs.length) :
    Spoilt (next s (.handshake env)) := by
  obtain ⟨h, hs, rfl⟩ := List.exists_cons_of_ne_nil hne
  have hreached : (env.redirectedToGet || !env.takesOthers) = false := by rw [hc.1, hc.2.1]; rfl
  refine ⟨?_, .inl ⟨h.key, h.key_plain, (append_lines hw.1 hreached).2 h rfl⟩⟩
  change s.added ≠ []
  rw [hw.2]
  simp

theorem Whole.everyStep (hw : Whole s hs) (es : List Event) :
    EveryStep request Passes s es ↔ Undisturbed hs.length es := by
  induction es generalizing s hs with
  | nil => exact Iff.rfl
  | cons e es ih =>
      rw [EveryStep]
      cases e with
      | add h =>
          have hrest := ih (hw.add h)
          rw [List.length_append] at hrest
          exact (and_iff_right trivial).trans hrest
      | handshake env =>
          rw [Undisturbed]
          cases hs with
          | nil =>
              have hempty := append_key env hw.1 (by simp [KeyLike, lines])
              have hnext : Whole (next s (.handshake env)) [] := ⟨hempty.2, hw.2⟩
              have hpass : Passes s (.handshake env) := hempty.1.trans hw.2.symm
              simp only [hpass, true_and, List.length_nil, Nat.lt_irrefl, false_and, or_false]
              exact ih hnext
          | cons h hs =>
              have hpos : ¬(h :: hs).length = 0 := by simp
              simp only [hpos, false_and, false_or]
              rw [hw.passes_iff (by simp), and_iff_right (Nat.pos_of_ne_zero hpos)]
              exact and_congr_right (fun hc => (hw.spoilt (by simp) hc).everyStep es)

/-- Each handshake passes on the list of headers just when at most one of them comes after the
first header has been added, and lws lets that one pass them all. -/
theorem handshakes_pass_iff (es : List Event) : EveryStep request Passes newRequest es ↔ Undisturbed 0 es :=
  whole_start.everyStep es

def plainHeader : Header :=
  ⟨[107], [118], by simp, List.forall_mem_singleton.mpr (by decide), List.forall_mem_singleton.mpr (by decide),
    by decide⟩

def willing : Handshake := ⟨false, true, fun _ => true⟩

theorem second_handshake_bare :
    ¬EveryStep request Passes newRequest [.add plainHeader, .handshake willing, .handshake willing] := by
  intro h
  have hsecond : (appendHandshakeHeader
    (next (next newRequest (.add plainHeader)) (.handshake willing)).headers willing).2 =
      [plainHeader.pair] := h.2.2.1
  exact absurd hsecond (by decide)

end Requests

end OneSdk.HttpHeaders
