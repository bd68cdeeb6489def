import OneSdk.RtReceive
import OneSdk.StreamParse

namespace OneSdk.RtFragments

open CString Emits StreamParse RtReceive

def Blank (white : Bytes) : Prop := ∀ b ∈ white, b ∈ [(32 : UInt8), 9, 10, 13]

instance (white : Bytes) : Decidable (Blank white) := inferInstanceAs (Decidable (∀ b ∈ white, _))

def Object {J : Type} (json : CJson J) (text : Bytes) (root : J) : Prop :=
  json.parseWithLengthOpts text = some (root, text.length) ∧ text.head? = some 123

/-- `cJSON_ParseWithLengthOpts` parses the first object of a buffer and reports its end,
and gives nothing for one that is not complete. -/
structure ParsesFirst {J : Type} (json : CJson J) : Prop where
  whole : ∀ white text root rest, Blank white → Object json text root →
    json.parseWithLengthOpts (white ++ text ++ rest) = some (root, (white ++ text).length)
  unfinished : ∀ white text root part, Blank white → Object json text root → part <+: white ++ text →
    part ≠ white ++ text → json.parseWithLengthOpts part = none
  blank : ∀ white, Blank white → json.parseWithLengthOpts white = none

structure Message {J : Type} (json : CJson J) where
  white : Bytes
  text : Bytes
  root : J
  blank : Blank white
  object : Object json text root

variable {J : Type} {json : CJson J} {alloc : Nat → Bool} {c : RtContext}

def stream (ms : List (Message json)) (trailing : Bytes) : Bytes :=
  (ms.map (fun m => m.white ++ m.text)).flatten ++ trailing

/-- The memory can be asked for: twice what is held and what comes. -/
def Affordable (json : CJson J) (alloc : Nat → Bool) : RtContext → List Bytes → Prop
  | _, [] => True
  | c, f :: fs =>
      (c.rtJsonBuf.length + f.length) * 2 < sizeValues ∧
        ∀ c', (rtRecvCb json alloc c f).next = some c' → Affordable json alloc c' fs

theorem message_frame (h : ParsesFirst json) (m : Message json) :
    Frame json.parseWithLengthOpts (m.white ++ m.text) m.root where
  nonempty := by
    intro hnil
    have hhead := m.object.2
    rw [(List.append_eq_nil_iff.mp hnil).2] at hhead
    exact absurd hhead (by simp)
  whole rest := h.whole m.white m.text m.root rest m.blank m.object
  unfinished part hpart hne := h.unfinished m.white m.text m.root part m.blank m.object hpart hne

theorem messages_stream (h : ParsesFirst json) (ms : List (Message json)) {trailing : Bytes} (hblank : Blank trailing) :
    Stream json.parseWithLengthOpts (stream ms trailing) (ms.map Message.root) := by
  induction ms with
  | nil => exact .tail (fun part hpart => h.blank part (fun b hb => hblank b (hpart.subset hb)))
  | cons m ms ih =>
      rw [stream, List.map_cons, List.flatten_cons, List.append_assoc]
      exact .frame (message_frame h m) ih

theorem passes_drain (k : Nat) (c : RtContext) :
    passes json k c =
      ⟨(drain json.parseWithLengthOpts k c.rtJsonBuf).out.map (passCall json c.rtEventCb),
        (drain json.parseWithLengthOpts k c.rtJsonBuf).next.map (fun b => { c with rtJsonBuf := b })⟩ := by
  induction k generalizing c with
  | zero => rfl
  | succ k ih =>
      rw [passes, drain]
      cases json.parseWithLengthOpts c.rtJsonBuf with
      | none => rfl
      | some result =>
          obtain ⟨root, processed⟩ := result
          dsimp only
          split
          · rw [ih]
            rfl
          · rfl

def Sound (c : RtContext) : Prop :=
  c.block = none ∧ c.rtJsonBuf = [] ∨
    c.block = some c.rtJsonBufCapacity ∧ c.rtJsonBuf.length ≤ c.rtJsonBufCapacity

theorem reserve_fits (halloc : ∀ n, alloc n = true) (h : Sound c) {len : Nat}
    (hlen : (c.rtJsonBuf.length + len) * 2 < sizeValues) :
    ∃ capacity, c.rtJsonBuf.length + len ≤ capacity ∧
      reserve alloc c len = ({ c with block := some capacity, rtJsonBufCapacity := capacity }, true) := by
  rw [reserve]
  rcases h with ⟨hblock, hbuf⟩ | ⟨hblock, hcapacity⟩
  · rw [hbuf, List.length_nil, Nat.zero_add] at hlen ⊢
    refine ⟨len * 2, by omega, ?_⟩
    rw [hblock]
    dsimp only
    rw [halloc, Nat.mod_eq_of_lt hlen, if_pos rfl]
  · rw [hblock]
    dsimp only
    rw [Nat.mod_eq_of_lt (show c.rtJsonBuf.length + len < sizeValues by omega)]
    split
    · rw [if_neg (by omega), halloc, if_pos rfl, Nat.mod_eq_of_lt hlen]
      exact ⟨_, by omega, rfl⟩
    next hroom =>
      refine ⟨c.rtJsonBufCapacity, Nat.le_of_not_lt hroom, ?_⟩
      rw [← hblock]

theorem rtRecvCb_drain (json : CJson J) (halloc : ∀ n, alloc n = true) (h : Sound c) {f : Bytes}
    (hlen : (c.rtJsonBuf.length + f.length) * 2 < sizeValues) :
    (rtRecvCb json alloc c f).out =
        (drain json.parseWithLengthOpts ((c.rtJsonBuf ++ f).length + 1) (c.rtJsonBuf ++ f)).out.map
          (passCall json c.rtEventCb) ∧
      (rtRecvCb json alloc c f).next.map RtContext.rtJsonBuf =
        (drain json.parseWithLengthOpts ((c.rtJsonBuf ++ f).length + 1) (c.rtJsonBuf ++ f)).next ∧
      ∀ c', (rtRecvCb json alloc c f).next = some c' → Sound c' ∧ c'.rtEventCb = c.rtEventCb := by
  obtain ⟨capacity, hroom, hreserve⟩ := reserve_fits halloc h hlen
  rw [rtRecvCb, hreserve]
  dsimp only
  rw [if_pos rfl, Option.getD_some, if_pos hroom, passes_drain]
  refine ⟨rfl, ?_, ?_⟩
  · rw [Option.map_map]
    exact Option.map_id_apply
  · intro c' hc'
    obtain ⟨rest, hrest, rfl⟩ := Option.map_eq_some_iff.mp hc'
    have hle := drain_length hrest
    rw [List.length_append] at hle
    exact ⟨.inr ⟨rfl, Nat.le_trans hle hroom⟩, rfl⟩

theorem receiveAll_received (halloc : ∀ n, alloc n = true) (h : Sound c) {fs : List Bytes}
    (hfs : Affordable json alloc c fs) :
    (receiveAll json alloc c fs).out =
        (received json.parseWithLengthOpts c.rtJsonBuf fs).out.map (passCall json c.rtEventCb) ∧
      (receiveAll json alloc c fs).next.map RtContext.rtJsonBuf =
        (received json.parseWithLengthOpts c.rtJsonBuf fs).next := by
  induction fs generalizing c with
  | nil => exact ⟨rfl, rfl⟩
  | cons f fs ih =>
      obtain ⟨hlen, hrest⟩ := hfs
      obtain ⟨hout, hnext, hsound⟩ := rtRecvCb_drain json halloc h hlen
      cases hc : (rtRecvCb json alloc c f).next with
      | none =>
          rw [hc] at hnext
          rw [receiveAll, received, bind_of_none hc, bind_of_none hnext.symm]
          exact ⟨hout, rfl⟩
      | some c' =>
          obtain ⟨hc', hcb⟩ := hsound c' hc
          obtain ⟨hout', hnext'⟩ := ih hc' (hrest c' hc)
          rw [hc] at hnext
          rw [receiveAll, received, bind_of_some hc, bind_of_some hnext.symm, List.map_append, hout, hout', hcb]
          exact ⟨rfl, hnext'⟩

theorem receiveAll_messages (hjson : ParsesFirst json) (halloc : ∀ n, alloc n = true) (cb : Option EventCb)
    (ms : List (Message json)) {trailing : Bytes} (hblank : Blank trailing) {fs : List Bytes}
    (hfs : fs.flatten = stream ms trailing) (hfits : Affordable json alloc (newContext cb) fs) :
    (receiveAll json alloc (newContext cb) fs).out = ms.map (fun m => passCall json cb m.root) ∧
      (receiveAll json alloc (newContext cb) fs).next.isSome = true := by
  have hstart : Sound (newContext cb) := .inl ⟨rfl, rfl⟩
  obtain ⟨hout, hnext⟩ := receiveAll_received halloc hstart hfits
  have hstream : Stream json.parseWithLengthOpts ([] ++ fs.flatten) (ms.map Message.root) := by
    rw [List.nil_append, hfs]
    exact messages_stream hjson ms hblank
  obtain ⟨rest, hreceived⟩ := hstream.received (hjson.blank [] (fun b hb => absurd hb List.not_mem_nil))
  rw [newContext] at hout hnext ⊢
  rw [hreceived] at hout hnext
  refine ⟨?_, ?_⟩
  · rw [hout, List.map_map]
    rfl
  · rw [← Option.isSome_map, hnext]
    rfl

theorem affordable_of_short (halloc : ∀ n, alloc n = true) (h : Sound c) {fs : List Bytes}
    (hfs : (c.rtJsonBuf.length + fs.flatten.length) * 2 < sizeValues) : Affordable json alloc c fs := by
  induction fs generalizing c with
  | nil => trivial
  | cons f fs ih =>
      rw [List.flatten_cons, List.length_append] at hfs
      have hlen : (c.rtJsonBuf.length + f.length) * 2 < sizeValues := by omega
      refine ⟨hlen, fun c' hc' => ?_⟩
      obtain ⟨-, hnext, hsound⟩ := rtRecvCb_drain json halloc h hlen
      rw [hc'] at hnext
      have hle := drain_length hnext.symm
      rw [List.length_append] at hle
      exact ih (hsound c' hc').1 (by omega)

/-- Two ways of cutting one stream of messages make the same callbacks: one pass for each
message, in their order. -/
theorem fragments_agree (json : CJson J) (hjson : ParsesFirst json) (alloc : Nat → Bool) (halloc : ∀ n, alloc n = true)
    (cb : Option EventCb) (ms : List (Message json)) (trailing : Bytes) (hblank : Blank trailing) (fs gs : List Bytes)
    (hfs : fs.flatten = stream ms trailing) (hgs : gs.flatten = stream ms trailing)
    (hfsAffordable : Affordable json alloc (newContext cb) fs)
    (hgsAffordable : Affordable json alloc (newContext cb) gs) :
    ((receiveAll json alloc (newContext cb) fs).out = ms.map (fun m => passCall json cb m.root) ∧
        (receiveAll json alloc (newContext cb) fs).next.isSome = true) ∧
      ((receiveAll json alloc (newContext cb) gs).out = ms.map (fun m => passCall json cb m.root) ∧
        (receiveAll json alloc (newContext cb) gs).next.isSome = true) :=
  ⟨receiveAll_messages hjson halloc cb ms hblank hfs hfsAffordable,
    receiveAll_messages hjson halloc cb ms hblank hgs hgsAffordable⟩

/-- cJSON on a text that is the only object there is. A node is a string or something
else, and the object has a type and an event id. -/
def onlyJson (text type : Bytes) : CJson (Option Bytes) where
  parseWithLengthOpts b :=
    if text <+: b.dropWhile isspace then some (none, (b.takeWhile isspace).length + text.length) else none
  getObjectItem node key :=
    if node.isSome then none else if key = typeKey then some (some type) else if key =
      eventIdKey then some none else none
  valuestring node := node

theorem blank_isspace {white : Bytes} (h : Blank white) : ∀ b ∈ white, isspace b = true := by
  intro b hb
  have hmem := h b hb
  simp only [List.mem_cons, List.not_mem_nil, or_false] at hmem
  rcases hmem with rfl | rfl | rfl | rfl <;> rfl

theorem brace_not_space {text : Bytes} (h : text.head? = some 123) :
    text.dropWhile isspace = text ∧ text.takeWhile isspace = [] := by
  cases text with
  | nil => exact absurd h (by simp)
  | cons b text =>
      obtain rfl : b = 123 := Option.some.inj h
      exact ⟨rfl, rfl⟩

theorem onlyJson_object {text type text' : Bytes} {root : Option Bytes} (h : Object (onlyJson text type) text' root) :
    text' = text ∧ root = none := by
  obtain ⟨hparse, hhead⟩ := h
  obtain ⟨hdrop, htake⟩ := brace_not_space hhead
  rw [onlyJson] at hparse
  dsimp only at hparse
  rw [hdrop, htake] at hparse
  split at hparse
  next hpre =>
    simp only [Option.some.injEq, Prod.mk.injEq, List.length_nil, Nat.zero_add] at hparse
    exact ⟨(hpre.eq_of_length hparse.2).symm, hparse.1.symm⟩
  next => exact absurd hparse (by simp)

theorem onlyJson_blank {text white : Bytes} (type : Bytes) (h : text.head? = some 123) (hwhite : Blank white) :
    (onlyJson text type).parseWithLengthOpts white = none := by
  have hdrop : white.dropWhile isspace = [] := List.dropWhile_eq_nil_iff.mpr (blank_isspace hwhite)
  rw [onlyJson]
  dsimp only
  rw [hdrop, if_neg]
  intro hpre
  rw [List.prefix_nil.mp hpre] at h
  exact absurd h (by simp)

theorem onlyJson_parsesFirst {text : Bytes} (type : Bytes) (h : text.head? = some 123) :
    ParsesFirst (onlyJson text type) where
  whole white text' root rest hwhite hobject := by
    obtain ⟨rfl, rfl⟩ := onlyJson_object hobject
    have hhead : (text' ++ rest).head? = some 123 := by rw [List.head?_append, h, Option.some_or]
    obtain ⟨hdrop, htake⟩ := brace_not_space hhead
    rw [onlyJson]
    dsimp only
    rw [List.append_assoc, List.dropWhile_append_of_pos (blank_isspace hwhite),
      List.takeWhile_append_of_pos (blank_isspace hwhite), hdrop, htake, if_pos (List.prefix_append _ _),
      List.append_nil, List.length_append]
  unfinished white text' root part hwhite hobject hpart hne := by
    obtain ⟨rfl, -⟩ := onlyJson_object hobject
    rcases List.prefix_or_prefix_of_prefix hpart (List.prefix_append white text') with hshort | ⟨p, rfl⟩
    · exact onlyJson_blank type h (fun b hb => hwhite b (hshort.subset hb))
    · have hp : p <+: text' := (List.prefix_append_right_inj white).mp hpart
      rw [onlyJson]
      dsimp only
      rw [List.dropWhile_append_of_pos (blank_isspace hwhite), if_neg]
      intro hpre
      have hle := hpre.length_le.trans (List.dropWhile_suffix isspace).length_le
      exact hne (by rw [hp.eq_of_length_le hle])
  blank _ hwhite := onlyJson_blank type h hwhite

/-- `{"type":"response.done","event_id":1}` -/
def doneText : Bytes := text "\x7b\"type\":\"response.done\",\"event_id\":1\x7d"

def doneMessage (white : Bytes) (h : Blank white) : Message (onlyJson doneText responseDone) where
  white := white
  text := doneText
  root := none
  blank := h
  object := by
    refine ⟨?_, rfl⟩
    decide

def allCallbacks : EventCb := ⟨true, true, true, true, true, true⟩

/-- Two messages with a line between them, in one fragment and cut within the first. -/
theorem twoMessages_agree :
    ((receiveAll (onlyJson doneText responseDone) (fun _ => true) (newContext (some allCallbacks))
            [doneText ++ [10] ++ doneText]).out = [some .onResponseDone, some .onResponseDone] ∧
        (receiveAll (onlyJson doneText responseDone) (fun _ => true) (newContext (some allCallbacks))
            [doneText ++ [10] ++ doneText]).next.isSome = true) ∧
      ((receiveAll (onlyJson doneText responseDone) (fun _ => true) (newContext (some allCallbacks))
            [doneText.take 5, doneText.drop 5 ++ [10] ++ doneText]).out = [some .onResponseDone, some .onResponseDone] ∧
        (receiveAll (onlyJson doneText responseDone) (fun _ => true) (newContext (some allCallbacks))
            [doneText.take 5, doneText.drop 5 ++ [10] ++ doneText]).next.isSome = true) :=
  fragments_agree (onlyJson doneText responseDone) (onlyJson_parsesFirst _ rfl) (fun _ => true) (fun _ => rfl)
    (some allCallbacks) [doneMessage [] (by simp [Blank]), doneMessage [10] (by simp [Blank])] [] (by simp [Blank])
    [doneText ++ [10] ++ doneText] [doneText.take 5, doneText.drop 5 ++ [10] ++ doneText] (by decide) (by decide)
    (affordable_of_short (fun _ => rfl) (.inl ⟨rfl, rfl⟩) (by decide))
    (affordable_of_short (fun _ => rfl) (.inl ⟨rfl, rfl⟩) (by decide))

end OneSdk.RtFragments
