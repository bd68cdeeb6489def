import OneSdk.OnesdkChat

namespace OneSdk.ChatText

open CString Emits OnesdkChat

def delta (r : ChatStreamResponse) : Option Bytes := r.choices.head?.join.map cstr

def Within (n : Nat) : Output → Prop
  | .write start len => start + len ≤ n
  | .stream _ => True

instance (n : Nat) : DecidablePred (Within n)
  | .write start len => inferInstanceAs (Decidable (start + len ≤ n))
  | .stream _ => inferInstanceAs (Decidable True)

def pieces : List Output → Bytes
  | [] => []
  | .write _ _ :: out => pieces out
  | .stream piece :: out => piece ++ pieces out

/-- The buffer is terminated, holds as much of the texts as fits, and that much has been
handed to the application. -/
def Shows (n : Nat) (texts : List Bytes) (out : List Output) (c : ChatContext) : Prop :=
  0 ∈ c.chatData.contents n ∧ cstr (c.chatData.contents n) = texts.flatten.take (n - 1) ∧
    (c.onesdkStreamCb = true → pieces out = cstr (c.chatData.contents n))

def Keeps (n : Nat) (texts : List Bytes) (r : Emits Output ChatContext) : Prop :=
  AllOut (Within n) r ∧
    ∃ c, r.next = some c ∧ c.chatDataCurrentLen ≤ n - 1 ∧ (texts ≠ [] → Shows n texts r.out c)

def StreamKeeps (n : Nat) (h : 0 < n) (output : Memory) (streamCb : Bool) (rs : List ChatStreamResponse) : Prop :=
  ∀ k, Keeps n ((rs.take k).filterMap delta) (receive (sendInner output n streamCb h) (rs.take k))

variable {c : ChatContext} {content text : Bytes} {rs : List ChatStreamResponse}

theorem maxCopyLen_le (c : ChatContext) (len : Nat) : maxCopyLen c len ≤ len + 1 := by
  have h := c.currentLen_le
  rw [maxCopyLen]
  split <;> omega

theorem receiveContent_eq (c : ChatContext) (content : Bytes) :
    receiveContent c content =
      let n := maxCopyLen c (cstr content).length
      let c' := c.extend (c.chatData.write c.chatDataCurrentLen ((cstr content ++ [0]).take n)) (cstr content).length
      ⟨[.write c.chatDataCurrentLen n, .write (c.chatDataCurrentLen + n) 1] ++
          (if c.onesdkStreamCb then
            [.stream ((c'.chatData.contents c'.chatDataCurrentLen).drop c.chatDataCurrentLen)] else []),
        some c'⟩ := by
  have hsource : maxCopyLen c (cstr content).length ≤ (cstr content ++ [0]).length := by
    rw [List.length_append]
    exact maxCopyLen_le c _
  rw [receiveContent, memcpy]
  dsimp only
  rw [if_pos hsource]
  cases hcb : c.onesdkStreamCb with
  | false => simp [emit, emitIf]
  | true => simp [emit, emitIf]

structure Appended (c c' : ChatContext) (text : Bytes) (out : List Output) : Prop where
  len : c'.chatDataLen = c.chatDataLen
  streamCb : c'.onesdkStreamCb = c.onesdkStreamCb
  contents : c'.chatData.contents c'.chatDataCurrentLen = c.chatData.contents c.chatDataCurrentLen ++ text
  inside : ∀ o ∈ out, Within c.chatDataLen o
  handed : c.onesdkStreamCb = true → pieces out = text

theorem Appended.currentLen {c' : ChatContext} {out : List Output} (h : Appended c c' text out) :
    c'.chatDataCurrentLen = c.chatDataCurrentLen + text.length := by
  have hlen := congrArg List.length h.contents
  rwa [Memory.contents_length, List.length_append, Memory.contents_length] at hlen

theorem Appended.refl (c : ChatContext) : Appended c c [] [] :=
  ⟨rfl, rfl, (List.append_nil _).symm, fun _ h => absurd h List.not_mem_nil, fun _ => rfl⟩

theorem pieces_append (out out' : List Output) : pieces (out ++ out') = pieces out ++ pieces out' := by
  induction out with
  | nil => rfl
  | cons o out ih =>
      cases o with
      | write start len => exact ih
      | stream piece => rw [List.cons_append, pieces, ih, pieces, List.append_assoc]

theorem Appended.trans {c₁ c₂ : ChatContext} {text' : Bytes} {out out' : List Output}
    (h : Appended c c₁ text out) (h' : Appended c₁ c₂ text' out') : Appended c c₂ (text ++ text') (out ++ out') where
  len := h'.len.trans h.len
  streamCb := h'.streamCb.trans h.streamCb
  contents := by rw [h'.contents, h.contents, List.append_assoc]
  inside := by
    intro o ho
    rcases List.mem_append.mp ho with ho | ho
    · exact h.inside o ho
    · exact h.len ▸ h'.inside o ho
  handed := by
    intro hcb
    rw [pieces_append, h.handed hcb, h'.handed (h.streamCb.trans hcb)]

theorem receiveContent_appended (c : ChatContext) (content : Bytes)
    (hfit : c.chatDataCurrentLen + (cstr content).length + 1 < c.chatDataLen) :
    ∃ c' out, receiveContent c content = ⟨out, some c'⟩ ∧ Appended c c' (cstr content) out ∧
      c'.chatData c'.chatDataCurrentLen = 0 := by
  have hmax : maxCopyLen c (cstr content).length = (cstr content).length := by
    rw [maxCopyLen, if_neg]
    omega
  have heq := receiveContent_eq c content
  rw [hmax] at heq
  dsimp only at heq
  rw [List.take_left] at heq
  generalize hc' : c.extend (c.chatData.write c.chatDataCurrentLen (cstr content)) (cstr content).length = c' at heq
  have hcur : c'.chatDataCurrentLen = c.chatDataCurrentLen + (cstr content).length := by
    rw [← hc', extend_currentLen, hmax]
  have hdata : c'.chatData =
      (c.chatData.write c.chatDataCurrentLen (cstr content)).write c'.chatDataCurrentLen [0] := by
    rw [hcur, ← hc', extend_data, hmax]
  have hcontents : c'.chatData.contents c'.chatDataCurrentLen =
      c.chatData.contents c.chatDataCurrentLen ++ cstr content := by
    rw [hdata, Memory.contents_write_before (Nat.le_refl _), hcur, Memory.contents_write]
  refine ⟨c', _, heq, ⟨by rw [← hc']; rfl, by rw [← hc']; rfl, hcontents, ?_, ?_⟩, ?_⟩
  · intro o ho
    rcases List.mem_append.mp ho with ho | ho
    · simp only [List.mem_cons, List.not_mem_nil, or_false] at ho
      rcases ho with rfl | rfl
      · rw [Within]
        omega
      · rw [Within]
        omega
    · split at ho
      · rw [List.mem_singleton.mp ho]
        trivial
      · exact absurd ho List.not_mem_nil
  · intro hcb
    rw [if_pos hcb, hcontents, List.drop_left' Memory.contents_length]
    exact List.append_nil _
  · rw [hdata, Memory.write, if_pos ⟨Nat.le_refl _, Nat.lt_succ_self _⟩, Nat.sub_self]
    rfl

theorem callback_none {r : ChatStreamResponse} (h : delta r = none) : chatInternalStreamCallback c r = pure c := by
  obtain ⟨choices⟩ := r
  match choices with
  | [] => rfl
  | none :: _ => rfl
  | some content :: _ => exact absurd h (by simp [delta])

theorem receive_none (h : rs.filterMap delta = []) : receive c rs = pure c := by
  induction rs with
  | nil => rfl
  | cons r rs ih =>
      obtain ⟨hr, hrs⟩ := List.forall_mem_cons.mp (List.filterMap_eq_nil_iff.mp h)
      rw [receive, callback_none hr]
      exact ih (List.filterMap_eq_nil_iff.mpr hrs)

theorem callback_some {r : ChatStreamResponse} (h : delta r = some text) :
    ∃ content, text = cstr content ∧ chatInternalStreamCallback c r = receiveContent c content := by
  obtain ⟨choices⟩ := r
  match choices with
  | [] => exact absurd h (by simp [delta])
  | none :: _ => exact absurd h (by simp [delta])
  | some content :: _ => exact ⟨content, (Option.some.inj h).symm, rfl⟩

theorem receive_appended (c : ChatContext) (rs : List ChatStreamResponse)
    (hfit : c.chatDataCurrentLen + (rs.filterMap delta).flatten.length + 1 < c.chatDataLen) :
    ∃ c' out, receive c rs = ⟨out, some c'⟩ ∧ Appended c c' (rs.filterMap delta).flatten out ∧
      (rs.filterMap delta ≠ [] ∨ c.chatData c.chatDataCurrentLen = 0 → c'.chatData c'.chatDataCurrentLen = 0) := by
  induction rs generalizing c with
  | nil => exact ⟨c, [], rfl, .refl c, fun h => h.resolve_left (fun hne => hne rfl)⟩
  | cons r rs ih =>
      rw [receive]
      cases hd : delta r with
      | none =>
          rw [List.filterMap_cons_none hd] at hfit ⊢
          rw [callback_none hd]
          exact ih c hfit
      | some text =>
          rw [List.filterMap_cons_some hd, List.flatten_cons] at hfit ⊢
          rw [List.length_append] at hfit
          obtain ⟨content, rfl, hcall⟩ := callback_some (c := c) hd
          obtain ⟨c₁, out, heq, happ, hzero⟩ := receiveContent_appended c content (by omega)
          have hcur := happ.currentLen
          obtain ⟨c₂, out', heq', happ', hzero'⟩ := ih c₁ (by rw [happ.len, hcur]; omega)
          rw [hcall, heq, bind_some, heq']
          exact ⟨c₂, out ++ out', rfl, happ.trans happ', fun _ => hzero' (.inr hzero)⟩

def lengthAfter (n cur : Nat) (texts : List Bytes) : Nat :=
  if texts ≠ [] ∧ n ≤ cur + texts.flatten.length + 1 then n else cur + texts.flatten.length

theorem lengthAfter_cons {n cur : Nat} (hn : 0 < n) (hcur : cur ≤ n) (text : Bytes) (texts : List Bytes) :
    lengthAfter n (cur + if n - 1 ≤ cur + text.length then n - cur else text.length) texts =
      lengthAfter n cur (text :: texts) := by
  rw [lengthAfter, lengthAfter, List.flatten_cons, List.length_append]
  by_cases hclamp : n - 1 ≤ cur + text.length
  · rw [if_pos hclamp, if_pos (c := text :: texts ≠ [] ∧ _) ⟨List.cons_ne_nil _ _, by omega⟩]
    cases texts with
    | nil =>
        rw [if_neg (fun h => h.1 rfl), List.flatten_nil, List.length_nil]
        omega
    | cons text' texts => exact if_pos ⟨List.cons_ne_nil _ _, by omega⟩
  · rw [if_neg hclamp]
    cases texts with
    | nil =>
        rw [if_neg (fun h => h.1 rfl), if_neg (by rintro ⟨-, h⟩; rw [List.flatten_nil, List.length_nil] at h; omega)]
        omega
    | cons text' texts => simp only [ne_eq, List.cons_ne_nil, not_false_eq_true, true_and, Nat.add_assoc]

theorem receive_currentLen (c : ChatContext) (rs : List ChatStreamResponse) :
    ∃ c', (receive c rs).next = some c' ∧
      c'.chatDataCurrentLen = lengthAfter c.chatDataLen c.chatDataCurrentLen (rs.filterMap delta) := by
  induction rs generalizing c with
  | nil => exact ⟨c, rfl, by simp [lengthAfter]⟩
  | cons r rs ih =>
      rw [receive]
      cases hd : delta r with
      | none =>
          rw [callback_none hd, List.filterMap_cons_none hd]
          exact ih c
      | some text =>
          obtain ⟨content, rfl, hcall⟩ := callback_some (c := c) hd
          rw [hcall, receiveContent_eq, bind_some, List.filterMap_cons_some hd]
          obtain ⟨c', hnext, hcur⟩ := ih (c.extend
            (c.chatData.write c.chatDataCurrentLen
              ((cstr content ++ [0]).take (maxCopyLen c (cstr content).length))) (cstr content).length)
          refine ⟨c', hnext, ?_⟩
          exact hcur.trans (lengthAfter_cons c.chatDataLen_pos c.currentLen_le _ _)

theorem flatten_prefix_length (rs : List ChatStreamResponse) (k : Nat) :
    ((rs.take k).filterMap delta).flatten.length ≤ (rs.filterMap delta).flatten.length := by
  have hsplit := congrArg (fun rs => (rs.filterMap delta).flatten) (List.take_append_drop k rs)
  simp only [List.filterMap_append, List.flatten_append] at hsplit
  rw [← hsplit, List.length_append]
  exact Nat.le_add_right _ _

theorem zero_notMem_deltas (rs : List ChatStreamResponse) : (0 : UInt8) ∉ (rs.filterMap delta).flatten := by
  rw [List.mem_flatten]
  rintro ⟨text, htext, hzero⟩
  obtain ⟨r, -, hr⟩ := List.mem_filterMap.mp htext
  obtain ⟨content, -, rfl⟩ := Option.map_eq_some_iff.mp hr
  exact zero_notMem_cstr content hzero

theorem length_take_maxCopyLen (c : ChatContext) (content : Bytes) :
    ((cstr content ++ [0]).take (maxCopyLen c (cstr content).length)).length = maxCopyLen c (cstr content).length := by
  rw [List.length_take, List.length_append]
  exact Nat.min_eq_left (maxCopyLen_le c _)

theorem receive_behind {c' : ChatContext} (hnext : (receive c rs).next = some c') :
    c.chatDataCurrentLen ≤ c'.chatDataCurrentLen ∧ ∀ i, c'.chatDataCurrentLen < i → c'.chatData i = c.chatData i := by
  induction rs generalizing c with
  | nil =>
      obtain rfl := Option.some.inj hnext
      exact ⟨Nat.le_refl _, fun _ _ => rfl⟩
  | cons r rs ih =>
      rw [receive] at hnext
      cases hd : delta r with
      | none =>
          rw [callback_none hd] at hnext
          exact ih hnext
      | some text =>
          obtain ⟨content, rfl, hcall⟩ := callback_some (c := c) hd
          rw [hcall, receiveContent_eq, bind_some] at hnext
          obtain ⟨hle, hrest⟩ := ih hnext
          rw [extend_currentLen] at hle
          refine ⟨by omega, fun i hi => ?_⟩
          rw [hrest i hi, extend_data, Memory.write_behind (by rw [List.length_singleton]; omega),
            Memory.write_behind (by rw [length_take_maxCopyLen]; omega)]

theorem receive_overruns (hne : rs.filterMap delta ≠ [])
    (hlong : c.chatDataLen ≤ c.chatDataCurrentLen + (rs.filterMap delta).flatten.length + 1) :
    ¬AllOut (Within c.chatDataLen) (receive c rs) := by
  induction rs generalizing c with
  | nil => exact absurd rfl hne
  | cons r rs ih =>
      rw [receive]
      cases hd : delta r with
      | none =>
          rw [List.filterMap_cons_none hd] at hne hlong
          rw [callback_none hd]
          exact ih hne hlong
      | some text =>
          rw [List.filterMap_cons_some hd, List.flatten_cons, List.length_append] at hlong
          obtain ⟨content, rfl, hcall⟩ := callback_some (c := c) hd
          rw [hcall, allOut_bind_iff]
          rintro ⟨hout, hrest⟩
          by_cases hfit : c.chatDataCurrentLen + (cstr content).length + 1 < c.chatDataLen
          · obtain ⟨c₁, out, heq, happ, -⟩ := receiveContent_appended c content hfit
            have hcur := happ.currentLen
            have hinside := hrest c₁ (by rw [heq])
            rw [← happ.len] at hinside hlong hfit
            refine ih ?_ (by omega) hinside
            intro hnil
            rw [hnil, List.flatten_nil, List.length_nil] at hlong
            omega
          · -- the terminator goes behind the buffer
            rw [receiveContent_eq] at hout
            have hwrite := hout (.write (c.chatDataCurrentLen + maxCopyLen c (cstr content).length) 1) (by simp)
            have hpos := c.chatDataLen_pos
            have hle := c.currentLen_le
            rw [Within, maxCopyLen, if_pos (by omega)] at hwrite
            omega

variable {n : Nat} {h : 0 < n} {output : Memory} {streamCb : Bool}

theorem keeps_of_fits (hfit : (rs.filterMap delta).flatten.length + 1 < n) :
    Keeps n (rs.filterMap delta) (receive (sendInner output n streamCb h) rs) := by
  obtain ⟨c, out, heq, happ, hzero⟩ := receive_appended (sendInner output n streamCb h) rs
    (by rw [sendInner, Nat.zero_add]; exact hfit)
  have hcur : c.chatDataCurrentLen = (rs.filterMap delta).flatten.length := happ.currentLen.trans (Nat.zero_add _)
  rw [heq]
  refine ⟨happ.inside, c, rfl, by omega, fun hne => ?_⟩
  have hcontents : c.chatData.contents ((rs.filterMap delta).flatten.length + 1) =
      (rs.filterMap delta).flatten ++ [0] := by
    rw [Memory.contents_succ, ← hcur, happ.contents, hzero (.inl hne)]
    rfl
  have hlt : (rs.filterMap delta).flatten.length < n := by omega
  obtain ⟨hterm, htext⟩ := Memory.cstr_contents (zero_notMem_deltas rs) hlt hcontents
  refine ⟨hterm, ?_, fun hcb => ?_⟩
  · rw [htext, List.take_of_length_le (by omega)]
  · rw [htext]
    exact happ.handed (happ.streamCb.symm.trans hcb)

theorem receive_inside_iff :
    AllOut (Within n) (receive (sendInner output n streamCb h) rs) ↔
      rs.filterMap delta = [] ∨ (rs.filterMap delta).flatten.length + 1 < n := by
  constructor
  · intro hinside
    by_contra hno
    obtain ⟨hne, hlong⟩ := not_or.mp hno
    have hcur : (sendInner output n streamCb h).chatDataCurrentLen = 0 := rfl
    refine receive_overruns hne ?_ hinside
    rw [hcur]
    have hlen : (sendInner output n streamCb h).chatDataLen = n := rfl
    omega
  · rintro (hnil | hfit)
    · rw [receive_none hnil]
      exact allOut_pure _
    · exact (keeps_of_fits hfit).1

/-- The code keeps its promises just when no delta comes, or when all deltas together and
two more bytes fit into the buffer. -/
theorem streamKeeps_iff (n : Nat) (h : 0 < n) (output : Memory) (streamCb : Bool) (rs : List ChatStreamResponse) :
    StreamKeeps n h output streamCb rs ↔
      rs.filterMap delta = [] ∨ (rs.filterMap delta).flatten.length + 1 < n := by
  constructor
  · intro hkeeps
    by_contra hno
    obtain ⟨hne, hlong⟩ := not_or.mp hno
    obtain ⟨-, c, hnext, hle, -⟩ := hkeeps rs.length
    rw [List.take_length] at hnext
    obtain ⟨c', hnext', hcur⟩ := receive_currentLen (sendInner output n streamCb h) rs
    have hclamp : n ≤ 0 + (rs.filterMap delta).flatten.length + 1 := by omega
    rw [lengthAfter, if_pos ⟨hne, hclamp⟩] at hcur
    rw [hnext', Option.some.injEq] at hnext
    have hn : c.chatDataCurrentLen = n := hnext ▸ hcur
    omega
  · rintro (hnil | hfit) k
    · have hpre : (rs.take k).filterMap delta = [] := by
        rw [List.filterMap_eq_nil_iff] at hnil ⊢
        exact fun r hr => hnil r (List.mem_of_mem_take hr)
      rw [hpre, receive_none hpre]
      exact ⟨allOut_pure _, _, rfl, Nat.zero_le _, fun hne => absurd rfl hne⟩
    · exact keeps_of_fits (Nat.lt_of_le_of_lt (Nat.succ_le_succ (flatten_prefix_length rs k)) hfit)

theorem streamKeeps_hi :
    StreamKeeps 4 (by decide) (fun _ => 0) true [⟨[some [104]]⟩, ⟨[none]⟩, ⟨[some [105]]⟩] :=
  (streamKeeps_iff 4 (by decide) (fun _ => 0) true _).mpr (.inr (by decide))

/-- Three bytes for a text of two: all of it and its terminator are copied, a length of
three is kept, and another terminator goes behind the buffer. -/
theorem exact_fit_overruns :
    ¬StreamKeeps 3 (by decide) (fun _ => 0) true [⟨[some [104, 105]]⟩] ∧
      Output.write 3 1 ∈ (receive (sendInner (fun _ => 0) 3 true (by decide)) [⟨[some [104, 105]]⟩]).out ∧
      Output.stream [104, 105, 0] ∈ (receive (sendInner (fun _ => 0) 3 true (by decide))
        [⟨[some [104, 105]]⟩]).out := by
  refine ⟨fun h => ?_, by decide, by decide⟩
  obtain ⟨hinside, -⟩ := h 1
  exact absurd (hinside (.write 3 1) (by decide)) (by simp [Within])

end OneSdk.ChatText
