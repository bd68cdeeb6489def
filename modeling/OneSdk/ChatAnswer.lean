import OneSdk.ChatText
import OneSdk.ErrorCode

namespace OneSdk.ChatAnswer

open CString ErrorCode Emits OnesdkChat ChatText

structure ChatResponse where
  choices : List (Option Bytes)
  deriving DecidableEq

/-- The library function: what is shorter is filled up with zeros, what is longer is not terminated. -/
def strncpy (dest src : Bytes) (n : Nat) : Bytes := src.take n ++ List.replicate (n - src.length) 0 ++ dest.drop n

def toSize (i : Int) : Nat := (i % 2 ^ 64).toNat

/-- The buffer and `*output_len` afterwards. With no byte at all the count of `strncpy` wraps. -/
def takeContent (output content : Bytes) : Option (Bytes × Nat) :=
  if output.length = 0 then none
  else
    let inLen := toSize (toInt (cstr content).length)
    some (strncpy output (cstr content) (output.length - 1), if output.length ≤ inLen then output.length else inLen)

def takeResponse (response : Option ChatResponse) (output : Bytes) : Option (Int × Bytes × Nat) :=
  match response with
  | none => some (-1, output, output.length)
  | some response =>
      match response.choices with
      | some content :: _ => (takeContent output content).map (fun r => (volcOk, r))
      | _ => some (volcOk, output, output.length)

/-- `onesdk_chat` without streaming. The events of an answer that comes as text/event-stream go to the callback for
streams, which has the same buffer. None is a write outside of it; what the parser of the events writes outside of its
own arrays is not looked at here. -/
def onesdkChat (c : ChatContext) (events : List ChatStreamResponse) (response : Option ChatResponse) :
    Option (Int × Bytes × Nat) :=
  let r := receive c events
  if AllOut (Within c.chatDataLen) r then
    r.next.bind (fun c' => takeResponse response (c'.chatData.contents c.chatDataLen))
  else none

/-- The buffer is terminated and holds as much of the content as fits, and the length says how much. -/
def Shows (content : Bytes) (n : Nat) (output : Bytes) (outputLen : Nat) : Prop :=
  (0 : UInt8) ∈ output ∧ cstr output = (cstr content).take (n - 1) ∧ outputLen = (cstr output).length

def Answers (c : ChatContext) (events : List ChatStreamResponse) (content : Bytes)
    (rest : List (Option Bytes)) : Prop :=
  ∃ code out outputLen, onesdkChat c events (some ⟨some content :: rest⟩) = some (code, out, outputLen) ∧
    (code = volcOk → Shows content c.chatDataLen out outputLen)

section Copy

variable {content output front : Bytes} {last : UInt8}

theorem strncpy_front (front : Bytes) (last : UInt8) (content : Bytes) :
    strncpy (front ++ [last]) content front.length =
      content.take front.length ++ List.replicate (front.length - content.length) 0 ++ [last] := by
  rw [strncpy, List.drop_left]

theorem strncpy_terminated_iff (hcontent : (0 : UInt8) ∉ content) :
    (0 : UInt8) ∈ strncpy (front ++ [last]) content front.length ↔ content.length < front.length ∨ last = 0 := by
  have htake : (0 : UInt8) ∉ content.take front.length := fun h => hcontent (List.mem_of_mem_take h)
  rw [strncpy_front, List.mem_append, List.mem_append, List.mem_replicate, List.mem_singleton]
  constructor
  · rintro ((h | ⟨h, -⟩) | h)
    · exact absurd h htake
    · left
      omega
    · exact .inr h.symm
  · rintro (h | h)
    · exact .inl (.inr ⟨by omega, rfl⟩)
    · exact .inr h.symm

theorem strncpy_text (hcontent : (0 : UInt8) ∉ content) (hterminated : content.length < front.length ∨ last = 0) :
    cstr (strncpy (front ++ [last]) content front.length) = content.take front.length := by
  have htake : (0 : UInt8) ∉ content.take front.length := fun h => hcontent (List.mem_of_mem_take h)
  rw [strncpy_front]
  cases hfill : front.length - content.length with
  | zero =>
      have hlast : last = 0 := hterminated.resolve_left (by omega)
      rw [List.replicate_zero, List.append_nil, hlast, cstr_terminated, cstr_eq_self.mpr htake]
  | succ k =>
      rw [List.replicate_succ, List.append_assoc, List.cons_append, cstr_terminated, cstr_eq_self.mpr htake]

theorem takeContent_front (front : Bytes) (last : UInt8) (content : Bytes) :
    takeContent (front ++ [last]) content =
      some (strncpy (front ++ [last]) (cstr content) front.length,
        if front.length < toSize (toInt (cstr content).length) then front.length + 1
        else toSize (toInt (cstr content).length)) := by
  have hlen : (front ++ [last]).length = front.length + 1 := List.length_append
  rw [takeContent, hlen, if_neg (Nat.succ_ne_zero _)]
  rfl

end Copy

/-- The copy stops before the last byte, so that byte has to end the text already where the content reaches it, and the
length that is written back is right only where nothing is cut off. -/
theorem takeContent_shows_iff (content front : Bytes) (last : UInt8) :
    (∃ out outputLen, takeContent (front ++ [last]) content = some (out, outputLen) ∧
        Shows content (front.length + 1) out outputLen) ↔
      ((cstr content).length < front.length ∨ last = 0) ∧
        toSize (toInt (cstr content).length) = min (cstr content).length front.length := by
  have hcontent := zero_notMem_cstr content
  rw [takeContent_front]
  constructor
  · rintro ⟨out, outputLen, hout, hzero, -, hwritten⟩
    obtain ⟨rfl, rfl⟩ := Prod.mk.inj (Option.some.inj hout)
    have hterminated := (strncpy_terminated_iff hcontent).mp hzero
    rw [strncpy_text hcontent hterminated, List.length_take] at hwritten
    refine ⟨hterminated, ?_⟩
    split at hwritten <;> omega
  · rintro ⟨hterminated, hsize⟩
    refine ⟨_, _, rfl, (strncpy_terminated_iff hcontent).mpr hterminated, ?_, ?_⟩
    · rw [strncpy_text hcontent hterminated, Nat.add_sub_cancel]
    · rw [strncpy_text hcontent hterminated, List.length_take, if_neg (by omega), hsize, Nat.min_comm]

theorem answers_iff_takes {c c' : ChatContext} {events : List ChatStreamResponse} {content : Bytes}
    (rest : List (Option Bytes)) (hinside : AllOut (Within c.chatDataLen) (receive c events))
    (hnext : (receive c events).next = some c') :
    Answers c events content rest ↔ ∃ out outputLen,
      takeContent (c'.chatData.contents c.chatDataLen) content = some (out, outputLen) ∧
        Shows content c.chatDataLen out outputLen := by
  have hpos := c.chatDataLen_pos
  have hchat : onesdkChat c events (some ⟨some content :: rest⟩) =
      (takeContent (c'.chatData.contents c.chatDataLen) content).map (fun r => (volcOk, r)) := by
    rw [onesdkChat, if_pos hinside, hnext]
    rfl
  rw [Answers, hchat, takeContent, Memory.contents_length, if_neg (by omega)]
  constructor
  · rintro ⟨code, out, outputLen, hout, hshows⟩
    obtain ⟨rfl, hbuf⟩ := Prod.mk.inj (Option.some.inj hout)
    exact ⟨out, outputLen, congrArg some hbuf, hshows rfl⟩
  · rintro ⟨out, outputLen, hout, hshows⟩
    exact ⟨volcOk, out, outputLen, congrArg (Option.map _) hout, fun _ => hshows⟩

theorem answers_inside {c : ChatContext} {events : List ChatStreamResponse} {content : Bytes}
    {rest : List (Option Bytes)}
    (h : Answers c events content rest) : AllOut (Within c.chatDataLen) (receive c events) := by
  by_contra hno
  obtain ⟨code, out, outputLen, hout, -⟩ := h
  rw [onesdkChat, if_neg hno] at hout
  exact absurd hout (by simp)

section Buffer

variable {output : Memory} {n : Nat} {hn : 0 < n} {streamCb : Bool} {events : List ChatStreamResponse}

theorem receive_last (hfit : events.filterMap delta = [] ∨ (events.filterMap delta).flatten.length + 1 < n) :
    ∃ c', (receive (sendInner output n streamCb hn) events).next = some c' ∧ c'.chatData (n - 1) = output (n - 1) := by
  rcases hfit with hnil | hfit
  · rw [receive_none hnil]
    exact ⟨_, rfl, rfl⟩
  · obtain ⟨c', hnext, hcur⟩ := receive_currentLen (sendInner output n streamCb hn) events
    have hlength : lengthAfter n 0 (events.filterMap delta) = 0 + (events.filterMap delta).flatten.length :=
      if_neg (fun h => absurd h.2 (by omega))
    have hbefore : c'.chatDataCurrentLen < n - 1 := by
      have hcur' := hcur.trans hlength
      omega
    exact ⟨c', hnext, (receive_behind hnext).2 (n - 1) hbefore⟩

/-- What the events of the answer put into the buffer has to fit, with two bytes more. The content is then written over
it, up to the last byte. -/
theorem chatAnswers_iff (output : Memory) (hn : 0 < n) (streamCb : Bool) (events : List ChatStreamResponse)
    (content : Bytes) (rest : List (Option Bytes)) :
    Answers (sendInner output n streamCb hn) events content rest ↔
      (events.filterMap delta = [] ∨ (events.filterMap delta).flatten.length + 1 < n) ∧
        ((cstr content).length + 1 < n ∨ output (n - 1) = 0) ∧
          toSize (toInt (cstr content).length) = min (cstr content).length (n - 1) := by
  have htakes (hfit : events.filterMap delta = [] ∨ (events.filterMap delta).flatten.length + 1 < n) :
      Answers (sendInner output n streamCb hn) events content rest ↔
        ((cstr content).length + 1 < n ∨ output (n - 1) = 0) ∧
          toSize (toInt (cstr content).length) = min (cstr content).length (n - 1) := by
    obtain ⟨c', hnext, hlast⟩ := @receive_last output n hn streamCb events hfit
    obtain ⟨k, rfl⟩ : ∃ k, n = k + 1 := ⟨n - 1, by omega⟩
    have hlen : (sendInner output (k + 1) streamCb hn).chatDataLen = k + 1 := rfl
    have hshows := takeContent_shows_iff content (c'.chatData.contents k) (c'.chatData k)
    rw [Memory.contents_length, ← Memory.contents_succ] at hshows
    rw [Nat.add_sub_cancel] at hlast
    rw [answers_iff_takes rest (receive_inside_iff.mpr hfit) hnext, hlen, hshows, hlast, Nat.add_sub_cancel]
    exact and_congr_left' (or_congr Nat.succ_lt_succ_iff.symm Iff.rfl)
  constructor
  · intro h
    have hfit := receive_inside_iff.mp (answers_inside h)
    exact ⟨hfit, (htakes hfit).mp h⟩
  · rintro ⟨hfit, h⟩
    exact (htakes hfit).mpr h

end Buffer

theorem answers_hi : Answers (sendInner (fun _ => 1) 4 false (by decide)) [⟨[some [120]]⟩] (text "hi") [] := by
  apply (chatAnswers_iff (fun _ => 1) (by decide) false [⟨[some [120]]⟩] (text "hi") []).mpr
  decide

/-- A content of two bytes in a buffer of three that was not cleared. -/
theorem exactFit_unterminated :
    ¬Answers (sendInner (fun _ => 1) 3 false (by decide)) [] (text "hi") [] := by
  rintro ⟨code, out, outputLen, hout, hshows⟩
  have hcompute : onesdkChat (sendInner (fun _ => 1) 3 false (by decide)) [] (some ⟨[some (text "hi")]⟩) =
      some (volcOk, [104, 105, 1], 2) := by decide
  obtain ⟨rfl, hbuf⟩ := Prod.mk.inj (Option.some.inj (hcompute.symm.trans hout))
  obtain ⟨rfl, rfl⟩ := Prod.mk.inj hbuf
  exact absurd (hshows rfl).1 (by decide)

end OneSdk.ChatAnswer
