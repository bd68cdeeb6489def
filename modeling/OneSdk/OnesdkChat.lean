import OneSdk.Emits
import OneSdk.Memory

namespace OneSdk.OnesdkChat

open CString Emits

structure ChatContext where
  chatData : Memory
  chatDataCurrentLen : Nat
  chatDataLen : Nat
  onesdkStreamCb : Bool
  chatDataLen_pos : 0 < chatDataLen
  currentLen_le : chatDataCurrentLen ≤ chatDataLen

/-- `chat_stream_response_t`: the contents of the deltas of its choices. -/
structure ChatStreamResponse where
  choices : List (Option Bytes)
  deriving DecidableEq

/-- A write into the memory from `chat_data` on, or a call of `onesdk_stream_cb`. -/
inductive Output where
  | write (start len : Nat)
  | stream (piece : Bytes)
  deriving DecidableEq

def memcpy (dest : Memory) (start : Nat) (src : Bytes) (n : Nat) : Emits Output Memory :=
  if n ≤ src.length then do
    emit (.write start n)
    pure (dest.write start (src.take n))
  else fault

def maxCopyLen (c : ChatContext) (len : Nat) : Nat :=
  if c.chatDataLen - 1 ≤ c.chatDataCurrentLen + len then c.chatDataLen - c.chatDataCurrentLen else len

theorem maxCopyLen_fits (c : ChatContext) (len : Nat) : c.chatDataCurrentLen + maxCopyLen c len ≤ c.chatDataLen := by
  have h := c.currentLen_le
  rw [maxCopyLen]
  split <;> omega

def ChatContext.extend (c : ChatContext) (data : Memory) (len : Nat) : ChatContext where
  chatData := data.write (c.chatDataCurrentLen + maxCopyLen c len) [0]
  chatDataCurrentLen := c.chatDataCurrentLen + maxCopyLen c len
  chatDataLen := c.chatDataLen
  onesdkStreamCb := c.onesdkStreamCb
  chatDataLen_pos := c.chatDataLen_pos
  currentLen_le := maxCopyLen_fits c len

@[simp] theorem extend_currentLen (c : ChatContext) (data : Memory) (len : Nat) :
    (c.extend data len).chatDataCurrentLen = c.chatDataCurrentLen + maxCopyLen c len := rfl

@[simp] theorem extend_data (c : ChatContext) (data : Memory) (len : Nat) :
    (c.extend data len).chatData = data.write (c.chatDataCurrentLen + maxCopyLen c len) [0] := rfl

def receiveContent (c : ChatContext) (content : Bytes) : Emits Output ChatContext := do
  let len := (cstr content).length
  let data ← memcpy c.chatData c.chatDataCurrentLen (cstr content ++ [0]) (maxCopyLen c len)
  emit (.write (c.chatDataCurrentLen + maxCopyLen c len) 1)
  let c' := c.extend data len
  emitIf c.onesdkStreamCb (.stream ((c'.chatData.contents c'.chatDataCurrentLen).drop c.chatDataCurrentLen))
  pure c'

def chatInternalStreamCallback (c : ChatContext) (r : ChatStreamResponse) : Emits Output ChatContext :=
  match r.choices with
  | some content :: _ => receiveContent c content
  | _ => pure c

/-- What `onesdk_chat_send_inner` sets for a buffer and its length. -/
def sendInner (output : Memory) (outputLen : Nat) (streamCb : Bool) (h : 0 < outputLen) : ChatContext where
  chatData := output
  chatDataCurrentLen := 0
  chatDataLen := outputLen
  onesdkStreamCb := streamCb
  chatDataLen_pos := h
  currentLen_le := Nat.zero_le _

def receive : ChatContext → List ChatStreamResponse → Emits Output ChatContext
  | c, [] => pure c
  | c, r :: rs => do
      let c ← chatInternalStreamCallback c r
      receive c rs

end OneSdk.OnesdkChat
