import OneSdk.CString
import OneSdk.Emits

namespace OneSdk.RtReceive

open CString Emits

/-- What the client uses of cJSON, over its nodes. `parseWithLengthOpts` gives the root and
how far it reaches, and `valuestring` is there for strings only. -/
structure CJson (J : Type) where
  parseWithLengthOpts : Bytes → Option (J × Nat)
  getObjectItem : J → Bytes → Option J
  valuestring : J → Option Bytes

structure EventCb where
  onAudio : Bool
  onText : Bool
  onError : Bool
  onTranscriptText : Bool
  onTranslationText : Bool
  onResponseDone : Bool
  deriving DecidableEq

inductive Call where
  | onAudio (data : Option Bytes) (len : Nat)
  | onText (data : Option Bytes) (len : Nat)
  | onError (code msg : Bytes)
  | onTranscriptText (data : Option Bytes) (len : Nat)
  | onTranslationText (data : Option Bytes) (len : Nat)
  | onResponseDone
  deriving DecidableEq

/-- The part of `onesdk_ctx_t` for the realtime channel. `block` is the size of what
`rt_json_buf` points to, and `rtJsonBuf` its first `rt_json_buf_size` bytes. -/
structure RtContext where
  rtEventCb : Option EventCb
  block : Option Nat
  rtJsonBufCapacity : Nat
  rtJsonBuf : Bytes
  deriving DecidableEq

def typeKey : Bytes := text "type"

def eventIdKey : Bytes := text "event_id"

def deltaKey : Bytes := text "delta"

def transcriptKey : Bytes := text "transcript"

def errorKey : Bytes := text "error"

def codeKey : Bytes := text "code"

def messageKey : Bytes := text "message"

def response : Bytes := text "response."

def responseAudioDelta : Bytes := response ++ text "audio.delta"

def responseAudioTranscript : Bytes := response ++ text "audio_transcript."

def responseAudioTranscriptDone : Bytes := responseAudioTranscript ++ text "done"

def responseAudioTranscriptDelta : Bytes := responseAudioTranscript ++ text "delta"

def responseAudioTranslationDelta : Bytes :=
  response ++ text "audio_translation.delta"

def responseDone : Bytes := response ++ text "done"

def errorType : Bytes := text "error"

section Messages

variable {J : Type} (json : CJson J)

/-- A callback that gets the string of a member, or a null pointer with the length 0. -/
def dataCall (isSet : Bool) (call : Option Bytes → Nat → Call) (item : J) : Option Call :=
  let data := json.valuestring item
  if isSet then some (call data (data.elim 0 List.length)) else none

def errorCall (cb : EventCb) (root : J) : Option Call :=
  let error := json.getObjectItem root errorKey
  let code := (error.bind (json.getObjectItem · codeKey)).bind json.valuestring
  let message := (error.bind (json.getObjectItem · messageKey)).bind json.valuestring
  match code, message with
  | some code, some message => if cb.onError then some (.onError code message) else none
  | _, _ => none

/-- The chain of `strcmp`. A type without its member falls through to the later ones. -/
def eventCall (cb : EventCb) (type : Bytes) (root : J) : Option Call :=
  let delta := json.getObjectItem root deltaKey
  let transcript := json.getObjectItem root transcriptKey
  if type = responseAudioDelta ∧ delta.isSome then delta.bind (dataCall json cb.onAudio .onAudio)
  else if type = responseAudioTranscriptDone ∧ transcript.isSome then transcript.bind (dataCall json cb.onText .onText)
  else if type = responseAudioTranslationDelta ∧ delta.isSome then
    delta.bind (dataCall json cb.onTranslationText .onTranslationText)
  else if type = responseAudioTranscriptDelta ∧ delta.isSome then
    delta.bind (dataCall json cb.onTranscriptText .onTranscriptText)
  else if type = responseDone then (if cb.onResponseDone then some .onResponseDone else none)
  else if type = errorType then errorCall json cb root
  else none

def passCall (cb : Option EventCb) (root : J) : Option Call :=
  match (json.getObjectItem root typeKey).bind json.valuestring, json.getObjectItem root eventIdKey, cb with
  | some type, some _, some cb => eventCall json cb type root
  | _, _, _ => none

end Messages

section Buffer

variable {J : Type} (json : CJson J) (alloc : Nat → Bool)

def sizeValues : Nat := 2 ^ 64

/-- The buffer is made or grown for a fragment. Nothing where the fragment is given up. -/
def reserve (c : RtContext) (len : Nat) : RtContext × Bool :=
  match c.block with
  | none =>
      let capacity := len * 2 % sizeValues
      ({ c with
          block := if alloc capacity then some capacity else none
          rtJsonBufCapacity := capacity
          rtJsonBuf := [] }, true)
  | some _ =>
      if c.rtJsonBufCapacity < (c.rtJsonBuf.length + len) % sizeValues then
        if (sizeValues - 1) / 2 < len ∨ sizeValues - 1 - len < c.rtJsonBuf.length then (c, false)
        else
          let capacity := (c.rtJsonBuf.length + len) * 2 % sizeValues
          if alloc capacity then ({ c with block := some capacity, rtJsonBufCapacity := capacity }, true)
          else ({ c with rtJsonBufCapacity := capacity }, false)
      else (c, true)

def passes : Nat → RtContext → Emits (Option Call) RtContext
  | 0, _ => fault
  | k + 1, c =>
      match json.parseWithLengthOpts c.rtJsonBuf with
      | none => pure c
      | some (root, processed) =>
          if processed ≤ c.rtJsonBuf.length then do
            emit (passCall json c.rtEventCb root)
            passes k { c with rtJsonBuf := c.rtJsonBuf.drop processed }
          else fault

def rtRecvCb (c : RtContext) (message : Bytes) : Emits (Option Call) RtContext :=
  let (c, fits) := reserve alloc c message.length
  if fits then
    if c.rtJsonBuf.length + message.length ≤ c.block.getD 0 then
      passes json ((c.rtJsonBuf ++ message).length + 1) { c with rtJsonBuf := c.rtJsonBuf ++ message }
    else fault
  else pure c

def receiveAll : RtContext → List Bytes → Emits (Option Call) RtContext
  | c, [] => pure c
  | c, message :: messages => do
      let c ← rtRecvCb json alloc c message
      receiveAll c messages

end Buffer

def newContext (cb : Option EventCb) : RtContext := ⟨cb, none, 0, []⟩

end OneSdk.RtReceive
