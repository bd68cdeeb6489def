import OneSdk.Emits
import OneSdk.TmTopics

namespace OneSdk.Webshell

open CString Emits MqttContext MqttRouting TopicBuilders TmSend TmTopics

inductive Object where
  | string (s : Bytes)
  | commandReply (uid : Option Nat)
  | commandPong (pong uid : Option Nat)

inductive Kind where
  | string
  | commandReply
  | commandPong
  deriving DecidableEq

def Object.kind : Object → Kind
  | .string _ => .string
  | .commandReply _ => .commandReply
  | .commandPong _ _ => .commandPong

def Object.members : Object → List (Option Nat)
  | .string _ => []
  | .commandReply uid => [uid]
  | .commandPong pong uid => [pong, uid]

structure Heap where
  objects : List Object
  released : List Nat

def Heap.new (h : Heap) (o : Object) : Heap := { h with objects := h.objects ++ [o] }

def Heap.release (h : Heap) (n : Nat) : Heap := { h with released := n :: h.released }

/-- The object is not released and is of the kind it is taken for. -/
def Heap.Sound (h : Heap) (as : Kind) (n : Nat) : Prop := n ∉ h.released ∧ h.objects[n]?.map Object.kind = some as

instance decidableSound (h : Heap) (as : Kind) (n : Nat) : Decidable (h.Sound as n) :=
  inferInstanceAs (Decidable (_ ∧ _))

/-- What the handler does: it reads memory, soundly or not, it publishes, runs a command, and
hands the text of a resize on. -/
inductive Act where
  | read (sound : Bool)
  | publish (topic payload : Bytes) (qos : Int)
  | popen (command : Bytes)
  | resize (text : Bytes)

/-- A read through `NULL` ends the program, any other goes on with what the memory holds. -/
def look (h : Heap) (as : Kind) : Option Nat → Emits Act Object
  | none => emit (.read false) >>= fun _ => fault
  | some n => emit (.read (decide (h.Sound as n))) >>= fun _ =>
      match h.objects[n]? with
      | none => fault
      | some o => pure o

def memberAt (h : Heap) (as : Kind) (place : Nat) (pointer : Option Nat) : Emits Act (Option Nat) :=
  look h as pointer >>= fun o =>
    match o.members[place]? with
    | none => fault
    | some member => pure member

def stringAt (h : Heap) (pointer : Option Nat) : Emits Act Bytes :=
  look h .string pointer >>= fun o =>
    match o with
    | .string s => pure (cstr s)
    | _ => fault

def postReplyFormat : String := "sys/%s/%s/webshell/cmd/%s/post_reply"

inductive MsgType where
  | commandReply
  | commandPong

/-- A message that names no device, of which only the `uid` is looked at for its topic. -/
def msgOf (type : MsgType) (uid : Bytes) : Msg Unit :=
  match type with
  | .commandReply => ⟨none, none, .webshellCommandReply uid⟩
  | .commandPong => ⟨none, none, .webshellCommandPong ⟨none, uid⟩⟩

def dmPrepareSendTopic (h : Heap) (handle : TmHandler) (type : MsgType) (data : Option Nat) : Emits Act Bytes :=
  (match type with
    | .commandReply => memberAt h .commandReply 0 data
    | .commandPong => memberAt h .commandPong 1 data) >>= fun uid =>
  stringAt h uid >>= fun uid =>
    match TmSend.dmPrepareSendTopic handle (msgOf type uid) with
    | none => fault
    | some topic => pure topic

def iotWebshellCommandPongPayload (h : Heap) (pty : Option Nat) : Emits Act (Option Nat) :=
  memberAt h .commandPong 0 pty

/-- Both send functions take the union for a pong. -/
def sendPongPayload (h : Heap) (topic : Bytes) (data : Option Nat) : Emits Act Unit :=
  iotWebshellCommandPongPayload h data >>= fun pong =>
    stringAt h pong >>= fun payload => emit (.publish topic payload qos1)

def tmSendWebshellCommandReply (h : Heap) (topic : Bytes) (data : Option Nat) : Emits Act Unit :=
  sendPongPayload h topic data

def tmSendWebshellCommandPong (h : Heap) (topic : Bytes) (data : Option Nat) : Emits Act Unit :=
  sendPongPayload h topic data

def iotTmSend (h : Heap) (handle : TmHandler) (type : MsgType) (data : Option Nat) : Emits Act Unit :=
  match handle.mqttHandle with
  | none => pure ()
  | some _ =>
      dmPrepareSendTopic h handle type data >>= fun topic =>
        match type with
        | .commandReply => tmSendWebshellCommandReply h topic data
        | .commandPong => tmSendWebshellCommandPong h topic data

def sendWebshellCommandReply (h : Heap) (handle : TmHandler) (id : Nat) : Emits Act Heap :=
  let reply := h.objects.length
  let h := h.new (.commandReply (some id))
  iotTmSend h handle .commandReply (some reply) >>= fun _ => pure (h.release reply)

/-- `__send_webshell_command_pong`. The structure is not put into the union, which stays `NULL`. -/
def sendWebshellCommandPong (h : Heap) (handle : TmHandler) (uid pong : Nat) : Emits Act Heap :=
  let data := h.objects.length
  let h := h.new (.commandPong (some pong) (some uid))
  iotTmSend h handle .commandPong none >>= fun _ => pure (h.release data)

structure DmHandle extends TmHandler where
  recvHandler : Option Pointer

def uidOf (topic : Bytes) : Bytes := getAt (awsByteCursorSplitOnChar slash (cstr topic)) 5

/-- What follows the reply. The string of the `uid`, which is `0`, is released before. -/
def execCommand (h : Heap) (handle : TmHandler) (payload : Bytes) : Emits Act Unit :=
  let text := cstr (payload.drop 1)
  match payload.head? with
  | some 49 => emit (.popen text)
  | some 50 => sendWebshellCommandPong (h.new (.string [50])) handle 0 h.objects.length >>= fun _ => pure ()
  | some 51 => emit (.resize text)
  | _ => pure ()

def tmRecvWebshellCommandHandler (dmHandle : Option DmHandle) (topic payload : Bytes) : Emits Act Unit :=
  match dmHandle with
  | none => pure ()
  | some dm =>
      match dm.recvHandler with
      | none => pure ()
      | some _ =>
          sendWebshellCommandReply ⟨[.string (uidOf topic)], []⟩ dm.toTmHandler 0 >>= fun h =>
            execCommand (h.release 0) dm.toTmHandler payload

def replyTopic (productKey deviceName uid : Bytes) : Bytes :=
  joinLevels [text "sys", productKey, deviceName, text "webshell", text "cmd", uid, text "post_reply"]

def Act.Right (topic : Bytes) : Act → Prop
  | .read sound => sound = true
  | .publish t _ _ => t = topic
  | _ => True

/-- No reply fails, and each goes out on the topic of the `uid` without an unsound read. -/
def RepliesRight (dmHandle : Option DmHandle) (topic payload : Bytes) : Prop :=
  ∀ dm, dmHandle = some dm →
    (tmRecvWebshellCommandHandler dmHandle topic payload).next.isSome = true ∧
      AllOut (Act.Right (replyTopic dm.productKey dm.deviceName (uidOf topic)))
        (tmRecvWebshellCommandHandler dmHandle topic payload)

section Replies

variable {h : Heap} {as : Kind} {n place : Nat} {o : Object} {member : Option Nat} {s : Bytes}

theorem memberAt_eq (ho : h.objects[n]? = some o) (hmember : o.members[place]? = some member) :
    memberAt h as place (some n) = ⟨[.read (decide (h.Sound as n))], some member⟩ := by
  simp only [memberAt, look, emit, ho, bind_some, hmember, pure_def, List.append_nil]

theorem stringAt_eq (ho : h.objects[n]? = some (.string s)) :
    stringAt h (some n) = ⟨[.read (decide (h.Sound .string n))], some (cstr s)⟩ := by
  simp only [stringAt, look, emit, ho, bind_some, pure_def, List.append_nil]

variable {handle : TmHandler} {ctx : Ctx} {uid topic payload : Bytes} {dmHandle : Option DmHandle}

theorem commandReply_topic (handle : TmHandler) (uid : Bytes) :
    TmSend.dmPrepareSendTopic handle (msgOf .commandReply uid) =
      iotGetTopicWith1CStrParam postReplyFormat handle.productKey handle.deviceName uid := rfl

theorem reply_eq (hctx : handle.mqttHandle = some ctx) (uid : Bytes) :
    sendWebshellCommandReply ⟨[.string uid], []⟩ handle 0 =
      match iotGetTopicWith1CStrParam postReplyFormat handle.productKey handle.deviceName (cstr uid) with
      | none => ⟨[.read true, .read true], none⟩
      | some topic =>
          ⟨[.read true, .read true, .read false, .read true, .publish topic (cstr uid) qos1],
            some ⟨[.string uid, .commandReply (some 0)], [1]⟩⟩ := by
  have hmember {as : Kind} : memberAt ⟨[.string uid, .commandReply (some 0)], []⟩ as 0 (some 1) = _ :=
    memberAt_eq rfl rfl
  have hstring : stringAt ⟨[.string uid, .commandReply (some 0)], []⟩ (some 0) = _ := stringAt_eq rfl
  change (iotTmSend ⟨[.string uid, .commandReply (some 0)], []⟩ handle .commandReply (some 1) >>= fun _ => pure _) = _
  rw [iotTmSend, hctx]
  simp only [dmPrepareSendTopic, hmember, hstring, bind_some, commandReply_topic]
  cases iotGetTopicWith1CStrParam postReplyFormat handle.productKey handle.deviceName (cstr uid) with
  | none => rfl
  | some topic =>
      simp only [pure_def, bind_some, tmSendWebshellCommandReply, sendPongPayload,
        iotWebshellCommandPongPayload, hmember, hstring, emit]
      rfl

/-- The pong's structure is looked for through the empty union. -/
theorem pong_faults (hctx : handle.mqttHandle = some ctx) (h : Heap) (uid pong : Nat) :
    sendWebshellCommandPong h handle uid pong = ⟨[.read false], none⟩ := by
  rw [sendWebshellCommandPong, iotTmSend, hctx]
  rfl

theorem reply_unsound (hctx : handle.mqttHandle = some ctx) (uid : Bytes) :
    (sendWebshellCommandReply ⟨[.string uid], []⟩ handle 0).next = none ∨
      .read false ∈ (sendWebshellCommandReply ⟨[.string uid], []⟩ handle 0).out := by
  rw [reply_eq hctx]
  split
  · exact Or.inl rfl
  · exact Or.inr (by simp)

theorem sent_wrong {dm : DmHandle} {recvHandler : Pointer} (hrecv : dm.recvHandler = some recvHandler)
    (hctx : dm.mqttHandle = some ctx) : ¬RepliesRight (some dm) topic payload := by
  intro h
  obtain ⟨hnext, hall⟩ := h dm rfl
  simp only [tmRecvWebshellCommandHandler, hrecv] at hnext hall
  rcases reply_unsound hctx (uidOf topic) with hfault | hread
  · rw [bind_of_none hfault] at hnext
    exact absurd hnext nofun
  · exact absurd ((allOut_bind_iff.mp hall).1 _ hread) nofun

theorem unsent_right {dm : DmHandle} (hctx : dm.mqttHandle = none) (t : Bytes) :
    (tmRecvWebshellCommandHandler (some dm) topic payload).next.isSome = true ∧
      AllOut (Act.Right t) (tmRecvWebshellCommandHandler (some dm) topic payload) := by
  have hsend : ∀ h type data, iotTmSend h dm.toTmHandler type data = pure () :=
    fun h type data => by rw [iotTmSend, hctx]
  simp only [tmRecvWebshellCommandHandler]
  split
  · exact ⟨rfl, allOut_pure _⟩
  · simp only [sendWebshellCommandReply, hsend, execCommand, sendWebshellCommandPong, pure_def, bind_some]
    split
    · exact ⟨rfl, allOut_emit trivial⟩
    · exact ⟨rfl, allOut_pure _⟩
    · exact ⟨rfl, allOut_emit trivial⟩
    · exact ⟨rfl, allOut_pure _⟩

theorem replyTopic_printed {productKey deviceName uid : Bytes} (huid : uid.length < 1024)
    (hsum : productKey.length + deviceName.length < 2 ^ 30) :
    iotGetTopicWith1CStrParam postReplyFormat productKey deviceName uid =
      some (replyTopic productKey deviceName uid) := by
  have hfmt : secureStrlen (text postReplyFormat) = 36 ∧ postReplyFormat.length = 36 := ⟨rfl, rfl⟩
  have hmeasured : secureStrlen (some uid) = uid.length := if_pos huid
  rw [iotGetTopicWith1CStrParam, hmeasured, hfmt.1]
  apply printTopic_fits
  · simp only [hfmt.2, List.map_cons, List.map_nil, List.sum_cons, List.sum_nil]
    omega
  · omega

theorem ping_ends {dm : DmHandle} {recvHandler : Pointer} (hrecv : dm.recvHandler = some recvHandler)
    (hctx : dm.mqttHandle = some ctx) (huid : (uidOf topic).length < 1024)
    (hsum : dm.productKey.length + dm.deviceName.length < 2 ^ 30) (hping : payload.head? = some 50) :
    tmRecvWebshellCommandHandler (some dm) topic payload =
      ⟨[.read true, .read true, .read false, .read true,
        .publish (replyTopic dm.productKey dm.deviceName (cstr (uidOf topic))) (cstr (uidOf topic)) qos1, .read false],
        none⟩ := by
  have hshort : (cstr (uidOf topic)).length < 1024 := Nat.lt_of_le_of_lt (List.takeWhile_prefix _).length_le huid
  simp only [tmRecvWebshellCommandHandler, hrecv, reply_eq hctx, replyTopic_printed hshort hsum, bind_some, execCommand,
    hping, pong_faults hctx, bind_none]
  rfl

/-- As soon as a reply can be sent, it is wrong, whatever the topic and the payload. -/
theorem repliesRight_iff (dmHandle : Option DmHandle) (topic payload : Bytes) :
    RepliesRight dmHandle topic payload ↔
      ∀ dm, dmHandle = some dm → dm.recvHandler = none ∨ dm.mqttHandle = none := by
  constructor
  · rintro h dm rfl
    cases hrecv : dm.recvHandler with
    | none => exact Or.inl rfl
    | some recvHandler =>
        cases hctx : dm.mqttHandle with
        | none => exact Or.inr rfl
        | some ctx => exact absurd h (sent_wrong hrecv hctx)
  · rintro h dm rfl
    rcases h dm rfl with hrecv | hctx
    · simp [tmRecvWebshellCommandHandler, hrecv, AllOut]
    · exact unsent_right hctx _

end Replies

def console : DmHandle where
  toTmHandler := ⟨some (iotMqttInit ⟨true, 60⟩), text "pk", text "dn"⟩
  recvHandler := some 7

/-- The acknowledgement of a command. -/
theorem write_unsound : ¬RepliesRight (some console) (text "sys/pk/dn/webshell/cmd/u1/post") (text "1ls") :=
  sent_wrong rfl rfl

end OneSdk.Webshell
