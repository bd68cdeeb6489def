import OneSdk.CString
import Mathlib.Data.List.Forall2

namespace OneSdk.ChatParse

open CString

inductive NodeType where
  | null
  | bool
  | number
  | string
  | array
  | object
  deriving DecidableEq

/-- cJSON as the answers of the model gateway are read: nodes of type `J`, numbers of type `D`.
`items` are the children that `cJSON_GetArraySize` counts. Only objects have members, and of
parsed nodes exactly the strings have a `valuestring` that is not `NULL`. -/
structure CJson (J D : Type) where
  parse : Bytes → Option J
  type : J → NodeType
  getObjectItem : J → Bytes → Option J
  items : J → List J
  valueint : J → Int
  valuedouble : J → D
  valuestring : J → Option Bytes
  printUnformatted : J → Bytes
  /-- The cast of a number to `uint64_t`. -/
  toUint64 : D → Nat
  object_of_item : ∀ {node key item}, getObjectItem node key = some item → type node = .object
  isSome_valuestring : ∀ node, (valuestring node).isSome = true ↔ type node = .string

structure ChatToolCall where
  id : Option Bytes
  type : Option Bytes
  name : Option Bytes
  arguments : Option Bytes

/-- `chat_message_t`, the fields that an answer fills. -/
structure ChatMessage where
  role : Option Bytes
  content : Option Bytes
  toolCalls : List ChatToolCall
  toolCallsCount : Int
  functionCall : Option Bytes

structure ChatChoice where
  index : Int
  message : ChatMessage
  finishReason : Option Bytes

structure ChatUsage where
  promptTokens : Int
  completionTokens : Int
  totalTokens : Int
  reasoningTokens : Int
  acceptedPredictionTokens : Int
  rejectedPredictionTokens : Int

/-- `chat_response_t`. `metadata` points into the parsed text. -/
structure ChatResponse (J D : Type) where
  id : Option Bytes
  object : Option Bytes
  created : Nat
  choices : List ChatChoice
  choicesCount : Int
  model : Option Bytes
  systemFingerprint : Option Bytes
  usage : ChatUsage
  requestId : Option Bytes
  toolChoice : Option Bytes
  seed : Nat
  topP : D
  temperature : D
  presencePenalty : D
  frequencyPenalty : D
  inputUser : Option Bytes
  serviceTier : Option Bytes
  metadata : Option J

structure ContentFilterResults where
  hate : Int
  selfHarm : Int
  sexual : Int
  violence : Int

structure ChatStreamDelta where
  role : Option Bytes
  content : Option Bytes
  toolCalls : List ChatToolCall
  toolCallsCount : Int

structure ChatStreamChoice where
  index : Int
  delta : ChatStreamDelta
  finishReason : Option Bytes
  contentFilterResults : ContentFilterResults

structure ChatStreamResponse where
  id : Option Bytes
  object : Option Bytes
  created : Int
  model : Option Bytes
  choices : List ChatStreamChoice
  choicesCount : Int
  systemFingerprint : Option Bytes

section Keys

def idKey : Bytes := text "id"

def typeKey : Bytes := text "type"

def nameKey : Bytes := text "name"

def argumentsKey : Bytes := ascii "arguments".toList

def functionKey : Bytes := ascii "function".toList

def messageKey : Bytes := ascii "message".toList

def deltaKey : Bytes := ascii "delta".toList

def toolCallsKey : Bytes := ascii "tool_calls".toList

def functionCallKey : Bytes := ascii "function_call".toList

def choicesKey : Bytes := ascii "choices".toList

def roleKey : Bytes := ascii "role".toList

def contentKey : Bytes := ascii "content".toList

def finishReasonKey : Bytes := ascii "finish_reason".toList

def objectKey : Bytes := ascii "object".toList

def modelKey : Bytes := ascii "model".toList

def systemFingerprintKey : Bytes := ascii "system_fingerprint".toList

def requestIdKey : Bytes := ascii "request_id".toList

def serviceTierKey : Bytes := ascii "service_tier".toList

def toolChoiceKey : Bytes := ascii "tool_choice".toList

def inputUserKey : Bytes := ascii "input_user".toList

end Keys

section Members

variable {J D : Type} (json : CJson J D)

def getObjectItem (object : Option J) (key : Bytes) : Option J := object.bind (fun node => json.getObjectItem node key)

def typedMember (type : NodeType) (object : Option J) (key : Bytes) : Option J :=
  (getObjectItem json object key).filter (fun item => json.type item == type)

def stringMember (object : Option J) (key : Bytes) : Option Bytes :=
  (typedMember json .string object key).bind json.valuestring

def valueintOf (item : Option J) : Int :=
  match item with
  | some item => json.valueint item
  | none => 0

def intMember (object : Option J) (key : Bytes) : Int := valueintOf json (typedMember json .number object key)

def boolMember (object : Option J) (key : Bytes) : Int := valueintOf json (typedMember json .bool object key)

def uint64Member (object : Option J) (key : Bytes) : Nat :=
  match typedMember json .number object key with
  | some item => json.toUint64 (json.valuedouble item)
  | none => 0

def doubleMember [Zero D] (object : Option J) (key : Bytes) : D :=
  match typedMember json .number object key with
  | some item => json.valuedouble item
  | none => 0

/-- `strdup(cJSON_GetObjectItem(object, key)->valuestring)`, which reads through the two
pointers whether or not they are `NULL`. -/
def bareString (object : J) (key : Bytes) : Option Bytes :=
  (getObjectItem json (some object) key).bind json.valuestring

/-- The count and the entries of an array of structures, one for each node of an array. The
count is an `int`, and the loop runs while the index is below it. -/
def fillArray {α : Type} (parse : J → Option α) (array : Option J) : Option (Int × List α) :=
  match array.filter (fun node => json.type node == .array) with
  | none => some (0, [])
  | some array =>
      let count := toInt (json.items array).length
      (((json.items array).take count.toNat).mapM parse).map (fun entries => (count, entries))

end Members

section Parsers

variable {J D : Type} (json : CJson J D)

def parseToolCall (call : J) : Option ChatToolCall := do
  let id ← bareString json call idKey
  let type ← bareString json call typeKey
  match typedMember json .object (some call) functionKey with
  | none => some ⟨some id, some type, none, none⟩
  | some func =>
      let name ← bareString json func nameKey
      let arguments ← bareString json func argumentsKey
      some ⟨some id, some type, some name, some arguments⟩

def parseChoice (choiceJson : J) : Option ChatChoice :=
  let messageObj := getObjectItem json (some choiceJson) messageKey
  let checked := typedMember json .object (some choiceJson) messageKey
  (fillArray json (parseToolCall json) (getObjectItem json messageObj toolCallsKey)).map fun calls =>
    { index := intMember json (some choiceJson) (ascii "index".toList)
      message :=
        { role := stringMember json checked roleKey
          content := stringMember json checked contentKey
          toolCalls := calls.2
          toolCallsCount := calls.1
          functionCall := (typedMember json .object messageObj functionCallKey).map json.printUnformatted }
      finishReason := stringMember json (some choiceJson) finishReasonKey }

/-- The fields of no object are zero. -/
def parseUsage (usageJson : Option J) : ChatUsage :=
  let details := typedMember json .object usageJson (ascii "completion_tokens_details".toList)
  { promptTokens := intMember json usageJson (ascii "prompt_tokens".toList)
    completionTokens := intMember json usageJson (ascii "completion_tokens".toList)
    totalTokens := intMember json usageJson (ascii "total_tokens".toList)
    reasoningTokens := intMember json details (ascii "reasoning_tokens".toList)
    acceptedPredictionTokens := intMember json details (ascii "accepted_prediction_tokens".toList)
    rejectedPredictionTokens := intMember json details (ascii "rejected_prediction_tokens".toList) }

/-- `parse_response` once the text is parsed. Of `tool_choice` and `input_user` only a `null`
is looked for, and nothing is ever stored for them. -/
def parseRoot [Zero D] (root : J) : Option (ChatResponse J D) :=
  (fillArray json (parseChoice json) (getObjectItem json (some root) choicesKey)).map fun choices =>
    { id := stringMember json (some root) idKey
      object := stringMember json (some root) objectKey
      created := uint64Member json (some root) (ascii "created".toList)
      choices := choices.2
      choicesCount := choices.1
      model := stringMember json (some root) modelKey
      systemFingerprint := stringMember json (some root) systemFingerprintKey
      usage := parseUsage json (typedMember json .object (some root) (ascii "usage".toList))
      requestId := stringMember json (some root) requestIdKey
      toolChoice := none
      seed := uint64Member json (some root) (ascii "seed".toList)
      topP := doubleMember json (some root) (ascii "top_p".toList)
      temperature := doubleMember json (some root) (ascii "temperature".toList)
      presencePenalty := doubleMember json (some root) (ascii "presence_penalty".toList)
      frequencyPenalty := doubleMember json (some root) (ascii "frequency_penalty".toList)
      inputUser := none
      serviceTier := stringMember json (some root) serviceTierKey
      metadata := typedMember json .object (some root) (ascii "metadata".toList) }

/-- Nothing where the parser reads through a null pointer, else the pointer that it returns.
`cJSON_Parse` takes a null pointer and returns one. -/
def parseResponse [Zero D] (jsonStr : Option Bytes) : Option (Option (ChatResponse J D)) :=
  match jsonStr.bind json.parse with
  | none => some none
  | some root => (parseRoot json root).map some

def parseContentFilterResult (results : Option J) (key : Bytes) : Int :=
  boolMember json (typedMember json .object results key) (ascii "filtered".toList)

def parseContentFilterResults (results : Option J) : ContentFilterResults :=
  { hate := parseContentFilterResult json results (ascii "hate".toList)
    selfHarm := parseContentFilterResult json results (ascii "self_harm".toList)
    sexual := parseContentFilterResult json results (ascii "sexual".toList)
    violence := parseContentFilterResult json results (ascii "violence".toList) }

/-- One round of the loop of `parse_delta`, which prints the four strings. `printsNull`: the
C library's `printf` takes a null pointer for `%s`. -/
def parseDeltaCall (printsNull : Bool) (call : J) : Option ChatToolCall := do
  let id ← bareString json call idKey
  let type ← bareString json call typeKey
  let function := typedMember json .object (some call) functionKey
  let name := stringMember json function nameKey
  let arguments := stringMember json function argumentsKey
  if printsNull || (name.isSome && arguments.isSome) then some ⟨some id, some type, name, arguments⟩ else none

def parseDelta (printsNull : Bool) (deltaJson : Option J) : Option ChatStreamDelta :=
  (fillArray json (parseDeltaCall json printsNull) (getObjectItem json deltaJson toolCallsKey)).map fun calls =>
    { role := stringMember json deltaJson roleKey
      content := stringMember json deltaJson contentKey
      toolCalls := calls.2
      toolCallsCount := calls.1 }

def parseStreamChoice (printsNull : Bool) (choiceJson : J) : Option ChatStreamChoice :=
  (parseDelta json printsNull (typedMember json .object (some choiceJson) deltaKey)).map fun delta =>
    { index := intMember json (some choiceJson) (ascii "index".toList)
      delta := delta
      finishReason := stringMember json (some choiceJson) finishReasonKey
      contentFilterResults := parseContentFilterResults json
        (typedMember json .object (some choiceJson) (ascii "content_filter_results".toList)) }

def parseStreamRoot (printsNull : Bool) (root : J) : Option ChatStreamResponse :=
  (fillArray json (parseStreamChoice json printsNull) (getObjectItem json (some root) choicesKey)).map
    fun choices =>
      { id := stringMember json (some root) idKey
        object := stringMember json (some root) objectKey
        created := intMember json (some root) (ascii "created".toList)
        model := stringMember json (some root) modelKey
        choices := choices.2
        choicesCount := choices.1
        systemFingerprint := stringMember json (some root) systemFingerprintKey }

def parseStreamResponse (printsNull : Bool) (jsonStr : Option Bytes) : Option (Option ChatStreamResponse) :=
  match jsonStr.bind json.parse with
  | none => some none
  | some root => (parseStreamRoot json printsNull root).map some

def chatFreeStreamResponse (response : ChatStreamResponse) : Option Unit :=
  if response.choicesCount ≤ response.choices.length then some () else none

structure ChatRequestContext where
  onChatStreamCb : Option Pointer
  userData : Option Pointer

def inferInternalSseCallback (printsNull : Bool) (ctx : Option ChatRequestContext) (data : Option Bytes) :
    Option (List (Pointer × ChatStreamResponse × Option Pointer)) :=
  match ctx with
  | none => some []
  | some ctx =>
      match ctx.onChatStreamCb with
      | none => some []
      | some onChatStreamCb => do
          match ← parseStreamResponse json printsNull data with
          | none => some []
          | some partialResponse =>
              chatFreeStreamResponse partialResponse
              some [(onChatStreamCb, partialResponse, ctx.userData)]

end Parsers

section Spec

variable {J D : Type} (json : CJson J D)

def HasString (object : Option J) (key : Bytes) : Prop :=
  ∃ item, getObjectItem json object key = some item ∧ json.type item = .string

def Copied (object : Option J) (key : Bytes) (s : Option Bytes) : Prop :=
  ∀ text, s = some text ↔
    ∃ item, getObjectItem json object key = some item ∧ json.type item = .string ∧ json.valuestring item = some text

/-- `function_call`, of which an object is kept as its text. -/
def CallCopied (message : Option J) (s : Option Bytes) : Prop :=
  ∀ text, s = some text ↔ ∃ item, getObjectItem json message functionCallKey = some item ∧
    (json.type item = .string ∧ json.valuestring item = some text ∨
      json.type item = .object ∧ json.printUnformatted item = text)

def arrayItems (array : Option J) : List J :=
  match array.filter (fun node => json.type node == .array) with
  | none => []
  | some array => json.items array

def reached (array : Option J) : List J :=
  (arrayItems json array).take (toInt (arrayItems json array).length).toNat

def Filled {α : Type} (Right : J → α → Prop) (array : Option J) (count : Int) (entries : List α) : Prop :=
  count = entries.length ∧ List.Forall₂ Right ((arrayItems json array).take entries.length) entries

structure ToolCallRight (call : J) (tc : ChatToolCall) : Prop where
  id : Copied json (some call) idKey tc.id
  type : Copied json (some call) typeKey tc.type
  name : Copied json (getObjectItem json (some call) functionKey) nameKey tc.name
  arguments : Copied json (getObjectItem json (some call) functionKey) argumentsKey tc.arguments

structure MessageRight (message : Option J) (m : ChatMessage) : Prop where
  role : Copied json message roleKey m.role
  content : Copied json message contentKey m.content
  toolCalls : Filled json (ToolCallRight json) (getObjectItem json message toolCallsKey)
    m.toolCallsCount m.toolCalls
  functionCall : CallCopied json message m.functionCall

structure ChoiceRight (choice : J) (c : ChatChoice) : Prop where
  message : MessageRight json (getObjectItem json (some choice) messageKey) c.message
  finishReason : Copied json (some choice) finishReasonKey c.finishReason

structure ResponseRight (root : J) (r : ChatResponse J D) : Prop where
  id : Copied json (some root) idKey r.id
  object : Copied json (some root) objectKey r.object
  choices : Filled json (ChoiceRight json) (getObjectItem json (some root) choicesKey) r.choicesCount r.choices
  model : Copied json (some root) modelKey r.model
  systemFingerprint : Copied json (some root) systemFingerprintKey r.systemFingerprint
  requestId : Copied json (some root) requestIdKey r.requestId
  toolChoice : Copied json (some root) toolChoiceKey r.toolChoice
  inputUser : Copied json (some root) inputUserKey r.inputUser
  serviceTier : Copied json (some root) serviceTierKey r.serviceTier

structure DeltaRight (delta : Option J) (d : ChatStreamDelta) : Prop where
  role : Copied json delta roleKey d.role
  content : Copied json delta contentKey d.content
  toolCalls : Filled json (ToolCallRight json) (getObjectItem json delta toolCallsKey)
    d.toolCallsCount d.toolCalls

structure StreamChoiceRight (choice : J) (c : ChatStreamChoice) : Prop where
  delta : DeltaRight json (getObjectItem json (some choice) deltaKey) c.delta
  finishReason : Copied json (some choice) finishReasonKey c.finishReason

structure StreamResponseRight (root : J) (r : ChatStreamResponse) : Prop where
  id : Copied json (some root) idKey r.id
  object : Copied json (some root) objectKey r.object
  model : Copied json (some root) modelKey r.model
  choices : Filled json (StreamChoiceRight json) (getObjectItem json (some root) choicesKey)
    r.choicesCount r.choices
  systemFingerprint : Copied json (some root) systemFingerprintKey r.systemFingerprint

def RightFor {α : Type} (Right : J → α → Prop) (text : Option Bytes) (answer : α) : Prop :=
  ∃ root, text.bind json.parse = some root ∧ Right root answer

structure Parses [Zero D] (printsNull : Bool) (body : Option Bytes) : Prop where
  response : ∃ answer, parseResponse json body = some answer ∧
    ∀ response, answer = some response → RightFor json (ResponseRight json) body response
  stream : ∃ answer, parseStreamResponse json printsNull body = some answer ∧
    ∀ response, answer = some response → RightFor json (StreamResponseRight json) body response
  callback : ∀ ctx, ∃ calls, inferInternalSseCallback json printsNull ctx body = some calls ∧
    ∀ call ∈ calls, RightFor json (StreamResponseRight json) body call.2.1

/-- The condition on an array: its length as an `int` is no negative number, and every node
that the loop reaches is as it has to be. -/
def Readable (Safe : J → Prop) (array : Option J) : Prop :=
  (arrayItems json array).length % 2 ^ 32 < 2 ^ 31 ∧ ∀ item ∈ reached json array, Safe item

def ToolCallSafe (call : J) : Prop :=
  HasString json (some call) idKey ∧ HasString json (some call) typeKey ∧
    ∀ func, getObjectItem json (some call) functionKey = some func → json.type func = .object →
      HasString json (some func) nameKey ∧ HasString json (some func) argumentsKey

def ChoiceSafe (choice : J) : Prop :=
  let message := getObjectItem json (some choice) messageKey
  Readable json (ToolCallSafe json) (getObjectItem json message toolCallsKey) ∧
    ¬HasString json message functionCallKey

def ResponseSafe (root : J) : Prop :=
  Readable json (ChoiceSafe json) (getObjectItem json (some root) choicesKey) ∧
    ¬HasString json (some root) toolChoiceKey ∧ ¬HasString json (some root) inputUserKey

def DeltaCallSafe (printsNull : Bool) (call : J) : Prop :=
  let function := getObjectItem json (some call) functionKey
  HasString json (some call) idKey ∧ HasString json (some call) typeKey ∧
    (printsNull = true ∨ HasString json function nameKey ∧
      HasString json function argumentsKey)

def StreamChoiceSafe (printsNull : Bool) (choice : J) : Prop :=
  let delta := getObjectItem json (some choice) deltaKey
  Readable json (DeltaCallSafe json printsNull) (getObjectItem json delta toolCallsKey)

def StreamSafe (printsNull : Bool) (root : J) : Prop :=
  Readable json (StreamChoiceSafe json printsNull) (getObjectItem json (some root) choicesKey)

end Spec

section Members

variable {J D : Type} {json : CJson J D} {object : Option J} {key name : Bytes}

theorem typedMember_eq_some {type : NodeType} {item : J} :
    typedMember json type object key = some item ↔ getObjectItem json object key = some item ∧
      json.type item = type := by
  rw [typedMember, Option.filter_eq_some_iff, beq_iff_eq]

theorem getObjectItem_checked :
    getObjectItem json (typedMember json .object object name) key =
      getObjectItem json (getObjectItem json object name) key := by
  cases hnode : getObjectItem json object name with
  | none => rw [typedMember, hnode, Option.filter_none]
  | some node =>
      by_cases htype : json.type node = .object
      · rw [typedMember_eq_some.mpr ⟨hnode, htype⟩]
      · have hitem : json.getObjectItem node key = none := by
          rw [Option.eq_none_iff_forall_ne_some]
          intro item h
          exact htype (json.object_of_item h)
        have hchecked : typedMember json .object object name = none := by
          rw [Option.eq_none_iff_forall_ne_some]
          intro item h
          obtain ⟨hget, hobject⟩ := typedMember_eq_some.mp h
          exact htype (Option.some.inj (hnode.symm.trans hget) ▸ hobject)
        rw [hchecked, getObjectItem, getObjectItem, Option.bind_none, Option.bind_some, hitem]

theorem stringMember_copied : Copied json object key (stringMember json object key) := by
  intro text
  rw [stringMember, Option.bind_eq_some_iff]
  apply exists_congr
  intro item
  rw [typedMember_eq_some, and_assoc]

theorem Copied.congr {other : Option J} {s : Option Bytes} (h : Copied json object key s)
    (hget : getObjectItem json object key = getObjectItem json other key) : Copied json other key s := by
  rw [Copied, ← hget]
  exact h

theorem stringMember_isSome : (stringMember json object key).isSome = true ↔ HasString json object key := by
  rw [Option.isSome_iff_exists, HasString]
  constructor
  · rintro ⟨text, htext⟩
    obtain ⟨item, hget, htype, -⟩ := (stringMember_copied text).mp htext
    exact ⟨item, hget, htype⟩
  · rintro ⟨item, hget, htype⟩
    obtain ⟨text, htext⟩ := Option.isSome_iff_exists.mp ((json.isSome_valuestring item).mpr htype)
    exact ⟨text, (stringMember_copied text).mpr ⟨item, hget, htype, htext⟩⟩

theorem copied_none_iff : Copied json object key none ↔ ¬HasString json object key := by
  rw [← stringMember_isSome, Option.not_isSome_iff_eq_none]
  constructor
  · intro h
    rw [Option.eq_none_iff_forall_ne_some]
    intro text htext
    cases (h text).mpr ((stringMember_copied text).mp htext)
  · intro h
    rw [← h]
    exact stringMember_copied

theorem bareString_eq (node : J) : bareString json node key = stringMember json (some node) key := by
  apply Option.ext
  intro text
  rw [stringMember_copied text, bareString, Option.bind_eq_some_iff]
  apply exists_congr
  intro item
  apply and_congr_right
  intro _
  constructor
  · intro h
    exact ⟨(json.isSome_valuestring item).mp (Option.isSome_iff_exists.mpr ⟨text, h⟩), h⟩
  · exact And.right

theorem functionCall_iff {message : Option J} :
    CallCopied json message ((typedMember json .object message functionCallKey).map json.printUnformatted) ↔
      ¬HasString json message functionCallKey := by
  constructor
  · rintro h ⟨item, hget, htype⟩
    obtain ⟨text, htext⟩ := Option.isSome_iff_exists.mp ((json.isSome_valuestring item).mpr htype)
    have hsome := (h text).mpr ⟨item, hget, .inl ⟨htype, htext⟩⟩
    obtain ⟨object, hobject, -⟩ := Option.map_eq_some_iff.mp hsome
    obtain ⟨hget', htype'⟩ := typedMember_eq_some.mp hobject
    rw [Option.some.inj (hget.symm.trans hget'), htype'] at htype
    cases htype
  · intro h text
    rw [Option.map_eq_some_iff]
    apply exists_congr
    intro item
    rw [typedMember_eq_some, and_assoc]
    apply and_congr_right
    intro hget
    constructor
    · exact .inr
    · exact fun hcopied => hcopied.resolve_left (fun hstring => h ⟨item, hget, hstring.1⟩)

end Members

section Arrays

variable {J D : Type} {json : CJson J D} {α : Type} {parse : J → Option α} {Right : J → α → Prop}

theorem mapM_forall₂_iff {items : List J} :
    (∃ entries, items.mapM parse = some entries ∧ List.Forall₂ Right items entries) ↔
      ∀ item ∈ items, ∃ a, parse item = some a ∧ Right item a := by
  induction items with
  | nil => exact ⟨fun _ item h => absurd h List.not_mem_nil, fun _ => ⟨[], rfl, .nil⟩⟩
  | cons item items ih =>
      rw [List.forall_mem_cons, ← ih]
      constructor
      · rintro ⟨entries, hmap, hright⟩
        rw [List.mapM_cons] at hmap
        obtain ⟨a, ha, hrest⟩ := Option.bind_eq_some_iff.mp hmap
        obtain ⟨as, has, hcons⟩ := Option.bind_eq_some_iff.mp hrest
        obtain rfl := Option.some.inj hcons
        obtain ⟨hr, hrs⟩ := List.forall₂_cons.mp hright
        exact ⟨⟨a, ha, hr⟩, as, has, hrs⟩
      · rintro ⟨⟨a, ha, hr⟩, as, has, hrs⟩
        refine ⟨a :: as, ?_, .cons hr hrs⟩
        rw [List.mapM_cons, ha, has]
        rfl

theorem fillArray_eq (array : Option J) :
    fillArray json parse array =
      ((reached json array).mapM parse).map (fun entries => (toInt (arrayItems json array).length, entries)) := by
  rw [fillArray, reached, arrayItems]
  split <;> rfl

/-- A loop over an array goes through, with the count and the entries right, where the count
is no negative number and each round goes through with its entry right. -/
theorem fillArray_iff {array : Option J} :
    (∃ filled, fillArray json parse array = some filled ∧ Filled json Right array filled.1 filled.2) ↔
      Readable json (fun item => ∃ a, parse item = some a ∧ Right item a) array := by
  rw [Readable, ← mapM_forall₂_iff, ← toInt_nonneg_iff, fillArray_eq]
  constructor
  · rintro ⟨filled, hfilled, hcount, hright⟩
    obtain ⟨entries, hentries, rfl⟩ := Option.map_eq_some_iff.mp hfilled
    dsimp only at hcount hright
    refine ⟨by omega, entries, hentries, ?_⟩
    rw [reached, hcount, Int.toNat_natCast]
    exact hright
  · rintro ⟨hnonneg, entries, hentries, hright⟩
    have hle := toInt_le (arrayItems json array).length
    have hcount : toInt (arrayItems json array).length = entries.length := by
      rw [← hright.length_eq, reached, List.length_take]
      omega
    refine ⟨_, by rw [hentries, Option.map_some], hcount, ?_⟩
    dsimp only
    rw [reached, hcount, Int.toNat_natCast] at hright
    exact hright

end Arrays

section ToolCalls

variable {J D : Type} {json : CJson J D} {printsNull : Bool} {call : J} {tc : ChatToolCall}

theorem checkedString_copied {object : Option J} {name key : Bytes} :
    Copied json (getObjectItem json object name) key (stringMember json (typedMember json .object object name) key) :=
  stringMember_copied.congr getObjectItem_checked

theorem checkedString_isSome {object : Option J} {name key : Bytes} :
    (stringMember json (typedMember json .object object name) key).isSome = true ↔
      HasString json (getObjectItem json object name) key := by
  rw [stringMember_isSome, HasString, HasString, getObjectItem_checked]

def copiedCall (json : CJson J D) (call : J) : ChatToolCall :=
  let function := typedMember json .object (some call) functionKey
  ⟨stringMember json (some call) idKey, stringMember json (some call) typeKey,
    stringMember json function nameKey, stringMember json function argumentsKey⟩

theorem copiedCall_right : ToolCallRight json call (copiedCall json call) where
  id := stringMember_copied
  type := stringMember_copied
  name := checkedString_copied
  arguments := checkedString_copied

theorem functionStrings_iff :
    (∀ func, getObjectItem json (some call) functionKey = some func → json.type func = .object →
        HasString json (some func) nameKey ∧ HasString json (some func) argumentsKey) ↔
      ∀ func, typedMember json .object (some call) functionKey = some func →
        HasString json (some func) nameKey ∧ HasString json (some func) argumentsKey := by
  apply forall_congr'
  intro func
  rw [typedMember_eq_some, and_imp]

theorem parseToolCall_eq_some_iff :
    parseToolCall json call = some tc ↔ tc = copiedCall json call ∧ ToolCallSafe json call := by
  rw [parseToolCall, ToolCallSafe, copiedCall, functionStrings_iff, ← stringMember_isSome, ← stringMember_isSome]
  simp only [bareString_eq]
  cases hid : stringMember json (some call) idKey with
  | none => simp
  | some id =>
      cases htype : stringMember json (some call) typeKey with
      | none => simp
      | some type =>
          cases hfunc : typedMember json .object (some call) functionKey with
          | none =>
              constructor
              · intro h
                exact ⟨(Option.some.inj h).symm, rfl, rfl, nofun⟩
              · rintro ⟨rfl, -⟩
                rfl
          | some func =>
              have hstrings : (∀ other, some func = some other →
                  HasString json (some other) nameKey ∧ HasString json (some other) argumentsKey) ↔
                    HasString json (some func) nameKey ∧ HasString json (some func) argumentsKey :=
                ⟨fun h => h func rfl, fun h _ heq => Option.some.inj heq ▸ h⟩
              rw [hstrings, ← stringMember_isSome, ← stringMember_isSome]
              simp only [Option.bind_eq_bind, Option.bind_some]
              cases stringMember json (some func) nameKey with
              | none => simp
              | some name =>
                  cases stringMember json (some func) argumentsKey with
                  | none => simp
                  | some arguments => simp [eq_comm]

theorem parseDeltaCall_eq_some_iff :
    parseDeltaCall json printsNull call = some tc ↔ tc = copiedCall json call ∧ DeltaCallSafe json printsNull call := by
  rw [parseDeltaCall, DeltaCallSafe, copiedCall]
  dsimp only
  rw [bareString_eq, bareString_eq, ← stringMember_isSome, ← stringMember_isSome, ← checkedString_isSome,
    ← checkedString_isSome]
  cases stringMember json (some call) idKey with
  | none => simp
  | some id =>
      cases stringMember json (some call) typeKey with
      | none => simp
      | some type =>
          simp only [Option.bind_eq_bind, Option.bind_some, Option.isSome_some, true_and, Bool.or_eq_true,
            Bool.and_eq_true]
          split
          next hprints => rw [Option.some_inj, eq_comm, and_iff_left hprints]
          next hprints => exact iff_of_false nofun (fun h => hprints h.2)

end ToolCalls

section Choices

variable {J D : Type} {json : CJson J D} {printsNull : Bool}

theorem parsed_iff {α : Type} {parsed : Option α} {Right : α → Prop} {value : α} {Safe : Prop}
    (hparsed : ∀ a, parsed = some a ↔ a = value ∧ Safe) (hright : Right value) :
    (∃ a, parsed = some a ∧ Right a) ↔ Safe := by
  constructor
  · rintro ⟨a, ha, -⟩
    exact ((hparsed a).mp ha).2
  · intro hsafe
    exact ⟨value, (hparsed value).mpr ⟨rfl, hsafe⟩, hright⟩

theorem fillArray_iff_of {α : Type} {parse : J → Option α} {Right : J → α → Prop} {Safe : J → Prop} {array : Option J}
    (hround : ∀ item, (∃ a, parse item = some a ∧ Right item a) ↔ Safe item) :
    (∃ filled, fillArray json parse array = some filled ∧ Filled json Right array filled.1 filled.2) ↔
      Readable json Safe array := by
  rw [fillArray_iff, funext fun item => propext (hround item)]

theorem parseToolCall_iff (call : J) :
    (∃ tc, parseToolCall json call = some tc ∧ ToolCallRight json call tc) ↔ ToolCallSafe json call :=
  parsed_iff (fun _ => parseToolCall_eq_some_iff) copiedCall_right

theorem parseDeltaCall_iff (call : J) :
    (∃ tc, parseDeltaCall json printsNull call = some tc ∧ ToolCallRight json call tc) ↔
      DeltaCallSafe json printsNull call :=
  parsed_iff (fun _ => parseDeltaCall_eq_some_iff) copiedCall_right

theorem parseChoice_iff (choice : J) :
    (∃ c, parseChoice json choice = some c ∧ ChoiceRight json choice c) ↔ ChoiceSafe json choice := by
  rw [ChoiceSafe, ← fillArray_iff_of parseToolCall_iff, ← functionCall_iff]
  constructor
  · rintro ⟨c, hc, hright⟩
    obtain ⟨filled, hfilled, rfl⟩ := Option.map_eq_some_iff.mp hc
    exact ⟨⟨filled, hfilled, hright.message.toolCalls⟩, hright.message.functionCall⟩
  · rintro ⟨⟨filled, hfilled, hright⟩, hcall⟩
    refine ⟨_, by rw [parseChoice, hfilled, Option.map_some], ?_, stringMember_copied⟩
    exact ⟨checkedString_copied, checkedString_copied, hright, hcall⟩

theorem parseStreamChoice_iff (choice : J) :
    (∃ c, parseStreamChoice json printsNull choice = some c ∧ StreamChoiceRight json choice c) ↔
      StreamChoiceSafe json printsNull choice := by
  rw [StreamChoiceSafe, ← fillArray_iff_of parseDeltaCall_iff]
  constructor
  · rintro ⟨c, hc, hright⟩
    obtain ⟨delta, hdelta, rfl⟩ := Option.map_eq_some_iff.mp hc
    obtain ⟨filled, hfilled, rfl⟩ := Option.map_eq_some_iff.mp hdelta
    rw [getObjectItem_checked] at hfilled
    exact ⟨filled, hfilled, hright.delta.toolCalls⟩
  · rintro ⟨filled, hfilled, hright⟩
    refine ⟨_, by rw [parseStreamChoice, parseDelta, getObjectItem_checked, hfilled, Option.map_some,
      Option.map_some], ?_, stringMember_copied⟩
    exact ⟨checkedString_copied, checkedString_copied, hright⟩

end Choices

section Roots

variable {J D : Type} {json : CJson J D} {printsNull : Bool} {body : Option Bytes} {root : J}

theorem parseRoot_iff [Zero D] :
    (∃ r, parseRoot json root = some r ∧ ResponseRight json root r) ↔ ResponseSafe json root := by
  rw [ResponseSafe, ← fillArray_iff_of parseChoice_iff, ← copied_none_iff, ← copied_none_iff]
  constructor
  · rintro ⟨r, hr, hright⟩
    obtain ⟨filled, hfilled, rfl⟩ := Option.map_eq_some_iff.mp hr
    exact ⟨⟨filled, hfilled, hright.choices⟩, hright.toolChoice, hright.inputUser⟩
  · rintro ⟨⟨filled, hfilled, hright⟩, hchoice, huser⟩
    refine ⟨_, by rw [parseRoot, hfilled, Option.map_some], ?_⟩
    exact ⟨stringMember_copied, stringMember_copied, hright, stringMember_copied, stringMember_copied,
      stringMember_copied, hchoice, huser, stringMember_copied⟩

theorem parseStreamRoot_iff :
    (∃ r, parseStreamRoot json printsNull root = some r ∧ StreamResponseRight json root r) ↔
      StreamSafe json printsNull root := by
  rw [StreamSafe, ← fillArray_iff_of parseStreamChoice_iff]
  constructor
  · rintro ⟨r, hr, hright⟩
    obtain ⟨filled, hfilled, rfl⟩ := Option.map_eq_some_iff.mp hr
    exact ⟨filled, hfilled, hright.choices⟩
  · rintro ⟨filled, hfilled, hright⟩
    refine ⟨_, by rw [parseStreamRoot, hfilled, Option.map_some], ?_⟩
    exact ⟨stringMember_copied, stringMember_copied, stringMember_copied, hright, stringMember_copied⟩

theorem answered_iff {α : Type} {parse : J → Option α} {Right : J → α → Prop} {Safe : J → Prop}
    (hroot : ∀ root, (∃ r, parse root = some r ∧ Right root r) ↔ Safe root) :
    (∃ answer, (match body.bind json.parse with
        | none => some none
        | some root => (parse root).map some) = some answer ∧
      ∀ r, answer = some r → RightFor json Right body r) ↔
      ∀ root, body.bind json.parse = some root → Safe root := by
  unfold RightFor
  cases body.bind json.parse with
  | none => exact ⟨fun _ => nofun, fun _ => ⟨none, rfl, nofun⟩⟩
  | some root =>
      have hother : (∀ other, some root = some other → Safe other) ↔ Safe root :=
        ⟨fun h => h root rfl, fun h _ heq => Option.some.inj heq ▸ h⟩
      rw [hother, ← hroot]
      constructor
      · rintro ⟨answer, hanswer, hright⟩
        obtain ⟨r, hr, rfl⟩ := Option.map_eq_some_iff.mp hanswer
        obtain ⟨other, hsame, hright⟩ := hright r rfl
        rw [← Option.some.inj hsame] at hright
        exact ⟨r, hr, hright⟩
      · rintro ⟨r, hr, hright⟩
        refine ⟨some r, Option.map_eq_some_iff.mpr ⟨r, hr, rfl⟩, ?_⟩
        rintro other hsame
        rw [← Option.some.inj hsame]
        exact ⟨root, rfl, hright⟩

theorem callback_right {answer : Option ChatStreamResponse}
    (hparse : parseStreamResponse json printsNull body = some answer)
    (hright : ∀ r, answer = some r → RightFor json (StreamResponseRight json) body r)
    (ctx : Option ChatRequestContext) :
    ∃ calls, inferInternalSseCallback json printsNull ctx body = some calls ∧
      ∀ call ∈ calls, RightFor json (StreamResponseRight json) body call.2.1 := by
  rcases ctx with _ | ⟨_ | onChatStreamCb, userData⟩
  · exact ⟨[], rfl, nofun⟩
  · exact ⟨[], rfl, nofun⟩
  · cases answer with
    | none => exact ⟨[], by simp [inferInternalSseCallback, hparse], nofun⟩
    | some response =>
        have hresponse := hright response rfl
        obtain ⟨root, -, hroot⟩ := hresponse
        have hfree : chatFreeStreamResponse response = some () := if_pos (Int.le_of_eq hroot.choices.1)
        refine ⟨[(onChatStreamCb, response, userData)], by simp [inferInternalSseCallback, hparse, hfree], ?_⟩
        rw [List.forall_mem_singleton]
        exact hright response rfl

end Roots

/-- The parsers read the identifier and the type of every tool call without a check, and the
non-streaming one also the name and the arguments of its function. The streaming one prints
the four. A `tool_choice`, an `input_user` and a `function_call` that are strings get lost. -/
theorem parsesChat_iff {J D : Type} [Zero D] (json : CJson J D) (printsNull : Bool) (body : Option Bytes) :
    Parses json printsNull body ↔
      ∀ root, body.bind json.parse = some root → ResponseSafe json root ∧ StreamSafe json printsNull root := by
  have hresponse : (∃ answer, parseResponse json body = some answer ∧
      ∀ r, answer = some r → RightFor json (ResponseRight json) body r) ↔
        ∀ root, body.bind json.parse = some root → ResponseSafe json root :=
    answered_iff (fun _ => parseRoot_iff)
  have hstream : (∃ answer, parseStreamResponse json printsNull body = some answer ∧
      ∀ r, answer = some r → RightFor json (StreamResponseRight json) body r) ↔
        ∀ root, body.bind json.parse = some root → StreamSafe json printsNull root :=
    answered_iff (fun _ => parseStreamRoot_iff)
  constructor
  · rintro h root hroot
    exact ⟨hresponse.mp h.response root hroot, hstream.mp h.stream root hroot⟩
  · intro h
    obtain ⟨answer, hanswer, hright⟩ := hstream.mpr (fun root hroot => (h root hroot).2)
    refine ⟨hresponse.mpr (fun root hroot => (h root hroot).1), ⟨answer, hanswer, hright⟩, ?_⟩
    exact callback_right hanswer hright

section MissingId

inductive Node where
  | string (s : Bytes)
  | array (items : List Node)
  | object (members : List (Bytes × Node))

def Node.type : Node → NodeType
  | .string _ => .string
  | .array _ => .array
  | .object _ => .object

def Node.member : Node → Bytes → Option Node
  | .object members, key => (members.find? (·.1 == key)).map Prod.snd
  | _, _ => none

def Node.valuestring : Node → Option Bytes
  | .string s => some s
  | _ => none

theorem Node.object_of_member {node item : Node} {key : Bytes} (h : node.member key = some item) :
    node.type = .object := by
  cases node with
  | object members => rfl
  | string s => cases h
  | array items => cases h

theorem Node.isSome_valuestring (node : Node) : node.valuestring.isSome = true ↔ node.type = .string := by
  cases node <;> simp [valuestring, type]

def nodeJson (text : Bytes) (tree : Node) : CJson Node Int where
  parse t := if t = text then some tree else none
  type := Node.type
  getObjectItem := Node.member
  items node := match node with | .array items => items | _ => []
  valueint _ := 0
  valuedouble _ := 0
  valuestring := Node.valuestring
  printUnformatted _ := []
  toUint64 := Int.toNat
  object_of_item := Node.object_of_member
  isSome_valuestring := Node.isSome_valuestring

/-- `"choices":["message":"tool_calls":["type":"function"]]` with its braces. -/
def noIdText : Bytes :=
  ascii "\x7b\"choices\":[\x7b\"message\":\x7b\"tool_calls\":[\x7b\"type\":\"function\"\x7d]\x7d\x7d]\x7d".toList

def noIdCall : Node := .object [(typeKey, .string functionKey)]

def noIdTree : Node :=
  .object [(choicesKey, .array [.object [(messageKey, .object [(toolCallsKey, .array [noIdCall])])]])]

theorem noId_faults : ¬Parses (nodeJson noIdText noIdTree) true (some noIdText) := by
  intro h
  obtain ⟨answer, hanswer, -⟩ := h.response
  have hfault : parseResponse (nodeJson noIdText noIdTree) (some noIdText) = none := rfl
  rw [hfault] at hanswer
  cases hanswer

end MissingId

end OneSdk.ChatParse
