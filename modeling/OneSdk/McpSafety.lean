import OneSdk.McpCalls

namespace OneSdk.McpSafety

open CString Runs McpClient McpCalls

section Spec

variable {J : Type} (json : CJson J) (isBool : J → Bool)

def HasText (node : J) (key : Bytes) : Prop := (textOf json node key).isSome = true

def ToolTexts (tool : J) : Prop :=
  HasText json tool nameKey ∧
    HasText json tool descriptionKey

def ContentTexts (item : J) : Prop :=
  HasText json item typeKey ∧ HasText json item textKey

def FlagTyped (root : J) : Prop :=
  ∀ isError, json.getObjectItem root isErrorKey = some isError → isBool isError = true

def ToolsTyped (tools : J) : Prop := json.isArray tools = true ∧ ∀ tool ∈ json.items tools, ToolTexts json tool

def ContentTyped (root content : J) : Prop :=
  json.isArray content = true ∧ (∀ item ∈ json.items content, ContentTexts json item) ∧ FlagTyped json isBool root

def arrayOf (root : J) : Kind → Option J
  | .toolCall => json.getObjectItem root contentKey
  | .toolsList => json.getObjectItem root toolsKey

def Typed (root array : J) : Kind → Prop
  | .toolCall => ContentTyped json isBool root array
  | .toolsList => ToolsTyped json array

/-- A result all of whose members that the parser reads are there and of their type. -/
def Proper (kind : Kind) (text : Option Bytes) : Prop :=
  ∃ root array, text.bind json.parse = some root ∧ arrayOf json root kind = some array ∧
    Typed json isBool root array kind

def printedEndpoint (s : Sys) : Event → Option (Option Bytes)
  | .deliver d => if isEndpoint s.ctx d = some true then some d.data else none
  | .receive =>
      match s.receiver with
      | .stored d =>
          if s.ctx.initialized = false ∧ sseParseRequestId json d.data = s.ctx.initializeRequestId ∧
              s.ctx.endpointGot = true then
            some s.ctx.endpoint
          else none
      | _ => none
  | .call _ | .act _ | .elsewhere => none

/-- No null pointer is read, no URL runs over its array, and a call that reads a result that
is absent or malformed returns `NULL`. -/
structure Safe (s : Sys) (e : Event) : Prop where
  reads : (next json s e).faulted = false
  writes : ∀ endpoint, printedEndpoint json s e = some endpoint → ∃ path, endpoint = some path ∧
    UrlFits s.ctx.server path
  answers : ∀ i c, e = .act i → s.callers[i]? = some c → c.phase = .lock →
    ¬Proper json isBool c.kind s.ctx.messages.result →
      ∃ source, ((next json s e).callers[i]?).bind Caller.outcome = some (none, source)

def Parses (kind : Kind) (text : Option Bytes) : Prop :=
  ∀ root array, text.bind json.parse = some root → arrayOf json root kind = some array →
    kind = .toolCall ∨ json.isArray array = true → Typed json isBool root array kind

/-- An event line until there is an endpoint, and an endpoint with data of a length that fits;
and a result that is read is missing its array or else has all that its parser reads. -/
def Harmless (s : Sys) : Event → Prop
  | .deliver d =>
      s.ctx.endpointGot = true ∨ ∃ event, d.event = some event ∧
        (event = endpointName → ∃ path, d.data = some path ∧ UrlFits s.ctx.server path)
  | .act i => ∀ c, s.callers[i]? = some c → c.phase = .lock → Parses json isBool c.kind s.ctx.messages.result
  | .call _ | .receive | .elsewhere => True

end Spec

section Parsers

variable {J : Type} {json : CJson J} {isBool : J → Bool} {text : Option Bytes}

theorem mapM_isSome {α β : Type} {f : α → Option β} {l : List α} :
    (l.mapM f).isSome = true ↔ ∀ a ∈ l, (f a).isSome = true := by
  induction l with
  | nil => simp
  | cons a l ih =>
      rw [List.mapM_cons, List.forall_mem_cons, ← ih]
      cases f a with
      | none => simp
      | some b => cases l.mapM f <;> simp

theorem toolOf_isSome (tool : J) : (toolOf json tool).isSome = true ↔ ToolTexts json tool := by
  rw [toolOf, ToolTexts, HasText, HasText]
  cases textOf json tool nameKey with
  | none => simp
  | some name =>
      cases textOf json tool descriptionKey <;> simp

theorem contentOf_isSome (item : J) : (contentOf json item).isSome = true ↔ ContentTexts json item := by
  rw [contentOf, ContentTexts, HasText, HasText]
  cases textOf json item typeKey with
  | none => simp
  | some type => cases textOf json item textKey <;> simp

def Answers (json : CJson J) (isBool : J → Bool) (kind : Kind) (text : Option Bytes) : Prop :=
  ∃ ret, kind.parse json text = some ret ∧ (¬Proper json isBool kind text → ret = none)

variable {kind : Kind} {root array : J}

theorem proper_iff (hroot : text.bind json.parse = some root) (harray : arrayOf json root kind = some array) :
    Proper json isBool kind text ↔ Typed json isBool root array kind := by
  constructor
  · rintro ⟨root', array', hroot', harray', htyped⟩
    obtain rfl := Option.some.inj (hroot.symm.trans hroot')
    obtain rfl := Option.some.inj (harray.symm.trans harray')
    exact htyped
  · exact fun htyped => ⟨root, array, hroot, harray, htyped⟩

theorem parses_iff (hroot : text.bind json.parse = some root) (harray : arrayOf json root kind = some array) :
    Parses json isBool kind text ↔
      (kind = .toolCall ∨ json.isArray array = true → Typed json isBool root array kind) := by
  constructor
  · exact fun h => h root array hroot harray
  · intro h root' array' hroot' harray'
    obtain rfl := Option.some.inj (hroot.symm.trans hroot')
    obtain rfl := Option.some.inj (harray.symm.trans harray')
    exact h

def readArray (json : CJson J) (root array : J) : Kind → Option (Option Result)
  | .toolCall =>
      ((json.items array).mapM (contentOf json)).map (fun items => some (.toolResult ⟨isErrorOf json root, items⟩))
  | .toolsList =>
      if json.isArray array = true then
        ((json.items array).mapM (toolOf json)).map (fun tools => some (.toolsList tools))
      else some none

theorem parse_of_root (hroot : text.bind json.parse = some root) :
    kind.parse json text = ((arrayOf json root kind).map (fun array => readArray json root array kind)).getD
      (some none) := by
  cases kind with
  | toolCall =>
      rw [Kind.parse, mcpToolResultParse, hroot, arrayOf]
      dsimp only
      cases json.getObjectItem root contentKey with
      | none => rfl
      | some content =>
          dsimp only
          rw [Option.map_map]
          rfl
  | toolsList =>
      rw [Kind.parse, mcpToolsListParse, hroot, arrayOf]
      dsimp only
      cases json.getObjectItem root toolsKey with
      | none => rfl
      | some tools =>
          dsimp only
          rw [Option.map_some, Option.getD_some, readArray]
          split
          · rw [Option.map_map]
            rfl
          · rfl

theorem parse_unparsed (hroot : text.bind json.parse = none) : kind.parse json text = some none := by
  cases kind with
  | toolCall => rw [Kind.parse, mcpToolResultParse, hroot, Option.map_some, Option.map_none]
  | toolsList => rw [Kind.parse, mcpToolsListParse, hroot, Option.map_some, Option.map_none]

theorem answers_null (hnull : kind.parse json text = some none) : Answers json isBool kind text :=
  ⟨none, hnull, fun _ => rfl⟩

theorem answers_read {α : Type} {r : Option α} {f : α → Result}
    (hparse : kind.parse json text = r.map (fun a => some (f a)))
    (hsome : Proper json isBool kind text → r.isSome = true) :
    Answers json isBool kind text ↔ Proper json isBool kind text := by
  constructor
  · rintro ⟨ret, hret, hnull⟩
    by_contra hnot
    rw [hparse, hnull hnot] at hret
    obtain ⟨a, -, hsome⟩ := Option.map_eq_some_iff.mp hret
    exact nomatch hsome
  · intro hproper
    obtain ⟨a, ha⟩ := Option.isSome_iff_exists.mp (hsome hproper)
    refine ⟨some (f a), ?_, fun hnot => absurd hproper hnot⟩
    rw [hparse, ha]
    rfl

theorem answers_array (hroot : text.bind json.parse = some root) (harray : arrayOf json root kind = some array) :
    Answers json isBool kind text ↔ Parses json isBool kind text := by
  have hparse : kind.parse json text = readArray json root array kind := by
    rw [parse_of_root hroot, harray, Option.map_some, Option.getD_some]
  have hproper : Proper json isBool kind text ↔ Typed json isBool root array kind := proper_iff hroot harray
  rw [parses_iff hroot harray]
  cases kind with
  | toolCall =>
      rw [answers_read hparse ?_, hproper, forall_prop_of_true (Or.inl rfl)]
      intro hp
      obtain ⟨-, htexts, -⟩ := hproper.mp hp
      exact mapM_isSome.mpr (fun item hitem => (contentOf_isSome item).mpr (htexts item hitem))
  | toolsList =>
      by_cases hlist : json.isArray array = true
      · rw [readArray, if_pos hlist] at hparse
        rw [answers_read hparse ?_, hproper, forall_prop_of_true (Or.inr hlist)]
        intro hp
        obtain ⟨-, htexts⟩ := hproper.mp hp
        exact mapM_isSome.mpr (fun tool htool => (toolOf_isSome tool).mpr (htexts tool htool))
      · rw [readArray, if_neg hlist] at hparse
        exact iff_of_true (answers_null hparse) (fun h => h.elim nofun (fun harr => absurd harr hlist))

theorem answers_iff : Answers json isBool kind text ↔ Parses json isBool kind text := by
  cases hroot : text.bind json.parse with
  | none =>
      refine iff_of_true (answers_null (parse_unparsed hroot)) (fun root array h => ?_)
      rw [hroot] at h
      exact nomatch h
  | some root =>
      cases harray : arrayOf json root kind with
      | some array => exact answers_array hroot harray
      | none =>
          have hnull : kind.parse json text = some none := by
            rw [parse_of_root hroot, harray, Option.map_none, Option.getD_none]
          refine iff_of_true (answers_null hnull) (fun root' array h harray' => ?_)
          obtain rfl := Option.some.inj (hroot.symm.trans h)
          rw [harray] at harray'
          exact nomatch harray'

end Parsers

section Steps

variable {J : Type} {json : CJson J} {isBool : J → Bool} {s : Sys} {e : Event}

def Fitted (s : Sys) : Prop :=
  s.ctx.endpointGot = true → ∃ path, s.ctx.endpoint = some path ∧ UrlFits s.ctx.server path

theorem advance_lock {c : Caller} (hp : c.phase = .lock) :
    advance json s c = (c.kind.parse json s.ctx.messages.result).map (fun ret => c.to (.done ret s.source)) := by
  rw [advance, hp]

theorem act_faulted {i : Nat} {c : Caller} (hi : s.callers[i]? = some c) (hf : s.faulted = false) :
    (act json s i).faulted = false ↔ (advance json s c).isSome = true := by
  rw [act, hi]
  dsimp only
  cases advance json s c with
  | none => exact iff_of_false (fun h => Bool.noConfusion h) Bool.false_ne_true
  | some c' => exact iff_of_true hf rfl

theorem safe_act_unlocked {i : Nat} {c : Caller} (hi : s.callers[i]? = some c) (hf : s.faulted = false)
    (hp : c.phase ≠ .lock) : Safe json isBool s (.act i) where
  reads := by
    rw [next, act_faulted hi hf, Option.isSome_iff_ne_none]
    exact fun hnone => hp (advance_none hnone).1
  writes endpoint h := nomatch h
  answers j c' hj hc' hp' _ := by
    obtain rfl := Event.act.inj hj
    rw [Option.some.inj (hi.symm.trans hc')] at hp
    exact absurd hp' hp

theorem safe_act_locked {i : Nat} {c : Caller} (hi : s.callers[i]? = some c) (hf : s.faulted = false)
    (hp : c.phase = .lock) :
    Safe json isBool s (.act i) ↔ Answers json isBool c.kind s.ctx.messages.result := by
  have hnext : ∀ ret, c.kind.parse json s.ctx.messages.result = some ret →
      ((next json s (.act i)).callers[i]?).bind Caller.outcome = some (ret, s.source) := by
    intro ret hret
    rw [next, act_get hi, if_pos rfl, advance_lock hp, hret]
    rfl
  constructor
  · intro h
    have hreads := h.reads
    rw [next, act_faulted hi hf, advance_lock hp, Option.isSome_map] at hreads
    obtain ⟨ret, hret⟩ := Option.isSome_iff_exists.mp hreads
    refine ⟨ret, hret, fun hnot => ?_⟩
    obtain ⟨source, hsource⟩ := h.answers i c rfl hi hp hnot
    rw [hnext ret hret] at hsource
    exact congrArg Prod.fst (Option.some.inj hsource)
  · rintro ⟨ret, hret, hnull⟩
    refine ⟨?_, fun endpoint h => (by cases h), fun j c' hj hc' _ hnot => ?_⟩
    · rw [next, act_faulted hi hf, advance_lock hp, hret]
      rfl
    · obtain rfl := Event.act.inj hj
      obtain rfl := Option.some.inj (hi.symm.trans hc')
      exact ⟨s.source, by rw [hnext ret hret, hnull hnot]⟩

theorem deliver_stored {d : Packet} (h : isEndpoint s.ctx d = some false) :
    next json s (.deliver d) = store json (arrive s d) d := by
  rw [next, mcpPacketHandle, show isEndpoint (arrive s d).ctx d = some false from h]

theorem deliver_endpoint {d : Packet} {path : Bytes} (h : isEndpoint s.ctx d = some true) (hdata : d.data = some path)
    (hfits : UrlFits s.ctx.server path) : next json s (.deliver d) = takeEndpoint (arrive s d) path := by
  rw [next, mcpPacketHandle, show isEndpoint (arrive s d).ctx d = some true from h]
  dsimp only
  rw [hdata]
  exact if_pos hfits

theorem deliver_eventless {d : Packet} (h : isEndpoint s.ctx d = none) :
    next json s (.deliver d) = fault (arrive s d) := by
  rw [next, mcpPacketHandle, show isEndpoint (arrive s d).ctx d = none from h]

theorem isEndpoint_got {d : Packet} (h : s.ctx.endpointGot = true) : isEndpoint s.ctx d = some false := if_pos h

theorem isEndpoint_event {d : Packet} (h : s.ctx.endpointGot = false) :
    isEndpoint s.ctx d = d.event.map (fun event => event == endpointName) :=
  if_neg (by simp [h])

theorem safe_deliver_stored {d : Packet} (hf : s.faulted = false) (h : isEndpoint s.ctx d = some false) :
    Safe json isBool s (.deliver d) where
  reads := by
    rw [deliver_stored h]
    exact hf
  writes endpoint hprint := by
    rw [printedEndpoint, h] at hprint
    exact nomatch hprint
  answers i c hi := nomatch hi

theorem safe_deliver_endpoint {d : Packet} (hf : s.faulted = false) (h : isEndpoint s.ctx d = some true) :
    Safe json isBool s (.deliver d) ↔ ∃ path, d.data = some path ∧ UrlFits s.ctx.server path := by
  have hprint : printedEndpoint json s (.deliver d) = some d.data := by
    rw [printedEndpoint, if_pos h]
  constructor
  · exact fun hs => hs.writes d.data hprint
  · rintro ⟨path, hdata, hfits⟩
    refine ⟨?_, fun endpoint hendpoint => ?_, fun i c hi => (nomatch hi)⟩
    · rw [deliver_endpoint h hdata hfits]
      exact hf
    · rw [hprint] at hendpoint
      exact ⟨path, (Option.some.inj hendpoint).symm.trans hdata, hfits⟩

theorem not_safe_deliver {d : Packet} (h : isEndpoint s.ctx d = none) : ¬Safe json isBool s (.deliver d) := by
  intro hs
  have hreads := hs.reads
  rw [deliver_eventless h] at hreads
  exact nomatch hreads

theorem safe_deliver_iff {d : Packet} (hf : s.faulted = false) :
    Safe json isBool s (.deliver d) ↔ Harmless json isBool s (.deliver d) := by
  rw [Harmless]
  cases hgot : s.ctx.endpointGot with
  | true => exact iff_of_true (safe_deliver_stored hf (isEndpoint_got hgot)) (Or.inl rfl)
  | false =>
      have hevent := isEndpoint_event (d := d) hgot
      rw [or_iff_right Bool.false_ne_true]
      cases hd : d.event with
      | none =>
          rw [hd, Option.map_none] at hevent
          exact iff_of_false (not_safe_deliver hevent) (fun ⟨_, h, _⟩ => nomatch h)
      | some event =>
          rw [hd, Option.map_some] at hevent
          by_cases hendpoint : event = endpointName
          · rw [beq_iff_eq.mpr hendpoint] at hevent
            rw [safe_deliver_endpoint hf hevent]
            constructor
            · exact fun h => ⟨event, rfl, fun _ => h⟩
            · rintro ⟨event', heq, h⟩
              obtain rfl := Option.some.inj heq
              exact h hendpoint
          · rw [beq_eq_false_iff_ne.mpr hendpoint] at hevent
            exact iff_of_true (safe_deliver_stored hf hevent) ⟨event, rfl, fun h => absurd h hendpoint⟩

variable (json s) in
theorem receive_keeps :
    (receive json s).faulted = s.faulted ∧ (receive json s).ctx.endpointGot = s.ctx.endpointGot ∧
      (receive json s).ctx.endpoint = s.ctx.endpoint ∧ (receive json s).ctx.server = s.ctx.server := by
  rw [receive]
  split
  · exact ⟨rfl, rfl, rfl, rfl⟩
  · split <;> exact ⟨rfl, rfl, rfl, rfl⟩
  · exact ⟨rfl, rfl, rfl, rfl⟩

theorem safe_receive (hf : s.faulted = false) (hfit : Fitted s) : Safe json isBool s .receive where
  reads := (receive_keeps json s).1.trans hf
  writes endpoint h := by
    rw [printedEndpoint] at h
    split at h
    · split at h
      next hnotify =>
          rw [← Option.some.inj h]
          exact hfit hnotify.2.2
      · exact nomatch h
    · exact nomatch h
  answers i c hi := nomatch hi

theorem safe_iff (he : enabled json s e) (hfit : Fitted s) :
    Safe json isBool s e ↔ Harmless json isBool s e := by
  cases e with
  | call kind => exact iff_of_true ⟨he.1, fun endpoint h => (nomatch h), fun i c hi => nomatch hi⟩ trivial
  | elsewhere => exact iff_of_true ⟨he.1, fun endpoint h => (nomatch h), fun i c hi => nomatch hi⟩ trivial
  | receive => exact iff_of_true (safe_receive he.1 hfit) trivial
  | deliver d => exact safe_deliver_iff he.1
  | act i =>
      obtain ⟨c, hi, -⟩ := he.2
      rw [Harmless]
      by_cases hp : c.phase = .lock
      · rw [safe_act_locked hi he.1 hp, answers_iff]
        constructor
        · intro h c' hc' _
          obtain rfl := Option.some.inj ((Option.mem_def.mp hi).symm.trans hc')
          exact h
        · exact fun h => h c hi hp
      · refine iff_of_true (safe_act_unlocked hi he.1 hp) (fun c' hc' hp' => ?_)
        obtain rfl := Option.some.inj ((Option.mem_def.mp hi).symm.trans hc')
        exact absurd hp' hp

theorem Fitted.next (h : Fitted s) (hsafe : Safe json isBool s e) :
    Fitted (McpClient.next json s e) := by
  cases e with
  | call kind => exact h
  | elsewhere => exact h
  | act i =>
      obtain ⟨callers, counter, faulted, heq, -⟩ := act_frame json s i
      rw [McpClient.next, heq]
      exact h
  | receive =>
      obtain ⟨-, hgot, hendpoint, hserver⟩ := receive_keeps json s
      intro hnext
      rw [McpClient.next, hgot] at hnext
      rw [McpClient.next, hendpoint, hserver]
      exact h hnext
  | deliver d =>
      cases hend : isEndpoint s.ctx d with
      | none =>
          rw [deliver_eventless hend]
          exact h
      | some isEnd =>
          cases isEnd with
          | false =>
              rw [deliver_stored hend]
              exact h
          | true =>
              have hprint : printedEndpoint json s (.deliver d) = some d.data := if_pos hend
              obtain ⟨path, hdata, hfits⟩ := hsafe.writes d.data hprint
              rw [deliver_endpoint hend hdata hfits]
              exact fun _ => ⟨path, rfl, hfits⟩

end Steps

/-- A run is safe exactly where all that the server sends is harmless. -/
theorem safe_run_iff {J : Type} (json : CJson J) (isBool : J → Bool) (server : Server) (counter : Nat) (es : List Event)
    (hl : Legal (client json) (start server counter) es) :
    EveryStep (client json) (Safe json isBool) (start server counter) es ↔
      EveryStep (client json) (Harmless json isBool) (start server counter) es := by
  have hstart : Fitted (start server counter) := fun hgot => nomatch hgot
  apply everyStep_iff (I := Fitted) _ _ hstart hl
  · exact fun s e hfit he hharmless => hfit.next ((safe_iff he hfit).mpr hharmless)
  · exact fun s e hfit he => safe_iff he hfit

section Sample

/-- `{"content":[1]}` -/
def textlessContent : Bytes := text "\x7b\"content\":[1]\x7d"

/-- `{"content":1}` -/
def numberContent : Bytes := text "\x7b\"content\":1\x7d"

def sampleJson : CJson Node :=
  nodeJson [(textlessContent, .object [] [(contentKey, .array [.number 1])]),
    (numberContent, .object [] [(contentKey, .number 1)])]

def nodeIsBool : Node → Bool
  | .truth => true
  | _ => false

def endpointPacket (path : Bytes) : Packet := ⟨0, some endpointName, some path, none⟩

def connected : List Event :=
  [.deliver (endpointPacket (text "/m")), .deliver ⟨1, none, none, none⟩, .receive, .receive]

theorem connected_safe :
    EveryStep (client sampleJson) (Safe sampleJson nodeIsBool) (start sampleServer 1) connected := by
  rw [safe_run_iff sampleJson nodeIsBool sampleServer 1 connected (by decide)]
  exact ⟨Or.inr ⟨_, rfl, fun _ => ⟨_, rfl, by decide⟩⟩, Or.inl rfl, trivial, trivial, trivial⟩

def eventless : List Event := [.deliver ⟨0, none, none, none⟩]

def overlong : List Event := [.deliver (endpointPacket (List.replicate 128 97))]

/-- A first event without an event line crashes the client, a long endpoint runs over the URL,
a content item without its strings crashes the parser, and a content that is no array is taken
for an empty one. -/
theorem server_misleads :
    (Legal (client sampleJson) (start sampleServer 1) eventless ∧
      ¬EveryStep (client sampleJson) (Safe sampleJson nodeIsBool) (start sampleServer 1) eventless) ∧
    (Legal (client sampleJson) (start sampleServer 1) overlong ∧
      ¬EveryStep (client sampleJson) (Safe sampleJson nodeIsBool) (start sampleServer 1) overlong) ∧
    mcpToolResultParse sampleJson (some textlessContent) = none ∧
    mcpToolResultParse sampleJson (some numberContent) = some (some ⟨false, []⟩) := by
  refine ⟨⟨by decide, fun h => ?_⟩, ⟨by decide, fun h => ?_⟩, by decide, by decide⟩
  · exact absurd h.1.reads (by decide)
  · obtain ⟨path, hpath, hfits⟩ := h.1.writes (some (List.replicate 128 97)) rfl
    rw [← Option.some.inj hpath, UrlFits, urlText, List.length_append, List.length_replicate] at hfits
    exact absurd hfits (Nat.not_lt.mpr (Nat.le_add_left urlSize _))

end Sample

end OneSdk.McpSafety
