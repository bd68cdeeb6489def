import OneSdk.Runs
import OneSdk.RealtimeWs
import OneSdk.RtFragments

namespace OneSdk.RtRecovery

open CString Runs StreamParse RtReceive RtFragments RealtimeWs

/-- The connection with what `onesdk_rt.c` keeps of its data. -/
structure Channel (n : Nat) where
  client : Client n
  rt : RtContext

/-- A reason of lws. Where the server begins a message with a fragment and ends it within,
`head` is its text. -/
structure Arrival where
  reason : Reason
  head : Option Bytes
  deriving DecidableEq

variable {J : Type} (json : CJson J) (alloc : Nat → Bool) {n : Nat}

def callBack (rt : RtContext) : Output → RtContext
  | .callback message => (rtRecvCb json alloc rt message).next.getD rt
  | _ => rt

def next (s : Channel n) (a : Arrival) : Channel n :=
  let (_, client, outputs) := aigwLwsCallback s.client a.reason
  ⟨client, outputs.foldl (callBack json alloc) s.rt⟩

def Permitted (s : Channel n) (a : Arrival) : Prop :=
  match a.reason with
  | .clientReceive data =>
      (s.rt.rtJsonBuf.length + data.length) * 2 < sizeValues ∧
        ∀ text, a.head = some text → text <+: data ∧ ∃ root, Object json text root
  | _ => a.head = none

def machine : Machine (Channel n) Arrival where
  enabled := Permitted json
  next := next json alloc

def start (config : AigwWsConfig) (cb : EventCb) : Channel n :=
  ⟨⟨{ aigwWsInit config with callback := true }, 0⟩, newContext (some cb)⟩

/-- The buffers with which the loop is entered again and again for a fragment, and their
values. -/
def taken (rt : RtContext) (data : Bytes) : List (Bytes × J) :=
  takes json.parseWithLengthOpts ((rt.rtJsonBuf ++ data).length + 1) (rt.rtJsonBuf ++ data)

/-- A message in front of a fragment is parsed where it starts, with nothing but white
space before it. Each value that is parsed has its callback, and nothing of the message or
of what was before it stays in the buffer. -/
structure Delivered (rt : RtContext) (data text : Bytes) (root : J) : Prop where
  parsed : ∃ white, Blank white ∧ (white ++ data, root) ∈ taken json rt data
  called : (rtRecvCb json alloc rt data).out = (taken json rt data).map (fun t => passCall json rt.rtEventCb t.2)
  gone : ∃ c, (rtRecvCb json alloc rt data).next = some c ∧ c.rtJsonBuf.length + text.length ≤ data.length

def Recovers (s : Channel n) (a : Arrival) : Prop :=
  ∀ data text root, a.reason = .clientReceive data → a.head = some text → Object json text root →
    .callback data ∈ (aigwLwsCallback s.client a.reason).2.2 ∧ Delivered json alloc s.rt data text root

/-- What is left in the buffer when a message begins is white space. -/
def CleanBefore (s : Channel n) (a : Arrival) : Prop := a.head.isSome = true → Blank s.rt.rtJsonBuf

structure Locates : Prop where
  first : ParsesFirst json
  advances : ∀ b root n, json.parseWithLengthOpts b = some (root, n) → 0 < n ∧ n ≤ b.length

/-- A value does not depend on what follows it. A text that may begin with a byte order
mark is left out: cJSON skips the mark only when there are two more bytes. -/
def Decided : Prop :=
  ∀ x y root n, x.head? ≠ some 239 → json.parseWithLengthOpts (x ++ y) = some (root, n) → n ≤ x.length →
    json.parseWithLengthOpts x = some (root, n)

variable {json} {alloc} {rt : RtContext} {data text : Bytes} {root : J}

theorem recv_taken (halloc : ∀ n, alloc n = true) (h : Sound rt)
    (hlen : (rt.rtJsonBuf.length + data.length) * 2 < sizeValues) :
    (rtRecvCb json alloc rt data).out = (taken json rt data).map (fun t => passCall json rt.rtEventCb t.2) := by
  rw [(rtRecvCb_drain json halloc h hlen).1, drain_takes, List.map_map]
  rfl

theorem recv_total (data : Bytes) (hjson : Locates json) (halloc : ∀ n, alloc n = true) (h : Sound rt)
    (hlen : (rt.rtJsonBuf.length + data.length) * 2 < sizeValues) :
    ∃ c, (rtRecvCb json alloc rt data).next = some c ∧ Sound c := by
  obtain ⟨-, hnext, hsound⟩ := rtRecvCb_drain json halloc h hlen
  obtain ⟨rest, hrest⟩ := drain_total hjson.advances (Nat.lt_succ_self (rt.rtJsonBuf ++ data).length)
  rw [hrest] at hnext
  obtain ⟨c, hc, -⟩ := Option.map_eq_some_iff.mp hnext
  exact ⟨c, hc, (hsound c hc).1⟩

theorem delivered_of_blank (hjson : Locates json) (halloc : ∀ n, alloc n = true) (h : Sound rt)
    (hlen : (rt.rtJsonBuf.length + data.length) * 2 < sizeValues) (hblank : Blank rt.rtJsonBuf)
    (hobject : Object json text root) (htext : text <+: data) : Delivered json alloc rt data text root := by
  obtain ⟨c, hc, -⟩ := recv_total data hjson halloc h hlen
  have hnext := (rtRecvCb_drain json halloc h hlen).2.1
  have hcalled : (rtRecvCb json alloc rt data).out = _ := recv_taken halloc h hlen
  obtain ⟨rest, rfl⟩ := htext
  have hframe := message_frame hjson.first ⟨rt.rtJsonBuf, text, root, hblank, hobject⟩
  have hbuffer : rt.rtJsonBuf ++ (text ++ rest) = rt.rtJsonBuf ++ text ++ rest := (List.append_assoc ..).symm
  refine ⟨⟨rt.rtJsonBuf, hblank, ?_⟩, hcalled, c, hc, ?_⟩
  · have hle : (rt.rtJsonBuf ++ text).length ≤ (rt.rtJsonBuf ++ text ++ rest).length := by
      exact (List.prefix_append _ rest).length_le
    rw [taken, hbuffer, takes, hframe.whole]
    dsimp only
    rw [if_pos hle]
    exact List.mem_cons_self
  · rw [hc, hbuffer, drain_frame hframe] at hnext
    have hrest := drain_length hnext.symm
    rw [List.length_append]
    omega

theorem undelivered (hjson : Locates json) (hdecided : Decided json)
    (hnone : json.parseWithLengthOpts rt.rtJsonBuf = none)
    (hmark : rt.rtJsonBuf.head? ≠ some 239) (hblank : ¬Blank rt.rtJsonBuf) :
    ¬Delivered json alloc rt data text root := by
  rintro ⟨⟨white, hwhite, hmem⟩, -, -⟩
  rw [taken, takes] at hmem
  cases hparse : json.parseWithLengthOpts (rt.rtJsonBuf ++ data) with
  | none =>
      rw [hparse] at hmem
      exact List.not_mem_nil hmem
  | some r =>
      obtain ⟨v, k⟩ := r
      have hbeyond : rt.rtJsonBuf.length < k := by
        by_contra hk
        have hown := hdecided _ _ _ _ hmark hparse (Nat.not_lt.mp hk)
        cases hnone.symm.trans hown
      rw [hparse] at hmem
      have hwithin := (hjson.advances _ _ _ hparse).2
      dsimp only at hmem
      rw [if_pos hwithin] at hmem
      rcases List.mem_cons.mp hmem with hfirst | hlater
      · have hsame := List.append_cancel_right (congrArg Prod.fst hfirst)
        exact hblank (hsame ▸ hwhite)
      · have hlength := takes_length hlater
        dsimp only at hlength
        rw [List.length_append] at hwithin
        rw [List.length_drop, List.length_append, List.length_append] at hlength
        omega

section Steps

variable {s : Channel n} {a : Arrival}

theorem callback_kept (c : Client n) (reason : Reason) :
    (aigwLwsCallback c reason).2.1.ctx.callback = c.ctx.callback := by
  cases reason with
  | clientConnectionError conn =>
      rw [aigwLwsCallback]
      dsimp only
      split <;> rfl
  | clientWriteable m =>
      rw [aigwLwsCallback]
      split
      · rfl
      · dsimp only
        split
        · rfl
        · split <;> rfl
  | timer =>
      rw [aigwLwsCallback]
      split <;> rfl
  | _ => rfl

theorem wakeWriter_quiet (ring : SendQueue.Fifo Bytes n) (rt : RtContext) :
    (wakeWriter ring).foldl (callBack json alloc) rt = rt := by
  rw [wakeWriter]
  split <;> rfl

/-- Nothing but data reaches the buffer: no reason empties it. -/
theorem rt_kept (h : ∀ data, a.reason ≠ .clientReceive data) : (next json alloc s a).rt = s.rt := by
  change ((aigwLwsCallback s.client a.reason).2.2.foldl (callBack json alloc) s.rt) = s.rt
  cases hreason : a.reason with
  | clientReceive data => exact absurd hreason (h data)
  | clientConnectionError conn =>
      rw [aigwLwsCallback]
      dsimp only
      split <;> rfl
  | clientWriteable m =>
      rw [aigwLwsCallback]
      split
      · rfl
      · dsimp only
        split
        · exact wakeWriter_quiet _ _
        · split
          · rfl
          · exact wakeWriter_quiet _ _
  | timer =>
      rw [aigwLwsCallback]
      split
      · rw [List.foldl_append]
        split <;> exact wakeWriter_quiet _ _
      · rfl
  | clientEstablished => rfl
  | clientClosed => rfl
  | closed => rfl
  | other => rfl

theorem received_output (hset : s.client.ctx.callback = true) (data : Bytes) :
    (aigwLwsCallback s.client (.clientReceive data)).2.2 = [.callback data] := by
  rw [aigwLwsCallback]
  exact if_pos hset

def Ready (s : Channel n) : Prop := s.client.ctx.callback = true ∧ Sound s.rt

theorem next_ready (hjson : Locates json) (halloc : ∀ n, alloc n = true) (h : Ready s) (ha : Permitted json s a) :
    Ready (next json alloc s a) := by
  refine ⟨(callback_kept s.client a.reason).trans h.1, ?_⟩
  cases hreason : a.reason with
  | clientReceive data =>
      rw [Permitted, hreason] at ha
      obtain ⟨c, hc, hsound⟩ := recv_total data hjson halloc h.2 ha.1
      change Sound ((aigwLwsCallback s.client a.reason).2.2.foldl (callBack json alloc) s.rt)
      rw [hreason, received_output h.1]
      change Sound ((rtRecvCb json alloc s.rt data).next.getD s.rt)
      rw [hc]
      exact hsound
  | _ =>
      rw [rt_kept (by simp [hreason])]
      exact h.2

theorem recovers_of_cleanBefore (hjson : Locates json) (halloc : ∀ n, alloc n = true) (h : Ready s)
    (ha : Permitted json s a) (hc : CleanBefore s a) : Recovers json alloc s a := by
  intro data text root hreason hhead hobject
  rw [Permitted, hreason] at ha
  obtain ⟨htext, -⟩ := ha.2 text hhead
  refine ⟨?_, delivered_of_blank hjson halloc h.2 ha.1 (hc (by rw [hhead]; rfl)) hobject htext⟩
  rw [hreason, received_output h.1]
  exact List.mem_singleton_self _

end Steps

/-- In a run in which every message begins behind white space, every message that a
fragment begins with and holds is delivered. -/
theorem run_recovers (hjson : Locates json) (halloc : ∀ n, alloc n = true) (config : AigwWsConfig) (cb : EventCb)
    {as : List Arrival} (hl : Legal (machine json alloc) (start config cb : Channel n) as)
    (hc : EveryStep (machine json alloc) CleanBefore (start config cb : Channel n) as) :
    EveryStep (machine json alloc) (Recovers json alloc) (start config cb : Channel n) as :=
  everyStep_of_invariant (M := machine json alloc) (I := Ready) (C := CleanBefore)
    (fun _ _ h ha _ => next_ready hjson halloc h ha)
    (fun _ _ h ha hc => recovers_of_cleanBefore hjson halloc h ha hc) ⟨rfl, .inl ⟨rfl, rfl⟩⟩ hl hc

section CutOff

theorem length_pos_of_head {text : Bytes} (h : text.head? = some 123) : 0 < text.length := by
  cases text with
  | nil => cases h
  | cons b rest => exact Nat.succ_pos _

theorem onlyJson_locates {text : Bytes} (type : Bytes) (h : text.head? = some 123) : Locates (onlyJson text type) where
  first := onlyJson_parsesFirst type h
  advances b root k hparse := by
    have hpos := length_pos_of_head h
    rw [onlyJson] at hparse
    dsimp only at hparse
    split at hparse
    next hpre =>
      obtain rfl := congrArg Prod.snd (Option.some.inj hparse)
      have hle := hpre.length_le
      have hlength := congrArg List.length (List.takeWhile_append_dropWhile (p := isspace) (l := b))
      rw [List.length_append] at hlength
      dsimp only
      omega
    next => cases hparse

theorem onlyJson_decided {text : Bytes} (type : Bytes) (h : text.head? = some 123) : Decided (onlyJson text type) := by
  intro x y root k _ hparse hk
  have hpos := length_pos_of_head h
  rw [onlyJson] at hparse ⊢
  dsimp only at hparse ⊢
  split at hparse
  next hpre =>
    have hend : ((x ++ y).takeWhile isspace).length + text.length = k := congrArg Prod.snd (Option.some.inj hparse)
    have hspaces : ¬∀ b ∈ x, isspace b = true := by
      intro hall
      rw [List.takeWhile_append_of_pos hall, List.length_append] at hend
      omega
    rw [spaces_within hspaces] at hparse hend
    have hdrop : (x ++ y).dropWhile isspace = x.dropWhile isspace ++ y := by
      rw [List.dropWhile_append, if_neg]
      rw [List.isEmpty_iff, List.dropWhile_eq_nil_iff]
      exact hspaces
    rw [hdrop] at hpre
    have hlength := congrArg List.length (List.takeWhile_append_dropWhile (p := isspace) (l := x))
    rw [List.length_append] at hlength
    rw [if_pos (List.prefix_of_prefix_length_le hpre (List.prefix_append _ _) (by omega))]
    exact hparse
  next => cases hparse

def doneJson : CJson (Option Bytes) := onlyJson doneText responseDone

def allAlloc (_ : Nat) : Bool := true

def noPing : AigwWsConfig := ⟨false, 0⟩

def channel : Channel ringCount := start noPing allCallbacks

theorem doneText_object : Object doneJson doneText none := ⟨by decide, rfl⟩

def cutOff : List Arrival :=
  [⟨.clientEstablished, none⟩, ⟨.clientReceive [123], none⟩, ⟨.clientClosed, none⟩, ⟨.clientEstablished, none⟩,
    ⟨.clientReceive doneText, some doneText⟩]

theorem cutOff_silences : Legal (machine doneJson allAlloc) channel cutOff ∧
    ¬EveryStep (machine doneJson allAlloc) (Recovers doneJson allAlloc) channel cutOff := by
  refine ⟨⟨rfl, ⟨by decide, nofun⟩, rfl, rfl, ⟨by decide, ?_⟩, trivial⟩, ?_⟩
  · rintro _ ⟨⟩
    exact ⟨List.prefix_refl _, none, doneText_object⟩
  · rintro ⟨-, -, -, -, hlast, -⟩
    have hdelivered := (hlast doneText doneText none rfl rfl doneText_object).2
    refine undelivered (onlyJson_locates _ rfl) (onlyJson_decided _ rfl) ?_ ?_ ?_ hdelivered
    · decide +kernel
    · decide +kernel
    · decide +kernel

def silence : List Arrival :=
  [⟨.clientEstablished, none⟩, ⟨.clientReceive doneText, some doneText⟩, ⟨.clientReceive [10], none⟩,
    ⟨.clientClosed, none⟩, ⟨.clientEstablished, none⟩, ⟨.clientReceive doneText, some doneText⟩]

theorem silence_recovers :
    EveryStep (machine doneJson allAlloc) (Recovers doneJson allAlloc) channel silence := by
  have hlegal : Legal (machine doneJson allAlloc) channel silence := by
    refine ⟨rfl, ⟨by decide, ?_⟩, ⟨by decide, nofun⟩, rfl, rfl, ⟨by decide, ?_⟩, trivial⟩
    · rintro _ ⟨⟩
      exact ⟨List.prefix_refl _, none, doneText_object⟩
    · rintro _ ⟨⟩
      exact ⟨List.prefix_refl _, none, doneText_object⟩
  refine run_recovers (onlyJson_locates _ rfl) (fun _ => rfl) noPing allCallbacks hlegal ?_
  exact ⟨nofun, fun _ => by decide +kernel, nofun, nofun, nofun, fun _ => by decide +kernel, trivial⟩

end CutOff

end OneSdk.RtRecovery
