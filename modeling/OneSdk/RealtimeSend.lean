import OneSdk.Runs
import OneSdk.RealtimeWs

namespace OneSdk.RealtimeSend

open ErrorCode Runs CString SendQueue RealtimeWs

abbrev Thread := Nat

inductive Place where
  | outside
  | allocating (jsonStr : Bytes)
  | waking
  deriving DecidableEq

/-- The context with the threads that send, what lws has been asked for on the connection,
and the messages that have been accepted and that have gone out whole. -/
structure Sys (n : Nat) where
  client : Client n
  place : Thread → Place
  writable : Bool
  timer : Bool
  accepted : List Bytes
  written : List Bytes

inductive Event where
  | callback (reason : Reason)
  | request (thread : Thread) (jsonStr : Option Bytes) (conn : Option Pointer)
  | insert (thread : Thread) (allocated : Bool)
  | wake (thread : Thread)
  deriving DecidableEq

def keepsWritable : Reason → Bool
  | .clientWriteable _ | .clientConnectionError _ | .clientClosed | .closed => false
  | _ => true

def keepsTimer : Reason → Bool
  | .timer | .clientConnectionError _ | .clientClosed | .closed => false
  | _ => true

def wholeMessage : Output → Option Bytes
  | .write message m => if (message.length : Int) ≤ m then some message else none
  | _ => none

variable {n : Nat}

def withCtx (s : Sys n) (ctx : AigwWsCtx n) : Sys n := { s with client := { s.client with ctx := ctx } }

/-- From its insertion on a call is bound to return `VOLC_OK`. -/
def next (s : Sys n) : Event → Sys n
  | .callback reason =>
      let (_, client, outputs) := aigwLwsCallback s.client reason
      { s with
        client := client
        writable := outputs.contains .callbackOnWritable || keepsWritable reason && s.writable
        timer := outputs.contains .setTimerUsecs || keepsTimer reason && s.timer
        written := s.written ++ outputs.filterMap wholeMessage }
  | .request _ none _ => s
  | .request thread (some jsonStr) conn =>
      { withCtx s (reconnect s.client.ctx conn) with
        place := Function.update s.place thread (.allocating jsonStr) }
  | .insert thread allocated =>
      match s.place thread with
      | .allocating jsonStr =>
          if allocated then
            { withCtx s (insertMessage s.client.ctx jsonStr) with
              place := Function.update s.place thread .waking
              accepted := s.accepted ++ [jsonStr] }
          else { s with place := Function.update s.place thread .outside }
      | _ => s
  | .wake thread =>
      { s with
        place := Function.update s.place thread .outside
        writable := (wakeAfterSend s.client.ctx).2.contains .callbackOnWritable || s.writable }

def AtItsPlace (s : Sys n) : Event → Prop
  | .callback _ => True
  | .request thread _ _ => s.place thread = .outside
  | .insert thread _ => ∃ jsonStr, s.place thread = .allocating jsonStr
  | .wake thread => s.place thread = .waking

def machine : Machine (Sys n) Event where
  enabled := AtItsPlace
  next := next

def start (config : AigwWsConfig) : Sys n where
  client := ⟨aigwWsInit config, 0⟩
  place _ := .outside
  writable := false
  timer := false
  accepted := []
  written := []

def waiting (s : Sys n) : List Bytes := s.client.ctx.sendRing.items

/-- Each accepted message has gone out, or waits in the ring behind those accepted before
it. While there is a connection the timer keeps asking for the ring to be written, and the
messages that wait go out when they are asked for. -/
structure Promised (s : Sys n) : Prop where
  kept : s.accepted = s.written ++ waiting s
  awaited : s.client.ctx.connected = true → s.timer = true
  deliverable : s.client.ctx.connected = true →
    (final machine s ((waiting s).map (fun msg => .callback (.clientWriteable msg.length)))).written = s.accepted

/-- An accepted message finds room, and a write that the callback takes for a success is one. -/
def Sound (s : Sys n) : Event → Prop
  | .insert _ true => (waiting s).length < n
  | .callback (.clientWriteable m) => s.client.ctx.connected = true →
      ∀ msg, s.client.ctx.sendRing.element = some msg → toInt msg.length ≤ m → (msg.length : Int) ≤ m
  | _ => True

section Refinement

def ledgerOf (s : Sys n) : Ledger Bytes n := ⟨s.client.ctx.sendRing, s.accepted, s.written⟩

def opOf (s : Sys n) : Event → Op Bytes
  | .callback (.clientWriteable m) =>
      if s.client.ctx.connected = false then .idle
      else
        match s.client.ctx.sendRing.element with
        | none => .pop true
        | some msg => if m < toInt msg.length then .idle else .pop ((msg.length : Int) ≤ m)
  | .insert thread true =>
      match s.place thread with
      | .allocating jsonStr => .push jsonStr
      | _ => .idle
  | _ => .idle

variable {s : Sys n} {e : Event}

theorem wakeWriter_messages (ring : Fifo Bytes n) : (wakeWriter ring).filterMap wholeMessage = [] := by
  rw [wakeWriter]
  split <;> rfl

theorem callback_ledger (s : Sys n) (reason : Reason) :
    ledgerOf (next s (.callback reason)) =
      ⟨(aigwLwsCallback s.client reason).2.1.ctx.sendRing, s.accepted,
        s.written ++ (aigwLwsCallback s.client reason).2.2.filterMap wholeMessage⟩ := rfl

theorem callback_idle {reason : Reason}
    (hring : (aigwLwsCallback s.client reason).2.1.ctx.sendRing = s.client.ctx.sendRing)
    (hout : (aigwLwsCallback s.client reason).2.2.filterMap wholeMessage = []) :
    ledgerOf (next s (.callback reason)) = ledgerOf s := by
  rw [callback_ledger, hring, hout, List.append_nil]
  rfl

theorem writeable_refines (s : Sys n) (m : Int) :
    ledgerOf (next s (.callback (.clientWriteable m))) =
      SendQueue.next (ledgerOf s) (opOf s (.callback (.clientWriteable m))) := by
  rw [callback_ledger, aigwLwsCallback, opOf]
  by_cases hconn : s.client.ctx.connected = false
  · rw [if_pos hconn, if_pos hconn, List.filterMap_nil, List.append_nil]
    rfl
  · rw [if_neg hconn, if_neg hconn]
    dsimp only
    cases helement : s.client.ctx.sendRing.element with
    | none =>
        dsimp only
        rw [wakeWriter_messages]
        simp [SendQueue.next, ledgerOf, helement]
    | some msg =>
        dsimp only
        by_cases hm : m < toInt msg.length
        · have hlen := toInt_le msg.length
          have hpart : ¬(msg.length : Int) ≤ m := by omega
          rw [if_pos hm, if_pos hm, List.filterMap_cons, wholeMessage, if_neg hpart]
          dsimp only
          rw [List.filterMap_nil, List.append_nil]
          rfl
        · rw [if_neg hm, if_neg hm, List.filterMap_cons, wakeWriter_messages, wholeMessage]
          by_cases hwhole : (msg.length : Int) ≤ m
          · simp [SendQueue.next, ledgerOf, hwhole, helement]
          · simp [SendQueue.next, ledgerOf, hwhole]

theorem reconnect_ring (ctx : AigwWsCtx n) (conn : Option Pointer) : (reconnect ctx conn).sendRing = ctx.sendRing := by
  rw [reconnect]
  split <;> rfl

/-- The system is a ledger in whatever order callbacks and calls come. -/
theorem callback_refines (s : Sys n) (reason : Reason) :
    ledgerOf (next s (.callback reason)) = SendQueue.next (ledgerOf s) (opOf s (.callback reason)) := by
  cases reason with
  | clientWriteable m => exact writeable_refines s m
  | clientConnectionError conn =>
      apply callback_idle
      · rw [aigwLwsCallback]
        dsimp only
        split <;> rfl
      · rw [aigwLwsCallback]
        dsimp only
        split <;> rfl
  | clientReceive data =>
      apply callback_idle rfl
      rw [aigwLwsCallback]
      dsimp only
      split <;> rfl
  | timer =>
      apply callback_idle
      · rw [aigwLwsCallback]
        split <;> rfl
      · rw [aigwLwsCallback]
        split
        · simp only [List.filterMap_append, List.filterMap_cons, wholeMessage, wakeWriter_messages]
          split <;> rfl
        · rfl
  | clientEstablished => exact callback_idle rfl rfl
  | clientClosed => exact callback_idle rfl rfl
  | closed => exact callback_idle rfl rfl
  | other => exact callback_idle rfl rfl

theorem next_refines (s : Sys n) (e : Event) : ledgerOf (next s e) = SendQueue.next (ledgerOf s) (opOf s e) := by
  cases e with
  | callback reason => exact callback_refines s reason
  | request thread jsonStr conn =>
      cases jsonStr with
      | none => rfl
      | some jsonStr =>
          change ledgerOf (withCtx s (reconnect s.client.ctx conn)) = ledgerOf s
          rw [ledgerOf, withCtx, reconnect_ring]
          rfl
  | insert thread allocated =>
      rw [next]
      cases hplace : s.place thread with
      | allocating jsonStr =>
          cases allocated with
          | true =>
              rw [opOf, hplace]
              rfl
          | false => rfl
      | outside => cases allocated <;> simp only [opOf, hplace] <;> rfl
      | waking => cases allocated <;> simp only [opOf, hplace] <;> rfl
  | wake thread => rfl

theorem careful_iff (he : AtItsPlace s e) : Careful (ledgerOf s) (opOf s e) ↔ Sound s e := by
  cases e with
  | callback reason =>
      cases reason with
      | clientWriteable m =>
          rw [opOf, Sound]
          by_cases hconn : s.client.ctx.connected = false
          · rw [if_pos hconn]
            exact iff_of_true trivial (fun h => nomatch h.symm.trans hconn)
          · rw [if_neg hconn]
            have hup : s.client.ctx.connected = true := eq_true_of_ne_false hconn
            cases helement : s.client.ctx.sendRing.element with
            | none => exact iff_of_true (fun _ => rfl) (fun _ _ h => nomatch h)
            | some msg =>
                have hitems : s.client.ctx.sendRing.items ≠ [] := by
                  intro hnil
                  rw [Fifo.element, hnil] at helement
                  exact nomatch helement
                dsimp only
                by_cases hm : m < toInt msg.length
                · rw [if_pos hm]
                  refine iff_of_true trivial (fun _ msg' hmsg' htest => ?_)
                  obtain rfl := Option.some.inj hmsg'
                  omega
                · rw [if_neg hm]
                  constructor
                  · intro h _ msg' hmsg' _
                    obtain rfl := Option.some.inj hmsg'
                    exact of_decide_eq_true (h hitems)
                  · intro h _
                    exact decide_eq_true (h hup msg rfl (Int.not_lt.mp hm))
      | _ => exact Iff.rfl
  | request thread jsonStr conn => exact Iff.rfl
  | insert thread allocated =>
      obtain ⟨jsonStr, hplace⟩ := he
      cases allocated with
      | true =>
          rw [opOf, hplace]
          exact Iff.rfl
      | false => exact Iff.rfl
  | wake thread => exact Iff.rfl

theorem sound_of_short (h : ∀ msg, s.client.ctx.sendRing.element = some msg → msg.length < 2 ^ 31) (m : Int) :
    Sound s (.callback (.clientWriteable m)) := by
  intro _ msg hmsg htest
  rw [toInt_short (h msg hmsg)] at htest
  exact htest

end Refinement

section Delivery

variable {s : Sys n} {e : Event}

theorem reconnect_connected (ctx : AigwWsCtx n) (conn : Option Pointer) :
    (reconnect ctx conn).connected = ctx.connected := by
  rw [reconnect]
  split <;> rfl

theorem callback_keepsTimer (h : s.client.ctx.connected = true → s.timer = true) (reason : Reason)
    (hnext : (next s (.callback reason)).client.ctx.connected = true) : (next s (.callback reason)).timer = true := by
  cases reason with
  | clientEstablished => rfl
  | clientConnectionError conn =>
      rw [next, aigwLwsCallback] at hnext
      dsimp only at hnext
      split at hnext <;> exact nomatch hnext
  | clientClosed => exact nomatch hnext
  | closed => exact nomatch hnext
  | clientReceive data =>
      have htimer := h hnext
      simp only [next, keepsTimer, htimer, Bool.and_self, Bool.or_true]
  | clientWriteable m =>
      have hup : s.client.ctx.connected = true := by
        rw [next, aigwLwsCallback] at hnext
        dsimp only at hnext
        split at hnext
        · exact hnext
        · split at hnext
          · exact hnext
          · split at hnext <;> exact hnext
      simp only [next, keepsTimer, h hup, Bool.and_self, Bool.or_true]
  | timer =>
      by_cases hup : s.client.ctx.connected = true
      · simp [next, aigwLwsCallback, hup]
      · rw [next, aigwLwsCallback, if_neg hup] at hnext
        exact absurd hnext hup
  | other =>
      have htimer := h hnext
      simp only [next, keepsTimer, htimer, Bool.and_self, Bool.or_true]

theorem timer_kept (h : s.client.ctx.connected = true → s.timer = true) (e : Event) :
    (next s e).client.ctx.connected = true → (next s e).timer = true := by
  intro hnext
  cases e with
  | callback reason => exact callback_keepsTimer h reason hnext
  | request thread jsonStr conn =>
      cases jsonStr with
      | none => exact h hnext
      | some jsonStr => exact h ((reconnect_connected s.client.ctx conn).symm.trans hnext)
  | insert thread allocated =>
      rw [next] at hnext ⊢
      cases hplace : s.place thread with
      | allocating jsonStr =>
          rw [hplace] at hnext
          cases allocated with
          | true => exact h hnext
          | false => exact h hnext
      | outside =>
          rw [hplace] at hnext
          exact h hnext
      | waking =>
          rw [hplace] at hnext
          exact h hnext
  | wake thread => exact h hnext

theorem write_whole {msg : Bytes} {rest : List Bytes} (hup : s.client.ctx.connected = true)
    (hwait : waiting s = msg :: rest) :
    (next s (.callback (.clientWriteable msg.length))).client.ctx.connected = true ∧
      waiting (next s (.callback (.clientWriteable msg.length))) = rest ∧
      (next s (.callback (.clientWriteable msg.length))).written = s.written ++ [msg] := by
  have helement : s.client.ctx.sendRing.element = some msg := by
    rw [waiting] at hwait
    rw [Fifo.element, hwait, List.head?_cons]
  have htest : ¬(msg.length : Int) < toInt msg.length := Int.not_lt.mpr (toInt_le msg.length)
  have hcall : aigwLwsCallback s.client (.clientWriteable msg.length) =
      (0, { s.client with ctx := { s.client.ctx with sendRing := s.client.ctx.sendRing.consume } },
        .write msg msg.length :: wakeWriter s.client.ctx.sendRing.consume) := by
    rw [aigwLwsCallback, if_neg (by rw [hup]; decide), helement]
    dsimp only
    rw [if_neg htest]
  rw [next, hcall]
  refine ⟨hup, ?_, ?_⟩
  · exact congrArg List.tail hwait
  · dsimp only
    rw [List.filterMap_cons, wakeWriter_messages, wholeMessage, if_pos (Int.le_refl _)]

theorem writes_waiting {msgs : List Bytes} (hup : s.client.ctx.connected = true) (hwait : waiting s = msgs) :
    (final machine s (msgs.map (fun msg => .callback (.clientWriteable msg.length)))).written = s.written ++ msgs := by
  induction msgs generalizing s with
  | nil => exact (List.append_nil _).symm
  | cons msg rest ih =>
      obtain ⟨hup', hwait', hwritten⟩ := write_whole hup hwait
      rw [List.map_cons, final]
      refine (ih hup' hwait').trans ?_
      rw [hwritten, List.append_assoc, List.singleton_append]

theorem promised_iff (htimer : s.client.ctx.connected = true → s.timer = true) : Promised s ↔ Kept (ledgerOf s) := by
  constructor
  · exact fun h => h.kept
  · intro h
    exact ⟨h, htimer, fun hup => (writes_waiting hup rfl).trans h.symm⟩

/-- The promise to those who send is kept in exactly the runs in which no accepted message
finds the ring full and no partial write passes for a whole one. -/
theorem promised_always_iff (config : AigwWsConfig) {es : List Event} (hl : Legal machine (start config : Sys n) es) :
    Always machine Promised (start config : Sys n) es ↔ EveryStep machine Sound (start config : Sys n) es := by
  have hkeep (s : Sys n) (e : Event) (he : AtItsPlace s e) (h : Kept (ledgerOf s)) :
      Kept (ledgerOf (next s e)) ↔ Sound s e := by
    rw [next_refines, next_kept_iff h, careful_iff he]
  refine always_iff (I := fun s => Kept (ledgerOf s) ∧ (s.client.ctx.connected = true → s.timer = true))
    ?_ ?_ ?_ (And.intro (show Kept (ledgerOf (start config)) from rfl) (fun h => nomatch h)) hl
  · exact fun s e hs he hc => ⟨(hkeep s e he hs.1).mpr hc, timer_kept hs.2 e⟩
  · exact fun s hs => (promised_iff hs.2).mpr hs.1
  · exact fun s e hs he hp => (hkeep s e he hs.1).mp hp.kept

end Delivery

section FullRing

def quietConfig : AigwWsConfig := ⟨false, 0⟩

def send (jsonStr : Bytes) : List Event := [.request 0 (some jsonStr) none, .insert 0 true, .wake 0]

def tooMany : List Event := (List.replicate (ringCount + 1) (send [123, 125])).flatten

theorem tooMany_lost : ¬Always machine Promised (start quietConfig : Sys ringCount) tooMany := by
  intro h
  have hlength := congrArg List.length (always_final h).kept
  exact absurd hlength (by decide +kernel)

def secondTry : List Event := send [123, 125] ++ [.callback .clientEstablished, .callback (.clientWriteable (-1)),
  .callback .clientClosed, .callback .clientEstablished, .callback (.clientWriteable 2)]

theorem secondTry_promised : Always machine Promised (start quietConfig : Sys ringCount) secondTry := by
  have hlegal : Legal machine (start quietConfig : Sys ringCount) secondTry :=
    ⟨rfl, ⟨[123, 125], rfl⟩, rfl, trivial, trivial, trivial, trivial, trivial, trivial⟩
  refine (promised_always_iff quietConfig hlegal).mpr ?_
  have hroom : 0 < ringCount := by decide
  refine ⟨trivial, hroom, trivial, trivial, ?_, trivial, trivial, ?_, trivial⟩
  · intro _ msg hmsg htest
    cases hmsg
    exact absurd htest (by decide)
  · intro _ msg hmsg htest
    cases hmsg
    decide

end FullRing

end OneSdk.RealtimeSend
