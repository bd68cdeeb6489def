import OneSdk.RealtimeSend

namespace OneSdk.RtReconnect

open Runs CString RealtimeWs

/-- The contexts of a process by their numbers, and the counter that is not part of them.
The source has no `failures` and `allFailures`: the `CLIENT_CONNECTION_ERROR` callbacks of
a context since it was last established, nothing before it was, and those of all contexts
since any of them was. -/
structure Process (n : Nat) where
  contexts : Nat → RealtimeSend.Sys n
  reconnectTimes : Nat
  failures : Nat → Option Nat
  allFailures : Nat

structure Turn where
  context : Nat
  event : RealtimeSend.Event

variable {n : Nat}

/-- The case of `LWS_CALLBACK_CLIENT_CONNECTION_ERROR`, with the attempts that it makes. -/
def clientConnectionError (c : Client n) (conn : Option Pointer) : Client n × List (Option Pointer) :=
  let ctx := { c.ctx with connected := false }
  if c.reconnectTimes < maxReconnectTimes then
    ({ ctx := (aigwWsConnect ctx conn).2, reconnectTimes := c.reconnectTimes + 1 }, [conn])
  else ({ c with ctx := ctx }, [])

theorem aigwLwsCallback_connectionError (c : Client n) (conn : Option Pointer) :
    (aigwLwsCallback c (.clientConnectionError conn)).2.1 = (clientConnectionError c conn).1 := by
  rw [aigwLwsCallback, clientConnectionError]
  dsimp only
  split <;> rfl

def seenBy (s : Process n) (i : Nat) : RealtimeSend.Sys n :=
  { s.contexts i with client := { (s.contexts i).client with reconnectTimes := s.reconnectTimes } }

def count (failures : Option Nat) : RealtimeSend.Event → Option Nat
  | .callback .clientEstablished => some 0
  | .callback (.clientConnectionError _) => failures.map (· + 1)
  | _ => failures

def countAll (failures : Nat) : RealtimeSend.Event → Nat
  | .callback .clientEstablished => 0
  | .callback (.clientConnectionError _) => failures + 1
  | _ => failures

def next (s : Process n) (t : Turn) : Process n :=
  let c := RealtimeSend.next (seenBy s t.context) t.event
  { contexts := Function.update s.contexts t.context c
    reconnectTimes := c.client.reconnectTimes
    failures := Function.update s.failures t.context (count (s.failures t.context) t.event)
    allFailures := countAll s.allFailures t.event }

def machine : Machine (Process n) Turn where
  enabled := fun s t => RealtimeSend.AtItsPlace (s.contexts t.context) t.event
  next := next

def start (configs : Nat → AigwWsConfig) : Process n where
  contexts i := RealtimeSend.start (configs i)
  reconnectTimes := 0
  failures _ := none
  allFailures := 0

/-- Of its own failures a context answers the first ones with an attempt each. -/
def Independent (s : Process n) (t : Turn) : Prop :=
  ∀ conn k, t.event = .callback (.clientConnectionError conn) → s.failures t.context = some k →
    (clientConnectionError (seenBy s t.context).client conn).2.length = if k < maxReconnectTimes then 1 else 0

/-- At a failure of a context, all contexts together are as far from the limit as it is. -/
def Undisturbed (s : Process n) (t : Turn) : Prop :=
  ∀ conn k, t.event = .callback (.clientConnectionError conn) → s.failures t.context = some k →
    (s.allFailures < maxReconnectTimes ↔ k < maxReconnectTimes)

/-- The counter goes up to the limit with the failures of all contexts. -/
def Shared (s : Process n) : Prop := s.reconnectTimes = min maxReconnectTimes s.allFailures

section Counter

theorem callback_reconnectTimes (c : Client n) (reason : Reason) :
    (aigwLwsCallback c reason).2.1.reconnectTimes =
      match reason with
      | .clientEstablished => 0
      | .clientConnectionError _ =>
          if c.reconnectTimes < maxReconnectTimes then c.reconnectTimes + 1 else c.reconnectTimes
      | _ => c.reconnectTimes := by
  cases reason with
  | clientConnectionError conn =>
      rw [aigwLwsCallback_connectionError, clientConnectionError]
      dsimp only
      split <;> rfl
  | clientWriteable m =>
      rw [aigwLwsCallback]
      split
      · rfl
      · dsimp only
        split
        · rfl
        · split <;> rfl
  | timer =>
      rw [aigwLwsCallback]
      split <;> rfl
  | _ => rfl

theorem send_reconnectTimes (s : RealtimeSend.Sys n) {e : RealtimeSend.Event} (h : ∀ reason, e ≠ .callback reason) :
    (RealtimeSend.next s e).client.reconnectTimes = s.client.reconnectTimes := by
  cases e with
  | callback reason => exact absurd rfl (h reason)
  | request thread jsonStr conn => cases jsonStr <;> rfl
  | insert thread allocated =>
      rw [RealtimeSend.next]
      split
      · split <;> rfl
      · rfl
  | wake thread => rfl

variable {s : Process n} {t : Turn}

theorem shared_next (h : Shared s) (t : Turn) : Shared (next s t) := by
  obtain ⟨i, e⟩ := t
  rw [Shared] at h ⊢
  change (RealtimeSend.next (seenBy s i) e).client.reconnectTimes = min maxReconnectTimes (countAll s.allFailures e)
  by_cases hcallback : ∃ reason, e = .callback reason
  · obtain ⟨reason, rfl⟩ := hcallback
    change (aigwLwsCallback (seenBy s i).client reason).2.1.reconnectTimes = _
    have hseen : (seenBy s i).client.reconnectTimes = s.reconnectTimes := rfl
    rw [callback_reconnectTimes, hseen, h]
    cases reason with
    | clientConnectionError conn =>
        dsimp only [countAll]
        split <;> omega
    | _ => rfl
  · rw [send_reconnectTimes _ (fun reason he => hcallback ⟨reason, he⟩)]
    change s.reconnectTimes = _
    rw [h]
    cases e with
    | callback reason => exact absurd ⟨reason, rfl⟩ hcallback
    | _ => rfl

theorem attempts_length (h : Shared s) (i : Nat) (conn : Option Pointer) :
    (clientConnectionError (seenBy s i).client conn).2.length = if s.allFailures < maxReconnectTimes then 1 else 0 := by
  have hseen : (seenBy s i).client.reconnectTimes = s.reconnectTimes := rfl
  have hlimit : min maxReconnectTimes s.allFailures < maxReconnectTimes ↔ s.allFailures < maxReconnectTimes := by omega
  rw [clientConnectionError, hseen, h]
  simp only [hlimit]
  split <;> rfl

theorem independent_iff_undisturbed (h : Shared s) : Independent s t ↔ Undisturbed s t := by
  refine forall_congr' fun conn => forall_congr' fun k => imp_congr_right fun _ => imp_congr_right fun _ => ?_
  rw [attempts_length h]
  by_cases hall : s.allFailures < maxReconnectTimes <;> by_cases hown : k < maxReconnectTimes <;> simp [hall, hown]

end Counter

/-- In a run of any number of contexts each reconnects by itself exactly where, at each of
its failures, all contexts together have failed often enough just when it has. -/
theorem reconnects_iff (configs : Nat → AigwWsConfig) {ts : List Turn}
    (hl : Legal machine (start configs : Process n) ts) :
    EveryStep machine Independent (start configs : Process n) ts ↔
      EveryStep machine Undisturbed (start configs : Process n) ts := by
  refine everyStep_iff (I := Shared) (fun s t h _ _ => shared_next h t) (fun s t h _ => ?_) ?_ hl
  · exact independent_iff_undisturbed h
  · exact (Nat.min_zero _).symm

theorem count_matches {s : Process n} {i k : Nat} {e : RealtimeSend.Event}
    (hs : ∀ k, s.failures i = some k → k = s.allFailures) (hk : count (s.failures i) e = some k) :
    k = countAll s.allFailures e := by
  cases e with
  | callback reason =>
      cases reason with
      | clientEstablished => exact (Option.some.inj hk).symm
      | clientConnectionError conn =>
          obtain ⟨k₀, hk₀, rfl⟩ := Option.map_eq_some_iff.mp hk
          exact congrArg (· + 1) (hs k₀ hk₀)
      | _ => exact hs k hk
  | _ => exact hs k hk

theorem alone_undisturbed (i : Nat) (configs : Nat → AigwWsConfig) {ts : List Turn} (hone : ∀ t ∈ ts, t.context = i) :
    EveryStep machine Undisturbed (start configs : Process n) ts := by
  have hrun : ∀ {s : Process n}, (∀ k, s.failures i = some k → k = s.allFailures) →
      EveryStep machine Undisturbed s ts := by
    induction ts with
    | nil => exact fun _ => trivial
    | cons t ts ih =>
        intro s hs
        obtain ⟨ht, hts⟩ := List.forall_mem_cons.mp hone
        refine ⟨?_, ih hts ?_⟩
        · intro conn k _ hk
          rw [hs k (ht ▸ hk)]
        · intro k hk
          change Function.update s.failures t.context (count (s.failures t.context) t.event) i = some k at hk
          change k = countAll s.allFailures t.event
          rw [ht, Function.update_self] at hk
          exact count_matches hs hk
  exact hrun nofun

section TwoContexts

def quiet (_ : Nat) : AigwWsConfig := ⟨false, 0⟩

def fails (i : Nat) : Turn := ⟨i, .callback (.clientConnectionError none)⟩

def established (i : Nat) : Turn := ⟨i, .callback .clientEstablished⟩

/-- One context uses the attempts up before the other one fails for the first time. -/
def usedUp : List Turn := [established 0, established 1, fails 1, fails 1, fails 1, fails 0]

theorem usedUp_disturbs : Legal machine (start quiet : Process ringCount) usedUp ∧
    ¬EveryStep machine Independent (start quiet : Process ringCount) usedUp := by
  refine ⟨⟨trivial, trivial, trivial, trivial, trivial, trivial, trivial⟩, ?_⟩
  rintro ⟨-, -, -, -, -, hlast, -⟩
  exact absurd (hlast none 0 rfl rfl) (by decide)

def inTurn : List Turn :=
  [established 0, fails 0, fails 0, fails 0, fails 0, established 1, fails 1, established 0, fails 0]

theorem inTurn_independent : EveryStep machine Independent (start quiet : Process ringCount) inTurn := by
  have hlegal : Legal machine (start quiet : Process ringCount) inTurn :=
    ⟨trivial, trivial, trivial, trivial, trivial, trivial, trivial, trivial, trivial, trivial⟩
  have hat : ∀ {s : Process ringCount} {i k₀ : Nat}, s.failures i = some k₀ →
      (s.allFailures < maxReconnectTimes ↔ k₀ < maxReconnectTimes) → Undisturbed s (fails i) := by
    rintro s i k₀ hk₀ hiff conn k - hk
    obtain rfl := Option.some.inj (hk₀.symm.trans hk)
    exact hiff
  refine (reconnects_iff quiet hlegal).mpr ?_
  exact ⟨nofun, hat rfl Iff.rfl, hat rfl Iff.rfl, hat rfl Iff.rfl, hat rfl Iff.rfl, nofun, hat rfl Iff.rfl, nofun,
    hat rfl Iff.rfl, trivial⟩

end TwoContexts

end OneSdk.RtReconnect
