import OneSdk.CString
import OneSdk.Mutexes
import OneSdk.Runs

namespace OneSdk.LogPipeline

open Mutexes Runs

abbrev Thread := Nat

inductive Mutex
  | sync
  | handlerLock
  deriving DecidableEq

structure LogObj where
  level : Nat
  content : Bytes
  deriving DecidableEq

def debugLevel : Nat := 5

/-- The function that `on_log_save_fn` points to: that of the log handler, or one of the
application, which may log but knows neither mutex. -/
inductive SaveFn
  | logReport
  | application (logs : List LogObj)
  deriving DecidableEq

/-- What a thread has yet to do, piece by piece between two accesses to shared data. -/
inductive Op
  | sdkLogPrint (obj : LogObj)
  | lock (m : Mutex)
  | unlock (m : Mutex)
  | pushBack (obj : LogObj)
  | writeLog
  | countLines
  | swapContents
  | onLogSave (lines : List LogObj)
  | commonLogReport (lines : List LogObj)
  | setReport (logSwitch : Bool) (lowestLevel : Nat)
  deriving DecidableEq

structure Sys where
  ready : Bool
  finished : Bool
  onLogSaveFn : Option SaveFn
  pendingLogLines : List LogObj
  logReportSwitch : Bool
  lowestLevel : Nat
  reported : List (List LogObj)
  holders : Holders Mutex Thread
  todo : Thread → List Op

def sBackgroundChannelSend (obj : LogObj) : List Op := [.lock .sync, .pushBack obj, .writeLog, .unlock .sync]

def sLogReportOnLogSaveFn (lines : List LogObj) : List Op :=
  [.lock .handlerLock, .commonLogReport lines, .unlock .handlerLock]

/-- The two texts are those of its LOGD calls, the second made under the lock. -/
def sLogRevLogReportConfig (received parsed : Bytes) (logSwitch : Bool) (lowestLevel : Nat) : List Op :=
  [.sdkLogPrint ⟨debugLevel, received⟩, .lock .handlerLock, .sdkLogPrint ⟨debugLevel, parsed⟩,
    .setReport logSwitch lowestLevel, .unlock .handlerLock]

def SaveFn.body (lines : List LogObj) : SaveFn → List Op
  | .logReport => sLogReportOnLogSaveFn lines
  | .application logs => logs.map .sdkLogPrint

def Sys.logs (s : Sys) : Bool := s.ready && !s.finished

def reportable (s : Sys) (lines : List LogObj) : List LogObj :=
  if s.logReportSwitch then lines.filter (fun obj => obj.level ≤ s.lowestLevel) else []

def exec (s : Sys) (t : Thread) : Op → Sys × List Op
  | .sdkLogPrint obj => (s, if s.logs then sBackgroundChannelSend obj else [])
  | .lock m =>
      -- on a mutex that it holds itself the thread waits for ever
      if s.holders m = some t then (s, [.lock m]) else ({ s with holders := acquire s.holders m t }, [])
  | .unlock m => ({ s with holders := release s.holders m }, [])
  | .pushBack obj => ({ s with pendingLogLines := s.pendingLogLines ++ [obj] }, [])
  | .writeLog => (s, if !s.ready then [] else if s.finished then [.unlock .sync] else [.countLines])
  | .countLines => (s, if s.pendingLogLines.length = 0 then [.unlock .sync] else [.swapContents])
  | .swapContents => ({ s with pendingLogLines := [] }, [.unlock .sync, .onLogSave s.pendingLogLines])
  | .onLogSave lines => (s, s.onLogSaveFn.elim [] (SaveFn.body lines))
  | .commonLogReport lines =>
      (if reportable s lines = [] then s else { s with reported := s.reported ++ [reportable s lines] }, [])
  | .setReport logSwitch lowestLevel => ({ s with logReportSwitch := logSwitch, lowestLevel := lowestLevel }, [])

def setTodo (s : Sys) (t : Thread) (ops : List Op) : Sys := { s with todo := Function.update s.todo t ops }

inductive Event
  | log (t : Thread) (obj : LogObj)
  | config (t : Thread) (received parsed : Bytes) (logSwitch : Bool) (lowestLevel : Nat)
  | step (t : Thread)
  | setFinished (finished : Bool)
  | setOnLogSaveFn (fn : Option SaveFn)

def next (s : Sys) : Event → Sys
  | .log t obj => setTodo s t [.sdkLogPrint obj]
  | .config t received parsed logSwitch lowestLevel =>
      setTodo s t (sLogRevLogReportConfig received parsed logSwitch lowestLevel)
  | .step t =>
      match s.todo t with
      | [] => s
      | op :: ops => setTodo (exec s t op).1 t ((exec s t op).2 ++ ops)
  | .setFinished finished => { s with finished := finished }
  | .setOnLogSaveFn fn => if s.ready then { s with onLogSaveFn := fn } else s

def canStep (s : Sys) (t : Thread) : Op → Bool
  | .lock m => s.holders m = none || s.holders m = some t
  | _ => true

def enabled (s : Sys) : Event → Prop
  | .log t _ | .config t _ _ _ _ => s.todo t = []
  | .step t => (s.todo t).head?.any (canStep s t) = true
  | .setFinished _ | .setOnLogSaveFn _ => True

def pipeline : Machine Sys Event := ⟨enabled, next⟩

/-- What a piece must respect: a mutex is locked by a thread that does not hold it and
unlocked by the one that does, and the pending lines are left to the holder of `sync`. -/
def OpDisciplined (s : Sys) (t : Thread) : Op → Prop
  | .lock m => s.holders m ≠ some t
  | .unlock m => s.holders m = some t
  | .pushBack _ | .countLines | .swapContents => s.holders .sync = some t
  | _ => True

def Disciplined (s : Sys) : Event → Prop
  | .step t => ∀ op ∈ (s.todo t).head?, OpDisciplined s t op
  | _ => True

/-- No call of `sdk_log_print` gets past its first test. -/
def Silent (s : Sys) : Event → Prop
  | .step t => ∀ obj, (s.todo t).head? = some (.sdkLogPrint obj) → s.logs = false
  | _ => True

structure Idle (s : Sys) : Prop where
  free : ∀ m, s.holders m = none
  done : ∀ t, s.todo t = []

instance decidableOp (s : Sys) (t : Thread) : (op : Op) → Decidable (OpDisciplined s t op)
  | .lock m => inferInstanceAs (Decidable (s.holders m ≠ some t))
  | .unlock m => inferInstanceAs (Decidable (s.holders m = some t))
  | .pushBack _ | .countLines | .swapContents => inferInstanceAs (Decidable (s.holders .sync = some t))
  | .sdkLogPrint _ | .writeLog | .onLogSave _ | .commonLogReport _ | .setReport _ _ => .isTrue trivial

instance decidableDisciplined (s : Sys) : (e : Event) → Decidable (Disciplined s e)
  | .step t => inferInstanceAs (Decidable (∀ op ∈ (s.todo t).head?, OpDisciplined s t op))
  | .log .. | .config .. | .setFinished _ | .setOnLogSaveFn _ => .isTrue trivial

instance decidableEnabled (s : Sys) : (e : Event) → Decidable (enabled s e)
  | .log t _ | .config t _ _ _ _ => inferInstanceAs (Decidable (s.todo t = []))
  | .step t => inferInstanceAs (Decidable ((s.todo t).head?.any (canStep s t) = true))
  | .setFinished _ | .setOnLogSaveFn _ => .isTrue trivial

end OneSdk.LogPipeline
