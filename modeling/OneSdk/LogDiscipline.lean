import OneSdk.LogPipeline

namespace OneSdk.LogDiscipline

open Mutexes Runs LogPipeline

/-- How much more often a piece locks `sync` than it unlocks it, in all that it leads to
but a call of `sdk_log_print`. -/
def gain (ready : Bool) : Op → Int
  | .lock .sync => 1
  | .unlock .sync => -1
  | .writeLog => if ready then -1 else 0
  | .countLines | .swapContents => -1
  | _ => 0

def gains (ready : Bool) (ops : List Op) : Int := (ops.map (gain ready)).sum

/-- What `sync` is for a thread when it is through with its pieces. -/
def surplus (s : Sys) (t : Thread) : Int := holding s.holders .sync t + gains s.ready (s.todo t)

/-- A call of `sdk_log_print` that goes on locks once and unlocks twice. -/
def loss (s : Sys) : Op → Int
  | .sdkLogPrint _ => if s.logs then 1 else 0
  | _ => 0

def lossOf (s : Sys) (u : Thread) : Event → Int
  | .step t => if t = u then (s.todo t).head?.elim 0 (loss s) else 0
  | _ => 0

variable {s : Sys} {t u : Thread} {op : Op} {ops : List Op} {e : Event} {ready : Bool}

theorem gains_cons : gains ready (op :: ops) = gain ready op + gains ready ops := rfl

theorem gains_append {more : List Op} : gains ready (ops ++ more) = gains ready ops + gains ready more := by
  rw [gains, gains, gains, List.map_append, List.sum_append]

theorem gains_logs (logs : List LogObj) : gains ready (logs.map .sdkLogPrint) = 0 := by
  induction logs with
  | nil => rfl
  | cons obj logs ih => rw [List.map_cons, gains_cons, ih]; rfl

theorem gains_save (fn : Option SaveFn) (lines : List LogObj) : gains ready (fn.elim [] (SaveFn.body lines)) = 0 := by
  rcases fn with _ | fn
  · rfl
  · cases fn with
    | logReport => rfl
    | application logs => exact gains_logs logs

theorem free_of_canStep {m : Mutex} (he : canStep s t (.lock m) = true) (hd : s.holders m ≠ some t) :
    s.holders m = none := by
  rw [canStep, Bool.or_eq_true, decide_eq_true_eq, decide_eq_true_eq] at he
  exact he.resolve_right hd

theorem exec_frame : (exec s t op).1.todo = s.todo ∧ (exec s t op).1.ready = s.ready := by
  cases op with
  | lock m =>
      rw [exec]
      split <;> exact ⟨rfl, rfl⟩
  | commonLogReport lines =>
      rw [exec]
      dsimp only
      split <;> exact ⟨rfl, rfl⟩
  | _ => exact ⟨rfl, rfl⟩

theorem exec_own (he : canStep s t op = true) (hd : OpDisciplined s t op) :
    holding (exec s t op).1.holders .sync t + gains s.ready (exec s t op).2 =
      holding s.holders .sync t + gain s.ready op - loss s op := by
  cases op with
  | sdkLogPrint obj =>
      rw [exec, loss]
      cases hlogs : s.logs with
      | false => simp [gains, gain]
      | true =>
          have hready : s.ready = true := by
            rw [Sys.logs, Bool.and_eq_true] at hlogs
            exact hlogs.1
          simp [gains, gain, sBackgroundChannelSend, hready, Int.sub_eq_add_neg]
  | lock m =>
      have hfree := free_of_canStep he hd
      rw [exec, if_neg hd]
      dsimp only
      rw [holding_acquire hfree]
      cases m <;> simp [gains, gain, loss]
  | unlock m =>
      rw [exec]
      dsimp only
      rw [holding_release hd]
      cases m with
      | sync => simp [gains, gain, loss, Int.sub_eq_add_neg]
      | handlerLock => simp [gains, gain, loss]
  | writeLog =>
      rw [exec]
      dsimp only
      cases s.ready with
      | false => simp [gains, gain, loss]
      | true => cases s.finished <;> simp [gains, gain, loss]
  | countLines =>
      rw [exec]
      dsimp only
      split <;> simp [gains, gain, loss]
  | swapContents => simp [exec, gains, gain, loss]
  | onLogSave lines =>
      rw [exec]
      dsimp only
      rw [gains_save]
      simp [gain, loss]
  | commonLogReport lines =>
      rw [exec]
      dsimp only
      split <;> simp [gains, gain, loss]
  | pushBack obj | setReport logSwitch lowestLevel => simp [exec, gains, gain, loss]

theorem exec_other (hne : t ≠ u) (he : canStep s t op = true) (hd : OpDisciplined s t op) (m : Mutex) :
    holding (exec s t op).1.holders m u = holding s.holders m u := by
  have hno (n : Mutex) : ¬(n = m ∧ t = u) := fun hand => hne hand.2
  cases op with
  | lock n =>
      have hfree := free_of_canStep he hd
      rw [exec, if_neg hd]
      dsimp only
      rw [holding_acquire hfree, if_neg (hno n), Int.add_zero]
  | unlock n =>
      rw [exec]
      dsimp only
      rw [holding_release hd, if_neg (hno n), Int.sub_zero]
  | commonLogReport lines =>
      rw [exec]
      dsimp only
      split <;> rfl
  | _ => rfl

/-- A disciplined step keeps the account of each thread, but for the calls of
`sdk_log_print` that go on. -/
theorem surplus_next (he : enabled s e) (hd : Disciplined s e) (u : Thread) :
    surplus (next s e) u = surplus s u - lossOf s u e := by
  have hstart {t : Thread} {ops : List Op} (hdone : s.todo t = []) (hgain : gains s.ready ops = 0) :
      surplus (setTodo s t ops) u = surplus s u - 0 := by
    rw [surplus, surplus, setTodo, Int.sub_zero]
    dsimp only
    by_cases htu : u = t
    · rw [htu, Function.update_self, hgain, hdone]
      rfl
    · rw [Function.update_of_ne htu]
  cases e with
  | log t obj => exact hstart he rfl
  | config t received parsed logSwitch lowestLevel => exact hstart he rfl
  | step t =>
      cases htodo : s.todo t with
      | nil =>
          rw [enabled, htodo] at he
          exact absurd he Bool.false_ne_true
      | cons op ops =>
          rw [enabled, htodo] at he
          have hop : OpDisciplined s t op := hd op (by rw [htodo]; rfl)
          have he : canStep s t op = true := he
          obtain ⟨hframe, hready⟩ : (exec s t op).1.todo = s.todo ∧ (exec s t op).1.ready = s.ready := exec_frame
          rw [next, lossOf, htodo]
          dsimp only
          rw [surplus, surplus, setTodo, hready, hframe]
          dsimp only
          by_cases htu : t = u
          · subst htu
            have hown := exec_own he hop
            rw [Function.update_self, gains_append, htodo, gains_cons, if_pos rfl, List.head?_cons, Option.elim_some]
            omega
          · rw [Function.update_of_ne (Ne.symm htu), exec_other htu he hop, if_neg htu, Int.sub_zero]
  | setFinished finished => exact (Int.sub_zero _).symm
  | setOnLogSaveFn fn =>
      rw [next]
      split <;> exact (Int.sub_zero _).symm

theorem lossOf_nonneg : 0 ≤ lossOf s u e := by
  cases e with
  | step t =>
      rw [lossOf]
      split
      · cases (s.todo t).head? with
        | none => exact Int.le_refl 0
        | some op =>
            cases op with
            | sdkLogPrint obj =>
                rw [Option.elim_some, loss]
                split <;> decide
            | _ => exact Int.le_refl 0
      · exact Int.le_refl 0
  | _ => exact Int.le_refl 0

theorem surplus_final (hl : Legal pipeline s es) (hd : EveryStep pipeline Disciplined s es) (u : Thread) :
    surplus (final pipeline s es) u ≤ surplus s u := by
  induction es generalizing s with
  | nil => exact Int.le_refl _
  | cons e es ih =>
      have hstep := surplus_next hl.1 hd.1 u
      have hloss := lossOf_nonneg (s := s) (u := u) (e := e)
      have hrest := ih hl.2 hd.2
      have hsame : surplus (pipeline.next s e) u = surplus (next s e) u := rfl
      rw [final]
      omega

/-- A run that keeps the discipline until all its calls are through has no call that goes on. -/
theorem silent_of_disciplined (hs : ∀ u, surplus s u ≤ 0) {es : List Event} (hl : Legal pipeline s es)
    (hdone : ∀ t, (final pipeline s es).todo t = []) (hd : EveryStep pipeline Disciplined s es) :
    EveryStep pipeline Silent s es := by
  induction es generalizing s with
  | nil => trivial
  | cons e es ih =>
      have hstep (u : Thread) : surplus (pipeline.next s e) u = surplus s u - lossOf s u e := surplus_next hl.1 hd.1 u
      refine ⟨?_, ih ?_ hl.2 hdone hd.2⟩
      · cases e with
        | step t =>
            intro obj hhead
            by_contra hlogs
            have hlogs : s.logs = true := by simpa using hlogs
            have hloss : lossOf s t (.step t) = 1 := by
              rw [lossOf, if_pos rfl, hhead, Option.elim_some, loss, hlogs]
              rfl
            have hfinal := surplus_final hl.2 hd.2 t
            have hend : surplus (final pipeline (pipeline.next s (.step t)) es) t =
                holding (final pipeline (pipeline.next s (.step t)) es).holders .sync t + 0 := by
              have hnone : (final pipeline (pipeline.next s (.step t)) es).todo t = [] := hdone t
              rw [surplus, hnone]
              rfl
            have hpos := holding_nonneg (h := (final pipeline (pipeline.next s (.step t)) es).holders)
              (m := .sync) (t := t)
            have hfirst := hs t
            have hsecond := hstep t
            omega
        | _ => trivial
      · intro u
        have hloss := lossOf_nonneg (s := s) (u := u) (e := e)
        have hfirst := hs u
        have hsecond := hstep u
        omega

/-- Where a thread can be when no call of `sdk_log_print` goes on, and whether it holds
the lock of the handler there. -/
inductive Outside : Bool → List Op → Prop
  | idle : Outside false []
  | printing (obj) : Outside false [.sdkLogPrint obj]
  | received (a b logSwitch lowest) : Outside false (sLogRevLogReportConfig a b logSwitch lowest)
  | entering (obj logSwitch lowest) :
      Outside false [.lock .handlerLock, .sdkLogPrint obj, .setReport logSwitch lowest, .unlock .handlerLock]
  | entered (obj logSwitch lowest) :
      Outside true [.sdkLogPrint obj, .setReport logSwitch lowest, .unlock .handlerLock]
  | parsed (logSwitch lowest) : Outside true [.setReport logSwitch lowest, .unlock .handlerLock]
  | leaving : Outside true [.unlock .handlerLock]

theorem Outside.of_eq {b c : Bool} {ops : List Op} (h : Outside c ops) (hb : b = c) : Outside b ops := hb ▸ h

def holdsHandler (s : Sys) (t : Thread) : Bool := s.holders .handlerLock = some t

def Quiet (s : Sys) : Prop := ∀ t, Outside (holdsHandler s t) (s.todo t)

theorem quiet_of_idle (h : Idle s) : Quiet s := by
  intro t
  have hfree : holdsHandler s t = false := by simp [holdsHandler, h.free]
  rw [hfree, h.done t]
  exact .idle

theorem holdsHandler_eq : holdsHandler s t = true ↔ s.holders .handlerLock = some t := by
  rw [holdsHandler, decide_eq_true_eq]

theorem Quiet.disciplined (h : Quiet s) (e : Event) : Disciplined s e := by
  cases e with
  | step t =>
      intro op hop
      have ht := h t
      obtain ⟨ops, hops⟩ : ∃ ops, s.todo t = ops := ⟨_, rfl⟩
      obtain ⟨b, hb⟩ : ∃ b, holdsHandler s t = b := ⟨_, rfl⟩
      rw [hops] at hop
      rw [hops, hb] at ht
      cases ht with
      | idle => exact absurd hop (by simp)
      | entering obj logSwitch lowest =>
          obtain rfl : Op.lock .handlerLock = op := Option.some.inj hop
          intro hheld
          rw [holdsHandler_eq.mpr hheld] at hb
          exact Bool.noConfusion hb
      | leaving =>
          obtain rfl : Op.unlock .handlerLock = op := Option.some.inj hop
          exact holdsHandler_eq.mp hb
      | printing obj | received a b logSwitch lowest | entered obj logSwitch lowest | parsed logSwitch lowest =>
          rw [← Option.some.inj hop]
          trivial
  | _ => trivial

theorem holdsHandler_other (hne : t ≠ u) (he : canStep s t op = true) (hd : OpDisciplined s t op) :
    holdsHandler (exec s t op).1 u = holdsHandler s u := by
  have hsame := exec_other hne he hd .handlerLock
  rw [holding, holding] at hsame
  rw [Bool.eq_iff_iff, holdsHandler_eq, holdsHandler_eq]
  split at hsame <;> split at hsame <;> simp_all

theorem Outside.exec {op : Op} {rest : List Op} (h : Outside (holdsHandler s t) (op :: rest))
    (hd : OpDisciplined s t op)
    (hquiet : ∀ obj, op = .sdkLogPrint obj → s.logs = false) :
    Outside (holdsHandler (exec s t op).1 t) ((exec s t op).2 ++ rest) := by
  obtain ⟨b, hb⟩ : ∃ b, holdsHandler s t = b := ⟨_, rfl⟩
  rw [hb] at h
  cases h with
  | printing obj =>
      rw [LogPipeline.exec, hquiet obj rfl]
      exact Outside.idle.of_eq hb
  | received a b logSwitch lowest =>
      rw [LogPipeline.exec, hquiet _ rfl]
      exact (Outside.entering _ _ _).of_eq hb
  | entering obj logSwitch lowest =>
      rw [LogPipeline.exec, if_neg hd]
      have hheld : holdsHandler { s with holders := acquire s.holders .handlerLock t } t = true := by
        simp [holdsHandler, acquire]
      exact (Outside.entered _ _ _).of_eq hheld
  | entered obj logSwitch lowest =>
      rw [LogPipeline.exec, hquiet obj rfl]
      exact (Outside.parsed _ _).of_eq hb
  | parsed logSwitch lowest => exact Outside.leaving.of_eq hb
  | leaving =>
      have hfree : holdsHandler { s with holders := release s.holders .handlerLock } t = false := by
        simp [holdsHandler, release]
      exact Outside.idle.of_eq hfree

theorem Quiet.step (h : Quiet s) (he : enabled s (.step t)) (hs : Silent s (.step t)) : Quiet (next s (.step t)) := by
  have hd := h.disciplined (.step t)
  have ht := h t
  obtain ⟨ops, hops⟩ : ∃ ops, s.todo t = ops := ⟨_, rfl⟩
  rw [enabled, hops] at he
  rw [hops] at ht
  cases ops with
  | nil => exact absurd he Bool.false_ne_true
  | cons op rest =>
      have hop : OpDisciplined s t op := hd op (by rw [hops]; rfl)
      have he : canStep s t op = true := he
      intro u
      have hnext : next s (.step t) = setTodo (exec s t op).1 t ((exec s t op).2 ++ rest) := by rw [next, hops]
      rw [hnext]
      by_cases htu : t = u
      · subst htu
        have hquiet : ∀ obj, op = .sdkLogPrint obj → s.logs = false := by
          intro obj hobj
          apply hs obj
          rw [hops, hobj]
          rfl
        rw [setTodo]
        dsimp only
        rw [Function.update_self]
        exact ht.exec hop hquiet
      · have hother := h u
        rw [← holdsHandler_other htu he hop, ← exec_frame.1] at hother
        rw [setTodo]
        dsimp only
        rw [Function.update_of_ne (Ne.symm htu)]
        exact hother

theorem Quiet.next (h : Quiet s) (he : enabled s e) (hs : Silent s e) : Quiet (next s e) := by
  have hstart {t : Thread} {ops : List Op} (hdone : s.todo t = []) (hops : Outside false ops) :
      Quiet (setTodo s t ops) := by
    intro u
    by_cases htu : t = u
    · subst htu
      have hfree : holdsHandler s t = false := by
        have ht := h t
        rw [hdone] at ht
        generalize holdsHandler s t = b at ht
        cases ht
        rfl
      rw [setTodo]
      dsimp only
      rw [Function.update_self]
      exact hops.of_eq hfree
    · rw [setTodo]
      dsimp only
      rw [Function.update_of_ne (Ne.symm htu)]
      exact h u
  cases e with
  | log t obj => exact hstart he (.printing obj)
  | config t received parsed logSwitch lowestLevel => exact hstart he (.received _ _ _ _)
  | step t => exact h.step he hs
  | setFinished finished => exact h
  | setOnLogSaveFn fn =>
      rw [LogPipeline.next]
      split
      · exact h
      · exact h

/-- Whatever the threads do, with any pending lines, flag and callback, the discipline is
kept while no call of `sdk_log_print` goes on, and by no run that takes such a call to its end. -/
theorem disciplined_iff_silent (s : Sys) (hs : Idle s) (es : List Event) (hl : Legal pipeline s es) :
    (EveryStep pipeline Silent s es → EveryStep pipeline Disciplined s es) ∧
      ((∀ t, (final pipeline s es).todo t = []) →
        EveryStep pipeline Disciplined s es → EveryStep pipeline Silent s es) := by
  constructor
  · intro hsilent
    have hkeep (s : Sys) (e : Event) (h : Quiet s) (he : pipeline.enabled s e) (hc : Silent s e) :
        Quiet (pipeline.next s e) := h.next he hc
    exact everyStep_of_invariant hkeep (fun s e h _ _ => h.disciplined e) (quiet_of_idle hs) hl hsilent
  · intro hdone hd
    have hzero (u : Thread) : surplus s u ≤ 0 := by
      rw [surplus, holding_free (hs.free .sync), hs.done u]
      exact Int.le_refl 0
    exact silent_of_disciplined hzero hl hdone hd

instance (s : Sys) (es : List Event) : Decidable (Legal pipeline s es) :=
  @decidableEveryStep _ _ pipeline enabled decidableEnabled s es

def started (finished : Bool) : Sys where
  ready := true
  finished := finished
  onLogSaveFn := some .logReport
  pendingLogLines := []
  logReportSwitch := true
  lowestLevel := debugLevel
  reported := []
  holders := fun _ => none
  todo := fun _ => []

theorem idle_started (finished : Bool) : Idle (started finished) := ⟨fun _ => rfl, fun _ => rfl⟩

def configRun : List Event := .config 0 [] [] true 3 :: List.replicate 5 (.step 0)

theorem disciplined_configRun : EveryStep pipeline Disciplined (started true) configRun :=
  (disciplined_iff_silent (started true) (idle_started true) configRun (by decide)).1
    ⟨trivial, fun _ _ => rfl, fun _ _ => rfl, fun _ _ => rfl, fun _ _ => rfl, fun _ _ => rfl, trivial⟩

def logRun : List Event := .log 0 ⟨debugLevel, [97]⟩ :: List.replicate 12 (.step 0)

/-- One log call unlocks `sync` a second time; and the second log call of the handler
comes to lock the handler's lock, which its thread holds. -/
theorem discipline_fails :
    (Legal pipeline (started false) logRun ∧ ¬EveryStep pipeline Disciplined (started false) logRun) ∧
      ∃ es, Legal pipeline (started false) es ∧ ¬Disciplined (final pipeline (started false) es) (.step 0) ∧
        ((final pipeline (started false) es).todo 0).head? = some (.lock .handlerLock) :=
  ⟨by decide, .config 0 [] [] true 3 :: List.replicate 21 (.step 0), by decide⟩

end OneSdk.LogDiscipline
