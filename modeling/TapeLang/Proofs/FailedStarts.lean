import TapeLang.Proofs.Publication

/-! # Starts that fail

A start can fail because the text does not compile, because no thread is to be had, and because the
pause after each instruction would be longer than any duration. The first two leave the debugger
idle. The last one leaves it in the state of a run, without a run.
-/

namespace TapeLang

namespace Debugger

variable {config : DebugConfig} {τ α : Type} [Console τ] {change : α → τ → τ} {c : τ}
  {seen : Observed config.machine.width} {d d' : Debugger config τ} {state : RunState}
  {source : String} {refusal : Option String} {answer : Reply}

theorem readied_isActive (source : String) (program : Program) (d : Debugger config τ) :
    (d.readied source program).control.state.isActive = true := by
  simp only [readied, Control.fresh]
  split <;> rfl

theorem Started.idle_or_active (h : Started source refusal d answer d') :
    d'.control.state = .idle ∨ d'.control.state.isActive = true := by
  cases h with
  | active hactive => exact .inr hactive
  | uncompiled => exact .inl rfl
  | @overflowed program => exact .inr (readied_isActive source program d)
  | unthreaded => exact .inl rfl
  | @threaded program => exact .inr (readied_isActive source program d)

/-- Where pauses are too long, a start leaves the debugger idle only if it never came to the
pauses. -/
theorem Started.idle_iff_uncompiled {defect : Defect} (h : Started source refusal d answer d')
    (hthrottle : config.throttle = .error defect) :
    d'.control.state = .idle ↔
      d.control.state.isActive = false ∧ ∃ e, compile config.passes source = .error e := by
  have hnot {d' : Debugger config τ} (hactive : d'.control.state.isActive = true) :
      d'.control.state ≠ .idle := by
    intro hidle
    rw [hidle] at hactive
    cases hactive
  cases h with
  | active hactive => exact iff_of_false (hnot hactive) (by simp [hactive])
  | uncompiled hfree herror => exact iff_of_true rfl ⟨hfree, _, herror⟩
  | @overflowed program _ _ hcompile =>
    exact iff_of_false (hnot (readied_isActive source program d)) (by simp [hcompile])
  | unthreaded _ _ hok => cases hthrottle.symm.trans hok
  | threaded _ _ hok => cases hthrottle.symm.trans hok

/-- States of a run go with a run, unless no run can be started at all. -/
inductive Accounted (config : DebugConfig) :
    RunState → Option (DebugWorker config.machine.width) → Prop
  | free {state : RunState} : state.isActive = false → Accounted config state none
  | done {state : RunState} {pause : Duration} : config.throttle = .ok pause →
      state.isActive = false → Accounted config state (some .ended)
  | taken {state : RunState} {worker : DebugWorker config.machine.width} {pause : Duration} :
      config.throttle = .ok pause → state.isActive = true → worker ≠ .ended →
      Accounted config state (some worker)
  | abandoned {state : RunState} {defect : Defect} : config.throttle = .error defect →
      state.isActive = true → Accounted config state none

theorem Accounted.frame {worker : Option (DebugWorker config.machine.width)} {state' : RunState}
    (h : Accounted config state worker) (hstate : state'.isActive = state.isActive) :
    Accounted config state' worker := by
  cases h with
  | free hinactive => exact .free (hstate.trans hinactive)
  | done hthrottle hinactive => exact .done hthrottle (hstate.trans hinactive)
  | taken hthrottle hactive hworker => exact .taken hthrottle (hstate.trans hactive) hworker
  | abandoned hthrottle hactive => exact .abandoned hthrottle (hstate.trans hactive)

theorem Accounted.advance (h : Accounted config d.control.state d.worker) :
    Accounted config d.advance.2.control.state d.advance.2.worker := by
  obtain ⟨desk, c, _ | ⟨program, m, phase⟩ | _ | _⟩ := d
  · exact h
  · have hadvanced := advanced desk c program m phase
    generalize Debugger.advance ⟨desk, c, some (.live program m phase)⟩ = answer at hadvanced ⊢
    cases h with
    | taken hthrottle hactive hworker =>
      cases hadvanced with
      | stopped | halted | faulted => exact .done hthrottle rfl
      | @moved event m' c' =>
        obtain ⟨console, he⟩ := completeInstruction_eq desk program m.index event m' c'
        rw [he]
        refine .taken hthrottle (stateAfter_isActive hactive event) ?_
        rcases rest_cases (stateAfter desk event) desk.clock program m' with ⟨phase, hr⟩ | hr
        · simp [hr]
        · simp [hr]
      | _ => exact .taken hthrottle hactive (by simp)
  · exact h
  · exact h

theorem Accounted.started (h : Accounted config d.control.state d.worker)
    (hstarted : Started source refusal d answer d') :
    Accounted config d'.control.state d'.worker := by
  cases hstarted with
  | active => exact h
  | uncompiled hinactive => exact h.frame hinactive.symm
  | @overflowed program _ _ _ hthrottle =>
    exact .abandoned hthrottle (readied_isActive source program d)
  | unthreaded => exact .free rfl
  | @threaded program _ _ _ hthrottle =>
    exact .taken hthrottle (readied_isActive source program d) (by simp)

theorem Accounted.act (h : Accounted config d.control.state d.worker) (change : α → τ → τ)
    (act : Act α) :
    Accounted config (act.apply change d).control.state (act.apply change d).worker := by
  cases act with
  | start source refusal => exact h.started (Debugger.started source refusal d)
  | advance => exact h.advance
  | elapse nanoseconds => exact h
  | outside x => exact h
  | requestStop =>
    cases hw : d.worker with
    | none =>
      rw [Act.apply, requestStop_of_none hw]
      simp only [hw]
      exact .free rfl
    | some worker =>
      rw [Act.apply, requestStop_of_some (by simp [hw])]
      exact h
  | takeBack =>
    simp only [Act.apply, takeBack]
    split
    · exact h
    · exact .free rfl
  | call request =>
    have hactive := request.isActive_apply d
    obtain ⟨state, permit, pausing, breakpoints, he⟩ := request.apply_eq d
    rw [he] at hactive
    rw [Act.apply, he]
    exact h.frame hactive

theorem History.accounted (h : History change c seen d) :
    Accounted config d.control.state d.worker := by
  induction h with
  | new hnew =>
    rw [eq_new_of_allocate hnew]
    exact .free rfl
  | act act _ ih => exact ih.act change act

omit [Console τ] in
theorem Accounted.crashed_of_active {pause : Duration}
    (h : Accounted config d.control.state d.worker) (hactive : d.control.state.isActive = true)
    (hended : d.isAlive = false) (hthrottle : config.throttle = .ok pause) :
    d.worker = some .crashed := by
  obtain ⟨desk, c, worker⟩ := d
  cases h with
  | free hinactive => simp [hinactive] at hactive
  | done _ hinactive => simp [hinactive] at hactive
  | abandoned herror => simp [herror] at hthrottle
  | @taken worker _ _ _ hworker =>
    cases worker with
    | live => cases hended
    | ended => exact (hworker rfl).elim
    | crashed => rfl

omit [Console τ] in
theorem Accounted.active_of_crashed (h : Accounted config d.control.state d.worker)
    (hcrashed : d.worker = some .crashed) : d.control.state.isActive = true := by
  rw [hcrashed] at h
  cases h with
  | taken _ hactive => exact hactive

theorem Accounted.worker_eq_none {worker : Option (DebugWorker config.machine.width)}
    {defect : Defect} (h : Accounted config state worker)
    (hthrottle : config.throttle = .error defect) : worker = none := by
  cases h with
  | free => rfl
  | abandoned => rfl
  | done hok => simp [hok] at hthrottle
  | taken hok => simp [hok] at hthrottle

theorem start_ne_alreadyRunning (h : d.control.state.isActive = false) (source : String)
    (refusal : Option String) : (d.start source refusal).1 ≠ .refused .alreadyRunning := by
  intro hrefused
  have hstarted := Debugger.started source refusal d
  rw [hrefused] at hstarted
  generalize (d.start source refusal).2 = d' at hstarted
  cases hstarted with
  | active hactive => cases h.symm.trans hactive

end Debugger

/-- A start that fails while no run is under way leaves the debugger idle, unless a run has broken
down and was not stopped. Where pauses overflow, the start of a text that compiles leaves the state
of a run without a run. -/
theorem failed_start_leaves_idle {config : DebugConfig} {τ α : Type} [Console τ]
    {change : α → τ → τ} {c : τ} {seen : Debugger.Observed config.machine.width}
    {d d' : Debugger config τ} (h : Debugger.History change c seen d) (hended : d.isAlive = false)
    {source : String} {refusal : Option String} {answer : Reply}
    (hanswer : d.start source refusal = (answer, d')) (hfailed : answer ≠ .ok) :
    (∀ pause, config.throttle = .ok pause →
      (d.worker ≠ some .crashed → d'.control.state = .idle ∧ d'.isAlive = false ∧
        ∀ source' refusal', (d'.start source' refusal').1 ≠ .refused .alreadyRunning) ∧
      (d.worker = some .crashed → (d.control.state = .running ∨ d.control.state = .paused) ∧
        answer = .refused .alreadyRunning ∧ d' = d)) ∧
    ∀ defect, config.throttle = .error defect → d'.worker = none ∧
      (d'.control.state = .idle ↔ (d.control.state = .idle ∨ d.control.state = .stopped) ∧
        ∃ e, compile config.passes source = .error e) ∧
      (d'.control.state ≠ .idle →
        ∀ source' refusal', d'.start source' refusal' = (.refused .alreadyRunning, d')) := by
  have hstarted := Debugger.started source refusal d
  rw [hanswer] at hstarted
  have haccounted := h.accounted.started hstarted
  constructor
  · intro pause hthrottle
    constructor
    · intro hsound
      have hidle : d'.control.state = .idle ∧ d'.isAlive = false := by
        cases hstarted with
        | active hactive =>
          exact (hsound (h.accounted.crashed_of_active hactive hended hthrottle)).elim
        | uncompiled => exact ⟨rfl, hended⟩
        | overflowed _ _ herror => cases hthrottle.symm.trans herror
        | unthreaded => exact ⟨rfl, rfl⟩
        | threaded => exact (hfailed rfl).elim
      refine ⟨hidle.1, hidle.2, Debugger.start_ne_alreadyRunning ?_⟩
      rw [hidle.1]
      rfl
    · intro hcrashed
      have hactive := h.accounted.active_of_crashed hcrashed
      rw [Debugger.start_of_active hactive] at hanswer
      cases hanswer
      exact ⟨RunState.isActive_iff.mp hactive, rfl, rfl⟩
  · intro defect hthrottle
    refine ⟨haccounted.worker_eq_none hthrottle, ?_, ?_⟩
    · rw [← RunState.isActive_eq_false_iff]
      exact hstarted.idle_iff_uncompiled hthrottle
    · intro hstate source' refusal'
      exact Debugger.start_of_active (hstarted.idle_or_active.resolve_left hstate) source' refusal'

theorem failed_start_leaves_idle_twice :
    ∃ seen, ∃ d : Debugger { machine := { tapeSize := 2 } } Buffered,
      Debugger.History (fun c _ => c) {} seen d ∧ d.worker.isSome ∧ d.control.state = .stopped ∧
      (d.start "[").2.control.state = .idle ∧
      (d.start "+" (some "no thread")).2.control.state = .idle ∧
      ((d.start "+" (some "no thread")).2.start "+").1 ≠ .refused .alreadyRunning := by
  let new : Debugger { machine := { tapeSize := 2 } } Buffered := .new 0 {}
  let d := new.after (fun c _ => c) [.start "" none, .advance, .advance]
  have hnew : Debugger.History (fun c _ => c) ({} : Buffered) {} new := .new rfl
  have hover : Debugger.History (fun c _ => c) {} _ d := hnew.after _
  have huncompiled := failed_start_leaves_idle hover (by decide +kernel)
    (Prod.ext rfl rfl : d.start "[" none = (_, _)) (by decide +kernel)
  have hunthreaded := failed_start_leaves_idle hover (by decide +kernel)
    (Prod.ext rfl rfl : d.start "+" (some "no thread") = (_, _)) (by decide +kernel)
  obtain ⟨hidle, -⟩ := (huncompiled.1 _ rfl).1 (fun hcrashed => by cases hcrashed)
  obtain ⟨hidle', -, hready⟩ := (hunthreaded.1 _ rfl).1 (fun hcrashed => by cases hcrashed)
  exact ⟨_, d, hover, by decide +kernel, by decide +kernel, hidle, hidle', hready "+" none⟩

/-- Pauses of 2^64 seconds, which is longer than any duration. -/
def overflowingPauses : DebugConfig :=
  { machine := { tapeSize := 4 }, stepDelay := ⟨18446744073709551615 * 1000000000⟩, sessions := 2
    sessionDelay := ⟨1000000000⟩ }

/-- A debugger whose run has broken down refuses a start, with no run under way. A new debugger
whose pauses overflow breaks down in its first start, and refuses the second. -/
theorem failed_start_leaves_running :
    (∃ seen, ∃ d : Debugger endlessPauses Buffered, Debugger.History (fun c _ => c) {} seen d ∧
      d.isAlive = false ∧ (d.start "").1 = .refused .alreadyRunning ∧
      (d.start "").2.control.state = .running ∧ (d.start "").2.isAlive = false ∧
      ((d.start "").2.start "").1 = .refused .alreadyRunning) ∧
    ∃ d : Debugger overflowingPauses Buffered, Debugger.History (fun c _ => c) {} {} d ∧
      d.worker = none ∧ d.control.state = .idle ∧
      (d.start "+").1 = .crashed .durationSumOverflow ∧
      (d.start "+").2.control.state = .running ∧ (d.start "+").2.worker = none ∧
      ((d.start "+").2.start "+").1 = .refused .alreadyRunning := by
  constructor
  · let new : Debugger endlessPauses Buffered := .new 0 {}
    have hnew : Debugger.History (fun c _ => c) ({} : Buffered) {} new := .new rfl
    refine ⟨_, _, hnew.after [.start "+" none, .advance, .advance], ?_⟩
    decide +kernel
  · refine ⟨.new 0 {}, .new rfl, rfl, rfl, ?_, ?_, ?_, ?_⟩
    all_goals decide +kernel

end TapeLang
