import TapeLang.Proofs.StateDiagram

/-! # The books of a debugger

Whatever is done to a debugger, once its run has settled the books are in order: the debugger says
that it is running or paused exactly while there is a run, it has no report of a run under way and
the right one of a run that is over, no permission for a step is left over, and breakpoints are as
they were last set.
-/

namespace TapeLang

namespace Debugger

variable {config : DebugConfig} {τ α : Type} [Console τ] {change : α → τ → τ} {c : τ}
  {seen : Observed config.machine.width} {d : Debugger config τ} {desk : Desk config}

/-- Breakpoints are on or off both for the present run and for those to come. -/
structure Pausing (enabled : Bool) (desk : Desk config) : Prop where
  now : desk.control.breakpoints = enabled
  later : desk.breakpoints = enabled

variable {enabled : Bool}

theorem Pausing.advance (h : Pausing enabled d.toDesk) : Pausing enabled d.advance.2.toDesk := by
  obtain ⟨-, -, hlater, hnow⟩ := d.advance_keeps
  exact ⟨hnow.trans h.now, hlater.trans h.later⟩

theorem Pausing.start (h : Pausing (seen.setting.getD config.breakpoints) d.toDesk)
    (source : String) (refusal : Option String) :
    Pausing (((Act.start source refusal : Act α).observe d seen).setting.getD config.breakpoints)
      (d.start source refusal).2.toDesk := by
  have hstarted := started source refusal d
  simp only [Act.observe]
  generalize (d.start source refusal).1 = reply at hstarted ⊢
  generalize (d.start source refusal).2 = d' at hstarted ⊢
  cases hstarted with
  | active => exact h
  | uncompiled => exact ⟨h.now, h.later⟩
  -- A run that is made ready gets the setting for the runs to come.
  | overflowed | unthreaded | threaded => exact ⟨h.later, h.later⟩

theorem Pausing.act (h : Pausing (seen.setting.getD config.breakpoints) d.toDesk)
    (change : α → τ → τ) (act : Act α) :
    Pausing ((act.observe d seen).setting.getD config.breakpoints)
      (act.apply change d).toDesk := by
  cases act with
  | start source refusal => exact h.start source refusal
  | advance => exact h.advance
  | elapse nanoseconds => exact ⟨h.now, h.later⟩
  | outside x => exact ⟨h.now, h.later⟩
  | requestStop =>
    simp only [Act.apply, requestStop]
    split <;> exact ⟨h.now, h.later⟩
  | takeBack =>
    simp only [Act.apply, takeBack]
    split <;> exact ⟨h.now, h.later⟩
  | call request =>
    cases request with
    | setBreakpoints enabled => exact ⟨rfl, rfl⟩
    | pause =>
      simp only [Act.apply, Request.apply, pause]
      split <;> exact ⟨h.now, h.later⟩
    | resume =>
      simp only [Act.apply, Request.apply, resume]
      split <;> exact ⟨h.now, h.later⟩
    | allow =>
      simp only [Act.apply, Request.apply, allow]
      split <;> exact ⟨h.now, h.later⟩

theorem History.pausing (h : History change c seen d) :
    Pausing (seen.setting.getD config.breakpoints) d.toDesk := by
  induction h with
  | new hnew =>
    rw [eq_new_of_allocate hnew]
    exact ⟨rfl, rfl⟩
  | act act _ ih => exact ih.act change act

theorem Coherent.report_of_active {worker : Option (DebugWorker config.machine.width)}
    (h : Coherent seen desk worker) (hactive : desk.control.state.isActive = true) :
    desk.control.report = none := by
  cases h with
  | unstarted hinactive => simp [hinactive] at hactive
  | unthreaded hinactive => simp [hinactive] at hactive
  | live hu => exact hu.report
  | crashed _ _ _ _ hslept => exact hslept.report
  | finished _ hinactive => simp [hinactive] at hactive

theorem Coherent.settled_paused (h : Coherent seen d.toDesk d.worker)
    (hsettled : d.advance.1 = false) (hpaused : d.control.state = .paused) :
    d.control.permit = false ∧
      ((∃ program m phase, d.worker = some (.live program m phase) ∧
          (phase = .boundary ∧ d.control.parked = true ∨
            phase = .executing ∧ program.get? m.index = some (.op .input))) ∨
        d.worker = some .crashed ∧ Overslept d.toDesk) := by
  rcases h.alive_of_active (by rw [hpaused]; rfl) with halive | ⟨hcrashed, hpermit, hslept⟩
  · obtain ⟨program, m, phase, hlive⟩ := isAlive_iff.mp halive
    obtain ⟨desk, c, worker⟩ := d
    cases hlive
    obtain ⟨hpermit, hphase⟩ := h.underway.2.settled_paused hsettled hpaused
    exact ⟨hpermit, Or.inl ⟨program, m, phase, rfl, hphase⟩⟩
  · exact ⟨hpermit, Or.inr ⟨hcrashed, hslept⟩⟩

end Debugger

/-- Whatever was done to a debugger, its books are in order once its run has settled. Exceptions are
a run that broke down because the clock cannot show the end of its pause, and, for the report, a
start that was refused a thread. -/
theorem debugger_books_in_order {config : DebugConfig} {τ α : Type} [Console τ]
    (hput : ∀ ch (c : τ), (Console.put ch c).1 = true) {pause : Duration}
    (hthrottle : config.throttle = .ok pause) {change : α → τ → τ} {c : τ}
    {seen : Debugger.Observed config.machine.width} {d : Debugger config τ}
    (h : Debugger.History change c seen d) (hsettled : d.advance.1 = false) :
    (d.breakpoints = seen.setting.getD config.breakpoints ∧
      d.control.breakpoints = seen.setting.getD config.breakpoints) ∧
    (d.control.state = .running ∨ d.control.state = .paused → d.control.report = none) ∧
    (d.isAlive = true → d.control.state = .running ∨ d.control.state = .paused) ∧
    (d.control.state = .running ∨ d.control.state = .paused →
      d.isAlive = true ∨
        d.worker = some .crashed ∧ clockLimit ≤ d.clock + pause.nanoseconds) ∧
    (d.control.state = .paused → d.control.permit = false ∧
      ((∃ program m phase, d.worker = some (.live program m phase) ∧
          (phase = .boundary ∧ d.control.parked = true ∨
            phase = .executing ∧ program.get? m.index = some (.op .input))) ∨
        d.worker = some .crashed ∧ clockLimit ≤ d.clock + pause.nanoseconds)) ∧
    (d.control.state = .stopped → seen.machine.isSome → seen.refused = false →
      d.control.report = seen.report ∧
        (seen.report.isSome ∨ clockLimit ≤ d.clock + pause.nanoseconds)) ∧
    (seen.refused = true → d.worker = none ∧ d.control.report = none) := by
  have hc := h.coherent hput hthrottle
  have hclock (hslept : Debugger.Overslept d.toDesk) :
      clockLimit ≤ d.clock + pause.nanoseconds := by
    have hlimit := hslept.clock
    rwa [Debugger.pauseLength, hthrottle] at hlimit
  simp only [← RunState.isActive_iff]
  refine ⟨⟨h.pausing.later, h.pausing.now⟩, hc.report_of_active, hc.isActive_of_alive, ?_, ?_, ?_,
    ?_⟩
  · intro hactive
    exact (hc.alive_of_active hactive).imp_right fun hcrashed => ⟨hcrashed.1, hclock hcrashed.2.2⟩
  · intro hpaused
    obtain ⟨hpermit, hcases⟩ := hc.settled_paused hsettled hpaused
    exact ⟨hpermit, hcases.imp_right fun hcrashed => ⟨hcrashed.1, hclock hcrashed.2⟩⟩
  · intro hstopped hstarted hrefused
    obtain ⟨m, hm⟩ := Option.isSome_iff_exists.mp hstarted
    obtain ⟨hreport, hover⟩ := hc.over_of_inactive (by rw [hstopped]; rfl) hrefused hm
    exact ⟨hreport, hover.imp And.right hclock⟩
  · intro hrefused
    obtain ⟨hw, -, hreport⟩ := hc.shows_of_refused hrefused
    exact ⟨hw, hreport⟩

/-- Breakpoints are switched off and a first run ends; a second one is paused inside an input
instruction, and stopped there. Then a start is refused a thread. -/
theorem debugger_books_in_order_second_run :
    ∃ seen seen' seen'', ∃ d d' d'' : Debugger { machine := { tapeSize := 2 } } Buffered,
      Debugger.History (fun c _ => c) {} seen d ∧ Debugger.History (fun c _ => c) {} seen' d' ∧
      Debugger.History (fun c _ => c) {} seen'' d'' ∧
      d.control.state = .paused ∧ d.breakpoints = false ∧ d.control.report = none ∧
      d.control.permit = false ∧
      (∃ program m, d.worker = some (.live program m .executing) ∧
        program.get? m.index = some (.op .input)) ∧
      d'.control.state = .stopped ∧ d'.breakpoints = false ∧
      d'.control.report = some ⟨.stopped, .zero⟩ ∧
      d''.control.state = .idle ∧ d''.control.report = none := by
  let new : Debugger { machine := { tapeSize := 2 } } Buffered := .new 0 {}
  let acts : List (Debugger.Act Buffered) :=
    [.call (.setBreakpoints false), .start "+" none, .advance, .advance, .advance, .advance,
      .start "#," none, .advance, .advance, .advance, .call .pause]
  let halves : List (Debugger.Act Buffered) :=
    [.requestStop, .advance, .advance, .advance, .takeBack]
  have hnew : Debugger.History (fun c _ => c) ({} : Buffered) {} new := .new rfl
  have hpaused := hnew.after acts
  have hstopped := hpaused.after halves
  have hrefused := hstopped.act (.start "+" (some "no thread"))
  obtain ⟨⟨hoff, -⟩, hreport, -, -, hparked, -, -⟩ :=
    debugger_books_in_order (fun _ _ => rfl) rfl hpaused (by decide +kernel)
  obtain ⟨⟨hoff', -⟩, -, -, -, -, hended, -⟩ :=
    debugger_books_in_order (fun _ _ => rfl) rfl hstopped (by decide +kernel)
  obtain ⟨-, -, -, -, -, -, hnone⟩ :=
    debugger_books_in_order (fun _ _ => rfl) rfl hrefused (by decide +kernel)
  obtain ⟨hpermit, hcases⟩ := hparked (by decide +kernel)
  obtain ⟨hfiled, -⟩ := hended (by decide +kernel) (by decide +kernel) (by decide +kernel)
  refine ⟨_, _, _, _, _, _, hpaused, hstopped, hrefused, by decide +kernel, hoff,
    hreport (by decide +kernel), hpermit, ?_, by decide +kernel, hoff', ?_, by decide +kernel,
    (hnone (by decide +kernel)).2⟩
  · rcases hcases with ⟨program, m, phase, hlive, ⟨rfl, hat⟩ | ⟨rfl, hinput⟩⟩ | ⟨-, hlimit⟩
    · exact absurd hat (by decide +kernel)
    · exact ⟨program, m, hlive, hinput⟩
    · exact absurd hlimit (by decide +kernel)
  · rw [hfiled]
    decide +kernel

/-- A run that breaks down after its first instruction: the debugger says that it is running, or
paused once it was told to pause, and once stopped it has no report of that run. -/
theorem debugger_books_overslept :
    endlessPauses.throttle = .ok endlessPauses.stepDelay ∧
    ∃ seen, ∃ d : Debugger endlessPauses Buffered, Debugger.History (fun c _ => c) {} seen d ∧
      seen.machine.isSome ∧ seen.refused = false ∧ d.advance.1 = false ∧
      d.control.state = .running ∧ d.isAlive = false ∧ d.pause.2.control.state = .paused ∧
      d.pause.2.isAlive = false ∧ d.stop.2.advance.1 = false ∧
      d.stop.2.control.state = .stopped ∧ d.stop.2.control.report = none := by
  let new : Debugger endlessPauses Buffered := .new 0 {}
  have hnew : Debugger.History (fun c _ => c) ({} : Buffered) {} new := .new rfl
  refine ⟨rfl, _, _, hnew.after [.start "+" none, .advance, .advance], ?_⟩
  decide +kernel

end TapeLang
