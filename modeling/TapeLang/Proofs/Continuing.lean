import TapeLang.Proofs.Debugging
import TapeLang.Proofs.Feeding
import TapeLang.Proofs.Lockstep
import TapeLang.Proofs.StateDiagram

/-! # Continuing and stepping

A parked run that is resumed comes to rest where it would come if it were stepped again and again,
until it has ended or, with breakpoints on, has carried out a breakpoint. The two ways lead through
different states, of which one goes on by itself and publishes nothing but its position.
-/

namespace TapeLang

theorem Memory.perform_eq_pause {w : CellWidth} {s t : Memory w} {bounds : BoundsPolicy} {o : Op}
    (h : s.perform bounds o = .pause t) : o = .breakpoint := by
  cases o with
  | move n =>
    rw [perform_move] at h
    split at h <;> cases h
  | scan d =>
    rw [perform_scan] at h
    split at h <;> cases h
  | breakpoint => rfl
  | _ =>
    simp only [perform] at h
    split at h <;> cases h

namespace Machine

variable {w : CellWidth} {τ : Type} [Console τ] {p : Program} {m m' : Machine w} {c c' : τ}

theorem step_eq_pause (h : m.step p = .pause m') : p.get? m.index = some (.op .breakpoint) := by
  by_cases hop : ∃ o, p.get? m.index = some (.op o)
  · obtain ⟨o, hget⟩ := hop
    obtain ⟨s, i, bounds⟩ := m
    simp only [step, hget] at h
    split at h <;> cases h
    next hperform => rw [hget, Memory.perform_eq_pause hperform]
  · rcases step_of_not_op (not_exists.mp hop) with hs | ⟨_, hs⟩ | ⟨_, _, hs⟩ <;> simp [hs] at h

theorem turn_breakpoint_iff {event : Event} (h : m.turn p c = .moved event m' c') :
    event = .breakpoint ↔ p.get? m.index = some (.op .breakpoint) := by
  constructor
  · rintro rfl
    unfold turn at h
    cases hs : m.step p with
    | pause m₁ => exact step_eq_pause hs
    | write ch m₁ =>
      rw [hs] at h
      dsimp only at h
      split at h <;> cases h
    | read m₁ =>
      rw [hs] at h
      dsimp only at h
      split at h <;> cases h
    | _ =>
      rw [hs] at h
      cases h
  · intro hget
    have hs : m.step p = .pause ⟨m.memory, m.index + 1, m.bounds⟩ := by
      simp only [step, hget, Memory.perform]
    unfold turn at h
    rw [hs] at h
    cases h
    rfl

end Machine

namespace Debugger

variable {config : DebugConfig} {τ : Type} [Console τ] {d : Debugger config τ} {program : Program}
  {m m' : Machine config.machine.width} {c' : τ} {event : Event}

/-- Allow one instruction, and let the run go on until it is parked again or has ended. -/
def stepOnce (d : Debugger config τ) : Debugger config τ := d.step.2.settle 3

def stepped : Nat → Debugger config τ → Debugger config τ
  | 0, d => d
  | n + 1, d => stepped n d.stepOnce

/-- The next instruction is a breakpoint, and breakpoints pause the run. -/
def AtBreakpoint (d : Debugger config τ) : Prop :=
  d.control.breakpoints = true ∧ d.currentInstruction? = some (.op .breakpoint)

/-- The step after `n` others ends the run, or carries out a breakpoint that pauses it. -/
def RestsAfter (n : Nat) (d : Debugger config τ) : Prop :=
  (d.stepped (n + 1)).isAlive = false ∨ (d.stepped n).AtBreakpoint

instance (d : Debugger config τ) : Decidable d.AtBreakpoint := inferInstanceAs (Decidable (_ ∧ _))

instance (n : Nat) (d : Debugger config τ) : Decidable (d.RestsAfter n) :=
  inferInstanceAs (Decidable (_ ∨ _))

/-- A run that is parked, with no call left to answer. -/
structure Parked (d : Debugger config τ) (program : Program)
    (m : Machine config.machine.width) : Prop extends
    Underway d.toDesk program m .boundary where
  worker : d.worker = some (.live program m .boundary)
  paused : d.control.state = .paused
  isParked : d.control.parked = true
  kill : d.control.kill = false
  unpermitted : d.control.permit = false

/-- Publish and wait at the boundary. -/
def park (m : Machine config.machine.width) (d : Debugger config τ) : Debugger config τ :=
  { d with control := { d.control.publish m with parked := true } }

/-- The run where `d` is parked, but going on by itself, with a tape on show that may be older. -/
def running (parked : Bool) (tape : Tape config.machine.width) (d : Debugger config τ) :
    Debugger config τ :=
  { d with control := { d.control with state := .running, parked, tape } }

/-- The parked run with its next instruction begun. -/
def unparked (program : Program) (m : Machine config.machine.width) (d : Debugger config τ) :
    Debugger config τ :=
  beginInstruction program m { d.control with permit := false } d

theorem advance_boundary (h : d.worker = some (.live program m .boundary)) :
    d.advance = passBoundary program m d := by
  obtain ⟨desk, c, worker⟩ := d
  cases h
  rfl

theorem stuck_of_parked (hworker : d.worker = some (.live program m .boundary))
    (hkill : d.control.kill = false) (hpaused : d.control.state = .paused)
    (hpermit : d.control.permit = false) (hparked : d.control.parked = true) :
    d.advance.1 = false := by
  simp only [advance_boundary hworker, passBoundary, hkill, hpaused, hpermit, hparked,
    Bool.false_eq_true, if_true, if_false]

theorem Parked.advance (h : Parked d program m) : d.advance = (false, d) := by
  have hstuck := stuck_of_parked h.worker h.kill h.paused h.unpermitted h.isParked
  exact Prod.ext hstuck (advance_of_stuck hstuck)

omit [Console τ] in
theorem Parked.resume (h : Parked d program m) : d.resume.2 = d.running true d.control.tape := by
  simp only [Debugger.resume, if_pos h.paused, running, ← h.unpermitted, ← h.isParked]

omit [Console τ] in
theorem Parked.allow (h : Parked d program m) :
    d.allow = { d with control := { d.control with permit := true } } :=
  allow_of_parked h.paused h.isParked (h.awaiting.trans (by simp))

theorem Parked.advance_allow (h : Parked d program m) :
    d.allow.advance = (true, d.unparked program m) := by
  have hworker : d.allow.worker = some (.live program m .boundary) := by
    rw [h.allow]
    exact h.worker
  rw [advance_boundary hworker, h.allow]
  simp only [passBoundary, h.kill, h.paused, Bool.false_eq_true, if_true, if_false, unparked,
    beginInstruction]

/-- The moves that a step waits for are those that the run makes anyway. -/
theorem Parked.stepOnce_eq (h : Parked d program m)
    (hstuck : (d.allow.settle 3).advance.1 = false) : d.stepOnce = d.allow.settle 3 := by
  have hawaiting : d.control.awaiting = false := h.awaiting.trans (by simp)
  have hready : d.isReady = true := isReady_of_waiting (Or.inl h.isParked)
  obtain ⟨k, -, hwaits⟩ := d.allow.waitFor_eq_settle (hasStepped (d.control.executed + 1)) 3
  have hstep : d.step.2 = d.allow.settle k := by
    simp only [Debugger.step, waitFor_of_goal hready, h.paused, hawaiting, h.isParked, hwaits,
      ne_eq, not_true_eq_false, Bool.false_eq_true, if_true, if_false]
  rw [stepOnce, hstep, ← settle_add, Nat.add_comm, settle_add, settle_of_stuck hstuck]

theorem Parked.advance_running (h : Parked d program m) (parked : Bool)
    (tape : Tape config.machine.width) :
    (d.running parked tape).advance = (true, (d.unparked program m).running false tape) := by
  have hworker : (d.running parked tape).worker = some (.live program m .boundary) := h.worker
  have hkill : ¬ (d.running parked tape).control.kill = true := by simp [running, h.kill]
  have hstate : ¬ (d.running parked tape).control.state = .paused := by simp [running]
  rw [advance_boundary hworker, passBoundary, if_neg hkill, if_neg hstate]
  simp only [beginInstruction, unparked, running, h.unpermitted]

/-- What a step leaves behind before the run parks again. -/
def completed (d : Debugger config τ) (program : Program) (m : Machine config.machine.width)
    (event : Event) (m' : Machine config.machine.width) (c' : τ) : Debugger config τ :=
  completeInstruction (d.unparked program m).toDesk program m.index event m' c'

theorem advance_unparked (h : m.turn program d.console = .moved event m' c') :
    (d.unparked program m).advance = (true, d.completed program m event m' c') := by
  simp only [unparked, beginInstruction, advance, carryOut, h]
  rfl

theorem Parked.completed_eq (h : Parked d program m) (event : Event)
    (m' : Machine config.machine.width) (c' : τ) :
    ∃ console, d.completed program m event m' c' =
      { d with
        control := { d.control with
          parked := false, awaiting := false, executed := d.control.executed + 1
          index := m'.index, pointer := m'.pointer, tape := m'.tape }
        console
        worker := some (.live program m' .boundary) } := by
  obtain ⟨console, he⟩ :=
    completeInstruction_eq (d.unparked program m).toDesk program m.index event m' c'
  have hstate : stateAfter (d.unparked program m).toDesk event = .paused :=
    stateAfter_of_paused h.paused event
  refine ⟨console, ?_⟩
  rw [completed, he, hstate]
  simp only [Debugger.rest, true_or, if_true, unparked, beginInstruction, h.paused,
    h.unpermitted]

theorem Parked.advance_completed (h : Parked d program m) :
    (d.completed program m event m' c').advance =
      (true, (d.completed program m event m' c').park m') := by
  obtain ⟨console, he⟩ := h.completed_eq event m' c'
  simp only [he, Debugger.advance, passBoundary, h.kill, h.unpermitted, h.paused,
    Bool.false_eq_true, if_true, if_false, park]

theorem Parked.stepOnce_moved (h : Parked d program m)
    (ht : m.turn program d.console = .moved event m' c') :
    d.stepOnce = (d.completed program m event m' c').park m' := by
  have hsettle : d.allow.settle 3 = (d.completed program m event m' c').park m' := by
    rw [settle_succ h.advance_allow, settle_succ (advance_unparked ht),
      settle_succ h.advance_completed]
    rfl
  have hstuck : ((d.completed program m event m' c').park m').advance.1 = false := by
    obtain ⟨console, he⟩ := h.completed_eq event m' c'
    rw [he]
    exact stuck_of_parked rfl h.kill h.paused h.unpermitted rfl
  rw [h.stepOnce_eq (by rw [hsettle]; exact hstuck), hsettle]

theorem Parked.moved (h : Parked d program m) (hput : ∀ ch (c : τ), (Console.put ch c).1 = true)
    (ht : m.turn program d.console = .moved event m' c') : Parked d.stepOnce program m' := by
  have hunparked : Underway (d.unparked program m).toDesk program m .executing :=
    Underway.begun h.toUnderway
  have hcompleted : Coherent { machine := some m' } (d.completed program m event m' c').toDesk
      (d.completed program m event m' c').worker :=
    Coherent.completeInstruction hunparked hput ht ⟨rfl, rfl⟩ rfl m.index
  obtain ⟨console, he⟩ := h.completed_eq event m' c'
  have hworker : (d.completed program m event m' c').worker =
      some (.live program m' .boundary) := by
    rw [he]
  rw [hworker] at hcompleted
  rw [h.stepOnce_moved ht]
  refine ⟨hcompleted.underway.2.parks, hworker, ?_, rfl, ?_, ?_⟩
  all_goals rw [he]
  · exact h.paused
  · exact h.kill
  · exact h.unpermitted

theorem Parked.stepOnce_control (h : Parked d program m)
    (ht : m.turn program d.console = .moved event m' c') :
    d.stepOnce.control.executed = d.control.executed + 1 ∧
      d.stepOnce.control.breakpoints = d.control.breakpoints ∧ d.stepOnce.control.Shows m' := by
  obtain ⟨console, he⟩ := h.completed_eq event m' c'
  rw [h.stepOnce_moved ht, he]
  exact ⟨rfl, rfl, rfl, rfl, rfl⟩

/-- To a run that goes on by itself it makes no difference whether it would have parked. -/
theorem Parked.running_stepOnce (h : Parked d program m)
    (ht : m.turn program d.console = .moved event m' c') (tape : Tape config.machine.width) :
    d.stepOnce.running false tape = (d.completed program m event m' c').running false tape := by
  obtain ⟨console, he⟩ := h.completed_eq event m' c'
  rw [h.stepOnce_moved ht, he]
  rfl

theorem Parked.advance_running_on (h : Parked d program m) (hpause : pauseLength config = .zero)
    (ht : m.turn program d.console = .moved event m' c')
    (hhit : ¬ (event = .breakpoint ∧ d.control.breakpoints = true))
    (tape : Tape config.machine.width) :
    ((d.unparked program m).running false tape).advance =
      (true, (d.completed program m event m' c').running false tape) := by
  simp only [completed, unparked, beginInstruction, running, Debugger.advance, carryOut, ht,
    completeInstruction, if_neg hhit, h.paused, Debugger.rest, hpause, Control.publish, or_true,
    if_true, if_false, reduceCtorEq]

theorem advance_running_hit (ht : m.turn program d.console = .moved event m' c')
    (hhit : event = .breakpoint ∧ d.control.breakpoints = true)
    (tape : Tape config.machine.width) :
    ((d.unparked program m).running false tape).advance =
      (true, d.completed program m event m' c') := by
  simp only [completed, unparked, beginInstruction, running, Debugger.advance, carryOut, ht,
    completeInstruction, hhit.1, hhit.2, and_self, Control.publish, if_true]

theorem Parked.atBreakpoint_iff (h : Parked d program m)
    (ht : m.turn program d.console = .moved event m' c') :
    d.AtBreakpoint ↔ event = .breakpoint ∧ d.control.breakpoints = true := by
  have hnext : d.currentInstruction? = program.get? m.index := by
    simp only [currentInstruction?, h.program_eq, h.index, Option.bind_some]
  rw [AtBreakpoint, hnext, Machine.turn_breakpoint_iff ht, and_comm]

theorem carryOut_of_ends {status : RunStatus} {errors : List Exchange}
    (h : m.Ends program status errors) (c : τ) :
    ∃ c', ∀ desk : Desk config,
      carryOut desk program m c = (true, finish status m ⟨desk, c', none⟩) := by
  cases h with
  | completed hs =>
    refine ⟨c, fun desk => ?_⟩
    simp only [carryOut, Machine.turn_of_halt hs]
    rfl
  | failed e hs =>
    refine ⟨Console.error e.message (Console.note (.debugFault e) c), fun desk => ?_⟩
    simp only [carryOut, Machine.turn_of_fault hs]
    rfl

theorem Parked.ends {status : RunStatus} {errors : List Exchange} (h : Parked d program m)
    (hends : m.Ends program status errors) :
    (∀ tape, ((d.unparked program m).running false tape).advance = (true, d.stepOnce)) ∧
    d.stepOnce.worker = some .ended ∧ d.stepOnce.control.state = .stopped ∧
    d.stepOnce.control.executed = d.control.executed ∧ d.stepOnce.control.Shows m ∧
    d.stepOnce.control.report = some ⟨status, ⟨d.clock - d.startedAt⟩⟩ := by
  obtain ⟨c', hcarry⟩ : ∃ c', ∀ desk : Desk config, carryOut desk program m d.console =
      (true, finish status m ⟨desk, c', none⟩) := carryOut_of_ends hends d.console
  have hlast : (d.unparked program m).advance =
      (true, finish status m ⟨(d.unparked program m).toDesk, c', none⟩) := hcarry _
  have hstep : d.stepOnce = finish status m ⟨(d.unparked program m).toDesk, c', none⟩ := by
    have hsettle : d.allow.settle 3 =
        finish status m ⟨(d.unparked program m).toDesk, c', none⟩ := by
      rw [settle_succ h.advance_allow, settle_succ hlast, settle_of_not_alive rfl]
    rw [h.stepOnce_eq (by rw [hsettle, advance_of_not_alive rfl]), hsettle]
  rw [hstep]
  -- What the run has on show and in its state is replaced by its last publication.
  exact ⟨fun tape => hcarry ((d.unparked program m).running false tape).toDesk, rfl, rfl, rfl,
    ⟨rfl, rfl, rfl⟩, rfl⟩

section

variable {d : Debugger config Buffered} {c' : Buffered}

theorem Parked.moved_or_ends (h : Parked d program m) (hclosed : d.console.input.closed = true) :
    (∃ event m' c', m.turn program d.console = .moved event m' c') ∨
      ∃ status errors, m.Ends program status errors := by
  rcases Machine.turn_safe h.paired h.onTape (fun _ _ => rfl) d.console with
    ⟨event, m', c', ht, -⟩ | ht | hs | ⟨e, hs⟩
  · exact Or.inl ⟨event, m', c', ht⟩
  · obtain ⟨input, b', hget, -⟩ := Buffered.get?_closed hclosed
    rw [(Machine.turn_eq_blocked ht).2.1] at hget
    cases hget
  · exact Or.inr ⟨_, _, .completed hs⟩
  · exact Or.inr ⟨_, _, .failed e hs⟩

theorem Parked.stepOnce_console (h : Parked d program m)
    (ht : m.turn program d.console = .moved event m' c') :
    d.stepOnce.console.written = c'.written ∧ d.stepOnce.console.input = c'.input := by
  rw [h.stepOnce_moved ht]
  simp only [park, completed, completeInstruction]
  split <;> exact ⟨rfl, rfl⟩

theorem Parked.closed_stepOnce (h : Parked d program m)
    (ht : m.turn program d.console = .moved event m' c') (hclosed : d.console.input.closed = true) :
    d.stepOnce.console.input.closed = true := by
  have hturn := m.closed_turn program d.console
  rw [ht] at hturn
  rw [(h.stepOnce_console ht).2]
  exact hturn.trans hclosed

theorem Parked.settle_running_one (h : Parked d program m) (parked : Bool)
    (tape : Tape config.machine.width) (fuel : Nat) :
    (d.running parked tape).settle (fuel + 1) =
      ((d.unparked program m).running false tape).settle fuel :=
  settle_succ (h.advance_running parked tape)

theorem Parked.goes_on (h : Parked d program m) (hpause : pauseLength config = .zero)
    (hclosed : d.console.input.closed = true) (hrests : ¬ d.RestsAfter 0) :
    ∃ m', Parked d.stepOnce program m' ∧ d.stepOnce.console.input.closed = true ∧
      d.stepOnce.control.breakpoints = d.control.breakpoints ∧
      ∀ tape, ((d.unparked program m).running false tape).advance =
        (true, d.stepOnce.running false tape) := by
  obtain ⟨halive, hbreak⟩ := not_or.mp hrests
  rcases h.moved_or_ends hclosed with ⟨event, m', c', ht⟩ | ⟨status, errors, hends⟩
  · refine ⟨m', h.moved (fun _ _ => rfl) ht, h.closed_stepOnce ht hclosed,
      (h.stepOnce_control ht).2.1, fun tape => ?_⟩
    rw [h.running_stepOnce ht tape]
    exact h.advance_running_on hpause ht (mt (h.atBreakpoint_iff ht).mpr hbreak) tape
  · refine (halive ?_).elim
    simp only [stepped, isAlive, (h.ends hends).2.1]

theorem Parked.comes_to_rest (h : Parked d program m) (hclosed : d.console.input.closed = true)
    (hrests : d.RestsAfter 0) :
    d.stepOnce.advance.1 = false ∧ d.stepOnce.isSettled = true ∧
    (d.control.breakpoints = false → d.stepOnce.control.state = .stopped) ∧
    ∀ tape, ((d.unparked program m).running false tape).settle 2 = d.stepOnce := by
  rcases h.moved_or_ends hclosed with ⟨event, m', c', ht⟩ | ⟨status, errors, hends⟩
  · have hparked := h.moved (fun _ _ => rfl) ht
    have hbreak : d.AtBreakpoint := hrests.resolve_left (by
      simp only [stepped, isAlive, hparked.worker]
      simp)
    have hhit := (h.atBreakpoint_iff ht).mp hbreak
    refine ⟨by rw [hparked.advance], ?_, fun hoff => ?_, fun tape => ?_⟩
    · simp only [isSettled, hparked.paused, hparked.isParked]
    · rw [hhit.2] at hoff
      cases hoff
    · rw [settle_succ (advance_running_hit ht hhit tape), settle_succ h.advance_completed,
        h.stepOnce_moved ht]
      rfl
  · obtain ⟨hadvance, hworker, hstate, -⟩ := h.ends hends
    have hended : d.stepOnce.isAlive = false := by simp only [isAlive, hworker]
    refine ⟨by rw [advance_of_not_alive hended], ?_, fun _ => hstate, fun tape => ?_⟩
    · simp only [isSettled, hstate]
    · rw [settle_succ (hadvance tape), settle_of_not_alive hended]

/-- The run that goes on by itself comes to rest where steps lead. -/
theorem Parked.settle_running {n : Nat} (h : Parked d program m)
    (hpause : pauseLength config = .zero) (hclosed : d.console.input.closed = true)
    (hrests : d.RestsAfter n) (hfirst : ∀ k < n, ¬ d.RestsAfter k) :
    (∀ parked tape, (d.running parked tape).settle (2 * n + 3) = d.stepped (n + 1)) ∧
    (d.stepped (n + 1)).advance.1 = false ∧ (d.stepped (n + 1)).isSettled = true ∧
    (d.control.breakpoints = false → (d.stepped (n + 1)).control.state = .stopped) := by
  induction n generalizing d m with
  | zero =>
    obtain ⟨hstuck, hsettled, hstopped, hsettle⟩ := h.comes_to_rest hclosed hrests
    refine ⟨fun parked tape => ?_, hstuck, hsettled, hstopped⟩
    exact (h.settle_running_one parked tape 2).trans (hsettle tape)
  | succ n ih =>
    obtain ⟨m', hparked, hclosed', hbreakpoints, hadvance⟩ :=
      h.goes_on hpause hclosed (hfirst 0 (Nat.succ_pos n))
    obtain ⟨hsettle, hstuck, hsettled, hstopped⟩ :=
      ih hparked hclosed' hrests fun k hk => hfirst (k + 1) (Nat.succ_lt_succ hk)
    refine ⟨fun parked tape => ?_, hstuck, hsettled, fun hoff => hstopped (hbreakpoints.trans hoff)⟩
    calc (d.running parked tape).settle (2 * n + 3 + 1 + 1)
      _ = ((d.unparked program m).running false tape).settle (2 * n + 3 + 1) :=
        h.settle_running_one parked tape _
      _ = (d.stepOnce.running false tape).settle (2 * n + 3) := settle_succ (hadvance tape)
      _ = d.stepped (n + 1 + 1) := hsettle false tape

/-- If no step brings it to rest, the run that goes on by itself can always make another move. -/
theorem Parked.running_forever (h : Parked d program m) (hpause : pauseLength config = .zero)
    (hclosed : d.console.input.closed = true) (hnever : ∀ n, ¬ d.RestsAfter n) (parked : Bool)
    (tape : Tape config.machine.width) (fuel : Nat) :
    ((d.running parked tape).settle fuel).advance.1 = true ∧
      ((d.running parked tape).settle fuel).isSettled = false := by
  induction fuel using Nat.strongRecOn generalizing d m parked with
  | _ fuel ih =>
    obtain ⟨m', hparked, hclosed', -, hadvance⟩ := h.goes_on hpause hclosed (hnever 0)
    -- Every instruction takes two moves: one begins it, and one carries it out.
    match fuel, ih with
    | 0, _ =>
      rw [Debugger.settle, h.advance_running]
      exact ⟨rfl, rfl⟩
    | 1, _ =>
      rw [h.settle_running_one, Debugger.settle, hadvance]
      exact ⟨rfl, rfl⟩
    | fuel + 2, ih =>
      rw [h.settle_running_one, settle_succ (hadvance tape)]
      exact ih fuel (by omega) hparked hclosed' (fun n => hnever (n + 1)) false

end

theorem Coherent.parked {seen : Observed config.machine.width}
    (h : Coherent seen d.toDesk d.worker) (hpaused : d.control.state = .paused)
    (hparked : d.control.parked = true) (hsettled : d.advance.1 = false) :
    ∃ program m, Parked d program m := by
  obtain ⟨program, m, hworker, -⟩ := h.shows_of_parked hparked
  rw [hworker] at h
  simp only [advance_boundary hworker, Debugger.passBoundary, if_pos hpaused, if_pos hparked]
    at hsettled
  split at hsettled
  · cases hsettled
  · next hkill =>
    split at hsettled
    · cases hsettled
    · next hpermit =>
      exact ⟨program, m, h.underway.2, hworker, hpaused, hparked, Bool.eq_false_iff.mpr hkill,
        Bool.eq_false_iff.mpr hpermit⟩

end Debugger

/-- A parked run that is resumed comes to rest where steps lead, up to the first that ends the run
or carries out a breakpoint while breakpoints are on. Without such a step it never comes to rest. -/
theorem resuming_repeats_steps {config : DebugConfig} (hthrottle : config.throttle = .ok .zero)
    {α : Type} {change : α → Buffered → Buffered} {c : Buffered}
    {seen : Debugger.Observed config.machine.width} {d : Debugger config Buffered}
    (h : Debugger.History change c seen d) (hpaused : d.control.state = .paused)
    (hparked : d.control.parked = true) (hsettled : d.advance.1 = false)
    (hclosed : d.console.input.closed = true) :
    (∀ n, d.RestsAfter n → (∀ k < n, ¬ d.RestsAfter k) →
      (∃ fuel, d.resume.2.settle fuel = d.stepped (n + 1)) ∧
      (d.stepped (n + 1)).advance.1 = false ∧ (d.stepped (n + 1)).isSettled = true ∧
      (d.control.breakpoints = false → (d.stepped (n + 1)).control.state = .stopped)) ∧
    ((∀ n, ¬ d.RestsAfter n) → ∀ fuel, (d.resume.2.settle fuel).advance.1 = true ∧
      (d.resume.2.settle fuel).isSettled = false) ∧
    ∃ program m, d.worker = some (.live program m .boundary) ∧ d.step.1 = .ok ∧
      d.stepOnce.advance.1 = false ∧
      ((∃ event m' c', m.turn program d.console = .moved event m' c' ∧
        d.stepOnce.worker = some (.live program m' .boundary) ∧
        d.stepOnce.control.state = .paused ∧ d.stepOnce.control.parked = true ∧
        d.stepOnce.control.executed = d.control.executed + 1 ∧ d.stepOnce.control.Shows m' ∧
        d.stepOnce.console.written = c'.written ∧ d.stepOnce.console.input = c'.input) ∨
      ∃ status errors elapsed, m.Ends program status errors ∧ d.stepOnce.worker = some .ended ∧
        d.stepOnce.control.state = .stopped ∧
        d.stepOnce.control.executed = d.control.executed ∧ d.stepOnce.control.Shows m ∧
        d.stepOnce.control.report = some ⟨status, elapsed⟩) := by
  have hpause : Debugger.pauseLength config = .zero := by simp [Debugger.pauseLength, hthrottle]
  have hcoherent := h.coherent (fun _ _ => rfl) hthrottle
  obtain ⟨program, m, hp⟩ := hcoherent.parked hpaused hparked hsettled
  rw [hp.resume]
  have hready : d.isReady = true := Debugger.isReady_of_waiting (Or.inl hparked)
  have hstep := (hcoherent.step_of_ready (fun _ _ => rfl) hpaused hready).1
  refine ⟨fun n hrests hfirst => ?_, fun hnever fuel => ?_, program, m, hp.worker, hstep, ?_⟩
  · obtain ⟨hsettle, hrest⟩ := hp.settle_running hpause hclosed hrests hfirst
    exact ⟨⟨_, hsettle _ _⟩, hrest⟩
  · exact hp.running_forever hpause hclosed hnever _ _ fuel
  · rcases hp.moved_or_ends hclosed with ⟨event, m', c', ht⟩ | ⟨status, errors, hends⟩
    · have hnext := hp.moved (fun _ _ => rfl) ht
      obtain ⟨hexecuted, -, hshows⟩ := hp.stepOnce_control ht
      refine ⟨by rw [hnext.advance], Or.inl ⟨event, m', c', ht, hnext.worker, hnext.paused,
        hnext.isParked, hexecuted, hshows, hp.stepOnce_console ht⟩⟩
    · obtain ⟨-, hworker, hstate, hexecuted, hshows, hreport⟩ := hp.ends hends
      have hended : d.stepOnce.isAlive = false := by simp only [Debugger.isAlive, hworker]
      exact ⟨by rw [Debugger.advance_of_not_alive hended],
        Or.inr ⟨status, errors, _, hends, hworker, hstate, hexecuted, hshows, hreport⟩⟩

theorem resuming_repeats_steps_loop :
    ∃ seen, ∃ d : Debugger { machine := { tapeSize := 2 }, pauseOnStart := true } Buffered,
      Debugger.History (fun c _ => c) (Buffered.withInput "") seen d ∧
      (∃ fuel, d.resume.2.settle fuel = d.stepped 4) ∧ (d.stepped 4).control.state = .paused ∧
      (∃ fuel, (d.setBreakpoints false).resume.2.settle fuel =
        (d.setBreakpoints false).stepped 6) ∧
      ((d.setBreakpoints false).stepped 6).control.state = .stopped := by
  let new : Debugger { machine := { tapeSize := 2 }, pauseOnStart := true } Buffered :=
    .new 0 (.withInput "")
  have hnew : Debugger.History (fun c _ => c) (Buffered.withInput "") {} new := .new rfl
  let d := new.after (fun c _ => c) [.start "+[-#]" none, .advance]
  have hparked : Debugger.History (fun c _ => c) (Buffered.withInput "") _ d := hnew.after _
  have hunset : Debugger.History (fun c _ => c) (Buffered.withInput "") _
    (d.setBreakpoints false) := hparked.act (.call (.setBreakpoints false))
  obtain ⟨hrests, -⟩ := resuming_repeats_steps rfl hparked (by decide +kernel) (by decide +kernel)
    (by decide +kernel) (by decide +kernel)
  obtain ⟨hends, -⟩ := resuming_repeats_steps rfl hunset (by decide +kernel) (by decide +kernel)
    (by decide +kernel) (by decide +kernel)
  obtain ⟨hpaused, -⟩ := hrests 3 (by decide +kernel) (by decide +kernel)
  obtain ⟨hended, -, -, hstopped⟩ := hends 5 (by decide +kernel) (by decide +kernel)
  simp only [Nat.reduceAdd] at hstopped
  exact ⟨_, d, hparked, hpaused, by decide +kernel, hended, hstopped rfl⟩

end TapeLang
