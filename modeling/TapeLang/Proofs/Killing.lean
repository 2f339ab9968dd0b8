import TapeLang.Proofs.Sessions
import TapeLang.Proofs.StateDiagram

/-! # Killed runs

A run that must end does so at the next boundary. The interpreter stops with all that the
instructions before that boundary have done, and nothing more. In a session or a debugger at most
the instruction that was begun is carried out; if it waits for input, it finds the end of the input.
-/

namespace TapeLang

section

variable {w : CellWidth} {τ : Type} [Console τ] {program : Program} {kill : Progress → Bool}
  {m m' : Machine w} {c c' : τ} {progress progress' : Progress}

/-- A signal that is first seen after `n` instructions leaves what the run without it has done by
then, wherever the program is. -/
theorem execute_killed {n : Nat}
    (h : execute program never n progress m c = ⟨.unfinished, m', c', progress'⟩)
    (hbefore : ∀ k < n, kill (execute program never k progress m c).progress = false)
    (hraised : kill progress' = true) (fuel : Nat) :
    execute program kill (n + fuel + 1) progress m c = ⟨.ended .stopped, m', c', progress'⟩ := by
  induction n generalizing progress m c with
  | zero =>
    cases h
    simp only [execute, if_pos hraised]
  | succ n ih =>
    have hnot : ¬ kill progress = true := Bool.eq_false_iff.mp (hbefore 0 (Nat.succ_pos n))
    cases ht : m.turn program c with
    | moved event m₁ c₁ =>
      rw [execute_of_moved ht] at h
      rw [Nat.add_right_comm n 1 fuel, execute, if_neg hnot, ht]
      refine ih h fun k hk => ?_
      rw [← execute_of_moved ht]
      exact hbefore (k + 1) (Nat.succ_lt_succ hk)
    | _ => simp [execute, never, ht] at h

/-- The outcome with the status line written, if the run has ended. -/
def Outcome.reported : Outcome w τ → Outcome w τ
  | ⟨.ended status, m, console, progress⟩ =>
    ⟨.ended status, m, Console.message (Report.line ⟨status, .zero⟩) console, progress⟩
  | outcome => outcome

theorem Outcome.progress_reported (o : Outcome w τ) : o.reported.progress = o.progress := by
  obtain ⟨_ | _ | _ | _, m, c, progress⟩ := o <;> rfl

theorem Outcome.reported_eq_unfinished {o : Outcome w τ}
    (h : o.reported = ⟨.unfinished, m, c, progress⟩) : o = ⟨.unfinished, m, c, progress⟩ := by
  obtain ⟨_ | _ | _ | _, m', c', progress'⟩ := o
  · cases h
  all_goals exact h

end

section

variable {τ : Type} [Console τ] {config : Config} {program : Program} {kill : Progress → Bool}
  {c c' : τ} {progress progress' : Progress}

theorem interpret_of_allocate {m : Machine config.width}
    (h : Machine.allocate config.tapeSize config.bounds = .ok m) (fuel : Nat) :
    interpret config program kill fuel progress c = (execute program kill fuel progress m
      (Console.note (.running program.size config) c)).reported := by
  simp only [interpret, h]
  generalize execute program kill fuel progress m (Console.note _ c) = o
  obtain ⟨_ | _ | _ | _, m', c', progress'⟩ := o <;> rfl

theorem interpret_killed {m : Machine config.width} {n fuel : Nat}
    (h : interpret config program never n progress c = ⟨.unfinished, m, c', progress'⟩)
    (hbefore : ∀ k < n, kill (interpret config program never k progress c).progress = false)
    (hraised : kill progress' = true) (hfuel : n < fuel) :
    interpret config program kill fuel progress c =
      ⟨.ended .stopped, m, Console.message (Report.line ⟨.stopped, .zero⟩) c', progress'⟩ := by
  obtain ⟨k, rfl⟩ := Nat.exists_eq_add_of_lt hfuel
  cases halloc : (Machine.allocate config.tapeSize config.bounds :
      Except Defect (Machine config.width)) with
  | error defect =>
    simp only [interpret, halloc] at h
    cases h
  | ok fresh =>
    simp only [interpret_of_allocate halloc, Outcome.progress_reported] at h hbefore ⊢
    rw [execute_killed (Outcome.reported_eq_unfinished h) hbefore hraised k]
    rfl

end

namespace Buffered

theorem text_message (text : String) (b : Buffered) : (Console.message text b).text = b.text := by
  have hwritten : (Console.message text b).written = ⟨.message, text⟩ :: b.written :=
    written_write (by simp) text b
  simp [Buffered.text, tagged, output, hwritten]

end Buffered

namespace Machine

variable {w : CellWidth} {p : Program} {m : Machine w}

theorem onTape_of_blocked {τ : Type} [Console τ] {c : τ} (h : m.turn p c = .blocked m c) :
    m.memory.OnTape := by
  obtain ⟨hget, -⟩ := turn_eq_blocked h
  obtain ⟨s, i, bounds⟩ := m
  cases hs : s.tape.get? s.pointer with
  | some cell => exact Tape.lt_of_get? hs
  | none => simp [turn, step, hget, Memory.perform, hs] at h

theorem turn_release {b : Buffered} (h : m.turn p b = .blocked m b) :
    m.turn p (Console.release b) = .moved (.got none) (m.receive none) (Console.release b) := by
  obtain ⟨hget, -⟩ := turn_eq_blocked h
  obtain ⟨cell, hcell⟩ := (onTape_of_blocked h).current
  have hstep : m.step p = .read m := by
    simp only [step, hget, Memory.perform_input hcell]
  simp only [turn, hstep]
  rfl

theorem current_receive_none (h : m.memory.OnTape) :
    (m.receive none).memory.current? = some .zero :=
  Memory.current_put h .zero

end Machine

namespace Session

section

variable {config : Config} {τ α : Type} [Console τ] {s : Session config τ}

def Act.isStart : Act α → Bool
  | .start .. | .startProgram .. => true
  | _ => false

/-- The number of instructions that an act carries out: a move of the run may carry out one. -/
def Act.carriedOut (act : Act α) (s : Session config τ) : Nat :=
  match act, s.worker with
  | .advance, some (.executing program m) =>
    match m.turn program s.console with
    | .moved .. => 1
    | _ => 0
  | _, _ => 0

def carriedOut (change : α → τ → τ) : List (Act α) → Session config τ → Nat
  | [], _ => 0
  | act :: acts, s => act.carriedOut s + carriedOut change acts (act.apply change s)

/-- The number of instructions that were begun and not carried out yet. -/
def pending (s : Session config τ) : Nat :=
  match s.worker with
  | some (.executing ..) => 1
  | _ => 0

/-- There is no run that may begin another instruction. -/
def Closing (s : Session config τ) : Prop := s.killed = true ∨ s.worker = none

theorem closing_requestStop (s : Session config τ) : s.requestStop.Closing := by
  unfold requestStop
  split
  · next hnone => exact Or.inr hnone
  · exact Or.inl rfl

theorem pending_requestStop (s : Session config τ) : s.requestStop.pending = s.pending := by
  unfold requestStop
  split <;> rfl

/-- A run that must end begins no instruction, so carrying one out leaves one fewer to carry out. -/
theorem Closing.advance (h : s.Closing) : s.advance.2.Closing ∧
    (Act.advance : Act α).carriedOut s + s.advance.2.pending ≤ s.pending := by
  obtain ⟨c, _ | (⟨program, m⟩ | ⟨program, m⟩ | _ | _), killed, used, elapsed⟩ := s
  · exact ⟨h, Nat.le_refl 0⟩
  · obtain rfl | hnone := h
    · exact ⟨Or.inl rfl, Nat.le_refl 0⟩
    · cases hnone
  · obtain rfl | hnone := h
    · cases ht : m.turn program c with
      | moved event m' c' =>
        simp only [Session.advance, Act.carriedOut, ht]
        exact ⟨Or.inl rfl, Nat.le_refl 1⟩
      | blocked m' c' =>
        simp only [Session.advance, Act.carriedOut, ht]
        exact ⟨Or.inl rfl, Nat.le_refl 1⟩
      | _ =>
        simp only [Session.advance, Act.carriedOut, ht]
        exact ⟨Or.inl rfl, Nat.zero_le 1⟩
    · cases hnone
  · exact ⟨h, Nat.le_refl 0⟩
  · exact ⟨h, Nat.le_refl 0⟩

theorem join_of_alive (h : s.isAlive = true) : s.join.2 = s := by
  obtain ⟨c, _ | (_ | _ | _ | _), killed, used, elapsed⟩ := s
  · rfl
  · rfl
  · rfl
  · cases h
  · cases h

theorem Closing.join (h : s.Closing) : s.join.2.Closing ∧ s.join.2.pending ≤ s.pending := by
  cases halive : s.isAlive with
  | true =>
    rw [join_of_alive halive]
    exact ⟨h, Nat.le_refl _⟩
  | false =>
    obtain ⟨notes, he⟩ := s.join_eq halive
    rw [he]
    exact ⟨Or.inr rfl, Nat.zero_le _⟩

theorem Closing.act (h : s.Closing) (change : α → τ → τ) {act : Act α}
    (hact : act.isStart = false) : (act.apply change s).Closing ∧
      act.carriedOut s + (act.apply change s).pending ≤ s.pending := by
  by_cases hmove : act = .advance
  · subst hmove
    exact h.advance
  · -- All but a move of the run carry out nothing.
    have hnothing : act.carriedOut s = 0 := by
      unfold Act.carriedOut
      split
      · exact (hmove rfl).elim
      · rfl
    rw [hnothing, Nat.zero_add]
    cases act with
    | start => cases hact
    | startProgram => cases hact
    | advance => exact (hmove rfl).elim
    | requestStop => exact ⟨s.closing_requestStop, Nat.le_of_eq s.pending_requestStop⟩
    | takeBack =>
      simp only [Act.apply, takeBack]
      split
      · exact ⟨h, Nat.le_refl _⟩
      · exact h.join
    | join => exact h.join
    | elapse elapsed => exact ⟨h, Nat.le_refl _⟩
    | outside x => exact ⟨h, Nat.le_refl _⟩

theorem Closing.carriedOut_le (h : s.Closing) (change : α → τ → τ) {acts : List (Act α)}
    (hacts : ∀ act ∈ acts, act.isStart = false) : s.carriedOut change acts ≤ s.pending := by
  induction acts generalizing s with
  | nil => exact Nat.zero_le _
  | cons act acts ih =>
    obtain ⟨hact, hrest⟩ := List.forall_mem_cons.mp hacts
    obtain ⟨hnext, hle⟩ := h.act change hact
    have hlater := ih hnext hrest
    simp only [carriedOut]
    omega

end

variable {config : Config} {program : Program} {s : Session config Buffered}

theorem stop_atBoundary {m : Machine config.width} (h : s.worker = some (.atBoundary program m)) :
    s.stop.1 = some ⟨.stopped, s.elapsed⟩ ∧ s.stop.2.console.text = s.console.text ∧
      s.stop.2.console.input.chars = s.console.input.chars := by
  obtain ⟨c, worker, killed, used, elapsed⟩ := s
  cases h
  exact ⟨rfl, Buffered.text_message _ _, rfl⟩

theorem stop_blocked {m : Machine config.width} (h : s.worker = some (.executing program m))
    (hblocked : m.turn program s.console = .blocked m s.console) :
    s.requestStop.advance.2.worker = some (.atBoundary program (m.receive none)) ∧
      s.stop.1 = some ⟨.stopped, s.elapsed⟩ := by
  obtain ⟨c, worker, killed, used, elapsed⟩ := s
  cases h
  have hturn := Machine.turn_release hblocked
  have hread : (requestStop ⟨c, some (.executing program m), killed, used, elapsed⟩ :
      Session config Buffered).advance.2 =
      ⟨Console.release c, some (.atBoundary program (m.receive none)), true, used, elapsed⟩ := by
    simp only [requestStop, advance, hturn]
  rw [stop_fst, hread]
  exact ⟨rfl, rfl⟩

end Session

namespace Debugger

variable {config : DebugConfig} {τ α : Type}

def Act.isStart : Act α → Bool
  | .start .. => true
  | _ => false

/-- The number of instructions that were begun and not carried out yet. -/
def pending (d : Debugger config τ) : Nat :=
  match d.worker with
  | some (.live _ _ .executing) => 1
  | _ => 0

variable {d : Debugger config τ} {program : Program} {m : Machine config.machine.width}

theorem pending_rest {state : RunState} {clock : Nat}
    (h : d.worker = some (rest config state clock program m)) : d.pending = 0 := by
  simp only [rest] at h
  split at h
  · simp only [pending, h]
  · split at h <;> simp only [pending, h]

theorem Coherent.pending_of_parked {seen : Observed config.machine.width}
    (h : Coherent seen d.toDesk d.worker) (hparked : d.control.parked = true) : d.pending = 0 := by
  obtain ⟨program, m, hworker, -⟩ := h.shows_of_parked hparked
  simp only [pending, hworker]

variable [Console τ]

theorem executed_advance (h : d.control.kill = true) : d.advance.2.control.kill = true ∧
    d.advance.2.control.executed + d.advance.2.pending ≤ d.control.executed + d.pending := by
  obtain ⟨desk, c, _ | ⟨program, m, phase⟩ | _ | _⟩ := d
  · exact ⟨h, Nat.le_refl _⟩
  · have hadvanced := advanced desk c program m phase
    generalize advance ⟨desk, c, some (.live program m phase)⟩ = answer at hadvanced ⊢
    cases hadvanced with
    | waits | sleeps | blocked => exact ⟨h, Nat.le_refl _⟩
    | begins hkill => simp [hkill] at h
    | parks hkill => simp [hkill] at h
    | wakes => exact ⟨h, Nat.le_refl _⟩
    | stopped => exact ⟨h, Nat.le_refl _⟩
    | @moved event m' c' =>
      obtain ⟨console, he⟩ := completeInstruction_eq desk program m.index event m' c'
      rw [pending_rest (d := completeInstruction desk program m.index event m' c')
        (congrArg (·.worker) he), he]
      exact ⟨h, Nat.le_refl _⟩
    | halted => exact ⟨h, Nat.le_succ _⟩
    | faulted => exact ⟨h, Nat.le_succ _⟩
    | crashed => exact ⟨h, Nat.le_succ _⟩
  · exact ⟨h, Nat.le_refl _⟩
  · exact ⟨h, Nat.le_refl _⟩

theorem executed_act (h : d.control.kill = true) (change : α → τ → τ) {act : Act α}
    (hact : act.isStart = false) : (act.apply change d).control.kill = true ∧
      (act.apply change d).control.executed + (act.apply change d).pending ≤
        d.control.executed + d.pending := by
  cases act with
  | start => cases hact
  | advance => exact executed_advance h
  | call request =>
    obtain ⟨state, permit, pausing, breakpoints, he⟩ := request.apply_eq d
    rw [Act.apply, he]
    exact ⟨h, Nat.le_refl _⟩
  | requestStop =>
    cases hw : d.worker with
    | none =>
      rw [Act.apply, requestStop_of_none hw]
      exact ⟨rfl, Nat.le_refl _⟩
    | some worker =>
      rw [Act.apply, requestStop_of_some (by simp [hw])]
      exact ⟨rfl, Nat.le_refl _⟩
  | takeBack =>
    by_cases hkept : d.isAlive = true ∨ d.worker = none
    · rw [Act.apply, takeBack_of_kept hkept]
      exact ⟨h, Nat.le_refl _⟩
    · rw [not_or, Bool.not_eq_true] at hkept
      obtain ⟨console, he⟩ := takeBack_of_ended hkept.1 (Option.isSome_iff_ne_none.mpr hkept.2)
      rw [Act.apply, he]
      exact ⟨h, Nat.le_add_right _ _⟩
  | elapse nanoseconds => exact ⟨h, Nat.le_refl _⟩
  | outside x => exact ⟨h, Nat.le_refl _⟩

theorem executed_after (h : d.control.kill = true) (change : α → τ → τ) {acts : List (Act α)}
    (hacts : ∀ act ∈ acts, act.isStart = false) :
    (d.after change acts).control.executed ≤ d.control.executed + d.pending := by
  induction acts generalizing d with
  | nil => exact Nat.le_add_right _ _
  | cons act acts ih =>
    obtain ⟨hact, hrest⟩ := List.forall_mem_cons.mp hacts
    obtain ⟨hnext, hle⟩ := executed_act h change hact
    exact Nat.le_trans (ih hnext hrest) hle

theorem requestStop_frame (d : Debugger config τ) : d.requestStop.control.kill = true ∧
    d.requestStop.control.executed = d.control.executed ∧ d.requestStop.pending = d.pending := by
  cases hw : d.worker with
  | none =>
    rw [requestStop_of_none hw]
    exact ⟨rfl, rfl, rfl⟩
  | some worker =>
    rw [requestStop_of_some (by simp [hw])]
    exact ⟨rfl, rfl, rfl⟩

theorem stop_fst (d : Debugger config τ) : d.stop.1 = d.stop.2.control.report := by
  cases hw : d.worker <;> simp only [stop, hw]

theorem stop_executed_le (hrelease : ∀ c : τ, (Console.get? (Console.release c)).isSome)
    (d : Debugger config τ) : d.stop.2.control.executed ≤ d.control.executed + d.pending := by
  obtain ⟨hkill, hexecuted, hpending⟩ := d.requestStop_frame
  rw [stop_eq_after (fun _ : Unit => id) (stopping_ends hrelease d), ← hexecuted, ← hpending]
  exact executed_after hkill _ (by simp [Act.isStart])

theorem stop_between {phase : Phase} (h : d.worker = some (.live program m phase))
    (hphase : phase ≠ .executing) :
    d.stop.1 = some ⟨.stopped, ⟨d.clock - d.startedAt⟩⟩ ∧ d.stop.2.control.Shows m ∧
      d.stop.2.control.executed = d.control.executed := by
  have hsettled : d.stopping.settle 3 =
      finish .stopped m ⟨d.stopping.toDesk, d.stopping.console, none⟩ := by
    obtain ⟨desk, c, worker⟩ := d
    cases h
    cases phase with
    | boundary => exact settle_killed_boundary_eq rfl 2
    | executing => exact (hphase rfl).elim
    | asleep deadline => exact settle_killed_asleep_eq rfl deadline 1
  obtain ⟨console, hstop⟩ := stop_eq (by simp [h] : d.worker.isSome)
  rw [stop_fst, hstop, hsettled]
  exact ⟨rfl, ⟨rfl, rfl, rfl⟩, rfl⟩

/-- After its next instruction the run would have to sleep longer than the clock can show. -/
def Oversleeps (d : Debugger config τ) : Prop :=
  d.control.state ≠ .paused ∧ pauseLength config ≠ .zero ∧
    clockLimit ≤ d.clock + (pauseLength config).nanoseconds

instance (d : Debugger config τ) : Decidable d.Oversleeps :=
  inferInstanceAs (Decidable (_ ∧ _ ∧ _))

/-- After an instruction a run that must end breaks down or ends where it is. -/
theorem settle_killed_rest_eq {state : RunState} (h : d.control.kill = true)
    (hworker : d.worker = some (rest config state d.clock program m)) (n : Nat) :
    d.settle (n + 2) =
      if state ≠ .paused ∧ pauseLength config ≠ .zero ∧
          clockLimit ≤ d.clock + (pauseLength config).nanoseconds
      then { d with worker := some .crashed } else finish .stopped m d := by
  obtain ⟨desk, c, worker⟩ := d
  simp only [rest] at hworker
  split at hworker
  · next hboundary =>
    cases hworker
    rw [if_neg fun hover => hboundary.elim hover.1 hover.2.1]
    exact settle_killed_boundary_eq h (n + 1)
  · next hsleeps =>
    rw [not_or] at hsleeps
    split at hworker
    · next hclock =>
      cases hworker
      rw [if_neg fun hover => Nat.not_le.mpr hclock hover.2.2]
      exact settle_killed_asleep_eq h _ n
    · next hclock =>
      cases hworker
      rw [if_pos ⟨hsleeps.1, hsleeps.2, Nat.not_lt.mp hclock⟩, settle_of_not_alive rfl]

theorem stateAfter_got (desk : Desk config) (input : Option Char) :
    stateAfter desk (.got input) = desk.control.state := by
  simp [stateAfter]

theorem advance_stopping_blocked {d : Debugger config Buffered}
    (h : d.worker = some (.live program m .executing))
    (hblocked : m.turn program d.console = .blocked m d.console) :
    ∃ console, d.stopping.advance = (true,
      { d.stopping with
        control := { d.stopping.control with
          awaiting := false, executed := d.control.executed + 1
          index := (m.receive none).index, pointer := (m.receive none).pointer
          tape := if d.control.state = .paused then (m.receive none).tape else d.control.tape }
        console
        worker := some (rest config d.control.state d.clock program (m.receive none)) }) := by
  obtain ⟨desk, c, worker⟩ := d
  cases h
  obtain ⟨console, he⟩ := completeInstruction_eq
    { desk with control := { desk.control with kill := true } } program m.index (.got none)
    (m.receive none) (Console.release c)
  refine ⟨console, ?_⟩
  simp only [stopping, advance, carryOut, Machine.turn_release hblocked, he, stateAfter_got]

theorem stop_blocked {d : Debugger config Buffered} (h : Underway d.toDesk program m .executing)
    (hworker : d.worker = some (.live program m .executing))
    (hblocked : m.turn program d.console = .blocked m d.console) :
    d.stop.2.control.executed = d.control.executed + 1 ∧
    d.stop.2.control.index = (m.receive none).index ∧
    d.stop.2.control.pointer = (m.receive none).pointer ∧
    (¬ d.Oversleeps → d.stop.1 = some ⟨.stopped, ⟨d.clock - d.startedAt⟩⟩ ∧
      d.stop.2.control.tape = (m.receive none).tape) ∧
    (d.Oversleeps → d.stop.1 = none) := by
  obtain ⟨console, hstop⟩ := stop_eq (by simp [hworker] : d.worker.isSome)
  obtain ⟨console', hread⟩ := advance_stopping_blocked hworker hblocked
  have hsettled := (settle_succ hread).trans (settle_killed_rest_eq rfl rfl 0)
  rw [stop_fst, hstop]
  by_cases hover : d.Oversleeps
  · rw [hsettled.trans (if_pos hover)]
    exact ⟨rfl, rfl, rfl, fun hnot => (hnot hover).elim, fun _ => h.report⟩
  · rw [hsettled.trans (if_neg hover)]
    exact ⟨rfl, rfl, rfl, fun _ => ⟨rfl, rfl⟩, fun hyes => (hover hyes).elim⟩

end Debugger

/-- A signal to stop cuts a run at the next boundary. In a session or a debugger only the
instruction that was begun is carried out after it. A read that waits stores zero, and the run is
stopped after it, unless the clock cannot show the end of its pause. -/
theorem kill_cuts_at_boundary (config : DebugConfig) :
    (∀ {program : Program} {kill : Progress → Bool} {n : Nat} {progress progress' : Progress}
      {c c' : Buffered} {m : Machine config.machine.width},
      interpret config.machine program never n progress c = ⟨.unfinished, m, c', progress'⟩ →
      (∀ k < n, kill (interpret config.machine program never k progress c).progress = false) →
      kill progress' = true → ∀ fuel, n < fuel →
      ∃ console, console.text = c'.text ∧ console.input = c'.input ∧
        interpret config.machine program kill fuel progress c =
          ⟨.ended .stopped, m, console, progress'⟩) ∧
    (∀ s : Session config.machine Buffered,
      (∀ {α : Type} (change : α → Buffered → Buffered) (acts : List (Session.Act α)),
        (∀ act ∈ acts, act.isStart = false) →
        s.requestStop.carriedOut change acts ≤ s.pending) ∧
      (∀ program m, s.worker = some (.atBoundary program m) →
        s.stop.1 = some ⟨.stopped, s.elapsed⟩ ∧ s.stop.2.console.text = s.console.text ∧
          s.stop.2.console.input.chars = s.console.input.chars) ∧
      ∀ program m, s.worker = some (.executing program m) →
        m.turn program s.console = .blocked m s.console →
        s.requestStop.advance.2.worker = some (.atBoundary program (m.receive none)) ∧
          (m.receive none).memory.current? = some .zero ∧
          s.stop.1 = some ⟨.stopped, s.elapsed⟩) ∧
    ∀ {α : Type} {change : α → Buffered → Buffered} {c : Buffered} {pause : Duration}
      {seen : Debugger.Observed config.machine.width} {d : Debugger config Buffered},
      config.throttle = .ok pause → Debugger.History change c seen d →
      (∀ {β : Type} (change' : β → Buffered → Buffered) (acts : List (Debugger.Act β)),
        (∀ act ∈ acts, act.isStart = false) →
        (d.requestStop.after change' acts).control.executed ≤ d.control.executed + d.pending) ∧
      d.stop.2.control.executed ≤ d.control.executed + d.pending ∧
      (d.control.parked = true → d.pending = 0) ∧
      (∀ program m phase, d.worker = some (.live program m phase) → phase ≠ .executing →
        d.stop.1 = some ⟨.stopped, ⟨d.clock - d.startedAt⟩⟩ ∧ d.stop.2.control.Shows m ∧
          d.stop.2.control.executed = d.control.executed) ∧
      ∀ program m, d.worker = some (.live program m .executing) →
        m.turn program d.console = .blocked m d.console →
        (m.receive none).memory.current? = some .zero ∧
        d.stop.2.control.executed = d.control.executed + 1 ∧
        d.stop.2.control.index = (m.receive none).index ∧
        d.stop.2.control.pointer = (m.receive none).pointer ∧
        (¬ d.Oversleeps → d.stop.1 = some ⟨.stopped, ⟨d.clock - d.startedAt⟩⟩ ∧
          d.stop.2.control.tape = (m.receive none).tape) ∧
        (d.Oversleeps → d.stop.1 = none) := by
  refine ⟨?_, ?_, ?_⟩
  · intro program kill n progress progress' c c' m h hbefore hraised fuel hfuel
    exact ⟨_, Buffered.text_message _ c', rfl, interpret_killed h hbefore hraised hfuel⟩
  · intro s
    refine ⟨fun change acts hacts => ?_, fun program m => Session.stop_atBoundary, ?_⟩
    · rw [← s.pending_requestStop]
      exact s.closing_requestStop.carriedOut_le change hacts
    · intro program m hworker hblocked
      obtain ⟨hread, hreport⟩ := Session.stop_blocked hworker hblocked
      have hzero := Machine.current_receive_none (Machine.onTape_of_blocked hblocked)
      exact ⟨hread, hzero, hreport⟩
  · intro α change c pause seen d hthrottle h
    have hc := h.coherent (fun _ _ => rfl) hthrottle
    refine ⟨?_, Debugger.stop_executed_le (fun _ => rfl) d, hc.pending_of_parked,
      fun program m phase => Debugger.stop_between, ?_⟩
    · intro β change' acts hacts
      obtain ⟨hkill, hexecuted, hpending⟩ := d.requestStop_frame
      rw [← hexecuted, ← hpending]
      exact Debugger.executed_after hkill change' hacts
    · intro program m hworker hblocked
      rw [hworker] at hc
      have hzero := Machine.current_receive_none (Machine.onTape_of_blocked hblocked)
      exact ⟨hzero, Debugger.stop_blocked hc.underway.2 hworker hblocked⟩

/-- A signal that is seen at the end of a program, and stops of a session and of a debugger in which
a read waits behind the cell that was written before. -/
theorem kill_cuts_at_boundary_waiting_read :
    (∃ console : Buffered, ∃ m : Machine .eight, console.text = "\x01" ∧
      m.step ⟨#[.op (.add 1), .op .output]⟩ = .halt m ∧
      interpret { tapeSize := 2 } ⟨#[.op (.add 1), .op .output]⟩
        (fun progress => progress.instructions == 2) 7 {} {} =
        ⟨.ended .stopped, m, console, ⟨2, 0, 1⟩⟩) ∧
    (∃ s : Session { tapeSize := 2 } Buffered, s.isAlive = true ∧ s.advance.1 = false ∧
      s.stop.1 = some ⟨.stopped, s.elapsed⟩ ∧
      s.requestStop.carriedOut Buffered.Call.apply
        [.advance, .outside (.push "a"), .advance, .advance] ≤ 1) ∧
    ∃ d : Debugger { machine := { tapeSize := 2 } } Buffered, d.isAlive = true ∧
      d.advance.1 = false ∧ d.control.executed = 1 ∧ d.stop.2.control.executed = 2 ∧
      d.stop.1 = some ⟨.stopped, ⟨d.clock - d.startedAt⟩⟩ ∧
      d.stop.2.control.tape.get? 0 = some .zero := by
  refine ⟨?_, ?_, ?_⟩
  · let kill : Progress → Bool := fun progress => progress.instructions == 2
    let run (n : Nat) : Outcome .eight Buffered :=
      interpret { tapeSize := 2 } ⟨#[.op (.add 1), .op .output]⟩ never n {} {}
    have hbefore : ∀ k < 2, kill (run k).progress = false := by decide +kernel
    obtain ⟨console, htext, -, he⟩ := (kill_cuts_at_boundary { machine := { tapeSize := 2 } }).1
      (rfl : run 2 = ⟨.unfinished, (run 2).machine, (run 2).console, ⟨2, 0, 1⟩⟩) hbefore rfl 7
      (by decide)
    exact ⟨console, _, htext, rfl, he⟩
  · let s : Session { tapeSize := 2 } Buffered :=
      (Session.start "+," { console := {} }).2.advance.2.advance.2.advance.2
    obtain ⟨hbound, -, hread⟩ := (kill_cuts_at_boundary { machine := { tapeSize := 2 } }).2.1 s
    refine ⟨s, rfl, rfl, (hread _ _ rfl rfl).2.2, hbound _ _ ?_⟩
    decide
  · let new : Debugger { machine := { tapeSize := 2 } } Buffered := .new 0 {}
    have hnew : Debugger.History Buffered.Call.apply {} {} new := .new rfl
    have hwaits := hnew.after [.start "+," none, .advance, .advance, .advance]
    obtain ⟨-, -, -, -, hread⟩ := (kill_cuts_at_boundary _).2.2 rfl hwaits
    obtain ⟨hzero, hexecuted, -, -, hstops, -⟩ := hread _ _ rfl rfl
    obtain ⟨hreport, htape⟩ := hstops (by decide +kernel)
    refine ⟨_, by decide +kernel, by decide +kernel, by decide +kernel, hexecuted, hreport, ?_⟩
    rw [htape]
    exact hzero

/-- A read that waits in a run with endless pauses: the stop completes it, but the run breaks down,
with no report and the tape from before the read on show. -/
theorem stopped_read_overslept :
    ∃ seen, ∃ d : Debugger { endlessPauses with pauseOnStart := true } Buffered,
      Debugger.History Buffered.Call.apply {} seen d ∧ d.isAlive = true ∧
      d.control.awaiting = true ∧ d.advance.1 = false ∧ d.control.executed = 1 ∧
      d.stop.2.control.executed = 2 ∧ d.stop.2.control.index = 2 ∧ d.stop.1 = none ∧
      d.stop.2.control.report = none ∧ d.stop.2.control.tape.get? 0 ≠ some .zero := by
  let new : Debugger { endlessPauses with pauseOnStart := true } Buffered := .new 0 {}
  have hnew : Debugger.History Buffered.Call.apply {} {} new := .new rfl
  have hwaits := hnew.after [.start "+," none, .advance, .call .allow, .advance, .advance, .advance,
    .call .resume, .advance]
  refine ⟨_, _, hwaits, ?_⟩
  decide +kernel

end TapeLang
