import TapeLang.Debugger.Calls
import TapeLang.Proofs.Operation

/-! # What can be done to a debugger

Its caller's calls, the moves of its run, changes to its console from outside, and time that passes.
A step and a stop wait for the run, so they are made of acts with moves of the run between them. An
observer who watches the acts knows what became of the run started last.
-/

namespace TapeLang

/-- The state of a run under way. -/
def RunState.isActive : RunState → Bool
  | .running | .paused => true
  | .idle | .stopped => false

theorem RunState.isActive_iff {state : RunState} :
    state.isActive = true ↔ state = .running ∨ state = .paused := by
  cases state <;> decide

theorem RunState.isActive_eq_false_iff {state : RunState} :
    state.isActive = false ↔ state = .idle ∨ state = .stopped := by
  cases state <;> decide

namespace Debugger

variable {config : DebugConfig} {τ α : Type} {d d' : Debugger config τ} {desk : Desk config}
  {program : Program} {m : Machine config.machine.width} {phase : Phase}

theorem isAlive_iff :
    d.isAlive = true ↔ ∃ program m phase, d.worker = some (.live program m phase) := by
  obtain ⟨desk, c, _ | ⟨program, m, phase⟩ | _ | _⟩ := d <;> simp [isAlive]

theorem eq_new_of_allocate {clock : Nat} {c : τ} (h : Debugger.allocate clock c = .ok d) :
    d = .new clock c := by
  simp only [Debugger.allocate] at h
  split at h <;> cases h
  rfl

/-- A call that leaves the run in place. To allow an instruction is what a step does once it need
not wait for the run any longer. -/
inductive Request
  | pause
  | resume
  | allow
  | setBreakpoints (enabled : Bool)

def Request.apply : Request → Debugger config τ → Debugger config τ
  | .pause, d => d.pause.2
  | .resume, d => d.resume.2
  | .allow, d => d.allow
  | .setBreakpoints enabled, d => d.setBreakpoints enabled

theorem Request.apply_eq (request : Request) (d : Debugger config τ) :
    ∃ state permit pausing breakpoints, request.apply d =
      { d with
        control := { d.control with state, permit, breakpoints := pausing }
        breakpoints } := by
  cases request with
  | setBreakpoints enabled => exact ⟨d.control.state, d.control.permit, enabled, enabled, rfl⟩
  | pause =>
    simp only [apply, Debugger.pause]
    split
    · exact ⟨.paused, d.control.permit, d.control.breakpoints, d.breakpoints, rfl⟩
    · exact ⟨d.control.state, d.control.permit, d.control.breakpoints, d.breakpoints, rfl⟩
  | resume =>
    simp only [apply, Debugger.resume]
    split
    · exact ⟨.running, false, d.control.breakpoints, d.breakpoints, rfl⟩
    · exact ⟨d.control.state, d.control.permit, d.control.breakpoints, d.breakpoints, rfl⟩
  | allow =>
    simp only [apply, Debugger.allow]
    split
    · exact ⟨d.control.state, true, d.control.breakpoints, d.breakpoints, rfl⟩
    · exact ⟨d.control.state, d.control.permit, d.control.breakpoints, d.breakpoints, rfl⟩

theorem Request.isActive_apply (request : Request) (d : Debugger config τ) :
    (request.apply d).control.state.isActive = d.control.state.isActive := by
  cases request with
  | setBreakpoints enabled => rfl
  | pause =>
    simp only [apply, Debugger.pause]
    split
    · next hstate => simp [hstate, RunState.isActive]
    · rfl
  | resume =>
    simp only [apply, Debugger.resume]
    split
    · next hstate => simp [hstate, RunState.isActive]
    · rfl
  | allow =>
    simp only [apply, Debugger.allow]
    split <;> rfl

/-- A permission that stands after a request stood before, or is for a parked run. -/
theorem Request.permit_apply {request : Request} (h : (request.apply d).control.permit = true) :
    d.control.permit = true ∧
        (d.control.state = .paused → (request.apply d).control.state = .paused) ∨
      d.control.parked = true ∧ (request.apply d).control.state = .paused := by
  cases request with
  | setBreakpoints enabled => exact Or.inl ⟨h, id⟩
  | pause =>
    simp only [apply, Debugger.pause] at h ⊢
    split at h
    · next hrunning => exact Or.inl ⟨h, fun _ => by rw [if_pos hrunning]⟩
    · next hrunning => exact Or.inl ⟨h, fun hpaused => by rw [if_neg hrunning]; exact hpaused⟩
  | resume =>
    simp only [apply, Debugger.resume] at h ⊢
    split at h
    · cases h
    · next hpaused => exact Or.inl ⟨h, fun hfalse => (hpaused hfalse).elim⟩
  | allow =>
    simp only [apply, Debugger.allow] at h ⊢
    split at h
    · next hallowed =>
      rw [if_pos hallowed]
      exact Or.inr ⟨hallowed.2.1, hallowed.1⟩
    · next hkept =>
      rw [if_neg hkept]
      exact Or.inl ⟨h, id⟩

theorem allow_of_parked (hpaused : d.control.state = .paused) (hparked : d.control.parked = true)
    (hawaiting : d.control.awaiting = false) :
    d.allow = { d with control := { d.control with permit := true } } := by
  have hallowed : d.control.state = .paused ∧ d.control.parked = true ∧
      d.control.awaiting = false := ⟨hpaused, hparked, hawaiting⟩
  simp only [allow, if_pos hallowed]

variable [Console τ]

/-- A debugger that waits for its run to end. -/
def stopping (d : Debugger config τ) : Debugger config τ :=
  { d with
    control := { d.control with kill := true }
    console := Console.release d.console }

/-- The first half of a stop: the run is asked to end. Without a run there is no second half. -/
def requestStop (d : Debugger config τ) : Debugger config τ :=
  match d.worker with
  | none => { d with control := { d.control with kill := true, state := .stopped } }
  | some _ => d.stopping

/-- The second half of a stop: the run is taken back, once it has ended. -/
def takeBack (d : Debugger config τ) : Debugger config τ :=
  if d.isAlive ∨ d.worker.isNone then d
  else
    let console := match d.worker with
      | some .crashed => Console.note .debugCrashed d.console
      | _ => d.console
    { d with
      console := Console.note .debugStopped console
      control := { d.control with state := .stopped }
      worker := none }

inductive Act (α : Type)
  /-- The system may refuse the run a thread for some reason. -/
  | start (source : String) (refusal : Option String)
  | advance
  | call (request : Request)
  | requestStop
  | takeBack
  | elapse (nanoseconds : Nat)
  | outside (change : α)

/-- `change` says what is done to the console from outside. -/
def Act.apply (change : α → τ → τ) : Act α → Debugger config τ → Debugger config τ
  | .start source refusal, d => (d.start source refusal).2
  | .advance, d => d.advance.2
  | .call request, d => request.apply d
  | .requestStop, d => d.requestStop
  | .takeBack, d => d.takeBack
  | .elapse nanoseconds, d => { d with clock := d.clock + nanoseconds }
  | .outside x, d => { d with console := change x d.console }

def after (change : α → τ → τ) (acts : List (Act α)) (d : Debugger config τ) :
    Debugger config τ :=
  acts.foldl (fun d act => act.apply change d) d

theorem after_append (change : α → τ → τ) (acts acts' : List (Act α)) (d : Debugger config τ) :
    d.after change (acts ++ acts') = (d.after change acts).after change acts' :=
  List.foldl_append

theorem requestStop_of_none (h : d.worker = none) :
    d.requestStop = { d with control := { d.control with kill := true, state := .stopped } } := by
  simp only [requestStop, h]

theorem requestStop_of_some (h : d.worker.isSome) : d.requestStop = d.stopping := by
  obtain ⟨worker, hw⟩ := Option.isSome_iff_exists.mp h
  simp only [requestStop, hw]

theorem takeBack_of_ended (hended : d.isAlive = false) (hworker : d.worker.isSome) :
    ∃ console, d.takeBack =
      { d with console, control := { d.control with state := .stopped }, worker := none } := by
  have htaken : ¬ (d.isAlive = true ∨ d.worker.isNone = true) := by
    simp [hended, Option.isSome_iff_ne_none.mp hworker]
  simp only [takeBack, if_neg htaken]
  exact ⟨_, rfl⟩

theorem takeBack_of_kept (h : d.isAlive = true ∨ d.worker = none) : d.takeBack = d := by
  have hkept : d.isAlive = true ∨ d.worker.isNone = true := by simpa using h
  simp only [takeBack, if_pos hkept]

/-- What a start does before it asks for a thread. -/
def readied (source : String) (program : Program) (d : Debugger config τ) : Debugger config τ :=
  let console := Console.noteAll (compileNotes config.passes source (.ok program)) d.console
  let console := if d.program.isSome then Console.reset console else console
  { d with
    console := Console.note (.debugStarted config.machine.width program.size) console
    control := .fresh (if config.pauseOnStart then .paused else .running) d.breakpoints
      config.machine.tapeSize
    program := some program
    worker := none
    startedAt := d.clock }

/-- What a start that gets its thread leaves: the run is about to begin. -/
def launched (source : String) (program : Program) (d : Debugger config τ) : Debugger config τ :=
  { d.readied source program with
    worker := some (.live program (.new config.machine.tapeSize .fatal) .boundary) }

/-- What a start can come to. -/
inductive Started (source : String) (refusal : Option String) (d : Debugger config τ) :
    Reply → Debugger config τ → Prop
  | active : d.control.state.isActive = true →
      Started source refusal d (.refused .alreadyRunning) d
  | uncompiled {e : CompileError} : d.control.state.isActive = false →
      compile config.passes source = .error e →
      Started source refusal d (.refused (.compile e)) { d with
        console := Console.error (ControlError.compile e).message
          (Console.noteAll (compileNotes config.passes source (.error e)) d.console)
        control := { d.control with state := .idle } }
  | overflowed {program : Program} {defect : Defect} : d.control.state.isActive = false →
      compile config.passes source = .ok program → config.throttle = .error defect →
      Started source refusal d (.crashed defect) (d.readied source program)
  | unthreaded {program : Program} {pause : Duration} {reason : String} :
      d.control.state.isActive = false → compile config.passes source = .ok program →
      config.throttle = .ok pause → refusal = some reason →
      Started source refusal d (.refused (.spawn reason)) { d.readied source program with
        control := .fresh .idle d.breakpoints config.machine.tapeSize }
  | threaded {program : Program} {pause : Duration} : d.control.state.isActive = false →
      compile config.passes source = .ok program → config.throttle = .ok pause →
      refusal = none → Started source refusal d .ok (d.launched source program)

theorem started (source : String) (refusal : Option String) (d : Debugger config τ) :
    Started source refusal d (d.start source refusal).1 (d.start source refusal).2 := by
  unfold start
  split
  · next hactive => exact .active (RunState.isActive_iff.mpr hactive)
  · next hinactive =>
    rw [← RunState.isActive_iff, Bool.not_eq_true] at hinactive
    cases hcompile : compile config.passes source with
    | error e => exact .uncompiled hinactive hcompile
    | ok program =>
      cases hthrottle : config.throttle with
      | error defect => exact .overflowed hinactive hcompile hthrottle
      | ok pause =>
        cases refusal with
        | none => exact .threaded hinactive hcompile hthrottle rfl
        | some reason => exact .unthreaded hinactive hcompile hthrottle rfl

theorem start_of_active (h : d.control.state.isActive = true) (source : String)
    (refusal : Option String) : d.start source refusal = (.refused .alreadyRunning, d) := by
  unfold start
  rw [if_pos (RunState.isActive_iff.mp h)]

theorem start_of_error {source : String} {e : CompileError}
    (hinactive : d.control.state.isActive = false)
    (he : compile config.passes source = .error e) (refusal : Option String) :
    d.start source refusal = (.refused (.compile e), { d with
      console := Console.error (ControlError.compile e).message
        (Console.noteAll (compileNotes config.passes source (.error e)) d.console)
      control := { d.control with state := .idle } }) := by
  have hstart : ¬ (d.control.state = .running ∨ d.control.state = .paused) := by
    rw [← RunState.isActive_iff, hinactive]
    exact Bool.false_ne_true
  simp only [start, if_neg hstart, he]

theorem start_of_ready {source : String} {pause : Duration}
    (hinactive : d.control.state.isActive = false)
    (hcompile : compile config.passes source = .ok program)
    (hthrottle : config.throttle = .ok pause) :
    d.start source = (.ok, d.launched source program) := by
  have hstart : ¬ (d.control.state = .running ∨ d.control.state = .paused) := by
    rw [← RunState.isActive_iff, hinactive]
    exact Bool.false_ne_true
  simp only [start, if_neg hstart, hcompile, hthrottle]
  rfl

/-- The state after an instruction: a breakpoint pauses the run. -/
def stateAfter (desk : Desk config) (event : Event) : RunState :=
  if event = .breakpoint ∧ desk.control.breakpoints = true then .paused else desk.control.state

theorem stateAfter_isActive (h : desk.control.state.isActive = true) (event : Event) :
    (stateAfter desk event).isActive = true := by
  unfold stateAfter
  split
  · rfl
  · exact h

theorem stateAfter_of_paused (h : desk.control.state = .paused) (event : Event) :
    stateAfter desk event = .paused := by
  unfold stateAfter
  split
  · rfl
  · exact h

/-- What an instruction leaves on show: the new position, and the new tape if the run is paused. -/
theorem completeInstruction_eq (desk : Desk config) (program : Program) (index : Nat)
    (event : Event) (m : Machine config.machine.width) (c : τ) :
    ∃ console, completeInstruction desk program index event m c =
      { desk with
        control := { desk.control with
          state := stateAfter desk event, awaiting := false
          executed := desk.control.executed + 1, index := m.index, pointer := m.pointer
          tape := if stateAfter desk event = .paused then m.tape else desk.control.tape }
        console
        worker := some (rest config (stateAfter desk event) desk.clock program m) } := by
  refine ⟨(completeInstruction desk program index event m c).console, ?_⟩
  by_cases hpaused : stateAfter desk event = .paused
  · rw [if_pos hpaused]
    unfold stateAfter at hpaused
    simp only [completeInstruction, if_pos hpaused]
    rfl
  · rw [if_neg hpaused]
    unfold stateAfter at hpaused
    simp only [completeInstruction, if_neg hpaused]
    rfl

theorem rest_cases (state : RunState) (clock : Nat) (program : Program)
    (m : Machine config.machine.width) :
    (∃ phase, rest config state clock program m = .live program m phase) ∨
      rest config state clock program m = .crashed := by
  simp only [rest]
  split
  · exact Or.inl ⟨_, rfl⟩
  · split
    · exact Or.inl ⟨_, rfl⟩
    · exact Or.inr rfl

/-- What a move of a run can come to; a run that can make no move stays as it is. -/
inductive Advanced (desk : Desk config) (c : τ) (program : Program)
    (m : Machine config.machine.width) : Phase → Bool × Debugger config τ → Prop
  | waits : desk.control.kill = false → desk.control.state = .paused →
      desk.control.permit = false → desk.control.parked = true →
      Advanced desk c program m .boundary (false, ⟨desk, c, some (.live program m .boundary)⟩)
  | begins {permit : Bool} : desk.control.kill = false →
      desk.control.state = .paused ∧ desk.control.permit = true ∧ permit = false ∨
        desk.control.state ≠ .paused ∧ permit = desk.control.permit →
      Advanced desk c program m .boundary
        (true, beginInstruction program m { desk.control with permit }
          ⟨desk, c, some (.live program m .boundary)⟩)
  | parks : desk.control.kill = false → desk.control.state = .paused →
      desk.control.permit = false → desk.control.parked = false →
      Advanced desk c program m .boundary
        (true, ⟨{ desk with control := { desk.control.publish m with parked := true } }, c,
          some (.live program m .boundary)⟩)
  | stopped : desk.control.kill = true →
      Advanced desk c program m .boundary
        (true, finish .stopped m ⟨desk, c, some (.live program m .boundary)⟩)
  | sleeps {deadline : Nat} : desk.control.kill = false → desk.control.state = .running →
      desk.clock < deadline → Advanced desk c program m (.asleep deadline)
        (false, ⟨desk, c, some (.live program m (.asleep deadline))⟩)
  | wakes {deadline : Nat} : Advanced desk c program m (.asleep deadline)
      (true, ⟨desk, c, some (.live program m .boundary)⟩)
  | blocked : m.turn program c = .blocked m c →
      Advanced desk c program m .executing (false, ⟨desk, c, some (.live program m .executing)⟩)
  | moved {event : Event} {m' : Machine config.machine.width} {c' : τ} :
      m.turn program c = .moved event m' c' →
      Advanced desk c program m .executing
        (true, completeInstruction desk program m.index event m' c')
  | halted {m' : Machine config.machine.width} {c' : τ} : m.turn program c = .halted m' c' →
      Advanced desk c program m .executing (true, finish .completed m' ⟨desk, c', none⟩)
  | faulted {e : BoundsError} {m' : Machine config.machine.width} {c' : τ} :
      m.turn program c = .faulted e m' c' →
      Advanced desk c program m .executing (true, finish (.failed e) m'
        ⟨desk, Console.error e.message (Console.note (.debugFault e) c'), none⟩)
  | crashed {defect : Defect} {m' : Machine config.machine.width} {c' : τ} :
      m.turn program c = .crashed defect m' c' →
      Advanced desk c program m .executing (true, ⟨desk, c', some .crashed⟩)

theorem advanced (desk : Desk config) (c : τ) (program : Program)
    (m : Machine config.machine.width) (phase : Phase) :
    Advanced desk c program m phase (advance ⟨desk, c, some (.live program m phase)⟩) := by
  cases phase with
  | boundary =>
    simp only [advance, passBoundary]
    split
    · next hkill => exact .stopped hkill
    · next hkill =>
      have hspared := Bool.eq_false_iff.mpr hkill
      split
      · next hpaused =>
        split
        · next hpermit => exact .begins hspared (Or.inl ⟨hpaused, hpermit, rfl⟩)
        · next hpermit =>
          split
          · next hparked => exact .waits hspared hpaused (Bool.eq_false_iff.mpr hpermit) hparked
          · next hparked =>
            exact .parks hspared hpaused (Bool.eq_false_iff.mpr hpermit)
              (Bool.eq_false_iff.mpr hparked)
      · next hrunning => exact .begins hspared (Or.inr ⟨hrunning, rfl⟩)
  | executing =>
    simp only [advance, carryOut]
    split
    · next ht => exact .moved ht
    · next ht =>
      obtain ⟨-, -, rfl, rfl⟩ := Machine.turn_eq_blocked ht
      exact .blocked ht
    · next ht => exact .halted ht
    · next ht => exact .faulted ht
    · next ht => exact .crashed ht
  | asleep deadline =>
    simp only [advance]
    split
    · exact .wakes
    · next hasleep =>
      simp only [not_or, Bool.not_eq_true, ne_eq, Decidable.not_not, Nat.not_le] at hasleep
      exact .sleeps hasleep.1 hasleep.2.1 hasleep.2.2

theorem advance_executing {c : τ} :
    advance ⟨desk, c, some (.live program m .executing)⟩ = carryOut desk program m c := rfl

theorem advance_killed {c : τ} (h : desk.control.kill = true) :
    advance ⟨desk, c, some (.live program m .boundary)⟩ =
      (true, finish .stopped m ⟨desk, c, some (.live program m .boundary)⟩) := by
  simp only [advance, passBoundary, if_pos h]

theorem advance_of_not_alive (h : d.isAlive = false) : d.advance = (false, d) := by
  obtain ⟨desk, c, _ | ⟨program, m, phase⟩ | _ | _⟩ := d
  · rfl
  · cases h
  · rfl
  · rfl

theorem advance_of_stuck (h : d.advance.1 = false) : d.advance.2 = d := by
  obtain ⟨desk, c, _ | ⟨program, m, phase⟩ | _ | _⟩ := d
  · rfl
  · have hadvanced := advanced desk c program m phase
    generalize advance ⟨desk, c, some (.live program m phase)⟩ = answer at h hadvanced ⊢
    cases hadvanced with
    | waits | sleeps | blocked => rfl
    | _ => cases h
  · rfl
  · rfl

theorem isSome_advance (h : d.worker.isSome) : d.advance.2.worker.isSome := by
  obtain ⟨desk, c, _ | ⟨program, m, phase⟩ | _ | _⟩ := d
  · cases h
  · have hadvanced := advanced desk c program m phase
    generalize advance ⟨desk, c, some (.live program m phase)⟩ = answer at hadvanced ⊢
    cases hadvanced <;> rfl
  · rfl
  · rfl

theorem advance_keeps (d : Debugger config τ) :
    d.advance.2.program = d.program ∧ d.advance.2.clock = d.clock ∧
      d.advance.2.breakpoints = d.breakpoints ∧
      d.advance.2.control.breakpoints = d.control.breakpoints := by
  obtain ⟨desk, c, _ | ⟨program, m, phase⟩ | _ | _⟩ := d
  · exact ⟨rfl, rfl, rfl, rfl⟩
  · have hadvanced := advanced desk c program m phase
    generalize advance ⟨desk, c, some (.live program m phase)⟩ = answer at hadvanced ⊢
    cases hadvanced with
    | @moved event m' c' =>
      obtain ⟨console, he⟩ := completeInstruction_eq desk program m.index event m' c'
      rw [he]
      exact ⟨rfl, rfl, rfl, rfl⟩
    | _ => exact ⟨rfl, rfl, rfl, rfl⟩
  · exact ⟨rfl, rfl, rfl, rfl⟩
  · exact ⟨rfl, rfl, rfl, rfl⟩

theorem settle_succ {n : Nat} (h : d.advance = (true, d')) : d.settle (n + 1) = d'.settle n := by
  simp only [settle, h]

theorem settle_of_stuck (h : d.advance.1 = false) (n : Nat) : d.settle n = d := by
  cases n with
  | zero => rfl
  | succ n =>
    have he : d.advance = (false, d) := Prod.ext h (advance_of_stuck h)
    simp only [settle, he]

theorem settle_of_not_alive (h : d.isAlive = false) (n : Nat) : d.settle n = d :=
  settle_of_stuck (congrArg Prod.fst (advance_of_not_alive h)) n

theorem settle_succ_eq (d : Debugger config τ) (n : Nat) :
    d.settle (n + 1) = d.advance.2.settle n := by
  cases hmoved : d.advance.1 with
  | true => exact settle_succ (Prod.ext hmoved rfl)
  | false => rw [settle_of_stuck hmoved, advance_of_stuck hmoved, settle_of_stuck hmoved]

theorem settle_add (d : Debugger config τ) (n k : Nat) :
    d.settle (n + k) = (d.settle n).settle k := by
  induction n generalizing d with
  | zero => rw [Nat.zero_add, settle]
  | succ n ih => rw [Nat.add_right_comm, settle_succ_eq, settle_succ_eq, ih]

theorem isSome_settle (h : d.worker.isSome) (n : Nat) : (d.settle n).worker.isSome := by
  induction n generalizing d with
  | zero => exact h
  | succ n ih =>
    rw [settle_succ_eq]
    exact ih (isSome_advance h)

theorem settle_eq_after (change : α → τ → τ) (n : Nat) (d : Debugger config τ) :
    d.settle n = d.after change (List.replicate n .advance) := by
  induction n generalizing d with
  | zero => rfl
  | succ n ih =>
    rw [List.replicate_succ, settle_succ_eq, ih]
    rfl

theorem waitFor_eq_settle (goal : Debugger config τ → Bool) (fuel : Nat) (d : Debugger config τ) :
    ∃ n ≤ fuel, d.waitFor goal fuel = d.settle n := by
  induction fuel generalizing d with
  | zero => exact ⟨0, Nat.le_refl 0, rfl⟩
  | succ fuel ih =>
    unfold waitFor
    split
    · exact ⟨0, Nat.zero_le _, rfl⟩
    · split
      · next d' he =>
        obtain ⟨n, hn, hsettle⟩ := ih d'
        exact ⟨n + 1, Nat.succ_le_succ hn, hsettle.trans (settle_succ he).symm⟩
      · next d' he => exact ⟨1, Nat.le_add_left 1 fuel, by simp only [settle, he]⟩

theorem waitFor_of_goal {goal : Debugger config τ → Bool} (h : goal d = true) (fuel : Nat) :
    d.waitFor goal fuel = d := by
  cases fuel with
  | zero => rfl
  | succ fuel => simp only [waitFor, if_pos h]

theorem waitFor_of_moved {goal : Debugger config τ → Bool} {fuel : Nat} (h : goal d = false)
    (he : d.advance = (true, d')) : d.waitFor goal (fuel + 1) = d'.waitFor goal fuel := by
  simp only [waitFor, h, he, Bool.false_eq_true, if_false]

theorem step_of_not_paused (h : d.control.state ≠ .paused) :
    d.step = (.refused .notPaused, d) := by
  simp only [step, if_pos h]

/-- A step is a permission, with the moves of the run that it waits for before and after. -/
theorem step_eq_after (change : α → τ → τ) (d : Debugger config τ) :
    ∃ acts : List (Act α), (∀ act ∈ acts, act = .advance ∨ act = .call .allow) ∧
      d.step.2 = d.after change acts := by
  have hmoves (n : Nat) : ∀ act ∈ List.replicate n (Act.advance : Act α),
      act = .advance ∨ act = .call .allow :=
    fun act hact => Or.inl (List.eq_of_mem_replicate hact)
  by_cases hpaused : d.control.state = .paused
  · obtain ⟨n, -, hready⟩ := d.waitFor_eq_settle isReady 4
    have hwaited : d.waitFor isReady 4 = d.after change (List.replicate n .advance) :=
      hready.trans (settle_eq_after change n d)
    simp only [step, hpaused, ne_eq, not_true_eq_false, if_false]
    split
    · exact ⟨_, hmoves n, hwaited⟩
    · split
      · exact ⟨_, hmoves n, hwaited⟩
      · split
        · obtain ⟨k, -, hdone⟩ := (d.waitFor isReady 4).allow.waitFor_eq_settle
            (hasStepped ((d.waitFor isReady 4).control.executed + 1)) 3
          refine ⟨List.replicate n .advance ++ .call .allow :: List.replicate k .advance, ?_, ?_⟩
          · intro act hact
            rcases List.mem_append.mp hact with hact | hact
            · exact hmoves n act hact
            · rcases List.mem_cons.mp hact with rfl | hact
              · exact Or.inr rfl
              · exact hmoves k act hact
          · rw [hdone, hwaited, settle_eq_after change, after_append]
            rfl
        · exact ⟨_, hmoves n, hwaited⟩
  · exact ⟨[], by simp, by rw [step_of_not_paused hpaused]; rfl⟩

theorem stop_eq (h : d.worker.isSome) : ∃ console, d.stop.2 =
    { d.stopping.settle 3 with
      console
      control := { (d.stopping.settle 3).control with state := .stopped }
      worker := none } := by
  obtain ⟨worker, hw⟩ := Option.isSome_iff_exists.mp h
  simp only [stop, hw, Debugger.stopping]
  exact ⟨_, rfl⟩

/-- A stop is its two halves, with the moves between them that the run needs for its end. -/
theorem stop_eq_after (change : α → τ → τ) (hended : (d.stopping.settle 3).isAlive = false) :
    d.stop.2 = d.after change [.requestStop, .advance, .advance, .advance, .takeBack] := by
  have hafter : d.after change [.requestStop, .advance, .advance, .advance, .takeBack] =
      (d.requestStop.settle 3).takeBack := by
    rw [settle_eq_after change]
    rfl
  rw [hafter]
  obtain ⟨desk, c, _ | worker⟩ := d
  · rfl
  · have hworker := isSome_settle (d := stopping ⟨desk, c, some worker⟩) rfl 3
    have htaken : ¬ ((settle 3 (stopping ⟨desk, c, some worker⟩)).isAlive = true ∨
        (settle 3 (stopping ⟨desk, c, some worker⟩)).worker.isNone = true) := by
      simp [hended, Option.isSome_iff_ne_none.mp hworker]
    rw [requestStop_of_some rfl, takeBack, if_neg htaken]
    rfl

/-- What an observer knows of the runs of a debugger. -/
structure Observed (w : CellWidth) where
  /-- The machine of the run started last, as it is or as the run left it. -/
  machine : Option (Machine w) := none
  /-- The report with which that run ended. -/
  report : Option Report := none
  /-- Whether a later start was refused a thread. -/
  refused : Bool := false
  /-- What breakpoints were last set to. -/
  setting : Option Bool := none

/-- The machine that the next move of the run leaves. -/
def nextMachine? (d : Debugger config τ) : Option (Machine config.machine.width) :=
  match d.worker with
  | some (.live program m .executing) => some (m.turn program d.console).machine
  | some (.live _ m _) => some m
  | _ => none

/-- The report with which the next move of the run ends it, if it does. -/
def ending? (d : Debugger config τ) : Option Report :=
  let elapsed : Duration := ⟨d.clock - d.startedAt⟩
  match d.worker with
  | some (.live _ _ .boundary) => if d.control.kill then some ⟨.stopped, elapsed⟩ else none
  | some (.live program m .executing) =>
    match m.turn program d.console with
    | .halted .. => some ⟨.completed, elapsed⟩
    | .faulted e .. => some ⟨.failed e, elapsed⟩
    | _ => none
  | _ => none

/-- What the observer knows after an act. -/
def Act.observe (act : Act α) (d : Debugger config τ) (seen : Observed config.machine.width) :
    Observed config.machine.width :=
  match act with
  | .start source refusal =>
    match (d.start source refusal).1 with
    | .ok =>
      { seen with
        machine := some (.new config.machine.tapeSize .fatal), report := none, refused := false }
    | .refused (.spawn _) => { seen with refused := true }
    | _ => seen
  | .advance =>
    { seen with
      machine := d.nextMachine?.or seen.machine
      report := d.ending?.or seen.report }
  | .call (.setBreakpoints enabled) => { seen with setting := some enabled }
  | _ => seen

/-- What the observer knows after acts that began with `seen`. -/
def observed (change : α → τ → τ) (seen : Observed config.machine.width) :
    List (Act α) → Debugger config τ → Observed config.machine.width
  | [], _ => seen
  | act :: acts, d => observed change (act.observe d seen) acts (act.apply change d)

/-- A debugger on console `c` after any acts, and what an observer knows by then. -/
inductive History (change : α → τ → τ) (c : τ) :
    Observed config.machine.width → Debugger config τ → Prop
  | new {clock : Nat} {d : Debugger config τ} : Debugger.allocate clock c = .ok d →
      History change c {} d
  | act {seen : Observed config.machine.width} {d : Debugger config τ} (act : Act α) :
      History change c seen d → History change c (act.observe d seen) (act.apply change d)

variable {change : α → τ → τ} {c : τ} {seen : Observed config.machine.width}

theorem History.after (h : History change c seen d) (acts : List (Act α)) :
    History change c (d.observed change seen acts) (d.after change acts) := by
  induction acts generalizing seen d with
  | nil => exact h
  | cons act acts ih => exact ih (h.act act)

theorem History.step (h : History change c seen d) : ∃ seen', History change c seen' d.step.2 := by
  obtain ⟨acts, -, he⟩ := d.step_eq_after change
  rw [he]
  exact ⟨_, h.after acts⟩

theorem History.stop (h : History change c seen d)
    (hended : (d.stopping.settle 3).isAlive = false) :
    ∃ seen', History change c seen' d.stop.2 := by
  rw [stop_eq_after change hended]
  exact ⟨_, h.after _⟩

end Debugger

end TapeLang
