import TapeLang.Proofs.Acts
import TapeLang.Proofs.Sessions

/-! # Runs do not touch each other

However runs were started, stopped and waited for before, and whatever was done to the console in
between, a run begins with nothing left of the runs before it, but for the input that streams still
hold. So two runs of one program to which the same is done come to the same, in a session as in a
debugger. In a debugger they may begin at different times: only a clock that is about to run out
could tell them apart.
-/

namespace TapeLang

namespace Debugger

variable {config : DebugConfig} {τ α : Type} [Console τ] {change : α → τ → τ} {P : τ → Prop}
  {c : τ} {program : Program} {pause : Duration} {seen : Observed config.machine.width}
  {d d' : Debugger config τ} {source : String}

/-- A debugger in which a run has just begun: apart from the console and the setting for
breakpoints, nothing of a run before it is left. -/
def begun (program : Program) (console : τ) (d : Debugger config τ) : Debugger config τ :=
  { d with
    console
    control := .fresh (if config.pauseOnStart then .paused else .running) d.breakpoints
      config.machine.tapeSize
    program := some program
    worker := some (.live program (.new config.machine.tapeSize .fatal) .boundary)
    startedAt := d.clock }

/-- As long as nothing was made ready for a run, there is none and the console was not released. -/
structure Clean (P : τ → Prop) (seen : Observed config.machine.width) (d : Debugger config τ) :
    Prop where
  program : d.program.isSome = (seen.machine.isSome || seen.refused)
  untouched : d.program = none → d.worker = none ∧ P d.console

theorem Clean.start (h : Clean P seen d) (hlasting : Console.Lasting change P)
    (hthrottle : config.throttle = .ok pause) (source : String) (refusal : Option String) :
    Clean P ((Act.start source refusal : Act α).observe d seen) (d.start source refusal).2 := by
  have hstarted := started source refusal d
  simp only [Act.observe]
  generalize d.start source refusal = answer at hstarted
  obtain ⟨reply, d'⟩ := answer
  cases hstarted with
  | active => exact h
  | uncompiled hinactive hcompile =>
    exact ⟨h.program, fun hfirst => ⟨(h.untouched hfirst).1,
      hlasting.error _ (hlasting.noteAll _ (h.untouched hfirst).2)⟩⟩
  | overflowed hinactive hcompile hoverflow =>
    rw [hthrottle] at hoverflow
    cases hoverflow
  | unthreaded => exact ⟨(Bool.or_true _).symm, fun hfalse => nomatch hfalse⟩
  | threaded => exact ⟨rfl, fun hfalse => nomatch hfalse⟩

theorem Clean.advance (h : Clean P seen d) :
    Clean P ((Act.advance : Act α).observe d seen) d.advance.2 := by
  cases hprogram : d.program with
  | none =>
    obtain ⟨hworker, hc⟩ := h.untouched hprogram
    have hstays : d.advance = (false, d) := advance_of_not_alive (by simp [isAlive, hworker])
    have hnext : d.nextMachine? = none := by simp only [nextMachine?, hworker]
    refine ⟨?_, fun _ => ?_⟩
    · simp only [Act.observe, hstays, hnext, Option.none_or]
      exact h.program
    · rw [hstays]
      exact ⟨hworker, hc⟩
  | some program =>
    have hkept : d.advance.2.program = some program := (advance_keeps d).1.trans hprogram
    refine ⟨?_, fun hfirst => ?_⟩
    · have hready := h.program
      rw [hprogram, Option.isSome_some] at hready
      rw [hkept, Option.isSome_some]
      simp only [Act.observe, Option.isSome_or, Bool.or_assoc]
      rw [← hready, Bool.or_true]
    · rw [hkept] at hfirst
      cases hfirst

theorem Clean.act (h : Clean P seen d) (hlasting : Console.Lasting change P)
    (hthrottle : config.throttle = .ok pause) (act : Act α) :
    Clean P (act.observe d seen) (act.apply change d) := by
  cases act with
  | start source refusal => exact h.start hlasting hthrottle source refusal
  | advance => exact h.advance
  | elapse nanoseconds => exact ⟨h.program, h.untouched⟩
  | outside x =>
    exact ⟨h.program, fun hfirst =>
      ⟨(h.untouched hfirst).1, hlasting.change x (h.untouched hfirst).2⟩⟩
  | requestStop =>
    cases hw : d.worker with
    | none =>
      rw [Act.apply, requestStop_of_none hw]
      exact ⟨h.program, h.untouched⟩
    | some worker =>
      rw [Act.apply, requestStop_of_some (by simp [hw])]
      refine ⟨h.program, fun hfirst => ?_⟩
      rw [(h.untouched hfirst).1] at hw
      cases hw
  | takeBack =>
    by_cases hkept : d.isAlive = true ∨ d.worker = none
    · rw [Act.apply, takeBack_of_kept hkept]
      exact h
    · rw [not_or, Bool.not_eq_true] at hkept
      obtain ⟨console, he⟩ := takeBack_of_ended hkept.1 (Option.isSome_iff_ne_none.mpr hkept.2)
      rw [Act.apply, he]
      exact ⟨h.program, fun hfirst => (hkept.2 (h.untouched hfirst).1).elim⟩
  | call request =>
    obtain ⟨state, permit, pausing, breakpoints, he⟩ := request.apply_eq d
    have hbooked : Clean P seen ((Act.call request : Act α).apply change d) := by
      rw [Act.apply, he]
      exact ⟨h.program, h.untouched⟩
    cases request with
    | setBreakpoints enabled => exact ⟨hbooked.program, hbooked.untouched⟩
    | _ => exact hbooked

/-- How a run must begin: nothing tells it to end, and its machine has done nothing yet. -/
structure Begins (program : Program) (d : Debugger config τ) : Prop where
  kill : d.control.kill = false
  worker : ∃ m, d.worker = some (.live program m .boundary) ∧ m.Fresh

end Debugger

/-- The same desk at a later time. -/
def Desk.delay {config : DebugConfig} (n : Nat) (desk : Desk config) : Desk config :=
  { desk with clock := desk.clock + n, startedAt := desk.startedAt + n }

def Phase.delay (n : Nat) : Phase → Phase
  | .asleep deadline => .asleep (deadline + n)
  | phase => phase

def DebugWorker.delay {w : CellWidth} (n : Nat) : DebugWorker w → DebugWorker w
  | .live program m phase => .live program m (phase.delay n)
  | .ended => .ended
  | .crashed => .crashed

namespace Debugger

variable {config : DebugConfig} {τ α : Type} {program : Program}
  {d d' d₁ d₂ d₁' d₂' : Debugger config τ}

/-- The same debugger at a later time, on some console. -/
def delayed (n : Nat) (desk : Desk config) (worker : Option (DebugWorker config.machine.width))
    (c : τ) : Debugger config τ :=
  ⟨desk.delay n, c, worker.map (DebugWorker.delay n)⟩

/-- Two debuggers that differ in their times and their consoles only, and the consoles are related;
or whose clocks differ, and one of them cannot show the end of a pause. -/
inductive Twins (R : τ → τ → Prop) (time₁ time₂ : Nat) :
    Debugger config τ → Debugger config τ → Prop
  | alike {c₁ c₂ : τ} (desk : Desk config) (worker : Option (DebugWorker config.machine.width)) :
      R c₁ c₂ → Twins R time₁ time₂ (delayed time₁ desk worker c₁) (delayed time₂ desk worker c₂)
  | late {d₁ d₂ : Debugger config τ} : time₁ ≠ time₂ →
      clockLimit ≤ d₁.clock + (pauseLength config).nanoseconds ∨
        clockLimit ≤ d₂.clock + (pauseLength config).nanoseconds →
      Twins R time₁ time₂ d₁ d₂

variable {R : τ → τ → Prop} {time₁ time₂ : Nat} {desk : Desk config} {c₁ c₂ : τ}
  {m : Machine config.machine.width}

theorem request_delayed (request : Request) (desk : Desk config) : ∃ desk', ∀ n worker (c : τ),
    request.apply (delayed n desk worker c) = delayed n desk' worker c := by
  cases request with
  | setBreakpoints enabled =>
    exact ⟨{ desk with
      breakpoints := enabled, control := { desk.control with breakpoints := enabled } },
      fun _ _ _ => rfl⟩
  | pause =>
    by_cases hstate : desk.control.state = .running
    · refine ⟨{ desk with control := { desk.control with state := .paused } }, fun n worker c => ?_⟩
      exact congrArg Prod.snd (if_pos hstate)
    · exact ⟨desk, fun n worker c => congrArg Prod.snd (if_neg hstate)⟩
  | resume =>
    by_cases hstate : desk.control.state = .paused
    · refine ⟨{ desk with control := { desk.control with state := .running, permit := false } },
        fun n worker c => ?_⟩
      exact congrArg Prod.snd (if_pos hstate)
    · exact ⟨desk, fun n worker c => congrArg Prod.snd (if_neg hstate)⟩
  | allow =>
    by_cases hready : desk.control.state = .paused ∧ desk.control.parked = true ∧
        desk.control.awaiting = false
    · exact ⟨{ desk with control := { desk.control with permit := true } },
        fun n worker c => if_pos hready⟩
    · exact ⟨desk, fun n worker c => if_neg hready⟩

variable [Console τ] {change : α → τ → τ}

theorem Twins.finish (hlike : Console.Likeness change R) (h : R c₁ c₂) (desk : Desk config)
    (status : RunStatus) (worker₁ worker₂ : Option (DebugWorker config.machine.width)) :
    Twins R time₁ time₂ (Debugger.finish status m ⟨desk.delay time₁, c₁, worker₁⟩)
      (Debugger.finish status m ⟨desk.delay time₂, c₂, worker₂⟩) := by
  have helapsed (n : Nat) : (desk.delay n).clock - (desk.delay n).startedAt =
      desk.clock - desk.startedAt := Nat.add_sub_add_right _ _ _
  simp only [Debugger.finish, helapsed]
  exact .alike { desk with control := _ } (some .ended)
    (hlike.message _ (hlike.note _ _ h))

/-- After an instruction two runs rest alike, unless one of the clocks cannot show their pause. -/
theorem rest_delayed (state : RunState) (clock : Nat) (program : Program)
    (m : Machine config.machine.width) (time₁ time₂ : Nat) :
    (∃ worker : DebugWorker config.machine.width,
      rest config state (clock + time₁) program m = worker.delay time₁ ∧
      rest config state (clock + time₂) program m = worker.delay time₂) ∨
    time₁ ≠ time₂ ∧ (clockLimit ≤ clock + time₁ + (pauseLength config).nanoseconds ∨
      clockLimit ≤ clock + time₂ + (pauseLength config).nanoseconds) := by
  by_cases hawake : state = .paused ∨ pauseLength config = .zero
  · exact Or.inl ⟨.live program m .boundary, if_pos hawake, if_pos hawake⟩
  · by_cases h₁ : clock + time₁ + (pauseLength config).nanoseconds < clockLimit
    · by_cases h₂ : clock + time₂ + (pauseLength config).nanoseconds < clockLimit
      · refine Or.inl ⟨.live program m (.asleep (clock + (pauseLength config).nanoseconds)), ?_, ?_⟩
        · simp only [rest, if_neg hawake, if_pos h₁, DebugWorker.delay, Phase.delay,
            Nat.add_right_comm]
        · simp only [rest, if_neg hawake, if_pos h₂, DebugWorker.delay, Phase.delay,
            Nat.add_right_comm]
      · exact Or.inr ⟨by rintro rfl; exact h₂ h₁, Or.inr (Nat.le_of_not_lt h₂)⟩
    · by_cases h₂ : clock + time₂ + (pauseLength config).nanoseconds < clockLimit
      · exact Or.inr ⟨by rintro rfl; exact h₁ h₂, Or.inl (Nat.le_of_not_lt h₁)⟩
      · refine Or.inl ⟨.crashed, ?_, ?_⟩
        · simp only [rest, if_neg hawake, if_neg h₁, DebugWorker.delay]
        · simp only [rest, if_neg hawake, if_neg h₂, DebugWorker.delay]

theorem Twins.completeInstruction (hlike : Console.Likeness change R) (h : R c₁ c₂)
    (program : Program) (index : Nat) (event : Event) :
    Twins R time₁ time₂
      (Debugger.completeInstruction (desk.delay time₁) program index event m c₁)
      (Debugger.completeInstruction (desk.delay time₂) program index event m c₂) := by
  have hhit : R
      (if event = .breakpoint ∧ desk.control.breakpoints = true then
        Console.note (.breakpointHit index) c₁ else c₁)
      (if event = .breakpoint ∧ desk.control.breakpoints = true then
        Console.note (.breakpointHit index) c₂ else c₂) := by
    split
    · exact hlike.note _ _ h
    · exact h
  rcases rest_delayed (stateAfter desk event) desk.clock program m time₁ time₂ with
    ⟨worker, hr₁, hr₂⟩ | ⟨hne, hlate⟩
  · let control := (Debugger.completeInstruction desk program index event m c₁).control
    have he (n : Nat) (c : τ) :
        Debugger.completeInstruction (desk.delay n) program index event m c =
          ⟨{ desk with control }.delay n,
            (Debugger.completeInstruction (desk.delay n) program index event m c).console,
            some (rest config (stateAfter desk event) (desk.clock + n) program m)⟩ := rfl
    rw [he time₁, he time₂, hr₁, hr₂]
    exact .alike { desk with control } (some worker) (hlike.note _ _ hhit)
  · exact .late hne hlate

theorem boundary_delayed (hkill : desk.control.kill = false) (program : Program)
    (m : Machine config.machine.width) : ∃ desk' phase, ∀ n (c : τ),
      (advance (delayed n desk (some (.live program m .boundary)) c)).2 =
        delayed n desk' (some (.live program m phase)) c := by
  have hpass (n : Nat) (c : τ) :
      advance (delayed n desk (some (.live program m .boundary)) c) =
        if desk.control.state = .paused then
          if desk.control.permit = true then
            (true, beginInstruction program m { desk.control with permit := false }
              ⟨desk.delay n, c, some (.live program m .boundary)⟩)
          else if desk.control.parked = true then
            (false, ⟨desk.delay n, c, some (.live program m .boundary)⟩)
          else (true, ⟨{ desk with control :=
            { desk.control.publish m with parked := true } }.delay n, c,
            some (.live program m .boundary)⟩)
        else (true, beginInstruction program m desk.control
          ⟨desk.delay n, c, some (.live program m .boundary)⟩) :=
    if_neg (Bool.eq_false_iff.mp hkill)
  simp only [hpass]
  split
  · split
    · exact ⟨{ desk with control := _ }, .executing, fun n c => rfl⟩
    · split
      · exact ⟨desk, .boundary, fun n c => rfl⟩
      · exact ⟨_, .boundary, fun n c => rfl⟩
  · exact ⟨{ desk with control := _ }, .executing, fun n c => rfl⟩

theorem asleep_delayed (deadline : Nat) (program : Program) (m : Machine config.machine.width)
    (desk : Desk config) : ∃ phase, ∀ n (c : τ),
      (advance (delayed n desk (some (.live program m (.asleep deadline))) c)).2 =
        delayed n desk (some (.live program m phase)) c := by
  have hwakes (n : Nat) : (desk.control.kill = true ∨ desk.control.state ≠ .running ∨
      deadline + n ≤ desk.clock + n) ↔ (desk.control.kill = true ∨ desk.control.state ≠ .running ∨
      deadline ≤ desk.clock) := by
    rw [Nat.add_le_add_iff_right]
  by_cases h : desk.control.kill = true ∨ desk.control.state ≠ .running ∨ deadline ≤ desk.clock
  · exact ⟨.boundary, fun n c => congrArg Prod.snd (if_pos ((hwakes n).mpr h))⟩
  · exact ⟨.asleep deadline, fun n c => congrArg Prod.snd (if_neg (mt (hwakes n).mp h))⟩

theorem Twins.carryOut (hlike : Console.Likeness change R) (h : R c₁ c₂) (program : Program)
    (m : Machine config.machine.width) :
    Twins R time₁ time₂ (Debugger.carryOut (desk.delay time₁) program m c₁).2
      (Debugger.carryOut (desk.delay time₂) program m c₂).2 := by
  have hturn := Machine.turn_alike hlike h program m
  generalize ht₁ : m.turn program c₁ = turn₁ at hturn
  generalize ht₂ : m.turn program c₂ = turn₂ at hturn
  simp only [Debugger.carryOut, ht₁, ht₂]
  cases hturn with
  | moved h' => exact .completeInstruction hlike h' program m.index _
  | @halted m' _ _ h' => exact .finish hlike h' { desk with control := _ } .completed none none
  | @blocked m' _ _ h' => exact .alike desk (some (.live program m' .executing)) h'
  | faulted h' =>
    exact .finish hlike (hlike.error _ (hlike.note _ _ h')) { desk with control := _ } _ none none
  | crashed h' => exact .alike desk (some .crashed) h'

theorem Twins.advance (hlike : Console.Likeness change R) (h : R c₁ c₂) (desk : Desk config)
    (worker : Option (DebugWorker config.machine.width)) :
    Twins R time₁ time₂ (delayed time₁ desk worker c₁).advance.2
      (delayed time₂ desk worker c₂).advance.2 := by
  obtain _ | ⟨program, m, phase⟩ | _ | _ := worker
  · exact .alike desk none h
  · cases phase with
    | boundary =>
      cases hkill : desk.control.kill with
      | true =>
        have hkilled (n : Nat) : (desk.delay n).control.kill = true := hkill
        show Twins R time₁ time₂
          (Debugger.advance ⟨desk.delay time₁, c₁, some (.live program m .boundary)⟩).2
          (Debugger.advance ⟨desk.delay time₂, c₂, some (.live program m .boundary)⟩).2
        rw [advance_killed (hkilled time₁), advance_killed (hkilled time₂)]
        exact .finish hlike h desk .stopped _ _
      | false =>
        obtain ⟨desk', phase, he⟩ := boundary_delayed (τ := τ) hkill program m
        rw [he, he]
        exact .alike desk' (some (.live program m phase)) h
    | executing => exact .carryOut hlike h program m
    | asleep deadline =>
      obtain ⟨phase, he⟩ := asleep_delayed (τ := τ) deadline program m desk
      rw [he, he]
      exact .alike desk (some (.live program m phase)) h
  · exact .alike desk (some .ended) h
  · exact .alike desk (some .crashed) h

theorem start_delayed {source : String} (hinactive : desk.control.state.isActive = false)
    (hcompile : compile config.passes source = .ok program)
    (worker : Option (DebugWorker config.machine.width)) (refusal : Option String) :
    ∃ desk' worker', ∀ n (c : τ), ((delayed n desk worker c).start source refusal).2 =
      delayed n desk' worker' (readied source program (delayed n desk worker c)).console := by
  have hstart : ¬ (desk.control.state = .running ∨ desk.control.state = .paused) := by
    rw [← RunState.isActive_iff, hinactive]
    exact Bool.false_ne_true
  have hpass (n : Nat) (c : τ) : (delayed n desk worker c).start source refusal = _ :=
    if_neg hstart
  let fresh (state : RunState) : Desk config := { desk with
    control := .fresh state desk.breakpoints config.machine.tapeSize
    program := some program
    startedAt := desk.clock }
  simp only [hpass, hcompile]
  cases config.throttle with
  | error defect =>
    exact ⟨fresh (if config.pauseOnStart then .paused else .running), none, fun _ _ => rfl⟩
  | ok pause =>
    cases refusal with
    | some reason => exact ⟨fresh .idle, none, fun _ _ => rfl⟩
    | none =>
      exact ⟨fresh (if config.pauseOnStart then .paused else .running),
        some (.live program (.new config.machine.tapeSize .fatal) .boundary), fun _ _ => rfl⟩

theorem Twins.start (hlike : Console.Likeness change R) (h : R c₁ c₂) (desk : Desk config)
    (worker : Option (DebugWorker config.machine.width)) (source : String)
    (refusal : Option String) :
    Twins R time₁ time₂ ((delayed time₁ desk worker c₁).start source refusal).2
      ((delayed time₂ desk worker c₂).start source refusal).2 := by
  have hstate (n : Nat) (c : τ) :
      (delayed n desk worker c).control.state.isActive = desk.control.state.isActive := rfl
  cases hactive : desk.control.state.isActive with
  | true =>
    rw [start_of_active (hstate time₁ c₁ ▸ hactive), start_of_active (hstate time₂ c₂ ▸ hactive)]
    exact .alike desk worker h
  | false =>
    cases hcompile : compile config.passes source with
    | error e =>
      rw [start_of_error ((hstate time₁ c₁).trans hactive) hcompile,
        start_of_error ((hstate time₂ c₂).trans hactive) hcompile]
      exact .alike { desk with control := { desk.control with state := .idle } } worker
        (hlike.error _ (hlike.noteAll _ _ h))
    | ok program =>
      obtain ⟨desk', worker', he⟩ := start_delayed (τ := τ) hactive hcompile worker refusal
      have hconsole : R (readied source program (delayed time₁ desk worker c₁)).console
          (readied source program (delayed time₂ desk worker c₂)).console :=
        hlike.note _ _ (hlike.renew desk.program.isSome _ [] _ [] h)
      rw [he, he]
      exact .alike desk' worker' hconsole

theorem Twins.requestStop (hlike : Console.Likeness change R) (h : R c₁ c₂) (desk : Desk config)
    (worker : Option (DebugWorker config.machine.width)) :
    Twins R time₁ time₂ (delayed time₁ desk worker c₁).requestStop
      (delayed time₂ desk worker c₂).requestStop := by
  cases worker with
  | none =>
    exact .alike { desk with control := { desk.control with kill := true, state := .stopped } }
      none h
  | some worker =>
    exact .alike { desk with control := { desk.control with kill := true } } (some worker)
      (hlike.release h)

theorem Twins.takeBack (hlike : Console.Likeness change R) (h : R c₁ c₂) (desk : Desk config)
    (worker : Option (DebugWorker config.machine.width)) :
    Twins R time₁ time₂ (delayed time₁ desk worker c₁).takeBack
      (delayed time₂ desk worker c₂).takeBack := by
  let stopped : Desk config := { desk with control := { desk.control with state := .stopped } }
  obtain _ | _ | _ | _ := worker
  · exact .alike desk none h
  · exact .alike desk (some (.live _ _ _)) h
  · exact .alike stopped none (hlike.note _ _ h)
  · exact .alike stopped none (hlike.note _ _ (hlike.note _ _ h))

theorem clock_le_act (change : α → τ → τ) (act : Act α) (d : Debugger config τ) :
    d.clock ≤ (act.apply change d).clock := by
  cases act with
  | elapse nanoseconds => exact Nat.le_add_right _ _
  | outside x => exact Nat.le_refl _
  | advance => exact Nat.le_of_eq (advance_keeps d).2.1.symm
  | start source refusal =>
    have hstarted := started source refusal d
    simp only [Act.apply]
    generalize d.start source refusal = answer at hstarted
    obtain ⟨reply, d'⟩ := answer
    cases hstarted <;> exact Nat.le_refl _
  | requestStop =>
    simp only [Act.apply, Debugger.requestStop]
    split <;> exact Nat.le_refl _
  | takeBack =>
    simp only [Act.apply, Debugger.takeBack]
    split <;> exact Nat.le_refl _
  | call request =>
    obtain ⟨state, permit, pausing, breakpoints, he⟩ := request.apply_eq d
    exact Nat.le_of_eq (by rw [Act.apply, he])

theorem Twins.act (h : Twins R time₁ time₂ d₁ d₂) (hlike : Console.Likeness change R)
    (act : Act α) : Twins R time₁ time₂ (act.apply change d₁) (act.apply change d₂) := by
  cases h with
  | late hne hlate =>
    refine .late hne (hlate.imp (fun hlate => ?_) fun hlate => ?_)
    · exact Nat.le_trans hlate (Nat.add_le_add_right (clock_le_act change act d₁) _)
    · exact Nat.le_trans hlate (Nat.add_le_add_right (clock_le_act change act d₂) _)
  | alike desk worker hc =>
    cases act with
    | start source refusal => exact .start hlike hc desk worker source refusal
    | advance => exact .advance hlike hc desk worker
    | requestStop => exact .requestStop hlike hc desk worker
    | takeBack => exact .takeBack hlike hc desk worker
    | outside x => exact .alike desk worker (hlike.change x hc)
    | elapse nanoseconds =>
      have he (n : Nat) (c : τ) : (Act.elapse nanoseconds : Act α).apply change
          (delayed n desk worker c) =
            delayed n { desk with clock := desk.clock + nanoseconds } worker c := by
        simp only [Act.apply, delayed, Desk.delay, Nat.add_right_comm]
      rw [he, he]
      exact .alike _ worker hc
    | call request =>
      obtain ⟨desk', he⟩ := request_delayed (τ := τ) request desk
      rw [Act.apply, Act.apply, he, he]
      exact .alike desk' worker hc

theorem Twins.after (h : Twins R time₁ time₂ d₁ d₂) (hlike : Console.Likeness change R)
    (acts : List (Act α)) :
    Twins R time₁ time₂ (d₁.after change acts) (d₂.after change acts) := by
  induction acts generalizing d₁ d₂ with
  | nil => exact h
  | cons act acts ih => exact ih (h.act hlike act)

/-- What can be seen of both debuggers is the same. -/
structure Agree (R : τ → τ → Prop) (d₁ d₂ : Debugger config τ) : Prop where
  control : d₁.control = d₂.control
  alive : d₁.isAlive = d₂.isAlive
  console : R d₁.console d₂.console

omit [Console τ] in
theorem Twins.agree (h : Twins R time₁ time₂ d₁ d₂)
    (hawake : time₁ ≠ time₂ → d₁.clock + (pauseLength config).nanoseconds < clockLimit ∧
      d₂.clock + (pauseLength config).nanoseconds < clockLimit) : Agree R d₁ d₂ := by
  cases h with
  | alike desk worker hc =>
    refine ⟨rfl, ?_, hc⟩
    obtain _ | _ | _ | _ := worker <;> rfl
  | late hne hlate =>
    have := hawake hne
    omega

end Debugger

/-- What can be seen of both sessions is the same, and a stop would give the same report. -/
structure Session.Agree {config : Config} {τ : Type} [Console τ] (R : τ → τ → Prop)
    (s₁ s₂ : Session config τ) : Prop where
  worker : s₁.worker = s₂.worker
  stop : s₁.stop.1 = s₂.stop.1
  console : R s₁.console s₂.console

theorem Session.Starts.agree {config : Config} {τ α : Type} [Console τ] {change : α → τ → τ}
    {R : τ → τ → Prop} {program : Program} {s₁ s₂ s₁' s₂' : Session config τ}
    (h₁ : Starts program s₁ s₁') (h₂ : Starts program s₂ s₂') (hlike : Console.Likeness change R)
    (hc : R s₁'.console s₂'.console) (acts : List (Act α)) :
    Agree R (s₁'.after change acts) (s₂'.after change acts) := by
  have htwins := (h₁.twins h₂ hc).after hlike acts
  exact ⟨htwins.worker_eq, htwins.stop hlike, htwins.console⟩

/-- How a run finds a buffered console: open, as it was before the first run, and empty before a
later one. -/
structure Buffered.Begins (started refused : Bool) (b b' : Buffered) : Prop where
  released : b'.input.released = false
  first : started = false → refused = false → b'.written = b.written ∧ b'.input = b.input
  later : started = true → b'.written = [] ∧ b'.input = {}

/-- How a run finds streams: open, with the output and what is left of the input as they were. -/
structure Streams.Begins (s s' : Streams) : Prop where
  released : s'.input.released = false
  out : s'.out = s.out
  input : s'.input = s.input.restart

end TapeLang
