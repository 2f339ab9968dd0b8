import TapeLang.Console.Buffered
import TapeLang.Proofs.Acts

/-! # What a debugger shows

A debugger shows what its run last published. Whatever calls are made, and however they fall
between the moves of the runs, the position shown fits the tape shown and the program, and a run
that is parked or has ended is shown as it is.
-/

namespace TapeLang

/-- Position and tape on show are the machine's. -/
structure Control.Shows {w : CellWidth} (control : Control w) (m : Machine w) : Prop where
  index : control.index = m.index
  pointer : control.pointer = m.pointer
  tape : control.tape = m.tape

namespace Debugger

variable {config : DebugConfig} {τ α : Type} [Console τ] {change : α → τ → τ} {c : τ}
  {seen : Observed config.machine.width} {d : Debugger config τ} {desk desk' : Desk config}
  {program : Program} {m : Machine config.machine.width} {phase : Phase}

/-- A machine that may have come to this point of the program last started. -/
structure Fits (desk : Desk config) (program : Program) (m : Machine config.machine.width) :
    Prop where
  program_eq : desk.program = some program
  paired : program.Paired
  onTape : m.memory.OnTape
  size_eq : m.tape.size = config.machine.cellCount
  index_le : m.index ≤ program.size

/-- The position on show is where the machine of the last run is. -/
structure Positioned (desk : Desk config) (program : Program) (m : Machine config.machine.width) :
    Prop extends Fits desk program m where
  index : desk.control.index = m.index
  pointer : desk.control.pointer = m.pointer
  shown : desk.control.tape.size = config.machine.cellCount

/-- A run under way. Only at a boundary can it be parked or have a permission to use up, and only an
input instruction that was begun waits for input. -/
structure Underway (desk : Desk config) (program : Program) (m : Machine config.machine.width)
    (phase : Phase) : Prop extends Positioned desk program m where
  active : desk.control.state.isActive = true
  report : desk.control.report = none
  awaiting : desk.control.awaiting =
    decide (phase = .executing ∧ program.get? m.index = some (.op .input))
  parked : desk.control.parked = true → phase = .boundary ∧ desk.control.tape = m.tape
  permit : desk.control.permit = true → phase = .boundary ∧ desk.control.state = .paused

/-- The run broke down because the clock cannot show when it should wake up. -/
structure Overslept (desk : Desk config) : Prop where
  report : desk.control.report = none
  clock : clockLimit ≤ desk.clock + (pauseLength config).nanoseconds

/-- Nothing is left to wait for. -/
structure Still (control : Control config.machine.width) : Prop where
  parked : control.parked = false
  awaiting : control.awaiting = false

/-- The run started last has this machine, and no start since was refused a thread. -/
structure Observed.Current {w : CellWidth} (seen : Observed w) (m : Machine w) : Prop where
  machine : seen.machine = some m
  refused : seen.refused = false

/-- What holds of a debugger at every moment: it has run nothing, all was made ready for a run that
got no thread, a run is under way or has broken down, or the last run is over. -/
inductive Coherent (seen : Observed config.machine.width) : Desk config →
    Option (DebugWorker config.machine.width) → Prop
  | unstarted {desk : Desk config} : desk.control.state.isActive = false → Still desk.control →
      desk.program = none → desk.control.pointer = 0 →
      desk.control.tape.size = config.machine.cellCount → seen.machine = none →
      seen.refused = false → Coherent seen desk none
  | unthreaded {desk : Desk config} : desk.control.state.isActive = false →
      Still desk.control → desk.control.Shows (.new config.machine.tapeSize .fatal) →
      desk.control.report = none → seen.refused = true → Coherent seen desk none
  | live {desk : Desk config} {program : Program} {m : Machine config.machine.width}
      {phase : Phase} : Underway desk program m phase → seen.Current m → seen.report = none →
      Coherent seen desk (some (.live program m phase))
  | crashed {desk : Desk config} {program : Program} {m : Machine config.machine.width} :
      Positioned desk program m → desk.control.state.isActive = true → Still desk.control →
      desk.control.permit = false → Overslept desk → seen.Current m → seen.report = none →
      Coherent seen desk (some .crashed)
  | finished {desk : Desk config} {program : Program} {m : Machine config.machine.width}
      {worker : Option (DebugWorker config.machine.width)} : Positioned desk program m →
      desk.control.state.isActive = false → Still desk.control → seen.Current m →
      desk.control.report = seen.report →
      desk.control.tape = m.tape ∧ seen.report.isSome ∨ Overslept desk →
      worker = none ∨ worker = some .ended → Coherent seen desk worker

omit [Console τ] in
theorem Coherent.underway (h : Coherent seen desk (some (.live program m phase))) :
    seen.Current m ∧ Underway desk program m phase := by
  cases h with
  | live hu hseen => exact ⟨hseen, hu⟩
  | finished _ _ _ _ _ _ hw => rcases hw with hw | hw <;> cases hw

theorem Positioned.frame (h : Positioned desk program m) (hprogram : desk'.program = desk.program)
    (hindex : desk'.control.index = m.index) (hpointer : desk'.control.pointer = m.pointer)
    (htape : desk'.control.tape.size = config.machine.cellCount) :
    Positioned desk' program m :=
  { h with
    program_eq := hprogram.trans h.program_eq
    index := hindex
    pointer := hpointer
    shown := htape }

theorem Fits.turn (h : Fits desk program m) (hput : ∀ ch (c : τ), (Console.put ch c).1 = true)
    (c : τ) : Fits desk program (m.turn program c).machine :=
  { h with
    onTape := Machine.turn_onTape h.paired h.onTape hput c
    size_eq := (Machine.size_turn program m c).trans h.size_eq
    index_le := Nat.le_trans (Machine.index_turn_le h.paired m c)
      (Nat.max_le.mpr ⟨h.index_le, Nat.le_refl _⟩) }

/-- What requests, the wish to stop and the passing of time leave alone. -/
structure Retains (desk desk' : Desk config) : Prop where
  program : desk'.program = desk.program
  active : desk'.control.state.isActive = desk.control.state.isActive
  permit : desk'.control.permit = true →
    desk.control.permit = true ∧ (desk.control.state = .paused → desk'.control.state = .paused) ∨
      desk.control.parked = true ∧ desk'.control.state = .paused
  parked : desk'.control.parked = desk.control.parked
  awaiting : desk'.control.awaiting = desk.control.awaiting
  index : desk'.control.index = desk.control.index
  pointer : desk'.control.pointer = desk.control.pointer
  tape : desk'.control.tape = desk.control.tape
  report : desk'.control.report = desk.control.report
  clock : desk.clock ≤ desk'.clock

theorem Underway.retained (h : Underway desk program m phase) (hr : Retains desk desk') :
    Underway desk' program m phase where
  toPositioned := h.frame hr.program (hr.index.trans h.index) (hr.pointer.trans h.pointer)
    (hr.tape ▸ h.shown)
  active := hr.active.trans h.active
  report := hr.report.trans h.report
  awaiting := hr.awaiting.trans h.awaiting
  parked := by
    rw [hr.parked, hr.tape]
    exact h.parked
  permit := by
    intro hpermit
    rcases hr.permit hpermit with ⟨hbefore, hstate⟩ | ⟨hparked, hpaused⟩
    · exact ⟨(h.permit hbefore).1, hstate (h.permit hbefore).2⟩
    · exact ⟨(h.parked hparked).1, hpaused⟩

theorem Coherent.retained {worker : Option (DebugWorker config.machine.width)}
    (h : Coherent seen desk worker) (hr : Retains desk desk') : Coherent seen desk' worker := by
  have hstill (hs : Still desk.control) : Still desk'.control :=
    ⟨hr.parked.trans hs.parked, hr.awaiting.trans hs.awaiting⟩
  have hslept (ho : Overslept desk) : Overslept desk' :=
    ⟨hr.report.trans ho.report, Nat.le_trans ho.clock (Nat.add_le_add_right hr.clock _)⟩
  have hposition {program : Program} {m : Machine config.machine.width}
      (hp : Positioned desk program m) : Positioned desk' program m :=
    hp.frame hr.program (hr.index.trans hp.index) (hr.pointer.trans hp.pointer)
      (hr.tape ▸ hp.shown)
  cases h with
  | unstarted hinactive hs hp hpointer htape hmachine hrefused =>
    exact .unstarted (hr.active.trans hinactive) (hstill hs) (hr.program.trans hp)
      (hr.pointer.trans hpointer) (hr.tape ▸ htape) hmachine hrefused
  | unthreaded hinactive hs hshows hreport hrefused =>
    exact .unthreaded (hr.active.trans hinactive) (hstill hs)
      ⟨hr.index.trans hshows.index, hr.pointer.trans hshows.pointer, hr.tape.trans hshows.tape⟩
      (hr.report.trans hreport) hrefused
  | live hu hseen hreport => exact .live (hu.retained hr) hseen hreport
  | crashed hp hactive hs hpermit ho hseen hreport =>
    refine .crashed (hposition hp) (hr.active.trans hactive) (hstill hs) ?_ (hslept ho) hseen
      hreport
    cases hpermit' : desk'.control.permit with
    | false => rfl
    | true =>
      rcases hr.permit hpermit' with ⟨hbefore, -⟩ | ⟨hparked, -⟩
      · exact hbefore.symm.trans hpermit
      · exact hparked.symm.trans hs.parked
  | finished hp hinactive hs hseen hreport hover hw =>
    exact .finished (hposition hp) (hr.active.trans hinactive) (hstill hs) hseen
      (hr.report.trans hreport)
      (hover.imp (fun hends => ⟨hr.tape.trans hends.1, hends.2⟩) hslept) hw

omit [Console τ] in
theorem Coherent.request (h : Coherent seen d.toDesk d.worker) (request : Request) :
    Coherent seen (request.apply d).toDesk (request.apply d).worker := by
  have hactive := request.isActive_apply d
  have hpermit := request.permit_apply (d := d)
  obtain ⟨state, permit, pausing, breakpoints, he⟩ := request.apply_eq d
  rw [he] at hactive hpermit ⊢
  exact h.retained ⟨rfl, hactive, hpermit, rfl, rfl, rfl, rfl, rfl, rfl, Nat.le_refl _⟩

theorem Coherent.setting {worker : Option (DebugWorker config.machine.width)}
    (h : Coherent seen desk worker) (setting : Option Bool) :
    Coherent { seen with setting } desk worker := by
  cases h with
  | unstarted hinactive hs hp hpointer htape hmachine hrefused =>
    exact .unstarted hinactive hs hp hpointer htape hmachine hrefused
  | unthreaded hinactive hs hshows hreport hrefused =>
    exact .unthreaded hinactive hs hshows hreport hrefused
  | live hu hseen hreport => exact .live hu ⟨hseen.machine, hseen.refused⟩ hreport
  | crashed hp hactive hs hpermit ho hseen hreport =>
    exact .crashed hp hactive hs hpermit ho ⟨hseen.machine, hseen.refused⟩ hreport
  | finished hp hinactive hs hseen hreport hover hw =>
    exact .finished hp hinactive hs ⟨hseen.machine, hseen.refused⟩ hreport hover hw

theorem Coherent.inactive_of_none (h : Coherent seen desk none) :
    desk.control.state.isActive = false := by
  cases h with
  | unstarted hinactive => exact hinactive
  | unthreaded hinactive => exact hinactive
  | finished _ hinactive => exact hinactive

/-- Any state but that of a run may be exchanged for any other such state. -/
theorem Coherent.inactive {worker : Option (DebugWorker config.machine.width)} {kill : Bool}
    {state : RunState} (h : Coherent seen desk worker)
    (hbefore : desk.control.state.isActive = false) (hafter : state.isActive = false) :
    Coherent seen { desk with control := { desk.control with kill, state } } worker := by
  have hpaused : desk.control.state ≠ .paused := by
    intro hpaused
    rw [hpaused] at hbefore
    cases hbefore
  exact h.retained ⟨rfl, hafter.trans hbefore.symm,
    fun hpermit => Or.inl ⟨hpermit, fun hfalse => (hpaused hfalse).elim⟩,
    rfl, rfl, rfl, rfl, rfl, rfl, Nat.le_refl _⟩

theorem Underway.launched (d : Debugger config τ) {source : String}
    (hcompile : compile config.passes source = .ok program) :
    Underway (d.launched source program).toDesk program (.new config.machine.tapeSize .fatal)
      .boundary where
  program_eq := rfl
  paired := Program.paired_of_compile hcompile
  onTape := Memory.blank_onTape _
  size_eq := Tape.size_blank _
  index_le := Nat.zero_le _
  index := rfl
  pointer := rfl
  shown := Tape.size_blank _
  active := by
    simp only [Debugger.launched, readied, Control.fresh]
    split <;> rfl
  report := rfl
  awaiting := rfl
  parked := fun hfalse => Bool.noConfusion hfalse
  permit := fun hfalse => Bool.noConfusion hfalse

theorem Coherent.start {pause : Duration} (h : Coherent seen d.toDesk d.worker)
    (hthrottle : config.throttle = .ok pause) (source : String) (refusal : Option String) :
    Coherent ((Act.start source refusal : Act α).observe d seen) (d.start source refusal).2.toDesk
      (d.start source refusal).2.worker := by
  have hstarted := started source refusal d
  simp only [Act.observe]
  generalize (d.start source refusal).1 = reply at hstarted ⊢
  generalize (d.start source refusal).2 = d' at hstarted ⊢
  cases hstarted with
  | active => exact h
  | uncompiled hinactive => exact h.inactive hinactive rfl
  | overflowed _ _ herror => cases hthrottle.symm.trans herror
  | unthreaded => exact .unthreaded rfl ⟨rfl, rfl⟩ ⟨rfl, rfl, rfl⟩ rfl rfl
  | threaded _ hcompile => exact .live (.launched d hcompile) ⟨rfl, rfl⟩ rfl

theorem Coherent.takenBack {worker : Option (DebugWorker config.machine.width)}
    (h : Coherent seen desk worker)
    (hended : ∀ program m phase, worker ≠ some (.live program m phase)) :
    Coherent seen { desk with control := { desk.control with state := .stopped } } none := by
  cases h with
  | unstarted hinactive hs hp hpointer htape hmachine hrefused =>
    exact .unstarted rfl ⟨hs.parked, hs.awaiting⟩ hp hpointer htape hmachine hrefused
  | unthreaded hinactive hs hshows hreport hrefused =>
    exact .unthreaded rfl ⟨hs.parked, hs.awaiting⟩ ⟨hshows.index, hshows.pointer, hshows.tape⟩
      hreport hrefused
  | live => exact (hended _ _ _ rfl).elim
  | crashed hp hactive hs hpermit ho hseen hreport =>
    exact .finished (hp.frame rfl hp.index hp.pointer hp.shown) rfl ⟨hs.parked, hs.awaiting⟩ hseen
      (ho.report.trans hreport.symm) (Or.inr ⟨ho.report, ho.clock⟩) (Or.inl rfl)
  | finished hp hinactive hs hseen hreport hover =>
    exact .finished (hp.frame rfl hp.index hp.pointer hp.shown) rfl ⟨hs.parked, hs.awaiting⟩ hseen
      hreport (hover.imp id fun ho => ⟨ho.report, ho.clock⟩) (Or.inl rfl)

theorem Coherent.finish {status : RunStatus} (h : Fits desk program m) (hseen : seen.Current m)
    (hreport : seen.report = some ⟨status, ⟨desk.clock - desk.startedAt⟩⟩) (c : τ)
    (worker : Option (DebugWorker config.machine.width)) :
    Coherent seen (finish status m ⟨desk, c, worker⟩).toDesk
      (finish status m ⟨desk, c, worker⟩).worker := by
  have hposition : Positioned (Debugger.finish status m ⟨desk, c, worker⟩).toDesk program m :=
    { h with index := rfl, pointer := rfl, shown := h.size_eq }
  exact .finished hposition rfl ⟨rfl, rfl⟩ hseen hreport.symm
    (Or.inl ⟨rfl, by rw [hreport]; rfl⟩) (Or.inr rfl)

omit [Console τ] in
theorem Underway.begun (h : Underway d.toDesk program m .boundary) :
    Underway (beginInstruction program m { d.control with permit := false } d).toDesk program m
      .executing where
  toPositioned := h.frame rfl h.index h.pointer h.shown
  active := h.active
  report := h.report
  awaiting := by simp [beginInstruction]
  parked := fun hfalse => Bool.noConfusion hfalse
  permit := fun hfalse => Bool.noConfusion hfalse

theorem Underway.parks (h : Underway desk program m .boundary) :
    Underway { desk with control := { desk.control.publish m with parked := true } } program m
      .boundary where
  toPositioned := h.frame rfl rfl rfl h.size_eq
  active := h.active
  report := h.report
  awaiting := h.awaiting
  parked := fun _ => ⟨rfl, rfl⟩
  permit := h.permit

theorem Underway.wakes {deadline : Nat} (h : Underway desk program m (.asleep deadline)) :
    Underway desk program m .boundary where
  toPositioned := h.toPositioned
  active := h.active
  report := h.report
  awaiting := h.awaiting.trans (by simp)
  parked := fun hparked => ⟨rfl, (h.parked hparked).2⟩
  permit := fun hpermit => ⟨rfl, (h.permit hpermit).2⟩

theorem Underway.not_parked (h : Underway desk program m phase) (hphase : phase ≠ .boundary) :
    desk.control.parked = false :=
  Bool.eq_false_iff.mpr fun hparked => hphase (h.parked hparked).1

theorem Underway.not_permitted (h : Underway desk program m phase) (hphase : phase ≠ .boundary) :
    desk.control.permit = false :=
  Bool.eq_false_iff.mpr fun hpermit => hphase (h.permit hpermit).1

/-- Between two instructions nothing is awaited, and a run that was not parked is not parked. -/
theorem Coherent.rest (h : Positioned desk program m)
    (hactive : desk.control.state.isActive = true) (hreport : desk.control.report = none)
    (hs : Still desk.control) (hpermit : desk.control.permit = false) (hseen : seen.Current m)
    (hunreported : seen.report = none) (state : RunState) :
    Coherent seen desk (some (rest config state desk.clock program m)) := by
  have hlive {phase : Phase} (hphase : phase ≠ .executing) : Underway desk program m phase :=
    { h with
      active := hactive
      report := hreport
      awaiting := by simp [hs.awaiting, hphase]
      parked := by simp [hs.parked]
      permit := by simp [hpermit] }
  simp only [Debugger.rest]
  split
  · exact .live (hlive (by simp)) hseen hunreported
  · split
    · exact .live (hlive (by simp)) hseen hunreported
    · exact .crashed h hactive hs hpermit ⟨hreport, by omega⟩ hseen hunreported

theorem Coherent.completeInstruction {m' : Machine config.machine.width} {c c' : τ} {event : Event}
    (h : Underway desk program m .executing) (hput : ∀ ch (c : τ), (Console.put ch c).1 = true)
    (ht : m.turn program c = .moved event m' c') (hseen : seen.Current m')
    (hunreported : seen.report = none) (index : Nat) :
    Coherent seen (completeInstruction desk program index event m' c').toDesk
      (completeInstruction desk program index event m' c').worker := by
  obtain rfl : (m.turn program c).machine = m' := by rw [ht]; rfl
  obtain ⟨console, he⟩ :=
    completeInstruction_eq desk program index event (m.turn program c).machine c'
  have hfits := h.toFits.turn hput c
  have hparked := h.not_parked (by simp)
  have hpermit := h.not_permitted (by simp)
  rw [he]
  apply Coherent.rest
  · refine { hfits with index := rfl, pointer := rfl, shown := ?_ }
    dsimp only
    split
    · exact hfits.size_eq
    · exact h.shown
  · exact stateAfter_isActive h.active event
  · exact h.report
  · exact ⟨hparked, rfl⟩
  · exact hpermit
  · exact hseen
  · exact hunreported

theorem Underway.coherent_advance (h : Underway desk program m phase) (hseen : seen.Current m)
    (hreport : seen.report = none) (hput : ∀ ch (c : τ), (Console.put ch c).1 = true) (c : τ) :
    Coherent ((Act.advance : Act α).observe ⟨desk, c, some (.live program m phase)⟩ seen)
      (advance ⟨desk, c, some (.live program m phase)⟩).2.toDesk
      (advance ⟨desk, c, some (.live program m phase)⟩).2.worker := by
  have hcurrent (m : Machine config.machine.width) (report : Option Report) :
      Observed.Current { seen with machine := some m, report } m := ⟨rfl, hseen.refused⟩
  have hspared (hkill : desk.control.kill = false) :
      ending? (⟨desk, c, some (.live program m .boundary)⟩ : Debugger config τ) = none := by
    simp [ending?, hkill]
  have hadvanced := advanced desk c program m phase
  generalize Debugger.advance ⟨desk, c, some (.live program m phase)⟩ = answer at hadvanced ⊢
  cases hadvanced with
  | waits hkill =>
    simp only [Act.observe, nextMachine?, hspared hkill]
    exact .live h (hcurrent m _) hreport
  | @begins permit hkill hcases =>
    simp only [Act.observe, nextMachine?, hspared hkill]
    have hpermit : permit = false := by
      obtain ⟨-, -, rfl⟩ | ⟨hrunning, rfl⟩ := hcases
      · rfl
      · exact Bool.eq_false_iff.mpr fun htrue => hrunning (h.permit htrue).2
    subst hpermit
    exact .live (Underway.begun (d := ⟨desk, c, _⟩) h) (hcurrent m _) hreport
  | parks hkill =>
    simp only [Act.observe, nextMachine?, hspared hkill]
    exact .live h.parks (hcurrent m _) hreport
  | stopped hkill =>
    simp only [Act.observe, nextMachine?, ending?, if_pos hkill]
    exact Coherent.finish h.toFits (hcurrent m _) rfl c _
  | sleeps => exact .live h (hcurrent m _) hreport
  | wakes => exact .live h.wakes (hcurrent m _) hreport
  | blocked ht =>
    simp only [Act.observe, nextMachine?, ending?, ht]
    exact .live h (hcurrent m _) hreport
  | moved ht =>
    simp only [Act.observe, nextMachine?, ending?, ht]
    exact Coherent.completeInstruction h hput ht (hcurrent _ _) hreport m.index
  | halted ht =>
    have hfits := h.toFits.turn hput c
    simp only [Act.observe, nextMachine?, ending?, ht]
    rw [ht] at hfits
    exact Coherent.finish hfits (hcurrent _ _) rfl _ none
  | faulted ht =>
    have hfits := h.toFits.turn hput c
    simp only [Act.observe, nextMachine?, ending?, ht]
    rw [ht] at hfits
    exact Coherent.finish hfits (hcurrent _ _) rfl _ none
  | crashed ht =>
    have hsafe := Machine.turn_safe h.paired h.onTape hput c
    rcases hsafe with ⟨event, m', c', hmoved, -⟩ | hblocked | hhalt | ⟨e, hfault⟩
    · cases ht.symm.trans hmoved
    · cases ht.symm.trans hblocked
    · cases ht.symm.trans (Machine.turn_of_halt hhalt c)
    · cases ht.symm.trans (Machine.turn_of_fault hfault c)

theorem Coherent.advance (h : Coherent seen d.toDesk d.worker)
    (hput : ∀ ch (c : τ), (Console.put ch c).1 = true) :
    Coherent ((Act.advance : Act α).observe d seen) d.advance.2.toDesk d.advance.2.worker := by
  obtain ⟨desk, c, worker⟩ := d
  have hstays := h
  cases h with
  | unstarted => exact hstays
  | unthreaded => exact hstays
  | crashed => exact hstays
  | finished _ _ _ _ _ _ hw => rcases hw with rfl | rfl <;> exact hstays
  | live hu hseen hreport => exact hu.coherent_advance hseen hreport hput c

omit [Console τ] in
theorem Coherent.new {clock : Nat} (h : Debugger.allocate clock c = .ok d) :
    Coherent {} d.toDesk d.worker := by
  rw [eq_new_of_allocate h]
  exact .unstarted rfl ⟨rfl, rfl⟩ rfl rfl (Tape.size_blank _) rfl rfl

theorem Coherent.act {pause : Duration} (h : Coherent seen d.toDesk d.worker)
    (hput : ∀ ch (c : τ), (Console.put ch c).1 = true) (hthrottle : config.throttle = .ok pause)
    (change : α → τ → τ) (act : Act α) :
    Coherent (act.observe d seen) (act.apply change d).toDesk (act.apply change d).worker := by
  cases act with
  | start source refusal => exact h.start hthrottle source refusal
  | advance => exact h.advance hput
  | call request =>
    have hcalled := h.request request
    cases request with
    | setBreakpoints enabled => exact hcalled.setting (some enabled)
    | _ => exact hcalled
  | requestStop =>
    cases hw : d.worker with
    | none =>
      rw [Act.apply, requestStop_of_none hw]
      have hinactive := (hw ▸ h).inactive_of_none
      exact h.inactive hinactive rfl
    | some worker =>
      rw [Act.apply, requestStop_of_some (by simp [hw])]
      exact h.retained ⟨rfl, rfl, fun hpermit => Or.inl ⟨hpermit, id⟩, rfl, rfl, rfl, rfl, rfl, rfl,
        Nat.le_refl _⟩
  | takeBack =>
    by_cases hkept : d.isAlive = true ∨ d.worker = none
    · rw [Act.apply, takeBack_of_kept hkept]
      exact h
    · rw [not_or, Bool.not_eq_true] at hkept
      obtain ⟨console, he⟩ := takeBack_of_ended hkept.1 (Option.isSome_iff_ne_none.mpr hkept.2)
      rw [Act.apply, he]
      refine h.takenBack fun program m phase hlive => ?_
      simp [isAlive, hlive] at hkept
  | elapse nanoseconds =>
    exact h.retained ⟨rfl, rfl, fun hpermit => Or.inl ⟨hpermit, id⟩, rfl, rfl, rfl, rfl, rfl, rfl,
      Nat.le_add_right _ _⟩
  | outside x => exact h

theorem History.coherent {pause : Duration} (h : History change c seen d)
    (hput : ∀ ch (c : τ), (Console.put ch c).1 = true) (hthrottle : config.throttle = .ok pause) :
    Coherent seen d.toDesk d.worker := by
  induction h with
  | new hnew => exact .new hnew
  | act act _ ih => exact ih.act hput hthrottle change act

section

variable {worker : Option (DebugWorker config.machine.width)}

theorem Coherent.size_eq (h : Coherent seen desk worker) :
    desk.control.tape.size = config.machine.cellCount := by
  cases h with
  | unstarted _ _ _ _ htape => exact htape
  | unthreaded _ _ hshows =>
    rw [hshows.tape]
    exact Tape.size_blank _
  | live hu => exact hu.shown
  | crashed hp => exact hp.shown
  | finished hp => exact hp.shown

theorem Positioned.pointer_lt (h : Positioned desk program m) :
    desk.control.pointer < desk.control.tape.size := by
  rw [h.pointer, h.shown, ← h.size_eq]
  exact h.onTape

theorem Coherent.pointer_lt (h : Coherent seen desk worker) :
    desk.control.pointer < desk.control.tape.size := by
  have horigin (hpointer : desk.control.pointer = 0) :
      desk.control.pointer < desk.control.tape.size := by
    rw [hpointer, h.size_eq]
    exact Nat.lt_of_lt_of_le Nat.zero_lt_one (Nat.le_max_right _ _)
  cases h with
  | unstarted _ _ _ hpointer => exact horigin hpointer
  | unthreaded _ _ hshows => exact horigin hshows.pointer
  | live hu => exact hu.pointer_lt
  | crashed hp => exact hp.pointer_lt
  | finished hp => exact hp.pointer_lt

theorem Coherent.positioned (h : Coherent seen desk worker) (hrefused : seen.refused = false)
    (hp : desk.program = some program) :
    ∃ m, seen.machine = some m ∧ Positioned desk program m := by
  have hsame {program' : Program} {m : Machine config.machine.width}
      (hposition : Positioned desk program' m) : Positioned desk program m := by
    rw [hposition.program_eq] at hp
    cases hp
    exact hposition
  cases h with
  | unstarted _ _ hnone => cases hnone.symm.trans hp
  | unthreaded _ _ _ _ htrue => cases hrefused.symm.trans htrue
  | live hu hseen => exact ⟨_, hseen.machine, hsame hu.toPositioned⟩
  | crashed hposition _ _ _ _ hseen => exact ⟨_, hseen.machine, hsame hposition⟩
  | finished hposition _ _ hseen => exact ⟨_, hseen.machine, hsame hposition⟩

theorem Coherent.shows_of_refused (h : Coherent seen desk worker) (hrefused : seen.refused = true) :
    worker = none ∧ desk.control.Shows (.new config.machine.tapeSize .fatal) ∧
      desk.control.report = none := by
  have hnot {m : Machine config.machine.width} (hseen : seen.Current m) : False := by
    cases hseen.refused.symm.trans hrefused
  cases h with
  | unstarted _ _ _ _ _ _ hfalse => cases hfalse.symm.trans hrefused
  | unthreaded _ _ hshows hreport => exact ⟨rfl, hshows, hreport⟩
  | live _ hseen => exact (hnot hseen).elim
  | crashed _ _ _ _ _ hseen => exact (hnot hseen).elim
  | finished _ _ _ hseen => exact (hnot hseen).elim

theorem Coherent.shows_of_parked (h : Coherent seen desk worker)
    (hparked : desk.control.parked = true) :
    ∃ program m, worker = some (.live program m .boundary) ∧ desk.control.Shows m := by
  have hnot (hs : Still desk.control) : False := by simp [hs.parked] at hparked
  cases h with
  | unstarted _ hs => exact (hnot hs).elim
  | unthreaded _ hs => exact (hnot hs).elim
  | crashed _ _ hs => exact (hnot hs).elim
  | finished _ _ hs => exact (hnot hs).elim
  | live hu =>
    obtain ⟨rfl, htape⟩ := hu.parked hparked
    exact ⟨_, _, rfl, hu.index, hu.pointer, htape⟩

theorem Coherent.over_of_inactive (h : Coherent seen desk worker)
    (hinactive : desk.control.state.isActive = false) (hrefused : seen.refused = false)
    (hm : seen.machine = some m) :
    desk.control.report = seen.report ∧
      (desk.control.tape = m.tape ∧ seen.report.isSome ∨ Overslept desk) := by
  cases h with
  | unstarted _ _ _ _ _ hnone => cases hnone.symm.trans hm
  | unthreaded _ _ _ _ htrue => cases hrefused.symm.trans htrue
  | live hu => simp [hu.active] at hinactive
  | crashed _ hactive => simp [hactive] at hinactive
  | finished _ _ _ hseen hreport hover =>
    cases hseen.machine.symm.trans hm
    exact ⟨hreport, hover⟩

end

theorem shows_of_paused {m' : Machine config.machine.width} {c : τ} {event : Event}
    (hlive : d.worker = some (.live program m .executing))
    (ht : m.turn program d.console = .moved event m' c)
    (hpaused : d.advance.2.control.state = .paused) : d.advance.2.control.Shows m' := by
  obtain ⟨desk, c₀, worker⟩ := d
  cases hlive
  obtain ⟨console, he⟩ := completeInstruction_eq desk program m.index event m' c
  simp only [Debugger.advance, Debugger.carryOut, ht, he] at hpaused ⊢
  exact ⟨rfl, rfl, if_pos hpaused⟩

end Debugger

/-- Whatever is done to a debugger, the position on show is that of its run, parked or over. But the
tape may be an older one if the run broke down because the clock cannot show the end of its pause,
and a start that was refused a thread puts a fresh machine on show. -/
theorem debugger_positions_coherent {config : DebugConfig} {τ α : Type} [Console τ]
    (hput : ∀ ch (c : τ), (Console.put ch c).1 = true) {pause : Duration}
    (hthrottle : config.throttle = .ok pause) {change : α → τ → τ} {c : τ}
    {seen : Debugger.Observed config.machine.width} {d : Debugger config τ}
    (h : Debugger.History change c seen d) :
    d.control.tape.size = max config.machine.tapeSize 1 ∧
    d.control.pointer < d.control.tape.size ∧
    (∀ program, d.program = some program → d.control.index ≤ program.size) ∧
    (∀ program m phase, d.worker = some (.live program m phase) → seen.machine = some m) ∧
    (d.control.parked = true →
      ∃ program m, d.worker = some (.live program m .boundary) ∧ d.control.Shows m) ∧
    (d.program.isSome → d.control.state = .idle ∨ d.control.state = .stopped →
      seen.refused = false →
      ∃ m, seen.machine = some m ∧ d.control.index = m.index ∧ d.control.pointer = m.pointer ∧
        (d.control.tape = m.tape ∨
          d.control.report = none ∧ clockLimit ≤ d.clock + pause.nanoseconds)) ∧
    (seen.refused = true →
      d.worker = none ∧ d.control.Shows (.new config.machine.tapeSize .fatal)) ∧
    ∀ program m event m' c, d.worker = some (.live program m .executing) →
      m.turn program d.console = .moved event m' c → d.advance.2.control.state = .paused →
      d.advance.2.control.Shows m' := by
  have hc := h.coherent hput hthrottle
  have hpause : Debugger.pauseLength config = pause := by simp [Debugger.pauseLength, hthrottle]
  refine ⟨hc.size_eq, hc.pointer_lt, ?_, ?_, hc.shows_of_parked, ?_, ?_, ?_⟩
  · intro program hprogram
    cases hrefused : seen.refused with
    | false =>
      obtain ⟨m, -, hm⟩ := hc.positioned hrefused hprogram
      rw [hm.index]
      exact hm.index_le
    | true =>
      rw [(hc.shows_of_refused hrefused).2.1.index]
      exact Nat.zero_le _
  · intro program m phase hlive
    rw [hlive] at hc
    exact hc.underway.1.machine
  · intro hstarted hstate hrefused
    obtain ⟨program, hprogram⟩ := Option.isSome_iff_exists.mp hstarted
    obtain ⟨m, hseen, hm⟩ := hc.positioned hrefused hprogram
    have hinactive := RunState.isActive_eq_false_iff.mpr hstate
    have hover := (hc.over_of_inactive hinactive hrefused hseen).2
    refine ⟨m, hseen, hm.index, hm.pointer, hover.imp And.left fun hslept => ?_⟩
    exact ⟨hslept.report, hpause ▸ hslept.clock⟩
  · intro hrefused
    obtain ⟨hw, hshows, -⟩ := hc.shows_of_refused hrefused
    exact ⟨hw, hshows⟩
  · intro program m event m' c hlive ht hpaused
    exact Debugger.shows_of_paused hlive ht hpaused

/-- A run stepped into an input instruction, resumed and paused again while it waits there, fed, and
stopped where it parks. Then a start is refused a thread. -/
theorem debugger_positions_coherent_stepped_input :
    ∃ m seen seen',
      ∃ d d' : Debugger { machine := { tapeSize := 2 }, pauseOnStart := true } Buffered,
      Debugger.History (fun c _ => c) {} seen d ∧ seen.machine = some m ∧
      d.control.state = .stopped ∧ m.index = 2 ∧ d.control.Shows m ∧
      d.control.pointer < d.control.tape.size ∧
      Debugger.History (fun c _ => c) {} seen' d' ∧ d'.control.state = .idle ∧
      d'.control.Shows (.new 2 .fatal) := by
  let new : Debugger { machine := { tapeSize := 2 }, pauseOnStart := true } Buffered := .new 0 {}
  let acts : List (Debugger.Act Buffered) :=
    [.start ">,+" none, .advance, .call .allow, .advance, .advance, .advance, .call .allow,
      .advance, .call .resume, .call .pause, .outside (Buffered.push "a" {}), .advance, .advance,
      .requestStop, .advance, .takeBack]
  have hnew : Debugger.History (fun c _ => c) {} {} new := .new rfl
  have hstopped := hnew.after acts
  have hrefused := hstopped.act (.start "+" (some "no thread"))
  obtain ⟨-, hpointer, -, -, -, hover, -⟩ :=
    debugger_positions_coherent (fun _ _ => rfl) rfl hstopped
  obtain ⟨-, -, -, -, -, -, hshown, -⟩ := debugger_positions_coherent (fun _ _ => rfl) rfl hrefused
  obtain ⟨m, hm, hindex, hat, htape⟩ :=
    hover (by decide +kernel) (by decide +kernel) (by decide +kernel)
  refine ⟨m, _, _, _, _, hstopped, hm, by decide +kernel, ?_, ⟨hindex, hat, ?_⟩, hpointer, hrefused,
    by decide +kernel, (hshown (by decide +kernel)).2⟩
  · rw [← hindex]
    decide +kernel
  · exact htape.resolve_right fun ⟨hreport, _⟩ => absurd hreport (by decide +kernel)

/-- Pauses of 2^63 seconds, which are durations, but which no clock can show the end of. -/
def endlessPauses : DebugConfig :=
  { machine := { tapeSize := 4 }, stepDelay := ⟨9223372036854775808 * 1000000000⟩ }

/-- A run that breaks down after its first instruction and is stopped then: the tape on show is the
one from before that instruction. -/
theorem debugger_positions_overslept :
    endlessPauses.throttle = .ok endlessPauses.stepDelay ∧
    ∃ m seen, ∃ d : Debugger endlessPauses Buffered,
      Debugger.History (fun c _ => c) {} seen d.stop.2 ∧ seen.machine = some m ∧
      seen.refused = false ∧ d.stop.2.program.isSome ∧ d.stop.2.control.state = .stopped ∧
      d.stop.2.control.index = m.index ∧ d.stop.2.control.pointer = m.pointer ∧
      d.stop.2.control.tape ≠ m.tape := by
  let new : Debugger endlessPauses Buffered := .new 0 {}
  let acts : List (Debugger.Act Buffered) := [.start "+" none, .advance, .advance]
  let halves : List (Debugger.Act Buffered) :=
    [.requestStop, .advance, .advance, .advance, .takeBack]
  let m : Machine .eight := ⟨⟨⟨#[⟨1, by decide⟩, .zero, .zero, .zero]⟩, 0⟩, 1, .fatal⟩
  have hnew : Debugger.History (fun c _ => c) {} {} new := .new rfl
  have hstop : (new.after (fun c _ => c) acts).stop.2 =
      (new.after (fun c _ => c) acts).after (fun c _ => c) halves :=
    Debugger.stop_eq_after _ (by decide +kernel)
  have hrun := (hnew.after acts).after halves
  rw [← hstop] at hrun
  refine ⟨rfl, m, _, _, hrun, ?_⟩
  decide +kernel

end TapeLang
