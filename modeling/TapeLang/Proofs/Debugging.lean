import TapeLang.Proofs.Acts

/-! # Debugged runs

Whatever its controller does short of stopping it, a debugged run carries out the instructions of a
plain run under fatal bounds, none skipped, repeated or added, and ends as that run ends.
-/

namespace TapeLang

variable {τ α : Type}

/-- A change from outside leaves the transcript as it is. -/
def Recorded.outside (change : α → τ → τ) (x : α) (c : Recorded τ) : Recorded τ :=
  { c with inner := change x c.inner }

namespace Debugger

variable {config : DebugConfig}

/-- The same debugger, with a transcript begun on its console. -/
def recorded (d : Debugger config τ) : Debugger config (Recorded τ) :=
  ⟨d.toDesk, ⟨d.console, []⟩, d.worker⟩

/-- The debugger without the transcript on its console. -/
def unrecorded (d : Debugger config (Recorded τ)) : Debugger config τ :=
  ⟨d.toDesk, d.console.inner, d.worker⟩

variable [Console τ]

/-- What passes through the console while the acts are done. -/
def transcript (change : α → τ → τ) (acts : List (Act α)) (d : Debugger config τ) :
    List Exchange :=
  (d.recorded.after (Recorded.outside change) acts).console.transcript

/-- An act that neither starts nor stops a run. -/
def Act.isMidRun : Act α → Bool
  | .advance | .call _ | .elapse _ | .outside _ => true
  | .start .. | .requestStop | .takeBack => false

/-- A run of a text on a debugger with any history, its moves and the controller's calls in any
order, with the transcript so far. In between, input may arrive or end and anything else may happen
to the console from outside, and time may pass. -/
def Interleaves (source : String) (t : List Exchange) (d : Debugger config τ) : Prop :=
  ∃ (c : τ) (seen : Observed config.machine.width) (idle : Debugger config τ) (acts : List (Act τ)),
    History (fun c _ => c) c seen idle ∧ (idle.start source).1 = .ok ∧
    (∀ act ∈ acts, act.isMidRun = true) ∧
    d = idle.after (fun c _ => c) (.start source none :: acts) ∧
    t = idle.transcript (fun c _ => c) (.start source none :: acts)

end Debugger

section

variable {w : CellWidth} {size : Nat} {program : Program} {t : List Exchange}
  {control control' : Control w} {m m' : Machine w}

/-- The machine is where the instructions carried out so far lead a fresh one on the same input,
with the same exchanges, and its position is the one that is shown. -/
structure Tracks (size : Nat) (program : Program) (t : List Exchange) (control : Control w)
    (m : Machine w) : Prop where
  retraces (future : List (Option Char)) : Moves program control.executed (.new size .fatal)
    (Recorded.script (Exchange.answers t ++ future)) m ⟨⟨future⟩, t⟩
  onTape : m.memory.OnTape
  index : control.index = m.index
  pointer : control.pointer = m.pointer
  kill : control.kill = false
  quiet (text : String) : .message text ∉ t

theorem Tracks.fresh (size : Nat) (program : Program) (state : RunState) (breakpoints : Bool) :
    Tracks size program [] (.fresh state breakpoints size : Control w) (.new size .fatal) where
  retraces _ := .refl _ _
  onTape := Memory.blank_onTape size
  index := rfl
  pointer := rfl
  kill := rfl
  quiet _ := List.not_mem_nil

theorem Tracks.of_control (h : Tracks size program t control m)
    (hexecuted : control'.executed = control.executed) (hindex : control'.index = m.index)
    (hpointer : control'.pointer = m.pointer) (hkill : control'.kill = control.kill) :
    Tracks size program t control' m where
  retraces := hexecuted ▸ h.retraces
  onTape := h.onTape
  index := hindex
  pointer := hpointer
  kill := hkill.trans h.kill
  quiet := h.quiet

theorem Tracks.moved {τ : Type} [Console τ] {c c' : τ} {event : Event}
    (h : Tracks size program t control m) (ht : m.turn program c = .moved event m' c')
    (hm' : m'.memory.OnTape) (hexecuted : control'.executed = control.executed + 1)
    (hindex : control'.index = m'.index) (hpointer : control'.pointer = m'.pointer)
    (hkill : control'.kill = control.kill) :
    Tracks size program (t ++ event.exchanges) control' m' where
  retraces future := by
    -- What the new instruction reads is still to come for the ones before it.
    have hfirst := h.retraces (Exchange.answers event.exchanges ++ future)
    have hlast := Moves.single (Machine.turn_script ht t future)
    rw [Exchange.answers_append, List.append_assoc, hexecuted]
    exact hfirst.trans hlast
  onTape := hm'
  index := hindex
  pointer := hpointer
  kill := hkill.trans h.kill
  quiet text := by
    simp [h.quiet text, event.message_not_mem_exchanges text]

/-- The machine is at the end of its run, which a fault reports to the console. -/
inductive Machine.Ends (program : Program) (m : Machine w) : RunStatus → List Exchange → Prop
  | completed : m.step program = .halt m → Ends program m .completed []
  | failed (e : BoundsError) : m.step program = .fault e m →
      Ends program m (.failed e) [.error e.message]

end

namespace Debugger

variable {config : DebugConfig} {τ : Type} {source : String} {program : Program}
  {t : List Exchange} {d : Debugger config τ} {desk : Desk config}
  {m : Machine config.machine.width}

/-- What holds of a run with transcript `t` at every moment: it is under way, it has broken down
because the clock cannot show when it should wake up, or it has ended by itself. -/
inductive Mirrors (program : Program) (t : List Exchange) :
    Desk config → Option (DebugWorker config.machine.width) → Prop
  | live {desk : Desk config} {m : Machine config.machine.width} (phase : Phase) :
      Tracks config.machine.tapeSize program t desk.control m →
      Mirrors program t desk (some (.live program m phase))
  | crashed {desk : Desk config} {m : Machine config.machine.width} :
      Tracks config.machine.tapeSize program t desk.control m →
      clockLimit ≤ desk.clock + (pauseLength config).nanoseconds →
      Mirrors program t desk (some .crashed)
  | ended {desk : Desk config} {m : Machine config.machine.width} {before errors : List Exchange}
      {status : RunStatus} {elapsed : Duration} :
      Tracks config.machine.tapeSize program before desk.control m →
      m.Ends program status errors → desk.control.report = some ⟨status, elapsed⟩ →
      desk.control.tape = m.tape →
      t = before ++ errors ++ [.message (Report.line ⟨status, elapsed⟩)] →
      Mirrors program t desk (some .ended)

variable [Console τ]

theorem inner_noteAll (notes : List Note) (c : Recorded τ) :
    (Console.noteAll notes c).inner = Console.noteAll notes c.inner := by
  induction notes generalizing c with
  | nil => rfl
  | cons n notes ih => exact ih (Console.note n c)

theorem unrecorded_passBoundary (c : τ) (worker : Option (DebugWorker config.machine.width)) :
    (passBoundary program m ⟨desk, (⟨c, t⟩ : Recorded τ), worker⟩).2.unrecorded =
      (passBoundary program m ⟨desk, c, worker⟩).2 := by
  simp only [passBoundary]
  split
  · rfl
  · split
    · split
      · rfl
      · split <;> rfl
    · rfl

theorem unrecorded_completeInstruction (index : Nat) (event : Event) (c : Recorded τ) :
    (completeInstruction desk program index event m c).unrecorded =
      completeInstruction desk program index event m c.inner := by
  simp only [completeInstruction]
  split <;> rfl

theorem unrecorded_carryOut (c : Recorded τ) :
    (carryOut desk program m c).2.unrecorded = (carryOut desk program m c.inner).2 := by
  obtain ⟨c, t⟩ := c
  simp only [carryOut, Machine.turn_recorded]
  cases m.turn program c with
  | moved event m' c' => exact unrecorded_completeInstruction m.index event _
  | _ => rfl

theorem unrecorded_advance (d : Debugger config (Recorded τ)) :
    d.advance.2.unrecorded = d.unrecorded.advance.2 := by
  obtain ⟨desk, c, _ | ⟨program, m, phase⟩ | _ | _⟩ := d
  · rfl
  · cases phase with
    | boundary => exact unrecorded_passBoundary c.inner _
    | executing => exact unrecorded_carryOut c
    | asleep deadline =>
      simp only [advance, unrecorded]
      split <;> rfl
  · rfl
  · rfl

omit [Console τ] in
theorem unrecorded_request (request : Request) (c : τ)
    (worker : Option (DebugWorker config.machine.width)) :
    (request.apply ⟨desk, (⟨c, t⟩ : Recorded τ), worker⟩).unrecorded =
      request.apply ⟨desk, c, worker⟩ := by
  cases request with
  | setBreakpoints enabled => rfl
  | pause =>
    simp only [Request.apply, Debugger.pause]
    split <;> rfl
  | resume =>
    simp only [Request.apply, Debugger.resume]
    split <;> rfl
  | allow =>
    simp only [Request.apply, Debugger.allow]
    split <;> rfl

theorem unrecorded_launched (d : Debugger config (Recorded τ)) :
    (d.launched source program).unrecorded = d.unrecorded.launched source program := by
  have hnoted := inner_noteAll (compileNotes config.passes source (.ok program)) d.console
  simp only [launched, readied, unrecorded, ← hnoted]
  congr 1
  cases d.program <;> rfl

/-- Without its transcript, a recorded debugger does as the plain one does. -/
theorem unrecorded_apply (change : α → τ → τ) {act : Act α} (h : act.isMidRun = true)
    (d : Debugger config (Recorded τ)) :
    (act.apply (Recorded.outside change) d).unrecorded = act.apply change d.unrecorded := by
  cases act with
  | advance => exact unrecorded_advance d
  | call request => exact unrecorded_request request d.console.inner d.worker
  | elapse nanoseconds => rfl
  | outside x => rfl
  | start | requestStop | takeBack => cases h

theorem unrecorded_after (change : α → τ → τ) {acts : List (Act α)}
    (h : ∀ act ∈ acts, act.isMidRun = true) (d : Debugger config (Recorded τ)) :
    (d.after (Recorded.outside change) acts).unrecorded = d.unrecorded.after change acts := by
  induction acts generalizing d with
  | nil => rfl
  | cons act acts ih =>
    have hfirst := unrecorded_apply change (h act List.mem_cons_self) d
    have hrest := ih (fun act hact => h act (List.mem_cons_of_mem _ hact))
      (act.apply (Recorded.outside change) d)
    rw [hfirst] at hrest
    exact hrest

/-- What the controller asks for and the time have no part in what holds of a run. -/
theorem Mirrors.frame {desk' : Desk config} {worker : Option (DebugWorker config.machine.width)}
    (h : Mirrors program t desk worker) (hexecuted : desk'.control.executed = desk.control.executed)
    (hindex : desk'.control.index = desk.control.index)
    (hpointer : desk'.control.pointer = desk.control.pointer)
    (hkill : desk'.control.kill = desk.control.kill)
    (htape : desk'.control.tape = desk.control.tape)
    (hreport : desk'.control.report = desk.control.report) (hclock : desk.clock ≤ desk'.clock) :
    Mirrors program t desk' worker := by
  have hcontrol {before : List Exchange} {m : Machine config.machine.width}
      (ht : Tracks config.machine.tapeSize program before desk.control m) :
      Tracks config.machine.tapeSize program before desk'.control m :=
    ht.of_control hexecuted (hindex.trans ht.index) (hpointer.trans ht.pointer) hkill
  cases h with
  | live phase ht => exact .live phase (hcontrol ht)
  | crashed ht hlimit => exact .crashed (hcontrol ht) (by omega)
  | ended ht hends hr htape' he =>
    exact .ended (hcontrol ht) hends (hreport.trans hr) (htape.trans htape') he

theorem Mirrors.rest (h : Tracks config.machine.tapeSize program t desk.control m)
    (state : RunState) :
    Mirrors program t desk (some (rest config state desk.clock program m)) := by
  simp only [Debugger.rest]
  split
  · exact .live .boundary h
  · split
    · exact .live (.asleep _) h
    · exact .crashed h (by omega)

theorem completeInstruction_transcript (desk : Desk config) (program : Program) (index : Nat)
    (event : Event) (m : Machine config.machine.width) (c : Recorded τ) :
    (completeInstruction desk program index event m c).console.transcript = c.transcript := by
  simp only [completeInstruction]
  split <;> rfl

theorem Mirrors.completeInstruction {σ : Type} [Console σ] {m' : Machine config.machine.width}
    {c c' : τ} {event : Event} (h : Tracks config.machine.tapeSize program t desk.control m)
    (ht : m.turn program c = .moved event m' c') (hm' : m'.memory.OnTape) (index : Nat) (s : σ) :
    Mirrors program (t ++ event.exchanges)
      (completeInstruction desk program index event m' s).toDesk
      (completeInstruction desk program index event m' s).worker := by
  obtain ⟨console, he⟩ := completeInstruction_eq desk program index event m' s
  rw [he]
  refine Mirrors.rest (h.moved ht hm' ?_ ?_ ?_ ?_) _
  all_goals rfl

theorem Mirrors.finish {status : RunStatus} {errors : List Exchange}
    (h : Tracks config.machine.tapeSize program t desk.control m)
    (hends : m.Ends program status errors) (c : τ)
    (worker : Option (DebugWorker config.machine.width)) :
    Mirrors program
      (t ++ errors ++ [.message (Report.line ⟨status, ⟨desk.clock - desk.startedAt⟩⟩)])
      (finish status m ⟨desk, c, worker⟩).toDesk (finish status m ⟨desk, c, worker⟩).worker :=
  .ended (h.of_control rfl rfl rfl rfl) hends rfl rfl rfl

theorem Mirrors.carryOut (h : Tracks config.machine.tapeSize program t desk.control m)
    (hp : program.Paired) (hput : ∀ ch (c : τ), (Console.put ch c).1 = true) (c : τ) :
    Mirrors program (carryOut desk program m (⟨c, t⟩ : Recorded τ)).2.console.transcript
      (carryOut desk program m (⟨c, t⟩ : Recorded τ)).2.toDesk
      (carryOut desk program m (⟨c, t⟩ : Recorded τ)).2.worker := by
  rcases Machine.turn_safe hp h.onTape hput c with ⟨event, m', c', ht, hm'⟩ | ht | hs | ⟨e, hs⟩
  · simp only [Debugger.carryOut, Machine.turn_recorded, ht, Turn.record,
      completeInstruction_transcript]
    exact Mirrors.completeInstruction h ht hm' m.index _
  · simp only [Debugger.carryOut, Machine.turn_recorded, ht, Turn.record]
    exact .live .executing h
  · simp only [Debugger.carryOut, Machine.turn_of_halt hs]
    have hfinish := Mirrors.finish h (.completed hs) (⟨c, t⟩ : Recorded τ) none
    rwa [List.append_nil] at hfinish
  · simp only [Debugger.carryOut, Machine.turn_of_fault hs]
    exact Mirrors.finish h (.failed e hs) (⟨c, t⟩ : Recorded τ) none

theorem Mirrors.advance {d : Debugger config (Recorded τ)}
    (h : Mirrors program d.console.transcript d.toDesk d.worker) (hp : program.Paired)
    (hput : ∀ ch (c : τ), (Console.put ch c).1 = true) :
    Mirrors program d.advance.2.console.transcript d.advance.2.toDesk d.advance.2.worker := by
  obtain ⟨desk, ⟨c, t⟩, worker⟩ := d
  cases h with
  | crashed ht hlimit => exact .crashed ht hlimit
  | ended ht hends hr htape he => exact .ended ht hends hr htape he
  | @live m phase ht =>
    cases phase with
    | executing => exact Mirrors.carryOut ht hp hput c
    | boundary =>
      have hadvanced := advanced desk (⟨c, t⟩ : Recorded τ) program m .boundary
      generalize Debugger.advance (τ := Recorded τ) _ = answer at hadvanced ⊢
      cases hadvanced with
      | waits => exact .live .boundary ht
      | begins => exact .live .executing (ht.of_control rfl ht.index ht.pointer rfl)
      | parks => exact .live .boundary (ht.of_control rfl rfl rfl rfl)
      | stopped hkill => cases ht.kill.symm.trans hkill
    | asleep deadline =>
      have hadvanced := advanced desk (⟨c, t⟩ : Recorded τ) program m (.asleep deadline)
      generalize Debugger.advance (τ := Recorded τ) _ = answer at hadvanced ⊢
      cases hadvanced with
      | sleeps => exact .live (.asleep deadline) ht
      | wakes => exact .live .boundary ht

theorem Mirrors.apply {d : Debugger config (Recorded τ)}
    (h : Mirrors program d.console.transcript d.toDesk d.worker) (hp : program.Paired)
    (hput : ∀ ch (c : τ), (Console.put ch c).1 = true) (change : α → τ → τ) {act : Act α}
    (hact : act.isMidRun = true) :
    Mirrors program (act.apply (Recorded.outside change) d).console.transcript
      (act.apply (Recorded.outside change) d).toDesk
      (act.apply (Recorded.outside change) d).worker := by
  cases act with
  | advance => exact h.advance hp hput
  | call request =>
    obtain ⟨state, permit, pausing, breakpoints, he⟩ := request.apply_eq d
    rw [Act.apply, he]
    exact h.frame rfl rfl rfl rfl rfl rfl (Nat.le_refl _)
  | elapse nanoseconds =>
    exact h.frame rfl rfl rfl rfl rfl rfl (Nat.le_add_right _ nanoseconds)
  | outside x => exact h
  | start | requestStop | takeBack => cases hact

theorem Mirrors.after {d : Debugger config (Recorded τ)}
    (h : Mirrors program d.console.transcript d.toDesk d.worker) (hp : program.Paired)
    (hput : ∀ ch (c : τ), (Console.put ch c).1 = true) (change : α → τ → τ) {acts : List (Act α)}
    (hacts : ∀ act ∈ acts, act.isMidRun = true) :
    Mirrors program (d.after (Recorded.outside change) acts).console.transcript
      (d.after (Recorded.outside change) acts).toDesk
      (d.after (Recorded.outside change) acts).worker := by
  induction acts generalizing d with
  | nil => exact h
  | cons act acts ih =>
    exact ih (h.apply hp hput change (hacts act List.mem_cons_self))
      (fun act hact => hacts act (List.mem_cons_of_mem _ hact))

theorem Mirrors.start (hcompile : compile config.passes source = .ok program)
    (hstart : (d.start source).1 = .ok) :
    (d.recorded.start source).2.unrecorded = (d.start source).2 ∧
      Mirrors program (d.recorded.start source).2.console.transcript
        (d.recorded.start source).2.toDesk (d.recorded.start source).2.worker := by
  have hstarted := started source none d
  rw [hstart] at hstarted
  generalize he : (d.start source).2 = d' at hstarted
  cases hstarted with
  | @threaded program' pause hinactive hcompile' hthrottle hrefusal =>
    cases hcompile.symm.trans hcompile'
    have hrecorded : d.recorded.start source = (.ok, d.recorded.launched source program) :=
      start_of_ready hinactive hcompile hthrottle
    have htranscript : (d.recorded.launched source program).console.transcript = [] := by
      simp only [launched, readied]
      split <;> exact Recorded.transcript_noteAll _ _
    rw [hrecorded, htranscript]
    exact ⟨unrecorded_launched d.recorded, .live .boundary (.fresh _ _ _ _)⟩

theorem Interleaves.mirrors (h : Interleaves source t d)
    (hput : ∀ ch (c : τ), (Console.put ch c).1 = true)
    (hcompile : compile config.passes source = .ok program) :
    Mirrors program t d.toDesk d.worker := by
  have hp : program.Paired := by
    obtain ⟨b, -, rfl⟩ := compile_eq_ok_iff.mp hcompile
    exact Program.ofBlock_paired _
  obtain ⟨c, seen, idle, acts, -, hstart, hacts, rfl, rfl⟩ := h
  obtain ⟨hunrecorded, hmirrors⟩ := Mirrors.start hcompile hstart
  -- Desk and worker are those of the recorded debugger, which has the transcript as well.
  have hafter := unrecorded_after (fun c _ => c) hacts (idle.recorded.start source).2
  rw [hunrecorded] at hafter
  have hd : idle.after (fun c _ => c) (.start source none :: acts) =
      ((idle.recorded.start source).2.after (Recorded.outside fun c _ => c) acts).unrecorded :=
    hafter.symm
  rw [hd]
  exact hmirrors.after hp hput (fun c _ => c) hacts

/-- A debugger shows cells at least as wide as those of its machine. -/
theorem History.allocate {change : α → τ → τ} {c : τ} {seen : Observed config.machine.width}
    (h : History change c seen d) :
    (Machine.allocate config.machine.tapeSize .fatal : Except Defect
      (Machine config.machine.width)) = .ok (.new config.machine.tapeSize .fatal) := by
  induction h with
  | new hnew =>
    have hhold : shownWidth.canHold config.machine.cellCount = true := by
      simp only [Debugger.allocate] at hnew
      split at hnew
      · assumption
      · cases hnew
    have hbytes : config.machine.width.bytes ≤ shownWidth.bytes := by
      cases config.machine.width <;> decide
    have hhold' : config.machine.width.canHold (max config.machine.tapeSize 1) = true := by
      simp only [CellWidth.canHold, decide_eq_true_eq] at hhold ⊢
      exact Nat.le_trans (Nat.mul_le_mul_left _ hbytes) hhold
    simp [Machine.allocate, Tape.allocate, hhold', Except.map, Machine.new, Memory.blank]
  | act _ _ ih => exact ih

end Debugger

section

variable {w : CellWidth} {size : Nat} {program : Program} {t : List Exchange}
  {control : Control w} {m : Machine w}

theorem Tracks.execute (h : Tracks size program t control m) (future : List (Option Char)) :
    ∃ progress, execute program never control.executed {} (.new size .fatal)
      (Recorded.script (Exchange.answers t ++ future)) =
        ⟨.unfinished, m, ⟨⟨future⟩, t⟩, progress⟩ := by
  obtain ⟨progress, hx⟩ := (h.retraces future).execute {}
  exact ⟨progress, hx 0⟩

theorem Machine.Ends.execute {status : RunStatus} {errors : List Exchange}
    (h : m.Ends program status errors) (progress : Progress) (s : Script) (t : List Exchange) :
    TapeLang.execute program never 1 progress m (⟨s, t⟩ : Recorded Script) =
      ⟨.ended status, m, ⟨s, t ++ errors⟩, progress⟩ := by
  cases h with
  | completed hs => simp [TapeLang.execute, never, turn_of_halt hs]
  | failed e hs =>
    simp only [TapeLang.execute, never, turn_of_fault hs]
    rfl

end

theorem Tracks.interpret (config : Config) {program : Program} {t errors : List Exchange}
    {control : Control config.width} {m : Machine config.width} {status : RunStatus}
    (h : Tracks config.tapeSize program t control m) (hends : m.Ends program status errors)
    (hbounds : config.bounds = .fatal)
    (halloc : (Machine.allocate config.tapeSize .fatal : Except Defect (Machine config.width)) =
      .ok (.new config.tapeSize .fatal)) (future : List (Option Char)) :
    ∃ fuel progress, interpret config program never fuel {}
      (Recorded.script (Exchange.answers t ++ future)) =
        ⟨.ended status, m,
          ⟨⟨future⟩, t ++ errors ++ [.message (Report.line ⟨status, .zero⟩)]⟩, progress⟩ := by
  obtain ⟨progress, hx⟩ := (h.retraces future).execute {}
  have hlast := (hx 1).trans (hends.execute progress ⟨future⟩ t)
  refine ⟨control.executed + 1, progress, ?_⟩
  have hnote (n : Note) (answers : List (Option Char)) :
      Console.note n (Recorded.script answers) = Recorded.script answers := rfl
  simp only [TapeLang.interpret, hbounds, halloc, hnote, hlast]
  rfl

/-- Whatever the controller does short of stopping it, a debugged run is a plain run under fatal
bounds, and if it ends by itself, it ends as the interpreter does. The only other way out is that it
breaks down when the clock cannot show the end of its pause. -/
theorem debugger_refines_interpreter {config : DebugConfig} {τ : Type} [Console τ]
    (hput : ∀ ch (c : τ), (Console.put ch c).1 = true) {source : String} {program : Program}
    (hcompile : compile config.passes source = .ok program) {pause : Duration}
    (hthrottle : config.throttle = .ok pause) {t : List Exchange} {d : Debugger config τ}
    (hrun : Debugger.Interleaves source t d) :
    ∃ m before after, t = before ++ after ∧
      (∀ future, ∃ progress,
        execute program never d.control.executed {} (.new config.machine.tapeSize .fatal)
          (Recorded.script (Exchange.answers before ++ future)) =
            ⟨.unfinished, m, ⟨⟨future⟩, before⟩, progress⟩) ∧
      d.control.index = m.index ∧ d.control.pointer = m.pointer ∧
      ((after = [] ∧ ∃ phase, d.worker = some (.live program m phase)) ∨
        (after = [] ∧ d.worker = some .crashed ∧ clockLimit ≤ d.clock + pause.nanoseconds) ∨
        (d.worker = some .ended ∧ ∃ status elapsed errors,
          d.control.report = some ⟨status, elapsed⟩ ∧ d.control.tape = m.tape ∧
          after = errors ++ [.message (Report.line ⟨status, elapsed⟩)] ∧
          (∀ text, .message text ∉ before ++ errors) ∧
          ∀ future, ∃ fuel progress,
            interpret { config.machine with bounds := .fatal } program never fuel {}
              (Recorded.script (Exchange.answers before ++ future)) =
                ⟨.ended status, m, ⟨⟨future⟩,
                  before ++ errors ++ [.message (Report.line ⟨status, .zero⟩)]⟩, progress⟩)) := by
  have hmirrors := hrun.mirrors hput hcompile
  have hpause : Debugger.pauseLength config = pause := by simp [Debugger.pauseLength, hthrottle]
  generalize hworker : d.worker = worker at hmirrors
  cases hmirrors with
  | @live m phase ht =>
    exact ⟨m, t, [], (List.append_nil t).symm, ht.execute, ht.index, ht.pointer,
      Or.inl ⟨rfl, phase, rfl⟩⟩
  | @crashed m ht hlimit =>
    exact ⟨m, t, [], (List.append_nil t).symm, ht.execute, ht.index, ht.pointer,
      Or.inr (Or.inl ⟨rfl, rfl, hpause ▸ hlimit⟩)⟩
  | @ended m before errors status elapsed ht hends hreport htape he =>
    refine ⟨m, before, _, he.trans (List.append_assoc _ _ _), ht.execute, ht.index, ht.pointer,
      Or.inr (Or.inr ⟨rfl, status, elapsed, errors, hreport, htape, rfl, fun text => ?_, ?_⟩)⟩
    · have herrors : .message text ∉ errors := by
        cases hends <;> simp
      simp [ht.quiet text, herrors]
    · obtain ⟨c, seen, idle, acts, hhistory, -⟩ := hrun
      exact Tracks.interpret { config.machine with bounds := .fatal } ht hends rfl
        hhistory.allocate

/-- A run that waits for input, is paused and stepped, meets a breakpoint and leaves the tape. -/
theorem debugger_refines_interpreter_paused :
    ∃ t, ∃ d : Debugger { machine := { tapeSize := 1, bounds := .wrap } } Buffered,
      Debugger.Interleaves ",.#<" t d ∧ d.worker = some .ended ∧
      ∃ before after status elapsed fuel, t = before ++ after ∧
        d.control.report = some ⟨status, elapsed⟩ ∧
        (interpret { tapeSize := 1, bounds := .fatal }
          ⟨#[.op .input, .op .output, .op .breakpoint, .op (.move (-1))]⟩ never fuel {}
          (Recorded.script (Exchange.answers before ++ []))).ending = .ended status := by
  obtain ⟨t, d, hrun, hended⟩ : ∃ t,
      ∃ d : Debugger { machine := { tapeSize := 1, bounds := .wrap } } Buffered,
      Debugger.Interleaves ",.#<" t d ∧
        d.worker.any (fun | .ended => true | _ => false) = true := by
    refine ⟨_, _, ⟨{}, {}, .new 0 {},
      [.advance, .advance, .outside (Buffered.push "a" {}), .advance, .call .pause, .advance,
        .call .allow, .advance, .advance, .advance, .call .resume, .advance, .advance, .advance,
        .call .resume, .advance, .advance], .new rfl, rfl, by decide, rfl, rfl⟩, ?_⟩
    decide +kernel
  obtain ⟨m, before, after, ht, -, -, -, hcases⟩ :=
    debugger_refines_interpreter (fun _ _ => rfl) rfl rfl hrun
  rcases hcases with ⟨-, phase, hw⟩ | ⟨-, hw, -⟩ | ⟨hw, status, elapsed, errors, hr, -, -, -, hx⟩
  · rw [hw] at hended
    cases hended
  · rw [hw] at hended
    cases hended
  · obtain ⟨fuel, progress, hx⟩ := hx []
    exact ⟨_, d, hrun, hw, before, after, status, elapsed, fuel, ht, hr,
      congrArg Outcome.ending hx⟩

end TapeLang
