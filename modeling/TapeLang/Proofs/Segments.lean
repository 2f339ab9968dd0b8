import TapeLang.Proofs.Killing
import TapeLang.Proofs.Lockstep

/-! # The segments of a run

Runs come one after another on a buffered console. Each one that ends leaves a segment with what its
program printed, if it printed anything, then the error if it failed, and then its status line. The
status line keeps its output apart from that of the next run.
-/

namespace TapeLang

variable {w : CellWidth} {τ : Type}

/-- Only a move or a scan meets a fault, and it leaves the memory as it was. -/
theorem Memory.perform_eq_fault {s t : Memory w} {bounds : BoundsPolicy} {o : Op} {f : BoundsFault}
    (h : s.perform bounds o = .trap (.fault f) t) :
    t = s ∧ ((∃ n, o = .move n) ∨ ∃ d, o = .scan d) := by
  cases o with
  | move n =>
    rw [perform_move] at h
    split at h <;> cases h
    exact ⟨rfl, Or.inl ⟨n, rfl⟩⟩
  | scan d =>
    rw [perform_scan] at h
    split at h <;> cases h
    exact ⟨rfl, Or.inr ⟨d, rfl⟩⟩
  | breakpoint => cases h
  | _ =>
    simp only [perform] at h
    split at h <;> cases h

theorem Memory.perform_eq_write {s t : Memory w} {bounds : BoundsPolicy} {o : Op} {ch : Char}
    (h : s.perform bounds o = .write ch t) : o = .output := by
  cases o with
  | output => rfl
  | move n =>
    rw [perform_move] at h
    split at h <;> cases h
  | scan d =>
    rw [perform_scan] at h
    split at h <;> cases h
  | breakpoint => cases h
  | _ =>
    simp only [perform] at h
    split at h <;> cases h

namespace Machine

variable {p : Program} {m m' : Machine w}

theorem step_eq_fault {e : BoundsError} (h : m.step p = .fault e m') :
    m' = m ∧ e.instruction = m.index ∧ e.pointer = m.pointer ∧ e.tapeSize = m.tape.size ∧
      ((∃ n, p.get? m.index = some (.op (.move n))) ∨
        ∃ d, p.get? m.index = some (.op (.scan d))) := by
  by_cases hop : ∃ o, p.get? m.index = some (.op o)
  · obtain ⟨o, hget⟩ := hop
    obtain ⟨s, i, bounds⟩ := m
    simp only [step, hget] at h
    split at h <;> cases h
    next hperform =>
      obtain ⟨rfl, hmove | hscan⟩ := Memory.perform_eq_fault hperform
      · obtain ⟨n, rfl⟩ := hmove
        exact ⟨rfl, rfl, rfl, rfl, Or.inl ⟨n, hget⟩⟩
      · obtain ⟨d, rfl⟩ := hscan
        exact ⟨rfl, rfl, rfl, rfl, Or.inr ⟨d, hget⟩⟩
  · rcases step_of_not_op (not_exists.mp hop) with hs | ⟨_, hs⟩ | ⟨_, _, hs⟩ <;> simp [hs] at h

/-- The next instruction is an output. -/
def atOutput (p : Program) (m : Machine w) : Bool := p.get? m.index = some (.op .output)

/-- The character of the cell under the data pointer. -/
def currentChar (m : Machine w) : Char :=
  match m.memory.current? with
  | some cell => cell.toChar
  | none => '\uFFFD'

theorem atOutput_of_write {ch : Char} (h : m.step p = .write ch m') : m.atOutput p = true := by
  by_cases hop : ∃ o, p.get? m.index = some (.op o)
  · obtain ⟨o, hget⟩ := hop
    obtain ⟨s, i, bounds⟩ := m
    simp only [step, hget] at h
    split at h <;> cases h
    next hperform =>
      rw [Memory.perform_eq_write hperform] at hget
      exact decide_eq_true hget
  · rcases step_of_not_op (not_exists.mp hop) with hs | ⟨_, hs⟩ | ⟨_, _, hs⟩ <;> simp [hs] at h

theorem step_of_atOutput (h : m.atOutput p = true) :
    (∃ m', m.step p = .write m.currentChar m') ∨ ∃ defect m', m.step p = .crash defect m' := by
  obtain ⟨s, i, bounds⟩ := m
  have hget : p.get? i = some (.op .output) := of_decide_eq_true h
  simp only [step, hget, Memory.perform, currentChar, Memory.current?]
  cases s.tape.get? s.pointer with
  | none => exact Or.inr ⟨_, _, rfl⟩
  | some cell => exact Or.inl ⟨_, rfl⟩

theorem written_of_moved {event : Event} {b b' : Buffered} (h : m.turn p b = .moved event m' b') :
    b'.written = if m.atOutput p then
        Buffered.append .output (String.singleton m.currentChar) b.written
      else b.written := by
  unfold turn at h
  cases hat : m.atOutput p with
  | true =>
    rcases step_of_atOutput hat with ⟨_, hs⟩ | ⟨_, _, hs⟩
    · rw [hs] at h
      cases h
      rfl
    · rw [hs] at h
      cases h
  | false =>
    cases hs : m.step p with
    | proceed m₁ =>
      rw [hs] at h
      cases h
      rfl
    | pause m₁ =>
      rw [hs] at h
      cases h
      rfl
    | write ch m₁ =>
      rw [atOutput_of_write hs] at hat
      cases hat
    | read m₁ =>
      rw [hs] at h
      dsimp only at h
      split at h <;> cases h
      next hget =>
        obtain ⟨_, -, heq⟩ := Option.map_eq_some_iff.mp hget
        cases heq
        rfl
    | _ =>
      rw [hs] at h
      cases h

section

variable [Console τ]

/-- The machines that carry out the first `n` instructions of a run. -/
def trail (p : Program) : Nat → Machine w → τ → List (Machine w)
  | 0, _, _ => []
  | n + 1, m, c =>
    match m.turn p c with
    | .moved _ m' c' => m :: trail p n m' c'
    | _ => []

/-- The characters that the first `n` instructions print: one for each output, in order. -/
def printed (p : Program) (n : Nat) (m : Machine w) (c : τ) : List Char :=
  ((m.trail p n c).filter (atOutput p)).map currentChar

end

end Machine

/-- A segment for what was printed, if anything was. -/
def Segment.ofPrinted (chars : List Char) : List Segment :=
  if chars = [] then [] else [⟨.output, String.ofList chars⟩]

theorem Segment.reverse_ofPrinted (chars : List Char) :
    (ofPrinted chars).reverse = ofPrinted chars := by
  unfold ofPrinted
  split <;> rfl

/-- The error of a run, if it has failed. -/
def RunStatus.errors : RunStatus → List Segment
  | .failed e => [⟨.error, e.message⟩]
  | _ => []

/-- The segments that close a run. -/
def RunStatus.segments (status : RunStatus) : List Segment :=
  status.errors ++ [⟨.message, Report.line ⟨status, .zero⟩⟩]

/-- The last segment is not program output. -/
def Buffered.Settled (written : List Segment) : Prop :=
  ∀ text rest, written ≠ ⟨.output, text⟩ :: rest

theorem Buffered.append_ofPrinted {base : List Segment} (h : Settled base) (chars : List Char)
    (ch : Char) :
    append .output (String.singleton ch) (Segment.ofPrinted chars ++ base) =
      Segment.ofPrinted (chars ++ [ch]) ++ base := by
  cases chars with
  | nil =>
    simp only [Segment.ofPrinted, if_pos, List.nil_append, append]
    split
    · next last rest => exact (h last rest rfl).elim
    · simp
  | cons c chars =>
    have hmore : c :: chars ++ [ch] ≠ [] := by simp
    rw [Segment.ofPrinted, if_neg (List.cons_ne_nil c chars), Segment.ofPrinted, if_neg hmore,
      String.ofList_append, ← String.singleton_eq_ofList]
    rfl

theorem Moves.written {p : Program} {n : Nat} {m m' : Machine w} {c c' : Buffered}
    (h : Moves p n m c m' c') {base : List Segment} (hbase : Buffered.Settled base)
    (chars : List Char) (hwritten : c.written = Segment.ofPrinted chars ++ base) :
    c'.written = Segment.ofPrinted (chars ++ m.printed p n c) ++ base := by
  induction h generalizing chars with
  | refl => simpa [Machine.printed, Machine.trail] using hwritten
  | @step n event m m₁ m₂ c c₁ c₂ ht _ ih =>
    have hfirst := Machine.written_of_moved ht
    have htrail : m.trail p (n + 1) c = m :: m₁.trail p n c₁ := by rw [Machine.trail, ht]
    cases hat : m.atOutput p with
    | true =>
      rw [hat, if_pos rfl, hwritten, Buffered.append_ofPrinted hbase] at hfirst
      rw [ih _ hfirst, Machine.printed, Machine.printed, htrail, List.filter_cons_of_pos hat]
      simp
    | false =>
      rw [hat, if_neg Bool.false_ne_true, hwritten] at hfirst
      rw [ih _ hfirst, Machine.printed, Machine.printed, htrail,
        List.filter_cons_of_neg (by simp [hat])]

section

variable [Console τ] {program : Program} {kill : Progress → Bool} {fuel : Nat}
  {progress : Progress} {m m' : Machine w} {c : τ} {status : RunStatus}

theorem Machine.step_eq_halt (h : m.step program = .halt m') : m' = m := by
  by_cases hop : ∃ o, program.get? m.index = some (.op o)
  · obtain ⟨o, hget⟩ := hop
    simp only [step, hget] at h
    split at h <;> cases h
  · rcases step_of_not_op (not_exists.mp hop) with hs | ⟨_, hs⟩ | ⟨_, _, hs⟩
    · exact (Action.halt.inj (hs.symm.trans h)).symm
    · simp [hs] at h
    · simp [hs] at h

theorem Machine.turn_eq_halted {c' : τ} (h : m.turn program c = .halted m' c') :
    m' = m ∧ c' = c := by
  unfold turn at h
  split at h
  · next hs =>
    cases h
    exact ⟨step_eq_halt hs, rfl⟩
  · cases h
  · cases h
  · split at h <;> cases h
  · split at h <;> cases h
  · cases h
  · cases h

theorem Machine.turn_eq_faulted {e : BoundsError} {c' : τ}
    (h : m.turn program c = .faulted e m' c') : m' = m ∧ c' = c := by
  have hs := step_of_faulted h
  rw [turn_of_fault hs] at h
  cases h
  exact ⟨(step_eq_fault hs).1, rfl⟩

/-- The run ends here with a status, and this is the console once a fault is reported. -/
inductive Machine.Closes (program : Program) (m : Machine w) (c : τ) : RunStatus → τ → Prop
  | stopped : Closes program m c .stopped c
  | completed : m.turn program c = .halted m c → Closes program m c .completed c
  | failed (e : BoundsError) : m.turn program c = .faulted e m c →
      Closes program m c (.failed e) (Console.error e.message (Console.note (.runFault e) c))

theorem Progress.instructions_record (progress : Progress) (event : Event) :
    (progress.record event).instructions = progress.instructions + 1 := by
  cases event <;> rfl

/-- An execution that ends has carried out as many instructions as it has counted. -/
theorem execute_ended (h : (execute program kill fuel progress m c).ending = .ended status) :
    ∃ n c₀, (execute program kill fuel progress m c).progress.instructions =
        progress.instructions + n ∧
      Moves program n m c (execute program kill fuel progress m c).machine c₀ ∧
      (execute program kill fuel progress m c).machine.Closes program c₀ status
        (execute program kill fuel progress m c).console := by
  induction fuel generalizing progress m c with
  | zero => cases h
  | succ fuel ih =>
    rw [execute] at h ⊢
    by_cases hkill : kill progress = true
    · rw [if_pos hkill] at h ⊢
      cases h
      exact ⟨0, c, rfl, .refl m c, .stopped⟩
    · rw [if_neg hkill] at h ⊢
      cases ht : m.turn program c with
      | moved event m₁ c₁ =>
        rw [ht] at h
        obtain ⟨n, c₀, hcount, hmoves, hcloses⟩ := ih h
        refine ⟨n + 1, c₀, ?_, .step ht hmoves, hcloses⟩
        simp only [hcount, Progress.instructions_record]
        omega
      | halted m₁ c₁ =>
        obtain ⟨rfl, rfl⟩ := Machine.turn_eq_halted ht
        rw [ht] at h
        cases h
        exact ⟨0, c₁, rfl, .refl m₁ c₁, .completed ht⟩
      | faulted e m₁ c₁ =>
        obtain ⟨rfl, rfl⟩ := Machine.turn_eq_faulted ht
        rw [ht] at h
        cases h
        exact ⟨0, c₁, rfl, .refl m₁ c₁, .failed e ht⟩
      | blocked m₁ c₁ =>
        rw [ht] at h
        cases h
      | crashed defect m₁ c₁ =>
        rw [ht] at h
        cases h

end

section

variable {m : Machine w} {c c' : Buffered} {program : Program} {status : RunStatus}

theorem Machine.Closes.written (h : m.Closes program c status c') :
    (Console.message (Report.line ⟨status, .zero⟩) c').written =
      status.segments.reverse ++ c.written := by
  have hmessage (text : String) (c : Buffered) :
      (Console.message text c).written = ⟨.message, text⟩ :: c.written :=
    Buffered.written_write (by simp) text c
  rw [hmessage]
  cases h with
  | stopped => rfl
  | completed => rfl
  | failed e =>
    have herror : (Console.error e.message (Console.note (.runFault e) c)).written =
        ⟨.error, e.message⟩ :: c.written := Buffered.written_write (by simp) _ _
    rw [herror]
    rfl

theorem Machine.Closes.input (h : m.Closes program c status c') (text : String) :
    (Console.message text c').input = c.input := by
  cases h <;> rfl

end

theorem Machine.eq_new_of_allocate {size : Nat} {bounds : BoundsPolicy} {m : Machine w}
    (h : Machine.allocate size bounds = .ok m) : m = .new size bounds := by
  unfold allocate Tape.allocate at h
  split at h <;> cases h
  rfl

theorem Outcome.ending_reported [Console τ] (o : Outcome w τ) : o.reported.ending = o.ending := by
  obtain ⟨_ | _ | _ | _, m, c, progress⟩ := o <;> rfl

theorem Outcome.reported_of_ended [Console τ] {o : Outcome w τ} {status : RunStatus}
    (h : o.ending = .ended status) :
    o.reported = ⟨.ended status, o.machine,
      Console.message (Report.line ⟨status, .zero⟩) o.console, o.progress⟩ := by
  obtain ⟨ending, m, c, progress⟩ := o
  obtain rfl : ending = .ended status := h
  rfl

/-- A console, and what was counted on it, after runs that have all ended. Between two runs there
may be new input and new notes. -/
inductive BetweenRuns : Progress → Buffered → Prop
  | new (input : InputQueue) (notes : List Note) : BetweenRuns {} ⟨[], input, notes⟩
  | outside {progress : Progress} {c : Buffered} (input : InputQueue) (notes : List Note) :
      BetweenRuns progress c → BetweenRuns progress ⟨c.written, input, notes⟩
  | ran {progress : Progress} {c : Buffered} {config : Config} {program : Program}
      {kill : Progress → Bool} {fuel : Nat} {status : RunStatus} :
      BetweenRuns progress c →
      (interpret config program kill fuel progress c).ending = .ended status →
      BetweenRuns (interpret config program kill fuel progress c).progress
        (interpret config program kill fuel progress c).console

section

variable {config : Config} {program : Program} {kill : Progress → Bool} {fuel : Nat}
  {progress : Progress} {c : Buffered} {status : RunStatus}

theorem interpret_ended {τ : Type} [Console τ] {c : τ}
    (h : (interpret config program kill fuel progress c).ending = .ended status) :
    ∃ n c₀ c₁,
      (interpret config program kill fuel progress c).progress.instructions =
        progress.instructions + n ∧
      Moves program n (.new config.tapeSize config.bounds)
        (Console.note (.running program.size config) c)
        (interpret config program kill fuel progress c).machine c₀ ∧
      (interpret config program kill fuel progress c).machine.Closes program c₀ status c₁ ∧
      (interpret config program kill fuel progress c).console =
        Console.message (Report.line ⟨status, .zero⟩) c₁ := by
  cases halloc : (Machine.allocate config.tapeSize config.bounds :
      Except Defect (Machine config.width)) with
  | error defect => simp [interpret, halloc] at h
  | ok fresh =>
    obtain rfl := Machine.eq_new_of_allocate halloc
    rw [interpret_of_allocate halloc] at h ⊢
    have hexecuted : (execute program kill fuel progress (.new config.tapeSize config.bounds)
        (Console.note (.running program.size config) c)).ending = .ended status :=
      (Outcome.ending_reported _).symm.trans h
    obtain ⟨n, c₀, hcount, hmoves, hcloses⟩ := execute_ended hexecuted
    rw [Outcome.reported_of_ended hexecuted]
    exact ⟨n, c₀, _, hcount, hmoves, hcloses, rfl⟩

theorem BetweenRuns.settled (h : BetweenRuns progress c) : Buffered.Settled c.written := by
  induction h with
  | new => rintro text rest ⟨⟩
  | outside input notes _ ih => exact ih
  | @ran progress c config program kill fuel status _ hended _ =>
    obtain ⟨n, c₀, c₁, -, -, hcloses, hconsole⟩ := interpret_ended hended
    intro text rest heq
    rw [hconsole, hcloses.written, RunStatus.segments, List.reverse_append] at heq
    cases heq

end

/-- A run that ends adds to a buffered console one segment with its output, if there was any, the
error if it has failed, and the status line. A run that has failed stands where its last instruction
met the fault. -/
theorem runs_leave_segments {progress : Progress} {c : Buffered} (h : BetweenRuns progress c)
    (config : Config) (program : Program) (kill : Progress → Bool) (fuel : Nat)
    {status : RunStatus}
    (hended : (interpret config program kill fuel progress c).ending = .ended status) :
    let o := interpret config program kill fuel progress c
    let fresh : Machine config.width := .new config.tapeSize config.bounds
    let began := Console.note (.running program.size config) c
    let n := o.progress.instructions - progress.instructions
    o.console.output =
      c.output ++ Segment.ofPrinted (fresh.printed program n began) ++ status.segments ∧
    ∃ last, Moves program n fresh began o.machine last ∧ o.console.input = last.input ∧
      ∀ e, status = .failed e →
        o.machine.turn program last = .faulted e o.machine last ∧
        e.pointer = o.machine.pointer ∧ e.tapeSize = o.machine.tape.size ∧
        ((∃ d, program.get? e.instruction = some (.op (.move d))) ∨
          ∃ d, program.get? e.instruction = some (.op (.scan d))) := by
  intro o fresh began n
  obtain ⟨k, last, c₁, hcount, hmoves, hcloses, hconsole⟩ := interpret_ended hended
  obtain rfl : n = k := by
    simp only [n, o, hcount]
    omega
  have hwritten := hmoves.written h.settled [] rfl
  refine ⟨?_, last, hmoves, ?_, ?_⟩
  · simp only [o, fresh, began, hconsole, Buffered.output, hcloses.written, hwritten,
      List.reverse_append, List.reverse_reverse, List.nil_append, Segment.reverse_ofPrinted]
  · rw [hconsole]
    exact hcloses.input _
  · rintro e rfl
    cases hcloses with
    | failed _ hturn =>
      obtain ⟨-, hindex, hpointer, hsize, hop⟩ :=
        Machine.step_eq_fault (Machine.step_of_faulted hturn)
      exact ⟨hturn, hpointer, hsize, hindex ▸ hop⟩

theorem runs_leave_segments_second_fails :
    let config : Config := { tapeSize := 1, bounds := .fatal }
    let first := interpret config ⟨#[.op .input, .op .output]⟩ never 3 {} (Buffered.withInput "ab")
    let second := interpret config ⟨#[.op .input, .op .output, .op (.move 1)]⟩ never 3
      first.progress first.console
    second.ending = .ended (.failed ⟨.overflow, 2, 0, 1⟩) ∧
      second.console.output =
        [⟨.output, "a"⟩, ⟨.message, "Program completed in 0.000 ms"⟩, ⟨.output, "b"⟩,
          ⟨.error, BoundsError.message ⟨.overflow, 2, 0, 1⟩⟩,
          ⟨.message, "Program terminated by an error after 0.000 ms"⟩] ∧
      second.machine.pointer = 0 := by
  intro config first second
  have hfirst : first.ending = .ended .completed := by decide +kernel
  have hsecond : second.ending = .ended (.failed ⟨.overflow, 2, 0, 1⟩) := by decide +kernel
  obtain ⟨houtput, last, -, -, hfault⟩ :=
    runs_leave_segments (.ran (.new _ _) hfirst) config _ never 3 hsecond
  obtain ⟨-, hpointer, -, -⟩ := hfault _ rfl
  exact ⟨hsecond, houtput.trans (by decide +kernel), hpointer.symm⟩

end TapeLang
