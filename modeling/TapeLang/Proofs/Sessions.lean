import TapeLang.Proofs.LookAlikes
import TapeLang.Proofs.Operation
import TapeLang.Session

/-! # Runs of a session

What can be done to a session, one thing after the other, what a start does to the console, and how
two sessions compare after the same has been done to both.
-/

namespace TapeLang

/-- A machine that has done nothing yet, on a tape of zeros. -/
structure Machine.Fresh {w : CellWidth} (m : Machine w) : Prop where
  index : m.index = 0
  pointer : m.pointer = 0
  zero : ∀ i cell, m.tape.get? i = some cell → cell = .zero

theorem Machine.fresh_new {w : CellWidth} (tapeSize : Nat) (bounds : BoundsPolicy) :
    (Machine.new tapeSize bounds : Machine w).Fresh := by
  refine ⟨rfl, rfl, fun i cell hcell => ?_⟩
  have hblank : (Array.replicate (max tapeSize 1) (Cell.zero : Cell w))[i]? = some cell := hcell
  rw [Array.getElem?_replicate] at hblank
  split at hblank <;> cases hblank
  rfl

namespace Session

variable {config : Config} {τ α : Type} [Console τ] {change : α → τ → τ} {P : τ → Prop} {c : τ}
  {program : Program} {s s' : Session config τ}

/-- The first half of a stop: the run is asked to end. -/
def requestStop (s : Session config τ) : Session config τ :=
  match s.worker with
  | none => s
  | some _ => { s with killed := true, console := Console.release s.console }

/-- The second half of a stop: the run is taken back, once it has ended. -/
def takeBack (s : Session config τ) : Session config τ :=
  if s.isAlive ∨ s.worker.isNone then s
  else { s.join.2 with console := Console.note .sessionStopped s.join.2.console }

inductive Act (α : Type)
  /-- The system may refuse the run a thread for some reason. -/
  | start (source : String) (refusal : Option String)
  | startProgram (program : Program) (refusal : Option String)
  | advance
  | requestStop
  | takeBack
  | join
  | elapse (elapsed : Duration)
  | outside (change : α)

def Act.apply (change : α → τ → τ) : Act α → Session config τ → Session config τ
  | .start source refusal, s => (s.start source refusal).2
  | .startProgram program refusal, s => (s.startProgram program refusal).2
  | .advance, s => s.advance.2
  | .requestStop, s => s.requestStop
  | .takeBack, s => s.takeBack
  | .join, s => s.join.2
  | .elapse elapsed, s => { s with elapsed }
  | .outside x, s => { s with console := change x s.console }

def after (change : α → τ → τ) (acts : List (Act α)) (s : Session config τ) : Session config τ :=
  acts.foldl (fun s act => act.apply change s) s

/-- What an observer knows of the starts so far. -/
structure Observed where
  /-- Whether one succeeded. -/
  started : Bool := false
  /-- Whether one was refused a thread. -/
  refused : Bool := false
  deriving DecidableEq

def Observed.answered (seen : Observed) : Except ControlError Unit → Observed
  | .ok () => { seen with started := true }
  | .error (.spawn _) => { seen with refused := true }
  | .error _ => seen

def Act.observe (act : Act α) (s : Session config τ) (seen : Observed) : Observed :=
  match act with
  | .start source refusal => seen.answered (s.start source refusal).1
  | .startProgram program refusal => seen.answered (s.startProgram program refusal).1
  | _ => seen

/-- What the observer knows after acts that began with `seen`. -/
def observed (change : α → τ → τ) (seen : Observed) :
    List (Act α) → Session config τ → Observed
  | [], _ => seen
  | act :: acts, s => observed change (act.observe s seen) acts (act.apply change s)

/-- A session on console `c` after any acts, and what an observer knows by then. -/
inductive History (change : α → τ → τ) (c : τ) : Observed → Session config τ → Prop
  | new : History change c {} { console := c }
  | act {seen : Observed} {s : Session config τ} (act : Act α) : History change c seen s →
      History change c (act.observe s seen) (act.apply change s)

/-- The run of a program at its beginning. It breaks down at once if memory cannot hold its tape. -/
def firstWorker (config : Config) (program : Program) : Worker config.width :=
  match Machine.allocate config.tapeSize config.bounds with
  | .ok machine => .atBoundary program machine
  | .error _ => .crashed

/-- A session that was made ready for a run. -/
def readied (before after : List Note) (worker : Option (Worker config.width))
    (s : Session config τ) : Session config τ :=
  ⟨Console.renew s.used before after s.console, worker, false, true, .zero⟩

theorem join_eq (s : Session config τ) (h : s.isAlive = false) : ∃ notes, s.join.2 =
    { s with worker := none, console := Console.noteAll notes s.console } := by
  obtain ⟨c, _ | (_ | _ | _ | _), killed, used, elapsed⟩ := s
  · exact ⟨[], rfl⟩
  · cases h
  · cases h
  · exact ⟨[], rfl⟩
  · exact ⟨[.sessionCrashed], rfl⟩

theorem startProgram_of_alive (h : s.isAlive = true) (program : Program)
    (refusal : Option String) :
    s.startProgram program refusal = (.error .alreadyRunning, s) := by
  simp only [startProgram, h, if_true]

/-- A start takes notes, and resets the console if it was used. Only then may it be refused a
thread. -/
theorem startProgram_of_not_alive (h : s.isAlive = false) (program : Program)
    (refusal : Option String) : ∃ before after, s.startProgram program refusal =
      match refusal with
      | some reason => (.error (.spawn reason), s.readied before after none)
      | none => (.ok (), s.readied before after (some (firstWorker config program))) := by
  obtain ⟨before, hjoin⟩ := s.join_eq h
  simp only [startProgram, h, Bool.false_eq_true, if_false, hjoin]
  cases refusal with
  | some reason => exact ⟨before, [.sessionStarted config.width], rfl⟩
  | none => exact ⟨before, [.sessionStarted config.width, .running program.size config], rfl⟩

theorem start_of_alive (h : s.isAlive = true) (source : String) (refusal : Option String) :
    s.start source refusal = (.error .alreadyRunning, s) := by
  simp only [start, h, if_true]

theorem start_of_error {source : String} {e : CompileError} (h : s.isAlive = false)
    (hcompile : compile .all source = .error e) (refusal : Option String) :
    s.start source refusal = (.error (.compile e), { s with
      console := Console.error (ControlError.compile e).message
        (Console.noteAll (compileNotes .all source (.error e)) s.console) }) := by
  simp only [start, h, Bool.false_eq_true, if_false, hcompile]

theorem start_of_ok {source : String} (h : s.isAlive = false)
    (hcompile : compile .all source = .ok program) (refusal : Option String) :
    s.start source refusal = startProgram program { s with
      console := Console.noteAll (compileNotes .all source (.ok program)) s.console } refusal := by
  simp only [start, h, Bool.false_eq_true, if_false, hcompile]

/-- A start that succeeds, of a program or of a text that compiles to it. -/
inductive Starts (program : Program) (s s' : Session config τ) : Prop
  | program : s.startProgram program = (.ok (), s') → Starts program s s'
  | source (source : String) : compile .all source = .ok program →
      s.start source = (.ok (), s') → Starts program s s'

theorem startProgram_eq_ok (h : s.startProgram program = (.ok (), s')) :
    ∃ before after, s' = s.readied before after (some (firstWorker config program)) := by
  cases halive : s.isAlive with
  | true =>
    rw [startProgram_of_alive halive] at h
    cases h
  | false =>
    obtain ⟨before, after, he⟩ := startProgram_of_not_alive halive program none
    rw [he] at h
    cases h
    exact ⟨before, after, rfl⟩

theorem Starts.eq_readied (h : Starts program s s') :
    ∃ before after, s' = s.readied before after (some (firstWorker config program)) := by
  cases h with
  | program h => exact startProgram_eq_ok h
  | source source hcompile h =>
    cases halive : s.isAlive with
    | true =>
      rw [start_of_alive halive] at h
      cases h
    | false =>
      rw [start_of_ok halive hcompile] at h
      obtain ⟨before, after, rfl⟩ := startProgram_eq_ok h
      refine ⟨compileNotes .all source (.ok program) ++ before, after, ?_⟩
      simp only [readied, Console.renew, Console.noteAll_append]

/-- As long as nothing was made ready for a run, there is none and the console was not released. -/
structure Clean (P : τ → Prop) (seen : Observed) (s : Session config τ) : Prop where
  used : s.used = (seen.started || seen.refused)
  untouched : s.used = false → s.worker = none ∧ P s.console

variable {seen : Observed}

theorem used_advance (s : Session config τ) : s.advance.2.used = s.used := by
  obtain ⟨c, _ | (⟨program, m⟩ | ⟨program, m⟩ | _ | _), killed, used, elapsed⟩ := s
  · rfl
  · simp only [advance]
    split <;> rfl
  · simp only [advance]
    split <;> rfl
  · rfl
  · rfl

theorem used_join (s : Session config τ) : s.join.2.used = s.used := by
  unfold join
  split <;> rfl

theorem Clean.startProgram (h : Clean P seen s) (program : Program) (refusal : Option String) :
    Clean P (seen.answered (s.startProgram program refusal).1)
      (s.startProgram program refusal).2 := by
  cases halive : s.isAlive with
  | true =>
    rw [startProgram_of_alive halive]
    exact h
  | false =>
    obtain ⟨before, after, he⟩ := startProgram_of_not_alive halive program refusal
    rw [he]
    cases refusal with
    | some reason => exact ⟨(Bool.or_true _).symm, fun hfalse => Bool.noConfusion hfalse⟩
    | none => exact ⟨rfl, fun hfalse => Bool.noConfusion hfalse⟩

theorem Clean.start (h : Clean P seen s) (hlasting : Console.Lasting change P) (source : String)
    (refusal : Option String) :
    Clean P (seen.answered (s.start source refusal).1) (s.start source refusal).2 := by
  cases halive : s.isAlive with
  | true =>
    rw [start_of_alive halive]
    exact h
  | false =>
    cases hcompile : compile .all source with
    | error e =>
      rw [start_of_error halive hcompile]
      exact ⟨h.used, fun hfirst => ⟨(h.untouched hfirst).1,
        hlasting.error _ (hlasting.noteAll _ (h.untouched hfirst).2)⟩⟩
    | ok program =>
      rw [start_of_ok halive hcompile]
      have hnoted : Clean P seen { s with
          console := Console.noteAll (compileNotes .all source (.ok program)) s.console } :=
        ⟨h.used, fun hfirst =>
          ⟨(h.untouched hfirst).1, hlasting.noteAll _ (h.untouched hfirst).2⟩⟩
      exact hnoted.startProgram program refusal

theorem Clean.act (h : Clean P seen s) (hlasting : Console.Lasting change P) (act : Act α) :
    Clean P (act.observe s seen) (act.apply change s) := by
  -- Without a run, what is meant for the run changes nothing.
  have hnothing {f : Session config τ → Session config τ}
      (hused : (f s).used = s.used) (hnone : s.worker = none → f s = s) : Clean P seen (f s) := by
    refine ⟨hused.trans h.used, fun hfirst => ?_⟩
    have huntouched := h.untouched (hused.symm.trans hfirst)
    rw [hnone huntouched.1]
    exact huntouched
  cases act with
  | start source refusal => exact h.start hlasting source refusal
  | startProgram program refusal => exact h.startProgram program refusal
  | advance =>
    refine hnothing (f := fun s => s.advance.2) (used_advance s) fun hnone => ?_
    obtain ⟨c, worker, killed, used, elapsed⟩ := s
    cases hnone
    rfl
  | requestStop =>
    refine hnothing (f := Session.requestStop) ?_ fun hnone => ?_
    · unfold requestStop
      split <;> rfl
    · simp only [requestStop, hnone]
  | takeBack =>
    refine hnothing (f := Session.takeBack) ?_ fun hnone => ?_
    · unfold takeBack
      split
      · rfl
      · exact used_join s
    · simp [takeBack, hnone]
  | join =>
    refine hnothing (f := fun s => s.join.2) (used_join s) fun hnone => ?_
    simp only [join, hnone]
  | elapse elapsed => exact ⟨h.used, h.untouched⟩
  | outside x =>
    exact ⟨h.used, fun hfirst => ⟨(h.untouched hfirst).1, hlasting.change x (h.untouched hfirst).2⟩⟩

theorem History.after (h : History change c seen s) (acts : List (Act α)) :
    History change c (s.observed change seen acts) (s.after change acts) := by
  induction acts generalizing seen s with
  | nil => exact h
  | cons act acts ih => exact ih (h.act act)

/-- How a run must begin: nothing tells it to end, and its machine has done nothing yet. It breaks
down at once if memory cannot hold its tape. -/
structure Begins (program : Program) (s : Session config τ) : Prop where
  killed : s.killed = false
  worker : (∃ m, s.worker = some (.atBoundary program m) ∧ m.Fresh) ∨
    s.worker = some .crashed ∧ ∃ defect : Defect,
      (Machine.allocate config.tapeSize config.bounds : Except Defect (Machine config.width)) =
        .error defect

theorem firstWorker_cases (config : Config) (program : Program) :
    (∃ m, firstWorker config program = .atBoundary program m ∧ m.Fresh) ∨
      firstWorker config program = .crashed ∧ ∃ defect : Defect,
        (Machine.allocate config.tapeSize config.bounds : Except Defect (Machine config.width)) =
          .error defect := by
  unfold firstWorker
  simp only [Machine.allocate, Tape.allocate]
  split
  · next hm =>
    refine Or.inl ⟨_, rfl, ?_⟩
    split at hm <;> cases hm
    exact Machine.fresh_new config.tapeSize config.bounds
  · next hm => exact Or.inr ⟨rfl, _, hm⟩

theorem Starts.begins (h : Starts program s s') : Begins program s' := by
  obtain ⟨before, after, rfl⟩ := h.eq_readied
  exact ⟨rfl, by simpa only [readied, Option.some.injEq] using firstWorker_cases config program⟩

theorem advance_of_stuck (h : s.advance.1 = false) : s.advance.2 = s := by
  obtain ⟨c, _ | (⟨program, m⟩ | ⟨program, m⟩ | _ | _), killed, used, elapsed⟩ := s
  · rfl
  · simp only [advance] at h
    split at h <;> cases h
  · simp only [advance] at h ⊢
    split at h
    · cases h
    · cases h
    · cases h
    · next ht =>
      obtain ⟨-, -, rfl, rfl⟩ := Machine.turn_eq_blocked ht
      rfl
    · cases h
  · rfl
  · rfl

theorem settle_two (s : Session config τ) : s.settle 2 = s.advance.2.advance.2 := by
  have hone (s : Session config τ) : s.settle 1 = s.advance.2 := by
    simp only [settle]
    split <;> simp_all
  cases hmoved : s.advance.1 with
  | true =>
    rw [← hone]
    simp only [settle]
    split <;> simp_all
  | false =>
    have hsame := advance_of_stuck hmoved
    rw [hsame, hsame]
    simp only [settle]
    split <;> simp_all

/-- If the console has an answer, a run that must end does so within two moves. -/
theorem stop_ends (h : s.killed = true) (hgives : (Console.get? s.console).isSome) :
    s.advance.2.advance.2.isAlive = false := by
  obtain ⟨c, _ | (⟨program, m⟩ | ⟨program, m⟩ | _ | _), killed, used, elapsed⟩ := s
  · rfl
  · cases h
    rfl
  · cases h
    cases ht : m.turn program c with
    | blocked m' c' =>
      rw [(Machine.turn_eq_blocked ht).2.1] at hgives
      cases hgives
    | moved event m' c' =>
      simp only [advance, ht]
      rfl
    | halted m' c' =>
      simp only [advance, ht]
      rfl
    | faulted e m' c' =>
      simp only [advance, ht]
      rfl
    | crashed defect m' c' =>
      simp only [advance, ht]
      rfl
  · rfl
  · rfl

theorem isSome_advance (h : s.worker.isSome) : s.advance.2.worker.isSome := by
  obtain ⟨c, _ | (⟨program, m⟩ | ⟨program, m⟩ | _ | _), killed, used, elapsed⟩ := s
  · cases h
  · simp only [advance]
    split <;> rfl
  · simp only [advance]
    split <;> rfl
  · rfl
  · rfl

theorem stop_eq_after (change : α → τ → τ)
    (hrelease : ∀ c : τ, (Console.get? (Console.release c)).isSome) (s : Session config τ) :
    s.stop.2 = s.after change [.requestStop, .advance, .advance, .takeBack] := by
  show s.stop.2 = s.requestStop.advance.2.advance.2.takeBack
  obtain ⟨c, _ | worker, killed, used, elapsed⟩ := s
  · rfl
  · let s' := requestStop ⟨c, some worker, killed, used, elapsed⟩
    have hended : s'.advance.2.advance.2.isAlive = false := stop_ends rfl (hrelease c)
    have hworker : s'.advance.2.advance.2.worker.isSome := isSome_advance (isSome_advance rfl)
    have htaken : ¬ (s'.advance.2.advance.2.isAlive ∨ s'.advance.2.advance.2.worker.isNone) := by
      simp [hended, Option.isSome_iff_ne_none.mp hworker]
    show _ = s'.advance.2.advance.2.takeBack
    rw [takeBack, if_neg htaken, ← settle_two]
    rfl

theorem History.stop (h : History change c seen s)
    (hrelease : ∀ c : τ, (Console.get? (Console.release c)).isSome) :
    History change c seen s.stop.2 := by
  rw [stop_eq_after change hrelease]
  exact h.after [.requestStop, .advance, .advance, .takeBack]

/-- The report that waiting for a run gives, if it gives one. -/
def report? : Joined → Option Report
  | .report report => some report
  | _ => none

theorem stop_fst (s : Session config τ) :
    s.stop.1 = report? s.requestStop.advance.2.advance.2.join.1 := by
  rw [← settle_two]
  obtain ⟨c, _ | worker, killed, used, elapsed⟩ := s <;> rfl

/-- Two sessions that differ in their consoles only, and these are related. -/
inductive Twins (R : τ → τ → Prop) : Session config τ → Session config τ → Prop
  | mk {c₁ c₂ : τ} (worker : Option (Worker config.width)) (killed used : Bool)
      (elapsed : Duration) : R c₁ c₂ →
      Twins R ⟨c₁, worker, killed, used, elapsed⟩ ⟨c₂, worker, killed, used, elapsed⟩

variable {R : τ → τ → Prop} {c₁ c₂ : τ} {s₁ s₂ s₁' s₂' : Session config τ}

omit [Console τ] in
theorem Twins.worker_eq (h : Twins R s₁ s₂) : s₁.worker = s₂.worker := by
  cases h
  rfl

omit [Console τ] in
theorem Twins.console (h : Twins R s₁ s₂) : R s₁.console s₂.console := by
  obtain ⟨worker, killed, used, elapsed, hc⟩ := h
  exact hc

omit [Console τ] in
theorem Twins.isAlive (h : Twins R s₁ s₂) : s₁.isAlive = s₂.isAlive := by
  cases h
  rfl

theorem Twins.finish (hlike : Console.Likeness change R) (hc : R c₁ c₂) (status : RunStatus)
    (killed used : Bool) (elapsed : Duration) :
    Twins R (Session.finish status c₁ killed used elapsed : Session config τ)
      (Session.finish status c₂ killed used elapsed) :=
  .mk _ _ _ _ (hlike.message _ hc)

theorem Twins.advance (h : Twins R s₁ s₂) (hlike : Console.Likeness change R) :
    Twins R s₁.advance.2 s₂.advance.2 := by
  obtain @⟨c₁, c₂, _ | (⟨program, m⟩ | ⟨program, m⟩ | _ | _), killed, used, elapsed, hc⟩ := h
  · exact .mk _ _ _ _ hc
  · simp only [Session.advance]
    split
    · exact .finish hlike hc .stopped _ _ _
    · exact .mk _ _ _ _ hc
  · have hturn := Machine.turn_alike hlike hc program m
    generalize ht₁ : m.turn program c₁ = turn₁ at hturn
    generalize ht₂ : m.turn program c₂ = turn₂ at hturn
    simp only [Session.advance, ht₁, ht₂]
    cases hturn with
    | moved hc' => exact .mk _ _ _ _ hc'
    | halted hc' => exact .finish hlike hc' .completed _ _ _
    | blocked hc' => exact .mk _ _ _ _ hc'
    | faulted hc' =>
      exact .finish hlike (hlike.error _ (hlike.note _ _ hc')) (.failed _) _ _ _
    | crashed hc' => exact .mk _ _ _ _ hc'
  · exact .mk _ _ _ _ hc
  · exact .mk _ _ _ _ hc

theorem Twins.requestStop (h : Twins R s₁ s₂) (hlike : Console.Likeness change R) :
    Twins R s₁.requestStop s₂.requestStop := by
  obtain ⟨_ | worker, killed, used, elapsed, hc⟩ := h
  · exact .mk _ _ _ _ hc
  · exact .mk _ _ _ _ (hlike.release hc)

theorem Twins.join (h : Twins R s₁ s₂) (hlike : Console.Likeness change R) :
    s₁.join.1 = s₂.join.1 ∧ Twins R s₁.join.2 s₂.join.2 := by
  obtain ⟨_ | (_ | _ | _ | _), killed, used, elapsed, hc⟩ := h
  · exact ⟨rfl, .mk _ _ _ _ hc⟩
  · exact ⟨rfl, .mk _ _ _ _ hc⟩
  · exact ⟨rfl, .mk _ _ _ _ hc⟩
  · exact ⟨rfl, .mk _ _ _ _ hc⟩
  · exact ⟨rfl, .mk _ _ _ _ (hlike.note _ _ hc)⟩

theorem Twins.takeBack (h : Twins R s₁ s₂) (hlike : Console.Likeness change R) :
    Twins R s₁.takeBack s₂.takeBack := by
  obtain ⟨_ | (_ | _ | _ | _), killed, used, elapsed, hc⟩ := h
  · exact .mk _ _ _ _ hc
  · exact .mk _ _ _ _ hc
  · exact .mk _ _ _ _ hc
  · exact .mk _ _ _ _ (hlike.note _ _ hc)
  · exact .mk _ _ _ _ (hlike.note _ _ (hlike.note _ _ hc))

theorem Twins.readied (h : Twins R s₁ s₂) (hlike : Console.Likeness change R)
    (worker : Option (Worker config.width)) (before₁ after₁ before₂ after₂ : List Note) :
    Twins R (s₁.readied before₁ after₁ worker) (s₂.readied before₂ after₂ worker) := by
  obtain ⟨_, killed, used, elapsed, hc⟩ := h
  exact .mk _ _ _ _ (hlike.renew used before₁ after₁ before₂ after₂ hc)

theorem Twins.startProgram (h : Twins R s₁ s₂) (hlike : Console.Likeness change R)
    (program : Program) (refusal : Option String) :
    Twins R (s₁.startProgram program refusal).2 (s₂.startProgram program refusal).2 := by
  cases halive : s₁.isAlive with
  | true =>
    rw [startProgram_of_alive halive, startProgram_of_alive (h.isAlive ▸ halive)]
    exact h
  | false =>
    obtain ⟨before₁, after₁, he₁⟩ := startProgram_of_not_alive halive program refusal
    obtain ⟨before₂, after₂, he₂⟩ :=
      startProgram_of_not_alive (h.isAlive ▸ halive) program refusal
    rw [he₁, he₂]
    cases refusal <;> exact h.readied hlike _ _ _ _ _

theorem Twins.start (h : Twins R s₁ s₂) (hlike : Console.Likeness change R) (source : String)
    (refusal : Option String) :
    Twins R (s₁.start source refusal).2 (s₂.start source refusal).2 := by
  cases halive : s₁.isAlive with
  | true =>
    rw [start_of_alive halive, start_of_alive (h.isAlive ▸ halive)]
    exact h
  | false =>
    have halive' : s₂.isAlive = false := h.isAlive ▸ halive
    cases hcompile : compile .all source with
    | error e =>
      rw [start_of_error halive hcompile, start_of_error halive' hcompile]
      obtain ⟨worker, killed, used, elapsed, hc⟩ := h
      exact .mk _ _ _ _ (hlike.error _ (hlike.noteAll _ _ hc))
    | ok program =>
      rw [start_of_ok halive hcompile, start_of_ok halive' hcompile]
      refine Twins.startProgram ?_ hlike program refusal
      obtain ⟨worker, killed, used, elapsed, hc⟩ := h
      exact .mk _ _ _ _ (hlike.noteAll _ _ hc)

theorem Twins.act (h : Twins R s₁ s₂) (hlike : Console.Likeness change R) (act : Act α) :
    Twins R (act.apply change s₁) (act.apply change s₂) := by
  cases act with
  | start source refusal => exact h.start hlike source refusal
  | startProgram program refusal => exact h.startProgram hlike program refusal
  | advance => exact h.advance hlike
  | requestStop => exact h.requestStop hlike
  | takeBack => exact h.takeBack hlike
  | join => exact (h.join hlike).2
  | elapse elapsed =>
    obtain ⟨worker, killed, used, _, hc⟩ := h
    exact .mk _ _ _ _ hc
  | outside x =>
    obtain ⟨worker, killed, used, elapsed, hc⟩ := h
    exact .mk _ _ _ _ (hlike.change x hc)

theorem Twins.after (h : Twins R s₁ s₂) (hlike : Console.Likeness change R)
    (acts : List (Act α)) : Twins R (s₁.after change acts) (s₂.after change acts) := by
  induction acts generalizing s₁ s₂ with
  | nil => exact h
  | cons act acts ih => exact ih (h.act hlike act)

theorem Twins.stop (h : Twins R s₁ s₂) (hlike : Console.Likeness change R) :
    s₁.stop.1 = s₂.stop.1 := by
  have hended := ((h.requestStop hlike).advance hlike).advance hlike
  rw [stop_fst, stop_fst, (hended.join hlike).1]

theorem Starts.twins (h₁ : Starts program s₁ s₁') (h₂ : Starts program s₂ s₂')
    (hc : R s₁'.console s₂'.console) : Twins R s₁' s₂' := by
  obtain ⟨before₁, after₁, rfl⟩ := h₁.eq_readied
  obtain ⟨before₂, after₂, rfl⟩ := h₂.eq_readied
  exact .mk _ _ _ _ hc

end Session

end TapeLang
