import TapeLang.Proofs.Publication

/-! # The states of a debugger

Which calls a debugger accepts depends on its state alone, whatever happened before, and a call that
it refuses changes nothing. A step waits for the run to settle and for its one instruction, a stop
waits for the run to end, and neither waits for more than a few moves.
-/

namespace TapeLang

namespace Debugger

variable {config : DebugConfig} {τ α : Type} [Console τ] {change : α → τ → τ} {c : τ}
  {seen : Observed config.machine.width} {d d' : Debugger config τ} {desk : Desk config}
  {program : Program} {m : Machine config.machine.width} {phase : Phase}

inductive Call
  | start (source : String)
  | pause
  | resume
  | step

def Call.apply : Call → Debugger config τ → Reply × Debugger config τ
  | .start source, d => d.start source
  | .pause, d => d.pause
  | .resume, d => d.resume
  | .step, d => d.step

omit [Console τ] in
theorem isReady_of_waiting (h : d.control.parked = true ∨ d.control.awaiting = true) :
    d.isReady = true := by
  rcases h with h | h <;> simp [isReady, h]

/-- The moves that a run makes before the last one of a step. -/
def remaining (d : Debugger config τ) : Nat :=
  match d.worker with
  | some (.live _ _ (.asleep _)) => 2
  | some (.live _ _ .boundary) => 1
  | _ => 0

/-- The run has begun the one instruction of a step, or may do so. -/
structure Stepping (executed : Nat) (d : Debugger config τ) : Prop where
  paused : d.control.state = .paused
  executed : d.control.executed = executed
  begun : d.control.permit = true ∨ ∃ program m, d.worker = some (.live program m .executing)

theorem Stepping.advance {executed : Nat} (h : Stepping executed d)
    (hmoved : d.advance = (true, d')) :
    d'.hasStepped (executed + 1) = true ∨ d'.advance.1 = false ∨
      Stepping executed d' ∧ d'.remaining < d.remaining := by
  have hbegun := h.begun
  obtain ⟨desk, c, _ | ⟨program, m, phase⟩ | _ | _⟩ := d
  · cases hmoved
  · have hadvanced := advanced desk c program m phase
    rw [hmoved] at hadvanced
    cases hadvanced with
    | begins =>
      exact Or.inr (Or.inr ⟨⟨h.paused, h.executed, Or.inr ⟨program, m, rfl⟩⟩, Nat.zero_lt_one⟩)
    | parks _ _ hpermit => simp [hpermit] at hbegun
    | stopped | halted | faulted => exact Or.inl (by simp [hasStepped, finish])
    | wakes =>
      have hpermit : desk.control.permit = true := by simpa using hbegun
      exact Or.inr (Or.inr ⟨⟨h.paused, h.executed, Or.inl hpermit⟩, Nat.one_lt_two⟩)
    | @moved event m' c' =>
      obtain ⟨console, he⟩ := completeInstruction_eq desk program m.index event m' c'
      rw [he]
      have hexecuted : desk.control.executed = executed := h.executed
      exact Or.inl (by simp [hasStepped, hexecuted])
    | crashed => exact Or.inr (Or.inl rfl)
  · cases hmoved
  · cases hmoved

theorem Underway.settled_paused (h : Underway desk program m phase)
    (hsettled : (advance ⟨desk, c, some (.live program m phase)⟩).1 = false)
    (hpaused : desk.control.state = .paused) :
    desk.control.permit = false ∧
      (phase = .boundary ∧ desk.control.parked = true ∨
        phase = .executing ∧ program.get? m.index = some (.op .input)) := by
  have hadvanced := advanced desk c program m phase
  generalize advance ⟨desk, c, some (.live program m phase)⟩ = answer at hsettled hadvanced
  cases hadvanced with
  | waits _ _ hpermit hparked => exact ⟨hpermit, Or.inl ⟨rfl, hparked⟩⟩
  | sleeps _ hrunning => cases hpaused.symm.trans hrunning
  | blocked ht =>
    exact ⟨h.not_permitted (by simp), Or.inr ⟨rfl, (Machine.turn_eq_blocked ht).1⟩⟩
  | _ => cases hsettled

omit [Console τ] in
theorem Coherent.isActive_of_alive (h : Coherent seen d.toDesk d.worker)
    (halive : d.isAlive = true) : d.control.state.isActive = true := by
  obtain ⟨program, m, phase, hlive⟩ := isAlive_iff.mp halive
  rw [hlive] at h
  exact h.underway.2.active

omit [Console τ] in
/-- The states of a run are those of a run under way, or of one that has overslept. -/
theorem Coherent.alive_of_active (h : Coherent seen d.toDesk d.worker)
    (hactive : d.control.state.isActive = true) :
    d.isAlive = true ∨
      d.worker = some .crashed ∧ d.control.permit = false ∧ Overslept d.toDesk := by
  obtain ⟨desk, c, worker⟩ := d
  cases h with
  | unstarted hinactive => simp [hinactive] at hactive
  | unthreaded hinactive => simp [hinactive] at hactive
  | live => exact Or.inl rfl
  | crashed _ _ _ hpermit hslept => exact Or.inr ⟨rfl, hpermit, hslept⟩
  | finished _ hinactive => simp [hinactive] at hactive

theorem Underway.carryOut_cases (h : Underway desk program m .executing)
    (hput : ∀ ch (c : τ), (Console.put ch c).1 = true) (hawaiting : desk.control.awaiting = false)
    (c : τ) :
    (∃ event m' c', carryOut desk program m c =
      (true, completeInstruction desk program m.index event m' c')) ∨
    ((carryOut desk program m c).1 = true ∧
      (carryOut desk program m c).2.control.state = .stopped) := by
  have hadvanced := advanced desk c program m .executing
  rw [advance_executing] at hadvanced
  generalize carryOut desk program m c = answer at hadvanced ⊢
  cases hadvanced with
  | moved => exact Or.inl ⟨_, _, _, rfl⟩
  | halted | faulted => exact Or.inr ⟨rfl, rfl⟩
  | blocked ht => simp [h.awaiting, (Machine.turn_eq_blocked ht).1] at hawaiting
  | crashed ht => exact (Machine.turn_ne_crashed h.paired h.onTape hput c _ _ _ ht).elim

/-- A run that has begun the instruction of a step carries it out, waits in it for input, or
ends. -/
theorem Underway.steps_begun (h : Underway desk program m .executing)
    (hput : ∀ ch (c : τ), (Console.put ch c).1 = true) (hpaused : desk.control.state = .paused)
    (c : τ) {n : Nat} (hn : desk.control.executed + 1 = n) (fuel : Nat)
    (hd : d = waitFor (hasStepped n) (fuel + 1) ⟨desk, c, some (.live program m .executing)⟩) :
    d.hasStepped n = true ∧
      (d.control.executed = n ∨ d.control.awaiting = true ∨ d.control.state = .stopped) := by
  cases hawaiting : desk.control.awaiting with
  | true =>
    have hdone : hasStepped n (⟨desk, c, some (.live program m .executing)⟩ : Debugger config τ) =
        true := by
      simp [hasStepped, hawaiting]
    rw [hd, waitFor_of_goal hdone]
    exact ⟨hdone, Or.inr (Or.inl hawaiting)⟩
  | false =>
    have hfirst : hasStepped n (⟨desk, c, some (.live program m .executing)⟩ : Debugger config τ) =
        false := by
      simp [hasStepped, ← hn, hawaiting, hpaused]
    rcases h.carryOut_cases hput hawaiting c with ⟨event, m', c', hmoved⟩ | ⟨hmoved, hstate⟩
    · obtain ⟨console, he⟩ := completeInstruction_eq desk program m.index event m' c'
      rw [hd, waitFor_of_moved hfirst (advance_executing.trans hmoved), he,
        waitFor_of_goal (by simp [hasStepped, hn])]
      exact ⟨by simp [hasStepped, hn], Or.inl hn⟩
    · have hdone : hasStepped n (carryOut desk program m c).2 = true := by
        simp [hasStepped, hstate]
      rw [hd, waitFor_of_moved hfirst (advance_executing.trans (Prod.ext hmoved rfl)),
        waitFor_of_goal hdone]
      exact ⟨hdone, Or.inr (Or.inr hstate)⟩

theorem Underway.steps_allowed (h : Underway desk program m .boundary)
    (hput : ∀ ch (c : τ), (Console.put ch c).1 = true) (hpaused : desk.control.state = .paused)
    (hpermit : desk.control.permit = true) (hawaiting : desk.control.awaiting = false) (c : τ)
    {n : Nat} (hn : desk.control.executed + 1 = n)
    (hd : d = waitFor (hasStepped n) 3 ⟨desk, c, some (.live program m .boundary)⟩) :
    d.hasStepped n = true ∧
      (d.control.executed = n ∨ d.control.awaiting = true ∨ d.control.state = .stopped) := by
  have hfirst : hasStepped n (⟨desk, c, some (.live program m .boundary)⟩ : Debugger config τ) =
      false := by
    simp [hasStepped, ← hn, hawaiting, hpaused]
  by_cases hkill : desk.control.kill = true
  · have hdone : hasStepped n (finish .stopped m
        ⟨desk, c, some (.live program m .boundary)⟩) = true := by simp [hasStepped, finish]
    rw [hd, waitFor_of_moved hfirst (advance_killed hkill), waitFor_of_goal hdone]
    exact ⟨hdone, Or.inr (Or.inr rfl)⟩
  · have he : advance ⟨desk, c, some (.live program m .boundary)⟩ =
        (true, beginInstruction program m { desk.control with permit := false }
          ⟨desk, c, some (.live program m .boundary)⟩) := by
      simp only [advance, passBoundary, if_neg hkill, if_pos hpaused, if_pos hpermit]
    rw [waitFor_of_moved hfirst he] at hd
    exact (Underway.begun (d := ⟨desk, c, _⟩) h).steps_begun hput hpaused c hn 1 hd

theorem Coherent.step_of_ready (h : Coherent seen d.toDesk d.worker)
    (hput : ∀ ch (c : τ), (Console.put ch c).1 = true) (hpaused : d.control.state = .paused)
    (hready : d.isReady = true) :
    d.step.1 = .ok ∧ (d.step.2.control.executed = d.control.executed + 1 ∨
      d.step.2.control.awaiting = true ∨ d.step.2.control.state = .stopped) := by
  simp only [step, waitFor_of_goal hready, hpaused, ne_eq, not_true_eq_false, if_false]
  cases hawaiting : d.control.awaiting with
  | true => exact ⟨rfl, Or.inr (Or.inl hawaiting)⟩
  | false =>
    -- A parked run is at a boundary, where the permission is used up by its next move.
    have hparked : d.control.parked = true := by simpa [isReady, hawaiting, hpaused] using hready
    obtain ⟨program, m, hw, -⟩ := h.shows_of_parked hparked
    have hallowed := h.request .allow
    simp only [Bool.false_eq_true, if_false, if_pos hparked, Request.apply,
      allow_of_parked hpaused hparked hawaiting] at hallowed ⊢
    obtain ⟨desk, c, worker⟩ := d
    cases hw
    obtain ⟨hdone, hcases⟩ := hallowed.underway.2.steps_allowed hput hpaused rfl hawaiting c rfl rfl
    rw [if_pos hdone]
    exact ⟨rfl, hcases⟩

theorem settle_killed_boundary_eq (h : desk.control.kill = true) (n : Nat) :
    settle (n + 1) ⟨desk, c, some (.live program m .boundary)⟩ =
      finish .stopped m ⟨desk, c, none⟩ := by
  rw [settle_succ (advance_killed h), settle_of_not_alive rfl]
  rfl

theorem settle_killed_asleep_eq (h : desk.control.kill = true) (deadline n : Nat) :
    settle (n + 2) ⟨desk, c, some (.live program m (.asleep deadline))⟩ =
      finish .stopped m ⟨desk, c, none⟩ := by
  have he : advance ⟨desk, c, some (.live program m (.asleep deadline))⟩ =
      (true, ⟨desk, c, some (.live program m .boundary)⟩) := by
    simp only [advance, if_pos (Or.inl h)]
  rw [settle_succ he]
  exact settle_killed_boundary_eq h n

theorem settle_killed_boundary (h : desk.control.kill = true) (n : Nat) :
    (settle (n + 1) ⟨desk, c, some (.live program m .boundary)⟩).isAlive = false := by
  rw [settle_killed_boundary_eq h]
  rfl

theorem settle_killed_asleep (h : desk.control.kill = true) (deadline n : Nat) :
    (settle (n + 2) ⟨desk, c, some (.live program m (.asleep deadline))⟩).isAlive = false := by
  rw [settle_killed_asleep_eq h]
  rfl

theorem settle_killed_rest (h : desk.control.kill = true) (state : RunState) (n : Nat) :
    (settle (n + 2) ⟨desk, c, some (rest config state desk.clock program m)⟩).isAlive = false := by
  simp only [rest]
  split
  · exact settle_killed_boundary h (n + 1)
  · split
    · exact settle_killed_asleep h _ n
    · rw [settle_of_not_alive rfl]
      rfl

theorem settle_killed_executing (h : desk.control.kill = true)
    (hunblocked : ∀ m' c', m.turn program c ≠ .blocked m' c') (n : Nat) :
    (settle (n + 3) ⟨desk, c, some (.live program m .executing)⟩).isAlive = false := by
  have hended {d' : Debugger config τ} (he : carryOut desk program m c = (true, d'))
      (hd : d'.isAlive = false) :
      (settle (n + 3) ⟨desk, c, some (.live program m .executing)⟩).isAlive = false := by
    rw [settle_succ (advance_executing.trans he), settle_of_not_alive hd]
    exact hd
  cases ht : m.turn program c with
  | moved event m' c' =>
    have he : carryOut desk program m c =
        (true, completeInstruction desk program m.index event m' c') := by
      simp only [carryOut, ht]
    obtain ⟨console, hcomplete⟩ := completeInstruction_eq desk program m.index event m' c'
    rw [settle_succ (advance_executing.trans he), hcomplete]
    apply settle_killed_rest
    exact h
  | blocked m' c' => exact (hunblocked m' c' ht).elim
  | halted m' c' => exact hended (by simp only [carryOut, ht]; rfl) rfl
  | faulted e m' c' => exact hended (by simp only [carryOut, ht]; rfl) rfl
  | crashed defect m' c' => exact hended (by simp only [carryOut, ht]; rfl) rfl

/-- On a console that keeps its word, a stop finds the run at its end. -/
theorem stopping_ends (hrelease : ∀ c : τ, (Console.get? (Console.release c)).isSome)
    (d : Debugger config τ) : (d.stopping.settle 3).isAlive = false := by
  obtain ⟨desk, c, _ | ⟨program, m, phase⟩ | _ | _⟩ := d
  · rfl
  · cases phase with
    | boundary => exact settle_killed_boundary rfl 2
    | asleep deadline => exact settle_killed_asleep rfl deadline 1
    | executing =>
      refine settle_killed_executing rfl (fun m' c' hblocked => ?_) 0
      have hnone := (Machine.turn_eq_blocked hblocked).2.1
      have hsome := hrelease c
      rw [hnone] at hsome
      cases hsome
  · rfl
  · rfl

end Debugger

example : ((Debugger.new 0 {} : Debugger endlessPauses Buffered).after (fun c _ => c)
    [.start "+" none, .advance, .advance, .call .pause]).step.1 = .unanswered := by
  decide +kernel

end TapeLang
