import TapeLang.Console.Buffered
import TapeLang.Interpreter

/-! # How runs end

Runs counted in instructions, and their relation to bounded execution: a run completes, fails or
goes on forever. What a run on a closed input leaves behind is its memory, the program's output
and the input that was not read.
-/

namespace TapeLang

variable {w : CellWidth} {τ : Type} [Console τ]

/-- `n` instructions lead from one machine and console to another. -/
inductive Moves (program : Program) : Nat → Machine w → τ → Machine w → τ → Prop
  | refl (m : Machine w) (c : τ) : Moves program 0 m c m c
  | step {n : Nat} {event : Event} {m m₁ m₂ : Machine w} {c c₁ c₂ : τ} :
      m.turn program c = .moved event m₁ c₁ → Moves program n m₁ c₁ m₂ c₂ →
      Moves program (n + 1) m c m₂ c₂

variable {program : Program} {m m' m'' : Machine w} {c c' c'' : τ}

theorem Moves.trans {n k : Nat} (h : Moves program n m c m' c')
    (h' : Moves program k m' c' m'' c'') : Moves program (n + k) m c m'' c'' := by
  induction h with
  | refl => simpa using h'
  | step ht _ ih =>
    rw [Nat.add_right_comm]
    exact .step ht (ih h')

theorem Moves.single {event : Event} (h : m.turn program c = .moved event m' c') :
    Moves program 1 m c m' c' := .step h (.refl _ _)

/-- A stop signal that never comes. -/
def never : Progress → Bool := fun _ => false

theorem execute_of_moved {event : Event} (h : m.turn program c = .moved event m' c') (fuel : Nat)
    (progress : Progress) : execute program never (fuel + 1) progress m c =
      execute program never fuel (progress.record event) m' c' := by
  simp [execute, never, h]

theorem Moves.execute {n : Nat} (h : Moves program n m c m' c') (progress : Progress) :
    ∃ progress', ∀ fuel, execute program never (n + fuel) progress m c =
      execute program never fuel progress' m' c' := by
  induction h generalizing progress with
  | refl => exact ⟨progress, fun fuel => by rw [Nat.zero_add]⟩
  | @step n event _ _ _ _ _ _ ht _ ih =>
    obtain ⟨progress', h'⟩ := ih (progress.record event)
    refine ⟨progress', fun fuel => ?_⟩
    rw [Nat.add_right_comm, execute_of_moved ht]
    exact h' fuel

/-- A bounded execution makes as many moves as it may, or comes to a turn that does not move. -/
theorem execute_moves (program : Program) (fuel : Nat) (progress : Progress) (m : Machine w)
    (c : τ) :
    ∃ n m' c' progress', Moves program n m c m' c' ∧
      ((n = fuel ∧ execute program never fuel progress m c = ⟨.unfinished, m', c', progress'⟩) ∨
       (n < fuel ∧ (∀ event m₁ c₁, m'.turn program c' ≠ .moved event m₁ c₁) ∧
        execute program never fuel progress m c = execute program never 1 progress' m' c')) := by
  induction fuel generalizing progress m c with
  | zero => exact ⟨0, m, c, progress, .refl m c, Or.inl ⟨rfl, rfl⟩⟩
  | succ fuel ih =>
    by_cases hm : ∃ event m₁ c₁, m.turn program c = .moved event m₁ c₁
    · obtain ⟨event, m₁, c₁, ht⟩ := hm
      obtain ⟨n, m', c', progress', hn, hend⟩ := ih (progress.record event) m₁ c₁
      refine ⟨n + 1, m', c', progress', .step ht hn, ?_⟩
      rw [execute_of_moved ht]
      rcases hend with ⟨rfl, hu⟩ | ⟨hlt, hstuck, hu⟩
      · exact Or.inl ⟨rfl, hu⟩
      · exact Or.inr ⟨by omega, hstuck, hu⟩
    · have hstuck : ∀ event m₁ c₁, m.turn program c ≠ .moved event m₁ c₁ :=
        fun event m₁ c₁ h => hm ⟨event, m₁, c₁, h⟩
      refine ⟨0, m, c, progress, .refl m c, Or.inr ⟨by omega, hstuck, ?_⟩⟩
      simp only [execute, never]
      cases ht : m.turn program c with
      | moved event m₁ c₁ => exact (hstuck _ _ _ ht).elim
      | _ => rfl

theorem execute_add {kill : Progress → Bool} {fuel : Nat} {progress : Progress}
    (h : (execute program kill fuel progress m c).ending ≠ .unfinished) (k : Nat) :
    execute program kill (fuel + k) progress m c = execute program kill fuel progress m c := by
  induction fuel generalizing progress m c with
  | zero => exact (h rfl).elim
  | succ fuel ih =>
    rw [Nat.add_right_comm]
    simp only [execute] at h ⊢
    split
    · rfl
    · rw [if_neg ‹_›] at h
      cases ht : m.turn program c with
      | moved event m₁ c₁ =>
        rw [ht] at h
        exact ih h
      | _ => rfl

theorem execute_completed_iff {progress : Progress} :
    (∃ fuel progress', execute program never fuel progress m c =
      ⟨.ended .completed, m', c', progress'⟩) ↔
    ∃ n m₀ c₀, Moves program n m c m₀ c₀ ∧ m₀.turn program c₀ = .halted m' c' := by
  constructor
  · rintro ⟨fuel, progress', h⟩
    obtain ⟨n, m₀, c₀, progress₀, hn, ⟨-, hu⟩ | ⟨-, -, hu⟩⟩ :=
      execute_moves program fuel progress m c
    · simp [hu] at h
    · refine ⟨n, m₀, c₀, hn, ?_⟩
      rw [hu] at h
      simp only [execute, never] at h
      cases ht : m₀.turn program c₀ <;> simp_all
  · rintro ⟨n, m₀, c₀, hn, ht⟩
    obtain ⟨progress', h⟩ := hn.execute progress
    refine ⟨n + 1, progress', ?_⟩
    rw [h 1]
    simp [execute, never, ht]

theorem execute_failed_iff {progress : Progress} {e : BoundsError} :
    (∃ fuel progress', execute program never fuel progress m c =
      ⟨.ended (.failed e), m', c', progress'⟩) ↔
    ∃ n m₀ c₀ c₁, Moves program n m c m₀ c₀ ∧ m₀.turn program c₀ = .faulted e m' c₁ ∧
      c' = Console.error e.message (Console.note (.runFault e) c₁) := by
  constructor
  · rintro ⟨fuel, progress', h⟩
    obtain ⟨n, m₀, c₀, progress₀, hn, ⟨-, hu⟩ | ⟨-, -, hu⟩⟩ :=
      execute_moves program fuel progress m c
    · simp [hu] at h
    · rw [hu] at h
      simp only [execute, never] at h
      cases ht : m₀.turn program c₀ with
      | faulted e' m₁ c₁ =>
        simp only [ht, Bool.false_eq_true, if_false, Outcome.mk.injEq, Ending.ended.injEq,
          RunStatus.failed.injEq] at h
        obtain ⟨rfl, rfl, rfl, -⟩ := h
        exact ⟨n, m₀, c₀, c₁, hn, ht, rfl⟩
      | _ => simp [ht] at h
  · rintro ⟨n, m₀, c₀, c₁, hn, ht, rfl⟩
    obtain ⟨progress', h⟩ := hn.execute progress
    refine ⟨n + 1, progress', ?_⟩
    rw [h 1]
    simp [execute, never, ht]

namespace Buffered

theorem text_error (e : String) (n : Note) (b : Buffered) :
    (Console.error e (Console.note n b)).text = b.text := by
  obtain ⟨written, input, notes⟩ := b
  simp only [Console.error, Console.note, addNote, write, text, tagged, output, append]
  split
  · simp
  · simp

theorem text_put (ch : Char) (b : Buffered) :
    (Console.put ch b).2.text = b.text ++ String.singleton ch := by
  obtain ⟨written, input, notes⟩ := b
  simp only [Console.put, write, text, tagged, output, append]
  split
  · simp [-String.append_singleton, String.append_assoc]
  · simp

end Buffered

/-- What is left when a run on a closed input has ended. -/
structure Remains (w : CellWidth) where
  memory : Memory w
  /-- All that the program printed. -/
  output : String
  /-- The part of the input that was not read. -/
  unread : List Char

def Outcome.remains (o : Outcome w Buffered) : Remains w :=
  ⟨o.machine.memory, o.console.text, o.console.input.chars⟩

/-- A run from a fresh machine, for at most `fuel` instructions, on an input known as a whole. -/
def freshRun (size : Nat) (bounds : BoundsPolicy) (input : String) (program : Program)
    (fuel : Nat) : Outcome w Buffered :=
  execute program never fuel {} (.new size bounds) (.withInput input)

/-- The run comes to the end of the program. -/
def Completes (size : Nat) (bounds : BoundsPolicy) (input : String) (program : Program)
    (r : Remains w) : Prop :=
  ∃ fuel, (freshRun size bounds input program fuel : Outcome w Buffered).ending =
    .ended .completed ∧ (freshRun size bounds input program fuel).remains = r

/-- The run is ended by a fault. -/
def Fails (size : Nat) (bounds : BoundsPolicy) (input : String) (program : Program)
    (e : BoundsError) (r : Remains w) : Prop :=
  ∃ fuel, (freshRun size bounds input program fuel : Outcome w Buffered).ending =
    .ended (.failed e) ∧ (freshRun size bounds input program fuel).remains = r

/-- The run has no end: it can use up any number of instructions. -/
def RunsForever (w : CellWidth) (size : Nat) (bounds : BoundsPolicy) (input : String)
    (program : Program) : Prop :=
  ∀ fuel, (freshRun size bounds input program fuel : Outcome w Buffered).ending = .unfinished

variable {size : Nat} {bounds : BoundsPolicy} {input : String} {r : Remains w} {e : BoundsError}

theorem freshRun_eq_of_ended {fuel fuel' : Nat}
    (h : (freshRun size bounds input program fuel : Outcome w Buffered).ending ≠ .unfinished)
    (h' : (freshRun size bounds input program fuel' : Outcome w Buffered).ending ≠ .unfinished) :
    (freshRun size bounds input program fuel : Outcome w Buffered) =
      freshRun size bounds input program fuel' := by
  have hf := execute_add h fuel'
  have hf' := execute_add h' fuel
  rw [Nat.add_comm] at hf'
  exact hf.symm.trans hf'

theorem Completes.not_fails {r' : Remains w} (h : Completes size bounds input program r) :
    ¬ Fails size bounds input program e r' := by
  rintro ⟨fuel', hend', -⟩
  obtain ⟨fuel, hend, -⟩ := h
  have heq := freshRun_eq_of_ended (fun hu => by rw [hend] at hu; cases hu)
    (fun hu => by rw [hend'] at hu; cases hu)
  rw [heq, hend'] at hend
  cases hend

theorem Completes.not_runsForever (h : Completes size bounds input program r) :
    ¬ RunsForever w size bounds input program := by
  intro hforever
  obtain ⟨fuel, hend, -⟩ := h
  rw [hforever fuel] at hend
  cases hend

theorem Fails.not_runsForever (h : Fails size bounds input program e r) :
    ¬ RunsForever w size bounds input program := by
  intro hforever
  obtain ⟨fuel, hend, -⟩ := h
  rw [hforever fuel] at hend
  cases hend

theorem completes_iff : Completes size bounds input program r ↔
    ∃ n m₀ c₀ m c, Moves program n (.new size bounds) (Buffered.withInput input) m₀ c₀ ∧
      m₀.turn program c₀ = .halted m c ∧ r = ⟨m.memory, c.text, c.input.chars⟩ := by
  constructor
  · rintro ⟨fuel, hend, rfl⟩
    generalize ho : freshRun size bounds input program fuel = outcome at hend
    obtain ⟨ending, m, c, progress⟩ := outcome
    obtain rfl : ending = .ended .completed := hend
    obtain ⟨n, m₀, c₀, hm, ht⟩ := execute_completed_iff.mp ⟨fuel, progress, ho⟩
    exact ⟨n, m₀, c₀, m, c, hm, ht, rfl⟩
  · rintro ⟨n, m₀, c₀, m, c, hm, ht, rfl⟩
    obtain ⟨fuel, progress, ho⟩ := execute_completed_iff.mpr ⟨n, m₀, c₀, hm, ht⟩
    refine ⟨fuel, ?_⟩
    rw [freshRun, ho]
    exact ⟨rfl, rfl⟩

theorem fails_iff : Fails size bounds input program e r ↔
    ∃ n m₀ c₀ m c, Moves program n (.new size bounds) (Buffered.withInput input) m₀ c₀ ∧
      m₀.turn program c₀ = .faulted e m c ∧ r = ⟨m.memory, c.text, c.input.chars⟩ := by
  constructor
  · rintro ⟨fuel, hend, rfl⟩
    generalize ho : freshRun size bounds input program fuel = outcome at hend
    obtain ⟨ending, m, c', progress⟩ := outcome
    obtain rfl : ending = .ended (.failed e) := hend
    obtain ⟨n, m₀, c₀, c, hm, ht, rfl⟩ := execute_failed_iff.mp ⟨fuel, progress, ho⟩
    refine ⟨n, m₀, c₀, m, c, hm, ht, ?_⟩
    simp only [Outcome.remains, Buffered.text_error]
    rfl
  · rintro ⟨n, m₀, c₀, m, c, hm, ht, rfl⟩
    obtain ⟨fuel, progress, ho⟩ := execute_failed_iff.mpr ⟨n, m₀, c₀, c, hm, ht, rfl⟩
    refine ⟨fuel, ?_⟩
    rw [freshRun, ho]
    refine ⟨rfl, ?_⟩
    simp only [Outcome.remains, Buffered.text_error]
    rfl

end TapeLang
