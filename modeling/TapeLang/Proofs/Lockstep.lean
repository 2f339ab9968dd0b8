import TapeLang.Proofs.Operation

/-! # Machines in lockstep

What can be seen of a step from outside, and how two machines are compared step by step: a change of
machines that commutes with one step commutes with all that follow.
-/

namespace TapeLang

variable {w w' : CellWidth} {τ : Type}

/-- The numbers that the cells stand for. -/
def Tape.numbers (t : Tape w) : List Int := t.cells.toList.map Cell.toInt

theorem Cell.isZero_cases {a : Option (Cell w)} {b : Option (Cell w')}
    (h : a.map Cell.isZero = b.map Cell.isZero) :
    (a = none ∧ b = none) ∨ ∃ c d, a = some c ∧ b = some d ∧ c.isZero = d.isZero := by
  cases a with
  | none => exact Or.inl ⟨rfl, Option.map_eq_none_iff.mp h.symm⟩
  | some c =>
    obtain ⟨d, hd, hisZero⟩ := Option.map_eq_some_iff.mp h.symm
    exact Or.inr ⟨c, d, rfl, hd, hisZero.symm⟩

/-- What a step came to. -/
inductive Verdict
  | moved (event : Event)
  | halted
  | blocked
  | faulted (error : BoundsError)
  | crashed (defect : Defect)
  deriving DecidableEq, Repr

/-- What can be seen after a step: what it came to, where the machine stands, the numbers in its
cells, and the console, which holds the output and the input that was not read. -/
structure Sight (τ : Type) where
  verdict : Verdict
  index : Nat
  pointer : Nat
  numbers : List Int
  console : τ

/-- The same effect on another memory. -/
def Effect.mapMemory (g : Memory w → Memory w') : Effect w → Effect w'
  | .done s => .done (g s)
  | .write c s => .write c (g s)
  | .read s => .read (g s)
  | .pause s => .pause (g s)
  | .trap cause s => .trap cause (g s)

/-- The same action of another machine. -/
def Action.mapMachine (f : Machine w → Machine w') : Action w → Action w'
  | .halt m => .halt (f m)
  | .proceed m => .proceed (f m)
  | .pause m => .pause (f m)
  | .write c m => .write c (f m)
  | .read m => .read (f m)
  | .fault error m => .fault error (f m)
  | .crash defect m => .crash defect (f m)

namespace Turn

def verdict : Turn w τ → Verdict
  | .moved event _ _ => .moved event
  | .halted _ _ => .halted
  | .blocked _ _ => .blocked
  | .faulted error _ _ => .faulted error
  | .crashed defect _ _ => .crashed defect

def sight (turn : Turn w τ) : Sight τ :=
  ⟨turn.verdict, turn.machine.index, turn.machine.pointer, turn.machine.tape.numbers, turn.console⟩

/-- The same turn of another machine. -/
def mapMachine (f : Machine w → Machine w') : Turn w τ → Turn w' τ
  | .moved event m c => .moved event (f m) c
  | .halted m c => .halted (f m) c
  | .blocked m c => .blocked (f m) c
  | .faulted error m c => .faulted error (f m) c
  | .crashed defect m c => .crashed defect (f m) c

variable {f : Machine w → Machine w'} {turn : Turn w τ}

@[simp] theorem verdict_mapMachine : (turn.mapMachine f).verdict = turn.verdict := by
  cases turn <;> rfl

@[simp] theorem machine_mapMachine : (turn.mapMachine f).machine = f turn.machine := by
  cases turn <;> rfl

@[simp] theorem console_mapMachine : (turn.mapMachine f).console = turn.console := by
  cases turn <;> rfl

theorem sight_mapMachine (hindex : (f turn.machine).index = turn.machine.index)
    (hpointer : (f turn.machine).pointer = turn.machine.pointer)
    (hnumbers : (f turn.machine).tape.numbers = turn.machine.tape.numbers) :
    (turn.mapMachine f).sight = turn.sight := by
  simp only [sight, verdict_mapMachine, machine_mapMachine, console_mapMachine, hindex, hpointer,
    hnumbers]

theorem verdict_eq_faulted {e : BoundsError} (h : turn.verdict = .faulted e) :
    ∃ m c, turn = .faulted e m c := by
  cases turn <;> cases h
  exact ⟨_, _, rfl⟩

end Turn

namespace Machine

variable {f : Machine w → Machine w'} {p : Program} {m : Machine w}

theorem step_of_not_op (h : ∀ o, p.get? m.index ≠ some (.op o)) :
    m.step p = .halt m ∨ (∃ m', m.step p = .proceed m') ∨
      ∃ defect m', m.step p = .crash defect m' := by
  obtain ⟨s, i, bounds⟩ := m
  have hbranch (target : Nat) (jump : Cell w → Bool) :
      (∃ m', branch target jump ⟨s, i, bounds⟩ = .proceed m') ∨
        ∃ defect m', branch target jump ⟨s, i, bounds⟩ = .crash defect m' := by
    simp only [branch]
    split
    · exact Or.inr ⟨_, _, rfl⟩
    · exact Or.inl ⟨_, rfl⟩
  simp only [step]
  split
  · exact Or.inl rfl
  · next o hget => exact (h o hget).elim
  · split
    · exact Or.inr (hbranch _ _)
    · exact Or.inr (Or.inr ⟨_, _, rfl⟩)
  · split
    · exact Or.inr (hbranch _ _)
    · exact Or.inr (Or.inr ⟨_, _, rfl⟩)

/-- A change of machines commutes with a step if the change of memories that it makes keeps the
place of the pointer, what the loops ask of the current cell, and what the operations do. -/
theorem step_mapMachine {g : Memory w → Memory w'} {s : Memory w} {i : Nat}
    {bounds bounds' : BoundsPolicy} (hf : ∀ s i, f ⟨s, i, bounds⟩ = ⟨g s, i, bounds'⟩)
    (hpointer : ∀ s, (g s).pointer = s.pointer) (hsize : ∀ s, (g s).tape.size = s.tape.size)
    (hzero : (g s).current?.map Cell.isZero = s.current?.map Cell.isZero)
    (hperform : ∀ o, p.get? i = some (.op o) →
      (g s).perform bounds' o = (s.perform bounds o).mapMemory g) :
    (f ⟨s, i, bounds⟩).step p = (step p ⟨s, i, bounds⟩).mapMachine f := by
  have hbranch (target : Nat) (jump : Bool → Bool) :
      branch target (fun cell => jump cell.isZero) ⟨g s, i, bounds'⟩ =
        (branch target (fun cell => jump cell.isZero) ⟨s, i, bounds⟩).mapMachine f := by
    simp only [branch, hpointer, hsize]
    rcases Cell.isZero_cases hzero with ⟨hnone', hnone⟩ | ⟨cell', cell, hsome', hsome, hisZero⟩
    · simp only [hnone', hnone, Action.mapMachine, hf]
    · simp only [hsome', hsome, hisZero, Action.mapMachine, hf]
  rw [hf]
  simp only [step]
  cases hget : p.get? i with
  | none => exact congrArg Action.halt (hf s i).symm
  | some instruction =>
    cases instruction with
    | op o =>
      simp only [hperform o hget]
      cases s.perform bounds o with
      | trap cause t =>
        cases cause <;> simp only [Effect.mapMemory, Action.mapMachine, hf, hpointer, hsize]
      | _ => simp only [Effect.mapMemory, Action.mapMachine, hf]
    | loopStart stop =>
      dsimp only
      split
      · exact hbranch stop id
      · exact congrArg _ (hf s i).symm
    | loopEnd start =>
      dsimp only
      split
      · exact hbranch start not
      · exact congrArg _ (hf s i).symm

variable [Console τ] {c : τ}

/-- A change of machines commutes with a turn if it commutes with the step and, where the step waits
for input, with the receipt of the input. -/
theorem turn_mapMachine (hstep : (f m).step p = (m.step p).mapMachine f)
    (hreceive : ∀ input, m.step p = .read m → (f m).receive input = f (m.receive input)) (c : τ) :
    (f m).turn p c = (m.turn p c).mapMachine f := by
  unfold turn
  rw [hstep]
  cases hs : m.step p with
  | write ch m' =>
    simp only [Action.mapMachine]
    rcases Console.put ch c with ⟨_ | _, c'⟩ <;> rfl
  | read m' =>
    obtain rfl := (step_eq_read hs).2
    simp only [Action.mapMachine]
    cases Console.get? c with
    | none => rfl
    | some answer => simp only [hreceive answer.1 hs, Turn.mapMachine]
  | _ => rfl

/-- The turn that a machine takes after `n` others, whatever these came to. -/
def turnAt (p : Program) : Nat → Machine w → τ → Turn w τ
  | 0, m, c => m.turn p c
  | n + 1, m, c => turnAt p n (m.turn p c).machine (m.turn p c).console

theorem turnAt_mapMachine {I : Machine w → Prop} {A : Turn w τ → Prop}
    (hkeeps : ∀ (m : Machine w) (c : τ), I m → A (m.turn p c) → I (m.turn p c).machine)
    (hturn : ∀ (m : Machine w) (c : τ), I m → A (m.turn p c) →
      (f m).turn p c = (m.turn p c).mapMachine f)
    {n : Nat} (hm : I m) (hok : ∀ k ≤ n, A (m.turnAt p k c)) :
    (f m).turnAt p n c = (m.turnAt p n c).mapMachine f := by
  induction n generalizing m c with
  | zero => exact hturn m c hm (hok 0 (Nat.le_refl 0))
  | succ n ih =>
    have hfirst := hok 0 (Nat.zero_le _)
    have hm' := hkeeps m c hm hfirst
    simp only [turnAt, hturn m c hm hfirst, Turn.machine_mapMachine, Turn.console_mapMachine]
    exact ih hm' fun k hk => hok (k + 1) (Nat.succ_le_succ hk)

end Machine

end TapeLang
