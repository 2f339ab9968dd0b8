import TapeLang.Proofs.Jumps
import TapeLang.Proofs.Rewriting

/-! # The loop tree of a program

The flat code of a program shows its loop tree: the ends of loops are brackets, and everything else
stands where it is carried out. Running the code with its jumps ends as the structured execution of
this tree ends.
-/

namespace TapeLang

/-- The ends of a loop as brackets. -/
def Instruction.lexeme : Instruction → Lexeme
  | .op o => .op o
  | .loopStart stop => .enter stop
  | .loopEnd start => .leave start

/-- The block that a program spells. Where its jumps lead is not looked at. -/
def Program.loopTree? (p : Program) : Option Block :=
  (Block.ofLexemes (p.code.toList.map Instruction.lexeme)).toOption

namespace Block

theorem spells_code (b : Block) (start : Nat) :
    Spells ((b.code start).map Instruction.lexeme) b := by
  induction b generalizing start with
  | nil => exact .nil
  | op o rest ih => exact .op o (ih (start + 1))
  | loop body rest ihb ihr =>
    rw [code, List.cons_append, List.map_cons, List.map_append, List.map_cons]
    exact .loop _ _ (ihb (start + 1)) (ihr _)

end Block

namespace Program

theorem loopTree?_ofBlock (b : Block) : (ofBlock b).loopTree? = some b := by
  rw [loopTree?, ofBlock_toList, Block.ofLexemes_of_spells (b.spells_code 0)]
  rfl

variable {w : CellWidth} {τ : Type} [Console τ] {bounds : BoundsPolicy} {b : Block}
  {s : Scene w τ} {r : Result w τ}

/-- Run from its first instruction, the program ends: it halts in a scene, or a fault is met in
one. -/
inductive EndsIn (p : Program) (bounds : BoundsPolicy) (s : Scene w τ) : Result w τ → Prop
  | halt {n k : Nat} {t : Scene w τ} :
      Moves p n ⟨s.memory, 0, bounds⟩ s.console ⟨t.memory, k, bounds⟩ t.console →
      Machine.turn p ⟨t.memory, k, bounds⟩ t.console =
        .halted ⟨t.memory, k, bounds⟩ t.console → EndsIn p bounds s (.done t)
  | fault {n k : Nat} {t : Scene w τ} {e : BoundsError} :
      Moves p n ⟨s.memory, 0, bounds⟩ s.console ⟨t.memory, k, bounds⟩ t.console →
      Machine.turn p ⟨t.memory, k, bounds⟩ t.console =
        .faulted e ⟨t.memory, k, bounds⟩ t.console → EndsIn p bounds s (.fault e.fault t)

theorem endsIn_ofBlock_iff (hs : s.memory.OnTape) :
    (ofBlock b).EndsIn bounds s r ↔ b.Yields bounds s r := by
  constructor
  · rintro (@⟨n, k, t, hm, ht⟩ | ⟨hm, ht⟩)
    · obtain ⟨⟨memory, console⟩, hy, hmachine, hconsole⟩ :=
        (halts_ofBlock_iff hs).mp ⟨n, _, _, hm, ht⟩
      cases hmachine
      cases hconsole
      exact hy
    · exact yields_fault_of_faults hs hm ht
  · intro hy
    obtain ⟨n, m, c, hm, hland⟩ := hy.moves hs (ofBlock_laid b) (b.entry_self 0)
    cases hland with
    | done t =>
      rw [Nat.zero_add] at hm
      exact .halt hm (turn_ofBlock_end b _ _)
    | fault ht => exact .fault hm ht

end Program

/-- The code of a compiled program spells a loop tree. From every scene with the pointer on the
tape, running the code with its jumps ends exactly as the structured execution of the tree does. -/
theorem jumps_follow_loop_tree {passes : Passes} {source : String} {p : Program}
    (h : compile passes source = .ok p) :
    ∃ tree, p.loopTree? = some tree ∧
      ∀ (w : CellWidth) (τ : Type) [Console τ] (bounds : BoundsPolicy) (s : Scene w τ),
        s.memory.OnTape → ∀ r, p.EndsIn bounds s r ↔ tree.Yields bounds s r := by
  obtain ⟨b, -, rfl⟩ := compile_eq_ok_iff.mp h
  exact ⟨_, Program.loopTree?_ofBlock _, fun w τ _ bounds s hs r => Program.endsIn_ofBlock_iff hs⟩

/-- Two loops around a move, on a tape without zero: the inner one goes around once and then leaves
the tape. -/
theorem jumps_follow_loop_tree_off_tape :
    ∃ p tree, compile .none "[[>]]" = .ok p ∧ p.loopTree? = some tree ∧
      tree.Yields .fatal (⟨⟨⟨#[.ofCode 7, .ofCode 7]⟩, 0⟩, .withInput ""⟩ : Scene .eight Buffered)
        (.fault .overflow ⟨⟨⟨#[.ofCode 7, .ofCode 7]⟩, 1⟩, .withInput ""⟩) := by
  let p : Program := ⟨#[.loopStart 4, .loopStart 3, .op (.move 1), .loopEnd 1, .loopEnd 0]⟩
  have h : compile .none "[[>]]" = .ok p := rfl
  obtain ⟨tree, htree, hiff⟩ := jumps_follow_loop_tree h
  refine ⟨p, tree, h, htree, (hiff _ _ _ _ ?_ _).mp ?_⟩
  · exact Nat.zero_lt_two
  · exact .fault (e := ⟨.overflow, 2, 1, 2⟩) (k := 2)
      (.step rfl (.step rfl (.step rfl (.step rfl (.refl _ _))))) rfl

end TapeLang
