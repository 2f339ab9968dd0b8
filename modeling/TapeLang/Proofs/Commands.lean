import TapeLang.Proofs.Rewriting

/-! # Commands

The characters of a text that are commands. Which block a text spells depends on these alone:
neither the comments between them nor the positions at which they stand make a difference.
-/

namespace TapeLang

/-- The commands that are no brackets, each with what it does. -/
def plainCommands : List (Char × Op) :=
  [('>', .move 1), ('<', .move (-1)), ('+', .add 1), ('-', .add (-1)), ('.', .output),
    (',', .input), ('#', .breakpoint)]

def commandChars : List Char := ['>', '<', '+', '-', '.', ',', '[', ']', '#']

/-- The commands of a text in order. -/
def commands (text : List Char) : List Char := text.filter (· ∈ commandChars)

variable {c : Char} {o : Op} {i : Nat} {text : List Char}

theorem commands_cons_of_mem (h : c ∈ commandChars) (text : List Char) :
    commands (c :: text) = c :: commands text :=
  List.filter_cons_of_pos (decide_eq_true h)

theorem commands_cons_of_not_mem (h : c ∉ commandChars) (text : List Char) :
    commands (c :: text) = commands text :=
  List.filter_cons_of_neg (by simpa using h)

theorem commands_append (text text' : List Char) :
    commands (text ++ text') = commands text ++ commands text' :=
  List.filter_append ..

theorem mem_commandChars (h : c ∈ commands text) : c ∈ commandChars :=
  of_decide_eq_true (List.mem_filter.mp h).2

namespace Lexeme

def unplaced : Lexeme → Lexeme
  | .op o => .op o
  | .enter _ => .enter 0
  | .leave _ => .leave 0

/-- What a command is, wherever it stands. For other characters it has no meaning. -/
def ofCommand (c : Char) : Lexeme := (ofChar? c 0).getD (.op .breakpoint)

theorem ofChar?_eq_op_iff : ofChar? c i = some (.op o) ↔ (c, o) ∈ plainCommands := by
  unfold ofChar?
  split
  case h_9 =>
    by_cases hmark : c = breakpointMark
    · simp_all [plainCommands, breakpointMark, eq_comm]
    · simp_all [plainCommands, breakpointMark]
  all_goals simp [plainCommands, eq_comm]

theorem ofChar?_eq_none_iff : ofChar? c i = none ↔ c ∉ commandChars := by
  unfold ofChar?
  split
  case h_9 => by_cases hmark : c = breakpointMark <;> simp_all [commandChars, breakpointMark]
  all_goals simp [commandChars]

theorem unplaced_ofChar? (c : Char) (position : Nat) :
    (ofChar? c position).map unplaced = ofChar? c 0 := by
  unfold ofChar?
  split
  case h_9 => split <;> rfl
  all_goals rfl

theorem ofChar?_of_mem (h : c ∈ commandChars) : ofChar? c 0 = some (ofCommand c) := by
  cases hc : ofChar? c 0 with
  | none => exact absurd h (ofChar?_eq_none_iff.mp hc)
  | some x => simp [ofCommand, hc]

theorem ofCommand_eq_op_iff (h : c ∈ commandChars) :
    ofCommand c = .op o ↔ (c, o) ∈ plainCommands := by
  rw [← ofChar?_eq_op_iff (i := 0), ofChar?_of_mem h, Option.some_inj]

theorem ofCommand_of_plain (h : (c, o) ∈ plainCommands) :
    c ∈ commandChars ∧ ofCommand c = .op o := by
  have hc : ofChar? c 0 = some (.op o) := ofChar?_eq_op_iff.mpr h
  have hmem : c ∈ commandChars := Decidable.byContradiction fun hnot => by
    rw [ofChar?_eq_none_iff.mpr hnot] at hc
    cases hc
  exact ⟨hmem, (ofCommand_eq_op_iff hmem).mpr h⟩

theorem unplaced_lexed (text : List Char) (position : Nat) :
    ((text.zipIdx position).filterMap fun (c, i) => ofChar? c i).map unplaced =
      (commands text).map ofCommand := by
  induction text generalizing position with
  | nil => rfl
  | cons c text ih =>
    have hc := unplaced_ofChar? c position
    rw [List.zipIdx_cons, List.filterMap_cons]
    by_cases hmem : c ∈ commandChars
    · rw [ofChar?_of_mem hmem] at hc
      obtain ⟨x, hx, hux⟩ := Option.map_eq_some_iff.mp hc
      simp only [hx, List.map_cons, hux, ih, commands_cons_of_mem hmem]
    · have hnone : ofChar? c position = none := ofChar?_eq_none_iff.mpr hmem
      simp only [hnone, ih, commands_cons_of_not_mem hmem]

end Lexeme

namespace Block

variable {xs : List Lexeme} {b : Block}

theorem Spells.unplaced (h : Spells xs b) : Spells (xs.map Lexeme.unplaced) b := by
  induction h with
  | nil => exact .nil
  | op o _ ih => exact .op o ih
  | loop p q _ _ ihb ihr =>
    rw [List.map_cons, List.map_append, List.map_cons]
    exact .loop 0 0 ihb ihr

theorem Spells.of_unplaced (h : Spells (xs.map Lexeme.unplaced) b) : Spells xs b := by
  generalize hys : xs.map Lexeme.unplaced = ys at h
  induction h generalizing xs with
  | nil =>
    rw [List.map_eq_nil_iff.mp hys]
    exact .nil
  | op o _ ih =>
    obtain ⟨x, xs, rfl, hx, hxs⟩ := List.map_eq_cons_iff.mp hys
    cases x <;> cases hx
    exact .op o (ih hxs)
  | loop p q _ _ ihb ihr =>
    obtain ⟨x, xs, rfl, hx, hxs⟩ := List.map_eq_cons_iff.mp hys
    obtain ⟨us, zs, rfl, hus, hzs⟩ := List.map_eq_append_iff.mp hxs
    obtain ⟨z, vs, rfl, hz, hvs⟩ := List.map_eq_cons_iff.mp hzs
    cases x <;> cases hx
    cases z <;> cases hz
    exact .loop _ _ (ihb hus) (ihr hvs)

theorem ofLexemes_lex_iff {source : String} : ofLexemes (lex source) = .ok b ↔
    Spells ((commands source.toList).map Lexeme.ofCommand) b := by
  rw [ofLexemes_eq_ok_iff, ← Lexeme.unplaced_lexed source.toList 1]
  exact ⟨Spells.unplaced, Spells.of_unplaced⟩

end Block

theorem compile_eq_ok_iff_commands {passes : Passes} {source : String} {p : Program} :
    compile passes source = .ok p ↔
      ∃ b, Block.Spells ((commands source.toList).map Lexeme.ofCommand) b ∧
        p = .ofBlock (passes.rewrite b) := by
  rw [compile_eq_ok_iff]
  exact exists_congr fun b => and_congr_left fun _ => Block.ofLexemes_lex_iff

end TapeLang
