import TapeLang.Proofs.Seams

/-! # Composing programs

The program of a text made of two is made of their programs, the second moved behind the first, and
brackets around a text put a loop around its program. The passes look ahead, but never beyond a
loop that is closed; only a run can reach from one text into the other.
-/

namespace TapeLang

/-- The instruction with its target moved by `k`. -/
def Instruction.relocate (k : Nat) : Instruction → Instruction
  | .op o => .op o
  | .loopStart stop => .loopStart (stop + k)
  | .loopEnd start => .loopEnd (start + k)

namespace Program

/-- One program after the other. -/
def append (p q : Program) : Program := ⟨p.code ++ q.code.map (Instruction.relocate p.size)⟩

/-- A loop around a program. -/
def looped (p : Program) : Program :=
  ⟨#[.loopStart (p.size + 1)] ++ p.code.map (Instruction.relocate 1) ++ #[.loopEnd 0]⟩

end Program

namespace Block

theorem code_relocate (b : Block) (start k : Nat) :
    b.code (start + k) = (b.code start).map (Instruction.relocate k) := by
  induction b generalizing start with
  | nil => rfl
  | op o rest ih =>
    rw [code, code, List.map_cons, ← ih, Nat.add_right_comm]
    rfl
  | loop body rest ihb ihr =>
    have hbody : start + k + 1 = start + 1 + k := by omega
    have hend : start + 1 + k + body.size = start + 1 + body.size + k := by omega
    have hrest : start + 1 + body.size + k + 1 = start + 1 + body.size + 1 + k := by omega
    simp only [code, hbody, hend, hrest, ihb, ihr, List.cons_append, List.map_cons, List.map_append,
      Instruction.relocate]

theorem code_append (a b : Block) (start : Nat) :
    (a.append b).code start = a.code start ++ b.code (start + a.size) := by
  induction a generalizing start with
  | nil => rfl
  | op o rest ih => rw [append, code, code, ih, add_size_op, List.cons_append]
  | loop body rest _ ih =>
    simp only [append, code, ih, add_size_loop, List.cons_append, List.append_assoc]

end Block

namespace Program

theorem ofBlock_append (a b : Block) : ofBlock (a.append b) = (ofBlock a).append (ofBlock b) := by
  have hcode : (ofBlock (a.append b)).code.toList =
      ((ofBlock a).append (ofBlock b)).code.toList := by
    rw [append, Array.toList_append, Array.toList_map, ofBlock_toList, ofBlock_toList,
      ofBlock_toList, ofBlock_size, Block.code_append, Block.code_relocate]
  exact congrArg Program.mk (Array.toList_inj.mp hcode)

theorem ofBlock_loop (b : Block) : ofBlock (.loop b .nil) = (ofBlock b).looped := by
  have hcode : (ofBlock (.loop b .nil)).code.toList = (ofBlock b).looped.code.toList := by
    rw [looped, Array.toList_append, Array.toList_append, Array.toList_map, ofBlock_toList,
      ofBlock_toList, ofBlock_size, Block.code, Block.code, Block.code_relocate b 0 1,
      Nat.zero_add, Nat.add_comm]
    rfl
  exact congrArg Program.mk (Array.toList_inj.mp hcode)

end Program

namespace Block

def head? : Block → Option Op
  | .op o _ => some o
  | _ => none

inductive EndsWith (o : Op) : Block → Prop
  | last : EndsWith o (.op o .nil)
  | op (o' : Op) {rest : Block} : EndsWith o rest → EndsWith o (.op o' rest)
  | loop (body : Block) {rest : Block} : EndsWith o rest → EndsWith o (.loop body rest)

/-- No run reaches from the end of one block into the beginning of the other. -/
def Apart (a b : Block) : Prop := ∀ o o', a.EndsWith o → b.head? = some o' → ¬ o.Merges o'

variable {a a' b b' body rest : Block} {o o' : Op}

/-! What a block begins or ends with can be seen in its lexemes. -/

theorem Spells.endsWith {xs : List Lexeme} (h : Spells xs a) (hlast : xs.getLast? = some (.op o)) :
    a.EndsWith o := by
  induction h with
  | nil => cases hlast
  | @op o' xs _ hr ih =>
    cases hxs : xs.getLast? with
    | none =>
      obtain rfl := List.getLast?_eq_none_iff.mp hxs
      cases hr
      cases hlast
      exact .last
    | some x =>
      obtain rfl : x = .op o := by simpa [List.getLast?_cons, hxs] using hlast
      exact .op o' (ih hxs)
  | @loop p q _ ys body _ _ _ _ ih =>
    cases hys : ys.getLast? with
    | none => simp [List.getLast?_cons, List.getLast?_append, hys] at hlast
    | some y =>
      obtain rfl : y = .op o := by
        simpa [List.getLast?_cons, List.getLast?_append, hys] using hlast
      exact .loop body (ih hys)

theorem Spells.head?_eq {xs : List Lexeme} (h : Spells xs b) (hhead : xs.head? = some (.op o)) :
    b.head? = some o := by
  cases h <;> cases hhead
  rfl

theorem coalesce_append (h : Apart a b) : (a.append b).coalesce = a.coalesce.append b.coalesce := by
  have ha := spells_code a 0
  have hb := spells_code b 0
  have hwhole := spells_coalesce (ha.append hb)
  rw [Lexeme.coalesce_append fun o o' ho ho' => h o o' (ha.endsWith ho) (hb.head?_eq ho')] at hwhole
  exact hwhole.unique ((spells_coalesce ha).append (spells_coalesce hb))

theorem loopOrIdiom_append (body rest b : Block) :
    loopOrIdiom body (rest.append b) = (loopOrIdiom body rest).append b := by
  unfold loopOrIdiom
  split
  · split <;> rfl
  · rfl

theorem fold_append (a b : Block) : (a.append b).fold = a.fold.append b.fold := by
  induction a with
  | nil => rfl
  | op o rest ih => rw [append, fold, ih, fold, append]
  | loop body rest _ ih => rw [append, fold, ih, fold, loopOrIdiom_append]

/-! What folding puts in place of a loop merges with nothing. -/

theorem Folded.head?_of_merges (h : Folded b b') (hh : b'.head? = some o') (hm : o.Merges o') :
    b.head? = some o' := by
  cases h with
  | nil => cases hh
  | op => exact hh
  | loop => cases hh
  | idiom hi =>
    cases hh
    rcases Op.loopIdiom?_cases hi with ⟨-, rfl⟩ | ⟨d, -, rfl⟩ <;> cases hm

theorem Folded.endsWith_of_merges (h : Folded a a') (he : a'.EndsWith o) (hm : o.Merges o') :
    a.EndsWith o := by
  induction h with
  | nil => cases he
  | op o₁ hr ih =>
    cases he with
    | last =>
      cases hr
      exact .last
    | op _ he => exact .op _ (ih he)
  | loop _ _ _ ih =>
    cases he with
    | loop _ he => exact .loop _ (ih he)
  | idiom hi hr ih =>
    cases he with
    | last => rcases Op.loopIdiom?_cases hi with ⟨-, rfl⟩ | ⟨d, -, rfl⟩ <;> cases hm
    | op _ he => exact .loop _ (ih he)

theorem Folded.apart (ha : Folded a a') (hb : Folded b b') (h : Apart a b) : Apart a' b' :=
  fun o o' he hh hm => h o o' (ha.endsWith_of_merges he hm) (hb.head?_of_merges hh hm) hm

theorem loopOrIdiom_of_not_idiom (h : ∀ o, body = .op o .nil → o.loopIdiom? = none) :
    loopOrIdiom body rest = .loop body rest := by
  unfold loopOrIdiom
  split
  · next o => rw [h o rfl]
  · rfl

end Block

namespace Passes

open Block

variable {passes : Passes} {a b : Block} {o idiom : Op}

theorem rewrite_append (h : passes.coalesce = true → Apart a b) :
    passes.rewrite (a.append b) = (passes.rewrite a).append (passes.rewrite b) := by
  rcases passes with ⟨_ | _, _ | _⟩
  · rfl
  · exact coalesce_append (h rfl)
  · exact fold_append a b
  · have hapart : Apart a.fold b.fold := (folded_fold a).apart (folded_fold b) (h rfl)
    calc (a.append b).fold.coalesce = (a.fold.append b.fold).coalesce := by rw [fold_append]
      _ = a.fold.coalesce.append b.fold.coalesce := coalesce_append hapart

theorem rewrite_loop
    (h : passes.foldIdioms = true → ∀ o, b = .op o .nil → o.loopIdiom? = Option.none) :
    passes.rewrite (.loop b .nil) = .loop (passes.rewrite b) .nil := by
  have hfold (hf : passes.foldIdioms = true) : (Block.loop b .nil).fold = .loop b.fold .nil := by
    refine loopOrIdiom_of_not_idiom fun o ho => ?_
    -- A body that folds to an operation with an idiom was that operation before.
    cases hi : o.loopIdiom? with
    | none => rfl
    | some idiom =>
      have hb : b = .op o .nil := Folded.eq_of_idiom_body (ho ▸ folded_fold b) hi
      rw [h hf o hb] at hi
      cases hi
  rcases passes with ⟨_ | _, _ | _⟩
  · rfl
  · rfl
  · exact hfold rfl
  · exact congrArg Block.coalesce (hfold rfl)

theorem rewrite_loop_of_idiom (hf : passes.foldIdioms = true) (h : o.loopIdiom? = some idiom) :
    passes.rewrite (.loop (.op o .nil) .nil) = .op idiom .nil := by
  have hfold : (Block.loop (.op o .nil) .nil).fold = .op idiom .nil := by
    simp only [fold, loopOrIdiom, h]
  rcases passes with ⟨_ | _, _ | _⟩
  · cases hf
  · cases hf
  · exact hfold
  · refine (congrArg Block.coalesce hfold).trans ?_
    rcases Op.loopIdiom?_cases h with ⟨-, rfl⟩ | ⟨d, -, rfl⟩ <;> rfl

end Passes

/-- A run reaches from the command `c` to the command `d` right after it. -/
def Joins (c d : Char) : Prop :=
  (c ∈ ['>', '<'] ∧ d ∈ ['>', '<']) ∨ (c ∈ ['+', '-'] ∧ d ∈ ['+', '-']) ∨ (c ∈ ['+', '-'] ∧ d = ',')

/-- The commands that have an idiom when they stand alone in a loop. -/
def loopIdioms : List (Char × Op) := [('-', .clear), ('<', .scan .left), ('>', .scan .right)]

namespace Block

variable {xs : List Lexeme} {a b : Block} {o o' : Op} {c d : Char} {text text' : List Char}

theorem Spells.getLast? (h : Spells xs b) (he : b.EndsWith o) : xs.getLast? = some (.op o) := by
  induction h with
  | nil => cases he
  | op o' hr ih =>
    cases he with
    | last =>
      cases hr
      rfl
    | op _ he => rw [List.getLast?_cons, ih he, Option.getD_some]
  | loop p q _ _ _ ih =>
    cases he with
    | loop _ he => simp [List.getLast?_cons, List.getLast?_append, ih he]

theorem Spells.head? (h : Spells xs b) (hh : b.head? = some o) : xs.head? = some (.op o) := by
  cases h <;> cases hh
  rfl

theorem joins_of_merges (hc : (c, o) ∈ plainCommands) (hd : (d, o') ∈ plainCommands)
    (h : o.Merges o') : Joins c d := by
  have hmove {c : Char} {n : Int} (h : (c, .move n) ∈ plainCommands) : c ∈ ['>', '<'] := by
    have hcases : c = '>' ∧ n = 1 ∨ c = '<' ∧ n = -1 := by simpa [plainCommands] using h
    rcases hcases with ⟨rfl, -⟩ | ⟨rfl, -⟩ <;> decide
  have hadd {c : Char} {n : Int} (h : (c, .add n) ∈ plainCommands) : c ∈ ['+', '-'] := by
    have hcases : c = '+' ∧ n = 1 ∨ c = '-' ∧ n = -1 := by simpa [plainCommands] using h
    rcases hcases with ⟨rfl, -⟩ | ⟨rfl, -⟩ <;> decide
  have hinput {c : Char} (h : (c, .input) ∈ plainCommands) : c = ',' := by
    simpa [plainCommands] using h
  cases h with
  | moves => exact Or.inl ⟨hmove hc, hmove hd⟩
  | adds => exact Or.inr (Or.inl ⟨hadd hc, hadd hd⟩)
  | overwritten => exact Or.inr (Or.inr ⟨hadd hc, hinput hd⟩)

/-- Blocks are apart if no run reaches from the last command of one text to the first command of the
other. -/
theorem Spells.apart (ha : Spells ((commands text).map Lexeme.ofCommand) a)
    (hb : Spells ((commands text').map Lexeme.ofCommand) b)
    (h : ∀ c d, (commands text).getLast? = some c → (commands text').head? = some d → ¬ Joins c d) :
    Apart a b := by
  intro o o' he hh hm
  have hlast := ha.getLast? he
  have hhead := hb.head? hh
  rw [List.getLast?_map] at hlast
  rw [List.head?_map] at hhead
  obtain ⟨c, hc, hco⟩ := Option.map_eq_some_iff.mp hlast
  obtain ⟨d, hd, hdo⟩ := Option.map_eq_some_iff.mp hhead
  have hmem := mem_commandChars (List.mem_of_getLast? hc)
  have hmem' := mem_commandChars (List.mem_of_head? hd)
  exact h c d hc hd (joins_of_merges ((Lexeme.ofCommand_eq_op_iff hmem).mp hco)
    ((Lexeme.ofCommand_eq_op_iff hmem').mp hdo) hm)

theorem Spells.looped (h : Spells ((commands text).map Lexeme.ofCommand) b) :
    Spells ((commands ('[' :: text ++ [']'])).map Lexeme.ofCommand) (.loop b .nil) := by
  rw [List.cons_append, commands_cons_of_mem (by decide), commands_append, List.map_cons,
    List.map_append]
  exact .loop 0 0 h .nil

theorem Spells.single (h : Spells ((commands text).map Lexeme.ofCommand) (.op o .nil)) :
    ∃ c, commands text = [c] ∧ (c, o) ∈ plainCommands := by
  generalize hxs : (commands text).map Lexeme.ofCommand = xs at h
  cases h with
  | op _ hnil =>
    cases hnil
    obtain ⟨c, hc, hco⟩ := List.map_eq_singleton_iff.mp hxs
    have hmem : c ∈ commandChars := mem_commandChars (hc ▸ List.mem_singleton_self c)
    exact ⟨c, hc, (Lexeme.ofCommand_eq_op_iff hmem).mp hco⟩

end Block

theorem loopIdiom?_of_mem {c : Char} {idiom : Op} (h : (c, idiom) ∈ loopIdioms) :
    ∃ o, Lexeme.ofCommand c = .op o ∧ o.loopIdiom? = some idiom := by
  simp only [loopIdioms, List.mem_cons, Prod.mk.injEq, List.not_mem_nil, or_false] at h
  rcases h with ⟨rfl, rfl⟩ | ⟨rfl, rfl⟩ | ⟨rfl, rfl⟩ <;> exact ⟨_, rfl, rfl⟩

theorem mem_of_loopIdiom? {c : Char} {o idiom : Op} (hc : (c, o) ∈ plainCommands)
    (h : o.loopIdiom? = some idiom) : c ∈ ['-', '<', '>'] := by
  simp only [plainCommands, List.mem_cons, Prod.mk.injEq, List.not_mem_nil, or_false] at hc
  rcases hc with ⟨rfl, rfl⟩ | ⟨rfl, rfl⟩ | ⟨rfl, rfl⟩ | ⟨rfl, rfl⟩ | ⟨rfl, rfl⟩ | ⟨rfl, rfl⟩ |
    ⟨rfl, rfl⟩
  all_goals first | decide | cases h

/-- Of two texts one after the other the programs are put one after the other, unless coalescing
sees a run at the seam. Of a text in brackets the program is put in a loop, unless folding sees a
loop over one command that has an idiom. -/
theorem compilation_compositional (passes : Passes) :
    (∀ s t p q, compile passes s = .ok p → compile passes t = .ok q →
      (passes.coalesce = true → ∀ c d, (commands s.toList).getLast? = some c →
        (commands t.toList).head? = some d → ¬ Joins c d) →
      compile passes (s ++ t) = .ok (p.append q)) ∧
    ∀ s p, compile passes s = .ok p →
      (∀ c idiom, passes.foldIdioms = true → commands s.toList = [c] → (c, idiom) ∈ loopIdioms →
        compile passes ("[" ++ s ++ "]") = .ok ⟨#[.op idiom]⟩) ∧
      ((passes.foldIdioms = true → ∀ c ∈ ['-', '<', '>'], commands s.toList ≠ [c]) →
        compile passes ("[" ++ s ++ "]") = .ok p.looped) := by
  refine ⟨fun s t p q hp hq hseam => ?_, fun s p hp => ?_⟩
  · obtain ⟨a, ha, rfl⟩ := compile_eq_ok_iff_commands.mp hp
    obtain ⟨b, hb, rfl⟩ := compile_eq_ok_iff_commands.mp hq
    refine compile_eq_ok_iff_commands.mpr ⟨a.append b, ?_, ?_⟩
    · rw [String.toList_append, commands_append, List.map_append]
      exact ha.append hb
    · rw [← Program.ofBlock_append, Passes.rewrite_append fun hc => ha.apart hb (hseam hc)]
  · obtain ⟨b, hb, rfl⟩ := compile_eq_ok_iff_commands.mp hp
    have hlooped := hb.looped
    have htext : ("[" ++ s ++ "]").toList = '[' :: s.toList ++ [']'] := by simp
    rw [← htext] at hlooped
    constructor
    · intro c idiom hfold hc hidiom
      obtain ⟨o, hco, ho⟩ := loopIdiom?_of_mem hidiom
      have hsingle : b = .op o .nil := by
        rw [hc, List.map_singleton, hco] at hb
        cases hb with
        | op _ hnil =>
          cases hnil
          rfl
      subst hsingle
      refine compile_eq_ok_iff_commands.mpr ⟨_, hlooped, ?_⟩
      rw [Passes.rewrite_loop_of_idiom hfold ho]
      rfl
    · intro hplain
      refine compile_eq_ok_iff_commands.mpr ⟨_, hlooped, ?_⟩
      rw [Passes.rewrite_loop, Program.ofBlock_loop]
      rintro hfold o rfl
      obtain ⟨c, hc, hco⟩ := hb.single
      cases hidiom : o.loopIdiom? with
      | none => rfl
      | some idiom => exact absurd hc (hplain hfold c (mem_of_loopIdiom? hco hidiom))

theorem compilation_compositional_seam :
    compile .all "[.]+" = .ok ⟨#[.loopStart 2, .op .output, .loopEnd 0, .op (.add 1)]⟩ ∧
      compile .all ">[,]" = .ok ⟨#[.op (.move 1), .loopStart 3, .op .input, .loopEnd 1]⟩ ∧
      compile .all ("[.]+" ++ ">[,]") = .ok ⟨#[.loopStart 2, .op .output, .loopEnd 0,
        .op (.add 1), .op (.move 1), .loopStart 7, .op .input, .loopEnd 5]⟩ ∧
      compile .all ("[" ++ "[.]+" ++ "]") = .ok ⟨#[.loopStart 5, .loopStart 3, .op .output,
        .loopEnd 1, .op (.add 1), .loopEnd 0]⟩ ∧
      compile .all ("[" ++ "to 0: - " ++ "]") = .ok ⟨#[.op .clear]⟩ := by
  obtain ⟨hseam, hloop⟩ := compilation_compositional .all
  have hfirst : compile .all "[.]+" =
      .ok ⟨#[.loopStart 2, .op .output, .loopEnd 0, .op (.add 1)]⟩ := rfl
  have hsecond : compile .all ">[,]" =
      .ok ⟨#[.op (.move 1), .loopStart 3, .op .input, .loopEnd 1]⟩ := rfl
  have hbody : compile .all "to 0: - " = .ok ⟨#[.op (.add (-1))]⟩ := rfl
  refine ⟨hfirst, hsecond, (hseam _ _ _ _ hfirst hsecond ?_).trans ?_,
    ((hloop _ _ hfirst).2 ?_).trans ?_, (hloop _ _ hbody).1 '-' .clear rfl rfl (by decide)⟩
  · rintro - c d hc hd
    obtain rfl : '+' = c := Option.some.inj hc
    obtain rfl : '>' = d := Option.some.inj hd
    simp [Joins]
  · simp [Program.append, Program.size, Instruction.relocate]
  · rintro - c - hc
    have hlength : 4 = 1 := congrArg List.length hc
    cases hlength
  · simp [Program.looped, Program.size, Instruction.relocate]

end TapeLang
