import TapeLang.Proofs.LoopTree

/-! # Summands

The numbers that a program adds to cells. Compiled programs hold each of them as its representative
modulo the number of values of the widest cell.
-/

namespace TapeLang

/-- Put `f delta` in place of the summand `delta`. -/
def Op.mapDelta (f : Int → Int) : Op → Op
  | .add delta => .add (f delta)
  | o => o

def Instruction.mapDelta (f : Int → Int) : Instruction → Instruction
  | .op o => .op (o.mapDelta f)
  | i => i

def Block.mapDeltas (f : Int → Int) : Block → Block
  | .nil => .nil
  | .op o rest => .op (o.mapDelta f) (rest.mapDeltas f)
  | .loop body rest => .loop (body.mapDeltas f) (rest.mapDeltas f)

def Program.mapDeltas (f : Int → Int) (p : Program) : Program :=
  ⟨p.code.map (Instruction.mapDelta f)⟩

variable (f g : Int → Int)

theorem Op.mapDelta_mapDelta (o : Op) : (o.mapDelta f).mapDelta g = o.mapDelta (g ∘ f) := by
  cases o <;> rfl

namespace Block

theorem mapDeltas_mapDeltas (b : Block) :
    (b.mapDeltas f).mapDeltas g = b.mapDeltas (g ∘ f) := by
  induction b with
  | nil => rfl
  | op o rest ih => rw [mapDeltas, mapDeltas, mapDeltas, ih, Op.mapDelta_mapDelta]
  | loop body rest ihb ihr => rw [mapDeltas, mapDeltas, mapDeltas, ihb, ihr]

theorem mapDeltas_id (b : Block) : b.mapDeltas id = b := by
  induction b with
  | nil => rfl
  | op o rest ih =>
    rw [mapDeltas, ih]
    cases o <;> rfl
  | loop body rest ihb ihr => rw [mapDeltas, ihb, ihr]

theorem size_mapDeltas (b : Block) : (b.mapDeltas f).size = b.size := by
  induction b with
  | nil => rfl
  | op o rest ih => rw [mapDeltas, size, size, ih]
  | loop body rest ihb ihr => rw [mapDeltas, size, size, ihb, ihr]

theorem code_mapDeltas (b : Block) (start : Nat) :
    (b.mapDeltas f).code start = (b.code start).map (Instruction.mapDelta f) := by
  induction b generalizing start with
  | nil => rfl
  | op o rest ih => simp [mapDeltas, code, ih, Instruction.mapDelta]
  | loop body rest ihb ihr =>
    simp [mapDeltas, code, ihb, ihr, size_mapDeltas, Instruction.mapDelta]

end Block

namespace Program

theorem mapDeltas_ofBlock (b : Block) : (ofBlock b).mapDeltas f = ofBlock (b.mapDeltas f) := by
  have hcode : ((ofBlock b).mapDeltas f).code.toList = (ofBlock (b.mapDeltas f)).code.toList := by
    rw [ofBlock_toList, Block.code_mapDeltas, ← ofBlock_toList, mapDeltas, Array.toList_map]
  exact congrArg Program.mk (Array.toList_inj.mp hcode)

theorem ofBlock_inj {b b' : Block} : ofBlock b = ofBlock b' ↔ b = b' := by
  refine ⟨fun h => ?_, fun h => by rw [h]⟩
  have htree := congrArg loopTree? h
  rwa [loopTree?_ofBlock, loopTree?_ofBlock, Option.some_inj] at htree

end Program

/-- A summand of the operation is its own representative. -/
def Op.Wrapped (o : Op) : Prop := o.mapDelta Lexeme.wrapDelta = o

theorem Lexeme.wrapDelta_wrapDelta (n : Int) : wrapDelta (wrapDelta n) = wrapDelta n :=
  Int.bmod_bmod

theorem Op.wrapped_of_ne_add {o : Op} (h : ∀ n, o ≠ .add n) : o.Wrapped := by
  cases o with
  | add n => exact absurd rfl (h n)
  | _ => rfl

namespace Lexeme

/-- All summands among the lexemes are representatives. -/
def Wrapped (xs : List Lexeme) : Prop := ∀ o, .op o ∈ xs → o.Wrapped

variable {x : Lexeme} {xs rest : List Lexeme}

theorem wrapped_of_ofChar? {c : Char} {position : Nat} {o : Op}
    (h : ofChar? c position = some (.op o)) : o.Wrapped := by
  unfold ofChar? at h
  split at h
  case h_7 | h_8 => cases h
  case h_9 =>
    split at h <;> cases h
    rfl
  all_goals
    cases h
    rfl

theorem wrapped_lex (source : String) : Wrapped (lex source) := by
  intro o ho
  obtain ⟨⟨c, position⟩, -, hc⟩ := List.mem_filterMap.mp ho
  exact wrapped_of_ofChar? hc

theorem Wrapped.subset (h : Wrapped xs) {ys : List Lexeme} (hsub : ys ⊆ xs) : Wrapped ys :=
  fun o ho => h o (hsub ho)

theorem Wrapped.cons {o : Op} (ho : o.Wrapped) (h : Wrapped xs) : Wrapped (.op o :: xs) := by
  intro o' ho'
  rcases List.mem_cons.mp ho' with heq | hmem
  · cases heq
    exact ho
  · exact h o' hmem

theorem wrapped_idiom {o idiom : Op} (h : o.loopIdiom? = some idiom) : idiom.Wrapped := by
  unfold Op.loopIdiom? at h
  split at h <;> cases h <;> rfl

theorem Wrapped.consFolding (h : Wrapped (x :: rest)) : Wrapped (consFolding x rest) := by
  unfold Lexeme.consFolding
  split
  · next p o q tail =>
    split
    · next idiom hidiom =>
      exact Wrapped.cons (wrapped_idiom hidiom) (h.subset fun y hy => by simp [hy])
    · exact h
  · exact h

theorem Wrapped.foldIdioms (h : Wrapped xs) : Wrapped (foldIdioms xs) := by
  induction xs with
  | nil => exact h
  | cons x xs ih =>
    have hrest := ih (h.subset (List.subset_cons_self _ _))
    refine Wrapped.consFolding fun o ho => ?_
    rcases List.mem_cons.mp ho with rfl | hmem
    · exact h o List.mem_cons_self
    · exact hrest o hmem

theorem Wrapped.closeRun (h : Wrapped xs.tail) : Wrapped (closeRun xs) := by
  unfold Lexeme.closeRun
  split
  · next n rest =>
    split
    · exact h
    · exact Wrapped.cons rfl h
  · next n rest =>
    split
    · exact h
    · exact Wrapped.cons (congrArg Op.add (wrapDelta_wrapDelta n)) h
  · next hmove hadd =>
    cases xs with
    | nil => exact h
    | cons x rest =>
      intro o ho
      rcases List.mem_cons.mp ho with rfl | hmem
      · exact Op.wrapped_of_ne_add fun n hn => hadd n rest (by rw [hn])
      · exact h o hmem

theorem Wrapped.consCoalescing (h : Wrapped rest.tail) : Wrapped (consCoalescing x rest).tail := by
  unfold Lexeme.consCoalescing
  split
  · exact h
  · exact h
  · exact h
  · exact h.closeRun

/-- Whatever sums arise in a run that is open, no other summand is touched. -/
theorem wrapped_coalesce (xs : List Lexeme) : Wrapped (coalesce xs) := by
  refine Wrapped.closeRun ?_
  induction xs with
  | nil => exact fun _ ho => nomatch ho
  | cons x xs ih => exact ih.consCoalescing

end Lexeme

theorem Passes.wrapped_apply (passes : Passes) (source : String) :
    Lexeme.Wrapped (passes.apply (lex source)) := by
  obtain ⟨folds, coalesces⟩ := passes
  cases coalesces with
  | true => exact Lexeme.wrapped_coalesce _
  | false =>
    cases folds with
    | true => exact (Lexeme.wrapped_lex source).foldIdioms
    | false => exact Lexeme.wrapped_lex source

theorem Block.mapDeltas_wrapDelta {b : Block} (h : b.All Op.Wrapped) :
    b.mapDeltas Lexeme.wrapDelta = b := by
  induction b with
  | nil => rfl
  | op o rest ih => rw [mapDeltas, h.1, ih h.2]
  | loop body rest ihb ihr => rw [mapDeltas, ihb h.1, ihr h.2]

/-- The summands of a compiled program are representatives. -/
theorem exists_block_of_compile {passes : Passes} {source : String} {program : Program}
    (h : compile passes source = .ok program) :
    ∃ b, program = .ofBlock b ∧ b.mapDeltas Lexeme.wrapDelta = b := by
  obtain ⟨b, hb, rfl⟩ := compile_eq_ok_iff.mp h
  have hspells := passes.spells_apply (Block.ofLexemes_eq_ok_iff.mp hb)
  exact ⟨_, rfl, Block.mapDeltas_wrapDelta (hspells.all (passes.wrapped_apply source))⟩

theorem Block.eq_of_mapDeltas_widest {b b' : Block} (h : b.mapDeltas Lexeme.wrapDelta = b)
    (h' : b'.mapDeltas Lexeme.wrapDelta = b')
    (heq : b.mapDeltas (· % CellWidth.widest) = b'.mapDeltas (· % CellWidth.widest)) : b = b' := by
  have hwrap : Lexeme.wrapDelta ∘ (· % (CellWidth.widest : Int)) = Lexeme.wrapDelta :=
    funext fun n => Int.emod_bmod n CellWidth.widest
  calc b = (b.mapDeltas (· % CellWidth.widest)).mapDeltas Lexeme.wrapDelta := by
        rw [mapDeltas_mapDeltas, hwrap, h]
    _ = (b'.mapDeltas (· % CellWidth.widest)).mapDeltas Lexeme.wrapDelta := by rw [heq]
    _ = b' := by rw [mapDeltas_mapDeltas, hwrap, h']

end TapeLang
