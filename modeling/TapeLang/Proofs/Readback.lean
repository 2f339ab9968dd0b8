import Mathlib.Algebra.Group.Int.Defs
import TapeLang.Proofs.Emission
import TapeLang.Proofs.Statements

/-! # Reading generated code back

The lines that a built-in target writes for a program are the outline of its loop tree. So the tree
can be read off the braces or the indentation, and the text determines the program as far as its
statements show the summands.
-/

namespace TapeLang

theorem repeatText_render (n : Nat) (l : Line) :
    repeatText "    " n ++ l.render = Line.render ⟨indentStep * n + l.depth, l.text⟩ := by
  have hlist : (repeatText "    " n).toList = List.replicate (indentStep * n) ' ' :=
    Line.toList_repeatText rfl n
  rw [← String.toList_inj]
  simp only [Line.render, String.toList_append, String.toList_ofList, hlist, List.replicate_add,
    List.append_assoc]

namespace Language

variable (lang : Language) (config : Config)

/-- The lines that open a loop at a depth. -/
def firstLines (depth : Nat) : List Line :=
  match lang with
  | .python => [⟨depth, lang.header⟩, ⟨depth + indentStep, "pass"⟩]
  | .c | .rust => [⟨depth, lang.header⟩]

/-- The lines that close a loop at a depth: there are none if indentation shows the end. -/
def lastLines (depth : Nat) : List Line :=
  match lang with
  | .python => []
  | .c | .rust => [⟨depth, Outline.closer⟩]

theorem plain_header : Line.Plain lang.header := by
  cases lang <;> decide

theorem fragmentLines_of_plain (i : Instruction) {text : String} (h : Line.Plain text)
    (htext : lang.target.fragment i config = text) (depth : Nat) :
    Plan.fragmentLines lang.target config i depth =
      [Line.render ⟨indentStep * depth, text⟩] := by
  have hne : text ≠ "" := by
    rintro rfl
    obtain ⟨c, rest, hlist, -⟩ := h.head
    cases hlist
  have hindent : lang.target.indentation = "    " := by cases lang <;> rfl
  have hrender : Line.render ⟨0, text⟩ = text := by simp [Line.render]
  have hmargin := repeatText_render depth ⟨0, text⟩
  rw [hrender] at hmargin
  rw [Plan.fragmentLines, htext, Line.textLines_eq_singleton h, hindent]
  simpa [hne] using hmargin

theorem fragmentLines_op (o : Op) (depth : Nat) :
    Plan.fragmentLines lang.target config (.op o) depth =
      [Line.render ⟨indentStep * depth, lang.statement config o⟩] :=
  lang.fragmentLines_of_plain config (.op o) (sentence_statement lang config o).plain rfl depth

theorem fragmentLines_loopStart (stop depth : Nat) :
    Plan.fragmentLines lang.target config (.loopStart stop) depth =
      (lang.firstLines (indentStep * depth)).map Line.render := by
  cases lang with
  | c => exact fragmentLines_of_plain .c config (.loopStart stop) (plain_header .c) rfl depth
  | rust =>
    exact fragmentLines_of_plain .rust config (.loopStart stop) (plain_header .rust) rfl depth
  | python =>
    have htext : (textLines "while tape[p]:\n    pass").filter (· ≠ "") =
        [Line.render ⟨0, "while tape[p]:"⟩, Line.render ⟨indentStep, "pass"⟩] := by decide
    calc Plan.fragmentLines Target.python config (.loopStart stop) depth
        = ((textLines "while tape[p]:\n    pass").filter (· ≠ "")).map
            (repeatText "    " depth ++ ·) := rfl
      _ = [Line.render ⟨indentStep * depth + 0, "while tape[p]:"⟩,
            Line.render ⟨indentStep * depth + indentStep, "pass"⟩] := by
          rw [htext, List.map_cons, List.map_singleton, repeatText_render, repeatText_render]

theorem fragmentLines_loopEnd (start depth : Nat) :
    Plan.fragmentLines lang.target config (.loopEnd start) depth =
      (lang.lastLines (indentStep * depth)).map Line.render := by
  cases lang with
  | c => exact fragmentLines_of_plain .c config (.loopEnd start) Outline.plain_closer rfl depth
  | rust =>
    exact fragmentLines_of_plain .rust config (.loopEnd start) Outline.plain_closer rfl depth
  | python => rfl

/-- The block of a loop. In Python it starts with a statement without effect, so that it is never
empty. -/
def inner (o : Outline) : Outline :=
  match lang with
  | .python => .item "pass" .nil o
  | .c | .rust => o

/-- The statements of a block, each loop with the statements of its body. -/
def outline : Block → Outline
  | .nil => .nil
  | .op o rest => .item (lang.statement config o) .nil (outline rest)
  | .loop body rest => .item lang.header (lang.inner (outline body)) (outline rest)

/-- An outline in lines as the language shows blocks. -/
def layout (depth : Nat) (o : Outline) : List Line :=
  match lang with
  | .python => o.indented depth
  | .c | .rust => o.braced depth

/-- Find the blocks by what shows them in the language. -/
def read? (text : String) : Option Outline :=
  match lang with
  | .python => some (Outline.readIndented (Line.allOf text))
  | .c | .rust => Outline.readBraced (Line.allOf text)

theorem layout_sentence {text : String} (h : Sentence text) (depth : Nat) (rest : Outline) :
    lang.layout depth (.item text .nil rest) = ⟨depth, text⟩ :: lang.layout depth rest := by
  cases lang with
  | python => rfl
  | c | rust => rw [layout, layout, Outline.braced, h.opens_eq_false, if_neg Bool.false_ne_true]

theorem layout_loop (depth : Nat) (o rest : Outline) :
    lang.layout depth (.item lang.header (lang.inner o) rest) =
      lang.firstLines depth ++ lang.layout (depth + indentStep) o ++ lang.lastLines depth ++
        lang.layout depth rest := by
  cases lang with
  | python => simp [layout, firstLines, lastLines, inner, Outline.indented]
  | c | rust =>
    rw [layout, Outline.braced, if_pos (by decide)]
    simp [layout, firstLines, lastLines, inner]

/-- The lines of a block's code are the layout of its outline. -/
theorem lines_code (b : Block) (start depth : Nat) (after : List Instruction) :
    Plan.lines lang.target config (b.code start ++ after) depth =
      (lang.layout (indentStep * depth) (lang.outline config b)).map Line.render ++
        Plan.lines lang.target config after depth := by
  induction b generalizing start depth after with
  | nil => cases lang <;> rfl
  | op o rest ih =>
    rw [Block.code, List.cons_append, Plan.lines, fragmentLines_op, outline,
      layout_sentence lang (sentence_statement lang config o)]
    exact congrArg _ (ih (start + 1) depth after)
  | loop body rest ihb ihr =>
    rw [Block.code, List.append_assoc, List.cons_append, List.cons_append, Plan.lines,
      fragmentLines_loopStart]
    simp only [Instruction.depthAt, Instruction.depthAfter]
    -- the end of the loop is the first instruction after the body, and shown one step to the left
    rw [ihb, Plan.lines, fragmentLines_loopEnd]
    simp only [Instruction.depthAt, Instruction.depthAfter, Nat.add_sub_cancel]
    rw [ihr, outline, layout_loop, Nat.mul_succ]
    simp only [List.map_append, List.append_assoc]

theorem outline_all {P : String → Outline → Prop} (hop : ∀ o, P (lang.statement config o) .nil)
    (hloop : ∀ o, P lang.header (lang.inner o)) (hpass : P "pass" .nil) (b : Block) :
    (lang.outline config b).All P := by
  induction b with
  | nil => trivial
  | op o rest ih => exact ⟨hop o, trivial, ih⟩
  | loop body rest ihb ihr =>
    refine ⟨hloop _, ?_, ihr⟩
    cases lang with
    | python => exact ⟨hpass, trivial, ihb⟩
    | c | rust => exact ihb

theorem plain_outline (b : Block) : (lang.outline config b).Plain :=
  lang.outline_all config (fun o => (sentence_statement lang config o).plain)
    (fun _ => plain_header lang) (by decide) b

theorem braces_outline (h : lang ≠ .python) (b : Block) : (lang.outline config b).Braces := by
  refine lang.outline_all config ?_ ?_ (by decide) b
  · intro o
    exact ⟨(sentence_statement lang config o).ne_closer, fun _ => rfl⟩
  · intro o
    cases lang with
    | python => exact absurd rfl h
    | c | rust => exact ⟨by decide, fun hopens => absurd hopens (by decide)⟩

theorem read?_layout (b : Block) (depth : Nat) :
    lang.read? (linesOf ((lang.layout depth (lang.outline config b)).map Line.render)) =
      some (lang.outline config b) := by
  have hplain := plain_outline lang config b
  cases lang with
  | python => exact congrArg some (Outline.readIndented_allOf hplain depth)
  | c | rust =>
    exact Outline.readBraced_allOf hplain (braces_outline _ config Language.noConfusion b) depth

/-- In Python exactly the loops have blocks, and no block is empty. -/
theorem header_iff_inner (b : Block) :
    (python.outline config b).All fun text inner => text = python.header ↔ inner ≠ .nil := by
  refine python.outline_all config ?_ ?_ ?_ b
  · intro o
    simp [(sentence_statement python config o).ne_header python]
  · intro o
    simp [inner]
  · simp [(by decide : Sentence "pass").ne_header python]

theorem inner_inj {o o' : Outline} : lang.inner o = lang.inner o' ↔ o = o' := by
  cases lang <;> simp [inner]

theorem outline_eq_iff {b b' : Block} :
    lang.outline config b = lang.outline config b' ↔
      b.mapDeltas (lang.shownDelta config.width) = b'.mapDeltas (lang.shownDelta config.width) := by
  have hheader (o : Op) : lang.statement config o ≠ lang.header :=
    (sentence_statement lang config o).ne_header lang
  induction b generalizing b' with
  | nil => cases b' <;> simp [outline, Block.mapDeltas]
  | op o rest ih =>
    cases b' <;> simp [outline, Block.mapDeltas, statement_eq_iff, ih, hheader]
  | loop body rest ihb ihr =>
    cases b' <;> simp [outline, Block.mapDeltas, inner_inj, ihb, ihr, (hheader _).symm]

/-- Write the code for a program to a sink that takes everything. -/
def emit (program : Program) : GenerationEnd × ByteArray :=
  let (ending, g) := generate lang.target config program (fun _ => false) {}
  (ending, g.sink.bytes)

/-- The text for a block between the opening and the closing. -/
def body (b : Block) : String :=
  linesOf ((lang.layout indentStep (lang.outline config b)).map Line.render)

theorem emit_ofBlock (b : Block) :
    lang.emit config (.ofBlock b) = (.done,
      (lang.target.opening config ++ lang.body config b ++ lang.target.closing config).toUTF8) := by
  have hlines : Plan.lines lang.target config (b.code 0) 1 =
      (lang.layout indentStep (lang.outline config b)).map Line.render := by
    simpa [Plan.lines] using lang.lines_code config b 0 1 []
  obtain ⟨g, hgenerate, hbytes⟩ := generate_of_unbounded lang.target config (.ofBlock b)
    (⟨rfl, rfl, rfl⟩ : Sink.Unbounded {})
  rw [Program.ofBlock_toList, hlines] at hbytes
  simp [emit, hgenerate, hbytes, body]

theorem emit_eq_iff {b b' : Block} :
    lang.emit config (.ofBlock b) = lang.emit config (.ofBlock b') ↔
      b.mapDeltas (lang.shownDelta config.width) = b'.mapDeltas (lang.shownDelta config.width) := by
  rw [← outline_eq_iff, emit_ofBlock, emit_ofBlock]
  constructor
  · intro h
    have htext := String.toByteArray_inj.mp (Prod.mk.inj h).2
    rw [String.append_left_inj, String.append_right_inj] at htext
    have hread := congrArg lang.read? htext
    rwa [body, body, read?_layout, read?_layout, Option.some_inj] at hread
  · intro h
    rw [body, body, h]

theorem eq_of_shown {b b' : Block} (hb : b.mapDeltas Lexeme.wrapDelta = b)
    (hb' : b'.mapDeltas Lexeme.wrapDelta = b') {width : CellWidth}
    (hwide : lang = .python ∨ width = .thirtyTwo)
    (h : b.mapDeltas (lang.shownDelta width) = b'.mapDeltas (lang.shownDelta width)) : b = b' := by
  have hall (hshown : lang.shownDelta width = id) : b = b' := by
    rwa [hshown, Block.mapDeltas_id, Block.mapDeltas_id] at h
  rcases hwide with rfl | rfl
  · exact hall rfl
  · cases lang with
    | python | rust => exact hall rfl
    | c => exact Block.eq_of_mapDeltas_widest hb hb' h

/-- Narrow cells in C and Rust show summands modulo the number of values of a cell. -/
theorem shownDelta_narrow {width : CellWidth} (hlang : lang ≠ .python)
    (hwidth : width ≠ .thirtyTwo) : lang.shownDelta width = (· % 2 ^ width.bits) := by
  cases width with
  | thirtyTwo => exact absurd rfl hwidth
  | eight | sixteen =>
    cases lang with
    | python => exact absurd rfl hlang
    | c | rust => rfl

end Language

/-- The text for a compiled program shows its loop tree, statement by statement, and the texts for
two of them are equal only for equal programs, but for summands that narrow cells do not tell
apart. -/
theorem emitted_text_determines_program (lang : Language) (config : Config) :
    (∀ (passes : Passes) (source : String) (program : Program),
      compile passes source = .ok program →
      ∃ tree body, program.loopTree? = some tree ∧
        lang.emit config program = (.done,
          (lang.target.opening config ++ body ++ lang.target.closing config).toUTF8) ∧
        lang.read? body = some (lang.outline config tree) ∧
        (lang = .python → (lang.outline config tree).All fun text inner =>
          text = lang.header ↔ inner ≠ .nil)) ∧
    ∀ (passes₁ passes₂ : Passes) (source₁ source₂ : String) (p q : Program),
      compile passes₁ source₁ = .ok p → compile passes₂ source₂ = .ok q →
      (lang = .python ∨ config.width = .thirtyTwo →
        (lang.emit config p = lang.emit config q ↔ p = q)) ∧
      (lang ≠ .python → config.width ≠ .thirtyTwo →
        (lang.emit config p = lang.emit config q ↔
          p.mapDeltas (· % 2 ^ config.width.bits) = q.mapDeltas (· % 2 ^ config.width.bits))) := by
  constructor
  · intro passes source program h
    obtain ⟨tree, rfl, -⟩ := exists_block_of_compile h
    refine ⟨tree, lang.body config tree, Program.loopTree?_ofBlock tree,
      lang.emit_ofBlock config tree, lang.read?_layout config tree indentStep, ?_⟩
    rintro rfl
    exact Language.header_iff_inner config tree
  · intro passes₁ passes₂ source₁ source₂ p q hp hq
    obtain ⟨b, rfl, hb⟩ := exists_block_of_compile hp
    obtain ⟨b', rfl, hb'⟩ := exists_block_of_compile hq
    rw [Language.emit_eq_iff]
    constructor
    · intro hwide
      rw [Program.ofBlock_inj]
      exact ⟨lang.eq_of_shown hb hb' hwide, fun h => by rw [h]⟩
    · intro hlang hwidth
      rw [lang.shownDelta_narrow hlang hwidth, Program.mapDeltas_ofBlock,
        Program.mapDeltas_ofBlock, Program.ofBlock_inj]

/-- The code of `[[]+[>]]`, an empty loop and an adjacent one that ends together with the outer. -/
def nestedLoops : Program :=
  ⟨#[.loopStart 7, .loopStart 2, .loopEnd 1, .op (.add 1), .loopStart 6, .op (.move 1), .loopEnd 4,
    .loopEnd 0]⟩

/-- The same with the inner loop folded. -/
def nestedScan : Program :=
  ⟨#[.loopStart 5, .loopStart 2, .loopEnd 1, .op (.add 1), .op (.scan .right), .loopEnd 0]⟩

theorem emitted_text_determines_program_nested :
    compile .none "[[]+[>]]" = .ok nestedLoops ∧ compile .all "[[]+[>]]" = .ok nestedScan ∧
      (∃ tree body, nestedLoops.loopTree? = some tree ∧
        Language.python.read? body = some (Language.python.outline {} tree)) ∧
      Language.python.emit {} nestedLoops ≠ Language.python.emit {} nestedScan ∧
      compile .none "+" = .ok ⟨#[.op (.add 1)]⟩ ∧
      compile .all (String.ofList (List.replicate 257 '+')) = .ok ⟨#[.op (.add 257)]⟩ ∧
      Language.c.emit {} ⟨#[.op (.add 1)]⟩ = Language.c.emit {} ⟨#[.op (.add 257)]⟩ := by
  have hloops : compile .none "[[]+[>]]" = .ok nestedLoops := by decide +kernel
  have hscan : compile .all "[[]+[>]]" = .ok nestedScan := by decide +kernel
  have hone : compile .none "+" = .ok ⟨#[.op (.add 1)]⟩ := by decide +kernel
  have hmany : compile .all (String.ofList (List.replicate 257 '+')) =
      .ok ⟨#[.op (.add 257)]⟩ := by
    rw [compile, lex, String.toList_ofList]
    decide +kernel
  obtain ⟨hread, htell⟩ := emitted_text_determines_program .python {}
  obtain ⟨tree, body, htree, -, hbody, -⟩ := hread _ _ _ hloops
  have hpython := (htell _ _ _ _ _ _ hloops hscan).1 (.inl rfl)
  have hc := ((emitted_text_determines_program .c {}).2 _ _ _ _ _ _ hone hmany).2
    (by decide) (by decide)
  refine ⟨hloops, hscan, ⟨tree, body, htree, hbody⟩, fun h => ?_, hone, hmany,
    hc.mpr (by decide +kernel)⟩
  exact absurd (hpython.mp h) (by decide)

end TapeLang
