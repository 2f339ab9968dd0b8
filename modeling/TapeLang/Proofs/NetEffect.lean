import Mathlib.Algebra.Ring.Int.Defs
import TapeLang.Proofs.Brackets
import TapeLang.Proofs.Composition
import TapeLang.Proofs.Indentation
import TapeLang.Proofs.Jumps
import TapeLang.Proofs.Readback

/-! # The net effect of a run

A run of additions or of moves in a text becomes one operation with the sum of the run, or nothing
if the sum is zero. Whenever the single commands get through, the operation leads to the same
memory; additions and moves that wrap always get through. In emitted code the number of an addition
stands for the sum at the width of the cells.
-/

namespace TapeLang

inductive RunKind
  | additions
  | moves
  deriving DecidableEq

namespace RunKind

/-- The command that counts as one. -/
def up : RunKind → Char
  | .additions => '+'
  | .moves => '>'

/-- The command that counts as minus one. -/
def down : RunKind → Char
  | .additions => '-'
  | .moves => '<'

def op : RunKind → Int → Op
  | .additions => .add
  | .moves => .move

/-- The number that is kept of a sum. -/
def kept : RunKind → Int → Int
  | .additions, sum => Lexeme.wrapDelta sum
  | .moves, sum => sum

variable (kind : RunKind)

/-- The sum of a run, by the commands of each sort. -/
def net (text : List Char) : Int := (text.count kind.up : Int) - text.count kind.down

/-- What each command of a run counts. -/
def units (text : List Char) : List Int :=
  (commands text).map fun c => if c = kind.up then 1 else -1

/-- What becomes of a run with this sum. -/
def emitted (sum : Int) : List Op := if sum = 0 then [] else [kind.op (kind.kept sum)]

/-- The text `run` is a run between two other texts: no run reaches over either end of it, and it is
not the body of an idiom. -/
structure StandsBetween (passes : Passes) (front run back : List Char) : Prop where
  nonempty : commands run ≠ []
  only : ∀ c ∈ commands run, c = kind.up ∨ c = kind.down
  before : ∀ c, (commands front).getLast? = some c → ¬ Joins c kind.up
  after : ∀ c, (commands back).head? = some c → ¬ Joins kind.up c
  body : passes.foldIdioms = true → (commands front).getLast? = some '[' →
    (commands back).head? = some ']' → ∀ c ∈ ['-', '<', '>'], commands run ≠ [c]

end RunKind

namespace Lexeme

/-- The lexemes of a text that begins at a position. -/
def ofText (text : List Char) (position : Nat) : List Lexeme :=
  (text.zipIdx position).filterMap fun (c, i) => ofChar? c i

variable {text text' : List Char} {x : Lexeme} {i j : Nat}

theorem ofText_append (text text' : List Char) (i : Nat) :
    ofText (text ++ text') i = ofText text i ++ ofText text' (i + text.length) := by
  rw [ofText, List.zipIdx_append, List.filterMap_append]
  rfl

theorem length_ofText (text : List Char) (i : Nat) :
    (ofText text i).length = (commands text).length := by
  simpa [ofText] using congrArg List.length (unplaced_lexed text i)

theorem getLast?_commands (h : (ofText text i).getLast? = some x) :
    ∃ c ∈ commandChars, (commands text).getLast? = some c ∧ ofCommand c = x.unplaced := by
  have hlast : ((commands text).map ofCommand).getLast? = some x.unplaced := by
    rw [← unplaced_lexed text i, List.getLast?_map]
    exact congrArg (Option.map unplaced) h
  rw [List.getLast?_map] at hlast
  obtain ⟨c, hc, hx⟩ := Option.map_eq_some_iff.mp hlast
  exact ⟨c, mem_commandChars (List.mem_of_getLast? hc), hc, hx⟩

theorem head?_commands (h : (ofText text i).head? = some x) :
    ∃ c ∈ commandChars, (commands text).head? = some c ∧ ofCommand c = x.unplaced := by
  have hhead : ((commands text).map ofCommand).head? = some x.unplaced := by
    rw [← unplaced_lexed text i, List.head?_map]
    exact congrArg (Option.map unplaced) h
  rw [List.head?_map] at hhead
  obtain ⟨c, hc, hx⟩ := Option.map_eq_some_iff.mp hhead
  exact ⟨c, mem_commandChars (List.mem_of_head? hc), hc, hx⟩

theorem apart_ofText
    (h : ∀ c d, (commands text).getLast? = some c → (commands text').head? = some d → ¬ Joins c d) :
    Apart (ofText text i) (ofText text' j) := by
  intro o o' ho ho' hm
  obtain ⟨c, hmem, hc, hco⟩ := getLast?_commands ho
  obtain ⟨d, hmem', hd, hdo⟩ := head?_commands ho'
  exact h c d hc hd (Block.joins_of_merges ((ofCommand_eq_op_iff hmem).mp hco)
    ((ofCommand_eq_op_iff hmem').mp hdo) hm)

theorem bracket_of_ofCommand {c : Char} (hmem : c ∈ commandChars) (h : ∀ o, ofCommand c ≠ .op o) :
    c = '[' ∨ c = ']' := by
  by_cases hbracket : c = '[' ∨ c = ']'
  · exact hbracket
  · obtain ⟨hopen, hclose⟩ := not_or.mp hbracket
    rcases Brackets.ofChar?_cases hopen hclose 0 with hnone | ⟨o, ho⟩
    · exact absurd hmem (ofChar?_eq_none_iff.mp hnone)
    · exact absurd ((ofCommand_eq_op_iff hmem).mpr (ofChar?_eq_op_iff.mp ho)) (h o)

theorem eq_open_of_enter {c : Char} (hmem : c ∈ commandChars) (h : ofCommand c = .enter 0) :
    c = '[' := by
  rcases bracket_of_ofCommand hmem (by simp [h]) with rfl | rfl
  · rfl
  · cases h

theorem eq_close_of_leave {c : Char} (hmem : c ∈ commandChars) (h : ofCommand c = .leave 0) :
    c = ']' := by
  rcases bracket_of_ofCommand hmem (by simp [h]) with rfl | rfl
  · cases h
  · rfl

end Lexeme

namespace RunKind

variable {kind : RunKind} {text front run back : List Char} {ns : List Int} {c : Char}
  {passes : Passes}

theorem joins_down : Joins c kind.down ↔ Joins c kind.up := by
  cases kind <;> simp [Joins, up, down]

theorem down_joins : Joins kind.down c ↔ Joins kind.up c := by
  cases kind <;> simp [Joins, up, down]

theorem up_plain (kind : RunKind) : (kind.up, kind.op 1) ∈ plainCommands := by
  cases kind <;> decide

theorem down_plain (kind : RunKind) : (kind.down, kind.op (-1)) ∈ plainCommands := by
  cases kind <;> decide

theorem down_ne_up (kind : RunKind) : kind.down ≠ kind.up := by
  cases kind <;> decide

theorem ofText_run (h : ∀ c ∈ commands text, c = kind.up ∨ c = kind.down) (i : Nat) :
    Lexeme.ofText text i = ((kind.units text).map kind.op).map .op := by
  induction text generalizing i with
  | nil => rfl
  | cons c text ih =>
    rw [Lexeme.ofText, List.zipIdx_cons, List.filterMap_cons]
    by_cases hc : c ∈ commandChars
    · rw [commands_cons_of_mem hc] at h
      obtain ⟨hfirst, hrest⟩ := List.forall_mem_cons.mp h
      have hop : Lexeme.ofChar? c i = some (.op (kind.op (if c = kind.up then 1 else -1))) := by
        rw [Lexeme.ofChar?_eq_op_iff]
        rcases hfirst with rfl | rfl
        · rw [if_pos rfl]
          exact kind.up_plain
        · rw [if_neg kind.down_ne_up]
          exact kind.down_plain
      simp only [hop, units, commands_cons_of_mem hc, List.map_cons]
      exact congrArg (List.cons _) (ih hrest (i + 1))
    · rw [commands_cons_of_not_mem hc] at h
      simp only [Lexeme.ofChar?_eq_none_iff.mpr hc, units, commands_cons_of_not_mem hc]
      exact ih h (i + 1)

theorem sum_units (h : ∀ c ∈ commands text, c = kind.up ∨ c = kind.down) :
    (kind.units text).sum = kind.net text := by
  induction text with
  | nil => rfl
  | cons c text ih =>
    by_cases hc : c ∈ commandChars
    · rw [commands_cons_of_mem hc] at h
      obtain ⟨hfirst, hrest⟩ := List.forall_mem_cons.mp h
      have hsum := ih hrest
      rw [units, commands_cons_of_mem hc, List.map_cons, List.sum_cons, ← units, hsum]
      rcases hfirst with rfl | rfl
      · rw [if_pos rfl, net, net, List.count_cons_self, List.count_cons_of_ne kind.down_ne_up.symm]
        omega
      · rw [if_neg kind.down_ne_up, net, net, List.count_cons_self,
          List.count_cons_of_ne kind.down_ne_up]
        omega
    · rw [commands_cons_of_not_mem hc] at h
      have hup : c ≠ kind.up := by
        rintro rfl
        exact hc (Lexeme.ofCommand_of_plain kind.up_plain).1
      have hdown : c ≠ kind.down := by
        rintro rfl
        exact hc (Lexeme.ofCommand_of_plain kind.down_plain).1
      rw [units, commands_cons_of_not_mem hc, ← units, ih h, net, net,
        List.count_cons_of_ne hup, List.count_cons_of_ne hdown]

theorem gather_run (h : ns ≠ []) :
    Lexeme.gather ((ns.map kind.op).map .op) = [.op (kind.op ns.sum)] := by
  induction ns with
  | nil => exact absurd rfl h
  | cons n ns ih =>
    by_cases hns : ns = []
    · subst hns
      rw [List.sum_singleton]
      cases kind <;> rfl
    · show Lexeme.consCoalescing (.op (kind.op n)) (Lexeme.gather ((ns.map kind.op).map .op)) = _
      rw [ih hns, List.sum_cons]
      cases kind <;> rfl

theorem coalesce_run (h : ns ≠ []) :
    Lexeme.coalesce ((ns.map kind.op).map .op) = (kind.emitted ns.sum).map .op := by
  have hclose : Lexeme.coalesce ((ns.map kind.op).map .op) =
      Lexeme.closeRun [.op (kind.op ns.sum)] := congrArg Lexeme.closeRun (gather_run h)
  rw [hclose, emitted]
  by_cases hsum : ns.sum = 0
  · cases kind <;> simp [Lexeme.closeRun, op, hsum]
  · cases kind <;> simp [Lexeme.closeRun, op, kept, hsum]

namespace StandsBetween

variable (h : kind.StandsBetween passes front run back)

include h

theorem units_ne_nil : kind.units run ≠ [] := by
  simpa [units] using h.nonempty

theorem joins_run {c d : Char} (hd : d ∈ commands run) :
    (Joins c d ↔ Joins c kind.up) ∧ (Joins d c ↔ Joins kind.up c) := by
  rcases h.only d hd with rfl | rfl
  · exact ⟨Iff.rfl, Iff.rfl⟩
  · exact ⟨joins_down, down_joins⟩

theorem apart_before (i j : Nat) : Lexeme.Apart (Lexeme.ofText front i) (Lexeme.ofText run j) :=
  Lexeme.apart_ofText fun c _ hc hd hjoins =>
    h.before c hc ((h.joins_run (List.mem_of_head? hd)).1.mp hjoins)

theorem apart_after (i j : Nat) : Lexeme.Apart (Lexeme.ofText run i) (Lexeme.ofText back j) :=
  Lexeme.apart_ofText fun _ d hc hd hjoins =>
    h.after d hd ((h.joins_run (List.mem_of_getLast? hc)).2.mp hjoins)

theorem no_idiom (hfold : passes.foldIdioms = true) {p q i j : Nat} {o : Op}
    (hfront : (Lexeme.ofText front i).getLast? = some (.enter p))
    (hops : (kind.units run).map kind.op = [o])
    (hback : (Lexeme.ofText back j).head? = some (.leave q)) : o.loopIdiom? = none := by
  obtain ⟨c, hmem, hc, hco⟩ := Lexeme.getLast?_commands hfront
  obtain rfl := Lexeme.eq_open_of_enter hmem hco
  obtain ⟨d, hmem', hd, hdo⟩ := Lexeme.head?_commands hback
  obtain rfl := Lexeme.eq_close_of_leave hmem' hdo
  -- The loop has a body of one command, which would have to be one with an idiom.
  have hlexed : Lexeme.ofText run 0 = [.op o] := by rw [ofText_run h.only, hops, List.map_singleton]
  have hlength : (commands run).length = 1 := by rw [← Lexeme.length_ofText run 0, hlexed]; rfl
  obtain ⟨e, he⟩ := List.length_eq_one_iff.mp hlength
  obtain ⟨e', hmem'', he', heo⟩ := Lexeme.head?_commands (congrArg List.head? hlexed)
  obtain rfl : e = e' := by simpa [he] using he'
  cases hidiom : o.loopIdiom? with
  | none => rfl
  | some idiom =>
    have hsole := mem_of_loopIdiom? ((Lexeme.ofCommand_eq_op_iff hmem'').mp heo) hidiom
    exact (h.body hfold hc hd e hsole he).elim

end StandsBetween

section Compiled

variable {front run back : String} {program : Program}
  (h : kind.StandsBetween passes front.toList run.toList back.toList)

include h

theorem StandsBetween.lex_eq : ∃ position, lex (front ++ run ++ back) =
    lex front ++ (((kind.units run.toList).map kind.op).map .op ++
      Lexeme.ofText back.toList position) := by
  refine ⟨1 + front.toList.length + run.toList.length, ?_⟩
  have hlex : lex (front ++ run ++ back) =
      Lexeme.ofText (front.toList ++ (run.toList ++ back.toList)) 1 := by
    rw [← List.append_assoc, ← String.toList_append, ← String.toList_append]
    rfl
  rw [hlex, Lexeme.ofText_append, Lexeme.ofText_append, ofText_run h.only]
  rfl

theorem StandsBetween.holds_emitted (hcoalesce : passes.coalesce = true)
    (hcompile : compile passes (front ++ run ++ back) = .ok program) :
    program.Holds (passes.apply (lex front)).length
      ((kind.emitted (kind.net run.toList)).map .op) := by
  obtain ⟨position, hlex⟩ := h.lex_eq
  obtain ⟨b, hb, rfl⟩ := compile_eq_ok_iff.mp hcompile
  have hspells := passes.spells_apply (Block.ofLexemes_eq_ok_iff.mp hb)
  have hbefore : Lexeme.Apart (lex front) (Lexeme.ofText run.toList 1) := h.apart_before 1 1
  have hafter := h.apart_after 1 position
  rw [ofText_run h.only] at hbefore hafter
  rw [hlex, Passes.apply_stretch hcoalesce (by simpa using h.units_ne_nil) hbefore hafter
    fun hfold p q o hp ho hq => h.no_idiom hfold hp ho hq, coalesce_run h.units_ne_nil,
    sum_units h.only] at hspells
  exact hspells.holds

theorem StandsBetween.holds_units (hcompile : compile .none (front ++ run ++ back) = .ok program) :
    program.Holds (commands front.toList).length
      (((kind.units run.toList).map kind.op).map .op) := by
  obtain ⟨position, hlex⟩ := h.lex_eq
  obtain ⟨b, hb, rfl⟩ := compile_eq_ok_iff.mp hcompile
  have hspells := Block.ofLexemes_eq_ok_iff.mp hb
  rw [hlex] at hspells
  have hlength : (lex front).length = (commands front.toList).length :=
    Lexeme.length_ofText front.toList 1
  exact hlength ▸ hspells.holds

end Compiled

end RunKind

variable {w : CellWidth} {τ : Type} [Console τ] {bounds : BoundsPolicy}

namespace Scene

/-- What operations do to a scene, one after the other, up to the first that is not done. -/
def performAll (bounds : BoundsPolicy) : List Op → Scene w τ → Option (Result w τ)
  | [], s => some (.done s)
  | o :: ops, s =>
    match s.perform bounds o with
    | some (.done t) => t.performAll bounds ops
    | result => result

variable {s t : Scene w τ} {o : Op} {ops : List Op}

theorem perform_move_eq_done {n : Int} (h : s.perform bounds (.move n) = some (.done t)) :
    ∃ q, s.memory.tape.offset s.memory.pointer n bounds = .ok q ∧
      t = ⟨⟨s.memory.tape, q⟩, s.console⟩ := by
  cases hoffset : s.memory.tape.offset s.memory.pointer n bounds with
  | error fault =>
    rw [perform_move_error hoffset] at h
    cases h
  | ok q =>
    rw [perform_move_ok hoffset] at h
    cases h
    exact ⟨q, rfl, rfl⟩

theorem performAll_cons_of_done (h : s.perform bounds o = some (.done t)) (ops : List Op) :
    s.performAll bounds (o :: ops) = t.performAll bounds ops := by
  rw [performAll, h]

theorem performAll_cons_eq_done (h : s.performAll bounds (o :: ops) = some (.done t)) :
    ∃ s', s.perform bounds o = some (.done s') ∧ s'.performAll bounds ops = some (.done t) := by
  rw [performAll] at h
  split at h
  · next s' hs' => exact ⟨s', hs', h⟩
  · next hnot => exact (hnot t h).elim

theorem performAll_singleton (h : s.perform bounds o = some (.done t)) :
    s.performAll bounds [o] = some (.done t) :=
  performAll_cons_of_done h []

/-- The machine walks through operations exactly if all of them can be done. -/
theorem moves_iff_performAll {p : Program} {i : Nat} {m : Machine w} {c : τ}
    (h : p.Holds i (ops.map .op)) :
    Moves p ops.length ⟨s.memory, i, bounds⟩ s.console m c ↔
      ∃ t, s.performAll bounds ops = some (.done t) ∧ m = ⟨t.memory, i + ops.length, bounds⟩ ∧
        c = t.console := by
  induction ops generalizing s i with
  | nil =>
    constructor
    · rintro ⟨⟩
      exact ⟨s, rfl, rfl, rfl⟩
    · rintro ⟨t, ht, rfl, rfl⟩
      cases ht
      exact .refl _ _
  | cons o ops ih =>
    rw [List.length_cons, Nat.add_comm ops.length 1, ← Nat.add_assoc, Nat.add_comm 1 ops.length]
    constructor
    · rintro (_ | ⟨hturn, hmoves⟩)
      obtain ⟨s', hs', rfl, rfl⟩ := Machine.turn_op_moved h.head hturn
      rw [performAll_cons_of_done hs']
      exact (ih h.tail).mp hmoves
    · rintro ⟨t, ht, hm⟩
      obtain ⟨s', hs', ht'⟩ := performAll_cons_eq_done ht
      obtain ⟨event, hturn⟩ := Machine.turn_op_done h.head hs'
      exact .step hturn ((ih h.tail).mpr ⟨t, ht', hm⟩)

end Scene

namespace RunKind

variable {kind : RunKind} {s t : Scene w τ} {ns : List Int}

theorem performAll_adds {c : Cell w} (h : s.memory.current? = some c) (ns : List Int) :
    s.performAll bounds (ns.map .add) =
      some (.done ⟨s.memory.put (c.add ns.sum), s.console⟩) := by
  induction ns generalizing s c with
  | nil =>
    rw [List.sum_nil, Cell.add_zero, Memory.put_current h]
    rfl
  | cons n ns ih =>
    have hput := Memory.current_put (Memory.onTape_of_current h) (c.add n)
    rw [List.map_cons, Scene.performAll_cons_of_done (Scene.perform_add h n), ih hput,
      Memory.put_put, Cell.add_add, List.sum_cons]

theorem perform_move_sum (hs : s.memory.OnTape)
    (h : s.performAll bounds (ns.map .move) = some (.done t)) :
    s.perform bounds (.move ns.sum) = some (.done t) := by
  induction ns generalizing s with
  | nil =>
    cases h
    exact Scene.perform_move_ok (Tape.offset_zero hs)
  | cons n ns ih =>
    obtain ⟨s', hs', ht⟩ := Scene.performAll_cons_eq_done h
    have hnet := ih (Scene.perform_done hs hs').1 ht
    obtain ⟨q, hq, rfl⟩ := Scene.perform_move_eq_done hs'
    obtain ⟨q', hq', rfl⟩ := Scene.perform_move_eq_done hnet
    have hsum : s.memory.tape.offset s.memory.pointer (n + ns.sum) bounds = .ok q' :=
      (Tape.offset_offset hs.size_pos hq).symm.trans hq'
    rw [List.sum_cons]
    exact Scene.perform_move_ok hsum

/-- If the single commands get through, the operation with their sum leads to the same scene. -/
theorem performAll_emitted (hs : s.memory.OnTape)
    (h : s.performAll bounds (ns.map kind.op) = some (.done t)) :
    s.performAll bounds (kind.emitted ns.sum) = some (.done t) := by
  cases kind with
  | additions =>
    obtain ⟨c, hc⟩ := hs.current
    have hsum : s.performAll bounds (ns.map .add) = some (.done t) := h
    rw [performAll_adds hc] at hsum
    rw [← hsum, emitted]
    split
    · next hzero =>
      rw [hzero, Cell.add_zero, Memory.put_current hc]
      rfl
    · refine Scene.performAll_singleton ((Scene.perform_add hc _).trans ?_)
      rw [kept, Cell.add_wrapDelta]
  | moves =>
    have hsum := perform_move_sum hs h
    rw [emitted]
    split
    · next hzero =>
      rw [hzero, Scene.perform_move_ok (Tape.offset_zero hs)] at hsum
      exact hsum
    · exact Scene.performAll_singleton hsum

theorem exists_performAll (hs : s.memory.OnTape) (h : kind = .additions ∨ bounds = .wrap)
    (ns : List Int) : ∃ t, s.performAll bounds (ns.map kind.op) = some (.done t) := by
  induction ns generalizing s with
  | nil => exact ⟨s, rfl⟩
  | cons n ns ih =>
    have hfirst : ∃ s', s.perform bounds (kind.op n) = some (.done s') := by
      rcases h with rfl | rfl
      · obtain ⟨c, hc⟩ := hs.current
        exact ⟨_, Scene.perform_add hc n⟩
      · cases kind with
        | additions =>
          obtain ⟨c, hc⟩ := hs.current
          exact ⟨_, Scene.perform_add hc n⟩
        | moves => exact ⟨_, Scene.perform_move_ok rfl⟩
    obtain ⟨s', hs'⟩ := hfirst
    obtain ⟨t, ht⟩ := ih (Scene.perform_done hs hs').1
    exact ⟨t, (Scene.performAll_cons_of_done hs' _).trans ht⟩

end RunKind

namespace Language

/-- The statement that adds a number. -/
def additionText : Language → CellWidth → Int → String
  | .c, .thirtyTwo, n => "tape[p] = (cell)((uint32_t)tape[p] + " ++ decimal n ++ "u);"
  | .c, _, n => "tape[p] += " ++ decimal n ++ ";"
  | .rust, _, n => "tape[p] = tape[p].wrapping_add(" ++ decimal n ++ ");"
  | .python, _, n => "tape[p] = add(tape[p], " ++ decimal n ++ ")"

/-- A number that stands for a sum: its remainder for narrow cells, and for others a number with the
same remainder that has 32 bits. -/
structure StandsFor (width : CellWidth) (sum n : Int) : Prop where
  narrow : width ≠ .thirtyTwo → n = sum % width.modulus
  wide : width = .thirtyTwo → n % 4294967296 = sum % 4294967296 ∧
    -2147483648 ≤ n ∧ n < 4294967296

variable (lang : Language) (config : Config)

theorem statement_add (a : Int) : lang.statement config (.add a) =
    lang.additionText config.width (lang.shownDelta config.width a) := by
  obtain ⟨width, size, bounds⟩ := config
  have hunsigned : toString (unsignedDelta a width) = decimal (a % width.modulus) :=
    toString_toNat (Int.emod_nonneg a (by exact_mod_cast Nat.ne_of_gt width.modulus_pos))
  cases lang with
  | python => rfl
  | c =>
    cases width with
    | thirtyTwo => exact congrArg ("tape[p] = (cell)((uint32_t)tape[p] + " ++ · ++ "u);") hunsigned
    | eight | sixteen => exact congrArg ("tape[p] += " ++ · ++ ";") hunsigned
  | rust =>
    cases width with
    | thirtyTwo => rfl
    | eight | sixteen => exact congrArg ("tape[p] = tape[p].wrapping_add(" ++ · ++ ");") hunsigned

theorem standsFor_shownDelta {lang : Language} (h : lang ≠ .python) (width : CellWidth)
    (sum : Int) : StandsFor width sum (lang.shownDelta width (Lexeme.wrapDelta sum)) := by
  have hmod := Lexeme.wrapDelta_emod width sum
  cases width with
  | eight | sixteen =>
    refine ⟨fun _ => ?_, nofun⟩
    cases lang with
    | python => exact absurd rfl h
    | c | rust => exact hmod
  | thirtyTwo =>
    refine ⟨fun hwide => absurd rfl hwide, fun _ => ?_⟩
    cases lang with
    | python => exact absurd rfl h
    | c =>
      have hpos : (0 : Int) < 4294967296 := by decide
      have hnonneg := Int.emod_nonneg (Lexeme.wrapDelta sum) (Int.ne_of_gt hpos)
      refine ⟨(Int.emod_emod ..).trans hmod, ?_, Int.emod_lt_of_pos _ hpos⟩
      exact Int.le_trans (by decide) hnonneg
    | rust =>
      have hle : -2147483648 ≤ Lexeme.wrapDelta sum := Int.le_bmod (by decide)
      have hlt : Lexeme.wrapDelta sum < 2147483648 := Int.bmod_lt (by decide)
      exact ⟨hmod, hle, Int.lt_trans hlt (by decide)⟩

end Language

/-- Wherever `n` instructions of `p` from `i` on lead, `n'` instructions of `p'` from `i'` on lead
to the same memory and console. -/
def Program.Retraces (w : CellWidth) (τ : Type) [Console τ] (p : Program) (i n : Nat) (p' : Program)
    (i' n' : Nat) : Prop :=
  ∀ (bounds : BoundsPolicy) (s : Scene w τ) (m : Machine w) (c : τ), s.memory.OnTape →
    Moves p n ⟨s.memory, i, bounds⟩ s.console m c →
    Moves p' n' ⟨s.memory, i', bounds⟩ s.console ⟨m.memory, i' + n', bounds⟩ c

theorem RunKind.retraces_emitted {kind : RunKind} {ns : List Int} {p p' : Program} {i i' : Nat}
    (h : p.Holds i ((ns.map kind.op).map .op))
    (h' : p'.Holds i' ((kind.emitted ns.sum).map .op)) :
    Program.Retraces w τ p i ns.length p' i' (kind.emitted ns.sum).length := by
  intro bounds s m c hs hmoves
  rw [← List.length_map kind.op, Scene.moves_iff_performAll h] at hmoves
  obtain ⟨t, ht, rfl, rfl⟩ := hmoves
  exact (Scene.moves_iff_performAll h').mpr ⟨t, performAll_emitted hs ht, rfl, rfl⟩

/-- The line for a run of additions holds a number that stands for its sum. -/
theorem RunKind.linesAt_emitted {program : Program} {k : Nat} {sum : Int} (hsum : sum ≠ 0)
    (h : program.Holds k ((RunKind.additions.emitted sum).map .op)) {lang : Language}
    (hlang : lang ≠ .python) (config : Config) :
    ∃ n, Language.StandsFor config.width sum n ∧ Plan.linesAt lang.target config program k =
      [Line.render ⟨indentStep * (1 + program.loopsAround k),
        lang.additionText config.width n⟩] := by
  rw [emitted, if_neg hsum] at h
  have hget : program.get? k = some (.op (.add (Lexeme.wrapDelta sum))) := h.head
  refine ⟨_, Language.standsFor_shownDelta hlang config.width sum, ?_⟩
  rw [Plan.linesAt, hget]
  dsimp only
  rw [Language.fragmentLines_op, Language.statement_add]

/-- A run becomes one operation with its sum, or nothing. Its single commands, as they stand without
passes, lead nowhere else, and nothing can stop additions or moves that wrap. The number that is
written for a run of additions in emitted code stands for the sum. -/
theorem run_has_net_effect {kind : RunKind} {passes : Passes} {front run back : String}
    {program : Program} (hcoalesce : passes.coalesce = true)
    (hrun : kind.StandsBetween passes front.toList run.toList back.toList)
    (hcompile : compile passes (front ++ run ++ back) = .ok program) :
    program.Holds (passes.apply (lex front)).length
        ((kind.emitted (kind.net run.toList)).map .op) ∧
      (∃ plain, compile .none (front ++ run ++ back) = .ok plain ∧
        plain.Holds (commands front.toList).length
          (((kind.units run.toList).map kind.op).map .op) ∧
        plain.Retraces w τ (commands front.toList).length (commands run.toList).length program
          (passes.apply (lex front)).length (kind.emitted (kind.net run.toList)).length ∧
        ∀ (bounds : BoundsPolicy) (s : Scene w τ), s.memory.OnTape →
          kind = .additions ∨ bounds = .wrap →
          ∃ m c, Moves plain (commands run.toList).length
            ⟨s.memory, (commands front.toList).length, bounds⟩ s.console m c) ∧
      (kind = .additions → kind.net run.toList ≠ 0 → ∀ (lang : Language) (config : Config),
        lang ≠ .python → ∃ n, Language.StandsFor config.width (kind.net run.toList) n ∧
          Plan.linesAt lang.target config program (passes.apply (lex front)).length =
            [Line.render ⟨indentStep * (1 + program.loopsAround (passes.apply (lex front)).length),
              lang.additionText config.width n⟩]) := by
  obtain ⟨b, hb, -⟩ := compile_eq_ok_iff.mp hcompile
  have hplain : compile .none (front ++ run ++ back) = .ok (.ofBlock b) :=
    compile_eq_ok_iff.mpr ⟨b, hb, rfl⟩
  have hemitted := hrun.holds_emitted hcoalesce hcompile
  have hunits := hrun.holds_units hplain
  have hlength : (commands run.toList).length = (kind.units run.toList).length :=
    (List.length_map _).symm
  refine ⟨hemitted, ⟨_, hplain, hunits, ?_, fun bounds s hs hthrough => ?_⟩, ?_⟩
  · rw [hlength]
    rw [← RunKind.sum_units hrun.only] at hemitted ⊢
    exact RunKind.retraces_emitted hunits hemitted
  · obtain ⟨t, ht⟩ := RunKind.exists_performAll hs hthrough (kind.units run.toList)
    rw [hlength, ← List.length_map kind.op]
    exact ⟨_, _, (Scene.moves_iff_performAll hunits).mpr ⟨t, ht, rfl, rfl⟩⟩
  · rintro rfl hsum lang config hlang
    exact RunKind.linesAt_emitted hsum hemitted hlang config

/-! Runs of any length stand in a loop. -/

theorem commands_replicate (n : Nat) : commands (List.replicate n '+') = List.replicate n '+' :=
  List.filter_replicate_of_pos (by decide)

theorem RunKind.standsBetween_replicate {n : Nat} (h : n ≠ 0) (passes : Passes) :
    RunKind.additions.StandsBetween passes ['['] (List.replicate n '+') [']'] where
  nonempty := by simpa [commands_replicate] using h
  only := fun c hc => Or.inl (List.eq_of_mem_replicate (commands_replicate n ▸ hc))
  before := by
    rintro c ⟨⟩
    simp [Joins]
  after := by
    rintro c ⟨⟩
    simp [Joins, up]
  body := by
    intro _ _ _ c hc hrun
    have hplus : c ∈ List.replicate n '+' := by
      rw [← commands_replicate, hrun]
      exact List.mem_singleton_self c
    rw [List.eq_of_mem_replicate hplus] at hc
    exact absurd hc (by decide)

theorem compile_looped_replicate (passes : Passes) (n : Nat) : ∃ program,
    compile passes ("[" ++ String.ofList (List.replicate n '+') ++ "]") = .ok program := by
  have hinside : Brackets.Balanced (List.replicate n '+') := by
    induction n with
    | zero => exact .nil
    | succ n ih => exact .other (by decide) (by decide) ih
  have htext : ("[" ++ String.ofList (List.replicate n '+') ++ "]").toList =
      '[' :: (List.replicate n '+' ++ [']']) := by
    simp
  refine compile_succeeds_iff.mpr (Brackets.stackError_eq_none_iff.mpr ?_)
  rw [htext]
  exact .loop hinside .nil

theorem run_has_net_effect_beyond_widest :
    ∃ (run : String) (program plain : Program) (m : Machine .sixteen) (c : Buffered),
      RunKind.additions.StandsBetween .all "[".toList run.toList "]".toList ∧
      RunKind.additions.net run.toList = 4294967297 ∧
      compile .all ("[" ++ run ++ "]") = .ok program ∧ program.Holds 1 [.op (.add 1)] ∧
      compile .none ("[" ++ run ++ "]") = .ok plain ∧
      Moves plain 4294967297 ⟨.blank 1, 1, .fatal⟩ (Buffered.withInput "") m c ∧
      Moves program 1 ⟨.blank 1, 1, .fatal⟩ (Buffered.withInput "") ⟨m.memory, 2, .fatal⟩ c ∧
      Plan.linesAt Target.c { width := .sixteen } program 1 =
        [Line.render ⟨indentStep * (1 + program.loopsAround 1), "tape[p] += 1;"⟩] := by
  -- The length is given a name, so that the text is not written out.
  obtain ⟨n, hn⟩ : ∃ n : Nat, n = 4294967297 := ⟨_, rfl⟩
  have hlist : (String.ofList (List.replicate n '+')).toList = List.replicate n '+' :=
    String.toList_ofList
  have hrun : RunKind.additions.StandsBetween .all "[".toList
      (String.ofList (List.replicate n '+')).toList "]".toList := by
    rw [hlist]
    exact RunKind.standsBetween_replicate (by omega) .all
  have hnet : RunKind.additions.net (String.ofList (List.replicate n '+')).toList = 4294967297 := by
    have hup : (List.replicate n '+').count '+' = n := List.count_replicate_self
    have hdown : (List.replicate n '+').count '-' = 0 := by simp [List.count_replicate]
    rw [hlist]
    show ((List.replicate n '+').count '+' : Int) - ((List.replicate n '+').count '-' : Nat) = _
    omega
  have hlength : (commands (String.ofList (List.replicate n '+')).toList).length = 4294967297 := by
    rw [hlist, commands_replicate, List.length_replicate, hn]
  have hstart : (Passes.all.apply (lex "[")).length = 1 := by decide
  have hemitted : RunKind.additions.emitted 4294967297 = [.add 1] := by decide
  obtain ⟨program, hprogram⟩ := compile_looped_replicate .all n
  obtain ⟨hholds, ⟨plain, hplain, -, hretraces, hthrough⟩, hlines⟩ :=
    run_has_net_effect (w := .sixteen) (τ := Buffered) rfl hrun hprogram
  rw [hnet, hemitted, hstart] at hholds
  rw [hnet, hemitted, hstart, hlength] at hretraces
  rw [hnet, hstart] at hlines
  rw [hlength] at hthrough
  have hblank := Memory.blank_onTape (w := .sixteen) 1
  obtain ⟨m, c, hmoves⟩ := hthrough .fatal ⟨.blank 1, .withInput ""⟩ hblank (Or.inl rfl)
  obtain ⟨k, hk, hline⟩ := hlines rfl (by decide) .c { width := .sixteen } (by decide)
  obtain rfl : k = 1 := (hk.narrow (by decide)).trans (by decide)
  exact ⟨_, program, plain, m, c, hrun, hnet, hprogram, hholds, hplain, hmoves,
    hretraces .fatal ⟨.blank 1, .withInput ""⟩ m c hblank hmoves, hline⟩

end TapeLang
