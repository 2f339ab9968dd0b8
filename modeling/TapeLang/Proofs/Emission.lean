import TapeLang.Generation.Basic
import TapeLang.Proofs.Layout
import TapeLang.Proofs.Outline

/-! # What a generator writes

A generator that is not cancelled, and whose sink takes everything, writes the opening of its
target, the lines of all fragments at their depths, and the closing.
-/

namespace TapeLang

/-- What a task writes. -/
def Task.piece : Task → String
  | .write piece => piece
  | _ => ""

def Task.text (tasks : List Task) : String := String.join (tasks.map Task.piece)

namespace Task

theorem text_cons (task : Task) (tasks : List Task) :
    text (task :: tasks) = task.piece ++ text tasks := by
  simp [text, String.join_cons]

theorem text_append (tasks tasks' : List Task) :
    text (tasks ++ tasks') = text tasks ++ text tasks' := by
  induction tasks with
  | nil => simp [text]
  | cons task tasks ih => rw [List.cons_append, text_cons, text_cons, ih, String.append_assoc]

theorem text_reverse_cons (task : Task) (acc : List Task) :
    text (task :: acc).reverse = text acc.reverse ++ task.piece := by
  rw [List.reverse_cons, text_append]
  simp [text]

end Task

/-- A sink that takes everything. -/
structure Sink.Unbounded (sink : Sink) : Prop where
  capacity : sink.capacity = none
  flushFailure : sink.flushFailure = none
  breaksAt : sink.breaksAt = none

theorem Sink.Unbounded.write {sink : Sink} (h : sink.Unbounded) (piece : String) :
    ∃ sink', sink.write piece = (none, sink') ∧ sink'.Unbounded ∧
      sink'.bytes = sink.bytes ++ piece.toUTF8 := by
  obtain ⟨bytes, _, fullReason, _, _, watch, watched⟩ := sink
  obtain ⟨rfl, rfl, rfl⟩ := h
  by_cases hempty : piece.toUTF8.size = 0
  · refine ⟨_, if_pos hempty, ⟨rfl, rfl, rfl⟩, ?_⟩
    rw [ByteArray.size_eq_zero_iff.mp hempty, ByteArray.append_empty]
  · simp only [Sink.write, if_neg hempty, reached, fitting, Bool.false_eq_true, if_false,
      Nat.lt_irrefl, ByteArray.extract_zero_size]
    exact ⟨_, rfl, ⟨rfl, rfl, rfl⟩, rfl⟩

namespace Generation

theorem run_of_unbounded (tasks : List Task) {g : Generation} (h : g.sink.Unbounded) :
    ∃ g', g.run (fun _ => false) tasks = (.done, g') ∧
      g'.sink.bytes = g.sink.bytes ++ (Task.text tasks).toUTF8 := by
  induction tasks generalizing g with
  | nil => exact ⟨g, rfl, by simp [Task.text]⟩
  | cons task tasks ih =>
    rw [Task.text_cons]
    cases task with
    | write piece =>
      obtain ⟨sink', hwrite, hsink, hbytes⟩ := h.write piece
      obtain ⟨total, sink, reported, notes, shareAtWatch⟩ := g
      simp only [run, Generation.write, hwrite, Option.map_none]
      obtain ⟨g', hrun, hbytes'⟩ := ih (g := ⟨total, sink', reported, notes, _⟩) hsink
      refine ⟨g', hrun, ?_⟩
      rw [hbytes', hbytes]
      simp [Task.piece, ByteArray.append_assoc]
    | check done =>
      obtain ⟨g', hrun, hbytes⟩ := ih h
      exact ⟨g', hrun, by simpa [Task.piece] using hbytes⟩
    | report done =>
      obtain ⟨g', hrun, hbytes⟩ := ih (g := { g.addNote (.generated done g.total) with
        reported := fraction done g.total :: g.reported }) h
      exact ⟨g', hrun, by simpa [Task.piece, addNote] using hbytes⟩
    | flush =>
      obtain ⟨g', hrun, hbytes⟩ := ih h
      refine ⟨g', ?_, by simpa [Task.piece] using hbytes⟩
      simp only [run, Sink.flush, h.flushFailure, Option.map_none]
      exact hrun
    | complete =>
      obtain ⟨g', hrun, hbytes⟩ := ih (g := { g with reported := fraction 1 1 :: g.reported }) h
      exact ⟨g', hrun, by simpa [Task.piece] using hbytes⟩

end Generation

namespace Plan

variable (target : Target) (config : Config)

/-- The lines of an instruction's fragment at a depth. -/
def fragmentLines (i : Instruction) (depth : Nat) : List String :=
  ((textLines (target.fragment i config)).filter (· ≠ "")).map
    (repeatText target.indentation depth ++ ·)

/-- All lines of instructions, from a depth on. -/
def lines : List Instruction → Nat → List String
  | [], _ => []
  | i :: rest, depth =>
    fragmentLines target config i (i.depthAt depth) ++ lines rest (i.depthAfter (i.depthAt depth))

theorem linesOf_append (xs ys : List String) : linesOf (xs ++ ys) = linesOf xs ++ linesOf ys := by
  induction xs with
  | nil => simp [linesOf]
  | cons x xs ih =>
    simp only [linesOf, List.cons_append, List.map_cons, String.join_cons] at ih ⊢
    rw [ih, ← String.append_assoc]

theorem text_writeLines (margin : String) (texts : List String) (acc : List Task) :
    Task.text (writeLines margin texts acc).reverse =
      Task.text acc.reverse ++ linesOf ((texts.filter (· ≠ "")).map (margin ++ ·)) := by
  induction texts generalizing acc with
  | nil => simp [writeLines, linesOf]
  | cons t texts ih =>
    rw [writeLines, ih]
    by_cases ht : t = ""
    · simp [ht]
    · rw [if_neg ht, Task.text_reverse_cons, Task.text_reverse_cons, Task.text_reverse_cons]
      simp [ht, Task.piece, linesOf, String.append_assoc]

theorem text_body (code : List Instruction) (done depth : Nat) (acc : List Task) :
    Task.text (body target config code done depth acc).reverse =
      Task.text acc.reverse ++ linesOf (lines target config code depth) := by
  have hsilent {task : Task} {acc : List Task} {p : Prop} [Decidable p] (h : task.piece = "") :
      Task.text (if p then task :: acc else acc).reverse = Task.text acc.reverse := by
    split
    · rw [Task.text_reverse_cons, h, String.append_empty]
    · rfl
  induction code generalizing done depth acc with
  | nil => simp [body, lines, linesOf]
  | cons i rest ih =>
    rw [body, ih, hsilent rfl, text_writeLines, hsilent rfl, lines, linesOf_append,
      ← String.append_assoc]
    rfl

theorem text_tasks (program : Program) :
    Task.text (tasks target config program) = target.opening config ++
      linesOf (lines target config program.code.toList 1) ++ target.closing config := by
  rw [tasks, List.cons_append, Task.text_cons, Task.text_append, text_body]
  simp [Task.piece, Task.text, String.append_assoc]

end Plan

theorem generate_of_unbounded (target : Target) (config : Config) (program : Program) {sink : Sink}
    (h : sink.Unbounded) :
    ∃ g, generate target config program (fun _ => false) sink = (.done, g) ∧
      g.sink.bytes = sink.bytes ++ (target.opening config ++
        linesOf (Plan.lines target config program.code.toList 1) ++
        target.closing config).toUTF8 := by
  rw [← Plan.text_tasks]
  exact Generation.run_of_unbounded _ h

end TapeLang
