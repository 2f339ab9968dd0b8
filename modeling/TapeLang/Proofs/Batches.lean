import TapeLang.Proofs.Indentation

/-! # Batches

The plan for a compiled program, batch by batch: a look at the cancel signal, the lines of the
instructions, a report. The batches together hold the lines of all instructions, whatever their
number.
-/

namespace TapeLang

/-- The number of batches; the last one may be shorter than the others. -/
def Program.batches (p : Program) : Nat := (p.size + (batchSize - 1)) / batchSize

/-- The number of instructions in the first `k` batches. -/
def Program.doneAfter (p : Program) (k : Nat) : Nat := min (batchSize * k) p.size

namespace Plan

variable (target : Target) (config : Config)

/-- The lines of a fragment piece by piece. -/
def pieces (margin : String) (texts : List String) : List Task :=
  (texts.filter (· ≠ "")).flatMap fun line => [.write margin, .write line, .write "\n"]

theorem reverse_writeLines (margin : String) (texts : List String) (acc : List Task) :
    (writeLines margin texts acc).reverse = acc.reverse ++ pieces margin texts := by
  induction texts generalizing acc with
  | nil => simp [writeLines, pieces]
  | cons line texts ih =>
    rw [writeLines, ih]
    by_cases hline : line = ""
    · simp [hline, pieces]
    · simp [hline, pieces]

/-- The pieces of the lines of instruction `k`. -/
def piecesAt (p : Program) (k : Nat) : List Task :=
  match p.get? k with
  | some i =>
    pieces (repeatText target.indentation (1 + p.loopsAround k))
      (textLines (target.fragment i config))
  | none => []

theorem text_piecesAt (p : Program) (k : Nat) :
    Task.text (piecesAt target config p k) = linesOf (linesAt target config p k) := by
  unfold piecesAt linesAt
  cases p.get? k with
  | none => rfl
  | some i =>
    have hreverse := reverse_writeLines (repeatText target.indentation (1 + p.loopsAround k))
      (textLines (target.fragment i config)) []
    have htext := text_writeLines (repeatText target.indentation (1 + p.loopsAround k))
      (textLines (target.fragment i config)) []
    rw [hreverse] at htext
    simpa [Task.text, fragmentLines] using htext

theorem reverse_body (code : List Instruction) (done depth : Nat) (acc : List Task) :
    (body target config code done depth acc).reverse =
      acc.reverse ++ (body target config code done depth []).reverse := by
  induction code generalizing done depth acc with
  | nil => simp [body]
  | cons i rest ih =>
    rw [body, ih]
    conv => rhs; rw [body, ih]
    split <;> split <;> simp [reverse_writeLines]

/-- The tasks for the instructions from number `k` on. -/
def tasksFrom (p : Program) (k : Nat) : List Task :=
  (body target config (p.code.toList.drop k) k (p.depthBefore 1 k) []).reverse

/-- Asked before the first instruction of a batch. -/
def checkAt (k : Nat) : List Task := if k % batchSize = 0 then [.check k] else []

/-- Reported behind the last instruction of a batch. -/
def reportAt (p : Program) (k : Nat) : List Task :=
  if k % batchSize = 0 ∨ k = p.size then [.report k] else []

variable {p : Program} {b : Block} {k n : Nat}

theorem tasksFrom_of_size_le (h : p.size ≤ k) : tasksFrom target config p k = [] := by
  have hdrop : p.code.toList.drop k = [] := List.drop_eq_nil_of_le (by simpa [Program.size] using h)
  rw [tasksFrom, hdrop]
  rfl

theorem tasksFrom_of_lt (h : k < (Program.ofBlock b).size) :
    tasksFrom target config (.ofBlock b) k =
      checkAt k ++ piecesAt target config (.ofBlock b) k ++ reportAt (.ofBlock b) (k + 1) ++
        tasksFrom target config (.ofBlock b) (k + 1) := by
  obtain ⟨i, hi⟩ : ∃ i, (Program.ofBlock b).get? k = some i :=
    Option.ne_none_iff_exists'.mp fun hnone => Nat.not_lt.mpr (Program.get?_eq_none_iff.mp hnone) h
  have hdrop : (Program.ofBlock b).code.toList.drop k =
      i :: (Program.ofBlock b).code.toList.drop (k + 1) := by
    obtain ⟨hlt, hget⟩ := List.getElem?_eq_some_iff.mp
      (show (Program.ofBlock b).code.toList[k]? = some i by simpa [Program.get?] using hi)
    rw [List.drop_eq_getElem_cons hlt, hget]
  have hlast : (Program.ofBlock b).code.toList.drop (k + 1) = [] ↔
      k + 1 = (Program.ofBlock b).size := by
    rw [List.drop_eq_nil_iff, Array.length_toList, ← Program.size]
    omega
  rw [tasksFrom, hdrop, body, reverse_body, tasksFrom, Program.depthBefore_succ hi,
    Program.depthAt_depthBefore hi]
  simp only [checkAt, reportAt, piecesAt, hi, hlast]
  split <;> split <;> simp [reverse_writeLines]

/-- Batch `k`. -/
def batch (p : Program) (k : Nat) : List Task :=
  .check (batchSize * k) ::
    (List.range' (batchSize * k) (p.doneAfter (k + 1) - batchSize * k)).flatMap
      (piecesAt target config p) ++ [.report (p.doneAfter (k + 1))]

/-- From an instruction of batch `k` on: what is left of the batch, with a look at the cancel signal
only before its first instruction, and a report at its end. -/
theorem tasksFrom_of_doneAfter {j : Nat} (hj : batchSize * k ≤ j)
    (hend : (Program.ofBlock b).doneAfter (k + 1) = j + n + 1) :
    tasksFrom target config (.ofBlock b) j =
      checkAt j ++ (List.range' j (n + 1)).flatMap (piecesAt target config (.ofBlock b)) ++
        [.report (j + n + 1)] ++ tasksFrom target config (.ofBlock b) (j + n + 1) := by
  simp only [Program.doneAfter, batchSize] at hj hend
  induction n generalizing j with
  | zero =>
    have hreport : reportAt (.ofBlock b) (j + 1) = [.report (j + 1)] :=
      if_pos (by rw [batchSize]; omega)
    rw [tasksFrom_of_lt target config (by omega), hreport]
    simp
  | succ n ih =>
    -- The next instruction is neither the first nor behind the last one of the batch.
    have hreport : reportAt (.ofBlock b) (j + 1) = [] := if_neg (by rw [batchSize]; omega)
    have hcheck : checkAt (j + 1) = [] := if_neg (by rw [batchSize]; omega)
    have hnext : j + 1 + n + 1 = j + (n + 1) + 1 := by omega
    rw [tasksFrom_of_lt target config (by omega), hreport, ih (by omega) (by omega), hcheck, hnext,
      List.range'_succ (s := j), List.flatMap_cons]
    simp

theorem lt_batches_iff : k < p.batches ↔ batchSize * k < p.size := by
  rw [Program.batches, batchSize]
  omega

theorem tasksFrom_batch (h : k < (Program.ofBlock b).batches) :
    tasksFrom target config (.ofBlock b) (batchSize * k) =
      batch target config (.ofBlock b) k ++
        tasksFrom target config (.ofBlock b) (batchSize * (k + 1)) := by
  have hlt := lt_batches_iff.mp h
  obtain ⟨n, hn⟩ : ∃ n, (Program.ofBlock b).doneAfter (k + 1) = batchSize * k + n + 1 := by
    refine ⟨(Program.ofBlock b).doneAfter (k + 1) - batchSize * k - 1, ?_⟩
    simp only [Program.doneAfter, batchSize] at hlt ⊢
    omega
  have hrest : tasksFrom target config (.ofBlock b) (batchSize * k + n + 1) =
      tasksFrom target config (.ofBlock b) (batchSize * (k + 1)) := by
    rw [← hn, Program.doneAfter]
    by_cases hsize : batchSize * (k + 1) ≤ (Program.ofBlock b).size
    · rw [Nat.min_eq_left hsize]
    · have hle := Nat.le_of_not_le hsize
      rw [Nat.min_eq_right hle, tasksFrom_of_size_le target config (Nat.le_refl _),
        tasksFrom_of_size_le target config hle]
  have hcheck : checkAt (batchSize * k) = [.check (batchSize * k)] :=
    if_pos (Nat.mul_mod_right _ _)
  have hlength : (Program.ofBlock b).doneAfter (k + 1) - batchSize * k = n + 1 := by omega
  rw [tasksFrom_of_doneAfter target config (Nat.le_refl _) hn, hcheck, hrest, batch, hlength, hn]
  simp

/-- The opening and the first `k` batches. -/
def tasksUpTo (p : Program) (k : Nat) : List Task :=
  .write (target.opening config) :: (List.range k).flatMap (batch target config p)

theorem tasksUpTo_succ (p : Program) (k : Nat) :
    tasksUpTo target config p (k + 1) =
      tasksUpTo target config p k ++ batch target config p k := by
  simp [tasksUpTo, List.range_succ, List.flatMap_append]

theorem tasks_eq_append (h : k ≤ (Program.ofBlock b).batches) :
    tasks target config (.ofBlock b) =
      tasksUpTo target config (.ofBlock b) k ++
        (tasksFrom target config (.ofBlock b) (batchSize * k) ++
          [.write (target.closing config), .flush, .complete]) := by
  induction k with
  | zero => rfl
  | succ k ih =>
    rw [ih (Nat.le_of_succ_le h), tasksFrom_batch target config h, tasksUpTo_succ]
    simp

/-- The text that is written before batch `k`. -/
def textBefore (p : Program) (k : Nat) : String :=
  target.opening config ++ linesOf (firstLines target config p (p.doneAfter k))

/-- The text of a whole program. -/
def fullText (p : Program) : String :=
  target.opening config ++ linesOf (firstLines target config p p.size) ++ target.closing config

theorem firstLines_add (p : Program) (m n : Nat) :
    firstLines target config p (m + n) =
      firstLines target config p m ++ (List.range' m n).flatMap (linesAt target config p) := by
  rw [firstLines, firstLines, List.range_eq_range', List.range_eq_range', ← List.flatMap_append,
    ← List.range'_append_1, Nat.zero_add]

theorem text_flatMap_piecesAt (p : Program) (ks : List Nat) :
    Task.text (ks.flatMap (piecesAt target config p)) =
      linesOf (ks.flatMap (linesAt target config p)) := by
  induction ks with
  | nil => rfl
  | cons k ks ih =>
    rw [List.flatMap_cons, List.flatMap_cons, Task.text_append, linesOf_append, text_piecesAt, ih]

theorem text_batch (h : k < p.batches) :
    textBefore target config p k ++ Task.text (batch target config p k) =
      textBefore target config p (k + 1) := by
  have hdone : p.doneAfter k = batchSize * k := Nat.min_eq_left (Nat.le_of_lt (lt_batches_iff.mp h))
  have hnext : p.doneAfter (k + 1) =
      batchSize * k + (p.doneAfter (k + 1) - batchSize * k) := by
    have hlt := lt_batches_iff.mp h
    simp only [Program.doneAfter, batchSize] at hlt ⊢
    omega
  have htext : Task.text (batch target config p k) =
      linesOf ((List.range' (batchSize * k) (p.doneAfter (k + 1) - batchSize * k)).flatMap
        (linesAt target config p)) := by
    rw [batch, List.cons_append, Task.text_cons, Task.text_append, text_flatMap_piecesAt]
    simp [Task.piece, Task.text]
  rw [htext, textBefore, textBefore, hdone, String.append_assoc, ← linesOf_append,
    ← firstLines_add, ← hnext]

theorem text_tasksUpTo (h : k ≤ p.batches) :
    Task.text (tasksUpTo target config p k) = textBefore target config p k := by
  induction k with
  | zero =>
    simp [tasksUpTo, textBefore, firstLines, Program.doneAfter, Task.text, Task.piece, linesOf]
  | succ k ih =>
    rw [tasksUpTo_succ, Task.text_append, ih (Nat.le_of_succ_le h), text_batch target config h]

theorem doneAfter_batches (p : Program) : p.doneAfter p.batches = p.size := by
  rw [Program.doneAfter, Program.batches, batchSize]
  omega

theorem textBefore_batches (p : Program) :
    textBefore target config p p.batches ++ target.closing config = fullText target config p := by
  rw [textBefore, doneAfter_batches, fullText]

theorem tasks_eq (b : Block) :
    tasks target config (.ofBlock b) =
      tasksUpTo target config (.ofBlock b) (Program.ofBlock b).batches ++
        [.write (target.closing config), .flush, .complete] := by
  have hend : (Program.ofBlock b).size ≤ batchSize * (Program.ofBlock b).batches := by
    rw [Program.batches, batchSize]
    omega
  rw [tasks_eq_append target config (Nat.le_refl _), tasksFrom_of_size_le target config hend,
    List.nil_append]

theorem text_tasks_ofBlock (b : Block) :
    Task.text (tasks target config (.ofBlock b)) = fullText target config (.ofBlock b) := by
  rw [tasks_eq, Task.text_append, text_tasksUpTo target config (Nat.le_refl _),
    ← textBefore_batches]
  simp [Task.text, Task.piece]

end Plan

end TapeLang
