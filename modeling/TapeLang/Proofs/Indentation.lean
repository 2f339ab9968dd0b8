import TapeLang.Proofs.Emission

/-! # Indentation

How far a line is indented, said of the program as a whole: by the loops that are open around its
instruction. A counter that goes up behind the start of a loop and down at its end always shows this
number, and never goes below the number it started from.
-/

namespace TapeLang

theorem countP_eq_add {α : Type} {l : List α} {p q r : α → Bool}
    (h : ∀ a ∈ l, (p a = true ↔ q a = true ∨ r a = true) ∧ ¬ (q a = true ∧ r a = true)) :
    l.countP p = l.countP q + l.countP r := by
  induction l with
  | nil => rfl
  | cons a l ih =>
    obtain ⟨⟨hor, hand⟩, hl⟩ := List.forall_mem_cons.mp h
    rw [List.countP_cons, List.countP_cons, List.countP_cons, ih hl]
    cases hq : q a <;> cases hr : r a <;> simp_all <;> omega

namespace Program

/-- A loop begins at `i` and ends behind `k`. -/
def spans (p : Program) (k i : Nat) : Bool :=
  match p.get? i with
  | some (.loopStart stop) => k < stop
  | _ => false

/-- The number of loops open around instruction `k`. The ends of a loop lie outside of it. -/
def loopsAround (p : Program) (k : Nat) : Nat := (List.range k).countP (p.spans k)

/-- What a counter of open loops that begins with `start` shows before instruction `k`. -/
def depthBefore (p : Program) (start k : Nat) : Nat :=
  (p.code.toList.take k).foldl (fun depth i => i.depthAfter (i.depthAt depth)) start

variable {p : Program} {b : Block} {i : Instruction} {start k j : Nat}

theorem depthBefore_succ (h : p.get? k = some i) (start : Nat) :
    p.depthBefore start (k + 1) = i.depthAfter (i.depthAt (p.depthBefore start k)) := by
  have hi : p.code.toList[k]? = some i := by simpa [get?] using h
  rw [depthBefore, List.take_add_one, hi, List.foldl_append]
  rfl

theorem exists_get?_of_succ (h : p.get? (k + 1) = some i) : ∃ i', p.get? k = some i' := by
  refine Option.ne_none_iff_exists'.mp fun hnone => ?_
  have hsize := get?_eq_none_iff.mp hnone
  rw [get?_eq_none_iff.mpr (Nat.le_succ_of_le hsize)] at h
  cases h

theorem spans_iff : p.spans k j = true ↔ ∃ stop, p.get? j = some (.loopStart stop) ∧ k < stop := by
  unfold spans
  split
  · next stop hj => simp [hj]
  · next hnot =>
    constructor
    · rintro ⟨⟩
    · rintro ⟨stop, hj, -⟩
      exact (hnot stop hj).elim

theorem spans_succ_iff (p : Program) (k j : Nat) :
    (p.spans k j = true ↔ p.spans (k + 1) j = true ∨ p.get? j = some (.loopStart (k + 1))) ∧
      ¬ (p.spans (k + 1) j = true ∧ p.get? j = some (.loopStart (k + 1))) := by
  rw [spans_iff, spans_iff]
  refine ⟨⟨?_, ?_⟩, ?_⟩
  · rintro ⟨stop, hj, hlt⟩
    rcases Nat.eq_or_lt_of_le hlt with rfl | hlt'
    · exact Or.inr hj
    · exact Or.inl ⟨stop, hj, hlt'⟩
  · rintro (⟨stop, hj, hlt⟩ | hj)
    · exact ⟨stop, hj, Nat.lt_of_succ_lt hlt⟩
    · exact ⟨k + 1, hj, Nat.lt_succ_self k⟩
  · rintro ⟨⟨stop, hj, hlt⟩, hj'⟩
    obtain rfl : stop = k + 1 := by simpa [hj] using hj'
    exact Nat.lt_irrefl _ hlt

theorem countP_spans_succ (p : Program) (k : Nat) (l : List Nat) :
    l.countP (p.spans k) = l.countP (p.spans (k + 1)) +
      l.countP (fun j => decide (p.get? j = some (.loopStart (k + 1)))) := by
  refine countP_eq_add fun j _ => ?_
  simpa only [decide_eq_true_eq] using p.spans_succ_iff k j

theorem countP_loopStart (h : (ofBlock b).get? k = some i) :
    (List.range k).countP (fun j => decide ((ofBlock b).get? j = some (.loopStart k))) =
      match i with
      | .loopEnd _ => 1
      | _ => 0 := by
  have hnone (hi : ∀ j, i ≠ .loopEnd j) :
      (List.range k).countP (fun j => decide ((ofBlock b).get? j = some (.loopStart k))) = 0 := by
    refine List.countP_eq_zero.mpr fun j _ hj => ?_
    have hpartner := ((ofBlock_ends b j).1 k (of_decide_eq_true hj)).2.2
    rw [h] at hpartner
    exact hi j (Option.some.inj hpartner)
  cases i with
  | op o => exact hnone fun j => Instruction.noConfusion
  | loopStart stop => exact hnone fun j => Instruction.noConfusion
  | loopEnd start =>
    obtain ⟨hlt, hstart⟩ := (ofBlock_ends b k).2 start h
    calc (List.range k).countP (fun j => decide ((ofBlock b).get? j = some (.loopStart k)))
        = (List.range k).countP (· == start) := by
          refine List.countP_congr fun j _ => ?_
          rw [decide_eq_true_eq, beq_iff_eq]
          constructor
          · intro hj
            have hpartner := ((ofBlock_ends b j).1 k hj).2.2
            simpa [h, eq_comm] using hpartner
          · rintro rfl
            exact hstart
      _ = 1 := by rw [← List.count_eq_countP, List.count_range, if_pos hlt]

theorem depthAfter_loopsAround (h : (ofBlock b).get? k = some i) (start : Nat) :
    i.depthAfter (start + (ofBlock b).loopsAround k) =
      start + (List.range (k + 1)).countP ((ofBlock b).spans k) := by
  rw [List.range_succ, List.countP_append, List.countP_singleton, ← loopsAround]
  cases i with
  | loopStart stop =>
    have hlt := ((ofBlock_ends b k).1 stop h).1
    rw [if_pos (spans_iff.mpr ⟨stop, h, hlt⟩)]
    rfl
  | op o => simp [spans, h, Instruction.depthAfter]
  | loopEnd start => simp [spans, h, Instruction.depthAfter]

/-- The counter shows the loops around each instruction, and one more at the end of a loop. -/
theorem depthBefore_eq (h : (ofBlock b).get? k = some i) (start : Nat) :
    (ofBlock b).depthBefore start k =
      start + (ofBlock b).loopsAround k + match i with
      | .loopEnd _ => 1
      | _ => 0 := by
  induction k generalizing i with
  | zero =>
    cases i with
    | loopEnd j => exact absurd ((ofBlock_ends b 0).2 j h).1 (Nat.not_lt_zero j)
    | _ => rfl
  | succ k ih =>
    obtain ⟨i', hi'⟩ := exists_get?_of_succ h
    have hshown : i'.depthAt ((ofBlock b).depthBefore start k) =
        start + (ofBlock b).loopsAround k := by
      rw [ih hi']
      cases i' <;> rfl
    rw [depthBefore_succ hi', hshown, depthAfter_loopsAround hi', countP_spans_succ,
      countP_loopStart h, ← loopsAround, Nat.add_assoc]

theorem depthAt_depthBefore (h : (ofBlock b).get? k = some i) (start : Nat) :
    i.depthAt ((ofBlock b).depthBefore start k) = start + (ofBlock b).loopsAround k := by
  rw [depthBefore_eq h]
  cases i <;> rfl

end Program

namespace Plan

variable (target : Target) (config : Config)

/-- The lines of instruction `k`, indented once and once more for each loop open around it. -/
def linesAt (p : Program) (k : Nat) : List String :=
  match p.get? k with
  | some i => fragmentLines target config i (1 + p.loopsAround k)
  | none => []

/-- The lines of the first `n` instructions. -/
def firstLines (p : Program) (n : Nat) : List String :=
  (List.range n).flatMap (linesAt target config p)

end Plan

end TapeLang
