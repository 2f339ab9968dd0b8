import TapeLang.Compile

/-! # The layout of a block

The code of a block as a list, and where each part of a block stands in a program. The two ends of
every loop know each other.
-/

namespace TapeLang

namespace Program

variable {p : Program} {i : Nat} {x : Instruction} {xs ys : List Instruction}

/-- The instructions `xs` stand in `p` from `i` on. -/
def Holds (p : Program) (i : Nat) (xs : List Instruction) : Prop :=
  xs <+: p.code.toList.drop i

theorem Holds.left (h : p.Holds i (xs ++ ys)) : p.Holds i xs :=
  (List.prefix_append xs ys).trans h

theorem Holds.right (h : p.Holds i (xs ++ ys)) : p.Holds (i + xs.length) ys := by
  obtain ⟨rest, hr⟩ := h
  refine ⟨rest, ?_⟩
  rw [← List.drop_drop, ← hr, List.append_assoc, List.drop_left]

theorem Holds.head (h : p.Holds i (x :: xs)) : p.get? i = some x := by
  obtain ⟨rest, hr⟩ := h
  have hd : (p.code.toList.drop i)[0]? = some x := by rw [← hr]; rfl
  simpa [get?] using hd

theorem Holds.tail (h : p.Holds i (x :: xs)) : p.Holds (i + 1) xs :=
  Holds.right (show p.Holds i ([x] ++ xs) from h)

end Program

namespace Block

/-- The number of instructions of a block. -/
def size : Block → Nat
  | .nil => 0
  | .op _ rest => rest.size + 1
  | .loop body rest => body.size + rest.size + 2

theorem add_size_op (i : Nat) (o : Op) (rest : Block) :
    i + (op o rest).size = i + 1 + rest.size := by
  simp only [size]
  omega

theorem add_size_loop (i : Nat) (body rest : Block) :
    i + (loop body rest).size = i + 1 + body.size + 1 + rest.size := by
  simp only [size]
  omega

/-- The code of a block whose first instruction stands at `start`. -/
def code : Block → Nat → List Instruction
  | .nil, _ => []
  | .op o rest, start => .op o :: rest.code (start + 1)
  | .loop body rest, start =>
    .loopStart (start + 1 + body.size) :: body.code (start + 1) ++
      .loopEnd start :: rest.code (start + 1 + body.size + 1)

@[simp] theorem length_code (b : Block) (start : Nat) : (b.code start).length = b.size := by
  induction b generalizing start with
  | nil => rfl
  | op o rest ih => simp [code, size, ih]
  | loop body rest ihb ihr =>
    simp only [code, size, List.cons_append, List.length_cons, List.length_append, ihb, ihr]
    omega

theorem emit_toList (b : Block) (code : Array Instruction) :
    (b.emit code).toList = code.toList ++ b.code code.size := by
  induction b generalizing code with
  | nil => simp [emit, Block.code]
  | op o rest ih => simp [emit, Block.code, ih]
  | loop body rest ihb ihr =>
    have hinner := ihb (code.push (.loopStart unknownTarget))
    have hsize : (body.emit (code.push (.loopStart unknownTarget))).size =
        code.size + 1 + body.size := by
      rw [← Array.length_toList, hinner]
      simp only [Array.toList_push, Array.size_push, List.length_append, List.length_cons,
        List.length_nil, length_code, Array.length_toList]
    simp only [emit, ihr, Array.toList_push, Array.toList_setIfInBounds, hinner, hsize,
      Array.size_push, Array.size_setIfInBounds, Block.code]
    simp

/-- The code of `b` stands in `p` from `i` on. -/
def LaidAt (p : Program) : Block → Nat → Prop
  | .nil, _ => True
  | .op o rest, i => p.get? i = some (.op o) ∧ rest.LaidAt p (i + 1)
  | .loop body rest, i =>
    p.get? i = some (.loopStart (i + 1 + body.size)) ∧ body.LaidAt p (i + 1) ∧
      p.get? (i + 1 + body.size) = some (.loopEnd i) ∧ rest.LaidAt p (i + 1 + body.size + 1)

theorem laidAt_of_holds {p : Program} {b : Block} {i : Nat} (h : p.Holds i (b.code i)) :
    b.LaidAt p i := by
  induction b generalizing i with
  | nil => trivial
  | op o rest ih => exact ⟨h.head, ih h.tail⟩
  | loop body rest ihb ihr =>
    have hend := h.tail.right
    rw [length_code] at hend
    exact ⟨h.head, ihb h.tail.left, hend.head, ihr hend.tail⟩

theorem LaidAt.paired {p : Program} {b : Block} {i k : Nat} (h : b.LaidAt p i) (hi : i ≤ k)
    (hk : k < i + b.size) :
    (∀ stop, p.get? k = some (.loopStart stop) →
      k < stop ∧ stop < i + b.size ∧ p.get? stop = some (.loopEnd k)) ∧
    (∀ start, p.get? k = some (.loopEnd start) →
      start < k ∧ p.get? start = some (.loopStart k)) := by
  induction b generalizing i with
  | nil => simp [size] at hk; omega
  | op o rest ih =>
    obtain ⟨ho, hr⟩ := h
    rw [add_size_op] at hk ⊢
    rcases Nat.eq_or_lt_of_le hi with rfl | hlt
    · simp [ho]
    · exact ih hr hlt hk
  | loop body rest ihb ihr =>
    obtain ⟨hs, hb, he, hr⟩ := h
    rw [add_size_loop] at hk ⊢
    rcases Nat.eq_or_lt_of_le hi with rfl | hlt
    · simp only [hs, Option.some.injEq, Instruction.loopStart.injEq, reduceCtorEq, false_implies,
        implies_true, and_true]
      rintro _ rfl
      exact ⟨by omega, by omega, he⟩
    · rcases Nat.lt_trichotomy k (i + 1 + body.size) with hin | rfl | hout
      · obtain ⟨hstart, hend⟩ := ihb hb hlt hin
        refine ⟨fun stop h => ?_, hend⟩
        obtain ⟨hlt', hstop, hpair⟩ := hstart stop h
        exact ⟨hlt', by omega, hpair⟩
      · simp only [he, Option.some.injEq, Instruction.loopEnd.injEq, reduceCtorEq, false_implies,
          implies_true, true_and]
        rintro _ rfl
        exact ⟨by omega, hs⟩
      · exact ihr hr hout hk

end Block

namespace Program

variable {b : Block} {i : Nat}

theorem ofBlock_toList (b : Block) : (ofBlock b).code.toList = b.code 0 := by
  simpa [ofBlock] using b.emit_toList #[]

theorem ofBlock_size (b : Block) : (ofBlock b).size = b.size := by
  rw [size, ← Array.length_toList, ofBlock_toList, Block.length_code]

theorem ofBlock_laid (b : Block) : b.LaidAt (ofBlock b) 0 := by
  apply Block.laidAt_of_holds
  rw [Holds, ofBlock_toList]
  exact List.prefix_rfl

theorem get?_eq_none_iff {p : Program} : p.get? i = none ↔ p.size ≤ i := by
  simp [get?, size]

/-- Programs in which each end of a loop knows the other. -/
def Paired (p : Program) : Prop :=
  ∀ k, (∀ stop, p.get? k = some (.loopStart stop) → p.get? stop = some (.loopEnd k)) ∧
    (∀ start, p.get? k = some (.loopEnd start) → p.get? start = some (.loopStart k))

theorem ofBlock_ends (b : Block) (k : Nat) :
    (∀ stop, (ofBlock b).get? k = some (.loopStart stop) →
      k < stop ∧ stop < (ofBlock b).size ∧ (ofBlock b).get? stop = some (.loopEnd k)) ∧
    (∀ start, (ofBlock b).get? k = some (.loopEnd start) →
      start < k ∧ (ofBlock b).get? start = some (.loopStart k)) := by
  rcases Nat.lt_or_ge k (ofBlock b).size with hlt | hge
  · have hpaired := (ofBlock_laid b).paired (Nat.zero_le k)
    rw [Nat.zero_add, ← ofBlock_size] at hpaired
    exact hpaired hlt
  · have hnone : (ofBlock b).get? k = none := get?_eq_none_iff.mpr hge
    simp [hnone]

theorem ofBlock_paired (b : Block) : (ofBlock b).Paired :=
  fun k => ⟨fun stop h => ((ofBlock_ends b k).1 stop h).2.2,
    fun start h => ((ofBlock_ends b k).2 start h).2⟩

end Program

end TapeLang
