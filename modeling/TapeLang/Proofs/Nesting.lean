import TapeLang.Proofs.Layout
import TapeLang.Proofs.Rewriting

/-! # Nested loops

In a compiled program the two ends of every loop know each other, every target lies inside the
program, and of two loops either one encloses the other or they lie apart.
-/

namespace TapeLang

namespace Lexeme

theorem length_consFolding (x : Lexeme) (xs : List Lexeme) :
    (consFolding x xs).length ≤ xs.length + 1 := by
  unfold consFolding
  split
  · split
    · simp only [List.length_cons]
      omega
    · simp
  · simp

theorem length_closeRun (xs : List Lexeme) : (closeRun xs).length ≤ xs.length := by
  unfold closeRun
  split
  · split <;> simp
  · split <;> simp
  · exact Nat.le_refl _

theorem length_consCoalescing (x : Lexeme) (xs : List Lexeme) :
    (consCoalescing x xs).length ≤ xs.length + 1 := by
  unfold consCoalescing
  split
  · simp
  · simp
  · simp
  · simpa using length_closeRun xs

theorem length_foldr {f : Lexeme → List Lexeme → List Lexeme}
    (hf : ∀ x xs, (f x xs).length ≤ xs.length + 1) (xs : List Lexeme) :
    (xs.foldr f []).length ≤ xs.length := by
  induction xs with
  | nil => exact Nat.le_refl _
  | cons x xs ih => exact Nat.le_trans (hf x _) (Nat.succ_le_succ ih)

end Lexeme

theorem Passes.length_apply (passes : Passes) (xs : List Lexeme) :
    (passes.apply xs).length ≤ xs.length := by
  have hf : (if passes.foldIdioms then Lexeme.foldIdioms xs else xs).length ≤ xs.length := by
    split
    · exact Lexeme.length_foldr Lexeme.length_consFolding xs
    · exact Nat.le_refl _
  rcases passes with ⟨_, _ | _⟩
  · exact hf
  · exact Nat.le_trans (Lexeme.length_closeRun _)
      (Nat.le_trans (Lexeme.length_foldr Lexeme.length_consCoalescing _) hf)

theorem length_lex (source : String) : (lex source).length ≤ source.length := by
  calc (lex source).length ≤ (source.toList.zipIdx 1).length := List.length_filterMap_le _ _
    _ = source.length := by rw [List.length_zipIdx, String.length_toList]

theorem Block.Spells.size_eq {xs : List Lexeme} {b : Block} (h : Spells xs b) :
    b.size = xs.length := by
  induction h with
  | nil => rfl
  | op o _ ih => simp [size, ih]
  | loop p q _ _ ihb ihr =>
    simp only [size, List.length_cons, List.length_append, ihb, ihr]
    omega

variable {passes : Passes} {source : String} {p : Program}

theorem size_le_of_compile (h : compile passes source = .ok p) : p.size ≤ source.length := by
  obtain ⟨b, hb, rfl⟩ := compile_eq_ok_iff.mp h
  have hs : Block.Spells (passes.apply (lex source)) (passes.rewrite b) :=
    Passes.spells_apply (Block.ofLexemes_eq_ok_iff.mp hb)
  rw [Program.ofBlock_size, hs.size_eq]
  exact Nat.le_trans (passes.length_apply _) (length_lex source)

namespace Block

/-- Of two loops in the code of a block, the one that begins first ends before the other begins or
after the other ends. -/
theorem LaidAt.nested {b : Block} {i k k' stop stop' : Nat} (h : b.LaidAt p i) (hi : i ≤ k)
    (hlt : k < k') (hk' : k' < i + b.size) (hs : p.get? k = some (.loopStart stop))
    (hs' : p.get? k' = some (.loopStart stop')) : stop < k' ∨ stop' < stop := by
  induction b generalizing i with
  | nil => simp [size] at hk'; omega
  | op o rest ih =>
    obtain ⟨ho, hr⟩ := h
    rw [add_size_op] at hk'
    rcases Nat.eq_or_lt_of_le hi with rfl | hik
    · simp [ho] at hs
    · exact ih hr hik hk'
  | loop body rest ihb ihr =>
    obtain ⟨hstart, hb, hend, hr⟩ := h
    rw [add_size_loop] at hk'
    -- The second loop begins in the body or in the rest, for the end of this loop begins none.
    have hsecond : k' < i + 1 + body.size ∨ i + 1 + body.size < k' := by
      rcases Nat.lt_trichotomy k' (i + 1 + body.size) with hin | rfl | hout
      · exact Or.inl hin
      · simp [hend] at hs'
      · exact Or.inr hout
    rcases Nat.eq_or_lt_of_le hi with rfl | hik
    · obtain rfl : i + 1 + body.size = stop := by simpa [hstart] using hs
      rcases hsecond with hin | hout
      · exact Or.inr ((hb.paired hlt hin).1 stop' hs').2.1
      · exact Or.inl hout
    · rcases Nat.lt_or_ge k (i + 1 + body.size) with hbody | hrest
      · rcases hsecond with hin | hout
        · exact ihb hb hik hin
        · have hstop := ((hb.paired hik hbody).1 stop hs).2.1
          exact Or.inl (Nat.lt_trans hstop hout)
      · have hne : i + 1 + body.size ≠ k := by
          rintro rfl
          simp [hend] at hs
        exact ihr hr (by omega) hk'

end Block

/-- Loops of a compiled program are paired and properly nested, and no target is left open. -/
theorem compiled_loops_nested (h : compile passes source = .ok p) :
    (∀ i stop, p.get? i = some (.loopStart stop) →
      i < stop ∧ stop < p.size ∧ p.get? stop = some (.loopEnd i)) ∧
    (∀ i start, p.get? i = some (.loopEnd start) →
      start < i ∧ p.get? start = some (.loopStart i)) ∧
    (source.length ≤ Block.unknownTarget → ∀ i, p.get? i ≠ some (.loopStart Block.unknownTarget) ∧
      p.get? i ≠ some (.loopEnd Block.unknownTarget)) ∧
    (∀ i stop i' stop', p.get? i = some (.loopStart stop) → p.get? i' = some (.loopStart stop') →
      i ≠ i' → stop < i' ∨ stop' < i ∨ (i < i' ∧ stop' < stop) ∨ (i' < i ∧ stop < stop')) := by
  have hsize := size_le_of_compile h
  obtain ⟨b, -, rfl⟩ := compile_eq_ok_iff.mp h
  generalize passes.rewrite b = b at *
  have hends := Program.ofBlock_ends b
  have hnested {i stop i' stop' : Nat} (hlt : i < i')
      (hs : (Program.ofBlock b).get? i = some (.loopStart stop))
      (hs' : (Program.ofBlock b).get? i' = some (.loopStart stop')) : stop < i' ∨ stop' < stop := by
    have hstop' := (hends i').1 stop' hs'
    rw [Program.ofBlock_size] at hstop'
    exact (Program.ofBlock_laid b).nested (Nat.zero_le i) hlt (by omega) hs hs'
  refine ⟨fun i => (hends i).1, fun i => (hends i).2, fun hsource i => ⟨fun hs => ?_, fun he => ?_⟩,
    fun i stop i' stop' hs hs' hne => ?_⟩
  · have := (hends i).1 _ hs
    omega
  · have := (hends i).2 _ he
    have := (hends _).1 _ this.2
    omega
  · rcases Nat.lt_or_gt_of_ne hne with hlt | hgt
    · rcases hnested hlt hs hs' with hapart | hinside
      · exact Or.inl hapart
      · exact Or.inr (Or.inr (Or.inl ⟨hlt, hinside⟩))
    · rcases hnested hgt hs' hs with hapart | hinside
      · exact Or.inr (Or.inl hapart)
      · exact Or.inr (Or.inr (Or.inr ⟨hgt, hinside⟩))

theorem compiled_loops_nested_two_deep :
    ∃ p, compile .all "+[>[.]<-][]" = .ok p ∧
      (p.get? 1 = some (.loopStart 8) ∧ p.get? 8 = some (.loopEnd 1)) ∧
      (p.get? 3 = some (.loopStart 5) ∧ p.get? 9 = some (.loopStart 10)) ∧
      (8 < 3 ∨ 5 < 1 ∨ (1 < 3 ∧ 5 < 8) ∨ (3 < 1 ∧ 8 < 5)) ∧
      (5 < 9 ∨ 10 < 3 ∨ (3 < 9 ∧ 10 < 5) ∨ (9 < 3 ∧ 5 < 10)) ∧
      ∀ i, p.get? i ≠ some (.loopStart Block.unknownTarget) := by
  let p : Program := ⟨#[.op (.add 1), .loopStart 8, .op (.move 1), .loopStart 5, .op .output,
    .loopEnd 3, .op (.move (-1)), .op (.add (-1)), .loopEnd 1, .loopStart 10, .loopEnd 9]⟩
  have h : compile .all "+[>[.]<-][]" = .ok p := rfl
  obtain ⟨hstart, -, hknown, hnested⟩ := compiled_loops_nested h
  exact ⟨p, h, ⟨rfl, (hstart 1 8 rfl).2.2⟩, ⟨rfl, rfl⟩, hnested 1 8 3 5 rfl rfl (by decide),
    hnested 3 5 9 10 rfl rfl (by decide), fun i => (hknown (by decide) i).1⟩

end TapeLang
