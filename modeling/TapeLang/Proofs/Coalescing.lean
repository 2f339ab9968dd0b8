import TapeLang.Proofs.Comparison
import TapeLang.Proofs.Rewriting

/-! # Coalescing runs

A run of additions has its net effect, an addition before an input has none, and a run of moves
that stays on the tape has its net effect too. Under wrapping bounds coalescing therefore changes no
result. Under fatal bounds a run of moves may leave the tape and come back; its net move does not.
-/

namespace TapeLang

variable {w : CellWidth} {τ : Type} [Console τ] {bounds : BoundsPolicy}

namespace Block

variable {rest : Block} {s : Scene w τ}

theorem agree_move_zero (rest : Block) : Agree w τ bounds (.op (.move 0) rest) rest :=
  fun _ hs => .of_silent (Scene.perform_move_ok (Tape.offset_zero hs)) rfl rest

theorem agree_add_zero (rest : Block) : Agree w τ bounds (.op (.add 0) rest) rest := by
  intro s hs
  obtain ⟨c, hc⟩ := hs.current
  have hp : s.perform bounds (.add 0) = some (.done s) := by
    rw [Scene.perform_add hc, Cell.add_zero, Memory.put_current hc]
  exact .of_silent hp rfl rest

theorem agree_add_wrapDelta (n : Int) (rest : Block) :
    Agree w τ bounds (.op (.add n) rest) (.op (.add (Lexeme.wrapDelta n)) rest) := by
  intro s hs
  obtain ⟨c, hc⟩ := hs.current
  have hp : s.perform bounds (.add (Lexeme.wrapDelta n)) = s.perform bounds (.add n) := by
    rw [Scene.perform_add hc, Scene.perform_add hc, Cell.add_wrapDelta]
  exact (Mimics.of_silent (Scene.perform_add hc n) rfl rest).trans
    (Mimics.of_silent (hp.trans (Scene.perform_add hc n)) rfl rest).symm

theorem agree_add_add (m n : Int) (rest : Block) :
    Agree w τ bounds (.op (.add m) (.op (.add n) rest)) (.op (.add (m + n)) rest) := by
  intro s hs
  obtain ⟨c, hc⟩ := hs.current
  let t : Scene w τ := ⟨s.memory.put (c.add m), s.console⟩
  have hp : t.perform bounds (.add n) =
      some (.done ⟨s.memory.put (c.add (m + n)), s.console⟩) := by
    rw [Scene.perform_add (Memory.current_put hs (c.add m)), Memory.put_put, Cell.add_add]
  exact (Mimics.of_silent (Scene.perform_add hc m) rfl _).trans
    ((Mimics.of_silent hp rfl rest).trans
      (Mimics.of_silent (Scene.perform_add hc (m + n)) rfl rest).symm)

theorem agree_add_input (m : Int) (rest : Block) :
    Agree w τ bounds (.op (.add m) (.op .input rest)) (.op .input rest) := by
  intro s hs
  obtain ⟨c, hc⟩ := hs.current
  have hc' := Memory.current_put hs (c.add m)
  have hp : Scene.perform bounds .input ⟨s.memory.put (c.add m), s.console⟩ =
      s.perform bounds .input := by
    simp [Scene.perform, Memory.perform_input hc, Memory.perform_input hc', Memory.receive_put]
  exact (Mimics.of_silent (Scene.perform_add hc m) rfl _).trans (.of_perform_eq hp rfl rest)

/-- Two moves have the effect of their net move, or one of them leaves the tape. -/
theorem move_move_cases (m n : Int) (rest : Block) (bounds : BoundsPolicy)
    (hs : s.memory.OnTape) :
    Mimics bounds (.op (.move m) (.op (.move n) rest)) s (.op (.move (m + n)) rest) s ∨
    (∃ f t, bounds = .fatal ∧ t.console = s.console ∧
      ∀ r, Yields bounds (.op (.move m) (.op (.move n) rest)) s r ↔ r = .fault f t) := by
  obtain ⟨⟨tape, p⟩, c⟩ := s
  cases hm : tape.offset p m bounds with
  | error f =>
    refine Or.inr ⟨f, ⟨⟨tape, p⟩, c⟩, ?_, rfl, fun r => ?_⟩
    · cases bounds with
      | wrap => cases hm
      | fatal => rfl
    · rw [yields_op_of_fault (Scene.perform_move_error hm)]
  | ok q =>
    have hmn := Tape.offset_offset (n := n) hs.size_pos hm
    let u : Scene w τ := ⟨⟨tape, q⟩, c⟩
    cases hn : tape.offset q n bounds with
    | error f =>
      have hp : u.perform bounds (.move n) = some (.fault f u) := Scene.perform_move_error hn
      refine Or.inr ⟨f, u, ?_, rfl, fun r => ?_⟩
      · cases bounds with
        | wrap => cases hn
        | fatal => rfl
      · rw [yields_op_of_done (Scene.perform_move_ok hm), yields_op_of_fault hp]
    | ok q' =>
      have hp : u.perform bounds (.move n) = some (.done ⟨⟨tape, q'⟩, c⟩) :=
        Scene.perform_move_ok hn
      have hp' : Scene.perform bounds (.move (m + n)) ⟨⟨tape, p⟩, c⟩ =
          some (.done ⟨⟨tape, q'⟩, c⟩) := Scene.perform_move_ok (hmn.symm.trans hn)
      exact Or.inl ((Mimics.of_silent (Scene.perform_move_ok hm) rfl _).trans
        ((Mimics.of_silent hp rfl rest).trans (Mimics.of_silent hp' rfl rest).symm))

theorem agree_move_move (m n : Int) (rest : Block) :
    Agree w τ .wrap (.op (.move m) (.op (.move n) rest)) (.op (.move (m + n)) rest) := by
  intro s hs
  rcases move_move_cases m n rest .wrap hs with hmimics | ⟨f, t, hb, -⟩
  · exact hmimics
  · cases hb

theorem completion_move_move (m n : Int) (rest : Block) :
    (Criterion.completion : Criterion w τ).Sim bounds (.op (.move m) (.op (.move n) rest))
      (.op (.move (m + n)) rest) := by
  rintro s hs _ ⟨t, rfl⟩ hy
  rcases move_move_cases m n rest bounds hs with hmimics | ⟨f, u, -, -, hu⟩
  · exact ⟨_, rfl, (hmimics.yields _).mp hy⟩
  · cases (hu _).mp hy

theorem orEarlierFault_move_move (m n : Int) (rest : Block) :
    (Criterion.orEarlierFault : Criterion w τ).Sim bounds (.op (.move (m + n)) rest)
      (.op (.move m) (.op (.move n) rest)) := by
  intro s hs r _ hy
  rcases move_move_cases m n rest bounds hs with hmimics | ⟨f, u, -, hc, hu⟩
  · exact ⟨r, .same r, (hmimics.yields _).mpr hy⟩
  · exact ⟨.fault f u, .fault f (hc ▸ (hy.keeps hs).2), (hu _).mpr rfl⟩

theorem agree_closeRun (b : Block) : Agree w τ bounds b b.closeRun := by
  unfold closeRun
  split
  · split
    · next hn => exact hn ▸ agree_move_zero _
    · exact .refl _
  · split
    · next hn => exact hn ▸ agree_add_zero _
    · exact agree_add_wrapDelta _ _
  · exact .refl _

variable {R : Block → Block → Prop}

theorem congruence_consRun (hR : Congruence w τ bounds R)
    (hm : ∀ m n rest, R (.op (.move m) (.op (.move n) rest)) (.op (.move (m + n)) rest))
    (o : Op) (b : Block) : R (.op o b) (consRun o b) := by
  unfold consRun
  split
  · exact hm _ _ _
  · exact hR.agree (agree_add_add _ _ _)
  · exact hR.agree (agree_add_input _ _)
  · exact hR.op o (hR.agree (agree_closeRun b))

/-- A congruence that relates two moves to their net move relates every block to its coalesced
form. -/
theorem congruence_coalesce (hR : Congruence w τ bounds R)
    (hm : ∀ m n rest, R (.op (.move m) (.op (.move n) rest)) (.op (.move (m + n)) rest))
    (b : Block) : R b b.coalesce := by
  have hclose {a a' : Block} (h : R a a') : R a a'.closeRun :=
    hR.trans h (hR.agree (agree_closeRun a'))
  have hg : R b b.gather := by
    induction b with
    | nil => exact hR.refl .nil
    | op o rest ih => exact hR.trans (hR.op o ih) (congruence_consRun hR hm o rest.gather)
    | loop body rest ihb ihr => exact hR.loop (hclose ihb) (hclose ihr)
  exact hclose hg

theorem completion_coalesce (b : Block) :
    (Criterion.completion : Criterion w τ).Sim bounds b b.coalesce :=
  congruence_coalesce (.sim _ _) completion_move_move b

theorem orEarlierFault_coalesce (b : Block) :
    (Criterion.orEarlierFault : Criterion w τ).Sim bounds b.coalesce b :=
  congruence_coalesce (Congruence.sim _ _).flip orEarlierFault_move_move b

end Block

end TapeLang
