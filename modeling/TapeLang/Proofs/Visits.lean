import TapeLang.Proofs.Structured

/-! # Executions under way

What a block does on its way, whether or not it comes to an end. `Block.Visits` relates a block and
a scene to every console that the execution leaves behind at some moment, so what it has said and
heard until then. Two blocks do the same if they come to the same results by way of the same
consoles.
-/

namespace TapeLang

variable {w : CellWidth} {τ : Type} [Console τ] {bounds : BoundsPolicy}

/-- A block, executed from a scene, comes by a console. -/
inductive Block.Visits (bounds : BoundsPolicy) : Block → Scene w τ → τ → Prop
  | here (b : Block) (s : Scene w τ) : Visits bounds b s s.console
  | op {o : Op} {rest : Block} {s t : Scene w τ} {c : τ} :
      s.perform bounds o = some (.done t) → Visits bounds rest t c → Visits bounds (.op o rest) s c
  | exit {body rest : Block} {s : Scene w τ} {c : τ} : s.memory.AtZero → Visits bounds rest s c →
      Visits bounds (.loop body rest) s c
  | body {body rest : Block} {s : Scene w τ} {c : τ} : s.memory.AtNonzero →
      Visits bounds body s c → Visits bounds (.loop body rest) s c
  | again {body rest : Block} {s t : Scene w τ} {c : τ} : s.memory.AtNonzero →
      body.Yields bounds s (.done t) → Visits bounds (.loop body rest) t c →
      Visits bounds (.loop body rest) s c

namespace Block

variable {o : Op} {b b' b'' body rest : Block} {s t u : Scene w τ} {c : τ}

theorem visits_op_of_done (h : s.perform bounds o = some (.done t)) :
    Visits bounds (.op o rest) s c ↔ c = s.console ∨ Visits bounds rest t c := by
  constructor
  · intro hv
    cases hv with
    | here => exact Or.inl rfl
    | op h' hr =>
      rw [h] at h'
      cases h'
      exact Or.inr hr
  · rintro (rfl | hr)
    · exact .here _ _
    · exact .op h hr

theorem visits_op_of_not_done (h : ∀ t, s.perform bounds o ≠ some (.done t)) :
    Visits bounds (.op o rest) s c ↔ c = s.console := by
  constructor
  · intro hv
    cases hv with
    | here => rfl
    | op h' => exact (h _ h').elim
  · rintro rfl
    exact .here _ _

theorem visits_loop_of_zero (h : s.memory.AtZero) :
    Visits bounds (.loop body rest) s c ↔ Visits bounds rest s c := by
  constructor
  · intro hv
    cases hv with
    | here => exact .here _ _
    | exit _ hr => exact hr
    | body hn => exact (hn.not_atZero h).elim
    | again hn => exact (hn.not_atZero h).elim
  · exact .exit h

theorem visits_loop_of_nonzero (h : s.memory.AtNonzero) :
    Visits bounds (.loop body rest) s c ↔ Visits bounds body s c ∨
      ∃ t, Yields bounds body s (.done t) ∧ Visits bounds (.loop body rest) t c := by
  constructor
  · intro hv
    cases hv with
    | here => exact Or.inl (.here _ _)
    | exit hz => exact (h.not_atZero hz).elim
    | body _ hb => exact Or.inl hb
    | again _ hb hl => exact Or.inr ⟨_, hb, hl⟩
  · rintro (hb | ⟨t, hb, hl⟩)
    · exact .body h hb
    · exact .again h hb hl

theorem Yields.visits {r : Result w τ} (h : b.Yields bounds s r) (hs : s.memory.OnTape) :
    b.Visits bounds s r.scene.console := by
  induction h with
  | nil s => exact .here _ _
  | op hp _ ih => exact .op hp (ih (Scene.perform_done hs hp).1)
  | opFault hp =>
    rw [Scene.perform_fault hs hp]
    exact .here _ _
  | exit hz _ ih => exact .exit hz (ih hs)
  | again hn hb _ _ ih => exact .again hn hb (ih (hb.keeps hs).1)
  | bodyFault hn _ ih => exact .body hn (ih hs)

/-- From the one scene, the one block does all that the other does from the other. -/
structure Mimics (bounds : BoundsPolicy) (b : Block) (s : Scene w τ) (b' : Block) (s' : Scene w τ) :
    Prop where
  yields (r : Result w τ) : b.Yields bounds s r ↔ b'.Yields bounds s' r
  visits (c : τ) : b.Visits bounds s c ↔ b'.Visits bounds s' c

namespace Mimics

theorem refl (b : Block) (s : Scene w τ) : b.Mimics bounds s b s :=
  ⟨fun _ => Iff.rfl, fun _ => Iff.rfl⟩

theorem symm (h : b.Mimics bounds s b' t) : b'.Mimics bounds t b s :=
  ⟨fun r => (h.yields r).symm, fun c => (h.visits c).symm⟩

theorem trans (h : b.Mimics bounds s b' t) (h' : b'.Mimics bounds t b'' u) :
    b.Mimics bounds s b'' u :=
  ⟨fun r => (h.yields r).trans (h'.yields r), fun c => (h.visits c).trans (h'.visits c)⟩

theorem of_silent (h : s.perform bounds o = some (.done t)) (hc : t.console = s.console)
    (rest : Block) : (Block.op o rest).Mimics bounds s rest t where
  yields _ := yields_op_of_done h
  visits c := by
    rw [visits_op_of_done h]
    constructor
    · rintro (rfl | hr)
      · rw [← hc]
        exact .here _ _
      · exact hr
    · exact Or.inr

theorem of_perform_eq (h : s.perform bounds o = t.perform bounds o) (hc : s.console = t.console)
    (rest : Block) : (Block.op o rest).Mimics bounds s (.op o rest) t where
  yields r := by
    cases hp : t.perform bounds o with
    | none => exact iff_of_false (yields_op_of_none (h.trans hp)) (yields_op_of_none hp)
    | some result =>
      cases result with
      | done u => rw [yields_op_of_done (h.trans hp), yields_op_of_done hp]
      | fault f u => rw [yields_op_of_fault (h.trans hp), yields_op_of_fault hp]
  visits c := by
    by_cases hp : ∃ u, t.perform bounds o = some (.done u)
    · obtain ⟨u, hp⟩ := hp
      rw [visits_op_of_done (h.trans hp), visits_op_of_done hp, hc]
    · have hp' : ∀ u, t.perform bounds o ≠ some (.done u) := fun u hu => hp ⟨u, hu⟩
      rw [visits_op_of_not_done (h ▸ hp'), visits_op_of_not_done hp', hc]

theorem of_zero (h : s.memory.AtZero) (body rest : Block) :
    (Block.loop body rest).Mimics bounds s rest s :=
  ⟨fun _ => yields_loop_of_zero h, fun _ => visits_loop_of_zero h⟩

theorem of_nonzero (hn : s.memory.AtNonzero) (h : s.perform bounds o = some (.done t))
    (hc : t.console = s.console) (rest : Block) :
    (Block.loop (.op o .nil) rest).Mimics bounds s (.loop (.op o .nil) rest) t where
  yields r := by
    rw [yields_loop_of_nonzero hn]
    simp [yields_op_of_done h]
  visits c := by
    rw [visits_loop_of_nonzero hn]
    simp only [yields_op_of_done h, yields_nil_iff, Result.done.injEq, exists_eq_left]
    constructor
    · rintro (hb | hl)
      · obtain rfl : c = t.console := by
          rcases (visits_op_of_done h).mp hb with rfl | hnil
          · exact hc.symm
          · cases hnil
            rfl
        exact .here _ _
      · exact hl
    · exact Or.inr

end Mimics

end Block

end TapeLang
