import TapeLang.Proofs.Visits

/-! # Comparing blocks

A criterion says which results of an execution count and what may stand in for them. By a criterion
one block simulates another, and this is kept by operations and loops around the two. Three criteria
are used: completions only, all results with faults up to the pointer, and all results with an
earlier fault in their place.
-/

namespace TapeLang

variable {w : CellWidth} {τ : Type} [Console τ] {bounds : BoundsPolicy}

/-- Which results count, and which results are accepted in their place. -/
structure Criterion (w : CellWidth) (τ : Type) [Console τ] where
  covers : Result w τ → Prop
  accepts : Result w τ → Result w τ → Prop
  covers_done (t : Scene w τ) : covers (.done t)
  covers_of_accepts {r r' : Result w τ} : covers r → accepts r r' → covers r'
  refl (r : Result w τ) : accepts r r
  trans {r r' r'' : Result w τ} : accepts r r' → accepts r' r'' → accepts r r''
  /-- A fault in place of a completion also stands for whatever would have come later. -/
  of_done {t : Scene w τ} {r' : Result w τ} : accepts (.done t) r' → r' = .done t ∨
    ∃ f u, r' = .fault f u ∧ ∀ r : Result w τ, Console.Reaches t.console r.scene.console →
      accepts r (.fault f u)
  of_fault {f : BoundsFault} {t : Scene w τ} {r' : Result w τ} : accepts (.fault f t) r' →
    ∃ f' u, r' = .fault f' u

namespace Criterion

variable {C : Criterion w τ} {o : Op} {b b' b'' body body' rest rest' : Block}

/-- From every scene, a result of `b` that counts has an acceptable counterpart among the results
of `b'`. -/
def Sim (C : Criterion w τ) (bounds : BoundsPolicy) (b b' : Block) : Prop :=
  ∀ s : Scene w τ, s.memory.OnTape → ∀ r, C.covers r → b.Yields bounds s r →
    ∃ r', C.accepts r r' ∧ b'.Yields bounds s r'

theorem Sim.trans (h : C.Sim bounds b b') (h' : C.Sim bounds b' b'') : C.Sim bounds b b'' := by
  intro s hs r hc hy
  obtain ⟨r', ha, hy'⟩ := h s hs r hc hy
  obtain ⟨r'', ha', hy''⟩ := h' s hs r' (C.covers_of_accepts hc ha) hy'
  exact ⟨r'', C.trans ha ha', hy''⟩

theorem Sim.op (o : Op) (h : C.Sim bounds rest rest') :
    C.Sim bounds (.op o rest) (.op o rest') := by
  intro s hs r hc hy
  cases hy with
  | op hp hy =>
    obtain ⟨r', ha, hy'⟩ := h _ (Scene.perform_done hs hp).1 r hc hy
    exact ⟨r', ha, .op hp hy'⟩
  | opFault hp => exact ⟨_, C.refl _, .opFault hp⟩

theorem Sim.loop (hb : C.Sim bounds body body') (hr : C.Sim bounds rest rest') :
    C.Sim bounds (.loop body rest) (.loop body' rest') := by
  intro s hs r hc hy
  generalize hl : Block.loop body rest = b at hy
  induction hy with
  | nil => cases hl
  | op => cases hl
  | opFault => cases hl
  | exit hz hy =>
    cases hl
    obtain ⟨r', ha, hy'⟩ := hr _ hs _ hc hy
    exact ⟨r', ha, .exit hz hy'⟩
  | @again _ _ s t r hn hy hl' _ ih =>
    cases hl
    have ht : t.memory.OnTape := (hy.keeps hs).1
    obtain ⟨r₁, ha, hy'⟩ := hb s hs _ (C.covers_done t) hy
    rcases C.of_done ha with rfl | ⟨f, u, rfl, hlater⟩
    · obtain ⟨r', ha', hl''⟩ := ih ht hc rfl
      exact ⟨r', ha', .again hn hy' hl''⟩
    · exact ⟨_, hlater r (hl'.keeps ht).2, .bodyFault hn hy'⟩
  | bodyFault hn hy =>
    cases hl
    obtain ⟨r', ha, hy'⟩ := hb _ hs _ hc hy
    obtain ⟨f', u, rfl⟩ := C.of_fault ha
    exact ⟨_, ha, .bodyFault hn hy'⟩

/-- Each block simulates the other. -/
def Equiv (C : Criterion w τ) (bounds : BoundsPolicy) (b b' : Block) : Prop :=
  C.Sim bounds b b' ∧ C.Sim bounds b' b

end Criterion

/-- The two blocks do the same from every scene. -/
def Block.Agree (w : CellWidth) (τ : Type) [Console τ] (bounds : BoundsPolicy) (b b' : Block) :
    Prop :=
  ∀ s : Scene w τ, s.memory.OnTape → b.Mimics bounds s b' s

namespace Block.Agree

variable {b b' : Block}

theorem refl (b : Block) : b.Agree w τ bounds b := fun s _ => .refl b s

theorem symm (h : b.Agree w τ bounds b') : b'.Agree w τ bounds b := fun s hs => (h s hs).symm

theorem sim (h : b.Agree w τ bounds b') (C : Criterion w τ) : C.Sim bounds b b' :=
  fun s hs r _ hy => ⟨r, C.refl r, ((h s hs).yields r).mp hy⟩

end Block.Agree

/-- A relation that holds of blocks that do the same, composes, and is kept by what stands around
the two blocks. -/
structure Block.Congruence (w : CellWidth) (τ : Type) [Console τ] (bounds : BoundsPolicy)
    (R : Block → Block → Prop) : Prop where
  agree {b b' : Block} : b.Agree w τ bounds b' → R b b'
  trans {b b' b'' : Block} : R b b' → R b' b'' → R b b''
  op {rest rest' : Block} (o : Op) : R rest rest' → R (.op o rest) (.op o rest')
  loop {body body' rest rest' : Block} : R body body' → R rest rest' →
    R (.loop body rest) (.loop body' rest')

namespace Block.Congruence

variable {R : Block → Block → Prop}

theorem refl (h : Block.Congruence w τ bounds R) (b : Block) : R b b := h.agree (.refl b)

theorem flip (h : Block.Congruence w τ bounds R) :
    Block.Congruence w τ bounds fun b b' => R b' b where
  agree ha := h.agree ha.symm
  trans hr hr' := h.trans hr' hr
  op o := h.op o
  loop := h.loop

theorem sim (C : Criterion w τ) (bounds : BoundsPolicy) :
    Block.Congruence w τ bounds (C.Sim bounds) where
  agree ha := ha.sim C
  trans := .trans
  op o := .op o
  loop := .loop

theorem both (h : Block.Congruence w τ bounds R) :
    Block.Congruence w τ bounds fun b b' => R b b' ∧ R b' b where
  agree ha := ⟨h.agree ha, h.agree ha.symm⟩
  trans hr hr' := ⟨h.trans hr.1 hr'.1, h.trans hr'.2 hr.2⟩
  op o hr := ⟨h.op o hr.1, h.op o hr.2⟩
  loop hb hr := ⟨h.loop hb.1 hr.1, h.loop hb.2 hr.2⟩

theorem equiv (C : Criterion w τ) (bounds : BoundsPolicy) :
    Block.Congruence w τ bounds (C.Equiv bounds) :=
  (sim C bounds).both

end Block.Congruence

namespace Result

/-- Equal, except for where the pointer stands at a fault. -/
inductive Alike : Result w τ → Result w τ → Prop
  | done (s : Scene w τ) : Alike (.done s) (.done s)
  | fault (f : BoundsFault) {s t : Scene w τ} : s.memory.tape = t.memory.tape →
      s.console = t.console → Alike (.fault f s) (.fault f t)

/-- The other result is the same or a fault that came earlier. -/
inductive OrEarlierFault : Result w τ → Result w τ → Prop
  | same (r : Result w τ) : OrEarlierFault r r
  | fault {r : Result w τ} (f : BoundsFault) {s : Scene w τ} :
      Console.Reaches s.console r.scene.console → OrEarlierFault r (.fault f s)

end Result

namespace Criterion

/-- Only completions count. -/
def completion : Criterion w τ where
  covers r := ∃ t, r = .done t
  accepts r r' := r' = r
  covers_done t := ⟨t, rfl⟩
  covers_of_accepts hc h := h ▸ hc
  refl _ := rfl
  trans h h' := h'.trans h
  of_done h := Or.inl h
  of_fault h := ⟨_, _, h⟩

/-- Faults are compared up to the pointer. -/
def upToPointer : Criterion w τ where
  covers _ := True
  accepts := Result.Alike
  covers_done _ := trivial
  covers_of_accepts _ _ := trivial
  refl r := by
    cases r with
    | done s => exact .done s
    | fault f s => exact .fault f rfl rfl
  trans h h' := by
    cases h with
    | done s => exact h'
    | fault f ht hc =>
      cases h' with
      | fault _ ht' hc' => exact .fault f (ht.trans ht') (hc.trans hc')
  of_done h := by
    cases h
    exact Or.inl rfl
  of_fault h := by
    cases h
    exact ⟨_, _, rfl⟩

/-- An earlier fault may stand in for any result. -/
def orEarlierFault : Criterion w τ where
  covers _ := True
  accepts := Result.OrEarlierFault
  covers_done _ := trivial
  covers_of_accepts _ _ := trivial
  refl := .same
  trans h h' := by
    cases h with
    | same => exact h'
    | fault f hc =>
      cases h' with
      | same => exact .fault f hc
      | fault f' hc' => exact .fault f' (hc'.trans hc)
  of_done h := by
    cases h with
    | same => exact Or.inl rfl
    | fault f hc => exact Or.inr ⟨f, _, rfl, fun r hr => .fault f (hc.trans hr)⟩
  of_fault h := by
    cases h with
    | same => exact ⟨_, _, rfl⟩
    | fault f => exact ⟨f, _, rfl⟩

theorem Sim.completion_of_upToPointer {b b' : Block}
    (h : (upToPointer : Criterion w τ).Sim bounds b b') :
    (completion : Criterion w τ).Sim bounds b b' := by
  rintro s hs _ ⟨t, rfl⟩ hy
  obtain ⟨_, ⟨_⟩, hy'⟩ := h s hs _ trivial hy
  exact ⟨_, rfl, hy'⟩

end Criterion

end TapeLang
