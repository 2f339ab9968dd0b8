import TapeLang.Proofs.Comparison
import TapeLang.Proofs.Rewriting

/-! # Folding idioms

A loop over a single decrement clears its cell, and a loop over a single move is a scan. The loop
and its idiom complete alike. Under fatal bounds they also fault alike, up to the pointer: the loop
stops at the edge of the tape, the scan where it started. Under wrapping bounds a scan faults where
the loop goes around forever.
-/

namespace TapeLang

variable {w : CellWidth} {τ : Type} [Console τ] {bounds : BoundsPolicy}

namespace Block

variable {o idiom : Op} {b b' rest : Block} {s t : Scene w τ} {r : Result w τ} {f : BoundsFault}

theorem yields_loop_op_of_fault (hn : s.memory.AtNonzero)
    (hp : s.perform bounds o = some (.fault f t)) :
    Yields bounds (.loop (.op o .nil) rest) s r ↔ r = .fault f t := by
  rw [yields_loop_of_nonzero hn]
  constructor
  · rintro (⟨u, hb, -⟩ | ⟨f', u, hb, rfl⟩)
    · cases (yields_op_of_fault hp).mp hb
    · exact (yields_op_of_fault hp).mp hb
  · rintro rfl
    exact Or.inr ⟨f, t, .opFault hp, rfl⟩

theorem mimics_countdown (n : Nat) {c : Cell w} (hc : s.memory.current? = some c) (hn : c.val = n)
    (rest : Block) : Mimics bounds (.loop (.op (.add (-1)) .nil) rest) s rest
      ⟨s.memory.put .zero, s.console⟩ := by
  induction n generalizing s c with
  | zero =>
    have hz : c.isZero = true := by simp [Cell.isZero, hn]
    rw [← Cell.eq_zero_of_isZero hz, Memory.put_current hc]
    exact .of_zero ⟨c, hc, hz⟩ _ rest
  | succ n ih =>
    have hz : c.isZero = false := by simp [Cell.isZero, hn]
    have hs := Memory.onTape_of_current hc
    have hv : (c.add (-1)).val = n := by
      rw [Cell.add_neg_one_val hz]
      omega
    have hlater := ih (s := ⟨s.memory.put (c.add (-1)), s.console⟩) (Memory.current_put hs _) hv
    rw [Memory.put_put] at hlater
    exact (Mimics.of_nonzero ⟨c, hc, hz⟩ (Scene.perform_add hc (-1)) rfl rest).trans hlater

theorem agree_clear (rest : Block) :
    Agree w τ bounds (.loop (.op (.add (-1)) .nil) rest) (.op .clear rest) := by
  intro s hs
  obtain ⟨c, hc⟩ := hs.current
  exact (mimics_countdown c.val hc rfl rest).trans
    (Mimics.of_silent (Scene.perform_clear hc) rfl rest).symm

theorem mimics_walk {tape : Tape w} {d : Direction} {p q : Nat} (h : tape.Walks d bounds p q)
    (c : τ) (rest : Block) :
    Mimics bounds (.loop (.op (.move d.unit) .nil) rest) ⟨⟨tape, p⟩, c⟩
      (.loop (.op (.move d.unit) .nil) rest) ⟨⟨tape, q⟩, c⟩ := by
  induction h with
  | refl => exact .refl _ _
  | @step p _ _ hn ho _ ih =>
    have hn' : (⟨⟨tape, p⟩, c⟩ : Scene w τ).memory.AtNonzero := hn
    exact (Mimics.of_nonzero hn' (Scene.perform_move_ok ho) rfl rest).trans ih

theorem perform_move_wrap (s : Scene w τ) (n : Int) :
    ∃ t, s.perform .wrap (.move n) = some (.done t) ∧ t.memory.tape = s.memory.tape ∧
      t.console = s.console := by
  have ho : s.memory.tape.offset s.memory.pointer n .wrap = .ok _ := rfl
  exact ⟨_, Scene.perform_move_ok ho, rfl, rfl⟩

theorem yields_move_wrap {n : Int} (h : Yields .wrap (.op (.move n) .nil) s r) :
    ∃ t, r = .done t ∧ t.memory.tape = s.memory.tape ∧ t.console = s.console := by
  obtain ⟨t, hp, htape, hc⟩ := perform_move_wrap s n
  rw [yields_op_of_done hp, yields_nil_iff] at h
  exact ⟨t, h, htape, hc⟩

theorem visits_move_wrap {n : Int} {c : τ} (h : Visits .wrap (.op (.move n) .nil) s c) :
    c = s.console := by
  obtain ⟨t, hp, -, hc⟩ := perform_move_wrap s n
  rcases (visits_op_of_done hp).mp h with rfl | hnil
  · rfl
  · cases hnil
    exact hc

theorem not_atZero_of_no_zero {m : Memory w} (hall : ∀ i, i < m.tape.size → m.tape.NonzeroAt i) :
    ¬ m.AtZero := by
  intro hz
  have hn : m.AtNonzero := by
    obtain ⟨c, hc, -⟩ := hz
    exact hall _ (Tape.lt_of_get? hc)
  exact hn.not_atZero hz

theorem not_yields_of_no_zero {n : Int}
    (hall : ∀ i, i < s.memory.tape.size → s.memory.tape.NonzeroAt i) :
    ¬ Yields .wrap (.loop (.op (.move n) .nil) rest) s r := by
  intro hy
  generalize hl : Block.loop (.op (.move n) .nil) rest = b at hy
  induction hy with
  | nil => cases hl
  | op => cases hl
  | opFault => cases hl
  | exit hz => exact not_atZero_of_no_zero hall hz
  | again _ hb _ _ ih =>
    cases hl
    obtain ⟨u, hu, htape, -⟩ := yields_move_wrap hb
    cases hu
    exact ih (htape ▸ hall) rfl
  | bodyFault _ hb =>
    cases hl
    obtain ⟨u, hu, -⟩ := yields_move_wrap hb
    cases hu

theorem visits_of_no_zero {n : Int} {c : τ}
    (hall : ∀ i, i < s.memory.tape.size → s.memory.tape.NonzeroAt i)
    (hv : Visits .wrap (.loop (.op (.move n) .nil) rest) s c) : c = s.console := by
  generalize hl : Block.loop (.op (.move n) .nil) rest = b at hv
  induction hv with
  | here => rfl
  | op => cases hl
  | exit hz => exact (not_atZero_of_no_zero hall hz).elim
  | body _ hb =>
    cases hl
    exact visits_move_wrap hb
  | again _ hb _ ih =>
    cases hl
    obtain ⟨u, hu, htape, hc⟩ := yields_move_wrap hb
    cases hu
    exact (ih (htape ▸ hall) rfl).trans hc

/-- How the loop over a single move and the scan compare from a scene. -/
theorem scan_cases (d : Direction) (bounds : BoundsPolicy) (rest : Block)
    (hs : s.memory.OnTape) :
    Mimics bounds (.loop (.op (.move d.unit) .nil) rest) s (.op (.scan d) rest) s ∨
    (∃ f q, bounds = .fatal ∧ ∀ r,
      (Yields bounds (.loop (.op (.move d.unit) .nil) rest) s r ↔
        r = .fault f ⟨⟨s.memory.tape, q⟩, s.console⟩) ∧
      (Yields bounds (.op (.scan d) rest) s r ↔ r = .fault f s)) ∨
    (bounds = .wrap ∧
      (∀ r, ¬ Yields bounds (.loop (.op (.move d.unit) .nil) rest) s r ∧
        (Yields bounds (.op (.scan d) rest) s r ↔ r = .fault .noZeroCell s)) ∧
      ∀ c, (Visits bounds (.loop (.op (.move d.unit) .nil) rest) s c ↔ c = s.console) ∧
        (Visits bounds (.op (.scan d) rest) s c ↔ c = s.console)) := by
  obtain ⟨⟨tape, p⟩, c⟩ := s
  have hj := Tape.scan_journey bounds d hs
  generalize hscan : Tape.scan _ _ d bounds = result at hj
  cases hj with
  | @arrives _ q hw hz =>
    have hz' : (⟨⟨tape, q⟩, c⟩ : Scene w τ).memory.AtZero := hz
    exact Or.inl ((mimics_walk hw c rest).trans ((Mimics.of_zero hz' _ rest).trans
      (Mimics.of_silent (Scene.perform_scan_ok hscan) rfl rest).symm))
  | @leaves q f hw hn ho =>
    let u : Scene w τ := ⟨⟨tape, q⟩, c⟩
    have hn' : u.memory.AtNonzero := hn
    have hp : u.perform .fatal (.move d.unit) = some (.fault f u) := Scene.perform_move_error ho
    refine Or.inr (Or.inl ⟨f, q, rfl, fun r => ⟨?_, ?_⟩⟩)
    · rw [(mimics_walk hw c rest).yields, yields_loop_op_of_fault hn' hp]
    · rw [yields_op_of_fault (Scene.perform_scan_error hscan)]
  | circles hall =>
    have hp : Scene.perform .wrap (.scan d) ⟨⟨tape, p⟩, c⟩ =
        some (.fault .noZeroCell ⟨⟨tape, p⟩, c⟩) := Scene.perform_scan_error hscan
    refine Or.inr (Or.inr ⟨rfl, fun r => ⟨not_yields_of_no_zero hall, ?_⟩, fun c' => ⟨?_, ?_⟩⟩)
    · rw [yields_op_of_fault hp]
    · constructor
      · exact visits_of_no_zero hall
      · rintro rfl
        exact .here _ _
    · exact visits_op_of_not_done (by simp [hp])

end Block

namespace Op

variable {o idiom : Op}

theorem loopIdiom?_cases (h : o.loopIdiom? = some idiom) :
    (o = .add (-1) ∧ idiom = .clear) ∨ ∃ d : Direction, o = .move d.unit ∧ idiom = .scan d := by
  unfold loopIdiom? at h
  split at h <;> cases h
  · exact Or.inl ⟨rfl, rfl⟩
  · exact Or.inr ⟨.left, rfl, rfl⟩
  · exact Or.inr ⟨.right, rfl, rfl⟩

theorem loopIdiom?_idiom (h : o.loopIdiom? = some idiom) : idiom.loopIdiom? = none := by
  rcases loopIdiom?_cases h with ⟨-, rfl⟩ | ⟨d, -, rfl⟩
  · rfl
  · rfl

end Op

namespace Criterion

open Block

variable {o idiom : Op} {b b' : Block}

theorem completion_idiom (h : o.loopIdiom? = some idiom) (rest : Block) :
    (completion : Criterion w τ).Equiv bounds (.loop (.op o .nil) rest) (.op idiom rest) := by
  rcases Op.loopIdiom?_cases h with ⟨rfl, rfl⟩ | ⟨d, rfl, rfl⟩
  · exact (Congruence.equiv _ _).agree (agree_clear rest)
  · constructor
    · rintro s hs _ ⟨t, rfl⟩ hy
      rcases scan_cases d bounds rest hs with hmimics | ⟨f, q, -, hf⟩ | ⟨-, hn, -⟩
      · exact ⟨_, rfl, (hmimics.yields _).mp hy⟩
      · cases (hf _).1.mp hy
      · exact ((hn _).1 hy).elim
    · rintro s hs _ ⟨t, rfl⟩ hy
      rcases scan_cases d bounds rest hs with hmimics | ⟨f, q, -, hf⟩ | ⟨-, hn, -⟩
      · exact ⟨_, rfl, (hmimics.yields _).mpr hy⟩
      · cases (hf _).2.mp hy
      · cases (hn _).2.mp hy

theorem upToPointer_idiom (h : o.loopIdiom? = some idiom) (rest : Block) :
    (upToPointer : Criterion w τ).Equiv .fatal (.loop (.op o .nil) rest) (.op idiom rest) := by
  rcases Op.loopIdiom?_cases h with ⟨rfl, rfl⟩ | ⟨d, rfl, rfl⟩
  · exact (Congruence.equiv _ _).agree (agree_clear rest)
  · constructor
    · intro s hs r _ hy
      rcases scan_cases d .fatal rest hs with hmimics | ⟨f, q, -, hf⟩ | ⟨hb, -⟩
      · exact ⟨r, upToPointer.refl r, (hmimics.yields r).mp hy⟩
      · obtain rfl := (hf _).1.mp hy
        exact ⟨.fault f s, .fault f rfl rfl, (hf _).2.mpr rfl⟩
      · cases hb
    · intro s hs r _ hy
      rcases scan_cases d .fatal rest hs with hmimics | ⟨f, q, -, hf⟩ | ⟨hb, -⟩
      · exact ⟨r, upToPointer.refl r, (hmimics.yields r).mpr hy⟩
      · obtain rfl := (hf _).2.mp hy
        exact ⟨.fault f ⟨⟨s.memory.tape, q⟩, s.console⟩, .fault f rfl rfl, (hf _).1.mpr rfl⟩
      · cases hb

end Criterion

namespace Block

variable {o idiom : Op} {b b' : Block}

/-- Some loops that have an idiom are replaced by it. -/
inductive Folded : Block → Block → Prop
  | nil : Folded .nil .nil
  | op (o : Op) {rest rest' : Block} : Folded rest rest' → Folded (.op o rest) (.op o rest')
  | loop {body body' rest rest' : Block} : Folded body body' → Folded rest rest' →
      Folded (.loop body rest) (.loop body' rest')
  | idiom {o idiom : Op} {rest rest' : Block} : o.loopIdiom? = some idiom → Folded rest rest' →
      Folded (.loop (.op o .nil) rest) (.op idiom rest')

theorem Folded.congruence {R : Block → Block → Prop} (hR : Congruence w τ bounds R)
    (hi : ∀ {o idiom : Op}, o.loopIdiom? = some idiom → ∀ rest,
      R (.loop (.op o .nil) rest) (.op idiom rest)) (h : Folded b b') : R b b' := by
  induction h with
  | nil => exact hR.refl .nil
  | op o _ ih => exact hR.op o ih
  | loop _ _ ihb ihr => exact hR.loop ihb ihr
  | @idiom o idiom rest rest' ho _ ih => exact hR.trans (hi ho rest) (hR.op idiom ih)

theorem Folded.eq_of_idiom_body (h : Folded b (.op o .nil)) (ho : o.loopIdiom? = some idiom) :
    b = .op o .nil := by
  cases h with
  | op _ hn =>
    cases hn
    rfl
  | idiom hi =>
    rw [Op.loopIdiom?_idiom hi] at ho
    cases ho

theorem folded_fold (b : Block) : Folded b b.fold := by
  induction b with
  | nil => exact .nil
  | op o rest ih => exact .op o ih
  | loop body rest ihb ihr =>
    unfold fold loopOrIdiom
    split
    · split
      · next o heq _ idiom ho =>
        rw [heq] at ihb
        rw [ihb.eq_of_idiom_body ho]
        exact .idiom ho ihr
      · next o heq _ _ =>
        rw [heq] at ihb
        exact .loop ihb ihr
    · exact .loop ihb ihr

/-! Coalescing does the same to a block before and after folding. -/

theorem Folded.closeRun (h : Folded b b') : Folded b.closeRun b'.closeRun := by
  cases h with
  | nil => exact .nil
  | loop hb hr => exact .loop hb hr
  | @op o rest rest' hr =>
    cases o with
    | move n =>
      by_cases hn : n = 0
      · simpa [Block.closeRun, hn] using hr
      · simpa [Block.closeRun, hn] using Folded.op _ hr
    | add n =>
      by_cases hn : n = 0
      · simpa [Block.closeRun, hn] using hr
      · simpa [Block.closeRun, hn] using Folded.op _ hr
    | _ => exact .op _ hr
  | idiom ho hr =>
    rcases Op.loopIdiom?_cases ho with ⟨rfl, rfl⟩ | ⟨d, rfl, rfl⟩
    · exact .idiom ho hr
    · exact .idiom ho hr

theorem Folded.consRun (h : Folded b b') (o : Op) : Folded (consRun o b) (consRun o b') := by
  have hc := h.closeRun
  cases h with
  | nil => cases o <;> exact .op _ .nil
  | loop hb hr => cases o <;> exact .op _ hc
  | @op o' rest rest' hr =>
    cases o with
    | move m =>
      cases o' with
      | move n => exact .op _ hr
      | _ => exact .op _ hc
    | add m =>
      cases o' with
      | add n => exact .op _ hr
      | input => exact .op _ hr
      | _ => exact .op _ hc
    | _ => exact .op _ hc
  | idiom ho hr =>
    rcases Op.loopIdiom?_cases ho with ⟨rfl, rfl⟩ | ⟨d, rfl, rfl⟩
    · cases o <;> exact .op _ hc
    · cases o <;> exact .op _ hc

theorem coalesce_idiom_body (ho : o.loopIdiom? = some idiom) :
    (Block.op o .nil).coalesce = .op o .nil := by
  rcases Op.loopIdiom?_cases ho with ⟨rfl, rfl⟩ | ⟨d, rfl, rfl⟩
  · rfl
  · cases d <;> rfl

theorem Folded.gather (h : Folded b b') : Folded b.gather b'.gather := by
  induction h with
  | nil => exact .nil
  | op o _ ih => exact ih.consRun o
  | loop _ _ ihb ihr => exact .loop ihb.closeRun ihr.closeRun
  | @idiom o idiom rest rest' ho _ ih =>
    -- The body is already coalesced, and the idiom does not merge with what follows it.
    have hl : (Block.loop (.op o .nil) rest).gather =
        .loop (.op o .nil) rest.gather.closeRun :=
      congrArg (Block.loop · rest.gather.closeRun) (coalesce_idiom_body ho)
    have hr : (Block.op idiom rest').gather = .op idiom rest'.gather.closeRun := by
      rcases Op.loopIdiom?_cases ho with ⟨rfl, rfl⟩ | ⟨d, rfl, rfl⟩
      · rfl
      · rfl
    rw [hl, hr]
    exact .idiom ho ih.closeRun

theorem Folded.coalesce (h : Folded b b') : Folded b.coalesce b'.coalesce :=
  h.gather.closeRun

theorem Folded.upToPointer (h : Folded b b') :
    (Criterion.upToPointer : Criterion w τ).Equiv .fatal b b' :=
  h.congruence (.equiv _ _) fun ho => Criterion.upToPointer_idiom ho

end Block

end TapeLang
