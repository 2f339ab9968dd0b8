import TapeLang.Proofs.Coalescing
import TapeLang.Proofs.Endings
import TapeLang.Proofs.Folding

/-! # What the passes preserve

Under wrapping bounds all choices of passes give programs that complete alike. Under fatal bounds
folding is exact up to the pointer at a fault, and coalescing can only remove faults.
-/

namespace TapeLang

variable {w : CellWidth} {size : Nat} {bounds : BoundsPolicy} {input : String}
  {b b' : Block} {r : Remains w} {e : BoundsError}

namespace Program

theorem completes_of_sim (h : (Criterion.completion : Criterion w Buffered).Sim bounds b b')
    (hc : Completes size bounds input (ofBlock b) r) :
    Completes size bounds input (ofBlock b') r := by
  obtain ⟨t, hy, rfl⟩ := completes_ofBlock_iff.mp hc
  obtain ⟨_, rfl, hy'⟩ := h _ Scene.opening_onTape _ ⟨t, rfl⟩ hy
  exact completes_ofBlock_iff.mpr ⟨t, hy', rfl⟩

theorem completes_iff_of_equiv
    (h : (Criterion.completion : Criterion w Buffered).Equiv bounds b b') :
    Completes size bounds input (ofBlock b) r ↔ Completes size bounds input (ofBlock b') r :=
  ⟨completes_of_sim h.1, completes_of_sim h.2⟩

end Program

section

variable {τ : Type} [Console τ] {s t : Scene w τ} {o : Op} {f : BoundsFault}

theorem Scene.perform_fault_wrap (hs : s.memory.OnTape)
    (h : s.perform .wrap o = some (.fault f t)) : f = .noZeroCell ∧ ∃ d, o = .scan d := by
  obtain ⟨c, hc⟩ := hs.current
  cases o with
  | scan d =>
    have hj := Tape.scan_journey .wrap d hs
    generalize hscan : Tape.scan _ _ d .wrap = result at hj
    cases hj with
    | arrives =>
      rw [perform_scan_ok hscan] at h
      cases h
    | circles =>
      rw [perform_scan_error hscan] at h
      cases h
      exact ⟨rfl, d, rfl⟩
  | move n =>
    have ho : s.memory.tape.offset s.memory.pointer n .wrap = .ok _ := rfl
    rw [perform_move_ok ho] at h
    cases h
  | add n =>
    rw [perform_add hc] at h
    cases h
  | clear =>
    rw [perform_clear hc] at h
    cases h
  | output =>
    simp only [perform, Memory.perform_output hc] at h
    split at h <;> cases h
  | input =>
    simp only [perform, Memory.perform_input hc] at h
    split at h <;> cases h
  | breakpoint => cases h

/-- Under wrapping bounds only a scan can fault, and only for want of a zero cell. -/
theorem Block.Yields.fault_wrap (h : b.Yields .wrap s (.fault f t)) (hs : s.memory.OnTape) :
    f = .noZeroCell ∧ ¬ b.All fun o => ∀ d, o ≠ .scan d := by
  generalize hr : Result.fault f t = r at h
  induction h with
  | nil => cases hr
  | op hp _ ih =>
    obtain ⟨hf, hall⟩ := ih (Scene.perform_done hs hp).1 hr
    exact ⟨hf, fun h => hall h.2⟩
  | opFault hp =>
    cases hr
    obtain ⟨hf, d, rfl⟩ := Scene.perform_fault_wrap hs hp
    exact ⟨hf, fun h => h.1 d rfl⟩
  | exit _ _ ih =>
    obtain ⟨hf, hall⟩ := ih hs hr
    exact ⟨hf, fun h => hall h.2⟩
  | again _ hb _ _ ih => exact ih (hb.keeps hs).1 hr
  | bodyFault _ _ ih =>
    cases hr
    obtain ⟨hf, hall⟩ := ih hs rfl
    exact ⟨hf, fun h => hall h.1⟩

end

namespace Passes

variable {τ : Type} [Console τ] {R : Block → Block → Prop}

/-- Under wrapping bounds a congruence that relates loops to their idioms relates every block to
what the passes make of it. -/
theorem congruence_rewrite (hR : Block.Congruence w τ .wrap R)
    (hi : ∀ {o idiom : Op}, o.loopIdiom? = some idiom → ∀ rest,
      R (.loop (.op o .nil) rest) (.op idiom rest)) (passes : Passes) (b : Block) :
    R b (passes.rewrite b) := by
  have hf : R b b.fold := (Block.folded_fold b).congruence hR hi
  have hc : ∀ b : Block, R b b.coalesce := Block.congruence_coalesce hR
    fun m n rest => hR.agree (Block.agree_move_move m n rest)
  rcases passes with ⟨_ | _, _ | _⟩
  · exact hR.refl b
  · exact hc b
  · exact hf
  · exact hR.trans hf (hc b.fold)

theorem completion_rewrite (passes : Passes) (b : Block) :
    (Criterion.completion : Criterion w τ).Equiv .wrap b (passes.rewrite b) :=
  congruence_rewrite (.equiv _ _) (fun ho => Criterion.completion_idiom ho) passes b

end Passes

/-- Under wrapping bounds a text means the same whatever passes it is compiled with: the programs
complete together and leave the same behind, and where one faults the plain program has no end. -/
theorem passes_preserve_completion {passes : Passes} {source : String} {p : Program}
    (h : compile passes source = .ok p) (passes' : Passes) (w : CellWidth) (size : Nat)
    (input : String) :
    ∃ p', compile passes' source = .ok p' ∧
      (∀ r : Remains w, Completes size .wrap input p r ↔ Completes size .wrap input p' r) ∧
      ∀ e, ∀ r : Remains w, Fails size .wrap input p e r → e.fault = .noZeroCell ∧
        ∃ plain, compile .none source = .ok plain ∧ RunsForever w size .wrap input plain := by
  obtain ⟨b, hb, rfl⟩ := compile_eq_ok_iff.mp h
  have hiff (passes : Passes) (r : Remains w) :
      Completes size .wrap input (.ofBlock b) r ↔
        Completes size .wrap input (.ofBlock (passes.rewrite b)) r :=
    Program.completes_iff_of_equiv (passes.completion_rewrite b)
  refine ⟨_, compile_eq_ok_iff.mpr ⟨b, hb, rfl⟩,
    fun r => (hiff passes r).symm.trans (hiff passes' r), fun e r hf => ?_⟩
  obtain ⟨t, hy, -⟩ := Program.yields_of_fails hf
  refine ⟨(hy.fault_wrap Scene.opening_onTape).1, _, compile_eq_ok_iff.mpr ⟨b, hb, rfl⟩, ?_⟩
  rcases Program.ofBlock_endings w size .wrap input b with ⟨r', hc⟩ | ⟨e', r', hf'⟩ | hforever
  · exact (((hiff passes r').mp hc).not_fails hf).elim
  · obtain ⟨t', hy', -⟩ := Program.yields_of_fails hf'
    exact ((hy'.fault_wrap Scene.opening_onTape).2 (Block.all_not_scan hb)).elim
  · exact hforever

theorem passes_preserve_completion_full_tape :
    ∃ p, compile .all "+[>]" = .ok p ∧
      (∃ e, ∃ r : Remains .eight, Fails 1 .wrap "" p e r ∧ e.fault = .noZeroCell) ∧
      ∃ plain, compile .none "+[>]" = .ok plain ∧ RunsForever .eight 1 .wrap "" plain := by
  let p : Program := ⟨#[.op (.add 1), .op (.scan .right)]⟩
  have h : compile .all "+[>]" = .ok p := rfl
  have hf : Fails 1 .wrap "" p ⟨.noZeroCell, 1, 0, 1⟩ (_ : Remains .eight) := ⟨2, rfl, rfl⟩
  obtain ⟨-, -, -, hfails⟩ := passes_preserve_completion h .none .eight 1 ""
  obtain ⟨hz, hplain⟩ := hfails _ _ hf
  exact ⟨p, h, ⟨_, _, hf, hz⟩, hplain⟩

namespace Passes

theorem folded_rewrite (coalesce : Bool) (b : Block) :
    Block.Folded (rewrite ⟨false, coalesce⟩ b) (rewrite ⟨true, coalesce⟩ b) := by
  cases coalesce with
  | false => exact Block.folded_fold b
  | true => exact (Block.folded_fold b).coalesce

end Passes

namespace Program

theorem fails_of_upToPointer (h : (Criterion.upToPointer : Criterion w Buffered).Sim bounds b b')
    (hf : Fails size bounds input (ofBlock b) e r) :
    ∃ e', ∃ r' : Remains w, Fails size bounds input (ofBlock b') e' r' ∧ e'.fault = e.fault ∧
      r'.memory.tape = r.memory.tape ∧ r'.output = r.output ∧ r'.unread = r.unread := by
  obtain ⟨t, hy, rfl⟩ := yields_of_fails hf
  obtain ⟨_, ⟨_⟩ | @⟨_, _, u, htape, hconsole⟩, hy'⟩ :=
    h _ Scene.opening_onTape _ trivial hy
  obtain ⟨e', he, hf'⟩ := fails_of_yields hy'
  refine ⟨e', _, hf', he, htape.symm, ?_, ?_⟩
  · simp only [Scene.remains, hconsole]
  · simp only [Scene.remains, hconsole]

theorem fails_of_coalesced (hf : Fails size bounds input (ofBlock b.coalesce) e r) :
    ∃ e', ∃ r' : Remains w, Fails size bounds input (ofBlock b) e' r' := by
  obtain ⟨t, hy, rfl⟩ := yields_of_fails hf
  obtain ⟨r', ha, hy'⟩ := Block.orEarlierFault_coalesce b _ Scene.opening_onTape _ trivial hy
  obtain ⟨f', u, rfl⟩ := Criterion.orEarlierFault.of_fault ha
  obtain ⟨e', -, hf'⟩ := fails_of_yields hy'
  exact ⟨e', _, hf'⟩

theorem completes_of_coalesced (hc : Completes size bounds input (ofBlock b.coalesce) r) :
    Completes size bounds input (ofBlock b) r ∨
    ∃ e, ∃ r' : Remains w, Fails size bounds input (ofBlock b) e r' ∧
      r'.output.toList <+: r.output.toList := by
  obtain ⟨t, hy, rfl⟩ := completes_ofBlock_iff.mp hc
  obtain ⟨r', ha, hy'⟩ := Block.orEarlierFault_coalesce b _ Scene.opening_onTape _ trivial hy
  cases ha with
  | same => exact Or.inl (completes_ofBlock_iff.mpr ⟨t, hy', rfl⟩)
  | @fault f u hreach =>
    obtain ⟨e', -, hf'⟩ := fails_of_yields hy'
    have hclosed : u.console.input.closed = true :=
      Buffered.reaches_closed (hy'.keeps Scene.opening_onTape).2 rfl
    exact Or.inr ⟨e', _, hf', Buffered.text_prefix_of_reaches hreach hclosed⟩

theorem runsForever_of_no_ending (hc : ∀ r : Remains w, ¬ Completes size bounds input (ofBlock b) r)
    (hf : ∀ e, ∀ r : Remains w, ¬ Fails size bounds input (ofBlock b) e r) :
    RunsForever w size bounds input (ofBlock b) := by
  rcases ofBlock_endings w size bounds input b with ⟨r, hc'⟩ | ⟨e, r, hf'⟩ | hforever
  · exact (hc r hc').elim
  · exact (hf e r hf').elim
  · exact hforever

end Program

/-- Under fatal bounds folding changes neither how a run ends nor, up to the place that a fault
reports, what it leaves behind. -/
theorem folding_exact_fatal {passes : Passes} {source : String} {p : Program}
    (h : compile passes source = .ok p) (coalesce : Bool) (w : CellWidth) (size : Nat)
    (input : String) :
    ∃ folded plain, compile ⟨true, coalesce⟩ source = .ok folded ∧
      compile ⟨false, coalesce⟩ source = .ok plain ∧
      ((∃ r : Remains w, Completes size .fatal input folded r ∧
          Completes size .fatal input plain r) ∨
        (∃ e e', ∃ r r' : Remains w, Fails size .fatal input folded e r ∧
          Fails size .fatal input plain e' r' ∧ e.fault = e'.fault ∧
          r.memory.tape = r'.memory.tape ∧ r.output = r'.output ∧ r.unread = r'.unread) ∨
        (RunsForever w size .fatal input folded ∧ RunsForever w size .fatal input plain)) := by
  obtain ⟨b, hb, -⟩ := compile_eq_ok_iff.mp h
  refine ⟨_, _, compile_eq_ok_iff.mpr ⟨b, hb, rfl⟩, compile_eq_ok_iff.mpr ⟨b, hb, rfl⟩, ?_⟩
  have hequiv : (Criterion.upToPointer : Criterion w Buffered).Equiv .fatal _ _ :=
    (Passes.folded_rewrite coalesce b).upToPointer
  obtain ⟨hforth, hback⟩ := hequiv
  rcases Program.ofBlock_endings w size .fatal input (Passes.rewrite ⟨false, coalesce⟩ b) with
    ⟨r, hc⟩ | ⟨e, r, hf⟩ | hforever
  · exact Or.inl ⟨r, Program.completes_of_sim hforth.completion_of_upToPointer hc, hc⟩
  · obtain ⟨e', r', hf', hsame⟩ := Program.fails_of_upToPointer hforth hf
    exact Or.inr (Or.inl ⟨e', e, r', r, hf', hf, hsame⟩)
  · refine Or.inr (Or.inr ⟨Program.runsForever_of_no_ending (fun r hc => ?_) fun e r hf => ?_,
      hforever⟩)
    · have hc' := Program.completes_of_sim hback.completion_of_upToPointer hc
      exact hc'.not_runsForever hforever
    · obtain ⟨e', r', hf', -⟩ := Program.fails_of_upToPointer hback hf
      exact hf'.not_runsForever hforever

theorem folding_exact_fatal_edge :
    ∃ folded plain, compile ⟨true, false⟩ "+>+<[>]" = .ok folded ∧
      compile ⟨false, false⟩ "+>+<[>]" = .ok plain ∧
      ∃ e e', ∃ r r' : Remains .eight, Fails 2 .fatal "" folded e r ∧
        Fails 2 .fatal "" plain e' r' ∧ e.fault = e'.fault ∧ r.memory.tape = r'.memory.tape := by
  let folded : Program :=
    ⟨#[.op (.add 1), .op (.move 1), .op (.add 1), .op (.move (-1)), .op (.scan .right)]⟩
  have h : compile ⟨true, false⟩ "+>+<[>]" = .ok folded := rfl
  have hf : Fails 2 .fatal "" folded ⟨.overflow, 4, 0, 2⟩ (_ : Remains .eight) := ⟨5, rfl, rfl⟩
  obtain ⟨folded', plain, h', hplain, hcases⟩ := folding_exact_fatal h false .eight 2 ""
  cases h.symm.trans h'
  rcases hcases with ⟨r, hc, -⟩ | ⟨e, e', r, r', hf', hf'', hfault, htape, -⟩ | ⟨hforever, -⟩
  · exact (hc.not_fails hf).elim
  · exact ⟨folded, plain, h, hplain, e, e', r, r', hf', hf'', hfault, htape⟩
  · exact (hf.not_runsForever hforever).elim

/-- Under fatal bounds coalescing can only remove faults: the optimized program does what the plain
one does as long as that lasts, and goes on where a run of moves left the tape and came back. -/
theorem coalescing_removes_faults {passes : Passes} {source : String} {p : Program}
    (h : compile passes source = .ok p) (w : CellWidth) (size : Nat) (input : String) :
    ∃ plain optimized, compile .none source = .ok plain ∧ compile .all source = .ok optimized ∧
      (∀ r : Remains w, Completes size .fatal input plain r →
        Completes size .fatal input optimized r) ∧
      (∀ e, ∀ r : Remains w, Fails size .fatal input optimized e r →
        ∃ e', ∃ r' : Remains w, Fails size .fatal input plain e' r') ∧
      (∀ r : Remains w, Completes size .fatal input optimized r →
        Completes size .fatal input plain r ∨
        ∃ e, ∃ r' : Remains w, Fails size .fatal input plain e r' ∧
          r'.output.toList <+: r.output.toList) ∧
      (RunsForever w size .fatal input plain → RunsForever w size .fatal input optimized) := by
  obtain ⟨b, hb, -⟩ := compile_eq_ok_iff.mp h
  have hequiv : (Criterion.upToPointer : Criterion w Buffered).Equiv .fatal b b.fold :=
    (Block.folded_fold b).upToPointer
  have hfails {e : BoundsError} {r : Remains w}
      (hf : Fails size .fatal input (.ofBlock b.fold.coalesce) e r) :
      ∃ e', ∃ r' : Remains w, Fails size .fatal input (.ofBlock b) e' r' := by
    obtain ⟨e', r', hf'⟩ := Program.fails_of_coalesced hf
    obtain ⟨e'', r'', hf'', -⟩ := Program.fails_of_upToPointer hequiv.2 hf'
    exact ⟨e'', r'', hf''⟩
  have hcompletes {r : Remains w}
      (hc : Completes size .fatal input (.ofBlock b.fold.coalesce) r) :
      Completes size .fatal input (.ofBlock b) r ∨
      ∃ e, ∃ r' : Remains w, Fails size .fatal input (.ofBlock b) e r' ∧
        r'.output.toList <+: r.output.toList := by
    rcases Program.completes_of_coalesced hc with hc' | ⟨e, r', hf, hpre⟩
    · exact Or.inl (Program.completes_of_sim hequiv.2.completion_of_upToPointer hc')
    · obtain ⟨e', r'', hf', -, -, hout, -⟩ := Program.fails_of_upToPointer hequiv.2 hf
      exact Or.inr ⟨e', r'', hf', hout ▸ hpre⟩
  refine ⟨_, _, compile_eq_ok_iff.mpr ⟨b, hb, rfl⟩, compile_eq_ok_iff.mpr ⟨b, hb, rfl⟩,
    fun r hc => ?_, fun e r => hfails, fun r => hcompletes, fun hforever => ?_⟩
  · exact Program.completes_of_sim (Block.completion_coalesce b.fold)
      (Program.completes_of_sim hequiv.1.completion_of_upToPointer hc)
  · refine Program.runsForever_of_no_ending (fun r hc => ?_) fun e r hf => ?_
    · rcases hcompletes hc with hc' | ⟨e, r', hf, -⟩
      · exact hc'.not_runsForever hforever
      · exact hf.not_runsForever hforever
    · obtain ⟨e', r', hf'⟩ := hfails hf
      exact hf'.not_runsForever hforever

theorem coalescing_removes_faults_excursion :
    ∃ plain optimized, compile .none ".<>" = .ok plain ∧ compile .all ".<>" = .ok optimized ∧
      ∃ r : Remains .eight, Completes 1 .fatal "" optimized r ∧
        ∃ e, ∃ r' : Remains .eight, Fails 1 .fatal "" plain e r' ∧
          r'.output.toList <+: r.output.toList := by
  let plain : Program := ⟨#[.op .output, .op (.move (-1)), .op (.move 1)]⟩
  let optimized : Program := ⟨#[.op .output]⟩
  have h : compile .none ".<>" = .ok plain := rfl
  have h' : compile .all ".<>" = .ok optimized := rfl
  have hf : Fails 1 .fatal "" plain ⟨.underflow, 1, 0, 1⟩ (_ : Remains .eight) := ⟨2, rfl, rfl⟩
  have hc : Completes 1 .fatal "" optimized (_ : Remains .eight) := ⟨2, rfl, rfl⟩
  obtain ⟨_, _, hp, ho, -, -, hcompletes, -⟩ := coalescing_removes_faults h .eight 1 ""
  cases h.symm.trans hp
  cases h'.symm.trans ho
  rcases hcompletes _ hc with hc' | hfails
  · exact (hc'.not_fails hf).elim
  · exact ⟨plain, optimized, h, h', _, hc, hfails⟩

end TapeLang
