import TapeLang.Proofs.Debugging
import TapeLang.Proofs.Lockstep
import TapeLang.Proofs.Publication

/-! # Bounds policies compared

Fatal bounds restrict wrapping bounds: as long as no fault ends it, a run under fatal bounds is the
run under wrapping bounds. Each policy has faults of its own.
-/

namespace TapeLang

variable {w : CellWidth} {τ : Type}

namespace Tape

variable {t : Tape w} {p q : Nat} {bounds : BoundsPolicy} {f : BoundsFault}

theorem offset_wrap_of_fatal {delta : Int} (h : t.offset p delta .fatal = .ok q) :
    t.offset p delta .wrap = .ok q := by
  simp only [offset] at h ⊢
  split at h
  · cases h
  · next hnonneg =>
    split at h
    · next hlt =>
      cases h
      rw [Int.emod_eq_of_lt (Int.not_lt.mp hnonneg) hlt]
    · cases h

theorem scan_wrap_of_fatal {d : Direction} (h : ∀ f, t.scan p d .fatal ≠ .error (.fault f)) :
    t.scan p d .wrap = t.scan p d .fatal := by
  unfold scan at h ⊢
  rcases hnear : t.searchNear p d with defect | _ | i
  · rfl
  · simp only [hnear] at h
    cases d with
    | left => exact (h .underflow rfl).elim
    | right => exact (h .overflow rfl).elim
  · rfl

theorem scan_error {d : Direction} (h : t.scan p d bounds = .error (.fault f)) :
    f = .noZeroCell ↔ bounds = .wrap := by
  unfold scan at h
  split at h
  · cases h
  · cases h
  · split at h
    · cases h
      simp
    · cases h
      simp
    · split at h <;> cases h
      simp

end Tape

theorem Effect.mapMemory_id (effect : Effect w) : effect.mapMemory id = effect := by
  cases effect <;> rfl

namespace Memory

variable {s t : Memory w} {o : Op} {bounds : BoundsPolicy} {f : BoundsFault}

theorem perform_wrap_of_fatal (h : ∀ f t, s.perform .fatal o ≠ .trap (.fault f) t) :
    s.perform .wrap o = s.perform .fatal o := by
  cases o with
  | move n =>
    rw [perform_move] at h
    rw [perform_move, perform_move]
    cases hmove : s.tape.offset s.pointer n .fatal with
    | ok q => rw [Tape.offset_wrap_of_fatal hmove]
    | error f => exact (h f s (by rw [hmove])).elim
  | scan d =>
    rw [perform_scan] at h
    rw [perform_scan, perform_scan, Tape.scan_wrap_of_fatal fun f hscan => ?_]
    exact h f s (by rw [hscan])
  | _ => rfl

/-- Only a move or a scan meets a fault, and the policy decides which. -/
theorem perform_fault (h : s.perform bounds o = .trap (.fault f) t) :
    f = .noZeroCell ↔ bounds = .wrap := by
  cases o with
  | move n =>
    rw [perform_move] at h
    split at h
    · cases h
    · next hmove =>
      cases h
      exact Tape.offset_error hmove
  | scan d =>
    rw [perform_scan] at h
    split at h
    · cases h
    · next hscan =>
      cases h
      exact Tape.scan_error hscan
  | breakpoint => cases h
  | _ =>
    simp only [perform] at h
    split at h <;> cases h

end Memory

namespace Machine

variable {p : Program} {m m' : Machine w} {e : BoundsError}

/-- The same machine under wrapping bounds. -/
def wrapping (m : Machine w) : Machine w := { m with bounds := .wrap }

theorem step_wrapping (hfatal : m.bounds = .fatal) (h : ∀ e m', m.step p ≠ .fault e m') :
    m.wrapping.step p = (m.step p).mapMachine wrapping := by
  obtain ⟨s, i, bounds⟩ := m
  obtain rfl : bounds = .fatal := hfatal
  refine step_mapMachine (g := id) (fun _ _ => rfl) (fun _ => rfl) (fun _ => rfl) rfl
    fun o hget => ?_
  rw [Effect.mapMemory_id, id_eq]
  refine Memory.perform_wrap_of_fatal fun f t hfault => ?_
  exact h ⟨f, i, t.pointer, t.tape.size⟩ ⟨t, i, .fatal⟩ (by simp only [step, hget, hfault])

theorem step_fault (h : m.step p = .fault e m') : e.fault = .noZeroCell ↔ m.bounds = .wrap := by
  by_cases hop : ∃ o, p.get? m.index = some (.op o)
  · obtain ⟨o, hget⟩ := hop
    obtain ⟨s, i, bounds⟩ := m
    simp only [step, hget] at h
    split at h <;> cases h
    next hperform => exact Memory.perform_fault hperform
  · rcases step_of_not_op (not_exists.mp hop) with hs | ⟨_, hs⟩ | ⟨_, _, hs⟩ <;> simp [hs] at h

theorem bounds_step (p : Program) (m : Machine w) : (m.step p).machine.bounds = m.bounds := by
  obtain ⟨s, i, bounds⟩ := m
  have hbranch (target : Nat) (jump : Cell w → Bool) :
      (branch target jump ⟨s, i, bounds⟩).machine.bounds = bounds := by
    simp only [branch]
    split <;> rfl
  simp only [step]
  split
  · rfl
  · split <;> rfl
  · split
    · exact hbranch _ _
    · rfl
  · split
    · exact hbranch _ _
    · rfl

variable [Console τ] {c c' : τ}

theorem bounds_turn (p : Program) (m : Machine w) (c : τ) :
    (m.turn p c).machine.bounds = m.bounds := by
  have hs := bounds_step p m
  unfold turn
  generalize m.step p = action at hs
  cases action with
  | write ch m' =>
    dsimp only
    split <;> exact hs
  | read m' =>
    dsimp only
    split <;> exact hs
  | _ => exact hs

theorem turn_wrapping (hfatal : m.bounds = .fatal) (h : ∀ e, (m.turn p c).verdict ≠ .faulted e) :
    m.wrapping.turn p c = (m.turn p c).mapMachine wrapping := by
  refine turn_mapMachine (step_wrapping hfatal fun e m' hs => ?_) (fun _ _ => rfl) c
  exact h e (by rw [turn_of_fault hs]; rfl)

/-- Until it meets a fault, a machine under fatal bounds steps in lockstep with the same machine
under wrapping bounds. -/
theorem turnAt_wrapping {n : Nat} (hfatal : m.bounds = .fatal)
    (h : ∀ k ≤ n, ∀ e, (m.turnAt p k c).verdict ≠ .faulted e) :
    m.wrapping.turnAt p n c = (m.turnAt p n c).mapMachine wrapping :=
  turnAt_mapMachine (I := fun m => m.bounds = .fatal)
    (A := fun turn => ∀ e, turn.verdict ≠ .faulted e)
    (fun m c hm _ => (bounds_turn p m c).trans hm) (fun _ _ => turn_wrapping) hfatal h

end Machine

section

variable [Console τ] {p : Program} {kill : Progress → Bool} {fuel : Nat} {progress : Progress}
  {m : Machine w} {c : τ}

/-- The same outcome for another machine. -/
def Outcome.mapMachine (f : Machine w → Machine w) (o : Outcome w τ) : Outcome w τ :=
  { o with machine := f o.machine }

theorem execute_wrapping (hfatal : m.bounds = .fatal)
    (h : ∀ e, (execute p kill fuel progress m c).ending ≠ .ended (.failed e)) :
    execute p kill fuel progress m.wrapping c =
      (execute p kill fuel progress m c).mapMachine .wrapping := by
  induction fuel generalizing progress m c with
  | zero => rfl
  | succ fuel ih =>
    simp only [execute] at h ⊢
    split
    · rfl
    · rw [if_neg ‹_›] at h
      have hturn := Machine.turn_wrapping (p := p) (c := c) hfatal fun e hverdict => by
        obtain ⟨m', c', hfaulted⟩ := Turn.verdict_eq_faulted hverdict
        simp only [hfaulted] at h
        exact h e rfl
      have hbounds := (Machine.bounds_turn p m c).trans hfatal
      rw [hturn]
      cases ht : m.turn p c with
      | moved event m' c' =>
        rw [ht] at h hbounds
        exact ih hbounds h
      | faulted e m' c' =>
        rw [ht] at h
        exact (h e rfl).elim
      | _ => rfl

theorem execute_fault {e : BoundsError}
    (h : (execute p kill fuel progress m c).ending = .ended (.failed e)) :
    e.fault = .noZeroCell ↔ m.bounds = .wrap := by
  induction fuel generalizing progress m c with
  | zero => cases h
  | succ fuel ih =>
    simp only [execute] at h
    split at h
    · cases h
    · cases ht : m.turn p c with
      | moved event m' c' =>
        have hbounds := Machine.bounds_turn p m c
        rw [ht] at h hbounds
        rw [← hbounds]
        exact ih h
      | faulted e' m' c' =>
        rw [ht] at h
        cases h
        exact Machine.step_fault (Machine.step_of_faulted ht)
      | _ =>
        rw [ht] at h
        cases h

end

theorem Machine.allocate_wrapping {size : Nat} {m : Machine w}
    (h : Machine.allocate size .fatal = .ok m) : Machine.allocate size .wrap = .ok m.wrapping := by
  unfold allocate at h ⊢
  cases ht : (Tape.allocate size : Except Defect (Tape w)) with
  | error defect =>
    rw [ht] at h
    cases h
  | ok t =>
    rw [ht] at h
    cases h
    rfl

theorem Moves.bounds [Console τ] {p : Program} {n : Nat} {m m' : Machine w} {c c' : τ}
    (h : Moves p n m c m' c') : m'.bounds = m.bounds := by
  induction h with
  | refl => rfl
  | @step n event m m₁ _ c c₁ _ ht _ ih =>
    have hbounds := Machine.bounds_turn p m c
    rw [ht] at hbounds
    exact ih.trans hbounds

theorem Tracks.bounds {size : Nat} {program : Program} {t : List Exchange} {control : Control w}
    {m : Machine w} (h : Tracks size program t control m) : m.bounds = .fatal :=
  (h.retraces []).bounds

theorem Tracks.interpret_wrapping (config : Config) {program : Program} {t : List Exchange}
    {control : Control config.width} {m : Machine config.width}
    (h : Tracks config.tapeSize program t control m) (hends : m.Ends program .completed [])
    (hbounds : config.bounds = .wrap)
    (halloc : (Machine.allocate config.tapeSize .fatal : Except Defect (Machine config.width)) =
      .ok (.new config.tapeSize .fatal)) (future : List (Option Char)) :
    ∃ fuel progress, TapeLang.interpret config program never fuel {}
      (Recorded.script (Exchange.answers t ++ future)) =
        ⟨.ended .completed, m.wrapping,
          ⟨⟨future⟩, t ++ [.message (Report.line ⟨.completed, .zero⟩)]⟩, progress⟩ := by
  obtain ⟨progress, hx⟩ := (h.retraces future).execute {}
  have hlast := (hx 1).trans (hends.execute progress ⟨future⟩ t)
  have hwrap := execute_wrapping (m := .new config.tapeSize .fatal) rfl
    (fun e he => by rw [hlast] at he; cases he)
  refine ⟨control.executed + 1, progress, ?_⟩
  have hnote (n : Note) (answers : List (Option Char)) :
      Console.note n (Recorded.script answers) = Recorded.script answers := rfl
  rw [hlast, List.append_nil] at hwrap
  simp only [TapeLang.interpret, hbounds, Machine.allocate_wrapping halloc, hnote, hwrap]
  rfl

/-- As long as no fault ends it, a run under fatal bounds cannot be told from one under wrapping
bounds, debugged or not. Only wrapping bounds have the fault that there is no zero, and they have no
other. -/
theorem fatal_restricts_wrap (w : CellWidth) (size : Nat) (program : Program) {τ : Type} [Console τ]
    (c : τ) :
    (∀ n, (∀ k ≤ n, ∀ e,
        ((.new size .fatal : Machine w).turnAt program k c).verdict ≠ .faulted e) →
      ((.new size .wrap : Machine w).turnAt program n c).sight =
        ((.new size .fatal : Machine w).turnAt program n c).sight) ∧
    (∀ kill fuel progress, (∀ e,
        (execute program kill fuel progress (.new size .fatal : Machine w) c).ending ≠
          .ended (.failed e)) →
      execute program kill fuel progress (.new size .wrap : Machine w) c =
        (execute program kill fuel progress (.new size .fatal) c).mapMachine .wrapping) ∧
    (∀ bounds kill fuel progress e,
      (execute program kill fuel progress (.new size bounds : Machine w) c).ending =
        .ended (.failed e) → (e.fault = .noZeroCell ↔ bounds = .wrap)) ∧
    ∀ {config : DebugConfig} {source : String} {t : List Exchange} {d : Debugger config τ},
      (∀ ch (c : τ), (Console.put ch c).1 = true) → compile config.passes source = .ok program →
      Debugger.Interleaves source t d → d.worker = some .ended →
      ∃ status elapsed, d.control.report = some ⟨status, elapsed⟩ ∧
        (∀ e, status = .failed e → e.fault ≠ .noZeroCell) ∧
        (status = .completed → ∃ before, ∃ m : Machine config.machine.width,
          t = before ++ [.message (Report.line ⟨.completed, elapsed⟩)] ∧ d.control.Shows m ∧
          ∀ future, ∃ fuel progress,
            interpret { config.machine with bounds := .wrap } program never fuel {}
              (Recorded.script (Exchange.answers before ++ future)) =
                ⟨.ended .completed, m, ⟨⟨future⟩,
                  before ++ [.message (Report.line ⟨.completed, .zero⟩)]⟩, progress⟩) := by
  refine ⟨fun n h => ?_, fun kill fuel progress h => execute_wrapping rfl h,
    fun bounds kill fuel progress e h => execute_fault h, ?_⟩
  · have hturn := Machine.turnAt_wrapping (m := .new size .fatal) rfl h
    exact (congrArg Turn.sight hturn).trans (Turn.sight_mapMachine rfl rfl rfl)
  · intro config source t d hput hcompile hrun hended
    have hmirrors := hrun.mirrors hput hcompile
    rw [hended] at hmirrors
    cases hmirrors with
    | @ended m before errors status elapsed ht hends hreport htape he =>
      refine ⟨status, elapsed, hreport, fun e hfailed => ?_, fun hcompleted => ?_⟩
      · subst hfailed
        cases hends with
        | failed _ hs => simp [Machine.step_fault hs, ht.bounds]
      · subst hcompleted
        have herrors : errors = [] := by
          cases hends
          rfl
        subst herrors
        rw [List.append_nil] at he
        obtain ⟨c, seen, idle, acts, hhistory, -⟩ := hrun
        exact ⟨before, m.wrapping, he, ⟨ht.index, ht.pointer, htape⟩,
          ht.interpret_wrapping { config.machine with bounds := .wrap } hends rfl
            hhistory.allocate⟩

theorem fatal_restricts_wrap_last_cell :
    ((.new 2 .wrap : Machine .eight).turnAt ⟨#[.op (.add 1), .op (.scan .right)]⟩ 2
      (Buffered.withInput "")).sight.pointer = 1 ∧
    (∃ e, (execute ⟨#[.op (.add 1), .op (.scan .right)]⟩ never 2 {} (.new 1 .wrap : Machine .eight)
      (Buffered.withInput "")).ending = .ended (.failed e) ∧ e.fault = .noZeroCell) ∧
    ∃ t, ∃ d : Debugger { machine := { tapeSize := 2 } } Buffered,
      Debugger.Interleaves "+[>]" t d ∧ d.control.pointer = 1 ∧
      ∃ before elapsed fuel, t = before ++ [.message (Report.line ⟨.completed, elapsed⟩)] ∧
        (interpret { tapeSize := 2, bounds := .wrap } ⟨#[.op (.add 1), .op (.scan .right)]⟩ never
          fuel {} (Recorded.script (Exchange.answers before ++ []))).ending =
            .ended .completed := by
  obtain ⟨hstep, -, -, hdebug⟩ := fatal_restricts_wrap .eight 2
    ⟨#[.op (.add 1), .op (.scan .right)]⟩ (Buffered.withInput "")
  obtain ⟨-, -, hfault, -⟩ := fatal_restricts_wrap .eight 1
    ⟨#[.op (.add 1), .op (.scan .right)]⟩ (Buffered.withInput "")
  refine ⟨?_, ⟨_, rfl, (hfault .wrap never 2 {} _ rfl).mpr rfl⟩, ?_⟩
  · rw [hstep 2 fun k hk e he => ?_]
    · rfl
    · obtain rfl | rfl | rfl : k = 0 ∨ k = 1 ∨ k = 2 := by omega
      all_goals cases he
  · let new : Debugger { machine := { tapeSize := 2 } } Buffered := .new 0 (.withInput "")
    have hended : Debugger.Interleaves "+[>]" _ _ := ⟨_, _, new,
      [.advance, .advance, .advance, .advance, .advance, .advance], .new rfl, rfl, by decide, rfl,
      rfl⟩
    obtain ⟨status, elapsed, hreport, -, hcompleted⟩ := hdebug (fun _ _ => rfl) rfl hended rfl
    obtain ⟨before, m, ht, -, hx⟩ := hcompleted (by cases hreport; rfl)
    obtain ⟨fuel, progress, hx⟩ := hx []
    exact ⟨_, _, hended, rfl, before, elapsed, fuel, ht, congrArg Outcome.ending hx⟩

end TapeLang
