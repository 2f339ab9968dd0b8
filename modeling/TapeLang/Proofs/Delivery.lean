import TapeLang.Proofs.Batches
import TapeLang.Proofs.Filling
import TapeLang.Proofs.Rewriting
import TapeLang.Target

/-! # Delivery

What reaches the sink. A generation that ends well has written the whole text of its program. One
that is cut short, by a full sink or by the cancel signal, has written the first part of it: up to
the last byte that has room, or up to the batch before which the signal was seen.
-/

namespace TapeLang

namespace Plan

variable (target : Target) (config : Config) {p : Program} {b : Block} {sink : Sink} {j k : Nat}

/-- The shares reported for the first `k` batches. -/
def batchShares (p : Program) (k : Nat) : List BinaryNumber :=
  (List.range k).map fun j => fraction (p.doneAfter (j + 1)) p.size

theorem writes_piecesAt (p : Program) (k : Nat) :
    ∀ task ∈ piecesAt target config p k, ∃ piece, task = .write piece := by
  unfold piecesAt pieces
  cases p.get? k with
  | none => rintro _ ⟨⟩
  | some i =>
    simp only [List.mem_flatMap]
    rintro task ⟨line, -, hmem⟩
    simp only [List.mem_cons, List.not_mem_nil, or_false] at hmem
    rcases hmem with rfl | rfl | rfl <;> exact ⟨_, rfl⟩

theorem batch_eq (p : Program) (k : Nat) :
    ∃ tasks, (∀ task ∈ tasks, ∃ piece, task = .write piece) ∧
      batch target config p k =
        .check (batchSize * k) :: (tasks ++ [.report (p.doneAfter (k + 1))]) := by
  refine ⟨_, fun task hmem => ?_, rfl⟩
  obtain ⟨j, -, hmem⟩ := List.mem_flatMap.mp hmem
  exact writes_piecesAt target config p j task hmem

theorem tasks_eq_check (hk : k < (Program.ofBlock b).batches) :
    ∃ rest, tasks target config (.ofBlock b) =
      tasksUpTo target config (.ofBlock b) k ++ .check (batchSize * k) :: rest := by
  rw [tasks_eq_append target config (Nat.le_of_lt hk), tasksFrom_batch target config hk]
  exact ⟨_, rfl⟩

theorem shares_tasksUpTo (p : Program) (k : Nat) :
    Task.shares p.size (tasksUpTo target config p k) = batchShares p k := by
  induction k with
  | zero => rfl
  | succ k ih =>
    obtain ⟨tasks, hwrites, hbatch⟩ := batch_eq target config p k
    have htasks : Task.shares p.size tasks = [] := by
      refine List.filterMap_eq_nil_iff.mpr fun task hmem => ?_
      obtain ⟨piece, rfl⟩ := hwrites task hmem
      rfl
    rw [tasksUpTo_succ, Task.shares_append, ih, hbatch, batchShares, batchShares, List.range_succ,
      List.map_append]
    congr 1
    exact (Task.shares_append _ tasks _).trans (by rw [htasks]; rfl)

/-- The number of batches, of the first `k`, whose text has room. -/
def batchesHeld (p : Program) (sink : Sink) (k : Nat) : Nat :=
  (List.range k).countP fun j => sink.holds (textBefore target config p (j + 1)).toUTF8

theorem holds_textBefore (hjk : j ≤ k)
    (h : sink.holds (textBefore target config p k).toUTF8 = true) :
    sink.holds (textBefore target config p j).toUTF8 = true := by
  obtain ⟨d, hd⟩ : ∃ d, p.doneAfter k = p.doneAfter j + d := by
    refine ⟨p.doneAfter k - p.doneAfter j, ?_⟩
    simp only [Program.doneAfter, batchSize]
    omega
  rw [textBefore, hd, firstLines_add, linesOf_append, ← String.append_assoc, ← textBefore,
    String.toUTF8_eq_toByteArray, String.toByteArray_append] at h
  exact Sink.holds_left h

theorem batchesHeld_of_holds (h : sink.holds (textBefore target config p k).toUTF8 = true) :
    batchesHeld target config p sink k = k := by
  rw [batchesHeld, List.countP_eq_length.mpr, List.length_range]
  intro j hj
  exact holds_textBefore target config (List.mem_range.mp hj) h

theorem batchesHeld_succ_of_not_holds
    (h : sink.holds (textBefore target config p (k + 1)).toUTF8 = false) :
    batchesHeld target config p sink (k + 1) = batchesHeld target config p sink k := by
  rw [batchesHeld, List.range_succ, List.countP_append, List.countP_singleton, h]
  rfl

end Plan

namespace Generation

variable (target : Target) (config : Config) {p : Program} {b : Block} {sink : Sink} {k : Nat}
  {cancel : Generation → Bool}

/-- Nothing done yet. -/
def start (p : Program) (sink : Sink) : Generation :=
  { total := p.size, sink, notes := [.generating p.size target.name config.width] }

/-- What is done when a generation that goes on looks at the signal before batch `k`. -/
def beforeBatch (p : Program) (sink : Sink) (k : Nat) : Generation :=
  ((start target config p sink).run (fun _ => false)
    ((Plan.tasks target config p).takeWhile (· ≠ .check (batchSize * k)))).2

theorem takeWhile_tasks (hk : k < (Program.ofBlock b).batches) :
    (Plan.tasks target config (.ofBlock b)).takeWhile (· ≠ .check (batchSize * k)) =
      Plan.tasksUpTo target config (.ofBlock b) k := by
  have hbefore : ∀ task ∈ Plan.tasksUpTo target config (.ofBlock b) k,
      decide (task ≠ .check (batchSize * k)) = true := by
    intro task hmem
    rw [decide_eq_true_eq]
    rintro rfl
    obtain hopening | hmem := List.mem_cons.mp hmem
    · cases hopening
    · obtain ⟨j, hj, hmem⟩ := List.mem_flatMap.mp hmem
      obtain ⟨tasks, hwrites, hbatch⟩ := Plan.batch_eq target config (.ofBlock b) j
      rw [hbatch] at hmem
      obtain hcheck | hmem := List.mem_cons.mp hmem
      · have hlt := List.mem_range.mp hj
        have heq := Task.check.inj hcheck
        simp only [batchSize] at heq
        omega
      · obtain hmem | hreport := List.mem_append.mp hmem
        · obtain ⟨piece, hpiece⟩ := hwrites _ hmem
          cases hpiece
        · cases List.mem_singleton.mp hreport
  obtain ⟨rest, htasks⟩ := Plan.tasks_eq_check target config hk
  rw [htasks, List.takeWhile_append_of_pos hbefore]
  simp

/-- A signal that was not seen before the first `k` batches has changed nothing so far. -/
theorem run_tasksUpTo (hk : k ≤ (Program.ofBlock b).batches)
    (hseen : ∀ j < k, cancel (beforeBatch target config (.ofBlock b) sink j) = false) :
    (start target config (.ofBlock b) sink).run cancel
        (Plan.tasksUpTo target config (.ofBlock b) k) =
      (start target config (.ofBlock b) sink).run (fun _ => false)
        (Plan.tasksUpTo target config (.ofBlock b) k) := by
  induction k with
  | zero => rfl
  | succ k ih =>
    have hunseen := hseen k (Nat.lt_succ_self k)
    rw [beforeBatch, takeWhile_tasks target config hk] at hunseen
    rw [Plan.tasksUpTo_succ, run_append, run_append,
      ih (Nat.le_of_succ_le hk) fun j hj => hseen j (Nat.lt_succ_of_lt hj)]
    generalize (start target config (.ofBlock b) sink).run (fun _ => false)
      (Plan.tasksUpTo target config (.ofBlock b) k) = result at hunseen ⊢
    obtain ⟨_ | _ | _, g⟩ := result
    · obtain ⟨tasks, hwrites, hbatch⟩ := Plan.batch_eq target config (.ofBlock b) k
      simp only [hbatch, run, hunseen, Bool.false_eq_true, if_false]
      refine run_of_no_check (fun done hmem => ?_) _ _ _
      obtain hmem | hreport := List.mem_append.mp hmem
      · obtain ⟨piece, hpiece⟩ := hwrites _ hmem
        cases hpiece
      · cases List.mem_singleton.mp hreport
    · rfl
    · rfl

theorem reached_start (hplain : sink.Plain) :
    Reached sink p.size .empty [] (start target config p sink) := by
  refine ⟨rfl, ⟨sink.watched, ?_⟩, rfl⟩
  rw [← hplain.bytes]
  rfl

theorem run_tasksUpTo_of_holds (hplain : sink.Plain) (hk : k ≤ p.batches)
    (hholds : sink.holds (Plan.textBefore target config p k).toUTF8 = true) :
    ∃ g, (start target config p sink).run (fun _ => false) (Plan.tasksUpTo target config p k) =
        (.done, g) ∧
      Reached sink p.size (Plan.textBefore target config p k).toUTF8 (Plan.batchShares p k) g := by
  have htext := Plan.text_tasksUpTo target config hk
  obtain ⟨g, hrun, hreached⟩ := (reached_start target config hplain).run_of_holds hplain
    (Plan.tasksUpTo target config p k) (by rwa [htext, ByteArray.empty_append])
  rw [htext, ByteArray.empty_append, Plan.shares_tasksUpTo, List.nil_append] at hreached
  exact ⟨g, hrun, hreached⟩

theorem run_tasksUpTo_of_not_holds (hplain : sink.Plain) (hk : k ≤ p.batches)
    (hnot : sink.holds (Plan.textBefore target config p k).toUTF8 = false) :
    ∃ g, (start target config p sink).run (fun _ => false) (Plan.tasksUpTo target config p k) =
        (.failed (.sink sink.fullReason), g) ∧
      Reached sink p.size (sink.kept (Plan.textBefore target config p k).toUTF8)
        (Plan.batchShares p (Plan.batchesHeld target config p sink k)) g := by
  induction k with
  | zero =>
    have htext := Plan.text_tasksUpTo target config (Nat.zero_le p.batches)
    have hwrites : ∀ task ∈ Plan.tasksUpTo target config p 0, ∃ piece, task = .write piece := by
      simp [Plan.tasksUpTo]
    obtain ⟨g, hrun, hreached⟩ := (reached_start target config hplain).run_of_not_holds hplain
      hwrites sink.holds_empty (by rwa [htext, ByteArray.empty_append]) (fun _ => false)
    rw [htext, ByteArray.empty_append] at hreached
    exact ⟨g, hrun, hreached⟩
  | succ k ih =>
    obtain ⟨tasks, hwrites, hbatch⟩ := Plan.batch_eq target config p k
    have hnext : (Plan.textBefore target config p (k + 1)).toUTF8 =
        (Plan.textBefore target config p k).toUTF8 ++ (Task.text tasks).toUTF8 := by
      rw [← Plan.text_batch target config hk, hbatch, Task.text_cons, Task.text_append]
      simp [Task.piece, Task.text]
    rw [Plan.batchesHeld_succ_of_not_holds target config hnot, Plan.tasksUpTo_succ]
    rw [hnext] at hnot ⊢
    cases hholds : sink.holds (Plan.textBefore target config p k).toUTF8 with
    | true =>
      -- The sink fills up within batch `k`.
      obtain ⟨g, hrun, hreached⟩ :=
        run_tasksUpTo_of_holds target config hplain (Nat.le_of_succ_le hk) hholds
      obtain ⟨g', hrun', hreached'⟩ :=
        hreached.run_of_not_holds hplain hwrites hholds hnot (fun _ => false)
      rw [Plan.batchesHeld_of_holds target config hholds, run_append_of_done hrun, hbatch]
      exact ⟨g', run_append_of_failed hrun' _, hreached'⟩
    | false =>
      obtain ⟨g, hrun, hreached⟩ := ih (Nat.le_of_succ_le hk) hholds
      rw [run_append_of_failed hrun, Sink.kept_append hholds]
      exact ⟨g, rfl, hreached⟩

theorem generate_of_unseen (hplain : sink.Plain)
    (hseen : ∀ k < (Program.ofBlock b).batches,
      cancel (beforeBatch target config (.ofBlock b) sink k) = false) :
    ∃ g,
      generate target config (.ofBlock b) cancel sink =
        (if sink.holds (Plan.fullText target config (.ofBlock b)).toUTF8 then .done
          else .failed (.sink sink.fullReason), g) ∧
      Reached sink (Program.ofBlock b).size
        (sink.kept (Plan.fullText target config (.ofBlock b)).toUTF8)
        (Plan.batchShares (.ofBlock b)
            (Plan.batchesHeld target config (.ofBlock b) sink (Program.ofBlock b).batches) ++
          if sink.holds (Plan.fullText target config (.ofBlock b)).toUTF8 then [fraction 1 1]
          else []) g := by
  have hrun := run_tasksUpTo target config (Nat.le_refl _) hseen
  have hfull : (Plan.fullText target config (.ofBlock b)).toUTF8 =
      (Plan.textBefore target config (.ofBlock b) (Program.ofBlock b).batches).toUTF8 ++
        (target.closing config).toUTF8 := by
    rw [← Plan.textBefore_batches]
    simp
  change ∃ g, (start target config (.ofBlock b) sink).run cancel _ = _ ∧ _
  rw [Plan.tasks_eq, hfull]
  cases hholds : sink.holds
      (Plan.textBefore target config (.ofBlock b) (Program.ofBlock b).batches).toUTF8 with
  | true =>
    obtain ⟨g, hdone, hreached⟩ :=
      run_tasksUpTo_of_holds target config hplain (Nat.le_refl _) hholds
    rw [run_append_of_done (hrun.trans hdone), Plan.batchesHeld_of_holds target config hholds]
    cases hclosing : sink.holds
        ((Plan.textBefore target config (.ofBlock b) (Program.ofBlock b).batches).toUTF8 ++
          (target.closing config).toUTF8) with
    | true =>
      obtain ⟨g', hrun', hreached'⟩ := hreached.run_of_holds hplain
        [.write (target.closing config), .flush, .complete]
        (by simpa [Task.text, Task.piece] using hclosing)
      rw [Sink.kept_of_holds hclosing]
      refine ⟨g', (run_of_no_check (by simp) _ _ _).trans hrun', ?_⟩
      simpa [Task.text, Task.piece, Task.shares] using hreached'
    | false =>
      have hwrites : ∀ task ∈ [Task.write (target.closing config)],
          ∃ piece, task = .write piece := by simp
      obtain ⟨g', hrun', hreached'⟩ := hreached.run_of_not_holds hplain hwrites hholds
        (by simpa [Task.text, Task.piece] using hclosing) cancel
      refine ⟨g', run_append_of_failed hrun' [.flush, .complete], ?_⟩
      simpa [Task.text, Task.piece] using hreached'
  | false =>
    obtain ⟨g, hfailed, hreached⟩ :=
      run_tasksUpTo_of_not_holds target config hplain (Nat.le_refl _) hholds
    have hclosing : ¬ sink.holds
        ((Plan.textBefore target config (.ofBlock b) (Program.ofBlock b).batches).toUTF8 ++
          (target.closing config).toUTF8) = true := by
      intro hall
      rw [Sink.holds_left hall] at hholds
      cases hholds
    rw [Sink.kept_append hholds, if_neg hclosing, if_neg hclosing, List.append_nil]
    exact ⟨g, run_append_of_failed (hrun.trans hfailed) _, hreached⟩

/-- A generation during which the signal is seen, for the first time before batch `k`. -/
theorem generate_of_seen (hplain : sink.Plain) (hk : k < (Program.ofBlock b).batches)
    (hseen : cancel (beforeBatch target config (.ofBlock b) sink k) = true)
    (hunseen : ∀ j < k, cancel (beforeBatch target config (.ofBlock b) sink j) = false) :
    ∃ g,
      generate target config (.ofBlock b) cancel sink =
        (if sink.holds (Plan.textBefore target config (.ofBlock b) k).toUTF8 then
            .failed .cancelled
          else .failed (.sink sink.fullReason), g) ∧
      Reached sink (Program.ofBlock b).size
        (sink.kept (Plan.textBefore target config (.ofBlock b) k).toUTF8)
        (Plan.batchShares (.ofBlock b)
          (Plan.batchesHeld target config (.ofBlock b) sink k)) g := by
  obtain ⟨rest, htasks⟩ := Plan.tasks_eq_check target config hk
  rw [beforeBatch, takeWhile_tasks target config hk] at hseen
  have hrun := run_tasksUpTo target config (Nat.le_of_lt hk) hunseen
  change ∃ g, (start target config (.ofBlock b) sink).run cancel _ = _ ∧ _
  rw [htasks]
  cases hholds : sink.holds (Plan.textBefore target config (.ofBlock b) k).toUTF8 with
  | true =>
    obtain ⟨g, hdone, hreached⟩ :=
      run_tasksUpTo_of_holds target config hplain (Nat.le_of_lt hk) hholds
    rw [hdone] at hseen hrun
    rw [run_append_of_done hrun, Sink.kept_of_holds hholds,
      Plan.batchesHeld_of_holds target config hholds, if_pos rfl]
    exact ⟨_, if_pos hseen, hreached.total, hreached.sink, hreached.reported⟩
  | false =>
    obtain ⟨g, hfailed, hreached⟩ :=
      run_tasksUpTo_of_not_holds target config hplain (Nat.le_of_lt hk) hholds
    exact ⟨g, run_append_of_failed (hrun.trans hfailed) _, hreached⟩

end Generation

/-- A generation that ends well has written the whole text. Into an empty sink it writes what has
room of the text, or of the batches before the one at which the signal is first seen, and it ends
with the sink's error exactly if there is no room. -/
theorem generation_delivers_text {passes : Passes} {source : String} {p : Program}
    (h : compile passes source = .ok p) (target : Target) (config : Config) :
    (∀ k start, p.get? k = some (.loopEnd start) → 0 < p.depthBefore 1 k) ∧
    (∀ cancel sink g, generate target config p cancel sink = (.done, g) →
      g.sink.bytes = sink.bytes ++ (Plan.fullText target config p).toUTF8) ∧
    ∀ (cancel : Generation → Bool) (sink : Sink), sink.Plain →
      let result := generate target config p cancel sink
      let seen := fun k => cancel (Generation.beforeBatch target config p sink k)
      let held := Plan.batchesHeld target config p sink
      ((∀ k < p.batches, seen k = false) →
        let full := (Plan.fullText target config p).toUTF8
        result.1 = (if sink.holds full then .done else .failed (.sink sink.fullReason)) ∧
        result.2.sink.bytes = sink.kept full ∧
        result.2.reported.reverse = Plan.batchShares p (held p.batches) ++
          if sink.holds full then [fraction 1 1] else []) ∧
      (∀ k < p.batches, seen k = true → (∀ j < k, seen j = false) →
        let text := (Plan.textBefore target config p k).toUTF8
        result.1 = (if sink.holds text then .failed .cancelled
          else .failed (.sink sink.fullReason)) ∧
        result.2.sink.bytes = sink.kept text ∧
        result.2.reported.reverse = Plan.batchShares p (held k)) := by
  obtain ⟨b, -, rfl⟩ := compile_eq_ok_iff.mp h
  refine ⟨fun k start hk => ?_, fun cancel sink g hrun => ?_, fun cancel sink hplain => ⟨?_, ?_⟩⟩
  · rw [Program.depthBefore_eq hk]
    exact Nat.succ_pos _
  · have htext := Generation.bytes_of_done hrun
    rwa [Plan.text_tasks_ofBlock] at htext
  · intro hseen
    obtain ⟨g, hrun, hreached⟩ := Generation.generate_of_unseen target config hplain hseen
    obtain ⟨watched, hsink⟩ := hreached.sink
    exact ⟨congrArg Prod.fst hrun, by rw [hrun, hsink], by rw [hrun, hreached.reported]⟩
  · intro k hk hseen hunseen
    obtain ⟨g, hrun, hreached⟩ := Generation.generate_of_seen target config hplain hk hseen hunseen
    obtain ⟨watched, hsink⟩ := hreached.sink
    exact ⟨congrArg Prod.fst hrun, by rw [hrun, hsink], by rw [hrun, hreached.reported]⟩

theorem generation_delivers_text_cut_short :
    let p : Program := ⟨#[.loopStart 2, .op (.add 1), .loopEnd 0]⟩
    let target := Target.custom { opening := "begin\n", closing := "end\n", indentation := " " }
    let full := "begin\n loop-start -> 2\n  data +1\n loop-end -> 0\nend\n"
    compile .none "[+]" = .ok p ∧ 0 < p.depthBefore 1 2 ∧
      (generate target {} p (fun _ => false) {}).2.sink.bytes = full.toUTF8 ∧
      (generate target {} p (fun _ => false) {}).2.reported.reverse =
        [fraction 3 3, fraction 1 1] ∧
      (generate target {} p (fun _ => false) { capacity := some 30 }).1 =
        .failed (.sink "disk full") ∧
      (generate target {} p (fun _ => false) { capacity := some 30 }).2.sink.bytes =
        "begin\n loop-start -> 2\n  data ".toUTF8 ∧
      (generate target {} p (fun _ => true) {}).1 = .failed .cancelled ∧
      (generate target {} p (fun _ => true) {}).2.sink.bytes = "begin\n".toUTF8 := by
  intro p target full
  have h : compile .none "[+]" = .ok p := rfl
  have hfull : Plan.fullText target {} p = full := by decide +kernel
  have hbegin : Plan.textBefore target {} p 0 = "begin\n" := by decide +kernel
  have hroom : ({ capacity := some 30 } : Sink).holds full.toUTF8 = false := by decide +kernel
  have hplain (capacity : Option Nat) : ({ capacity } : Sink).Plain := ⟨rfl, rfl, rfl⟩
  obtain ⟨hdepth, hdone, hends⟩ := generation_delivers_text h target {}
  obtain ⟨hwhole, -, hshares⟩ := (hends (fun _ => false) {} (hplain none)).1 fun _ _ => rfl
  obtain ⟨hshort, hcut, -⟩ := (hends (fun _ => false) _ (hplain (some 30))).1 fun _ _ => rfl
  obtain ⟨hcancelled, hopening, -⟩ := (hends (fun _ => true) {} (hplain none)).2 0 (by decide) rfl
    fun j hj => absurd hj (Nat.not_lt_zero j)
  have hbytes := hdone _ _ _ (Prod.ext hwhole rfl)
  rw [hfull] at hbytes hcut
  rw [hfull, hroom] at hshort
  rw [hbegin] at hopening
  exact ⟨h, hdepth 2 0 rfl, hbytes.trans ByteArray.empty_append, hshares.trans (by decide +kernel),
    hshort, hcut.trans (by decide +kernel), hcancelled, hopening⟩

end TapeLang
