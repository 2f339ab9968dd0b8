import TapeLang.Proofs.Emission

/-! # Filling a sink

A sink that is limited by its capacity alone takes the first bytes of what it is offered, however
this is cut into pieces. A run of tasks goes through if all of its text has room, and otherwise ends
with the sink full.
-/

namespace TapeLang

namespace Sink

/-- An empty sink, limited by nothing but its capacity. -/
structure Plain (sink : Sink) : Prop where
  bytes : sink.bytes = .empty
  flushFailure : sink.flushFailure = none
  breaksAt : sink.breaksAt = none

/-- Whether a text has room in an empty sink. -/
def holds (sink : Sink) (text : ByteArray) : Bool :=
  match sink.capacity with
  | some c => text.size ≤ c
  | none => true

/-- What an empty sink takes of a text. -/
def kept (sink : Sink) (text : ByteArray) : ByteArray :=
  match sink.capacity with
  | some c => text.extract 0 (min c text.size)
  | none => text

variable {sink sink' : Sink} {bytes text : ByteArray} {piece : String}

theorem holds_left (h : sink.holds (bytes ++ text) = true) : sink.holds bytes = true := by
  unfold holds at h ⊢
  cases hc : sink.capacity with
  | none => rfl
  | some c =>
    simp only [hc, decide_eq_true_eq, ByteArray.size_append] at h ⊢
    omega

theorem holds_empty (sink : Sink) : sink.holds .empty = true := by
  unfold holds
  cases sink.capacity with
  | none => rfl
  | some c => simp

theorem kept_of_holds (h : sink.holds text = true) : sink.kept text = text := by
  unfold holds kept at *
  cases hc : sink.capacity with
  | none => rfl
  | some c =>
    simp only [hc, decide_eq_true_eq] at h
    simp only [Nat.min_eq_right h, ByteArray.extract_zero_size]

theorem kept_append (h : sink.holds bytes = false) :
    sink.kept (bytes ++ text) = sink.kept bytes := by
  unfold holds kept at *
  cases hc : sink.capacity with
  | none => simp [hc] at h
  | some c =>
    simp only [hc, decide_eq_false_iff_not, Nat.not_le] at h
    have hmin : min c (bytes ++ text).size = c := by rw [ByteArray.size_append]; omega
    simp only [hmin, Nat.min_eq_left (Nat.le_of_lt h), ByteArray.extract_append]
    have hempty : text.extract (0 - bytes.size) (c - bytes.size) = .empty := by
      rw [ByteArray.extract_eq_empty_iff]
      omega
    rw [hempty, ByteArray.append_empty]

theorem extract_of_size_le {n : Nat} (h : bytes.size ≤ n) : bytes.extract 0 n = bytes :=
  calc bytes.extract 0 n
      = (bytes.extract 0 bytes.size).extract 0 n := by rw [ByteArray.extract_zero_size]
    _ = bytes.extract 0 bytes.size := by
      rw [ByteArray.extract_extract, Nat.zero_add, Nat.zero_add, Nat.min_eq_right h]
    _ = bytes := ByteArray.extract_zero_size

theorem extract_fitting (hholds : sink.holds bytes = true) :
    bytes ++ text.extract 0 (fitting sink.capacity bytes.size text.size) =
      sink.kept (bytes ++ text) := by
  unfold holds kept fitting at *
  cases hc : sink.capacity with
  | none => simp only [ByteArray.extract_zero_size]
  | some c =>
    simp only [hc, decide_eq_true_eq] at hholds
    simp only [ByteArray.extract_append, ByteArray.size_append]
    have hbytes : bytes.extract 0 (min c (bytes.size + text.size)) = bytes :=
      extract_of_size_le (by omega)
    have hlength : min c (bytes.size + text.size) - bytes.size =
        min text.size (c - bytes.size) := by omega
    rw [hbytes, hlength, Nat.zero_sub]

theorem fitting_lt_iff (hholds : sink.holds bytes = true) :
    fitting sink.capacity bytes.size text.size < text.size ↔
      sink.holds (bytes ++ text) = false := by
  unfold holds fitting at *
  cases hc : sink.capacity with
  | none => simp
  | some c =>
    simp only [hc, decide_eq_true_eq, decide_eq_false_iff_not, ByteArray.size_append] at hholds ⊢
    omega

/-- One piece, offered to a sink that holds what it was offered before. -/
theorem write_eq (hbreaks : sink.breaksAt = none) (hholds : sink.holds bytes = true)
    (watched : Bool) (piece : String) :
    ∃ watched',
      ({ sink with bytes, watched } : Sink).write piece =
        (if sink.holds (bytes ++ piece.toUTF8) then none else some (.refused sink.fullReason),
          { sink with bytes := sink.kept (bytes ++ piece.toUTF8), watched := watched' }) := by
  by_cases hempty : piece.toUTF8.size = 0
  · refine ⟨watched, ?_⟩
    rw [ByteArray.size_eq_zero_iff.mp hempty, ByteArray.append_empty, if_pos hholds,
      kept_of_holds hholds]
    exact if_pos hempty
  · refine ⟨watched || reached sink.watch bytes.size, ?_⟩
    simp only [Sink.write, if_neg hempty, hbreaks, reached, Bool.false_eq_true, if_false,
      extract_fitting hholds, fitting_lt_iff hholds]
    cases sink.holds (bytes ++ piece.toUTF8) <;> rfl

theorem fitting_le (capacity : Option Nat) (size n : Nat) : fitting capacity size n ≤ n := by
  cases capacity with
  | none => exact Nat.le_refl n
  | some c => exact Nat.min_le_left n (c - size)

theorem bytes_write (h : sink.write piece = (none, sink')) :
    sink'.bytes = sink.bytes ++ piece.toUTF8 := by
  by_cases hempty : piece.toUTF8.size = 0
  · rw [Sink.write, if_pos hempty] at h
    cases h
    rw [ByteArray.size_eq_zero_iff.mp hempty, ByteArray.append_empty]
  · simp only [Sink.write, if_neg hempty] at h
    split at h
    · cases h
    · obtain ⟨hnone, rfl⟩ := Prod.mk.inj h
      have hall : ¬ fitting sink.capacity sink.bytes.size piece.toUTF8.size <
          piece.toUTF8.size := by
        intro hlt
        rw [if_pos hlt] at hnone
        cases hnone
      have hn := Nat.le_antisymm (fitting_le _ _ _) (Nat.not_lt.mp hall)
      simp only [hn, ByteArray.extract_zero_size]

end Sink

/-- The shares that tasks report. -/
def Task.shares (total : Nat) (tasks : List Task) : List BinaryNumber :=
  tasks.filterMap fun
    | .report done => some (fraction done total)
    | .complete => some (fraction 1 1)
    | _ => none

theorem Task.text_cons_of_silent {task : Task} (h : task.piece = "") (tasks : List Task) :
    text (task :: tasks) = text tasks := by
  rw [text_cons, h, String.empty_append]

theorem Task.shares_append (total : Nat) (tasks tasks' : List Task) :
    shares total (tasks ++ tasks') = shares total tasks ++ shares total tasks' :=
  List.filterMap_append

namespace Generation

variable {cancel : Generation → Bool} {g g' : Generation} {ending : GenerationEnd}

theorem stopFor_ne_done (error : SinkError) : stopFor error ≠ .done := by
  cases error <;> exact GenerationEnd.noConfusion

theorem write_ne_done {piece : String} (h : g.write piece = (some ending, g')) :
    ending ≠ .done := by
  obtain ⟨error, -, rfl⟩ := Option.map_eq_some_iff.mp (congrArg Prod.fst h)
  exact stopFor_ne_done error

theorem run_append (cancel : Generation → Bool) (xs ys : List Task) (g : Generation) :
    g.run cancel (xs ++ ys) =
      match g.run cancel xs with
      | (.done, g') => g'.run cancel ys
      | stopped => stopped := by
  have hstopped {ending : GenerationEnd} (g : Generation) (h : ending ≠ .done) :
      (ending, g) = match (ending, g) with
        | (.done, g') => g'.run cancel ys
        | stopped => stopped := by
    cases ending with
    | done => exact (h rfl).elim
    | _ => rfl
  induction xs generalizing g with
  | nil => rfl
  | cons task xs ih =>
    cases task with
    | write piece =>
      rw [List.cons_append, run, run]
      rcases hw : g.write piece with ⟨_ | ending, g'⟩
      · exact ih g'
      · exact hstopped g' (write_ne_done hw)
    | check done =>
      rw [List.cons_append, run, run]
      split
      · rfl
      · exact ih g
    | report done => exact ih _
    | flush =>
      rw [List.cons_append, run, run]
      cases g.sink.flush with
      | none => exact ih g
      | some error => exact hstopped g (stopFor_ne_done error)
    | complete => exact ih _

theorem run_append_of_done {xs : List Task} (h : g.run cancel xs = (.done, g')) (ys : List Task) :
    g.run cancel (xs ++ ys) = g'.run cancel ys := by
  rw [run_append, h]

theorem run_append_of_failed {xs : List Task} {error : GenerationError}
    (h : g.run cancel xs = (.failed error, g')) (ys : List Task) :
    g.run cancel (xs ++ ys) = (.failed error, g') := by
  rw [run_append, h]

/-- Whatever the sink and the signal are like, a run that goes through has written everything. -/
theorem bytes_of_done {tasks : List Task} (h : g.run cancel tasks = (.done, g')) :
    g'.sink.bytes = g.sink.bytes ++ (Task.text tasks).toUTF8 := by
  induction tasks generalizing g with
  | nil =>
    cases h
    simp [Task.text]
  | cons task tasks ih =>
    cases task with
    | write piece =>
      rw [run] at h
      rcases hw : g.write piece with ⟨_ | ending, g₁⟩
      · have hwrite : g.sink.write piece = (none, g₁.sink) :=
          Prod.ext (Option.map_eq_none_iff.mp (congrArg Prod.fst hw))
            (congrArg (fun r => r.2.sink) hw)
        rw [hw] at h
        rw [ih h, Sink.bytes_write hwrite, Task.text_cons]
        simp [Task.piece, ByteArray.append_assoc]
      · rw [hw] at h
        exact (write_ne_done hw (congrArg Prod.fst h)).elim
    | check done =>
      rw [run] at h
      split at h
      · cases h
      · rw [Task.text_cons_of_silent rfl]
        exact ih h
    | report done =>
      rw [run] at h
      have hrest := ih h
      rwa [Task.text_cons_of_silent rfl]
    | flush =>
      rw [run] at h
      cases hflush : g.sink.flush with
      | none =>
        rw [hflush] at h
        rw [Task.text_cons_of_silent rfl]
        exact ih h
      | some error =>
        rw [hflush] at h
        exact (stopFor_ne_done error (congrArg Prod.fst h)).elim
    | complete =>
      rw [run] at h
      have hrest := ih h
      rwa [Task.text_cons_of_silent rfl]

/-- A generation into an empty sink, after it was offered `bytes` and reported `shares`. -/
structure Reached (sink : Sink) (total : Nat) (bytes : ByteArray) (shares : List BinaryNumber)
    (g : Generation) : Prop where
  total : g.total = total
  sink : ∃ watched, g.sink = { sink with bytes, watched }
  reported : g.reported.reverse = shares

variable {sink : Sink} {total : Nat} {bytes : ByteArray} {shares : List BinaryNumber}
  {tasks : List Task}

theorem Reached.write (h : Reached sink total bytes shares g) (hplain : sink.Plain)
    (hholds : sink.holds bytes = true) (piece : String) :
    ∃ g', g.write piece =
        (if sink.holds (bytes ++ piece.toUTF8) then none
          else some (.failed (.sink sink.fullReason)), g') ∧
      Reached sink total (sink.kept (bytes ++ piece.toUTF8)) shares g' := by
  obtain ⟨total, _, reported, notes, shareAtWatch⟩ := g
  obtain ⟨rfl, ⟨watched, rfl⟩, rfl⟩ := h
  obtain ⟨watched', hwrite⟩ := Sink.write_eq hplain.breaksAt hholds watched piece
  simp only [Generation.write, hwrite]
  have hstop : Option.map stopFor (if sink.holds (bytes ++ piece.toUTF8) = true then none
        else some (.refused sink.fullReason)) =
      if sink.holds (bytes ++ piece.toUTF8) = true then none
        else some (.failed (.sink sink.fullReason)) := by
    cases sink.holds (bytes ++ piece.toUTF8) <;> rfl
  rw [hstop]
  exact ⟨_, rfl, rfl, ⟨watched', rfl⟩, rfl⟩

theorem Reached.run_of_holds (h : Reached sink total bytes shares g) (hplain : sink.Plain)
    (tasks : List Task) (hholds : sink.holds (bytes ++ (Task.text tasks).toUTF8) = true) :
    ∃ g', g.run (fun _ => false) tasks = (.done, g') ∧
      Reached sink total (bytes ++ (Task.text tasks).toUTF8) (shares ++ Task.shares total tasks)
        g' := by
  induction tasks generalizing g bytes shares with
  | nil => exact ⟨g, rfl, by simpa [Task.text, Task.shares] using h⟩
  | cons task tasks ih =>
    cases task with
    | write piece =>
      have htext : bytes ++ (Task.text (.write piece :: tasks)).toUTF8 =
          (bytes ++ piece.toUTF8) ++ (Task.text tasks).toUTF8 := by
        simp [Task.text_cons, Task.piece, ByteArray.append_assoc]
      rw [htext] at hholds ⊢
      have hpiece := Sink.holds_left hholds
      obtain ⟨g₁, hwrite, h₁⟩ := h.write hplain (Sink.holds_left hpiece) piece
      rw [if_pos hpiece] at hwrite
      rw [Sink.kept_of_holds hpiece] at h₁
      simp only [run, hwrite]
      exact ih h₁ hholds
    | check done =>
      rw [Task.text_cons_of_silent rfl] at hholds ⊢
      exact ih h hholds
    | report done =>
      rw [Task.text_cons_of_silent rfl] at hholds ⊢
      have h₁ : Reached sink total bytes (shares ++ [fraction done total])
          { g.addNote (.generated done g.total) with
            reported := fraction done g.total :: g.reported } :=
        ⟨h.total, h.sink, by simp [h.reported, h.total]⟩
      obtain ⟨g', hrun, h'⟩ := ih h₁ hholds
      exact ⟨g', hrun, by simpa [Task.shares] using h'⟩
    | flush =>
      rw [Task.text_cons_of_silent rfl] at hholds ⊢
      obtain ⟨watched, hsink⟩ := h.sink
      have hflush : g.sink.flush = none := by simp [Sink.flush, hsink, hplain.flushFailure]
      simp only [run, hflush]
      exact ih h hholds
    | complete =>
      rw [Task.text_cons_of_silent rfl] at hholds ⊢
      have h₁ : Reached sink total bytes (shares ++ [fraction 1 1])
          { g with reported := fraction 1 1 :: g.reported } :=
        ⟨h.total, h.sink, by simp [h.reported]⟩
      obtain ⟨g', hrun, h'⟩ := ih h₁ hholds
      exact ⟨g', hrun, by simpa [Task.shares] using h'⟩

theorem Reached.run_of_not_holds (h : Reached sink total bytes shares g) (hplain : sink.Plain)
    {tasks : List Task} (hwrites : ∀ task ∈ tasks, ∃ piece, task = .write piece)
    (hholds : sink.holds bytes = true)
    (hnot : sink.holds (bytes ++ (Task.text tasks).toUTF8) = false) (cancel : Generation → Bool) :
    ∃ g', g.run cancel tasks = (.failed (.sink sink.fullReason), g') ∧
      Reached sink total (sink.kept (bytes ++ (Task.text tasks).toUTF8)) shares g' := by
  induction tasks generalizing g bytes with
  | nil => simp [Task.text, hholds] at hnot
  | cons task tasks ih =>
    obtain ⟨⟨piece, rfl⟩, hrest⟩ := List.forall_mem_cons.mp hwrites
    have htext : bytes ++ (Task.text (.write piece :: tasks)).toUTF8 =
        (bytes ++ piece.toUTF8) ++ (Task.text tasks).toUTF8 := by
      simp [Task.text_cons, Task.piece, ByteArray.append_assoc]
    rw [htext] at hnot ⊢
    obtain ⟨g₁, hwrite, h₁⟩ := h.write hplain hholds piece
    cases hpiece : sink.holds (bytes ++ piece.toUTF8) with
    | true =>
      rw [hpiece, if_pos rfl] at hwrite
      rw [Sink.kept_of_holds hpiece] at h₁
      simp only [run, hwrite]
      exact ih h₁ hrest hpiece hnot
    | false =>
      rw [hpiece, if_neg Bool.false_ne_true] at hwrite
      rw [Sink.kept_append hpiece]
      refine ⟨g₁, ?_, h₁⟩
      simp only [run, hwrite]

theorem run_of_no_check (hchecks : ∀ done, .check done ∉ tasks) (cancel cancel' : Generation → Bool)
    (g : Generation) : g.run cancel tasks = g.run cancel' tasks := by
  induction tasks generalizing g with
  | nil => rfl
  | cons task tasks ih =>
    have ih := ih fun done hmem => hchecks done (List.mem_cons_of_mem _ hmem)
    cases task with
    | write piece =>
      rw [run, run]
      rcases g.write piece with ⟨_ | ending, g'⟩
      · exact ih g'
      · rfl
    | check done => exact (hchecks done List.mem_cons_self).elim
    | report done => exact ih _
    | flush =>
      rw [run, run]
      cases g.sink.flush with
      | none => exact ih g
      | some error => rfl
    | complete => exact ih _

end Generation

end TapeLang
