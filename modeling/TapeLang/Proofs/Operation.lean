import TapeLang.Proofs.Rewriting
import TapeLang.Proofs.Transcript

/-! # Machines in operation

A machine that is stepped through programs and reset, in any order and with the program changed at
will, keeps its tape and stays on it. Nothing it does is a defect, and its index stays within the
longest of the programs.
-/

namespace TapeLang

variable {w : CellWidth} {τ : Type}

def Effect.memory : Effect w → Memory w
  | .done s | .write _ s | .read s | .pause s | .trap _ s => s

def Action.machine : Action w → Machine w
  | .halt m | .proceed m | .pause m | .write _ m | .read m | .fault _ m | .crash _ m => m

def Turn.machine : Turn w τ → Machine w
  | .moved _ m _ | .halted m _ | .blocked m _ | .faulted _ m _ | .crashed _ m _ => m

def Turn.console : Turn w τ → τ
  | .moved _ _ c | .halted _ c | .blocked _ c | .faulted _ _ c | .crashed _ _ c => c

theorem Program.paired_of_compile {passes : Passes} {source : String} {p : Program}
    (h : compile passes source = .ok p) : p.Paired := by
  obtain ⟨b, -, rfl⟩ := compile_eq_ok_iff.mp h
  exact ofBlock_paired _

theorem Program.lt_size_of_get? {p : Program} {i : Nat} {x : Instruction}
    (h : p.get? i = some x) : i < p.size := by
  rcases Nat.lt_or_ge i p.size with hlt | hge
  · exact hlt
  · rw [get?_eq_none_iff.mpr hge] at h
    cases h

namespace Tape

@[simp] theorem size_zeroed (t : Tape w) : t.zeroed.size = t.size := by
  simp [zeroed, size]

end Tape

namespace Memory

@[simp] theorem size_receive (s : Memory w) (input : Option Char) :
    (s.receive input).tape.size = s.tape.size := by
  simp [receive]

theorem size_perform (s : Memory w) (bounds : BoundsPolicy) (o : Op) :
    (s.perform bounds o).memory.tape.size = s.tape.size := by
  cases o with
  | move n =>
    rw [perform_move]
    split <;> rfl
  | scan d =>
    rw [perform_scan]
    split <;> rfl
  | breakpoint => rfl
  | add n =>
    simp only [perform]
    split
    · rfl
    · exact Tape.size_set _ _ _
  | clear =>
    simp only [perform]
    split
    · rfl
    · exact Tape.size_set _ _ _
  | input =>
    simp only [perform]
    split <;> rfl
  | output =>
    simp only [perform]
    split <;> rfl

theorem perform_eq_read {s t : Memory w} {bounds : BoundsPolicy} {o : Op}
    (h : s.perform bounds o = .read t) : o = .input ∧ t = s := by
  cases o with
  | move n =>
    rw [perform_move] at h
    split at h <;> cases h
  | scan d =>
    rw [perform_scan] at h
    split at h <;> cases h
  | breakpoint => cases h
  | input =>
    simp only [perform] at h
    split at h <;> cases h
    exact ⟨rfl, rfl⟩
  | _ =>
    simp only [perform] at h
    split at h <;> cases h

end Memory

namespace Machine

variable {p : Program} {m m' : Machine w}

theorem step_eq_read (h : m.step p = .read m') :
    p.get? m.index = some (.op .input) ∧ m' = m := by
  obtain ⟨s, i, bounds⟩ := m
  have hbranch (target : Nat) (jump : Cell w → Bool) :
      branch target jump ⟨s, i, bounds⟩ ≠ .read m' := by
    simp only [branch]
    split <;> simp
  simp only [step] at h
  split at h
  · cases h
  · next hi =>
    split at h <;> cases h
    next hread =>
      obtain ⟨rfl, rfl⟩ := Memory.perform_eq_read hread
      exact ⟨hi, rfl⟩
  · split at h
    · exact (hbranch _ _ h).elim
    · cases h
  · split at h
    · exact (hbranch _ _ h).elim
    · cases h

/-- A machine that waits stands at an input instruction, there is no input, and nothing has
changed. -/
theorem turn_eq_blocked [Console τ] {c c' : τ} (h : m.turn p c = .blocked m' c') :
    p.get? m.index = some (.op .input) ∧ Console.get? c = none ∧ m' = m ∧ c' = c := by
  unfold turn at h
  split at h
  · cases h
  · cases h
  · cases h
  · split at h <;> cases h
  · next hs =>
    split at h <;> cases h
    next hnone => exact ⟨(step_eq_read hs).1, hnone, (step_eq_read hs).2, rfl⟩
  · cases h
  · cases h

@[simp] theorem size_reset (m : Machine w) : m.reset.tape.size = m.tape.size :=
  Tape.size_zeroed m.tape

@[simp] theorem size_receive (m : Machine w) (input : Option Char) :
    (m.receive input).tape.size = m.tape.size :=
  Memory.size_receive m.memory input

theorem size_branch (m : Machine w) (target : Nat) (jump : Cell w → Bool) :
    (m.branch target jump).machine.tape.size = m.tape.size := by
  simp only [branch]
  split <;> rfl

theorem size_step (p : Program) (m : Machine w) :
    (m.step p).machine.tape.size = m.tape.size := by
  obtain ⟨s, i, bounds⟩ := m
  simp only [step]
  split
  · rfl
  · next o _ =>
    have hs := s.size_perform bounds o
    generalize s.perform bounds o = effect at hs
    cases effect with
    | trap trap t => cases trap <;> exact hs
    | _ => exact hs
  · split
    · exact size_branch _ _ _
    · rfl
  · split
    · exact size_branch _ _ _
    · rfl

theorem size_turn [Console τ] (p : Program) (m : Machine w) (c : τ) :
    (m.turn p c).machine.tape.size = m.tape.size := by
  have hs := size_step p m
  unfold turn
  generalize m.step p = action at hs
  cases action with
  | write ch m' =>
    dsimp only
    split <;> exact hs
  | read m' =>
    dsimp only
    split
    · exact (size_receive m' _).trans hs
    · exact hs
  | _ => exact hs

theorem index_branch_le {n : Nat} (target : Nat) (jump : Cell w → Bool) (ht : target < n)
    (hm : m.index < n) : (m.branch target jump).machine.index ≤ n := by
  simp only [branch]
  split
  · exact Nat.le_of_lt hm
  · dsimp only [Action.machine]
    split <;> omega

theorem index_step_le (hp : p.Paired) (hm : m.index < p.size) :
    (m.step p).machine.index ≤ p.size := by
  obtain ⟨s, i, bounds⟩ := m
  have hi : i < p.size := hm
  simp only [step]
  split
  · exact Nat.le_of_lt hm
  · split <;> dsimp only [Action.machine] <;> omega
  · next stop hi =>
    have hstop := (hp i).1 stop hi
    rw [if_pos hstop]
    exact index_branch_le stop _ (Program.lt_size_of_get? hstop) hm
  · next start hi =>
    have hstart := (hp i).2 start hi
    rw [if_pos hstart]
    exact index_branch_le start _ (Program.lt_size_of_get? hstart) hm

/-- From behind the end of a program nothing moves; a shorter program may be taken up there. -/
theorem index_turn_le [Console τ] (hp : p.Paired) (m : Machine w) (c : τ) :
    (m.turn p c).machine.index ≤ max m.index p.size := by
  rcases Nat.lt_or_ge m.index p.size with hlt | hge
  · have hs := index_step_le hp hlt
    have hread {m' : Machine w} (h : m.step p = .read m') : m' = m := (step_eq_read h).2
    unfold turn
    generalize m.step p = action at hs hread
    apply Nat.le_trans _ (Nat.le_max_right m.index p.size)
    cases action with
    | write ch m' =>
      dsimp only
      split <;> exact hs
    | read m' =>
      dsimp only
      split
      · rw [hread rfl]
        exact hlt
      · exact hs
    | _ => exact hs
  · have hhalt : m.step p = .halt m := by
      simp only [step, Program.get?_eq_none_iff.mpr hge]
    rw [turn_of_halt hhalt]
    exact Nat.le_max_left _ _

theorem step_of_faulted [Console τ] {c c' : τ} {e : BoundsError}
    (h : m.turn p c = .faulted e m' c') : m.step p = .fault e m' := by
  unfold turn at h
  split at h
  · cases h
  · cases h
  · cases h
  · split at h <;> cases h
  · split at h <;> cases h
  · next hs =>
    cases h
    exact hs
  · cases h

theorem tapeSize_of_fault {e : BoundsError} (h : m.step p = .fault e m') :
    e.tapeSize = m.tape.size := by
  obtain ⟨s, i, bounds⟩ := m
  have hbranch (target : Nat) (jump : Cell w → Bool) :
      branch target jump ⟨s, i, bounds⟩ ≠ .fault e m' := by
    simp only [branch]
    split <;> simp
  simp only [step] at h
  split at h
  · cases h
  · next o _ =>
    have hs := s.size_perform bounds o
    generalize s.perform bounds o = effect at hs h
    cases effect with
    | trap trap t =>
      cases trap with
      | fault f =>
        cases h
        exact hs
      | defect => cases h
    | _ => cases h
  · split at h
    · exact (hbranch _ _ h).elim
    · cases h
  · split at h
    · exact (hbranch _ _ h).elim
    · cases h

end Machine

theorem BoundsError.render_of_pos {e : BoundsError} (h : 0 < e.tapeSize) :
    e.render = .ok e.message := by
  have hne : ¬ (e.fault = .overflow ∧ e.tapeSize = 0) := fun hempty => by omega
  simp only [render, if_neg hne]

section

variable [Console τ] {programs : List Program} {size : Nat} {bounds : BoundsPolicy}
  {m : Machine w} {c : τ}

/-- A machine and its console after any steps through the programs and any resets. Between two
operations anything may happen to the console. -/
inductive Machine.Operated (programs : List Program) (size : Nat) (bounds : BoundsPolicy) :
    Machine w → τ → Prop
  | new (c : τ) : Operated programs size bounds (.new size bounds) c
  | step {m : Machine w} {c : τ} {p : Program} : p ∈ programs → Operated programs size bounds m c →
      Operated programs size bounds (m.turn p c).machine (m.turn p c).console
  | reset {m : Machine w} {c : τ} : Operated programs size bounds m c →
      Operated programs size bounds m.reset c
  | outside {m : Machine w} {c : τ} (c' : τ) : Operated programs size bounds m c →
      Operated programs size bounds m c'

theorem Machine.turn_onTape {p : Program} (hp : p.Paired) (hm : m.memory.OnTape)
    (hput : ∀ ch (c : τ), (Console.put ch c).1 = true) (c : τ) :
    (m.turn p c).machine.memory.OnTape := by
  rcases turn_safe hp hm hput c with ⟨event, m', c', ht, hm'⟩ | ht | hs | ⟨e, hs⟩
  · rw [ht]
    exact hm'
  · rw [ht]
    exact hm
  · rw [turn_of_halt hs]
    exact hm
  · rw [turn_of_fault hs]
    exact hm

theorem Machine.turn_ne_crashed {p : Program} (hp : p.Paired) (hm : m.memory.OnTape)
    (hput : ∀ ch (c : τ), (Console.put ch c).1 = true) (c : τ) (defect : Defect)
    (m' : Machine w) (c' : τ) : m.turn p c ≠ .crashed defect m' c' := by
  rcases turn_safe hp hm hput c with ⟨_, _, _, ht, -⟩ | ht | hs | ⟨e, hs⟩
  · simp [ht]
  · simp [ht]
  · simp [turn_of_halt hs]
  · simp [turn_of_fault hs]

theorem Machine.Operated.size_eq (h : m.Operated programs size bounds c) :
    m.tape.size = max size 1 := by
  induction h with
  | new => exact Tape.size_blank size
  | step _ _ ih => exact (size_turn _ _ _).trans ih
  | reset _ ih => exact (size_reset _).trans ih
  | outside _ _ ih => exact ih

theorem Machine.Operated.onTape (hp : ∀ p ∈ programs, p.Paired)
    (hput : ∀ ch (c : τ), (Console.put ch c).1 = true) (h : m.Operated programs size bounds c) :
    m.memory.OnTape := by
  induction h with
  | new => exact Memory.blank_onTape size
  | step hmem _ ih => exact turn_onTape (hp _ hmem) ih hput _
  | @reset m _ h ih =>
    show 0 < m.reset.tape.size
    rw [size_reset, h.size_eq]
    omega
  | outside _ _ ih => exact ih

theorem Machine.Operated.index_le {n : Nat} (hp : ∀ p ∈ programs, p.Paired)
    (hn : ∀ p ∈ programs, p.size ≤ n) (h : m.Operated programs size bounds c) : m.index ≤ n := by
  induction h with
  | new => exact Nat.zero_le n
  | @step m c p hmem _ ih =>
    have hle := index_turn_le (hp p hmem) m c
    have hlength := hn p hmem
    omega
  | reset => exact Nat.zero_le n
  | outside _ _ ih => exact ih

/-- Whatever compiled programs a machine is stepped through, and however often it is reset and the
program changed: the tape keeps its length, the pointer stays on it, no instruction meets a defect,
every fault has a text, and the index goes no further than behind the longest program. -/
theorem operated_machine_safe (hput : ∀ ch (c : τ), (Console.put ch c).1 = true)
    (hcompiled : ∀ p ∈ programs, ∃ passes source, compile passes source = .ok p)
    (h : m.Operated programs size bounds c) :
    m.tape.size = max size 1 ∧ m.pointer < m.tape.size ∧
    (∀ p ∈ programs, ∀ c : τ,
      (∀ defect m' c', m.turn p c ≠ .crashed defect m' c') ∧
      ∀ e m' c', m.turn p c = .faulted e m' c' → e.render = .ok e.message) ∧
    ∀ n, (∀ p ∈ programs, p.size ≤ n) → m.index ≤ n := by
  have hp : ∀ p ∈ programs, p.Paired := by
    intro p hmem
    obtain ⟨passes, source, hcompile⟩ := hcompiled p hmem
    exact Program.paired_of_compile hcompile
  have hm := h.onTape hp hput
  refine ⟨h.size_eq, hm, ?_, fun n hn => h.index_le hp hn⟩
  intro p hmem c
  refine ⟨Machine.turn_ne_crashed (hp p hmem) hm hput c, ?_⟩
  intro e m' c' hfault
  apply BoundsError.render_of_pos
  rw [Machine.tapeSize_of_fault (Machine.step_of_faulted hfault)]
  exact hm.size_pos

end

/-- On the one cell of an empty tape: a program is left for a shorter one while the index stands
behind the shorter one's end, and taken up again where it runs off the tape. -/
theorem operated_machine_safe_stale_index :
    ∃ (p q : Program) (m : Machine .eight) (c : Buffered) (e : BoundsError),
      compile .none "+[>+]" = .ok p ∧ compile .all "." = .ok q ∧
      m.Operated [p, q] 0 .fatal c ∧ q.size < m.index ∧ m.turn q c = .halted m c ∧
      m.turn p c = .faulted e m c ∧ e.render = .ok e.message ∧ m.tape.size = 1 ∧
      m.index ≤ p.size := by
  let p : Program := ⟨#[.op (.add 1), .loopStart 4, .op (.move 1), .op (.add 1), .loopEnd 1]⟩
  let q : Program := ⟨#[.op .output]⟩
  have hp : compile .none "+[>+]" = .ok p := rfl
  have hq : compile .all "." = .ok q := rfl
  have hcompiled : ∀ r ∈ [p, q], ∃ passes source, compile passes source = .ok r :=
    List.forall_mem_cons.mpr ⟨⟨_, _, hp⟩, List.forall_mem_singleton.mpr ⟨_, _, hq⟩⟩
  have hmem : p ∈ [p, q] := List.mem_cons_self
  have hrun : (Machine.Operated [p, q] 0 .fatal _ _ : Prop) :=
    Machine.Operated.step hmem (.step hmem (.new (w := .eight) (Buffered.withInput "")))
  obtain ⟨hsize, -, hsafe, hindex⟩ := operated_machine_safe (fun _ _ => rfl) hcompiled hrun
  refine ⟨p, q, _, _, ⟨.overflow, 2, 0, 1⟩, hp, hq, hrun, by decide, rfl, rfl, ?_, hsize, ?_⟩
  · exact (hsafe p hmem (.withInput "")).2 _ _ _ rfl
  · exact hindex p.size
      (List.forall_mem_cons.mpr ⟨Nat.le_refl _, List.forall_mem_singleton.mpr (by decide)⟩)

end TapeLang
