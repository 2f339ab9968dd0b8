import TapeLang.Proofs.Nearest
import TapeLang.Proofs.Policies
import TapeLang.Proofs.Segments

/-! # Larger tapes

Under fatal bounds the end of the tape can only be seen by running off it. A run that does not do so
is the same on every larger tape, with cells behind the end that stay zero.
-/

namespace TapeLang

variable {w : CellWidth} {τ : Type}

namespace Tape

variable {t : Tape w} {p q extra : Nat} {d : Direction}

/-- The tape with more cells behind its end, all zero. -/
def padded (extra : Nat) (t : Tape w) : Tape w := ⟨t.cells ++ Array.replicate extra Cell.zero⟩

@[simp] theorem size_padded : (t.padded extra).size = t.size + extra := by
  simp [padded, size]

theorem get?_padded {i : Nat} (h : i < t.size) : (t.padded extra).get? i = t.get? i :=
  Array.getElem?_append_left h

theorem padded_set {i : Nat} (h : i < t.size) (c : Cell w) :
    (t.padded extra).set i c = (t.set i c).padded extra := by
  have h' : i < t.cells.size := h
  simp only [padded, set, Array.setIfInBounds_append, if_pos h']

theorem padded_blank {size : Nat} (h : 1 ≤ size) :
    (blank size : Tape w).padded extra = blank (size + extra) := by
  simp only [padded, blank, Nat.max_eq_left h, Nat.max_eq_left (Nat.le_add_right_of_le h),
    Array.replicate_append_replicate]

theorem NonzeroAt.padded (h : t.NonzeroAt p) : (t.padded extra).NonzeroAt p := by
  obtain ⟨c, hc, hn⟩ := h
  exact ⟨c, (get?_padded (lt_of_get? hc)).trans hc, hn⟩

theorem ZeroAt.padded (h : t.ZeroAt p) : (t.padded extra).ZeroAt p := by
  obtain ⟨c, hc, hz⟩ := h
  exact ⟨c, (get?_padded (lt_of_get? hc)).trans hc, hz⟩

/-- A move that does not leave the tape behind its end does not see where this is. -/
theorem offset_padded {delta : Int} (h : t.offset p delta .fatal ≠ .error .overflow) :
    (t.padded extra).offset p delta .fatal = t.offset p delta .fatal := by
  simp only [offset, size_padded] at h ⊢
  split
  · rfl
  · next hnonneg =>
    rw [if_neg hnonneg] at h
    split at h
    · next hlt =>
      rw [if_pos hlt, if_pos]
      omega
    · exact (h rfl).elim

theorem offset_padded_ok {delta : Int} (h : t.offset p delta .fatal = .ok q) :
    (t.padded extra).offset p delta .fatal = .ok q := by
  rw [offset_padded (by simp [h]), h]

theorem Walks.padded (h : t.Walks d .fatal p q) : (t.padded extra).Walks d .fatal p q := by
  induction h with
  | refl p => exact .refl p
  | step hn hmove _ ih => exact .step hn.padded (offset_padded_ok hmove) ih

/-- A scan that finds its zero finds it before the cells that were added, and one that leaves the
tape at its beginning comes by none of them. -/
theorem scan_padded (hp : p < t.size) (h : t.scan p d .fatal ≠ .error (.fault .overflow)) :
    (t.padded extra).scan p d .fatal = t.scan p d .fatal := by
  have hjourney := scan_journey .fatal d hp
  generalize t.scan p d .fatal = result at h hjourney
  refine Journey.scan_eq ?_ (by rw [size_padded]; omega)
  cases hjourney with
  | arrives hw hz => exact .arrives hw.padded hz.padded
  | leaves hw hn hmove =>
    refine .leaves hw.padded hn.padded ?_
    rw [offset_padded, hmove]
    intro hover
    cases hmove.symm.trans hover
    exact h rfl

end Tape

namespace Memory

variable {s : Memory w} {extra : Nat}

def padded (extra : Nat) (s : Memory w) : Memory w := ⟨s.tape.padded extra, s.pointer⟩

theorem current?_padded (h : s.OnTape) : (s.padded extra).current? = s.current? :=
  Tape.get?_padded h

theorem put_padded (h : s.OnTape) (c : Cell w) :
    (s.padded extra).put c = (s.put c).padded extra := by
  simp only [put, padded, Tape.padded_set h]

theorem perform_padded {o : Op} (hs : s.OnTape)
    (h : ∀ t, s.perform .fatal o ≠ .trap (.fault .overflow) t) (extra : Nat) :
    (s.padded extra).perform .fatal o = (s.perform .fatal o).mapMemory (padded extra) := by
  obtain ⟨c, hc⟩ := hs.current
  have hc' : (s.padded extra).current? = some c := (current?_padded hs).trans hc
  cases o with
  | move n =>
    rw [perform_move] at h
    rw [perform_move, perform_move]
    have hmove : s.tape.offset s.pointer n .fatal ≠ .error .overflow :=
      fun hover => h s (by rw [hover])
    simp only [padded, Tape.offset_padded hmove]
    split <;> rfl
  | scan d =>
    rw [perform_scan] at h
    rw [perform_scan, perform_scan]
    have hscan : s.tape.scan s.pointer d .fatal ≠ .error (.fault .overflow) :=
      fun hover => h s (by rw [hover])
    simp only [padded, Tape.scan_padded hs hscan]
    split <;> rfl
  | add n => rw [perform_add hc', perform_add hc, put_padded hs]; rfl
  | clear => rw [perform_clear hc', perform_clear hc, put_padded hs]; rfl
  | output => rw [perform_output hc', perform_output hc]; rfl
  | input => rw [perform_input hc', perform_input hc]; rfl
  | breakpoint => rfl

end Memory

/-- The same error on a tape with more cells. -/
def BoundsError.padded (extra : Nat) (e : BoundsError) : BoundsError :=
  { e with tapeSize := e.tapeSize + extra }

theorem BoundsError.message_padded {e : BoundsError} (h : e.fault = .underflow) (extra : Nat) :
    (e.padded extra).message = e.message := by
  simp only [message, padded, h]

def Machine.padded (extra : Nat) (m : Machine w) : Machine w :=
  ⟨m.memory.padded extra, m.index, m.bounds⟩

def Action.padded (extra : Nat) : Action w → Action w
  | .fault e m => .fault (e.padded extra) (m.padded extra)
  | action => action.mapMachine (.padded extra)

def Turn.padded (extra : Nat) : Turn w τ → Turn w τ
  | .faulted e m c => .faulted (e.padded extra) (m.padded extra) c
  | turn => turn.mapMachine (.padded extra)

namespace Machine

variable {p : Program} {m : Machine w}

theorem branch_padded (h : m.memory.OnTape) (extra target : Nat) (jump : Cell w → Bool) :
    (m.padded extra).branch target jump = (m.branch target jump).padded extra := by
  obtain ⟨c, hc⟩ := h.current
  have hc' : (m.memory.padded extra).current? = some c := (Memory.current?_padded h).trans hc
  simp only [branch, padded, hc, hc']
  rfl

theorem receive_padded (h : m.memory.OnTape) (extra : Nat) (input : Option Char) :
    (m.padded extra).receive input = (m.receive input).padded extra := by
  simp only [receive, padded, Memory.receive, Memory.padded, Tape.padded_set h]

theorem step_padded (hp : p.Paired) (hm : m.memory.OnTape) (hfatal : m.bounds = .fatal)
    (h : ∀ e m', m.step p = .fault e m' → e.fault = .underflow) (extra : Nat) :
    (m.padded extra).step p = (m.step p).padded extra := by
  obtain ⟨s, i, bounds⟩ := m
  obtain rfl : bounds = .fatal := hfatal
  have hpadded (s : Memory w) (i : Nat) :
      padded extra ⟨s, i, .fatal⟩ = ⟨s.padded extra, i, .fatal⟩ := rfl
  have hbranch := branch_padded hm extra
  rw [hpadded] at hbranch ⊢
  simp only [step]
  cases hget : p.get? i with
  | none => rfl
  | some instruction =>
    cases instruction with
    | op o =>
      have hperform := Memory.perform_padded (o := o) hm (fun t hover => by
        cases h ⟨.overflow, i, t.pointer, t.tape.size⟩ ⟨t, i, .fatal⟩
          (by simp only [step, hget, hover])) extra
      simp only [hperform]
      cases s.perform .fatal o with
      | trap cause t =>
        cases cause with
        | fault f =>
          simp only [Effect.mapMemory, Memory.padded, Tape.size_padded]
          rfl
        | defect defect => rfl
      | _ => rfl
    | loopStart stop =>
      simp only [if_pos ((hp i).1 stop hget)]
      exact hbranch stop _
    | loopEnd start =>
      simp only [if_pos ((hp i).2 start hget)]
      exact hbranch start _

theorem turn_padded [Console τ] {c : τ} (hp : p.Paired) (hm : m.memory.OnTape)
    (hfatal : m.bounds = .fatal)
    (h : ∀ e, (m.turn p c).verdict = .faulted e → e.fault = .underflow) (extra : Nat) :
    (m.padded extra).turn p c = (m.turn p c).padded extra := by
  have hstep := step_padded hp hm hfatal (fun e m' hs => h e (by rw [turn_of_fault hs]; rfl)) extra
  unfold turn
  rw [hstep]
  cases hs : m.step p with
  | write ch m' =>
    simp only [Action.padded, Action.mapMachine]
    rcases Console.put ch c with ⟨_ | _, c'⟩ <;> rfl
  | read m' =>
    obtain rfl := (step_eq_read hs).2
    simp only [Action.padded, Action.mapMachine]
    cases Console.get? c with
    | none => rfl
    | some answer => simp only [receive_padded hm extra answer.1, Turn.padded, Turn.mapMachine]
  | _ => rfl

end Machine

theorem Buffered.Alike.written_eq {old : List Segment} {c c' : Buffered} (h : Alike old old c c') :
    c'.written = c.written := by
  rcases h.written with hsame | ⟨pieces, hc, hc'⟩
  · exact hsame.symm
  · exact hc'.trans hc.symm

theorem Buffered.Alike.faulted {old : List Segment} {c c' : Buffered} (h : Alike old old c c')
    (text : String) (n n' : Note) :
    Alike old old (Console.error text (Console.note n c))
      (Console.error text (Console.note n' c')) :=
  (likeness old old).error text ((likeness old old).note n n' h)

def Ending.padded (extra : Nat) : Ending → Ending
  | .ended (.failed e) => .ended (.failed (e.padded extra))
  | ending => ending

/-- The second outcome is the first on a tape with more cells. Notes may tell them apart. -/
structure Outcome.Padded (extra : Nat) (o o' : Outcome w Buffered) : Prop where
  ending : o'.ending = o.ending.padded extra
  machine : o'.machine = o.machine.padded extra
  console : Buffered.Alike [] [] o.console o'.console
  progress : o'.progress = o.progress

section

variable {p : Program} {kill : Progress → Bool} {fuel : Nat} {progress : Progress}
  {m : Machine w} {c c' : Buffered}

/-- A run: as long as the end of the smaller tape is not crossed, the runs stay together. -/
theorem execute_padded (hp : p.Paired) (hm : m.memory.OnTape) (hfatal : m.bounds = .fatal)
    (hc : Buffered.Alike [] [] c c')
    (h : ∀ e, (execute p kill fuel progress m c).ending = .ended (.failed e) →
      e.fault = .underflow) (extra : Nat) :
    Outcome.Padded extra (execute p kill fuel progress m c)
      (execute p kill fuel progress (m.padded extra) c') := by
  induction fuel generalizing progress m c c' with
  | zero => exact ⟨rfl, rfl, hc, rfl⟩
  | succ fuel ih =>
    simp only [execute] at h ⊢
    split
    · exact ⟨rfl, rfl, hc, rfl⟩
    · rw [if_neg ‹_›] at h
      have halike := Machine.turn_alike (Buffered.likeness [] []) hc p m
      have hturn (hunder : ∀ e, (m.turn p c').verdict = .faulted e → e.fault = .underflow) :=
        Machine.turn_padded hp hm hfatal hunder extra
      have hon := Machine.turn_onTape hp hm (fun _ _ => rfl) c
      have hbounds := (Machine.bounds_turn p m c).trans hfatal
      generalize m.turn p c = turn at h halike hon hbounds
      generalize m.turn p c' = turn' at halike hturn
      cases halike with
      | moved hc' =>
        rw [hturn (fun e he => by cases he)]
        exact ih hon hbounds hc' h
      | @faulted e m' c₁ c₁' hc' =>
        have hunder := h e rfl
        rw [hturn (fun e' he => by cases he; exact hunder)]
        have hreported : Buffered.Alike [] []
            (Console.error e.message (Console.note (.runFault e) c₁))
            (Console.error (e.padded extra).message
              (Console.note (.runFault (e.padded extra)) c₁')) := by
          rw [BoundsError.message_padded hunder]
          exact hc'.faulted _ _ _
        exact ⟨rfl, rfl, hreported, rfl⟩
      | halted hc' | blocked hc' | crashed hc' =>
        rw [hturn (fun e he => by cases he)]
        exact ⟨rfl, rfl, hc', rfl⟩

end

theorem Machine.padded_new {size : Nat} (h : 1 ≤ size) (bounds : BoundsPolicy) (extra : Nat) :
    (Machine.new size bounds : Machine w).padded extra = .new (size + extra) bounds := by
  simp only [padded, new, Memory.padded, Memory.blank, Tape.padded_blank h]

theorem interpret_of_canHold [Console τ] (config : Config)
    (h : config.width.canHold config.cellCount = true) (program : Program)
    (kill : Progress → Bool) (fuel : Nat) (progress : Progress) (c : τ) :
    interpret config program kill fuel progress c =
      (execute program kill fuel progress (.new config.tapeSize config.bounds)
        (Console.note (.running program.size config) c)).reported := by
  apply interpret_of_allocate
  have h' : config.width.canHold (max config.tapeSize 1) = true := h
  simp only [Machine.allocate, Tape.allocate, if_pos h']
  rfl

/-- The second outcome is the first but for cells that were added behind the end of the tape and
are zero: the machine stands at the same place, as much was done, the same was written, and the same
input is left. -/
structure Outcome.Extends (extra : Nat) (o o' : Outcome w Buffered) : Prop where
  index : o'.machine.index = o.machine.index
  pointer : o'.machine.pointer = o.machine.pointer
  cells : o'.machine.tape.cells.toList =
    o.machine.tape.cells.toList ++ List.replicate extra Cell.zero
  progress : o'.progress = o.progress
  output : o'.console.output = o.console.output
  input : o'.console.input = o.console.input

/-- What a larger tape keeps of an outcome: that the run completes, and that it fails at the first
cell. -/
structure Outcome.CarriesOver (extra : Nat) (o o' : Outcome w Buffered) : Prop where
  completed : o.ending = .ended .completed → o'.ending = .ended .completed ∧ o.Extends extra o'
  underflow (e : BoundsError) : o.ending = .ended (.failed e) → e.fault = .underflow →
    o'.ending = .ended (.failed { e with tapeSize := e.tapeSize + extra }) ∧ o.Extends extra o'

namespace Outcome

variable {extra : Nat} {o o' : Outcome w Buffered}

theorem Padded.extends (h : Padded extra o o') : o.Extends extra o' where
  index := by rw [h.machine]; rfl
  pointer := by rw [h.machine]; rfl
  cells := by
    rw [h.machine]
    exact Array.toList_append.trans (congrArg _ Array.toList_replicate)
  progress := h.progress
  output := congrArg List.reverse h.console.written_eq
  input := h.console.input.symm

/-- The status line does not say where a run has failed. -/
theorem Padded.reported (h : Padded extra o o') : Padded extra o.reported o'.reported := by
  obtain ⟨ending, m, c, progress⟩ := o
  obtain ⟨ending', m', c', progress'⟩ := o'
  obtain ⟨hending, hmachine, hc, hprogress⟩ := h
  dsimp only at hending hmachine hc hprogress
  subst hending hmachine hprogress
  cases ending with
  | ended status => cases status <;> exact ⟨rfl, rfl, hc.write .message _, rfl⟩
  | blocked | crashed defect | unfinished => exact ⟨rfl, rfl, hc, rfl⟩

theorem carriesOver_of_padded
    (h : (∀ e, o.ending = .ended (.failed e) → e.fault = .underflow) → Padded extra o o') :
    o.CarriesOver extra o' where
  completed hended := by
    have hpadded := h fun e he => by rw [hended] at he; cases he
    exact ⟨by rw [hpadded.ending, hended]; rfl, hpadded.extends⟩
  underflow e hended hunder := by
    have hpadded := h fun e' he => by rw [hended] at he; cases he; exact hunder
    exact ⟨by rw [hpadded.ending, hended]; rfl, hpadded.extends⟩

end Outcome

/-- Enlarging the tape never changes a successful run under fatal bounds, nor one that fails at the
first cell: it ends in the same way at the same place, and the cells behind the smaller tape are
zero. -/
theorem enlarging_keeps_runs {passes : Passes} {source : String} {program : Program}
    (hcompile : compile passes source = .ok program) (w : CellWidth) {small large : Nat}
    (hsmall : 1 ≤ small) (hlarge : small ≤ large) :
    (∀ input fuel, Outcome.CarriesOver (large - small)
      (freshRun small .fatal input program fuel : Outcome w Buffered)
      (freshRun large .fatal input program fuel)) ∧
    (w.canHold large = true → ∀ kill fuel progress (c : Buffered),
      Outcome.CarriesOver (large - small) (w := w)
        (interpret ⟨w, small, .fatal⟩ program kill fuel progress c)
        (interpret ⟨w, large, .fatal⟩ program kill fuel progress c)) := by
  have hp := Program.paired_of_compile hcompile
  obtain ⟨extra, rfl⟩ := Nat.exists_eq_add_of_le hlarge
  rw [Nat.add_sub_cancel_left]
  have hnew := Machine.padded_new (w := w) hsmall .fatal extra
  have hm : (Machine.new small .fatal : Machine w).memory.OnTape := Memory.blank_onTape small
  refine ⟨fun input fuel => Outcome.carriesOver_of_padded fun h => ?_,
    fun hheld kill fuel progress c => Outcome.carriesOver_of_padded fun h => ?_⟩
  · have hrun := execute_padded hp hm rfl ⟨rfl, .inl rfl⟩ h extra
    rwa [hnew] at hrun
  · have hheld' : w.canHold small = true := by
      simp only [CellWidth.canHold, decide_eq_true_eq] at hheld ⊢
      exact Nat.le_trans (Nat.mul_le_mul_right _ hlarge) hheld
    have hbegin := interpret_of_canHold ⟨w, small, .fatal⟩
      ((congrArg w.canHold (Nat.max_eq_left hsmall)).trans hheld') program kill fuel progress c
    have hbegin' := interpret_of_canHold ⟨w, small + extra, .fatal⟩
      ((congrArg w.canHold (Nat.max_eq_left (Nat.le_trans hsmall hlarge))).trans hheld) program
      kill fuel progress c
    rw [hbegin, Outcome.ending_reported] at h
    rw [hbegin, hbegin', ← hnew]
    -- the notes at the beginning say how large the tapes are
    have hnoted (n n' : Note) : Buffered.Alike [] [] (Console.note n c) (Console.note n' c) :=
      ⟨rfl, .inl rfl⟩
    exact (execute_padded hp hm rfl (hnoted _ _) h extra).reported

/-- A scan ends on the last of three cells, and among five it looks no further. Another one leaves
the tape before its first cell, be it the only one or one of four. -/
theorem enlarging_keeps_runs_scans :
    (∃ program, compile .all "+>+<[>]" = .ok program ∧
      (freshRun 3 .fatal "" program 6 : Outcome .eight Buffered).ending = .ended .completed ∧
      (freshRun 5 .fatal "" program 6 : Outcome .eight Buffered).ending = .ended .completed ∧
      (freshRun 5 .fatal "" program 6 : Outcome .eight Buffered).machine.pointer = 2 ∧
      (freshRun 5 .fatal "" program 6 : Outcome .eight Buffered).machine.tape.numbers =
        [1, 1, 0, 0, 0]) ∧
    ∃ program, compile .all "+[<]" = .ok program ∧
      (interpret ⟨.eight, 1, .fatal⟩ program never 2 {} (Buffered.withInput "")).ending =
        .ended (.failed ⟨.underflow, 1, 0, 1⟩) ∧
      (interpret ⟨.eight, 4, .fatal⟩ program never 2 {} (Buffered.withInput "")).ending =
        .ended (.failed ⟨.underflow, 1, 0, 4⟩) := by
  let rightward : Program :=
    ⟨#[.op (.add 1), .op (.move 1), .op (.add 1), .op (.move (-1)), .op (.scan .right)]⟩
  let leftward : Program := ⟨#[.op (.add 1), .op (.scan .left)]⟩
  have hright : compile .all "+>+<[>]" = .ok rightward := rfl
  have hleft : compile .all "+[<]" = .ok leftward := rfl
  obtain ⟨hfresh, -⟩ := enlarging_keeps_runs hright .eight (show 1 ≤ 3 by decide)
    (show 3 ≤ 5 by decide)
  obtain ⟨-, hwhole⟩ := enlarging_keeps_runs hleft .eight (Nat.le_refl 1) (show 1 ≤ 4 by decide)
  have hthree : (freshRun 3 .fatal "" rightward 6 : Outcome .eight Buffered).ending =
      .ended .completed := by decide +kernel
  have hone : (interpret ⟨.eight, 1, .fatal⟩ leftward never 2 {} (Buffered.withInput "")).ending =
      .ended (.failed ⟨.underflow, 1, 0, 1⟩) := by decide +kernel
  obtain ⟨hfive, hextends⟩ := (hfresh "" 6).completed hthree
  obtain ⟨hfour, -⟩ := (hwhole (by decide) never 2 {} (.withInput "")).underflow _ hone rfl
  refine ⟨⟨rightward, hright, hthree, hfive, hextends.pointer.trans (by decide +kernel), ?_⟩,
    leftward, hleft, hone, hfour⟩
  rw [Tape.numbers, hextends.cells]
  decide +kernel

end TapeLang
