import TapeLang.Proofs.Endings
import TapeLang.Proofs.Operation
import TapeLang.Session

/-! # Input that arrives during a run

The caller of a session supplies input in pieces and closes it, before the run starts or between any
two of its moves. The run cannot tell: either it waits, or it does what it would do with all of the
input there from the beginning. So it ends where the plain interpreter ends on the whole text, and
leaves the same segments behind.
-/

namespace TapeLang

variable {w : CellWidth} {τ σ : Type}

def Turn.map (f : τ → σ) : Turn w τ → Turn w σ
  | .moved event m c => .moved event m (f c)
  | .halted m c => .halted m (f c)
  | .blocked m c => .blocked m (f c)
  | .faulted e m c => .faulted e m (f c)
  | .crashed defect m c => .crashed defect m (f c)

/-- A change of consoles that leaves the answers as they are leaves the turn as it is, unless the
machine waits for an answer. -/
theorem Machine.turn_map [Console τ] [Console σ] {f : τ → σ} {c : τ} (p : Program) (m : Machine w)
    (hput : ∀ ch, Console.put ch (f c) = ((Console.put ch c).1, f (Console.put ch c).2))
    (hget : ∀ input c', Console.get? c = some (input, c') →
      Console.get? (f c) = some (input, f c')) :
    (Console.get? c = none ∧ m.turn p c = .blocked m c) ∨
      m.turn p (f c) = (m.turn p c).map f := by
  unfold turn
  cases hs : m.step p with
  | write ch m' =>
    right
    simp only [hput ch]
    rcases Console.put ch c with ⟨_ | _, c'⟩ <;> rfl
  | read m' =>
    cases hc : Console.get? c with
    | none =>
      rw [(step_eq_read hs).2]
      exact Or.inl ⟨rfl, rfl⟩
    | some answer =>
      right
      simp only [hget answer.1 answer.2 hc]
      rfl
  | _ => exact Or.inr rfl

/-- What a caller does to the input of a run. -/
inductive Feed
  | push (chunk : String)
  | close

namespace Feed

def apply : Feed → Buffered → Buffered
  | .push chunk, b => b.push chunk
  | .close, b => b.close

def applyAll (feeds : List Feed) (b : Buffered) : Buffered :=
  feeds.foldl (fun b feed => feed.apply b) b

/-- The feeds still to come: chunks and the end of the input, or nothing if the input has ended. -/
def Pending (feeds : List Feed) (b : Buffered) : Prop :=
  (b.input.closed = true ∧ feeds = []) ∨
    (b.input.closed = false ∧ ∃ chunks, feeds = List.map push chunks ++ [close])

variable {b b' : Buffered} {feed : Feed} {feeds : List Feed} {input : Option Char}

theorem Pending.apply (h : Pending (feed :: feeds) b) : Pending feeds (feed.apply b) := by
  rcases h with ⟨-, hnil⟩ | ⟨hopen, chunks, hchunks⟩
  · cases hnil
  · cases chunks with
    | nil =>
      cases hchunks
      exact Or.inl ⟨rfl, rfl⟩
    | cons chunk chunks =>
      cases hchunks
      exact Or.inr ⟨hopen, chunks, rfl⟩

theorem Pending.applyAll {early : List Feed} (h : Pending (early ++ feeds) b) :
    Pending feeds (applyAll early b) := by
  induction early generalizing b with
  | nil => exact h
  | cons feed early ih => exact ih h.apply

theorem Pending.of_closed_eq (h : Pending feeds b) (hclosed : b'.input.closed = b.input.closed) :
    Pending feeds b' := by
  unfold Pending
  rwa [hclosed]

/-- The characters that a feed brings. -/
def chars : Feed → List Char
  | .push chunk => chunk.toList
  | .close => []

/-- The console as it would be had all the feeds been made already, with other notes. -/
def foresee (feeds : List Feed) (notes : List Note) (b : Buffered) : Buffered :=
  { applyAll feeds b with notes }

theorem foresee_eq (notes : List Note) (h : Pending feeds b) :
    foresee feeds notes b =
      ⟨b.written, ⟨b.input.chars ++ feeds.flatMap chars, true, b.input.released⟩, notes⟩ := by
  induction feeds generalizing b with
  | nil =>
    rcases h with ⟨hclosed, -⟩ | ⟨-, chunks, hchunks⟩
    · simp [foresee, applyAll, ← hclosed]
    · simp at hchunks
  | cons feed feeds ih =>
    refine (ih h.apply).trans ?_
    cases feed with
    | push chunk => simp [apply, Buffered.push, InputQueue.push, chars]
    | close => simp [apply, Buffered.close, InputQueue.close, chars]

theorem foresee_note (feeds : List Feed) (notes : List Note) (n : Note) (b : Buffered) :
    foresee feeds notes (Console.note n b) = foresee feeds notes b := by
  induction feeds generalizing b with
  | nil => rfl
  | cons feed feeds ih =>
    refine Eq.trans ?_ (ih (feed.apply b))
    cases feed <;> rfl

theorem flatMap_chars (chunks : List String) :
    (List.map push chunks ++ [close]).flatMap chars = (String.join chunks).toList := by
  induction chunks with
  | nil => rfl
  | cons chunk chunks ih => simp_all [chars]

theorem written_foresee (feeds : List Feed) (notes : List Note) (b : Buffered) :
    (foresee feeds notes b).written = b.written := by
  induction feeds generalizing b with
  | nil => rfl
  | cons feed feeds ih =>
    refine (ih (feed.apply b)).trans ?_
    cases feed <;> rfl

theorem closed_of_get? (hget : Console.get? b = some (input, b')) :
    b'.input.closed = b.input.closed := by
  obtain ⟨written, ⟨queue, closed, released⟩, notes⟩ := b
  cases released with
  | true => cases hget; rfl
  | false =>
    cases queue with
    | cons ch rest => cases hget; rfl
    | nil => cases closed <;> cases hget; rfl

theorem put_foresee (notes : List Note) (h : Pending feeds b) (ch : Char) :
    Console.put ch (foresee feeds notes b) =
      ((Console.put ch b).1, foresee feeds notes (Console.put ch b).2) := by
  have h' : Pending feeds (Console.put ch b).2 := h.of_closed_eq rfl
  rw [foresee_eq notes h, foresee_eq notes h']
  rfl

theorem get?_foresee (notes : List Note) (h : Pending feeds b)
    (hget : Console.get? b = some (input, b')) :
    Console.get? (foresee feeds notes b) = some (input, foresee feeds notes b') := by
  have h' : Pending feeds b' := h.of_closed_eq (closed_of_get? hget)
  rw [foresee_eq notes h, foresee_eq notes h']
  obtain ⟨written, ⟨queue, closed, released⟩, _⟩ := b
  cases released with
  | true => cases hget; rfl
  | false =>
    cases queue with
    | cons ch rest => cases hget; rfl
    | nil =>
      cases closed with
      | false => cases hget
      | true =>
        -- The input has ended, so nothing is to come that the read could miss.
        obtain ⟨-, rfl⟩ | ⟨hopen, -⟩ := h
        · cases hget; rfl
        · cases hopen

theorem Pending.get?_eq_some (h : Pending [] b) : ∃ answer, Console.get? b = some answer := by
  rcases h with ⟨hclosed, -⟩ | ⟨-, chunks, hchunks⟩
  · obtain ⟨input, b', hget, -⟩ := Buffered.get?_closed hclosed
    exact ⟨_, hget⟩
  · simp at hchunks

end Feed

namespace Machine

variable {b : Buffered} {feeds : List Feed}

/-- A machine whose input is still to arrive waits, or does what it would do with that input there
already. -/
theorem turn_foresee (p : Program) (m : Machine w) (notes : List Note)
    (h : Feed.Pending feeds b) :
    (Console.get? b = none ∧ m.turn p b = .blocked m b) ∨
      m.turn p (Feed.foresee feeds notes b) = (m.turn p b).map (Feed.foresee feeds notes) :=
  turn_map p m (Feed.put_foresee notes h) fun _ _ => Feed.get?_foresee notes h

theorem closed_turn (p : Program) (m : Machine w) (b : Buffered) :
    (m.turn p b).console.input.closed = b.input.closed := by
  unfold turn
  cases m.step p with
  | write ch m' => rfl
  | read m' =>
    dsimp only
    split
    · next hget => exact Feed.closed_of_get? hget
    · rfl
  | _ => rfl

end Machine

section

variable [Console τ] {program : Program} {m m₁ m₂ : Machine w} {c c₁ c₂ c' : τ}
  {status : RunStatus}

/-- The turn ends a run, and this is the console once a fault is reported. -/
inductive Turn.Ends : Turn w τ → RunStatus → τ → Prop
  | halted (m : Machine w) (c : τ) : Ends (.halted m c) .completed c
  | faulted (e : BoundsError) (m : Machine w) (c : τ) : Ends (.faulted e m c) (.failed e)
      (Console.error e.message (Console.note (.runFault e) c))

theorem Turn.Ends.of_map [Console σ] {f : τ → σ} {turn : Turn w τ} {d : σ}
    (h : (turn.map f).Ends status d) : ∃ c, turn.Ends status c := by
  cases turn with
  | halted m c =>
    cases h
    exact ⟨_, .halted m c⟩
  | faulted e m c =>
    cases h
    exact ⟨_, .faulted e m c⟩
  | _ => cases h

theorem Turn.Ends.ne_moved {turn : Turn w τ} (h : turn.Ends status c') (event : Event)
    (m : Machine w) (c : τ) : turn ≠ .moved event m c := by
  cases h <;> simp

theorem Moves.remaining {n k : Nat} (h : Moves program n m c m₁ c₁)
    (h' : Moves program k m c m₂ c₂)
    (hstop : ∀ event m' c', m₂.turn program c₂ ≠ .moved event m' c') :
    ∃ r, Moves program r m₁ c₁ m₂ c₂ := by
  induction h generalizing k with
  | refl => exact ⟨k, h'⟩
  | step ht _ ih =>
    cases h' with
    | refl => exact (hstop _ _ _ ht).elim
    | step ht' hrest =>
      rw [ht] at ht'
      cases ht'
      exact ih hrest

theorem execute_ended_iff {progress : Progress} :
    (∃ fuel m' progress', execute program never fuel progress m c =
      ⟨.ended status, m', c', progress'⟩) ↔
    ∃ n m₁ c₁, Moves program n m c m₁ c₁ ∧ (m₁.turn program c₁).Ends status c' := by
  constructor
  · rintro ⟨fuel, m', progress', h⟩
    obtain ⟨n, m₁, c₁, progress₁, hn, ⟨-, hu⟩ | ⟨-, -, hu⟩⟩ :=
      execute_moves program fuel progress m c
    · simp [hu] at h
    · refine ⟨n, m₁, c₁, hn, ?_⟩
      rw [hu] at h
      simp only [execute, never, Bool.false_eq_true, if_false] at h
      cases ht : m₁.turn program c₁ with
      | halted =>
        rw [ht] at h
        cases h
        exact .halted _ _
      | faulted =>
        rw [ht] at h
        cases h
        exact .faulted _ _ _
      | _ => simp [ht] at h
  · rintro ⟨n, m₁, c₁, hn, hends⟩
    obtain ⟨progress', h⟩ := hn.execute progress
    refine ⟨n + 1, m₁.turn program c₁ |>.machine, progress', (h 1).trans ?_⟩
    simp only [execute, never, Bool.false_eq_true, if_false]
    generalize m₁.turn program c₁ = turn at hends
    cases hends <;> rfl

end

theorem Turn.Ends.foresee {turn : Turn w Buffered} {status : RunStatus} {b : Buffered}
    (h : turn.Ends status b) (feeds : List Feed) (notes : List Note) :
    ∃ c, (turn.map (Feed.foresee feeds notes)).Ends status c ∧ c.written = b.written := by
  cases h with
  | halted m => exact ⟨_, .halted m _, Feed.written_foresee feeds notes b⟩
  | faulted e m c =>
    refine ⟨_, .faulted e m _, ?_⟩
    have hwritten := Feed.written_foresee feeds notes c
    simp only [Console.error, Console.note, Buffered.addNote, Buffered.write, hwritten]

section

variable {config : Config} {program : Program} {text : String}
  {m m' m₁ m₂ : Machine config.width} {c c' c₁ c₂ : Buffered} {status : RunStatus} {event : Event}

/-- The interpreter, on a text that is all there, comes by this machine and this console. -/
def ComesBy (config : Config) (program : Program) (text : String) (m : Machine config.width)
    (c : Buffered) : Prop :=
  ∃ m₀ n, Machine.allocate config.tapeSize config.bounds = .ok m₀ ∧
    Moves program n m₀ (Console.note (.running program.size config) (Buffered.withInput text)) m c

theorem ComesBy.moved (h : ComesBy config program text m c)
    (ht : m.turn program c = .moved event m' c') : ComesBy config program text m' c' := by
  obtain ⟨m₀, n, halloc, hm⟩ := h
  exact ⟨m₀, n + 1, halloc, hm.trans (.single ht)⟩

theorem ComesBy.remaining (h : ComesBy config program text m₁ c₁)
    (h' : ComesBy config program text m₂ c₂)
    (hstop : ∀ event m' c', m₂.turn program c₂ ≠ .moved event m' c') :
    ∃ r, Moves program r m₁ c₁ m₂ c₂ := by
  obtain ⟨m₀, n, halloc, hm⟩ := h
  obtain ⟨m₀', k, halloc', hm'⟩ := h'
  rw [halloc] at halloc'
  cases halloc'
  exact hm.remaining hm' hstop

theorem ComesBy.no_end_of_crashed {defect : Defect} (h : ComesBy config program text m₁ c₁)
    (hcrash : m₁.turn program c₁ = .crashed defect m' c')
    (h' : ComesBy config program text m₂ c₂) : ¬ (m₂.turn program c₂).Ends status c := by
  intro hends
  obtain ⟨r, hr⟩ := h.remaining h' hends.ne_moved
  cases hr with
  | refl =>
    rw [hcrash] at hends
    cases hends
  | step ht =>
    rw [hcrash] at ht
    cases ht

theorem interpret_ended_iff :
    (∃ fuel, (interpret config program never fuel {} (Buffered.withInput text)).ending =
        .ended status ∧
      (interpret config program never fuel {} (Buffered.withInput text)).console = c) ↔
    ∃ m₁ c₁ c', ComesBy config program text m₁ c₁ ∧ (m₁.turn program c₁).Ends status c' ∧
      c = Console.message (Report.line ⟨status, .zero⟩) c' := by
  constructor
  · rintro ⟨fuel, hend, rfl⟩
    simp only [interpret] at hend ⊢
    cases halloc : (Machine.allocate config.tapeSize config.bounds :
        Except Defect (Machine config.width)) with
    | error defect => simp [halloc] at hend
    | ok m₀ =>
      simp only [halloc] at hend ⊢
      generalize hx : execute program never fuel {} m₀ (_ : Buffered) = outcome at hend ⊢
      obtain ⟨ending, m', c', progress'⟩ := outcome
      cases ending with
      | ended status' =>
        cases hend
        obtain ⟨n, m₁, c₁, hm, hends⟩ := execute_ended_iff.mp ⟨fuel, m', progress', hx⟩
        exact ⟨m₁, c₁, c', ⟨m₀, n, halloc, hm⟩, hends, rfl⟩
      | _ => cases hend
  · rintro ⟨m₁, c₁, c', ⟨m₀, n, halloc, hm⟩, hends, rfl⟩
    have hx : ∃ fuel m' progress', execute program never fuel {} m₀ _ =
        ⟨.ended status, m', c', progress'⟩ := execute_ended_iff.mpr ⟨n, m₁, c₁, hm, hends⟩
    obtain ⟨fuel, m', progress', hx⟩ := hx
    refine ⟨fuel, ?_⟩
    simp [interpret, halloc, hx]

end

namespace Session

variable {config : Config}

/-- What can happen to a session while its run is neither stopped nor replaced. -/
inductive Move
  | advance
  | supply (feed : Feed)
  | elapse (elapsed : Duration)

def Move.apply : Move → Session config Buffered → Session config Buffered
  | .advance, s => s.advance.2
  | .supply feed, s => { s with console := feed.apply s.console }
  | .elapse elapsed, s => { s with elapsed }

def run (moves : List Move) (s : Session config Buffered) : Session config Buffered :=
  moves.foldl (fun s move => move.apply s) s

def Move.feed? : Move → Option Feed
  | .supply feed => some feed
  | _ => none

/-- What the moves do to the input. -/
def feeds (moves : List Move) : List Feed := moves.filterMap Move.feed?

/-- A new session in which a program is started after some input was supplied. -/
def opened (program : Program) (early : List Feed) : Session config Buffered :=
  (startProgram program { console := Feed.applyAll early {} }).2

variable {program : Program} {text : String} {pending : List Feed} {notes : List Note}
  {s : Session config Buffered}

theorem advance_of_ends {b b' : Buffered} {m : Machine config.width} {status : RunStatus}
    {killed used : Bool} {elapsed : Duration} (h : (m.turn program b).Ends status b') :
    advance ⟨b, some (.executing program m), killed, used, elapsed⟩ =
      (true, (finish status b' killed used elapsed : Session config Buffered)) := by
  simp only [advance]
  generalize m.turn program b = turn at h
  cases h <;> rfl

/-- The run is where the interpreter comes by with the pending input there already, it has ended as
the interpreter ends, or neither comes to an end. -/
inductive Follows (program : Program) (text : String) (notes : List Note) (pending : List Feed) :
    Session config Buffered → Prop
  | live {b : Buffered} {worker : Worker config.width} {used : Bool} {elapsed : Duration}
      (m : Machine config.width) : worker = .atBoundary program m ∨ worker = .executing program m →
      Feed.Pending pending b → ComesBy config program text m (Feed.foresee pending notes b) →
      Follows program text notes pending ⟨b, some worker, false, used, elapsed⟩
  | finished {b c c' : Buffered} {killed used : Bool} {elapsed : Duration} {report : Report}
      {m : Machine config.width} : ComesBy config program text m c →
      (m.turn program c).Ends report.status c' →
      b.written = ⟨.message, report.line⟩ :: c'.written →
      Follows program text notes pending ⟨b, some (.finished report), killed, used, elapsed⟩
  | crashed {b : Buffered} {killed used : Bool} {elapsed : Duration} :
      (∀ (m : Machine config.width) c status c', ComesBy config program text m c →
        ¬ (m.turn program c).Ends status c') →
      Follows program text notes pending ⟨b, some .crashed, killed, used, elapsed⟩

theorem Follows.supply {feed : Feed} (h : Follows program text notes (feed :: pending) s) :
    Follows program text notes pending ((Move.supply feed).apply s) := by
  cases h with
  | live m hw hp hm => exact .live m hw hp.apply hm
  | finished hm hends hwritten =>
    refine .finished hm hends ?_
    cases feed <;> exact hwritten
  | crashed hnone => exact .crashed hnone

theorem Follows.elapse (h : Follows program text notes pending s) (elapsed : Duration) :
    Follows program text notes pending ((Move.elapse elapsed).apply s) := by
  cases h with
  | live m hw hp hm => exact .live m hw hp hm
  | finished hm hends hwritten => exact .finished hm hends hwritten
  | crashed hnone => exact .crashed hnone

theorem Follows.ended {b b' : Buffered} {m : Machine config.width} {status : RunStatus}
    {used : Bool} {elapsed : Duration} (hp : Feed.Pending pending b)
    (hm : ComesBy config program text m (Feed.foresee pending notes b))
    (hends : (m.turn program b).Ends status b') :
    Follows program text notes pending
      (advance ⟨b, some (.executing program m), false, used, elapsed⟩).2 := by
  rcases m.turn_foresee program notes hp with ⟨-, hblocked⟩ | hmap
  · rw [hblocked] at hends
    cases hends
  · obtain ⟨c', hends', hwritten⟩ := hends.foresee pending notes
    rw [advance_of_ends hends]
    rw [← hmap] at hends'
    refine .finished hm hends' ?_
    rw [hwritten]
    exact Buffered.written_write (by decide) _ _

theorem Follows.executing {b : Buffered} {m : Machine config.width} {used : Bool}
    {elapsed : Duration} (hp : Feed.Pending pending b)
    (hm : ComesBy config program text m (Feed.foresee pending notes b)) :
    Follows program text notes pending
      (advance ⟨b, some (.executing program m), false, used, elapsed⟩).2 := by
  have hclosed := m.closed_turn program b
  cases ht : m.turn program b with
  | halted m' b' =>
    have hends : (m.turn program b).Ends .completed _ := ht ▸ Turn.Ends.halted m' b'
    exact .ended hp hm hends
  | faulted e m' b' =>
    have hends : (m.turn program b).Ends (.failed e) _ := ht ▸ Turn.Ends.faulted e m' b'
    exact .ended hp hm hends
  | blocked m' b' =>
    obtain ⟨-, -, rfl, rfl⟩ := Machine.turn_eq_blocked ht
    simp only [advance, ht]
    exact .live m' (Or.inr rfl) hp hm
  | moved event m' b' =>
    rcases m.turn_foresee program notes hp with ⟨-, hblocked⟩ | hmap
    · rw [hblocked] at ht
      cases ht
    · rw [ht] at hmap hclosed
      simp only [advance, ht]
      exact .live m' (Or.inl rfl) (hp.of_closed_eq hclosed) (hm.moved hmap)
  | crashed defect m' b' =>
    rcases m.turn_foresee program notes hp with ⟨-, hblocked⟩ | hmap
    · rw [hblocked] at ht
      cases ht
    · rw [ht] at hmap
      simp only [advance, ht]
      exact .crashed fun _ _ _ _ => hm.no_end_of_crashed hmap

theorem Follows.advance (h : Follows program text notes pending s) :
    Follows program text notes pending s.advance.2 := by
  cases h with
  | finished hm hends hwritten => exact .finished hm hends hwritten
  | crashed hnone => exact .crashed hnone
  | live m hw hp hm =>
    rcases hw with rfl | rfl
    · exact .live m (Or.inr rfl) hp hm
    · exact .executing hp hm

theorem Follows.run {moves : List Move}
    (h : Follows program text notes (feeds moves ++ pending) s) :
    Follows program text notes pending (s.run moves) := by
  induction moves generalizing s with
  | nil => exact h
  | cons move moves ih =>
    cases move with
    | advance => exact ih h.advance
    | supply feed => exact ih h.supply
    | elapse elapsed => exact ih (h.elapse elapsed)

theorem Follows.settle (h : Follows program text notes pending s) (fuel : Nat) :
    Follows program text notes pending (s.settle fuel) := by
  induction fuel generalizing s with
  | zero => exact h
  | succ fuel ih =>
    have hadvance := h.advance
    simp only [Session.settle]
    generalize s.advance = result at hadvance
    obtain ⟨goesOn, s'⟩ := result
    cases goesOn with
    | true => exact ih hadvance
    | false => exact hadvance

/-- With all of the input there, the run comes to the end that the interpreter comes to. -/
theorem settle_finishes {b c c' : Buffered} {m m₂ : Machine config.width} {status : RunStatus}
    {r : Nat} (hr : Moves program r m (Feed.foresee [] notes b) m₂ c)
    (hends : (m₂.turn program c).Ends status c') (hp : Feed.Pending [] b) (used : Bool)
    (elapsed : Duration) :
    ∃ fuel report, (settle fuel (⟨b, some (.executing program m), false, used, elapsed⟩ :
      Session config Buffered)).worker = some (.finished report) := by
  have hturn {b : Buffered} (hp : Feed.Pending [] b) (m : Machine config.width) :
      m.turn program (Feed.foresee [] notes b) =
        (m.turn program b).map (Feed.foresee [] notes) := by
    obtain ⟨answer, hget⟩ := hp.get?_eq_some
    rcases m.turn_foresee program notes hp with ⟨hnone, -⟩ | hmap
    · rw [hget] at hnone
      cases hnone
    · exact hmap
  generalize hc : Feed.foresee [] notes b = c₀ at hr
  induction hr generalizing b with
  | refl m =>
    subst hc
    rw [hturn hp] at hends
    obtain ⟨b', hends'⟩ := hends.of_map
    refine ⟨1, ⟨status, elapsed⟩, ?_⟩
    simp only [settle, advance_of_ends hends']
    rfl
  | @step r event m m₁ m₂ c₀ c₁ c₂ ht _ ih =>
    subst hc
    rw [hturn hp] at ht
    have hclosed := m.closed_turn program b
    cases htb : m.turn program b with
    | moved event' m' b' =>
      rw [htb] at ht hclosed
      cases ht
      obtain ⟨fuel, report, hfinished⟩ := ih hends (hp.of_closed_eq hclosed) rfl
      refine ⟨fuel + 2, report, ?_⟩
      simp only [settle, advance, htb]
      exact hfinished
    | _ =>
      rw [htb] at ht
      cases ht

theorem join_eq_report_iff {report : Report} :
    s.join.1 = .report report ↔ s.worker = some (.finished report) := by
  obtain ⟨console, worker, killed, used, elapsed⟩ := s
  rcases worker with _ | _ | _ | _ | _ <;> simp [join]

/-- Before its first move the run stands where the interpreter begins on the whole text. -/
theorem follows_opened {chunks : List String} {early pending : List Feed}
    (hcalls : early ++ pending = List.map Feed.push chunks ++ [.close]) :
    Follows program (String.join chunks) [.running program.size config] pending
      (opened program early : Session config Buffered) := by
  have hopen : Feed.Pending (early ++ pending) {} := Or.inr ⟨rfl, chunks, hcalls⟩
  have hconsole : Feed.foresee pending [.running program.size config] (Feed.applyAll early {}) =
      Console.note (.running program.size config) (Buffered.withInput (String.join chunks)) := by
    calc Feed.foresee pending [.running program.size config] (Feed.applyAll early {})
        = Feed.foresee (early ++ pending) [.running program.size config] {} := by
          simp only [Feed.foresee, Feed.applyAll, List.foldl_append]
      _ = _ := by
          rw [Feed.foresee_eq _ hopen, hcalls, Feed.flatMap_chars]
          rfl
  simp only [opened, startProgram, isAlive, join, Bool.false_eq_true, if_false]
  cases halloc : (Machine.allocate config.tapeSize config.bounds :
      Except Defect (Machine config.width)) with
  | ok m₀ =>
    refine .live m₀ (Or.inl rfl) (hopen.applyAll.of_closed_eq rfl) ⟨m₀, 0, halloc, ?_⟩
    rw [Feed.foresee_note, Feed.foresee_note, hconsole]
    exact .refl _ _
  | error defect =>
    refine .crashed ?_
    rintro m c status c' ⟨m₀, n, hok, -⟩
    rw [halloc] at hok
    cases hok

/-- A session after input was supplied before the start of a program and between the moves of its
run. -/
def supplied (config : Config) (program : Program) (early : List Feed) (moves : List Move) :
    Session config Buffered :=
  (opened program early).run moves

theorem follows_supplied (config : Config) (program : Program) {chunks : List String}
    {early : List Feed} {moves : List Move}
    (hcalls : early ++ feeds moves = List.map Feed.push chunks ++ [.close]) :
    Follows program (String.join chunks) [.running program.size config] []
      (supplied config program early moves) := by
  refine (follows_opened ?_).run
  rwa [List.append_nil]

theorem Follows.finishes {m : Machine config.width} {c c' : Buffered} {status : RunStatus}
    (h : Follows program text notes [] s) (hm : ComesBy config program text m c)
    (hends : (m.turn program c).Ends status c') :
    ∃ fuel report, (s.settle fuel).worker = some (.finished report) := by
  cases h with
  | @finished _ _ _ _ _ _ report => exact ⟨0, report, rfl⟩
  | crashed hnone => exact (hnone m c status c' hm hends).elim
  | @live _ _ used elapsed m₁ hw hp hm₁ =>
    obtain ⟨r, hr⟩ := hm₁.remaining hm hends.ne_moved
    obtain ⟨fuel, report, hfinished⟩ := settle_finishes hr hends hp used elapsed
    rcases hw with rfl | rfl
    · exact ⟨fuel + 1, report, hfinished⟩
    · exact ⟨fuel, report, hfinished⟩

theorem Follows.interpreted {report : Report} (h : Follows program text notes pending s)
    (hfinished : s.worker = some (.finished report)) :
    ∃ fuel segments, s.console.output = segments ++ [⟨.message, report.line⟩] ∧
      (interpret config program never fuel {} (Buffered.withInput text)).ending =
        .ended report.status ∧
      (interpret config program never fuel {} (Buffered.withInput text)).console.output =
        segments ++ [⟨.message, Report.line ⟨report.status, .zero⟩⟩] := by
  cases h with
  | live m hw =>
    rcases hw with rfl | rfl <;> cases hfinished
  | crashed => cases hfinished
  | @finished _ _ c' _ _ _ _ _ hm hends hwritten =>
    cases hfinished
    obtain ⟨fuel, hend, hconsole⟩ := interpret_ended_iff.mpr ⟨_, _, _, hm, hends, rfl⟩
    refine ⟨fuel, c'.output, ?_, hend, ?_⟩
    · simp only [Buffered.output, hwritten, List.reverse_cons]
    · rw [hconsole, Buffered.output, Buffered.output, ← List.reverse_cons]
      exact congrArg List.reverse (Buffered.written_write (by decide) _ c')

end Session

/-- Input may be supplied in any pieces and at any moments. Once all of it is there, the run ends
exactly if the interpreter does on the whole text, and as the interpreter does, but for the time in
the status line. -/
theorem input_timing_irrelevant (config : Config) (program : Program) (chunks : List String)
    (early : List Feed) (moves : List Session.Move)
    (hcalls : early ++ Session.feeds moves = List.map Feed.push chunks ++ [.close]) :
    ((∃ fuel report, ((Session.supplied config program early moves).settle fuel).join.1 =
        .report report) ↔
      ∃ fuel status, (interpret config program never fuel {}
        (Buffered.withInput (String.join chunks))).ending = .ended status) ∧
    ∀ fuel report, ((Session.supplied config program early moves).settle fuel).join.1 =
        .report report →
      ∃ fuel' segments,
        ((Session.supplied config program early moves).settle fuel).console.output =
          segments ++ [⟨.message, report.line⟩] ∧
        (interpret config program never fuel' {}
          (Buffered.withInput (String.join chunks))).ending = .ended report.status ∧
        (interpret config program never fuel' {}
          (Buffered.withInput (String.join chunks))).console.output =
            segments ++ [⟨.message, Report.line ⟨report.status, .zero⟩⟩] := by
  have hfollows := Session.follows_supplied config program hcalls
  simp only [Session.join_eq_report_iff]
  refine ⟨⟨?_, ?_⟩, fun fuel report => (hfollows.settle fuel).interpreted⟩
  · rintro ⟨fuel, report, hfinished⟩
    obtain ⟨fuel', -, -, hend, -⟩ := (hfollows.settle fuel).interpreted hfinished
    exact ⟨fuel', report.status, hend⟩
  · rintro ⟨fuel, status, hend⟩
    obtain ⟨m, c, c', hm, hends, -⟩ := interpret_ended_iff.mp ⟨fuel, hend, rfl⟩
    exact hfollows.finishes hm hends

/-- The run is blocked on its first read when the first piece comes, and the second piece and the
end of the input are there before they are read. -/
theorem input_timing_irrelevant_blocked :
    ∃ (program : Program) (s : Session ⟨.eight, 2, .wrap⟩ Buffered) (fuel : Nat)
      (segments : List Segment),
      compile .all ",.,.," = .ok program ∧ s.advance.1 = false ∧ s.isAlive = true ∧
      (interpret ⟨.eight, 2, .wrap⟩ program never fuel {} (Buffered.withInput "ab")).ending =
        .ended .completed ∧
      (interpret ⟨.eight, 2, .wrap⟩ program never fuel {}
        (Buffered.withInput "ab")).console.output =
          segments ++ [⟨.message, Report.line ⟨.completed, .zero⟩⟩] := by
  let program : Program := ⟨#[.op .input, .op .output, .op .input, .op .output, .op .input]⟩
  let early : List Session.Move := [.advance, .advance]
  let late : List Session.Move :=
    [.supply (.push "a"), .advance, .advance, .elapse ⟨3000⟩, .supply (.push "b"), .supply .close]
  have hreport := (input_timing_irrelevant ⟨.eight, 2, .wrap⟩ program ["a", "b"] []
    (early ++ late) rfl).2 9 ⟨.completed, ⟨3000⟩⟩ rfl
  obtain ⟨fuel, segments, -, hend, houtput⟩ := hreport
  exact ⟨program, (Session.opened program []).run early, fuel, segments, rfl, rfl, rfl, hend,
    houtput⟩

end TapeLang
