import TapeLang.Console.Buffered
import TapeLang.Console.Streams

/-! # Consoles that look alike

To a run two consoles look alike if they give it the same answers. What the run and its caller do to
both of them leaves them alike, and makes the machine take the same turns. Buffered consoles look
alike if they hold the same input, whatever was written to them before the run began, and so do
streams.
-/

namespace TapeLang

namespace Console

variable {τ α : Type} [Console τ]

theorem noteAll_append (notes notes' : List Note) (c : τ) :
    noteAll (notes ++ notes') c = noteAll notes' (noteAll notes c) :=
  List.foldl_append

/-- What the start of a run does to the console: it takes notes, and resets a used console. -/
def renew (used : Bool) (before after : List Note) (c : τ) : τ :=
  noteAll after (if used then reset (noteAll before c) else noteAll before c)

/-- A property that a console keeps until it is released, and has again once it is reset. -/
structure Lasting (change : α → τ → τ) (P : τ → Prop) : Prop where
  change (x : α) {c : τ} : P c → P (change x c)
  note (n : Note) {c : τ} : P c → P (note n c)
  error (text : String) {c : τ} : P c → P (error text c)
  reset (c : τ) : P (reset c)

/-- A relation between consoles that no run and no caller can break; notes are not looked at. -/
structure Likeness (change : α → τ → τ) (R : τ → τ → Prop) : Prop where
  change (x : α) {c₁ c₂ : τ} : R c₁ c₂ → R (change x c₁) (change x c₂)
  put (ch : Char) {c₁ c₂ : τ} : R c₁ c₂ →
    (put ch c₁).1 = (put ch c₂).1 ∧ R (put ch c₁).2 (put ch c₂).2
  get? {c₁ c₂ : τ} : R c₁ c₂ → get? c₁ = none ∧ get? c₂ = none ∨
    ∃ input c₁' c₂', get? c₁ = some (input, c₁') ∧ get? c₂ = some (input, c₂') ∧ R c₁' c₂'
  message (text : String) {c₁ c₂ : τ} : R c₁ c₂ → R (message text c₁) (message text c₂)
  error (text : String) {c₁ c₂ : τ} : R c₁ c₂ → R (error text c₁) (error text c₂)
  noteLeft (n : Note) {c₁ c₂ : τ} : R c₁ c₂ → R (note n c₁) c₂
  noteRight (n : Note) {c₁ c₂ : τ} : R c₁ c₂ → R c₁ (note n c₂)
  release {c₁ c₂ : τ} : R c₁ c₂ → R (release c₁) (release c₂)
  reset {c₁ c₂ : τ} : R c₁ c₂ → R (reset c₁) (reset c₂)

variable {change : α → τ → τ} {P : τ → Prop} {R : τ → τ → Prop} {c c₁ c₂ : τ}

theorem Lasting.noteAll (h : Lasting change P) (notes : List Note) (hc : P c) :
    P (noteAll notes c) := by
  induction notes generalizing c with
  | nil => exact hc
  | cons n notes ih => exact ih (h.note n hc)

theorem Lasting.renew (h : Lasting change P) {used : Bool} (hc : used = false → P c)
    (before after : List Note) : P (renew used before after c) := by
  refine h.noteAll after ?_
  cases used with
  | true => exact h.reset _
  | false => exact h.noteAll before (hc rfl)

theorem Likeness.note (h : Likeness change R) (n₁ n₂ : Note) (hc : R c₁ c₂) :
    R (note n₁ c₁) (note n₂ c₂) :=
  h.noteLeft n₁ (h.noteRight n₂ hc)

theorem Likeness.noteAll (h : Likeness change R) (notes₁ notes₂ : List Note) (hc : R c₁ c₂) :
    R (noteAll notes₁ c₁) (noteAll notes₂ c₂) := by
  induction notes₁ generalizing c₁ with
  | cons n notes₁ ih => exact ih (h.noteLeft n hc)
  | nil =>
    induction notes₂ generalizing c₂ with
    | nil => exact hc
    | cons n notes₂ ih => exact ih (h.noteRight n hc)

theorem Likeness.renew (h : Likeness change R) (used : Bool)
    (before₁ after₁ before₂ after₂ : List Note) (hc : R c₁ c₂) :
    R (renew used before₁ after₁ c₁) (renew used before₂ after₂ c₂) := by
  refine h.noteAll after₁ after₂ ?_
  cases used with
  | true => exact h.reset (h.noteAll before₁ before₂ hc)
  | false => exact h.noteAll before₁ before₂ hc

end Console

/-- Two turns that come to the same, on consoles that look alike. -/
inductive Turn.Alike {w : CellWidth} {τ : Type} (R : τ → τ → Prop) : Turn w τ → Turn w τ → Prop
  | moved {event : Event} {m : Machine w} {c₁ c₂ : τ} : R c₁ c₂ →
      Turn.Alike R (.moved event m c₁) (.moved event m c₂)
  | halted {m : Machine w} {c₁ c₂ : τ} : R c₁ c₂ → Turn.Alike R (.halted m c₁) (.halted m c₂)
  | blocked {m : Machine w} {c₁ c₂ : τ} : R c₁ c₂ → Turn.Alike R (.blocked m c₁) (.blocked m c₂)
  | faulted {e : BoundsError} {m : Machine w} {c₁ c₂ : τ} : R c₁ c₂ →
      Turn.Alike R (.faulted e m c₁) (.faulted e m c₂)
  | crashed {defect : Defect} {m : Machine w} {c₁ c₂ : τ} : R c₁ c₂ →
      Turn.Alike R (.crashed defect m c₁) (.crashed defect m c₂)

theorem Machine.turn_alike {w : CellWidth} {τ α : Type} [Console τ] {change : α → τ → τ}
    {R : τ → τ → Prop} {c₁ c₂ : τ} (h : Console.Likeness change R) (hc : R c₁ c₂)
    (program : Program) (m : Machine w) :
    Turn.Alike R (m.turn program c₁) (m.turn program c₂) := by
  unfold turn
  cases m.step program with
  | halt m' => exact .halted hc
  | proceed m' => exact .moved hc
  | pause m' => exact .moved hc
  | write ch m' =>
    obtain ⟨hsame, hput⟩ := h.put ch hc
    dsimp only
    generalize Console.put ch c₁ = answer₁ at hsame hput
    generalize Console.put ch c₂ = answer₂ at hsame hput
    obtain ⟨taken, c₁'⟩ := answer₁
    obtain ⟨_, c₂'⟩ := answer₂
    cases hsame
    cases taken with
    | true => exact .moved hput
    | false => exact .crashed hput
  | fault e m' => exact .faulted hc
  | crash defect m' => exact .crashed hc
  | read m' =>
    rcases h.get? hc with ⟨hn₁, hn₂⟩ | ⟨input, c₁', c₂', hs₁, hs₂, hc'⟩
    · simp only [hn₁, hn₂]
      exact .blocked hc
    · simp only [hs₁, hs₂]
      exact .moved hc'

namespace Buffered

/-- What a caller can do to a console, but for releasing it. -/
inductive Call
  | push (text : String)
  | close
  | write (tag : Tag) (text : String)
  | read
  | reset
  | clear
  | restart

def Call.apply : Call → Buffered → Buffered
  | .push text, b => b.push text
  | .close, b => b.close
  | .write tag text, b => b.write tag text
  | .read, b =>
    match b.read? with
    | some (_, b) => b
    | none => b
  | .reset, b => b.reset
  | .clear, b => b.clear
  | .restart, b => b.restart

def appendAll (pieces written : List Segment) : List Segment :=
  pieces.foldl (fun written piece => append piece.tag piece.text written) written

/-- Two consoles that began with the segments `old₁` and `old₂`: they hold the same input, and the
same pieces were written to both, or what they began with is gone from both. -/
structure Alike (old₁ old₂ : List Segment) (c₁ c₂ : Buffered) : Prop where
  input : c₁.input = c₂.input
  written : c₁.written = c₂.written ∨
    ∃ pieces, c₁.written = appendAll pieces old₁ ∧ c₂.written = appendAll pieces old₂

variable {old₁ old₂ : List Segment} {b c₁ c₂ : Buffered}

theorem Alike.write (h : Alike old₁ old₂ c₁ c₂) (tag : Tag) (text : String) :
    Alike old₁ old₂ (c₁.write tag text) (c₂.write tag text) := by
  refine ⟨h.input, ?_⟩
  rcases h.written with hsame | ⟨pieces, hw₁, hw₂⟩
  · exact Or.inl (congrArg (append tag text) hsame)
  · refine Or.inr ⟨pieces ++ [⟨tag, text⟩], ?_, ?_⟩
    · simp only [Buffered.write, hw₁, appendAll, List.foldl_append, List.foldl_cons, List.foldl_nil]
    · simp only [Buffered.write, hw₂, appendAll, List.foldl_append, List.foldl_cons, List.foldl_nil]

theorem Alike.queue (h : Alike old₁ old₂ c₁ c₂) (change : InputQueue → InputQueue) :
    Alike old₁ old₂ { c₁ with input := change c₁.input } { c₂ with input := change c₂.input } :=
  ⟨congrArg change h.input, h.written⟩

theorem Alike.read? (h : Alike old₁ old₂ c₁ c₂) :
    c₁.read? = none ∧ c₂.read? = none ∨
      ∃ input c₁' c₂', c₁.read? = some (input, c₁') ∧ c₂.read? = some (input, c₂') ∧
        Alike old₁ old₂ c₁' c₂' := by
  simp only [Buffered.read?, h.input]
  cases c₂.input.read? with
  | none => exact Or.inl ⟨rfl, rfl⟩
  | some answer => exact Or.inr ⟨_, _, _, rfl, rfl, rfl, h.written⟩

theorem Alike.call (h : Alike old₁ old₂ c₁ c₂) (call : Call) :
    Alike old₁ old₂ (call.apply c₁) (call.apply c₂) := by
  cases call with
  | push text => exact h.queue (InputQueue.push text)
  | close => exact h.queue InputQueue.close
  | write tag text => exact h.write tag text
  | read =>
    simp only [Call.apply]
    rcases h.read? with ⟨hn₁, hn₂⟩ | ⟨input, c₁', c₂', hs₁, hs₂, h'⟩
    · rw [hn₁, hn₂]
      exact h
    · rw [hs₁, hs₂]
      exact h'
  | reset => exact ⟨rfl, Or.inl rfl⟩
  | clear => exact ⟨h.input, Or.inl rfl⟩
  | restart => exact ⟨congrArg InputQueue.restart h.input, Or.inl rfl⟩

theorem likeness (old₁ old₂ : List Segment) :
    Console.Likeness Call.apply (Alike old₁ old₂) where
  change call _ _ h := h.call call
  put ch _ _ h := ⟨rfl, h.write .output (String.singleton ch)⟩
  get? h := h.read?
  message text _ _ h := h.write .message text
  error text _ _ h := h.write .error text
  noteLeft _ _ _ h := ⟨h.input, h.written⟩
  noteRight _ _ _ h := ⟨h.input, h.written⟩
  release h := h.queue InputQueue.release
  reset _ := ⟨rfl, Or.inl rfl⟩

end Buffered

namespace Streams

/-- What can be done to streams, but for releasing them: a caller writes to them and reads, and
whoever feeds the input may add to it or end it. -/
inductive Call
  | push (text : String)
  | close
  | write (text : String)
  | message (text : String)
  | error (text : String)
  | read
  | reset

def Call.apply : Call → Streams → Streams
  | .push text, s => { s with input := s.input.push text }
  | .close, s => { s with input := s.input.close }
  | .write text, s => s.write text
  | .message text, s => s.message text
  | .error text, s => s.error text
  | .read, s =>
    match s.read? with
    | some (_, s) => s
    | none => s
  | .reset, s => s.reset

/-- Two pairs of streams that began with the output `old₁` and `old₂`: they hold the same input, and
both took the same output since then. The error streams are not looked at. -/
structure Alike (old₁ old₂ : String) (s₁ s₂ : Streams) : Prop where
  input : s₁.input = s₂.input
  writable : s₁.writable = s₂.writable
  out : ∃ text, s₁.out = old₁ ++ text ∧ s₂.out = old₂ ++ text

variable {old₁ old₂ : String} {s s₁ s₂ : Streams}

theorem note_eq (n : Note) (s : Streams) : ∃ err, Console.note n s = { s with err } := by
  simp only [Console.note, addNote]
  split
  · exact ⟨_, rfl⟩
  · exact ⟨s.err, rfl⟩

theorem write_eq (text : String) (s : Streams) : ∃ err, s.write text =
    { s with err, out := if s.writable then s.out ++ text else s.out } := by
  obtain ⟨input, out, err, level, _ | _⟩ := s
  · exact note_eq .outputRefused ⟨input, out, err, level, false⟩
  · exact ⟨err, rfl⟩

theorem Alike.write (h : Alike old₁ old₂ s₁ s₂) (text : String) :
    Alike old₁ old₂ (s₁.write text) (s₂.write text) := by
  obtain ⟨err₁, he₁⟩ := write_eq text s₁
  obtain ⟨err₂, he₂⟩ := write_eq text s₂
  rw [he₁, he₂, h.writable]
  refine ⟨h.input, rfl, ?_⟩
  obtain ⟨before, ho₁, ho₂⟩ := h.out
  cases s₂.writable with
  | false => exact ⟨before, ho₁, ho₂⟩
  | true =>
    refine ⟨before ++ text, ?_, ?_⟩
    · simp only [if_true, ho₁, String.append_assoc]
    · simp only [if_true, ho₂, String.append_assoc]

theorem Alike.queue (h : Alike old₁ old₂ s₁ s₂) (change : InputQueue → InputQueue) :
    Alike old₁ old₂ { s₁ with input := change s₁.input } { s₂ with input := change s₂.input } :=
  ⟨congrArg change h.input, h.writable, h.out⟩

theorem Alike.read? (h : Alike old₁ old₂ s₁ s₂) :
    s₁.read? = none ∧ s₂.read? = none ∨
      ∃ input s₁' s₂', s₁.read? = some (input, s₁') ∧ s₂.read? = some (input, s₂') ∧
        Alike old₁ old₂ s₁' s₂' := by
  simp only [Streams.read?, h.input]
  cases s₂.input.read? with
  | none => exact Or.inl ⟨rfl, rfl⟩
  | some answer => exact Or.inr ⟨_, _, _, rfl, rfl, rfl, h.writable, h.out⟩

theorem Alike.call (h : Alike old₁ old₂ s₁ s₂) (call : Call) :
    Alike old₁ old₂ (call.apply s₁) (call.apply s₂) := by
  cases call with
  | push text => exact h.queue (InputQueue.push text)
  | close => exact h.queue InputQueue.close
  | write text => exact h.write text
  | message text | error text => exact ⟨h.input, h.writable, h.out⟩
  | read =>
    simp only [Call.apply]
    rcases h.read? with ⟨hn₁, hn₂⟩ | ⟨input, s₁', s₂', hs₁, hs₂, h'⟩
    · rw [hn₁, hn₂]
      exact h
    · rw [hs₁, hs₂]
      exact h'
  | reset => exact h.queue InputQueue.restart

theorem likeness (old₁ old₂ : String) : Console.Likeness Call.apply (Alike old₁ old₂) where
  change call _ _ h := h.call call
  put ch _ _ h := ⟨rfl, h.write (String.singleton ch)⟩
  get? h := h.read?
  message _ _ _ h := ⟨h.input, h.writable, h.out⟩
  error _ _ _ h := ⟨h.input, h.writable, h.out⟩
  noteLeft n s₁ s₂ h := by
    obtain ⟨err, he⟩ := note_eq n s₁
    rw [he]
    exact ⟨h.input, h.writable, h.out⟩
  noteRight n s₁ s₂ h := by
    obtain ⟨err, he⟩ := note_eq n s₂
    rw [he]
    exact ⟨h.input, h.writable, h.out⟩
  release h := h.queue InputQueue.release
  reset h := h.queue InputQueue.restart

end Streams

end TapeLang
