import TapeLang.Proofs.Run
import TapeLang.Proofs.Safety

/-! # Transcripts

A recorded console keeps a transcript of what passes through it, and a script is a console whose
answers are fixed beforehand. What a machine does depends on its console only through the answers:
on a script with the same answers it does the same.
-/

namespace TapeLang

variable {w : CellWidth} {τ : Type}

/-- Something said to a console or heard from it. -/
inductive Exchange
  | wrote (c : Char)
  | got (input : Option Char)
  | message (text : String)
  | error (text : String)
  deriving DecidableEq, Repr

namespace Exchange

def answer? : Exchange → Option (Option Char)
  | .got input => some input
  | _ => none

/-- What was read, the end of the input included. -/
def answers (t : List Exchange) : List (Option Char) := t.filterMap answer?

@[simp] theorem answers_append (t t' : List Exchange) :
    answers (t ++ t') = answers t ++ answers t' :=
  List.filterMap_append

end Exchange

/-- What an event says or hears. -/
def Event.exchanges : Event → List Exchange
  | .wrote c => [.wrote c]
  | .got input => [.got input]
  | _ => []

theorem Event.message_not_mem_exchanges (event : Event) (text : String) :
    Exchange.message text ∉ event.exchanges := by
  cases event <;> simp [exchanges]

/-- A console that keeps a transcript. Notes are not part of it. -/
structure Recorded (τ : Type) where
  inner : τ
  transcript : List Exchange

instance [Console τ] : Console (Recorded τ) where
  put ch := fun
    | ⟨inner, transcript⟩ =>
      match Console.put ch inner with
      | (true, inner) => (true, ⟨inner, transcript ++ [.wrote ch]⟩)
      | (false, inner) => (false, ⟨inner, transcript⟩)
  get? := fun
    | ⟨inner, transcript⟩ =>
      (Console.get? inner).map fun (input, inner) =>
        (input, ⟨inner, transcript ++ [.got input]⟩)
  message text := fun
    | ⟨inner, transcript⟩ => ⟨Console.message text inner, transcript ++ [.message text]⟩
  error text := fun
    | ⟨inner, transcript⟩ => ⟨Console.error text inner, transcript ++ [.error text]⟩
  note n := fun
    | ⟨inner, transcript⟩ => ⟨Console.note n inner, transcript⟩
  release := fun
    | ⟨inner, transcript⟩ => ⟨Console.release inner, transcript⟩
  reset := fun
    | ⟨inner, transcript⟩ => ⟨Console.reset inner, transcript⟩

/-- A console that takes everything and answers by a list. -/
structure Script where
  answers : List (Option Char)

instance : Console Script where
  put _ s := (true, s)
  get? := fun
    | ⟨[]⟩ => none
    | ⟨input :: rest⟩ => some (input, ⟨rest⟩)
  message _ s := s
  error _ s := s
  note _ s := s
  release s := s
  reset s := s

/-- A script with an empty transcript. -/
def Recorded.script (answers : List (Option Char)) : Recorded Script := ⟨⟨answers⟩, []⟩

theorem Recorded.transcript_noteAll [Console τ] (notes : List Note) (c : Recorded τ) :
    (Console.noteAll notes c).transcript = c.transcript := by
  induction notes generalizing c with
  | nil => rfl
  | cons n notes ih => exact ih (Console.note n c)

variable [Console τ] {p : Program} {m m' : Machine w} {c c' : τ} {event : Event}

/-- The same turn with a transcript kept. -/
def Turn.record (t : List Exchange) : Turn w τ → Turn w (Recorded τ)
  | .moved event m c => .moved event m ⟨c, t ++ event.exchanges⟩
  | .halted m c => .halted m ⟨c, t⟩
  | .blocked m c => .blocked m ⟨c, t⟩
  | .faulted e m c => .faulted e m ⟨c, t⟩
  | .crashed defect m c => .crashed defect m ⟨c, t⟩

namespace Machine

theorem turn_recorded (p : Program) (m : Machine w) (c : τ) (t : List Exchange) :
    m.turn p (⟨c, t⟩ : Recorded τ) = (m.turn p c).record t := by
  have hnil (event : Event) (h : event.exchanges = []) (m : Machine w) :
      (.moved event m ⟨c, t⟩ : Turn w (Recorded τ)) = .moved event m ⟨c, t ++ event.exchanges⟩ := by
    rw [h, List.append_nil]
  unfold turn
  cases m.step p with
  | halt m' => rfl
  | proceed m' => exact hnil .silent rfl m'
  | pause m' => exact hnil .breakpoint rfl m'
  | fault e m' => rfl
  | crash defect m' => rfl
  | write ch m' =>
    simp only [Console.put]
    rcases Console.put ch c with ⟨_ | _, c'⟩ <;> rfl
  | read m' =>
    simp only [Console.get?]
    rcases Console.get? c with _ | ⟨input, c'⟩ <;> rfl

/-- On a script that holds the answer, a move is the same move. -/
theorem turn_script (h : m.turn p c = .moved event m' c') (t : List Exchange)
    (future : List (Option Char)) :
    m.turn p (⟨⟨Exchange.answers event.exchanges ++ future⟩, t⟩ : Recorded Script) =
      .moved event m' ⟨⟨future⟩, t ++ event.exchanges⟩ := by
  rw [turn_recorded]
  unfold turn at h ⊢
  cases hs : m.step p with
  | proceed => rw [hs] at h; cases h; rfl
  | pause => rw [hs] at h; cases h; rfl
  | write ch m₁ =>
    rw [hs] at h
    dsimp only at h
    split at h <;> cases h
    rfl
  | read m₁ =>
    rw [hs] at h
    dsimp only at h
    split at h <;> cases h
    rfl
  | _ => rw [hs] at h; cases h

theorem turn_of_halt (h : m.step p = .halt m') (c : τ) : m.turn p c = .halted m' c := by
  simp [turn, h]

theorem turn_of_fault {e : BoundsError} (h : m.step p = .fault e m') (c : τ) :
    m.turn p c = .faulted e m' c := by
  simp [turn, h]

/-- A safe machine on a console that does not break moves on, waits for input, or has come to the
end of its run. -/
theorem turn_safe (hp : p.Paired) (hm : m.memory.OnTape)
    (hput : ∀ ch (c : τ), (Console.put ch c).1 = true) (c : τ) :
    (∃ event m' c', m.turn p c = .moved event m' c' ∧ m'.memory.OnTape) ∨
    m.turn p c = .blocked m c ∨ m.step p = .halt m ∨ ∃ e, m.step p = .fault e m := by
  have hreg := step_regular hp hm
  unfold turn
  generalize m.step p = action at hreg
  cases hreg with
  | halt => exact Or.inr (Or.inr (Or.inl rfl))
  | fault e => exact Or.inr (Or.inr (Or.inr ⟨e, rfl⟩))
  | proceed hm' => exact Or.inl ⟨_, _, _, rfl, hm'⟩
  | pause hm' => exact Or.inl ⟨_, _, _, rfl, hm'⟩
  | write ch hm' =>
    have htaken := hput ch c
    dsimp only
    generalize Console.put ch c = answer at htaken ⊢
    obtain ⟨taken, c'⟩ := answer
    cases htaken
    exact Or.inl ⟨_, _, _, rfl, hm'⟩
  | read =>
    dsimp only
    cases Console.get? c with
    | none => exact Or.inr (Or.inl rfl)
    | some answer => exact Or.inl ⟨_, _, _, rfl, Memory.receive_onTape hm answer.1⟩

end Machine

end TapeLang
