import Mathlib.Data.List.DropRight
import TapeLang.Console.Requests

/-! # Queued input, request by request

The input of a buffered console over any requests. What was read followed by what is queued is what
was pushed. A closed queue ends behind its last character, a released one is at its end until the
next restart, and neither loses anything.
-/

namespace TapeLang

namespace Buffered

/-- The characters that a request adds to the input. -/
def Request.pushed : Request → List Char
  | .push chars => chars.toList
  | _ => []

/-- The character that a request has read. -/
def Answer.char? : Answer → Option Char
  | .char c => some c
  | _ => none

/-- The last restart came before the last release. -/
def releasedBy (requests : List Request) : Prop :=
  .release ∈ requests.rtakeWhile (· ≠ .restart)

instance (requests : List Request) : Decidable (releasedBy requests) :=
  inferInstanceAs (Decidable (_ ∈ _))

/-- Whether a console is released is looked at first, then its queue, and last whether the input is
closed. -/
theorem serve_read (b : Buffered) :
    serve .read b =
      if b.input.released then (.endOfInput, b)
      else
        match b.input.chars with
        | c :: rest => (.char c, { b with input := { b.input with chars := rest } })
        | [] => if b.input.closed then (.endOfInput, b) else (.blocked, b) := by
  obtain ⟨written, ⟨chars, closed, released⟩, notes⟩ := b
  cases released with
  | true => rfl
  | false =>
    cases chars with
    | cons c rest => rfl
    | nil => cases closed <;> rfl

theorem read_endOfInput_iff (b : Buffered) :
    (serve .read b).1 = .endOfInput ↔
      b.input.released = true ∨ b.input.chars = [] ∧ b.input.closed = true := by
  rw [serve_read]
  cases b.input.released <;> cases b.input.chars <;> cases b.input.closed <;> simp

theorem read_blocked_iff (b : Buffered) :
    (serve .read b).1 = .blocked ↔
      b.input.chars = [] ∧ ¬ b.input.closed = true ∧ ¬ b.input.released = true := by
  rw [serve_read]
  cases b.input.released <;> cases b.input.chars <;> cases b.input.closed <;> simp

theorem read_char_iff (b : Buffered) (c : Char) :
    (serve .read b).1 = .char c ↔ ¬ b.input.released = true ∧ b.input.chars.head? = some c := by
  rw [serve_read]
  cases b.input.released <;> cases b.input.chars <;> cases b.input.closed <;> simp

theorem eq_of_read_endOfInput {b : Buffered} (h : (serve .read b).1 = .endOfInput) :
    (serve .read b).2 = b := by
  rw [serve_read] at h ⊢
  split
  · rfl
  · rw [if_neg ‹_›] at h
    split at h
    · cases h
    · split <;> rfl

theorem latches_read (b : Buffered) :
    (serve .read b).2.input.closed = b.input.closed ∧
      (serve .read b).2.input.released = b.input.released := by
  rw [serve_read]
  split
  · exact ⟨rfl, rfl⟩
  · split
    · exact ⟨rfl, rfl⟩
    · split <;> exact ⟨rfl, rfl⟩

theorem chars_serve {request : Request} (h : request ≠ .reset) (b : Buffered) :
    (serve request b).1.char?.toList ++ (serve request b).2.input.chars =
      b.input.chars ++ request.pushed := by
  cases request with
  | read =>
    rw [serve_read]
    refine Eq.trans ?_ (List.append_nil _).symm
    split
    · rfl
    · split
      · next hchars => exact hchars.symm
      · split <;> rfl
  | reset => exact (h rfl).elim
  | push text => rfl
  | _ => exact (List.append_nil _).symm

theorem closed_serve {request : Request} (h : request ≠ .reset) (b : Buffered) :
    (serve request b).2.input.closed = (b.input.closed || decide (request = .close)) := by
  cases request with
  | read => simpa using (latches_read b).1
  | reset => exact (h rfl).elim
  | close => exact (Bool.or_true _).symm
  | _ => exact (Bool.or_false _).symm

theorem released_serve {request : Request} (h : request ≠ .reset) (b : Buffered) :
    (serve request b).2.input.released =
      (decide (request ≠ .restart) && (b.input.released || decide (request = .release))) := by
  cases request with
  | read => simpa using (latches_read b).2
  | reset => exact (h rfl).elim
  | release => exact (Bool.or_true _).symm
  | restart => rfl
  | _ => exact (Bool.or_false _).symm

section

variable {requests : List Request}

theorem chars_serveAll (hreset : .reset ∉ requests) (b : Buffered) :
    (serveAll requests b).1.filterMap Answer.char? ++ (serveAll requests b).2.input.chars =
      b.input.chars ++ requests.flatMap Request.pushed := by
  induction requests generalizing b with
  | nil => exact (List.append_nil _).symm
  | cons request rest ih =>
    obtain ⟨hrequest, hrest⟩ := not_or.mp (List.mem_cons.not.mp hreset)
    have hfirst := chars_serve (Ne.symm hrequest) b
    have hmore := ih hrest (serve request b).2
    simp only [serveAll, List.flatMap_cons, ← List.append_assoc, ← hfirst]
    rw [List.append_assoc, ← hmore, ← List.append_assoc]
    congr 1
    cases hchar : (serve request b).1.char? <;> simp [hchar]

theorem closed_serveAll (hreset : .reset ∉ requests) (b : Buffered) :
    (serveAll requests b).2.input.closed = (b.input.closed || decide (.close ∈ requests)) := by
  induction requests generalizing b with
  | nil => exact (Bool.or_false _).symm
  | cons request rest ih =>
    obtain ⟨hrequest, hrest⟩ := not_or.mp (List.mem_cons.not.mp hreset)
    simp only [serveAll, ih hrest, closed_serve (Ne.symm hrequest), List.mem_cons, Bool.or_assoc,
      Bool.decide_or, eq_comm]

theorem released_serveAll (hreset : .reset ∉ requests) {b : Buffered}
    (hb : b.input.released = false) :
    (serveAll requests b).2.input.released = decide (releasedBy requests) := by
  induction requests using List.reverseRecOn with
  | nil => exact hb
  | append_singleton requests request ih =>
    simp only [List.mem_append, List.mem_singleton, not_or] at hreset
    rw [serveAll_concat, released_serve (Ne.symm hreset.2), ih hreset.1]
    simp only [releasedBy, List.rtakeWhile_concat]
    by_cases hrestart : request = .restart
    · simp [hrestart]
    · simp [hrestart, eq_comm]

end

theorem input_of_reset {past : List Request} (h : past = [] ∨ past.getLast? = some .reset) :
    (serveAll past {}).2.input = {} := by
  rcases h with rfl | hlast
  · rfl
  · obtain ⟨before, rfl⟩ := List.getLast?_eq_some_iff.mp hlast
    rw [serveAll_concat]
    rfl

end Buffered

/-- The input of a buffered console is a queue that loses nothing, behind two latches. A read is at
the end of the input exactly if the console is released, or nothing is queued and the input is
closed. -/
theorem input_is_lossless_queue (past recent : List Buffered.Request)
    (hpast : past = [] ∨ past.getLast? = some .reset) (hrecent : .reset ∉ recent) :
    let start := (Buffered.serveAll past {}).2
    let served := Buffered.serveAll recent start
    let queued := served.2.input.chars
    let reading := Buffered.serve .read served.2
    start.input = {} ∧
    served.1.filterMap Buffered.Answer.char? ++ queued = recent.flatMap Buffered.Request.pushed ∧
    (reading.1 = .endOfInput ↔ Buffered.releasedBy recent ∨ queued = [] ∧ .close ∈ recent) ∧
    (reading.1 = .endOfInput → reading.2 = served.2) ∧
    (reading.1 = .blocked ↔ queued = [] ∧ .close ∉ recent ∧ ¬ Buffered.releasedBy recent) ∧
    (∀ c, reading.1 = .char c ↔ ¬ Buffered.releasedBy recent ∧ queued.head? = some c) ∧
    (Buffered.serve .restart served.2).2.input = ⟨queued, decide (.close ∈ recent), false⟩ ∧
    (Buffered.serve .release served.2).2.input = ⟨queued, decide (.close ∈ recent), true⟩ := by
  intro start served queued reading
  have hstart : start.input = {} := Buffered.input_of_reset hpast
  have hchars := Buffered.chars_serveAll hrecent start
  have hclosed := Buffered.closed_serveAll hrecent start
  have hreleased := Buffered.released_serveAll hrecent (b := start) (by rw [hstart])
  rw [hstart, List.nil_append] at hchars
  rw [hstart, Bool.false_or] at hclosed
  refine ⟨hstart, hchars, ?_, Buffered.eq_of_read_endOfInput, ?_, fun c => ?_, ?_, ?_⟩
  · rw [Buffered.read_endOfInput_iff, hreleased, hclosed, decide_eq_true_iff, decide_eq_true_iff]
  · rw [Buffered.read_blocked_iff, hreleased, hclosed, decide_eq_true_iff, decide_eq_true_iff]
  · rw [Buffered.read_char_iff, hreleased, decide_eq_true_iff]
  · rw [← hclosed]
    rfl
  · rw [← hclosed]
    rfl

theorem input_is_lossless_queue_restarted :
    let past : List Buffered.Request := [.push "x", .release, .reset]
    let recent : List Buffered.Request :=
      [.push "ab", .read, .close, .release, .read, .restart, .read]
    let served := Buffered.serveAll recent (Buffered.serveAll past {}).2
    served.1.filterMap Buffered.Answer.char? = ['a', 'b'] ∧ served.2.input.chars = [] ∧
      (Buffered.serve .read served.2).1 = .endOfInput ∧
      (Buffered.serve .read served.2).2 = served.2 := by
  intro past recent served
  obtain ⟨-, hchars, hend, hkeeps, -⟩ :=
    input_is_lossless_queue past recent (.inr rfl) (by decide)
  have hqueued : served.2.input.chars = [] := by decide +kernel
  have hended := hend.mpr (.inr ⟨hqueued, by decide⟩)
  rw [show (Buffered.serveAll recent (Buffered.serveAll past {}).2).2.input.chars = [] from hqueued,
    List.append_nil] at hchars
  exact ⟨hchars, hqueued, hended, hkeeps hended⟩

end TapeLang
