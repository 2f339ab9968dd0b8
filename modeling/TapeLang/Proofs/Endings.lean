import TapeLang.Proofs.Jumps
import TapeLang.Proofs.Safety

/-! # The endings of a fresh run

On a closed input a run that starts afresh completes, fails or goes on forever, and nothing else;
the first two happen where the structured execution of its block says so.
-/

namespace TapeLang

variable {w : CellWidth} {size : Nat} {bounds : BoundsPolicy} {input : String}

namespace Buffered

theorem get?_closed {b : Buffered} (h : b.input.closed = true) :
    ∃ input b', Console.get? b = some (input, b') ∧ b'.input.closed = true ∧ b'.text = b.text := by
  obtain ⟨written, ⟨chars, closed, released⟩, notes⟩ := b
  obtain rfl : closed = true := h
  cases released with
  | true => exact ⟨_, _, rfl, rfl, rfl⟩
  | false =>
    cases chars with
    | nil => exact ⟨_, _, rfl, rfl, rfl⟩
    | cons ch rest => exact ⟨_, _, rfl, rfl, rfl⟩

theorem reaches_closed {b b' : Buffered} (h : Console.Reaches b b') (hc : b.input.closed = true) :
    b'.input.closed = true := by
  induction h with
  | refl => exact hc
  | put _ hp ih =>
    cases hp
    exact ih
  | get _ hg ih =>
    obtain ⟨_, _, hg', hc', _⟩ := get?_closed ih
    rw [hg] at hg'
    cases hg'
    exact hc'

theorem text_prefix_of_reaches {b b' : Buffered} (h : Console.Reaches b b')
    (hc : b.input.closed = true) : b.text.toList <+: b'.text.toList := by
  induction h with
  | refl => exact List.prefix_rfl
  | @put d e ch _ hp ih =>
    have he : e.text = d.text ++ String.singleton ch := by rw [← text_put, hp]
    rw [he, String.toList_append]
    exact ih.trans (List.prefix_append _ _)
  | @get d e _ hr hg ih =>
    obtain ⟨_, _, hg', _, ht⟩ := get?_closed (reaches_closed hr hc)
    rw [hg] at hg'
    cases hg'
    rwa [ht]

end Buffered

namespace Scene

/-- The scene that a fresh run begins with. -/
def opening (size : Nat) (input : String) : Scene w Buffered := ⟨.blank size, .withInput input⟩

theorem opening_onTape : (opening size input : Scene w Buffered).memory.OnTape :=
  Memory.blank_onTape size

def remains (s : Scene w Buffered) : Remains w :=
  ⟨s.memory, s.console.text, s.console.input.chars⟩

end Scene

namespace Machine

variable {p : Program} {m m' : Machine w} {c c' : Buffered}

/-- What a run on a closed input keeps: the pointer on the tape and the input closed. -/
def Sound (m : Machine w) (c : Buffered) : Prop := m.memory.OnTape ∧ c.input.closed = true

theorem turn_sound (hp : p.Paired) (h : m.Sound c) :
    (∃ event m' c', m.turn p c = .moved event m' c' ∧ m'.Sound c') ∨ m.Stops p c := by
  obtain ⟨hm, hc⟩ := h
  have hreg := step_regular hp hm
  unfold Stops turn
  generalize m.step p = action at hreg
  cases hreg with
  | halt => exact Or.inr (Or.inl ⟨_, _, rfl⟩)
  | fault e => exact Or.inr (Or.inr ⟨_, _, _, rfl⟩)
  | proceed hm' => exact Or.inl ⟨_, _, _, rfl, hm', hc⟩
  | pause hm' => exact Or.inl ⟨_, _, _, rfl, hm', hc⟩
  | write ch hm' => exact Or.inl ⟨_, _, _, rfl, hm', hc⟩
  | read =>
    obtain ⟨input, c', hg, hc', -⟩ := Buffered.get?_closed hc
    simp only [hg]
    exact Or.inl ⟨_, _, _, rfl, Memory.receive_onTape hm input, hc'⟩

theorem moves_sound {n : Nat} (hp : p.Paired) (hm : Moves p n m c m' c') (h : m.Sound c) :
    m'.Sound c' := by
  induction hm with
  | refl => exact h
  | step ht _ ih =>
    rcases turn_sound hp h with ⟨event, m₁, c₁, ht', hs⟩ | hstop
    · rw [ht] at ht'
      cases ht'
      exact ih hs
    · exact (hstop.not_moved ht).elim

end Machine

namespace Program

variable {b : Block} {r : Remains w} {e : BoundsError}

theorem completes_ofBlock_iff : Completes size bounds input (ofBlock b) r ↔
    ∃ t, b.Yields bounds (.opening size input) (.done t) ∧ r = t.remains := by
  have hs : (Scene.opening size input : Scene w Buffered).memory.OnTape := Scene.opening_onTape
  rw [completes_iff]
  constructor
  · rintro ⟨n, m₀, c₀, m, c, hm, ht, rfl⟩
    obtain ⟨t, hy, rfl, rfl⟩ := (halts_ofBlock_iff hs).mp ⟨n, m₀, c₀, hm, ht⟩
    exact ⟨t, hy, rfl⟩
  · rintro ⟨t, hy, rfl⟩
    obtain ⟨n, m₀, c₀, hm, ht⟩ := (halts_ofBlock_iff hs).mpr ⟨t, hy, rfl, rfl⟩
    exact ⟨n, m₀, c₀, _, _, hm, ht, rfl⟩

theorem yields_of_fails (h : Fails size bounds input (ofBlock b) e r) :
    ∃ t, b.Yields bounds (.opening size input) (.fault e.fault t) ∧ r = t.remains := by
  obtain ⟨n, m₀, c₀, m, c, hm, ht, rfl⟩ := fails_iff.mp h
  exact ⟨_, yields_fault_of_faults Scene.opening_onTape hm ht, rfl⟩

theorem fails_of_yields {f : BoundsFault} {t : Scene w Buffered}
    (h : b.Yields bounds (.opening size input) (.fault f t)) :
    ∃ e, e.fault = f ∧ Fails size bounds input (ofBlock b) e t.remains := by
  obtain ⟨n, m, e, hm, ht, he, hmem⟩ := faults_of_yields_fault Scene.opening_onTape h
  refine ⟨e, he, fails_iff.mpr ⟨n, m, t.console, m, t.console, hm, ht, ?_⟩⟩
  rw [hmem]
  rfl

/-- A run of laid out code on a closed input has one of three endings. -/
theorem ofBlock_endings (w : CellWidth) (size : Nat) (bounds : BoundsPolicy) (input : String)
    (b : Block) :
    (∃ r : Remains w, Completes size bounds input (ofBlock b) r) ∨
    (∃ e, ∃ r : Remains w, Fails size bounds input (ofBlock b) e r) ∨
    RunsForever w size bounds input (ofBlock b) := by
  by_cases hforever : RunsForever w size bounds input (ofBlock b)
  · exact Or.inr (Or.inr hforever)
  · obtain ⟨fuel, hfuel⟩ := Classical.not_forall.mp hforever
    have hsound : (Machine.new size bounds : Machine w).Sound (Buffered.withInput input) :=
      ⟨Memory.blank_onTape size, rfl⟩
    obtain ⟨n, m, c, progress, hm, ⟨-, hu⟩ | ⟨-, hstuck, -⟩⟩ := execute_moves (ofBlock b) fuel {}
      (Machine.new size bounds : Machine w) (Buffered.withInput input)
    · exact (hfuel (by rw [freshRun, hu])).elim
    · rcases Machine.turn_sound (ofBlock_paired b)
        (Machine.moves_sound (ofBlock_paired b) hm hsound) with ⟨_, _, _, ht, _⟩ | hstop
      · exact (hstuck _ _ _ ht).elim
      · rcases hstop with ⟨m', c', ht⟩ | ⟨e, m', c', ht⟩
        · exact Or.inl ⟨_, completes_iff.mpr ⟨n, m, c, m', c', hm, ht, rfl⟩⟩
        · exact Or.inr (Or.inl ⟨e, _, fails_iff.mpr ⟨n, m, c, m', c', hm, ht, rfl⟩⟩)

end Program

end TapeLang
