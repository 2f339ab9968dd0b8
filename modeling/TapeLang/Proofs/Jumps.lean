import TapeLang.Proofs.Layout
import TapeLang.Proofs.Run
import TapeLang.Proofs.Structured

/-! # Jumps and structure

A program laid out from a block does with jumps what the block does by structure: a run of the
program completes or fails exactly where the execution of the block does.
-/

namespace TapeLang

variable {w : CellWidth} {τ : Type} [Console τ] {bounds : BoundsPolicy} {p : Program} {i : Nat}

/-- The turn at an operation, by what the operation does to the scene. -/
inductive Served (i : Nat) (bounds : BoundsPolicy) : Option (Result w τ) → Turn w τ → Prop
  | moved (event : Event) (t : Scene w τ) :
      Served i bounds (some (.done t)) (.moved event ⟨t.memory, i + 1, bounds⟩ t.console)
  | faulted (f : BoundsFault) (t : Scene w τ) :
      Served i bounds (some (.fault f t)) (.faulted ⟨f, i, t.memory.pointer, t.memory.tape.size⟩
        ⟨t.memory, i, bounds⟩ t.console)
  | blocked (m : Machine w) (c : τ) : Served i bounds none (.blocked m c)
  | crashed (d : Defect) (m : Machine w) (c : τ) : Served i bounds none (.crashed d m c)

namespace Machine

variable {s : Memory w} {c : τ}

theorem turn_end (h : p.get? i = none) :
    turn p ⟨s, i, bounds⟩ c = .halted ⟨s, i, bounds⟩ c := by
  simp [turn, step, h]

theorem turn_op {o : Op} (h : p.get? i = some (.op o)) (bounds : BoundsPolicy) (s : Scene w τ) :
    Served i bounds (s.perform bounds o) (turn p ⟨s.memory, i, bounds⟩ s.console) := by
  simp only [turn, step, h, Scene.perform]
  cases s.memory.perform bounds o with
  | done t => exact .moved .silent ⟨t, s.console⟩
  | pause t => exact .moved .breakpoint ⟨t, s.console⟩
  | write ch t =>
    dsimp only
    rcases Console.put ch s.console with ⟨_ | _, console⟩
    · exact .crashed _ _ _
    · exact .moved (.wrote ch) ⟨t, console⟩
  | read t =>
    dsimp only
    rcases Console.get? s.console with _ | ⟨input, console⟩
    · exact .blocked _ _
    · exact .moved (.got input) ⟨t.receive input, console⟩
  | trap reason t =>
    cases reason with
    | fault f => exact .faulted f ⟨t, s.console⟩
    | defect d => exact .crashed _ _ _

theorem turn_op_done {o : Op} {s t : Scene w τ} (h : p.get? i = some (.op o))
    (hp : s.perform bounds o = some (.done t)) :
    ∃ event, turn p ⟨s.memory, i, bounds⟩ s.console =
      .moved event ⟨t.memory, i + 1, bounds⟩ t.console := by
  have hs := turn_op h bounds s
  rw [hp] at hs
  generalize turn p ⟨s.memory, i, bounds⟩ s.console = result at hs ⊢
  cases hs with
  | moved event => exact ⟨event, rfl⟩

theorem turn_op_fault {o : Op} {s t : Scene w τ} {f : BoundsFault} (h : p.get? i = some (.op o))
    (hp : s.perform bounds o = some (.fault f t)) :
    turn p ⟨s.memory, i, bounds⟩ s.console =
      .faulted ⟨f, i, t.memory.pointer, t.memory.tape.size⟩ ⟨t.memory, i, bounds⟩ t.console := by
  have hs := turn_op h bounds s
  rw [hp] at hs
  generalize turn p ⟨s.memory, i, bounds⟩ s.console = result at hs ⊢
  cases hs with
  | faulted => rfl

theorem turn_op_moved {o : Op} {s : Scene w τ} {event : Event} {m : Machine w} {c : τ}
    (h : p.get? i = some (.op o))
    (ht : turn p ⟨s.memory, i, bounds⟩ s.console = .moved event m c) :
    ∃ t, s.perform bounds o = some (.done t) ∧ m = ⟨t.memory, i + 1, bounds⟩ ∧ c = t.console := by
  have hs := turn_op h bounds s
  rw [ht] at hs
  generalize s.perform bounds o = result at hs ⊢
  cases hs with
  | moved event t => exact ⟨t, rfl, rfl, rfl⟩

/-- The run ends with this turn: by itself at the end of the program, or by a fault. -/
def Stops (p : Program) (m : Machine w) (c : τ) : Prop :=
  (∃ m' c', m.turn p c = .halted m' c') ∨ (∃ e m' c', m.turn p c = .faulted e m' c')

theorem Stops.not_moved {m m' : Machine w} {c c' : τ} {event : Event} (h : m.Stops p c) :
    m.turn p c ≠ .moved event m' c' := by
  rcases h with ⟨_, _, h⟩ | ⟨_, _, _, h⟩ <;> simp [h]

theorem turn_op_stops {o : Op} {s : Scene w τ} (h : p.get? i = some (.op o))
    (ht : Stops p ⟨s.memory, i, bounds⟩ s.console) :
    ∃ f t, s.perform bounds o = some (.fault f t) := by
  have hs := turn_op h bounds s
  unfold Stops at ht
  generalize turn p ⟨s.memory, i, bounds⟩ s.console = turn at hs ht
  generalize s.perform bounds o = result at hs ⊢
  cases hs with
  | faulted f t => exact ⟨f, t, rfl⟩
  | _ => simp at ht

end Machine

namespace Block

/-- Where the execution of a block at `i` may begin: a loop can also be entered through its end. -/
def Entry : Block → Nat → Nat → Prop
  | .loop body _, i, k => k = i ∨ k = i + 1 + body.size
  | _, i, k => k = i

theorem entry_self (b : Block) (i : Nat) : b.Entry i i := by
  cases b <;> simp [Entry]

variable {b body rest : Block} {k : Nat} {s : Memory w}

theorem turn_exit (bounds : BoundsPolicy) (c : τ) (hl : (loop body rest).LaidAt p i)
    (hk : (loop body rest).Entry i k) (hz : s.AtZero) : Machine.turn p ⟨s, k, bounds⟩ c =
      .moved .silent ⟨s, i + 1 + body.size + 1, bounds⟩ c := by
  obtain ⟨cell, hc, hz⟩ := hz
  have hc' : s.current? = some cell := hc
  obtain ⟨hs, -, he, -⟩ := hl
  rcases hk with rfl | rfl
  · simp [Machine.turn, Machine.step, Machine.branch, hs, he, hc', hz]
  · simp [Machine.turn, Machine.step, Machine.branch, hs, he, hc', hz]

theorem turn_enter (bounds : BoundsPolicy) (c : τ) (hl : (loop body rest).LaidAt p i)
    (hk : (loop body rest).Entry i k) (hn : s.AtNonzero) :
    Machine.turn p ⟨s, k, bounds⟩ c = .moved .silent ⟨s, i + 1, bounds⟩ c := by
  obtain ⟨cell, hc, hz⟩ := hn
  have hc' : s.current? = some cell := hc
  obtain ⟨hs, -, he, -⟩ := hl
  rcases hk with rfl | rfl
  · simp [Machine.turn, Machine.step, Machine.branch, hs, he, hc', hz]
  · simp [Machine.turn, Machine.step, Machine.branch, hs, he, hc', hz]

/-- Where a run stands when the execution of a block has come to a result. -/
inductive Landing (p : Program) (bounds : BoundsPolicy) (stop : Nat) :
    Result w τ → Machine w → τ → Prop
  | done (t : Scene w τ) : Landing p bounds stop (.done t) ⟨t.memory, stop, bounds⟩ t.console
  | fault {f : BoundsFault} {t : Scene w τ} {k : Nat} :
      Machine.turn p ⟨t.memory, k, bounds⟩ t.console =
        .faulted ⟨f, k, t.memory.pointer, t.memory.tape.size⟩ ⟨t.memory, k, bounds⟩ t.console →
      Landing p bounds stop (.fault f t) ⟨t.memory, k, bounds⟩ t.console

/-- The code of a block carries out what the block yields. -/
theorem Yields.moves {b : Block} {s : Scene w τ} {r : Result w τ} (h : b.Yields bounds s r)
    (hs : s.memory.OnTape) (hl : b.LaidAt p i) (hk : b.Entry i k) :
    ∃ n m c, Moves p n ⟨s.memory, k, bounds⟩ s.console m c ∧
      Landing p bounds (i + b.size) r m c := by
  induction h generalizing i k with
  | nil s =>
    obtain rfl : k = i := hk
    exact ⟨0, _, _, .refl _ _, .done s⟩
  | @op o rest s t r hp _ ih =>
    obtain rfl : k = i := hk
    obtain ⟨ho, hr⟩ := hl
    obtain ⟨n, m, c, hm, hland⟩ := ih (Scene.perform_done hs hp).1 hr (entry_self _ _)
    obtain ⟨event, ht⟩ := Machine.turn_op_done ho hp
    refine ⟨n + 1, m, c, .step ht hm, ?_⟩
    rwa [add_size_op]
  | @opFault o rest s t f hp =>
    obtain rfl : k = i := hk
    obtain rfl := Scene.perform_fault hs hp
    exact ⟨0, _, _, .refl _ _, .fault (Machine.turn_op_fault hl.1 hp)⟩
  | @exit body rest s r hz _ ih =>
    obtain ⟨n, m, c, hm, hland⟩ := ih hs hl.2.2.2 (entry_self _ _)
    refine ⟨n + 1, m, c, .step (turn_exit _ _ hl hk hz) hm, ?_⟩
    rwa [add_size_loop]
  | @again body rest s t r hn hb _ ihb ihl =>
    obtain ⟨n, m, c, hm, hland⟩ := ihb hs hl.2.1 (entry_self _ _)
    cases hland
    -- The body ends on the loop's end, which is the next entry.
    obtain ⟨n', m', c', hm', hland'⟩ := ihl (hb.keeps hs).1 hl (Or.inr rfl)
    exact ⟨n + 1 + n', m', c', (Moves.step (turn_enter _ _ hl hk hn) hm).trans hm', hland'⟩
  | bodyFault hn _ ih =>
    obtain ⟨n, m, c, hm, hland⟩ := ih hs hl.2.1 (entry_self _ _)
    cases hland with
    | fault ht => exact ⟨n + 1, _, _, .step (turn_enter _ _ hl hk hn) hm, .fault ht⟩

/-- A property of executions that a block has as soon as what it goes on with has it. -/
structure Inherited (bounds : BoundsPolicy) (P : Block → Scene w τ → Prop) : Prop where
  op {o : Op} {rest : Block} {s t : Scene w τ} : s.perform bounds o = some (.done t) →
    P rest t → P (.op o rest) s
  exit {body rest : Block} {s : Scene w τ} : s.memory.AtZero → P rest s → P (.loop body rest) s
  body {body rest : Block} {s : Scene w τ} : s.memory.AtNonzero → P body s → P (.loop body rest) s
  again {body rest : Block} {s t : Scene w τ} : s.memory.AtNonzero →
    body.Yields bounds s (.done t) → P (.loop body rest) t → P (.loop body rest) s

/-- A run of `n` moves from the entry of a block either leaves the block at its end, with no more
moves to go, or breaks off inside. What holds of every block that it may break off at then holds of
the block. -/
theorem Inherited.of_moves {P : Block → Scene w τ → Prop} {m : Machine w} {c : τ}
    (hP : Inherited bounds P)
    (hlast : ∀ {b : Block} {s : Scene w τ} {i k : Nat}, b ≠ .nil → s.memory.OnTape →
      b.LaidAt p i → b.Entry i k → m = ⟨s.memory, k, bounds⟩ → c = s.console → P b s)
    {n : Nat} {b : Block} {s : Scene w τ} (hs : s.memory.OnTape) (hl : b.LaidAt p i)
    (hk : b.Entry i k) (hm : Moves p n ⟨s.memory, k, bounds⟩ s.console m c) :
    (∃ t n', n' ≤ n ∧ b.Yields bounds s (.done t) ∧
      Moves p n' ⟨t.memory, i + b.size, bounds⟩ t.console m c) ∨ P b s := by
  -- The number of moves left is what decreases: a loop comes back to itself with fewer of them.
  induction n using Nat.strongRecOn generalizing b i k s with
  | ind n ih =>
    cases b with
    | nil =>
      obtain rfl : k = i := hk
      exact Or.inl ⟨s, n, Nat.le_refl n, .nil s, hm⟩
    | op o rest =>
      cases hm with
      | refl => exact Or.inr (hlast (nomatch ·) hs hl hk rfl rfl)
      | step ht hrest =>
        obtain rfl : k = i := hk
        obtain ⟨ho, hr⟩ := hl
        obtain ⟨t, hp, rfl, rfl⟩ := Machine.turn_op_moved ho ht
        rw [add_size_op]
        rcases ih _ (by omega) (Scene.perform_done hs hp).1 hr (entry_self _ _) hrest with
          ⟨t', n', hn', hy, hmoves⟩ | hin
        · exact Or.inl ⟨t', n', by omega, .op hp hy, hmoves⟩
        · exact Or.inr (hP.op hp hin)
    | loop body rest =>
      cases hm with
      | refl => exact Or.inr (hlast (nomatch ·) hs hl hk rfl rfl)
      | step ht hrest =>
        rcases hs.atZero_or_atNonzero with hz | hn
        · rw [turn_exit bounds s.console hl hk hz] at ht
          cases ht
          rw [add_size_loop]
          rcases ih _ (by omega) hs hl.2.2.2 (entry_self _ _) hrest with
            ⟨t', n', hn', hy, hmoves⟩ | hin
          · exact Or.inl ⟨t', n', by omega, .exit hz hy, hmoves⟩
          · exact Or.inr (hP.exit hz hin)
        · rw [turn_enter bounds s.console hl hk hn] at ht
          cases ht
          rcases ih _ (by omega) hs hl.2.1 (entry_self _ _) hrest with
            ⟨t, n₁, hn₁, hy, hmoves⟩ | hin
          · rcases ih n₁ (by omega) (hy.keeps hs).1 hl (Or.inr rfl) hmoves with
              ⟨t', n', hn', hy', hmoves'⟩ | hin
            · exact Or.inl ⟨t', n', by omega, .again hn hy hy', hmoves'⟩
            · exact Or.inr (hP.again hn hy hin)
          · exact Or.inr (hP.body hn hin)

theorem inherited_fault (p : Program) (bounds : BoundsPolicy) (m : Machine w) (c : τ) :
    Inherited bounds fun (b : Block) (s : Scene w τ) =>
      ∃ f t, b.Yields bounds s (.fault f t) ∧ ∀ stop, Landing p bounds stop (.fault f t) m c where
  op := by
    rintro o rest s t hp ⟨f, u, hy, hland⟩
    exact ⟨f, u, .op hp hy, hland⟩
  exit := by
    rintro body rest s hz ⟨f, u, hy, hland⟩
    exact ⟨f, u, .exit hz hy, hland⟩
  body := by
    rintro body rest s hn ⟨f, u, hy, hland⟩
    exact ⟨f, u, .bodyFault hn hy, hland⟩
  again := by
    rintro body rest s t hn hb ⟨f, u, hy, hland⟩
    exact ⟨f, u, .again hn hb hy, hland⟩

/-- A run that stops either leaves the block at its end or stops inside at a fault of the block. -/
theorem yields_of_moves {n : Nat} {b : Block} {s : Scene w τ} {m : Machine w} {c : τ}
    (hs : s.memory.OnTape) (hl : b.LaidAt p i) (hk : b.Entry i k)
    (hm : Moves p n ⟨s.memory, k, bounds⟩ s.console m c) (hstop : m.Stops p c) :
    (∃ t n', n' ≤ n ∧ b.Yields bounds s (.done t) ∧
      Moves p n' ⟨t.memory, i + b.size, bounds⟩ t.console m c) ∨
    (∃ f t, b.Yields bounds s (.fault f t) ∧ ∀ stop, Landing p bounds stop (.fault f t) m c) := by
  refine (inherited_fault p bounds m c).of_moves ?_ hs hl hk hm
  rintro (_ | ⟨o, rest⟩ | ⟨body, rest⟩) s i k hne hs hl hk rfl rfl
  · exact (hne rfl).elim
  · obtain rfl : k = i := hk
    obtain ⟨f, t, hp⟩ := Machine.turn_op_stops hl.1 hstop
    obtain rfl := Scene.perform_fault hs hp
    exact ⟨f, _, .opFault hp, fun _ => .fault (Machine.turn_op_fault hl.1 hp)⟩
  · rcases hs.atZero_or_atNonzero with hz | hn
    · exact (hstop.not_moved (turn_exit bounds s.console hl hk hz)).elim
    · exact (hstop.not_moved (turn_enter bounds s.console hl hk hn)).elim

end Block

namespace Program

variable {b : Block} {s : Scene w τ} {m : Machine w} {c : τ}

theorem turn_ofBlock_end (b : Block) (s : Memory w) (c : τ) :
    Machine.turn (ofBlock b) ⟨s, b.size, bounds⟩ c = .halted ⟨s, b.size, bounds⟩ c :=
  Machine.turn_end (get?_eq_none_iff.mpr (Nat.le_of_eq (ofBlock_size b)))

theorem moves_ofBlock_end {n : Nat} {s : Memory w} {c c' : τ}
    (h : Moves (ofBlock b) n ⟨s, b.size, bounds⟩ c m c') : m = ⟨s, b.size, bounds⟩ ∧ c' = c := by
  cases h with
  | refl => exact ⟨rfl, rfl⟩
  | step ht => rw [turn_ofBlock_end] at ht; cases ht

theorem halts_ofBlock_iff (hs : s.memory.OnTape) :
    (∃ n m₀ c₀, Moves (ofBlock b) n ⟨s.memory, 0, bounds⟩ s.console m₀ c₀ ∧
      m₀.turn (ofBlock b) c₀ = .halted m c) ↔
    ∃ t, b.Yields bounds s (.done t) ∧ m = ⟨t.memory, b.size, bounds⟩ ∧ c = t.console := by
  have hl := ofBlock_laid b
  constructor
  · rintro ⟨n, m₀, c₀, hm, ht⟩
    rcases Block.yields_of_moves hs hl (b.entry_self 0) hm (Or.inl ⟨m, c, ht⟩) with
      ⟨t, n', -, hy, hm'⟩ | ⟨f, t, -, hland⟩
    · rw [Nat.zero_add] at hm'
      obtain ⟨rfl, rfl⟩ := moves_ofBlock_end hm'
      rw [turn_ofBlock_end] at ht
      cases ht
      exact ⟨t, hy, rfl, rfl⟩
    · cases hland 0 with
      | fault hf => rw [hf] at ht; cases ht
  · rintro ⟨t, hy, rfl, rfl⟩
    obtain ⟨n, m, c, hm, hland⟩ := hy.moves hs hl (b.entry_self 0)
    cases hland with
    | done =>
      rw [Nat.zero_add] at hm
      exact ⟨n, _, _, hm, turn_ofBlock_end b _ _⟩

theorem yields_fault_of_faults {n : Nat} {m₀ : Machine w} {c₀ : τ} {e : BoundsError}
    (hs : s.memory.OnTape) (hm : Moves (ofBlock b) n ⟨s.memory, 0, bounds⟩ s.console m₀ c₀)
    (ht : m₀.turn (ofBlock b) c₀ = .faulted e m c) :
    b.Yields bounds s (.fault e.fault ⟨m.memory, c⟩) := by
  rcases Block.yields_of_moves hs (ofBlock_laid b) (b.entry_self 0) hm
    (Or.inr ⟨e, m, c, ht⟩) with ⟨t, n', -, hy, hm'⟩ | ⟨f, t, hy, hland⟩
  · rw [Nat.zero_add] at hm'
    obtain ⟨rfl, rfl⟩ := moves_ofBlock_end hm'
    rw [turn_ofBlock_end] at ht
    cases ht
  · cases hland 0 with
    | fault hf =>
      rw [hf] at ht
      cases ht
      exact hy

theorem faults_of_yields_fault {f : BoundsFault} {t : Scene w τ} (hs : s.memory.OnTape)
    (hy : b.Yields bounds s (.fault f t)) :
    ∃ n m e, Moves (ofBlock b) n ⟨s.memory, 0, bounds⟩ s.console m t.console ∧
      m.turn (ofBlock b) t.console = .faulted e m t.console ∧ e.fault = f ∧
      m.memory = t.memory := by
  obtain ⟨n, m, c, hm, hland⟩ := hy.moves hs (ofBlock_laid b) (b.entry_self 0)
  cases hland with
  | fault ht => exact ⟨n, _, _, hm, ht, rfl, rfl⟩

end Program

end TapeLang
