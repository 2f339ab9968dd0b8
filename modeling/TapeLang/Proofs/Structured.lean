import TapeLang.Console
import TapeLang.Proofs.Scan

/-! # Structured execution

What a loop tree does without jumps: operations act one after the other, and a loop repeats its body
while the current cell is not zero. `Block.Yields` relates a block and a scene to the way its
execution ends; an execution without end yields nothing.
-/

namespace TapeLang

variable {w : CellWidth} {τ : Type}

namespace Memory

variable {s t : Memory w} {bounds : BoundsPolicy} {o : Op}

/-- The data pointer stands on the tape. -/
def OnTape (s : Memory w) : Prop := s.pointer < s.tape.size

theorem OnTape.current (h : s.OnTape) : ∃ c, s.current? = some c :=
  Tape.exists_get? h

theorem OnTape.size_pos (h : s.OnTape) : 0 < s.tape.size :=
  Nat.lt_of_le_of_lt (Nat.zero_le _) h

theorem onTape_of_current {c : Cell w} (h : s.current? = some c) : s.OnTape :=
  Tape.lt_of_get? h

theorem blank_onTape (size : Nat) : (blank size : Memory w).OnTape := by
  show 0 < (Tape.blank size : Tape w).size
  rw [Tape.size_blank]
  omega

theorem receive_onTape (h : s.OnTape) (input : Option Char) : (s.receive input).OnTape := by
  simpa [OnTape, receive] using h

/-- Replace the current cell. -/
def put (s : Memory w) (c : Cell w) : Memory w := ⟨s.tape.set s.pointer c, s.pointer⟩

@[simp] theorem put_put (s : Memory w) (c d : Cell w) : (s.put c).put d = s.put d := by
  simp [put]

theorem put_current {c : Cell w} (h : s.current? = some c) : s.put c = s := by
  simp [put, Tape.set_get? h]

theorem current_put (h : s.OnTape) (c : Cell w) : (s.put c).current? = some c :=
  Tape.get?_set_self h c

theorem put_onTape (h : s.OnTape) (c : Cell w) : (s.put c).OnTape := by
  simpa [OnTape, put] using h

theorem receive_put (c : Cell w) (input : Option Char) :
    (s.put c).receive input = s.receive input := by
  simp [put, receive]

theorem perform_move (s : Memory w) (n : Int) :
    s.perform bounds (.move n) =
      match s.tape.offset s.pointer n bounds with
      | .ok target => .done ⟨s.tape, target⟩
      | .error fault => .trap (.fault fault) s := rfl

theorem perform_scan (s : Memory w) (d : Direction) :
    s.perform bounds (.scan d) =
      match s.tape.scan s.pointer d bounds with
      | .ok target => .done ⟨s.tape, target⟩
      | .error trap => .trap trap s := rfl

theorem perform_add {c : Cell w} (h : s.current? = some c) (n : Int) :
    s.perform bounds (.add n) = .done (s.put (c.add n)) := by
  have h' : s.tape.get? s.pointer = some c := h
  simp [perform, h', put]

theorem perform_clear {c : Cell w} (h : s.current? = some c) :
    s.perform bounds .clear = .done (s.put .zero) := by
  have h' : s.tape.get? s.pointer = some c := h
  simp [perform, h', put]

theorem perform_output {c : Cell w} (h : s.current? = some c) :
    s.perform bounds .output = .write c.toChar s := by
  have h' : s.tape.get? s.pointer = some c := h
  simp [perform, h']

theorem perform_input {c : Cell w} (h : s.current? = some c) :
    s.perform bounds .input = .read s := by
  have h' : s.tape.get? s.pointer = some c := h
  simp [perform, h']

/-- What an operation can come to from a pointer on the tape. -/
inductive Regular (s : Memory w) : Effect w → Prop
  | done {t : Memory w} : t.OnTape → Regular s (.done t)
  | write (ch : Char) : Regular s (.write ch s)
  | read : Regular s (.read s)
  | pause : Regular s (.pause s)
  | fault (fault : BoundsFault) : Regular s (.trap (.fault fault) s)

theorem perform_regular (h : s.OnTape) (bounds : BoundsPolicy) (o : Op) :
    s.Regular (s.perform bounds o) := by
  obtain ⟨c, hc⟩ := h.current
  cases o with
  | move n =>
    rw [perform_move]
    split
    · exact .done (Tape.offset_lt h.size_pos ‹_›)
    · exact .fault _
  | scan d =>
    rw [perform_scan]
    have hj := Tape.scan_journey bounds d h
    generalize s.tape.scan s.pointer d bounds = result at hj
    cases hj with
    | arrives _ hz =>
      obtain ⟨_, hz, _⟩ := hz
      exact .done (Tape.lt_of_get? hz)
    | leaves => exact .fault _
    | circles => exact .fault _
  | add n =>
    rw [perform_add hc]
    exact .done (put_onTape h _)
  | clear =>
    rw [perform_clear hc]
    exact .done (put_onTape h _)
  | output =>
    rw [perform_output hc]
    exact .write _
  | input =>
    rw [perform_input hc]
    exact .read
  | breakpoint => exact .pause

def AtZero (s : Memory w) : Prop := s.tape.ZeroAt s.pointer

def AtNonzero (s : Memory w) : Prop := s.tape.NonzeroAt s.pointer

theorem OnTape.atZero_or_atNonzero (h : s.OnTape) : s.AtZero ∨ s.AtNonzero :=
  Tape.zeroAt_or_nonzeroAt h

theorem AtNonzero.not_atZero (h : s.AtNonzero) : ¬ s.AtZero := by
  rintro ⟨c, hc, hz⟩
  obtain ⟨c', hc', hz'⟩ := h
  rw [hc] at hc'
  cases hc'
  rw [hz] at hz'
  cases hz'

end Memory

/-- A memory with the console that serves it. -/
structure Scene (w : CellWidth) (τ : Type) where
  memory : Memory w
  console : τ

/-- How the execution of a block ends. -/
inductive Result (w : CellWidth) (τ : Type)
  | done (scene : Scene w τ)
  | fault (fault : BoundsFault) (scene : Scene w τ)

def Result.scene : Result w τ → Scene w τ
  | .done s => s
  | .fault _ s => s

variable [Console τ] {bounds : BoundsPolicy}

/-- What an operation does to a scene; nothing if it waits for input or something breaks. -/
def Scene.perform (bounds : BoundsPolicy) (o : Op) (s : Scene w τ) : Option (Result w τ) :=
  match s.memory.perform bounds o with
  | .done memory => some (.done ⟨memory, s.console⟩)
  | .pause memory => some (.done ⟨memory, s.console⟩)
  | .write ch memory =>
    match Console.put ch s.console with
    | (true, console) => some (.done ⟨memory, console⟩)
    | (false, _) => none
  | .read memory =>
    match Console.get? s.console with
    | some (input, console) => some (.done ⟨memory.receive input, console⟩)
    | none => none
  | .trap (.fault fault) memory => some (.fault fault ⟨memory, s.console⟩)
  | .trap (.defect _) _ => none

/-- One console comes after another: characters went out or came in between. -/
inductive Console.Reaches : τ → τ → Prop
  | refl (c : τ) : Reaches c c
  | put {c d e : τ} {ch : Char} : Reaches c d → Console.put ch d = (true, e) → Reaches c e
  | get {c d e : τ} {input : Option Char} : Reaches c d → Console.get? d = some (input, e) →
      Reaches c e

theorem Console.Reaches.trans {c d e : τ} (h : Reaches c d) (h' : Reaches d e) : Reaches c e := by
  induction h' with
  | refl => exact h
  | put _ hp ih => exact .put ih hp
  | get _ hg ih => exact .get ih hg

namespace Scene

variable {o : Op} {s t : Scene w τ} {f : BoundsFault}

theorem perform_done (h : s.memory.OnTape) (hp : s.perform bounds o = some (.done t)) :
    t.memory.OnTape ∧ Console.Reaches s.console t.console := by
  have hreg := Memory.perform_regular h bounds o
  unfold perform at hp
  generalize s.memory.perform bounds o = effect at hreg hp
  cases hreg with
  | done ht =>
    cases hp
    exact ⟨ht, .refl _⟩
  | pause =>
    cases hp
    exact ⟨h, .refl _⟩
  | write ch =>
    dsimp only at hp
    split at hp <;> cases hp
    exact ⟨h, .put (.refl _) ‹_›⟩
  | read =>
    dsimp only at hp
    split at hp <;> cases hp
    exact ⟨Memory.receive_onTape h _, .get (.refl _) ‹_›⟩
  | fault => cases hp

theorem perform_fault (h : s.memory.OnTape) (hp : s.perform bounds o = some (.fault f t)) :
    t = s := by
  have hreg := Memory.perform_regular h bounds o
  unfold perform at hp
  generalize s.memory.perform bounds o = effect at hreg hp
  cases hreg with
  | fault => cases hp; rfl
  | write ch => dsimp only at hp; split at hp <;> cases hp
  | read => dsimp only at hp; split at hp <;> cases hp
  | _ => cases hp

theorem perform_move_ok {n : Int} {target : Nat}
    (h : s.memory.tape.offset s.memory.pointer n bounds = .ok target) :
    s.perform bounds (.move n) = some (.done ⟨⟨s.memory.tape, target⟩, s.console⟩) := by
  simp [perform, Memory.perform_move, h]

theorem perform_move_error {n : Int}
    (h : s.memory.tape.offset s.memory.pointer n bounds = .error f) :
    s.perform bounds (.move n) = some (.fault f s) := by
  simp [perform, Memory.perform_move, h]

theorem perform_scan_ok {d : Direction} {target : Nat}
    (h : s.memory.tape.scan s.memory.pointer d bounds = .ok target) :
    s.perform bounds (.scan d) = some (.done ⟨⟨s.memory.tape, target⟩, s.console⟩) := by
  simp [perform, Memory.perform_scan, h]

theorem perform_scan_error {d : Direction}
    (h : s.memory.tape.scan s.memory.pointer d bounds = .error (.fault f)) :
    s.perform bounds (.scan d) = some (.fault f s) := by
  simp [perform, Memory.perform_scan, h]

theorem perform_add {c : Cell w} (h : s.memory.current? = some c) (n : Int) :
    s.perform bounds (.add n) = some (.done ⟨s.memory.put (c.add n), s.console⟩) := by
  simp [perform, Memory.perform_add h]

theorem perform_clear {c : Cell w} (h : s.memory.current? = some c) :
    s.perform bounds .clear = some (.done ⟨s.memory.put .zero, s.console⟩) := by
  simp [perform, Memory.perform_clear h]

end Scene

/-- A block, executed from a scene, comes to a result. -/
inductive Block.Yields (bounds : BoundsPolicy) : Block → Scene w τ → Result w τ → Prop
  | nil (s : Scene w τ) : Yields bounds .nil s (.done s)
  | op {o : Op} {rest : Block} {s t : Scene w τ} {r : Result w τ} :
      s.perform bounds o = some (.done t) → Yields bounds rest t r → Yields bounds (.op o rest) s r
  | opFault {o : Op} {rest : Block} {s t : Scene w τ} {fault : BoundsFault} :
      s.perform bounds o = some (.fault fault t) → Yields bounds (.op o rest) s (.fault fault t)
  | exit {body rest : Block} {s : Scene w τ} {r : Result w τ} : s.memory.AtZero →
      Yields bounds rest s r → Yields bounds (.loop body rest) s r
  | again {body rest : Block} {s t : Scene w τ} {r : Result w τ} : s.memory.AtNonzero →
      Yields bounds body s (.done t) → Yields bounds (.loop body rest) t r →
      Yields bounds (.loop body rest) s r
  | bodyFault {body rest : Block} {s t : Scene w τ} {fault : BoundsFault} :
      s.memory.AtNonzero → Yields bounds body s (.fault fault t) →
      Yields bounds (.loop body rest) s (.fault fault t)

namespace Block

variable {o : Op} {b body rest : Block} {s t : Scene w τ} {r : Result w τ} {f : BoundsFault}

@[simp] theorem yields_nil_iff : Yields bounds .nil s r ↔ r = .done s := by
  constructor
  · intro h
    cases h
    rfl
  · rintro rfl
    exact .nil s

theorem yields_op_of_done (h : s.perform bounds o = some (.done t)) :
    Yields bounds (.op o rest) s r ↔ Yields bounds rest t r := by
  constructor
  · intro hy
    cases hy with
    | op h' hr => rw [h] at h'; cases h'; exact hr
    | opFault h' => rw [h] at h'; cases h'
  · exact .op h

theorem yields_op_of_fault (h : s.perform bounds o = some (.fault f t)) :
    Yields bounds (.op o rest) s r ↔ r = .fault f t := by
  constructor
  · intro hy
    cases hy with
    | op h' => rw [h] at h'; cases h'
    | opFault h' => rw [h] at h'; cases h'; rfl
  · rintro rfl
    exact .opFault h

theorem yields_op_of_none (h : s.perform bounds o = none) : ¬ Yields bounds (.op o rest) s r := by
  intro hy
  cases hy with
  | op h' => rw [h] at h'; cases h'
  | opFault h' => rw [h] at h'; cases h'

theorem yields_loop_of_zero (h : s.memory.AtZero) :
    Yields bounds (.loop body rest) s r ↔ Yields bounds rest s r := by
  constructor
  · intro hy
    cases hy with
    | exit _ hr => exact hr
    | again hn => exact (hn.not_atZero h).elim
    | bodyFault hn => exact (hn.not_atZero h).elim
  · exact .exit h

theorem yields_loop_of_nonzero (h : s.memory.AtNonzero) :
    Yields bounds (.loop body rest) s r ↔
      (∃ t, Yields bounds body s (.done t) ∧ Yields bounds (.loop body rest) t r) ∨
      (∃ f t, Yields bounds body s (.fault f t) ∧ r = .fault f t) := by
  constructor
  · intro hy
    cases hy with
    | exit hz => exact (h.not_atZero hz).elim
    | again _ hb hl => exact Or.inl ⟨_, hb, hl⟩
    | bodyFault _ hb => exact Or.inr ⟨_, _, hb, rfl⟩
  · rintro (⟨t, hb, hl⟩ | ⟨f, t, hb, rfl⟩)
    · exact .again h hb hl
    · exact .bodyFault h hb

/-- An execution that starts on the tape ends on the tape, with a later console. -/
theorem Yields.keeps (h : Yields bounds b s r) (hs : s.memory.OnTape) :
    r.scene.memory.OnTape ∧ Console.Reaches s.console r.scene.console := by
  induction h with
  | nil s => exact ⟨hs, .refl _⟩
  | op hp _ ih =>
    obtain ⟨ht, hc⟩ := Scene.perform_done hs hp
    exact ⟨(ih ht).1, hc.trans (ih ht).2⟩
  | opFault hp =>
    rw [Scene.perform_fault hs hp]
    exact ⟨hs, .refl _⟩
  | exit _ _ ih => exact ih hs
  | again _ _ _ ihb ihl =>
    obtain ⟨ht, hc⟩ := ihb hs
    exact ⟨(ihl ht).1, hc.trans (ihl ht).2⟩
  | bodyFault _ _ ih => exact ih hs

end Block

end TapeLang
