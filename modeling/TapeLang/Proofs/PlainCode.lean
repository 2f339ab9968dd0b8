import TapeLang.Proofs.Brackets
import TapeLang.Proofs.Composition
import TapeLang.Proofs.Nesting

/-! # Code without passes

Compiled without passes, a text becomes one instruction for each command, in the order of the text.
The target of a bracket is the number of its partner among the commands, and comments leave no
trace.
-/

namespace TapeLang

open Brackets

/-- How many commands stand before a position of the text. -/
def ordinal (text : List Char) (position : Nat) : Nat :=
  (commands (text.take (position - 1))).length

/-- What the command `c` at a position of the text becomes. -/
inductive Becomes (text : List Char) : Char → Nat → Instruction → Prop
  | op {c : Char} {o : Op} {position : Nat} : (c, o) ∈ plainCommands →
      Becomes text c position (.op o)
  | enter {p q : Nat} : Partners text p q → Becomes text '[' p (.loopStart (ordinal text q))
  | leave {p q : Nat} : Partners text p q → Becomes text ']' q (.loopEnd (ordinal text p))

variable {text text' inside : List Char} {c : Char} {p q : Nat} {i : Instruction} {o : Op}
  {a b : Block}

theorem ordinal_append_right (h : p ≤ text.length + 1) (after : List Char) :
    ordinal (text ++ after) p = ordinal text p := by
  rw [ordinal, ordinal, List.take_append_of_le_length (by omega)]

theorem ordinal_append_left (h : 0 < p) (before : List Char) :
    ordinal (before ++ text) (before.length + p) = ordinal text p + (commands before).length := by
  rw [ordinal, ordinal, Nat.add_sub_assoc h, List.take_length_add_append, commands_append,
    List.length_append, Nat.add_comm]

theorem Brackets.standsAt_singleton {d : Char} : StandsAt [d] c p ↔ d = c ∧ p = 1 := by
  constructor
  · intro h
    rcases standsAt_cons.mp h with hfirst | ⟨p', rfl, hp'⟩
    · exact hfirst
    · have hpos := hp'.pos
      have hle : p' ≤ 0 := hp'.le_length
      omega
  · rintro ⟨rfl, rfl⟩
    exact ⟨[], [], rfl, rfl⟩

theorem Brackets.Partners.bounds (h : Partners text p q) : 0 < p ∧ p < q ∧ q ≤ text.length := by
  obtain ⟨before, inside, after, rfl, -, rfl, rfl⟩ := h
  simp only [List.length_append, List.length_cons]
  omega

theorem Becomes.append_right (h : Becomes text c p i) (after : List Char) :
    Becomes (text ++ after) c p i := by
  cases h with
  | op hc => exact .op hc
  | enter hpair =>
    have hbounds := hpair.bounds
    rw [← ordinal_append_right (by omega) after]
    exact .enter (hpair.append_right after)
  | leave hpair =>
    have hbounds := hpair.bounds
    rw [← ordinal_append_right (by omega) after]
    exact .leave (hpair.append_right after)

theorem Becomes.append_left (h : Becomes text c p i) (before : List Char) :
    Becomes (before ++ text) c (before.length + p) (i.relocate (commands before).length) := by
  cases h with
  | op hc => exact .op hc
  | enter hpair =>
    have hbounds := hpair.bounds
    rw [Instruction.relocate, ← ordinal_append_left (by omega) before]
    exact .enter (hpair.append_left before)
  | leave hpair =>
    have hbounds := hpair.bounds
    rw [Instruction.relocate, ← ordinal_append_left (by omega) before]
    exact .leave (hpair.append_left before)

/-- The block is what the text spells, and its code shows the commands one by one. -/
structure Transcribes (text : List Char) (b : Block) : Prop where
  spells : Block.Spells ((commands text).map Lexeme.ofCommand) b
  becomes (c : Char) (p : Nat) : StandsAt text c p → c ∈ commandChars →
    ∃ i, (b.code 0)[ordinal text p]? = some i ∧ Becomes text c p i

theorem Transcribes.size_eq (h : Transcribes text b) : b.size = (commands text).length := by
  rw [h.spells.size_eq, List.length_map]

theorem Transcribes.nil : Transcribes [] .nil where
  spells := .nil
  becomes := by
    rintro c p ⟨before, after, h, -⟩
    simp at h

theorem Transcribes.command (h : (c, o) ∈ plainCommands) : Transcribes [c] (.op o .nil) where
  spells := by
    obtain ⟨hmem, hc⟩ := Lexeme.ofCommand_of_plain h
    rw [commands_cons_of_mem hmem, List.map_cons, hc]
    exact .op o .nil
  becomes := by
    rintro c' p hp -
    obtain ⟨rfl, rfl⟩ := standsAt_singleton.mp hp
    exact ⟨.op o, rfl, .op h⟩

theorem Transcribes.comment (h : c ∉ commandChars) : Transcribes [c] .nil where
  spells := by
    rw [commands_cons_of_not_mem h]
    exact .nil
  becomes := by
    intro c' p hp hc'
    obtain ⟨rfl, -⟩ := standsAt_singleton.mp hp
    exact absurd hc' h

theorem Transcribes.append (ha : Transcribes text a) (hb : Transcribes text' b) :
    Transcribes (text ++ text') (a.append b) where
  spells := by
    rw [commands_append, List.map_append]
    exact ha.spells.append hb.spells
  becomes := by
    intro c p hp hc
    rw [Block.code_append]
    rcases standsAt_append.mp hp with hin | ⟨p', rfl, hp'⟩
    · obtain ⟨i, hi, hbecomes⟩ := ha.becomes c p hin hc
      obtain ⟨hlt, -⟩ := List.getElem?_eq_some_iff.mp hi
      refine ⟨i, ?_, hbecomes.append_right text'⟩
      rw [ordinal_append_right (Nat.le_succ_of_le hin.le_length), List.getElem?_append_left hlt, hi]
    · obtain ⟨i, hi, hbecomes⟩ := hb.becomes c p' hp' hc
      refine ⟨_, ?_, hbecomes.append_left text⟩
      rw [ordinal_append_left hp'.pos, ← ha.size_eq, Block.code_relocate,
        List.getElem?_append_right (by simp)]
      simp [hi]

theorem Transcribes.loop (hinside : Balanced inside) (h : Transcribes inside b) :
    Transcribes ('[' :: inside ++ [']']) (.loop b .nil) where
  spells := h.spells.looped
  becomes := by
    intro c p hp hc
    have hpair : Partners ('[' :: inside ++ [']']) 1 (inside.length + 2) :=
      ⟨[], inside, [], rfl, hinside, rfl, by omega⟩
    have hlast : ordinal ('[' :: inside ++ [']']) (inside.length + 2) = b.size + 1 := by
      have htake : ('[' :: inside ++ [']']).take (inside.length + 1) = '[' :: inside :=
        List.take_left' rfl
      rw [ordinal, Nat.add_succ_sub_one, htake, commands_cons_of_mem (by decide), List.length_cons,
        h.size_eq]
    have hcode : (Block.loop b .nil).code 0 = .loopStart (b.size + 1) ::
        ((b.code 0).map (Instruction.relocate 1) ++ [.loopEnd 0]) := by
      rw [Block.code, Block.code, ← Block.code_relocate, Nat.zero_add, Nat.add_comm]
      rfl
    rw [hcode]
    rcases standsAt_append.mp hp with hp | ⟨p', rfl, hp'⟩
    · rcases standsAt_cons.mp hp with ⟨rfl, rfl⟩ | ⟨p', rfl, hp'⟩
      · refine ⟨_, ?_, .enter hpair⟩
        rw [hlast]
        rfl
      · obtain ⟨i, hi, hbecomes⟩ := h.becomes c p' hp' hc
        obtain ⟨hlt, -⟩ := List.getElem?_eq_some_iff.mp hi
        have hordinal : ordinal ('[' :: inside ++ [']']) (p' + 1) = ordinal inside p' + 1 := by
          rw [ordinal_append_right (Nat.le_succ_of_le hp.le_length), Nat.add_comm p' 1]
          exact ordinal_append_left hp'.pos ['[']
        refine ⟨i.relocate 1, ?_, ?_⟩
        · rw [hordinal, List.getElem?_cons_succ, List.getElem?_append_left (by simpa using hlt)]
          simp [hi]
        · rw [Nat.add_comm p' 1]
          exact (hbecomes.append_left ['[']).append_right [']']
    · obtain ⟨rfl, rfl⟩ := standsAt_singleton.mp hp'
      refine ⟨.loopEnd 0, ?_, .leave hpair⟩
      rw [List.length_cons, hlast, List.getElem?_cons_succ, List.getElem?_append_right (by simp)]
      simp

theorem Brackets.Balanced.transcribed (h : Balanced text) : ∃ b, Transcribes text b := by
  induction h with
  | nil => exact ⟨_, .nil⟩
  | @other c text ho hc _ ih =>
    obtain ⟨b, hb⟩ := ih
    rcases ofChar?_cases ho hc 0 with hnone | ⟨o, hsome⟩
    · exact ⟨_, (Transcribes.comment (Lexeme.ofChar?_eq_none_iff.mp hnone)).append hb⟩
    · exact ⟨_, (Transcribes.command (Lexeme.ofChar?_eq_op_iff.mp hsome)).append hb⟩
  | @loop inside after hi _ ihi iha =>
    obtain ⟨a, ha⟩ := ihi
    obtain ⟨b, hb⟩ := iha
    have hloop := (ha.loop hi).append hb
    rw [List.append_assoc, List.singleton_append, List.cons_append] at hloop
    exact ⟨_, hloop⟩

/-- Without passes a balanced text becomes one instruction for each command, each bracket with the
number of its partner as its target, and the comments do not matter. -/
theorem plain_code_mirrors_text {source : String} (h : Balanced source.toList) :
    ∃ program, compile .none source = .ok program ∧
      program.size = (commands source.toList).length ∧
      (∀ c position, StandsAt source.toList c position → c ∈ commandChars →
        ∃ i, program.get? (ordinal source.toList position) = some i ∧
          Becomes source.toList c position i) ∧
      ∀ source', commands source'.toList = commands source.toList →
        compile .none source' = .ok program := by
  obtain ⟨b, hb⟩ := h.transcribed
  refine ⟨.ofBlock b, compile_eq_ok_iff_commands.mpr ⟨b, hb.spells, rfl⟩, ?_, ?_, ?_⟩
  · rw [Program.ofBlock_size, hb.size_eq]
  · intro c position hposition hc
    obtain ⟨i, hi, hbecomes⟩ := hb.becomes c position hposition hc
    refine ⟨i, ?_, hbecomes⟩
    rw [← hi, ← Program.ofBlock_toList]
    simp [Program.get?]
  · intro source' hsame
    exact compile_eq_ok_iff_commands.mpr ⟨b, hsame ▸ hb.spells, rfl⟩

theorem plain_code_mirrors_text_nested :
    ∃ program : Program, Balanced "go [,[-]].".toList ∧
      compile .none "go [,[-]]." = .ok program ∧ compile .none "[,[-]]." = .ok program ∧
      program.size = 7 ∧ program.get? 2 = some (.loopStart 4) ∧
      Becomes "go [,[-]].".toList '[' 6 (.loopStart 4) := by
  have hbalanced : Balanced "go [,[-]].".toList := stackError_eq_none_iff.mp rfl
  obtain ⟨program, hprogram, hsize, hbecomes, hcomments⟩ := plain_code_mirrors_text hbalanced
  have hinner : program.get? 2 = some (.loopStart 4) := by
    cases hprogram
    rfl
  obtain ⟨i, hi, hinstruction⟩ :=
    hbecomes '[' 6 ⟨"go [,".toList, "-]].".toList, rfl, rfl⟩ (by decide)
  obtain rfl : .loopStart 4 = i := Option.some.inj (hinner.symm.trans hi)
  exact ⟨program, hbalanced, hprogram, hcomments _ rfl, hsize, hinner, hinstruction⟩

end TapeLang
