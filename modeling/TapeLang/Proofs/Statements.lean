import Mathlib.Data.List.Nodup
import TapeLang.Proofs.Deltas
import TapeLang.Proofs.Outline
import TapeLang.Target.C
import TapeLang.Target.Python
import TapeLang.Target.Rust

/-! # Statements of the target languages

The built-in targets write each operation as one statement, in a line of its own. The statement
shows the operation, but for narrow cells in C and Rust an addition only modulo the number of values
of a cell.
-/

namespace TapeLang

/-- The built-in target languages. -/
inductive Language
  | c
  | rust
  | python
  deriving DecidableEq

namespace Language

def target : Language → Target
  | .c => .c
  | .rust => .rust
  | .python => .python

/-- The line that opens a loop. -/
def header : Language → String
  | .c => "while (tape[p]) \x7b"
  | .rust => "while tape[p] != 0 \x7b"
  | .python => "while tape[p]:"

def statement (lang : Language) (config : Config) (o : Op) : String :=
  lang.target.fragment (.op o) config

end Language

/-- The characters of a number in decimal digits. -/
def isNumeral (c : Char) : Bool := c.isDigit || c = '-'

theorem numeral_of_mem_toString {n : Nat} {c : Char} (h : c ∈ (toString n).toList) :
    isNumeral c = true := by
  rw [Nat.toString_eq_ofList_toDigits, String.toList_ofList] at h
  simp [isNumeral, Nat.isDigit_of_mem_toDigits (by decide) (by decide) h]

theorem numeral_of_mem_decimal {a : Int} {c : Char} (h : c ∈ (decimal a).toList) :
    isNumeral c = true := by
  cases a with
  | ofNat n => exact numeral_of_mem_toString h
  | negSucc n =>
    rw [decimal, String.toList_append, List.mem_append] at h
    rcases h with h | h
    · obtain rfl : c = '-' := by simpa using h
      rfl
    · exact numeral_of_mem_toString h

theorem toString_nat_inj {m n : Nat} : toString m = toString n ↔ m = n := by
  refine ⟨fun h => ?_, fun h => by rw [h]⟩
  rw [Nat.toString_eq_ofList_toDigits, Nat.toString_eq_ofList_toDigits, String.ofList_inj] at h
  rw [← Nat.ofDigitChars_ten_toDigits (n := m), h, Nat.ofDigitChars_ten_toDigits]

theorem toString_ne_negative (m n : Nat) : toString m ≠ "-" ++ toString n := by
  intro h
  have hminus : '-' ∈ (toString m).toList := by simp [h]
  rw [Nat.toString_eq_ofList_toDigits, String.toList_ofList] at hminus
  have hdigit := Nat.isDigit_of_mem_toDigits (by decide) (by decide) hminus
  exact absurd hdigit (by decide)

theorem toString_toNat {a : Int} (h : 0 ≤ a) : toString a.toNat = decimal a := by
  obtain ⟨n, rfl⟩ := Int.eq_ofNat_of_zero_le h
  rfl

theorem decimal_inj {a b : Int} : decimal a = decimal b ↔ a = b := by
  refine ⟨fun h => ?_, fun h => by rw [h]⟩
  cases a with
  | ofNat m =>
    cases b with
    | ofNat n => rw [toString_nat_inj.mp h]
    | negSucc n => exact (toString_ne_negative m (n + 1) h).elim
  | negSucc m =>
    cases b with
    | ofNat n => exact (toString_ne_negative n (m + 1) h.symm).elim
    | negSucc n =>
      have hsucc := toString_nat_inj.mp ((String.append_right_inj "-").mp h)
      rw [Nat.succ_inj.mp hsucc]

instance Line.decidablePlain (text : String) : Decidable (Line.Plain text) :=
  decidable_of_iff
    (text.toList.head?.any (· ≠ ' ') = true ∧ '\n' ∉ text.toList ∧ '\r' ∉ text.toList) <| by
    constructor
    · rintro ⟨hhead, hnewline, hcarriage⟩
      cases hlist : text.toList with
      | nil => simp [hlist] at hhead
      | cons c rest => exact ⟨⟨c, rest, hlist, by simpa [hlist] using hhead⟩, hnewline, hcarriage⟩
    · rintro ⟨⟨c, rest, hrest, hc⟩, hnewline, hcarriage⟩
      exact ⟨by simp [hrest, hc], hnewline, hcarriage⟩

/-- The characters that end a line which opens or closes a block. -/
def isMark (c : Char) : Bool := c = '\x7b' || c = '\x7d' || c = ':'

/-- A line that neither opens nor closes a block. -/
structure Sentence (text : String) : Prop where
  plain : Line.Plain text
  final : text.toList.getLast?.any isMark = false

instance Sentence.decidable (text : String) : Decidable (Sentence text) :=
  decidable_of_iff (Line.Plain text ∧ text.toList.getLast?.any isMark = false)
    ⟨fun h => ⟨h.1, h.2⟩, fun h => ⟨h.plain, h.final⟩⟩

theorem Sentence.ne_closer {text : String} (h : Sentence text) : text ≠ Outline.closer := by
  rintro rfl
  exact absurd h.final (by decide)

theorem Sentence.opens_eq_false {text : String} (h : Sentence text) :
    Outline.opens text = false := by
  rw [Outline.opens, decide_eq_false_iff_not]
  intro hlast
  have hfinal := h.final
  rw [hlast] at hfinal
  exact absurd hfinal (by decide)

theorem Sentence.ne_header {text : String} (h : Sentence text) (lang : Language) :
    text ≠ lang.header := by
  rintro rfl
  revert h
  cases lang <;> decide

/-- The texts differ in a number only. -/
def Framed (text : Int → String) (number : Int → Int) : Prop :=
  ∃ lead trail, Line.Plain lead ∧ Sentence trail ∧ ∀ a, text a = lead ++ decimal (number a) ++ trail

/-- A text without its numbers. -/
def skeleton (text : String) : List Char := text.toList.filter (!isNumeral ·)

namespace Framed

variable {text : Int → String} {number : Int → Int}

theorem sentence (h : Framed text number) (a : Int) : Sentence (text a) := by
  obtain ⟨lead, trail, hlead, htrail, htext⟩ := h
  have hnumeral {c : Char} (hc : isNumeral c = false) : c ∉ (decimal (number a)).toList := by
    intro hmem
    rw [numeral_of_mem_decimal hmem] at hc
    cases hc
  obtain ⟨c, rest, hrest, hc⟩ := hlead.head
  have hne : trail.toList ≠ [] := by
    obtain ⟨c', rest', hrest', -⟩ := htrail.plain.head
    simp [hrest']
  rw [htext]
  refine ⟨⟨⟨c, rest ++ (decimal (number a) ++ trail).toList, ?_, hc⟩, ?_, ?_⟩, ?_⟩
  · simp [hrest]
  · simp [hlead.newline, htrail.plain.newline, hnumeral (c := '\n') rfl]
  · simp [hlead.carriage, htrail.plain.carriage, hnumeral (c := '\r') rfl]
  · rw [String.toList_append, List.getLast?_append_of_ne_nil _ hne]
    exact htrail.final

theorem skeleton_eq (h : Framed text number) (a b : Int) :
    skeleton (text a) = skeleton (text b) := by
  obtain ⟨lead, trail, -, -, htext⟩ := h
  have hnumber (n : Int) : skeleton (decimal n) = [] := by
    refine List.filter_eq_nil_iff.mpr fun c hc => ?_
    simp [numeral_of_mem_decimal hc]
  have happend (s t : String) : skeleton (s ++ t) = skeleton s ++ skeleton t := by
    rw [skeleton, String.toList_append, List.filter_append]
    rfl
  rw [htext, htext, happend, happend, happend, happend, hnumber, hnumber]

theorem eq_iff (h : Framed text number) {a b : Int} :
    text a = text b ↔ number a = number b := by
  obtain ⟨lead, trail, -, -, htext⟩ := h
  rw [htext, htext, String.append_left_inj, String.append_right_inj, decimal_inj]

end Framed

namespace Language

/-- The number that stands for a summand. -/
def shownDelta : Language → CellWidth → Int → Int
  | .python, _, delta => delta
  | .rust, .thirtyTwo, delta => delta
  | _, width, delta => delta % width.modulus

variable (lang : Language) (config : Config)

theorem framed_move : Framed (fun a => lang.statement config (.move a)) id := by
  cases lang with
  | c => exact ⟨"shift(", ");", by decide, by decide, fun _ => rfl⟩
  | rust => exact ⟨"p = shift(p, ", ");", by decide, by decide, fun _ => rfl⟩
  | python => exact ⟨"p = shift(p, ", ")", by decide, by decide, fun _ => rfl⟩

theorem framed_unsigned {text : Int → String} {width : CellWidth} (lead trail : String)
    (hlead : Line.Plain lead) (htrail : Sentence trail)
    (htext : ∀ a, text a = lead ++ toString (unsignedDelta a width) ++ trail) :
    Framed text (· % width.modulus) := by
  refine ⟨lead, trail, hlead, htrail, fun a => ?_⟩
  have hpos : (width.modulus : Int) ≠ 0 := by exact_mod_cast Nat.ne_of_gt width.modulus_pos
  rw [htext, unsignedDelta, toString_toNat (Int.emod_nonneg a hpos)]

theorem framed_add :
    Framed (fun a => lang.statement config (.add a)) (lang.shownDelta config.width) := by
  obtain ⟨width, size, bounds⟩ := config
  cases lang with
  | c =>
    cases width with
    | thirtyTwo =>
      exact framed_unsigned "tape[p] = (cell)((uint32_t)tape[p] + " "u);"
        (by decide) (by decide) fun _ => rfl
    | eight | sixteen =>
      exact framed_unsigned "tape[p] += " ";" (by decide) (by decide) fun _ => rfl
  | rust =>
    have hlead : Line.Plain "tape[p] = tape[p].wrapping_add(" := by decide
    have htrail : Sentence ");" := by decide
    cases width with
    | thirtyTwo => exact ⟨_, _, hlead, htrail, fun _ => rfl⟩
    | eight | sixteen => exact framed_unsigned _ _ hlead htrail fun _ => rfl
  | python => exact ⟨"tape[p] = add(tape[p], ", ")", by decide, by decide, fun _ => rfl⟩

/-- Operations without their numbers. -/
def bareOps : List Op :=
  [.move 0, .add 0, .input, .output, .clear, .scan .left, .scan .right, .breakpoint]

def bare : Op → Op
  | .move _ => .move 0
  | .add _ => .add 0
  | o => o

theorem bare_mem (o : Op) : bare o ∈ bareOps := by
  cases o with
  | scan d => cases d <;> simp [bare, bareOps]
  | _ => simp [bare, bareOps]

theorem statement_width (o : Op) :
    lang.statement config o = lang.statement { width := config.width } o := by
  cases lang <;> rfl

theorem statement_default {o : Op} (h : ∀ a, o ≠ .add a) :
    lang.statement config o = lang.statement {} o := by
  cases o with
  | add a => exact absurd rfl (h a)
  | scan d => cases lang <;> cases d <;> rfl
  | _ => cases lang <;> rfl

theorem sentence_statement (o : Op) : Sentence (lang.statement config o) := by
  cases o with
  | move a => exact (framed_move lang config).sentence a
  | add a => exact (framed_add lang config).sentence a
  | scan d =>
    rw [statement_default lang config fun _ => Op.noConfusion]
    cases lang <;> cases d <;> decide
  | _ =>
    rw [statement_default lang config fun _ => Op.noConfusion]
    cases lang <;> decide

theorem skeleton_bare (o : Op) :
    skeleton (lang.statement config (bare o)) = skeleton (lang.statement config o) := by
  cases o with
  | move a => exact (framed_move lang config).skeleton_eq 0 a
  | add a => exact (framed_add lang config).skeleton_eq 0 a
  | _ => rfl

theorem nodup_skeletons :
    (bareOps.map fun o => skeleton (lang.statement config o)).Nodup := by
  simp only [statement_width lang config]
  generalize config.width = width
  cases lang <;> cases width <;> decide +kernel

theorem bare_mapDelta (f : Int → Int) (o : Op) : bare (o.mapDelta f) = bare o := by
  cases o <;> rfl

theorem cases_of_bare_eq {o o' : Op} (h : bare o = bare o') :
    o = o' ∨ (∃ a b, o = .move a ∧ o' = .move b) ∨ ∃ a b, o = .add a ∧ o' = .add b := by
  cases o <;> cases o' <;> simp_all [bare]

/-- Statements tell operations apart as far as their numbers do. -/
theorem statement_eq_iff {o o' : Op} :
    lang.statement config o = lang.statement config o' ↔
      o.mapDelta (lang.shownDelta config.width) = o'.mapDelta (lang.shownDelta config.width) := by
  by_cases hbare : bare o = bare o'
  · obtain rfl | ⟨a, b, rfl, rfl⟩ | ⟨a, b, rfl, rfl⟩ := cases_of_bare_eq hbare
    · exact ⟨fun _ => rfl, fun _ => rfl⟩
    · rw [(framed_move lang config).eq_iff]
      simp [Op.mapDelta]
    · rw [(framed_add lang config).eq_iff]
      simp [Op.mapDelta]
  · constructor
    · intro h
      refine absurd (List.inj_on_of_nodup_map (nodup_skeletons lang config) (bare_mem o)
        (bare_mem o') ?_) hbare
      rw [skeleton_bare, skeleton_bare, h]
    · intro h
      have hmapped := congrArg bare h
      rw [bare_mapDelta, bare_mapDelta] at hmapped
      exact absurd hmapped hbare

end Language

end TapeLang
