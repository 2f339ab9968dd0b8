import TapeLang.CommandLine.Source
import TapeLang.Console.Buffered
import TapeLang.Debugger.Calls
import TapeLang.Proofs.Rewriting

/-! # Brackets

Which texts compile, and what is reported of the others, said of the characters alone: a bracket has
a partner if what lies between the two is balanced. A stack of open brackets finds the first one
that closes nothing, or else the first one that is never closed, and so does the compiler, whatever
passes it applies.
-/

namespace TapeLang

namespace Brackets

inductive Balanced : List Char → Prop
  | nil : Balanced []
  | other {c : Char} {text : List Char} : c ≠ '[' → c ≠ ']' → Balanced text → Balanced (c :: text)
  | loop {inside after : List Char} : Balanced inside → Balanced after →
      Balanced ('[' :: (inside ++ ']' :: after))

/-- The character stands at a position of the text, counted from 1. -/
def StandsAt (text : List Char) (c : Char) (position : Nat) : Prop :=
  ∃ before after, text = before ++ c :: after ∧ position = before.length + 1

/-- The bracket at `p` opens what the bracket at `q` closes. -/
def Partners (text : List Char) (p q : Nat) : Prop :=
  ∃ before inside after, text = before ++ '[' :: (inside ++ ']' :: after) ∧ Balanced inside ∧
    p = before.length + 1 ∧ q = p + inside.length + 1

inductive HasPartner (text : List Char) : Char → Nat → Prop
  | opening {p q : Nat} : Partners text p q → HasPartner text '[' p
  | closing {p q : Nat} : Partners text p q → HasPartner text ']' q

/-- A bracket that closes nothing or is never closed. -/
def Lone (text : List Char) (c : Char) (p : Nat) : Prop := StandsAt text c p ∧ ¬ HasPartner text c p

/-- What is wrong with a text: the first bracket that closes nothing if there is one, else the first
that is never closed. -/
def Reports (text : List Char) : CompileError → Prop
  | .unmatchedClose q => Lone text ']' q ∧ ∀ q', Lone text ']' q' → q ≤ q'
  | .unmatchedOpen p =>
    (∀ q, ¬ Lone text ']' q) ∧ Lone text '[' p ∧ ∀ p', Lone text '[' p' → p ≤ p'

/-- Read on from a position with the brackets at the positions `opened` still open. -/
def stackError : List Char → Nat → List Nat → Option CompileError
  | [], _, opened => opened.getLast?.map .unmatchedOpen
  | '[' :: rest, position, opened => stackError rest (position + 1) (position :: opened)
  | ']' :: _, position, [] => some (.unmatchedClose position)
  | ']' :: rest, position, _ :: opened => stackError rest (position + 1) opened
  | _ :: rest, position, opened => stackError rest (position + 1) opened

variable {text more read rest before after : List Char} {opened : List Nat} {c d : Char}
  {p q : Nat} {e e' : CompileError}

theorem Balanced.append (h : Balanced text) (h' : Balanced more) : Balanced (text ++ more) := by
  induction h with
  | nil => exact h'
  | other ho hc _ ih => exact .other ho hc ih
  | loop hi _ _ ih =>
    rw [List.cons_append, List.append_assoc, List.cons_append]
    exact .loop hi ih

theorem StandsAt.pos (h : StandsAt text c p) : 0 < p := by
  obtain ⟨before, after, -, rfl⟩ := h
  omega

theorem StandsAt.le_length (h : StandsAt text c p) : p ≤ text.length := by
  obtain ⟨before, after, rfl, rfl⟩ := h
  simp

theorem standsAt_cons : StandsAt (d :: text) c p ↔
    (d = c ∧ p = 1) ∨ ∃ p', p = p' + 1 ∧ StandsAt text c p' := by
  constructor
  · rintro ⟨_ | ⟨x, before⟩, after, h, rfl⟩
    · exact Or.inl ⟨(List.cons.inj h).1, rfl⟩
    · exact Or.inr ⟨_, rfl, before, after, (List.cons.inj h).2, rfl⟩
  · rintro (⟨rfl, rfl⟩ | ⟨p', rfl, before, after, rfl, rfl⟩)
    · exact ⟨[], text, rfl, rfl⟩
    · exact ⟨d :: before, after, rfl, rfl⟩

theorem standsAt_append : StandsAt (text ++ more) c p ↔
    StandsAt text c p ∨ ∃ p', p = text.length + p' ∧ StandsAt more c p' := by
  induction text generalizing p with
  | nil =>
    have hnil : ¬ StandsAt [] c p := by
      rintro ⟨before, after, h, -⟩
      simp at h
    simp [hnil]
  | cons d text ih =>
    simp only [List.cons_append, standsAt_cons, ih, List.length_cons]
    constructor
    · rintro (hd | ⟨p', rfl, hp | ⟨p'', rfl, hp⟩⟩)
      · exact Or.inl (Or.inl hd)
      · exact Or.inl (Or.inr ⟨p', rfl, hp⟩)
      · exact Or.inr ⟨p'', by omega, hp⟩
    · rintro ((hd | ⟨p', rfl, hp⟩) | ⟨p'', rfl, hp⟩)
      · exact Or.inl hd
      · exact Or.inr ⟨p', rfl, Or.inl hp⟩
      · exact Or.inr ⟨text.length + p'', by omega, Or.inr ⟨p'', rfl, hp⟩⟩

theorem Partners.append_right (h : Partners text p q) (after : List Char) :
    Partners (text ++ after) p q := by
  obtain ⟨front, inside, back, rfl, hi, hp, hq⟩ := h
  exact ⟨front, inside, back ++ after, by simp, hi, hp, hq⟩

theorem Partners.append_left (h : Partners text p q) (before : List Char) :
    Partners (before ++ text) (before.length + p) (before.length + q) := by
  obtain ⟨front, inside, back, rfl, hi, rfl, rfl⟩ := h
  exact ⟨before ++ front, inside, back, by simp, hi, by simp [Nat.add_assoc], by omega⟩

theorem hasPartner_close_iff : HasPartner text ']' q ↔ ∃ p, Partners text p q := by
  constructor
  · generalize hc : ']' = c
    rintro (_ | hpair)
    · exact absurd hc (by decide)
    · exact ⟨_, hpair⟩
  · rintro ⟨p, hpair⟩
    exact .closing hpair

theorem hasPartner_open_iff : HasPartner text '[' p ↔ ∃ q, Partners text p q := by
  constructor
  · generalize hc : '[' = c
    rintro (hpair | _)
    · exact ⟨_, hpair⟩
    · exact absurd hc (by decide)
  · rintro ⟨q, hpair⟩
    exact .opening hpair

/-! A bracket keeps its partner in a larger text. -/

theorem HasPartner.append_right (h : HasPartner text c p) (after : List Char) :
    HasPartner (text ++ after) c p := by
  cases h with
  | opening h => exact .opening (h.append_right after)
  | closing h => exact .closing (h.append_right after)

theorem HasPartner.append_left (h : HasPartner text c p) (before : List Char) :
    HasPartner (before ++ text) c (before.length + p) := by
  cases h with
  | opening h => exact .opening (h.append_left before)
  | closing h => exact .closing (h.append_left before)

theorem HasPartner.cons (h : HasPartner text c p) (d : Char) :
    HasPartner (d :: text) c (p + 1) := by
  have hcons := h.append_left [d]
  rwa [List.length_singleton, Nat.add_comm] at hcons

theorem Balanced.hasPartner (h : Balanced text) (hc : c = '[' ∨ c = ']') (hp : StandsAt text c p) :
    HasPartner text c p := by
  induction h generalizing p with
  | nil =>
    obtain ⟨before, after, h, -⟩ := hp
    simp at h
  | @other d text ho hd _ ih =>
    rcases standsAt_cons.mp hp with ⟨rfl, -⟩ | ⟨p', rfl, hp'⟩
    · rcases hc with rfl | rfl
      · exact (ho rfl).elim
      · exact (hd rfl).elim
    · exact (ih hp').cons d
  | @loop inside after hi _ ihi iha =>
    have hpair : Partners ('[' :: (inside ++ ']' :: after)) 1 (inside.length + 2) :=
      ⟨[], inside, after, rfl, hi, rfl, by omega⟩
    rcases standsAt_cons.mp hp with ⟨rfl, rfl⟩ | ⟨p', rfl, hp'⟩
    · exact .opening hpair
    · rcases standsAt_append.mp hp' with hin | ⟨p'', rfl, hp''⟩
      · exact ((ihi hin).append_right (']' :: after)).cons '['
      · rcases standsAt_cons.mp hp'' with ⟨rfl, rfl⟩ | ⟨p₁, rfl, hp₁⟩
        · exact .closing hpair
        · exact (((iha hp₁).cons ']').append_left inside).cons '['

/-- No beginning of the text closes more than it opens. -/
def Rising (text : List Char) : Prop := ∀ u, u <+: text → u.count ']' ≤ u.count '['

theorem Rising.append (h : Rising text) (h' : Rising more) : Rising (text ++ more) := by
  intro u hu
  rcases List.prefix_or_prefix_of_prefix hu (List.prefix_append text more) with hin | ⟨v, rfl⟩
  · exact h u hin
  · have hv := h' v ((List.prefix_append_right_inj text).mp hu)
    have ht := h text List.prefix_rfl
    simp only [List.count_append]
    omega

theorem Rising.cons (h : Rising text) (hc : c ≠ ']') : Rising (c :: text) := by
  intro u hu
  rcases List.prefix_cons_iff.mp hu with rfl | ⟨v, rfl, hv⟩
  · exact Nat.le_refl _
  · have := h v hv
    rw [List.count_cons_of_ne hc, List.count_cons]
    omega

theorem count_concat_close (text : List Char) :
    (text ++ [']']).count ']' = text.count ']' + 1 ∧
      (text ++ [']']).count '[' = text.count '[' := by
  simp

theorem Rising.concat (h : Rising text) (hlt : text.count ']' < text.count '[') :
    Rising (text ++ [']']) := by
  intro u hu
  rcases List.prefix_concat_iff.mp hu with rfl | hin
  · obtain ⟨hclose, hopen⟩ := count_concat_close text
    omega
  · exact h u hin

theorem Balanced.count_eq (h : Balanced text) : text.count ']' = text.count '[' := by
  induction h with
  | nil => rfl
  | other ho hc _ ih => rw [List.count_cons_of_ne ho, List.count_cons_of_ne hc, ih]
  | loop _ _ ihi iha =>
    rw [List.count_cons_of_ne (by decide), List.count_cons_self, List.count_append,
      List.count_append, List.count_cons_self, List.count_cons_of_ne (by decide), ihi, iha]
    omega

theorem Balanced.rising (h : Balanced text) : Rising text := by
  induction h with
  | nil =>
    intro u hu
    rw [List.prefix_nil.mp hu]
    exact Nat.le_refl _
  | other _ hc _ ih => exact ih.cons hc
  | @loop inside after hi _ ihi iha =>
    have hlt : ('[' :: inside).count ']' < ('[' :: inside).count '[' := by
      rw [List.count_cons_self, List.count_cons_of_ne (by decide), hi.count_eq]
      exact Nat.lt_succ_self _
    have hloop := ((ihi.cons (by decide)).concat hlt).append iha
    rwa [List.append_assoc, List.singleton_append, List.cons_append] at hloop

theorem Balanced.not_unclosed (h : Balanced (before ++ '[' :: after)) : ¬ Balanced after := by
  intro ha
  have hrise := h.rising before (List.prefix_append _ _)
  have hcount := h.count_eq
  have hafter := ha.count_eq
  rw [List.count_append, List.count_append, List.count_cons_self,
    List.count_cons_of_ne (by decide)] at hcount
  omega

/-- What has been read when the brackets at the positions `opened` are still open. -/
inductive Opened : List Char → List Nat → Prop
  | outside {read : List Char} : Balanced read → Opened read []
  | inside {before read : List Char} {opened : List Nat} : Opened before opened → Balanced read →
      Opened (before ++ '[' :: read) ((before.length + 1) :: opened)

theorem Opened.extend (h : Opened read opened) (h' : Balanced more) :
    Opened (read ++ more) opened := by
  cases h with
  | outside hb => exact .outside (hb.append h')
  | inside ho hb =>
    rw [List.append_assoc, List.cons_append]
    exact .inside ho (hb.append h')

theorem Opened.closing (h : Opened read opened) (hq : StandsAt read ']' q) :
    HasPartner read ']' q := by
  induction h generalizing q with
  | outside hb => exact hb.hasPartner (Or.inr rfl) hq
  | @inside before read opened _ hb ih =>
    rcases standsAt_append.mp hq with hin | ⟨q', rfl, hq'⟩
    · exact (ih hin).append_right ('[' :: read)
    · rcases standsAt_cons.mp hq' with ⟨hne, -⟩ | ⟨q'', rfl, hq''⟩
      · exact absurd hne (by decide)
      · exact ((hb.hasPartner (Or.inr rfl) hq'').cons '[').append_left before

/-- Before the outermost open bracket all is balanced, and nothing behind it closes it. -/
theorem Opened.outermost (h : Opened read opened) (hp : opened.getLast? = some p) :
    ∃ first behind, read = first ++ '[' :: behind ∧ Balanced first ∧ Rising behind ∧
      p = first.length + 1 := by
  induction h with
  | outside => simp at hp
  | @inside before read opened ho hb ih =>
    cases opened with
    | nil =>
      cases ho with
      | outside hbefore =>
        obtain rfl : before.length + 1 = p := by simpa using hp
        exact ⟨before, read, rfl, hbefore, hb.rising, rfl⟩
    | cons x opened =>
      rw [List.getLast?_cons_cons] at hp
      obtain ⟨first, behind, rfl, hfirst, hbehind, rfl⟩ := ih hp
      refine ⟨first, behind ++ '[' :: read, by simp, hfirst, ?_, rfl⟩
      exact hbehind.append (hb.rising.cons (by decide))

theorem reports_close (h : Balanced read) (rest : List Char) :
    Reports (read ++ ']' :: rest) (.unmatchedClose (read.length + 1)) := by
  refine ⟨⟨⟨read, rest, rfl, rfl⟩, fun hpartner => ?_⟩, fun q' ⟨hq', hlone⟩ => ?_⟩
  · obtain ⟨_, before, inside, after, htext, hinside, rfl, hq⟩ := hasPartner_close_iff.mp hpartner
    rw [← List.cons_append, ← List.append_assoc] at htext
    have hlength : read.length = (before ++ '[' :: inside).length := by
      simp only [List.length_append, List.length_cons]
      omega
    obtain ⟨rfl, -⟩ := List.append_inj htext hlength
    exact h.not_unclosed hinside
  · rcases standsAt_append.mp hq' with hin | ⟨q'', rfl, hq''⟩
    · exact (hlone ((h.hasPartner (Or.inr rfl) hin).append_right (']' :: rest))).elim
    · have := hq''.pos
      omega

theorem Opened.reports_open (h : Opened read opened) (hp : opened.getLast? = some p) :
    Reports read (.unmatchedOpen p) := by
  refine ⟨fun q ⟨hq, hlone⟩ => hlone (h.closing hq), ?_⟩
  obtain ⟨first, behind, rfl, hfirst, hbehind, rfl⟩ := h.outermost hp
  refine ⟨⟨⟨first, behind, rfl, rfl⟩, fun hpartner => ?_⟩, fun p' ⟨hp', hlone⟩ => ?_⟩
  · obtain ⟨_, before, inside, after, htext, hinside, hlength, -⟩ :=
      hasPartner_open_iff.mp hpartner
    obtain ⟨rfl, hsame⟩ := List.append_inj htext (by omega)
    obtain rfl : behind = inside ++ ']' :: after := (List.cons.inj hsame).2
    have hrise := hbehind (inside ++ [']']) ⟨after, by simp⟩
    have hcount := hinside.count_eq
    obtain ⟨hclose, hopen⟩ := count_concat_close inside
    omega
  · rcases standsAt_append.mp hp' with hin | ⟨p'', rfl, hp''⟩
    · exact (hlone ((hfirst.hasPartner (Or.inl rfl) hin).append_right ('[' :: behind))).elim
    · have := hp''.pos
      omega

theorem stackError_other (ho : c ≠ '[') (hc : c ≠ ']') (rest : List Char) (position : Nat)
    (opened : List Nat) :
    stackError (c :: rest) position opened = stackError rest (position + 1) opened := by
  rw [stackError]
  · exact ho
  · exact fun _ => hc
  · exact fun _ _ _ => hc

/-- What a text comes to. -/
inductive Verdict (text : List Char) : Option CompileError → Prop
  | balanced : Balanced text → Verdict text none
  | reports {e : CompileError} : Reports text e → Verdict text (some e)

theorem verdict_of_opened (h : Opened read opened) (rest : List Char) :
    Verdict (read ++ rest) (stackError rest (read.length + 1) opened) := by
  induction rest generalizing read opened with
  | nil =>
    rw [List.append_nil, stackError]
    cases hlast : opened.getLast? with
    | some p => exact .reports (h.reports_open hlast)
    | none =>
      obtain rfl : opened = [] := List.getLast?_eq_none_iff.mp hlast
      cases h with
      | outside hb => exact .balanced hb
  | cons c rest ih =>
    -- One character more has been read.
    have hnext {opened : List Nat} (h' : Opened (read ++ [c]) opened) :
        Verdict (read ++ c :: rest) (stackError rest (read.length + 1 + 1) opened) := by
      have hverdict := ih h'
      rwa [List.append_assoc, List.singleton_append, List.length_append,
        List.length_singleton] at hverdict
    by_cases ho : c = '['
    · subst ho
      exact hnext (.inside h .nil)
    by_cases hc : c = ']'
    · subst hc
      cases h with
      | outside hb => exact .reports (reports_close hb rest)
      | inside hbefore hb =>
        refine hnext ?_
        rw [List.append_assoc, List.cons_append]
        exact hbefore.extend (.loop hb .nil)
    · rw [stackError_other ho hc]
      exact hnext (h.extend (.other ho hc .nil))

theorem Reports.not_balanced (h : Reports text e) : ¬ Balanced text := by
  intro hb
  have hnone {c : Char} {p : Nat} (hc : c = '[' ∨ c = ']') (hl : Lone text c p) : False :=
    hl.2 (hb.hasPartner hc hl.1)
  cases e with
  | unmatchedClose q => exact hnone (Or.inr rfl) h.1
  | unmatchedOpen p => exact hnone (Or.inl rfl) h.2.1

theorem Reports.unique (h : Reports text e) (h' : Reports text e') : e = e' := by
  cases e with
  | unmatchedClose q =>
    cases e' with
    | unmatchedClose q' => rw [Nat.le_antisymm (h.2 q' h'.1) (h'.2 q h.1)]
    | unmatchedOpen p' => exact (h'.1 q h.1).elim
  | unmatchedOpen p =>
    cases e' with
    | unmatchedClose q' => exact (h.1 q' h'.1).elim
    | unmatchedOpen p' => rw [Nat.le_antisymm (h.2.2 p' h'.2.1) (h'.2.2 p h.2.1)]

theorem verdict (text : List Char) : Verdict text (stackError text 1 []) :=
  verdict_of_opened (.outside .nil) text

theorem stackError_eq_none_iff : stackError text 1 [] = none ↔ Balanced text := by
  have hverdict := verdict text
  generalize stackError text 1 [] = result at hverdict
  cases hverdict with
  | balanced hb => exact ⟨fun _ => hb, fun _ => rfl⟩
  | reports hr => exact ⟨(nomatch ·), fun hb => (hr.not_balanced hb).elim⟩

theorem stackError_eq_some_iff : stackError text 1 [] = some e ↔ Reports text e := by
  have hverdict := verdict text
  generalize stackError text 1 [] = result at hverdict
  cases hverdict with
  | balanced hb => exact ⟨(nomatch ·), fun hr => (hr.not_balanced hb).elim⟩
  | reports hr =>
    constructor
    · rintro ⟨⟩
      exact hr
    · intro hr'
      rw [hr.unique hr']

theorem ofChar?_cases (ho : c ≠ '[') (hc : c ≠ ']') (position : Nat) :
    Lexeme.ofChar? c position = none ∨ ∃ o, Lexeme.ofChar? c position = some (.op o) := by
  unfold Lexeme.ofChar?
  split <;> simp_all only [ne_eq, not_true_eq_false, Option.some.injEq, Lexeme.op.injEq,
    exists_eq', or_true]
  split <;> simp

theorem imbalance_eq_stackError (text : List Char) (position : Nat) (opened : List Nat) :
    Block.imbalance ((text.zipIdx position).filterMap fun (c, i) => Lexeme.ofChar? c i) opened =
      stackError text position opened := by
  induction text generalizing position opened with
  | nil => rfl
  | cons c text ih =>
    rw [List.zipIdx_cons]
    by_cases ho : c = '['
    · subst ho
      exact ih (position + 1) (position :: opened)
    by_cases hc : c = ']'
    · subst hc
      cases opened with
      | nil => rfl
      | cons _ opened => exact ih (position + 1) opened
    · rw [stackError_other ho hc, ← ih]
      rcases ofChar?_cases ho hc position with hnone | ⟨o, hsome⟩
      · simp only [List.filterMap_cons, hnone]
      · simp only [List.filterMap_cons, hsome, Block.imbalance]

end Brackets

open Brackets

variable {passes : Passes} {source : String} {e : CompileError}

theorem compile_eq_error_iff :
    compile passes source = .error e ↔ stackError source.toList 1 [] = some e := by
  rw [← imbalance_eq_stackError]
  calc compile passes source = .error e
      ↔ Block.ofLexemes (passes.apply (lex source)) = .error e := by
        rw [compile]
        cases Block.ofLexemes (passes.apply (lex source)) <;> simp [Except.map]
    _ ↔ Block.imbalance (passes.apply (lex source)) [] = some e := Block.parse_eq_error_iff
    _ ↔ Block.imbalance (lex source) [] = some e := by rw [passes.imbalance_apply]

theorem compile_succeeds_iff :
    (∃ p, compile passes source = .ok p) ↔ stackError source.toList 1 [] = none := by
  cases h : compile passes source with
  | ok p =>
    have hnone (e : CompileError) : stackError source.toList 1 [] ≠ some e := fun he => by
      rw [compile_eq_error_iff.mpr he] at h
      cases h
    simpa using Option.eq_none_iff_forall_ne_some.mpr hnone
  | error e =>
    rw [compile_eq_error_iff.mp h]
    simp

namespace CommandLine

theorem compileSource_eq_error_iff {job : Job} {streams : Streams} :
    (compileSource job source streams).1 = .error (.compile e) ↔
      compile job.passes source = .error e := by
  unfold compileSource
  cases compile job.passes source <;> simp

end CommandLine

theorem Debugger.start_refused_iff {config : DebugConfig} {τ : Type} [Console τ]
    {d : Debugger config τ} (hr : d.control.state ≠ .running) (hp : d.control.state ≠ .paused) :
    (d.start source).1 = .refused (.compile e) ↔ compile config.passes source = .error e := by
  unfold start
  rw [if_neg (by simp [hr, hp])]
  cases compile config.passes source with
  | error e' => simp
  | ok p =>
    dsimp only
    split <;> simp

/-- A text compiles exactly if its brackets are balanced. Otherwise the first bracket without a
partner is reported as a stack over all characters finds it, whatever the passes; so the check made
before debugging and the debugger itself report the same. -/
theorem compile_reports_brackets (passes : Passes) (source : String) :
    ((∃ p, compile passes source = .ok p) ↔ Balanced source.toList) ∧
    (∀ e, compile passes source = .error e ↔ Reports source.toList e) ∧
    (∀ e, compile passes source = .error e ↔ stackError source.toList 1 [] = some e) ∧
    (∀ passes' e, compile passes source = .error e ↔ compile passes' source = .error e) ∧
    ∀ (job : CommandLine.Job) (streams : Streams) (config : DebugConfig) (τ : Type) [Console τ]
      (d : Debugger config τ), d.control.state ≠ .running → d.control.state ≠ .paused → ∀ e,
      (CommandLine.compileSource job source streams).1 = .error (.compile e) ↔
        (d.start source).1 = .refused (.compile e) := by
  refine ⟨compile_succeeds_iff.trans stackError_eq_none_iff,
    fun e => compile_eq_error_iff.trans stackError_eq_some_iff, fun e => compile_eq_error_iff,
    fun passes' e => compile_eq_error_iff.trans compile_eq_error_iff.symm, ?_⟩
  intro job streams config τ _ d hr hp e
  rw [CommandLine.compileSource_eq_error_iff, Debugger.start_refused_iff hr hp,
    compile_eq_error_iff, compile_eq_error_iff]

theorem compile_reports_brackets_behind_idiom :
    Reports "é[-]][".toList (.unmatchedClose 5) ∧
      (∀ passes, compile passes "é[-]][" = .error (.unmatchedClose 5)) ∧
      ((.new 0 {} : Debugger {} Buffered).start "é[-]][").1 =
        .refused (.compile (.unmatchedClose 5)) := by
  obtain ⟨-, hreports, hstack, hpasses, hdebugger⟩ := compile_reports_brackets .all "é[-]]["
  have herror : compile .all "é[-]][" = .error (.unmatchedClose 5) := (hstack _).mpr rfl
  refine ⟨(hreports _).mp herror, fun passes => (hpasses passes _).mp herror, ?_⟩
  refine (hdebugger { input := "" } { level := .off } _ _ _ ?_ ?_ _).mp ?_
  · decide
  · decide
  · exact CommandLine.compileSource_eq_error_iff.mpr herror

end TapeLang
