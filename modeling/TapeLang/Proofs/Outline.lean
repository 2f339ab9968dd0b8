import TapeLang.Target
import TapeLang.Text.Basic

/-! # Outlines of texts

The statements of a program text, each with the block that it opens. There are two ways to lay an
outline out in lines, by indentation and in braces, and for each of them a reader that finds the
outline in the lines again, without knowing what the statements mean.
-/

namespace TapeLang

/-- A line of text behind some blanks. -/
structure Line where
  depth : Nat
  text : String
  deriving DecidableEq

namespace Line

def ofString (s : String) : Line where
  depth := (s.toList.takeWhile (· = ' ')).length
  text := String.ofList (s.toList.dropWhile (· = ' '))

def render (l : Line) : String := String.ofList (List.replicate l.depth ' ') ++ l.text

/-- A text that can stand in a line of its own: it does not begin with a blank, and nothing in it
ends the line. -/
structure Plain (text : String) : Prop where
  head : ∃ c rest, text.toList = c :: rest ∧ c ≠ ' '
  newline : '\n' ∉ text.toList
  carriage : '\r' ∉ text.toList

variable {l : Line} {lines : List Line}

theorem Plain.append {lead trail : String} (h : Plain lead) (hn : '\n' ∉ trail.toList)
    (hr : '\r' ∉ trail.toList) : Plain (lead ++ trail) := by
  obtain ⟨c, rest, hrest, hc⟩ := h.head
  refine ⟨⟨c, rest ++ trail.toList, by simp [hrest], hc⟩, ?_, ?_⟩
  · simp [h.newline, hn]
  · simp [h.carriage, hr]

theorem Plain.render (h : Plain l.text) : '\n' ∉ l.render.toList ∧ '\r' ∉ l.render.toList := by
  simp [Line.render, List.mem_replicate, h.newline, h.carriage]

theorem ofString_render (h : Plain l.text) : ofString l.render = l := by
  obtain ⟨c, rest, htext, hc⟩ := h.head
  have hlist : l.render.toList = List.replicate l.depth ' ' ++ c :: rest := by
    rw [render, String.toList_append, String.toList_ofList, htext]
  have hblank : ∀ a ∈ List.replicate l.depth ' ', decide (a = ' ') = true := by
    intro a ha
    rw [List.eq_of_mem_replicate ha]
    rfl
  have htake : (l.render.toList.takeWhile (· = ' ')).length = l.depth := by
    rw [hlist, List.takeWhile_append_of_pos hblank]
    simp [hc]
  have hdrop : l.render.toList.dropWhile (· = ' ') = c :: rest := by
    rw [hlist, List.dropWhile_append_of_pos hblank]
    simp [hc]
  obtain ⟨depth, text⟩ := l
  simp only [ofString, htake, hdrop, Line.mk.injEq, true_and]
  rw [← htext, String.ofList_toList]

theorem toList_repeatText {text : String} {m : Nat} (h : text.toList = List.replicate m ' ')
    (n : Nat) : (repeatText text n).toList = List.replicate (m * n) ' ' := by
  by_cases hempty : text.isEmpty = true
  · obtain rfl : text = "" := by simpa using hempty
    obtain rfl : m = 0 := by simpa [eq_comm] using congrArg List.length h
    simp [repeatText]
  rw [repeatText, if_neg hempty, String.toList_join]
  induction n with
  | zero => rfl
  | succ n ih =>
    rw [List.replicate_succ, List.flatMap_cons, ih, h, List.replicate_append_replicate,
      Nat.mul_succ, Nat.add_comm]

theorem linesFrom_append {cs : List Char} (h : '\n' ∉ cs) (rest current : List Char)
    (done : List String) :
    linesFrom (cs ++ rest) current done = linesFrom rest (cs.reverse ++ current) done := by
  induction cs generalizing current with
  | nil => rfl
  | cons c cs ih =>
    rw [List.mem_cons, not_or] at h
    have hnext : linesFrom (c :: (cs ++ rest)) current done =
        linesFrom (cs ++ rest) (c :: current) done := by
      rw [linesFrom]
      exact fun hc => h.1 hc.symm
    rw [List.cons_append, hnext, ih h.2]
    simp

theorem textLines_eq_singleton {text : String} (h : Plain text) : textLines text = [text] := by
  obtain ⟨c, rest, hlist, -⟩ := h.head
  have hend := linesFrom_append h.newline [] [] []
  rw [List.append_nil, List.append_nil] at hend
  rw [textLines, hend, linesFrom, List.reverse_reverse, String.ofList_toList]
  · rfl
  · simp [hlist]

theorem closeLine_reverse {cs : List Char} (h : '\r' ∉ cs) :
    closeLine (cs.reverse ++ []) = String.ofList cs := by
  rw [List.append_nil]
  unfold closeLine
  split
  · next rest hcs =>
    have hmem : '\r' ∈ cs.reverse := by simp [hcs]
    exact (h (List.mem_reverse.mp hmem)).elim
  · rw [List.reverse_reverse]

theorem textLines_linesOf {texts : List String}
    (h : ∀ t ∈ texts, '\n' ∉ t.toList ∧ '\r' ∉ t.toList) : textLines (linesOf texts) = texts := by
  have hfrom (done : List String) :
      linesFrom (linesOf texts).toList [] done = done.reverse ++ texts := by
    induction texts generalizing done with
    | nil => simp [linesOf, linesFrom]
    | cons t texts ih =>
      obtain ⟨ht, hr⟩ := h t List.mem_cons_self
      have hcons : (linesOf (t :: texts)).toList = t.toList ++ '\n' :: (linesOf texts).toList := by
        simp [linesOf, String.join_cons]
      rw [hcons, linesFrom_append ht, linesFrom, closeLine_reverse hr,
        ih fun t' ht' => h t' (List.mem_cons_of_mem _ ht')]
      simp
  exact hfrom []

/-- The lines of a text. -/
def allOf (text : String) : List Line := (textLines text).map ofString

theorem allOf_linesOf (h : ∀ l ∈ lines, Plain l.text) :
    allOf (linesOf (lines.map render)) = lines := by
  have hclean : ∀ t ∈ lines.map render, '\n' ∉ t.toList ∧ '\r' ∉ t.toList := by
    intro t ht
    obtain ⟨l, hl, rfl⟩ := List.mem_map.mp ht
    exact (h l hl).render
  rw [allOf, textLines_linesOf hclean, List.map_map]
  calc lines.map (ofString ∘ render) = lines.map id :=
        List.map_congr_left fun l hl => ofString_render (h l hl)
    _ = lines := List.map_id lines

end Line

/-- Statements in order, each with the block that it opens. -/
inductive Outline
  | nil
  | item (text : String) (inner rest : Outline)
  deriving DecidableEq

/-- How many blanks stand before a line for each block around it. -/
def indentStep : Nat := 4

namespace Outline

/-- Every statement and its block are as `P` says. -/
def All (P : String → Outline → Prop) : Outline → Prop
  | .nil => True
  | .item text inner rest => P text inner ∧ inner.All P ∧ rest.All P

/-- An outline in lines, the lines of a block behind more blanks. -/
def indented (depth : Nat) : Outline → List Line
  | .nil => []
  | .item text inner rest =>
    ⟨depth, text⟩ :: inner.indented (depth + indentStep) ++ rest.indented depth

/-- A statement with its block, and the blanks before it. -/
structure Entry where
  depth : Nat
  text : String
  inner : Outline

def gather : List Entry → Outline
  | [] => .nil
  | e :: entries => .item e.text e.inner (gather entries)

/-- Put a line before statements. Those that directly follow behind more blanks are its block. -/
def adopt (l : Line) (entries : List Entry) : List Entry :=
  ⟨l.depth, l.text, gather (entries.takeWhile (l.depth < ·.depth))⟩ ::
    entries.dropWhile (l.depth < ·.depth)

/-- Find the blocks by the blanks before the lines. -/
def readIndented (lines : List Line) : Outline := gather (lines.foldr adopt [])

/-- The statements of an outline, all at one depth. -/
def entries (depth : Nat) : Outline → List Entry
  | .nil => []
  | .item text inner rest => ⟨depth, text, inner⟩ :: rest.entries depth

theorem gather_entries (depth : Nat) (o : Outline) : gather (o.entries depth) = o := by
  induction o with
  | nil => rfl
  | item text inner rest _ ih => rw [entries, gather, ih]

theorem depth_of_mem_entries {depth : Nat} {o : Outline} {e : Entry} (h : e ∈ o.entries depth) :
    e.depth = depth := by
  induction o with
  | nil => cases h
  | item text inner rest _ ih =>
    rcases List.mem_cons.mp h with rfl | h
    · rfl
    · exact ih h

/-- What follows an outline does not belong to its blocks if it is not behind more blanks. -/
theorem foldr_adopt_indented (o : Outline) (depth : Nat) (later : List Entry)
    (h : ∀ e ∈ later.head?, e.depth ≤ depth) :
    (o.indented depth).foldr adopt later = o.entries depth ++ later := by
  induction o generalizing depth later with
  | nil => rfl
  | item text inner rest ihi ihr =>
    have hlater : ∀ e ∈ (rest.entries depth ++ later).head?, e.depth ≤ depth := by
      cases rest with
      | nil => exact h
      | item text inner rest => simp [entries]
    have hdeeper : ∀ e ∈ inner.entries (depth + indentStep), decide (depth < e.depth) = true := by
      intro e he
      simp [depth_of_mem_entries he, indentStep]
    have hstop : (rest.entries depth ++ later).takeWhile (depth < ·.depth) = [] ∧
        (rest.entries depth ++ later).dropWhile (depth < ·.depth) =
          rest.entries depth ++ later := by
      generalize rest.entries depth ++ later = behind at hlater
      cases behind with
      | nil => exact ⟨rfl, rfl⟩
      | cons e behind =>
        have he : ¬ depth < e.depth := Nat.not_lt.mpr (hlater e rfl)
        simp [he]
    rw [indented, List.cons_append, List.foldr_cons, List.foldr_append, ihr depth later h,
      ihi (depth + indentStep) _ fun e he => Nat.le_add_right_of_le (hlater e he), adopt,
      List.takeWhile_append_of_pos hdeeper, List.dropWhile_append_of_pos hdeeper, hstop.1, hstop.2,
      List.append_nil, gather_entries]
    rfl

theorem readIndented_indented (o : Outline) (depth : Nat) :
    readIndented (o.indented depth) = o := by
  rw [readIndented, foldr_adopt_indented o depth [] (by simp), List.append_nil, gather_entries]

def opens (text : String) : Bool := text.toList.getLast? = some '\x7b'

def closer : String := "\x7d"

/-- An outline in lines. A statement that ends with a brace opens a block, and a line of its own
closes it. -/
def braced (depth : Nat) : Outline → List Line
  | .nil => []
  | .item text inner rest =>
    if opens text then
      ⟨depth, text⟩ :: inner.braced (depth + indentStep) ++ ⟨depth, closer⟩ :: rest.braced depth
    else ⟨depth, text⟩ :: rest.braced depth

/-- Read a line before the statements of the present block, with what follows the blocks that are
closed behind them. -/
def readBrace (l : Line) : Outline × List Outline → Option (Outline × List Outline)
  | (current, waiting) =>
    if l.text = closer then some (.nil, current :: waiting)
    else if opens l.text then
      match waiting with
      | [] => none
      | rest :: waiting => some (.item l.text current rest, waiting)
    else some (.item l.text .nil current, waiting)

/-- Find the blocks by the braces, wherever the lines begin. -/
def readBraced (lines : List Line) : Option Outline :=
  match lines.foldr (fun l state => state.bind (readBrace l)) (some (.nil, [])) with
  | some (outline, []) => some outline
  | _ => none

/-- No statement is a closing brace, and only one that ends with a brace has a block. -/
def Braces : Outline → Prop :=
  All fun text inner => text ≠ closer ∧ (opens text = false → inner = .nil)

theorem foldr_readBrace_braced {o : Outline} (h : o.Braces) (depth : Nat)
    (waiting : List Outline) :
    (o.braced depth).foldr (fun l state => state.bind (readBrace l)) (some (.nil, waiting)) =
      some (o, waiting) := by
  induction o generalizing depth waiting with
  | nil => rfl
  | item text inner rest ihi ihr =>
    obtain ⟨⟨hcloser, hplain⟩, hinner, hrest⟩ := h
    cases hopens : opens text with
    | true =>
      have hclose : readBrace ⟨depth, closer⟩ (rest, waiting) = some (.nil, rest :: waiting) := by
        simp [readBrace]
      rw [braced, if_pos hopens, List.cons_append, List.foldr_cons, List.foldr_append,
        List.foldr_cons, ihr hrest, Option.bind_some, hclose, ihi hinner]
      simp [readBrace, hcloser, hopens]
    | false =>
      rw [hplain hopens, braced, if_neg (by simp [hopens]), List.foldr_cons, ihr hrest]
      simp [readBrace, hcloser, hopens]

theorem readBraced_braced {o : Outline} (h : o.Braces) (depth : Nat) :
    readBraced (o.braced depth) = some o := by
  rw [readBraced, foldr_readBrace_braced h]

/-- Every statement can stand in a line of its own. -/
def Plain : Outline → Prop := All fun text _ => Line.Plain text

theorem Plain.indented {o : Outline} (h : o.Plain) {depth : Nat} {l : Line}
    (hl : l ∈ o.indented depth) : Line.Plain l.text := by
  induction o generalizing depth with
  | nil => cases hl
  | item text inner rest ihi ihr =>
    obtain ⟨htext, hinner, hrest⟩ := h
    simp only [Outline.indented, List.cons_append, List.mem_cons, List.mem_append] at hl
    rcases hl with rfl | hl | hl
    · exact htext
    · exact ihi hinner hl
    · exact ihr hrest hl

theorem plain_closer : Line.Plain closer :=
  ⟨⟨'\x7d', [], rfl, by decide⟩, by decide, by decide⟩

theorem Plain.braced {o : Outline} (h : o.Plain) {depth : Nat} {l : Line}
    (hl : l ∈ o.braced depth) : Line.Plain l.text := by
  induction o generalizing depth with
  | nil => cases hl
  | item text inner rest ihi ihr =>
    obtain ⟨htext, hinner, hrest⟩ := h
    rw [Outline.braced] at hl
    split at hl
    · simp only [List.cons_append, List.mem_cons, List.mem_append] at hl
      rcases hl with rfl | hl | rfl | hl
      · exact htext
      · exact ihi hinner hl
      · exact plain_closer
      · exact ihr hrest hl
    · rcases List.mem_cons.mp hl with rfl | hl
      · exact htext
      · exact ihr hrest hl

/-- Read by its indentation, the text of an outline gives the outline. -/
theorem readIndented_allOf {o : Outline} (h : o.Plain) (depth : Nat) :
    readIndented (Line.allOf (linesOf ((o.indented depth).map Line.render))) = o := by
  rw [Line.allOf_linesOf fun _ => h.indented, readIndented_indented]

theorem readBraced_allOf {o : Outline} (h : o.Plain) (hb : o.Braces) (depth : Nat) :
    readBraced (Line.allOf (linesOf ((o.braced depth).map Line.render))) = some o := by
  rw [Line.allOf_linesOf fun _ => h.braced, readBraced_braced hb]

end Outline

end TapeLang
