import TapeLang.Proofs.Indentation
import TapeLang.Proofs.Nesting
import TapeLang.Proofs.Statements

/-! # Listings

A listing has one line for each instruction, with its number and two blanks for each loop open
around it. The counter behind the indentation never falls below zero in a compiled program, and a
reader that knows nothing of the program finds it in its listing again.
-/

namespace TapeLang

/-- The number behind a sign. -/
def ofSigned? : List Char → Option Int
  | '+' :: digits => some (Nat.ofDigitChars 10 digits 0)
  | '-' :: digits => some (-Nat.ofDigitChars 10 digits 0)
  | _ => none

/-- The instruction whose first word and operand are given. -/
def Instruction.ofWords? (word : String) (operand : List Char) : Option Instruction :=
  match word with
  | "address" => (ofSigned? operand).map (.op <| .move ·)
  | "data" => (ofSigned? operand).map (.op <| .add ·)
  | "input" => some (.op .input)
  | "output" => some (.op .output)
  | "set-zero" => some (.op .clear)
  | "scan-zero-left" => some (.op (.scan .left))
  | "scan-zero-right" => some (.op (.scan .right))
  | "breakpoint" => some (.op .breakpoint)
  | "loop-start" => some (.loopStart (Nat.ofDigitChars 10 (operand.drop 3) 0))
  | "loop-end" => some (.loopEnd (Nat.ofDigitChars 10 (operand.drop 3) 0))
  | _ => none

def Instruction.ofText? (text : String) : Option Instruction :=
  ofWords? (String.ofList (text.toList.takeWhile (· ≠ ' ')))
    ((text.toList.dropWhile (· ≠ ' ')).drop 1)

theorem ofSigned?_signed (n : Int) : ofSigned? (signed n).toList = some n := by
  cases n with
  | ofNat n => simp [signed, ofSigned?]
  | negSucc n => simp [signed, ofSigned?, Int.negSucc_eq]

theorem plain_toString (n : Nat) : Line.Plain (toString n) := by
  have hnumeral {c : Char} (hc : isNumeral c = false) : c ∉ (toString n).toList := by
    intro hmem
    rw [numeral_of_mem_toString hmem] at hc
    cases hc
  refine ⟨?_, hnumeral rfl, hnumeral rfl⟩
  cases hlist : (toString n).toList with
  | nil =>
    rw [Nat.toString_eq_ofList_toDigits, String.toList_ofList] at hlist
    exact absurd hlist Nat.toDigits_ne_nil
  | cons c rest =>
    refine ⟨c, rest, rfl, ?_⟩
    rintro rfl
    exact hnumeral rfl (hlist ▸ List.mem_cons_self)

namespace Instruction

theorem ofText?_of_words {text word operand : String} (hword : ' ' ∉ word.toList)
    (htext : text.toList = word.toList ++ ' ' :: operand.toList) :
    ofText? text = ofWords? word operand.toList := by
  have hpos : ∀ c ∈ word.toList, decide (c ≠ ' ') = true := fun c hc =>
    decide_eq_true fun hblank => hword (hblank ▸ hc)
  have htake : text.toList.takeWhile (· ≠ ' ') = word.toList := by
    rw [htext, List.takeWhile_append_of_pos hpos]
    simp
  have hdrop : (text.toList.dropWhile (· ≠ ' ')).drop 1 = operand.toList := by
    rw [htext, List.dropWhile_append_of_pos hpos]
    simp
  rw [ofText?, htake, hdrop, String.ofList_toList]

theorem ofText?_text (i : Instruction) : ofText? i.text = some i := by
  have hdigits (n : Nat) : Nat.ofDigitChars 10 (("-> " ++ toString n).toList.drop 3) 0 = n := by
    simp
  cases i with
  | op o =>
    cases o with
    | move n =>
      calc ofText? ("address " ++ signed n) = ofWords? "address" (signed n).toList :=
            ofText?_of_words (by decide) (by simp)
        _ = (ofSigned? (signed n).toList).map (.op <| .move ·) := rfl
        _ = some (.op (.move n)) := by rw [ofSigned?_signed, Option.map_some]
    | add n =>
      calc ofText? ("data " ++ signed n) = ofWords? "data" (signed n).toList :=
            ofText?_of_words (by decide) (by simp)
        _ = (ofSigned? (signed n).toList).map (.op <| .add ·) := rfl
        _ = some (.op (.add n)) := by rw [ofSigned?_signed, Option.map_some]
    | scan d => cases d <;> rfl
    | _ => rfl
  | loopStart stop =>
    calc ofText? ("loop-start -> " ++ toString stop)
        = ofWords? "loop-start" ("-> " ++ toString stop).toList :=
          ofText?_of_words (by decide) (by simp)
      _ = some (.loopStart stop) := congrArg (fun n => some (loopStart n)) (hdigits stop)
  | loopEnd start =>
    calc ofText? ("loop-end -> " ++ toString start)
        = ofWords? "loop-end" ("-> " ++ toString start).toList :=
          ofText?_of_words (by decide) (by simp)
      _ = some (.loopEnd start) := congrArg (fun n => some (loopEnd n)) (hdigits start)

theorem plain_text (i : Instruction) : Line.Plain i.text := by
  have hnumber {lead : String} (hlead : Line.Plain lead) (n : Nat) :
      Line.Plain (lead ++ toString n) :=
    hlead.append (plain_toString n).newline (plain_toString n).carriage
  have hsigned {lead : String} (hlead : ∀ sign ∈ ["+", "-"], Line.Plain (lead ++ sign)) (n : Int) :
      Line.Plain (lead ++ signed n) := by
    cases n with
    | ofNat n =>
      rw [signed, ← String.append_assoc]
      exact hnumber (hlead "+" (by decide)) n
    | negSucc n =>
      rw [signed, ← String.append_assoc]
      exact hnumber (hlead "-" (by decide)) (n + 1)
  cases i with
  | op o =>
    cases o with
    | move n => exact hsigned (by decide) n
    | add n => exact hsigned (by decide) n
    | scan d => cases d <;> decide
    | _ => decide
  | loopStart stop => exact hnumber (by decide) stop
  | loopEnd start => exact hnumber (by decide) start

end Instruction

namespace Program

/-- The line of an instruction without its end: its number in six columns, two blanks, two more for
each loop around it, and its text. -/
def lineText (index depth : Nat) (i : Instruction) : String :=
  alignRight 6 (toString index) ++ "  " ++ String.ofList (List.replicate (2 * depth) ' ') ++ i.text

/-- The instruction in a line: what stands behind the number. -/
def instructionIn? (line : String) : Option Instruction :=
  let numbered := (Line.ofString line).text.toList
  Instruction.ofText? (Line.ofString (String.ofList (numbered.dropWhile Char.isDigit))).text

/-- The program that a listing shows. -/
def ofListing? (listing : String) : Option Program :=
  ((textLines listing).mapM instructionIn?).map fun code => ⟨code.toArray⟩

variable (index depth : Nat) (i : Instruction)

theorem listingLine_eq : listingLine index depth i = lineText index depth i ++ "\n" := by
  have hblanks : repeatText "  " depth = String.ofList (List.replicate (2 * depth) ' ') := by
    rw [← String.toList_inj, Line.toList_repeatText (m := 2) rfl, String.toList_ofList]
  rw [listingLine, hblanks, lineText]

theorem lineText_eq_render : lineText index depth i = Line.render
    ⟨6 - (toString index).length, toString index ++ Line.render ⟨2 + 2 * depth, i.text⟩⟩ := by
  rw [← String.toList_inj]
  simp [lineText, alignRight, Line.render, ← List.replicate_append_replicate]

theorem plain_numbered : Line.Plain (toString index ++ Line.render ⟨2 + 2 * depth, i.text⟩) := by
  obtain ⟨hnewline, hcarriage⟩ := Line.Plain.render (l := ⟨2 + 2 * depth, i.text⟩) i.plain_text
  exact (plain_toString index).append hnewline hcarriage

theorem instructionIn?_lineText : instructionIn? (lineText index depth i) = some i := by
  have hdigits : ∀ c ∈ (toString index).toList, c.isDigit = true := by
    intro c hc
    rw [Nat.toString_eq_ofList_toDigits, String.toList_ofList] at hc
    exact Nat.isDigit_of_mem_toDigits (by decide) (by decide) hc
  have hbehind : (toString index ++ Line.render ⟨2 + 2 * depth, i.text⟩).toList.dropWhile
      Char.isDigit = (Line.render ⟨2 + 2 * depth, i.text⟩).toList := by
    rw [String.toList_append, List.dropWhile_append_of_pos hdigits]
    simp [Line.render, Nat.add_comm 2, List.replicate_succ]
  rw [instructionIn?, lineText_eq_render, Line.ofString_render (plain_numbered index depth i)]
  simp only [hbehind, String.ofList_toList]
  rw [Line.ofString_render i.plain_text, Instruction.ofText?_text]

/-- The lines that show `code`, instruction `k` at the depth `depths k`. -/
def linesShowing (depths : Nat → Nat) (code : List Instruction) : List String :=
  code.mapIdx fun k i => lineText k (depths k) i

variable (depths : Nat → Nat) (code : List Instruction)

theorem textLines_linesShowing :
    textLines (linesOf (linesShowing depths code)) = linesShowing depths code := by
  refine Line.textLines_linesOf fun line hline => ?_
  obtain ⟨k, hk, rfl⟩ := List.mem_mapIdx.mp hline
  rw [lineText_eq_render]
  exact Line.Plain.render (plain_numbered k (depths k) code[k])

theorem ofListing?_linesShowing :
    ofListing? (linesOf (linesShowing depths code)) = some ⟨code.toArray⟩ := by
  have hread {line : Nat → Instruction → String}
      (hline : ∀ k i, instructionIn? (line k i) = some i) :
      (code.mapIdx line).mapM instructionIn? = some code := by
    induction code generalizing line with
    | nil => rfl
    | cons i code ih =>
      rw [List.mapIdx_cons, List.mapM_cons, hline, ih fun k => hline (k + 1)]
      rfl
  rw [ofListing?, textLines_linesShowing, linesShowing,
    hread fun k i => instructionIn?_lineText k (depths k) i]
  rfl

end Program

/-- The depth at which an instruction is shown, unless the counter would fall below zero. -/
def Instruction.depthAt? : Instruction → Nat → Option Nat
  | .loopEnd _, 0 => none
  | .loopEnd _, depth + 1 => some depth
  | _, depth => some depth

theorem Instruction.depthAt_of_depthAt? {i : Instruction} {depth shown : Nat}
    (h : i.depthAt? depth = some shown) : i.depthAt depth = shown := by
  cases i with
  | loopEnd start =>
    cases depth with
    | zero => cases h
    | succ depth => exact Option.some.inj h
  | _ => exact Option.some.inj h

namespace Program

/-- As `listingFrom`, with a counter that cannot fall below zero. -/
def checkedFrom : List Instruction → Nat → Nat → String → Option String
  | [], _, _, acc => some acc
  | i :: rest, index, depth, acc =>
    match i.depthAt? depth with
    | none => none
    | some shown =>
      checkedFrom rest (index + 1) (i.depthAfter shown) (acc ++ listingLine index shown i)

/-- The listing, if the counter never falls below zero while it is written. -/
def checkedListing? (p : Program) : Option String :=
  checkedFrom p.code.toList 0 0 ""

theorem listingFrom_of_checkedFrom {code : List Instruction} {index depth : Nat} {acc text : String}
    (h : checkedFrom code index depth acc = some text) :
    listingFrom code index depth acc = text := by
  induction code generalizing index depth acc with
  | nil => exact Option.some.inj h
  | cons i rest ih =>
    simp only [checkedFrom] at h
    split at h
    · cases h
    · next shown hshown =>
      rw [listingFrom, Instruction.depthAt_of_depthAt? hshown]
      exact ih h

variable {b : Block} {i : Instruction} {k : Nat}

theorem depthAt?_depthBefore (h : (ofBlock b).get? k = some i) :
    i.depthAt? ((ofBlock b).depthBefore 0 k) = some ((ofBlock b).loopsAround k) := by
  rw [depthBefore_eq h, Nat.zero_add]
  cases i <;> rfl

theorem checkedFrom_rest (before rest : List Instruction)
    (h : (ofBlock b).code.toList = before ++ rest) (acc : String) :
    checkedFrom rest before.length ((ofBlock b).depthBefore 0 before.length) acc =
      some (acc ++ linesOf (rest.mapIdx fun k i =>
        lineText (k + before.length) ((ofBlock b).loopsAround (k + before.length)) i)) := by
  induction rest generalizing before acc with
  | nil => simp [checkedFrom, linesOf]
  | cons i rest ih =>
    have hi : (ofBlock b).get? before.length = some i := by
      rw [get?, ← Array.getElem?_toList, h]
      simp
    have hnext := ih (before ++ [i]) (by simp [h])
      (acc ++ listingLine before.length ((ofBlock b).loopsAround before.length) i)
    rw [List.length_append, List.length_singleton, depthBefore_succ hi, depthAt_depthBefore hi,
      Nat.zero_add] at hnext
    have hindex (k : Nat) : k + 1 + before.length = k + (before.length + 1) := by omega
    simp only [checkedFrom, depthAt?_depthBefore hi, List.mapIdx_cons, Nat.zero_add, hindex]
    rw [hnext, listingLine_eq]
    simp [linesOf, String.join_cons, String.append_assoc]

theorem checkedListing?_ofBlock (b : Block) : (ofBlock b).checkedListing? =
    some (linesOf (linesShowing (ofBlock b).loopsAround (ofBlock b).code.toList)) := by
  have hall := checkedFrom_rest (b := b) [] _ rfl ""
  rwa [String.empty_append] at hall

theorem listing_ofBlock (b : Block) : (ofBlock b).listing =
    linesOf (linesShowing (ofBlock b).loopsAround (ofBlock b).code.toList) :=
  listingFrom_of_checkedFrom (checkedListing?_ofBlock b)

end Program

/-- Writing the listing of a compiled program never takes the counter below zero. There is one line
for each instruction, with its number and two blanks for each loop around it; and the program can be
read off the listing, so that programs with the same listing are equal. -/
theorem listing_shows_program {passes passes' : Passes} {source source' : String} {p p' : Program}
    (h : compile passes source = .ok p) (h' : compile passes' source' = .ok p') :
    p.checkedListing? = some p.listing ∧
      (p.listing = linesOf (textLines p.listing) ∧ (textLines p.listing).length = p.size) ∧
      (∀ k i, p.get? k = some i → (textLines p.listing)[k]? = some (alignRight 6 (toString k) ++
        "  " ++ String.ofList (List.replicate (2 * p.loopsAround k) ' ') ++ i.text)) ∧
      Program.ofListing? p.listing = some p ∧ (p.listing = p'.listing ↔ p = p') := by
  obtain ⟨b, -, rfl⟩ := compile_eq_ok_iff.mp h
  obtain ⟨b', -, rfl⟩ := compile_eq_ok_iff.mp h'
  generalize passes.rewrite b = b
  generalize passes'.rewrite b' = b'
  have hread (b : Block) : Program.ofListing? (Program.ofBlock b).listing = some (.ofBlock b) := by
    rw [Program.listing_ofBlock, Program.ofListing?_linesShowing]
  have hlines := Program.textLines_linesShowing (Program.ofBlock b).loopsAround
    (Program.ofBlock b).code.toList
  rw [← Program.listing_ofBlock] at hlines
  refine ⟨?_, ⟨?_, ?_⟩, ?_, hread b, ?_, fun heq => by rw [heq]⟩
  · rw [Program.checkedListing?_ofBlock, Program.listing_ofBlock]
  · rw [hlines, Program.listing_ofBlock]
  · rw [hlines, Program.linesShowing, List.length_mapIdx, Array.length_toList]
    rfl
  · intro k i hi
    have hi' : (Program.ofBlock b).code.toList[k]? = some i := by simpa [Program.get?] using hi
    rw [hlines, Program.linesShowing, List.getElem?_mapIdx, hi']
    rfl
  · intro heq
    exact Option.some.inj ((hread b).symm.trans (heq ▸ hread b'))

theorem listing_shows_program_nested :
    ∃ p p', compile .all "+[>[.]<-]" = .ok p ∧ compile .none "+[>[,]<-]" = .ok p' ∧
      p.checkedListing? = some p.listing ∧ (textLines p.listing).length = 9 ∧
      (textLines p.listing)[4]? = some "     4      output" ∧
      (textLines p.listing)[8]? = some "     8  loop-end -> 1" ∧
      Program.ofListing? p.listing = some p ∧ p.listing ≠ p'.listing := by
  let p : Program := ⟨#[.op (.add 1), .loopStart 8, .op (.move 1), .loopStart 5, .op .output,
    .loopEnd 3, .op (.move (-1)), .op (.add (-1)), .loopEnd 1]⟩
  let p' : Program := ⟨#[.op (.add 1), .loopStart 8, .op (.move 1), .loopStart 5, .op .input,
    .loopEnd 3, .op (.move (-1)), .op (.add (-1)), .loopEnd 1]⟩
  have h : compile .all "+[>[.]<-]" = .ok p := rfl
  have h' : compile .none "+[>[,]<-]" = .ok p' := rfl
  obtain ⟨hchecked, ⟨-, hlength⟩, hline, hread, hdiffer⟩ := listing_shows_program h h'
  refine ⟨p, p', h, h', hchecked, hlength, (hline 4 (.op .output) rfl).trans ?_,
    (hline 8 (.loopEnd 1) rfl).trans ?_, hread, fun heq => ?_⟩
  · decide +kernel
  · decide +kernel
  · exact absurd (hdiffer.mp heq) (by decide)

end TapeLang
