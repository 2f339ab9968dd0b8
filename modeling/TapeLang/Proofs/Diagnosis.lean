import TapeLang.Diagnostic
import TapeLang.Proofs.Brackets

/-! # Diagnosis

A compile error counts characters, a diagnostic counts bytes. Both point at the same character of
the source, and it is the bracket that is reported.
-/

namespace TapeLang

/-- The bytes from `start` up to `stop` are the encoding of one character of the text. -/
structure Covers (text : String) (start stop : Nat) (c : Char) : Prop where
  inside : stop ≤ text.utf8ByteSize
  boundary : (⟨start⟩ : String.Pos.Raw).IsValid text
  bytes : text.toUTF8.extract start stop = (String.singleton c).toUTF8

namespace Brackets

variable {text : List Char} {e : CompileError} {c : Char} {p : Nat}

theorem StandsAt.getElem?_eq (h : StandsAt text c p) : text[p - 1]? = some c := by
  obtain ⟨before, after, rfl, rfl⟩ := h
  simp

theorem Reports.standsAt (h : Reports text e) : StandsAt text e.bracket e.position := by
  cases e with
  | unmatchedOpen p => exact h.2.1.1
  | unmatchedClose q => exact h.1.1

end Brackets

theorem standsAt_of_compile {passes : Passes} {source : String} {e : CompileError}
    (h : compile passes source = .error e) :
    Brackets.StandsAt source.toList e.bracket e.position :=
  (Brackets.stackError_eq_some_iff.mp (compile_eq_error_iff.mp h)).standsAt

theorem covers_append (before after : String) (c : Char) :
    Covers (before ++ String.singleton c ++ after) before.utf8ByteSize
      (before.utf8ByteSize + c.utf8Size) c where
  inside := by
    rw [String.utf8ByteSize_append, String.utf8ByteSize_append, String.utf8ByteSize_singleton]
    exact Nat.le_add_right _ _
  boundary := by
    rw [String.append_assoc]
    exact String.Pos.Raw.isValid_iff_exists_append.mpr ⟨before, _, rfl, rfl⟩
  bytes := by
    have hc : (String.singleton c).toByteArray.size = c.utf8Size := by
      rw [String.size_toByteArray, String.utf8ByteSize_singleton]
    have hskip := ByteArray.extract_append_size_add (a := before.toByteArray)
      (b := (String.singleton c).toByteArray ++ after.toByteArray) (i := 0) (j := c.utf8Size)
    rw [Nat.add_zero, String.size_toByteArray, ByteArray.extract_append_eq_left hc.symm] at hskip
    simpa only [String.toUTF8_eq_toByteArray, String.toByteArray_append,
      ByteArray.append_assoc] using hskip

/-- The bytes of the character at a position follow those of all characters before it. -/
theorem Brackets.StandsAt.covers {source : String} {c : Char} {p : Nat}
    (h : StandsAt source.toList c p) :
    Covers source (String.ofList (source.toList.take (p - 1))).utf8ByteSize
      ((String.ofList (source.toList.take (p - 1))).utf8ByteSize + c.utf8Size) c := by
  obtain ⟨before, after, htext, rfl⟩ := h
  have hbefore : source.toList.take (before.length + 1 - 1) = before := by
    rw [htext, Nat.add_sub_cancel]
    exact List.take_left
  have hsource : source = String.ofList before ++ String.singleton c ++ String.ofList after := by
    rw [← String.ofList_toList (s := source), htext, String.ofList_append, String.append_assoc]
    simp
  rw [hbefore]
  exact hsource ▸ covers_append (String.ofList before) (String.ofList after) c

theorem CompileError.utf8Size_bracket (e : CompileError) : e.bracket.utf8Size = 1 := by
  cases e <;> rfl

/-- The position of a compile error lies in the source, and the bracket stands there. The diagnostic
points at one byte: it begins a character of the source, and it is all of the bracket. -/
theorem diagnostic_covers_bracket {passes : Passes} {source : String} {e : CompileError}
    (h : compile passes source = .error e) (path : String) :
    (1 ≤ e.position ∧ e.position ≤ source.length) ∧
      source.toList[e.position - 1]? = some e.bracket ∧
      (Diagnostic.ofCompileError path source e).stop =
        (Diagnostic.ofCompileError path source e).start + 1 ∧
      Covers source (Diagnostic.ofCompileError path source e).start
        (Diagnostic.ofCompileError path source e).stop e.bracket := by
  have hstands := standsAt_of_compile h
  have hstop : (Diagnostic.ofCompileError path source e).stop =
      (Diagnostic.ofCompileError path source e).start + e.bracket.utf8Size := rfl
  refine ⟨⟨hstands.pos, ?_⟩, hstands.getElem?_eq, ?_, hstands.covers⟩
  · rw [← String.length_toList]
    exact hstands.le_length
  · rw [hstop, e.utf8Size_bracket]

theorem diagnostic_covers_bracket_behind_wide :
    compile .all "é ☺ +[" = .error (.unmatchedOpen 6) ∧
      (Diagnostic.ofCompileError "loop.bf" "é ☺ +[" (.unmatchedOpen 6)).start = 8 ∧
      (Diagnostic.ofCompileError "loop.bf" "é ☺ +[" (.unmatchedOpen 6)).stop = 9 ∧
      Covers "é ☺ +[" 8 9 '[' := by
  have h : compile .all "é ☺ +[" = .error (.unmatchedOpen 6) := rfl
  have hstart : (Diagnostic.ofCompileError "loop.bf" "é ☺ +[" (.unmatchedOpen 6)).start = 8 := rfl
  obtain ⟨-, -, hstop, hcovers⟩ := diagnostic_covers_bracket h "loop.bf"
  rw [hstart] at hstop hcovers
  rw [hstop] at hcovers
  exact ⟨h, hstart, hstop, hcovers⟩

end TapeLang
