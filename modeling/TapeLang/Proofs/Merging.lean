import Mathlib.Data.List.DropRight
import Mathlib.Data.List.SplitBy
import TapeLang.Console.Requests
import TapeLang.Proofs.LookAlikes

/-! # Merged output

What a buffered console holds is a normal form of the pieces written to it: each block of program
output that nothing interrupts is one segment, and everything else is a segment of its own. Emptying
the buffer cuts the pieces, but what was taken out and what is left still merge to the same.
-/

namespace TapeLang

namespace Segment

/-- Program output right behind program output belongs together. -/
def joins (s t : Segment) : Bool := s.tag = .output && t.tag = .output

/-- A block of pieces as one segment. -/
def joined : List Segment → Segment
  | [] => ⟨.output, ""⟩
  | s :: rest => ⟨s.tag, String.join ((s :: rest).map text)⟩

/-- Every longest block of program output becomes one segment; all else stays as it is. -/
def merge (pieces : List Segment) : List Segment := (pieces.splitBy joins).map joined

/-- The texts of one kind. -/
def texts (tag : Tag) (segments : List Segment) : List String :=
  (segments.filter fun s => s.tag = tag).map text

theorem joins_iff {s t : Segment} : s.joins t = true ↔ s.tag = .output ∧ t.tag = .output := by
  simp [joins]

theorem joined_singleton (s : Segment) : joined [s] = s := by
  simp [joined]

theorem joined_concat {block : List Segment} (h : block ≠ []) (s : Segment) :
    joined (block ++ [s]) = ⟨(joined block).tag, (joined block).text ++ s.text⟩ := by
  cases block with
  | nil => exact (h rfl).elim
  | cons first rest => simp [joined, String.append_assoc]

theorem eq_singleton_or_output {block : List Segment} (hne : block ≠ [])
    (h : block.IsChain fun s t => s.joins t = true) :
    (∃ s, block = [s]) ∨ ∀ s ∈ block, s.tag = .output := by
  induction block with
  | nil => exact (hne rfl).elim
  | cons s rest ih =>
    cases rest with
    | nil => exact Or.inl ⟨s, rfl⟩
    | cons t rest =>
      obtain ⟨hjoins, hrest⟩ := List.isChain_cons_cons.mp h
      obtain ⟨hs, ht⟩ := joins_iff.mp hjoins
      refine Or.inr (List.forall_mem_cons.mpr ⟨hs, ?_⟩)
      rcases ih (List.cons_ne_nil t rest) hrest with ⟨u, hu⟩ | hall
      · cases hu
        exact List.forall_mem_singleton.mpr ht
      · exact hall

theorem tag_joined {block : List Segment} {last : Segment}
    (h : (block ++ [last]).IsChain fun s t => s.joins t = true) :
    (joined (block ++ [last])).tag = last.tag := by
  rcases eq_singleton_or_output (by simp) h with ⟨s, hs⟩ | hall
  · obtain ⟨rfl, rfl⟩ : block = [] ∧ last = s := by
      rw [List.append_eq_singleton_iff] at hs
      simpa using hs
    rfl
  · rw [hall last (by simp)]
    cases block with
    | nil => exact hall last (by simp)
    | cons s rest => exact hall s (by simp)

theorem splitBy_concat_of_joins {pieces : List Segment} {blocks : List (List Segment)}
    {block : List Segment} {last s : Segment}
    (h : pieces.splitBy joins = blocks ++ [block ++ [last]]) (hjoins : last.joins s = true) :
    (pieces ++ [s]).splitBy joins = blocks ++ [block ++ [last, s]] := by
  rw [List.splitBy_eq_iff] at h ⊢
  obtain ⟨rfl, hne, hblocks, hbreaks⟩ := h
  refine ⟨by simp, by simpa using hne, ?_, ?_⟩
  · simp only [List.forall_mem_append, List.forall_mem_singleton] at hblocks ⊢
    refine ⟨hblocks.1, ?_⟩
    rw [List.append_cons, List.isChain_append]
    exact ⟨hblocks.2, .singleton s, by simpa using hjoins⟩
  · rw [List.isChain_append] at hbreaks ⊢
    refine ⟨hbreaks.1, .singleton _, fun before hbefore => ?_⟩
    obtain ⟨ha, hb, hbreak⟩ := hbreaks.2.2 before hbefore _ rfl
    simp only [List.head?_cons, Option.mem_def, Option.some.injEq, forall_eq']
    refine ⟨ha, by simp, ?_⟩
    cases block <;> simpa using hbreak

theorem exists_last_block {pieces : List Segment} (h : pieces ≠ []) :
    ∃ blocks block last, pieces.splitBy joins = blocks ++ [block ++ [last]] ∧
      pieces.getLast? = some last ∧ (joined (block ++ [last])).tag = last.tag := by
  obtain ⟨blocks, block, hblocks⟩ := (List.eq_nil_or_concat' (pieces.splitBy joins)).resolve_left
    (List.splitBy_ne_nil.mpr h)
  have hmem : block ∈ pieces.splitBy joins := by simp [hblocks]
  obtain ⟨block, last, rfl⟩ := (List.eq_nil_or_concat' block).resolve_left
    (List.ne_nil_of_mem_splitBy hmem)
  refine ⟨blocks, block, last, hblocks, ?_, tag_joined (List.isChain_of_mem_splitBy hmem)⟩
  rw [← List.flatten_splitBy joins pieces, hblocks]
  simp

end Segment

namespace Buffered

open Segment

variable {written : List Segment} {last s : Segment}

theorem append_of_joins (h : last.joins s = true) :
    append s.tag s.text (last :: written) = ⟨.output, last.text ++ s.text⟩ :: written := by
  obtain ⟨hlast, hs⟩ := joins_iff.mp h
  obtain ⟨tag, text⟩ := last
  obtain rfl : tag = .output := hlast
  simp only [append, if_pos hs]

theorem append_of_not_joins (h : ∀ last ∈ written.head?, last.joins s = false) :
    append s.tag s.text written = s :: written := by
  unfold append
  split
  · next last rest =>
    have hs : ¬ s.tag = .output := by simpa [joins] using h ⟨.output, last⟩ rfl
    rw [if_neg hs]
  · rfl

theorem append_cases (s : Segment) (written : List Segment) :
    (∃ last rest, written = last :: rest ∧ last.joins s = true ∧
      append s.tag s.text written = ⟨.output, last.text ++ s.text⟩ :: rest) ∨
    (∀ last ∈ written.head?, last.joins s = false) ∧
      append s.tag s.text written = s :: written := by
  by_cases h : ∃ last ∈ written.head?, last.joins s = true
  · obtain ⟨last, hmem, hjoins⟩ := h
    obtain ⟨rest, rfl⟩ := List.head?_eq_some_iff.mp hmem
    exact Or.inl ⟨last, rest, rfl, hjoins, append_of_joins hjoins⟩
  · have hnot : ∀ last ∈ written.head?, last.joins s = false := fun last hmem =>
      Bool.eq_false_iff.mpr fun hjoins => h ⟨last, hmem, hjoins⟩
    exact Or.inr ⟨hnot, append_of_not_joins hnot⟩

theorem appendAll_concat (pieces : List Segment) (s : Segment) (written : List Segment) :
    appendAll (pieces ++ [s]) written = append s.tag s.text (appendAll pieces written) := by
  simp [appendAll]

theorem appendAll_append (pieces more written : List Segment) :
    appendAll (pieces ++ more) written = appendAll more (appendAll pieces written) :=
  List.foldl_append

theorem append_output_append (a b : String) (written : List Segment) :
    append .output (a ++ b) written = append .output b (append .output a written) := by
  unfold append
  split <;> simp [String.append_assoc]

theorem appendAll_reverse_append (s : Segment) (written base : List Segment) :
    appendAll (append s.tag s.text written).reverse base =
      append s.tag s.text (appendAll written.reverse base) := by
  rcases append_cases s written with ⟨last, rest, rfl, hjoins, heq⟩ | ⟨-, heq⟩
  · obtain ⟨hlast, hs⟩ := joins_iff.mp hjoins
    rw [heq, List.reverse_cons, List.reverse_cons, appendAll_concat, appendAll_concat, hlast, hs]
    exact append_output_append _ _ _
  · rw [heq, List.reverse_cons, appendAll_concat]

theorem merge_concat (pieces : List Segment) (s : Segment) :
    merge (pieces ++ [s]) = (append s.tag s.text (merge pieces).reverse).reverse := by
  by_cases hpieces : pieces = []
  · subst hpieces
    exact congrArg (fun s => [s]) (joined_singleton s)
  · obtain ⟨blocks, block, last, hblocks, hlast, htag⟩ := exists_last_block hpieces
    have hmerge : (merge pieces).reverse =
        joined (block ++ [last]) :: (blocks.map joined).reverse := by simp [merge, hblocks]
    rw [hmerge]
    cases hjoins : last.joins s with
    | true =>
      rw [append_of_joins (by rwa [joins, htag]), merge, splitBy_concat_of_joins hblocks hjoins,
        List.append_cons block last [s], List.map_append, List.map_singleton,
        joined_concat (by simp), htag, (joins_iff.mp hjoins).1]
      simp
    | false =>
      rw [append_of_not_joins (by simpa [joins, htag] using hjoins), merge,
        List.splitBy_append_cons [] (by simpa [hlast] using hjoins), List.map_append, hblocks]
      simp [List.splitBy, List.splitBy.loop, joined_singleton]

/-- The buffer holds the pieces merged. -/
theorem reverse_appendAll (pieces : List Segment) :
    (appendAll pieces []).reverse = merge pieces := by
  induction pieces using List.reverseRecOn with
  | nil => rfl
  | append_singleton pieces s ih => rw [appendAll_concat, merge_concat, ← ih, List.reverse_reverse]

theorem apart_merge (pieces : List Segment) :
    (merge pieces).IsChain fun s t => ¬ (s.tag = .output ∧ t.tag = .output) := by
  induction pieces using List.reverseRecOn with
  | nil => exact .nil
  | append_singleton pieces s ih =>
    rw [merge_concat, List.isChain_reverse]
    rw [← List.reverse_reverse (merge pieces), List.isChain_reverse] at ih
    rcases append_cases s (merge pieces).reverse with ⟨last, rest, hrest, hjoins, heq⟩ | ⟨hnot, heq⟩
    · rw [hrest] at ih
      rw [heq]
      obtain ⟨hhead, hchain⟩ := List.isChain_cons.mp ih
      refine List.isChain_cons.mpr ⟨fun t ht hboth => ?_, hchain⟩
      exact hhead t ht ⟨hboth.1, (joins_iff.mp hjoins).1⟩
    · rw [heq]
      refine List.isChain_cons.mpr ⟨fun t ht hboth => ?_, ih⟩
      exact Bool.eq_false_iff.mp (hnot t ht) (joins_iff.mpr hboth)

theorem texts_append (tag : Tag) (l l' : List Segment) :
    texts tag (l ++ l') = texts tag l ++ texts tag l' := by
  simp [texts]

/-- What can be told part by part, and does not tell a text from its halves, is the same before and
after merging. -/
theorem map_merge {α : Type} {f : List Segment → α}
    (happend : ∀ {a a' : List Segment} (l : List Segment), f a = f a' →
      f (l ++ a) = f (l ++ a') ∧ f (a ++ l) = f (a' ++ l))
    (hjoin : ∀ s t : Segment, s.joins t = true → f [⟨.output, s.text ++ t.text⟩] = f [s, t])
    (pieces : List Segment) : f (merge pieces) = f pieces := by
  induction pieces using List.reverseRecOn with
  | nil => rfl
  | append_singleton pieces s ih =>
    rw [merge_concat, ← (happend [s] ih).2]
    rcases append_cases s (merge pieces).reverse with ⟨last, rest, hrest, hjoins, heq⟩ | ⟨-, heq⟩
    · have hmerge : merge pieces = rest.reverse ++ [last] := by
        rw [← List.reverse_reverse (merge pieces), hrest, List.reverse_cons]
      rw [heq, hmerge, List.reverse_cons, List.append_assoc]
      exact (happend rest.reverse (hjoin last s hjoins)).1
    · rw [heq, List.reverse_cons, List.reverse_reverse]

theorem texts_merge {tag : Tag} (h : tag ≠ .output) (pieces : List Segment) :
    texts tag (merge pieces) = texts tag pieces := by
  refine map_merge (fun l ha => ?_) (fun s t hjoins => ?_) pieces
  · simp only [texts_append, ha, and_self]
  · obtain ⟨hs, ht⟩ := joins_iff.mp hjoins
    simp [texts, hs, ht, h.symm]

theorem join_texts_merge (pieces : List Segment) :
    String.join (texts .output (merge pieces)) = String.join (texts .output pieces) := by
  refine map_merge (f := fun l => String.join (texts .output l)) (fun l ha => ?_)
    (fun s t hjoins => ?_) pieces
  · simp only [texts_append, String.join_append, ha, and_self]
  · obtain ⟨hs, ht⟩ := joins_iff.mp hjoins
    simp [texts, hs, ht]

/-- The piece that a request writes. -/
def Request.piece? : Request → Option Segment
  | .write tag content => some ⟨tag, content⟩
  | _ => none

/-- The requests that leave the output empty. -/
def Request.empties : Request → Bool
  | .clear | .drain | .reset | .restart => true
  | _ => false

/-- The segments that a request has taken out. -/
def Answer.taken : Answer → List Segment
  | .drained taken => taken
  | _ => []

/-- All pieces that are written, in order. -/
def pieces (requests : List Request) : List Segment := requests.filterMap Request.piece?

/-- The pieces that were written since the output was last emptied. -/
def recentPieces (requests : List Request) : List Segment :=
  pieces (requests.rtakeWhile fun request => !request.empties)

theorem written_serve (request : Request) (b : Buffered) :
    (serve request b).2.written =
      if request.empties then [] else appendAll request.piece?.toList b.written := by
  cases request with
  | read =>
    simp only [serve, read?]
    cases b.input.read? with
    | none => rfl
    | some answer => rcases answer with ⟨_ | c, q⟩ <;> rfl
  | _ => rfl

theorem taken_serve {request : Request} (h : request.empties = false) (b : Buffered) :
    (serve request b).1.taken = [] := by
  cases request with
  | read =>
    simp only [serve]
    split <;> rfl
  | drain => cases h
  | _ => rfl

theorem pieces_concat (requests : List Request) (request : Request) :
    pieces (requests ++ [request]) = pieces requests ++ request.piece?.toList := by
  rw [pieces, List.filterMap_append, pieces]
  cases hpiece : request.piece? <;> simp [hpiece]

theorem written_serveAll (requests : List Request) :
    (serveAll requests {}).2.written = appendAll (recentPieces requests) [] := by
  induction requests using List.reverseRecOn with
  | nil => rfl
  | append_singleton requests request ih =>
    rw [serveAll_concat, written_serve, recentPieces, List.rtakeWhile_concat]
    cases request.empties with
    | true => rfl
    | false =>
      rw [ih]
      exact (appendAll_append _ _ _).symm.trans (congrArg (appendAll · []) (pieces_concat _ _).symm)

/-- As long as the output is only ever taken out, the segments that were taken out followed by those
that are left merge as all pieces do. -/
theorem appendAll_taken {requests : List Request}
    (h : ∀ request ∈ requests, request.empties = true → request = .drain) :
    appendAll
        ((serveAll requests {}).1.flatMap Answer.taken ++ (serveAll requests {}).2.output) [] =
      appendAll (pieces requests) [] := by
  induction requests using List.reverseRecOn with
  | nil => rfl
  | append_singleton requests request ih =>
    have hbefore := ih fun r hr => h r (List.mem_append_left _ hr)
    rw [serveAll_concat, pieces_concat]
    generalize serveAll requests {} = served at hbefore
    cases hempties : request.empties with
    | true =>
      obtain rfl := h request (by simp) hempties
      simpa [serve, drain, output, clear, Answer.taken, Request.piece?] using hbefore
    | false =>
      have hwritten := written_serve request served.2
      rw [hempties, if_neg Bool.false_ne_true] at hwritten
      simp only [List.flatMap_append, List.flatMap_singleton, taken_serve hempties, List.append_nil,
        output, hwritten]
      cases request.piece? with
      | none =>
        rw [Option.toList_none, List.append_nil]
        exact hbefore
      | some s =>
        rw [Option.toList_some, appendAll_concat, ← hbefore, appendAll_append, appendAll_append]
        exact appendAll_reverse_append s served.2.written _

end Buffered

/-- The output of a buffered console is the merged form of the pieces written since it was last
emptied. If it is only emptied by taking it out, what was taken out and what is left merge as all
the pieces ever written. -/
theorem output_merges_writes (requests : List Buffered.Request) :
    let served := Buffered.serveAll requests {}
    let recent := Buffered.recentPieces requests
    served.2.output = Segment.merge recent ∧
    (served.2.output.IsChain fun s t => ¬ (s.tag = .output ∧ t.tag = .output)) ∧
    served.2.text = String.join (Segment.texts .output recent) ∧
    served.2.messages = Segment.texts .message recent ∧
    served.2.errors = Segment.texts .error recent ∧
    ((∀ request ∈ requests, request.empties = true → request = .drain) →
      Segment.merge (served.1.flatMap Buffered.Answer.taken ++ served.2.output) =
        Segment.merge (Buffered.pieces requests)) := by
  intro served recent
  have houtput : served.2.output = Segment.merge recent := by
    rw [Buffered.output, Buffered.written_serveAll, Buffered.reverse_appendAll]
  have htagged (tag : Tag) : served.2.tagged tag = Segment.texts tag (Segment.merge recent) :=
    congrArg (Segment.texts tag) houtput
  refine ⟨houtput, ?_, ?_, ?_, ?_, fun h => ?_⟩
  · rw [houtput]
    exact Buffered.apart_merge recent
  · rw [Buffered.text, htagged]
    exact Buffered.join_texts_merge recent
  · rw [Buffered.messages, htagged]
    exact Buffered.texts_merge (by simp) recent
  · rw [Buffered.errors, htagged]
    exact Buffered.texts_merge (by simp) recent
  · rw [← Buffered.reverse_appendAll, ← Buffered.reverse_appendAll, Buffered.appendAll_taken h]

theorem output_merges_writes_cut :
    let requests : List Buffered.Request :=
      [.write .output "a", .drain, .write .output "", .push "x", .write .output "b",
        .write .message "m", .read, .write .output "c"]
    let served := Buffered.serveAll requests {}
    served.2.output = [⟨.output, "b"⟩, ⟨.message, "m"⟩, ⟨.output, "c"⟩] ∧ served.2.text = "bc" ∧
      Segment.merge (served.1.flatMap Buffered.Answer.taken ++ served.2.output) =
        [⟨.output, "ab"⟩, ⟨.message, "m"⟩, ⟨.output, "c"⟩] := by
  intro requests served
  obtain ⟨houtput, -, htext, -, -, htaken⟩ := output_merges_writes requests
  have hdrain : ∀ request ∈ requests, request.empties = true → request = .drain := by decide
  exact ⟨houtput.trans (by decide +kernel), htext.trans (by decide +kernel),
    (htaken hdrain).trans (by decide +kernel)⟩

end TapeLang
