import TapeLang.Proofs.Commands
import TapeLang.Proofs.Folding
import TapeLang.Proofs.LoopTree

/-! # Passes at a seam

If a list of lexemes is cut where no run and no idiom reaches over the cut, the passes work on each
part by itself. The parts need not have their brackets paired. A stretch of operations keeps its
place when the lexemes become code.
-/

namespace TapeLang

/-- The two operations, one right after the other, are coalesced into one. -/
inductive Op.Merges : Op → Op → Prop
  | moves (m n : Int) : Merges (.move m) (.move n)
  | adds (m n : Int) : Merges (.add m) (.add n)
  | overwritten (m : Int) : Merges (.add m) .input

namespace Lexeme

/-- No run reaches from the end of one list into the beginning of the other. -/
def Apart (xs ys : List Lexeme) : Prop :=
  ∀ o o', xs.getLast? = some (.op o) → ys.head? = some (.op o') → ¬ o.Merges o'

variable {x : Lexeme} {xs ys rest back : List Lexeme} {o o' : Op} {ops : List Op} {q : Nat}

theorem head?_append_of_ne_nil (h : xs ≠ []) (ys : List Lexeme) : (xs ++ ys).head? = xs.head? := by
  obtain ⟨x, rest, rfl⟩ := List.exists_cons_of_ne_nil h
  rfl

theorem getLast?_cons_of_ne_nil (x : Lexeme) (h : xs ≠ []) : (x :: xs).getLast? = xs.getLast? := by
  rw [List.getLast?_cons, List.getLast?_eq_some_getLast h, Option.getD_some]

theorem Apart.of_cons (h : Apart (x :: xs) ys) : Apart xs ys := fun o o' ho =>
  h o o' (by rw [List.getLast?_cons, ho, Option.getD_some])

/-- Runs replaced by their net effect, except that the one at the head is still open. -/
def gather (xs : List Lexeme) : List Lexeme := xs.foldr consCoalescing []

theorem consCoalescing_of_not_merges
    (h : ∀ o o', x = .op o → ys.head? = some (.op o') → ¬ o.Merges o') :
    consCoalescing x ys = x :: closeRun ys := by
  unfold consCoalescing
  split
  · exact (h _ _ rfl rfl (.moves _ _)).elim
  · exact (h _ _ rfl rfl (.adds _ _)).elim
  · exact (h _ _ rfl rfl (.overwritten _)).elim
  · rfl

theorem merges_head?_gather (h : (gather ys).head? = some (.op o')) (hm : o.Merges o') :
    ∃ o₁, ys.head? = some (.op o₁) ∧ o.Merges o₁ := by
  cases ys with
  | nil => cases h
  | cons y ys =>
    simp only [gather, List.foldr_cons, consCoalescing] at h
    split at h
    · cases h
      cases hm
      exact ⟨_, rfl, .moves _ _⟩
    · cases h
      cases hm
      exact ⟨_, rfl, .adds _ _⟩
    · cases h
      cases hm
      exact ⟨_, rfl, .adds _ _⟩
    · cases h
      exact ⟨_, rfl, hm⟩

theorem consCoalescing_ne_nil (x : Lexeme) (xs : List Lexeme) : consCoalescing x xs ≠ [] := by
  unfold consCoalescing
  split <;> exact List.cons_ne_nil _ _

theorem gather_ne_nil (h : xs ≠ []) : gather xs ≠ [] := by
  cases xs with
  | nil => exact absurd rfl h
  | cons x xs => exact consCoalescing_ne_nil x (gather xs)

theorem closeRun_append_of_ne_nil (h : xs ≠ []) (ys : List Lexeme) :
    closeRun (xs ++ ys) = closeRun xs ++ ys := by
  cases xs with
  | nil => exact absurd rfl h
  | cons x rest =>
    cases x with
    | op o =>
      cases o with
      | move n => by_cases hn : n = 0 <;> simp [closeRun, hn]
      | add n => by_cases hn : n = 0 <;> simp [closeRun, hn]
      | _ => rfl
    | _ => rfl

theorem consCoalescing_append_of_ne_nil (x : Lexeme) (h : xs ≠ []) (ys : List Lexeme) :
    consCoalescing x (xs ++ ys) = consCoalescing x xs ++ ys := by
  have hclose := closeRun_append_of_ne_nil h ys
  by_cases hm : ∃ o o', x = .op o ∧ xs.head? = some (.op o') ∧ o.Merges o'
  · obtain ⟨o, o', rfl, hhead, hm⟩ := hm
    obtain ⟨rest, rfl⟩ := List.head?_eq_some_iff.mp hhead
    cases hm <;> rfl
  · have hhead := head?_append_of_ne_nil h ys
    rw [consCoalescing_of_not_merges fun o o' hx ho hm' => hm ⟨o, o', hx, hhead ▸ ho, hm'⟩,
      consCoalescing_of_not_merges fun o o' hx ho hm' => hm ⟨o, o', hx, ho, hm'⟩, hclose,
      List.cons_append]

/-- The run at the end of the first list is closed before the second begins. -/
theorem gather_append (hxs : xs ≠ []) (h : Apart xs ys) :
    gather (xs ++ ys) = gather xs ++ coalesce ys := by
  induction xs with
  | nil => exact absurd rfl hxs
  | cons x xs ih =>
    show consCoalescing x (gather (xs ++ ys)) = consCoalescing x (gather xs) ++ coalesce ys
    by_cases hnil : xs = []
    · subst hnil
      refine (consCoalescing_of_not_merges fun o o' hx ho' hm => ?_).trans ?_
      · obtain ⟨o₁, ho₁, hm₁⟩ := merges_head?_gather ho' hm
        exact h o o₁ (congrArg some hx) ho₁ hm₁
      · cases x with
        | op o => cases o <;> rfl
        | _ => rfl
    · rw [ih hnil h.of_cons, consCoalescing_append_of_ne_nil x (gather_ne_nil hnil)]

theorem coalesce_append (h : Apart xs ys) : coalesce (xs ++ ys) = coalesce xs ++ coalesce ys := by
  by_cases hxs : xs = []
  · subst hxs
    rfl
  · have hgather := congrArg closeRun (gather_append hxs h)
    rwa [closeRun_append_of_ne_nil (gather_ne_nil hxs)] at hgather

/-! What folding puts in place of a loop merges with nothing. -/

theorem head?_consFolding_of_merges (h : (consFolding x rest).head? = some (.op o'))
    (hm : o.Merges o') : x = .op o' := by
  unfold consFolding at h
  split at h
  · split at h
    · next hi =>
      cases h
      rcases Op.loopIdiom?_cases hi with ⟨-, rfl⟩ | ⟨d, -, rfl⟩ <;> cases hm
    · cases h
  · exact Option.some.inj h

theorem getLast?_consFolding_of_merges (h : (consFolding x rest).getLast? = some (.op o))
    (hm : o.Merges o') : (x :: rest).getLast? = some (.op o) := by
  unfold consFolding at h
  split at h
  · next tail =>
    split at h
    · next hi =>
      cases tail with
      | nil =>
        cases h
        rcases Op.loopIdiom?_cases hi with ⟨-, rfl⟩ | ⟨d, -, rfl⟩ <;> cases hm
      | cons y tail => simpa using h
    · exact h
  · exact h

theorem consFolding_ne_nil (x : Lexeme) (xs : List Lexeme) : consFolding x xs ≠ [] := by
  unfold consFolding
  split
  · split <;> exact List.cons_ne_nil _ _
  · exact List.cons_ne_nil _ _

theorem foldIdioms_ne_nil (h : xs ≠ []) : foldIdioms xs ≠ [] := by
  cases xs with
  | nil => exact absurd rfl h
  | cons x xs => exact consFolding_ne_nil x (foldIdioms xs)

theorem getLast?_foldIdioms_of_merges (h : (foldIdioms xs).getLast? = some (.op o))
    (hm : o.Merges o') : xs.getLast? = some (.op o) := by
  induction xs with
  | nil => exact h
  | cons x xs ih =>
    have hlast := getLast?_consFolding_of_merges h hm
    by_cases hxs : xs = []
    · subst hxs
      exact hlast
    · rw [getLast?_cons_of_ne_nil x hxs]
      exact ih ((getLast?_cons_of_ne_nil x (foldIdioms_ne_nil hxs)).symm.trans hlast)

theorem Apart.foldIdioms (h : Apart xs ys) : Apart (foldIdioms xs) (foldIdioms ys) := by
  intro o o' ho ho' hm
  cases ys with
  | nil => cases ho'
  | cons y ys =>
    obtain rfl : y = .op o' := head?_consFolding_of_merges ho' hm
    exact h o o' (getLast?_foldIdioms_of_merges ho hm) rfl hm

theorem consFolding_append_of_ne_nil (x : Lexeme) (h : xs ≠ [])
    (hys : ∀ q, ys.head? ≠ some (.leave q)) :
    consFolding x (xs ++ ys) = consFolding x xs ++ ys := by
  obtain ⟨y, rest, rfl⟩ := List.exists_cons_of_ne_nil h
  cases x with
  | op o => rfl
  | leave q => rfl
  | enter p =>
    cases y with
    | enter p' => rfl
    | leave q => rfl
    | op o =>
      cases rest with
      | nil =>
        cases ys with
        | nil => rfl
        | cons z ys =>
          cases z with
          | leave q => exact absurd rfl (hys q)
          | _ => rfl
      | cons z rest =>
        cases z with
        | leave q => cases hi : o.loopIdiom? <;> simp [consFolding, hi]
        | _ => rfl

theorem foldIdioms_append
    (hlast : ∀ x, xs.getLast? = some x → consFolding x (foldIdioms ys) = x :: foldIdioms ys)
    (hhead : ∀ q, (foldIdioms ys).head? ≠ some (.leave q)) :
    foldIdioms (xs ++ ys) = foldIdioms xs ++ foldIdioms ys := by
  induction xs with
  | nil => rfl
  | cons x xs ih =>
    show consFolding x (foldIdioms (xs ++ ys)) = consFolding x (foldIdioms xs) ++ foldIdioms ys
    by_cases hxs : xs = []
    · subst hxs
      refine (hlast x rfl).trans ?_
      cases x <;> rfl
    · rw [ih fun y hy => hlast y ((getLast?_cons_of_ne_nil x hxs).trans hy),
        consFolding_append_of_ne_nil x (foldIdioms_ne_nil hxs) hhead]

theorem foldIdioms_ops (ops : List Op) (back : List Lexeme) :
    foldIdioms (ops.map .op ++ back) = ops.map .op ++ foldIdioms back := by
  induction ops with
  | nil => rfl
  | cons o ops ih =>
    show consFolding (.op o) (foldIdioms (ops.map .op ++ back)) = _
    rw [ih]
    rfl

theorem head?_foldIdioms_of_leave (h : (foldIdioms xs).head? = some (.leave q)) :
    xs.head? = some (.leave q) := by
  cases xs with
  | nil => exact h
  | cons x xs =>
    have hfold : (consFolding x (foldIdioms xs)).head? = some (.leave q) := h
    unfold consFolding at hfold
    split at hfold
    · split at hfold <;> cases hfold
    · exact hfold

variable {front : List Lexeme}

theorem coalesce_stretch (hops : ops ≠ []) (hbefore : Apart front (ops.map .op))
    (hafter : Apart (ops.map .op) back) : coalesce (front ++ (ops.map .op ++ back)) =
      coalesce front ++ (coalesce (ops.map .op) ++ coalesce back) := by
  have hne : ops.map Lexeme.op ≠ [] := by simpa using hops
  have hfront : Apart front (ops.map .op ++ back) := fun o o' ho ho' =>
    hbefore o o' ho (head?_append_of_ne_nil hne back ▸ ho')
  rw [coalesce_append hfront, coalesce_append hafter]

theorem foldIdioms_stretch (hops : ops ≠ [])
    (h : ∀ p q o, front.getLast? = some (.enter p) → ops = [o] → back.head? = some (.leave q) →
      o.loopIdiom? = none) :
    foldIdioms (front ++ (ops.map .op ++ back)) =
      foldIdioms front ++ (ops.map .op ++ foldIdioms back) := by
  rw [← foldIdioms_ops]
  obtain ⟨o, ops, rfl⟩ := List.exists_cons_of_ne_nil hops
  refine foldIdioms_append (fun x hx => ?_) (fun q => ?_)
  · rw [foldIdioms_ops]
    cases x with
    | op o => rfl
    | leave q => rfl
    | enter p =>
      cases ops with
      | cons o' ops => rfl
      | nil =>
        show consFolding (.enter p) (.op o :: foldIdioms back) =
          .enter p :: .op o :: foldIdioms back
        cases hback : foldIdioms back with
        | nil => rfl
        | cons z rest =>
          cases z with
          | leave q =>
            have hleave : (foldIdioms back).head? = some (.leave q) := by
              rw [hback, List.head?_cons]
            simp [consFolding, h p q o hx rfl (head?_foldIdioms_of_leave hleave)]
          | _ => rfl
  · rw [foldIdioms_ops]
    rintro ⟨⟩

end Lexeme

variable {front back : List Lexeme} {ops : List Op}

/-- The passes work on what stands before a run, on the run and on what stands behind it. -/
theorem Passes.apply_stretch {passes : Passes} (hcoalesce : passes.coalesce = true)
    (hops : ops ≠ []) (hbefore : Lexeme.Apart front (ops.map .op))
    (hafter : Lexeme.Apart (ops.map .op) back)
    (h : passes.foldIdioms = true → ∀ p q o, front.getLast? = some (.enter p) → ops = [o] →
      back.head? = some (.leave q) → o.loopIdiom? = Option.none) :
    passes.apply (front ++ (ops.map .op ++ back)) =
      passes.apply front ++ (Lexeme.coalesce (ops.map .op) ++ passes.apply back) := by
  obtain ⟨folds, coalesces⟩ := passes
  obtain rfl : coalesces = true := hcoalesce
  cases folds with
  | false => exact Lexeme.coalesce_stretch hops hbefore hafter
  | true =>
    have hbare : Lexeme.foldIdioms (ops.map .op) = ops.map .op := by
      simpa [Lexeme.foldIdioms] using Lexeme.foldIdioms_ops ops []
    have hbefore' := hbefore.foldIdioms
    have hafter' := hafter.foldIdioms
    rw [hbare] at hbefore' hafter'
    exact (congrArg Lexeme.coalesce (Lexeme.foldIdioms_stretch hops (h rfl))).trans
      (Lexeme.coalesce_stretch hops hbefore' hafter')

theorem Instruction.eq_map_op {code : List Instruction}
    (h : (code.map lexeme).map Lexeme.unplaced = ops.map .op) : code = ops.map .op := by
  induction ops generalizing code with
  | nil => simpa using h
  | cons o ops ih =>
    rw [List.map_map] at h
    obtain ⟨i, rest, rfl, hi, hrest⟩ := List.map_eq_cons_iff.mp h
    rw [← List.map_map] at hrest
    cases i <;> cases hi
    rw [ih hrest, List.map_cons]

namespace Block.Spells

variable {xs : List Lexeme} {b : Block}

theorem map_lexeme (h : Spells xs b) (start : Nat) :
    ((b.code start).map Instruction.lexeme).map Lexeme.unplaced = xs.map Lexeme.unplaced := by
  induction h generalizing start with
  | nil => rfl
  | op o _ ih =>
    rw [code, List.map_cons, List.map_cons, List.map_cons, ih]
    rfl
  | loop p q _ _ ihb ihr =>
    simp only [code, List.map_cons, List.map_append, ihb, ihr, List.cons_append]
    rfl

theorem holds (h : Spells (front ++ (ops.map .op ++ back)) b) :
    (Program.ofBlock b).Holds front.length (ops.map .op) := by
  have hmap := h.map_lexeme 0
  rw [List.map_map, List.map_append, List.map_append] at hmap
  obtain ⟨before, behind, hcode, hbefore, hbehind⟩ := List.map_eq_append_iff.mp hmap
  obtain ⟨code, after, rfl, hops, -⟩ := List.map_eq_append_iff.mp hbehind
  have hlength : before.length = front.length := by
    simpa using congrArg List.length hbefore
  have hstretch : code = ops.map .op := by
    refine Instruction.eq_map_op (List.map_map.trans (hops.trans ?_))
    rw [List.map_map]
    rfl
  rw [Program.Holds, Program.ofBlock_toList, hcode, ← hlength, List.drop_left, hstretch]
  exact List.prefix_append _ _

end Block.Spells

end TapeLang
