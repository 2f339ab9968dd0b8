import TapeLang.Proofs.Spelling

/-! # Rewriting

The passes as rewritings of blocks. A pass over the lexemes of a block yields the lexemes of the
rewritten block, and a text compiles under one choice of passes exactly if it does under every
other.
-/

namespace TapeLang

namespace Block

/-- The loop over `body`, or the operation it amounts to. -/
def loopOrIdiom (body rest : Block) : Block :=
  match body with
  | .op o .nil =>
    match o.loopIdiom? with
    | some idiom => .op idiom rest
    | none => .loop (.op o .nil) rest
  | body => .loop body rest

/-- Every loop that has an idiom replaced by it, the inner ones first. -/
def fold : Block → Block
  | .nil => .nil
  | .op o rest => .op o rest.fold
  | .loop body rest => loopOrIdiom body.fold rest.fold

/-- Close the run at the head of a block. -/
def closeRun : Block → Block
  | .op (.move n) rest => if n = 0 then rest else .op (.move n) rest
  | .op (.add n) rest => if n = 0 then rest else .op (.add (Lexeme.wrapDelta n)) rest
  | b => b

/-- Put an operation before a block whose head may be a run still open. -/
def consRun : Op → Block → Block
  | .move m, .op (.move n) rest => .op (.move (m + n)) rest
  | .add m, .op (.add n) rest => .op (.add (m + n)) rest
  | .add _, .op .input rest => .op .input rest
  | o, b => .op o b.closeRun

/-- Runs replaced by their net effect, except that the one at the head is still open. -/
def gather : Block → Block
  | .nil => .nil
  | .op o rest => consRun o rest.gather
  | .loop body rest => .loop body.gather.closeRun rest.gather.closeRun

def coalesce (b : Block) : Block := b.gather.closeRun

variable {xs ys : List Lexeme} {b body rest : Block}

theorem consFolding_loop (hb : Spells xs body) (hr : Spells ys rest) (p q : Nat) :
    ∃ zs, Spells zs (loopOrIdiom body rest) ∧ ∀ after,
      Lexeme.consFolding (.enter p) (xs ++ .leave q :: (ys ++ after)) = zs ++ after := by
  cases hb with
  | nil => exact ⟨_, .loop p q .nil hr, fun after => rfl⟩
  | loop p' q' hb' hr' =>
    exact ⟨_, .loop p q (.loop p' q' hb' hr') hr, fun after => by simp [Lexeme.consFolding]⟩
  | op o hb' =>
    cases hb' with
    | nil =>
      cases hi : o.loopIdiom? with
      | some idiom =>
        refine ⟨.op idiom :: ys, ?_, fun after => by simp [Lexeme.consFolding, hi]⟩
        simpa [loopOrIdiom, hi] using Spells.op idiom hr
      | none =>
        refine ⟨.enter p :: ([.op o] ++ .leave q :: ys), ?_, fun after => ?_⟩
        · simpa only [loopOrIdiom, hi] using Spells.loop p q (.op o .nil) hr
        · simp [Lexeme.consFolding, hi]
    | op o' hb'' =>
      exact ⟨_, .loop p q (.op o (.op o' hb'')) hr, fun after => by simp [Lexeme.consFolding]⟩
    | loop p' q' hb'' hr' =>
      exact ⟨_, .loop p q (.op o (.loop p' q' hb'' hr')) hr,
        fun after => by simp [Lexeme.consFolding]⟩

theorem foldr_consFolding (h : Spells xs b) : ∃ ys, Spells ys b.fold ∧ ∀ after,
    xs.foldr Lexeme.consFolding after = ys ++ after := by
  induction h with
  | nil => exact ⟨[], .nil, fun after => rfl⟩
  | op o _ ih =>
    obtain ⟨ys, hs, he⟩ := ih
    refine ⟨.op o :: ys, .op o hs, fun after => ?_⟩
    rw [List.foldr_cons, he]
    rfl
  | loop p q _ _ ihb ihr =>
    obtain ⟨us, hus, heu⟩ := ihb
    obtain ⟨vs, hvs, hev⟩ := ihr
    obtain ⟨zs, hzs, hez⟩ := consFolding_loop hus hvs p q
    refine ⟨zs, hzs, fun after => ?_⟩
    rw [List.foldr_cons, List.foldr_append, List.foldr_cons, hev, heu]
    exact hez after

theorem spells_foldIdioms (h : Spells xs b) : Spells (Lexeme.foldIdioms xs) b.fold := by
  obtain ⟨ys, hs, he⟩ := foldr_consFolding h
  rw [Lexeme.foldIdioms, he, List.append_nil]
  exact hs

/-- No run is open at the head of the lexemes, whatever is put before them. -/
def Settled (xs : List Lexeme) : Prop := ∀ o ys, xs ≠ .op o :: ys

variable {after : List Lexeme}

theorem Settled.closeRun (h : Settled after) : Lexeme.closeRun after = after := by
  unfold Lexeme.closeRun
  split
  · exact absurd rfl (h _ _)
  · exact absurd rfl (h _ _)
  · rfl

theorem Settled.consCoalescing (h : Settled after) (x : Lexeme) :
    Lexeme.consCoalescing x after = x :: after := by
  unfold Lexeme.consCoalescing
  split
  · exact absurd rfl (h _ _)
  · exact absurd rfl (h _ _)
  · exact absurd rfl (h _ _)
  · rw [h.closeRun]

theorem closeRun_append (h : Spells xs b) :
    ∃ ys, Spells ys b.closeRun ∧ ∀ after, Settled after →
      Lexeme.closeRun (xs ++ after) = ys ++ after := by
  cases h with
  | nil => exact ⟨[], .nil, fun after ha => ha.closeRun⟩
  | loop p q hb hr => exact ⟨_, .loop p q hb hr, fun after _ => rfl⟩
  | @op o xs b hr =>
    cases o with
    | move n =>
      by_cases hn : n = 0
      · exact ⟨xs, by simpa [Block.closeRun, hn] using hr,
          fun after _ => by simp [Lexeme.closeRun, hn]⟩
      · exact ⟨.op (.move n) :: xs, by simpa [Block.closeRun, hn] using Spells.op _ hr,
          fun after _ => by simp [Lexeme.closeRun, hn]⟩
    | add n =>
      by_cases hn : n = 0
      · exact ⟨xs, by simpa [Block.closeRun, hn] using hr,
          fun after _ => by simp [Lexeme.closeRun, hn]⟩
      · exact ⟨.op (.add (Lexeme.wrapDelta n)) :: xs,
          by simpa [Block.closeRun, hn] using Spells.op _ hr,
          fun after _ => by simp [Lexeme.closeRun, hn]⟩
    | _ => exact ⟨_, .op _ hr, fun after _ => rfl⟩

theorem consCoalescing_op (o : Op) (h : Spells xs b) :
    ∃ ys, Spells ys (consRun o b) ∧ ∀ after, Settled after →
      Lexeme.consCoalescing (.op o) (xs ++ after) = ys ++ after := by
  obtain ⟨zs, hzs, hez⟩ := closeRun_append h
  -- nothing is merged: the run at the head is closed and `o` starts a new one
  have hplain (hc : consRun o b = .op o b.closeRun) (hl : ∀ after, Settled after →
      Lexeme.consCoalescing (.op o) (xs ++ after) = .op o :: Lexeme.closeRun (xs ++ after)) :
      ∃ ys, Spells ys (consRun o b) ∧ ∀ after, Settled after →
        Lexeme.consCoalescing (.op o) (xs ++ after) = ys ++ after := by
    refine ⟨.op o :: zs, hc ▸ Spells.op o hzs, fun after ha => ?_⟩
    rw [hl after ha, hez after ha]
    rfl
  cases h with
  | nil =>
    refine ⟨[.op o], ?_, fun after ha => ha.consCoalescing (.op o)⟩
    cases o <;> exact .op _ .nil
  | loop p q hb hr =>
    cases o <;> exact hplain rfl fun after _ => rfl
  | @op o' xs b hr =>
    cases o with
    | move m =>
      cases o' with
      | move n => exact ⟨_, .op _ hr, fun after _ => rfl⟩
      | _ => exact hplain rfl fun after _ => rfl
    | add m =>
      cases o' with
      | add n => exact ⟨_, .op _ hr, fun after _ => rfl⟩
      | input => exact ⟨_, .op _ hr, fun after _ => rfl⟩
      | _ => exact hplain rfl fun after _ => rfl
    | _ => exact hplain rfl fun after _ => rfl

theorem settled_leave (q : Nat) (ys : List Lexeme) : Settled (.leave q :: ys) := by
  intro o zs h
  cases h

theorem foldr_consCoalescing (h : Spells xs b) : ∃ ys, Spells ys b.gather ∧ ∀ after,
    Settled after → xs.foldr Lexeme.consCoalescing after = ys ++ after := by
  induction h with
  | nil => exact ⟨[], .nil, fun after _ => rfl⟩
  | op o _ ih =>
    obtain ⟨us, hus, heu⟩ := ih
    obtain ⟨zs, hzs, hez⟩ := consCoalescing_op o hus
    refine ⟨zs, hzs, fun after ha => ?_⟩
    rw [List.foldr_cons, heu after ha, hez after ha]
  | loop p q _ _ ihb ihr =>
    obtain ⟨us, hus, heu⟩ := ihb
    obtain ⟨vs, hvs, hev⟩ := ihr
    obtain ⟨us', hus', heu'⟩ := closeRun_append hus
    obtain ⟨vs', hvs', hev'⟩ := closeRun_append hvs
    refine ⟨_, .loop p q hus' hvs', fun after ha => ?_⟩
    have hl : Lexeme.consCoalescing (.leave q) (vs ++ after) = .leave q :: (vs' ++ after) := by
      rw [← hev' after ha]
      rfl
    rw [List.foldr_cons, List.foldr_append, List.foldr_cons, hev after ha, hl,
      heu _ (settled_leave q _)]
    calc Lexeme.consCoalescing (.enter p) (us ++ .leave q :: (vs' ++ after))
        = .enter p :: Lexeme.closeRun (us ++ .leave q :: (vs' ++ after)) := rfl
      _ = .enter p :: (us' ++ .leave q :: vs') ++ after := by
          rw [heu' _ (settled_leave q _)]
          simp

theorem spells_coalesce (h : Spells xs b) : Spells (Lexeme.coalesce xs) b.coalesce := by
  have hs : Settled [] := fun o ys h => by cases h
  obtain ⟨us, hus, heu⟩ := foldr_consCoalescing h
  obtain ⟨vs, hvs, hev⟩ := closeRun_append hus
  rw [Lexeme.coalesce, heu [] hs, hev [] hs, List.append_nil]
  exact hvs

theorem imbalance_cons (x : Lexeme) (h : ∀ opened, imbalance xs opened = imbalance ys opened)
    (opened : List Nat) : imbalance (x :: xs) opened = imbalance (x :: ys) opened := by
  cases x with
  | op o => exact h opened
  | enter p => exact h (p :: opened)
  | leave p =>
    cases opened with
    | nil => rfl
    | cons _ opened => exact h opened

theorem imbalance_foldr {f : Lexeme → List Lexeme → List Lexeme}
    (hf : ∀ x xs opened, imbalance (f x xs) opened = imbalance (x :: xs) opened)
    (xs : List Lexeme) (opened : List Nat) :
    imbalance (xs.foldr f []) opened = imbalance xs opened := by
  induction xs generalizing opened with
  | nil => rfl
  | cons x xs ih =>
    rw [List.foldr_cons, hf]
    exact imbalance_cons x ih opened

theorem imbalance_consFolding (x : Lexeme) (xs : List Lexeme) (opened : List Nat) :
    imbalance (Lexeme.consFolding x xs) opened = imbalance (x :: xs) opened := by
  unfold Lexeme.consFolding
  split
  · split <;> rfl
  · rfl

theorem imbalance_closeRun (xs : List Lexeme) (opened : List Nat) :
    imbalance (Lexeme.closeRun xs) opened = imbalance xs opened := by
  unfold Lexeme.closeRun
  split
  · split <;> rfl
  · split <;> rfl
  · rfl

theorem imbalance_consCoalescing (x : Lexeme) (xs : List Lexeme) (opened : List Nat) :
    imbalance (Lexeme.consCoalescing x xs) opened = imbalance (x :: xs) opened := by
  unfold Lexeme.consCoalescing
  split
  · rfl
  · rfl
  · rfl
  · exact imbalance_cons x (imbalance_closeRun xs) opened

end Block

namespace Passes

open Block

variable {passes : Passes} {xs : List Lexeme} {b : Block}

/-- What the passes make of a block. -/
def rewrite (passes : Passes) (b : Block) : Block :=
  let folded := if passes.foldIdioms then b.fold else b
  if passes.coalesce then folded.coalesce else folded

theorem spells_apply (h : Spells xs b) : Spells (passes.apply xs) (passes.rewrite b) := by
  have hf : Spells (if passes.foldIdioms then Lexeme.foldIdioms xs else xs)
      (if passes.foldIdioms then b.fold else b) := by
    split
    · exact spells_foldIdioms h
    · exact h
  rcases passes with ⟨_, _ | _⟩
  · exact hf
  · exact spells_coalesce hf

theorem imbalance_apply (passes : Passes) (xs : List Lexeme) (opened : List Nat) :
    imbalance (passes.apply xs) opened = imbalance xs opened := by
  have hf : imbalance (if passes.foldIdioms then Lexeme.foldIdioms xs else xs) opened =
      imbalance xs opened := by
    split
    · exact imbalance_foldr imbalance_consFolding xs opened
    · rfl
  rcases passes with ⟨_, _ | _⟩
  · exact hf
  · exact (imbalance_closeRun _ _).trans ((imbalance_foldr imbalance_consCoalescing _ _).trans hf)

/-- The passes neither make nor mend a bracket without a partner. -/
theorem ofLexemes_apply (passes : Passes) (xs : List Lexeme) :
    ofLexemes (passes.apply xs) = (ofLexemes xs).map passes.rewrite := by
  cases h : ofLexemes xs with
  | ok b => exact ofLexemes_of_spells (spells_apply (ofLexemes_eq_ok_iff.mp h))
  | error e =>
    refine parse_eq_error_iff.mpr ?_
    rw [imbalance_apply]
    exact parse_eq_error_iff.mp h

end Passes

theorem compile_eq_ok_iff {passes : Passes} {source : String} {program : Program} :
    compile passes source = .ok program ↔
      ∃ b, Block.ofLexemes (lex source) = .ok b ∧ program = .ofBlock (passes.rewrite b) := by
  rw [compile, Passes.ofLexemes_apply]
  cases Block.ofLexemes (lex source) with
  | ok b => simp [Except.map, eq_comm]
  | error e => simp [Except.map]

namespace Block

/-- Every operation of the block satisfies `P`. -/
def All (P : Op → Prop) : Block → Prop
  | .nil => True
  | .op o rest => P o ∧ rest.All P
  | .loop body rest => body.All P ∧ rest.All P

theorem Spells.all {P : Op → Prop} {xs : List Lexeme} {b : Block} (h : Spells xs b)
    (hx : ∀ o, .op o ∈ xs → P o) : b.All P := by
  induction h with
  | nil => trivial
  | op o _ ih => exact ⟨hx o (by simp), ih fun o' ho => hx o' (by simp [ho])⟩
  | loop p q _ _ ihb ihr =>
    exact ⟨ihb fun o ho => hx o (by simp [ho]), ihr fun o ho => hx o (by simp [ho])⟩

theorem not_scan_of_mem_lex {source : String} {o : Op} (h : .op o ∈ lex source) :
    ∀ d, o ≠ .scan d := by
  obtain ⟨⟨c, p⟩, -, hc⟩ := List.mem_filterMap.mp h
  rintro d rfl
  simp only [Lexeme.ofChar?] at hc
  split at hc <;> simp at hc

theorem all_not_scan {source : String} {b : Block} (h : ofLexemes (lex source) = .ok b) :
    b.All fun o => ∀ d, o ≠ .scan d :=
  (ofLexemes_eq_ok_iff.mp h).all fun _ ho => not_scan_of_mem_lex ho

end Block

end TapeLang
