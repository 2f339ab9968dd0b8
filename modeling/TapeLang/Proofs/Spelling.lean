import TapeLang.Compile

/-! # Spelling

Which lists of lexemes spell which blocks. Pairing the brackets reads exactly these lists, and
whether it succeeds depends on the brackets alone.
-/

namespace TapeLang

namespace Block

/-- One block after the other. -/
def append : Block → Block → Block
  | .nil, b => b
  | .op o rest, b => .op o (rest.append b)
  | .loop body rest, b => .loop body (rest.append b)

@[simp] theorem append_nil (a : Block) : a.append .nil = a := by
  induction a with
  | nil => rfl
  | op o rest ih => simp [append, ih]
  | loop body rest _ ih => simp [append, ih]

theorem reverseOnto_eq_append (a b : Block) :
    a.reverseOnto b = (a.reverseOnto .nil).append b := by
  suffices h : ∀ c, a.reverseOnto (c.append b) = (a.reverseOnto c).append b from h .nil
  induction a with
  | nil => exact fun c => rfl
  | op o rest ih => exact fun c => ih (.op o c)
  | loop body rest _ ih => exact fun c => ih (.loop body c)

theorem reverseOnto_reverseOnto (a b c : Block) :
    (a.reverseOnto b).reverseOnto c = b.reverseOnto (a.append c) := by
  induction a generalizing b with
  | nil => rfl
  | op o rest ih => exact ih (.op o b)
  | loop body rest _ ih => exact ih (.loop body b)

@[simp] theorem reverse_reverse (a : Block) : (a.reverseOnto .nil).reverseOnto .nil = a := by
  rw [reverseOnto_reverseOnto, append_nil]
  rfl

/-- The lexemes read as the block, whatever the positions of the brackets. -/
inductive Spells : List Lexeme → Block → Prop
  | nil : Spells [] .nil
  | op (o : Op) {xs : List Lexeme} {b : Block} : Spells xs b → Spells (.op o :: xs) (.op o b)
  | loop (p q : Nat) {xs ys : List Lexeme} {body rest : Block} : Spells xs body →
      Spells ys rest → Spells (.enter p :: (xs ++ .leave q :: ys)) (.loop body rest)

variable {xs ys : List Lexeme} {a b current : Block} {frames : List Frame}

theorem Spells.append (h : Spells xs a) (h' : Spells ys b) : Spells (xs ++ ys) (a.append b) := by
  induction h with
  | nil => exact h'
  | op o _ ih => exact .op o ih
  | loop p q hb _ _ ih =>
    rw [List.cons_append, List.append_assoc, List.cons_append]
    exact .loop p q hb ih

theorem parse_append_of_spells (h : Spells xs b) (ys : List Lexeme) (current : Block)
    (frames : List Frame) :
    parse (xs ++ ys) current frames = parse ys (b.reverseOnto current) frames := by
  induction h generalizing ys current frames with
  | nil => rfl
  | op o _ ih => exact ih ys (.op o current) frames
  | @loop p q us vs body rest _ _ ihb ihr =>
    calc parse (.enter p :: (us ++ .leave q :: vs) ++ ys) current frames
        = parse (us ++ .leave q :: (vs ++ ys)) .nil (⟨p, current⟩ :: frames) := by
          simp [parse]
      _ = parse (vs ++ ys) (.loop body current) frames := by
          rw [ihb]
          simp [parse]
      _ = parse ys ((Block.loop body rest).reverseOnto current) frames := ihr ys _ frames

theorem ofLexemes_of_spells (h : Spells xs b) : ofLexemes xs = .ok b := by
  have hp := parse_append_of_spells h [] .nil []
  rw [List.append_nil] at hp
  rw [ofLexemes, hp]
  simp [parse]

theorem Spells.unique {b' : Block} (h : Spells xs b) (h' : Spells xs b') : b = b' :=
  Except.ok.inj ((ofLexemes_of_spells h).symm.trans (ofLexemes_of_spells h'))

/-- What has been read when `current` is the innermost block and `frames` are open around it. -/
inductive Opens : List Lexeme → Block → List Frame → Prop
  | outside {xs : List Lexeme} {current : Block} : Spells xs (current.reverseOnto .nil) →
      Opens xs current []
  | inside {xs ys : List Lexeme} {p : Nat} {before current : Block} {frames : List Frame} :
      Opens xs before frames → Spells ys (current.reverseOnto .nil) →
      Opens (xs ++ .enter p :: ys) current (⟨p, before⟩ :: frames)

theorem Opens.extend (h : Opens xs current frames) (h' : Spells ys b) :
    Opens (xs ++ ys) (b.reverseOnto current) frames := by
  have hs {us : List Lexeme} (hu : Spells us (current.reverseOnto .nil)) :
      Spells (us ++ ys) ((b.reverseOnto current).reverseOnto .nil) := by
    rw [reverseOnto_reverseOnto, append_nil, reverseOnto_eq_append]
    exact hu.append h'
  cases h with
  | outside hu => exact .outside (hs hu)
  | inside ho hu =>
    rw [List.append_assoc, List.cons_append]
    exact .inside ho (hs hu)

theorem spells_of_parse (ho : Opens xs current frames) (h : parse ys current frames = .ok b) :
    Spells (xs ++ ys) b := by
  induction ys generalizing xs current frames with
  | nil =>
    cases ho with
    | outside hs =>
      simp only [parse, List.getLast?_nil, Except.ok.injEq] at h
      subst h
      rwa [List.append_nil]
    | inside =>
      simp only [parse] at h
      split at h
      · simp_all
      · cases h
  | cons y ys ih =>
    rw [← List.singleton_append, ← List.append_assoc]
    cases y with
    | op o =>
      have ho' : Opens (xs ++ [.op o]) (.op o current) frames := ho.extend (.op o .nil)
      exact ih ho' h
    | enter p =>
      have ho' : Opens (xs ++ [.enter p]) .nil (⟨p, current⟩ :: frames) := .inside ho .nil
      exact ih ho' h
    | leave q =>
      cases ho with
      | outside => simp [parse] at h
      | @inside us vs p before _ frames ho hs =>
        have hl : Spells (.enter p :: (vs ++ [.leave q])) (.loop (current.reverseOnto .nil) .nil) :=
          .loop p q hs .nil
        rw [List.append_assoc us, List.cons_append]
        exact ih (ho.extend hl) h

theorem ofLexemes_eq_ok_iff : ofLexemes xs = .ok b ↔ Spells xs b := by
  have ho : Opens [] .nil [] := .outside .nil
  exact ⟨spells_of_parse ho, ofLexemes_of_spells⟩

/-- What is wrong with the brackets, those at the positions of `opened` being open. -/
def imbalance : List Lexeme → List Nat → Option CompileError
  | [], opened => opened.getLast?.map .unmatchedOpen
  | .op _ :: rest, opened => imbalance rest opened
  | .enter p :: rest, opened => imbalance rest (p :: opened)
  | .leave p :: _, [] => some (.unmatchedClose p)
  | .leave _ :: rest, _ :: opened => imbalance rest opened

/-- Pairing brackets reports what is wrong with them, and nothing else. -/
theorem parse_eq_error_iff {e : CompileError} : parse xs current frames = .error e ↔
    imbalance xs (frames.map Frame.position) = some e := by
  induction xs generalizing current frames with
  | nil =>
    simp only [parse, imbalance, List.getLast?_map, Option.map_map]
    cases frames.getLast? <;> simp
  | cons x xs ih =>
    cases x with
    | op o => exact ih
    | enter p => exact ih
    | leave p =>
      cases frames with
      | nil => simp [parse, imbalance]
      | cons frame frames => exact ih

end Block

end TapeLang
