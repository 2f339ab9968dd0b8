import TapeLang.Proofs.Optimization
import TapeLang.Proofs.Transcript

/-! # What a run says and hears

The exchanges of a run with its console, counted in instructions, whether or not the run has an end.
Jumps come by the consoles that the structured execution comes by. Under wrapping bounds the passes
change neither the exchanges nor their order: where a scan faults for want of a zero cell, the loop
it stands for goes around in silence.
-/

namespace TapeLang

variable {w : CellWidth} {τ : Type} [Console τ] {bounds : BoundsPolicy}

namespace Block

variable {p : Program} {i k : Nat} {b : Block} {s : Scene w τ} {c : τ}

/-- The code of a block comes by every console that the block comes by. -/
theorem Visits.moves (h : b.Visits bounds s c) (hs : s.memory.OnTape) (hl : b.LaidAt p i)
    (hk : b.Entry i k) : ∃ n m, Moves p n ⟨s.memory, k, bounds⟩ s.console m c := by
  induction h generalizing i k with
  | here b s => exact ⟨0, _, .refl _ _⟩
  | op hp _ ih =>
    obtain rfl : k = i := hk
    obtain ⟨ho, hr⟩ := hl
    obtain ⟨n, m, hm⟩ := ih (Scene.perform_done hs hp).1 hr (entry_self _ _)
    obtain ⟨event, ht⟩ := Machine.turn_op_done ho hp
    exact ⟨n + 1, m, .step ht hm⟩
  | exit hz _ ih =>
    obtain ⟨n, m, hm⟩ := ih hs hl.2.2.2 (entry_self _ _)
    exact ⟨n + 1, m, .step (turn_exit _ _ hl hk hz) hm⟩
  | body hn _ ih =>
    obtain ⟨n, m, hm⟩ := ih hs hl.2.1 (entry_self _ _)
    exact ⟨n + 1, m, .step (turn_enter _ _ hl hk hn) hm⟩
  | again hn hb _ ih =>
    obtain ⟨n, m, c, hm, hland⟩ := hb.moves hs hl.2.1 (entry_self _ _)
    cases hland
    obtain ⟨n', m', hm'⟩ := ih (hb.keeps hs).1 hl (Or.inr rfl)
    exact ⟨n + 1 + n', m', (Moves.step (turn_enter _ _ hl hk hn) hm).trans hm'⟩

theorem inherited_visits (bounds : BoundsPolicy) (c : τ) :
    Inherited bounds fun (b : Block) (s : Scene w τ) => b.Visits bounds s c where
  op := .op
  exit := .exit
  body := .body
  again := .again

end Block

theorem Program.moves_ofBlock_iff {b : Block} {s : Scene w τ} {c : τ} (hs : s.memory.OnTape) :
    (∃ n m, Moves (ofBlock b) n ⟨s.memory, 0, bounds⟩ s.console m c) ↔ b.Visits bounds s c := by
  have hl := ofBlock_laid b
  constructor
  · rintro ⟨n, m, hm⟩
    have hlast {b : Block} {s : Scene w τ} (hc : c = s.console) : b.Visits bounds s c :=
      hc ▸ .here b s
    rcases (Block.inherited_visits bounds c).of_moves (fun _ _ _ _ _ => hlast) hs hl
      (b.entry_self 0) hm with ⟨t, n', -, hy, hm'⟩ | hv
    · rw [Nat.zero_add] at hm'
      obtain ⟨-, rfl⟩ := moves_ofBlock_end hm'
      exact hy.visits hs
    · exact hv
  · intro hv
    exact hv.moves hs hl (b.entry_self 0)

namespace Block

variable {o idiom : Op} {body body' rest rest' : Block}

/-- The other block completes where this one does, and comes by the consoles that this one comes
by. -/
structure FollowedBy (w : CellWidth) (τ : Type) [Console τ] (bounds : BoundsPolicy)
    (b b' : Block) : Prop where
  completes : (Criterion.completion : Criterion w τ).Sim bounds b b'
  visits (s : Scene w τ) : s.memory.OnTape → ∀ c, b.Visits bounds s c → b'.Visits bounds s c

namespace FollowedBy

theorem op (o : Op) (h : FollowedBy w τ bounds rest rest') :
    FollowedBy w τ bounds (.op o rest) (.op o rest') where
  completes := h.completes.op o
  visits s hs c hv := by
    cases hv with
    | here => exact .here _ _
    | op hp hr => exact .op hp (h.visits _ (Scene.perform_done hs hp).1 c hr)

theorem loop (hb : FollowedBy w τ bounds body body') (hr : FollowedBy w τ bounds rest rest') :
    FollowedBy w τ bounds (.loop body rest) (.loop body' rest') where
  completes := hb.completes.loop hr.completes
  visits s hs c hv := by
    generalize hl : Block.loop body rest = b at hv
    induction hv with
    | here => exact .here _ _
    | op => cases hl
    | exit hz hv =>
      cases hl
      exact .exit hz (hr.visits _ hs _ hv)
    | body hn hv =>
      cases hl
      exact .body hn (hb.visits _ hs _ hv)
    | @again _ _ s t c hn hy _ ih =>
      cases hl
      -- To come around again the other body has to complete in the same scene.
      obtain ⟨_, rfl, hy'⟩ := hb.completes s hs _ ⟨t, rfl⟩ hy
      exact .again hn hy' (ih (hy.keeps hs).1 rfl)

end FollowedBy

theorem Congruence.followedBy (w : CellWidth) (τ : Type) [Console τ] (bounds : BoundsPolicy) :
    Congruence w τ bounds (FollowedBy w τ bounds) where
  agree ha := ⟨ha.sim _, fun s hs c => ((ha s hs).visits c).mp⟩
  trans h h' := ⟨h.completes.trans h'.completes, fun s hs c hv =>
    h'.visits s hs c (h.visits s hs c hv)⟩
  op o := .op o
  loop := .loop

theorem visits_idiom_iff {s : Scene w τ} {c : τ} (h : o.loopIdiom? = some idiom) (rest : Block)
    (hs : s.memory.OnTape) :
    Visits .wrap (.loop (.op o .nil) rest) s c ↔ Visits .wrap (.op idiom rest) s c := by
  rcases Op.loopIdiom?_cases h with ⟨rfl, rfl⟩ | ⟨d, rfl, rfl⟩
  · exact (agree_clear rest s hs).visits c
  · rcases scan_cases d .wrap rest hs with hmimics | ⟨_, _, hb, -⟩ | ⟨-, -, hsilent⟩
    · exact hmimics.visits c
    · cases hb
    · rw [(hsilent c).1, (hsilent c).2]

theorem visits_rewrite_iff {s : Scene w τ} {c : τ} (passes : Passes) (b : Block)
    (hs : s.memory.OnTape) : b.Visits .wrap s c ↔ (passes.rewrite b).Visits .wrap s c := by
  have hi {o idiom : Op} (ho : o.loopIdiom? = some idiom) (rest : Block) :
      FollowedBy w τ .wrap (.loop (.op o .nil) rest) (.op idiom rest) ∧
      FollowedBy w τ .wrap (.op idiom rest) (.loop (.op o .nil) rest) := by
    have hequiv : (Criterion.completion : Criterion w τ).Equiv .wrap _ _ :=
      Criterion.completion_idiom ho rest
    exact ⟨⟨hequiv.1, fun s hs c => (visits_idiom_iff ho rest hs).mp⟩,
      ⟨hequiv.2, fun s hs c => (visits_idiom_iff ho rest hs).mpr⟩⟩
  obtain ⟨hforth, hback⟩ := passes.congruence_rewrite (Congruence.followedBy w τ .wrap).both hi b
  exact ⟨hforth.visits s hs c, hback.visits s hs c⟩

end Block

namespace Machine

/-- What the first `n` instructions of a run say and hear, in order. -/
def exchanges (p : Program) : Nat → Machine w → τ → List Exchange
  | 0, _, _ => []
  | n + 1, m, c =>
    match m.turn p c with
    | .moved event m c => event.exchanges ++ exchanges p n m c
    | _ => []

variable {p : Program} {m m' : Machine w}

theorem turn_recorded_moved {c c' : Recorded τ} {event : Event}
    (h : m.turn p c = .moved event m' c') :
    m.turn p c.inner = .moved event m' c'.inner ∧
      c'.transcript = c.transcript ++ event.exchanges := by
  obtain ⟨inner, transcript⟩ := c
  rw [turn_recorded] at h
  cases ht : m.turn p inner with
  | moved =>
    rw [ht] at h
    cases h
    exact ⟨rfl, rfl⟩
  | _ =>
    rw [ht] at h
    cases h

theorem transcript_of_moves {n : Nat} {c c' : Recorded τ} (h : Moves p n m c m' c') :
    c'.transcript = c.transcript ++ m.exchanges p n c.inner := by
  induction h with
  | refl => simp [exchanges]
  | step ht _ ih =>
    obtain ⟨ht', htranscript⟩ := turn_recorded_moved ht
    rw [ih, htranscript, exchanges, ht', List.append_assoc]

theorem moves_of_exchanges (p : Program) (n : Nat) (m : Machine w) (c : τ) (t : List Exchange) :
    ∃ k m' c', Moves p k m (⟨c, t⟩ : Recorded τ) m' ⟨c', t ++ m.exchanges p n c⟩ := by
  induction n generalizing m c t with
  | zero => exact ⟨0, m, c, by simpa [exchanges] using Moves.refl m _⟩
  | succ n ih =>
    rw [exchanges]
    cases ht : m.turn p c with
    | moved event m₁ c₁ =>
      have ht' := turn_recorded p m c t
      rw [ht] at ht'
      obtain ⟨k, m', c', hm⟩ := ih m₁ c₁ (t ++ event.exchanges)
      rw [List.append_assoc] at hm
      exact ⟨k + 1, m', c', .step ht' hm⟩
    | _ => exact ⟨0, m, c, by simpa using Moves.refl m _⟩

end Machine

namespace Program

variable {b : Block} {s : Memory w} {c : τ} {t : List Exchange}

theorem exchanges_ofBlock_iff (hs : s.OnTape) :
    (∃ n, Machine.exchanges (ofBlock b) n ⟨s, 0, bounds⟩ c = t) ↔
      ∃ c', b.Visits bounds ⟨s, (⟨c, []⟩ : Recorded τ)⟩ ⟨c', t⟩ := by
  have hs' : (⟨s, ⟨c, []⟩⟩ : Scene w (Recorded τ)).memory.OnTape := hs
  constructor
  · rintro ⟨n, rfl⟩
    obtain ⟨k, m', c', hm⟩ := Machine.moves_of_exchanges (ofBlock b) n ⟨s, 0, bounds⟩ c []
    exact ⟨c', (moves_ofBlock_iff hs').mp ⟨k, m', hm⟩⟩
  · rintro ⟨c', hv⟩
    obtain ⟨n, m, hm⟩ := (moves_ofBlock_iff hs').mpr hv
    exact ⟨n, (Machine.transcript_of_moves hm).symm⟩

theorem exchanges_rewrite_iff (passes : Passes) (hs : s.OnTape) :
    (∃ n, Machine.exchanges (ofBlock b) n ⟨s, 0, .wrap⟩ c = t) ↔
      ∃ n, Machine.exchanges (ofBlock (passes.rewrite b)) n ⟨s, 0, .wrap⟩ c = t := by
  rw [exchanges_ofBlock_iff hs, exchanges_ofBlock_iff hs]
  exact exists_congr fun c' => Block.visits_rewrite_iff passes b hs

end Program

/-- Under wrapping bounds a text says and hears the same whatever passes it is compiled with, also
in a run without end: what has happened after any number of instructions of the one program has
happened, in the same order, after some number of instructions of the other. -/
theorem passes_preserve_exchanges {passes : Passes} {source : String} {p : Program}
    (h : compile passes source = .ok p) (passes' : Passes) (w : CellWidth) (size : Nat)
    {τ : Type} [Console τ] (c : τ) :
    ∃ p', compile passes' source = .ok p' ∧ ∀ n, ∃ k,
      (Machine.new size .wrap : Machine w).exchanges p' k c =
        (Machine.new size .wrap : Machine w).exchanges p n c := by
  obtain ⟨b, hb, rfl⟩ := compile_eq_ok_iff.mp h
  have hiff (passes : Passes) (t : List Exchange) :
      (∃ n, (Machine.new size .wrap : Machine w).exchanges (.ofBlock b) n c = t) ↔
        ∃ n, (Machine.new size .wrap : Machine w).exchanges (.ofBlock (passes.rewrite b)) n c = t :=
    Program.exchanges_rewrite_iff passes (Memory.blank_onTape size)
  refine ⟨_, compile_eq_ok_iff.mpr ⟨b, hb, rfl⟩, fun n => ?_⟩
  exact (hiff passes' _).mp ((hiff passes _).mpr ⟨n, rfl⟩)

theorem passes_preserve_exchanges_echo :
    ∃ p, compile .none "+[+,.+]" = .ok p ∧
      ∃ k, (Machine.new 1 .wrap : Machine .eight).exchanges p k (Buffered.withInput "a") =
        [.got (some 'a'), .wrote 'a', .got none, .wrote (Char.ofNat 0)] := by
  let p : Program := ⟨#[.op (.add 1), .loopStart 5, .op .input, .op .output, .op (.add 1),
    .loopEnd 1]⟩
  have h : compile .all "+[+,.+]" = .ok p := rfl
  obtain ⟨p', h', hexchanges⟩ :=
    passes_preserve_exchanges h .none .eight 1 (Buffered.withInput "a")
  exact ⟨p', h', hexchanges 8⟩

end TapeLang
