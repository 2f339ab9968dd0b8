import TapeLang.Proofs.Scan

/-! # The nearest zero

The cells of a tape in the order in which a scan comes to them: from the pointer on in one direction
and, behind the end of the tape, from its other end. A scan gives the first zero in this order, or
says that its policy does not let it get there. It does so exactly as single moves would.
-/

namespace TapeLang

variable {w : CellWidth}

/-- The fault of a pointer that is driven off the tape. -/
def Direction.fault : Direction → BoundsFault
  | .left => .underflow
  | .right => .overflow

namespace Tape

/-- The cell `k` positions away from `p`, around the ends of the tape. -/
def around (t : Tape w) (p : Nat) (d : Direction) (k : Nat) : Nat :=
  ((p + d.unit * k) % t.size : Int).toNat

/-- How many single moves from `p` stay on the tape. -/
def room (t : Tape w) (p : Nat) : Direction → Nat
  | .left => p
  | .right => t.size - 1 - p

def isZeroAt (t : Tape w) (i : Nat) : Bool := (t.get? i).any Cell.isZero

/-- How far away the nearest zero is, if there is one. -/
def nearest? (t : Tape w) (p : Nat) (d : Direction) : Option Nat :=
  (List.range t.size).find? fun k => t.isZeroAt (t.around p d k)

/-- Move by one cell as long as the cell is not zero, and look at no more than `looks` cells. -/
def walk (t : Tape w) (d : Direction) (bounds : BoundsPolicy) :
    (looks : Nat) → (p : Nat) → Option (Except Trap Nat)
  | 0, _ => none
  | looks + 1, p =>
    match t.fetch p with
    | .error defect => some (.error (.defect defect))
    | .ok cell =>
      if cell.isZero then some (.ok p)
      else
        match t.offset p d.unit bounds with
        | .error fault => some (.error (.fault fault))
        | .ok q => t.walk d bounds looks q

variable {t : Tape w} {d : Direction} {bounds : BoundsPolicy} {p q k : Nat} {r : Except Trap Nat}

theorem isZeroAt_iff : t.isZeroAt p = true ↔ t.ZeroAt p := by
  simp [isZeroAt, ZeroAt, Option.any_eq_true]

theorem nonzeroAt_of_not_zeroAt (hp : p < t.size) (h : ¬ t.ZeroAt p) : t.NonzeroAt p :=
  (zeroAt_or_nonzeroAt hp).resolve_left h

theorem walk_of_zero (h : t.ZeroAt p) (looks : Nat) :
    t.walk d bounds (looks + 1) p = some (.ok p) := by
  obtain ⟨c, hc, hz⟩ := h
  simp [walk, fetch, hc, hz]

theorem walk_of_error {fault : BoundsFault} (h : t.NonzeroAt p)
    (hmove : t.offset p d.unit bounds = .error fault) (looks : Nat) :
    t.walk d bounds (looks + 1) p = some (.error (.fault fault)) := by
  obtain ⟨c, hc, hz⟩ := h
  simp [walk, fetch, hc, hz, hmove]

theorem walk_of_ok (h : t.NonzeroAt p) (hmove : t.offset p d.unit bounds = .ok q) (looks : Nat) :
    t.walk d bounds (looks + 1) p = t.walk d bounds looks q := by
  obtain ⟨c, hc, hz⟩ := h
  simp [walk, fetch, hc, hz, hmove]

theorem walk_add {looks : Nat} (h : t.walk d bounds looks p = some r) (more : Nat) :
    t.walk d bounds (looks + more) p = some r := by
  induction looks generalizing p with
  | zero => cases h
  | succ looks ih =>
    rw [Nat.add_right_comm]
    simp only [walk] at h ⊢
    split at h
    · exact h
    · split at h
      · next hz => rw [if_pos hz, ← h]
      · next hz =>
        rw [if_neg hz]
        split at h
        · exact h
        · exact ih h

theorem Walks.walk (h : t.Walks d bounds p q) :
    ∃ n, ∀ looks, t.walk d bounds (n + looks) p = t.walk d bounds looks q := by
  induction h with
  | refl p => exact ⟨0, fun looks => by rw [Nat.zero_add]⟩
  | step hn hmove _ ih =>
    obtain ⟨n, hwalk⟩ := ih
    refine ⟨n + 1, fun looks => ?_⟩
    rw [Nat.add_right_comm, walk_of_ok hn hmove]
    exact hwalk looks

theorem walk_eq_none_of_nonzero (hp : p < t.size) (h : ∀ i, i < t.size → t.NonzeroAt i)
    (looks : Nat) : t.walk d .wrap looks p = none := by
  induction looks generalizing p with
  | zero => rfl
  | succ looks ih =>
    have hmove : t.offset p d.unit .wrap = .ok ((p + d.unit) % t.size : Int).toNat := rfl
    rw [walk_of_ok (h p hp) hmove]
    exact ih (offset_lt (by omega) hmove)

/-- A journey is what the walk comes to. Around a tape without zero it comes to nothing. -/
theorem Journey.walk (h : t.Journey d p bounds r) (hp : p < t.size) :
    ((∃ looks, t.walk d bounds looks p = some r) ∧ r ≠ .error (.fault .noZeroCell)) ∨
      ((∀ looks, t.walk d bounds looks p = none) ∧ bounds = .wrap ∧
        r = .error (.fault .noZeroCell)) := by
  cases h with
  | arrives hw hz =>
    obtain ⟨n, hwalk⟩ := hw.walk
    exact Or.inl ⟨⟨n + 1, (hwalk 1).trans (walk_of_zero hz 0)⟩, by simp⟩
  | @leaves q fault hw hn hmove =>
    obtain ⟨n, hwalk⟩ := hw.walk
    refine Or.inl ⟨⟨n + 1, (hwalk 1).trans (walk_of_error hn hmove 0)⟩, ?_⟩
    rintro ⟨⟩
    cases (offset_error hmove).mp rfl
  | circles hall => exact Or.inr ⟨walk_eq_none_of_nonzero hp hall, rfl, rfl⟩

theorem exists_walk_iff (hp : p < t.size) :
    (∃ looks, t.walk d bounds looks p = some r) ↔
      t.scan p d bounds = r ∧ r ≠ .error (.fault .noZeroCell) := by
  rcases (scan_journey bounds d hp).walk hp with ⟨⟨n, hscan⟩, hne⟩ | ⟨hnone, -, hscan⟩
  · constructor
    · rintro ⟨looks, hr⟩
      -- both walks, given the looks of the other on top, are the same one
      have hlong := walk_add hscan looks
      rw [Nat.add_comm, walk_add hr n] at hlong
      cases hlong
      exact ⟨rfl, hne⟩
    · rintro ⟨rfl, -⟩
      exact ⟨n, hscan⟩
  · constructor
    · rintro ⟨looks, hr⟩
      rw [hnone looks] at hr
      cases hr
    · rintro ⟨rfl, hne⟩
      exact (hne hscan).elim

theorem Journey.scan_eq (h : t.Journey d p bounds r) (hp : p < t.size) : t.scan p d bounds = r := by
  rcases h.walk hp with ⟨hwalk, -⟩ | ⟨hnone, -, hr⟩
  · exact ((exists_walk_iff hp).mp hwalk).1
  · rcases (scan_journey bounds d hp).walk hp with ⟨⟨n, hscan⟩, -⟩ | ⟨-, -, hscan⟩
    · rw [hnone n] at hscan
      cases hscan
    · exact hscan.trans hr.symm

theorem around_cast (hs : 0 < t.size) :
    (t.around p d k : Int) = (p + d.unit * k) % t.size :=
  Int.toNat_of_nonneg (Int.emod_nonneg _ (by omega))

theorem around_lt (hs : 0 < t.size) : t.around p d k < t.size := by
  have hlt := Int.emod_lt_of_pos ((p : Int) + d.unit * k) (show (0 : Int) < t.size by omega)
  have hcast := around_cast (p := p) (d := d) (k := k) hs
  omega

theorem around_of_le_room (hp : p < t.size) (hk : k ≤ t.room p d) :
    (t.around p d k : Int) = p + d.unit * k := by
  rw [around_cast (by omega)]
  apply Int.emod_eq_of_lt <;> cases d <;> simp only [room, Direction.unit] at hk ⊢ <;> omega

theorem around_zero (hp : p < t.size) : t.around p d 0 = p := by
  have h := around_of_le_room (d := d) hp (Nat.zero_le _)
  exact Int.ofNat.inj (h.trans (by simp))

theorem around_eq {i : Nat} (hi : i < t.size) (turns : Int)
    (h : (p + d.unit * k : Int) = i + t.size * turns) : t.around p d k = i := by
  rw [around, h, Int.add_mul_emod_self_left, Int.emod_eq_of_lt (by omega) (by omega),
    Int.toNat_natCast]

theorem exists_around (hp : p < t.size) (d : Direction) {i : Nat} (hi : i < t.size) :
    ∃ k, k < t.size ∧ t.around p d k = i := by
  cases d with
  | left =>
    rcases Nat.lt_or_ge p i with hlt | hle
    · exact ⟨p + t.size - i, by omega, around_eq hi (-1) (by simp only [Direction.unit]; omega)⟩
    · exact ⟨p - i, by omega, around_eq hi 0 (by simp only [Direction.unit]; omega)⟩
  | right =>
    rcases Nat.lt_or_ge i p with hlt | hle
    · exact ⟨i + t.size - p, by omega, around_eq hi 1 (by simp only [Direction.unit]; omega)⟩
    · exact ⟨i - p, by omega, around_eq hi 0 (by simp only [Direction.unit]; omega)⟩

/-- A single move goes on to the next cell, around the end or where there is room. -/
theorem offset_around (hp : p < t.size) (h : bounds = .wrap ∨ k < t.room p d) :
    t.offset (t.around p d k) d.unit bounds = .ok (t.around p d (k + 1)) := by
  have hs : 0 < t.size := by omega
  have hnext : (p + d.unit * k + d.unit : Int) = p + d.unit * (k + 1 : Nat) := by
    rw [Int.natCast_succ, Int.mul_add, Int.mul_one, Int.add_assoc]
  cases bounds with
  | wrap =>
    simp only [offset, around_cast hs, Int.emod_add_emod, hnext]
    rfl
  | fatal =>
    have hroom : k < t.room p d := h.resolve_left (by simp)
    have hcast := around_of_le_room (k := k + 1) hp hroom
    have hlt := around_lt (t := t) (p := p) (d := d) (k := k + 1) hs
    simp only [offset, around_of_le_room hp (Nat.le_of_lt hroom), hnext, ← hcast]
    rw [if_neg (by omega), if_pos (by omega)]
    rfl

theorem walks_around (hp : p < t.size) (hroom : bounds = .wrap ∨ k ≤ t.room p d)
    (h : ∀ j, j < k → t.NonzeroAt (t.around p d j)) :
    t.Walks d bounds p (t.around p d k) := by
  induction k with
  | zero =>
    rw [around_zero hp]
    exact .refl p
  | succ k ih =>
    have hbefore := ih (hroom.imp_right Nat.le_of_succ_le) fun j hj => h j (Nat.lt_succ_of_lt hj)
    exact hbefore.trans (.step (h k (Nat.lt_succ_self k)) (offset_around hp hroom) (.refl _))

theorem offset_around_room (hp : p < t.size) :
    t.offset (t.around p d (t.room p d)) d.unit .fatal = .error d.fault := by
  have hcast := around_of_le_room (d := d) hp (Nat.le_refl _)
  cases d with
  | left =>
    have hend : t.around p .left (t.room p .left) = 0 := by
      simp only [room, Direction.unit] at hcast ⊢
      omega
    rw [hend]
    exact offset_left_fatal
  | right =>
    refine offset_right_fatal ?_
    simp only [room, Direction.unit] at hcast ⊢
    omega

theorem nearest?_eq_some (h : t.nearest? p d = some k) :
    k < t.size ∧ t.ZeroAt (t.around p d k) ∧ ∀ j, j < k → ¬ t.ZeroAt (t.around p d j) := by
  obtain ⟨hz, hk, hbefore⟩ := List.find?_range_eq_some.mp h
  refine ⟨List.mem_range.mp hk, isZeroAt_iff.mp hz, fun j hj hzero => ?_⟩
  have hnot := hbefore j hj
  rw [isZeroAt_iff.mpr hzero] at hnot
  cases hnot

theorem nearest?_eq_none_iff (hp : p < t.size) (d : Direction) :
    t.nearest? p d = none ↔ ∀ i, i < t.size → ¬ t.ZeroAt i := by
  simp only [nearest?, List.find?_range_eq_none, Bool.not_eq_true', Bool.eq_false_iff, ne_eq,
    isZeroAt_iff]
  constructor
  · intro h i hi
    obtain ⟨k, hk, rfl⟩ := exists_around hp d hi
    exact h k hk
  · intro h k _
    exact h _ (around_lt (by omega))

/-- The nearest zero ends the journey, unless it is behind an end that must not be crossed. -/
theorem journey_of_nearest (hp : p < t.size) (h : t.nearest? p d = some k)
    (hroom : bounds = .wrap ∨ k ≤ t.room p d) :
    t.Journey d p bounds (.ok (t.around p d k)) := by
  obtain ⟨-, hzero, hbefore⟩ := nearest?_eq_some h
  refine .arrives (walks_around hp hroom fun j hj => ?_) hzero
  exact nonzeroAt_of_not_zeroAt (around_lt (by omega)) (hbefore j hj)

/-- Where no zero is met before the end of the tape, the journey leads off it. -/
theorem journey_off_tape (hp : p < t.size)
    (h : ∀ j, j ≤ t.room p d → ¬ t.ZeroAt (t.around p d j)) :
    t.Journey d p .fatal (.error (.fault d.fault)) := by
  have hnonzero (j : Nat) (hj : j ≤ t.room p d) : t.NonzeroAt (t.around p d j) :=
    nonzeroAt_of_not_zeroAt (around_lt (by omega)) (h j hj)
  exact .leaves (walks_around hp (.inr (Nat.le_refl _)) fun j hj => hnonzero j (Nat.le_of_lt hj))
    (hnonzero _ (Nat.le_refl _)) (offset_around_room hp)

theorem scan_wrap (hp : p < t.size) (d : Direction) :
    t.scan p d .wrap = match t.nearest? p d with
      | some k => .ok (t.around p d k)
      | none => .error (.fault .noZeroCell) := by
  cases h : t.nearest? p d with
  | some k => exact (journey_of_nearest hp h (.inl rfl)).scan_eq hp
  | none =>
    refine Journey.scan_eq (.circles fun i hi => ?_) hp
    exact nonzeroAt_of_not_zeroAt hi ((nearest?_eq_none_iff hp d).mp h i hi)

theorem scan_fatal (hp : p < t.size) (d : Direction) :
    t.scan p d .fatal = match (t.nearest? p d).filter (· ≤ t.room p d) with
      | some k => .ok (t.around p d k)
      | none => .error (.fault d.fault) := by
  have hs : 0 < t.size := by omega
  cases h : t.nearest? p d with
  | some k =>
    by_cases hroom : k ≤ t.room p d
    · rw [Option.filter_some_pos (by simpa using hroom)]
      exact (journey_of_nearest hp h (.inr hroom)).scan_eq hp
    · rw [Option.filter_some_neg (by simpa using hroom)]
      obtain ⟨-, -, hbefore⟩ := nearest?_eq_some h
      exact (journey_off_tape hp fun j hj => hbefore j (by omega)).scan_eq hp
  | none =>
    have hnone := (nearest?_eq_none_iff hp d).mp h
    exact (journey_off_tape hp fun j _ => hnone _ (around_lt hs)).scan_eq hp

end Tape

/-- A scan finds the nearest zero around the tape, if under fatal bounds no end of the tape lies
before it. Single moves while the cell is not zero come to the same, and have no end exactly where a
wrapping scan says that there is no zero. -/
theorem scan_finds_nearest_zero (t : Tape w) {p : Nat} (hp : p < t.size) (d : Direction) :
    (t.scan p d .wrap = match t.nearest? p d with
      | some k => .ok (t.around p d k)
      | none => .error (.fault .noZeroCell)) ∧
    (t.scan p d .wrap = .error (.fault .noZeroCell) ↔ ∀ i, i < t.size → ¬ t.ZeroAt i) ∧
    (t.scan p d .fatal = match (t.nearest? p d).filter (· ≤ t.room p d) with
      | some k => .ok (t.around p d k)
      | none => .error (.fault d.fault)) ∧
    ∀ bounds,
      (∀ r, (∃ looks, t.walk d bounds looks p = some r) ↔
        t.scan p d bounds = r ∧ r ≠ .error (.fault .noZeroCell)) ∧
      ((∀ looks, t.walk d bounds looks p = none) ↔
        bounds = .wrap ∧ t.scan p d bounds = .error (.fault .noZeroCell)) := by
  refine ⟨Tape.scan_wrap hp d, ?_, Tape.scan_fatal hp d, fun bounds =>
    ⟨fun r => Tape.exists_walk_iff hp, ?_⟩⟩
  · rw [← Tape.nearest?_eq_none_iff hp d, Tape.scan_wrap hp d]
    cases t.nearest? p d <;> simp
  · rcases (Tape.scan_journey bounds d hp).walk hp with ⟨⟨n, hscan⟩, hne⟩ | ⟨hnone, hwrap, hscan⟩
    · constructor
      · intro hnone
        rw [hnone n] at hscan
        cases hscan
      · rintro ⟨-, heq⟩
        exact (hne heq).elim
    · exact iff_of_true hnone ⟨hwrap, hscan⟩

theorem scan_finds_nearest_zero_behind :
    let t : Tape .eight := ⟨#[.zero, .ofCode 1, .ofCode 1]⟩
    t.nearest? 1 .right = some 2 ∧ t.scan 1 .right .wrap = .ok 0 ∧
      t.scan 1 .right .fatal = .error (.fault .overflow) ∧
      ∃ looks, t.walk .right .wrap looks 1 = some (.ok 0) := by
  intro t
  obtain ⟨hwrap, -, hfatal, hwalk⟩ := scan_finds_nearest_zero t (show 1 < t.size by decide) .right
  have hnearest : t.nearest? 1 .right = some 2 := by decide
  rw [hnearest] at hwrap hfatal
  have hzero : t.scan 1 .right .wrap = .ok 0 :=
    hwrap.trans (congrArg Except.ok (show t.around 1 .right 2 = 0 by decide))
  exact ⟨hnearest, hzero, hfatal, ((hwalk .wrap).1 _).mpr ⟨hzero, by simp⟩⟩

end TapeLang
