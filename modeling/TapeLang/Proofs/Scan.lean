import TapeLang.Proofs.Tape

/-! # Scans as walks

A scan stands for a walk: single moves over nonzero cells. It ends where the walk ends, on a zero
cell or at a move that leaves the tape; around a tape without zero the walk has no end.
-/

namespace TapeLang

variable {w : CellWidth}

/-- The single move in a direction. -/
def Direction.unit : Direction → Int
  | .left => -1
  | .right => 1

namespace Tape

variable {t : Tape w} {d : Direction} {bounds : BoundsPolicy} {p q r : Nat}

def ZeroAt (t : Tape w) (i : Nat) : Prop := ∃ c, t.get? i = some c ∧ c.isZero = true

def NonzeroAt (t : Tape w) (i : Nat) : Prop := ∃ c, t.get? i = some c ∧ c.isZero = false

/-- Single moves over nonzero cells lead from one position to another. -/
inductive Walks (t : Tape w) (d : Direction) (bounds : BoundsPolicy) : Nat → Nat → Prop
  | refl (p : Nat) : Walks t d bounds p p
  | step {p q r : Nat} : t.NonzeroAt p → t.offset p d.unit bounds = .ok q →
      Walks t d bounds q r → Walks t d bounds p r

theorem Walks.trans (h : t.Walks d bounds p q) (h' : t.Walks d bounds q r) :
    t.Walks d bounds p r := by
  induction h with
  | refl => exact h'
  | step hn ho _ ih => exact .step hn ho (ih h')

theorem offset_right (h : p + 1 < t.size) : t.offset p 1 bounds = .ok (p + 1) := by
  cases bounds with
  | wrap =>
    have he : ((p : Int) + 1) % t.size = p + 1 := Int.emod_eq_of_lt (by omega) (by omega)
    simp only [offset, he]
    congr 1
  | fatal =>
    simp only [offset]
    rw [if_neg (by omega), if_pos (by omega)]
    congr 1

theorem offset_left (hp : 0 < p) (h : p < t.size) : t.offset p (-1) bounds = .ok (p - 1) := by
  cases bounds with
  | wrap =>
    have he : ((p : Int) + -1) % t.size = p - 1 := Int.emod_eq_of_lt (by omega) (by omega)
    simp only [offset, he]
    congr 1
    omega
  | fatal =>
    simp only [offset]
    rw [if_neg (by omega), if_pos (by omega)]
    congr 1
    omega

theorem offset_right_wrap (h : p + 1 = t.size) : t.offset p 1 .wrap = .ok 0 := by
  have he : ((p : Int) + 1) % t.size = 0 := by
    rw [show (p : Int) + 1 = t.size by omega, Int.emod_self]
  simp [offset, he]

theorem offset_left_wrap (h : 0 < t.size) : t.offset 0 (-1) .wrap = .ok (t.size - 1) := by
  have he : ((0 : Nat) + -1 : Int) % t.size = t.size - 1 := by
    rw [show ((0 : Nat) + -1 : Int) = (t.size - 1) + t.size * (-1) by omega,
      Int.add_mul_emod_self_left]
    exact Int.emod_eq_of_lt (by omega) (by omega)
  simp only [offset, he]
  congr 1
  omega

theorem offset_right_fatal (h : p + 1 = t.size) : t.offset p 1 .fatal = .error .overflow := by
  simp only [offset]
  rw [if_neg (by omega), if_neg (by omega)]

theorem offset_left_fatal : t.offset 0 (-1) .fatal = .error .underflow := by
  simp [offset]

theorem zeroAt_or_nonzeroAt (h : p < t.size) : t.ZeroAt p ∨ t.NonzeroAt p := by
  obtain ⟨c, hc⟩ := exists_get? h
  cases hz : c.isZero
  · exact Or.inr ⟨c, hc, hz⟩
  · exact Or.inl ⟨c, hc, hz⟩

theorem searchRight_zero {i count : Nat} (h : t.ZeroAt i) :
    t.searchRight i (count + 1) = .ok (some i) := by
  obtain ⟨c, hc, hz⟩ := h
  simp [searchRight, hc, hz]

theorem searchRight_nonzero {i count : Nat} (h : t.NonzeroAt i) :
    t.searchRight i (count + 1) = t.searchRight (i + 1) count := by
  obtain ⟨c, hc, hz⟩ := h
  simp [searchRight, hc, hz]

theorem searchLeft_zero {i count : Nat} (h : t.ZeroAt i) :
    t.searchLeft i (count + 1) = .ok (some i) := by
  obtain ⟨c, hc, hz⟩ := h
  simp [searchLeft, hc, hz]

theorem searchLeft_nonzero {i count : Nat} (h : t.NonzeroAt i) :
    t.searchLeft i (count + 1) = t.searchLeft (i - 1) count := by
  obtain ⟨c, hc, hz⟩ := h
  simp [searchLeft, hc, hz]

/-- A search finds the zero that a walk stops at, or the walk passes all cells looked at. -/
theorem searchRight_cases (bounds : BoundsPolicy) {i count : Nat} (h : i + count ≤ t.size) :
    (∃ j, t.searchRight i count = .ok (some j) ∧ t.ZeroAt j ∧ t.Walks .right bounds i j) ∨
    (t.searchRight i count = .ok none ∧
      ∀ k, i ≤ k → k < i + count → t.NonzeroAt k ∧ t.Walks .right bounds i k) := by
  induction count generalizing i with
  | zero => exact Or.inr ⟨rfl, fun k _ _ => by omega⟩
  | succ count ih =>
    rcases zeroAt_or_nonzeroAt (show i < t.size by omega) with hz | hn
    · exact Or.inl ⟨i, searchRight_zero hz, hz, .refl i⟩
    · rw [searchRight_nonzero hn]
      have hstep {k : Nat} (hi : i + 1 < t.size) (hw : t.Walks .right bounds (i + 1) k) :
          t.Walks .right bounds i k := .step hn (offset_right hi) hw
      rcases ih (show i + 1 + count ≤ t.size by omega) with ⟨j, hj, hz, hw⟩ | ⟨hnone, hall⟩
      · have hi : i + 1 < t.size := by
          rcases Nat.lt_or_ge (i + 1) t.size with hlt | hge
          · exact hlt
          · obtain rfl : count = 0 := by omega
            simp [searchRight] at hj
        exact Or.inl ⟨j, hj, hz, hstep hi hw⟩
      · refine Or.inr ⟨hnone, fun k hk hk' => ?_⟩
        rcases Nat.eq_or_lt_of_le hk with rfl | hlt
        · exact ⟨hn, .refl _⟩
        · obtain ⟨hnk, hw⟩ := hall k hlt (by omega)
          exact ⟨hnk, hstep (by omega) hw⟩

theorem searchLeft_cases (bounds : BoundsPolicy) {i count : Nat} (hi : i < t.size)
    (h : count ≤ i + 1) :
    (∃ j, t.searchLeft i count = .ok (some j) ∧ t.ZeroAt j ∧ t.Walks .left bounds i j) ∨
    (t.searchLeft i count = .ok none ∧
      ∀ k, k ≤ i → i < k + count → t.NonzeroAt k ∧ t.Walks .left bounds i k) := by
  induction count generalizing i with
  | zero => exact Or.inr ⟨rfl, fun k _ _ => by omega⟩
  | succ count ih =>
    rcases zeroAt_or_nonzeroAt hi with hz | hn
    · exact Or.inl ⟨i, searchLeft_zero hz, hz, .refl i⟩
    · rw [searchLeft_nonzero hn]
      have hstep {k : Nat} (hpos : 0 < i) (hw : t.Walks .left bounds (i - 1) k) :
          t.Walks .left bounds i k := .step hn (offset_left hpos hi) hw
      rcases Nat.eq_zero_or_pos i with rfl | hpos
      · obtain rfl : count = 0 := by omega
        refine Or.inr ⟨rfl, fun k hk _ => ?_⟩
        obtain rfl : k = 0 := by omega
        exact ⟨hn, .refl _⟩
      · rcases ih (show i - 1 < t.size by omega) (by omega) with ⟨j, hj, hz, hw⟩ | ⟨hnone, hall⟩
        · exact Or.inl ⟨j, hj, hz, hstep hpos hw⟩
        · refine Or.inr ⟨hnone, fun k hk hk' => ?_⟩
          rcases Nat.eq_or_lt_of_le hk with rfl | hlt
          · exact ⟨hn, .refl _⟩
          · obtain ⟨hnk, hw⟩ := hall k (by omega) (by omega)
            exact ⟨hnk, hstep hpos hw⟩

/-- How a walk that starts on the tape goes: it stops on a zero, or it is driven off the tape, or it
goes around a tape without zero. -/
inductive Journey (t : Tape w) (d : Direction) (p : Nat) : BoundsPolicy → Except Trap Nat → Prop
  | arrives {bounds : BoundsPolicy} {q : Nat} : t.Walks d bounds p q → t.ZeroAt q →
      Journey t d p bounds (.ok q)
  | leaves {q : Nat} {fault : BoundsFault} : t.Walks d .fatal p q → t.NonzeroAt q →
      t.offset q d.unit .fatal = .error fault → Journey t d p .fatal (.error (.fault fault))
  | circles : (∀ i, i < t.size → t.NonzeroAt i) →
      Journey t d p .wrap (.error (.fault .noZeroCell))

theorem scan_right_journey (bounds : BoundsPolicy) (hp : p < t.size) :
    t.Journey .right p bounds (t.scan p .right bounds) := by
  have hnear := searchRight_cases (t := t) bounds (show p + (t.size - p) ≤ t.size by omega)
  rcases hnear with ⟨q, hq, hz, hw⟩ | ⟨hnone, hall⟩
  · simp only [scan, searchNear, hq]
    exact .arrives hw hz
  · obtain ⟨hlast, hw⟩ := hall (t.size - 1) (by omega) (by omega)
    cases bounds with
    | fatal =>
      simp only [scan, searchNear, hnone]
      exact .leaves hw hlast (offset_right_fatal (by omega))
    | wrap =>
      have hfar := searchRight_cases (t := t) (i := 0) .wrap (show 0 + p ≤ t.size by omega)
      rcases hfar with ⟨q, hq, hz, hw'⟩ | ⟨hnone', hall'⟩
      · simp only [scan, searchNear, hnone, searchFar, hq]
        exact .arrives (hw.trans (.step hlast (offset_right_wrap (by omega)) hw')) hz
      · simp only [scan, searchNear, hnone, searchFar, hnone']
        refine .circles fun i hi => ?_
        rcases Nat.lt_or_ge i p with hlt | hge
        · exact (hall' i (by omega) (by omega)).1
        · exact (hall i hge (by omega)).1

theorem scan_left_journey (bounds : BoundsPolicy) (hp : p < t.size) :
    t.Journey .left p bounds (t.scan p .left bounds) := by
  rcases searchLeft_cases bounds hp (Nat.le_refl (p + 1)) with ⟨q, hq, hz, hw⟩ | ⟨hnone, hall⟩
  · simp only [scan, searchNear, hq]
    exact .arrives hw hz
  · obtain ⟨hlast, hw⟩ := hall 0 (by omega) (by omega)
    cases bounds with
    | fatal =>
      simp only [scan, searchNear, hnone]
      exact .leaves hw hlast offset_left_fatal
    | wrap =>
      have hfar := searchLeft_cases (t := t) .wrap (show t.size - 1 < t.size by omega)
        (show t.size - (p + 1) ≤ t.size - 1 + 1 by omega)
      rcases hfar with ⟨q, hq, hz, hw'⟩ | ⟨hnone', hall'⟩
      · simp only [scan, searchNear, hnone, searchFar, hq]
        exact .arrives (hw.trans (.step hlast (offset_left_wrap (by omega)) hw')) hz
      · simp only [scan, searchNear, hnone, searchFar, hnone']
        refine .circles fun i hi => ?_
        rcases Nat.lt_or_ge p i with hlt | hge
        · exact (hall' i (by omega) (by omega)).1
        · exact (hall i hge (by omega)).1

/-- A scan from a pointer on the tape gives the end of the walk. -/
theorem scan_journey (bounds : BoundsPolicy) (d : Direction) (hp : p < t.size) :
    t.Journey d p bounds (t.scan p d bounds) := by
  cases d with
  | left => exact scan_left_journey bounds hp
  | right => exact scan_right_journey bounds hp

end Tape

end TapeLang
