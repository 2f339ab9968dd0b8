import TapeLang.Machine

/-! # Cells and tapes

How cells add up, and what reading and writing single cells and moving the pointer do to a tape.
-/

namespace TapeLang

variable {w : CellWidth}

namespace CellWidth

theorem modulus_dvd_widest (w : CellWidth) : w.modulus ∣ widest := by
  cases w <;> decide

end CellWidth

/-- What is kept of a summand counts for every cell. -/
theorem Lexeme.wrapDelta_emod (w : CellWidth) (n : Int) :
    wrapDelta n % w.modulus = n % w.modulus := by
  have hdvd : ((w.modulus : Nat) : Int) ∣ (4294967296 : Nat) := by
    exact_mod_cast w.modulus_dvd_widest
  unfold wrapDelta
  rw [← Int.emod_emod_of_dvd _ hdvd, Int.bmod_emod, Int.emod_emod_of_dvd _ hdvd]

namespace Cell

theorem ext_val {c d : Cell w} (h : (c.val : Int) = d.val) : c = d := by
  cases c; cases d
  simpa using Int.ofNat.inj h

theorem eq_zero_of_isZero {c : Cell w} (h : c.isZero = true) : c = zero :=
  ext_val (by simpa [isZero, zero] using h)

theorem add_add (c : Cell w) (m n : Int) : (c.add m).add n = c.add (m + n) := by
  apply ext_val
  rw [add_val, add_val, add_val, Int.emod_add_emod, Int.add_assoc]

theorem add_zero (c : Cell w) : c.add 0 = c := by
  apply ext_val
  rw [add_val, Int.add_zero]
  exact Int.emod_eq_of_lt (by omega) (by exact_mod_cast c.isLt)

theorem add_wrapDelta (c : Cell w) (n : Int) : c.add (Lexeme.wrapDelta n) = c.add n := by
  apply ext_val
  rw [add_val, add_val, Int.add_emod, Int.add_emod (c.val : Int) n, Lexeme.wrapDelta_emod]

theorem add_neg_one_val {c : Cell w} (h : c.isZero = false) :
    (c.add (-1)).val = c.val - 1 := by
  have hpos : c.val ≠ 0 := by simpa [isZero] using h
  have hlt := c.isLt
  have hv := add_val c (-1)
  rw [Int.emod_eq_of_lt (by omega) (by omega)] at hv
  omega

end Cell

namespace Tape

variable {t : Tape w} {i : Nat}

@[simp] theorem size_set (t : Tape w) (i : Nat) (c : Cell w) : (t.set i c).size = t.size := by
  simp [set, size]

theorem get?_eq_none (h : t.size ≤ i) : t.get? i = none := by
  simpa [get?, size] using h

theorem exists_get? (h : i < t.size) : ∃ c, t.get? i = some c := by
  have h' : i < t.cells.size := h
  exact ⟨t.cells[i], Array.getElem?_eq_getElem h'⟩

theorem lt_of_get? {c : Cell w} (h : t.get? i = some c) : i < t.size := by
  rcases Nat.lt_or_ge i t.size with hlt | hge
  · exact hlt
  · simp [get?_eq_none hge] at h

theorem get?_set_self (h : i < t.size) (c : Cell w) : (t.set i c).get? i = some c := by
  have h' : i < t.cells.size := h
  simp [set, get?, h']

@[simp] theorem set_set (t : Tape w) (i : Nat) (c d : Cell w) :
    (t.set i c).set i d = t.set i d := by
  simp [set]

theorem set_get? {c : Cell w} (h : t.get? i = some c) : t.set i c = t := by
  have hlt : i < t.cells.size := lt_of_get? h
  have hc : t.cells[i] = c := by simpa [get?, hlt] using h
  subst hc
  simp [set, Array.setIfInBounds_def, hlt]

theorem size_blank (size : Nat) : (blank size : Tape w).size = max size 1 := by
  simp [blank, Tape.size]

theorem offset_lt {p q : Nat} {delta : Int} {bounds : BoundsPolicy} (hs : 0 < t.size)
    (h : t.offset p delta bounds = .ok q) : q < t.size := by
  cases bounds with
  | wrap =>
    have hlt := Int.emod_lt_of_pos ((p : Int) + delta) (show (0 : Int) < t.size by omega)
    have hq : (((p : Int) + delta) % t.size).toNat = q := by simpa [offset] using h
    omega
  | fatal =>
    simp only [offset] at h
    split at h
    · cases h
    · split at h <;> cases h
      omega

theorem offset_zero {p : Nat} {bounds : BoundsPolicy} (h : p < t.size) :
    t.offset p 0 bounds = .ok p := by
  cases bounds with
  | wrap =>
    have he : (p : Int) % t.size = p := Int.emod_eq_of_lt (by omega) (by omega)
    simp [offset, he]
  | fatal =>
    simp only [offset, Int.add_zero]
    rw [if_neg (by omega), if_pos (by omega)]
    rfl

theorem offset_error {p : Nat} {delta : Int} {bounds : BoundsPolicy} {f : BoundsFault}
    (h : t.offset p delta bounds = .error f) : f = .noZeroCell ↔ bounds = .wrap := by
  cases bounds with
  | wrap => cases h
  | fatal =>
    simp only [offset] at h
    split at h
    · cases h
      simp
    · split at h <;> cases h
      simp

/-- After a move that stayed on the tape, another one leads where the net move leads. -/
theorem offset_offset {p q : Nat} {m n : Int} {bounds : BoundsPolicy} (hs : 0 < t.size)
    (h : t.offset p m bounds = .ok q) :
    t.offset q n bounds = t.offset p (m + n) bounds := by
  cases bounds with
  | wrap =>
    simp only [offset, Except.ok.injEq] at h ⊢
    have hq : (q : Int) = (p + m) % t.size := by
      have := Int.emod_nonneg ((p : Int) + m) (show (t.size : Int) ≠ 0 by omega)
      omega
    rw [hq, Int.emod_add_emod, Int.add_assoc]
  | fatal =>
    have hq : (q : Int) = p + m := by
      simp only [offset] at h
      split at h
      · cases h
      · split at h
        · cases h
          omega
        · cases h
    simp only [offset, hq, Int.add_assoc]

end Tape

end TapeLang
