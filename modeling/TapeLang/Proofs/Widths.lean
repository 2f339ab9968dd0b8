import TapeLang.Proofs.Lockstep
import TapeLang.Proofs.Structured

/-! # Widths compared

A machine with narrow cells does what one with 32-bit cells does, as long as the numbers in the wide
cells have a place in the narrow ones. All that arithmetic and input do can be cut down to the
narrow cells; what is asked of a cell, whether it is zero and which character it stands for, cannot,
and needs the numbers to be in range.
-/

namespace TapeLang

variable {w : CellWidth} {τ : Type}

namespace Cell

variable {c : Cell .thirtyTwo}

/-- The low bits of a wide cell. -/
def narrow (w : CellWidth) (c : Cell .thirtyTwo) : Cell w := .ofCode c.val

/-- The number in the cell has a place in cells of width `w`. -/
def Fits (w : CellWidth) (c : Cell .thirtyTwo) : Prop := 0 ≤ c.toInt ∧ c.toInt < w.modulus

theorem narrow_zero : (zero : Cell .thirtyTwo).narrow w = zero :=
  ext_val (by simp [narrow, ofCode, zero])

/-- Cutting down commutes with addition, since the low bits of a sum depend on low bits only. -/
theorem narrow_add (c : Cell .thirtyTwo) (n : Int) : (c.add n).narrow w = (c.narrow w).add n := by
  apply ext_val
  have hdvd : (w.modulus : Int) ∣ (CellWidth.thirtyTwo.modulus : Int) := by
    exact_mod_cast w.modulus_dvd_widest
  have hval (c : Cell .thirtyTwo) : ((c.narrow w).val : Int) = c.val % w.modulus := by
    simp [narrow, ofCode]
  rw [hval, add_val, add_val, hval, Int.emod_emod_of_dvd _ hdvd, Int.emod_add_emod]

theorem narrow_ofInput (input : Option Char) :
    (ofInput input : Cell .thirtyTwo).narrow w = ofInput input := by
  cases input with
  | none => exact narrow_zero
  | some ch => exact ext_val (congrArg Nat.cast (Nat.mod_mod_of_dvd ch.toNat w.modulus_dvd_widest))

theorem Fits.val_lt (h : c.Fits w) : c.val < w.modulus ∧ c.val < 2147483648 := by
  have hlt : c.val < 4294967296 := c.isLt
  simp only [Fits, toInt] at h
  split at h <;> omega

theorem Fits.narrow_val (h : c.Fits w) : (c.narrow w).val = c.val := Nat.mod_eq_of_lt h.val_lt.1

theorem Fits.narrow_toInt (h : c.Fits w) : (c.narrow w).toInt = c.toInt := by
  have hval := h.narrow_val
  have hwide : c.toInt = c.val := by simp only [toInt, if_pos h.val_lt.2]
  cases w with
  | thirtyTwo => simp only [toInt, hval]
  | _ => exact (congrArg Nat.cast hval).trans hwide.symm

theorem Fits.narrow_isZero (h : c.Fits w) : (c.narrow w).isZero = c.isZero := by
  simp only [isZero, h.narrow_val]

theorem Fits.narrow_toChar (h : c.Fits w) : (c.narrow w).toChar = c.toChar := by
  simp only [toChar, h.narrow_val]

end Cell

namespace Tape

variable {w' : CellWidth} {t : Tape w} {t' : Tape w'} {p : Nat}

theorem offset_congr (hsize : t'.size = t.size) (delta : Int) (bounds : BoundsPolicy) :
    t'.offset p delta bounds = t.offset p delta bounds := by
  simp only [offset, hsize]

theorem searchRight_congr (hsize : t'.size = t.size)
    (hzero : ∀ i, (t'.get? i).map Cell.isZero = (t.get? i).map Cell.isZero) (i count : Nat) :
    t'.searchRight i count = t.searchRight i count := by
  induction count generalizing i with
  | zero => rfl
  | succ count ih =>
    simp only [searchRight]
    rcases Cell.isZero_cases (hzero i) with ⟨hnone', hnone⟩ | ⟨c', c, hsome', hsome, hisZero⟩
    · simp only [hnone', hnone, hsize]
    · simp only [hsome', hsome, hisZero, ih]

theorem searchLeft_congr (hsize : t'.size = t.size)
    (hzero : ∀ i, (t'.get? i).map Cell.isZero = (t.get? i).map Cell.isZero) (i count : Nat) :
    t'.searchLeft i count = t.searchLeft i count := by
  induction count generalizing i with
  | zero => rfl
  | succ count ih =>
    simp only [searchLeft]
    rcases Cell.isZero_cases (hzero i) with ⟨hnone', hnone⟩ | ⟨c', c, hsome', hsome, hisZero⟩
    · simp only [hnone', hnone, hsize]
    · simp only [hsome', hsome, hisZero, ih]

theorem scan_congr (hsize : t'.size = t.size)
    (hzero : ∀ i, (t'.get? i).map Cell.isZero = (t.get? i).map Cell.isZero) (d : Direction)
    (bounds : BoundsPolicy) : t'.scan p d bounds = t.scan p d bounds := by
  have hright := searchRight_congr hsize hzero
  have hleft := searchLeft_congr hsize hzero
  have hnear (d : Direction) : t'.searchNear p d = t.searchNear p d := by
    cases d <;> simp only [searchNear, hright, hleft, hsize]
  have hfar (d : Direction) : t'.searchFar p d = t.searchFar p d := by
    cases d <;> simp only [searchFar, hright, hleft, hsize]
  simp only [scan, hnear, hfar]

end Tape

namespace Tape

variable {t : Tape .thirtyTwo}

def narrow (w : CellWidth) (t : Tape .thirtyTwo) : Tape w := ⟨t.cells.map (Cell.narrow w)⟩

/-- All numbers on the tape have a place in cells of width `w`. -/
def Fits (w : CellWidth) (t : Tape .thirtyTwo) : Prop := ∀ x ∈ t.numbers, 0 ≤ x ∧ x < w.modulus

theorem Fits.get? {i : Nat} {c : Cell .thirtyTwo} (h : t.Fits w) (hc : t.get? i = some c) :
    c.Fits w :=
  h _ (List.mem_map_of_mem (Array.mem_toList_iff.mpr (Array.mem_of_getElem? hc)))

theorem fits_blank (w : CellWidth) (size : Nat) : (blank size : Tape .thirtyTwo).Fits w := by
  intro x hx
  have hpos := w.modulus_pos
  obtain rfl : x = 0 := by
    simp only [numbers, blank, Array.toList_replicate, List.map_replicate] at hx
    exact List.eq_of_mem_replicate hx
  omega

@[simp] theorem size_narrow : (t.narrow w).size = t.size := Array.size_map

theorem get?_narrow (i : Nat) : (t.narrow w).get? i = (t.get? i).map (Cell.narrow w) :=
  Array.getElem?_map

theorem narrow_set (i : Nat) (c : Cell .thirtyTwo) :
    (t.set i c).narrow w = (t.narrow w).set i (c.narrow w) := by
  simp only [narrow, set, Array.map_setIfInBounds]

theorem narrow_blank (size : Nat) : (blank size : Tape .thirtyTwo).narrow w = blank size := by
  simp only [narrow, blank, Array.map_replicate, Cell.narrow_zero]

theorem Fits.narrow_numbers (h : t.Fits w) : (t.narrow w).numbers = t.numbers := by
  simp only [numbers, narrow, Array.toList_map, List.map_map]
  refine List.map_congr_left fun c hc => ?_
  exact Cell.Fits.narrow_toInt (h _ (List.mem_map_of_mem hc))

theorem Fits.isZero_narrow (h : t.Fits w) (i : Nat) :
    ((t.narrow w).get? i).map Cell.isZero = (t.get? i).map Cell.isZero := by
  rw [get?_narrow, Option.map_map]
  exact Option.map_congr fun c hc => (h.get? hc).narrow_isZero

end Tape

namespace Memory

variable {s : Memory .thirtyTwo}

def narrow (w : CellWidth) (s : Memory .thirtyTwo) : Memory w := ⟨s.tape.narrow w, s.pointer⟩

theorem receive_narrow (s : Memory .thirtyTwo) (input : Option Char) :
    (s.narrow w).receive input = (s.receive input).narrow w := by
  simp only [narrow, receive, Tape.narrow_set, Cell.narrow_ofInput]

theorem perform_narrow (h : s.tape.Fits w) (bounds : BoundsPolicy) (o : Op) :
    (s.narrow w).perform bounds o = (s.perform bounds o).mapMemory (narrow w) := by
  have hcell (c : Cell .thirtyTwo) :
      (⟨(s.tape.narrow w).set s.pointer (c.narrow w), s.pointer⟩ : Memory w) =
        narrow w ⟨s.tape.set s.pointer c, s.pointer⟩ := by
    rw [narrow, Tape.narrow_set]
  cases o with
  | move n =>
    simp only [perform_move, narrow, Tape.offset_congr Tape.size_narrow]
    split <;> rfl
  | scan d =>
    simp only [perform_scan, narrow, Tape.scan_congr Tape.size_narrow h.isZero_narrow]
    split <;> rfl
  | breakpoint => rfl
  | _ =>
    simp only [perform, narrow, Tape.get?_narrow]
    cases hc : s.tape.get? s.pointer with
    | none => simp only [Option.map_none, Tape.size_narrow]; rfl
    | some c =>
      simp only [Option.map_some, ← Cell.narrow_add, ← Cell.narrow_zero (w := w), hcell,
        (h.get? hc).narrow_toChar]
      rfl

end Memory

namespace Machine

variable {p : Program} {m : Machine .thirtyTwo}

/-- The machine that has kept the low bits of every cell. -/
def narrow (w : CellWidth) (m : Machine .thirtyTwo) : Machine w :=
  ⟨m.memory.narrow w, m.index, m.bounds⟩

theorem narrow_new (size : Nat) (bounds : BoundsPolicy) :
    (new size bounds : Machine .thirtyTwo).narrow w = new size bounds := by
  simp only [narrow, new, Memory.narrow, Memory.blank, Tape.narrow_blank]

theorem step_narrow (h : m.tape.Fits w) : (m.narrow w).step p = (m.step p).mapMachine (narrow w) :=
  step_mapMachine (g := Memory.narrow w) (fun _ _ => rfl) (fun _ => rfl)
    (fun _ => Tape.size_narrow) (h.isZero_narrow m.memory.pointer)
    fun o _ => Memory.perform_narrow h m.bounds o

variable [Console τ] {c : τ}

theorem turn_narrow (h : m.tape.Fits w) (c : τ) :
    (m.narrow w).turn p c = (m.turn p c).mapMachine (narrow w) := by
  refine turn_mapMachine (step_narrow h) (fun input _ => ?_) c
  simp only [narrow, receive, Memory.receive_narrow]

/-- A run: it is enough that the numbers fit after every step. -/
theorem turnAt_narrow {n : Nat} (hm : m.tape.Fits w)
    (h : ∀ k ≤ n, (m.turnAt p k c).machine.tape.Fits w) :
    (m.narrow w).turnAt p n c = (m.turnAt p n c).mapMachine (narrow w) :=
  turnAt_mapMachine (I := fun m => m.tape.Fits w) (A := fun turn => turn.machine.tape.Fits w)
    (fun _ _ _ hfits => hfits) (fun _ c hfits _ => turn_narrow hfits c) hm h

end Machine

/-- Machines of all widths agree until a cell overflows: as long as the numbers on the tape of the
32-bit machine fit into the narrower cells, the narrower machine has the same results, positions,
numbers, output and unread input. -/
theorem widths_agree_in_range (w : CellWidth) (size : Nat) (bounds : BoundsPolicy)
    (program : Program) {τ : Type} [Console τ] (c : τ) (n : Nat)
    (h : ∀ k ≤ n, ∀ x ∈
      ((.new size bounds : Machine .thirtyTwo).turnAt program k c).machine.tape.numbers,
      0 ≤ x ∧ x < w.modulus) :
    ∀ k ≤ n, ((.new size bounds : Machine w).turnAt program k c).sight =
      ((.new size bounds : Machine .thirtyTwo).turnAt program k c).sight := by
  intro k hk
  have hturn := Machine.turnAt_narrow (m := .new size bounds) (Tape.fits_blank w size)
    fun j hj => h j (Nat.le_trans hj hk)
  rw [Machine.narrow_new] at hturn
  rw [hturn]
  exact Turn.sight_mapMachine rfl rfl (Tape.Fits.narrow_numbers (h k hk))

theorem widths_agree_in_range_full_cell :
    ((.new 2 .fatal : Machine .eight).turnAt ⟨#[.op .input, .op (.add 1), .op .output]⟩ 2
      (Buffered.withInput "þ")).sight.numbers = [255, 0] := by
  have h := widths_agree_in_range .eight 2 .fatal ⟨#[.op .input, .op (.add 1), .op .output]⟩
    (Buffered.withInput "þ") 2 (by decide +kernel) 2 (Nat.le_refl 2)
  rw [h]
  decide +kernel

end TapeLang
