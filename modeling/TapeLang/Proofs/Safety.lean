import TapeLang.Proofs.Layout
import TapeLang.Proofs.Structured

/-! # Safe machines

On a program whose loops are paired, a machine whose pointer stands on the tape never meets a
defect: every instruction halts, faults, or leads to such a machine again.
-/

namespace TapeLang

variable {w : CellWidth} {p : Program} {m : Machine w}

namespace Machine

/-- What an instruction can come to from a pointer on the tape. -/
inductive Regular (m : Machine w) : Action w → Prop
  | halt : Regular m (.halt m)
  | proceed {m' : Machine w} : m'.memory.OnTape → Regular m (.proceed m')
  | pause {m' : Machine w} : m'.memory.OnTape → Regular m (.pause m')
  | write (ch : Char) {m' : Machine w} : m'.memory.OnTape → Regular m (.write ch m')
  | read : Regular m (.read m)
  | fault (e : BoundsError) : Regular m (.fault e m)

theorem branch_regular (target : Nat) (jump : Cell w → Bool) (hm : m.memory.OnTape) :
    m.Regular (m.branch target jump) := by
  obtain ⟨cell, hcell⟩ := hm.current
  simp only [branch, hcell]
  exact .proceed hm

theorem step_regular (hp : p.Paired) (hm : m.memory.OnTape) : m.Regular (m.step p) := by
  obtain ⟨s, i, bounds⟩ := m
  unfold step
  dsimp only
  split
  · exact .halt
  · next o _ =>
    have hreg := Memory.perform_regular hm bounds o
    generalize s.perform bounds o = effect at hreg ⊢
    cases hreg with
    | done ht => exact .proceed ht
    | write ch => exact .write ch hm
    | read => exact .read
    | pause => exact .pause hm
    | fault f => exact .fault _
  · next stop hi =>
    rw [if_pos ((hp i).1 stop hi)]
    exact branch_regular stop _ hm
  · next start hi =>
    rw [if_pos ((hp i).2 start hi)]
    exact branch_regular start _ hm

end Machine

end TapeLang
