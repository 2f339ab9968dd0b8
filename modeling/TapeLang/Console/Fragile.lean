import TapeLang.Console

/-! # Consoles that break

A console that gives way under its `n`-th character of output, and only under that one.
-/

namespace TapeLang

structure Fragile (τ : Type) where
  inner : τ
  /-- Which write breaks, counted from 1. -/
  breaksAt : Option Nat := none
  writes : Nat := 0

namespace Fragile

variable {τ : Type}

def map (f : τ → τ) : Fragile τ → Fragile τ
  | ⟨inner, breaksAt, writes⟩ => ⟨f inner, breaksAt, writes⟩

instance [Console τ] : Console (Fragile τ) where
  put c := fun
    | ⟨inner, breaksAt, writes⟩ =>
      if breaksAt = some (writes + 1) then (false, ⟨inner, breaksAt, writes + 1⟩)
      else
        match Console.put c inner with
        | (taken, inner) => (taken, ⟨inner, breaksAt, writes + 1⟩)
  get? f := (Console.get? f.inner).map fun (c, inner) => (c, { f with inner })
  message text := map (Console.message text)
  error text := map (Console.error text)
  note n := map (Console.note n)
  release := map Console.release
  reset := map Console.reset

end Fragile

end TapeLang
