import DetectBoard.Library.Machine
import Mathlib.Order.Lattice

/-! Classes of a reading that are separated by a dead band. -/

set_option autoImplicit false

namespace Library

/-- Two neighbouring classes and the readings at which the class is left as it is. -/
structure Band (κ τ : Type*) where
  low : κ
  high : κ
  lower : τ
  upper : τ

namespace Band

variable {κ τ : Type*} [LinearOrder κ] (band : Band κ τ)

def Inside (reading : κ) : Prop := band.low ≤ reading ∧ reading < band.high

instance (reading : κ) : Decidable (band.Inside reading) := inferInstanceAs (Decidable (_ ∧ _))

def Separates (state : τ) : Prop := state = band.lower ∨ state = band.upper

instance [DecidableEq τ] (state : τ) : Decidable (band.Separates state) :=
  inferInstanceAs (Decidable (_ ∨ _))

structure Obeys (reading : κ) (before after : τ) : Prop where
  dead : band.Inside reading → band.Separates before → after = before
  falls : before = band.upper → after = band.lower → reading < band.low

variable {band}

theorem Obeys.intro {reading : κ} {before after : τ} (proper : band.lower ≠ band.upper)
    (dead : band.Inside reading → band.Separates before → after = before)
    (enter : after ≠ before → after = band.lower → reading < band.high) :
    band.Obeys reading before after := by
  -- the band is crossed downwards only below it, when the lower class is entered below its end
  refine ⟨dead, fun high low => ?_⟩
  have changed : after ≠ before := by
    rw [high, low]
    exact proper
  by_contra above
  exact changed (dead ⟨not_lt.mp above, enter changed low⟩ (.inr high))

theorem steady {σ ι ω : Type*} {m : Machine σ ι ω} {start final : σ} {entries : List (Entry σ ι ω)}
    (reading : Entry σ ι ω → κ) (state : σ → τ) (run : m.Run start entries final)
    (obeys : ∀ entry ∈ entries, band.Obeys (reading entry) (state entry.before) (state entry.after))
    (inside : ∀ entry ∈ entries, band.Inside (reading entry)) (separates : band.Separates (state start)) :
    ∀ entry ∈ entries, state entry.after = state start := by
  have kept := run.invariant (fun s => state s = state start) rfl fun entry member _ before =>
    ((obeys entry member).dead (inside entry member) (before ▸ separates)).trans before
  exact fun entry member => (kept.2 entry member).2

end Band

section Alternating

variable {α : Type*}

def alternating (first second : α) (count : ℕ) : List α :=
  (List.range count).map fun k => if k % 2 = 0 then first else second

theorem alternating_succ (first second : α) (count : ℕ) :
    alternating first second (count + 1) =
      alternating first second count ++ [if count % 2 = 0 then first else second] := by
  simp [alternating, List.range_succ]

end Alternating
end Library
