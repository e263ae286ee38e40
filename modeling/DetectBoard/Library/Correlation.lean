import Mathlib.Algebra.BigOperators.Fin
import Mathlib.Algebra.Ring.Periodic
import Mathlib.Data.List.GetD
import Mathlib.Tactic.Ring

/-! The correlation of a sampled signal with a periodic reference.

Over whole periods a constant offset of the signal adds its product with the sum of the reference, from
whatever phase the reference starts.
-/

set_option autoImplicit false

namespace Library

open Finset

section Period

variable {K : Type*} [AddCommGroup K] {f : ℕ → K} {period : ℕ}

theorem sum_period (periodic : Function.Periodic f period) (start : ℕ) :
    ∑ j ∈ range period, f (start + j) = ∑ j ∈ range period, f j := by
  induction start with
  | zero => simp only [zero_add]
  | succ start ih =>
    -- the first term of the window leaves it, and the same value enters at its end
    have leaves := sum_range_succ' (fun j => f (start + j)) period
    rw [sum_range_succ, periodic, add_zero] at leaves
    rw [← ih, add_right_cancel leaves]
    exact sum_congr rfl fun j _ => congrArg f (by omega)

theorem sum_periods (periodic : Function.Periodic f period) (start count : ℕ) :
    ∑ j ∈ range (count * period), f (start + j) = count • ∑ j ∈ range period, f j := by
  induction count with
  | zero => simp
  | succ count ih =>
    rw [Nat.succ_mul, sum_range_add, ih, succ_nsmul]
    simp only [← Nat.add_assoc, sum_period periodic]

theorem sum_getD {α : Type*} (table : List α) (default : α) (value : α → K) :
    ∑ j ∈ range table.length, value (table.getD j default) = (table.map value).sum := by
  rw [sum_range, ← Fin.sum_univ_fun_getElem]
  exact sum_congr rfl fun j _ => congrArg value (List.getD_eq_getElem _ _ j.isLt)

/-- A table that is read in a circle gives its whole sum, from wherever the reading starts. -/
theorem sum_cycle {α : Type*} (table : List α) (default : α) (value : α → K) (start : ℕ) :
    ∑ j ∈ range table.length, value (table.getD ((start + j) % table.length) default) = (table.map value).sum := by
  have periodic : Function.Periodic (fun i => value (table.getD (i % table.length) default)) table.length :=
    fun i => by simp only [Nat.add_mod_right]
  rw [sum_period periodic start, ← sum_getD table default value]
  exact sum_congr rfl fun j member => by rw [Nat.mod_eq_of_lt (mem_range.mp member)]

end Period

section Correlate

variable {K : Type*} [CommRing K] (reference : ℕ → K) (i : ℕ) (samples : List K)

/-- The sum of the samples from index `i` on, each times the reference there. -/
def correlate (reference : ℕ → K) : ℕ → List K → K
  | _, [] => 0
  | i, sample :: rest => sample * reference i + correlate reference (i + 1) rest

theorem correlate_add (offset : K) :
    correlate reference i (samples.map (· + offset)) =
      correlate reference i samples + offset * ∑ j ∈ range samples.length, reference (i + j) := by
  induction samples generalizing i with
  | nil => simp [correlate]
  | cons sample rest ih =>
    rw [List.map_cons, correlate, correlate, ih, List.length_cons, sum_range_succ']
    simp only [Nat.add_assoc, Nat.add_comm 1, Nat.add_zero]
    ring

theorem correlate_offset {reference : ℕ → K} {period count : ℕ} (periodic : Function.Periodic reference period)
    {samples : List K} (whole : samples.length = count * period) (offset : K) :
    correlate reference i (samples.map (· + offset)) =
      correlate reference i samples + offset * (count * ∑ j ∈ range period, reference j) := by
  rw [correlate_add, whole, sum_periods periodic, nsmul_eq_mul]

theorem correlate_mul (a b : K) :
    correlate (fun i => a * reference i) i (samples.map (b * ·)) = a * b * correlate reference i samples := by
  induction samples generalizing i with
  | nil => simp [correlate]
  | cons sample rest ih =>
    rw [List.map_cons, correlate, correlate, ih]
    ring

theorem map_correlate {R : Type*} [CommRing R] (f : K →+* R) :
    f (correlate reference i samples) = correlate (fun i => f (reference i)) i (samples.map f) := by
  induction samples generalizing i with
  | nil => exact map_zero f
  | cons sample rest ih => rw [List.map_cons, correlate, correlate, map_add, map_mul, ih]

end Correlate
end Library
