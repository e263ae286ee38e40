import Mathlib.Algebra.Order.Field.Basic
import Mathlib.Tactic.Linarith

/-! Linear interpolation in a table with falling keys and rising values.

A key that lies outside the table counts as the nearest key in it. Which interval a key between two others is
looked up in makes no difference, and the reading falls as the key rises.
-/

set_option autoImplicit false

namespace Library

structure FallingTable (K : Type*) [LT K] [LE K] where
  key : ℕ → K
  value : ℕ → K
  last : ℕ
  some : 0 < last
  falls : ∀ i < last, key (i + 1) < key i
  rises : ∀ i < last, value i ≤ value (i + 1)

namespace FallingTable

section Order

variable {K : Type*} [LinearOrder K] (t : FallingTable K) {x y : K} {i j : ℕ}

theorem key_lt (less : i < j) (bound : j ≤ t.last) : t.key j < t.key i := by
  induction j, less using Nat.le_induction with
  | base => exact t.falls i bound
  | succ j _ ih => exact (t.falls j bound).trans (ih (Nat.le_of_succ_le bound))

theorem key_le (le : i ≤ j) (bound : j ≤ t.last) : t.key j ≤ t.key i := by
  rcases le.eq_or_lt with rfl | less
  · exact le_refl _
  · exact (t.key_lt less bound).le

theorem value_le (le : i ≤ j) (bound : j ≤ t.last) : t.value i ≤ t.value j := by
  induction j, le using Nat.le_induction with
  | base => exact le_refl _
  | succ j _ ih => exact (ih (Nat.le_of_succ_le bound)).trans (t.rises j bound)

/-- The keys on or between two neighbouring entries. -/
structure Brackets (i : ℕ) (x : K) : Prop where
  inside : i < t.last
  below : t.key (i + 1) ≤ x
  above : x ≤ t.key i

/-- The key in the table that stands for a key. -/
def clamp (x : K) : K := max (t.key t.last) (min x (t.key 0))

theorem clamp_mono (le : x ≤ y) : t.clamp x ≤ t.clamp y := max_le_max (le_refl _) (min_le_min le (le_refl _))

theorem clamp_inside (low : t.key t.last ≤ x) (high : x ≤ t.key 0) : t.clamp x = x := by
  rw [clamp, min_eq_left high, max_eq_right low]

end Order

variable {K : Type*} [Field K] [LinearOrder K] {t : FallingTable K} {x y v w : K} {i j : ℕ}

/-- The line through two neighbouring entries. -/
def segment (t : FallingTable K) (i : ℕ) (x : K) : K :=
  t.value i + (t.value (i + 1) - t.value i) * (x - t.key i) / (t.key (i + 1) - t.key i)

@[simp] theorem segment_start : t.segment i (t.key i) = t.value i := by simp [segment]

theorem segment_end (bound : i < t.last) : t.segment i (t.key (i + 1)) = t.value (i + 1) := by
  have apart : t.key (i + 1) - t.key i ≠ 0 := sub_ne_zero.mpr (t.falls i bound).ne
  rw [segment, mul_div_cancel_right₀ _ apart, add_sub_cancel]

/-- What the table says for a key. -/
def Reads (t : FallingTable K) (x v : K) : Prop := ∃ i, t.Brackets i (t.clamp x) ∧ v = t.segment i (t.clamp x)

theorem Brackets.reads (brackets : t.Brackets i x) : t.Reads x (t.segment i x) := by
  have low := (t.key_le brackets.inside (le_refl _)).trans brackets.below
  have high := brackets.above.trans (t.key_le (Nat.zero_le i) brackets.inside.le)
  refine ⟨i, ?_⟩
  rw [t.clamp_inside low high]
  exact ⟨brackets, rfl⟩

theorem reads_high (high : t.key 0 ≤ x) : t.Reads x (t.value 0) := by
  have clamped : t.clamp x = t.key 0 := by
    rw [clamp, min_eq_right high, max_eq_right (t.key_le (Nat.zero_le _) (le_refl _))]
  refine ⟨0, ?_⟩
  rw [clamped]
  exact ⟨⟨t.some, (t.falls 0 t.some).le, le_refl _⟩, segment_start.symm⟩

theorem reads_low (low : x ≤ t.key t.last) : t.Reads x (t.value t.last) := by
  obtain ⟨last, same⟩ := Nat.exists_eq_succ_of_ne_zero t.some.ne'
  have clamped : t.clamp x = t.key (last + 1) := by
    rw [clamp, max_eq_left ((min_le_left _ _).trans low), same]
  have bound : last < t.last := same ▸ Nat.lt_succ_self last
  refine ⟨last, ?_⟩
  rw [clamped, segment_end bound, same]
  exact ⟨⟨bound, le_refl _, (t.falls last bound).le⟩, rfl⟩

variable [IsStrictOrderedRing K]

theorem segment_anti (bound : i < t.last) (le : x ≤ y) : t.segment i y ≤ t.segment i x := by
  have down : t.key (i + 1) - t.key i < 0 := sub_neg.mpr (t.falls i bound)
  have up : 0 ≤ t.value (i + 1) - t.value i := sub_nonneg.mpr (t.rises i bound)
  have later : (t.value (i + 1) - t.value i) * (x - t.key i) ≤ (t.value (i + 1) - t.value i) * (y - t.key i) :=
    mul_le_mul_of_nonneg_left (sub_le_sub_right le _) up
  exact add_le_add_right (div_le_div_of_nonpos_of_le down.le later) _

theorem Brackets.low (brackets : t.Brackets i x) : t.value i ≤ t.segment i x := by
  have bound := segment_anti brackets.inside brackets.above
  rwa [segment_start] at bound

theorem Brackets.high (brackets : t.Brackets i x) : t.segment i x ≤ t.value (i + 1) := by
  have bound := segment_anti brackets.inside brackets.below
  rwa [segment_end brackets.inside] at bound

theorem Brackets.ordered (first : t.Brackets i x) (second : t.Brackets j y) (le : x ≤ y) :
    t.segment j y ≤ t.segment i x := by
  rcases lt_trichotomy j i with before | rfl | after
  · calc t.segment j y ≤ t.value (j + 1) := second.high
      _ ≤ t.value i := t.value_le before first.inside.le
      _ ≤ t.segment i x := first.low
  · exact segment_anti first.inside le
  · -- the second key is not below the first, so both are the entry between the two intervals
    have shared := t.key_le after second.inside.le
    have same : x = t.key (i + 1) := le_antisymm (le.trans (second.above.trans shared)) first.below
    have same' : y = t.key j := le_antisymm second.above (shared.trans (first.below.trans le))
    have next : j = i + 1 := by
      by_contra other
      have apart := t.key_lt (lt_of_le_of_ne after (Ne.symm other)) second.inside.le
      rw [← same, ← same'] at apart
      exact absurd le (not_le.mpr apart)
    rw [same', same, segment_start, segment_end first.inside, next]

theorem Reads.anti (first : t.Reads x v) (second : t.Reads y w) (le : x ≤ y) : w ≤ v := by
  obtain ⟨i, brackets, rfl⟩ := first
  obtain ⟨j, brackets', rfl⟩ := second
  exact brackets.ordered brackets' (t.clamp_mono le)

theorem Reads.unique (first : t.Reads x v) (second : t.Reads x w) : v = w :=
  le_antisymm (second.anti first (le_refl x)) (first.anti second (le_refl x))

theorem Reads.bounds (reads : t.Reads x v) : t.value 0 ≤ v ∧ v ≤ t.value t.last := by
  obtain ⟨i, brackets, rfl⟩ := reads
  exact ⟨(t.value_le (Nat.zero_le i) brackets.inside.le).trans brackets.low,
    brackets.high.trans (t.value_le brackets.inside (le_refl _))⟩

end FallingTable
end Library
