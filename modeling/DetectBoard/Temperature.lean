import DetectBoard.Library.Interpolation
import Mathlib.Algebra.Order.Field.Rat

/-! The temperature of the thermistor, `GetTemperature` of `normal_calc.c`.

Voltages, resistances and temperatures are rational numbers.
-/

set_option autoImplicit false

namespace DetectBoard.Temperature

open Library

def ntcVRef : ℚ := 3.3

/-- Each row has a temperature and the resistance there. -/
def tempLookupTable : List (ℚ × ℚ) := [
  (-40, 197390),
  (-30, 114340),
  (-20, 68915),
  (-10, 42889),
  (0, 32116),
  (25, 10000),
  (30, 8047),
  (35, 6523),
  (40, 5318),
  (45, 4357),
  (50, 3588),
  (60, 2466),
  (75, 1452),
  (90, 890),
  (100, 657)]

def tableSize : ℕ := tempLookupTable.length

def rowTemperature (i : ℕ) : ℚ := (tempLookupTable.getD i (0, 0)).1
def rowResistance (i : ℕ) : ℚ := (tempLookupTable.getD i (0, 0)).2

def interpolate (x x1 y1 x2 y2 : ℚ) : ℚ := y1 + (y2 - y1) * (x - x1) / (x2 - x1)

/-- The interpolation between a row and the next. -/
def interpolateAt (resistance : ℚ) (index : ℕ) : ℚ :=
  interpolate resistance (rowResistance index) (rowTemperature index) (rowResistance (index + 1)) (rowTemperature (index + 1))

/-- The loop of `binarySearch`, which gives nothing if it is not left by its `break`. -/
def searchLoop (targetResistance : ℚ) (left right : ℤ) : Option ℕ :=
  if left ≤ right then
    let mid := left + (right - left) / 2
    let current := rowResistance mid.toNat
    let next := rowResistance (mid.toNat + 1)
    if current ≥ targetResistance ∧ next ≤ targetResistance then some mid.toNat
    else if current < targetResistance then searchLoop targetResistance left (mid - 1)
    else searchLoop targetResistance (mid + 1) right
  else none
termination_by (right + 1 - left).toNat

def binarySearch (targetResistance : ℚ) : ℕ := (searchLoop targetResistance 0 (tableSize - 2)).getD 0

def estimateTemperature (resistance : ℚ) : ℚ :=
  if resistance ≥ rowResistance 0 then rowTemperature 0
  else if resistance ≤ rowResistance (tableSize - 1) then rowTemperature (tableSize - 1)
  else interpolateAt resistance (binarySearch resistance)

/-- The branch of `EstimateTemperature` that is switched off and goes through the rows in their order. -/
def estimateTemperatureInOrder (resistance : ℚ) : ℚ :=
  match (List.range (tableSize - 1)).find? fun i =>
    resistance ≤ rowResistance i ∧ resistance ≥ rowResistance (i + 1) with
  | some i => interpolateAt resistance i
  | none => if resistance ≥ rowResistance 0 then rowTemperature 0 else rowTemperature (tableSize - 1)

def getTemperature (vol : ℚ) : ℚ := estimateTemperature (vol / (ntcVRef - vol) * 10000)

/-- The resistances fall from row to row and the temperatures rise. -/
def lookup : FallingTable ℚ where
  key := rowResistance
  value := rowTemperature
  last := tableSize - 1
  some := by decide
  falls := by decide
  rises := by decide

/-! ## The search -/

/-- The interval of the target lies between the ends of the search. -/
structure Between (targetResistance : ℚ) (left right : ℤ) : Prop where
  start : 0 ≤ left
  ordered : left ≤ right
  stop : right.toNat < lookup.last
  above : targetResistance ≤ rowResistance left.toNat
  below : rowResistance (right.toNat + 1) ≤ targetResistance

theorem Between.search {targetResistance : ℚ} {left right : ℤ} (between : Between targetResistance left right) :
    ∃ i, searchLoop targetResistance left right = .some i ∧ lookup.Brackets i targetResistance := by
  obtain ⟨start, ordered, stop, above, below⟩ := between
  fun_induction searchLoop targetResistance left right with
  | case1 left right _ mid current next found =>
    exact ⟨mid.toNat, rfl, by omega, found.2, found.1⟩
  | case2 left right _ mid current next _ low ih =>
    -- the left end is not the middle, whose resistance is too low
    have apart : left ≠ mid := fun same => absurd above (not_le.mpr (same ▸ low))
    have next : (mid - 1).toNat + 1 = mid.toNat := by omega
    exact ih start (by omega) (by omega) above (next ▸ low.le)
  | case3 left right _ mid current next missed high ih =>
    have less : targetResistance < next := not_le.mp fun le => missed ⟨not_lt.mp high, le⟩
    have apart : mid ≠ right := fun same => absurd below (not_le.mpr (same ▸ less))
    have after : (mid + 1).toNat = mid.toNat + 1 := by omega
    exact ih (by omega) (by omega) stop (after ▸ less.le) below
  | case4 left right done => exact absurd ordered done

section Estimate

variable {resistance : ℚ}

theorem binarySearch_brackets (low : rowResistance (tableSize - 1) < resistance) (high : resistance < rowResistance 0) :
    searchLoop resistance 0 (tableSize - 2) = some (binarySearch resistance) ∧
      lookup.Brackets (binarySearch resistance) resistance := by
  have whole : Between resistance 0 (tableSize - 2) := ⟨le_refl _, by decide, by decide, high.le, low.le⟩
  obtain ⟨i, found, brackets⟩ := whole.search
  have same : binarySearch resistance = i := by rw [binarySearch, found, Option.getD_some]
  rw [same]
  exact ⟨found, brackets⟩

theorem estimateTemperature_reads (resistance : ℚ) : lookup.Reads resistance (estimateTemperature resistance) := by
  unfold estimateTemperature
  split
  · next high => exact FallingTable.reads_high high
  · next high =>
    split
    · next low => exact FallingTable.reads_low low
    · next low => exact (binarySearch_brackets (not_le.mp low) (not_le.mp high)).2.reads

theorem estimateTemperatureInOrder_reads (resistance : ℚ) :
    lookup.Reads resistance (estimateTemperatureInOrder resistance) := by
  unfold estimateTemperatureInOrder
  split
  · next i found =>
    have inside := List.mem_range.mp (List.mem_of_find?_eq_some found)
    have brackets := List.find?_some found
    rw [decide_eq_true_eq] at brackets
    exact FallingTable.Brackets.reads ⟨inside, brackets.2, brackets.1⟩
  · next missed =>
    split
    · next high => exact FallingTable.reads_high high
    · next high =>
      -- a resistance that no interval has, and that is not above the table, is below it
      refine FallingTable.reads_low (le_of_not_gt fun low => ?_)
      have brackets := (binarySearch_brackets low (not_le.mp high)).2
      have outside := List.find?_eq_none.mp missed _ (List.mem_range.mpr brackets.inside)
      exact outside (decide_eq_true ⟨brackets.above, brackets.below⟩)

end Estimate

/-- The binary search finds an interval of the resistance wherever the table has one, and gives the
temperature that the rows give in their order. -/
theorem binary_search_agrees (resistance : ℚ) :
    estimateTemperature resistance = estimateTemperatureInOrder resistance ∧
      (rowResistance (tableSize - 1) < resistance → resistance < rowResistance 0 →
        searchLoop resistance 0 (tableSize - 2) = some (binarySearch resistance) ∧
          binarySearch resistance + 1 < tableSize ∧ rowResistance (binarySearch resistance + 1) ≤ resistance ∧
          resistance ≤ rowResistance (binarySearch resistance)) := by
  refine ⟨(estimateTemperature_reads resistance).unique (estimateTemperatureInOrder_reads resistance), fun low high => ?_⟩
  obtain ⟨found, brackets⟩ := binarySearch_brackets low high
  exact ⟨found, Nat.add_lt_of_lt_sub brackets.inside, brackets.below, brackets.above⟩

theorem binary_search_agrees_knot :
    searchLoop 32116 0 (tableSize - 2) = some (binarySearch 32116) ∧ binarySearch 32116 + 1 < tableSize ∧
      rowResistance (binarySearch 32116 + 1) ≤ 32116 ∧ 32116 ≤ rowResistance (binarySearch 32116) :=
  (binary_search_agrees 32116).2 (by decide) (by decide)

/-! ## The voltage -/

theorem divider_mono {v1 v2 : ℚ} (nonneg : 0 ≤ v1) (le : v1 ≤ v2) (below : v2 < ntcVRef) :
    v1 / (ntcVRef - v1) * 10000 ≤ v2 / (ntcVRef - v2) * 10000 := by
  have positive : 0 < ntcVRef - v2 := sub_pos.mpr below
  have ratio : v1 / (ntcVRef - v1) ≤ v2 / (ntcVRef - v2) :=
    div_le_div₀ (nonneg.trans le) le positive (sub_le_sub_left le _)
  exact mul_le_mul_of_nonneg_right ratio (by norm_num)

/-- The temperature falls as the voltage rises, and stays within the table. -/
theorem temperature_antitone {v1 v2 : ℚ} (nonneg : 0 ≤ v1) (le : v1 ≤ v2) (below : v2 < ntcVRef) :
    getTemperature v2 ≤ getTemperature v1 ∧ -40 ≤ getTemperature v2 ∧ getTemperature v1 ≤ 100 := by
  have first := estimateTemperature_reads (v1 / (ntcVRef - v1) * 10000)
  have second := estimateTemperature_reads (v2 / (ntcVRef - v2) * 10000)
  exact ⟨first.anti second (divider_mono nonneg le below), second.bounds.1, first.bounds.2⟩

theorem temperature_antitone_middle :
    getTemperature 2 ≤ getTemperature 1.65 ∧ -40 ≤ getTemperature 2 ∧ getTemperature 1.65 ≤ 100 :=
  temperature_antitone (by norm_num) (by norm_num) (by norm_num [ntcVRef])

end DetectBoard.Temperature
