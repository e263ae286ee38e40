import DetectBoard.Library.SlidingWindow
import Mathlib.Data.UInt

/-! The sliding median of `median_filter.c`, over any ordered type of readings.

The sorted copy of the window is no state: every call writes it before reading it.
-/

set_option autoImplicit false

namespace DetectBoard.Plate

open Library

variable {α : Type}

structure MedianFilter (α : Type) where
  medianWindowFull : UInt8
  medianIndex : UInt8
  medianFilterWindowSize : UInt32
  medianWindow : List α
  sized : medianWindow.length = medianFilterWindowSize.toNat
  inside : medianIndex.toNat < medianFilterWindowSize.toNat

inductive MedianFilterError where
  | para
  | noMem
  deriving DecidableEq, Repr

/-- `median_filter_init`; the two allocations give a window with some content, or nothing. -/
def medianFilterInit (size : UInt32) (medianWindow : Option {w : List α // w.length = size.toNat})
    (sortedWindow : Bool) : Except MedianFilterError (MedianFilter α) :=
  if h : size = 0 ∨ size % 2 = 0 then .error .para
  else match medianWindow with
    | none => .error .noMem
    | some w =>
      if sortedWindow then
        .ok ⟨0, 0, size, w.1, w.2, by
          have : size.toNat ≠ 0 := fun zero => h (.inl (UInt32.toNat_inj.mp zero))
          exact Nat.pos_of_ne_zero this⟩
      else .error .noMem

theorem medianFilterInit_size {size : UInt32} {medianWindow : Option {w : List α // w.length = size.toNat}}
    {sortedWindow : Bool} {mf : MedianFilter α}
    (init : medianFilterInit size medianWindow sortedWindow = .ok mf) :
    mf.medianFilterWindowSize = size := by
  unfold medianFilterInit at init
  split at init
  · cases init
  · split at init
    · cases init
    · split at init
      · cases init
        rfl
      · cases init

theorem medianFilterInit_odd {size : UInt32} {medianWindow : Option {w : List α // w.length = size.toNat}}
    {sortedWindow : Bool} {mf : MedianFilter α}
    (init : medianFilterInit size medianWindow sortedWindow = .ok mf) : size % 2 ≠ 0 := by
  intro even
  rw [medianFilterInit, dif_pos (.inr even)] at init
  cases init

namespace MedianFilter

/-- The index and the flag after one more entry. The index is a byte and may wrap before the end
of a window of more than 256 entries. -/
def advance (mf : MedianFilter α) : UInt8 × UInt8 :=
  if (mf.medianIndex + 1).toUInt32 ≥ mf.medianFilterWindowSize then (0, 1)
  else (mf.medianIndex + 1, mf.medianWindowFull)

theorem advance_inside (mf : MedianFilter α) :
    mf.advance.1.toNat < mf.medianFilterWindowSize.toNat := by
  have inside := mf.inside
  unfold advance
  split
  · exact Nat.lt_of_le_of_lt (Nat.zero_le _) inside
  · next before =>
    rwa [ge_iff_le, UInt32.not_le, UInt32.lt_iff_toNat_lt, UInt8.toNat_toUInt32] at before

theorem index_next (mf : MedianFilter α) (room : mf.medianIndex.toNat + 1 < 256) :
    (mf.medianIndex + 1).toNat = mf.medianIndex.toNat + 1 := by
  rw [UInt8.toNat_add, show UInt8.toNat 1 = 1 from rfl]
  omega

/-- The window, from the oldest entry to the newest. -/
def recent (mf : MedianFilter α) : List α := window mf.medianWindow mf.medianIndex.toNat

@[simp] theorem recent_length (mf : MedianFilter α) :
    mf.recent.length = mf.medianFilterWindowSize.toNat := by
  rw [recent, window_length, mf.sized]

end MedianFilter

variable [LinearOrder α]

def medianFilterHandle (mf : MedianFilter α) (input : α) : α × MedianFilter α :=
  let medianWindow := mf.medianWindow.set mf.medianIndex.toNat input
  let after : MedianFilter α := { mf with
    medianIndex := mf.advance.1
    medianWindowFull := mf.advance.2
    medianWindow := medianWindow
    sized := by rw [List.length_set, mf.sized]
    inside := mf.advance_inside }
  -- until the window is full the input is passed through
  if after.medianWindowFull = 0 ∧ after.medianIndex ≠ 0 then (input, after)
  else (median medianWindow input, after)

section Handle

variable (mf : MedianFilter α) (input : α)

@[simp] theorem medianFilterHandle_size :
    (medianFilterHandle mf input).2.medianFilterWindowSize = mf.medianFilterWindowSize := by
  unfold medianFilterHandle
  dsimp only
  split <;> rfl

theorem medianFilterHandle_window :
    (medianFilterHandle mf input).2.medianWindow = mf.medianWindow.set mf.medianIndex.toNat input ∧
      (medianFilterHandle mf input).2.medianIndex = mf.advance.1 := by
  unfold medianFilterHandle
  dsimp only
  split <;> exact ⟨rfl, rfl⟩

theorem medianFilterHandle_recent (room : mf.medianIndex.toNat + 1 < 256) :
    (medianFilterHandle mf input).2.recent = mf.recent.tail ++ [input] := by
  have inside := mf.inside
  have written := window_write (by rw [mf.sized]; exact inside) input
  have next := mf.index_next room
  rw [MedianFilter.recent, MedianFilter.recent, ← written, (medianFilterHandle_window mf input).1,
    (medianFilterHandle_window mf input).2, MedianFilter.advance]
  split
  · next wrapped =>
    rw [ge_iff_le, UInt32.le_iff_toNat_le, UInt8.toNat_toUInt32, next] at wrapped
    have full : mf.medianIndex.toNat + 1 = (mf.medianWindow.set mf.medianIndex.toNat input).length := by
      rw [List.length_set, mf.sized]
      omega
    rw [full, ← window_wrap]
    rfl
  · rw [next]

theorem medianFilterHandle_majority {input : α}
    (majority : mf.medianFilterWindowSize.toNat < 2 * (medianFilterHandle mf input).2.recent.count input) :
    (medianFilterHandle mf input).1 = input := by
  have after := (medianFilterHandle_window mf input).1
  rw [MedianFilter.recent, (window_perm _ _).count_eq, after] at majority
  unfold medianFilterHandle
  dsimp only
  split
  · rfl
  · refine median_of_majority ?_ input
    rwa [List.length_set, mf.sized]

end Handle

theorem medianFilterHandle_steady {mf : MedianFilter α} {value : α} {count : Nat}
    (small : mf.medianFilterWindowSize.toNat < 256) (ends : EndsWith mf.recent value count) :
    EndsWith (medianFilterHandle mf value).2.recent value (min (count + 1) mf.medianFilterWindowSize.toNat) ∧
      (mf.medianFilterWindowSize.toNat < 2 * (count + 1) → (medianFilterHandle mf value).1 = value) := by
  have size := mf.recent_length
  have nonempty : mf.recent ≠ [] := by
    have inside := mf.inside
    intro empty
    simp only [empty, List.length_nil] at size
    omega
  have slid := ends.slide nonempty
  have inside := mf.inside
  rw [← medianFilterHandle_recent mf value (by omega), size] at slid
  refine ⟨slid, fun majority => medianFilterHandle_majority mf ?_⟩
  have enough := slid.count_le
  omega

end DetectBoard.Plate
