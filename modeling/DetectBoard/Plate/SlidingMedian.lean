import DetectBoard.Plate.MedianFilter
import Mathlib.Data.List.Induction
import Mathlib.Logic.Nontrivial.Basic

/-! What the median filter returns at each call, for every window size that it accepts. -/

set_option autoImplicit false

namespace DetectBoard.Plate

open Library

variable {α : Type}

/-! ## The index and the flag -/

namespace MedianFilter

variable (mf : MedianFilter α)

theorem index_compare (room : mf.medianIndex.toNat + 1 < 256) :
    (mf.medianIndex + 1).toUInt32 ≥ mf.medianFilterWindowSize ↔
      mf.medianFilterWindowSize.toNat ≤ mf.medianIndex.toNat + 1 := by
  rw [ge_iff_le, UInt32.le_iff_toNat_le, UInt8.toNat_toUInt32, mf.index_next room]

theorem advance_before (room : mf.medianIndex.toNat + 1 < 256)
    (before : mf.medianIndex.toNat + 1 < mf.medianFilterWindowSize.toNat) :
    mf.advance = (mf.medianIndex + 1, mf.medianWindowFull) := by
  refine if_neg fun reached => ?_
  have := (mf.index_compare room).mp reached
  omega

theorem advance_last (room : mf.medianIndex.toNat + 1 < 256)
    (last : mf.medianIndex.toNat + 1 = mf.medianFilterWindowSize.toNat) : mf.advance = (0, 1) :=
  if_pos ((mf.index_compare room).mpr last.ge)

theorem advance_full (full : mf.medianWindowFull = 1) : mf.advance.2 = 1 := by
  unfold advance
  split
  · rfl
  · exact full

/-- After 256 entries the index starts again, in a window that is not full. -/
theorem advance_overflow (last : mf.medianIndex.toNat = 255) : mf.advance.1 = 0 := by
  have zero : mf.medianIndex + 1 = 0 := by
    rw [UInt8.toNat_inj.mp (show mf.medianIndex.toNat = UInt8.toNat 255 from last)]
    rfl
  unfold advance
  split
  · rfl
  · exact zero

end MedianFilter

/-! ## The last inputs in the window -/

/-- The filter after some inputs, as long as the index has not overflowed. -/
structure Tracks (first : MedianFilter α) (earlier : List α) (mf : MedianFilter α) : Prop where
  size : mf.medianFilterWindowSize = first.medianFilterWindowSize
  recent : mf.recent = (first.recent ++ earlier).drop earlier.length
  filling : earlier.length < first.medianFilterWindowSize.toNat →
    mf.medianWindowFull = 0 ∧ mf.medianIndex.toNat = earlier.length
  full : first.medianFilterWindowSize.toNat ≤ earlier.length → mf.medianWindowFull = 1

section Tracks

variable {first mf : MedianFilter α} {earlier : List α} {size : UInt32}

theorem Tracks.start {w : {w : List α // w.length = size.toNat}}
    (init : medianFilterInit size (some w) true = .ok mf) : Tracks mf [] mf := by
  have cleared : mf.medianWindowFull = 0 ∧ mf.medianIndex.toNat = 0 := by
    unfold medianFilterInit at init
    split at init
    · cases init
    · cases init
      exact ⟨rfl, rfl⟩
  have inside := mf.inside
  refine ⟨rfl, by simp, fun _ => cleared, fun enough => ?_⟩
  rw [List.length_nil] at enough
  omega

/-- The index has room for one more entry: the window is small, or its first 255 entries are not all there. -/
theorem Tracks.room (tracks : Tracks first earlier mf)
    (small : first.medianFilterWindowSize.toNat < 256 ∨
      earlier.length < 255 ∧ earlier.length < first.medianFilterWindowSize.toNat) :
    mf.medianIndex.toNat + 1 < 256 := by
  rcases small with small | ⟨few, filling⟩
  · have inside := mf.inside
    rw [tracks.size] at inside
    omega
  · rw [(tracks.filling filling).2]
    omega

end Tracks

/-! ## What a call returns -/

variable [LinearOrder α]

section Output

variable (mf : MedianFilter α) (input : α)

theorem medianFilterHandle_flag : (medianFilterHandle mf input).2.medianWindowFull = mf.advance.2 := by
  unfold medianFilterHandle
  dsimp only
  split <;> rfl

theorem medianFilterHandle_passes (filling : mf.advance.2 = 0) (inside : mf.advance.1 ≠ 0) :
    (medianFilterHandle mf input).1 = input := by
  unfold medianFilterHandle
  dsimp only
  rw [if_pos ⟨filling, inside⟩]

theorem medianFilterHandle_sorts (sorts : mf.advance.2 = 0 → mf.advance.1 = 0) :
    (medianFilterHandle mf input).1 = median (mf.recent.tail ++ [input]) input := by
  have written := window_write (by rw [mf.sized]; exact mf.inside) input
  rw [MedianFilter.recent, ← written, median_perm (window_perm _ _) input]
  unfold medianFilterHandle
  dsimp only
  rw [if_neg fun passes => passes.2 (sorts passes.1)]

end Output

/-- The filter after its calls with these inputs. -/
def fed (mf : MedianFilter α) (inputs : List α) : MedianFilter α :=
  inputs.foldl (fun mf input => (medianFilterHandle mf input).2) mf

@[simp] theorem fed_snoc (mf : MedianFilter α) (inputs : List α) (input : α) :
    fed mf (inputs ++ [input]) = (medianFilterHandle (fed mf inputs) input).2 :=
  List.foldl_append

/-- What the call with `input` should return, after the calls with `earlier`. -/
structure SlidingMedian (size : ℕ) (earlier : List α) (input output : α) : Prop where
  passes : earlier.length + 1 < size → output = input
  median : size ≤ earlier.length + 1 →
    (((earlier ++ [input]).drop (earlier.length + 1 - size)).insertionSort (· ≤ ·))[size / 2]? = some output

section Tracks

variable {first mf : MedianFilter α} {earlier : List α} {size : UInt32}
  {w : {w : List α // w.length = size.toNat}}

theorem Tracks.step (tracks : Tracks first earlier mf) (room : mf.medianIndex.toNat + 1 < 256) (input : α) :
    Tracks first (earlier ++ [input]) (medianFilterHandle mf input).2 := by
  have size : mf.medianFilterWindowSize.toNat = first.medianFilterWindowSize.toNat := by rw [tracks.size]
  have flag := medianFilterHandle_flag mf input
  have index := (medianFilterHandle_window mf input).2
  have nonempty : first.recent ≠ [] := by
    have inside := first.inside
    have length := first.recent_length
    rintro empty
    rw [empty, List.length_nil] at length
    omega
  refine ⟨(medianFilterHandle_size mf input).trans tracks.size, ?_, fun less => ?_, fun enough => ?_⟩
  · rw [medianFilterHandle_recent mf input room, tracks.recent, drop_slide nonempty]
  · rw [List.length_append, List.length_singleton] at less ⊢
    obtain ⟨empty, reached⟩ := tracks.filling (by omega)
    rw [flag, index, mf.advance_before room (by omega), mf.index_next room, empty, reached]
    exact ⟨rfl, rfl⟩
  · rw [List.length_append, List.length_singleton] at enough
    rw [flag]
    by_cases before : first.medianFilterWindowSize.toNat ≤ earlier.length
    · exact mf.advance_full (tracks.full before)
    · obtain ⟨_, reached⟩ := tracks.filling (by omega)
      rw [mf.advance_last room (by omega)]

/-- The entries that the window holds after a further input, once it is full. -/
theorem Tracks.last (tracks : Tracks first earlier mf) (room : mf.medianIndex.toNat + 1 < 256) (input : α)
    (enough : first.medianFilterWindowSize.toNat ≤ earlier.length + 1) :
    mf.recent.tail ++ [input] =
      (earlier ++ [input]).drop (earlier.length + 1 - first.medianFilterWindowSize.toNat) := by
  have recent := (tracks.step room input).recent
  rw [medianFilterHandle_recent mf input room] at recent
  rw [recent, List.drop_append, List.drop_eq_nil_of_le (by simpa using enough), List.nil_append]
  simp

theorem Tracks.output (tracks : Tracks first earlier mf) (room : mf.medianIndex.toNat + 1 < 256) (input : α) :
    SlidingMedian first.medianFilterWindowSize.toNat earlier input (medianFilterHandle mf input).1 := by
  have after := tracks.step room input
  have flag := medianFilterHandle_flag mf input
  have index := (medianFilterHandle_window mf input).2
  constructor
  · intro less
    obtain ⟨empty, reached⟩ := after.filling (by simpa using less)
    refine medianFilterHandle_passes mf input (flag ▸ empty) fun zero => ?_
    rw [index, zero, List.length_append] at reached
    simp at reached
  · intro enough
    have full := after.full (by simpa using enough)
    have sorts : mf.advance.2 = 0 → mf.advance.1 = 0 := fun zero => by
      rw [flag, zero] at full
      cases full
    have bound := first.inside
    rw [medianFilterHandle_sorts mf input sorts, tracks.last room input enough, median]
    have length : ((earlier ++ [input]).drop (earlier.length + 1 - first.medianFilterWindowSize.toNat)).length =
        first.medianFilterWindowSize.toNat := by
      rw [List.length_drop, List.length_append, List.length_singleton]
      omega
    have inside : first.medianFilterWindowSize.toNat / 2 < (((earlier ++ [input]).drop
        (earlier.length + 1 - first.medianFilterWindowSize.toNat)).insertionSort (· ≤ ·)).length := by
      rw [List.length_insertionSort, length]
      omega
    rw [length, List.getElem?_eq_getElem inside, List.getD_eq_getElem _ _ inside]

theorem tracks_small (init : medianFilterInit size (some w) true = .ok mf) (small : size.toNat < 256)
    (earlier : List α) : Tracks mf earlier (fed mf earlier) := by
  have same := medianFilterInit_size init
  induction earlier using List.reverseRecOn with
  | nil => exact .start init
  | append_singleton earlier input ih =>
    rw [fed_snoc]
    exact ih.step (ih.room (.inl (same ▸ small))) input

theorem tracks_large (init : medianFilterInit size (some w) true = .ok mf) (large : 256 ≤ size.toNat)
    (earlier : List α) (few : earlier.length ≤ 255) : Tracks mf earlier (fed mf earlier) := by
  have same := medianFilterInit_size init
  induction earlier using List.reverseRecOn with
  | nil => exact .start init
  | append_singleton earlier input ih =>
    rw [List.length_append, List.length_singleton] at few
    have before := ih (by omega)
    rw [fed_snoc]
    exact before.step (before.room (.inr ⟨by omega, by rw [same]; omega⟩)) input

/-- The 256th call sorts a window of which only a part was written. -/
theorem overflow_output (init : medianFilterInit size (some w) true = .ok mf) (large : 256 ≤ size.toNat)
    {earlier : List α} (count : earlier.length = 255) (input : α) :
    (medianFilterHandle (fed mf earlier) input).1 = median (w.1.drop 256 ++ earlier ++ [input]) input := by
  have tracks := tracks_large init large earlier count.le
  have same := medianFilterInit_size init
  have filling := tracks.filling (by rw [same]; omega)
  have overflow := (fed mf earlier).advance_overflow (filling.2.trans count)
  have content : mf.recent = w.1 := by
    unfold medianFilterInit at init
    split at init
    · cases init
    · cases init
      simp [MedianFilter.recent, window]
  rw [medianFilterHandle_sorts _ input fun _ => overflow, tracks.recent, content, List.tail_drop, count,
    List.drop_append_of_le_length (by rw [w.2]; exact large)]

end Tracks

/-- The filter is a sliding median if and only if its window is small enough for the index. -/
theorem median_filter_slides_iff [Nontrivial α] {size : UInt32} {w : {w : List α // w.length = size.toNat}}
    {mf : MedianFilter α} (init : medianFilterInit size (some w) true = .ok mf) :
    (∀ earlier input, SlidingMedian size.toNat earlier input (medianFilterHandle (fed mf earlier) input).1) ↔
      size < 256 := by
  have same := medianFilterInit_size init
  rw [UInt32.lt_iff_toNat_lt, show UInt32.toNat 256 = 256 from rfl]
  constructor
  · intro slides
    by_contra large
    have odd : size.toNat ≠ 256 := fun even => medianFilterInit_odd init (by
      rw [UInt32.toNat_inj.mp (show size.toNat = UInt32.toNat 256 from even)]
      rfl)
    have large := Nat.not_lt.mp large
    have forced : ∀ {earlier : List α} {input : α}, earlier.length = 255 →
        median (w.1.drop 256 ++ earlier ++ [input]) input = input := fun {earlier input} count => by
      rw [← overflow_output init large count input]
      exact (slides earlier input).passes (by omega)
    -- a last value that differs from all others is the median, whether it is the highest or the lowest
    obtain ⟨low, high, less⟩ := exists_pair_lt α
    have rises := (count_of_median (List.append_ne_nil_of_right_ne_nil
      (w.1.drop 256 ++ List.replicate 255 low) (List.cons_ne_nil high [])) high).1
    have falls := (count_of_median (List.append_ne_nil_of_right_ne_nil
      (w.1.drop 256 ++ List.replicate 255 high) (List.cons_ne_nil low [])) low).2
    rw [forced (List.length_replicate (a := low))] at rises
    rw [forced (List.length_replicate (a := high))] at falls
    have apart := countP_apart (p := (high ≤ ·)) (q := (· ≤ low)) (w.1.drop 256) fun value above below => by
      simp only [decide_eq_true_eq] at above below
      exact absurd (above.trans below) (not_le.mpr less)
    simp only [List.length_append, List.length_drop, w.2, List.length_replicate, List.length_singleton,
      List.countP_append, List.countP_replicate, List.countP_singleton, not_le.mpr less, le_refl,
      decide_true, decide_false, Bool.false_eq_true, if_true, if_false] at rises falls apart
    omega
  · intro small earlier input
    have tracks := tracks_small init small earlier
    rw [← same]
    exact tracks.output (tracks.room (.inl (same ▸ small))) input

theorem median_filter_slides_three :
    ∃ mf : MedianFilter ℕ, medianFilterInit 3 (some ⟨[9, 9, 9], rfl⟩) true = .ok mf ∧
      ∀ earlier input, SlidingMedian 3 earlier input (medianFilterHandle (fed mf earlier) input).1 := by
  have init : medianFilterInit 3 (some ⟨[9, 9, 9], rfl⟩) true =
    .ok (⟨0, 0, 3, [9, 9, 9], rfl, by decide⟩ : MedianFilter ℕ) := rfl
  exact ⟨_, init, (median_filter_slides_iff init).mpr (by decide)⟩

theorem median_filter_overflows :
    ∃ mf : MedianFilter ℕ,
      medianFilterInit 257 (some ⟨List.replicate 257 0, List.length_replicate⟩) true = .ok mf ∧
      ¬ SlidingMedian 257 (List.replicate 255 0) 1 (medianFilterHandle (fed mf (List.replicate 255 0)) 1).1 := by
  -- the 256th input is not passed through: the index has become 0
  have init : medianFilterInit 257 (some ⟨List.replicate 257 0, List.length_replicate⟩) true =
    .ok (⟨0, 0, 257, List.replicate 257 0, List.length_replicate, by decide⟩ : MedianFilter ℕ) := rfl
  refine ⟨_, init, fun slides => ?_⟩
  have passed := slides.passes (by rw [List.length_replicate]; decide)
  rw [overflow_output init (by decide) List.length_replicate] at passed
  exact absurd passed (by decide +kernel)

end DetectBoard.Plate
