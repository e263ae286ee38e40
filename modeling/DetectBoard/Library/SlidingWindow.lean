import Mathlib.Data.List.GetD
import Mathlib.Data.List.Sort
import Mathlib.Order.Basic

/-! The last readings of a stream in a circular buffer, and their median.

A circular buffer is read as the window that slides over the stream: its oldest
entry is the next to be overwritten.
-/

set_option autoImplicit false

namespace Library

section Window

variable {α : Type*} {buffer : List α} {index : Nat}

/-- The entries of a circular buffer, from the oldest to the newest. -/
def window (buffer : List α) (index : Nat) : List α := buffer.drop index ++ buffer.take index

@[simp] theorem window_length (buffer : List α) (index : Nat) :
    (window buffer index).length = buffer.length := by
  simp [window]
  omega

theorem window_perm (buffer : List α) (index : Nat) : (window buffer index).Perm buffer := by
  have swapped : (window buffer index).Perm (buffer.take index ++ buffer.drop index) := List.perm_append_comm
  rwa [List.take_append_drop] at swapped

theorem window_write (bound : index < buffer.length) (value : α) :
    window (buffer.set index value) (index + 1) = (window buffer index).tail ++ [value] := by
  have oldest : buffer.drop index ≠ [] := by simpa using bound
  rw [window, window, List.tail_append_of_ne_nil oldest, List.tail_drop, List.append_assoc,
    List.drop_set_of_lt (Nat.lt_succ_self index), List.take_succ_eq_append_getElem (by simpa using bound),
    List.take_set_of_le (Nat.le_refl index), List.getElem_set_self]

theorem window_wrap (buffer : List α) : window buffer 0 = window buffer buffer.length := by
  simp [window]

theorem drop_slide {entries inputs : List α} (nonempty : entries ≠ []) (value : α) :
    ((entries ++ inputs).drop inputs.length).tail ++ [value] =
      (entries ++ (inputs ++ [value])).drop (inputs ++ [value]).length := by
  have room : inputs.length + 1 ≤ (entries ++ inputs).length := by
    have := List.length_pos_iff.mpr nonempty
    rw [List.length_append]
    omega
  rw [List.tail_drop, ← List.append_assoc, List.length_append, List.length_singleton,
    List.drop_append_of_le_length room]

def EndsWith (entries : List α) (value : α) (count : Nat) : Prop :=
  ∃ older, entries = older ++ List.replicate count value

theorem EndsWith.slide {entries : List α} {value : α} {count : Nat} (ends : EndsWith entries value count)
    (nonempty : entries ≠ []) :
    EndsWith (entries.tail ++ [value]) value (min (count + 1) entries.length) := by
  obtain ⟨older, rfl⟩ := ends
  cases older with
  | nil =>
    -- the window holds nothing but the value
    cases count with
    | zero => simp at nonempty
    | succ count =>
      refine ⟨[], ?_⟩
      simp [List.replicate_succ, ← List.replicate_succ']
  | cons oldest older =>
    refine ⟨older, ?_⟩
    have room : min (count + 1) (oldest :: older ++ List.replicate count value).length = count + 1 := by
      simp
    rw [room, List.cons_append, List.tail_cons, List.append_assoc, ← List.replicate_succ']

theorem EndsWith.count_le [BEq α] [LawfulBEq α] {entries : List α} {value : α} {count : Nat}
    (ends : EndsWith entries value count) : count ≤ entries.count value := by
  obtain ⟨older, rfl⟩ := ends
  simp [List.count_append]

end Window

section Median

variable {α : Type*} [LinearOrder α] {entries : List α} {value : α}

def median (entries : List α) (default : α) : α :=
  (entries.insertionSort (· ≤ ·)).getD (entries.length / 2) default

theorem median_perm {entries' : List α} (perm : entries.Perm entries') (default : α) :
    median entries default = median entries' default := by
  have sorted := (List.perm_insertionSort (· ≤ ·) entries).trans
    (perm.trans (List.perm_insertionSort (· ≤ ·) entries').symm)
  have same := sorted.eq_of_pairwise' (List.pairwise_insertionSort _ _) (List.pairwise_insertionSort _ _)
  rw [median, median, same, perm.length_eq]

/-- How many values a sorted list has from a rank on, and up to it. -/
theorem count_of_rank {sorted : List α} (order : sorted.Pairwise (· ≤ ·)) {rank : Nat}
    (bound : rank < sorted.length) :
    sorted.length ≤ rank + sorted.countP (sorted[rank] ≤ ·) ∧ rank < sorted.countP (· ≤ sorted[rank]) := by
  have ordered := List.pairwise_iff_getElem.mp order
  constructor
  · have all : (sorted.drop rank).countP (sorted[rank] ≤ ·) = (sorted.drop rank).length := by
      refine List.countP_eq_length.mpr fun value member => ?_
      obtain ⟨i, high, rfl⟩ := List.mem_drop_iff_getElem.mp member
      rcases Nat.eq_zero_or_pos i with rfl | after
      · simp
      · simpa using ordered rank (rank + i) bound _ (by omega)
    have part := (List.drop_sublist rank sorted).countP_le (p := (sorted[rank] ≤ ·))
    rw [all, List.length_drop] at part
    omega
  · have all : (sorted.take (rank + 1)).countP (· ≤ sorted[rank]) = (sorted.take (rank + 1)).length := by
      refine List.countP_eq_length.mpr fun value member => ?_
      obtain ⟨i, low, rfl⟩ := List.mem_take_iff_getElem.mp member
      rcases Nat.lt_or_ge i rank with before | here
      · simpa using ordered i rank _ bound before
      · obtain rfl : i = rank := by omega
        simp
    have part := (List.take_sublist (rank + 1) sorted).countP_le (p := (· ≤ sorted[rank]))
    rw [all, List.length_take] at part
    omega

theorem count_above_rank {rank : Nat} {value limit : α}
    (ranked : (entries.insertionSort (· ≤ ·))[rank]? = some value) (above : limit < value) :
    entries.length ≤ rank + entries.countP (limit < ·) := by
  obtain ⟨bound, rfl⟩ := List.getElem?_eq_some_iff.mp ranked
  have perm := List.perm_insertionSort (· ≤ ·) entries
  have counts := (count_of_rank (List.pairwise_insertionSort (· ≤ ·) entries) bound).1
  rw [perm.length_eq, perm.countP_eq] at counts
  have more : entries.countP ((entries.insertionSort (· ≤ ·))[rank] ≤ ·) ≤ entries.countP (limit < ·) :=
    List.countP_mono_left fun other _ le => by
      rw [decide_eq_true_eq] at le ⊢
      exact lt_of_lt_of_le above le
  omega

theorem count_of_median (nonempty : entries ≠ []) (default : α) :
    entries.length ≤ entries.length / 2 + entries.countP (median entries default ≤ ·) ∧
      entries.length / 2 < entries.countP (· ≤ median entries default) := by
  have perm := List.perm_insertionSort (· ≤ ·) entries
  have positive := List.length_pos_iff.mpr nonempty
  have bound : entries.length / 2 < (entries.insertionSort (· ≤ ·)).length := by
    rw [perm.length_eq]
    omega
  have counts := count_of_rank (List.pairwise_insertionSort (· ≤ ·) entries) bound
  rw [perm.length_eq, perm.countP_eq, perm.countP_eq] at counts
  rwa [median, List.getD_eq_getElem _ _ bound]

theorem countP_apart {β : Type*} {p q : β → Bool} (entries : List β) (apart : ∀ entry, p entry → ¬ q entry) :
    entries.countP p + entries.countP q ≤ entries.length := by
  have rest : entries.countP q ≤ entries.countP fun entry => ¬ p entry :=
    List.countP_mono_left fun entry _ isQ => by simpa using fun isP => apart entry isP isQ
  have whole := List.length_eq_countP_add_countP p (l := entries)
  omega

/-- More than half of the entries are below the limit. -/
def MostlyBelow (limit : α) (entries : List α) : Prop := entries.length < 2 * entries.countP (· < limit)

instance (limit : α) (entries : List α) : Decidable (MostlyBelow limit entries) :=
  inferInstanceAs (Decidable (_ < _))

theorem median_lt_iff (nonempty : entries ≠ []) (default limit : α) :
    median entries default < limit ↔ MostlyBelow limit entries := by
  obtain ⟨above, below⟩ := count_of_median nonempty default
  constructor
  · intro less
    have more : entries.countP (· ≤ median entries default) ≤ entries.countP (· < limit) :=
      List.countP_mono_left fun entry _ le => by
        rw [decide_eq_true_eq] at le ⊢
        exact lt_of_le_of_lt le less
    unfold MostlyBelow
    omega
  · intro mostly
    by_contra least
    have apart := countP_apart (p := (median entries default ≤ ·)) (q := (· < limit)) entries fun entry ge less => by
      rw [decide_eq_true_eq] at ge less
      exact least (lt_of_le_of_lt ge less)
    unfold MostlyBelow at mostly
    omega

/-- What is mostly below a limit still is when its newest entries become as low as an entry below it. -/
theorem MostlyBelow.replicate {least limit : α} (below : least < limit) {older newer : List α} {count : ℕ}
    (mostly : MostlyBelow limit ((older ++ newer).drop count)) :
    MostlyBelow limit ((older ++ List.replicate newer.length least).drop count) := by
  unfold MostlyBelow at mostly ⊢
  rw [List.drop_append, List.length_append, List.countP_append] at mostly ⊢
  have most := List.countP_le_length (p := (· < limit)) (l := newer.drop (count - older.length))
  simp only [List.drop_replicate, List.countP_replicate, List.length_replicate, below, decide_true, if_true,
    List.length_drop] at mostly most ⊢
  omega

theorem median_of_majority (majority : entries.length < 2 * entries.count value) (default : α) :
    median entries default = value := by
  have nonempty : entries ≠ [] := by
    rintro rfl
    simp at majority
  obtain ⟨above, below⟩ := count_of_median nonempty default
  have split : entries.count value = entries.countP (· == value) := rfl
  rcases lt_trichotomy (median entries default) value with less | same | greater
  · have apart := countP_apart (p := (· ≤ median entries default)) (q := (· == value)) entries
      fun entry le is => by
        rw [beq_iff_eq.mp is, decide_eq_true_eq] at le
        exact absurd less (not_lt.mpr le)
    omega
  · exact same
  · have apart := countP_apart (p := (median entries default ≤ ·)) (q := (· == value)) entries
      fun entry ge is => by
        rw [beq_iff_eq.mp is, decide_eq_true_eq] at ge
        exact absurd greater (not_lt.mpr ge)
    omega

end Median
end Library
