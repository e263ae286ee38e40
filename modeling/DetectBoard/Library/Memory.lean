import Mathlib.Data.List.Basic
import Mathlib.Data.List.GetD

/-! Addressed memory read and written in runs of consecutive cells or block by
block, and the frame relation between two memories that agree outside an address
range.
-/

set_option autoImplicit false

namespace Library

abbrev Memory (β : Type*) := Nat → β

namespace Memory

variable {β : Type*}

def cells (mem : Memory β) (addr len : Nat) : List β :=
  (List.range len).map fun i => mem (addr + i)

def store (mem : Memory β) (addr : Nat) (content : List β) : Memory β := fun a =>
  if addr ≤ a then content[a - addr]?.getD (mem a) else mem a

/-- Replace block after block, each by what `f` makes of it. -/
def mapBlocks (mem : Memory β) (size count : Nat) (f : List β → List β) : Memory β :=
  (List.range count).foldl (fun mem i => mem.store (i * size) (f (mem.cells (i * size) size))) mem

def fill (mem : Memory β) (lo hi : Nat) (content : Nat → β) : Memory β := fun a =>
  if lo ≤ a ∧ a < hi then content a else mem a

/-- The two memories differ at most in the range `[lo, hi)`. -/
structure AgreeOutside (lo hi : Nat) (mem mem' : Memory β) : Prop where
  same : ∀ a, a < lo ∨ hi ≤ a → mem' a = mem a

variable {mem mem' mem'' : Memory β} {addr len lo hi : Nat} {content : List β}

@[simp] theorem cells_zero : mem.cells addr 0 = [] := rfl

@[simp] theorem cells_length : (mem.cells addr len).length = len := by
  simp [cells]

theorem cells_add (mem : Memory β) (addr first rest : Nat) :
    mem.cells addr (first + rest) = mem.cells addr first ++ mem.cells (addr + first) rest := by
  simp only [cells, List.range_add, List.map_append, List.map_map, List.append_cancel_left_eq]
  exact List.map_congr_left fun i _ => by simp [Nat.add_assoc]

theorem cells_congr (same : ∀ i, i < len → mem' (addr + i) = mem (addr + i)) :
    mem'.cells addr len = mem.cells addr len :=
  List.map_congr_left fun i member => same i (List.mem_range.mp member)

theorem cells_const {value : β} (same : ∀ i, i < len → mem (addr + i) = value) :
    mem.cells addr len = List.replicate len value := by
  apply List.ext_getElem
  · simp [cells]
  · intro i bound _
    simpa [cells] using same i (by simpa [cells] using bound)

theorem store_below {a : Nat} (below : a < addr) : mem.store addr content a = mem a := by
  simp [store, Nat.not_le.mpr below]

theorem store_above {a : Nat} (above : addr + content.length ≤ a) :
    mem.store addr content a = mem a := by
  have : content.length ≤ a - addr := by omega
  simp [store, List.getElem?_eq_none this]

theorem cells_store (mem : Memory β) (addr : Nat) (content : List β) :
    (mem.store addr content).cells addr content.length = content := by
  apply List.ext_getElem
  · simp [cells]
  · intro i _ bound
    simp [cells, store, bound]

theorem store_agree (mem : Memory β) (addr : Nat) (content : List β) :
    AgreeOutside addr (addr + content.length) mem (mem.store addr content) := by
  constructor
  rintro a (below | above)
  · exact store_below below
  · exact store_above above

theorem fill_agree (mem : Memory β) (lo hi : Nat) (f : Nat → β) :
    AgreeOutside lo hi mem (mem.fill lo hi f) := by
  constructor
  intro a outside
  have : ¬(lo ≤ a ∧ a < hi) := by omega
  simp [fill, this]

/-- A store right behind the cells from zero on extends them. -/
theorem cells_store_next (mem : Memory β) (len : Nat) (content : List β) :
    (mem.store len content).cells 0 (len + content.length) = mem.cells 0 len ++ content := by
  have kept : (mem.store len content).cells 0 len = mem.cells 0 len :=
    cells_congr fun i bound => store_below (by omega)
  rw [cells_add, kept, Nat.zero_add, cells_store]

namespace AgreeOutside

theorem refl (lo hi : Nat) (mem : Memory β) : AgreeOutside lo hi mem mem := ⟨fun _ _ => rfl⟩

theorem trans (first : AgreeOutside lo hi mem mem') (second : AgreeOutside lo hi mem' mem'') :
    AgreeOutside lo hi mem mem'' :=
  ⟨fun a outside => (second.same a outside).trans (first.same a outside)⟩

theorem mono {lo' hi' : Nat} (agree : AgreeOutside lo hi mem mem') (below : lo' ≤ lo)
    (above : hi ≤ hi') : AgreeOutside lo' hi' mem mem' :=
  ⟨fun a outside => agree.same a (by omega)⟩

theorem cells_eq (agree : AgreeOutside lo hi mem mem') (apart : addr + len ≤ lo ∨ hi ≤ addr) :
    mem'.cells addr len = mem.cells addr len :=
  cells_congr fun i bound => agree.same (addr + i) (by omega)

end AgreeOutside

/-! ## Blocks -/

section Blocks

variable {size count i : Nat} {f : List β → List β}

theorem cells_blocks : mem.cells 0 (count * size) = mem'.cells 0 (count * size) ↔
    ∀ i, i < count → mem.cells (i * size) size = mem'.cells (i * size) size := by
  induction count with
  | zero => simp
  | succ count ih =>
    rw [Nat.succ_mul, cells_add, cells_add, Nat.zero_add]
    constructor
    · intro same i bound
      obtain ⟨earlier, last⟩ := List.append_inj same (by simp)
      rcases Nat.lt_succ_iff_lt_or_eq.mp bound with before | rfl
      · exact ih.mp earlier i before
      · exact last
    · intro each
      rw [ih.mpr fun i bound => each i (Nat.lt_succ_of_lt bound), each count (Nat.lt_succ_self count)]

theorem mapBlocks_succ : mem.mapBlocks size (count + 1) f =
    (mem.mapBlocks size count f).store (count * size) (f ((mem.mapBlocks size count f).cells (count * size) size)) := by
  simp [mapBlocks, List.range_succ]

variable (whole : ∀ block, block.length = size → (f block).length = size)
include whole

theorem mapBlocks_agree : AgreeOutside 0 (count * size) mem (mem.mapBlocks size count f) := by
  induction count with
  | zero => exact .refl ..
  | succ count ih =>
    rw [mapBlocks_succ, Nat.succ_mul]
    have stored := store_agree (mem.mapBlocks size count f) (count * size)
      (f ((mem.mapBlocks size count f).cells (count * size) size))
    rw [whole _ cells_length] at stored
    exact (ih.mono (Nat.le_refl 0) (Nat.le_add_right _ _)).trans (stored.mono (Nat.zero_le _) (Nat.le_refl _))

theorem mapBlocks_cells (inside : i < count) :
    (mem.mapBlocks size count f).cells (i * size) size = f (mem.cells (i * size) size) := by
  induction count with
  | zero => exact absurd inside (Nat.not_lt_zero i)
  | succ count ih =>
    rw [mapBlocks_succ]
    rcases Nat.lt_succ_iff_lt_or_eq.mp inside with earlier | rfl
    · have before : i * size + size ≤ count * size := by
        rw [← Nat.succ_mul]
        exact Nat.mul_le_mul_right size earlier
      rw [← ih earlier]
      exact cells_congr fun k bound => store_below (by omega)
    · -- the earlier steps have left the block alone
      have fresh : (mem.mapBlocks size i f).cells (i * size) size = mem.cells (i * size) size :=
        (mapBlocks_agree whole).cells_eq (.inr (Nat.le_refl _))
      have stored := cells_store (mem.mapBlocks size i f) (i * size) (f (mem.cells (i * size) size))
      rw [whole _ cells_length] at stored
      rw [fresh, stored]

theorem mapBlocks_cells_inj (inj : ∀ block block', block.length = size → block'.length = size →
    f block = f block' → block = block') :
    (mem.mapBlocks size count f).cells 0 (count * size) = (mem'.mapBlocks size count f).cells 0 (count * size) ↔
      mem.cells 0 (count * size) = mem'.cells 0 (count * size) := by
  rw [cells_blocks, cells_blocks]
  refine forall₂_congr fun i bound => ?_
  rw [mapBlocks_cells whole bound, mapBlocks_cells whole bound]
  exact ⟨inj _ _ cells_length cells_length, congrArg f⟩

end Blocks

end Memory
end Library
