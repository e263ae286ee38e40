import Mathlib.Data.BitVec
import Mathlib.Logic.Function.Iterate

/-! Cyclic redundancy checks as the remainders of a shift register.

The register shifts towards its lowest bit, and adds the polynomial whenever a
one falls out. Everything follows from the linearity of one such step.
-/

set_option autoImplicit false

namespace Library

/-! ## The register -/

section Register

variable {w : ℕ} (poly : BitVec w)

/-- One step of the register. -/
def feed (state : BitVec w) : BitVec w :=
  if state.getLsbD 0 then (state >>> 1) ^^^ poly else state >>> 1

def feeds (count : ℕ) (state : BitVec w) : BitVec w := (feed poly)^[count] state

@[simp] theorem feeds_zero (state : BitVec w) : feeds poly 0 state = state := rfl

theorem feeds_succ (count : ℕ) (state : BitVec w) :
    feeds poly (count + 1) state = feed poly (feeds poly count state) :=
  Function.iterate_succ_apply' ..

theorem feeds_add (first second : ℕ) (state : BitVec w) :
    feeds poly (first + second) state = feeds poly first (feeds poly second state) :=
  Function.iterate_add_apply ..

theorem feed_xor (state other : BitVec w) : feed poly (state ^^^ other) = feed poly state ^^^ feed poly other := by
  have cancel : ∀ a b : BitVec w, a ^^^ poly ^^^ (b ^^^ poly) = a ^^^ b := fun a b => by
    rw [BitVec.xor_assoc, BitVec.xor_comm b, ← BitVec.xor_assoc poly, BitVec.xor_self, BitVec.zero_xor]
  unfold feed
  rw [BitVec.getLsbD_xor, BitVec.ushiftRight_xor_distrib]
  cases state.getLsbD 0 <;> cases other.getLsbD 0
  · rfl
  · exact BitVec.xor_assoc ..
  · show _ ^^^ _ ^^^ poly = (_ ^^^ poly) ^^^ (other >>> 1)
    rw [BitVec.xor_assoc, BitVec.xor_assoc, BitVec.xor_comm poly]
  · exact (cancel _ _).symm

theorem feeds_xor (count : ℕ) (state other : BitVec w) :
    feeds poly count (state ^^^ other) = feeds poly count state ^^^ feeds poly count other := by
  induction count with
  | zero => rfl
  | succ count ih => rw [feeds_succ, ih, feed_xor, feeds_succ, feeds_succ]

/-- Bits that are clear fall out without effect. -/
theorem feeds_clear {count : ℕ} {state : BitVec w} (clear : ∀ i < count, state.getLsbD i = false) :
    feeds poly count state = state >>> count := by
  induction count with
  | zero => simp
  | succ count ih =>
    have low : (state >>> count).getLsbD 0 = false := by simpa using clear count (Nat.lt_succ_self count)
    rw [feeds_succ, ih fun i less => clear i (Nat.lt_succ_of_lt less), feed, low, if_neg Bool.false_ne_true,
      ← BitVec.shiftRight_add]

variable {poly}

/-- The register loses nothing when its polynomial has the highest bit. -/
theorem feed_injective (top : poly.msb = true) : Function.Injective (feed poly) := by
  have kernel : ∀ state, feed poly state = 0#w → state = 0#w := by
    intro state vanishes
    cases low : state.getLsbD 0 with
    | true =>
      rw [feed, low, if_pos rfl, BitVec.xor_eq_zero_iff] at vanishes
      have high := congrArg BitVec.msb vanishes
      rw [top] at high
      simp [BitVec.msb_ushiftRight] at high
    | false =>
      rw [feed, low, if_neg Bool.false_ne_true] at vanishes
      apply BitVec.eq_of_getLsbD_eq
      intro i _
      cases i with
      | zero => simpa using low
      | succ i => simpa [Nat.add_comm] using congrArg (fun shifted => shifted.getLsbD i) vanishes
  intro state other same
  apply BitVec.xor_eq_zero_iff.mp
  apply kernel
  rw [feed_xor, same, BitVec.xor_self]

theorem feeds_injective (top : poly.msb = true) (count : ℕ) : Function.Injective (feeds poly count) :=
  (feed_injective top).iterate count

end Register

/-! ## The remainder of a byte string -/

section Remainder

variable {w : ℕ} (poly : BitVec w)

/-- Add a byte to the low end of the register, and shift it out bit by bit. -/
def absorb (state : BitVec w) (byte : BitVec 8) : BitVec w := feeds poly 8 (state ^^^ byte.setWidth w)

def remainder (state : BitVec w) (message : List (BitVec 8)) : BitVec w := message.foldl (absorb poly) state

variable {poly}

/-- A byte at a time: a table of 256 remainders does what eight steps do. -/
theorem absorb_table (state : BitVec w) (byte : BitVec 8) :
    absorb poly state byte = (state >>> 8) ^^^ feeds poly 8 ((state.setWidth 8 ^^^ byte).setWidth w) := by
  have rest : state ^^^ byte.setWidth w =
      (state >>> 8 <<< 8) ^^^ (state.setWidth 8 ^^^ byte).setWidth w := by
    apply BitVec.eq_of_getLsbD_eq
    intro i bound
    by_cases low : i < 8
    · simp [low, bound]
    · have inside : i - 8 + 8 = i := by omega
      simp [low, bound, Nat.add_comm 8, inside, BitVec.getLsbD_of_ge byte i (by omega)]
  have clear : ∀ i < 8, (state >>> 8 <<< 8).getLsbD i = false := fun i low => by simp [low]
  have shifted : state >>> 8 <<< 8 >>> 8 = state >>> 8 := by
    apply BitVec.eq_of_getLsbD_eq
    intro i bound
    simpa using BitVec.lt_of_getLsbD
  rw [absorb, rest, feeds_xor, feeds_clear poly clear, shifted]

theorem absorb_absorb (wide : 16 ≤ w) (state : BitVec w) (first second : BitVec 8) :
    absorb poly (absorb poly state first) second =
      feeds poly 16 (state ^^^ (first.setWidth w ^^^ second.setWidth w <<< 8)) := by
  have clear : ∀ i < 8, (second.setWidth w <<< 8).getLsbD i = false := fun i low => by simp [low]
  have back : second.setWidth w <<< 8 >>> 8 = second.setWidth w := by
    apply BitVec.eq_of_getLsbD_eq
    intro i bound
    have byte : second.getLsbD i = true → 8 + i < w := fun set => by
      have := BitVec.lt_of_getLsbD set
      omega
    simpa [bound] using byte
  -- the second byte may be added before the first eight steps, eight places up
  have later : absorb poly state first ^^^ second.setWidth w =
      feeds poly 8 (state ^^^ (first.setWidth w ^^^ second.setWidth w <<< 8)) := by
    rw [← BitVec.xor_assoc, feeds_xor, feeds_clear poly clear, back, absorb]
  rw [absorb, later, ← feeds_add]

theorem absorb_injective (top : poly.msb = true) (byte : BitVec 8) : Function.Injective (absorb poly · byte) := by
  intro state other same
  exact (BitVec.xor_left_inj _).mp (feeds_injective top 8 same)

theorem remainder_injective (top : poly.msb = true) (message : List (BitVec 8)) :
    Function.Injective (remainder poly · message) := by
  intro state other same
  induction message generalizing state other with
  | nil => exact same
  | cons byte rest ih => exact absorb_injective top byte (ih same)

theorem remainder_append (state : BitVec w) (first rest : List (BitVec 8)) :
    remainder poly state (first ++ rest) = remainder poly (remainder poly state first) rest :=
  List.foldl_append

theorem absorb_byte_injective (top : poly.msb = true) (wide : 8 ≤ w) (state : BitVec w) :
    Function.Injective (absorb poly state) := by
  intro byte other same
  have bits := (BitVec.xor_right_inj _).mp (feeds_injective top 8 same)
  apply BitVec.eq_of_getLsbD_eq
  intro i bound
  simpa [Nat.lt_of_lt_of_le bound wide] using congrArg (fun word => word.getLsbD i) bits

theorem absorb_bytes_injective (top : poly.msb = true) (wide : 16 ≤ w) (state : BitVec w)
    {first second first' second' : BitVec 8}
    (same : absorb poly (absorb poly state first) second = absorb poly (absorb poly state first') second') :
    first = first' ∧ second = second' := by
  rw [absorb_absorb wide, absorb_absorb wide] at same
  have bits := (BitVec.xor_right_inj _).mp (feeds_injective top 16 same)
  -- the second byte lies above the first
  constructor
  · apply BitVec.eq_of_getLsbD_eq
    intro i bound
    have inside : i < w := by omega
    simpa [inside, bound] using congrArg (fun word => word.getLsbD i) bits
  · apply BitVec.eq_of_getLsbD_eq
    intro i bound
    have inside : i + 8 < w := by omega
    have above := congrArg (fun word => word.getLsbD (i + 8)) bits
    simpa [inside, show ¬ i + 8 < 8 by omega, BitVec.getLsbD_of_ge first (i + 8) (by omega),
      BitVec.getLsbD_of_ge first' (i + 8) (by omega), show i < w by omega] using above

end Remainder

/-! ## Local corruption -/

/-- Two strings of one length that differ, and only within two adjacent places. -/
structure LocallyCorrupted {α : Type*} (message message' : List α) : Prop where
  length : message'.length = message.length
  differ : message ≠ message'
  agree : ∃ i, ∀ j, j ≠ i → j ≠ i + 1 → message[j]? = message'[j]?

theorem LocallyCorrupted.split {α : Type*} {message message' : List α}
    (corrupted : LocallyCorrupted message message') :
    ∃ first middle middle' rest, message = first ++ (middle ++ rest) ∧ message' = first ++ (middle' ++ rest) ∧
      middle'.length = middle.length ∧ middle.length ≤ 2 ∧ middle ≠ middle' := by
  obtain ⟨i, agree⟩ := corrupted.agree
  have before : message.take i = message'.take i := by
    apply List.ext_getElem?
    intro j
    simp only [List.getElem?_take]
    split
    · next less => exact agree j (by omega) (by omega)
    · rfl
  have after : message.drop (i + 2) = message'.drop (i + 2) := by
    apply List.ext_getElem?
    intro j
    simp only [List.getElem?_drop]
    exact agree _ (by omega) (by omega)
  have cut : ∀ list : List α, list = list.take i ++ ((list.drop i).take 2 ++ list.drop (i + 2)) := fun list => by
    rw [← List.drop_drop, List.take_append_drop, List.take_append_drop]
  refine ⟨_, (message.drop i).take 2, (message'.drop i).take 2, _, cut message, ?_, ?_, ?_, fun same => ?_⟩
  · rw [before, after]
    exact cut message'
  · simp [corrupted.length]
  · exact List.length_take_le ..
  · apply corrupted.differ
    rw [cut message, cut message', before, after, same]

theorem LocallyCorrupted.map {α β : Type*} {f : α → β} (injective : Function.Injective f) {message message' : List α}
    (corrupted : LocallyCorrupted message message') : LocallyCorrupted (message.map f) (message'.map f) := by
  obtain ⟨length, differ, i, agree⟩ := corrupted
  refine ⟨by simpa using length, fun same => differ (injective.list_map same), i, fun j first second => ?_⟩
  rw [List.getElem?_map, List.getElem?_map, agree j first second]

/-- A register of 16 bits or more tells two strings apart that differ locally. -/
theorem remainder_detects {w : ℕ} {poly : BitVec w} (top : poly.msb = true) (wide : 16 ≤ w) (state : BitVec w)
    {message message' : List (BitVec 8)} (corrupted : LocallyCorrupted message message') :
    remainder poly state message ≠ remainder poly state message' := by
  obtain ⟨first, middle, middle', rest, rfl, rfl, length, short, differ⟩ := corrupted.split
  intro same
  rw [remainder_append, remainder_append, remainder_append, remainder_append] at same
  have reached := remainder_injective top rest same
  generalize remainder poly state first = state at reached
  -- at most two bytes were fed in between
  match middle, middle' with
  | [], [] => exact differ rfl
  | [a], [a'] => exact differ (by rw [absorb_byte_injective top (by omega) state reached])
  | [a, b], [a', b'] =>
    obtain ⟨rfl, rfl⟩ := absorb_bytes_injective top wide state reached
    exact differ rfl

end Library
