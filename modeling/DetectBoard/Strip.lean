import DetectBoard.Library.Memory
import Mathlib.Data.UInt
import Mathlib.Data.Nat.Bitwise

/-! The RGB strip: the buffer of cycles that `WS2812B_SetColor` of `WS2812B.c` fills, and how the
LEDs read it.
-/

set_option autoImplicit false

namespace DetectBoard.WS2812B

open Library

def t0h : UInt16 := 59
def t1h : UInt16 := 117
def resetCycles : ℕ := 64
def ledNum : UInt8 := 42

def color (r g b : UInt8) : UInt32 := (g.toUInt32 <<< 16) ||| (r.toUInt32 <<< 8) ||| b.toUInt32

/-- The cycles of one LED: green, red and blue, the highest bit first. -/
def ledCycles (r g b : UInt8) : List UInt16 :=
  (List.range 24).map fun i =>
    if color r g b &&& ((1 : UInt32) <<< UInt32.ofNat (23 - i)) ≠ 0 then t1h else t0h

/-- The first loop of `WS2812B_SetColor`, over `count` LEDs. -/
def fillLeds (r g b : UInt8) (count : ℕ) (pwmBuffer : Memory UInt16) : Memory UInt16 :=
  (List.range count).foldl (fun buffer j => buffer.store (j * 24) (ledCycles r g b)) pwmBuffer

/-- `WS2812B_SetColor`. Its loop runs to `ledNum` inclusive, one LED into the reset cycles. -/
def setColor (lastLed r g b : UInt8) (pwmBuffer : Memory UInt16) : Memory UInt16 :=
  (fillLeds r g b (lastLed.toNat + 1) pwmBuffer).store (ledNum.toNat * 24) (List.replicate resetCycles 0xFF)

/-- What is sent to a strip that shows this colour. -/
def stripCycles (r g b : UInt8) : List UInt16 :=
  (List.replicate ledNum.toNat (ledCycles r g b)).flatten ++ List.replicate resetCycles 0xFF

theorem ledCycles_length (r g b : UInt8) : (ledCycles r g b).length = 24 := by
  simp [ledCycles]

theorem fillLeds_succ (r g b : UInt8) (count : ℕ) (pwmBuffer : Memory UInt16) :
    fillLeds r g b (count + 1) pwmBuffer =
      (fillLeds r g b count pwmBuffer).store (count * 24) (ledCycles r g b) := by
  simp [fillLeds, List.range_succ]

theorem fillLeds_cells (r g b : UInt8) (count : ℕ) (pwmBuffer : Memory UInt16) :
    (fillLeds r g b count pwmBuffer).cells 0 (count * 24) = (List.replicate count (ledCycles r g b)).flatten := by
  induction count with
  | zero => rfl
  | succ count ih =>
    have next := Memory.cells_store_next (fillLeds r g b count pwmBuffer) (count * 24) (ledCycles r g b)
    rw [ledCycles_length, ← Nat.succ_mul, ih] at next
    rw [fillLeds_succ, next, List.replicate_succ', List.flatten_append, List.flatten_singleton]

theorem setColor_cells (r g b : UInt8) (pwmBuffer : Memory UInt16) :
    (setColor ledNum r g b pwmBuffer).cells 0 (ledNum.toNat * 24 + resetCycles) = stripCycles r g b := by
  have next := Memory.cells_store_next (fillLeds r g b (ledNum.toNat + 1) pwmBuffer) (ledNum.toNat * 24)
    (List.replicate resetCycles 0xFF)
  have kept : (fillLeds r g b (ledNum.toNat + 1) pwmBuffer).cells 0 (ledNum.toNat * 24) =
      (fillLeds r g b ledNum.toNat pwmBuffer).cells 0 (ledNum.toNat * 24) := by
    rw [fillLeds_succ]
    exact Memory.cells_congr fun i bound => Memory.store_below (by omega)
  rw [List.length_replicate] at next
  rw [setColor, next, kept, fillLeds_cells, stripCycles]

theorem color_toNat (r g b : UInt8) : (color r g b).toNat = g.toNat * 2 ^ 16 + (r.toNat * 2 ^ 8 + b.toNat) := by
  have red := r.toNat_lt
  have green := g.toNat_lt
  have blue := b.toNat_lt
  have low := Nat.shiftLeft_add_eq_or_of_lt (show b.toNat < 2 ^ 8 by omega) r.toNat
  have high := Nat.shiftLeft_add_eq_or_of_lt (show r.toNat <<< 8 + b.toNat < 2 ^ 16 by
    rw [Nat.shiftLeft_eq]; omega) g.toNat
  have first : (g.toUInt32 <<< 16).toNat = g.toNat <<< 16 := by
    rw [UInt32.toNat_shiftLeft, UInt8.toNat_toUInt32, Nat.shiftLeft_eq, Nat.shiftLeft_eq]
    exact Nat.mod_eq_of_lt (by simp only [UInt32.reduceToNat, Nat.reduceMod]; omega)
  have second : (r.toUInt32 <<< 8).toNat = r.toNat <<< 8 := by
    rw [UInt32.toNat_shiftLeft, UInt8.toNat_toUInt32, Nat.shiftLeft_eq, Nat.shiftLeft_eq]
    exact Nat.mod_eq_of_lt (by simp only [UInt32.reduceToNat, Nat.reduceMod]; omega)
  rw [color, UInt32.toNat_or, UInt32.toNat_or, first, second, UInt8.toNat_toUInt32, Nat.or_assoc, ← low, ← high,
    Nat.shiftLeft_eq, Nat.shiftLeft_eq]

theorem color_bit (r g b : UInt8) {k : ℕ} (bound : k < 24) :
    color r g b &&& ((1 : UInt32) <<< UInt32.ofNat k) ≠ 0 ↔ (color r g b).toNat.testBit k = true := by
  have shift : ((1 : UInt32) <<< UInt32.ofNat k).toNat = 2 ^ k := by
    have := Nat.pow_lt_pow_right (show 1 < 2 by decide) (show k < 32 by omega)
    rw [UInt32.toNat_shiftLeft, UInt32.toNat_ofNat_of_lt' (by simp only [UInt32.size]; omega),
      Nat.mod_eq_of_lt (show k < 32 by omega), Nat.shiftLeft_eq, show (1 : UInt32).toNat = 1 from rfl,
      Nat.one_mul, Nat.mod_eq_of_lt this]
  rw [ne_eq, ← UInt32.toNat_inj, UInt32.toNat_and, shift, Nat.and_two_pow]
  cases (color r g b).toNat.testBit k <;> simp

/-! ## What the LEDs read -/

/-- The bits of a byte, the highest first. -/
def byteBits (x : UInt8) : List Bool := (List.range 8).map fun i => x.toNat.testBit (7 - i)

def cycleOf (bit : Bool) : UInt16 := if bit then t1h else t0h

def readBit (cycle : UInt16) : Option Bool :=
  if cycle = t1h then some true else if cycle = t0h then some false else none

def readByte (cycles : List UInt16) : Option UInt8 :=
  (cycles.mapM readBit).map fun bits => .ofNat (BitVec.ofBoolListBE bits).toNat

/-- Green, red and blue, as one LED reads them. -/
def readLed (cycles : List UInt16) : Option (UInt8 × UInt8 × UInt8) := do
  let g ← readByte (cycles.take 8)
  let r ← readByte ((cycles.drop 8).take 8)
  let b ← readByte (cycles.drop 16)
  return (g, r, b)

theorem readBit_cycleOf (bit : Bool) : readBit (cycleOf bit) = some bit := by
  cases bit <;> decide

theorem readBits_cycles (bits : List Bool) : (bits.map cycleOf).mapM readBit = some bits := by
  induction bits with
  | nil => rfl
  | cons bit rest ih =>
    rw [List.map_cons, List.mapM_cons, readBit_cycleOf, ih]
    rfl

theorem byteBits_toNat (x : UInt8) : (BitVec.ofBoolListBE (byteBits x)).toNat = x.toNat := by
  apply Nat.eq_of_testBit_eq
  intro k
  rw [BitVec.testBit_toNat, BitVec.getLsbD_ofBoolListBE]
  by_cases bound : k < 8
  · have inside : 7 - k < 8 := by omega
    have back : 7 - (7 - k) = k := by omega
    simp [byteBits, bound, inside, back]
  · have high : x.toNat < 2 ^ k := Nat.lt_of_lt_of_le x.toNat_lt (Nat.pow_le_pow_right (by decide) (by omega))
    simp [byteBits, bound, Nat.testBit_lt_two_pow high]

theorem readByte_cycles (x : UInt8) : readByte ((byteBits x).map cycleOf) = some x := by
  rw [readByte, readBits_cycles, Option.map_some, byteBits_toNat, UInt8.ofNat_toNat]

theorem color_testBit (r g b : UInt8) (k : ℕ) : (color r g b).toNat.testBit k =
    if k < 16 then if k < 8 then b.toNat.testBit k else r.toNat.testBit (k - 8) else g.toNat.testBit (k - 16) := by
  have low : 2 ^ 8 * r.toNat + b.toNat < 2 ^ 16 := by
    have := r.toNat_lt
    have := b.toNat_lt
    omega
  rw [color_toNat, Nat.mul_comm, Nat.mul_comm r.toNat, Nat.testBit_two_pow_mul_add _ low,
    Nat.testBit_two_pow_mul_add _ b.toNat_lt]

theorem ledCycles_bytes (r g b : UInt8) :
    ledCycles r g b = (byteBits g ++ (byteBits r ++ byteBits b)).map cycleOf := by
  have cycles : ledCycles r g b = (List.range 24).map fun i => cycleOf ((color r g b).toNat.testBit (23 - i)) := by
    refine List.map_congr_left fun i member => ?_
    have bit := color_bit r g b (show 23 - i < 24 by omega)
    cases value : (color r g b).toNat.testBit (23 - i) with
    | true => exact if_pos (bit.mpr value)
    | false => exact if_neg fun set => Bool.false_ne_true (value.symm.trans (bit.mp set))
  rw [cycles]
  simp [color_testBit, byteBits, List.range_succ]

theorem readLed_ledCycles (r g b : UInt8) : readLed (ledCycles r g b) = some (g, r, b) := by
  have first : (ledCycles r g b).take 8 = (byteBits g).map cycleOf := by
    rw [ledCycles_bytes]
    rfl
  have second : ((ledCycles r g b).drop 8).take 8 = (byteBits r).map cycleOf := by
    rw [ledCycles_bytes]
    rfl
  have third : (ledCycles r g b).drop 16 = (byteBits b).map cycleOf := by
    rw [ledCycles_bytes]
    rfl
  rw [readLed, first, second, third, readByte_cycles, readByte_cycles, readByte_cycles]
  rfl

/-- Different colours are sent to the strip in different cycles. -/
theorem stripCycles_inj {r g b r' g' b' : UInt8} (same : stripCycles r g b = stripCycles r' g' b') :
    r = r' ∧ g = g' ∧ b = b' := by
  have first : ∀ r g b, (stripCycles r g b).take 24 = ledCycles r g b := fun r g b => by
    have count : ledNum.toNat = 41 + 1 := rfl
    rw [stripCycles, count, List.replicate_succ, List.flatten_cons, List.append_assoc,
      ← ledCycles_length r g b, List.take_left']
    rfl
  have led : readLed (ledCycles r g b) = readLed (ledCycles r' g' b') := by
    rw [← first, same, first]
  rw [readLed_ledCycles, readLed_ledCycles] at led
  simp only [Option.some.injEq, Prod.mk.injEq] at led
  exact ⟨led.2.1, led.1, led.2.2⟩

/-! ## One call -/

section SetColor

variable {r g b lastLed : UInt8} {pwmBuffer : Memory UInt16} {count j : ℕ}

theorem fillLeds_agree (r g b : UInt8) (count : ℕ) (pwmBuffer : Memory UInt16) :
    pwmBuffer.AgreeOutside 0 (count * 24) (fillLeds r g b count pwmBuffer) :=
  Memory.mapBlocks_agree fun _ _ => ledCycles_length r g b

theorem fillLeds_led (inside : j < count) : (fillLeds r g b count pwmBuffer).cells (j * 24) 24 = ledCycles r g b :=
  Memory.mapBlocks_cells (fun _ _ => ledCycles_length r g b) inside

theorem setColor_below (below : j < ledNum.toNat) :
    (setColor lastLed r g b pwmBuffer).cells (j * 24) 24 =
      (fillLeds r g b (lastLed.toNat + 1) pwmBuffer).cells (j * 24) 24 :=
  Memory.cells_congr fun i bound => Memory.store_below (by omega)

theorem setColor_led (below : j < ledNum.toNat) (inside : j ≤ lastLed.toNat) :
    readLed ((setColor lastLed r g b pwmBuffer).cells (j * 24) 24) = some (g, r, b) := by
  rw [setColor_below below, fillLeds_led (Nat.lt_succ_of_le inside), readLed_ledCycles]

theorem setColor_other (below : j < ledNum.toNat) (outside : lastLed.toNat < j) :
    (setColor lastLed r g b pwmBuffer).cells (j * 24) 24 = pwmBuffer.cells (j * 24) 24 := by
  rw [setColor_below below]
  exact (fillLeds_agree r g b (lastLed.toNat + 1) pwmBuffer).cells_eq (.inr (by omega))

theorem setColor_agree (le : lastLed ≤ ledNum) :
    pwmBuffer.AgreeOutside 0 (ledNum.toNat * 24 + resetCycles) (setColor lastLed r g b pwmBuffer) := by
  have last := UInt8.le_iff_toNat_le.mp le
  have room : (lastLed.toNat + 1) * 24 ≤ ledNum.toNat * 24 + resetCycles := by
    unfold resetCycles
    omega
  have filled := (fillLeds_agree r g b (lastLed.toNat + 1) pwmBuffer).mono (Nat.le_refl 0) room
  have stored := Memory.store_agree (fillLeds r g b (lastLed.toNat + 1) pwmBuffer) (ledNum.toNat * 24)
    (List.replicate resetCycles 0xFF)
  rw [List.length_replicate] at stored
  exact filled.trans (stored.mono (Nat.zero_le _) (Nat.le_refl _))

theorem setColor_reset : (setColor lastLed r g b pwmBuffer).cells (ledNum.toNat * 24) resetCycles =
    List.replicate resetCycles 0xFF := by
  have stored := Memory.cells_store (fillLeds r g b (lastLed.toNat + 1) pwmBuffer) (ledNum.toNat * 24)
    (List.replicate resetCycles 0xFF)
  rwa [List.length_replicate] at stored

/-- The LEDs up to `lastLed` show the colour, the later ones what they showed before, and the strip
is reset after the last one. -/
structure Shown (lastLed r g b : UInt8) (before after : Memory UInt16) : Prop where
  inside : before.AgreeOutside 0 (ledNum.toNat * 24 + resetCycles) after
  leds : ∀ j, j < lastLed.toNat → readLed (after.cells (j * 24) 24) = some (g, r, b)
  last : lastLed < ledNum → readLed (after.cells (lastLed.toNat * 24) 24) = some (g, r, b)
  others : ∀ j, lastLed.toNat < j → j < ledNum.toNat → after.cells (j * 24) 24 = before.cells (j * 24) 24
  reset : after.cells (ledNum.toNat * 24) resetCycles = List.replicate resetCycles 0xFF

/-- What a call writes can be read back. -/
theorem setColor_shown (r g b : UInt8) (pwmBuffer : Memory UInt16) (le : lastLed ≤ ledNum) :
    Shown lastLed r g b pwmBuffer (setColor lastLed r g b pwmBuffer) where
  inside := setColor_agree le
  leds _ before := setColor_led (Nat.lt_of_lt_of_le before (UInt8.le_iff_toNat_le.mp le)) before.le
  last below := setColor_led (UInt8.lt_iff_toNat_lt.mp below) (Nat.le_refl _)
  others _ after below := setColor_other below after
  reset := setColor_reset

end SetColor

theorem setColor_shown_all : Shown ledNum 1 2 3 (fun _ => 0) (setColor ledNum 1 2 3 fun _ => 0) :=
  setColor_shown 1 2 3 (fun _ => 0) (UInt8.le_refl ledNum)

end DetectBoard.WS2812B
