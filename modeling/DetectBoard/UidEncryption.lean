import DetectBoard.Library.ByteOrder
import DetectBoard.Library.Memory
import Mathlib.Logic.Function.DependsOn

/-! The keys of `UID_Encryption.c`, which are computed from the UID of the chip and a custom ID.

The custom ID is a memory: what lies behind the configured part is there to be
read. The key is stored apart from both IDs. The formulas are computed in `int`
and assigned to a `char`, which keeps the low byte.
-/

set_option autoImplicit false

namespace DetectBoard.UidEncryption

open Library

inductive KeyLengthType where
  | length4
  | length8
  | length12
  deriving DecidableEq, Repr

def KeyLengthType.bytes : KeyLengthType → ℕ
  | .length4 => 4
  | .length8 => 8
  | .length12 => 12

inductive EndiaType where
  | littleEndia
  | bigEndia
  deriving DecidableEq, Repr

inductive AlgorithmType where
  | algorithm0
  | algorithm1
  | algorithm2
  | algorithm3
  | algorithm4
  deriving DecidableEq, Repr

abbrev Uid := Fin 12 → UInt8

/-- The custom ID of `my_encry.c`. -/
def myCID : Memory UInt8 := Memory.store (fun _ => 0xFF) 0
  [0x15, 0x10, 0x21, 0x91, 0x12, 0x41, 0x51, 0x36, 0x74, 0x51, 0x20, 0x05]

/-! ## The algorithms -/

/-- The bytes that an algorithm assigns: the first four in any case, then four more for a key of
eight bytes, or all of them anew for a key of twelve. -/
structure Formulas where
  first : List UInt8
  second : List UInt8
  whole : List UInt8
  lengths : first.length = 4 ∧ second.length = 4 ∧ whole.length = 12

/-- The assignments to `pKey` of an algorithm. -/
def Formulas.write (formulas : Formulas) (keyLength : KeyLengthType) (pKey : Memory UInt8) : Memory UInt8 :=
  let pKey := pKey.store 0 formulas.first
  let pKey := if keyLength = .length8 then pKey.store 4 formulas.second else pKey
  if keyLength = .length12 then pKey.store 0 formulas.whole else pKey

def algorithm0 (pCustomID : Memory UInt8) (pUID : Uid) : Formulas where
  first := [
    (pUID 0 ^^^ (pCustomID 3 &&& pCustomID 2)) ^^^ pCustomID 1,
    pCustomID 1 ||| (pUID 2 ^^^ (pCustomID 3 &&& pCustomID 3)),
    (pCustomID 2 ^^^ pCustomID 1) ||| (pUID 0 ^^^ pCustomID 0),
    ((pCustomID 3 &&& pCustomID 0) ^^^ pCustomID 1) ||| pUID 2]
  second := [
    (pUID 4 ^^^ (pCustomID 7 &&& pCustomID 5)) ^^^ pCustomID 5,
    pCustomID 5 ||| (pUID 6 ^^^ (pCustomID 4 &&& pCustomID 7)),
    (pCustomID 6 ^^^ pCustomID 5) ||| (pUID 7 ^^^ pCustomID 4),
    ((pCustomID 7 &&& pCustomID 4) ^^^ pCustomID 6) ||| pUID 6]
  whole := [
    (pUID 0 ^^^ (pCustomID 1 &&& pCustomID 2)) ^^^ pCustomID 3,
    pCustomID 1 ||| (pUID 1 ^^^ (pCustomID 3 &&& pCustomID 4)),
    (pCustomID 2 ^^^ pCustomID 1) ||| (pUID 2 ^^^ pCustomID 5),
    ((pCustomID 3 &&& pCustomID 1) ^^^ pCustomID 5) ||| pUID 3,
    (pUID 4 ^^^ (pCustomID 5 &&& pCustomID 6)) ^^^ pCustomID 7,
    pCustomID 5 ||| (pUID 5 ^^^ (pCustomID 7 &&& pCustomID 8)),
    (pCustomID 6 ^^^ pCustomID 7) ||| (pUID 6 ^^^ pCustomID 9),
    ((pCustomID 7 &&& pCustomID 8) ^^^ pCustomID 9) ||| pUID 7,
    (pUID 8 ^^^ (pCustomID 9 &&& pCustomID 10)) ^^^ pCustomID 11,
    pCustomID 9 ||| (pUID 9 ^^^ (pCustomID 11 &&& pCustomID 0)),
    (pCustomID 10 ^^^ pCustomID 11) ||| (pUID 0 ^^^ pCustomID 1),
    ((pCustomID 11 &&& pCustomID 0) ^^^ pCustomID 1) ||| pUID 2]
  lengths := ⟨rfl, rfl, rfl⟩

def algorithm1 (pCustomID : Memory UInt8) (pUID : Uid) : Formulas where
  first := [
    ((pUID 0 ^^^ pCustomID 1) ^^^ pCustomID 2) ^^^ pCustomID 3,
    ((pCustomID 1 ^^^ pUID 1) ^^^ pCustomID 3) ^^^ pCustomID 0,
    ((pCustomID 2 ^^^ pCustomID 1) ^^^ pUID 2) ^^^ pCustomID 3,
    ((pCustomID 3 ^^^ pCustomID 1) ^^^ pCustomID 0) ^^^ pUID 3]
  second := [
    ((pUID 4 ^^^ pCustomID 5) ^^^ pCustomID 6) ^^^ pCustomID 7,
    ((pCustomID 5 ^^^ pUID 5) ^^^ pCustomID 7) ^^^ pCustomID 2,
    ((pCustomID 6 ^^^ pCustomID 7) ^^^ pUID 6) ^^^ pCustomID 3,
    ((pCustomID 7 ^^^ pCustomID 4) ^^^ pCustomID 5) ^^^ pUID 4]
  whole := [
    ((pUID 0 ^^^ pCustomID 1) ^^^ pCustomID 2) ^^^ pCustomID 3,
    ((pCustomID 1 ^^^ pUID 1) ^^^ pCustomID 3) ^^^ pCustomID 4,
    ((pCustomID 2 ^^^ pCustomID 1) ^^^ pUID 2) ^^^ pCustomID 5,
    ((pCustomID 3 ^^^ pCustomID 1) ^^^ pCustomID 5) ^^^ pUID 3,
    ((pUID 4 ^^^ pCustomID 5) ^^^ pCustomID 6) ^^^ pCustomID 7,
    ((pCustomID 5 ^^^ pUID 5) ^^^ pCustomID 7) ^^^ pCustomID 8,
    ((pCustomID 6 ^^^ pCustomID 7) ^^^ pUID 6) ^^^ pCustomID 9,
    ((pCustomID 7 ^^^ pCustomID 8) ^^^ pCustomID 9) ^^^ pUID 7,
    ((pUID 8 ^^^ pCustomID 9) ^^^ pCustomID 10) ^^^ pCustomID 11,
    ((pCustomID 9 ^^^ pUID 9) ^^^ pCustomID 11) ^^^ pCustomID 0,
    ((pCustomID 10 ^^^ pCustomID 11) ^^^ pUID 0) ^^^ pCustomID 1,
    ((pCustomID 11 ^^^ pCustomID 0) ^^^ pCustomID 1) ^^^ pUID 2]
  lengths := ⟨rfl, rfl, rfl⟩

def algorithm2 (pCustomID : Memory UInt8) (pUID : Uid) : Formulas where
  first := [
    ((pUID 0 &&& pCustomID 1) ^^^ pCustomID 2) ^^^ pCustomID 3,
    (pCustomID 1 ^^^ (pUID 1 &&& pCustomID 3)) ^^^ pCustomID 0,
    (pCustomID 2 ||| (pCustomID 1 ^^^ pUID 2)) ||| pCustomID 3,
    (pCustomID 3 ^^^ pCustomID 1) ||| (pCustomID 0 ^^^ pUID 3)]
  second := [
    (pUID 4 ^^^ (pCustomID 5 &&& pCustomID 6)) ^^^ pCustomID 7,
    pCustomID 5 ||| (pUID 5 ^^^ (pCustomID 7 &&& pCustomID 2)),
    ((pCustomID 6 &&& pCustomID 7) ^^^ pUID 6) ||| pCustomID 3,
    (pCustomID 7 ^^^ pCustomID 4) ||| (pCustomID 1 ^^^ pUID 2)]
  whole := [
    ((pUID 0 &&& pCustomID 1) ^^^ pCustomID 2) ^^^ pCustomID 3,
    (pCustomID 1 ^^^ (pUID 1 &&& pCustomID 3)) ^^^ pCustomID 4,
    (pCustomID 2 ||| (pCustomID 1 ^^^ pUID 2)) ||| pCustomID 5,
    (pCustomID 3 ^^^ pCustomID 1) ||| (pCustomID 5 ^^^ pUID 3),
    (pUID 4 ^^^ (pCustomID 5 &&& pCustomID 6)) ^^^ pCustomID 7,
    pCustomID 5 ||| (pUID 5 ^^^ (pCustomID 7 &&& pCustomID 8)),
    ((pCustomID 6 &&& pCustomID 7) ^^^ pUID 6) ||| pCustomID 9,
    (pCustomID 7 ^^^ pCustomID 8) ||| (pCustomID 9 ^^^ pUID 7),
    (pUID 8 ^^^ (pCustomID 9 &&& pCustomID 10)) ^^^ pCustomID 11,
    (pCustomID 9 ^^^ pUID 9) ||| (pCustomID 11 &&& pCustomID 0),
    ((pCustomID 10 &&& pCustomID 11) ^^^ pUID 0) ^^^ pCustomID 1,
    (pCustomID 11 ^^^ (pCustomID 0 &&& pCustomID 1)) ^^^ pUID 2]
  lengths := ⟨rfl, rfl, rfl⟩

def algorithm3 (pCustomID : Memory UInt8) (pUID : Uid) : Formulas where
  first := [
    ((pUID 0 &&& pCustomID 1) ^^^ pCustomID 2) ^^^ pCustomID 3,
    (pUID 1 ^^^ (pCustomID 2 &&& pCustomID 3)) ^^^ pCustomID 4,
    (pUID 2 ||| (pCustomID 3 ^^^ pCustomID 4)) ||| pCustomID 5,
    (pUID 3 ^^^ pCustomID 4) ||| (pCustomID 5 ^^^ pCustomID 6)]
  second := [
    (pCustomID 4 ^^^ (pUID 5 &&& pCustomID 6)) ^^^ pCustomID 7,
    pCustomID 5 ||| (pUID 6 ^^^ (pCustomID 7 &&& pCustomID 4)),
    ((pCustomID 6 &&& pUID 7) ^^^ pCustomID 6) ||| pCustomID 3,
    (pCustomID 7 ^^^ pUID 4) ||| (pCustomID 5 ^^^ pCustomID 6)]
  whole := [
    ((pUID 0 &&& pCustomID 1) ^^^ pCustomID 2) ^^^ pCustomID 3,
    (pUID 1 ^^^ (pCustomID 2 &&& pCustomID 3)) ^^^ pCustomID 4,
    (pUID 2 ||| (pCustomID 3 ^^^ pCustomID 4)) ||| pCustomID 5,
    (pUID 3 ^^^ pCustomID 4) ||| (pCustomID 5 ^^^ pCustomID 6),
    (pCustomID 4 ^^^ (pUID 5 &&& pCustomID 6)) ^^^ pCustomID 7,
    pCustomID 5 ||| (pUID 6 ^^^ (pCustomID 7 &&& pCustomID 8)),
    ((pCustomID 6 &&& pUID 7) ^^^ pCustomID 6) ||| pCustomID 9,
    (pCustomID 7 ^^^ pUID 8) ||| (pCustomID 9 ^^^ pCustomID 10),
    (pCustomID 8 ^^^ (pCustomID 9 &&& pUID 10)) ^^^ pCustomID 11,
    (pCustomID 9 ^^^ pCustomID 10) ||| (pUID 11 &&& pCustomID 0),
    ((pCustomID 10 &&& pCustomID 11) ^^^ pUID 0) ^^^ pCustomID 1,
    (pCustomID 11 ^^^ (pCustomID 0 &&& pUID 1)) ^^^ pCustomID 2]
  lengths := ⟨rfl, rfl, rfl⟩

def algorithm4 (pCustomID : Memory UInt8) (pUID : Uid) : Formulas where
  first := [
    (pUID 0 &&& pCustomID 1) ^^^ (pUID 2 &&& pCustomID 3),
    (pCustomID 1 ^^^ (pUID 2 &&& pCustomID 3)) ^^^ pUID 4,
    (pCustomID 2 ||| (pUID 3 ^^^ pUID 4)) ||| pCustomID 3,
    (pUID 3 - pCustomID 0) ||| (pCustomID 2 ^^^ pUID 3)]
  second := [
    (pUID 4 ^^^ (pCustomID 5 &&& pUID 6)) ^^^ pCustomID 7,
    pCustomID 5 ||| (pUID 6 ^^^ (pCustomID 7 &&& pUID 8)),
    ((pCustomID 6 &&& pUID 7) ^^^ pCustomID 6) ||| pUID 9,
    (pUID 7 - pCustomID 3) ||| (pUID 9 ^^^ pCustomID 5)]
  whole := [
    (pUID 0 &&& pCustomID 1) ^^^ (pUID 2 &&& pCustomID 3),
    (pCustomID 1 ^^^ (pUID 2 &&& pCustomID 3)) ^^^ pUID 4,
    (pCustomID 2 ||| (pUID 3 ^^^ pUID 4)) ||| pCustomID 5,
    (pUID 3 - pCustomID 4) ||| (pCustomID 5 ^^^ pUID 6),
    (pUID 4 ^^^ (pCustomID 5 &&& pUID 6)) ^^^ pCustomID 7,
    pCustomID 5 ||| (pUID 6 ^^^ (pCustomID 7 &&& pUID 8)),
    ((pCustomID 6 &&& pUID 7) ^^^ pCustomID 6) ||| pUID 9,
    (pUID 7 - pCustomID 8) ||| (pUID 9 ^^^ pCustomID 10),
    (pCustomID 8 ^^^ (pUID 9 &&& pCustomID 10)) ^^^ pUID 11,
    (pUID 9 ^^^ pCustomID 10) ||| (pUID 11 &&& pCustomID 0),
    ((pUID 10 &&& pCustomID 11) ^^^ pUID 0) ^^^ pCustomID 1,
    ((pCustomID 11 - pUID 0) &&& pCustomID 1) ^^^ pUID 2]
  lengths := ⟨rfl, rfl, rfl⟩

def algorithmFunArray : AlgorithmType → Memory UInt8 → Uid → Formulas
  | .algorithm0 => algorithm0
  | .algorithm1 => algorithm1
  | .algorithm2 => algorithm2
  | .algorithm3 => algorithm3
  | .algorithm4 => algorithm4

/-! ## The key -/

def bigLittleSwap32 (a : UInt32) : UInt32 :=
  (a &&& 0xFF000000) >>> 24 ||| (a &&& 0x00FF0000) >>> 8 ||| (a &&& 0x0000FF00) <<< 8 ||| (a &&& 0x000000FF) <<< 24

def littleEndiaBigEndiaInterconvert32 (pBuffer : Memory UInt8) (wordLen : ℕ) : Memory UInt8 :=
  pBuffer.mapBlocks 4 wordLen fun bytes => bytesOf (bigLittleSwap32 (wordOf bytes))

def uidEncryptionKeyCalculate (pKey : Memory UInt8) (pUID : Uid) (pCustomID : Memory UInt8)
    (keyLength : KeyLengthType) (endiaType : EndiaType) (algorithmNum : AlgorithmType) : Memory UInt8 :=
  let pKey := (algorithmFunArray algorithmNum pCustomID pUID).write keyLength pKey
  if endiaType = .bigEndia then littleEndiaBigEndiaInterconvert32 pKey (keyLength.bytes / 4) else pKey

/-- `UID_Encryption_Key_Check`, which computes a key of its own in a cleared buffer, with the statements
of `UID_Encryption_Key_Calculate`, and stops at the first byte that differs. -/
def uidEncryptionKeyCheck (pKey : Memory UInt8) (pUID : Uid) (pCustomID : Memory UInt8)
    (keyLength : KeyLengthType) (endiaType : EndiaType) (algorithmNum : AlgorithmType) : UInt8 :=
  let keyBuf := uidEncryptionKeyCalculate (fun _ => 0) pUID pCustomID keyLength endiaType algorithmNum
  if (List.range keyLength.bytes).any fun i => pKey i != keyBuf i then 1 else 0

theorem bytesOf_swap (a : UInt32) : bytesOf (bigLittleSwap32 a) = (bytesOf a).reverse := by
  simp only [bigLittleSwap32, bytesOf, List.reverse_cons, List.reverse_nil, List.nil_append, List.cons_append,
    List.cons.injEq, and_true, ← UInt8.toBitVec_inj]
  refine ⟨?_, ?_, ?_, ?_⟩
  all_goals
    ext i bound
    interval_cases i <;> simp

theorem swapped_reverse {bytes : List UInt8} (four : bytes.length = 4) :
    bytesOf (bigLittleSwap32 (wordOf bytes)) = bytes.reverse := by
  rw [bytesOf_swap, bytesOf_wordOf four]

theorem interconvert_agree (pBuffer : Memory UInt8) (wordLen : ℕ) :
    pBuffer.AgreeOutside 0 (wordLen * 4) (littleEndiaBigEndiaInterconvert32 pBuffer wordLen) :=
  Memory.mapBlocks_agree fun _ _ => bytesOf_length _

theorem interconvert_cells_iff (pBuffer pBuffer' : Memory UInt8) (wordLen : ℕ) :
    (littleEndiaBigEndiaInterconvert32 pBuffer wordLen).cells 0 (wordLen * 4) =
        (littleEndiaBigEndiaInterconvert32 pBuffer' wordLen).cells 0 (wordLen * 4) ↔
      pBuffer.cells 0 (wordLen * 4) = pBuffer'.cells 0 (wordLen * 4) := by
  refine Memory.mapBlocks_cells_inj (fun _ _ => bytesOf_length _) fun block block' four four' same => ?_
  rw [swapped_reverse four, swapped_reverse four'] at same
  exact List.reverse_inj.mp same

/-- The key before the exchange of the byte order. -/
def Formulas.key (formulas : Formulas) : KeyLengthType → List UInt8
  | .length4 => formulas.first
  | .length8 => formulas.first ++ formulas.second
  | .length12 => formulas.whole

theorem Formulas.write_cells (formulas : Formulas) (keyLength : KeyLengthType) (pKey : Memory UInt8) :
    (formulas.write keyLength pKey).cells 0 keyLength.bytes = formulas.key keyLength := by
  obtain ⟨four, four', twelve⟩ := formulas.lengths
  have first := Memory.cells_store pKey 0 formulas.first
  rw [four] at first
  cases keyLength with
  | length4 => exact first
  | length8 =>
    have second := Memory.cells_store_next (pKey.store 0 formulas.first) 4 formulas.second
    rw [four', first] at second
    exact second
  | length12 =>
    have whole := Memory.cells_store (pKey.store 0 formulas.first) 0 formulas.whole
    rw [twelve] at whole
    exact whole

theorem Formulas.write_agree (formulas : Formulas) (keyLength : KeyLengthType) (pKey : Memory UInt8) :
    pKey.AgreeOutside 0 keyLength.bytes (formulas.write keyLength pKey) := by
  obtain ⟨four, four', twelve⟩ := formulas.lengths
  have first := Memory.store_agree pKey 0 formulas.first
  rw [four] at first
  cases keyLength with
  | length4 => exact first
  | length8 =>
    have second := Memory.store_agree (pKey.store 0 formulas.first) 4 formulas.second
    rw [four'] at second
    exact (first.mono (Nat.le_refl 0) (by decide)).trans (second.mono (by decide) (by decide))
  | length12 =>
    have whole := Memory.store_agree (pKey.store 0 formulas.first) 0 formulas.whole
    rw [twelve] at whole
    exact (first.mono (Nat.le_refl 0) (by decide)).trans whole

section Key

variable {pKey pKey' pCustomID pCustomID' : Memory UInt8} {pUID pUID' : Uid} {keyLength : KeyLengthType}
  {endiaType : EndiaType} {algorithmNum : AlgorithmType}

/-- Neither what the buffer held before nor the byte order matters for whether two keys are the same. -/
theorem calculate_cells_iff :
    (uidEncryptionKeyCalculate pKey pUID pCustomID keyLength endiaType algorithmNum).cells 0 keyLength.bytes =
        (uidEncryptionKeyCalculate pKey' pUID' pCustomID' keyLength endiaType algorithmNum).cells 0 keyLength.bytes ↔
      (algorithmFunArray algorithmNum pCustomID pUID).key keyLength =
        (algorithmFunArray algorithmNum pCustomID' pUID').key keyLength := by
  have words : keyLength.bytes / 4 * 4 = keyLength.bytes := by
    cases keyLength <;> rfl
  unfold uidEncryptionKeyCalculate
  cases endiaType with
  | littleEndia => rw [if_neg (by decide), if_neg (by decide), Formulas.write_cells, Formulas.write_cells]
  | bigEndia =>
    have swapped := interconvert_cells_iff ((algorithmFunArray algorithmNum pCustomID pUID).write keyLength pKey)
      ((algorithmFunArray algorithmNum pCustomID' pUID').write keyLength pKey') (keyLength.bytes / 4)
    rw [words, Formulas.write_cells, Formulas.write_cells] at swapped
    exact swapped

/-- A key is stored inside a buffer of its length. -/
theorem calculate_agree : pKey.AgreeOutside 0 keyLength.bytes
    (uidEncryptionKeyCalculate pKey pUID pCustomID keyLength endiaType algorithmNum) := by
  have written := (algorithmFunArray algorithmNum pCustomID pUID).write_agree keyLength pKey
  unfold uidEncryptionKeyCalculate
  cases endiaType with
  | littleEndia => exact written
  | bigEndia =>
    have swapped := interconvert_agree ((algorithmFunArray algorithmNum pCustomID pUID).write keyLength pKey)
      (keyLength.bytes / 4)
    exact written.trans (swapped.mono (Nat.le_refl 0) (Nat.div_mul_le_self ..))

theorem check_eq : uidEncryptionKeyCheck pKey pUID pCustomID keyLength endiaType algorithmNum =
    if pKey.cells 0 keyLength.bytes =
        (uidEncryptionKeyCalculate (fun _ => 0) pUID pCustomID keyLength endiaType algorithmNum).cells 0 keyLength.bytes
      then 0 else 1 := by
  have differ : ∀ keyBuf : Memory UInt8, ((List.range keyLength.bytes).any fun i => pKey i != keyBuf i) = true ↔
      ¬ pKey.cells 0 keyLength.bytes = keyBuf.cells 0 keyLength.bytes := fun keyBuf => by
    simp [Memory.cells, List.any_eq_true]
  unfold uidEncryptionKeyCheck
  dsimp only
  rw [if_congr (differ _) rfl rfl, ite_not]

/-- A key that was calculated passes the check. -/
theorem check_calculated : uidEncryptionKeyCheck
    (uidEncryptionKeyCalculate pKey pUID pCustomID keyLength endiaType algorithmNum)
    pUID pCustomID keyLength endiaType algorithmNum = 0 := by
  rw [check_eq, if_pos (calculate_cells_iff.mpr rfl)]

end Key

/-! ## What a key depends on -/

/-- Up to where an algorithm reads the custom ID. -/
def reach : AlgorithmType → KeyLengthType → ℕ
  | .algorithm3, .length4 => 7
  | _, keyLength => keyLength.bytes

theorem key_dependsOn (algorithmNum : AlgorithmType) (keyLength : KeyLengthType) (pUID : Uid) :
    DependsOn (fun pCustomID => (algorithmFunArray algorithmNum pCustomID pUID).key keyLength)
      (Set.Iio (reach algorithmNum keyLength)) := by
  intro pCustomID pCustomID' same
  have same : ∀ i, i < reach algorithmNum keyLength → pCustomID i = pCustomID' i := fun i bound => same i bound
  cases algorithmNum <;> cases keyLength <;>
    simp (disch := decide) only [algorithmFunArray, algorithm0, algorithm1, algorithm2, algorithm3, algorithm4,
      Formulas.key, same]

/-- The first bytes of the two keys are the same, and the same stored keys pass the check. -/
structure SameKey (algorithmNum : AlgorithmType) (keyLength : KeyLengthType) (endiaType : EndiaType) (pUID : Uid)
    (pCustomID pCustomID' : Memory UInt8) : Prop where
  calculated : ∀ pKey pKey',
    (uidEncryptionKeyCalculate pKey pUID pCustomID keyLength endiaType algorithmNum).cells 0 keyLength.bytes =
      (uidEncryptionKeyCalculate pKey' pUID pCustomID' keyLength endiaType algorithmNum).cells 0 keyLength.bytes
  verdict : ∀ pKey, uidEncryptionKeyCheck pKey pUID pCustomID keyLength endiaType algorithmNum =
    uidEncryptionKeyCheck pKey pUID pCustomID' keyLength endiaType algorithmNum

theorem sameKey_iff {algorithmNum : AlgorithmType} {keyLength : KeyLengthType} {endiaType : EndiaType} {pUID : Uid}
    {pCustomID pCustomID' : Memory UInt8} : SameKey algorithmNum keyLength endiaType pUID pCustomID pCustomID' ↔
      (algorithmFunArray algorithmNum pCustomID pUID).key keyLength =
        (algorithmFunArray algorithmNum pCustomID' pUID).key keyLength := by
  constructor
  · intro same
    exact calculate_cells_iff.mp (same.calculated (fun _ => 0) fun _ => 0)
  · intro same
    refine ⟨fun _ _ => calculate_cells_iff.mpr same, fun pKey => ?_⟩
    rw [check_eq, check_eq, calculate_cells_iff.mpr same]

theorem or_and_not (mask x : UInt8) : (mask ||| x) &&& ~~~mask = x &&& ~~~mask := by
  apply UInt8.toBitVec_inj.mp
  ext i bound
  cases bit : mask.toBitVec[i] <;> simp [bit]

theorem or_absorb (mask x : UInt8) : mask ||| (x &&& ~~~mask) = mask ||| x := by
  apply UInt8.toBitVec_inj.mp
  ext i bound
  cases bit : mask.toBitVec[i] <;> simp [bit]

/-- A byte is seen through an or in the bits that are clear. -/
theorem or_eq_or_iff {mask x y : UInt8} : mask ||| x = mask ||| y ↔ x &&& ~~~mask = y &&& ~~~mask := by
  constructor
  · intro same
    rw [← or_and_not mask x, same, or_and_not]
  · intro same
    rw [← or_absorb mask x, same, or_absorb]

/-- What `Algorithm_3` makes of the three bytes behind a custom ID of four bytes is the same. -/
structure SameBehind (pUID : Uid) (pCustomID pCustomID' : Memory UInt8) : Prop where
  fifth : pCustomID 4 = pCustomID' 4
  sixth : pCustomID 5 &&& ~~~(pUID 2 ||| (pCustomID 3 ^^^ pCustomID 4)) =
    pCustomID' 5 &&& ~~~(pUID 2 ||| (pCustomID 3 ^^^ pCustomID 4))
  seventh : (pCustomID 5 ^^^ pCustomID 6) &&& ~~~(pUID 3 ^^^ pCustomID 4) =
    (pCustomID' 5 ^^^ pCustomID' 6) &&& ~~~(pUID 3 ^^^ pCustomID 4)

section Configured

variable {algorithmNum : AlgorithmType} {keyLength : KeyLengthType} {pUID : Uid} {pCustomID pCustomID' : Memory UInt8}

theorem key_configured (agree : ∀ i, i < keyLength.bytes → pCustomID i = pCustomID' i)
    (other : ¬ (algorithmNum = .algorithm3 ∧ keyLength = .length4)) :
    (algorithmFunArray algorithmNum pCustomID pUID).key keyLength =
      (algorithmFunArray algorithmNum pCustomID' pUID).key keyLength := by
  have inside : reach algorithmNum keyLength = keyLength.bytes := by
    cases algorithmNum <;> cases keyLength <;> first | rfl | exact absurd ⟨rfl, rfl⟩ other
  exact key_dependsOn algorithmNum keyLength pUID fun i bound => agree i (inside ▸ bound)

theorem key_behind_iff (agree : ∀ i, i < 4 → pCustomID i = pCustomID' i) :
    (algorithm3 pCustomID pUID).key .length4 = (algorithm3 pCustomID' pUID).key .length4 ↔
      SameBehind pUID pCustomID pCustomID' := by
  have agree : ∀ i, i < 4 → pCustomID' i = pCustomID i := fun i bound => (agree i bound).symm
  simp (disch := decide) only [algorithm3, Formulas.key, agree, List.cons.injEq, and_true, true_and,
    UInt8.xor_right_inj]
  constructor
  · rintro ⟨fifth, third, fourth⟩
    rw [← fifth] at third fourth
    exact ⟨fifth, or_eq_or_iff.mp third, or_eq_or_iff.mp fourth⟩
  · intro same
    rw [← same.fifth]
    exact ⟨rfl, or_eq_or_iff.mpr same.sixth, or_eq_or_iff.mpr same.seventh⟩

end Configured

/-- A key uses only the configured part of the custom ID, `Algorithm_3` with a key of four bytes
apart, which reads the next three bytes too. -/
theorem uid_key_configured_iff (algorithmNum : AlgorithmType) (keyLength : KeyLengthType) (endiaType : EndiaType)
    (pUID : Uid) (pCustomID pCustomID' : Memory UInt8)
    (agree : ∀ i, i < keyLength.bytes → pCustomID i = pCustomID' i) :
    SameKey algorithmNum keyLength endiaType pUID pCustomID pCustomID' ↔
      (algorithmNum = .algorithm3 ∧ keyLength = .length4 → SameBehind pUID pCustomID pCustomID') := by
  rw [sameKey_iff]
  by_cases affected : algorithmNum = .algorithm3 ∧ keyLength = .length4
  · obtain ⟨rfl, rfl⟩ := affected
    rw [show algorithmFunArray .algorithm3 = algorithm3 from rfl, key_behind_iff agree]
    exact ⟨fun same _ => same, fun same => same ⟨rfl, rfl⟩⟩
  · exact iff_of_true (key_configured agree affected) fun both => absurd both affected

theorem uid_key_configured_twelve :
    SameKey .algorithm0 .length12 .littleEndia (fun _ => 0x5A) myCID (myCID.store 12 [0x00]) :=
  (uid_key_configured_iff .algorithm0 .length12 .littleEndia (fun _ => 0x5A) myCID (myCID.store 12 [0x00])
    (by decide)).mpr fun both => absurd both.1 (by decide)

theorem uid_key_reads_behind :
    (∀ i, i < 4 → myCID i = myCID.store 4 [0x00] i) ∧
      ¬ SameKey .algorithm3 .length4 .littleEndia (fun _ => 0) myCID (myCID.store 4 [0x00]) := by
  refine ⟨by decide, fun same => ?_⟩
  have key := same.calculated (fun _ => 0) fun _ => 0
  revert key
  decide

/-! ## The check against the calculation -/

section Check

variable (pKey pCustomID : Memory UInt8) (pUID pUID' : Uid) (keyLength : KeyLengthType) (endiaType : EndiaType)
  (algorithmNum : AlgorithmType)

/-- The check accepts the keys that begin like the calculated one, which is written inside its own length and has the
bytes of each word turned over in the other byte order. -/
theorem uid_key_round_trip :
    pKey.AgreeOutside 0 keyLength.bytes
        (uidEncryptionKeyCalculate pKey pUID pCustomID keyLength endiaType algorithmNum) ∧
      (∀ stored : Memory UInt8, uidEncryptionKeyCheck stored pUID pCustomID keyLength endiaType algorithmNum = 0 ↔
        stored.cells 0 keyLength.bytes =
          (uidEncryptionKeyCalculate pKey pUID pCustomID keyLength endiaType algorithmNum).cells 0 keyLength.bytes) ∧
      ∀ word, word < keyLength.bytes / 4 →
        (uidEncryptionKeyCalculate pKey pUID pCustomID keyLength .bigEndia algorithmNum).cells (word * 4) 4 =
          ((uidEncryptionKeyCalculate pKey pUID pCustomID keyLength .littleEndia algorithmNum).cells (word * 4) 4).reverse := by
  refine ⟨calculate_agree, fun stored => ?_, fun word inside => ?_⟩
  · have same : (uidEncryptionKeyCalculate pKey pUID pCustomID keyLength endiaType algorithmNum).cells 0 keyLength.bytes =
        (uidEncryptionKeyCalculate (fun _ => 0) pUID pCustomID keyLength endiaType algorithmNum).cells 0 keyLength.bytes :=
      calculate_cells_iff.mpr rfl
    rw [check_eq, same]
    split
    · next accepted => exact iff_of_true rfl accepted
    · next refused => exact iff_of_false (by decide) refused
  · have swapped (pKey : Memory UInt8) : (littleEndiaBigEndiaInterconvert32 pKey (keyLength.bytes / 4)).cells (word * 4) 4 =
        (pKey.cells (word * 4) 4).reverse :=
      (Memory.mapBlocks_cells (fun _ _ => bytesOf_length _) inside).trans (swapped_reverse Memory.cells_length)
    exact swapped _

/-- The bits of each byte of the UID that the key of the configured algorithm shows. -/
def shownBits : List UInt8 :=
  [0xFF, ~~~pCustomID 1, ~~~(pCustomID 2 ^^^ pCustomID 1) ||| ~~~((pCustomID 11 &&& pCustomID 0) ^^^ pCustomID 1),
    ~~~((pCustomID 3 &&& pCustomID 1) ^^^ pCustomID 5), 0xFF, ~~~pCustomID 5, ~~~(pCustomID 6 ^^^ pCustomID 7),
    ~~~((pCustomID 7 &&& pCustomID 8) ^^^ pCustomID 9), 0xFF, ~~~pCustomID 9, 0, 0]

theorem xor_and_cancel (mask x y z : UInt8) : (x ^^^ z) &&& mask = (y ^^^ z) &&& mask ↔ x &&& mask = y &&& mask := by
  have distribute (a : UInt8) : (a ^^^ z) &&& mask = (a &&& mask) ^^^ (z &&& mask) := by
    apply UInt8.toBitVec_inj.mp
    ext i bound
    cases bit : mask.toBitVec[i] <;> simp [bit]
  rw [distribute, distribute, UInt8.xor_left_inj]

theorem and_or_iff (mask mask' x y : UInt8) :
    x &&& (mask ||| mask') = y &&& (mask ||| mask') ↔ x &&& mask = y &&& mask ∧ x &&& mask' = y &&& mask' := by
  have within (a : UInt8) : (a &&& (mask ||| mask')) &&& mask = a &&& mask ∧
      (a &&& (mask ||| mask')) &&& mask' = a &&& mask' ∧ a &&& (mask ||| mask') = a &&& mask ||| a &&& mask' := by
    refine ⟨?_, ?_, ?_⟩ <;> apply UInt8.toBitVec_inj.mp <;> ext i bound <;>
      cases bit : mask.toBitVec[i] <;> cases bit' : mask'.toBitVec[i] <;> simp [bit, bit']
  constructor
  · intro same
    exact ⟨by rw [← (within x).1, same, (within y).1], by rw [← (within x).2.1, same, (within y).2.1]⟩
  · rintro ⟨first, second⟩
    rw [(within x).2.2, (within y).2.2, first, second]

theorem sameVerdict_iff : (∀ stored, uidEncryptionKeyCheck stored pUID pCustomID keyLength endiaType algorithmNum =
      uidEncryptionKeyCheck stored pUID' pCustomID keyLength endiaType algorithmNum) ↔
    (algorithmFunArray algorithmNum pCustomID pUID).key keyLength =
      (algorithmFunArray algorithmNum pCustomID pUID').key keyLength := by
  constructor
  · intro same
    have accepted := same (uidEncryptionKeyCalculate (fun _ => 0) pUID pCustomID keyLength endiaType algorithmNum)
    rw [check_calculated, check_eq] at accepted
    split at accepted
    · next equal => exact calculate_cells_iff.mp equal
    · exact absurd accepted (by decide)
  · intro same stored
    rw [check_eq, check_eq, calculate_cells_iff.mpr same]

/-- Two chips pass the check with the same keys if and only if their UIDs agree in the bits that are shown. -/
theorem uid_key_shared_iff :
    (∀ stored, uidEncryptionKeyCheck stored pUID pCustomID .length12 endiaType .algorithm0 =
        uidEncryptionKeyCheck stored pUID' pCustomID .length12 endiaType .algorithm0) ↔
      ∀ i : Fin 12, pUID i &&& (shownBits pCustomID).getD i 0 = pUID' i &&& (shownBits pCustomID).getD i 0 := by
  have full (x : UInt8) : x &&& 0xFF = x := UInt8.toBitVec_inj.mp (BitVec.and_allOnes (x := x.toBitVec))
  rw [sameVerdict_iff]
  simp only [algorithmFunArray, algorithm0, Formulas.key, List.cons.injEq, and_true, UInt8.xor_left_inj, or_eq_or_iff,
    xor_and_cancel]
  simp only [Fin.forall_fin_succ, shownBits, Fin.isValue, Fin.reduceSucc, IsEmpty.forall_iff, and_true,
    Fin.coe_ofNat_eq_mod, Nat.reduceMod, List.getD_cons_succ, List.getD_cons_zero, and_or_iff, UInt8.and_zero, full]
  constructor
  · rintro ⟨byte0, byte1, byte2, byte3, byte4, byte5, byte6, byte7, byte8, byte9, -, byte2'⟩
    exact ⟨byte0, byte1, ⟨byte2, byte2'⟩, byte3, byte4, byte5, byte6, byte7, byte8, byte9⟩
  · -- the eleventh byte of the key shows nothing that the first one does not
    rintro ⟨byte0, byte1, ⟨byte2, byte2'⟩, byte3, byte4, byte5, byte6, byte7, byte8, byte9⟩
    exact ⟨byte0, byte1, byte2, byte3, byte4, byte5, byte6, byte7, byte8, byte9, by rw [byte0], byte2'⟩

/-- With the custom ID of the board the last two bytes of a UID are free, and so are bits of seven others. -/
example : shownBits myCID = [0xFF, 0xEF, 0xEE, 0xAE, 0xFF, 0xBE, 0x98, 0x9A, 0xFF, 0xAE, 0, 0] := by decide

end Check

end DetectBoard.UidEncryption
