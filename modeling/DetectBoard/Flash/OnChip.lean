import DetectBoard.Library.Memory
import Mathlib.Data.UInt

/-! The on-chip flash driver `drv_flash_f4.c`, over the HAL calls it makes.

What the flash cells hold after a program or erase operation is a parameter of
the model, `FlashChip`: the driver itself only believes what it reads back.
The controller touches no cell but the addressed ones.
-/

set_option autoImplicit false

namespace DetectBoard.Flash

open Library

/-- `ADDR_FLASH_SECTOR_0` to `ADDR_FLASH_SECTOR_12`; the last one is where the flash ends. -/
def addrFlashSector : List UInt32 :=
  [0x08000000, 0x08004000, 0x08008000, 0x0800C000, 0x08010000, 0x08020000, 0x08040000,
    0x08060000, 0x08080000, 0x080A0000, 0x080C0000, 0x080E0000, 0x08100000]

def stm32FlashEndAddress : UInt32 := 0x08000000 + 1024 * 1024

def rtError : Int := 1
def rtEinval : Int := 10

def sectorStart (sector : UInt32) : Nat :=
  (addrFlashSector.getD sector.toNat stm32FlashEndAddress).toNat

def sectorEnd (sector : UInt32) : Nat :=
  (addrFlashSector.getD (sector.toNat + 1) stm32FlashEndAddress).toNat

/-- `GetSector`, as compiled for the STM32F407 (twelve sectors, `FLASH_SECTOR_n` being `n`). -/
def getSector (address : UInt32) : UInt32 :=
  if address < 0x08004000 ∧ address ≥ 0x08000000 then 0
  else if address < 0x08008000 ∧ address ≥ 0x08004000 then 1
  else if address < 0x0800C000 ∧ address ≥ 0x08008000 then 2
  else if address < 0x08010000 ∧ address ≥ 0x0800C000 then 3
  else if address < 0x08020000 ∧ address ≥ 0x08010000 then 4
  else if address < 0x08040000 ∧ address ≥ 0x08020000 then 5
  else if address < 0x08060000 ∧ address ≥ 0x08040000 then 6
  else if address < 0x08080000 ∧ address ≥ 0x08060000 then 7
  else if address < 0x080A0000 ∧ address ≥ 0x08080000 then 8
  else if address < 0x080C0000 ∧ address ≥ 0x080A0000 then 9
  else if address < 0x080E0000 ∧ address ≥ 0x080C0000 then 10
  else if address < 0x08100000 ∧ address ≥ 0x080E0000 then 11
  else 0

/-- The behaviour of the flash controller during one call of the driver. -/
structure FlashChip where
  /-- Whether the controller becomes idle before `HAL_FLASHEx_Erase` starts. -/
  waitForLastOperation : Bool
  /-- From the address, the old cells and the data: `HAL_OK` or not, and the new cells. -/
  program : UInt32 → List UInt8 → List UInt8 → Bool × List UInt8
  /-- Nothing when the sector is erased; what its cells are left with when the erase fails. -/
  eraseSector : UInt32 → Option (Nat → UInt8)

def FlashChip.ideal : FlashChip := ⟨true, fun _ _ data => (true, data), fun _ => none⟩

/-- Sectors are erased when asked for, and erased cells are programmed. -/
structure FlashChip.Works (chip : FlashChip) : Prop where
  idle : chip.waitForLastOperation = true
  erases : ∀ sector, chip.eraseSector sector = none
  programs : ∀ address data, chip.program address (List.replicate data.length 0xFF) data = (true, data)

theorem FlashChip.ideal_works : FlashChip.ideal.Works := ⟨rfl, fun _ => rfl, fun _ _ => rfl⟩

inductive FlashOp where
  | program (address : UInt32) (width : Nat)
  | eraseSector (sector : UInt32)
  deriving DecidableEq, Repr

def FlashOp.Touches : FlashOp → Nat → Prop
  | .program address width, a => address.toNat ≤ a ∧ a < address.toNat + width
  | .eraseSector sector, a => sectorStart sector ≤ a ∧ a < sectorEnd sector

/-- How a loop over flash operations ended: the memory it left and the operations it asked for. -/
structure Driven where
  ok : Bool
  mem : Memory UInt8
  ops : List FlashOp

/-- What a driver function returns, with the memory it left and the operations it asked for. -/
structure Returned where
  ret : Int
  mem : Memory UInt8
  ops : List FlashOp

/-- `HAL_FLASH_Program`; the addressed unit is as wide as the data. -/
def halFlashProgram (chip : FlashChip) (mem : Memory UInt8) (address : UInt32) (data : List UInt8) :
    Bool × Memory UInt8 :=
  let done := chip.program address (mem.cells address.toNat data.length) data
  (done.1, mem.store address.toNat (done.2.take data.length))

def programWidth (address : UInt32) (left : Nat) : Nat :=
  if address % 4 = 0 ∧ left ≥ 4 then 4
  else if address % 2 = 0 ∧ left ≥ 2 then 2
  else 1

/-- The loop of `stm32_flash_write` from `written_size` on. Every round writes a byte at least,
so the number of bytes left is fuel enough. -/
def writeUnits (chip : FlashChip) (addr : UInt32) (buf : List UInt8) :
    (fuel written : Nat) → Memory UInt8 → Driven
  | 0, _, mem => ⟨true, mem, []⟩
  | fuel + 1, written, mem =>
    if written < buf.length then
      let address := addr + .ofNat written
      let width := programWidth address (buf.length - written)
      let data := (buf.drop written).take width
      let unit := halFlashProgram chip mem address data
      -- `HAL_OK`, and the cells read back as the data
      if unit.1 = true ∧ unit.2.cells address.toNat width = data then
        let rest := writeUnits chip addr buf fuel (written + width) unit.2
        ⟨rest.ok, rest.mem, .program address width :: rest.ops⟩
      else ⟨false, unit.2, [.program address width]⟩
    else ⟨true, mem, []⟩

def stm32FlashWrite (chip : FlashChip) (mem : Memory UInt8) (addr : UInt32) (buf : List UInt8) :
    Returned :=
  let endAddr := addr + .ofNat buf.length
  if endAddr > stm32FlashEndAddress then ⟨-rtEinval, mem, []⟩
  else if buf.length < 1 then ⟨-rtEinval, mem, []⟩
  else
    let done := writeUnits chip addr buf buf.length 0 mem
    ⟨if done.ok then buf.length else -rtError, done.mem, done.ops⟩

/-- The loop of `HAL_FLASHEx_Erase` over `count` sectors. -/
def eraseSectors (chip : FlashChip) : (count : Nat) → UInt32 → Memory UInt8 → Driven
  | 0, _, mem => ⟨true, mem, []⟩
  | count + 1, sector, mem =>
    match chip.eraseSector sector with
    | none =>
      let rest := eraseSectors chip count (sector + 1)
        (mem.fill (sectorStart sector) (sectorEnd sector) fun _ => 0xFF)
      ⟨rest.ok, rest.mem, .eraseSector sector :: rest.ops⟩
    | some content =>
      ⟨false, mem.fill (sectorStart sector) (sectorEnd sector) content, [.eraseSector sector]⟩

/-- `HAL_FLASHEx_Erase` with `FLASH_TYPEERASE_SECTORS` -/
def halFlashExErase (chip : FlashChip) (mem : Memory UInt8) (sector nbSectors : UInt32) : Driven :=
  if chip.waitForLastOperation then eraseSectors chip nbSectors.toNat sector mem
  else ⟨false, mem, []⟩

def stm32FlashErase (chip : FlashChip) (mem : Memory UInt8) (addr size : UInt32) : Returned :=
  if addr + size > stm32FlashEndAddress then ⟨-rtEinval, mem, []⟩
  else if size < 1 then ⟨-rtEinval, mem, []⟩
  else
    let firstSector := getSector addr
    let nbOfSectors := getSector (addr + size - 1) - firstSector + 1
    let done := halFlashExErase chip mem firstSector nbOfSectors
    ⟨if done.ok then size.toNat else -rtError, done.mem, done.ops⟩

/-! ## Programming -/

theorem programWidth_le (address : UInt32) {left : Nat} (remains : 0 < left) :
    0 < programWidth address left ∧ programWidth address left ≤ left := by
  unfold programWidth
  split
  · omega
  · split <;> omega

theorem address_toNat {addr : UInt32} {written size : Nat} (room : addr.toNat + size < 2 ^ 32)
    (le : written ≤ size) : (addr + .ofNat written).toNat = addr.toNat + written := by
  rw [UInt32.toNat_add, UInt32.toNat_ofNat_of_lt' (by simp only [UInt32.size]; omega)]
  omega

theorem halFlashProgram_agree (chip : FlashChip) (mem : Memory UInt8) (address : UInt32)
    (data : List UInt8) :
    Memory.AgreeOutside address.toNat (address.toNat + data.length) mem
      (halFlashProgram chip mem address data).2 :=
  (Memory.store_agree _ _ _).mono (Nat.le_refl _) (by simp)

section Write

variable (chip : FlashChip) (addr : UInt32) (buf : List UInt8) (fuel written : Nat)
  (mem : Memory UInt8)

theorem unit_inside (room : addr.toNat + buf.length < 2 ^ 32) (left : written < buf.length) :
    let address := addr + .ofNat written
    let width := programWidth address (buf.length - written)
    address.toNat = addr.toNat + written ∧ 0 < width ∧ written + width ≤ buf.length ∧
      ((buf.drop written).take width).length = width := by
  -- one round of the loop: the unit lies in the part still to be written
  intro address width
  have bounds := programWidth_le address (Nat.sub_pos_of_lt left)
  refine ⟨address_toNat room left.le, bounds.1, ?_, ?_⟩
  · have := bounds.2
    omega
  · simp only [List.length_take, List.length_drop]
    exact Nat.min_eq_left bounds.2

theorem writeUnits_agree (room : addr.toNat + buf.length < 2 ^ 32) :
    Memory.AgreeOutside (addr.toNat + written) (addr.toNat + buf.length) mem
      (writeUnits chip addr buf fuel written mem).mem := by
  induction fuel generalizing written mem with
  | zero => exact .refl ..
  | succ fuel ih =>
    rw [writeUnits]
    split
    · next left =>
      obtain ⟨at_eq, _, fits, len⟩ := unit_inside addr buf written room left
      have unit := halFlashProgram_agree chip mem (addr + .ofNat written)
        ((buf.drop written).take (programWidth (addr + .ofNat written) (buf.length - written)))
      rw [len, at_eq] at unit
      have first := unit.mono (Nat.le_refl _) (show _ ≤ addr.toNat + buf.length by omega)
      dsimp only
      split
      · exact first.trans ((ih _ _).mono (by omega) (Nat.le_refl _))
      · exact first
    · exact .refl ..

theorem writeUnits_cells (room : addr.toNat + buf.length < 2 ^ 32) (le : written ≤ buf.length)
    (enough : buf.length ≤ written + fuel) (ok : (writeUnits chip addr buf fuel written mem).ok) :
    (writeUnits chip addr buf fuel written mem).mem.cells (addr.toNat + written)
      (buf.length - written) = buf.drop written := by
  induction fuel generalizing written mem with
  | zero =>
    obtain rfl : written = buf.length := by omega
    simp
  | succ fuel ih =>
    rw [writeUnits] at ok ⊢
    split
    · next left =>
      obtain ⟨at_eq, _, fits, _⟩ := unit_inside addr buf written room left
      rw [if_pos left] at ok
      dsimp only at ok ⊢
      split at ok
      · next verified =>
        rw [if_pos verified]
        generalize programWidth (addr + .ofNat written) (buf.length - written) = width at *
        generalize (halFlashProgram chip mem (addr + .ofNat written) ((buf.drop written).take width)).2 = mem' at *
        have rest := ih _ _ fits (by omega) ok
        have agree := writeUnits_agree chip addr buf fuel (written + width) mem' room
        have kept : (writeUnits chip addr buf fuel (written + width) mem').mem.cells
            (addr.toNat + written) width = mem'.cells (addr.toNat + written) width :=
          agree.cells_eq (.inl (by omega))
        have cut : buf.length - written = width + (buf.length - (written + width)) := by omega
        rw [cut, Memory.cells_add, kept, ← at_eq, verified.2, at_eq, Nat.add_assoc, rest,
          ← List.drop_drop, List.take_append_drop]
      · exact absurd ok (by simp)
    · obtain rfl : written = buf.length := by omega
      simp

theorem writeUnits_ops (room : addr.toNat + buf.length < 2 ^ 32) :
    ∀ op ∈ (writeUnits chip addr buf fuel written mem).ops, ∀ a, op.Touches a →
      addr.toNat + written ≤ a ∧ a < addr.toNat + buf.length := by
  induction fuel generalizing written mem with
  | zero => simp [writeUnits]
  | succ fuel ih =>
    rw [writeUnits]
    split
    · next left =>
      obtain ⟨at_eq, _, fits, _⟩ := unit_inside addr buf written room left
      have here : ∀ a, (FlashOp.program (addr + .ofNat written)
          (programWidth (addr + .ofNat written) (buf.length - written))).Touches a →
          addr.toNat + written ≤ a ∧ a < addr.toNat + buf.length := by
        rintro a ⟨low, high⟩
        omega
      dsimp only
      split
      · intro op member a touched
        rcases List.mem_cons.mp member with rfl | later
        · exact here a touched
        · have := ih _ _ op later a touched
          omega
      · intro op member a touched
        rw [List.mem_singleton.mp member] at touched
        exact here a touched
    · simp

theorem writeUnits_ok (works : chip.Works) (room : addr.toNat + buf.length < 2 ^ 32)
    (erased : ∀ a, addr.toNat + written ≤ a → a < addr.toNat + buf.length → mem a = 0xFF) :
    (writeUnits chip addr buf fuel written mem).ok = true := by
  induction fuel generalizing written mem with
  | zero => rfl
  | succ fuel ih =>
    rw [writeUnits]
    split
    · next left =>
      obtain ⟨at_eq, _, fits, len⟩ := unit_inside addr buf written room left
      dsimp only
      generalize programWidth (addr + .ofNat written) (buf.length - written) = width at *
      generalize (buf.drop written).take width = data at *
      -- the unit is programmed over erased cells, and reads back as the data
      have blank : mem.cells (addr + .ofNat written).toNat data.length = List.replicate data.length 0xFF :=
        Memory.cells_const fun i bound => erased _ (by omega) (by omega)
      have unit : halFlashProgram chip mem (addr + .ofNat written) data =
          (true, mem.store (addr + .ofNat written).toNat data) := by
        rw [halFlashProgram, blank, works.programs, List.take_length]
      rw [unit, ← len, if_pos ⟨rfl, Memory.cells_store _ _ _⟩]
      refine ih _ _ fun a low high => ?_
      exact (Memory.store_above (by omega)).trans (erased a (by omega) high)
    · rfl

end Write

/-- What a caller of `stm32_flash_write` may rely on, whatever the chip does. -/
theorem stm32FlashWrite_spec (chip : FlashChip) (mem : Memory UInt8) (addr : UInt32)
    (buf : List UInt8) (room : addr.toNat + buf.length < 2 ^ 32) :
    let done := stm32FlashWrite chip mem addr buf
    (0 ≤ done.ret → done.mem.cells addr.toNat buf.length = buf) ∧
      Memory.AgreeOutside addr.toNat (addr.toNat + buf.length) mem done.mem ∧
      ∀ op ∈ done.ops, ∀ a, op.Touches a → addr.toNat ≤ a ∧ a < addr.toNat + buf.length := by
  unfold stm32FlashWrite
  dsimp only
  split
  · exact ⟨fun nonneg => by simp [rtEinval] at nonneg, .refl .., by simp⟩
  split
  · exact ⟨fun nonneg => by simp [rtEinval] at nonneg, .refl .., by simp⟩
  refine ⟨fun nonneg => ?_, writeUnits_agree chip addr buf _ 0 mem room,
    writeUnits_ops chip addr buf _ 0 mem room⟩
  have ok : (writeUnits chip addr buf buf.length 0 mem).ok = true := by
    by_contra failed
    simp [failed, rtError] at nonneg
  exact writeUnits_cells chip addr buf _ 0 mem room (Nat.zero_le _) (by omega) ok

theorem stm32FlashWrite_works {chip : FlashChip} (works : chip.Works) {mem : Memory UInt8} {addr : UInt32}
    {buf : List UInt8} (nonempty : buf ≠ []) (fits : addr.toNat + buf.length ≤ stm32FlashEndAddress.toNat)
    (erased : ∀ a, addr.toNat ≤ a → a < addr.toNat + buf.length → mem a = 0xFF) :
    0 ≤ (stm32FlashWrite chip mem addr buf).ret := by
  have room : addr.toNat + buf.length < 2 ^ 32 := Nat.lt_of_le_of_lt fits (by decide)
  have inside : ¬ addr + .ofNat buf.length > stm32FlashEndAddress := by
    rw [gt_iff_lt, UInt32.lt_iff_toNat_lt, address_toNat room (Nat.le_refl _)]
    exact Nat.not_lt.mpr fits
  have positive := List.length_pos_iff.mpr nonempty
  have ok := writeUnits_ok chip addr buf buf.length 0 mem works room erased
  rw [stm32FlashWrite, if_neg inside, if_neg (Nat.not_lt.mpr positive)]
  simp [ok]

/-! ## Erasing -/

def sectorErases : (count : Nat) → UInt32 → List FlashOp
  | 0, _ => []
  | count + 1, sector => .eraseSector sector :: sectorErases count (sector + 1)

theorem eraseSectors_ops (chip : FlashChip) (count : Nat) (sector : UInt32) (mem : Memory UInt8) :
    (eraseSectors chip count sector mem).ops <+: sectorErases count sector ∧
      ((eraseSectors chip count sector mem).ok →
        (eraseSectors chip count sector mem).ops = sectorErases count sector) := by
  induction count generalizing sector mem with
  | zero => exact ⟨List.prefix_rfl, fun _ => rfl⟩
  | succ count ih =>
    rw [eraseSectors, sectorErases]
    split
    · obtain ⟨started, whole⟩ := ih (sector + 1)
        (mem.fill (sectorStart sector) (sectorEnd sector) fun _ => 0xFF)
      exact ⟨List.cons_prefix_cons.mpr ⟨rfl, started⟩, fun ok => congrArg _ (whole ok)⟩
    · exact ⟨List.cons_prefix_cons.mpr ⟨rfl, List.nil_prefix⟩, fun ok => absurd ok (by simp)⟩

theorem eraseSectors_agree (chip : FlashChip) {lo hi count : Nat} {sector : UInt32}
    (mem : Memory UInt8)
    (inside : ∀ op ∈ sectorErases count sector, ∀ a, op.Touches a → lo ≤ a ∧ a < hi) :
    Memory.AgreeOutside lo hi mem (eraseSectors chip count sector mem).mem := by
  have filled : ∀ (sector : UInt32) (mem : Memory UInt8) (content : Nat → UInt8),
      (∀ a, (FlashOp.eraseSector sector).Touches a → lo ≤ a ∧ a < hi) →
      Memory.AgreeOutside lo hi mem (mem.fill (sectorStart sector) (sectorEnd sector) content) := by
    intro sector mem content here
    refine ⟨fun a outside => (Memory.fill_agree ..).same a ?_⟩
    by_contra touched
    have := here a ⟨by omega, by omega⟩
    omega
  induction count generalizing sector mem with
  | zero => exact .refl ..
  | succ count ih =>
    have here := inside _ (List.mem_cons_self ..)
    rw [eraseSectors]
    split
    · exact (filled sector mem _ here).trans (ih _ fun op member => inside op (List.mem_cons_of_mem _ member))
    · exact filled sector mem _ here

theorem eraseSectors_works {chip : FlashChip} (works : chip.Works) (count : Nat) (sector : UInt32)
    (mem : Memory UInt8) :
    (eraseSectors chip count sector mem).ok = true ∧
      ∀ a, (mem a = 0xFF ∨ ∃ op ∈ sectorErases count sector, op.Touches a) →
        (eraseSectors chip count sector mem).mem a = 0xFF := by
  induction count generalizing sector mem with
  | zero => exact ⟨rfl, fun a erased => erased.resolve_right (by simp [sectorErases])⟩
  | succ count ih =>
    obtain ⟨ok, rest⟩ := ih (sector + 1) (mem.fill (sectorStart sector) (sectorEnd sector) fun _ => 0xFF)
    rw [eraseSectors, works.erases]
    refine ⟨ok, fun a erased => rest a ?_⟩
    by_cases inside : sectorStart sector ≤ a ∧ a < sectorEnd sector
    · exact .inl (if_pos inside)
    · rcases erased with before | ⟨op, member, touched⟩
      · exact .inl ((if_neg inside).trans before)
      · rcases List.mem_cons.mp member with rfl | later
        · exact absurd touched inside
        · exact .inr ⟨op, later, touched⟩

end DetectBoard.Flash
