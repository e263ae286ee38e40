import DetectBoard.Flash.OnChip

/-! The flash abstraction layer of `fal_partition.c`, with the device and
partition tables of `drv_flash_f4.c` and `fal_cfg.h`.

`long` and `size_t` are 32 bits wide on the target, so offsets are `UInt32`.
-/

set_option autoImplicit false

namespace DetectBoard.Flash

open Library

/-- `struct fal_flash_dev`; its operations are those of the on-chip driver at `addr`. -/
structure FalFlashDev where
  name : String
  addr : UInt32
  len : UInt32
  deriving DecidableEq, Repr

structure FalPartition where
  name : String
  flashName : String
  offset : UInt32
  len : UInt32
  deriving DecidableEq, Repr

def stm32OnchipFlash128k : FalFlashDev := ⟨"onchip_flash_128k", 0x08020000, 7 * 128 * 1024⟩

def falFlashDevTable : List FalFlashDev := [stm32OnchipFlash128k]

def appPart : FalPartition := ⟨"app", "onchip_flash_128k", 0, 3 * 128 * 1024⟩
def appdataPart : FalPartition := ⟨"appdata", "onchip_flash_128k", 3 * 128 * 1024, 1 * 128 * 1024⟩
def downloadPart : FalPartition := ⟨"download", "onchip_flash_128k", 4 * 128 * 1024, 3 * 128 * 1024⟩

def falPartTable : List FalPartition := [appPart, appdataPart, downloadPart]

def falFlashDeviceFind (name : String) : Option FalFlashDev :=
  falFlashDevTable.find? fun dev => name = dev.name

def falPartitionFind (table : List FalPartition) (name : String) : Option FalPartition :=
  table.find? fun part => name = part.name

/-- `flash_device_find_by_part`: the entry of `part_flash_cache` for the partition, which
`check_and_update_part_cache` has filled with the device of that name. -/
def flashDeviceFindByPart (part : FalPartition) : Option FalFlashDev :=
  falFlashDeviceFind part.flashName

/-- `fal_partition_write`. With `FAL_DEBUG` on, `assert(part)` never returns from a null
partition; the call gives nothing then. -/
def falPartitionWrite (chip : FlashChip) (mem : Memory UInt8) (part : Option FalPartition)
    (addr : UInt32) (buf : List UInt8) : Option Returned :=
  match part with
  | none => none
  | some part => some <|
    if addr + .ofNat buf.length > part.len then ⟨-1, mem, []⟩
    else match flashDeviceFindByPart part with
      | none => ⟨-1, mem, []⟩
      | some dev => stm32FlashWrite chip mem (dev.addr + (part.offset + addr)) buf

/-- `fal_partition_erase` of a partition that was found. -/
def falPartitionErase (chip : FlashChip) (mem : Memory UInt8) (part : FalPartition)
    (addr size : UInt32) : Returned :=
  if addr + size > part.len then ⟨-1, mem, []⟩
  else match flashDeviceFindByPart part with
    | none => ⟨-1, mem, []⟩
    | some dev => stm32FlashErase chip mem (dev.addr + (part.offset + addr)) size

def falPartitionEraseAll (chip : FlashChip) (mem : Memory UInt8) (part : FalPartition) : Returned :=
  falPartitionErase chip mem part 0 part.len

/-- The bound check of `fal_partition_write`. -/
def FalPartition.HasRoom (part : FalPartition) (addr : UInt32) (size : ℕ) : Prop :=
  ¬ addr + .ofNat size > part.len

instance (part : FalPartition) (addr : UInt32) (size : ℕ) : Decidable (part.HasRoom addr size) :=
  inferInstanceAs (Decidable ¬_)

/-! ## The download partition -/

def downloadStart : Nat := 0x080A0000
def downloadLen : Nat := 393216
def downloadEnd : Nat := 0x08100000

theorem find_download : falPartitionFind falPartTable "download" = some downloadPart := by
  decide

theorem device_download : flashDeviceFindByPart downloadPart = some stm32OnchipFlash128k := by
  decide

theorem download_address (addr : UInt32) (fits : addr.toNat ≤ downloadLen) :
    (stm32OnchipFlash128k.addr + (downloadPart.offset + addr)).toNat = downloadStart + addr.toNat := by
  -- the device base, the partition offset and the write offset add up without wrapping
  simp only [stm32OnchipFlash128k, downloadPart, downloadStart, downloadLen, UInt32.toNat_add,
    UInt32.toNat_mul, UInt32.reduceToNat] at *
  omega

theorem download_room {addr : UInt32} {size : ℕ} (room : addr.toNat + size < 2 ^ 32) :
    downloadPart.HasRoom addr size ↔ addr.toNat + size ≤ downloadLen := by
  rw [FalPartition.HasRoom, gt_iff_lt, UInt32.lt_iff_toNat_lt, address_toNat room (Nat.le_refl _)]
  exact Nat.not_lt

theorem write_download (chip : FlashChip) (mem : Memory UInt8) (addr : UInt32) (buf : List UInt8)
    (room : addr.toNat + buf.length < 2 ^ 32) :
    ∃ done, falPartitionWrite chip mem (some downloadPart) addr buf = some done ∧
      (done = ⟨-1, mem, []⟩ ∨
        addr.toNat + buf.length ≤ downloadLen ∧
        (0 ≤ done.ret → done.mem.cells (downloadStart + addr.toNat) buf.length = buf) ∧
        Memory.AgreeOutside (downloadStart + addr.toNat) (downloadStart + addr.toNat + buf.length)
          mem done.mem ∧
        ∀ op ∈ done.ops, ∀ a, op.Touches a →
          downloadStart + addr.toNat ≤ a ∧ a < downloadStart + addr.toNat + buf.length) := by
  refine ⟨_, rfl, ?_⟩
  split
  · exact .inl rfl
  · next bound =>
    have fits := (download_room room).mp bound
    have start := download_address addr (by omega)
    simp only [device_download]
    have spec := stm32FlashWrite_spec chip mem
      (stm32OnchipFlash128k.addr + (downloadPart.offset + addr)) buf
      (by rw [start]; simp only [downloadStart, downloadLen] at *; omega)
    rw [start] at spec
    exact .inr ⟨fits, spec⟩

def downloadSectors : List FlashOp := [.eraseSector 9, .eraseSector 10, .eraseSector 11]

theorem downloadSectors_touch (a : Nat) :
    (∃ op ∈ downloadSectors, op.Touches a) ↔ downloadStart ≤ a ∧ a < downloadEnd := by
  -- sectors 9, 10 and 11 make up the download partition
  have bounds : sectorStart 9 = 0x080A0000 ∧ sectorEnd 9 = 0x080C0000 ∧ sectorStart 10 = 0x080C0000 ∧
      sectorEnd 10 = 0x080E0000 ∧ sectorStart 11 = 0x080E0000 ∧ sectorEnd 11 = 0x08100000 := by
    decide
  simp only [downloadSectors, List.mem_cons, List.not_mem_nil, or_false, exists_eq_or_imp,
    exists_eq_left, FlashOp.Touches, bounds, downloadStart, downloadEnd]
  omega

theorem erase_download (chip : FlashChip) (mem : Memory UInt8) :
    let done := falPartitionEraseAll chip mem downloadPart
    Memory.AgreeOutside downloadStart downloadEnd mem done.mem ∧ done.ops <+: downloadSectors ∧
      (0 ≤ done.ret → done.ops = downloadSectors) := by
  have whole : falPartitionEraseAll chip mem downloadPart =
      ⟨if (halFlashExErase chip mem 9 3).ok then 393216 else -rtError,
        (halFlashExErase chip mem 9 3).mem, (halFlashExErase chip mem 9 3).ops⟩ := by
    rfl
  have sectors : sectorErases 3 9 = downloadSectors := by decide
  rw [whole]
  simp only [halFlashExErase, UInt32.reduceToNat]
  split
  · have asked := eraseSectors_ops chip 3 9 mem
    rw [sectors] at asked
    refine ⟨eraseSectors_agree chip mem fun op member a touched => ?_, asked.1, fun nonneg => asked.2 ?_⟩
    · rw [sectors] at member
      exact (downloadSectors_touch a).mp ⟨op, member, touched⟩
    · by_contra failed
      simp [failed, rtError] at nonneg
  · exact ⟨.refl .., List.nil_prefix, fun nonneg => by simp [rtError] at nonneg⟩

/-! ## A chip that works -/

theorem erase_download_works {chip : FlashChip} (works : chip.Works) (mem : Memory UInt8) :
    0 ≤ (falPartitionEraseAll chip mem downloadPart).ret ∧
      ∀ a, downloadStart ≤ a → a < downloadEnd → (falPartitionEraseAll chip mem downloadPart).mem a = 0xFF := by
  have whole : falPartitionEraseAll chip mem downloadPart =
      ⟨if (halFlashExErase chip mem 9 3).ok then 393216 else -rtError,
        (halFlashExErase chip mem 9 3).mem, (halFlashExErase chip mem 9 3).ops⟩ := by
    rfl
  have sectors : sectorErases 3 9 = downloadSectors := by decide
  obtain ⟨ok, erased⟩ := eraseSectors_works works 3 9 mem
  rw [sectors] at erased
  rw [whole, halFlashExErase, if_pos works.idle]
  simp only [UInt32.reduceToNat, ok]
  exact ⟨by decide, fun a low high => erased a (.inr ((downloadSectors_touch a).mpr ⟨low, high⟩))⟩

theorem write_download_works {chip : FlashChip} (works : chip.Works) {mem : Memory UInt8} {addr : UInt32}
    {buf : List UInt8} (content : buf ≠ []) (fits : addr.toNat + buf.length ≤ downloadLen)
    (erased : ∀ a, downloadStart + addr.toNat ≤ a → a < downloadStart + addr.toNat + buf.length → mem a = 0xFF) :
    ∃ done, falPartitionWrite chip mem (some downloadPart) addr buf = some done ∧ 0 ≤ done.ret := by
  have room : addr.toNat + buf.length < 2 ^ 32 := Nat.lt_of_le_of_lt fits (by decide)
  have bound : ¬ addr + .ofNat buf.length > downloadPart.len := (download_room room).mpr fits
  have start := download_address addr (by omega)
  have last : downloadStart + downloadLen = stm32FlashEndAddress.toNat := rfl
  refine ⟨_, rfl, ?_⟩
  simp only [if_neg bound, device_download]
  rw [← start] at erased
  exact stm32FlashWrite_works works content (by omega) erased

end DetectBoard.Flash
