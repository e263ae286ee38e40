import DetectBoard.Board
import DetectBoard.Checksum

/-! The OTA requests of `ota_handle.c`, and what one request can do.
-/

set_option autoImplicit false

namespace DetectBoard

open Library Flash Can

def deviceOtaRomSize : UInt32 := 512 * 1024
def defaultDownloadPart : String := "download"

/-! ## What a start request announces -/

def announcedVersion (recData : Vector UInt8 8) : UInt16 :=
  recData[0].toUInt16 <<< 8 ||| recData[1].toUInt16

def announcedCrc16 (recData : Vector UInt8 8) : UInt16 :=
  recData[2].toUInt16 <<< 8 ||| recData[3].toUInt16

def announcedSize (recData : Vector UInt8 8) : UInt32 :=
  recData[4].toUInt32 <<< 24 ||| recData[5].toUInt32 <<< 16 ||| recData[6].toUInt32 <<< 8 |||
    recData[7].toUInt32

/-- The fields that a start request overwrites before any check. -/
def OtaManage.announce (ota : OtaManage) (recData : Vector UInt8 8) : OtaManage :=
  { ota with
    newVersion := announcedVersion recData
    fileCrc16 := announcedCrc16 recData
    fileTotalSize := announcedSize recData
    fileWriteSize := 0
    fileCrcCur := 0xFFFF }

/-- The fields that a block of data advances once it is stored. -/
def OtaManage.advance (ota : OtaManage) (dataLen : UInt16) (recData : Vector UInt8 8) : OtaManage :=
  { ota with
    fileWriteSize := ota.fileWriteSize + dataLen.toUInt32
    fileCrcCur := modbusRtuCrc16Frame recData.toList dataLen ota.fileCrcCur }

def mainboardOtaStartRequest (table : List FalPartition) (chip : FlashChip)
    (recData : Vector UInt8 8) (b : Board) : Board × List Action :=
  let ota := b.ota.announce recData
  if ota.fileTotalSize ≥ deviceOtaRomSize then
    ({ b with ota := ota }, [.mqSend (otaStartReply 0)])
  else match falPartitionFind table defaultDownloadPart with
    | none => ({ b with ota := { ota with dlPart := none } }, [.mqSend (otaStartReply 0)])
    | some part =>
      let erased := falPartitionEraseAll chip b.flash part
      let erasure := erased.ops.map Action.flash
      if erased.ret < 0 then
        ({ b with ota := { ota with dlPart := some part }, flash := erased.mem },
          erasure ++ [.mqSend (otaStartReply 0)])
      else
        ({ b with
            ota := { ota with dlPart := some part, otaOn := 1 }
            flash := erased.mem
            otaTimer := true },
          erasure ++ [.mqSend (otaStartReply 1)])

def mainboardOtaDataRequest (chip : FlashChip) (frameId dataLen : UInt16)
    (recData : Vector UInt8 8) (b : Board) : Board × List Action :=
  if b.ota.fileWriteSize / 8 = frameId.toUInt32 then
    let buf := recData.toList.take dataLen.toNat
    let call := Action.partitionWrite b.ota.dlPart b.ota.fileWriteSize buf
    match falPartitionWrite chip b.flash b.ota.dlPart b.ota.fileWriteSize buf with
    -- `assert(part)` loops for ever
    | none => ({ b with status := .hung }, [call])
    | some done =>
      let writing := call :: done.ops.map Action.flash
      if done.ret < 0 then
        ({ b with flash := done.mem }, writing ++ [.mqSend (otaDataBlockReply 0 frameId)])
      else
        let ota := b.ota.advance dataLen recData
        let stored := writing ++ [.mqSend (otaDataBlockReply 1 frameId)]
        if ota.fileWriteSize ≥ ota.fileTotalSize then
          if ota.fileCrcCur = ota.fileCrc16 then
            ({ b with ota := { ota with otaOn := 0 }, flash := done.mem, status := .reset },
              stored ++ [.mqSend (otaEndReply 1), .cpuReset])
          else
            ({ b with ota := ota, flash := done.mem, otaTimer := true },
              stored ++ [.mqSend (otaEndReply 0)])
        else ({ b with ota := ota, flash := done.mem, otaTimer := true }, stored)
  else (b, [.mqSend (otaDataBlockReply 0 frameId)])

/-! ## The outcomes of a start request -/

def StartRefused (table : List FalPartition) (chip : FlashChip) (recData : Vector UInt8 8)
    (flash : Memory UInt8) : Prop :=
  announcedSize recData ≥ deviceOtaRomSize ∨
    match falPartitionFind table defaultDownloadPart with
    | none => True
    | some part => (falPartitionEraseAll chip flash part).ret < 0

instance (table : List FalPartition) (chip : FlashChip) (recData : Vector UInt8 8)
    (flash : Memory UInt8) : Decidable (StartRefused table chip recData flash) := by
  unfold StartRefused
  split <;> exact inferInstance

inductive StartOutcome (table : List FalPartition) (chip : FlashChip) (recData : Vector UInt8 8)
    (b : Board) : Board × List Action → Prop where
  | tooLarge : announcedSize recData ≥ deviceOtaRomSize →
      StartOutcome table chip recData b
        ({ b with ota := b.ota.announce recData }, [.mqSend (otaStartReply 0)])
  | missing : falPartitionFind table defaultDownloadPart = none →
      StartOutcome table chip recData b
        ({ b with ota := { b.ota.announce recData with dlPart := none } }, [.mqSend (otaStartReply 0)])
  | eraseFailed {part : FalPartition} : falPartitionFind table defaultDownloadPart = some part →
      (falPartitionEraseAll chip b.flash part).ret < 0 →
      StartOutcome table chip recData b
        ({ b with
            ota := { b.ota.announce recData with dlPart := some part }
            flash := (falPartitionEraseAll chip b.flash part).mem },
          (falPartitionEraseAll chip b.flash part).ops.map Action.flash ++ [.mqSend (otaStartReply 0)])
  | accepted {part : FalPartition} : announcedSize recData < deviceOtaRomSize →
      falPartitionFind table defaultDownloadPart = some part →
      0 ≤ (falPartitionEraseAll chip b.flash part).ret →
      StartOutcome table chip recData b
        ({ b with
            ota := { b.ota.announce recData with dlPart := some part, otaOn := 1 }
            flash := (falPartitionEraseAll chip b.flash part).mem
            otaTimer := true },
          (falPartitionEraseAll chip b.flash part).ops.map Action.flash ++ [.mqSend (otaStartReply 1)])

theorem mainboardOtaStartRequest_outcome (table : List FalPartition) (chip : FlashChip)
    (recData : Vector UInt8 8) (b : Board) :
    StartOutcome table chip recData b (mainboardOtaStartRequest table chip recData b) := by
  unfold mainboardOtaStartRequest
  dsimp only
  split
  · next large => exact .tooLarge large
  · next small =>
    split
    · next missing => exact .missing missing
    · next part found =>
      split
      · next failed => exact .eraseFailed found failed
      · next erased => exact .accepted (UInt32.not_le.mp small) found (Int.not_lt.mp erased)

section Start

variable {table : List FalPartition} {chip : FlashChip} {recData : Vector UInt8 8} {b : Board}
  {result : Board × List Action}

theorem StartOutcome.announces (outcome : StartOutcome table chip recData b result) :
    result.1.ota.fileCrc16 = announcedCrc16 recData ∧
      result.1.ota.fileTotalSize = announcedSize recData ∧
      result.1.ota.fileWriteSize = 0 ∧ result.1.ota.fileCrcCur = 0xFFFF := by
  cases outcome <;> exact ⟨rfl, rfl, rfl, rfl⟩

theorem StartOutcome.reply_iff (outcome : StartOutcome table chip recData b result) :
    .mqSend (otaStartReply 1) ∈ result.2 ↔ ¬StartRefused table chip recData b.flash := by
  have differ : otaStartReply 1 ≠ otaStartReply 0 := by decide
  unfold StartRefused
  cases outcome with
  | tooLarge large => simp [differ, large]
  | missing absent => simp [differ, absent]
  | eraseFailed found failed => simp [differ, found, failed]
  | accepted small found erased =>
    simp only [found, ge_iff_le, UInt32.not_le.mpr small, false_or, Int.not_lt.mpr erased,
      not_false_eq_true, iff_true]
    simp

end Start

/-! ## The outcomes of a data request -/

/-- The block number of a data request is the one that the board waits for. -/
def InOrder (b : Board) (frameId : UInt16) : Prop :=
  b.ota.fileWriteSize / 8 = frameId.toUInt32

instance (b : Board) (frameId : UInt16) : Decidable (InOrder b frameId) :=
  inferInstanceAs (Decidable (_ = _))

/-- All that a data request of eight bytes can do. -/
inductive DataOutcome (chip : FlashChip) (frameId : UInt16) (recData : Vector UInt8 8) (b : Board) :
    Board × List Action → Prop where
  | outOfOrder : ¬InOrder b frameId →
      DataOutcome chip frameId recData b (b, [.mqSend (otaDataBlockReply 0 frameId)])
  | noPartition : InOrder b frameId → b.ota.dlPart = none →
      DataOutcome chip frameId recData b
        ({ b with status := .hung }, [.partitionWrite none b.ota.fileWriteSize recData.toList])
  | writeFailed {done : Returned} : InOrder b frameId →
      falPartitionWrite chip b.flash b.ota.dlPart b.ota.fileWriteSize recData.toList = some done →
      done.ret < 0 →
      DataOutcome chip frameId recData b
        ({ b with flash := done.mem },
          .partitionWrite b.ota.dlPart b.ota.fileWriteSize recData.toList :: done.ops.map .flash ++
            [.mqSend (otaDataBlockReply 0 frameId)])
  | stored {done : Returned} : InOrder b frameId →
      falPartitionWrite chip b.flash b.ota.dlPart b.ota.fileWriteSize recData.toList = some done →
      0 ≤ done.ret →
      (b.ota.advance 8 recData).fileWriteSize < b.ota.fileTotalSize →
      DataOutcome chip frameId recData b
        ({ b with ota := b.ota.advance 8 recData, flash := done.mem, otaTimer := true },
          .partitionWrite b.ota.dlPart b.ota.fileWriteSize recData.toList :: done.ops.map .flash ++
            [.mqSend (otaDataBlockReply 1 frameId)])
  | mismatch {done : Returned} : InOrder b frameId →
      falPartitionWrite chip b.flash b.ota.dlPart b.ota.fileWriteSize recData.toList = some done →
      0 ≤ done.ret →
      b.ota.fileTotalSize ≤ (b.ota.advance 8 recData).fileWriteSize →
      (b.ota.advance 8 recData).fileCrcCur ≠ b.ota.fileCrc16 →
      DataOutcome chip frameId recData b
        ({ b with ota := b.ota.advance 8 recData, flash := done.mem, otaTimer := true },
          .partitionWrite b.ota.dlPart b.ota.fileWriteSize recData.toList :: done.ops.map .flash ++
            [.mqSend (otaDataBlockReply 1 frameId)] ++ [.mqSend (otaEndReply 0)])
  | completed {done : Returned} : InOrder b frameId →
      falPartitionWrite chip b.flash b.ota.dlPart b.ota.fileWriteSize recData.toList = some done →
      0 ≤ done.ret →
      b.ota.fileTotalSize ≤ (b.ota.advance 8 recData).fileWriteSize →
      (b.ota.advance 8 recData).fileCrcCur = b.ota.fileCrc16 →
      DataOutcome chip frameId recData b
        ({ b with
            ota := { b.ota.advance 8 recData with otaOn := 0 }
            flash := done.mem
            status := .reset },
          .partitionWrite b.ota.dlPart b.ota.fileWriteSize recData.toList :: done.ops.map .flash ++
            [.mqSend (otaDataBlockReply 1 frameId)] ++ [.mqSend (otaEndReply 1), .cpuReset])

theorem mainboardOtaDataRequest_outcome (chip : FlashChip) (frameId : UInt16)
    (recData : Vector UInt8 8) (b : Board) :
    DataOutcome chip frameId recData b (mainboardOtaDataRequest chip frameId 8 recData b) := by
  have whole : recData.toList.take (UInt16.toNat 8) = recData.toList :=
    List.take_of_length_le (by simp)
  unfold mainboardOtaDataRequest
  rw [whole]
  dsimp only
  split
  · next inOrder =>
    split
    · next asserted =>
      cases null : b.ota.dlPart with
      | none => exact .noPartition inOrder null
      | some part => simp [falPartitionWrite, null] at asserted
    · next done written =>
      split
      · next failed => exact .writeFailed inOrder written failed
      · next ok =>
        have ok := Int.not_lt.mp ok
        split
        · next reached =>
          split
          · next same => exact .completed inOrder written ok reached same
          · next differ => exact .mismatch inOrder written ok reached differ
        · next before => exact .stored inOrder written ok (UInt32.not_le.mp before)
  · next other => exact .outOfOrder other

section Data

variable {chip : FlashChip} {frameId : UInt16} {recData : Vector UInt8 8} {b : Board}
  {result : Board × List Action}

theorem DataOutcome.writes_iff (outcome : DataOutcome chip frameId recData b result) :
    (∃ part addr buf, .partitionWrite part addr buf ∈ result.2) ↔ InOrder b frameId := by
  cases outcome with
  | outOfOrder other => simp [other]
  | noPartition inOrder null => simp [inOrder]
  | writeFailed inOrder => simp [inOrder]
  | stored inOrder => simp [inOrder]
  | mismatch inOrder => simp [inOrder]
  | completed inOrder => simp [inOrder]

theorem DataOutcome.writes_at (outcome : DataOutcome chip frameId recData b result)
    {part : Option FalPartition} {addr : UInt32} {buf : List UInt8} (write : .partitionWrite part addr buf ∈ result.2) :
    addr = b.ota.fileWriteSize ∧ buf = recData.toList := by
  cases outcome with
  | outOfOrder => simp at write
  | noPartition => simp at write; simp [write]
  | writeFailed => simp at write; simp [write]
  | stored => simp at write; simp [write]
  | mismatch => simp at write; simp [write]
  | completed => simp at write; simp [write]

theorem DataOutcome.refused (outcome : DataOutcome chip frameId recData b result)
    (other : ¬InOrder b frameId) : result = (b, [.mqSend (otaDataBlockReply 0 frameId)]) := by
  cases outcome with
  | outOfOrder => rfl
  | noPartition inOrder => exact absurd inOrder other
  | writeFailed inOrder => exact absurd inOrder other
  | stored inOrder => exact absurd inOrder other
  | mismatch inOrder => exact absurd inOrder other
  | completed inOrder => exact absurd inOrder other

theorem mainboardOtaDataRequest_refused (other : ¬InOrder b frameId) :
    mainboardOtaDataRequest chip frameId 8 recData b = (b, [.mqSend (otaDataBlockReply 0 frameId)]) :=
  (mainboardOtaDataRequest_outcome chip frameId recData b).refused other

theorem DataOutcome.acknowledged (outcome : DataOutcome chip frameId recData b result)
    (kept : otaDataBlockReply 1 frameId ∈ blockReplies result.2) : InOrder b frameId := by
  by_contra other
  rw [outcome.refused other, blockReplies_send, List.mem_singleton] at kept
  exact otaDataBlockReply_ne _ kept

theorem DataOutcome.ended (outcome : DataOutcome chip frameId recData b result)
    (ended : .mqSend (otaEndReply 1) ∈ result.2) :
    InOrder b frameId ∧ otaDataBlockReply 1 frameId ∈ blockReplies result.2 ∧
      result.1.ota.fileTotalSize ≤ result.1.ota.fileWriteSize ∧
      result.1.ota.fileCrcCur = result.1.ota.fileCrc16 ∧ .cpuReset ∈ result.2 := by
  have other : otaEndReply 1 ≠ otaEndReply 0 := by decide
  have differ : ∀ value, otaEndReply 1 ≠ otaDataBlockReply value frameId := by
    intro value same
    have := congrArg RtCanMsg.messageClass same
    simp at this
  cases outcome with
  | outOfOrder => simp [differ] at ended
  | noPartition => simp at ended
  | writeFailed => simp [differ] at ended
  | stored => simp [differ] at ended
  | mismatch => simp [differ, other] at ended
  | completed inOrder _ _ reached same =>
    refine ⟨inOrder, ?_, reached, same, by simp⟩
    rw [blockReplies_append, blockReplies_append, blockReplies_send]
    simp

theorem DataOutcome.keeps (outcome : DataOutcome chip frameId recData b result) :
    result.1.ota.fileCrc16 = b.ota.fileCrc16 ∧ result.1.ota.fileTotalSize = b.ota.fileTotalSize ∧
      result.1.ota.dlPart = b.ota.dlPart ∧ result.1.otaStartFlag = b.otaStartFlag ∧
      (b.otaTimer = true → result.1.otaTimer = true) := by
  cases outcome <;> exact ⟨rfl, rfl, rfl, rfl, fun armed => by simp [armed]⟩

end Data

end DetectBoard
