import DetectBoard.Can.Message
import DetectBoard.Flash.Partition

/-! The state that the CAN receive thread and the OTA handler share, and what
they do to the outside while they handle a frame.
-/

set_option autoImplicit false

namespace DetectBoard

open Library Flash Can

/-- `OTA_MANAGE_t`; the timer it points to is kept with the board. -/
structure OtaManage where
  otaOn : UInt16
  newVersion : UInt16
  fileCrc16 : UInt16
  fileTotalSize : UInt32
  fileWriteSize : UInt32
  fileCrcCur : UInt16
  dlPart : Option FalPartition
  deriving DecidableEq, Repr

structure MainHeart where
  version : UInt8
  heartBeatCount : UInt16
  deriving DecidableEq, Repr

structure MainRfInfo where
  rfSwitch : Bool
  pulseMode : UInt8
  pulseCount : UInt8
  pulseInterval : UInt8
  deriving DecidableEq, Repr

structure MainRgbInfo where
  rgbSwitch : Bool
  red : UInt8
  green : UInt8
  blue : UInt8
  deriving DecidableEq, Repr

/-- Whether the receive thread handles frames, loops in a failed assertion, or has been ended
by a reset of the processor. -/
inductive Status where
  | running
  | hung
  | reset
  deriving DecidableEq, Repr

structure Board where
  ota : OtaManage
  /-- Whether `ota_timer` is armed. -/
  otaTimer : Bool
  otaStartFlag : UInt8
  /-- Whether `can_inform_timer` is running. -/
  canInformTimer : Bool
  mainHeart : MainHeart
  mainRfInfo : MainRfInfo
  mainRgbInfo : MainRgbInfo
  rgbChangeFlag : UInt8
  boardSwitchFlag : UInt8
  flash : Memory UInt8
  status : Status

/-- The board once both CAN threads have started: the globals are zero, the flash is as it was. -/
def Board.boot (flash : Memory UInt8) : Board where
  ota := ⟨0, 0, 0, 0, 0, 0, none⟩
  otaTimer := false
  otaStartFlag := 0
  canInformTimer := true
  mainHeart := ⟨0, 0⟩
  mainRfInfo := ⟨false, 0, 0, 0⟩
  mainRgbInfo := ⟨false, 0, 0, 0⟩
  rgbChangeFlag := 0
  boardSwitchFlag := 0
  flash := flash
  status := .running

/-- What the code asks of its surroundings. -/
inductive Action where
  /-- `rt_mq_send` on `can_tx_mq`; no caller in the receive thread looks at the result. -/
  | mqSend (msg : RtCanMsg)
  /-- `rt_mq_control` with `RT_IPC_CMD_RESET` on `can_tx_mq` -/
  | mqReset
  | partitionWrite (part : Option FalPartition) (addr : UInt32) (buf : List UInt8)
  | flash (op : FlashOp)
  | cpuReset
  deriving DecidableEq, Repr

/-- The replies to data blocks among some actions. -/
def blockReplies (actions : List Action) : List RtCanMsg :=
  actions.filterMap fun
    | .mqSend msg => if msg.messageClass = 1 then some msg else none
    | _ => none

@[simp] theorem blockReplies_append (first rest : List Action) :
    blockReplies (first ++ rest) = blockReplies first ++ blockReplies rest :=
  List.filterMap_append ..

@[simp] theorem blockReplies_flash (ops : List FlashOp) :
    blockReplies (ops.map .flash) = [] := by
  simp [blockReplies, List.filterMap_map]

@[simp] theorem blockReplies_partitionWrite (part : Option FalPartition) (addr : UInt32) (buf : List UInt8)
    (rest : List Action) : blockReplies (.partitionWrite part addr buf :: rest) = blockReplies rest := rfl

@[simp] theorem blockReplies_send (otaDataOk : UInt8) (frameid : UInt16) :
    blockReplies [.mqSend (otaDataBlockReply otaDataOk frameid)] =
      [otaDataBlockReply otaDataOk frameid] := by
  simp [blockReplies]

end DetectBoard
