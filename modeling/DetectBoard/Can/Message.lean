import Mathlib.Data.UInt

/-! CAN messages: `struct rt_can_msg`, the layout of the 29-bit identifiers in
`can.h`, and the frames that `can.c` and `ota_handle.c` build.

A data byte at a position from `len` on is not part of the frame on the bus. In
the frames built here such bytes are zero, where the source leaves them unset.
-/

set_option autoImplicit false

namespace DetectBoard.Can

/-- `struct rt_can_msg`, without the fields that only the driver uses. -/
structure RtCanMsg where
  id : BitVec 29
  ide : BitVec 1
  rtr : BitVec 1
  len : UInt8
  data : Vector UInt8 8
  deriving DecidableEq, Repr

def rtCanExtid : BitVec 1 := 1
def rtCanDtr : BitVec 1 := 0

def canIdentyMainBorad : BitVec 29 := 0x04
def canIdentyMonitorBorad : BitVec 29 := 0x08
def canIdentyScreenBorad : BitVec 29 := 0x0F

def canIdMonitorBoardHandshakeInfo : BitVec 29 := 0x5100
def canIdMonitorBoardInformInfo : BitVec 29 := 0x5104
def canIdMonitorBoardErrorInfo : BitVec 29 := 0x5108

def canIdMainBoardHeartbeatInfo : BitVec 29 := 0xFF04
def canIdMainRfSwitchControlInfo : BitVec 29 := 0x5000
def canIdMainRgbSwitchControlInfo : BitVec 29 := 0x5008
def canIdMainOtaAskInfo : BitVec 29 := 0x5010
def canIdMainBoardSwitchControlInfo : BitVec 29 := 0x5020

def canIdHandtoolOtaStartReply : BitVec 29 := 0x5110
def canIdHandtoolOtaEndReply : BitVec 29 := 0x5114

def canIdGen (source desti reg : BitVec 29) : BitVec 29 :=
  ((source &&& 0x1F) <<< 24) ||| ((desti &&& 0x1F) <<< 19) ||| ((reg &&& 0xFFFF) <<< 0)

def canIdGenByReg (reg : BitVec 29) : BitVec 29 :=
  canIdGen canIdentyMonitorBorad canIdentyMainBorad reg

namespace RtCanMsg

/-- The source of a frame, `(id>>CAN_SEND_ID_START_BIT)&0xFF`. -/
def source (msg : RtCanMsg) : BitVec 29 := (msg.id >>> 24) &&& 0xFF

/-- The message class, `(id>>CAN_REGIS_ID_BITS_NUM)&0x7`. -/
def messageClass (msg : RtCanMsg) : BitVec 29 := (msg.id >>> 16) &&& 0x7

/-- The register, `(id>>CAN_REGIS_ID_START_BIT)&0xFFFF`. -/
def register (msg : RtCanMsg) : BitVec 29 := (msg.id >>> 0) &&& 0xFFFF

/-- The receiver of a frame, `(id>>CAN_REC_ID_START_BIT)&CAN_REC_ID_MASK`, which no code reads. -/
def receiver (msg : RtCanMsg) : BitVec 29 := (msg.id >>> 19) &&& 0x1F

/-- The block number of an OTA data frame, `id&0xffff` as a 16-bit argument. -/
def frameId (msg : RtCanMsg) : UInt16 := ⟨(msg.id &&& 0xFFFF).setWidth 16⟩

end RtCanMsg

def extendedFrame (id : BitVec 29) (len : UInt8) (data : Vector UInt8 8) : RtCanMsg :=
  ⟨id, rtCanExtid, rtCanDtr, len, data⟩

/-- The frame of `ota_data_block_replay_reply_send_to_fop_mq`. -/
def otaDataBlockReply (otaDataOk : UInt8) (frameid : UInt16) : RtCanMsg :=
  extendedFrame (canIdGenByReg (frameid.toBitVec.setWidth 29) ||| 0x10000) 2
    #v[otaDataOk, 0, 0, 0, 0, 0, 0, 0]

/-- The frame of `ota_end_replay_reply_send_to_fop_mq`. -/
def otaEndReply (otaOk : UInt8) : RtCanMsg :=
  extendedFrame (canIdGenByReg canIdHandtoolOtaEndReply) 2 #v[otaOk, 0, 0, 0, 0, 0, 0, 0]

/-- The frame of `ota_start_reply_send_to_fop_mq`. -/
def otaStartReply (otaContinue : UInt8) : RtCanMsg :=
  extendedFrame (canIdGenByReg canIdHandtoolOtaStartReply) 2
    #v[otaContinue, 0, 0, 0, 0, 0, 0, 0]

/-- The frame of `monitor_board_handshake_send_to_can_mq`: device code 0x03, protocol 0x01,
software 10001 and hardware 10000, two bytes each. -/
def monitorBoardHandshake : RtCanMsg :=
  extendedFrame (canIdGenByReg canIdMonitorBoardHandshakeInfo) 8
    #v[(0x03 : UInt16) >>> 8 |>.toUInt8, (0x03 : UInt16) &&& 0xFF |>.toUInt8,
      (0x01 : UInt16) >>> 8 |>.toUInt8, (0x01 : UInt16) &&& 0xFF |>.toUInt8,
      (10001 : UInt16) >>> 8 |>.toUInt8, (10001 : UInt16) &&& 0xFF |>.toUInt8,
      (10000 : UInt16) >>> 8 |>.toUInt8, (10000 : UInt16) &&& 0xFF |>.toUInt8]

/-- The frame of `monitor_board_inform_info_send_to_can_mq`. -/
def monitorBoardInformInfo (negState zerocount : UInt8) (cap : UInt32) : RtCanMsg :=
  extendedFrame (canIdGenByReg canIdMonitorBoardInformInfo) 8
    #v[negState, zerocount, 0, 0, (cap >>> 24).toUInt8, (cap >>> 16).toUInt8, (cap >>> 8).toUInt8,
      cap.toUInt8]

/-- The frame of `error_code_info_send_to_can_mq`. -/
def errorCodeInfo (flag : UInt8) (ec : UInt16) : RtCanMsg :=
  extendedFrame (canIdGenByReg canIdMonitorBoardErrorInfo) 8
    #v[flag, 0x00, (ec >>> 8).toUInt8, ec.toUInt8, 0x00, 0x00, 0x00, 0x00]

/-! ## The OTA frames of the main board -/

def otaAskFrame (data : Vector UInt8 8) : RtCanMsg :=
  extendedFrame (canIdGen canIdentyMainBorad canIdentyMonitorBorad canIdMainOtaAskInfo) 8 data

def otaBlockFrame (number : UInt16) (data : Vector UInt8 8) : RtCanMsg :=
  extendedFrame (canIdGen canIdentyMainBorad canIdentyMonitorBorad (number.toBitVec.setWidth 29) |||
    0x10000) 8 data

/-! ## Reading back what was put into an identifier -/

theorem canIdGen_toNat (source desti reg : BitVec 29) :
    (canIdGen source desti reg).toNat =
      source.toNat % 2 ^ 5 * 2 ^ 24 + desti.toNat % 2 ^ 5 * 2 ^ 19 + reg.toNat % 2 ^ 16 := by
  have field : ∀ (value : BitVec 29) (mask bits : Nat), mask = 2 ^ bits - 1 → bits ≤ 29 →
      (value &&& BitVec.ofNat 29 mask).toNat = value.toNat % 2 ^ bits := by
    rintro value _ bits rfl le
    have : 2 ^ bits ≤ 2 ^ 29 := Nat.pow_le_pow_right (by decide) le
    rw [BitVec.toNat_and, BitVec.toNat_ofNat, Nat.mod_eq_of_lt (by omega),
      Nat.and_two_pow_sub_one_eq_mod]
  have low := Nat.mod_lt reg.toNat (show 0 < 2 ^ 16 by decide)
  have middle := Nat.mod_lt desti.toNat (show 0 < 2 ^ 5 by decide)
  have high := Nat.mod_lt source.toNat (show 0 < 2 ^ 5 by decide)
  have first := Nat.shiftLeft_add_eq_or_of_lt (show reg.toNat % 2 ^ 16 < 2 ^ 19 by omega)
    (desti.toNat % 2 ^ 5)
  have second := Nat.shiftLeft_add_eq_or_of_lt
    (show desti.toNat % 2 ^ 5 * 2 ^ 19 + reg.toNat % 2 ^ 16 < 2 ^ 24 by omega) (source.toNat % 2 ^ 5)
  simp only [Nat.shiftLeft_eq] at first second
  simp only [canIdGen, BitVec.toNat_or, BitVec.toNat_shiftLeft, Nat.shiftLeft_eq,
    field _ 0x1F 5 rfl (by decide), field _ 0xFFFF 16 rfl (by decide), Nat.pow_zero, Nat.mul_one,
    BitVec.ofNat_eq_ofNat] at *
  rw [Nat.mod_eq_of_lt (show source.toNat % 2 ^ 5 * 2 ^ 24 < 2 ^ 29 by omega),
    Nat.mod_eq_of_lt (show desti.toNat % 2 ^ 5 * 2 ^ 19 < 2 ^ 29 by omega),
    Nat.mod_eq_of_lt (show reg.toNat % 2 ^ 16 < 2 ^ 29 by omega),
    Nat.or_assoc, ← first, ← second, ← Nat.add_assoc]

theorem otaDataBlockReply_id (otaDataOk : UInt8) (frameid : UInt16) :
    (otaDataBlockReply otaDataOk frameid).id.toNat = 2081 * 2 ^ 16 + frameid.toNat := by
  -- the block number sits in the low 16 bits, under the class bit that marks a data block
  have bound := frameid.toNat_lt
  have plain : (canIdGenByReg (frameid.toBitVec.setWidth 29)).toNat = 2080 <<< 16 ||| frameid.toNat := by
    rw [canIdGenByReg, canIdGen_toNat, ← Nat.shiftLeft_add_eq_or_of_lt bound]
    simp only [canIdentyMonitorBorad, canIdentyMainBorad, BitVec.toNat_setWidth, Nat.shiftLeft_eq,
      BitVec.reduceToNat, UInt16.toNat_toBitVec]
    omega
  have marked : 2080 <<< 16 ||| frameid.toNat ||| 65536 = 2081 <<< 16 ||| frameid.toNat := by
    rw [Nat.or_assoc, Nat.or_comm frameid.toNat, ← Nat.or_assoc]
    rfl
  rw [otaDataBlockReply, extendedFrame, BitVec.toNat_or, plain,
    show (0x10000 : BitVec 29).toNat = 65536 from rfl, marked,
    ← Nat.shiftLeft_add_eq_or_of_lt bound, Nat.shiftLeft_eq]

@[simp] theorem otaDataBlockReply_frameId (otaDataOk : UInt8) (frameid : UInt16) :
    (otaDataBlockReply otaDataOk frameid).frameId = frameid := by
  have bound := frameid.toNat_lt
  apply UInt16.toNat_inj.mp
  show (((otaDataBlockReply otaDataOk frameid).id &&& 0xFFFF).setWidth 16).toNat = _
  rw [BitVec.toNat_setWidth, BitVec.toNat_and, otaDataBlockReply_id,
    show (0xFFFF : BitVec 29).toNat = 2 ^ 16 - 1 from rfl, Nat.and_two_pow_sub_one_eq_mod]
  omega

@[simp] theorem otaDataBlockReply_class (otaDataOk : UInt8) (frameid : UInt16) :
    (otaDataBlockReply otaDataOk frameid).messageClass = 1 := by
  have bound := frameid.toNat_lt
  apply BitVec.eq_of_toNat_eq
  rw [RtCanMsg.messageClass, BitVec.toNat_and, BitVec.toNat_ushiftRight, otaDataBlockReply_id,
    show (0x7 : BitVec 29).toNat = 2 ^ 3 - 1 from rfl, Nat.and_two_pow_sub_one_eq_mod,
    Nat.shiftRight_eq_div_pow, show (1 : BitVec 29).toNat = 1 from rfl]
  omega

theorem otaDataBlockReply_ne (frameid : UInt16) :
    otaDataBlockReply 1 frameid ≠ otaDataBlockReply 0 frameid := fun same => by
  have := congrArg (fun msg => msg.data[0]) same
  simp [otaDataBlockReply, extendedFrame] at this

@[simp] theorem otaEndReply_class (otaOk : UInt8) : (otaEndReply otaOk).messageClass = 0 := by
  have : (canIdGenByReg canIdHandtoolOtaEndReply >>> 16) &&& 0x7 = 0 := by decide
  exact this

end DetectBoard.Can
