import DetectBoard.Checksum
import DetectBoard.Library.ShiftRegister

/-! The CRC tables as the shift register that they stand for, and what the CRC
of an image tells about it.

The register of the reflected CRC-16 has `crc_hi` at its low end, so what the C
functions return is the register with its two bytes exchanged.
-/

set_option autoImplicit false

namespace DetectBoard

open Library

/-- The polynomial of the Modbus CRC, for a register that shifts to the right. -/
def modbusPoly : BitVec 16 := 0xA001

def exchanged (crc : UInt16) : UInt16 := crc <<< 8 ||| crc >>> 8

/-- The reflected CRC-16 bit by bit. -/
def bitwiseCrc16 (init : UInt16) (message : List UInt8) : UInt16 :=
  .ofBitVec (remainder modbusPoly init.toBitVec (message.map UInt8.toBitVec))

/-- One call of `modbus_rtu_crc16_frame` for each frame, as the OTA makes them. -/
def framesCrc16 (init : UInt16) (frames : List (List UInt8)) : UInt16 :=
  frames.foldl (fun crc frame => modbusRtuCrc16Frame frame (.ofNat frame.length) crc) init

/-! ## The tables -/

/-- The entries of both tables are the remainders of the single bytes. -/
theorem table_feeds :
    List.zipWith (fun lo hi : UInt8 => lo.toNat <<< 8 ||| hi.toNat) tableCrcLo.toList tableCrcHi.toList =
      (List.range 256).map fun i => (feeds modbusPoly 8 (.ofNat 16 i)).toNat := by
  decide +kernel

theorem table_register (i : Fin 256) :
    (tableCrcLo.get i).toBitVec ++ (tableCrcHi.get i).toBitVec = feeds modbusPoly 8 (.ofNat 16 i) := by
  have entry := congrArg (fun words => words[i.val]?) table_feeds
  rw [List.getElem?_map, List.getElem?_range i.isLt] at entry
  simp only [List.getElem?_zipWith, Vector.getElem?_toList, Fin.is_lt, Vector.getElem?_eq_getElem,
    Option.map_some, Option.some.injEq] at entry
  apply BitVec.eq_of_toNat_eq
  rw [BitVec.toNat_append]
  exact entry

namespace CrcBytes

def register (crc : CrcBytes) : BitVec 16 := crc.lo.toBitVec ++ crc.hi.toBitVec

theorem register_bit (crc : CrcBytes) (i : ℕ) : crc.register.getLsbD i =
    if i < 8 then crc.hi.toBitVec.getLsbD i else crc.lo.toBitVec.getLsbD (i - 8) :=
  BitVec.getLsbD_append

/-- What is returned is the register with its bytes exchanged. -/
theorem exchanged_register (crc : CrcBytes) : exchanged (.ofBitVec crc.register) = crc.word := by
  apply UInt16.toBitVec_inj.mp
  apply BitVec.eq_of_getLsbD_eq
  intro i bound
  have above : ¬ 8 + i < 8 := by omega
  by_cases low : i < 8
  · simp [exchanged, word, register_bit, low, above, bound]
  · have high : i - 8 < 8 := by omega
    have both : i - 8 < 16 := by omega
    simp [exchanged, word, register_bit, low, above, bound, high, both, -BitVec.getLsbD_eq_getElem]

theorem register_next (crc : CrcBytes) (byte : UInt8) :
    (crc.next byte).register = absorb modbusPoly crc.register byte.toBitVec := by
  have entry := table_register (crc.hi ^^^ byte).toFin
  have low : crc.register.setWidth 8 = crc.hi.toBitVec := BitVec.setWidth_append_eq_right
  have index : BitVec.ofNat 16 (crc.hi ^^^ byte).toFin = (crc.hi.toBitVec ^^^ byte.toBitVec).setWidth 16 :=
    BitVec.ofNat_toNat 16 (crc.hi ^^^ byte).toBitVec
  rw [absorb_table, low, ← index, ← entry]
  apply BitVec.eq_of_getLsbD_eq
  intro i bound
  have above : ¬ 8 + i < 8 := by omega
  rw [BitVec.getLsbD_xor, BitVec.getLsbD_ushiftRight, register_bit crc, if_neg above, Nat.add_sub_cancel_left,
    BitVec.getLsbD_append, register_bit, next]
  dsimp only
  split
  · rw [UInt8.toBitVec_xor, BitVec.getLsbD_xor]
  · rw [BitVec.getLsbD_of_ge crc.lo.toBitVec i (by omega), Bool.false_xor]

theorem register_foldl (crc : CrcBytes) (message : List UInt8) :
    (message.foldl next crc).register = remainder modbusPoly crc.register (message.map UInt8.toBitVec) := by
  induction message generalizing crc with
  | nil => rfl
  | cons byte rest ih => rw [List.foldl_cons, ih, register_next]; rfl

theorem register_ofWord (crc : UInt16) : (ofWord crc).register = (exchanged crc).toBitVec := by
  apply BitVec.eq_of_getLsbD_eq
  intro i bound
  rw [register_bit]
  split
  · next low => simp [exchanged, ofWord, low]
  · next high =>
    have inside : i - 8 < 8 := by omega
    have ones : (255#8).getLsbD (i - 8) = true := by
      rw [show 255#8 = BitVec.allOnes 8 from rfl, BitVec.getLsbD_allOnes, decide_eq_true inside]
    simp [exchanged, ofWord, high, ones, inside, bound, BitVec.getLsbD_of_ge crc.toBitVec (8 + i) (by omega),
      -BitVec.getLsbD_eq_getElem]

theorem word_ofWord (crc : UInt16) : (ofWord crc).word = crc := by
  apply UInt16.toNat_inj.mp
  have bound := crc.toNat_lt
  rw [word_toNat, ofWord]
  simp only [UInt16.toNat_toUInt8, UInt16.toNat_shiftRight, UInt16.toNat_and]
  rw [show UInt16.toNat 8 % 16 = 8 from rfl, show UInt16.toNat 0xFF = 2 ^ 8 - 1 from rfl,
    Nat.and_two_pow_sub_one_eq_mod, Nat.shiftRight_eq_div_pow]
  omega

end CrcBytes

/-! ## Messages in one or more frames -/

section Messages

variable {frame message message' : List UInt8} {frames : List (List UInt8)} {init : UInt16}

theorem whole_length (short : message.length < 65536) :
    message.take (UInt16.ofNat message.length).toNat = message := by
  rw [UInt16.toNat_ofNat_of_lt' short, List.take_length]

theorem framesCrc16_eq (short : frames.flatten.length < 65536) (init : UInt16) :
    framesCrc16 init frames = crc16From init frames.flatten := by
  induction frames generalizing init with
  | nil => exact (CrcBytes.word_ofWord init).symm
  | cons frame rest ih =>
    rw [List.flatten_cons, List.length_append] at short
    have first : modbusRtuCrc16Frame frame (.ofNat frame.length) init = crc16From init frame := by
      rw [modbusRtuCrc16Frame_eq, whole_length (by omega)]
    rw [framesCrc16, List.foldl_cons, first, List.flatten_cons, crc16From_append]
    exact ih (by omega) _

theorem crc16From_bitwise (init : UInt16) (message : List UInt8) :
    crc16From init message = exchanged (bitwiseCrc16 (exchanged init) message) := by
  rw [crc16From, ← CrcBytes.exchanged_register, CrcBytes.register_foldl, CrcBytes.register_ofWord, bitwiseCrc16]

theorem crc16From_detects (corrupted : LocallyCorrupted message message') (init : UInt16) :
    crc16From init message ≠ crc16From init message' := by
  intro same
  have bytes := congrArg CrcBytes.ofWord same
  rw [crc16From, crc16From, CrcBytes.ofWord_word, CrcBytes.ofWord_word] at bytes
  have registers := congrArg CrcBytes.register bytes
  rw [CrcBytes.register_foldl, CrcBytes.register_foldl] at registers
  have bits : Function.Injective UInt8.toBitVec := fun _ _ => UInt8.toBitVec_inj.mp
  exact remainder_detects (by decide) (Nat.le_refl 16) _ (corrupted.map bits) registers

/-- However a message is cut into frames, the table-driven CRC is the bitwise one with its bytes
exchanged. -/
theorem framesCrc16_bitwise (cut : frames.flatten = message) (short : message.length < 65536) :
    framesCrc16 0xFFFF frames = modbusRtuCrc16 message (.ofNat message.length) ∧
      modbusRtuCrc16 message (.ofNat message.length) = exchanged (bitwiseCrc16 0xFFFF message) ∧
      ∀ init, framesCrc16 init frames = modbusRtuCrc16Frame message (.ofNat message.length) init ∧
        modbusRtuCrc16Frame message (.ofNat message.length) init =
          exchanged (bitwiseCrc16 (exchanged init) message) := by
  subst cut
  have pieces := framesCrc16_eq short
  have whole := whole_length short
  refine ⟨?_, ?_, fun init => ⟨?_, ?_⟩⟩
  · rw [pieces, modbusRtuCrc16_eq, whole, crc16]
  · rw [modbusRtuCrc16_eq, whole, crc16, crc16From_bitwise]
    rfl
  · rw [pieces, modbusRtuCrc16Frame_eq, whole]
  · rw [modbusRtuCrc16Frame_eq, whole, crc16From_bitwise]

theorem framesCrc16_bitwise_digits :
    framesCrc16 0xFFFF [[0x31, 0x32, 0x33], [], [0x34, 0x35, 0x36, 0x37, 0x38, 0x39]] = 0x374B ∧
      exchanged (bitwiseCrc16 0xFFFF [0x31, 0x32, 0x33, 0x34, 0x35, 0x36, 0x37, 0x38, 0x39]) = 0x374B := by
  have parts := @framesCrc16_bitwise _ [[0x31, 0x32, 0x33], [], [0x34, 0x35, 0x36, 0x37, 0x38, 0x39]] rfl (by decide)
  have value : modbusRtuCrc16 [0x31, 0x32, 0x33, 0x34, 0x35, 0x36, 0x37, 0x38, 0x39] 9 = 0x374B := by decide +kernel
  exact ⟨parts.1.trans value, parts.2.1.symm.trans value⟩

end Messages
end DetectBoard
