import Mathlib.Data.UInt
import Mathlib.Data.Nat.Bitwise

/-! The table-driven Modbus CRC-16 of `normal_calc.c`.

One call of the C functions covers at most 65535 bytes, the range of
`buffer_length`. The value of the same loop on a byte string of any length is
`crc16`; `file_crc_cur` is a value of that kind, built from one call per block.
-/

set_option autoImplicit false

namespace DetectBoard

set_option maxRecDepth 2000 in
def tableCrcHi : Vector UInt8 256 := #v[
  0x00, 0xC1, 0x81, 0x40, 0x01, 0xC0, 0x80, 0x41, 0x01, 0xC0, 0x80, 0x41, 0x00, 0xC1, 0x81, 0x40,
  0x01, 0xC0, 0x80, 0x41, 0x00, 0xC1, 0x81, 0x40, 0x00, 0xC1, 0x81, 0x40, 0x01, 0xC0, 0x80, 0x41,
  0x01, 0xC0, 0x80, 0x41, 0x00, 0xC1, 0x81, 0x40, 0x00, 0xC1, 0x81, 0x40, 0x01, 0xC0, 0x80, 0x41,
  0x00, 0xC1, 0x81, 0x40, 0x01, 0xC0, 0x80, 0x41, 0x01, 0xC0, 0x80, 0x41, 0x00, 0xC1, 0x81, 0x40,
  0x01, 0xC0, 0x80, 0x41, 0x00, 0xC1, 0x81, 0x40, 0x00, 0xC1, 0x81, 0x40, 0x01, 0xC0, 0x80, 0x41,
  0x00, 0xC1, 0x81, 0x40, 0x01, 0xC0, 0x80, 0x41, 0x01, 0xC0, 0x80, 0x41, 0x00, 0xC1, 0x81, 0x40,
  0x00, 0xC1, 0x81, 0x40, 0x01, 0xC0, 0x80, 0x41, 0x01, 0xC0, 0x80, 0x41, 0x00, 0xC1, 0x81, 0x40,
  0x01, 0xC0, 0x80, 0x41, 0x00, 0xC1, 0x81, 0x40, 0x00, 0xC1, 0x81, 0x40, 0x01, 0xC0, 0x80, 0x41,
  0x01, 0xC0, 0x80, 0x41, 0x00, 0xC1, 0x81, 0x40, 0x00, 0xC1, 0x81, 0x40, 0x01, 0xC0, 0x80, 0x41,
  0x00, 0xC1, 0x81, 0x40, 0x01, 0xC0, 0x80, 0x41, 0x01, 0xC0, 0x80, 0x41, 0x00, 0xC1, 0x81, 0x40,
  0x00, 0xC1, 0x81, 0x40, 0x01, 0xC0, 0x80, 0x41, 0x01, 0xC0, 0x80, 0x41, 0x00, 0xC1, 0x81, 0x40,
  0x01, 0xC0, 0x80, 0x41, 0x00, 0xC1, 0x81, 0x40, 0x00, 0xC1, 0x81, 0x40, 0x01, 0xC0, 0x80, 0x41,
  0x00, 0xC1, 0x81, 0x40, 0x01, 0xC0, 0x80, 0x41, 0x01, 0xC0, 0x80, 0x41, 0x00, 0xC1, 0x81, 0x40,
  0x01, 0xC0, 0x80, 0x41, 0x00, 0xC1, 0x81, 0x40, 0x00, 0xC1, 0x81, 0x40, 0x01, 0xC0, 0x80, 0x41,
  0x01, 0xC0, 0x80, 0x41, 0x00, 0xC1, 0x81, 0x40, 0x00, 0xC1, 0x81, 0x40, 0x01, 0xC0, 0x80, 0x41,
  0x00, 0xC1, 0x81, 0x40, 0x01, 0xC0, 0x80, 0x41, 0x01, 0xC0, 0x80, 0x41, 0x00, 0xC1, 0x81, 0x40]

set_option maxRecDepth 2000 in
def tableCrcLo : Vector UInt8 256 := #v[
  0x00, 0xC0, 0xC1, 0x01, 0xC3, 0x03, 0x02, 0xC2, 0xC6, 0x06, 0x07, 0xC7, 0x05, 0xC5, 0xC4, 0x04,
  0xCC, 0x0C, 0x0D, 0xCD, 0x0F, 0xCF, 0xCE, 0x0E, 0x0A, 0xCA, 0xCB, 0x0B, 0xC9, 0x09, 0x08, 0xC8,
  0xD8, 0x18, 0x19, 0xD9, 0x1B, 0xDB, 0xDA, 0x1A, 0x1E, 0xDE, 0xDF, 0x1F, 0xDD, 0x1D, 0x1C, 0xDC,
  0x14, 0xD4, 0xD5, 0x15, 0xD7, 0x17, 0x16, 0xD6, 0xD2, 0x12, 0x13, 0xD3, 0x11, 0xD1, 0xD0, 0x10,
  0xF0, 0x30, 0x31, 0xF1, 0x33, 0xF3, 0xF2, 0x32, 0x36, 0xF6, 0xF7, 0x37, 0xF5, 0x35, 0x34, 0xF4,
  0x3C, 0xFC, 0xFD, 0x3D, 0xFF, 0x3F, 0x3E, 0xFE, 0xFA, 0x3A, 0x3B, 0xFB, 0x39, 0xF9, 0xF8, 0x38,
  0x28, 0xE8, 0xE9, 0x29, 0xEB, 0x2B, 0x2A, 0xEA, 0xEE, 0x2E, 0x2F, 0xEF, 0x2D, 0xED, 0xEC, 0x2C,
  0xE4, 0x24, 0x25, 0xE5, 0x27, 0xE7, 0xE6, 0x26, 0x22, 0xE2, 0xE3, 0x23, 0xE1, 0x21, 0x20, 0xE0,
  0xA0, 0x60, 0x61, 0xA1, 0x63, 0xA3, 0xA2, 0x62, 0x66, 0xA6, 0xA7, 0x67, 0xA5, 0x65, 0x64, 0xA4,
  0x6C, 0xAC, 0xAD, 0x6D, 0xAF, 0x6F, 0x6E, 0xAE, 0xAA, 0x6A, 0x6B, 0xAB, 0x69, 0xA9, 0xA8, 0x68,
  0x78, 0xB8, 0xB9, 0x79, 0xBB, 0x7B, 0x7A, 0xBA, 0xBE, 0x7E, 0x7F, 0xBF, 0x7D, 0xBD, 0xBC, 0x7C,
  0xB4, 0x74, 0x75, 0xB5, 0x77, 0xB7, 0xB6, 0x76, 0x72, 0xB2, 0xB3, 0x73, 0xB1, 0x71, 0x70, 0xB0,
  0x50, 0x90, 0x91, 0x51, 0x93, 0x53, 0x52, 0x92, 0x96, 0x56, 0x57, 0x97, 0x55, 0x95, 0x94, 0x54,
  0x9C, 0x5C, 0x5D, 0x9D, 0x5F, 0x9F, 0x9E, 0x5E, 0x5A, 0x9A, 0x9B, 0x5B, 0x99, 0x59, 0x58, 0x98,
  0x88, 0x48, 0x49, 0x89, 0x4B, 0x8B, 0x8A, 0x4A, 0x4E, 0x8E, 0x8F, 0x4F, 0x8D, 0x4D, 0x4C, 0x8C,
  0x44, 0x84, 0x85, 0x45, 0x87, 0x47, 0x46, 0x86, 0x82, 0x42, 0x43, 0x83, 0x41, 0x81, 0x80, 0x40]

/-- The local variables `crc_hi` and `crc_lo`. -/
structure CrcBytes where
  hi : UInt8
  lo : UInt8
  deriving DecidableEq, Repr

namespace CrcBytes

def ofWord (crc : UInt16) : CrcBytes := ⟨(crc >>> 8).toUInt8, (crc &&& 0xFF).toUInt8⟩

def word (crc : CrcBytes) : UInt16 := crc.hi.toUInt16 <<< 8 ||| crc.lo.toUInt16

def next (crc : CrcBytes) (byte : UInt8) : CrcBytes :=
  let i := crc.hi ^^^ byte
  ⟨crc.lo ^^^ tableCrcHi.get i.toFin, tableCrcLo.get i.toFin⟩

theorem word_toNat (crc : CrcBytes) : crc.word.toNat = 256 * crc.hi.toNat + crc.lo.toNat := by
  have hi := crc.hi.toNat_lt
  have lo := crc.lo.toNat_lt
  have shifted := Nat.shiftLeft_add_eq_or_of_lt (show crc.lo.toNat < 2 ^ 8 from lo) crc.hi.toNat
  simp only [word, UInt16.toNat_or, UInt16.toNat_shiftLeft, UInt8.toNat_toUInt16]
  rw [show (UInt16.toNat 8) % 16 = 8 from rfl, Nat.shiftLeft_eq, Nat.mod_eq_of_lt (by omega),
    ← Nat.shiftLeft_eq, ← shifted, Nat.shiftLeft_eq]
  omega

@[simp] theorem ofWord_word (crc : CrcBytes) : ofWord crc.word = crc := by
  -- splitting the returned word gives the two bytes back, so a CRC can be continued
  have value := crc.word_toNat
  have hi := crc.hi.toNat_lt
  have lo := crc.lo.toNat_lt
  have high : (crc.word >>> 8).toUInt8 = crc.hi := by
    apply UInt8.toNat_inj.mp
    simp only [UInt16.toNat_toUInt8, UInt16.toNat_shiftRight]
    rw [show (UInt16.toNat 8) % 16 = 8 from rfl, Nat.shiftRight_eq_div_pow]
    omega
  have low : (crc.word &&& 0xFF).toUInt8 = crc.lo := by
    apply UInt8.toNat_inj.mp
    simp only [UInt16.toNat_toUInt8, UInt16.toNat_and]
    rw [show UInt16.toNat 0xFF = 2 ^ 8 - 1 from rfl, Nat.and_two_pow_sub_one_eq_mod]
    omega
  rw [ofWord, high, low]

end CrcBytes

def modbusRtuCrc16 (buffer : List UInt8) (bufferLength : UInt16) : UInt16 :=
  ((buffer.take bufferLength.toNat).foldl CrcBytes.next ⟨0xFF, 0xFF⟩).word

def modbusRtuCrc16Frame (buffer : List UInt8) (bufferLength initCrc : UInt16) : UInt16 :=
  ((buffer.take bufferLength.toNat).foldl CrcBytes.next (.ofWord initCrc)).word

/-- The loop of `modbus_rtu_crc16_frame` over a whole byte string. -/
def crc16From (init : UInt16) (message : List UInt8) : UInt16 :=
  (message.foldl CrcBytes.next (.ofWord init)).word

/-- The loop of `modbus_rtu_crc16` over a whole byte string. -/
def crc16 (message : List UInt8) : UInt16 := crc16From 0xFFFF message

theorem modbusRtuCrc16_eq (buffer : List UInt8) (bufferLength : UInt16) :
    modbusRtuCrc16 buffer bufferLength = crc16 (buffer.take bufferLength.toNat) := rfl

theorem modbusRtuCrc16Frame_eq (buffer : List UInt8) (bufferLength initCrc : UInt16) :
    modbusRtuCrc16Frame buffer bufferLength initCrc =
      crc16From initCrc (buffer.take bufferLength.toNat) := rfl

@[simp] theorem crc16_nil : crc16 [] = 0xFFFF := by decide

theorem crc16From_append (init : UInt16) (first rest : List UInt8) :
    crc16From init (first ++ rest) = crc16From (crc16From init first) rest := by
  simp [crc16From]

theorem crc16_append (first rest : List UInt8) :
    crc16 (first ++ rest) = crc16From (crc16 first) rest :=
  crc16From_append 0xFFFF first rest

end DetectBoard
