import Mathlib.Data.UInt
import Mathlib.Algebra.Order.Group.Unbundled.Int
import Mathlib.Algebra.BigOperators.Group.List.Basic

/-! The wave tables of `dac.c`, and the entry of a table that a sample is multiplied with. -/

set_option autoImplicit false

namespace DetectBoard.Lcr

inductive FreT where
  | dacWorkFre100Hz
  | dacWorkFre1kHz
  | dacWorkFre10kHz
  deriving DecidableEq, Repr

/-- `DAC_OUT_RANGE`: by its comments the tables span 0 to 2.5 V at the value 0, and 0.1 to 2.4 V at 1. -/
inductive DacOutRange where
  | normal
  | reduced
  deriving DecidableEq, Repr

def dacOutRange : DacOutRange := .reduced

def dacWave10khzBufSize : ℕ := 50
def dacWave1khzBufSize : ℕ := 100
def dacWave100hzBufSize : ℕ := 200

def userDacWave10khzBuf : DacOutRange → List UInt16
  | .normal => [
    0x7ff, 0x900, 0x9fc, 0xaf1, 0xbd9, 0xcb2, 0xd79, 0xe29, 0xec0, 0xf3c, 0xf9a, 0xfda, 0xffa, 0xffa, 0xfda, 0xf9a,
    0xf3c, 0xec0, 0xe29, 0xd79, 0xcb2, 0xbd9, 0xaf1, 0x9fc, 0x900, 0x7ff, 0x6fe, 0x602, 0x50d, 0x425, 0x34c, 0x285,
    0x1d5, 0x13e, 0x0c2, 0x064, 0x024, 0x004, 0x004, 0x024, 0x064, 0x0c2, 0x13e, 0x1d5, 0x285, 0x34c, 0x425, 0x50d,
    0x602, 0x6fe]
  | .reduced => [
    0x755, 0x831, 0x908, 0x9da, 0xaa1, 0xb5b, 0xc05, 0xc9c, 0xd1d, 0xd88, 0xdd8, 0xe0f, 0xe2a, 0xe2a, 0xe0f, 0xdd8,
    0xd88, 0xd1d, 0xc9c, 0xc05, 0xb5b, 0xaa1, 0x9da, 0x908, 0x831, 0x755, 0x678, 0x5a1, 0x4cf, 0x408, 0x34e, 0x2a4,
    0x20d, 0x18c, 0x122, 0xd1, 0x9a, 0x7f, 0x7f, 0x9a, 0xd1, 0x122, 0x18c, 0x20d, 0x2a4, 0x34e, 0x408, 0x4cf,
    0x5a1, 0x678]

def userDacWave1khzBuf : DacOutRange → List UInt16
  | .normal => [
    0x7ff, 0x880, 0x900, 0x97f, 0x9fc, 0xa78, 0xaf1, 0xb67, 0xbd9, 0xc48, 0xcb2, 0xd18, 0xd79, 0xdd4, 0xe29, 0xe77,
    0xec0, 0xf01, 0xf3c, 0xf6f, 0xf9a, 0xfbe, 0xfda, 0xfee, 0xffa, 0xffe, 0xffa, 0xfee, 0xfda, 0xfbe, 0xf9a, 0xf6f,
    0xf3c, 0xf01, 0xec0, 0xe77, 0xe29, 0xdd4, 0xd79, 0xd18, 0xcb2, 0xc48, 0xbd9, 0xb67, 0xaf1, 0xa78, 0x9fc, 0x97f,
    0x900, 0x880, 0x7ff, 0x77e, 0x6fe, 0x67f, 0x602, 0x586, 0x50d, 0x497, 0x425, 0x3b6, 0x34c, 0x2e6, 0x285, 0x22a,
    0x1d5, 0x187, 0x13e, 0x0fd, 0x0c2, 0x08f, 0x064, 0x040, 0x024, 0x010, 0x004, 0x000, 0x004, 0x010, 0x024, 0x040,
    0x064, 0x08f, 0x0c2, 0x0fd, 0x13e, 0x187, 0x1d5, 0x22a, 0x285, 0x2e6, 0x34c, 0x3b6, 0x425, 0x497, 0x50d, 0x586,
    0x602, 0x67f, 0x6fe, 0x77e]
  | .reduced => [
    0x755, 0x7c3, 0x831, 0x89d, 0x908, 0x973, 0x9da, 0xa3f, 0xaa1, 0xb00, 0xb5b, 0xbb2, 0xc05, 0xc53, 0xc9c, 0xcdf,
    0xd1d, 0xd55, 0xd88, 0xdb3, 0xdd8, 0xdf7, 0xe0f, 0xe20, 0xe2a, 0xe2e, 0xe2a, 0xe20, 0xe0f, 0xdf7, 0xdd8, 0xdb3,
    0xd88, 0xd55, 0xd1d, 0xcdf, 0xc9c, 0xc53, 0xc05, 0xbb2, 0xb5b, 0xb00, 0xaa1, 0xa3f, 0x9da, 0x973, 0x908, 0x89d,
    0x831, 0x7c3, 0x755, 0x6e6, 0x678, 0x60c, 0x5a1, 0x536, 0x4cf, 0x46a, 0x408, 0x3a9, 0x34e, 0x2f7, 0x2a4, 0x256,
    0x20d, 0x1ca, 0x18c, 0x154, 0x122, 0xf6, 0xd1, 0xb2, 0x9a, 0x89, 0x7f, 0x7c, 0x7f, 0x89, 0x9a, 0xb2,
    0xd1, 0xf6, 0x122, 0x154, 0x18c, 0x1ca, 0x20d, 0x256, 0x2a4, 0x2f7, 0x34e, 0x3a9, 0x408, 0x46a, 0x4cf, 0x536,
    0x5a1, 0x60c, 0x678, 0x6e6]

def userDacWave100hzBuf : DacOutRange → List UInt16
  | .normal => [
    0x7ff, 0x83f, 0x880, 0x8c0, 0x900, 0x93f, 0x97f, 0x9be, 0x9fc, 0xa3a, 0xa78, 0xab5, 0xaf1, 0xb2c, 0xb67, 0xba1,
    0xbd9, 0xc11, 0xc48, 0xc7e, 0xcb2, 0xce6, 0xd18, 0xd49, 0xd79, 0xda7, 0xdd4, 0xdff, 0xe29, 0xe51, 0xe77, 0xe9c,
    0xec0, 0xee1, 0xf01, 0xf1f, 0xf3c, 0xf56, 0xf6f, 0xf85, 0xf9a, 0xfad, 0xfbe, 0xfcd, 0xfda, 0xfe5, 0xfee, 0xff5,
    0xffa, 0xffd, 0xffe, 0xffd, 0xffa, 0xff5, 0xfee, 0xfe5, 0xfda, 0xfcd, 0xfbe, 0xfad, 0xf9a, 0xf85, 0xf6f, 0xf56,
    0xf3c, 0xf1f, 0xf01, 0xee1, 0xec0, 0xe9c, 0xe77, 0xe51, 0xe29, 0xdff, 0xdd4, 0xda7, 0xd79, 0xd49, 0xd18, 0xce6,
    0xcb2, 0xc7e, 0xc48, 0xc11, 0xbd9, 0xba1, 0xb67, 0xb2c, 0xaf1, 0xab5, 0xa78, 0xa3a, 0x9fc, 0x9be, 0x97f, 0x93f,
    0x900, 0x8c0, 0x880, 0x83f, 0x7ff, 0x7bf, 0x77e, 0x73e, 0x6fe, 0x6bf, 0x67f, 0x640, 0x602, 0x5c4, 0x586, 0x549,
    0x50d, 0x4d2, 0x497, 0x45d, 0x425, 0x3ed, 0x3b6, 0x380, 0x34c, 0x318, 0x2e6, 0x2b5, 0x285, 0x257, 0x22a, 0x1ff,
    0x1d5, 0x1ad, 0x187, 0x162, 0x13e, 0x11d, 0x0fd, 0x0df, 0x0c2, 0x0a8, 0x08f, 0x079, 0x064, 0x051, 0x040, 0x031,
    0x024, 0x019, 0x010, 0x009, 0x004, 0x001, 0x000, 0x001, 0x004, 0x009, 0x010, 0x019, 0x024, 0x031, 0x040, 0x051,
    0x064, 0x079, 0x08f, 0x0a8, 0x0c2, 0x0df, 0x0fd, 0x11d, 0x13e, 0x162, 0x187, 0x1ad, 0x1d5, 0x1ff, 0x22a, 0x257,
    0x285, 0x2b5, 0x2e6, 0x318, 0x34c, 0x380, 0x3b6, 0x3ed, 0x425, 0x45d, 0x497, 0x4d2, 0x50d, 0x549, 0x586, 0x5c4,
    0x602, 0x640, 0x67f, 0x6bf, 0x6fe, 0x73e, 0x77e, 0x7bf]
  | .reduced => [
    0x755, 0x78b, 0x7c3, 0x7fa, 0x831, 0x867, 0x89d, 0x8d3, 0x908, 0x93e, 0x973, 0x9a7, 0x9da, 0xa0d, 0xa3f, 0xa71,
    0xaa1, 0xad1, 0xb00, 0xb2e, 0xb5b, 0xb87, 0xbb2, 0xbdc, 0xc05, 0xc2d, 0xc53, 0xc78, 0xc9c, 0xcbe, 0xcdf, 0xcfe,
    0xd1d, 0xd3a, 0xd55, 0xd6f, 0xd88, 0xd9e, 0xdb3, 0xdc6, 0xdd8, 0xde8, 0xdf7, 0xe04, 0xe0f, 0xe18, 0xe20, 0xe26,
    0xe2a, 0xe2d, 0xe2e, 0xe2d, 0xe2a, 0xe26, 0xe20, 0xe18, 0xe0f, 0xe04, 0xdf7, 0xde8, 0xdd8, 0xdc6, 0xdb3, 0xd9e,
    0xd88, 0xd6f, 0xd55, 0xd3a, 0xd1d, 0xcfe, 0xcdf, 0xcbe, 0xc9c, 0xc78, 0xc53, 0xc2d, 0xc05, 0xbdc, 0xbb2, 0xb87,
    0xb5b, 0xb2e, 0xb00, 0xad1, 0xaa1, 0xa71, 0xa3f, 0xa0d, 0x9da, 0x9a7, 0x973, 0x93e, 0x908, 0x8d3, 0x89d, 0x867,
    0x831, 0x7fa, 0x7c3, 0x78b, 0x755, 0x71e, 0x6e6, 0x6af, 0x678, 0x643, 0x60c, 0x5d6, 0x5a1, 0x56c, 0x536, 0x502,
    0x4cf, 0x49c, 0x46a, 0x438, 0x408, 0x3d8, 0x3a9, 0x37b, 0x34e, 0x322, 0x2f7, 0x2cd, 0x2a4, 0x27c, 0x256, 0x231,
    0x20d, 0x1eb, 0x1ca, 0x1ab, 0x18c, 0x170, 0x154, 0x13a, 0x122, 0x10b, 0xf6, 0xe3, 0xd1, 0xc1, 0xb2, 0xa5,
    0x9a, 0x91, 0x89, 0x83, 0x7f, 0x7c, 0x7c, 0x7c, 0x7f, 0x83, 0x89, 0x91, 0x9a, 0xa5, 0xb2, 0xc1,
    0xd1, 0xe3, 0xf6, 0x10b, 0x122, 0x13a, 0x154, 0x170, 0x18c, 0x1ab, 0x1ca, 0x1eb, 0x20d, 0x231, 0x256, 0x27c,
    0x2a4, 0x2cd, 0x2f7, 0x322, 0x34e, 0x37b, 0x3a9, 0x3d8, 0x408, 0x438, 0x46a, 0x49c, 0x4cf, 0x502, 0x536, 0x56c,
    0x5a1, 0x5d6, 0x60c, 0x643, 0x678, 0x6af, 0x6e6, 0x71e]

/-- The two switches over the frequency take the 1 kHz case for every other value. -/
def waveBufSize : FreT → ℕ
  | .dacWorkFre100Hz => dacWave100hzBufSize
  | .dacWorkFre1kHz => dacWave1khzBufSize
  | .dacWorkFre10kHz => dacWave10khzBufSize

def waveRef (outRange : DacOutRange) : FreT → List UInt16
  | .dacWorkFre100Hz => userDacWave100hzBuf outRange
  | .dacWorkFre1kHz => userDacWave1khzBuf outRange
  | .dacWorkFre10kHz => userDacWave10khzBuf outRange

theorem waveRef_length (outRange : DacOutRange) (setFre : FreT) :
    (waveRef outRange setFre).length = waveBufSize setFre := by
  cases outRange <;> cases setFre <;> rfl

theorem waveBufSize_pos (setFre : FreT) : 0 < waveBufSize setFre := by
  cases setFre <;> decide

/-- Half turns have no effect on the phase. -/
def modPos (setFre : FreT) (modPhase : UInt16) : ℕ :=
  waveBufSize setFre * (if modPhase ≥ 180 then modPhase % 180 else modPhase).toNat / 360

/-- The table entry for sample `i`. -/
def modRef (outRange : DacOutRange) (setFre : FreT) (modPhase : UInt16) (i : ℕ) : UInt16 :=
  (waveRef outRange setFre).getD ((i + modPos setFre modPhase) % waveBufSize setFre) 0

/-- A converter value in steps from the middle of the range. -/
def steps (value : UInt16) : ℤ := value.toNat - 2048

def tableOffset (outRange : DacOutRange) (setFre : FreT) : ℤ := ((waveRef outRange setFre).map steps).sum

theorem tableOffset_small_iff (outRange : DacOutRange) (setFre : FreT) :
    |tableOffset outRange setFre| ≤ waveBufSize setFre ↔ outRange = .normal := by
  cases outRange <;> cases setFre <;> decide +kernel

end DetectBoard.Lcr
