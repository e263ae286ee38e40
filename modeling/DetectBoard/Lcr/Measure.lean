import DetectBoard.Library.Correlation
import DetectBoard.Lcr.WaveTable
import Mathlib.Analysis.SpecialFunctions.Trigonometric.Arctan

/-! The lock-in detection of the sampled waves and what `LCR_Mea_Calc` makes of both channels: from the samples of
`adc.c` through `lcr_calc.c` and the polar forms of `math_calc.c`.

The arithmetic is exact: in a field that the caller chooses, and from the amplitudes on in the real numbers. A
division by zero gives nothing.
-/

set_option autoImplicit false

namespace DetectBoard.Lcr

open Library

section Signal

variable {K : Type} [Field K] (outRange : DacOutRange) (setFre : FreT)

/-- A table entry as a voltage around the middle of the converter's range. -/
def waveVolt (ref : UInt16) : K := ref.toNat * 2.5 / 4096 - 2.5 / 2

def reference (modPhase : UInt16) (i : ℕ) : K := waveVolt (modRef outRange setFre modPhase i)

def lcrModulateSignal (waveBuf : List K) (modPhase : UInt16) : K :=
  2 * correlate (reference outRange setFre modPhase) 0 waveBuf / waveBuf.length

end Signal

/-! ## A constant offset of the wave -/

section Offset

variable {K : Type} [Field K] (outRange : DacOutRange) (setFre : FreT) (modPhase : UInt16)

theorem waveVolt_steps [CharZero K] (ref : UInt16) : (waveVolt ref : K) = 2.5 / 4096 * (steps ref : ℤ) := by
  rw [waveVolt, steps]
  push_cast
  ring

theorem reference_periodic :
    Function.Periodic (reference outRange setFre modPhase : ℕ → K) (waveBufSize setFre) := fun i => by
  rw [reference, reference, modRef, modRef, Nat.add_right_comm, Nat.add_mod_right]

theorem reference_sum [CharZero K] :
    ∑ j ∈ Finset.range (waveBufSize setFre), (reference outRange setFre modPhase j : K) =
      2.5 / 4096 * (tableOffset outRange setFre : ℤ) := by
  have table := sum_cycle (waveRef outRange setFre) 0 (waveVolt : UInt16 → K) (modPos setFre modPhase)
  rw [waveRef_length] at table
  simp only [reference, modRef, Nat.add_comm _ (modPos setFre modPhase)]
  rw [table, tableOffset, Int.cast_list_sum, List.map_map, ← List.sum_map_mul_left]
  exact congrArg List.sum (List.map_congr_left fun ref _ => waveVolt_steps ref)

/-- Over whole periods an offset of the wave is multiplied with the mean of the table, twice. -/
theorem lcrModulateSignal_offset [CharZero K] {waveBuf : List K} {periods : ℕ}
    (whole : waveBuf.length = periods * waveBufSize setFre) (nonempty : waveBuf ≠ []) (c : K) :
    lcrModulateSignal outRange setFre (waveBuf.map (· + c)) modPhase =
      lcrModulateSignal outRange setFre waveBuf modPhase +
        c * (2 * 2.5 / 4096) * ((tableOffset outRange setFre : ℤ) / (waveBufSize setFre : ℕ)) := by
  have size : ((waveBufSize setFre : ℕ) : K) ≠ 0 := Nat.cast_ne_zero.mpr (waveBufSize_pos setFre).ne'
  have length : ((waveBuf.length : ℕ) : K) ≠ 0 := Nat.cast_ne_zero.mpr (List.length_pos_iff.mpr nonempty).ne'
  have count : (periods : K) * (waveBufSize setFre : ℕ) = (waveBuf.length : ℕ) := by
    rw [whole]
    push_cast
    ring
  rw [lcrModulateSignal, lcrModulateSignal, List.length_map,
    correlate_offset 0 (reference_periodic outRange setFre modPhase) whole, reference_sum]
  have repeats : (periods : K) ≠ 0 := left_ne_zero_of_mul (count ▸ length)
  rw [← count]
  field_simp

end Offset

/-- Over whole periods the detector keeps an offset of the wave below one step of the converter if and only if
the tables are those of the normal range, or there is no offset. -/
theorem rejects_offset_iff {K : Type} [Field K] [LinearOrder K] [IsStrictOrderedRing K] (outRange : DacOutRange)
    (setFre : FreT) (modPhase : UInt16) {waveBuf : List K} {periods : ℕ}
    (whole : waveBuf.length = periods * waveBufSize setFre) (nonempty : waveBuf ≠ []) (c : K) :
    |lcrModulateSignal outRange setFre (waveBuf.map (· + c)) modPhase -
        lcrModulateSignal outRange setFre waveBuf modPhase| ≤ |c| * 2 * 2.5 / 4096 ↔
      outRange = .normal ∨ c = 0 := by
  have size : (0 : K) < (waveBufSize setFre : ℕ) := Nat.cast_pos.mpr (waveBufSize_pos setFre)
  have table : |((tableOffset outRange setFre : ℤ) : K) / (waveBufSize setFre : ℕ)| ≤ 1 ↔ outRange = .normal := by
    rw [abs_div, abs_of_pos size, div_le_one size, ← tableOffset_small_iff outRange setFre]
    exact_mod_cast Iff.rfl
  have step : (0 : K) < 2 * 2.5 / 4096 := by norm_num
  rw [lcrModulateSignal_offset outRange setFre modPhase whole nonempty, add_sub_cancel_left, abs_mul, abs_mul,
    abs_of_pos step, mul_assoc |c| 2, mul_div_assoc |c|]
  rcases eq_or_ne c 0 with rfl | offset
  · simp
  · have positive : 0 < |c| * (2 * 2.5 / 4096) := mul_pos (abs_pos.mpr offset) step
    rw [mul_le_iff_le_one_right positive, table]
    exact (or_iff_left offset).symm

/-- With the tables as they are configured the detector keeps no offset of the wave below one step. -/
theorem modulate_rejects_dc_iff (setFre : FreT) (modPhase : UInt16) {waveBuf : List ℚ} {periods : ℕ}
    (whole : waveBuf.length = periods * waveBufSize setFre) (nonempty : waveBuf ≠ []) (c : ℚ) :
    |lcrModulateSignal dacOutRange setFre (waveBuf.map (· + c)) modPhase -
        lcrModulateSignal dacOutRange setFre waveBuf modPhase| ≤ |c| * 2 * 2.5 / 4096 ↔ c = 0 :=
  (rejects_offset_iff dacOutRange setFre modPhase whole nonempty c).trans (or_iff_right (by decide))

theorem modulate_rejects_no_dc :
    let waveBuf : List ℚ := List.replicate 200 1
    |lcrModulateSignal dacOutRange .dacWorkFre1kHz (waveBuf.map (· + 0)) 90 -
        lcrModulateSignal dacOutRange .dacWorkFre1kHz waveBuf 90| ≤ |0| * 2 * 2.5 / 4096 :=
  (modulate_rejects_dc_iff .dacWorkFre1kHz 90 (List.length_replicate.trans (Nat.two_mul 100).symm)
    (by simp) 0).mpr rfl

theorem modulate_keeps_dc :
    let waveBuf : List ℚ := List.replicate 200 0
    waveBuf.length = 2 * waveBufSize .dacWorkFre1kHz ∧
      ¬ |lcrModulateSignal dacOutRange .dacWorkFre1kHz (waveBuf.map (· + 0.11)) 0 -
        lcrModulateSignal dacOutRange .dacWorkFre1kHz waveBuf 0| ≤ |0.11| * 2 * 2.5 / 4096 := by
  -- the mean of the table is 171 steps below the middle that is subtracted
  have whole : (List.replicate 200 (0 : ℚ)).length = 2 * waveBufSize .dacWorkFre1kHz := List.length_replicate
  refine ⟨whole, fun kept => ?_⟩
  have small := (rejects_offset_iff dacOutRange .dacWorkFre1kHz 0 whole (by simp) 0.11).mp kept
  exact absurd small (by decide +kernel)

/-! ## The samples -/

abbrev userVoutDataNum : ℕ := 200
abbrev userAdcChNum : ℕ := 2
abbrev userAdcBufDataSize : ℕ := userAdcChNum * userVoutDataNum

section Adc

variable {K : Type} [Field K]

def adcVolt (sample : UInt16) : K := sample.toNat * 2.5 / 4096 * 2 - 2.5

/-- The samples of the two channels alternate in the buffer. -/
def channel (userAdcBuf : Vector UInt16 userAdcBufDataSize) (ch : Fin userAdcChNum) : Vector UInt16 userVoutDataNum :=
  .ofFn fun i => userAdcBuf.get ⟨i.val * 2 + ch.val, by
    have := i.isLt
    have := ch.isLt
    simp only [userAdcBufDataSize, userAdcChNum, userVoutDataNum] at *
    omega⟩

def userAdcGetValue (userAdcBuf : Vector UInt16 userAdcBufDataSize) (waveBufSize : UInt16) :
    List K × List K × UInt16 :=
  let waveBufSize := if waveBufSize.toNat > userAdcBufDataSize / userAdcChNum then 200 else waveBufSize
  (((channel userAdcBuf 0).toList.take waveBufSize.toNat).map adcVolt,
    ((channel userAdcBuf 1).toList.take waveBufSize.toNat).map adcVolt, waveBufSize)

end Adc

/-! ## The impedance -/

structure LcrMod where
  amp : ℝ
  deg : ℝ

structure LcrMea where
  R : ℝ
  X : ℝ
  C : ℝ
  L : ℝ

structure ComplexT where
  real : ℝ
  imag : ℝ

structure PolarT where
  magnitude : ℝ
  phase : ℝ

/-- The circle constant of the source. -/
noncomputable def pi : ℝ := 3.14159

open Classical in
noncomputable def divide (a b : ℝ) : Option ℝ := if b = 0 then none else some (a / b)

noncomputable def lcrModulate (setFre : FreT) (waveBuf : List ℝ) : Option LcrMod := do
  let v1 := lcrModulateSignal dacOutRange setFre waveBuf 0
  let v2 := lcrModulateSignal dacOutRange setFre waveBuf 90
  let ratio ← divide v2 v1
  return ⟨√(v1 * v1 + v2 * v2), Real.arctan ratio * 180 / pi⟩

noncomputable def polarDiv (p1 p2 : PolarT) : Option PolarT := do
  let magnitude ← divide p1.magnitude p2.magnitude
  return ⟨magnitude, p1.phase - p2.phase⟩

noncomputable def polarToComplex (p : PolarT) : ComplexT :=
  ⟨p.magnitude * Real.cos (p.phase * pi / 180), p.magnitude * Real.sin (p.phase * pi / 180)⟩

def fre : FreT → ℝ
  | .dacWorkFre100Hz => 100
  | .dacWorkFre1kHz => 1000
  | .dacWorkFre10kHz => 10000

noncomputable def lcrCalcC (setFre : FreT) (X : ℝ) : Option ℝ := do
  let farad ← divide 1 (2 * pi * fre setFre * |X|)
  return farad * 1000000000

noncomputable def lcrCalcL (setFre : FreT) (X : ℝ) : ℝ := |X| / (2 * pi * fre setFre) * 1000000

/-- The signs of the two parts are changed where the phase is not that of a capacitance. -/
noncomputable def changeSigns (phase : ℝ) (Zx : ComplexT) : ComplexT :=
  if phase ≤ -90 then ⟨-Zx.real, Zx.imag⟩
  else if phase ≥ 90 then ⟨-Zx.real, -Zx.imag⟩
  else if phase ≥ 45 then ⟨Zx.real, -Zx.imag⟩
  else Zx

noncomputable def lcrMeaCalc (setFre : FreT) (setRf : ℝ) (mVo mVx : LcrMod) : Option LcrMea := do
  let pVt1 ← polarDiv ⟨mVo.amp, mVo.deg⟩ ⟨mVx.amp, mVx.deg⟩
  let pVt1 ← polarDiv ⟨setRf, 0⟩ pVt1
  let Zx := changeSigns pVt1.phase (polarToComplex pVt1)
  let C ← lcrCalcC setFre Zx.imag
  return ⟨Zx.real, Zx.imag, C, lcrCalcL setFre Zx.imag⟩

def setRf : ℝ := 5000

/-- One measurement of `lcr_task_thread`, up to the call of the classifier. -/
noncomputable def lcrMeasure (setFre : FreT) (userAdcBuf : Vector UInt16 userAdcBufDataSize) : Option LcrMea := do
  let waves : List ℝ × List ℝ × UInt16 := userAdcGetValue userAdcBuf 200
  let modV1 ← lcrModulate setFre waves.1
  let modV2 ← lcrModulate setFre waves.2.1
  lcrMeaCalc setFre setRf modV1 modV2

/-! ## Where every division has a result -/

/-- The correlation of some samples with the reference, in converter steps. -/
def correlation (setFre : FreT) (modPhase : UInt16) (samples : List UInt16) : ℤ :=
  correlate (fun i => steps (modRef dacOutRange setFre modPhase i)) 0 (samples.map steps)

section Signal

variable {K : Type} [Field K] [CharZero K] (setFre : FreT) (modPhase : UInt16)

theorem adcVolt_steps (sample : UInt16) : (adcVolt sample : K) = 2.5 / 2048 * (steps sample : ℤ) := by
  rw [adcVolt, steps]
  push_cast
  ring

theorem lcrModulateSignal_steps (samples : List UInt16) :
    lcrModulateSignal dacOutRange setFre (samples.map adcVolt) modPhase =
      2 * (2.5 / 4096) * (2.5 / 2048) / samples.length * ((correlation setFre modPhase samples : ℤ) : K) := by
  have volts : samples.map (adcVolt : UInt16 → K) =
      ((samples.map steps).map (Int.castRingHom K)).map (2.5 / 2048 * ·) := by
    rw [List.map_map, List.map_map]
    exact List.map_congr_left fun sample _ => adcVolt_steps sample
  have referenced : (reference dacOutRange setFre modPhase : ℕ → K) =
      fun i => 2.5 / 4096 * Int.castRingHom K (steps (modRef dacOutRange setFre modPhase i)) :=
    funext fun i => waveVolt_steps _
  rw [lcrModulateSignal, referenced, volts, correlate_mul, ← map_correlate, correlation, List.length_map,
    List.length_map, List.length_map]
  simp only [eq_intCast]
  ring

end Signal

section Divide

variable {a b : ℝ}

theorem divide_zero (zero : b = 0) : divide a b = none := if_pos zero

theorem divide_some (nonzero : b ≠ 0) : divide a b = some (a / b) := if_neg nonzero

theorem pi_ne_zero : pi ≠ 0 := by norm_num [pi]

theorem sin_arctan_sub {x y : ℝ} : Real.sin (Real.arctan x - Real.arctan y) = 0 ↔ x = y := by
  have low := Real.neg_pi_div_two_lt_arctan x
  have high := Real.arctan_lt_pi_div_two x
  have low' := Real.neg_pi_div_two_lt_arctan y
  have high' := Real.arctan_lt_pi_div_two y
  rw [Real.sin_eq_zero_iff_of_lt_of_lt (by linarith) (by linarith), sub_eq_zero, Real.arctan_inj]

end Divide

section Impedance

variable {setFre : FreT} {v1 v2 w1 w2 X phase : ℝ}

/-- The amplitude and the phase for two parts of a wave. -/
noncomputable def modOf (v1 v2 : ℝ) : LcrMod := ⟨√(v1 * v1 + v2 * v2), Real.arctan (v2 / v1) * 180 / pi⟩

theorem modOf_amp (nonzero : v1 ≠ 0) (v2 : ℝ) : 0 < (modOf v1 v2).amp :=
  Real.sqrt_pos.mpr (add_pos_of_pos_of_nonneg (mul_self_pos.mpr nonzero) (mul_self_nonneg v2))

theorem lcrModulate_zero {waveBuf : List ℝ} (zero : lcrModulateSignal dacOutRange setFre waveBuf 0 = 0) :
    lcrModulate setFre waveBuf = none := by
  rw [lcrModulate, divide_zero zero]
  rfl

theorem lcrModulate_some {waveBuf : List ℝ} (nonzero : lcrModulateSignal dacOutRange setFre waveBuf 0 ≠ 0) :
    lcrModulate setFre waveBuf = some (modOf (lcrModulateSignal dacOutRange setFre waveBuf 0)
      (lcrModulateSignal dacOutRange setFre waveBuf 90)) := by
  rw [lcrModulate, divide_some nonzero]
  rfl

theorem polarDiv_some {p1 p2 : PolarT} (nonzero : p2.magnitude ≠ 0) :
    polarDiv p1 p2 = some ⟨p1.magnitude / p2.magnitude, p1.phase - p2.phase⟩ := by
  rw [polarDiv, divide_some nonzero]
  rfl

theorem isSome_bind_some {α β : Type} {result : Option α} {f : α → β} :
    (result.bind fun a => some (f a)).isSome = result.isSome := by
  cases result <;> rfl

theorem lcrCalcC_isSome : (lcrCalcC setFre X).isSome ↔ X ≠ 0 := by
  have fre : fre setFre ≠ 0 := by cases setFre <;> norm_num [fre]
  have factor : 2 * pi * Lcr.fre setFre ≠ 0 := mul_ne_zero (mul_ne_zero two_ne_zero pi_ne_zero) fre
  rw [lcrCalcC]
  by_cases zero : X = 0
  · rw [divide_zero (by rw [zero, abs_zero, mul_zero])]
    exact iff_of_false Bool.false_ne_true fun nonzero => nonzero zero
  · rw [divide_some (mul_ne_zero factor (abs_ne_zero.mpr zero))]
    exact iff_of_true rfl zero

theorem changeSigns_imag {Zx : ComplexT} : (changeSigns phase Zx).imag ≠ 0 ↔ Zx.imag ≠ 0 := by
  unfold changeSigns
  split_ifs <;> simp

theorem modOf_turned (v1 v2 w1 w2 : ℝ) : (0 - ((modOf v1 v2).deg - (modOf w1 w2).deg)) * pi / 180 =
    Real.arctan (w2 / w1) - Real.arctan (v2 / v1) := by
  have circle := pi_ne_zero
  simp only [modOf]
  field_simp
  ring

/-- With both in-phase parts the result has an imaginary part unless the phases are the same. -/
theorem lcrMeaCalc_isSome {rf : ℝ} (resists : rf ≠ 0) (nonzero : v1 ≠ 0) (nonzero' : w1 ≠ 0) :
    (lcrMeaCalc setFre rf (modOf v1 v2) (modOf w1 w2)).isSome ↔ w2 / w1 ≠ v2 / v1 := by
  have amp := (modOf_amp nonzero v2).ne'
  have amp' := (modOf_amp nonzero' w2).ne'
  have ratio := div_ne_zero amp amp'
  rw [lcrMeaCalc, polarDiv_some amp']
  simp only [Option.bind_eq_bind, Option.bind_some]
  rw [polarDiv_some ratio]
  simp only [Option.bind_some, Option.pure_def, isSome_bind_some, lcrCalcC_isSome, changeSigns_imag, polarToComplex,
    modOf_turned]
  exact (mul_ne_zero_iff_left (div_ne_zero resists ratio)).trans (not_congr sin_arctan_sub)

end Impedance

section Measure

variable (setFre : FreT) (userAdcBuf : Vector UInt16 userAdcBufDataSize)

/-- The part of a channel in phase with the reference, or in quadrature with it. -/
def part (ch : Fin userAdcChNum) (modPhase : UInt16) : ℤ :=
  correlation setFre modPhase (channel userAdcBuf ch).toList

/-- Both channels have a part in phase with the reference, and they are out of phase with each other. -/
def Resolved : Prop :=
  part setFre userAdcBuf 0 0 ≠ 0 ∧ part setFre userAdcBuf 1 0 ≠ 0 ∧
    part setFre userAdcBuf 0 0 * part setFre userAdcBuf 1 90 ≠ part setFre userAdcBuf 1 0 * part setFre userAdcBuf 0 90

instance : Decidable (Resolved setFre userAdcBuf) := inferInstanceAs (Decidable (_ ∧ _))

theorem userAdcGetValue_all {K : Type} [Field K] :
    (userAdcGetValue userAdcBuf 200 : List K × List K × UInt16) =
      ((channel userAdcBuf 0).toList.map adcVolt, (channel userAdcBuf 1).toList.map adcVolt, 200) := by
  have all : ∀ samples : Vector UInt16 userVoutDataNum, samples.toList.take (200 : UInt16).toNat = samples.toList :=
    fun samples => List.take_of_length_le samples.length_toList.le
  simp only [userAdcGetValue, show ¬ (200 : UInt16).toNat > userAdcBufDataSize / userAdcChNum by decide, if_false, all]

theorem signal_part (ch : Fin userAdcChNum) (modPhase : UInt16) :
    lcrModulateSignal dacOutRange setFre ((channel userAdcBuf ch).toList.map adcVolt) modPhase =
      2 * (2.5 / 4096) * (2.5 / 2048) / 200 * (part setFre userAdcBuf ch modPhase : ℝ) := by
  have length : (((channel userAdcBuf ch).toList.length : ℕ) : ℝ) = 200 := by
    rw [Vector.length_toList]
    exact Nat.cast_ofNat
  have signal := lcrModulateSignal_steps (K := ℝ) setFre modPhase (channel userAdcBuf ch).toList
  rw [length] at signal
  exact signal

theorem lcrMeasure_modulates : lcrMeasure setFre userAdcBuf =
    (lcrModulate setFre ((channel userAdcBuf 0).toList.map adcVolt)).bind fun modV1 =>
      (lcrModulate setFre ((channel userAdcBuf 1).toList.map adcVolt)).bind (lcrMeaCalc setFre setRf modV1) := by
  simp only [lcrMeasure, userAdcGetValue_all, Option.bind_eq_bind]

/-- A measurement has a result if and only if the phases of both channels are defined and different. -/
theorem lcr_measure_defined_iff : (lcrMeasure setFre userAdcBuf).isSome ↔ Resolved setFre userAdcBuf := by
  have scale : (2 * (2.5 / 4096) * (2.5 / 2048) / 200 : ℝ) ≠ 0 := by norm_num
  have resists : setRf ≠ 0 := by norm_num [setRf]
  have vanishes : ∀ ch, lcrModulateSignal dacOutRange setFre ((channel userAdcBuf ch).toList.map adcVolt) 0 = (0 : ℝ) ↔
      part setFre userAdcBuf ch 0 = 0 := fun ch => by
    rw [signal_part, mul_eq_zero_iff_left scale, Int.cast_eq_zero]
  rw [lcrMeasure_modulates]
  by_cases first : part setFre userAdcBuf 0 0 = 0
  · rw [lcrModulate_zero ((vanishes 0).mpr first)]
    exact iff_of_false Bool.false_ne_true fun resolved => resolved.1 first
  rw [lcrModulate_some (mt (vanishes 0).mp first), Option.bind_some]
  by_cases second : part setFre userAdcBuf 1 0 = 0
  · rw [lcrModulate_zero ((vanishes 1).mpr second)]
    exact iff_of_false Bool.false_ne_true fun resolved => resolved.2.1 second
  rw [lcrModulate_some (mt (vanishes 1).mp second), Option.bind_some,
    lcrMeaCalc_isSome resists (mt (vanishes 0).mp first) (mt (vanishes 1).mp second)]
  simp only [signal_part, mul_div_mul_left _ _ scale]
  rw [ne_eq, div_eq_div_iff (Int.cast_ne_zero.mpr second) (Int.cast_ne_zero.mpr first)]
  rw [← Int.cast_mul, ← Int.cast_mul, Int.cast_inj, mul_comm, mul_comm (part setFre userAdcBuf 0 90)]
  exact ⟨fun apart => ⟨first, second, apart⟩, fun resolved => resolved.2.2⟩

theorem lcr_measure_stuck :
    let userAdcBuf : Vector UInt16 userAdcBufDataSize := .replicate _ 2048
    (∀ sample ∈ userAdcBuf.toList, sample < 4096) ∧ lcrMeasure .dacWorkFre1kHz userAdcBuf = none := by
  -- both inputs at the middle of the converter's range: the first ratio is zero by zero
  have middle : (channel (.replicate _ 2048) 0).toList = List.replicate 200 2048 := by
    have each : ∀ i, (Vector.replicate userAdcBufDataSize (2048 : UInt16)).get i = 2048 :=
      fun i => Vector.getElem_replicate i.isLt
    rw [channel, Vector.toList_ofFn]
    simp only [each]
    exact List.ofFn_const _ _
  have zero : part .dacWorkFre1kHz (.replicate _ 2048) 0 0 = 0 := by
    rw [part, middle]
    decide +kernel
  refine ⟨by simp [userAdcBufDataSize], ?_⟩
  rw [lcrMeasure_modulates, lcrModulate_zero (by rw [signal_part, zero, Int.cast_zero, mul_zero]), Option.bind_none]

end Measure

end DetectBoard.Lcr
