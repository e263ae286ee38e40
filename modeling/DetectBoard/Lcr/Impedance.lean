import DetectBoard.Lcr.Measure
import Mathlib.Analysis.Complex.Norm
import Mathlib.Analysis.Real.Pi.Bounds

/-! What a measurement says about the correlations of the two channels with the reference. -/

set_option autoImplicit false

namespace DetectBoard.Lcr

open Library

/-! ## The complex numbers behind the polar forms -/

section Polar

variable {v1 w1 : ℝ}

/-- The arctangent knows the phase of a complex number up to half a turn. -/
theorem modOf_polar (nonzero : v1 ≠ 0) (v2 : ℝ) :
    (modOf v1 v2).amp * Real.cos (Real.arctan (v2 / v1)) = |v1| / v1 * v1 ∧
      (modOf v1 v2).amp * Real.sin (Real.arctan (v2 / v1)) = |v1| / v1 * v2 := by
  have size : 0 < |v1| := abs_pos.mpr nonzero
  have amp : √(1 + (v2 / v1) ^ 2) = (modOf v1 v2).amp / |v1| := by
    rw [modOf, ← Real.sqrt_sq_eq_abs, ← Real.sqrt_div (add_nonneg (mul_self_nonneg v1) (mul_self_nonneg v2))]
    congr 1
    field_simp
  have positive := modOf_amp nonzero v2
  rw [Real.cos_arctan, Real.sin_arctan, amp]
  constructor
  · field_simp
  · field_simp

theorem modOf_sq (v1 v2 : ℝ) : (modOf v1 v2).amp ^ 2 = v1 * v1 + v2 * v2 :=
  Real.sq_sqrt (add_nonneg (mul_self_nonneg v1) (mul_self_nonneg v2))

/-- The ratio of two complex numbers with these parts, the second over the first, times the resistor. -/
noncomputable def ratioOf (rf v1 v2 w1 w2 : ℝ) : ℂ := rf * ⟨w1, w2⟩ / ⟨v1, v2⟩

theorem ratioOf_parts (rf v1 v2 w1 w2 : ℝ) :
    (ratioOf rf v1 v2 w1 w2).re = rf * (w1 * v1 + w2 * v2) / (v1 * v1 + v2 * v2) ∧
      (ratioOf rf v1 v2 w1 w2).im = rf * (w2 * v1 - w1 * v2) / (v1 * v1 + v2 * v2) := by
  rw [ratioOf, Complex.div_re, Complex.div_im, Complex.normSq_mk]
  simp only [Complex.mul_re, Complex.mul_im, Complex.ofReal_re, Complex.ofReal_im]
  constructor <;> ring

/-- The polar form that `LCR_Mea_Calc` computes. -/
noncomputable def polarOf (rf v1 v2 w1 w2 : ℝ) : PolarT :=
  ⟨rf / ((modOf v1 v2).amp / (modOf w1 w2).amp), 0 - ((modOf v1 v2).deg - (modOf w1 w2).deg)⟩

/-- The polar form is that of the ratio up to half a turn. -/
theorem polar_ratio (rf : ℝ) (nonzero : v1 ≠ 0) (v2 : ℝ) (nonzero' : w1 ≠ 0) (w2 : ℝ) :
    ∃ turn : ℝ, |turn| = 1 ∧ polarToComplex (polarOf rf v1 v2 w1 w2) =
      ⟨turn * (ratioOf rf v1 v2 w1 w2).re, turn * (ratioOf rf v1 v2 w1 w2).im⟩ := by
  have turn {v : ℝ} (nonzero : v ≠ 0) : |(|v| / v)| = 1 := by rw [abs_div, abs_abs, div_self (abs_ne_zero.mpr nonzero)]
  obtain ⟨cos, sin⟩ := modOf_polar nonzero v2
  obtain ⟨cos', sin'⟩ := modOf_polar nonzero' w2
  have amp := (modOf_amp nonzero v2).ne'
  have magnitude : rf / ((modOf v1 v2).amp / (modOf w1 w2).amp) =
      rf * (modOf w1 w2).amp * (modOf v1 v2).amp / (v1 * v1 + v2 * v2) := by
    rw [← modOf_sq]
    field_simp
  refine ⟨|w1| / w1 * (|v1| / v1), by rw [abs_mul, turn nonzero, turn nonzero', one_mul], ?_⟩
  obtain ⟨re, im⟩ := ratioOf_parts rf v1 v2 w1 w2
  rw [polarToComplex, polarOf, modOf_turned, Real.cos_sub, Real.sin_sub, re, im, magnitude, ComplexT.mk.injEq]
  constructor
  · calc
      _ = rf * (((modOf w1 w2).amp * Real.cos (Real.arctan (w2 / w1))) *
            ((modOf v1 v2).amp * Real.cos (Real.arctan (v2 / v1))) +
          ((modOf w1 w2).amp * Real.sin (Real.arctan (w2 / w1))) *
            ((modOf v1 v2).amp * Real.sin (Real.arctan (v2 / v1)))) / (v1 * v1 + v2 * v2) := by ring
      _ = _ := by
        rw [cos, sin, cos', sin']
        ring
  · calc
      _ = rf * (((modOf w1 w2).amp * Real.sin (Real.arctan (w2 / w1))) *
            ((modOf v1 v2).amp * Real.cos (Real.arctan (v2 / v1))) -
          ((modOf w1 w2).amp * Real.cos (Real.arctan (w2 / w1))) *
            ((modOf v1 v2).amp * Real.sin (Real.arctan (v2 / v1)))) / (v1 * v1 + v2 * v2) := by ring
      _ = _ := by
        rw [cos, sin, cos', sin']
        ring

end Polar

/-! ## The signs of the parts -/

section Signs

variable {M : ℝ}

/-- The circle constant of the source is a bit too small, so that 90 of its degrees are not quite a quarter turn. -/
theorem quarter_lt : 90 * pi / 180 < Real.pi / 2 ∧ Real.pi / 2 - 3 / 2000000 < 90 * pi / 180 := by
  have low := Real.pi_gt_d6
  have high := Real.pi_lt_d6
  rw [pi]
  constructor <;> linarith

/-- Beyond 90 degrees the cosine may still be positive, though hardly. -/
theorem cos_beyond {angle : ℝ} (beyond : 90 * pi / 180 ≤ angle) (half : angle < Real.pi) :
    0 < Real.sin angle ∧ Real.cos angle ≤ Real.sin angle / 500000 := by
  obtain ⟨_, near⟩ := quarter_lt
  have low := Real.pi_gt_d6
  have positive : 0 < Real.sin angle := Real.sin_pos_of_pos_of_lt_pi (by linarith) half
  refine ⟨positive, ?_⟩
  by_cases quarter : angle ≤ Real.pi / 2
  · have small := Real.sin_le (x := Real.pi / 2 - angle) (by linarith)
    have large := Real.one_sub_sq_div_two_le_cos (x := Real.pi / 2 - angle)
    rw [Real.sin_pi_div_two_sub] at small
    rw [Real.cos_pi_div_two_sub] at large
    nlinarith
  · have negative := Real.cos_nonpos_of_pi_div_two_le_of_le (not_le.mp quarter).le (by linarith)
    exact negative.trans (by positivity)

/-- Below 45 degrees the sine is below the cosine. -/
theorem sin_lt_cos {angle : ℝ} (low : -(Real.pi / 2) < angle) (high : angle < Real.pi / 4)
    (sine : 0 < Real.sin angle) : Real.sin angle < Real.cos angle := by
  have circle := Real.pi_pos
  have positive : 0 < angle := by
    by_contra negative
    exact absurd sine (Real.sin_nonpos_of_nonpos_of_neg_pi_le (not_lt.mp negative) (by linarith)).not_gt
  calc
    Real.sin angle < Real.sin (Real.pi / 4) := Real.sin_lt_sin_of_lt_of_le_pi_div_two low.le (by linarith) high
    _ = Real.cos (Real.pi / 4) := by rw [Real.sin_pi_div_four, Real.cos_pi_div_four]
    _ < Real.cos angle := Real.cos_lt_cos_of_nonneg_of_le_pi_div_two positive.le (by linarith) high

/-- A positive reactance is below the resistance, and the resistance is hardly ever negative. -/
structure Signed (R X : ℝ) : Prop where
  below : 0 < X → X < R
  hardly : -R ≤ |X| / 500000

theorem Signed.capacitive {R X : ℝ} (negative : X ≤ 0) (hardly : -R ≤ |X| / 500000) : Signed R X :=
  ⟨fun positive => absurd negative positive.not_ge, hardly⟩

/-- Beyond 90 degrees both parts are turned to where a capacitance has them. -/
theorem signed_beyond (positive : 0 < M) {angle : ℝ} (beyond : 90 * pi / 180 ≤ angle) (half : angle < Real.pi) :
    Signed (-(M * Real.cos angle)) (-(M * Real.sin angle)) := by
  obtain ⟨sin, cos⟩ := cos_beyond beyond half
  refine .capacitive (neg_nonpos.mpr (mul_nonneg positive.le sin.le)) ?_
  rw [neg_neg, abs_neg, abs_of_pos (mul_pos positive sin), mul_div_assoc]
  exact mul_le_mul_of_nonneg_left cos positive.le

theorem signed_within (positive : 0 < M) {angle : ℝ} (low : -(Real.pi / 2) < angle) (high : angle < Real.pi / 2)
    {X : ℝ} (below : 0 < X → X < M * Real.cos angle) : Signed (M * Real.cos angle) X := by
  refine ⟨below, ?_⟩
  have resistive := mul_pos positive (Real.cos_pos_of_mem_Ioo ⟨low, high⟩)
  have size := abs_nonneg X
  linarith

theorem changeSigns_signed {p : PolarT} (positive : 0 < p.magnitude) (low : -Real.pi < p.phase * pi / 180)
    (high : p.phase * pi / 180 < Real.pi) :
    Signed (changeSigns p.phase (polarToComplex p)).real (changeSigns p.phase (polarToComplex p)).imag := by
  obtain ⟨quarter, _⟩ := quarter_lt
  have circle : 0 < pi := by norm_num [pi]
  have small := Real.pi_gt_d6
  unfold changeSigns polarToComplex
  split_ifs with below above inductive'
  · -- the same on the other side of the circle
    have degrees : 90 * pi / 180 ≤ -(p.phase * pi / 180) := by nlinarith
    have signed := signed_beyond positive degrees (by linarith)
    rwa [Real.cos_neg, Real.sin_neg, mul_neg, neg_neg] at signed
  · have degrees : 90 * pi / 180 ≤ p.phase * pi / 180 := by gcongr
    exact signed_beyond positive degrees high
  · have right : p.phase * pi / 180 < 90 * pi / 180 := by
      have := not_le.mp above
      gcongr
    have left : 45 * pi / 180 ≤ p.phase * pi / 180 := by gcongr
    refine signed_within positive (by linarith) (by linarith) fun inductive' => ?_
    have sin : 0 < Real.sin (p.phase * pi / 180) := Real.sin_pos_of_pos_of_lt_pi (by linarith) high
    exact absurd inductive' (neg_nonpos.mpr (mul_pos positive sin).le).not_gt
  · have right : p.phase * pi / 180 < 45 * pi / 180 := by
      have := not_le.mp inductive'
      gcongr
    have left : -90 * pi / 180 < p.phase * pi / 180 := by
      have := not_le.mp below
      gcongr
    refine signed_within positive (by linarith) (by linarith) fun reactive => ?_
    have sin : 0 < Real.sin (p.phase * pi / 180) := (mul_pos_iff_of_pos_left positive).mp reactive
    exact mul_lt_mul_of_pos_left (sin_lt_cos (by linarith) (by linarith) sin) positive

end Signs
/-! ## What is measured -/

section Reading

variable {setFre : FreT} {v1 v2 w1 w2 X phase rf : ℝ} {mea : LcrMea}

theorem changeSigns_abs (phase : ℝ) (Zx : ComplexT) :
    |(changeSigns phase Zx).real| = |Zx.real| ∧ |(changeSigns phase Zx).imag| = |Zx.imag| := by
  unfold changeSigns
  split_ifs <;> simp

theorem lcrCalcC_eq {C : ℝ} (calculated : lcrCalcC setFre X = some C) :
    C = 1000000000 / (2 * pi * fre setFre * |X|) := by
  rw [lcrCalcC, divide] at calculated
  split at calculated
  · cases calculated
  · cases calculated
    ring

/-- A reading is about this complex number, up to the signs of its two parts. -/
structure Reads (setFre : FreT) (Z : ℂ) (mea : LcrMea) : Prop where
  R : |mea.R| = |Z.re|
  X : |mea.X| = |Z.im|
  C : mea.C = 1000000000 / (2 * pi * fre setFre * |Z.im|)
  L : mea.L = |Z.im| / (2 * pi * fre setFre) * 1000000

theorem lcrMeaCalc_reads (resists : 0 < rf) (nonzero : v1 ≠ 0) (nonzero' : w1 ≠ 0)
    (measured : lcrMeaCalc setFre rf (modOf v1 v2) (modOf w1 w2) = some mea) :
    Reads setFre (ratioOf rf v1 v2 w1 w2) mea ∧ Signed mea.R mea.X := by
  have amp := modOf_amp nonzero v2
  have amp' := modOf_amp nonzero' w2
  rw [lcrMeaCalc, polarDiv_some amp'.ne'] at measured
  simp only [Option.bind_eq_bind, Option.bind_some] at measured
  rw [polarDiv_some (div_pos amp amp').ne', Option.bind_some] at measured
  obtain ⟨C, calculated, same⟩ := Option.bind_eq_some_iff.mp measured
  obtain rfl := Option.some.inj same
  change lcrCalcC setFre (changeSigns (polarOf rf v1 v2 w1 w2).phase (polarToComplex (polarOf rf v1 v2 w1 w2))).imag =
    some C at calculated
  constructor
  · obtain ⟨turn, full, polar⟩ := polar_ratio rf nonzero v2 nonzero' w2
    have abs (part : ℝ) : |turn * part| = |part| := by rw [abs_mul, full, one_mul]
    obtain ⟨real, imag⟩ := changeSigns_abs (polarOf rf v1 v2 w1 w2).phase (polarToComplex (polarOf rf v1 v2 w1 w2))
    have re := real.trans ((congrArg (fun z => |z.real|) polar).trans (abs _))
    have im := imag.trans ((congrArg (fun z => |z.imag|) polar).trans (abs _))
    refine ⟨re, im, ?_, ?_⟩
    · rw [lcrCalcC_eq calculated, im]
    · exact congrArg (· / (2 * pi * fre setFre) * 1000000) im
  · have low := Real.neg_pi_div_two_lt_arctan (w2 / w1)
    have high := Real.arctan_lt_pi_div_two (w2 / w1)
    have low' := Real.neg_pi_div_two_lt_arctan (v2 / v1)
    have high' := Real.arctan_lt_pi_div_two (v2 / v1)
    have turned : (polarOf rf v1 v2 w1 w2).phase * pi / 180 = Real.arctan (w2 / w1) - Real.arctan (v2 / v1) :=
      modOf_turned v1 v2 w1 w2
    have signed := changeSigns_signed (p := polarOf rf v1 v2 w1 w2) (div_pos resists (div_pos amp amp'))
    rw [turned] at signed
    exact signed (by linarith) (by linarith)

end Reading

section Measured

variable {setFre : FreT} {userAdcBuf : Vector UInt16 userAdcBufDataSize} {mea : LcrMea}

/-- The correlations of a channel with both references as one complex number. The references have a mean of their
own, so an offset of the channel is part of it. -/
noncomputable def complexCorrelation (setFre : FreT) (userAdcBuf : Vector UInt16 userAdcBufDataSize)
    (ch : Fin userAdcChNum) : ℂ :=
  ⟨part setFre userAdcBuf ch 0, part setFre userAdcBuf ch 90⟩

/-- The ratio of the two complex correlations, the second channel over the first, times the feedback resistor. -/
noncomputable def correlationRatio (setFre : FreT) (userAdcBuf : Vector UInt16 userAdcBufDataSize) : ℂ :=
  setRf * complexCorrelation setFre userAdcBuf ⟨1, Nat.one_lt_two⟩ /
    complexCorrelation setFre userAdcBuf ⟨0, Nat.zero_lt_two⟩

theorem ratioOf_scaled {scale : ℝ} (nonzero : scale ≠ 0) (rf v1 v2 w1 w2 : ℝ) :
    ratioOf rf (scale * v1) (scale * v2) (scale * w1) (scale * w2) = ratioOf rf v1 v2 w1 w2 := by
  have scaled (a b : ℝ) : (⟨scale * a, scale * b⟩ : ℂ) = scale * ⟨a, b⟩ := by
    apply Complex.ext <;> simp
  rw [ratioOf, ratioOf, scaled, scaled, mul_left_comm,
    mul_div_mul_left _ _ (Complex.ofReal_ne_zero.mpr nonzero)]

theorem lcrModulate_channel {ch : Fin userAdcChNum} {mod : LcrMod}
    (modulated : lcrModulate setFre ((channel userAdcBuf ch).toList.map adcVolt) = some mod) :
    part setFre userAdcBuf ch 0 ≠ 0 ∧
      mod = modOf (2 * (2.5 / 4096) * (2.5 / 2048) / 200 * (part setFre userAdcBuf ch 0 : ℝ))
        (2 * (2.5 / 4096) * (2.5 / 2048) / 200 * (part setFre userAdcBuf ch 90 : ℝ)) := by
  by_cases zero : lcrModulateSignal dacOutRange setFre ((channel userAdcBuf ch).toList.map adcVolt) 0 = (0 : ℝ)
  · rw [lcrModulate_zero zero] at modulated
    cases modulated
  · rw [lcrModulate_some zero, signal_part, signal_part] at modulated
    rw [signal_part] at zero
    exact ⟨fun vanishes => zero (by rw [vanishes, Int.cast_zero, mul_zero]), (Option.some.inj modulated).symm⟩

theorem measured_reads (measured : lcrMeasure setFre userAdcBuf = some mea) :
    Reads setFre (correlationRatio setFre userAdcBuf) mea ∧ Signed mea.R mea.X := by
  rw [lcrMeasure_modulates] at measured
  obtain ⟨modV1, modulated, measured⟩ := Option.bind_eq_some_iff.mp measured
  obtain ⟨modV2, modulated', measured⟩ := Option.bind_eq_some_iff.mp measured
  obtain ⟨nonzero, rfl⟩ := lcrModulate_channel modulated
  obtain ⟨nonzero', rfl⟩ := lcrModulate_channel modulated'
  have scale : (2 * (2.5 / 4096) * (2.5 / 2048) / 200 : ℝ) ≠ 0 := by norm_num
  have resists : 0 < setRf := by norm_num [setRf]
  have reads := lcrMeaCalc_reads resists (mul_ne_zero scale (Int.cast_ne_zero.mpr nonzero))
    (mul_ne_zero scale (Int.cast_ne_zero.mpr nonzero')) measured
  rwa [ratioOf_scaled scale] at reads

theorem resolved_measures (resolved : Resolved setFre userAdcBuf) : ∃ mea, lcrMeasure setFre userAdcBuf = some mea := by
  have scale : (2 * (2.5 / 4096) * (2.5 / 2048) / 200 : ℝ) ≠ 0 := by norm_num
  obtain ⟨nonzero, nonzero', apart⟩ := resolved
  have signal {ch : Fin userAdcChNum} (nonzero : part setFre userAdcBuf ch 0 ≠ 0) :
      2 * (2.5 / 4096) * (2.5 / 2048) / 200 * (part setFre userAdcBuf ch 0 : ℝ) ≠ 0 :=
    mul_ne_zero scale (Int.cast_ne_zero.mpr nonzero)
  rw [← Option.isSome_iff_exists, lcrMeasure_modulates, lcrModulate_some (by rw [signal_part]; exact signal nonzero),
    Option.bind_some, lcrModulate_some (by rw [signal_part]; exact signal nonzero'), Option.bind_some]
  simp only [signal_part]
  rw [lcrMeaCalc_isSome (by norm_num [setRf]) (signal nonzero) (signal nonzero'), mul_div_mul_left _ _ scale,
    mul_div_mul_left _ _ scale, ne_eq, div_eq_div_iff (Int.cast_ne_zero.mpr nonzero') (Int.cast_ne_zero.mpr nonzero)]
  rw [← Int.cast_mul, ← Int.cast_mul, Int.cast_inj, mul_comm, mul_comm (part setFre userAdcBuf 0 90)]
  exact apart

/-- A measurement gives the magnitudes of both parts of the ratio of the two complex correlations, and the capacitance
and the inductance that belong to its imaginary part, though it knows each phase up to half a turn only. -/
theorem lcr_reads_ratio (resolved : Resolved setFre userAdcBuf) :
    ∃ mea, lcrMeasure setFre userAdcBuf = some mea ∧ Reads setFre (correlationRatio setFre userAdcBuf) mea := by
  obtain ⟨mea, measured⟩ := resolved_measures resolved
  exact ⟨mea, measured, (measured_reads measured).1⟩

/-- One sample of each channel is off the middle. -/
def pulses (i : Fin userAdcBufDataSize) : UInt16 := if i.val = 0 ∨ i.val = 21 then 3048 else 2048

theorem sample_lt (i : Fin userVoutDataNum) (ch : Fin userAdcChNum) : i.val * 2 + ch.val < userAdcBufDataSize := by
  have := i.isLt
  have := ch.isLt
  simp only [userAdcBufDataSize, userAdcChNum, userVoutDataNum] at *
  omega

theorem channel_ofFn (sample : Fin userAdcBufDataSize → UInt16) (ch : Fin userAdcChNum) :
    (channel (.ofFn sample) ch).toList =
      List.ofFn fun i : Fin userVoutDataNum => sample ⟨i.val * 2 + ch.val, sample_lt i ch⟩ := by
  rw [channel, Vector.toList_ofFn]
  exact congrArg List.ofFn (funext fun i => Vector.getElem_ofFn _)

theorem pulses_resolved : Resolved .dacWorkFre1kHz (.ofFn pulses) := by
  simp only [Resolved, part, channel_ofFn]
  decide +kernel

theorem lcr_reads_pulses : ∃ mea, lcrMeasure .dacWorkFre1kHz (.ofFn pulses) = some mea ∧
    Reads .dacWorkFre1kHz (correlationRatio .dacWorkFre1kHz (.ofFn pulses)) mea :=
  lcr_reads_ratio pulses_resolved

/-- Whatever the samples, a positive reactance is below the resistance, and a negative resistance is below the
five hundred thousandth part of the reactance. -/
theorem lcr_signs (measured : lcrMeasure setFre userAdcBuf = some mea) :
    (0 < mea.X → mea.X < mea.R) ∧ -mea.R ≤ |mea.X| / 500000 := by
  obtain ⟨_, signed⟩ := measured_reads measured
  exact ⟨signed.below, signed.hardly⟩

theorem lcr_signs_pulses : ∃ mea, lcrMeasure .dacWorkFre1kHz (.ofFn pulses) = some mea ∧
    (0 < mea.X → mea.X < mea.R) ∧ -mea.R ≤ |mea.X| / 500000 := by
  obtain ⟨mea, measured⟩ := resolved_measures pulses_resolved
  exact ⟨mea, measured, lcr_signs measured⟩

end Measured

/-! ## A common gain -/

section Gain

variable {setFre : FreT} {userAdcBuf userAdcBuf' : Vector UInt16 userAdcBufDataSize} {k : ℝ}

theorem divide_scaled {scale : ℝ} (nonzero : scale ≠ 0) (a b : ℝ) : divide (scale * a) (scale * b) = divide a b := by
  by_cases zero : b = 0
  · rw [divide_zero zero, divide_zero (by rw [zero, mul_zero])]
  · rw [divide_some zero, divide_some (mul_ne_zero nonzero zero), mul_div_mul_left _ _ nonzero]

theorem modOf_scaled {scale : ℝ} (nonzero : scale ≠ 0) (v1 v2 : ℝ) :
    modOf (scale * v1) (scale * v2) = ⟨|scale| * (modOf v1 v2).amp, (modOf v1 v2).deg⟩ := by
  have square : scale * v1 * (scale * v1) + scale * v2 * (scale * v2) = scale ^ 2 * (v1 * v1 + v2 * v2) := by ring
  rw [modOf, modOf, mul_div_mul_left _ _ nonzero, square, Real.sqrt_mul (sq_nonneg scale), Real.sqrt_sq_eq_abs]

theorem lcrMeaCalc_scaled {scale : ℝ} (nonzero : scale ≠ 0) (rf : ℝ) (mVo mVx : LcrMod) :
    lcrMeaCalc setFre rf ⟨scale * mVo.amp, mVo.deg⟩ ⟨scale * mVx.amp, mVx.deg⟩ = lcrMeaCalc setFre rf mVo mVx := by
  simp only [lcrMeaCalc, polarDiv, divide_scaled nonzero]

theorem part_correlate (ch : Fin userAdcChNum) (modPhase : UInt16) : (part setFre userAdcBuf ch modPhase : ℝ) =
    correlate (fun i => ((steps (modRef dacOutRange setFre modPhase i) : ℤ) : ℝ)) 0
      ((channel userAdcBuf ch).toList.map fun sample => ((steps sample : ℤ) : ℝ)) := by
  have exactly := map_correlate (fun i => steps (modRef dacOutRange setFre modPhase i)) 0
    ((channel userAdcBuf ch).toList.map steps) (Int.castRingHom ℝ)
  rw [List.map_map] at exactly
  exact exactly

theorem part_scaled (scaled : ∀ i, ((steps (userAdcBuf'.get i) : ℤ) : ℝ) = k * (steps (userAdcBuf.get i) : ℤ))
    (ch : Fin userAdcChNum) (modPhase : UInt16) :
    (part setFre userAdcBuf' ch modPhase : ℝ) = k * (part setFre userAdcBuf ch modPhase : ℤ) := by
  have samples : ((channel userAdcBuf' ch).toList.map fun sample => ((steps sample : ℤ) : ℝ)) =
      ((channel userAdcBuf ch).toList.map fun sample => ((steps sample : ℤ) : ℝ)).map (k * ·) := by
    simp only [channel, Vector.toList_ofFn, List.map_ofFn, Function.comp_def, scaled]
  have product := correlate_mul (fun i => ((steps (modRef dacOutRange setFre modPhase i) : ℤ) : ℝ)) 0
    ((channel userAdcBuf ch).toList.map fun sample => ((steps sample : ℤ) : ℝ)) 1 k
  simp only [one_mul] at product
  rw [part_correlate, samples, product, part_correlate]

theorem lcrModulate_scaled (gain : k ≠ 0)
    (scaled : ∀ i, ((steps (userAdcBuf'.get i) : ℤ) : ℝ) = k * (steps (userAdcBuf.get i) : ℤ)) (ch : Fin userAdcChNum) :
    lcrModulate setFre ((channel userAdcBuf' ch).toList.map adcVolt) =
      (lcrModulate setFre ((channel userAdcBuf ch).toList.map adcVolt)).map fun mod => ⟨|k| * mod.amp, mod.deg⟩ := by
  have signal (modPhase : UInt16) :
      lcrModulateSignal dacOutRange setFre ((channel userAdcBuf' ch).toList.map adcVolt) modPhase =
        k * lcrModulateSignal dacOutRange setFre ((channel userAdcBuf ch).toList.map adcVolt) modPhase := by
    rw [signal_part, signal_part, part_scaled scaled]
    ring
  by_cases zero : lcrModulateSignal dacOutRange setFre ((channel userAdcBuf ch).toList.map adcVolt) 0 = (0 : ℝ)
  · rw [lcrModulate_zero zero, lcrModulate_zero (by rw [signal, zero, mul_zero]), Option.map_none]
  · rw [lcrModulate_some zero, lcrModulate_some (by rw [signal]; exact mul_ne_zero gain zero), signal, signal,
      modOf_scaled gain, Option.map_some]

/-- A gain that both channels share does not show in a measurement. -/
theorem lcr_gain_invariant (gain : k ≠ 0)
    (scaled : ∀ i, ((steps (userAdcBuf'.get i) : ℤ) : ℝ) = k * (steps (userAdcBuf.get i) : ℤ)) :
    lcrMeasure setFre userAdcBuf' = lcrMeasure setFre userAdcBuf := by
  have positive : |k| ≠ 0 := abs_ne_zero.mpr gain
  rw [lcrMeasure_modulates, lcrMeasure_modulates, lcrModulate_scaled gain scaled, lcrModulate_scaled gain scaled]
  simp only [Option.bind_map, Function.comp_def, lcrMeaCalc_scaled positive]

/-- The same pulses from an amplifier that turns them over and makes them half as large again. -/
theorem lcr_gain_pulses : lcrMeasure .dacWorkFre1kHz (.ofFn fun i => if i.val = 0 ∨ i.val = 21 then 548 else 2048) =
    lcrMeasure .dacWorkFre1kHz (.ofFn pulses) := by
  have sample (f : Fin userAdcBufDataSize → UInt16) (i : Fin userAdcBufDataSize) : (Vector.ofFn f).get i = f i :=
    Vector.getElem_ofFn i.isLt
  have pulse : steps 548 = -1500 ∧ steps 3048 = 1000 ∧ steps 2048 = 0 := by decide
  obtain ⟨low, high, middle⟩ := pulse
  refine lcr_gain_invariant (k := -3 / 2) (by norm_num) fun i => ?_
  rw [sample, sample, pulses]
  split
  · rw [low, high]
    norm_num
  · rw [middle, Int.cast_zero, mul_zero]

end Gain

end DetectBoard.Lcr
