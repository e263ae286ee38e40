import DetectBoard.Bubble.Detection

/-! The two channels of ADC2, and which of them the bubble alarm goes by.

With `VCTADC` the converter takes the supply voltage first and the bubble sensor
second, so a window has the voltage at its even indices and the sensor at its
odd ones. The counting loop visits them all.
-/

set_option autoImplicit false

namespace DetectBoard.Bubble

open Library Can

/-- The samples of channel 10, which `MX_ADC2_Init` ranks first. -/
def vctSample (i : Fin adcBufferSize) : Bool := i.val % 2 = 0

/-- The windows show the same at the bubble sensor. -/
def SameSensor (adc2Buffer adc2Buffer' : Window) : Prop :=
  ∀ i : Fin adcBufferSize, vctSample i = false → adc2Buffer.get i = adc2Buffer'.get i

instance (adc2Buffer adc2Buffer' : Window) : Decidable (SameSensor adc2Buffer adc2Buffer') :=
  inferInstanceAs (Decidable (∀ _, _ → _))

/-- The number of voltage samples that the loop counts as empty. -/
def vctZeros (limits : Limits) (adc2Buffer : Window) : ℕ :=
  (List.finRange adcBufferSize).countP fun i => adc2Buffer.get i ≤ limits.bdEmpty && vctSample i

/-- The voltage has no part in the difference: either every sample is counted, or as many voltage
samples in the one window as in the other. -/
def Undisturbed (limits : Limits) (adc2Buffer adc2Buffer' : Window) : Prop :=
  secondSample adc2Buffer ≥ limits.bdFull ∨ vctZeros limits adc2Buffer = vctZeros limits adc2Buffer'

instance (limits : Limits) (adc2Buffer adc2Buffer' : Window) :
    Decidable (Undisturbed limits adc2Buffer adc2Buffer') :=
  inferInstanceAs (Decidable (_ ∨ _))

def zerocounts (entries : List BubbleEntry) : List UInt8 :=
  entries.map fun entry => entry.after.bubbleSensorZerocount

/-! ## The count -/

variable {limits : Limits}

theorem counted_get (limits : Limits) (adc2Buffer : Window) (i : Fin adcBufferSize) :
    counted limits adc2Buffer i = (adc2Buffer.get i ≤ limits.bdEmpty || secondSample adc2Buffer ≥ limits.bdFull) := rfl

theorem countZero_full {adc2Buffer : Window} (full : secondSample adc2Buffer ≥ limits.bdFull) :
    (countZero limits adc2Buffer).toNat = adcBufferSize := by
  have all : ∀ i ∈ List.finRange adcBufferSize, counted limits adc2Buffer i = true := by simp [counted_get, full]
  rw [countZero_toNat, List.countP_eq_length.mpr all, List.length_finRange]

theorem countZero_split {adc2Buffer : Window} (partly : ¬ secondSample adc2Buffer ≥ limits.bdFull) :
    (countZero limits adc2Buffer).toNat = vctZeros limits adc2Buffer +
      (List.finRange adcBufferSize).countP fun i => adc2Buffer.get i ≤ limits.bdEmpty && !vctSample i := by
  have only : counted limits adc2Buffer = fun i => decide (adc2Buffer.get i ≤ limits.bdEmpty) := by
    funext i
    simp [counted_get, partly]
  rw [countZero_toNat, only, List.countP_eq_countP_filter_add _ _ vctSample, List.countP_filter, List.countP_filter,
    vctZeros]

theorem SameSensor.count_iff {adc2Buffer adc2Buffer' : Window} (same : SameSensor adc2Buffer adc2Buffer') :
    countZero limits adc2Buffer = countZero limits adc2Buffer' ↔ Undisturbed limits adc2Buffer adc2Buffer' := by
  have first : secondSample adc2Buffer = secondSample adc2Buffer' := same 1 (by decide)
  rw [← UInt8.toNat_inj]
  by_cases full : secondSample adc2Buffer ≥ limits.bdFull
  · rw [countZero_full full, countZero_full (first ▸ full)]
    exact iff_of_true rfl (.inl full)
  · have sensor : (List.finRange adcBufferSize).countP (fun i => adc2Buffer.get i ≤ limits.bdEmpty && !vctSample i) =
        (List.finRange adcBufferSize).countP fun i => adc2Buffer'.get i ≤ limits.bdEmpty && !vctSample i := by
      refine List.countP_congr fun i _ => ?_
      cases odd : vctSample i with
      | false => rw [same i odd]
      | true => simp
    rw [countZero_split full, countZero_split (first ▸ full), sensor, Undisturbed, or_iff_right full]
    exact Nat.add_right_cancel_iff

/-! ## Two runs -/

section Runs

variable {entries entries' : List BubbleEntry} {state state' : BubbleTask}

theorem zerocounts_eq (run : (bubbleMachine limits).Run .start entries state) :
    zerocounts entries = entries.map fun entry => countZero limits entry.input :=
  List.map_congr_left fun entry member => by
    rw [(bubble_takes (run.takes entry member)).1, bdThreadEntry_count]

/-- The frames go by the counts alone. -/
theorem generated_congr (run : (bubbleMachine limits).Run .start entries state)
    (run' : (bubbleMachine limits).Run .start entries' state') (counts : zerocounts entries = zerocounts entries') :
    generated entries = generated entries' := by
  rw [zerocounts_eq run, zerocounts_eq run'] at counts
  obtain ⟨steps, _, alarmRun, inputs, outputs⟩ := bubble_refines_counted run
  obtain ⟨steps', _, alarmRun', inputs', outputs'⟩ := bubble_refines_counted run'
  have same : steps.map Entry.input = steps'.map Entry.input := by
    rw [inputs, inputs']
    simpa [Function.comp_def] using congrArg (List.map UInt8.toNat) counts
  obtain ⟨rfl, _⟩ := alarmRun.unique alarmRun' same
  rw [generated, generated, List.flatMap_def, List.flatMap_def, ← outputs, ← outputs']

/-- Two runs that agree at the sensor raise the same alarms and report the same counts if and only
if the voltage samples make no difference in any window. -/
theorem bubble_channels_iff (run : (bubbleMachine limits).Run .start entries state)
    (run' : (bubbleMachine limits).Run .start entries' state')
    (same : List.Forall₂ (fun entry entry' => SameSensor entry.input entry'.input) entries entries') :
    (generated entries = generated entries' ∧ zerocounts entries = zerocounts entries') ↔
      List.Forall₂ (fun entry entry' => Undisturbed limits entry.input entry'.input) entries entries' := by
  have counts : zerocounts entries = zerocounts entries' ↔
      List.Forall₂ (fun entry entry' => Undisturbed limits entry.input entry'.input) entries entries' := by
    rw [zerocounts_eq run, zerocounts_eq run']
    clear run run'
    induction same with
    | nil => simp
    | cons here _ ih => rw [List.map_cons, List.map_cons, List.cons.injEq, ih, here.count_iff, List.forall₂_cons]
  rw [← counts]
  exact ⟨fun both => both.2, fun counts => ⟨generated_congr run run' counts, counts⟩⟩

theorem bubble_channels_one_low_voltage :
    ∃ entries entries' state state',
      (bubbleMachine ⟨1800, 4000⟩).exec .start [(Vector.replicate 32 3000).set 0 100] = some (entries, state) ∧
      (bubbleMachine ⟨1800, 4000⟩).exec .start [(Vector.replicate 32 3000).set 2 50] = some (entries', state') ∧
      generated entries = generated entries' ∧ zerocounts entries = zerocounts entries' := by
  have done : (bubbleMachine ⟨1800, 4000⟩).exec .start [(Vector.replicate 32 3000).set 0 100] = some (_, _) := rfl
  have done' : (bubbleMachine ⟨1800, 4000⟩).exec .start [(Vector.replicate 32 3000).set 2 50] = some (_, _) := rfl
  have same := bubble_channels_iff (Machine.exec_run done) (Machine.exec_run done') (.cons (by decide) .nil)
  exact ⟨_, _, _, _, done, done', same.mpr (.cons (by decide) .nil)⟩

/-- A window with no voltage on channel 10. -/
def unpowered : Window := .ofFn fun i => if vctSample i then 0 else 3000

theorem bubble_voltage_alarm :
    ∃ entries entries' state state',
      (bubbleMachine ⟨1800, 4000⟩).exec .start [.replicate 32 3000] = some (entries, state) ∧
      (bubbleMachine ⟨1800, 4000⟩).exec .start [unpowered] = some (entries', state') ∧
      SameSensor (.replicate 32 3000) unpowered ∧ generated entries = [] ∧
      generated entries' = [generateError set bdError] ∧ zerocounts entries ≠ zerocounts entries' := by
  have done : (bubbleMachine ⟨1800, 4000⟩).exec .start [.replicate 32 3000] = some (_, _) := rfl
  have done' : (bubbleMachine ⟨1800, 4000⟩).exec .start [unpowered] = some (_, _) := rfl
  exact ⟨_, _, _, _, done, done', by decide, by decide, by decide, by decide⟩

end Runs

end DetectBoard.Bubble
