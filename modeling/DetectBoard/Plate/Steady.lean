import DetectBoard.Plate.Judge
import Mathlib.Tactic.Linarith

/-! What steady readings make of the plate state.

Six equal readings fill half of the window, and the hold counter lasts for ten more calls.
-/

set_option autoImplicit false

namespace DetectBoard.Plate

open Library

def LcrTask.Reports (p : LcrTask) (target : NegptState) : Prop :=
  p.negState = target ∧ p.sendInfo.negState = target

/-- On the way to a state, after so many readings of one measurement. -/
structure Nearing (C : ℚ) (target : NegptState) (count : ℕ) (p : LcrTask) : Prop where
  sound : p.Sound
  filled : EndsWith p.filter.recent (C * 1000) (min count 11)
  near : p.negState = target ∧ (target ≠ .error → p.errorReduce = 0) ∨ p.errorReduce.toNat + count ≤ 15

section Step

variable {C : ℚ} {target : NegptState} {count : ℕ} {p : LcrTask}

theorem LcrTask.Sound.nearing (sound : p.Sound) : Nearing C target 0 p := by
  refine ⟨sound, ⟨p.filter.recent, by simp⟩, .inr ?_⟩
  have bound := UInt16.le_iff_toNat_le.mp sound.held.bound
  simp only [negativePlateErrorReduce, UInt16.reduceToNat] at bound
  omega

theorem class_of_above (above : C > negativePlateLimit3High.toNat) :
    classOf (toUint32 (C * 1000)) = some .error := by
  -- with its factor such a measurement is beyond `uint32_t`, and saturates
  have floor : (2 ^ 32 - 1 : ℤ) ≤ ⌊C * 1000⌋ := by
    apply Int.le_floor.mpr
    simp only [negativePlateLimit3High, UInt32.reduceToNat] at above
    push_cast at above ⊢
    linarith
  have full : toUint32 (C * 1000) = .ofNat (2 ^ 32 - 1) := by
    rw [toUint32, Nat.min_eq_right (by omega)]
  rw [full]
  decide

theorem holdAgain_steady (known : classOf (toUint32 (C * 1000)) = some target) (calm : target ≠ .error) :
    p.holdAgain C = p.errorReduce := by
  refine if_neg fun again => calm ?_
  rw [class_of_above again.2] at known
  exact (Option.some.inj known).symm

theorem Nearing.step {entry : PlateEntry} (nearing : Nearing C target count entry.before)
    (taken : plateMachine.Takes entry) (equal : entry.input.C = C)
    (known : classOf (toUint32 (C * 1000)) = some target) : Nearing C target (count + 1) entry.after := by
  obtain ⟨sound, filled, near⟩ := nearing
  have size : entry.before.filter.medianFilterWindowSize.toNat = 11 := by rw [sound.size]; rfl
  obtain ⟨slid, output⟩ := medianFilterHandle_steady (by omega) filled
  have after := plate_sound_step taken sound
  refine ⟨after, ?_, ?_⟩
  · rw [plate_filter taken sound, equal]
    rwa [size, show min (min count 11 + 1) 11 = min (count + 1) 11 by omega] at slid
  · have bound := UInt16.le_iff_toNat_le.mp after.held.bound
    simp only [negativePlateErrorReduce, UInt16.reduceToNat] at bound
    by_cases early : count < 5
    · right
      omega
    -- from the sixth reading on the median is the measurement
    have cap : reading entry = toUint32 (C * 1000) := by
      rw [reading, LcrTask.reading, equal, output (by omega)]
    have step := plate_step taken sound
    rw [cap, judgeCap_class known] at step
    by_cases error : target = .error
    · left
      rw [if_pos error] at step
      exact ⟨(congrArg Prod.fst step).trans error.symm, fun calm => absurd error calm⟩
    · rw [if_neg error, equal, holdAgain_steady known error] at step
      by_cases free : entry.before.errorReduce = 0
      · left
        rw [free, settle_free] at step
        exact ⟨congrArg Prod.fst step, fun _ => congrArg Prod.snd step⟩
      · obtain ⟨_, less⟩ := settle_holding target entry.before.negState free
        have reduced : entry.after.errorReduce = _ := congrArg Prod.snd step
        rw [← reduced] at less
        rcases near with settled | near
        · exact absurd (settled.2 error) free
        · right
          omega

theorem Nearing.run {entries : List PlateEntry} {start state : LcrTask}
    (run : plateMachine.Run start entries state) (sound : start.Sound)
    (equal : ∀ entry ∈ entries, entry.input.C = C)
    (known : classOf (toUint32 (C * 1000)) = some target) : Nearing C target entries.length state := by
  refine run.history (fun entries p => (∀ entry ∈ entries, entry.input.C = C) →
    Nearing C target entries.length p) (fun _ => sound.nearing) (fun pre entry _ taken before equal => ?_)
    equal
  rw [List.length_append]
  have earlier := before fun other member => equal other (by simp [member])
  exact earlier.step taken (equal entry (by simp)) known

end Step

section Class

variable {cap : UInt32}

theorem classOf_disconnect (below : cap < negativePlateLimit1Low) : classOf cap = some .disconnect :=
  if_pos below

theorem classOf_half (above : negativePlateLimit1High ≤ cap) (below : cap < negativePlateLimit2Low) :
    classOf cap = some .connectHalf := by
  have past : ¬ cap < negativePlateLimit1Low := fun less =>
    UInt32.not_lt.mpr above (UInt32.lt_trans less (by decide))
  rw [classOf, if_neg past, if_neg (UInt32.not_lt.mpr above), if_pos below]

theorem classOf_ok (above : negativePlateLimit2High ≤ cap) (below : cap < negativePlateLimit3Low) :
    classOf cap = some .connectOk := by
  have past : ∀ limit, limit ≤ negativePlateLimit2High → ¬ cap < limit := fun limit le less =>
    UInt32.not_lt.mpr (UInt32.le_trans le above) less
  rw [classOf, if_neg (past _ (by decide)), if_neg (past _ (by decide)), if_neg (past _ (by decide)),
    if_neg (past _ (by decide)), if_pos below]

theorem classOf_error (above : negativePlateLimit3High < cap) : classOf cap = some .error := by
  have past : ∀ limit, limit ≤ negativePlateLimit3High → ¬ cap < limit := fun limit le less =>
    UInt32.lt_asymm above (UInt32.lt_of_lt_of_le less le)
  rw [classOf, if_neg (past _ (by decide)), if_neg (past _ (by decide)), if_neg (past _ (by decide)),
    if_neg (past _ (by decide)), if_neg (past _ (by decide)), if_pos above]

end Class

/-- After 22 calls with one measurement the state is the class of the measurement, and is reported,
whatever the task measured before. -/
theorem plate_settles {w : {w : List ℚ // w.length = (11 : UInt32).toNat}} {filter : MedianFilter ℚ}
    {earlier last : List PlateEntry} {state : LcrTask} {C : ℚ}
    (init : medianFilterInit 11 (some w) true = .ok filter)
    (run : plateMachine.Run (.start filter) (earlier ++ last) state)
    (enough : 22 ≤ last.length) (equal : ∀ entry ∈ last, entry.input.C = C) :
    let c := toUint32 (C * 1000)
    (c < negativePlateLimit1Low → state.Reports .disconnect) ∧
      (negativePlateLimit1High ≤ c → c < negativePlateLimit2Low → state.Reports .connectHalf) ∧
      (negativePlateLimit2High ≤ c → c < negativePlateLimit3Low → state.Reports .connectOk) ∧
      (negativePlateLimit3High < c → state.Reports .error) := by
  obtain ⟨middle, first, second⟩ := run.split
  have sound := (plate_sound init first).1
  have settled : ∀ target, classOf (toUint32 (C * 1000)) = some target → state.Reports target := by
    intro target known
    obtain ⟨after, _, near⟩ := Nearing.run second sound equal known
    have reached := (near.resolve_right (by omega)).1
    exact ⟨reached, after.reported.trans reached⟩
  exact ⟨fun below => settled _ (classOf_disconnect below),
    fun above below => settled _ (classOf_half above below),
    fun above below => settled _ (classOf_ok above below), fun above => settled _ (classOf_error above)⟩

theorem plate_settles_ok :
    (called (called (.start clearedFilter) [⟨6000, 0⟩]) (List.replicate 22 ⟨80, 0⟩)).Reports .connectOk := by
  have run := (calls_run (.start clearedFilter) [⟨6000, 0⟩]).append (calls_run _ (List.replicate 22 ⟨80, 0⟩))
  have inputs := calls_inputs (called (.start clearedFilter) [⟨6000, 0⟩]) (List.replicate 22 ⟨80, 0⟩)
  have enough := congrArg List.length inputs
  rw [List.length_map, List.length_replicate] at enough
  have equal : ∀ entry ∈ calls (called (.start clearedFilter) [⟨6000, 0⟩]) (List.replicate 22 ⟨80, 0⟩),
      entry.input.C = 80 := by
    intro entry member
    have input := List.mem_map_of_mem (f := Entry.input) member
    rw [inputs] at input
    rw [List.eq_of_mem_replicate input]
  exact (plate_settles clearedFilter_init run enough.ge equal).2.2.1 (by decide +kernel) (by decide +kernel)

end DetectBoard.Plate
