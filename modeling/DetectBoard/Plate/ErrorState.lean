import DetectBoard.Plate.SlidingMedian
import DetectBoard.Plate.Steady

/-! When the plate state becomes an error, and how long it stays one. -/

set_option autoImplicit false

namespace DetectBoard.Plate

open Library

/-! ## Outliers -/

/-- A measurement beyond the last limit, as the filter gets it. -/
def outlier (entry : PlateEntry) : Bool := (negativePlateLimit3High.toNat : ℚ) < entry.input.C * 1000

theorem toUint32_above {limit : UInt32} {x : ℚ} (above : limit < toUint32 x) : (limit.toNat : ℚ) < x := by
  have less := UInt32.lt_iff_toNat_lt.mp above
  have bounded : (toUint32 x).toNat ≤ ⌊x⌋.toNat := by
    rw [toUint32, UInt32.toNat_ofNat']
    exact (Nat.mod_le _ _).trans (Nat.min_le_left _ _)
  have floor : (limit.toNat : ℤ) + 1 ≤ ⌊x⌋ := by omega
  have le := Int.le_floor.mp floor
  push_cast at le
  linarith

theorem toUint32_lt {limit : UInt32} (room : 0 < limit) {x : ℚ} : toUint32 x < limit ↔ x < limit.toNat := by
  have positive := UInt32.lt_iff_toNat_lt.mp room
  have bound := limit.toNat_lt
  have saturated : (toUint32 x).toNat = min ⌊x⌋.toNat (2 ^ 32 - 1) := by
    rw [toUint32, UInt32.toNat_ofNat', Nat.mod_eq_of_lt (by omega)]
  rw [UInt32.toNat_zero] at positive
  rw [UInt32.lt_iff_toNat_lt, saturated, ← Int.cast_natCast, ← Int.floor_lt]
  omega

section Run

variable {entries : List PlateEntry} {entry : PlateEntry} {p state : LcrTask}

theorem plate_fed (run : plateMachine.Run p entries state) (sound : p.Sound) :
    state.filter = fed p.filter (entries.map fun entry => entry.input.C * 1000) := by
  refine run.history (fun entries state => state.filter = fed p.filter (entries.map fun entry => entry.input.C * 1000))
    rfl fun pre entry before taken fed => ?_
  rw [plate_filter taken (plate_sound_from before sound).1, fed, List.map_append, List.map_singleton, fed_snoc]

end Run

/-- From the eleventh call on, a change to the error state takes six outliers among the last eleven measurements. -/
theorem plate_error_majority {w : {w : List ℚ // w.length = (11 : UInt32).toNat}} {filter : MedianFilter ℚ}
    {entries : List PlateEntry} {entry : PlateEntry} {state : LcrTask}
    (init : medianFilterInit 11 (some w) true = .ok filter)
    (run : plateMachine.Run (.start filter) (entries ++ [entry]) state) (warm : 10 ≤ entries.length)
    (before : entry.before.negState ≠ .error) (after : entry.after.negState = .error) :
    6 ≤ ((entries ++ [entry]).drop (entries.length - 10)).countP outlier := by
  obtain ⟨earlier, taken, _⟩ := run.reach
  have sound := (plate_sound init earlier).1
  have step := congrArg Prod.fst (plate_step taken sound)
  dsimp only at step
  have entered := judgeCap_entered (step ▸ after ▸ Ne.symm before)
  rw [← step, after] at entered
  have above := toUint32_above (show negativePlateLimit3High < toUint32 _ from entered)
  have fed := plate_fed earlier (LcrTask.start_sound (medianFilterInit_size init))
  rw [fed] at above
  have size := medianFilterInit_size init
  have tracks := tracks_small init (by decide) (entries.map fun entry => entry.input.C * 1000)
  have ranked := (tracks.output (tracks.room (.inl (by rw [size]; decide))) (entry.input.C * 1000)).median
    (by rw [size, List.length_map]; exact Nat.succ_le_succ warm)
  have counts := count_above_rank ranked above
  -- the calls and their measurements are counted alike
  have measured : (entries ++ [entry]).map (fun entry => entry.input.C * 1000) =
      entries.map (fun entry => entry.input.C * 1000) ++ [entry.input.C * 1000] := List.map_append
  have last : (entries.map fun entry => entry.input.C * 1000).length + 1 - UInt32.toNat 11 = entries.length - 10 := by
    rw [List.length_map]
    rfl
  rw [← measured, size, last, ← List.map_drop, List.countP_map, List.length_map, List.length_drop,
    List.length_append, List.length_singleton] at counts
  change entries.length + 1 - (entries.length - 10) ≤ 5 + List.countP outlier _ at counts
  omega

theorem plate_error_majority_six :
    let earlier : List Measured := List.replicate 11 ⟨80, 0⟩ ++ List.replicate 5 ⟨6000, 0⟩
    let entries := calls (.start clearedFilter) earlier
    let entry := call (called (.start clearedFilter) earlier) ⟨6000, 0⟩
    6 ≤ ((entries ++ [entry]).drop (entries.length - 10)).countP outlier := by
  have run : ∀ p earlier m, plateMachine.Run p (calls p earlier ++ [call (called p earlier) m])
      (call (called p earlier) m).after := fun p earlier m => (calls_run p earlier).snoc (call_takes _ m)
  exact plate_error_majority clearedFilter_init (run _ _ _) (by decide +kernel) (by decide +kernel)
    (by decide +kernel)

/-! ## The countdown -/

def low (entry : PlateEntry) : Bool := reading entry < negativePlateLimit3Low

def lows (entries : List PlateEntry) : ℕ := entries.countP low

/-- The state that a low reading leads to. -/
def lowState (cap : UInt32) : NegptState :=
  if cap < negativePlateLimit1High then .disconnect
  else if cap < negativePlateLimit2High then .connectHalf
  else .connectOk

theorem judgeCap_low {cap : UInt32} (below : cap < negativePlateLimit3Low) (errorReduce : UInt16) :
    judgeCap cap .error .error errorReduce = settle (lowState cap) .error errorReduce := by
  have past : ∀ {limit limit' : UInt32}, limit ≤ limit' → ¬ cap < limit' → ¬ cap < limit :=
    fun le above less => above (UInt32.lt_of_lt_of_le less le)
  unfold judgeCap lowState
  simp only [reduceCtorEq, or_self, if_false, below, if_true]
  by_cases first : cap < negativePlateLimit1High
  · simp only [first, if_true, ite_self]
  · have first' := past (show negativePlateLimit1Low ≤ _ by decide) first
    by_cases second : cap < negativePlateLimit2High
    · simp only [first, first', second, if_true, if_false, ite_self]
    · have second' := past (show negativePlateLimit2Low ≤ _ by decide) second
      simp only [first, first', second, second', if_false]

theorem judgeCap_neutral {cap : UInt32} (above : negativePlateLimit3Low ≤ cap)
    (below : cap ≤ negativePlateLimit3High) (errorReduce : UInt16) :
    judgeCap cap .error .error errorReduce = (.error, errorReduce) := by
  have past : ∀ limit, limit ≤ negativePlateLimit3Low → ¬ cap < limit := fun limit le less =>
    UInt32.not_lt.mpr (UInt32.le_trans le above) less
  rw [judgeCap, if_neg (past _ (by decide)), if_neg (past _ (by decide)), if_neg (past _ (by decide)),
    if_neg (past _ (by decide)), if_neg (past _ (by decide))]
  split
  · exact if_pos (.inr rfl)
  · exact if_neg (UInt32.not_lt.mpr below)

/-- An error that is held after so many low readings. -/
structure CountsDown (count : ℕ) (p : LcrTask) : Prop where
  sound : p.Sound
  error : p.negState = .error
  left : p.errorReduce.toNat + count = negativePlateErrorReduce.toNat

/-- No new error: neither the filtered reading nor the measurement passes the last limit. -/
structure Calm (entry : PlateEntry) : Prop where
  reading : reading entry ≤ negativePlateLimit3High
  measured : entry.before.negState = .error → entry.input.C ≤ negativePlateLimit3High.toNat

instance (entry : PlateEntry) : Decidable (Calm entry) :=
  decidable_of_iff (Plate.reading entry ≤ negativePlateLimit3High ∧
    (entry.before.negState = .error → entry.input.C ≤ negativePlateLimit3High.toNat))
    ⟨fun both => ⟨both.1, both.2⟩, fun calm => ⟨calm.reading, calm.measured⟩⟩

section Step

variable {count : ℕ} {entry : PlateEntry}

theorem Calm.again (calm : Calm entry) (error : entry.before.negState = .error) :
    entry.before.holdAgain entry.input.C = entry.before.errorReduce :=
  if_neg fun again => absurd (calm.measured error) (not_le.mpr again.2)

theorem error_step (taken : plateMachine.Takes entry) (sound : entry.before.Sound)
    (error : entry.before.negState = .error) (calm : reading entry ≤ negativePlateLimit3High) :
    (entry.after.negState, entry.after.errorReduce) =
      if low entry then settle (lowState (reading entry)) .error (entry.before.holdAgain entry.input.C)
      else (.error, entry.before.holdAgain entry.input.C) := by
  rw [plate_step taken sound, error]
  split
  · next below => exact judgeCap_low (of_decide_eq_true below) _
  · next above =>
    exact judgeCap_neutral (UInt32.not_lt.mp fun below => above (decide_eq_true below)) calm _

theorem CountsDown.raise (taken : plateMachine.Takes entry) (sound : entry.before.Sound)
    (raised : negativePlateLimit3High < reading entry) : CountsDown 0 entry.after := by
  have step := plate_step taken sound
  rw [judgeCap_class (classOf_error raised), if_pos rfl] at step
  obtain ⟨error, hold⟩ := Prod.mk.inj step
  exact ⟨plate_sound_step taken sound, error, by rw [hold]; rfl⟩

theorem CountsDown.judged (counts : CountsDown count entry.before) (taken : plateMachine.Takes entry)
    (calm : Calm entry) : entry.after.Sound ∧ (entry.after.negState, entry.after.errorReduce) =
      if low entry then settle (lowState (reading entry)) .error entry.before.errorReduce
      else (.error, entry.before.errorReduce) := by
  have step := error_step taken counts.sound counts.error calm.reading
  rw [calm.again counts.error] at step
  exact ⟨plate_sound_step taken counts.sound, step⟩

theorem CountsDown.neutral (counts : CountsDown count entry.before) (taken : plateMachine.Takes entry)
    (calm : Calm entry) (neutral : low entry = false) :
    CountsDown count entry.after ∧ entry.after.errorReduce = entry.before.errorReduce := by
  obtain ⟨sound, judged⟩ := counts.judged taken calm
  rw [neutral, if_neg Bool.false_ne_true] at judged
  obtain ⟨error, hold⟩ := Prod.mk.inj judged
  exact ⟨⟨sound, error, by rw [hold]; exact counts.left⟩, hold⟩

theorem CountsDown.next (counts : CountsDown count entry.before) (taken : plateMachine.Takes entry)
    (calm : Calm entry) (reduces : low entry = true) (holding : count < 10) :
    CountsDown (count + 1) entry.after := by
  obtain ⟨sound, judged⟩ := counts.judged taken calm
  have left := counts.left
  have whole : negativePlateErrorReduce.toNat = 10 := rfl
  have holds : entry.before.errorReduce ≠ 0 := by
    intro ended
    rw [ended, UInt16.toNat_zero] at left
    omega
  obtain ⟨held, less⟩ := settle_holding (lowState (reading entry)) .error holds
  rw [reduces, if_pos rfl] at judged
  have error : entry.after.negState = _ := congrArg Prod.fst judged
  have hold : entry.after.errorReduce = _ := congrArg Prod.snd judged
  refine ⟨sound, error.trans held, ?_⟩
  rw [hold]
  omega

theorem CountsDown.ends (counts : CountsDown 10 entry.before) (taken : plateMachine.Takes entry)
    (calm : Calm entry) (reduces : low entry = true) : entry.after.Reports (lowState (reading entry)) := by
  obtain ⟨sound, judged⟩ := counts.judged taken calm
  have ended : entry.before.errorReduce = 0 := by
    apply UInt16.toNat_inj.mp
    have left := counts.left
    have whole : negativePlateErrorReduce.toNat = 10 := rfl
    rw [UInt16.toNat_zero]
    omega
  rw [reduces, if_pos rfl, ended, settle_free] at judged
  have reached : entry.after.negState = _ := congrArg Prod.fst judged
  exact ⟨reached, sound.reported.trans reached⟩

end Step

theorem CountsDown.run {start state : LcrTask} {entries : List PlateEntry} (counts : CountsDown 0 start)
    (run : plateMachine.Run start entries state) (calm : ∀ entry ∈ entries, Calm entry)
    (holding : lows entries ≤ 10) : CountsDown (lows entries) state := by
  refine run.history (fun entries state => (∀ entry ∈ entries, Calm entry) → lows entries ≤ 10 →
    CountsDown (lows entries) state) (fun _ _ => counts) (fun pre entry _ taken before calm holding => ?_) calm holding
  have split : lows (pre ++ [entry]) = lows pre + if low entry then 1 else 0 := by
    rw [lows, List.countP_append, List.countP_singleton, lows]
  rw [split] at holding ⊢
  have earlier := before (fun other member => calm other (by simp [member])) (by omega)
  have here := calm entry (by simp)
  cases reduces : low entry with
  | false => exact (earlier.neutral taken here reduces).1
  | true =>
    rw [reduces, if_pos rfl] at holding
    exact earlier.next taken here reduces (by omega)

/-- What the calls after an error do, until the error is left. -/
def ErrorHold (earlier : List PlateEntry) (entry : PlateEntry) : Prop :=
  (lows (earlier ++ [entry]) ≤ 10 → entry.after.Reports .error) ∧
    (lows earlier = 10 → low entry = true → entry.after.Reports (lowState (reading entry))) ∧
    (lows earlier ≤ 10 → low entry = false →
      entry.after.negState = entry.before.negState ∧ entry.after.errorReduce = entry.before.errorReduce)

/-- An error is held for ten low readings and left at the eleventh. -/
theorem plate_error_holds {w : {w : List ℚ // w.length = (11 : UInt32).toNat}} {filter : MedianFilter ℚ}
    {pre post : List PlateEntry} {entry : PlateEntry} {state : LcrTask}
    (init : medianFilterInit 11 (some w) true = .ok filter)
    (run : plateMachine.Run (.start filter) (pre ++ entry :: post) state)
    (raised : negativePlateLimit3High < reading entry) (calm : ∀ entry ∈ post, Calm entry) :
    Along ErrorHold post := by
  obtain ⟨before, taken, rest⟩ := run.reach
  have start := CountsDown.raise taken (plate_sound init before).1 raised
  rintro earlier later more rfl
  obtain ⟨counted, taken, _⟩ := rest.reach
  have here := calm later (by simp)
  have held := start.run counted fun other member => calm other (by simp [member])
  refine ⟨fun holding => ?_, fun ten reduces => ?_, fun holding neutral => ?_⟩
  · have after := start.run (counted.snoc taken) (fun other member => calm other (by simp at member ⊢; tauto)) holding
    exact ⟨after.error, after.sound.reported.trans after.error⟩
  · exact (ten ▸ held ten.le).ends taken here reduces
  · obtain ⟨after, same⟩ := (held holding).neutral taken here neutral
    exact ⟨after.error.trans (held holding).error.symm, same⟩

theorem plate_error_holds_eleven :
    let entry := call (.start clearedFilter) ⟨6000, 0⟩
    Along ErrorHold (calls entry.after (List.replicate 11 ⟨80, 0⟩)) := by
  have run : ∀ p m later, plateMachine.Run p ([] ++ call p m :: calls (call p m).after later)
      (called (call p m).after later) := fun p m later => calls_run p (m :: later)
  exact plate_error_holds clearedFilter_init (run _ _ _) (by decide +kernel) (by decide +kernel)

end DetectBoard.Plate
