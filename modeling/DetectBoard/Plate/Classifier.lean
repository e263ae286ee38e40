import DetectBoard.Plate.Judge

/-! What every call of `lcr_info_judge` leaves and sends, whatever reading the filter hands to it.

The readings and the measurements of these calls are any two sequences. Those of
the task, whose readings the median filter makes of its measurements, are among
them.
-/

set_option autoImplicit false

namespace DetectBoard.Plate

open Library Can

/-- What a call finds, with the filtered reading. -/
structure Reading extends Measured where
  cap : UInt32

def readingMachine : Machine LcrTask Reading (List RtCanMsg) :=
  ⟨fun p m => some (judgeReading (p.found m.toMeasured) m.cap m.C)⟩

abbrev ReadingEntry := Entry LcrTask Reading (List RtCanMsg)

/-- What a call that found the state `found` leaves and sends. -/
structure Settled (found : NegptState) (reading : UInt32) (zerocount : UInt8) (left : LcrTask)
    (frames : List RtCanMsg) : Prop where
  pre : left.preNegState = left.negState
  reported : left.sendInfo.negState = left.negState
  bound : left.errorReduce ≤ 10
  error : 0 < left.errorReduce → left.negState = .error
  cap : left.sendInfo.cap = reading
  sent : frames = if left.negState = found then []
    else [monitorBoardInformInfo left.negState.code zerocount reading]

section Call

variable {p : LcrTask}

theorem LcrTask.Agree.next (agree : p.Agree) (cap : UInt32) (C : ℚ) : (judgeReading p cap C).1.Agree := by
  rw [judgeReading_state agree]
  exact ⟨rfl, rfl, (again_held agree.held C).judgeCap⟩

theorem LcrTask.Agree.settled (agree : p.Agree) (cap : UInt32) (C : ℚ) :
    Settled p.negState cap p.sendInfo.bubbleSensorZerocount (judgeReading p cap C).1 (judgeReading p cap C).2 := by
  obtain ⟨pre, reported, held⟩ := agree.next cap C
  refine ⟨pre, reported, held.bound, fun holding => held.error (UInt16.pos_iff_ne_zero.mp holding), ?_, ?_⟩
  · rw [judgeReading_state agree]
  · rw [judgeReading_state agree]

theorem LcrTask.Agree.found (agree : p.Agree) (m : Measured) : (p.found m).Agree :=
  ⟨agree.pre, agree.reported, agree.held⟩

end Call

section Run

variable {state : LcrTask} {filter : MedianFilter ℚ}

theorem reading_step {entry : ReadingEntry} (taken : readingMachine.Takes entry) (agree : entry.before.Agree) :
    entry.after.Agree ∧ Settled entry.before.negState entry.input.cap entry.input.bubbleSensorZerocount entry.after
      entry.output := by
  obtain ⟨left, frames⟩ := Prod.mk.inj (Option.some.inj taken)
  rw [← left, ← frames]
  have agree := agree.found entry.input.toMeasured
  exact ⟨agree.next entry.input.cap entry.input.C, agree.settled entry.input.cap entry.input.C⟩

/-- The calls of the task, whose readings come from the filter. -/
theorem plate_settled {w : {w : List ℚ // w.length = (11 : UInt32).toNat}} {entries : List PlateEntry}
    (init : medianFilterInit 11 (some w) true = .ok filter)
    (run : plateMachine.Run (.start filter) entries state) :
    ∀ entry ∈ entries, Settled entry.before.negState (reading entry) entry.input.bubbleSensorZerocount entry.after
      entry.output := by
  intro entry member
  have sound := ((plate_sound init run).2 entry member).1
  obtain ⟨left, frames⟩ := Prod.mk.inj (Option.some.inj (run.takes entry member))
  rw [← left, ← frames]
  have agree : { entry.before.found entry.input with
      filter := (medianFilterHandle entry.before.filter (entry.input.C * 1000)).2 }.Agree :=
    ⟨sound.pre, sound.reported, sound.held⟩
  exact agree.settled (reading entry) entry.input.C

/-- After every call the states agree, only an error holds, and the call has sent a frame exactly if
it changed the state. -/
theorem reading_settled {entries : List ReadingEntry} (run : readingMachine.Run (.start filter) entries state) :
    ∀ entry ∈ entries, Settled entry.before.negState entry.input.cap entry.input.bubbleSensorZerocount entry.after
      entry.output := by
  intro entry member
  have agree := (run.invariant LcrTask.Agree (LcrTask.start_agree filter) fun _ _ taken before =>
    (reading_step taken before).1).2 entry member
  exact (reading_step (run.takes entry member) agree.1).2

theorem reading_settled_twice :
    ∃ entries state, readingMachine.exec (.start clearedFilter) [⟨⟨6000, 0⟩, 6000000⟩, ⟨⟨80, 3⟩, 80000⟩] =
        some (entries, state) ∧
      ∀ entry ∈ entries, Settled entry.before.negState entry.input.cap entry.input.bubbleSensorZerocount entry.after
        entry.output := by
  refine ⟨_, _, rfl, ?_⟩
  have done : readingMachine.exec (.start clearedFilter) [⟨⟨6000, 0⟩, 6000000⟩, ⟨⟨80, 3⟩, 80000⟩] =
      some (_, _) := rfl
  exact reading_settled (Machine.exec_run done)

end Run

end DetectBoard.Plate
