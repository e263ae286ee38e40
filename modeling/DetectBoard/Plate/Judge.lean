import DetectBoard.Library.Machine
import DetectBoard.Can.Message
import DetectBoard.Plate.MedianFilter
import Mathlib.Data.Rat.Floor

/-! The plate-state classifier `lcr_info_judge` of `lcr_task.c`.

A measured capacitance is a rational number and its product with 1000 is exact.
-/

set_option autoImplicit false

namespace DetectBoard.Plate

open Library Can

inductive NegptState where
  | disconnect
  | connectOk
  | connectHalf
  | error
  deriving DecidableEq, Repr

def NegptState.code : NegptState → UInt8
  | .disconnect => 0
  | .connectOk => 1
  | .connectHalf => 2
  | .error => 3

structure SendInfo where
  negState : NegptState
  bubbleSensorZerocount : UInt8
  cap : UInt32
  deriving DecidableEq, Repr

def negativePlateLimit1Low : UInt32 := 15000
def negativePlateLimit1High : UInt32 := 20000
def negativePlateLimit2Low : UInt32 := 50000
def negativePlateLimit2High : UInt32 := 70000
def negativePlateLimit3Low : UInt32 := 100000
def negativePlateLimit3High : UInt32 := 5000000
def negativePlateErrorReduce : UInt16 := 10

/-- The filter `g_median_filter_for_c`, the static variables of `lcr_info_judge` and `g_send_info`. -/
structure LcrTask where
  filter : MedianFilter ℚ
  negState : NegptState
  preNegState : NegptState
  errorReduce : UInt16
  sendInfo : SendInfo

def LcrTask.start (filter : MedianFilter ℚ) : LcrTask :=
  ⟨filter, .disconnect, .disconnect, 0, ⟨.disconnect, 0, 0⟩⟩

/-- The conversion of a float to `uint32_t`, which saturates. -/
def toUint32 (x : ℚ) : UInt32 := .ofNat (min ⌊x⌋.toNat (2 ^ 32 - 1))

/-- Change to the target state, unless an earlier error still holds. -/
def settle (target negState : NegptState) (errorReduce : UInt16) : NegptState × UInt16 :=
  if errorReduce ≠ 0 then (negState, errorReduce - 1) else (target, errorReduce)

/-- The comparisons of the filtered reading, with the state and the hold counter they leave. -/
def judgeCap (cap : UInt32) (preNegState negState : NegptState) (errorReduce : UInt16) :
    NegptState × UInt16 :=
  if cap < negativePlateLimit1Low then settle .disconnect negState errorReduce
  else if cap < negativePlateLimit1High then
    if preNegState = .disconnect ∨ preNegState = .connectHalf then (negState, errorReduce)
    else settle .disconnect negState errorReduce
  else if cap < negativePlateLimit2Low then settle .connectHalf negState errorReduce
  else if cap < negativePlateLimit2High then
    -- the source tests the two states of the first band here again
    if preNegState = .disconnect ∨ preNegState = .connectHalf then (negState, errorReduce)
    else settle .connectHalf negState errorReduce
  else if cap < negativePlateLimit3Low then settle .connectOk negState errorReduce
  else if cap < negativePlateLimit3High then
    if preNegState = .connectOk ∨ preNegState = .error then (negState, errorReduce)
    else settle .connectOk negState errorReduce
  else if cap > negativePlateLimit3High then (.error, negativePlateErrorReduce)
  -- a reading of exactly the last limit matches no comparison
  else (negState, errorReduce)

namespace LcrTask

/-- `cap`, the filtered reading; `C * 1000` stands for the product that the source computes in floats. -/
def reading (p : LcrTask) (C : ℚ) : UInt32 := toUint32 (medianFilterHandle p.filter (C * 1000)).1

/-- The hold counter after the first test, which compares the unscaled measurement. -/
def holdAgain (p : LcrTask) (C : ℚ) : UInt16 :=
  if p.negState = .error ∧ C > negativePlateLimit3High.toNat then negativePlateErrorReduce
  else p.errorReduce

end LcrTask

/-- `lcr_info_judge` from the point where the filter has given `cap`, with the frame that it sends at a change. -/
def judgeReading (p : LcrTask) (cap : UInt32) (C : ℚ) : LcrTask × List RtCanMsg :=
  let judged := judgeCap cap p.preNegState p.negState (p.holdAgain C)
  let sendInfo := { p.sendInfo with cap := cap }
  if p.preNegState ≠ judged.1 then
    (⟨p.filter, judged.1, judged.1, judged.2, { sendInfo with negState := judged.1 }⟩,
      [monitorBoardInformInfo judged.1.code sendInfo.bubbleSensorZerocount cap])
  else (⟨p.filter, judged.1, p.preNegState, judged.2, sendInfo⟩, [])

def lcrInfoJudge (p : LcrTask) (C : ℚ) : LcrTask × List RtCanMsg :=
  judgeReading { p with filter := (medianFilterHandle p.filter (C * 1000)).2 } (p.reading C) C

/-- What a call finds: the measurement, and the count that the bubble task keeps in `g_send_info`. -/
structure Measured where
  C : ℚ
  bubbleSensorZerocount : UInt8

def LcrTask.found (p : LcrTask) (m : Measured) : LcrTask :=
  { p with sendInfo := { p.sendInfo with bubbleSensorZerocount := m.bubbleSensorZerocount } }

def plateMachine : Machine LcrTask Measured (List RtCanMsg) :=
  ⟨fun p m => some (lcrInfoJudge (p.found m) m.C)⟩

abbrev PlateEntry := Entry LcrTask Measured (List RtCanMsg)

def call (p : LcrTask) (m : Measured) : PlateEntry :=
  ⟨p, m, (lcrInfoJudge (p.found m) m.C).1, (lcrInfoJudge (p.found m) m.C).2⟩

def calls (p : LcrTask) : List Measured → List PlateEntry
  | [] => []
  | m :: rest => call p m :: calls (call p m).after rest

def called (p : LcrTask) (inputs : List Measured) : LcrTask := inputs.foldl (fun p m => (call p m).after) p

theorem call_takes (p : LcrTask) (m : Measured) : plateMachine.Takes (call p m) := rfl

theorem calls_run (p : LcrTask) (inputs : List Measured) :
    plateMachine.Run p (calls p inputs) (called p inputs) := by
  induction inputs generalizing p with
  | nil => exact .nil
  | cons m rest ih =>
    have first : plateMachine.Run p [call p m] (call p m).after := Machine.Run.nil.snoc (call_takes p m)
    exact first.append (ih (call p m).after)

theorem calls_inputs (p : LcrTask) (inputs : List Measured) : (calls p inputs).map Entry.input = inputs := by
  induction inputs generalizing p with
  | nil => rfl
  | cons m rest ih => rw [calls, List.map_cons, ih]; rfl

/-- The filtered reading of a call. -/
def reading (entry : PlateEntry) : UInt32 := entry.before.reading entry.input.C

/-! ## What a call does -/

/-- The hold counter is bounded, and only an error holds. -/
structure Held (negState : NegptState) (errorReduce : UInt16) : Prop where
  bound : errorReduce ≤ negativePlateErrorReduce
  error : errorReduce ≠ 0 → negState = .error

section Settle

variable {target negState : NegptState} {errorReduce : UInt16}

@[simp] theorem settle_free : settle target negState 0 = (target, 0) := rfl

theorem settle_holding (target negState : NegptState) (holding : errorReduce ≠ 0) :
    (settle target negState errorReduce).1 = negState ∧
      (settle target negState errorReduce).2.toNat + 1 = errorReduce.toNat := by
  have positive : errorReduce.toNat ≠ 0 := fun zero => holding (UInt16.toNat_inj.mp zero)
  have counted : (1 : UInt16) ≤ errorReduce := UInt16.le_iff_toNat_le.mpr (Nat.one_le_iff_ne_zero.mpr positive)
  rw [settle, if_pos holding]
  refine ⟨rfl, ?_⟩
  dsimp only
  rw [UInt16.toNat_sub_of_le _ _ counted]
  exact Nat.sub_add_cancel (Nat.one_le_iff_ne_zero.mpr positive)

theorem Held.settle (held : Held negState errorReduce) :
    Held (settle target negState errorReduce).1 (settle target negState errorReduce).2 := by
  by_cases holding : errorReduce = 0
  · subst holding
    exact ⟨held.bound, fun holding => absurd rfl holding⟩
  · obtain ⟨same, less⟩ := settle_holding target negState holding
    have bound := UInt16.le_iff_toNat_le.mp held.bound
    refine ⟨UInt16.le_iff_toNat_le.mpr (by omega), fun _ => ?_⟩
    rw [same]
    exact held.error holding

end Settle

/-- The state that a reading outside the dead bands stands for. -/
def classOf (cap : UInt32) : Option NegptState :=
  if cap < negativePlateLimit1Low then some .disconnect
  else if cap < negativePlateLimit1High then none
  else if cap < negativePlateLimit2Low then some .connectHalf
  else if cap < negativePlateLimit2High then none
  else if cap < negativePlateLimit3Low then some .connectOk
  else if cap > negativePlateLimit3High then some .error
  else none

section JudgeCap

variable {cap : UInt32} {preNegState negState target : NegptState} {errorReduce : UInt16}

theorem judgeCap_class (known : classOf cap = some target) :
    judgeCap cap preNegState negState errorReduce =
      if target = .error then (.error, negativePlateErrorReduce)
      else settle target negState errorReduce := by
  unfold classOf at known
  unfold judgeCap
  split at known
  · cases known
    simp [*]
  split at known
  · cases known
  split at known
  · cases known
    simp [*]
  split at known
  · cases known
  split at known
  · cases known
    simp [*]
  split at known
  · next above =>
    cases known
    have past : ¬ cap < negativePlateLimit3High := UInt32.not_lt.mpr (UInt32.le_of_lt above)
    simp [*]
  · cases known

/-- The readings at which a state is entered. -/
def NegptState.Entered (cap : UInt32) : NegptState → Prop
  | .disconnect => cap < negativePlateLimit1High
  | .connectHalf => negativePlateLimit1High ≤ cap ∧ cap < negativePlateLimit2High
  | .connectOk => negativePlateLimit2High ≤ cap ∧ cap < negativePlateLimit3High
  | .error => negativePlateLimit3High < cap

theorem judgeCap_cases (cap : UInt32) (preNegState negState : NegptState) (errorReduce : UInt16) :
    judgeCap cap preNegState negState errorReduce = (negState, errorReduce) ∨
      (negativePlateLimit3High < cap ∧
        judgeCap cap preNegState negState errorReduce = (.error, negativePlateErrorReduce)) ∨
      ∃ target, target ≠ .error ∧ target.Entered cap ∧
        judgeCap cap preNegState negState errorReduce = settle target negState errorReduce := by
  unfold judgeCap
  repeat' split
  all_goals first
    | exact .inl rfl
    | exact .inr (.inl ⟨‹_›, rfl⟩)
    | refine .inr (.inr ⟨_, by simp, ?_, rfl⟩)
  all_goals
    simp only [NegptState.Entered, UInt32.lt_iff_toNat_lt, UInt32.le_iff_toNat_le, negativePlateLimit1Low,
      negativePlateLimit1High, negativePlateLimit2Low, negativePlateLimit2High, negativePlateLimit3Low,
      negativePlateLimit3High, UInt32.reduceToNat] at *
    omega

theorem Held.judgeCap (held : Held negState errorReduce) :
    Held (judgeCap cap preNegState negState errorReduce).1
      (judgeCap cap preNegState negState errorReduce).2 := by
  rcases judgeCap_cases cap preNegState negState errorReduce with same | ⟨_, raised⟩ | ⟨target, _, _, settled⟩
  · rwa [same]
  · rw [raised]
    exact ⟨UInt16.le_refl _, fun _ => rfl⟩
  · rw [settled]
    exact held.settle

theorem judgeCap_entered (changed : (judgeCap cap preNegState negState errorReduce).1 ≠ negState) :
    (judgeCap cap preNegState negState errorReduce).1.Entered cap := by
  rcases judgeCap_cases cap preNegState negState errorReduce with same | ⟨above, raised⟩ | ⟨target, _, entered, settled⟩
  · rw [same] at changed
    exact absurd rfl changed
  · rw [raised]
    exact above
  · rw [settled] at changed ⊢
    by_cases holding : errorReduce = 0
    · subst holding
      exact entered
    · exact absurd (settle_holding target negState holding).1 changed

end JudgeCap

/-! ## What every run keeps -/

namespace LcrTask

/-- The two states that the classifier keeps and the one it has reported are the same. -/
structure Agree (p : LcrTask) : Prop where
  pre : p.preNegState = p.negState
  reported : p.sendInfo.negState = p.negState
  held : Held p.negState p.errorReduce

theorem start_agree (filter : MedianFilter ℚ) : (start filter).Agree :=
  ⟨rfl, rfl, ⟨UInt16.zero_le, fun holding => absurd rfl holding⟩⟩

structure Sound (p : LcrTask) : Prop where
  pre : p.preNegState = p.negState
  reported : p.sendInfo.negState = p.negState
  held : Held p.negState p.errorReduce
  size : p.filter.medianFilterWindowSize = 11

theorem start_sound {filter : MedianFilter ℚ} (size : filter.medianFilterWindowSize = 11) :
    (start filter).Sound :=
  ⟨rfl, rfl, (start_agree filter).held, size⟩

variable {p : LcrTask}

theorem Sound.found (sound : p.Sound) (m : Measured) : (p.found m).Sound :=
  ⟨sound.pre, sound.reported, sound.held, sound.size⟩

theorem Sound.agree (sound : p.Sound) : p.Agree := ⟨sound.pre, sound.reported, sound.held⟩

theorem again_held (held : Held p.negState p.errorReduce) (C : ℚ) : Held p.negState (p.holdAgain C) := by
  unfold holdAgain
  split
  · next above => exact ⟨UInt16.le_refl _, fun _ => above.1⟩
  · exact held

theorem Sound.again (sound : p.Sound) (C : ℚ) : Held p.negState (p.holdAgain C) := again_held sound.held C

end LcrTask

theorem judgeReading_state {p : LcrTask} (agree : p.Agree) (cap : UInt32) (C : ℚ) :
    let judged := judgeCap cap p.negState p.negState (p.holdAgain C)
    judgeReading p cap C =
      (⟨p.filter, judged.1, judged.1, judged.2, ⟨judged.1, p.sendInfo.bubbleSensorZerocount, cap⟩⟩,
        if judged.1 = p.negState then []
        else [monitorBoardInformInfo judged.1.code p.sendInfo.bubbleSensorZerocount cap]) := by
  dsimp only
  unfold judgeReading
  rw [agree.pre]
  dsimp only
  split
  · next changed => rw [if_neg (Ne.symm changed)]
  · next same =>
    have same := not_ne_iff.mp same
    rw [if_pos same.symm, ← same, agree.reported]

theorem lcrInfoJudge_sound {p : LcrTask} (sound : p.Sound) (C : ℚ) :
    let judged := judgeCap (p.reading C) p.negState p.negState (p.holdAgain C)
    (lcrInfoJudge p C).1 = ⟨(medianFilterHandle p.filter (C * 1000)).2, judged.1, judged.1, judged.2,
      ⟨judged.1, p.sendInfo.bubbleSensorZerocount, p.reading C⟩⟩ := by
  have agree : { p with filter := (medianFilterHandle p.filter (C * 1000)).2 }.Agree :=
    ⟨sound.pre, sound.reported, sound.held⟩
  rw [lcrInfoJudge, judgeReading_state agree]
  rfl

theorem LcrTask.Sound.judge {p : LcrTask} (sound : p.Sound) (C : ℚ) : (lcrInfoJudge p C).1.Sound := by
  rw [lcrInfoJudge_sound sound C]
  exact ⟨rfl, rfl, (sound.again C).judgeCap, (medianFilterHandle_size _ _).trans sound.size⟩

section Run

variable {entry : PlateEntry} {entries : List PlateEntry} {p state : LcrTask}

theorem plate_takes (taken : plateMachine.Takes entry) :
    entry.after = (lcrInfoJudge (entry.before.found entry.input) entry.input.C).1 :=
  (congrArg Prod.fst (Option.some.inj taken)).symm

theorem plate_sound_step (taken : plateMachine.Takes entry) (sound : entry.before.Sound) : entry.after.Sound := by
  rw [plate_takes taken]
  exact (sound.found entry.input).judge entry.input.C

theorem plate_step (taken : plateMachine.Takes entry) (sound : entry.before.Sound) :
    (entry.after.negState, entry.after.errorReduce) =
      judgeCap (reading entry) entry.before.negState entry.before.negState
        (entry.before.holdAgain entry.input.C) := by
  rw [plate_takes taken, lcrInfoJudge_sound (sound.found entry.input)]
  rfl

theorem plate_filter (taken : plateMachine.Takes entry) (sound : entry.before.Sound) :
    entry.after.filter = (medianFilterHandle entry.before.filter (entry.input.C * 1000)).2 := by
  rw [plate_takes taken, lcrInfoJudge_sound (sound.found entry.input)]
  rfl

theorem plate_sound_from (run : plateMachine.Run p entries state) (sound : p.Sound) :
    state.Sound ∧ ∀ entry ∈ entries, entry.before.Sound ∧ entry.after.Sound :=
  run.invariant LcrTask.Sound sound fun _ _ taken before => plate_sound_step taken before

/-- Every run of the task, from the filter that `lcr_task_thread` allocates. -/
theorem plate_sound {w : {w : List ℚ // w.length = (11 : UInt32).toNat}} {filter : MedianFilter ℚ}
    (init : medianFilterInit 11 (some w) true = .ok filter)
    (run : plateMachine.Run (.start filter) entries state) :
    state.Sound ∧ ∀ entry ∈ entries, entry.before.Sound ∧ entry.after.Sound :=
  plate_sound_from run (LcrTask.start_sound (medianFilterInit_size init))

end Run

def clearedFilter : MedianFilter ℚ := ⟨0, 0, 11, List.replicate 11 0, rfl, by decide⟩

theorem clearedFilter_init :
    medianFilterInit 11 (some ⟨List.replicate 11 (0 : ℚ), rfl⟩) true = .ok clearedFilter := rfl

end DetectBoard.Plate
