import DetectBoard.Library.Machine
import DetectBoard.Library.Hysteresis
import DetectBoard.Can.Message

/-! The bubble alarm of `BD_thread_entry` in `adc.c`.

A window is the content of `adc2_buffer` that one count reads.
-/

set_option autoImplicit false

namespace DetectBoard.Bubble

open Library Can

abbrev adcBufferSize : ℕ := 32

abbrev Window := Vector UInt16 adcBufferSize

/-- `BD_EMPTY` and `BD_FULL`, which a shell command can change. -/
structure Limits where
  bdEmpty : UInt16
  bdFull : UInt16

/-- `g_send_info.Bubble_sensor_zerocount` and `BD_error_sendflag` -/
structure BubbleTask where
  bubbleSensorZerocount : UInt8
  bdErrorSendflag : UInt8
  deriving DecidableEq, Repr

def BubbleTask.start : BubbleTask := ⟨0, 0⟩

/-- `ERROR_STATE` -/
def bdError : UInt16 := 0x1202

def generateError (flag : UInt8) (ec : UInt16) : RtCanMsg := errorCodeInfo flag ec

def set : UInt8 := 1
def reset : UInt8 := 0

/-- The test of the counting loop. -/
def counted (limits : Limits) (adc2Buffer : Window) (i : Fin adcBufferSize) : Bool :=
  -- the second comparison reads the sample 1, not the sample i
  adc2Buffer[i] ≤ limits.bdEmpty || adc2Buffer[1] ≥ limits.bdFull

/-- The sample that the loop compares with the upper limit, whatever its index. -/
def secondSample (adc2Buffer : Window) : UInt16 := adc2Buffer[1]

def countZero (limits : Limits) (adc2Buffer : Window) : UInt8 :=
  (List.finRange adcBufferSize).foldl
    (fun zerocount i => if counted limits adc2Buffer i then zerocount + 1 else zerocount) 0

/-- The flag byte of the frame that a decision sends, which the thread then keeps as its own flag. -/
def bdDecision (bubbleSensorZerocount bdErrorSendflag : UInt8) : Option UInt8 :=
  if bubbleSensorZerocount.toNat ≥ adcBufferSize / 2 ∧ bdErrorSendflag = 0 then some set
  else if bubbleSensorZerocount.toNat ≤ adcBufferSize / 16 ∧ bdErrorSendflag = 1 then some reset
  else none

/-- One window of `BD_thread_entry`, with the frame that it generates. -/
def bdThreadEntry (limits : Limits) (task : BubbleTask) (adc2Buffer : Window) :
    BubbleTask × List RtCanMsg :=
  let zerocount := countZero limits adc2Buffer
  match bdDecision zerocount task.bdErrorSendflag with
  | some flag => (⟨zerocount, flag⟩, [generateError flag bdError])
  | none => (⟨zerocount, task.bdErrorSendflag⟩, [])

def bubbleMachine (limits : Limits) : Machine BubbleTask Window (List RtCanMsg) :=
  ⟨fun task adc2Buffer => some (bdThreadEntry limits task adc2Buffer)⟩

abbrev BubbleEntry := Entry BubbleTask Window (List RtCanMsg)

/-! ## The alarm that is meant -/

def outside (limits : Limits) (sample : UInt16) : Bool :=
  sample ≤ limits.bdEmpty || sample ≥ limits.bdFull

/-- The number of samples of a window whose own value is empty or full. -/
def zeros (limits : Limits) (adc2Buffer : Window) : ℕ :=
  (List.finRange adcBufferSize).countP fun i => outside limits adc2Buffer[i]

/-- An alarm that is set from 16 on and clear up to 2. -/
def alarmStep (alarm : Bool) (z : ℕ) : Bool × List RtCanMsg :=
  if 16 ≤ z ∧ alarm = false then (true, [generateError set bdError])
  else if z ≤ 2 ∧ alarm = true then (false, [generateError reset bdError])
  else (alarm, [])

def alarmMachine : Machine Bool ℕ (List RtCanMsg) := ⟨fun alarm z => some (alarmStep alarm z)⟩

def generated (entries : List BubbleEntry) : List RtCanMsg := entries.flatMap Entry.output

/-- What a run has to do to be the alarm that is meant. -/
structure Alarms (limits : Limits) (entries : List BubbleEntry) : Prop where
  count : ∀ entry ∈ entries, entry.after.bubbleSensorZerocount.toNat = zeros limits entry.input
  frames : alarmMachine.Refines (zeros limits) false entries
  alternate : generated entries =
    alternating (generateError set bdError) (generateError reset bdError) (generated entries).length

def Uniform (limits : Limits) (adc2Buffer : Window) : Prop :=
  (adc2Buffer[1] ≥ limits.bdFull ∧
      ∀ i : Fin adcBufferSize, adc2Buffer[i] ≤ limits.bdEmpty ∨ adc2Buffer[i] ≥ limits.bdFull) ∨
    ∀ i : Fin adcBufferSize, adc2Buffer[i] < limits.bdFull

instance (limits : Limits) (adc2Buffer : Window) : Decidable (Uniform limits adc2Buffer) :=
  inferInstanceAs (Decidable (_ ∨ _))

/-! ## The count -/

section Count

variable {α : Type} (p q : α → Bool)

theorem foldl_count (l : List α) (first : UInt8) (room : first.toNat + l.length < 256) :
    (l.foldl (fun count a => if p a then count + 1 else count) first).toNat = first.toNat + l.countP p := by
  induction l generalizing first with
  | nil => rfl
  | cons a rest ih =>
    rw [List.length_cons] at room
    have next : (first + 1).toNat = first.toNat + 1 := by
      rw [UInt8.toNat_add, UInt8.toNat_one]
      omega
    rw [List.foldl_cons, List.countP_cons]
    split
    · rw [ih _ (by omega), next]
      omega
    · exact ih _ (by omega)

theorem countP_eq_iff (l : List α) (weaker : ∀ a ∈ l, p a → q a) :
    l.countP p = l.countP q ↔ ∀ a ∈ l, q a → p a := by
  induction l with
  | nil => simp
  | cons a rest ih =>
    have less := List.countP_mono_left fun b member => weaker b (List.mem_cons_of_mem a member)
    have ih := ih fun b member => weaker b (List.mem_cons_of_mem a member)
    have here := weaker a List.mem_cons_self
    rw [List.forall_mem_cons, ← ih, List.countP_cons, List.countP_cons]
    by_cases counts : p a
    · simp [counts, here counts]
    · by_cases meant : q a
      · simp [counts, meant]
        omega
      · simp [counts, meant]

end Count

variable {limits : Limits} {adc2Buffer : Window}

theorem countZero_toNat (limits : Limits) (adc2Buffer : Window) :
    (countZero limits adc2Buffer).toNat = (List.finRange adcBufferSize).countP (counted limits adc2Buffer) := by
  rw [countZero, foldl_count _ _ _ (by rw [List.length_finRange]; decide), UInt8.toNat_zero, Nat.zero_add]

/-- The count is the number of empty and full samples exactly in uniform windows. -/
theorem countZero_iff (ordered : limits.bdEmpty < limits.bdFull) :
    (countZero limits adc2Buffer).toNat = zeros limits adc2Buffer ↔ Uniform limits adc2Buffer := by
  rw [countZero_toNat, zeros]
  by_cases full : adc2Buffer[1] ≥ limits.bdFull
  · -- every sample is counted
    have all : ∀ i, counted limits adc2Buffer i := by simp [counted, full]
    rw [eq_comm, countP_eq_iff _ _ _ fun i _ _ => all i]
    simp only [List.mem_finRange, all, forall_const, outside, Bool.or_eq_true, decide_eq_true_eq]
    refine ⟨fun outer => .inl ⟨full, outer⟩, fun uniform => ?_⟩
    rcases uniform with ⟨_, outer⟩ | low
    · exact outer
    · exact absurd full (UInt16.not_le.mpr (low 1))
  · -- only the empty samples are counted
    have only : ∀ i, counted limits adc2Buffer i ↔ adc2Buffer[i] ≤ limits.bdEmpty := by
      simp [counted, full]
    rw [countP_eq_iff _ _ _ fun i _ empty => by
      rw [outside, Bool.or_eq_true, decide_eq_true_eq]
      exact .inl ((only i).mp empty)]
    simp only [List.mem_finRange, only, forall_const, outside, Bool.or_eq_true, decide_eq_true_eq]
    constructor
    · intro empty
      refine .inr fun i => ?_
      by_contra above
      have above := UInt16.not_lt.mp above
      exact UInt16.not_lt.mpr above (UInt16.lt_of_le_of_lt (empty i (.inr above)) ordered)
    · rintro (⟨first, _⟩ | low) i either
      · exact absurd first full
      · exact either.resolve_right (UInt16.not_le.mpr (low i))

/-! ## The alarm -/

variable {entry : BubbleEntry} {entries : List BubbleEntry} {state : BubbleTask}

def BubbleTask.Shows (task : BubbleTask) (alarm : Bool) : Prop :=
  task.bdErrorSendflag = if alarm then set else reset

theorem bdDecision_shows {alarm : Bool} (zerocount : UInt8) :
    bdDecision zerocount (if alarm then set else reset) =
      if 16 ≤ zerocount.toNat ∧ alarm = false then some set
      else if zerocount.toNat ≤ 2 ∧ alarm = true then some reset else none := by
  cases alarm <;> simp [bdDecision, adcBufferSize, set, reset]

theorem bubble_takes (taken : (bubbleMachine limits).Takes entry) :
    entry.after = (bdThreadEntry limits entry.before entry.input).1 ∧
      entry.output = (bdThreadEntry limits entry.before entry.input).2 :=
  Prod.mk.inj (Option.some.inj taken).symm

theorem bdThreadEntry_count (limits : Limits) (task : BubbleTask) (adc2Buffer : Window) :
    (bdThreadEntry limits task adc2Buffer).1.bubbleSensorZerocount = countZero limits adc2Buffer := by
  unfold bdThreadEntry
  dsimp only
  split <;> rfl

theorem bdThreadEntry_alarm (limits : Limits) (adc2Buffer : Window) {task : BubbleTask} {alarm : Bool}
    (shows : task.Shows alarm) :
    (bdThreadEntry limits task adc2Buffer).2 = (alarmStep alarm (countZero limits adc2Buffer).toNat).2 ∧
      (bdThreadEntry limits task adc2Buffer).1.Shows (alarmStep alarm (countZero limits adc2Buffer).toNat).1 := by
  unfold bdThreadEntry alarmStep
  dsimp only
  rw [shows, bdDecision_shows]
  by_cases rises : 16 ≤ (countZero limits adc2Buffer).toNat ∧ alarm = false
  · rw [if_pos rises, if_pos rises]
    exact ⟨rfl, rfl⟩
  · rw [if_neg rises, if_neg rises]
    by_cases falls : (countZero limits adc2Buffer).toNat ≤ 2 ∧ alarm = true
    · rw [if_pos falls, if_pos falls]
      exact ⟨rfl, rfl⟩
    · rw [if_neg falls, if_neg falls]
      exact ⟨rfl, rfl⟩

/-- Every run is a run of the alarm, driven by what the loop counts. -/
theorem bubble_refines_counted (run : (bubbleMachine limits).Run .start entries state) :
    alarmMachine.Refines (fun adc2Buffer => (countZero limits adc2Buffer).toNat) false entries := by
  refine run.refines BubbleTask.Shows rfl fun entry _ taken alarm shows => ?_
  -- what the window shows is what the loop has counted, not what is there
  obtain ⟨after, output⟩ := bubble_takes taken
  obtain ⟨frames, next⟩ := bdThreadEntry_alarm limits entry.input shows
  rw [← output] at frames
  rw [← after] at next
  exact ⟨_, by rw [frames]; rfl, next⟩

theorem alarmStep_cases (alarm : Bool) (z : ℕ) :
    alarmStep alarm z = (alarm, []) ∨
      alarmStep alarm z = (!alarm, [generateError (if alarm then reset else set) bdError]) := by
  unfold alarmStep
  split
  · next rises =>
    right
    rw [rises.2]
    rfl
  · split
    · next falls =>
      right
      rw [falls.2]
      rfl
    · exact .inl rfl

theorem alarm_alternates {steps : List (Entry Bool ℕ (List RtCanMsg))} {alarm : Bool}
    (run : alarmMachine.Run false steps alarm) :
    steps.flatMap Entry.output = alternating (generateError set bdError) (generateError reset bdError)
      (steps.flatMap Entry.output).length := by
  -- the alarm is set after an odd number of frames
  refine (run.history (fun steps alarm =>
    alarm = decide ((steps.flatMap Entry.output).length % 2 = 1) ∧
      steps.flatMap Entry.output = alternating (generateError set bdError) (generateError reset bdError)
        (steps.flatMap Entry.output).length) ⟨rfl, rfl⟩ fun pre entry _ taken before => ?_).2
  obtain ⟨parity, frames⟩ := before
  obtain ⟨before, z, after, output⟩ := entry
  have step : alarmStep before z = (after, output) := Option.some.inj taken
  dsimp only at parity
  rw [List.flatMap_append, List.flatMap_singleton, List.length_append]
  generalize pre.flatMap Entry.output = sent at *
  rcases alarmStep_cases before z with same | turned
  · obtain ⟨rfl, rfl⟩ := Prod.mk.inj (step.symm.trans same)
    simpa using ⟨parity, frames⟩
  · obtain ⟨rfl, rfl⟩ := Prod.mk.inj (step.symm.trans turned)
    rw [List.length_singleton, alternating_succ, ← frames]
    rcases Nat.mod_two_eq_zero_or_one sent.length with even | odd
    · rw [even] at parity ⊢
      subst parity
      exact ⟨by rw [show (sent.length + 1) % 2 = 1 by omega]; rfl, rfl⟩
    · rw [odd] at parity ⊢
      subst parity
      exact ⟨by rw [show (sent.length + 1) % 2 = 0 by omega]; rfl, rfl⟩

theorem generated_alternates (run : (bubbleMachine limits).Run .start entries state) :
    generated entries = alternating (generateError set bdError) (generateError reset bdError)
      (generated entries).length := by
  obtain ⟨steps, alarm, alarmRun, _, outputs⟩ := bubble_refines_counted run
  have same : generated entries = steps.flatMap Entry.output := by
    rw [generated, List.flatMap_def, ← outputs, ← List.flatMap_def]
  rw [same]
  exact alarm_alternates alarmRun

/-- A run is the alarm that is meant if and only if all its windows are uniform. -/
theorem bubble_alarms_iff (ordered : limits.bdEmpty < limits.bdFull)
    (run : (bubbleMachine limits).Run .start entries state) :
    Alarms limits entries ↔ ∀ entry ∈ entries, Uniform limits entry.input := by
  have counts : ∀ entry ∈ entries,
      entry.after.bubbleSensorZerocount = countZero limits entry.input := fun entry member => by
    rw [(bubble_takes (run.takes entry member)).1, bdThreadEntry_count]
  constructor
  · intro alarms entry member
    rw [← countZero_iff ordered, ← counts entry member]
    exact alarms.count entry member
  · intro uniform
    have meant : ∀ entry ∈ entries, (countZero limits entry.input).toNat = zeros limits entry.input :=
      fun entry member => (countZero_iff ordered).mpr (uniform entry member)
    refine ⟨fun entry member => ?_, ?_, generated_alternates run⟩
    · rw [counts entry member]
      exact meant entry member
    · obtain ⟨steps, alarm, alarmRun, inputs, outputs⟩ := bubble_refines_counted run
      exact ⟨steps, alarm, alarmRun, inputs.trans (List.map_congr_left meant), outputs⟩

theorem bubble_alarms_air :
    ∃ entries state, (bubbleMachine ⟨1800, 4000⟩).exec .start
        [.replicate 32 0, (Vector.replicate 32 3000).set 7 100] = some (entries, state) ∧
      Alarms ⟨1800, 4000⟩ entries := by
  have done : (bubbleMachine ⟨1800, 4000⟩).exec .start
    [.replicate 32 0, (Vector.replicate 32 3000).set 7 100] = some (_, _) := rfl
  exact ⟨_, _, done, (bubble_alarms_iff (by decide) (Machine.exec_run done)).mpr (by decide)⟩

theorem bubble_miscounts :
    ∃ entries state, (bubbleMachine ⟨1800, 4000⟩).exec .start [(Vector.replicate 32 3000).set 1 4095] =
        some (entries, state) ∧ generated entries = [generateError set bdError] ∧
      zeros ⟨1800, 4000⟩ ((Vector.replicate 32 3000).set 1 4095) = 1 ∧ ¬ Alarms ⟨1800, 4000⟩ entries := by
  -- one full sample at index 1 raises the alarm
  have done : (bubbleMachine ⟨1800, 4000⟩).exec .start [(Vector.replicate 32 3000).set 1 4095] =
    some (_, _) := rfl
  refine ⟨_, _, done, by decide, by decide, fun alarms => ?_⟩
  have count := alarms.count _ List.mem_cons_self
  exact absurd count (by decide)

end DetectBoard.Bubble
