import DetectBoard.Plate.Judge
import DetectBoard.Bubble.Detection

/-! The inform frame, whose three values two tasks keep in `g_send_info` without a lock.

A task writes one value after the other, and the bubble task counts in place.
Between any two assignments the frame may be sent: by the plate task, which has
the higher priority, or by the periodic timer in the tick interrupt.
-/

set_option autoImplicit false

namespace DetectBoard.Inform

open Library Can Plate Bubble

/-! ## The assignments of the tasks -/

/-- Where the plate task is in `lcr_info_judge`. What comes before `g_send_info.cap = cap` is private
to the function and is one step. -/
inductive LcrLocation where
  | idle
  | assignCap (cap : UInt32)
  | compare
  | assignPreNegState
  | assignNegState
  | send
  deriving DecidableEq, Repr

/-- Where `BD_thread_entry` is: in its counting loop, at the sample `i`, or elsewhere. -/
inductive BdLocation where
  | waiting
  | counting (adc2Buffer : Window) (i : Fin adcBufferSize)
  deriving DecidableEq

structure InformState where
  plate : LcrTask
  lcr : LcrLocation
  bd : BdLocation

def InformState.start (filter : MedianFilter ℚ) : InformState := ⟨.start filter, .idle, .waiting⟩

inductive InformEvent where
  /-- `lcr_info_judge` is called with this measurement. -/
  | call (C : ℚ)
  | lcr
  /-- `BD_thread_entry` takes `bd_sem`. -/
  | window (adc2Buffer : Window)
  | sample
  /-- `can_inform_timer_timeout` -/
  | timer
  deriving DecidableEq

/-- `lcr_info_judge` up to the assignment of `g_send_info.cap`. -/
def judge (p : LcrTask) (C : ℚ) : LcrTask :=
  let judged := judgeCap (p.reading C) p.preNegState p.negState (p.holdAgain C)
  { p with
    filter := (medianFilterHandle p.filter (C * 1000)).2
    negState := judged.1
    errorReduce := judged.2 }

/-- `monitor_board_inform_info_send_to_can_mq` -/
def informInfoSend (info : SendInfo) : RtCanMsg :=
  monitorBoardInformInfo info.negState.code info.bubbleSensorZerocount info.cap

def lcrStep (p : LcrTask) : LcrLocation → Option (LcrTask × LcrLocation × List RtCanMsg)
  | .idle => none
  | .assignCap cap => some ({ p with sendInfo := { p.sendInfo with cap := cap } }, .compare, [])
  | .compare => some (p, if p.preNegState ≠ p.negState then .assignPreNegState else .idle, [])
  | .assignPreNegState => some ({ p with preNegState := p.negState }, .assignNegState, [])
  | .assignNegState => some ({ p with sendInfo := { p.sendInfo with negState := p.negState } }, .send, [])
  | .send => some (p, .idle, [informInfoSend p.sendInfo])

def nextSample (adc2Buffer : Window) (i : Fin adcBufferSize) : BdLocation :=
  if more : i.val + 1 < adcBufferSize then .counting adc2Buffer ⟨i.val + 1, more⟩ else .waiting

def putZerocount (p : LcrTask) (zerocount : UInt8) : LcrTask :=
  { p with sendInfo := { p.sendInfo with bubbleSensorZerocount := zerocount } }

def informStep (limits : Limits) (s : InformState) : InformEvent → Option (InformState × List RtCanMsg)
  | .call C =>
    match s.lcr with
    | .idle => some ({ s with plate := judge s.plate C, lcr := .assignCap (s.plate.reading C) }, [])
    | _ => none
  | .lcr => (lcrStep s.plate s.lcr).map fun done => ({ s with plate := done.1, lcr := done.2.1 }, done.2.2)
  | .window adc2Buffer =>
    match s.bd with
    | .waiting => some ({ s with plate := putZerocount s.plate 0, bd := .counting adc2Buffer 0 }, [])
    | .counting _ _ => none
  | .sample =>
    match s.bd with
    | .waiting => none
    | .counting adc2Buffer i =>
      let zerocount := s.plate.sendInfo.bubbleSensorZerocount
      let next := if counted limits adc2Buffer i then zerocount + 1 else zerocount
      some ({ s with plate := putZerocount s.plate next, bd := nextSample adc2Buffer i }, [])
  | .timer => some (s, [informInfoSend s.plate.sendInfo])

def informMachine (limits : Limits) : Machine InformState InformEvent (List RtCanMsg) := ⟨informStep limits⟩

abbrev InformEntry := Entry InformState InformEvent (List RtCanMsg)

/-! ## What a frame is meant to show -/

def latestPair (last : NegptState × UInt32) (entry : InformEntry) : NegptState × UInt32 :=
  match entry.input, entry.before.lcr with
  | .lcr, .assignCap cap => (entry.before.plate.negState, cap)
  | _, _ => last

/-- The state and the reading of the last call that has assigned its reading. -/
def lastPair (history : List InformEntry) : NegptState × UInt32 := history.foldl latestPair (.disconnect, 0)

def latestWindow (last : Option Window) (entry : InformEntry) : Option Window :=
  match entry.input with
  | .window adc2Buffer => some adc2Buffer
  | _ => last

/-- The window whose samples the counter is about. -/
def lastWindow (history : List InformEntry) : Option Window := history.foldl latestWindow none

/-- The count of all samples of a window, and zero before the first one. -/
def completeCount (limits : Limits) : Option Window → UInt8
  | none => 0
  | some adc2Buffer => countZero limits adc2Buffer

/-- A frame shows the complete count of a window, and the state and the reading of one call. -/
def Snapshot (limits : Limits) (history : List InformEntry) (entry : InformEntry) : Prop :=
  ∀ msg ∈ entry.output, msg = monitorBoardInformInfo (lastPair history).1.code
    (completeCount limits (lastWindow history)) (lastPair history).2

instance (limits : Limits) (history : List InformEntry) (entry : InformEntry) :
    Decidable (Snapshot limits history entry) :=
  inferInstanceAs (Decidable (∀ msg ∈ entry.output, _))

/-- The entry builds an inform frame. -/
def Sends (entry : InformEntry) : Prop :=
  entry.input = .timer ∨ entry.input = .lcr ∧ entry.before.lcr = .send

instance (entry : InformEntry) : Decidable (Sends entry) := inferInstanceAs (Decidable (_ ∨ _))

/-- None of the samples that are still to be visited counts. -/
def BdLocation.Complete (limits : Limits) : BdLocation → Prop
  | .waiting => True
  | .counting adc2Buffer i => ∀ j, i ≤ j → counted limits adc2Buffer j = false

instance (limits : Limits) : DecidablePred (BdLocation.Complete limits)
  | .waiting => inferInstanceAs (Decidable True)
  | .counting adc2Buffer i => inferInstanceAs (Decidable (∀ j, i ≤ j → counted limits adc2Buffer j = false))

/-- No task is in the middle of a change: the count is complete, and the state is published with the
reading. -/
def Whole (limits : Limits) (s : InformState) : Prop :=
  s.bd.Complete limits ∧
    (s.lcr = .compare ∨ s.lcr = .assignPreNegState ∨ s.lcr = .assignNegState →
      s.plate.sendInfo.negState = s.plate.negState)

instance (limits : Limits) (s : InformState) : Decidable (Whole limits s) :=
  inferInstanceAs (Decidable (_ ∧ (_ → _)))

/-! ## The counting loop -/

/-- The counter before the sample `i` is visited. -/
def partialCount (limits : Limits) (adc2Buffer : Window) (i : ℕ) : UInt8 :=
  ((List.finRange adcBufferSize).take i).foldl
    (fun zerocount j => if counted limits adc2Buffer j then zerocount + 1 else zerocount) 0

section Count

variable (limits : Limits) (adc2Buffer : Window) (i : Fin adcBufferSize)

theorem partialCount_all : partialCount limits adc2Buffer adcBufferSize = countZero limits adc2Buffer := by
  rw [partialCount, List.take_of_length_le (by rw [List.length_finRange]), countZero]

theorem partialCount_next : partialCount limits adc2Buffer (i.val + 1) =
    if counted limits adc2Buffer i then partialCount limits adc2Buffer i.val + 1
    else partialCount limits adc2Buffer i.val := by
  have bound : i.val < (List.finRange adcBufferSize).length := by simp
  rw [partialCount, List.take_add_one, List.getElem?_eq_getElem bound, Option.toList_some, List.foldl_append,
    List.getElem_finRange]
  rfl

theorem partialCount_toNat : (partialCount limits adc2Buffer i.val).toNat =
    ((List.finRange adcBufferSize).take i.val).countP (counted limits adc2Buffer) := by
  have bound := i.isLt
  rw [partialCount, foldl_count, UInt8.toNat_zero, Nat.zero_add]
  rw [List.length_take, List.length_finRange, UInt8.toNat_zero]
  unfold adcBufferSize at *
  omega

/-- A count that is not over is complete if and only if no sample of the rest counts. -/
theorem partialCount_eq_iff : partialCount limits adc2Buffer i.val = countZero limits adc2Buffer ↔
    ∀ j, i ≤ j → counted limits adc2Buffer j = false := by
  have split : (List.finRange adcBufferSize).countP (counted limits adc2Buffer) =
      ((List.finRange adcBufferSize).take i.val).countP (counted limits adc2Buffer) +
        ((List.finRange adcBufferSize).drop i.val).countP (counted limits adc2Buffer) := by
    rw [← List.countP_append, List.take_append_drop]
  have later : ∀ j : Fin adcBufferSize, j ∈ (List.finRange adcBufferSize).drop i.val ↔ i ≤ j := by
    intro j
    rw [List.mem_drop_iff_getElem]
    constructor
    · rintro ⟨k, bound, rfl⟩
      rw [List.getElem_finRange]
      exact Nat.le_add_right i.val k
    · intro le
      refine ⟨j.val - i.val, ?_, ?_⟩
      · rw [List.length_finRange]
        omega
      · rw [List.getElem_finRange]
        exact Fin.ext (Nat.add_sub_of_le le)
  rw [← UInt8.toNat_inj, countZero_toNat, partialCount_toNat, split, Nat.left_eq_add, List.countP_eq_zero]
  simp only [later, Bool.not_eq_true]

end Count

/-! ## Tasks that nothing cuts off -/

/-- A call that nothing cuts off is `lcr_info_judge`. -/
theorem call_alone (limits : Limits) {s : InformState} (idle : s.lcr = .idle) (C : ℚ) :
    ∃ n entries, (informMachine limits).exec s (.call C :: List.replicate n .lcr) =
        some (entries, { s with plate := (lcrInfoJudge s.plate C).1 }) ∧
      entries.flatMap Entry.output = (lcrInfoJudge s.plate C).2 := by
  obtain ⟨p, lcr, bd⟩ := s
  obtain rfl : lcr = .idle := idle
  let published := { p.sendInfo with cap := p.reading C }
  let assigned := { judge p C with sendInfo := published }
  have compare : (informMachine limits).step ⟨assigned, .compare, bd⟩ .lcr =
      some (⟨assigned, if p.preNegState ≠ (judge p C).negState then .assignPreNegState else .idle, bd⟩, []) := rfl
  by_cases changed : p.preNegState ≠ (judge p C).negState
  · let info := { published with negState := (judge p C).negState }
    have whole : lcrInfoJudge p C = ({ judge p C with preNegState := (judge p C).negState, sendInfo := info },
        [informInfoSend info]) := if_pos changed
    rw [if_pos changed] at compare
    rw [whole]
    exact ⟨5, _, Machine.exec_cons rfl (Machine.exec_cons rfl (Machine.exec_cons compare (Machine.exec_cons rfl
      (Machine.exec_cons rfl (Machine.exec_cons rfl rfl))))), rfl⟩
  · have whole : lcrInfoJudge p C = (assigned, []) := if_neg changed
    rw [if_neg changed] at compare
    rw [whole]
    exact ⟨2, _, Machine.exec_cons rfl (Machine.exec_cons rfl (Machine.exec_cons compare rfl)), rfl⟩

theorem sample_step (limits : Limits) (s : InformState) (adc2Buffer : Window) (i : Fin adcBufferSize) :
    (informMachine limits).step
        { s with plate := putZerocount s.plate (partialCount limits adc2Buffer i.val), bd := .counting adc2Buffer i }
        .sample =
      some ({ s with
        plate := putZerocount s.plate (partialCount limits adc2Buffer (i.val + 1))
        bd := nextSample adc2Buffer i }, []) := by
  rw [partialCount_next]
  rfl

theorem samples_alone (limits : Limits) (s : InformState) (adc2Buffer : Window) (n : ℕ) (i : Fin adcBufferSize)
    (rest : i.val + n + 1 = adcBufferSize) :
    ∃ entries, (informMachine limits).exec
        { s with plate := putZerocount s.plate (partialCount limits adc2Buffer i.val), bd := .counting adc2Buffer i }
        (List.replicate (n + 1) .sample) =
      some (entries, { s with plate := putZerocount s.plate (countZero limits adc2Buffer), bd := .waiting }) := by
  have stepped := sample_step limits s adc2Buffer i
  induction n generalizing i with
  | zero =>
    have all : partialCount limits adc2Buffer (i.val + 1) = countZero limits adc2Buffer := by
      rw [show i.val + 1 = adcBufferSize from rest, partialCount_all]
    rw [nextSample, dif_neg (by omega), all] at stepped
    exact ⟨_, Machine.exec_cons stepped rfl⟩
  | succ n ih =>
    have more : i.val + 1 < adcBufferSize := by omega
    obtain ⟨entries, done⟩ := ih ⟨i.val + 1, more⟩ (by dsimp only; omega) (sample_step ..)
    rw [nextSample, dif_pos more] at stepped
    exact ⟨_, Machine.exec_cons stepped done⟩

/-- A count that nothing cuts off is the count of the window. -/
theorem window_alone (limits : Limits) {s : InformState} (waiting : s.bd = .waiting) (adc2Buffer : Window) :
    ∃ entries, (informMachine limits).exec s (.window adc2Buffer :: List.replicate adcBufferSize .sample) =
      some (entries, { s with plate := putZerocount s.plate (countZero limits adc2Buffer) }) := by
  obtain ⟨plate, lcr, bd⟩ := s
  obtain rfl : bd = .waiting := waiting
  obtain ⟨entries, done⟩ := samples_alone limits ⟨plate, lcr, .waiting⟩ adc2Buffer 31 0 rfl
  exact ⟨_, Machine.exec_cons rfl done⟩

/-! ## What `g_send_info` holds -/

def BubbleTracks (limits : Limits) (last : Option Window) (s : InformState) : Prop :=
  match s.bd with
  | .waiting => s.plate.sendInfo.bubbleSensorZerocount = completeCount limits last
  | .counting adc2Buffer i =>
    last = some adc2Buffer ∧ s.plate.sendInfo.bubbleSensorZerocount = partialCount limits adc2Buffer i.val

def PlateTracks (last : NegptState × UInt32) (s : InformState) : Prop :=
  let info := s.plate.sendInfo
  match s.lcr with
  | .idle | .send =>
    s.plate.negState = info.negState ∧ s.plate.preNegState = info.negState ∧ last = (info.negState, info.cap)
  | .assignCap _ => s.plate.preNegState = info.negState ∧ last = (info.negState, info.cap)
  | .compare | .assignPreNegState =>
    s.plate.preNegState = info.negState ∧ last = (s.plate.negState, info.cap)
  | .assignNegState => s.plate.preNegState = s.plate.negState ∧ last = (s.plate.negState, info.cap)

/-- All that can happen in one step. -/
inductive InformSteps (limits : Limits) : InformEntry → Prop where
  | call {s : InformState} {C : ℚ} : s.lcr = .idle →
      InformSteps limits
        ⟨s, .call C, { s with plate := judge s.plate C, lcr := .assignCap (s.plate.reading C) }, []⟩
  | lcr {s : InformState} {plate : LcrTask} {location : LcrLocation} {output : List RtCanMsg} :
      lcrStep s.plate s.lcr = some (plate, location, output) →
      InformSteps limits ⟨s, .lcr, { s with plate := plate, lcr := location }, output⟩
  | window {s : InformState} {adc2Buffer : Window} : s.bd = .waiting →
      InformSteps limits
        ⟨s, .window adc2Buffer, { s with plate := putZerocount s.plate 0, bd := .counting adc2Buffer 0 }, []⟩
  | sample {s : InformState} {adc2Buffer : Window} {i : Fin adcBufferSize} : s.bd = .counting adc2Buffer i →
      InformSteps limits
        ⟨s, .sample,
          { s with
            plate := putZerocount s.plate
              (if counted limits adc2Buffer i then s.plate.sendInfo.bubbleSensorZerocount + 1
              else s.plate.sendInfo.bubbleSensorZerocount)
            bd := nextSample adc2Buffer i }, []⟩
  | timer {s : InformState} : InformSteps limits ⟨s, .timer, s, [informInfoSend s.plate.sendInfo]⟩

section Steps

variable {limits : Limits} {entry : InformEntry} {pair : NegptState × UInt32} {window : Option Window}

theorem informMachine_steps (taken : (informMachine limits).Takes entry) : InformSteps limits entry := by
  obtain ⟨before, input, after, output⟩ := entry
  change informStep limits before input = some (after, output) at taken
  cases input with
  | call C =>
    simp only [informStep] at taken
    split at taken
    · next idle =>
      obtain ⟨rfl, rfl⟩ := Prod.mk.inj (Option.some.inj taken)
      exact .call idle
    · cases taken
  | lcr =>
    obtain ⟨⟨plate, location, sent⟩, stepped, same⟩ := Option.map_eq_some_iff.mp taken
    obtain ⟨rfl, rfl⟩ := Prod.mk.inj same
    exact .lcr stepped
  | window adc2Buffer =>
    simp only [informStep] at taken
    split at taken
    · next waiting =>
      obtain ⟨rfl, rfl⟩ := Prod.mk.inj (Option.some.inj taken)
      exact .window waiting
    · cases taken
  | sample =>
    simp only [informStep] at taken
    split at taken
    · cases taken
    · next counting =>
      obtain ⟨rfl, rfl⟩ := Prod.mk.inj (Option.some.inj taken)
      exact .sample counting
  | timer =>
    obtain ⟨rfl, rfl⟩ := Prod.mk.inj (Option.some.inj taken)
    exact .timer

theorem lcrStep_zerocount {p q : LcrTask} {location next : LcrLocation} {output : List RtCanMsg}
    (stepped : lcrStep p location = some (q, next, output)) :
    q.sendInfo.bubbleSensorZerocount = p.sendInfo.bubbleSensorZerocount := by
  cases location with
  | idle => cases stepped
  | _ =>
    obtain ⟨rfl, _⟩ := Prod.mk.inj (Option.some.inj stepped)
    rfl

theorem BubbleTracks.step (tracks : BubbleTracks limits window entry.before) (steps : InformSteps limits entry) :
    BubbleTracks limits (latestWindow window entry) entry.after := by
  cases steps with
  | call => exact tracks
  | @lcr s plate location output stepped =>
    show BubbleTracks limits window { s with plate := plate, lcr := location }
    unfold BubbleTracks at *
    rwa [lcrStep_zerocount stepped]
  | window => exact ⟨rfl, rfl⟩
  | @sample s adc2Buffer i counting =>
    rw [BubbleTracks, counting] at tracks
    obtain ⟨last, count⟩ := tracks
    rw [count, ← partialCount_next]
    show BubbleTracks limits window { s with plate := putZerocount s.plate _, bd := nextSample adc2Buffer i }
    by_cases more : i.val + 1 < adcBufferSize
    · rw [nextSample, dif_pos more]
      exact ⟨last, rfl⟩
    · -- the last sample has been visited
      have all : i.val + 1 = adcBufferSize := Nat.le_antisymm i.isLt (Nat.not_lt.mp more)
      rw [nextSample, dif_neg more, all, partialCount_all, last]
      rfl
  | timer => exact tracks

theorem PlateTracks.step (tracks : PlateTracks pair entry.before) (steps : InformSteps limits entry) :
    PlateTracks (latestPair pair entry) entry.after := by
  cases steps with
  | call idle =>
    rw [PlateTracks, idle] at tracks
    exact tracks.2
  | @lcr s plate location output stepped =>
    obtain ⟨p, l, bd⟩ := s
    cases l with
    | idle => cases stepped
    | assignCap cap =>
      cases stepped
      exact ⟨tracks.1, rfl⟩
    | compare =>
      obtain ⟨pre, last⟩ := tracks
      by_cases changed : p.preNegState ≠ p.negState
      · simp only [lcrStep, if_pos changed] at stepped
        cases stepped
        exact ⟨pre, last⟩
      · simp only [lcrStep, if_neg changed] at stepped
        cases stepped
        have same := (not_not.mp changed).symm.trans pre
        exact ⟨same, pre, last.trans (congrArg (·, _) same)⟩
    | assignPreNegState =>
      cases stepped
      exact ⟨rfl, tracks.2⟩
    | assignNegState =>
      cases stepped
      exact ⟨rfl, tracks⟩
    | send =>
      cases stepped
      exact tracks
  | window => exact tracks
  | sample => exact tracks
  | timer => exact tracks

theorem BubbleTracks.count_iff {s : InformState} (tracks : BubbleTracks limits window s) :
    s.plate.sendInfo.bubbleSensorZerocount = completeCount limits window ↔ s.bd.Complete limits := by
  unfold BubbleTracks at tracks
  split at tracks
  · next waiting => simp [tracks, waiting, BdLocation.Complete]
  · next adc2Buffer i counting =>
    obtain ⟨rfl, count⟩ := tracks
    rw [count, counting]
    exact partialCount_eq_iff limits adc2Buffer i

theorem PlateTracks.pair_iff {s : InformState} (tracks : PlateTracks pair s) :
    pair.2 = s.plate.sendInfo.cap ∧ (s.plate.sendInfo.negState = pair.1 ↔
      (s.lcr = .compare ∨ s.lcr = .assignPreNegState ∨ s.lcr = .assignNegState →
        s.plate.sendInfo.negState = s.plate.negState)) := by
  obtain ⟨plate, lcr, bd⟩ := s
  cases lcr with
  | idle =>
    obtain ⟨_, _, rfl⟩ := tracks
    simp
  | assignCap cap =>
    obtain ⟨_, rfl⟩ := tracks
    simp
  | compare =>
    obtain ⟨_, rfl⟩ := tracks
    simp
  | assignPreNegState =>
    obtain ⟨_, rfl⟩ := tracks
    simp
  | assignNegState =>
    obtain ⟨_, rfl⟩ := tracks
    simp
  | send =>
    obtain ⟨_, _, rfl⟩ := tracks
    simp

theorem monitorBoardInformInfo_inj {negState negState' : NegptState} {zerocount zerocount' : UInt8} {cap : UInt32} :
    monitorBoardInformInfo negState.code zerocount cap = monitorBoardInformInfo negState'.code zerocount' cap ↔
      negState = negState' ∧ zerocount = zerocount' := by
  constructor
  · intro same
    have code : negState.code = negState'.code := congrArg (fun msg => msg.data.get 0) same
    have count : zerocount = zerocount' := congrArg (fun msg => msg.data.get 1) same
    refine ⟨?_, count⟩
    cases negState <;> cases negState' <;> first | rfl | exact absurd code (by decide)
  · rintro ⟨rfl, rfl⟩
    rfl

/-- The frame that is built shows what is meant if and only if no task is in the middle of a change. -/
theorem whole_iff {s : InformState} (bubble : BubbleTracks limits window s) (plate : PlateTracks pair s) :
    informInfoSend s.plate.sendInfo =
        monitorBoardInformInfo pair.1.code (completeCount limits window) pair.2 ↔ Whole limits s := by
  obtain ⟨cap, negState⟩ := plate.pair_iff
  rw [informInfoSend, cap, monitorBoardInformInfo_inj, negState, bubble.count_iff]
  exact and_comm

theorem snapshot_iff {history : List InformEntry} (bubble : BubbleTracks limits (lastWindow history) entry.before)
    (plate : PlateTracks (lastPair history) entry.before) (steps : InformSteps limits entry) :
    Snapshot limits history entry ↔ (Sends entry → Whole limits entry.before) := by
  have whole := whole_iff bubble plate
  cases steps with
  | call => simp [Snapshot, Sends]
  | @lcr s plate location output stepped =>
    obtain ⟨p, l, bd⟩ := s
    cases l with
    | idle => cases stepped
    | send =>
      cases stepped
      simpa [Snapshot, Sends] using whole
    | _ =>
      cases stepped
      simp [Snapshot, Sends]
  | window => simp [Snapshot, Sends]
  | sample => simp [Snapshot, Sends]
  | timer => simpa [Snapshot, Sends] using whole

end Steps

/-- Every inform frame is a snapshot if and only if none is built in the middle of a change. -/
theorem inform_snapshot_iff {limits : Limits} {filter : MedianFilter ℚ} {entries : List InformEntry}
    {state : InformState} (run : (informMachine limits).Run (.start filter) entries state) :
    Along (Snapshot limits) entries ↔ ∀ entry ∈ entries, Sends entry → Whole limits entry.before := by
  rw [← Along.forall_iff]
  refine run.along_congr fun pre entry before taken => ?_
  have tracks : BubbleTracks limits (lastWindow pre) entry.before ∧ PlateTracks (lastPair pre) entry.before :=
    before.history
      (fun history s => BubbleTracks limits (lastWindow history) s ∧ PlateTracks (lastPair history) s)
      ⟨rfl, rfl, rfl, rfl⟩ fun history last _ taken tracks => by
        have steps := informMachine_steps taken
        rw [lastWindow, lastPair, List.foldl_append, List.foldl_append]
        exact ⟨tracks.1.step steps, tracks.2.step steps⟩
  exact snapshot_iff tracks.1 tracks.2 (informMachine_steps taken)

/-- The limits before any shell command. -/
def bdLimits : Limits := ⟨1800, 4000⟩

theorem inform_snapshot_after_call :
    ∃ entries state, (informMachine bdLimits).exec (.start clearedFilter)
        ([.window (.replicate _ 0)] ++ List.replicate 32 .sample ++ [.call 80] ++ List.replicate 5 .lcr ++ [.timer]) =
        some (entries, state) ∧ Along (Snapshot bdLimits) entries := by
  have checked : ((informMachine bdLimits).exec (.start clearedFilter)
      ([.window (.replicate _ 0)] ++ List.replicate 32 .sample ++ [.call 80] ++ List.replicate 5 .lcr ++
        [.timer])).map (fun done => decide (∀ entry ∈ done.1, Sends entry → Whole bdLimits entry.before)) =
      some true := by decide +kernel
  obtain ⟨⟨entries, state⟩, done, whole⟩ := Option.map_eq_some_iff.mp checked
  exact ⟨entries, state, done, (inform_snapshot_iff (Machine.exec_run done)).mpr (of_decide_eq_true whole)⟩

theorem inform_torn :
    ∃ entries state, (informMachine bdLimits).exec (.start clearedFilter)
        ([.window (.replicate _ 0)] ++ List.replicate 5 .sample ++ [.timer, .call 80, .lcr, .timer]) =
        some (entries, state) ∧
      entries.flatMap Entry.output =
        [monitorBoardInformInfo NegptState.disconnect.code 5 0,
          monitorBoardInformInfo NegptState.disconnect.code 5 80000] ∧
      ¬Along (Snapshot bdLimits) entries := by
  have checked : ((informMachine bdLimits).exec (.start clearedFilter)
      ([.window (.replicate _ 0)] ++ List.replicate 5 .sample ++ [.timer, .call 80, .lcr, .timer])).map
      (fun done => decide (done.1.flatMap Entry.output =
        [monitorBoardInformInfo NegptState.disconnect.code 5 0,
          monitorBoardInformInfo NegptState.disconnect.code 5 80000] ∧
        ¬Along (Snapshot bdLimits) done.1)) = some true := by decide +kernel
  obtain ⟨⟨entries, state⟩, done, torn⟩ := Option.map_eq_some_iff.mp checked
  exact ⟨entries, state, done, of_decide_eq_true torn⟩

end DetectBoard.Inform
