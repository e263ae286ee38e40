import DetectBoard.Can.Dispatch
import DetectBoard.Strip

/-! The RGB task of `WS2812B.c`, which applies the colours that the CAN receive thread leaves in
`MSG_MAIN_RGB_INFO`.

The receive thread has the higher priority and does not block while it handles
a frame, so a frame comes as one step between any two steps of the task.
-/

set_option autoImplicit false

namespace DetectBoard

open Library Flash Can

/-! ## The task and the commands -/

/-- Where `RGB_change_task` is in its loop. C leaves the order open in which the three arguments of
`WS2812B_SetColor` are read. -/
inductive RgbLocation where
  | top
  | clear
  | drive
  | readRed
  | readGreen
  | readBlue
  | setColor
  | update
  deriving DecidableEq, Repr

structure RgbState where
  board : Board
  location : RgbLocation
  red : UInt8
  green : UInt8
  blue : UInt8
  pwmBuffer : Memory UInt16
  /-- The level of `DLPS_Pin`, high after `MX_GPIO_Init`. -/
  dlps : Bool
  /-- The cycles that were last sent to the strip. -/
  strip : Option (List UInt16)

def RgbState.start (flash : Memory UInt8) : RgbState :=
  ⟨Board.boot flash, .top, 0, 0, 0, fun _ => 0, true, none⟩

/-- One step of the loop of `RGB_change_task`. -/
def rgbChangeTask (s : RgbState) : RgbState :=
  match s.location with
  | .top => if s.board.rgbChangeFlag = 1 ∧ s.board.otaStartFlag = 0 then { s with location := .clear } else s
  | .clear => { s with board := { s.board with rgbChangeFlag := 0 }, location := .drive }
  | .drive => { s with dlps := !s.board.mainRgbInfo.rgbSwitch, location := .readRed }
  | .readRed => { s with red := s.board.mainRgbInfo.red, location := .readGreen }
  | .readGreen => { s with green := s.board.mainRgbInfo.green, location := .readBlue }
  | .readBlue => { s with blue := s.board.mainRgbInfo.blue, location := .setColor }
  | .setColor =>
    { s with
      pwmBuffer := WS2812B.setColor WS2812B.ledNum s.red s.green s.blue s.pwmBuffer
      location := .update }
  | .update =>
    { s with
      strip := some (s.pwmBuffer.cells 0 (WS2812B.ledNum.toNat * 24 + WS2812B.resetCycles))
      location := .top }

inductive RgbEvent where
  | task
  | board (event : Event)

/-- A restart starts the task anew. Until then it may run whatever becomes of the receive thread,
which waits for two seconds before it resets the processor. -/
def rgbStep (table : List FalPartition) (s : RgbState) : RgbEvent → Option (RgbState × List Action)
  | .task => some (rgbChangeTask s, [])
  | .board .boot => some (.start s.board.flash, [])
  | .board event => (boardStep table s.board event).map fun done => ({ s with board := done.1 }, done.2)

def rgbMachine (table : List FalPartition) : Machine RgbState RgbEvent (List Action) := ⟨rgbStep table⟩

abbrev RgbEntry := Entry RgbState RgbEvent (List Action)

/-- The frame is an RGB command or a board switch command. -/
def RgbCommand (otaStartFlag : UInt8) (msg : RtCanMsg) : Prop :=
  request otaStartFlag msg = .rgbSwitch ∨ request otaStartFlag msg = .boardSwitch

instance (otaStartFlag : UInt8) (msg : RtCanMsg) : Decidable (RgbCommand otaStartFlag msg) :=
  inferInstanceAs (Decidable (_ ∨ _))

def latestCommand (last : Option MainRgbInfo) (entry : RgbEntry) : Option MainRgbInfo :=
  match entry.input with
  | .board (.frame _ msg) =>
    if RgbCommand entry.before.board.otaStartFlag msg then some entry.after.board.mainRgbInfo else last
  | .board .boot => none
  | _ => last

/-- `MSG_MAIN_RGB_INFO` after the latest command since the restart. -/
def lastCommand (history : List RgbEntry) : Option MainRgbInfo := history.foldl latestCommand none

@[simp] theorem lastCommand_snoc (history : List RgbEntry) (entry : RgbEntry) :
    lastCommand (history ++ [entry]) = latestCommand (lastCommand history) entry := by
  simp [lastCommand]

/-! ## What a step does -/

section Handle

variable {table : List FalPartition} {chip : FlashChip} {recData : Vector UInt8 8} {frameId : UInt16}
  {b : Board} {result : Board × List Action}

theorem StartOutcome.rgb (outcome : StartOutcome table chip recData b result) :
    result.1.rgbChangeFlag = b.rgbChangeFlag ∧ result.1.mainRgbInfo = b.mainRgbInfo := by
  cases outcome <;> exact ⟨rfl, rfl⟩

theorem DataOutcome.rgb (outcome : DataOutcome chip frameId recData b result) :
    result.1.rgbChangeFlag = b.rgbChangeFlag ∧ result.1.mainRgbInfo = b.mainRgbInfo := by
  cases outcome <;> exact ⟨rfl, rfl⟩

theorem canRxHandle_command {msg : RtCanMsg} (command : RgbCommand b.otaStartFlag msg) :
    (canRxHandle table chip msg b).1.rgbChangeFlag = 1 := by
  rcases command with asked | asked
  · rw [canRxHandle, asked]
  · rw [canRxHandle, asked]
    dsimp only
    split <;> rfl

theorem canRxHandle_noCommand {msg : RtCanMsg} (other : ¬RgbCommand b.otaStartFlag msg) :
    (canRxHandle table chip msg b).1.rgbChangeFlag = b.rgbChangeFlag ∧
      (canRxHandle table chip msg b).1.mainRgbInfo = b.mainRgbInfo := by
  unfold canRxHandle
  cases asked : request b.otaStartFlag msg with
  | heartbeat => exact ⟨rfl, rfl⟩
  | rfSwitch => exact ⟨rfl, rfl⟩
  | rgbSwitch => exact absurd (.inl asked) other
  | otaAsk => exact (mainboardOtaStartRequest_outcome table chip msg.data b).rgb
  | boardSwitch => exact absurd (.inr asked) other
  | otaData => exact (mainboardOtaDataRequest_outcome chip msg.frameId msg.data b).rgb
  | ignored => exact ⟨rfl, rfl⟩

end Handle

/-- All that can happen in one step. -/
inductive RgbSteps : RgbEntry → Prop where
  | task {s : RgbState} : RgbSteps ⟨s, .task, rgbChangeTask s, []⟩
  | boot {s : RgbState} : RgbSteps ⟨s, .board .boot, .start s.board.flash, []⟩
  | command {s : RgbState} {b : Board} {chip : FlashChip} {msg : RtCanMsg} {actions : List Action} :
      RgbCommand s.board.otaStartFlag msg → b.rgbChangeFlag = 1 →
      RgbSteps ⟨s, .board (.frame chip msg), { s with board := b }, actions⟩
  | other {s : RgbState} {b : Board} {event : Event} {actions : List Action} : event ≠ .boot →
      (∀ chip msg, event = .frame chip msg → ¬RgbCommand s.board.otaStartFlag msg) →
      b.rgbChangeFlag = s.board.rgbChangeFlag → b.mainRgbInfo = s.board.mainRgbInfo →
      RgbSteps ⟨s, .board event, { s with board := b }, actions⟩

theorem rgbMachine_steps {table : List FalPartition} {entry : RgbEntry} (taken : (rgbMachine table).Takes entry) :
    RgbSteps entry := by
  obtain ⟨before, input, after, output⟩ := entry
  change rgbStep table before input = some (after, output) at taken
  cases input with
  | task =>
    obtain ⟨rfl, rfl⟩ := Prod.mk.inj (Option.some.inj taken)
    exact .task
  | board event =>
    cases event with
    | boot =>
      obtain ⟨rfl, rfl⟩ := Prod.mk.inj (Option.some.inj taken)
      exact .boot
    | otaTimerTimeout =>
      obtain ⟨⟨b, actions⟩, stepped, same⟩ := Option.map_eq_some_iff.mp taken
      obtain ⟨rfl, rfl⟩ := Prod.mk.inj same
      rw [boardStep, Option.ite_none_right_eq_some] at stepped
      obtain ⟨rfl, rfl⟩ := Prod.mk.inj (Option.some.inj stepped.2)
      exact .other (by simp) (by simp) rfl rfl
    | frame chip msg =>
      obtain ⟨⟨b, actions⟩, stepped, same⟩ := Option.map_eq_some_iff.mp taken
      obtain ⟨rfl, rfl⟩ := Prod.mk.inj same
      rw [boardStep, Option.ite_none_right_eq_some] at stepped
      have handled := congrArg Prod.fst (Option.some.inj stepped.2)
      dsimp only at handled
      subst handled
      by_cases command : RgbCommand before.board.otaStartFlag msg
      · exact .command command (canRxHandle_command command)
      · refine .other (by simp) (fun _ _ same => ?_) (canRxHandle_noCommand command).1 (canRxHandle_noCommand command).2
        obtain ⟨_, rfl⟩ := Event.frame.inj same
        exact command

/-- What the steps of the task that are over have left, when no command has come in since the flag
was cleared. -/
def Applied (s : RgbState) : Prop :=
  let info := s.board.mainRgbInfo
  let driven := s.dlps = !info.rgbSwitch
  match s.location with
  | .clear => False
  | .drive => True
  | .readRed => driven
  | .readGreen => driven ∧ s.red = info.red
  | .readBlue => driven ∧ s.red = info.red ∧ s.green = info.green
  | .setColor => driven ∧ s.red = info.red ∧ s.green = info.green ∧ s.blue = info.blue
  | .update =>
    driven ∧ s.pwmBuffer.cells 0 (WS2812B.ledNum.toNat * 24 + WS2812B.resetCycles) =
      WS2812B.stripCycles info.red info.green info.blue
  | .top => driven ∧ s.strip = some (WS2812B.stripCycles info.red info.green info.blue)

theorem Applied.congr {s : RgbState} {b : Board} (applied : Applied s)
    (info : b.mainRgbInfo = s.board.mainRgbInfo) : Applied { s with board := b } := by
  unfold Applied at *
  rwa [info]

theorem rgbChangeTask_applied {s : RgbState} (applied : s.board.rgbChangeFlag = 0 → Applied s) :
    (rgbChangeTask s).board.mainRgbInfo = s.board.mainRgbInfo ∧
      ((rgbChangeTask s).board.rgbChangeFlag = 0 → Applied (rgbChangeTask s)) := by
  obtain ⟨board, location, red, green, blue, pwmBuffer, dlps, strip⟩ := s
  cases location with
  | top =>
    simp only [rgbChangeTask]
    split
    · next pending =>
      refine ⟨rfl, fun clear => ?_⟩
      rw [pending.1] at clear
      exact absurd clear (by decide)
    · exact ⟨rfl, applied⟩
  | clear => exact ⟨rfl, fun _ => trivial⟩
  | drive => exact ⟨rfl, fun _ => rfl⟩
  | readRed => exact ⟨rfl, fun clear => ⟨applied clear, rfl⟩⟩
  | readGreen =>
    refine ⟨rfl, fun clear => ?_⟩
    obtain ⟨driven, red⟩ := applied clear
    exact ⟨driven, red, rfl⟩
  | readBlue =>
    refine ⟨rfl, fun clear => ?_⟩
    obtain ⟨driven, red, green⟩ := applied clear
    exact ⟨driven, red, green, rfl⟩
  | setColor =>
    refine ⟨rfl, fun clear => ?_⟩
    obtain ⟨driven, red, green, blue⟩ := applied clear
    dsimp only at red green blue
    subst red green blue
    exact ⟨driven, WS2812B.setColor_cells ..⟩
  | update =>
    refine ⟨rfl, fun clear => ?_⟩
    obtain ⟨driven, cells⟩ := applied clear
    exact ⟨driven, congrArg some cells⟩

/-! ## No command is lost -/

/-- Before the first command nothing is driven. After it the receive thread holds its colour, and
the task is about to apply it or has applied it. -/
def Settling (last : Option MainRgbInfo) (s : RgbState) : Prop :=
  match last with
  | none => s.location = .top ∧ s.board.rgbChangeFlag = 0 ∧ s.dlps = true ∧ s.strip = none
  | some info => s.board.mainRgbInfo = info ∧ (s.board.rgbChangeFlag = 0 → Applied s)

section Settling

variable {last : Option MainRgbInfo} {s : RgbState}

theorem Settling.task (settling : Settling last s) : Settling last (rgbChangeTask s) := by
  cases last with
  | none =>
    obtain ⟨top, clear, driven⟩ := settling
    have stays : rgbChangeTask s = s := by
      rw [rgbChangeTask, top]
      exact if_neg fun pending => absurd (clear.symm.trans pending.1) (by decide)
    rw [stays]
    exact ⟨top, clear, driven⟩
  | some info =>
    obtain ⟨same, applied⟩ := rgbChangeTask_applied settling.2
    exact ⟨same.trans settling.1, applied⟩

theorem Settling.keep {b : Board} (settling : Settling last s) (flag : b.rgbChangeFlag = s.board.rgbChangeFlag)
    (info : b.mainRgbInfo = s.board.mainRgbInfo) : Settling last { s with board := b } := by
  cases last with
  | none =>
    obtain ⟨top, clear, driven⟩ := settling
    exact ⟨top, flag.trans clear, driven⟩
  | some command => exact ⟨info.trans settling.1, fun clear => (settling.2 (flag.symm.trans clear)).congr info⟩

theorem Settling.step {entry : RgbEntry} (settling : Settling last entry.before) (steps : RgbSteps entry) :
    Settling (latestCommand last entry) entry.after := by
  cases steps with
  | task => exact settling.task
  | boot => exact ⟨rfl, rfl, rfl, rfl⟩
  | @command s b chip msg actions command flag =>
    have latest : latestCommand last ⟨s, .board (.frame chip msg), { s with board := b }, actions⟩ =
      some b.mainRgbInfo := if_pos command
    rw [latest]
    refine ⟨rfl, fun clear => ?_⟩
    exact absurd (flag.symm.trans clear) (by decide)
  | @other s b event actions notBoot notCommand flag info =>
    have latest : latestCommand last ⟨s, .board event, { s with board := b }, actions⟩ = last := by
      cases event with
      | boot => exact absurd rfl notBoot
      | otaTimerTimeout => rfl
      | frame chip msg => exact if_neg (notCommand chip msg rfl)
    rw [latest]
    exact settling.keep flag info

end Settling

/-- No command is lost: when the task has nothing to do, the level and the colour are those of the
latest command. -/
theorem rgb_settled {table : List FalPartition} {flash : Memory UInt8} {entries : List RgbEntry} {state : RgbState}
    (run : (rgbMachine table).Run (.start flash) entries state) (top : state.location = .top)
    (quiet : state.board.rgbChangeFlag = 0) :
    match lastCommand entries with
    | none => state.dlps = true ∧ state.strip = none
    | some info => state.dlps = !info.rgbSwitch ∧
        state.strip = some (WS2812B.stripCycles info.red info.green info.blue) := by
  have settling : Settling (lastCommand entries) state :=
    run.history (fun history s => Settling (lastCommand history) s) ⟨rfl, rfl, rfl, rfl⟩ fun _ _ _ taken before => by
      rw [lastCommand_snoc]
      exact before.step (rgbMachine_steps taken)
  cases latest : lastCommand entries with
  | none =>
    rw [latest] at settling
    exact settling.2.2
  | some info =>
    rw [latest] at settling
    obtain ⟨rfl, applied⟩ := settling
    have applied := applied quiet
    rw [Applied, top] at applied
    exact applied

def rgbFrame (data : Vector UInt8 8) : RtCanMsg :=
  extendedFrame (canIdGen canIdentyMainBorad canIdentyMonitorBorad canIdMainRgbSwitchControlInfo) 8 data

theorem rgb_settled_twice :
    ∃ entries state, (rgbMachine falPartTable).exec (.start fun _ => 0xFF)
        (.board (.frame .ideal (rgbFrame #v[1, 1, 2, 3, 0, 0, 0, 0])) :: List.replicate 5 .task ++
          .board (.frame .ideal (rgbFrame #v[0, 4, 5, 6, 0, 0, 0, 0])) :: List.replicate 11 .task) =
        some (entries, state) ∧
      state.dlps = true ∧ state.strip = some (WS2812B.stripCycles 4 5 6) := by
  -- the second command comes between the reads of the red and the green value of the first
  refine ⟨_, _, rfl, ?_⟩
  have done : (rgbMachine falPartTable).exec (.start fun _ => 0xFF)
      (.board (.frame .ideal (rgbFrame #v[1, 1, 2, 3, 0, 0, 0, 0])) :: List.replicate 5 .task ++
        .board (.frame .ideal (rgbFrame #v[0, 4, 5, 6, 0, 0, 0, 0])) :: List.replicate 11 .task) =
      some (_, _) := rfl
  exact rgb_settled (Machine.exec_run done) rfl rfl

end DetectBoard
