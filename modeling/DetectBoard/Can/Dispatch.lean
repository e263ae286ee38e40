import DetectBoard.Library.Machine
import DetectBoard.Ota.Handle

/-! The frame handling of `can_rx_thread` in `can.c`, and the board as a machine
that handles one frame after the other.

Console output is left out. The board restarts between two frames.
-/

set_option autoImplicit false

namespace DetectBoard

open Library Flash Can

/-- What the receive thread makes of a frame. -/
inductive Request where
  | heartbeat
  | rfSwitch
  | rgbSwitch
  | otaAsk
  | boardSwitch
  | otaData
  | ignored
  deriving DecidableEq, Repr

def request (otaStartFlag : UInt8) (msg : RtCanMsg) : Request :=
  if msg.source = canIdentyMainBorad then
    if msg.messageClass = 0 then
      if msg.register = canIdMainBoardHeartbeatInfo then .heartbeat
      else if msg.register = canIdMainRfSwitchControlInfo then .rfSwitch
      else if msg.register = canIdMainRgbSwitchControlInfo then .rgbSwitch
      else if msg.register = canIdMainOtaAskInfo then .otaAsk
      else if msg.register = canIdMainBoardSwitchControlInfo then .boardSwitch
      else .ignored
    else if otaStartFlag = 1 ∧ msg.messageClass = 1 then .otaData
    else .ignored
  else .ignored

/-- The body of the receive loop once a frame has been read. -/
def canRxHandle (table : List FalPartition) (chip : FlashChip) (msg : RtCanMsg) (b : Board) :
    Board × List Action :=
  match request b.otaStartFlag msg with
  | .heartbeat =>
    ({ b with mainHeart := ⟨msg.data.get 0, (msg.data.get 2).toUInt16 <<< 8 + (msg.data.get 3).toUInt16⟩ }, [])
  | .rfSwitch =>
    ({ b with mainRfInfo := ⟨msg.data.get 0 != 0, msg.data.get 1, msg.data.get 2, msg.data.get 3⟩ },
      if msg.data.get 0 != 0 then [.mqReset] else [])
  | .rgbSwitch =>
    ({ b with
        rgbChangeFlag := 1
        mainRgbInfo := ⟨msg.data.get 0 != 0, msg.data.get 1, msg.data.get 2, msg.data.get 3⟩ }, [])
  | .otaAsk =>
    let started := mainboardOtaStartRequest table chip msg.data b
    ({ started.1 with canInformTimer := false, otaStartFlag := 1 }, started.2)
  | .boardSwitch =>
    let flag := (1 : UInt8) - msg.data.get 0
    let switched := { b with
      boardSwitchFlag := flag
      rgbChangeFlag := 1
      mainRgbInfo := { b.mainRgbInfo with rgbSwitch := flag != 0 } }
    if msg.data.get 0 = 1 then
      ({ switched with mainRgbInfo := ⟨flag != 0, 0, 0, 255⟩ }, [.mqSend monitorBoardHandshake])
    else (switched, [])
  | .otaData => mainboardOtaDataRequest chip msg.frameId 8 msg.data b
  | .ignored => (b, [])

/-- What happens to the board. The chip is how the flash behaves while the frame is handled. -/
inductive Event where
  | frame (chip : FlashChip) (msg : RtCanMsg)
  | otaTimerTimeout
  | boot

def boardStep (table : List FalPartition) (b : Board) : Event → Option (Board × List Action)
  | .frame chip msg => if b.status = .running then some (canRxHandle table chip msg b) else none
  | .otaTimerTimeout =>
    if b.otaTimer = true ∧ b.status ≠ .reset then
      some ({ b with otaTimer := false, status := .reset }, [.cpuReset])
    else none
  | .boot => some (Board.boot b.flash, [])

def boardMachine (table : List FalPartition) : Machine Board Event (List Action) := ⟨boardStep table⟩

abbrev BoardEntry := Entry Board Event (List Action)

def frameEntry (table : List FalPartition) (chip : FlashChip) (msg : RtCanMsg) (b : Board) : BoardEntry :=
  ⟨b, .frame chip msg, (canRxHandle table chip msg b).1, (canRxHandle table chip msg b).2⟩

theorem frameEntry_takes (table : List FalPartition) (chip : FlashChip) (msg : RtCanMsg) {b : Board}
    (running : b.status = .running) : (boardMachine table).Takes (frameEntry table chip msg b) :=
  if_pos running

def StartRequest (entry : BoardEntry) (chip : FlashChip) (msg : RtCanMsg) : Prop :=
  entry.input = .frame chip msg ∧ request entry.before.otaStartFlag msg = .otaAsk

def DataRequest (entry : BoardEntry) (chip : FlashChip) (msg : RtCanMsg) : Prop :=
  entry.input = .frame chip msg ∧ request entry.before.otaStartFlag msg = .otaData

theorem request_otaData {otaStartFlag : UInt8} {msg : RtCanMsg}
    (data : request otaStartFlag msg = .otaData) : otaStartFlag = 1 := by
  unfold request at data
  split at data
  · split at data
    · repeat' split at data
      all_goals cases data
    · split at data
      · next both => exact both.1
      · cases data
  · cases data

/-! ## The steps of the machine -/

/-- The parts of the board that only the OTA requests, the timer and a restart change. -/
structure SameSession (b b' : Board) : Prop where
  ota : b'.ota = b.ota
  otaTimer : b'.otaTimer = b.otaTimer
  otaStartFlag : b'.otaStartFlag = b.otaStartFlag
  flash : b'.flash = b.flash
  status : b'.status = b.status

/-- Actions that neither reply to an OTA request nor reach the flash. -/
def Unrelated (actions : List Action) : Prop :=
  ∀ action ∈ actions, action = .mqReset ∨ action = .mqSend monitorBoardHandshake

/-- All that the machine can do in one step. -/
inductive BoardSteps (table : List FalPartition) : BoardEntry → Prop where
  | start {b : Board} {chip : FlashChip} {msg : RtCanMsg} {result : Board × List Action} :
      b.status = .running → request b.otaStartFlag msg = .otaAsk →
      StartOutcome table chip msg.data b result →
      BoardSteps table
        ⟨b, .frame chip msg, { result.1 with canInformTimer := false, otaStartFlag := 1 }, result.2⟩
  | data {b : Board} {chip : FlashChip} {msg : RtCanMsg} {result : Board × List Action} :
      b.status = .running → request b.otaStartFlag msg = .otaData →
      DataOutcome chip msg.frameId msg.data b result →
      BoardSteps table ⟨b, .frame chip msg, result.1, result.2⟩
  | other {b b' : Board} {chip : FlashChip} {msg : RtCanMsg} {actions : List Action} :
      b.status = .running → request b.otaStartFlag msg ≠ .otaAsk →
      request b.otaStartFlag msg ≠ .otaData → SameSession b b' → Unrelated actions →
      BoardSteps table ⟨b, .frame chip msg, b', actions⟩
  | timeout {b : Board} : b.otaTimer = true → b.status ≠ .reset →
      BoardSteps table
        ⟨b, .otaTimerTimeout, { b with otaTimer := false, status := .reset }, [.cpuReset]⟩
  | boot {b : Board} : BoardSteps table ⟨b, .boot, Board.boot b.flash, []⟩

theorem canRxHandle_steps (table : List FalPartition) (chip : FlashChip) (msg : RtCanMsg) (b : Board)
    (running : b.status = .running) :
    BoardSteps table
      ⟨b, .frame chip msg, (canRxHandle table chip msg b).1, (canRxHandle table chip msg b).2⟩ := by
  unfold canRxHandle
  cases asked : request b.otaStartFlag msg with
  | otaAsk => exact .start running asked (mainboardOtaStartRequest_outcome table chip msg.data b)
  | otaData => exact .data running asked (mainboardOtaDataRequest_outcome chip msg.frameId msg.data b)
  | heartbeat =>
    exact .other running (by simp [asked]) (by simp [asked]) ⟨rfl, rfl, rfl, rfl, rfl⟩ (by simp [Unrelated])
  | rfSwitch =>
    refine .other running (by simp [asked]) (by simp [asked]) ⟨rfl, rfl, rfl, rfl, rfl⟩ ?_
    dsimp only
    split <;> simp [Unrelated]
  | rgbSwitch =>
    exact .other running (by simp [asked]) (by simp [asked]) ⟨rfl, rfl, rfl, rfl, rfl⟩ (by simp [Unrelated])
  | boardSwitch =>
    dsimp only
    split
    · exact .other running (by simp [asked]) (by simp [asked]) ⟨rfl, rfl, rfl, rfl, rfl⟩
        (by simp [Unrelated])
    · exact .other running (by simp [asked]) (by simp [asked]) ⟨rfl, rfl, rfl, rfl, rfl⟩
        (by simp [Unrelated])
  | ignored =>
    exact .other running (by simp [asked]) (by simp [asked]) ⟨rfl, rfl, rfl, rfl, rfl⟩ (by simp [Unrelated])

/-- The step inversion that every invariant of the board goes through. -/
theorem boardMachine_steps {table : List FalPartition} {entry : BoardEntry}
    (taken : (boardMachine table).Takes entry) : BoardSteps table entry := by
  obtain ⟨before, input, after, output⟩ := entry
  change boardStep table before input = some (after, output) at taken
  cases input with
  | frame chip msg =>
    rw [boardStep] at taken
    split at taken
    · next running =>
      have handled := canRxHandle_steps table chip msg before running
      rw [Option.some.inj taken] at handled
      exact handled
    · cases taken
  | otaTimerTimeout =>
    rw [boardStep] at taken
    split at taken
    · next armed =>
      obtain ⟨rfl, rfl⟩ := Prod.mk.inj (Option.some.inj taken)
      exact .timeout armed.1 armed.2
    · cases taken
  | boot =>
    obtain ⟨rfl, rfl⟩ := Prod.mk.inj (Option.some.inj taken)
    exact .boot

theorem DataRequest.outcome {table : List FalPartition} {entry : BoardEntry} {chip : FlashChip}
    {msg : RtCanMsg} (given : DataRequest entry chip msg) (taken : (boardMachine table).Takes entry) :
    DataOutcome chip msg.frameId msg.data entry.before (entry.after, entry.output) := by
  cases boardMachine_steps taken with
  | data _ _ outcome =>
    cases given.1
    exact outcome
  | start _ asked => exact absurd (asked.symm.trans (by cases given.1; exact given.2)) (by decide)
  | other _ _ notData => exact absurd (by cases given.1; exact given.2) notData
  | timeout => cases given.1
  | boot => cases given.1

namespace Unrelated

variable {actions : List Action}

theorem no_write (unrelated : Unrelated actions) (part : Option FalPartition) (addr : UInt32)
    (buf : List UInt8) : .partitionWrite part addr buf ∉ actions := fun member => by
  simpa using unrelated _ member

theorem no_end (unrelated : Unrelated actions) (otaOk : UInt8) :
    .mqSend (otaEndReply otaOk) ∉ actions := fun member => by
  have differ : (otaEndReply otaOk).id ≠ monitorBoardHandshake.id := by
    have : canIdGenByReg canIdHandtoolOtaEndReply ≠
      canIdGenByReg canIdMonitorBoardHandshakeInfo := by decide
    exact this
  rcases unrelated _ member with same | same
  · cases same
  · exact differ (by rw [Action.mqSend.inj same])

end Unrelated

end DetectBoard
