import DetectBoard.Bubble.Delivery
import DetectBoard.Can.Dispatch
import DetectBoard.Can.Reception
import DetectBoard.Inform

/-! The whole board: the receive interrupt, the threads of the CAN bus, of the plate and of the bubble
sensor, and the two timers, in any order.

A step of a thread is what nothing can cut off without being seen. The flash is
written when a frame is handled, and the board restarts between two steps.
`can_rx_thread` may have handled frames before `can_tx_thread` starts.
-/

set_option autoImplicit false

namespace DetectBoard.System

open Library Flash Can Bubble Inform

/-- Where `lcr_task_thread` is in its loop. -/
inductive LcrLoop where
  | top
  | measuring
  | judging
  deriving DecidableEq, Repr

/-- Where `BD_thread_entry` is in its loop. -/
inductive BdLoop where
  | top
  | first
  | counting
  | second
  | deciding
  deriving DecidableEq, Repr

/-- What `can_rx_thread` does while it handles a frame. -/
inductive Duty where
  | action (action : Action)
  | stopInformTimer
  | setOtaStartFlag
  deriving DecidableEq, Repr

/-- What follows `mainboard_ota_start_request` in `can_rx_thread`. -/
def suspension : Request → List Duty
  | .otaAsk => [.stopInformTimer, .setOtaStartFlag]
  | _ => []

structure Node where
  rx : Reception
  /-- What the handled frames amount to; the tasks see a start request only when its duties are done. -/
  board : Board
  /-- What `can_rx_thread` still has to do for the frame that it handles. -/
  acting : List Duty
  /-- Whether `can_tx_thread` has started. -/
  txStarted : Bool
  /-- Whether `can_inform_timer` runs. -/
  informTimer : Bool
  /-- `ota_start_flag` as the tasks read it. -/
  otaStartFlag : UInt8
  inform : InformState
  lcrLoop : LcrLoop
  bdLoop : BdLoop
  link : AlarmLink
  /-- Whether the processor runs. -/
  up : Bool

def Node.start (filter : Plate.MedianFilter ℚ) (flash : Memory UInt8) : Node :=
  ⟨.opened, .boot flash, [], false, false, 0, .start filter, .top, .top, .start, true⟩

inductive NodeEvent where
  | interrupt (frame : RxMsg)
  /-- A step of `can_rx_thread`; the chip is how the flash behaves meanwhile. -/
  | rxThread (chip : FlashChip)
  /-- `can_rx_thread` goes on with the frame that it handles. -/
  | act
  | otaTimer
  | informTimer
  | lcrTop
  | lcrCall (C : ℚ)
  | lcr
  | bdTop
  | bdWindow (adc2Buffer : Window)
  | bdSample
  | bdCompare
  | bdCommit
  /-- `can_tx_thread` starts, and starts the inform timer. -/
  | txStart
  /-- A step of `can_tx_thread`. -/
  | recv
  | write (size : ℕ)
  | boot

inductive NodeReport where
  | rx (report : RxReport)
  /-- `rt_mq_send` is called with this frame. -/
  | offered (msg : RtCanMsg)
  | bus (msg : RtCanMsg)
  deriving DecidableEq, Repr

namespace Node

variable (n : Node)

/-- The frames go to `can_tx_mq`, and no sender looks at the result. Each call is one step here; while a receiver has
a block in hand, the queue of the kernel refuses at one frame less. -/
def send (msgs : List RtCanMsg) : Node := { n with link.canTxMq := msgs.foldl rtMqSend n.link.canTxMq }

/-- A task has changed what it informs about. -/
def publish (done : InformState × List RtCanMsg) : Node × List NodeReport :=
  ({ n.send done.2 with inform := done.1 }, done.2.map .offered)

def rxStep (table : List FalPartition) (chip : FlashChip) : Option (Node × List NodeReport) :=
  if n.board.status = .running ∧ n.acting = [] then
    (canRxThread n.rx).map fun done =>
      match n.rx.location with
      | .handle frame =>
        let handled := canRxHandle table chip frame.msg n.board
        ({ n with
            rx := done.1
            board := handled.1
            acting := handled.2.map .action ++ suspension (request n.board.otaStartFlag frame.msg) },
          done.2.map .rx)
      | _ => ({ n with rx := done.1 }, done.2.map .rx)
  else none

def actStep : Option (Node × List NodeReport) :=
  match n.acting with
  | [] => none
  | .stopInformTimer :: rest => some ({ n with acting := rest, informTimer := false }, [])
  | .setOtaStartFlag :: rest => some ({ n with acting := rest, otaStartFlag := 1 }, [])
  | .action (.mqSend msg) :: rest => some ({ n.send [msg] with acting := rest }, [.offered msg])
  | .action .mqReset :: rest => some ({ n with acting := rest, link.canTxMq := .empty }, [])
  | .action .cpuReset :: rest => some ({ n with acting := rest, up := false }, [])
  -- the flash was written when the frame was handled
  | .action _ :: rest => some ({ n with acting := rest }, [])

def lcrStep (limits : Limits) (event : InformEvent) : Option (Node × List NodeReport) :=
  (informStep limits n.inform event).map fun done =>
    { n with lcrLoop := if done.1.lcr = LcrLocation.idle then .top else .judging }.publish done

def bdStep (limits : Limits) (event : InformEvent) : Option (Node × List NodeReport) :=
  (informStep limits n.inform event).map fun done =>
    { n with bdLoop := if done.1.bd = BdLocation.waiting then .second else .counting }.publish done

def compareStep : Option (Node × List NodeReport) :=
  let zerocount := n.inform.plate.sendInfo.bubbleSensorZerocount
  (linkStep n.link (.compare zerocount)).map fun done =>
    ({ n with link := done.1, bdLoop := if done.1.deciding = none then .top else .deciding },
      ((bdDecision zerocount n.link.bdErrorSendflag).map fun flag => NodeReport.offered (generateError flag bdError)).toList)

end Node

def runStep (table : List FalPartition) (limits : Limits) (n : Node) : NodeEvent → Option (Node × List NodeReport)
  | .interrupt frame =>
    let done := rtHwCanIsr frame n.rx
    some ({ n with rx := done.1 }, done.2.map .rx)
  | .rxThread chip => n.rxStep table chip
  | .act => n.actStep
  | .otaTimer =>
    if n.board.otaTimer then
      some ({ n with
        board := if n.board.status = .reset then n.board else { n.board with otaTimer := false, status := .reset }
        up := false }, [])
    else none
  | .informTimer =>
    if n.informTimer then (informStep limits n.inform .timer).map n.publish else none
  | .lcrTop =>
    if n.lcrLoop = .top then
      some ({ n with
        lcrLoop := if n.board.boardSwitchFlag = 0 ∧ n.otaStartFlag = 0 then .measuring else .top }, [])
    else none
  | .lcrCall C => if n.lcrLoop = .measuring then n.lcrStep limits (.call C) else none
  | .lcr => if n.lcrLoop = .judging then n.lcrStep limits .lcr else none
  | .bdTop =>
    if n.bdLoop = .top then some ({ n with bdLoop := if n.otaStartFlag = 0 then .first else .top }, []) else none
  | .bdWindow adc2Buffer => if n.bdLoop = .first then n.bdStep limits (.window adc2Buffer) else none
  | .bdSample => if n.bdLoop = .counting then n.bdStep limits .sample else none
  | .bdCompare => if n.bdLoop = .second then n.compareStep else none
  | .bdCommit =>
    if n.bdLoop = .deciding then
      (linkStep n.link .commit).map fun done => ({ n with link := done.1, bdLoop := .top }, [])
    else none
  | .txStart => if n.txStarted then none else some ({ n with txStarted := true, informTimer := true }, [])
  | .recv => if n.txStarted then (linkStep n.link .recv).map fun done => ({ n with link := done.1 }, []) else none
  | .write size => (linkStep n.link (.write size)).map fun done => ({ n with link := done.1 }, done.2.map .bus)
  | .boot => none

def nodeStep (table : List FalPartition) (limits : Limits) (filter : Plate.MedianFilter ℚ) (n : Node) :
    NodeEvent → Option (Node × List NodeReport)
  | .boot => some (Node.start filter n.board.flash, [])
  | event => if n.up then runStep table limits n event else none

def nodeMachine (table : List FalPartition) (limits : Limits) (filter : Plate.MedianFilter ℚ) :
    Machine Node NodeEvent (List NodeReport) := ⟨nodeStep table limits filter⟩

abbrev NodeEntry := Entry Node NodeEvent (List NodeReport)

/-! ## All that a step can do -/

section Steps

variable (table : List FalPartition) (limits : Limits) (filter : Plate.MedianFilter ℚ)

inductive NodeSteps (n : Node) : NodeEvent → Node → List NodeReport → Prop where
  | boots : NodeSteps n .boot (Node.start filter n.board.flash) []
  | interrupts (frame : RxMsg) :
      NodeSteps n (.interrupt frame) { n with rx := (rtHwCanIsr frame n.rx).1 } ((rtHwCanIsr frame n.rx).2.map .rx)
  | reads {chip : FlashChip} {rx : Reception} {reports : List RxReport} (running : n.board.status = .running)
      (free : n.acting = []) (elsewhere : ∀ frame, n.rx.location ≠ .handle frame)
      (read : canRxThread n.rx = some (rx, reports)) :
      NodeSteps n (.rxThread chip) { n with rx } (reports.map .rx)
  | handles {chip : FlashChip} {frame : RxMsg} (running : n.board.status = .running) (free : n.acting = [])
      (here : n.rx.location = .handle frame) :
      NodeSteps n (.rxThread chip)
        { n with
          rx := { n.rx with location := .read }
          board := (canRxHandle table chip frame.msg n.board).1
          acting := (canRxHandle table chip frame.msg n.board).2.map .action ++
            suspension (request n.board.otaStartFlag frame.msg) }
        [.rx (.handled frame)]
  | stops {rest : List Duty} (acting : n.acting = .stopInformTimer :: rest) :
      NodeSteps n .act { n with acting := rest, informTimer := false } []
  | flags {rest : List Duty} (acting : n.acting = .setOtaStartFlag :: rest) :
      NodeSteps n .act { n with acting := rest, otaStartFlag := 1 } []
  | sends {msg : RtCanMsg} {rest : List Duty} (acting : n.acting = .action (.mqSend msg) :: rest) :
      NodeSteps n .act { n.send [msg] with acting := rest } [.offered msg]
  | empties {rest : List Duty} (acting : n.acting = .action .mqReset :: rest) :
      NodeSteps n .act { n with acting := rest, link.canTxMq := .empty } []
  | restarts {rest : List Duty} (acting : n.acting = .action .cpuReset :: rest) :
      NodeSteps n .act { n with acting := rest, up := false } []
  | passes {action : Action} {rest : List Duty} (acting : n.acting = .action action :: rest)
      (silent : ∀ msg, action ≠ .mqSend msg) : NodeSteps n .act { n with acting := rest } []
  | timesOut (armed : n.board.otaTimer = true) :
      NodeSteps n .otaTimer
        { n with
          board := if n.board.status = .reset then n.board else { n.board with otaTimer := false, status := .reset }
          up := false } []
  | informs (armed : n.informTimer = true) :
      NodeSteps n .informTimer (n.send [informInfoSend n.inform.plate.sendInfo])
        [.offered (informInfoSend n.inform.plate.sendInfo)]
  | passesGate (top : n.lcrLoop = .top) (switch : n.board.boardSwitchFlag = 0) (ota : n.otaStartFlag = 0) :
      NodeSteps n .lcrTop { n with lcrLoop := .measuring } []
  | staysOut (top : n.lcrLoop = .top) : NodeSteps n .lcrTop { n with lcrLoop := .top } []
  | calls {C : ℚ} {inform : InformState} {msgs : List RtCanMsg} (measuring : n.lcrLoop = .measuring)
      (called : informStep limits n.inform (.call C) = some (inform, msgs)) :
      NodeSteps n (.lcrCall C)
        { n.send msgs with lcrLoop := if inform.lcr = .idle then .top else .judging, inform } (msgs.map .offered)
  | judges {inform : InformState} {msgs : List RtCanMsg} (judging : n.lcrLoop = .judging)
      (judged : informStep limits n.inform .lcr = some (inform, msgs)) :
      NodeSteps n .lcr
        { n.send msgs with lcrLoop := if inform.lcr = .idle then .top else .judging, inform } (msgs.map .offered)
  | passesBdGate (top : n.bdLoop = .top) (ota : n.otaStartFlag = 0) :
      NodeSteps n .bdTop { n with bdLoop := .first } []
  | staysBdOut (top : n.bdLoop = .top) : NodeSteps n .bdTop { n with bdLoop := .top } []
  | clears {adc2Buffer : Window} {inform : InformState} {msgs : List RtCanMsg} (first : n.bdLoop = .first)
      (cleared : informStep limits n.inform (.window adc2Buffer) = some (inform, msgs)) :
      NodeSteps n (.bdWindow adc2Buffer)
        { n.send msgs with bdLoop := if inform.bd = .waiting then .second else .counting, inform } (msgs.map .offered)
  | counts {inform : InformState} {msgs : List RtCanMsg} (counting : n.bdLoop = .counting)
      (counted : informStep limits n.inform .sample = some (inform, msgs)) :
      NodeSteps n .bdSample
        { n.send msgs with bdLoop := if inform.bd = .waiting then .second else .counting, inform } (msgs.map .offered)
  | compares {link : AlarmLink} {frames : List RtCanMsg} (second : n.bdLoop = .second)
      (compared : linkStep n.link (.compare n.inform.plate.sendInfo.bubbleSensorZerocount) = some (link, frames)) :
      NodeSteps n .bdCompare { n with link, bdLoop := if link.deciding = none then .top else .deciding }
        (((bdDecision n.inform.plate.sendInfo.bubbleSensorZerocount n.link.bdErrorSendflag).map fun flag =>
          NodeReport.offered (generateError flag bdError)).toList)
  | commits {link : AlarmLink} {frames : List RtCanMsg} (deciding : n.bdLoop = .deciding)
      (committed : linkStep n.link .commit = some (link, frames)) :
      NodeSteps n .bdCommit { n with link, bdLoop := .top } []
  | starts (first : n.txStarted = false) : NodeSteps n .txStart { n with txStarted := true, informTimer := true } []
  | takes {link : AlarmLink} {frames : List RtCanMsg} (started : n.txStarted = true)
      (taken : linkStep n.link .recv = some (link, frames)) : NodeSteps n .recv { n with link } []
  | writes {size : ℕ} {link : AlarmLink} {frames : List RtCanMsg}
      (written : linkStep n.link (.write size) = some (link, frames)) :
      NodeSteps n (.write size) { n with link } (frames.map .bus)

variable {table limits filter} {n n' : Node} {event : NodeEvent} {reports : List NodeReport}

theorem rxStep_steps {chip : FlashChip} (taken : n.rxStep table chip = some (n', reports)) :
    NodeSteps table limits filter n (.rxThread chip) n' reports := by
  unfold Node.rxStep at taken
  split at taken
  · next able =>
    obtain ⟨⟨rx, seen⟩, read, same⟩ := Option.map_eq_some_iff.mp taken
    split at same
    · next frame here =>
      rw [canRxThread, here] at read
      cases read
      cases same
      exact .handles able.1 able.2 here
    · next elsewhere =>
      cases same
      exact .reads able.1 able.2 elsewhere read
  · cases taken

theorem actStep_steps (taken : n.actStep = some (n', reports)) : NodeSteps table limits filter n .act n' reports := by
  unfold Node.actStep at taken
  split at taken
  · cases taken
  · next acting =>
    cases taken
    exact .stops acting
  · next acting =>
    cases taken
    exact .flags acting
  · next acting =>
    cases taken
    exact .sends acting
  · next acting =>
    cases taken
    exact .empties acting
  · next acting =>
    cases taken
    exact .restarts acting
  · next action rest silent _ _ acting =>
    cases taken
    exact .passes acting silent

theorem runStep_steps (taken : runStep table limits n event = some (n', reports)) :
    NodeSteps table limits filter n event n' reports := by
  cases event with
  | interrupt frame =>
    cases taken
    exact .interrupts frame
  | rxThread chip => exact rxStep_steps taken
  | act => exact actStep_steps taken
  | otaTimer =>
    simp only [runStep] at taken
    split at taken <;> cases taken
    next armed => exact .timesOut armed
  | informTimer =>
    simp only [runStep, informStep] at taken
    split at taken <;> cases taken
    next armed => exact .informs armed
  | lcrTop =>
    simp only [runStep] at taken
    split at taken
    · next top =>
      cases taken
      split
      · next gate => exact .passesGate top gate.1 gate.2
      · exact .staysOut top
    · cases taken
  | lcrCall C =>
    simp only [runStep] at taken
    split at taken
    · next measuring =>
      obtain ⟨⟨inform, msgs⟩, called, same⟩ := Option.map_eq_some_iff.mp taken
      cases same
      exact .calls measuring called
    · cases taken
  | lcr =>
    simp only [runStep] at taken
    split at taken
    · next judging =>
      obtain ⟨⟨inform, msgs⟩, judged, same⟩ := Option.map_eq_some_iff.mp taken
      cases same
      exact .judges judging judged
    · cases taken
  | bdTop =>
    simp only [runStep] at taken
    split at taken
    · next top =>
      cases taken
      split
      · next gate => exact .passesBdGate top gate
      · exact .staysBdOut top
    · cases taken
  | bdWindow adc2Buffer =>
    simp only [runStep] at taken
    split at taken
    · next first =>
      obtain ⟨⟨inform, msgs⟩, counted, same⟩ := Option.map_eq_some_iff.mp taken
      cases same
      exact .clears first counted
    · cases taken
  | bdSample =>
    simp only [runStep] at taken
    split at taken
    · next counting =>
      obtain ⟨⟨inform, msgs⟩, counted, same⟩ := Option.map_eq_some_iff.mp taken
      cases same
      exact .counts counting counted
    · cases taken
  | bdCompare =>
    simp only [runStep] at taken
    split at taken
    · next second =>
      obtain ⟨⟨link, frames⟩, compared, same⟩ := Option.map_eq_some_iff.mp taken
      cases same
      exact .compares second compared
    · cases taken
  | bdCommit =>
    simp only [runStep] at taken
    split at taken
    · next deciding =>
      obtain ⟨⟨link, frames⟩, committed, same⟩ := Option.map_eq_some_iff.mp taken
      cases same
      exact .commits deciding committed
    · cases taken
  | txStart =>
    simp only [runStep] at taken
    split at taken
    · cases taken
    · next first =>
      cases taken
      exact .starts (Bool.eq_false_iff.mpr first)
  | recv =>
    simp only [runStep] at taken
    split at taken
    · next started =>
      obtain ⟨⟨link, frames⟩, received, same⟩ := Option.map_eq_some_iff.mp taken
      cases same
      exact .takes started received
    · cases taken
  | write size =>
    obtain ⟨⟨link, frames⟩, written, same⟩ := Option.map_eq_some_iff.mp taken
    cases same
    exact .writes written
  | boot => cases taken

theorem nodeMachine_steps {entry : NodeEntry} (taken : (nodeMachine table limits filter).Takes entry) :
    NodeSteps table limits filter entry.before entry.input entry.after entry.output := by
  obtain ⟨n, event, n', reports⟩ := entry
  have step : nodeStep table limits filter n event = some (n', reports) := taken
  unfold nodeStep at step
  split at step
  · cases step
    exact .boots
  · split at step
    · exact runStep_steps step
    · cases step

end Steps

end DetectBoard.System
