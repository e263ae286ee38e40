import DetectBoard.Library.Machine
import DetectBoard.Can.Message

/-! How received frames reach `can_rx_thread`: the receive interrupt of `can.c`
in the driver framework, the semaphore that counts what is to be read, and the
thread that reads.

The interrupt runs as a whole between two steps of the thread. No filter header
is ever connected, so the lists of the headers stay empty.
-/

set_option autoImplicit false

namespace DetectBoard.Can

open Library

/-- A frame with the filter header that `_can_recvmsg` gives it. -/
structure RxMsg where
  msg : RtCanMsg
  hdr : Nat
  deriving DecidableEq, Repr

inductive RxLocation where
  | register
  | setHdr
  | take
  | suspended
  | read
  -- the node of the frame is in neither list
  | copy (frame : RxMsg)
  | handle (frame : RxMsg)
  deriving DecidableEq, Repr

structure Reception where
  rxIndicate : Bool
  uselist : List RxMsg
  freenumbers : Nat
  semValue : Nat
  location : RxLocation
  hdr : Int
  deriving DecidableEq, Repr

def msgboxsz : Nat := 16
def rtSemValueMax : Nat := 65535

/-- Once `rt_device_open` has enabled reception. -/
def Reception.opened : Reception := ⟨false, [], msgboxsz, 0, .register, 0⟩

inductive RxReport where
  | received (frame : RxMsg)
  | dropped (frame : RxMsg)
  | handled (frame : RxMsg)
  deriving DecidableEq, Repr

/-- `rt_sem_release` of `rx_sem`, which is all that `can_rx_call` does. -/
def canRxCall (r : Reception) : Reception :=
  if r.location = .suspended then { r with location := .read }
  else if r.semValue < rtSemValueMax then { r with semValue := r.semValue + 1 }
  else r

/-- The first half of the receive interrupt: a free node, or else the oldest one in use. -/
def insertFrame (frame : RxMsg) (r : Reception) : Reception × List RxReport :=
  if 0 < r.freenumbers then
    ({ r with uselist := r.uselist ++ [frame], freenumbers := r.freenumbers - 1 }, [.received frame])
  else match r.uselist with
    | oldest :: rest => ({ r with uselist := rest ++ [frame] }, [.received frame, .dropped oldest])
    | [] => (r, [.received frame, .dropped frame])

/-- `rt_hw_can_isr` for `RT_CAN_EVENT_RX_IND` -/
def rtHwCanIsr (frame : RxMsg) (r : Reception) : Reception × List RxReport :=
  let inserted := insertFrame frame r
  if inserted.1.rxIndicate = true ∧ inserted.1.uselist ≠ [] then
    (canRxCall inserted.1, inserted.2)
  else inserted

/-- One step of `can_rx_thread`, which has none while it is suspended. -/
def canRxThread (r : Reception) : Option (Reception × List RxReport) :=
  match r.location with
  | .register => some ({ r with rxIndicate := true, location := .setHdr }, [])
  | .setHdr => some ({ r with hdr := -1, location := .take }, [])
  | .take =>
    if 0 < r.semValue then some ({ r with semValue := r.semValue - 1, location := .read }, [])
    else some ({ r with location := .suspended }, [])
  | .suspended => none
  | .read =>
    -- with another header than -1 the read finds no frame
    if r.hdr = -1 then
      match r.uselist with
      | oldest :: rest => some ({ r with uselist := rest, location := .copy oldest }, [])
      | [] => some ({ r with location := .setHdr }, [])
    else some ({ r with location := .setHdr }, [])
  | .copy frame =>
    -- the frame overwrites `rxmsg`, its header included
    some ({ r with hdr := frame.hdr, freenumbers := r.freenumbers + 1, location := .handle frame }, [])
  | .handle frame => some ({ r with location := .read }, [.handled frame])

inductive RxEvent where
  | interrupt (frame : RxMsg)
  | thread
  deriving DecidableEq, Repr

def rxStep (r : Reception) : RxEvent → Option (Reception × List RxReport)
  | .interrupt frame => some (rtHwCanIsr frame r)
  | .thread => canRxThread r

def rxMachine : Machine Reception RxEvent (List RxReport) := ⟨rxStep⟩

abbrev RxEntry := Entry Reception RxEvent (List RxReport)

def InTime (entry : RxEntry) : Prop := entry.input = .thread ∨ entry.before.rxIndicate = true

instance (entry : RxEntry) : Decidable (InTime entry) := inferInstanceAs (Decidable (_ ∨ _))

/-- All that a step of the thread can do. -/
inductive RxThreadSteps (r : Reception) : Reception → List RxReport → Prop where
  | registers (here : r.location = .register) :
      RxThreadSteps r { r with rxIndicate := true, location := .setHdr } []
  | setsHdr (here : r.location = .setHdr) : RxThreadSteps r { r with hdr := -1, location := .take } []
  | takes (here : r.location = .take) (token : 0 < r.semValue) :
      RxThreadSteps r { r with semValue := r.semValue - 1, location := .read } []
  | suspends (here : r.location = .take) (empty : r.semValue = 0) :
      RxThreadSteps r { r with location := .suspended } []
  | reads {oldest : RxMsg} {rest : List RxMsg} (here : r.location = .read) (unset : r.hdr = -1)
      (used : r.uselist = oldest :: rest) :
      RxThreadSteps r { r with uselist := rest, location := .copy oldest } []
  | ends (here : r.location = .read) (nothing : r.hdr = -1 → r.uselist = []) :
      RxThreadSteps r { r with location := .setHdr } []
  | copies {frame : RxMsg} (here : r.location = .copy frame) :
      RxThreadSteps r
        { r with hdr := frame.hdr, freenumbers := r.freenumbers + 1, location := .handle frame } []
  | handles {frame : RxMsg} (here : r.location = .handle frame) :
      RxThreadSteps r { r with location := .read } [.handled frame]

theorem canRxThread_steps {r r' : Reception} {reports : List RxReport}
    (taken : canRxThread r = some (r', reports)) : RxThreadSteps r r' reports := by
  unfold canRxThread at taken
  cases here : r.location with
  | register =>
    rw [here] at taken
    cases taken
    exact .registers here
  | setHdr =>
    rw [here] at taken
    cases taken
    exact .setsHdr here
  | take =>
    rw [here] at taken
    dsimp only at taken
    split at taken
    · next token =>
      cases taken
      exact .takes here token
    · next empty =>
      cases taken
      exact .suspends here (Nat.eq_zero_of_not_pos empty)
  | suspended =>
    rw [here] at taken
    cases taken
  | read =>
    rw [here] at taken
    dsimp only at taken
    split at taken
    · next unset =>
      split at taken
      · next used =>
        cases taken
        exact .reads here unset used
      · next empty =>
        cases taken
        exact .ends here fun _ => empty
    · next set =>
      cases taken
      exact .ends here fun unset => absurd unset set
  | copy frame =>
    rw [here] at taken
    cases taken
    exact .copies here
  | handle frame =>
    rw [here] at taken
    cases taken
    exact .handles here

/-! ## What the reception keeps -/

def RxLocation.detached : RxLocation → Nat
  | .copy _ => 1
  | _ => 0

def RxLocation.held : RxLocation → List RxMsg
  | .copy frame | .handle frame => [frame]
  | _ => []

/-- The frame that the thread is about to read on a token it has taken. -/
def Reception.credit (r : Reception) : Nat :=
  if r.location = .read ∧ r.hdr = -1 then 1 else 0

/-- Every frame in use is paid for by a token, but for those that came early. -/
structure Reception.Drains (early : Nat) (r : Reception) : Prop where
  nodes : r.uselist.length + r.freenumbers + r.location.detached = msgboxsz
  header : r.location = .take ∨ r.location = .suspended → r.hdr = -1
  idle : r.location = .suspended → r.semValue = 0
  paid : r.uselist.length ≤ r.semValue + r.credit + early

theorem opened_drains : Reception.opened.Drains 0 where
  nodes := rfl
  header := by decide
  idle := by decide
  paid := by decide

namespace Reception

variable {r r' : Reception} {early : Nat} {reports : List RxReport}

theorem insertFrame_eq (frame : RxMsg)
    (nodes : r.uselist.length + r.freenumbers + r.location.detached = msgboxsz) :
    ∃ uselist freenumbers, (insertFrame frame r).1 = { r with uselist, freenumbers } ∧ uselist ≠ [] ∧
      uselist.length + freenumbers = r.uselist.length + r.freenumbers ∧
      uselist.length ≤ r.uselist.length + 1 := by
  unfold insertFrame
  split
  · next free => exact ⟨_, _, rfl, by simp, by simp; omega, by simp⟩
  · next full =>
    split
    · next oldest rest used => exact ⟨_, _, rfl, by simp, by simp [used], by simp [used]⟩
    · next empty =>
      have : r.location.detached ≤ 1 := by unfold RxLocation.detached; split <;> omega
      simp only [empty, List.length_nil, msgboxsz] at nodes
      omega

theorem Drains.interrupt (drains : r.Drains early) (registered : r.rxIndicate = true) (frame : RxMsg) :
    (rtHwCanIsr frame r).1.Drains early := by
  -- a frame that arrives once the callback is registered brings its own token
  obtain ⟨uselist, free, inserted, queued, nodes, grown⟩ := insertFrame_eq frame drains.nodes
  have before := drains.nodes
  have paid := drains.paid
  unfold rtHwCanIsr
  simp only [inserted, registered, queued, ne_eq, not_false_eq_true, and_self, if_true]
  unfold canRxCall
  split
  · next waiting =>
    have header := drains.header (.inr waiting)
    have idle := drains.idle waiting
    change r.location = .suspended at waiting
    have uncredited : r.credit = 0 := by simp [credit, waiting]
    rw [waiting] at before
    constructor
    · simp only [RxLocation.detached] at before ⊢
      omega
    · simp
    · simp
    · simp only [credit, header, and_self, if_true]
      omega
  · next awake =>
    split
    · next room =>
      exact ⟨by simpa [nodes] using before, drains.header, fun waiting => absurd waiting awake, by
        simp only [credit] at paid ⊢; omega⟩
    · next full =>
      refine ⟨by simpa [nodes] using before, drains.header, fun waiting => absurd waiting awake, ?_⟩
      simp only [rtSemValueMax, msgboxsz] at *
      omega

theorem Drains.unregistered (drains : r.Drains early) (unregistered : r.rxIndicate = false) (frame : RxMsg) :
    (rtHwCanIsr frame r).1.Drains (early + 1) := by
  -- a frame that arrives earlier brings none
  obtain ⟨uselist, free, inserted, _, nodes, grown⟩ := insertFrame_eq frame drains.nodes
  have before := drains.nodes
  have paid := drains.paid
  unfold rtHwCanIsr
  simp only [inserted, unregistered, Bool.false_eq_true, false_and, if_false]
  refine ⟨by simpa [nodes] using before, drains.header, drains.idle, ?_⟩
  simp only [credit] at paid ⊢
  omega

theorem Drains.thread (drains : r.Drains early) (taken : canRxThread r = some (r', reports)) :
    r'.Drains early := by
  obtain ⟨nodes, header, idle, paid⟩ := drains
  unfold credit at paid
  cases canRxThread_steps taken with
  | registers here =>
    rw [here] at nodes paid
    exact ⟨nodes, by simp, by simp, paid⟩
  | setsHdr here =>
    rw [here] at nodes paid
    exact ⟨nodes, by simp, by simp, paid⟩
  | takes here token =>
    -- the token is taken for the frame that will be read
    have unset := header (.inl here)
    rw [here] at nodes paid
    refine ⟨nodes, by simp, by simp, ?_⟩
    simp only [credit, unset, reduceCtorEq, false_and, if_false, and_self, if_true] at paid ⊢
    omega
  | suspends here none =>
    have unset := header (.inl here)
    rw [here] at nodes paid
    exact ⟨nodes, fun _ => unset, fun _ => none, by simpa [credit] using paid⟩
  | reads here unset used =>
    rw [here, used] at nodes paid
    refine ⟨?_, by simp, by simp, ?_⟩
    · simp only [RxLocation.detached, List.length_cons] at nodes ⊢
      omega
    · simp only [credit, unset, List.length_cons, and_self, if_true, reduceCtorEq, false_and,
        if_false] at paid ⊢
      omega
  | ends here nothing =>
    rw [here] at nodes paid
    refine ⟨nodes, by simp, by simp, ?_⟩
    by_cases unset : r.hdr = -1
    · simp [nothing unset]
    · simpa [credit, unset] using paid
  | copies here =>
    rw [here] at nodes paid
    refine ⟨?_, by simp, by simp, by simpa [credit] using paid⟩
    simp only [RxLocation.detached] at nodes ⊢
    omega
  | handles here =>
    rw [here] at nodes paid
    refine ⟨nodes, by simp, by simp, ?_⟩
    simp only [reduceCtorEq, false_and, if_false] at paid
    dsimp only
    omega

theorem Drains.step {entry : RxEntry} (drains : entry.before.Drains early) (taken : rxMachine.Takes entry) :
    entry.after.Drains (if InTime entry then early else early + 1) := by
  obtain ⟨before, input, after, output⟩ := entry
  change rxStep before input = some (after, output) at taken
  cases input with
  | interrupt frame =>
    obtain ⟨rfl, rfl⟩ := Prod.mk.inj (Option.some.inj taken)
    split
    · next inTime => exact drains.interrupt (inTime.resolve_left (by simp)) frame
    · next tooEarly => exact drains.unregistered (by simpa [InTime] using tooEarly) frame
  | thread =>
    rw [if_pos (.inl rfl)]
    exact drains.thread taken

theorem Drains.run {entries : List RxEntry} (drains : r.Drains early) (run : rxMachine.Run r entries r')
    (inTime : ∀ entry ∈ entries, InTime entry) : r'.Drains early :=
  (run.invariant (Drains early) drains fun entry member taken before => by
    simpa [inTime entry member] using before.step taken).1

theorem Drains.left (drains : r.Drains early) (blocked : r.location = .suspended) :
    r.uselist.length ≤ early := by
  -- a thread that waits leaves behind at most as many frames as came early
  have paid := drains.paid
  have zero := drains.idle blocked
  simp only [credit, blocked, reduceCtorEq, false_and, if_false] at paid
  omega

end Reception

/-! ## What becomes of the received frames -/

def RxReport.received? : RxReport → Option RxMsg
  | .received frame => some frame
  | _ => none

def RxReport.dropped? : RxReport → Option RxMsg
  | .dropped frame => some frame
  | _ => none

def RxReport.handled? : RxReport → Option RxMsg
  | .handled frame => some frame
  | _ => none

def reported (select : RxReport → Option RxMsg) (entries : List RxEntry) : List RxMsg :=
  (entries.flatMap Entry.output).filterMap select

theorem reported_snoc (select : RxReport → Option RxMsg) (entries : List RxEntry) (entry : RxEntry) :
    reported select (entries ++ [entry]) = reported select entries ++ entry.output.filterMap select := by
  simp [reported]

theorem insertFrame_same (frame : RxMsg) (r : Reception) :
    (insertFrame frame r).1.location = r.location ∧ (insertFrame frame r).1.rxIndicate = r.rxIndicate ∧
      (insertFrame frame r).1.semValue = r.semValue := by
  unfold insertFrame
  split
  · exact ⟨rfl, rfl, rfl⟩
  · split <;> exact ⟨rfl, rfl, rfl⟩

theorem rtHwCanIsr_frames (frame : RxMsg) (r : Reception) :
    (rtHwCanIsr frame r).1.uselist = (insertFrame frame r).1.uselist ∧
      (rtHwCanIsr frame r).1.location.held = r.location.held ∧
      (rtHwCanIsr frame r).2 = (insertFrame frame r).2 := by
  have location := (insertFrame_same frame r).1
  unfold rtHwCanIsr
  dsimp only
  split
  · unfold canRxCall
    split
    · next waiting =>
      rw [← location, waiting]
      exact ⟨rfl, rfl, rfl⟩
    · split <;> exact ⟨rfl, by rw [← location], rfl⟩
  · exact ⟨rfl, by rw [location], rfl⟩

theorem frame_balance {entry : RxEntry} (taken : rxMachine.Takes entry) (frame : RxMsg) :
    (entry.output.filterMap RxReport.received?).count frame +
        entry.before.location.held.count frame + entry.before.uselist.count frame =
      (entry.output.filterMap RxReport.dropped?).count frame +
        (entry.output.filterMap RxReport.handled?).count frame +
        entry.after.location.held.count frame + entry.after.uselist.count frame := by
  obtain ⟨before, input, after, output⟩ := entry
  change rxStep before input = some (after, output) at taken
  cases input with
  | interrupt arrived =>
    have same : rtHwCanIsr arrived before = (after, output) := Option.some.inj taken
    obtain ⟨uselist, held, reports⟩ := rtHwCanIsr_frames arrived before
    rw [same] at uselist held reports
    dsimp only at uselist held reports ⊢
    rw [uselist, held, reports]
    unfold insertFrame
    split
    · simp only [RxReport.received?, RxReport.dropped?, RxReport.handled?, List.filterMap_cons,
        List.filterMap_nil, List.count_append, List.count_nil]
      omega
    · split
      · next oldest rest used =>
        simp only [RxReport.received?, RxReport.dropped?, RxReport.handled?, List.filterMap_cons,
          List.filterMap_nil, List.count_append, List.count_cons, List.count_nil, used]
        omega
      · next empty =>
        simp [RxReport.received?, RxReport.dropped?, RxReport.handled?, List.filterMap_cons, empty]
  | thread =>
    cases canRxThread_steps taken with
    | reads here unset used =>
      simp only [here, used, RxLocation.held, List.filterMap_nil, List.count_nil, List.count_cons]
      omega
    | handles here =>
      simp [here, RxLocation.held, RxReport.received?, RxReport.dropped?, RxReport.handled?,
        List.filterMap_cons]
    | registers here | setsHdr here | takes here | suspends here | ends here | copies here =>
      simp [here, RxLocation.held]

/-- Every received frame is dropped, handled, in the hands of the thread or still in the list,
as often as it was received. -/
theorem frames_accounted {entries : List RxEntry} {state : Reception}
    (run : rxMachine.Run .opened entries state) :
    (reported RxReport.received? entries).Perm
      (reported RxReport.dropped? entries ++ reported RxReport.handled? entries ++
        state.location.held ++ state.uselist) := by
  refine run.history (fun entries r => (reported RxReport.received? entries).Perm
    (reported RxReport.dropped? entries ++ reported RxReport.handled? entries ++ r.location.held ++
      r.uselist)) .nil fun pre entry _ taken before => ?_
  rw [List.perm_iff_count] at before ⊢
  intro frame
  have before := before frame
  simp only [reported_snoc, List.count_append] at before ⊢
  have step := frame_balance taken frame
  omega

theorem drains_early {entries : List RxEntry} {state : Reception}
    (run : rxMachine.Run .opened entries state) : ∃ early, state.Drains early :=
  (run.invariant (fun r => ∃ early, r.Drains early) ⟨0, opened_drains⟩
    fun _ _ taken ⟨_, before⟩ => ⟨_, before.step taken⟩).1

/-- As long as no frame arrives before the callback is registered, a thread that waits for a
token has nothing left to read. -/
theorem rx_drained {entries : List RxEntry} {state : Reception}
    (run : rxMachine.Run .opened entries state)
    (inTime : ∀ entry ∈ entries, InTime entry)
    (blocked : state.location = .suspended) : state.semValue = 0 ∧ state.uselist = [] ∧
      (reported RxReport.received? entries).Perm
        (reported RxReport.dropped? entries ++ reported RxReport.handled? entries) := by
  have empty : state.uselist = [] :=
    List.length_eq_zero_iff.mp (Nat.le_zero.mp ((opened_drains.run run inTime).left blocked))
  refine ⟨(opened_drains.run run inTime).idle blocked, empty, ?_⟩
  simpa [blocked, empty, RxLocation.held] using frames_accounted run

theorem canRxThread_location {r r' : Reception} {reports : List RxReport}
    (taken : canRxThread r = some (r', reports)) : r'.location ≠ .register := by
  cases canRxThread_steps taken <;> simp

theorem canRxCall_location {r : Reception} (registering : (canRxCall r).location = .register) :
    r.location = .register := by
  unfold canRxCall at registering
  split at registering
  · simp at registering
  · split at registering <;> exact registering

theorem register_unpaid {entries : List RxEntry} {state : Reception}
    (run : rxMachine.Run .opened entries state) :
    state.location = .register → state.rxIndicate = false ∧ state.semValue = 0 := by
  -- before the callback is registered no token is counted
  refine (run.invariant (fun r => r.location = .register → r.rxIndicate = false ∧ r.semValue = 0)
    (fun _ => ⟨rfl, rfl⟩) fun entry _ taken before registering => ?_).1
  obtain ⟨r, input, after, output⟩ := entry
  change rxStep r input = some (after, output) at taken
  cases input with
  | interrupt frame =>
    have same : rtHwCanIsr frame r = (after, output) := Option.some.inj taken
    obtain ⟨location, registered, value⟩ := insertFrame_same frame r
    unfold rtHwCanIsr at same
    dsimp only at same registering
    split at same
    · next called =>
      -- the callback leaves no thread at its first location
      obtain ⟨rfl, rfl⟩ := Prod.mk.inj same
      have first : r.location = .register := location.symm.trans (canRxCall_location registering)
      rw [registered, (before first).1] at called
      exact absurd called.1 (by decide)
    · rw [same] at location registered value
      obtain ⟨unset, zero⟩ := before (location.symm.trans registering)
      exact ⟨registered.trans unset, value.trans zero⟩
  | thread => exact absurd registering (canRxThread_location taken)

/-- A thread that is about to register will never leave a frame behind, when all later frames come
in time, if and only if no frame is there yet. -/
theorem rx_registration_iff {entries : List RxEntry} {state : Reception}
    (run : rxMachine.Run .opened entries state) (registering : state.location = .register) :
    (∀ more final, rxMachine.Run state more final → (∀ entry ∈ more, InTime entry) →
      final.location = .suspended → final.uselist = []) ↔ state.uselist = [] := by
  have unpaid := (register_unpaid run registering).2
  constructor
  · intro served
    obtain ⟨registered, uselist, free, value, location, hdr⟩ := state
    obtain rfl : location = .register := registering
    obtain rfl : value = 0 := unpaid
    have waiting : rxMachine.exec (⟨registered, uselist, free, 0, .register, hdr⟩ : Reception)
      [.thread, .thread, .thread] = some (_, _) := rfl
    have left := served _ _ (Machine.exec_run waiting) fun entry member => .inl (by
      simpa using Machine.exec_input_mem waiting entry member)
    exact left rfl
  · intro empty more final rest inTime blocked
    obtain ⟨early, drains⟩ := drains_early run
    have paid : state.Drains 0 := ⟨drains.nodes, drains.header, drains.idle, by simp [empty]⟩
    exact List.length_eq_zero_iff.mp (Nat.le_zero.mp ((paid.run rest inTime).left blocked))

def heartbeat : RxMsg :=
  ⟨extendedFrame (canIdGen canIdentyMainBorad canIdentyMonitorBorad canIdMainBoardHeartbeatInfo) 8
    (.replicate 8 0), 0⟩

theorem rx_drained_heartbeat :
    ∃ entries state, rxMachine.exec .opened ([.thread, .thread, .thread, .interrupt heartbeat] ++
      List.replicate 6 .thread) = some (entries, state) ∧ state.location = .suspended ∧
      state.uselist = [] ∧ reported RxReport.handled? entries = [heartbeat] := by
  refine ⟨_, _, rfl, rfl, ?_, rfl⟩
  have done : rxMachine.exec .opened ([.thread, .thread, .thread, .interrupt heartbeat] ++
    List.replicate 6 .thread) = some (_, _) := rfl
  exact (rx_drained (Machine.exec_run done) (by decide) rfl).2.1

theorem rx_left_behind :
    ∃ entries state, rxMachine.Run .opened entries state ∧ state.location = .suspended ∧
      state.semValue = 0 ∧ state.uselist = [heartbeat] := by
  -- a frame that arrives before the callback is registered stays in the list
  have done : rxMachine.exec .opened [.interrupt heartbeat, .thread, .thread, .thread] =
    some (_, _) := rfl
  exact ⟨_, _, Machine.exec_run done, rfl, rfl, rfl⟩

end DetectBoard.Can
