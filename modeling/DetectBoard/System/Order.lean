import DetectBoard.System.Wire

/-! The frames that the board handles are those that it receives, in the same order. -/

set_option autoImplicit false

namespace DetectBoard.System

open Library Flash Can Bubble Inform

variable {table : List FalPartition} {limits : Limits} {filter : Plate.MedianFilter ℚ} {n n' : Node}
  {entries : List NodeEntry} {entry : NodeEntry} {flash : Memory UInt8}

/-- What a step is for the reception. -/
def rxSteps (entry : NodeEntry) : List RxEntry :=
  match entry.input with
  | .interrupt frame => [⟨entry.before.rx, .interrupt frame, entry.after.rx, entry.output.filterMap NodeReport.rx?⟩]
  | .rxThread _ => [⟨entry.before.rx, .thread, entry.after.rx, entry.output.filterMap NodeReport.rx?⟩]
  | _ => []

def rxEntries (entries : List NodeEntry) : List RxEntry := entries.flatMap rxSteps

theorem filterMap_rx? (reports : List RxReport) : (reports.map NodeReport.rx).filterMap NodeReport.rx? = reports := by
  induction reports with
  | nil => rfl
  | cons report rest ih => exact congrArg (report :: ·) ih

theorem rxSteps_run (taken : (nodeMachine table limits filter).Takes entry) (on : entry.input ≠ .boot) :
    rxMachine.Run entry.before.rx (rxSteps entry) entry.after.rx := by
  obtain ⟨n, event, n', reports⟩ := entry
  have steps : NodeSteps table limits filter n event n' reports := nodeMachine_steps taken
  cases steps with
  | boots => exact absurd rfl on
  | interrupts frame =>
    simp only [rxSteps, filterMap_rx?]
    have interrupted : rxMachine.Takes
        ⟨n.rx, .interrupt frame, (rtHwCanIsr frame n.rx).1, (rtHwCanIsr frame n.rx).2⟩ := rfl
    exact .of_takes interrupted
  | @reads chip rx reports running free elsewhere read =>
    simp only [rxSteps, filterMap_rx?]
    have step : rxMachine.Takes ⟨n.rx, .thread, rx, reports⟩ := read
    exact .of_takes step
  | @handles chip frame running free here =>
    have step : rxMachine.Takes ⟨n.rx, .thread, { n.rx with location := .read }, [.handled frame]⟩ := by
      simp only [Machine.Takes, rxMachine, rxStep, canRxThread, here]
    exact .of_takes step
  | _ => exact .nil

/-- Since its last restart the reception goes through a run of its own. -/
theorem rx_run (run : (nodeMachine table limits filter).Run (Node.start filter flash) entries n)
    (life : ∀ entry ∈ entries, entry.input ≠ .boot) : rxMachine.Run .opened (rxEntries entries) n.rx :=
  run.project Node.rx rxSteps fun entry member taken => rxSteps_run taken (life entry member)

/-! ## The order of the frames -/

/-- The frames that the thread has not handled yet. -/
def pending (r : Reception) : List RxMsg := r.location.held ++ r.uselist

/-- An interrupt puts its frame at the end, and drops a frame only when no node is free. -/
theorem insertFrame_order (frame : RxMsg) (r : Reception) :
    (r.location.held ++ (insertFrame frame r).1.uselist).Sublist (pending r ++ [frame]) ∧
      (insertFrame frame r).2.filterMap RxReport.received? = [frame] ∧
      (insertFrame frame r).2.filterMap RxReport.handled? = [] ∧
      (0 < r.freenumbers → r.location.held ++ (insertFrame frame r).1.uselist = pending r ++ [frame]) := by
  unfold insertFrame pending
  split
  · exact ⟨by simp, rfl, rfl, fun _ => by simp⟩
  · next full =>
    refine ⟨?_, ?_, ?_, fun free => absurd free full⟩
    · split
      · next oldest rest used =>
        rw [used, List.append_assoc]
        exact (List.sublist_cons_self oldest (rest ++ [frame])).append_left _
      · exact List.sublist_append_left ..
    · split <;> rfl
    · split <;> rfl

/-- A step takes frames from the front and puts them at the end, but for those that it drops. -/
theorem rx_order {entry : RxEntry} (taken : rxMachine.Takes entry) :
    (entry.output.filterMap RxReport.handled? ++ pending entry.after).Sublist
        (pending entry.before ++ entry.output.filterMap RxReport.received?) ∧
      ((∀ frame, entry.input = .interrupt frame → 0 < entry.before.freenumbers) →
        entry.output.filterMap RxReport.handled? ++ pending entry.after =
          pending entry.before ++ entry.output.filterMap RxReport.received?) := by
  obtain ⟨before, input, after, output⟩ := entry
  have step : rxStep before input = some (after, output) := taken
  cases input with
  | interrupt arrived =>
    have same : rtHwCanIsr arrived before = (after, output) := Option.some.inj step
    obtain ⟨uselist, held, reports⟩ := rtHwCanIsr_frames arrived before
    rw [same] at uselist held reports
    obtain ⟨ordered, received, handled, all⟩ := insertFrame_order arrived before
    dsimp only at uselist held reports ⊢
    rw [pending, uselist, held, reports, received, handled]
    exact ⟨ordered, fun free => all (free arrived rfl)⟩
  | thread =>
    have same : output.filterMap RxReport.handled? ++ pending after =
        pending before ++ output.filterMap RxReport.received? := by
      cases canRxThread_steps step with
      | reads here unset used => simp [pending, here, used, RxLocation.held]
      | handles here => simp [pending, here, RxLocation.held, RxReport.handled?, RxReport.received?]
      | registers here | setsHdr here | takes here | suspends here | ends here | copies here =>
        simp [pending, here, RxLocation.held]
    exact ⟨same ▸ .refl _, fun _ => same⟩

theorem rx_run_order {entries : List RxEntry} {r r' : Reception} (run : rxMachine.Run r entries r') :
    (reported RxReport.handled? entries ++ pending r').Sublist (pending r ++ reported RxReport.received? entries) ∧
      ((∀ entry ∈ entries, ∀ frame, entry.input = .interrupt frame → 0 < entry.before.freenumbers) →
        reported RxReport.handled? entries ++ pending r' = pending r ++ reported RxReport.received? entries) := by
  induction run with
  | nil => simp [reported]
  | @snoc earlier entry run taken ih =>
    obtain ⟨ordered, all⟩ := ih
    obtain ⟨step, whole⟩ := rx_order taken
    rw [reported_snoc, reported_snoc, List.append_assoc]
    constructor
    · refine (step.append_left _).trans ?_
      rw [← List.append_assoc, ← List.append_assoc]
      exact ordered.append_right _
    · intro free
      rw [whole (free entry (by simp)), ← List.append_assoc, all fun other member => free other (by simp [member]),
        List.append_assoc]

/-! ## Frames of the board -/

/-- The frames that the board has received. -/
def received (entries : List NodeEntry) : List RtCanMsg :=
  entries.filterMap fun entry =>
    match entry.input with
    | .interrupt frame => some frame.msg
    | _ => none

/-- The frames that the board has handled. -/
def handled (steps : List BoardEntry) : List RtCanMsg :=
  steps.filterMap fun step =>
    match step.input with
    | .frame _ msg => some msg
    | _ => none

theorem step_handled (taken : (nodeMachine table limits filter).Takes entry) :
    (reported RxReport.handled? (rxSteps entry)).map RxMsg.msg = handled (boardSteps table entry) ∧
      (reported RxReport.received? (rxSteps entry)).map RxMsg.msg = received [entry] := by
  obtain ⟨n, event, n', reports⟩ := entry
  have steps : NodeSteps table limits filter n event n' reports := nodeMachine_steps taken
  cases steps with
  | interrupts frame =>
    obtain ⟨_, _, same⟩ := rtHwCanIsr_frames frame n.rx
    obtain ⟨_, received, handled, _⟩ := insertFrame_order frame n.rx
    simp only [rxSteps, filterMap_rx?, same, reported, List.flatMap_singleton, received, handled]
    exact ⟨rfl, rfl⟩
  | reads running free elsewhere read =>
    cases canRxThread_steps read with
    | handles here => exact absurd here (elsewhere _)
    | _ => simp [rxSteps, boardSteps, handled, received, reported]
  | handles running free here =>
    simp [rxSteps, boardSteps, here, handled, received, reported, frameEntry, NodeReport.rx?, RxReport.handled?,
      RxReport.received?]
  | boots => exact ⟨rfl, rfl⟩
  | timesOut armed =>
    refine ⟨?_, rfl⟩
    simp only [boardSteps]
    split <;> rfl
  | _ => exact ⟨rfl, rfl⟩

theorem interrupt_shown {step : RxEntry} {frame : RxMsg} (shown : step ∈ rxSteps entry)
    (arrived : step.input = .interrupt frame) : entry.input = .interrupt frame ∧ step.before = entry.before.rx := by
  unfold rxSteps at shown
  split at shown
  · next interrupted =>
    obtain rfl := List.mem_singleton.mp shown
    cases arrived
    exact ⟨interrupted, rfl⟩
  · obtain rfl := List.mem_singleton.mp shown
    cases arrived
  · cases shown

theorem handled_received (run : (nodeMachine table limits filter).Run (Node.start filter flash) entries n) :
    (reported RxReport.handled? (rxEntries entries)).map RxMsg.msg = handled (boardEntries table entries) ∧
      (reported RxReport.received? (rxEntries entries)).map RxMsg.msg = received entries := by
  refine run.history (fun entries _ =>
    (reported RxReport.handled? (rxEntries entries)).map RxMsg.msg = handled (boardEntries table entries) ∧
      (reported RxReport.received? (rxEntries entries)).map RxMsg.msg = received entries) ⟨rfl, rfl⟩ ?_
  rintro pre entry _ taken ⟨handledBefore, receivedBefore⟩
  obtain ⟨handledNow, receivedNow⟩ := step_handled taken
  simp only [rxEntries, boardEntries, reported, handled, received, List.flatMap_append, List.flatMap_singleton,
    List.filterMap_append, List.map_append] at *
  exact ⟨by rw [handledBefore, handledNow], by rw [receivedBefore, receivedNow]⟩

theorem step_in_order (taken : (nodeMachine table limits filter).Takes entry) :
    (handled (boardSteps table entry) ++ (pending entry.after.rx).map RxMsg.msg).Sublist
      ((pending entry.before.rx).map RxMsg.msg ++ received [entry]) := by
  by_cases boot : entry.input = .boot
  · obtain ⟨n, event, n', reports⟩ := entry
    obtain rfl : event = .boot := boot
    have steps : NodeSteps table limits filter n .boot n' reports := nodeMachine_steps taken
    cases steps
    exact List.nil_sublist _
  · obtain ⟨sameHandled, sameReceived⟩ := step_handled taken
    rw [← sameHandled, ← sameReceived, ← List.map_append, ← List.map_append]
    refine List.Sublist.map RxMsg.msg ?_
    exact (rx_run_order (rxSteps_run taken boot)).1

theorem handled_sublist (run : (nodeMachine table limits filter).Run (Node.start filter flash) entries n) :
    (handled (boardEntries table entries) ++ (pending n.rx).map RxMsg.msg).Sublist (received entries) := by
  refine run.history (fun entries (n : Node) =>
    (handled (boardEntries table entries) ++ (pending n.rx).map RxMsg.msg).Sublist (received entries)) .slnil ?_
  intro pre entry _ taken before
  have all : received (pre ++ [entry]) = received pre ++ received [entry] := List.filterMap_append
  rw [boardEntries, List.flatMap_append, List.flatMap_singleton, all]
  unfold handled
  rw [List.filterMap_append, List.append_assoc]
  refine ((step_in_order taken).append_left _).trans ?_
  rw [← List.append_assoc]
  exact before.append_right _

/-- A frame that comes finds a free node. -/
def Node.findsNode (n : Node) : NodeEvent → Bool
  | .interrupt _ => 0 < n.rx.freenumbers
  | _ => true

theorem handled_all (run : (nodeMachine table limits filter).Run (Node.start filter flash) entries n)
    (life : ∀ entry ∈ entries, entry.input ≠ .boot)
    (found : ∀ entry ∈ entries, entry.before.findsNode entry.input = true) :
    handled (boardEntries table entries) ++ (pending n.rx).map RxMsg.msg = received entries := by
  obtain ⟨sameHandled, sameReceived⟩ := handled_received run
  rw [← sameHandled, ← sameReceived, ← List.map_append]
  refine congrArg (List.map RxMsg.msg) ((rx_run_order (rx_run run life)).2 fun step member frame arrived => ?_)
  obtain ⟨entry, within, shown⟩ := List.mem_flatMap.mp member
  obtain ⟨input, before⟩ := interrupt_shown shown arrived
  rw [before]
  simpa [input, Node.findsNode] using found entry within

/-- The frames that the board handles are some of those that it receives, in the same order, and between two
restarts all of them as long as each frame finds a free node. -/
theorem handled_in_order (run : (nodeMachine table limits filter).Run (Node.start filter flash) entries n) :
    (handled (boardEntries table entries) ++ (pending n.rx).map RxMsg.msg).Sublist (received entries) ∧
      ((∀ entry ∈ entries, entry.input ≠ .boot) →
        (∀ entry ∈ entries, entry.before.findsNode entry.input = true) →
        handled (boardEntries table entries) ++ (pending n.rx).map RxMsg.msg = received entries) :=
  ⟨handled_sublist run, handled_all run⟩

theorem handled_in_order_update :
    ∃ entries n, updateRun = some (entries, n) ∧ (received entries).length = 2 ∧
      handled (boardEntries falPartTable entries) ++ (pending n.rx).map RxMsg.msg = received entries := by
  have checked : updateRun.map (fun done => decide ((received done.1).length = 2 ∧
      ∀ entry ∈ done.1, entry.before.findsNode entry.input = true)) = some true := by
    decide +kernel
  obtain ⟨⟨entries, n⟩, done, whole⟩ := Option.map_eq_some_iff.mp checked
  obtain ⟨both, found⟩ := of_decide_eq_true whole
  exact ⟨entries, n, done, both, (handled_in_order (Machine.exec_run done)).2 (update_life done) found⟩

end DetectBoard.System
