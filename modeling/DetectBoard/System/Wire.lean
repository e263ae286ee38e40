import DetectBoard.System.Node

/-! What the frames on the bus tell about the board, whatever the threads do in between. -/

set_option autoImplicit false

namespace DetectBoard.System

open Library Flash Can Bubble Inform

variable {table : List FalPartition} {limits : Limits} {filter : Plate.MedianFilter ℚ} {n n' : Node}
  {entries : List NodeEntry} {entry : NodeEntry}

/-! ## The part of the board -/

/-- What a step is for the board. -/
def boardSteps (table : List FalPartition) (entry : NodeEntry) : List BoardEntry :=
  match entry.input with
  | .rxThread chip =>
    match entry.before.rx.location with
    | .handle frame => [frameEntry table chip frame.msg entry.before.board]
    | _ => []
  | .otaTimer =>
    if entry.before.board.status = .reset then []
    else [⟨entry.before.board, .otaTimerTimeout, entry.after.board, [.cpuReset]⟩]
  | .boot => [⟨entry.before.board, .boot, entry.after.board, []⟩]
  | _ => []

def boardEntries (table : List FalPartition) (entries : List NodeEntry) : List BoardEntry :=
  entries.flatMap (boardSteps table)

theorem boardSteps_run (taken : (nodeMachine table limits filter).Takes entry) :
    (boardMachine table).Run entry.before.board (boardSteps table entry) entry.after.board := by
  obtain ⟨n, event, n', reports⟩ := entry
  have steps : NodeSteps table limits filter n event n' reports := nodeMachine_steps taken
  cases steps with
  | boots =>
    have restarted : (boardMachine table).Takes ⟨n.board, .boot, .boot n.board.flash, []⟩ := rfl
    exact .of_takes restarted
  | reads running free elsewhere read => simpa only [boardSteps] using .nil
  | handles running free here =>
    simp only [boardSteps, here]
    exact .of_takes (frameEntry_takes _ _ _ running)
  | timesOut armed =>
    simp only [boardSteps]
    split
    · exact .nil
    · next on =>
      have reset : (boardMachine table).Takes
          ⟨n.board, .otaTimerTimeout, { n.board with otaTimer := false, status := .reset }, [.cpuReset]⟩ :=
        if_pos ⟨armed, on⟩
      exact .of_takes reset
  | _ => exact .nil

theorem board_run {flash : Memory UInt8}
    (run : (nodeMachine table limits filter).Run (Node.start filter flash) entries n) :
    (boardMachine table).Run (Board.boot flash) (boardEntries table entries) n.board :=
  run.project Node.board (boardSteps table) fun _ _ taken => boardSteps_run taken

/-! ## The line to the bus -/

theorem linkStep_steps {link link' : AlarmLink} {event : LinkEvent} {frames : List RtCanMsg}
    (taken : linkStep link event = some (link', frames)) : LinkSteps link event link' frames := by
  have entry : linkMachine.Takes ⟨link, event, link', frames⟩ := taken
  exact linkMachine_steps entry

def NodeReport.offered? : NodeReport → Option RtCanMsg
  | .offered msg => some msg
  | _ => none

def NodeReport.bus? : NodeReport → Option RtCanMsg
  | .bus msg => some msg
  | _ => none

def NodeReport.rx? : NodeReport → Option RxReport
  | .rx report => some report
  | _ => none

/-- What the reports of a run select, in order. -/
def seen {β : Type} (select : NodeReport → Option β) (entries : List NodeEntry) : List β :=
  (entries.flatMap Entry.output).filterMap select

theorem seen_snoc {β : Type} (select : NodeReport → Option β) (entries : List NodeEntry) (entry : NodeEntry) :
    seen select (entries ++ [entry]) = seen select entries ++ entry.output.filterMap select := by
  simp [seen]

/-- The frames that are on their way to the bus. -/
def Node.line (n : Node) : List RtCanMsg := n.link.msgCan.toList ++ n.link.canTxMq.entries

theorem rtMqSend_sublist (mq : CanTxMq) (msgs : List RtCanMsg) :
    (msgs.foldl rtMqSend mq).entries.Sublist (mq.entries ++ msgs) := by
  induction msgs generalizing mq with
  | nil => rw [List.append_nil, List.foldl_nil]
  | cons msg rest ih =>
    have first : (rtMqSend mq msg).entries.Sublist (mq.entries ++ [msg]) := by
      by_cases room : mq.entries.length < canTxMqSize
      · rw [rtMqSend_room room]
      · rw [rtMqSend, BoundedQueue.send_full room, Option.getD_none]
        exact List.sublist_append_left ..
    rw [List.foldl_cons, List.append_cons]
    exact (ih _).trans (first.append_right rest)

theorem send_line (n : Node) (msgs : List RtCanMsg) : (n.send msgs).line.Sublist (n.line ++ msgs) := by
  rw [Node.line, Node.line, List.append_assoc]
  exact (rtMqSend_sublist n.link.canTxMq msgs).append_left _

theorem send_room {n : Node} (room : n.link.canTxMq.entries.length < canTxMqSize) (msg : RtCanMsg) :
    (n.send [msg]).line = n.line ++ [msg] := by
  rw [Node.line, Node.line, List.append_assoc]
  exact congrArg (n.link.msgCan.toList ++ ·) (rtMqSend_room room msg)

theorem filterMap_offered (msgs : List RtCanMsg) :
    (msgs.map NodeReport.offered).filterMap NodeReport.bus? = [] ∧
      (msgs.map NodeReport.offered).filterMap NodeReport.offered? = msgs := by
  induction msgs with
  | nil => exact ⟨rfl, rfl⟩
  | cons msg rest ih => exact ⟨ih.1, congrArg (msg :: ·) ih.2⟩

theorem filterMap_rx (reports : List RxReport) :
    (reports.map NodeReport.rx).filterMap NodeReport.bus? = [] ∧
      (reports.map NodeReport.rx).filterMap NodeReport.offered? = [] := by
  induction reports with
  | nil => exact ⟨rfl, rfl⟩
  | cons report rest ih => exact ih

/-- A step of the tasks sends one frame at most: the timer does, and the last step of `lcr_info_judge`. -/
theorem informStep_frames {s s' : InformState} {event : InformEvent} {msgs : List RtCanMsg}
    (taken : informStep limits s event = some (s', msgs)) :
    msgs = [] ∨ (event = .timer ∨ event = .lcr ∧ s'.lcr = .idle) ∧ ∃ info, msgs = [informInfoSend info] := by
  cases event with
  | lcr =>
    obtain ⟨done, stepped, same⟩ := Option.map_eq_some_iff.mp taken
    cases same
    cases here : s.lcr with
    | send =>
      rw [here] at stepped
      cases stepped
      exact .inr ⟨.inr ⟨rfl, rfl⟩, _, rfl⟩
    | idle | assignCap | compare | assignPreNegState | assignNegState =>
      rw [here] at stepped
      cases stepped <;> exact .inl rfl
  | timer =>
    cases taken
    exact .inr ⟨.inl rfl, _, rfl⟩
  | call C | window adc2Buffer | sample =>
    simp only [informStep] at taken
    split at taken <;> cases taken
    exact .inl rfl

/-- The event empties the queue: a restart, a frame that could not be written, or a reset of the queue. -/
def Node.empties (n : Node) : NodeEvent → Bool
  | .boot | .write 0 => true
  | .act => n.acting.head? = some (.action .mqReset)
  | _ => false

/-- The step leaves the queue what it holds, and finds it full with no frame to send. -/
def Lossless (entry : NodeEntry) : Prop :=
  entry.before.empties entry.input = false ∧
    (entry.output.filterMap NodeReport.offered? = [] ∨ entry.before.link.canTxMq.entries.length < canTxMqSize)

instance : DecidablePred Lossless := fun _ => inferInstanceAs (Decidable (_ ∧ _))

/-- The line loses frames, but it makes up none and changes no order. -/
structure Advances (entry : NodeEntry) : Prop where
  ordered : (entry.output.filterMap NodeReport.bus? ++ entry.after.line).Sublist
    (entry.before.line ++ entry.output.filterMap NodeReport.offered?)
  whole : Lossless entry → entry.output.filterMap NodeReport.bus? ++ entry.after.line =
    entry.before.line ++ entry.output.filterMap NodeReport.offered?

namespace Advances

variable {event : NodeEvent} {reports : List NodeReport}

theorem of_eq (same : reports.filterMap NodeReport.bus? ++ n'.line = n.line ++ reports.filterMap NodeReport.offered?) :
    Advances ⟨n, event, n', reports⟩ :=
  ⟨same ▸ .refl _, fun _ => same⟩

theorem silent (line : n'.line = n.line) : Advances ⟨n, event, n', []⟩ :=
  of_eq (line.trans (List.append_nil _).symm)

theorem received (reports : List RxReport) (line : n'.line = n.line) :
    Advances ⟨n, event, n', reports.map NodeReport.rx⟩ := by
  refine of_eq ?_
  rw [(filterMap_rx reports).1, (filterMap_rx reports).2, List.append_nil, List.nil_append, line]

theorem sent {msgs : List RtCanMsg} (frames : msgs = [] ∨ ∃ msg, msgs = [msg]) (line : n'.line = (n.send msgs).line) :
    Advances ⟨n, event, n', msgs.map NodeReport.offered⟩ := by
  rcases frames with rfl | ⟨msg, rfl⟩
  · exact silent line
  · refine ⟨?_, fun lossless => ?_⟩
    · exact line ▸ send_line n [msg]
    · exact line.trans (send_room (lossless.2.resolve_left (List.cons_ne_nil _ _)) msg)

theorem informed {s s' : InformState} {input : InformEvent} {msgs : List RtCanMsg}
    (taken : informStep limits s input = some (s', msgs)) (line : n'.line = (n.send msgs).line) :
    Advances ⟨n, event, n', msgs.map NodeReport.offered⟩ :=
  sent ((informStep_frames taken).imp_right fun ⟨_, _, same⟩ => ⟨_, same⟩) line

theorem emptied (empties : n.empties event = true) (ordered : n'.line.Sublist n.line) :
    Advances ⟨n, event, n', []⟩ :=
  ⟨ordered.trans (List.sublist_append_left ..), fun lossless => absurd (empties.symm.trans lossless.1) (by decide)⟩

end Advances

theorem step_line (taken : (nodeMachine table limits filter).Takes entry) : Advances entry := by
  obtain ⟨n, event, n', reports⟩ := entry
  have steps : NodeSteps table limits filter n event n' reports := nodeMachine_steps taken
  cases steps with
  | boots => exact .emptied rfl (List.nil_sublist _)
  | interrupts | reads => exact .received _ rfl
  | @handles _ frame => exact .received [.handled frame] rfl
  | stops | flags | restarts | passes | timesOut | passesGate | staysOut | passesBdGate | staysBdOut | starts =>
    exact .silent rfl
  | @sends msg => exact .sent (.inr ⟨msg, rfl⟩) rfl
  | informs => exact .sent (.inr ⟨_, rfl⟩) rfl
  | empties acting =>
    exact .emptied (by simp [Node.empties, acting]) (List.Sublist.append_left (List.nil_sublist _) _)
  | calls _ called => exact .informed called rfl
  | judges _ judged => exact .informed judged rfl
  | clears _ cleared => exact .informed cleared rfl
  | counts _ counted => exact .informed counted rfl
  | compares second compared =>
    cases linkStep_steps compared with
    | passes idle decided =>
      rw [decided]
      exact .silent rfl
    | @decides _ flag idle decided =>
      rw [decided]
      exact .sent (.inr ⟨generateError flag bdError, rfl⟩) rfl
  | commits deciding committed =>
    cases linkStep_steps committed with
    | commits => exact .silent rfl
  | takes _ stepped =>
    cases linkStep_steps stepped with
    | takes free head => exact .silent (by simp [Node.line, free, BoundedQueue.receive_entries head])
  | writes written =>
    cases linkStep_steps written with
    | writes held => exact .of_eq (by simp [Node.line, held, NodeReport.bus?, NodeReport.offered?])
    | fails held => exact .emptied rfl (List.nil_sublist _)

theorem bus_sublist {flash : Memory UInt8}
    (run : (nodeMachine table limits filter).Run (Node.start filter flash) entries n) :
    (seen NodeReport.bus? entries ++ n.line).Sublist (seen NodeReport.offered? entries) := by
  refine run.history (fun entries (n : Node) =>
    (seen NodeReport.bus? entries ++ n.line).Sublist (seen NodeReport.offered? entries)) .slnil ?_
  intro pre entry _ taken before
  rw [seen_snoc, seen_snoc, List.append_assoc]
  refine ((step_line taken).ordered.append_left _).trans ?_
  rw [← List.append_assoc]
  exact before.append_right _

/-- The frame is one that only OTA requests are answered with. -/
def otaReply (msg : RtCanMsg) : Bool :=
  msg.messageClass = 1 || msg.register = canIdHandtoolOtaStartReply || msg.register = canIdHandtoolOtaEndReply

/-- The frames that are sent among some actions. -/
def sends (actions : List Action) : List RtCanMsg :=
  actions.filterMap fun
    | .mqSend msg => some msg
    | _ => none

def Duty.action? : Duty → Option Action
  | .action act => some act
  | _ => none

/-- The frames that `can_rx_thread` has still to send. -/
def Node.owed (n : Node) : List RtCanMsg := sends (n.acting.filterMap Duty.action?)

/-- The frames that the receive thread sends for the frames that it handles. -/
def answers (steps : List BoardEntry) : List RtCanMsg := steps.flatMap fun step => sends step.output

theorem inform_not_reply (negState zerocount : UInt8) (cap : UInt32) :
    otaReply (monitorBoardInformInfo negState zerocount cap) = false := by
  have id : otaReply ⟨canIdGenByReg canIdMonitorBoardInformInfo, 1, 0, 8, .replicate 8 0⟩ = false := by decide
  exact id

theorem error_not_reply (flag : UInt8) (ec : UInt16) : otaReply (generateError flag ec) = false := by
  have id : otaReply ⟨canIdGenByReg canIdMonitorBoardErrorInfo, 1, 0, 8, .replicate 8 0⟩ = false := by decide
  exact id

theorem informStep_silent {s s' : InformState} {event : InformEvent} {msgs : List RtCanMsg}
    (taken : informStep limits s event = some (s', msgs)) : ∀ msg ∈ msgs, otaReply msg = false := by
  rcases informStep_frames taken with rfl | ⟨_, info, rfl⟩ <;> simp [informInfoSend, inform_not_reply]

theorem silent_frames {msgs : List RtCanMsg} (silent : ∀ msg ∈ msgs, otaReply msg = false) :
    ((msgs.map NodeReport.offered).filterMap NodeReport.offered?).filter otaReply = [] := by
  rw [(filterMap_offered msgs).2]
  exact List.filter_eq_nil_iff.mpr fun msg member => by simp [silent msg member]

theorem duties_actions (actions : List Action) (request : Request) :
    (actions.map Duty.action ++ suspension request).filterMap Duty.action? = actions := by
  have later : (suspension request).filterMap Duty.action? = [] := by cases request <;> rfl
  have kept : Duty.action? ∘ Duty.action = some := rfl
  rw [List.filterMap_append, later, List.append_nil, List.filterMap_map, kept, List.filterMap_some]

theorem owed_tail {duty : Duty} {rest : List Duty} (acting : n.acting = duty :: rest) :
    (sends (rest.filterMap Duty.action?)).Sublist n.owed := by
  rw [Node.owed, acting]
  exact ((List.sublist_cons_self duty rest).filterMap _).filterMap _

theorem step_replies {event : NodeEvent} {reports : List NodeReport}
    (steps : NodeSteps table limits filter n event n' reports) :
    ((reports.filterMap NodeReport.offered?).filter otaReply ++ n'.owed).Sublist
      (n.owed ++ answers (boardSteps table ⟨n, event, n', reports⟩)) := by
  have kept {later : List RtCanMsg} : (n.owed).Sublist (n.owed ++ later) := List.sublist_append_left ..
  have silent {msgs : List RtCanMsg} (silent : ∀ msg ∈ msgs, otaReply msg = false) :
      (((msgs.map NodeReport.offered).filterMap NodeReport.offered?).filter otaReply ++ n.owed).Sublist
        (n.owed ++ []) := by
    rw [silent_frames silent]
    exact kept
  cases steps with
  | boots => exact List.nil_sublist _
  | interrupts | reads =>
    rw [(filterMap_rx _).2]
    exact kept
  | handles running free here =>
    simp only [boardSteps, here, answers, List.flatMap_singleton, Node.owed, duties_actions]
    exact List.sublist_append_right ..
  | @sends msg rest acting =>
    have owed : n.owed = msg :: sends (rest.filterMap Duty.action?) := by
      rw [Node.owed, acting]
      rfl
    rw [owed]
    exact (List.filter_sublist.append_right _).trans (List.sublist_append_left ..)
  | stops acting | flags acting | empties acting | restarts acting | passes acting =>
    exact (owed_tail acting).trans (List.sublist_append_left ..)
  | informs => exact silent (List.forall_mem_singleton.mpr (inform_not_reply ..))
  | calls _ called => exact silent (informStep_silent called)
  | judges _ judged => exact silent (informStep_silent judged)
  | clears _ cleared => exact silent (informStep_silent cleared)
  | counts _ counted => exact silent (informStep_silent counted)
  | compares second compared =>
    cases linkStep_steps compared with
    | passes idle decided =>
      rw [decided]
      exact kept
    | decides idle decided =>
      rw [decided]
      exact silent (List.forall_mem_singleton.mpr (error_not_reply ..))
  | timesOut | passesGate | staysOut | passesBdGate | staysBdOut | commits | starts | takes => exact kept
  | writes written =>
    cases linkStep_steps written <;> exact kept

/-- The tasks send no reply, so each reply was an answer of the receive thread. -/
theorem offered_replies {flash : Memory UInt8}
    (run : (nodeMachine table limits filter).Run (Node.start filter flash) entries n) :
    ((seen NodeReport.offered? entries).filter otaReply ++ n.owed).Sublist
      (answers (boardEntries table entries)) := by
  refine run.history (fun entries (n : Node) =>
    ((seen NodeReport.offered? entries).filter otaReply ++ n.owed).Sublist
      (answers (boardEntries table entries))) .slnil ?_
  intro pre entry _ taken before
  have step := step_replies (nodeMachine_steps taken)
  rw [seen_snoc, List.filter_append, List.append_assoc, boardEntries, List.flatMap_append, List.flatMap_singleton,
    answers, List.flatMap_append]
  refine (step.append_left _).trans ?_
  rw [← List.append_assoc]
  exact before.append_right _

theorem bus_replies {flash : Memory UInt8}
    (run : (nodeMachine table limits filter).Run (Node.start filter flash) entries n) :
    ((seen NodeReport.bus? entries).filter otaReply).Sublist (answers (boardEntries table entries)) := by
  have sent := ((List.sublist_append_left ..).trans (bus_sublist run)).filter otaReply
  exact sent.trans ((List.sublist_append_left ..).trans (offered_replies run))

def frameData (data : List UInt8) : Vector UInt8 8 := .ofFn fun i => data.getD i.val 0

/-- The main board sends an image of one block, and the frame of the block comes before the request is handled. -/
def updateInputs : List NodeEvent :=
  List.flatten
    [.replicate 3 (.rxThread .ideal),
      [.txStart, .informTimer, .interrupt ⟨otaAskFrame (frameData [0, 1, 0xB0, 0xCF, 0, 0, 0, 8]), 0⟩,
        .interrupt ⟨otaBlockFrame 0 (frameData [1, 2, 3, 4, 5, 6, 7, 8]), 0⟩],
      .replicate 3 (.rxThread .ideal), .replicate 6 .act, .replicate 6 (.rxThread .ideal), .replicate 5 .act,
      [.recv, .write 16, .recv, .write 16, .recv, .write 16, .recv, .write 16]]

def updateRun : Option (List NodeEntry × Node) :=
  (nodeMachine falPartTable bdLimits Plate.clearedFilter).exec (.start Plate.clearedFilter fun _ => 0xFF) updateInputs

theorem update_life (done : updateRun = some (entries, n)) : ∀ entry ∈ entries, entry.input ≠ .boot := by
  intro entry member boot
  have among := Machine.exec_input_mem done entry member
  simp [boot, updateInputs] at among

end DetectBoard.System
