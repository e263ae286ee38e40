import DetectBoard.Ota.Integrity
import DetectBoard.System.Order

/-! What the main board may conclude from the OTA replies that it sees on the bus. -/

set_option autoImplicit false

namespace DetectBoard.System

open Library Flash Can Bubble Inform

variable {limits : Limits} {filter : Plate.MedianFilter ℚ} {n : Node} {entries : List NodeEntry} {flash : Memory UInt8}

/-! ## The answer behind a reply -/

theorem mem_sends {msg : RtCanMsg} {actions : List Action} (sent : msg ∈ sends actions) : .mqSend msg ∈ actions := by
  obtain ⟨action, member, same⟩ := List.mem_filterMap.mp sent
  cases action <;> cases same
  exact member

/-- Behind a reply on the bus there is a frame that the board has handled. -/
theorem answered {msg : RtCanMsg}
    (run : (nodeMachine falPartTable limits filter).Run (Node.start filter flash) entries n)
    (shown : msg ∈ seen NodeReport.bus? entries) (reply : otaReply msg = true) :
    ∃ first step rest, boardEntries falPartTable entries = first ++ step :: rest ∧ .mqSend msg ∈ step.output := by
  have among := (bus_replies run).subset (List.mem_filter.mpr ⟨shown, reply⟩)
  obtain ⟨step, member, sent⟩ := List.mem_flatMap.mp among
  obtain ⟨first, rest, whole⟩ := List.append_of_mem member
  exact ⟨first, step, rest, whole, mem_sends sent⟩

theorem answered_dataRequest {table : List FalPartition} {step : BoardEntry} {value : UInt8} {frameId : UInt16}
    (taken : (boardMachine table).Takes step) (sent : .mqSend (otaDataBlockReply value frameId) ∈ step.output) :
    ∃ chip msg, DataRequest step chip msg := by
  have differ {other : RtCanMsg} (plain : other.messageClass = 0) : otaDataBlockReply value frameId ≠ other := by
    rintro rfl
    simp at plain
  have handshake : monitorBoardHandshake.messageClass = 0 := by decide
  have start (answer : UInt8) : (otaStartReply answer).messageClass = 0 := by
    have id : (canIdGenByReg canIdHandtoolOtaStartReply >>> 16) &&& 0x7 = 0 := by decide
    exact id
  cases boardMachine_steps taken with
  | start _ _ outcome => cases outcome <;> simp [differ (start _)] at sent
  | data _ asked => exact ⟨_, _, rfl, asked⟩
  | other _ _ _ _ unrelated =>
    rcases unrelated _ sent with reset | handshake'
    · cases reset
    · exact absurd (Action.mqSend.inj handshake') (differ handshake)
  | timeout => simp at sent
  | boot => simp at sent

theorem handled_mem {first rest : List BoardEntry} {step : BoardEntry} {chip : FlashChip} {msg : RtCanMsg}
    (run : (nodeMachine falPartTable limits filter).Run (Node.start filter flash) entries n)
    (whole : boardEntries falPartTable entries = first ++ step :: rest) (input : step.input = .frame chip msg) :
    msg ∈ received entries := by
  have ordered := (List.sublist_append_left ..).trans (handled_sublist run)
  refine ordered.subset (List.mem_filterMap.mpr ⟨step, ?_, by rw [input]⟩)
  rw [whole]
  simp

/-! ## An acknowledged block -/

theorem flatten_length {blocks : List (List UInt8)} (eight : ∀ block ∈ blocks, block.length = 8) :
    blocks.flatten.length = 8 * blocks.length := by
  induction blocks with
  | nil => rfl
  | cons block rest ih =>
    rw [List.forall_mem_cons] at eight
    rw [List.flatten_cons, List.length_append, eight.1, ih eight.2, List.length_cons]
    omega

theorem stored_block {blocks more : List (List UInt8)} {payload : List UInt8} {b : Board}
    (holds : Holds (blocks ++ payload :: more) b) :
    b.flash.cells (downloadStart + 8 * blocks.length) 8 = payload := by
  have before : blocks.flatten.length = 8 * blocks.length :=
    flatten_length fun block member => holds.eight block (by simp [member])
  have eight : payload.length = 8 := holds.eight payload (by simp)
  have count : 8 * (blocks ++ payload :: more).length = 8 * blocks.length + (8 + 8 * more.length) := by
    rw [List.length_append, List.length_cons]
    omega
  have stored := holds.stored
  rw [count, Memory.cells_add, Memory.cells_add, List.flatten_append, List.flatten_cons] at stored
  obtain ⟨_, later⟩ := List.append_inj stored (by rw [Memory.cells_length, before])
  exact (List.append_inj later (by rw [Memory.cells_length, eight])).1

/-- A block is in the flash, and what is still to come of the session is behind it. -/
def Kept (blocks : List (List UInt8)) (payload : List UInt8) (b : Board) : Prop :=
  b.flash.cells (downloadStart + 8 * blocks.length) 8 = payload ∧
    (b.otaStartFlag = 0 ∨ ∃ more, Holds (blocks ++ payload :: more) b)

theorem kept_of_holds {blocks more : List (List UInt8)} {payload : List UInt8} {b : Board}
    (holds : Holds (blocks ++ payload :: more) b) : Kept blocks payload b :=
  ⟨stored_block holds, .inr ⟨more, holds⟩⟩

/-- Without a start request no step writes over the block; a restart ends the session. -/
theorem Kept.step {blocks : List (List UInt8)} {payload : List UInt8} {step : BoardEntry}
    (kept : Kept blocks payload step.before) (taken : (boardMachine falPartTable).Takes step)
    (asks : ∀ chip msg, ¬ StartRequest step chip msg) : Kept blocks payload step.after := by
  obtain ⟨stored, closed | ⟨more, holds⟩⟩ := kept
  · cases boardMachine_steps taken with
    | start _ asked => exact absurd ⟨rfl, asked⟩ (asks _ _)
    | data _ asked => exact absurd ((request_otaData asked).symm.trans closed) (by decide)
    | other _ _ _ session => exact ⟨by rwa [session.flash], .inl (session.otaStartFlag.trans closed)⟩
    | timeout => exact ⟨stored, .inl closed⟩
    | boot => exact ⟨stored, .inl rfl⟩
  · by_cases boot : step.input = .boot
    · obtain ⟨before, input, after, output⟩ := step
      obtain rfl : input = .boot := boot
      cases boardMachine_steps taken
      exact ⟨stored, .inl rfl⟩
    · rcases (boardMachine_steps taken).refines ⟨asks, boot⟩ holds with ⟨_, held⟩ | ⟨delivered, _, outcome⟩
      · exact kept_of_holds held
      · split at outcome
        · have held := outcome.2
          rw [List.append_assoc, List.cons_append] at held
          exact kept_of_holds held
        · exact kept_of_holds outcome

theorem Kept.run {blocks : List (List UInt8)} {payload : List UInt8} {b b' : Board} {steps : List BoardEntry}
    (kept : Kept blocks payload b) (run : (boardMachine falPartTable).Run b steps b')
    (asks : ∀ step ∈ steps, ∀ chip msg, ¬ StartRequest step chip msg) : Kept blocks payload b' :=
  (run.invariant (Kept blocks payload) kept fun step member taken before => before.step taken (asks step member)).1

/-- A positive reply on the bus belongs to a block that the board has received and written to the flash. It stays
there, over restarts too, until a further start request is handled. -/
theorem acknowledged_stored {frameId : UInt16}
    (run : (nodeMachine falPartTable limits filter).Run (Node.start filter flash) entries n)
    (shown : otaDataBlockReply 1 frameId ∈ seen NodeReport.bus? entries) :
    ∃ first step rest chip msg, boardEntries falPartTable entries = first ++ step :: rest ∧
      DataRequest step chip msg ∧ msg.frameId = frameId ∧ msg ∈ received entries ∧
      step.after.flash.cells (downloadStart + 8 * frameId.toNat) 8 = msg.data.toList ∧
      ((∀ later ∈ rest, ∀ chip msg, ¬ StartRequest later chip msg) →
        n.board.flash.cells (downloadStart + 8 * frameId.toNat) 8 = msg.data.toList) := by
  obtain ⟨first, step, rest, whole, sent⟩ := answered run shown (by simp [otaReply])
  have board := board_run run
  rw [whole] at board
  obtain ⟨before, taken, later⟩ := board.reach
  obtain ⟨chip, msg, given⟩ := answered_dataRequest taken sent
  have outcome := given.outcome taken
  have reply : otaDataBlockReply 1 frameId ∈ blockReplies step.output := List.mem_filterMap.mpr ⟨_, sent, by simp⟩
  rcases (consistent before).1 with ⟨flag, _⟩ | ⟨_, blocks, holds⟩
  · exact absurd ((request_otaData given.2).symm.trans flag) (by decide)
  rcases outcome.receives holds with ⟨replies, number, held⟩ | ⟨replies, _⟩ | ⟨_, replies, _⟩
  · rw [replies, List.mem_singleton] at reply
    have same : msg.frameId = frameId := by
      rw [← otaDataBlockReply_frameId 1 frameId, reply, otaDataBlockReply_frameId]
    have kept : Kept blocks msg.data.toList step.after := kept_of_holds held
    refine ⟨first, step, rest, chip, msg, whole, given, same, handled_mem run whole given.1, ?_, fun asks => ?_⟩
    · rw [← same, number]
      exact kept.1
    · rw [← same, number]
      exact (kept.run later asks).1
  · rw [replies, List.mem_singleton] at reply
    have same : frameId = msg.frameId := by
      rw [← otaDataBlockReply_frameId 1 frameId, reply, otaDataBlockReply_frameId]
    rw [same] at reply
    exact absurd reply (otaDataBlockReply_ne _)
  · rw [replies] at reply
    cases reply

theorem acknowledged_stored_update :
    ∃ entries n, updateRun = some (entries, n) ∧
      ∃ first step rest chip msg, boardEntries falPartTable entries = first ++ step :: rest ∧
        DataRequest step chip msg ∧ msg.frameId = 0 ∧ msg ∈ received entries ∧
        step.after.flash.cells (downloadStart + 8 * 0) 8 = msg.data.toList ∧
        ((∀ later ∈ rest, ∀ chip msg, ¬ StartRequest later chip msg) →
          n.board.flash.cells (downloadStart + 8 * 0) 8 = msg.data.toList) := by
  have checked : updateRun.map (fun done => decide (otaDataBlockReply 1 0 ∈ seen NodeReport.bus? done.1)) =
      some true := by decide +kernel
  obtain ⟨⟨entries, n⟩, done, shown⟩ := Option.map_eq_some_iff.mp checked
  exact ⟨entries, n, done, acknowledged_stored (Machine.exec_run done) (of_decide_eq_true shown)⟩

/-! ## A reported success -/

theorem DataOutcome.reset {chip : FlashChip} {frameId : UInt16} {recData : Vector UInt8 8} {b : Board}
    {result : Board × List Action} (outcome : DataOutcome chip frameId recData b result)
    (ended : .mqSend (otaEndReply 1) ∈ result.2) : result.1.status = .reset := by
  have restarts := (outcome.ended ended).2.2.2.2
  cases outcome <;> simp at restarts
  rfl

/-- A board that waits for its restart does nothing before it. -/
theorem reset_idle {table : List FalPartition} {b b' : Board} {steps : List BoardEntry}
    (run : (boardMachine table).Run b steps b') (reset : b.status = .reset) (on : ∀ step ∈ steps, step.input ≠ .boot) :
    steps = [] := by
  cases steps with
  | nil => rfl
  | cons step rest =>
    rw [← List.nil_append (step :: rest)] at run
    obtain ⟨start, taken, _⟩ := run.reach
    rw [← start.nil_eq] at reset
    rcases (boardMachine_steps taken).phases with ⟨_, _, started⟩ | ⟨boot, _⟩ | ⟨_, carries⟩
    · exact absurd (reset.symm.trans started.running) (by decide)
    · exact absurd boot (on step (by simp))
    · exact absurd reset carries.on

/-- The session that the last start request has opened. -/
theorem lastStart_opens {history : List BoardEntry} {start : BoardEntry} (latest : lastStart history = some start) :
    ∃ first rest chip msg, history = first ++ start :: rest ∧ StartRequest start chip msg ∧
      ∀ step ∈ rest, Continues step := by
  induction history using List.reverseRecOn with
  | nil => cases latest
  | append_singleton earlier last ih =>
    rw [lastStart_snoc] at latest
    have extend (continues : Continues last) : ∃ first rest chip msg, earlier ++ [last] = first ++ start :: rest ∧
        StartRequest start chip msg ∧ ∀ step ∈ rest, Continues step := by
      rw [continues.latest] at latest
      obtain ⟨first, rest, chip, msg, rfl, asked, session⟩ := ih latest
      refine ⟨first, rest ++ [last], chip, msg, by simp, asked, fun step member => ?_⟩
      rcases List.mem_append.mp member with before | here
      · exact session step before
      · rw [List.mem_singleton.mp here]
        exact continues
    unfold latestStart at latest
    split at latest
    · next chip msg input =>
      split at latest
      · next asked =>
        cases latest
        exact ⟨earlier, [], chip, msg, rfl, ⟨input, asked⟩, by simp⟩
      · next other => exact extend (continues_of_frame input other)
    · next input =>
      refine extend ⟨fun _ _ asked => ?_, by simp [input]⟩
      cases input.symm.trans asked.1
    · cases latest

theorem boardSteps_on {table : List FalPartition} {entry : NodeEntry} (on : entry.input ≠ .boot) :
    ∀ step ∈ boardSteps table entry, step.input ≠ .boot := by
  intro step member
  unfold boardSteps at member
  split at member
  · split at member
    · rw [List.mem_singleton.mp member]
      exact nofun
    · cases member
  · split at member
    · cases member
    · rw [List.mem_singleton.mp member]
      exact nofun
  · next boot => exact absurd boot on
  · cases member

/-- Once an end reply of 1 is on the bus, the flash holds what was received since the start request, at least as
much as it announced and with the CRC that it announced, and it will do so until the board restarts. -/
theorem success_stored (run : (nodeMachine falPartTable limits filter).Run (Node.start filter flash) entries n)
    (life : ∀ entry ∈ entries, entry.input ≠ .boot) (shown : otaEndReply 1 ∈ seen NodeReport.bus? entries) :
    n.board.status = .reset ∧ ∃ first start rest chip msg,
      boardEntries falPartTable entries = first ++ start :: rest ∧ StartRequest start chip msg ∧
      (∀ step ∈ rest, Continues step) ∧
      (announcedSize msg.data).toNat ≤ (receivedImage rest).length ∧ (receivedImage rest).length ≤ downloadLen ∧
      n.board.flash.cells downloadStart (receivedImage rest).length = receivedImage rest ∧
      crc16 (receivedImage rest) = announcedCrc16 msg.data := by
  have board := board_run run
  obtain ⟨first, step, rest, whole, sent⟩ := answered run shown (by decide)
  have on : ∀ step ∈ boardEntries falPartTable entries, step.input ≠ .boot := by
    intro step member
    obtain ⟨entry, within, shown⟩ := List.mem_flatMap.mp member
    exact boardSteps_on (life entry within) step shown
  rw [whole] at board on
  obtain ⟨before, taken, later⟩ := board.reach
  obtain ⟨chip, msg, given⟩ := ended_dataRequest taken sent
  have outcome := given.outcome taken
  have reset : step.after.status = .reset := DataOutcome.reset outcome sent
  obtain rfl := reset_idle later reset fun other member => on other (by simp [member])
  rw [later.nil_eq]
  refine ⟨reset, ?_⟩
  have inForce := governed before
  unfold Governed at inForce
  split at inForce
  · exact absurd ((request_otaData given.2).symm.trans inForce.1) (by decide)
  · next start latest =>
    obtain ⟨first, rest, chip', ask, rfl, asked, session⟩ := lastStart_opens latest
    have continues : ∀ other ∈ rest ++ [step], Continues other := by
      intro other member
      rcases List.mem_append.mp member with earlier | last
      · exact session other earlier
      · rw [List.mem_singleton.mp last]
        exact continues_of_frame given.1 (by simp [given.2])
    have run' : (boardMachine falPartTable).Run (Board.boot flash) (first ++ start :: (rest ++ [step])) step.after := by
      rw [later.nil_eq] at board
      simpa using board
    obtain ⟨begun, started, received⟩ := run'.reach
    obtain ⟨blocks, receives, holds⟩ := session_receives received (asked.holds started (consistent begun).1) continues
    have image : receivedImage (rest ++ [step]) = blocks.flatten := by rw [receivedImage, receives.content]
    have length := holds.length
    refine ⟨first, start, rest ++ [step], chip', ask, by simpa using whole, asked, continues, ?_, ?_, ?_, ?_⟩
    · obtain ⟨_, _, reached, _⟩ := outcome.ended sent
      have inForce' := governed run'
      rw [Governed, lastStart_session first asked continues] at inForce'
      obtain ⟨_, other, start', _, announced⟩ := inForce'.announced
      obtain ⟨_, rfl⟩ := Event.frame.inj (asked.1.symm.trans start'.1)
      have reached := UInt32.le_iff_toNat_le.mp reached
      rw [image, length, ← holds.writeSize, ← announced]
      exact reached
    · rw [image, length]
      exact holds.fits
    · rw [image, length]
      exact holds.stored
    · exact ended_crc run' asked continues sent

theorem success_stored_update :
    ∃ entries n, updateRun = some (entries, n) ∧ n.board.status = .reset ∧ ∃ first start rest chip msg,
      boardEntries falPartTable entries = first ++ start :: rest ∧ StartRequest start chip msg ∧
      (∀ step ∈ rest, Continues step) ∧
      (announcedSize msg.data).toNat ≤ (receivedImage rest).length ∧ (receivedImage rest).length ≤ downloadLen ∧
      n.board.flash.cells downloadStart (receivedImage rest).length = receivedImage rest ∧
      crc16 (receivedImage rest) = announcedCrc16 msg.data := by
  have checked : updateRun.map (fun done => decide (otaEndReply 1 ∈ seen NodeReport.bus? done.1)) = some true := by
    decide +kernel
  obtain ⟨⟨entries, n⟩, done, shown⟩ := Option.map_eq_some_iff.mp checked
  exact ⟨entries, n, done, success_stored (Machine.exec_run done) (update_life done) (of_decide_eq_true shown)⟩

end DetectBoard.System
