import DetectBoard.System.Wire

/-! Once an OTA request has been handled, the tasks come to rest until the board restarts. -/

set_option autoImplicit false

namespace DetectBoard.System

open Library Flash Can Bubble Inform

variable {table : List FalPartition} {limits : Limits} {filter : Plate.MedianFilter ℚ} {n n' : Node}
  {entries rest : List NodeEntry} {entry : NodeEntry} {flash : Memory UInt8}

/-! ## The flags of the OTA request -/

/-- Of the frames, only an OTA request sets the flag. -/
theorem canRxHandle_flag (table : List FalPartition) (chip : FlashChip) (msg : RtCanMsg) (b : Board) :
    (canRxHandle table chip msg b).1.otaStartFlag =
      if request b.otaStartFlag msg = .otaAsk then 1 else b.otaStartFlag := by
  unfold canRxHandle
  cases request b.otaStartFlag msg with
  | heartbeat | rfSwitch | rgbSwitch | otaAsk | ignored => rfl
  | boardSwitch =>
    dsimp only
    split <;> rfl
  | otaData => exact (mainboardOtaDataRequest_outcome chip msg.frameId msg.data b).keeps.2.2.2.1

theorem suspension_ask {request : Request} : .setOtaStartFlag ∈ suspension request ↔ request = .otaAsk := by
  cases request <;> simp [suspension]

/-- The tasks read the flag of the handled frames, or it is still to be set. -/
structure FlagFollows (n : Node) : Prop where
  due : .setOtaStartFlag ∈ n.acting → n.board.otaStartFlag = 1
  same : .setOtaStartFlag ∉ n.acting → n.otaStartFlag = n.board.otaStartFlag

namespace FlagFollows

theorem handles (follows : FlagFollows n) (free : n.acting = []) (chip : FlashChip) (msg : RtCanMsg)
    (location : RxLocation) : FlagFollows { n with
      rx := { n.rx with location }
      board := (canRxHandle table chip msg n.board).1
      acting := (canRxHandle table chip msg n.board).2.map .action ++
        suspension (request n.board.otaStartFlag msg) } := by
  have before := follows.same (by simp [free])
  have due (actions : List Action) : .setOtaStartFlag ∈ actions.map Duty.action ++
      suspension (request n.board.otaStartFlag msg) ↔ request n.board.otaStartFlag msg = .otaAsk := by
    simp [suspension_ask]
  refine ⟨fun member => ?_, fun member => ?_⟩
  · exact (canRxHandle_flag table chip msg n.board).trans (if_pos ((due _).mp member))
  · rw [canRxHandle_flag, if_neg fun asked => member ((due _).mpr asked)]
    exact before

theorem passes (follows : FlagFollows n) {duty : Duty} {rest : List Duty} (acting : n.acting = duty :: rest)
    (other : duty ≠ .setOtaStartFlag) {b : Board} (flag : b.otaStartFlag = n.board.otaStartFlag) :
    (.setOtaStartFlag ∈ rest → b.otaStartFlag = 1) ∧ (.setOtaStartFlag ∉ rest → n.otaStartFlag = b.otaStartFlag) := by
  have kept : .setOtaStartFlag ∈ n.acting ↔ .setOtaStartFlag ∈ rest := by
    simp [acting, other.symm]
  rw [flag]
  exact ⟨fun member => follows.due (kept.mpr member), fun member => follows.same (kept.not.mpr member)⟩

theorem step (follows : FlagFollows n) {event : NodeEvent} {reports : List NodeReport}
    (steps : NodeSteps table limits filter n event n' reports) : FlagFollows n' := by
  cases steps with
  | boots => exact ⟨fun member => absurd member List.not_mem_nil, fun _ => rfl⟩
  | handles running free here => exact follows.handles free _ _ _
  | flags acting =>
    have set := follows.due (by simp [acting])
    exact ⟨fun _ => set, fun _ => set.symm⟩
  | stops acting | sends acting | empties acting | restarts acting | passes acting =>
    obtain ⟨due, same⟩ := follows.passes acting nofun rfl
    exact ⟨due, same⟩
  | timesOut =>
    refine ⟨fun member => ?_, fun member => ?_⟩
    · dsimp only
      split <;> exact follows.due member
    · dsimp only
      split <;> exact follows.same member
  | _ => exact ⟨follows.due, follows.same⟩

end FlagFollows

/-! ## The inform timer -/

/-- `can_tx_thread`, which starts the inform timer, starts before any request comes to be handled. -/
def Node.startsEarly (n : Node) : NodeEvent → Bool
  | .txStart => n.board.otaStartFlag = 0
  | _ => true

/-- No request has been handled while the inform timer runs, or it is about to be stopped. -/
def TimerQuiet (n : Node) : Prop :=
  n.informTimer = true → n.otaStartFlag = 0 ∧ (n.board.otaStartFlag = 0 ∨
    ∃ actions : List Action, n.acting = actions.map .action ++ [.stopInformTimer, .setOtaStartFlag])

theorem TimerQuiet.acts (quiet : TimerQuiet n) {action : Action} {rest : List Duty}
    (acting : n.acting = .action action :: rest) (runs : n.informTimer = true) :
    n.otaStartFlag = 0 ∧ (n.board.otaStartFlag = 0 ∨
      ∃ actions : List Action, rest = actions.map .action ++ [.stopInformTimer, .setOtaStartFlag]) := by
  obtain ⟨flag, unasked | ⟨actions, whole⟩⟩ := quiet runs
  · exact ⟨flag, .inl unasked⟩
  · refine ⟨flag, .inr ?_⟩
    rw [acting] at whole
    cases actions with
    | nil => cases whole
    | cons first later => exact ⟨later, (List.cons.inj whole).2⟩

theorem TimerQuiet.handles (quiet : TimerQuiet n) (free : n.acting = []) (chip : FlashChip) (msg : RtCanMsg)
    (runs : n.informTimer = true) :
    n.otaStartFlag = 0 ∧ ((canRxHandle table chip msg n.board).1.otaStartFlag = 0 ∨
      ∃ actions : List Action, (canRxHandle table chip msg n.board).2.map Duty.action ++
        suspension (request n.board.otaStartFlag msg) =
          actions.map .action ++ [.stopInformTimer, .setOtaStartFlag]) := by
  obtain ⟨flag, unasked | ⟨actions, whole⟩⟩ := quiet runs
  · refine ⟨flag, ?_⟩
    rw [canRxHandle_flag]
    by_cases asked : request n.board.otaStartFlag msg = .otaAsk
    · exact .inr ⟨_, by rw [asked]; rfl⟩
    · exact .inl (by rw [if_neg asked, unasked])
  · rw [free] at whole
    cases actions <;> cases whole

theorem TimerQuiet.step (quiet : TimerQuiet n) (follows : FlagFollows n) {event : NodeEvent}
    {reports : List NodeReport} (steps : NodeSteps table limits filter n event n' reports)
    (early : event = .txStart → n.board.otaStartFlag = 0) : TimerQuiet n' := by
  cases steps with
  | boots | stops => exact nofun
  | handles running free here => exact quiet.handles free _ _
  | flags acting =>
    intro runs
    have set := follows.due (by simp [acting])
    obtain ⟨_, unasked | ⟨actions, whole⟩⟩ := quiet runs
    · exact absurd (set.symm.trans unasked) (by decide)
    · rw [acting] at whole
      cases actions <;> cases whole
  | sends acting | empties acting | restarts acting | passes acting => exact quiet.acts acting
  | timesOut =>
    intro runs
    dsimp only
    split <;> exact quiet runs
  | starts first =>
    have unasked := early rfl
    have unset : .setOtaStartFlag ∉ n.acting := fun due =>
      absurd ((follows.due due).symm.trans unasked) (by decide)
    exact fun _ => ⟨(follows.same unset).trans unasked, .inl unasked⟩
  | _ => exact quiet

theorem timer_quiet (run : (nodeMachine table limits filter).Run (Node.start filter flash) entries n)
    (early : ∀ entry ∈ entries, entry.before.startsEarly entry.input = true) : TimerQuiet n := by
  have start : FlagFollows (Node.start filter flash) := ⟨fun member => absurd member List.not_mem_nil, fun _ => rfl⟩
  refine (run.invariant (fun n => FlagFollows n ∧ TimerQuiet n) ⟨start, nofun⟩ ?_).1.2
  rintro entry member taken ⟨follows, quiet⟩
  have steps := nodeMachine_steps taken
  refine ⟨follows.step steps, quiet.step follows steps fun starts => ?_⟩
  simpa [Node.startsEarly, starts] using early entry member

/-! ## What the tasks still send -/

/-- The steps of `lcr_task_thread`. -/
def NodeEvent.ofPlate : NodeEvent → Bool
  | .lcrTop | .lcrCall _ | .lcr => true
  | _ => false

/-- The steps of `BD_thread_entry`. -/
def NodeEvent.ofBubble : NodeEvent → Bool
  | .bdTop | .bdWindow _ | .bdSample | .bdCompare | .bdCommit => true
  | _ => false

/-- What a step sends, if it is one of a task. -/
def stepOffers (task : NodeEvent → Bool) (entry : NodeEntry) : List RtCanMsg :=
  if task entry.input then entry.output.filterMap NodeReport.offered? else []

/-- The frames of a task. -/
def taskOffers (task : NodeEvent → Bool) (entries : List NodeEntry) : List RtCanMsg := entries.flatMap (stepOffers task)

/-- Whether the plate task is in a measurement. -/
def LcrLoop.unfinished : LcrLoop → ℕ
  | .top => 0
  | .measuring | .judging => 1

/-- Whether the bubble task has still to compare its count. -/
def BdLoop.unfinished : BdLoop → ℕ
  | .top | .deciding => 0
  | .first | .counting | .second => 1

theorem LcrLoop.unfinished_le (loop : LcrLoop) : loop.unfinished ≤ 1 := by cases loop <;> decide

theorem BdLoop.unfinished_le (loop : BdLoop) : loop.unfinished ≤ 1 := by cases loop <;> decide

theorem silent_informStep {s s' : InformState} {event : InformEvent} {msgs : List RtCanMsg}
    (taken : informStep limits s event = some (s', msgs)) (lcr : event ≠ .lcr) (timer : event ≠ .timer) :
    msgs = [] :=
  (informStep_frames taken).resolve_right fun ⟨sender, _⟩ => sender.elim timer fun judged => lcr judged.1

/-- A frame of the plate task uses up what the task has left to do. -/
theorem plate_offers (taken : (nodeMachine table limits filter).Takes entry) (on : entry.input ≠ .boot)
    (ota : entry.before.otaStartFlag ≠ 0) :
    (stepOffers NodeEvent.ofPlate entry).length + entry.after.lcrLoop.unfinished ≤ entry.before.lcrLoop.unfinished := by
  obtain ⟨n, event, n', reports⟩ := entry
  have steps : NodeSteps table limits filter n event n' reports := nodeMachine_steps taken
  cases steps with
  | boots => exact absurd rfl on
  | passesGate top switch open' => exact absurd open' ota
  | staysOut top => simp [stepOffers, NodeEvent.ofPlate, top]
  | calls measuring called =>
    rw [stepOffers, NodeEvent.ofPlate, if_pos rfl, (filterMap_offered _).2, silent_informStep called nofun nofun,
      measuring]
    exact (Nat.zero_add _).trans_le (LcrLoop.unfinished_le _)
  | judges judging judged =>
    rw [stepOffers, NodeEvent.ofPlate, if_pos rfl, (filterMap_offered _).2, judging]
    rcases informStep_frames judged with rfl | ⟨timer | last, _, rfl⟩
    · exact (Nat.zero_add _).trans_le (LcrLoop.unfinished_le _)
    · cases timer
    · rw [if_pos last.2]
      exact le_refl 1
  | _ => exact (Nat.zero_add _).le

/-- An alarm uses up what the bubble task has left to do. -/
theorem bubble_offers (taken : (nodeMachine table limits filter).Takes entry) (on : entry.input ≠ .boot)
    (ota : entry.before.otaStartFlag ≠ 0) :
    (stepOffers NodeEvent.ofBubble entry).length + entry.after.bdLoop.unfinished ≤ entry.before.bdLoop.unfinished := by
  obtain ⟨n, event, n', reports⟩ := entry
  have steps : NodeSteps table limits filter n event n' reports := nodeMachine_steps taken
  cases steps with
  | boots => exact absurd rfl on
  | passesBdGate top open' => exact absurd open' ota
  | staysBdOut top => simp [stepOffers, NodeEvent.ofBubble, top]
  | clears first cleared =>
    rw [stepOffers, NodeEvent.ofBubble, if_pos rfl, (filterMap_offered _).2, silent_informStep cleared nofun nofun,
      first]
    exact (Nat.zero_add _).trans_le (BdLoop.unfinished_le _)
  | counts counting counted =>
    rw [stepOffers, NodeEvent.ofBubble, if_pos rfl, (filterMap_offered _).2, silent_informStep counted nofun nofun,
      counting]
    exact (Nat.zero_add _).trans_le (BdLoop.unfinished_le _)
  | compares second compared =>
    rw [second]
    cases linkStep_steps compared with
    | passes idle decided =>
      simp only [stepOffers, decided, idle]
      exact (Nat.zero_add _).trans_le (BdLoop.unfinished_le .top)
    | decides idle decided =>
      simp only [stepOffers, decided]
      exact le_refl 1
  | commits deciding => simp [stepOffers, BdLoop.unfinished, deciding]
  | _ => exact (Nat.zero_add _).le

theorem otaStartFlag_step {event : NodeEvent} {reports : List NodeReport} (ota : n.otaStartFlag ≠ 0)
    (steps : NodeSteps table limits filter n event n' reports) (on : event ≠ .boot) : n'.otaStartFlag ≠ 0 := by
  cases steps with
  | boots => exact absurd rfl on
  | flags => exact (by decide : (1 : UInt8) ≠ 0)
  | _ => exact ota

theorem otaStartFlag_run (ota : n.otaStartFlag ≠ 0) (later : (nodeMachine table limits filter).Run n rest n')
    (life : ∀ entry ∈ rest, entry.input ≠ .boot) : n'.otaStartFlag ≠ 0 :=
  (later.invariant (fun n => n.otaStartFlag ≠ 0) ota fun entry member taken before =>
    otaStartFlag_step before (nodeMachine_steps taken) (life entry member)).1

/-- A task whose frames use up its work sends no more than the work that it has, since the flag stays. -/
theorem run_offers (task : NodeEvent → Bool) (work : Node → ℕ)
    (uses : ∀ {entry}, (nodeMachine table limits filter).Takes entry → entry.input ≠ .boot →
      entry.before.otaStartFlag ≠ 0 → (stepOffers task entry).length + work entry.after ≤ work entry.before)
    (ota : n.otaStartFlag ≠ 0) (later : (nodeMachine table limits filter).Run n rest n')
    (life : ∀ entry ∈ rest, entry.input ≠ .boot) : (taskOffers task rest).length + work n' ≤ work n := by
  induction later with
  | nil => exact (Nat.zero_add _).le
  | @snoc earlier entry begun taken ih =>
    have alive : ∀ other ∈ earlier, other.input ≠ .boot :=
      fun other member => life other (List.mem_append_left _ member)
    have sent := ih alive
    have step := uses taken (life entry (by simp)) (otaStartFlag_run ota begun alive)
    rw [taskOffers, List.flatMap_append, List.flatMap_singleton, List.length_append]
    rw [taskOffers] at sent
    omega

theorem no_inform (run : (nodeMachine table limits filter).Run (Node.start filter flash) (entries ++ rest) n')
    (ota : n.otaStartFlag ≠ 0) (later : (nodeMachine table limits filter).Run n rest n')
    (life : ∀ entry ∈ rest, entry.input ≠ .boot)
    (early : ∀ entry ∈ entries ++ rest, entry.before.startsEarly entry.input = true) :
    ∀ entry ∈ rest, entry.input ≠ .informTimer := by
  intro entry member informs
  obtain ⟨earlier, after, rfl⟩ := List.append_of_mem member
  rw [← List.append_assoc] at run early
  obtain ⟨reached, taken, _⟩ := run.reach
  have quiet := timer_quiet reached fun other among => early other (List.mem_append_left _ among)
  obtain ⟨begun, _, _⟩ := later.reach
  have flag := otaStartFlag_run ota begun fun other among => life other (List.mem_append_left _ among)
  obtain ⟨before, event, next, reports⟩ := entry
  obtain rfl : event = .informTimer := informs
  have steps : NodeSteps table limits filter before .informTimer next reports := nodeMachine_steps taken
  cases steps with
  | informs armed => exact flag (quiet armed).1

/-- From an OTA request to the restart, the plate task sends no more than the frame of the measurement that it is in
and the bubble task no more than the alarm of the window that it is in. The inform timer sends nothing, as long as
`can_tx_thread` had started it before any request came to be handled. -/
theorem suspended (run : (nodeMachine table limits filter).Run (Node.start filter flash) entries n)
    (ota : n.otaStartFlag ≠ 0) (later : (nodeMachine table limits filter).Run n rest n')
    (life : ∀ entry ∈ rest, entry.input ≠ .boot) :
    (taskOffers NodeEvent.ofPlate rest).length + n'.lcrLoop.unfinished ≤ n.lcrLoop.unfinished ∧
      (taskOffers NodeEvent.ofBubble rest).length + n'.bdLoop.unfinished ≤ n.bdLoop.unfinished ∧
      n.lcrLoop.unfinished ≤ 1 ∧ n.bdLoop.unfinished ≤ 1 ∧
      ((∀ entry ∈ entries ++ rest, entry.before.startsEarly entry.input = true) →
        ∀ entry ∈ rest, entry.input ≠ .informTimer) :=
  ⟨run_offers NodeEvent.ofPlate (fun n => n.lcrLoop.unfinished) plate_offers ota later life,
    run_offers NodeEvent.ofBubble (fun n => n.bdLoop.unfinished) bubble_offers ota later life,
    n.lcrLoop.unfinished_le, n.bdLoop.unfinished_le, no_inform (run.append later) ota later life⟩

/-- Both tasks have passed their gates when the request comes. -/
def requestInputs : List NodeEvent :=
  List.flatten
    [.replicate 3 (.rxThread .ideal),
      [.txStart, .informTimer, .lcrTop, .bdTop, .interrupt ⟨otaAskFrame (frameData [0, 1, 0xB0, 0xCF, 0, 0, 0, 8]), 0⟩],
      .replicate 3 (.rxThread .ideal), .replicate 6 .act]

def requestRun : Option (List NodeEntry × Node) :=
  (nodeMachine falPartTable bdLimits Plate.clearedFilter).exec (.start Plate.clearedFilter fun _ => 0xFF) requestInputs

/-- A request that is handled before `can_tx_thread` has started leaves the inform timer running. -/
example : ((nodeMachine falPartTable bdLimits Plate.clearedFilter).exec (.start Plate.clearedFilter fun _ => 0xFF)
    (.replicate 3 (.rxThread .ideal) ++
      [.interrupt ⟨otaAskFrame (frameData [0, 1, 0xB0, 0xCF, 0, 0, 0, 8]), 0⟩] ++ .replicate 3 (.rxThread .ideal) ++
      .replicate 6 .act ++ [.txStart, .informTimer])).map (fun done => (done.2.otaStartFlag, done.2.informTimer)) =
    some (1, true) := by
  decide +kernel

/-- What the plate task does after the request. -/
def lastMeasurement (n : Node) : Option (List NodeEntry × Node) :=
  (nodeMachine falPartTable bdLimits Plate.clearedFilter).exec n (.lcrCall 80 :: .replicate 5 .lcr)

theorem suspended_update : ∃ entries n rest n', requestRun = some (entries, n) ∧ lastMeasurement n = some (rest, n') ∧
    (taskOffers NodeEvent.ofPlate rest).length = 1 ∧
    (taskOffers NodeEvent.ofPlate rest).length + n'.lcrLoop.unfinished ≤ n.lcrLoop.unfinished ∧
    (taskOffers NodeEvent.ofBubble rest).length + n'.bdLoop.unfinished ≤ n.bdLoop.unfinished ∧
    ∀ entry ∈ rest, entry.input ≠ .informTimer := by
  have checked : requestRun.bind (fun done => (lastMeasurement done.2).map fun last =>
      decide (done.2.otaStartFlag ≠ 0 ∧ (taskOffers NodeEvent.ofPlate last.1).length = 1 ∧
        ∀ entry ∈ done.1 ++ last.1, entry.before.startsEarly entry.input = true)) = some true := by
    decide +kernel
  obtain ⟨⟨entries, n⟩, done, later⟩ := Option.bind_eq_some_iff.mp checked
  obtain ⟨⟨rest, n'⟩, last, whole⟩ := Option.map_eq_some_iff.mp later
  obtain ⟨flag, single, early⟩ := of_decide_eq_true whole
  have life : ∀ entry ∈ rest, entry.input ≠ .boot := by
    intro entry member boot
    have among := Machine.exec_input_mem last entry member
    simp [boot] at among
  obtain ⟨plate, bubble, _, _, silent⟩ := suspended (Machine.exec_run done) flag (Machine.exec_run last) life
  exact ⟨entries, n, rest, n', done, last, single, plate, bubble, silent early⟩

end DetectBoard.System
