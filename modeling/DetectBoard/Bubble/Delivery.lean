import DetectBoard.Library.BoundedQueue
import DetectBoard.Bubble.Detection

/-! The way of a bubble alarm from `BD_thread_entry` through `can_tx_mq` and `can_tx_thread` to the bus. -/

set_option autoImplicit false

namespace DetectBoard.Bubble

open Library Can

/-- The capacity that `user_can_resoure_init` gives `can_tx_mq`. -/
abbrev canTxMqSize : ℕ := 50

/-- Each call of the queue is one step here. In the kernel it has parts, and does the same where nothing comes between
them; while `can_tx_thread` still holds the block of a frame, the kernel refuses at 49 frames. -/
abbrev CanTxMq := BoundedQueue RtCanMsg canTxMqSize

/-- `rt_mq_send`, whose result no sender looks at: a full queue stays as it is. -/
def rtMqSend (mq : CanTxMq) (msg : RtCanMsg) : CanTxMq := (mq.send msg).getD mq

/-- The frames of all other senders. -/
inductive OtherFrame where
  | inform (negState zerocount : UInt8) (cap : UInt32)
  | handshake
  | otaStartReply (otaContinue : UInt8)
  | otaDataReply (otaDataOk : UInt8) (frameid : UInt16)
  | otaEndReply (otaOk : UInt8)
  deriving DecidableEq, Repr

def OtherFrame.msg : OtherFrame → RtCanMsg
  | .inform negState zerocount cap => monitorBoardInformInfo negState zerocount cap
  | .handshake => monitorBoardHandshake
  | .otaStartReply otaContinue => Can.otaStartReply otaContinue
  | .otaDataReply otaDataOk frameid => otaDataBlockReply otaDataOk frameid
  | .otaEndReply otaOk => Can.otaEndReply otaOk

structure AlarmLink where
  bdErrorSendflag : UInt8
  /-- The flag that `BD_thread_entry` is about to assign, after it has sent its frame. -/
  deciding : Option UInt8
  canTxMq : CanTxMq
  /-- `msg_can` of `can_tx_thread`, from `rt_mq_recv` to `rt_device_write`. -/
  msgCan : Option RtCanMsg

def AlarmLink.start : AlarmLink := ⟨0, none, .empty, none⟩

inductive LinkEvent where
  /-- `BD_thread_entry` compares the count, and sends a frame where it has to. -/
  | compare (bubbleSensorZerocount : UInt8)
  /-- `BD_thread_entry` assigns its flag. -/
  | commit
  | send (other : OtherFrame)
  /-- `can_rx_thread` handles an RF switch frame. -/
  | rfSwitch (rfSwitch : UInt8)
  /-- `can_tx_thread` takes the head of the queue. -/
  | recv
  /-- `can_tx_thread` has written its frame, or failed to. -/
  | write (size : ℕ)
  deriving DecidableEq, Repr

def linkStep (link : AlarmLink) : LinkEvent → Option (AlarmLink × List RtCanMsg)
  | .compare bubbleSensorZerocount =>
    match link.deciding with
    | some _ => none
    | none =>
      match bdDecision bubbleSensorZerocount link.bdErrorSendflag with
      | none => some (link, [])
      | some flag =>
        let canTxMq := rtMqSend link.canTxMq (generateError flag bdError)
        some ({ link with deciding := some flag, canTxMq := canTxMq }, [])
  | .commit => link.deciding.map fun flag => ({ link with bdErrorSendflag := flag, deciding := none }, [])
  | .send other => some ({ link with canTxMq := rtMqSend link.canTxMq other.msg }, [])
  | .rfSwitch rfSwitch => some (if rfSwitch ≠ 0 then { link with canTxMq := .empty } else link, [])
  | .recv =>
    match link.msgCan with
    | some _ => none
    | none => link.canTxMq.receive.map fun taken =>
        ({ link with canTxMq := taken.2, msgCan := some taken.1 }, [])
  | .write size => link.msgCan.map fun msg =>
      if size = 0 then ({ link with canTxMq := .empty, msgCan := none }, [])
      else ({ link with msgCan := none }, [msg])

def linkMachine : Machine AlarmLink LinkEvent (List RtCanMsg) := ⟨linkStep⟩

abbrev LinkEntry := Entry AlarmLink LinkEvent (List RtCanMsg)

/-- All that a step can do. -/
inductive LinkSteps (link : AlarmLink) : LinkEvent → AlarmLink → List RtCanMsg → Prop where
  | passes {zerocount : UInt8} (idle : link.deciding = none)
      (decided : bdDecision zerocount link.bdErrorSendflag = none) :
      LinkSteps link (.compare zerocount) link []
  | decides {zerocount flag : UInt8} (idle : link.deciding = none)
      (decided : bdDecision zerocount link.bdErrorSendflag = some flag) :
      LinkSteps link (.compare zerocount)
        ⟨link.bdErrorSendflag, some flag, rtMqSend link.canTxMq (generateError flag bdError), link.msgCan⟩ []
  | commits {flag : UInt8} (deciding : link.deciding = some flag) :
      LinkSteps link .commit ⟨flag, none, link.canTxMq, link.msgCan⟩ []
  | sends (other : OtherFrame) :
      LinkSteps link (.send other)
        ⟨link.bdErrorSendflag, link.deciding, rtMqSend link.canTxMq other.msg, link.msgCan⟩ []
  | closes : LinkSteps link (.rfSwitch 0) link []
  | opens {rfSwitch : UInt8} (opened : rfSwitch ≠ 0) :
      LinkSteps link (.rfSwitch rfSwitch) ⟨link.bdErrorSendflag, link.deciding, .empty, link.msgCan⟩ []
  | takes {msg : RtCanMsg} {rest : CanTxMq} (free : link.msgCan = none)
      (received : link.canTxMq.receive = some (msg, rest)) :
      LinkSteps link .recv ⟨link.bdErrorSendflag, link.deciding, rest, some msg⟩ []
  | writes {msg : RtCanMsg} {size : ℕ} (held : link.msgCan = some msg) (sent : size ≠ 0) :
      LinkSteps link (.write size) ⟨link.bdErrorSendflag, link.deciding, link.canTxMq, none⟩ [msg]
  | fails {msg : RtCanMsg} (held : link.msgCan = some msg) :
      LinkSteps link (.write 0) ⟨link.bdErrorSendflag, link.deciding, .empty, none⟩ []

theorem linkMachine_steps {entry : LinkEntry} (taken : linkMachine.Takes entry) :
    LinkSteps entry.before entry.input entry.after entry.output := by
  obtain ⟨⟨bdErrorSendflag, deciding, canTxMq, msgCan⟩, input, after, output⟩ := entry
  change linkStep ⟨bdErrorSendflag, deciding, canTxMq, msgCan⟩ input = some (after, output) at taken
  cases input with
  | compare zerocount =>
    cases deciding with
    | some _ => cases taken
    | none =>
      cases decided : bdDecision zerocount bdErrorSendflag with
      | none =>
        simp only [linkStep, decided] at taken
        cases taken
        exact .passes rfl decided
      | some next =>
        simp only [linkStep, decided] at taken
        cases taken
        exact .decides rfl decided
  | commit =>
    cases deciding with
    | none => cases taken
    | some next =>
      cases taken
      exact .commits rfl
  | send other =>
    cases taken
    exact .sends other
  | rfSwitch rfSwitch =>
    simp only [linkStep] at taken
    split at taken
    · next opened =>
      cases taken
      exact .opens opened
    · next closed =>
      cases taken
      obtain rfl := not_ne_iff.mp closed
      exact .closes
  | recv =>
    cases msgCan with
    | some _ => cases taken
    | none =>
      obtain ⟨⟨msg, rest⟩, received, same⟩ := Option.map_eq_some_iff.mp taken
      cases same
      exact .takes rfl received
  | write size =>
    cases msgCan with
    | none => cases taken
    | some msg =>
      simp only [linkStep, Option.map_some] at taken
      split at taken
      · next failed =>
        cases taken
        subst failed
        exact .fails rfl
      · next sent =>
        cases taken
        exact .writes rfl sent

/-! ## What the main board sees -/

/-- The flag byte of a `BD_ERROR` frame. -/
def bdFlag (msg : RtCanMsg) : Option UInt8 :=
  match msg.data.toList with
  | flag :: _ :: high :: low :: _ =>
    if msg.id = canIdGenByReg canIdMonitorBoardErrorInfo ∧ high = (bdError >>> 8).toUInt8 ∧
      low = bdError.toUInt8 then some flag else none
  | _ => none

@[simp] theorem bdFlag_generateError (flag : UInt8) : bdFlag (generateError flag bdError) = some flag := by
  simp [bdFlag, generateError, errorCodeInfo, extendedFrame]

theorem bdFlag_id {msg : RtCanMsg} (other : msg.id ≠ canIdGenByReg canIdMonitorBoardErrorInfo) :
    bdFlag msg = none := by
  unfold bdFlag
  split
  · exact if_neg fun same => other same.1
  · rfl

@[simp] theorem bdFlag_other (other : OtherFrame) : bdFlag other.msg = none := by
  apply bdFlag_id
  -- the registers of the other frames differ
  have inform : canIdGenByReg canIdMonitorBoardInformInfo ≠ canIdGenByReg canIdMonitorBoardErrorInfo := by
    decide
  have handshake : canIdGenByReg canIdMonitorBoardHandshakeInfo ≠
    canIdGenByReg canIdMonitorBoardErrorInfo := by decide
  have started : canIdGenByReg canIdHandtoolOtaStartReply ≠
    canIdGenByReg canIdMonitorBoardErrorInfo := by decide
  have ended : canIdGenByReg canIdHandtoolOtaEndReply ≠
    canIdGenByReg canIdMonitorBoardErrorInfo := by decide
  cases other with
  | inform negState zerocount cap => exact inform
  | handshake => exact handshake
  | otaStartReply otaContinue => exact started
  | otaEndReply otaOk => exact ended
  | otaDataReply otaDataOk frameid =>
    -- a data reply is of another message class
    intro same
    have marked := otaDataBlockReply_class otaDataOk frameid
    rw [RtCanMsg.messageClass, show (otaDataBlockReply otaDataOk frameid).id = _ from same] at marked
    exact absurd marked (by decide)

def transmitted (entries : List LinkEntry) : List RtCanMsg := entries.flatMap Entry.output

/-- The flag byte of the last of these frames that is a `BD_ERROR` frame. -/
def lastFlag (frames : List RtCanMsg) : UInt8 := latest bdFlag 0 frames

/-- All frames that were transmitted, are held or wait, in their order. -/
def line (entries : List LinkEntry) (link : AlarmLink) : List RtCanMsg :=
  transmitted entries ++ link.msgCan.toList ++ link.canTxMq.entries

/-- No `BD_ERROR` frame is on its way, and the bubble task is between decisions. -/
def AlarmLink.Quiet (link : AlarmLink) : Prop :=
  link.deciding = none ∧ ∀ msg ∈ link.msgCan.toList ++ link.canTxMq.entries, bdFlag msg = none

/-- A step at which no alarm is lost. The queue may only be dropped when the line ends with the same
flag without the dropped frames. -/
def Keeps (entries : List LinkEntry) (entry : LinkEntry) : Prop :=
  match entry.input with
  | .compare zerocount => (bdDecision zerocount entry.before.bdErrorSendflag).isSome →
      entry.before.canTxMq.entries.length < canTxMqSize
  | .rfSwitch rfSwitch => rfSwitch ≠ 0 →
      lastFlag (transmitted entries ++ entry.before.msgCan.toList) = lastFlag (line entries entry.before)
  | .write size => size = 0 → lastFlag (transmitted entries) = lastFlag (line entries entry.before)
  | _ => True

instance (entries : List LinkEntry) (entry : LinkEntry) : Decidable (Keeps entries entry) :=
  match entry with
  | ⟨_, .compare _, _, _⟩ => inferInstanceAs (Decidable (_ = _ → _ < _))
  | ⟨_, .rfSwitch _, _, _⟩ => inferInstanceAs (Decidable (_ ≠ _ → _ = _))
  | ⟨_, .write _, _, _⟩ => inferInstanceAs (Decidable (_ = _ → _ = _))
  | ⟨_, .commit, _, _⟩ => .isTrue trivial
  | ⟨_, .send _, _, _⟩ => .isTrue trivial
  | ⟨_, .recv, _, _⟩ => .isTrue trivial

/-! ## The line of frames ends with the flag of the bubble task -/

theorem rtMqSend_room {mq : CanTxMq} (room : mq.entries.length < canTxMqSize) (msg : RtCanMsg) :
    (rtMqSend mq msg).entries = mq.entries ++ [msg] := by
  obtain ⟨sent, fits, entries⟩ := BoundedQueue.send_room room msg
  rw [rtMqSend, fits, Option.getD_some, entries]

theorem rtMqSend_other (frames : List RtCanMsg) (mq : CanTxMq) (other : OtherFrame) :
    lastFlag (frames ++ (rtMqSend mq other.msg).entries) = lastFlag (frames ++ mq.entries) := by
  by_cases room : mq.entries.length < canTxMqSize
  · rw [rtMqSend_room room, ← List.append_assoc, lastFlag, lastFlag]
    exact latest_skip _ (by simp)
  · rw [rtMqSend, BoundedQueue.send_full room, Option.getD_none]

/-- The flag that the bubble task has, or is about to assign, and the line that leads to it. -/
structure InLine (entries : List LinkEntry) (link : AlarmLink) : Prop where
  flag : lastFlag (line entries link) = link.deciding.getD link.bdErrorSendflag
  turn : ∀ flag, link.deciding = some flag → flag ≠ link.bdErrorSendflag

section Step

variable {pre : List LinkEntry} {entry : LinkEntry}

theorem bdDecision_turns {zerocount bdErrorSendflag flag : UInt8}
    (decided : bdDecision zerocount bdErrorSendflag = some flag) : flag ≠ bdErrorSendflag := by
  unfold bdDecision at decided
  split at decided
  · next clear =>
    cases decided
    rw [clear.2]
    decide
  · split at decided
    · next set =>
      cases decided
      rw [set.2]
      decide
    · cases decided

theorem line_snoc (entries : List LinkEntry) (entry : LinkEntry) :
    line (entries ++ [entry]) entry.after = transmitted entries ++ entry.output ++
      entry.after.msgCan.toList ++ entry.after.canTxMq.entries := by
  rw [line, transmitted, List.flatMap_append, List.flatMap_singleton, transmitted]

theorem InLine.start : InLine [] .start := ⟨rfl, fun _ pending => by cases pending⟩

/-- A step leaves the line ending with the flag if and only if it keeps the alarm. -/
theorem InLine.flag_iff (inLine : InLine pre entry.before) (taken : linkMachine.Takes entry) :
    lastFlag (line (pre ++ [entry]) entry.after) =
      entry.after.deciding.getD entry.after.bdErrorSendflag ↔ Keeps pre entry := by
  have steps := linkMachine_steps taken
  have flag := inLine.flag
  rw [line_snoc]
  obtain ⟨link, input, after, output⟩ := entry
  dsimp only at steps flag ⊢
  cases steps with
  | passes idle decided =>
    rw [List.append_nil]
    exact iff_of_true flag fun sends => absurd sends (by simp [decided])
  | @decides zerocount next idle decided =>
    rw [idle, Option.getD_none] at flag
    have turned := bdDecision_turns decided
    rw [List.append_nil, Option.getD_some]
    by_cases room : link.canTxMq.entries.length < canTxMqSize
    · -- the frame takes the end of the line, and its flag is the next to be assigned
      rw [rtMqSend_room room, ← List.append_assoc, lastFlag, latest_snoc, bdFlag_generateError]
      exact iff_of_true rfl fun _ => room
    · -- a rejected frame leaves the old flag at the end
      have rejected : rtMqSend link.canTxMq (generateError next bdError) = link.canTxMq := by
        rw [rtMqSend, BoundedQueue.send_full room, Option.getD_none]
      rw [rejected]
      exact iff_of_false (fun same => turned (same.symm.trans flag)) fun keeps =>
        room (keeps (by simp [decided]))
  | commits deciding =>
    rw [deciding] at flag
    rw [List.append_nil]
    exact iff_of_true flag trivial
  | sends other =>
    rw [List.append_nil, rtMqSend_other]
    exact iff_of_true flag trivial
  | closes =>
    rw [List.append_nil]
    exact iff_of_true flag fun opened => absurd rfl opened
  | opens opened =>
    -- the queue was the end of the line
    rw [← flag, List.append_nil, BoundedQueue.empty_entries, List.append_nil]
    exact ⟨fun same _ => same, fun keeps => keeps opened⟩
  | takes free received =>
    -- the head of the queue is held now, at the same place of the line
    rw [line, free, BoundedQueue.receive_entries received] at flag
    refine iff_of_true ?_ trivial
    simpa using flag
  | writes held sent =>
    rw [line, held] at flag
    refine iff_of_true ?_ fun failed => absurd failed sent
    simpa using flag
  | fails held =>
    -- only what was transmitted is left of the line
    rw [← flag, List.append_nil, Option.toList_none, List.append_nil, BoundedQueue.empty_entries,
      List.append_nil]
    exact ⟨fun same _ => same, fun keeps => keeps rfl⟩

/-- A decision turns the flag. -/
theorem InLine.turns (inLine : InLine pre entry.before) (taken : linkMachine.Takes entry) :
    ∀ flag, entry.after.deciding = some flag → flag ≠ entry.after.bdErrorSendflag := by
  have steps := linkMachine_steps taken
  have turn := inLine.turn
  obtain ⟨link, input, after, output⟩ := entry
  dsimp only at steps turn ⊢
  cases steps with
  | decides idle decided =>
    rintro _ ⟨⟩
    exact bdDecision_turns decided
  | commits deciding => rintro _ ⟨⟩
  | passes idle decided => exact turn
  | sends other => exact turn
  | closes => exact turn
  | opens opened => exact turn
  | takes free received => exact turn
  | writes held sent => exact turn
  | fails held => exact turn

theorem InLine.step (inLine : InLine pre entry.before) (taken : linkMachine.Takes entry)
    (keeps : Keeps pre entry) : InLine (pre ++ [entry]) entry.after := by
  exact ⟨(inLine.flag_iff taken).mpr keeps, inLine.turns taken⟩

end Step

theorem line_quiet {entries : List LinkEntry} {link : AlarmLink} (quiet : link.Quiet) :
    lastFlag (line entries link) = lastFlag (transmitted entries) := by
  rw [line, List.append_assoc, lastFlag, lastFlag]
  exact latest_skip _ quiet.2

theorem InLine.run {base entries : List LinkEntry} {start link : AlarmLink} (inLine : InLine base start)
    (run : linkMachine.Run start entries link)
    (keeps : Along (fun pre entry => Keeps (base ++ pre) entry) entries) : InLine (base ++ entries) link := by
  refine run.history (fun entries link => Along (fun pre entry => Keeps (base ++ pre) entry) entries →
    InLine (base ++ entries) link) (fun _ => by rwa [List.append_nil])
    (fun pre entry _ taken before keeps => ?_) keeps
  obtain ⟨earlier, here⟩ := Along.snoc_iff.mp keeps
  rw [← List.append_assoc]
  exact (before earlier).step taken here

/-- As long as every step keeps the alarm, the main board sees the flag of the bubble task whenever
no alarm is on its way. -/
theorem bubble_alarm_delivered {entries : List LinkEntry} {link : AlarmLink}
    (run : linkMachine.Run .start entries link) (keeps : Along Keeps entries) (quiet : link.Quiet) :
    link.bdErrorSendflag = lastFlag (transmitted entries) := by
  have inLine := InLine.start.run run keeps
  have flag := inLine.flag
  rw [List.nil_append, line_quiet quiet, quiet.1] at flag
  exact flag.symm

theorem bubble_alarm_delivered_set :
    ∃ entries link, linkMachine.exec .start [.compare 32, .commit, .recv, .write 1, .send .handshake, .rfSwitch 1] =
      some (entries, link) ∧ lastFlag (transmitted entries) = set ∧
        link.bdErrorSendflag = lastFlag (transmitted entries) := by
  have done : linkMachine.exec .start [.compare 32, .commit, .recv, .write 1, .send .handshake, .rfSwitch 1] =
    some (_, _) := rfl
  exact ⟨_, _, done, by decide, bubble_alarm_delivered (Machine.exec_run done) (by decide) ⟨rfl, by decide⟩⟩

theorem bubble_alarm_lost :
    ∃ entries link, linkMachine.exec .start [.compare 32, .commit, .rfSwitch 1] = some (entries, link) ∧
      link.Quiet ∧ link.bdErrorSendflag ≠ lastFlag (transmitted entries) := by
  -- the RF switch empties the queue while the alarm waits in it
  have done : linkMachine.exec .start [.compare 32, .commit, .rfSwitch 1] = some (_, _) := rfl
  exact ⟨_, _, done, ⟨rfl, by decide⟩, by decide⟩

/-! ## No weaker condition would do

A line of frames can be drained without another decision, so a step that loses an alarm will show.
-/

def LinkEvent.Delivers : LinkEvent → Prop
  | .commit => True
  | .recv => True
  | .write size => size ≠ 0
  | _ => False

/-- These frames can be delivered, one after the other. -/
def Drains (link : AlarmLink) (frames : List RtCanMsg) (last : AlarmLink) : Prop :=
  ∃ entries, linkMachine.Run link entries last ∧ (∀ entry ∈ entries, entry.input.Delivers) ∧
    transmitted entries = frames

section Drain

variable {link middle last : AlarmLink} {frames more : List RtCanMsg}

theorem Drains.refl : Drains link [] link := ⟨[], .nil, by simp, rfl⟩

theorem Drains.single {input : LinkEvent} (delivers : input.Delivers)
    (step : linkStep link input = some (last, frames)) : Drains link frames last := by
  let entry : LinkEntry := ⟨link, input, last, frames⟩
  have taken : linkMachine.Takes entry := step
  have run : linkMachine.Run link [entry] last := Machine.Run.nil.snoc taken
  exact ⟨[entry], run, by simpa using delivers, by simp [transmitted, entry]⟩

theorem Drains.trans (first : Drains link frames middle) (second : Drains middle more last) :
    Drains link (frames ++ more) last := by
  obtain ⟨earlier, run, delivers, rfl⟩ := first
  obtain ⟨later, rest, delivering, rfl⟩ := second
  refine ⟨earlier ++ later, run.append rest, fun entry member => ?_, ?_⟩
  · rcases List.mem_append.mp member with before | after
    · exact delivers entry before
    · exact delivering entry after
  · rw [transmitted, List.flatMap_append, transmitted, transmitted]

theorem commit_drains (link : AlarmLink) : Drains link []
    { link with bdErrorSendflag := link.deciding.getD link.bdErrorSendflag, deciding := none } := by
  obtain ⟨bdErrorSendflag, deciding, canTxMq, msgCan⟩ := link
  cases deciding with
  | none => exact .refl
  | some flag =>
    have commits : LinkEvent.commit.Delivers := trivial
    exact .single commits rfl

theorem write_drains (link : AlarmLink) : Drains link link.msgCan.toList { link with msgCan := none } := by
  obtain ⟨bdErrorSendflag, deciding, canTxMq, msgCan⟩ := link
  cases msgCan with
  | none => exact .refl
  | some msg =>
    have writes : (LinkEvent.write 1).Delivers := Nat.one_ne_zero
    exact .single writes rfl

theorem queue_drains (bdErrorSendflag : UInt8) (deciding : Option UInt8) (frames : List RtCanMsg)
    (bound : frames.length ≤ canTxMqSize) :
    Drains ⟨bdErrorSendflag, deciding, ⟨frames, bound⟩, none⟩ frames
      ⟨bdErrorSendflag, deciding, .empty, none⟩ := by
  induction frames with
  | nil => exact .refl
  | cons msg rest ih =>
    have room : rest.length ≤ canTxMqSize := Nat.le_of_succ_le bound
    have receives : LinkEvent.recv.Delivers := trivial
    have received : Drains ⟨bdErrorSendflag, deciding, ⟨msg :: rest, bound⟩, none⟩ []
        ⟨bdErrorSendflag, deciding, ⟨rest, room⟩, some msg⟩ := .single receives rfl
    exact received.trans ((write_drains _).trans (ih room))

theorem link_drains (link : AlarmLink) : Drains link (link.msgCan.toList ++ link.canTxMq.entries)
    ⟨link.deciding.getD link.bdErrorSendflag, none, .empty, none⟩ :=
  (commit_drains link).trans ((write_drains _).trans (queue_drains _ _ _ link.canTxMq.bound))

end Drain

theorem keeps_of_delivers {entries : List LinkEntry} {entry : LinkEntry} (delivers : entry.input.Delivers) :
    Keeps entries entry := by
  obtain ⟨before, input, after, output⟩ := entry
  cases input with
  | commit => trivial
  | recv => trivial
  | write size => exact fun failed => absurd failed delivers
  | compare zerocount => exact delivers.elim
  | send other => exact delivers.elim
  | rfSwitch rfSwitch => exact delivers.elim

/-- A step keeps the alarm if and only if the main board will agree in every quiet state that is
reached without a further loss. -/
theorem keeps_iff {pre : List LinkEntry} {entry : LinkEntry}
    (run : linkMachine.Run .start pre entry.before) (kept : Along Keeps pre)
    (taken : linkMachine.Takes entry) :
    Keeps pre entry ↔ ∀ later link, linkMachine.Run entry.after later link →
      Along (fun between => Keeps (pre ++ [entry] ++ between)) later → link.Quiet →
      link.bdErrorSendflag = lastFlag (transmitted (pre ++ [entry] ++ later)) := by
  have before : InLine pre entry.before := InLine.start.run run kept
  constructor
  · intro keeps later link rest kept quiet
    have flag := ((before.step taken keeps).run rest kept).flag
    rw [line_quiet quiet, quiet.1] at flag
    exact flag.symm
  · intro agrees
    -- the rest of the line is delivered, and shows whether it ends with the flag
    obtain ⟨later, rest, delivers, frames⟩ := link_drains entry.after
    have agree := agrees later _ rest (fun between other after cut =>
      keeps_of_delivers (delivers other (by simp [cut]))) ⟨rfl, by simp⟩
    apply (before.flag_iff taken).mp
    rw [line, List.append_assoc, ← frames]
    rw [transmitted, List.flatMap_append] at agree
    exact agree.symm

end DetectBoard.Bubble
