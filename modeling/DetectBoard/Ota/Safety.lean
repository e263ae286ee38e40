import DetectBoard.Ota.Session

/-! What an OTA session may do to the board: which part of the flash it reaches,
when it may write at all, and whether a suspended board comes back.
-/

set_option autoImplicit false

namespace DetectBoard

open Library Flash Can

/-! ## The flash outside the download partition -/

def flashOps (actions : List Action) : List FlashOp :=
  actions.filterMap fun
    | .flash op => some op
    | _ => none

@[simp] theorem flashOps_flash (ops : List FlashOp) : flashOps (ops.map .flash) = ops := by
  simp [flashOps, List.filterMap_map]

@[simp] theorem flashOps_append (first rest : List Action) :
    flashOps (first ++ rest) = flashOps first ++ flashOps rest :=
  List.filterMap_append ..

@[simp] theorem flashOps_nil : flashOps [] = [] := rfl

@[simp] theorem flashOps_send (msg : RtCanMsg) (rest : List Action) :
    flashOps (.mqSend msg :: rest) = flashOps rest := rfl

@[simp] theorem flashOps_cpuReset (rest : List Action) :
    flashOps (.cpuReset :: rest) = flashOps rest := rfl

@[simp] theorem flashOps_partitionWrite (part : Option FalPartition) (addr : UInt32) (buf : List UInt8)
    (rest : List Action) : flashOps (.partitionWrite part addr buf :: rest) = flashOps rest := rfl

structure Confined (entry : BoardEntry) : Prop where
  agree : Memory.AgreeOutside downloadStart downloadEnd entry.before.flash entry.after.flash
  ops : ∀ op ∈ flashOps entry.output, ∀ a, op.Touches a → downloadStart ≤ a ∧ a < downloadEnd

theorem Unrelated.flashOps_eq {actions : List Action} (unrelated : Unrelated actions) :
    flashOps actions = [] := by
  refine List.filterMap_eq_nil_iff.mpr fun action member => ?_
  rcases unrelated action member with rfl | rfl <;> rfl

theorem StartOutcome.erases {chip : FlashChip} {recData : Vector UInt8 8} {b : Board}
    {result : Board × List Action} (outcome : StartOutcome falPartTable chip recData b result) :
    Memory.AgreeOutside downloadStart downloadEnd b.flash result.1.flash ∧
      flashOps result.2 <+: downloadSectors ∧
      (.mqSend (otaStartReply 1) ∈ result.2 → flashOps result.2 = downloadSectors) := by
  have differ : otaStartReply 1 ≠ otaStartReply 0 := by decide
  have only : ∀ {part}, falPartitionFind falPartTable defaultDownloadPart = some part →
      part = downloadPart := fun found => Option.some.inj (found.symm.trans find_download)
  cases outcome with
  | tooLarge => exact ⟨.refl .., List.nil_prefix, by simp [differ]⟩
  | missing => exact ⟨.refl .., List.nil_prefix, by simp [differ]⟩
  | eraseFailed found =>
    obtain rfl := only found
    obtain ⟨agree, started, _⟩ := erase_download chip b.flash
    exact ⟨agree, by simpa using started, by simp [differ]⟩
  | accepted _ found erased =>
    obtain rfl := only found
    obtain ⟨agree, started, whole⟩ := erase_download chip b.flash
    exact ⟨agree, by simpa using started, fun _ => by simpa using whole erased⟩

theorem DataOutcome.confined {blocks : List (List UInt8)} {chip : FlashChip} {frameId : UInt16}
    {recData : Vector UInt8 8} {b : Board} {result : Board × List Action}
    (outcome : DataOutcome chip frameId recData b result) (holds : Holds blocks b) :
    Memory.AgreeOutside downloadStart downloadEnd b.flash result.1.flash ∧
      ∀ op ∈ flashOps result.2, ∀ a, op.Touches a → downloadStart ≤ a ∧ a < downloadEnd := by
  have eight : recData.toList.length = 8 := by simp
  cases outcome with
  | outOfOrder => exact ⟨.refl .., by simp⟩
  | noPartition => exact ⟨.refl .., by simp⟩
  | writeFailed _ written => simpa using (holds.write eight written).2.2
  | stored _ written => simpa using (holds.write eight written).2.2
  | mismatch _ written => simpa using (holds.write eight written).2.2
  | completed _ written => simpa using (holds.write eight written).2.2

theorem Consistent.confined {entry : BoardEntry} (consistent : Consistent entry.before)
    (taken : (boardMachine falPartTable).Takes entry) : Confined entry := by
  cases boardMachine_steps taken with
  | start _ _ outcome =>
    obtain ⟨agree, started, _⟩ := outcome.erases
    exact ⟨agree, fun op member a touched =>
      (downloadSectors_touch a).mp ⟨op, started.subset member, touched⟩⟩
  | data _ asked outcome =>
    rcases consistent with ⟨flag, _⟩ | ⟨_, blocks, holds⟩
    · exact absurd ((request_otaData asked).symm.trans flag) (by decide)
    · exact ⟨(outcome.confined holds).1, (outcome.confined holds).2⟩
  | other _ _ _ session unrelated =>
    exact ⟨⟨fun a _ => by rw [session.flash]⟩, by simp [unrelated.flashOps_eq]⟩
  | timeout => exact ⟨.refl .., by simp⟩
  | boot => exact ⟨.refl .., by simp⟩

/-- Every flash operation of every run stays inside the download partition, and a start request
erases the sectors of the partition in order: all of them, unless an erase fails. -/
theorem ota_confined {flash : Memory UInt8} {entries : List BoardEntry} {state : Board}
    (run : (boardMachine falPartTable).Run (Board.boot flash) entries state) :
    Memory.AgreeOutside downloadStart downloadEnd flash state.flash ∧
      (∀ entry ∈ entries, ∀ op ∈ flashOps entry.output, ∀ a, op.Touches a →
        downloadStart ≤ a ∧ a < downloadEnd) ∧
      (∀ entry ∈ entries, ∀ chip msg, StartRequest entry chip msg →
        flashOps entry.output <+: downloadSectors ∧
        (.mqSend (otaStartReply 1) ∈ entry.output → flashOps entry.output = downloadSectors)) ∧
      ∀ a, (∃ op ∈ downloadSectors, op.Touches a) ↔ downloadStart ≤ a ∧ a < downloadEnd := by
  have held := (consistent run).2
  refine ⟨?_, fun entry member => ?_, fun entry member chip msg asked => ?_, downloadSectors_touch⟩
  · refine (run.invariant (fun b => Memory.AgreeOutside downloadStart downloadEnd flash b.flash)
      (.refl ..) fun entry member taken before => before.trans ?_).1
    exact ((held entry member).1.confined taken).agree
  · exact ((held entry member).1.confined (run.takes entry member)).ops
  · obtain ⟨result, outcome, _, output⟩ := (asked.starts (run.takes entry member)).outcome
    rw [output]
    exact outcome.erases.2

theorem ota_confined_one_block :
    Memory.AgreeOutside downloadStart downloadEnd (fun _ => 0xFF)
      (blockEntry #v[0, 1, 0, 0, 0, 0, 0, 9] #v[1, 2, 3, 4, 5, 6, 7, 8]).after.flash :=
  (ota_confined (blockEntry_run _ _ (by decide))).1

/-! ## The reboot timer of a suspended board -/

/-- A board that has been suspended for an OTA session will restart by itself. -/
def WillRestart (b : Board) : Prop :=
  b.status ≠ .reset → b.otaStartFlag = 1 → b.otaTimer = true

theorem StartOutcome.timer {table : List FalPartition} {chip : FlashChip} {recData : Vector UInt8 8}
    {b : Board} {result : Board × List Action} (outcome : StartOutcome table chip recData b result) :
    result.1.status = b.status ∧
      result.1.otaTimer = if StartRefused table chip recData b.flash then b.otaTimer else true := by
  have answer := outcome.reply_iff
  have differ : otaStartReply 1 ≠ otaStartReply 0 := by decide
  cases outcome with
  | tooLarge => simp [differ] at answer; simp [answer]
  | missing => simp [differ] at answer; simp [answer]
  | eraseFailed => simp [differ] at answer; simp [answer]
  | accepted => simp at answer; simp [answer]

theorem Starts.timer {table : List FalPartition} {entry : BoardEntry} {chip : FlashChip} {msg : RtCanMsg}
    (started : Starts table entry chip msg) :
    entry.after.status = .running ∧ entry.after.otaStartFlag = 1 ∧
      entry.after.otaTimer =
        if StartRefused table chip msg.data entry.before.flash then entry.before.otaTimer else true := by
  obtain ⟨result, outcome, after, _⟩ := started.outcome
  rw [after]
  exact ⟨outcome.timer.1.trans started.running, rfl, outcome.timer.2⟩

/-- The board restarts by itself along a run if and only if each refused start request of the
run finds the timer armed. -/
theorem ota_will_restart_iff {table : List FalPartition} {flash : Memory UInt8}
    {entries : List BoardEntry} {state : Board}
    (run : (boardMachine table).Run (Board.boot flash) entries state) :
    (∀ entry ∈ entries, WillRestart entry.after) ↔
      ∀ entry ∈ entries, ∀ chip msg, StartRequest entry chip msg →
        StartRefused table chip msg.data entry.before.flash → entry.before.otaTimer = true := by
  constructor
  · intro restart entry member chip msg asked refused
    obtain ⟨status, flag, timer⟩ := (asked.starts (run.takes entry member)).timer
    rw [if_pos refused] at timer
    exact timer.symm.trans (restart entry member (by simp [status]) flag)
  · intro armed
    refine fun entry member => ((run.invariant WillRestart (by simp [WillRestart, Board.boot])
      fun entry member taken before => ?_).2 entry member).2
    rcases (boardMachine_steps taken).phases with ⟨chip, msg, start⟩ | ⟨_, restarted⟩ | ⟨_, carries⟩
    · intro _ _
      rw [start.timer.2.2]
      split
      · next refused => exact armed entry member chip msg start.request refused
      · rfl
    · rw [restarted]
      simp [WillRestart, Board.boot]
    · exact fun on flag => carries.timer (before carries.on (carries.flag.symm.trans flag)) on

theorem ota_will_restart_accepted : WillRestart (askEntry #v[0, 1, 0, 0, 0, 0, 0, 9]).after := by
  refine (ota_will_restart_iff (askEntry_run _)).mpr (fun entry member chip msg asked refused => ?_) _
    (List.mem_singleton.mpr rfl)
  rw [List.mem_singleton.mp member] at asked refused
  cases (askEntry_request _).1.symm.trans asked.1
  exact absurd refused (by decide)

theorem ota_suspended_for_ever :
    let ask := askEntry #v[0, 1, 0, 0, 0x00, 0x08, 0x00, 0x00]
    (boardMachine falPartTable).Run (Board.boot fun _ => 0xFF) [ask] ask.after ∧
      ¬WillRestart ask.after := by
  -- the first start request announces a file that is as large as `DEVICE_OTA_ROM_SIZE`
  refine ⟨askEntry_run _, ?_⟩
  unfold WillRestart
  decide

/-! ## Writing under an accepted session -/

/-- The start request in force was answered with 1: the partition was found and erased for it,
and the board describes the file that it announced. -/
def AcceptedSession (table : List FalPartition) (pre : List BoardEntry) (b : Board) : Prop :=
  ∃ last chip msg part, lastStart pre = some last ∧ StartRequest last chip msg ∧
    .mqSend (otaStartReply 1) ∈ last.output ∧
    falPartitionFind table defaultDownloadPart = some part ∧
    0 ≤ (falPartitionEraseAll chip last.before.flash part).ret ∧ b.ota.dlPart = some part ∧
    b.ota.fileCrc16 = announcedCrc16 msg.data ∧ b.ota.fileTotalSize = announcedSize msg.data

def RefusedSession (table : List FalPartition) (pre : List BoardEntry) : Prop :=
  ∃ last chip msg, lastStart pre = some last ∧ StartRequest last chip msg ∧
    StartRefused table chip msg.data last.before.flash

def WritesPartition (entry : BoardEntry) : Prop :=
  ∃ part addr buf, .partitionWrite part addr buf ∈ entry.output

theorem writes_iff {table : List FalPartition} {entry : BoardEntry}
    (taken : (boardMachine table).Takes entry) :
    WritesPartition entry ↔ ∃ chip msg, DataRequest entry chip msg ∧ InOrder entry.before msg.frameId := by
  have never : ∀ {entry : BoardEntry}, (∀ chip msg, ¬DataRequest entry chip msg) → ¬WritesPartition entry →
      (WritesPartition entry ↔
        ∃ chip msg, DataRequest entry chip msg ∧ InOrder entry.before msg.frameId) :=
    fun notData silent => ⟨fun writes => absurd writes silent, fun ⟨_, _, given, _⟩ => absurd given (notData _ _)⟩
  cases boardMachine_steps taken with
  | data _ asked outcome =>
    refine outcome.writes_iff.trans ⟨fun inOrder => ⟨_, _, ⟨rfl, asked⟩, inOrder⟩, ?_⟩
    rintro ⟨chip, msg, given, inOrder⟩
    cases given.1
    exact inOrder
  | start _ asked outcome =>
    refine never (fun chip msg given => ?_) ?_
    · cases given.1
      exact absurd (asked.symm.trans given.2) (by decide)
    · rintro ⟨part, addr, buf, member⟩
      cases outcome <;> simp at member
  | other _ _ notData _ unrelated =>
    refine never (fun chip msg given => ?_) fun ⟨part, addr, buf, member⟩ => unrelated.no_write _ _ _ member
    cases given.1
    exact notData given.2
  | timeout => exact never (fun _ _ given => nomatch given.1) fun ⟨_, _, _, member⟩ => by simp at member
  | boot => exact never (fun _ _ given => nomatch given.1) fun ⟨_, _, _, member⟩ => by simp at member

theorem accepted_iff {table : List FalPartition} {flash : Memory UInt8} {pre : List BoardEntry} {b : Board}
    (run : (boardMachine table).Run (Board.boot flash) pre b) (flag : b.otaStartFlag = 1) :
    AcceptedSession table pre b ↔ ¬RefusedSession table pre := by
  have inForce := governed run
  unfold Governed at inForce
  split at inForce
  · exact absurd (flag.symm.trans inForce.1) (by decide)
  next last latest =>
  obtain ⟨chip, msg, asked, crc, size⟩ := inForce.announced
  have started := asked.starts inForce.taken
  constructor
  · rintro ⟨_, _, _, _, latest', _, answered, _⟩ ⟨_, chip', msg', latest'', asked', refused⟩
    obtain rfl := Option.some.inj (latest.symm.trans latest')
    obtain rfl := Option.some.inj (latest.symm.trans latest'')
    exact (asked'.starts inForce.taken).reply_iff.mp answered refused
  · intro notRefused
    have answered := started.reply_iff.mpr fun refused => notRefused ⟨last, chip, msg, latest, asked, refused⟩
    obtain ⟨part, found, erased, kept⟩ := started.accepted answered
    exact ⟨last, chip, msg, part, latest, asked, answered, found, erased, inForce.part.trans kept, crc, size⟩

def HoldsBack (table : List FalPartition) (pre : List BoardEntry) (entry : BoardEntry) : Prop :=
  RefusedSession table pre → ∀ chip msg, DataRequest entry chip msg → ¬InOrder entry.before msg.frameId

theorem BoardSteps.waits {table : List FalPartition} {entry : BoardEntry} (steps : BoardSteps table entry)
    (continues : Continues entry)
    (back : ∀ chip msg, DataRequest entry chip msg → ¬InOrder entry.before msg.frameId) :
    entry.after.ota = entry.before.ota := by
  cases steps with
  | start _ asked => exact absurd ⟨rfl, asked⟩ (continues.1 _ _)
  | data _ asked outcome =>
    have other := back _ _ ⟨rfl, asked⟩
    cases outcome with
    | outOfOrder => rfl
    | noPartition => rfl
    | writeFailed => rfl
    | stored inOrder => exact absurd inOrder other
    | mismatch inOrder => exact absurd inOrder other
    | completed inOrder => exact absurd inOrder other
  | other _ _ _ session => exact session.ota
  | timeout => rfl
  | boot => exact absurd rfl continues.2

theorem refused_waits {table : List FalPartition} {flash : Memory UInt8} {entries : List BoardEntry}
    {state : Board} (run : (boardMachine table).Run (Board.boot flash) entries state)
    (back : Along (HoldsBack table) entries) (refused : RefusedSession table entries) :
    state.ota.fileWriteSize = 0 := by
  revert back refused
  refine run.history
    (fun pre b => Along (HoldsBack table) pre → RefusedSession table pre → b.ota.fileWriteSize = 0)
    (fun _ _ => rfl) fun pre entry _ taken before back refused => ?_
  obtain ⟨back, here⟩ := Along.snoc_iff.mp back
  have steps := boardMachine_steps taken
  rcases steps.phases with ⟨chip, msg, start⟩ | ⟨boot, _⟩ | ⟨continues, _⟩
  · obtain ⟨result, outcome, after, _⟩ := start.outcome
    rw [after]
    exact outcome.announces.2.2.1
  · obtain ⟨last, _, _, latest, _⟩ := refused
    rw [lastStart_snoc, latestStart, boot] at latest
    cases latest
  · have refused : RefusedSession table pre := by
      unfold RefusedSession at refused ⊢
      rwa [lastStart_snoc, continues.latest] at refused
    rw [steps.waits continues (here refused)]
    exact before back refused

theorem inOrder_first {b : Board} (waits : b.ota.fileWriteSize = 0) (frameId : UInt16) :
    InOrder b frameId ↔ frameId = 0 := by
  rw [InOrder, waits, ← UInt32.toNat_inj, ← UInt16.toNat_inj, UInt16.toNat_toUInt32]
  exact eq_comm

/-- Every write happens under an accepted session if and only if no first block of a file is
handled under a refused one. -/
theorem ota_write_accepted_iff {table : List FalPartition} {flash : Memory UInt8}
    {entries : List BoardEntry} {state : Board}
    (run : (boardMachine table).Run (Board.boot flash) entries state) :
    Along (fun pre entry => WritesPartition entry → AcceptedSession table pre entry.before) entries ↔
      Along (fun pre entry => RefusedSession table pre →
        ∀ chip msg, DataRequest entry chip msg → msg.frameId ≠ 0) entries := by
  calc
    _ ↔ Along (HoldsBack table) entries := run.along_congr fun pre entry before taken => by
      rw [writes_iff taken]
      constructor
      · intro legitimate refused chip msg given inOrder
        have flag := request_otaData given.2
        exact (accepted_iff before flag).mp (legitimate ⟨chip, msg, given, inOrder⟩) refused
      · rintro back ⟨chip, msg, given, inOrder⟩
        have flag := request_otaData given.2
        exact (accepted_iff before flag).mpr fun refused => back refused chip msg given inOrder
    _ ↔ _ := run.history
      (fun pre _ => Along (HoldsBack table) pre ↔ Along (fun pre entry => RefusedSession table pre →
        ∀ chip msg, DataRequest entry chip msg → msg.frameId ≠ 0) pre)
      (iff_of_true .nil .nil) fun pre entry before _ same => by
        rw [Along.snoc_iff, Along.snoc_iff, ← same]
        refine and_congr_right fun back => forall_congr' fun refused => ?_
        have waits := refused_waits before back refused
        exact forall_congr' fun _ => forall_congr' fun msg => forall_congr' fun _ =>
          not_congr (inOrder_first waits msg.frameId)

theorem ota_write_accepted_one_block :
    Along (fun pre entry => WritesPartition entry → AcceptedSession falPartTable pre entry.before)
      [askEntry #v[0, 1, 0, 0, 0, 0, 0, 9],
        blockEntry #v[0, 1, 0, 0, 0, 0, 0, 9] #v[1, 2, 3, 4, 5, 6, 7, 8]] := by
  have asked := askEntry_request #v[0, 1, 0, 0, 0, 0, 0, 9]
  refine (ota_write_accepted_iff (blockEntry_run _ _ (by decide))).mpr ?_
  show Along _ (([] ++ [_]) ++ [_])
  refine Along.snoc_iff.mpr ⟨Along.snoc_iff.mpr ⟨.nil, ?_⟩, ?_⟩
  · rintro ⟨_, _, _, latest, _⟩
    cases latest
  · rintro ⟨last, chip, msg, latest, start, refused⟩
    obtain rfl := Option.some.inj ((askEntry_latest _).symm.trans latest)
    cases asked.1.symm.trans start.1
    exact absurd refused (by decide)

theorem ota_write_unaccepted :
    let ask := askEntry #v[0, 1, 0, 0, 0x00, 0x08, 0x00, 0x00]
    let block := blockEntry #v[0, 1, 0, 0, 0x00, 0x08, 0x00, 0x00] #v[1, 2, 3, 4, 5, 6, 7, 8]
    (boardMachine falPartTable).Run (Board.boot fun _ => 0xFF) [ask, block] block.after ∧
      .partitionWrite none 0 [1, 2, 3, 4, 5, 6, 7, 8] ∈ block.output ∧
      ¬Along (fun pre entry => WritesPartition entry → AcceptedSession falPartTable pre entry.before)
        [ask, block] := by
  intro ask block
  have write : .partitionWrite none 0 [1, 2, 3, 4, 5, 6, 7, 8] ∈ block.output := by decide
  refine ⟨blockEntry_run _ _ (by decide), write, fun along => ?_⟩
  obtain ⟨last, _, _, _, latest, _, answered, _⟩ := along [ask] block [] rfl ⟨_, _, _, write⟩
  obtain rfl := Option.some.inj ((askEntry_latest _).symm.trans latest)
  exact absurd answered (by decide)

end DetectBoard
