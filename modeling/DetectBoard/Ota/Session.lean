import DetectBoard.Can.Dispatch
import DetectBoard.Library.BlockReceiver

/-! What an OTA session has received so far, and which start request it belongs to.

The board refines a receiver of numbered blocks: the write offset, the running
CRC and the flash are three views of the blocks that it kept.
-/

set_option autoImplicit false

namespace DetectBoard

open Library Flash Can

/-! ## The start request in force -/

def latestStart (last : Option BoardEntry) (entry : BoardEntry) : Option BoardEntry :=
  match entry.input with
  | .frame _ msg => if request entry.before.otaStartFlag msg = .otaAsk then some entry else last
  | .otaTimerTimeout => last
  | .boot => none

/-- The last start request since the restart. -/
def lastStart (history : List BoardEntry) : Option BoardEntry := history.foldl latestStart none

@[simp] theorem lastStart_snoc (history : List BoardEntry) (entry : BoardEntry) :
    lastStart (history ++ [entry]) = latestStart (lastStart history) entry := by
  simp [lastStart]

/-- The entry handles no start request and does not restart the board. -/
def Continues (entry : BoardEntry) : Prop :=
  (∀ chip msg, ¬StartRequest entry chip msg) ∧ entry.input ≠ .boot

theorem continues_of_frame {entry : BoardEntry} {chip : FlashChip} {msg : RtCanMsg}
    (input : entry.input = .frame chip msg) (notAsk : request entry.before.otaStartFlag msg ≠ .otaAsk) :
    Continues entry := by
  refine ⟨fun _ _ start => notAsk ?_, by simp [input]⟩
  cases input.symm.trans start.1
  exact start.2

/-- What a step keeps unless it handles a start request or restarts the board. -/
structure Carries (b b' : Board) : Prop where
  crc : b'.ota.fileCrc16 = b.ota.fileCrc16
  size : b'.ota.fileTotalSize = b.ota.fileTotalSize
  part : b'.ota.dlPart = b.ota.dlPart
  flag : b'.otaStartFlag = b.otaStartFlag
  timer : b.otaTimer = true → b'.status ≠ .reset → b'.otaTimer = true
  on : b.status ≠ .reset

structure Starts (table : List FalPartition) (entry : BoardEntry) (chip : FlashChip) (msg : RtCanMsg) :
    Prop where
  request : StartRequest entry chip msg
  running : entry.before.status = .running
  outcome : ∃ result, StartOutcome table chip msg.data entry.before result ∧
    entry.after = { result.1 with canInformTimer := false, otaStartFlag := 1 } ∧ entry.output = result.2

theorem BoardSteps.phases {table : List FalPartition} {entry : BoardEntry}
    (steps : BoardSteps table entry) :
    (∃ chip msg, Starts table entry chip msg) ∨
      (entry.input = .boot ∧ entry.after = Board.boot entry.before.flash) ∨
      (Continues entry ∧ Carries entry.before entry.after) := by
  cases steps with
  | start running asked outcome => exact .inl ⟨_, _, ⟨rfl, asked⟩, running, _, outcome, rfl, rfl⟩
  | data running asked outcome =>
    obtain ⟨crc, size, part, flag, timer⟩ := outcome.keeps
    refine .inr (.inr ⟨continues_of_frame rfl (by simp [asked]), crc, size, part, flag, fun armed _ => timer armed, ?_⟩)
    simp [running]
  | other running notAsk _ session =>
    refine .inr (.inr ⟨continues_of_frame rfl notAsk, ?_, ?_, ?_, session.otaStartFlag, fun armed _ => ?_, ?_⟩)
    · rw [session.ota]
    · rw [session.ota]
    · rw [session.ota]
    · exact session.otaTimer.trans armed
    · simp [running]
  | timeout _ on =>
    refine .inr (.inr ⟨⟨fun _ _ start => ?_, by simp⟩, rfl, rfl, rfl, rfl, fun _ reset => ?_, on⟩)
    · cases start.1
    · exact absurd rfl reset
  | boot => exact .inr (.inl ⟨rfl, rfl⟩)

theorem StartRequest.latest {entry : BoardEntry} {chip : FlashChip} {msg : RtCanMsg}
    (start : StartRequest entry chip msg) (last : Option BoardEntry) :
    latestStart last entry = some entry := by
  simp [latestStart, start.1, start.2]

theorem Continues.latest {entry : BoardEntry} (continues : Continues entry) (last : Option BoardEntry) :
    latestStart last entry = last := by
  unfold latestStart
  split
  · next input => exact if_neg fun asked => continues.1 _ _ ⟨input, asked⟩
  · rfl
  · next input => exact absurd input continues.2

theorem lastStart_session (pre : List BoardEntry) {post : List BoardEntry} {start : BoardEntry} {chip : FlashChip}
    {msg : RtCanMsg} (asked : StartRequest start chip msg)
    (session : ∀ entry ∈ post, Continues entry) : lastStart (pre ++ start :: post) = some start := by
  induction post using List.reverseRecOn with
  | nil => rw [lastStart_snoc, asked.latest]
  | append_singleton rest last ih =>
    have before := ih fun entry member => session entry (by simp [member])
    rw [← List.cons_append, ← List.append_assoc, lastStart_snoc, before]
    exact (session last (by simp)).latest _

theorem StartRequest.starts {table : List FalPartition} {entry : BoardEntry} {chip : FlashChip}
    {msg : RtCanMsg} (asked : StartRequest entry chip msg) (taken : (boardMachine table).Takes entry) :
    Starts table entry chip msg := by
  rcases (boardMachine_steps taken).phases with ⟨chip', msg', started⟩ | ⟨boot, _⟩ | ⟨continues, _⟩
  · obtain ⟨rfl, rfl⟩ := Event.frame.inj (asked.1.symm.trans started.request.1)
    exact started
  · cases asked.1.symm.trans boot
  · exact absurd asked (continues.1 _ _)

theorem Starts.accepted {table : List FalPartition} {entry : BoardEntry} {chip : FlashChip}
    {msg : RtCanMsg} (started : Starts table entry chip msg)
    (answered : .mqSend (otaStartReply 1) ∈ entry.output) :
    ∃ part, falPartitionFind table defaultDownloadPart = some part ∧
      0 ≤ (falPartitionEraseAll chip entry.before.flash part).ret ∧
      entry.after.ota.dlPart = some part := by
  obtain ⟨result, outcome, after, output⟩ := started.outcome
  rw [output, outcome.reply_iff] at answered
  rw [after]
  cases outcome with
  | tooLarge large => exact absurd (.inl large) answered
  | missing absent => exact absurd (.inr (by simp [absent])) answered
  | eraseFailed found failed => exact absurd (.inr (by simpa [found] using failed)) answered
  | accepted _ found erased => exact ⟨_, found, erased, rfl⟩

theorem Starts.reply_iff {table : List FalPartition} {entry : BoardEntry} {chip : FlashChip}
    {msg : RtCanMsg} (started : Starts table entry chip msg) :
    .mqSend (otaStartReply 1) ∈ entry.output ↔
      ¬StartRefused table chip msg.data entry.before.flash := by
  obtain ⟨result, outcome, _, output⟩ := started.outcome
  rw [output]
  exact outcome.reply_iff

/-- The board is as the start request in force left it, but for what was received since. -/
structure InForce (table : List FalPartition) (last : BoardEntry) (b : Board) : Prop where
  taken : (boardMachine table).Takes last
  announced : ∃ chip msg, StartRequest last chip msg ∧ b.ota.fileCrc16 = announcedCrc16 msg.data ∧
    b.ota.fileTotalSize = announcedSize msg.data
  part : b.ota.dlPart = last.after.ota.dlPart
  flag : b.otaStartFlag = 1
  timer : last.after.otaTimer = true → b.status ≠ .reset → b.otaTimer = true

def Governed (table : List FalPartition) (history : List BoardEntry) (b : Board) : Prop :=
  match lastStart history with
  | none => b.otaStartFlag = 0 ∧ b.ota.dlPart = none
  | some last => InForce table last b

theorem InForce.carry {table : List FalPartition} {last : BoardEntry} {b b' : Board}
    (inForce : InForce table last b) (carries : Carries b b') : InForce table last b' := by
  obtain ⟨chip, msg, start, crc, size⟩ := inForce.announced
  exact ⟨inForce.taken, ⟨chip, msg, start, carries.crc.trans crc, carries.size.trans size⟩,
    carries.part.trans inForce.part, carries.flag.trans inForce.flag,
    fun armed => carries.timer (inForce.timer armed carries.on)⟩

theorem Governed.step {table : List FalPartition} {history : List BoardEntry} {entry : BoardEntry}
    (governed : Governed table history entry.before) (taken : (boardMachine table).Takes entry) :
    Governed table (history ++ [entry]) entry.after := by
  unfold Governed at *
  rw [lastStart_snoc]
  rcases (boardMachine_steps taken).phases with
    ⟨chip, msg, start⟩ | ⟨boot, restarted⟩ | ⟨continues, carries⟩
  · obtain ⟨result, outcome, after, _⟩ := start.outcome
    obtain ⟨crc, size, _⟩ := outcome.announces
    rw [start.request.latest]
    refine ⟨taken, ⟨chip, msg, start.request, ?_, ?_⟩, rfl, ?_, fun armed _ => armed⟩
    · rw [after, ← crc]
    · rw [after, ← size]
    · rw [after]
  · have forgotten : latestStart (lastStart history) entry = none := by rw [latestStart, boot]
    rw [forgotten, restarted]
    exact ⟨rfl, rfl⟩
  · rw [continues.latest]
    split at governed
    · exact ⟨carries.flag.trans governed.1, carries.part.trans governed.2⟩
    · exact governed.carry carries

theorem governed {table : List FalPartition} {flash : Memory UInt8} {entries : List BoardEntry}
    {state : Board} (run : (boardMachine table).Run (Board.boot flash) entries state) :
    Governed table entries state :=
  run.history _ ⟨rfl, rfl⟩ fun _ _ _ taken before => before.step taken

/-! ## The blocks received -/

def delivery (entry : BoardEntry) : Option (Delivery (List UInt8)) :=
  match entry.input with
  | .frame _ msg =>
    if request entry.before.otaStartFlag msg = .otaData then
      some ⟨msg.frameId.toNat, msg.data.toList,
        decide (otaDataBlockReply 1 msg.frameId ∈ blockReplies entry.output)⟩
    else none
  | _ => none

def deliveries (entries : List BoardEntry) : List (Delivery (List UInt8)) :=
  entries.filterMap delivery

theorem deliveries_snoc (entries : List BoardEntry) (last : BoardEntry) :
    deliveries (entries ++ [last]) = deliveries entries ++ (delivery last).toList := by
  cases given : delivery last <;> simp [deliveries, given]

/-- The number of blocks acknowledged so far. -/
def accepted (entries : List BoardEntry) : ℕ := ((deliveries entries).filter Delivery.kept).length

theorem accepted_append (first rest : List BoardEntry) :
    accepted (first ++ rest) = accepted first + accepted rest := by
  simp [accepted, deliveries]

theorem accepted_single {entry : BoardEntry} {chip : FlashChip} {msg : RtCanMsg} (given : DataRequest entry chip msg)
    (kept : otaDataBlockReply 1 msg.frameId ∈ blockReplies entry.output) : accepted [entry] = 1 := by
  simp [accepted, deliveries, delivery, given.1, given.2, kept]

/-- The board represents a receiver that has kept these blocks. -/
structure Holds (blocks : List (List UInt8)) (b : Board) : Prop where
  eight : ∀ block ∈ blocks, block.length = 8
  writeSize : b.ota.fileWriteSize.toNat = 8 * blocks.length
  fits : 8 * blocks.length ≤ downloadLen
  stored : b.flash.cells downloadStart (8 * blocks.length) = blocks.flatten
  crc : b.ota.fileCrcCur = crc16 blocks.flatten
  part : b.ota.dlPart = none ∨ b.ota.dlPart = some downloadPart

theorem holds_nil {b : Board} (size : b.ota.fileWriteSize = 0) (crc : b.ota.fileCrcCur = 0xFFFF)
    (part : b.ota.dlPart = none ∨ b.ota.dlPart = some downloadPart) : Holds [] b :=
  ⟨by simp, by simp [size], by simp, rfl, by simp [crc], part⟩

section Holds

variable {blocks : List (List UInt8)} {b b' : Board}

theorem Holds.keep (holds : Holds blocks b) (size : b'.ota.fileWriteSize = b.ota.fileWriteSize)
    (crc : b'.ota.fileCrcCur = b.ota.fileCrcCur) (part : b'.ota.dlPart = b.ota.dlPart)
    (stored : b'.flash.cells downloadStart (8 * blocks.length) =
      b.flash.cells downloadStart (8 * blocks.length)) : Holds blocks b' where
  eight := holds.eight
  writeSize := by rw [size, holds.writeSize]
  fits := holds.fits
  stored := stored.trans holds.stored
  crc := crc.trans holds.crc
  part := part ▸ holds.part

theorem Holds.inOrder_iff (holds : Holds blocks b) (frameId : UInt16) :
    InOrder b frameId ↔ frameId.toNat = blocks.length := by
  rw [InOrder, ← UInt32.toNat_inj, UInt32.toNat_div, holds.writeSize, UInt16.toNat_toUInt32,
    show (UInt32.toNat 8) = 8 from rfl]
  omega

theorem Holds.length (holds : Holds blocks b) : blocks.flatten.length = 8 * blocks.length := by
  have stored := congrArg List.length holds.stored
  rw [← stored]
  simp [Memory.cells]

theorem Holds.write (holds : Holds blocks b) {chip : FlashChip} {payload : List UInt8} {done : Returned}
    (eight : payload.length = 8)
    (written : falPartitionWrite chip b.flash b.ota.dlPart b.ota.fileWriteSize payload = some done) :
    done.mem.cells downloadStart (8 * blocks.length) = blocks.flatten ∧
      (0 ≤ done.ret → 8 * (blocks.length + 1) ≤ downloadLen ∧
        done.mem.cells downloadStart (8 * (blocks.length + 1)) = blocks.flatten ++ payload) ∧
      Memory.AgreeOutside downloadStart downloadEnd b.flash done.mem ∧
      ∀ op ∈ done.ops, ∀ a, op.Touches a → downloadStart ≤ a ∧ a < downloadEnd := by
  have size := holds.writeSize
  have fits := holds.fits
  rcases holds.part with null | found
  · simp [falPartitionWrite, null] at written
  · rw [found] at written
    obtain ⟨result, same, outcome⟩ := write_download chip b.flash b.ota.fileWriteSize payload
      (by simp only [downloadLen] at fits; omega)
    obtain rfl : done = result := Option.some.inj (written.symm.trans same)
    rcases outcome with rfl | ⟨room, stored, agree, ops⟩
    · exact ⟨holds.stored, fun nonneg => by simp at nonneg, .refl .., by simp⟩
    · rw [size, eight] at *
      have kept : done.mem.cells downloadStart (8 * blocks.length) = blocks.flatten :=
        (agree.cells_eq (.inl (by omega))).trans holds.stored
      have whole : downloadStart + downloadLen = downloadEnd := rfl
      refine ⟨kept, fun nonneg => ⟨room, ?_⟩, agree.mono (by omega) (by omega), fun op member a touched => ?_⟩
      · rw [Nat.mul_add, Memory.cells_add, kept, stored nonneg]
      · have := ops op member a touched
        omega

theorem Holds.snoc (holds : Holds blocks b) {chip : FlashChip} {recData : Vector UInt8 8} {done : Returned}
    (written : falPartitionWrite chip b.flash b.ota.dlPart b.ota.fileWriteSize recData.toList = some done)
    (ok : 0 ≤ done.ret) (size : b'.ota.fileWriteSize = (b.ota.advance 8 recData).fileWriteSize)
    (crc : b'.ota.fileCrcCur = (b.ota.advance 8 recData).fileCrcCur)
    (part : b'.ota.dlPart = b.ota.dlPart) (flash : b'.flash = done.mem) :
    Holds (blocks ++ [recData.toList]) b' := by
  obtain ⟨room, stored⟩ := (holds.write (by simp) written).2.1 ok
  have before := holds.writeSize
  have whole : recData.toList.take (UInt16.toNat 8) = recData.toList :=
    List.take_of_length_le (by simp)
  constructor
  · intro block member
    rcases List.mem_append.mp member with old | new
    · exact holds.eight block old
    · simp [List.mem_singleton.mp new]
  · rw [size, OtaManage.advance, UInt32.toNat_add, before, List.length_append, List.length_singleton]
    simp only [downloadLen, UInt16.toNat_toUInt32, show UInt16.toNat 8 = 8 from rfl] at *
    omega
  · simpa using room
  · simpa [flash] using stored
  · rw [crc, OtaManage.advance, modbusRtuCrc16Frame_eq, whole, holds.crc]
    simp [crc16_append]
  · exact part ▸ holds.part

/-- A data request keeps the next block, or refuses its block, or finds no partition. -/
theorem DataOutcome.receives {chip : FlashChip} {frameId : UInt16} {recData : Vector UInt8 8}
    {result : Board × List Action} (outcome : DataOutcome chip frameId recData b result)
    (holds : Holds blocks b) :
    (blockReplies result.2 = [otaDataBlockReply 1 frameId] ∧ frameId.toNat = blocks.length ∧
        Holds (blocks ++ [recData.toList]) result.1) ∨
      (blockReplies result.2 = [otaDataBlockReply 0 frameId] ∧ result.1.ota = b.ota ∧
        Holds blocks result.1) ∨
      (b.ota.dlPart = none ∧ blockReplies result.2 = [] ∧ result.1.ota = b.ota ∧
        Holds blocks result.1) := by
  have reply : ∀ (part : Option FalPartition) (addr : UInt32) (buf : List UInt8) (ops : List FlashOp)
      (value : UInt8) (rest : List Action), blockReplies rest = [] →
      blockReplies (.partitionWrite part addr buf :: ops.map .flash ++
        [.mqSend (otaDataBlockReply value frameId)] ++ rest) = [otaDataBlockReply value frameId] := by
    intro part addr buf ops value rest silent
    rw [blockReplies_append, blockReplies_append, silent, blockReplies_send, blockReplies_partitionWrite,
      blockReplies_flash]
    rfl
  cases outcome with
  | outOfOrder => exact .inr (.inl ⟨blockReplies_send .., rfl, holds⟩)
  | noPartition _ null =>
    exact .inr (.inr ⟨null, rfl, rfl, holds.keep rfl rfl rfl rfl⟩)
  | writeFailed _ written =>
    have kept := (holds.write (by simp) written).1
    refine .inr (.inl ⟨?_, rfl, holds.keep rfl rfl rfl (kept.trans holds.stored.symm)⟩)
    rw [← reply b.ota.dlPart b.ota.fileWriteSize recData.toList _ 0 [] rfl, List.append_nil]
  | stored inOrder written ok =>
    refine .inl ⟨?_, (holds.inOrder_iff frameId).mp inOrder, holds.snoc written ok rfl rfl rfl rfl⟩
    rw [← reply b.ota.dlPart b.ota.fileWriteSize recData.toList _ 1 [] rfl, List.append_nil]
  | mismatch inOrder written ok =>
    exact .inl ⟨reply _ _ _ _ _ _ (by simp [blockReplies]), (holds.inOrder_iff frameId).mp inOrder,
      holds.snoc written ok rfl rfl rfl rfl⟩
  | completed inOrder written ok =>
    exact .inl ⟨reply _ _ _ _ _ _ (by simp [blockReplies]), (holds.inOrder_iff frameId).mp inOrder,
      holds.snoc written ok rfl rfl rfl rfl⟩

end Holds

/-! ## The board refines the receiver -/

section Refinement

variable {blocks : List (List UInt8)} {entry : BoardEntry}

/-- One step within a session is one step of the receiver, or none. -/
theorem BoardSteps.refines (steps : BoardSteps falPartTable entry) (continues : Continues entry)
    (holds : Holds blocks entry.before) :
    (delivery entry = none ∧ Holds blocks entry.after) ∨
      ∃ answered, delivery entry = some answered ∧
        if answered.kept then answered.number = blocks.length ∧ Holds (blocks ++ [answered.block]) entry.after
        else Holds blocks entry.after := by
  cases steps with
  | start _ asked => exact absurd ⟨rfl, asked⟩ (continues.1 _ _)
  | data _ asked outcome =>
    refine .inr ⟨_, if_pos asked, ?_⟩
    rcases outcome.receives holds with ⟨reply, number, held⟩ | ⟨reply, _, held⟩ | ⟨_, reply, _, held⟩
    · simpa [reply] using ⟨number, held⟩
    · simpa [reply, otaDataBlockReply_ne] using held
    · simpa [reply] using held
  | other _ _ notData session =>
    refine .inl ⟨if_neg notData, holds.keep ?_ ?_ ?_ ?_⟩
    · rw [session.ota]
    · rw [session.ota]
    · rw [session.ota]
    · rw [session.flash]
  | timeout => exact .inl ⟨rfl, holds.keep rfl rfl rfl rfl⟩
  | boot => exact absurd rfl continues.2

/-- A session without a further start request is a history of the receiver. -/
theorem session_receives {b state : Board} {entries : List BoardEntry}
    (run : (boardMachine falPartTable).Run b entries state) (holds : Holds [] b)
    (session : ∀ entry ∈ entries, Continues entry) :
    ∃ blocks, Receives (deliveries entries) blocks ∧ Holds blocks state := by
  induction run with
  | nil => exact ⟨[], .nil, holds⟩
  | @snoc earlier last run taken ih =>
    obtain ⟨blocks, receives, held⟩ := ih fun entry member => session entry (by simp [member])
    rw [deliveries_snoc]
    rcases (boardMachine_steps taken).refines (session last (by simp)) held with
      ⟨quiet, held⟩ | ⟨answered, given, outcome⟩
    · rw [quiet]
      exact ⟨blocks, by simpa using receives, held⟩
    · rw [given]
      split at outcome
      · next kept => exact ⟨_, receives.keep kept outcome.1, outcome.2⟩
      · next refused => exact ⟨_, receives.refuse (by simpa using refused), outcome⟩

theorem session_accepted {b state : Board} {entries : List BoardEntry}
    (run : (boardMachine falPartTable).Run b entries state) (holds : Holds [] b)
    (session : ∀ entry ∈ entries, Continues entry) :
    state.ota.fileWriteSize.toNat = 8 * accepted entries ∧
      ∀ frameId, InOrder state frameId ↔ frameId.toNat = accepted entries := by
  obtain ⟨blocks, receives, held⟩ := session_receives run holds session
  rw [accepted, receives.count]
  exact ⟨held.writeSize, held.inOrder_iff⟩

end Refinement

/-! ## From the restart on -/

/-- Outside a session nothing is claimed but that no partition is known. -/
def Consistent (b : Board) : Prop :=
  (b.otaStartFlag = 0 ∧ b.ota.dlPart = none) ∨ (b.otaStartFlag = 1 ∧ ∃ blocks, Holds blocks b)

theorem Consistent.part {b : Board} (consistent : Consistent b) :
    b.ota.dlPart = none ∨ b.ota.dlPart = some downloadPart := by
  rcases consistent with ⟨_, null⟩ | ⟨_, blocks, holds⟩
  · exact .inl null
  · exact holds.part

theorem StartOutcome.holds {chip : FlashChip} {recData : Vector UInt8 8} {b : Board}
    {result : Board × List Action} (outcome : StartOutcome falPartTable chip recData b result)
    (consistent : Consistent b) :
    Holds [] { result.1 with canInformTimer := false, otaStartFlag := 1 } := by
  obtain ⟨_, _, size, crc⟩ := outcome.announces
  have found := find_download
  refine holds_nil size crc ?_
  cases outcome with
  | tooLarge => exact consistent.part
  | missing => exact .inl rfl
  | eraseFailed part => exact .inr (part.symm.trans found)
  | accepted _ part => exact .inr (part.symm.trans found)

theorem StartRequest.holds {entry : BoardEntry} {chip : FlashChip} {msg : RtCanMsg}
    (asked : StartRequest entry chip msg) (taken : (boardMachine falPartTable).Takes entry)
    (consistent : Consistent entry.before) : Holds [] entry.after := by
  obtain ⟨result, outcome, after, _⟩ := (asked.starts taken).outcome
  rw [after]
  exact outcome.holds consistent

theorem Consistent.step {entry : BoardEntry} (consistent : Consistent entry.before)
    (taken : (boardMachine falPartTable).Takes entry) : Consistent entry.after := by
  have steps := boardMachine_steps taken
  rcases steps.phases with ⟨chip, msg, start⟩ | ⟨boot, restarted⟩ | ⟨continues, carries⟩
  · obtain ⟨result, outcome, after, _⟩ := start.outcome
    rw [after]
    exact .inr ⟨rfl, [], outcome.holds consistent⟩
  · rw [restarted]
    exact .inl ⟨rfl, rfl⟩
  · rcases consistent with ⟨flag, null⟩ | ⟨flag, blocks, holds⟩
    · exact .inl ⟨carries.flag.trans flag, carries.part.trans null⟩
    · refine .inr ⟨carries.flag.trans flag, ?_⟩
      rcases steps.refines continues holds with ⟨_, held⟩ | ⟨answered, _, outcome⟩
      · exact ⟨blocks, held⟩
      · split at outcome
        · exact ⟨_, outcome.2⟩
        · exact ⟨blocks, outcome⟩

theorem consistent {flash : Memory UInt8} {entries : List BoardEntry} {state : Board}
    (run : (boardMachine falPartTable).Run (Board.boot flash) entries state) :
    Consistent state ∧ ∀ entry ∈ entries, Consistent entry.before ∧ Consistent entry.after :=
  run.invariant _ (.inl ⟨rfl, rfl⟩) fun _ _ taken before => before.step taken

/-! ## A session of one block -/

/-- The start request with which the session begins, right after the restart. -/
def askEntry (data : Vector UInt8 8) : BoardEntry :=
  frameEntry falPartTable .ideal (otaAskFrame data) (Board.boot fun _ => 0xFF)

def blockEntry (data block : Vector UInt8 8) : BoardEntry :=
  frameEntry falPartTable .ideal (otaBlockFrame 0 block) (askEntry data).after

theorem askEntry_request (data : Vector UInt8 8) :
    StartRequest (askEntry data) .ideal (otaAskFrame data) := by
  refine ⟨rfl, ?_⟩
  change request 0 (otaAskFrame data) = .otaAsk
  have id : (otaAskFrame data).id = 0x04405010 := by
    show canIdGen canIdentyMainBorad canIdentyMonitorBorad canIdMainOtaAskInfo = _
    decide
  rw [request, RtCanMsg.source, RtCanMsg.messageClass, RtCanMsg.register, id]
  decide

theorem askEntry_run (data : Vector UInt8 8) :
    (boardMachine falPartTable).Run (Board.boot fun _ => 0xFF) [askEntry data] (askEntry data).after :=
  Machine.Run.nil.snoc (frameEntry_takes _ _ _ rfl)

theorem askEntry_latest (data : Vector UInt8 8) : lastStart [askEntry data] = some (askEntry data) :=
  (askEntry_request data).latest none

theorem blockEntry_run (data block : Vector UInt8 8) (running : (askEntry data).after.status = .running) :
    (boardMachine falPartTable).Run (Board.boot fun _ => 0xFF) [askEntry data, blockEntry data block]
      (blockEntry data block).after :=
  (askEntry_run data).snoc (frameEntry_takes _ _ _ running)

end DetectBoard
