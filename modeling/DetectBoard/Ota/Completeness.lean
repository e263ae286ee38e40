import DetectBoard.Ota.Session

/-! A transfer that is carried out as the protocol means it, to its end. -/

set_option autoImplicit false

namespace DetectBoard

open Library Flash Can

/-! ## What the main board sends and waits for -/

def DataFrame (msg : RtCanMsg) : Prop := msg.source = canIdentyMainBorad ∧ msg.messageClass = 1

instance (msg : RtCanMsg) : Decidable (DataFrame msg) := inferInstanceAs (Decidable (_ ∧ _))

/-- The data frames of a transfer from a block number on: the blocks of the image in order, over a
flash that works, with frames of other numbers in between. -/
inductive Transfer : ℕ → List UInt8 → List Event → Prop where
  | done {next : ℕ} : Transfer next [] []
  | block {next : ℕ} {image : List UInt8} {chip : FlashChip} {msg : RtCanMsg} {events : List Event} :
      chip.Works → DataFrame msg → msg.frameId.toNat = next → Transfer (next + 1) image events →
      Transfer next (msg.data.toList ++ image) (.frame chip msg :: events)
  | stray {next : ℕ} {image : List UInt8} {chip : FlashChip} {msg : RtCanMsg} {events : List Event} :
      DataFrame msg → msg.frameId.toNat ≠ next → image ≠ [] → Transfer next image events →
      Transfer next image (.frame chip msg :: events)

/-- The data replies to these frames: 1 to the block that is due, 0 to every other. -/
def expectedReplies : ℕ → List Event → List (List RtCanMsg)
  | _, [] => []
  | next, .frame _ msg :: rest =>
    if msg.frameId.toNat = next then [otaDataBlockReply 1 msg.frameId] :: expectedReplies (next + 1) rest
    else [otaDataBlockReply 0 msg.frameId] :: expectedReplies next rest
  | next, _ :: rest => [] :: expectedReplies next rest

def endReplies (actions : List Action) : List RtCanMsg :=
  actions.filterMap fun
    | .mqSend msg => if msg.id = canIdGenByReg canIdHandtoolOtaEndReply then some msg else none
    | _ => none

/-- The success is reported once, with the last block, and the board restarts with the image. -/
structure Completes (image : List UInt8) (next : ℕ) (events : List Event) (entries : List BoardEntry)
    (state : Board) : Prop where
  replies : entries.map (fun entry => blockReplies entry.output) = expectedReplies next events
  ends : ∃ earlier last chip msg writing, entries = earlier ++ [last] ∧
    (∀ entry ∈ earlier, endReplies entry.output = []) ∧ endReplies writing = [] ∧
    last.input = .frame chip msg ∧ 8 * (msg.frameId.toNat + 1) = image.length ∧
    last.output = writing ++ [.mqSend (otaDataBlockReply 1 msg.frameId), .mqSend (otaEndReply 1), .cpuReset]
  stored : state.flash.cells downloadStart image.length = image
  reset : state.status = .reset

@[simp] theorem endReplies_append (first rest : List Action) :
    endReplies (first ++ rest) = endReplies first ++ endReplies rest :=
  List.filterMap_append ..

@[simp] theorem endReplies_flash (ops : List FlashOp) : endReplies (ops.map .flash) = [] := by
  simp [endReplies, List.filterMap_map]

@[simp] theorem endReplies_partitionWrite (part : Option FalPartition) (addr : UInt32) (buf : List UInt8)
    (rest : List Action) : endReplies (.partitionWrite part addr buf :: rest) = endReplies rest := rfl

@[simp] theorem endReplies_block (value : UInt8) (frameId : UInt16) :
    endReplies [.mqSend (otaDataBlockReply value frameId)] = [] := by
  have differ : (otaDataBlockReply value frameId).id ≠ canIdGenByReg canIdHandtoolOtaEndReply := fun same => by
    have marked := otaDataBlockReply_class value frameId
    rw [RtCanMsg.messageClass, same] at marked
    exact absurd marked (by decide)
  simp [endReplies, differ]

@[simp] theorem endReplies_start (value : UInt8) : endReplies [.mqSend (otaStartReply value)] = [] := by
  have differ : (otaStartReply value).id ≠ canIdGenByReg canIdHandtoolOtaEndReply := by
    have apart : canIdGenByReg canIdHandtoolOtaStartReply ≠ canIdGenByReg canIdHandtoolOtaEndReply := by decide
    exact apart
  simp [endReplies, differ]

theorem request_dataFrame {msg : RtCanMsg} (data : DataFrame msg) : request 1 msg = .otaData := by
  have other : ¬ msg.messageClass = 0 := by
    rw [data.2]
    decide
  rw [request, if_pos data.1, if_neg other, if_pos ⟨rfl, data.2⟩]

theorem Transfer.nil {next : ℕ} {events : List Event} (transfer : Transfer next [] events) : events = [] := by
  generalize none : ([] : List UInt8) = image at transfer
  cases transfer with
  | done => rfl
  | block => simp at none
  | stray _ _ left => exact absurd none.symm left

/-! ## A board in the middle of a transfer -/

structure Receiving (image : List UInt8) (blocks : List (List UInt8)) (b : Board) : Prop where
  holds : Holds blocks b
  running : b.status = .running
  flag : b.otaStartFlag = 1
  part : b.ota.dlPart = some downloadPart
  size : b.ota.fileTotalSize.toNat = image.length
  crc : b.ota.fileCrc16 = crc16 image
  erased : ∀ a, downloadStart + 8 * blocks.length ≤ a → a < downloadEnd → b.flash a = 0xFF

section Frame

variable {image rest : List UInt8} {blocks : List (List UInt8)} {b : Board} {chip : FlashChip} {msg : RtCanMsg}

theorem Receiving.step (receiving : Receiving image blocks b) (data : DataFrame msg) :
    (boardMachine falPartTable).step b (.frame chip msg) =
      some (mainboardOtaDataRequest chip msg.frameId 8 msg.data b) := by
  have asked : request b.otaStartFlag msg = .otaData := receiving.flag ▸ request_dataFrame data
  show boardStep falPartTable b (.frame chip msg) = _
  rw [boardStep, if_pos receiving.running, canRxHandle, asked]

/-- The next block is written, and the cells beyond it are as they were. -/
theorem Receiving.written (receiving : Receiving image blocks b) (works : chip.Works)
    (fits : 8 * (blocks.length + 1) ≤ downloadLen) :
    ∃ done, falPartitionWrite chip b.flash b.ota.dlPart b.ota.fileWriteSize msg.data.toList = some done ∧
      0 ≤ done.ret ∧
      Holds (blocks ++ [msg.data.toList]) { b with ota := b.ota.advance 8 msg.data, flash := done.mem } ∧
      ∀ a, downloadStart + 8 * (blocks.length + 1) ≤ a → a < downloadEnd → done.mem a = 0xFF := by
  have size := receiving.holds.writeSize
  have eight : msg.data.toList.length = 8 := by simp
  have whole : downloadStart + downloadLen = downloadEnd := rfl
  obtain ⟨done, written, ok⟩ := @write_download_works chip works b.flash b.ota.fileWriteSize msg.data.toList
    (List.ne_nil_of_length_eq_add_one eight) (by omega) fun a low high => receiving.erased a (by omega) (by omega)
  obtain ⟨result, same, outcome⟩ := write_download chip b.flash b.ota.fileWriteSize msg.data.toList
    (by simp only [downloadLen] at fits; omega)
  obtain rfl : done = result := Option.some.inj (written.symm.trans same)
  rw [← receiving.part] at written
  refine ⟨done, written, ok, receiving.holds.snoc written ok rfl rfl rfl rfl, fun a low high => ?_⟩
  rcases outcome with rfl | ⟨_, _, agree, _⟩
  · exact receiving.erased a (by omega) high
  · exact (agree.same a (.inr (by omega))).trans (receiving.erased a (by omega) high)

/-- The block that is due is stored. The last one ends the transfer, every other goes on with it. -/
theorem Receiving.block (receiving : Receiving image blocks b) (works : chip.Works)
    (due : msg.frameId.toNat = blocks.length) (fits : image.length ≤ downloadLen)
    (whole : image = blocks.flatten ++ (msg.data.toList ++ rest)) {result : Board × List Action}
    (outcome : DataOutcome chip msg.frameId msg.data b result) :
    ∃ writing, endReplies writing = [] ∧ blockReplies writing = [] ∧
      (rest = [] ∧ result.1.flash.cells downloadStart image.length = image ∧ result.1.status = .reset ∧
          result.2 = writing ++
            [.mqSend (otaDataBlockReply 1 msg.frameId), .mqSend (otaEndReply 1), .cpuReset] ∨
        rest ≠ [] ∧ Receiving image (blocks ++ [msg.data.toList]) result.1 ∧
          result.2 = writing ++ [.mqSend (otaDataBlockReply 1 msg.frameId)]) := by
  have holds := receiving.holds
  have inOrder : InOrder b msg.frameId := (holds.inOrder_iff _).mpr due
  have length : image.length = 8 * (blocks.length + 1) + rest.length := by
    rw [whole]
    simp only [List.length_append, holds.length, Vector.length_toList]
    omega
  obtain ⟨done, written, ok, kept, erased⟩ := @Receiving.written _ _ _ _ msg receiving works (by omega)
  have unique : ∀ {other}, falPartitionWrite chip b.flash b.ota.dlPart b.ota.fileWriteSize msg.data.toList =
      some other → other = done := fun same => Option.some.inj (same.symm.trans written)
  have reached : (b.ota.advance 8 msg.data).fileWriteSize.toNat = 8 * (blocks.length + 1) := by
    simpa using kept.writeSize
  have size := receiving.size
  -- the announced size is reached with the last block only
  have last : b.ota.fileTotalSize ≤ (b.ota.advance 8 msg.data).fileWriteSize →
      rest = [] ∧ (blocks ++ [msg.data.toList]).flatten = image := by
    intro passed
    have passed := UInt32.le_iff_toNat_le.mp passed
    have ended : rest = [] := List.length_eq_zero_iff.mp (by omega)
    exact ⟨ended, by simp [whole, ended]⟩
  refine ⟨.partitionWrite b.ota.dlPart b.ota.fileWriteSize msg.data.toList :: done.ops.map .flash, by simp,
    by simp, ?_⟩
  cases outcome with
  | outOfOrder other => exact absurd inOrder other
  | noPartition _ null => exact absurd (null.symm.trans receiving.part) (by simp)
  | writeFailed _ same failed =>
    obtain rfl := unique same
    exact absurd failed (Int.not_lt.mpr ok)
  | stored _ same _ before =>
    obtain rfl := unique same
    refine .inr ⟨?_, ⟨kept.keep rfl rfl rfl rfl, receiving.running, receiving.flag, receiving.part, size,
      receiving.crc, by simpa using erased⟩, rfl⟩
    rintro rfl
    have before := UInt32.lt_iff_toNat_lt.mp before
    simp only [List.length_nil] at length
    omega
  | mismatch _ _ _ passed differ =>
    have same : crc16 (blocks ++ [msg.data.toList]).flatten = crc16 image := congrArg crc16 (last passed).2
    exact absurd (kept.crc.trans (same.trans receiving.crc.symm)) differ
  | completed _ same _ passed =>
    obtain rfl := unique same
    obtain ⟨ended, complete⟩ := last passed
    refine .inl ⟨ended, ?_, rfl, List.append_assoc ..⟩
    rw [← complete, kept.length]
    exact kept.stored

/-- A start request is accepted when the image fits and its erase works. -/
theorem StartOutcome.receiving {recData : Vector UInt8 8} {result : Board × List Action}
    (outcome : StartOutcome falPartTable chip recData b result) (running : b.status = .running)
    (works : chip.Works) (size : (announcedSize recData).toNat = image.length)
    (crc : announcedCrc16 recData = crc16 image) (fits : image.length ≤ downloadLen) :
    Receiving image [] { result.1 with canInformTimer := false, otaStartFlag := 1 } ∧
      ∃ ops : List FlashOp, result.2 = ops.map .flash ++ [.mqSend (otaStartReply 1)] := by
  obtain ⟨ok, erased⟩ := erase_download_works works b.flash
  cases outcome with
  | tooLarge large =>
    have large := UInt32.le_iff_toNat_le.mp large
    rw [size] at large
    exact absurd (Nat.le_trans large fits) (by decide)
  | missing absent => exact absurd (absent.symm.trans find_download) (by simp)
  | eraseFailed found failed =>
    obtain rfl := Option.some.inj (found.symm.trans find_download)
    exact absurd failed (Int.not_lt.mpr ok)
  | accepted _ found =>
    obtain rfl := Option.some.inj (found.symm.trans find_download)
    exact ⟨⟨holds_nil rfl rfl (.inr rfl), running, rfl, rfl, size, crc, erased⟩, _, rfl⟩

end Frame

/-! ## The whole transfer -/

section Transfer

variable {image rest : List UInt8} {events : List Event} {next : ℕ} {b : Board}

theorem Completes.cons {later : ℕ} {event : Event} {entry : BoardEntry} {entries : List BoardEntry}
    {state : Board} (completes : Completes image later events entries state) (quiet : endReplies entry.output = [])
    (reply : expectedReplies next (event :: events) = blockReplies entry.output :: expectedReplies later events) :
    Completes image next (event :: events) (entry :: entries) state := by
  obtain ⟨earlier, last, chip, msg, writing, rfl, before, end_⟩ := completes.ends
  refine ⟨by rw [reply, ← completes.replies, List.map_cons],
    ⟨entry :: earlier, last, chip, msg, writing, rfl, fun other member => ?_, end_⟩,
    completes.stored, completes.reset⟩
  rcases List.mem_cons.mp member with rfl | old
  · exact quiet
  · exact before other old

theorem Receiving.completes (fits : image.length ≤ downloadLen) (transfer : Transfer next rest events)
    {blocks : List (List UInt8)} (receiving : Receiving image blocks b) (due : next = blocks.length)
    (whole : image = blocks.flatten ++ rest) (left : rest ≠ []) :
    ∃ entries state, (boardMachine falPartTable).exec b events = some (entries, state) ∧
      Completes image next events entries state := by
  induction transfer generalizing b blocks with
  | done => exact absurd rfl left
  | @block next rest chip msg events works data number transfer ih =>
    have stepped := @Receiving.step _ _ _ chip _ receiving data
    have outcome := mainboardOtaDataRequest_outcome chip msg.frameId msg.data b
    generalize mainboardOtaDataRequest chip msg.frameId 8 msg.data b = result at stepped outcome
    obtain ⟨state, output⟩ := result
    obtain ⟨writing, quiet, silent, answer⟩ :=
      receiving.block works (number.trans due) fits whole outcome
    dsimp only at answer
    have reply : expectedReplies next (.frame chip msg :: events) =
        [otaDataBlockReply 1 msg.frameId] :: expectedReplies (next + 1) events := by
      rw [expectedReplies, if_pos number]
    rcases answer with ⟨rfl, stored, reset, rfl⟩ | ⟨left, receiving, rfl⟩
    · obtain rfl := transfer.nil
      have replied : blockReplies (writing ++
          [.mqSend (otaDataBlockReply 1 msg.frameId), .mqSend (otaEndReply 1), .cpuReset]) =
          [otaDataBlockReply 1 msg.frameId] := by
        rw [blockReplies_append, silent]
        simp [blockReplies]
      refine ⟨_, state, Machine.exec_cons stepped rfl, ?_, ⟨[], _, chip, msg, writing, rfl, by simp, quiet,
        rfl, ?_, rfl⟩, stored, reset⟩
      · rw [reply, List.map_singleton, replied]
        rfl
      · rw [whole, number, due]
        simp [receiving.holds.length]
        omega
    · obtain ⟨entries, last, done, completes⟩ := ih receiving (by simp [due]) (by simp [whole]) left
      refine ⟨_, last, Machine.exec_cons stepped done, completes.cons ?_ ?_⟩
      · rw [endReplies_append, quiet, endReplies_block]
        rfl
      · rw [reply, blockReplies_append, silent, blockReplies_send]
        rfl
  | @stray next rest chip msg events data number missing transfer ih =>
    have other : ¬InOrder b msg.frameId := fun inOrder =>
      number (((receiving.holds.inOrder_iff _).mp inOrder).trans due.symm)
    obtain ⟨entries, state, done, completes⟩ := ih receiving due whole left
    have stepped := @Receiving.step _ _ _ chip _ receiving data
    rw [mainboardOtaDataRequest_refused other] at stepped
    exact ⟨_, state, Machine.exec_cons stepped done,
      completes.cons (endReplies_block ..) (by simp [expectedReplies, number])⟩

/-- A transfer over a flash that works is completed, whatever frames out of order come in between. -/
theorem ota_completes {chip : FlashChip} {ask : RtCanMsg} (running : b.status = .running) (works : chip.Works)
    (asked : request b.otaStartFlag ask = .otaAsk) (size : (announcedSize ask.data).toNat = image.length)
    (crc : announcedCrc16 ask.data = crc16 image) (content : image ≠ []) (fits : image.length ≤ downloadLen)
    (transfer : Transfer 0 image events) :
    ∃ start entries state,
      (boardMachine falPartTable).exec b (.frame chip ask :: events) = some (start :: entries, state) ∧
        .mqSend (otaStartReply 1) ∈ start.output ∧ endReplies start.output = [] ∧
        Completes image 0 events entries state := by
  have stepped : (boardMachine falPartTable).step b (.frame chip ask) =
      some (canRxHandle falPartTable chip ask b) := if_pos running
  simp only [canRxHandle, asked] at stepped
  obtain ⟨receiving, ops, output⟩ :=
    (mainboardOtaStartRequest_outcome falPartTable chip ask.data b).receiving running works size crc fits
  obtain ⟨entries, state, done, completes⟩ := receiving.completes fits transfer rfl rfl content
  refine ⟨_, entries, state, Machine.exec_cons stepped done, ?_, ?_, completes⟩
  · rw [output]
    exact List.mem_append_right _ List.mem_cons_self
  · rw [output, endReplies_append, endReplies_flash, endReplies_start]
    rfl

theorem ota_completes_two_blocks :
    ∃ start entries state, (boardMachine falPartTable).exec (Board.boot fun _ => 0xFF)
        [.frame .ideal (otaAskFrame #v[0, 1, 40, 59, 0, 0, 0, 16]),
          .frame .ideal (otaBlockFrame 0 #v[1, 2, 3, 4, 5, 6, 7, 8]),
          .frame .ideal (otaBlockFrame 3 (.replicate 8 0)),
          .frame .ideal (otaBlockFrame 1 #v[9, 10, 11, 12, 13, 14, 15, 16])] = some (start :: entries, state) ∧
      entries.map (fun entry => blockReplies entry.output) =
        [[otaDataBlockReply 1 0], [otaDataBlockReply 0 3], [otaDataBlockReply 1 1]] ∧
      state.flash.cells downloadStart 16 = [1, 2, 3, 4, 5, 6, 7, 8, 9, 10, 11, 12, 13, 14, 15, 16] ∧
      state.status = .reset := by
  have second : Transfer 1 [9, 10, 11, 12, 13, 14, 15, 16]
      [.frame .ideal (otaBlockFrame 1 #v[9, 10, 11, 12, 13, 14, 15, 16])] :=
    @Transfer.block 1 [] .ideal (otaBlockFrame 1 #v[9, 10, 11, 12, 13, 14, 15, 16]) [] FlashChip.ideal_works
      (by decide) (by decide) .done
  have stray : Transfer 1 [9, 10, 11, 12, 13, 14, 15, 16] [.frame .ideal (otaBlockFrame 3 (.replicate 8 0)),
      .frame .ideal (otaBlockFrame 1 #v[9, 10, 11, 12, 13, 14, 15, 16])] :=
    .stray (by decide) (by decide) (by decide) second
  have transfer : Transfer 0 [1, 2, 3, 4, 5, 6, 7, 8, 9, 10, 11, 12, 13, 14, 15, 16]
      [.frame .ideal (otaBlockFrame 0 #v[1, 2, 3, 4, 5, 6, 7, 8]), .frame .ideal (otaBlockFrame 3 (.replicate 8 0)),
        .frame .ideal (otaBlockFrame 1 #v[9, 10, 11, 12, 13, 14, 15, 16])] :=
    @Transfer.block 0 [9, 10, 11, 12, 13, 14, 15, 16] .ideal (otaBlockFrame 0 #v[1, 2, 3, 4, 5, 6, 7, 8]) _
      FlashChip.ideal_works (by decide) (by decide) stray
  obtain ⟨start, entries, state, done, _, _, completes⟩ :=
    ota_completes rfl FlashChip.ideal_works (askEntry_request #v[0, 1, 40, 59, 0, 0, 0, 16]).2 (by decide)
      (by decide) (by decide) (by decide) transfer
  exact ⟨start, entries, state, done, completes.replies, completes.stored, completes.reset⟩

end Transfer

end DetectBoard
