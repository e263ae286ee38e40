import DetectBoard.Ota.Session
import DetectBoard.CyclicRedundancy

/-! What the main board may conclude from the replies of an OTA session: which
blocks are in the flash, whether a reported success is one, and what becomes of
a block that it sends again.
-/

set_option autoImplicit false

namespace DetectBoard

open Library Flash Can

/-! ## What was acknowledged is in the flash -/

section Session

variable {flash : Memory UInt8} {pre post : List BoardEntry} {start entry : BoardEntry} {state : Board}
  {chip : FlashChip} {msg : RtCanMsg}

theorem ota_prefix_integrity
    (run : (boardMachine falPartTable).Run (Board.boot flash) (pre ++ start :: post) state)
    (asked : StartRequest start chip msg) (answered : .mqSend (otaStartReply 1) ∈ start.output)
    (session : ∀ entry ∈ post, Continues entry) :
    let kept := (deliveries post).filter Delivery.kept
    kept.map Delivery.number = List.range kept.length ∧
      state.ota.fileWriteSize.toNat = 8 * kept.length ∧ 8 * kept.length ≤ downloadLen ∧
      state.flash.cells downloadStart (8 * kept.length) = (kept.map Delivery.block).flatten ∧
      state.ota.fileCrcCur = crc16 (state.flash.cells downloadStart (8 * kept.length)) ∧
      ∀ entry ∈ post, ∀ chip msg, DataRequest entry chip msg →
        ∃ reply, blockReplies entry.output = [reply] ∧ reply.frameId = msg.frameId ∧
          (reply = otaDataBlockReply 1 msg.frameId ∨
            reply = otaDataBlockReply 0 msg.frameId ∧ entry.after.ota = entry.before.ota) := by
  obtain ⟨before, taken, rest⟩ := run.reach
  have started := asked.starts taken
  have empty := asked.holds taken (consistent before).1
  obtain ⟨blocks, receives, holds⟩ := session_receives rest empty session
  dsimp only
  rw [receives.count, receives.numbers, receives.content, holds.stored]
  refine ⟨rfl, holds.writeSize, holds.fits, rfl, holds.crc, fun entry member chip msg given => ?_⟩
  obtain ⟨first, last, rfl⟩ := List.append_of_mem member
  obtain ⟨before, taken, _⟩ := rest.reach
  obtain ⟨kept, _, held⟩ := session_receives before empty fun entry member => session entry (by simp [member])
  rcases (given.outcome taken).receives held with ⟨reply, _⟩ | ⟨reply, same, _⟩ | ⟨null, _⟩
  · exact ⟨_, reply, otaDataBlockReply_frameId .., .inl rfl⟩
  · exact ⟨_, reply, otaDataBlockReply_frameId .., .inr ⟨rfl, same⟩⟩
  · have whole : pre ++ start :: (first ++ entry :: last) = (pre ++ start :: first) ++ entry :: last := by simp
    rw [whole] at run
    have inForce := governed run.reach.1
    have latest : lastStart (pre ++ start :: first) = some start :=
      lastStart_session pre asked fun entry member => session entry (by simp [member])
    rw [Governed, latest] at inForce
    obtain ⟨part, _, _, found⟩ := started.accepted answered
    exact absurd (null.symm.trans (inForce.part.trans found)) (by simp)

theorem ota_prefix_integrity_one_block :
    let entry := blockEntry #v[0, 1, 0, 0, 0, 0, 0, 9] #v[1, 2, 3, 4, 5, 6, 7, 8]
    entry.after.ota.fileWriteSize.toNat = 8 ∧
      entry.after.flash.cells downloadStart 8 = [1, 2, 3, 4, 5, 6, 7, 8] := by
  intro entry
  have run : (boardMachine falPartTable).Run (Board.boot fun _ => 0xFF)
    ([] ++ askEntry #v[0, 1, 0, 0, 0, 0, 0, 9] :: [entry]) entry.after := blockEntry_run _ _ (by decide)
  have whole := ota_prefix_integrity run (askEntry_request _) (by decide) fun other member => by
    rw [List.mem_singleton.mp member]
    exact continues_of_frame rfl (by decide)
  have kept : (deliveries [entry]).filter Delivery.kept = [⟨0, [1, 2, 3, 4, 5, 6, 7, 8], true⟩] := by
    decide
  rw [kept] at whole
  exact ⟨whole.2.1, whole.2.2.2.1⟩

end Session

/-! ## A reported success -/

/-- The announced bytes, and no others, make up the announced CRC. -/
def SuccessSound (pre : List BoardEntry) (entry : BoardEntry) : Prop :=
  ∃ last chip msg, lastStart pre = some last ∧ StartRequest last chip msg ∧
    crc16 (entry.after.flash.cells downloadStart (announcedSize msg.data).toNat) =
      announcedCrc16 msg.data

/-- A block that the board is about to store ends within the announced file. -/
def WithinFile (entry : BoardEntry) : Prop :=
  ∀ chip msg, DataRequest entry chip msg → InOrder entry.before msg.frameId →
    entry.before.ota.fileWriteSize.toNat + 8 ≤ entry.before.ota.fileTotalSize.toNat

theorem ended_dataRequest {table : List FalPartition} {entry : BoardEntry}
    (taken : (boardMachine table).Takes entry) (ended : .mqSend (otaEndReply 1) ∈ entry.output) :
    ∃ chip msg, DataRequest entry chip msg := by
  have differ : ∀ value, otaEndReply 1 ≠ otaStartReply value := by
    intro value same
    have : canIdGenByReg canIdHandtoolOtaEndReply ≠ canIdGenByReg canIdHandtoolOtaStartReply := by decide
    exact this (congrArg RtCanMsg.id same)
  cases boardMachine_steps taken with
  | start _ _ outcome => cases outcome <;> simp [differ] at ended
  | data _ asked => exact ⟨_, _, rfl, asked⟩
  | other _ _ _ _ unrelated => exact absurd ended (unrelated.no_end 1)
  | timeout => simp at ended
  | boot => simp at ended

/-- As long as no block reaches beyond the announced file, an end reply 1 tells the truth. -/
theorem ota_success_sound {flash : Memory UInt8} {entries : List BoardEntry} {state : Board}
    (run : (boardMachine falPartTable).Run (Board.boot flash) entries state)
    (within : ∀ entry ∈ entries, WithinFile entry) :
    Along (fun pre entry => .mqSend (otaEndReply 1) ∈ entry.output → SuccessSound pre entry) entries := by
  rintro pre entry post rfl ended
  obtain ⟨before, taken, _⟩ := run.reach
  obtain ⟨chip, msg, given⟩ := ended_dataRequest taken ended
  have outcome := given.outcome taken
  obtain ⟨inOrder, answered, reached, same, _⟩ := outcome.ended ended
  obtain ⟨crc, size, _⟩ := outcome.keeps
  rcases (consistent before).1 with ⟨flag, _⟩ | ⟨_, blocks, holds⟩
  · exact absurd ((request_otaData given.2).symm.trans flag) (by decide)
  have inside := within entry (by simp) chip msg given inOrder
  rcases outcome.receives holds with ⟨_, _, held⟩ | ⟨refused, _⟩ | ⟨_, silent, _⟩
  · -- the block reached the announced size and did not pass it
    have exact_size : entry.after.ota.fileTotalSize.toNat = 8 * (blocks ++ [msg.data.toList]).length := by
      have reached := UInt32.le_iff_toNat_le.mp reached
      have before := holds.writeSize
      have after := held.writeSize
      rw [size] at reached ⊢
      simp only [List.length_append, List.length_singleton] at *
      omega
    have inForce := governed (run.reach.1)
    unfold Governed at inForce
    split at inForce
    · exact absurd ((request_otaData given.2).symm.trans inForce.1) (by decide)
    · next last latest =>
      obtain ⟨_, msg, start, announcedCrc, announcedSize⟩ := inForce.announced
      refine ⟨last, _, msg, latest, start, ?_⟩
      rw [← announcedSize, ← announcedCrc, ← crc, ← same, held.crc, ← size, exact_size, held.stored]
  · rw [refused] at answered
    exact absurd (List.mem_singleton.mp answered) (otaDataBlockReply_ne _)
  · rw [silent] at answered
    cases answered

theorem ota_success_sound_eight_bytes :
    SuccessSound [askEntry #v[0, 1, 176, 207, 0, 0, 0, 8]]
      (blockEntry #v[0, 1, 176, 207, 0, 0, 0, 8] #v[1, 2, 3, 4, 5, 6, 7, 8]) := by
  refine ota_success_sound (blockEntry_run _ _ (by decide)) ?_ _ _ [] rfl (by decide)
  intro entry member chip msg given _
  rcases List.mem_cons.mp member with rfl | last
  · have asked := askEntry_request #v[0, 1, 176, 207, 0, 0, 0, 8]
    cases asked.1.symm.trans given.1
    exact absurd (asked.2.symm.trans given.2) (by decide)
  · rw [List.mem_singleton.mp last]
    decide

theorem ota_success_padded :
    let ask := askEntry #v[0, 1, 197, 72, 0, 0, 0, 1]
    let entry := blockEntry #v[0, 1, 197, 72, 0, 0, 0, 1] #v[0x5A, 0, 0, 0, 0, 0, 0, 0]
    (boardMachine falPartTable).Run (Board.boot fun _ => 0xFF) [ask, entry] entry.after ∧
      .mqSend (otaEndReply 1) ∈ entry.output ∧ ¬SuccessSound [ask] entry := by
  -- a file of one byte, announced with the CRC of the block that the byte is padded to
  intro ask entry
  refine ⟨blockEntry_run _ _ (by decide), by decide, ?_⟩
  rintro ⟨last, chip, msg, latest, start, crc⟩
  have asked := askEntry_request #v[0, 1, 197, 72, 0, 0, 0, 1]
  obtain rfl : ask = last := Option.some.inj ((askEntry_latest _).symm.trans latest)
  obtain ⟨rfl, rfl⟩ := Event.frame.inj (asked.1.symm.trans start.1)
  exact absurd crc (by decide)

/-! ## A corrupted image -/

/-- The bytes of the blocks acknowledged so far. -/
def receivedImage (entries : List BoardEntry) : List UInt8 :=
  (((deliveries entries).filter Delivery.kept).map Delivery.block).flatten

theorem ended_crc {flash : Memory UInt8} {pre post : List BoardEntry} {start entry : BoardEntry} {state : Board}
    {chip : FlashChip} {msg : RtCanMsg}
    (run : (boardMachine falPartTable).Run (Board.boot flash) (pre ++ start :: (post ++ [entry])) state)
    (asked : StartRequest start chip msg) (session : ∀ other ∈ post ++ [entry], Continues other)
    (ended : .mqSend (otaEndReply 1) ∈ entry.output) :
    crc16 (receivedImage (post ++ [entry])) = announcedCrc16 msg.data := by
  obtain ⟨before, taken, rest⟩ := run.reach
  obtain ⟨blocks, receives, holds⟩ := session_receives rest (asked.holds taken (consistent before).1) session
  obtain ⟨_, last, done⟩ := rest.reach
  obtain rfl := done.nil_eq
  obtain ⟨_, _, given⟩ := ended_dataRequest last ended
  obtain ⟨_, _, _, same, _⟩ := (given.outcome last).ended ended
  have inForce := governed run
  rw [Governed, lastStart_session pre asked session] at inForce
  obtain ⟨_, _, start, crc, _⟩ := inForce.announced
  obtain ⟨_, rfl⟩ := Event.frame.inj (asked.1.symm.trans start.1)
  rw [receivedImage, receives.content, ← holds.crc, same, crc]

/-- Two messages that differ within two adjacent bytes have different CRCs, so a session ends in a
mismatch when its image differs like this from the one whose CRC was announced. -/
theorem crc_detects_corruption {image received : List UInt8} (corrupted : LocallyCorrupted image received) :
    (image.length < 65536 →
      modbusRtuCrc16 image (.ofNat image.length) ≠ modbusRtuCrc16 received (.ofNat received.length) ∧
        ∀ init, modbusRtuCrc16Frame image (.ofNat image.length) init ≠
          modbusRtuCrc16Frame received (.ofNat received.length) init) ∧
      ∀ {flash : Memory UInt8} {pre post : List BoardEntry} {start entry : BoardEntry} {state : Board}
        {chip : FlashChip} {msg : RtCanMsg},
        (boardMachine falPartTable).Run (Board.boot flash) (pre ++ start :: (post ++ [entry])) state →
        StartRequest start chip msg → announcedCrc16 msg.data = crc16 image →
        (∀ other ∈ post ++ [entry], Continues other) → receivedImage (post ++ [entry]) = received →
        .mqSend (otaEndReply 1) ∉ entry.output := by
  refine ⟨fun short => ?_, fun run asked announced session whole ended => ?_⟩
  · have same := whole_length short
    have other := whole_length (corrupted.length ▸ short)
    refine ⟨?_, fun init => ?_⟩
    · rw [modbusRtuCrc16_eq, modbusRtuCrc16_eq, same, other]
      exact crc16From_detects corrupted 0xFFFF
    · rw [modbusRtuCrc16Frame_eq, modbusRtuCrc16Frame_eq, same, other]
      exact crc16From_detects corrupted init
  · have crc := ended_crc run asked session ended
    rw [whole, announced] at crc
    exact crc16From_detects corrupted 0xFFFF crc.symm

theorem crc_detects_corruption_last_byte :
    modbusRtuCrc16 [1, 2, 3, 4, 5, 6, 7, 8] 8 ≠ modbusRtuCrc16 [1, 2, 3, 4, 5, 6, 7, 9] 8 ∧
      .mqSend (otaEndReply 1) ∉
        (blockEntry #v[0, 1, 176, 207, 0, 0, 0, 8] #v[1, 2, 3, 4, 5, 6, 7, 9]).output := by
  have corrupted : LocallyCorrupted ([1, 2, 3, 4, 5, 6, 7, 8] : List UInt8) [1, 2, 3, 4, 5, 6, 7, 9] := by
    have set : ([1, 2, 3, 4, 5, 6, 7, 8] : List UInt8).set 7 9 = [1, 2, 3, 4, 5, 6, 7, 9] := rfl
    rw [← set]
    exact ⟨rfl, by decide, 7, fun j last _ => (List.getElem?_set_ne (Ne.symm last)).symm⟩
  obtain ⟨differ, ends⟩ := crc_detects_corruption corrupted
  have run : (boardMachine falPartTable).Run (Board.boot fun _ => 0xFF)
    ([] ++ askEntry #v[0, 1, 176, 207, 0, 0, 0, 8] ::
      ([] ++ [blockEntry #v[0, 1, 176, 207, 0, 0, 0, 8] #v[1, 2, 3, 4, 5, 6, 7, 9]]))
    _ := blockEntry_run _ _ (by decide)
  refine ⟨(differ (by decide)).1, ends run (askEntry_request _) (by decide) (fun other member => ?_)
    (by decide)⟩
  rw [List.mem_singleton.mp member]
  exact continues_of_frame rfl (by decide)

/-! ## A block that is sent again -/

theorem last_acknowledged {b state : Board} {first rest : List BoardEntry} {entry : BoardEntry} {chip : FlashChip}
    {msg : RtCanMsg} (run : (boardMachine falPartTable).Run b (first ++ entry :: rest) state) (holds : Holds [] b)
    (session : ∀ other ∈ first ++ entry :: rest, Continues other) (given : DataRequest entry chip msg)
    (kept : otaDataBlockReply 1 msg.frameId ∈ blockReplies entry.output) (quiet : accepted rest = 0) :
    accepted (first ++ entry :: rest) = msg.frameId.toNat + 1 := by
  obtain ⟨before, taken, _⟩ := run.reach
  have number := (session_accepted before holds fun other member => session other (by simp [member])).2 msg.frameId
  rw [← List.singleton_append, accepted_append, accepted_append, accepted_single given kept, quiet,
    ← number.mp ((given.outcome taken).acknowledged kept)]

/-- The last block acknowledged is refused when it is sent again: the board waits for the next one. -/
theorem ota_repeated_refused {flash : Memory UInt8} {pre first rest : List BoardEntry} {start entry : BoardEntry}
    {state : Board} {chip chip' : FlashChip} {ask msg : RtCanMsg}
    (run : (boardMachine falPartTable).Run (Board.boot flash) (pre ++ start :: (first ++ entry :: rest)) state)
    (asked : StartRequest start chip ask) (session : ∀ other ∈ first ++ entry :: rest, Continues other)
    (given : DataRequest entry chip' msg) (kept : otaDataBlockReply 1 msg.frameId ∈ blockReplies entry.output)
    (quiet : accepted rest = 0) (running : state.status = .running) (again : FlashChip) :
    state.ota.fileWriteSize.toNat / 8 - 1 = msg.frameId.toNat ∧
      (boardMachine falPartTable).step state (.frame again msg) =
        some (state, [.mqSend (otaDataBlockReply 0 msg.frameId)]) := by
  obtain ⟨before, taken, rest_run⟩ := run.reach
  have holds := asked.holds taken (consistent before).1
  have last := last_acknowledged rest_run holds session given kept quiet
  obtain ⟨writeSize, inOrder_iff⟩ := session_accepted rest_run holds session
  have inForce := governed run
  rw [Governed, lastStart_session pre asked session] at inForce
  have data : request state.otaStartFlag msg = .otaData := by
    rw [inForce.flag, ← request_otaData given.2]
    exact given.2
  have other : ¬InOrder state msg.frameId := by
    rw [inOrder_iff, last]
    omega
  refine ⟨by omega, ?_⟩
  show boardStep falPartTable state (.frame again msg) = _
  rw [boardStep, if_pos running, canRxHandle, data]
  exact congrArg some (mainboardOtaDataRequest_refused other)

/-- The first block of a file of two, which is then sent once more. -/
def repeatedEntry : BoardEntry :=
  frameEntry falPartTable .ideal (otaBlockFrame 0 #v[8, 7, 6, 5, 4, 3, 2, 1])
    (blockEntry #v[0, 1, 0, 0, 0, 0, 0, 16] #v[8, 7, 6, 5, 4, 3, 2, 1]).after

theorem ota_repeated_refused_first_block :
    repeatedEntry.output = [.mqSend (otaDataBlockReply 0 0)] := by
  let block := blockEntry #v[0, 1, 0, 0, 0, 0, 0, 16] #v[8, 7, 6, 5, 4, 3, 2, 1]
  have run : (boardMachine falPartTable).Run (Board.boot fun _ => 0xFF)
    ([] ++ askEntry #v[0, 1, 0, 0, 0, 0, 0, 16] :: ([] ++ block :: [])) block.after := blockEntry_run _ _ (by decide)
  have refused := (ota_repeated_refused run (askEntry_request _) (fun other member => by
    rw [List.mem_singleton.mp member]
    exact continues_of_frame rfl (by decide)) ⟨rfl, by decide⟩ (by decide) rfl (by decide) .ideal).2
  have taken : (boardMachine falPartTable).step block.after (.frame .ideal (otaBlockFrame 0 #v[8, 7, 6, 5, 4, 3, 2, 1])) =
    some (repeatedEntry.after, repeatedEntry.output) := frameEntry_takes _ _ _ (by decide)
  exact congrArg Prod.snd (Option.some.inj (taken.symm.trans refused))

theorem ota_repeated_not_acknowledged :
    let ask := askEntry #v[0, 1, 0, 0, 0, 0, 0, 16]
    let block := blockEntry #v[0, 1, 0, 0, 0, 0, 0, 16] #v[8, 7, 6, 5, 4, 3, 2, 1]
    (boardMachine falPartTable).Run (Board.boot fun _ => 0xFF) [ask, block, repeatedEntry] repeatedEntry.after ∧
      .mqSend (otaStartReply 1) ∈ ask.output ∧ .mqSend (otaDataBlockReply 1 0) ∈ block.output ∧
      repeatedEntry.input = block.input ∧
      repeatedEntry.before.ota.fileWriteSize < repeatedEntry.before.ota.fileTotalSize ∧
      .mqSend (otaDataBlockReply 1 0) ∉ repeatedEntry.output := by
  intro ask block
  have run : (boardMachine falPartTable).Run (Board.boot fun _ => 0xFF) [ask, block] block.after :=
    blockEntry_run _ _ (by decide)
  exact ⟨run.snoc (frameEntry_takes _ _ _ (by decide)), by decide, by decide, rfl, by decide,
    by decide⟩

end DetectBoard
