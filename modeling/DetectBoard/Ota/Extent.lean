import DetectBoard.Ota.Safety

/-! How far an OTA session writes, against the size that its start request announced, and
whether the partition has room for that size.

The board compares what it has written with the announced size only after a
write, and only to report the end. It goes on with a session that has ended in
a mismatch.
-/

set_option autoImplicit false

namespace DetectBoard

open Library Flash Can

/-- The number of blocks that a file of this size takes. -/
def needed (size : ℕ) : ℕ := (size + 7) / 8

/-- The next write of a session stays in the announced file, and there is none once the file has
been received. -/
structure WithinAnnounced (size : ℕ) (earlier : List BoardEntry) (entry : BoardEntry) : Prop where
  offset : ∀ part addr buf, .partitionWrite part addr buf ∈ entry.output →
    addr.toNat < size ∧ addr.toNat + buf.length ≤ size + 7
  idle : needed size ≤ accepted earlier → ∀ chip msg, DataRequest entry chip msg →
    entry.after.flash = entry.before.flash ∧ entry.after.ota.fileWriteSize = entry.before.ota.fileWriteSize ∧
      entry.after.ota.fileCrcCur = entry.before.ota.fileCrcCur

/-- No block follows the last one of the announced file. -/
def StopsAt (size : ℕ) (earlier : List BoardEntry) (entry : BoardEntry) : Prop :=
  accepted earlier = needed size → ∀ chip msg, DataRequest entry chip msg → msg.frameId.toNat ≠ needed size

section Session

variable {b state : Board} {entries : List BoardEntry} {entry : BoardEntry} {size : ℕ}

theorem accepted_snoc (entries : List BoardEntry) (entry : BoardEntry) :
    accepted (entries ++ [entry]) = accepted entries ∨
      accepted (entries ++ [entry]) = accepted entries + 1 ∧
        ∃ chip msg, DataRequest entry chip msg ∧ otaDataBlockReply 1 msg.frameId ∈ blockReplies entry.output := by
  unfold accepted
  rw [deliveries_snoc, List.filter_append, List.length_append]
  cases given : delivery entry with
  | none => exact .inl rfl
  | some answered =>
    cases kept : answered.kept with
    | false => exact .inl (by simp [kept])
    | true =>
      refine .inr ⟨by simp [kept], ?_⟩
      obtain ⟨before, input, after, output⟩ := entry
      cases input with
      | frame chip msg =>
        simp only [delivery, Option.ite_none_right_eq_some, Option.some.injEq] at given
        obtain ⟨asked, rfl⟩ := given
        exact ⟨chip, msg, ⟨rfl, asked⟩, of_decide_eq_true kept⟩
      | otaTimerTimeout => cases given
      | boot => cases given

theorem accepted_le (run : (boardMachine falPartTable).Run b entries state) (holds : Holds [] b)
    (session : ∀ entry ∈ entries, Continues entry) (stops : Along (StopsAt size) entries) :
    accepted entries ≤ needed size := by
  induction run with
  | nil => exact Nat.zero_le _
  | @snoc earlier last run taken ih =>
    obtain ⟨stops, here⟩ := Along.snoc_iff.mp stops
    have session : ∀ entry ∈ earlier, Continues entry := fun entry member => session entry (by simp [member])
    have before := ih session stops
    rcases accepted_snoc earlier last with same | ⟨grown, chip, msg, given, kept⟩
    · rwa [same]
    · -- the block that is kept is the next one, so it is not the one after the last
      have number := ((session_accepted run holds session).2 _).mp ((given.outcome taken).acknowledged kept)
      have other : accepted earlier ≠ needed size := fun full =>
        here full chip msg given (number.trans full)
      omega

theorem WithinAnnounced.stops (run : (boardMachine falPartTable).Run b entries entry.before) (holds : Holds [] b)
    (session : ∀ entry ∈ entries, Continues entry) (taken : (boardMachine falPartTable).Takes entry)
    (within : WithinAnnounced size entries entry) : StopsAt size entries entry := by
  obtain ⟨writeSize, inOrder_iff⟩ := session_accepted run holds session
  intro full chip msg given number
  have outcome := given.outcome taken
  obtain ⟨part, addr, buf, write⟩ := outcome.writes_iff.mpr ((inOrder_iff _).mpr (number.trans full.symm))
  have inside := (within.offset part addr buf write).1
  rw [(outcome.writes_at write).1, writeSize, full, needed] at inside
  omega

theorem StopsAt.within (run : (boardMachine falPartTable).Run b entries entry.before) (holds : Holds [] b)
    (session : ∀ entry ∈ entries, Continues entry) (taken : (boardMachine falPartTable).Takes entry)
    (le : accepted entries ≤ needed size) (stops : StopsAt size entries entry) :
    WithinAnnounced size entries entry := by
  obtain ⟨writeSize, inOrder_iff⟩ := session_accepted run holds session
  refine ⟨fun part addr buf write => ?_, fun full chip msg given => ?_⟩
  · obtain ⟨chip, msg, given, inOrder⟩ := (writes_iff taken).mp ⟨part, addr, buf, write⟩
    have number := (inOrder_iff _).mp inOrder
    have other : accepted entries ≠ needed size := fun full => stops full chip msg given (number.trans full)
    obtain ⟨rfl, rfl⟩ := (given.outcome taken).writes_at write
    rw [writeSize, Vector.length_toList]
    unfold needed at le other
    omega
  · have full := le_antisymm le full
    have other : ¬InOrder entry.before msg.frameId := fun inOrder =>
      stops full chip msg given (((inOrder_iff _).mp inOrder).trans full)
    have refused := congrArg Prod.fst ((given.outcome taken).refused other)
    dsimp only at refused
    rw [refused]
    exact ⟨rfl, rfl, rfl⟩

/-- A session writes within the announced file if and only if no block follows the last one. -/
theorem ota_within_file_iff {flash : Memory UInt8} {pre post : List BoardEntry} {start : BoardEntry}
    {chip : FlashChip} {msg : RtCanMsg}
    (run : (boardMachine falPartTable).Run (Board.boot flash) (pre ++ start :: post) state)
    (asked : StartRequest start chip msg) (session : ∀ entry ∈ post, Continues entry) :
    Along (WithinAnnounced (announcedSize msg.data).toNat) post ↔
      Along (StopsAt (announcedSize msg.data).toNat) post := by
  obtain ⟨before, taken, rest⟩ := run.reach
  have holds := asked.holds taken (consistent before).1
  constructor
  · rintro within earlier entry later rfl
    obtain ⟨reached, taken, _⟩ := rest.reach
    exact (within earlier entry later rfl).stops reached holds (fun other member => session other (by simp [member]))
      taken
  · rintro stops earlier entry later rfl
    obtain ⟨reached, taken, _⟩ := rest.reach
    have session : ∀ other ∈ earlier, Continues other := fun other member => session other (by simp [member])
    exact (stops earlier entry later rfl).within reached holds session taken
      (accepted_le reached holds session stops.of_append)

theorem ota_within_file_one_block :
    Along (WithinAnnounced 9) [blockEntry #v[0, 1, 0, 0, 0, 0, 0, 9] #v[1, 2, 3, 4, 5, 6, 7, 8]] := by
  have run : (boardMachine falPartTable).Run (Board.boot fun _ => 0xFF)
    ([] ++ askEntry #v[0, 1, 0, 0, 0, 0, 0, 9] :: [blockEntry #v[0, 1, 0, 0, 0, 0, 0, 9] #v[1, 2, 3, 4, 5, 6, 7, 8]])
    _ := blockEntry_run _ _ (by decide)
  refine (ota_within_file_iff run (askEntry_request _) fun other member => ?_).mpr ?_
  · rw [List.mem_singleton.mp member]
    exact continues_of_frame rfl (by decide)
  · exact Along.snoc_iff.mpr ⟨.nil, fun full => absurd full (by decide)⟩

/-- The block after the one that ended in a mismatch. -/
def nextEntry : BoardEntry :=
  frameEntry falPartTable .ideal (otaBlockFrame 1 #v[9, 9, 9, 9, 9, 9, 9, 9])
    (blockEntry #v[0, 1, 0, 0, 0, 0, 0, 8] #v[1, 2, 3, 4, 5, 6, 7, 8]).after

theorem ota_writes_beyond :
    let ask := askEntry #v[0, 1, 0, 0, 0, 0, 0, 8]
    let first := blockEntry #v[0, 1, 0, 0, 0, 0, 0, 8] #v[1, 2, 3, 4, 5, 6, 7, 8]
    (boardMachine falPartTable).Run (Board.boot fun _ => 0xFF) ([] ++ ask :: [first, nextEntry]) nextEntry.after ∧
      .mqSend (otaStartReply 1) ∈ ask.output ∧ .mqSend (otaEndReply 0) ∈ first.output ∧
      (∀ entry ∈ [first, nextEntry], Continues entry) ∧
      .partitionWrite (some downloadPart) 8 [9, 9, 9, 9, 9, 9, 9, 9] ∈ nextEntry.output ∧
      nextEntry.after.ota.fileWriteSize = 16 ∧ ¬Along (WithinAnnounced 8) [first, nextEntry] := by
  intro ask first
  have write : .partitionWrite (some downloadPart) 8 [9, 9, 9, 9, 9, 9, 9, 9] ∈ nextEntry.output := by
    decide
  have run : (boardMachine falPartTable).Run (Board.boot fun _ => 0xFF) [ask, first] first.after :=
    blockEntry_run _ _ (by decide)
  refine ⟨?_, by decide, by decide, fun other member => ?_, write, by decide, fun along => ?_⟩
  · exact run.snoc (frameEntry_takes _ _ _ (by decide))
  · rcases List.mem_cons.mp member with rfl | last
    · exact continues_of_frame rfl (by decide)
    · rw [List.mem_singleton.mp last]
      exact continues_of_frame rfl (by decide)
  · exact absurd ((along [first] nextEntry [] rfl).offset _ _ _ write).1 (by decide)

end Session

/-! ## The room in the partition -/

/-- The partition has room for every block of a file of this size. -/
def HoldsFile (part : FalPartition) (size : UInt32) : Prop :=
  ∀ k < needed size.toNat, part.HasRoom (.ofNat (8 * k)) 8

/-- A start request that is accepted has selected a partition with room for the file. -/
def AcceptsFitting (size : UInt32) (result : Board × List Action) : Prop :=
  .mqSend (otaStartReply 1) ∈ result.2 → ∃ part, result.1.ota.dlPart = some part ∧ HoldsFile part size

theorem downloadPart_holdsFile {size : UInt32} (admitted : size < deviceOtaRomSize) :
    HoldsFile downloadPart size ↔ size ≤ downloadPart.len := by
  have admitted : size.toNat < 524288 := UInt32.lt_iff_toNat_lt.mp admitted
  have room : ∀ k < needed size.toNat, (downloadPart.HasRoom (.ofNat (8 * k)) 8 ↔ 8 * k + 8 ≤ downloadLen) := by
    intro k last
    unfold needed at last
    have offset : (UInt32.ofNat (8 * k)).toNat = 8 * k :=
      UInt32.toNat_ofNat_of_lt' (by simp only [UInt32.size]; omega)
    rw [download_room (by omega), offset]
  have length : size ≤ downloadPart.len ↔ size.toNat ≤ downloadLen := UInt32.le_iff_toNat_le
  rw [length]
  unfold needed downloadLen at *
  constructor
  · intro holds
    by_contra large
    -- the last block, rounded up to eight bytes, ends beyond the partition
    have last := (room ((size.toNat + 7) / 8 - 1) (by omega)).mp (holds _ (by unfold needed; omega))
    omega
  · intro le k last
    exact (room k last).mpr (by unfold needed at last; omega)

/-- An accepted file fits unless it lies between the length of the partition and the admission limit. -/
theorem ota_accepted_fits_iff (chip : FlashChip) (recData : Vector UInt8 8) (b : Board) :
    AcceptsFitting (announcedSize recData) (mainboardOtaStartRequest falPartTable chip recData b) ↔
      announcedSize recData ≤ downloadPart.len ∨ deviceOtaRomSize ≤ announcedSize recData ∨
        (falPartitionEraseAll chip b.flash downloadPart).ret < 0 := by
  have outcome := mainboardOtaStartRequest_outcome falPartTable chip recData b
  generalize mainboardOtaStartRequest falPartTable chip recData b = result at outcome
  have differ : otaStartReply 1 ≠ otaStartReply 0 := by decide
  unfold AcceptsFitting
  cases outcome with
  | tooLarge large => simp [differ, large]
  | missing absent => exact absurd (absent.symm.trans find_download) (by simp)
  | eraseFailed found failed =>
    obtain rfl := Option.some.inj (found.symm.trans find_download)
    simp [differ, failed]
  | accepted small found erased =>
    obtain rfl := Option.some.inj (found.symm.trans find_download)
    simp [Int.not_lt.mpr erased, UInt32.not_le.mpr small, downloadPart_holdsFile small]

theorem ota_accepted_too_large :
    let recData : Vector UInt8 8 := #v[0, 1, 0, 0, 0, 6, 0, 1]
    let result := mainboardOtaStartRequest falPartTable .ideal recData (Board.boot fun _ => 0xFF)
    announcedSize recData = 393217 ∧ .mqSend (otaStartReply 1) ∈ result.2 ∧
      result.1.ota.dlPart = some downloadPart ∧ ¬downloadPart.HasRoom (.ofNat (8 * 49152)) 8 ∧
      ¬AcceptsFitting 393217 result := by
  intro recData result
  have accepted : .mqSend (otaStartReply 1) ∈ result.2 := by decide
  have selected : result.1.ota.dlPart = some downloadPart := by decide
  have full : ¬downloadPart.HasRoom (.ofNat (8 * 49152)) 8 := by decide
  refine ⟨by decide, accepted, selected, full, fun fitting => ?_⟩
  obtain ⟨part, found, holds⟩ := fitting accepted
  obtain rfl := Option.some.inj (found.symm.trans selected)
  exact full (holds 49152 (by decide))

end DetectBoard
