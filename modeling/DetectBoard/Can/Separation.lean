import DetectBoard.Ota.Safety

/-! Which bits of a frame the receive thread goes by: the data bytes that were not
received, and the receiver field of the identifier.
-/

set_option autoImplicit false

namespace DetectBoard

open Library Flash Can

/-! ## The bytes that are received -/

/-- The frames are one and the same on the bus. What `data` holds from `len` on is left over in the
mailbox. -/
structure SameReceived (msg msg' : RtCanMsg) : Prop where
  id : msg'.id = msg.id
  ide : msg'.ide = msg.ide
  rtr : msg'.rtr = msg.rtr
  len : msg'.len = msg.len
  bytes : ∀ i : Fin 8, i.val < msg.len.toNat → msg'.data.get i = msg.data.get i

/-- How many of the eight bytes the handling of a frame goes by. -/
def bytesRead (b : Board) (msg : RtCanMsg) : ℕ :=
  match request b.otaStartFlag msg with
  | .heartbeat | .rfSwitch | .rgbSwitch => 4
  | .otaAsk => 8
  | .boardSwitch => 1
  | .otaData => if InOrder b msg.frameId then 8 else 0
  | .ignored => 0

theorem announcedSize_low (recData : Vector UInt8 8) : (announcedSize recData).toUInt8 = recData.get 7 := by
  have shifted : ∀ byte shift : UInt32, 8 ≤ shift.toNat → shift.toNat < 32 → (byte <<< shift).toUInt8 = 0 := by
    intro byte shift low high
    apply UInt8.toNat_inj.mp
    rw [UInt32.toNat_toUInt8, UInt32.toNat_shiftLeft, Nat.mod_eq_of_lt high, Nat.shiftLeft_eq,
      Nat.mod_mod_of_dvd _ (by decide)]
    exact Nat.mod_eq_zero_of_dvd (Dvd.dvd.mul_left (Nat.pow_dvd_pow 2 low) _)
  simp only [announcedSize, UInt32.toUInt8_or]
  rw [shifted _ 24 (by decide) (by decide), shifted _ 16 (by decide) (by decide),
    shifted _ 8 (by decide) (by decide)]
  simp [Vector.get]

section Handle

variable {table : List FalPartition} {chip : FlashChip} {b : Board} {msg msg' : RtCanMsg}

theorem request_congr (flag : UInt8) (source : msg'.source = msg.source)
    (messageClass : msg'.messageClass = msg.messageClass) (register : msg'.register = msg.register) :
    request flag msg' = request flag msg := by
  unfold request
  rw [source, messageClass, register]

theorem frameId_congr (register : msg'.register = msg.register) : msg'.frameId = msg.frameId := by
  have field : ∀ msg : RtCanMsg, msg.frameId = ⟨msg.register.setWidth 16⟩ := fun _ => rfl
  rw [field, field, register]

/-- The handling of a frame goes by three fields of its identifier and by the bytes read. -/
theorem canRxHandle_congr (source : msg'.source = msg.source) (messageClass : msg'.messageClass = msg.messageClass)
    (register : msg'.register = msg.register)
    (bytes : ∀ i : Fin 8, i.val < bytesRead b msg → msg'.data.get i = msg.data.get i) :
    canRxHandle table chip msg' b = canRxHandle table chip msg b := by
  have whole : 8 ≤ bytesRead b msg → msg'.data = msg.data := fun eight =>
    Vector.ext fun i bound => bytes ⟨i, bound⟩ (by dsimp only; omega)
  unfold canRxHandle
  rw [request_congr _ source messageClass register, frameId_congr register]
  unfold bytesRead at bytes whole
  cases asked : request b.otaStartFlag msg with
  | heartbeat =>
    simp only [asked] at bytes
    simp only [bytes 0 (by decide), bytes 2 (by decide), bytes 3 (by decide)]
  | rfSwitch =>
    simp only [asked] at bytes
    simp only [bytes 0 (by decide), bytes 1 (by decide), bytes 2 (by decide), bytes 3 (by decide)]
  | rgbSwitch =>
    simp only [asked] at bytes
    simp only [bytes 0 (by decide), bytes 1 (by decide), bytes 2 (by decide), bytes 3 (by decide)]
  | otaAsk =>
    simp only [asked] at whole
    simp only [whole le_rfl]
  | boardSwitch =>
    simp only [asked] at bytes
    simp only [bytes 0 (by decide)]
  | otaData =>
    simp only [asked] at whole
    dsimp only
    by_cases inOrder : InOrder b msg.frameId
    · rw [whole (by rw [if_pos inOrder])]
    · rw [mainboardOtaDataRequest_refused inOrder, mainboardOtaDataRequest_refused inOrder]
  | ignored => rfl

theorem bytesRead_le (b : Board) (msg : RtCanMsg) : bytesRead b msg ≤ 8 := by
  unfold bytesRead
  split <;> try decide
  split <;> decide

/-- The last byte read shows in what the handling of the frame does. -/
theorem canRxHandle_reads {k : Fin 8} {data : Vector UInt8 8} (last : bytesRead b msg = k.val + 1)
    (others : ∀ i : Fin 8, i ≠ k → data.get i = msg.data.get i)
    (same : canRxHandle table chip { msg with data := data } b = canRxHandle table chip msg b) :
    data.get k = msg.data.get k := by
  unfold canRxHandle at same
  rw [show request b.otaStartFlag { msg with data := data } = request b.otaStartFlag msg from rfl] at same
  unfold bytesRead at last
  cases asked : request b.otaStartFlag msg with
  | heartbeat =>
    simp only [asked] at same last
    obtain rfl : k = 3 := Fin.ext (by omega)
    have count := congrArg (fun result => result.1.mainHeart.heartBeatCount) same
    simp only [others 2 (by decide)] at count
    exact UInt8.toUInt16_inj.mp ((UInt16.add_right_inj _).mp count)
  | rfSwitch =>
    simp only [asked] at same last
    obtain rfl : k = 3 := Fin.ext (by omega)
    exact congrArg (fun result => result.1.mainRfInfo.pulseInterval) same
  | rgbSwitch =>
    simp only [asked] at same last
    obtain rfl : k = 3 := Fin.ext (by omega)
    exact congrArg (fun result => result.1.mainRgbInfo.blue) same
  | otaAsk =>
    simp only [asked] at same last
    obtain rfl : k = 7 := Fin.ext (by omega)
    have size := congrArg (fun result => result.1.ota.fileTotalSize) same
    dsimp only at size
    rw [(mainboardOtaStartRequest_outcome table chip data b).announces.2.1,
      (mainboardOtaStartRequest_outcome table chip msg.data b).announces.2.1] at size
    rw [← announcedSize_low, size, announcedSize_low]
  | boardSwitch =>
    simp only [asked] at same last
    obtain rfl : k = 0 := Fin.ext (by omega)
    have flag := congrArg (fun result => result.1.boardSwitchFlag) same
    simp only [apply_ite Prod.fst, apply_ite Board.boardSwitchFlag, ite_self] at flag
    exact (UInt8.sub_right_inj _).mp flag
  | otaData =>
    simp only [asked] at same last
    obtain inOrder : InOrder b msg.frameId := by
      by_contra other
      simp [other] at last
    have whole : data = msg.data := by
      have outcome := mainboardOtaDataRequest_outcome chip msg.frameId msg.data b
      have outcome' := mainboardOtaDataRequest_outcome chip msg.frameId data b
      obtain ⟨part, addr, buf, write⟩ := outcome.writes_iff.mpr inOrder
      have bytes := (outcome.writes_at write).2
      rw [← same] at write
      exact Vector.toList_inj.mp ((outcome'.writes_at write).2.symm.trans bytes)
    rw [whole]
  | ignored => simp [asked] at last

/-- What is done with a frame is done with the bytes that were received. -/
structure ReceivedOnly (table : List FalPartition) (chip : FlashChip) (b : Board) (msg : RtCanMsg) : Prop where
  same : ∀ msg', SameReceived msg msg' → canRxHandle table chip msg' b = canRxHandle table chip msg b
  commits : request b.otaStartFlag msg = .otaData → msg.len.toNat < 8 →
    otaDataBlockReply 1 msg.frameId ∈ blockReplies (canRxHandle table chip msg b).2 →
      .partitionWrite b.ota.dlPart b.ota.fileWriteSize (msg.data.toList.take msg.len.toNat) ∈
          (canRxHandle table chip msg b).2 ∧
        (canRxHandle table chip msg b).1.ota.fileWriteSize = b.ota.fileWriteSize + msg.len.toUInt32 ∧
        (canRxHandle table chip msg b).1.ota.fileCrcCur =
          modbusRtuCrc16Frame msg.data.toList msg.len.toUInt16 b.ota.fileCrcCur

/-- Nothing but the received bytes matters if and only if the frame is as long as its handling reads. -/
theorem rx_received_only_iff (table : List FalPartition) (chip : FlashChip) (b : Board) (msg : RtCanMsg) :
    ReceivedOnly table chip b msg ↔ bytesRead b msg ≤ msg.len.toNat := by
  constructor
  · intro only
    by_contra short
    have bound := bytesRead_le b msg
    -- the last byte that is read was not received
    obtain ⟨k, last⟩ : ∃ k : Fin 8, bytesRead b msg = k.val + 1 :=
      ⟨⟨bytesRead b msg - 1, by omega⟩, by dsimp only; omega⟩
    let stale : Vector UInt8 8 := .ofFn fun i => if i = k then msg.data.get i + 1 else msg.data.get i
    have read : ∀ i, stale.get i = if i = k then msg.data.get i + 1 else msg.data.get i := fun i => by
      show stale[i.val] = _
      rw [Vector.getElem_ofFn]
    have others : ∀ i : Fin 8, i ≠ k → stale.get i = msg.data.get i := fun i other => (read i).trans (if_neg other)
    have received : SameReceived msg { msg with data := stale } :=
      ⟨rfl, rfl, rfl, rfl, fun i bound => others i fun same => by subst same; omega⟩
    have unchanged := canRxHandle_reads last others (only.same _ received)
    rw [read k, if_pos rfl] at unchanged
    simp at unchanged
  · intro long
    refine ⟨fun msg' received => ?_, fun asked short kept => ?_⟩
    · refine canRxHandle_congr ?_ ?_ ?_ fun i bound => received.bytes i (Nat.lt_of_lt_of_le bound long)
      · exact congrArg (fun id : BitVec 29 => (id >>> 24) &&& 0xFF) received.id
      · exact congrArg (fun id : BitVec 29 => (id >>> 16) &&& 0x7) received.id
      · exact congrArg (fun id : BitVec 29 => (id >>> 0) &&& 0xFFFF) received.id
    · -- a block that is acknowledged is in order, and all eight bytes of it are read
      have outcome := mainboardOtaDataRequest_outcome chip msg.frameId msg.data b
      simp only [bytesRead, canRxHandle, asked] at long kept
      rw [if_pos (outcome.acknowledged kept)] at long
      omega

/-- A block of four bytes, with what an earlier frame may have left behind them. -/
def shortBlock (left : UInt8) : RtCanMsg :=
  { otaBlockFrame 0 #v[1, 2, 3, 4, left, left, left, left] with len := 4 }

theorem rx_stale_bytes_stored :
    let ask := askEntry #v[0, 1, 0, 0, 0, 0, 0, 9]
    (boardMachine falPartTable).Run (Board.boot fun _ => 0xFF) [ask] ask.after ∧
      SameReceived (shortBlock 0) (shortBlock 9) ∧
      (canRxHandle falPartTable .ideal (shortBlock 0) ask.after).1.flash.cells downloadStart 8 =
        [1, 2, 3, 4, 0, 0, 0, 0] ∧
      (canRxHandle falPartTable .ideal (shortBlock 9) ask.after).1.flash.cells downloadStart 8 =
        [1, 2, 3, 4, 9, 9, 9, 9] ∧
      ¬ReceivedOnly falPartTable .ideal ask.after (shortBlock 0) := by
  intro ask
  have received : SameReceived (shortBlock 0) (shortBlock 9) := ⟨rfl, rfl, rfl, rfl, by decide⟩
  have first : (canRxHandle falPartTable .ideal (shortBlock 0) ask.after).1.flash.cells downloadStart 8 =
      [1, 2, 3, 4, 0, 0, 0, 0] := by decide
  have second : (canRxHandle falPartTable .ideal (shortBlock 9) ask.after).1.flash.cells downloadStart 8 =
      [1, 2, 3, 4, 9, 9, 9, 9] := by decide
  refine ⟨askEntry_run _, received, first, second, fun only => ?_⟩
  rw [only.same _ received, first] at second
  exact absurd second (by decide)

/-! ## The receiver of a frame -/

/-- The frames differ in the receiver field of their identifiers at most. -/
structure SameButReceiver (msg msg' : RtCanMsg) : Prop where
  source : msg'.source = msg.source
  messageClass : msg'.messageClass = msg.messageClass
  register : msg'.register = msg.register
  data : msg'.data = msg.data

/-- The handling of the frame leaves the flash and everything that OTA is about as they are. -/
structure Inert (entry : BoardEntry) : Prop where
  silent : ¬WritesPartition entry
  ops : flashOps entry.output = []
  session : SameSession entry.before entry.after
  inform : entry.after.canInformTimer = entry.before.canInformTimer

theorem frame_inert (notAsk : request b.otaStartFlag msg ≠ .otaAsk)
    (refused : request b.otaStartFlag msg = .otaData → ¬InOrder b msg.frameId) :
    Inert (frameEntry table chip msg b) := by
  have quiet : ∀ {b' : Board} {actions : List Action}, canRxHandle table chip msg b = (b', actions) →
      (∀ action ∈ actions, action = .mqReset ∨ ∃ reply, action = .mqSend reply) → SameSession b b' →
      b'.canInformTimer = b.canInformTimer → Inert (frameEntry table chip msg b) := by
    intro b' actions handled sends session inform
    rw [frameEntry, handled]
    refine ⟨fun ⟨_, _, _, write⟩ => by simpa using sends _ write, ?_, session, inform⟩
    refine List.filterMap_eq_nil_iff.mpr fun action member => ?_
    rcases sends action member with rfl | ⟨_, rfl⟩ <;> rfl
  unfold canRxHandle at quiet
  cases asked : request b.otaStartFlag msg with
  | heartbeat =>
    simp only [asked] at quiet
    exact quiet rfl (by simp) ⟨rfl, rfl, rfl, rfl, rfl⟩ rfl
  | rfSwitch =>
    simp only [asked] at quiet
    exact quiet rfl (fun action member => by split at member <;> simp_all) ⟨rfl, rfl, rfl, rfl, rfl⟩ rfl
  | rgbSwitch =>
    simp only [asked] at quiet
    exact quiet rfl (by simp) ⟨rfl, rfl, rfl, rfl, rfl⟩ rfl
  | otaAsk => exact absurd asked notAsk
  | boardSwitch =>
    simp only [asked] at quiet
    by_cases opened : msg.data.get 0 = 1
    · exact quiet (if_pos opened) (by simp) ⟨rfl, rfl, rfl, rfl, rfl⟩ rfl
    · exact quiet (if_neg opened) (by simp) ⟨rfl, rfl, rfl, rfl, rfl⟩ rfl
  | otaData =>
    simp only [asked, mainboardOtaDataRequest_refused (refused asked)] at quiet
    exact quiet rfl (by simp) ⟨rfl, rfl, rfl, rfl, rfl⟩ rfl
  | ignored =>
    simp only [asked] at quiet
    exact quiet rfl (by simp) ⟨rfl, rfl, rfl, rfl, rfl⟩ rfl

/-- Whom a frame is addressed to makes no difference. What is no start request and no block that is
due leaves the flash and the session alone. -/
theorem rx_receiver_ignored (table : List FalPartition) (chip : FlashChip) (b : Board) (msg : RtCanMsg) :
    (∀ msg', SameButReceiver msg msg' → canRxHandle table chip msg' b = canRxHandle table chip msg b) ∧
      (request b.otaStartFlag msg ≠ .otaAsk → (request b.otaStartFlag msg = .otaData → ¬InOrder b msg.frameId) →
        Inert (frameEntry table chip msg b)) := by
  refine ⟨fun msg' same => ?_, frame_inert⟩
  exact canRxHandle_congr same.source same.messageClass same.register fun i _ => by rw [same.data]

/-- A start request of the main board to the screen board. -/
def screenAsk : RtCanMsg :=
  extendedFrame (canIdGen canIdentyMainBorad canIdentyScreenBorad canIdMainOtaAskInfo) 8
    #v[0, 1, 0, 0, 0, 0, 0, 9]

theorem rx_screen_ask_handled :
    let entry := frameEntry falPartTable .ideal screenAsk (Board.boot fun _ => 0xFF)
    screenAsk.receiver ≠ canIdentyMonitorBorad ∧ flashOps entry.output = downloadSectors ∧
      entry.after.otaStartFlag = 1 ∧ entry.after.otaTimer = true ∧ entry.after.canInformTimer = false ∧
      ¬Inert entry := by
  intro entry
  have erased : flashOps entry.output = downloadSectors := by decide
  refine ⟨by decide, erased, by decide, by decide, by decide, fun inert => ?_⟩
  exact absurd (erased.symm.trans inert.ops) (by decide)

end Handle

end DetectBoard
