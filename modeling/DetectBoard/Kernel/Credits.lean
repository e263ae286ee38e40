import DetectBoard.Kernel.MessageQueue

/-! The message queue does what a queue with credits does, whatever comes between the parts of the calls.

A free block is a credit, and the messages are those of the blocks that one meets
from the head on. Every caller passes the size of one and the same message type.
-/

set_option autoImplicit false

namespace DetectBoard.Kernel

open Library

variable {τ : Type} {size blocks : ℕ}

/-! ## What the blocks stand for -/

def message (mq : RtMessagequeue τ) (size msg : ℕ) : List UInt8 := (mq.body msg).take size

def MqLocation.stage (mq : RtMessagequeue τ) (size : ℕ) : MqLocation → Stage (List UInt8)
  | .outside => .outside
  | .allocated _ buffer => .sending buffer
  | .filled msg => .ready (message mq size msg)
  | .suspended _ => .waiting
  | .resumed _ error => .woken !error
  | .removed msg _ => .receiving (message mq size msg)
  | .copied _ => .received

def MqState.image (size : ℕ) (s : MqState τ) (queue free : List ℕ) : CreditQueue τ (List UInt8) where
  entries := queue.map (message s.mq size)
  credit := free.length
  waiting := s.mq.suspendThread
  stage t := (s.location t).stage s.mq size

def MqCall.view : MqCall τ → QueueCall τ (List UInt8)
  | .send t buffer => .send t buffer
  | .fill t => .fill t
  | .link t => .link t
  | .recv t _ => .receive t
  | .resume t => .resume t
  | .copy t => .take t
  | .free t => .release t
  | .reset => .reset

/-- The call is for messages of this size. -/
def MqCall.Sized (size : ℕ) : MqCall τ → Prop
  | .send _ buffer => buffer.length = size
  | .recv _ size' => size' = size
  | _ => True

/-- What a location says about the call is what `Sized` demanded of it, and a filled block ends its list. -/
def MqLocation.Sized (mq : RtMessagequeue τ) (size : ℕ) : MqLocation → Prop
  | .allocated _ buffer => buffer.length = size
  | .filled msg => mq.next msg = none
  | .suspended size' | .resumed size' _ | .removed _ size' => size' = size
  | .outside | .copied _ => True

/-- The lists that the pointers of the queue lead through. -/
structure Shape [Fintype τ] (size blocks : ℕ) (s : MqState τ) (queue free : List ℕ) : Prop where
  queued : Linked s.mq.next s.mq.msgQueueHead queue
  tail : s.mq.msgQueueTail = queue.getLast?
  freed : Linked s.mq.next s.mq.msgQueueFree free
  entry : s.mq.entry.toNat = queue.length
  placed : Placed blocks queue free s.location
  sized : ∀ t, (s.location t).Sized s.mq size
  fits : size ≤ s.mq.msgSize.toNat
  pool : s.mq.maxMsgs.toNat = blocks

/-! ## A new queue -/

theorem freeLoop_linked (next : ℕ → Option ℕ) (temp : ℕ) :
    Linked (freeLoop next temp).1 (freeLoop next temp).2 (List.range temp).reverse := by
  induction temp with
  | zero => rfl
  | succ temp ih =>
    rw [List.range_succ, List.reverse_append]
    exact ih.push (by simp)

theorem created_shape [Fintype τ] (msgSize maxMsgs : UInt16) (next : ℕ → Option ℕ) (body : ℕ → List UInt8)
    (fits : size ≤ (rtAlign msgSize).toNat) :
    Shape size maxMsgs.toNat (MqState.created msgSize maxMsgs next body : MqState τ) []
      (List.range maxMsgs.toNat).reverse where
  queued := rfl
  tail := rfl
  freed := freeLoop_linked next maxMsgs.toNat
  entry := rfl
  placed msg := by
    have free : (List.range maxMsgs.toNat).reverse.count msg = if msg < maxMsgs.toNat then 1 else 0 := by
      rw [List.count_reverse]
      split
      · next inside => exact List.count_eq_one_of_mem List.nodup_range (List.mem_range.mpr inside)
      · next outside => exact List.count_eq_zero.mpr fun member => outside (List.mem_range.mp member)
    have unheld : holders (MqState.created msgSize maxMsgs next body : MqState τ).location msg = 0 :=
      Finset.sum_eq_zero fun t _ => rfl
    rw [unheld, free, List.count_nil, Nat.zero_add]
    rfl
  sized _ := trivial
  fits := fits
  pool := rfl

theorem created_image (msgSize maxMsgs : UInt16) (next : ℕ → Option ℕ) (body : ℕ → List UInt8) :
    (MqState.created msgSize maxMsgs next body : MqState τ).image size [] (List.range maxMsgs.toNat).reverse =
      CreditQueue.created maxMsgs.toNat := by
  simp only [MqState.image, MqState.created, rtMqCreate, CreditQueue.created, List.map_nil, List.length_reverse,
    List.length_range, MqLocation.stage]

/-! ## The steps -/

section Simulation

variable {s s' : MqState τ} {queue free rest : List ℕ} {t : τ} {msg : ℕ} {location : MqLocation}
  {mq mq' : RtMessagequeue τ}

theorem image_stage (here : s.location t = location) :
    (s.image size queue free).stage t = location.stage s.mq size := by
  rw [← here]
  rfl

theorem message_fill {msg' : ℕ} (apart : msg' ≠ msg) (buffer : List UInt8) :
    message (mq.fill msg buffer) size msg' = message mq size msg' := by
  simp only [message, RtMessagequeue.fill, Function.update_of_ne apart]

theorem message_filled {buffer : List UInt8} (whole : buffer.length = size) :
    message (mq.fill msg buffer) size msg = buffer := by
  simp only [message, RtMessagequeue.fill, Function.update_self]
  exact List.take_left' whole

/-- The bytes of a block matter only to the one who holds it. -/
theorem stage_fill {buffer : List UInt8} (other : location.block ≠ some msg) :
    location.stage (mq.fill msg buffer) size = location.stage mq size := by
  cases location with
  | filled msg' | removed msg' =>
    have apart : msg' ≠ msg := fun same => other (by rw [same]; rfl)
    simp only [MqLocation.stage, message_fill apart]
  | _ => rfl

/-- So does its pointer. -/
theorem sized_next (sized : location.Sized mq size)
    (same : ∀ msg, location.block = some msg → mq'.next msg = mq.next msg) : location.Sized mq' size := by
  cases location with
  | filled msg' => exact (same msg' rfl).trans sized
  | _ => exact sized

theorem removeHead_tail (tail : mq.msgQueueTail = (msg :: rest).getLast?) (absent : msg ∉ rest) :
    (mq.removeHead msg).msgQueueTail = rest.getLast? := by
  simp only [RtMessagequeue.removeHead, tail]
  cases rest with
  | nil => simp
  | cons second others =>
    have last : (msg :: second :: others).getLast? ≠ some msg := by
      rw [List.getLast?_cons_cons]
      exact fun same => absent (List.mem_of_getLast? same)
    rw [if_neg last, List.getLast?_cons_cons]

/-- Where the pointers change: only in the block at the end. -/
theorem link_next (tail : mq.msgQueueTail = queue.getLast?) {other : ℕ} (absent : other ∉ queue) :
    (mq.link msg).next other = mq.next other := by
  cases here : mq.msgQueueTail with
  | none => simp only [RtMessagequeue.link, here]
  | some last =>
    have member : last ∈ queue := List.mem_of_getLast? (tail ▸ here)
    simp only [RtMessagequeue.link, here]
    exact Function.update_of_ne (by rintro rfl; exact absent member) ..

theorem link_queued (queued : Linked mq.next mq.msgQueueHead queue) (tail : mq.msgQueueTail = queue.getLast?)
    (distinct : queue.Nodup) (absent : msg ∉ queue) (ends : mq.next msg = none) :
    Linked (mq.link msg).next (mq.link msg).msgQueueHead (queue ++ [msg]) := by
  rcases List.eq_nil_or_concat queue with rfl | ⟨init, last, rfl⟩
  · simp only [RtMessagequeue.link, tail, List.getLast?_nil, queued.head_eq]
    exact ⟨rfl, ends⟩
  · rw [List.concat_eq_append] at *
    have head : mq.msgQueueHead.or (some msg) = mq.msgQueueHead := by
      rw [queued.head_eq]
      cases init <;> rfl
    simp only [RtMessagequeue.link, tail, List.getLast?_append, List.getLast?_singleton, Option.some_or, head]
    exact queued.snoc distinct absent ends

/-- The loop ends with an empty queue, and all blocks of the queue in the free list. -/
theorem resetLoop_spec {rounds : ℕ} {mq : RtMessagequeue τ} (queued : Linked mq.next mq.msgQueueHead queue)
    (tail : mq.msgQueueTail = queue.getLast?) (freed : Linked mq.next mq.msgQueueFree free)
    (distinct : (queue ++ free).Nodup) (enough : queue.length ≤ rounds) :
    ∃ next msgQueueFree, mq.resetLoop rounds =
        { mq with next, msgQueueHead := none, msgQueueTail := none, msgQueueFree } ∧
      Linked next msgQueueFree (queue.reverse ++ free) ∧ ∀ other ∉ queue, next other = mq.next other := by
  induction rounds generalizing mq queue free with
  | zero =>
    obtain rfl := List.length_eq_zero_iff.mp (Nat.le_zero.mp enough)
    obtain ⟨_, _, _, _, _, _, _, _, _⟩ := mq
    cases queued
    cases tail
    exact ⟨_, _, rfl, freed, fun _ _ => rfl⟩
  | succ rounds ih =>
    cases queue with
    | nil =>
      have headless : mq.msgQueueHead = none := queued
      refine ⟨mq.next, mq.msgQueueFree, ?_, freed, fun _ _ => rfl⟩
      simp only [RtMessagequeue.resetLoop, headless]
      obtain ⟨_, _, _, _, _, _, _, _, _⟩ := mq
      cases headless
      cases tail
      rfl
    | cons msg rest =>
      have head : mq.msgQueueHead = some msg := queued.1
      rw [List.cons_append, List.nodup_cons, List.mem_append, not_or] at distinct
      obtain ⟨⟨absent, spare⟩, distinct⟩ := distinct
      have later : List.Nodup (rest ++ msg :: free) := by
        rw [List.nodup_middle, List.nodup_cons, List.mem_append, not_or]
        exact ⟨⟨absent, spare⟩, distinct⟩
      let after := (mq.removeHead msg).free msg
      have queued : Linked after.next after.msgQueueHead rest := queued.2.update absent _
      have freed : Linked after.next after.msgQueueFree (msg :: free) := freed.push spare
      obtain ⟨next, msgQueueFree, reset, linked, kept⟩ :=
        ih queued (removeHead_tail tail absent) freed later (Nat.le_of_succ_le_succ enough)
      refine ⟨next, msgQueueFree, ?_, ?_, fun other outside => ?_⟩
      · simp only [RtMessagequeue.resetLoop, head]
        exact reset
      · rwa [List.reverse_cons, List.append_assoc, List.singleton_append]
      · rw [List.mem_cons, not_or] at outside
        rw [kept other outside.2]
        exact Function.update_of_ne outside.1 ..

theorem holders_congr [Fintype τ] {places places' : τ → MqLocation} (same : ∀ t, (places' t).block = (places t).block)
    (msg : ℕ) : holders places' msg = holders places msg :=
  Finset.sum_congr rfl fun t _ => by simp only [same]

variable [DecidableEq τ]

theorem resumeAll_location (threads : List τ) (location : τ → MqLocation) (t : τ) :
    threads.foldl (fun location t => Function.update location t ((location t).resume true)) location t =
      if t ∈ threads then (location t).resume true else location t := by
  induction threads generalizing location with
  | nil => rfl
  | cons first rest ih =>
    have again : ((location t).resume true).resume true = (location t).resume true := by
      cases location t <;> rfl
    rw [List.foldl_cons, ih]
    by_cases same : t = first
    · subst same
      simp [again]
    · simp [same]

theorem image_goTo : (s.goTo t location).image size queue free =
    { s.image size queue free with
      stage := Function.update (s.image size queue free).stage t (location.stage s.mq size) } := by
  simp only [MqState.image, MqState.goTo, CreditQueue.mk.injEq, true_and]
  funext t'
  by_cases same : t' = t
  · rw [same, Function.update_self, Function.update_self]
  · rw [Function.update_of_ne same, Function.update_of_ne same]

theorem sized_goTo (sized : ∀ t, (s.location t).Sized s.mq size) (next : location.Sized s.mq size) :
    ∀ t', ((s.goTo t location).location t').Sized s.mq size := by
  intro t'
  rw [MqState.goTo_location]
  by_cases same : t' = t
  · rw [same, Function.update_self]
    exact next
  · rw [Function.update_of_ne same]
    exact sized t'

theorem image_ipcListResume (waits : ∀ t ∈ s.mq.suspendThread, ∃ size, s.location t = .suspended size) :
    s.ipcListResume.image size queue free = (s.image size queue free).wake := by
  cases suspended : s.mq.suspendThread with
  | nil => rw [s.ipcListResume_nil suspended, (s.image size queue free).wake_nil suspended]
  | cons first rest =>
    obtain ⟨size', here⟩ := waits first (by simp [suspended])
    have woken : ((s.location first).resume false).stage s.mq size = .woken true := by rw [here]; rfl
    rw [s.ipcListResume_cons suspended, (s.image size queue free).wake_cons suspended, ← woken]
    exact image_goTo

variable [Fintype τ] {priority : τ → ℕ} {reports : List (MqReport τ)}

theorem Shape.send (shape : Shape size blocks s queue free) (outside : s.location t = .outside) {buffer : List UInt8}
    (sized : buffer.length = size) (sent : s.rtMqSend t buffer = (s', reports)) :
    ∃ free', Shape size blocks s' queue free' ∧ CreditQueue.Steps priority (s.image size queue free) (.send t buffer)
      (s'.image size queue free') reports := by
  have stage : (s.image size queue free).stage t = .outside := image_stage outside
  have small : ¬ s.mq.msgSize.toNat < buffer.length := by
    have fits := shape.fits
    omega
  rw [MqState.rtMqSend, if_neg small] at sent
  have freed := shape.freed
  split at sent
  · next exhausted =>
    rw [exhausted] at freed
    obtain rfl := freed.of_none
    cases sent
    exact ⟨[], shape, .refuses stage rfl⟩
  · next msg first =>
    rw [first] at freed
    obtain ⟨rest, rfl, later⟩ := freed.of_some
    cases sent
    refine ⟨rest, ⟨shape.queued, shape.tail, later, shape.entry, ?_, ?_, shape.fits, shape.pool⟩, ?_⟩
    · refine shape.placed.move fun other => ?_
      simp only [outside, MqLocation.block, List.count_cons, beq_iff_eq, Option.some.injEq, reduceCtorEq, if_false]
      omega
    · exact sized_goTo (s := { s with mq.msgQueueFree := s.mq.next msg }) shape.sized sized
    · rw [image_goTo]
      exact .reserves stage (Nat.succ_pos _)

theorem Shape.fill (shape : Shape size blocks s queue free) {buffer : List UInt8}
    (allocated : s.location t = .allocated msg buffer) :
    Shape size blocks (({ s with mq := s.mq.fill msg buffer }).goTo t (.filled msg)) queue free ∧
      CreditQueue.Steps priority (s.image size queue free) (.fill t)
        ((({ s with mq := s.mq.fill msg buffer }).goTo t (.filled msg)).image size queue free) [] := by
  have stage : (s.image size queue free).stage t = .sending buffer := image_stage allocated
  have whole : buffer.length = size := by
    have sized := shape.sized t
    rwa [allocated] at sized
  obtain ⟨_, absent, spare, alone⟩ := shape.placed.held (t := t) (by rw [allocated]; rfl)
  have elsewhere : ∀ t', t' ≠ t → (s.location t').block ≠ some msg := alone
  constructor
  · refine ⟨shape.queued.update absent none, shape.tail, shape.freed.update spare none, shape.entry, ?_, ?_, shape.fits,
      shape.pool⟩
    · refine shape.placed.move fun other => ?_
      rw [allocated]
      rfl
    · intro t'
      rw [MqState.goTo_location]
      by_cases same : t' = t
      · rw [same, Function.update_self]
        exact Function.update_self ..
      · rw [Function.update_of_ne same]
        refine sized_next (shape.sized t') fun other holds => Function.update_of_ne ?_ ..
        rintro rfl
        exact elsewhere t' same holds
  · have filled : (({ s with mq := s.mq.fill msg buffer }).goTo t (.filled msg)).image size queue free =
        { s.image size queue free with stage := Function.update (s.image size queue free).stage t (.ready buffer) } := by
      have contents : queue.map (message (s.mq.fill msg buffer) size) = queue.map (message s.mq size) :=
        List.map_congr_left fun other member => message_fill (by rintro rfl; exact absent member) buffer
      have stages : (fun t' => (Function.update s.location t (.filled msg) t').stage (s.mq.fill msg buffer) size) =
          Function.update (s.image size queue free).stage t (.ready buffer) := by
        funext t'
        by_cases same : t' = t
        · rw [same, Function.update_self, Function.update_self, MqLocation.stage, message_filled whole]
        · rw [Function.update_of_ne same, Function.update_of_ne same]
          exact stage_fill (elsewhere t' same)
      exact (CreditQueue.mk.injEq ..).mpr ⟨contents, rfl, rfl, stages⟩
    rw [filled]
    exact .fills stage

theorem Shape.ipcListResume (shape : Shape size blocks s queue free) :
    Shape size blocks s.ipcListResume queue free := by
  cases suspended : s.mq.suspendThread with
  | nil => rwa [s.ipcListResume_nil suspended]
  | cons first rest =>
    have block : ((s.location first).resume false).block = (s.location first).block := by
      cases s.location first <;> rfl
    have sized : ((s.location first).resume false).Sized s.mq size := by
      have before := shape.sized first
      cases here : s.location first <;> rw [here] at before <;> exact before
    rw [s.ipcListResume_cons suspended]
    refine ⟨shape.queued, shape.tail, shape.freed, shape.entry, ?_, ?_, shape.fits, shape.pool⟩
    · exact shape.placed.move fun other => by rw [block]
    · exact sized_goTo (s := { s with mq.suspendThread := rest }) shape.sized sized

theorem Shape.link (shape : Shape size blocks s queue free)
    (waits : ∀ t ∈ s.mq.suspendThread, ∃ size, s.location t = .suspended size)
    (filled : s.location t = .filled msg) (linked : s.linkMessage t msg = (s', reports)) :
    Shape size blocks s' (queue ++ [msg]) free ∧
      CreditQueue.Steps priority (s.image size queue free) (.link t) (s'.image size (queue ++ [msg]) free) reports := by
  have stage : (s.image size queue free).stage t = .ready (message s.mq size msg) := image_stage filled
  have ends : s.mq.next msg = none := by
    have sized := shape.sized t
    rwa [filled] at sized
  have holds : (s.location t).block = some msg := by rw [filled]; rfl
  obtain ⟨_, absent, spare, alone⟩ := shape.placed.held holds
  have room := shape.placed.room holds
  have entry := shape.entry
  have small := s.mq.maxMsgs.toNat_lt
  have pool := shape.pool
  have below : s.mq.entry < rtMqEntryMax := by
    rw [UInt16.lt_iff_toNat_lt, entry]
    simp only [rtMqEntryMax, UInt16.reduceToNat]
    omega
  rw [MqState.linkMessage, if_pos below] at linked
  obtain ⟨rfl, rfl⟩ := Prod.mk.inj linked
  let after : MqState τ :=
    { mq := { s.mq.link msg with entry := s.mq.entry + 1 }, location := Function.update s.location t .outside }
  have next : ∀ other, other ∉ queue → (s.mq.link msg).next other = s.mq.next other :=
    fun _ => link_next shape.tail
  have whole : Shape size blocks after (queue ++ [msg]) free := by
    refine ⟨link_queued shape.queued shape.tail shape.placed.distinct.of_append_left absent ends, ?_, ?_, ?_, ?_, ?_,
      shape.fits, shape.pool⟩
    · rw [List.getLast?_append, List.getLast?_singleton, Option.some_or]
      rfl
    · refine shape.freed.congr fun other member => next other fun queued => ?_
      exact List.disjoint_of_nodup_append shape.placed.distinct queued member
    · rw [List.length_append, List.length_singleton, ← entry]
      refine (UInt16.toNat_add ..).trans ?_
      rw [entry, UInt16.toNat_one]
      omega
    · refine shape.placed.move fun other => ?_
      simp only [filled, MqLocation.block, List.count_append, List.count_singleton, beq_iff_eq, Option.some.injEq,
        reduceCtorEq, if_false]
      omega
    · have sized : ∀ t', t' ≠ t → (s.location t').Sized after.mq size := fun t' same =>
        sized_next (shape.sized t') fun other holds => next other (shape.placed.held holds).2.1
      intro t'
      by_cases same : t' = t
      · simp only [after, same, Function.update_self]
        trivial
      · simp only [after, Function.update_of_ne same]
        exact sized t' same
  have suspended : ∀ t' ∈ after.mq.suspendThread, ∃ size, after.location t' = .suspended size := by
    intro t' member
    obtain ⟨size', here⟩ := waits t' member
    have other : t' ≠ t := by
      rintro rfl
      simp [filled] at here
    exact ⟨size', by simp only [after, Function.update_of_ne other, here]⟩
  have image : after.image size (queue ++ [msg]) free = { s.image size queue free with
      entries := queue.map (message s.mq size) ++ [message s.mq size msg]
      stage := Function.update (s.image size queue free).stage t .outside } := by
    have contents : (queue ++ [msg]).map (message after.mq size) =
      queue.map (message s.mq size) ++ [message s.mq size msg] := List.map_append
    have moved : (({ s with mq := after.mq } : MqState τ).goTo t .outside).image size (queue ++ [msg]) free = _ :=
      image_goTo
    exact moved.trans ((CreditQueue.mk.injEq ..).mpr ⟨contents, rfl, rfl, rfl⟩)
  refine ⟨whole.ipcListResume, ?_⟩
  have appended : after.ipcListResume.image size (queue ++ [msg]) free =
      (s.image size queue free).append t (message s.mq size msg) := by
    rw [image_ipcListResume suspended, image]
    rfl
  exact appended ▸ .links stage

theorem Shape.take (shape : Shape size blocks s queue free) {size' : ℕ} (same : size' = size)
    (idle : (s.location t).block = none)
    (taken : s.takeMessage t priority size' = some s') :
    ∃ queue', Shape size blocks s' queue' free ∧
      s'.image size queue' free = (s.image size queue free).acquire t priority := by
  subst same
  have entry := shape.entry
  rw [MqState.takeMessage] at taken
  split at taken
  · next empty =>
    obtain rfl : queue = [] := List.length_eq_zero_iff.mp (by rw [← entry, empty]; rfl)
    cases taken
    refine ⟨[], ⟨shape.queued, shape.tail, shape.freed, shape.entry, ?_, ?_, shape.fits, shape.pool⟩, ?_⟩
    · exact shape.placed.move fun other => by rw [idle]; rfl
    · exact sized_goTo (s := { s with mq.suspendThread := _ }) shape.sized rfl
    · rw [CreditQueue.acquire_nil _ _ rfl]
      exact image_goTo
  · next nonempty =>
    cases queue with
    | nil => exact absurd (UInt16.toNat_inj.mp (entry.trans rfl)) nonempty
    | cons msg rest =>
      have queued := shape.queued
      rw [queued.head_eq] at taken
      cases taken
      have distinct := shape.placed.distinct
      rw [List.cons_append, List.nodup_cons] at distinct
      refine ⟨rest, ⟨queued.2, ?_, shape.freed, ?_, ?_, ?_, shape.fits, shape.pool⟩, ?_⟩
      · exact removeHead_tail shape.tail fun member => distinct.1 (List.mem_append_left _ member)
      · have counted : (1 : UInt16) ≤ s.mq.entry := by
          rw [UInt16.le_iff_toNat_le, entry]
          exact Nat.succ_pos _
        rw [List.length_cons] at entry
        refine (UInt16.toNat_sub_of_le _ _ counted).trans ?_
        rw [entry, UInt16.toNat_one, Nat.add_sub_cancel]
      · refine shape.placed.move fun other => ?_
        have block : (MqLocation.removed msg size').block = Option.some msg := rfl
        simp only [idle, block, List.count_cons, beq_iff_eq, Option.some.injEq, reduceCtorEq, if_false]
        omega
      · exact sized_goTo (s := { s with mq := { s.mq.removeHead msg with entry := s.mq.entry - 1 } }) shape.sized rfl
      · rw [CreditQueue.acquire_cons _ _ rfl]
        exact image_goTo

theorem Shape.release (shape : Shape size blocks s queue free) (copied : s.location t = .copied msg) :
    Shape size blocks (({ s with mq := s.mq.free msg }).goTo t .outside) queue (msg :: free) := by
  have holds : (s.location t).block = some msg := by rw [copied]; rfl
  obtain ⟨_, absent, spare, alone⟩ := shape.placed.held holds
  refine ⟨shape.queued.update absent _, shape.tail, shape.freed.push spare, shape.entry, ?_, ?_, shape.fits, shape.pool⟩
  · refine shape.placed.move fun other => ?_
    simp only [copied, MqLocation.block, List.count_cons, beq_iff_eq, Option.some.injEq, reduceCtorEq, if_false]
    omega
  · intro t'
    rw [MqState.goTo_location]
    by_cases same : t' = t
    · rw [same, Function.update_self]
      trivial
    · rw [Function.update_of_ne same]
      refine sized_next (shape.sized t') fun other holds' => Function.update_of_ne ?_ ..
      rintro rfl
      exact alone t' same holds'

omit [Fintype τ] in
theorem reset_location (s : MqState τ) (t : τ) : s.rtMqControlReset.location t =
    if t ∈ s.mq.suspendThread then (s.location t).resume true else s.location t :=
  resumeAll_location s.mq.suspendThread s.location t

theorem Shape.reset (shape : Shape size blocks s queue free)
    (waits : ∀ t ∈ s.mq.suspendThread, ∃ size, s.location t = .suspended size) :
    Shape size blocks s.rtMqControlReset [] (queue.reverse ++ free) ∧
      s.rtMqControlReset.image size [] (queue.reverse ++ free) = (s.image size queue free).clear := by
  have enough : queue.length ≤ s.mq.maxMsgs.toNat := shape.pool ▸
    length_le_of_distinct shape.placed.distinct.of_append_left
      fun msg queued => shape.placed.bound (List.mem_append_left _ queued)
  obtain ⟨next, msgQueueFree, reset, linked, kept⟩ : ∃ next msgQueueFree,
      s.ipcListResumeAll.mq.resetLoop s.mq.maxMsgs.toNat = _ ∧ _ :=
    resetLoop_spec shape.queued shape.tail shape.freed shape.placed.distinct enough
  have block : ∀ t, (s.rtMqControlReset.location t).block = (s.location t).block := by
    intro t
    rw [reset_location]
    split
    · cases s.location t <;> rfl
    · rfl
  have mq : s.rtMqControlReset.mq = { s.mq with
      next, msgQueueHead := none, msgQueueTail := none, msgQueueFree, entry := 0, suspendThread := [] } := by
    simp only [MqState.rtMqControlReset, reset]
    rfl
  have stage : ∀ t, (s.rtMqControlReset.location t).stage s.rtMqControlReset.mq size =
      if t ∈ s.mq.suspendThread then .woken false else (s.location t).stage s.mq size := by
    intro t
    rw [reset_location, mq]
    split
    · next member =>
      obtain ⟨size', here⟩ := waits t member
      rw [here]
      rfl
    · rfl
  constructor
  · refine ⟨by rw [mq]; rfl, by rw [mq]; rfl, by rw [mq]; exact linked, by rw [mq]; rfl, ?_, ?_, by rw [mq]; exact shape.fits,
      by rw [mq]; exact shape.pool⟩
    · intro msg
      have place := shape.placed msg
      rw [holders_congr block, List.count_nil, List.count_append, List.count_reverse]
      omega
    · intro t
      have sized : (s.location t).Sized s.rtMqControlReset.mq size := by
        refine sized_next (shape.sized t) fun msg holds => ?_
        rw [mq]
        exact kept msg (shape.placed.held holds).2.1
      rw [reset_location]
      split
      · cases here : s.location t <;> rw [here] at sized <;> exact sized
      · exact sized
  · have credit : (queue.reverse ++ free).length = free.length + (queue.map (message s.mq size)).length := by
      rw [List.length_append, List.length_reverse, List.length_map, Nat.add_comm]
    exact (CreditQueue.mk.injEq ..).mpr ⟨rfl, credit, by rw [mq], funext stage⟩

theorem Shape.leave (shape : Shape size blocks s queue free) {size' : ℕ} {error : Bool}
    (resumed : s.location t = .resumed size' error) : Shape size blocks (s.goTo t .outside) queue free := by
  refine ⟨shape.queued, shape.tail, shape.freed, shape.entry, ?_, sized_goTo shape.sized trivial, shape.fits, shape.pool⟩
  exact shape.placed.move fun other => by rw [resumed]; rfl

theorem Shape.copied (shape : Shape size blocks s queue free) {size' : ℕ}
    (removed : s.location t = .removed msg size') : Shape size blocks (s.goTo t (.copied msg)) queue free := by
  refine ⟨shape.queued, shape.tail, shape.freed, shape.entry, ?_, sized_goTo shape.sized trivial, shape.fits, shape.pool⟩
  exact shape.placed.move fun other => by rw [removed]; rfl

/-! ## Whole runs -/

/-- The pointers lead through lists of blocks that stand for this queue with credits. -/
structure Represents (size blocks : ℕ) (s : MqState τ) (a : CreditQueue τ (List UInt8)) : Prop where
  sound : a.Sound blocks
  shape : ∃ queue free, Shape size blocks s queue free ∧ a = s.image size queue free

omit [DecidableEq τ] in
theorem suspended_of_sound {capacity : ℕ} (sound : (s.image size queue free).Sound capacity) :
    ∀ t ∈ s.mq.suspendThread, ∃ size, s.location t = .suspended size := by
  intro t member
  have waits : (s.location t).stage s.mq size = .waiting := (sound.waits t).mp member
  cases here : s.location t with
  | suspended size' => exact ⟨size', rfl⟩
  | _ => simp [here, MqLocation.stage] at waits

theorem simulate {call : MqCall τ} (sized : call.Sized size) (taken : mqStep priority s call = some (s', reports))
    {a : CreditQueue τ (List UInt8)} (represents : Represents size blocks s a) :
    ∃ a', a.step priority call.view = some (a', reports) ∧ Represents size blocks s' a' := by
  obtain ⟨sound, queue, free, shape, rfl⟩ := represents
  have waits := suspended_of_sound sound
  suffices stepped : ∃ queue' free', Shape size blocks s' queue' free' ∧
      CreditQueue.Steps priority (s.image size queue free) call.view (s'.image size queue' free') reports by
    obtain ⟨queue', free', shape', steps⟩ := stepped
    exact ⟨_, steps.taken, sound.step steps.taken, queue', free', shape', rfl⟩
  cases call with
  | send t buffer =>
    cases here : s.location t <;> simp only [mqStep, here, reduceCtorEq] at taken
    obtain ⟨free', shape', steps⟩ := shape.send here sized (Option.some.inj taken)
    exact ⟨queue, free', shape', steps⟩
  | fill t =>
    cases here : s.location t <;> simp only [mqStep, here, reduceCtorEq] at taken
    cases taken
    exact ⟨queue, free, shape.fill here⟩
  | link t =>
    cases here : s.location t <;> simp only [mqStep, here, reduceCtorEq] at taken
    exact ⟨_, free, shape.link waits here (Option.some.inj taken)⟩
  | recv t size' =>
    cases here : s.location t <;> simp only [mqStep, here, reduceCtorEq, Option.map_eq_some_iff] at taken
    obtain ⟨next, moved, same⟩ := taken
    cases same
    obtain ⟨queue', shape', image⟩ := shape.take sized (by rw [here]; rfl) moved
    exact ⟨queue', free, shape', image ▸ .receives (image_stage here)⟩
  | resume t =>
    cases here : s.location t with
    | resumed size' error =>
      have same : size' = size := by
        have sized := shape.sized t
        rwa [here] at sized
      cases error with
      | true =>
        simp only [mqStep, here] at taken
        cases taken
        refine ⟨queue, free, shape.leave here, ?_⟩
        rw [image_goTo]
        exact .fails (image_stage here)
      | false =>
        simp only [mqStep, here, Option.map_eq_some_iff] at taken
        obtain ⟨next, moved, same'⟩ := taken
        cases same'
        obtain ⟨queue', shape', image⟩ := shape.take same (by rw [here]; rfl) moved
        exact ⟨queue', free, shape', image ▸ .resumes (image_stage here)⟩
    | _ => simp only [mqStep, here, reduceCtorEq] at taken
  | copy t =>
    cases here : s.location t <;> simp only [mqStep, here, reduceCtorEq] at taken
    next msg size' =>
    have same : size' = size := by
      have sized := shape.sized t
      rwa [here] at sized
    cases taken
    rw [same, Nat.min_eq_left shape.fits]
    refine ⟨queue, free, shape.copied here, ?_⟩
    rw [image_goTo]
    exact .takes (image_stage here)
  | free t =>
    cases here : s.location t <;> simp only [mqStep, here, reduceCtorEq] at taken
    cases taken
    refine ⟨queue, _, shape.release here, ?_⟩
    rw [image_goTo]
    exact .releases (image_stage here)
  | reset =>
    cases taken
    obtain ⟨shape', image⟩ := shape.reset waits
    exact ⟨_, _, shape', image ▸ .resets⟩

end Simulation

end DetectBoard.Kernel
