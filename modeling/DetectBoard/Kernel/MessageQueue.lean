import DetectBoard.Library.CreditQueue
import DetectBoard.Library.LinkedList

/-! The message queue of `ipc.c`, in the calls that the board makes: `rt_mq_create`, `rt_mq_send`, `rt_mq_recv`
without a time limit and `rt_mq_control` with `RT_IPC_CMD_RESET`.

Interrupts are off only while the lists of blocks change, so a thread or an
interrupt may come between the parts of a call. Each part is one step here.
-/

set_option autoImplicit false

namespace DetectBoard.Kernel

open Library

/-- `struct rt_messagequeue`; a block of the message pool is known by its number. -/
structure RtMessagequeue (τ : Type) where
  msgSize : UInt16
  maxMsgs : UInt16
  /-- `next` of the header of each block. -/
  next : ℕ → Option ℕ
  /-- The bytes behind the header. -/
  body : ℕ → List UInt8
  msgQueueHead : Option ℕ
  msgQueueTail : Option ℕ
  msgQueueFree : Option ℕ
  entry : UInt16
  suspendThread : List τ

def rtMqEntryMax : UInt16 := 0xFFFF

/-- Where a thread or an interrupt is in `rt_mq_send` or `rt_mq_recv`. -/
inductive MqLocation where
  | outside
  | allocated (msg : ℕ) (buffer : List UInt8)
  | filled (msg : ℕ)
  | suspended (size : ℕ)
  /-- Ready again, with `thread->error` set by a reset or not. -/
  | resumed (size : ℕ) (error : Bool)
  | removed (msg : ℕ) (size : ℕ)
  | copied (msg : ℕ)
  deriving DecidableEq, Repr

structure MqState (τ : Type) where
  mq : RtMessagequeue τ
  location : τ → MqLocation

inductive MqCall (τ : Type) where
  | send (t : τ) (buffer : List UInt8)
  | fill (t : τ)
  | link (t : τ)
  | recv (t : τ) (size : ℕ)
  | resume (t : τ)
  | copy (t : τ)
  | free (t : τ)
  | reset
  deriving DecidableEq, Repr

/-- What a call returns: `RT_EOK`, `-RT_EFULL`, `RT_EOK` with a message, or `-RT_ERROR`. -/
abbrev MqReport (τ : Type) := QueueReport τ (List UInt8)

variable {τ : Type}


/-! ## The lists of blocks -/

/-- `RT_ALIGN` to words -/
def rtAlign (size : UInt16) : UInt16 := (size + 3) &&& ~~~3

/-- The loop of `rt_mq_create` that links the first blocks of a new pool. -/
def freeLoop (next : ℕ → Option ℕ) : ℕ → (ℕ → Option ℕ) × Option ℕ
  | 0 => (next, none)
  | temp + 1 =>
    let before := freeLoop next temp
    (Function.update before.1 temp before.2, some temp)

def rtMqCreate (τ : Type) (msgSize maxMsgs : UInt16) (next : ℕ → Option ℕ) (body : ℕ → List UInt8) :
    RtMessagequeue τ where
  msgSize := rtAlign msgSize
  maxMsgs := maxMsgs
  next := (freeLoop next maxMsgs.toNat).1
  body := body
  msgQueueHead := none
  msgQueueTail := none
  msgQueueFree := (freeLoop next maxMsgs.toNat).2
  entry := 0
  suspendThread := []

namespace RtMessagequeue

variable (mq : RtMessagequeue τ) (msg : ℕ)

def fill (buffer : List UInt8) : RtMessagequeue τ :=
  { mq with
    next := Function.update mq.next msg none
    body := Function.update mq.body msg (buffer ++ (mq.body msg).drop buffer.length) }

def link : RtMessagequeue τ :=
  { mq with
    next := match mq.msgQueueTail with
      | some tail => Function.update mq.next tail (some msg)
      | none => mq.next
    msgQueueTail := some msg
    msgQueueHead := mq.msgQueueHead.or (some msg) }

def removeHead : RtMessagequeue τ :=
  { mq with
    msgQueueHead := mq.next msg
    msgQueueTail := if mq.msgQueueTail = some msg then none else mq.msgQueueTail }

def free : RtMessagequeue τ :=
  { mq with
    next := Function.update mq.next msg mq.msgQueueFree
    msgQueueFree := some msg }

/-- The loop of `rt_mq_control`, as often as there are blocks at most. -/
def resetLoop : ℕ → RtMessagequeue τ → RtMessagequeue τ
  | 0, mq => mq
  | rounds + 1, mq =>
    match mq.msgQueueHead with
    | none => mq
    | some msg => resetLoop rounds ((mq.removeHead msg).free msg)

end RtMessagequeue

/-! ## The calls -/

section Calls

variable [DecidableEq τ]

/-- A suspended thread that is made ready again. -/
def MqLocation.resume (error : Bool) : MqLocation → MqLocation
  | .suspended size => .resumed size error
  | other => other

namespace MqState

variable (s : MqState τ) (t : τ)

def goTo (location : MqLocation) : MqState τ := { s with location := Function.update s.location t location }

@[simp] theorem goTo_mq (location : MqLocation) : (s.goTo t location).mq = s.mq := rfl

@[simp] theorem goTo_location (location : MqLocation) :
    (s.goTo t location).location = Function.update s.location t location := rfl

/-- `_ipc_list_resume`, if anybody is suspended. -/
def ipcListResume : MqState τ :=
  match s.mq.suspendThread with
  | [] => s
  | first :: rest => ({ s with mq.suspendThread := rest }).goTo first ((s.location first).resume false)

theorem ipcListResume_nil (empty : s.mq.suspendThread = []) : s.ipcListResume = s := by
  rw [ipcListResume, empty]

theorem ipcListResume_cons {first : τ} {rest : List τ} (waits : s.mq.suspendThread = first :: rest) :
    s.ipcListResume = ({ s with mq.suspendThread := rest }).goTo first ((s.location first).resume false) := by
  rw [ipcListResume, waits]

/-- `_ipc_list_resume_all` -/
def ipcListResumeAll : MqState τ where
  mq := { s.mq with suspendThread := [] }
  location := s.mq.suspendThread.foldl
    (fun location t => Function.update location t ((location t).resume true)) s.location

/-- `rt_mq_send` up to the block that it takes from the free list. -/
def rtMqSend (buffer : List UInt8) : MqState τ × List (MqReport τ) :=
  if s.mq.msgSize.toNat < buffer.length then (s, [.failed t])
  else
    match s.mq.msgQueueFree with
    | none => (s, [.refused t])
    | some msg => (({ s with mq.msgQueueFree := s.mq.next msg }).goTo t (.allocated msg buffer), [])

/-- The rest of `rt_mq_send` once the block is filled. -/
def linkMessage (msg : ℕ) : MqState τ × List (MqReport τ) :=
  let linked := ({ s with mq := s.mq.link msg }).goTo t .outside
  if s.mq.entry < rtMqEntryMax then
    (({ linked with mq.entry := s.mq.entry + 1 }).ipcListResume, [.sent t])
  else (linked, [.refused t])

/-- The head of the queue is taken, or the thread is suspended, as long as there is none. Nothing is
left to do when the head is a null pointer. -/
def takeMessage (priority : τ → ℕ) (size : ℕ) : Option (MqState τ) :=
  if s.mq.entry = 0 then
    let suspendThread := s.mq.suspendThread.orderedInsert (fun t t' => priority t < priority t') t
    some (({ s with mq.suspendThread := suspendThread }).goTo t (.suspended size))
  else s.mq.msgQueueHead.map fun msg =>
    ({ s with mq := { s.mq.removeHead msg with entry := s.mq.entry - 1 } }).goTo t (.removed msg size)

/-- `rt_mq_control` with `RT_IPC_CMD_RESET` -/
def rtMqControlReset : MqState τ :=
  let resumed := s.ipcListResumeAll
  { resumed with mq := { resumed.mq.resetLoop s.mq.maxMsgs.toNat with entry := 0 } }

end MqState

def mqStep (priority : τ → ℕ) (s : MqState τ) : MqCall τ → Option (MqState τ × List (MqReport τ))
  | .send t buffer =>
    match s.location t with
    | .outside => some (s.rtMqSend t buffer)
    | _ => none
  | .fill t =>
    match s.location t with
    | .allocated msg buffer => some (({ s with mq := s.mq.fill msg buffer }).goTo t (.filled msg), [])
    | _ => none
  | .link t =>
    match s.location t with
    | .filled msg => some (s.linkMessage t msg)
    | _ => none
  | .recv t size =>
    match s.location t with
    | .outside => (s.takeMessage t priority size).map (·, [])
    | _ => none
  | .resume t =>
    match s.location t with
    | .resumed size false => (s.takeMessage t priority size).map (·, [])
    | .resumed _ true => some (s.goTo t .outside, [.failed t])
    | _ => none
  | .copy t =>
    match s.location t with
    | .removed msg size =>
      some (s.goTo t (.copied msg), [.delivered t ((s.mq.body msg).take (min size s.mq.msgSize.toNat))])
    | _ => none
  | .free t =>
    match s.location t with
    | .copied msg => some (({ s with mq := s.mq.free msg }).goTo t .outside, [])
    | _ => none
  | .reset => some (s.rtMqControlReset, [])

def mqMachine (priority : τ → ℕ) : Machine (MqState τ) (MqCall τ) (List (MqReport τ)) := ⟨mqStep priority⟩

def MqState.created (msgSize maxMsgs : UInt16) (next : ℕ → Option ℕ) (body : ℕ → List UInt8) : MqState τ :=
  ⟨rtMqCreate τ msgSize maxMsgs next body, fun _ => .outside⟩

end Calls

/-- The blocks that one meets from the head on. -/
def RtMessagequeue.blocks (mq : RtMessagequeue τ) : List ℕ := walk mq.next mq.entry.toNat mq.msgQueueHead

/-! ## The place of each block -/

/-- The block that a context holds. -/
def MqLocation.block : MqLocation → Option ℕ
  | .allocated msg _ | .filled msg | .removed msg _ | .copied msg => some msg
  | .outside | .suspended _ | .resumed _ _ => none

/-- The contexts that hold a block. -/
def holders [Fintype τ] (location : τ → MqLocation) (msg : ℕ) : ℕ :=
  total (fun place => if place.block = some msg then 1 else 0) location

/-- Each block of the pool is in the queue, or free, or held, and in one of these places only once. -/
def Placed [Fintype τ] (blocks : ℕ) (queue free : List ℕ) (location : τ → MqLocation) : Prop :=
  ∀ msg, queue.count msg + free.count msg + holders location msg = if msg < blocks then 1 else 0

theorem length_le_of_distinct {numbers : List ℕ} {bound : ℕ} (distinct : numbers.Nodup)
    (within : ∀ number ∈ numbers, number < bound) : numbers.length ≤ bound := by
  have among := (distinct.subperm fun _ member => List.mem_range.mpr (within _ member)).length_le
  rwa [List.length_range] at among

namespace Placed

variable [Fintype τ] {blocks : ℕ} {queue free queue' free' : List ℕ} {location : τ → MqLocation}

theorem distinct (placed : Placed blocks queue free location) : (queue ++ free).Nodup := by
  rw [List.nodup_iff_count_le_one]
  intro msg
  have place := placed msg
  rw [List.count_append]
  split at place <;> omega

theorem bound (placed : Placed blocks queue free location) {msg : ℕ} (member : msg ∈ queue ++ free) : msg < blocks := by
  have place := placed msg
  have counted := List.count_pos_iff.mpr member
  rw [List.count_append] at counted
  by_contra outside
  rw [if_neg outside] at place
  omega

variable [DecidableEq τ]

theorem move (placed : Placed blocks queue free location) {t : τ} {next : MqLocation}
    (balance : ∀ msg, queue'.count msg + free'.count msg + (if next.block = some msg then 1 else 0) =
      queue.count msg + free.count msg + if (location t).block = some msg then 1 else 0) :
    Placed blocks queue' free' (Function.update location t next) := by
  intro msg
  have moved := total_update (fun place : MqLocation => if place.block = some msg then 1 else 0) location t next
  have before := placed msg
  have balance := balance msg
  unfold holders at *
  omega

theorem held (placed : Placed blocks queue free location) {t : τ} {msg : ℕ} (holds : (location t).block = some msg) :
    msg < blocks ∧ msg ∉ queue ∧ msg ∉ free ∧ ∀ t', t' ≠ t → (location t').block ≠ some msg := by
  have place := placed msg
  -- without this holder the block would be nowhere
  have moved := total_update (fun place : MqLocation => if place.block = some msg then 1 else 0) location t .outside
  simp only [holds, if_true, show MqLocation.outside.block = none from rfl, reduceCtorEq, if_false] at moved
  unfold holders at place
  split at place
  · next inside =>
    refine ⟨inside, ?_, ?_, fun t' other holds' => ?_⟩
    · rw [← List.count_eq_zero]
      omega
    · rw [← List.count_eq_zero]
      omega
    · have unheld : total (fun place : MqLocation => if place.block = some msg then 1 else 0)
          (Function.update location t .outside) = 0 := by omega
      have zero := Finset.sum_eq_zero_iff.mp unheld t' (Finset.mem_univ t')
      simp [Function.update_of_ne other, holds'] at zero
  · omega

/-- As long as a block is held, the queue has room for it. -/
theorem room (placed : Placed blocks queue free location) {t : τ} {msg : ℕ} (holds : (location t).block = some msg) :
    queue.length < blocks := by
  obtain ⟨inside, absent, _⟩ := placed.held holds
  have distinct : (msg :: queue).Nodup := List.nodup_cons.mpr ⟨absent, placed.distinct.of_append_left⟩
  have within : ∀ other ∈ msg :: queue, other < blocks :=
    List.forall_mem_cons.mpr ⟨inside, fun _ queued => placed.bound (List.mem_append_left _ queued)⟩
  exact length_le_of_distinct distinct within

end Placed

end DetectBoard.Kernel
