import DetectBoard.Library.Machine
import DetectBoard.Can.Message
import Mathlib.Logic.Function.Basic

/-! How a frame that is written reaches the bus: `rt_can_write` in the driver framework, the one mailbox of the
controller that the driver uses, and the interrupts that report what became of it.

Any number of threads write. An interrupt that is pending is served before a thread goes on; the transmit interrupt and
the error interrupt have the same priority, so that neither cuts off the other.

The semaphore is a plain counter, and any thread may take the token that another gives back. `rt_sem_release` hands it
to the first thread that waits, which is one of these orders.
-/

set_option autoImplicit false

namespace DetectBoard.Can

open Library

/-- `RT_CAN_SND_RESULT_OK` and so on. -/
inductive SndResult where
  | ok
  | err
  | wait
  deriving DecidableEq, Repr

/-- `rt_can_sndbxinx_list`, of which `CANDEFAULTCONFIG` gives the driver one. -/
structure SndBox (τ : Type) where
  completed : Bool
  /-- The thread that waits for the completion. -/
  suspended : Option τ
  result : SndResult

/-- The mailbox of the controller, with its flags in `TSR`. -/
structure Mailbox where
  msg : Option RtCanMsg
  tme : Bool
  rqcp : Bool
  txok : Bool

/-- Where a thread is in `_can_int_tx`. -/
inductive TxLocation where
  | idle
  | take
  | remove
  | mark
  | request
  | putBack
  | giveBack
  | wait
  | suspended
  | resumed
  | collect
  | finish (result : SndResult)
  deriving DecidableEq, Repr

structure Writer where
  location : TxLocation
  data : List RtCanMsg
  sent : ℕ

/-- Where `CAN1_SCE_IRQHandler` is: outside, before `HAL_CAN_IRQHandler`, or after it. -/
inductive SceLocation where
  | out
  | entered
  | handled
  deriving DecidableEq, Repr

structure Transmission (τ : Type) where
  writer : τ → Writer
  semValue : ℕ
  /-- Whether the box is in the free list. -/
  freelist : Bool
  box : SndBox τ
  mailbox : Mailbox
  /-- Whether the transmit interrupt is pending. -/
  txPending : Bool
  sce : SceLocation
  sndpkg : ℕ
  dropedsndpkg : ℕ

/-- Once `rt_device_open` has enabled transmission. -/
def Transmission.opened {τ : Type} : Transmission τ where
  writer _ := ⟨.idle, [], 0⟩
  semValue := 1
  freelist := true
  box := ⟨false, none, .ok⟩
  mailbox := ⟨none, true, false, false⟩
  txPending := false
  sce := .out
  sndpkg := 0
  dropedsndpkg := 0

inductive TxReport (τ : Type) where
  | sent (t : τ) (msg : RtCanMsg)
  | dropped (t : τ) (msg : RtCanMsg)
  | returned (t : τ) (size : ℕ)
  /-- The controller has sent the frame. -/
  | bus (msg : RtCanMsg)
  deriving DecidableEq, Repr

section Steps

variable {τ : Type} [DecidableEq τ] (s : Transmission τ)

namespace Transmission

def goto (t : τ) (location : TxLocation) : Transmission τ :=
  { s with writer := Function.update s.writer t { s.writer t with location } }

/-! ## The interrupts -/

def rtCompletionDone : Transmission τ :=
  if s.box.completed then s
  else match s.box.suspended with
    | some t => { s with box.completed := true, box.suspended := none }.goto t .resumed
    | none => { s with box.completed := true }

/-- `rt_hw_can_isr` for `RT_CAN_EVENT_TX_DONE` and `RT_CAN_EVENT_TX_FAIL` -/
def txEvent (result : SndResult) : Transmission τ := { s with box.result := result }.rtCompletionDone

/-- The flag is cleared by writing a one, and the flags of the outcome with it. -/
def clearRqcp : Transmission τ := { s with mailbox.rqcp := false, mailbox.txok := false }

def can1TxIrqHandler : Transmission τ :=
  let s := { s with txPending := false }
  if s.mailbox.rqcp then (s.txEvent (if s.mailbox.txok then .ok else .err)).clearRqcp
  else s.txEvent .err

/-- `HAL_CAN_IRQHandler`, which clears the flags and leaves it to callbacks that do nothing. -/
def halCanIrqHandler : Transmission τ := if s.mailbox.rqcp then s.clearRqcp else s

/-- What `CAN1_SCE_IRQHandler` does for an acknowledgement error, and for a format error that falls through. -/
def ackError : Transmission τ :=
  if s.mailbox.rqcp then (if s.mailbox.txok then s else s.txEvent .err).clearRqcp else s

/-! ## The threads -/

def canSendmsg (msg : RtCanMsg) : Option (Transmission τ) :=
  if s.mailbox.tme then some { s with mailbox := ⟨some msg, false, false, false⟩ } else none

/-- The end of a pass through the loop of `_can_int_tx`. -/
def finish (t : τ) (result : SndResult) : Option (Transmission τ × List (TxReport τ)) :=
  let w := s.writer t
  match w.data with
  | [] => none
  | msg :: rest =>
    let s := { s with semValue := s.semValue + 1 }
    if result = .ok then
      let s := { s with sndpkg := s.sndpkg + 1 }
      if rest = [] then
        some ({ s with writer := Function.update s.writer t ⟨.idle, [], 0⟩ }, [.sent t msg, .returned t (w.sent + 1)])
      else some ({ s with writer := Function.update s.writer t ⟨.take, rest, w.sent + 1⟩ }, [.sent t msg])
    else
      some ({ s with dropedsndpkg := s.dropedsndpkg + 1, writer := Function.update s.writer t ⟨.idle, [], 0⟩ },
        [.dropped t msg, .returned t w.sent])

def canIntTx (t : τ) : Option (Transmission τ × List (TxReport τ)) :=
  match (s.writer t).location with
  | .idle => none
  -- the thread waits where the value is zero
  | .take => if 0 < s.semValue then some ({ s with semValue := s.semValue - 1 }.goto t .remove, []) else none
  | .remove => if s.freelist then some ({ s with freelist := false }.goto t .mark, []) else none
  | .mark => some ({ s with box.result := .wait }.goto t .request, [])
  | .request =>
    match (s.writer t).data with
    | [] => none
    | msg :: _ =>
      match s.canSendmsg msg with
      | some requested => some (requested.goto t .wait, [])
      | none => some (s.goto t .putBack, [])
  | .putBack => some ({ s with freelist := true }.goto t .giveBack, [])
  | .giveBack => some ({ s with semValue := s.semValue + 1 }.goto t .take, [])
  | .wait =>
    if s.box.completed then some ({ s with box.completed := false }.goto t .collect, [])
    else some ({ s with box.suspended := some t }.goto t .suspended, [])
  | .suspended => none
  | .resumed => some ({ s with box.completed := false }.goto t .collect, [])
  | .collect => some ({ s with freelist := true }.goto t (.finish s.box.result), [])
  | .finish result => s.finish t result

end Transmission

inductive TxEvent (τ : Type) where
  /-- `rt_can_write` is called with these frames. -/
  | call (t : τ) (data : List RtCanMsg)
  | thread (t : τ)
  /-- The controller is done with the frame in its mailbox; it does not try again. -/
  | transmit (ok : Bool)
  | txIrq
  | sceIrq
  | sceHal
  | sceEnd (ackErr : Bool)

def txStep : TxEvent τ → Option (Transmission τ × List (TxReport τ))
  | .call t data =>
    if s.txPending = false ∧ s.sce = .out ∧ (s.writer t).location = .idle then
      if data = [] then some (s, [.returned t 0])
      else some ({ s with writer := Function.update s.writer t ⟨.take, data, 0⟩ }, [])
    else none
  | .thread t => if s.txPending = false ∧ s.sce = .out then s.canIntTx t else none
  | .transmit ok =>
    if s.mailbox.tme then none
    else some ({ s with mailbox := { s.mailbox with tme := true, rqcp := true, txok := ok }, txPending := true },
      if ok then s.mailbox.msg.toList.map .bus else [])
  | .txIrq => if s.txPending = true ∧ s.sce = .out then some (s.can1TxIrqHandler, []) else none
  -- of two pending interrupts the transmit interrupt is served first
  | .sceIrq => if s.txPending = false ∧ s.sce = .out then some ({ s with sce := .entered }, []) else none
  | .sceHal => if s.sce = .entered then some ({ s.halCanIrqHandler with sce := .handled }, []) else none
  | .sceEnd ackErr =>
    if s.sce = .handled then some ({ (if ackErr then s.ackError else s) with sce := .out }, []) else none

def txMachine (τ : Type) [DecidableEq τ] : Machine (Transmission τ) (TxEvent τ) (List (TxReport τ)) := ⟨txStep⟩

abbrev TxEntry (τ : Type) := Entry (Transmission τ) (TxEvent τ) (List (TxReport τ))

/-- The step takes the flags of a frame that was sent away from the transmit interrupt. -/
def Transmission.swallows : TxEvent τ → Bool
  | .sceHal => s.mailbox.rqcp && s.mailbox.txok
  | .sceEnd ackErr => ackErr && s.mailbox.rqcp && s.mailbox.txok
  | _ => false

end Steps

section Reports

variable {τ : Type}

def TxReport.sentFrame : TxReport τ → Option RtCanMsg
  | .sent _ msg => some msg
  | _ => none

def TxReport.busFrame : TxReport τ → Option RtCanMsg
  | .bus msg => some msg
  | _ => none

def sentFrames (entries : List (TxEntry τ)) : List RtCanMsg :=
  entries.flatMap fun entry => entry.output.filterMap TxReport.sentFrame

/-- The frames that were sent, in the order in which they were on the bus. -/
def busFrames (entries : List (TxEntry τ)) : List RtCanMsg :=
  entries.flatMap fun entry => entry.output.filterMap TxReport.busFrame

end Reports

end DetectBoard.Can
