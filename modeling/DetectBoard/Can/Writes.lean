import DetectBoard.Can.Exclusion
import DetectBoard.Library.CreditQueue

/-! What becomes of the frames that are written: which of them are reported as sent, what `rt_can_write` returns, and
that every write comes to its end. -/

set_option autoImplicit false

namespace DetectBoard.Can

open Library

/-! ## The steps of a thread -/

def TxLocation.rank : TxLocation → ℕ
  | .idle => 0
  | .finish _ => 1
  | .collect => 2
  | .resumed => 3
  | .suspended => 4
  | .wait => 5
  | .giveBack | .putBack => 8
  | .request => 9
  | .mark => 10
  | .remove => 11
  | .take => 12

/-- What the controller has still to do with its mailbox: to send the frame, and to report it. -/
def Mailbox.load (mailbox : Mailbox) : ℕ := if mailbox.tme then 0 else 2

section Steps

variable {τ : Type} [DecidableEq τ] {s s' : Transmission τ} {credit : List RtCanMsg} {reports : List (TxReport τ)}
  {entries rest : List (TxEntry τ)}

/-- A thread ends a pass, or it goes on to a place of a lower rank and reports nothing. -/
theorem canIntTx_cases {t : τ} (exclusive : Exclusive s credit) (taken : s.canIntTx t = some (s', reports)) :
    (∃ result, (s.writer t).location = .finish result ∧ s.finish t result = some (s', reports)) ∨
      ∃ location, location ≠ .idle ∧ (s.writer t).location ≠ .idle ∧
        s'.writer = Function.update s.writer t { s.writer t with location } ∧ reports = [] ∧
        location.rank + s'.mailbox.load < (s.writer t).location.rank + s.mailbox.load ∧
        s'.txPending = s.txPending ∧ s'.sce = s.sce := by
  unfold Transmission.canIntTx at taken
  cases here : (s.writer t).location with
  | idle | suspended => simp [here] at taken
  | finish result => exact .inl ⟨result, rfl, by simpa [here] using taken⟩
  | putBack | giveBack =>
    have noRetry := (exclusive.alone (t := t) (by simp [Writer.Inside, here])).1.noRetry
    simp [here] at noRetry
  | take | remove =>
    simp only [here] at taken
    split at taken
    · obtain ⟨rfl, rfl⟩ := Prod.mk.inj (Option.some.inj taken)
      exact .inr ⟨_, by simp, by simp, rfl, rfl, by simp [TxLocation.rank, Transmission.goto], rfl, rfl⟩
    · cases taken
  | mark | resumed | collect =>
    simp only [here] at taken
    obtain ⟨rfl, rfl⟩ := Prod.mk.inj (Option.some.inj taken)
    exact .inr ⟨_, by simp, by simp, rfl, rfl, by simp [TxLocation.rank, Transmission.goto], rfl, rfl⟩
  | request =>
    have empty := (exclusive.alone (t := t) (by simp [Writer.Inside, here])).1.accepted here
    simp only [here, Transmission.canSendmsg, empty, if_true] at taken
    split at taken
    · cases taken
    · obtain ⟨rfl, rfl⟩ := Prod.mk.inj (Option.some.inj taken)
      exact .inr ⟨_, by simp, by simp, rfl, rfl,
        by simp [TxLocation.rank, Mailbox.load, Transmission.goto, empty], rfl, rfl⟩
  | wait =>
    simp only [here] at taken
    split at taken
    · obtain ⟨rfl, rfl⟩ := Prod.mk.inj (Option.some.inj taken)
      exact .inr ⟨_, by simp, by simp, rfl, rfl, by simp [TxLocation.rank, Transmission.goto], rfl, rfl⟩
    · obtain ⟨rfl, rfl⟩ := Prod.mk.inj (Option.some.inj taken)
      exact .inr ⟨_, by simp, by simp, rfl, rfl, by simp [TxLocation.rank, Transmission.goto], rfl, rfl⟩

/-! ## The steps of an interrupt -/

/-- At most, a thread that waited for the completion is resumed. -/
def Wakes (s s' : Transmission τ) : Prop :=
  s'.writer = s.writer ∨ ∃ t, (s.writer t).location = .suspended ∧
    s'.writer = Function.update s.writer t { s.writer t with location := .resumed }

omit [DecidableEq τ] in
theorem Parked.waiter {t u : τ} {location : TxLocation} {completed : Bool} {suspended : Option τ}
    (parked : Parked t location completed suspended) (waits : suspended = some u) : u = t ∧ location = .suspended := by
  cases parked with
  | wait | resumed => cases waits
  | suspended => exact ⟨(Option.some.inj waits).symm, rfl⟩

omit [DecidableEq τ] in
theorem Exclusive.waiter {u : τ} (exclusive : Exclusive s credit) (waits : s.box.suspended = some u) :
    (s.writer u).location = .suspended := by
  cases exclusive with
  | free _ _ _ quiet => simp [quiet.alone] at waits
  | held t _ _ _ holding =>
    generalize here : (s.writer t).location = location at holding
    generalize s.freelist = freelist at holding
    generalize s.txPending = txPending at holding
    cases holding with
    | remove quiet | mark quiet | request quiet | collect quiet | finish quiet => simp [quiet.alone] at waits
    | outstanding parked | transmitted parked | served parked =>
      obtain ⟨rfl, suspended⟩ := parked.waiter waits
      exact here.trans suspended

theorem txEvent_cases (waiter : ∀ t, s.box.suspended = some t → (s.writer t).location = .suspended)
    (result : SndResult) :
    Wakes s (s.txEvent result) ∧ (s.txEvent result).mailbox = s.mailbox ∧
      (s.txEvent result).txPending = s.txPending ∧ (s.txEvent result).sce = s.sce := by
  simp only [Transmission.txEvent, Transmission.rtCompletionDone]
  split
  · exact ⟨.inl rfl, rfl, rfl, rfl⟩
  · split
    · next t waits => exact ⟨.inr ⟨t, waiter t waits, rfl⟩, rfl, rfl, rfl⟩
    · exact ⟨.inl rfl, rfl, rfl, rfl⟩

theorem can1TxIrqHandler_cases (exclusive : Exclusive s credit) :
    Wakes s s.can1TxIrqHandler ∧ s.can1TxIrqHandler.mailbox.tme = s.mailbox.tme ∧
      s.can1TxIrqHandler.txPending = false ∧ s.can1TxIrqHandler.sce = s.sce := by
  have event := txEvent_cases (s := { s with txPending := false }) (fun _ => exclusive.waiter)
  simp only [Transmission.can1TxIrqHandler]
  split
  · obtain ⟨wakes, mailbox, pending, sce⟩ := event (if s.mailbox.txok then .ok else .err)
    have tme := congrArg Mailbox.tme mailbox
    exact ⟨wakes, tme, pending, sce⟩
  · obtain ⟨wakes, mailbox, pending, sce⟩ := event .err
    exact ⟨wakes, congrArg Mailbox.tme mailbox, pending, sce⟩

theorem ackError_cases (exclusive : Exclusive s credit) :
    Wakes s s.ackError ∧ s.ackError.mailbox.tme = s.mailbox.tme ∧ s.ackError.txPending = s.txPending := by
  unfold Transmission.ackError
  split
  · split
    · exact ⟨.inl rfl, rfl, rfl⟩
    · obtain ⟨wakes, mailbox, pending, _⟩ := txEvent_cases (fun _ => exclusive.waiter) .err
      have tme := congrArg Mailbox.tme mailbox
      exact ⟨wakes, tme, pending⟩
  · exact ⟨.inl rfl, rfl, rfl⟩

omit [DecidableEq τ] in
theorem halCanIrqHandler_cases :
    s.halCanIrqHandler.writer = s.writer ∧ s.halCanIrqHandler.mailbox.tme = s.mailbox.tme ∧
      s.halCanIrqHandler.txPending = s.txPending := by
  unfold Transmission.halCanIrqHandler
  split <;> exact ⟨rfl, rfl, rfl⟩

/-! ## What `rt_can_write` returns -/

/-- The writers have the same frames before them, and have sent as many of them. -/
def Stays (s s' : Transmission τ) : Prop :=
  ∀ t, (s'.writer t).data = (s.writer t).data ∧ (s'.writer t).sent = (s.writer t).sent ∧
    ((s'.writer t).location = .idle ↔ (s.writer t).location = .idle)

omit [DecidableEq τ] in
theorem Stays.of_eq (same : s'.writer = s.writer) : Stays s s' := fun t => by simp [same]

theorem Stays.of_update {t : τ} {location : TxLocation} (inside : (s.writer t).location ≠ .idle)
    (goes : location ≠ .idle) (moved : s'.writer = Function.update s.writer t { s.writer t with location }) :
    Stays s s' := by
  intro u
  rw [moved]
  by_cases same : u = t
  · subst same
    simp [inside, goes]
  · simp [Function.update_of_ne same]

theorem Wakes.stays (wakes : Wakes s s') : Stays s s' := by
  rcases wakes with same | ⟨t, suspended, moved⟩
  · exact .of_eq same
  · exact .of_update (by simp [suspended]) (by simp) moved

/-- The frames that a thread passed to `rt_can_write`, and those of them that were reported as sent. -/
structure Write where
  data : List RtCanMsg
  sent : List RtCanMsg

def TxEvent.calls (t : τ) : TxEvent τ → Option (List RtCanMsg)
  | .call u data => if u = t then some data else none
  | _ => none

def TxReport.sentBy (t : τ) : TxReport τ → Option RtCanMsg
  | .sent u msg => if u = t then some msg else none
  | _ => none

def Write.next (t : τ) (write : Write) (entry : TxEntry τ) : Write :=
  match entry.input.calls t with
  | some data => ⟨data, []⟩
  | none => { write with sent := write.sent ++ entry.output.filterMap (TxReport.sentBy t) }

end Steps

/-! ## Every write comes to its end -/

section Work

variable {τ : Type} [Fintype τ]

def Writer.rank (w : Writer) : ℕ := 12 * w.data.length + w.location.rank

def SceLocation.rank : SceLocation → ℕ
  | .out => 0
  | .handled => 1
  | .entered => 2

/-- What is left to do, as a bound of the steps that it takes. -/
def Transmission.work (s : Transmission τ) : ℕ :=
  total Writer.rank s.writer + s.mailbox.load + (if s.txPending then 1 else 0) + s.sce.rank

/-- All but a new call and a new error. -/
def TxEvent.settles : TxEvent τ → Bool
  | .call _ _ | .sceIrq => false
  | _ => true

variable [DecidableEq τ] {s s' : Transmission τ} {credit : List RtCanMsg} {reports : List (TxReport τ)}
  {entries rest : List (TxEntry τ)}

theorem Wakes.total_le (wakes : Wakes s s') : total Writer.rank s'.writer ≤ total Writer.rank s.writer := by
  rcases wakes with same | ⟨t, suspended, moved⟩
  · rw [same]
  · have sum := total_update Writer.rank s.writer t { s.writer t with location := .resumed }
    rw [moved]
    simp only [Writer.rank, suspended, TxLocation.rank] at sum ⊢
    omega

theorem finish_total {t : τ} {result : SndResult} (here : (s.writer t).location = .finish result)
    (ended : s.finish t result = some (s', reports)) :
    total Writer.rank s'.writer < total Writer.rank s.writer := by
  obtain ⟨msg, rest, w, frames, moved, _, _, _, _, _, _, outcome⟩ := finish_cases ended
  have sum := total_update Writer.rank s.writer t w
  have before : (s.writer t).rank = 12 * (rest.length + 1) + 1 := by
    simp [Writer.rank, here, frames, TxLocation.rank]
  have after : w.rank ≤ 12 * (rest.length + 1) := by
    rcases outcome with ⟨_, _, rfl, _⟩ | ⟨_, _, rfl, _⟩ | ⟨_, rfl, _⟩ <;> simp [Writer.rank, TxLocation.rank]
    omega
  rw [moved]
  omega

theorem thread_work {t : τ} (exclusive : Exclusive s credit) (taken : s.canIntTx t = some (s', reports)) :
    s'.work < s.work := by
  rcases canIntTx_cases exclusive taken with ⟨result, here, ended⟩ | ⟨location, _, _, moved, _, lower, pending, sce⟩
  · have less := finish_total here ended
    obtain ⟨_, _, _, _, _, _, _, _, mailbox, pending, sce, _⟩ := finish_cases ended
    simp only [Transmission.work, mailbox, pending, sce]
    omega
  · have sum := total_update Writer.rank s.writer t { s.writer t with location }
    rw [← moved] at sum
    simp only [Writer.rank] at sum
    simp only [Transmission.work, pending, sce]
    omega

theorem Mailbox.load_congr {mailbox mailbox' : Mailbox} (same : mailbox'.tme = mailbox.tme) :
    mailbox'.load = mailbox.load := by
  rw [Mailbox.load, Mailbox.load, same]

theorem work_decreases {event : TxEvent τ} (exclusive : Exclusive s credit)
    (taken : txStep s event = some (s', reports)) (settles : event.settles = true) : s'.work < s.work := by
  cases event with
  | call | sceIrq => cases settles
  | thread t =>
    simp only [txStep] at taken
    split at taken
    · exact thread_work exclusive taken
    · cases taken
  | transmit ok =>
    simp only [txStep] at taken
    split at taken
    · cases taken
    · next busy =>
      obtain ⟨rfl, rfl⟩ := Prod.mk.inj (Option.some.inj taken)
      have load : s.mailbox.load = 2 := by rw [Mailbox.load, if_neg busy]
      simp only [Transmission.work, load]
      simp only [Mailbox.load, if_true]
      omega
  | txIrq =>
    simp only [txStep] at taken
    split at taken
    · next ready =>
      obtain ⟨rfl, rfl⟩ := Prod.mk.inj (Option.some.inj taken)
      obtain ⟨wakes, tme, pending, sce⟩ := can1TxIrqHandler_cases exclusive
      have less := wakes.total_le
      simp only [Transmission.work, Mailbox.load_congr tme, pending, sce, ready.1]
      simp
      omega
    · cases taken
  | sceHal =>
    simp only [txStep] at taken
    split at taken
    · next entered =>
      obtain ⟨rfl, rfl⟩ := Prod.mk.inj (Option.some.inj taken)
      obtain ⟨writer, tme, pending⟩ := halCanIrqHandler_cases (s := s)
      simp only [Transmission.work, Mailbox.load_congr tme, writer, pending, entered, SceLocation.rank]
      omega
    · cases taken
  | sceEnd ackErr =>
    simp only [txStep] at taken
    split at taken
    · next handled =>
      obtain ⟨rfl, rfl⟩ := Prod.mk.inj (Option.some.inj taken)
      cases ackErr with
      | false =>
        simp only [Transmission.work, handled, SceLocation.rank, Bool.false_eq_true, if_false]
        omega
      | true =>
        obtain ⟨wakes, tme, pending⟩ := ackError_cases exclusive
        have less := wakes.total_le
        simp only [Transmission.work, Mailbox.load_congr tme, pending, handled, SceLocation.rank, if_true]
        omega
    · cases taken

omit [Fintype τ] in
/-- Where nothing can go on, no write is in progress. -/
theorem settled_idle (exclusive : Exclusive s credit)
    (stuck : ∀ event : TxEvent τ, event.settles = true → txStep s event = none) (t : τ) :
    (s.writer t).location = .idle := by
  have out : s.sce = .out := by
    cases at_ : s.sce with
    | out => rfl
    | entered => simpa [txStep, at_] using stuck .sceHal rfl
    | handled => simpa [txStep, at_] using stuck (.sceEnd false) rfl
  have served : s.txPending = false := by
    by_contra pending
    simpa [txStep, pending, out] using stuck .txIrq rfl
  have empty : s.mailbox.tme = true := by
    by_contra busy
    simpa [txStep, busy] using stuck (.transmit true) rfl
  have threads (u : τ) : s.canIntTx u = none := by
    simpa [txStep, served, out] using stuck (.thread u) rfl
  cases exclusive with
  | free outside one =>
    rcases outside t with idle | ⟨take, _⟩
    · exact idle
    · simpa [Transmission.canIntTx, take, one] using threads t
  | @held holder msg rest credit _ _ frames holding =>
    have stops := threads holder
    generalize here : (s.writer holder).location = location at holding
    generalize listed : s.freelist = freelist at holding
    generalize pending : s.txPending = txPending at holding
    exfalso
    cases holding with
    | remove | mark | collect => simp [Transmission.canIntTx, here, listed] at stops
    | request => simp [Transmission.canIntTx, here, frames, Transmission.canSendmsg, empty] at stops
    | outstanding _ _ _ busy => simp [busy] at empty
    | transmitted => simp [served] at pending
    | served parked completed =>
      generalize s.box.suspended = suspended at parked
      cases parked <;> simp [Transmission.canIntTx, here, completed] at stops
    | @finish _ _ _ result =>
      simp only [Transmission.canIntTx, here, Transmission.finish, frames] at stops
      split at stops
      · split at stops <;> cases stops
      · cases stops

/-- Where no thread begins another write and no further error is reported, the threads and interrupts come to rest after
a bounded number of steps, and then every write that was begun has returned. -/
theorem writes_finish (run : (txMachine τ).Run .opened entries s) (later : (txMachine τ).Run s rest s')
    (settles : ∀ entry ∈ rest, entry.input.settles = true) :
    rest.length + s'.work ≤ s.work ∧
      ((∀ event : TxEvent τ, event.settles = true → txStep s' event = none) → ∀ t, (s'.writer t).location = .idle) := by
  obtain ⟨credit, start, _⟩ := exclusive_run run
  constructor
  · have held := (later.invariant (fun s => ∃ credit, Exclusive s credit) ⟨credit, start⟩
      fun _ _ taken ⟨_, before⟩ => (before.step taken).imp fun _ after => after.1).2
    refine later.length_le Transmission.work fun entry member taken => ?_
    obtain ⟨_, before⟩ := (held entry member).1
    exact work_decreases before taken (settles entry member)
  · obtain ⟨_, exclusive, _⟩ := exclusive_run (run.append later)
    exact settled_idle exclusive

/-- Both writes come to their end. -/
def settlement : List (TxEvent Bool) :=
  [.transmit true, .txIrq, .thread false, .thread false, .thread false,
    .thread true, .thread true, .thread true, .thread true, .thread true, .transmit false, .txIrq, .thread true,
    .thread true, .thread true]

theorem writes_finish_contention :
    ∃ entries s rest s', (txMachine Bool).Run .opened entries s ∧ (txMachine Bool).Run s rest s' ∧
      rest.length = 15 ∧ rest.length + s'.work ≤ s.work ∧
      ((∀ event : TxEvent Bool, event.settles = true → txStep s' event = none) →
        ∀ t, (s'.writer t).location = .idle) := by
  have checked : (((txMachine Bool).exec .opened contention).bind fun done =>
      ((txMachine Bool).exec done.2 settlement).map fun ended =>
        decide (ended.1.length = 15 ∧ ∀ entry ∈ ended.1, entry.input.settles = true)) = some true := by decide +kernel
  obtain ⟨⟨entries, s⟩, begun, checked⟩ := Option.bind_eq_some_iff.mp checked
  obtain ⟨⟨rest, s'⟩, done, whole⟩ := Option.map_eq_some_iff.mp checked
  obtain ⟨count, settles⟩ := of_decide_eq_true whole
  have run := Machine.exec_run begun
  have later := Machine.exec_run done
  obtain ⟨bound, idle⟩ := writes_finish run later settles
  exact ⟨entries, s, rest, s', run, later, count, bound, idle⟩

end Work

end DetectBoard.Can
