import DetectBoard.Can.Transmission

/-! One writer at a time: the semaphore keeps the box, the mailbox and its completion to a single thread, from the moment
it takes the box to the moment it gives it back. -/

set_option autoImplicit false

namespace DetectBoard.Can

open Library

section Exclusion

variable {τ : Type}

structure Quiet (box : SndBox τ) (mailbox : Mailbox) (txPending : Bool) : Prop where
  empty : mailbox.tme = true
  noRequest : mailbox.rqcp = false
  noInterrupt : txPending = false
  uncompleted : box.completed = false
  alone : box.suspended = none

/-- Where a thread is between the request and the moment it finds the completion. -/
inductive Parked (t : τ) : TxLocation → Bool → Option τ → Prop where
  | wait (completed : Bool) : Parked t .wait completed none
  | suspended : Parked t .suspended false (some t)
  | resumed : Parked t .resumed true none

/-- The thread that has the box, and the frame of its that is on the bus and not yet reported. -/
inductive Holding (t : τ) (msg : RtCanMsg) :
    Bool → SndBox τ → Mailbox → Bool → TxLocation → List RtCanMsg → Prop where
  | remove {box mailbox txPending} : Quiet box mailbox txPending →
      Holding t msg true box mailbox txPending .remove []
  | mark {box mailbox txPending} : Quiet box mailbox txPending →
      Holding t msg false box mailbox txPending .mark []
  | request {box mailbox txPending} : Quiet box mailbox txPending →
      Holding t msg false box mailbox txPending .request []
  | outstanding {box mailbox location} : Parked t location false box.suspended → box.completed = false →
      mailbox.msg = some msg → mailbox.tme = false → mailbox.rqcp = false →
      Holding t msg false box mailbox false location []
  | transmitted {box mailbox location} : Parked t location false box.suspended → box.completed = false →
      mailbox.tme = true →
      Holding t msg false box mailbox true location (if mailbox.rqcp && mailbox.txok then [msg] else [])
  | served {box mailbox txPending location} : Parked t location true box.suspended → box.completed = true →
      mailbox.tme = true → mailbox.rqcp = false → box.result ≠ .wait → (txPending = true → box.result = .err) →
      Holding t msg false box mailbox txPending location (if box.result = .ok then [msg] else [])
  | collect {box mailbox txPending} : Quiet box mailbox txPending → box.result ≠ .wait →
      Holding t msg false box mailbox txPending .collect (if box.result = .ok then [msg] else [])
  | finish {box mailbox txPending result} : Quiet box mailbox txPending → result ≠ .wait →
      Holding t msg true box mailbox txPending (.finish result) (if result = .ok then [msg] else [])

def Writer.Outside (w : Writer) : Prop := w.location = .idle ∨ w.location = .take ∧ w.data ≠ []

/-- The invariant. Either no thread has the box, or one has it and the others stay outside. -/
inductive Exclusive (s : Transmission τ) : List RtCanMsg → Prop where
  | free : (∀ u, (s.writer u).Outside) → s.semValue = 1 → s.freelist = true →
      Quiet s.box s.mailbox s.txPending → Exclusive s []
  | held (t : τ) {msg rest credit} : (∀ u, u ≠ t → (s.writer u).Outside) → s.semValue = 0 →
      (s.writer t).data = msg :: rest →
      Holding t msg s.freelist s.box s.mailbox s.txPending (s.writer t).location credit → Exclusive s credit

/-- What a step reports, as its frames pass from the bus to the writers. -/
structure Passes (credit credit' : List RtCanMsg) (reports : List (TxReport τ)) (swallowed : Bool) : Prop where
  order : List.Sublist (reports.filterMap TxReport.sentFrame ++ credit') (credit ++ reports.filterMap TxReport.busFrame)
  all : swallowed = false →
    reports.filterMap TxReport.sentFrame ++ credit' = credit ++ reports.filterMap TxReport.busFrame

theorem Passes.of_eq {credit credit' : List RtCanMsg} {reports : List (TxReport τ)} {swallowed : Bool}
    (same : reports.filterMap TxReport.sentFrame ++ credit' = credit ++ reports.filterMap TxReport.busFrame) :
    Passes credit credit' reports swallowed :=
  ⟨same ▸ List.Sublist.refl _, fun _ => same⟩

theorem Passes.silent {credit : List RtCanMsg} {swallowed : Bool} :
    Passes credit credit ([] : List (TxReport τ)) swallowed :=
  Passes.of_eq (by simp)

theorem Parked.inside {t : τ} {location : TxLocation} {completed : Bool} {suspended : Option τ}
    (parked : Parked t location completed suspended) : location ≠ .idle ∧ location ≠ .take := by
  cases parked <;> simp

theorem Holding.inside {t : τ} {msg : RtCanMsg} {freelist txPending : Bool} {box : SndBox τ} {mailbox : Mailbox}
    {location : TxLocation} {credit : List RtCanMsg}
    (holding : Holding t msg freelist box mailbox txPending location credit) :
    location ≠ .idle ∧ location ≠ .take := by
  cases holding with
  | remove | mark | request | collect | finish => simp
  | outstanding parked | transmitted parked | served parked => exact parked.inside

theorem Exclusive.sce {s : Transmission τ} {credit : List RtCanMsg} (exclusive : Exclusive s credit)
    (location : SceLocation) : Exclusive { s with sce := location } credit := by
  cases exclusive with
  | free outside one listed quiet => exact .free outside one listed quiet
  | held t outside taker frames holding => exact .held t outside taker frames holding

/-- The controller is done with a frame, and nothing has yet taken notice of it. -/
theorem Exclusive.transmit {s : Transmission τ} {credit : List RtCanMsg} (exclusive : Exclusive s credit)
    (busy : s.mailbox.tme = false) (ok : Bool) :
    ∃ msg, s.mailbox.msg = some msg ∧ credit = [] ∧
      Exclusive { s with mailbox := { s.mailbox with tme := true, rqcp := true, txok := ok }, txPending := true }
        (if ok then [msg] else []) := by
  cases exclusive with
  | free _ _ _ quiet => simp [quiet.empty] at busy
  | @held t msg rest credit outside taker frames holding =>
    obtain ⟨writer, semValue, freelist, box, mailbox, txPending, sce, sndpkg, dropedsndpkg⟩ := s
    dsimp only at *
    generalize here : (writer t).location = location at holding
    cases holding with
    | remove quiet | mark quiet | request quiet | collect quiet | finish quiet => simp [quiet.empty] at busy
    | transmitted _ _ empty | served _ _ empty => simp [empty] at busy
    | outstanding parked uncompleted loaded =>
      refine ⟨msg, loaded, rfl, .held t outside taker frames ?_⟩
      rw [here]
      exact .transmitted parked uncompleted rfl

theorem Exclusive.flags {s : Transmission τ} {credit : List RtCanMsg} (exclusive : Exclusive s credit)
    (requested : s.mailbox.rqcp = true) :
    ∃ t msg rest, (∀ u, u ≠ t → (s.writer u).Outside) ∧ s.semValue = 0 ∧ (s.writer t).data = msg :: rest ∧
      s.freelist = false ∧ s.txPending = true ∧ s.mailbox.tme = true ∧ s.box.completed = false ∧
      Parked t (s.writer t).location false s.box.suspended ∧ credit = (if s.mailbox.txok then [msg] else []) := by
  cases exclusive with
  | free _ _ _ quiet => simp [quiet.noRequest] at requested
  | @held t msg rest credit outside taker frames holding =>
    obtain ⟨writer, semValue, freelist, box, mailbox, txPending, sce, sndpkg, dropedsndpkg⟩ := s
    dsimp only at *
    generalize here : (writer t).location = location at holding
    cases holding with
    | remove quiet | mark quiet | request quiet | collect quiet | finish quiet => simp [quiet.noRequest] at requested
    | outstanding _ _ _ _ noRequest | served _ _ _ noRequest => simp [noRequest] at requested
    | transmitted parked uncompleted empty =>
      exact ⟨t, msg, rest, outside, taker, frames, rfl, rfl, empty, uncompleted, here ▸ parked, by simp [requested]⟩

theorem Exclusive.clearRqcp {s : Transmission τ} {credit : List RtCanMsg} (exclusive : Exclusive s credit)
    (requested : s.mailbox.rqcp = true) :
    Exclusive s.clearRqcp [] := by
  obtain ⟨t, msg, rest, outside, taker, frames, taken, pending, empty, uncompleted, parked, _⟩ :=
    exclusive.flags requested
  refine .held t outside taker frames ?_
  have transmitted : Holding t msg false s.box { s.mailbox with rqcp := false, txok := false } true
      (s.writer t).location [] := .transmitted parked uncompleted empty
  simpa only [Transmission.clearRqcp, taken, pending] using transmitted

/-- Without the flag of a frame that was sent nothing is owed to the writer. -/
theorem Exclusive.unsent {s : Transmission τ} {credit : List RtCanMsg} (exclusive : Exclusive s credit)
    (requested : s.mailbox.rqcp = true)
    (unsent : s.mailbox.txok = false) : credit = [] := by
  obtain ⟨t, msg, rest, _, _, _, _, _, _, _, _, owed⟩ := exclusive.flags requested
  simpa [unsent] using owed

theorem Exclusive.halCanIrqHandler {s : Transmission τ} {credit : List RtCanMsg} (exclusive : Exclusive s credit) :
    ∃ credit', Exclusive s.halCanIrqHandler credit' ∧
      Passes credit credit' ([] : List (TxReport τ)) (s.mailbox.rqcp && s.mailbox.txok) := by
  unfold Transmission.halCanIrqHandler
  split
  · next requested =>
    refine ⟨[], exclusive.clearRqcp requested, by simp, fun kept => ?_⟩
    rw [requested, Bool.true_and] at kept
    simp [exclusive.unsent requested kept]
  · exact ⟨credit, exclusive, Passes.silent⟩

theorem Exclusive.opened : Exclusive (Transmission.opened : Transmission τ) [] :=
  .free (fun _ => .inl rfl) rfl rfl ⟨rfl, rfl, rfl, rfl, rfl⟩

end Exclusion

section Preservation

variable {τ : Type} [DecidableEq τ] {s s' : Transmission τ} {credit : List RtCanMsg} {reports : List (TxReport τ)}

theorem outside_update {t u : τ} {w : Writer} (enters : w.Outside) (outside : u ≠ t → (s.writer u).Outside) :
    (Function.update s.writer t w u).Outside := by
  by_cases same : u = t
  · subst same
    rwa [Function.update_self]
  · rw [Function.update_of_ne same]
    exact outside same

theorem others_update {t : τ} {w : Writer} (outside : ∀ u, u ≠ t → (s.writer u).Outside) (u : τ) (other : u ≠ t) :
    (Function.update s.writer t w u).Outside := by
  rw [Function.update_of_ne other]
  exact outside u other

theorem take_steps {t : τ} (outside : (s.writer t).Outside) (taken : s.canIntTx t = some (s', reports)) :
    (∃ msg rest, (s.writer t).data = msg :: rest) ∧ 0 < s.semValue ∧
      s' = { s with semValue := s.semValue - 1 }.goto t .remove ∧ reports = [] := by
  rcases outside with idle | ⟨take, nonempty⟩
  · simp [Transmission.canIntTx, idle] at taken
  · simp only [Transmission.canIntTx, take] at taken
    split at taken
    · next positive =>
      obtain ⟨rfl, rfl⟩ := Prod.mk.inj (Option.some.inj taken)
      exact ⟨List.exists_cons_of_ne_nil nonempty, positive, rfl, rfl⟩
    · cases taken

theorem finish_cases {t : τ} {result : SndResult} (taken : s.finish t result = some (s', reports)) :
    ∃ msg rest w, (s.writer t).data = msg :: rest ∧ s'.writer = Function.update s.writer t w ∧
      s'.semValue = s.semValue + 1 ∧ s'.freelist = s.freelist ∧ s'.box = s.box ∧ s'.mailbox = s.mailbox ∧
      s'.txPending = s.txPending ∧ s'.sce = s.sce ∧
      (result = .ok ∧ rest = [] ∧ w = ⟨.idle, [], 0⟩ ∧
          reports = [.sent t msg, .returned t ((s.writer t).sent + 1)] ∨
        result = .ok ∧ rest ≠ [] ∧ w = ⟨.take, rest, (s.writer t).sent + 1⟩ ∧ reports = [.sent t msg] ∨
        result ≠ .ok ∧ w = ⟨.idle, [], 0⟩ ∧ reports = [.dropped t msg, .returned t (s.writer t).sent]) := by
  unfold Transmission.finish at taken
  cases frames : (s.writer t).data with
  | nil => simp [frames] at taken
  | cons msg rest =>
    simp only [frames] at taken
    split at taken
    · next ok =>
      split at taken
      · next last =>
        obtain ⟨rfl, rfl⟩ := Prod.mk.inj (Option.some.inj taken)
        exact ⟨msg, rest, _, rfl, rfl, rfl, rfl, rfl, rfl, rfl, rfl, .inl ⟨ok, last, rfl, rfl⟩⟩
      · next more =>
        obtain ⟨rfl, rfl⟩ := Prod.mk.inj (Option.some.inj taken)
        exact ⟨msg, rest, _, rfl, rfl, rfl, rfl, rfl, rfl, rfl, rfl, .inr (.inl ⟨ok, more, rfl, rfl⟩)⟩
    · next failed =>
      obtain ⟨rfl, rfl⟩ := Prod.mk.inj (Option.some.inj taken)
      exact ⟨msg, rest, _, rfl, rfl, rfl, rfl, rfl, rfl, rfl, rfl, .inr (.inr ⟨failed, rfl, rfl⟩)⟩

theorem Holding.goto {t : τ} {msg : RtCanMsg} {rest : List RtCanMsg} {location : TxLocation}
    (holding : Holding t msg s.freelist s.box s.mailbox s.txPending location credit)
    (outside : ∀ u, u ≠ t → (s.writer u).Outside) (taker : s.semValue = 0) (frames : (s.writer t).data = msg :: rest) :
    Exclusive (s.goto t location) credit := by
  have frames' : ((s.goto t location).writer t).data = msg :: rest := by
    simpa [Transmission.goto] using frames
  refine .held t (others_update outside) taker frames' ?_
  simpa [Transmission.goto] using holding

/-- The thread that has the box goes on; no interrupt is pending then. -/
theorem Holding.thread {t : τ} {msg : RtCanMsg} {rest : List RtCanMsg} (outside : ∀ u, u ≠ t → (s.writer u).Outside)
    (taker : s.semValue = 0) (frames : (s.writer t).data = msg :: rest)
    (holding : Holding t msg s.freelist s.box s.mailbox s.txPending (s.writer t).location credit)
    (idle : s.txPending = false) (taken : s.canIntTx t = some (s', reports)) :
    ∃ credit', Exclusive s' credit' ∧
      reports.filterMap TxReport.sentFrame ++ credit' = credit ++ reports.filterMap TxReport.busFrame := by
  obtain ⟨writer, semValue, freelist, box, mailbox, txPending, sce, sndpkg, dropedsndpkg⟩ := s
  dsimp only at *
  subst taker idle
  generalize here : (writer t).location = location at holding
  cases holding with
  | remove quiet =>
    simp only [Transmission.canIntTx, here, if_true] at taken
    obtain ⟨rfl, rfl⟩ := Prod.mk.inj (Option.some.inj taken)
    exact ⟨[], (Holding.mark quiet).goto outside rfl frames, rfl⟩
  | mark quiet =>
    simp only [Transmission.canIntTx, here] at taken
    obtain ⟨rfl, rfl⟩ := Prod.mk.inj (Option.some.inj taken)
    have quiet : Quiet { box with result := .wait } mailbox false :=
      ⟨quiet.empty, quiet.noRequest, rfl, quiet.uncompleted, quiet.alone⟩
    exact ⟨[], (Holding.request quiet).goto outside rfl frames, rfl⟩
  | request quiet =>
    simp only [Transmission.canIntTx, here, frames, Transmission.canSendmsg, quiet.empty, if_true] at taken
    obtain ⟨rfl, rfl⟩ := Prod.mk.inj (Option.some.inj taken)
    have parked : Parked t .wait false box.suspended := quiet.alone ▸ Parked.wait false
    exact ⟨[], (Holding.outstanding parked quiet.uncompleted rfl rfl rfl).goto outside rfl frames, rfl⟩
  | outstanding parked uncompleted loaded busy noRequest =>
    generalize waiter : box.suspended = suspended at parked
    cases parked with
    | wait =>
      simp only [Transmission.canIntTx, here, uncompleted, Bool.false_eq_true, if_false] at taken
      obtain ⟨rfl, rfl⟩ := Prod.mk.inj (Option.some.inj taken)
      exact ⟨[], (Holding.outstanding .suspended rfl loaded busy noRequest).goto outside rfl frames, rfl⟩
    | suspended => simp [Transmission.canIntTx, here] at taken
  | served parked completed empty noRequest decided pending =>
    generalize waiter : box.suspended = suspended at parked
    have quiet : Quiet { box with completed := false } mailbox false := ⟨empty, noRequest, rfl, rfl, ?_⟩
    · cases parked with
      | wait | resumed =>
        simp only [Transmission.canIntTx, here, completed, if_true] at taken
        obtain ⟨rfl, rfl⟩ := Prod.mk.inj (Option.some.inj taken)
        exact ⟨_, (Holding.collect quiet decided).goto outside rfl frames, by simp⟩
    · cases parked <;> exact waiter
  | collect quiet decided =>
    simp only [Transmission.canIntTx, here] at taken
    obtain ⟨rfl, rfl⟩ := Prod.mk.inj (Option.some.inj taken)
    exact ⟨_, (Holding.finish quiet decided).goto outside rfl frames, by simp⟩
  | finish quiet decided =>
    simp only [Transmission.canIntTx, here] at taken
    obtain ⟨msg', rest', w, frames', moved, released, listed, box', mailbox', pending', _, outcome⟩ := finish_cases taken
    obtain ⟨rfl, rfl⟩ := List.cons.inj (frames.symm.trans frames')
    have quiet' : Quiet s'.box s'.mailbox s'.txPending := by
      rw [box', mailbox', pending']
      exact quiet
    rcases outcome with ⟨rfl, rfl, rfl, rfl⟩ | ⟨rfl, more, rfl, rfl⟩ | ⟨failed, rfl, rfl⟩
    · exact ⟨[], .free (moved ▸ fun u => outside_update (.inl rfl) (outside u)) released listed quiet', rfl⟩
    · exact ⟨[], .free (moved ▸ fun u => outside_update (.inr ⟨rfl, more⟩) (outside u)) released listed quiet', rfl⟩
    · refine ⟨[], .free (moved ▸ fun u => outside_update (.inl rfl) (outside u)) released listed quiet', ?_⟩
      rw [if_neg failed]
      rfl

/-- The writer of a frame that is reported for the first time finds the completion, whether it has come to wait or
not. -/
theorem txEvent_steps {t : τ} {msg : RtCanMsg} {rest : List RtCanMsg} (result : SndResult)
    (outside : ∀ u, u ≠ t → (s.writer u).Outside) (frames : (s.writer t).data = msg :: rest)
    (parked : Parked t (s.writer t).location false s.box.suspended) (uncompleted : s.box.completed = false) :
    ∃ writer box, s.txEvent result = { s with writer, box } ∧ (∀ u, u ≠ t → (writer u).Outside) ∧
      (writer t).data = msg :: rest ∧ Parked t (writer t).location true box.suspended ∧ box.completed = true ∧
      box.result = result := by
  obtain ⟨writer, semValue, freelist, box, mailbox, txPending, sce, sndpkg, dropedsndpkg⟩ := s
  dsimp only at *
  generalize here : (writer t).location = location at parked
  generalize waiter : box.suspended = suspended at parked
  simp only [Transmission.txEvent, Transmission.rtCompletionDone, uncompleted, Bool.false_eq_true, if_false, waiter]
  cases parked with
  | wait => exact ⟨writer, _, rfl, outside, frames, here ▸ Parked.wait true, rfl, rfl⟩
  | suspended =>
    refine ⟨_, _, rfl, others_update outside, ?_, ?_, rfl, rfl⟩
    · simpa using frames
    · simpa using Parked.resumed

theorem txEvent_completed (completed : s.box.completed = true) (result : SndResult) :
    s.txEvent result = { s with box.result := result } := by
  simp [Transmission.txEvent, Transmission.rtCompletionDone, completed]

theorem Exclusive.txIrq (exclusive : Exclusive s credit) (pending : s.txPending = true) :
    Exclusive s.can1TxIrqHandler credit := by
  cases exclusive with
  | free _ _ _ quiet => simp [quiet.noInterrupt] at pending
  | @held t msg rest credit outside taker frames holding =>
    obtain ⟨writer, semValue, freelist, box, mailbox, txPending, sce, sndpkg, dropedsndpkg⟩ := s
    dsimp only at *
    subst pending
    generalize here : (writer t).location = location at holding
    cases holding with
    | remove quiet | mark quiet | request quiet | collect quiet | finish quiet => cases quiet.noInterrupt
    | transmitted parked uncompleted empty =>
      subst here
      simp only [Transmission.can1TxIrqHandler]
      split
      · next requested =>
        obtain ⟨writer', box', same, outside', frames', parked', completed, result⟩ :=
          txEvent_steps (s := ⟨writer, semValue, false, box, mailbox, false, sce, sndpkg, dropedsndpkg⟩)
            (if mailbox.txok then .ok else .err) outside frames parked uncompleted
        rw [same]
        refine .held t outside' taker frames' ?_
        have decided : box'.result ≠ .wait := by
          rw [result]
          split <;> simp
        have credits : (if mailbox.rqcp && mailbox.txok then [msg] else []) = if box'.result = .ok then [msg] else [] := by
          cases sent : mailbox.txok <;> simp [result, requested, sent]
        rw [credits]
        exact .served parked' completed empty rfl decided nofun
      · next noRequest =>
        obtain ⟨writer', box', same, outside', frames', parked', completed, result⟩ :=
          txEvent_steps (s := ⟨writer, semValue, false, box, mailbox, false, sce, sndpkg, dropedsndpkg⟩)
            .err outside frames parked uncompleted
        rw [same]
        refine .held t outside' taker frames' ?_
        rw [Bool.not_eq_true] at noRequest
        have served : Holding t msg false box' mailbox false (writer' t).location
            (if box'.result = .ok then [msg] else []) :=
          .served parked' completed empty noRequest (by simp [result]) (by simp)
        simpa [result, noRequest] using served
    | served parked completed empty noRequest decided failed =>
      have err : box.result = .err := failed rfl
      have same := txEvent_completed
        (s := ⟨writer, semValue, false, box, mailbox, false, sce, sndpkg, dropedsndpkg⟩) completed .err
      simp only [Transmission.can1TxIrqHandler, noRequest, Bool.false_eq_true, if_false, same]
      refine .held t outside taker frames ?_
      rw [here, ← err]
      exact .served parked completed empty noRequest decided (by simp)

theorem Exclusive.failed (exclusive : Exclusive s credit) (requested : s.mailbox.rqcp = true) :
    Exclusive (s.txEvent .err).clearRqcp [] := by
  obtain ⟨t, msg, rest, outside, taker, frames, taken, pending, empty, uncompleted, parked, _⟩ :=
    exclusive.flags requested
  obtain ⟨writer, box, same, outside', frames', parked', completed, result⟩ :=
    txEvent_steps .err outside frames parked uncompleted
  rw [same]
  refine .held t outside' taker frames' ?_
  have served : Holding t msg false box { s.mailbox with rqcp := false, txok := false } true (writer t).location
      (if box.result = .ok then [msg] else []) :=
    .served parked' completed empty rfl (by simp [result]) fun _ => result
  simpa [Transmission.clearRqcp, taken, pending, result] using served

theorem Exclusive.ackError (exclusive : Exclusive s credit) :
    ∃ credit', Exclusive s.ackError credit' ∧
      Passes credit credit' ([] : List (TxReport τ)) (s.mailbox.rqcp && s.mailbox.txok) := by
  unfold Transmission.ackError
  split
  · next requested =>
    split
    · next sent => exact ⟨[], exclusive.clearRqcp requested, by simp, by simp [requested, sent]⟩
    · next unsent =>
      rw [exclusive.unsent requested (by simpa using unsent)]
      exact ⟨[], exclusive.failed requested, Passes.silent⟩
  · exact ⟨credit, exclusive, Passes.silent⟩

/-- A thread that is outside is called, and stays outside. -/
theorem Exclusive.call {t : τ} {w : Writer} (exclusive : Exclusive s credit) (idle : (s.writer t).location = .idle)
    (enters : w.Outside) : Exclusive { s with writer := Function.update s.writer t w } credit := by
  cases exclusive with
  | free outside one listed quiet => exact .free (fun u => outside_update enters fun _ => outside u) one listed quiet
  | @held holder msg rest credit outside taker frames holding =>
    have other : holder ≠ t := by
      rintro rfl
      exact holding.inside.1 idle
    have frames' : (Function.update s.writer t w holder).data = msg :: rest := by
      rw [Function.update_of_ne other]
      exact frames
    refine .held holder (fun u apart => outside_update enters fun _ => outside u apart) taker frames' ?_
    simpa [Function.update_of_ne other] using holding

theorem Exclusive.thread {t : τ} (exclusive : Exclusive s credit) (idle : s.txPending = false)
    (taken : s.canIntTx t = some (s', reports)) :
    ∃ credit', Exclusive s' credit' ∧
      reports.filterMap TxReport.sentFrame ++ credit' = credit ++ reports.filterMap TxReport.busFrame := by
  cases exclusive with
  | free outside one listed quiet =>
    obtain ⟨⟨msg, rest, frames⟩, _, rfl, rfl⟩ := take_steps (outside t) taken
    refine ⟨[], Holding.goto ?_ (fun u _ => outside u) ?_ frames, rfl⟩
    · exact listed ▸ Holding.remove quiet
    · simp [one]
  | @held holder msg rest credit outside taker frames holding =>
    by_cases same : t = holder
    · subst same
      exact holding.thread outside taker frames idle taken
    · obtain ⟨_, positive, _⟩ := take_steps (outside t same) taken
      omega

/-- The step lemma. -/
theorem Exclusive.step {event : TxEvent τ} (exclusive : Exclusive s credit)
    (taken : txStep s event = some (s', reports)) :
    ∃ credit', Exclusive s' credit' ∧ Passes credit credit' reports (s.swallows event) := by
  cases event with
  | call t data =>
    simp only [txStep] at taken
    split at taken
    · next ready =>
      split at taken
      · obtain ⟨rfl, rfl⟩ := Prod.mk.inj (Option.some.inj taken)
        refine ⟨credit, exclusive, Passes.of_eq ?_⟩
        exact (List.append_nil credit).symm
      · next nonempty =>
        obtain ⟨rfl, rfl⟩ := Prod.mk.inj (Option.some.inj taken)
        exact ⟨credit, exclusive.call ready.2.2 (.inr ⟨rfl, nonempty⟩), Passes.silent⟩
    · cases taken
  | thread t =>
    simp only [txStep] at taken
    split at taken
    · next ready =>
      obtain ⟨credit', after, same⟩ := exclusive.thread ready.1 taken
      exact ⟨credit', after, Passes.of_eq same⟩
    · cases taken
  | transmit ok =>
    simp only [txStep] at taken
    split at taken
    · cases taken
    · next busy =>
      rw [Bool.not_eq_true] at busy
      obtain ⟨rfl, rfl⟩ := Prod.mk.inj (Option.some.inj taken)
      obtain ⟨msg, loaded, rfl, after⟩ := exclusive.transmit busy ok
      refine ⟨_, after, Passes.of_eq ?_⟩
      cases ok <;> simp [loaded, TxReport.sentFrame, TxReport.busFrame]
  | txIrq =>
    simp only [txStep] at taken
    split at taken
    · next pending =>
      obtain ⟨rfl, rfl⟩ := Prod.mk.inj (Option.some.inj taken)
      exact ⟨credit, exclusive.txIrq pending.1, Passes.silent⟩
    · cases taken
  | sceIrq =>
    simp only [txStep] at taken
    split at taken
    · obtain ⟨rfl, rfl⟩ := Prod.mk.inj (Option.some.inj taken)
      exact ⟨credit, exclusive.sce .entered, Passes.silent⟩
    · cases taken
  | sceHal =>
    simp only [txStep] at taken
    split at taken
    · obtain ⟨rfl, rfl⟩ := Prod.mk.inj (Option.some.inj taken)
      obtain ⟨credit', after, passes⟩ := exclusive.halCanIrqHandler
      exact ⟨credit', after.sce .handled, passes⟩
    · cases taken
  | sceEnd ackErr =>
    simp only [txStep] at taken
    split at taken
    · obtain ⟨rfl, rfl⟩ := Prod.mk.inj (Option.some.inj taken)
      cases ackErr with
      | false => exact ⟨credit, exclusive.sce .out, Passes.silent⟩
      | true =>
        obtain ⟨credit', after, passes⟩ := exclusive.ackError
        exact ⟨credit', after.sce .out, passes⟩
    · cases taken

variable {entries : List (TxEntry τ)}

/-- What is on the bus and not reported is what the writer in the box is owed, unless a flag was taken away. -/
theorem exclusive_run (run : (txMachine τ).Run .opened entries s) :
    ∃ credit, Exclusive s credit ∧ List.Sublist (sentFrames entries ++ credit) (busFrames entries) ∧
      ((∀ entry ∈ entries, entry.before.swallows entry.input = false) →
        sentFrames entries ++ credit = busFrames entries) := by
  refine run.history (fun entries s => ∃ credit, Exclusive s credit ∧
    List.Sublist (sentFrames entries ++ credit) (busFrames entries) ∧
      ((∀ entry ∈ entries, entry.before.swallows entry.input = false) →
        sentFrames entries ++ credit = busFrames entries)) ⟨[], .opened, by rfl, fun _ => rfl⟩ ?_
  rintro pre ⟨before, event, after, reports⟩ _ taken ⟨credit, exclusive, order, all⟩
  obtain ⟨credit', exclusive', passes⟩ := exclusive.step taken
  have sent : sentFrames (pre ++ [⟨before, event, after, reports⟩]) =
      sentFrames pre ++ reports.filterMap TxReport.sentFrame := by simp [sentFrames]
  have bus : busFrames (pre ++ [⟨before, event, after, reports⟩]) =
      busFrames pre ++ reports.filterMap TxReport.busFrame := by simp [busFrames]
  refine ⟨credit', exclusive', ?_, fun kept => ?_⟩
  · rw [sent, bus, List.append_assoc]
    refine (passes.order.append_left (sentFrames pre)).trans ?_
    rw [← List.append_assoc]
    exact order.append_right _
  · rw [List.forall_mem_append, List.forall_mem_singleton] at kept
    rw [sent, bus, List.append_assoc, passes.all kept.2, ← List.append_assoc, all kept.1]

end Preservation

/-! ## What the thread in the box relies on -/

section Turn

variable {τ : Type} {s : Transmission τ} {credit : List RtCanMsg}

def Writer.Inside (w : Writer) : Prop := w.location ≠ .idle ∧ w.location ≠ .take

theorem Writer.Outside.not_inside {w : Writer} (outside : w.Outside) : ¬ w.Inside :=
  fun inside => outside.elim inside.1 fun take => inside.2 take.1

structure Alone (s : Transmission τ) (t : τ) : Prop where
  /-- The free list that it takes the first box of is not empty. -/
  listed : (s.writer t).location = .remove → s.freelist = true
  /-- The driver does not refuse its frame, and it need not put the box back and try again. -/
  accepted : (s.writer t).location = .request → s.mailbox.tme = true
  noRetry : (s.writer t).location ≠ .putBack ∧ (s.writer t).location ≠ .giveBack
  /-- No other thread waits for the completion. -/
  single : (s.writer t).location = .wait → s.box.completed = false → s.box.suspended = none
  decided : (s.writer t).location = .collect → s.box.result ≠ .wait
  own : s.mailbox.tme = false → s.mailbox.msg = (s.writer t).data.head?

theorem Parked.apart {t : τ} {location : TxLocation} {completed : Bool} {suspended : Option τ}
    (parked : Parked t location completed suspended) :
    location ≠ .remove ∧ location ≠ .request ∧ location ≠ .collect ∧ location ≠ .putBack ∧ location ≠ .giveBack := by
  cases parked <;> simp

theorem Parked.single {t : τ} {location : TxLocation} {completed : Bool} {suspended : Option τ}
    (parked : Parked t location completed suspended) (waits : location = .wait) : suspended = none := by
  cases parked <;> simp at waits ⊢

theorem Holding.alone {t : τ} {msg : RtCanMsg} {rest : List RtCanMsg} (frames : (s.writer t).data = msg :: rest)
    (holding : Holding t msg s.freelist s.box s.mailbox s.txPending (s.writer t).location credit) : Alone s t := by
  obtain ⟨writer, semValue, freelist, box, mailbox, txPending, sce, sndpkg, dropedsndpkg⟩ := s
  dsimp only at *
  generalize here : (writer t).location = location at holding
  cases holding with
  | remove quiet | mark quiet | request quiet | finish quiet => constructor <;> simp [here, quiet.empty, quiet.alone]
  | collect quiet decided => constructor <;> simp [here, quiet.empty, decided]
  | outstanding parked uncompleted loaded =>
    obtain ⟨remove, request, collect, putBack, giveBack⟩ := parked.apart
    constructor <;> simp only [here]
    · exact fun impossible => absurd impossible remove
    · exact fun impossible => absurd impossible request
    · exact ⟨putBack, giveBack⟩
    · exact fun waits _ => parked.single waits
    · exact fun impossible => absurd impossible collect
    · exact fun _ => by rw [loaded, frames, List.head?_cons]
  | transmitted parked _ empty | served parked _ empty =>
    obtain ⟨remove, request, collect, putBack, giveBack⟩ := parked.apart
    constructor <;> simp only [here]
    · exact fun impossible => absurd impossible remove
    · exact fun _ => empty
    · exact ⟨putBack, giveBack⟩
    · exact fun waits _ => parked.single waits
    · exact fun impossible => absurd impossible collect
    · exact fun busy => absurd (empty.symm.trans busy) nofun

theorem Exclusive.alone (exclusive : Exclusive s credit) {t : τ} (inside : (s.writer t).Inside) :
    Alone s t ∧ s.semValue = 0 ∧ ∀ u, (s.writer u).Inside → u = t := by
  cases exclusive with
  | free outside => exact absurd inside (outside t).not_inside
  | @held holder msg rest credit outside taker frames holding =>
    have only (u : τ) (within : (s.writer u).Inside) : u = holder := by
      by_contra other
      exact (outside u other).not_inside within
    obtain rfl := only t inside
    exact ⟨holding.alone frames, taker, only⟩

theorem Exclusive.none_inside (exclusive : Exclusive s credit) (outside : ∀ t, ¬ (s.writer t).Inside) :
    s.semValue = 1 ∧ s.freelist = true ∧ s.mailbox.tme = true := by
  cases exclusive with
  | free _ token listed quiet => exact ⟨token, listed, quiet.empty⟩
  | held t _ _ _ holding => exact absurd holding.inside (outside t)

/-- At most one thread is between taking the semaphore and releasing it, and it finds the free list, the mailbox and the
completion as `_can_int_tx` supposes without a check. -/
theorem one_sender [DecidableEq τ] {entries : List (TxEntry τ)} (run : (txMachine τ).Run .opened entries s) :
    (∀ t, (s.writer t).Inside → Alone s t ∧ s.semValue = 0 ∧ ∀ u, (s.writer u).Inside → u = t) ∧
      ((∀ t, ¬ (s.writer t).Inside) → s.semValue = 1 ∧ s.freelist = true ∧ s.mailbox.tme = true) := by
  obtain ⟨credit, exclusive, _⟩ := exclusive_run run
  exact ⟨fun _ inside => exclusive.alone inside, exclusive.none_inside⟩

/-- Two threads write; the second one waits for the semaphore while the frame of the first one is in the mailbox. -/
def contention : List (TxEvent Bool) :=
  [.call false [errorCodeInfo 1 0], .call true [errorCodeInfo 1 1, errorCodeInfo 1 2],
    .thread false, .thread false, .thread false,
    .thread false, .thread false]

theorem one_sender_contention :
    ∃ entries s, (txMachine Bool).Run .opened entries s ∧ s.mailbox.msg = some (errorCodeInfo 1 0) ∧
      (s.writer true).location = .take ∧ Alone s false ∧ s.semValue = 0 := by
  have checked : ((txMachine Bool).exec .opened contention).map (fun done =>
      decide (done.2.mailbox.msg = some (errorCodeInfo 1 0) ∧ (done.2.writer true).location = .take ∧
        (done.2.writer false).location = .suspended)) = some true := by decide +kernel
  obtain ⟨⟨entries, s⟩, done, whole⟩ := Option.map_eq_some_iff.mp checked
  obtain ⟨loaded, waits, suspended⟩ := of_decide_eq_true whole
  dsimp only at suspended
  have run := Machine.exec_run done
  have inside : (s.writer false).Inside := by simp [Writer.Inside, suspended]
  obtain ⟨alone, taken, _⟩ := (one_sender run).1 false inside
  exact ⟨entries, s, run, loaded, waits, alone, taken⟩

end Turn

end DetectBoard.Can
