import DetectBoard.Kernel.Credits
import DetectBoard.Library.BoundedQueue
import DetectBoard.Library.QueueOrder

/-! What the callers of the message queue may rely on, whatever comes between the parts of their calls. -/

set_option autoImplicit false

namespace DetectBoard.Kernel

open Library

abbrev MqEntry (τ : Type) := Entry (MqState τ) (MqCall τ) (List (MqReport τ))

/-- What the callers see of a run. -/
def events {τ : Type} (entries : List (MqEntry τ)) : List (QueueEvent τ (List UInt8)) :=
  entries.map fun entry => (entry.input.view, entry.output)

variable {τ : Type}

/-- It is the turn of this part of a call. -/
def MqState.Turn (s : MqState τ) : MqCall τ → Prop
  | .send t _ | .recv t _ => s.location t = .outside
  | .fill t => ∃ msg buffer, s.location t = .allocated msg buffer
  | .link t => ∃ msg, s.location t = .filled msg
  | .resume t => ∃ size error, s.location t = .resumed size error
  | .copy t => ∃ msg size, s.location t = .removed msg size
  | .free t => ∃ msg, s.location t = .copied msg
  | .reset => True

/-- The messages in the queue. -/
def MqState.contents (size : ℕ) (s : MqState τ) : List (List UInt8) := s.mq.blocks.map (message s.mq size)

/-- The message that a context has taken from the queue and not yet copied. -/
def MqLocation.taken (mq : RtMessagequeue τ) (size : ℕ) : MqLocation → List (List UInt8)
  | .removed msg _ => [message mq size msg]
  | _ => []

def MqLocation.holding (place : MqLocation) : ℕ := if place.block.isSome then 1 else 0

/-- Nobody holds a block, and these are the messages in the queue. -/
structure AtRest {capacity : ℕ} (size : ℕ) (s : MqState τ) (queue : BoundedQueue (List UInt8) capacity) : Prop where
  free : ∀ t, (s.location t).block = none
  contents : s.contents size = queue.entries

variable {size blocks : ℕ} {s s' : MqState τ} {t : τ} {priority : τ → ℕ} {a : CreditQueue τ (List UInt8)}

instance (size : ℕ) (call : MqCall τ) : Decidable (call.Sized size) := by
  cases call <;> unfold MqCall.Sized <;> infer_instance

theorem viewed_entry {entries : List (MqEntry τ)} {steps : List (CreditQueue.CallEntry τ (List UInt8))}
    (same : CreditQueue.events steps = events entries)
    {step : CreditQueue.CallEntry τ (List UInt8)} (member : step ∈ steps) :
    ∃ entry ∈ entries, entry.input.view = step.input := by
  have inputs := congrArg (List.map Prod.fst) same
  simp only [CreditQueue.events, events, List.map_map, Function.comp_def] at inputs
  have among : step.input ∈ entries.map fun entry => entry.input.view := inputs ▸ List.mem_map_of_mem member
  exact List.mem_map.mp among

theorem view_reset {call : MqCall τ} (view : call.view = .reset) : call = .reset := by
  cases call <;> cases view
  rfl

theorem view_receive {call : MqCall τ} (view : call.view = .receive t) : ∃ size, call = .recv t size := by
  cases call <;> cases view
  exact ⟨_, rfl⟩

/-! ## What the contents stand for -/

namespace Represents

variable [Fintype τ] (represents : Represents size blocks s a)
include represents

theorem entries_eq : a.entries = s.contents size := by
  obtain ⟨_, queue, free, shape, rfl⟩ := represents
  rw [MqState.contents, RtMessagequeue.blocks, shape.entry, shape.queued.walk_eq]
  rfl

theorem length_eq : a.entries.length = s.mq.entry.toNat := by
  obtain ⟨_, queue, free, shape, rfl⟩ := represents
  rw [shape.entry]
  exact List.length_map ..

theorem waiting_eq : a.waiting = s.mq.suspendThread := by
  obtain ⟨_, queue, free, shape, rfl⟩ := represents
  rfl

theorem stage_eq (t : τ) : a.stage t = (s.location t).stage s.mq size := by
  obtain ⟨_, queue, free, shape, rfl⟩ := represents
  rfl

theorem held_eq : total CreditQueue.held a.stage = total MqLocation.holding s.location := by
  refine Finset.sum_congr rfl fun t _ => ?_
  rw [represents.stage_eq]
  cases s.location t <;> rfl

theorem hand_eq (t : τ) : CreditQueue.hand (a.stage t) = (s.location t).taken s.mq size := by
  rw [represents.stage_eq]
  cases s.location t <;> rfl

theorem outside_iff : a.stage t = .outside ↔ s.location t = .outside := by
  rw [represents.stage_eq]
  cases s.location t <;> simp [MqLocation.stage]

theorem waiting_iff : a.stage t = .waiting ↔ s.location t = .suspended size := by
  obtain ⟨_, _, shape, _⟩ := represents.shape
  have sized := shape.sized t
  rw [represents.stage_eq]
  cases here : s.location t <;> rw [here] at sized <;> simp [MqLocation.stage]
  exact sized

theorem woken_iff : a.stage t = .woken true ↔ s.location t = .resumed size false := by
  obtain ⟨_, _, shape, _⟩ := represents.shape
  have sized := shape.sized t
  rw [represents.stage_eq]
  cases here : s.location t <;> rw [here] at sized <;> simp [MqLocation.stage]
  exact fun _ => sized

theorem free_iff : (∀ t, (s.location t).block = none) ↔ a.entries.length + a.credit = blocks := by
  have credits := represents.sound.credits
  have held : total CreditQueue.held a.stage = 0 ↔ ∀ t, (s.location t).block = none := by
    rw [represents.held_eq, total, Finset.sum_eq_zero_iff]
    refine forall_congr' fun t => ?_
    cases here : (s.location t).block <;> simp [MqLocation.holding, here]
  rw [← held]
  omega

theorem atRest {capacity : ℕ} {queue : BoundedQueue (List UInt8) capacity} (same : a.entries = queue.entries)
    (credits : a.entries.length + a.credit = blocks) : AtRest size s queue :=
  ⟨represents.free_iff.mpr credits, represents.entries_eq.symm.trans same⟩

end Represents

variable [DecidableEq τ] [Fintype τ]

theorem takeMessage_isSome {queue free : List ℕ} (shape : Shape size blocks s queue free) (size' : ℕ) :
    (s.takeMessage t priority size').isSome := by
  rw [MqState.takeMessage]
  split
  · rfl
  · next queued =>
    rw [Option.isSome_map, shape.queued.head_eq]
    cases queue with
    | nil => exact absurd (UInt16.toNat_inj.mp (shape.entry.trans rfl)) queued
    | cons msg rest => rfl

/-- The pointers never lead to a null pointer where a block is expected. -/
theorem mqStep_isSome {queue free : List ℕ} (shape : Shape size blocks s queue free) (call : MqCall τ) :
    (mqStep priority s call).isSome ↔ s.Turn call := by
  have takes (t : τ) (size' : ℕ) : (s.takeMessage t priority size').isSome := takeMessage_isSome shape size'
  cases call with
  | send t buffer | fill t | link t | copy t | free t => cases here : s.location t <;> simp [mqStep, MqState.Turn, here]
  | recv t size' => cases here : s.location t <;> simp [mqStep, MqState.Turn, here, takes]
  | resume t =>
    cases here : s.location t with
    | resumed size' error => cases error <;> simp [mqStep, MqState.Turn, here, takes]
    | _ => simp [mqStep, MqState.Turn, here]
  | reset => exact iff_of_true rfl trivial

theorem step_isSome (represents : Represents size blocks s a) (call : MqCall τ) :
    (a.step priority call.view).isSome → (mqStep priority s call).isSome := by
  obtain ⟨_, queue, free, shape, rfl⟩ := represents
  rw [mqStep_isSome shape]
  have stage (t : τ) : (s.image size queue free).stage t = (s.location t).stage s.mq size := rfl
  cases call with
  | reset => exact fun _ => trivial
  | _ t =>
    cases here : s.location t <;>
      simp [CreditQueue.step, MqCall.view, MqState.Turn, stage, here, MqLocation.stage]

omit [Fintype τ] in
theorem rtMqSend_refused {buffer : List UInt8} (refused : (s.rtMqSend t buffer).2 = [.refused t]) :
    s.rtMqSend t buffer = (s, [.refused t]) := by
  unfold MqState.rtMqSend at *
  split at refused
  · cases refused
  · next fits =>
    rw [if_neg fits]
    split at refused
    · rfl
    · cases refused

/-- A thread and an interrupt, and a pool of two messages of two bytes. -/
def small : MqState Bool := .created 2 2 (fun _ => none) fun _ => []

/-- The interrupt sends while the thread waits, and again before the thread goes on. -/
def interleaved : List (MqCall Bool) :=
  [.recv true 2, .send false [1, 2], .fill false, .link false, .send false [3, 4], .resume true, .copy true,
    .fill false, .free true, .link false]

theorem interleaved_sized {entries : List (MqEntry Bool)} {s : MqState Bool} {priority : Bool → ℕ}
    (done : (mqMachine priority).exec small interleaved = some (entries, s)) :
    ∀ entry ∈ entries, entry.input.Sized 2 := by
  have sized : ∀ call ∈ interleaved, call.Sized 2 := by decide
  exact fun entry member => sized _ (Machine.exec_input_mem done entry member)

/-! ## Runs -/

section Runs

variable {msgSize maxMsgs : UInt16} {next : ℕ → Option ℕ} {body : ℕ → List UInt8} {entries : List (MqEntry τ)}

omit [DecidableEq τ] in
theorem created_represents (fits : size ≤ (rtAlign msgSize).toNat) :
    Represents size maxMsgs.toNat (MqState.created msgSize maxMsgs next body : MqState τ)
      (CreditQueue.created maxMsgs.toNat) where
  sound := .created _
  shape := ⟨[], _, created_shape msgSize maxMsgs next body fits, (created_image msgSize maxMsgs next body).symm⟩

/-- Every run does what a queue with as many credits as there are blocks does, and returns the same. -/
theorem messageQueue_refines (fits : size ≤ (rtAlign msgSize).toNat)
    (run : (mqMachine priority).Run (MqState.created msgSize maxMsgs next body) entries s)
    (sized : ∀ entry ∈ entries, entry.input.Sized size) :
    (CreditQueue.machine priority).Refines MqCall.view (.created maxMsgs.toNat) entries :=
  run.refines (Represents size maxMsgs.toNat) (created_represents fits) fun entry member taken _ before =>
    simulate (sized entry member) taken before

theorem messageQueue_refines_interleaved :
    ∃ entries s, (mqMachine fun _ => 0).exec small interleaved = some (entries, s) ∧
      (CreditQueue.machine fun _ => 0).Refines MqCall.view (.created 2) entries := by
  have done : (mqMachine fun _ => 0).exec small interleaved = some (_, _) := rfl
  exact ⟨_, _, done, messageQueue_refines (by decide) (Machine.exec_run done) (interleaved_sized done)⟩

theorem represented (fits : size ≤ (rtAlign msgSize).toNat)
    (run : (mqMachine priority).Run (MqState.created msgSize maxMsgs next body) entries s)
    (sized : ∀ entry ∈ entries, entry.input.Sized size) :
    ∃ steps a, (CreditQueue.machine priority).Run (CreditQueue.created maxMsgs.toNat) steps a ∧
      CreditQueue.events steps = events entries ∧ Represents size maxMsgs.toNat s a := by
  have simulated : ∀ entry ∈ entries, (mqMachine priority).Takes entry →
      ∀ a, Represents size maxMsgs.toNat entry.before a →
      ∃ a', (CreditQueue.machine priority).step a entry.input.view = some (a', entry.output) ∧
        Represents size maxMsgs.toNat entry.after a' :=
    fun entry member taken _ before => simulate (sized entry member) taken before
  obtain ⟨steps, a, abstractRun, inputs, outputs, represents⟩ := run.simulated _ (created_represents fits) simulated
  refine ⟨steps, a, abstractRun, ?_, represents⟩
  have pairs : List.zip (steps.map Entry.input) (steps.map Entry.output) =
      List.zip (entries.map fun entry => entry.input.view) (entries.map Entry.output) := by rw [inputs, outputs]
  rwa [List.zip_map', List.zip_map'] at pairs

/-- Whatever has happened, the pointers lead through the queue and the free blocks, each block of the pool is
in one place, and only whose turn it is not cannot go on. -/
theorem pool_complete (fits : size ≤ (rtAlign msgSize).toNat)
    (run : (mqMachine priority).Run (MqState.created msgSize maxMsgs next body) entries s)
    (sized : ∀ entry ∈ entries, entry.input.Sized size) :
    (∃ free, Linked s.mq.next s.mq.msgQueueHead s.mq.blocks ∧ Linked s.mq.next s.mq.msgQueueFree free ∧
      Placed maxMsgs.toNat s.mq.blocks free s.location) ∧
      s.mq.msgQueueTail = s.mq.blocks.getLast? ∧ s.mq.blocks.length = s.mq.entry.toNat ∧
      ∀ call, (mqStep priority s call).isSome ↔ s.Turn call := by
  obtain ⟨_, _, _, _, represents⟩ := represented fits run sized
  obtain ⟨queue, free, shape, _⟩ := represents.shape
  have blocks : s.mq.blocks = queue := by
    rw [RtMessagequeue.blocks, shape.entry, shape.queued.walk_eq]
  rw [blocks]
  exact ⟨⟨free, shape.queued, shape.freed, shape.placed⟩, shape.tail, shape.entry.symm, mqStep_isSome shape⟩

theorem pool_complete_interleaved :
    ∃ entries s, (mqMachine fun _ => 0).exec small interleaved = some (entries, s) ∧ s.mq.blocks = [0] ∧
      s.mq.blocks.length = s.mq.entry.toNat := by
  have done : (mqMachine fun _ => 0).exec small interleaved = some (_, _) := rfl
  exact ⟨_, _, done, rfl, (pool_complete (by decide) (Machine.exec_run done) (interleaved_sized done)).2.2.1⟩

/-- A send is refused if and only if all blocks are queued or held, and never once it has got a block. -/
theorem refused_iff_full (fits : size ≤ (rtAlign msgSize).toNat)
    (run : (mqMachine priority).Run (MqState.created msgSize maxMsgs next body) entries s)
    (sized : ∀ entry ∈ entries, entry.input.Sized size) :
    s.mq.entry.toNat + total MqLocation.holding s.location ≤ maxMsgs.toNat ∧
      (∀ t buffer s' reports, buffer.length = size → mqStep priority s (.send t buffer) = some (s', reports) →
        (reports = [.refused t] ∧ s.mq.entry.toNat + total MqLocation.holding s.location = maxMsgs.toNat) ∨
          reports = [] ∧ s.mq.entry.toNat + total MqLocation.holding s.location < maxMsgs.toNat) ∧
      ∀ t s' reports, mqStep priority s (.link t) = some (s', reports) → reports = [.sent t] := by
  obtain ⟨_, a, _, _, represents⟩ := represented fits run sized
  have credits := represents.sound.credits
  rw [represents.length_eq, represents.held_eq] at credits
  refine ⟨by omega, fun t buffer s' reports whole taken => ?_, fun t s' reports taken => ?_⟩
  · have sent : (MqCall.send t buffer).Sized size := whole
    obtain ⟨a', step, _⟩ := simulate sent taken represents
    cases CreditQueue.step_steps step with
    | reserves outside credit => exact .inr ⟨rfl, by omega⟩
    | refuses outside empty => exact .inl ⟨rfl, by omega⟩
  · have linked : (MqCall.link t).Sized size := trivial
    obtain ⟨a', step, _⟩ := simulate linked taken represents
    cases CreditQueue.step_steps step
    rfl

theorem refused_interleaved :
    ∃ entries s, (mqMachine fun _ => 0).exec small interleaved = some (entries, s) ∧
      s.mq.entry.toNat + total MqLocation.holding s.location ≤ 2 := by
  have done : (mqMachine fun _ => 0).exec small interleaved = some (_, _) := rfl
  exact ⟨_, _, done, (refused_iff_full (by decide) (Machine.exec_run done) (interleaved_sized done)).1⟩

/-- Each context gets messages in the order in which they were sent. Where only one receives and nobody resets
the queue, it gets all of them: what it has not got yet is in its hands or in the queue. -/
theorem received_in_order (fits : size ≤ (rtAlign msgSize).toNat)
    (run : (mqMachine priority).Run (MqState.created msgSize maxMsgs next body) entries s)
    (sized : ∀ entry ∈ entries, entry.input.Sized size) (t : τ) :
    (deliveredTo t (events entries)).Sublist (Sendings.of (events entries)).sent ∧
      ((∀ entry ∈ entries, entry.input ≠ .reset ∧ ∀ t' size', entry.input = .recv t' size' → t' = t) →
        deliveredTo t (events entries) ++ (s.location t).taken s.mq size ++ s.contents size =
          (Sendings.of (events entries)).sent) := by
  obtain ⟨steps, a, abstractRun, same, represents⟩ := represented fits run sized
  rw [← same, ← represents.hand_eq, ← represents.entries_eq]
  refine ⟨(List.sublist_append_left ..).trans (CreditQueue.delivered_sublist abstractRun t), fun alone => ?_⟩
  refine CreditQueue.delivered_all abstractRun (fun step member c receives => ?_) (fun step member resets => ?_)
  · obtain ⟨entry, taken, view⟩ := viewed_entry same member
    obtain ⟨size', call⟩ := view_receive (view.trans receives)
    exact (alone entry taken).2 c size' call
  · obtain ⟨entry, taken, view⟩ := viewed_entry same member
    exact (alone entry taken).1 (view_reset (view.trans resets))

theorem received_interleaved :
    ∃ entries s, (mqMachine fun _ => 0).exec small interleaved = some (entries, s) ∧
      deliveredTo true (events entries) = [[1, 2]] ∧ (Sendings.of (events entries)).sent = [[1, 2], [3, 4]] ∧
      deliveredTo true (events entries) ++ (s.location true).taken s.mq 2 ++ s.contents 2 =
        (Sendings.of (events entries)).sent := by
  have done : (mqMachine fun _ => 0).exec small interleaved = some (_, _) := rfl
  have alone : ∀ call ∈ interleaved, call ≠ .reset ∧ ∀ t size, call = .recv t size → t = true := by
    simp [interleaved]
  refine ⟨_, _, done, rfl, rfl, ?_⟩
  exact (received_in_order (by decide) (Machine.exec_run done) (interleaved_sized done) true).2 fun entry member =>
    alone _ (Machine.exec_input_mem done entry member)

/-- No message is delivered twice, to one context or to two. Once nobody is in a call any more, none is lost either,
unless the queue has been reset. -/
theorem delivered_once (fits : size ≤ (rtAlign msgSize).toNat)
    (run : (mqMachine priority).Run (MqState.created msgSize maxMsgs next body) entries s)
    (sized : ∀ entry ∈ entries, entry.input.Sized size) :
    ((deliveries (events entries)).map Prod.snd ++ s.contents size).Subperm (Sendings.of (events entries)).sent ∧
      ((∀ t, s.location t = .outside) → (∀ entry ∈ entries, entry.input ≠ .reset) →
        ((deliveries (events entries)).map Prod.snd ++ s.contents size).Perm (Sendings.of (events entries)).sent) := by
  obtain ⟨steps, a, abstractRun, same, represents⟩ := represented fits run sized
  rw [← same, ← represents.entries_eq]
  refine ⟨CreditQueue.delivered_subperm abstractRun, fun outside kept => ?_⟩
  refine CreditQueue.delivered_perm abstractRun (fun t => represents.outside_iff.mpr (outside t))
    fun step member resets => ?_
  obtain ⟨entry, taken, view⟩ := viewed_entry same member
  exact kept entry taken (view_reset (view.trans resets))

theorem delivered_interleaved :
    ∃ entries s, (mqMachine fun _ => 0).exec small interleaved = some (entries, s) ∧
      ((deliveries (events entries)).map Prod.snd ++ s.contents 2).Perm (Sendings.of (events entries)).sent := by
  have done : (mqMachine fun _ => 0).exec small interleaved = some (_, _) := rfl
  have kept : ∀ call ∈ interleaved, call ≠ .reset := by decide
  refine ⟨_, _, done, ?_⟩
  exact (delivered_once (by decide) (Machine.exec_run done) (interleaved_sized done)).2 (by decide) fun entry member =>
    kept _ (Machine.exec_input_mem done entry member)

/-- Whoever is suspended stands in the queue's list, the one with the least priority number first, and none of
them waits while there is a message that nobody was resumed for. -/
theorem no_lost_wakeup (fits : size ≤ (rtAlign msgSize).toNat)
    (run : (mqMachine priority).Run (MqState.created msgSize maxMsgs next body) entries s)
    (sized : ∀ entry ∈ entries, entry.input.Sized size) :
    (∀ t, t ∈ s.mq.suspendThread ↔ s.location t = .suspended size) ∧ s.mq.suspendThread.Nodup ∧
      s.mq.suspendThread.Pairwise (fun t t' => priority t ≤ priority t') ∧
      (s.mq.suspendThread ≠ [] → s.mq.entry ≠ 0 → ∃ t, s.location t = .resumed size false) := by
  obtain ⟨steps, a, abstractRun, same, represents⟩ := represented fits run sized
  have sound := represents.sound
  obtain ⟨ranked, _⟩ := abstractRun.invariant (CreditQueue.Ranked priority) .nil fun _ _ taken before =>
    CreditQueue.step_ranked before taken
  rw [← represents.waiting_eq]
  refine ⟨fun t => (sound.waits t).trans represents.waiting_iff, sound.distinct, ranked, fun waits queued => ?_⟩
  have messages : a.entries ≠ [] := by
    intro empty
    have entry := represents.length_eq
    rw [empty] at entry
    exact queued (UInt16.toNat_inj.mp entry.symm)
  obtain ⟨t, woken⟩ := sound.no_lost_message waits messages
  exact ⟨t, represents.woken_iff.mp woken⟩

theorem no_lost_wakeup_interleaved :
    ∃ entries s, (mqMachine fun _ => 0).exec small interleaved = some (entries, s) ∧
      ∀ t, t ∈ s.mq.suspendThread ↔ s.location t = .suspended 2 := by
  have done : (mqMachine fun _ => 0).exec small interleaved = some (_, _) := rfl
  exact ⟨_, _, done, (no_lost_wakeup (by decide) (Machine.exec_run done) (interleaved_sized done)).1⟩

theorem exec_represents (represents : Represents size blocks s a) {calls : List (MqCall τ)}
    (sized : ∀ call ∈ calls, call.Sized size) {steps : List (CreditQueue.CallEntry τ (List UInt8))}
    {a' : CreditQueue τ (List UInt8)}
    (done : (CreditQueue.machine priority).exec a (calls.map MqCall.view) = some (steps, a')) :
    ∃ entries s', (mqMachine priority).exec s calls = some (entries, s') ∧
      entries.map Entry.output = steps.map Entry.output ∧ Represents size blocks s' a' :=
  Machine.exec_simulates (Represents size blocks) represents done
    (fun call member _ _ _ taken _ before => simulate (sized call member) taken before)
    fun call _ _ _ before => step_isSome before call

section AtRest

variable (priority) {queue : BoundedQueue (List UInt8) blocks} (represents : Represents size blocks s a)
  (rest : AtRest size s queue) (outside : s.location t = .outside)
include represents rest

omit [DecidableEq τ] in
theorem entries_atRest : a.entries = queue.entries := represents.entries_eq.trans rest.contents

omit [DecidableEq τ] in
theorem credit_atRest : queue.entries.length + a.credit = blocks := by
  rw [← entries_atRest represents rest]
  exact represents.free_iff.mp rest.free

theorem reset_atRest :
    ∃ s', mqStep priority s .reset = some (s', []) ∧ AtRest size s' (.empty : BoundedQueue _ blocks) := by
  have resets : (MqCall.reset : MqCall τ).Sized size := trivial
  have taken : mqStep priority s .reset = some (s.rtMqControlReset, []) := rfl
  obtain ⟨a', step, represents'⟩ := simulate resets taken represents
  cases step
  refine ⟨_, rfl, represents'.atRest rfl ?_⟩
  have credits := represents.free_iff.mp rest.free
  simp only [CreditQueue.clear, List.length_nil]
  omega

include outside

theorem send_atRest {buffer : List UInt8} {longer : BoundedQueue (List UInt8) blocks} (whole : buffer.length = size)
    (sent : queue.send buffer = some longer) :
    ∃ steps s', (mqMachine priority).exec s [.send t buffer, .fill t, .link t] = some (steps, s') ∧
      steps.map Entry.output = [[], [], [.sent t]] ∧ AtRest size s' longer := by
  have entries := entries_atRest represents rest
  have credits := credit_atRest represents rest
  obtain ⟨room, appended⟩ := BoundedQueue.send_entries sent
  obtain ⟨_, a', done, reports, entries', credit'⟩ :=
    CreditQueue.exec_send priority (represents.outside_iff.mpr outside) (by omega) buffer
  let calls : List (MqCall τ) := [.send t buffer, .fill t, .link t]
  have sized : ∀ call ∈ calls, call.Sized size := by
    simp [calls, MqCall.Sized, whole]
  obtain ⟨steps, s', executed, outputs, represents'⟩ := exec_represents represents sized done
  refine ⟨steps, s', executed, outputs.trans reports, represents'.atRest (by rw [entries', appended, entries]) ?_⟩
  rw [entries', credit', entries, List.length_append, List.length_singleton]
  omega

theorem refused_atRest {buffer : List UInt8} (whole : buffer.length = size) (full : queue.send buffer = none) :
    mqStep priority s (.send t buffer) = some (s, [.refused t]) := by
  have credits := credit_atRest represents rest
  have room : ¬ queue.entries.length < blocks := fun room => by
    obtain ⟨_, sent, _⟩ := BoundedQueue.send_room room buffer
    rw [full] at sent
    cases sent
  have refused : a.step priority (.send t buffer) = some (a, [.refused t]) :=
    (CreditQueue.Steps.refuses (represents.outside_iff.mpr outside) (by omega)).taken
  have sent : mqStep priority s (.send t buffer) = some (s.rtMqSend t buffer) := by
    rw [mqStep, outside]
  have fits : (MqCall.send t buffer).Sized size := whole
  obtain ⟨_, step, _⟩ := simulate fits sent represents
  obtain ⟨_, reports⟩ := Prod.mk.inj (Option.some.inj (step.symm.trans refused))
  rw [sent, rtMqSend_refused reports]

theorem recv_atRest {oldest : List UInt8} {shorter : BoundedQueue (List UInt8) blocks}
    (received : queue.receive = some (oldest, shorter)) :
    ∃ steps s', (mqMachine priority).exec s [.recv t size, .copy t, .free t] = some (steps, s') ∧
      steps.map Entry.output = [[], [.delivered t oldest], []] ∧ AtRest size s' shorter := by
  have entries := entries_atRest represents rest
  have credits := credit_atRest represents rest
  have queued := BoundedQueue.receive_entries received
  obtain ⟨_, a', done, reports, entries', credit'⟩ :=
    CreditQueue.exec_receive priority (represents.outside_iff.mpr outside) (entries.trans queued)
  let calls : List (MqCall τ) := [.recv t size, .copy t, .free t]
  have sized : ∀ call ∈ calls, call.Sized size := by
    simp [calls, MqCall.Sized]
  obtain ⟨steps, s', executed, outputs, represents'⟩ := exec_represents represents sized done
  refine ⟨steps, s', executed, outputs.trans reports, represents'.atRest entries' ?_⟩
  rw [queued, List.length_cons] at credits
  rw [entries', credit']
  omega

theorem wait_atRest (empty : queue.receive = none) :
    ∃ s', mqStep priority s (.recv t size) = some (s', []) ∧ s'.location t = .suspended size ∧
      AtRest size s' queue := by
  have entries := entries_atRest represents rest
  have credits := credit_atRest represents rest
  have drained := BoundedQueue.receive_empty empty
  rw [drained] at entries credits
  have waits : a.step priority (.receive t) = some (a.acquire t priority, []) :=
    (CreditQueue.Steps.receives (represents.outside_iff.mpr outside)).taken
  obtain ⟨⟨s', reports⟩, taken⟩ := Option.isSome_iff_exists.mp
    (step_isSome represents (.recv t size) (by rw [MqCall.view, waits]; rfl))
  have fits : (MqCall.recv t size).Sized size := rfl
  obtain ⟨a', step, represents'⟩ := simulate fits taken represents
  obtain ⟨rfl, rfl⟩ := Prod.mk.inj (Option.some.inj (step.symm.trans waits))
  rw [CreditQueue.acquire_nil a t entries] at represents'
  refine ⟨s', taken, represents'.waiting_iff.mp (Function.update_self ..),
    represents'.atRest (entries.trans drained.symm) ?_⟩
  dsimp only
  rwa [entries]

end AtRest

/-- A call that nothing comes between does what a bounded queue does. -/
theorem uninterrupted (fits : size ≤ (rtAlign msgSize).toNat)
    (run : (mqMachine priority).Run (MqState.created msgSize maxMsgs next body) entries s)
    (sized : ∀ entry ∈ entries, entry.input.Sized size) {queue : BoundedQueue (List UInt8) maxMsgs.toNat}
    (rest : AtRest size s queue) (outside : s.location t = .outside) :
    (∀ buffer longer, buffer.length = size → queue.send buffer = some longer →
      ∃ steps s', (mqMachine priority).exec s [.send t buffer, .fill t, .link t] = some (steps, s') ∧
        steps.map Entry.output = [[], [], [.sent t]] ∧ AtRest size s' longer) ∧
      (∀ buffer, buffer.length = size → queue.send buffer = none →
        mqStep priority s (.send t buffer) = some (s, [.refused t])) ∧
      (∀ oldest shorter, queue.receive = some (oldest, shorter) →
        ∃ steps s', (mqMachine priority).exec s [.recv t size, .copy t, .free t] = some (steps, s') ∧
          steps.map Entry.output = [[], [.delivered t oldest], []] ∧ AtRest size s' shorter) ∧
      (queue.receive = none → ∃ s', mqStep priority s (.recv t size) = some (s', []) ∧
        s'.location t = .suspended size ∧ AtRest size s' queue) ∧
      ∃ s', mqStep priority s .reset = some (s', []) ∧ AtRest size s' (.empty : BoundedQueue _ maxMsgs.toNat) := by
  obtain ⟨_, a, _, _, represents⟩ := represented fits run sized
  exact ⟨fun _ _ => send_atRest priority represents rest outside,
    fun _ => refused_atRest priority represents rest outside,
    fun _ _ => recv_atRest priority represents rest outside, wait_atRest priority represents rest outside,
    reset_atRest priority represents rest⟩

theorem uninterrupted_interleaved :
    ∃ entries s steps s', (mqMachine fun _ => 0).exec small interleaved = some (entries, s) ∧
      (mqMachine fun _ => 0).exec s [.send true [5, 6], .fill true, .link true] = some (steps, s') ∧
      steps.map Entry.output = [[], [], [.sent true]] ∧
      AtRest 2 s' (⟨[[3, 4], [5, 6]], by decide⟩ : BoundedQueue (List UInt8) 2) := by
  obtain ⟨entries, s, done, rest, outside⟩ : ∃ entries s,
      (mqMachine fun _ => 0).exec small interleaved = some (entries, s) ∧
      AtRest 2 s (⟨[[3, 4]], by decide⟩ : BoundedQueue (List UInt8) (2 : UInt16).toNat) ∧ s.location true = .outside :=
    ⟨_, _, rfl, ⟨by decide, rfl⟩, rfl⟩
  obtain ⟨sends, _⟩ := uninterrupted (by decide) (Machine.exec_run done) (interleaved_sized done) rest outside
  obtain ⟨steps, s', executed, outputs, longer⟩ := sends [5, 6] _ rfl rfl
  exact ⟨entries, s, steps, s', done, executed, outputs, longer⟩

end Runs

end DetectBoard.Kernel
