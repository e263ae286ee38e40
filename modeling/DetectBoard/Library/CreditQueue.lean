import Mathlib.Algebra.BigOperators.Group.Finset.Piecewise
import Mathlib.Data.List.Sort
import DetectBoard.Library.Machine

/-! A queue of bounded size whose operations take time.

Any number of contexts use the queue, and each of them may be interrupted in the
middle of an operation. A message needs a credit from the moment its sender
reserves it until its receiver gives it back, so the queue refuses a message when
the credits are used up, even by operations that are still in progress.
-/

set_option autoImplicit false

namespace Library

/-! ## Sums over all contexts -/

section Total

variable {τ β : Type*} [Fintype τ] (weight : β → ℕ) (place : τ → β)

def total : ℕ := ∑ t, weight (place t)

theorem total_update [DecidableEq τ] (t : τ) (next : β) :
    total weight (Function.update place t next) + weight (place t) = total weight place + weight next := by
  have moved : (fun t' => weight (Function.update place t next t')) =
      Function.update (fun t' => weight (place t')) t (weight next) :=
    funext fun t' => Function.apply_update (fun _ => weight) place t next t'
  rw [total, moved, Finset.sum_update_of_mem (Finset.mem_univ t), total,
    Finset.sum_eq_add_sum_sdiff_singleton_of_mem (Finset.mem_univ t)]
  omega

variable {weight place}

theorem exists_of_total_pos (positive : 0 < total weight place) : ∃ t, 0 < weight (place t) := by
  obtain ⟨t, _, nonzero⟩ := Finset.exists_ne_zero_of_sum_ne_zero positive.ne'
  exact ⟨t, Nat.pos_of_ne_zero nonzero⟩

end Total

/-- Where a context is in its operation. -/
inductive Stage (α : Type*) where
  | outside
  | sending (message : α)
  | ready (message : α)
  | waiting
  /-- Resumed because of a message, or else by a reset. -/
  | woken (served : Bool)
  | receiving (message : α)
  | received
  deriving DecidableEq, Repr

structure CreditQueue (τ α : Type*) where
  entries : List α
  credit : ℕ
  /-- The contexts that wait for a message, in the order in which they will be resumed. -/
  waiting : List τ
  stage : τ → Stage α

inductive QueueCall (τ α : Type*) where
  | send (t : τ) (message : α)
  | fill (t : τ)
  | link (t : τ)
  | receive (t : τ)
  | resume (t : τ)
  | take (t : τ)
  | release (t : τ)
  | reset
  deriving DecidableEq, Repr

inductive QueueReport (τ α : Type*) where
  | sent (t : τ)
  | refused (t : τ)
  | delivered (t : τ) (message : α)
  | failed (t : τ)
  deriving DecidableEq, Repr

namespace CreditQueue

variable {τ α : Type*} [DecidableEq τ]

def created (capacity : ℕ) : CreditQueue τ α := ⟨[], capacity, [], fun _ => .outside⟩

section Operations

variable (s : CreditQueue τ α) (t : τ)

/-- The context goes on with the first message, or waits for one. -/
def acquire (priority : τ → ℕ) : CreditQueue τ α :=
  match s.entries with
  | [] => { s with
      waiting := s.waiting.orderedInsert (fun t t' => priority t < priority t') t
      stage := Function.update s.stage t .waiting }
  | message :: rest => { s with entries := rest, stage := Function.update s.stage t (.receiving message) }

/-- The first of the waiting contexts is resumed. -/
def wake : CreditQueue τ α :=
  match s.waiting with
  | [] => s
  | first :: rest => { s with waiting := rest, stage := Function.update s.stage first (.woken true) }

def append (message : α) : CreditQueue τ α :=
  wake { s with entries := s.entries ++ [message], stage := Function.update s.stage t .outside }

theorem acquire_nil {priority : τ → ℕ} (empty : s.entries = []) : s.acquire t priority =
    { s with
      waiting := s.waiting.orderedInsert (fun t t' => priority t < priority t') t
      stage := Function.update s.stage t .waiting } := by
  rw [acquire, empty]

theorem acquire_cons {priority : τ → ℕ} {message : α} {rest : List α} (queued : s.entries = message :: rest) :
    s.acquire t priority = { s with entries := rest, stage := Function.update s.stage t (.receiving message) } := by
  rw [acquire, queued]

theorem wake_nil (empty : s.waiting = []) : s.wake = s := by
  rw [wake, empty]

theorem wake_cons {first : τ} {rest : List τ} (waits : s.waiting = first :: rest) :
    s.wake = { s with waiting := rest, stage := Function.update s.stage first (.woken true) } := by
  rw [wake, waits]

theorem append_entries (message : α) : (s.append t message).entries = s.entries ++ [message] := by
  unfold append wake
  split <;> rfl

def clear : CreditQueue τ α where
  entries := []
  credit := s.credit + s.entries.length
  waiting := []
  stage t := if t ∈ s.waiting then .woken false else s.stage t

end Operations

def step (priority : τ → ℕ) (s : CreditQueue τ α) :
    QueueCall τ α → Option (CreditQueue τ α × List (QueueReport τ α))
  | .send t message =>
    match s.stage t with
    | .outside =>
      if 0 < s.credit then
        some ({ s with credit := s.credit - 1, stage := Function.update s.stage t (.sending message) }, [])
      else some (s, [.refused t])
    | _ => none
  | .fill t =>
    match s.stage t with
    | .sending message => some ({ s with stage := Function.update s.stage t (.ready message) }, [])
    | _ => none
  | .link t =>
    match s.stage t with
    | .ready message => some (s.append t message, [.sent t])
    | _ => none
  | .receive t =>
    match s.stage t with
    | .outside => some (s.acquire t priority, [])
    | _ => none
  | .resume t =>
    match s.stage t with
    | .woken true => some (s.acquire t priority, [])
    | .woken false => some ({ s with stage := Function.update s.stage t .outside }, [.failed t])
    | _ => none
  | .take t =>
    match s.stage t with
    | .receiving message =>
      some ({ s with stage := Function.update s.stage t .received }, [.delivered t message])
    | _ => none
  | .release t =>
    match s.stage t with
    | .received =>
      some ({ s with credit := s.credit + 1, stage := Function.update s.stage t .outside }, [])
    | _ => none
  | .reset => some (s.clear, [])

def machine (priority : τ → ℕ) : Machine (CreditQueue τ α) (QueueCall τ α) (List (QueueReport τ α)) :=
  ⟨step priority⟩

/-- All that a step can do. -/
inductive Steps (priority : τ → ℕ) (s : CreditQueue τ α) :
    QueueCall τ α → CreditQueue τ α → List (QueueReport τ α) → Prop where
  | reserves {t : τ} {message : α} (outside : s.stage t = .outside) (credit : 0 < s.credit) :
      Steps priority s (.send t message)
        { s with credit := s.credit - 1, stage := Function.update s.stage t (.sending message) } []
  | refuses {t : τ} {message : α} (outside : s.stage t = .outside) (empty : s.credit = 0) :
      Steps priority s (.send t message) s [.refused t]
  | fills {t : τ} {message : α} (sending : s.stage t = .sending message) :
      Steps priority s (.fill t) { s with stage := Function.update s.stage t (.ready message) } []
  | links {t : τ} {message : α} (ready : s.stage t = .ready message) :
      Steps priority s (.link t) (s.append t message) [.sent t]
  | receives {t : τ} (outside : s.stage t = .outside) :
      Steps priority s (.receive t) (s.acquire t priority) []
  | resumes {t : τ} (woken : s.stage t = .woken true) :
      Steps priority s (.resume t) (s.acquire t priority) []
  | fails {t : τ} (woken : s.stage t = .woken false) :
      Steps priority s (.resume t) { s with stage := Function.update s.stage t .outside } [.failed t]
  | takes {t : τ} {message : α} (receiving : s.stage t = .receiving message) :
      Steps priority s (.take t) { s with stage := Function.update s.stage t .received } [.delivered t message]
  | releases {t : τ} (received : s.stage t = .received) :
      Steps priority s (.release t)
        { s with credit := s.credit + 1, stage := Function.update s.stage t .outside } []
  | resets : Steps priority s .reset s.clear []

variable {priority : τ → ℕ}

theorem step_steps {s s' : CreditQueue τ α} {call : QueueCall τ α} {reports : List (QueueReport τ α)}
    (taken : s.step priority call = some (s', reports)) : Steps priority s call s' reports := by
  cases call with
  | reset =>
    cases taken
    exact .resets
  | send t message =>
    cases here : s.stage t <;> simp only [step, here, reduceCtorEq] at taken
    split at taken
    · next credit =>
      cases taken
      exact .reserves here credit
    · next empty =>
      cases taken
      exact .refuses here (Nat.eq_zero_of_not_pos empty)
  | fill t =>
    cases here : s.stage t <;> simp only [step, here, reduceCtorEq] at taken
    cases taken
    exact .fills here
  | link t =>
    cases here : s.stage t <;> simp only [step, here, reduceCtorEq] at taken
    cases taken
    exact .links here
  | receive t =>
    cases here : s.stage t <;> simp only [step, here, reduceCtorEq] at taken
    cases taken
    exact .receives here
  | resume t =>
    cases here : s.stage t with
    | woken served =>
      cases served with
      | true =>
        simp only [step, here] at taken
        cases taken
        exact .resumes here
      | false =>
        simp only [step, here] at taken
        cases taken
        exact .fails here
    | _ => simp only [step, here, reduceCtorEq] at taken
  | take t =>
    cases here : s.stage t <;> simp only [step, here, reduceCtorEq] at taken
    cases taken
    exact .takes here
  | release t =>
    cases here : s.stage t <;> simp only [step, here, reduceCtorEq] at taken
    cases taken
    exact .releases here

theorem Steps.taken {s s' : CreditQueue τ α} {call : QueueCall τ α} {reports : List (QueueReport τ α)}
    (steps : Steps priority s call s' reports) : s.step priority call = some (s', reports) := by
  cases steps with
  | reserves outside credit => simp only [step, outside, credit, if_true]
  | refuses outside empty => simp only [step, outside, empty, Nat.lt_irrefl, if_false]
  | fills here | links here | receives here | resumes here | fails here | takes here | releases here =>
    simp only [step, here]
  | resets => rfl

/-! ## Credits and waiting contexts -/

/-- The credits that a context holds. -/
def held : Stage α → ℕ
  | .sending _ | .ready _ | .receiving _ | .received => 1
  | .outside | .waiting | .woken _ => 0

/-- The messages that a context was resumed for. -/
def served : Stage α → ℕ
  | .woken true => 1
  | _ => 0

variable [Fintype τ]

structure Sound (capacity : ℕ) (s : CreditQueue τ α) : Prop where
  credits : s.entries.length + s.credit + total held s.stage = capacity
  waits : ∀ t, t ∈ s.waiting ↔ s.stage t = .waiting
  distinct : s.waiting.Nodup
  /-- Nobody waits for a message that nobody was resumed for. -/
  enough : s.waiting ≠ [] → s.entries.length ≤ total served s.stage

namespace Sound

variable {capacity : ℕ} {s s' : CreditQueue τ α} {t : τ}

omit [DecidableEq τ] in
theorem created (capacity : ℕ) : Sound capacity (created capacity : CreditQueue τ α) where
  credits := by simp [CreditQueue.created, total, held]
  waits := by simp [CreditQueue.created]
  distinct := .nil
  enough := by simp [CreditQueue.created]

/-- A context that neither waits nor starts to wait changes its stage. -/
theorem move (sound : s.Sound capacity) {next : Stage α} {credit : ℕ} {entries : List α}
    (before : s.stage t ≠ .waiting) (after : next ≠ .waiting)
    (balance : entries.length + credit + held next = s.entries.length + s.credit + held (s.stage t))
    (enough : s.waiting ≠ [] → entries.length + served (s.stage t) ≤ s.entries.length + served next) :
    Sound capacity { s with entries, credit, stage := Function.update s.stage t next } where
  credits := by
    have moved := total_update held s.stage t next
    have credits := sound.credits
    dsimp only
    omega
  waits t' := by
    rw [sound.waits]
    dsimp only
    by_cases same : t' = t
    · subst same
      rw [Function.update_self]
      exact iff_of_false before after
    · rw [Function.update_of_ne same]
  distinct := sound.distinct
  enough waiting := by
    have moved := total_update served s.stage t next
    have before := sound.enough waiting
    have more := enough waiting
    dsimp only
    omega

theorem acquire (sound : s.Sound capacity) (priority : τ → ℕ) (awake : s.stage t ≠ .waiting)
    (free : held (s.stage t) = 0) (single : served (s.stage t) ≤ 1) : (s.acquire t priority).Sound capacity := by
  unfold CreditQueue.acquire
  split
  · next empty =>
    have member : ∀ t', t' ∈ s.waiting.orderedInsert (fun t t' => priority t < priority t') t ↔
        t' = t ∨ t' ∈ s.waiting := fun t' => List.mem_orderedInsert ..
    constructor
    · have moved := total_update held s.stage t .waiting
      have credits := sound.credits
      rw [free, show held (.waiting : Stage α) = 0 from rfl] at moved
      rw [empty] at credits ⊢
      dsimp only
      omega
    · intro t'
      rw [member, sound.waits]
      by_cases same : t' = t
      · subst same
        simp
      · simp [same]
    · have absent : t ∉ s.waiting := fun waits => awake ((sound.waits t).mp waits)
      exact (List.perm_orderedInsert _ t s.waiting).nodup_iff.mpr (List.nodup_cons.mpr ⟨absent, sound.distinct⟩)
    · simp [empty]
  · next message rest queued =>
    refine sound.move awake (by simp) ?_ fun _ => ?_
    · rw [free, queued, List.length_cons]
      simp only [held]
      omega
    · rw [queued, List.length_cons, show served (.receiving message) = 0 from rfl]
      omega

theorem append (sound : s.Sound capacity) {message : α} (ready : s.stage t = .ready message) :
    (s.append t message).Sound capacity := by
  have awake : s.stage t ≠ .waiting := by simp [ready]
  unfold CreditQueue.append wake
  dsimp only
  split
  · next empty =>
    refine sound.move awake (by simp) ?_ fun waiting => absurd empty waiting
    rw [ready, List.length_append, List.length_singleton]
    simp only [held]
    omega
  · next first rest waiters =>
    -- the context that waits longest is resumed for the message
    have waits : s.stage first = .waiting := (sound.waits first).mp (by simp [waiters])
    have other : first ≠ t := by
      rintro rfl
      exact awake waits
    have distinct := sound.distinct
    rw [waiters, List.nodup_cons] at distinct
    have left (weight : Stage α → ℕ) := total_update weight s.stage t .outside
    have resumed (weight : Stage α → ℕ) :=
      total_update weight (Function.update s.stage t .outside) first (.woken true)
    simp only [Function.update_of_ne other] at resumed
    constructor
    · have credits := sound.credits
      have left := left held
      have resumed := resumed held
      rw [waits] at resumed
      rw [ready] at left
      simp only [held, List.length_append, List.length_singleton] at *
      omega
    · intro t'
      dsimp only
      by_cases same : t' = first
      · subst same
        simp [distinct.1]
      · rw [Function.update_of_ne same]
        have before := sound.waits t'
        rw [waiters, List.mem_cons, or_iff_right same] at before
        by_cases linked : t' = t
        · subst linked
          rw [Function.update_self, before]
          exact iff_of_false awake (by simp)
        · rw [Function.update_of_ne linked, before]
    · exact distinct.2
    · intro _
      have enough := sound.enough (by simp [waiters])
      have left := left served
      have resumed := resumed served
      rw [waits] at resumed
      rw [ready] at left
      simp only [served, List.length_append, List.length_singleton] at *
      omega

theorem clear (sound : s.Sound capacity) : s.clear.Sound capacity := by
  have same : total held s.clear.stage = total held s.stage := by
    refine Finset.sum_congr rfl fun t _ => ?_
    unfold CreditQueue.clear
    dsimp only
    split
    · next waits =>
      rw [(sound.waits t).mp waits]
      rfl
    · rfl
  constructor
  · have credits := sound.credits
    rw [same]
    simp only [CreditQueue.clear, List.length_nil]
    omega
  · intro t
    simp only [CreditQueue.clear, List.not_mem_nil, false_iff]
    split
    · simp
    · next awake => exact fun waits => awake ((sound.waits t).mpr waits)
  · exact .nil
  · exact fun waits => absurd rfl waits

theorem step {call : QueueCall τ α} {reports : List (QueueReport τ α)} {priority : τ → ℕ} (sound : s.Sound capacity)
    (taken : s.step priority call = some (s', reports)) : s'.Sound capacity := by
  cases step_steps taken with
  | reserves outside credit =>
    refine sound.move (by simp [outside]) (by simp) ?_ (by simp [outside, served])
    rw [outside]
    simp only [held]
    omega
  | refuses => exact sound
  | fills sending => exact sound.move (by simp [sending]) (by simp) (by simp [sending, held]) (by simp [sending, served])
  | links ready => exact sound.append ready
  | receives outside =>
    exact sound.acquire priority (by simp [outside]) (by simp [outside, held]) (by simp [outside, served])
  | resumes woken =>
    exact sound.acquire priority (by simp [woken]) (by simp [woken, held]) (by simp [woken, served])
  | fails woken => exact sound.move (by simp [woken]) (by simp) (by simp [woken, held]) (by simp [woken, served])
  | takes receiving =>
    exact sound.move (by simp [receiving]) (by simp) (by simp [receiving, held]) (by simp [receiving, served])
  | releases received =>
    refine sound.move (by simp [received]) (by simp) ?_ (by simp [received, served])
    rw [received]
    simp only [held]
    omega
  | resets => exact sound.clear

theorem run {entries : List (Entry (CreditQueue τ α) (QueueCall τ α) (List (QueueReport τ α)))} {priority : τ → ℕ}
    (sound : s.Sound capacity) (run : (machine priority).Run s entries s') : s'.Sound capacity :=
  (run.invariant (Sound capacity) sound fun _ _ taken before => before.step taken).1

omit [DecidableEq τ] in
/-- Whoever waits while there are messages waits no longer than until a resumed context runs. -/
theorem no_lost_message (sound : s.Sound capacity) (waits : s.waiting ≠ []) (nonempty : s.entries ≠ []) :
    ∃ t, s.stage t = .woken true := by
  have enough := sound.enough waits
  have messages := List.length_pos_iff.mpr nonempty
  have resumed : 0 < total served s.stage := by omega
  obtain ⟨t, woken⟩ := exists_of_total_pos resumed
  unfold served at woken
  split at woken
  · next here => exact ⟨t, here⟩
  · cases woken

end Sound

/-! ## Who is resumed first -/

section Priority

variable {s s' : CreditQueue τ α} {priority : τ → ℕ}

/-- The waiting contexts stand in the order of their priorities. -/
def Ranked (priority : τ → ℕ) (s : CreditQueue τ α) : Prop :=
  s.waiting.Pairwise fun t t' => priority t ≤ priority t'

omit [DecidableEq τ] [Fintype τ] in
theorem ranked_insert (t : τ) {waiting : List τ} (ranked : waiting.Pairwise fun t t' => priority t ≤ priority t') :
    (waiting.orderedInsert (fun t t' => priority t < priority t') t).Pairwise fun t t' => priority t ≤ priority t' := by
  induction waiting with
  | nil => exact List.pairwise_singleton ..
  | cons first rest ih =>
    obtain ⟨least, later⟩ := List.pairwise_cons.mp ranked
    rw [List.orderedInsert]
    split
    · next before =>
      refine List.pairwise_cons.mpr ⟨fun other member => ?_, ranked⟩
      rcases List.mem_cons.mp member with rfl | member
      · exact before.le
      · exact before.le.trans (least other member)
    · next behind =>
      refine List.pairwise_cons.mpr ⟨fun other member => ?_, ih later⟩
      rcases (List.mem_orderedInsert ..).mp member with rfl | member
      · exact Nat.le_of_not_lt behind
      · exact least other member

omit [Fintype τ] in
theorem ranked_acquire (ranked : Ranked priority s) (t : τ) : Ranked priority (s.acquire t priority) := by
  unfold acquire
  split
  · exact ranked_insert t ranked
  · exact ranked

omit [Fintype τ] in
theorem step_ranked {call : QueueCall τ α} {reports : List (QueueReport τ α)} (ranked : Ranked priority s)
    (taken : s.step priority call = some (s', reports)) : Ranked priority s' := by
  cases step_steps taken with
  | links =>
    unfold append wake
    dsimp only
    split
    · exact ranked
    · next first rest some => exact (List.pairwise_cons.mp (some ▸ ranked : List.Pairwise _ (first :: rest))).2
  | receives => exact ranked_acquire ranked _
  | resumes => exact ranked_acquire ranked _
  | resets => exact .nil
  | _ => exact ranked

end Priority

/-! ## Calls that nothing comes between -/

section Whole

variable {s : CreditQueue τ α} {t : τ} (priority : τ → ℕ)

omit [Fintype τ] in
theorem exec_send (outside : s.stage t = .outside) (credit : 0 < s.credit) (message : α) :
    ∃ entries s', (machine priority).exec s [.send t message, .fill t, .link t] = some (entries, s') ∧
      entries.map Entry.output = [[], [], [.sent t]] ∧ s'.entries = s.entries ++ [message] ∧
      s'.credit = s.credit - 1 := by
  let sending : CreditQueue τ α :=
    { s with credit := s.credit - 1, stage := Function.update s.stage t (.sending message) }
  let ready : CreditQueue τ α := { sending with stage := Function.update sending.stage t (.ready message) }
  have first : s.step priority (.send t message) = some (sending, []) := (Steps.reserves outside credit).taken
  have second : sending.step priority (.fill t) = some (ready, []) := (Steps.fills (Function.update_self ..)).taken
  have third : ready.step priority (.link t) = some (ready.append t message, [.sent t]) :=
    (Steps.links (Function.update_self ..)).taken
  have kept : (ready.append t message).credit = ready.credit := by
    unfold append wake
    split <;> rfl
  exact ⟨_, _, Machine.exec_cons first (Machine.exec_cons second (Machine.exec_cons third rfl)), rfl,
    append_entries ready t message, kept⟩

omit [Fintype τ] in
theorem exec_receive (outside : s.stage t = .outside) {message : α} {rest : List α}
    (queued : s.entries = message :: rest) :
    ∃ entries s', (machine priority).exec s [.receive t, .take t, .release t] = some (entries, s') ∧
      entries.map Entry.output = [[], [.delivered t message], []] ∧ s'.entries = rest ∧ s'.credit = s.credit + 1 := by
  let receiving : CreditQueue τ α :=
    { s with entries := rest, stage := Function.update s.stage t (.receiving message) }
  let received : CreditQueue τ α := { receiving with stage := Function.update receiving.stage t .received }
  have first : s.step priority (.receive t) = some (receiving, []) := by
    rw [(Steps.receives outside).taken, acquire_cons s t queued]
  have second : receiving.step priority (.take t) = some (received, [.delivered t message]) :=
    (Steps.takes (Function.update_self ..)).taken
  have third : received.step priority (.release t) = some
      ({ received with credit := s.credit + 1, stage := Function.update received.stage t .outside }, []) :=
    (Steps.releases (Function.update_self ..)).taken
  exact ⟨_, _, Machine.exec_cons first (Machine.exec_cons second (Machine.exec_cons third rfl)), rfl, rfl, rfl⟩

end Whole

end CreditQueue
end Library
