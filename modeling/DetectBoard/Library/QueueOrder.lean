import DetectBoard.Library.CreditQueue

/-! What becomes of the messages of a queue with credits, as its contexts see it. -/

set_option autoImplicit false

namespace Library

/-- What the contexts see of a step: the call and what it reports. -/
abbrev QueueEvent (τ α : Type*) := QueueCall τ α × List (QueueReport τ α)

/-- The message that each context has asked to send last, and all messages sent so far. -/
structure Sendings (τ α : Type*) where
  asked : τ → Option α
  sent : List α

section Events

variable {τ α : Type*}

def QueueReport.delivery : QueueReport τ α → Option (τ × α)
  | .delivered t message => some (t, message)
  | _ => none

def deliveries (events : List (QueueEvent τ α)) : List (τ × α) :=
  (events.flatMap Prod.snd).filterMap QueueReport.delivery

variable [DecidableEq τ]

def toContext (t : τ) (messages : List (τ × α)) : List α :=
  (messages.filter fun message => message.1 = t).map Prod.snd

def deliveredTo (t : τ) (events : List (QueueEvent τ α)) : List α := toContext t (deliveries events)

namespace Sendings

def observe (sendings : Sendings τ α) : QueueEvent τ α → Sendings τ α
  | (.send t message, _) => { sendings with asked := Function.update sendings.asked t (some message) }
  | (_, reports) => { sendings with
      sent := sendings.sent ++ reports.filterMap fun
        | .sent t => sendings.asked t
        | _ => none }

/-- What has been sent, in the order in which the senders were told so. -/
def of (events : List (QueueEvent τ α)) : Sendings τ α := events.foldl observe ⟨fun _ => none, []⟩

theorem of_snoc (events : List (QueueEvent τ α)) (event : QueueEvent τ α) :
    of (events ++ [event]) = (of events).observe event := by
  rw [of, List.foldl_append]
  rfl

end Sendings
end Events

namespace CreditQueue

variable {τ α : Type*}

abbrev CallEntry (τ α : Type*) := Entry (CreditQueue τ α) (QueueCall τ α) (List (QueueReport τ α))

def events (entries : List (CallEntry τ α)) : List (QueueEvent τ α) :=
  entries.map fun entry => (entry.input, entry.output)

/-- The message that a step makes visible. -/
def linkedBy (entry : CallEntry τ α) : Option α :=
  match entry.input with
  | .link t =>
    match entry.before.stage t with
    | .ready message => some message
    | _ => none
  | _ => none

/-- The context that a step lets go on with a message. -/
def acquiredBy (entry : CallEntry τ α) : Option (τ × α) :=
  match entry.input with
  | .receive t | .resume t =>
    match entry.after.stage t with
    | .receiving message => some (t, message)
    | _ => none
  | _ => none

def linked (entries : List (CallEntry τ α)) : List α := entries.filterMap linkedBy

def acquired (entries : List (CallEntry τ α)) : List (τ × α) := entries.filterMap acquiredBy

/-- The message that a context has got and not yet passed on. -/
def hand : Stage α → List α
  | .receiving message => [message]
  | _ => []

/-- The message that a context is about to make visible. -/
def offer : Stage α → Option α
  | .sending message | .ready message => some message
  | _ => none

variable {entry : CallEntry τ α} {entries : List (CallEntry τ α)} {t : τ}

theorem linked_snoc : linked (entries ++ [entry]) = linked entries ++ (linkedBy entry).toList := by
  cases given : linkedBy entry <;> simp [linked, given]

theorem acquired_snoc : acquired (entries ++ [entry]) = acquired entries ++ (acquiredBy entry).toList := by
  cases given : acquiredBy entry <;> simp [acquired, given]

theorem events_snoc : events (entries ++ [entry]) = events entries ++ [(entry.input, entry.output)] := List.map_append

theorem deliveries_snoc (before : List (QueueEvent τ α)) (event : QueueEvent τ α) :
    deliveries (before ++ [event]) = deliveries before ++ event.2.filterMap QueueReport.delivery := by
  simp [deliveries]

variable [DecidableEq τ]

theorem toContext_append (messages more : List (τ × α)) :
    toContext t (messages ++ more) = toContext t messages ++ toContext t more := by
  simp [toContext]

theorem toContext_sublist (messages : List (τ × α)) : (toContext t messages).Sublist (messages.map Prod.snd) :=
  List.filter_sublist.map Prod.snd

/-! ## The order in the queue -/

variable {priority : τ → ℕ}

/-- A step takes messages from the front and puts them at the end, or throws all of them away. -/
theorem step_order (taken : (machine priority).Takes entry) :
    entry.input = .reset ∧ entry.after.entries = [] ∧ linkedBy entry = none ∧ acquiredBy entry = none ∨
      (acquiredBy entry).toList.map Prod.snd ++ entry.after.entries =
        entry.before.entries ++ (linkedBy entry).toList := by
  obtain ⟨s, call, s', reports⟩ := entry
  have step : s.step priority call = some (s', reports) := taken
  have acquire (t : τ) : (match (s.acquire t priority).stage t with
      | .receiving message => some (t, message)
      | _ => none).toList.map Prod.snd ++ (s.acquire t priority).entries = s.entries := by
    cases found : s.entries with
    | nil => simp [acquire_nil s t found, found]
    | cons message rest => simp [acquire_cons s t found]
  cases step_steps step with
  | links ready =>
    refine .inr ?_
    simp only [acquiredBy, linkedBy, ready, append_entries]
    rfl
  | @receives t outside => exact .inr (by simpa [acquiredBy, linkedBy] using acquire t)
  | @resumes t woken => exact .inr (by simpa [acquiredBy, linkedBy] using acquire t)
  | @fails t woken => exact .inr (by simp [acquiredBy, linkedBy, Function.update_self])
  | resets => exact .inl ⟨rfl, rfl, rfl, rfl⟩
  | reserves | refuses | fills | takes | releases => exact .inr (by simp [acquiredBy, linkedBy])

theorem hand_update (stage : τ → Stage α) (c t : τ) {next : Stage α} (same : hand next = hand (stage c)) :
    hand (Function.update stage c next t) = hand (stage t) := by
  by_cases here : t = c
  · rw [here, Function.update_self, same]
  · rw [Function.update_of_ne here]

theorem hand_acquire (s : CreditQueue τ α) (c t : τ) (priority : τ → ℕ) (empty : hand (s.stage c) = []) :
    hand ((s.acquire c priority).stage t) = hand (s.stage t) ++
      toContext t (match (s.acquire c priority).stage c with
        | .receiving message => some (c, message)
        | _ => none).toList := by
  cases found : s.entries with
  | nil =>
    rw [acquire_nil s c found]
    dsimp only
    rw [hand_update s.stage c t (show hand .waiting = _ from empty.symm)]
    simp [toContext]
  | cons message rest =>
    rw [acquire_cons s c found]
    by_cases here : c = t
    · subst here
      rw [empty]
      simp [toContext, hand]
    · simp [toContext, here, Function.update_of_ne (Ne.symm here)]

/-! ## What the senders have sent -/

theorem offer_update (stage : τ → Stage α) (c t : τ) {next : Stage α} (silent : offer next = none) {message : α}
    (offers : offer (Function.update stage c next t) = some message) : offer (stage t) = some message := by
  by_cases here : t = c
  · rw [here, Function.update_self, silent] at offers
    cases offers
  · rwa [Function.update_of_ne here] at offers

theorem offer_acquire (s : CreditQueue τ α) (c t : τ) {message : α}
    (offers : offer ((s.acquire c priority).stage t) = some message) : offer (s.stage t) = some message := by
  cases found : s.entries with
  | nil =>
    rw [acquire_nil s c found] at offers
    exact offer_update s.stage c t rfl offers
  | cons first rest =>
    rw [acquire_cons s c found] at offers
    exact offer_update s.stage c t rfl offers

/-- What a context offers, it has asked to send last. -/
theorem step_offer (taken : (machine priority).Takes entry) {message : α}
    (offers : offer (entry.after.stage t) = some message) :
    entry.input = .send t message ∨
      offer (entry.before.stage t) = some message ∧ ∀ other, entry.input ≠ .send t other := by
  obtain ⟨s, call, s', reports⟩ := entry
  have step : s.step priority call = some (s', reports) := taken
  cases step_steps step with
  | @reserves c asked outside credit =>
    by_cases here : t = c
    · subst here
      simp only [Function.update_self, offer, Option.some.injEq] at offers
      exact .inl (by rw [offers])
    · simp only [Function.update_of_ne here] at offers
      exact .inr ⟨offers, fun _ same => here (QueueCall.send.inj same).1.symm⟩
  | @refuses c asked outside empty =>
    refine .inr ⟨offers, fun _ same => ?_⟩
    obtain ⟨rfl, _⟩ := QueueCall.send.inj same
    dsimp only at offers
    rw [outside] at offers
    cases offers
  | @fills c asked sending =>
    refine .inr ⟨?_, fun _ same => by cases same⟩
    by_cases here : t = c
    · subst here
      simp only [Function.update_self] at offers
      rw [sending]
      exact offers
    · simpa only [Function.update_of_ne here] using offers
  | @links c asked ready =>
    refine .inr ⟨?_, fun _ same => by cases same⟩
    simp only [append, wake] at offers
    split at offers
    · exact offer_update s.stage c t rfl offers
    · exact offer_update s.stage c t rfl (offer_update _ _ t rfl offers)
  | receives => exact .inr ⟨offer_acquire s _ t offers, fun _ same => by cases same⟩
  | resumes => exact .inr ⟨offer_acquire s _ t offers, fun _ same => by cases same⟩
  | fails | takes | releases => exact .inr ⟨offer_update s.stage _ t rfl offers, fun _ same => by cases same⟩
  | resets =>
    refine .inr ⟨?_, fun _ same => by cases same⟩
    simp only [clear] at offers
    split at offers
    · cases offers
    · exact offers

/-- The senders know what the queue has taken, in the order in which it did. -/
theorem run_sent {s s' : CreditQueue τ α} (outside : ∀ t, s.stage t = .outside)
    (run : (machine priority).Run s entries s') : (Sendings.of (events entries)).sent = linked entries := by
  refine (run.history (fun entries (s : CreditQueue τ α) =>
    (∀ t message, offer (s.stage t) = some message → (Sendings.of (events entries)).asked t = some message) ∧
      (Sendings.of (events entries)).sent = linked entries) ?_ ?_).2
  · refine ⟨fun t message offers => ?_, rfl⟩
    rw [outside t] at offers
    cases offers
  · rintro pre ⟨s, call, s', reports⟩ _ taken ⟨asked, same⟩
    rw [events_snoc, Sendings.of_snoc, linked_snoc]
    have step : s.step priority call = some (s', reports) := taken
    have offered (t : τ) (message : α) (offers : offer (s'.stage t) = some message) :
        call = .send t message ∨ offer (s.stage t) = some message ∧ ∀ other, call ≠ .send t other :=
      step_offer taken offers
    constructor
    · intro t message offers
      rcases offered t message offers with rfl | ⟨before, last⟩
      · simp only [Sendings.observe, Function.update_self]
      · cases call with
        | send c told =>
          have other : t ≠ c := by
            rintro rfl
            exact last told rfl
          simp only [Sendings.observe, Function.update_of_ne other]
          exact asked t message before
        | _ => exact asked t message before
    · cases step_steps step with
      | @links c message ready =>
        have told := asked c message (by dsimp only; rw [ready]; rfl)
        simp [Sendings.observe, linkedBy, ready, same, told]
      | _ => simp [Sendings.observe, linkedBy, same]

/-! ## What becomes of each message -/

section Total

variable [Fintype τ]

theorem total_toContext [DecidableEq α] (messages : List (τ × α)) (message : α) :
    total (List.count message) (fun t => toContext t messages) = (messages.map Prod.snd).count message := by
  induction messages with
  | nil => simp [total, toContext]
  | cons first rest ih =>
    obtain ⟨c, told⟩ := first
    have split (t : τ) : (toContext t ((c, told) :: rest)).count message =
        (if t = c then [told].count message else 0) + (toContext t rest).count message := by
      by_cases here : c = t
      · subst here
        simp [toContext, List.count_cons, Nat.add_comm]
      · simp [toContext, here, Ne.symm here]
    rw [total, Finset.sum_congr rfl fun t _ => split t, Finset.sum_add_distrib, Finset.sum_ite_eq' _ c,
      if_pos (Finset.mem_univ c)]
    have whole : ((c, told) :: rest).map Prod.snd = [told] ++ rest.map Prod.snd := rfl
    rw [whole, List.count_append, ← ih, total]

theorem hand_append {capacity : ℕ} {s : CreditQueue τ α} (sound : s.Sound capacity) {c : τ} {message : α}
    (ready : s.stage c = .ready message) (t : τ) : hand ((s.append c message).stage t) = hand (s.stage t) := by
  have left := hand_update s.stage c t (show hand .outside = _ by rw [ready]; rfl)
  unfold append wake
  dsimp only
  split
  · exact left
  · next first rest queued =>
    have waits : s.stage first = .waiting := (sound.waits first).mp (by simp [queued])
    have other : first ≠ c := by
      rintro rfl
      simp [ready] at waits
    rw [hand_update _ _ _ (by rw [Function.update_of_ne other, waits]; rfl), left]

theorem hand_clear {capacity : ℕ} {s : CreditQueue τ α} (sound : s.Sound capacity) (t : τ) :
    hand (s.clear.stage t) = hand (s.stage t) := by
  unfold clear
  dsimp only
  split
  · next waits =>
    rw [(sound.waits t).mp waits]
    rfl
  · rfl

/-- What a context has got and not yet passed on is what a step delivers to it next. -/
theorem step_hand {capacity : ℕ} (sound : entry.before.Sound capacity) (taken : (machine priority).Takes entry)
    (t : τ) :
    toContext t (entry.output.filterMap QueueReport.delivery) ++ hand (entry.after.stage t) =
      hand (entry.before.stage t) ++ toContext t (acquiredBy entry).toList := by
  obtain ⟨s, call, s', reports⟩ := entry
  have step : s.step priority call = some (s', reports) := taken
  have kept : ∀ (c : τ) {next : Stage α}, hand next = hand (s.stage c) →
      hand (Function.update s.stage c next t) = hand (s.stage t) := fun c _ same => hand_update s.stage c t same
  cases step_steps step with
  | reserves outside => simp [acquiredBy, toContext, kept _ (show hand (.sending _) = _ by rw [outside]; rfl)]
  | refuses => simp [acquiredBy, toContext, QueueReport.delivery]
  | fills sending => simp [acquiredBy, toContext, kept _ (show hand (.ready _) = _ by rw [sending]; rfl)]
  | links ready => simp [acquiredBy, toContext, QueueReport.delivery, hand_append sound ready]
  | receives outside => simpa [acquiredBy, toContext] using hand_acquire s _ t priority (by rw [outside]; rfl)
  | resumes woken => simpa [acquiredBy, toContext] using hand_acquire s _ t priority (by rw [woken]; rfl)
  | fails woken =>
    simp [acquiredBy, toContext, QueueReport.delivery, Function.update_self,
      kept _ (show hand .outside = _ by rw [woken]; rfl)]
  | @takes c message receiving =>
    by_cases here : c = t
    · subst here
      simp [acquiredBy, toContext, QueueReport.delivery, receiving, hand]
    · simp [acquiredBy, toContext, QueueReport.delivery, here, Function.update_of_ne (Ne.symm here)]
  | releases received => simp [acquiredBy, toContext, kept _ (show hand .outside = _ by rw [received]; rfl)]
  | resets => simp [acquiredBy, toContext, hand_clear sound]

variable {s : CreditQueue τ α} {capacity : ℕ}

omit [Fintype τ] in
/-- The messages leave the queue in the order in which they came, and each of them at most once. -/
theorem run_order (run : (machine priority).Run (created capacity) entries s) :
    ((acquired entries).map Prod.snd ++ s.entries).Sublist (linked entries) ∧
      ((∀ entry ∈ entries, entry.input ≠ .reset) →
        (acquired entries).map Prod.snd ++ s.entries = linked entries) := by
  refine run.history (fun entries (s : CreditQueue τ α) =>
    ((acquired entries).map Prod.snd ++ s.entries).Sublist (linked entries) ∧
      ((∀ entry ∈ entries, entry.input ≠ .reset) →
        (acquired entries).map Prod.snd ++ s.entries = linked entries)) ⟨.slnil, fun _ => rfl⟩ ?_
  rintro pre entry _ taken ⟨ordered, all⟩
  rw [acquired_snoc, linked_snoc, List.map_append, List.append_assoc]
  rcases step_order taken with ⟨reset, empty, silent, idle⟩ | kept
  · rw [empty, silent, idle]
    refine ⟨?_, fun kept => absurd reset (kept entry (by simp))⟩
    simpa using (List.sublist_append_left ..).trans ordered
  · rw [kept, ← List.append_assoc]
    exact ⟨ordered.append_right _, fun kept => by rw [all fun other member => kept other (by simp [member])]⟩

theorem run_hand (run : (machine priority).Run (created capacity) entries s) (t : τ) :
    deliveredTo t (events entries) ++ hand (s.stage t) = toContext t (acquired entries) := by
  refine run.history (fun entries (s : CreditQueue τ α) =>
    deliveredTo t (events entries) ++ hand (s.stage t) = toContext t (acquired entries)) rfl ?_
  intro pre entry before taken held
  have step := step_hand ((Sound.created capacity).run before) taken t
  rw [deliveredTo] at held ⊢
  rw [events_snoc, deliveries_snoc, acquired_snoc, toContext_append, toContext_append, List.append_assoc, step,
    ← List.append_assoc, held]

/-- Every context receives, in the order in which they were sent, some of the messages. -/
theorem delivered_sublist (run : (machine priority).Run (created capacity) entries s) (t : τ) :
    (deliveredTo t (events entries) ++ hand (s.stage t)).Sublist (Sendings.of (events entries)).sent := by
  rw [run_hand run t, run_sent (fun _ => rfl) run]
  exact (toContext_sublist _).trans ((List.sublist_append_left ..).trans (run_order run).1)

/-- Only this context receives. -/
structure Receives (t : τ) (s : CreditQueue τ α) : Prop where
  waits : ∀ c ∈ s.waiting, c = t
  woken : ∀ c served, s.stage c = .woken served → c = t

omit [Fintype τ] in
theorem Receives.move (receives : Receives t s) {c : τ} {next : Stage α} {credit : ℕ} {messages : List α}
    (other : ∀ served, next = .woken served → c = t) :
    Receives t { s with entries := messages, credit, stage := Function.update s.stage c next } where
  waits := receives.waits
  woken c' served := by
    dsimp only
    by_cases here : c' = c
    · subst here
      rw [Function.update_self]
      exact other served
    · rw [Function.update_of_ne here]
      exact receives.woken c' served

omit [Fintype τ] in
theorem Receives.acquire (receives : Receives t s) : Receives t (s.acquire t priority) := by
  cases found : s.entries with
  | nil =>
    rw [acquire_nil s t found]
    have moved : Receives t { s with stage := Function.update s.stage t .waiting } := receives.move nofun
    refine ⟨fun c waits => ?_, moved.woken⟩
    rcases (List.mem_orderedInsert ..).mp waits with same | before
    · exact same
    · exact receives.waits c before
  | cons message rest =>
    rw [acquire_cons s t found]
    exact receives.move nofun

omit [Fintype τ] in
theorem step_receives (receives : Receives t entry.before) (taken : (machine priority).Takes entry)
    (only : ∀ c, entry.input = .receive c → c = t) :
    Receives t entry.after ∧ ∀ message ∈ acquiredBy entry, message.1 = t := by
  obtain ⟨s, call, s', reports⟩ := entry
  have step : s.step priority call = some (s', reports) := taken
  have own (message : τ × α) (got : message ∈ (match (s.acquire t priority).stage t with
      | .receiving message => some (t, message)
      | _ => none)) : message.1 = t := by
    split at got <;> cases got
    rfl
  cases step_steps step with
  | refuses => exact ⟨receives, by simp [acquiredBy]⟩
  | @links c message ready =>
    refine ⟨?_, by simp [acquiredBy]⟩
    have left : Receives t { s with stage := Function.update s.stage c .outside } :=
      receives.move fun _ same => by cases same
    unfold append wake
    dsimp only
    split
    · exact receives.move fun _ same => by cases same
    · next first rest queued =>
      have same : first = t := receives.waits first (by simp [queued])
      have resumed : Receives t { s with
          stage := Function.update (Function.update s.stage c .outside) first (.woken true) } :=
        left.move fun _ _ => same
      exact ⟨fun c waits => receives.waits c (by simp [queued, waits]), resumed.woken⟩
  | @receives c outside =>
    obtain rfl := only c rfl
    exact ⟨receives.acquire, own⟩
  | @resumes c woken =>
    obtain rfl := receives.woken c true woken
    exact ⟨receives.acquire, own⟩
  | @fails c woken => exact ⟨receives.move (fun _ same => by cases same), by simp [acquiredBy, Function.update_self]⟩
  | resets =>
    refine ⟨⟨fun _ member => absurd member List.not_mem_nil, fun c served woken => ?_⟩, by simp [acquiredBy]⟩
    simp only [clear] at woken
    split at woken
    · next waits => exact receives.waits c waits
    · exact receives.woken c served woken
  | reserves | fills | takes | releases => exact ⟨receives.move (fun _ same => by cases same), by simp [acquiredBy]⟩

/-- When only one context receives and nothing is thrown away, it receives all that was sent. -/
theorem delivered_all (run : (machine priority).Run (created capacity) entries s)
    (only : ∀ entry ∈ entries, ∀ c, entry.input = .receive c → c = t) (kept : ∀ entry ∈ entries, entry.input ≠ .reset) :
    deliveredTo t (events entries) ++ hand (s.stage t) ++ s.entries = (Sendings.of (events entries)).sent := by
  obtain ⟨_, each⟩ := run.invariant (Receives t) ⟨nofun, nofun⟩ fun entry member taken receives =>
    (step_receives receives taken (only entry member)).1
  have mine : ∀ message ∈ acquired entries, message.1 = t := by
    intro message got
    obtain ⟨entry, member, by_entry⟩ := List.mem_filterMap.mp got
    exact (step_receives (each entry member).1 (run.takes entry member) (only entry member)).2 message by_entry
  have all : toContext t (acquired entries) = (acquired entries).map Prod.snd := by
    rw [toContext, List.filter_eq_self.mpr fun message got => decide_eq_true (mine message got)]
  rw [run_hand run t, all, run_sent (fun _ => rfl) run, (run_order run).2 kept]

/-- No message is delivered twice, and without a reset none is lost. -/
theorem delivered_count [DecidableEq α] (run : (machine priority).Run (created capacity) entries s) (message : α) :
    ((deliveries (events entries)).map Prod.snd).count message +
        total (fun stage => (hand stage).count message) s.stage + s.entries.count message ≤ (Sendings.of (events entries)).sent.count message ∧
      ((∀ entry ∈ entries, entry.input ≠ .reset) →
        ((deliveries (events entries)).map Prod.snd).count message +
          total (fun stage => (hand stage).count message) s.stage + s.entries.count message =
            (Sendings.of (events entries)).sent.count message) := by
  have whole : ((deliveries (events entries)).map Prod.snd).count message +
      total (fun stage => (hand stage).count message) s.stage = ((acquired entries).map Prod.snd).count message := by
    rw [← total_toContext, ← total_toContext, total, total, total, ← Finset.sum_add_distrib]
    refine Finset.sum_congr rfl fun t _ => ?_
    rw [← run_hand run t, List.count_append]
    rfl
  obtain ⟨ordered, all⟩ := run_order run
  rw [whole, run_sent (fun _ => rfl) run, ← List.count_append]
  exact ⟨ordered.count_le message, fun kept => by rw [all kept]⟩

theorem delivered_subperm (run : (machine priority).Run (created capacity) entries s) :
    ((deliveries (events entries)).map Prod.snd ++ s.entries).Subperm (Sendings.of (events entries)).sent := by
  classical
  refine List.subperm_ext_iff.mpr fun message _ => ?_
  have counted := (delivered_count run message).1
  rw [List.count_append]
  omega

theorem delivered_perm (run : (machine priority).Run (created capacity) entries s)
    (outside : ∀ t, s.stage t = .outside) (kept : ∀ entry ∈ entries, entry.input ≠ .reset) :
    ((deliveries (events entries)).map Prod.snd ++ s.entries).Perm (Sendings.of (events entries)).sent := by
  classical
  refine List.perm_iff_count.mpr fun message => ?_
  have held : total (fun stage => (hand stage).count message) s.stage = 0 :=
    Finset.sum_eq_zero fun t _ => by rw [outside t]; rfl
  have counted := (delivered_count run message).2 kept
  rwa [held, Nat.add_zero, ← List.count_append] at counted

end Total

end CreditQueue
end Library
