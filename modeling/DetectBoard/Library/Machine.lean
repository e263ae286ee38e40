import Mathlib.Data.List.Induction

/-! Machines with a partial step, and their runs.

An input that is not enabled gives no step. A run is kept as the list of its
entries, so that a property of a whole run can speak about the state before,
the state after and the output of each of its steps.
-/

set_option autoImplicit false

namespace Library

structure Machine (σ ι ω : Type*) where
  step : σ → ι → Option (σ × ω)

structure Entry (σ ι ω : Type*) where
  before : σ
  input : ι
  after : σ
  output : ω

/-- Every element of the list has the property, given the elements before it. -/
def Along {α : Type*} (P : List α → α → Prop) (entries : List α) : Prop :=
  ∀ pre entry post, entries = pre ++ entry :: post → P pre entry

namespace Along

variable {α : Type*} {P : List α → α → Prop} {entries : List α}

theorem nil : Along P [] := by
  intro pre entry post cut
  simp at cut

theorem snoc_iff {entry : α} : Along P (entries ++ [entry]) ↔ Along P entries ∧ P entries entry := by
  constructor
  · intro along
    refine ⟨fun pre earlier post cut => along pre earlier (post ++ [entry]) ?_, along entries entry [] rfl⟩
    simp [cut]
  · rintro ⟨along, here⟩ pre other post cut
    rcases List.eq_nil_or_concat post with rfl | ⟨rest, last, rfl⟩
    · obtain ⟨rfl, same⟩ := List.append_inj' cut rfl
      rwa [← List.singleton_inj.mp same]
    · rw [List.concat_eq_append, ← List.cons_append, ← List.append_assoc] at cut
      exact along pre other rest (List.append_inj' cut rfl).1

theorem of_append {rest : List α} (along : Along P (entries ++ rest)) : Along P entries := by
  rintro pre entry post rfl
  exact along pre entry (post ++ rest) (by simp)

theorem forall_iff {Q : α → Prop} : Along (fun _ entry => Q entry) entries ↔ ∀ entry ∈ entries, Q entry := by
  constructor
  · intro along entry member
    obtain ⟨pre, post, cut⟩ := List.append_of_mem member
    exact along pre entry post cut
  · rintro each pre entry post rfl
    exact each entry (by simp)

theorem iff_take : Along P entries ↔ ∀ i, ∀ bound : i < entries.length, P (entries.take i) entries[i] := by
  constructor
  · intro along i bound
    apply along _ _ (entries.drop (i + 1))
    rw [← List.drop_eq_getElem_cons bound, List.take_append_drop]
  · rintro each pre entry post rfl
    simpa using each pre.length (by simp)

instance [∀ pre entry, Decidable (P pre entry)] : Decidable (Along P entries) :=
  decidable_of_iff _ iff_take.symm

end Along

namespace Machine

variable {σ ι ω : Type*} (m : Machine σ ι ω)

def Takes (entry : Entry σ ι ω) : Prop :=
  m.step entry.before entry.input = some (entry.after, entry.output)

inductive Run (start : σ) : List (Entry σ ι ω) → σ → Prop where
  | nil : Run start [] start
  | snoc {entries : List (Entry σ ι ω)} {entry : Entry σ ι ω} :
      Run start entries entry.before → m.Takes entry → Run start (entries ++ [entry]) entry.after

/-- Execute a list of inputs, giving nothing when one of them is not enabled. -/
def exec (state : σ) : List ι → Option (List (Entry σ ι ω) × σ)
  | [] => some ([], state)
  | input :: rest =>
    match m.step state input with
    | none => none
    | some (next, output) =>
      (exec next rest).map fun result => (⟨state, input, next, output⟩ :: result.1, result.2)

variable {m}
variable {start state middle : σ} {entries pre post : List (Entry σ ι ω)}

namespace Run

theorem takes (run : m.Run start entries state) : ∀ entry ∈ entries, m.Takes entry := by
  induction run with
  | nil => simp
  | snoc _ taken ih =>
    intro entry member
    rcases List.mem_append.mp member with earlier | last
    · exact ih entry earlier
    · rw [List.mem_singleton.mp last]
      exact taken

theorem append (run : m.Run start pre middle) (rest : m.Run middle post state) :
    m.Run start (pre ++ post) state := by
  induction rest with
  | nil => rwa [List.append_nil]
  | snoc _ taken ih =>
    rw [← List.append_assoc]
    exact ih.snoc taken

theorem split (run : m.Run start (pre ++ post) state) :
    ∃ middle, m.Run start pre middle ∧ m.Run middle post state := by
  induction post using List.reverseRecOn generalizing state with
  | nil => exact ⟨state, by rwa [List.append_nil] at run, .nil⟩
  | append_singleton rest last ih =>
    generalize whole : pre ++ (rest ++ [last]) = entries at run
    cases run with
    | nil => simp at whole
    | @snoc earlier entry run taken =>
      rw [← List.append_assoc] at whole
      obtain ⟨rfl, same⟩ := List.append_inj' whole rfl
      obtain rfl := List.singleton_inj.mp same
      obtain ⟨middle, first, second⟩ := ih run
      exact ⟨middle, first, second.snoc taken⟩

theorem nil_eq (run : m.Run start [] state) : state = start := by
  generalize none : [] = entries at run
  cases run with
  | nil => rfl
  | snoc run taken => simp at none

theorem of_takes {entry : Entry σ ι ω} (taken : m.Takes entry) : m.Run entry.before [entry] entry.after :=
  Run.nil.snoc taken

theorem single {entry : Entry σ ι ω} (run : m.Run start [entry] state) :
    entry.before = start ∧ entry.after = state ∧ m.Takes entry := by
  generalize whole : [entry] = entries at run
  cases run with
  | nil => simp at whole
  | @snoc earlier last run taken =>
    rw [← List.nil_append [entry]] at whole
    obtain ⟨rfl, same⟩ := List.append_inj' whole rfl
    obtain rfl := List.singleton_inj.mp same
    exact ⟨run.nil_eq, rfl, taken⟩

theorem reach {entry : Entry σ ι ω} (run : m.Run start (pre ++ entry :: post) state) :
    m.Run start pre entry.before ∧ m.Takes entry ∧ m.Run entry.after post state := by
  obtain ⟨middle, first, second⟩ := run.split
  rw [← List.singleton_append] at second
  obtain ⟨next, step, rest⟩ := second.split
  obtain ⟨rfl, rfl, taken⟩ := step.single
  exact ⟨first, taken, rest⟩

/-- The invariant rule. What is kept may depend on which steps the run takes. -/
theorem invariant (I : σ → Prop) (run : m.Run start entries state) (initial : I start)
    (keep : ∀ entry ∈ entries, m.Takes entry → I entry.before → I entry.after) :
    I state ∧ ∀ entry ∈ entries, I entry.before ∧ I entry.after := by
  induction run with
  | nil => exact ⟨initial, by simp⟩
  | @snoc earlier last run taken ih =>
    obtain ⟨before, held⟩ := ih fun entry member => keep entry (by simp [member])
    have after := keep last (by simp) taken before
    refine ⟨after, fun entry member => ?_⟩
    rcases List.mem_append.mp member with old | new
    · exact held entry old
    · rw [List.mem_singleton.mp new]
      exact ⟨before, after⟩

/-- The termination rule. -/
theorem length_le (measure : σ → ℕ) (run : m.Run start entries state)
    (less : ∀ entry ∈ entries, m.Takes entry → measure entry.after < measure entry.before) :
    entries.length + measure state ≤ measure start := by
  induction run with
  | nil => simp
  | @snoc earlier last run taken ih =>
    have before := ih fun entry member => less entry (by simp [member])
    have step := less last (by simp) taken
    rw [List.length_append, List.length_singleton]
    omega

theorem history (I : List (Entry σ ι ω) → σ → Prop) (run : m.Run start entries state)
    (initial : I [] start)
    (keep : ∀ pre entry, m.Run start pre entry.before → m.Takes entry → I pre entry.before →
      I (pre ++ [entry]) entry.after) : I entries state := by
  induction run with
  | nil => exact initial
  | snoc run taken ih => exact keep _ _ run taken ih

/-- The inputs determine the run. -/
theorem unique {entries' : List (Entry σ ι ω)} {state' : σ} (run : m.Run start entries state)
    (run' : m.Run start entries' state') (same : entries.map Entry.input = entries'.map Entry.input) :
    entries = entries' ∧ state = state' := by
  induction run generalizing entries' state' with
  | nil =>
    obtain rfl := List.map_eq_nil_iff.mp same.symm
    exact ⟨rfl, run'.nil_eq.symm⟩
  | @snoc earlier last run taken ih =>
    cases run' with
    | nil => simp at same
    | @snoc earlier' last' run' taken' =>
      rw [List.map_append, List.map_append] at same
      obtain ⟨inputs, lasts⟩ := List.append_inj' same rfl
      obtain ⟨rfl, reached⟩ := ih run' inputs
      obtain ⟨before, input, after, output⟩ := last
      obtain ⟨before', input', after', output'⟩ := last'
      obtain rfl : before = before' := reached
      obtain rfl : input = input' := List.singleton_inj.mp lasts
      obtain ⟨rfl, rfl⟩ := Prod.mk.inj (Option.some.inj (taken.symm.trans taken'))
      exact ⟨rfl, rfl⟩

theorem along_congr {P Q : List (Entry σ ι ω) → Entry σ ι ω → Prop} (run : m.Run start entries state)
    (same : ∀ pre entry, m.Run start pre entry.before → m.Takes entry → (P pre entry ↔ Q pre entry)) :
    Along P entries ↔ Along Q entries := by
  refine forall_congr' fun pre => forall_congr' fun entry => forall_congr' fun post =>
    forall_congr' fun cut => ?_
  subst cut
  obtain ⟨before, taken, _⟩ := run.reach
  exact same pre entry before taken

end Run

/-- A run does what the machine does from this state, at the inputs as `view` shows them. -/
def Refines {τ κ : Type*} (abstract : Machine τ κ ω) (view : ι → κ) (first : τ)
    (entries : List (Entry σ ι ω)) : Prop :=
  ∃ steps last, abstract.Run first steps last ∧
    steps.map Entry.input = entries.map (fun entry => view entry.input) ∧
    steps.map Entry.output = entries.map Entry.output

theorem Run.simulated {τ κ : Type*} {abstract : Machine τ κ ω} {view : ι → κ} {first : τ}
    (R : σ → τ → Prop) (run : m.Run start entries state) (initial : R start first)
    (simulate : ∀ entry ∈ entries, m.Takes entry → ∀ before, R entry.before before →
      ∃ after, abstract.step before (view entry.input) = some (after, entry.output) ∧ R entry.after after) :
    ∃ steps last, abstract.Run first steps last ∧
      steps.map Entry.input = entries.map (fun entry => view entry.input) ∧
      steps.map Entry.output = entries.map Entry.output ∧ R state last := by
  induction run with
  | nil => exact ⟨[], first, .nil, rfl, rfl, initial⟩
  | @snoc earlier entry run taken ih =>
    obtain ⟨steps, last, abstractRun, inputs, outputs, related⟩ :=
      ih fun entry member => simulate entry (by simp [member])
    obtain ⟨after, step, related⟩ := simulate entry (by simp) taken last related
    let mirrored : Entry τ κ ω := ⟨last, view entry.input, after, entry.output⟩
    have stepped : abstract.Run first (steps ++ [mirrored]) after :=
      abstractRun.snoc (show abstract.Takes mirrored from step)
    exact ⟨_, _, stepped, by simp [inputs, mirrored], by simp [outputs, mirrored], related⟩

theorem Run.refines {τ κ : Type*} {abstract : Machine τ κ ω} {view : ι → κ} {first : τ}
    (R : σ → τ → Prop) (run : m.Run start entries state) (initial : R start first)
    (simulate : ∀ entry ∈ entries, m.Takes entry → ∀ before, R entry.before before →
      ∃ after, abstract.step before (view entry.input) = some (after, entry.output) ∧ R entry.after after) :
    abstract.Refines view first entries := by
  obtain ⟨steps, last, abstractRun, inputs, outputs, _⟩ := run.simulated R initial simulate
  exact ⟨steps, last, abstractRun, inputs, outputs⟩

/-- A part of the state goes through a run of a machine of its own. -/
theorem Run.project {τ κ υ : Type*} {n : Machine τ κ υ} (part : σ → τ) (view : Entry σ ι ω → List (Entry τ κ υ))
    (run : m.Run start entries state)
    (each : ∀ entry ∈ entries, m.Takes entry → n.Run (part entry.before) (view entry) (part entry.after)) :
    n.Run (part start) (entries.flatMap view) (part state) := by
  induction run with
  | nil => exact .nil
  | @snoc earlier entry run taken ih =>
    rw [List.flatMap_append, List.flatMap_singleton]
    exact (ih fun entry member => each entry (by simp [member])).append (each entry (by simp) taken)

theorem exec_cons {input : ι} {rest : List ι} {next last : σ} {output : ω}
    (stepped : m.step state input = some (next, output)) (done : m.exec next rest = some (entries, last)) :
    m.exec state (input :: rest) = some (⟨state, input, next, output⟩ :: entries, last) := by
  simp only [exec, stepped, done, Option.map_some]

/-- Where both machines do the same and are enabled for the same inputs, the first one can do what the other does. -/
theorem exec_simulates {τ κ : Type*} {abstract : Machine τ κ ω} {view : ι → κ} {first last : τ} {inputs : List ι}
    {steps : List (Entry τ κ ω)} (R : σ → τ → Prop) (initial : R start first)
    (done : abstract.exec first (inputs.map view) = some (steps, last))
    (simulate : ∀ input ∈ inputs, ∀ before next output, m.step before input = some (next, output) →
      ∀ state, R before state → ∃ after, abstract.step state (view input) = some (after, output) ∧ R next after)
    (enabled : ∀ input ∈ inputs, ∀ before state, R before state →
      (abstract.step state (view input)).isSome → (m.step before input).isSome) :
    ∃ entries state, m.exec start inputs = some (entries, state) ∧
      entries.map Entry.output = steps.map Entry.output ∧ R state last := by
  induction inputs generalizing start first steps with
  | nil =>
    simp only [List.map_nil, exec, Option.some.injEq, Prod.mk.injEq] at done
    obtain ⟨rfl, rfl⟩ := done
    exact ⟨[], start, rfl, rfl, initial⟩
  | cons input rest ih =>
    rw [List.forall_mem_cons] at simulate enabled
    simp only [List.map_cons, exec] at done
    split at done
    · cases done
    · next second shown stepped =>
      obtain ⟨⟨tail, end'⟩, executed, same⟩ := Option.map_eq_some_iff.mp done
      simp only [Prod.mk.injEq] at same
      obtain ⟨rfl, rfl⟩ := same
      obtain ⟨⟨next, output⟩, taken⟩ :=
        Option.isSome_iff_exists.mp (enabled.1 start first initial (by rw [stepped]; rfl))
      obtain ⟨after, mirrored, related⟩ := simulate.1 start next output taken first initial
      obtain ⟨rfl, rfl⟩ := Prod.mk.inj (Option.some.inj (mirrored.symm.trans stepped))
      obtain ⟨entries, state, later, outputs, related⟩ := ih related executed simulate.2 enabled.2
      exact ⟨_, state, exec_cons taken later, by simp [outputs], related⟩

theorem exec_run {inputs : List ι} (done : m.exec start inputs = some (entries, state)) :
    m.Run start entries state := by
  induction inputs generalizing start entries with
  | nil =>
    simp only [exec, Option.some.injEq, Prod.mk.injEq] at done
    obtain ⟨rfl, rfl⟩ := done
    exact .nil
  | cons input rest ih =>
    simp only [exec] at done
    split at done
    · cases done
    · next next output stepped =>
      obtain ⟨⟨tail, last⟩, executed, same⟩ := Option.map_eq_some_iff.mp done
      simp only [Prod.mk.injEq] at same
      obtain ⟨rfl, rfl⟩ := same
      let first : Entry σ ι ω := ⟨start, input, next, output⟩
      have taken : m.Takes first := stepped
      have single : m.Run start [first] first.after := Run.nil.snoc taken
      exact single.append (ih executed)

theorem exec_inputs {inputs : List ι} (done : m.exec start inputs = some (entries, state)) :
    entries.map Entry.input = inputs := by
  induction inputs generalizing start entries with
  | nil =>
    simp only [exec, Option.some.injEq, Prod.mk.injEq] at done
    rw [← done.1, List.map_nil]
  | cons input rest ih =>
    simp only [exec] at done
    split at done
    · cases done
    · obtain ⟨⟨tail, last⟩, executed, same⟩ := Option.map_eq_some_iff.mp done
      simp only [Prod.mk.injEq] at same
      obtain ⟨rfl, rfl⟩ := same
      rw [List.map_cons, ih executed]

theorem exec_input_mem {inputs : List ι} (done : m.exec start inputs = some (entries, state)) :
    ∀ entry ∈ entries, entry.input ∈ inputs := by
  intro entry member
  rw [← exec_inputs done]
  exact List.mem_map_of_mem member

end Machine
end Library
