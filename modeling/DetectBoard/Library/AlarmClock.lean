import Mathlib.Data.List.Basic
import Mathlib.Logic.Function.Basic
import DetectBoard.Library.Machine

/-! Alarms on a clock that does not run over.

An alarm that is started comes due after its time. At every tick the due alarms
are called one after the other, and a callback may itself start, stop and set
alarms. An alarm that repeats is started again when its callback is over.
-/

set_option autoImplicit false

namespace Library

structure AlarmSetting where
  time : ℕ
  repeats : Bool
  active : Bool
  deriving DecidableEq, Repr

inductive AlarmPhase (τ : Type*) where
  | idle
  | ticked
  | checking
  /-- In the callback of an alarm, which is still to be started again or not. -/
  | calling (t : τ) (linked : Bool)
  deriving DecidableEq, Repr

structure AlarmClock (τ : Type*) where
  now : ℕ
  setting : τ → AlarmSetting
  /-- The alarms that were started, with the times when they are due, in the order in which they were started. -/
  armed : List (τ × ℕ)
  phase : AlarmPhase τ

inductive AlarmEvent (τ : Type*) where
  | start (t : τ)
  | stop (t : τ)
  /-- A call to stop has found the alarm active, and was interrupted. -/
  | stopRest (t : τ)
  | detach (t : τ)
  | setTime (t : τ) (time : ℕ)
  | setRepeats (t : τ) (repeats : Bool)
  | tick
  | check
  | head
  | finish
  deriving DecidableEq, Repr

inductive AlarmReport (τ : Type*) where
  | ticked
  | started (t : τ) (time : ℕ)
  | stopped (t : τ)
  | refused (t : τ)
  | detached (t : τ)
  | entered (t : τ)
  | exited (t : τ)
  deriving DecidableEq, Repr

/-- Of the alarms that are due first, the one that was started first. -/
def earliest {τ : Type*} (armed : List (τ × ℕ)) : Option (τ × ℕ) :=
  armed.find? fun alarm => armed.all fun other => decide (alarm.2 ≤ other.2)

namespace AlarmClock

variable {τ : Type*} [DecidableEq τ] (c : AlarmClock τ)

def without (t : τ) : List (τ × ℕ) := c.armed.filter fun alarm => decide (alarm.1 ≠ t)

def set (t : τ) (setting : AlarmSetting) : AlarmClock τ :=
  { c with setting := Function.update c.setting t setting }

def unlink (t : τ) : AlarmPhase τ :=
  match c.phase with
  | .calling u linked => .calling u (linked && decide (u ≠ t))
  | phase => phase

def start (t : τ) : AlarmClock τ :=
  { c.set t { c.setting t with active := true } with
    armed := c.without t ++ [(t, c.now + (c.setting t).time)]
    phase := c.unlink t }

def cancel (t : τ) : AlarmClock τ :=
  { c.set t { c.setting t with active := false } with armed := c.without t, phase := c.unlink t }

/-- An alarm that does not repeat is no longer active once it is called. -/
def call (t : τ) : AlarmClock τ :=
  { c.set t { c.setting t with active := (c.setting t).active && (c.setting t).repeats } with
    armed := c.without t
    phase := .calling t true }

def head : AlarmClock τ × List (AlarmReport τ) :=
  match earliest c.armed with
  | some (t, due) => if due ≤ c.now then (c.call t, [.entered t]) else ({ c with phase := .idle }, [])
  | none => ({ c with phase := .idle }, [])

def finish (t : τ) (linked : Bool) : AlarmClock τ × List (AlarmReport τ) :=
  if linked && (c.setting t).repeats && (c.setting t).active then
    ({ c.start t with phase := .checking }, [.exited t, .started t (c.setting t).time])
  else ({ c with phase := .checking }, [.exited t])

end AlarmClock

section Machine

variable {τ : Type*} [DecidableEq τ]

/-- While the alarms are being looked through, nothing else is done. -/
def alarmStep (c : AlarmClock τ) : AlarmEvent τ → Option (AlarmClock τ × List (AlarmReport τ))
  | .start t => if c.phase = .checking then none else some (c.start t, [.started t (c.setting t).time])
  | .stop t =>
    if c.phase = .checking then none
    else if (c.setting t).active then some (c.cancel t, [.stopped t])
    else some (c, [.refused t])
  | .stopRest t => if c.phase = .checking then none else some (c.cancel t, [.stopped t])
  | .detach t => if c.phase = .checking then none else some (c.cancel t, [.detached t])
  | .setTime t time => if c.phase = .checking then none else some (c.set t { c.setting t with time }, [])
  | .setRepeats t repeats => if c.phase = .checking then none else some (c.set t { c.setting t with repeats }, [])
  | .tick => if c.phase = .idle then some ({ c with now := c.now + 1, phase := .ticked }, [.ticked]) else none
  | .check => if c.phase = .ticked then some ({ c with phase := .checking }, []) else none
  | .head => if c.phase = .checking then some c.head else none
  | .finish =>
    match c.phase with
    | .calling t linked => some (c.finish t linked)
    | _ => none

def alarmMachine (τ : Type*) [DecidableEq τ] : Machine (AlarmClock τ) (AlarmEvent τ) (List (AlarmReport τ)) :=
  ⟨alarmStep⟩

end Machine

/-! ## Alarms in the order in which they are due -/

section Ordered

variable {τ : Type*} {list armed : List (τ × ℕ)}

/-- The same alarms, sorted by the time when they are due; among those that are due at once the order is kept. -/
structure Ordered (list armed : List (τ × ℕ)) : Prop where
  sorted : list.Pairwise fun first second => first.2 ≤ second.2
  stable : ∀ due, list.filter (fun alarm => decide (alarm.2 = due)) = armed.filter fun alarm => decide (alarm.2 = due)

theorem Ordered.nil : Ordered ([] : List (τ × ℕ)) [] := ⟨.nil, fun _ => rfl⟩

theorem Ordered.mem_iff (ordered : Ordered list armed) (alarm : τ × ℕ) : alarm ∈ list ↔ alarm ∈ armed := by
  have same := ordered.stable alarm.2
  have in_ (alarms : List (τ × ℕ)) :
      alarm ∈ alarms ↔ alarm ∈ alarms.filter fun other => decide (other.2 = alarm.2) := by
    simp
  rw [in_ list, same, ← in_ armed]

theorem Ordered.filter (ordered : Ordered list armed) (keep : τ × ℕ → Bool) :
    Ordered (list.filter keep) (armed.filter keep) := by
  refine ⟨ordered.sorted.filter keep, fun due => ?_⟩
  rw [List.filter_comm, ordered.stable, List.filter_comm]

/-- The first alarm of the sorted list is the one to be called. -/
theorem Ordered.head?_eq (ordered : Ordered list armed) : list.head? = earliest armed := by
  cases list with
  | nil =>
    have empty : armed = [] := List.eq_nil_iff_forall_not_mem.mpr fun alarm => by simp [← ordered.mem_iff alarm]
    rw [empty]
    rfl
  | cons first rest =>
    have least : ∀ other ∈ armed, first.2 ≤ other.2 := by
      intro other member
      rcases List.mem_cons.mp ((ordered.mem_iff other).mpr member) with rfl | later
      · exact Nat.le_refl _
      · exact List.rel_of_pairwise_cons ordered.sorted later
    have member : first ∈ armed := (ordered.mem_iff first).mp (by simp)
    have due : armed.filter (fun alarm => armed.all fun other => decide (alarm.2 ≤ other.2)) =
        armed.filter fun alarm => decide (alarm.2 = first.2) := by
      refine List.filter_congr fun alarm present => ?_
      rw [Bool.eq_iff_iff, List.all_eq_true, decide_eq_true_eq]
      constructor
      · exact fun below => Nat.le_antisymm (by simpa using below first member) (least alarm present)
      · exact fun same other here => by simpa [same] using least other here
    rw [earliest, ← List.head?_filter, due, ← ordered.stable]
    simp

theorem earliest_some {alarm : τ × ℕ} (found : earliest armed = some alarm) :
    alarm ∈ armed ∧ ∀ other ∈ armed, alarm.2 ≤ other.2 := by
  refine ⟨List.mem_of_find?_eq_some found, ?_⟩
  simpa using List.find?_some found

theorem earliest_none (found : earliest armed = none) : armed = [] := by
  have smaller := List.find?_eq_none.mp found
  refine List.eq_nil_iff_forall_not_mem.mpr fun alarm member => ?_
  induction due : alarm.2 using Nat.strongRecOn generalizing alarm with
  | ind n ih =>
    have other := smaller alarm member
    simp only [List.all_eq_true, decide_eq_true_eq, not_forall, Nat.not_le] at other
    obtain ⟨other, member, less⟩ := other
    exact ih other.2 (due ▸ less) other member rfl

/-- Insert behind the alarms that are due no later. -/
def insertLast (alarm : τ × ℕ) : List (τ × ℕ) → List (τ × ℕ)
  | [] => [alarm]
  | first :: rest => if first.2 ≤ alarm.2 then first :: insertLast alarm rest else alarm :: first :: rest

theorem mem_insertLast {alarm other : τ × ℕ} : other ∈ insertLast alarm list ↔ other = alarm ∨ other ∈ list := by
  induction list with
  | nil => simp [insertLast]
  | cons first rest ih =>
    unfold insertLast
    split
    · rw [List.mem_cons, ih, List.mem_cons]
      tauto
    · simp

theorem filter_insertLast (sorted : list.Pairwise fun first second => first.2 ≤ second.2) (alarm : τ × ℕ) (due : ℕ) :
    (insertLast alarm list).filter (fun other => decide (other.2 = due)) =
      list.filter (fun other => decide (other.2 = due)) ++ if alarm.2 = due then [alarm] else [] := by
  induction list with
  | nil => simp [insertLast, List.filter_cons]
  | cons first rest ih =>
    obtain ⟨least, sorted⟩ := List.pairwise_cons.mp sorted
    unfold insertLast
    split
    · rw [List.filter_cons, List.filter_cons, ih sorted]
      split <;> simp
    · next later =>
      have alone : alarm.2 = due → (first :: rest).filter (fun other => decide (other.2 = due)) = [] := by
        rintro rfl
        refine List.filter_eq_nil_iff.mpr fun other member => ?_
        rcases List.mem_cons.mp member with rfl | behind
        · simp
          omega
        · have := least other behind
          simp
          omega
      rw [List.filter_cons]
      by_cases same : alarm.2 = due
      · simp [same, alone same]
      · simp [same]

theorem Ordered.insertLast (ordered : Ordered list armed) (alarm : τ × ℕ) :
    Ordered (insertLast alarm list) (armed ++ [alarm]) := by
  refine ⟨?_, fun due => ?_⟩
  · have sorted := ordered.sorted
    clear ordered
    induction list with
    | nil => simp [Library.insertLast]
    | cons first rest ih =>
      obtain ⟨least, later⟩ := List.pairwise_cons.mp sorted
      unfold Library.insertLast
      split
      · next before =>
        refine List.pairwise_cons.mpr ⟨fun other member => ?_, ih later⟩
        rcases mem_insertLast.mp member with rfl | behind
        · exact before
        · exact least other behind
      · next after =>
        refine List.pairwise_cons.mpr ⟨fun other member => ?_, sorted⟩
        rcases List.mem_cons.mp member with rfl | behind
        · omega
        · have := least other behind
          omega
  · rw [filter_insertLast ordered.sorted, ordered.stable, List.filter_append]
    simp [List.filter_cons]

end Ordered

/-! ## What the reports say of an alarm -/

section Watch

variable {τ : Type*} [DecidableEq τ]

/-- What the reports say of one alarm. -/
structure AlarmWatch where
  /-- The ticks that were reported. -/
  elapsed : ℕ
  /-- The tick and the time with which the alarm was last started, unless it was called or cancelled since. -/
  pending : Option (ℕ × ℕ)
  /-- The ticks at which it was called. -/
  calls : List ℕ
  deriving DecidableEq, Repr

def AlarmWatch.note (t : τ) (w : AlarmWatch) : AlarmReport τ → AlarmWatch
  | .ticked => { w with elapsed := w.elapsed + 1 }
  | .started u time => if u = t then { w with pending := some (w.elapsed, time) } else w
  | .stopped u | .detached u => if u = t then { w with pending := none } else w
  | .entered u => if u = t then { w with pending := none, calls := w.calls ++ [w.elapsed] } else w
  | .refused _ | .exited _ => w

def watch (t : τ) (reports : List (AlarmReport τ)) : AlarmWatch := reports.foldl (AlarmWatch.note t) ⟨0, none, []⟩

theorem watch_append (t : τ) (reports more : List (AlarmReport τ)) :
    watch t (reports ++ more) = more.foldl (AlarmWatch.note t) (watch t reports) :=
  List.foldl_append

/-- Every alarm that was started is to be called after its time, or at the next tick where its time is zero. -/
structure Punctual (first : ℕ) (c : AlarmClock τ) (w : τ → AlarmWatch) : Prop where
  elapsed : ∀ t, c.now = first + (w t).elapsed
  armed : ∀ t due, (t, due) ∈ c.armed ↔ ∃ begun time, (w t).pending = some (begun, time) ∧ due = first + begun + time
  late : ∀ t begun time, (w t).pending = some (begun, time) → (w t).elapsed ≤ begun + max time 1
  idle : c.phase = .idle → ∀ t begun time, (w t).pending = some (begun, time) → (w t).elapsed < begun + max time 1

variable {first : ℕ} {c : AlarmClock τ} {w : τ → AlarmWatch}

omit [DecidableEq τ] in
theorem Punctual.congr {c' : AlarmClock τ} (punctual : Punctual first c w) (now : c'.now = c.now)
    (armed : c'.armed = c.armed) (phase : c'.phase = .idle → c.phase = .idle) : Punctual first c' w :=
  ⟨fun t => now.trans (punctual.elapsed t), fun t due => by rw [armed]; exact punctual.armed t due, punctual.late,
    fun idle => punctual.idle (phase idle)⟩

theorem AlarmClock.mem_without {t u : τ} {due : ℕ} : (u, due) ∈ c.without t ↔ (u, due) ∈ c.armed ∧ u ≠ t := by
  simp [AlarmClock.without]

theorem AlarmClock.unlink_idle {t : τ} : c.unlink t = .idle ↔ c.phase = .idle := by
  unfold AlarmClock.unlink
  cases c.phase <;> simp

theorem Punctual.start (punctual : Punctual first c w) (t : τ) {w' : τ → AlarmWatch}
    (noted : ∀ u, w' u = if t = u then { w u with pending := some ((w u).elapsed, (c.setting t).time) } else w u) :
    Punctual first (c.start t) w' := by
  have elapsed (u : τ) : (w' u).elapsed = (w u).elapsed := by
    rw [noted]
    split <;> rfl
  refine ⟨fun u => ?_, fun u due => ?_, fun u begun time pending => ?_, fun idle u begun time pending => ?_⟩
  · rw [elapsed]
    exact punctual.elapsed u
  · rw [AlarmClock.start, List.mem_append, AlarmClock.mem_without, List.mem_singleton, noted, Prod.mk.injEq,
      punctual.elapsed t]
    by_cases same : t = u
    · subst same
      simp
    · simp [same, Ne.symm same, punctual.armed]
  · rw [elapsed]
    rw [noted] at pending
    split at pending
    · cases pending
      omega
    · exact punctual.late u begun time pending
  · rw [elapsed]
    rw [noted] at pending
    split at pending
    · cases pending
      omega
    · exact punctual.idle (AlarmClock.unlink_idle.mp idle) u begun time pending

theorem dropped (t u : τ) (w : AlarmWatch) {report : AlarmReport τ}
    (drops : report = .stopped t ∨ report = .detached t ∨ report = .entered t) :
    (w.note u report).elapsed = w.elapsed ∧ (w.note u report).pending = if t = u then none else w.pending := by
  rcases drops with rfl | rfl | rfl <;> simp only [AlarmWatch.note] <;> split <;> exact ⟨rfl, rfl⟩

theorem Punctual.drop (punctual : Punctual first c w) (t : τ) {report : AlarmReport τ}
    (drops : report = .stopped t ∨ report = .detached t ∨ report = .entered t) {c' : AlarmClock τ}
    (now : c'.now = c.now) (armed : c'.armed = c.without t) (phase : c'.phase = .idle → c.phase = .idle) :
    Punctual first c' fun u => (w u).note u report := by
  have elapsed (u : τ) := (dropped t u (w u) drops).1
  have noted (u : τ) := (dropped t u (w u) drops).2
  have kept (u : τ) (begun time : ℕ) (pending : ((w u).note u report).pending = some (begun, time)) :
      (w u).pending = some (begun, time) := by
    rw [noted] at pending
    split at pending
    · cases pending
    · exact pending
  refine ⟨fun u => ?_, fun u due => ?_, fun u begun time pending => ?_, fun idle u begun time pending => ?_⟩
  · rw [elapsed, now]
    exact punctual.elapsed u
  · rw [armed, AlarmClock.mem_without, noted]
    by_cases same : t = u
    · subst same
      simp
    · simp [same, Ne.symm same, punctual.armed]
  · rw [elapsed]
    exact punctual.late u begun time (kept u begun time pending)
  · rw [elapsed]
    exact punctual.idle (phase idle) u begun time (kept u begun time pending)

omit [DecidableEq τ] in
theorem Punctual.tick (punctual : Punctual first c w) (idle : c.phase = .idle) {w' : τ → AlarmWatch}
    (noted : ∀ u, w' u = { w u with elapsed := (w u).elapsed + 1 }) :
    Punctual first { c with now := c.now + 1, phase := .ticked } w' := by
  refine ⟨fun u => ?_, fun u due => ?_, fun u begun time pending => ?_, fun other => by cases other⟩
  · rw [noted, ← Nat.add_assoc, ← punctual.elapsed u]
  · rw [noted]
    exact punctual.armed u due
  · rw [noted] at pending ⊢
    exact punctual.idle idle u begun time pending

omit [DecidableEq τ] in
/-- Where no alarm is due, the clock may rest. -/
theorem Punctual.settle (punctual : Punctual first c w) (later : ∀ t due, (t, due) ∈ c.armed → c.now < due) :
    Punctual first { c with phase := .idle } w := by
  refine ⟨punctual.elapsed, punctual.armed, punctual.late, fun _ u begun time pending => ?_⟩
  have soon := later u _ ((punctual.armed u _).mpr ⟨begun, time, pending, rfl⟩)
  have now := punctual.elapsed u
  omega

theorem Punctual.head (punctual : Punctual first c w) {c' : AlarmClock τ} {reports : List (AlarmReport τ)}
    (taken : c.head = (c', reports)) :
    Punctual first c' (fun t => reports.foldl (AlarmWatch.note t) (w t)) ∧
      ∀ t, .entered t ∈ reports → ∃ begun time, (w t).pending = some (begun, time) ∧ begun + time ≤ (w t).elapsed := by
  unfold AlarmClock.head at taken
  split at taken
  · next t due found =>
    obtain ⟨member, least⟩ := earliest_some found
    split at taken
    · next reached =>
      obtain ⟨rfl, rfl⟩ := Prod.mk.inj taken
      have called : Punctual first (c.call t) fun u => (w u).note u (.entered t) :=
        punctual.drop t (by simp) rfl rfl nofun
      refine ⟨called, fun u entered => ?_⟩
      obtain rfl : u = t := by simpa using entered
      obtain ⟨begun, time, pending, rfl⟩ := (punctual.armed u due).mp member
      have now := punctual.elapsed u
      exact ⟨begun, time, pending, by omega⟩
    · next later =>
      obtain ⟨rfl, rfl⟩ := Prod.mk.inj taken
      refine ⟨punctual.settle fun u other present => ?_, by simp⟩
      have := least (u, other) present
      omega
  · next found =>
    obtain ⟨rfl, rfl⟩ := Prod.mk.inj taken
    exact ⟨punctual.settle fun u other present => by simp [earliest_none found] at present, by simp⟩

theorem Punctual.finish (punctual : Punctual first c w) {t : τ} {linked : Bool} {c' : AlarmClock τ}
    {reports : List (AlarmReport τ)} (taken : c.finish t linked = (c', reports)) :
    Punctual first c' (fun t => reports.foldl (AlarmWatch.note t) (w t)) ∧ ∀ t, .entered t ∉ reports := by
  unfold AlarmClock.finish at taken
  split at taken
  · obtain ⟨rfl, rfl⟩ := Prod.mk.inj taken
    exact ⟨(punctual.start t fun _ => rfl).congr rfl rfl (fun idle => by cases idle), by simp⟩
  · obtain ⟨rfl, rfl⟩ := Prod.mk.inj taken
    exact ⟨punctual.congr rfl rfl (fun idle => by cases idle), by simp⟩

/-- The step lemma. -/
theorem Punctual.step (punctual : Punctual first c w) {event : AlarmEvent τ} {c' : AlarmClock τ}
    {reports : List (AlarmReport τ)} (taken : alarmStep c event = some (c', reports)) :
    Punctual first c' (fun t => reports.foldl (AlarmWatch.note t) (w t)) ∧
      ∀ t, .entered t ∈ reports → ∃ begun time, (w t).pending = some (begun, time) ∧ begun + time ≤ (w t).elapsed := by
  cases event with
  | start t =>
    simp only [alarmStep] at taken
    split at taken
    · cases taken
    · obtain ⟨rfl, rfl⟩ := Prod.mk.inj (Option.some.inj taken)
      exact ⟨punctual.start t fun _ => rfl, by simp⟩
  | stop t =>
    simp only [alarmStep] at taken
    split at taken
    · cases taken
    · split at taken
      · obtain ⟨rfl, rfl⟩ := Prod.mk.inj (Option.some.inj taken)
        have stopped : Punctual first (c.cancel t) fun u => (w u).note u (.stopped t) :=
          punctual.drop t (by simp) rfl rfl AlarmClock.unlink_idle.mp
        exact ⟨stopped, by simp⟩
      · obtain ⟨rfl, rfl⟩ := Prod.mk.inj (Option.some.inj taken)
        exact ⟨punctual, by simp⟩
  | stopRest t =>
    simp only [alarmStep] at taken
    split at taken
    · cases taken
    · obtain ⟨rfl, rfl⟩ := Prod.mk.inj (Option.some.inj taken)
      have stopped : Punctual first (c.cancel t) fun u => (w u).note u (.stopped t) :=
        punctual.drop t (by simp) rfl rfl AlarmClock.unlink_idle.mp
      exact ⟨stopped, by simp⟩
  | detach t =>
    simp only [alarmStep] at taken
    split at taken
    · cases taken
    · obtain ⟨rfl, rfl⟩ := Prod.mk.inj (Option.some.inj taken)
      have detached : Punctual first (c.cancel t) fun u => (w u).note u (.detached t) :=
        punctual.drop t (by simp) rfl rfl AlarmClock.unlink_idle.mp
      exact ⟨detached, by simp⟩
  | setTime | setRepeats =>
    simp only [alarmStep] at taken
    split at taken
    · cases taken
    · obtain ⟨rfl, rfl⟩ := Prod.mk.inj (Option.some.inj taken)
      exact ⟨punctual.congr rfl rfl id, by simp⟩
  | tick =>
    simp only [alarmStep] at taken
    split at taken
    · next idle =>
      obtain ⟨rfl, rfl⟩ := Prod.mk.inj (Option.some.inj taken)
      exact ⟨punctual.tick idle fun _ => rfl, by simp⟩
    · cases taken
  | check =>
    simp only [alarmStep] at taken
    split at taken
    · obtain ⟨rfl, rfl⟩ := Prod.mk.inj (Option.some.inj taken)
      exact ⟨punctual.congr rfl rfl (fun idle => by cases idle), by simp⟩
    · cases taken
  | head =>
    simp only [alarmStep] at taken
    split at taken
    · exact punctual.head (Option.some.inj taken)
    · cases taken
  | finish =>
    simp only [alarmStep] at taken
    split at taken
    · obtain ⟨after, silent⟩ := punctual.finish (Option.some.inj taken)
      exact ⟨after, fun t entered => absurd entered (silent t)⟩
    · cases taken

/-- What the steps of a run reported. -/
def allReports {σ ι ω : Type*} (entries : List (Entry σ ι (List ω))) : List ω := entries.flatMap Entry.output

theorem watch_allReports_snoc {σ ι : Type*} (t : τ) (entries : List (Entry σ ι (List (AlarmReport τ))))
    (entry : Entry σ ι (List (AlarmReport τ))) :
    watch t (allReports (entries ++ [entry])) =
      entry.output.foldl (AlarmWatch.note t) (watch t (allReports entries)) := by
  rw [allReports, List.flatMap_append, List.flatMap_singleton, watch_append]
  rfl

theorem Punctual.initial (clock : AlarmClock τ) (unarmed : clock.armed = []) :
    Punctual clock.now clock fun t => watch t [] :=
  ⟨fun _ => rfl, fun t due => by simp [unarmed, watch], nofun, nofun⟩

/-! ## An alarm that repeats -/

/-- The alarm that a call is about. -/
def AlarmEvent.target : AlarmEvent τ → Option τ
  | .start t | .stop t | .stopRest t | .detach t | .setTime t _ | .setRepeats t _ => some t
  | .tick | .check | .head | .finish => none

/-- The ticks at which a repeating alarm is called that was started at a tick. -/
def beats (begun time count : ℕ) : List ℕ := (List.range count).map fun k => begun + (k + 1) * time

/-- The alarm was called at each of the first beats, and is to be called at the next one. -/
structure Regular (t : τ) (begun time : ℕ) (earlier : List ℕ) (c : AlarmClock τ) (w : AlarmWatch) : Prop where
  setting : c.setting t = ⟨time, true, true⟩
  progress : ∃ count, w.calls = earlier ++ beats begun time count ∧ begun + count * time ≤ w.elapsed ∧
    (w.pending = some (begun + count * time, time) ∧ c.phase ≠ .calling t true ∨
      w.pending = none ∧ c.phase = .calling t true ∧ w.elapsed = begun + count * time)

variable {t : τ} {begun time : ℕ} {earlier : List ℕ}

omit [DecidableEq τ] in
theorem Regular.congr {c' : AlarmClock τ} {w : AlarmWatch} (regular : Regular t begun time earlier c w)
    (setting : c'.setting t = c.setting t) (phase : c'.phase = .calling t true ↔ c.phase = .calling t true) :
    Regular t begun time earlier c' w := by
  refine ⟨setting.trans regular.setting, ?_⟩
  simpa only [Ne, phase] using regular.progress

theorem AlarmClock.unlink_calling {u : τ} (other : u ≠ t) :
    c.unlink u = .calling t true ↔ c.phase = .calling t true := by
  unfold AlarmClock.unlink
  cases c.phase with
  | idle | ticked | checking => simp
  | calling v linked =>
    simp only [AlarmPhase.calling.injEq, Bool.and_eq_true, decide_eq_true_eq]
    constructor
    · exact fun ⟨same, still, _⟩ => ⟨same, still⟩
    · rintro ⟨rfl, still⟩
      exact ⟨rfl, still, Ne.symm other⟩

theorem Regular.head (regular : Regular t begun time earlier c (w t)) (punctual : Punctual first c w)
    (positive : 0 < time) (checking : c.phase = .checking) {c' : AlarmClock τ} {reports : List (AlarmReport τ)}
    (taken : c.head = (c', reports)) :
    Regular t begun time earlier c' (reports.foldl (AlarmWatch.note t) (w t)) := by
  unfold AlarmClock.head at taken
  split at taken
  · next u due found =>
    split at taken
    · next reached =>
      obtain ⟨rfl, rfl⟩ := Prod.mk.inj taken
      by_cases same : u = t
      · subst same
        obtain ⟨count, calls, _, ⟨pending, _⟩ | ⟨_, calling, _⟩⟩ := regular.progress
        · obtain ⟨begun', time', pending', rfl⟩ := (punctual.armed u due).mp (earliest_some found).1
          obtain ⟨rfl, rfl⟩ := Prod.mk.inj (Option.some.inj (pending.symm.trans pending'))
          have now := punctual.elapsed u
          have late := punctual.late u _ _ pending
          have beat : (w u).elapsed = begun + (count + 1) * time := by
            rw [Nat.add_mul, Nat.one_mul]
            omega
          refine ⟨by simp [AlarmClock.call, AlarmClock.set, regular.setting], count + 1, ?_, ?_, .inr ⟨?_, rfl, ?_⟩⟩
          · simp [AlarmWatch.note, calls, beat, beats, List.range_succ]
          · simp [AlarmWatch.note, beat]
          · simp [AlarmWatch.note]
          · simp [AlarmWatch.note, beat]
        · cases checking.symm.trans calling
      · have kept : [AlarmReport.entered u].foldl (AlarmWatch.note t) (w t) = w t := by
          simp [AlarmWatch.note, same]
        rw [kept]
        refine regular.congr ?_ (by simp [AlarmClock.call, checking, same])
        simp [AlarmClock.call, AlarmClock.set, Function.update_of_ne (Ne.symm same)]
    · obtain ⟨rfl, rfl⟩ := Prod.mk.inj taken
      exact regular.congr rfl (by simp [checking])
  · obtain ⟨rfl, rfl⟩ := Prod.mk.inj taken
    exact regular.congr rfl (by simp [checking])

theorem Regular.finish {u : τ} {linked : Bool} (regular : Regular t begun time earlier c (w t))
    (calling : c.phase = .calling u linked) {c' : AlarmClock τ} {reports : List (AlarmReport τ)}
    (taken : c.finish u linked = (c', reports)) :
    Regular t begun time earlier c' (reports.foldl (AlarmWatch.note t) (w t)) := by
  have setting := regular.setting
  obtain ⟨count, calls, least, ⟨pending, apart⟩ | ⟨unstarted, calls', beat⟩⟩ := regular.progress
  · -- the alarm is not the one that was called, or it was started again since
    have restarts : (linked && (c.setting u).repeats && (c.setting u).active) = true → u ≠ t := by
      rintro again rfl
      rw [Bool.and_assoc, Bool.and_eq_true] at again
      exact apart (by rw [calling, again.1])
    unfold AlarmClock.finish at taken
    split at taken
    · next again =>
      obtain ⟨rfl, rfl⟩ := Prod.mk.inj taken
      have other := restarts again
      have kept : [AlarmReport.exited u, .started u (c.setting u).time].foldl (AlarmWatch.note t) (w t) = w t := by
        simp [AlarmWatch.note, other]
      rw [kept]
      refine regular.congr ?_ (by simp [apart])
      simp [AlarmClock.start, AlarmClock.set, Function.update_of_ne (Ne.symm other)]
    · obtain ⟨rfl, rfl⟩ := Prod.mk.inj taken
      exact regular.congr rfl (by simp [apart])
  · obtain ⟨rfl, rfl⟩ := AlarmPhase.calling.inj (calling.symm.trans calls')
    simp only [AlarmClock.finish, setting, Bool.and_self, if_true] at taken
    obtain ⟨rfl, rfl⟩ := Prod.mk.inj taken
    refine ⟨by simp [AlarmClock.start, AlarmClock.set, setting], count, ?_, ?_, .inl ⟨?_, nofun⟩⟩
    · simp [AlarmWatch.note, calls]
    · simp [AlarmWatch.note, least]
    · simp [AlarmWatch.note, beat]

/-- What is done to another alarm. -/
theorem alarmStep_other {c' : AlarmClock τ} {u : τ} {event : AlarmEvent τ} {reports : List (AlarmReport τ)}
    (taken : alarmStep c event = some (c', reports)) (about : event.target = some u) (apart : u ≠ t) :
    c'.setting t = c.setting t ∧ (c'.phase = .calling t true ↔ c.phase = .calling t true) ∧
      ∀ w : AlarmWatch, reports.foldl (AlarmWatch.note t) w = w := by
  have setting (state : AlarmClock τ) (value : AlarmSetting) : (state.set u value).setting t = state.setting t :=
    Function.update_of_ne (Ne.symm apart) _ _
  cases event with
  | tick | check | head | finish => cases about
  | start v | stopRest v | detach v =>
    obtain rfl := Option.some.inj about
    simp only [alarmStep] at taken
    split at taken
    · cases taken
    · obtain ⟨rfl, rfl⟩ := Prod.mk.inj (Option.some.inj taken)
      exact ⟨setting c _, AlarmClock.unlink_calling apart, fun w => by simp [AlarmWatch.note, apart]⟩
  | stop v =>
    obtain rfl := Option.some.inj about
    simp only [alarmStep] at taken
    split at taken
    · cases taken
    · split at taken
      · obtain ⟨rfl, rfl⟩ := Prod.mk.inj (Option.some.inj taken)
        exact ⟨setting c _, AlarmClock.unlink_calling apart, fun w => by simp [AlarmWatch.note, apart]⟩
      · obtain ⟨rfl, rfl⟩ := Prod.mk.inj (Option.some.inj taken)
        exact ⟨rfl, .rfl, fun _ => rfl⟩
  | setTime v | setRepeats v =>
    obtain rfl := Option.some.inj about
    simp only [alarmStep] at taken
    split at taken
    · cases taken
    · obtain ⟨rfl, rfl⟩ := Prod.mk.inj (Option.some.inj taken)
      exact ⟨setting c _, .rfl, fun _ => rfl⟩

/-- The step lemma, for what is not done to the alarm itself. -/
theorem Regular.step {c' : AlarmClock τ} {event : AlarmEvent τ} {reports : List (AlarmReport τ)}
    (regular : Regular t begun time earlier c (w t)) (punctual : Punctual first c w) (positive : 0 < time)
    (taken : alarmStep c event = some (c', reports)) (apart : event.target ≠ some t) :
    Regular t begun time earlier c' (reports.foldl (AlarmWatch.note t) (w t)) := by
  cases about : event.target with
  | some u =>
    obtain ⟨setting, phase, kept⟩ := alarmStep_other taken about fun same => apart (by rw [about, same])
    rw [kept]
    exact regular.congr setting phase
  | none =>
    cases event with
    | start | stop | stopRest | detach | setTime | setRepeats => cases about
    | tick =>
      simp only [alarmStep] at taken
      split at taken
      · next idle =>
        obtain ⟨rfl, rfl⟩ := Prod.mk.inj (Option.some.inj taken)
        obtain ⟨count, calls, least, pending | ⟨_, calling, _⟩⟩ := regular.progress
        · exact ⟨regular.setting, count, calls, Nat.le_succ_of_le least, .inl ⟨pending.1, nofun⟩⟩
        · cases idle.symm.trans calling
      · cases taken
    | check =>
      simp only [alarmStep] at taken
      split at taken
      · next ticked =>
        obtain ⟨rfl, rfl⟩ := Prod.mk.inj (Option.some.inj taken)
        exact regular.congr rfl (by simp [ticked])
      · cases taken
    | head =>
      simp only [alarmStep] at taken
      split at taken
      · next checking => exact regular.head punctual positive checking (Option.some.inj taken)
      · cases taken
    | finish =>
      simp only [alarmStep] at taken
      split at taken
      · next calling => exact regular.finish calling (Option.some.inj taken)
      · cases taken

theorem Regular.begin (repeats : (c.setting t).repeats = true) :
    Regular t (w t).elapsed (c.setting t).time (w t).calls (c.start t)
      ((w t).note t (.started t (c.setting t).time)) := by
  have linked : c.unlink t ≠ .calling t true := by
    unfold AlarmClock.unlink
    cases c.phase with
    | idle | ticked | checking => simp
    | calling u linked =>
      simp only [ne_eq, AlarmPhase.calling.injEq, Bool.and_eq_true, decide_eq_true_eq, not_and]
      exact fun same _ other => other same
  refine ⟨by simp [AlarmClock.start, AlarmClock.set, repeats], 0, ?_, ?_, .inl ⟨?_, linked⟩⟩
  · simp [AlarmWatch.note, beats]
  · simp [AlarmWatch.note]
  · simp [AlarmWatch.note]

omit [DecidableEq τ] in
/-- Outside the calls the alarm has been called at every beat so far. -/
theorem Regular.rest (regular : Regular t begun time earlier c (w t)) (punctual : Punctual first c w)
    (positive : 0 < time) (idle : c.phase = .idle) :
    (w t).calls = earlier ++ beats begun time (((w t).elapsed - begun) / time) := by
  obtain ⟨count, calls, least, ⟨pending, _⟩ | ⟨_, calling, _⟩⟩ := regular.progress
  · have most := punctual.idle idle t _ _ pending
    have whole : ((w t).elapsed - begun) / time = count := by
      rw [Nat.max_eq_left (Nat.succ_le_of_lt positive)] at most
      refine Nat.div_eq_of_lt_le (by omega) ?_
      rw [Nat.add_mul, Nat.one_mul]
      omega
    rw [whole, calls]
  · cases idle.symm.trans calling

end Watch

end Library
