import Mathlib.Data.BitVec
import DetectBoard.Library.AlarmClock

/-! The hard timers of the kernel, `timer.c`.

The tick counter has 32 bits and runs over. A list holds the timers that are
active, sorted by comparisons of timeouts modulo the counter, and the clock
interrupt calls those at its head whose timeouts have come. The callbacks run
with interrupts disabled. `RT_TIMER_SKIP_LIST_LEVEL` is 1.
-/

set_option autoImplicit false

namespace DetectBoard.Kernel

open Library

def rtTickMax : BitVec 32 := 0xffffffff

/-- A timer as `rt_timer_init` sets it, which asserts the bound. -/
structure RtTimer where
  periodic : Bool
  activated : Bool
  initTick : BitVec 32
  timeoutTick : BitVec 32
  bound : initTick < rtTickMax / 2

def RtTimer.init (time : BitVec 32) (periodic : Bool) (bound : time < rtTickMax / 2) : RtTimer :=
  ⟨periodic, false, time, 0, bound⟩

inductive TimerPhase (τ : Type) where
  | outside
  /-- The clock interrupt has counted, and `rt_timer_check` has not yet disabled the interrupts. -/
  | ticked
  | checking
  | calling (t : τ)
  deriving DecidableEq, Repr

structure TimerSystem (τ : Type) where
  rtTick : BitVec 32
  timer : τ → RtTimer
  timerList : List τ
  /-- The list in `rt_timer_check` in which the timer is while its callback runs. -/
  temporary : List τ
  phase : TimerPhase τ

/-- No timer has been started. -/
def TimerSystem.start {τ : Type} (rtTick : BitVec 32) (timer : τ → RtTimer) : TimerSystem τ :=
  ⟨rtTick, fun t => { timer t with activated := false }, [], [], .outside⟩

/-- The walk along the list in `rt_timer_start`, which stops before the first timer with a later timeout. -/
def timerInsert {τ : Type} (timeoutTick : τ → BitVec 32) (t : τ) : List τ → List τ
  | [] => [t]
  | next :: rest =>
    if timeoutTick next - timeoutTick t = 0 then next :: timerInsert timeoutTick t rest
    else if timeoutTick next - timeoutTick t < rtTickMax / 2 then t :: next :: rest
    else next :: timerInsert timeoutTick t rest

namespace TimerSystem

variable {τ : Type} [DecidableEq τ] (s : TimerSystem τ)

def set (t : τ) (timer : RtTimer) : TimerSystem τ := { s with timer := Function.update s.timer t timer }

/-- The node of the timer is in one of the two lists at most. -/
def timerRemove (t : τ) : TimerSystem τ :=
  { s with
    timerList := s.timerList.filter fun u => decide (u ≠ t)
    temporary := s.temporary.filter fun u => decide (u ≠ t) }

def rtTimerStart (t : τ) : TimerSystem τ :=
  let s := s.timerRemove t
  let s := s.set t { s.timer t with activated := true, timeoutTick := s.rtTick + (s.timer t).initTick }
  { s with timerList := timerInsert (fun u => (s.timer u).timeoutTick) t s.timerList }

/-- `rt_timer_detach` and `rt_timer_delete` -/
def rtTimerDetach (t : τ) : TimerSystem τ := (s.timerRemove t).set t { s.timer t with activated := false }

def rtTimerStop (t : τ) : TimerSystem τ × List (AlarmReport τ) :=
  if (s.timer t).activated then (s.rtTimerDetach t, [.stopped t]) else (s, [.refused t])

/-- The head of the loop in `rt_timer_check`, up to the call. -/
def timerCheckHead : TimerSystem τ × List (AlarmReport τ) :=
  match s.timerList with
  | [] => ({ s with phase := .outside }, [])
  | t :: _ =>
    if s.rtTick - (s.timer t).timeoutTick < rtTickMax / 2 then
      let s := s.timerRemove t
      let s := if (s.timer t).periodic then s else s.set t { s.timer t with activated := false }
      ({ s with temporary := t :: s.temporary, phase := .calling t }, [.entered t])
    else ({ s with phase := .outside }, [])

/-- The rest of the loop, after the call. -/
def timerCheckReturn (t : τ) : TimerSystem τ × List (AlarmReport τ) :=
  -- the callback has started or detached the timer
  if s.temporary = [] then ({ s with phase := .checking }, [.exited t])
  else
    let s := { s with temporary := s.temporary.filter fun u => decide (u ≠ t) }
    if (s.timer t).periodic && (s.timer t).activated then
      ({ s.rtTimerStart t with phase := .checking }, [.exited t, .started t (s.timer t).initTick.toNat])
    else ({ s with phase := .checking }, [.exited t])

end TimerSystem

inductive TimerEvent (τ : Type) where
  | start (t : τ)
  | stop (t : τ)
  /-- The part of `rt_timer_stop` behind its check, where an interrupt has come between the two. -/
  | stopRest (t : τ)
  | detach (t : τ)
  /-- `RT_TIMER_CTRL_SET_TIME`, and so on. -/
  | setTime (t : τ) (time : BitVec 32)
  | setOneshot (t : τ)
  | setPeriodic (t : τ)
  | tick
  | check
  | head
  | finish
  deriving DecidableEq, Repr

section Machine

variable {τ : Type} [DecidableEq τ]

/-- Threads, interrupts and callbacks call the timer functions at any time, but not while `rt_timer_check` keeps the
interrupts disabled between two callbacks. -/
def timerStep (s : TimerSystem τ) : TimerEvent τ → Option (TimerSystem τ × List (AlarmReport τ))
  | .start t =>
    if s.phase = .checking then none else some (s.rtTimerStart t, [.started t (s.timer t).initTick.toNat])
  | .stop t => if s.phase = .checking then none else some (s.rtTimerStop t)
  | .stopRest t => if s.phase = .checking then none else some (s.rtTimerDetach t, [.stopped t])
  | .detach t => if s.phase = .checking then none else some (s.rtTimerDetach t, [.detached t])
  | .setTime t time =>
    if s.phase = .checking then none
    else if bound : time < rtTickMax / 2 then some (s.set t { s.timer t with initTick := time, bound }, [])
    -- the assertion fails
    else none
  | .setOneshot t => if s.phase = .checking then none else some (s.set t { s.timer t with periodic := false }, [])
  | .setPeriodic t => if s.phase = .checking then none else some (s.set t { s.timer t with periodic := true }, [])
  | .tick =>
    if s.phase = .outside then some ({ s with rtTick := s.rtTick + 1, phase := .ticked }, [.ticked]) else none
  | .check => if s.phase = .ticked then some ({ s with phase := .checking }, []) else none
  | .head => if s.phase = .checking then some s.timerCheckHead else none
  | .finish =>
    match s.phase with
    | .calling t => some (s.timerCheckReturn t)
    | _ => none

def timerMachine (τ : Type) [DecidableEq τ] : Machine (TimerSystem τ) (TimerEvent τ) (List (AlarmReport τ)) :=
  ⟨timerStep⟩

end Machine

abbrev TimerEntry (τ : Type) := Entry (TimerSystem τ) (TimerEvent τ) (List (AlarmReport τ))

/-! ## Timeouts modulo the counter -/

theorem lt_half_iff {a b : BitVec 32} {d e : ℕ} (left : a.toNat = d % 2 ^ 32) (right : b.toNat = e % 2 ^ 32)
    (late : d < e + (2 ^ 31 - 1)) (early : e ≤ d + (2 ^ 31 - 1)) : a - b < rtTickMax / 2 ↔ e ≤ d := by
  have half : (rtTickMax / 2).toNat = 2 ^ 31 - 1 := by decide
  rw [BitVec.lt_def, half, BitVec.toNat_sub, left, right]
  omega

theorem sub_eq_zero_iff {a b : BitVec 32} {d e : ℕ} (left : a.toNat = d % 2 ^ 32) (right : b.toNat = e % 2 ^ 32)
    (late : d < e + (2 ^ 31 - 1)) (early : e ≤ d + (2 ^ 31 - 1)) : a - b = 0 ↔ d = e := by
  have zero : (0 : BitVec 32).toNat = 0 := rfl
  rw [← BitVec.toNat_inj, zero, BitVec.toNat_sub, left, right]
  omega

/-- In the range of the timeouts that can be in the list, the walk finds the place behind those that come no later. -/
theorem timerInsert_map {τ : Type} {timeoutTick : τ → BitVec 32} {t : τ} {now due : ℕ} {list : List (τ × ℕ)}
    (self : (timeoutTick t).toNat = due % 2 ^ 32) (least : now ≤ due) (most : due < now + (2 ^ 31 - 1))
    (timeouts : ∀ u other, (u, other) ∈ list → (timeoutTick u).toNat = other % 2 ^ 32)
    (range : ∀ u other, (u, other) ∈ list → other < now + (2 ^ 31 - 1) ∧ now ≤ other + 1) :
    timerInsert timeoutTick t (list.map Prod.fst) = (insertLast (t, due) list).map Prod.fst := by
  induction list with
  | nil => rfl
  | cons first rest ih =>
    obtain ⟨u, other⟩ := first
    have rest' := ih (fun u other member => timeouts u other (by simp [member]))
      fun u other member => range u other (by simp [member])
    obtain ⟨before, after⟩ := range u other (by simp)
    have timeout := timeouts u other (by simp)
    have same := sub_eq_zero_iff timeout self (by omega) (by omega)
    have later := lt_half_iff timeout self (by omega) (by omega)
    simp only [List.map_cons, timerInsert, insertLast, same, later, rest']
    by_cases equal : other = due
    · simp [equal]
    · by_cases less : due ≤ other
      · have behind : ¬ other ≤ due := by omega
        simp [equal, less, behind]
      · have ahead : other ≤ due := by omega
        simp [equal, less, ahead]

/-! ## The list against the alarm clock -/

section Refinement

variable {τ : Type} [DecidableEq τ]

def TimerEvent.view : TimerEvent τ → AlarmEvent τ
  | .start t => .start t
  | .stop t => .stop t
  | .stopRest t => .stopRest t
  | .detach t => .detach t
  | .setTime t time => .setTime t time.toNat
  | .setOneshot t => .setRepeats t false
  | .setPeriodic t => .setRepeats t true
  | .tick => .tick
  | .check => .check
  | .head => .head
  | .finish => .finish

def RtTimer.setting (timer : RtTimer) : AlarmSetting := ⟨timer.initTick.toNat, timer.periodic, timer.activated⟩

/-- The clock that a state without started timers stands for. -/
def TimerSystem.clock (s : TimerSystem τ) : AlarmClock τ := ⟨s.rtTick.toNat, fun t => (s.timer t).setting, [], .idle⟩

inductive SamePhase : TimerPhase τ → List τ → AlarmPhase τ → Prop where
  | outside : SamePhase .outside [] .idle
  | ticked : SamePhase .ticked [] .ticked
  | checking : SamePhase .checking [] .checking
  | linked (t : τ) : SamePhase (.calling t) [t] (.calling t true)
  | unlinked (t : τ) : SamePhase (.calling t) [] (.calling t false)

section Phases

omit [DecidableEq τ]

variable {phase : TimerPhase τ} {temporary : List τ} {mode : AlarmPhase τ}

theorem SamePhase.checking_iff (same : SamePhase phase temporary mode) : phase = .checking ↔ mode = .checking := by
  cases same <;> simp

theorem SamePhase.ticked_iff (same : SamePhase phase temporary mode) : phase = .ticked ↔ mode = .ticked := by
  cases same <;> simp

theorem SamePhase.outside_iff (same : SamePhase phase temporary mode) : phase = .outside ↔ mode = .idle := by
  cases same <;> simp

theorem SamePhase.unlisted (same : SamePhase phase temporary mode) (busy : ∀ t, phase ≠ .calling t) :
    temporary = [] := by
  cases same with
  | outside | ticked | checking => rfl
  | linked t | unlinked t => exact absurd rfl (busy t)

theorem SamePhase.calling {t : τ} (same : SamePhase phase temporary mode) (calls : phase = .calling t) :
    ∃ linked, mode = .calling t linked := by
  cases same with
  | outside | ticked | checking => cases calls
  | linked | unlinked =>
    cases calls
    exact ⟨_, rfl⟩

end Phases

/-- The invariant. The timer list holds the alarms sorted by their true deadlines, all of them near enough to the clock
for the comparisons modulo the counter. -/
structure Mirrors (s : TimerSystem τ) (c : AlarmClock τ) (list : List (τ × ℕ)) : Prop where
  tick : s.rtTick.toNat = c.now % 2 ^ 32
  setting : ∀ t, c.setting t = (s.timer t).setting
  timerList : s.timerList = list.map Prod.fst
  ordered : Ordered list c.armed
  timeout : ∀ t due, (t, due) ∈ list → (s.timer t).timeoutTick.toNat = due % 2 ^ 32
  range : ∀ t due, (t, due) ∈ list → due < c.now + (2 ^ 31 - 1) ∧ c.now ≤ due + 1
  idle : c.phase = .idle → ∀ t due, (t, due) ∈ list → c.now ≤ due
  phase : SamePhase s.phase s.temporary c.phase

variable {s : TimerSystem τ} {c : AlarmClock τ} {list : List (τ × ℕ)}

theorem RtTimer.time_lt (timer : RtTimer) : timer.initTick.toNat < 2 ^ 31 - 1 := by
  have half : (rtTickMax / 2).toNat = 2 ^ 31 - 1 := by decide
  rw [← half]
  exact BitVec.lt_def.mp timer.bound

omit [DecidableEq τ] in
theorem Mirrors.count (mirrors : Mirrors s c list) (idle : c.phase = .idle) :
    Mirrors { s with rtTick := s.rtTick + 1, phase := .ticked } { c with now := c.now + 1, phase := .ticked } list := by
  have empty := mirrors.phase.unlisted (by simp [mirrors.phase.outside_iff.mpr idle])
  refine ⟨?_, mirrors.setting, mirrors.timerList, mirrors.ordered, mirrors.timeout, fun t due member => ?_, nofun,
    empty ▸ .ticked⟩
  · have one : (1 : BitVec 32).toNat = 1 := rfl
    rw [BitVec.toNat_add, one, mirrors.tick, Nat.mod_add_mod]
  · have near := mirrors.range t due member
    have ahead := mirrors.idle idle t due member
    exact ⟨by simp only; omega, by simp only; omega⟩

theorem Mirrors.set (mirrors : Mirrors s c list) (t : τ) (timer : RtTimer)
    (timeout : ∀ due, (t, due) ∈ list → timer.timeoutTick.toNat = due % 2 ^ 32) :
    Mirrors (s.set t timer) (c.set t timer.setting) list := by
  refine ⟨mirrors.tick, fun u => ?_, mirrors.timerList, mirrors.ordered, fun u due member => ?_, mirrors.range,
    mirrors.idle, mirrors.phase⟩
  · by_cases same : u = t
    · subst same
      simp [TimerSystem.set, AlarmClock.set]
    · simp [TimerSystem.set, AlarmClock.set, Function.update_of_ne same, mirrors.setting]
  · by_cases same : u = t
    · subst same
      simpa [TimerSystem.set] using timeout due member
    · simpa [TimerSystem.set, Function.update_of_ne same] using mirrors.timeout u due member

theorem SamePhase.unlink {phase : TimerPhase τ} {temporary : List τ}
    (same : SamePhase phase temporary c.phase) (t : τ) :
    SamePhase phase (temporary.filter fun u => decide (u ≠ t)) (c.unlink t) := by
  unfold AlarmClock.unlink
  generalize c.phase = mode at same
  cases same with
  | outside => exact .outside
  | ticked => exact .ticked
  | checking => exact .checking
  | unlinked u => exact .unlinked u
  | linked u =>
    by_cases other : u = t
    · simpa [other] using SamePhase.unlinked t
    · simpa [other] using SamePhase.linked u

theorem Mirrors.remove (mirrors : Mirrors s c list) (t : τ) :
    Mirrors (s.timerRemove t) { c with armed := c.without t, phase := c.unlink t }
      (list.filter fun alarm => decide (alarm.1 ≠ t)) := by
  refine ⟨mirrors.tick, mirrors.setting, ?_, mirrors.ordered.filter _, fun u due member => ?_, fun u due member => ?_,
    fun idle u due member => ?_, mirrors.phase.unlink t⟩
  · rw [TimerSystem.timerRemove, mirrors.timerList, List.filter_map]
    rfl
  · exact mirrors.timeout u due (List.mem_filter.mp member).1
  · exact mirrors.range u due (List.mem_filter.mp member).1
  · exact mirrors.idle (AlarmClock.unlink_idle.mp idle) u due (List.mem_filter.mp member).1

omit [DecidableEq τ] in
theorem Mirrors.insert (mirrors : Mirrors s c list) {t : τ} {due : ℕ}
    (timeout : (s.timer t).timeoutTick.toNat = due % 2 ^ 32) (least : c.now ≤ due)
    (most : due < c.now + (2 ^ 31 - 1)) :
    Mirrors { s with timerList := timerInsert (fun u => (s.timer u).timeoutTick) t s.timerList }
      { c with armed := c.armed ++ [(t, due)] } (insertLast (t, due) list) := by
  refine ⟨mirrors.tick, mirrors.setting, ?_, mirrors.ordered.insertLast _, fun u other member => ?_,
    fun u other member => ?_, fun idle u other member => ?_, mirrors.phase⟩
  · rw [mirrors.timerList]
    exact timerInsert_map timeout least most mirrors.timeout mirrors.range
  · rcases mem_insertLast.mp member with same | old
    · obtain ⟨rfl, rfl⟩ := Prod.mk.inj same
      exact timeout
    · exact mirrors.timeout u other old
  · rcases mem_insertLast.mp member with same | old
    · obtain ⟨rfl, rfl⟩ := Prod.mk.inj same
      exact ⟨most, Nat.le_succ_of_le least⟩
    · exact mirrors.range u other old
  · rcases mem_insertLast.mp member with same | old
    · obtain ⟨rfl, rfl⟩ := Prod.mk.inj same
      exact least
    · exact mirrors.idle idle u other old

theorem not_mem_without {t : τ} {due : ℕ} : (t, due) ∉ list.filter fun alarm => decide (alarm.1 ≠ t) := by
  simp

theorem Mirrors.detach (mirrors : Mirrors s c list) (t : τ) :
    Mirrors (s.rtTimerDetach t) (c.cancel t) (list.filter fun alarm => decide (alarm.1 ≠ t)) := by
  have removed := (mirrors.remove t).set t { s.timer t with activated := false }
    fun due member => absurd member not_mem_without
  have setting : (RtTimer.setting { s.timer t with activated := false }) = { c.setting t with active := false } := by
    rw [mirrors.setting]
    rfl
  rw [setting] at removed
  exact removed

theorem Mirrors.start (mirrors : Mirrors s c list) (t : τ) :
    Mirrors (s.rtTimerStart t) (c.start t)
      (insertLast (t, c.now + (c.setting t).time) (list.filter fun alarm => decide (alarm.1 ≠ t))) := by
  have time : (c.setting t).time = (s.timer t).initTick.toNat := by
    rw [mirrors.setting]
    rfl
  have bound := (s.timer t).time_lt
  have now := mirrors.tick
  have removed := (mirrors.remove t).set t
    { s.timer t with activated := true, timeoutTick := s.rtTick + (s.timer t).initTick }
    fun due member => absurd member not_mem_without
  have inserted := removed.insert (t := t) ?_ (Nat.le_add_right c.now (c.setting t).time) ?_
  · have setting : (RtTimer.setting
        { s.timer t with activated := true, timeoutTick := s.rtTick + (s.timer t).initTick }) =
        { c.setting t with active := true } := by
      rw [mirrors.setting]
      rfl
    rw [setting] at inserted
    exact inserted
  · simp only [TimerSystem.set, Function.update_self, BitVec.toNat_add, time]
    omega
  · rw [time]
    exact Nat.add_lt_add_left bound _

omit [DecidableEq τ] in
theorem Mirrors.enter (mirrors : Mirrors s c list) {phase : TimerPhase τ} {temporary : List τ} {mode : AlarmPhase τ}
    (same : SamePhase phase temporary mode) (idle : mode = .idle → ∀ t due, (t, due) ∈ list → c.now ≤ due) :
    Mirrors { s with temporary, phase } { c with phase := mode } list :=
  ⟨mirrors.tick, mirrors.setting, mirrors.timerList, mirrors.ordered, mirrors.timeout, mirrors.range, idle, same⟩

omit [DecidableEq τ] in
theorem Mirrors.looks (mirrors : Mirrors s c list) :
    Mirrors { s with temporary := [], phase := .checking } { c with phase := .checking } list :=
  mirrors.enter .checking fun idle => by cases idle

omit [DecidableEq τ] in
theorem Mirrors.rest (mirrors : Mirrors s c list) (temporary : s.temporary = [])
    (later : ∀ t due, (t, due) ∈ list → c.now < due) :
    Mirrors { s with phase := .outside } { c with phase := .idle } list :=
  temporary ▸ mirrors.enter .outside fun _ t due member => (later t due member).le

theorem Mirrors.call (mirrors : Mirrors s c list) (t : τ) :
    Mirrors { (if (s.timer t).periodic then s.timerRemove t
        else (s.timerRemove t).set t { s.timer t with activated := false }) with temporary := [t], phase := .calling t }
      (c.call t) (list.filter fun alarm => decide (alarm.1 ≠ t)) := by
  have removed := mirrors.remove t
  have setting := mirrors.setting t
  split
  · next periodic =>
    have same : { c.setting t with active := (c.setting t).active && (c.setting t).repeats } = c.setting t := by
      simp [setting, RtTimer.setting, periodic]
    have called := removed.enter (.linked t) nofun
    rw [AlarmClock.call, same, AlarmClock.set, Function.update_eq_self]
    exact called
  · next oneshot =>
    have called := (removed.set t { s.timer t with activated := false } fun due member =>
      absurd member not_mem_without).enter (.linked t) nofun
    have same : { c.setting t with active := (c.setting t).active && (c.setting t).repeats } =
        RtTimer.setting { s.timer t with activated := false } := by
      simp [setting, RtTimer.setting, oneshot]
    rw [AlarmClock.call, same]
    exact called

theorem timerCheckHead_eq {t : τ} {rest : List τ} (first : s.timerList = t :: rest) (empty : s.temporary = []) :
    s.timerCheckHead = if s.rtTick - (s.timer t).timeoutTick < rtTickMax / 2 then
        ({ (if (s.timer t).periodic then s.timerRemove t
          else (s.timerRemove t).set t { s.timer t with activated := false }) with
            temporary := [t], phase := .calling t }, [.entered t])
      else ({ s with phase := .outside }, []) := by
  have removed : (s.timerRemove t).temporary = [] := by simp [TimerSystem.timerRemove, empty]
  have timer : (s.timerRemove t).timer = s.timer := rfl
  unfold TimerSystem.timerCheckHead
  rw [first]
  by_cases periodic : (s.timer t).periodic = true
  · simp only [timer, periodic, if_true, removed]
  · simp only [timer, periodic, Bool.false_eq_true, if_false, TimerSystem.set, removed]

/-- The head of the list has come due exactly where the earliest alarm has. -/
theorem Mirrors.head (mirrors : Mirrors s c list) (checking : c.phase = .checking) :
    ∃ next, c.head = (next, s.timerCheckHead.2) ∧ ∃ list', Mirrors s.timerCheckHead.1 next list' := by
  have looks := mirrors.phase.checking_iff.mpr checking
  have empty := mirrors.phase.unlisted (by simp [looks])
  have earliest := mirrors.ordered.head?_eq
  have timerList := mirrors.timerList
  unfold AlarmClock.head
  cases list with
  | nil =>
    have head : s.timerCheckHead = ({ s with phase := .outside }, []) := by
      simp [TimerSystem.timerCheckHead, timerList]
    rw [← earliest, head]
    exact ⟨_, rfl, _, mirrors.rest empty (by simp)⟩
  | cons first rest =>
    obtain ⟨t, due⟩ := first
    have range := mirrors.range t due (by simp)
    have reached : s.rtTick - (s.timer t).timeoutTick < rtTickMax / 2 ↔ due ≤ c.now :=
      lt_half_iff mirrors.tick (mirrors.timeout t due (by simp)) (by omega) (by omega)
    rw [← earliest, timerCheckHead_eq timerList empty]
    simp only [List.head?_cons, reached]
    split
    · exact ⟨_, rfl, _, mirrors.call t⟩
    · next later =>
      refine ⟨_, rfl, _, mirrors.rest empty fun u other member => ?_⟩
      have least := (earliest_some earliest.symm).2 (u, other) ((mirrors.ordered.mem_iff _).mp member)
      exact Nat.lt_of_lt_of_le (Nat.lt_of_not_le later) least

theorem Mirrors.finish (mirrors : Mirrors s c list) {t : τ} {linked : Bool} (calling : c.phase = .calling t linked) :
    s.phase = .calling t ∧ ∃ next, c.finish t linked = (next, (s.timerCheckReturn t).2) ∧
      ∃ list', Mirrors (s.timerCheckReturn t).1 next list' := by
  have setting := mirrors.setting t
  have same := mirrors.phase
  rw [calling] at same
  generalize temporary : s.temporary = listed at same
  generalize phase : s.phase = mode at same
  cases same with
  | unlinked =>
    have returned : s.timerCheckReturn t = ({ s with phase := .checking }, [.exited t]) := by
      simp [TimerSystem.timerCheckReturn, temporary]
    rw [returned]
    exact ⟨rfl, _, by simp [AlarmClock.finish], list, temporary ▸ mirrors.looks⟩
  | linked =>
    have unlisted := mirrors.looks
    have restarts : ((c.setting t).repeats && (c.setting t).active) =
        ((s.timer t).periodic && (s.timer t).activated) := by
      rw [setting]
      rfl
    unfold AlarmClock.finish TimerSystem.timerCheckReturn
    simp only [temporary, List.cons_ne_nil, if_false, Bool.true_and, restarts]
    have filtered : [t].filter (fun u => decide (u ≠ t)) = [] := by simp
    simp only [filtered]
    split
    · have started := (unlisted.start t).looks
      have time : (c.setting t).time = (s.timer t).initTick.toNat := by
        rw [setting]
        rfl
      exact ⟨trivial, { c.start t with phase := .checking }, by rw [time], _, started⟩
    · exact ⟨trivial, _, rfl, list, unlisted⟩

/-- The step lemma. -/
theorem Mirrors.simulate {event : TimerEvent τ} {s' : TimerSystem τ} {reports : List (AlarmReport τ)}
    (mirrors : Mirrors s c list) (taken : timerStep s event = some (s', reports)) :
    ∃ next, alarmStep c event.view = some (next, reports) ∧ ∃ list', Mirrors s' next list' := by
  have setting := mirrors.setting
  have same := mirrors.phase
  cases event with
  | start t =>
    simp only [timerStep, same.checking_iff] at taken
    split at taken
    · cases taken
    · next free =>
      obtain ⟨rfl, rfl⟩ := Prod.mk.inj (Option.some.inj taken)
      simp only [TimerEvent.view, alarmStep, free, if_false, setting]
      exact ⟨_, rfl, _, mirrors.start t⟩
  | stop t =>
    simp only [timerStep, same.checking_iff] at taken
    split at taken
    · cases taken
    · next free =>
      have active : (c.setting t).active = (s.timer t).activated := by
        rw [setting]
        rfl
      simp only [TimerSystem.rtTimerStop] at taken
      simp only [TimerEvent.view, alarmStep, free, if_false, active]
      split at taken
      · next activated =>
        obtain ⟨rfl, rfl⟩ := Prod.mk.inj (Option.some.inj taken)
        exact ⟨_, if_pos activated, _, mirrors.detach t⟩
      · next inactive =>
        obtain ⟨rfl, rfl⟩ := Prod.mk.inj (Option.some.inj taken)
        exact ⟨_, if_neg inactive, _, mirrors⟩
  | stopRest t | detach t =>
    simp only [timerStep, same.checking_iff] at taken
    split at taken
    · cases taken
    · next free =>
      obtain ⟨rfl, rfl⟩ := Prod.mk.inj (Option.some.inj taken)
      simp only [TimerEvent.view, alarmStep, free, if_false]
      exact ⟨_, rfl, _, mirrors.detach t⟩
  | setTime t time =>
    simp only [timerStep, same.checking_iff] at taken
    split at taken
    · cases taken
    · next free =>
      split at taken
      · next bound =>
        obtain ⟨rfl, rfl⟩ := Prod.mk.inj (Option.some.inj taken)
        simp only [TimerEvent.view, alarmStep, free, if_false, setting]
        exact ⟨_, rfl, _, mirrors.set t { s.timer t with initTick := time, bound } (mirrors.timeout t)⟩
      · cases taken
  | setOneshot t =>
    simp only [timerStep, same.checking_iff] at taken
    split at taken
    · cases taken
    · next free =>
      obtain ⟨rfl, rfl⟩ := Prod.mk.inj (Option.some.inj taken)
      simp only [TimerEvent.view, alarmStep, free, if_false, setting]
      exact ⟨_, rfl, _, mirrors.set t { s.timer t with periodic := false } (mirrors.timeout t)⟩
  | setPeriodic t =>
    simp only [timerStep, same.checking_iff] at taken
    split at taken
    · cases taken
    · next free =>
      obtain ⟨rfl, rfl⟩ := Prod.mk.inj (Option.some.inj taken)
      simp only [TimerEvent.view, alarmStep, free, if_false, setting]
      exact ⟨_, rfl, _, mirrors.set t { s.timer t with periodic := true } (mirrors.timeout t)⟩
  | tick =>
    simp only [timerStep, same.outside_iff] at taken
    split at taken
    · next idle =>
      obtain ⟨rfl, rfl⟩ := Prod.mk.inj (Option.some.inj taken)
      simp only [TimerEvent.view, alarmStep, idle, if_true]
      exact ⟨_, rfl, _, mirrors.count idle⟩
    · cases taken
  | check =>
    simp only [timerStep, same.ticked_iff] at taken
    split at taken
    · next ticked =>
      obtain ⟨rfl, rfl⟩ := Prod.mk.inj (Option.some.inj taken)
      simp only [TimerEvent.view, alarmStep, ticked, if_true]
      have empty := same.unlisted (by simp [same.ticked_iff.mpr ticked])
      exact ⟨_, rfl, _, empty ▸ mirrors.looks⟩
    · cases taken
  | head =>
    simp only [timerStep, same.checking_iff] at taken
    split at taken
    · next checking =>
      obtain ⟨next, stepped, after⟩ := mirrors.head checking
      rw [Option.some.inj taken] at stepped after
      simp only [TimerEvent.view, alarmStep, checking, if_true, stepped]
      exact ⟨next, rfl, after⟩
    · cases taken
  | finish =>
    simp only [timerStep] at taken
    split at taken
    · next t calls =>
      obtain ⟨linked, calling⟩ := same.calling calls
      obtain ⟨_, next, stepped, after⟩ := mirrors.finish calling
      rw [Option.some.inj taken] at stepped after
      simp only [TimerEvent.view, alarmStep, calling, stepped]
      exact ⟨next, rfl, after⟩
    · cases taken

omit [DecidableEq τ] in
theorem mirrors_start (rtTick : BitVec 32) (timer : τ → RtTimer) :
    Mirrors (.start rtTick timer) (TimerSystem.start rtTick timer).clock [] :=
  ⟨(Nat.mod_eq_of_lt rtTick.isLt).symm, fun _ => rfl, rfl, .nil, nofun, nofun, fun _ => nofun, .outside⟩

variable {rtTick : BitVec 32} {timer : τ → RtTimer} {pre entries rest : List (TimerEntry τ)} {first : TimerEntry τ}

/-- The timers do what alarms on a clock that does not run over do: of the timers whose times have come, the one that
is due first is called first, and of those that are due at once the one that was started first. -/
theorem timers_refine (run : (timerMachine τ).Run (.start rtTick timer) entries s) :
    (alarmMachine τ).Refines TimerEvent.view (TimerSystem.start rtTick timer).clock entries :=
  run.refines (fun s c => ∃ list, Mirrors s c list) ⟨_, mirrors_start rtTick timer⟩
    fun _ _ taken _ ⟨_, before⟩ => before.simulate taken

theorem punctual_timers (run : (timerMachine τ).Run (.start rtTick timer) entries s) :
    ∃ c list, Mirrors s c list ∧ Punctual rtTick.toNat c fun t => watch t (allReports entries) := by
  have initial := Punctual.initial (TimerSystem.start rtTick timer).clock rfl
  refine run.history (fun entries s => ∃ c list, Mirrors s c list ∧
    Punctual rtTick.toNat c fun t => watch t (allReports entries)) ⟨_, _, mirrors_start rtTick timer, initial⟩ ?_
  rintro pre entry _ taken ⟨c, list, mirrors, punctual⟩
  obtain ⟨next, stepped, list', after⟩ := mirrors.simulate taken
  simp only [watch_allReports_snoc]
  exact ⟨next, list', after, (punctual.step stepped).1⟩

/-- A timer is called when its time has passed since it was started, at the very tick; where its time is zero, at the
next tick at the latest. None that has come due is left. -/
theorem timeout_on_time (run : (timerMachine τ).Run (.start rtTick timer) entries s) :
    Along (fun pre entry => ∀ t, .entered t ∈ entry.output → ∃ begun time,
        (watch t (allReports pre)).pending = some (begun, time) ∧ begun + time ≤ (watch t (allReports pre)).elapsed ∧
          (watch t (allReports pre)).elapsed ≤ begun + max time 1) entries ∧
      (s.phase = .outside → ∀ t begun time, (watch t (allReports entries)).pending = some (begun, time) →
        (watch t (allReports entries)).elapsed < begun + max time 1) := by
  constructor
  · rintro pre entry post rfl t entered
    obtain ⟨before, taken, _⟩ := run.reach
    obtain ⟨c, list, mirrors, punctual⟩ := punctual_timers before
    obtain ⟨next, stepped, _⟩ := mirrors.simulate taken
    obtain ⟨begun, time, pending, due⟩ := (punctual.step stepped).2 t entered
    exact ⟨begun, time, pending, due, punctual.late t begun time pending⟩
  · intro outside
    obtain ⟨c, list, mirrors, punctual⟩ := punctual_timers run
    exact punctual.idle (mirrors.phase.outside_iff.mp outside)

def TimerEvent.target : TimerEvent τ → Option τ
  | .start t | .stop t | .stopRest t | .detach t | .setTime t _ | .setOneshot t | .setPeriodic t => some t
  | .tick | .check | .head | .finish => none

omit [DecidableEq τ] in
theorem TimerEvent.view_target (event : TimerEvent τ) : event.view.target = event.target := by
  cases event <;> rfl

/-- A periodic timer that is started and then left alone is called at every multiple of its time, whatever happens to
the other timers in the meantime. -/
theorem periodic_timer {t : τ} (run : (timerMachine τ).Run (.start rtTick timer) (pre ++ first :: rest) s)
    (starts : first.input = .start t) (periodic : (first.before.timer t).periodic = true)
    (positive : 0 < (first.before.timer t).initTick) (alone : ∀ entry ∈ rest, entry.input.target ≠ some t)
    (outside : s.phase = .outside) :
    (watch t (allReports (pre ++ first :: rest))).calls = (watch t (allReports pre)).calls ++
      beats (watch t (allReports pre)).elapsed (first.before.timer t).initTick.toNat
        (((watch t (allReports (pre ++ first :: rest))).elapsed - (watch t (allReports pre)).elapsed) /
          (first.before.timer t).initTick.toNat) := by
  obtain ⟨reached, taken, later⟩ := run.reach
  have kept := later.history (fun rest s => (∀ entry ∈ rest, entry.input.target ≠ some t) →
    ∃ c list, Mirrors s c list ∧
      (Punctual rtTick.toNat c fun u => watch u (allReports (pre ++ first :: rest))) ∧
      Regular t (watch t (allReports pre)).elapsed (first.before.timer t).initTick.toNat (watch t (allReports pre)).calls c
        (watch t (allReports (pre ++ first :: rest)))) ?_ ?_
  · obtain ⟨c, list, mirrors, punctual, regular⟩ := kept alone
    exact Regular.rest (w := fun u => watch u (allReports (pre ++ first :: rest))) regular punctual
      (BitVec.lt_def.mp positive) (mirrors.phase.outside_iff.mp outside)
  · intro _
    obtain ⟨c, list, mirrors, punctual⟩ := punctual_timers reached
    obtain ⟨next, stepped, list', after⟩ := mirrors.simulate taken
    refine ⟨next, list', after, ?_, ?_⟩
    · simp only [watch_allReports_snoc]
      exact (punctual.step stepped).1
    · have setting := mirrors.setting t
      have time : (c.setting t).time = (first.before.timer t).initTick.toNat := by
        rw [setting]
        rfl
      have repeats : (c.setting t).repeats = true := by
        rw [setting]
        exact periodic
      rw [starts] at stepped
      simp only [TimerEvent.view, alarmStep] at stepped
      split at stepped
      · cases stepped
      · obtain ⟨rfl, output⟩ := Prod.mk.inj (Option.some.inj stepped)
        have begun := Regular.begin (w := fun u => watch u (allReports pre)) repeats
        rw [watch_allReports_snoc, ← output, ← time]
        exact begun
  · rintro earlier entry _ taken kept alone
    rw [List.forall_mem_append, List.forall_mem_singleton] at alone
    obtain ⟨c, list, mirrors, punctual, regular⟩ := kept alone.1
    obtain ⟨next, stepped, list', after⟩ := mirrors.simulate taken
    have apart : entry.input.view.target ≠ some t := by
      rw [TimerEvent.view_target]
      exact alone.2
    have whole : pre ++ first :: (earlier ++ [entry]) = (pre ++ first :: earlier) ++ [entry] := by simp
    simp only [whole, watch_allReports_snoc]
    exact ⟨next, list', after, (punctual.step stepped).1,
      Regular.step (w := fun u => watch u (allReports (pre ++ first :: earlier))) regular punctual
        (BitVec.lt_def.mp positive) stepped apart⟩

end Refinement

/-! ## A run in which the counter runs over -/

def overrunTimer : Bool → RtTimer
  | false => .init 2 true (by decide)
  | true => .init 3 false (by decide)

/-- The callback of the second timer starts it again. -/
def overrun : List (TimerEvent Bool) :=
  [.start false, .start true, .tick, .check, .head, .tick, .check, .head, .finish, .head,
    .tick, .check, .head, .start true, .finish, .head, .tick, .check, .head, .finish, .head]

theorem timers_refine_overrun :
    ∃ entries s, (timerMachine Bool).exec (.start 0xfffffffe overrunTimer) overrun = some (entries, s) ∧
      (alarmMachine Bool).Refines TimerEvent.view (TimerSystem.start 0xfffffffe overrunTimer).clock entries := by
  have done : (timerMachine Bool).exec (.start 0xfffffffe overrunTimer) overrun = some (_, _) := rfl
  exact ⟨_, _, done, timers_refine (Machine.exec_run done)⟩

theorem timeout_on_time_overrun :
    ∃ entries s, (timerMachine Bool).Run (.start 0xfffffffe overrunTimer) entries s ∧
      (watch false (allReports entries)).calls = [2, 4] ∧ (watch true (allReports entries)).calls = [3] ∧
      ∀ begun time, (watch true (allReports entries)).pending = some (begun, time) →
        (watch true (allReports entries)).elapsed < begun + max time 1 := by
  have checked : ((timerMachine Bool).exec (.start 0xfffffffe overrunTimer) overrun).map (fun done =>
      decide ((watch false (allReports done.1)).calls = [2, 4] ∧ (watch true (allReports done.1)).calls = [3] ∧
        done.2.phase = .outside)) = some true := by decide +kernel
  obtain ⟨⟨entries, s⟩, done, whole⟩ := Option.map_eq_some_iff.mp checked
  obtain ⟨first, second, outside⟩ := of_decide_eq_true whole
  have run := Machine.exec_run done
  exact ⟨entries, s, run, first, second, (timeout_on_time run).2 outside true⟩

theorem periodic_timer_overrun :
    ∃ entries s, (timerMachine Bool).Run (.start 0xfffffffe overrunTimer) entries s ∧
      (watch false (allReports entries)).elapsed = 4 ∧
        (watch false (allReports entries)).calls = beats 0 2 (4 / 2) := by
  have checked : ((timerMachine Bool).exec (.start 0xfffffffe overrunTimer) overrun).map (fun done =>
      decide ((watch false (allReports done.1)).elapsed = 4 ∧ done.2.phase = .outside)) = some true := by decide +kernel
  obtain ⟨⟨entries, s⟩, done, whole⟩ := Option.map_eq_some_iff.mp checked
  obtain ⟨elapsed, outside⟩ := of_decide_eq_true whole
  have run := Machine.exec_run done
  have inputs := Machine.exec_inputs done
  cases entries with
  | nil => cases inputs
  | cons first rest =>
    obtain ⟨starts, others⟩ := List.cons.inj inputs
    have split : (timerMachine Bool).Run (.start 0xfffffffe overrunTimer) ([] ++ first :: rest) s := run
    have before : first.before = .start 0xfffffffe overrunTimer := split.reach.1.nil_eq
    have alone : ∀ event ∈ overrun.tail, event.target ≠ some false := by decide
    have apart : ∀ entry ∈ rest, entry.input.target ≠ some false := fun entry member =>
      alone entry.input (by rw [overrun, List.tail_cons, ← others]; exact List.mem_map_of_mem member)
    have calls := periodic_timer split starts (by rw [before]; rfl) (by rw [before]; decide) apart outside
    refine ⟨_, s, run, elapsed, ?_⟩
    rw [List.nil_append, before, elapsed] at calls
    exact calls

end DetectBoard.Kernel
