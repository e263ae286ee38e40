import DetectBoard.Plate.ErrorState
import Mathlib.Data.Nat.Count

/-! How long an error is held after a measurement beyond the last limit.

The first test of a call compares the measurement without the factor 1000 that the filter and the
limits have, so that such a measurement starts the hold again only if it is a thousand times the limit.
-/

set_option autoImplicit false

namespace DetectBoard.Plate

open Library

/-- The inputs whose median the filter returns at the last of them: only that one, until there are eleven. -/
def filtered (inputs : List ℚ) : List ℚ := inputs.drop (inputs.length - if inputs.length < 11 then 1 else 11)

/-- What is filtered in the `n`th call after a measurement, if those calls measure nothing. -/
def ahead (earlier : List ℚ) (C : ℚ) (n : ℕ) : List ℚ := filtered (earlier ++ C * 1000 :: List.replicate n 0)

/-- That call has a low reading, and until then none is beyond the last limit. -/
def Reduces (earlier : List ℚ) (C : ℚ) (n : ℕ) : Prop :=
  MostlyBelow (negativePlateLimit3Low.toNat : ℚ) (ahead earlier C n) ∧
    ∀ i ≤ n, MostlyBelow ((negativePlateLimit3High + 1).toNat : ℚ) (ahead earlier C i)

instance (earlier : List ℚ) (C : ℚ) : DecidablePred (Reduces earlier C) :=
  fun _ => inferInstanceAs (Decidable (_ ∧ _))

/-- The measurement starts the hold again in its first test, or the hold has no fewer counts left than
ten calls can take, the first with this measurement. -/
def Outlasts (earlier : List ℚ) (C : ℚ) (errorReduce : UInt16) : Prop :=
  negativePlateLimit3High.toNat < C ∨ Nat.count (Reduces earlier C) 10 ≤ errorReduce.toNat

instance (earlier : List ℚ) (C : ℚ) (errorReduce : UInt16) : Decidable (Outlasts earlier C errorReduce) :=
  inferInstanceAs (Decidable (_ ∨ _))

/-! ## The counts that ten calls can take -/

section Spare

variable {earlier : List ℚ} {C : ℚ} {hold hold' n : ℕ}

theorem filtered_snoc (inputs : List ℚ) (input : ℚ) : filtered (inputs ++ [input]) ≠ [] := by
  rw [filtered, ne_eq, List.drop_eq_nil_iff, List.length_append, List.length_singleton]
  split <;> omega

theorem ahead_below {limit : ℚ} (positive : 0 < limit) {shown : List ℚ}
    (below : MostlyBelow limit (filtered (earlier ++ C * 1000 :: shown))) :
    MostlyBelow limit (ahead earlier C shown.length) := by
  have length : (earlier ++ C * 1000 :: List.replicate shown.length 0).length =
      (earlier ++ C * 1000 :: shown).length := by simp
  rw [filtered, List.append_cons earlier _ shown] at below
  rw [ahead, filtered, length, List.append_cons earlier _ shown, List.append_cons earlier _ (List.replicate _ _)]
  exact below.replicate positive

/-- The hold lasts through the tenth call, if so much of it is left before the `n`th. -/
def Spare (earlier : List ℚ) (C : ℚ) (hold n : ℕ) : Prop :=
  10 ≤ hold + n ∨ (∀ i < n, MostlyBelow ((negativePlateLimit3High + 1).toNat : ℚ) (ahead earlier C i)) ∧
    Nat.count (Reduces earlier C) 10 ≤ hold + Nat.count (Reduces earlier C) n

theorem Spare.mono (spare : Spare earlier C hold n) (le : hold ≤ hold') : Spare earlier C hold' n := by
  rcases spare with enough | ⟨calm, enough⟩
  · exact .inl (by omega)
  · exact .inr ⟨calm, by omega⟩

theorem Spare.neutral (spare : Spare earlier C hold n)
    (calm : MostlyBelow ((negativePlateLimit3High + 1).toNat : ℚ) (ahead earlier C n)) :
    Spare earlier C hold (n + 1) := by
  rcases spare with enough | ⟨before, enough⟩
  · exact .inl (by omega)
  · have more : Nat.count (Reduces earlier C) n ≤ Nat.count (Reduces earlier C) (n + 1) :=
      Nat.count_monotone _ (Nat.le_succ n)
    refine .inr ⟨fun i less => ?_, by omega⟩
    exact (Nat.lt_succ_iff_lt_or_eq.mp less).elim (before i) fun same => same ▸ calm

theorem Spare.low (spare : Spare earlier C hold n) (inside : n < 10)
    (calm : MostlyBelow ((negativePlateLimit3High + 1).toNat : ℚ) (ahead earlier C n))
    (low : MostlyBelow (negativePlateLimit3Low.toNat : ℚ) (ahead earlier C n)) :
    ∃ left, hold = left + 1 ∧ Spare earlier C left (n + 1) := by
  rcases spare with enough | ⟨before, enough⟩
  · exact ⟨hold - 1, by omega, .inl (by omega)⟩
  · -- this call takes one of the counts
    have calm' : ∀ i < n + 1, MostlyBelow ((negativePlateLimit3High + 1).toNat : ℚ) (ahead earlier C i) :=
      fun i less => (Nat.lt_succ_iff_lt_or_eq.mp less).elim (before i) fun same => same ▸ calm
    have taken : Nat.count (Reduces earlier C) (n + 1) = Nat.count (Reduces earlier C) n + 1 := by
      rw [Nat.count_succ, if_pos ⟨low, fun i le => calm' i (Nat.lt_succ_of_le le)⟩]
    have most : Nat.count (Reduces earlier C) (n + 1) ≤ Nat.count (Reduces earlier C) 10 :=
      Nat.count_monotone _ inside
    exact ⟨hold - 1, by omega, .inr ⟨calm', by omega⟩⟩

end Spare

section Step

variable {earlier : List ℚ} {C : ℚ} {n : ℕ} {entry : PlateEntry}

theorem LcrTask.Sound.le_again {p : LcrTask} (sound : p.Sound) (C : ℚ) :
    p.errorReduce.toNat ≤ (p.holdAgain C).toNat := by
  unfold LcrTask.holdAgain
  split
  · exact UInt16.le_iff_toNat_le.mp sound.held.bound
  · exact le_refl _

theorem calm_iff : reading entry ≤ negativePlateLimit3High ↔ reading entry < negativePlateLimit3High + 1 := by
  rw [UInt32.le_iff_toNat_le, UInt32.lt_iff_toNat_lt]
  exact Nat.lt_succ_iff.symm

theorem Spare.step (taken : plateMachine.Takes entry) (sound : entry.before.Sound)
    (error : entry.before.negState = .error) (inside : n < 10)
    (spare : Spare earlier C (entry.before.holdAgain entry.input.C).toNat n)
    (calm : reading entry < negativePlateLimit3High + 1 →
      MostlyBelow ((negativePlateLimit3High + 1).toNat : ℚ) (ahead earlier C n))
    (reduces : reading entry < negativePlateLimit3Low →
      MostlyBelow (negativePlateLimit3Low.toNat : ℚ) (ahead earlier C n)) :
    entry.after.negState = .error ∧ Spare earlier C entry.after.errorReduce.toNat (n + 1) := by
  by_cases raised : negativePlateLimit3High < reading entry
  · have raise := CountsDown.raise taken sound raised
    refine ⟨raise.error, .inl ?_⟩
    have left := raise.left
    have whole : negativePlateErrorReduce.toNat = 10 := rfl
    omega
  · have step := error_step taken sound error (UInt32.not_lt.mp raised)
    have calm := calm (calm_iff.mp (UInt32.not_lt.mp raised))
    split at step
    · next below =>
      obtain ⟨left, counted, after⟩ := spare.low inside calm (reduces (of_decide_eq_true below))
      have holds : entry.before.holdAgain entry.input.C ≠ 0 := fun ended => by simp [ended] at counted
      obtain ⟨held, less⟩ := settle_holding (lowState (reading entry)) .error holds
      have hold : entry.after.errorReduce = _ := congrArg Prod.snd step
      refine ⟨(congrArg Prod.fst step).trans held, ?_⟩
      rwa [hold, show (settle _ _ _).2.toNat = left by omega]
    · obtain ⟨same, hold⟩ := Prod.mk.inj step
      exact ⟨same, hold ▸ spare.neutral calm⟩

/-- What the hold has lost before the `n`th call, if the calls since the measurement measure nothing. -/
structure Spent (earlier : List ℚ) (C : ℚ) (errorReduce n : ℕ) (p : LcrTask) : Prop where
  within : Nat.count (Reduces earlier C) n ≤ errorReduce
  left : (∀ i < n, MostlyBelow ((negativePlateLimit3High + 1).toNat : ℚ) (ahead earlier C i)) →
    p.errorReduce.toNat + Nat.count (Reduces earlier C) n = errorReduce

theorem lowState_ne_error (cap : UInt32) : lowState cap ≠ .error := by
  unfold lowState
  split_ifs <;> simp

theorem Spent.step {errorReduce : ℕ} (spent : Spent earlier C errorReduce n entry.before)
    (taken : plateMachine.Takes entry) (sound : entry.before.Sound) (error : entry.before.negState = .error)
    (kept : entry.after.negState = .error) (under : entry.input.C ≤ negativePlateLimit3High.toNat)
    (calm : reading entry < negativePlateLimit3High + 1 ↔
      MostlyBelow ((negativePlateLimit3High + 1).toNat : ℚ) (ahead earlier C n))
    (reduces : reading entry < negativePlateLimit3Low ↔
      MostlyBelow (negativePlateLimit3Low.toNat : ℚ) (ahead earlier C n)) :
    Spent earlier C errorReduce (n + 1) entry.after := by
  by_cases still : ∀ i < n + 1, MostlyBelow ((negativePlateLimit3High + 1).toNat : ℚ) (ahead earlier C i)
  · have left := spent.left fun i less => still i (Nat.lt_succ_of_lt less)
    have low_iff : low entry = true ↔ Reduces earlier C n := by
      rw [low, decide_eq_true_eq, reduces]
      exact (and_iff_left fun i le => still i (Nat.lt_succ_of_le le)).symm
    have same : entry.before.holdAgain entry.input.C = entry.before.errorReduce :=
      if_neg fun again => absurd under (not_le.mpr again.2)
    have step := error_step taken sound error (calm_iff.mpr (calm.mpr (still n (Nat.lt_succ_self n))))
    rw [same, kept] at step
    suffices after : entry.after.errorReduce.toNat + Nat.count (Reduces earlier C) (n + 1) = errorReduce from
      ⟨by omega, fun _ => after⟩
    rw [Nat.count_succ]
    split at step
    · next below =>
      have holds : entry.before.errorReduce ≠ 0 := fun ended => by
        rw [ended, settle_free] at step
        exact lowState_ne_error _ (congrArg Prod.fst step).symm
      have less := (settle_holding (lowState (reading entry)) .error holds).2
      have hold : entry.after.errorReduce = _ := congrArg Prod.snd step
      rw [if_pos (low_iff.mp below), hold]
      omega
    · next above =>
      have hold : entry.after.errorReduce = _ := congrArg Prod.snd step
      rw [if_neg fun reduces => above (low_iff.mpr reduces), hold]
      omega
  · have untaken : Nat.count (Reduces earlier C) (n + 1) = Nat.count (Reduces earlier C) n := by
      rw [Nat.count_succ, if_neg fun reduces => still fun i less => reduces.2 i (Nat.le_of_lt_succ less)]
      rfl
    exact ⟨untaken ▸ spent.within, fun calm => absurd calm still⟩

end Step

/-! ## The readings of ten calls -/

def scaled (inputs : List Measured) : List ℚ := inputs.map fun m => m.C * 1000

@[simp] theorem scaled_append (inputs rest : List Measured) : scaled (inputs ++ rest) = scaled inputs ++ scaled rest :=
  List.map_append

@[simp] theorem scaled_length (inputs : List Measured) : (scaled inputs).length = inputs.length := List.length_map _

theorem SlidingMedian.filtered {earlier : List ℚ} {input output : ℚ} (slides : SlidingMedian 11 earlier input output) :
    output = Library.median (Plate.filtered (earlier ++ [input])) input := by
  rw [Plate.filtered, List.length_append, List.length_singleton]
  split
  · next less =>
    rw [slides.passes less, Nat.add_sub_cancel, List.drop_left]
    exact (median_of_majority (by simp) _).symm
  · next enough =>
    have ranked := slides.median (Nat.not_lt.mp enough)
    have length : ((earlier ++ [input]).drop (earlier.length + 1 - 11)).length = 11 := by
      rw [List.length_drop, List.length_append, List.length_singleton]
      omega
    rw [Library.median, length, List.getD_eq_getElem?_getD, ranked]
    rfl

section Run

variable {w : {w : List ℚ // w.length = (11 : UInt32).toNat}} {filter : MedianFilter ℚ}
  {entries : List PlateEntry} {p : LcrTask} {limit : UInt32}

theorem reading_lt_iff (init : medianFilterInit 11 (some w) true = .ok filter)
    (run : plateMachine.Run (.start filter) entries p) (room : 0 < limit) (C : ℚ) :
    p.reading C < limit ↔
      MostlyBelow (limit.toNat : ℚ) (filtered (scaled (entries.map Entry.input) ++ [C * 1000])) := by
  have size := medianFilterInit_size init
  have tracks := tracks_small init (by decide) (scaled (entries.map Entry.input))
  have slides := tracks.output (tracks.room (.inl (by rw [size]; decide))) (C * 1000)
  rw [size] at slides
  have inputs : entries.map (fun entry => entry.input.C * 1000) = scaled (entries.map Entry.input) := by
    rw [scaled, List.map_map]
    rfl
  rw [LcrTask.reading, plate_fed run (LcrTask.start_sound size), inputs, toUint32_lt room]
  exact slides.filtered ▸ median_lt_iff (filtered_snoc _ _) _ _

/-- The reading of the last of the calls from `m` on. -/
theorem called_reading_lt_iff (init : medianFilterInit 11 (some w) true = .ok filter)
    (run : plateMachine.Run (.start filter) entries p) (room : 0 < limit) {before later : List Measured}
    {m last : Measured} (whole : before ++ [last] = m :: later) :
    reading (call (called p before) last) < limit ↔ MostlyBelow (limit.toNat : ℚ)
      (filtered (scaled (entries.map Entry.input) ++ m.C * 1000 :: scaled later)) := by
  have shown : scaled (before ++ [last]) = m.C * 1000 :: scaled later := congrArg scaled whole
  have reads := reading_lt_iff init (run.append (calls_run p before)) room last.C
  rw [List.map_append, calls_inputs, scaled_append, List.append_assoc] at reads
  rw [← shown, scaled_append]
  exact reads

theorem Spare.called (init : medianFilterInit 11 (some w) true = .ok filter)
    (run : plateMachine.Run (.start filter) entries p) {before later : List Measured} {m last : Measured}
    (whole : before ++ [last] = m :: later) (inside : later.length < 10)
    (error : (called p before).negState = .error)
    (spare : Spare (scaled (entries.map Entry.input)) m.C ((Plate.called p before).holdAgain last.C).toNat
      later.length) :
    (Plate.called p (m :: later)).negState = .error ∧ Spare (scaled (entries.map Entry.input)) m.C
      (Plate.called p (m :: later)).errorReduce.toNat (later.length + 1) := by
  have sound := (plate_sound init (run.append (calls_run p before))).1
  have reads : ∀ limit : UInt32, 0 < limit → reading (call (Plate.called p before) last) < limit →
      MostlyBelow (limit.toNat : ℚ) (ahead (scaled (entries.map Entry.input)) m.C later.length) :=
    fun limit room less => by
      have below := (called_reading_lt_iff init run room whole).mp less
      have positive : (0 : ℚ) < limit.toNat := Nat.cast_pos.mpr (UInt32.lt_iff_toNat_lt.mp room)
      have ahead := ahead_below positive below
      rwa [scaled_length] at ahead
  have after : Plate.called p (m :: later) = (call (Plate.called p before) last).after := by
    rw [← whole, Plate.called, List.foldl_append]
    rfl
  rw [after]
  exact Spare.step (call_takes _ _) sound error inside spare (reads _ (by decide)) (reads _ (by decide))

theorem called_error (init : medianFilterInit 11 (some w) true = .ok filter)
    (run : plateMachine.Run (.start filter) entries p) (error : p.negState = .error) {m : Measured}
    (outlasts : Outlasts (scaled (entries.map Entry.input)) m.C p.errorReduce) (later : List Measured)
    (few : later.length < 10) :
    (called p (m :: later)).negState = .error ∧ Spare (scaled (entries.map Entry.input)) m.C
      (called p (m :: later)).errorReduce.toNat (later.length + 1) := by
  induction later using List.reverseRecOn with
  | nil =>
    refine Spare.called init run (List.nil_append [m]) (by decide) error ?_
    rcases outlasts with above | enough
    · refine .inl ?_
      rw [LcrTask.holdAgain, if_pos ⟨error, above⟩]
      decide
    · exact .mono (.inr ⟨fun i less => absurd less (Nat.not_lt_zero i), enough⟩)
        ((plate_sound init run).1.le_again m.C)
  | append_singleton later last ih =>
    rw [List.length_append, List.length_singleton] at few
    obtain ⟨error, spare⟩ := ih (by omega)
    have sound := (plate_sound init (run.append (calls_run p (m :: later)))).1
    have length : (later ++ [last]).length = later.length + 1 := List.length_append
    exact Spare.called init run rfl (by omega) error (length ▸ spare.mono (sound.le_again last.C))

/-- What a call finds when nothing is measured. -/
def nothing : Measured := ⟨0, 0⟩

@[simp] theorem scaled_nothing (n : ℕ) : scaled (List.replicate n nothing) = List.replicate n 0 :=
  List.map_replicate.trans (congrArg (List.replicate n) (zero_mul _))

theorem Spent.called (init : medianFilterInit 11 (some w) true = .ok filter)
    (run : plateMachine.Run (.start filter) entries p) {before : List Measured} {m last : Measured} {n : ℕ}
    (whole : before ++ [last] = m :: List.replicate n nothing) {errorReduce : ℕ}
    (spent : Spent (scaled (entries.map Entry.input)) m.C errorReduce n (called p before))
    (error : (Plate.called p before).negState = .error)
    (kept : (Plate.called p (m :: List.replicate n nothing)).negState = .error)
    (under : last.C ≤ negativePlateLimit3High.toNat) :
    Spent (scaled (entries.map Entry.input)) m.C errorReduce (n + 1)
      (Plate.called p (m :: List.replicate n nothing)) := by
  have sound := (plate_sound init (run.append (calls_run p before))).1
  have reads : ∀ limit : UInt32, 0 < limit → (reading (call (Plate.called p before) last) < limit ↔
      MostlyBelow (limit.toNat : ℚ) (ahead (scaled (entries.map Entry.input)) m.C n)) := fun limit room => by
    have below := called_reading_lt_iff init run room whole
    rwa [scaled_nothing] at below
  have after : Plate.called p (m :: List.replicate n nothing) = (call (Plate.called p before) last).after := by
    rw [← whole, Plate.called, List.foldl_append]
    rfl
  rw [after] at kept ⊢
  exact Spent.step spent (call_takes _ _) sound error kept under (reads _ (by decide)) (reads _ (by decide))

theorem called_nothing (init : medianFilterInit 11 (some w) true = .ok filter)
    (run : plateMachine.Run (.start filter) entries p) (error : p.negState = .error) {m : Measured}
    (under : m.C ≤ negativePlateLimit3High.toNat)
    (stays : ∀ later : List Measured, later.length ≤ 9 → (called p (m :: later)).negState = .error)
    {n : ℕ} (few : n ≤ 9) :
    Spent (scaled (entries.map Entry.input)) m.C p.errorReduce.toNat (n + 1)
      (called p (m :: List.replicate n nothing)) := by
  induction n with
  | zero =>
    have spent : Spent (scaled (entries.map Entry.input)) m.C p.errorReduce.toNat 0 (called p []) :=
      ⟨Nat.zero_le _, fun _ => rfl⟩
    exact Spent.called init run (List.nil_append [m]) spent error (stays [] (by decide)) under
  | succ n ih =>
    have whole : (m :: List.replicate n nothing) ++ [nothing] = m :: List.replicate (n + 1) nothing := by
      rw [List.cons_append, ← List.replicate_succ']
    have stays' : ∀ n ≤ 9, (called p (m :: List.replicate n nothing)).negState = .error := fun n few =>
      stays _ (by rwa [List.length_replicate])
    exact Spent.called init run whole (ih (by omega)) (stays' n (by omega)) (stays' (n + 1) few) (by decide +kernel)

end Run

/-- A measurement keeps an error for its own call and the nine after it, whatever they measure, if and only if
it starts the hold again in the first test or the hold outlasts the readings that it and zeros give. There
`C * 1000` stands for the product that the code rounds to a float. -/
theorem plate_rearms_iff {w : {w : List ℚ // w.length = (11 : UInt32).toNat}} {filter : MedianFilter ℚ}
    {entries : List PlateEntry} {p : LcrTask} (init : medianFilterInit 11 (some w) true = .ok filter)
    (run : plateMachine.Run (.start filter) entries p) (error : p.negState = .error) (m : Measured) :
    (∀ later : List Measured, later.length ≤ 9 → (called p (m :: later)).negState = .error) ↔
      Outlasts (scaled (entries.map Entry.input)) m.C p.errorReduce := by
  constructor
  · intro stays
    by_cases above : (negativePlateLimit3High.toNat : ℚ) < m.C
    · exact .inl above
    · exact .inr (called_nothing init run error (not_lt.mp above) stays (le_refl 9)).within
  · intro outlasts later few
    exact (called_error init run error outlasts later (Nat.lt_succ_of_le few)).1

theorem plate_rearms_first :
    let p := called (.start clearedFilter) [⟨6000, 0⟩]
    ∀ later : List Measured, later.length ≤ 9 → (called p (⟨6000, 0⟩ :: later)).negState = .error :=
  (plate_rearms_iff clearedFilter_init (calls_run _ _) (by decide +kernel) _).mpr (by decide +kernel)

theorem plate_not_rearmed :
    let earlier : List Measured := ⟨6000, 0⟩ :: List.replicate 10 ⟨80, 0⟩
    let p := called (.start clearedFilter) earlier
    plateMachine.Run (.start clearedFilter) (calls (.start clearedFilter) earlier) p ∧ p.negState = .error ∧
      (negativePlateLimit3High.toNat : ℚ) < (6000 : ℚ) * 1000 ∧ (call p ⟨6000, 0⟩).after.negState = .connectOk := by
  -- ten low readings have used up the hold, and the median of the last eleven is low once more
  exact ⟨calls_run _ _, by decide +kernel, by decide +kernel, by decide +kernel⟩

end DetectBoard.Plate
