import DetectBoard.Plate.Judge

/-! Whether a larger reading leads to a worse plate state, where no error is held. -/

set_option autoImplicit false

namespace DetectBoard.Plate

open Library

def Reachable (p : LcrTask) : Prop :=
  ∃ (w : {w : List ℚ // w.length = (11 : UInt32).toNat}) (filter : MedianFilter ℚ) (entries : List PlateEntry),
    medianFilterInit 11 (some w) true = .ok filter ∧ plateMachine.Run (.start filter) entries p

theorem Reachable.sound {p : LcrTask} (reachable : Reachable p) : p.Sound := by
  obtain ⟨_, _, _, init, run⟩ := reachable
  exact (plate_sound init run).1

/-- The order of the states, from the least contact to the most. -/
def NegptState.rank : NegptState → ℕ
  | .disconnect => 0
  | .connectHalf => 1
  | .connectOk => 2
  | .error => 3

/-- A lower state is kept at the second of two readings, and left at the first: the second lies in
the second band, or it is the last limit, which no comparison covers. -/
def Keeps (negState : NegptState) (a b : UInt32) : Prop :=
  negState = .disconnect ∧ negativePlateLimit1High ≤ a ∧ a < negativePlateLimit2Low ∧
      (negativePlateLimit2Low ≤ b ∧ b < negativePlateLimit2High ∨ b = negativePlateLimit3High) ∨
    (negState = .disconnect ∨ negState = .connectHalf) ∧ negativePlateLimit2High ≤ a ∧
      a < negativePlateLimit3High ∧ b = negativePlateLimit3High

instance (negState : NegptState) (a b : UInt32) : Decidable (Keeps negState a b) :=
  inferInstanceAs (Decidable (_ ∨ _))

/-- The states that the readings lead to, in steps. -/
def stairs (negState : NegptState) (cap : ℕ) : ℕ :=
  match negState with
  | .disconnect => if cap < 20000 then 0 else if cap < 50000 then 1 else if cap < 70000 then 0
      else if cap < 5000000 then 2 else if cap = 5000000 then 0 else 3
  | .connectHalf => if cap < 15000 then 0 else if cap < 70000 then 1 else if cap < 5000000 then 2
      else if cap = 5000000 then 1 else 3
  | .connectOk => if cap < 20000 then 0 else if cap < 70000 then 1 else if cap ≤ 5000000 then 2 else 3
  | .error => if cap < 20000 then 0 else if cap < 70000 then 1 else if cap < 100000 then 2 else 3

theorem judgeCap_stairs (cap : UInt32) (negState : NegptState) :
    (judgeCap cap negState negState 0).1.rank = stairs negState cap.toNat := by
  simp only [judgeCap, settle_free, UInt32.lt_iff_toNat_lt, negativePlateLimit1Low, negativePlateLimit1High,
    negativePlateLimit2Low, negativePlateLimit2High, negativePlateLimit3Low, negativePlateLimit3High,
    UInt32.reduceToNat, gt_iff_lt]
  cases negState with
  | disconnect => grind [stairs, NegptState.rank]
  | connectHalf => grind [stairs, NegptState.rank]
  | connectOk => grind [stairs, NegptState.rank]
  | error => grind [stairs, NegptState.rank]

theorem stairs_mono_iff (negState : NegptState) {a b : UInt32} (le : a ≤ b) :
    stairs negState a.toNat ≤ stairs negState b.toNat ↔ ¬ Keeps negState a b := by
  have le := UInt32.le_iff_toNat_le.mp le
  simp only [Keeps, UInt32.lt_iff_toNat_lt, UInt32.le_iff_toNat_le, ← UInt32.toNat_inj, negativePlateLimit1High,
    negativePlateLimit2Low, negativePlateLimit2High, negativePlateLimit3High, UInt32.reduceToNat]
  -- only a lower state that is kept makes a step down
  cases negState with
  | disconnect =>
    simp only [stairs, reduceCtorEq, or_false, true_and]
    split_ifs <;> omega
  | connectHalf =>
    simp only [stairs, reduceCtorEq, or_true, false_and, true_and, false_or]
    split_ifs <;> omega
  | connectOk => grind [stairs]
  | error => grind [stairs]

theorem lcrInfoJudge_stairs {p : LcrTask} (sound : p.Sound) (free : p.errorReduce = 0) {C : ℚ}
    (calm : C ≤ negativePlateLimit3High.toNat) :
    (lcrInfoJudge p C).1.negState.rank = stairs p.negState (p.reading C).toNat := by
  have again : p.holdAgain C = 0 := (if_neg fun again => absurd calm (not_le.mpr again.2)).trans free
  rw [lcrInfoJudge_sound sound, again]
  exact judgeCap_stairs _ _

/-- Two calls that find the same plate state and no hold leave states in the order of their
readings, unless the first leaves a lower state which the second keeps. -/
theorem plate_monotone_iff {p q : LcrTask} (reachable : Reachable p) (reachable' : Reachable q)
    (same : q.negState = p.negState) (free : p.errorReduce = 0) (free' : q.errorReduce = 0) {C C' : ℚ}
    (calm : C ≤ negativePlateLimit3High.toNat) (calm' : C' ≤ negativePlateLimit3High.toNat)
    (le : p.reading C ≤ q.reading C') :
    (lcrInfoJudge p C).1.negState.rank ≤ (lcrInfoJudge q C').1.negState.rank ↔
      ¬ Keeps p.negState (p.reading C) (q.reading C') := by
  rw [lcrInfoJudge_stairs reachable.sound free calm, lcrInfoJudge_stairs reachable'.sound free' calm', same]
  exact stairs_mono_iff p.negState le

theorem start_reachable : Reachable (.start clearedFilter) := ⟨_, _, [], clearedFilter_init, .nil⟩

theorem plate_monotone_half_ok :
    (lcrInfoJudge (.start clearedFilter) 30).1.negState.rank ≤ (lcrInfoJudge (.start clearedFilter) 80).1.negState.rank :=
  (plate_monotone_iff start_reachable start_reachable rfl rfl rfl (by decide +kernel) (by decide +kernel)
    (by decide +kernel)).mpr (by decide +kernel)

theorem plate_not_monotone :
    let p := LcrTask.start clearedFilter
    Reachable p ∧ p.errorReduce = 0 ∧ (60 : ℚ) ≤ negativePlateLimit3High.toNat ∧ p.reading 30 ≤ p.reading 60 ∧
      ¬ (lcrInfoJudge p 30).1.negState.rank ≤ (lcrInfoJudge p 60).1.negState.rank :=
  -- a disconnected plate becomes half connected at 30, and stays disconnected at 60
  ⟨start_reachable, rfl, by decide +kernel, by decide +kernel, by decide +kernel⟩

end DetectBoard.Plate
