import DetectBoard.Library.Hysteresis
import DetectBoard.Plate.Judge

/-! The dead bands of the plate-state classifier. -/

set_option autoImplicit false

namespace DetectBoard.Plate

open Library

def disconnectHalf : Band ℕ NegptState :=
  ⟨negativePlateLimit1Low.toNat, negativePlateLimit1High.toNat, .disconnect, .connectHalf⟩

def halfOk : Band ℕ NegptState :=
  ⟨negativePlateLimit2Low.toNat, negativePlateLimit2High.toNat, .connectHalf, .connectOk⟩

def okError : Band ℕ NegptState :=
  ⟨negativePlateLimit3Low.toNat, negativePlateLimit3High.toNat, .connectOk, .error⟩

def bands : List (Band ℕ NegptState) := [disconnectHalf, halfOk, okError]

structure Hysteresis (band : Band ℕ NegptState) (entries : List PlateEntry) : Prop where
  obeys : ∀ entry ∈ entries, band.Obeys (reading entry).toNat entry.before.negState entry.after.negState
  steady : ∀ pre first rest post, entries = pre ++ (first :: rest) ++ post →
    (∀ entry ∈ first :: rest, band.Inside (reading entry).toNat) → band.Separates first.before.negState →
    ∀ entry ∈ first :: rest, entry.after.sendInfo.negState = first.before.sendInfo.negState

/-- A call that finds the upper state of the second band, with a reading inside it. -/
def Slips (entry : PlateEntry) : Prop :=
  entry.before.negState = .connectOk ∧ halfOk.Inside (reading entry).toNat

instance (entry : PlateEntry) : Decidable (Slips entry) := inferInstanceAs (Decidable (_ ∧ _))

section Judge

variable {cap : UInt32} {negState : NegptState} {errorReduce : UInt16} {band : Band ℕ NegptState}

theorem band_cases (member : band ∈ bands) : band = disconnectHalf ∨ band = halfOk ∨ band = okError := by
  simpa [bands] using member

theorem judgeCap_dead (member : band ∈ bands) (inside : band.Inside cap.toNat)
    (separates : band.Separates negState) (kept : ¬ (negState = .connectOk ∧ halfOk.Inside cap.toNat)) :
    judgeCap cap negState negState errorReduce = (negState, errorReduce) := by
  have above : ∀ limit : UInt32, limit.toNat ≤ band.low → ¬ cap < limit := fun limit le less =>
    absurd (UInt32.lt_iff_toNat_lt.mp less) (Nat.not_lt.mpr (le.trans inside.1))
  have below : ∀ limit : UInt32, band.high ≤ limit.toNat → cap < limit := fun limit le =>
    UInt32.lt_iff_toNat_lt.mpr (Nat.lt_of_lt_of_le inside.2 le)
  rcases band_cases member with rfl | rfl | rfl
  · rw [judgeCap, if_neg (above _ (by decide)), if_pos (below _ (by decide))]
    exact if_pos separates
  · have half : negState = .connectHalf := separates.resolve_right fun ok => kept ⟨ok, inside⟩
    rw [judgeCap, if_neg (above _ (by decide)), if_neg (above _ (by decide)),
      if_neg (above _ (by decide)), if_pos (below _ (by decide)), if_pos (.inr half)]
  · rw [judgeCap, if_neg (above _ (by decide)), if_neg (above _ (by decide)),
      if_neg (above _ (by decide)), if_neg (above _ (by decide)), if_neg (above _ (by decide)),
      if_pos (below _ (by decide))]
    exact if_pos separates

theorem judgeCap_slip (inside : halfOk.Inside cap.toNat) :
    judgeCap cap .connectOk .connectOk 0 = (.connectHalf, 0) := by
  have above : ∀ limit : UInt32, limit.toNat ≤ halfOk.low → ¬ cap < limit := fun limit le less =>
    absurd (UInt32.lt_iff_toNat_lt.mp less) (Nat.not_lt.mpr (le.trans inside.1))
  have below : cap < negativePlateLimit2High := UInt32.lt_iff_toNat_lt.mpr inside.2
  rw [judgeCap, if_neg (above _ (by decide)), if_neg (above _ (by decide)),
    if_neg (above _ (by decide)), if_pos below, if_neg (by decide), settle_free]

theorem judgeCap_obeys (member : band ∈ bands)
    (kept : ¬ (negState = .connectOk ∧ halfOk.Inside cap.toNat)) :
    band.Obeys cap.toNat negState (judgeCap cap negState negState errorReduce).1 := by
  have proper : band.lower ≠ band.upper := by
    rcases band_cases member with rfl | rfl | rfl <;> decide
  refine Band.Obeys.intro proper (fun inside separates => ?_) fun changed lower => ?_
  · rw [judgeCap_dead member inside separates kept]
  · -- the lower state is entered below the end of its band
    have entered := judgeCap_entered changed
    rw [lower] at entered
    rcases band_cases member with rfl | rfl | rfl
    · exact UInt32.lt_iff_toNat_lt.mp entered
    · exact UInt32.lt_iff_toNat_lt.mp entered.2
    · exact UInt32.lt_iff_toNat_lt.mp entered.2

end Judge

section Run

variable {entry : PlateEntry} {entries : List PlateEntry} {state : LcrTask} {band : Band ℕ NegptState}

theorem plate_obeys (taken : plateMachine.Takes entry) (sound : entry.before.Sound)
    (member : band ∈ bands) (kept : ¬ Slips entry) :
    band.Obeys (reading entry).toNat entry.before.negState entry.after.negState := by
  have after := congrArg Prod.fst (plate_step taken sound)
  dsimp only at after
  rw [after]
  exact judgeCap_obeys member kept

theorem plate_slips (taken : plateMachine.Takes entry) (sound : entry.before.Sound) (slips : Slips entry) :
    ¬ halfOk.Obeys (reading entry).toNat entry.before.negState entry.after.negState := by
  intro obeys
  obtain ⟨ok, inside⟩ := slips
  -- no hold counter runs outside an error
  have free : entry.before.holdAgain entry.input.C = 0 := by
    by_contra holding
    have error := (sound.again entry.input.C).error holding
    rw [ok] at error
    cases error
  have after := plate_step taken sound
  rw [free, ok, judgeCap_slip inside] at after
  have fell : entry.after.negState = .connectHalf := congrArg Prod.fst after
  have same := obeys.dead inside (.inr ok)
  rw [fell, ok] at same
  cases same

theorem plate_steady {start : LcrTask} (run : plateMachine.Run start entries state) (sound : start.Sound)
    (obeys : ∀ entry ∈ entries,
      band.Obeys (reading entry).toNat entry.before.negState entry.after.negState)
    (inside : ∀ entry ∈ entries, band.Inside (reading entry).toNat)
    (separates : band.Separates start.negState) :
    ∀ entry ∈ entries, entry.after.sendInfo.negState = start.sendInfo.negState := by
  intro entry member
  have kept := Band.steady (fun entry => (reading entry).toNat) LcrTask.negState run obeys inside separates
    entry member
  rw [((plate_sound_from run sound).2 entry member).2.reported, sound.reported, kept]

end Run

/-- The classifier has its hysteresis in a run if and only if no call finds a good connection
with a reading inside the second band. -/
theorem plate_hysteresis {w : {w : List ℚ // w.length = (11 : UInt32).toNat}} {filter : MedianFilter ℚ}
    {entries : List PlateEntry} {state : LcrTask}
    (init : medianFilterInit 11 (some w) true = .ok filter)
    (run : plateMachine.Run (.start filter) entries state) :
    (∀ band ∈ bands, Hysteresis band entries) ↔ ∀ entry ∈ entries, ¬ Slips entry := by
  have sound := (plate_sound init run).2
  constructor
  · intro hysteresis entry member slips
    have obeys := (hysteresis halfOk (by simp [bands])).obeys entry member
    exact plate_slips (run.takes entry member) (sound entry member).1 slips obeys
  · intro kept band known
    have obeys : ∀ entry ∈ entries,
        band.Obeys (reading entry).toNat entry.before.negState entry.after.negState := fun entry member =>
      plate_obeys (run.takes entry member) (sound entry member).1 known (kept entry member)
    refine ⟨obeys, fun pre first rest post cut inside separates => ?_⟩
    have within : ∀ entry ∈ first :: rest, entry ∈ entries := fun entry member => by
      rw [cut]
      exact List.mem_append_left _ (List.mem_append_right _ member)
    rw [cut] at run
    obtain ⟨_, stretch, _⟩ := run.split
    obtain ⟨middle, _, stretch⟩ := stretch.split
    rw [← List.nil_append (first :: rest)] at stretch
    obtain rfl := stretch.reach.1.nil_eq
    rw [List.nil_append] at stretch
    exact plate_steady stretch (sound first (within first (by simp))).1
      (fun entry member => obeys entry (within entry member)) inside separates

theorem plate_hysteresis_steady :
    let readings : List Measured := [⟨80, 0⟩, ⟨200, 0⟩, ⟨150, 0⟩]
    (called (.start clearedFilter) readings).negState = .connectOk ∧
      ∀ band ∈ bands, Hysteresis band (calls (.start clearedFilter) readings) := by
  exact ⟨by decide +kernel, (plate_hysteresis clearedFilter_init (calls_run _ _)).mpr (by decide +kernel)⟩

theorem plate_chatters :
    let readings : List Measured := [⟨80, 0⟩, ⟨60, 0⟩]
    plateMachine.Run (.start clearedFilter) (calls (.start clearedFilter) readings)
        (called (.start clearedFilter) readings) ∧
      ¬ ∀ band ∈ bands, Hysteresis band (calls (.start clearedFilter) readings) := by
  -- at 80 the connection is good; at 60, inside the second band, it is reported as half
  refine ⟨calls_run _ _, fun hysteresis => ?_⟩
  have second := ((hysteresis halfOk (by simp [bands])).obeys _ (List.mem_cons_of_mem _ List.mem_cons_self)).dead
  exact absurd (second (by decide +kernel) (by decide +kernel)) (by decide +kernel)

end DetectBoard.Plate
