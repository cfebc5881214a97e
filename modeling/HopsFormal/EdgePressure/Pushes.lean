import HopsFormal.EdgePressure.Detector
import Mathlib.Algebra.BigOperators.Group.List.Basic
import Mathlib.Algebra.Order.Ring.Rat
import Mathlib.Data.List.Chain
import Mathlib.Tactic.Linarith

/-!
# What each step leaves of a push

Before a motion counts, a pause or motion inward takes the pressure of a side away and a threshold
can only be raised; then it counts for the sides it pushes at.
-/

namespace HopsFormal.EdgePressure

open List Function

namespace Detector

variable {detector felt : Detector} {side : Side}

/-! ## Thresholds -/

def Bounded (detector : Detector) : Prop :=
  ∀ side, thresholdMin ≤ detector.threshold side ∧ detector.threshold side ≤ thresholdMax

theorem clamp_bounded (value : ℚ) : thresholdMin ≤ clamp value ∧ clamp value ≤ thresholdMax :=
  ⟨le_max_left _ _, max_le (by norm_num [thresholdMin, thresholdMax]) (min_le_right _ _)⟩

theorem forced_bounded {parse : Files.Text → Option Number} {environment : Environment}
    {value : ℚ} (given : forced parse environment = some value) :
    thresholdMin ≤ value ∧ value ≤ thresholdMax := by
  unfold forced at given
  split at given
  · split at given
    · cases given
      exact clamp_bounded _
    · cases given
  · cases given
    exact ⟨by norm_num [thresholdMin, thresholdMax], le_refl _⟩
  · cases given

theorem readLine_bounded {parse : Files.Text → Option Number} {line : Files.Text} {value : ℚ}
    (sets : readLine parse line = some (side, value)) :
    thresholdMin ≤ value ∧ value ≤ thresholdMax := by
  unfold readLine at sets
  dsimp only at sets
  split at sets
  · cases sets
  · obtain ⟨⟨key, text⟩, -, given⟩ := Option.bind_eq_some_iff.mp sets
    split at given
    · obtain ⟨_, -, same⟩ := Option.map_eq_some_iff.mp given
      cases same
      exact clamp_bounded _
    · cases given

theorem loadEdgeThresholds_bounded (parse : Files.Text → Option Number)
    (contents : Option Files.Text) (side : Side) :
    thresholdMin ≤ loadEdgeThresholds parse contents side ∧
      loadEdgeThresholds parse contents side ≤ thresholdMax := by
  unfold loadEdgeThresholds
  induction (contents.getD []).splitOn '\n' using List.reverseRecOn with
  | nil => norm_num [defaultThreshold, thresholdMin, thresholdMax]
  | append_singleton lines line ih =>
    rw [foldl_append]
    cases sets : readLine parse line with
    | none =>
      simp only [foldl_cons, foldl_nil, sets]
      exact ih
    | some given =>
      simp only [foldl_cons, foldl_nil, sets, update_apply]
      split
      · exact readLine_bounded sets
      · exact ih

theorem bounded_fromEnv (parse : Files.Text → Option Number) (environment : Environment) :
    (fromEnv parse environment).Bounded := by
  intro side
  unfold fromEnv
  cases given : forced parse environment with
  | some value => exact forced_bounded given
  | none => exact loadEdgeThresholds_bounded _ _ side

theorem threshold_setThreshold (detector : Detector) (side other : Side) (signal : Signal) :
    (detector.setThreshold side signal).threshold other =
      if other = side then clamp (detector.threshold side * signal.factor)
      else detector.threshold other :=
  update_apply ..

theorem Bounded.setThreshold (bounded : detector.Bounded) (side : Side) (signal : Signal) :
    (detector.setThreshold side signal).Bounded := by
  intro other
  rw [threshold_setThreshold]
  split
  · exact clamp_bounded _
  · exact bounded other

theorem Bounded.commitRegret (bounded : detector.Bounded) (now : ℚ) :
    (detector.commitRegret now).Bounded := by
  unfold Detector.commitRegret
  split
  · split
    · dsimp only
      split
      · exact Bounded.setThreshold bounded _ _
      · exact bounded
    · exact bounded
  · exact bounded

theorem threshold_le_commitRegret (bounded : detector.Bounded) (now : ℚ) (side : Side) :
    detector.threshold side ≤ (detector.commitRegret now).threshold side := by
  unfold Detector.commitRegret
  split
  · split
    · dsimp only
      split
      · rw [threshold_setThreshold]
        split
        · next same =>
          subst same
          obtain ⟨least, most⟩ := bounded side
          refine le_max_of_le_right (le_min ?_ most)
          unfold thresholdMin at least
          norm_num [Signal.factor]
          linarith
        · exact le_refl _
      · exact le_refl _
    · exact le_refl _
  · exact le_refl _

/-! ## Before the motion counts -/

/-- What a raise that is made leaves as it is. -/
theorem commitRegret_kept (detector : Detector) (now : ℚ) :
    (detector.commitRegret now).pressure = detector.pressure ∧
      (detector.commitRegret now).latched = detector.latched ∧
      (detector.commitRegret now).lastUpdate = detector.lastUpdate ∧
      (detector.commitRegret now).lastFire = detector.lastFire ∧
      (detector.commitRegret now).union = detector.union ∧
      (detector.commitRegret now).enabled = detector.enabled := by
  unfold commitRegret
  split
  · split
    · dsimp only
      split <;> exact ⟨rfl, rfl, rfl, rfl, rfl, rfl⟩
    · exact ⟨rfl, rfl, rfl, rfl, rfl, rfl⟩
  · exact ⟨rfl, rfl, rfl, rfl, rfl, rfl⟩

/-- The motion stopped before this one, so that the push is over. -/
def Paused (detector : Detector) (event : Update) : Prop :=
  ∃ prev, detector.lastUpdate = some prev ∧ gestureGap < event.now - prev

theorem pause_spec (detector : Detector) (event : Update) :
    (detector.pause event.now).threshold = detector.threshold ∧
      (detector.pause event.now).lastFire = detector.lastFire ∧
      (detector.pause event.now).union = detector.union ∧
      (detector.pause event.now).enabled = detector.enabled ∧
      (detector.Paused event ∧ (detector.pause event.now).pressure = (fun _ => 0) ∧
          (detector.pause event.now).latched = (fun _ => false) ∨
        ¬detector.Paused event ∧ detector.pause event.now = detector) := by
  unfold pause
  split
  · next prev last =>
    split
    · next long =>
      have ended : ∀ now gap, ((detector.onGestureEnd now gap).threshold = detector.threshold ∧
          (detector.onGestureEnd now gap).lastFire = detector.lastFire) ∧
          (detector.onGestureEnd now gap).union = detector.union ∧
          (detector.onGestureEnd now gap).enabled = detector.enabled := by
        intro now gap
        unfold onGestureEnd
        split <;> exact ⟨⟨rfl, rfl⟩, rfl, rfl⟩
      obtain ⟨⟨threshold, fire⟩, union, enabled⟩ := ended event.now (event.now - prev)
      exact ⟨threshold, fire, union, enabled, .inl ⟨⟨prev, last, long⟩, rfl, rfl⟩⟩
    · next short =>
      refine ⟨rfl, rfl, rfl, rfl, .inr ⟨?_, rfl⟩⟩
      rintro ⟨_, last', long⟩
      rw [last] at last'
      cases last'
      exact short long
  · next last =>
    refine ⟨rfl, rfl, rfl, rfl, .inr ⟨?_, rfl⟩⟩
    rintro ⟨_, last', -⟩
    rw [last] at last'
    cases last'

/-- What there is before the motion counts. -/
structure Settled (detector : Detector) (event : Update) (settled : Detector) : Prop where
  lastUpdate : settled.lastUpdate = some event.now
  lastFire : settled.lastFire = detector.lastFire
  union : settled.union = detector.union
  enabled : settled.enabled = detector.enabled
  drains : ∀ side, detector.Paused event ∨ event.motion.inward side = true →
    settled.pressure side = 0 ∧ settled.latched side = false
  kept : ∀ side, ¬detector.Paused event → event.motion.inward side = false →
    settled.pressure side = detector.pressure side ∧ settled.latched side = detector.latched side
  raised : detector.Bounded →
    settled.Bounded ∧ ∀ side, detector.threshold side ≤ settled.threshold side

theorem settled_settle (detector : Detector) (event : Update) :
    Settled detector event (detector.settle event) := by
  obtain ⟨threshold, fire, union, enabled, gone⟩ := pause_spec detector event
  obtain ⟨pressure, latched, update, fire', union', enabled'⟩ := commitRegret_kept
    { detector.pause event.now with lastUpdate := some event.now } event.now
  refine ⟨update, fire'.trans fire, union'.trans union, enabled'.trans enabled, ?_, ?_, ?_⟩
  · intro side ended
    unfold settle moveAway
    dsimp only
    rw [pressure, latched]
    rcases gone with ⟨-, pressure, latched⟩ | ⟨going, -⟩
    · dsimp only
      rw [pressure, latched]
      exact ⟨ite_self _, ite_self _⟩
    · rw [if_pos (ended.resolve_left going), if_pos (ended.resolve_left going)]
      exact ⟨rfl, rfl⟩
  · intro side going outward
    obtain ⟨-, same⟩ := gone.resolve_left fun paused => going paused.1
    unfold settle moveAway
    dsimp only
    rw [pressure, latched, outward]
    rw [same]
    exact ⟨rfl, rfl⟩
  · intro bounded
    have bounded' : ({ detector.pause event.now with lastUpdate := some event.now } :
        Detector).Bounded := fun side => by
      rw [threshold]
      exact bounded side
    refine ⟨bounded'.commitRegret event.now, fun side => ?_⟩
    have raised := threshold_le_commitRegret bounded' event.now side
    rw [threshold] at raised
    exact raised

/-! ## What the motion counts for -/

/-- A side is pushed at: its outer edge, as read last, blocked motion out at it. -/
def Pushes (detector : Detector) (event : Update) (side : Side) : Prop :=
  0 < event.motion.outward side ∧ ∃ read, detector.unionBounds event = some read ∧
    event.motion.atEdge read.1 side = true

/-- What there is after the motion counted. -/
structure Felt (detector : Detector) (event : Update) (felt : Detector) : Prop where
  threshold : felt.threshold = detector.threshold
  latched : felt.latched = detector.latched
  lastUpdate : felt.lastUpdate = detector.lastUpdate
  lastFire : felt.lastFire = detector.lastFire
  enabled : felt.enabled = detector.enabled
  union : felt.union = detector.union ∨
    ∃ read, detector.unionBounds event = some read ∧ felt.union = some read
  pressure : ∀ side, felt.pressure side = detector.pressure side ∨
    detector.Pushes event side ∧ felt.pressure side =
      detector.pressure side + min (event.motion.outward side) (detector.threshold side / 2)

theorem felt_feel {event : Update} (feels : detector.feel event = some felt) :
    Felt detector event felt := by
  unfold feel at feels
  split at feels
  · obtain ⟨read, reads, rfl⟩ := Option.map_eq_some_iff.mp feels
    refine ⟨rfl, rfl, rfl, rfl, rfl, .inr ⟨read, reads, rfl⟩, fun side => ?_⟩
    dsimp only [press, counted]
    split
    · exact .inl rfl
    · split
      · next pushes => exact .inr ⟨⟨pushes.1, read, reads, pushes.2⟩, rfl⟩
      · exact .inl (add_zero _)
  · cases feels
    exact ⟨rfl, rfl, rfl, rfl, rfl, .inl rfl, fun _ => .inl rfl⟩

theorem strongest_counts {amount : Side → ℚ} {counts : Side → Bool}
    (found : strongest amount counts = some side) : counts side = true := by
  unfold strongest at found
  revert side
  induction sides using List.reverseRecOn with
  | nil => exact nofun
  | append_singleton front last ih =>
    intro side found
    rw [foldl_append] at found
    dsimp only [foldl_cons, foldl_nil] at found
    split at found
    · next stronger =>
      cases found
      exact (Bool.and_eq_true_iff.mp stronger).1
    · exact ih found

/-! ## What fires -/

theorem onFire_kept (detector : Detector) (side : Side) (now : ℚ) :
    (detector.onFire side now).1.threshold = detector.threshold ∧
      (detector.onFire side now).1.pressure = detector.pressure ∧
      (detector.onFire side now).1.latched = detector.latched ∧
      (detector.onFire side now).1.lastUpdate = detector.lastUpdate ∧
      (detector.onFire side now).1.union = detector.union ∧
      (detector.onFire side now).1.enabled = detector.enabled := by
  unfold onFire
  split
  · exact ⟨rfl, rfl, rfl, rfl, rfl, rfl⟩
  · split <;> exact ⟨rfl, rfl, rfl, rfl, rfl, rfl⟩

/-- What there is after a side has fired. -/
structure Fires (detector : Detector) (side : Side) (now : ℚ) (next : Detector) : Prop where
  threshold : next.threshold = detector.threshold
  pressure : next.pressure = Function.update detector.pressure side 0
  latched : next.latched = Function.update detector.latched side true
  lastUpdate : next.lastUpdate = detector.lastUpdate
  lastFire : ∃ armed, next.lastFire = some (side, now, armed)
  union : next.union = detector.union
  enabled : next.enabled = detector.enabled

theorem fires_fire (detector : Detector) (side : Side) (now : ℚ) :
    Fires detector side now (detector.fire side now) := by
  unfold fire
  split
  · obtain ⟨threshold, pressure, latched, update, union, enabled⟩ := onFire_kept
      { detector with
        latched := Function.update detector.latched side true
        pressure := Function.update detector.pressure side 0 } side now
    exact ⟨threshold, pressure, latched, update, ⟨_, rfl⟩, union, enabled⟩
  · exact ⟨rfl, rfl, rfl, rfl, ⟨_, rfl⟩, rfl, rfl⟩

/-- Nothing fires, or a side whose pressure has come to its threshold does. -/
inductive Concludes (detector : Detector) (now : ℚ) : Detector → Option Side → Prop where
  | nothing : Concludes detector now detector none
  | fires {side : Side} {next : Detector} (ready : detector.latched side = false)
      (enough : detector.threshold side ≤ detector.pressure side)
      (clear : detector.inFlight now = false) (fires : Fires detector side now next) :
      Concludes detector now next (some side)

theorem concludes_conclude (detector : Detector) (now : ℚ) :
    Concludes detector now (detector.conclude now).1 (detector.conclude now).2 := by
  unfold conclude
  split
  · next side found =>
    obtain ⟨ready, enough⟩ := Bool.and_eq_true_iff.mp (strongest_counts found)
    split
    · exact .nothing
    · next clear =>
      exact .fires (Bool.not_eq_true' _ ▸ ready) (of_decide_eq_true enough)
        (Bool.not_eq_true _ ▸ clear) (fires_fire _ _ _)
  · exact .nothing

/-- Everything a motion does to a detector that is enabled. -/
inductive Updates (detector : Detector) (event : Update) : Detector → Option Side → Prop where
  | unknown {settled : Detector} (settles : Settled detector event settled) :
      Updates detector event settled none
  | known {settled felt next : Detector} {told : Option Side}
      (settles : Settled detector event settled) (feels : Felt settled event felt)
      (concludes : Concludes felt event.now next told) : Updates detector event next told

theorem updates_update (enabled : detector.enabled = true) (event : Update) :
    Updates detector event (detector.update event).1 (detector.update event).2 := by
  unfold Detector.update
  rw [if_pos enabled]
  split
  · next felt feels =>
    exact .known (settled_settle detector event) (felt_feel feels) (concludes_conclude felt _)
  · exact .unknown (settled_settle detector event)

theorem update_disabled (disabled : detector.enabled = false) (event : Update) :
    detector.update event = (detector, none) := by
  unfold Detector.update
  rw [disabled]
  rfl

end Detector

end HopsFormal.EdgePressure
