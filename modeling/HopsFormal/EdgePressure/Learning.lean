import HopsFormal.EdgePressure.Fires

/-!
# What a threshold is changed for

Each change of a threshold goes back to a fire, which is named by its place among the acts.  What
the detector remembers of a fire, of a crossing and of a return is kept apart by the sessions that
begin and end between them, so no fire is counted twice, unless it is both armed and regretted.
-/

namespace HopsFormal.EdgePressure

open List Detector

variable {start detector : Detector} {acts : List Act} {side : Side}

/-! ## What happened -/

/-- The act at a place crossed a side. -/
def Fired (start : Detector) (acts : List Act) (fire : Nat) (side : Side) (time : ℚ) : Prop :=
  ∃ event, acts[fire]? = some (.update event) ∧ event.now = time ∧
    start.told (acts.take fire) (.update event) = some side

/-- A push that had come half-way was abandoned, as the motion at a place showed. -/
def Abandoned (start : Detector) (acts : List Act) (miss : Nat) (side : Side) (time : ℚ) : Prop :=
  ∃ event, acts[miss]? = some (.update event) ∧
    (start.run (acts.take miss)).lastUpdate = some time ∧ gestureGap < event.now - time ∧
    (start.run (acts.take miss)).latched side = false ∧
    1 / 2 ≤ (start.run (acts.take miss)).pressure side / (start.run (acts.take miss)).threshold side

/-- A push at the side was abandoned shortly before. -/
def Missed (start : Detector) (acts : List Act) (fire : Nat) (side : Side) (time : ℚ) : Prop :=
  ∃ miss ≤ fire, ∃ abandoned, Abandoned start acts miss side abandoned ∧
    time - abandoned ≤ effortWindow

/-- The session ended shortly after a fire. -/
def Crossed (start : Detector) (acts : List Act) (fire cross : Nat) (side : Side) (now : ℚ) : Prop :=
  ∃ time, Fired start acts fire side time ∧ fire < cross ∧
    acts[cross]? = some (.destroyed now) ∧ now - time ≤ crossConfirm

/-- A session began shortly after the crossing, and up to a place none ended and no fire came. -/
def Returned (start : Detector) (acts : List Act) (fire bound : Nat) (side : Side) (now : ℚ) :
    Prop :=
  ∃ cross back crossed, Crossed start acts fire cross side crossed ∧ cross < back ∧ back < bound ∧
    acts[back]? = some (.created now) ∧ now - crossed ≤ regretWindow ∧
    ∀ place, back < place → place < bound →
      (∀ now, acts[place]? ≠ some (.destroyed now)) ∧ ∀ time, ¬Fired start acts place side time

/-- What a threshold is lowered and raised for. -/
def Caused (start : Detector) (acts : List Act) : Side × Signal → Nat → Prop
  | (side, .effort), fire => ∃ time cross now, Fired start acts fire side time ∧
      Missed start acts fire side time ∧ fire < cross ∧
      acts[cross]? = some (.destroyed now) ∧ now - time ≤ crossConfirm
  | (side, .regret), fire => ∃ commit act now returned, acts[commit]? = some act ∧
      act.now = some now ∧ bounceCancel < now - returned ∧
      Returned start acts fire commit side returned

/-- The last teardown that confirmed a fire, before a place, was at a time, and the fire was armed. -/
def ArmedCross (start : Detector) (acts : List Act) (bound : Nat) (crossed : ℚ) : Prop :=
  ∃ cross < bound, acts[cross]? = some (.destroyed crossed) ∧
    (∃ side time, (start.run (acts.take cross)).confirmed crossed = some (side, time, true)) ∧
    ∀ place now, cross < place → place < bound → acts[place]? = some (.destroyed now) →
      (start.run (acts.take place)).confirmed now = none

/-- No session begins shortly after a teardown that confirmed an armed fire. -/
def Unhurried (start : Detector) (acts : List Act) : Prop :=
  ∀ back now, acts[back]? = some (.created now) →
    ∀ crossed, ArmedCross start acts back crossed → regretWindow < now - crossed

/-- The thresholds after some changes. -/
def replay (threshold : Side → ℚ) (log : List (Side × Signal)) : Side → ℚ :=
  log.foldl (fun threshold change => Function.update threshold change.1
    (clamp (threshold change.1 * change.2.factor))) threshold

def SessionAt (acts : List Act) (place : Nat) : Prop :=
  ∃ act, acts[place]? = some act ∧ act.isSession = true

/-! ## What is remembered -/

variable {entries : List ((Side × Signal) × Nat)} {bound : Nat}

/--
The changes made are those in the log, each with the fire it goes back to; a session began or ended
since.
-/
structure Book (start : Detector) (acts : List Act) (bound : Nat) (detector : Detector)
    (entries : List ((Side × Signal) × Nat)) : Prop where
  log : detector.log = entries.map Prod.fst
  threshold : detector.threshold = replay start.threshold detector.log
  caused : ∀ entry ∈ entries, Caused start acts entry.1 entry.2
  nodup : (entries.map Prod.snd).Nodup
  past : ∀ entry ∈ entries, ∃ place, entry.2 < place ∧ place < bound ∧ SessionAt acts place

/--
What is remembered of a fire, of a crossing, of a return and of an attempt was so.  No session began
or ended since the fire; the fire of a crossing has changed nothing unless it was armed; and that of
a return has changed nothing.
-/
structure Memory (start : Detector) (acts : List Act) (bound : Nat) (detector : Detector)
    (entries : List ((Side × Signal) × Nat)) : Prop where
  fired : ∀ side time armed, detector.lastFire = some (side, time, armed) →
    ∃ fire < bound, Fired start acts fire side time ∧
      (armed = true → Missed start acts fire side time) ∧
      ∀ place, fire < place → place < bound → ¬SessionAt acts place
  crossed : ∀ side now, detector.lastCross = some (side, now) →
    ∃ fire cross, cross < bound ∧ Crossed start acts fire cross side now ∧
      ((∃ entry ∈ entries, entry.2 = fire) → ArmedCross start acts bound now)
  pending : ∀ side now, detector.pendingRegret = some (side, now) → detector.learn = true ∧
    ∃ fire, Returned start acts fire bound side now ∧ ∀ entry ∈ entries, entry.2 ≠ fire
  attempt : ∀ side abandoned, detector.lastAttempt = some (side, abandoned) →
    ∃ miss ≤ bound, Abandoned start acts miss side abandoned
  apart : detector.lastCross = none ∨ detector.pendingRegret = none

theorem replay_append (threshold : Side → ℚ) (log : List (Side × Signal)) (side : Side)
    (signal : Signal) : replay threshold (log ++ [(side, signal)]) =
      Function.update (replay threshold log) side
        (clamp (replay threshold log side * signal.factor)) :=
  foldl_append

section

variable (book : Book start acts bound detector entries)
include book

/-- One more change, for a fire that had changed nothing. -/
theorem Book.setThreshold {signal : Signal} {fire place : Nat}
    (caused : Caused start acts (side, signal) fire) (new : ∀ entry ∈ entries, entry.2 ≠ fire)
    (later : fire < place) (within : place < bound) (session : SessionAt acts place) :
    Book start acts bound (detector.setThreshold side signal)
      (entries ++ [((side, signal), fire)]) := by
  refine ⟨?_, ?_, ?_, ?_, ?_⟩
  · rw [map_append, ← book.log]
    rfl
  · dsimp only [Detector.setThreshold]
    rw [replay_append, book.threshold]
  · intro entry member
    rcases mem_append.mp member with old | last
    · exact book.caused entry old
    · cases mem_singleton.mp last
      exact caused
  · rw [map_append]
    refine nodup_append.mpr ⟨book.nodup, by simp, fun one old other last => ?_⟩
    obtain ⟨entry, member, rfl⟩ := mem_map.mp old
    cases mem_singleton.mp last
    exact new entry member
  · intro entry member
    rcases mem_append.mp member with old | last
    · exact book.past entry old
    · cases mem_singleton.mp last
      exact ⟨place, later, within, session⟩

theorem Book.same {next : Detector} (log : next.log = detector.log)
    (threshold : next.threshold = detector.threshold) : Book start acts bound next entries :=
  ⟨log.trans book.log, by rw [threshold, log]; exact book.threshold, book.caused, book.nodup,
    book.past⟩

theorem Book.later : Book start acts (bound + 1) detector entries := by
  refine ⟨book.log, book.threshold, book.caused, book.nodup, fun entry member => ?_⟩
  obtain ⟨place, after, within, session⟩ := book.past entry member
  exact ⟨place, after, within.trans (Nat.lt_succ_self _), session⟩

end

variable {now : ℚ} {event : Update}

theorem Returned.session {fire : Nat} (returned : Returned start acts fire bound side now) :
    ∃ place, fire < place ∧ place < bound ∧ SessionAt acts place := by
  obtain ⟨cross, back, -, ⟨-, -, before, -, -⟩, after, within, there, -⟩ := returned
  exact ⟨back, before.trans after, within, _, there, rfl⟩

/-- A raise that was to be made is made for the fire of the return it is pending for. -/
theorem Book.commitRegret {place : Nat} {act : Act} (book : Book start acts bound detector entries)
    (here : acts[place]? = some act) (at_ : act.now = some now) (within : place ≤ bound)
    (pending : ∀ side returned, detector.pendingRegret = some (side, returned) →
      ∃ fire, Returned start acts fire place side returned ∧ ∀ entry ∈ entries, entry.2 ≠ fire) :
    Book start acts bound (detector.commitRegret now) entries ∨
      (detector.commitRegret now).pendingRegret = none ∧
      ∃ side returned fire, detector.pendingRegret = some (side, returned) ∧
        Returned start acts fire place side returned ∧ (∀ entry ∈ entries, entry.2 ≠ fire) ∧
        Book start acts bound (detector.commitRegret now)
          (entries ++ [((side, .regret), fire)]) := by
  unfold Detector.commitRegret
  split
  · next side returned waits =>
    split
    · next long =>
      split
      · obtain ⟨fire, came, new⟩ := pending side returned waits
        obtain ⟨session, later, before, is⟩ := came.session
        have caused : Caused start acts (side, .regret) fire :=
          ⟨place, act, now, returned, here, at_, long, came⟩
        have kept : Book start acts bound { detector with pendingRegret := none } entries :=
          book.same rfl rfl
        exact .inr ⟨rfl, side, returned, fire, waits, came, new,
          kept.setThreshold caused new later (before.trans_le within) is⟩
      · exact .inl (book.same rfl rfl)
    · exact .inl book
  · exact .inl book

/-! ## One act -/

/-- A fire that is remembered has changed nothing yet. -/
theorem Memory.new {time : ℚ} {armed : Bool} (memory : Memory start acts bound detector entries)
    (book : Book start acts bound detector entries)
    (last : detector.lastFire = some (side, time, armed)) :
    ∃ fire < bound, Fired start acts fire side time ∧
      (armed = true → Missed start acts fire side time) ∧
      (∀ entry ∈ entries, entry.2 ≠ fire) ∧
      ∀ side now, detector.pendingRegret = some (side, now) →
        ∀ other, Returned start acts other bound side now → other ≠ fire := by
  obtain ⟨fire, within, fired, missed, quiet⟩ := memory.fired side time armed last
  refine ⟨fire, within, fired, missed, ?_, ?_⟩
  · rintro entry member rfl
    obtain ⟨place, later, before, session⟩ := book.past entry member
    exact quiet place later before session
  · rintro side now - other came rfl
    obtain ⟨place, later, before, session⟩ := came.session
    exact quiet place later before session

theorem lastAttempt_pause {abandoned : ℚ}
    (attempt : (detector.pause event.now).lastAttempt = some (side, abandoned)) :
    detector.lastAttempt = some (side, abandoned) ∨ detector.lastUpdate = some abandoned ∧
      gestureGap < event.now - abandoned ∧ detector.latched side = false ∧
      1 / 2 ≤ detector.pressure side / detector.threshold side := by
  unfold pause at attempt
  split at attempt
  · next prev last =>
    split at attempt
    · next long =>
      unfold onGestureEnd at attempt
      split at attempt
      · next other found =>
        obtain ⟨ready, half⟩ := Bool.and_eq_true_iff.mp (strongest_counts found)
        have same : other = side ∧ event.now - (event.now - prev) = abandoned :=
          Prod.ext_iff.mp (Option.some.inj attempt)
        rw [sub_sub_cancel] at same
        obtain ⟨rfl, rfl⟩ := same
        exact .inr ⟨last, long, Bool.not_eq_true' _ ▸ ready, of_decide_eq_true half⟩
      · exact .inl attempt
    · exact .inl attempt
  · exact .inl attempt

theorem pause_memory (detector : Detector) (now : ℚ) :
    (detector.pause now).log = detector.log ∧
      (detector.pause now).threshold = detector.threshold ∧
      (detector.pause now).lastFire = detector.lastFire ∧
      (detector.pause now).lastCross = detector.lastCross ∧
      (detector.pause now).pendingRegret = detector.pendingRegret ∧
      (detector.pause now).learn = detector.learn := by
  unfold pause
  split
  · split
    · unfold onGestureEnd
      split <;> exact ⟨rfl, rfl, rfl, rfl, rfl, rfl⟩
    · exact ⟨rfl, rfl, rfl, rfl, rfl, rfl⟩
  · exact ⟨rfl, rfl, rfl, rfl, rfl, rfl⟩

theorem commitRegret_memory (detector : Detector) (now : ℚ) :
    (detector.commitRegret now).lastFire = detector.lastFire ∧
      (detector.commitRegret now).lastCross = detector.lastCross ∧
      (detector.commitRegret now).lastAttempt = detector.lastAttempt ∧
      (detector.commitRegret now).learn = detector.learn ∧
      ∀ side returned, (detector.commitRegret now).pendingRegret = some (side, returned) →
        detector.pendingRegret = some (side, returned) ∧ now - returned ≤ bounceCancel := by
  unfold commitRegret
  split
  · next side returned waits =>
    split
    · dsimp only
      split <;> exact ⟨rfl, rfl, rfl, rfl, fun _ _ none => nomatch none⟩
    · next short =>
      refine ⟨rfl, rfl, rfl, rfl, fun _ _ same => ⟨same, ?_⟩⟩
      rw [waits] at same
      cases same
      exact not_lt.mp short
  · next waits => exact ⟨rfl, rfl, rfl, rfl, fun _ _ same => by rw [waits] at same; cases same⟩

/-- What is left of what is remembered was so. -/
theorem Memory.less {next : Detector} (memory : Memory start acts bound detector entries)
    (fire : ∀ last, next.lastFire = some last → detector.lastFire = some last)
    (cross : ∀ last, next.lastCross = some last → detector.lastCross = some last)
    (regret : ∀ last, next.pendingRegret = some last → detector.pendingRegret = some last)
    (attempt : ∀ side abandoned, next.lastAttempt = some (side, abandoned) →
      ∃ miss ≤ bound, Abandoned start acts miss side abandoned)
    (learn : next.learn = detector.learn) : Memory start acts bound next entries := by
  refine ⟨fun side time armed last => memory.fired side time armed (fire _ last),
    fun side now last => memory.crossed side now (cross _ last), fun side now last => ?_,
    attempt, ?_⟩
  · rw [learn]
    exact memory.pending side now (regret _ last)
  · have gone : ∀ {now before : Option (Side × ℚ)}, (∀ last, now = some last → before = some last) →
        before = none → now = none := fun less none =>
      Option.eq_none_iff_forall_ne_some.mpr fun last same => by
        rw [less last same] at none
        cases none
    exact memory.apart.imp (gone cross) (gone regret)

/-- What is done before a motion counts. -/
theorem Memory.settle (memory : Memory start acts bound detector entries)
    (book : Book start acts bound detector entries) (here : acts[bound]? = some (.update event))
    (now : start.run (acts.take bound) = detector) :
    ∃ entries, Book start acts bound (detector.settle event) entries ∧
      Memory start acts bound (detector.settle event) entries ∧
      ∀ side returned, (detector.settle event).pendingRegret = some (side, returned) →
        event.now - returned ≤ bounceCancel := by
  obtain ⟨log, threshold, fire, cross, regret, learn⟩ := pause_memory detector event.now
  obtain ⟨fire', cross', attempt', learn', regret'⟩ := commitRegret_memory
    { detector.pause event.now with lastUpdate := some event.now } event.now
  have paused : Book start acts bound
      { detector.pause event.now with lastUpdate := some event.now } entries :=
    book.same log threshold
  have attempt : ∀ side abandoned, (detector.settle event).lastAttempt = some (side, abandoned) →
      ∃ miss ≤ bound, Abandoned start acts miss side abandoned := by
    intro side abandoned tried
    have tried := attempt'.symm.trans tried
    rcases lastAttempt_pause tried with before | ⟨last, long, ready, half⟩
    · exact memory.attempt side abandoned before
    · refine ⟨bound, le_refl _, event, here, ?_, long, ?_, ?_⟩ <;> rw [now]
      · exact last
      · exact ready
      · exact half
  have fired : ∀ last, (detector.settle event).lastFire = some last →
      detector.lastFire = some last := fun _ same => fire.symm.trans (fire'.symm.trans same)
  have crossed : ∀ last, (detector.settle event).lastCross = some last →
      detector.lastCross = some last := fun _ same => cross.symm.trans (cross'.symm.trans same)
  have regretted : ∀ side now, (detector.settle event).pendingRegret = some (side, now) →
      detector.pendingRegret = some (side, now) ∧ event.now - now ≤ bounceCancel := by
    intro side now same
    obtain ⟨waits, short⟩ := regret' side now same
    exact ⟨regret.symm.trans waits, short⟩
  rcases paused.commitRegret here rfl (le_refl _) fun side returned waits =>
    (memory.pending side returned (regret.symm.trans waits)).2 with kept |
    ⟨empty, side, returned, fire, waits, -, -, made⟩
  · exact ⟨entries, kept.same rfl rfl, memory.less fired crossed
      (fun last same => (regretted last.1 last.2 same).1) attempt (learn'.trans learn),
      fun side now last => (regretted side now last).2⟩
  · have uncrossed : detector.lastCross = none := memory.apart.resolve_right fun none => by
      rw [regret.symm.trans waits] at none
      cases none
    refine ⟨_, made.same rfl rfl, ⟨fun side time armed last =>
      memory.fired side time armed (fired _ last), fun side now last => ?_,
      fun side now last => ?_, attempt, .inr empty⟩, fun side now last => ?_⟩
    · have last := crossed _ last
      rw [uncrossed] at last
      cases last
    · cases empty.symm.trans last
    · cases empty.symm.trans last

theorem ArmedCross.later {time : ℚ} (armed : ArmedCross start acts bound time)
    (unconfirmed : ∀ now, acts[bound]? = some (.destroyed now) →
      (start.run (acts.take bound)).confirmed now = none) :
    ArmedCross start acts (bound + 1) time := by
  obtain ⟨cross, within, there, confirms, last⟩ := armed
  refine ⟨cross, within.trans (Nat.lt_succ_self _), there, confirms,
    fun place now after before ends => ?_⟩
  rcases Nat.lt_succ_iff_lt_or_eq.mp before with before | rfl
  · exact last place now after before ends
  · exact unconfirmed now ends

theorem Returned.later {fire : Nat} (returned : Returned start acts fire bound side now)
    (going : ∀ now, acts[bound]? ≠ some (.destroyed now))
    (unbounced : ∀ time, ¬Fired start acts bound side time) :
    Returned start acts fire (bound + 1) side now := by
  obtain ⟨cross, back, time, crossed, before, within, there, soon, none⟩ := returned
  refine ⟨cross, back, time, crossed, before, within.trans (Nat.lt_succ_self _), there, soon,
    fun place after before => ?_⟩
  rcases Nat.lt_succ_iff_lt_or_eq.mp before with before | rfl
  · exact none place after before
  · exact ⟨going, unbounced⟩

/-- An act at which no session begins or ends and no side with a return pending is crossed. -/
theorem Memory.later (memory : Memory start acts bound detector entries)
    (quiet : ¬SessionAt acts bound)
    (unbounced : ∀ side now, detector.pendingRegret = some (side, now) →
      ∀ time, ¬Fired start acts bound side time) :
    Memory start acts (bound + 1) detector entries := by
  refine ⟨fun side time armed last => ?_, fun side now last => ?_, fun side now last => ?_,
    fun side abandoned last => ?_, memory.apart⟩
  · obtain ⟨fire, within, fired, missed, none⟩ := memory.fired side time armed last
    refine ⟨fire, within.trans (Nat.lt_succ_self _), fired, missed, fun place after before => ?_⟩
    rcases Nat.lt_succ_iff_lt_or_eq.mp before with before | rfl
    · exact none place after before
    · exact quiet
  · obtain ⟨fire, cross, within, crossed, armed⟩ := memory.crossed side now last
    exact ⟨fire, cross, within.trans (Nat.lt_succ_self _), crossed, fun used =>
      (armed used).later fun now there => absurd ⟨_, there, rfl⟩ quiet⟩
  · obtain ⟨learns, fire, returned, new⟩ := memory.pending side now last
    exact ⟨learns, fire, returned.later (fun now there => quiet ⟨_, there, rfl⟩)
      (unbounced side now last), new⟩
  · obtain ⟨miss, within, abandoned⟩ := memory.attempt side abandoned last
    exact ⟨miss, within.trans (Nat.le_succ _), abandoned⟩

theorem fire_memory (detector : Detector) (side : Side) (now : ℚ) :
    (∃ armed, (detector.fire side now).lastFire = some (side, now, armed) ∧ (armed = true →
      ∃ abandoned, detector.lastAttempt = some (side, abandoned) ∧
        now - abandoned ≤ effortWindow)) ∧
      (detector.fire side now).log = detector.log ∧
      (detector.fire side now).lastCross = detector.lastCross ∧
      (detector.fire side now).learn = detector.learn ∧
      ((detector.fire side now).lastAttempt = none ∨
        (detector.fire side now).lastAttempt = detector.lastAttempt) ∧
      ∀ other returned, (detector.fire side now).pendingRegret = some (other, returned) →
        detector.pendingRegret = some (other, returned) ∧
        (detector.learn = true → ¬(other = side ∧ now - returned ≤ bounceCancel)) := by
  unfold fire
  dsimp only
  cases learns : detector.learn with
  | false =>
    exact ⟨⟨false, rfl, fun armed => nomatch armed⟩, rfl, rfl, rfl, .inr rfl,
      fun _ _ same => ⟨same, fun learns => nomatch learns⟩⟩
  | true =>
    rw [if_pos rfl]
    unfold onFire
    split
    · exact ⟨⟨false, rfl, fun armed => nomatch armed⟩, rfl, rfl, rfl, .inr rfl,
        fun _ _ none => nomatch none⟩
    · next kept =>
      have apart : ∀ other returned, detector.pendingRegret = some (other, returned) →
          ¬(other = side ∧ now - returned ≤ bounceCancel) := by
        rintro other returned waits both
        refine kept ?_
        rw [waits]
        exact Bool.and_eq_true_iff.mpr ⟨decide_eq_true both.1, decide_eq_true both.2⟩
      split
      · next tried =>
        obtain ⟨⟨other, abandoned⟩, attempt, both⟩ := (Option.any_eq_true _ _).mp tried
        obtain ⟨same, soon⟩ := Bool.and_eq_true_iff.mp both
        cases of_decide_eq_true same
        exact ⟨⟨true, rfl, fun _ => ⟨abandoned, attempt, of_decide_eq_true soon⟩⟩, rfl, rfl, rfl, .inl rfl,
          fun other returned same => ⟨same, fun _ => apart other returned same⟩⟩
      · exact ⟨⟨false, rfl, fun armed => nomatch armed⟩, rfl, rfl, rfl, .inr rfl,
          fun other returned same => ⟨same, fun _ => apart other returned same⟩⟩

theorem feel_memory {felt : Detector} (feels : detector.feel event = some felt) :
    felt.log = detector.log ∧ felt.threshold = detector.threshold ∧
      felt.lastFire = detector.lastFire ∧ felt.lastCross = detector.lastCross ∧
      felt.pendingRegret = detector.pendingRegret ∧ felt.lastAttempt = detector.lastAttempt ∧
      felt.learn = detector.learn := by
  unfold feel at feels
  split at feels
  · obtain ⟨read, -, rfl⟩ := Option.map_eq_some_iff.mp feels
    exact ⟨rfl, rfl, rfl, rfl, rfl, rfl, rfl⟩
  · cases feels
    exact ⟨rfl, rfl, rfl, rfl, rfl, rfl, rfl⟩

theorem Memory.fire (memory : Memory start acts bound detector entries)
    (here : acts[bound]? = some (.update event))
    (short : ∀ side returned, detector.pendingRegret = some (side, returned) →
      event.now - returned ≤ bounceCancel)
    (told : start.told (acts.take bound) (.update event) = some side) :
    Memory start acts (bound + 1) (detector.fire side event.now) entries := by
  have quiet : ¬SessionAt acts bound := by
    rintro ⟨act, there, session⟩
    cases here.symm.trans there
    cases session
  obtain ⟨⟨armed, last, missed⟩, -, cross, learn, attempt, pending⟩ :=
    fire_memory detector side event.now
  have less : Memory start acts bound { detector.fire side event.now with lastFire := none }
      entries := memory.less (fun _ none => nomatch none) (fun _ same => cross.symm.trans same)
    (fun regret same => (pending regret.1 regret.2 same).1) (fun other abandoned tried => by
      rcases attempt with none | same
      · cases none.symm.trans tried
      · exact memory.attempt other abandoned (same.symm.trans tried)) learn
  have later := less.later quiet fun other returned waits time ⟨event', there, _, told'⟩ => by
    cases here.symm.trans there
    obtain ⟨before, apart⟩ := pending other returned waits
    cases told.symm.trans told'
    exact apart (memory.pending side returned before).1 ⟨rfl, short side returned before⟩
  refine ⟨fun other time armed' fired => ?_, later.crossed, later.pending, later.attempt,
    later.apart⟩
  cases last.symm.trans fired
  refine ⟨bound, Nat.lt_succ_self _, ⟨event, here, rfl, told⟩, fun armed => ?_,
    fun place after before => absurd (Nat.lt_succ_iff.mp before) (Nat.not_le.mpr after)⟩
  obtain ⟨abandoned, tried, soon⟩ := missed armed
  obtain ⟨miss, within, abandons⟩ := memory.attempt side abandoned tried
  exact ⟨miss, within, abandoned, abandons, soon⟩

theorem conclude_eq (detector : Detector) (now : ℚ) : detector.conclude now = (detector, none) ∨
    ∃ side, detector.conclude now = (detector.fire side now, some side) := by
  unfold conclude
  split
  · split
    · exact .inl rfl
    · exact .inr ⟨_, rfl⟩
  · exact .inl rfl

section

variable (memory : Memory start acts bound detector entries)
include memory

section

variable (book : Book start acts bound detector entries)
include book

theorem Memory.update (here : acts[bound]? = some (.update event))
    (now : start.run (acts.take bound) = detector) :
    ∃ entries, Book start acts (bound + 1) (detector.update event).1 entries ∧
      Memory start acts (bound + 1) (detector.update event).1 entries := by
  have quiet : ¬SessionAt acts bound := by
    rintro ⟨act, there, session⟩
    cases here.symm.trans there
    cases session
  have told : start.told (acts.take bound) (.update event) = (detector.update event).2 := by
    rw [← now]
    rfl
  have silent : (detector.update event).2 = none →
      ∀ side time, ¬Fired start acts bound side time := by
    rintro none side time ⟨event', there, -, told'⟩
    cases here.symm.trans there
    rw [told, none] at told'
    cases told'
  cases enabled : detector.enabled with
  | false =>
    rw [update_disabled enabled] at silent ⊢
    exact ⟨entries, book.later, memory.later quiet fun side _ _ => silent rfl side⟩
  | true =>
    unfold Detector.update at told silent ⊢
    rw [if_pos enabled] at told silent ⊢
    obtain ⟨settledEntries, booked, kept, short⟩ := memory.settle book here now
    cases feels : (detector.settle event).feel event with
    | none =>
      rw [feels] at silent
      exact ⟨_, booked.later, kept.later quiet fun side _ _ => silent rfl side⟩
    | some felt =>
      rw [feels] at told silent
      obtain ⟨log, threshold, fire, cross, regret, attempt, learn⟩ := feel_memory feels
      have booked := booked.same log threshold
      have kept : Memory start acts bound felt settledEntries := kept.less (fun _ same => fire ▸ same)
        (fun _ same => cross ▸ same) (fun _ same => regret ▸ same)
        (fun side abandoned tried => kept.attempt side abandoned (attempt ▸ tried)) learn
      dsimp only at told silent ⊢
      rcases conclude_eq felt event.now with same | ⟨side, same⟩ <;>
        rw [same] at told silent ⊢
      · exact ⟨_, booked.later, kept.later quiet fun side _ _ => silent rfl side⟩
      · have fires := fires_fire felt side event.now
        exact ⟨_, (booked.same (fire_memory felt side event.now).2.1 fires.threshold).later,
          kept.fire here (fun side returned waits => short side returned (regret ▸ waits)) told⟩

theorem Memory.confirm (here : acts[bound]? = some (.destroyed now))
    (there : start.run (acts.take bound) = detector) :
    ∃ entries, Book start acts (bound + 1) (detector.confirm now) entries ∧
      (∀ side returned, (detector.confirm now).pendingRegret = some (side, returned) →
        ∃ fire, Returned start acts fire bound side returned ∧ ∀ entry ∈ entries, entry.2 ≠ fire) ∧
      ∀ side crossed, (detector.confirm now).lastCross = some (side, crossed) →
        ∃ fire cross, cross < bound + 1 ∧ Crossed start acts fire cross side crossed ∧
          ((∃ entry ∈ entries, entry.2 = fire) → ArmedCross start acts (bound + 1) crossed) ∧
          ∀ side returned, (detector.confirm now).pendingRegret = some (side, returned) →
            ∀ other, Returned start acts other bound side returned → other ≠ fire := by
  have session : SessionAt acts bound := ⟨_, here, rfl⟩
  unfold Detector.confirm
  cases confirms : detector.confirmed now with
  | none =>
    refine ⟨entries, book.later.same rfl rfl, fun side returned waits =>
      (memory.pending side returned waits).2, fun side crossed last => ?_⟩
    obtain ⟨fire, cross, within, came, armed⟩ := memory.crossed side crossed last
    refine ⟨fire, cross, within.trans (Nat.lt_succ_self _), came, fun used =>
      (armed used).later fun time ends => ?_, fun other returned waits => ?_⟩
    · cases here.symm.trans ends
      rw [there]
      exact confirms
    · have none := memory.apart.resolve_left fun none => by cases none.symm.trans last
      cases none.symm.trans waits
  | some fire =>
    obtain ⟨side, time, armed⟩ := fire
    obtain ⟨last, soon⟩ := Option.filter_eq_some_iff.mp confirms
    obtain ⟨fire, within, fired, missed, new, apart⟩ := memory.new book last
    have crosses : Crossed start acts fire bound side now :=
      ⟨time, fired, within, here, of_decide_eq_true soon⟩
    have kept : Book start acts (bound + 1)
        { detector with lastFire := none, lastCross := some (side, now) } entries :=
      book.later.same rfl rfl
    have pending : ∀ other returned, detector.pendingRegret = some (other, returned) →
        ∃ fire, Returned start acts fire bound other returned ∧
          ∀ entry ∈ entries, entry.2 ≠ fire := fun other returned waits =>
      (memory.pending other returned waits).2
    dsimp only
    split
    · next both =>
      obtain ⟨-, rfl⟩ := Bool.and_eq_true_iff.mp both
      have caused : Caused start acts (side, .effort) fire :=
        ⟨time, bound, now, fired, missed rfl, within, here, of_decide_eq_true soon⟩
      refine ⟨_, kept.setThreshold caused new within (Nat.lt_succ_self _) session,
        fun other returned waits => ?_, fun other crossed cross => ?_⟩
      · obtain ⟨return_, came, unused⟩ := pending other returned waits
        refine ⟨return_, came, fun entry member => ?_⟩
        rcases mem_append.mp member with old | added
        · exact unused entry old
        · cases mem_singleton.mp added
          exact (apart other returned waits return_ came).symm
      · cases cross
        exact ⟨fire, bound, Nat.lt_succ_self _, crosses, fun _ => ⟨bound, Nat.lt_succ_self _,
          here, ⟨side, time, by rw [there]; exact confirms⟩, fun place _ after before =>
            absurd (Nat.lt_succ_iff.mp before) (Nat.not_le.mpr after)⟩, apart⟩
    · refine ⟨entries, kept, pending, fun other crossed cross => ?_⟩
      cases cross
      exact ⟨fire, bound, Nat.lt_succ_self _, crosses, fun ⟨entry, member, same⟩ =>
        absurd same (new entry member), apart⟩

theorem Memory.destroyed (here : acts[bound]? = some (.destroyed now))
    (there : start.run (acts.take bound) = detector) :
    ∃ entries, Book start acts (bound + 1) (detector.onSessionDestroyed now) entries ∧
      Memory start acts (bound + 1) (detector.onSessionDestroyed now) entries := by
  obtain ⟨confirmedEntries, booked, pending, crossed⟩ := memory.confirm book here there
  obtain ⟨fire, cross, -⟩ := commitRegret_memory (detector.confirm now) now
  have spent : (detector.confirm now).lastFire = none := by
    unfold Detector.confirm
    split
    · dsimp only
      split <;> rfl
    · rfl
  have forgets : ∀ entries, (∀ side time, (detector.confirm now).lastCross = some (side, time) →
      ∃ fire cross, cross < bound + 1 ∧ Crossed start acts fire cross side time ∧
        ((∃ entry ∈ entries, entry.2 = fire) → ArmedCross start acts (bound + 1) time)) →
      Memory start acts (bound + 1) (detector.onSessionDestroyed now) entries := fun entries past =>
    ⟨fun _ _ _ last => (nomatch spent.symm.trans (fire.symm.trans last)),
      fun side time last => past side time (cross.symm.trans last), nofun, nofun, .inr rfl⟩
  rcases booked.commitRegret here rfl (Nat.le_succ _) pending with kept |
    ⟨-, side, returned, fire, waits, came, -, made⟩
  · refine ⟨_, kept.same rfl rfl, forgets _ fun side time last => ?_⟩
    obtain ⟨fire, cross, within, crosses, armed, -⟩ := crossed side time last
    exact ⟨fire, cross, within, crosses, armed⟩
  · refine ⟨_, made.same rfl rfl, forgets _ fun other time last => ?_⟩
    obtain ⟨crossing, cross, within, crosses, armed, apart⟩ := crossed other time last
    refine ⟨crossing, cross, within, crosses, fun ⟨entry, member, same⟩ => ?_⟩
    rcases mem_append.mp member with old | added
    · exact armed ⟨entry, old, same⟩
    · cases mem_singleton.mp added
      exact absurd same (apart side returned waits fire came)

end

end

theorem Memory.created {now : ℚ} (memory : Memory start acts bound detector entries)
    (book : Book start acts bound detector entries) (here : acts[bound]? = some (.created now))
    (unhurried : ∀ crossed, ArmedCross start acts bound crossed → regretWindow < now - crossed) :
    Book start acts (bound + 1) (detector.onSessionCreated now) entries ∧
      Memory start acts (bound + 1) (detector.onSessionCreated now) entries := by
  have kept : ∀ side returned, detector.pendingRegret = some (side, returned) →
      detector.learn = true ∧ ∃ fire, Returned start acts fire (bound + 1) side returned ∧
        ∀ entry ∈ entries, entry.2 ≠ fire := by
    intro side returned waits
    obtain ⟨learns, fire, came, new⟩ := memory.pending side returned waits
    refine ⟨learns, fire, came.later (fun _ ends => ?_) (fun _ ⟨_, fires, _⟩ => ?_), new⟩
    · cases here.symm.trans ends
    · cases here.symm.trans fires
  refine ⟨book.later.same rfl rfl, nofun, nofun, fun side returned waits => ?_, nofun, .inl rfl⟩
  unfold onSessionCreated at waits ⊢
  split at waits
  · next other crossed last =>
    split at waits
    · next soon =>
      cases waits
      obtain ⟨fire, cross, within, crosses, armed⟩ := memory.crossed _ crossed last
      refine ⟨soon.1, fire, ⟨cross, bound, crossed, crosses, within, Nat.lt_succ_self _, here,
        soon.2, fun place after before =>
          absurd (Nat.lt_succ_iff.mp before) (Nat.not_le.mpr after)⟩, fun entry member same =>
        absurd soon.2 (not_le.mpr (unhurried crossed (armed ⟨entry, member, same⟩)))⟩
    · exact kept side returned waits
  · exact kept side returned waits

/-! ## Every run -/

theorem learned {parse : Files.Text → Option Number} {environment : Environment}
    (unhurried : Unhurried (fromEnv parse environment) acts) (bound : Nat) :
    bound ≤ acts.length → ∃ entries,
      Book (fromEnv parse environment) acts bound
        ((fromEnv parse environment).run (acts.take bound)) entries ∧
      Memory (fromEnv parse environment) acts bound
        ((fromEnv parse environment).run (acts.take bound)) entries := by
  induction bound with
  | zero =>
    exact fun _ => ⟨[], ⟨rfl, rfl, by simp, nodup_nil, by simp⟩,
      ⟨nofun, nofun, nofun, nofun, .inl rfl⟩⟩
  | succ bound ih =>
    intro within
    obtain ⟨entries, book, memory⟩ := ih (Nat.le_of_succ_le within)
    obtain ⟨act, here⟩ : ∃ act, acts[bound]? = some act := ⟨_, getElem?_eq_getElem within⟩
    have next : (fromEnv parse environment).run (acts.take (bound + 1)) =
        (((fromEnv parse environment).run (acts.take bound)).step act).1 := by
      rw [take_add_one, here, Detector.run, foldl_append]
      rfl
    rw [next]
    cases act with
    | update event => exact memory.update book here rfl
    | reset =>
      have quiet : ¬SessionAt acts bound := by
        rintro ⟨act, there, session⟩
        cases here.symm.trans there
        cases session
      have later := memory.later quiet fun _ _ _ _ ⟨_, there, _⟩ => by
        cases here.symm.trans there
      exact ⟨entries, book.later.same rfl rfl, later.fired, later.crossed, later.pending,
        later.attempt, later.apart⟩
    | created now => exact ⟨entries, memory.created book here (unhurried bound now here)⟩
    | destroyed now => exact memory.destroyed book here rfl

/--
The thresholds are what the changes in the log made of them.  Each change has a fire it was made for,
and no fire two.
-/
def OneEach (start : Detector) (acts : List Act) : Prop :=
  (start.run acts).threshold = replay start.threshold (start.run acts).log ∧
    ∃ entries : List ((Side × Signal) × Nat), (start.run acts).log = entries.map Prod.fst ∧
      (∀ entry ∈ entries, Caused start acts entry.1 entry.2) ∧ (entries.map Prod.snd).Nodup

/-- A fire that was armed is not regretted as well, as long as no return from it is hurried. -/
theorem learned_once (parse : Files.Text → Option Number) (environment : Environment)
    (acts : List Act) (unhurried : Unhurried (fromEnv parse environment) acts) :
    OneEach (fromEnv parse environment) acts := by
  obtain ⟨entries, book, -⟩ := learned unhurried acts.length (le_refl _)
  rw [take_length] at book
  exact ⟨book.threshold, entries, book.log, book.caused, book.nodup⟩

/-- A push abandoned half-way, one that crosses, and the end of the session. -/
def effortful : List Act :=
  [corner 0 [wide] 0, corner 300 [wide] 0, corner 400 [wide] 0, .destroyed 500]

theorem learned_once_effortful :
    (plain.run (effortful ++ [.created 1400])).log = [(.right, .effort)] ∧
      OneEach plain (effortful ++ [.created 1400]) := by
  refine ⟨by decide +kernel, learned_once (fun _ => none) ⟨none, none, none, none⟩ _ ?_⟩
  rintro back now begins crossed ⟨cross, -, ends, -⟩
  have begins := mem_of_getElem? begins
  have ends := mem_of_getElem? ends
  simp [effortful, corner] at begins ends
  rw [begins, ends]
  norm_num [regretWindow]

/-- A return shortly after a fire that was armed raises the threshold that the fire has lowered. -/
theorem learned_twice : ¬∀ (parse : Files.Text → Option Number) (environment : Environment)
    (acts : List Act), Timely acts → (fromEnv parse environment).learn = true →
      OneEach (fromEnv parse environment) acts := by
  intro each
  let hurried : List Act := effortful ++
    [.created 700, .update ⟨2300, some [wide], ⟨0, 0, 0, 0, 1919, 1079⟩⟩]
  have timely : Timely hurried := by
    simp [Timely, hurried, effortful, corner, Act.now]
    norm_num
  obtain ⟨-, entries, log, caused, nodup⟩ :=
    each (fun _ => none) ⟨none, none, none, none⟩ hurried timely rfl
  have log' : (plain.run hurried).log = [(.right, .effort), (.right, .regret)] := by
    decide +kernel
  have quiet : ∀ place < 6, place ≠ 2 →
      (hurried[place]?.bind fun act => plain.told (hurried.take place) act) = none := by
    decide +kernel
  have only : ∀ fire side time, Fired plain hurried fire side time → fire = 2 := by
    rintro fire side time ⟨event, there, -, told⟩
    by_contra other
    have none := quiet fire (List.getElem?_eq_some_iff.mp there).1 other
    rw [there] at none
    cases told.symm.trans none
  have same : ∀ entry ∈ entries, entry.2 = 2 := by
    rintro ⟨⟨side, _ | _⟩, fire⟩ member
    · obtain ⟨time, -, -, fired, -⟩ := caused _ member
      exact only _ _ _ fired
    · obtain ⟨-, -, -, -, -, -, -, -, -, -, ⟨time, fired, -⟩, -⟩ := caused _ member
      exact only _ _ _ fired
  have two : entries.length = 2 := by
    have length := congrArg List.length (log'.symm.trans log)
    rw [length_map] at length
    exact length.symm
  obtain ⟨one, other, rfl⟩ := length_eq_two.mp two
  have apart := pairwise_pair.mp nodup
  rw [same one (.head _), same other (.tail _ (.head _))] at apart
  exact apart rfl

end HopsFormal.EdgePressure
