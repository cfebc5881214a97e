import HopsFormal.EdgePressure.Pushes
import Mathlib.Algebra.Order.BigOperators.Group.List

/-!
# When an edge is crossed

Whatever pressure a side has, motion out at its edge built it, without a pause or motion inward in
between; so a side that fires was pushed at, and rests until the push is over.  The edge is the one
read last, which displays that come or go can make an inner one for as long as it is kept.
-/

namespace HopsFormal.EdgePressure

open List Detector Detector

variable {acts : List Act} {side : Side} {detector : Detector}

theorem Detector.Bounded.confirm (bounded : detector.Bounded) (now : ℚ) :
    (detector.confirm now).Bounded := by
  unfold Detector.confirm
  split
  · dsimp only
    split
    · exact Bounded.setThreshold bounded _ _
    · exact bounded
  · exact bounded

theorem Detector.Bounded.step (bounded : detector.Bounded) (act : Act) :
    (detector.step act).1.Bounded := by
  cases act with
  | update event =>
    cases enabled : detector.enabled with
    | false =>
      dsimp only [Detector.step]
      rw [update_disabled enabled]
      exact bounded
    | true =>
      have updates := updates_update enabled event
      dsimp only [Detector.step]
      generalize detector.update event = out at updates
      obtain ⟨next, told⟩ := out
      cases updates with
      | unknown settles => exact (settles.raised bounded).1
      | known settles feels concludes =>
        have felt := (settles.raised bounded).1
        rw [Bounded, ← feels.threshold] at felt
        cases concludes with
        | nothing => exact felt
        | fires ready enough clear fires =>
          rw [← fires.threshold] at felt
          exact felt
  | reset | created now => exact bounded
  | destroyed now => exact (bounded.confirm now).commitRegret now

variable {start : Detector} {event : Update} {act : Act}

theorem bounded_run (bounded : start.Bounded) (acts : List Act) : (start.run acts).Bounded := by
  induction acts generalizing start with
  | nil => exact bounded
  | cons act rest ih => exact ih (bounded.step act)

/-! ## Pushes at an edge -/

/-- Motions with no pause between them and none inward. -/
def Unbroken (side : Side) (span : List Update) : Prop :=
  span.IsChain (fun one next => next.now - one.now ≤ gestureGap) ∧
    ∀ event ∈ span, event.motion.inward side = false

/-- What some motions count for, each up to half the threshold. -/
def amount (threshold : ℚ) (side : Side) (pushes : List Update) : ℚ :=
  (pushes.map fun push => min (push.motion.outward side) (threshold / 2)).sum

/-- The last of some acts are motions of one push, and some of them push out at an edge. -/
structure Contact (edge : Update → Prop) (side : Side) (acts : List Act)
    (span pushes : List Update) : Prop where
  last : span.map Act.update <:+ acts
  unbroken : Unbroken side span
  among : pushes.Sublist span
  outward : ∀ push ∈ pushes, 0 < push.motion.outward side ∧ edge push

/-- A motion is at the outer edge of displays that an update reported less than a second before. -/
def OuterEdge (acts : List Act) (side : Side) (push : Update) : Prop :=
  ∃ event bounds, Act.update event ∈ acts ∧ event.now ≤ push.now ∧
    push.now - event.now < unionCache ∧ event.displays.bind unionOf = some bounds ∧
    push.motion.atEdge bounds side = true

variable {span pushes : List Update}

theorem Contact.nothing (edge : Update → Prop) (side : Side) (acts : List Act) :
    Contact edge side acts [] [] :=
  ⟨nil_suffix, ⟨.nil, fun _ none => nomatch none⟩, List.Sublist.refl _,
    fun _ none => nomatch none⟩

theorem OuterEdge.append {push : Update} (outer : OuterEdge acts side push) (act : Act) :
    OuterEdge (acts ++ [act]) side push := by
  obtain ⟨event, bounds, member, rest⟩ := outer
  exact ⟨event, bounds, mem_append_left _ member, rest⟩

/-- One more motion of the push. -/
theorem Contact.extend (contact : Contact (OuterEdge acts side) side acts span pushes)
    (short : ∀ last ∈ span.getLast?, event.now - last.now ≤ gestureGap)
    (still : event.motion.inward side = false) :
    Contact (OuterEdge (acts ++ [.update event]) side) side (acts ++ [.update event])
      (span ++ [event]) pushes := by
  refine ⟨?_, ⟨?_, ?_⟩, contact.among.trans (sublist_append_left _ _),
    fun push member => ?_⟩
  · obtain ⟨earlier, rfl⟩ := contact.last
    exact ⟨earlier, by simp⟩
  · refine isChain_append.mpr ⟨contact.unbroken.1, .singleton _, fun last there next first => ?_⟩
    cases first
    exact short last there
  · intro one member
    rcases mem_append.mp member with old | new
    · exact contact.unbroken.2 one old
    · cases mem_singleton.mp new
      exact still
  · obtain ⟨outward, outer⟩ := contact.outward push member
    exact ⟨outward, outer.append _⟩

theorem Contact.push (contact : Contact (OuterEdge acts side) side acts (span ++ [event]) pushes)
    (among : pushes.Sublist span) (outward : 0 < event.motion.outward side)
    (outer : OuterEdge acts side event) :
    Contact (OuterEdge acts side) side acts (span ++ [event]) (pushes ++ [event]) := by
  refine ⟨contact.last, contact.unbroken, among.append_right _, fun push member => ?_⟩
  rcases mem_append.mp member with old | new
  · exact contact.outward push old
  · cases mem_singleton.mp new
    exact ⟨outward, outer⟩

theorem amount_append (threshold : ℚ) (side : Side) (pushes : List Update) (event : Update) :
    amount threshold side (pushes ++ [event]) =
      amount threshold side pushes + min (event.motion.outward side) (threshold / 2) := by
  simp [amount]

theorem amount_mono {less more : ℚ} (raised : less ≤ more) (side : Side) (pushes : List Update) :
    amount less side pushes ≤ amount more side pushes :=
  sum_le_sum fun _ _ => min_le_min_left _ (div_le_div_of_nonneg_right raised (by norm_num))

theorem amount_le (threshold : ℚ) (side : Side) (pushes : List Update) :
    amount threshold side pushes ≤ pushes.length * (threshold / 2) := by
  induction pushes with
  | nil => simp [amount]
  | cons push rest ih =>
    have one : min (push.motion.outward side) (threshold / 2) ≤ threshold / 2 := min_le_right _ _
    simp only [amount, map_cons, sum_cons, length_cons, Nat.cast_add,
      Nat.cast_one] at ih ⊢
    linarith

/-- One motion alone does not come to the threshold. -/
theorem two_le_length {threshold : ℚ} (positive : 0 < threshold)
    (enough : threshold ≤ amount threshold side pushes) : 2 ≤ pushes.length := by
  by_contra few
  have length : (pushes.length : ℚ) ≤ 1 := by exact_mod_cast Nat.le_of_lt_succ (not_le.mp few)
  have most := amount_le threshold side pushes
  nlinarith

theorem pos_of_pushed_pos {requested blocked : ℚ} (out : 0 < pushed requested blocked) :
    0 < requested := by
  unfold pushed at out
  split at out
  · next both => exact both.1
  · split at out
    · next both => exact absurd out (not_lt.mpr (max_le both.2.le both.1.le))
    · exact absurd out (lt_irrefl _)

theorem neg_of_pushed_neg {requested blocked : ℚ} (out : pushed requested blocked < 0) :
    requested < 0 := by
  unfold pushed at out
  split at out
  · next both => exact absurd out (not_lt.mpr (le_min both.2.le both.1.le))
  · split at out
    · next both => exact both.1
    · exact absurd out (lt_irrefl _)

theorem inward_eq_false {motion : Motion} (out : 0 < motion.outward side) :
    motion.inward side = false := by
  have ahead : 0 < side.toward motion.dx motion.dy := by
    cases side with
    | left | top => exact neg_pos.mpr (neg_of_pushed_neg (neg_pos.mp out))
    | right | bottom => exact pos_of_pushed_pos out
  refine decide_eq_false (not_lt.mpr ?_)
  norm_num [inwardReset]
  linarith

/-! ## Every run -/

/--
The thresholds are within bounds, the edges kept are those that an update reported, and what a side
has of pressure was built by one push.
-/
structure Sound (acts : List Act) (detector : Detector) : Prop where
  bounded : detector.Bounded
  disabled : detector.enabled = false → ∀ side, detector.pressure side = 0
  read : ∀ read, detector.union = some read → ∃ event, Act.update event ∈ acts ∧
    event.now = read.2 ∧ event.displays.bind unionOf = some read.1
  built : ∀ side, ∃ span pushes, Contact (OuterEdge acts side) side acts span pushes ∧
    detector.pressure side ≤ amount (detector.threshold side) side pushes ∧
    ∀ last ∈ span.getLast?, detector.lastUpdate = some last.now

/-- A side with no pressure. -/
theorem built_nothing (acts : List Act) (side : Side) (none : detector.pressure side = 0) :
    ∃ span pushes, Contact (OuterEdge acts side) side acts span pushes ∧
      detector.pressure side ≤ amount (detector.threshold side) side pushes ∧
      ∀ last ∈ span.getLast?, detector.lastUpdate = some last.now :=
  ⟨[], [], .nothing _ _ _, none.le, fun _ none => nomatch none⟩

theorem sound_start (bounded : start.Bounded) (union : start.union = none)
    (pressure : ∀ side, start.pressure side = 0) : Sound [] start where
  bounded := bounded
  disabled _ := pressure
  read read there := by
    rw [union] at there
    cases there
  built side := built_nothing [] side (pressure side)

/-- What is read of the displays was reported less than a second before. -/
theorem Sound.reads {settled : Detector} {read : Bounds × ℚ} (sound : Sound acts detector)
    (union : settled.union = detector.union) (reads : settled.unionBounds event = some read) :
    event.now - read.2 < unionCache ∧ ∃ reported, Act.update reported ∈ acts ++ [.update event] ∧
      reported.now = read.2 ∧ reported.displays.bind unionOf = some read.1 := by
  have now (reads : (event.displays.bind unionOf).map (fun bounds => (bounds, event.now)) =
      some read) : event.now - read.2 < unionCache ∧ ∃ reported,
        Act.update reported ∈ acts ++ [.update event] ∧ reported.now = read.2 ∧
        reported.displays.bind unionOf = some read.1 := by
    obtain ⟨bounds, there, rfl⟩ := Option.map_eq_some_iff.mp reads
    refine ⟨?_, event, by simp, rfl, there⟩
    norm_num [unionCache]
  unfold unionBounds at reads
  split at reads
  · next bounds computedAt cached =>
    split at reads
    · next fresh =>
      cases reads
      obtain ⟨reported, member, rest⟩ := sound.read _ (union ▸ cached)
      exact ⟨fresh, reported, mem_append_left _ member, rest⟩
    · exact now reads
  · exact now reads

theorem Sound.felt {settled felt : Detector} (sound : Sound acts detector)
    (timely : ∀ reported, Act.update reported ∈ acts → reported.now ≤ event.now)
    (settles : Settled detector event settled) (feels : Felt settled event felt) (side : Side) :
    ∃ span pushes, Contact (OuterEdge (acts ++ [.update event]) side) side
        (acts ++ [.update event]) span pushes ∧
      felt.pressure side ≤ amount (felt.threshold side) side pushes ∧
      ∀ last ∈ span.getLast?, felt.lastUpdate = some last.now := by
  by_cases inward : event.motion.inward side = true
  · refine built_nothing _ side ?_
    rcases feels.pressure side with same | ⟨pushes, -⟩
    · exact same.trans (settles.drains side (.inr inward)).1
    · rw [inward_eq_false pushes.1] at inward
      cases inward
  · rw [Bool.not_eq_true] at inward
    obtain ⟨span, pushes, contact, built, short⟩ : ∃ span pushes,
        Contact (OuterEdge acts side) side acts span pushes ∧
        settled.pressure side ≤ amount (settled.threshold side) side pushes ∧
        ∀ last ∈ span.getLast?, event.now - last.now ≤ gestureGap := by
      by_cases paused : detector.Paused event
      · exact ⟨[], [], .nothing _ _ _, (settles.drains side (.inl paused)).1.le,
          fun _ none => nomatch none⟩
      · obtain ⟨span, pushes, contact, built, last⟩ := sound.built side
        refine ⟨span, pushes, contact, ?_, fun one there => ?_⟩
        · rw [(settles.kept side paused inward).1]
          exact built.trans (amount_mono ((settles.raised sound.bounded).2 side) _ _)
        · by_contra long
          exact paused ⟨one.now, last one there, not_le.mp long⟩
    have extended := contact.extend short inward
    have last : ∀ last ∈ (span ++ [event]).getLast?, felt.lastUpdate = some last.now := by
      intro last there
      rw [List.getLast?_append, List.getLast?_singleton, Option.some_or] at there
      cases there
      exact feels.lastUpdate.trans settles.lastUpdate
    rw [feels.threshold]
    rcases feels.pressure side with same | ⟨⟨outward, read, reads, edge⟩, more⟩
    · exact ⟨_, pushes, extended, same ▸ built, last⟩
    · obtain ⟨fresh, reported, member, at_, bounds⟩ := sound.reads settles.union reads
      refine ⟨_, pushes ++ [event], extended.push contact.among outward
        ⟨reported, read.1, member, ?_, at_ ▸ fresh, bounds, edge⟩, ?_, last⟩
      · rcases mem_append.mp member with old | new
        · exact timely reported old
        · cases mem_singleton.mp new
          exact le_refl _
      · rw [more, amount_append]
        exact add_le_add_left built _

theorem Sound.update {next : Detector} {told : Option Side} (sound : Sound acts detector)
    (bounded : next.Bounded) (enabled : detector.enabled = true)
    (timely : ∀ reported, Act.update reported ∈ acts → reported.now ≤ event.now)
    (updates : Updates detector event next told) : Sound (acts ++ [.update event]) next := by
  have read {union : Option (Bounds × ℚ)} {settled : Detector}
      (settles : Settled detector event settled)
      (from_ : union = settled.union ∨
        ∃ read, settled.unionBounds event = some read ∧ union = some read) :
      ∀ read, union = some read → ∃ reported, Act.update reported ∈ acts ++ [.update event] ∧
        reported.now = read.2 ∧ reported.displays.bind unionOf = some read.1 := by
    rintro read rfl
    rcases from_ with same | ⟨_, reads, same⟩
    · obtain ⟨reported, member, rest⟩ := sound.read read (settles.union ▸ same.symm)
      exact ⟨reported, mem_append_left _ member, rest⟩
    · cases same
      exact (sound.reads settles.union reads).2
  cases updates with
  | unknown settles =>
    refine ⟨bounded, fun off => ?_, read settles (.inl rfl), ?_⟩
    · rw [settles.enabled, enabled] at off
      cases off
    · exact sound.felt timely settles ⟨rfl, rfl, rfl, rfl, rfl, .inl rfl, fun _ => .inl rfl⟩
  | @known settled felt next told settles feels concludes =>
    have on : felt.enabled = true := feels.enabled.trans (settles.enabled.trans enabled)
    cases concludes with
    | nothing =>
      refine ⟨bounded, fun off => ?_, read settles feels.union, sound.felt timely settles feels⟩
      rw [on] at off
      cases off
    | @fires side next ready enough clear fires =>
      refine ⟨bounded, fun off => ?_, fires.union ▸ read settles feels.union, fun other => ?_⟩
      · rw [fires.enabled, on] at off
        cases off
      · by_cases same : other = side
        · refine built_nothing _ other ?_
          rw [fires.pressure, same, Function.update_self]
        · rw [fires.pressure, Function.update_of_ne same, fires.threshold, fires.lastUpdate]
          exact sound.felt timely settles feels other

theorem union_confirm (detector : Detector) (now : ℚ) :
    (detector.confirm now).union = detector.union := by
  unfold confirm
  split
  · dsimp only
    split <;> rfl
  · rfl

/-- A reset and a session leave no pressure. -/
theorem Sound.rest {next : Detector} (sound : Sound acts detector) (act : Act)
    (bounded : next.Bounded) (union : next.union = detector.union)
    (pressure : ∀ side, next.pressure side = 0) : Sound (acts ++ [act]) next where
  bounded := bounded
  disabled _ := pressure
  read read there := by
    obtain ⟨reported, member, rest⟩ := sound.read read (union ▸ there)
    exact ⟨reported, mem_append_left _ member, rest⟩
  built side := built_nothing _ side (pressure side)

theorem timely_append {more : List Act} : Timely (acts ++ more) ↔ Timely acts ∧ Timely more ∧
    ∀ one ∈ acts.filterMap Act.now, ∀ other ∈ more.filterMap Act.now, one ≤ other := by
  unfold Timely
  rw [filterMap_append, pairwise_append]

theorem Timely.before (timely : Timely (acts ++ [act])) {now then_ : ℚ} (at_ : act.now = some now)
    {earlier : Act} (member : earlier ∈ acts) (at_' : earlier.now = some then_) : then_ ≤ now := by
  exact (timely_append.mp timely).2.2 then_ (mem_filterMap.mpr ⟨earlier, member, at_'⟩)
    now (by simp [at_])

theorem Sound.step (sound : Sound acts detector) (timely : Timely (acts ++ [act])) :
    Sound (acts ++ [act]) (detector.step act).1 := by
  cases act with
  | update event =>
    cases enabled : detector.enabled with
    | true =>
      exact sound.update (sound.bounded.step _) enabled (fun reported member => timely.before rfl member rfl)
        (updates_update enabled event)
    | false =>
      dsimp only [step]
      rw [update_disabled enabled]
      exact sound.rest _ sound.bounded rfl (sound.disabled enabled)
  | reset | created now => exact sound.rest _ sound.bounded rfl fun _ => rfl
  | destroyed now =>
    exact sound.rest _ (sound.bounded.step (.destroyed now))
      ((commitRegret_kept _ now).2.2.2.2.1.trans (union_confirm detector now)) fun _ => rfl

theorem run_append (start : Detector) (acts more : List Act) :
    start.run (acts ++ more) = (start.run acts).run more :=
  foldl_append

theorem sound_run (sound : Sound [] start) (acts : List Act) (timely : Timely acts) :
    Sound acts (start.run acts) := by
  induction acts using reverseRecOn with
  | nil => exact sound
  | append_singleton acts act ih =>
    rw [run_append]
    exact (ih (timely_append.mp timely).1).step timely

/-! ## A side rests until its push is over -/

/-- A side that has fired does not fire in the next motion of the push, and still rests. -/
theorem latched_update {last : ℚ} (enabled : detector.enabled = true)
    (latched : detector.latched side = true) (before : detector.lastUpdate = some last)
    (short : event.now - last ≤ gestureGap) (still : event.motion.inward side = false) :
    (detector.update event).2 ≠ some side ∧ (detector.update event).1.enabled = true ∧
      (detector.update event).1.latched side = true ∧
      (detector.update event).1.lastUpdate = some event.now := by
  have going : ¬detector.Paused event := by
    rintro ⟨_, same, long⟩
    rw [before] at same
    cases same
    exact absurd long (not_lt.mpr short)
  have updates := updates_update enabled event
  generalize detector.update event = out at updates
  obtain ⟨next, told⟩ := out
  cases updates with
  | unknown settles =>
    exact ⟨nofun, settles.enabled.trans enabled,
      (settles.kept side going still).2.trans latched, settles.lastUpdate⟩
  | @known settled felt _ _ settles feels concludes =>
    have rests : felt.latched side = true :=
      (congrFun feels.latched side).trans ((settles.kept side going still).2.trans latched)
    have on : felt.enabled = true := feels.enabled.trans (settles.enabled.trans enabled)
    have now : felt.lastUpdate = some event.now := feels.lastUpdate.trans settles.lastUpdate
    cases concludes with
    | nothing => exact ⟨nofun, on, rests, now⟩
    | @fires other next ready enough clear fires =>
      have apart : side ≠ other := by
        rintro rfl
        rw [rests] at ready
        cases ready
      refine ⟨fun same => apart (Option.some.inj same).symm, fires.enabled.trans on, ?_,
        fires.lastUpdate.trans now⟩
      rw [fires.latched, Function.update_of_ne apart]
      exact rests

theorem not_told_of_latched {first last : Update} (enabled : detector.enabled = true)
    (latched : detector.latched side = true) (before : detector.lastUpdate = some first.now)
    (unbroken : Unbroken side (first :: (span ++ [last]))) :
    detector.told (span.map Act.update) (.update last) ≠ some side := by
  induction span generalizing detector first with
  | nil =>
    cases unbroken.1 with
    | cons_cons short _ =>
      exact (latched_update enabled latched before short (unbroken.2 last (by simp))).1
  | cons event rest ih =>
    cases unbroken.1 with
    | cons_cons short chain =>
      obtain ⟨-, enabled, latched, before⟩ :=
        latched_update enabled latched before short (unbroken.2 event (by simp))
      exact ih enabled latched before
        ⟨chain, fun one member => unbroken.2 one (mem_cons_of_mem _ member)⟩

theorem told_update (told : (detector.step act).2 = some side) :
    ∃ event, act = .update event ∧ detector.enabled = true ∧
      ∃ settled felt, Settled detector event settled ∧ Felt settled event felt ∧
        felt.latched side = false ∧ felt.threshold side ≤ felt.pressure side ∧
        felt.inFlight event.now = false ∧
        Fires felt side event.now (detector.step act).1 := by
  cases act with
  | update event =>
    cases enabled : detector.enabled with
    | false =>
      dsimp only [step] at told
      rw [update_disabled enabled] at told
      cases told
    | true =>
      have updates := updates_update enabled event
      refine ⟨event, rfl, rfl, ?_⟩
      dsimp only [step] at told ⊢
      generalize detector.update event = out at updates told
      obtain ⟨next, _⟩ := out
      cases told
      cases updates with
      | known settles feels concludes =>
        cases concludes with
        | fires ready enough clear fires =>
          exact ⟨_, _, settles, feels, ready, enough, clear, fires⟩
  | reset | created now | destroyed now => cases told

/-! ## Fires are apart -/

def Act.isSession : Act → Bool
  | .created _ | .destroyed _ => true
  | .update _ | .reset => false

theorem lastFire_step {fired : ℚ} (session : act.isSession = false)
    (before : ∃ side time armed, detector.lastFire = some (side, time, armed) ∧ fired ≤ time)
    (timely : ∀ now, act.now = some now → fired ≤ now) :
    ∃ side time armed, (detector.step act).1.lastFire = some (side, time, armed) ∧
      fired ≤ time := by
  cases act with
  | update event =>
    cases enabled : detector.enabled with
    | false =>
      dsimp only [step]
      rw [update_disabled enabled]
      exact before
    | true =>
      have updates := updates_update enabled event
      dsimp only [step]
      generalize detector.update event = out at updates
      obtain ⟨next, told⟩ := out
      cases updates with
      | unknown settles => exact settles.lastFire ▸ before
      | known settles feels concludes =>
        cases concludes with
        | nothing => exact feels.lastFire ▸ settles.lastFire ▸ before
        | fires ready enough clear fires =>
          obtain ⟨armed, fire⟩ := fires.lastFire
          exact ⟨_, _, armed, fire, timely _ rfl⟩
  | reset => exact before
  | created now | destroyed now => cases session

theorem lastFire_run {fired : ℚ} (acts : List Act)
    (sessions : ∀ act ∈ acts, act.isSession = false)
    (before : ∃ side time armed, detector.lastFire = some (side, time, armed) ∧ fired ≤ time)
    (timely : ∀ act ∈ acts, ∀ now, act.now = some now → fired ≤ now) :
    ∃ side time armed, (detector.run acts).lastFire = some (side, time, armed) ∧ fired ≤ time := by
  induction acts generalizing detector with
  | nil => exact before
  | cons act rest ih =>
    exact ih (fun one member => sessions one (.tail _ member))
      (lastFire_step (sessions act (.head _)) before (timely act (.head _)))
      (fun one member => timely one (.tail _ member))

/-! ## Both claims of a fire -/

/--
A side that is crossed was pushed at, twice at least, for as much as its threshold; it had not been
crossed in the same push, and nothing was crossed shortly before in the same session.
-/
structure Crossing (edge : List Act → Side → Update → Prop) (start : Detector) (acts : List Act)
    (act : Act) (side : Side) : Prop where
  pushed : ∃ span pushes, Contact (edge (acts ++ [act]) side) side (acts ++ [act]) span pushes ∧
    2 ≤ pushes.length ∧ (start.run (acts ++ [act])).threshold side ≤
      amount ((start.run (acts ++ [act])).threshold side) side pushes
  rested : ∀ earlier first span last, acts = earlier ++ .update first :: span.map .update →
    act = .update last → start.told earlier (.update first) = some side →
    ¬Unbroken side (first :: (span ++ [last]))
  apart : ∀ earlier first between other, acts = earlier ++ .update first :: between →
    start.told earlier (.update first) = some other →
    (∀ one ∈ between, one.isSession = false) →
    ∀ now, act.now = some now → crossConfirm < now - first.now

theorem run_snoc (start : Detector) (acts : List Act) (act : Act) :
    start.run (acts ++ [act]) = ((start.run acts).step act).1 :=
  run_append start acts [act]

/-- Every crossing is a push, and every threshold is within its bounds. -/
theorem crosses_pushed (parse : Files.Text → Option Number) (environment : Environment)
    (acts : List Act) (act : Act) (timely : Timely (acts ++ [act])) :
    (∀ side, (fromEnv parse environment).told acts act = some side →
      Crossing OuterEdge (fromEnv parse environment) acts act side) ∧
    ∀ side, thresholdMin ≤ ((fromEnv parse environment).run (acts ++ [act])).threshold side ∧
      ((fromEnv parse environment).run (acts ++ [act])).threshold side ≤ thresholdMax := by
  have bounded := bounded_run (bounded_fromEnv parse environment) (acts ++ [act])
  refine ⟨fun side told => ?_, bounded⟩
  have sound := sound_run (sound_start (bounded_fromEnv parse environment) rfl fun _ => rfl) acts
    (timely_append.mp timely).1
  generalize fromEnv parse environment = start at *
  obtain ⟨event, rfl, enabled, settled, felt, settles, feels, ready, enough, clear, fires⟩ :=
    told_update told
  refine ⟨?_, ?_, ?_⟩
  · have reported : ∀ reported, Act.update reported ∈ acts → reported.now ≤ event.now :=
      fun reported member => timely.before rfl member rfl
    obtain ⟨span, pushes, contact, built, -⟩ := sound.felt reported settles feels side
    rw [run_snoc, fires.threshold]
    have positive : 0 < felt.threshold side := by
      have least := (bounded side).1
      rw [run_snoc, fires.threshold] at least
      exact lt_of_lt_of_le (by norm_num [thresholdMin]) least
    exact ⟨span, pushes, contact, two_le_length positive (enough.trans built), enough.trans built⟩
  · rintro earlier first span last rfl same before unbroken
    cases same
    obtain ⟨_, same, on, _, _, settles', feels', -, -, -, fires'⟩ := told_update before
    cases same
    have after : start.run (earlier ++ .update first :: span.map .update) =
        ((start.run earlier).step (.update first)).1.run (span.map .update) :=
      run_append start earlier _
    refine @not_told_of_latched side ((start.run earlier).step (.update first)).1 span first event
      ?_ ?_ ?_ unbroken ?_
    · exact fires'.enabled.trans (feels'.enabled.trans (settles'.enabled.trans on))
    · rw [fires'.latched, Function.update_self]
    · exact fires'.lastUpdate.trans (feels'.lastUpdate.trans settles'.lastUpdate)
    · unfold Detector.told at told ⊢
      rw [after] at told
      exact told
  · rintro earlier first between other rfl before sessions now at_
    cases at_
    obtain ⟨_, same, -, _, _, -, -, -, -, -, fires'⟩ := told_update before
    cases same
    obtain ⟨armed, fired⟩ := fires'.lastFire
    have later : ∀ one ∈ between, ∀ now, one.now = some now → first.now ≤ now := by
      intro one member now at_
      have ordered := (timely_append.mp (timely_append.mp timely).1).2.1
      exact rel_of_pairwise_cons ordered (mem_filterMap.mpr ⟨one, member, at_⟩)
    have after : start.run (earlier ++ .update first :: between) =
        ((start.run earlier).step (.update first)).1.run between :=
      run_append start earlier _
    obtain ⟨fired', time, armed', remembered, since⟩ :=
      lastFire_run between sessions ⟨_, _, armed, fired, le_refl _⟩ later
    have last : felt.lastFire = some (fired', time, armed') := by
      rw [feels.lastFire, settles.lastFire, after]
      exact remembered
    unfold inFlight at clear
    rw [last] at clear
    have long := not_le.mp (of_decide_eq_false clear)
    linarith

/-! ## A display that comes and a corner -/

def wide : Display := ⟨0, 0, 1920, 1080⟩

def second : Display := ⟨1920, 0, 1920, 1080⟩

/-- Blocked at the right edge, and at the bottom as far as it moves down. -/
def corner (now : ℚ) (displays : List Display) (down : ℚ) : Act :=
  .update ⟨now, some displays, ⟨30, down, 30, down, 1919, 1079⟩⟩

/-- No variable is set and no file is there. -/
def plain : Detector := fromEnv (fun _ => none) ⟨none, none, none, none⟩

theorem timely_corner (displays : List Display) :
    Timely ([corner 0 [wide] 0] ++ [corner 100 displays 0]) :=
  pairwise_pair.mpr (by norm_num)

theorem crosses_pushed_twice : plain.told [corner 0 [wide] 0] (corner 100 [wide] 0) = some .right ∧
    Crossing OuterEdge plain [corner 0 [wide] 0] (corner 100 [wide] 0) .right :=
  have told : plain.told [corner 0 [wide] 0] (corner 100 [wide] 0) = some .right := by
    decide +kernel
  ⟨told, (crosses_pushed (fun _ => none) ⟨none, none, none, none⟩ _ _ (timely_corner _)).1
    .right told⟩

/-- A motion is at the outer edge of the displays there are then. -/
def EdgeThen (side : Side) (push : Update) : Prop :=
  ∃ bounds, push.displays.bind unionOf = some bounds ∧ push.motion.atEdge bounds side = true

/-- A display that comes in a push makes its edge an inner one, which is still pushed at. -/
theorem inner_edge_crossed : ¬∀ (parse : Files.Text → Option Number) (environment : Environment)
    (acts : List Act) (act : Act), Timely (acts ++ [act]) →
    ∀ side, (fromEnv parse environment).told acts act = some side →
      Crossing (fun _ => EdgeThen) (fromEnv parse environment) acts act side := by
  intro crosses
  obtain ⟨span, pushes, contact, two, -⟩ := (crosses (fun _ => none) ⟨none, none, none, none⟩
    [corner 0 [wide] 0] (corner 100 [wide, second] 0)
    (timely_corner _) .right (by decide +kernel)).pushed
  have all := ((contact.among.map Act.update).trans contact.last.sublist).eq_of_length_le (by
    rw [length_map]
    exact two)
  have last : Act.update ⟨100, some [wide, second], ⟨30, 0, 30, 0, 1919, 1079⟩⟩ ∈
      pushes.map Act.update := all ▸ .tail _ (.head _)
  obtain ⟨push, member, same⟩ := mem_map.mp last
  cases same
  obtain ⟨bounds, there, edge⟩ := (contact.outward _ member).2
  cases there
  exact absurd edge (by decide +kernel)

/-! ## Only under push -/

/--
A side that came to its threshold and did not fire is pushed at, unless the push is over, the motion
is away from it or a fire may still turn out to cross.
-/
def Careful (detector : Detector) (event : Update) : Prop :=
  ∀ side, detector.latched side = false → detector.threshold side ≤ detector.pressure side →
    detector.Paused event ∨ event.motion.inward side = true ∨
      detector.inFlight event.now = true ∨ detector.Pushes event side

/--
As long as no side is left at its threshold, a side that is crossed is pushed at: at the edge of
the bounds as they were last read, up to a second before.
-/
theorem crosses_under_push (parse : Files.Text → Option Number) (environment : Environment)
    (acts : List Act) (act : Act) (side : Side)
    (careful : ∀ earlier event later, acts ++ [act] = earlier ++ .update event :: later →
      Careful ((fromEnv parse environment).run earlier) event)
    (told : (fromEnv parse environment).told acts act = some side) :
    ∃ event, act = .update event ∧ ((fromEnv parse environment).run acts).Pushes event side := by
  have bounded := bounded_run (bounded_fromEnv parse environment) acts
  generalize fromEnv parse environment = start at *
  obtain ⟨event, rfl, -, settled, felt, settles, feels, ready, enough, clear, -⟩ :=
    told_update told
  refine ⟨event, rfl, ?_⟩
  have same : settled.Pushes event side ↔ (start.run acts).Pushes event side := by
    unfold Pushes unionBounds
    rw [settles.union]
  by_contra unpushed
  have kept := (feels.pressure side).resolve_right fun more => unpushed (same.mp more.1)
  obtain ⟨raised, more⟩ := settles.raised bounded
  rw [kept, feels.threshold] at enough
  rw [feels.latched] at ready
  have going : ¬((start.run acts).Paused event ∨ event.motion.inward side = true) := by
    intro gone
    rw [(settles.drains side gone).1] at enough
    have least := (raised side).1
    norm_num [thresholdMin] at least
    linarith
  obtain ⟨unpaused, still⟩ := not_or.mp going
  obtain ⟨pressure, latched⟩ := settles.kept side unpaused (Bool.not_eq_true _ ▸ still)
  have flight : (start.run acts).inFlight event.now = false := by
    unfold inFlight at clear ⊢
    rw [← settles.lastFire, ← feels.lastFire]
    exact clear
  rcases careful acts event [] rfl side (latched ▸ ready)
    ((more side).trans (pressure ▸ enough)) with gone | gone | flying | pushes
  · exact unpaused gone
  · exact still gone
  · rw [flight] at flying
    cases flying
  · exact unpushed pushes

theorem crosses_under_push_twice :
    ∃ event, corner 100 [wide] 0 = .update event ∧
      (plain.run [corner 0 [wide] 0]).Pushes event .right := by
  refine crosses_under_push (fun _ => none) ⟨none, none, none, none⟩ _ _ .right ?_
    (by decide +kernel)
  have below : ∀ side, ¬plain.threshold side ≤ plain.pressure side ∧
      ¬(plain.run [corner 0 [wide] 0]).threshold side ≤
        (plain.run [corner 0 [wide] 0]).pressure side := by
    rintro (_ | _ | _ | _) <;> decide +kernel
  intro earlier event later same side _ enough
  rcases earlier with - | ⟨one, - | ⟨two, rest⟩⟩
  · exact absurd enough (below side).1
  · cases same
    exact absurd enough (below side).2
  · cases rest <;> cases same

/-- A corner is pushed at, and the second side fires when the first fire can no longer cross. -/
theorem corner_held : ¬∀ (parse : Files.Text → Option Number) (environment : Environment)
    (acts : List Act) (act : Act) (side : Side),
    (fromEnv parse environment).told acts act = some side →
    ∃ event, act = .update event ∧ ((fromEnv parse environment).run acts).Pushes event side := by
  intro pushed
  obtain ⟨event, same, outward, -⟩ := pushed (fun _ => none) ⟨none, none, none, none⟩
    [corner 0 [wide] 30, corner 100 [wide] 30,
      .update ⟨300, some [wide], ⟨0, 0, 0, 0, 1919, 1079⟩⟩,
      .update ⟨500, some [wide], ⟨0, 0, 0, 0, 1919, 1079⟩⟩]
    (.update ⟨700, some [wide], ⟨0, 0, 0, 0, 1919, 1079⟩⟩) .bottom (by decide +kernel)
  cases same
  exact absurd outward (by decide +kernel)

end HopsFormal.EdgePressure
