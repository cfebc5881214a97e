import HopsFormal.Capture.InputCapture

/-!
# One event for each handle of an edge

Between two states of a run, what went to a registered handle and what waits for it now is
what waited for it before and what the backend yielded at its edge since, each once and in
order.
-/

namespace HopsFormal.Capture.InputCapture

open List Lib

variable {Handle E F : Type} [DecidableEq Handle] {capture middle next : InputCapture Handle E F}
  {id : Handle} {pos : Position}

/-- What waited for a handle and what its edge yielded since went to it or waits for it. -/
def FansOut (id : Handle) (pos : Position) (capture next : InputCapture Handle E F) : Prop :=
  ∃ passed, next.log = passed ++ capture.log ∧
    deliveredTo id passed ++ pendingTo id next = pendingTo id capture ++ yieldedAt pos passed

theorem FansOut.refl (id : Handle) (pos : Position) (capture : InputCapture Handle E F) :
    FansOut id pos capture capture :=
  ⟨[], rfl, by simp [deliveredTo, yieldedAt]⟩

omit [DecidableEq Handle] in
theorem yieldedAt_append (newer older : List (Passed Handle E F)) :
    yieldedAt pos (newer ++ older) = yieldedAt pos older ++ yieldedAt pos newer := by
  simp [yieldedAt]

theorem deliveredTo_append (newer older : List (Passed Handle E F)) :
    deliveredTo id (newer ++ older) = deliveredTo id older ++ deliveredTo id newer := by
  simp [deliveredTo]

theorem FansOut.trans (first : FansOut id pos capture middle)
    (second : FansOut id pos middle next) : FansOut id pos capture next := by
  obtain ⟨older, logged, before⟩ := first
  obtain ⟨newer, log, after⟩ := second
  refine ⟨newer ++ older, by rw [log, logged, append_assoc], ?_⟩
  calc deliveredTo id (newer ++ older) ++ pendingTo id next
      = deliveredTo id older ++ (deliveredTo id newer ++ pendingTo id next) := by
        rw [deliveredTo_append, append_assoc]
    _ = deliveredTo id older ++ pendingTo id middle ++ yieldedAt pos newer := by
        rw [after, append_assoc]
    _ = pendingTo id capture ++ yieldedAt pos (newer ++ older) := by
        rw [before, yieldedAt_append, append_assoc]

/-- A call that delivers nothing and leaves alone what waits for the handle. -/
theorem fansOut_quiet (passed : List (Passed Handle E F))
    (log : next.log = passed ++ capture.log) (pending : pendingTo id next = pendingTo id capture)
    (quiet : deliveredTo id passed = [] ∧ yieldedAt pos passed = []) :
    FansOut id pos capture next :=
  ⟨passed, log, by rw [pending, quiet.1, quiet.2, nil_append, append_nil]⟩

theorem handedTo (id : Handle) (event : CaptureEvent F) {handles : List Handle}
    (nodup : handles.Nodup) :
    ((handles.map fun other => (other, event)).filter fun queued => queued.1 = id).map Prod.snd =
      if id ∈ handles then [event] else [] := by
  induction handles with
  | nil => rfl
  | cons first rest ih =>
    obtain ⟨fresh, nodup⟩ := nodup_cons.mp nodup
    by_cases same : first = id
    · subst same
      simp [ih nodup, fresh]
    · simp [ih nodup, same, Ne.symm same]

/-- What a poll hands over and keeps, for a handle whose edge is known. -/
theorem Fetched.fansOut (sound : capture.Sound) (registered : capture.idMap.lookup id = some pos)
    (fetched : capture.Fetched next) : FansOut id pos capture next := by
  cases fetched with
  | queued other event pending log =>
    refine ⟨[.delivered other event], log, ?_⟩
    by_cases same : other = id
    · simp [deliveredTo, yieldedAt, Passed.deliveredTo, Passed.yieldedAt, pendingTo, pending, same]
    · simp [deliveredTo, yieldedAt, Passed.deliveredTo, Passed.yieldedAt, pendingTo, pending, same]
  | idle pending log =>
    exact fansOut_quiet [] log (by rw [pendingTo, pending]; rfl) ⟨rfl, rfl⟩
  | unclaimed place event nobody pending log =>
    have elsewhere : place ≠ pos := by
      rintro rfl
      simpa [nobody] using (sound.filed id place).mp registered
    refine fansOut_quiet [_] log (by rw [pendingTo, pending]; rfl) ⟨rfl, ?_⟩
    simp [yieldedAt, Passed.yieldedAt, elsewhere]
  | shared place event first others handles empty pending log =>
    refine ⟨[.delivered first event, .yielded place event], log, ?_⟩
    have nodup := sound.nodup place
    have member : id ∈ capture.handlesAt place ↔ place = pos := by
      rw [← sound.filed, registered]
      exact ⟨fun same => (Option.some.inj same).symm, fun same => by rw [same]⟩
    rw [handles] at nodup member
    have gone : deliveredTo id [.delivered first event, (.yielded place event : Passed _ E _)] =
        if first = id then [event] else [] := by
      by_cases same : first = id <;>
        simp [deliveredTo, Passed.deliveredTo, filterMap_cons, same]
    have drawn : yieldedAt pos [.delivered first event, (.yielded place event : Passed _ E _)] =
        if place = pos then [event] else [] := by
      by_cases here : place = pos <;>
        simp [yieldedAt, Passed.yieldedAt, filterMap_cons, here]
    have handed := handedTo id event nodup
    simp only [member] at handed
    rw [gone, drawn, pendingTo, pendingTo, pending, empty, filter_nil, map_nil,
      nil_append, ← handed]
    by_cases same : first = id <;> simp [same]

/-- Calls that are not about a handle leave it where it is, and what waits for it. -/
theorem FansOut.step {act : Act Handle E F} (sound : capture.Sound)
    (registered : capture.idMap.lookup id = some pos)
    (kept : ∀ answer, act ≠ .destroy id answer) (stepped : capture.step act = some next) :
    next.idMap.lookup id = some pos ∧ FansOut id pos capture next := by
  cases act with
  | create other place answer =>
    obtain ⟨⟨made, result⟩, created, rfl⟩ := Option.map_eq_some_iff.mp stepped
    obtain ⟨new, idMap, -, pending, log⟩ := create_spec created
    have apart : id ≠ other := by
      rintro rfl
      rw [new] at registered
      cases registered
    refine ⟨by rw [idMap, AList.lookup_insert_ne apart, registered], ?_⟩
    have still : pendingTo id made = pendingTo id capture := by rw [pendingTo, pending]; rfl
    split at log
    · exact fansOut_quiet [_] log still ⟨rfl, rfl⟩
    · exact fansOut_quiet [] log still ⟨rfl, rfl⟩
  | destroy other answer =>
    cases stepped
    have apart : id ≠ other := fun same => kept answer (by rw [same])
    obtain ⟨idMap, pending, -, -, -, log⟩ := destroy_spec other answer sound
    refine ⟨by rw [idMap, AList.lookup_erase_ne apart, registered], ?_⟩
    have still : pendingTo id (capture.destroy other answer).1 = pendingTo id capture := by
      rw [pendingTo, pending, filter_filter]
      congr 1
      refine filter_congr fun queued _ => ?_
      by_cases same : queued.1 = id <;> simp [same, apart]
    rcases log with log | ⟨place, log⟩
    · exact fansOut_quiet [] log still ⟨rfl, rfl⟩
    · exact fansOut_quiet [_] log still ⟨rfl, rfl⟩
  | poll reading =>
    cases stepped
    obtain ⟨idMap, -, fetched⟩ := pollNext_spec capture reading
    exact ⟨by rw [idMap, registered], fetched.fansOut sound registered⟩
  | release =>
    cases stepped
    exact ⟨registered, .refl id pos capture⟩

theorem FansOut.run {later : List (Act Handle E F)} (sound : capture.Sound)
    (registered : capture.idMap.lookup id = some pos)
    (kept : ∀ answer, .destroy id answer ∉ later) (ran : capture.runFrom later = some next) :
    FansOut id pos capture next := by
  refine (foldlM_kept (P := fun state => state.Sound ∧ state.idMap.lookup id = some pos ∧
    FansOut id pos capture state) ?_ ⟨sound, registered, .refl id pos capture⟩ ran).2.2
  rintro state ⟨sound, registered, fans⟩ act member after stepped
  obtain ⟨still, onward⟩ :=
    FansOut.step sound registered (fun answer same => kept answer (same ▸ member)) stepped
  exact ⟨sound.step stepped, still, fans.trans onward⟩

/-! ## Handles that are not registered -/

theorem Sound.pendingTo_nil (sound : capture.Sound) (gone : capture.idMap.lookup id = none) :
    pendingTo id capture = [] := by
  rw [pendingTo, map_eq_nil_iff, filter_eq_nil_iff]
  intro queued member same
  obtain ⟨pos, there⟩ := sound.waiting queued member
  rw [of_decide_eq_true same, gone] at there
  cases there

theorem deliveredTo_cons (entry : Passed Handle E F) (log : List (Passed Handle E F)) :
    deliveredTo id (entry :: log) = deliveredTo id log ++ (entry.deliveredTo id).toList := by
  rw [deliveredTo, filterMap_cons]
  cases entry.deliveredTo id <;> simp [deliveredTo]

/-- Nothing is delivered to a handle that is not registered, and only a create registers it. -/
theorem unregistered_step {act : Act Handle E F} (sound : capture.Sound)
    (gone : capture.idMap.lookup id = none) (kept : ∀ pos answer, act ≠ .create id pos answer)
    (stepped : capture.step act = some next) :
    next.idMap.lookup id = none ∧ deliveredTo id next.log = deliveredTo id capture.log := by
  cases act with
  | create other place answer =>
    obtain ⟨⟨made, result⟩, created, rfl⟩ := Option.map_eq_some_iff.mp stepped
    obtain ⟨-, idMap, -, -, log⟩ := create_spec created
    have apart : id ≠ other := fun same => kept place answer (by rw [same])
    refine ⟨by rw [idMap, AList.lookup_insert_ne apart, gone], ?_⟩
    rw [log]
    split
    · simp [deliveredTo_cons, Passed.deliveredTo]
    · rfl
  | destroy other answer =>
    cases stepped
    obtain ⟨idMap, -, -, -, -, log⟩ := destroy_spec other answer sound
    refine ⟨?_, ?_⟩
    · rw [idMap]
      by_cases same : id = other
      · rw [same, AList.lookup_erase]
      · rw [AList.lookup_erase_ne same, gone]
    · rcases log with log | ⟨place, log⟩ <;> simp [log, deliveredTo_cons, Passed.deliveredTo]
  | poll reading =>
    cases stepped
    obtain ⟨idMap, -, fetched⟩ := pollNext_spec capture reading
    refine ⟨by rw [idMap, gone], ?_⟩
    have unmet : ∀ place, id ∉ capture.handlesAt place := fun place member => by
      rw [(sound.filed id place).mpr member] at gone
      cases gone
    cases fetched with
    | queued other event pending log =>
      have apart : other ≠ id := by
        rintro rfl
        obtain ⟨place, there⟩ := sound.waiting (other, event) (pending ▸ mem_cons_self)
        rw [gone] at there
        cases there
      simp [log, deliveredTo_cons, Passed.deliveredTo, apart]
    | idle pending log => rw [log]
    | unclaimed place event nobody pending log =>
      simp [log, deliveredTo_cons, Passed.deliveredTo]
    | shared place event first others handles empty pending log =>
      have apart : first ≠ id := by
        rintro rfl
        exact unmet place (handles ▸ mem_cons_self)
      simp [log, deliveredTo_cons, Passed.deliveredTo, apart]
  | release =>
    cases stepped
    exact ⟨gone, rfl⟩

theorem unregistered_run {later : List (Act Handle E F)} (sound : capture.Sound)
    (gone : capture.idMap.lookup id = none) (kept : ∀ pos answer, .create id pos answer ∉ later)
    (ran : capture.runFrom later = some next) :
    deliveredTo id next.log = deliveredTo id capture.log := by
  refine (foldlM_kept (P := fun state => state.Sound ∧ state.idMap.lookup id = none ∧
    deliveredTo id state.log = deliveredTo id capture.log) ?_ ⟨sound, gone, rfl⟩ ran).2.2
  rintro state ⟨sound, gone, same⟩ act member after stepped
  obtain ⟨still, onward⟩ := unregistered_step sound gone
    (fun pos answer same => kept pos answer (same ▸ member)) stepped
  exact ⟨sound.step stepped, still, onward.trans same⟩

/-- As many polls as there are events waiting leave none waiting. -/
theorem drained (capture : InputCapture Handle E F) (reading : Reading E F) :
    (capture.runFrom (List.replicate capture.pending.length (.poll reading))).map
      InputCapture.pending = some [] := by
  generalize queue : capture.pending = waiting
  induction waiting generalizing capture with
  | nil => exact congrArg some queue
  | cons first rest ih =>
    have taken : (capture.pollNext reading).1.pending = rest := by simp only [pollNext, queue]
    exact ih (capture.pollNext reading).1 taken

/-! ## A capture and its consumer -/

/--
What holds of a capture in every state: the maps agree, an edge with handles has the capture
the backend made for it unless the backend refused to make it, a create adds its handle to
both maps whatever the backend answers, what the backend yields goes once and in order to each
handle of its edge, and nothing goes to a handle that is not registered.
-/
structure Serves (capture : InputCapture Handle E F) : Prop where
  agree : ∀ id pos, capture.idMap.lookup id = some pos ↔ id ∈ capture.handlesAt pos
  backed : ∀ id pos, capture.idMap.lookup id = some pos →
    standing capture.log pos = .made ∨ standing capture.log pos = .refused
  added : ∀ id pos answer made result, capture.create id pos answer = some (made, result) →
    made.idMap = capture.idMap.insert id pos ∧
      made.positionMap = capture.positionMap.insert pos (capture.handlesAt pos ++ [id])
  once : ∀ id pos later next, capture.idMap.lookup id = some pos →
    (∀ answer, .destroy id answer ∉ later) → capture.runFrom later = some next →
      FansOut id pos capture next
  never : ∀ id later next, capture.idMap.lookup id = none →
    (∀ pos answer, .create id pos answer ∉ later) → capture.runFrom later = some next →
      pendingTo id capture = [] ∧ deliveredTo id next.log = deliveredTo id capture.log
  soon : ∀ reading, (capture.runFrom
    (List.replicate capture.pending.length (.poll reading))).map InputCapture.pending = some []

theorem run_serves {acts : List (Act Handle E F)} (ran : run acts = some capture) :
    capture.Serves := by
  have sound := sound_run ran
  refine ⟨sound.filed, fun id pos registered => ?_, fun id pos answer made result created => ?_,
    fun id pos later next registered kept ran => .run sound registered kept ran,
    fun id later next gone kept ran =>
      ⟨sound.pendingTo_nil gone, unregistered_run sound gone kept ran⟩,
    drained capture⟩
  · have asked : standing capture.log pos ≠ .absent := by
      rw [Ne, sound.asked]
      intro missing
      have listed := (sound.filed id pos).mp registered
      rw [handlesAt, missing] at listed
      cases listed
    cases stands : standing capture.log pos with
    | absent => exact absurd stands asked
    | made => exact .inl rfl
    | refused => exact .inr rfl
  · obtain ⟨-, idMap, positionMap, -, -⟩ := create_spec created
    exact ⟨idMap, positionMap⟩

/-- Two handles at one edge, and a crossing one of them has not been handed yet. -/
def crossed : List (Act Nat Unit Unit) :=
  [.create 1 .left (.ok ()), .create 2 .left (.ok ()), .poll (.event .left .begin)]

theorem run_serves_shared :
    ∃ capture, run crossed = some capture ∧ pendingTo 2 capture = [.begin] ∧ capture.Serves :=
  ⟨_, rfl, rfl, @run_serves Nat Unit Unit _ _ crossed rfl⟩

/-- A handle is registered at an edge the backend refused to make a capture at. -/
theorem refused_create_registers :
    ∃ capture : InputCapture Nat Unit Unit, run [.create 1 .left (.error ())] = some capture ∧
      capture.idMap.lookup 1 = some .left ∧ capture.handlesAt .left = [1] ∧
        standing capture.log .left = .refused :=
  ⟨_, rfl, rfl, rfl, rfl⟩

end HopsFormal.Capture.InputCapture
