import HopsFormal.Capture.Task
import HopsFormal.Lib.Basic
import HopsFormal.Lib.Table

/-!
# The handles a backend capture is shared by

A handle is registered at a screen edge, and the handles of one edge share one capture of
the backend.  An event of the backend goes to the first of them at once and waits in a queue
for the others, which is emptied before the backend is asked again.
-/

namespace HopsFormal.Capture

open List Lib AList

/-- What the backend answers when it is polled. -/
inductive Reading (E F : Type) where
  | notReady
  | closed
  | failed (error : E)
  | event (pos : Position) (event : CaptureEvent F)

/-- What the consumer is answered when it polls; an event nobody takes is polled past at once,
and a crossing among them is given back. -/
inductive Polled (Handle E F : Type) where
  | notReady
  | unclaimed (givenBack : Bool)
  | closed
  | failed (error : E)
  | event (id : Handle) (event : CaptureEvent F)

/-- What the backend is asked for and what it yields, and what goes to the consumer. -/
inductive Passed (Handle E F : Type) where
  | created (pos : Position) (answer : Except E Unit)
  | destroyed (pos : Position) (answer : Except E Unit)
  | yielded (pos : Position) (event : CaptureEvent F)
  | delivered (id : Handle) (event : CaptureEvent F)

structure InputCapture (Handle E F : Type) where
  /-- What passed between the backend, the capture and its consumer, the newest first. -/
  log : List (Passed Handle E F)
  pressedKeys : List UInt32
  positionMap : Table Position (List Handle)
  idMap : Table Handle Position
  pending : List (Handle × CaptureEvent F)

namespace InputCapture

variable {Handle E F : Type}

def new : InputCapture Handle E F where
  log := []
  pressedKeys := []
  positionMap := ∅
  idMap := ∅
  pending := []

variable (capture : InputCapture Handle E F)

/-- The handles that share the backend capture at an edge. -/
@[grind =]
def handlesAt (pos : Position) : List Handle :=
  (capture.positionMap.lookup pos).getD []

def release : InputCapture Handle E F :=
  { capture with pressedKeys := [] }

def updatePressedKeys : CaptureEvent F → InputCapture Handle E F
  | .input (.keyboard (.key _ key state)) =>
    if key ≤ lastScancode then
      if state = 1 then { capture with pressedKeys := capture.pressedKeys.insert key }
      else { capture with pressedKeys := capture.pressedKeys.erase key }
    else capture
  | _ => capture

/-- The next event: one that waits, or what the backend yields. -/
def pollNext (reading : Reading E F) : InputCapture Handle E F × Polled Handle E F :=
  match capture.pending with
  | (id, event) :: rest =>
    ({ capture with pending := rest, log := .delivered id event :: capture.log }, .event id event)
  | [] =>
    match reading with
    | .notReady => (capture, .notReady)
    | .closed => (capture, .closed)
    | .failed error => (capture, .failed error)
    | .event pos event =>
      let capture :=
        { capture with log := .yielded pos event :: capture.log }.updatePressedKeys event
      match capture.handlesAt pos with
      | [] => (capture, .unclaimed (event matches .begin))
      -- with one handle nothing is left to wait
      | id :: others =>
        ({ capture with
            pending := others.map fun other => (other, event)
            log := .delivered id event :: capture.log }, .event id event)

variable [DecidableEq Handle]

/-- Registers a handle.  That it is new is asserted: one that is not ends the process. -/
def create (capture : InputCapture Handle E F) (id : Handle) (pos : Position)
    (answer : Except E Unit) : Option (InputCapture Handle E F × Except E Unit) :=
  if (capture.idMap.lookup id).isSome then none
  else
    let capture := { capture with idMap := capture.idMap.insert id pos }
    match capture.positionMap.lookup pos with
    | some ids =>
      some ({ capture with positionMap := capture.positionMap.insert pos (ids ++ [id]) }, .ok ())
    | none =>
      some ({ capture with
        positionMap := capture.positionMap.insert pos [id]
        log := .created pos answer :: capture.log }, answer)

/-- What waits for the handle is dropped; the last handle of an edge takes its backend capture
with it. -/
def destroy (capture : InputCapture Handle E F) (id : Handle) (answer : Except E Unit) :
    InputCapture Handle E F × Except E Unit :=
  let capture := { capture with pending := capture.pending.filter fun queued => queued.1 ≠ id }
  match capture.idMap.lookup id with
  | none => (capture, .ok ())
  | some pos =>
    let capture := { capture with idMap := capture.idMap.erase id }
    match capture.positionMap.lookup pos with
    | none => (capture, .ok ())
    | some ids =>
      let remaining := ids.filter fun other => other ≠ id
      if remaining.isEmpty then
        ({ capture with
          positionMap := capture.positionMap.erase pos
          log := .destroyed pos answer :: capture.log }, answer)
      else ({ capture with positionMap := capture.positionMap.insert pos remaining }, .ok ())

/-! ## Runs -/

/-- One call of the consumer, with what the backend answers it. -/
inductive Act (Handle E F : Type) where
  | create (id : Handle) (pos : Position) (answer : Except E Unit)
  | destroy (id : Handle) (answer : Except E Unit)
  | poll (reading : Reading E F)
  | release

@[grind =]
def step (capture : InputCapture Handle E F) : Act Handle E F → Option (InputCapture Handle E F)
  | .create id pos answer => (capture.create id pos answer).map Prod.fst
  | .destroy id answer => some (capture.destroy id answer).1
  | .poll reading => some (capture.pollNext reading).1
  | .release => some capture.release

/-- Where calls lead from a capture, if no assertion fails. -/
def runFrom (capture : InputCapture Handle E F) (acts : List (Act Handle E F)) :
    Option (InputCapture Handle E F) :=
  acts.foldlM step capture

def run (acts : List (Act Handle E F)) : Option (InputCapture Handle E F) := runFrom new acts

end InputCapture

/-- How an edge stands with the backend after what was asked last for it. -/
inductive Standing where
  | absent
  | made
  | refused

section Log

variable {Handle E F : Type} (pos : Position)

/-- What an entry says of an edge. -/
@[grind =]
def Passed.standing : Passed Handle E F → Option Standing
  | .created place (.ok _) => if place = pos then some .made else none
  | .created place (.error _) => if place = pos then some .refused else none
  | .destroyed place _ => if place = pos then some .absent else none
  | _ => none

@[grind =]
def standing (log : List (Passed Handle E F)) (pos : Position) : Standing :=
  (log.findSome? (Passed.standing pos)).getD .absent

/-- The event an entry says the backend yielded at an edge. -/
def Passed.yieldedAt : Passed Handle E F → Option (CaptureEvent F)
  | .yielded place event => if place = pos then some event else none
  | _ => none

/-- The events the backend yielded at an edge, in order. -/
def yieldedAt (log : List (Passed Handle E F)) : List (CaptureEvent F) :=
  (log.filterMap (Passed.yieldedAt pos)).reverse

variable [DecidableEq Handle]

def Passed.deliveredTo (id : Handle) : Passed Handle E F → Option (CaptureEvent F)
  | .delivered other event => if other = id then some event else none
  | _ => none

/-- The events that went to a handle, in order. -/
def deliveredTo (id : Handle) (log : List (Passed Handle E F)) : List (CaptureEvent F) :=
  (log.filterMap (Passed.deliveredTo id)).reverse

/-- The events that wait for a handle, in order. -/
def InputCapture.pendingTo (id : Handle) (capture : InputCapture Handle E F) :
    List (CaptureEvent F) :=
  (capture.pending.filter fun queued => queued.1 = id).map Prod.snd

end Log

/-! ## What is registered -/

section Standing

variable {Handle E F : Type}

theorem standing_cons (entry : Passed Handle E F) (log : List (Passed Handle E F))
    (pos : Position) :
    standing (entry :: log) pos = (entry.standing pos).getD (standing log pos) := by
  rw [standing, findSome?_cons]
  cases entry.standing pos <;> rfl

theorem standing_created (log : List (Passed Handle E F)) (place pos : Position)
    (answer : Except E Unit) :
    standing (.created place answer :: log) pos =
      if place = pos then
        match answer with
        | .ok _ => .made
        | .error _ => .refused
      else standing log pos := by
  rw [standing_cons]
  cases answer <;> by_cases same : place = pos <;> simp [Passed.standing, same]

theorem standing_destroyed (log : List (Passed Handle E F)) (place pos : Position)
    (answer : Except E Unit) :
    standing (.destroyed place answer :: log) pos =
      if place = pos then .absent else standing log pos := by
  rw [standing_cons]
  by_cases same : place = pos <;> simp [Passed.standing, same]

end Standing

namespace InputCapture

variable {Handle E F : Type} [DecidableEq Handle]

/-- The two maps say the same, only registered handles have events waiting, and the edges with
handles are those the backend was last asked to make a capture at. -/
structure Sound (capture : InputCapture Handle E F) : Prop where
  filed : ∀ id pos, capture.idMap.lookup id = some pos ↔ id ∈ capture.handlesAt pos
  nodup : ∀ pos, (capture.handlesAt pos).Nodup
  shared : ∀ pos, capture.positionMap.lookup pos ≠ some []
  waiting : ∀ queued ∈ capture.pending, ∃ pos, capture.idMap.lookup queued.1 = some pos
  asked : ∀ pos, standing capture.log pos = .absent ↔ capture.positionMap.lookup pos = none

theorem sound_new : Sound (new : InputCapture Handle E F) where
  filed id pos := by simp [new, handlesAt]
  nodup pos := by simp [new, handlesAt]
  shared pos := by simp [new]
  waiting queued member := by cases member
  asked pos := by simp [new, standing]

variable {capture next : InputCapture Handle E F} {id : Handle} {pos : Position}
  {answer result : Except E Unit}

omit [DecidableEq Handle] in
theorem handlesAt_insert (map : Table Position (List Handle)) (place : Position)
    (ids : List Handle) :
    ((map.insert pos ids).lookup place).getD [] =
      if place = pos then ids else (map.lookup place).getD [] := by
  by_cases same : place = pos
  · rw [same, lookup_insert, if_pos rfl]
    rfl
  · rw [lookup_insert_ne same, if_neg same]

/-- The handle is added to both maps, whatever the backend answers; the backend is asked when
the edge had no handle. -/
theorem create_spec (made : capture.create id pos answer = some (next, result)) :
    capture.idMap.lookup id = none ∧ next.idMap = capture.idMap.insert id pos ∧
      next.positionMap = capture.positionMap.insert pos (capture.handlesAt pos ++ [id]) ∧
      next.pending = capture.pending ∧
      next.log = if capture.positionMap.lookup pos = none then .created pos answer :: capture.log
        else capture.log := by
  unfold create at made
  split at made
  · cases made
  · next new =>
    rw [Bool.not_eq_true, Option.isSome_eq_false_iff, Option.isNone_iff_eq_none] at new
    refine ⟨new, ?_⟩
    unfold handlesAt
    cases found : capture.positionMap.lookup pos with
    | some ids =>
      simp only [found] at made
      obtain ⟨rfl, rfl⟩ := Prod.mk.inj (Option.some.inj made)
      exact ⟨rfl, rfl, rfl, by rw [if_neg nofun]⟩
    | none =>
      simp only [found] at made
      obtain ⟨rfl, rfl⟩ := Prod.mk.inj (Option.some.inj made)
      exact ⟨rfl, rfl, rfl, by rw [if_pos rfl]⟩

theorem Sound.create (sound : capture.Sound)
    (made : capture.create id pos answer = some (next, result)) : next.Sound := by
  obtain ⟨new, idMap, positionMap, pending, log⟩ := create_spec made
  have fresh : ∀ place, id ∉ capture.handlesAt place := fun place there => by
    rw [(sound.filed id place).mpr there] at new
    cases new
  have handles : ∀ place, next.handlesAt place =
      if place = pos then capture.handlesAt pos ++ [id] else capture.handlesAt place :=
    fun place => by rw [handlesAt, positionMap, handlesAt_insert]; rfl
  refine ⟨fun other place => ?_, fun place => ?_, fun place => ?_, fun queued member => ?_,
    fun place => ?_⟩
  · rw [idMap, handles]
    by_cases same : other = id
    · subst same
      rw [lookup_insert]
      by_cases here : place = pos
      · simp [here]
      · simp [here, fresh, Ne.symm here]
    · rw [lookup_insert_ne same, sound.filed]
      by_cases here : place = pos <;> simp [here, same]
  · rw [handles]
    split
    · exact nodup_append_comm.mp (nodup_cons.mpr ⟨fresh pos, sound.nodup pos⟩)
    · exact sound.nodup place
  · rw [positionMap]
    by_cases here : place = pos
    · rw [here, lookup_insert]
      simp
    · rw [lookup_insert_ne here]
      exact sound.shared place
  · rw [pending] at member
    obtain ⟨place, there⟩ := sound.waiting queued member
    rw [idMap, lookup_insert_ne]
    · exact ⟨place, there⟩
    · rintro rfl
      rw [new] at there
      cases there
  · rw [log, positionMap]
    by_cases here : place = pos
    · subst here
      rw [lookup_insert]
      split
      · rw [standing_created, if_pos rfl]
        cases answer <;> simp
      · next taken => simpa [sound.asked] using taken
    · rw [lookup_insert_ne here]
      split
      · rw [standing_created, if_neg (Ne.symm here)]
        exact sound.asked place
      · exact sound.asked place

/-- What is left of an edge when a handle goes. -/
theorem destroy_spec (id : Handle) (answer : Except E Unit) (sound : capture.Sound) :
    (capture.destroy id answer).1.idMap = capture.idMap.erase id ∧
      (capture.destroy id answer).1.pending = capture.pending.filter (fun queued => queued.1 ≠ id) ∧
      (∀ place, (capture.destroy id answer).1.handlesAt place =
        (capture.handlesAt place).filter fun other => other ≠ id) ∧
      (∀ place, (capture.destroy id answer).1.positionMap.lookup place ≠ some []) ∧
      (∀ place, standing (capture.destroy id answer).1.log place = .absent ↔
        (capture.destroy id answer).1.positionMap.lookup place = none) ∧
      ((capture.destroy id answer).1.log = capture.log ∨
        ∃ place, (capture.destroy id answer).1.log = .destroyed place answer :: capture.log) := by
  have others : ∀ place, capture.idMap.lookup id ≠ some place →
      (capture.handlesAt place).filter (fun other => other ≠ id) = capture.handlesAt place :=
    fun place elsewhere => filter_eq_self.mpr fun other member => by
      refine decide_eq_true ?_
      rintro rfl
      exact elsewhere ((sound.filed other place).mpr member)
  cases found : capture.idMap.lookup id with
  | none =>
    simp only [destroy, found, true_and]
    refine ⟨?_, fun place => ?_, sound.shared, sound.asked, .inl trivial⟩
    · exact (ext (kerase_of_notMem_keys (lookup_eq_none.mp found))).symm
    · exact (others place (by rw [found]; nofun)).symm
  | some pos =>
    have here := (sound.filed id pos).mp found
    obtain ⟨ids, listed⟩ : ∃ ids, capture.positionMap.lookup pos = some ids := by
      cases listed : capture.positionMap.lookup pos with
      | some ids => exact ⟨ids, rfl⟩
      | none => simp [handlesAt, listed] at here
    have elsewhere : ∀ {place}, place ≠ pos → capture.idMap.lookup id ≠ some place :=
      fun apart same => apart (Option.some.inj (found.symm.trans same)).symm
    simp only [destroy, found, listed]
    split
    · next empty =>
      refine ⟨rfl, rfl, fun place => ?_, fun place => ?_, fun place => ?_, .inr ⟨pos, rfl⟩⟩
      · by_cases same : place = pos
        · subst same
          simpa [handlesAt, listed] using List.isEmpty_iff.mp empty
        · rw [others place (elsewhere same)]
          simp [handlesAt, lookup_erase_ne same]
      · by_cases same : place = pos
        · subst same
          simp
        · simpa [lookup_erase_ne same] using sound.shared place
      · rw [standing_destroyed]
        by_cases same : place = pos
        · subst same
          simp
        · rw [if_neg (Ne.symm same), lookup_erase_ne same, sound.asked]
    · next some_ =>
      refine ⟨rfl, rfl, fun place => ?_, fun place => ?_, fun place => ?_, .inl rfl⟩
      · rw [handlesAt, handlesAt_insert]
        by_cases same : place = pos
        · subst same
          simp [handlesAt, listed]
        · rw [if_neg same, others place (elsewhere same)]
          rfl
      · by_cases same : place = pos
        · subst same
          rw [lookup_insert]
          exact fun nothing => some_ (List.isEmpty_iff.mpr (Option.some.inj nothing))
        · simpa [lookup_insert_ne same] using sound.shared place
      · rw [sound.asked]
        by_cases same : place = pos
        · subst same
          simp [listed]
        · rw [lookup_insert_ne same]

theorem Sound.destroy (sound : capture.Sound) : (capture.destroy id answer).1.Sound := by
  obtain ⟨idMap, pending, handles, shared, asked, -⟩ := destroy_spec id answer sound
  refine ⟨fun other place => ?_, fun place => ?_, shared, fun queued member => ?_, asked⟩
  · rw [idMap, handles, mem_filter, ← sound.filed]
    by_cases same : other = id
    · subst same
      simp
    · simp [lookup_erase_ne same, same]
  · rw [handles]
    exact (sound.nodup place).filter _
  · rw [pending] at member
    obtain ⟨member, apart⟩ := mem_filter.mp member
    obtain ⟨place, there⟩ := sound.waiting queued member
    exact ⟨place, by rw [idMap, lookup_erase_ne (of_decide_eq_true apart), there]⟩

omit [DecidableEq Handle] in
theorem updatePressedKeys_spec (capture : InputCapture Handle E F) (event : CaptureEvent F) :
    ∃ keys, capture.updatePressedKeys event = { capture with pressedKeys := keys } := by
  unfold updatePressedKeys
  split
  · split
    · split <;> exact ⟨_, rfl⟩
    · exact ⟨_, rfl⟩
  · exact ⟨_, rfl⟩

/-- What a poll does to the queue and the log. -/
inductive Fetched (capture next : InputCapture Handle E F) : Prop where
  | queued (id : Handle) (event : CaptureEvent F)
      (pending : capture.pending = (id, event) :: next.pending)
      (log : next.log = .delivered id event :: capture.log)
  | idle (pending : next.pending = capture.pending) (log : next.log = capture.log)
  | unclaimed (pos : Position) (event : CaptureEvent F) (nobody : capture.handlesAt pos = [])
      (pending : next.pending = capture.pending)
      (log : next.log = .yielded pos event :: capture.log)
  | shared (pos : Position) (event : CaptureEvent F) (id : Handle) (others : List Handle)
      (handles : capture.handlesAt pos = id :: others) (empty : capture.pending = [])
      (pending : next.pending = others.map fun other => (other, event))
      (log : next.log = .delivered id event :: .yielded pos event :: capture.log)

omit [DecidableEq Handle] in
theorem pollNext_spec (capture : InputCapture Handle E F) (reading : Reading E F) :
    (capture.pollNext reading).1.idMap = capture.idMap ∧
      (capture.pollNext reading).1.positionMap = capture.positionMap ∧
      capture.Fetched (capture.pollNext reading).1 := by
  obtain ⟨log, pressedKeys, positionMap, idMap, pending⟩ := capture
  cases pending with
  | cons first rest => exact ⟨rfl, rfl, .queued first.1 first.2 rfl rfl⟩
  | nil =>
    cases reading with
    | notReady | closed | failed error => exact ⟨rfl, rfl, .idle rfl rfl⟩
    | event pos event =>
      let logged : InputCapture Handle E F :=
        ⟨.yielded pos event :: log, pressedKeys, positionMap, idMap, []⟩
      obtain ⟨keys, pressed⟩ := updatePressedKeys_spec logged event
      simp only [pollNext, logged] at pressed ⊢
      rw [pressed]
      cases shared : ({ logged with pressedKeys := keys }).handlesAt pos with
      | nil => exact ⟨rfl, rfl, .unclaimed pos event shared rfl rfl⟩
      | cons id others => exact ⟨rfl, rfl, .shared pos event id others shared rfl rfl rfl⟩

omit [DecidableEq Handle] in
theorem Fetched.standing_eq (fetched : capture.Fetched next) (pos : Position) :
    standing next.log pos = standing capture.log pos := by
  cases fetched <;> simp [*, standing_cons, Passed.standing]

theorem Sound.pollNext (sound : capture.Sound) (reading : Reading E F) :
    (capture.pollNext reading).1.Sound := by
  obtain ⟨idMap, positionMap, fetched⟩ := pollNext_spec capture reading
  refine ⟨fun id pos => ?_, fun pos => ?_, fun pos => ?_, fun queued member => ?_, fun pos => ?_⟩
  · rw [idMap, handlesAt, positionMap]
    exact sound.filed id pos
  · rw [handlesAt, positionMap]
    exact sound.nodup pos
  · rw [positionMap]
    exact sound.shared pos
  · rw [idMap]
    cases fetched with
    | queued id event pending log =>
      exact sound.waiting queued (pending ▸ mem_cons_of_mem _ member)
    | idle pending log | unclaimed pos event nobody pending log =>
      exact sound.waiting queued (pending ▸ member)
    | shared pos event id others handles empty pending log =>
      rw [pending] at member
      obtain ⟨other, there, rfl⟩ := List.mem_map.mp member
      exact ⟨pos, (sound.filed other pos).mpr (handles ▸ mem_cons_of_mem _ there)⟩
  · rw [fetched.standing_eq, positionMap]
    exact sound.asked pos

theorem Sound.step {act : Act Handle E F} (sound : capture.Sound)
    (stepped : capture.step act = some next) : next.Sound := by
  cases act with
  | create id pos answer =>
    obtain ⟨⟨made, result⟩, created, rfl⟩ := Option.map_eq_some_iff.mp stepped
    exact sound.create created
  | destroy id answer =>
    cases stepped
    exact sound.destroy
  | poll reading =>
    cases stepped
    exact sound.pollNext reading
  | release =>
    cases stepped
    exact ⟨sound.filed, sound.nodup, sound.shared, sound.waiting, sound.asked⟩

theorem sound_run {acts : List (Act Handle E F)} (ran : run acts = some capture) :
    capture.Sound :=
  foldlM_kept (fun _ sound _ _ _ stepped => sound.step stepped) sound_new ran

end InputCapture

end HopsFormal.Capture
