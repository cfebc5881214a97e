import HopsFormal.Capture.Task
import Mathlib.Data.List.Induction

/-!
# The repeats of a lock key

A lock key toggles on every down, so the down an operating system repeats while the key is
held is not sent.  The record of held lock keys outlives the visit it was made in: a key that
was down as a visit ended, and whose up went elsewhere, is taken for held in the next visit,
and the first down of it there is not sent either.
-/

namespace HopsFormal.Capture

open List Lib Wire

/-! ## The lock keys a run captures -/

/-- A lock key captured for the active client: in which visit, whether its crossing was
acknowledged, and whether a down of it was handed to the link. -/
structure LockEvent where
  visit : Nat
  key : UInt32
  down : Bool
  acknowledged : Bool
  reached : Bool
  deriving DecidableEq

def lockKey? {F : Type} (event : CaptureEvent F) : Option (UInt32 × Bool) :=
  match kind event with
  | .press (.key key) => if isLockKey key then some (key, true) else none
  | .release (.key key) => if isLockKey key then some (key, false) else none
  | _ => none

def isDown {Handle Addr F : Type} (key : UInt32) (frame : Sent Handle Addr F) : Bool :=
  match frame.event with
  | .input (.keyboard (.key _ other state)) => other = key && state ≠ 0
  | _ => false

/-- The last event of a key, in a history that lists the newest first. -/
def latest (key : UInt32) (locks : List LockEvent) : Option LockEvent :=
  locks.find? fun event => event.key = key

def LastDown (key : UInt32) (locks : List LockEvent) : Prop :=
  ∃ event, latest key locks = some event ∧ event.down = true

/-- The key went down earlier in the same visit, and no up of it was captured since. -/
def Repeated (event : LockEvent) (older : List LockEvent) : Prop :=
  ∃ between earlier rest, older = between ++ earlier :: rest ∧ earlier.key = event.key ∧
    earlier.down = true ∧ earlier.visit = event.visit ∧
    ∀ other ∈ between, other.key = event.key → other.down = true

/-- The key was last captured going down in another visit. -/
def LeftDown (event : LockEvent) (older : List LockEvent) : Prop :=
  ∃ earlier, latest event.key older = some earlier ∧ earlier.down = true ∧
    earlier.visit ≠ event.visit

section Latest

variable {key : UInt32} {event : LockEvent} {locks : List LockEvent}

theorem latest_cons_same (same : event.key = key) : latest key (event :: locks) = some event := by
  simp [latest, same]

theorem latest_cons_other (other : event.key ≠ key) :
    latest key (event :: locks) = latest key locks := by
  simp [latest, other]

theorem lastDown_cons_same (same : event.key = key) :
    LastDown key (event :: locks) ↔ event.down = true := by
  simp [LastDown, latest_cons_same same]

theorem lastDown_cons_other (other : event.key ≠ key) :
    LastDown key (event :: locks) ↔ LastDown key locks := by
  simp [LastDown, latest_cons_other other]

end Latest

variable {event : LockEvent} {older : List LockEvent}

theorem Repeated.lastDown (repeated : Repeated event older) : LastDown event.key older := by
  obtain ⟨between, earlier, rest, rfl, same, down, -, kept⟩ := repeated
  induction between with
  | nil => exact ⟨earlier, latest_cons_same same, down⟩
  | cons first between ih =>
    by_cases own : first.key = event.key
    · exact (lastDown_cons_same own).mpr (kept first mem_cons_self own)
    · exact (lastDown_cons_other own).mpr
        (ih fun other among => kept other (mem_cons_of_mem first among))

theorem latest_split {key : UInt32} {locks : List LockEvent} {event : LockEvent}
    (last : latest key locks = some event) : ∃ between rest,
      locks = between ++ event :: rest ∧ event.key = key ∧ ∀ other ∈ between, other.key ≠ key := by
  induction locks with
  | nil => cases last
  | cons first locks ih =>
    by_cases same : first.key = key
    · obtain rfl := Option.some.inj ((latest_cons_same same).symm.trans last)
      exact ⟨[], locks, rfl, same, nofun⟩
    · obtain ⟨between, rest, rfl, own, others⟩ := ih ((latest_cons_other same).symm.trans last)
      refine ⟨first :: between, rest, rfl, own, fun other among => ?_⟩
      obtain rfl | among := mem_cons.mp among
      · exact same
      · exact others other among

theorem lastDown_iff : LastDown event.key older → Repeated event older ∨ LeftDown event older := by
  rintro ⟨earlier, last, down⟩
  by_cases same : earlier.visit = event.visit
  · obtain ⟨between, rest, parts, own, others⟩ := latest_split last
    exact .inl ⟨between, earlier, rest, parts, own, down, same,
      fun other among key => absurd key (others other among)⟩
  · exact .inr ⟨earlier, last, down, same⟩

theorem LeftDown.lastDown : LeftDown event older → LastDown event.key older
  | ⟨earlier, last, down, _⟩ => ⟨earlier, last, down⟩

theorem LeftDown.not_repeated (left : LeftDown event older)
    (sorted : (event :: older).Pairwise fun later earlier => earlier.visit ≤ later.visit) :
    ¬ Repeated event older := by
  rintro ⟨between, pressed, rest, rfl, own, pressedDown, visit, kept⟩
  obtain ⟨last, found, down, differs⟩ := left
  obtain ⟨within, rest', parts, lastKey, others⟩ := latest_split found
  obtain ⟨bounded, ordered⟩ := pairwise_cons.mp sorted
  rw [parts, pairwise_append] at ordered
  have low : last.visit ≤ event.visit :=
    bounded last (parts ▸ mem_append_right within mem_cons_self)
  have among : pressed ∈ within ++ last :: rest' :=
    parts ▸ mem_append_right between mem_cons_self
  rw [mem_append, mem_cons] at among
  obtain inside | rfl | after := among
  · exact others pressed inside own
  · exact differs visit
  · have below := (pairwise_cons.mp ordered.2.1).1 pressed after
    omega

/-! ## What leaves the record of held lock keys alone -/

namespace CaptureTask

variable {Handle Addr F : Type}

/-- The record of held lock keys is untouched, and no visit is taken back. -/
structure KeepsLocks (before after : CaptureTask Handle Addr F) : Prop where
  held : after.heldLockKeys = before.heldLockKeys
  entered : before.entered.length ≤ after.entered.length

namespace KeepsLocks

theorem refl (task : CaptureTask Handle Addr F) : KeepsLocks task task := ⟨rfl, le_rfl⟩

theorem trans {first second third : CaptureTask Handle Addr F} (one : KeepsLocks first second)
    (two : KeepsLocks second third) : KeepsLocks first third :=
  ⟨two.held.trans one.held, one.entered.trans two.entered⟩

end KeepsLocks

theorem releaseBackend_keeps (world : World) (task : CaptureTask Handle Addr F) :
    KeepsLocks task (after (task.releaseBackend world)) := by
  unfold releaseBackend
  split <;> exact ⟨rfl, le_rfl⟩

variable (task : CaptureTask Handle Addr F)

theorem updatePressedKeys_keeps (event : CaptureEvent F) :
    KeepsLocks task (task.updatePressedKeys event) := by
  unfold updatePressedKeys
  split
  · split
    · split <;> exact ⟨rfl, le_rfl⟩
    · exact .refl task
  · exact .refl task

theorem noteButton_keeps (frame : ProtoEvent F F) : KeepsLocks task (task.noteButton frame) := by
  unfold noteButton
  split
  · split <;> exact ⟨rfl, le_rfl⟩
  · exact .refl task

section Leaving

variable [DecidableEq Handle] (world : World) (task : CaptureTask Handle Addr F) (handle : Handle)

theorem leaveActiveClient_keeps : KeepsLocks task (task.leaveActiveClient world) := by
  unfold leaveActiveClient
  split <;> exact ⟨rfl, le_rfl⟩

theorem releaseCapture_keeps : KeepsLocks task (after (task.releaseCapture world)) :=
  (task.leaveActiveClient_keeps world).trans (releaseBackend_keeps world _)

theorem endSession_keeps : KeepsLocks task (task.endSession world) :=
  ⟨(task.leaveActiveClient_keeps world).held, (task.leaveActiveClient_keeps world).entered⟩

theorem orEnd_keeps {world : World} {task : CaptureTask Handle Addr F}
    {called : Except (CaptureTask Handle Addr F) (CaptureTask Handle Addr F)}
    (keeps : KeepsLocks task (after called)) : KeepsLocks task (orEnd world called) := by
  cases called with
  | ok left => exact keeps
  | error failed => exact keeps.trans (failed.endSession_keeps world)

theorem sending_keeps {world : World} {sent : Bool} {before task : CaptureTask Handle Addr F}
    (keeps : KeepsLocks before task) :
    KeepsLocks before (after (if sent then .ok task else task.releaseCapture world)) := by
  split
  · exact keeps
  · exact keeps.trans (task.releaseCapture_keeps world)

theorem pass_keeps (frame : ProtoEvent F F) :
    KeepsLocks task (after (task.pass world handle frame)) := by
  unfold CaptureTask.pass
  split
  · exact ⟨rfl, le_rfl⟩
  · have noted := noteButton_keeps { task with enterWaits := false } frame
    exact sending_keeps ⟨noted.held, noted.entered⟩

theorem sendWaitingEnter_keeps (link : Nat) :
    KeepsLocks task (after (task.sendWaitingEnter world handle link)) := by
  unfold sendWaitingEnter
  split
  · exact .refl task
  · exact sending_keeps ⟨rfl, le_rfl⟩

theorem giveUpOnCrossing_keeps : KeepsLocks task (after (task.giveUpOnCrossing world)) := by
  unfold giveUpOnCrossing
  dsimp only
  split
  · exact ⟨rfl, le_rfl⟩
  · have left := releaseCapture_keeps world { task with awaitingAck := false }
    exact ⟨left.held, left.entered⟩

theorem destroyed_keeps : KeepsLocks task (after (task.destroyed world handle)) := by
  have left := task.releaseCapture_keeps world
  unfold destroyed
  split
  · cases released : task.releaseCapture world <;> exact ⟨(released ▸ left).held,
      (released ▸ left).entered⟩
  · exact ⟨rfl, le_rfl⟩

theorem acknowledged_keeps (link : Nat) (addr : Option Addr) :
    KeepsLocks task (task.acknowledged handle link addr) := by
  unfold acknowledged
  dsimp only
  split <;> exact ⟨rfl, le_rfl⟩

end Leaving

section Handling

variable [DecidableEq Handle] [AddCommGroup F]

theorem crossAgainIfRelinked_keeps (serial : Option Nat) (task : CaptureTask Handle Addr F)
    (handle : Handle) : KeepsLocks task (task.crossAgainIfRelinked serial handle).1 := by
  unfold crossAgainIfRelinked
  split
  · exact .refl task
  · split
    · split <;> exact ⟨rfl, le_rfl⟩
    · exact .refl task

variable (world : World) (task : CaptureTask Handle Addr F) (handle : Handle)

theorem sendMotion_keeps (delta : F × F) :
    KeepsLocks task (after (task.sendMotion world handle delta)) := by
  refine sending_keeps ?_
  split <;> exact ⟨rfl, le_rfl⟩

variable [DecidableEq F]

theorem flushPendingMotion_keeps : KeepsLocks task (after (task.flushPendingMotion world)) := by
  unfold flushPendingMotion
  split
  · exact .refl task
  · dsimp only
    split
    · exact ⟨rfl, le_rfl⟩
    · split
      · exact ⟨rfl, le_rfl⟩
      · rename_i delta _ _ _ handle _
        have again := crossAgainIfRelinked_keeps world.flushSerial
          { task with pendingMotion := none } handle
        have whole : KeepsLocks task _ := ⟨again.held, again.entered⟩
        split
        · exact whole
        · exact whole.trans (sendMotion_keeps world _ handle delta)

theorem coalesce_keeps (event : CaptureEvent F) :
    KeepsLocks task (afterTurn (task.coalesce world handle event)) := by
  have flushed := task.flushPendingMotion_keeps world
  unfold coalesce
  split
  · split
    · split
      · exact ⟨rfl, le_rfl⟩
      · rw [afterTurn_map]
        exact flushed
    · rw [afterTurn_map]
      exact flushed
  · exact .refl task

theorem cross_keeps (event : CaptureEvent F) :
    KeepsLocks task (afterTurn (task.cross world handle event)) := by
  unfold cross
  dsimp only
  split
  · split
    · exact .refl task
    · rw [afterTurn_map]
      exact task.releaseBackend_keeps world
  · split
    · split
      · split
        · rw [afterTurn_map]
          have left := releaseCapture_keeps world { task with absV := 0, absSeq := 0 }
          exact ⟨left.held, left.entered⟩
        · exact ⟨rfl, Nat.le_succ _⟩
      · exact ⟨rfl, le_rfl⟩
    · exact .refl task

theorem turn_keeps (event : CaptureEvent F) :
    KeepsLocks task (afterTurn (task.turn world handle event)) := by
  unfold turn
  split
  · rw [afterTurn_map]
    exact task.releaseCapture_keeps world
  · have again := task.crossAgainIfRelinked_keeps world.linkSerial handle
    have gathered := again.trans (coalesce_keeps world _ handle event)
    split
    · rename_i failed
      rw [failed] at gathered
      exact gathered
    · rename_i stopped
      rw [stopped] at gathered
      exact gathered
    · rename_i goesOn
      rw [goesOn] at gathered
      exact gathered.trans (cross_keeps world _ handle event)

end Handling

/-! ## What an event of a lock key does to the record -/

section LockKey

variable {task : CaptureTask Handle Addr F} {event : CaptureEvent F} {key : UInt32}

theorem kind_lockKey? {down : Bool} (found : lockKey? event = some (key, down)) :
    isLockKey key = true ∧
      kind event = if down then .press (.key key) else .release (.key key) := by
  unfold lockKey? at found
  split at found
  · rename_i kinds
    split at found
    · rename_i lock
      cases found
      exact ⟨lock, kinds⟩
    · cases found
  · rename_i kinds
    split at found
    · rename_i lock
      cases found
      exact ⟨lock, kinds⟩
    · cases found
  · cases found

theorem lockKey_other (other : lockKey? event = none) : task.lockKey event = (task, true) := by
  unfold lockKey? at other
  unfold lockKey
  split at other <;> simp_all

theorem lockKey_up (up : lockKey? event = some (key, false)) :
    task.lockKey event = ({ task with heldLockKeys := task.heldLockKeys.erase key }, true) := by
  obtain ⟨lock, kinds⟩ := kind_lockKey? up
  simp [lockKey, kinds, lock]

theorem lockKey_down (down : lockKey? event = some (key, true)) :
    task.lockKey event =
      if key ∈ task.heldLockKeys then (task, false)
      else ({ task with heldLockKeys := key :: task.heldLockKeys }, true) := by
  obtain ⟨lock, kinds⟩ := kind_lockKey? down
  simp [lockKey, kinds, lock]

theorem lockKey_entered (task : CaptureTask Handle Addr F) (event : CaptureEvent F) :
    (task.lockKey event).1.entered = task.entered := by
  unfold lockKey
  split
  · split <;> rfl
  · split
    · split <;> rfl
    · rfl
  · rfl

theorem lockKey?_motion {dx dy : F} (motion : kind event = .motion dx dy) :
    lockKey? event = none := by
  rw [lockKey?, motion]

theorem lockKey?_down (down : lockKey? event = some (key, true)) :
    ∃ time state, event = .input (.keyboard (.key time key state)) ∧ state ≠ 0 := by
  have pressed := (kind_lockKey? down).2
  cases event with
  | begin => simp [kind] at pressed
  | input event =>
    cases event with
    | pointer event =>
      cases event with
      | motion time dx dy | axis time axis value | axisDiscrete120 axis value =>
        simp [kind] at pressed
      | button time button state =>
        simp only [kind] at pressed
        split at pressed <;> cases pressed
    | keyboard event =>
      cases event with
      | key time code state =>
        simp only [kind] at pressed
        split at pressed
        · cases pressed
        · rename_i nonzero
          cases pressed
          exact ⟨time, state, rfl, nonzero⟩
      | modifiers depressed latched locked group => simp [kind] at pressed

end LockKey

/-- What was sent since, where both lists have the newest frame first. -/
def newFrames (before after : List (Sent Handle Addr F)) : List (Sent Handle Addr F) :=
  after.take (after.length - before.length)

theorem newFrames_append (frames before : List (Sent Handle Addr F)) :
    newFrames before (frames ++ before) = frames := by
  rw [newFrames, length_append, Nat.add_sub_cancel, take_left]

variable [DecidableEq Handle]

theorem releaseCapture_sent (world : World) (task : CaptureTask Handle Addr F) :
    ∃ frames, (after (task.releaseCapture world)).sent = frames ++ task.sent := by
  have left : ∃ frames, (task.leaveActiveClient world).sent = frames ++ task.sent := by
    unfold leaveActiveClient
    split
    · exact ⟨[], rfl⟩
    · exact ⟨_, rfl⟩
  unfold releaseCapture releaseBackend
  split <;> exact left

theorem pass_key (world : World) (task : CaptureTask Handle Addr F) (handle : Handle)
    (time key : UInt32) {state : UInt8} (down : state ≠ 0) :
    (newFrames task.sent (after (task.pass world handle
      (.input (.keyboard (.key time key state))))).sent).any (isDown key) = true := by
  have own : isDown key (⟨handle, none, .input (.keyboard (.key time key state))⟩ :
      Sent Handle Addr F) = true := by simp [isDown, down]
  have grown : ∃ frames, (after (task.pass world handle
      (.input (.keyboard (.key time key state))))).sent =
        (frames ++ [⟨handle, none, .input (.keyboard (.key time key state))⟩]) ++ task.sent := by
    unfold pass
    rw [if_neg (by simp [isEnter])]
    dsimp only [noteButton]
    split
    · exact ⟨[], rfl⟩
    · obtain ⟨frames, grown⟩ := releaseCapture_sent world
        (send { task with enterWaits := false } handle none (.input (.keyboard (.key time key state))))
      exact ⟨frames, grown.trans (append_cons frames _ task.sent)⟩
  obtain ⟨frames, grown⟩ := grown
  rw [grown, newFrames_append, any_append, any_cons, own, Bool.true_or, Bool.or_true]

section Forward

variable [AddCommGroup F]

/-- Passing an event on changes the record as the event says. -/
theorem forward_locks (world : World) (task : CaptureTask Handle Addr F) (handle : Handle)
    (event : CaptureEvent F) :
    KeepsLocks (task.lockKey event).1 (after (task.forward world handle event)) := by
  unfold forward
  split
  · rename_i motion
    rw [lockKey_other (lockKey?_motion motion)]
    exact sendMotion_keeps world task handle _
  · dsimp only
    split
    · exact pass_keeps world _ handle _
    · exact .refl _

/-- A down of a lock key in a crossing that stands is handed to the link unless the record
has the key. -/
theorem forward_reached {world : World} {task : CaptureTask Handle Addr F} {handle : Handle}
    {event : CaptureEvent F} {key : UInt32} (down : lockKey? event = some (key, true))
    (stands : task.state = .sending) :
    (newFrames task.sent (after (task.forward world handle event)).sent).any (isDown key) =
      decide (key ∉ task.heldLockKeys) := by
  have pressed := (kind_lockKey? down).2
  rw [if_pos rfl] at pressed
  rw [forward_frame world task handle (by rw [pressed]; exact nofun), lockKey_down down]
  by_cases held : key ∈ task.heldLockKeys
  · rw [if_pos held, if_neg Bool.false_ne_true, decide_eq_false (not_not.mpr held)]
    exact congrArg (List.any · (isDown key)) (newFrames_append [] task.sent)
  · rw [if_neg held, if_pos rfl, decide_eq_true held]
    obtain ⟨time, state, rfl, nonzero⟩ := lockKey?_down down
    have passed : ∀ noted : CaptureTask Handle Addr F, noted.state = .sending →
        (newFrames noted.sent (after (noted.pass world handle
          (noted.frame handle (.input (.keyboard (.key time key state)))))).sent).any
            (isDown key) = true := by
      intro noted stands
      rw [frame, stands]
      exact pass_key world noted handle time key nonzero
    exact passed { task with heldLockKeys := key :: task.heldLockKeys } stands

end Forward

/-! ## The lock keys of a run -/

variable [AddCommGroup F] [DecidableEq F]

/-- What an act captures of a lock key, if it is for the active client. -/
def lockEvent (task : CaptureTask Handle Addr F) : Act Handle Addr F → Option LockEvent
  | .captured world fresh handle event =>
    let task := if fresh then task.updatePressedKeys event else task
    match task.turn world handle event, lockKey? event with
    | .ok (taken, true), some (key, down) =>
      some {
        visit := taken.entered.length
        key := key
        down := down
        acknowledged := taken.state = .sending
        reached := (newFrames taken.sent
          (after (task.handleCaptureEvent world handle event)).sent).any (isDown key) }
    | _, _ => none
  | _ => none

/-- What an event of a lock key does to the record of held ones. -/
structure Records (before after : CaptureTask Handle Addr F) (event : LockEvent) : Prop where
  entered : before.entered.length ≤ event.visit
  visit : event.visit ≤ after.entered.length
  up : event.down = false → after.heldLockKeys = before.heldLockKeys.erase event.key
  down : event.down = true → after.heldLockKeys =
    if event.key ∈ before.heldLockKeys then before.heldLockKeys
    else event.key :: before.heldLockKeys
  reached : event.down = true → event.acknowledged = true →
    event.reached = decide (event.key ∉ before.heldLockKeys)

theorem captured_records {world : World} {task : CaptureTask Handle Addr F} {fresh : Bool}
    {handle : Handle} {event : CaptureEvent F} {lock : LockEvent}
    (found : task.lockEvent (.captured world fresh handle event) = some lock) :
    Records task (task.step (.captured world fresh handle event)) lock := by
  simp only [lockEvent] at found
  simp only [step]
  have updated : KeepsLocks task (if fresh then task.updatePressedKeys event else task) := by
    split
    · exact task.updatePressedKeys_keeps event
    · exact .refl task
  revert found
  generalize (if fresh then task.updatePressedKeys event else task) = before at updated ⊢
  intro found
  split at found
  case h_2 => cases found
  case h_1 taken key down turned pressed =>
    have keeps := before.turn_keeps world handle event
    rw [turned] at keeps
    have passed : KeepsLocks _ (orEnd world _) :=
      orEnd_keeps (taken.forward_locks world handle event)
    have handled : before.handleCaptureEvent world handle event =
        taken.forward world handle event := by rw [handleCaptureEvent, turned]
    rw [handled] at found ⊢
    have held : taken.heldLockKeys = task.heldLockKeys := keeps.held.trans updated.held
    cases found
    refine ⟨updated.entered.trans keeps.entered, ?_, ?_, ?_, ?_⟩
    · exact (congrArg List.length (taken.lockKey_entered event)).symm.trans_le passed.entered
    · rintro rfl
      rw [passed.held, lockKey_up pressed, ← held]
    · rintro rfl
      rw [passed.held, lockKey_down pressed, ← held]
      exact apply_ite (fun noted : CaptureTask Handle Addr F × Bool => noted.1.heldLockKeys) _ _ _
    · rintro rfl acknowledged
      rw [← held]
      exact forward_reached pressed (of_decide_eq_true acknowledged)

theorem captured_keeps {world : World} {task : CaptureTask Handle Addr F} {fresh : Bool}
    {handle : Handle} {event : CaptureEvent F}
    (quiet : task.lockEvent (.captured world fresh handle event) = none) :
    KeepsLocks task (task.step (.captured world fresh handle event)) := by
  simp only [lockEvent] at quiet
  simp only [step]
  have updated : KeepsLocks task (if fresh then task.updatePressedKeys event else task) := by
    split
    · exact task.updatePressedKeys_keeps event
    · exact .refl task
  refine updated.trans (orEnd_keeps ?_)
  generalize (if fresh then task.updatePressedKeys event else task) = before at quiet ⊢
  have keeps := before.turn_keeps world handle event
  unfold handleCaptureEvent
  split
  · rename_i turned
    rw [turned] at keeps
    exact keeps
  · rename_i turned
    rw [turned] at keeps
    exact keeps
  · rename_i taken turned
    rw [turned] at keeps quiet
    refine keeps.trans ?_
    cases pressed : lockKey? event with
    | some lock => simp [pressed] at quiet
    | none =>
      have passed := taken.forward_locks world handle event
      rwa [lockKey_other pressed] at passed

theorem step_records (act : Act Handle Addr F) :
    (∀ lock, task.lockEvent act = some lock → Records task (task.step act) lock) ∧
      (task.lockEvent act = none → KeepsLocks task (task.step act)) := by
  cases act with
  | captured world fresh handle event =>
    exact ⟨fun lock => captured_records, captured_keeps⟩
  | motionFlush world =>
    refine ⟨nofun, fun _ => ?_⟩
    simp only [step]
    split
    · exact orEnd_keeps (task.flushPendingMotion_keeps world)
    · exact .refl task
  | ackDeadline world =>
    refine ⟨nofun, fun _ => ?_⟩
    simp only [step]
    split
    · exact orEnd_keeps (task.giveUpOnCrossing_keeps world)
    · exact .refl task
  | ack handle link addr =>
    refine ⟨nofun, fun _ => ?_⟩
    simp only [step]
    split
    · exact task.acknowledged_keeps handle link addr
    · exact .refl task
  | pong world handle link =>
    refine ⟨nofun, fun _ => ?_⟩
    simp only [step]
    split
    · exact orEnd_keeps (task.sendWaitingEnter_keeps world handle link)
    · exact .refl task
  | leave world handle =>
    refine ⟨nofun, fun _ => ?_⟩
    simp only [step]
    split
    · exact orEnd_keeps (task.releaseCapture_keeps world)
    · exact .refl task
  | release world => exact ⟨nofun, fun _ => orEnd_keeps (task.releaseCapture_keeps world)⟩
  | create handle pos type | setReleaseBind bind => exact ⟨nofun, fun _ => ⟨rfl, le_rfl⟩⟩
  | destroy world handle => exact ⟨nofun, fun _ => orEnd_keeps (task.destroyed_keeps world handle)⟩
  | sessionEnds world => exact ⟨nofun, fun _ => task.endSession_keeps world⟩

end CaptureTask

/-! ## Whole runs -/

/-- A task with the lock keys captured for its active clients, the newest first. -/
structure Watched (Handle Addr F : Type) where
  task : CaptureTask Handle Addr F
  locks : List LockEvent

namespace Watched

variable {Handle Addr F : Type} [DecidableEq Handle] [AddCommGroup F] [DecidableEq F]

def step (watched : Watched Handle Addr F) (act : Act Handle Addr F) : Watched Handle Addr F where
  task := watched.task.step act
  locks := (watched.task.lockEvent act).toList ++ watched.locks

def run (releaseBind : List UInt32) (coalesceMotion : Bool) (acts : List (Act Handle Addr F)) :
    Watched Handle Addr F :=
  acts.foldl step ⟨.start releaseBind coalesceMotion, []⟩

/-- The record has the keys last captured going down, and the visits are in order. -/
structure Sound (watched : Watched Handle Addr F) : Prop where
  held : ∀ key, key ∈ watched.task.heldLockKeys ↔ LastDown key watched.locks
  nodup : watched.task.heldLockKeys.Nodup
  visits : ∀ lock ∈ watched.locks, lock.visit ≤ watched.task.entered.length
  sorted : watched.locks.Pairwise fun later earlier => earlier.visit ≤ later.visit
  reached : ∀ newer lock older, watched.locks = newer ++ lock :: older → lock.down = true →
    lock.acknowledged = true → (lock.reached = true ↔ ¬ LastDown lock.key older)

omit [DecidableEq Handle] [DecidableEq F] in
theorem Sound.start (releaseBind : List UInt32) (coalesceMotion : Bool) :
    Sound (⟨.start releaseBind coalesceMotion, []⟩ : Watched Handle Addr F) where
  held key := ⟨nofun, fun ⟨_, last, _⟩ => nomatch last⟩
  nodup := .nil
  visits _ among := nomatch among
  sorted := .nil
  reached newer lock older split := by simp at split

variable {watched : Watched Handle Addr F}

omit [DecidableEq Handle] [AddCommGroup F] [DecidableEq F] in
theorem Sound.quiet (sound : Sound watched) {task : CaptureTask Handle Addr F}
    (keeps : watched.task.KeepsLocks task) : Sound ⟨task, watched.locks⟩ where
  held key := keeps.held ▸ sound.held key
  nodup := keeps.held ▸ sound.nodup
  visits lock among := (sound.visits lock among).trans keeps.entered
  sorted := sound.sorted
  reached := sound.reached

omit [DecidableEq Handle] [AddCommGroup F] [DecidableEq F] in
theorem Sound.recorded (sound : Sound watched) {task : CaptureTask Handle Addr F} {lock : LockEvent}
    (records : watched.task.Records task lock) : Sound ⟨task, lock :: watched.locks⟩ where
  held key := by
    cases direction : lock.down with
    | false =>
      rw [records.up direction, sound.nodup.mem_erase_iff]
      by_cases same : lock.key = key
      · subst same
        simp [lastDown_cons_same, direction]
      · rw [lastDown_cons_other same, sound.held key]
        exact and_iff_right (Ne.symm same)
    | true =>
      rw [records.down direction]
      by_cases same : lock.key = key
      · subst same
        rw [lastDown_cons_same rfl]
        split <;> simp_all
      · rw [lastDown_cons_other same, ← sound.held key]
        split
        · rfl
        · rw [mem_cons]
          exact or_iff_right (Ne.symm same)
  nodup := by
    cases direction : lock.down with
    | false =>
      rw [records.up direction]
      exact sound.nodup.erase lock.key
    | true =>
      rw [records.down direction]
      split
      · exact sound.nodup
      · rename_i absent
        exact nodup_cons.mpr ⟨absent, sound.nodup⟩
  visits other among := by
    obtain rfl | among := mem_cons.mp among
    · exact records.visit
    · exact ((sound.visits other among).trans records.entered).trans records.visit
  sorted := pairwise_cons.mpr
    ⟨fun other among => (sound.visits other among).trans records.entered, sound.sorted⟩
  reached newer other older split down acknowledged := by
    cases newer with
    | nil =>
      obtain ⟨rfl, rfl⟩ := List.cons.inj split
      rw [records.reached down acknowledged, decide_eq_true_iff, sound.held]
    | cons first newer =>
      exact sound.reached newer other older (List.cons.inj split).2 down acknowledged

theorem Sound.step (sound : Sound watched) (act : Act Handle Addr F) :
    Sound (watched.step act) := by
  have records := watched.task.step_records act
  unfold Watched.step
  cases found : watched.task.lockEvent act with
  | none => exact sound.quiet (records.2 found)
  | some lock => exact sound.recorded (records.1 lock found)

theorem run_sound (releaseBind : List UInt32) (coalesceMotion : Bool)
    (acts : List (Act Handle Addr F)) : Sound (run releaseBind coalesceMotion acts) := by
  induction acts using reverseRecOn with
  | nil => exact .start releaseBind coalesceMotion
  | append_singleton acts act ih =>
    rw [run, foldl_append]
    exact ih.step act

/-- A down of a lock key in a crossing that stands is withheld if and only if it repeats a
down of its own visit, exactly when the key was not left down by an earlier visit. -/
theorem withheld_repeats (releaseBind : List UInt32) (coalesceMotion : Bool)
    (acts : List (Act Handle Addr F)) {newer older : List LockEvent} {lock : LockEvent}
    (split : (run releaseBind coalesceMotion acts).locks = newer ++ lock :: older)
    (down : lock.down = true) (acknowledged : lock.acknowledged = true) :
    ((lock.reached = false → Repeated lock older) ∧ (Repeated lock older → lock.reached = false)) ↔
      ¬ LeftDown lock older := by
  have sound := run_sound releaseBind coalesceMotion acts
  have reached := sound.reached newer lock older split down acknowledged
  have sorted := (pairwise_append.mp (split ▸ sound.sorted)).2.1
  rw [← Bool.not_eq_true, reached, not_not]
  constructor
  · rintro ⟨withheld, -⟩ left
    exact left.not_repeated sorted (withheld left.lastDown)
  · intro left
    exact ⟨fun pressed => (lastDown_iff pressed).resolve_right left, Repeated.lastDown⟩

/-! ## A visit that ends with the key down -/

def capsDown : CaptureEvent Int := .input (.keyboard (.key 0 58 1))

def capsUp : CaptureEvent Int := .input (.keyboard (.key 0 58 0))

/-- A visit in which Caps Lock is pressed and held: the down, and its repeat. -/
def heldVisit : List (Act Nat Nat Int) :=
  [.captured (.fair 7 false) true 1 .begin, .ack 1 7 none, .captured (.fair 7 false) true 1 capsDown,
    .captured (.fair 7 false) true 1 capsDown]

theorem withheld_repeats_held :
    (((⟨1, 58, true, true, false⟩ : LockEvent).reached = false →
        Repeated ⟨1, 58, true, true, false⟩ [⟨1, 58, true, true, true⟩]) ∧
      (Repeated ⟨1, 58, true, true, false⟩ [⟨1, 58, true, true, true⟩] →
        (⟨1, 58, true, true, false⟩ : LockEvent).reached = false)) ↔
      ¬ LeftDown ⟨1, 58, true, true, false⟩ [⟨1, 58, true, true, true⟩] :=
  withheld_repeats [1] false heldVisit
    (show (run [1] false heldVisit).locks = [] ++ _ :: _ from by decide +kernel) rfl rfl

/-- Caps Lock goes down in one visit, and up after the pointer has come back; in the next visit
it is pressed again. -/
def twoVisits : List (Act Nat Nat Int) :=
  [.captured (.fair 7 false) true 1 .begin, .ack 1 7 none, .captured (.fair 7 false) true 1 capsDown,
    .release (.fair 7 false), .captured (.fair 7 false) true 1 .begin, .ack 1 7 none,
    .captured (.fair 7 false) true 1 capsDown]

/-- The first down of the second visit is withheld, and repeats nothing. -/
theorem first_press_withheld :
    (run [1] false twoVisits).locks = [⟨2, 58, true, true, false⟩, ⟨1, 58, true, true, true⟩] ∧
      ¬ Repeated ⟨2, 58, true, true, false⟩ [⟨1, 58, true, true, true⟩] := by
  refine ⟨by decide +kernel, ?_⟩
  rintro ⟨between, earlier, rest, parts, -, -, visit, -⟩
  have among : earlier ∈ [(⟨1, 58, true, true, true⟩ : LockEvent)] :=
    parts ▸ mem_append_right between mem_cons_self
  obtain rfl := mem_singleton.mp among
  cases visit

end Watched

end HopsFormal.Capture
