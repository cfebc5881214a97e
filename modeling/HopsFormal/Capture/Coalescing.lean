import HopsFormal.Capture.Task
import Mathlib.Data.List.Induction
import Mathlib.Tactic.Abel

/-!
# Motion that is summed up

With coalescing on, motion waits in one sum until a timer or another event sends it.  A visit
is run twice over the same acts, once with coalescing and once without.  The frames other than
motion are the same, each after the same displacement, whether the peer takes motion as deltas
or as the displacement since the crossing; what the sum still holds is all that is missing.
-/

namespace HopsFormal.Capture

open List Lib Wire CaptureTask

variable {Handle Addr F : Type}

/-! ## What the frames of a visit add up to -/

def isMotion : ProtoEvent F F → Bool
  | .input (.pointer (.motion _ _ _)) => true
  | .pointerMotionAbsolute _ _ _ _ => true
  | _ => false

section Reckoning

variable [AddCommGroup F]

/-- The displacement a peer is sent, and the point the next absolute motion counts from, which
every Enter sets back to the origin.  The newest frame is first. -/
def reckon : List (Sent Handle Addr F) → (F × F) × (F × F)
  | [] => (0, 0)
  | frame :: older =>
    match frame.event with
    | .input (.pointer (.motion _ dx dy)) => ((reckon older).1 + (dx, dy), (reckon older).2)
    | .pointerMotionAbsolute _ _ vx vy =>
      ((reckon older).1 + ((vx, vy) - (reckon older).2), (vx, vy))
    | .enter _ => ((reckon older).1, 0)
    | _ => reckon older

def displacement (frames : List (Sent Handle Addr F)) : F × F := (reckon frames).1

def anchor (frames : List (Sent Handle Addr F)) : F × F := (reckon frames).2

/-- The frames other than motion, each with the displacement sent before it. -/
def outline : List (Sent Handle Addr F) → List (Sent Handle Addr F × F × F)
  | [] => []
  | frame :: older =>
    if isMotion frame.event then outline older
    else (frame, displacement older) :: outline older

theorem outline_motion {frame : Sent Handle Addr F} (motion : isMotion frame.event = true)
    (older : List (Sent Handle Addr F)) : outline (frame :: older) = outline older := by
  rw [outline, if_pos motion]

theorem outline_still {frame : Sent Handle Addr F} (still : isMotion frame.event = false)
    (older : List (Sent Handle Addr F)) :
    outline (frame :: older) = (frame, displacement older) :: outline older := by
  rw [outline, if_neg (Bool.eq_false_iff.mp still)]

/-- A frame that is no motion moves nothing, and only an Enter moves the anchor. -/
theorem reckon_still {frame : Sent Handle Addr F} (still : isMotion frame.event = false)
    (older : List (Sent Handle Addr F)) :
    displacement (frame :: older) = displacement older ∧
      anchor (frame :: older) =
        if isEnter frame.event then 0 else anchor older := by
  obtain ⟨handle, via, event⟩ := frame
  cases event with
  | input event =>
    cases event with
    | pointer event =>
      cases event with
      | motion time dx dy => cases still
      | button time button state | axis time axis value | axisDiscrete120 axis value =>
        exact ⟨rfl, rfl⟩
    | keyboard event => exact ⟨rfl, rfl⟩
  | pointerMotionAbsolute seq ts vx vy => cases still
  | enter position | leave serial | ack serial | ping | pong alive | hello commit
  | capability flags => exact ⟨rfl, rfl⟩

end Reckoning

/-! ## The part of the task that motion touches -/

/-- What a task with coalescing holds otherwise than one without. -/
structure Motion (Handle Addr F : Type) where
  coalesceMotion : Bool
  pendingMotion : Option (F × F)
  absV : F × F
  absSeq : UInt32
  sent : List (Sent Handle Addr F)

namespace CaptureTask

def withMotion (task : CaptureTask Handle Addr F) (motion : Motion Handle Addr F) :
    CaptureTask Handle Addr F :=
  { task with
    coalesceMotion := motion.coalesceMotion
    pendingMotion := motion.pendingMotion
    absV := motion.absV
    absSeq := motion.absSeq
    sent := motion.sent }

variable (task : CaptureTask Handle Addr F)

theorem updatePressedKeys_withMotion (motion : Motion Handle Addr F) (event : CaptureEvent F) :
    (task.withMotion motion).updatePressedKeys event =
      (task.updatePressedKeys event).withMotion motion := by
  unfold updatePressedKeys
  split
  · split
    · split <;> rfl
    · rfl
  · rfl

theorem lockKey_withMotion (motion : Motion Handle Addr F) (event : CaptureEvent F) :
    (task.withMotion motion).lockKey event =
      ((task.lockKey event).1.withMotion motion, (task.lockKey event).2) := by
  unfold lockKey
  split
  · split <;> rfl
  · split
    · change (if _ ∈ task.heldLockKeys then _ else _) = _
      split <;> rfl
    · rfl
  · rfl

theorem sendMotion_sent [DecidableEq Handle] [AddCommGroup F] {world : World} (handle : Handle)
    (delta : F × F) (sent : world.motionSent = true) :
    ∃ frame absV absSeq, task.sendMotion world handle delta =
        .ok { task with absV := absV, absSeq := absSeq, sent := frame :: task.sent } ∧
      isMotion frame.event = true ∧
      (anchor task.sent = task.absV → anchor (frame :: task.sent) = absV ∧
        displacement (frame :: task.sent) = displacement task.sent + delta) := by
  unfold sendMotion
  simp only [sent, if_true]
  split
  · refine ⟨_, _, _, rfl, rfl, fun anchored => ⟨rfl, ?_⟩⟩
    change displacement task.sent + (task.absV + delta - anchor task.sent) = _
    rw [anchored, add_sub_cancel_left]
  · exact ⟨_, _, _, rfl, rfl, fun anchored => ⟨anchored, rfl⟩⟩

end CaptureTask

/-! ## Two runs in step -/

section Stepping

variable [DecidableEq Handle] [AddCommGroup F]

/-- A task with coalescing, given by what it holds otherwise, and one without, in the same
visit on the same link. -/
structure InStep (handle : Handle) (link : Nat) (motion : Motion Handle Addr F)
    (task : CaptureTask Handle Addr F) : Prop where
  coalesces : motion.coalesceMotion = true
  sends : task.coalesceMotion = false
  bare : task.pendingMotion = none
  active : task.activeClient = some handle
  crosses : task.getType handle ≠ .enterOnly
  acked : task.state = .sending → task.ackedLink = some link ∧ task.awaitingAck = false
  still : task.state = .waitingForAck →
    motion.pendingMotion = none ∧ motion.absV = 0 ∧ task.absV = 0
  outlines : outline motion.sent = outline task.sent
  totals : displacement motion.sent + motion.pendingMotion.getD 0 = displacement task.sent

/-- Both count absolute motion from where their peer does. -/
structure Anchored (motion : Motion Handle Addr F) (task : CaptureTask Handle Addr F) :
    Prop where
  coalescing : anchor motion.sent = motion.absV
  plain : anchor task.sent = task.absV

variable {handle : Handle} {link : Nat} {motion : Motion Handle Addr F}
  {task : CaptureTask Handle Addr F} {world : World}

namespace InStep

section

variable (inStep : InStep handle link motion task)
include inStep

/-- What is in step stays so while the fields it speaks of stay. -/
theorem congr {task' : CaptureTask Handle Addr F}
    (sends : task'.coalesceMotion = task.coalesceMotion)
    (bare : task'.pendingMotion = task.pendingMotion)
    (active : task'.activeClient = task.activeClient) (captures : task'.captures = task.captures)
    (state : task'.state = task.state) (ackedLink : task'.ackedLink = task.ackedLink)
    (awaiting : task'.awaitingAck = task.awaitingAck) (absV : task'.absV = task.absV)
    (sent : task'.sent = task.sent) : InStep handle link motion task' where
  coalesces := inStep.coalesces
  sends := sends.trans inStep.sends
  bare := bare.trans inStep.bare
  active := active.trans inStep.active
  crosses := by
    have crosses := inStep.crosses
    unfold getType at *
    rwa [captures]
  acked stands := by
    rw [ackedLink, awaiting]
    exact inStep.acked (state ▸ stands)
  still waits := by
    rw [absV]
    exact inStep.still (state ▸ waits)
  outlines := inStep.outlines.trans (congrArg outline sent.symm)
  totals := inStep.totals.trans (congrArg displacement sent.symm)

theorem frame (idle : motion.pendingMotion = none) {frame : Sent Handle Addr F}
    (still : isMotion frame.event = false) :
    InStep handle link { motion with sent := frame :: motion.sent }
      { task with sent := frame :: task.sent } where
  coalesces := inStep.coalesces
  sends := inStep.sends
  bare := inStep.bare
  active := inStep.active
  crosses := inStep.crosses
  acked := inStep.acked
  still := inStep.still
  outlines := by
    have totals := inStep.totals
    rw [idle, Option.getD_none, add_zero] at totals
    rw [outline_still still, outline_still still, inStep.outlines, totals]
  totals := by
    rw [(reckon_still still motion.sent).1, (reckon_still still task.sent).1]
    exact inStep.totals

/-- The crossing starts again from the origin. -/
theorem reset :
    InStep handle link { motion with absV := 0, absSeq := 0 } { task with absV := 0, absSeq := 0 } :=
  { inStep with still := fun waits => ⟨(inStep.still waits).1, rfl, rfl⟩ }

/-- Motion that goes out in one run waits in the other. -/
theorem gathered (stands : task.state = .sending) {delta absV : F × F} {absSeq : UInt32}
    {frame : Sent Handle Addr F} (moves : isMotion frame.event = true)
    (adds : displacement (frame :: task.sent) = displacement task.sent + delta) :
    InStep handle link { motion with pendingMotion := some (motion.pendingMotion.getD 0 + delta) }
      { task with absV := absV, absSeq := absSeq, sent := frame :: task.sent } where
  coalesces := inStep.coalesces
  sends := inStep.sends
  bare := inStep.bare
  active := inStep.active
  crosses := inStep.crosses
  acked := inStep.acked
  still waits := absurd (waits.symm.trans stands) nofun
  outlines := inStep.outlines.trans (outline_motion moves task.sent).symm
  totals := by
    rw [adds, ← inStep.totals, Option.getD_some, add_assoc]

/-- Motion that waited goes out. -/
theorem spilled (stands : task.state = .sending) {absV : F × F} {absSeq : UInt32}
    {frame : Sent Handle Addr F} (moves : isMotion frame.event = true)
    (adds : displacement (frame :: motion.sent) =
      displacement motion.sent + motion.pendingMotion.getD 0) : InStep handle link
      { motion with
        pendingMotion := none, absV := absV, absSeq := absSeq, sent := frame :: motion.sent }
      task where
  coalesces := inStep.coalesces
  sends := inStep.sends
  bare := inStep.bare
  active := inStep.active
  crosses := inStep.crosses
  acked := inStep.acked
  still waits := absurd (waits.symm.trans stands) nofun
  outlines := (outline_motion moves motion.sent).trans inStep.outlines
  totals := by
    rw [adds, Option.getD_none, add_zero]
    exact inStep.totals

end

end InStep

/-- A crossing acknowledged on the link its client is on is not made again. -/
theorem not_relinked (task : CaptureTask Handle Addr F) {serial : Option Nat}
    (same : serial = some link) (acked : task.state = .sending → task.ackedLink = some link)
    (other : Handle) : task.crossAgainIfRelinked serial other = (task, false) := by
  unfold crossAgainIfRelinked
  split
  · rfl
  · rename_i stands
    rw [not_or, not_not] at stands
    rw [same]
    simp only [acked stands.1, ne_eq, not_true_eq_false, if_false]

/-! ## Motion that waits goes out -/

variable [DecidableEq F]

theorem flush_idle (idle : task.pendingMotion = none) :
    task.flushPendingMotion world = .ok task := by
  rw [flushPendingMotion, idle]

theorem flush_some {delta : F × F} (pending : task.pendingMotion = some delta)
    (moves : ¬ (delta.1 = 0 ∧ delta.2 = 0)) (active : task.activeClient = some handle)
    (serial : world.flushSerial = some link)
    (acked : task.state = .sending → task.ackedLink = some link) : task.flushPendingMotion world =
      sendMotion world { task with pendingMotion := none } handle delta := by
  have linked : crossAgainIfRelinked world.flushSerial
      { task with pendingMotion := none } handle = ({ task with pendingMotion := none }, false) :=
    not_relinked { task with pendingMotion := none } serial acked handle
  unfold flushPendingMotion
  rw [pending]
  dsimp only
  rw [if_neg moves]
  split
  · rename_i absent
    cases active.symm.trans absent
  · rename_i found
    obtain rfl := Option.some.inj (active.symm.trans found)
    rw [linked]
    exact if_neg Bool.false_ne_true

theorem InStep.flush (inStep : InStep handle link motion task) (anchored : Anchored motion task)
    (serial : world.flushSerial = some link) (sent : world.motionSent = true) :
    ∃ motion', (task.withMotion motion).flushPendingMotion world = .ok (task.withMotion motion') ∧
      InStep handle link motion' task ∧ Anchored motion' task ∧ motion'.pendingMotion = none := by
  cases pending : motion.pendingMotion with
  | none => exact ⟨motion, flush_idle pending, inStep, anchored, pending⟩
  | some delta =>
    have stands : task.state = .sending := by
      cases phase : task.state with
      | sending => rfl
      | waitingForAck => cases pending.symm.trans (inStep.still phase).1
    by_cases zero : delta.1 = 0 ∧ delta.2 = 0
    · refine ⟨{ motion with pendingMotion := none }, ?_, ?_, ⟨anchored.coalescing, anchored.plain⟩, rfl⟩
      · have waits : (task.withMotion motion).pendingMotion = some delta := pending
        simp only [flushPendingMotion, waits, zero, and_self, if_true]
        rfl
      · have totals := inStep.totals
        rw [pending, Option.getD_some, show delta = 0 from Prod.ext zero.1 zero.2] at totals
        exact { inStep with
          still := fun waits => absurd (waits.symm.trans stands) nofun
          totals := totals }
    · have flushed : (task.withMotion motion).flushPendingMotion world = _ :=
        flush_some pending zero inStep.active serial fun stands => (inStep.acked stands).1
      obtain ⟨frame, absV, absSeq, moved, moves, adds⟩ :=
        sendMotion_sent { task.withMotion motion with pendingMotion := none } handle delta sent
      obtain ⟨anchors, adds⟩ := adds anchored.coalescing
      refine ⟨_, flushed.trans moved, inStep.spilled stands moves ?_, ⟨anchors, anchored.plain⟩, rfl⟩
      rw [pending]
      exact adds

/-! ## Frames that both runs send -/

/-- The buttons down on the peer once a frame is noted. -/
def buttonsAfter (buttons : List UInt32) : ProtoEvent F F → List UInt32
  | .input (.pointer (.button _ button state)) =>
    if state = 0 then buttons.erase button else buttons.insert button
  | _ => buttons

omit [DecidableEq F] [AddCommGroup F] [DecidableEq Handle] in
theorem noteButton_eq (task : CaptureTask Handle Addr F) (frame : ProtoEvent F F) :
    task.noteButton frame =
      { task with buttonsDownOnPeer := buttonsAfter task.buttonsDownOnPeer frame } := by
  unfold noteButton
  split
  · rw [buttonsAfter]
    split <;> rfl
  · rename_i other
    rw [buttonsAfter]
    exact other

omit [DecidableEq F] [AddCommGroup F] in
theorem pass_sent (task : CaptureTask Handle Addr F) {frame : ProtoEvent F F}
    (ready : ¬ (isEnter frame = true ∧ task.awaitingAck = true ∧
      world.unansweredLink = true)) (sent : world.eventSent = true) :
    task.pass world handle frame = .ok
      { task with
        enterWaits := false
        buttonsDownOnPeer := buttonsAfter task.buttonsDownOnPeer frame
        sent := ⟨handle, none, frame⟩ :: task.sent } := by
  unfold CaptureTask.pass
  rw [if_neg ready, noteButton_eq]
  exact if_pos sent

omit [DecidableEq F] [AddCommGroup F] [DecidableEq Handle] in
theorem lockKey_eq (task : CaptureTask Handle Addr F) (event : CaptureEvent F) :
    ∃ held goesOn, task.lockKey event = ({ task with heldLockKeys := held }, goesOn) := by
  unfold lockKey
  split
  · split <;> exact ⟨_, _, rfl⟩
  · split
    · split <;> exact ⟨_, _, rfl⟩
    · exact ⟨_, _, rfl⟩
  · exact ⟨_, _, rfl⟩

/-- The two tasks, as two runs leave them. -/
def Paired (handle : Handle) (link : Nat) (on off : CaptureTask Handle Addr F) : Prop :=
  ∃ motion, on = off.withMotion motion ∧ InStep handle link motion off ∧ Anchored motion off

omit [DecidableEq F] in
theorem InStep.pass (inStep : InStep handle link motion task) (idle : motion.pendingMotion = none)
    {frame : ProtoEvent F F} (still : isMotion frame = false)
    (origin : isEnter frame = true → motion.absV = 0 ∧ task.absV = 0)
    (anchored : isEnter frame = false ∨ task.awaitingAck = true → Anchored motion task)
    (sent : world.eventSent = true) :
    ∃ on off, (task.withMotion motion).pass world handle frame = .ok on ∧
      task.pass world handle frame = .ok off ∧ Paired handle link on off := by
  by_cases waits : isEnter frame = true ∧ task.awaitingAck = true ∧ world.unansweredLink = true
  · have anchored := anchored (.inr waits.2.1)
    exact ⟨_, _, if_pos waits, if_pos waits, motion, rfl,
      inStep.congr rfl rfl rfl rfl rfl rfl rfl rfl rfl, anchored.coalescing, anchored.plain⟩
  · have passed : (task.withMotion motion).pass world handle frame = _ := pass_sent _ waits sent
    refine ⟨_, _, passed, pass_sent task waits sent, _, rfl,
      (inStep.frame idle still).congr rfl rfl rfl rfl rfl rfl rfl rfl rfl, ?_, ?_⟩
    · refine (reckon_still still motion.sent).2.trans ?_
      cases enters : isEnter frame with
      | true => exact (origin enters).1.symm
      | false => exact (anchored (.inl enters)).coalescing
    · refine (reckon_still still task.sent).2.trans ?_
      cases enters : isEnter frame with
      | true => exact (origin enters).2.symm
      | false => exact (anchored (.inl enters)).plain

variable {event : CaptureEvent F} {other : Handle} {left : CaptureTask Handle Addr F}
  {goesOn : Bool}

omit [AddCommGroup F] [DecidableEq F] in
theorem frame_still (task : CaptureTask Handle Addr F) (handle : Handle)
    (framed : task.state = .sending → ∀ dx dy, kind event ≠ .motion dx dy) :
    isMotion (task.frame handle event) = false ∧
      (isEnter (task.frame handle event) = true →
        event = .begin ∨ task.state = .waitingForAck) := by
  cases event with
  | begin => exact ⟨rfl, fun _ => .inl rfl⟩
  | input event =>
    cases phase : task.state with
    | waitingForAck =>
      rw [frame, phase]
      exact ⟨rfl, fun _ => .inr rfl⟩
    | sending =>
      rw [frame, phase]
      refine ⟨?_, fun enters => absurd enters Bool.false_ne_true⟩
      cases event with
      | keyboard event => rfl
      | pointer event =>
        cases event with
        | motion time dx dy => exact absurd rfl (framed phase dx dy)
        | button time button state | axis time axis value | axisDiscrete120 axis value => rfl

omit [DecidableEq F] in
/-- An event that is no motion, or comes before the Ack, goes out alike in both runs. -/
theorem InStep.forward (inStep : InStep handle link motion task)
    (idle : motion.pendingMotion = none)
    (framed : task.state = .sending → ∀ dx dy, kind event ≠ .motion dx dy)
    (origin : event = .begin → motion.absV = 0 ∧ task.absV = 0)
    (anchored : event ≠ .begin ∨ task.awaitingAck = true → Anchored motion task)
    (sent : world.eventSent = true) :
    ∃ on off, (task.withMotion motion).forward world handle event = .ok on ∧
      task.forward world handle event = .ok off ∧ Paired handle link on off := by
  obtain ⟨held, goesOn, noted⟩ := lockKey_eq task event
  have notedOn := lockKey_withMotion task motion event
  have onFrame : (task.withMotion motion).forward world handle event = _ :=
    forward_frame world (task.withMotion motion) handle framed
  rw [onFrame, forward_frame world task handle framed, notedOn, noted]
  have kept : InStep handle link motion { task with heldLockKeys := held } :=
    inStep.congr rfl rfl rfl rfl rfl rfl rfl rfl rfl
  cases goesOn with
  | false =>
    have other : event ≠ .begin := by
      rintro rfl
      cases congrArg Prod.snd noted
    have anchored := anchored (.inl other)
    exact ⟨_, _, rfl, rfl, motion, rfl, kept, anchored.coalescing, anchored.plain⟩
  | true =>
    obtain ⟨still, enters⟩ := frame_still { task with heldLockKeys := held } handle framed
    have same : CaptureTask.frame (CaptureTask.withMotion { task with heldLockKeys := held } motion)
        handle event = CaptureTask.frame { task with heldLockKeys := held } handle event := by
      cases event <;> rfl
    simp only [if_true]
    rw [same]
    refine kept.pass idle still ?_ ?_ sent
    · intro isEnter
      obtain begins | waits := enters isEnter
      · exact origin begins
      · exact (inStep.still waits).2
    · intro ready
      have anchored : Anchored motion task := anchored (ready.imp_left fun other begins => by
        subst begins
        cases other)
      exact ⟨anchored.coalescing, anchored.plain⟩

/-! ## One captured event in both runs -/

omit [DecidableEq Handle] [AddCommGroup F] [DecidableEq F] in
theorem begin_framed (dx dy : F) : kind (.begin : CaptureEvent F) ≠ .motion dx dy := nofun

section Ending

omit [AddCommGroup F] [DecidableEq F]

theorem endSession_active (world : World) (task : CaptureTask Handle Addr F) :
    (task.endSession world).activeClient = none := by
  unfold endSession leaveActiveClient
  split <;> rfl

theorem releaseCapture_active (world : World) (task : CaptureTask Handle Addr F) :
    (orEnd world (task.releaseCapture world)).activeClient = none := by
  have left : (task.leaveActiveClient world).activeClient = none := by
    unfold leaveActiveClient
    split <;> rfl
  unfold releaseCapture releaseBackend
  split
  · exact left
  · exact endSession_active world _

theorem pass_active (world : World) (task : CaptureTask Handle Addr F) (handle : Handle)
    (frame : ProtoEvent F F) :
    (orEnd world (task.pass world handle frame)).activeClient = task.activeClient ∨
      (orEnd world (task.pass world handle frame)).activeClient = none := by
  unfold CaptureTask.pass
  rw [noteButton_eq]
  split
  · exact .inl rfl
  · dsimp only
    split
    · exact .inl rfl
    · exact .inr (releaseCapture_active world _)

end Ending

omit [DecidableEq F] in
theorem forward_begin (world : World) (task : CaptureTask Handle Addr F) (handle : Handle) :
    task.forward world handle .begin =
      task.pass world handle (.enter (task.getPos handle).opposite) := by
  unfold forward
  cases task.state <;> rfl

theorem InStep.goOn (inStep : InStep handle link motion task) (anchored : Anchored motion task)
    (idle : motion.pendingMotion = none)
    (framed : other = handle → task.state = .sending → ∀ dx dy, kind event ≠ .motion dx dy)
    (sent : world.eventSent = true)
    (stays : (CaptureTask.orEnd world (task.goOn world other event)).activeClient = some handle) :
    Paired handle link (CaptureTask.orEnd world ((task.withMotion motion).goOn world other event))
      (CaptureTask.orEnd world (task.goOn world other event)) := by
  by_cases noticed : task.getType other = .enterOnly
  · have noticedOn : (task.withMotion motion).getType other = .enterOnly := noticed
    rw [CaptureTask.goOn_noticed noticed] at stays ⊢
    rw [CaptureTask.goOn_noticed noticedOn]
    change Paired handle link (CaptureTask.orEnd world
      (if task.isDefaultCaptureAt (task.getPos other) then _ else _)) _
    split
    · exact ⟨motion, rfl, inStep, anchored⟩
    · rename_i alone
      rw [if_neg alone] at stays
      unfold CaptureTask.releaseBackend at stays ⊢
      split
      · exact ⟨motion, rfl, inStep.congr rfl rfl rfl rfl rfl rfl rfl rfl rfl, anchored.coalescing,
          anchored.plain⟩
      · rename_i fails
        rw [if_neg fails] at stays
        cases (endSession_active world _).symm.trans stays
  · have crossesOn : (task.withMotion motion).getType other ≠ .enterOnly := noticed
    by_cases begins : event = .begin
    · subst begins
      by_cases own : task.activeClient = some other
      · have ownOn : (task.withMotion motion).activeClient = some other := own
        obtain rfl : handle = other := Option.some.inj (inStep.active.symm.trans own)
        rw [CaptureTask.goOn_again noticed own, CaptureTask.goOn_again crossesOn ownOn]
        obtain ⟨on, off, passedOn, passed, paired⟩ :=
          inStep.reset.forward idle (fun _ => begin_framed) (fun _ => ⟨rfl, rfl⟩)
            (fun ready => by
              have awaits : task.awaitingAck = true := ready.resolve_left fun other => other rfl
              have waits : task.state = .waitingForAck := by
                cases phase : task.state with
                | waitingForAck => rfl
                | sending => cases awaits.symm.trans (inStep.acked phase).2
              exact ⟨anchored.coalescing.trans (inStep.still waits).2.1,
                anchored.plain.trans (inStep.still waits).2.2⟩) sent
        have passedOn' := passedOn
        change CaptureTask.forward world { task.withMotion motion with absV := 0, absSeq := 0 } handle
          .begin = _ at passedOn'
        rw [passed, passedOn']
        exact paired
      · rw [CaptureTask.goOn_crossing noticed own] at stays
        split at stays
        · cases (releaseCapture_active world _).symm.trans stays
        · rw [forward_begin] at stays
          obtain active | gone := pass_active world _ other _
          · rw [active] at stays
            exact absurd (inStep.active.trans stays.symm) own
          · cases gone.symm.trans stays
    · rw [CaptureTask.goOn_input noticed begins] at stays ⊢
      rw [CaptureTask.goOn_input crossesOn begins]
      change Paired handle link (CaptureTask.orEnd world
        (if task.activeClient = some other then _ else _)) _
      split
      · rename_i own
        obtain rfl : handle = other := Option.some.inj (inStep.active.symm.trans own)
        obtain ⟨on, off, passedOn, passed, paired⟩ :=
          inStep.forward idle (framed rfl) (fun now => absurd now begins) (fun _ => anchored) sent
        rw [passed, passedOn]
        exact paired
      · exact ⟨motion, rfl, inStep, anchored⟩

/-- Motion that cannot wait lets go of what waits first. -/
theorem coalesce_flush (coalesces : task.coalesceMotion = true)
    (framed : task.state = .sending ∧ task.activeClient = some other →
      ∀ dx dy, kind event ≠ .motion dx dy) :
    task.coalesce world other event = (task.flushPendingMotion world).map (·, true) := by
  unfold coalesce
  rw [if_pos coalesces]
  split
  · rename_i moves
    rw [if_neg fun stands => framed stands _ _ moves]
  · rfl

theorem coalesce_waits {dx dy : F} (coalesces : task.coalesceMotion = true)
    (stands : task.state = .sending ∧ task.activeClient = some other)
    (moves : kind event = .motion dx dy) : task.coalesce world other event =
      .ok ({ task with pendingMotion := some (task.pendingMotion.getD 0 + (dx, dy)) }, false) := by
  unfold coalesce
  rw [if_pos coalesces, moves]
  exact if_pos stands

theorem InStep.captured (inStep : InStep handle link motion task) (anchored : Anchored motion task)
    (linked : world.linkSerial = some link) (serial : world.flushSerial = some link)
    (moved : world.motionSent = true) (sent : world.eventSent = true)
    (stays : (orEnd world (task.handleCaptureEvent world other event)).activeClient =
      some handle) : Paired handle link
      (orEnd world ((task.withMotion motion).handleCaptureEvent world other event))
      (orEnd world (task.handleCaptureEvent world other event)) := by
  cases bound : task.keysPressed with
  | true =>
    rw [handleCaptureEvent_bind world other event bound] at stays
    cases (releaseCapture_active world task).symm.trans stays
  | false =>
    have acked : task.state = .sending → task.ackedLink = some link :=
      fun stands => (inStep.acked stands).1
    have off : task.handleCaptureEvent world other event = task.goOn world other event := by
      rw [handleCaptureEvent_eq world event bound (not_relinked task linked acked other),
        coalesce, if_neg (Bool.eq_false_iff.mp inStep.sends)]
    have on : (task.withMotion motion).handleCaptureEvent world other event = _ :=
      handleCaptureEvent_eq world event bound
        (not_relinked (task.withMotion motion) linked acked other)
    rw [off] at stays ⊢
    rw [on]
    by_cases waits : (task.state = .sending ∧ task.activeClient = some other) ∧
        ∃ dx dy, kind event = .motion dx dy
    · obtain ⟨stands, dx, dy, moves⟩ := waits
      obtain rfl : handle = other := Option.some.inj (inStep.active.symm.trans stands.2)
      have input : event ≠ .begin := by
        rintro rfl
        cases moves
      have gathers : (task.withMotion motion).coalesce world handle event = _ :=
        coalesce_waits inStep.coalesces stands moves
      obtain ⟨frame, absV, absSeq, goes, isMotion, adds⟩ :=
        sendMotion_sent task handle (dx, dy) moved
      obtain ⟨anchors, adds⟩ := adds anchored.plain
      have forwarded : task.forward world handle event = task.sendMotion world handle (dx, dy) := by
        rw [CaptureTask.forward, stands.1, moves]
      rw [gathers, goOn_input inStep.crosses input, if_pos stands.2, forwarded, goes]
      exact ⟨_, rfl, inStep.gathered stands.1 isMotion adds, anchored.coalescing, anchors⟩
    · have framed : task.state = .sending ∧ task.activeClient = some other →
          ∀ dx dy, kind event ≠ .motion dx dy :=
        fun stands dx dy moves => waits ⟨stands, dx, dy, moves⟩
      have flushes : (task.withMotion motion).coalesce world other event = _ :=
        coalesce_flush inStep.coalesces framed
      obtain ⟨motion', flushed, inStep', anchored', idle⟩ := inStep.flush anchored serial moved
      rw [flushes, flushed]
      refine inStep'.goOn anchored' idle (fun own stands => framed ⟨stands, ?_⟩) sent stays
      rw [own]
      exact inStep.active

/-! ## The visit -/

/-- An act of a visit on one link with every send succeeding. -/
def Act.Smooth (link : Nat) : Act Handle Addr F → Prop
  | .captured world _ _ _ =>
    world.linkSerial = some link ∧ world.flushSerial = some link ∧ world.motionSent = true ∧
      world.eventSent = true
  | .motionFlush world => world.flushSerial = some link ∧ world.motionSent = true
  | .ack _ on _ => on = link
  | .pong world _ _ => world.eventSent = true
  | _ => False

omit [DecidableEq Handle] [AddCommGroup F] [DecidableEq F] in
theorem updatePressedKeys_eq (task : CaptureTask Handle Addr F) (event : CaptureEvent F) :
    ∃ pressed, task.updatePressedKeys event = { task with pressedKeys := pressed } := by
  unfold updatePressedKeys
  split
  · split
    · split <;> exact ⟨_, rfl⟩
    · exact ⟨_, rfl⟩
  · exact ⟨_, rfl⟩

theorem InStep.fresh_captured (inStep : InStep handle link motion task)
    (anchored : Anchored motion task) (linked : world.linkSerial = some link)
    (serial : world.flushSerial = some link) (moved : world.motionSent = true)
    (sent : world.eventSent = true) {fresh : Bool}
    (stays : (task.step (.captured world fresh other event)).activeClient = some handle) :
    Paired handle link ((task.withMotion motion).step (.captured world fresh other event))
      (task.step (.captured world fresh other event)) := by
  simp only [step] at stays ⊢
  cases fresh with
  | false => exact inStep.captured anchored linked serial moved sent stays
  | true =>
    simp only [if_true] at stays ⊢
    rw [updatePressedKeys_withMotion]
    obtain ⟨pressed, updated⟩ := updatePressedKeys_eq task event
    rw [updated] at stays ⊢
    have kept : InStep handle link motion { task with pressedKeys := pressed } :=
      inStep.congr rfl rfl rfl rfl rfl rfl rfl rfl rfl
    exact kept.captured ⟨anchored.coalescing, anchored.plain⟩ linked serial moved sent stays

omit [DecidableEq F] in
theorem InStep.hears (inStep : InStep handle link motion task) {other : Handle}
    (heard : task.hears other = true) : other = handle := by
  rw [CaptureTask.hears, inStep.active] at heard
  exact of_decide_eq_true heard

theorem InStep.acknowledged (inStep : InStep handle link motion task)
    (anchored : Anchored motion task) (addr : Option Addr) :
    Paired handle link ((task.withMotion motion).step (.ack other link addr))
      (task.step (.ack other link addr)) := by
  change Paired handle link (if task.hears other then _ else _) (if task.hears other then _ else _)
  split
  · rename_i heard
    obtain rfl := inStep.hears heard
    have landed : task.acknowledged other link addr =
        { task with
          state := .sending
          awaitingAck := false
          ackedAt := addr.map (other, ·)
          ackedLink := some link } := if_pos inStep.active
    have landedOn : (task.withMotion motion).acknowledged other link addr =
        { task.withMotion motion with
          state := .sending
          awaitingAck := false
          ackedAt := addr.map (other, ·)
          ackedLink := some link } := if_pos inStep.active
    rw [landed, landedOn]
    exact ⟨motion, rfl,
      { inStep with
        acked := fun _ => ⟨rfl, rfl⟩
        still := nofun }, anchored.coalescing, anchored.plain⟩
  · exact ⟨motion, rfl, inStep, anchored⟩

theorem InStep.pong (inStep : InStep handle link motion task) (anchored : Anchored motion task)
    (sent : world.eventSent = true) {on : Nat} :
    Paired handle link ((task.withMotion motion).step (.pong world other on))
      (task.step (.pong world other on)) := by
  change Paired handle link (if task.hears other then _ else _) (if task.hears other then _ else _)
  split
  · by_cases quiet : task.enterWaits = false ∨ task.activeClient ≠ some other ∨
        task.state ≠ .waitingForAck ∨ world.linkSerial ≠ some on
    · have off : task.sendWaitingEnter world other on = .ok task := if_pos quiet
      have on : (task.withMotion motion).sendWaitingEnter world other on =
        .ok (task.withMotion motion) := if_pos quiet
      rw [off, on]
      exact ⟨motion, rfl, inStep, anchored⟩
    · have waits : task.state = .waitingForAck := by
        by_contra other
        exact quiet (.inr (.inr (.inl other)))
      obtain ⟨idle, onOrigin, offOrigin⟩ := inStep.still waits
      have off : task.sendWaitingEnter world other on = .ok
          (send { task with enterWaits := false } other none
            (.enter (task.getPos other).opposite)) := (if_neg quiet).trans (if_pos sent)
      have on : (task.withMotion motion).sendWaitingEnter world other on = .ok
          (send { task.withMotion motion with enterWaits := false } other none
            (.enter (task.getPos other).opposite)) := (if_neg quiet).trans (if_pos sent)
      rw [off, on]
      exact ⟨_, rfl, (inStep.frame idle rfl).congr rfl rfl rfl rfl rfl rfl rfl rfl rfl,
        onOrigin.symm, offOrigin.symm⟩
  · exact ⟨motion, rfl, inStep, anchored⟩

theorem Paired.step {on off : CaptureTask Handle Addr F} (paired : Paired handle link on off)
    {act : Act Handle Addr F} (smooth : act.Smooth link)
    (stays : (off.step act).activeClient = some handle) :
    Paired handle link (on.step act) (off.step act) := by
  obtain ⟨motion, rfl, inStep, anchored⟩ := paired
  cases act with
  | captured world fresh other event =>
    obtain ⟨linked, serial, moved, sent⟩ := smooth
    exact inStep.fresh_captured anchored linked serial moved sent stays
  | motionFlush world =>
    have idle : off.step (.motionFlush world) = off := if_neg fun now =>
      Bool.false_ne_true (inStep.sends.symm.trans now.1)
    rw [idle]
    change Paired handle link (if motion.coalesceMotion = true ∧ motion.pendingMotion.isSome = true
      then _ else _) off
    split
    · obtain ⟨motion', flushed, inStep', anchored', -⟩ :=
        inStep.flush anchored smooth.1 smooth.2
      rw [flushed]
      exact ⟨motion', rfl, inStep', anchored'⟩
    · exact ⟨motion, rfl, inStep, anchored⟩
  | ack other on addr =>
    obtain rfl : on = link := smooth
    exact inStep.acknowledged anchored addr
  | pong world other on => exact inStep.pong anchored smooth
  | ackDeadline world | leave world other | release world | create other pos type
  | destroy world other | setReleaseBind bind | sessionEnds world => exact smooth.elim

/-- A run of one visit: what is sent is listed from its Begin on. -/
def visit (coalesceMotion : Bool) (task : CaptureTask Handle Addr F)
    (acts : List (Act Handle Addr F)) : CaptureTask Handle Addr F :=
  acts.foldl step { task with coalesceMotion := coalesceMotion, sent := [] }

/-- The task as a crossing to a client begins. -/
def crossed (task : CaptureTask Handle Addr F) (handle : Handle) : CaptureTask Handle Addr F :=
  { task with
    absV := 0
    absSeq := 0
    state := .waitingForAck
    activeClient := some handle
    awaitingAck := true
    entered := handle :: task.entered }

section

variable (rests : task.activeClient = none)
include rests

section

variable (bare : task.pendingMotion = none)
include bare

theorem begin_goOn (free : task.keysPressed = false) :
    task.handleCaptureEvent world handle .begin = task.goOn world handle .begin := by
  have apart : task.crossAgainIfRelinked world.linkSerial handle = (task, false) :=
    if_pos (.inr (by rw [rests]; nofun))
  have gathered : task.coalesce world handle .begin = .ok (task, true) := by
    cases coalesces : task.coalesceMotion with
    | false => rw [coalesce, coalesces, if_neg Bool.false_ne_true]
    | true =>
      rw [coalesce_flush coalesces fun _ => begin_framed, flush_idle bare]
      rfl
  rw [handleCaptureEvent_eq world .begin free apart, gathered]

theorem begin_crosses (free : task.keysPressed = false) (crosses : task.getType handle ≠ .enterOnly)
    (allowed : ¬ world.cannotCross = true) : task.handleCaptureEvent world handle .begin =
      (crossed task handle).forward world handle .begin := by
  rw [begin_goOn rests bare free, goOn_crossing crosses (by rw [rests]; nofun), if_neg allowed]
  rfl

theorem begin_enters
    (enters : (orEnd world (task.handleCaptureEvent world handle .begin)).activeClient =
      some handle) :
    task.keysPressed = false ∧ task.getType handle ≠ .enterOnly ∧ ¬ world.cannotCross = true := by
  cases bound : task.keysPressed with
  | true =>
    rw [handleCaptureEvent_bind world handle .begin bound] at enters
    cases (releaseCapture_active world task).symm.trans enters
  | false =>
    rw [begin_goOn rests bare bound] at enters
    have crosses : task.getType handle ≠ .enterOnly := by
      intro noticed
      rw [goOn_noticed noticed] at enters
      split at enters
      · cases rests.symm.trans enters
      · unfold releaseBackend at enters
        split at enters
        · cases rests.symm.trans enters
        · cases (endSession_active world _).symm.trans enters
    refine ⟨rfl, crosses, fun refused => ?_⟩
    rw [goOn_crossing crosses (by rw [rests]; nofun), if_pos refused] at enters
    cases (releaseCapture_active world _).symm.trans enters

end

end

theorem visit_snoc (coalesceMotion : Bool) (task : CaptureTask Handle Addr F)
    (acts : List (Act Handle Addr F)) (act : Act Handle Addr F) :
    visit coalesceMotion task (acts ++ [act]) = (visit coalesceMotion task acts).step act := by
  rw [visit, foldl_append]
  rfl

theorem crossing_paired (rests : task.activeClient = none) (bare : task.pendingMotion = none)
    {fresh : Bool} (sent : world.eventSent = true)
    (enters : (visit false task [.captured world fresh handle .begin]).activeClient =
      some handle) : Paired handle link (visit true task [.captured world fresh handle .begin])
      (visit false task [.captured world fresh handle .begin]) := by
  have begins : ∀ coalesces, visit coalesces task [.captured world fresh handle .begin] =
      orEnd world (handleCaptureEvent world
        { task with coalesceMotion := coalesces, sent := [] } handle .begin) := by
    intro coalesces
    cases fresh <;> rfl
  rw [begins] at enters
  obtain ⟨free, crosses, allowed⟩ := begin_enters
    (show activeClient { task with coalesceMotion := false, sent := [] } = none from rests)
    bare enters
  have crossing : ∀ coalesces, handleCaptureEvent world
      { task with coalesceMotion := coalesces, sent := [] } handle .begin =
        (crossed { task with coalesceMotion := coalesces, sent := [] } handle).forward world handle
          .begin := fun _ => begin_crosses rests bare free crosses allowed
  have started : InStep handle link (⟨true, task.pendingMotion, 0, 0, []⟩ : Motion Handle Addr F)
      (crossed { task with coalesceMotion := false, sent := [] } handle) :=
    { coalesces := rfl
      sends := rfl
      bare := bare
      active := rfl
      crosses := crosses
      acked := nofun
      still := fun _ => ⟨bare, rfl, rfl⟩
      outlines := rfl
      totals := by
        rw [bare, Option.getD_none, add_zero]
        rfl }
  obtain ⟨on, off, passedOn, passed, paired⟩ := started.forward bare (fun _ => begin_framed)
    (fun _ => ⟨rfl, rfl⟩) (fun _ => ⟨rfl, rfl⟩) sent
  rw [begins, begins, crossing, crossing, passed]
  have same : (crossed { task with coalesceMotion := true, sent := [] } handle).forward world handle
      .begin = .ok on := passedOn
  rw [same]
  exact paired

/-! ## What ends the visit -/

omit [DecidableEq Handle] [AddCommGroup F] [DecidableEq F] in
theorem leavingFrames_still {buttons keys : List UInt32} {event : ProtoEvent F F}
    (leaving : event ∈ leavingFrames buttons keys) : isMotion event = false := by
  unfold leavingFrames at leaving
  rw [mem_append, mem_append, mem_map, mem_map] at leaving
  obtain (⟨button, -, rfl⟩ | ⟨key, -, rfl⟩) | last := leaving
  · rfl
  · rfl
  · simp only [mem_cons, not_mem_nil, or_false] at last
    obtain rfl | rfl := last <;> rfl

omit [AddCommGroup F] [DecidableEq F] in
theorem leaving_withMotion (world : World) (task : CaptureTask Handle Addr F)
    (motion : Motion Handle Addr F) :
    ∃ frames, (∀ frame ∈ frames, isMotion frame.event = false) ∧
      ((task.withMotion motion).leaveActiveClient world).sent = frames ++ motion.sent ∧
      (task.leaveActiveClient world).sent = frames ++ task.sent := by
  cases active : task.activeClient with
  | none =>
    have activeOn : (task.withMotion motion).activeClient = none := active
    refine ⟨[], nofun, ?_, ?_⟩
    · rw [leaveActiveClient, activeOn]
      rfl
    · rw [leaveActiveClient, active]
      rfl
  | some handle =>
    have activeOn : (task.withMotion motion).activeClient = some handle := active
    refine ⟨((leavingFrames (world.buttonWalk.keys task.buttonsDownOnPeer)
      (world.keyWalk.keys task.pressedKeys)).map fun event =>
        ⟨handle, (task.ackedAt.filter fun acked => acked.1 = handle).map Prod.snd,
          event⟩).reverse, ?_, ?_, ?_⟩
    · intro frame among
      obtain ⟨event, leaving, rfl⟩ := mem_map.mp (mem_reverse.mp among)
      exact leavingFrames_still leaving
    · rw [leaveActiveClient, activeOn]
      rfl
    · rw [leaveActiveClient, active]

/-- Between visits no motion waits. -/
def Bare (task : CaptureTask Handle Addr F) : Prop :=
  task.activeClient = none → task.pendingMotion = none

section Bare

variable {task : CaptureTask Handle Addr F}

omit [AddCommGroup F] [DecidableEq F] in
theorem bare_leave (world : World) (task : CaptureTask Handle Addr F) :
    Bare (task.leaveActiveClient world) := by
  unfold leaveActiveClient
  split <;> exact fun _ => rfl

omit [AddCommGroup F] [DecidableEq F] in
theorem bare_release (world : World) (task : CaptureTask Handle Addr F) :
    Bare (after (task.releaseCapture world)) := by
  unfold releaseCapture releaseBackend
  split <;> exact bare_leave world task

omit [AddCommGroup F] [DecidableEq F] in
theorem bare_orEnd {world : World}
    {called : Except (CaptureTask Handle Addr F) (CaptureTask Handle Addr F)}
    (bare : Bare (after called)) : Bare (orEnd world called) := by
  cases called with
  | ok left => exact bare
  | error failed => exact bare_leave world failed

omit [AddCommGroup F] [DecidableEq F] in
theorem bare_sending {world : World} {sent : Bool} (bare : Bare task) :
    Bare (after (if sent then .ok task else task.releaseCapture world)) := by
  split
  · exact bare
  · exact bare_release world task

omit [AddCommGroup F] [DecidableEq F] in
theorem bare_pass (bare : Bare task) (frame : ProtoEvent F F) :
    Bare (after (task.pass world handle frame)) := by
  unfold CaptureTask.pass
  split
  · exact bare
  · rw [noteButton_eq]
    exact bare_sending bare

omit [DecidableEq F] in
theorem bare_again (bare : Bare task) (serial : Option Nat) (handle : Handle) :
    Bare (task.crossAgainIfRelinked serial handle).1 := by
  unfold crossAgainIfRelinked
  grind [Bare]

omit [DecidableEq F] in
theorem bare_sendMotion (bare : Bare task) (delta : F × F) :
    Bare (after (task.sendMotion world handle delta)) := by
  refine bare_sending ?_
  split <;> exact bare

theorem bare_flush (world : World) (bare : Bare task) :
    Bare (after (task.flushPendingMotion world)) := by
  unfold flushPendingMotion
  split
  · exact bare
  · dsimp only
    split
    · exact fun _ => rfl
    · split
      · exact fun _ => rfl
      · rename_i handle _
        have cleared : Bare { task with pendingMotion := none } := fun _ => rfl
        have again := bare_again cleared world.flushSerial handle
        split
        · exact again
        · exact bare_sendMotion again _

/-- Motion is summed up for the active client only. -/
theorem bare_coalesce (world : World) (bare : Bare task) (handle : Handle)
    (event : CaptureEvent F) :
    Bare (afterTurn (task.coalesce world handle event)) := by
  have flushed := bare_flush world bare
  unfold coalesce
  split
  · split
    · split
      · rename_i active
        exact fun rests => absurd (active.2.symm.trans rests) (by nofun)
      · rw [afterTurn_map]
        exact flushed
    · rw [afterTurn_map]
      exact flushed
  · exact bare

theorem bare_cross (bare : Bare task) (event : CaptureEvent F) :
    Bare (afterTurn (task.cross world handle event)) := by
  unfold cross
  split
  · split
    · exact bare
    · rw [afterTurn_map, releaseBackend]
      split <;> exact bare
  · split
    · dsimp only
      split
      · split
        · rw [afterTurn_map]
          exact bare_release world _
        · exact nofun
      · exact bare
    · exact bare

omit [DecidableEq F] in
theorem bare_forward (bare : Bare task) (event : CaptureEvent F) :
    Bare (after (task.forward world handle event)) := by
  have locked : Bare (task.lockKey event).1 := by
    unfold lockKey
    grind [Bare]
  unfold forward
  split
  · exact bare_sendMotion bare _
  · dsimp only
    split
    · exact bare_pass locked _
    · exact locked

theorem bare_captured (bare : Bare task) (event : CaptureEvent F) :
    Bare (after (task.handleCaptureEvent world handle event)) := by
  have turned : Bare (afterTurn (task.turn world handle event)) := by
    unfold turn
    split
    · rw [afterTurn_map]
      exact bare_release world task
    · have gathered := bare_coalesce world (bare_again bare world.linkSerial handle) handle event
      split <;> rename_i found <;> rw [found] at gathered
      · exact gathered
      · exact gathered
      · exact bare_cross gathered event
  unfold handleCaptureEvent
  split <;> rename_i found <;> rw [found] at turned
  · exact turned
  · exact turned
  · exact bare_forward turned event

theorem Bare.step (bare : Bare task) (act : Act Handle Addr F) : Bare (task.step act) := by
  cases act with
  | captured world fresh handle event =>
    refine bare_orEnd (bare_captured ?_ event)
    split
    · unfold updatePressedKeys
      grind [Bare]
    · exact bare
  | motionFlush world =>
    change Bare (if _ then _ else _)
    split
    · exact bare_orEnd (bare_flush world bare)
    · exact bare
  | ackDeadline world =>
    change Bare (if _ then _ else _)
    split
    · refine bare_orEnd ?_
      unfold giveUpOnCrossing
      dsimp only
      split
      · exact bare
      · exact bare_release world _
    · exact bare
  | ack handle link addr =>
    change Bare (if _ then _ else _)
    unfold acknowledged
    grind [Bare]
  | pong world handle link =>
    change Bare (if _ then _ else _)
    split
    · refine bare_orEnd ?_
      unfold sendWaitingEnter
      split
      · exact bare
      · exact bare_sending bare
    · exact bare
  | leave world handle =>
    change Bare (if _ then _ else _)
    split
    · exact bare_orEnd (bare_release world task)
    · exact bare
  | release world => exact bare_orEnd (bare_release world task)
  | create handle pos type => exact bare
  | destroy world handle =>
    refine bare_orEnd ?_
    unfold destroyed
    split
    · have left := bare_release world task
      cases released : task.releaseCapture world <;> rw [released] at left <;> exact left
    · exact bare
  | setReleaseBind bind => exact bare
  | sessionEnds world => exact bare_leave world task

theorem bare_run (releaseBind : List UInt32) (coalesceMotion : Bool)
    (acts : List (Act Handle Addr F)) : Bare (run releaseBind coalesceMotion acts) := by
  induction acts using reverseRecOn with
  | nil => exact fun _ => rfl
  | append_singleton acts act ih =>
    rw [run, foldl_append]
    exact ih.step act

end Bare

/-- Over one visit on one link, after any run, the frames other than motion are the same with
coalescing and without, each after the same displacement; at the end all that is missing is the
motion that still waits, and the frames that end the visit are the same. -/
theorem coalescing_only_gathers {releaseBind : List UInt32} {coalesces : Bool}
    {past : List (Act Handle Addr F)} {task : CaptureTask Handle Addr F}
    (reached : task = run releaseBind coalesces past) (rests : task.activeClient = none)
    {fresh : Bool} {acts : List (Act Handle Addr F)}
    (smooth : ∀ act ∈ .captured world fresh handle .begin :: acts, act.Smooth link)
    (stays : ∀ before, before <+: acts →
      (visit false task (.captured world fresh handle .begin :: before)).activeClient =
        some handle) :
    let on := visit true task (.captured world fresh handle .begin :: acts)
    let off := visit false task (.captured world fresh handle .begin :: acts)
    outline on.sent = outline off.sent ∧
      displacement on.sent + on.pendingMotion.getD 0 = displacement off.sent ∧
      ∀ last : World, ∃ frames, (∀ frame ∈ frames, isMotion frame.event = false) ∧
        (on.leaveActiveClient last).sent = frames ++ on.sent ∧
        (off.leaveActiveClient last).sent = frames ++ off.sent := by
  have bare : task.pendingMotion = none := by
    rw [reached] at rests ⊢
    exact bare_run releaseBind coalesces past rests
  have paired : Paired handle link (visit true task (.captured world fresh handle .begin :: acts))
      (visit false task (.captured world fresh handle .begin :: acts)) := by
    induction acts using reverseRecOn with
    | nil =>
      have sent := (smooth _ mem_cons_self).2.2.2
      exact crossing_paired rests bare sent (stays [] nil_prefix)
    | append_singleton acts act ih =>
      have earlier := ih
        (fun other among => smooth other (mem_append_left [act] among))
        (fun before within => stays before (within.trans (prefix_append acts [act])))
      have now := stays (acts ++ [act]) prefix_rfl
      rw [← cons_append, visit_snoc] at now ⊢
      rw [visit_snoc]
      exact earlier.step (smooth act (by simp)) now
  obtain ⟨motion, same, inStep, -⟩ := paired
  intro on off
  have onMotion : on = off.withMotion motion := same
  rw [onMotion]
  exact ⟨inStep.outlines, inStep.totals, fun last => leaving_withMotion last off motion⟩

end Stepping

/-- A peer that takes deltas at first and then the displacement: motion, a key, motion, a tick
of the timer, motion that still waits. -/
def mixedVisit : List (Act Nat Nat Int) :=
  [.ack 1 7 none,
    .captured (.fair 7 false) true 1 (.input (.pointer (.motion 0 3 0))),
    .captured (.fair 7 false) true 1 (.input (.keyboard (.key 0 30 1))),
    .captured (.fair 7 true) true 1 (.input (.pointer (.motion 0 2 1))),
    .motionFlush (.fair 7 true),
    .captured (.fair 7 true) true 1 (.input (.pointer (.motion 0 1 1)))]

/-- The same visit before, which ends as motion still waits. -/
def visitedBefore : CaptureTask Nat Nat Int :=
  run [1] true (.captured (.fair 7 false) true 1 .begin :: mixedVisit ++ [.release (.fair 7 true)])

theorem coalescing_only_gathers_mixed :
    let on := visit true visitedBefore (.captured (.fair 7 false) true 1 .begin :: mixedVisit)
    let off := visit false visitedBefore (.captured (.fair 7 false) true 1 .begin :: mixedVisit)
    outline on.sent = outline off.sent ∧
      displacement on.sent + on.pendingMotion.getD 0 = displacement off.sent ∧
      ∀ last : World, ∃ frames, (∀ frame ∈ frames, isMotion frame.event = false) ∧
        (on.leaveActiveClient last).sent = frames ++ on.sent ∧
        (off.leaveActiveClient last).sent = frames ++ off.sent := by
  have entered : ∀ count : Fin 7, (visit false visitedBefore
      (.captured (.fair 7 false) true 1 .begin :: mixedVisit.take count)).activeClient = some 1 := by
    decide +kernel
  refine @coalescing_only_gathers Nat Nat Int _ _ 1 7 (.fair 7 false) _ [1] true _ visitedBefore
    rfl (by decide +kernel) true mixedVisit ?_ ?_
  · simp [mixedVisit, Act.Smooth, World.fair]
  · intro before within
    rw [prefix_iff_eq_take.mp within]
    exact entered ⟨before.length, Nat.lt_succ_of_le within.length_le⟩

end HopsFormal.Capture
