import HopsFormal.Lib.Walk
import HopsFormal.Wire.Codec
import Mathlib.Algebra.Group.Prod

/-!
# The capture task

One task takes the captured events and sends them to the machine the pointer has crossed to.
A crossing begins with an Enter, stands once the peer has acknowledged it, and ends with a
Leave, however the visit ends.  What the link layer and the capture backend answer comes with
each act, and so does the order in which a hash set is walked; a call that fails inside the
backend ends the session.
-/

namespace HopsFormal.Capture

open Lib Wire

/-- A capture takes crossings, or only notices them. -/
inductive CaptureType where
  | default
  | enterOnly
  deriving DecidableEq

/-- Whether the peer has acknowledged the crossing. -/
inductive Phase where
  | waitingForAck
  | sending
  deriving DecidableEq

/-- A frame handed to the link of a client, or to the address it acknowledged the crossing
from. -/
structure Sent (Handle Addr F : Type) where
  handle : Handle
  via : Option Addr
  event : ProtoEvent F F

structure CaptureTask (Handle Addr F : Type) where
  activeClient : Option Handle
  ackedAt : Option (Handle × Addr)
  ackedLink : Option Nat
  awaitingAck : Bool
  enterWaits : Bool
  captures : List (Handle × Position × CaptureType)
  releaseBind : List UInt32
  state : Phase
  heldLockKeys : List UInt32
  buttonsDownOnPeer : List UInt32
  coalesceMotion : Bool
  pendingMotion : Option (F × F)
  absV : F × F
  absSeq : UInt32
  /-- What the capture holds as pressed. -/
  pressedKeys : List UInt32
  /-- The clients the service was told were entered, the newest first. -/
  entered : List Handle
  /-- The frames sent, the newest first. -/
  sent : List (Sent Handle Addr F)

/-- The answers one act meets: the serial of the client's link as it is asked for first and
before a flush, what the peer takes, whether a crossing is refused or the link is not answered
on yet, whether the motion and what follows it can be sent, whether the backend lets go. -/
structure World where
  linkSerial : Option Nat
  flushSerial : Option Nat
  absoluteMotion : Bool
  cannotCross : Bool
  unansweredLink : Bool
  motionSent : Bool
  eventSent : Bool
  releases : Bool
  buttonWalk : Walk UInt32
  keyWalk : Walk UInt32

/-- Everything goes well on one link. -/
def World.fair (link : Nat) (absoluteMotion : Bool) : World where
  linkSerial := some link
  flushSerial := some link
  absoluteMotion := absoluteMotion
  cannotCross := false
  unansweredLink := false
  motionSent := true
  eventSent := true
  releases := true
  buttonWalk := .asFiled
  keyWalk := .asFiled

/-- Caps, Num and Scroll Lock, which toggle on each key-down. -/
def isLockKey (key : UInt32) : Bool := key = 58 || key = 69 || key = 70

/-- The largest key code that is one of the scan codes. -/
def lastScancode : UInt32 := 249

def Position.opposite : Position → Position
  | .left => .right
  | .right => .left
  | .top => .bottom
  | .bottom => .top

namespace CaptureTask

variable {Handle Addr F : Type}

def start [Zero F] (releaseBind : List UInt32) (coalesceMotion : Bool) :
    CaptureTask Handle Addr F where
  activeClient := none
  ackedAt := none
  ackedLink := none
  awaitingAck := false
  enterWaits := false
  captures := []
  releaseBind := releaseBind
  state := .waitingForAck
  heldLockKeys := []
  buttonsDownOnPeer := []
  coalesceMotion := coalesceMotion
  pendingMotion := none
  absV := 0
  absSeq := 0
  pressedKeys := []
  entered := []
  sent := []

/-! ## The captures -/

variable (task : CaptureTask Handle Addr F)

def addCapture (handle : Handle) (pos : Position) (type : CaptureType) :
    CaptureTask Handle Addr F :=
  { task with captures := task.captures ++ [(handle, pos, type)] }

def isDefaultCaptureAt (pos : Position) : Bool :=
  task.captures.any fun capture => capture.2.1 = pos && capture.2.2 = .default

section Handles

variable [DecidableEq Handle] (task : CaptureTask Handle Addr F)

def removeCapture (handle : Handle) : CaptureTask Handle Addr F :=
  { task with captures := task.captures.filter fun capture => handle ≠ capture.1 }

/-- The edge of a capture, or the left one if it is unknown. -/
def getPos (handle : Handle) : Position :=
  match task.captures.find? fun capture => capture.1 = handle with
  | some (_, pos, _) => pos
  | none => .left

def getType (handle : Handle) : CaptureType :=
  match task.captures.find? fun capture => capture.1 = handle with
  | some (_, _, type) => type
  | none => .default

end Handles

/-! ## The keys the capture holds as pressed -/

/-- A key the backend reports; only scan codes are tracked. -/
def updatePressedKeys : CaptureEvent F → CaptureTask Handle Addr F
  | .input (.keyboard (.key _ key state)) =>
    if key ≤ lastScancode then
      if state = 1 then { task with pressedKeys := task.pressedKeys.insert key }
      else { task with pressedKeys := task.pressedKeys.erase key }
    else task
  | _ => task

/-- All the keys of the release bind are held. -/
def keysPressed : Bool :=
  task.releaseBind.all fun key => task.pressedKeys.contains key

/-- The backend is told to let the pointer go. -/
def releaseBackend (world : World) (task : CaptureTask Handle Addr F) :
    Except (CaptureTask Handle Addr F) (CaptureTask Handle Addr F) :=
  let task := { task with pressedKeys := [] }
  if world.releases then .ok task else .error task

/-! ## The frames -/

def send (handle : Handle) (via : Option Addr) (event : ProtoEvent F F) :
    CaptureTask Handle Addr F :=
  { task with sent := ⟨handle, via, event⟩ :: task.sent }

/-- The frames that end a visit: what the peer holds is let go of, and then the Leave. -/
def leavingFrames (buttons keys : List UInt32) : List (ProtoEvent F F) :=
  (buttons.map fun button => .input (.pointer (.button 0 button 0))) ++
    (keys.map fun key => .input (.keyboard (.key 0 key 0))) ++
    [.input (.keyboard (.modifiers 0 0 0 0)), .leave 0]

/-- The auto-repeat of a lock key is dropped.  Tells whether the event goes on. -/
def lockKey (event : CaptureEvent F) : CaptureTask Handle Addr F × Bool :=
  match kind event with
  | .release (.key key) =>
    if isLockKey key then ({ task with heldLockKeys := task.heldLockKeys.erase key }, true)
    else (task, true)
  | .press (.key key) =>
    if isLockKey key then
      if key ∈ task.heldLockKeys then (task, false)
      else ({ task with heldLockKeys := key :: task.heldLockKeys }, true)
    else (task, true)
  | _ => (task, true)

/-- The buttons the peer was sent a down for and no up since. -/
def noteButton : ProtoEvent F F → CaptureTask Handle Addr F
  | .input (.pointer (.button _ button state)) =>
    if state = 0 then
      { task with buttonsDownOnPeer := task.buttonsDownOnPeer.erase button }
    else { task with buttonsDownOnPeer := task.buttonsDownOnPeer.insert button }
  | _ => task

def isEnter : ProtoEvent F F → Bool
  | .enter _ => true
  | _ => false

/-! ## Leaving and passing on -/

section Leaving

variable [DecidableEq Handle] (world : World) (task : CaptureTask Handle Addr F)

/-- Tell the active client we are leaving, after letting go of everything it holds. -/
def leaveActiveClient : CaptureTask Handle Addr F :=
  let left :=
    { task with
      pendingMotion := none
      awaitingAck := false
      enterWaits := false
      buttonsDownOnPeer := []
      ackedAt := none
      ackedLink := none
      activeClient := none }
  match task.activeClient with
  | none => left
  | some handle =>
    let via := (task.ackedAt.filter fun acked => acked.1 = handle).map Prod.snd
    let frames := leavingFrames (world.buttonWalk.keys task.buttonsDownOnPeer)
      (world.keyWalk.keys task.pressedKeys)
    { left with
      pressedKeys := []
      sent := (frames.map fun event => ⟨handle, via, event⟩).reverse ++ task.sent }

def releaseCapture : Except (CaptureTask Handle Addr F) (CaptureTask Handle Addr F) :=
  (task.leaveActiveClient world).releaseBackend world

/-- The session ends: the peer is left, and the next one starts with no key pressed. -/
def endSession : CaptureTask Handle Addr F :=
  { task.leaveActiveClient world with pressedKeys := [] }

/-- The frame an event goes out as; one before the Ack repeats the Enter. -/
def frame (handle : Handle) : CaptureEvent F → ProtoEvent F F
  | .begin => .enter (task.getPos handle).opposite
  | .input event =>
    match task.state with
    | .waitingForAck => .enter (task.getPos handle).opposite
    | .sending => .input event

/-- A frame is sent; an Enter waits while its link has not been answered on. -/
def pass (handle : Handle) (frame : ProtoEvent F F) :
    Except (CaptureTask Handle Addr F) (CaptureTask Handle Addr F) :=
  if isEnter frame ∧ task.awaitingAck ∧ world.unansweredLink then
    .ok { task with enterWaits := true }
  else
    let task := ({ task with enterWaits := false }.noteButton frame).send handle none frame
    if world.eventSent then .ok task else task.releaseCapture world

end Leaving

/-! ## One captured event -/

section Handling

variable [DecidableEq Handle] [AddCommGroup F]

/-- A crossing acknowledged on a link that is no longer the client's is made again. -/
def crossAgainIfRelinked (serial : Option Nat) (task : CaptureTask Handle Addr F)
    (handle : Handle) : CaptureTask Handle Addr F × Bool :=
  if task.state ≠ .sending ∨ task.activeClient ≠ some handle then (task, false)
  else
    match serial with
    | some now =>
      if task.ackedLink ≠ some now then
        ({ task with
            state := .waitingForAck
            awaitingAck := true
            ackedLink := none
            pendingMotion := none
            absV := 0
            absSeq := 0 }, true)
      else (task, false)
    | none => (task, false)

/-- Motion goes out as the displacement since the crossing to a peer that takes it so. -/
def sendMotion (world : World) (task : CaptureTask Handle Addr F) (handle : Handle)
    (delta : F × F) : Except (CaptureTask Handle Addr F) (CaptureTask Handle Addr F) :=
  let task :=
    if world.absoluteMotion then
      let absV := task.absV + delta
      let absSeq := task.absSeq + 1
      { task with absV := absV, absSeq := absSeq }.send handle none
        (.pointerMotionAbsolute absSeq 0 absV.1 absV.2)
    else task.send handle none (.input (.pointer (.motion 0 delta.1 delta.2)))
  if world.motionSent then .ok task else task.releaseCapture world

variable [DecidableEq F]

/-- Motion that was summed up goes out as one frame. -/
def flushPendingMotion (world : World) (task : CaptureTask Handle Addr F) :
    Except (CaptureTask Handle Addr F) (CaptureTask Handle Addr F) :=
  match task.pendingMotion with
  | none => .ok task
  | some delta =>
    let task := { task with pendingMotion := none }
    if delta.1 = 0 ∧ delta.2 = 0 then .ok task
    else
      match task.activeClient with
      | none => .ok task
      | some handle =>
        let (task, again) := task.crossAgainIfRelinked world.flushSerial handle
        if again then .ok task else task.sendMotion world handle delta

/-- Motion to a peer that has acknowledged the crossing is summed up; anything else sends what
was summed up first.  Tells whether the event goes on. -/
@[grind =]
def coalesce (world : World) (task : CaptureTask Handle Addr F) (handle : Handle)
    (event : CaptureEvent F) :
    Except (CaptureTask Handle Addr F) (CaptureTask Handle Addr F × Bool) :=
  if task.coalesceMotion then
    match kind event with
    | .motion dx dy =>
      if task.state = .sending ∧ task.activeClient = some handle then
        .ok ({ task with
          pendingMotion := some (task.pendingMotion.getD 0 + (dx, dy)) }, false)
      else (task.flushPendingMotion world).map (·, true)
    | _ => (task.flushPendingMotion world).map (·, true)
  else .ok (task, true)

/-- A Begin may cross to its client; an event of a client that is not active goes nowhere. -/
@[grind =]
def cross (world : World) (task : CaptureTask Handle Addr F) (handle : Handle)
    (event : CaptureEvent F) :
    Except (CaptureTask Handle Addr F) (CaptureTask Handle Addr F × Bool) :=
  if task.getType handle = .enterOnly then
    if task.isDefaultCaptureAt (task.getPos handle) then .ok (task, false)
    else (task.releaseBackend world).map (·, false)
  else if event = .begin then
    let task := { task with absV := 0, absSeq := 0 }
    if task.activeClient ≠ some handle then
      if world.cannotCross then (task.releaseCapture world).map (·, false)
      else
        .ok ({ task with
          state := .waitingForAck
          activeClient := some handle
          awaitingAck := true
          entered := handle :: task.entered }, true)
    else .ok (task, true)
  else .ok (task, task.activeClient = some handle)

/-- An event as it is taken in, up to where it is for the active client or for nobody. -/
def turn (world : World) (task : CaptureTask Handle Addr F) (handle : Handle)
    (event : CaptureEvent F) :
    Except (CaptureTask Handle Addr F) (CaptureTask Handle Addr F × Bool) :=
  if task.keysPressed then (task.releaseCapture world).map (·, false)
  else
    match (task.crossAgainIfRelinked world.linkSerial handle).1.coalesce world handle event with
    | .error failed => .error failed
    | .ok (task, false) => .ok (task, false)
    | .ok (task, true) => task.cross world handle event

/-- An event for the active client is sent to it. -/
def forward (world : World) (task : CaptureTask Handle Addr F) (handle : Handle)
    (event : CaptureEvent F) :
    Except (CaptureTask Handle Addr F) (CaptureTask Handle Addr F) :=
  match task.state, kind event with
  | .sending, .motion dx dy => task.sendMotion world handle (dx, dy)
  | _, _ =>
    let (task, goesOn) := task.lockKey event
    if goesOn then task.pass world handle (task.frame handle event) else .ok task

def handleCaptureEvent (world : World) (task : CaptureTask Handle Addr F) (handle : Handle)
    (event : CaptureEvent F) :
    Except (CaptureTask Handle Addr F) (CaptureTask Handle Addr F) :=
  match task.turn world handle event with
  | .error failed => .error failed
  | .ok (task, false) => .ok task
  | .ok (task, true) => task.forward world handle event

variable {event : CaptureEvent F} {world : World} {task : CaptureTask Handle Addr F}
  {handle : Handle}

omit [DecidableEq F] in
theorem forward_frame (world : World) (task : CaptureTask Handle Addr F) (handle : Handle)
    (framed : task.state = .sending → ∀ dx dy, kind event ≠ .motion dx dy) :
    task.forward world handle event =
      if (task.lockKey event).2 then
        (task.lockKey event).1.pass world handle ((task.lockKey event).1.frame handle event)
      else .ok (task.lockKey event).1 := by
  unfold forward
  split
  · rename_i stands motion
    exact absurd motion (framed stands _ _)
  · rfl

/-- What follows once motion before an event was seen to. -/
@[grind =]
def goOn (world : World) (task : CaptureTask Handle Addr F) (handle : Handle)
    (event : CaptureEvent F) :
    Except (CaptureTask Handle Addr F) (CaptureTask Handle Addr F) :=
  match task.cross world handle event with
  | .error failed => .error failed
  | .ok (task, false) => .ok task
  | .ok (task, true) => task.forward world handle event

theorem goOn_noticed (noticed : task.getType handle = .enterOnly) : task.goOn world handle event =
      if task.isDefaultCaptureAt (task.getPos handle) then .ok task
      else task.releaseBackend world := by
  unfold goOn cross
  rw [if_pos noticed]
  by_cases edge : task.isDefaultCaptureAt (task.getPos handle) = true
  · rw [if_pos edge, if_pos edge]
  · rw [if_neg edge, if_neg edge]
    generalize task.releaseBackend world = released
    cases released <;> rfl

section

variable (crosses : task.getType handle ≠ .enterOnly)
include crosses

/-- A Begin of the active client starts its motion from the origin. -/
theorem goOn_again (active : task.activeClient = some handle) : task.goOn world handle .begin =
      forward world { task with absV := 0, absSeq := 0 } handle .begin := by
  unfold goOn cross
  rw [if_neg crosses, if_pos rfl]
  rw [if_neg (not_not.mpr active)]

theorem goOn_crossing (other : task.activeClient ≠ some handle) : task.goOn world handle .begin =
      if world.cannotCross then releaseCapture world { task with absV := 0, absSeq := 0 }
      else
        forward world { task with
          absV := 0
          absSeq := 0
          state := .waitingForAck
          activeClient := some handle
          awaitingAck := true
          entered := handle :: task.entered } handle .begin := by
  unfold goOn cross
  rw [if_neg crosses, if_pos rfl]
  rw [if_pos other]
  by_cases refused : world.cannotCross = true
  · rw [if_pos refused, if_pos refused]
    generalize releaseCapture world { task with absV := 0, absSeq := 0 } = released
    cases released <;> rfl
  · rw [if_neg refused, if_neg refused]

theorem goOn_input (input : event ≠ .begin) : task.goOn world handle event =
      if task.activeClient = some handle then task.forward world handle event
      else .ok task := by
  unfold goOn cross
  rw [if_neg crosses, if_neg input]
  by_cases active : task.activeClient = some handle
  · rw [decide_eq_true active, if_pos active]
  · rw [decide_eq_false active, if_neg active]

end

theorem handleCaptureEvent_eq (world : World) (event : CaptureEvent F)
    (free : task.keysPressed = false)
    (linked : task.crossAgainIfRelinked world.linkSerial handle = (task, false)) :
    task.handleCaptureEvent world handle event =
      match task.coalesce world handle event with
      | .error failed => .error failed
      | .ok (task, false) => .ok task
      | .ok (task, true) => task.goOn world handle event := by
  unfold handleCaptureEvent turn
  rw [if_neg (Bool.eq_false_iff.mp free), linked]
  generalize task.coalesce world handle event = gathered
  rcases gathered with failed | ⟨gathered, goesOn⟩
  · rfl
  · cases goesOn <;> rfl

theorem handleCaptureEvent_bind (world : World) (handle : Handle) (event : CaptureEvent F)
    (bound : task.keysPressed = true) :
    task.handleCaptureEvent world handle event = task.releaseCapture world := by
  unfold handleCaptureEvent turn
  rw [if_pos bound]
  generalize task.releaseCapture world = released
  cases released <;> rfl

end Handling

end CaptureTask

/-! ## The session -/

/-- What the task meets: a captured event, fresh from the backend or a copy of one for another
client at its edge, the timers, the frames of its peer, the requests of the service, the end of
the session. -/
inductive Act (Handle Addr F : Type) where
  | captured (world : World) (fresh : Bool) (handle : Handle) (event : CaptureEvent F)
  | motionFlush (world : World)
  | ackDeadline (world : World)
  | ack (handle : Handle) (link : Nat) (addr : Option Addr)
  | pong (world : World) (handle : Handle) (link : Nat)
  | leave (world : World) (handle : Handle)
  | release (world : World)
  | create (handle : Handle) (pos : Position) (type : CaptureType)
  | destroy (world : World) (handle : Handle)
  | setReleaseBind (bind : List UInt32)
  | sessionEnds (world : World)

namespace CaptureTask

section

variable {Handle Addr F : Type}

/-- Where a call leaves the task, whether or not it failed. -/
def after : Except (CaptureTask Handle Addr F) (CaptureTask Handle Addr F) →
    CaptureTask Handle Addr F
  | .ok task => task
  | .error task => task

/-- What a call leaves where it also tells whether the event goes on. -/
def afterTurn : Except (CaptureTask Handle Addr F) (CaptureTask Handle Addr F × Bool) →
    CaptureTask Handle Addr F
  | .ok (task, _) => task
  | .error task => task

theorem afterTurn_map
    (called : Except (CaptureTask Handle Addr F) (CaptureTask Handle Addr F)) (goesOn : Bool) :
    afterTurn (called.map (·, goesOn)) = after called := by
  cases called <;> rfl

end

variable {Handle Addr F : Type} [DecidableEq Handle] (world : World)
  (task : CaptureTask Handle Addr F)

/-- A call that fails ends the session where it stands. -/
def orEnd :
    Except (CaptureTask Handle Addr F) (CaptureTask Handle Addr F) → CaptureTask Handle Addr F
  | .ok task => task
  | .error task => task.endSession world

/-- A frame of a client other than the active one is passed over. -/
def hears (handle : Handle) : Bool :=
  task.activeClient.all fun active => handle = active

def acknowledged (handle : Handle) (link : Nat) (addr : Option Addr) : CaptureTask Handle Addr F :=
  let task := { task with state := .sending }
  if task.activeClient = some handle then
    { task with
      awaitingAck := false
      ackedAt := addr.map (handle, ·)
      ackedLink := some link }
  else task

def sendWaitingEnter (handle : Handle) (link : Nat) :
    Except (CaptureTask Handle Addr F) (CaptureTask Handle Addr F) :=
  if task.enterWaits = false ∨ task.activeClient ≠ some handle ∨ task.state ≠ .waitingForAck ∨
      world.linkSerial ≠ some link then
    .ok task
  else
    let task := { task with enterWaits := false }.send handle none
      (.enter (task.getPos handle).opposite)
    if world.eventSent then .ok task else task.releaseCapture world

def giveUpOnCrossing : Except (CaptureTask Handle Addr F) (CaptureTask Handle Addr F) :=
  let task := { task with awaitingAck := false }
  match task.activeClient with
  | none => .ok task
  | some _ => task.releaseCapture world

/-- The client is left if it is the active one, and its capture dropped. -/
def destroyed (handle : Handle) : Except (CaptureTask Handle Addr F) (CaptureTask Handle Addr F) :=
  if task.activeClient = some handle then
    match task.releaseCapture world with
    | .ok task => .ok (task.removeCapture handle)
    | .error task => .error (task.removeCapture handle)
  else .ok (task.removeCapture handle)

variable [AddCommGroup F] [DecidableEq F]

def step (task : CaptureTask Handle Addr F) : Act Handle Addr F → CaptureTask Handle Addr F
  | .captured world fresh handle event =>
    let task := if fresh then task.updatePressedKeys event else task
    orEnd world (task.handleCaptureEvent world handle event)
  | .motionFlush world =>
    if task.coalesceMotion ∧ task.pendingMotion.isSome then
      orEnd world (task.flushPendingMotion world)
    else task
  | .ackDeadline world =>
    if task.awaitingAck then orEnd world (task.giveUpOnCrossing world) else task
  | .ack handle link addr => if task.hears handle then task.acknowledged handle link addr else task
  | .pong world handle link =>
    if task.hears handle then orEnd world (task.sendWaitingEnter world handle link) else task
  | .leave world handle =>
    if task.hears handle then orEnd world (task.releaseCapture world) else task
  | .release world => orEnd world (task.releaseCapture world)
  | .create handle pos type => task.addCapture handle pos type
  | .destroy world handle => orEnd world (task.destroyed world handle)
  | .setReleaseBind bind => { task with releaseBind := bind }
  | .sessionEnds world => task.endSession world

def run (releaseBind : List UInt32) (coalesceMotion : Bool) (acts : List (Act Handle Addr F)) :
    CaptureTask Handle Addr F :=
  acts.foldl step (start releaseBind coalesceMotion)

end CaptureTask

end HopsFormal.Capture
