import HopsFormal.Macos.Guard

/-!
# The logic of the taps

A listen-only tap is there while capture runs, and sees the pointer reach an edge.  The active
tap is installed for a crossing, and takes the input away from this machine until the pointer
comes back.  What the system decides is given with each event: whether it lets the active tap be
installed, and whether the edges are being changed at that moment.
-/

namespace HopsFormal.Macos

open Capture (CaptureEvent Position)

structure Bounds (F : Type) where
  xmin : F
  xmax : F
  ymin : F
  ymax : F

/-- The edges crossed at, in the order a hash set is walked, and the area they bound. -/
structure Shared (F : Type) where
  activeClients : List Position
  bounds : Bounds F

/-- The first edge the pointer reaches. -/
def Shared.crossed {F : Type} [Add F] [LE F] [DecidableLE F] (shared : Shared F) (seen : Seen F) :
    Option Position :=
  shared.activeClients.find? fun position =>
    match position with
    | .left => decide (seen.x + seen.dx ≤ shared.bounds.xmin)
    | .right => decide (shared.bounds.xmax ≤ seen.x + seen.dx)
    | .top => decide (seen.y + seen.dy ≤ shared.bounds.ymin)
    | .bottom => decide (shared.bounds.ymax ≤ seen.y + seen.dy)

/-! ## Taps -/

/-- Which taps are there. -/
structure Taps where
  listen : Bool
  active : Bool
  deriving DecidableEq

namespace Taps

/-- A tap that is there is not asked for again. -/
def installActive (taps : Taps) (granted : Bool) : Bool × Taps :=
  if taps.active then (true, taps) else (granted, { taps with active := granted })

def removeActive (taps : Taps) : Taps := { taps with active := false }

def tearDown (_ : Taps) : Taps := ⟨false, false⟩

end Taps

/-- What the daemon is told. -/
inductive ProducerEvent where
  | grab
  | released
  deriving DecidableEq

/-- What the daemon asks for. -/
inductive TapCommand where
  | release
  | destroy (pos : Position)
  | halt
  deriving DecidableEq

/-- What the callback of a tap answers. -/
inductive Verdict where
  | keep
  | drop
  deriving DecidableEq

/-- What was done to the taps, to the cursor, to the stream and to the daemon. -/
inductive Did (F : Type) where
  | installActive (installed : Bool)
  | removeActive
  | reenable (kind : TapKind)
  | tearDown
  | warp (place : F × F)
  | send (pos : Position) (event : CaptureEvent F)
  | discardPending
  | fault (error : CaptureError)
  | notify (event : ProducerEvent)
  | recheck
  | answer (verdict : Verdict)
  deriving DecidableEq

/-! ## The core -/

/-- A crossing given back sooner than this was refused. -/
def shortCrossing : Nat := 250 * millisecond

def refusedCooldown : Nat := 500 * millisecond

structure Core (F : Type) where
  shared : Shared F
  taps : Taps
  grants : Grants
  /-- The active tap is installed, for the watch on permissions. -/
  capturing : Bool
  guard : TapGuard
  currentPos : Option Position
  beganAt : Option Nat
  /-- The edges not crossed again until a time. -/
  cooldown : List (Position × Nat)
  /-- Where the hidden cursor is held. -/
  enterPosition : Option (F × F)
  modifierState : XMods
  halted : Bool
  /-- What was done so far, the oldest first. -/
  did : List (Did F)

namespace Core

variable {F : Type}

/-- Capture starts with the listen-only tap alone. -/
def start (shared : Shared F) : Core F where
  shared := shared
  taps := ⟨true, false⟩
  grants := .start
  capturing := false
  guard := .start
  currentPos := none
  beganAt := none
  cooldown := []
  enterPosition := none
  modifierState := 0
  halted := false
  did := []

@[grind =]
def done (core : Core F) (entry : Did F) : Core F := { core with did := core.did ++ [entry] }

/-- Every tap goes, and the crossing with them; the fault is reported, if there is one. -/
def tearDown (core : Core F) (why : TearDownWhy) : Core F :=
  if core.halted then core
  else
    let core := { core with
      halted := true
      taps := core.taps.tearDown
      capturing := false }.done .tearDown
    let core :=
      match core.currentPos with
      | some _ => { core with currentPos := none, enterPosition := none }.done (.notify .released)
      | none => core
    match why.fault with
    | some error => core.done (.fault error)
    | none => core

def onDisabled (core : Core F) (kind : TapKind) (why : Disabled) (now : Nat) : Core F :=
  let (action, guard) := core.guard.onDisabled kind why now core.grants.missing
  let core := { core with guard := guard }
  let core :=
    match action with
    | .reEnable => core.done (.reenable kind)
    | .tearDown reason => core.tearDown reason
  core.done .recheck

/-- The pointer comes back; an edge that was refused is not crossed again at once. -/
def endCapture (core : Core F) (now : Nat) : Core F :=
  match core.currentPos with
  | none => core
  | some pos =>
    let core := { core with
      currentPos := none
      taps := core.taps.removeActive
      capturing := false
      beganAt := none
      cooldown :=
        if core.beganAt.any fun began => decide (now - began < shortCrossing) then
          core.cooldown ++ [(pos, now + refusedCooldown)]
        else core.cooldown
      enterPosition := none }
    ((core.done .removeActive).done .discardPending).done (.notify .released)

def command (core : Core F) (command : TapCommand) (now : Nat) : Core F :=
  match command with
  | .release => core.endCapture now
  | .destroy pos => if core.currentPos = some pos then core.endCapture now else core
  | .halt => core.tearDown .halted

section Events

variable [IntCast F] (table : UInt16 → Option UInt16)

/-- What is captured goes to the peer, and the cursor is kept at the edge. -/
def forward (core : Core F) (pos : Position) (seen : Seen F) : Core F :=
  let got := getEvents table seen core.modifierState
  let core := { core with
    modifierState := got.modifierState
    did := core.did ++ got.result.map (.send pos) }
  if seen.isMotion then
    match core.enterPosition with
    | some place => core.done (.warp place)
    | none => core
  else core

variable [Add F] [Sub F] [One F]

/-- The place at the edge where the cursor is held. -/
def enterAt (pos : Position) (seen : Seen F) (bounds : Bounds F) : F × F :=
  match pos with
  | .left => (bounds.xmin + 1, seen.y)
  | .right => (bounds.xmax - 1, seen.y)
  | .top => (seen.x, bounds.ymin + 1)
  | .bottom => (seen.x, bounds.ymax - 1)

/-- Where the active tap is refused, every tap goes. -/
def begin (core : Core F) (pos : Position) (seen : Seen F) (bounds : Bounds F) (now : Nat)
    (granted : Bool) : Core F :=
  let (installed, taps) := core.taps.installActive granted
  let core := { core with taps := taps }.done (.installActive installed)
  if installed then
    let place := enterAt pos seen bounds
    let core := { core with
      capturing := true
      currentPos := some pos
      beganAt := some now
      enterPosition := some place }
    ((core.done (.warp place)).done (.send pos .begin)).done (.notify .grab)
  else
    core.tearDown
      (if (core.grants.missing.getD []).contains .accessibility then .revoked [.accessibility]
      else .refused)

variable [LE F] [DecidableLE F]

/-- An edge is not looked at while it is being changed, and not crossed while it cools down. -/
def checkCrossing (core : Core F) (seen : Seen F) (now : Nat) (busy granted : Bool) : Core F :=
  match if busy then none else core.shared.crossed seen with
  | none => core
  | some pos =>
    let core := { core with cooldown := core.cooldown.filter fun cooling => now < cooling.2 }
    if core.cooldown.any fun cooling => cooling.1 = pos then core
    else core.begin pos seen core.shared.bounds now granted

def onEvent (core : Core F) (kind : TapKind) (seen : Seen F) (now : Nat) (busy granted : Bool) :
    Verdict × Core F :=
  if core.halted then (.keep, core)
  else
    match seen.disabled with
    | some why => (.keep, core.onDisabled kind why now)
    | none =>
      match core.currentPos, kind with
      | some pos, .active => (.drop, core.forward table pos seen)
      | some _, .listen => (.keep, core)
      | none, .listen =>
        (.keep, if seen.ty = .mouseMoved then core.checkCrossing seen now busy granted else core)
      | none, .active => (.keep, core)

end Events

end Core

/-- Nothing but the left edge is crossed at. -/
def leftOnly : Shared Int := ⟨[.left], ⟨0, 100, 0, 100⟩⟩

/-! ## Runs -/

/-- What happens to the core. -/
inductive Act (F : Type) where
  | event (kind : TapKind) (seen : Seen F) (now : Nat) (busy granted : Bool)
  | command (command : TapCommand) (now : Nat)
  /-- A check that asked about permissions, and those it found missing. -/
  | record (asked missing : List Permission)
  /-- The daemon changes the edges or the area. -/
  | share (shared : Shared F)

def Act.now {F : Type} : Act F → Option Nat
  | .event _ _ now _ _ => some now
  | .command _ now => some now
  | .record _ _ => none
  | .share _ => none

namespace Core

variable {F : Type} [IntCast F] [Add F] [Sub F] [One F] [LE F] [DecidableLE F]
  (table : UInt16 → Option UInt16)

def step (core : Core F) : Act F → Core F
  | .event kind seen now busy granted =>
    let (verdict, core) := core.onEvent table kind seen now busy granted
    core.done (.answer verdict)
  | .command command now => core.command command now
  | .record asked missing => { core with grants := core.grants.record asked missing }
  | .share shared => { core with shared := shared }

def run (shared : Shared F) (acts : List (Act F)) : Core F := acts.foldl (step table) (start shared)

end Core

end HopsFormal.Macos
