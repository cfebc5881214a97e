import HopsFormal.LayerShell.Outputs
import HopsFormal.Lib.Walk

/-!
# The layer-shell capture

Capture windows stand along the edges of the outputs.  The compositor says which outputs there
are and where they lie, when the pointer enters a window or leaves it, and what is typed and
moved while one is focused.  A crossing grabs the pointer: it is locked, its motion is told as
relative, and the compositor's shortcuts are kept from it.
-/

namespace HopsFormal.LayerShell

open Capture (Position CaptureEvent)
open Lib

/-- A capture window, known by its surface: the output it stands on, and the edge. -/
structure Window where
  surface : Nat
  wlOutput : Nat
  pos : Position
  deriving DecidableEq

/--
The lock of the pointer, the relative pointer and the shortcut inhibitor are kept with the
surface they were made for.  A new object is numbered by the objects made before it.
-/
structure State (F : Type) where
  activePositions : List Position
  pointerLock : Option Nat
  relPointer : Option Nat
  shortcutInhibitor : Option Nat
  activeWindows : List Window
  focused : Option Window
  /-- The compositor lets its shortcuts be inhibited. -/
  shortcutInhibitManager : Bool
  /-- The captured events, the oldest first. -/
  pendingEvents : List (Position × CaptureEvent F)
  outputs : List Output
  scrollDiscretePending : Bool
  nextObject : Nat

def changeOutput (name : UInt32) (change : Output → Output) : List Output → List Output
  | [] => []
  | output :: rest =>
    if output.global = name then change output :: rest
    else output :: changeOutput name change rest

namespace State

variable {F : Type}

def start (shortcutInhibitManager : Bool) : State F where
  activePositions := []
  pointerLock := none
  relPointer := none
  shortcutInhibitor := none
  activeWindows := []
  focused := none
  shortcutInhibitManager := shortcutInhibitManager
  pendingEvents := []
  outputs := []
  scrollDiscretePending := false
  nextObject := 0

/-! ## Windows -/

/-- A window is made on an output that is described. -/
def newWindow (pos : Position) (state : State F) (output : Output) : State F :=
  if output.info.isSome then
    { state with
      activeWindows := state.activeWindows ++ [⟨state.nextObject, output.wlOutput, pos⟩]
      nextObject := state.nextObject + 1 }
  else state

variable (state : State F)

def addClient (pos : Position) : State F :=
  (getOutputConfiguration state.outputs pos).foldl (newWindow pos)
    { state with activePositions := state.activePositions.insert pos }

/-- The windows of an edge go, and the focus with them if it is on one of them. -/
def deleteClient (pos : Position) : State F :=
  { state with
    activePositions := state.activePositions.erase pos
    activeWindows := state.activeWindows.filter fun window => window.pos ≠ pos
    focused := (state.activeWindows.filter fun window => window.pos = pos).foldl
      (fun focused removed => if focused = some removed then none else focused) state.focused }

/-- All windows are made again, one edge after the other in the order a hash set is walked. -/
def updateWindows (walk : Walk Position) : State F :=
  (walk.keys state.activePositions).foldl addClient { state with activeWindows := [] }

/-! ## Outputs -/

/-- What was said of an output counts from here on. -/
def updateOutputInfo (name : UInt32) (walk : Walk Position) : State F :=
  match state.outputs.find? fun output => output.global = name with
  | none => state
  | some output =>
    if output.hasXdgInfo then
      { state with
        outputs := changeOutput name
          (fun output => { output with info := some output.pendingInfo }) state.outputs
      }.updateWindows walk
    else state

def registerGlobal (name : UInt32) (interface : String) : State F :=
  if interface = "wl_output" then
    { state with
      outputs := state.outputs ++ [{
        wlOutput := state.nextObject
        global := name
        info := none
        pendingInfo := .undescribed
        hasXdgInfo := false }]
      nextObject := state.nextObject + 1 }
  else state

def deregisterGlobal (name : UInt32) : State F :=
  { state with outputs := state.outputs.filter fun output => output.global ≠ name }

/-- Something is said of an output, which counts once the description ends. -/
def describe (name : UInt32) (said : OutputInfo → OutputInfo) : State F :=
  { state with
    outputs := changeOutput name
      (fun output => { output with pendingInfo := said output.pendingInfo, hasXdgInfo := true })
      state.outputs }

/-! ## The grab -/

/-- What is not in place yet is made for the surface. -/
def grab (surface : Nat) : State F :=
  match state.focused with
  | none => state
  | some _ =>
    { state with
      pointerLock := state.pointerLock.or (some surface)
      relPointer := state.relPointer.or (some surface)
      shortcutInhibitor :=
        if state.shortcutInhibitManager then state.shortcutInhibitor.or (some surface)
        else state.shortcutInhibitor }

def ungrab : State F :=
  match state.focused with
  | none => state
  | some _ => { state with pointerLock := none, relPointer := none, shortcutInhibitor := none }

/-! ## Events -/

/-- An event of a window is queued with its edge. -/
def queue (pos : Position) (event : CaptureEvent F) : State F :=
  { state with pendingEvents := state.pendingEvents ++ [(pos, event)] }

def enter (surface : Nat) : State F :=
  match state.activeWindows.find? fun window => window.surface = surface with
  | none => state
  | some window => ({ state with focused := some window }.grab surface).queue window.pos .begin

/-- A button, a key, a change of the modifiers or relative motion: nothing without a focus. -/
def input (event : Capture.Event F) : State F :=
  match state.focused with
  | none => state
  | some window => state.queue window.pos (.input event)

def axis (time : UInt32) (axis : UInt8) (value : F) : State F :=
  match state.focused with
  | none => state
  | some window =>
    -- each wheel step comes with plain scrolling that would double it
    if state.scrollDiscretePending then { state with scrollDiscretePending := false }
    else state.queue window.pos (.input (.pointer (.axis time axis value)))

def axisValue120 (axis : UInt8) (value : Int32) : State F :=
  match state.focused with
  | none => state
  | some window =>
    { state with scrollDiscretePending := true }.queue window.pos
      (.input (.pointer (.axisDiscrete120 axis value)))

end State

/-- What the compositor tells, and what the capture is asked for. -/
inductive Act (F : Type) where
  | global (name : UInt32) (interface : String)
  | globalRemove (name : UInt32)
  | logicalPosition (name : UInt32) (position : Int32 × Int32)
  | logicalSize (name : UInt32) (size : Int32 × Int32)
  | name (name : UInt32) (text : String)
  | description (name : UInt32) (text : String)
  | done (name : UInt32) (walk : Walk Position)
  | enter (surface : Nat)
  | leave
  | input (event : Capture.Event F)
  | axis (time : UInt32) (axis : UInt8) (value : F)
  | axisValue120 (axis : UInt8) (value : Int32)
  | frame
  | create (pos : Position)
  | destroy (pos : Position)
  | release

variable {F : Type}

/-- The end of a description is told by the output or, in old versions, by its xdg output. -/
def step (state : State F) : Act F → State F
  | .global name interface => state.registerGlobal name interface
  | .globalRemove name => state.deregisterGlobal name
  | .logicalPosition name position =>
    state.describe name fun info => { info with position := position }
  | .logicalSize name size => state.describe name fun info => { info with size := size }
  | .name name text => state.describe name fun info => { info with name := text }
  | .description name text => state.describe name fun info => { info with description := text }
  | .done name walk => state.updateOutputInfo name walk
  | .enter surface => state.enter surface
  | .leave => state.ungrab
  | .input event => state.input event
  | .axis time axis value => state.axis time axis value
  | .axisValue120 axis value => state.axisValue120 axis value
  | .frame => state
  | .create pos => state.addClient pos
  | .destroy pos => state.deleteClient pos
  | .release => state.ungrab

def run (shortcutInhibitManager : Bool) (acts : List (Act F)) : State F :=
  acts.foldl step (.start shortcutInhibitManager)

end HopsFormal.LayerShell
