import HopsFormal.Capture.InputEvent
import HopsFormal.Lib.Table
import Mathlib.Data.List.Perm.Basic

/-!
# Injecting the input of several peers

Every peer injects through a handle.  The emulation lists the keys and buttons
each handle holds, so that a peer that goes away can be made to let go of them,
and passes events to the system's backend.  The backend is the list of the calls
made to it together with a function that answers the last of them, so that any
call may fail.
-/

namespace HopsFormal.Emulation

open Capture (Event PointerEvent KeyboardEvent)
open Lib

abbrev Handle := UInt64

/--
How the system counts one button pressed through several handles: they share
one device, or each has a device of its own and the presses are counted.
-/
inductive ButtonScope where
  | machine
  | perHandle
  deriving DecidableEq

/-- A call to the backend. -/
inductive Call (F : Type) where
  | consume (event : Event F) (handle : Handle)
  | create (handle : Handle)
  | destroy (handle : Handle)
  | terminate
  deriving DecidableEq

structure InputEmulation (F : Type) where
  handles : List Handle
  pressedKeys : Table Handle (List UInt32)
  pressedButtons : Table Handle (List UInt32)
  buttonScope : ButtonScope
  calls : List (Call F)

/--
The order in which hash sets are walked: some order of their elements, for the
sets of each handle and for the handles.
-/
structure HashOrder where
  pressed : Handle → List UInt32 → List UInt32
  handles : List Handle → List Handle
  pressed_perm : ∀ handle codes, (pressed handle codes).Perm codes
  handles_perm : ∀ live, (handles live).Perm live

def HashOrder.inserted : HashOrder where
  pressed _ codes := codes
  handles live := live
  pressed_perm _ _ := List.Perm.refl _
  handles_perm _ := List.Perm.refl _

namespace InputEmulation

variable {F E : Type}

def withBackend (scope : ButtonScope) : InputEmulation F where
  handles := []
  pressedKeys := ∅
  pressedButtons := ∅
  buttonScope := scope
  calls := []

@[grind =]
def call (emulation : InputEmulation F) (made : Call F) : InputEmulation F :=
  { emulation with calls := emulation.calls ++ [made] }

/--
List a key as pressed or released; says whether the event should be processed.
-/
def updatePressedKeys (emulation : InputEmulation F) (handle : Handle) (key : UInt32)
    (state : UInt8) : Bool × InputEmulation F :=
  match emulation.pressedKeys.lookup handle with
  | none => (false, emulation)
  | some pressed =>
    if state = 0 then
      (key ∈ pressed,
        { emulation with
          pressedKeys := emulation.pressedKeys.modify handle fun pressed => pressed.erase key })
    else
      (key ∉ pressed,
        { emulation with
          pressedKeys := emulation.pressedKeys.modify handle fun pressed => pressed.insert key })

section Backend

variable (answer : List (Call F) → Except E Unit) (emulation : InputEmulation F) (order : HashOrder)

/-- Pass an event to the backend, which may fail. -/
def pass (event : Event F) (handle : Handle) : Except E Unit × InputEmulation F :=
  let passed := emulation.call (.consume event handle)
  (answer passed.calls, passed)

/--
A button where every handle shares one device: a down is listed for the handle
and passed on, an up is passed on only while some handle holds the button, and
clears it for all of them.
-/
def machineButton (event : Event F) (handle : Handle) (button state : UInt32) :
    Except E Unit × InputEmulation F :=
  if state ≠ 0 then
    pass answer
      { emulation with
        pressedButtons := emulation.pressedButtons.modify handle fun pressed =>
          pressed.insert button }
      event handle
  else if emulation.pressedButtons.any (fun _ pressed => button ∈ pressed) then
    pass answer
      { emulation with
        pressedButtons := emulation.pressedButtons.mapValues fun pressed => pressed.erase button }
      event handle
  else (.ok (), emulation)

/-- The handle whose device an up goes out on. -/
def buttonHolder (handle : Handle) (button : UInt32) : Option Handle :=
  if ((emulation.pressedButtons.lookup handle).any fun pressed => button ∈ pressed) then
    some handle
  else (emulation.pressedButtons.keysWhere fun _ pressed => button ∈ pressed).min?

/--
A button where each handle has a device of its own: a repeated down is dropped,
and an up goes out on a device that holds the button.
-/
def perHandleButton (event : Event F) (handle : Handle) (button state : UInt32) :
    Except E Unit × InputEmulation F :=
  if state ≠ 0 then
    match emulation.pressedButtons.lookup handle with
    | none => pass answer emulation event handle
    | some pressed =>
      if button ∈ pressed then (.ok (), emulation)
      else
        pass answer
          { emulation with
            pressedButtons := emulation.pressedButtons.modify handle fun pressed =>
              pressed.insert button }
          event handle
  else
    match emulation.buttonHolder handle button with
    | none => (.ok (), emulation)
    | some holder =>
      pass answer
        { emulation with
          pressedButtons := emulation.pressedButtons.modify holder fun pressed =>
            pressed.erase button }
        event holder

def consume (event : Event F) (handle : Handle) : Except E Unit × InputEmulation F :=
  match event with
  | .keyboard (.key _ key state) =>
    let (process, updated) := emulation.updatePressedKeys handle key state
    if process then pass answer updated event handle else (.ok (), updated)
  | .pointer (.button _ button state) =>
    match emulation.buttonScope with
    | .machine => machineButton answer emulation event handle button state
    | .perHandle => perHandleButton answer emulation event handle button state
  | _ => pass answer emulation event handle

def create (handle : Handle) : Bool × InputEmulation F :=
  if handle ∈ emulation.handles then (false, emulation)
  else
    (true,
      { emulation with
        handles := emulation.handles ++ [handle]
        pressedKeys := emulation.pressedKeys.insert handle []
        pressedButtons := emulation.pressedButtons.insert handle [] }.call (.create handle))

def firstError (first : Option E) : Except E Unit → Option E
  | .ok () => first
  | .error error => first.or (some error)

def outcome : Option E → Except E Unit
  | none => .ok ()
  | some error => .error error

/-- One turn of the loop that lets go of a handle's buttons. -/
def releaseButton (handle : Handle) (sofar : Option E × InputEmulation F) (button : UInt32) :
    Option E × InputEmulation F :=
  if sofar.2.buttonScope = .machine ∧
      (sofar.2.pressedButtons.any fun other held => other ≠ handle ∧ button ∈ held) then sofar
  else
    let (result, passed) := pass answer sofar.2 (.pointer (.button 0 button 0)) handle
    (firstError sofar.1 result, passed)

/-- One turn of the loop that lets go of a handle's keys. -/
def releaseKey (handle : Handle) (sofar : Option E × InputEmulation F) (key : UInt32) :
    Option E × InputEmulation F :=
  let (result, passed) := pass answer sofar.2 (.keyboard (.key 0 key 0)) handle
  (firstError sofar.1 result, passed)

/-- Release every button and key a handle holds, then reset the modifiers. -/
def releaseHeld (emulation : InputEmulation F) (handle : Handle) :
    Except E Unit × InputEmulation F :=
  let buttons := order.pressed handle ((emulation.pressedButtons.lookup handle).getD [])
  let drained := { emulation with
    pressedButtons := emulation.pressedButtons.modify handle fun _ => [] }
  let (buttonError, released) := buttons.foldl (releaseButton answer handle) (none, drained)
  let keys := order.pressed handle ((released.pressedKeys.lookup handle).getD [])
  let drained := { released with
    pressedKeys := released.pressedKeys.modify handle fun _ => [] }
  let (keyError, released) := keys.foldl (releaseKey answer handle) (buttonError, drained)
  let (result, reset) := pass answer released (.keyboard (.modifiers 0 0 0 0)) handle
  (outcome (firstError keyError result), reset)

def destroy (emulation : InputEmulation F) (handle : Handle) : InputEmulation F :=
  let released := (releaseHeld answer order emulation handle).2
  if handle ∈ released.handles then
    { released with
      handles := released.handles.erase handle
      pressedKeys := released.pressedKeys.erase handle
      pressedButtons := released.pressedButtons.erase handle }.call (.destroy handle)
  else released

def terminate (emulation : InputEmulation F) : InputEmulation F :=
  ((order.handles emulation.handles).foldl (destroy answer order) emulation).call .terminate

end Backend

end InputEmulation

end HopsFormal.Emulation
