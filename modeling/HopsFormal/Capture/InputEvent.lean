import Mathlib.Data.Int.Basic

/-!
# Captured input events

The event vocabulary a capture backend hands to the consumer.  The type `F`
stands for the floating-point numbers of motion and of smooth scrolling; no
result about the queue depends on how they add.
-/

namespace HopsFormal.Capture

/-- A pointer event: relative motion, a mouse button, or scrolling. -/
inductive PointerEvent (F : Type) where
  | motion (time : UInt32) (dx dy : F)
  | button (time button state : UInt32)
  | axis (time : UInt32) (axis : UInt8) (value : F)
  | axisDiscrete120 (axis : UInt8) (value : Int32)
  deriving DecidableEq

/-- A key, or a change of the modifiers. -/
inductive KeyboardEvent where
  | key (time key : UInt32) (state : UInt8)
  | modifiers (depressed latched locked group : UInt32)
  deriving DecidableEq

inductive Event (F : Type) where
  | pointer (event : PointerEvent F)
  | keyboard (event : KeyboardEvent)
  deriving DecidableEq

/-- What a capture backend produces: the crossing, then its input. -/
inductive CaptureEvent (F : Type) where
  | begin
  | input (event : Event F)
  deriving DecidableEq

/-- The screen edge a capture is registered at. -/
inductive Position where
  | left
  | right
  | top
  | bottom
  deriving DecidableEq

/-- A key or a button something can hold down. -/
inductive Held where
  | button (button : UInt32)
  | key (key : UInt32)
  deriving DecidableEq

instance : LawfulBEq (Position × Held) := inferInstance

def Held.release {F : Type} : Held → CaptureEvent F
  | .button code => .input (.pointer (.button 0 code 0))
  | .key code => .input (.keyboard (.key 0 code 0))

/-- What an event means to a queue that may have to leave some out. -/
inductive Kind (F : Type) where
  | motion (dx dy : F)
  | press (held : Held)
  | release (held : Held)
  | begin
  | other
  deriving DecidableEq

/-- Sort an event; a button or key whose state is zero is let go. -/
def kind {F : Type} : CaptureEvent F → Kind F
  | .begin => .begin
  | .input (.pointer (.motion _ dx dy)) => .motion dx dy
  | .input (.pointer (.button _ button state)) =>
    if state = 0 then .release (.button button) else .press (.button button)
  | .input (.keyboard (.key _ key state)) =>
    if state = 0 then .release (.key key) else .press (.key key)
  | .input _ => .other

/-- A made-up release reads as a release of what it was made up for. -/
@[simp]
theorem kind_release {F : Type} (held : Held) :
    kind (held.release : CaptureEvent F) = .release held := by
  cases held <;> simp [Held.release, kind]

end HopsFormal.Capture
