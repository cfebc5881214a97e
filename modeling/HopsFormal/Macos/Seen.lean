import HopsFormal.Capture.InputEvent
import HopsFormal.Lib.Flags

/-!
# What an event tap sees

The fields of one event of the window server, and the events it is captured as.  The type `F`
stands for the floating-point numbers of positions and motion.  How the codes of keys are
translated is a parameter: it is the table of another package.
-/

namespace HopsFormal.Macos

open Capture (CaptureEvent Event KeyboardEvent PointerEvent Position)
open Lib

/-- The types of events a tap is told of; the others are not acted on. -/
inductive CGEventType where
  | null
  | leftMouseDown
  | leftMouseUp
  | rightMouseDown
  | rightMouseUp
  | otherMouseDown
  | otherMouseUp
  | mouseMoved
  | leftMouseDragged
  | rightMouseDragged
  | otherMouseDragged
  | scrollWheel
  | keyDown
  | keyUp
  | flagsChanged
  | tapDisabledByTimeout
  | tapDisabledByUserInput
  deriving DecidableEq

/-! ## Modifiers -/

abbrev CGEventFlags := Flags 64

namespace CGEventFlags

def alphaShift : CGEventFlags := Flags.flag 16
def shift : CGEventFlags := Flags.flag 17
def control : CGEventFlags := Flags.flag 18
def alternate : CGEventFlags := Flags.flag 19
def command : CGEventFlags := Flags.flag 20

def contains (flags mask : CGEventFlags) : Bool := decide (flags &&& mask = mask)

end CGEventFlags

/-- The modifiers of X11, one bit each. -/
abbrev XMods := Flags 32

namespace XMods

def shiftMask : XMods := Flags.flag 0
def lockMask : XMods := Flags.flag 1
def controlMask : XMods := Flags.flag 2
def mod1Mask : XMods := Flags.flag 3
def mod4Mask : XMods := Flags.flag 6

end XMods

/-- The modifiers that are held, and Caps Lock while it is on. -/
def depressedOf (flags : CGEventFlags) : XMods :=
  let depressed : XMods := 0
  let depressed :=
    if flags.contains .shift then depressed.insert XMods.shiftMask else depressed
  let depressed :=
    if flags.contains .control then depressed.insert XMods.controlMask else depressed
  let depressed :=
    if flags.contains .alternate then depressed.insert XMods.mod1Mask else depressed
  let depressed :=
    if flags.contains .command then depressed.insert XMods.mod4Mask else depressed
  if flags.contains .alphaShift then depressed.insert XMods.lockMask else depressed

def modsLockedOf (flags : CGEventFlags) : XMods :=
  if flags.contains .alphaShift then Flags.insert 0 XMods.lockMask else 0

/-! ## Events -/

/-- Why the system disabled a tap. -/
inductive Disabled where
  | timeout
  | userInput
  deriving DecidableEq

/-- The fields of one event; those its type does not carry are zero. -/
structure Seen (F : Type) where
  ty : CGEventType
  x : F
  y : F
  dx : F
  dy : F
  keycode : Int64
  flags : CGEventFlags
  button : Int64
  continuous : Bool
  pointV : Int64
  pointH : Int64
  lineV : Int64
  lineH : Int64

namespace Seen

variable {F : Type}

def new [Zero F] (ty : CGEventType) : Seen F where
  ty := ty
  x := 0
  y := 0
  dx := 0
  dy := 0
  keycode := 0
  flags := 0
  button := 0
  continuous := false
  pointV := 0
  pointH := 0
  lineV := 0
  lineH := 0

/-- The event is the notice that the system disabled the tap. -/
def disabled (seen : Seen F) : Option Disabled :=
  match seen.ty with
  | .tapDisabledByTimeout => some .timeout
  | .tapDisabledByUserInput => some .userInput
  | _ => none

def isMotion (seen : Seen F) : Bool :=
  match seen.ty with
  | .mouseMoved | .leftMouseDragged | .rightMouseDragged | .otherMouseDragged => true
  | _ => false

end Seen

def btnLeft : UInt32 := 0x110
def btnRight : UInt32 := 0x111
def btnMiddle : UInt32 := 0x112
def btnBack : UInt32 := 0x113
def btnForward : UInt32 := 0x114

def otherButton (number : Int64) : UInt32 :=
  if number = 3 then btnBack else if number = 4 then btnForward else btnMiddle

def motion {F : Type} (seen : Seen F) : PointerEvent F := .motion 0 seen.dx seen.dy

def button {F : Type} (button state : UInt32) : CaptureEvent F :=
  .input (.pointer (.button 0 button state))

def v120StepsPerLine : Int32 := 40

/-- The two axes of a scroll, those that did not move left out. -/
def scrolls {F : Type} [IntCast F] (seen : Seen F) : List (CaptureEvent F) :=
  if seen.continuous then
    (if seen.pointV ≠ 0 then [.input (.pointer (.axis 0 0 (seen.pointV.toInt : F)))] else []) ++
    (if seen.pointH ≠ 0 then [.input (.pointer (.axis 0 1 (seen.pointH.toInt : F)))] else [])
  else
    (if seen.lineV ≠ 0 then
      [.input (.pointer (.axisDiscrete120 0 (v120StepsPerLine * seen.lineV.toInt32)))] else []) ++
    (if seen.lineH ≠ 0 then
      [.input (.pointer (.axisDiscrete120 1 (v120StepsPerLine * seen.lineH.toInt32)))] else [])

/-- The code of a key, from the low half-word of the one the window server gives. -/
def mapKey (table : UInt16 → Option UInt16) (code : Int64) : Except Int64 UInt32 :=
  match table code.toUInt64.toUInt16 with
  | some evdev => .ok evdev.toUInt32
  | none => .error code

/-- The events captured of what is seen, the modifiers then remembered, and a code that is no key's. -/
structure Got (F : Type) where
  result : List (CaptureEvent F)
  modifierState : XMods
  outcome : Except Int64 Unit

/-- A change of the modifiers is a key that went down if they compare above those remembered. -/
def getEvents {F : Type} [IntCast F] (table : UInt16 → Option UInt16) (seen : Seen F)
    (modifierState : XMods) : Got F :=
  match seen.ty with
  | .keyDown | .keyUp =>
    match mapKey table seen.keycode with
    | .error code => ⟨[], modifierState, .error code⟩
    | .ok key =>
      ⟨[.input (.keyboard (.key 0 key (if seen.ty = .keyDown then 1 else 0)))],
        modifierState, .ok ()⟩
  | .flagsChanged =>
    let depressed := depressedOf seen.flags
    let state : UInt8 := if depressed > modifierState then 1 else 0
    let keys : List (CaptureEvent F) :=
      match mapKey table seen.keycode with
      | .ok key => [.input (.keyboard (.key 0 key state))]
      | .error _ => []
    ⟨keys ++ [.input (.keyboard (.modifiers (.ofBitVec depressed) 0
      (.ofBitVec (modsLockedOf seen.flags)) 0))], depressed, .ok ()⟩
  | .mouseMoved | .leftMouseDragged | .rightMouseDragged | .otherMouseDragged =>
    ⟨[.input (.pointer (motion seen))], modifierState, .ok ()⟩
  | .leftMouseDown => ⟨[button btnLeft 1], modifierState, .ok ()⟩
  | .leftMouseUp => ⟨[button btnLeft 0], modifierState, .ok ()⟩
  | .rightMouseDown => ⟨[button btnRight 1], modifierState, .ok ()⟩
  | .rightMouseUp => ⟨[button btnRight 0], modifierState, .ok ()⟩
  | .otherMouseDown => ⟨[button (otherButton seen.button) 1], modifierState, .ok ()⟩
  | .otherMouseUp => ⟨[button (otherButton seen.button) 0], modifierState, .ok ()⟩
  | .scrollWheel => ⟨scrolls seen, modifierState, .ok ()⟩
  | .null | .tapDisabledByTimeout | .tapDisabledByUserInput => ⟨[], modifierState, .ok ()⟩

theorem begin_not_mem_scrolls {F : Type} [IntCast F] (seen : Seen F) : .begin ∉ scrolls seen := by
  unfold scrolls
  split_ifs <;> simp

theorem begin_not_mem_getEvents {F : Type} [IntCast F] (table : UInt16 → Option UInt16)
    (seen : Seen F) (modifierState : XMods) :
    .begin ∉ (getEvents table seen modifierState).result := by
  unfold getEvents
  split
  case h_1 | h_2 => cases mapKey table seen.keycode <;> simp
  case h_3 => cases mapKey table seen.keycode <;> simp
  case h_14 => exact begin_not_mem_scrolls seen
  all_goals simp [button]

end HopsFormal.Macos
