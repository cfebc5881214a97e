import HopsFormal.Capture.InputEvent
import HopsFormal.Lib.BigEndian
import HopsFormal.Lib.Buffers
import Mathlib.Data.Vector.Basic

/-!
# The wire codec

One event is a tag and its fields in a buffer of twenty-one bytes, numbers with
the most significant byte first.  Floating-point numbers are their bit
patterns.  A reader or a writer that would run past the end of its buffer
faults, as slicing does there.
-/

namespace HopsFormal.Wire

open Lib Capture

/-- The largest an encoded event gets, which a relative motion does. -/
def maxEventSize : Nat := 1 + 4 + 2 * 8

/--
An event of the protocol.  `F` stands for the wide and `G` for the narrow
floating-point numbers.
-/
inductive ProtoEvent (F G : Type) where
  | enter (position : Position)
  | leave (serial : UInt32)
  | ack (serial : UInt32)
  | input (event : Event F)
  | ping
  | pong (alive : Bool)
  | hello (commit : List.Vector UInt8 8)
  | capability (flags : UInt32)
  | pointerMotionAbsolute (seq ts : UInt32) (vx vy : G)

/-- An event with the bit patterns of its floating-point numbers. -/
abbrev WireEvent := ProtoEvent UInt64 UInt32

inductive EventType where
  | pointerMotion
  | pointerButton
  | pointerAxis
  | pointerAxisValue120
  | keyboardKey
  | keyboardModifiers
  | ping
  | pong
  | enter
  | leave
  | ack
  | hello
  | capability
  | pointerMotionAbsolute
  deriving DecidableEq

namespace EventType

def tag : EventType → UInt8
  | .pointerMotion => 0
  | .pointerButton => 1
  | .pointerAxis => 2
  | .pointerAxisValue120 => 3
  | .keyboardKey => 4
  | .keyboardModifiers => 5
  | .ping => 6
  | .pong => 7
  | .enter => 8
  | .leave => 9
  | .ack => 10
  | .hello => 11
  | .capability => 12
  | .pointerMotionAbsolute => 13

def ofTag? : UInt8 → Option EventType
  | 0 => some .pointerMotion
  | 1 => some .pointerButton
  | 2 => some .pointerAxis
  | 3 => some .pointerAxisValue120
  | 4 => some .keyboardKey
  | 5 => some .keyboardModifiers
  | 6 => some .ping
  | 7 => some .pong
  | 8 => some .enter
  | 9 => some .leave
  | 10 => some .ack
  | 11 => some .hello
  | 12 => some .capability
  | 13 => some .pointerMotionAbsolute
  | _ => none

@[simp]
theorem ofTag?_tag (type : EventType) : ofTag? type.tag = some type := by
  cases type <;> rfl

theorem tag_of_ofTag? {number : UInt8} {type : EventType} (known : ofTag? number = some type) :
    number = type.tag := by
  unfold ofTag? at known
  split at known <;> cases known <;> rfl

/-- How many bytes an event of this type takes. -/
def width : EventType → Nat
  | .pointerMotion => 21
  | .pointerButton => 13
  | .pointerAxis => 14
  | .pointerAxisValue120 => 6
  | .keyboardKey => 10
  | .keyboardModifiers => 17
  | .ping => 1
  | .pong => 2
  | .enter => 2
  | .leave => 5
  | .ack => 5
  | .hello => 9
  | .capability => 5
  | .pointerMotionAbsolute => 17

end EventType

def ProtoEvent.eventType {F G : Type} : ProtoEvent F G → EventType
  | .input (.pointer (.motion ..)) => .pointerMotion
  | .input (.pointer (.button ..)) => .pointerButton
  | .input (.pointer (.axis ..)) => .pointerAxis
  | .input (.pointer (.axisDiscrete120 ..)) => .pointerAxisValue120
  | .input (.keyboard (.key ..)) => .keyboardKey
  | .input (.keyboard (.modifiers ..)) => .keyboardModifiers
  | .ping => .ping
  | .pong _ => .pong
  | .enter _ => .enter
  | .leave _ => .leave
  | .ack _ => .ack
  | .hello _ => .hello
  | .capability _ => .capability
  | .pointerMotionAbsolute .. => .pointerMotionAbsolute

/-- Why an event is refused. -/
inductive ProtocolError where
  | invalidEventId (number : UInt8)
  | invalidPosition (number : UInt8)
  | outOfDomain (field : String) (value max : UInt32)

/-- How reading a buffer ends without an event. -/
inductive Fault where
  | outOfRange
  | protocol (error : ProtocolError)

/-! ## Writing -/

def encodeU8 (n : UInt8) : Encoder := put (beBytes 1 n.toNat)

def encodeU32 (n : UInt32) : Encoder := put (beBytes 4 n.toNat)

def encodeI32 (n : Int32) : Encoder := put (beBytes 4 n.toUInt32.toNat)

def encodeF64 (bits : UInt64) : Encoder := put (beBytes 8 bits.toNat)

def encodeF32 (bits : UInt32) : Encoder := put (beBytes 4 bits.toNat)

def positionTag : Position → UInt8
  | .left => 0
  | .right => 1
  | .top => 2
  | .bottom => 3

def positionOfTag? : UInt8 → Option Position
  | 0 => some .left
  | 1 => some .right
  | 2 => some .top
  | 3 => some .bottom
  | _ => none

/-- One byte after another. -/
def encodeEach : List UInt8 → Encoder
  | [] => pure ()
  | byte :: rest => do
      encodeU8 byte
      encodeEach rest

def encodeFields : WireEvent → Encoder
  | .input (.pointer (.motion time dx dy)) => do
      encodeU32 time
      encodeF64 dx
      encodeF64 dy
  | .input (.pointer (.button time button state)) => do
      encodeU32 time
      encodeU32 button
      encodeU32 state
  | .input (.pointer (.axis time axis value)) => do
      encodeU32 time
      encodeU8 axis
      encodeF64 value
  | .input (.pointer (.axisDiscrete120 axis value)) => do
      encodeU8 axis
      encodeI32 value
  | .input (.keyboard (.key time key state)) => do
      encodeU32 time
      encodeU32 key
      encodeU8 state
  | .input (.keyboard (.modifiers depressed latched locked group)) => do
      encodeU32 depressed
      encodeU32 latched
      encodeU32 locked
      encodeU32 group
  | .ping => pure ()
  | .pong alive => encodeU8 (if alive then 1 else 0)
  | .enter position => encodeU8 (positionTag position)
  | .leave serial => encodeU32 serial
  | .ack serial => encodeU32 serial
  | .hello commit => encodeEach commit.toList
  | .capability flags => encodeU32 flags
  | .pointerMotionAbsolute seq ts vx vy => do
      encodeU32 seq
      encodeU32 ts
      encodeF32 vx
      encodeF32 vy

/-- The buffer of an event and how much of it the event takes; none past the end. -/
def encode (event : WireEvent) : Option (List UInt8 × Nat) := do
  let start : Writer := ⟨[], List.replicate maxEventSize 0, 0⟩
  let ((), writer) ← (do
    encodeU8 event.eventType.tag
    encodeFields event : Encoder).run start
  some (writer.done ++ writer.rest, writer.len)

/-! ## Reading -/

abbrev Decoder := Reader Fault

def decodeU8 : Decoder UInt8 := do
  let bytes ← splitAt .outOfRange 1
  pure (UInt8.ofNat (ofBeBytes bytes))

def decodeU32 : Decoder UInt32 := do
  let bytes ← splitAt .outOfRange 4
  pure (UInt32.ofNat (ofBeBytes bytes))

def decodeI32 : Decoder Int32 := do
  let bytes ← splitAt .outOfRange 4
  pure (Int32.ofUInt32 (UInt32.ofNat (ofBeBytes bytes)))

/-- The exponent of a finite number is not all ones. -/
def finite64 (bits : UInt64) : Bool := bits.toNat / 2 ^ 52 % 2 ^ 11 ≠ 2 ^ 11 - 1

def finite32 (bits : UInt32) : Bool := bits.toNat / 2 ^ 23 % 2 ^ 8 ≠ 2 ^ 8 - 1

/-- A number that is not finite is read as zero. -/
def decodeF64 : Decoder UInt64 := do
  let bytes ← splitAt .outOfRange 8
  let bits := UInt64.ofNat (ofBeBytes bytes)
  pure (if finite64 bits then bits else 0)

def decodeF32 : Decoder UInt32 := do
  let bytes ← splitAt .outOfRange 4
  let bits := UInt32.ofNat (ofBeBytes bytes)
  pure (if finite32 bits then bits else 0)

/-- Refuse a field outside the domain every backend assumes. -/
def inDomain (field : String) (value max : UInt32) : Decoder UInt32 :=
  if max < value then throw (.protocol (.outOfDomain field value max)) else pure value

/-- As many bytes as asked for, one after another. -/
def decodeEach : (count : Nat) → Decoder (List.Vector UInt8 count)
  | 0 => pure .nil
  | count + 1 => do
      let byte ← decodeU8
      let rest ← decodeEach count
      pure (byte ::ᵥ rest)

def decodeFields : EventType → Decoder WireEvent
  | .pointerMotion => do
      let time ← decodeU32
      let dx ← decodeF64
      let dy ← decodeF64
      pure (.input (.pointer (.motion time dx dy)))
  | .pointerButton => do
      let time ← decodeU32
      let button ← decodeU32
      let state ← inDomain "pointer button state" (← decodeU32) 1
      pure (.input (.pointer (.button time button state)))
  | .pointerAxis => do
      let time ← decodeU32
      let axis ← inDomain "pointer axis" (← decodeU8).toUInt32 1
      let value ← decodeF64
      pure (.input (.pointer (.axis time axis.toUInt8 value)))
  | .pointerAxisValue120 => do
      let axis ← inDomain "pointer axis" (← decodeU8).toUInt32 1
      let value ← decodeI32
      pure (.input (.pointer (.axisDiscrete120 axis.toUInt8 value)))
  | .keyboardKey => do
      let time ← decodeU32
      let key ← decodeU32
      let state ← inDomain "key state" (← decodeU8).toUInt32 1
      pure (.input (.keyboard (.key time key state.toUInt8)))
  | .keyboardModifiers => do
      let depressed ← decodeU32
      let latched ← decodeU32
      let locked ← decodeU32
      let group ← decodeU32
      pure (.input (.keyboard (.modifiers depressed latched locked group)))
  | .ping => pure .ping
  | .pong => do
      let alive ← decodeU8
      pure (.pong (alive ≠ 0))
  | .enter => do
      let number ← decodeU8
      match positionOfTag? number with
      | some position => pure (.enter position)
      | none => throw (.protocol (.invalidPosition number))
  | .leave => do
      let serial ← decodeU32
      pure (.leave serial)
  | .ack => do
      let serial ← decodeU32
      pure (.ack serial)
  | .hello => do
      let commit ← decodeEach 8
      pure (.hello commit)
  | .capability => do
      let flags ← decodeU32
      pure (.capability flags)
  | .pointerMotionAbsolute => do
      let seq ← decodeU32
      let ts ← decodeU32
      let vx ← decodeF32
      let vy ← decodeF32
      pure (.pointerMotionAbsolute seq ts vx vy)

def decodeEvent : Decoder WireEvent := do
  let number ← decodeU8
  match EventType.ofTag? number with
  | some type => decodeFields type
  | none => throw (.protocol (.invalidEventId number))

/-- The event a buffer holds; what it holds past the event is not looked at. -/
def decode (buffer : List UInt8) : Except Fault WireEvent :=
  (decodeEvent.run buffer).map Prod.fst

end HopsFormal.Wire
