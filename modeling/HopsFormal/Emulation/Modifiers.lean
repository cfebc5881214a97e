import HopsFormal.Emulation.InputEmulation
import HopsFormal.Lib.Flags

/-!
# Modifiers of an injected key

The eight modifier keys share four flags, the left and the right key of a kind one.  The lock
keys toggle theirs: on macOS as they go down, on Wayland as they come up.
-/

namespace HopsFormal.Emulation

open Lib

/-- The modifiers of X11, one bit each. -/
abbrev XMods := Flags 32

namespace XMods

def shiftMask : XMods := Flags.flag 0
def lockMask : XMods := Flags.flag 1
def controlMask : XMods := Flags.flag 2
def mod1Mask : XMods := Flags.flag 3
def mod2Mask : XMods := Flags.flag 4
def mod3Mask : XMods := Flags.flag 5
def mod4Mask : XMods := Flags.flag 6
def mod5Mask : XMods := Flags.flag 7

/-- Every flag there is. -/
def all : XMods := 0xFF

/-- None where a bit is set that is no flag. -/
def fromBits (bits : UInt32) : Option XMods :=
  if bits.toBitVec &&& ~~~all = 0 then some bits.toBitVec else none

def fromBitsTruncate (bits : UInt32) : XMods := bits.toBitVec &&& all

end XMods

open XMods

def keyCapsLock : UInt32 := 58
def keyNumlock : UInt32 := 69
def keyScrollLock : UInt32 := 70

/-- Shift, control, alt and meta, each on the left and on the right. -/
def pressedMask : UInt32 → XMods
  | 42 | 54 => shiftMask
  | 29 | 97 => controlMask
  | 56 | 100 => mod1Mask
  | 125 | 126 => mod4Mask
  | _ => 0

def lockedMask (key : UInt32) : XMods :=
  if key = keyCapsLock then lockMask
  else if key = keyNumlock then mod2Mask
  else if key = keyScrollLock then mod3Mask
  else 0

/-! ## macOS -/

/-- What is to be done with a key that may be a modifier. -/
inductive ModifierAction where
  | notModifier
  | post
  | swallow
  deriving DecidableEq

/-- Caps Lock toggles as it goes down, and is not read again before it comes up. -/
def updateModifiers (modifiers : XMods) (capsDown : Bool) (key : UInt32) (state : UInt8) :
    ModifierAction × XMods × Bool :=
  if key = keyCapsLock then
    if state = 1 then
      if capsDown then (.swallow, modifiers, true)
      else (.post, modifiers.toggle lockMask, true)
    else (.post, modifiers, false)
  else if pressedMask key = 0 then (.notModifier, modifiers, capsDown)
  else if state = 1 then (.post, modifiers.insert (pressedMask key), capsDown)
  else (.post, modifiers.remove (pressedMask key), capsDown)

/-- Only what is depressed counts. -/
def setModifiers (depressed : UInt32) : XMods := (fromBits depressed).getD 0

/-! ## Wayland -/

/-- None where a key is no modifier; a lock key toggles as it comes up. -/
def updateByKeyEvent (modifiers : XMods) (key : UInt32) (state : UInt8) : Option XMods :=
  if pressedMask key = 0 ∧ lockedMask key = 0 then none
  else if state = 1 then some (modifiers.insert (pressedMask key))
  else some ((modifiers.remove (pressedMask key)).toggle (lockedMask key))

def updateByModsEvent (depressed locked : UInt32) : XMods :=
  fromBitsTruncate depressed ||| fromBitsTruncate locked

def maskLocks (modifiers : XMods) : XMods :=
  modifiers &&& (lockMask ||| mod2Mask ||| mod3Mask)

def maskPressed (modifiers : XMods) : XMods :=
  modifiers &&& (shiftMask ||| controlMask ||| mod1Mask ||| mod4Mask)

end HopsFormal.Emulation
