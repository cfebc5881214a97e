import Mathlib.Data.BitVec
import Mathlib.Data.Fintype.Basic

/-!
# What a lease permits

Four bits, named from this machine's point of view: who may drive whom, and
which way the clipboard goes.  A bit the build does not enforce cannot be
carried, so a value of `Caps` is one of sixteen.
-/

namespace HopsFormal.Trust

/-- Capabilities as bits, unknown bits dropped at construction. -/
structure Caps where
  bits : BitVec 16
  known : bits &&& 0x000f#16 = bits
  deriving DecidableEq

namespace Caps

/-- Wrap raw bits, dropping anything not enforced. -/
def fromBitsTruncating (bits : BitVec 16) : Caps :=
  ⟨bits &&& 0x000f#16, by rw [BitVec.and_assoc, BitVec.and_self]⟩

def none : Caps := ⟨0x0000#16, by decide⟩

/-- The peer may inject input into this machine. -/
def driveMe : Caps := ⟨0x0001#16, by decide⟩

/-- This machine may inject input into the peer. -/
def iMayDrive : Caps := ⟨0x0002#16, by decide⟩

/-- Accept clipboard contents sent by the peer. -/
def clipboardFrom : Caps := ⟨0x0004#16, by decide⟩

/-- Send this machine's clipboard to the peer. -/
def clipboardTo : Caps := ⟨0x0008#16, by decide⟩

variable (self : Caps)

@[grind =]
def contains (other : Caps) : Bool := self.bits &&& other.bits == other.bits

def intersects (other : Caps) : Bool := self.bits &&& other.bits != 0#16

def union (other : Caps) : Caps :=
  ⟨self.bits ||| other.bits, by
    rw [BitVec.and_comm, BitVec.and_or_distrib_left, BitVec.and_comm, self.known,
      BitVec.and_comm, other.known]⟩

def intersection (other : Caps) : Caps :=
  ⟨self.bits &&& other.bits, by rw [BitVec.and_assoc, other.known]⟩

/-- `self` with every bit of `other` cleared. -/
def without (other : Caps) : Caps :=
  ⟨self.bits &&& ~~~other.bits, by
    rw [BitVec.and_assoc, BitVec.and_comm (~~~other.bits), ← BitVec.and_assoc, self.known]⟩

def isEmpty : Bool := self.bits == 0#16

def clipboard : Caps := clipboardFrom.union clipboardTo

def drive : Caps := driveMe.union iMayDrive

theorem ext {one other : Caps} (same : one.bits = other.bits) : one = other := by
  cases one
  cases other
  cases same
  rfl

/-- Every value of `Caps` is one of sixteen. -/
instance : Fintype Caps where
  elems := Finset.univ.image fun n : Fin 16 => fromBitsTruncating (BitVec.ofNat 16 n)
  complete := by
    intro caps
    have small : caps.bits.toNat < 16 := by
      rw [← caps.known, BitVec.toNat_and]
      exact lt_of_le_of_lt Nat.and_le_right (by decide)
    refine Finset.mem_image.mpr ⟨⟨caps.bits.toNat, small⟩, Finset.mem_univ _, ?_⟩
    apply ext
    simp [fromBitsTruncating, caps.known]

@[simp]
theorem fromBitsTruncating_bits (caps : Caps) : fromBitsTruncating caps.bits = caps :=
  ext caps.known

end Caps

def existingPairingClipboard (drive : Caps) : Caps :=
  let clipboard := Caps.none
  let clipboard := if drive.contains .driveMe then clipboard.union .clipboardFrom else clipboard
  if drive.contains .iMayDrive then clipboard.union .clipboardTo else clipboard

/-- A person's answer about which machine controls which. -/
inductive Controller where
  | thisMachine
  | thatMachine
  | both
  deriving DecidableEq

instance : Fintype Controller where
  elems := {.thisMachine, .thatMachine, .both}
  complete := by
    intro controller
    cases controller <;> decide

def driveOf : Controller → Caps
  | .thisMachine => .iMayDrive
  | .thatMachine => .driveMe
  | .both => .drive

/-- The answer that grants exactly the drive bits in `caps`, if any does. -/
def controllerOf (caps : Caps) : Option Controller :=
  match caps.contains .iMayDrive, caps.contains .driveMe with
  | true, true => some .both
  | true, false => some .thisMachine
  | false, true => some .thatMachine
  | false, false => none

/-! ## Facts about the sixteen values -/

namespace Caps

variable (caps : Caps)

theorem contains_refl : caps.contains caps = true := by
  simp [contains]

theorem contains_none : caps.contains none = true := by
  simp [contains, none]

theorem contains_trans {one two three : Caps} (first : one.contains two = true)
    (second : two.contains three = true) : one.contains three = true := by
  simp only [contains, beq_iff_eq] at *
  rw [← second, ← BitVec.and_assoc, first]

theorem union_grants {caps : Caps} (grants : caps.isEmpty = false) (more : Caps) :
    (caps.union more).isEmpty = false := by
  revert caps more
  decide

theorem contains_without (dropped : Caps) : caps.contains (caps.without dropped) = true := by
  simp only [contains, without, beq_iff_eq]
  rw [← BitVec.and_assoc, BitVec.and_self]

theorem drive_without_clipboard :
    (caps.without clipboard).intersection drive = caps.intersection drive := by
  revert caps
  decide

theorem drive_union_existing :
    (caps.union (existingPairingClipboard caps)).intersection drive = caps.intersection drive := by
  revert caps
  decide

theorem drive_union_clipboard :
    (caps.intersection drive).union (caps.intersection clipboard) = caps := by
  revert caps
  decide

end Caps

theorem controllerOf_some {caps : Caps} {controller : Controller}
    (found : controllerOf caps = some controller) :
    caps.intersection .drive = driveOf controller := by
  revert caps controller
  decide

theorem existingPairingClipboard_drive (caps : Caps) :
    existingPairingClipboard (caps.intersection .drive) = existingPairingClipboard caps := by
  revert caps
  decide

end HopsFormal.Trust
