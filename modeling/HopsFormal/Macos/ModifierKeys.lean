import HopsFormal.Macos.Crossings
import Mathlib.Logic.Function.Basic

/-!
# Whether a modifier key went down

A change of the modifiers says which key it is about and what is held, but not whether the key
went down.  That is told by comparing the modifiers, as numbers, with those remembered from the
last change that was seen in a crossing.
-/

namespace HopsFormal.Macos

open Capture (CaptureEvent Position)
open Lib

variable {F : Type}

/-! ## Marks -/

/-- The modifiers an event is captured with, the lowest first. -/
inductive Mark where
  | shift
  | capsLock
  | control
  | alternate
  | command
  deriving DecidableEq

namespace Mark

/-- Where a mark stands among the modifiers that are compared. -/
def bit : Mark → Nat
  | .shift => 0
  | .capsLock => 1
  | .control => 2
  | .alternate => 3
  | .command => 6

/-- Where a mark stands in the flags of an event. -/
def flagBit : Mark → Nat
  | .shift => 17
  | .capsLock => 16
  | .control => 18
  | .alternate => 19
  | .command => 20

/-- The mark is set in the flags of an event. -/
def shown (flags : CGEventFlags) (mark : Mark) : Bool := flags.getLsbD mark.flagBit

end Mark

variable (flags : CGEventFlags)

theorem contains_flag {i : Nat} (inside : i < 64) :
    flags.contains (Flags.flag i) = flags.getLsbD i := by
  rw [CGEventFlags.contains, Bool.eq_iff_iff, decide_eq_true_eq]
  exact Flags.and_flag_eq inside

/-- The modifiers have a bit set exactly for each mark that is shown. -/
theorem getLsbD_depressedOf (i : Nat) :
    (depressedOf flags).getLsbD i = true ↔ ∃ mark : Mark, mark.bit = i ∧ mark.shown flags = true := by
  have insertIf : ∀ (mods : XMods) (set : Bool) (j : Nat), j < 32 →
      ((if set then mods.insert (Flags.flag j) else mods).getLsbD i = true ↔
        mods.getLsbD i = true ∨ set = true ∧ j = i) := by
    intro mods set j inside
    split_ifs with isSet
    · rw [Flags.getLsbD_insert, Flags.getLsbD_flag, Bool.or_eq_true, decide_eq_true_eq]
      refine or_congr Iff.rfl ⟨fun there => ⟨isSet, there.2⟩, fun there => ⟨?_, there.2⟩⟩
      exact there.2 ▸ inside
    · exact (or_iff_left fun there => isSet there.1).symm
  have none_ : (0 : XMods).getLsbD i = false := BitVec.getLsbD_zero
  unfold depressedOf
  rw [XMods.lockMask, insertIf _ _ _ (by decide), XMods.mod4Mask, insertIf _ _ _ (by decide),
    XMods.mod1Mask, insertIf _ _ _ (by decide), XMods.controlMask, insertIf _ _ _ (by decide),
    XMods.shiftMask, insertIf _ _ _ (by decide), none_]
  rw [CGEventFlags.alphaShift, contains_flag _ (by decide), CGEventFlags.command,
    contains_flag _ (by decide), CGEventFlags.alternate, contains_flag _ (by decide),
    CGEventFlags.control, contains_flag _ (by decide), CGEventFlags.shift,
    contains_flag _ (by decide)]
  constructor
  · rintro (((((off | ⟨shown, rfl⟩) | ⟨shown, rfl⟩) | ⟨shown, rfl⟩) | ⟨shown, rfl⟩) | ⟨shown, rfl⟩)
    · cases off
    · exact ⟨.shift, rfl, shown⟩
    · exact ⟨.control, rfl, shown⟩
    · exact ⟨.alternate, rfl, shown⟩
    · exact ⟨.command, rfl, shown⟩
    · exact ⟨.capsLock, rfl, shown⟩
  · rintro ⟨mark, rfl, shown⟩
    cases mark with
    | shift => exact .inl (.inl (.inl (.inl (.inr ⟨shown, rfl⟩))))
    | capsLock => exact .inr ⟨shown, rfl⟩
    | control => exact .inl (.inl (.inl (.inr ⟨shown, rfl⟩)))
    | alternate => exact .inl (.inl (.inr ⟨shown, rfl⟩))
    | command => exact .inl (.inr ⟨shown, rfl⟩)

/-- Of the marks that two events differ in, the highest is set in the later one. -/
def HighestSet (before after : CGEventFlags) : Prop :=
  ∃ mark : Mark, mark.shown before = false ∧ mark.shown after = true ∧
    ∀ other : Mark, mark.bit < other.bit → other.shown before = other.shown after

theorem Mark.bit_injective : Function.Injective Mark.bit := by
  intro mark other same
  cases mark <;> cases other <;> first | rfl | cases same

theorem getLsbD_mark (mark : Mark) : (depressedOf flags).getLsbD mark.bit = mark.shown flags := by
  rw [Bool.eq_iff_iff, getLsbD_depressedOf]
  constructor
  · rintro ⟨other, same, shown⟩
    exact Mark.bit_injective same ▸ shown
  · intro shown
    exact ⟨mark, rfl, shown⟩

/-- The modifiers compare above those before exactly by the highest mark. -/
theorem depressedOf_lt_iff {before after : CGEventFlags} :
    depressedOf before < depressedOf after ↔ HighestSet before after := by
  rw [Flags.lt_iff]
  constructor
  · rintro ⟨i, unset, set, above⟩
    obtain ⟨mark, rfl, shown⟩ := (getLsbD_depressedOf after i).mp set
    rw [getLsbD_mark] at unset
    refine ⟨mark, unset, shown, fun other higher => ?_⟩
    rw [← getLsbD_mark, ← getLsbD_mark]
    exact above other.bit higher
  · rintro ⟨mark, unset, set, above⟩
    refine ⟨mark.bit, (getLsbD_mark _ _).trans unset, (getLsbD_mark _ _).trans set, ?_⟩
    intro j higher
    rw [Bool.eq_iff_iff, getLsbD_depressedOf, getLsbD_depressedOf]
    constructor
    · rintro ⟨other, rfl, shown⟩
      exact ⟨other, rfl, (above other higher) ▸ shown⟩
    · rintro ⟨other, rfl, shown⟩
      exact ⟨other, rfl, (above other higher).symm ▸ shown⟩

/-! ## The keyboard -/

/-- The modifiers that a key is held for; Caps Lock is none of them. -/
inductive Modifier where
  | shift
  | control
  | alternate
  | command
  deriving DecidableEq

def Modifier.mark : Modifier → Mark
  | .shift => .shift
  | .control => .control
  | .alternate => .alternate
  | .command => .command

/-- Each modifier has a key on the left and one on the right. -/
structure ModifierKey where
  modifier : Modifier
  onRight : Bool
  deriving DecidableEq

namespace ModifierKey

def code : ModifierKey → Int64
  | ⟨.shift, false⟩ => 56
  | ⟨.shift, true⟩ => 60
  | ⟨.control, false⟩ => 59
  | ⟨.control, true⟩ => 62
  | ⟨.alternate, false⟩ => 58
  | ⟨.alternate, true⟩ => 61
  | ⟨.command, false⟩ => 55
  | ⟨.command, true⟩ => 54

end ModifierKey

def setFlag (bit : Nat) (on : Bool) : CGEventFlags :=
  if on then flags.insert (Flags.flag bit) else flags.remove (Flags.flag bit)

/-- The flags of an event while keys are held: one for both keys of a modifier. -/
def flagsOf (held : ModifierKey → Bool) (others : CGEventFlags) : CGEventFlags :=
  [Modifier.shift, .control, .alternate, .command].foldl
    (fun flags modifier =>
      setFlag flags modifier.mark.flagBit (held ⟨modifier, false⟩ || held ⟨modifier, true⟩)) others

end HopsFormal.Macos
