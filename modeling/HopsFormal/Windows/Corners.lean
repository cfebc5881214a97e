import HopsFormal.Macos.Crossings
import HopsFormal.Windows.Hook
import Mathlib.Algebra.Ring.Int.Defs

/-!
# A push through a corner

A move can go beyond two sides at once.  On Windows the first side beyond which it goes decides,
registered or not.  On macOS the registered sides are walked in the order of a hash set, which is
not determined by the set.
-/

namespace HopsFormal

open Capture (CaptureEvent Position)

namespace Windows.Hook

variable {F : Type}

end Windows.Hook

namespace Macos

variable {F : Type} [IntCast F] [Add F] [Sub F] [One F] [LE F] [DecidableLE F]

/-- The pointer goes beyond the area on a side. -/
def Shared.beyond (shared : Shared F) (seen : Seen F) : Position → Bool
  | .left => decide (seen.x + seen.dx ≤ shared.bounds.xmin)
  | .right => decide (shared.bounds.xmax ≤ seen.x + seen.dx)
  | .top => decide (seen.y + seen.dy ≤ shared.bounds.ymin)
  | .bottom => decide (shared.bounds.ymax ≤ seen.y + seen.dy)

namespace Core

/-- The taps see a move, no crossing is under way and no edge cools down. -/
structure Free (core : Core F) (seen : Seen F) (now : Nat) : Prop where
  running : core.halted = false
  apart : core.currentPos = none
  cooled : ∀ cooling ∈ core.cooldown, ¬now < cooling.2
  moved : seen.ty = .mouseMoved

variable (table : UInt16 → Option UInt16)

/-- An event begins a crossing at an edge. -/
def Begins (core : Core F) (seen : Seen F) (now : Nat) (busy granted : Bool) (pos : Position) :
    Prop :=
  (core.onEvent table .listen seen now busy granted).2.currentPos = some pos ∧
    ∃ more, (core.onEvent table .listen seen now busy granted).2.did = core.did ++ more ∧
      .send pos .begin ∈ more

section

omit [IntCast F] [LE F] [DecidableLE F]

end

end Core

end Macos

/-! ## Both backends -/

section Both

open Windows Macos

variable {F : Type} [IntCast F] [Add F] [Sub F] [One F] [LE F] [DecidableLE F]

end Both

end HopsFormal
