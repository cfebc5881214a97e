import HopsFormal.Windows.Displays

/-!
# The mouse hook

The hook sees every move of the pointer before the system does.  A move into the barrier of a
registered edge begins a crossing there.
-/

namespace HopsFormal.Windows

open Capture (CaptureEvent Position)

/-- What the thread of the hook keeps, with the displays as last enumerated and what was pushed. -/
structure Hook (F : Type) where
  clients : List Position
  activeClient : Option Position
  entryPoint : Point
  prevPos : Option Point
  displays : List Rect
  pushed : List (Position × CaptureEvent F)

namespace Hook

variable {F : Type}

/-- Whether a crossing was under way at a message, which is a move or another input. -/
def checkClientActivation (hook : Hook F) (moved : Option Point) : Bool × Hook F :=
  match moved with
  | none => (hook.activeClient.isSome, hook)
  | some currPos =>
    let prevPos := hook.prevPos.getD currPos
    let ret := hook.activeClient.isSome
    let hook := { hook with prevPos := some currPos }
    if ret then (ret, hook)
    else
      match enteredBarrier prevPos currPos hook.displays with
      | none => (ret, hook)
      | some pos =>
        if pos ∈ hook.clients then
          match clampToDisplayBounds hook.displays prevPos currPos with
          | none => (ret, hook)
          | some entryPoint => (ret, { hook with
              activeClient := some pos
              entryPoint := entryPoint
              pushed := hook.pushed ++ [(pos, .begin)] })
        else (ret, hook)

/-- A move begins a crossing at an edge. -/
def Begins (hook : Hook F) (currPos : Point) (pos : Position) : Prop :=
  (hook.checkClientActivation (some currPos)).2.activeClient = some pos ∧
    (hook.checkClientActivation (some currPos)).2.pushed = hook.pushed ++ [(pos, .begin)]

/-- The pointer was on a display, and no crossing is under way. -/
structure Free (hook : Hook F) (currPos : Point) : Prop where
  none : hook.activeClient = none
  inside : inDisplayRegion (hook.prevPos.getD currPos) hook.displays = true

variable {hook : Hook F} {currPos : Point}

end Hook

end HopsFormal.Windows
