import HopsFormal.Emulation.Modifiers
import HopsFormal.Lib.Table

/-!
# Injecting through virtual devices

Each handle has a virtual pointer and a virtual keyboard of its own.  What is asked of them is
queued and flushed to the compositor.  A flush that finds the connection full is remembered, and
the event after it is discarded unless a flush before it goes through.
-/

namespace HopsFormal.Emulation

open Capture (Event PointerEvent KeyboardEvent)
open Lib

variable {F : Type}

/--
The modifiers of each handle's keyboard, the flushes made, and what was asked of the devices of
a handle, in the words of the layer above.
-/
structure Wlroots (F : Type) where
  lastFlushFailed : Bool
  inputForClient : Table Handle XMods
  flushes : Nat
  queued : List (Call F)

/-- What the devices of a handle are asked for an event, and the modifiers they have then; none
for what the protocol has no value for. -/
def consumeEvent (modifiers : XMods) : Event F → Option (XMods × List (Event F))
  | .pointer (.motion time dx dy) => some (modifiers, [.pointer (.motion time dx dy)])
  | .pointer (.button time button state) =>
    if state ≤ 1 then some (modifiers, [.pointer (.button time button state)]) else none
  | .pointer (.axis time axis value) =>
    if axis ≤ 1 then some (modifiers, [.pointer (.axis time axis value)]) else none
  | .pointer (.axisDiscrete120 axis value) =>
    if axis ≤ 1 then some (modifiers, [.pointer (.axisDiscrete120 axis value)]) else none
  | .keyboard (.key time key state) =>
    match updateByKeyEvent modifiers key state with
    | none => some (modifiers, [.keyboard (.key time key state)])
    | some changed =>
      some (changed, [.keyboard (.key time key state),
        .keyboard (.modifiers (.ofBitVec (maskPressed changed)) 0
          (.ofBitVec (maskLocks changed)) 0)])
  | .keyboard (.modifiers depressed latched locked group) =>
    some (updateByModsEvent depressed locked,
      [.keyboard (.modifiers depressed latched locked group)])

namespace Wlroots

def start : Wlroots F where
  lastFlushFailed := false
  inputForClient := ∅
  flushes := 0
  queued := []

variable (wlroots : Wlroots F)

def flush : Wlroots F :=
  { wlroots with flushes := wlroots.flushes + 1 }

@[simp]
theorem flush_queued : wlroots.flush.queued = wlroots.queued := rfl

@[simp]
theorem flush_inputForClient : wlroots.flush.inputForClient = wlroots.inputForClient := rfl

section Flushes

-- whether a flush, numbered by those before it, finds the connection full
variable (full : Nat → Bool) (wlroots : Wlroots F)

def consume (event : Event F) (handle : Handle) : Wlroots F :=
  match wlroots.inputForClient.lookup handle with
  | none => wlroots
  | some modifiers =>
    let checked := if wlroots.lastFlushFailed then wlroots.flush else wlroots
    -- more events would overwhelm the buffer
    if wlroots.lastFlushFailed && full wlroots.flushes then checked
    else
      match consumeEvent modifiers event with
      | none => checked
      | some (changed, asked) =>
        flush { checked with
          inputForClient := checked.inputForClient.insert handle changed
          queued := checked.queued ++ asked.map (.consume · handle)
          lastFlushFailed := full checked.flushes }

/-- A keymap has come before any call is made. -/
def create (handle : Handle) : Wlroots F :=
  flush { wlroots with
    inputForClient := wlroots.inputForClient.insert handle 0
    queued := wlroots.queued ++ [.create handle] }

def destroy (handle : Handle) : Wlroots F :=
  if handle ∈ wlroots.inputForClient then
    flush { wlroots with
      inputForClient := wlroots.inputForClient.erase handle
      queued := wlroots.queued ++ [.destroy handle] }
  else wlroots.flush

def call : Call F → Wlroots F
  | .consume event handle => wlroots.consume full event handle
  | .create handle => wlroots.create handle
  | .destroy handle => wlroots.destroy handle
  | .terminate => wlroots

/-- The backend once some calls are made of it. -/
def after (calls : List (Call F)) : Wlroots F := calls.foldl (call full) start

theorem after_concat (calls : List (Call F)) (made : Call F) :
    after full (calls ++ [made]) = (after full calls).call full made := by
  rw [after, List.foldl_append]
  rfl

end Flushes

end Wlroots

end HopsFormal.Emulation
