import HopsFormal.Emulation.Modifiers

/-!
# Injecting keys on macOS

Keys are posted by their macOS codes.  One key at a time repeats: a task posts it down again
and again, and up when it is cancelled.
-/

namespace HopsFormal.Emulation

variable {F : Type}

/-- What is posted to the system: keys, changes of the modifiers, and media keys. -/
inductive Posted where
  | key (code : UInt16) (down : Bool) (modifiers : XMods)
  | flagsChanged (code : UInt16) (modifiers : XMods)
  | media (keytype : UInt8) (down : Bool)

structure MacOs where
  modifierState : XMods
  capsDown : Bool
  /-- The key that repeats. -/
  repeatTask : Option UInt16
  posted : List Posted

/-- Volume, mute and playing are not keys to macOS. -/
def evdevToNxKeytype : UInt32 → Option UInt8
  | 115 => some 0
  | 114 => some 1
  | 113 => some 7
  | 164 => some 16
  | 163 => some 17
  | 165 => some 18
  | _ => none

namespace MacOs

def start : MacOs where
  modifierState := 0
  capsDown := false
  repeatTask := none
  posted := []

def post (macOs : MacOs) (posted : Posted) : MacOs :=
  { macOs with posted := macOs.posted ++ [posted] }

/-- The task posts its key up as it ends. -/
def cancelRepeatTask (macOs : MacOs) : MacOs :=
  match macOs.repeatTask with
  | none => macOs
  | some key => { macOs with repeatTask := none }.post (.key key false macOs.modifierState)

def spawnRepeatTask (macOs : MacOs) (key : UInt16) : MacOs :=
  { macOs.cancelRepeatTask with repeatTask := some key }.post (.key key true macOs.modifierState)

/-- The timer of the task runs out; one that does while the task ends counts as one before. -/
def tick (macOs : MacOs) : MacOs :=
  match macOs.repeatTask with
  | none => macOs
  | some key => macOs.post (.key key true macOs.modifierState)

section Keys

-- the macOS code of a key, by a table outside the program; whether media keys can be posted
variable (mac : UInt16 → Option UInt16) (hidConnect : Bool)

def consumeKey (macOs : MacOs) (key : UInt32) (state : UInt8) : MacOs :=
  match evdevToNxKeytype key with
  | some keytype => if hidConnect then macOs.post (.media keytype (state = 1)) else macOs
  | none =>
    match mac key.toUInt16 with
    | none => macOs
    | some code =>
      match updateModifiers macOs.modifierState macOs.capsDown key state with
      | (.post, modifiers, capsDown) =>
        { macOs with modifierState := modifiers, capsDown := capsDown }.post
          (.flagsChanged code modifiers)
      | (.swallow, modifiers, capsDown) =>
        { macOs with modifierState := modifiers, capsDown := capsDown }
      | (.notModifier, _, _) =>
        if state = 1 then macOs.spawnRepeatTask code else macOs.cancelRepeatTask

/-- A call of the layer above; the pointer has no part in the keys. -/
def call (macOs : MacOs) : Call F → MacOs
  | .consume (.keyboard (.key _ key state)) _ => macOs.consumeKey mac hidConnect key state
  | .consume (.keyboard (.modifiers depressed _ _ _)) _ =>
    { macOs with modifierState := setModifiers depressed }
  | .consume (.pointer _) _ => macOs
  | .create _ => { macOs with capsDown := false }
  | .destroy _ => { macOs.cancelRepeatTask with modifierState := 0 }
  | .terminate => { macOs.cancelRepeatTask with modifierState := 0 }

/-- The backend once some calls are made of it. -/
def after (calls : List (Call F)) : MacOs := calls.foldl (call mac hidConnect) start

theorem after_concat (calls : List (Call F)) (made : Call F) :
    after mac hidConnect (calls ++ [made]) = (after mac hidConnect calls).call mac hidConnect made := by
  rw [after, List.foldl_append]
  rfl

end Keys

end MacOs

end HopsFormal.Emulation
