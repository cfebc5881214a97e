import HopsFormal.Macos.Seen
import HopsFormal.Windows.Hook

/-!
# The hook procedures

Each hook procedure answers whether an event goes on to the applications of this machine.  While
a crossing is under way it does not, but for the lock keys: the system would take every repeat of
one that does not reach it for another press.
-/

namespace HopsFormal.Windows

open Capture (CaptureEvent Event KeyboardEvent PointerEvent Position)
open Macos (btnLeft btnRight btnMiddle btnBack btnForward)

inductive MouseMessage where
  | lButtonDown
  | lButtonUp
  | mButtonDown
  | mButtonUp
  | rButtonDown
  | rButtonUp
  | xButtonDown
  | xButtonUp
  | mouseMove
  | mouseWheel
  | mouseHWheel
  | other (message : Nat)
  deriving DecidableEq

structure MouseLowLevel where
  pt : Point
  mouseData : UInt32

inductive KeyMessage where
  | keyDown
  | keyUp
  | sysKeyDown
  | sysKeyUp
  | other (message : Nat)

structure KeyLowLevel where
  vkCode : UInt32
  scanCode : UInt32
  extended : Bool

/-- Media keys have no scan code. -/
def mediaVkToEvdev : UInt32 → Option UInt32
  | 0xAD => some 113
  | 0xAE => some 114
  | 0xAF => some 115
  | 0xB0 => some 163
  | 0xB1 => some 165
  | 0xB2 => some 166
  | 0xB3 => some 164
  | _ => none

def isLockVk (vk : UInt32) : Bool := vk = 0x14 || vk = 0x90 || vk = 0x91

/-- The side button a message is about. -/
def xButton (mouseData : UInt32) : Option UInt32 :=
  if mouseData >>> 16 = 1 then some btnBack
  else if mouseData >>> 16 = 2 then some btnForward
  else none

section Keys

-- the Linux code of a Windows scan code, by the tables of keys
variable (linuxScancode : UInt32 → Option UInt32)

def evdevOf (key : KeyLowLevel) : Option UInt32 :=
  match mediaVkToEvdev key.vkCode with
  | some evdev => some evdev
  | none => linuxScancode (if key.extended then key.scanCode ||| 0xE000 else key.scanCode)

def toKeyEvent (message : KeyMessage) (key : KeyLowLevel) : Option KeyboardEvent :=
  match evdevOf linuxScancode key with
  | none => none
  | some code =>
    match message with
    | .keyDown | .sysKeyDown => some (.key 0 code 1)
    | .keyUp | .sysKeyUp => some (.key 0 code 0)
    | .other _ => none

end Keys

inductive ClientUpdate where
  | create (pos : Position)
  | destroy (pos : Position)

namespace Hook

variable {F : Type}

def start : Hook F where
  clients := []
  activeClient := none
  entryPoint := (0, 0)
  prevPos := none
  displays := []
  pushed := []

def pushEvent (hook : Hook F) (pos : Position) (event : CaptureEvent F) : Hook F :=
  { hook with pushed := hook.pushed ++ [(pos, event)] }

def updateClients (hook : Hook F) : ClientUpdate → Hook F
  | .create pos => { hook with clients := hook.clients.insert pos }
  | .destroy pos =>
    { hook with
      activeClient := if hook.activeClient = some pos then none else hook.activeClient
      clients := hook.clients.filter (· ≠ pos) }

section Events

variable [IntCast F]

def toMouseEvent (entryPoint : Point) (message : MouseMessage) (info : MouseLowLevel) :
    Option (PointerEvent F) :=
  match message with
  | .lButtonDown => some (.button 0 btnLeft 1)
  | .mButtonDown => some (.button 0 btnMiddle 1)
  | .rButtonDown => some (.button 0 btnRight 1)
  | .lButtonUp => some (.button 0 btnLeft 0)
  | .mButtonUp => some (.button 0 btnMiddle 0)
  | .rButtonUp => some (.button 0 btnRight 0)
  | .mouseMove =>
    some (.motion 0 (info.pt.1 - entryPoint.1).toInt (info.pt.2 - entryPoint.2).toInt)
  | .mouseWheel => some (.axisDiscrete120 0 (-(info.mouseData.toInt32 >>> 16)))
  | .xButtonDown => (xButton info.mouseData).map (.button 0 · 1)
  | .xButtonUp => (xButton info.mouseData).map (.button 0 · 0)
  | .mouseHWheel => some (.axisDiscrete120 1 (info.mouseData.toInt32 >>> 16))
  | .other _ => none

/-- Whether a mouse event goes on, which the move that begins a crossing still does. -/
def mouseProc (hook : Hook F) (message : MouseMessage) (info : MouseLowLevel) : Bool × Hook F :=
  let (active, hook) :=
    hook.checkClientActivation (if message = .mouseMove then some info.pt else none)
  if !active then (true, hook)
  else
    match hook.activeClient with
    | none => (false, hook)
    | some pos =>
      match toMouseEvent hook.entryPoint message info with
      | none => (false, hook)
      | some event => (false, hook.pushEvent pos (.input (.pointer event)))

variable (linuxScancode : UInt32 → Option UInt32)

omit [IntCast F] in
/-- Whether a key event goes on. -/
def kybrdProc (hook : Hook F) (message : KeyMessage) (key : KeyLowLevel) : Bool × Hook F :=
  match hook.activeClient with
  | none => (true, hook)
  | some client =>
    match toKeyEvent linuxScancode message key with
    | none => (false, hook)
    | some event =>
      (isLockVk key.vkCode, hook.pushEvent client (.input (.keyboard event)))

/-- What the thread of the hooks is told, until the hooks are removed. -/
inductive Act where
  | mouse (message : MouseMessage) (info : MouseLowLevel)
  | key (message : KeyMessage) (key : KeyLowLevel)
  | release
  | update (request : ClientUpdate)
  /-- The displays are enumerated anew. -/
  | enumerate (displays : List Rect)

def step (hook : Hook F) : Act → Hook F
  | .mouse message info => (hook.mouseProc message info).2
  | .key message key => (hook.kybrdProc linuxScancode message key).2
  | .release => { hook with activeClient := none }
  | .update request => hook.updateClients request
  | .enumerate displays => { hook with displays := displays }

/-- Whether an event goes on to the applications. -/
def passes (hook : Hook F) : Act → Bool
  | .mouse message info => (hook.mouseProc message info).1
  | .key message key => (hook.kybrdProc linuxScancode message key).1
  | _ => false

/-! ## Keys and buttons -/

/-- A key or a button as the person has it under a finger. -/
inductive Physical where
  | left
  | middle
  | right
  | side (number : UInt32)
  | key (key : KeyLowLevel)

/-- What an event says went down, or went up. -/
def Act.goes : Act → Option (Physical × Bool)
  | .mouse .lButtonDown _ => some (.left, true)
  | .mouse .lButtonUp _ => some (.left, false)
  | .mouse .mButtonDown _ => some (.middle, true)
  | .mouse .mButtonUp _ => some (.middle, false)
  | .mouse .rButtonDown _ => some (.right, true)
  | .mouse .rButtonUp _ => some (.right, false)
  | .mouse .xButtonDown info => some (.side (info.mouseData >>> 16), true)
  | .mouse .xButtonUp info => some (.side (info.mouseData >>> 16), false)
  | .key .keyDown info => some (.key info, true)
  | .key .sysKeyDown info => some (.key info, true)
  | .key .keyUp info => some (.key info, false)
  | .key .sysKeyUp info => some (.key info, false)
  | _ => none

/-- A lock key the tables know goes on whatever is under way. -/
def Physical.letThrough : Physical → Bool
  | .key info => isLockVk info.vkCode && (evdevOf linuxScancode info).isSome
  | _ => false

variable {hook : Hook F} {act : Act} {physical : Physical} {down : Bool}

section

omit [IntCast F]

theorem kybrdProc_eq (hook : Hook F) (message : KeyMessage) (key : KeyLowLevel) :
    (hook.kybrdProc linuxScancode message key).1 = (hook.activeClient.isNone ||
        isLockVk key.vkCode && (toKeyEvent linuxScancode message key).isSome) ∧
      (hook.kybrdProc linuxScancode message key).2.activeClient = hook.activeClient := by
  unfold kybrdProc
  cases under : hook.activeClient with
  | none => exact ⟨rfl, under⟩
  | some client =>
    cases toKeyEvent linuxScancode message key with
    | none => exact ⟨by simp, under⟩
    | some event => exact ⟨by simp, under⟩

/-- Where no crossing is under way, one begins by a move or none does. -/
theorem checkClientActivation_free (free : hook.activeClient = none) (moved : Option Point) :
    (hook.checkClientActivation moved).1 = false ∧
      ((hook.checkClientActivation moved).2.activeClient = none ∨
        ∃ currPos pos, moved = some currPos ∧ hook.Begins currPos pos) := by
  cases moved with
  | none => simp [checkClientActivation, free]
  | some currPos =>
    cases entered : enteredBarrier (hook.prevPos.getD currPos) currPos hook.displays with
    | none => simp [checkClientActivation, free, entered]
    | some pos =>
      by_cases registered : pos ∈ hook.clients
      · cases clamped : clampToDisplayBounds hook.displays (hook.prevPos.getD currPos) currPos with
        | none => simp [checkClientActivation, free, entered, registered, clamped]
        | some entryPoint =>
          simp [Begins, checkClientActivation, free, entered, registered, clamped]
      · simp [checkClientActivation, free, entered, registered]

theorem checkClientActivation_under {pos : Position} (under : hook.activeClient = some pos)
    (moved : Option Point) :
    (hook.checkClientActivation moved).1 = true ∧
      (hook.checkClientActivation moved).2.activeClient = some pos := by
  cases moved <;> simp [checkClientActivation, under]

end

theorem mouseProc_under {pos : Position} (under : hook.activeClient = some pos)
    (message : MouseMessage) (info : MouseLowLevel) :
    (hook.mouseProc message info).1 = false ∧
      (hook.mouseProc message info).2.activeClient = some pos := by
  unfold mouseProc
  obtain ⟨active, still⟩ :=
    checkClientActivation_under under (if message = .mouseMove then some info.pt else none)
  simp only [active, Bool.not_true, Bool.false_eq_true, if_false, still]
  split <;> exact ⟨rfl, still⟩

/-- While none is, all of them go on, and only a move can begin one. -/
theorem mouseProc_free (free : hook.activeClient = none) (message : MouseMessage)
    (info : MouseLowLevel) :
    hook.mouseProc message info =
      (true, (hook.checkClientActivation
        (if message = .mouseMove then some info.pt else none)).2) := by
  unfold mouseProc
  simp only [(checkClientActivation_free free _).1, Bool.not_false, if_true]

theorem goes_event (goes : act.goes = some (physical, down)) :
    (hook.passes linuxScancode act =
      (hook.activeClient.isNone || physical.letThrough linuxScancode)) ∧
      (hook.step linuxScancode act).activeClient = hook.activeClient := by
  cases act with
  | mouse message info =>
    have still : message ≠ .mouseMove := by
      rintro rfl
      cases goes
    have button : physical.letThrough linuxScancode = false := by
      cases message <;> cases goes <;> rfl
    rw [button, Bool.or_false]
    unfold passes step
    cases under : hook.activeClient with
    | none =>
      dsimp only
      rw [mouseProc_free under, if_neg still]
      exact ⟨rfl, under⟩
    | some pos => exact mouseProc_under under message info
  | key message info =>
    obtain rfl : physical = .key info := by cases message <;> cases goes <;> rfl
    obtain ⟨passed, still⟩ := hook.kybrdProc_eq linuxScancode message info
    refine ⟨passed.trans ?_, still⟩
    have known : (toKeyEvent linuxScancode message info).isSome =
        (evdevOf linuxScancode info).isSome := by
      unfold toKeyEvent
      cases evdevOf linuxScancode info with
      | none => rfl
      | some code =>
        cases message with
        | other message => cases goes
        | keyDown | keyUp | sysKeyDown | sysKeyUp => rfl
    rw [known]
    rfl
  | release | update request | enumerate displays => cases goes

/-! ## Beginnings and ends -/

/-- A move of the pointer begins a crossing. -/
def Enters (hook : Hook F) (act : Act) : Prop :=
  ∃ info pos, act = .mouse .mouseMove info ∧ hook.activeClient = none ∧ hook.Begins info.pt pos

/-- The crossing under way is given back, or its edge is no longer there. -/
def Leaves (hook : Hook F) (act : Act) : Prop :=
  ∃ pos, hook.activeClient = some pos ∧ (act = .release ∨ act = .update (.destroy pos))

theorem enters (free : hook.activeClient = none)
    (under : (hook.step linuxScancode act).activeClient ≠ none) : hook.Enters act := by
  cases act with
  | mouse message info =>
    unfold step at under
    dsimp only at under
    rw [mouseProc_free free] at under
    obtain idle | ⟨currPos, pos, moves, begins⟩ := (checkClientActivation_free free _).2
    · exact absurd idle under
    · split at moves
      · rename_i moved
        obtain rfl := Option.some.inj moves
        exact ⟨info, pos, by rw [moved], free, begins⟩
      · cases moves
  | key message info =>
    exact absurd ((hook.kybrdProc_eq linuxScancode message info).2.trans free) under
  | release => exact absurd rfl under
  | update request =>
    refine absurd ?_ under
    cases request with
    | create pos => exact free
    | destroy pos => simp [step, updateClients, free]
  | enumerate displays => exact absurd free under

theorem leaves (under : hook.activeClient ≠ none)
    (free : (hook.step linuxScancode act).activeClient = none) : hook.Leaves act := by
  obtain ⟨pos, crossed⟩ := Option.ne_none_iff_exists'.mp under
  cases act with
  | mouse message info =>
    have still := (mouseProc_under crossed message info).2
    rw [show (hook.mouseProc message info).2.activeClient = none from free] at still
    cases still
  | key message info =>
    exact absurd ((hook.kybrdProc_eq linuxScancode message info).2.symm.trans free) under
  | release => exact ⟨pos, crossed, .inl rfl⟩
  | update request =>
    cases request with
    | create other => exact absurd free under
    | destroy other =>
      by_cases same : hook.activeClient = some other
      · exact ⟨other, same, .inr rfl⟩
      · simp only [step, updateClients, if_neg same] at free
        exact absurd free under
  | enumerate displays => exact absurd free under

end Events

end Hook

end HopsFormal.Windows
