import HopsFormal.Macos.Crossings
import HopsFormal.Windows.Procs
import Mathlib

/-!
# Keys held across a crossing

On either system an event goes on to the applications of this machine unless a crossing is under
way when it happens.  A key whose hold spans neither the beginning nor the end of a crossing goes
on whole or is taken whole; of one that spans a beginning only its down may go on, and of one that
spans an end only its up.
-/

namespace HopsFormal

open Capture (Position)
open List Lib Windows.Hook Macos

namespace Macos

/-! ## The taps -/

/-- A key or a button as the person has it under a finger. -/
inductive Physical where
  | key (code : Int64)
  | left
  | right
  | other (number : Int64)

variable {F : Type}

/-- What an event says went down or went up; of a modifier it does not say which. -/
def Seen.Goes (seen : Seen F) (physical : Physical) (down : Bool) : Prop :=
  match seen.ty with
  | .keyDown => physical = .key seen.keycode ∧ down = true
  | .keyUp => physical = .key seen.keycode ∧ down = false
  | .flagsChanged => physical = .key seen.keycode
  | .leftMouseDown => physical = .left ∧ down = true
  | .leftMouseUp => physical = .left ∧ down = false
  | .rightMouseDown => physical = .right ∧ down = true
  | .rightMouseUp => physical = .right ∧ down = false
  | .otherMouseDown => physical = .other seen.button ∧ down = true
  | .otherMouseUp => physical = .other seen.button ∧ down = false
  | _ => False

theorem Seen.Goes.plain {seen : Seen F} {physical : Physical} {down : Bool}
    (goes : seen.Goes physical down) : seen.disabled = none ∧ seen.ty ≠ .mouseMoved := by
  unfold Seen.Goes at goes
  unfold Seen.disabled
  cases type : seen.ty <;> simp_all

namespace Core

variable {core : Core F}

theorem tearDown_currentPos (core : Core F) (why : TearDownWhy) :
    (core.tearDown why).currentPos = none ∨ (core.tearDown why).currentPos = core.currentPos := by
  rcases running : core.halted with - | -
  · rw [tearDown_eq running]
    exact .inl rfl
  · rw [tearDown, if_pos running]
    exact .inr rfl

theorem onDisabled_currentPos (core : Core F) (kind : TapKind) (why : Disabled) (now : Nat) :
    (core.onDisabled kind why now).currentPos = none ∨
      (core.onDisabled kind why now).currentPos = core.currentPos := by
  unfold onDisabled
  dsimp only
  cases (core.guard.onDisabled kind why now core.grants.missing).1 with
  | reEnable => exact .inr rfl
  | tearDown reason => exact tearDown_currentPos _ reason

theorem endCapture_currentPos (core : Core F) (now : Nat) :
    (core.endCapture now).currentPos = none := by
  unfold endCapture
  split
  · assumption
  · rfl

theorem command_currentPos (core : Core F) (command : TapCommand) (now : Nat) :
    (core.command command now).currentPos = none ∨
      (core.command command now).currentPos = core.currentPos := by
  cases command with
  | release => exact .inl (endCapture_currentPos core now)
  | destroy pos =>
    unfold Core.command
    dsimp only
    split
    · exact .inl (endCapture_currentPos core now)
    · exact .inr rfl
  | halt => exact tearDown_currentPos core .halted

variable [IntCast F] [Add F] [Sub F] [One F] [LE F] [DecidableLE F] (table : UInt16 → Option UInt16)

/-- Whether an event goes on to the applications. -/
def passes (core : Core F) : Act F → Bool
  | .event kind seen now busy granted => (core.onEvent table kind seen now busy granted).1 = .keep
  | _ => false

/-- A tap sees a key or a button go down or up. -/
def Strikes (act : Act F) (kind : TapKind) (physical : Physical) (down : Bool) : Prop :=
  ∃ seen now busy granted, act = .event kind seen now busy granted ∧ seen.Goes physical down

/-- A move of the pointer begins a crossing. -/
def Enters (core : Core F) (act : Act F) : Prop :=
  core.currentPos = none ∧ (core.step table act).currentPos ≠ none ∧
    ∃ seen now busy granted, act = .event .listen seen now busy granted ∧ seen.ty = .mouseMoved

/-- The crossing under way ends: the daemon asks for it, or the system disabled a tap. -/
def Leaves (core : Core F) (act : Act F) : Prop :=
  core.currentPos ≠ none ∧ (core.step table act).currentPos = none ∧
    ((∃ command now, act = .command command now) ∨
      ∃ kind seen now busy granted, act = .event kind seen now busy granted ∧ seen.disabled ≠ none)

/-- A key or a button is taken from the active tap while a crossing is under way, and begins and
ends none. -/
theorem strikes (sound : core.Sound) {act : Act F} {kind : TapKind} {physical : Physical}
    {down : Bool} (struck : Strikes act kind physical down) :
    (core.passes table act = true ↔ ¬ (kind = .active ∧ core.currentPos ≠ none)) ∧
      (core.step table act).currentPos = core.currentPos := by
  obtain ⟨seen, now, busy, granted, rfl, goes⟩ := struck
  obtain ⟨enabled, still⟩ := goes.plain
  rw [step_event]
  unfold passes onEvent
  simp only [enabled, if_neg still]
  cases running : core.halted with
  | true => exact ⟨by simp [(sound.gone running).2], rfl⟩
  | false =>
    cases under : core.currentPos with
    | none => cases kind <;> exact ⟨by simp, under⟩
    | some pos =>
      cases kind with
      | active =>
        exact ⟨by simp, (sound.forward table under seen).2⟩
      | listen => exact ⟨by simp, under⟩

theorem enters {act : Act F} (free : core.currentPos = none)
    (under : (core.step table act).currentPos ≠ none) : core.Enters table act := by
  cases act with
  | event kind seen now busy granted =>
    refine ⟨free, under, seen, now, busy, granted, ?_⟩
    rw [step_event] at under
    unfold onEvent at under
    rw [free] at under
    split at under
    · exact absurd free under
    · split at under
      · rcases onDisabled_currentPos core kind _ now with ended | same
        · exact absurd ended under
        · exact absurd (same.trans free) under
      · cases kind with
        | active => exact absurd free under
        | listen =>
          by_cases moved : seen.ty = .mouseMoved
          · exact ⟨rfl, moved⟩
          · dsimp only at under
            rw [if_neg moved] at under
            exact absurd free under
  | command command now =>
    rcases core.command_currentPos command now with ended | same
    · exact absurd ended under
    · exact absurd (same.trans free) under
  | record asked missing | share shared => exact absurd free under

theorem leaves (sound : core.Sound) {act : Act F} (under : core.currentPos ≠ none)
    (free : (core.step table act).currentPos = none) : core.Leaves table act := by
  refine ⟨under, free, ?_⟩
  obtain ⟨pos, crossed⟩ := Option.ne_none_iff_exists'.mp under
  cases act with
  | event kind seen now busy granted =>
    by_cases enabled : seen.disabled = none
    · refine absurd ?_ under
      rw [step_event] at free
      unfold onEvent at free
      rw [enabled, crossed] at free
      split at free
      · exact free
      · cases kind with
        | active => exact absurd ((sound.forward table crossed seen).2.symm.trans free) nofun
        | listen => exact free
    · exact .inr ⟨kind, seen, now, busy, granted, rfl, enabled⟩
  | command command now => exact .inl ⟨command, now, rfl⟩
  | record asked missing | share shared => exact absurd free under

end Core

end Macos

/-! ## A press and its release -/

section Both

variable {F : Type} [IntCast F]

/--
Between the down and the up of a key or a button, whatever else happens, a crossing begins if only
the down goes on, and one ends if only the up does.
-/
theorem Windows.Hook.spans (linuxScancode : UInt32 → Option UInt32) {hook : Windows.Hook F}
    {acts : List Act} {past between later : List (Windows.Hook F × Act)}
    {down up : Windows.Hook F × Act} {physical : Physical}
    (split : trace (step linuxScancode) hook acts = past ++ down :: (between ++ up :: later))
    (presses : down.2.goes = some (physical, true)) :
    (down.1.activeClient = none → up.1.activeClient ≠ none →
      ∃ taken ∈ between, taken.1.Enters taken.2) ∧
    (down.1.activeClient ≠ none → up.1.activeClient = none →
      ∃ taken ∈ between, taken.1.Leaves taken.2) := by
  obtain ⟨after, rest⟩ := trace_rest _ split
  have still : (step linuxScancode down.1 down.2).activeClient = down.1.activeClient :=
    (goes_event linuxScancode presses).2
  constructor
  · intro free under
    obtain ⟨turn, within, before, turned⟩ := trace_turns (step linuxScancode)
      (P := fun hook => hook.activeClient = none) (still.trans free) under rest.symm
    exact ⟨turn, within, enters linuxScancode before turned⟩
  · intro under free
    obtain ⟨turn, within, before, turned⟩ := trace_turns (step linuxScancode)
      (P := fun hook => hook.activeClient ≠ none) (still ▸ under) (not_not.mpr free) rest.symm
    exact ⟨turn, within, leaves linuxScancode before (not_not.mp turned)⟩

variable [Add F] [Sub F] [One F] [LE F] [DecidableLE F]

/-- The same of the taps. -/
theorem Macos.Core.spans (table : UInt16 → Option UInt16) {shared : Shared F}
    {acts : List (Act F)} {past between later : List (Core F × Act F)}
    {down up : Core F × Act F} {kind : TapKind} {physical : Physical}
    (split : trace (Core.step table) (.start shared) acts =
      past ++ down :: (between ++ up :: later))
    (presses : Core.Strikes down.2 kind physical true) :
    down.1.Sound ∧ up.1.Sound ∧
    (down.1.currentPos = none → up.1.currentPos ≠ none →
      ∃ taken ∈ between, taken.1.Enters table taken.2) ∧
    (down.1.currentPos ≠ none → up.1.currentPos = none →
      ∃ taken ∈ between, taken.1.Leaves table taken.2) := by
  have sound : ∀ {front back taken}, trace (Core.step table) (.start shared) acts =
      front ++ taken :: back → taken.1.Sound := by
    intro front back taken split
    obtain ⟨before, after, -, -, same⟩ := trace_split _ split
    rw [same]
    exact Core.Sound.run table shared before
  have whole : trace (Core.step table) (.start shared) acts =
      (past ++ down :: between) ++ up :: later := by
    rw [split, append_assoc, cons_append]
  obtain ⟨after, rest⟩ := trace_rest _ split
  have still := (Core.strikes table (sound split) presses).2
  refine ⟨sound split, sound whole, ?_, ?_⟩
  · intro free under
    obtain ⟨turn, within, before, turned⟩ := trace_turns (Core.step table)
      (P := fun core => core.currentPos = none) (still.trans free) under rest.symm
    exact ⟨turn, within, Core.enters table before turned⟩
  · intro under free
    obtain ⟨turn, within, before, turned⟩ := trace_turns (Core.step table)
      (P := fun core => core.currentPos ≠ none) (still ▸ under) (not_not.mpr free) rest.symm
    obtain ⟨front, back, parts⟩ := append_of_mem within
    have there : trace (Core.step table) (.start shared) acts =
        (past ++ down :: front) ++ turn :: (back ++ up :: later) := by
      rw [split, parts, append_assoc, cons_append, append_assoc, cons_append]
    exact ⟨turn, within, Core.leaves table (sound there) before (not_not.mp turned)⟩

/--
The down and the up of a key or a button each go on to the applications exactly if no crossing is
under way when they happen; on Windows a lock key always does, and on macOS only what the active
tap sees is taken.  So one of the two goes on without the other only where a crossing begins or
ends between them.
-/
theorem held_across_crossings (linuxScancode : UInt32 → Option UInt32)
    (table : UInt16 → Option UInt16) :
    (∀ (acts : List Act) past down between up later physical,
      trace (step (F := F) linuxScancode) .start acts = past ++ down :: (between ++ up :: later) →
      down.2.goes = some (physical, true) → up.2.goes = some (physical, false) →
      (physical.letThrough linuxScancode = true →
        down.1.passes linuxScancode down.2 = true ∧ up.1.passes linuxScancode up.2 = true) ∧
      (physical.letThrough linuxScancode = false →
        (down.1.passes linuxScancode down.2 = true ↔ down.1.activeClient = none) ∧
        (up.1.passes linuxScancode up.2 = true ↔ up.1.activeClient = none) ∧
        (down.1.passes linuxScancode down.2 = true → up.1.passes linuxScancode up.2 = false →
          ∃ taken ∈ between, taken.1.Enters taken.2) ∧
        (down.1.passes linuxScancode down.2 = false → up.1.passes linuxScancode up.2 = true →
          ∃ taken ∈ between, taken.1.Leaves taken.2))) ∧
    (∀ (shared : Shared F) (acts : List (Act F)) past down between up later physical first second,
      trace (Core.step table) (.start shared) acts = past ++ down :: (between ++ up :: later) →
      Core.Strikes down.2 first physical true →
      Core.Strikes up.2 second physical false →
      (down.1.passes table down.2 = true ↔ ¬ (first = .active ∧ down.1.currentPos ≠ none)) ∧
      (up.1.passes table up.2 = true ↔ ¬ (second = .active ∧ up.1.currentPos ≠ none)) ∧
      (down.1.passes table down.2 = true → up.1.passes table up.2 = false →
        (first = .listen ∧ down.1.currentPos ≠ none) ∨
          ∃ taken ∈ between, taken.1.Enters table taken.2) ∧
      (down.1.passes table down.2 = false → up.1.passes table up.2 = true →
        (second = .listen ∧ up.1.currentPos ≠ none) ∨
          ∃ taken ∈ between, taken.1.Leaves table taken.2)) := by
  constructor
  · intro acts past down between up later physical split presses releases
    have passes : ∀ {taken : Windows.Hook F × Act} {down}, taken.2.goes = some (physical, down) →
        taken.1.passes linuxScancode taken.2 =
          (taken.1.activeClient.isNone || physical.letThrough linuxScancode) :=
      fun goes => (goes_event linuxScancode goes).1
    obtain ⟨begun, ended⟩ := spans linuxScancode split presses
    rw [passes presses, passes releases]
    constructor
    · intro lets
      simp [lets]
    · intro takes
      simp only [takes, Bool.or_false, Option.isNone_iff_eq_none, Option.isNone_eq_false_iff,
        Option.isSome_iff_ne_none, true_and]
      exact ⟨begun, ended⟩
  · intro shared acts past down between up later physical first second split presses releases
    obtain ⟨early, late, begun, ended⟩ := Core.spans table split presses
    have pressed := (Core.strikes table early presses).1
    have released := (Core.strikes table late releases).1
    refine ⟨pressed, released, fun goes taken => ?_, fun taken goes => ?_⟩
    · obtain ⟨-, under⟩ := not_not.mp (mt released.mpr (ne_true_of_eq_false taken))
      by_cases free : down.1.currentPos = none
      · exact .inr (begun free under)
      · refine .inl ⟨?_, free⟩
        cases first with
        | listen => rfl
        | active => exact absurd ⟨rfl, free⟩ (pressed.mp goes)
    · obtain ⟨-, under⟩ := not_not.mp (mt pressed.mpr (ne_true_of_eq_false taken))
      by_cases free : up.1.currentPos = none
      · exact .inr (ended under free)
      · refine .inl ⟨?_, free⟩
        cases second with
        | listen => rfl
        | active => exact absurd ⟨rfl, free⟩ (released.mp goes)

end Both

/-! ## Two keys that are split -/

/-- How the down and the up of every key or button of a run relate. -/
def Windows.Hook.Holds (acts : List Act) (related : Bool → Bool → Prop) : Prop :=
  ∀ past down between up later physical,
    trace (step (F := Int) some) .start acts = past ++ down :: (between ++ up :: later) →
    down.2.goes = some (physical, true) → up.2.goes = some (physical, false) →
    related (down.1.passes some down.2) (up.1.passes some up.2)

def Macos.Core.Holds (acts : List (Act Int)) (related : Bool → Bool → Prop) : Prop :=
  ∀ past down between up later physical first second,
    trace (Core.step some) (.start leftOnly) acts = past ++ down :: (between ++ up :: later) →
    Core.Strikes down.2 first physical true →
    Core.Strikes up.2 second physical false →
    related (down.1.passes some down.2) (up.1.passes some up.2)

/-- A key is down as the pointer leaves, is pressed once more over there, and is down still as the
pointer comes back. -/
def Windows.heldOut : List Act :=
  let letter : Windows.KeyLowLevel := ⟨0x41, 0x1E, false⟩
  [.enumerate [⟨0, 0, 100, 100⟩], .update (.create .left), .mouse .mouseMove ⟨(50, 50), 0⟩,
    .key .keyDown letter, .mouse .mouseMove ⟨(-1, 50), 0⟩, .key .keyUp letter,
    .key .keyDown letter, .release, .key .keyUp letter]

def Macos.heldOut : List (Act Int) :=
  [.event .listen (.new .keyDown) 0 false true,
    .event .listen { Seen.new .mouseMoved with dx := -1 } 0 false true,
    .event .active (.new .keyUp) 0 false true, .event .active (.new .keyDown) 0 false true,
    .command .release 0, .event .listen (.new .keyUp) 0 false true]

theorem held_across_crossings_out :
    (∃ taken ∈ ((trace (step (F := Int) some) .start Windows.heldOut).drop 4).take 1,
      taken.1.Enters taken.2) ∧
    ∃ taken ∈ ((trace (Core.step some) (.start leftOnly) heldOut).drop 1).take 1,
      taken.1.Enters some taken.2 := by
  obtain ⟨hooks, taps⟩ := held_across_crossings (F := Int) some some
  constructor
  · let steps := trace (step (F := Int) some) .start Windows.heldOut
    exact ((hooks Windows.heldOut (steps.take 3) steps[3] ((steps.drop 4).take 1) steps[5]
      (steps.drop 6) (.key ⟨0x41, 0x1E, false⟩) rfl rfl rfl).2 rfl).2.2.1 rfl rfl
  · let steps := trace (Core.step some) (.start leftOnly) heldOut
    rcases (taps leftOnly heldOut [] steps[0] ((steps.drop 1).take 1) steps[2]
      (steps.drop 3) (.key 0) .listen .active rfl ⟨_, _, _, _, rfl, rfl, rfl⟩
      ⟨_, _, _, _, rfl, rfl, rfl⟩).2.2.1 rfl rfl with ⟨-, under⟩ | begun
    · exact absurd rfl under
    · exact begun

/-- The first goes down and never up for the applications here, the second only up. -/
theorem held_out_split :
    ¬ (∀ acts, Holds acts fun down up => down = true → up = true) ∧
    ¬ (∀ acts, Holds acts fun down up => down = false → up = false) ∧
    ¬ (∀ acts, Core.Holds acts fun down up => down = true → up = true) ∧
    ¬ (∀ acts, Core.Holds acts fun down up => down = false → up = false) := by
  let hooks := trace (step (F := Int) some) .start Windows.heldOut
  let taps := trace (Core.step some) (.start leftOnly) heldOut
  refine ⟨fun whole => ?_, fun whole => ?_, fun whole => ?_, fun whole => ?_⟩
  · exact Bool.false_ne_true (whole Windows.heldOut (hooks.take 3) hooks[3]
      ((hooks.drop 4).take 1) hooks[5] (hooks.drop 6) (.key ⟨0x41, 0x1E, false⟩) rfl rfl rfl rfl)
  · exact Bool.false_ne_true (whole Windows.heldOut (hooks.take 6) hooks[6]
      ((hooks.drop 7).take 1) hooks[8] [] (.key ⟨0x41, 0x1E, false⟩) rfl rfl rfl rfl).symm
  · exact Bool.false_ne_true (whole heldOut [] taps[0] ((taps.drop 1).take 1) taps[2]
      (taps.drop 3) (.key 0) .listen .active rfl ⟨_, _, _, _, rfl, rfl, rfl⟩
      ⟨_, _, _, _, rfl, rfl, rfl⟩ rfl)
  · exact Bool.false_ne_true (whole heldOut (taps.take 3) taps[3] ((taps.drop 4).take 1)
      taps[5] [] (.key 0) .active .listen rfl ⟨_, _, _, _, rfl, rfl, rfl⟩
      ⟨_, _, _, _, rfl, rfl, rfl⟩ rfl).symm

end HopsFormal
