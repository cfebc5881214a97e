import HopsFormal.Macos.ModifierKeys
import Mathlib.Algebra.Ring.Int.Defs

/-!
# Strokes of the modifier keys

A keyboard whose modifier keys go down and come up while the pointer is here or on a peer.  The
taps see a stroke only in a crossing, and what they remember is the last change seen in one.
-/

namespace HopsFormal.Macos

open Capture (CaptureEvent Position)
open List Lib

variable {F : Type}

/-! ## What is remembered -/

namespace Core

def changeSeen (core : Core F) : Act F → Option CGEventFlags
  | .event .active seen _ _ _ =>
    if core.currentPos.isSome ∧ seen.ty = .flagsChanged then some seen.flags else none
  | _ => none

theorem tearDown_modifierState (core : Core F) (why : TearDownWhy) :
    (core.tearDown why).modifierState = core.modifierState := by
  rcases running : core.halted with - | -
  · rw [tearDown_eq running]
  · rw [tearDown, if_pos running]

theorem endCapture_modifierState (core : Core F) (now : Nat) :
    (core.endCapture now).modifierState = core.modifierState := by
  unfold endCapture
  split <;> rfl

theorem command_modifierState (core : Core F) (command : TapCommand) (now : Nat) :
    (core.command command now).modifierState = core.modifierState := by
  unfold Core.command
  split
  · exact endCapture_modifierState core now
  · split_ifs
    · exact endCapture_modifierState core now
    · rfl
  · exact tearDown_modifierState core .halted

theorem onDisabled_modifierState (core : Core F) (kind : TapKind) (why : Disabled) (now : Nat) :
    (core.onDisabled kind why now).modifierState = core.modifierState := by
  unfold onDisabled
  dsimp only [done]
  split
  · rfl
  · exact tearDown_modifierState _ _

section Edges

variable [Add F] [Sub F] [One F]

theorem begin_modifierState (core : Core F) (pos : Position) (seen : Seen F) (bounds : Bounds F)
    (now : Nat) (granted : Bool) :
    (core.begin pos seen bounds now granted).modifierState = core.modifierState := by
  unfold begin
  dsimp only
  split
  · rfl
  · exact tearDown_modifierState _ _

variable [LE F] [DecidableLE F]

theorem checkCrossing_modifierState (core : Core F) (seen : Seen F) (now : Nat)
    (busy granted : Bool) :
    (core.checkCrossing seen now busy granted).modifierState = core.modifierState := by
  unfold checkCrossing
  split
  · rfl
  · dsimp only
    split_ifs
    · rfl
    · exact begin_modifierState _ _ seen _ now granted

end Edges

variable [IntCast F] (table : UInt16 → Option UInt16)

theorem forward_modifierState (core : Core F) (pos : Position) (seen : Seen F) :
    (core.forward table pos seen).modifierState =
      (getEvents table seen core.modifierState).modifierState := by
  unfold forward
  dsimp only
  split_ifs
  · split <;> rfl
  · rfl

omit [IntCast F] in
theorem disabled_flagsChanged {seen : Seen F} (changes : seen.ty = .flagsChanged) :
    seen.disabled = none := by
  rw [Seen.disabled, changes]

theorem getEvents_modifierState (seen : Seen F) (modifierState : XMods) :
    (getEvents table seen modifierState).modifierState =
      if seen.ty = .flagsChanged then depressedOf seen.flags else modifierState := by
  unfold getEvents
  split
  case h_1 ty | h_2 ty => cases mapKey table seen.keycode <;> simp [ty]
  all_goals simp_all

variable [Add F] [Sub F] [One F] [LE F] [DecidableLE F]

omit [IntCast F] [Add F] [Sub F] [One F] [LE F] [DecidableLE F] in
theorem changeSeen_other {core : Core F} {kind : TapKind} {seen : Seen F} {now : Nat}
    {busy granted : Bool} (other : seen.ty ≠ .flagsChanged) :
    core.changeSeen (.event kind seen now busy granted) = none := by
  cases kind with
  | listen => rfl
  | active => simp [changeSeen, other]

theorem step_modifierState {core : Core F} (sound : core.Sound) (act : Act F) :
    (core.step table act).modifierState =
      ((core.changeSeen act).map depressedOf).getD core.modifierState := by
  cases act with
  | command command now => exact command_modifierState core command now
  | record asked missing | share shared => rfl
  | event kind seen now busy granted =>
    change (core.onEvent table kind seen now busy granted).2.modifierState = _
    unfold onEvent
    rcases running : core.halted with - | -
    · rw [if_neg Bool.false_ne_true]
      split
      · next why disabled =>
        -- a notice is no change of the modifiers
        have other : seen.ty ≠ .flagsChanged := fun changes => by
          cases disabled.symm.trans (disabled_flagsChanged changes)
        rw [onDisabled_modifierState, changeSeen_other other]
        rfl
      · split
        · next pos under =>
          rw [forward_modifierState, getEvents_modifierState, changeSeen, under]
          by_cases changes : seen.ty = .flagsChanged <;> simp [changes]
        · rfl
        · split_ifs
          · exact checkCrossing_modifierState core seen now busy granted
          · rfl
        · next under =>
          rw [changeSeen, under]
          simp
    · rw [if_pos rfl]
      have none : core.changeSeen (.event kind seen now busy granted) = none := by
        cases kind with
        | listen => rfl
        | active => simp [changeSeen, (sound.gone running).2]
      rw [none]
      rfl

end Core

/-! ## The keyboard and the core -/

/-- What happens: a modifier key goes down or up, or something else happens to the core. -/
inductive Happening (F : Type) where
  /-- The flags of the event that are no modifier's, and whether the active tap is told of it. -/
  | stroke (key : ModifierKey) (down : Bool) (others : CGEventFlags) (now : Nat) (told : Bool)
  | act (act : Act F)

/-- The keys that are held, the last change seen in a crossing, and the core. -/
structure Desk (F : Type) where
  held : ModifierKey → Bool
  lastFlags : CGEventFlags
  core : Core F

def strokeSeen [Zero F] (key : ModifierKey) (flags : CGEventFlags) : Seen F :=
  { Seen.new .flagsChanged with keycode := key.code, flags := flags }

namespace Desk

variable [Zero F] [IntCast F] [Add F] [Sub F] [One F] [LE F] [DecidableLE F]
  (table : UInt16 → Option UInt16)

def start (shared : Shared F) : Desk F := ⟨fun _ => false, 0, .start shared⟩

def actOn (desk : Desk F) (act : Act F) : Desk F :=
  { desk with
    lastFlags := (desk.core.changeSeen act).getD desk.lastFlags
    core := desk.core.step table act }

/-- The event the active tap is told of by a stroke. -/
def strokeAct (desk : Desk F) (key : ModifierKey) (down : Bool) (others : CGEventFlags)
    (now : Nat) : Act F :=
  .event .active (strokeSeen key (flagsOf (Function.update desk.held key down) others)) now false
    false

def step (desk : Desk F) : Happening F → Desk F
  | .stroke key down others now told =>
    let struck := { desk with held := Function.update desk.held key down }
    if told then struck.actOn table (desk.strokeAct key down others now) else struck
  | .act act => desk.actOn table act

def run (shared : Shared F) (happenings : List (Happening F)) : Desk F :=
  happenings.foldl (step table) (start shared)

/-- The core remembers the last change seen in a crossing. -/
structure Remembers (desk : Desk F) : Prop where
  sound : desk.core.Sound
  remembered : desk.core.modifierState = depressedOf desk.lastFlags

omit [Zero F] in
theorem Remembers.actOn {desk : Desk F} (remembers : desk.Remembers) (act : Act F) :
    (desk.actOn table act).Remembers := by
  refine ⟨remembers.sound.step table act, ?_⟩
  change (desk.core.step table act).modifierState = _
  rw [Core.step_modifierState table remembers.sound act]
  unfold Desk.actOn
  cases desk.core.changeSeen act with
  | none => exact remembers.remembered
  | some flags => rfl

theorem run_concat (shared : Shared F) (happenings : List (Happening F))
    (happening : Happening F) : run table shared (happenings ++ [happening]) =
      step table (run table shared happenings) happening := foldl_append

theorem run_remembers (shared : Shared F) (happenings : List (Happening F)) :
    (run table shared happenings).Remembers := by
  induction happenings using List.reverseRecOn with
  | nil =>
    have nothing : (0 : XMods) = depressedOf 0 := by decide
    exact ⟨.start shared, nothing⟩
  | append_singleton happenings happening ih =>
    rw [run_concat]
    cases happening with
    | act act => exact ih.actOn table act
    | stroke key down others now told =>
      have struck : ({ run table shared happenings with
          held := Function.update (run table shared happenings).held key down
          : Desk F }).Remembers := ⟨ih.sound, ih.remembered⟩
      unfold step
      dsimp only
      split_ifs
      · exact struck.actOn table _
      · exact struck

/-! ## What is told of a stroke -/

/-- The key that is told of by a step went down if it is told so, and came up if not. -/
def Truthful (core next : Core F) (down : Bool) : Prop :=
  ∀ pos time key state,
    .send pos (.input (.keyboard (.key time key state))) ∈ next.did.drop core.did.length →
      state = if down then 1 else 0

omit [Add F] [Sub F] [One F] [LE F] [DecidableLE F] in
theorem key_mem_getEvents {key : ModifierKey} {flags : CGEventFlags} {mods : XMods}
    {time code : UInt32} {state : UInt8} :
    .input (.keyboard (.key time code state)) ∈
        (getEvents table (strokeSeen key flags : Seen F) mods).result ↔
      mapKey table key.code = .ok code ∧ time = 0 ∧
        state = if mods < depressedOf flags then 1 else 0 := by
  unfold getEvents
  dsimp only [strokeSeen, Seen.new]
  cases mapKey table key.code with
  | error code => simp
  | ok known =>
    simp only [cons_append, nil_append, mem_cons, not_mem_nil, or_false,
      CaptureEvent.input.injEq, Capture.Event.keyboard.injEq, reduceCtorEq,
      Capture.KeyboardEvent.key.injEq, Except.ok.injEq, gt_iff_lt]
    constructor
    · rintro ⟨rfl, rfl, rfl⟩
      exact ⟨rfl, rfl, rfl⟩
    · rintro ⟨rfl, rfl, rfl⟩
      exact ⟨rfl, rfl, rfl⟩

/-- A stroke that is seen in a crossing is told by the comparison of the modifiers. -/
theorem truthful_iff {core : Core F} (sound : core.Sound) (key : ModifierKey)
    (flags : CGEventFlags) (now : Nat) (down : Bool) :
    Truthful core (core.step table (.event .active (strokeSeen key flags) now false false)) down ↔
      (core.currentPos.isSome = true → (∃ code, mapKey table key.code = .ok code) →
        (core.modifierState < depressedOf flags ↔ down = true)) := by
  have quiet : (strokeSeen key flags : Seen F).disabled = none := rfl
  rcases under : core.currentPos with - | pos
  · -- the tap is told of it late, and passes it on
    have passed : core.onEvent table .active (strokeSeen key flags) now false false =
        (.keep, core) := by
      unfold Core.onEvent
      rw [quiet, under]
      exact ite_self _
    refine iff_of_true (fun pos time code state told => ?_) nofun
    rw [Core.step_event, passed, Core.done, drop_left, mem_singleton] at told
    cases told
  · have running : core.halted = false := by
      by_contra halted
      rw [Bool.not_eq_false] at halted
      cases under.symm.trans (sound.gone halted).2
    have forwarded : core.onEvent table .active (strokeSeen key flags) now false false =
        (.drop, core.forward table pos (strokeSeen key flags)) := by
      unfold Core.onEvent
      rw [running, quiet, under, if_neg Bool.false_ne_true]
    have sent : (core.forward table pos (strokeSeen key flags)).did = core.did ++
        (getEvents table (strokeSeen key flags : Seen F) core.modifierState).result.map
          (.send pos) := rfl
    have told : ∀ {at_ : Position} {event : CaptureEvent F}, .send at_ event ∈
        (core.step table (.event .active (strokeSeen key flags) now false false)).did.drop
          core.did.length ↔ at_ = pos ∧ event ∈
            (getEvents table (strokeSeen key flags : Seen F) core.modifierState).result := by
      intro at_ event
      rw [Core.step_event, forwarded, Core.done, sent, append_assoc, drop_left]
      simp [eq_comm, and_comm]
    constructor
    · rintro truthful - ⟨code, mapped⟩
      have state := truthful pos 0 code _
        (told.mpr ⟨rfl, (key_mem_getEvents table).mpr ⟨mapped, rfl, rfl⟩⟩)
      by_cases above : core.modifierState < depressedOf flags
      · rw [if_pos above] at state
        cases down with
        | true => exact iff_of_true above rfl
        | false => exact absurd state (by decide)
      · rw [if_neg above] at state
        cases down with
        | true => exact absurd state (by decide)
        | false => exact iff_of_false above Bool.false_ne_true
    · intro tells at_ time code state member
      obtain ⟨mapped, -, rfl⟩ := (key_mem_getEvents table).mp (told.mp member).2
      exact if_congr (tells rfl ⟨code, mapped⟩) rfl rfl

/--
Every stroke that is told of is told right exactly if, whenever the tap is told of a stroke in a
crossing, the highest mark that differs from the last change seen in one is set just if the key
went down.
-/
theorem run_truthful_iff (shared : Shared F) (happenings : List (Happening F)) :
    (∀ before key down others now after,
      happenings = before ++ .stroke key down others now true :: after →
        Truthful (run table shared before).core
          (run table shared (before ++ [.stroke key down others now true])).core down) ↔
    ∀ before key down others now after,
      happenings = before ++ .stroke key down others now true :: after →
        (run table shared before).core.currentPos.isSome = true →
        (∃ code, mapKey table key.code = .ok code) →
        (HighestSet (run table shared before).lastFlags
          (flagsOf (Function.update (run table shared before).held key down) others) ↔
            down = true) := by
  have each : ∀ before key down others now,
      Truthful (run table shared before).core
          (run table shared (before ++ [.stroke key down others now true])).core down ↔
        ((run table shared before).core.currentPos.isSome = true →
          (∃ code, mapKey table key.code = .ok code) →
          (HighestSet (run table shared before).lastFlags
            (flagsOf (Function.update (run table shared before).held key down) others) ↔
              down = true)) := by
    intro before key down others now
    have remembers := run_remembers table shared before
    rw [run_concat, ← depressedOf_lt_iff, ← remembers.remembered]
    exact truthful_iff table remembers.sound key _ now down
  constructor
  · intro truthful before key down others now after split
    exact (each before key down others now).mp (truthful before key down others now after split)
  · intro tells before key down others now after split
    exact (each before key down others now).mpr (tells before key down others now after split)

/-! ## The second shift -/

def shiftCodes (code : UInt16) : Option UInt16 :=
  if code = 56 then some 42 else if code = 60 then some 54 else none

/-- The pointer crosses, and then both shift keys go down, the left one first. -/
def bothShifts : List (Happening Int) := [
  .act (.event .listen { Seen.new .mouseMoved with dx := -1 } 0 false true),
  .stroke ⟨.shift, false⟩ true 0 1 true,
  .stroke ⟨.shift, true⟩ true 0 2 true]

/-- The second is told to come up as it goes down. -/
theorem second_shift_told_up :
    ¬∀ (table : UInt16 → Option UInt16) (shared : Shared Int) (happenings : List (Happening Int)),
      ∀ before key down others now after,
        happenings = before ++ .stroke key down others now true :: after →
          Truthful (run table shared before).core
            (run table shared (before ++ [.stroke key down others now true])).core down := by
  intro truthful
  have state := truthful shiftCodes leftOnly bothShifts (bothShifts.take 2) ⟨.shift, true⟩ true 0 2
    [] rfl .left 0 54 0 (by decide)
  exact absurd state (by decide)

end Desk

end HopsFormal.Macos
