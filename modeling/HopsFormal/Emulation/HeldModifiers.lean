import HopsFormal.Emulation.KeyRepeat
import HopsFormal.Emulation.Wlroots

/-!
# Modifiers held on either side

A modifier that goes down sets the flag of its kind, and one that comes up clears it, whether or
not the key on the other side is still down.  A lock is toggled once for each time its key goes
down and comes up again.
-/

namespace HopsFormal.Emulation

open Capture (Event Held Kind kind)
open List Lib Flags InputEmulation

variable {F E : Type}

/-! ## Flags and keys -/

/-- Shift, control, alt and meta. -/
def modifierBits : List Nat := [0, 2, 3, 6]

theorem pressedMask_cases (key : UInt32) :
    pressedMask key = 0 ∨ ∃ i ∈ modifierBits, pressedMask key = flag i := by
  unfold pressedMask
  split
  · exact .inr ⟨0, by decide, rfl⟩
  · exact .inr ⟨0, by decide, rfl⟩
  · exact .inr ⟨2, by decide, rfl⟩
  · exact .inr ⟨2, by decide, rfl⟩
  · exact .inr ⟨3, by decide, rfl⟩
  · exact .inr ⟨3, by decide, rfl⟩
  · exact .inr ⟨6, by decide, rfl⟩
  · exact .inr ⟨6, by decide, rfl⟩
  · exact .inl rfl

variable {i : Nat} {key : UInt32}

theorem lockMask_modifierBits (bit : i ∈ modifierBits) : XMods.lockMask.getLsbD i = false := by
  simp only [modifierBits, mem_cons, not_mem_nil, or_false] at bit
  rcases bit with rfl | rfl | rfl | rfl <;> decide

theorem lockMask_lock : XMods.lockMask.getLsbD 1 = true := by decide

theorem pressedMask_lock (key : UInt32) : (pressedMask key).getLsbD 1 = false := by
  rcases pressedMask_cases key with none | ⟨i, bit, same⟩
  · rw [none]
    decide
  · rw [same, getLsbD_flag, decide_eq_false_iff_not]
    rintro ⟨-, rfl⟩
    revert bit
    decide

def FlagsHeld (flags : XMods) (held : UInt32 → Prop) : Prop :=
  ∀ i ∈ modifierBits,
    (flags.getLsbD i = true ↔ ∃ key, held key ∧ (pressedMask key).getLsbD i = true)

/-- A key that goes down sets its flag, and one that comes up clears it. -/
def Follows (before after : XMods) (key : UInt32) (down : Bool) : Prop :=
  ∀ i ∈ modifierBits, after.getLsbD i =
    if down then before.getLsbD i || (pressedMask key).getLsbD i
    else before.getLsbD i && !(pressedMask key).getLsbD i

theorem Follows.unmasked {flags : XMods} (none : pressedMask key = 0) (down : Bool) :
    Follows flags flags key down := by
  intro i _
  cases down <;> simp [none]

theorem FlagsHeld.down {before after : XMods} {held held' : UInt32 → Prop}
    (right : FlagsHeld before held) (follows : Follows before after key true)
    (grown : ∀ other, held' other ↔ held other ∨ other = key) : FlagsHeld after held' := by
  intro i bit
  rw [follows i bit, if_pos rfl, Bool.or_eq_true, right i bit]
  simp only [grown, or_and_right, exists_or, exists_eq_left]

structure KeyStroke where
  time : UInt32
  key : UInt32
  down : Bool

section Session

variable (answer : List (Call F) → Except E Unit) (scope : ButtonScope) (handle : Handle)

/-- A peer's session begins, and it types. -/
def session (strokes : List KeyStroke) : InputEmulation F :=
  run answer scope (.create handle ::
    strokes.map fun typed => .consume (stroke typed.time typed.key typed.down) handle)

variable (strokes : List KeyStroke) (typed : KeyStroke)

theorem session_concat : session answer scope handle (strokes ++ [typed]) =
      ((session answer scope handle strokes).consume answer
        (stroke typed.time typed.key typed.down) handle).2 := by
  rw [session, map_append, map_singleton, ← cons_append, run_append]
  rfl

theorem kept_session : Kept (session answer scope handle strokes) :=
  kept_run answer scope _

def Holds (strokes : List KeyStroke) (key : UInt32) : Prop :=
  Lists (session answer scope handle strokes) handle (.key key)

instance (strokes : List KeyStroke) (key : UInt32) :
    Decidable (Holds answer scope handle strokes key) :=
  inferInstanceAs (Decidable (Lists _ _ _))

theorem session_nil : (session answer scope handle []).calls = [.create handle] := by
  simp [session, run, step, create, withBackend, call]

theorem holds_nil (key : UInt32) : ¬ Holds answer scope handle [] key := by
  intro held
  cases (create_lists (kept_start scope).formed handle handle (.key key)).mp held

/-- The stroke changes what the peer holds. -/
def Tells (strokes : List KeyStroke) (typed : KeyStroke) : Prop :=
  typed.down = true ↔ ¬ Holds answer scope handle strokes typed.key

theorem session_handles : handle ∈ (session answer scope handle strokes).handles := by
  induction strokes using reverseRecOn with
  | nil => simp [session, run, step, create, withBackend, call]
  | append_singleton strokes typed ih =>
    rw [(kept_session answer scope handle _).formed.live, session_concat]
    rw [(kept_session answer scope handle _).formed.live] at ih
    obtain ⟨passed, dropped⟩ := consume_stroke_calls answer
      (kept_session answer scope handle strokes).formed handle typed.time typed.key typed.down
    by_cases passes : Passes (session answer scope handle strokes) handle typed.key typed.down
    · rw [passed passes]
      exact (live_consume handle).mpr ih
    · rw [dropped passes]
      exact ih

theorem passes_iff : Passes (session answer scope handle strokes) handle typed.key typed.down ↔
      Tells answer scope handle strokes typed :=
  and_iff_right (session_handles answer scope handle strokes)

/-- What a stroke does to the calls made and to the keys held. -/
theorem session_step : (Tells answer scope handle strokes typed →
      (session answer scope handle (strokes ++ [typed])).calls =
        (session answer scope handle strokes).calls ++
          [.consume (stroke typed.time typed.key typed.down) handle] ∧
      ∀ key, Holds answer scope handle (strokes ++ [typed]) key ↔
        if typed.down then Holds answer scope handle strokes key ∨ key = typed.key
        else Holds answer scope handle strokes key ∧ key ≠ typed.key) ∧
    (¬ Tells answer scope handle strokes typed →
      (session answer scope handle (strokes ++ [typed])).calls =
        (session answer scope handle strokes).calls ∧
      ∀ key, Holds answer scope handle (strokes ++ [typed]) key ↔
        Holds answer scope handle strokes key) := by
  have kept := kept_session answer scope handle strokes
  obtain ⟨passed, dropped⟩ := consume_stroke_calls answer kept.formed handle typed.time typed.key
    typed.down
  obtain ⟨changed, same⟩ := consume_stroke answer kept handle typed.time typed.key typed.down
  rw [passes_iff] at passed dropped changed same
  unfold Holds
  rw [session_concat]
  refine ⟨fun tells => ⟨passed tells, fun key => ?_⟩, fun tells => ⟨dropped tells, fun key => ?_⟩⟩
  · rw [changed tells]
    simp
  · exact same tells handle (.key key)

/-- A key of which the other side is held does not come up. -/
def Apart (strokes : List KeyStroke) (typed : KeyStroke) : Prop :=
  typed.down = false → Holds answer scope handle strokes typed.key →
    ∀ other, Holds answer scope handle strokes other → other ≠ typed.key →
      pressedMask typed.key ≠ 0 → pressedMask other ≠ pressedMask typed.key

variable {answer} {scope} {handle}

end Session

/-! ## macOS -/

def Posted.flags : Posted → Option XMods
  | .key _ _ modifiers => some modifiers
  | .flagsChanged _ modifiers => some modifiers
  | .media _ _ => none

/-- The modifiers the last post that carries any does. -/
def appliedFlags (posted : List Posted) : XMods := ((posted.filterMap Posted.flags).getLast?).getD 0

theorem appliedFlags_some (posted : List Posted) {post : Posted} {flags : XMods}
    (carries : post.flags = some flags) : appliedFlags (posted ++ [post]) = flags := by
  simp [appliedFlags, carries]

theorem appliedFlags_none (posted : List Posted) {post : Posted} (carries : post.flags = none) :
    appliedFlags (posted ++ [post]) = appliedFlags posted := by
  unfold appliedFlags
  rw [filterMap_append, filterMap_cons_none carries, filterMap_nil, append_nil]

/-- The times a key was passed down to the backend. -/
def presses (key : UInt32) (calls : List (Call F)) : Nat := (calls.filterMap pressedKey).count key

theorem presses_stroke (calls : List (Call F)) (handle : Handle) (of time key : UInt32)
    (down : Bool) : presses of (calls ++ [.consume (stroke time key down) handle]) =
      presses of calls + if down = true ∧ key = of then 1 else 0 := by
  unfold presses
  rw [filterMap_append, count_append]
  cases down with
  | false => simp [pressedKey, stroke]
  | true => simp [pressedKey, stroke, count_singleton]

theorem unmasked_media {keytype : UInt8} (media : evdevToNxKeytype key = some keytype) :
    pressedMask key = 0 ∧ key ≠ keyCapsLock := by
  unfold evdevToNxKeytype at media
  split at media <;> first | exact ⟨rfl, by decide⟩ | cases media

section MacOs

variable {mac : UInt16 → Option UInt16} {hidConnect : Bool} {macOs : MacOs}

theorem MacOs.cancelRepeatTask_flags (applied : appliedFlags macOs.posted = macOs.modifierState) :
    macOs.cancelRepeatTask.modifierState = macOs.modifierState ∧
      macOs.cancelRepeatTask.capsDown = macOs.capsDown ∧
      appliedFlags macOs.cancelRepeatTask.posted = macOs.modifierState := by
  unfold cancelRepeatTask
  split
  · exact ⟨rfl, rfl, applied⟩
  · exact ⟨rfl, rfl, appliedFlags_some _ rfl⟩

theorem MacOs.consumeKey_flags (hidConnect : Bool)
    (mapped : ∀ key, key = keyCapsLock ∨ pressedMask key ≠ 0 → (mac key.toUInt16).isSome)
    (applied : appliedFlags macOs.posted = macOs.modifierState) (key : UInt32) (down : Bool)
    (fresh : key = keyCapsLock → down = true → macOs.capsDown = false) :
    let next := macOs.consumeKey mac hidConnect key (if down then 1 else 0)
    appliedFlags next.posted = next.modifierState ∧
      Follows macOs.modifierState next.modifierState key down ∧
      next.capsDown = (if key = keyCapsLock then down else macOs.capsDown) ∧
      next.modifierState.getLsbD 1 =
        (macOs.modifierState.getLsbD 1 ^^ decide (down = true ∧ key = keyCapsLock)) := by
  have up : ¬ (0 : UInt8) = 1 := by decide
  unfold consumeKey
  rcases media : evdevToNxKeytype key with _ | keytype
  · rcases coded : mac key.toUInt16 with _ | code
    · -- a key without a code is no modifier
      have unmapped : ¬ (key = keyCapsLock ∨ pressedMask key ≠ 0) := fun modifier => by
        have some := mapped key modifier
        rw [coded] at some
        cases some
      obtain ⟨other, unmasked⟩ := not_or.mp unmapped
      refine ⟨applied, .unmasked (not_not.mp unmasked) down, (if_neg other).symm, ?_⟩
      simp [other]
    · by_cases lock : key = keyCapsLock
      · have unmasked : pressedMask key = 0 := by rw [lock]; rfl
        cases down with
        | false =>
          simp only [updateModifiers, if_pos lock, Bool.false_eq_true, if_false, if_neg up, post]
          exact ⟨appliedFlags_some _ rfl, .unmasked unmasked _, trivial, by simp⟩
        | true =>
          simp only [updateModifiers, if_pos lock, if_true, fresh lock rfl, Bool.false_eq_true,
            if_false, post]
          refine ⟨appliedFlags_some _ rfl, fun i bit => ?_, trivial, ?_⟩
          · rw [getLsbD_toggle, lockMask_modifierBits bit, unmasked]
            simp
          · rw [getLsbD_toggle, lockMask_lock, decide_eq_true ⟨trivial, lock⟩]
      · by_cases unmasked : pressedMask key = 0
        · simp only [updateModifiers, if_neg lock, if_pos unmasked]
          obtain ⟨kept, latch, carried⟩ := cancelRepeatTask_flags applied
          cases down with
          | false =>
            simp only [Bool.false_eq_true, if_false, if_neg up]
            refine ⟨carried.trans kept.symm, ?_, latch, ?_⟩
            · rw [kept]
              exact .unmasked unmasked _
            · rw [kept]
              simp
          | true =>
            simp only [if_true, spawnRepeatTask, post, lock, and_false, decide_false, Bool.xor_false]
            refine ⟨(appliedFlags_some _ rfl).trans kept.symm, ?_, latch, by rw [kept]⟩
            rw [kept]
            exact .unmasked unmasked _
        · simp only [updateModifiers, if_neg lock, if_neg unmasked]
          cases down with
          | false =>
            simp only [Bool.false_eq_true, if_false, if_neg up, post]
            refine ⟨appliedFlags_some _ rfl, fun i _ => ?_, trivial, ?_⟩
            · rw [getLsbD_remove]
              rfl
            · rw [getLsbD_remove, pressedMask_lock]
              simp
          | true =>
            simp only [if_true, post]
            refine ⟨appliedFlags_some _ rfl, fun i _ => ?_, trivial, ?_⟩
            · rw [getLsbD_insert]
              rfl
            · rw [getLsbD_insert, pressedMask_lock]
              simp [lock]
  · obtain ⟨unmasked, other⟩ := unmasked_media media
    dsimp only
    split
    · refine ⟨(appliedFlags_none _ rfl).trans applied, .unmasked unmasked down, rfl, ?_⟩
      simp [post, other]
    · refine ⟨applied, .unmasked unmasked down, rfl, ?_⟩
      simp [other]

variable (answer : List (Call F) → Except E Unit) (handle : Handle)

def macOsAfter (mac : UInt16 → Option UInt16) (hidConnect : Bool) (strokes : List KeyStroke) :
    MacOs :=
  MacOs.after mac hidConnect (session answer .machine handle strokes).calls

/-- What macOS was told carries the modifiers it keeps, Caps Lock is latched while it is held,
and the lock follows its presses. -/
structure MacOs.Tracks (mac : UInt16 → Option UInt16) (hidConnect : Bool)
    (strokes : List KeyStroke) : Prop where
  applied : appliedFlags (macOsAfter answer handle mac hidConnect strokes).posted =
    (macOsAfter answer handle mac hidConnect strokes).modifierState
  latched : (macOsAfter answer handle mac hidConnect strokes).capsDown = true ↔
    Holds answer .machine handle strokes keyCapsLock
  lock : (macOsAfter answer handle mac hidConnect strokes).modifierState.getLsbD 1 =
    decide (presses keyCapsLock (session answer .machine handle strokes).calls % 2 = 1)

variable {answer} {handle}

theorem decide_odd_succ (n : Nat) : decide ((n + 1) % 2 = 1) = !decide (n % 2 = 1) := by
  rcases Nat.mod_two_eq_zero_or_one n with even | odd
  · simp [Nat.add_mod, even]
  · simp [Nat.add_mod, odd]

variable {strokes : List KeyStroke} {typed : KeyStroke}

theorem macOsAfter_told (tells : Tells answer .machine handle strokes typed) :
    macOsAfter answer handle mac hidConnect (strokes ++ [typed]) =
      (macOsAfter answer handle mac hidConnect strokes).consumeKey mac hidConnect typed.key
        (if typed.down then 1 else 0) := by
  rw [macOsAfter, ((session_step answer .machine handle strokes typed).1 tells).1,
    MacOs.after_concat]
  rfl

theorem macOsAfter_untold (quiet : ¬ Tells answer .machine handle strokes typed) :
    macOsAfter answer handle mac hidConnect (strokes ++ [typed]) =
      macOsAfter answer handle mac hidConnect strokes := by
  rw [macOsAfter, ((session_step answer .machine handle strokes typed).2 quiet).1]
  rfl

theorem MacOs.Tracks.fresh (tracks : Tracks answer handle mac hidConnect strokes)
    (tells : Tells answer .machine handle strokes typed) (lock : typed.key = keyCapsLock)
    (down : typed.down = true) :
    (macOsAfter answer handle mac hidConnect strokes).capsDown = false := by
  cases latched : (macOsAfter answer handle mac hidConnect strokes).capsDown with
  | false => rfl
  | true =>
    refine absurd (tracks.latched.mp latched) ?_
    rw [← lock]
    exact tells.mp down

section Mapped

variable (mapped : ∀ key, key = keyCapsLock ∨ pressedMask key ≠ 0 → (mac key.toUInt16).isSome)
  (answer) (handle) (hidConnect)

include mapped

theorem MacOs.tracks (strokes : List KeyStroke) :
    Tracks answer handle mac hidConnect strokes := by
  induction strokes using reverseRecOn with
  | nil =>
    have start : macOsAfter answer handle mac hidConnect [] =
        { MacOs.start with capsDown := false } := by
      rw [macOsAfter, session_nil]
      rfl
    refine ⟨?_, ?_, ?_⟩
    · rw [start]
      rfl
    · rw [start]
      exact iff_of_false Bool.false_ne_true (holds_nil answer .machine handle keyCapsLock)
    · rw [start, session_nil]
      rfl
  | append_singleton strokes typed ih =>
    obtain ⟨told, untold⟩ := session_step answer .machine handle strokes typed
    by_cases tells : Tells answer .machine handle strokes typed
    · obtain ⟨calls, keys⟩ := told tells
      obtain ⟨applied, -, latched, lock⟩ := consumeKey_flags hidConnect mapped ih.applied
        typed.key typed.down (ih.fresh tells)
      refine ⟨?_, ?_, ?_⟩
      · rw [macOsAfter_told tells]
        exact applied
      · rw [macOsAfter_told tells, latched, keys]
        split
        · next same =>
          cases way : typed.down <;> simp [same]
        · next other =>
          have apart : keyCapsLock ≠ typed.key := Ne.symm other
          rw [ih.latched]
          split <;> simp [apart]
      · rw [macOsAfter_told tells, lock, ih.lock, calls, presses_stroke]
        split
        · next pressed => rw [decide_odd_succ, decide_eq_true pressed, Bool.xor_true]
        · next other => rw [decide_eq_false other, Bool.xor_false, Nat.add_zero]
    · obtain ⟨calls, keys⟩ := untold tells
      refine ⟨?_, ?_, ?_⟩
      · rw [macOsAfter_untold tells]
        exact ih.applied
      · rw [macOsAfter_untold tells, keys]
        exact ih.latched
      · rw [macOsAfter_untold tells, calls]
        exact ih.lock

end Mapped

end MacOs

/-! ## Wayland -/

/-- The modifiers a device of the handle is told. -/
def modifiersAsked (handle : Handle) : Call F → Option XMods
  | .consume (.keyboard (.modifiers depressed _ locked _)) on =>
    if on = handle then some (depressed.toBitVec ||| locked.toBitVec) else none
  | _ => none

/-- The modifiers a device of the handle was last told. -/
def appliedTo (handle : Handle) (queued : List (Call F)) : XMods :=
  ((queued.filterMap (modifiersAsked handle)).getLast?).getD 0

theorem appliedTo_concat (handle : Handle) (queued : List (Call F)) (made : Call F) :
    appliedTo handle (queued ++ [made]) =
      (modifiersAsked handle made).getD (appliedTo handle queued) := by
  unfold appliedTo
  rw [filterMap_append]
  cases asked : modifiersAsked handle made with
  | none => rw [filterMap_cons_none asked, filterMap_nil, append_nil]; rfl
  | some flags => simp [asked]

theorem getLsbD_masks (modifiers : XMods) (bit : i ∈ 1 :: modifierBits) :
    (maskPressed modifiers ||| maskLocks modifiers).getLsbD i = modifiers.getLsbD i := by
  have whole : ((XMods.shiftMask ||| XMods.controlMask ||| XMods.mod1Mask ||| XMods.mod4Mask) |||
      (XMods.lockMask ||| XMods.mod2Mask ||| XMods.mod3Mask)).getLsbD i = true := by
    simp only [modifierBits, mem_cons, not_mem_nil, or_false] at bit
    rcases bit with rfl | rfl | rfl | rfl | rfl <;> decide
  rw [maskPressed, maskLocks, BitVec.getLsbD_or, BitVec.getLsbD_and, BitVec.getLsbD_and,
    ← Bool.and_or_distrib_left, ← BitVec.getLsbD_or, whole, Bool.and_true]

theorem lockedMask_modifierBits (key : UInt32) (bit : i ∈ modifierBits) :
    (lockedMask key).getLsbD i = false := by
  simp only [modifierBits, mem_cons, not_mem_nil, or_false] at bit
  unfold lockedMask
  split
  · rcases bit with rfl | rfl | rfl | rfl <;> decide
  · split
    · rcases bit with rfl | rfl | rfl | rfl <;> decide
    · split
      · rcases bit with rfl | rfl | rfl | rfl <;> decide
      · simp

theorem lockedMask_lock (key : UInt32) :
    (lockedMask key).getLsbD 1 = decide (key = keyCapsLock) := by
  unfold lockedMask
  split
  · next lock => rw [decide_eq_true lock]; decide
  · next other =>
    rw [decide_eq_false other]
    split
    · decide
    · split <;> decide

theorem updateByKeyEvent_follows (modifiers : XMods) (key : UInt32) (down : Bool) :
    let changed := (updateByKeyEvent modifiers key (if down then 1 else 0)).getD modifiers
    Follows modifiers changed key down ∧
      changed.getLsbD 1 = (modifiers.getLsbD 1 ^^ decide (down = false ∧ key = keyCapsLock)) := by
  have up : ¬ (0 : UInt8) = 1 := by decide
  unfold updateByKeyEvent
  split
  · next none =>
    refine ⟨.unmasked none.1 down, ?_⟩
    have other : key ≠ keyCapsLock := by
      rintro rfl
      exact absurd none.2 (by decide)
    simp [other]
  · cases down with
    | true =>
      simp only [if_true, Option.getD_some]
      refine ⟨fun i _ => ?_, ?_⟩
      · rw [getLsbD_insert]
        rfl
      · rw [getLsbD_insert, pressedMask_lock]
        simp
    | false =>
      simp only [Bool.false_eq_true, if_false, if_neg up, Option.getD_some]
      refine ⟨fun i bit => ?_, ?_⟩
      · rw [getLsbD_toggle, getLsbD_remove, lockedMask_modifierBits key bit, Bool.xor_false]
        rfl
      · rw [getLsbD_toggle, getLsbD_remove, pressedMask_lock, lockedMask_lock]
        simp

section Wlroots

variable {full : Nat → Bool} (answer : List (Call F) → Except E Unit) (handle : Handle)

/-- The devices after a session. -/
@[grind =]
def wlrootsAfter (full : Nat → Bool) (strokes : List KeyStroke) : Wlroots F :=
  Wlroots.after full (session answer .perHandle handle strokes).calls

/-- A device that keeps some modifiers, was told of them, and is not congested. -/
structure Wlroots.Keeps (wlroots : Wlroots F) (handle : Handle) (modifiers : XMods) : Prop where
  found : wlroots.inputForClient.lookup handle = some modifiers
  free : wlroots.lastFlushFailed = false
  applied : ∀ i ∈ 1 :: modifierBits,
    (appliedTo handle wlroots.queued).getLsbD i = modifiers.getLsbD i

/-- The device keeps what it was told, and the lock follows the presses that ended. -/
structure Wlroots.Tracks (full : Nat → Bool) (strokes : List KeyStroke) (modifiers : XMods) :
    Prop where
  keeps : (wlrootsAfter answer handle full strokes).Keeps handle modifiers
  lock : modifiers.getLsbD 1 =
    (decide (presses keyCapsLock (session answer .perHandle handle strokes).calls % 2 = 1) ^^
      decide (Holds answer .perHandle handle strokes keyCapsLock))

variable {answer} {handle}

theorem Wlroots.Keeps.consume {wlroots : Wlroots F} {modifiers : XMods}
    (keeps : wlroots.Keeps handle modifiers) (keepsUp : ∀ flush, full flush = false)
    (time key : UInt32) (down : Bool) :
    (wlroots.consume full (stroke time key down) handle).Keeps handle
      ((updateByKeyEvent modifiers key (if down then 1 else 0)).getD modifiers) := by
  have asked : ∃ asked, consumeEvent modifiers (stroke time key down : Event F) =
      some ((updateByKeyEvent modifiers key (if down then 1 else 0)).getD modifiers,
        stroke time key down :: asked) ∧ (asked = [] ∧
          updateByKeyEvent modifiers key (if down then 1 else 0) = none ∨
        ∃ changed, updateByKeyEvent modifiers key (if down then 1 else 0) = some changed ∧
          asked = [.keyboard (.modifiers (.ofBitVec (maskPressed changed)) 0
            (.ofBitVec (maskLocks changed)) 0)]) := by
    simp only [stroke, consumeEvent]
    cases updated : updateByKeyEvent modifiers key (if down then 1 else 0) with
    | none => exact ⟨[], rfl, .inl ⟨rfl, rfl⟩⟩
    | some changed => exact ⟨_, rfl, .inr ⟨changed, rfl, rfl⟩⟩
  obtain ⟨asked, represented, last⟩ := asked
  have whole : wlroots.consume full (stroke time key down) handle =
      Wlroots.flush { wlroots with
        inputForClient := wlroots.inputForClient.insert handle
          ((updateByKeyEvent modifiers key (if down then 1 else 0)).getD modifiers)
        queued := wlroots.queued ++ (stroke time key down :: asked).map (.consume · handle)
        lastFlushFailed := full wlroots.flushes } := by
    simp only [Wlroots.consume, keeps.found, keeps.free, Bool.false_eq_true, if_false,
      Bool.false_and, represented]
  rw [whole]
  refine ⟨AList.lookup_insert _, keepsUp _, fun i bit => ?_⟩
  have silent : appliedTo handle (wlroots.queued ++ [.consume (stroke time key down) handle]) =
      appliedTo handle wlroots.queued := appliedTo_concat _ _ _
  rcases last with ⟨rfl, none⟩ | ⟨changed, some, rfl⟩
  · rw [none]
    exact (congrArg (fun flags : XMods => flags.getLsbD i) silent).trans (keeps.applied i bit)
  · have told : appliedTo handle (wlroots.queued ++ [.consume (stroke time key down) handle] ++
        [.consume (.keyboard (.modifiers (.ofBitVec (maskPressed changed)) 0
          (.ofBitVec (maskLocks changed)) 0)) handle]) = maskPressed changed ||| maskLocks changed := by
      rw [appliedTo_concat]
      simp [modifiersAsked]
    rw [some]
    rw [append_assoc] at told
    exact (congrArg (fun flags : XMods => flags.getLsbD i) told).trans (getLsbD_masks changed bit)

theorem wlrootsAfter_told {strokes : List KeyStroke} {typed : KeyStroke}
    (tells : Tells answer .perHandle handle strokes typed) :
    wlrootsAfter answer handle full (strokes ++ [typed]) =
      (wlrootsAfter answer handle full strokes).consume full
        (stroke typed.time typed.key typed.down) handle := by
  rw [wlrootsAfter, ((session_step answer .perHandle handle strokes typed).1 tells).1,
    Wlroots.after_concat]
  rfl

theorem wlrootsAfter_untold {strokes : List KeyStroke} {typed : KeyStroke}
    (quiet : ¬ Tells answer .perHandle handle strokes typed) :
    wlrootsAfter answer handle full (strokes ++ [typed]) = wlrootsAfter answer handle full strokes := by
  rw [wlrootsAfter, ((session_step answer .perHandle handle strokes typed).2 quiet).1]
  rfl

variable (answer) (handle)

theorem Wlroots.tracks (keepsUp : ∀ flush, full flush = false) (strokes : List KeyStroke) :
    ∃ modifiers, Wlroots.Tracks answer handle full strokes modifiers := by
  induction strokes using reverseRecOn with
  | nil =>
    refine ⟨0, ⟨?_, ?_, ?_⟩, ?_⟩
    · rw [wlrootsAfter, session_nil]
      exact AList.lookup_insert _
    · rw [wlrootsAfter, session_nil]
      rfl
    · intro i _
      rw [wlrootsAfter, session_nil]
      rfl
    · rw [session_nil, decide_eq_false (holds_nil answer .perHandle handle keyCapsLock)]
      rfl
  | append_singleton strokes typed ih =>
    obtain ⟨modifiers, keeps, lock⟩ := ih
    obtain ⟨told, untold⟩ := session_step answer .perHandle handle strokes typed
    by_cases tells : Tells answer .perHandle handle strokes typed
    · obtain ⟨calls, keys⟩ := told tells
      refine ⟨(updateByKeyEvent modifiers typed.key (if typed.down then 1 else 0)).getD modifiers,
        ?_, ?_⟩
      · rw [wlrootsAfter_told tells]
        exact keeps.consume keepsUp typed.time typed.key typed.down
      · rw [(updateByKeyEvent_follows modifiers typed.key typed.down).2, lock, calls,
          presses_stroke]
        by_cases same : typed.key = keyCapsLock
        · unfold Tells at tells
          rw [same] at tells keys
          have before : decide (Holds answer .perHandle handle strokes keyCapsLock) =
              !typed.down := by
            rw [Bool.eq_iff_iff, decide_eq_true_eq, Bool.not_eq_true', ← Bool.not_eq_true, tells,
              not_not]
          have after : decide (Holds answer .perHandle handle (strokes ++ [typed]) keyCapsLock) =
              typed.down := by
            rw [Bool.eq_iff_iff, decide_eq_true_eq, keys]
            split
            · next down => simp [down]
            · next up => simp [up]
          rw [before, after, same]
          cases typed.down with
          | true => simp [decide_odd_succ]
          | false => simp
        · have after : decide (Holds answer .perHandle handle (strokes ++ [typed]) keyCapsLock) =
              decide (Holds answer .perHandle handle strokes keyCapsLock) := by
            rw [decide_eq_decide, keys]
            have apart : keyCapsLock ≠ typed.key := Ne.symm same
            split <;> simp [apart]
          rw [after]
          simp [same]
    · obtain ⟨calls, keys⟩ := untold tells
      refine ⟨modifiers, ?_, ?_⟩
      · rw [wlrootsAfter_untold tells]
        exact keeps
      · rw [lock, calls, decide_eq_decide.mpr (keys keyCapsLock)]

end Wlroots

/-! ## Both backends -/

/-- The modifiers applied are those held, and with the locks up the lock was toggled once for
each press of its key. -/
structure ModifiersHeld (applied : XMods) (held : UInt32 → Prop) (presses : Nat) : Prop where
  flags : FlagsHeld applied held
  lock : ¬ held keyCapsLock → ¬ held keyNumlock → ¬ held keyScrollLock →
    (applied.getLsbD 1 = true ↔ presses % 2 = 1)

/-- Shift, control, alt, meta and, with the locks up, the lock are the same on both. -/
def Agree (first second : XMods) (held : UInt32 → Prop) : Prop :=
  (∀ i ∈ modifierBits, first.getLsbD i = second.getLsbD i) ∧
    (¬ held keyCapsLock → ¬ held keyNumlock → ¬ held keyScrollLock →
      first.getLsbD 1 = second.getLsbD 1)

theorem ModifiersHeld.agree {first second : XMods} {held : UInt32 → Prop} {presses : Nat}
    (right : ModifiersHeld first held presses) (right' : ModifiersHeld second held presses) :
    Agree first second held :=
  ⟨fun i bit => Bool.eq_iff_iff.mpr ((right.flags i bit).trans (right'.flags i bit).symm),
    fun caps num scroll => Bool.eq_iff_iff.mpr
      ((right.lock caps num scroll).trans (right'.lock caps num scroll).symm)⟩

section Both

variable (answer : List (Call F) → Except E Unit) (handle : Handle)
  (mac : UInt16 → Option UInt16) (hidConnect : Bool) (full : Nat → Bool)

variable {mac} {full}

end Both

/-- Left shift and left control are held at once and come up, then Caps Lock. -/
def shifted : List KeyStroke :=
  [⟨0, 42, true⟩, ⟨0, 29, true⟩, ⟨0, 42, false⟩, ⟨0, 29, false⟩, ⟨0, 58, true⟩, ⟨0, 58, false⟩]

end HopsFormal.Emulation
