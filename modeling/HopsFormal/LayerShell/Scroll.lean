import HopsFormal.LayerShell.Windows

/-!
# Scrolling that is counted once

A wheel step comes with plain scrolling of its axis in the same frame, which is not to be told
as well.  One flag, shared by both axes and all frames, says that the next plain scrolling is
the double of a step.
-/

namespace HopsFormal.LayerShell

open List
open Capture (Position CaptureEvent PointerEvent)

variable {F : Type} {state : State F}

/-! ## Frames -/

/-- Plain scrolling, or a step of the wheel. -/
inductive Scroll (F : Type) where
  | axis (time : UInt32) (axis : UInt8) (value : F)
  | axisValue120 (axis : UInt8) (value : Int32)

namespace Scroll

def act : Scroll F → Act F
  | .axis time along value => .axis time along value
  | .axisValue120 along value => .axisValue120 along value

/-- What is told of it, if anything is. -/
def event : Scroll F → PointerEvent F
  | .axis time along value => .axis time along value
  | .axisValue120 along value => .axisDiscrete120 along value

def plain : Scroll F → Option UInt8
  | .axis _ along _ => some along
  | .axisValue120 _ _ => none

def wheel : Scroll F → Option UInt8
  | .axis _ _ _ => none
  | .axisValue120 along _ => some along

end Scroll

variable {pending : Bool} {wheel : List UInt8} {frame : List (Scroll F)}

/-- The axes of the plain scrolling of a frame. -/
def plains (frame : List (Scroll F)) : List UInt8 := frame.filterMap Scroll.plain

/-- The axes of the wheel steps of a frame. -/
def steps (frame : List (Scroll F)) : List UInt8 := frame.filterMap Scroll.wheel

/-- Each wheel step comes with exactly one plain event of its axis. -/
def Coupled (frame : List (Scroll F)) : Prop :=
  ((plains frame).filter fun axis => axis ∈ steps frame).Perm (steps frame)

/-- The wheel steps, and the plain scrolling of the axes that have none. -/
def counted (wheel : List UInt8) (frame : List (Scroll F)) : List (Scroll F) :=
  frame.filter fun scroll => scroll.plain.all fun axis => axis ∉ wheel

def told : Bool → List (Scroll F) → List (Scroll F)
  | _, [] => []
  | _, .axisValue120 axis value :: rest => .axisValue120 axis value :: told true rest
  | true, .axis _ _ _ :: rest => told false rest
  | false, .axis time axis value :: rest => .axis time axis value :: told false rest

def pendingAfter : Bool → List (Scroll F) → Bool
  | pending, [] => pending
  | _, .axisValue120 _ _ :: rest => pendingAfter true rest
  | _, .axis _ _ _ :: rest => pendingAfter false rest

/-- Plain scrolling comes straight after a wheel step, with no other plain scrolling between
them, exactly if its axis has wheel steps. -/
def Alternates (wheel : List UInt8) : Bool → List (Scroll F) → Prop
  | _, [] => True
  | _, .axisValue120 _ _ :: rest => Alternates wheel true rest
  | pending, .axis _ axis _ :: rest => (pending = true ↔ axis ∈ wheel) ∧ Alternates wheel false rest

theorem told_of_alternates (alternates : Alternates wheel pending frame) :
    told pending frame = counted wheel frame := by
  induction frame generalizing pending with
  | nil => rfl
  | cons scroll rest ih =>
    cases scroll with
    | axisValue120 axis value => exact congrArg (List.cons _) (ih alternates)
    | axis time axis value =>
      obtain ⟨here, later⟩ := alternates
      cases pending with
      | false =>
        have other : axis ∉ wheel := fun member => Bool.noConfusion (here.mpr member)
        simpa [told, counted, Scroll.plain, other] using ih later
      | true =>
        have same : axis ∈ wheel := here.mp rfl
        simpa [told, counted, Scroll.plain, same] using ih later

theorem plains_told_le (pending : Bool) (frame : List (Scroll F)) (axis : UInt8) :
    (plains (told pending frame)).count axis ≤ (plains frame).count axis := by
  have sublist : ∀ pending : Bool, (told pending frame).Sublist frame := by
    induction frame with
    | nil => exact fun _ => .slnil
    | cons scroll rest ih =>
      intro pending
      cases scroll with
      | axisValue120 axis value => exact (ih true).cons_cons _
      | axis time axis value =>
        cases pending with
        | true => exact (ih false).cons _
        | false => exact (ih false).cons_cons _
  exact ((sublist pending).filterMap _).count_le axis

theorem plains_counted (wheel : List UInt8) (frame : List (Scroll F)) (axis : UInt8) :
    (plains (counted wheel frame)).count axis =
      if axis ∈ wheel then 0 else (plains frame).count axis := by
  induction frame with
  | nil => simp [plains, counted]
  | cons scroll rest ih =>
    cases scroll with
    | axisValue120 other value => exact ih
    | axis time other value =>
      by_cases listed : other ∈ wheel
      · have whole : counted wheel (.axis time other value :: rest) = counted wheel rest := by
          simp [counted, Scroll.plain, listed]
        rw [whole, ih]
        split
        · rfl
        · next unlisted =>
          have differ : other ≠ axis := fun same => unlisted (same ▸ listed)
          simp [plains, Scroll.plain, differ]
      · have whole : counted wheel (.axis time other value :: rest) =
            .axis time other value :: counted wheel rest := by
          simp [counted, Scroll.plain, listed]
        rw [whole]
        have here : ∀ scrolls : List (Scroll F), (plains (.axis time other value :: scrolls)) =
            other :: plains scrolls := fun _ => rfl
        rw [here, here, count_cons, count_cons, ih]
        by_cases same : other = axis
        · subst same
          simp [listed]
        · simp [same]

theorem alternates_of_count (same : ∀ axis,
    (plains (told pending frame)).count axis = (plains (counted wheel frame)).count axis) :
    Alternates wheel pending frame := by
  induction frame generalizing pending with
  | nil => trivial
  | cons scroll rest ih =>
    cases scroll with
    | axisValue120 axis value => exact ih same
    | axis time axis value =>
      have here : ∀ scrolls : List (Scroll F), (plains (.axis time axis value :: scrolls)) =
          axis :: plains scrolls := fun _ => rfl
      have less := plains_told_le false rest axis
      simp only [plains_counted, here, count_cons] at same ih
      cases pending with
      | false =>
        have other : axis ∉ wheel := fun listed => by
          have excess := same axis
          rw [told, here, if_pos listed, count_cons_self] at excess
          omega
        refine ⟨iff_of_false Bool.false_ne_true other, ih fun place => ?_⟩
        have equal := same place
        rw [told, here, count_cons] at equal
        split at equal <;> split <;> simp_all
      | true =>
        have listed : axis ∈ wheel := by
          by_contra unlisted
          have missed := same axis
          rw [told, if_neg unlisted] at missed
          simp only [beq_self_eq_true, if_true] at missed
          omega
        refine ⟨iff_of_true rfl listed, ih fun place => ?_⟩
        have equal := same place
        rw [told] at equal
        rw [equal]
        split
        · rfl
        · next unlisted =>
          have differ : axis ≠ place := fun same => unlisted (same ▸ listed)
          simp [differ]

theorem told_perm_iff (pending : Bool) (frame : List (Scroll F)) :
    (told pending frame).Perm (counted wheel frame) ↔ Alternates wheel pending frame := by
  constructor
  · intro perm
    exact alternates_of_count fun axis => (perm.filterMap Scroll.plain).count_eq axis
  · intro alternates
    rw [told_of_alternates alternates]

/-- Each plain event of an axis with wheel steps answers a step before it. -/
theorem pendingAfter_count (alternates : Alternates wheel pending frame) :
    ((plains frame).filter fun axis => axis ∈ wheel).length + (pendingAfter pending frame).toNat ≤
      (steps frame).length + pending.toNat := by
  induction frame generalizing pending with
  | nil => exact Nat.le_refl _
  | cons scroll rest ih =>
    cases scroll with
    | axisValue120 axis value =>
      have later := ih alternates
      simp only [Bool.toNat_true] at later
      simp only [plains, steps, Scroll.plain, Scroll.wheel, filterMap_cons, pendingAfter,
        length_cons] at later ⊢
      omega
    | axis time axis value =>
      obtain ⟨here, rest'⟩ := alternates
      have later := ih rest'
      simp only [Bool.toNat_false] at later
      simp only [plains, steps, Scroll.plain, Scroll.wheel, filterMap_cons, pendingAfter,
        filter_cons] at later ⊢
      by_cases listed : axis ∈ wheel
      · rw [here.mpr listed]
        simp only [listed, decide_true, if_true, length_cons, Bool.toNat_true]
        omega
      · simp only [listed, decide_false, Bool.false_eq_true, if_false]
        omega

theorem Coupled.pendingAfter (coupled : Coupled frame)
    (alternates : Alternates (steps frame) false frame) : pendingAfter false frame = false := by
  have counts := pendingAfter_count alternates
  rw [coupled.length_eq] at counts
  cases after : LayerShell.pendingAfter false frame with
  | false => rfl
  | true =>
    rw [after] at counts
    simp only [Bool.toNat_true, Bool.toNat_false] at counts
    omega

/-! ## Turns of a run -/

def Act.scrolls : Act F → Bool
  | .axis _ _ _ | .axisValue120 _ _ => true
  | _ => false

/-- A frame of scrolling, or anything else that happens between two frames. -/
inductive Turn (F : Type) where
  | frame (scrolls : List (Scroll F))
  | other (act : Act F) (still : act.scrolls = false)

def Turn.acts : Turn F → List (Act F)
  | .frame scrolls => scrolls.map Scroll.act ++ [.frame]
  | .other act _ => [act]

/-- The state once some turns are taken. -/
def turned (shortcutInhibitManager : Bool) (turns : List (Turn F)) : State F :=
  run shortcutInhibitManager (turns.flatMap Turn.acts)

namespace State

/-- What a frame is to add to the queue: nothing without a focus. -/
def owed (state : State F) (frame : List (Scroll F)) : List (Position × CaptureEvent F) :=
  match state.focused with
  | none => []
  | some window =>
    (counted (steps frame) frame).map fun scroll => (window.pos, .input (.pointer scroll.event))

/-- The frame adds each event it is to add once, and no other. -/
def CountsOnce (state : State F) (frame : List (Scroll F)) : Prop :=
  ((Turn.frame frame).acts.foldl step state).pendingEvents.Perm
    (state.pendingEvents ++ state.owed frame)

theorem scroll_unfocused (unfocused : state.focused = none) (frame : List (Scroll F)) :
    (frame.map Scroll.act).foldl step state = state := by
  induction frame with
  | nil => rfl
  | cons scroll rest ih =>
    have same : step state scroll.act = state := by
      cases scroll <;> simp [Scroll.act, step, State.axis, State.axisValue120, unfocused]
    rw [map_cons, foldl_cons, same, ih]

theorem scroll_focused {window : Window} (focused : state.focused = some window)
    (frame : List (Scroll F)) :
    (frame.map Scroll.act).foldl step state =
      { state with
        pendingEvents := state.pendingEvents ++ (told state.scrollDiscretePending frame).map
          fun scroll => (window.pos, .input (.pointer scroll.event))
        scrollDiscretePending := pendingAfter state.scrollDiscretePending frame } := by
  induction frame generalizing state with
  | nil => simp [told, pendingAfter]
  | cons scroll rest ih =>
    rw [map_cons, foldl_cons]
    cases scroll with
    | axisValue120 axis value =>
      have first : step state (Scroll.act (.axisValue120 axis value)) =
          { state with scrollDiscretePending := true }.queue window.pos
            (.input (.pointer (.axisDiscrete120 axis value))) := by
        simp only [Scroll.act, step, State.axisValue120, focused]
      rw [first, ih (by exact focused)]
      simp [queue, told, pendingAfter, Scroll.event]
    | axis time axis value =>
      cases pending : state.scrollDiscretePending with
      | true =>
        have first : step state (Scroll.act (.axis time axis value)) =
            { state with scrollDiscretePending := false } := by
          simp only [Scroll.act, step, State.axis, focused, pending, if_true]
        rw [first, ih (by exact focused)]
        simp [told, pendingAfter]
      | false =>
        have first : step state (Scroll.act (.axis time axis value)) =
            state.queue window.pos (.input (.pointer (.axis time axis value))) := by
          simp only [Scroll.act, step, State.axis, focused, pending, Bool.false_eq_true, if_false]
        rw [first, ih (by exact focused)]
        simp [queue, told, pendingAfter, Scroll.event, pending]

theorem event_injective {window : Window} : Function.Injective fun scroll : Scroll F =>
    (window.pos, CaptureEvent.input (.pointer scroll.event)) := by
  intro scroll other same
  cases scroll <;> cases other <;> simp_all [Scroll.event]

/-- Scrolling is told once in a frame exactly if there is no focus, or wheel steps and plain
scrolling alternate from the flag as it was. -/
theorem countsOnce_iff (frame : List (Scroll F)) :
    state.CountsOnce frame ↔
      (state.focused.isSome → Alternates (steps frame) state.scrollDiscretePending frame) := by
  have ended : (Turn.frame frame).acts.foldl step state =
      (frame.map Scroll.act).foldl step state := by
    rw [Turn.acts, foldl_append]
    rfl
  unfold CountsOnce owed
  rw [ended]
  cases focused : state.focused with
  | none =>
    rw [scroll_unfocused focused, append_nil]
    exact iff_of_true (.refl _) nofun
  | some window =>
    rw [scroll_focused focused, perm_append_left_iff, map_perm_map_iff event_injective,
      told_perm_iff]
    exact ⟨fun alternates _ => alternates, fun alternates => alternates rfl⟩

theorem pendingAfter_turn (frame : List (Scroll F)) :
    ((Turn.frame frame).acts.foldl step state).scrollDiscretePending =
      if state.focused.isSome then pendingAfter state.scrollDiscretePending frame
      else state.scrollDiscretePending := by
  have ended : (Turn.frame frame).acts.foldl step state =
      (frame.map Scroll.act).foldl step state := by
    rw [Turn.acts, foldl_append]
    rfl
  rw [ended]
  cases focused : state.focused with
  | none => rw [scroll_unfocused focused]; rfl
  | some window => rw [scroll_focused focused]; rfl

theorem scrollDiscretePending_step {act : Act F} (sound : state.Sound)
    (still : act.scrolls = false) :
    (step state act).scrollDiscretePending = state.scrollDiscretePending := by
  cases act with
  | global name interface =>
    simp only [step, registerGlobal]
    split <;> rfl
  | done name walk =>
    have spec := updateOutputInfo_spec sound name walk
    simp only [step]
    split at spec
    · obtain ⟨outputs, made, whole, -⟩ := spec
      rw [whole]
    · rw [spec]
  | enter surface =>
    simp only [step, enter]
    split
    · rfl
    · unfold grab
      split <;> rfl
  | leave | release =>
    simp only [step, ungrab]
    split <;> rfl
  | input event =>
    simp only [step, input]
    split <;> rfl
  | axis time axis value | axisValue120 axis value => cases still
  | create pos =>
    obtain ⟨made, whole, -⟩ := state.addClient_spec pos
    simp only [step, whole]
  | _ => rfl

end State

/-! ## Runs -/

/--
Where each wheel step comes with its plain scrolling, all scrolling of a run is told once
exactly if wheel steps and the plain scrolling of their axes alternate, a step first, in each
frame that comes while a window is focused.
-/
theorem turned_countsOnce_iff (shortcutInhibitManager : Bool) (turns : List (Turn F))
    (coupled : ∀ frame, .frame frame ∈ turns → Coupled frame) :
    (∀ front frame, front ++ [.frame frame] <+: turns →
        (turned shortcutInhibitManager front).CountsOnce frame) ↔
      ∀ front frame, front ++ [.frame frame] <+: turns →
        (turned shortcutInhibitManager front).focused.isSome →
          Alternates (steps frame) false frame := by
  have stepped : ∀ (front : List (Turn F)) turn, turned shortcutInhibitManager (front ++ [turn]) =
      turn.acts.foldl step (turned shortcutInhibitManager front) := fun front turn => by
    rw [turned, run, flatMap_append, foldl_append, flatMap_singleton]
    rfl
  -- the flag is down between the turns, as each frame takes the doubles of its own steps
  have down : (∀ front frame, front ++ [.frame frame] <+: turns →
      (turned shortcutInhibitManager front).scrollDiscretePending = false →
        (turned shortcutInhibitManager front).focused.isSome →
          Alternates (steps frame) false frame) →
      ∀ front, front <+: turns →
        (turned shortcutInhibitManager front).scrollDiscretePending = false := by
    intro alternates front
    induction front using reverseRecOn with
    | nil => exact fun _ => rfl
    | append_singleton front turn ih =>
      intro taken
      have before := ih ((prefix_append _ _).trans taken)
      rw [stepped]
      cases turn with
      | other act still =>
        exact (State.scrollDiscretePending_step (State.sound_run _ _) still).trans before
      | frame frame =>
        rw [State.pendingAfter_turn, before]
        split
        · next focused =>
          have own := coupled frame (taken.subset (mem_concat_self))
          exact own.pendingAfter (alternates front frame taken before focused)
        · rfl
  have steps : ∀ front frame, (turned shortcutInhibitManager front).scrollDiscretePending = false →
      ((turned shortcutInhibitManager front).CountsOnce frame ↔
        ((turned shortcutInhibitManager front).focused.isSome →
          Alternates (LayerShell.steps frame) (false : Bool) (frame : List (Scroll F)))) :=
    fun front frame flag => by rw [State.countsOnce_iff, flag]
  constructor
  · intro counts front frame taken
    have flag := down (fun front frame taken flag => (steps front frame flag).mp (counts _ _ taken))
      front ((prefix_append _ _).trans taken)
    exact (steps front frame flag).mp (counts front frame taken)
  · intro alternates front frame taken
    have flag := down (fun front frame taken _ => alternates front frame taken) front
      ((prefix_append _ _).trans taken)
    exact (steps front frame flag).mpr (alternates front frame taken)

/-- A capture is made at the right edge of the only output, and the pointer crosses it. -/
def crossed : List (Turn Unit) :=
  [.other (.global 1 "wl_output") rfl, .other (.logicalSize 1 (100, 100)) rfl,
    .other (.done 1 .asFiled) rfl, .other (.create .right) rfl, .other (.enter 1) rfl]

theorem turned_countsOnce_iff_wheel :
    (∀ front frame, front ++ [.frame frame] <+: crossed ++
        [.frame [.axisValue120 0 120, .axis 0 0 ()], .frame [.axis 1 0 ()]] →
          (turned true front).CountsOnce frame) ↔
      ∀ front frame, front ++ [.frame frame] <+: crossed ++
        [.frame [.axisValue120 0 120, .axis 0 0 ()], .frame [.axis 1 0 ()]] →
          (turned true front).focused.isSome → Alternates (steps frame) false frame :=
  turned_countsOnce_iff true _ (by
    intro frame member
    simp only [crossed, cons_append, nil_append, mem_cons, Turn.frame.injEq,
      reduceCtorEq, not_mem_nil, or_false, false_or] at member
    rcases member with rfl | rfl <;> unfold Coupled <;> decide)

/-- A wheel is turned along both axes in one frame, and one of the two is told twice. -/
theorem both_axes_doubled :
    ¬ ∀ (front : List (Turn Unit)) (frame : List (Scroll Unit)),
      (∀ before, .frame before ∈ front ++ [.frame frame] → Coupled before) →
        (turned true front).CountsOnce frame := by
  intro counts
  have once := counts crossed
    [.axisValue120 0 120, .axisValue120 1 120, .axis 0 0 (), .axis 0 1 ()] (by
      intro frame member
      simp only [crossed, cons_append, nil_append, mem_cons, Turn.frame.injEq,
        reduceCtorEq, not_mem_nil, or_false, false_or] at member
      subst member
      unfold Coupled
      decide)
  exact absurd once.length_eq (by decide)

end HopsFormal.LayerShell
