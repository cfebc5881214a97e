import HopsFormal.Macos.Crossings
import HopsFormal.Macos.Stream

/-!
# What the core asks of the stream

The core sends a crossing's first event, then input of that crossing, and then has what is pending dropped or
a fault reported: its calls are in the order the stream relies on.
-/

namespace HopsFormal.Macos

open List
open Capture (CaptureEvent Position)

variable {F : Type}

def Did.call : Did F → Option (Call F)
  | .send pos event => some (.send pos event)
  | .discardPending => some .discardPending
  | .fault error => some (.fault error)
  | _ => none

def callsOf (did : List (Did F)) : List (Call F) := did.filterMap Did.call

/-- The calls are in order, and leave this crossing under way. -/
def InOrder (did : List (Did F)) (under : Option Position) : Prop :=
  (callsOf did).foldlM afterCall none = some under

theorem InOrder.aside {did : List (Did F)} {under : Option Position} (order : InOrder did under)
    {entry : Did F} (none : entry.call = none) : InOrder (did ++ [entry]) under := by
  unfold InOrder callsOf
  rw [filterMap_append, filterMap_cons_none none, filterMap_nil, append_nil]
  exact order

theorem InOrder.next {did : List (Did F)} {under after : Option Position} (order : InOrder did under)
    {entry : Did F} {call : Call F} (calls : entry.call = some call)
    (allowed : afterCall under call = some after) : InOrder (did ++ [entry]) after := by
  unfold InOrder callsOf
  rw [filterMap_append, filterMap_cons_some calls, filterMap_nil,
    foldlM_append, show List.foldlM afterCall none (List.filterMap Did.call did) = some under
    from order]
  simp [allowed]

namespace Core

/-- The calls so far are in order, and while there are taps they tell of the crossing. -/
def Calls (core : Core F) : Prop :=
  ∃ under, InOrder core.did under ∧ (core.halted = false → under = core.currentPos)

namespace Calls

variable {core next : Core F}

theorem start (shared : Shared F) : Calls (Core.start shared) := ⟨none, rfl, fun _ => rfl⟩

section

variable (calls : core.Calls)
include calls

/-- What does not touch the crossing or the taps, and is no call. -/
theorem done {entry : Did F} (none : entry.call = none) : (core.done entry).Calls := by
  obtain ⟨under, order, tells⟩ := calls
  exact ⟨under, order.aside none, tells⟩

/-- Changes of other fields. -/
theorem same (did : next.did = core.did) (pos : next.currentPos = core.currentPos)
    (halted : next.halted = core.halted) : next.Calls := by
  obtain ⟨under, order, tells⟩ := calls
  exact ⟨under, did ▸ order, fun running => pos ▸ tells (halted ▸ running)⟩

theorem tearDown (why : TearDownWhy) : (core.tearDown why).Calls := by
  rcases running : core.halted with - | -
  · obtain ⟨under, order, -⟩ := calls
    rw [tearDown_eq running]
    have down : InOrder (core.did ++ [.tearDown] ++
        (core.currentPos.elim [] fun _ => [.notify .released])) under := by
      cases core.currentPos with
      | none => exact (append_nil (core.did ++ [Did.tearDown])).symm ▸ order.aside rfl
      | some pos => exact (order.aside rfl).aside rfl
    cases why.fault with
    | none => exact ⟨under, by simpa using down, nofun⟩
    | some error =>
      have allowed : afterCall under (.fault error : Call F) = some none := by
        cases under <;> rfl
      exact ⟨none, down.next rfl allowed, nofun⟩
  · rw [Core.tearDown, if_pos running]
    exact calls

theorem onDisabled (kind : TapKind) (why : Disabled) (now : Nat) :
    (core.onDisabled kind why now).Calls := by
  have guarded : ∀ guard, ({ core with guard := guard } : Core F).Calls := fun guard =>
    calls.same rfl rfl rfl
  refine done ?_ rfl
  split
  · exact (guarded _).done rfl
  · exact (guarded _).tearDown _

theorem endCapture (running : core.halted = false) (now : Nat) : (core.endCapture now).Calls := by
  unfold Core.endCapture
  split
  · exact calls
  · next pos under =>
    obtain ⟨before, order, tells⟩ := calls
    have isUnder : before = some pos := by rw [tells running, under]
    subst isUnder
    exact ⟨none, ((order.aside rfl).next rfl rfl).aside rfl, fun _ => rfl⟩

theorem command (sound : core.Sound) (command : TapCommand) (now : Nat) :
    (core.command command now).Calls := by
  have ends : (core.endCapture now).Calls := by
    rcases running : core.halted with - | -
    · exact calls.endCapture running now
    · rw [Core.endCapture, (sound.gone running).2]
      exact calls
  unfold Core.command
  split
  · exact ends
  · split_ifs
    · exact ends
    · exact calls
  · exact calls.tearDown .halted

end

section Edges

variable [Add F] [Sub F] [One F]

theorem begin (calls : core.Calls) (running : core.halted = false)
    (under : core.currentPos = none) (pos : Position) (seen : Seen F) (bounds : Bounds F)
    (now : Nat) (granted : Bool) : (core.begin pos seen bounds now granted).Calls := by
  have asked : (({ core with taps := (core.taps.installActive granted).2 } : Core F).done
      (.installActive (core.taps.installActive granted).1)).Calls :=
    done (calls.same rfl rfl rfl) rfl
  unfold Core.begin
  dsimp only
  split
  · obtain ⟨before, order, tells⟩ := asked
    have notUnder : before = none := by rw [tells running]; exact under
    subst notUnder
    exact ⟨some pos, ((order.aside rfl).next rfl rfl).aside rfl, fun _ => rfl⟩
  · exact asked.tearDown _

variable [LE F] [DecidableLE F]

theorem checkCrossing (calls : core.Calls) (running : core.halted = false)
    (under : core.currentPos = none) (seen : Seen F) (now : Nat) (busy granted : Bool) :
    (core.checkCrossing seen now busy granted).Calls := by
  unfold Core.checkCrossing
  split
  · exact calls
  · next pos reached =>
    have cooled : ({ core with
        cooldown := core.cooldown.filter fun cooling => now < cooling.2 } : Core F).Calls :=
      calls.same rfl rfl rfl
    dsimp only
    split_ifs
    · exact cooled
    · exact cooled.begin running under pos seen _ now granted

end Edges

variable [IntCast F] (table : UInt16 → Option UInt16)

/-- Input of a crossing keeps it under way. -/
theorem forward (calls : core.Calls) (running : core.halted = false) {pos : Position}
    (under : core.currentPos = some pos) (seen : Seen F) :
    (core.forward table pos seen).Calls := by
  have sent : ∀ events : List (CaptureEvent F), .begin ∉ events →
      InOrder (core.did ++ events.map (.send pos)) (some pos) := by
    intro events input
    induction events using reverseRecOn with
    | nil =>
      obtain ⟨before, order, tells⟩ := calls
      have isUnder : before = some pos := by rw [tells running, under]
      rw [map_nil, append_nil]
      exact isUnder ▸ order
    | append_singleton events event ih =>
      rw [mem_append, not_or, mem_singleton] at input
      rw [map_append, map_singleton, ← append_assoc]
      cases event with
      | begin => exact absurd rfl input.2
      | input event => exact (ih input.1).next rfl (if_pos rfl)
  have whole : ({ core with
      modifierState := (getEvents table seen core.modifierState).modifierState
      did := core.did ++ (getEvents table seen core.modifierState).result.map (.send pos)
      } : Core F).Calls :=
    ⟨some pos, sent _ (begin_not_mem_getEvents table seen core.modifierState), fun _ => under.symm⟩
  unfold Core.forward
  dsimp only
  split_ifs
  · split
    · exact whole.done rfl
    · exact whole
  · exact whole

variable [Add F] [Sub F] [One F] [LE F] [DecidableLE F]

theorem step (calls : core.Calls) (sound : core.Sound) (act : Act F) :
    (core.step table act).Calls := by
  cases act with
  | command command now => exact calls.command sound command now
  | record asked missing | share shared => exact calls.same rfl rfl rfl
  | event kind seen now busy granted =>
    rw [step_event]
    refine done ?_ rfl
    unfold onEvent
    rcases running : core.halted with - | -
    · rw [if_neg Bool.false_ne_true]
      split
      · exact calls.onDisabled kind _ now
      · split
        · next pos under => exact calls.forward table running under seen
        · exact calls
        · next under =>
          split_ifs
          · exact calls.checkCrossing running under seen now busy granted
          · exact calls
        · exact calls
    · rw [if_pos rfl]
      exact calls

end Calls

variable [IntCast F] [Add F] [Sub F] [One F] [LE F] [DecidableLE F] (table : UInt16 → Option UInt16)

/-- Whatever happens to the core, its calls are in the order the stream relies on. -/
theorem run_calls (shared : Shared F) (acts : List (Act F)) :
    ((callsOf (run table shared acts).did).foldlM afterCall none).isSome = true := by
  have calls : (run table shared acts).Calls := by
    induction acts using reverseRecOn with
    | nil => exact .start shared
    | append_singleton acts act ih =>
      have last : run table shared (acts ++ [act]) = step table (run table shared acts) act :=
        foldl_append
      rw [last]
      exact ih.step table (.run table shared acts) act
  obtain ⟨under, order, -⟩ := calls
  exact Option.isSome_iff_exists.mpr ⟨under, order⟩

end Core

end HopsFormal.Macos
