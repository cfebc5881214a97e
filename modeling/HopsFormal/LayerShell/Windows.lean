import HopsFormal.LayerShell.State
import Mathlib.Data.List.Induction
import Mathlib.Data.List.Nodup

/-!
# Windows that follow the outputs

All windows are made again when a description of an output ends, and an edge has its windows
made when a capture is created at it.  An output that goes away takes no window with it, and
a window that is made again is not the one that was focused.
-/

namespace HopsFormal.LayerShell

open Capture (Position)
open List Lib
open Output

variable {F : Type} {state next : State F} {act : Act F}

/-! ## What a configuration depends on -/

def Output.shown (output : Output) : Nat × Option OutputInfo := (output.wlOutput, output.info)

theorem getEdges_shown (outputs : List Output) (pos : Position) :
    (getEdges outputs pos).map (fun edge => (edge.1.wlOutput, edge.2)) =
      (outputs.map shown).filterMap fun shown =>
        shown.2.map fun info => (shown.1, info.edge pos) := by
  rw [getEdges, map_filterMap, filterMap_map]
  refine filterMap_congr fun output _ => ?_
  rw [Option.map_map]
  rfl

theorem configured_eq (outputs : List Output) (pos : Position) :
    (getOutputConfiguration outputs pos).map wlOutput =
      (((getEdges outputs pos).map fun edge => (edge.1.wlOutput, edge.2)).filter fun edge =>
        !((getEdges outputs pos.opposite).map fun edge => (edge.1.wlOutput, edge.2)).any
          fun opposite => opposite.2 = edge.2).map Prod.fst := by
  simp only [getOutputConfiguration, filter_map, map_map, any_map]
  rfl

theorem configured_congr {outputs others : List Output}
    (same : outputs.map shown = others.map shown) (pos : Position) :
    (getOutputConfiguration outputs pos).map wlOutput =
      (getOutputConfiguration others pos).map wlOutput := by
  rw [configured_eq, configured_eq, getEdges_shown, getEdges_shown, getEdges_shown,
    getEdges_shown, same]

/-- An output that is not described counts for nothing. -/
theorem configured_undescribed (outputs : List Output) {output : Output}
    (undescribed : output.info = none) (pos : Position) :
    getOutputConfiguration (outputs ++ [output]) pos = getOutputConfiguration outputs pos := by
  have edges : ∀ pos, getEdges (outputs ++ [output]) pos = getEdges outputs pos := fun pos => by
    simp [getEdges, undescribed]
  rw [getOutputConfiguration, edges, edges, getOutputConfiguration]

theorem changeOutput_map {κ : Type} (key : Output → κ) (name : UInt32) {change : Output → Output}
    (still : ∀ output, key (change output) = key output) (outputs : List Output) :
    (changeOutput name change outputs).map key = outputs.map key := by
  induction outputs with
  | nil => rfl
  | cons output rest ih =>
    rw [changeOutput]
    split
    · rw [map_cons, map_cons, still]
    · rw [map_cons, map_cons, ih]

theorem configured_described {outputs : List Output} {output : Output} {pos : Position}
    (chosen : output ∈ getOutputConfiguration outputs pos) : output.info.isSome := by
  obtain ⟨-, info, described, -⟩ := mem_getOutputConfiguration.mp chosen
  rw [described]
  rfl

/-! ## Making windows -/

namespace State

/-- Windows made for an edge from some number on, one on each output. -/
structure Made (first : Nat) (pos : Position) (outputs : List Output) (made : List Window) :
    Prop where
  outputs : made.map Window.wlOutput = outputs.map wlOutput
  pos : ∀ window ∈ made, window.pos = pos
  fresh : ∀ window ∈ made, first ≤ window.surface ∧ window.surface < first + made.length

theorem newWindow_foldl (pos : Position) (outputs : List Output)
    (described : ∀ output ∈ outputs, output.info.isSome) (state : State F) :
    ∃ made, outputs.foldl (newWindow pos) state =
      { state with
        activeWindows := state.activeWindows ++ made
        nextObject := state.nextObject + made.length } ∧
      Made state.nextObject pos outputs made := by
  induction outputs generalizing state with
  | nil => exact ⟨[], by simp, rfl, by simp, by simp⟩
  | cons output rest ih =>
    obtain ⟨made, whole, outputs, at_, fresh⟩ :=
      ih (fun other member => described other (.tail _ member)) (newWindow pos state output)
    have new : newWindow pos state output =
        { state with
          activeWindows := state.activeWindows ++ [⟨state.nextObject, output.wlOutput, pos⟩]
          nextObject := state.nextObject + 1 } := if_pos (described output (.head _))
    rw [new] at whole fresh
    refine ⟨⟨state.nextObject, output.wlOutput, pos⟩ :: made, ?_, ?_, ?_, ?_⟩
    · rw [foldl_cons, new, whole, append_assoc, length_cons,
        Nat.add_assoc, Nat.add_comm 1]
      rfl
    · rw [map_cons, map_cons, outputs]
    · exact forall_mem_cons.mpr ⟨rfl, at_⟩
    · simp only [length_cons, forall_mem_cons]
      refine ⟨by omega, fun window member => ?_⟩
      have := fresh window member
      dsimp only at this
      omega

theorem addClient_spec (state : State F) (pos : Position) :
    ∃ made, state.addClient pos =
      { state with
        activePositions := state.activePositions.insert pos
        activeWindows := state.activeWindows ++ made
        nextObject := state.nextObject + made.length } ∧
      Made state.nextObject pos (getOutputConfiguration state.outputs pos) made :=
  newWindow_foldl pos _ (fun _ chosen => configured_described chosen) _

/-- The outputs that have a window at an edge. -/
def stand (windows : List Window) (pos : Position) : List Nat :=
  (windows.filter fun window => window.pos = pos).map Window.wlOutput

theorem stand_append (windows made : List Window) (pos : Position) :
    stand (windows ++ made) pos = stand windows pos ++ stand made pos := by
  simp [stand]

theorem Made.stand {first : Nat} {pos : Position} {outputs : List Output} {made : List Window}
    (new : Made first pos outputs made) (place : Position) :
    stand made place = if place = pos then outputs.map wlOutput else [] := by
  unfold State.stand
  split
  · next here =>
    rw [filter_eq_self.mpr, new.outputs]
    exact fun window member => decide_eq_true ((new.pos window member).trans here.symm)
  · next elsewhere =>
    rw [filter_eq_nil_iff.mpr, map_nil]
    exact fun window member same =>
      elsewhere ((of_decide_eq_true same).symm.trans (new.pos window member))

/-- Windows made for edges no two of which are the same, one after the other. -/
theorem addClient_foldl (positions : List Position) (nodup : positions.Nodup) (state : State F)
    (active : ∀ pos ∈ positions, pos ∈ state.activePositions) :
    ∃ made, positions.foldl addClient state =
      { state with
        activeWindows := state.activeWindows ++ made
        nextObject := state.nextObject + made.length } ∧
      (∀ window ∈ made, state.nextObject ≤ window.surface ∧
        window.surface < state.nextObject + made.length) ∧
      ∀ place, stand made place = if place ∈ positions then
        (getOutputConfiguration state.outputs place).map wlOutput else [] := by
  induction positions generalizing state with
  | nil => exact ⟨[], by simp, by simp, fun place => by simp [State.stand]⟩
  | cons pos rest ih =>
    obtain ⟨new, nodup⟩ := nodup_cons.mp nodup
    obtain ⟨first, added, made⟩ := state.addClient_spec pos
    have inserted : state.activePositions.insert pos = state.activePositions :=
      insert_of_mem (active pos (.head _))
    rw [inserted] at added
    obtain ⟨others, whole, fresh, stands⟩ := ih nodup (state.addClient pos) (by
      rw [added]
      exact fun place member => active place (.tail _ member))
    rw [added] at whole fresh stands
    refine ⟨first ++ others, ?_, ?_, fun place => ?_⟩
    · rw [foldl_cons, added, whole, append_assoc, length_append, Nat.add_assoc]
    · rw [length_append]
      refine fun window member => ?_
      rcases mem_append.mp member with member | member
      · have := made.fresh window member
        omega
      · have := fresh window member
        dsimp only at this
        omega
    · rw [stand_append, made.stand, stands]
      by_cases here : place = pos
      · subst here
        simp [new]
      · simp [here]

theorem updateWindows_spec (state : State F) (walk : Walk Position)
    (nodup : state.activePositions.Nodup) :
    ∃ made, state.updateWindows walk =
      { state with activeWindows := made, nextObject := state.nextObject + made.length } ∧
      (∀ window ∈ made, state.nextObject ≤ window.surface ∧
        window.surface < state.nextObject + made.length) ∧
      ∀ place, stand made place = if place ∈ state.activePositions then
        (getOutputConfiguration state.outputs place).map wlOutput else [] := by
  obtain ⟨made, whole, fresh, stands⟩ :=
    addClient_foldl (walk.keys state.activePositions) ((walk.perm _).nodup_iff.mpr nodup)
      { state with activeWindows := [] } fun pos member => walk.mem_keys.mp member
  refine ⟨made, ?_, fresh, fun place => ?_⟩
  · rw [updateWindows, whole, nil_append]
  · rw [stands place]
    simp

/-! ## Windows and outputs -/

/-- The outputs that are to have a window at an edge. -/
def wanted (state : State F) (pos : Position) : List Nat :=
  if pos ∈ state.activePositions then
    (getOutputConfiguration state.outputs pos).map wlOutput
  else []

/-- One window stands at each output that is to have one at an edge, none stands elsewhere or
on an output that is gone, and the focused window is one of them. -/
structure Follows (state : State F) : Prop where
  stands : ∀ pos, stand state.activeWindows pos = state.wanted pos
  once : ∀ pos, (stand state.activeWindows pos).Nodup
  present : ∀ window ∈ state.activeWindows,
    ∃ output ∈ state.outputs, output.wlOutput = window.wlOutput
  focus : ∀ window, state.focused = some window → window ∈ state.activeWindows

/-- Active positions are listed once, and objects have numbers of their own. -/
structure Sound (state : State F) : Prop where
  nodup : state.activePositions.Nodup
  distinct : (state.outputs.map wlOutput).Nodup
  outputs : ∀ output ∈ state.outputs, output.wlOutput < state.nextObject
  surfaces : ∀ window ∈ state.activeWindows, window.surface < state.nextObject

theorem configured_sublist (outputs : List Output) (pos : Position) :
    (getOutputConfiguration outputs pos).Sublist outputs := by
  have described : (getEdges outputs pos).map Prod.fst =
      outputs.filter fun output => output.info.isSome := by
    rw [getEdges, map_filterMap, ← filterMap_eq_filter]
    refine filterMap_congr fun output _ => ?_
    cases info : output.info <;> simp [Option.guard, info]
  rw [getOutputConfiguration]
  refine (filter_sublist.map Prod.fst).trans ?_
  rw [described]
  exact filter_sublist

theorem Sound.follows (sound : state.Sound)
    (stands : ∀ pos, stand state.activeWindows pos = state.wanted pos)
    (focus : ∀ window, state.focused = some window → window ∈ state.activeWindows) :
    state.Follows := by
  refine ⟨stands, fun pos => ?_, fun window member => ?_, focus⟩
  · rw [stands, wanted]
    split
    · exact sound.distinct.sublist ((configured_sublist _ pos).map _)
    · exact nodup_nil
  · have here : window.wlOutput ∈ stand state.activeWindows window.pos :=
      mem_map_of_mem (mem_filter.mpr ⟨member, decide_eq_true rfl⟩)
    rw [stands, wanted] at here
    split at here
    · obtain ⟨output, chosen, same⟩ := mem_map.mp here
      exact ⟨output, (mem_getOutputConfiguration.mp chosen).1, same⟩
    · cases here

/-- The update of an output that is there and has been described. -/
def updates (state : State F) (name : UInt32) : Bool :=
  (state.outputs.find? fun output => output.global = name).any hasXdgInfo

theorem updateOutputInfo_spec (sound : state.Sound) (name : UInt32) (walk : Walk Position) :
    if state.updates name then
      ∃ outputs made, state.updateOutputInfo name walk =
        { state with
          outputs := outputs
          activeWindows := made
          nextObject := state.nextObject + made.length } ∧
        outputs.map wlOutput = state.outputs.map wlOutput ∧
        (∀ window ∈ made, state.nextObject ≤ window.surface ∧
          window.surface < state.nextObject + made.length) ∧
        ∀ place, stand made place = if place ∈ state.activePositions then
          (getOutputConfiguration outputs place).map wlOutput else []
    else state.updateOutputInfo name walk = state := by
  unfold updates updateOutputInfo
  cases found : state.outputs.find? fun output => output.global = name with
  | none => exact rfl
  | some output =>
    cases described : output.hasXdgInfo with
    | false => simp [described]
    | true =>
      obtain ⟨made, whole, fresh, stands⟩ := updateWindows_spec
        { state with
          outputs := changeOutput name
            (fun output => { output with info := some output.pendingInfo }) state.outputs }
        walk sound.nodup
      simp only [Option.any_some, described, if_true]
      refine ⟨_, made, whole, ?_, fresh, stands⟩
      exact changeOutput_map wlOutput name (by intro output; rfl) state.outputs

/-! ## One step -/

/-- A call that leaves windows, outputs and positions alone, and focuses windows only. -/
structure Idle (state next : State F) : Prop where
  positions : next.activePositions = state.activePositions
  windows : next.activeWindows = state.activeWindows
  outputs : next.outputs = state.outputs
  objects : next.nextObject = state.nextObject
  focus : ∀ window, next.focused = some window →
    state.focused = some window ∨ window ∈ state.activeWindows

theorem Idle.sound (idle : Idle state next) (sound : state.Sound) : next.Sound := by
  refine ⟨?_, ?_, ?_, ?_⟩
  · exact idle.positions ▸ sound.nodup
  · exact idle.outputs ▸ sound.distinct
  · rw [idle.outputs, idle.objects]
    exact sound.outputs
  · rw [idle.windows, idle.objects]
    exact sound.surfaces

theorem Idle.follows (idle : Idle state next) (sound : state.Sound) (follows : state.Follows) :
    next.Follows := by
  refine (idle.sound sound).follows (fun pos => ?_) fun window focused => ?_
  · rw [idle.windows, follows.stands, wanted, wanted, idle.positions, idle.outputs]
  · rw [idle.windows]
    exact (idle.focus window focused).elim (follows.focus window) id

theorem idle_queue (pos : Position) (event : Capture.CaptureEvent F) :
    Idle state (state.queue pos event) :=
  ⟨rfl, rfl, rfl, rfl, fun _ => .inl⟩

theorem idle_ungrab : Idle state state.ungrab := by
  unfold ungrab
  split <;> exact ⟨rfl, rfl, rfl, rfl, fun _ => .inl⟩

theorem idle_enter (surface : Nat) : Idle state (state.enter surface) := by
  unfold enter
  split
  · exact ⟨rfl, rfl, rfl, rfl, fun _ => .inl⟩
  · next window found =>
    refine ⟨rfl, rfl, rfl, rfl, fun other focused => .inr ?_⟩
    cases focused
    exact mem_of_find?_eq_some found

theorem idle_input (event : Capture.Event F) : Idle state (state.input event) := by
  unfold input
  split
  · exact ⟨rfl, rfl, rfl, rfl, fun _ => .inl⟩
  · exact idle_queue _ _

theorem idle_axis (time : UInt32) (axis : UInt8) (value : F) :
    Idle state (state.axis time axis value) := by
  unfold State.axis
  split
  · exact ⟨rfl, rfl, rfl, rfl, fun _ => .inl⟩
  · split <;> exact ⟨rfl, rfl, rfl, rfl, fun _ => .inl⟩

theorem idle_axisValue120 (axis : UInt8) (value : Int32) :
    Idle state (state.axisValue120 axis value) := by
  unfold axisValue120
  split <;> exact ⟨rfl, rfl, rfl, rfl, fun _ => .inl⟩

section

variable (sound : state.Sound)
include sound

theorem sound_addClient (pos : Position) : (state.addClient pos).Sound := by
  obtain ⟨made, whole, new⟩ := state.addClient_spec pos
  rw [whole]
  refine ⟨sound.nodup.insert, sound.distinct, fun output member => ?_, fun window member => ?_⟩
  · exact Nat.lt_add_right _ (sound.outputs output member)
  · rcases mem_append.mp member with member | member
    · exact Nat.lt_add_right _ (sound.surfaces window member)
    · exact (new.fresh window member).2

theorem sound_updateOutputInfo (name : UInt32) (walk : Walk Position) :
    (state.updateOutputInfo name walk).Sound := by
  have spec := updateOutputInfo_spec sound name walk
  split at spec
  · obtain ⟨outputs, made, whole, same, fresh, -⟩ := spec
    rw [whole]
    refine ⟨sound.nodup, ?_, ?_, fun window member => (fresh window member).2⟩
    · rw [same]
      exact sound.distinct
    · intro output member
      obtain ⟨before, there, named⟩ := mem_map.mp
        (same ▸ mem_map_of_mem member : output.wlOutput ∈ state.outputs.map wlOutput)
      rw [← named]
      exact Nat.lt_add_right _ (sound.outputs before there)
  · rw [spec]
    exact sound

theorem sound_describe (name : UInt32) (said : OutputInfo → OutputInfo) :
    (state.describe name said).Sound := by
  have same : (state.describe name said).outputs.map wlOutput = state.outputs.map wlOutput :=
    changeOutput_map wlOutput name (by intro output; rfl) state.outputs
  refine ⟨sound.nodup, same ▸ sound.distinct, fun output member => ?_, sound.surfaces⟩
  obtain ⟨before, there, named⟩ := mem_map.mp
    (same ▸ mem_map_of_mem member : output.wlOutput ∈ state.outputs.map wlOutput)
  rw [← named]
  exact sound.outputs before there

theorem sound_registerGlobal (name : UInt32) (interface : String) :
    (state.registerGlobal name interface).Sound := by
  unfold registerGlobal
  split
  · refine ⟨sound.nodup, ?_, ?_, fun window member => Nat.lt_succ_of_lt (sound.surfaces _ member)⟩
    · rw [map_append, map_singleton]
      refine nodup_append_comm.mp (nodup_cons.mpr ⟨fun member => ?_, sound.distinct⟩)
      obtain ⟨output, there, named⟩ := mem_map.mp member
      exact absurd (sound.outputs output there) (by rw [named]; exact Nat.lt_irrefl _)
    · intro output member
      rcases mem_append.mp member with member | member
      · exact Nat.lt_succ_of_lt (sound.outputs output member)
      · rw [mem_singleton.mp member]
        exact Nat.lt_succ_self _
  · exact sound

end

theorem Sound.step (sound : state.Sound) (act : Act F) : (step state act).Sound := by
  cases act with
  | global name interface => exact sound_registerGlobal sound name interface
  | globalRemove name =>
    exact ⟨sound.nodup, sound.distinct.sublist (filter_sublist.map _),
      fun output member => sound.outputs output (mem_of_mem_filter member), sound.surfaces⟩
  | logicalPosition name position =>
    exact sound_describe sound name fun info => { info with position := position }
  | logicalSize name size =>
    exact sound_describe sound name fun info => { info with size := size }
  | name name text => exact sound_describe sound name fun info => { info with name := text }
  | description name text =>
    exact sound_describe sound name fun info => { info with description := text }
  | done name walk => exact sound_updateOutputInfo sound name walk
  | enter surface => exact (idle_enter surface).sound sound
  | leave | release => exact idle_ungrab.sound sound
  | input event => exact (idle_input event).sound sound
  | axis time axis value => exact (idle_axis time axis value).sound sound
  | axisValue120 axis value => exact (idle_axisValue120 axis value).sound sound
  | frame => exact sound
  | create pos => exact sound_addClient sound pos
  | destroy pos =>
    exact ⟨sound.nodup.erase _, sound.distinct, sound.outputs,
      fun window member => sound.surfaces window (mem_of_mem_filter member)⟩

theorem sound_run (shortcutInhibitManager : Bool) (acts : List (Act F)) :
    (run shortcutInhibitManager acts).Sound := by
  induction acts using reverseRecOn with
  | nil => exact ⟨nodup_nil, nodup_nil, by simp [run, start], by simp [run, start]⟩
  | append_singleton acts act ih =>
    rw [run, foldl_append]
    exact ih.step act

theorem focus_foldl (removed : List Window) (focused : Option Window) (window : Window) :
    removed.foldl (fun focused removed => if focused = some removed then none else focused) focused =
      some window ↔ focused = some window ∧ window ∉ removed := by
  induction removed generalizing focused with
  | nil => simp
  | cons first rest ih =>
    rw [foldl_cons, ih, mem_cons]
    by_cases same : focused = some first
    · rw [if_pos same, same]
      simp only [reduceCtorEq, false_and, Option.some.injEq, false_iff, not_and, not_not]
      exact fun here => .inl here.symm
    · rw [if_neg same]
      constructor
      · rintro ⟨rfl, kept⟩
        exact ⟨rfl, fun gone => gone.elim (fun here => same (by rw [here])) kept⟩
      · rintro ⟨rfl, kept⟩
        exact ⟨rfl, fun gone => kept (.inr gone)⟩

/--
The step keeps the windows to the outputs: an output that goes away changes nothing of where
windows are to stand, no window is focused when an output is described, and a capture is
created at an edge that has none, or where nothing is to stand.
-/
def Meets (state : State F) : Act F → Prop
  | .globalRemove name => ∀ pos ∈ state.activePositions,
      (getOutputConfiguration (state.deregisterGlobal name).outputs pos).map wlOutput =
        (getOutputConfiguration state.outputs pos).map wlOutput
  | .done name _ => state.updates name → state.focused = none
  | .create pos => pos ∈ state.activePositions → getOutputConfiguration state.outputs pos = []
  | _ => True

theorem wanted_congr (positions : next.activePositions = state.activePositions)
    (shown : next.outputs.map shown = state.outputs.map shown) (pos : Position) :
    next.wanted pos = state.wanted pos := by
  rw [wanted, wanted, positions, configured_congr shown]

section

variable (sound : state.Sound)
include sound

section

variable (follows : state.Follows)
include follows

theorem Follows.describe (name : UInt32) (said : OutputInfo → OutputInfo) :
    (state.describe name said).Follows := by
  refine (sound_describe sound name said).follows (fun pos => ?_) follows.focus
  refine (follows.stands pos).trans (wanted_congr (by exact rfl) ?_ pos).symm
  exact changeOutput_map shown name (by intro output; rfl) state.outputs

theorem Follows.registerGlobal (name : UInt32) (interface : String) :
    (state.registerGlobal name interface).Follows := by
  refine (sound_registerGlobal sound name interface).follows (fun pos => ?_) ?_
  · have same := follows.stands pos
    unfold State.registerGlobal
    split
    · rw [wanted, configured_undescribed state.outputs rfl]
      exact same
    · exact same
  · unfold State.registerGlobal
    split <;> exact follows.focus

theorem follows_deregisterGlobal (name : UInt32) :
    (state.deregisterGlobal name).Follows ↔ state.Meets (.globalRemove name) := by
  have after : (state.deregisterGlobal name).Sound := sound.step (.globalRemove name)
  have wanted_active : ∀ pos ∈ state.activePositions, (state.deregisterGlobal name).wanted pos =
      (getOutputConfiguration (state.deregisterGlobal name).outputs pos).map wlOutput :=
    fun pos active => if_pos active
  constructor
  · intro follows' pos active
    rw [← wanted_active pos active, ← follows'.stands]
    exact (follows.stands pos).trans (if_pos active)
  · intro meets
    refine after.follows (fun pos => (follows.stands pos).trans ?_) follows.focus
    by_cases active : pos ∈ state.activePositions
    · rw [wanted_active pos active, meets pos active]
      exact if_pos active
    · exact (if_neg active).trans (if_neg active).symm

theorem follows_updateOutputInfo (name : UInt32) (walk : Walk Position) :
    (state.updateOutputInfo name walk).Follows ↔ state.Meets (.done name walk) := by
  have spec := updateOutputInfo_spec sound name walk
  have after := sound_updateOutputInfo sound name walk
  split at spec
  · next updated =>
    obtain ⟨outputs, made, whole, same, fresh, stands⟩ := spec
    rw [whole] at after ⊢
    constructor
    · intro follows' _
      cases focused : state.focused with
      | none => rfl
      | some window =>
        -- a window made again has a new number
        have new := (fresh window (follows'.focus window focused)).1
        exact absurd (sound.surfaces window (follows.focus window focused)) (Nat.not_lt.mpr new)
    · intro meets
      refine after.follows stands fun window focused => ?_
      cases (meets updated).symm.trans focused
  · next stale =>
    rw [spec]
    exact ⟨fun _ updated => absurd updated stale, fun _ => follows⟩

theorem follows_addClient (pos : Position) :
    (state.addClient pos).Follows ↔ state.Meets (.create pos) := by
  have after := sound_addClient sound pos
  obtain ⟨made, whole, new⟩ := state.addClient_spec pos
  rw [whole] at after ⊢
  constructor
  · intro follows' active
    have stands := follows'.stands pos
    rw [stand_append, new.stand, if_pos rfl, follows.stands, wanted, wanted,
      if_pos (mem_insert_self), if_pos active] at stands
    exact map_eq_nil_iff.mp (append_right_eq_self.mp stands)
  · intro meets
    refine after.follows (fun place => ?_) fun window focused =>
      mem_append_left _ (follows.focus window focused)
    rw [stand_append, new.stand, follows.stands, wanted, wanted]
    by_cases here : place = pos
    · subst here
      rw [if_pos rfl, if_pos mem_insert_self]
      by_cases active : place ∈ state.activePositions
      · rw [if_pos active, meets active]
        rfl
      · rw [if_neg active, nil_append]
    · simp [here]

theorem Follows.deleteClient (pos : Position) : (state.deleteClient pos).Follows := by
  have after : (state.deleteClient pos).Sound := sound.step (.destroy pos)
  refine after.follows (fun place => ?_) fun window focused => ?_
  · have stands := follows.stands place
    unfold stand wanted at stands ⊢
    simp only [State.deleteClient, filter_filter, sound.nodup.mem_erase_iff]
    by_cases here : place = pos
    · subst here
      simp
    · rw [if_congr (and_iff_right here) rfl rfl, ← stands]
      congr 1
      refine filter_congr fun window _ => ?_
      by_cases at_ : window.pos = place <;> simp [at_, here]
  · obtain ⟨before, kept⟩ := (focus_foldl _ _ window).mp focused
    have there := follows.focus window before
    refine mem_filter.mpr ⟨there, decide_eq_true fun at_ => kept ?_⟩
    exact mem_filter.mpr ⟨there, decide_eq_true at_⟩

theorem follows_step (act : Act F) : (step state act).Follows ↔ state.Meets act := by
  cases act with
  | global name interface => exact iff_of_true (follows.registerGlobal sound name interface) trivial
  | globalRemove name => exact follows_deregisterGlobal sound follows name
  | logicalPosition name position =>
    exact iff_of_true
      (follows.describe sound name fun info => { info with position := position }) trivial
  | logicalSize name size =>
    exact iff_of_true (follows.describe sound name fun info => { info with size := size }) trivial
  | name name text =>
    exact iff_of_true (follows.describe sound name fun info => { info with name := text }) trivial
  | description name text =>
    exact iff_of_true
      (follows.describe sound name fun info => { info with description := text }) trivial
  | done name walk => exact follows_updateOutputInfo sound follows name walk
  | enter surface => exact iff_of_true ((idle_enter surface).follows sound follows) trivial
  | leave | release => exact iff_of_true (idle_ungrab.follows sound follows) trivial
  | input event => exact iff_of_true ((idle_input event).follows sound follows) trivial
  | axis time axis value =>
    exact iff_of_true ((idle_axis time axis value).follows sound follows) trivial
  | axisValue120 axis value =>
    exact iff_of_true ((idle_axisValue120 axis value).follows sound follows) trivial
  | frame => exact iff_of_true follows trivial
  | create pos => exact follows_addClient sound follows pos
  | destroy pos => exact iff_of_true (follows.deleteClient sound pos) trivial

end

end

end State

/-! ## Runs -/

/--
The windows follow the outputs in every state a run goes through exactly if each of its steps
keeps them to the outputs.
-/
theorem run_follows_iff (shortcutInhibitManager : Bool) (acts : List (Act F)) :
    (∀ front, front <+: acts → (run shortcutInhibitManager front).Follows) ↔
      ∀ front act, front ++ [act] <+: acts → (run shortcutInhibitManager front).Meets act := by
  have stepped : ∀ (front : List (Act F)) act, run shortcutInhibitManager (front ++ [act]) =
      step (run shortcutInhibitManager front) act := fun front act => by
    rw [run, foldl_append]
    rfl
  constructor
  · intro follows front act taken
    have before := follows front ((prefix_append _ _).trans taken)
    have after := follows (front ++ [act]) taken
    rw [stepped] at after
    exact (State.follows_step (State.sound_run _ front) before act).mp after
  · intro meets front
    induction front using reverseRecOn with
    | nil =>
      refine fun _ => ⟨fun pos => (if_neg not_mem_nil).symm, fun pos => nodup_nil, ?_, ?_⟩
      · intro window member
        cases member
      · intro window focused
        cases focused
    | append_singleton front act ih =>
      intro taken
      have before := ih ((prefix_append _ _).trans taken)
      rw [stepped]
      exact (State.follows_step (State.sound_run _ front) before act).mpr (meets front act taken)

/-- An output a hundred wide and high is announced and described. -/
def announced (name : UInt32) (position : Int32 × Int32) : List (Act Unit) :=
  [.global name "wl_output", .logicalPosition name position, .logicalSize name (100, 100),
    .done name .asFiled]

/-- An output goes away that has a window, and whose edge had hidden that of another. -/
theorem unplugged_stays :
    ¬ ∀ acts : List (Act Unit), (run true acts).Follows := by
  intro follows
  have kept := (follows (announced 1 (0, 0) ++ announced 2 (100, 0) ++
    [.create .right, .globalRemove 2])).stands .right
  exact absurd kept (by decide)

end HopsFormal.LayerShell
