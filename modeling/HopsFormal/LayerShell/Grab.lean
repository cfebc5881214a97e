import HopsFormal.LayerShell.Windows

/-!
# The grab of a crossing

What a grab takes hold of it lets go of again when the pointer leaves or is released, but only
while a window is focused.  The focus goes with the windows of an edge, and the grab stays; one
that stays is not made again for the window entered next.
-/

namespace HopsFormal.LayerShell

open List

open Capture (Position)

variable {F : Type} {state next : State F} {act : Act F}

namespace State

/-- Nothing holds the pointer. -/
def Free (state : State F) : Prop :=
  state.pointerLock = none ∧ state.relPointer = none ∧ state.shortcutInhibitor = none

/-- Everything a grab can make is there, and was made for the surface. -/
def HeldFor (state : State F) (surface : Nat) : Prop :=
  state.pointerLock = some surface ∧ state.relPointer = some surface ∧
    state.shortcutInhibitor = if state.shortcutInhibitManager then some surface else none

/-- What a call is to leave: a crossing that begins holds the pointer for the surface entered,
and nothing holds it after a leave or a release, or without a focus. -/
structure Grabs (state : State F) (act : Act F) : Prop where
  begins : ∀ surface, act = .enter surface →
    (state.activeWindows.find? fun window => window.surface = surface).isSome →
      (step state act).HeldFor surface
  ends : act = .leave ∨ act = .release → (step state act).Free
  unfocused : (step state act).focused = none → (step state act).Free

/-- The call finds no grab in place that it would leave behind: a window is entered while the
pointer is free or held for it, and the windows of an edge go while the pointer is free or
another window is focused. -/
def Ready (state : State F) : Act F → Prop
  | .enter surface =>
    (state.activeWindows.find? fun window => window.surface = surface).isSome →
      state.Free ∨ state.HeldFor surface
  | .destroy pos =>
    (∃ window ∈ state.activeWindows, window.pos = pos ∧ state.focused = some window) → state.Free
  | _ => True

/-- The pointer is free or held for one surface, and it is free without a focus. -/
structure Tidy (state : State F) : Prop where
  whole : state.Free ∨ ∃ surface, state.HeldFor surface
  unfocused : state.focused = none → state.Free

/-- A call that leaves the grab and the focus alone. -/
structure Aside (state next : State F) : Prop where
  pointerLock : next.pointerLock = state.pointerLock
  relPointer : next.relPointer = state.relPointer
  shortcutInhibitor : next.shortcutInhibitor = state.shortcutInhibitor
  manager : next.shortcutInhibitManager = state.shortcutInhibitManager
  focused : next.focused = state.focused

theorem Aside.refl (state : State F) : Aside state state := ⟨rfl, rfl, rfl, rfl, rfl⟩

theorem Aside.free (aside : Aside state next) : next.Free ↔ state.Free := by
  rw [Free, aside.pointerLock, aside.relPointer, aside.shortcutInhibitor]
  rfl

theorem Aside.heldFor (aside : Aside state next) (surface : Nat) :
    next.HeldFor surface ↔ state.HeldFor surface := by
  rw [HeldFor, aside.pointerLock, aside.relPointer, aside.shortcutInhibitor, aside.manager]
  rfl

theorem Aside.tidy (aside : Aside state next) (tidy : state.Tidy) : next.Tidy := by
  refine ⟨?_, fun unfocused => aside.free.mpr (tidy.unfocused (aside.focused ▸ unfocused))⟩
  rcases tidy.whole with free | ⟨surface, held⟩
  · exact .inl (aside.free.mpr free)
  · exact .inr ⟨surface, (aside.heldFor surface).mpr held⟩

/-- The calls that are neither a crossing, its end nor the end of a capture. -/
theorem aside_step (enters : ∀ surface, act ≠ .enter surface) (leaves : act ≠ .leave)
    (releases : act ≠ .release) (destroys : ∀ pos, act ≠ .destroy pos) (sound : state.Sound) :
    Aside state (step state act) := by
  cases act with
  | global name interface =>
    simp only [step, registerGlobal]
    split <;> exact ⟨rfl, rfl, rfl, rfl, rfl⟩
  | globalRemove name | logicalPosition name position | logicalSize name size | name name text
  | description name text => exact ⟨rfl, rfl, rfl, rfl, rfl⟩
  | done name walk =>
    have spec := updateOutputInfo_spec sound name walk
    simp only [step]
    split at spec
    · obtain ⟨outputs, made, whole, -⟩ := spec
      rw [whole]
      exact ⟨rfl, rfl, rfl, rfl, rfl⟩
    · rw [spec]
      exact .refl state
  | enter surface => exact absurd rfl (enters surface)
  | leave => exact absurd rfl leaves
  | input event =>
    simp only [step, input]
    split <;> exact ⟨rfl, rfl, rfl, rfl, rfl⟩
  | axis time axis value =>
    simp only [step, State.axis]
    split
    · exact .refl state
    · split <;> exact ⟨rfl, rfl, rfl, rfl, rfl⟩
  | axisValue120 axis value =>
    simp only [step, axisValue120]
    split <;> exact ⟨rfl, rfl, rfl, rfl, rfl⟩
  | frame => exact .refl state
  | create pos =>
    obtain ⟨made, whole, -⟩ := state.addClient_spec pos
    simp only [step, whole]
    exact ⟨rfl, rfl, rfl, rfl, rfl⟩
  | destroy pos => exact absurd rfl (destroys pos)
  | release => exact absurd rfl releases

theorem Free.tidy (free : state.Free) : state.Tidy := ⟨.inl free, fun _ => free⟩

theorem HeldFor.not_free {surface : Nat} (held : state.HeldFor surface) : ¬state.Free :=
  fun free => by cases held.1.symm.trans free.1

theorem Tidy.ungrab_free (tidy : state.Tidy) : state.ungrab.Free := by
  unfold ungrab
  split
  · next unfocused => exact tidy.unfocused unfocused
  · exact ⟨rfl, rfl, rfl⟩

theorem heldFor_grab {window : Window} (focused : state.focused = some window) (surface : Nat) :
    (state.Free → (state.grab surface).HeldFor surface) ∧
      ∀ {other}, state.HeldFor other → (state.grab surface).HeldFor other := by
  unfold grab
  rw [focused]
  constructor
  · rintro ⟨lock, pointer, inhibitor⟩
    refine ⟨by rw [lock]; rfl, by rw [pointer]; rfl, ?_⟩
    rw [inhibitor]
    rfl
  · rintro other ⟨lock, pointer, inhibitor⟩
    refine ⟨by rw [lock]; rfl, by rw [pointer]; rfl, ?_⟩
    cases manager : state.shortcutInhibitManager <;> simp [inhibitor, manager]

theorem HeldFor.unique {surface other : Nat} (held : state.HeldFor surface)
    (held' : state.HeldFor other) : surface = other :=
  Option.some.inj (held.1.symm.trans held'.1)

theorem grabs_enter (tidy : state.Tidy) (surface : Nat) :
    (state.Grabs (.enter surface) ↔ state.Ready (.enter surface)) ∧
      (step state (.enter surface)).Tidy := by
  cases found : state.activeWindows.find? fun window => window.surface = surface with
  | none =>
    have same : step state (.enter surface) = state := by
      simp only [step, enter, found]
    refine ⟨iff_of_true ⟨fun other entered there => ?_, fun ended => ?_, fun unfocused => ?_⟩
      fun there => ?_, by rw [same]; exact tidy⟩
    · cases entered
      rw [found] at there
      cases there
    · rcases ended with ended | ended <;> cases ended
    · rw [same] at unfocused ⊢
      exact tidy.unfocused unfocused
    · rw [found] at there
      cases there
  | some window =>
    have there : (state.activeWindows.find? fun window => window.surface = surface).isSome := by
      rw [found]
      rfl
    have onWindow : ({ state with focused := some window } : State F).focused = some window := rfl
    obtain ⟨frees, holds⟩ := heldFor_grab onWindow surface
    have whole : step state (.enter surface) =
        ({ state with focused := some window }.grab surface).queue window.pos .begin := by
      simp only [step, enter, found]
    have focused : (step state (.enter surface)).focused = some window := by
      rw [whole]
      rfl
    have held : ∀ other, ({ state with focused := some window }.grab surface).HeldFor other →
        (step state (.enter surface)).HeldFor other := fun other held => by
      rw [whole]
      exact held
    have grabbed : ∃ other, (step state (.enter surface)).HeldFor other ∧
        (other = surface ↔ state.Free ∨ state.HeldFor surface) := by
      rcases tidy.whole with free | ⟨other, there⟩
      · exact ⟨surface, held _ (frees free), iff_of_true rfl (.inl free)⟩
      · refine ⟨other, held _ (holds there), fun same => .inr (same ▸ there), ?_⟩
        rintro (free | here)
        · exact absurd free there.not_free
        · exact there.unique here
    obtain ⟨other, now, same⟩ := grabbed
    refine ⟨⟨fun grabs _ => ?_, fun ready => ⟨?_, ?_, ?_⟩⟩, .inr ⟨other, now⟩, ?_⟩
    · exact same.mp (now.unique (grabs.begins surface rfl there))
    · rintro _ ⟨⟩ -
      exact same.mpr (ready there) ▸ now
    · rintro (ended | ended) <;> cases ended
    · intro unfocused
      cases focused.symm.trans unfocused
    · intro unfocused
      cases focused.symm.trans unfocused

/-- The windows of an edge go, and the pointer is free without a focus exactly if it is already
free where the focus goes with them. -/
theorem grabs_destroy (tidy : state.Tidy) (pos : Position) :
    (state.Grabs (.destroy pos) ↔ state.Ready (.destroy pos)) ∧
      (state.Ready (.destroy pos) → (step state (.destroy pos)).Tidy) := by
  have kept : ∀ window, (step state (.destroy pos)).focused = some window ↔
      state.focused = some window ∧
        window ∉ state.activeWindows.filter fun window => window.pos = pos :=
    focus_foldl _ _
  have free : state.Ready (.destroy pos) → (step state (.destroy pos)).focused = none →
      state.Free := by
    intro ready unfocused
    cases focused : state.focused with
    | none => exact tidy.unfocused focused
    | some window =>
      by_cases gone : window ∈ state.activeWindows.filter fun window => window.pos = pos
      · obtain ⟨member, here⟩ := mem_filter.mp gone
        exact ready ⟨window, member, of_decide_eq_true here, focused⟩
      · cases unfocused.symm.trans ((kept window).mpr ⟨focused, gone⟩)
  refine ⟨⟨?_, fun ready => ⟨?_, ?_, fun unfocused => free ready unfocused⟩⟩, fun ready => ?_⟩
  · rintro grabs ⟨window, member, here, focused⟩
    refine grabs.unfocused (Option.eq_none_iff_forall_ne_some.mpr fun other still => ?_)
    obtain ⟨before, stays⟩ := (kept other).mp still
    cases Option.some.inj (before.symm.trans focused)
    exact stays (mem_filter.mpr ⟨member, decide_eq_true here⟩)
  · rintro _ ⟨⟩
  · rintro (ended | ended) <;> cases ended
  · exact ⟨tidy.whole, fun unfocused => free ready unfocused⟩

/--
Where the pointer is free or held for one surface, a step leaves what it is to leave exactly
if it is ready for it, and then the pointer is free or held for one surface again.
-/
theorem grabs_step (sound : state.Sound) (tidy : state.Tidy) (act : Act F) :
    (state.Grabs act ↔ state.Ready act) ∧ (state.Ready act → (step state act).Tidy) := by
  have ended : ∀ act : Act F, (act = .leave ∨ act = .release) → step state act = state.ungrab := by
    rintro _ (rfl | rfl) <;> rfl
  have ungrabs : ∀ act : Act F, (act = .leave ∨ act = .release) → state.Ready act →
      (state.Grabs act ↔ state.Ready act) ∧ (state.Ready act → (step state act).Tidy) := by
    intro act ends ready
    have free : (step state act).Free := ended act ends ▸ tidy.ungrab_free
    refine ⟨iff_of_true ⟨?_, fun _ => free, fun _ => free⟩ ready, fun _ => free.tidy⟩
    rintro surface rfl
    rcases ends with ends | ends <;> cases ends
  have asides : (∀ surface, act ≠ .enter surface) → act ≠ .leave → act ≠ .release →
      (∀ pos, act ≠ .destroy pos) → state.Ready act →
        (state.Grabs act ↔ state.Ready act) ∧ (state.Ready act → (step state act).Tidy) := by
    intro enters leaves releases destroys ready
    have after := (aside_step enters leaves releases destroys sound).tidy tidy
    refine ⟨iff_of_true ⟨?_, ?_, after.unfocused⟩ ready, fun _ => after⟩
    · exact fun surface entered => absurd entered (enters surface)
    · exact fun ends => absurd ends (not_or.mpr ⟨leaves, releases⟩)
  cases act with
  | enter surface => exact ⟨(grabs_enter tidy surface).1, fun _ => (grabs_enter tidy surface).2⟩
  | leave => exact ungrabs .leave (.inl rfl) trivial
  | release => exact ungrabs .release (.inr rfl) trivial
  | destroy pos => exact grabs_destroy tidy pos
  | _ => exact asides (by simp) (by simp) (by simp) (by simp) trivial

theorem tidy_start (shortcutInhibitManager : Bool) :
    (start shortcutInhibitManager : State F).Tidy :=
  Free.tidy ⟨rfl, rfl, rfl⟩

end State

/-! ## Runs -/

/--
Each step of a run leaves the grab as it is to be left exactly if each finds the pointer free,
or held for the surface entered, where it takes hold of it or takes the focus.
-/
theorem run_grabs_iff (shortcutInhibitManager : Bool) (acts : List (Act F)) :
    (∀ front act, front ++ [act] <+: acts → (run shortcutInhibitManager front).Grabs act) ↔
      ∀ front act, front ++ [act] <+: acts → (run shortcutInhibitManager front).Ready act := by
  have stepped : ∀ (front : List (Act F)) act, run shortcutInhibitManager (front ++ [act]) =
      step (run shortcutInhibitManager front) act := fun front act => by
    rw [run, foldl_append]
    rfl
  have tidies : (∀ front act, front ++ [act] <+: acts →
      (run shortcutInhibitManager front).Tidy → (run shortcutInhibitManager front).Ready act) →
        ∀ front, front <+: acts → (run shortcutInhibitManager front).Tidy := by
    intro ready front
    induction front using List.reverseRecOn with
    | nil => exact fun _ => State.tidy_start _
    | append_singleton front act ih =>
      intro taken
      have before := ih ((prefix_append _ _).trans taken)
      rw [stepped]
      exact (State.grabs_step (State.sound_run _ front) before act).2 (ready front act taken before)
  have steps : ∀ front (act : Act F), (run shortcutInhibitManager front).Tidy →
      ((run shortcutInhibitManager front).Grabs act ↔
        (run shortcutInhibitManager front).Ready act) :=
    fun front act tidy => (State.grabs_step (State.sound_run _ front) tidy act).1
  constructor
  · intro grabs front act taken
    have tidy := tidies (fun front act taken tidy => (steps front act tidy).mp (grabs _ _ taken))
      front ((prefix_append _ _).trans taken)
    exact (steps front act tidy).mp (grabs front act taken)
  · intro ready front act taken
    have tidy := tidies (fun front act taken _ => ready front act taken) front
      ((prefix_append _ _).trans taken)
    exact (steps front act tidy).mpr (ready front act taken)

/-- The capture of the edge being crossed is destroyed, and the pointer stays locked. -/
theorem destroyed_stays_locked :
    ¬ ∀ (acts : List (Act Unit)) (act : Act Unit), (run true acts).Grabs act := by
  intro grabs
  have free := (grabs (announced 1 (0, 0) ++ [.create .right, .enter 1]) (.destroy .right)).unfocused
    (by decide)
  exact absurd free.1 (by decide)

end HopsFormal.LayerShell
