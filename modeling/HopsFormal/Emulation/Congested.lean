import HopsFormal.Emulation.Shared
import HopsFormal.Emulation.Wlroots

/-!
# A connection that is full

The layer above takes a key or a button off its lists before it passes the release on.  While the
connection is full a device is asked for nothing, and a release passed on then is lost.
-/

namespace HopsFormal.Emulation

open Capture (Event Held Kind kind)
open List Lib Wlroots

variable {F E : Type} {calls : List (Call F)} {made : Call F} {handle : Handle} {held : Held}

theorem live_consumes {through : Handle} (events : List (Event F)) :
    Live (calls ++ events.map fun event => .consume event through) handle ↔ Live calls handle := by
  induction events using reverseRecOn with
  | nil => rw [map_nil, append_nil]
  | append_singleton events last ih =>
    rw [map_append, map_singleton, ← append_assoc, ← ih]
    exact live_consume handle

/-! ## What is asked of the devices -/

theorem consumeEvent_asked {modifiers changed : XMods} {event : Event F} {asked : List (Event F)}
    (represented : consumeEvent modifiers event = some (changed, asked)) :
    ∃ last, asked = event :: last ∧ ∀ other ∈ last, kind (.input other) = .other := by
  have alone : ∀ {some' : XMods} {this : Event F}, some (some', [this]) = some (changed, asked) →
      this = event → ∃ last, asked = event :: last ∧ ∀ other ∈ last, kind (.input other) = .other :=
    fun same this => by
      cases same
      exact ⟨[], by rw [this], nofun⟩
  unfold consumeEvent at represented
  split at represented
  · exact alone represented rfl
  · split at represented
    · exact alone represented rfl
    · cases represented
  · split at represented
    · exact alone represented rfl
    · cases represented
  · split at represented
    · exact alone represented rfl
    · cases represented
  · split at represented
    · exact alone represented rfl
    · cases represented
      exact ⟨_, rfl, fun other member => by rw [mem_singleton.mp member]; rfl⟩
  · exact alone represented rfl

theorem consumeEvent_release {event : Event F} (release : kind (.input event) = .release held)
    (modifiers : XMods) : consumeEvent modifiers event ≠ none := by
  cases event with
  | keyboard event =>
    cases event with
    | key time key state =>
      simp only [consumeEvent]
      split <;> simp
    | modifiers depressed latched locked group => simp [consumeEvent]
  | pointer event =>
    cases event with
    | motion time dx dy => simp [consumeEvent]
    | axis time axis value | axisDiscrete120 axis value => cases release
    | button time button state =>
      have up : state = 0 := by
        by_contra down
        simp [kind, down] at release
      simp [consumeEvent, up]

namespace Wlroots

variable (full : Nat → Bool)

/-- No flush before the next event would go through. -/
def Congested (wlroots : Wlroots F) : Prop :=
  wlroots.lastFlushFailed = true ∧ full wlroots.flushes = true

instance (wlroots : Wlroots F) : Decidable (wlroots.Congested full) :=
  inferInstanceAs (Decidable (_ ∧ _))

/-- What consuming an event can do to the queue. -/
inductive Asked (before : Wlroots F) (event : Event F) (handle : Handle) (after : Wlroots F) :
    Prop where
  | queued (last : List (Event F)) (quiet : ∀ other ∈ last, kind (.input other) = .other)
      (free : ¬ before.Congested full)
      (queue : after.queued =
        before.queued ++ .consume event handle :: last.map fun other => .consume other handle)
  | discarded (queue : after.queued = before.queued)
      (reason : handle ∉ before.inputForClient ∨ before.Congested full ∨
        ∃ modifiers, consumeEvent modifiers event = none)

theorem consume_asked (wlroots : Wlroots F) (event : Event F) (handle : Handle) :
    Asked full wlroots event handle (wlroots.consume full event handle) ∧
      ∀ other, other ∈ (wlroots.consume full event handle).inputForClient ↔
        other ∈ wlroots.inputForClient := by
  have checked : ∀ flushed : Wlroots F,
      flushed = (if wlroots.lastFlushFailed then wlroots.flush else wlroots) →
        flushed.queued = wlroots.queued ∧ flushed.inputForClient = wlroots.inputForClient := by
    rintro flushed rfl
    split <;> exact ⟨rfl, rfl⟩
  unfold consume
  cases found : wlroots.inputForClient.lookup handle with
  | none => exact ⟨.discarded rfl (.inl (AList.lookup_eq_none.mp found)), fun _ => Iff.rfl⟩
  | some modifiers =>
    obtain ⟨queue, inputs⟩ := checked _ rfl
    dsimp only
    split
    · next full =>
      refine ⟨.discarded queue (.inr (.inl ?_)), fun other => by rw [inputs]⟩
      exact Bool.and_eq_true_iff.mp full
    · next free =>
      cases represented : consumeEvent modifiers event with
      | none =>
        refine ⟨.discarded queue (.inr (.inr ⟨modifiers, represented⟩)), fun other => ?_⟩
        rw [inputs]
      | some result =>
        obtain ⟨changed, asked⟩ := result
        obtain ⟨last, rfl, quiet⟩ := consumeEvent_asked represented
        refine ⟨.queued last quiet (mt Bool.and_eq_true_iff.mpr free) ?_, fun other => ?_⟩
        · rw [flush_queued, queue]
          rfl
        · rw [flush_inputForClient, inputs, AList.mem_insert]
          refine or_iff_right_of_imp fun same => ?_
          rw [same, ← AList.lookup_isSome, found]
          rfl

/-- The devices there are, and those the compositor was asked for, are those of the handles
created and not destroyed since. -/
theorem after_live (calls : List (Call F)) (handle : Handle) :
    (handle ∈ (after full calls).inputForClient ↔ Live calls handle) ∧
      (Live (after full calls).queued handle ↔ Live calls handle) := by
  induction calls using reverseRecOn with
  | nil => exact ⟨iff_of_false (by simp [after, start]) (not_live_nil _), Iff.rfl⟩
  | append_singleton calls made ih =>
    rw [after_concat]
    obtain ⟨there, asked⟩ := ih
    cases made with
    | consume event through =>
      obtain ⟨did, inputs⟩ := consume_asked full (after full calls) event through
      rw [call, inputs, there, live_consume]
      refine ⟨Iff.rfl, ?_⟩
      cases did with
      | queued last quiet free queue =>
        rw [queue]
        exact (live_consumes (event :: last)).trans asked
      | discarded queue reason => rw [queue, asked]
    | create through =>
      rw [call, create, flush_inputForClient, flush_queued, AList.mem_insert]
      by_cases same : handle = through
      · subst same
        exact ⟨iff_of_true (.inl rfl) (live_create _), iff_of_true (live_create _) (live_create _)⟩
      · rw [live_other (by simpa using Ne.symm same) (by simp), there,
          live_other (by simpa using Ne.symm same) (by simp), asked]
        exact ⟨or_iff_right same, Iff.rfl⟩
    | destroy through =>
      by_cases same : handle = through
      · subst same
        have gone : ¬ Live (calls ++ [.destroy handle]) handle := not_live_destroy handle
        rw [call, destroy]
        split
        · refine ⟨iff_of_false ?_ gone, iff_of_false (not_live_destroy handle) gone⟩
          rw [flush_inputForClient, AList.mem_erase]
          exact fun kept => kept.1 rfl
        · next absent =>
          exact ⟨iff_of_false absent gone,
            iff_of_false (mt (asked.trans there.symm).mp absent) gone⟩
      · rw [live_other (by simp) (by simpa using Ne.symm same), call, destroy]
        split
        · rw [flush_inputForClient, flush_queued, AList.mem_erase, there,
            live_other (by simp) (by simpa using Ne.symm same)]
          exact ⟨and_iff_right same, asked⟩
        · exact ⟨there, asked⟩
    | terminate =>
      rw [live_other (by simp) (by simp)]
      exact ⟨there, asked⟩

end Wlroots

/-! ## One call -/

section Calls

variable (full : Nat → Bool)

def ToldDown (calls : List (Call F)) (handle : Handle) (held : Held) : Prop :=
  Down .perHandle (some handle) held (after full calls).queued

/-- A release of what the compositor was told is down comes while the connection is full. -/
def LosesUp (calls : List (Call F)) (made : Call F) : Prop :=
  ∃ event handle held, made = .consume event handle ∧ kind (.input event) = .release held ∧
    ToldDown full calls handle held ∧ (after full calls).Congested full

/-- Whatever the compositor was told is down, and not told is up, was passed down and not up. -/
def Truthful (calls : List (Call F)) : Prop :=
  ∀ handle held, ToldDown full calls handle held → Down .perHandle (some handle) held calls

def Presses (made : Call F) : Prop :=
  ∃ event handle held, made = .consume event handle ∧ kind (.input event) = .press held

/-- Releases go through devices that are there. -/
def ReleasesLive (calls : List (Call F)) (made : Call F) : Prop :=
  ∀ event handle held, made = .consume event handle → kind (.input event) = .release held →
    Live calls handle

theorem device_perHandle (handle : Handle) (held : Held) :
    device .perHandle handle held = some handle := by
  cases held <;> rfl

theorem down_unless (queue : List (Call F)) (event : Event F) (through : Handle)
    (press : kind (.input event) = .press held → through ≠ handle)
    (release : kind (.input event) = .release held → through ≠ handle) :
    Down .perHandle (some handle) held (queue ++ [.consume event through]) ↔
      Down .perHandle (some handle) held queue := by
  refine down_other (fun released => ?_) fun by_ pressed => ?_
  · obtain ⟨up, same⟩ := releasedOn_consume.mp released
    exact absurd (device_own same) (release up)
  · obtain ⟨-, down, same⟩ := pressedOn_consume.mp pressed
    exact absurd (device_own same) (press down)

/-- What follows an event in the queue presses and releases nothing. -/
theorem down_quiet (queue : List (Call F)) (last : List (Event F)) (through : Handle)
    (quiet : ∀ other ∈ last, kind (.input other) = .other) :
    Down .perHandle (some handle) held (queue ++ last.map fun other => .consume other through) ↔
      Down .perHandle (some handle) held queue := by
  induction last using reverseRecOn with
  | nil => rw [map_nil, append_nil]
  | append_singleton last event ih =>
    have silent := quiet event (mem_append_right _ (mem_singleton.mpr rfl))
    rw [map_append, map_singleton, ← append_assoc, down_unless]
    · exact ih fun other member => quiet other (mem_append_left _ member)
    · exact fun press => by rw [silent] at press; cases press
    · exact fun release => by rw [silent] at release; cases release

/-- What a call tells the compositor of a device, if it does not go unasked. -/
theorem toldDown_consume (calls : List (Call F)) (event : Event F) (through handle : Handle)
    (held : Held) :
    (ToldDown full (calls ++ [.consume event through]) handle held ↔
        ToldDown full calls handle held) ∧
      (kind (.input event) = .release held → Live calls through →
        (after full calls).Congested full) ∨
    (ToldDown full (calls ++ [.consume event through]) handle held ↔
        Down .perHandle (some handle) held
          ((after full calls).queued ++ [.consume event through])) ∧
      ¬ (after full calls).Congested full := by
  unfold ToldDown
  rw [after_concat, call]
  obtain ⟨did, -⟩ := consume_asked full (after full calls) event through
  cases did with
  | discarded queue reason =>
    refine .inl ⟨by rw [queue], fun release live => ?_⟩
    rcases reason with absent | congested | ⟨modifiers, unrepresented⟩
    · exact absurd ((after_live full calls through).1.mpr live) absent
    · exact congested
    · exact absurd unrepresented (consumeEvent_release release modifiers)
  | queued last quiet free queue =>
    refine .inr ⟨?_, free⟩
    rw [queue, ← singleton_append, ← append_assoc, down_quiet _ last through quiet]

/-- A call about no event tells nothing of keys and buttons. -/
theorem toldDown_other (calls : List (Call F)) (made : Call F)
    (other : ∀ event handle, made ≠ .consume event handle) (handle : Handle) (held : Held) :
    ToldDown full (calls ++ [made]) handle held ↔ ToldDown full calls handle held := by
  unfold ToldDown
  rw [after_concat]
  obtain ⟨no_press, no_release⟩ := quiet_other .perHandle made other
  cases made with
  | consume event through => exact absurd rfl (other event through)
  | create through =>
    exact down_other (no_release _ _) fun by_ pressed => absurd pressed (no_press _ _ by_)
  | destroy through =>
    rw [call, destroy]
    split
    · exact down_other (no_release _ _) fun by_ pressed => absurd pressed (no_press _ _ by_)
    · exact Iff.rfl
  | terminate => exact Iff.rfl

theorem truthful_step (truthful : Truthful full calls) (live : ReleasesLive calls made) :
    Truthful full (calls ++ [made]) ↔ ¬ LosesUp full calls made := by
  constructor
  · rintro truthful' ⟨event, handle, held, rfl, release, told, congested⟩
    rcases toldDown_consume full calls event handle handle held with ⟨same, -⟩ | ⟨-, free⟩
    · have down := truthful' handle held (same.mpr told)
      exact not_down_release (releasedOn_consume.mpr ⟨release, device_perHandle _ _⟩) down
    · exact free congested
  · intro keeps handle held told
    have stays : ¬ ReleasedOn .perHandle (some handle) held made →
        Down .perHandle (some handle) held calls →
          Down .perHandle (some handle) held (calls ++ [made]) := fun continues down =>
      Since.snoc_same down continues
    cases made with
    | consume event through =>
      rcases toldDown_consume full calls event through handle held with
        ⟨same, congested⟩ | ⟨same, -⟩
      · have before := same.mp told
        refine stays (fun released => ?_) (truthful handle held before)
        obtain ⟨release, here⟩ := releasedOn_consume.mp released
        obtain rfl := device_own here
        exact keeps ⟨event, through, held, rfl, release, before,
          congested release (live event through held rfl release)⟩
      · rcases Since.of_snoc (same.mp told) with ⟨by_, pressed, there⟩ | ⟨continues, before⟩
        · exact down_press pressed ((after_live full calls by_).2.mp there)
        · exact stays continues (truthful handle held before)
    | create through =>
      have silent := quiet_other .perHandle (.create through : Call F) (by simp)
      exact stays (silent.2 _ _) (truthful handle held
        ((toldDown_other full calls _ (by simp) handle held).mp told))
    | destroy through =>
      have silent := quiet_other .perHandle (.destroy through : Call F) (by simp)
      exact stays (silent.2 _ _) (truthful handle held
        ((toldDown_other full calls _ (by simp) handle held).mp told))
    | terminate =>
      have silent := quiet_other .perHandle (.terminate : Call F) (by simp)
      exact stays (silent.2 _ _) (truthful handle held
        ((toldDown_other full calls _ (by simp) handle held).mp told))

theorem stays_stuck {rest : List (Call F)} (quiet : ∀ made ∈ rest, ¬ Presses made)
    (answered : ∀ front made back, rest = front ++ made :: back →
      ReleasedOn .perHandle (some handle) held made →
        Down .perHandle (some handle) held (calls ++ front))
    (told : ToldDown full calls handle held) (up : ¬ Down .perHandle (some handle) held calls) :
    ToldDown full (calls ++ rest) handle held ∧
      ¬ Down .perHandle (some handle) held (calls ++ rest) := by
  induction rest using reverseRecOn with
  | nil =>
    rw [append_nil]
    exact ⟨told, up⟩
  | append_singleton rest made ih =>
    obtain ⟨told, up⟩ := ih (fun other member => quiet other (mem_append_left _ member))
      fun front other back split => answered front other (back ++ [made]) (by
        rw [split, append_assoc, cons_append])
    have last := quiet made (mem_append_right _ (mem_singleton.mpr rfl))
    have kept : ¬ ReleasedOn .perHandle (some handle) held made := fun released =>
      up (answered rest made [] rfl released)
    have unpressed : ∀ by_, ¬ PressedOn .perHandle (some handle) held by_ made := by
      rintro by_ ⟨event, same, press, -⟩
      exact last ⟨event, by_, held, same, press⟩
    have still : ¬ Down .perHandle (some handle) held (calls ++ rest ++ [made]) := by
      rw [down_other kept fun by_ pressed => absurd pressed (unpressed by_)]
      exact up
    rw [← append_assoc]
    refine ⟨?_, still⟩
    cases made with
    | consume event through =>
      rcases toldDown_consume full (calls ++ rest) event through handle held with
        ⟨same, -⟩ | ⟨same, -⟩
      · exact same.mpr told
      · exact same.mpr (Since.snoc_same told kept)
    | create through | destroy through | terminate =>
      exact (toldDown_other full _ _ (by simp) handle held).mpr told

end Calls

/-! ## What the layer above calls -/

variable (answer : List (Call F) → Except E Unit) {emulation : InputEmulation F}

/-- Calls that only let go, through devices that are there. -/
structure Winds (calls made : List (Call F)) : Prop where
  quiet : ∀ call ∈ made, ¬ Presses call
  live : ∀ front call back, made = front ++ call :: back → ReleasesLive (calls ++ front) call

theorem winds_nil : Winds calls [] where
  quiet := by simp
  live := by simp

theorem Winds.append {first second : List (Call F)} (before : Winds calls first)
    (after : Winds (calls ++ first) second) : Winds calls (first ++ second) := by
  refine ⟨fun call member => ?_, fun front call back split => ?_⟩
  · rcases mem_append.mp member with early | late
    · exact before.quiet call early
    · exact after.quiet call late
  · rcases append_eq_append_cons split with ⟨rest, whole, -⟩ | ⟨rest, rfl, whole⟩
    · exact before.live front call rest whole
    · rw [← append_assoc]
      exact after.live rest call back whole

theorem winds_other (other : ∀ event handle, made ≠ .consume event handle) :
    Winds calls [made] := by
  refine ⟨fun call member => ?_, fun front call back split => ?_⟩
  · rw [mem_singleton.mp member]
    rintro ⟨event, handle, held, same, -⟩
    exact other event handle same
  · have whole : call ∈ [made] := split ▸ mem_append_right _ (.head _)
    rw [mem_singleton.mp whole]
    exact fun event handle held same => absurd same (other event handle)

theorem winds_consumes {events : List (Event F)}
    (quiet : ∀ event ∈ events, ∀ held, kind (.input event) ≠ .press held)
    (live : ∀ event ∈ events, ∀ held, kind (.input event) = .release held → Live calls handle) :
    Winds calls (events.map fun event => .consume event handle) := by
  refine ⟨fun call member => ?_, fun front call back split => ?_⟩
  · obtain ⟨event, inside, rfl⟩ := mem_map.mp member
    rintro ⟨other, through, held, same, press⟩
    cases same
    exact quiet event inside held press
  · rintro other through held rfl release
    obtain ⟨early, late, rfl, rfl, rest⟩ := map_eq_append_iff.mp split
    obtain ⟨event, later, rfl, same, -⟩ := map_eq_cons_iff.mp rest
    cases same
    rw [live_consumes]
    exact live _ (mem_append_right _ (.head _)) held release

section

variable (kept : Kept emulation)
include kept

variable (order : HashOrder)

/-- Letting go of what a handle holds presses nothing, and goes through the handle's device. -/
theorem winds_releases (handle : Handle) : Winds emulation.calls
      ((((releasedButtons order emulation handle).map Held.button ++
        (releasedKeys order emulation handle).map Held.key).map letGo ++
          [(.keyboard (.modifiers 0 0 0 0) : Event F)]).map fun event => .consume event handle) := by
  have sorts : ∀ event ∈ ((releasedButtons order emulation handle).map Held.button ++
      (releasedKeys order emulation handle).map Held.key).map letGo ++
        [(.keyboard (.modifiers 0 0 0 0) : Event F)],
      (∃ held, kind (.input event) = .release held ∧ Lists emulation handle held) ∨
        kind (.input event) = .other := by
    intro event member
    rcases mem_append.mp member with release | last
    · obtain ⟨held, listed, rfl⟩ := mem_map.mp release
      refine .inl ⟨held, kind_letGo held, ?_⟩
      rcases mem_append.mp listed with button | key
      · obtain ⟨code, found, rfl⟩ := mem_map.mp button
        exact (mem_releasedButtons.mp found).1
      · obtain ⟨code, found, rfl⟩ := mem_map.mp key
        exact mem_releasedKeys.mp found
    · rw [mem_singleton.mp last]
      exact .inr rfl
  refine winds_consumes (fun event member held press => ?_) fun event member held release => ?_
  · rcases sorts event member with ⟨other, up, -⟩ | silent
    · cases press.symm.trans up
    · cases press.symm.trans silent
  · rcases sorts event member with ⟨other, -, lists⟩ | silent
    · exact (kept.formed.live handle).mp (kept.formed.lists_live lists)
    · cases release.symm.trans silent

theorem winds_destroy (handle : Handle) :
    ∃ made, (emulation.destroy answer order handle).calls = emulation.calls ++ made ∧
      Winds emulation.calls made := by
  obtain ⟨last, whole, ends⟩ := destroy_calls answer order emulation handle
  have winds := winds_releases kept order handle
  refine ⟨_ ++ last, ?_, winds.append ?_⟩
  · simp only [whole, map_append, map_map, map_cons, map_nil,
      append_assoc, cons_append, nil_append]
    rfl
  · rcases ends with rfl | rfl
    · exact winds_nil
    · exact winds_other (by simp)

theorem winds_foldl_destroy (handles : List Handle) :
    ∃ made, (handles.foldl (InputEmulation.destroy answer order) emulation).calls =
      emulation.calls ++ made ∧ Winds emulation.calls made := by
  induction handles generalizing emulation with
  | nil => exact ⟨[], (append_nil _).symm, winds_nil⟩
  | cons handle rest ih =>
    obtain ⟨first, calls, winds⟩ := winds_destroy answer kept order handle
    obtain ⟨others, whole, rest⟩ := ih (kept.destroy answer order handle)
    refine ⟨first ++ others, ?_, winds.append (by rw [← calls]; exact rest)⟩
    rw [foldl_cons, whole, calls, append_assoc]

theorem step_calls (scope : emulation.buttonScope = .perHandle) (op : Op F) :
    ∃ made, (step answer emulation op).calls = emulation.calls ++ made ∧
      (∀ call ∈ made.tail, ¬ Presses call) ∧
      ∀ front call back, made = front ++ call :: back →
        ReleasesLive (emulation.calls ++ front) call := by
  have wound : ∀ made, (step answer emulation op).calls = emulation.calls ++ made →
      Winds emulation.calls made → ∃ made, (step answer emulation op).calls =
        emulation.calls ++ made ∧ (∀ call ∈ made.tail, ¬ Presses call) ∧
          ∀ front call back, made = front ++ call :: back →
            ReleasesLive (emulation.calls ++ front) call := fun made calls winds =>
    ⟨made, calls, fun call member => winds.quiet call (mem_of_mem_tail member), winds.live⟩
  cases op with
  | create handle =>
    by_cases there : handle ∈ emulation.handles
    · refine wound [] ?_ winds_nil
      rw [step, InputEmulation.create, if_pos there, append_nil]
    · refine wound [.create handle] ?_ (winds_other (by simp))
      rw [step, InputEmulation.create, if_neg there]
      rfl
  | consume event handle =>
    have single : ∀ {call : Call F}, ReleasesLive emulation.calls call →
        (∀ other : Call F, other ∈ [call].tail → ¬ Presses other) ∧ ∀ front other back,
          [call] = front ++ other :: back → ReleasesLive (emulation.calls ++ front) other := by
      intro call live
      refine ⟨by simp, fun front other back split => ?_⟩
      cases front with
      | nil =>
        cases split
        rwa [append_nil]
      | cons head front => simp at split
    cases (consume_settled answer kept.formed handle event).consumed with
    | pressed held sort live fresh lists calls | loose held sort absent lists calls =>
      exact ⟨_, calls, single (by rintro _ _ _ ⟨⟩ up; cases sort.symm.trans up)⟩
    | released held sort holder through lists_it same lists calls =>
      refine ⟨_, calls, single ?_⟩
      rintro _ _ _ ⟨⟩ -
      rw [scope, device_perHandle, device_perHandle] at same
      rw [Option.some.inj same]
      exact (kept.formed.live holder).mp (kept.formed.lists_live lists_it)
    | passed no_press no_release lists calls =>
      exact ⟨_, calls, single (by rintro _ _ held ⟨⟩ up; exact absurd up (no_release held))⟩
    | dropped lists calls =>
      exact wound [] (by rw [append_nil]; exact calls) winds_nil
  | releaseHeld handle order =>
    refine wound _ ?_ (winds_releases kept order handle)
    simp only [step, releaseHeld_eq, map_append, map_map, map_singleton,
      append_assoc]
    rfl
  | destroy handle order =>
    obtain ⟨made, calls, winds⟩ := winds_destroy answer kept order handle
    exact wound made calls winds
  | terminate order =>
    obtain ⟨made, calls, winds⟩ :=
      winds_foldl_destroy answer kept order (order.handles emulation.handles)
    refine wound (made ++ [.terminate]) ?_ (winds.append (winds_other (by simp)))
    simp only [step, InputEmulation.terminate, InputEmulation.call, calls, append_assoc]

/-! ## Runs -/

theorem Kept.lists_iff (scope : emulation.buttonScope = .perHandle) (handle : Handle) (held : Held) :
    
    Lists emulation handle held ↔ Down .perHandle (some handle) held emulation.calls := by
  have listed := kept.accounted.listed (some handle) held
  rw [scope] at listed
  rw [← listed]
  constructor
  · intro lists
    refine .inl ⟨handle, ?_, lists⟩
    rw [scope, device_perHandle]
  · rintro (⟨other, place, lists⟩ | ⟨other, -, owed⟩)
    · rw [device_own place] at lists
      exact lists
    · cases owed

end

variable (full : Nat → Bool)

/-- The compositor's keys and buttons that are down on a device are listed for its handle. -/
def NoneStuck (emulation : InputEmulation F) : Prop :=
  ∀ handle held, ToldDown full emulation.calls handle held → Lists emulation handle held

theorem noneStuck_iff (kept : Kept emulation) (scope : emulation.buttonScope = .perHandle) :
    NoneStuck full emulation ↔ Truthful full emulation.calls :=
  forall_congr' fun handle => forall_congr' fun held => by rw [kept.lists_iff scope]

/-- An operation after which the compositor is told the truth has lost no release. -/
theorem step_loses_none {made : List (Call F)} (accounted : Accounted emulation [])
    (scope : emulation.buttonScope = .perHandle) (whole : emulation.calls = calls ++ made)
    (quiet : ∀ call ∈ made.tail, ¬ Presses call) (truthful : Truthful full emulation.calls)
    {front back : List (Call F)} {call : Call F} (split : made = front ++ call :: back) :
    ¬ LosesUp full (calls ++ front) call := by
  rintro ⟨event, handle, held, rfl, release, told, congested⟩
  have released : ReleasedOn .perHandle (some handle) held (.consume event handle : Call F) :=
    releasedOn_consume.mpr ⟨release, device_perHandle _ _⟩
  have told' : ToldDown full (calls ++ front ++ [.consume event handle]) handle held := by
    rcases toldDown_consume full (calls ++ front) event handle handle held with
      ⟨same, -⟩ | ⟨-, free⟩
    · exact same.mpr told
    · exact absurd congested free
  have rest : ∀ other ∈ back, ¬ Presses other := by
    intro other member
    refine quiet other ?_
    rw [split]
    cases front with
    | nil => exact member
    | cons first front => exact mem_append_right _ (.tail _ member)
  have answered : ∀ early other late, back = early ++ other :: late →
      ReleasedOn .perHandle (some handle) held other →
        Down .perHandle (some handle) held
          (calls ++ front ++ [.consume event handle] ++ early) := by
    intro early other late inner up
    have known := accounted.answered
      (calls ++ front ++ [.consume event handle] ++ early) other late (some handle) held
    rw [scope] at known
    exact known (by rw [whole, split, inner]; simp) up
  obtain ⟨stuck, up⟩ := stays_stuck full rest answered told' (not_down_release released)
  refine up ?_
  have down := truthful handle held
  rw [whole, split, ← append_assoc, ← singleton_append, ← append_assoc] at down
  exact down stuck

/--
In every state of a run what the compositor was told is down is listed exactly if no release of
it comes to the backend while the connection is full.
-/
theorem run_noneStuck_iff (full : Nat → Bool) (ops : List (Op F)) :
    (∀ front, front <+: ops → NoneStuck full (run answer .perHandle front)) ↔
      ∀ front made, front ++ [made] <+: (run answer .perHandle ops).calls →
        ¬ LosesUp full front made := by
  have kept : ∀ ops : List (Op F), Kept (run answer .perHandle ops) := kept_run answer .perHandle
  have scope : ∀ ops : List (Op F), (run answer .perHandle ops).buttonScope = .perHandle :=
    run_scope answer .perHandle
  have stuck : ∀ front : List (Op F), NoneStuck full (run answer .perHandle front) ↔
      Truthful full (run answer .perHandle front).calls :=
    fun front => noneStuck_iff full (kept front) (scope front)
  simp only [stuck]
  induction ops using reverseRecOn with
  | nil =>
    refine iff_of_true (fun front none => ?_) fun front made some => ?_
    · rw [prefix_nil.mp none]
      intro handle held told
      exact absurd told not_down_nil
    · simp [run, InputEmulation.withBackend] at some
  | append_singleton ops op ih =>
    obtain ⟨made, whole, quiet, live⟩ := step_calls answer (kept ops) (scope ops) op
    have stepped : run answer .perHandle (ops ++ [op]) =
        step answer (run answer .perHandle ops) op := by
      rw [run_append]
      rfl
    rw [← stepped] at whole
    constructor
    · rintro truthful front call ⟨back, split⟩
      rw [whole, append_assoc, singleton_append] at split
      rcases append_eq_append_cons split.symm with ⟨rest, early, -⟩ | ⟨rest, rfl, late⟩
      · refine ih.mp (fun first before => truthful first (before.trans ?_)) front call ?_
        · exact prefix_append _ _
        · exact ⟨rest, by rw [early]; simp⟩
      · exact step_loses_none full (kept _).accounted (scope _) whole quiet
          (truthful _ (prefix_refl _)) late
    · intro keeps front taken
      have before := ih.mpr fun first call early => keeps first call (by
        rw [whole]
        exact early.trans (prefix_append _ _))
      rcases prefix_concat_iff.mp taken with rfl | early
      · -- each call of the operation keeps what the compositor was told true
        have along : ∀ front, front <+: made →
            Truthful full ((run answer .perHandle ops).calls ++ front) := by
          intro front
          induction front using reverseRecOn with
          | nil =>
            intro _
            rw [append_nil]
            exact before ops (prefix_refl _)
          | append_singleton front call ih =>
            rintro ⟨back, split⟩
            have true_ := ih ⟨call :: back, by rw [← split]; simp⟩
            have there := live front call back (by rw [← split]; simp)
            rw [← append_assoc, truthful_step full true_ there]
            refine keeps _ call ⟨back, ?_⟩
            rw [whole, ← split]
            simp
        rw [whole]
        exact along made (prefix_refl _)
      · exact before front early

/-- The connection fills up between a key's down and its up, and the up is lost. -/
theorem up_lost :
    ¬ ∀ (full : Nat → Bool) (ops : List (Op Unit)),
      NoneStuck full (run (fun _ => (.ok () : Except Unit Unit)) .perHandle ops) := by
  intro none
  let full : Nat → Bool := fun flush => 2 ≤ flush
  let ops : List (Op Unit) :=
    [.create 1, .consume (.keyboard (.key 0 30 1)) 1, .consume (.pointer (.motion 0 () ())) 1,
      .consume (.keyboard (.key 0 30 0)) 1]
  have queue : (after full
      (run (fun _ => (.ok () : Except Unit Unit)) .perHandle ops).calls).queued =
        [.create 1] ++ [.consume (.keyboard (.key 0 30 1)) 1] ++
          [.consume (.pointer (.motion 0 () ())) 1] := by decide
  have told : ToldDown full (run (fun _ => (.ok () : Except Unit Unit)) .perHandle ops).calls 1
      (.key 30) := by
    have made : Live ([] ++ [(.create 1 : Call Unit)]) 1 := live_create 1
    unfold ToldDown
    rw [queue, down_unless _ _ _ (by simp [kind]) (by simp [kind])]
    exact down_press (pressedOn_consume.mpr ⟨rfl, rfl, rfl⟩) made
  exact absurd (none full ops 1 (.key 30) told) (by decide)

end HopsFormal.Emulation
