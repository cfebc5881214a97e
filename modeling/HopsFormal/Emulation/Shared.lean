import HopsFormal.Emulation.LettingGo

/-!
# One device, several peers

Buttons are counted across the handles of a device: a button is down exactly
while a live handle lists it, a release goes out only for a button that is down
and never for one that another handle of the device still holds.  Keys are not:
each handle's presses and releases balance, but a key that two handles hold is
released as soon as one of them lets go.
-/

namespace HopsFormal.Emulation

open Capture (Event Held Kind kind)
open List Lib InputEmulation

variable {F E : Type} (answer : List (Call F) → Except E Unit)

/-! ## Tearing down -/

theorem destroy_calls (order : HashOrder) (emulation : InputEmulation F) (handle : Handle) :
    ∃ last, (emulation.destroy answer order handle).calls = emulation.calls ++
        (((releasedButtons order emulation handle).map Held.button ++
          (releasedKeys order emulation handle).map Held.key).map
            fun held => .consume (letGo held) handle) ++
        .consume (.keyboard (.modifiers 0 0 0 0)) handle :: last ∧
      (last = [] ∨ last = [.destroy handle]) := by
  simp only [destroy, releaseHeld_eq]
  split
  · exact ⟨[.destroy handle], by simp [call], .inr rfl⟩
  · exact ⟨[], by simp, .inl rfl⟩

variable {emulation : InputEmulation F} {handle other : Handle} {made : List (Call F)}
  {key : UInt32} {scope : ButtonScope}

theorem teardown_release {order : HashOrder}
    (calls : (emulation.destroy answer order handle).calls = emulation.calls ++ made)
    {call : Call F} (member : call ∈ made) {on : Option Handle} {held : Held}
    (released : ReleasedOn emulation.buttonScope on held call) :
    device emulation.buttonScope handle held = on ∧ Lists emulation handle held ∧
      ∀ other, other ≠ handle →
        device emulation.buttonScope other held = device emulation.buttonScope handle held →
        ¬ Lists emulation other held := by
  obtain ⟨last, whole, ends⟩ := destroy_calls answer order emulation handle
  rw [append_assoc] at whole
  have same := append_cancel_left (calls.symm.trans whole)
  rw [same] at member
  obtain ⟨event, through, rfl, releases, place⟩ := released
  rcases mem_append.mp member with early | late
  · obtain ⟨what, inside, equal⟩ := mem_map.mp early
    cases equal
    cases (kind_letGo what).symm.trans releases
    refine ⟨place, ?_, ?_⟩
    · rcases mem_append.mp inside with button | key
      · obtain ⟨code, found, rfl⟩ := mem_map.mp button
        exact (mem_releasedButtons.mp found).1
      · obtain ⟨code, found, rfl⟩ := mem_map.mp key
        exact mem_releasedKeys.mp found
    · intro other apart level lists
      rcases mem_append.mp inside with button | key
      · obtain ⟨code, found, rfl⟩ := mem_map.mp button
        have alone := (mem_releasedButtons.mp found).2
        cases scope : emulation.buttonScope with
        | machine =>
          have shared := heldByOther_iff.mpr ⟨scope, other, apart, lists⟩
          rw [alone] at shared
          cases shared
        | perHandle =>
          rw [scope] at level
          exact apart (Option.some.inj level)
      · obtain ⟨code, found, rfl⟩ := mem_map.mp key
        exact apart (Option.some.inj level)
  · rcases mem_cons.mp late with equal | later
    · cases equal
      cases releases
    · rcases ends with rfl | rfl
      · cases later
      · cases mem_singleton.mp later

variable (order : HashOrder)

theorem destroy_handles (emulation : InputEmulation F) (handle : Handle) :
    (emulation.destroy answer order handle).handles = emulation.handles.erase handle := by
  simp only [destroy, releaseHeld_eq]
  split
  · rfl
  · rename_i absent
    exact (erase_of_not_mem absent).symm

theorem terminate_handles : (emulation.terminate answer order).handles = [] := by
  have left : ∀ (handles : List Handle) (start : InputEmulation F),
      (handles.foldl (destroy answer order) start).handles = start.handles.diff handles := by
    intro handles
    induction handles with
    | nil => intro start; rw [foldl_nil, diff_nil]
    | cons handle rest ih =>
      intro start
      rw [foldl_cons, ih, destroy_handles, diff_cons]
  have after : (emulation.terminate answer order).handles =
      emulation.handles.diff (order.handles emulation.handles) := left _ emulation
  have nothing : ∀ handles : List Handle, handles.diff handles = [] := by
    intro handles
    induction handles with
    | nil => rfl
    | cons handle rest ih => rw [diff_cons, erase_cons_head, ih]
  rw [after, (order.handles_perm _).diff_left, nothing]

theorem Formed.lists_live (formed : Formed emulation) {held : Held}
    (lists : Lists emulation handle held) : handle ∈ emulation.handles := by
  by_contra gone
  cases held with
  | button button =>
    simp only [Lists, listing_absent (mt (formed.buttons_rows handle).mp gone)] at lists
    cases lists
  | key key =>
    simp only [Lists, listing_absent (mt (formed.keys_rows handle).mp gone)] at lists
    cases lists

theorem run_terminate (scope : ButtonScope) (ops : List (Op F)) (order : HashOrder) :
    run answer scope (ops ++ [.terminate order]) =
      (run answer scope (ops ++ (order.handles (run answer scope ops).handles).map
        (.destroy · order))).call .terminate := by
  rw [run_append, run_append]
  simp only [foldl_cons, foldl_nil, foldl_map, step]
  rfl

/-! ## Buttons -/

/-- The buttons passed to the backend, pressed or released. -/
def buttonStates (button : UInt32) (calls : List (Call F)) : List Bool :=
  calls.filterMap fun call =>
    match call with
    | .consume (.pointer (.button _ code state)) _ =>
      if code = button then some (state ≠ 0) else none
    | _ => none

/--
In every run a button is down on a device, pressed through a live handle and not
released since, exactly while a live handle of that device lists it; a release
goes out only for a button that is down, and to a device of its own a live
handle's press only for one that is up; a teardown releases on the handle's
device only what it lists and no other live handle of that device does;
terminating is a teardown of every handle, after which nothing is listed.
-/
theorem buttons_accounted (scope : ButtonScope) (ops : List (Op F)) :
    (∀ on button, Down scope on (.button button) (run answer scope ops).calls ↔
      ∃ handle ∈ (run answer scope ops).handles, device scope handle (.button button) = on ∧
        Lists (run answer scope ops) handle (.button button)) ∧
    (∀ front made back on button, (run answer scope ops).calls = front ++ made :: back →
      ReleasedOn scope on (.button button) made → Down scope on (.button button) front) ∧
    (∀ front made back handle button, (run answer scope ops).calls = front ++ made :: back →
      PressedOn scope (some handle) (.button button) handle made → Live front handle →
      ¬ Down scope (some handle) (.button button) front) ∧
    (∀ handle order made, (run answer scope (ops ++ [.destroy handle order])).calls =
        (run answer scope ops).calls ++ made →
      ∀ call ∈ made, ∀ on button, ReleasedOn scope on (.button button) call →
        on = device scope handle (.button button) ∧
        ∀ other ∈ (run answer scope ops).handles, other ≠ handle →
          device scope other (.button button) = on →
          ¬ Lists (run answer scope ops) other (.button button)) ∧
    ∀ order, run answer scope (ops ++ [.terminate order]) =
        (run answer scope (ops ++ (order.handles (run answer scope ops).handles).map
          (.destroy · order))).call .terminate ∧
      ∀ handle held, ¬ Lists (run answer scope (ops ++ [.terminate order])) handle held := by
  have kept := kept_run answer scope ops
  have same := run_scope answer scope ops
  refine ⟨?_, ?_, ?_, ?_, ?_⟩
  · intro on button
    have listed := kept.accounted.listed on (.button button)
    simp only [same, not_mem_nil, and_false, exists_false, or_false] at listed
    rw [← listed]
    simp only [Listed, same]
    constructor
    · rintro ⟨handle, place, lists⟩
      exact ⟨handle, kept.formed.lists_live lists, place, lists⟩
    · rintro ⟨handle, -, place, lists⟩
      exact ⟨handle, place, lists⟩
  · intro front made back on button split released
    have answered := kept.accounted.answered front made back on (.button button) split
    rw [same] at answered
    exact answered released
  · intro front made back handle button split pressed live
    have fresh := kept.accounted.fresh front made back handle handle (.button button) split
    rw [same] at fresh
    exact fresh pressed live
  · intro handle order made calls call member on button released
    rw [run_append] at calls
    have torn := teardown_release answer calls member (same.symm ▸ released)
    rw [same] at torn
    refine ⟨torn.1.symm, ?_⟩
    intro other _ apart level
    exact torn.2.2 other apart (level.trans torn.1.symm)
  · intro order
    refine ⟨run_terminate answer scope ops order, ?_⟩
    intro handle held lists
    have live := (kept_run answer scope (ops ++ [.terminate order])).formed.lists_live lists
    rw [run_append] at live
    simp only [foldl_cons, foldl_nil, step, terminate_handles] at live
    cases live

/-- Two peers press one button and the first goes away: the button stays down. -/
theorem buttons_accounted_dragged :
    let ops : List (Op Int) :=
      [.create 1, .create 2, .consume (.pointer (.button 0 272 1)) 1,
        .consume (.pointer (.button 0 272 1)) 2, .destroy 1 .inserted]
    Down .machine none (.button 272)
      (run (fun _ => (.error () : Except Unit Unit)) .machine ops).calls :=
  ((buttons_accounted (fun _ => (.error () : Except Unit Unit)) .machine _).1 none 272).mpr
    ⟨2, by decide, by decide, by decide⟩

/-- On a shared device the presses of two peers reach the backend one after the other. -/
theorem buttons_pressed_twice :
    let ops : List (Op Int) :=
      [.create 1, .create 2, .consume (.pointer (.button 0 272 1)) 1,
        .consume (.pointer (.button 0 272 1)) 2]
    ¬ (buttonStates 272
      (run (fun _ => (.ok () : Except Unit Unit)) .machine ops).calls).IsChain (· ≠ ·) := by
  decide

/-! ## Keys -/

/-- Two handles type on one device, which they do on a backend that keeps none for each. -/
def Shares (scope : ButtonScope) (handle other : Handle) : Prop :=
  other ≠ handle ∧ scope = .machine

theorem Shares.symm (share : Shares scope handle other) : Shares scope other handle :=
  ⟨share.1.symm, share.2⟩

/-- No key is released through one handle while another one of the device holds it down. -/
def KeysSafe (scope : ButtonScope) (calls : List (Call F)) : Prop :=
  ∀ front event handle back key, calls = front ++ .consume event handle :: back →
    kind (.input event) = .release (.key key) →
    ∀ other, Shares scope handle other → ¬ Down scope (some other) (.key key) front

/-- No key is pressed through a live handle while another one of the device holds it. -/
def KeysApart (scope : ButtonScope) (ops : List (Op F)) : Prop :=
  ∀ first event handle rest key, ops = first ++ .consume event handle :: rest →
    kind (.input event) = .press (.key key) → handle ∈ (run answer scope first).handles →
    ∀ other, Shares scope handle other → ¬ Lists (run answer scope first) other (.key key)

theorem Kept.key_down (kept : Kept emulation) :
    Down emulation.buttonScope (some handle) (.key key) emulation.calls ↔
      Lists emulation handle (.key key) := by
  rw [← kept.accounted.listed]
  simp only [not_mem_nil, and_false, exists_false, or_false]
  constructor
  · rintro ⟨other, place, lists⟩
    rwa [← device_own place]
  · intro lists
    exact ⟨handle, rfl, lists⟩

/-- Calls through one handle leave the keys of another as they are. -/
theorem down_elsewhere (apart : other ≠ handle)
    (through : ∀ call ∈ made, ∃ event, call = .consume event handle) (calls : List (Call F)) :
    Down scope (some other) (.key key) (calls ++ made) ↔
      Down scope (some other) (.key key) calls := by
  induction made generalizing calls with
  | nil => rw [append_nil]
  | cons call rest ih =>
    obtain ⟨event, rfl⟩ := through call mem_cons_self
    have later := ih (fun call member => through call (mem_cons_of_mem _ member))
      (calls ++ [.consume event handle])
    rw [append_assoc, singleton_append] at later
    rw [later]
    apply down_other
    · rintro ⟨again, via, same, -, place⟩
      cases same
      exact apart (Option.some.inj place).symm
    · rintro via ⟨again, same, -, place⟩
      cases same
      exact absurd (Option.some.inj place).symm apart

theorem KeysSafe.concat {calls : List (Call F)} {call : Call F} (safe : KeysSafe scope calls)
    (last : ∀ event handle key, call = .consume event handle →
      kind (.input event) = .release (.key key) →
      ∀ other, Shares scope handle other → ¬ Down scope (some other) (.key key) calls) :
    KeysSafe scope (calls ++ [call]) := by
  intro front event handle back key split releases other apart
  rcases split_concat split with ⟨rfl, same⟩ | ⟨rest, inner⟩
  · exact last event handle key same.symm releases other apart
  · exact safe front event handle rest key inner releases other apart

theorem KeysSafe.append {calls : List (Call F)} (safe : KeysSafe scope calls)
    (through : ∀ call ∈ made, ∃ event, call = .consume event handle)
    (alone : ∀ event key, .consume event handle ∈ made →
      kind (.input event) = .release (.key key) →
      ∀ other, Shares scope handle other → ¬ Down scope (some other) (.key key) calls) :
    KeysSafe scope (calls ++ made) := by
  induction made using reverseRecOn with
  | nil => rwa [append_nil]
  | append_singleton made call ih =>
    rw [← append_assoc]
    have early : ∀ call ∈ made, ∃ event, call = .consume event handle :=
      fun call member => through call (mem_append_left _ member)
    refine (ih early ?_).concat ?_
    · intro event key member
      exact alone event key (mem_append_left _ member)
    · intro event via key same releases other apart
      obtain ⟨again, equal⟩ := through call (by simp)
      rw [same] at equal
      cases equal
      rw [down_elsewhere apart.1 early]
      exact alone event key (by simp [same]) releases other apart

theorem destroy_lists (emulation : InputEmulation F) (handle other : Handle) (held : Held) :
    Lists (emulation.destroy answer order handle) other held ↔
      Lists emulation other held ∧ other ≠ handle := by
  have empty := releaseHeld_lists answer order emulation handle
  rw [← empty other held]
  simp only [destroy]
  generalize (emulation.releaseHeld answer order handle).2 = after at empty
  split
  · cases held with
    | button button =>
      have none_left : listing after.pressedButtons handle = [] := by
        refine eq_nil_iff_forall_not_mem.mpr fun code member => ?_
        exact ((empty handle (.button code)).mp member).2 rfl
      simp only [call, Lists, listing_erase none_left]
    | key key =>
      have none_left : listing after.pressedKeys handle = [] := by
        refine eq_nil_iff_forall_not_mem.mpr fun code member => ?_
        exact ((empty handle (.key code)).mp member).2 rfl
      simp only [call, Lists, listing_erase none_left]
  · rfl

theorem create_lists (formed : Formed emulation) (handle other : Handle) (held : Held) :
    Lists (emulation.create handle).2 other held ↔ Lists emulation other held := by
  unfold create
  split
  · rfl
  · rename_i absent
    cases held with
    | button button =>
      simp only [call, Lists, listing_create (mt (formed.buttons_rows handle).mp absent)]
    | key key =>
      simp only [call, Lists, listing_create (mt (formed.keys_rows handle).mp absent)]

/-- Every key is held by one handle of a device, and none was released under another. -/
structure Sole (emulation : InputEmulation F) : Prop where
  kept : Kept emulation
  one : ∀ key handle other, Shares emulation.buttonScope handle other →
    Lists emulation handle (.key key) → ¬ Lists emulation other (.key key)
  safe : KeysSafe emulation.buttonScope emulation.calls

section

variable (sole : Sole emulation)
include sole

variable (order : HashOrder)

theorem Sole.releaseHeld (handle : Handle) :
    Sole (emulation.releaseHeld answer order handle).2 := by
  refine ⟨sole.kept.releaseHeld answer order handle, ?_, ?_⟩
  · intro key first second share lists again
    simp only [releaseHeld_eq] at share
    exact sole.one key first second share ((releaseHeld_lists ..).mp lists).1
      ((releaseHeld_lists ..).mp again).1
  · rw [releaseHeld_eq]
    rw [append_assoc, append_assoc]
    apply sole.safe.append
    · intro call member
      simp only [mem_append, mem_map, mem_singleton] at member
      rcases member with ⟨held, -, rfl⟩ | ⟨held, -, rfl⟩ | rfl
      · exact ⟨_, rfl⟩
      · exact ⟨_, rfl⟩
      · exact ⟨_, rfl⟩
    · intro event key member releases other apart
      rw [sole.kept.key_down]
      intro lists
      simp only [mem_append, mem_map, mem_singleton, Call.consume.injEq,
        and_true] at member
      rcases member with ⟨held, ⟨button, -, rfl⟩, rfl⟩ | ⟨held, ⟨code, inside, rfl⟩, rfl⟩ | rfl
      · cases (kind_letGo (F := F) (.button button)).symm.trans releases
      · cases (kind_letGo (F := F) (.key code)).symm.trans releases
        exact sole.one key handle other apart (mem_releasedKeys.mp inside) lists
      · cases releases

theorem Sole.destroy (handle : Handle) : Sole (emulation.destroy answer order handle) := by
  refine ⟨sole.kept.destroy answer order handle, ?_, ?_⟩
  · intro key first second share lists again
    rw [destroy_scope] at share
    exact sole.one key first second share ((destroy_lists ..).mp lists).1
      ((destroy_lists ..).mp again).1
  · have released := (sole.releaseHeld answer order handle).safe
    simp only [InputEmulation.destroy]
    split
    · refine released.concat ?_
      intro event via key same
      cases same
    · exact released

theorem Sole.foldl_destroy (handles : List Handle) :
    Sole (handles.foldl (InputEmulation.destroy answer order) emulation) := by
  induction handles generalizing emulation with
  | nil => exact sole
  | cons handle rest ih => exact ih (sole.destroy answer order handle)

theorem Sole.consume (event : Event F) (handle : Handle)
    (apart : ∀ key, kind (.input event) = .press (.key key) → handle ∈ emulation.handles →
      ∀ other, Shares emulation.buttonScope handle other → ¬ Lists emulation other (.key key)) :
    Sole (emulation.consume answer event handle).2 := by
  have settled := consume_settled answer sole.kept.formed handle event
  have kept := sole.kept.step answer (.consume event handle)
  have same := settled.scope
  have unchanged : ∀ {after : InputEmulation F},
      (∀ other what, Lists after other what ↔ Lists emulation other what) →
      ∀ key first second, Shares emulation.buttonScope first second →
        Lists after first (.key key) → ¬ Lists after second (.key key) := by
    intro after lists key first second share one two
    exact sole.one key first second share ((lists _ _).mp one) ((lists _ _).mp two)
  have silent : ∀ via, (∀ key, kind (.input event) ≠ .release (.key key)) →
      KeysSafe emulation.buttonScope (emulation.calls ++ [.consume event via]) := by
    intro via no_release
    refine sole.safe.concat ?_
    intro again through key equal releases
    cases equal
    exact absurd releases (no_release key)
  cases settled.consumed with
  | pressed held sort live fresh lists calls =>
    refine ⟨kept, ?_, ?_⟩
    · intro key first second share one two
      rw [same] at share
      rcases (lists first (.key key)).mp one with old | ⟨rfl, rfl⟩
      · rcases (lists second (.key key)).mp two with older | ⟨rfl, rfl⟩
        · exact sole.one key first second share old older
        · exact apart key sort live first share.symm old
      · rcases (lists second (.key key)).mp two with older | ⟨rfl, -⟩
        · exact apart key sort live second share older
        · exact share.1 rfl
    · rw [same, calls]
      exact silent handle (by simp [sort])
  | loose held sort absent lists calls =>
    refine ⟨kept, same ▸ unchanged lists, ?_⟩
    rw [same, calls]
    exact silent handle (by simp [sort])
  | released held sort holder through lists_it level lists calls =>
    refine ⟨kept, ?_, ?_⟩
    · intro key first second share one two
      rw [same] at share
      exact sole.one key first second share ((lists _ _).mp one).1 ((lists _ _).mp two).1
    · rw [same, calls]
      refine sole.safe.concat ?_
      intro again via key equal releases other different
      cases equal
      cases sort.symm.trans releases
      rw [sole.kept.key_down]
      intro lists_too
      have placed : through = holder := Option.some.inj level
      rw [placed] at different
      exact sole.one key holder other different lists_it lists_too
  | passed no_press no_release lists calls =>
    refine ⟨kept, same ▸ unchanged lists, ?_⟩
    rw [same, calls]
    exact silent handle fun key => no_release (.key key)
  | dropped lists calls =>
    refine ⟨kept, same ▸ unchanged lists, ?_⟩
    rw [same, calls]
    exact sole.safe

end

theorem sole_run (scope : ButtonScope) {ops : List (Op F)} (apart : KeysApart answer scope ops) :
    Sole (run answer scope ops) := by
  induction ops using reverseRecOn with
  | nil =>
    refine ⟨kept_start scope, ?_, ?_⟩
    · intro key handle other share lists
      cases lists
    · intro front event handle back key split
      cases front <;> cases split
  | append_singleton ops op ih =>
    have before : KeysApart answer scope ops := by
      intro first event handle rest key split
      exact apart first event handle (rest ++ [op]) key (by simp [split])
    have sole := ih before
    have kept := sole.kept.step answer op
    rw [run_append]
    cases op with
    | create handle =>
      refine ⟨kept, ?_, ?_⟩
      · intro key first second share one two
        rw [← run_append, run_scope, ← run_scope answer scope ops] at share
        exact sole.one key first second share ((create_lists sole.kept.formed ..).mp one)
          ((create_lists sole.kept.formed ..).mp two)
      · simp only [foldl_cons, foldl_nil, step, InputEmulation.create]
        split
        · exact sole.safe
        · refine sole.safe.concat ?_
          intro event via key same
          cases same
    | consume event handle =>
      refine sole.consume answer event handle ?_
      intro key sort live
      rw [run_scope]
      exact apart ops event handle [] key rfl sort live
    | releaseHeld handle order => exact sole.releaseHeld answer order handle
    | destroy handle order => exact sole.destroy answer order handle
    | terminate order =>
      have torn := sole.foldl_destroy answer order (order.handles (run answer scope ops).handles)
      refine ⟨kept, torn.one, ?_⟩
      refine torn.safe.concat ?_
      intro event via key same
      cases same

/-- Tearing down one of two handles that hold a key releases it under the other. -/
theorem Kept.destroy_unsafe (kept : Kept emulation)
    (apart : Shares emulation.buttonScope handle other)
    (lists : Lists emulation handle (.key key)) (again : Lists emulation other (.key key))
    (order : HashOrder) :
    ¬ KeysSafe emulation.buttonScope (emulation.destroy answer order handle).calls := by
  intro safe
  obtain ⟨last, calls, -⟩ := destroy_calls answer order emulation handle
  have inside : Held.key key ∈ (releasedButtons order emulation handle).map Held.button ++
      (releasedKeys order emulation handle).map Held.key :=
    mem_append_right _ (mem_map_of_mem (mem_releasedKeys.mpr lists))
  obtain ⟨before, after, split⟩ := append_of_mem inside
  rw [split, map_append, map_cons, ← append_assoc, append_assoc,
    cons_append] at calls
  refine safe _ _ handle _ key calls (kind_letGo _) other apart ?_
  rw [down_elsewhere apart.1, kept.key_down]
  · exact again
  · intro call member
    obtain ⟨held, -, rfl⟩ := mem_map.mp member
    exact ⟨_, rfl⟩

/-- Letting go of a key that another handle holds releases it under that one. -/
theorem Kept.consume_unsafe (kept : Kept emulation)
    (apart : Shares emulation.buttonScope handle other)
    (lists : Lists emulation handle (.key key)) (again : Lists emulation other (.key key))
    (time : UInt32) : ¬ KeysSafe emulation.buttonScope
      (emulation.consume answer (.keyboard (.key time key 0)) handle).2.calls := by
  intro safe
  have calls : (emulation.consume answer (.keyboard (.key time key 0)) handle).2.calls =
      emulation.calls ++ [.consume (.keyboard (.key time key 0)) handle] := by
    simp only [Lists, listing] at lists
    cases found : emulation.pressedKeys.lookup handle with
    | none => simp [found] at lists
    | some pressed =>
      have member : key ∈ pressed := by simpa [found] using lists
      simp [consume, updatePressedKeys, found, member, InputEmulation.pass, call]
  refine safe emulation.calls _ handle [] key calls rfl other apart ?_
  rw [kept.key_down]
  exact again

/--
A run in which no key is pressed through a live handle while another one of its
device holds it never releases a key under a handle that holds it; as soon as two
handles of a device hold one key, tearing one of them down or its letting go does.  In every run each
handle's presses and releases of a key alternate, and a handle that was torn down
has released every key.
-/
theorem keys_safe_while_apart (scope : ButtonScope) (ops : List (Op F)) :
    (KeysApart answer scope ops → KeysSafe scope (run answer scope ops).calls) ∧
    (∀ handle other key, Shares scope handle other →
      Lists (run answer scope ops) handle (.key key) →
      Lists (run answer scope ops) other (.key key) →
      (∀ order, ¬ KeysSafe scope (run answer scope (ops ++ [.destroy handle order])).calls) ∧
      ∀ time, ¬ KeysSafe scope
        (run answer scope (ops ++ [.consume (.keyboard (.key time key 0)) handle])).calls) ∧
    (∀ front made back handle key, (run answer scope ops).calls = front ++ made :: back →
      (ReleasedOn scope (some handle) (.key key) made → Down scope (some handle) (.key key) front) ∧
      (PressedOn scope (some handle) (.key key) handle made → Live front handle →
        ¬ Down scope (some handle) (.key key) front)) ∧
    ∀ handle order key, ¬ Down scope (some handle) (.key key)
      (run answer scope (ops ++ [.destroy handle order])).calls := by
  have kept := kept_run answer scope ops
  have same := run_scope answer scope ops
  refine ⟨?_, ?_, ?_, ?_⟩
  · intro apart
    have safe := (sole_run answer scope apart).safe
    rwa [same] at safe
  · intro handle other key apart lists again
    rw [← same] at apart
    constructor
    · intro order
      have caught := kept.destroy_unsafe answer apart lists again order
      rw [same] at caught
      rw [run_append]
      exact caught
    · intro time
      have caught := kept.consume_unsafe answer apart lists again time
      rw [same] at caught
      rw [run_append]
      exact caught
  · intro front made back handle key split
    have answered := kept.accounted.answered front made back (some handle) (.key key) split
    have fresh := kept.accounted.fresh front made back handle handle (.key key) split
    rw [same] at answered fresh
    exact ⟨answered, fresh⟩
  · intro handle order key
    have after := kept_run answer scope (ops ++ [.destroy handle order])
    intro down
    have lists : Lists (run answer scope (ops ++ [.destroy handle order])) handle (.key key) := by
      rw [← after.key_down, run_scope]
      exact down
    rw [run_append] at lists
    exact ((destroy_lists ..).mp lists).2 rfl

/-- Two peers type different keys: the first one's teardown is safe. -/
theorem keys_safe_while_apart_typed :
    let ops : List (Op Int) :=
      [.create 1, .create 2, .consume (.keyboard (.key 0 30 1)) 1,
        .consume (.keyboard (.key 0 31 1)) 2, .destroy 1 .inserted]
    KeysSafe .machine (run (fun _ => (.ok () : Except Unit Unit)) .machine ops).calls := by
  intro ops
  refine (keys_safe_while_apart (fun _ => (.ok () : Except Unit Unit)) .machine ops).1 ?_
  intro first event handle rest key split sort live other apart
  have two : ∀ past : List (Op Int),
      (run (fun _ => (.ok () : Except Unit Unit)) .machine past).handles = [1, 2] →
      Lists (run (fun _ => (.ok () : Except Unit Unit)) .machine past) other (.key key) →
      other = 1 ∨ other = 2 := by
    intro past created lists
    have known := (kept_run (fun _ => (.ok () : Except Unit Unit)) .machine past).formed.lists_live
      lists
    simpa [created] using known
  rcases first with _ | ⟨a, _ | ⟨b, _ | ⟨c, _ | ⟨d, _ | ⟨e, first⟩⟩⟩⟩⟩
  · simp [ops] at split
  · simp [ops] at split
  · obtain ⟨rfl, rfl, ⟨rfl, rfl⟩, -⟩ := by simpa [ops] using split
    intro lists
    rcases two _ (by decide) lists with rfl | rfl
    · exact apart.1 rfl
    · revert lists
      cases sort
      decide
  · obtain ⟨rfl, rfl, rfl, ⟨rfl, rfl⟩, -⟩ := by simpa [ops] using split
    intro lists
    rcases two _ (by decide) lists with rfl | rfl
    · revert lists
      cases sort
      decide
    · exact apart.1 rfl
  · simp [ops] at split
  · simp [ops] at split

/-- Two peers hold one key: tearing the first down releases it under the second. -/
theorem keys_released_under_other :
    let ops : List (Op Int) :=
      [.create 1, .create 2, .consume (.keyboard (.key 0 30 1)) 1,
        .consume (.keyboard (.key 0 30 1)) 2]
    ¬ KeysSafe .machine
      (run (fun _ => (.ok () : Except Unit Unit)) .machine (ops ++ [.destroy 1 .inserted])).calls := by
  intro ops
  have kept := kept_run (fun _ => (.ok () : Except Unit Unit)) .machine ops
  have first : Lists (run (fun _ => (.ok () : Except Unit Unit)) .machine ops) 1 (.key 30) := by
    decide
  have second : Lists (run (fun _ => (.ok () : Except Unit Unit)) .machine ops) 2 (.key 30) := by
    decide
  rw [run_append]
  exact kept.destroy_unsafe _ ⟨by decide, by decide⟩ first second .inserted

end HopsFormal.Emulation
