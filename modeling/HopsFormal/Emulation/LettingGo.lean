import HopsFormal.Emulation.Injected

/-!
# Tearing a handle down

A handle that goes away lets go of its buttons, then of its keys.  The list is
drained before the releases are passed, so that between the two a release is
owed; when the loop has ended nothing is owed, whatever the backend answered.
Every run of the emulation therefore keeps its account.
-/

namespace HopsFormal.Emulation

open Capture (Event Held Kind kind)
open List Lib InputEmulation

variable {F E : Type}

/-! ## Letting go of what a handle holds -/

def letGo : Held → Event F
  | .button button => .pointer (.button 0 button 0)
  | .key key => .keyboard (.key 0 key 0)

theorem kind_letGo (held : Held) :
    kind (.input (letGo held) : Capture.CaptureEvent F) = .release held := by
  cases held <;> rfl

/-- A button of a handle that another one still holds on the shared device. -/
def heldByOther (emulation : InputEmulation F) (handle : Handle) (button : UInt32) : Bool :=
  emulation.buttonScope = .machine ∧
    emulation.pressedButtons.any fun other held => other ≠ handle ∧ button ∈ held

variable {emulation : InputEmulation F} {handle other : Handle} {table : Table Handle (List UInt32)}

theorem heldByOther_iff {button : UInt32} :
    heldByOther emulation handle button = true ↔ emulation.buttonScope = .machine ∧
      ∃ other, other ≠ handle ∧ button ∈ listing emulation.pressedButtons other := by
  rw [heldByOther, decide_eq_true_eq, any_other]

variable (answer : List (Call F) → Except E Unit) (order : HashOrder) (scope : ButtonScope)

theorem foldl_releaseButton (handle : Handle) (buttons : List UInt32)
    (sofar : Option E × InputEmulation F) :
    (buttons.foldl (releaseButton answer handle) sofar).2 =
      { sofar.2 with
        calls := sofar.2.calls ++
          ((buttons.filter fun button => !heldByOther sofar.2 handle button).map Held.button).map
            fun held => .consume (letGo held) handle } := by
  induction buttons generalizing sofar with
  | nil => simp
  | cons button rest ih =>
    rw [foldl_cons, ih]
    by_cases shared : heldByOther sofar.2 handle button = true
    · have skipped : releaseButton answer handle sofar button = sofar := by
        rw [releaseButton, if_pos (by simpa [heldByOther] using shared)]
      rw [skipped, filter_cons_of_neg (by simp [shared])]
    · have alone : (releaseButton answer handle sofar button).2 =
          sofar.2.call (.consume (letGo (.button button)) handle) := by
        rw [releaseButton, if_neg (by simpa [heldByOther] using shared)]
        rfl
      rw [alone, filter_cons_of_pos (by simpa using shared)]
      simp [call, heldByOther]

theorem foldl_releaseKey (handle : Handle) (keys : List UInt32)
    (sofar : Option E × InputEmulation F) :
    (keys.foldl (releaseKey answer handle) sofar).2 =
      { sofar.2 with
        calls := sofar.2.calls ++
          (keys.map Held.key).map fun held => .consume (letGo held) handle } := by
  induction keys generalizing sofar with
  | nil => simp
  | cons key rest ih =>
    rw [foldl_cons, ih]
    have passed : (releaseKey answer handle sofar key).2 =
        sofar.2.call (.consume (letGo (.key key)) handle) := rfl
    rw [passed]
    simp [call]

/-- The buttons a handle lets go of, in the order its set is walked. -/
def releasedButtons (order : HashOrder) (emulation : InputEmulation F) (handle : Handle) :
    List UInt32 :=
  (order.pressed handle (listing emulation.pressedButtons handle)).filter fun button =>
    !heldByOther emulation handle button

def releasedKeys (order : HashOrder) (emulation : InputEmulation F) (handle : Handle) :
    List UInt32 :=
  order.pressed handle (listing emulation.pressedKeys handle)

theorem listing_drained : listing (table.modify handle fun _ => []) other =
      if other = handle then [] else listing table other := by
  by_cases present : handle ∈ table
  · exact listing_modify present other
  · rw [modify_absent present]
    split
    · rename_i same
      rw [same, listing_absent present]
    · rfl

/-- Whether another handle holds a button does not depend on the handle's own row. -/
theorem heldByOther_drained (emulation : InputEmulation F) (handle : Handle) (button : UInt32) :
    heldByOther { emulation with
        pressedButtons := emulation.pressedButtons.modify handle fun _ => [] } handle button =
      heldByOther emulation handle button := by
  rw [Bool.eq_iff_iff, heldByOther_iff, heldByOther_iff]
  refine and_congr_right fun _ => exists_congr fun other => and_congr_right fun apart => ?_
  rw [listing_drained, if_neg apart]

theorem releaseHeld_eq (emulation : InputEmulation F) (handle : Handle) :
    (emulation.releaseHeld answer order handle).2 =
      { emulation with
        pressedKeys := emulation.pressedKeys.modify handle fun _ => []
        pressedButtons := emulation.pressedButtons.modify handle fun _ => []
        calls := emulation.calls ++
          (((releasedButtons order emulation handle).map Held.button).map
            fun held => .consume (letGo held) handle) ++
          (((releasedKeys order emulation handle).map Held.key).map
            fun held => .consume (letGo held) handle) ++
          [.consume (.keyboard (.modifiers 0 0 0 0)) handle] } := by
  simp only [releaseHeld, InputEmulation.pass]
  rw [foldl_releaseKey, foldl_releaseButton]
  simp only [call, heldByOther_drained]
  rfl

/-! ## What is owed -/

theorem Accounted.owe {before after : InputEmulation F} {owed owed' : List (Handle × Held)}
    (accounted : Accounted before owed) (scope : after.buttonScope = before.buttonScope)
    (calls : after.calls = before.calls)
    (moved : ∀ on held, (Listed after on held ∨
        ∃ handle, device before.buttonScope handle held = on ∧ (handle, held) ∈ owed') ↔
      (Listed before on held ∨
        ∃ handle, device before.buttonScope handle held = on ∧ (handle, held) ∈ owed)) :
    Accounted after owed' where
  listed := by
    rw [scope, calls]
    intro on held
    rw [moved, accounted.listed]
  answered := by
    rw [scope, calls]
    exact accounted.answered
  fresh := by
    rw [scope, calls]
    exact accounted.fresh

theorem Accounted.release_all {owed : List Held} (nodup : owed.Nodup)
    (accounted : Accounted emulation (owed.map (handle, ·)))
    (alone : ∀ held ∈ owed, ¬ Listed emulation (device emulation.buttonScope handle held) held) :
    Accounted { emulation with
      calls := emulation.calls ++ owed.map fun held => .consume (letGo held) handle } [] := by
  induction owed generalizing emulation with
  | nil => simpa using accounted
  | cons held rest ih =>
    obtain ⟨absent, nodup⟩ := nodup_cons.mp nodup
    have only : ∀ on what,
        ReleasedOn emulation.buttonScope on what (.consume (letGo held) handle : Call F) →
        what = held ∧ device emulation.buttonScope handle held = on := by
      intro on what released
      obtain ⟨releases, place⟩ := releasedOn_consume.mp released
      cases (kind_letGo held).symm.trans releases
      exact ⟨rfl, place⟩
    have no_press : ∀ on what other,
        ¬ PressedOn emulation.buttonScope on what other (.consume (letGo held) handle : Call F) := by
      simp [pressedOn_consume, kind_letGo]
    have next : Accounted (emulation.call (.consume (letGo held) handle))
        (rest.map (handle, ·)) := by
      have scope : (emulation.call (.consume (letGo held) handle)).buttonScope =
          emulation.buttonScope := rfl
      have calls : (emulation.call (.consume (letGo held) handle)).calls =
          emulation.calls ++ [.consume (letGo held) handle] := rfl
      apply accounted.call scope calls
      · intro on what
        by_cases here : what = held ∧ device emulation.buttonScope handle held = on
        · obtain ⟨rfl, rfl⟩ := here
          refine iff_of_false ?_ (not_down_release (releasedOn_consume.mpr ⟨kind_letGo what, rfl⟩))
          rintro (listed | ⟨other, -, member⟩)
          · exact alone what mem_cons_self listed
          · obtain ⟨again, inside, same⟩ := mem_map.mp member
            cases same
            exact absent inside
        · rw [down_other (fun released => here (only on what released)) fun other pressed =>
            absurd pressed (no_press on what other), ← accounted.listed]
          refine or_congr Iff.rfl (exists_congr fun other => and_congr_right fun place => ?_)
          simp only [map_cons, mem_cons, Prod.mk.injEq]
          refine ⟨.inr, ?_⟩
          rintro (⟨rfl, rfl⟩ | member)
          · exact absurd ⟨rfl, place⟩ here
          · exact member
      · intro on what released
        obtain ⟨rfl, rfl⟩ := only on what released
        rw [← accounted.listed]
        exact .inr ⟨handle, rfl, by simp⟩
      · intro other own what pressed
        exact absurd pressed (no_press (some own) what other)
    have settled := ih nodup next fun what member => alone what (mem_cons_of_mem _ member)
    simpa [InputEmulation.call] using settled

theorem mem_releasedButtons {order : HashOrder} {button : UInt32} :
    button ∈ releasedButtons order emulation handle ↔ Lists emulation handle (.button button) ∧
      heldByOther emulation handle button = false := by
  rw [releasedButtons, mem_filter, (order.pressed_perm _ _).mem_iff]
  simp [Lists]

theorem mem_releasedKeys {order : HashOrder} {key : UInt32} :
    key ∈ releasedKeys order emulation handle ↔ Lists emulation handle (.key key) := by
  rw [releasedKeys, (order.pressed_perm _ _).mem_iff]
  rfl

theorem Accounted.drain_buttons (accounted : Accounted emulation []) (order : HashOrder)
    (handle : Handle) : Accounted { emulation with
        pressedButtons := emulation.pressedButtons.modify handle fun _ => [] }
      (((releasedButtons order emulation handle).map Held.button).map (handle, ·)) := by
  have owes : ∀ other what, (other, what) ∈
      ((releasedButtons order emulation handle).map Held.button).map (handle, ·) ↔
        other = handle ∧ ∃ button, what = .button button ∧ Lists emulation handle (.button button) ∧
          heldByOther emulation handle button = false := by
    intro other what
    simp only [mem_map, exists_exists_and_eq_and, mem_releasedButtons, Prod.mk.injEq]
    constructor
    · rintro ⟨button, ⟨lists, alone⟩, rfl, rfl⟩
      exact ⟨rfl, button, rfl, lists, alone⟩
    · rintro ⟨rfl, button, rfl, lists, alone⟩
      exact ⟨button, ⟨lists, alone⟩, rfl, rfl⟩
  have drained : ∀ other what, Lists { emulation with
      pressedButtons := emulation.pressedButtons.modify handle fun _ => [] } other what ↔
      Lists emulation other what ∧ ¬ (other = handle ∧ ∃ button, what = .button button) := by
    intro other what
    cases what with
    | key key => simp [Lists]
    | button button =>
      simp only [Lists, listing_drained]
      split
      · rename_i same
        simp [same]
      · rename_i apart
        simp [apart]
  refine accounted.owe rfl rfl ?_
  intro on what
  simp only [not_mem_nil, and_false, exists_false, or_false]
  constructor
  · rintro (⟨other, place, lists⟩ | ⟨other, place, member⟩)
    · exact ⟨other, place, ((drained other what).mp lists).1⟩
    · obtain ⟨rfl, button, rfl, lists, -⟩ := (owes other what).mp member
      exact ⟨other, place, lists⟩
  · rintro ⟨other, place, lists⟩
    by_cases own : other = handle ∧ ∃ button, what = .button button
    · obtain ⟨rfl, button, rfl⟩ := own
      cases shared : heldByOther emulation other button with
      | false => exact .inr ⟨other, place, (owes other _).mpr ⟨rfl, button, rfl, lists, shared⟩⟩
      | true =>
        obtain ⟨machine, holder, apart, holds⟩ := heldByOther_iff.mp shared
        refine .inl ⟨holder, ?_, (drained holder _).mpr ⟨holds, ?_⟩⟩
        · rw [← place]
          simp [device, machine]
        · rintro ⟨same, -⟩
          exact apart same
    · exact .inl ⟨other, place, (drained other what).mpr ⟨lists, own⟩⟩

theorem Accounted.drain_keys (accounted : Accounted emulation []) (order : HashOrder)
    (handle : Handle) : Accounted { emulation with
        pressedKeys := emulation.pressedKeys.modify handle fun _ => [] }
      (((releasedKeys order emulation handle).map Held.key).map (handle, ·)) := by
  have drained : ∀ other what, Lists { emulation with
      pressedKeys := emulation.pressedKeys.modify handle fun _ => [] } other what ↔
      Lists emulation other what ∧ ¬ (other = handle ∧ ∃ key, what = .key key) := by
    intro other what
    cases what with
    | button button => simp [Lists]
    | key key =>
      simp only [Lists, listing_drained]
      split
      · rename_i same
        simp [same]
      · rename_i apart
        simp [apart]
  refine accounted.owe rfl rfl ?_
  intro on what
  simp only [not_mem_nil, and_false, exists_false, or_false]
  constructor
  · rintro (⟨other, place, lists⟩ | ⟨other, place, member⟩)
    · exact ⟨other, place, ((drained other what).mp lists).1⟩
    · simp only [mem_map, exists_exists_and_eq_and, mem_releasedKeys, Prod.mk.injEq] at member
      obtain ⟨key, lists, rfl, rfl⟩ := member
      exact ⟨handle, place, lists⟩
  · rintro ⟨other, place, lists⟩
    by_cases own : other = handle ∧ ∃ key, what = .key key
    · obtain ⟨rfl, key, rfl⟩ := own
      refine .inr ⟨other, place, ?_⟩
      simp only [mem_map, exists_exists_and_eq_and, mem_releasedKeys, Prod.mk.injEq]
      exact ⟨key, lists, trivial, rfl⟩
    · exact .inl ⟨other, place, (drained other what).mpr ⟨lists, own⟩⟩

theorem quiet_modifiers {scope : ButtonScope} : (∀ on held other, ¬ PressedOn scope on held other
      (.consume (.keyboard (.modifiers 0 0 0 0)) handle : Call F)) ∧
    ∀ on held, ¬ ReleasedOn scope on held
      (.consume (.keyboard (.modifiers 0 0 0 0)) handle : Call F) := by
  constructor
  · rintro on held other ⟨event, made, presses, -⟩
    cases made
    cases presses
  · rintro on held ⟨event, other, made, releases, -⟩
    cases made
    cases releases

section LettingGo

variable (answer : List (Call F) → Except E Unit) (order : HashOrder)
  {emulation : InputEmulation F} (handle : Handle)

theorem Accounted.releaseHeld (accounted : Accounted emulation []) (formed : Formed emulation) :
    Accounted (emulation.releaseHeld answer order handle).2 [] := by
  have buttons_nodup : ((releasedButtons order emulation handle).map Held.button).Nodup := by
    refine Nodup.map (fun a b same => Held.button.inj same) (Nodup.filter _ ?_)
    exact (order.pressed_perm _ _).nodup_iff.mpr (formed.buttons_nodup handle)
  have keys_nodup : ((releasedKeys order emulation handle).map Held.key).Nodup := by
    refine Nodup.map (fun a b same => Held.key.inj same) ?_
    exact (order.pressed_perm _ _).nodup_iff.mpr (formed.keys_nodup handle)
  have buttons := (accounted.drain_buttons order handle).release_all buttons_nodup (by
    intro held member
    obtain ⟨button, inside, rfl⟩ := mem_map.mp member
    rintro ⟨other, place, lists⟩
    simp only [Lists, listing_drained] at lists
    split at lists
    · cases lists
    · rename_i apart
      have alone := (mem_releasedButtons.mp inside).2
      cases scope : emulation.buttonScope with
      | machine =>
        have shared := heldByOther_iff.mpr ⟨scope, other, apart, lists⟩
        rw [alone] at shared
        cases shared
      | perHandle =>
        simp only [device, scope, reduceCtorEq, if_false, Option.some.injEq] at place
        exact apart place)
  have keys := (buttons.drain_keys order handle).release_all keys_nodup (by
    intro held member
    obtain ⟨key, inside, rfl⟩ := mem_map.mp member
    rintro ⟨other, place, lists⟩
    simp only [device, Option.some.injEq] at place
    simp only [Lists, listing_drained, place, if_true] at lists
    cases lists)
  rw [releaseHeld_eq]
  exact keys.quiet rfl rfl (fun _ _ => Iff.rfl) quiet_modifiers.1 quiet_modifiers.2

theorem Formed.releaseHeld (formed : Formed emulation) :
    Formed (emulation.releaseHeld answer order handle).2 := by
  rw [releaseHeld_eq]
  refine formed.same rfl (fun _ => mem_modify) (fun _ => mem_modify)
    (nodup_listing_modify formed.keys_nodup fun _ _ => nodup_nil)
    (nodup_listing_modify formed.buttons_nodup fun _ _ => nodup_nil) ?_
  intro other
  have quiet : ∀ (made : List (Call F)),
      (∀ call ∈ made, ∃ event through, call = .consume event through) →
      ∀ calls, Live (calls ++ made) other ↔ Live calls other := by
    intro made
    induction made with
    | nil => simp
    | cons call rest ih =>
      intro consumes calls
      obtain ⟨event, through, same⟩ := consumes call mem_cons_self
      have tail := ih (fun later member => consumes later (mem_cons_of_mem _ member))
        (calls ++ [call])
      rw [append_assoc, singleton_append] at tail
      rw [tail, same, live_consume]
  rw [append_assoc, append_assoc]
  apply quiet
  intro call member
  simp only [mem_append, mem_map, mem_singleton] at member
  rcases member with ⟨held, -, rfl⟩ | ⟨held, -, rfl⟩ | rfl
  · exact ⟨_, _, rfl⟩
  · exact ⟨_, _, rfl⟩
  · exact ⟨_, _, rfl⟩

end LettingGo

theorem releaseHeld_lists (emulation : InputEmulation F) (handle other : Handle) (held : Held) :
    Lists (emulation.releaseHeld answer order handle).2 other held ↔
      Lists emulation other held ∧ other ≠ handle := by
  rw [releaseHeld_eq]
  cases held with
  | button button | key key =>
    simp only [Lists, listing_drained]
    split
    · rename_i same
      simp [same]
    · rename_i apart
      simp [apart]

/-! ## Creating and destroying -/

theorem quiet_other (made : Call F) (other : ∀ event handle, made ≠ .consume event handle) :
    (∀ on held handle, ¬ PressedOn scope on held handle made) ∧
      ∀ on held, ¬ ReleasedOn scope on held made := by
  constructor
  · rintro on held handle ⟨event, same, -⟩
    exact other event handle same
  · rintro on held ⟨event, handle, same, -⟩
    exact other event handle same

theorem listing_erase (empty : listing table handle = []) :
    listing (table.erase handle) other = listing table other := by
  by_cases same : other = handle
  · subst same
    rw [listing, AList.lookup_erase, empty]
    rfl
  · rw [listing, AList.lookup_erase_ne same]
    rfl

theorem listing_create (absent : handle ∉ table) :
    listing (table.insert handle []) other = listing table other := by
  by_cases same : other = handle
  · subst same
    rw [listing, AList.lookup_insert, listing_absent absent]
    rfl
  · rw [listing, AList.lookup_insert_ne same]
    rfl

/-- The account of an emulation that owes nothing, with its tables formed. -/
structure Kept (emulation : InputEmulation F) : Prop where
  formed : Formed emulation
  accounted : Accounted emulation []

theorem Kept.create (kept : Kept emulation) (handle : Handle) :
    Kept (emulation.create handle).2 := by
  unfold InputEmulation.create
  split
  · exact kept
  · rename_i absent
    have no_keys := mt (kept.formed.keys_rows handle).mp absent
    have no_buttons := mt (kept.formed.buttons_rows handle).mp absent
    have quiet := quiet_other emulation.buttonScope (.create handle : Call F) (by simp)
    refine ⟨?_, kept.accounted.quiet rfl rfl ?_ quiet.1 quiet.2⟩
    · refine ⟨?_, ?_, ?_, ?_, ?_, ?_⟩
      · intro other
        simp only [call, AList.mem_insert, kept.formed.keys_rows, mem_append,
          mem_singleton]
        tauto
      · intro other
        simp only [call, AList.mem_insert, kept.formed.buttons_rows, mem_append,
          mem_singleton]
        tauto
      · intro other
        simp only [call, listing_create no_keys]
        exact kept.formed.keys_nodup other
      · intro other
        simp only [call, listing_create no_buttons]
        exact kept.formed.buttons_nodup other
      · exact Nodup.append kept.formed.handles_nodup (nodup_singleton _)
          (disjoint_singleton.mpr absent)
      · intro other
        simp only [call, mem_append, mem_singleton]
        by_cases same : other = handle
        · subst same
          exact iff_of_true (.inr rfl) (live_create other)
        · rw [live_other (by simpa using Ne.symm same) (by simp), ← kept.formed.live]
          simp [same]
    · intro other held
      cases held with
      | button button => simp only [call, Lists, listing_create no_buttons]
      | key key => simp only [call, Lists, listing_create no_keys]

theorem Kept.releaseHeld (kept : Kept emulation) (answer : List (Call F) → Except E Unit)
    (order : HashOrder) (handle : Handle) : Kept (emulation.releaseHeld answer order handle).2 :=
  ⟨kept.formed.releaseHeld answer order handle,
    kept.accounted.releaseHeld answer order handle kept.formed⟩

theorem Kept.destroy (kept : Kept emulation) (answer : List (Call F) → Except E Unit)
    (order : HashOrder) (handle : Handle) : Kept (emulation.destroy answer order handle) := by
  have released := kept.releaseHeld answer order handle
  have empty := releaseHeld_lists answer order emulation handle handle
  unfold InputEmulation.destroy
  dsimp only
  generalize (emulation.releaseHeld answer order handle).2 = after at released empty
  have no_buttons : listing after.pressedButtons handle = [] := by
    refine eq_nil_iff_forall_not_mem.mpr fun button member => ?_
    exact ((empty (.button button)).mp member).2 rfl
  have no_keys : listing after.pressedKeys handle = [] := by
    refine eq_nil_iff_forall_not_mem.mpr fun key member => ?_
    exact ((empty (.key key)).mp member).2 rfl
  split
  · have quiet := quiet_other after.buttonScope (.destroy handle : Call F) (by simp)
    refine ⟨?_, released.accounted.quiet rfl rfl ?_ quiet.1 quiet.2⟩
    · refine ⟨?_, ?_, ?_, ?_, ?_, ?_⟩
      · intro other
        simp only [call, AList.mem_erase, released.formed.keys_rows,
          released.formed.handles_nodup.mem_erase_iff]
      · intro other
        simp only [call, AList.mem_erase, released.formed.buttons_rows,
          released.formed.handles_nodup.mem_erase_iff]
      · intro other
        simp only [call, listing_erase no_keys]
        exact released.formed.keys_nodup other
      · intro other
        simp only [call, listing_erase no_buttons]
        exact released.formed.buttons_nodup other
      · exact released.formed.handles_nodup.erase handle
      · intro other
        simp only [call, released.formed.handles_nodup.mem_erase_iff]
        by_cases same : other = handle
        · subst same
          exact iff_of_false (fun both => both.1 rfl) (not_live_destroy other)
        · rw [live_other (by simp) (by simpa using Ne.symm same), ← released.formed.live]
          simp [same]
    · intro other held
      cases held with
      | button button => simp only [call, Lists, listing_erase no_buttons]
      | key key => simp only [call, Lists, listing_erase no_keys]
  · exact released

/-! ## Runs -/

/-- The calls made of an emulation, with the order the hash sets happen to have. -/
inductive Op (F : Type) where
  | create (handle : Handle)
  | consume (event : Event F) (handle : Handle)
  | releaseHeld (handle : Handle) (order : HashOrder)
  | destroy (handle : Handle) (order : HashOrder)
  | terminate (order : HashOrder)

def step (answer : List (Call F) → Except E Unit) (emulation : InputEmulation F) :
    Op F → InputEmulation F
  | .create handle => (emulation.create handle).2
  | .consume event handle => (emulation.consume answer event handle).2
  | .releaseHeld handle order => (emulation.releaseHeld answer order handle).2
  | .destroy handle order => emulation.destroy answer order handle
  | .terminate order => emulation.terminate answer order

def run (answer : List (Call F) → Except E Unit) (scope : ButtonScope) (ops : List (Op F)) :
    InputEmulation F :=
  ops.foldl (step answer) (.withBackend scope)

theorem run_append (first rest : List (Op F)) :
    run answer scope (first ++ rest) = rest.foldl (step answer) (run answer scope first) :=
  foldl_append

section Runs

variable (answer : List (Call F) → Except E Unit) {emulation : InputEmulation F}

theorem Kept.foldl_destroy (order : HashOrder) (kept : Kept emulation) (handles : List Handle) :
    Kept (handles.foldl (InputEmulation.destroy answer order) emulation) := by
  induction handles generalizing emulation with
  | nil => exact kept
  | cons handle rest ih => exact ih (kept.destroy answer order handle)

theorem Kept.call_terminate (kept : Kept emulation) : Kept (emulation.call .terminate) := by
  have quiet := quiet_other emulation.buttonScope (.terminate : Call F) (by simp)
  refine ⟨?_, kept.accounted.quiet rfl rfl (fun _ _ => Iff.rfl) quiet.1 quiet.2⟩
  refine kept.formed.same rfl (fun _ => Iff.rfl) (fun _ => Iff.rfl) kept.formed.keys_nodup
    kept.formed.buttons_nodup ?_
  intro handle
  exact live_other (by simp) (by simp)

theorem Kept.step (kept : Kept emulation) (op : Op F) : Kept (step answer emulation op) := by
  cases op with
  | create handle => exact kept.create handle
  | consume event handle =>
    have settled := consume_settled answer kept.formed handle event
    exact ⟨settled.formed, kept.accounted.consumed kept.formed settled.consumed settled.scope⟩
  | releaseHeld handle order => exact kept.releaseHeld answer order handle
  | destroy handle order => exact kept.destroy answer order handle
  | terminate order => exact (kept.foldl_destroy answer order _).call_terminate

theorem kept_start (scope : ButtonScope) : Kept (.withBackend scope : InputEmulation F) := by
  have nobody : ∀ on held, ¬ Listed (.withBackend scope : InputEmulation F) on held := by
    rintro on held ⟨handle, -, lists⟩
    cases held with
    | button button | key key => cases lists
  refine ⟨⟨?_, ?_, ?_, ?_, ?_, ?_⟩, ?_, ?_, ?_⟩
  · intro handle
    simp [withBackend]
  · intro handle
    simp [withBackend]
  · intro handle
    exact nodup_nil
  · intro handle
    exact nodup_nil
  · exact nodup_nil
  · intro handle
    exact iff_of_false not_mem_nil (not_live_nil handle)
  · intro on held
    refine iff_of_false ?_ not_down_nil
    rintro (listed | ⟨handle, -, member⟩)
    · exact nobody on held listed
    · cases member
  · intro front made back on held split
    cases front <;> cases split
  · intro front made back handle own held split
    cases front <;> cases split

theorem kept_run (scope : ButtonScope) (ops : List (Op F)) : Kept (run answer scope ops) := by
  induction ops using reverseRecOn with
  | nil => exact kept_start scope
  | append_singleton ops op ih =>
    rw [run_append]
    exact ih.step answer op

end Runs

/-! ## What never changes -/

theorem destroy_scope (emulation : InputEmulation F) (handle : Handle) :
    (emulation.destroy answer order handle).buttonScope = emulation.buttonScope := by
  simp only [destroy, releaseHeld_eq]
  split <;> rfl

theorem step_scope {emulation : InputEmulation F} (formed : Formed emulation) (op : Op F) :
    (step answer emulation op).buttonScope = emulation.buttonScope := by
  cases op with
  | create handle =>
    simp only [step, create]
    split <;> rfl
  | consume event handle => exact (consume_settled answer formed handle event).scope
  | releaseHeld handle order =>
    simp only [step, releaseHeld_eq]
  | destroy handle order => exact destroy_scope answer order emulation handle
  | terminate order =>
    have same : ∀ (handles : List Handle) (start : InputEmulation F),
        (handles.foldl (destroy answer order) start).buttonScope = start.buttonScope := by
      intro handles
      induction handles with
      | nil => exact fun _ => rfl
      | cons handle rest ih =>
        intro start
        rw [foldl_cons, ih, destroy_scope]
    exact same _ emulation

theorem run_scope (ops : List (Op F)) : (run answer scope ops).buttonScope = scope := by
  induction ops using reverseRecOn with
  | nil => rfl
  | append_singleton ops op ih =>
    rw [run_append]
    exact (step_scope answer (kept_run answer scope ops).formed op).trans ih

end HopsFormal.Emulation
