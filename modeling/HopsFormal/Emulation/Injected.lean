import HopsFormal.Emulation.InputEmulation
import HopsFormal.Lib.Basic

/-!
# What the backend was told and what is listed

The calls made to the backend say which handles are live and which keys and
buttons are down: a press through a live handle with no release since.  In every
run of the emulation a key or button is down on a device exactly when a handle
of that device lists it, and a release goes out only for what is down.
-/

namespace HopsFormal.Emulation

open Capture (Event PointerEvent KeyboardEvent Held Kind kind)
open AList Lib
open InputEmulation

variable {F E : Type}

/-! ## What the calls say -/

/-- A handle the backend was told to create, and not to destroy since. -/
def Live (calls : List (Call F)) (handle : Handle) : Prop :=
  Since (fun made => made = .destroy handle) (fun _ made _ => made = .create handle) calls

/--
The device a handle presses something on: none for the one device that every
handle shares, otherwise the handle's own.  What a handle's keys do is followed
per handle in both scopes.
-/
def device (scope : ButtonScope) (handle : Handle) : Held → Option Handle
  | .button _ => if scope = .machine then none else some handle
  | .key _ => some handle

variable {handle : Handle} {table : Table Handle (List UInt32)} {change : List UInt32 → List UInt32}
  {code button : UInt32} {before after emulation : InputEmulation F}

theorem device_own {scope : ButtonScope} {own : Handle} {held : Held}
    (place : device scope handle held = some own) : handle = own := by
  cases held with
  | key key => exact Option.some.inj place
  | button button =>
    simp only [device] at place
    split at place
    · cases place
    · exact Option.some.inj place

variable (scope : ButtonScope) (on : Option Handle)

def PressedOn (held : Held) (handle : Handle) (made : Call F) : Prop :=
  ∃ event, made = .consume event handle ∧ kind (.input event) = .press held ∧
    device scope handle held = on

def ReleasedOn (held : Held) (made : Call F) : Prop :=
  ∃ event handle, made = .consume event handle ∧ kind (.input event) = .release held ∧
    device scope handle held = on

/-- Pressed through a live handle, with no release passed to the device since. -/
def Down (held : Held) (calls : List (Call F)) : Prop :=
  Since (ReleasedOn scope on held)
    (fun before made _ => ∃ handle, PressedOn scope on held handle made ∧ Live before handle) calls

section Calls

variable {scope : ButtonScope} {on : Option Handle} {held : Held} {calls : List (Call F)}
  {made : Call F}

theorem pressedOn_consume {event : Event F} {other : Handle} :
    PressedOn scope on held other (.consume event handle) ↔
      other = handle ∧ kind (.input event) = .press held ∧ device scope handle held = on := by
  constructor
  · rintro ⟨event, made, presses, place⟩
    cases made
    exact ⟨rfl, presses, place⟩
  · rintro ⟨rfl, presses, place⟩
    exact ⟨event, rfl, presses, place⟩

theorem releasedOn_consume {event : Event F} :
    ReleasedOn scope on held (.consume event handle) ↔
      kind (.input event) = .release held ∧ device scope handle held = on := by
  constructor
  · rintro ⟨event, other, made, releases, place⟩
    cases made
    exact ⟨releases, place⟩
  · rintro ⟨releases, place⟩
    exact ⟨event, handle, rfl, releases, place⟩

theorem not_down_release (released : ReleasedOn scope on held made) :
    ¬ Down scope on held (calls ++ [made]) := by
  intro down
  rcases Since.of_snoc down with ⟨handle, ⟨event, same, presses, -⟩, -⟩ | ⟨continues, -⟩
  · obtain ⟨other, through, again, releases, -⟩ := released
    rw [same] at again
    cases again
    rw [presses] at releases
    cases releases
  · exact continues released

theorem down_press {handle : Handle} (pressed : PressedOn scope on held handle made)
    (live : Live calls handle) : Down scope on held (calls ++ [made]) :=
  Since.last ⟨handle, pressed, live⟩

/-- A call that neither presses nor releases it changes nothing. -/
theorem down_other (no_release : ¬ ReleasedOn scope on held made)
    (no_press : ∀ handle, PressedOn scope on held handle made → ¬ Live calls handle) :
    Down scope on held (calls ++ [made]) ↔ Down scope on held calls := by
  constructor
  · intro down
    rcases Since.of_snoc down with ⟨handle, pressed, live⟩ | ⟨-, before⟩
    · exact absurd live (no_press handle pressed)
    · exact before
  · intro down
    exact Since.snoc_same down no_release

theorem live_create (handle : Handle) : Live (calls ++ [.create handle]) handle :=
  Since.last rfl

theorem not_live_destroy (handle : Handle) : ¬ Live (calls ++ [.destroy handle]) handle := by
  intro live
  rcases Since.of_snoc live with same | ⟨continues, -⟩
  · cases same
  · exact continues rfl

theorem live_other {handle : Handle} (no_create : made ≠ .create handle)
    (no_destroy : made ≠ .destroy handle) : Live (calls ++ [made]) handle ↔ Live calls handle := by
  constructor
  · intro live
    rcases Since.of_snoc live with same | ⟨-, before⟩
    · exact absurd same no_create
    · exact before
  · intro live
    exact Since.snoc_same live no_destroy

theorem not_live_nil (handle : Handle) : ¬ Live ([] : List (Call F)) handle := by
  rintro ⟨before, x, after, split, -⟩
  cases before <;> cases split

theorem not_down_nil : ¬ Down scope on held ([] : List (Call F)) := by
  rintro ⟨before, x, after, split, -⟩
  cases before <;> cases split

end Calls

/-! ## What is listed -/

/-- The codes a table lists for a handle. -/
@[grind =]
def listing (table : Table Handle (List UInt32)) (handle : Handle) : List UInt32 :=
  (table.lookup handle).getD []

/-- Whether a handle is listed as holding a key or a button. -/
def Lists (emulation : InputEmulation F) (handle : Handle) : Held → Prop
  | .button button => button ∈ listing emulation.pressedButtons handle
  | .key key => key ∈ listing emulation.pressedKeys handle

instance (emulation : InputEmulation F) (handle : Handle) (held : Held) :
    Decidable (Lists emulation handle held) :=
  match held with
  | .button button => inferInstanceAs (Decidable (button ∈ listing emulation.pressedButtons handle))
  | .key key => inferInstanceAs (Decidable (key ∈ listing emulation.pressedKeys handle))

/-- Some handle of a device is listed as holding a key or a button. -/
def Listed (emulation : InputEmulation F) (on : Option Handle) (held : Held) : Prop :=
  ∃ handle, device emulation.buttonScope handle held = on ∧ Lists emulation handle held

theorem listing_modify (present : handle ∈ table) (other : Handle) :
    listing (table.modify handle change) other =
      if other = handle then change (listing table handle) else listing table other := by
  unfold listing
  rw [Table.lookup_modify]
  by_cases same : other = handle
  · subst same
    obtain ⟨row, found⟩ := Option.isSome_iff_exists.mp (lookup_isSome.mpr present)
    rw [if_pos rfl, if_pos rfl, found]
    rfl
  · rw [if_neg same, if_neg same]

theorem listing_absent (absent : handle ∉ table) : listing table handle = [] := by
  rw [listing, lookup_eq_none.mpr absent]
  rfl

theorem modify_absent (absent : handle ∉ table) (change : List UInt32 → List UInt32) :
    table.modify handle change = table := by
  rw [Table.modify, lookup_eq_none.mpr absent]

theorem mem_modify {other : Handle} : other ∈ table.modify handle change ↔ other ∈ table := by
  rw [← lookup_isSome, ← lookup_isSome, Table.lookup_modify]
  split
  · rw [Option.isSome_map]
  · rfl

theorem listing_mapValues (table : Table Handle (List UInt32)) (nothing : change [] = [])
    (handle : Handle) :
    listing (table.mapValues change) handle = change (listing table handle) := by
  unfold listing
  rw [Table.lookup_mapValues]
  cases table.lookup handle with
  | none => simp [nothing]
  | some row => rfl

theorem mem_mapValues : handle ∈ table.mapValues change ↔ handle ∈ table := by
  rw [← lookup_isSome, ← lookup_isSome, Table.lookup_mapValues, Option.isSome_map]

theorem any_other : (table.any fun other row => decide (other ≠ handle ∧ code ∈ row)) = true ↔
      ∃ other, other ≠ handle ∧ code ∈ listing table other := by
  rw [Table.any_iff]
  constructor
  · rintro ⟨other, row, found, passes⟩
    simp only [decide_eq_true_eq] at passes
    refine ⟨other, passes.1, ?_⟩
    rw [listing, found]
    exact passes.2
  · rintro ⟨other, apart, member⟩
    unfold listing at member
    cases found : table.lookup other with
    | none => simp [found] at member
    | some row =>
      rw [found] at member
      exact ⟨other, row, found, by simpa using ⟨apart, member⟩⟩

/-! ## What is kept -/

/-- The tables have a row for every live handle and for no other. -/
structure Formed (emulation : InputEmulation F) : Prop where
  keys_rows : ∀ handle, handle ∈ emulation.pressedKeys ↔ handle ∈ emulation.handles
  buttons_rows : ∀ handle, handle ∈ emulation.pressedButtons ↔ handle ∈ emulation.handles
  keys_nodup : ∀ handle, (listing emulation.pressedKeys handle).Nodup
  buttons_nodup : ∀ handle, (listing emulation.pressedButtons handle).Nodup
  handles_nodup : emulation.handles.Nodup
  live : ∀ handle, handle ∈ emulation.handles ↔ Live emulation.calls handle

/--
What is down is what is listed, or still owed a release by a loop that has
drained the list; every release passed was of something down; and on a device
of its own nothing that is down is pressed again.
-/
structure Accounted (emulation : InputEmulation F) (owed : List (Handle × Held)) : Prop where
  listed : ∀ on held, (Listed emulation on held ∨
      ∃ handle, device emulation.buttonScope handle held = on ∧ (handle, held) ∈ owed) ↔
    Down emulation.buttonScope on held emulation.calls
  answered : ∀ front made back on held, emulation.calls = front ++ made :: back →
    ReleasedOn emulation.buttonScope on held made → Down emulation.buttonScope on held front
  fresh : ∀ front made back handle own held, emulation.calls = front ++ made :: back →
    PressedOn emulation.buttonScope (some own) held handle made → Live front handle →
    ¬ Down emulation.buttonScope (some own) held front

theorem Accounted.call {owed owed' : List (Handle × Held)} {made : Call F}
    (accounted : Accounted before owed) (scope : after.buttonScope = before.buttonScope)
    (calls : after.calls = before.calls ++ [made]) (listed : ∀ on held, (Listed after on held ∨
        ∃ handle, device before.buttonScope handle held = on ∧ (handle, held) ∈ owed') ↔
      Down before.buttonScope on held (before.calls ++ [made]))
    (answered : ∀ on held, ReleasedOn before.buttonScope on held made →
      Down before.buttonScope on held before.calls)
    (fresh : ∀ handle own held, PressedOn before.buttonScope (some own) held handle made →
      Live before.calls handle → ¬ Down before.buttonScope (some own) held before.calls) :
    Accounted after owed' where
  listed := by
    rw [scope, calls]
    exact listed
  answered := by
    intro front call back on held split released
    rw [calls] at split
    rw [scope] at released ⊢
    rcases split_concat split with ⟨rfl, rfl⟩ | ⟨rest, inner⟩
    · exact answered on held released
    · exact accounted.answered front call rest on held inner released
  fresh := by
    intro front call back handle own held split pressed live
    rw [calls] at split
    rw [scope] at pressed ⊢
    rcases split_concat split with ⟨rfl, rfl⟩ | ⟨rest, inner⟩
    · exact fresh handle own held pressed live
    · exact accounted.fresh front call rest handle own held inner pressed live

theorem Accounted.quiet {owed : List (Handle × Held)} {made : Call F}
    (accounted : Accounted before owed) (scope : after.buttonScope = before.buttonScope)
    (calls : after.calls = before.calls ++ [made])
    (lists : ∀ handle held, Lists after handle held ↔ Lists before handle held)
    (no_press : ∀ on held handle, ¬ PressedOn before.buttonScope on held handle made)
    (no_release : ∀ on held, ¬ ReleasedOn before.buttonScope on held made) :
    Accounted after owed := by
  apply accounted.call scope calls
  · intro on held
    rw [down_other (no_release on held) fun handle pressed => absurd pressed (no_press on held handle),
      ← accounted.listed]
    simp only [Listed, lists, scope]
  · intro on held released
    exact absurd released (no_release on held)
  · intro handle own held pressed
    exact absurd pressed (no_press (some own) held handle)

/-! ## Consuming an event -/

/-- Everything consuming an event can do. -/
inductive Consumed (before : InputEmulation F) (event : Event F) (handle : Handle)
    (after : InputEmulation F) : Prop where
  | pressed (held : Held) (sort : kind (.input event) = .press held)
      (live : handle ∈ before.handles)
      (fresh : device before.buttonScope handle held ≠ none → ¬ Lists before handle held)
      (lists : ∀ other what, Lists after other what ↔
        Lists before other what ∨ other = handle ∧ what = held)
      (calls : after.calls = before.calls ++ [.consume event handle])
  | loose (held : Held) (sort : kind (.input event) = .press held)
      (absent : handle ∉ before.handles)
      (lists : ∀ other what, Lists after other what ↔ Lists before other what)
      (calls : after.calls = before.calls ++ [.consume event handle])
  | released (held : Held) (sort : kind (.input event) = .release held) (holder through : Handle)
      (lists_it : Lists before holder held)
      (same : device before.buttonScope through held = device before.buttonScope holder held)
      (lists : ∀ other what, Lists after other what ↔ Lists before other what ∧
        ¬ (what = held ∧
          device before.buttonScope other held = device before.buttonScope holder held))
      (calls : after.calls = before.calls ++ [.consume event through])
  | passed (no_press : ∀ held, kind (.input event) ≠ .press held)
      (no_release : ∀ held, kind (.input event) ≠ .release held)
      (lists : ∀ other what, Lists after other what ↔ Lists before other what)
      (calls : after.calls = before.calls ++ [.consume event handle])
  | dropped (lists : ∀ other what, Lists after other what ↔ Lists before other what)
      (calls : after.calls = before.calls)

theorem Accounted.consumed {event : Event F} (accounted : Accounted before [])
    (formed : Formed before) (consumed : Consumed before event handle after)
    (scope : after.buttonScope = before.buttonScope) : Accounted after [] := by
  have listed : ∀ on held, Listed before on held ↔ Down before.buttonScope on held before.calls := by
    intro on held
    rw [← accounted.listed on held]
    simp
  cases consumed with
  | pressed held sort live fresh lists calls =>
    have only : ∀ on what other,
        PressedOn before.buttonScope on what other (.consume event handle) →
        other = handle ∧ what = held ∧ device before.buttonScope handle held = on := by
      intro on what other pressed
      obtain ⟨rfl, presses, place⟩ := pressedOn_consume.mp pressed
      cases sort.symm.trans presses
      exact ⟨rfl, rfl, place⟩
    have no_release : ∀ on what,
        ¬ ReleasedOn before.buttonScope on what (.consume event handle) := by
      simp [releasedOn_consume, sort]
    apply accounted.call scope calls
    · intro on what
      simp only [List.not_mem_nil, and_false, exists_false, or_false]
      by_cases here : what = held ∧ device before.buttonScope handle held = on
      · obtain ⟨rfl, rfl⟩ := here
        refine iff_of_true ⟨handle, by rw [scope], (lists _ _).mpr (.inr ⟨rfl, rfl⟩)⟩ ?_
        exact down_press (pressedOn_consume.mpr ⟨rfl, sort, rfl⟩) ((formed.live handle).mp live)
      · rw [down_other (no_release on what), ← listed]
        · constructor
          · rintro ⟨other, place, member⟩
            rw [scope] at place
            rcases (lists other what).mp member with old | ⟨rfl, rfl⟩
            · exact ⟨other, place, old⟩
            · exact absurd ⟨rfl, place⟩ here
          · rintro ⟨other, place, member⟩
            exact ⟨other, by rw [scope, place], (lists other what).mpr (.inl member)⟩
        · intro other pressed
          exact absurd ⟨(only on what other pressed).2.1, (only on what other pressed).2.2⟩ here
    · intro on what released
      exact absurd released (no_release on what)
    · intro other own what pressed _
      obtain ⟨rfl, rfl, place⟩ := only (some own) what other pressed
      rw [← listed]
      rintro ⟨holder, same, member⟩
      refine fresh (by rw [place]; simp) ?_
      rw [device_own place, ← device_own same]
      exact member
  | loose held sort absent lists calls =>
    have not_live : ∀ on what other,
        PressedOn before.buttonScope on what other (.consume event handle) →
        ¬ Live before.calls other := by
      intro on what other pressed
      rw [(pressedOn_consume.mp pressed).1]
      exact mt (formed.live handle).mpr absent
    have no_release : ∀ on what,
        ¬ ReleasedOn before.buttonScope on what (.consume event handle) := by
      simp [releasedOn_consume, sort]
    apply accounted.call scope calls
    · intro on what
      rw [down_other (no_release on what) (not_live on what), ← accounted.listed]
      simp only [Listed, lists, scope]
    · intro on what released
      exact absurd released (no_release on what)
    · intro other own what pressed live
      exact absurd live (not_live (some own) what other pressed)
  | released held sort holder through lists_it same lists calls =>
    have only : ∀ on what, ReleasedOn before.buttonScope on what (.consume event through) →
        what = held ∧ device before.buttonScope holder held = on := by
      intro on what released
      obtain ⟨releases, place⟩ := releasedOn_consume.mp released
      cases sort.symm.trans releases
      exact ⟨rfl, same.symm.trans place⟩
    have no_press : ∀ on what other,
        ¬ PressedOn before.buttonScope on what other (.consume event through) := by
      simp [pressedOn_consume, sort]
    apply accounted.call scope calls
    · intro on what
      simp only [List.not_mem_nil, and_false, exists_false, or_false]
      by_cases here : what = held ∧ device before.buttonScope holder held = on
      · obtain ⟨rfl, rfl⟩ := here
        refine iff_of_false ?_ (not_down_release (releasedOn_consume.mpr ⟨sort, same⟩))
        rintro ⟨other, place, member⟩
        rw [scope] at place
        exact ((lists other what).mp member).2 ⟨rfl, place⟩
      · rw [down_other (fun released => here (only on what released)) fun other pressed =>
            absurd pressed (no_press on what other), ← listed]
        constructor
        · rintro ⟨other, place, member⟩
          exact ⟨other, by rw [← scope, place], ((lists other what).mp member).1⟩
        · rintro ⟨other, place, member⟩
          refine ⟨other, by rw [scope, place], (lists other what).mpr ⟨member, ?_⟩⟩
          rintro ⟨rfl, level⟩
          exact here ⟨rfl, level.symm.trans place⟩
    · intro on what released
      obtain ⟨rfl, rfl⟩ := only on what released
      rw [← listed]
      exact ⟨holder, rfl, lists_it⟩
    · intro other own what pressed
      exact absurd pressed (no_press (some own) what other)
  | passed no_press no_release lists calls =>
    apply accounted.quiet scope calls lists
    · exact fun on held other pressed => no_press held (pressedOn_consume.mp pressed).2.1
    · exact fun on held released => no_release held (releasedOn_consume.mp released).1
  | dropped lists calls =>
    refine ⟨?_, ?_, ?_⟩
    · intro on held
      rw [scope, calls, ← accounted.listed]
      simp only [Listed, lists, scope]
    · rw [scope, calls]
      exact accounted.answered
    · rw [scope, calls]
      exact accounted.fresh

/-! ## Changes of one row -/

theorem mem_listing_insert (present : handle ∈ table) {other : UInt32} {at_ : Handle} :
    other ∈ listing (table.modify handle fun row => row.insert code) at_ ↔
      other ∈ listing table at_ ∨ at_ = handle ∧ other = code := by
  rw [listing_modify present]
  by_cases same : at_ = handle
  · subst same
    rw [if_pos rfl, List.mem_insert_iff]
    tauto
  · rw [if_neg same]
    tauto

theorem mem_listing_erase (nodup : ∀ handle, (listing table handle).Nodup) {other : UInt32}
    {at_ : Handle} : other ∈ listing (table.modify handle fun row => row.erase code) at_ ↔
      other ∈ listing table at_ ∧ ¬ (at_ = handle ∧ other = code) := by
  by_cases present : handle ∈ table
  · rw [listing_modify present]
    by_cases same : at_ = handle
    · subst same
      rw [if_pos rfl, (nodup at_).mem_erase_iff]
      tauto
    · rw [if_neg same]
      tauto
  · rw [modify_absent present]
    constructor
    · intro member
      refine ⟨member, ?_⟩
      rintro ⟨rfl, -⟩
      rw [listing_absent present] at member
      cases member
    · exact And.left

theorem nodup_listing_modify (nodup : ∀ handle, (listing table handle).Nodup)
    (kept : ∀ row : List UInt32, row.Nodup → (change row).Nodup) (at_ : Handle) :
    (listing (table.modify handle change) at_).Nodup := by
  by_cases present : handle ∈ table
  · rw [listing_modify present]
    split
    · exact kept _ (nodup handle)
    · exact nodup at_
  · rw [modify_absent present]
    exact nodup at_

theorem lists_insertButton (present : handle ∈ emulation.pressedButtons) (other : Handle)
    (what : Held) : Lists { emulation with
        pressedButtons := emulation.pressedButtons.modify handle fun row => row.insert button }
      other what ↔ Lists emulation other what ∨ other = handle ∧ what = .button button := by
  cases what with
  | button code => simp only [Lists, mem_listing_insert present, Held.button.injEq]
  | key code => simp [Lists]

theorem lists_eraseButton (nodup : ∀ handle, (listing emulation.pressedButtons handle).Nodup)
    (other : Handle) (what : Held) : Lists { emulation with
        pressedButtons := emulation.pressedButtons.modify handle fun row => row.erase button }
      other what ↔ Lists emulation other what ∧ ¬ (other = handle ∧ what = .button button) := by
  cases what with
  | button code => simp only [Lists, mem_listing_erase nodup, Held.button.injEq]
  | key code => simp [Lists]

theorem lists_clearButton (nodup : ∀ handle, (listing emulation.pressedButtons handle).Nodup)
    (other : Handle) (what : Held) : Lists { emulation with
        pressedButtons := emulation.pressedButtons.mapValues fun row => row.erase button }
      other what ↔ Lists emulation other what ∧ what ≠ .button button := by
  cases what with
  | button code =>
    have cleared : listing (emulation.pressedButtons.mapValues fun row => row.erase button) other =
        (listing emulation.pressedButtons other).erase button :=
      listing_mapValues _ rfl other
    simp only [Lists, cleared, (nodup other).mem_erase_iff, ne_eq, Held.button.injEq]
    tauto
  | key code => simp [Lists]

theorem Formed.same (formed : Formed before) (handles : after.handles = before.handles)
    (keys_rows : ∀ handle, handle ∈ after.pressedKeys ↔ handle ∈ before.pressedKeys)
    (buttons_rows : ∀ handle, handle ∈ after.pressedButtons ↔ handle ∈ before.pressedButtons)
    (keys_nodup : ∀ handle, (listing after.pressedKeys handle).Nodup)
    (buttons_nodup : ∀ handle, (listing after.pressedButtons handle).Nodup)
    (calls : ∀ handle, Live after.calls handle ↔ Live before.calls handle) : Formed after where
  keys_rows handle := by rw [keys_rows, handles, formed.keys_rows]
  buttons_rows handle := by rw [buttons_rows, handles, formed.buttons_rows]
  keys_nodup := keys_nodup
  buttons_nodup := buttons_nodup
  handles_nodup := handles ▸ formed.handles_nodup
  live handle := by rw [handles, calls, formed.live]

theorem live_consume {calls : List (Call F)} {event : Event F} {through : Handle}
    (handle : Handle) : Live (calls ++ [.consume event through]) handle ↔ Live calls handle :=
  live_other (by simp) (by simp)

theorem Formed.pass (formed : Formed emulation) (answer : List (Call F) → Except E Unit)
    (event : Event F) (handle : Handle) : Formed (emulation.pass answer event handle).2 :=
  formed.same rfl (fun _ => Iff.rfl) (fun _ => Iff.rfl) formed.keys_nodup formed.buttons_nodup
    live_consume

theorem Formed.modifyKeys (formed : Formed emulation) (handle : Handle)
    (kept : ∀ row : List UInt32, row.Nodup → (change row).Nodup) :
    Formed { emulation with pressedKeys := emulation.pressedKeys.modify handle change } :=
  formed.same rfl (fun _ => mem_modify) (fun _ => Iff.rfl)
    (nodup_listing_modify formed.keys_nodup kept) formed.buttons_nodup fun _ => Iff.rfl

theorem Formed.modifyButtons (formed : Formed emulation) (handle : Handle)
    (kept : ∀ row : List UInt32, row.Nodup → (change row).Nodup) :
    Formed { emulation with pressedButtons := emulation.pressedButtons.modify handle change } :=
  formed.same rfl (fun _ => Iff.rfl) (fun _ => mem_modify) formed.keys_nodup
    (nodup_listing_modify formed.buttons_nodup kept) fun _ => Iff.rfl

theorem nodup_insert (code : UInt32) (row : List UInt32) (nodup : row.Nodup) :
    (row.insert code).Nodup :=
  nodup.insert

theorem nodup_erase (code : UInt32) (row : List UInt32) (nodup : row.Nodup) :
    (row.erase code).Nodup :=
  nodup.erase code

/-! ## Consuming does one of these -/

/-- A consumed event, with what consuming never changes. -/
structure Settled (before : InputEmulation F) (event : Event F) (handle : Handle)
    (after : InputEmulation F) : Prop where
  consumed : Consumed before event handle after
  formed : Formed after
  scope : after.buttonScope = before.buttonScope

theorem kind_key (time key : UInt32) (state : UInt8) :
    kind (.input (.keyboard (.key time key state)) : Capture.CaptureEvent F) =
      if state = 0 then .release (.key key) else .press (.key key) := rfl

theorem kind_button (time button state : UInt32) :
    kind (.input (.pointer (.button time button state)) : Capture.CaptureEvent F) =
      if state = 0 then .release (.button button) else .press (.button button) := rfl

theorem buttonHolder_lists {holder : Handle}
    (found : emulation.buttonHolder handle button = some holder) :
    Lists emulation holder (.button button) := by
  unfold buttonHolder at found
  split at found
  · rename_i own
    obtain rfl := Option.some.inj found
    simp only [Lists, listing]
    cases looked : emulation.pressedButtons.lookup handle with
    | none => simp [looked] at own
    | some row => simpa [looked] using own
  · have member := List.min?_mem found
    obtain ⟨row, looked, inside⟩ := Table.mem_keysWhere.mp member
    simp only [Lists, listing, looked]
    simpa using inside

section Consume

variable (answer : List (Call F) → Except E Unit) {emulation : InputEmulation F}
  (formed : Formed emulation) (handle : Handle)

include formed

theorem consume_key (time key : UInt32) (state : UInt8) :
    Settled emulation (.keyboard (.key time key state)) handle
      (emulation.consume answer (.keyboard (.key time key state)) handle).2 := by
  simp only [consume]
  cases found : emulation.pressedKeys.lookup handle with
  | none =>
    have updated : emulation.updatePressedKeys handle key state = (false, emulation) := by
      simp only [updatePressedKeys, found]
    simp only [updated]
    exact ⟨.dropped (fun _ _ => Iff.rfl) rfl, formed, rfl⟩
  | some pressed =>
    have present : handle ∈ emulation.pressedKeys := by
      rw [← lookup_isSome, found]
      rfl
    have row : listing emulation.pressedKeys handle = pressed := by
      rw [listing, found]
      rfl
    by_cases up : state = 0
    · have sort := kind_key (F := F) time key state
      rw [if_pos up] at sort
      have lists : ∀ other what, Lists { emulation with
          pressedKeys := emulation.pressedKeys.modify handle fun row => row.erase key } other what ↔
          Lists emulation other what ∧ ¬ (other = handle ∧ what = .key key) := by
        intro other what
        cases what with
        | key code =>
          simp only [Lists, mem_listing_erase formed.keys_nodup, Held.key.injEq]
        | button code => simp [Lists]
      have updated : emulation.updatePressedKeys handle key state = (decide (key ∈ pressed),
          { emulation with
            pressedKeys := emulation.pressedKeys.modify handle fun row => row.erase key }) := by
        simp only [updatePressedKeys, found, if_pos up]
      simp only [updated, decide_eq_true_eq]
      by_cases down : key ∈ pressed
      · rw [if_pos down]
        refine ⟨.released (.key key) sort handle handle ?_ rfl ?_ rfl,
          (formed.modifyKeys handle (nodup_erase key)).pass answer _ _, rfl⟩
        · rw [← row] at down
          exact down
        · intro other what
          refine (lists other what).trans ?_
          simp only [device, Option.some.injEq]
          tauto
      · rw [if_neg down]
        refine ⟨.dropped ?_ rfl, formed.modifyKeys handle (nodup_erase key), rfl⟩
        intro other what
        refine (lists other what).trans ⟨And.left, fun member => ⟨member, ?_⟩⟩
        rintro ⟨rfl, rfl⟩
        rw [← row] at down
        exact down member
    · have sort := kind_key (F := F) time key state
      rw [if_neg up] at sort
      have lists : ∀ other what, Lists { emulation with
          pressedKeys := emulation.pressedKeys.modify handle fun row => row.insert key } other what ↔
          Lists emulation other what ∨ (other = handle ∧ what = .key key) := by
        intro other what
        cases what with
        | key code =>
          simp only [Lists, mem_listing_insert present, Held.key.injEq]
        | button code => simp [Lists]
      have updated : emulation.updatePressedKeys handle key state = (decide (key ∉ pressed),
          { emulation with
            pressedKeys := emulation.pressedKeys.modify handle fun row => row.insert key }) := by
        simp only [updatePressedKeys, found, if_neg up]
      simp only [updated, decide_eq_true_eq]
      by_cases down : key ∈ pressed
      · rw [if_neg (not_not.mpr down)]
        refine ⟨.dropped ?_ rfl, formed.modifyKeys handle (nodup_insert key), rfl⟩
        intro other what
        refine (lists other what).trans ⟨?_, .inl⟩
        rintro (member | ⟨rfl, rfl⟩)
        · exact member
        · rw [← row] at down
          exact down
      · rw [if_pos down]
        refine ⟨.pressed (.key key) sort ((formed.keys_rows handle).mp present) ?_ lists rfl,
          (formed.modifyKeys handle (nodup_insert key)).pass answer _ _, rfl⟩
        intro _ member
        rw [← row] at down
        exact down member

theorem consume_machine (machine : emulation.buttonScope = .machine)
    (time button state : UInt32) :
    Settled emulation (.pointer (.button time button state)) handle
      (emulation.machineButton answer (.pointer (.button time button state)) handle button
        state).2 := by
  have sort := kind_button (F := F) time button state
  unfold machineButton
  by_cases up : state = 0
  · rw [if_pos up] at sort
    rw [if_neg (not_not.mpr up)]
    by_cases some_holds :
        (emulation.pressedButtons.any fun _ pressed => decide (button ∈ pressed)) = true
    · rw [if_pos some_holds]
      obtain ⟨holder, row, found, member⟩ := Table.any_iff.mp some_holds
      have lists_it : Lists emulation holder (.button button) := by
        simp only [Lists, listing, found]
        simpa using member
      refine ⟨.released (.button button) sort holder handle lists_it ?_ ?_ rfl, ?_, rfl⟩
      · simp only [device, machine, if_true]
      · intro other what
        refine (lists_clearButton formed.buttons_nodup other what).trans ?_
        simp only [device, machine, if_true]
        tauto
      · refine Formed.pass ?_ answer _ _
        refine formed.same rfl (fun _ => Iff.rfl) (fun _ => mem_mapValues) formed.keys_nodup ?_
          fun _ => Iff.rfl
        intro at_
        rw [listing_mapValues _ rfl]
        exact (formed.buttons_nodup at_).erase button
    · rw [if_neg some_holds]
      exact ⟨.dropped (fun _ _ => Iff.rfl) rfl, formed, rfl⟩
  · rw [if_neg up] at sort
    rw [if_pos up]
    have shaped := (formed.modifyButtons handle (nodup_insert button)).pass answer
      (.pointer (.button time button state)) handle
    by_cases live : handle ∈ emulation.handles
    · have present := (formed.buttons_rows handle).mpr live
      refine ⟨.pressed (.button button) sort live ?_ (lists_insertButton present) rfl, shaped, rfl⟩
      intro own
      simp [device, machine] at own
    · have absent := mt (formed.buttons_rows handle).mp live
      refine ⟨.loose (.button button) sort live ?_ rfl, shaped, rfl⟩
      rw [modify_absent absent]
      exact fun _ _ => Iff.rfl

theorem consume_perHandle (perHandle : emulation.buttonScope = .perHandle)
    (time button state : UInt32) :
    Settled emulation (.pointer (.button time button state)) handle
      (emulation.perHandleButton answer (.pointer (.button time button state)) handle button
        state).2 := by
  have sort := kind_button (F := F) time button state
  unfold perHandleButton
  by_cases up : state = 0
  · rw [if_pos up] at sort
    rw [if_neg (not_not.mpr up)]
    cases found : emulation.buttonHolder handle button with
    | none => exact ⟨.dropped (fun _ _ => Iff.rfl) rfl, formed, rfl⟩
    | some holder =>
      refine ⟨.released (.button button) sort holder holder
        (buttonHolder_lists found) rfl ?_ rfl,
        (formed.modifyButtons holder (nodup_erase button)).pass answer _ _, rfl⟩
      intro other what
      refine (lists_eraseButton formed.buttons_nodup other what).trans ?_
      simp only [device, perHandle, reduceCtorEq, if_false, Option.some.injEq]
      tauto
  · rw [if_neg up] at sort
    rw [if_pos up]
    cases found : emulation.pressedButtons.lookup handle with
    | none =>
      have absent : handle ∉ emulation.handles := by
        rw [← formed.buttons_rows, ← lookup_eq_none]
        exact found
      exact ⟨.loose (.button button) sort absent (fun _ _ => Iff.rfl) rfl,
        formed.pass answer _ _, rfl⟩
    | some pressed =>
      have present : handle ∈ emulation.pressedButtons := by
        rw [← lookup_isSome, found]
        rfl
      dsimp only
      by_cases down : button ∈ pressed
      · rw [if_pos down]
        exact ⟨.dropped (fun _ _ => Iff.rfl) rfl, formed, rfl⟩
      · rw [if_neg down]
        refine ⟨.pressed (.button button) sort ((formed.buttons_rows handle).mp present) ?_
          (lists_insertButton present) rfl,
          (formed.modifyButtons handle (nodup_insert button)).pass answer _ _, rfl⟩
        intro _ member
        simp only [Lists, listing, found] at member
        exact down member

theorem consume_settled (event : Event F) :
    Settled emulation event handle (emulation.consume answer event handle).2 := by
  cases event with
  | keyboard event =>
    cases event with
    | key time key state => exact consume_key answer formed handle time key state
    | modifiers depressed latched locked group =>
      exact ⟨.passed (by simp [kind]) (by simp [kind]) (fun _ _ => Iff.rfl) rfl,
        formed.pass answer _ _, rfl⟩
  | pointer event =>
    cases event with
    | button time button state =>
      simp only [consume]
      cases scope : emulation.buttonScope with
      | machine => exact consume_machine answer formed handle scope time button state
      | perHandle => exact consume_perHandle answer formed handle scope time button state
    | motion time dx dy | axis time axis value | axisDiscrete120 axis value =>
      exact ⟨.passed (by simp [kind]) (by simp [kind]) (fun _ _ => Iff.rfl) rfl,
        formed.pass answer _ _, rfl⟩

end Consume

end HopsFormal.Emulation
