import HopsFormal.Capture.EventQueue
import Mathlib.Data.List.Induction
import Mathlib.Data.List.Forall2

/-!
# Runs of the capture queue

A run interleaves pushes and pops in any way.  The stream of a run is what the
consumer has taken followed by what still waits; a step only appends to it, up
to the amount of a waiting motion.  What the stream leaves held is exactly what
the queue remembers as held, which is where both results about stuck keys come
from.
-/

namespace HopsFormal.Capture.EventQueue

open List

variable {F : Type}

/-! ## What a stream leaves held -/

/-- Follow one event in the record of what is held down. -/
def track (held : List (Position × Held)) (item : Item F) : List (Position × Held) :=
  match kind item.2 with
  | .press h => if (item.1, h) ∈ held then held else held ++ [(item.1, h)]
  | .release h => held.filter (· != (item.1, h))
  | _ => held

variable (items : List (Item F))

/-- The keys and buttons a stream leaves held, in the order first pressed. -/
def heldAfter : List (Position × Held) :=
  items.foldl track []

theorem heldAfter_append (front back : List (Item F)) :
    heldAfter (front ++ back) = back.foldl track (heldAfter front) :=
  foldl_append

theorem track_nodup {held : List (Position × Held)} (nodup : held.Nodup) (item : Item F) :
    (track held item).Nodup := by
  unfold track
  split
  · split
    · exact nodup
    · rename_i absent
      exact Nodup.append nodup (nodup_singleton _) (disjoint_singleton.mpr absent)
  · exact nodup.filter _
  · exact nodup

theorem heldAfter_nodup : (heldAfter items).Nodup := by
  induction items using reverseRecOn with
  | nil => exact nodup_nil
  | append_singleton items item ih =>
    rw [heldAfter_append]
    exact track_nodup ih item

theorem track_releases (held : List (Position × Held)) :
    ∀ rest : List (Position × Held), (∀ x ∈ rest, x ∈ held) →
      (held.map fun x => ((x.1, x.2.release) : Item F)).foldl track rest = [] := by
  induction held with
  | nil =>
    intro rest inside
    simpa [eq_nil_iff_forall_not_mem] using inside
  | cons first others ih =>
    intro rest inside
    simp only [map_cons, foldl_cons]
    apply ih
    intro x member
    simp only [track, kind_release, mem_filter, bne_iff_ne] at member
    rcases mem_cons.mp (inside x member.1) with same | other
    · exact absurd same member.2
    · exact other

/-! ## Streams that differ by the amount of a motion -/

def IsMotion (item : Item F) : Prop := ∃ dx dy, kind item.2 = .motion dx dy

/-- Equal entries, or two motions. -/
def Alike (old new : Item F) : Prop := old = new ∨ IsMotion old ∧ IsMotion new

theorem Alike.refl (item : Item F) : Alike item item := .inl rfl

theorem Alike.symm {old new : Item F} (alike : Alike old new) : Alike new old :=
  alike.imp Eq.symm And.symm

theorem Alike.track_eq {old new : Item F} (alike : Alike old new)
    (held : List (Position × Held)) : track held old = track held new := by
  rcases alike with rfl | ⟨⟨_, _, oldMotion⟩, _, _, newMotion⟩
  · rfl
  · simp only [track, oldMotion, newMotion]

theorem alike_refl : Forall₂ Alike items items :=
  forall₂_same.mpr fun item _ => Alike.refl item

variable {old new : List (Item F)} {pos : Position} {before after : State F}
  {event : CaptureEvent F}

theorem foldl_track_alike (alike : Forall₂ Alike old new) (held : List (Position × Held)) :
    old.foldl track held = new.foldl track held := by
  induction alike generalizing held with
  | nil => rfl
  | cons head _ ih =>
    simp only [foldl_cons, head.track_eq]
    exact ih _

/-- An entry other than motion stands where it stood. -/
theorem alike_get (alike : Forall₂ Alike old new) {index : Nat} {item : Item F}
    (found : old[index]? = some item) (still : ¬ IsMotion item) : new[index]? = some item := by
  induction alike generalizing index with
  | nil => simp at found
  | cons head _ ih =>
    cases index with
    | zero =>
      simp only [getElem?_cons_zero, Option.some.injEq] at found ⊢
      subst found
      rcases head with same | ⟨motion, _⟩
      · exact same.symm
      · exact absurd motion still
    | succ index =>
      simp only [getElem?_cons_succ] at found ⊢
      exact ih found

/-- An entry other than motion stood there before. -/
theorem alike_get_old (alike : Forall₂ Alike old new) {index : Nat} {item : Item F}
    (found : new[index]? = some item) (still : ¬ IsMotion item) : old[index]? = some item :=
  alike_get (Forall₂.flip (alike.imp fun _ _ => Alike.symm)) found still

theorem mergeMotion_some [Add F] {dx dy : F} {items merged : List (Item F)}
    (summed : mergeMotion pos dx dy items = some merged) :
    ∃ front back time x y, items = front ++ (pos, .input (.pointer (.motion time x y))) :: back ∧
      merged = front ++ (pos, .input (.pointer (.motion time (x + dx) (y + dy)))) :: back ∧
      ∀ item ∈ front, IsMotion item := by
  induction items generalizing merged with
  | nil => simp [mergeMotion] at summed
  | cons item rest ih =>
    unfold mergeMotion at summed
    split at summed
    · simp_all
    · rename_i lastPos time lastDx lastDy tail same
      obtain ⟨rfl, rfl⟩ := List.cons.inj same
      split at summed
      · rename_i here
        subst here
        obtain rfl := Option.some.inj summed
        exact ⟨[], rest, time, lastDx, lastDy, rfl, rfl, by simp⟩
      · obtain ⟨inner, innerEq, rfl⟩ := Option.map_eq_some_iff.mp summed
        obtain ⟨front, back, at_, x, y, whole, result, motion⟩ := ih innerEq
        refine ⟨_ :: front, back, at_, x, y, by rw [whole]; rfl, by rw [result]; rfl, ?_⟩
        intro other member
        rcases mem_cons.mp member with rfl | inner
        · exact ⟨lastDx, lastDy, rfl⟩
        · exact motion other inner
    · cases summed

theorem mergeMotion_alike [Add F] {dx dy : F} {items merged : List (Item F)}
    (summed : mergeMotion pos dx dy items = some merged) : Forall₂ Alike items merged := by
  obtain ⟨front, back, time, x, y, rfl, rfl, -⟩ := mergeMotion_some summed
  exact rel_append (alike_refl front) (.cons (.inr ⟨⟨x, y, rfl⟩, _, _, rfl⟩) (alike_refl back))

/-! ## What one push does -/

/--
Everything a push does to the entries and to the record of what is held: it
appends some entries, changes at most the amount of waiting motions, and its
record follows the entries it appended.
-/
structure Pushed (before : State F) (pos : Position) (event : CaptureEvent F)
    (after : State F) : Prop where
  extends_events : ∃ same appended, after.events = same ++ appended ∧
    Forall₂ Alike before.events same ∧
    after.held = appended.foldl track before.held ∧
    (∀ x ∈ before.held, x ∉ after.held →
      ∃ item ∈ appended, item.1 = x.1 ∧ kind item.2 = .release x.2) ∧
    ∀ item ∈ appended, ∀ h, kind item.2 = .press h → after.events = before.events ++ [(pos, event)]
  held_from : ∀ x ∈ after.held,
    (x ∈ before.held ∧ ¬ (x.1 = pos ∧ kind event = .release x.2)) ∨
      (x.1 = pos ∧ kind event = .press x.2)

variable (state : State F)

theorem keep_events (pos : Position) (event : CaptureEvent F) :
    (state.keep pos event).events = state.events ++ [(pos, event)] := rfl

theorem keep_held (pos : Position) (event : CaptureEvent F) :
    (state.keep pos event).held = state.held := rfl

theorem foldl_keep (held : List (Position × Held)) (state : State F) :
    (held.foldl (fun released x => released.keep x.1 x.2.release) state).events =
        state.events ++ held.map (fun x => (x.1, x.2.release)) ∧
      (held.foldl (fun released x => released.keep x.1 x.2.release) state).held = state.held := by
  induction held generalizing state with
  | nil => simp
  | cons first rest ih =>
    obtain ⟨events, kept⟩ := ih (state.keep first.1 first.2.release)
    simp [foldl_cons, events, kept, keep_events, keep_held]

theorem releaseHeld_events :
    state.releaseHeld.events = state.events ++ state.held.map fun x => (x.1, x.2.release) :=
  (foldl_keep state.held { state with held := [] }).1

theorem releaseHeld_held : state.releaseHeld.held = [] :=
  (foldl_keep state.held { state with held := [] }).2

theorem Pushed.unchanged (events : after.events = before.events) (held : after.held = before.held)
    (notHeld : ∀ h, kind event = .release h → (pos, h) ∉ before.held) :
    Pushed before pos event after where
  extends_events := ⟨before.events, [], by simp [events], alike_refl _, by simp [held],
    fun x member gone => absurd (held ▸ member) gone, by simp⟩
  held_from := by
    intro x member
    rw [held] at member
    refine .inl ⟨member, ?_⟩
    rintro ⟨samePos, released⟩
    exact notHeld _ released (samePos ▸ member)

theorem Pushed.kept (events : after.events = before.events ++ [(pos, event)])
    (held : after.held = track before.held (pos, event)) : Pushed before pos event after where
  extends_events := by
    refine ⟨before.events, [(pos, event)], events, alike_refl _, by simp [held], ?_,
      fun _ _ _ _ => events⟩
    intro x member gone
    refine ⟨(pos, event), mem_singleton_self _, ?_⟩
    rw [held] at gone
    cases sort : kind event with
    | release h =>
      simp only [track, sort, mem_filter, bne_iff_ne, member, true_and, ne_eq, not_not] at gone
      exact ⟨by rw [gone], by rw [gone]⟩
    | press h =>
      simp only [track, sort] at gone
      split at gone
      · exact absurd member gone
      · exact absurd (mem_append_left _ member) gone
    | motion dx dy | begin | other => simp only [track, sort] at gone; exact absurd member gone
  held_from := by
    intro x member
    rw [held] at member
    cases sort : kind event with
    | release h =>
      simp only [track, sort, mem_filter, bne_iff_ne] at member
      refine .inl ⟨member.1, ?_⟩
      rintro ⟨samePos, same⟩
      obtain rfl := Kind.release.inj same
      exact member.2 (Prod.ext samePos rfl)
    | press h =>
      simp only [track, sort] at member
      split at member
      · exact .inl ⟨member, by simp⟩
      · rcases mem_append.mp member with old | new
        · exact .inl ⟨old, by simp⟩
        · obtain rfl := mem_singleton.mp new
          exact .inr ⟨rfl, rfl⟩
    | motion dx dy | begin | other =>
      simp only [track, sort] at member; exact .inl ⟨member, by simp⟩

/-- A press or scroll that finds the queue full releases everything held. -/
theorem Pushed.overflowed
    (events : after.events = before.events ++ before.held.map fun x => (x.1, x.2.release))
    (held : after.held = []) : Pushed before pos event after where
  extends_events := by
    refine ⟨before.events, _, events, alike_refl _, ?_, ?_, ?_⟩
    · rw [held, track_releases before.held before.held fun x member => member]
    · intro x member _
      exact ⟨(x.1, x.2.release), mem_map.mpr ⟨x, member, rfl⟩, rfl, kind_release _⟩
    · intro item member h press
      obtain ⟨x, _, rfl⟩ := mem_map.mp member
      simp [kind_release] at press
  held_from := by
    intro x member
    simp [held] at member

theorem countRefused_events (event : CaptureEvent F) :
    (state.countRefused event).events = state.events := rfl

theorem countRefused_held (event : CaptureEvent F) :
    (state.countRefused event).held = state.held := rfl

theorem push_full (pos : Position) (event : CaptureEvent F) :
    Pushed state pos event (({ state.releaseHeld with refusing := some {} }).countRefused event) :=
  .overflowed (releaseHeld_events state) (releaseHeld_held state)

theorem push_pushed [Add F] (state : State F) (pos : Position) (event : CaptureEvent F)
    (listening : state.receiverGone = false) (nodup : state.held.Nodup) :
    Pushed state pos event (state.push pos event).1 := by
  unfold State.push
  rw [if_neg (by simp [listening])]
  cases sort : kind event with
  | motion dx dy =>
    dsimp only
    split
    · rename_i merged summed
      refine ⟨⟨merged.reverse, [], by simp, ?_, rfl, ?_, by simp⟩, ?_⟩
      · simpa using rel_reverse (mergeMotion_alike summed)
      · intro x member gone
        exact absurd member gone
      · intro x member
        exact .inl ⟨member, by simp [sort]⟩
    · exact .kept rfl (by simp [track, sort])
  | begin => exact .kept rfl (by simp [track, sort, keep_held])
  | release h =>
    dsimp only
    split
    · refine .kept rfl ?_
      simp only [keep_held, track, sort]
      exact nodup.erase_eq_filter _
    · rename_i absent
      split
      · refine .kept rfl ?_
        simp only [keep_held, track, sort]
        rw [filter_eq_self.mpr]
        intro x member
        simpa using fun same : x = (pos, h) => absent (same ▸ member)
      · refine .unchanged rfl rfl ?_
        intro other same
        obtain rfl := Kind.release.inj (sort.symm.trans same)
        exact absent
  | press h =>
    dsimp only
    split
    · exact .unchanged rfl rfl (by simp [sort])
    · split
      · exact push_full state pos event
      · split
        · rename_i present
          exact .kept rfl (by simp [track, sort, keep_held, present])
        · rename_i absent
          exact .kept rfl (by simp [track, sort, keep_held, absent])
  | other =>
    dsimp only
    split
    · exact .unchanged rfl rfl (by simp [sort])
    · split
      · exact push_full state pos event
      · exact .kept rfl (by simp [track, sort, keep_held])

end HopsFormal.Capture.EventQueue
