import HopsFormal.Emulation.Shared

/-!
# Strokes of keys

A press is passed on if its handle is live and does not hold the key, a release if the handle
holds it.  What is passed on is what the lists change by.
-/

namespace HopsFormal.Emulation

open Capture (Event Held Kind kind)
open Lib InputEmulation

variable {F E : Type} (answer : List (Call F) → Except E Unit) {emulation : InputEmulation F}

/-- A key going down or coming up. -/
def stroke (time key : UInt32) (down : Bool) : Event F :=
  .keyboard (.key time key (if down then 1 else 0))

theorem kind_stroke (time key : UInt32) (down : Bool) :
    kind (.input (stroke time key down) : Capture.CaptureEvent F) =
      if down then .press (.key key) else .release (.key key) := by
  cases down <;> rfl

/-- Whether the backend hears of a stroke. -/
def Passes (emulation : InputEmulation F) (handle : Handle) (key : UInt32) (down : Bool) : Prop :=
  handle ∈ emulation.handles ∧ (down = true ↔ ¬ Lists emulation handle (.key key))

theorem consume_stroke_calls (formed : Formed emulation) (handle : Handle) (time key : UInt32)
    (down : Bool) :
    (Passes emulation handle key down →
      (emulation.consume answer (stroke time key down) handle).2.calls =
        emulation.calls ++ [.consume (stroke time key down) handle]) ∧
    (¬ Passes emulation handle key down →
      (emulation.consume answer (stroke time key down) handle).2.calls = emulation.calls) := by
  have rows := formed.keys_rows handle
  unfold Passes Lists listing
  rw [← rows, ← AList.lookup_isSome]
  simp only [stroke, consume]
  rcases Option.eq_none_or_eq_some (emulation.pressedKeys.lookup handle) with
    found | ⟨pressed, found⟩
  · have updated : ∀ state, emulation.updatePressedKeys handle key state = (false, emulation) :=
      fun state => by simp only [updatePressedKeys, found]
    rw [updated, found]
    simp
  · have updated : ∀ state, (emulation.updatePressedKeys handle key state).1 =
        if state = 0 then decide (key ∈ pressed) else decide (key ∉ pressed) := fun state => by
      simp only [updatePressedKeys, found]
      split <;> rfl
    have kept : ∀ state, (emulation.updatePressedKeys handle key state).2.calls =
        emulation.calls := fun state => by
      simp only [updatePressedKeys, found]
      split <;> rfl
    rw [found]
    by_cases member : key ∈ pressed <;> cases down <;>
      simp [updated, kept, member, InputEmulation.pass, call]

theorem consume_stroke (kept : Kept emulation) (handle : Handle) (time key : UInt32)
    (down : Bool) :
    (Passes emulation handle key down → ∀ other held,
      (Lists (emulation.consume answer (stroke time key down) handle).2 other held ↔
        if down then Lists emulation other held ∨ other = handle ∧ held = .key key
        else Lists emulation other held ∧ ¬ (other = handle ∧ held = .key key))) ∧
    (¬ Passes emulation handle key down → ∀ other held,
      (Lists (emulation.consume answer (stroke time key down) handle).2 other held ↔
        Lists emulation other held)) := by
  obtain ⟨passed, dropped⟩ := consume_stroke_calls answer kept.formed handle time key down
  have settled := (consume_settled answer kept.formed handle (stroke time key down)).consumed
  have sort := kind_stroke (F := F) time key down
  have grows : ∀ {through : Handle}, (emulation.consume answer (stroke time key down) handle).2.calls =
      emulation.calls ++ [.consume (stroke time key down) through] →
        Passes emulation handle key down ∧ through = handle := by
    intro through calls
    by_cases passes : Passes emulation handle key down
    · have same := List.append_cancel_left (calls.symm.trans (passed passes))
      cases same
      exact ⟨passes, rfl⟩
    · simpa using calls.symm.trans (dropped passes)
  cases settled with
  | pressed held press live fresh lists calls =>
    refine ⟨fun _ other what => ?_, fun blocked => absurd (grows calls).1 blocked⟩
    rw [sort] at press
    cases down with
    | false => cases press
    | true =>
      cases press
      exact lists other what
  | loose held press absent lists calls => exact absurd (grows calls).1.1 absent
  | released held release holder through lists_it same lists calls =>
    obtain ⟨passes, rfl⟩ := grows calls
    refine ⟨fun _ other what => ?_, fun blocked => absurd passes blocked⟩
    rw [sort] at release
    cases down with
    | true => cases release
    | false =>
      cases release
      cases Option.some.inj same
      rw [lists other what, if_neg Bool.false_ne_true]
      refine and_congr_right fun _ => not_congr ⟨?_, ?_⟩
      · rintro ⟨rfl, place⟩
        exact ⟨Option.some.inj place, rfl⟩
      · rintro ⟨rfl, rfl⟩
        exact ⟨rfl, rfl⟩
  | passed no_press no_release lists calls =>
    rw [sort] at no_press no_release
    cases down with
    | true => exact absurd rfl (no_press (.key key))
    | false => exact absurd rfl (no_release (.key key))
  | dropped lists calls =>
    refine ⟨fun passes => ?_, fun _ => lists⟩
    simpa using (passed passes).symm.trans calls

end HopsFormal.Emulation
