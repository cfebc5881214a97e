import Mathlib.Data.List.Infix

/-!
# Splitting a list at the last occurrence of a separator

The parts in front of and behind the last place where a separator stands in a
list.  A list built from two parts around a separator splits back into them when
the separator does not begin again inside itself and the part behind.
-/

namespace HopsFormal.Lib

open List

variable {α : Type} [DecidableEq α]

def splitLast (separator : List α) : List α → Option (List α × List α)
  | [] => if separator = [] then some ([], []) else none
  | first :: rest =>
    match splitLast separator rest with
    | some (before, after) => some (first :: before, after)
    | none =>
      if separator <+: first :: rest then
        some ([], (first :: rest).drop separator.length)
      else none

/-- The parts found stand around the separator. -/
theorem splitLast_some {separator list before after : List α}
    (found : splitLast separator list = some (before, after)) :
    list = before ++ separator ++ after := by
  induction list generalizing before with
  | nil =>
    unfold splitLast at found
    split at found
    · rename_i empty
      cases found
      simp [empty]
    · cases found
  | cons first rest ih =>
    unfold splitLast at found
    split at found
    · rename_i front back later
      cases found
      rw [ih later]
      rfl
    · split at found
      · rename_i present
        obtain ⟨tail, whole⟩ := present
        cases found
        rw [← whole, drop_left, nil_append]
      · cases found

theorem splitLast_eq_none {separator list : List α} :
    splitLast separator list = none ↔ ¬ separator <:+: list := by
  induction list with
  | nil =>
    unfold splitLast
    split
    · rename_i empty
      simp [empty]
    · rename_i nonempty
      simp [nonempty]
  | cons first rest ih =>
    unfold splitLast
    rw [infix_cons_iff, not_or, ← ih]
    split
    · rename_i later
      simp [later]
    · rename_i later
      simp only [later, and_true]
      split
      · rename_i present
        simp [present]
      · rename_i absent
        simp [absent]

theorem splitLast_append {first : α} {separator before after : List α}
    (last : ¬ first :: separator <:+: separator ++ after) :
    splitLast (first :: separator) (before ++ (first :: separator) ++ after) =
      some (before, after) := by
  induction before with
  | nil =>
    rw [nil_append, cons_append, splitLast, splitLast_eq_none.mpr last]
    rw [if_pos ⟨after, by simp⟩]
    simp
  | cons one rest ih =>
    rw [cons_append, cons_append, splitLast, ih]

omit [DecidableEq α] in
theorem not_infix_of_second {first second : α} {separator after : List α}
    (apart : first ≠ second) (absent : second ∉ separator ++ after) :
    ¬ first :: second :: separator <:+: (second :: separator) ++ after := by
  rintro ⟨front, back, whole⟩
  cases front with
  | nil => exact apart (List.cons.inj whole).1
  | cons one rest =>
    have same : rest ++ (first :: second :: separator) ++ back = separator ++ after :=
      (List.cons.inj whole).2
    apply absent
    rw [← same]
    simp

end HopsFormal.Lib
