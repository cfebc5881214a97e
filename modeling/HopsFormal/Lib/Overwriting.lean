import Mathlib.Data.List.Basic

/-!
# Writing into a file at an offset

What is written replaces what was at its place, and a gap before it is filled with a blank.  A list
that is written piece by piece, each behind the one before, is in the file as far as it is written.
-/

namespace HopsFormal.Lib

open List

variable {α : Type}

/-- A chunk written at an offset; what was never written before it is blank. -/
def overwrite (blank : α) (list : List α) (offset : Nat) (chunk : List α) : List α :=
  (list ++ List.replicate (offset - list.length) blank).take offset ++ chunk ++
    list.drop (offset + chunk.length)

/-- The next piece, behind what is written. -/
theorem overwrite_take (blank : α) (whole : List α) {written : Nat} (n : Nat)
    (within : written ≤ whole.length) :
    overwrite blank (whole.take written) written ((whole.drop written).take n) =
      whole.take (written + n) := by
  have short : (whole.take written).length = written := by
    rw [length_take]
    omega
  have rest : (whole.take written).drop (written + ((whole.drop written).take n).length) = [] :=
    drop_eq_nil_of_le (by omega)
  unfold overwrite
  rw [short, Nat.sub_self, replicate_zero, append_nil, rest, append_nil,
    take_take, Nat.min_self, take_add]

end HopsFormal.Lib
