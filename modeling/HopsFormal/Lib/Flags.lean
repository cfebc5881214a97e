import Mathlib.Data.Nat.Bitwise

/-!
# Sets of flags

A set of flags is a word with one bit for each.  Adding, removing and toggling change the bits
of a mask, and two words compare by the highest bit they differ in.
-/

namespace HopsFormal.Lib

abbrev Flags (w : Nat) := BitVec w

namespace Flags

variable {w : Nat}

def flag (i : Nat) : Flags w := 1#w <<< i

def insert (flags mask : Flags w) : Flags w := flags ||| mask

def remove (flags mask : Flags w) : Flags w := flags &&& ~~~mask

def toggle (flags mask : Flags w) : Flags w := flags ^^^ mask

@[simp]
theorem getLsbD_flag (i j : Nat) : (flag i : Flags w).getLsbD j = decide (j < w ∧ i = j) := by
  rw [flag, ← BitVec.twoPow_eq, BitVec.getLsbD_twoPow]
  by_cases inside : i < w
  · by_cases same : i = j
    · subst same
      simp [inside]
    · simp [same]
  · by_cases same : i = j
    · subst same
      simp [inside]
    · simp [same]

@[simp]
theorem getLsbD_insert (flags mask : Flags w) (i : Nat) :
    (flags.insert mask).getLsbD i = (flags.getLsbD i || mask.getLsbD i) := by
  rw [insert, BitVec.getLsbD_or]

@[simp]
theorem getLsbD_remove (flags mask : Flags w) (i : Nat) :
    (flags.remove mask).getLsbD i = (flags.getLsbD i && !mask.getLsbD i) := by
  rw [remove, BitVec.getLsbD_and, BitVec.getLsbD_not]
  by_cases inside : i < w
  · simp [inside]
  · simp [BitVec.getLsbD_of_ge flags i (Nat.not_lt.mp inside)]

@[simp]
theorem getLsbD_toggle (flags mask : Flags w) (i : Nat) :
    (flags.toggle mask).getLsbD i = (flags.getLsbD i ^^ mask.getLsbD i) := by
  rw [toggle, BitVec.getLsbD_xor]

theorem and_flag_eq {flags : Flags w} {i : Nat} (inside : i < w) :
    flags &&& flag i = flag i ↔ flags.getLsbD i = true := by
  rw [flag, ← BitVec.twoPow_eq, BitVec.and_twoPow]
  split_ifs with set
  · exact iff_of_true rfl set
  · refine iff_of_false (fun none => ?_) set
    have bit := congrArg (BitVec.getLsbD · i) none
    simp [inside] at bit

/-- One word is below another exactly if, at the highest bit they differ in, the other has it. -/
theorem lt_iff {flags other : Flags w} :
    flags < other ↔ ∃ i, flags.getLsbD i = false ∧ other.getLsbD i = true ∧
      ∀ j, i < j → flags.getLsbD j = other.getLsbD j := by
  have below : ∀ {low high : Flags w}, (∃ i, low.getLsbD i = false ∧ high.getLsbD i = true ∧
      ∀ j, i < j → low.getLsbD j = high.getLsbD j) → low < high := by
    rintro low high ⟨i, unset, set, above⟩
    exact Nat.lt_of_testBit i unset set above
  refine ⟨fun less => ?_, below⟩
  by_contra nowhere
  -- otherwise the two agree on every bit from some width down to none
  have agree : ∀ n, ∀ j, w - n ≤ j → flags.getLsbD j = other.getLsbD j := by
    intro n
    induction n with
    | zero =>
      intro j out
      rw [BitVec.getLsbD_of_ge _ _ out, BitVec.getLsbD_of_ge _ _ out]
    | succ n ih =>
      intro j from_
      by_cases later : w - n ≤ j
      · exact ih j later
      · have above : ∀ k, j < k → flags.getLsbD k = other.getLsbD k := fun k high =>
          ih k (by omega)
        cases here : flags.getLsbD j with
        | true =>
          cases there : other.getLsbD j with
          | true => rfl
          | false =>
            have more := below ⟨j, there, here, fun k high => (above k high).symm⟩
            exact absurd less (Nat.lt_asymm more)
        | false =>
          cases there : other.getLsbD j with
          | true => exact absurd ⟨j, here, there, above⟩ nowhere
          | false => rfl
  have same : flags = other := BitVec.eq_of_getLsbD_eq fun j _ => agree w j (by omega)
  exact absurd less (same ▸ Nat.lt_irrefl _)

end Flags

end HopsFormal.Lib
