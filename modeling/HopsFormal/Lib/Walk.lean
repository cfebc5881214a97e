import Mathlib.Data.List.Perm.Basic

/-!
# The order in which a hash map is walked

A hash map gives its keys in some order, each once.  What is computed from a walk
may depend on that order, so the order is a parameter of the computation.
-/

namespace HopsFormal.Lib

structure Walk (κ : Type) where
  keys : List κ → List κ
  perm : ∀ list, (keys list).Perm list

namespace Walk

variable {κ : Type}

/-- Walked in the order the keys are kept in. -/
def asFiled : Walk κ := ⟨id, List.Perm.refl⟩

/-- Walked with one key before the others. -/
def from_ [DecidableEq κ] (first : κ) : Walk κ where
  keys list := if first ∈ list then first :: list.erase first else list
  perm list := by
    split
    · next member => exact (List.perm_cons_erase member).symm
    · exact List.Perm.refl _

@[simp]
theorem mem_keys (walk : Walk κ) {list : List κ} {key : κ} :
    key ∈ walk.keys list ↔ key ∈ list := (walk.perm list).mem_iff

end Walk

end HopsFormal.Lib
