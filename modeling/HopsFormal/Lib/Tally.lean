import Mathlib.Algebra.Group.Basic
import Mathlib.Data.List.Infix

/-!
# Gains between marks

A list of items, each of which is a gain or a mark.  The tally is what was gained before each
mark since the one before it, and what was gained since the last.  Some marks do not count what
was gained before them.  Gains may be put together, or change places, between two marks.
-/

namespace HopsFormal.Lib

open List

/-- Each mark with what was gained before it, and what was gained since the last. -/
structure Tally (ι M : Type) where
  closed : List (ι × M)
  since : M

namespace Tally

variable {ι M : Type}

/-- Two tallies agree on what is closed, and where a count is open on what was gained since. -/
def Agree (isOpen : Prop) (tally other : Tally ι M) : Prop :=
  tally.closed = other.closed ∧ (isOpen → tally.since = other.since)

theorem Agree.refl (isOpen : Prop) (tally : Tally ι M) : Agree isOpen tally tally :=
  ⟨rfl, fun _ => rfl⟩

theorem Agree.weaken {isOpen next : Prop} {tally other : Tally ι M}
    (agree : Agree isOpen tally other) (less : next → isOpen) : Agree next tally other :=
  ⟨agree.1, fun now => agree.2 (less now)⟩

variable [AddCommMonoid M] (gain : ι → Option M) (counts : ι → Bool)

def nothing : Tally ι M := ⟨[], 0⟩

def add (tally : Tally ι M) (item : ι) : Tally ι M :=
  match gain item with
  | some gained => { tally with since := tally.since + gained }
  | none => ⟨tally.closed ++ [(item, if counts item then tally.since else 0)], 0⟩

/-- Tally a list after what was tallied before. -/
def adds (tally : Tally ι M) (items : List ι) : Tally ι M := items.foldl (add gain counts) tally

variable {gain counts} {tally other : Tally ι M} {item : ι} {items more : List ι}

theorem adds_append : tally.adds gain counts (items ++ more) =
    (tally.adds gain counts items).adds gain counts more := foldl_append

theorem add_gain {gained : M} (gains : gain item = some gained) :
    tally.add gain counts item = { tally with since := tally.since + gained } := by
  rw [add, gains]

theorem add_mark (marks : gain item = none) : tally.add gain counts item =
    ⟨tally.closed ++ [(item, if counts item then tally.since else 0)], 0⟩ := by
  rw [add, marks]

theorem closed_prefix (tally : Tally ι M) (items : List ι) :
    tally.closed <+: (tally.adds gain counts items).closed := by
  induction items generalizing tally with
  | nil => exact prefix_rfl
  | cons item items ih =>
    refine IsPrefix.trans ?_ (ih (tally.add gain counts item))
    unfold add
    split
    · exact prefix_rfl
    · exact prefix_append _ _

/-- The same is gained in both while a count is open. -/
theorem Agree.add_gain {gained : M} {second : ι} (agree : Agree True tally other)
    (one : gain item = some gained) (two : gain second = some gained) :
    Agree True (tally.add gain counts item) (other.add gain counts second) := by
  rw [Tally.add_gain one, Tally.add_gain two]
  exact ⟨agree.1, fun _ => congrArg (· + gained) (agree.2 trivial)⟩

theorem Agree.add_mark {isOpen : Prop} (agree : Agree isOpen tally other)
    (marks : gain item = none) (counted : counts item = true → isOpen) :
    Agree True (tally.add gain counts item) (other.add gain counts item) := by
  rw [Tally.add_mark marks, Tally.add_mark marks, agree.1]
  rcases tells : counts item with - | -
  · exact .refl True _
  · rw [agree.2 (counted tells)]
    exact .refl True _

/-! ## Lists that tally alike -/

variable (gain counts) in
/-- Two lists tally alike, whatever was tallied before. -/
def Alike (items more : List ι) : Prop :=
  ∀ tally : Tally ι M, tally.adds gain counts items = tally.adds gain counts more

theorem Alike.of_eq (same : items = more) : Alike gain counts items more :=
  fun tally => congrArg (tally.adds gain counts) same

theorem Alike.append {others later : List ι} (first : Alike gain counts items more)
    (second : Alike gain counts others later) :
    Alike gain counts (items ++ others) (more ++ later) := by
  intro tally
  rw [adds_append, adds_append, first tally, second]

variable (counts) in
theorem adds_gains (gains : ∀ item ∈ items, (gain item).isSome = true) :
    ∃ gained, ∀ tally : Tally ι M,
      tally.adds gain counts items = { tally with since := tally.since + gained } := by
  induction items with
  | nil => exact ⟨0, fun tally => by rw [add_zero]; rfl⟩
  | cons item items ih =>
    obtain ⟨gained, rest⟩ := ih fun other later => gains other (.tail _ later)
    obtain ⟨first, isGain⟩ := Option.isSome_iff_exists.mp (gains item (.head _))
    refine ⟨first + gained, fun tally => ?_⟩
    change (tally.add gain counts item).adds gain counts items = _
    rw [rest, Tally.add_gain isGain, add_assoc]

/-- Gains may change places. -/
theorem alike_swap (gains : ∀ item ∈ items, (gain item).isSome = true)
    (others : ∀ item ∈ more, (gain item).isSome = true) :
    Alike gain counts (items ++ more) (more ++ items) := by
  obtain ⟨first, whole⟩ := adds_gains counts gains
  obtain ⟨second, rest⟩ := adds_gains counts others
  intro tally
  rw [adds_append, adds_append, whole, rest, rest, whole]
  congr 1
  exact add_right_comm _ _ _

/-- Two gains may be put together. -/
theorem alike_merge {second both : ι} {first last : M} (one : gain item = some first)
    (two : gain second = some last) (sum : gain both = some (first + last)) :
    Alike gain counts [item, second] [both] := by
  intro tally
  change (tally.add gain counts item).add gain counts second = tally.add gain counts both
  rw [Tally.add_gain one, Tally.add_gain two, Tally.add_gain sum, add_assoc]

/-- What was gained before a mark that does not count is not told. -/
theorem alike_forget {mark : ι} {gained : M} (gains : gain item = some gained)
    (marks : gain mark = none) (uncounted : counts mark = false) :
    Alike gain counts [item, mark] [mark] := by
  intro tally
  change (tally.add gain counts item).add gain counts mark = tally.add gain counts mark
  rw [Tally.add_gain gains, Tally.add_mark marks, Tally.add_mark marks, uncounted]
  rfl

theorem closed_add_gain {gained : M} (gains : gain item = some gained) :
    (tally.add gain counts item).closed = tally.closed := by
  rw [Tally.add_gain gains]

end Tally

end HopsFormal.Lib
