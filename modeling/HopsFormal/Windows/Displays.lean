import HopsFormal.Capture.InputEvent

/-!
# The edge of the displays

A move off the displays enters a barrier, at a side where no display reaches as far as the point.
The cursor stops at the display it was on, which need not be the one at the outermost edge.
Rectangles are taken as the system gives them, so one may be empty or inverted.
-/

namespace HopsFormal.Windows

open List

open Capture (Position)

abbrev Point := Int32 × Int32

/-- A display; its right and its bottom edge lie just outside it. -/
structure Rect where
  left : Int32
  top : Int32
  right : Int32
  bottom : Int32
  deriving DecidableEq

def sides : List Position := [.left, .right, .top, .bottom]

def isWithinDpBoundary (point : Point) (display : Rect) (pos : Position) : Bool :=
  match pos with
  | .left => display.left ≤ point.1
  | .right => point.1 < display.right
  | .top => display.top ≤ point.2
  | .bottom => point.2 < display.bottom

def isWithinDpRegion (point : Point) (display : Rect) : Bool :=
  sides.all (isWithinDpBoundary point display)

def inBounds (point : Point) (displays : List Rect) (pos : Position) : Bool :=
  displays.any fun display => isWithinDpBoundary point display pos

def inDisplayRegion (point : Point) (displays : List Rect) : Bool :=
  displays.any (isWithinDpRegion point)

/-- The point was on a display, and no display reaches as far as it is now. -/
def movedAcrossBoundary (prevPos currPos : Point) (displays : List Rect) (pos : Position) : Bool :=
  inDisplayRegion prevPos displays && !inBounds currPos displays pos

def enteredBarrier (prevPos currPos : Point) (displays : List Rect) : Option Position :=
  sides.find? (movedAcrossBoundary prevPos currPos displays)

/-- The display a point is clamped to: the first that contains the point before it. -/
def clampDisplay (displayRegions : List Rect) (prevPoint : Point) : Option Rect :=
  displayRegions.find? (isWithinDpRegion prevPoint)

/-- Where the cursor is left by a move off the display that contains the point before it. -/
def clampToDisplayBounds (displayRegions : List Rect) (prevPoint point : Point) : Option Point :=
  (clampDisplay displayRegions prevPoint).map fun display =>
    (min (max point.1 display.left) (display.right - 1),
      min (max point.2 display.top) (display.bottom - 1))

/-! ## Inside and beyond -/

def Rect.Contains (display : Rect) (point : Point) : Prop :=
  (display.left ≤ point.1 ∧ point.1 < display.right) ∧
    (display.top ≤ point.2 ∧ point.2 < display.bottom)

/-- The outermost edge of all displays on a side. -/
def outermost (displays : List Rect) : Position → Option Int32
  | .left => (displays.map Rect.left).min?
  | .right => (displays.map Rect.right).max?
  | .top => (displays.map Rect.top).min?
  | .bottom => (displays.map Rect.bottom).max?

/-- The point is beyond the outermost edge on a side. -/
def beyond (displays : List Rect) (point : Point) (pos : Position) : Bool :=
  (outermost displays pos).any fun edge =>
    match pos with
    | .left => point.1 < edge
    | .right => edge ≤ point.1
    | .top => point.2 < edge
    | .bottom => edge ≤ point.2

theorem mem_sides (pos : Position) : pos ∈ sides := by
  cases pos <;> decide

variable {point prev curr : Point} {displays : List Rect} {x : Int32}

theorem isWithinDpRegion_iff {display : Rect} :
    isWithinDpRegion point display = true ↔ display.Contains point := by
  simp [isWithinDpRegion, sides, isWithinDpBoundary, Rect.Contains, and_assoc]

theorem inDisplayRegion_iff : inDisplayRegion point displays = true ↔
      ∃ display ∈ displays, display.Contains point := by
  simp only [inDisplayRegion, List.any_eq_true, isWithinDpRegion_iff]

/-- A point is before the least of a list exactly if it is before each of it. -/
theorem min?_any_iff {edges : List Int32} (some : edges ≠ []) :
    edges.min?.any (x < ·) = true ↔ ∀ edge ∈ edges, x < edge := by
  rcases least : edges.min? with - | edge
  · exact absurd (min?_eq_none_iff.mp least) some
  · obtain ⟨member, below⟩ := min?_eq_some_iff.mp least
    simp only [Option.any_some, decide_eq_true_eq]
    constructor
    · intro before other there
      exact Int32.lt_of_lt_of_le before (below other there)
    · exact fun before => before edge member

instance leftLeaningMax : Std.LawfulOrderLeftLeaningMax Int32 where
  max_eq_left x y le := by
    change (if x ≤ y then y else x) = x
    split
    case isTrue ge => exact Int32.le_antisymm le ge
    case isFalse => rfl
  max_eq_right x y gt := if_pos ((Int32.le_total x y).resolve_right gt)

theorem max?_any_iff {edges : List Int32} (some : edges ≠ []) :
    edges.max?.any (· ≤ x) = true ↔ ∀ edge ∈ edges, edge ≤ x := by
  rcases greatest : edges.max? with - | edge
  · exact absurd (max?_eq_none_iff.mp greatest) some
  · obtain ⟨member, above⟩ := max?_eq_some_iff.mp greatest
    simp only [Option.any_some, decide_eq_true_eq]
    constructor
    · intro behind other there
      exact Int32.le_trans (above other there) behind
    · exact fun behind => behind edge member

theorem beyond_iff (some : displays ≠ []) (pos : Position) :
    beyond displays point pos = true ↔ inBounds point displays pos = false := by
  have edges {edge : Rect → Int32} : displays.map edge ≠ [] := by
    simpa using some
  cases pos with
  | left | top => simp [beyond, outermost, inBounds, isWithinDpBoundary, min?_any_iff edges]
  | right | bottom => simp [beyond, outermost, inBounds, isWithinDpBoundary, max?_any_iff edges]

theorem movedAcrossBoundary_iff {prevPos currPos : Point} {pos : Position} :
    movedAcrossBoundary prevPos currPos displays pos = true ↔
      inDisplayRegion prevPos displays = true ∧ beyond displays currPos pos = true := by
  unfold movedAcrossBoundary
  rw [Bool.and_eq_true, Bool.not_eq_true']
  refine and_congr_right fun inside => ?_
  obtain ⟨display, there, -⟩ := inDisplayRegion_iff.mp inside
  exact (beyond_iff (ne_nil_of_mem there) pos).symm

/-! ## The display a point is clamped to -/

/-- One below an edge that something is below does not overflow. -/
theorem toInt_pred {edge : Int32} (below : x < edge) : (edge - 1).toInt = edge.toInt - 1 := by
  have least := Int32.le_toInt x
  have most := Int32.toInt_lt edge
  rw [Int32.lt_iff_toInt_lt] at below
  rw [Int32.toInt_sub]
  exact Int.bmod_eq_of_le (by simp; omega) (by simp; omega)

theorem le_pred_iff {y edge : Int32} (below : x < edge) : y ≤ edge - 1 ↔ y < edge := by
  rw [Int32.le_iff_toInt_le, toInt_pred below, Int32.lt_iff_toInt_lt]
  omega

/-- Between an edge and the last place before the other, and unchanged if it was. -/
theorem clamp_within {low high here there : Int32} (above : low ≤ here) (below : here < high) :
    (low ≤ min (max there low) (high - 1) ∧ min (max there low) (high - 1) < high) ∧
      (low ≤ there → there < high → min (max there low) (high - 1) = there) := by
  have room : low ≤ high - 1 := Int32.le_trans above ((le_pred_iff below).mpr below)
  refine ⟨⟨?_, ?_⟩, fun after before => ?_⟩
  · exact Std.le_min_iff.mpr ⟨(Std.max_le_iff.mp (Int32.le_refl _)).2, room⟩
  · exact (le_pred_iff below).mp (Std.le_min_iff.mp (Int32.le_refl _)).2
  · rw [Std.LawfulOrderLeftLeaningMax.max_eq_left there low after,
      Std.LawfulOrderLeftLeaningMin.min_eq_left there _ ((le_pred_iff below).mpr before)]

theorem clampDisplay_some {display : Rect} (found : clampDisplay displays prev = some display) :
    display ∈ displays ∧ display.Contains prev :=
  ⟨mem_of_find?_eq_some found, isWithinDpRegion_iff.mp (find?_some found)⟩

theorem isSome_clampToDisplayBounds : (clampToDisplayBounds displays prev curr).isSome = true ↔
      inDisplayRegion prev displays = true := by
  rw [clampToDisplayBounds, Option.isSome_map, clampDisplay, find?_isSome, inDisplayRegion,
    List.any_eq_true]

theorem clampToDisplayBounds_some {clamped : Point}
    (left : clampToDisplayBounds displays prev curr = some clamped) :
    ∃ display, clampDisplay displays prev = some display ∧
      display.Contains clamped ∧ (display.Contains curr → clamped = curr) := by
  obtain ⟨display, found, rfl⟩ := Option.map_eq_some_iff.mp left
  obtain ⟨-, across, down⟩ := clampDisplay_some found
  refine ⟨display, found, ?_, ?_⟩
  · exact ⟨(clamp_within across.1 across.2).1, (clamp_within down.1 down.2).1⟩
  · rintro ⟨acrossToo, downToo⟩
    exact Prod.ext ((clamp_within across.1 across.2).2 acrossToo.1 acrossToo.2)
      ((clamp_within down.1 down.2).2 downToo.1 downToo.2)

/-! ## Barriers -/

theorem enteredBarrier_some {pos : Position}
    (entered : enteredBarrier prev curr displays = some pos) :
    inDisplayRegion prev displays = true ∧ beyond displays curr pos = true :=
  movedAcrossBoundary_iff.mp (find?_some entered)

theorem enteredBarrier_none (inside : inDisplayRegion curr displays = true) :
    enteredBarrier prev curr displays = none := by
  refine find?_eq_none.mpr fun pos _ moved => ?_
  obtain ⟨display, there, within⟩ := inDisplayRegion_iff.mp inside
  have beyondIt := (movedAcrossBoundary_iff.mp moved).2
  rw [beyond_iff (ne_nil_of_mem there)] at beyondIt
  have reached : isWithinDpBoundary curr display pos = true :=
    List.all_eq_true.mp (isWithinDpRegion_iff.mpr within) pos (mem_sides pos)
  exact absurd (List.any_eq_true.mpr ⟨display, there, reached⟩) (by rw [← inBounds, beyondIt]; decide)

/--
A barrier is entered exactly by a move from a display to beyond an outermost edge, at such an
edge.  The cursor is left on a display that contains the point before the move, where the move
went if that is on it, without overflow, and by moving there it enters no barrier.
-/
theorem barrier_and_clamp (displays : List Rect) (prev curr : Point) :
    ((enteredBarrier prev curr displays).isSome = true ↔
      (∃ display ∈ displays, display.Contains prev) ∧ ∃ pos, beyond displays curr pos = true) ∧
    (∀ pos ∈ enteredBarrier prev curr displays, beyond displays curr pos = true) ∧
    ((clampToDisplayBounds displays prev curr).isSome = true ↔
      ∃ display ∈ displays, display.Contains prev) ∧
    (∀ clamped ∈ clampToDisplayBounds displays prev curr,
      (∃ display ∈ displays, display.Contains prev ∧ display.Contains clamped ∧
        (display.Contains curr → clamped = curr)) ∧
      enteredBarrier prev clamped displays = none) ∧
    ∀ display ∈ clampDisplay displays prev,
      (display.right - 1).toInt = display.right.toInt - 1 ∧
        (display.bottom - 1).toInt = display.bottom.toInt - 1 := by
  refine ⟨?_, fun pos entered => (enteredBarrier_some entered).2,
    isSome_clampToDisplayBounds.trans inDisplayRegion_iff, ?_, ?_⟩
  · rw [← inDisplayRegion_iff, enteredBarrier, find?_isSome]
    constructor
    · rintro ⟨pos, -, moved⟩
      obtain ⟨inside, past⟩ := movedAcrossBoundary_iff.mp moved
      exact ⟨inside, pos, past⟩
    · rintro ⟨inside, pos, past⟩
      exact ⟨pos, mem_sides pos, movedAcrossBoundary_iff.mpr ⟨inside, past⟩⟩
  · intro clamped left
    obtain ⟨display, found, within, same⟩ := clampToDisplayBounds_some left
    obtain ⟨there, here⟩ := clampDisplay_some found
    exact ⟨⟨display, there, here, within, same⟩,
      enteredBarrier_none (inDisplayRegion_iff.mpr ⟨display, there, within⟩)⟩
  · intro display found
    obtain ⟨-, across, down⟩ := clampDisplay_some found
    exact ⟨toInt_pred across.2, toInt_pred down.2⟩

end HopsFormal.Windows
