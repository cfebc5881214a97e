import HopsFormal.Capture.InputEvent
import Mathlib.Algebra.Order.Field.Rat
import Mathlib.Data.List.NatAntidiagonal
import Mathlib.Tactic.FieldSimp
import Mathlib.Tactic.Linarith
import Mathlib.Tactic.NormNum
import Mathlib.Tactic.Positivity

/-!
# The spots on the arrange canvas

The devices reached across an edge are drawn at spots along that side of the canvas, this machine
in the middle.  The two diagonals cut the canvas into one zone for each edge, and however many
spots a side has, they lie in its own zone and clear of the other sides.
-/

namespace HopsFormal.Canvas

open List

open Capture (Position)

def canvasW : ℚ := 480

def canvasH : ℚ := 280

def boxW : ℚ := 96

def boxH : ℚ := 64

/-- The top left corner of this machine's box. -/
def home : ℚ × ℚ := ((canvasW - boxW) / 2, (canvasH - boxH) / 2)

/-- How far a box is from the border of the canvas on its side. -/
def margin : ℚ := 16

/-- How far the corner of a box can be from this machine's, across and down. -/
def reach : ℚ × ℚ := (home.1, home.2)

/-- The space between two boxes that fit. -/
def gap : ℚ := 8

/-- The left and right sides take the whole height, corners included. -/
def spanLeftRight : ℚ × ℚ := (margin, canvasH - boxH - margin)

/-- The top and the bottom take what is between the columns of the left and the right. -/
def spanTopBottom : ℚ × ℚ := (margin + boxW + gap, canvasW - margin - boxW - gap - boxW)

/-- The edge of the zone a box is dropped in; a coordinate that is not finite is `none`. -/
def dropEdge (x y : Option ℚ) : Option Position :=
  match x, y with
  | some x, some y =>
    let (dx, dy) := (x - home.1, y - home.2)
    if dx = 0 ∧ dy = 0 then none
    else if |dy| * reach.1 ≤ |dx| * reach.2 then some (if dx < 0 then .left else .right)
    else some (if dy < 0 then .top else .bottom)
  | _, _ => none

/-- The range of a side, how far apart its boxes are drawn while they fit, and its middle. -/
structure Side where
  span : ℚ × ℚ
  apart : ℚ
  centre : ℚ

def side : Position → Side
  | .left | .right => ⟨spanLeftRight, boxH + gap, home.2⟩
  | .top | .bottom => ⟨spanTopBottom, boxW + gap, home.1⟩

/-- The slots of a side, nearest the middle first. -/
def slots (n : Nat) : List Nat :=
  let mid : ℚ := ((n - 1 : Nat) : ℚ) / 2
  (List.range n).mergeSort fun a b =>
    |(a : ℚ) - mid| < |(b : ℚ) - mid| ∨ |(a : ℚ) - mid| = |(b : ℚ) - mid| ∧ a ≤ b

/-- How far apart the slots of a side are. -/
def step (pos : Position) (n : Nat) : ℚ :=
  if n = 1 then 0
  else min (side pos).apart (((side pos).span.2 - (side pos).span.1) / ((n - 1 : Nat) : ℚ))

/-- Where the canvas draws one of the boxes on a side, the first in the middle. -/
def edgeSpot (pos : Position) (k n : Nat) : ℚ × ℚ :=
  let n := max n 1
  let mid : ℚ := ((n - 1 : Nat) : ℚ) / 2
  let slot := (slots n).getD (min k (n - 1)) 0
  let along := (side pos).centre + (slot - mid) * step pos n
  match pos with
  | .left => (margin, along)
  | .right => (canvasW - boxW - margin, along)
  | .top => (along, margin)
  | .bottom => (along, canvasH - boxH - margin)

/-! ## The slots of a side -/

theorem slots_perm (n : Nat) : (slots n).Perm (List.range n) :=
  mergeSort_perm _ _

theorem length_slots (n : Nat) : (slots n).length = n := by
  rw [(slots_perm n).length_eq, length_range]

def slot (k n : Nat) : Nat :=
  (slots n).getD k 0

variable {k n j : Nat}

theorem slot_eq (within : k < (slots n).length) : slot k n = (slots n)[k] :=
  (getElem_eq_getD 0).symm

theorem slot_lt (within : k < n) : slot k n < n := by
  rw [← length_slots n] at within
  rw [slot_eq within]
  exact mem_range.mp ((slots_perm n).mem_iff.mp (getElem_mem within))

theorem slot_injective (first : j < n) (second : k < n) (same : slot j n = slot k n) : j = k := by
  rw [← length_slots n] at first second
  rw [slot_eq first, slot_eq second] at same
  exact (((slots_perm n).nodup_iff.mpr nodup_range).getElem_inj_iff).mp same

/-! ## Along a side -/

/-- How far along its side a box is from the middle. -/
def off (pos : Position) (k n : Nat) : ℚ :=
  ((slot k n : ℚ) - ((n - 1 : Nat) : ℚ) / 2) * step pos n

/-- The size of the range of a side. -/
def room (pos : Position) : ℚ :=
  (side pos).span.2 - (side pos).span.1

variable (pos : Position)

theorem room_pos : 0 < room pos := by
  cases pos <;>
    norm_num [room, side, spanLeftRight, spanTopBottom, canvasH, canvasW, boxH, boxW, margin, gap]

theorem step_pos (several : 1 < n) : 0 < step pos n := by
  have apart : 0 < (side pos).apart := by
    cases pos <;> norm_num [side, boxH, boxW, gap]
  have slots : (0 : ℚ) < ((n - 1 : Nat) : ℚ) := by
    exact_mod_cast Nat.sub_pos_of_lt several
  unfold step
  rw [if_neg (by omega)]
  exact lt_min apart (div_pos (room_pos pos) slots)

/-- However many boxes share a side, none is drawn outside its range. -/
theorem abs_off_le (within : k < n) : |off pos k n| ≤ room pos / 2 := by
  have roomy := room_pos pos
  rcases Nat.lt_or_ge 1 n with several | alone
  · have last : (0 : ℚ) < ((n - 1 : Nat) : ℚ) := by
      exact_mod_cast Nat.sub_pos_of_lt several
    have inside : (slot k n : ℚ) ≤ ((n - 1 : Nat) : ℚ) := by
      exact_mod_cast Nat.le_sub_one_of_lt (slot_lt within)
    have start : (0 : ℚ) ≤ slot k n := Nat.cast_nonneg _
    have near : |(slot k n : ℚ) - ((n - 1 : Nat) : ℚ) / 2| ≤ ((n - 1 : Nat) : ℚ) / 2 := by
      rw [abs_le]
      constructor <;> linarith
    have small : step pos n ≤ room pos / ((n - 1 : Nat) : ℚ) := by
      unfold step
      rw [if_neg (by omega)]
      exact min_le_right _ _
    calc |off pos k n|
        = |(slot k n : ℚ) - ((n - 1 : Nat) : ℚ) / 2| * step pos n := by
          rw [off, abs_mul, abs_of_pos (step_pos pos several)]
      _ ≤ ((n - 1 : Nat) : ℚ) / 2 * (room pos / ((n - 1 : Nat) : ℚ)) :=
          mul_le_mul near small (step_pos pos several).le (by positivity)
      _ = room pos / 2 := by
          field_simp
  · have one : n = 1 := by omega
    subst one
    have still : off pos k 1 = 0 := by
      rw [off, step]
      simp
    rw [still, abs_zero]
    positivity

theorem off_injective (first : j < n) (second : k < n) (same : off pos j n = off pos k n) :
    j = k := by
  by_contra apart
  have positive := step_pos pos (show 1 < n by omega)
  have slots := mul_right_cancel₀ positive.ne' same
  have equal : (slot j n : ℚ) = slot k n := by linarith
  exact apart (slot_injective first second (by exact_mod_cast equal))

theorem edgeSpot_eq (within : k < n) : edgeSpot pos k n =
    match pos with
    | .left => (16, 108 + off pos k n)
    | .right => (368, 108 + off pos k n)
    | .top => (192 + off pos k n, 16)
    | .bottom => (192 + off pos k n, 200) := by
  have some : max n 1 = n := by omega
  have first : min k (n - 1) = k := by omega
  unfold edgeSpot
  simp only [some, first]
  rw [show (slots n).getD k 0 = slot k n from rfl]
  cases pos <;> norm_num [off, side, home, canvasW, canvasH, boxW, boxH, margin]

/-! ## What the spots are good for -/

def OnCanvas (spot : ℚ × ℚ) : Prop :=
  0 ≤ spot.1 ∧ spot.1 + boxW ≤ canvasW ∧ 0 ≤ spot.2 ∧ spot.2 + boxH ≤ canvasH

def Overlap (first second : ℚ × ℚ) : Prop :=
  |first.1 - second.1| < boxW ∧ |first.2 - second.2| < boxH

/-- The range of the corners of the boxes on a side. -/
theorem off_within (within : k < n) : match pos with
    | .left | .right => -92 ≤ off pos k n ∧ off pos k n ≤ 92
    | .top | .bottom => -72 ≤ off pos k n ∧ off pos k n ≤ 72 := by
  have bound := abs_le.mp (abs_off_le pos within)
  cases pos <;>
    norm_num [room, side, spanLeftRight, spanTopBottom, canvasH, canvasW, boxH, boxW, margin,
      gap] at bound <;>
    exact bound

theorem edgeSpot_onCanvas (within : k < n) : OnCanvas (edgeSpot pos k n) := by
  have bound := off_within pos within
  rw [edgeSpot_eq pos within]
  unfold OnCanvas canvasW canvasH boxW boxH
  cases pos <;>
    · obtain ⟨low, high⟩ := bound
      refine ⟨?_, ?_, ?_, ?_⟩ <;> dsimp only <;> linarith

theorem dropEdge_edgeSpot (within : k < n) :
    dropEdge (some (edgeSpot pos k n).1) (some (edgeSpot pos k n).2) = some pos := by
  have bound := off_within pos within
  rw [edgeSpot_eq pos within]
  have places : reach = (192, 108) ∧ home = (192, 108) := by
    constructor <;> norm_num [reach, home, canvasW, canvasH, boxW, boxH]
  unfold dropEdge
  rw [places.1, places.2]
  cases pos with
  | left =>
    have near : |off .left k n| ≤ 92 := abs_le.mpr bound
    have apart : |off .left k n| * 192 ≤ 176 * 108 := by linarith
    norm_num at apart ⊢
    exact fun beyond => absurd beyond (not_lt.mpr apart)
  | right =>
    have near : |off .right k n| ≤ 92 := abs_le.mpr bound
    have apart : |off .right k n| * 192 ≤ 176 * 108 := by linarith
    norm_num at apart ⊢
    exact fun beyond => absurd beyond (not_lt.mpr apart)
  | top =>
    have near : |off .top k n| ≤ 72 := abs_le.mpr bound
    have apart : |off .top k n| * 108 < 92 * 192 := by linarith
    norm_num at apart ⊢
    exact fun beyond => absurd beyond (not_le.mpr apart)
  | bottom =>
    have near : |off .bottom k n| ≤ 72 := abs_le.mpr bound
    have apart : |off .bottom k n| * 108 < 92 * 192 := by linarith
    norm_num at apart ⊢
    exact fun beyond => absurd beyond (not_le.mpr apart)

theorem edgeSpot_injective (first : j < n) (second : k < n)
    (same : edgeSpot pos j n = edgeSpot pos k n) : j = k := by
  rw [edgeSpot_eq pos first, edgeSpot_eq pos second] at same
  refine off_injective pos first second ?_
  cases pos with
  | left | right => exact add_left_cancel (Prod.mk.inj same).2
  | top | bottom => exact add_left_cancel (Prod.mk.inj same).1

theorem edgeSpot_apart {pos other : Position} (two : pos ≠ other) {m : Nat} (within : k < n)
    (withinToo : j < m) : ¬Overlap (edgeSpot pos k n) (edgeSpot other j m) := by
  have bound := off_within pos within
  have boundToo := off_within other withinToo
  rw [edgeSpot_eq pos within, edgeSpot_eq other withinToo]
  rintro ⟨across, down⟩
  rw [abs_lt, boxW] at across
  rw [abs_lt, boxH] at down
  cases pos <;> cases other <;> first
    | exact two rfl
    | · dsimp only at bound boundToo across down
        linarith

end HopsFormal.Canvas
