import HopsFormal.Libei.Barriers
import Mathlib

/-!
# The barrier an activation is for

A compositor need not name the barrier that was crossed.  It is then taken to be the one nearest
the cursor, by the distance to the line through the barrier in whole pixels.  That line goes on
past the ends of the barrier, so that what decides is the first barrier in whose line the cursor
is.
-/

namespace HopsFormal.Libei

open Capture (Position)
open List Lib

/-- A place of the cursor; the single-precision numbers it is told in are taken as exact. -/
abbrev Cursor := ℚ × ℚ

/-- What a compositor says of the barrier crossed. -/
inductive ActivatedBarrier where
  | barrier (id : BarrierId)
  | unknownBarrier
  deriving DecidableEq

inductive CaptureError where
  | unattributed (why : String)
  deriving DecidableEq

/-- The length of a barrier is a whole number, of which the root is exact. -/
def distanceToLine (line : (ℚ × ℚ) × (ℚ × ℚ)) (p : ℚ × ℚ) : ℚ :=
  let ((x1, y1), (x2, y2)) := line
  let (x0, y0) := p
  let doubleTriangleArea := |(y2 - y1) * x0 - (x2 - x1) * y0 + x2 * y1 - y2 * x1|
  let lineLength := Rat.sqrt ((y2 - y1) * (y2 - y1) + (x2 - x1) * (x2 - x1))
  doubleTriangleArea / lineLength

/-- `as i32` drops the fraction and stays in range. -/
def asI32 (x : ℚ) : Int :=
  max (-2 ^ 31) (min (2 ^ 31 - 1) (if 0 ≤ x then ⌊x⌋ else ⌈x⌉))

/-- How far a barrier's line is from the cursor, in whole pixels. -/
def pixelsAway (cursor : Cursor) (b : ICBarrier) : Int :=
  let ⟨x1, y1, x2, y2⟩ := b.position
  asI32 (distanceToLine ((x1, y1), (x2, y2)) cursor)

/-- The barrier nearest the cursor, the first of several. -/
def findCorrespondingClient (barriers : List ICBarrier) (cursor : Cursor) : Option BarrierId :=
  (@List.argmin _ _ instLatticeInt.toSemilatticeInf.toPreorder _ (pixelsAway cursor) barriers).map
    ICBarrier.barrierId

def clientForActivation (barrier : Option ActivatedBarrier) (cursor : Option Cursor)
    (barriers : List ICBarrier) (posForBarrierId : Table BarrierId Position) :
    Except CaptureError (BarrierId × Position) := do
  let barrierId ←
    match barrier with
    | some (.barrier id) => pure id
    | some .unknownBarrier | none =>
      match cursor with
      | none => throw (.unattributed "reported neither the barrier crossed nor the cursor position")
      | some cursor =>
        match findCorrespondingClient barriers cursor with
        | some id => pure id
        | none => throw (.unattributed "no barrier was set to match the cursor to")
  match posForBarrierId.lookup barrierId with
  | some pos => pure (barrierId, pos)
  | none => throw (.unattributed s!"named barrier {barrierId.val}, which hops did not set")

/-! ## On a barrier and near its line -/

/-- The cursor is on the barrier. -/
def Segment.Contains (segment : Segment) (cursor : Cursor) : Prop :=
  ((segment.x1 : ℚ) ≤ cursor.1 ∧ cursor.1 ≤ segment.x2) ∧
    ((segment.y1 : ℚ) ≤ cursor.2 ∧ cursor.2 ≤ segment.y2)

/-- The cursor is less than a pixel from the line along an edge. -/
def Near (pos : Position) (segment : Segment) (cursor : Cursor) : Prop :=
  match pos with
  | .left | .right => |cursor.1 - segment.x1| < 1
  | .top | .bottom => |cursor.2 - segment.y1| < 1

instance (segment : Segment) (cursor : Cursor) : Decidable (segment.Contains cursor) :=
  inferInstanceAs (Decidable (_ ∧ _))

instance (pos : Position) (segment : Segment) (cursor : Cursor) :
    Decidable (Near pos segment cursor) :=
  match pos with
  | .left | .right => inferInstanceAs (Decidable (|cursor.1 - segment.x1| < 1))
  | .top | .bottom => inferInstanceAs (Decidable (|cursor.2 - segment.y1| < 1))

/-- A zone at least two pixels wide and high. -/
def Region.Roomy (r : Region) : Prop := 2 ≤ r.width ∧ 2 ≤ r.height

instance (r : Region) : Decidable r.Roomy := inferInstanceAs (Decidable (_ ∧ _))

variable {x : ℚ} {r : Region} {pos : Position} {cursor : Cursor}

theorem distance_vertical {y1 y2 : ℚ} (long : y1 < y2) (p : ℚ × ℚ) :
    distanceToLine ((x, y1), (x, y2)) p = |p.1 - x| := by
  have length : 0 < y2 - y1 := sub_pos.mpr long
  unfold distanceToLine
  dsimp only
  rw [sub_self, zero_mul, sub_zero, zero_mul, add_zero, Rat.sqrt_eq, abs_of_pos length]
  have area : (y2 - y1) * p.1 + x * y1 - y2 * x = (y2 - y1) * (p.1 - x) := by ring
  rw [area, abs_mul, abs_of_pos length, mul_div_cancel_left₀ _ length.ne']

theorem distance_horizontal {x1 x2 y : ℚ} (long : x1 < x2) (p : ℚ × ℚ) :
    distanceToLine ((x1, y), (x2, y)) p = |p.2 - y| := by
  have length : 0 < x2 - x1 := sub_pos.mpr long
  unfold distanceToLine
  dsimp only
  rw [sub_self, zero_mul, zero_mul, zero_sub, zero_add, Rat.sqrt_eq, abs_of_pos length]
  have area : -((x2 - x1) * p.2) + x2 * y - y * x1 = -((x2 - x1) * (p.2 - y)) := by ring
  rw [area, abs_neg, abs_mul, abs_of_pos length, mul_div_cancel_left₀ _ length.ne']

theorem asI32_nonneg (nonneg : 0 ≤ x) : 0 ≤ asI32 x := by
  unfold asI32
  rw [if_pos nonneg]
  have floor := Int.floor_nonneg.mpr nonneg
  omega

/-- Less than a pixel is no pixel. -/
theorem asI32_eq_zero (nonneg : 0 ≤ x) : asI32 x = 0 ↔ x < 1 := by
  have floor := Int.floor_nonneg.mpr nonneg
  have small : x < 1 ↔ ⌊x⌋ = 0 := by
    rw [Int.floor_eq_zero_iff, Set.mem_Ico]
    exact (and_iff_right nonneg).symm
  unfold asI32
  rw [if_pos nonneg, small]
  omega

/-- The distance of the cursor from a barrier's line, whichever edge it is along. -/
theorem pixelsAway_eq (roomy : r.Roomy) (pos : Position) (id : BarrierId) (cursor : Cursor) :
    pixelsAway cursor ⟨id, posToBarrier r pos⟩ =
      asI32 (match pos with
        | .left | .right => |cursor.1 - (posToBarrier r pos).x1|
        | .top | .bottom => |cursor.2 - (posToBarrier r pos).y1|) := by
  obtain ⟨wide, high⟩ := roomy
  have across : ((r.xOffset : Int) : ℚ) < ((r.xOffset + r.width - 1 : Int) : ℚ) := by
    exact_mod_cast (by omega : r.xOffset < r.xOffset + r.width - 1)
  have down : ((r.yOffset : Int) : ℚ) < ((r.yOffset + r.height - 1 : Int) : ℚ) := by
    exact_mod_cast (by omega : r.yOffset < r.yOffset + r.height - 1)
  cases pos with
  | left | right => exact congrArg asI32 (distance_vertical down cursor)
  | top | bottom => exact congrArg asI32 (distance_horizontal across cursor)

theorem pixelsAway_nonneg (roomy : r.Roomy) (pos : Position) (id : BarrierId) (cursor : Cursor) :
    0 ≤ pixelsAway cursor ⟨id, posToBarrier r pos⟩ := by
  rw [pixelsAway_eq roomy]
  cases pos <;> exact asI32_nonneg (abs_nonneg _)

theorem pixelsAway_eq_zero (roomy : r.Roomy) (pos : Position) (id : BarrierId) (cursor : Cursor) :
    pixelsAway cursor ⟨id, posToBarrier r pos⟩ = 0 ↔ Near pos (posToBarrier r pos) cursor := by
  rw [pixelsAway_eq roomy]
  cases pos <;> exact asI32_eq_zero (abs_nonneg _)

theorem abs_sub_lt_one {y : ℚ} (le : y ≤ x) (ge : x ≤ y) : |x - y| < 1 := by
  rw [le_antisymm ge le, sub_self, abs_zero]
  exact zero_lt_one

/-- A cursor on a barrier is in its line. -/
theorem Near.of_contains (contains : (posToBarrier r pos).Contains cursor) :
    Near pos (posToBarrier r pos) cursor := by
  obtain ⟨⟨left, right⟩, top, bottom⟩ := contains
  cases pos with
  | left =>
    rw [show (posToBarrier r .left).x2 = (posToBarrier r .left).x1 from rfl] at right
    exact abs_sub_lt_one left right
  | right =>
    rw [show (posToBarrier r .right).x2 = (posToBarrier r .right).x1 from rfl] at right
    exact abs_sub_lt_one left right
  | top =>
    rw [show (posToBarrier r .top).y2 = (posToBarrier r .top).y1 from rfl] at bottom
    exact abs_sub_lt_one top bottom
  | bottom =>
    rw [show (posToBarrier r .bottom).y2 = (posToBarrier r .bottom).y1 from rfl] at bottom
    exact abs_sub_lt_one top bottom

/-! ## The first of the nearest -/

/-- Where nothing is nearer than none at all, the nearest is the first at no distance. -/
theorem argmin_eq_find? {α : Type} [DecidableEq α] {distance : α → Int} {items : List α}
    (nonneg : ∀ item ∈ items, 0 ≤ distance item) (some : ∃ item ∈ items, distance item = 0) :
    items.argmin distance = items.find? (distance · = 0) := by
  induction items with
  | nil =>
    obtain ⟨item, there, -⟩ := some
    cases there
  | cons head items ih =>
    have first := nonneg head (.head _)
    rw [argmin_cons]
    by_cases here : distance head = 0
    · rw [find?_cons_of_pos (by simpa using here)]
      cases nearest : items.argmin distance with
      | none => rfl
      | some item =>
        have other := nonneg item (.tail _ (argmin_mem nearest))
        exact if_neg (by omega)
    · rw [find?_cons_of_neg (by simpa using here)]
      have rest : ∃ item ∈ items, distance item = 0 := by
        obtain ⟨item, there, zero⟩ := some
        rcases mem_cons.mp there with rfl | later
        · exact absurd zero here
        · exact ⟨item, later, zero⟩
      rw [ih (fun item later => nonneg item (.tail _ later)) rest]
      cases found : items.find? (distance · = 0) with
      | none =>
        obtain ⟨item, later, zero⟩ := rest
        exact absurd (decide_eq_true zero) (find?_eq_none.mp found item later)
      | some item =>
        have zero : distance item = 0 := by simpa using find?_some found
        exact if_pos (by omega)

/-! ## Attribution -/

theorem zone_of_placed {zones : List Region} {clients : List Position}
    (there : (pos, r) ∈ placements zones clients) : r ∈ zones := by
  obtain ⟨client, -, mapped⟩ := mem_flatMap.mp there
  obtain ⟨zone, zoned, same⟩ := List.mem_map.mp mapped
  cases same
  exact zoned

/-- The cursor is in the line of the barrier placed for a client on a zone. -/
def NearPlaced (cursor : Cursor) (placed : Position × Region) : Bool :=
  Near placed.1 (posToBarrier placed.2 placed.1) cursor

/-- A barrier that is set is one that was placed. -/
theorem mem_numbered {start : BarrierId} {placed : List (Position × Region)} {b : ICBarrier}
    (there : b ∈ numbered start placed) :
    ∃ i pos r, placed[i]? = some (pos, r) ∧ b = ⟨idAfter start i, posToBarrier r pos⟩ := by
  obtain ⟨i, within, same⟩ := mem_mapIdx.mp there
  exact ⟨i, placed[i].1, placed[i].2, getElem?_eq_getElem within, same.symm⟩

theorem first_near (start : BarrierId) {placed : List (Position × Region)}
    (roomy : ∀ item ∈ placed, item.2.Roomy)
    (found : placed.find? (NearPlaced cursor) = some (pos, r)) : ∃ i, placed[i]? = some (pos, r) ∧
      findCorrespondingClient (numbered start placed) cursor = some (idAfter start i) := by
  obtain ⟨near, early, late, rfl, before⟩ := find?_eq_some_iff_append.mp found
  have here : (pos, r) ∈ early ++ (pos, r) :: late := by simp
  have zero : pixelsAway cursor ⟨idAfter start early.length, posToBarrier r pos⟩ = 0 :=
    (pixelsAway_eq_zero (roomy _ here) pos _ cursor).mpr (of_decide_eq_true near)
  have split : ∃ after, numbered start (early ++ (pos, r) :: late) =
      numbered start early ++ ⟨idAfter start early.length, posToBarrier r pos⟩ :: after := by
    refine ⟨late.mapIdx fun i item =>
      ⟨idAfter start (i + 1 + early.length), posToBarrier item.2 item.1⟩, ?_⟩
    rw [numbered, mapIdx_append, mapIdx_cons, ← numbered]
    simp only [Nat.zero_add]
  obtain ⟨after, whole⟩ := split
  refine ⟨early.length, by simp, ?_⟩
  unfold findCorrespondingClient
  rw [argmin_eq_find?]
  · have first : (numbered start (early ++ (pos, r) :: late)).find?
        (pixelsAway cursor · = 0) = some ⟨idAfter start early.length, posToBarrier r pos⟩ := by
      refine find?_eq_some_iff_append.mpr ⟨decide_eq_true zero, _, after, whole, ?_⟩
      intro b there
      obtain ⟨i, client, zone, item, rfl⟩ := mem_numbered there
      have member := mem_of_getElem? item
      have away := before _ member
      rw [Bool.not_eq_true', NearPlaced, decide_eq_false_iff_not] at away
      rw [Bool.not_eq_true', decide_eq_false_iff_not,
        pixelsAway_eq_zero (roomy _ (mem_append_left _ member))]
      exact away
    rw [first]
    rfl
  · intro b there
    obtain ⟨i, client, zone, item, rfl⟩ := mem_numbered there
    exact pixelsAway_nonneg (roomy _ (mem_of_getElem? item)) client _ cursor
  · exact ⟨_, whole ▸ (by simp), zero⟩

theorem clientForActivation_unnamed {barrier : Option ActivatedBarrier}
    (unnamed : ∀ id, barrier ≠ some (.barrier id)) {barriers : List ICBarrier}
    {posForBarrierId : Table BarrierId Position} {id : BarrierId}
    (nearest : findCorrespondingClient barriers cursor = some id)
    (client : posForBarrierId.lookup id = some pos) :
    clientForActivation barrier (some cursor) barriers posForBarrierId = .ok (id, pos) := by
  unfold clientForActivation
  rcases barrier with - | ⟨id⟩ | -
  · simp only [nearest, client, pure_bind]
    rfl
  · exact absurd rfl (unnamed id)
  · simp only [nearest, client, pure_bind]
    rfl

/--
The client an activation without a named barrier is attributed to: it has a barrier that the
cursor is on, and that is the barrier returned.
-/
def Attributed (zones : List Region) (clients : List Position) (start : BarrierId)
    (cursor : Cursor) (answer : Except CaptureError (BarrierId × Position)) : Prop :=
  ∃ (i : Nat) (b : ICBarrier) (pos : Position) (r : Region),
    (selectBarriers zones clients start).barriers[i]? = some b ∧
      (placements zones clients)[i]? = some (pos, r) ∧ b.position = posToBarrier r pos ∧
      b.position.Contains cursor ∧ answer = .ok (b.barrierId, pos)

section Session

variable {zones : List Region} {clients : List Position} (start : BarrierId) {cursor : Cursor}

theorem attributed_first {barrier : Option ActivatedBarrier}
    (unnamed : ∀ id, barrier ≠ some (.barrier id)) (roomy : ∀ r ∈ zones, r.Roomy)
    (few : (placements zones clients).length < idCount) {pos : Position} {r : Region}
    (found : (placements zones clients).find? (NearPlaced cursor) = some (pos, r)) :
    Attributed zones clients start cursor
        (clientForActivation barrier (some cursor) (selectBarriers zones clients start).barriers
          (selectBarriers zones clients start).posForBarrier) ↔
      (posToBarrier r pos).Contains cursor := by
  have placed := placed_selectBarriers zones clients start
  have all : ∀ item ∈ placements zones clients, item.2.Roomy := fun item there =>
    roomy item.2 (zone_of_placed there)
  obtain ⟨i, here, nearest⟩ := first_near start all found
  obtain ⟨within, atIndex⟩ := List.getElem?_eq_some_iff.mp here
  have lookup := placed.clients few.le i within
  rw [atIndex] at lookup
  rw [← placed.barriers] at nearest
  rw [clientForActivation_unnamed unnamed nearest lookup]
  have barrierAt (k : Nat) : (selectBarriers zones clients start).barriers[k]? =
      (placements zones clients)[k]?.map fun item =>
        ⟨idAfter start k, posToBarrier item.2 item.1⟩ := by
    rw [placed.barriers]
    exact getElem?_mapIdx
  constructor
  · rintro ⟨k, b, client, zone, set, item, -, on, same⟩
    rw [barrierAt, item] at set
    cases set
    have ids : idAfter start i = idAfter start k := congrArg Prod.fst (Except.ok.inj same)
    have bound := (List.getElem?_eq_some_iff.mp item).1
    cases idAfter_injective (within.trans few) (bound.trans few) ids
    rw [item] at here
    cases here
    exact on
  · intro on
    have set : (selectBarriers zones clients start).barriers[i]? =
        some ⟨idAfter start i, posToBarrier r pos⟩ := by
      rw [barrierAt, here]
      rfl
    exact ⟨i, _, pos, r, set, here, rfl, on, rfl⟩

/--
The ids of a session differ, and a cursor on a barrier is attributed to a barrier that it is on
exactly if it is on the first barrier in whose line it is.
-/
theorem attributed_iff (barrier : Option ActivatedBarrier)
    (unnamed : ∀ id, barrier ≠ some (.barrier id)) (roomy : ∀ r ∈ zones, r.Roomy)
    (few : (placements zones clients).length < idCount)
    (onBarrier : ∃ b ∈ (selectBarriers zones clients start).barriers, b.position.Contains cursor) :
    ((selectBarriers zones clients start).barriers.map ICBarrier.barrierId).Nodup ∧
    (Attributed zones clients start cursor
        (clientForActivation barrier (some cursor) (selectBarriers zones clients start).barriers
          (selectBarriers zones clients start).posForBarrier) ↔
      ∀ pos r, (placements zones clients).find? (NearPlaced cursor) = some (pos, r) →
        (posToBarrier r pos).Contains cursor) := by
  obtain ⟨b, there, contains⟩ := onBarrier
  rw [(placed_selectBarriers zones clients start).barriers] at there
  obtain ⟨j, client, zone, item, rfl⟩ := mem_numbered there
  -- some barrier is near, since the cursor is on one
  have some_near : ((placements zones clients).find? (NearPlaced cursor)).isSome = true :=
    find?_isSome.mpr ⟨(client, zone), mem_of_getElem? item,
      decide_eq_true (Near.of_contains contains)⟩
  obtain ⟨⟨pos, r⟩, found⟩ := Option.isSome_iff_exists.mp some_near
  rw [attributed_first start unnamed roomy few found, found,
    (placed_selectBarriers zones clients start).barriers]
  refine ⟨nodup_ids start few.le, fun on other nearby same => ?_, fun first => first pos r rfl⟩
  cases same
  exact on

end Session

/-! ## Zones that line up -/

def lowerLeft : List Region := [⟨0, 0, 100, 100⟩, ⟨-50, 200, 100, 100⟩]

theorem one_lt_ids : 1 < 2 ^ 32 := by decide

def firstId : BarrierId := ⟨1, Nat.one_pos, one_lt_ids⟩

theorem upper_first (y : ℚ) : (placements lowerLeft [.left, .top]).find? (NearPlaced (0, y)) =
    some (.left, ⟨0, 0, 100, 100⟩) := by
  have near : |(0 : ℚ) - ((0 : Int) : ℚ)| < 1 := by norm_num
  exact find?_cons_of_pos (decide_eq_true near)

/-- A cursor on the left edge of the upper zone is attributed to that. -/
theorem attributed_iff_upper :
    Attributed lowerLeft [.left, .top] firstId (0, 50)
      (clientForActivation none (some (0, 50))
        (selectBarriers lowerLeft [.left, .top] firstId).barriers
        (selectBarriers lowerLeft [.left, .top] firstId).posForBarrier) := by
  refine (attributed_iff firstId none (by simp) (by decide) (by decide)
    ⟨⟨firstId, ⟨0, 0, 0, 99⟩⟩, by decide, by decide⟩).2.mpr fun pos r same => ?_
  rw [upper_first] at same
  cases same
  decide

/-- A cursor on the top edge of the lower zone is in the line of the left edge of the upper. -/
theorem top_edge_taken_for_left :
    ¬∀ (zones : List Region) (clients : List Position) (start : BarrierId) (cursor : Cursor),
      (∀ r ∈ zones, r.Roomy) → (placements zones clients).length < idCount →
      (∃ b ∈ (selectBarriers zones clients start).barriers, b.position.Contains cursor) →
      Attributed zones clients start cursor
        (clientForActivation none (some cursor) (selectBarriers zones clients start).barriers
          (selectBarriers zones clients start).posForBarrier) := by
  intro attributed
  have wrong := (attributed_first firstId (by simp) (by decide) (by decide) (upper_first 200)).mp
    (attributed lowerLeft [.left, .top] firstId (0, 200) (by decide) (by decide)
      ⟨⟨⟨4, by decide, by decide⟩, ⟨-50, 200, 49, 200⟩⟩, by decide, by decide⟩)
  exact absurd wrong (by decide)

end HopsFormal.Libei
