import HopsFormal.Capture.InputEvent
import HopsFormal.Lib.Table
import Mathlib.Data.List.Induction
import Mathlib.Data.Nat.ModEq
import Mathlib.Logic.Function.Iterate

/-!
# Barriers of a portal session

Each client gets a barrier along its edge of every zone.  Barriers are told apart by ids taken
from a counter that goes on from one session to the next and starts over at one.
-/

namespace HopsFormal.Libei

open Capture (Position)
open List Function Lib

/-- A zone of the desktop. -/
structure Region where
  xOffset : Int
  yOffset : Int
  width : Nat
  height : Nat
  deriving DecidableEq

/-- Where a barrier starts and where it ends, both included. -/
structure Segment where
  x1 : Int
  y1 : Int
  x2 : Int
  y2 : Int
  deriving DecidableEq

def posToBarrier (r : Region) (pos : Position) : Segment :=
  let (x, y) := (r.xOffset, r.yOffset)
  let (w, h) := ((r.width : Int), (r.height : Int))
  match pos with
  | .left => ⟨x, y, x, y + h - 1⟩
  | .right => ⟨x + w, y, x + w, y + h - 1⟩
  | .top => ⟨x, y, x + w - 1, y⟩
  | .bottom => ⟨x, y + h, x + w - 1, y + h⟩

/-- A nonzero 32-bit number. -/
structure BarrierId where
  val : Nat
  pos : 0 < val
  lt : val < 2 ^ 32
  deriving DecidableEq

/-- The ids there are. -/
def idCount : Nat := 2 ^ 32 - 1

structure ICBarrier where
  barrierId : BarrierId
  position : Segment
  deriving DecidableEq

/-- The counter past the greatest id starts over at one. -/
def BarrierId.succ (id : BarrierId) : BarrierId :=
  if more : id.val + 1 < 2 ^ 32 then ⟨id.val + 1, Nat.succ_pos _, more⟩
  else ⟨1, Nat.one_pos, by decide⟩

/-- The next id, and the counter after it is taken. -/
def takeBarrierId (next : BarrierId) : BarrierId × BarrierId := (next, next.succ)

/-- What is being set: the barriers, the clients by id, and the counter. -/
structure Setting where
  barriers : List ICBarrier
  posForBarrier : Table BarrierId Position
  next : BarrierId

namespace Setting

/-- A client's barrier on one more zone. -/
def addBarrier (pos : Position) (setting : Setting) (r : Region) : Setting :=
  let (id, next) := takeBarrierId setting.next
  { barriers := setting.barriers ++ [⟨id, posToBarrier r pos⟩]
    posForBarrier := setting.posForBarrier.insert id pos
    next := next }

end Setting

variable (zones : List Region) (start : BarrierId)

def selectBarriers (clients : List Position) (next : BarrierId) : Setting :=
  clients.foldl (fun setting pos => zones.foldl (Setting.addBarrier pos) setting) ⟨[], ∅, next⟩

/-! ## Ids -/

def idAfter (taken : Nat) : BarrierId := BarrierId.succ^[taken] start

theorem BarrierId.val_succ (id : BarrierId) : id.succ.val = id.val % idCount + 1 := by
  have pos := id.pos
  have lt := id.lt
  unfold BarrierId.succ idCount
  split <;> simp <;> omega

theorem val_idAfter (taken : Nat) :
    (idAfter start taken).val = (start.val - 1 + taken) % idCount + 1 := by
  have pos := start.pos
  have lt := start.lt
  induction taken with
  | zero =>
    rw [idAfter, iterate_zero_apply, Nat.add_zero, Nat.mod_eq_of_lt]
    · omega
    · unfold idCount
      omega
  | succ taken ih =>
    rw [idAfter, iterate_succ_apply', BarrierId.val_succ, ← idAfter, ih, Nat.mod_add_mod]
    congr 1

/-- Ids taken within one round of the counter differ. -/
theorem idAfter_injective {start : BarrierId} {first second : Nat} (early : first < idCount)
    (late : second < idCount) (same : idAfter start first = idAfter start second) :
    first = second := by
  have vals := congrArg BarrierId.val same
  rw [val_idAfter, val_idAfter, Nat.add_right_cancel_iff] at vals
  have mods := Nat.ModEq.add_left_cancel' (start.val - 1) (show Nat.ModEq idCount _ _ from vals)
  rwa [Nat.ModEq, Nat.mod_eq_of_lt early, Nat.mod_eq_of_lt late] at mods

/-! ## What is set -/

/-- The client and the zone of each barrier, in the order they are set. -/
def placements (clients : List Position) : List (Position × Region) :=
  clients.flatMap fun pos => zones.map fun r => (pos, r)

/-- The barriers of the placements, numbered from a start. -/
def numbered (placed : List (Position × Region)) : List ICBarrier :=
  placed.mapIdx fun i (pos, r) => ⟨idAfter start i, posToBarrier r pos⟩

theorem selectBarriers_eq (clients : List Position) (next : BarrierId) :
    selectBarriers zones clients next =
      (placements zones clients).foldl
        (fun setting placed => setting.addBarrier placed.1 placed.2) ⟨[], ∅, next⟩ := by
  unfold selectBarriers placements
  rw [foldl_flatMap]
  simp only [foldl_map]

/-- What has been set once some barriers are placed. -/
structure Placed (start : BarrierId) (placed : List (Position × Region)) (setting : Setting) :
    Prop where
  next : setting.next = idAfter start placed.length
  barriers : setting.barriers = numbered start placed
  clients : placed.length ≤ idCount → ∀ i (there : i < placed.length),
    setting.posForBarrier.lookup (idAfter start i) = some placed[i].1

theorem Placed.add {start : BarrierId} {placed : List (Position × Region)} {setting : Setting}
    (known : Placed start placed setting) (pos : Position) (r : Region) :
    Placed start (placed ++ [(pos, r)]) (setting.addBarrier pos r) := by
  refine ⟨?_, ?_, fun few i there => ?_⟩
  · rw [length_append, idAfter]
    exact (congrArg BarrierId.succ known.next).trans (iterate_succ_apply' _ _ _).symm
  · rw [numbered, mapIdx_concat, ← numbered, ← known.barriers, ← known.next]
    rfl
  · rw [length_append, length_singleton] at few there
    change (setting.posForBarrier.insert setting.next pos).lookup (idAfter start i) = _
    rw [known.next]
    rcases Nat.lt_succ_iff_lt_or_eq.mp there with before | rfl
    · have other : idAfter start i ≠ idAfter start placed.length := fun same =>
        Nat.ne_of_lt before (idAfter_injective (by omega) (by omega) same)
      rw [AList.lookup_insert_ne other, known.clients (by omega) i before,
        getElem_append_left before]
    · rw [AList.lookup_insert]
      simp

theorem placed_selectBarriers (clients : List Position) (start : BarrierId) :
    Placed start (placements zones clients) (selectBarriers zones clients start) := by
  rw [selectBarriers_eq]
  induction placements zones clients using List.reverseRecOn with
  | nil => exact ⟨rfl, rfl, fun _ i there => absurd there (Nat.not_lt_zero i)⟩
  | append_singleton placed last ih =>
    rw [foldl_concat]
    exact ih.add last.1 last.2

theorem nodup_ids {placed : List (Position × Region)} (few : placed.length ≤ idCount) :
    ((numbered start placed).map ICBarrier.barrierId).Nodup := by
  rw [nodup_iff_injective_getElem]
  rintro ⟨first, early⟩ ⟨second, late⟩ same
  rw [numbered, length_map, length_mapIdx] at early late
  simp only [numbered, getElem_map, getElem_mapIdx] at same
  exact Fin.ext (idAfter_injective (Nat.lt_of_lt_of_le early few)
    (Nat.lt_of_lt_of_le late few) same)

end HopsFormal.Libei
