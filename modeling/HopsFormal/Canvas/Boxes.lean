import HopsFormal.Canvas.Layout
import HopsFormal.Edges.Service

/-!
# The boxes of the arrange canvas

The canvas draws every device a frontend knows of at a spot on its side, those that are switched
on in the middle.  A device just dropped is drawn where it was dropped at once, and so is a device
it trades edges with, before the daemon has answered.
-/

namespace HopsFormal.Canvas

open Capture (Position)
open Edges (Device Geometry)
open Option Lib

variable {Ip : Type}

/-- The devices of the daemon, as a frontend knows them. -/
abbrev Model (Ip : Type) := Table Nat (Device Ip)

structure CanvasBox where
  handle : String
  name : String
  x : ℚ
  y : ℚ
  active : Bool

/-- A device to be drawn, and the side it is drawn on. -/
structure Drawn where
  handle : Nat
  name : String
  pos : Position
  active : Bool

def handles (model : Model Ip) : List Nat :=
  model.keys.insertionSort (· ≤ ·)

/-- The first other device switched on at an edge. -/
def holder (model : Model Ip) (mover : Nat) (edge : Position) : Option Nat :=
  (handles model).find? fun handle =>
    handle ≠ mover && (model.lookup handle).any fun device => device.active && device.pos = edge

/-- The device that trades edges with the one dropped, and the edge it gets. -/
def trades (model : Model Ip) (moved : Option (Nat × Position)) : Option (Nat × Position) :=
  moved.bind fun (mover, edge) =>
    (model.lookup mover).bind fun device =>
      (holder model mover edge).bind fun holder =>
        if device.active && device.pos ≠ edge then some (holder, device.pos) else none

def sideOf (moved traded : Option (Nat × Position)) (handle : Nat) (pos : Position) : Position :=
  ((moved.filter (·.1 = handle)).or (traded.filter (·.1 = handle))).elim pos Prod.snd

def draw (moved traded : Option (Nat × Position)) (handle : Nat) (device : Device Ip) : Drawn where
  handle := handle
  name := (device.label.or device.hostname).getD "unnamed"
  pos := sideOf moved traded handle device.pos
  active := device.active

/-- Those switched on first, then by handle: the order in which spots are handed out. -/
def devices (model : Model Ip) (moved : Option (Nat × Position)) : List Drawn :=
  ((handles model).filterMap fun handle =>
    (model.lookup handle).map (draw moved (trades model moved) handle)).mergeSort fun a b =>
      (a.active && !b.active) || (a.active = b.active && a.handle ≤ b.handle)

/-- How many boxes a side has. -/
def count (devices : List Drawn) (pos : Position) : Nat :=
  devices.countP (·.pos = pos)

/-- The box of a device, after those before it took their spots. -/
def place (all : List Drawn) (placed : (Position → Nat) × List (Nat × CanvasBox))
    (device : Drawn) : (Position → Nat) × List (Nat × CanvasBox) :=
  let (taken, boxes) := placed
  let k := taken device.pos
  let (x, y) := edgeSpot device.pos k (count all device.pos)
  (Function.update taken device.pos (k + 1),
    boxes ++ [(k, ⟨toString device.handle, device.name, x, y, device.active⟩)])

def spots (all : List Drawn) : List (Nat × CanvasBox) :=
  (all.foldl (place all) (fun _ => 0, [])).2

/-- The boxes in the order they are drawn: those furthest from the middle of their side first. -/
def canvasBoxes (model : Model Ip) (moved : Option (Nat × Position)) : List CanvasBox :=
  let handleOf (box : CanvasBox) := box.handle.toNat?.getD 0
  ((spots (devices model moved)).mergeSort fun a b =>
    b.1 < a.1 || (a.1 = b.1 && handleOf a.2 ≤ handleOf b.2)).map Prod.snd

inductive FrontendRequest where
  | updatePosition (handle : Nat) (edge : Position)
  | updateGeometry (handle : Nat) (geometry : Option Geometry)

/-- The middle spot of a side, as a saved geometry. -/
def spot (edge : Position) : Geometry :=
  let (sx, sy) := edgeSpot edge 0 1
  { x := .ofInt sx.floor
    y := .ofInt sy.floor
    width := .ofNat boxW.floor.toNat
    height := .ofNat boxH.floor.toNat }

def dropRequests (model : Model Ip) (handle : Nat) (x y : Option ℚ) : List FrontendRequest :=
  match model.lookup handle, dropEdge x y with
  | some device, some edge =>
    (if device.pos ≠ edge then [.updatePosition handle edge] else []) ++
      if device.pos ≠ edge ∨ device.geometry ≠ some (spot edge) then
        [.updateGeometry handle (some (spot edge))]
      else []
  | _, _ => []

def moveOf (requests : List FrontendRequest) : Option (Nat × Position) :=
  requests.findSome? fun
    | .updatePosition handle edge => some (handle, edge)
    | .updateGeometry _ _ => none

/-- The boxes drawn at once for a drop. -/
def dropped (model : Model Ip) (handle : Nat) (x y : Option ℚ) : List CanvasBox :=
  canvasBoxes model (moveOf (dropRequests model handle x y))

/-! ## What the boxes depend on -/

variable {model : Model Ip} {handle mover : Nat}

theorem mem_handles : handle ∈ handles model ↔ ∃ device, model.lookup handle = some device := by
  rw [handles, List.mem_insertionSort, ← AList.mem_keys, ← AList.lookup_isSome,
    isSome_iff_exists]

/-- The same devices are drawn in the same order, however they are kept. -/
theorem handles_congr {first second : Model Ip}
    (same : ∀ handle, (first.lookup handle).isSome = (second.lookup handle).isSome) :
    handles first = handles second := by
  have perm : (handles first).Perm (handles second) := by
    refine (List.perm_ext_iff_of_nodup ?_ ?_).mpr fun handle => ?_
    · exact (List.perm_insertionSort ..).nodup_iff.mpr first.keys_nodup
    · exact (List.perm_insertionSort ..).nodup_iff.mpr second.keys_nodup
    · rw [mem_handles, mem_handles, ← isSome_iff_exists, ← isSome_iff_exists, same]
  exact perm.eq_of_pairwise' (List.pairwise_insertionSort ..) (List.pairwise_insertionSort ..)

theorem canvasBoxes_congr {first second : Model Ip} {moved movedToo : Option (Nat × Position)}
    (same : ∀ handle, (first.lookup handle).map (draw moved (trades first moved) handle) =
      (second.lookup handle).map (draw movedToo (trades second movedToo) handle)) :
    canvasBoxes first moved = canvasBoxes second movedToo := by
  have known : handles first = handles second := by
    refine handles_congr fun handle => ?_
    have both := congrArg Option.isSome (same handle)
    rwa [isSome_map, isSome_map] at both
  unfold canvasBoxes devices
  rw [known]
  simp only [same]

@[simp] theorem trades_none (model : Model Ip) : trades model none = none := rfl

theorem sideOf_mover (handle : Nat) (edge pos : Position) (traded : Option (Nat × Position)) :
    sideOf (some (handle, edge)) traded handle pos = edge := by
  simp [sideOf, filter_some]

theorem sideOf_traded (two : mover ≠ handle) (edge vacated pos : Position) :
    sideOf (some (mover, edge)) (some (handle, vacated)) handle pos = vacated := by
  simp [sideOf, filter_some, two]

theorem sideOf_rest (apart : mover ≠ handle) (edge pos : Position)
    {traded : Option (Nat × Position)} (spared : ∀ trade ∈ traded, trade.1 ≠ handle) :
    sideOf (some (mover, edge)) traded handle pos = pos := by
  cases traded with
  | none => simp [sideOf, filter_some, apart]
  | some trade => simp [sideOf, filter_some, apart, spared trade rfl]

theorem holder_some {other : Nat} {edge : Position} (found : holder model mover edge = some other) :
    other ≠ mover ∧ ∃ device, model.lookup other = some device ∧ device.active = true ∧
      device.pos = edge := by
  have test := List.find?_some found
  simp only [Bool.and_eq_true, decide_eq_true_eq, Option.any_eq_true] at test
  obtain ⟨apart, device, known, on, there⟩ := test
  exact ⟨apart, device, known, on, there⟩

theorem holder_none {other : Nat} {edge : Position} (nobody : holder model mover edge = none)
    {device : Device Ip} (known : model.lookup other = some device) (on : device.active = true)
    (there : device.pos = edge) : other = mover := by
  have test := List.find?_eq_none.mp nobody other (mem_handles.mpr ⟨device, known⟩)
  simpa [known, on, there] using test

end HopsFormal.Canvas
