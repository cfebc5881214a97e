import HopsFormal.Capture.Task
import Mathlib.Algebra.Group.Nat.Defs
import Mathlib.Algebra.Order.Ring.Int

/-!
# The edges a pointer leaves the desktop at

A capture window stands along an edge of an output, unless the desktop goes on there.  That
it goes on is read off one coordinate: some output ends on the line the edge lies on.  In the
plane an output borders another only where the two meet along a stretch of that line.
-/

namespace HopsFormal.LayerShell

open List

open Capture (Position)

structure OutputInfo where
  description : String
  name : String
  position : Int32 × Int32
  size : Int32 × Int32
  deriving DecidableEq

def OutputInfo.undescribed : OutputInfo where
  description := ""
  name := ""
  position := (0, 0)
  size := (0, 0)

/-- An output of the compositor: the object it is bound as, the name of its global, what it
was described as when a description last ended, and what was said since. -/
structure Output where
  wlOutput : Nat
  global : UInt32
  info : Option OutputInfo
  pendingInfo : OutputInfo
  hasXdgInfo : Bool
  deriving DecidableEq

/-- The coordinate an edge lies at; the far edges wrap around. -/
def OutputInfo.edge (info : OutputInfo) : Position → Int32
  | .left => info.position.1
  | .right => info.position.1 + info.size.1
  | .top => info.position.2
  | .bottom => info.position.2 + info.size.2

def getEdges (outputs : List Output) (pos : Position) : List (Output × Int32) :=
  outputs.filterMap fun output => output.info.map fun info => (output, info.edge pos)

/-- The outputs whose edge is not on the line of an opposite edge. -/
def getOutputConfiguration (outputs : List Output) (pos : Position) : List Output :=
  ((getEdges outputs pos).filter fun edge =>
    !(getEdges outputs pos.opposite).any fun opposite => opposite.2 = edge.2).map Prod.fst

/-! ## Rectangles in the plane -/

/-- Where an edge lies in the plane. -/
def OutputInfo.side (info : OutputInfo) : Position → Int
  | .left => info.position.1.toInt
  | .right => info.position.1.toInt + info.size.1.toInt
  | .top => info.position.2.toInt
  | .bottom => info.position.2.toInt + info.size.2.toInt

/-- Where an edge begins and ends along its line. -/
def OutputInfo.stretch (info : OutputInfo) : Position → Int × Int
  | .left | .right => (info.side .top, info.side .bottom)
  | .top | .bottom => (info.side .left, info.side .right)

/-- The other rectangle meets this one along a stretch of the edge. -/
def Borders (pos : Position) (info other : OutputInfo) : Prop :=
  other.side pos.opposite = info.side pos ∧
    max (info.stretch pos).1 (other.stretch pos).1 < min (info.stretch pos).2 (other.stretch pos).2

instance (pos : Position) (info other : OutputInfo) : Decidable (Borders pos info other) :=
  inferInstanceAs (Decidable (_ ∧ _))

/-- No rectangle reaches further than this one at an edge. -/
def Outermost (outputs : List Output) (pos : Position) (info : OutputInfo) : Prop :=
  ∀ other ∈ outputs, ∀ its, other.info = some its →
    match pos with
    | .left | .top => info.side pos ≤ its.side pos
    | .right | .bottom => its.side pos ≤ info.side pos

def OutputInfo.Sized (info : OutputInfo) : Prop := 0 < info.size.1 ∧ 0 < info.size.2

instance (info : OutputInfo) : Decidable info.Sized := inferInstanceAs (Decidable (_ ∧ _))

/-- No edge wraps around. -/
def OutputInfo.Fits (info : OutputInfo) : Prop := ∀ pos, (info.edge pos).toInt = info.side pos

variable {outputs : List Output} {output : Output} {info other : OutputInfo} {pos : Position}

theorem edge_of_side {place : Position} (same : info.side pos = other.side place) :
    info.edge pos = other.edge place := by
  have wrapped : ∀ (info : OutputInfo) pos,
      (info.edge pos).toInt = (info.side pos).bmod (2 ^ 32) := by
    intro info pos
    cases pos <;> simp [OutputInfo.edge, OutputInfo.side, Int32.toInt_add]
  apply Int32.toInt_inj.mp
  rw [wrapped, wrapped, same]

/-- The edges of a rectangle that is not empty lie on two lines. -/
theorem OutputInfo.Sized.apart (sized : info.Sized) (pos : Position) :
    info.edge pos.opposite ≠ info.edge pos := by
  have moved : ∀ {at_ size : Int32}, 0 < size → at_ + size ≠ at_ := by
    intro at_ size positive same
    rw [Int32.add_eq_left] at same
    exact absurd (same ▸ positive) (by decide)
  cases pos with
  | left => exact moved sized.1
  | right => exact (moved sized.1).symm
  | top => exact moved sized.2
  | bottom => exact (moved sized.2).symm

theorem mem_getEdges {edge : Output × Int32} :
    edge ∈ getEdges outputs pos ↔
      edge.1 ∈ outputs ∧ ∃ info, edge.1.info = some info ∧ info.edge pos = edge.2 := by
  obtain ⟨output, at_⟩ := edge
  simp only [getEdges, mem_filterMap, Option.map_eq_some_iff, Prod.mk.injEq]
  constructor
  · rintro ⟨output, member, info, described, rfl, rfl⟩
    exact ⟨member, info, described, rfl⟩
  · rintro ⟨member, info, described, rfl⟩
    exact ⟨output, member, info, described, rfl, rfl⟩

theorem mem_getOutputConfiguration :
    output ∈ getOutputConfiguration outputs pos ↔
      output ∈ outputs ∧ ∃ info, output.info = some info ∧
        ∀ other ∈ outputs, ∀ its, other.info = some its →
          its.edge pos.opposite ≠ info.edge pos := by
  rw [getOutputConfiguration, List.mem_map]
  constructor
  · rintro ⟨edge, member, rfl⟩
    obtain ⟨found, alone⟩ := mem_filter.mp member
    obtain ⟨there, info, described, lies⟩ := mem_getEdges.mp found
    refine ⟨there, info, described, fun other member its said same => ?_⟩
    rw [Bool.not_eq_true', List.any_eq_false] at alone
    refine alone (other, its.edge pos.opposite) ?_ (decide_eq_true (same.trans lies))
    exact mem_getEdges.mpr ⟨member, its, said, rfl⟩
  · rintro ⟨there, info, described, alone⟩
    refine ⟨(output, info.edge pos), mem_filter.mpr ⟨?_, ?_⟩, rfl⟩
    · exact mem_getEdges.mpr ⟨there, info, described, rfl⟩
    · rw [Bool.not_eq_true', List.any_eq_false]
      intro opposite found same
      obtain ⟨member, its, said, lies⟩ := mem_getEdges.mp found
      exact alone opposite.1 member its said (lies.trans (of_decide_eq_true same))

theorem Outermost.clear (fits : ∀ other ∈ outputs, ∀ its, other.info = some its → its.Fits)
    (sized : ∀ other ∈ outputs, ∀ its, other.info = some its → its.Sized)
    (there : output ∈ outputs) (described : output.info = some info)
    (outermost : Outermost outputs pos info) :
    ∀ other ∈ outputs, ∀ its, other.info = some its → its.edge pos.opposite ≠ info.edge pos := by
  intro other member its said same
  have limit := outermost other member its said
  have meets : its.side pos.opposite = info.side pos := by
    rw [← fits other member its said, ← fits output there info described, same]
  obtain ⟨wide, high⟩ := sized other member its said
  rw [Int32.lt_iff_toInt_lt, Int32.toInt_zero] at wide high
  cases pos <;> simp only [OutputInfo.side, Position.opposite] at limit meets <;> omega

/--
An output is used exactly when no other output ends on the line of its edge.  So one that
another borders is not, and, where no edge wraps around, one at the outermost edge is.
-/
theorem getOutputConfiguration_used
    (sized : ∀ output ∈ outputs, ∀ info, output.info = some info → info.Sized)
    (there : output ∈ outputs) (described : output.info = some info) :
    (output ∈ getOutputConfiguration outputs pos ↔
      ∀ other ∈ outputs, other ≠ output → ∀ its, other.info = some its →
        its.edge pos.opposite ≠ info.edge pos) ∧
    (∀ other ∈ outputs, ∀ its, other.info = some its → Borders pos info its →
      output ∉ getOutputConfiguration outputs pos) ∧
    ((∀ other ∈ outputs, ∀ its, other.info = some its → its.Fits) →
      Outermost outputs pos info → output ∈ getOutputConfiguration outputs pos) := by
  have used : output ∈ getOutputConfiguration outputs pos ↔
      ∀ other ∈ outputs, ∀ its, other.info = some its → its.edge pos.opposite ≠ info.edge pos := by
    rw [mem_getOutputConfiguration]
    constructor
    · rintro ⟨-, its, said, alone⟩
      cases described.symm.trans said
      exact alone
    · exact fun alone => ⟨there, info, described, alone⟩
  refine ⟨used.trans ⟨fun alone other member _ => alone other member, ?_⟩, ?_, ?_⟩
  · intro alone other member its said
    by_cases same : other = output
    · subst same
      cases described.symm.trans said
      exact (sized other there info described).apart pos
    · exact alone other member same its said
  · intro other member its said borders chosen
    exact used.mp chosen other member its said (edge_of_side borders.1)
  · exact fun fits outermost => used.mpr (outermost.clear fits sized there described)

/-- An output a hundred wide and high. -/
def placed (wlOutput : Nat) (position : Int32 × Int32) : Output where
  wlOutput := wlOutput
  global := 0
  info := some { OutputInfo.undescribed with position := position, size := (100, 100) }
  pendingInfo := .undescribed
  hasXdgInfo := true

/-- Two outputs on either side of one line that do not meet. -/
def staggered : List Output := [placed 1 (0, 0), placed 2 (100, 300)]

theorem staggered_sized :
    ∀ output ∈ staggered, ∀ info, output.info = some info → info.Sized := by
  intro output member info described
  simp only [staggered, mem_cons, not_mem_nil, or_false] at member
  rcases member with rfl | rfl <;> cases described <;> decide

/-- The output that reaches furthest is used. -/
theorem getOutputConfiguration_used_outermost :
    placed 2 (100, 300) ∈ getOutputConfiguration staggered .right := by
  refine (getOutputConfiguration_used staggered_sized (by decide) rfl).2.2 ?_ ?_
  · intro output member info described pos
    simp only [staggered, mem_cons, not_mem_nil, or_false] at member
    rcases member with rfl | rfl <;> cases described <;> cases pos <;> decide
  · intro output member info described
    simp only [staggered, mem_cons, not_mem_nil, or_false] at member
    rcases member with rfl | rfl <;> cases described <;> decide

/-- An output nothing borders is not used. -/
theorem staggered_unused :
    ¬ ∀ outputs : List Output,
      (∀ output ∈ outputs, ∀ info, output.info = some info → info.Sized) →
      ∀ pos, ∀ output ∈ outputs, ∀ info, output.info = some info →
        (output ∈ getOutputConfiguration outputs pos ↔
          ∀ other ∈ outputs, ∀ its, other.info = some its → ¬ Borders pos info its) := by
  intro chosen
  have alone : placed 1 (0, 0) ∈ getOutputConfiguration staggered .right := by
    refine (chosen staggered staggered_sized .right _ (by decide) _ rfl).mpr ?_
    intro output member info described
    simp only [staggered, mem_cons, not_mem_nil, or_false] at member
    rcases member with rfl | rfl <;> cases described <;> decide
  exact absurd alone (by decide)

end HopsFormal.LayerShell
