import HopsFormal.Trust.Identity
import Mathlib.Data.String.Basic
import Mathlib.Logic.Function.Basic

/-!
# The board of comparisons under way

For every machine this one pairs with: the connection whose number is shown,
and the comparisons that have not reached a number yet.  Of these only one is
ever let send this machine's half, and a comparison on a connection that the
machine sorting first did not dial waits for one on a connection that it did.
-/

namespace HopsFormal.Pairing

open Trust

abbrev Fingerprint := { fp : String // validFingerprint fp = true }

/-- Which half of the comparison this machine does: the dialler shows the number. -/
inductive Role where
  | show_
  | pick
  deriving DecidableEq

inductive Stage where
  | comparing
  | answered
  | settled
  | isOver
  deriving DecidableEq

/-- The connection held for a machine, by its attempt. -/
structure Held where
  conn : Nat
  attempt : Nat
  stage : Stage
  deriving DecidableEq

/-- The comparisons under way with one machine, before their numbers. -/
structure Arriving where
  preferred : Nat := 0
  other : Nat := 0
  sent : Bool := false
  told : Bool := false
  deriving DecidableEq

def Arriving.count (arriving : Arriving) (preferred : Bool) (change : Nat → Nat) : Arriving :=
  if preferred then { arriving with preferred := change arriving.preferred }
  else { arriving with other := change arriving.other }

/-- Of two connections, the number is compared on the one the machine sorting first dialled. -/
def preferred (dialler listener : String) : Bool := decide (dialler < listener)

def keeps (role : Role) (ours theirs : String) : Bool :=
  match role with
  | .show_ => preferred ours theirs
  | .pick => preferred theirs ours

/-- A comparison under way, before its number. -/
structure Arrival where
  preferred : Bool
  attempt : Nat
  deriving DecidableEq

/-- What the board has on one machine. -/
structure Slot where
  held : Option Held := none
  arriving : Option Arriving := none
  deriving DecidableEq

/-- What a comparison that asks to send this machine's half is told. -/
inductive Verdict where
  | sends
  | givesUp
  | waits
  deriving DecidableEq

namespace Slot

variable (slot : Slot)

/-- One of the comparisons under way sent this machine's half, or ended with the service told. -/
def spent : Bool := slot.arriving.any fun arriving => arriving.sent || arriving.told

/-- Start an attempt, unless it could never be shown. -/
def begin_ (role : Role) (ours theirs : String) (attempts : Nat) : Option (Arrival × Slot) :=
  let preferred := keeps role ours theirs
  if slot.held.isSome || slot.spent then none
  else
    some (⟨preferred, attempts + 1⟩,
      { slot with arriving := some ((slot.arriving.getD {}).count preferred (· + 1)) })

/-- Count a comparison out; with the last one goes the record of what they sent. -/
def dropArrival (arrival : Arrival) : Slot :=
  match slot.arriving with
  | none => slot
  | some arriving =>
    let arriving := arriving.count arrival.preferred (· - 1)
    { slot with
      arriving := if arriving.preferred = 0 ∧ arriving.other = 0 then none else some arriving }

def maySend (arrival : Arrival) : Verdict × Slot :=
  match slot.arriving with
  | none => (.givesUp, slot)
  | some arriving =>
    if slot.held.isSome || arriving.sent || arriving.told then (.givesUp, slot)
    else if arrival.preferred || arriving.preferred == 0 then
      (.sends, { slot with arriving := some { arriving with sent := true } })
    else (.waits, slot)

/-- This comparison ended with the service told, which forgets the approval. -/
def told : Slot :=
  { slot with arriving := slot.arriving.map fun arriving => { arriving with told := true } }

/-- Hold the connection whose comparison finished; either way it is no longer arriving. -/
def hold (arrival : Arrival) (conn : Nat) : Bool × Slot :=
  if slot.held.isSome then (false, slot.dropArrival arrival)
  else
    (true, { slot with held := some ⟨conn, arrival.attempt, .comparing⟩ }.dropArrival arrival)

/-- Dropping a ticket releases what it holds. -/
def release (attempt : Nat) : Slot :=
  if slot.held.any fun held => held.attempt == attempt then { slot with held := none } else slot

/-- The stage of an attempt: over once another took its place. -/
def stage (attempt : Nat) : Stage :=
  match slot.held with
  | some held => if held.attempt = attempt then held.stage else .isOver
  | none => .isOver

def advance (source target : Stage) : Slot :=
  { slot with
    held := slot.held.map fun held =>
      if held.stage = source then { held with stage := target } else held }

def answered : Slot := slot.advance .comparing .answered

def settled : Slot := slot.advance .answered .settled

/-- End the attempt held, closing its connection. -/
def end_ : Slot :=
  { slot with held := slot.held.map fun held => { held with stage := .isOver } }

end Slot

/-! ## Which connection is kept -/

theorem keeps_agree (dialler listener : String) :
    keeps .show_ dialler listener = keeps .pick listener dialler :=
  rfl

/-- Of the two directions between two machines exactly one is kept. -/
theorem preferred_one {ours theirs : String} (distinct : ours ≠ theirs) :
    preferred ours theirs = !preferred theirs ours := by
  unfold preferred
  rcases lt_trichotomy ours theirs with less | same | greater
  · simp [less, not_lt.mpr (le_of_lt less)]
  · exact absurd same distinct
  · simp [greater, not_lt.mpr (le_of_lt greater)]

end HopsFormal.Pairing
