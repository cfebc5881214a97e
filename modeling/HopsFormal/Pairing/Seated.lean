import HopsFormal.Pairing.Approved
import HopsFormal.Pairing.Network
import HopsFormal.Trust.Persistence

/-!
# Two machines that approved each other

Two machines approve each other and have one connection between them: the run in
which their comparison reaches its number, and the one in which both people pick it.
-/

namespace HopsFormal.Pairing

open Lib Trust TrustStore MatchCode

def Side.each {α : Type*} (left right : α) : Side → α
  | .left => left
  | .right => right

/-- A machine that approved `fp` and whose first comparison, with it, reached its number. -/
def heldMachine (store : TrustStore) (fp : Fingerprint) (role : Role) (number : String) :
    Machine where
  store := approvedStore store fp
  attempts := 1
  talks := Function.update (fun _ => {}) fp
    { slot := { held := some ⟨0, 1, .comparing⟩ }
      tasks := Function.update (fun _ => none) 0 (some ⟨role, .holding ⟨1, none⟩ number⟩)
      approved := true }
  queue := [(fp, ⟨1, .number role number 1 none⟩)]

/-- A number is what a person types. -/
theorem trim_code [Sha256] (exporter : Bytes) (a b : String) (nonceI nonceR : Bytes) :
    trim (code exporter a b nonceI nonceR) = code exporter a b nonceI nonceR := by
  refine trim_of_plain fun c member => ?_
  have digit := (code_sixDigits exporter a b nonceI nonceR).2 c member
  simp only [Char.isDigit, Bool.and_eq_true, decide_eq_true_eq] at digit
  have low : 48 ≤ c.toNat := digit.1
  have high : c.toNat ≤ 57 := digit.2
  simp only [isWhitespace, Bool.or_eq_false_iff, Bool.and_eq_false_iff, decide_eq_false_iff_not,
    beq_eq_false_iff_ne]
  omega

/-- Both approve, the left dials, and the comparison runs to its number on both ends. -/
def bothHold [Sha256] (pair : Pair) (nonceI nonceR : Bytes) : List NetAct :=
  let number := code (pair.exporter 0) (pair.name .left).1 (pair.name .right).1 nonceI nonceR
  [.machine .left (.approve (pair.peer .left).1 0 "" .both false true),
    .machine .right (.approve (pair.peer .right).1 0 "" .both false true),
    .machine .left (.dial (pair.peer .left) 0), .machine .right (.accept (pair.peer .right) 0 0),
    .commit 0 nonceR, .readCommitment 0,
    .machine .left (.task (pair.peer .left) 0 (.maySend false)), .sendNonce 0 nonceI,
    .readNonce 0, .machine .right (.task (pair.peer .right) 0 (.maySend false)), .reveal 0,
    .readReveal 0, .machine .left (.task (pair.peer .left) 0 (.compared number none)),
    .machine .right (.task (pair.peer .right) 0 (.compared number none))]

/-- From a number on both ends, both people pick it and the added machine settles. -/
def bothConfirm (pair : Pair) (number : String) : List NetAct :=
  [.machine .left (.dequeue 0 true), .machine .right (.dequeue 0 true),
    .machine .left (.confirmPairing (pair.peer .left).1 number),
    .machine .right (.confirmPairing (pair.peer .right).1 number),
    .machine .left (.task (pair.peer .left) 0 .look),
    .machine .right (.task (pair.peer .right) 0 .look),
    .machine .left (.task (pair.peer .left) 0 .greet),
    .machine .right (.task (pair.peer .right) 0 (.hear true)),
    .machine .right (.dequeue 0 true), .machine .right (.task (pair.peer .right) 0 .look),
    .answer 0 .hello, .machine .left (.task (pair.peer .left) 0 (.hear true))]

section Runs

variable [Lowercase] [Sha256] {pair : Pair} {stores : Side → TrustStore}

attribute [local simp] Net.start Net.step Net.allows Net.perform Net.compare Net.consents Net.phase
  Net.talk Net.onLine Pair.dials Pair.role Side.other Machine.start Machine.step Machine.request
  Machine.atDesk Machine.desk Machine.arrive Desk.addAuthorizedKey Desk.handle
  Desk.showPairingNumber Desk.answerPairing Desk.settlePairing Talk.begin_ Talk.act Talk.setTask
  Talk.reach Talk.phaseAt Slot.begin_ Slot.spent Slot.maySend Slot.hold Slot.dropArrival
  Slot.answered Slot.settled Slot.advance Slot.stage Slot.release Arriving.count Phase.isArriving
  Phase.isSent Phase.listens Fingerprint.of_valid isPairing_approved capabilities_approved
  waiting_approved

attribute [local simp] Line.commit Line.readCommitment Line.sendNonce Line.readNonce Line.reveal
  Line.readReveal Line.asks Line.go Line.nonces Line.greet Line.hear Line.frames Line.answer
  Pair.number opens_commitment

theorem bothHold_held (dialled : pair.dialler 0 = .left)
    (unknown : ∀ side, (stores side).entries[(pair.peer side).1]? = none) {nonceI nonceR : Bytes}
    {number : String}
    (is : number = code (pair.exporter 0) (pair.name .left).1 (pair.name .right).1 nonceI nonceR) :
    (bothHold pair nonceI nonceR).foldl (Net.step pair) (.start stores) =
      ⟨Side.each (heldMachine (stores .left) (pair.peer .left) .show_ number)
          (heldMachine (stores .right) (pair.peer .right) .pick number),
        Function.update (fun _ => {}) 0
          { initiator := .opened nonceI nonceR, responder := .revealed nonceR nonceI }⟩ := by
  subst is
  have here := issueAnswered_unknown (unknown .left)
  have there := issueAnswered_unknown (unknown .right)
  have same := code_comm (pair.exporter 0) (pair.name .right).1 (pair.name .left).1 nonceI nonceR
  cases kept : keeps .show_ (stores .left).ours (pair.peer .left).1 <;>
    cases kept' : keeps .pick (stores .right).ours (pair.peer .right).1
  all_goals
    simp [bothHold, dialled, here, there, kept, kept', same]
    funext side
    cases side <;> simp [Side.each, heldMachine]

theorem bothConfirm_settles (dialled : pair.dialler 0 = .left)
    (unknown : ∀ side, (stores side).entries[(pair.peer side).1]? = none) {nonceI nonceR : Bytes}
    {number : String}
    (is : number = code (pair.exporter 0) (pair.name .left).1 (pair.name .right).1 nonceI nonceR) :
    ∃ past step,
      trace (Net.step pair) (.start stores)
        (bothHold pair nonceI nonceR ++ bothConfirm pair number ++
          [.machine .left (.dequeue 0 true)]) = past ++ [step] ∧
      (step.1.machine .left).store.waiting (pair.peer .left).1 = some false ∧
      ((step.1.step pair step.2).machine .left).store.waiting (pair.peer .left).1 = some true := by
  have plain : trim number = number := by
    rw [is]
    exact trim_code ..
  have confirms : ∀ side, ∃ next, (approvedStore (stores side) (pair.peer side)).confirm
      (pair.peer side).1 = .ok next := by
    intro side
    simp [confirm, key_of_valid (pair.peer side).2, leaseAt, approvedStore, setLease]
  obtain ⟨_, here⟩ := confirms .left
  obtain ⟨_, there⟩ := confirms .right
  have confirmed := (waiting_confirm (pair.peer .left).2 here).2
  refine ⟨_, _, trace_append _ _ _ _, ?_, ?_⟩
  · rw [List.foldl_append, bothHold_held dialled unknown is]
    simp [bothConfirm, heldMachine, Side.each, dialled, plain, there]
  · rw [List.foldl_append, bothHold_held dialled unknown is]
    simp [bothConfirm, heldMachine, Side.each, dialled, plain, here, there, confirmed]

end Runs

/-! ## Two machines for examples -/

def twoMachines : Pair where
  name := Side.each ⟨machineA, machineA_valid⟩ ⟨machineB, machineB_valid⟩
  distinct := by
    simp only [Side.each, ne_eq, Subtype.mk.injEq]
    decide
  dialler _ := .left
  exporter _ := List.replicate 32 7

def emptyStore (fp : Fingerprint) : TrustStore := ⟨fp.1, ⟨0⟩, ∅, ∅, fp.2⟩

theorem formed_empty [Lowercase] (fp : Fingerprint) : Formed (emptyStore fp) :=
  formed_new (new_of_valid fp.2 0)

theorem driven_empty (fp : Fingerprint) : Driven (emptyStore fp) := by
  simp [Driven, leaseAt, emptyStore]

end HopsFormal.Pairing
