import HopsFormal.Frontend.AppModel
import HopsFormal.Trust.Caps
import HopsFormal.Trust.Identity

/-!
# The card of a pairing request

The card shows one of the machines that wait, and keeps it while its request is
live.  A click counts for the machine on the card alone, and only once the card has
shown it for a second; what a person answered on the card goes when the machine on
it changes.  The desk is a person's screen: the model, the card, the answers, and a
record of what was asked, shown and answered.
-/

namespace HopsFormal.Frontend

open Prompts (AttemptOrigin)
open Trust (Controller trim)

/-- Why an approval is refused. -/
inductive ApprovalRefused where
  | notOnScreen
  | justChanged
  | noController

/-- The approval that is sent to the daemon. -/
structure AuthorizeKey where
  label : String
  fingerprint : String
  controller : Controller
  clipboard : Bool

/-- What to call a machine that was approved without a name. -/
def fallbackLabel (fp : String) : String :=
  if fp = "" then "unnamed device" else shortFingerprint fp

/-- An approval says which machine is in control; that is never assumed. -/
def approvalRequest (fingerprint name : String) (controller : Option Controller)
    (clipboard : Bool) : Except ApprovalRefused AuthorizeKey :=
  match controller with
  | none => .error .noController
  | some controller =>
    let label := if trim name = "" then fallbackLabel fingerprint else trim name
    .ok ⟨label, fingerprint, controller, clipboard⟩

/-! ## The answers -/

/-- What was answered on the card, for one machine. -/
structure PairingAnswers where
  fingerprint : Option String
  controller : Option Controller
  clipboard : Bool

/-- Something a person answers: who is in control, or whether to share the clipboard. -/
inductive CardAnswer where
  | controller (controller : Controller)
  | clipboard (share : Bool)

namespace PairingAnswers

def unanswered : PairingAnswers := ⟨none, none, false⟩

variable (answers : PairingAnswers)

/-- The answers of the card that shows a machine: those given for it, or none. -/
def forCard (fingerprint : String) : PairingAnswers :=
  if answers.fingerprint = some fingerprint then answers
  else { unanswered with fingerprint := some fingerprint }

def give : CardAnswer → PairingAnswers
  | .controller controller => { answers with controller := some controller }
  | .clipboard share => { answers with clipboard := share }

def approval (fingerprint name : String) : Except ApprovalRefused AuthorizeKey :=
  if answers.fingerprint = some fingerprint then
    approvalRequest fingerprint name answers.controller answers.clipboard
  else .error .notOnScreen

end PairingAnswers

/-! ## The card -/

/-- The machine on screen, and since when. -/
structure PairingCard where
  shown : Option (String × Nat)

namespace PairingCard

/-- A request not repeated for this long is taken as abandoned. -/
def staleAfter : Nat := 12000

/-- How long a card must have shown a machine before approving it counts. -/
def armAfter : Nat := 1000

def blank : PairingCard := ⟨none⟩

variable {Addr : Type}

/-- Not permitted yet, repeated of late, and not denied. -/
def live (model : AppModel Addr) (now : Nat) (snoozed : String → Bool)
    (attempt : PairingAttempt Addr) : Bool :=
  !model.arrivalPermitted attempt.fingerprint (some attempt.origin) &&
    decide (now - attempt.since < staleAfter) && !snoozed attempt.fingerprint

variable (card : PairingCard)

/-- The request to show: that of the machine on screen while it is live, else the oldest. -/
def pick (model : AppModel Addr) (now : Nat) (snoozed : String → Bool) :
    Option (PairingAttempt Addr) :=
  ((model.pairingAttempts.filter (live model now snoozed)).find? fun attempt =>
      some attempt.fingerprint = card.shown.map Prod.fst).or
    (model.pairingAttempts.find? (live model now snoozed))

/-- Show a request, and note from when a machine has been on screen. -/
def «show» (model : AppModel Addr) (now : Nat) (snoozed : String → Bool) :
    Option (PairingAttempt Addr) × PairingCard :=
  let picked := card.pick model now snoozed
  match picked with
  | some attempt =>
    if some attempt.fingerprint = card.shown.map Prod.fst then (picked, card)
    else (picked, ⟨some (attempt.fingerprint, now)⟩)
  | none => (picked, ⟨none⟩)

/-- Whether approving a machine binds to the card on screen. -/
def approve (fingerprint : String) (now : Nat) : Except ApprovalRefused Unit :=
  match card.shown with
  | some (fp, since) =>
    if fp = fingerprint then
      if armAfter ≤ now - since then .ok () else .error .justChanged
    else .error .notOnScreen
  | none => .error .notOnScreen

end PairingCard

/-! ## The desk -/

/-- When a machine last asked, and which way. -/
structure Asked where
  origin : AttemptOrigin
  since : Nat
  deriving DecidableEq

/--
A person's screen, and what happened at it: `asked` is what each machine asks for and
has not been permitted since, `shows` and `given` are what the card showed and what
was answered on it, the latest first.
-/
structure Desk (Addr : Type) where
  model : AppModel Addr
  card : PairingCard
  answers : PairingAnswers
  clock : Nat
  asked : String → Option Asked
  shows : List (Nat × Option String)
  given : List (String × CardAnswer)

namespace Desk

variable {Addr : Type}

inductive Act (Addr : Type) where
  | event (event : FrontendEvent Addr) (now : Nat)
  | draw (now : Nat) (snoozed : String → Bool)
  | answer (answer : CardAnswer)

def opened : Desk Addr where
  model := .launched
  card := .blank
  answers := .unanswered
  clock := 0
  asked := fun _ => none
  shows := []
  given := []

/-- The machine the card showed when it was last drawn. -/
def onScreen (desk : Desk Addr) : Option String := desk.shows.head?.bind Prod.snd

/-- What a machine asks for once an event was heard, unless it is permitted by then. -/
def askedAfter (desk : Desk Addr) (event : FrontendEvent Addr) (now : Nat)
    (after : AppModel Addr) (fp : String) : Option Asked :=
  let heard : Option Asked :=
    match event with
    | .connectionAttempt fingerprint origin _ =>
      if fingerprint = fp ∧ desk.model.arrivalPermitted fp (some origin) = false then
        some ⟨origin, now⟩
      else desk.asked fp
    | _ => desk.asked fp
  heard.filter fun asked => !after.arrivalPermitted fp (some asked.origin)

variable [DecidableEq Addr]

@[grind =]
def step (desk : Desk Addr) : Act Addr → Desk Addr
  | .event event now =>
    let after := desk.model.apply event now
    { desk with
      model := after
      clock := now
      asked := desk.askedAfter event now after }
  | .draw now snoozed =>
    let drawn := desk.card.show desk.model now snoozed
    let fp := drawn.1.map PairingAttempt.fingerprint
    { desk with
      card := drawn.2
      clock := now
      answers := fp.elim desk.answers desk.answers.forCard
      shows := (now, fp) :: desk.shows }
  | .answer answer =>
    match desk.onScreen with
    | some fp =>
      { desk with
        answers := (desk.answers.forCard fp).give answer
        given := (fp, answer) :: desk.given }
    | none => desk

def run (acts : List (Act Addr)) : Desk Addr := acts.foldl step opened

end Desk

end HopsFormal.Frontend
