import HopsFormal.Pairing.Board
import HopsFormal.Trust.Effects

/-!
# One machine while it pairs

A task runs on every connection that reaches a machine mid-pairing.  Tasks
share the board, tell the service what happened through one queue, and the
service, which alone writes the store, answers through the board.  Between two
awaits a task runs alone, so each step below is one such stretch.

A task reads nothing of a connection but whether it closed and what arrived on
it; both are given by the step.  Left out are the add dial and the notices,
which no answer here depends on.
-/

namespace HopsFormal.Pairing

open Trust

/-! ## What the other machine answered -/

/-- Which way control goes, as one machine tells the other: at least one way. -/
structure Answer where
  controls : Bool
  controlled : Bool
  some_way : (controls || controlled) = true
  deriving DecidableEq

namespace Answer

/-- One read off the wire: only the two bits, and at least one of them. -/
def fromWire : Nat → Option Answer
  | 1 => some ⟨true, false, rfl⟩
  | 2 => some ⟨false, true, rfl⟩
  | 3 => some ⟨true, true, rfl⟩
  | _ => none

/-- Control can go some way both answers allow. -/
def agreesWith (ours theirs : Answer) : Bool :=
  (ours.controls && theirs.controlled) || (ours.controlled && theirs.controls)

/-- The answer the approval here gave, while it waits for its number. -/
def here [Lowercase] (store : TrustStore) (reading : Nat) (fingerprint : String) :
    Option Answer :=
  let awaits (drive : Caps) : Bool :=
    match store.entries[key fingerprint]? with
    | some entry => (awaitingConfirmation entry store.ours (store.now reading)).contains drive
    | none => false
  fromWire ((if awaits .iMayDrive then 1 else 0) + (if awaits .driveMe then 2 else 0))

end Answer

/-! ## Why a comparison fails -/

inductive CeremonyError where
  | notSupported
  | noExporter
  | noRandomness
  | commitmentBroken
  | io (text : String)
  | heldBack
  | late (error : CeremonyError)
  deriving DecidableEq

namespace CeremonyError

/-- The other machine may already know the number. -/
def isLate : CeremonyError → Bool
  | .late _ => true
  | _ => false

def describe : CeremonyError → String
  | .notSupported => "peer did not take part in the match ceremony"
  | .noExporter => "no keying material from this connection"
  | .noRandomness => "no randomness available on this machine"
  | .commitmentBroken =>
    "the revealed nonce did not open the commitment — no number can be shown"
  | .io text => text
  | .heldBack =>
    "this machine's half was held back for another comparison with the same machine"
  | .late error => error.describe ++ ", after this machine's half was sent"

end CeremonyError

/-- Why an attempt ended without pairing. -/
inductive Why where
  | noComparison
  | closed
  | timedOut
  | deviceGone
  | unexpected
  | failed (text : String)
  deriving DecidableEq

/-- What a comparison that produced no number means for the attempt. -/
def beforeNumber (closed : Bool) (error : CeremonyError) : Option Why :=
  if closed then
    if error.isLate then some .closed else none
  else
    match error with
    | .notSupported => some .noComparison
    | .late error => some (.failed error.describe)
    | error => some (.failed error.describe)

/-- What a held attempt tells the service. -/
inductive PairingEvent where
  | number (role : Role) (number : String) (attempt : Nat) (theirs : Option Answer)
  | peerConfirmed
  | ended (why : Why) (attempt : Nat)
  deriving DecidableEq

/-- An event on its way to the service, and the attempt that told it. -/
structure Told where
  by_ : Nat
  event : PairingEvent
  deriving DecidableEq

/-! ## The task of one connection -/

/-- One held attempt. -/
structure Ticket where
  attempt : Nat
  theirs : Option Answer
  deriving DecidableEq

/-- Where a task waits.  From `holding` on it has told the service its number. -/
inductive Phase where
  | arriving (arrival : Arrival)
  | sent (arrival : Arrival)
  | holding (ticket : Ticket) (number : String)
  | answered (ticket : Ticket) (number : String)
  | greeted (ticket : Ticket) (number : String)
  | confirmed (ticket : Ticket) (number : String)
  | paired
  | isOver
  deriving DecidableEq

structure Task where
  role : Role
  phase : Phase
  deriving DecidableEq

/-- The number on screen here, and what became of it. -/
structure Ceremony where
  role : Role
  attempt : Nat
  number : String
  answered : Bool
  disagree : Option (Answer × Answer)
  deriving DecidableEq

/-- Everything a machine holds about one other while they pair. -/
structure Talk where
  slot : Slot := {}
  tasks : Nat → Option Task := fun _ => none
  ceremony : Option Ceremony := none
  approved : Bool := false

/-- What cuts a wait short. -/
inductive Cause where
  | closed
  | timedOut
  | deviceGone
  | unexpected
  deriving DecidableEq

/-- What happens on one connection. -/
inductive TaskAct where
  | maySend (closed : Bool)
  | failed (error : CeremonyError) (closed : Bool)
  | compared (number : String) (theirs : Option Nat)
  | look
  | interrupted (cause : Cause)
  | greet
  | hear (hello : Bool)
  deriving DecidableEq

/-- The errors a comparison can end with before this machine's half, and after it. -/
def CeremonyError.possible (sent : Bool) (role : Role) : CeremonyError → Bool
  | .late _ => sent
  | .heldBack | .commitmentBroken => false
  | .noRandomness => sent == (role == .show_)
  | .notSupported | .noExporter | .io _ => !sent

/-- Which causes end which waits: only the adding machine's waits look at its device. -/
def Cause.possible (role : Role) : Phase → Cause → Bool
  | .holding .., .deviceGone | .confirmed .., .deviceGone => role == .show_
  | _, .deviceGone => false
  | .answered .., .unexpected | .greeted .., .unexpected => true
  | _, .unexpected => false
  | _, _ => true

namespace Talk

variable (talk : Talk)

def setTask (conn : Nat) (role : Role) (phase : Phase) : Talk :=
  { talk with tasks := Function.update talk.tasks conn (some ⟨role, phase⟩) }

/-- A connection with one task: it takes this machine's place, or is closed as busy. -/
def begin_ (role : Role) (ours theirs : String) (conn attempts : Nat) : Talk × Nat :=
  match talk.tasks conn with
  | some _ => (talk, attempts)
  | none =>
    match talk.slot.begin_ role ours theirs attempts with
    | none => (talk.setTask conn role .isOver, attempts)
    | some (arrival, slot) =>
      (({ talk with slot }).setTask conn role (.arriving arrival), attempts + 1)

/-- The comparison is counted out with nothing said. -/
def leave (conn : Nat) (role : Role) (arrival : Arrival) : Talk × List Told :=
  (({ talk with slot := talk.slot.dropArrival arrival }).setTask conn role .isOver, [])

/-- The comparison failed: the service is told when there is something to say. -/
def fail (conn : Nat) (role : Role) (arrival : Arrival) (why : Option Why) : Talk × List Told :=
  match why with
  | none => talk.leave conn role arrival
  | some why =>
    (({ talk with slot := talk.slot.told.dropArrival arrival }).setTask conn role .isOver,
      [⟨arrival.attempt, .ended why arrival.attempt⟩])

/-- The attempt held on this connection ended; its ticket goes. -/
def finish (conn : Nat) (role : Role) (ticket : Ticket) (why : Option Why) : Talk × List Told :=
  (({ talk with slot := talk.slot.release ticket.attempt }).setTask conn role .isOver,
    match why with
    | none => []
    | some why => [⟨ticket.attempt, .ended why ticket.attempt⟩])

/-- Why an attempt ended whose wait was cut short: nothing to say when it was ended here. -/
def whyCut (ticket : Ticket) : Cause → Option Why
  | .closed => if talk.slot.stage ticket.attempt = .isOver then none else some .closed
  | .timedOut => some .timedOut
  | .deviceGone => some .deviceGone
  | .unexpected => some .unexpected

/-- The comparison reached its number: hold the connection and say so. -/
def reach (conn : Nat) (role : Role) (arrival : Arrival) (number : String) (theirs : Option Nat) :
    Talk × List Told :=
  match talk.slot.hold arrival conn with
  | (false, slot) => (({ talk with slot }).setTask conn role .isOver, [])
  | (true, slot) =>
    let ticket : Ticket := ⟨arrival.attempt, theirs.bind Answer.fromWire⟩
    (({ talk with slot }).setTask conn role (.holding ticket number),
      [⟨arrival.attempt, .number role number arrival.attempt ticket.theirs⟩])

/-- One stretch of the task on `conn`. -/
def act (conn : Nat) (act : TaskAct) : Talk × List Told :=
  match talk.tasks conn with
  | none => (talk, [])
  | some ⟨role, phase⟩ =>
    match act, phase with
    | .maySend closed, .arriving arrival =>
      match talk.slot.maySend arrival with
      | (.sends, slot) => (({ talk with slot }).setTask conn role (.sent arrival), [])
      | (.givesUp, _) => talk.leave conn role arrival
      | (.waits, _) => if closed then talk.leave conn role arrival else (talk, [])
    | .failed error closed, .arriving arrival =>
      if error.possible false role then
        talk.fail conn role arrival (beforeNumber closed error)
      else (talk, [])
    | .failed error closed, .sent arrival =>
      if error.possible true role then
        talk.fail conn role arrival (beforeNumber closed error)
      else (talk, [])
    | .compared number theirs, .sent arrival => talk.reach conn role arrival number theirs
    | .look, .holding ticket number =>
      match talk.slot.stage ticket.attempt with
      | .answered => (talk.setTask conn role (.answered ticket number), [])
      | .isOver => talk.finish conn role ticket none
      | _ => (talk, [])
    | .look, .answered ticket _ | .look, .greeted ticket _ =>
      if talk.slot.stage ticket.attempt = .isOver then talk.finish conn role ticket none
      else (talk, [])
    | .look, .confirmed ticket _ =>
      match talk.slot.stage ticket.attempt with
      | .settled =>
        (({ talk with slot := talk.slot.release ticket.attempt }).setTask conn role .paired, [])
      | .isOver => talk.finish conn role ticket none
      | _ => (talk, [])
    | .interrupted cause, .holding ticket _ | .interrupted cause, .answered ticket _
    | .interrupted cause, .greeted ticket _ | .interrupted cause, .confirmed ticket _ =>
      if cause.possible role phase then
        talk.finish conn role ticket (talk.whyCut ticket cause)
      else (talk, [])
    | .greet, .answered ticket number =>
      if role = .show_ then (talk.setTask conn role (.greeted ticket number), [])
      else (talk, [])
    | .hear hello, .answered ticket number =>
      if role = .show_ then (talk, [])
      else if hello then
        (talk.setTask conn role (.confirmed ticket number), [⟨ticket.attempt, .peerConfirmed⟩])
      else talk.finish conn role ticket (some .unexpected)
    | .hear hello, .greeted ticket number =>
      if hello then
        (talk.setTask conn role (.confirmed ticket number), [⟨ticket.attempt, .peerConfirmed⟩])
      else talk.finish conn role ticket (some .unexpected)
    | _, _ => (talk, [])

end Talk

/-! ## The service -/

section Lowercase

variable [Lowercase]

/-- The canonical form of what a request names. -/
def Fingerprint.of (spelled : String) : Option Fingerprint :=
  match found : canonicalFingerprint spelled with
  | none => none
  | some fp => some ⟨fp, canonical_valid found⟩

/-- The store, and what the service has on the machine it deals with. -/
structure Desk where
  store : TrustStore
  talk : Talk

namespace Desk

/-- Close the attempt held, if any, and take its number off screen. -/
def endCeremony (desk : Desk) : Desk :=
  { desk with talk := { desk.talk with slot := desk.talk.slot.end_, ceremony := none } }

/-- Drop the lease an approval here issued, if it was never confirmed. -/
def forgetPairing (desk : Desk) (fp : Fingerprint) : Desk where
  store := (desk.store.forgetUnconfirmed fp.1).2
  talk := { desk.talk with approved := false }

/-- Both machines arrived at a number: put it in front of the person here. -/
def showPairingNumber (desk : Desk) (fp : Fingerprint) (reading : Nat) (randomness : Bool)
    (role : Role) (number : String) (attempt : Nat) (theirs : Option Answer) : Desk :=
  if !desk.store.isPairing reading fp.1 then desk.endCeremony
  else if role = .pick ∧ !randomness then (desk.endCeremony).forgetPairing fp
  else
    let ours := Answer.here desk.store reading fp.1
    let disagree := (ours.bind fun ours => theirs.map fun theirs => (ours, theirs)).filter
      fun answers => !answers.1.agreesWith answers.2
    { desk with
      talk := { desk.talk with ceremony := some ⟨role, attempt, number, false, disagree⟩ } }

/-- The person here answered the number; another number ends the attempt. -/
def answerPairing (desk : Desk) (fp : Fingerprint) (number : String) : Desk :=
  match desk.talk.ceremony with
  | none => desk
  | some ceremony =>
    if ceremony.answered then desk
    else if trim number ≠ ceremony.number then (desk.endCeremony).forgetPairing fp
    else if ceremony.disagree.isSome then (desk.endCeremony).forgetPairing fp
    else
      { desk with
        talk :=
          { desk.talk with
            slot := desk.talk.slot.answered
            ceremony := some { ceremony with answered := true } } }

/-- The one door that makes an approval grant. -/
def settlePairing (desk : Desk) (fp : Fingerprint) : Desk :=
  if !desk.talk.ceremony.any Ceremony.answered then (desk.endCeremony).forgetPairing fp
  else
    match desk.store.confirm fp.1 with
    | .error _ => (desk.endCeremony).forgetPairing fp
    | .ok store =>
      { store
        talk :=
          { desk.talk with
            slot := desk.talk.slot.settled
            ceremony := none
            approved := false } }

/-- An attempt ended on its own; the pairing goes on if another is on screen. -/
def pairingEnded (desk : Desk) (fp : Fingerprint) (attempt : Nat) : Desk :=
  if desk.talk.ceremony.any fun ceremony => ceremony.attempt != attempt then desk
  else ({ desk with talk := { desk.talk with ceremony := none } }).forgetPairing fp

def cancelPairing (desk : Desk) (fp : Fingerprint) : Desk := (desk.endCeremony).forgetPairing fp

/-- The machine is forgotten, and a pairing under way with it ends too. -/
def forgetMachine (desk : Desk) (fp : Fingerprint) : Desk :=
  endCeremony
    { store := (desk.store.forget fp.1).2
      talk := { desk.talk with approved := false } }

/-- That machine closed a link because it removed this one. -/
def removedBy (desk : Desk) (fp : Fingerprint) : Desk :=
  if desk.store.entries.contains (key fp.1) then desk.forgetMachine fp else desk

/-- An approval whose pairing showed no number within the window. -/
def forgetUnstarted (desk : Desk) (fp : Fingerprint) : Desk :=
  if desk.talk.approved && desk.talk.ceremony.isNone then desk.forgetPairing fp else desk

/-- The grant a prompt makes, when one from this machine waits. -/
def addAuthorizedKey (desk : Desk) (fp : Fingerprint) (reading : Nat) (label : String)
    (controller : Controller) (clipboard prompted : Bool) : Desk :=
  if !prompted then desk
  else
    match desk.store.issueAnswered reading fp.1 label controller clipboard with
    | .error _ => desk
    | .ok store =>
      { store
        talk :=
          if store.isPairing reading fp.1 then { desk.talk with approved := true }
          else desk.talk }

def handle (desk : Desk) (fp : Fingerprint) (reading : Nat) (randomness : Bool) :
    PairingEvent → Desk
  | .number role number attempt theirs =>
    desk.showPairingNumber fp reading randomness role number attempt theirs
  | .peerConfirmed => desk.settlePairing fp
  | .ended _ attempt => desk.pairingEnded fp attempt

end Desk

/-! ## The machine -/

structure Machine where
  store : TrustStore
  attempts : Nat
  talks : Fingerprint → Talk
  queue : List (Fingerprint × Told)

/-- What a machine does next. -/
inductive Act where
  | accept (fp : Fingerprint) (conn reading : Nat)
  | dial (fp : Fingerprint) (conn : Nat)
  | task (fp : Fingerprint) (conn : Nat) (act : TaskAct)
  | dequeue (reading : Nat) (randomness : Bool)
  | approve (spelled : String) (reading : Nat) (label : String) (controller : Controller)
      (clipboard prompted : Bool)
  | confirmPairing (spelled number : String)
  | cancelPairing (spelled : String)
  | remove (spelled : String)
  | removedBy (fp : Fingerprint)
  | forgetUnstarted (fp : Fingerprint)
  | setLabel (spelled label : String)
  | enableClipboard (reading : Nat) (spelled : String)
  | disableClipboard (spelled : String)
  | sweep (reading : Nat)

namespace Machine

/-- A machine that just started: what it was loaded with, and nothing under way. -/
def start (store : TrustStore) : Machine := ⟨store, 0, fun _ => {}, []⟩

variable (machine : Machine)

def desk (fp : Fingerprint) : Desk := ⟨machine.store, machine.talks fp⟩

/-- The machine once the service has dealt with `fp`. -/
def atDesk (fp : Fingerprint) (desk : Desk) : Machine :=
  { machine with store := desk.store, talks := Function.update machine.talks fp desk.talk }

/-- A request is about a canonical fingerprint, or changes nothing. -/
def request (spelled : String) (deal : Desk → Fingerprint → Desk) : Machine :=
  match Fingerprint.of spelled with
  | none => machine
  | some fp => machine.atDesk fp (deal (machine.desk fp) fp)

def arrive (fp : Fingerprint) (conn : Nat) (role : Role) : Machine :=
  let begun := (machine.talks fp).begin_ role machine.store.ours fp.1 conn machine.attempts
  { machine with attempts := begun.2, talks := Function.update machine.talks fp begun.1 }

def step : Act → Machine
  | .accept fp conn reading =>
    if !(machine.store.capabilities reading fp.1).contains .driveMe &&
        machine.store.isPairing reading fp.1 then
      machine.arrive fp conn .pick
    else machine
  | .dial fp conn => machine.arrive fp conn .show_
  | .task fp conn act =>
    let done := (machine.talks fp).act conn act
    { machine with
      talks := Function.update machine.talks fp done.1
      queue := machine.queue ++ done.2.map fun told => (fp, told) }
  | .dequeue reading randomness =>
    match machine.queue with
    | [] => machine
    | (fp, told) :: rest =>
      ({ machine with queue := rest }).atDesk fp
        ((machine.desk fp).handle fp reading randomness told.event)
  | .approve spelled reading label controller clipboard prompted =>
    machine.request spelled fun desk fp =>
      desk.addAuthorizedKey fp reading label controller clipboard prompted
  | .confirmPairing spelled number =>
    machine.request spelled fun desk fp => desk.answerPairing fp number
  | .cancelPairing spelled => machine.request spelled Desk.cancelPairing
  | .remove spelled => machine.request spelled Desk.forgetMachine
  | .removedBy fp => machine.atDesk fp ((machine.desk fp).removedBy fp)
  | .forgetUnstarted fp => machine.atDesk fp ((machine.desk fp).forgetUnstarted fp)
  | .setLabel spelled label => { machine with store := machine.store.step (.setLabel spelled label) }
  | .enableClipboard reading spelled =>
    { machine with store := machine.store.step (.enableClipboard reading spelled) }
  | .disableClipboard spelled =>
    { machine with store := machine.store.step (.disableClipboard spelled) }
  | .sweep reading => { machine with store := machine.store.step (.sweep reading) }

def run (acts : List Act) : Machine := acts.foldl step machine

end Machine

end Lowercase

end HopsFormal.Pairing
