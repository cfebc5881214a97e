import HopsFormal.Pairing.Kept
import HopsFormal.Pairing.MatchCode

/-!
# Two machines and the connections between them

Each machine runs as before; a connection between the two carries the messages
of the comparison and the first frames of either machine, each stream in its
order.  A machine's task takes a step that needs a message only once the message
arrived, and a connection may go down at any time with all that is in flight.
-/

namespace HopsFormal.Pairing

open Trust TrustStore MatchCode

/-! ## One connection -/

/-- Where the dialler's half of the comparison stands. -/
inductive Initiator where
  | waiting
  | asked (commitment : Bytes)
  | going (commitment : Bytes)
  | nonced (commitment nonce : Bytes)
  | opened (nonce theirs : Bytes)
  deriving DecidableEq

/-- Where the listener's half of the comparison stands. -/
inductive Responder where
  | opening
  | committed (nonce : Bytes)
  | asked (nonce theirs : Bytes)
  | going (nonce theirs : Bytes)
  | revealed (nonce theirs : Bytes)
  deriving DecidableEq

inductive Message where
  | commitment (digest : Bytes)
  | nonce (bytes : Bytes)
  deriving DecidableEq

/-- The first frames a machine sends: its `Hello`, or another. -/
inductive Frame where
  | hello
  | other
  deriving DecidableEq

/-- A connection: both halves of the comparison, and what is on its way to either end. -/
structure Line where
  up : Bool := true
  initiator : Initiator := .waiting
  responder : Responder := .opening
  toInitiator : List Message := []
  toResponder : List Message := []
  framesIn : List Frame := []
  framesBack : List Frame := []
  deriving DecidableEq

namespace Line

section Sha256

variable [Sha256]

/-- The responder opens the stream and commits to its nonce. -/
def commit (line : Line) (exporter : Bytes) (mine theirs : String) (nonce : Bytes) : Line :=
  match line.responder with
  | .opening =>
    { line with
      responder := .committed nonce
      toInitiator := line.toInitiator ++
        if line.up then [.commitment (commitment exporter mine theirs nonce)] else [] }
  | _ => line

/-- The initiator reads the reveal, and goes on only if it opens the commitment. -/
def readReveal (line : Line) (exporter : Bytes) (mine theirs : String) : Line :=
  match line.initiator, line.toInitiator with
  | .nonced received nonce, .nonce revealed :: rest =>
    if opens received exporter mine theirs revealed then
      { line with initiator := .opened nonce revealed, toInitiator := rest }
    else { line with toInitiator := rest }
  | _, _ => line

end Sha256

variable (line : Line)

def readCommitment : Line :=
  match line.initiator, line.toInitiator with
  | .waiting, .commitment digest :: rest =>
    { line with initiator := .asked digest, toInitiator := rest }
  | _, _ => line

def sendNonce (nonce : Bytes) : Line :=
  match line.initiator with
  | .going received =>
    { line with
      initiator := .nonced received nonce
      toResponder := line.toResponder ++ if line.up then [.nonce nonce] else [] }
  | _ => line

def readNonce : Line :=
  match line.responder, line.toResponder with
  | .committed nonce, .nonce theirs :: rest =>
    { line with responder := .asked nonce theirs, toResponder := rest }
  | _, _ => line

def reveal : Line :=
  match line.responder with
  | .going nonce theirs =>
    { line with
      responder := .revealed nonce theirs
      toInitiator := line.toInitiator ++ if line.up then [.nonce nonce] else [] }
  | _ => line

/-- The half of one end waits for its machine to let it send. -/
def asks (dials : Bool) : Bool :=
  if dials then
    match line.initiator with
    | .asked _ => true
    | _ => false
  else
    match line.responder with
    | .asked _ _ => true
    | _ => false

/-- One end is let send. -/
def go (dials : Bool) : Line :=
  if dials then
    match line.initiator with
    | .asked received => { line with initiator := .going received }
    | _ => line
  else
    match line.responder with
    | .asked nonce theirs => { line with responder := .going nonce theirs }
    | _ => line

/-- The two nonces, the initiator's first, once one end has both and told its own. -/
def nonces (dials : Bool) : Option (Bytes × Bytes) :=
  if dials then
    match line.initiator with
    | .opened nonce theirs => some (nonce, theirs)
    | _ => none
  else
    match line.responder with
    | .revealed nonce theirs => some (theirs, nonce)
    | _ => none

/-- What was let go is on its way, or was read. -/
def gone (dials : Bool) : Bool :=
  if dials then
    match line.initiator with
    | .going _ | .nonced _ _ | .opened _ _ => true
    | _ => false
  else
    match line.responder with
    | .going _ _ | .revealed _ _ => true
    | _ => false

/-- The adding machine's first frames. -/
def greet : Line :=
  { line with framesIn := line.framesIn ++ if line.up then [.hello, .other] else [] }

/-- A frame of the machine that was added. -/
def answer (frame : Frame) : Line :=
  { line with framesBack := line.framesBack ++ if line.up then [frame] else [] }

def frames (dials : Bool) : List Frame :=
  if dials then line.framesBack else line.framesIn

def hear (dials : Bool) : Line :=
  if dials then { line with framesBack := line.framesBack.tail }
  else { line with framesIn := line.framesIn.tail }

/-- The connection goes down, with all that is in flight. -/
def cut : Line :=
  { line with up := false, toInitiator := [], toResponder := [], framesIn := [], framesBack := [] }

end Line

/-! ## The two machines -/

inductive Side where
  | left
  | right
  deriving DecidableEq

def Side.other : Side → Side
  | .left => .right
  | .right => .left

/-- Who the two machines are, which of them dialled each connection, and its keying material. -/
structure Pair where
  name : Side → Fingerprint
  distinct : name .left ≠ name .right
  dialler : Nat → Side
  exporter : Nat → Bytes

structure Net where
  machine : Side → Machine
  line : Nat → Line

inductive NetAct where
  | machine (side : Side) (act : Act)
  | commit (conn : Nat) (nonce : Bytes)
  | readCommitment (conn : Nat)
  | sendNonce (conn : Nat) (nonce : Bytes)
  | readNonce (conn : Nat)
  | reveal (conn : Nat)
  | readReveal (conn : Nat)
  | answer (conn : Nat) (frame : Frame)
  | cut (conn : Nat)

def Phase.isArriving : Phase → Bool
  | .arriving _ => true
  | _ => false

/-- A task that waits for the other machine's first frame. -/
def Phase.listens (role : Role) : Phase → Bool
  | .answered _ _ => role == .pick
  | .greeted _ _ => true
  | _ => false

namespace Pair

variable (pair : Pair)

/-- The machine `side` pairs with. -/
def peer (side : Side) : Fingerprint := pair.name side.other

def dials (side : Side) (conn : Nat) : Bool := pair.dialler conn == side

/-- The half `side` does on a connection. -/
def role (side : Side) (conn : Nat) : Role := if pair.dials side conn then .show_ else .pick

def number [Sha256] (side : Side) (conn : Nat) (line : Line) : Option String :=
  (line.nonces (pair.dials side conn)).map fun nonces =>
    code (pair.exporter conn) (pair.name side).1 (pair.name side.other).1 nonces.1 nonces.2

end Pair

namespace Net

variable (pair : Pair)

/-- What `side` has about the other machine. -/
def talk (net : Net) (side : Side) : Talk := (net.machine side).talks (pair.peer side)

def phase (net : Net) (side : Side) (conn : Nat) : Phase := (net.talk pair side).phaseAt conn

section Sha256

variable [Sha256]

/-- A task's step needs what the connection brought it. -/
def consents (net : Net) (side : Side) (conn : Nat) : TaskAct → Bool
  | .maySend _ => (net.phase pair side conn).isArriving && (net.line conn).asks (pair.dials side conn)
  | .compared number _ => pair.number side conn (net.line conn) == some number
  | .greet =>
    match net.phase pair side conn with
    | .answered _ _ => pair.dials side conn
    | _ => false
  | .hear hello =>
    (net.phase pair side conn).listens (pair.role side conn) &&
      ((net.line conn).frames (pair.dials side conn)).head? ==
        some (if hello then .hello else .other)
  | _ => true

/-- The dialler dials and the listener accepts; everything else a machine does alone. -/
def allows (net : Net) (side : Side) : Act → Bool
  | .dial fp conn => fp != pair.peer side || pair.dials side conn
  | .accept fp conn _ => fp != pair.peer side || !pair.dials side conn
  | .task fp conn act => fp != pair.peer side || net.consents pair side conn act
  | _ => true

end Sha256

/-- What a task's step does to its connection, by the phase it leads to. -/
def onLine (dials : Bool) (after : Phase) (line : Line) : TaskAct → Line
  | .maySend _ => if after.isSent then line.go dials else line
  | .greet => line.greet
  | .hear _ => line.hear dials
  | _ => line

section Lowercase

variable [Lowercase]

/-- The machine of `side` takes a step. -/
def perform (net : Net) (side : Side) (act : Act) : Net :=
  let machine := (net.machine side).step act
  { machine := Function.update net.machine side machine
    line :=
      match act with
      | .task fp conn act =>
        if fp = pair.peer side then
          Function.update net.line conn
            (onLine (pair.dials side conn) ((machine.talks fp).phaseAt conn) (net.line conn) act)
        else net.line
      | _ => net.line }

/-- One end's half of the comparison takes a step, while its task is where that step stands. -/
def compare (net : Net) (side : Side) (conn : Nat) (stands : Phase → Bool) (change : Line → Line) :
    Net :=
  if stands (net.phase pair side conn) then
    { net with line := Function.update net.line conn (change (net.line conn)) }
  else net

variable [Sha256]

def step (net : Net) : NetAct → Net
  | .machine side act => if net.allows pair side act then net.perform pair side act else net
  | .commit conn nonce =>
    let side := (pair.dialler conn).other
    net.compare pair side conn Phase.isArriving fun line =>
      line.commit (pair.exporter conn) (pair.name side).1 (pair.name side.other).1 nonce
  | .readCommitment conn =>
    net.compare pair (pair.dialler conn) conn Phase.isArriving Line.readCommitment
  | .sendNonce conn nonce =>
    net.compare pair (pair.dialler conn) conn Phase.isSent fun line => line.sendNonce nonce
  | .readNonce conn =>
    net.compare pair (pair.dialler conn).other conn Phase.isArriving Line.readNonce
  | .reveal conn => net.compare pair (pair.dialler conn).other conn Phase.isSent Line.reveal
  | .readReveal conn =>
    let side := pair.dialler conn
    net.compare pair side conn Phase.isSent fun line =>
      line.readReveal (pair.exporter conn) (pair.name side).1 (pair.name side.other).1
  | .answer conn frame =>
    net.compare pair (pair.dialler conn).other conn (· == .paired) fun line => line.answer frame
  | .cut conn => { net with line := Function.update net.line conn (net.line conn).cut }

/-- Two machines that just started, with no connection between them. -/
def start (stores : Side → TrustStore) : Net := ⟨fun side => .start (stores side), fun _ => {}⟩

end Lowercase

end Net

/-! ## What one machine's step leaves -/

section Perform

variable [Lowercase] {pair : Pair}

theorem perform_talk (net : Net) (side side' : Side) (act : Act) :
    (net.perform pair side act).talk pair side' =
      if side' = side then ((net.machine side).step act).talks (pair.peer side)
      else net.talk pair side' := by
  by_cases same : side' = side
  · subst same
    simp [Net.talk, Net.perform]
  · simp [Net.talk, Net.perform, same]

/-- A step that is no task's leaves the connections. -/
theorem perform_line {side : Side} {act : Act} (net : Net)
    (idle : ∀ conn task, act ≠ .task (pair.peer side) conn task) :
    (net.perform pair side act).line = net.line := by
  cases act with
  | task fp conn task =>
    have other : fp ≠ pair.peer side := by
      rintro rfl
      exact idle conn task rfl
    simp only [Net.perform, if_neg other]
  | _ => rfl

theorem perform_line_task (pair : Pair) (net : Net) (side : Side) (conn : Nat) (task : TaskAct) :
    (net.perform pair side (.task (pair.peer side) conn task)).line =
      Function.update net.line conn
        (Net.onLine (pair.dials side conn)
          (((net.talk pair side).act conn task).1.phaseAt conn) (net.line conn) task) := by
  simp [Net.perform, Machine.step, Net.talk]

theorem step_task_talk (machine : Machine) (fp : Fingerprint) (conn : Nat) (task : TaskAct) :
    (machine.step (.task fp conn task)).talks fp = ((machine.talks fp).act conn task).1 := by
  simp [Machine.step]

end Perform

end HopsFormal.Pairing
