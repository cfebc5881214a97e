import HopsFormal.Emulation.InputEmulation
import HopsFormal.Emulation.PeerQueues

/-!
# The receiving machine

Two tasks share the thread.  The listening task decides whether a message of a
connection may become input, and asks the emulation task for it over a channel;
the emulation task sorts what it is asked into one queue per peer and injects,
asking the trust store again before every event.  Connections are told apart by
their address.  A step of the machine is one turn of either task, a change of
the trust store, or a decision of the system about the emulation backend.
-/

namespace HopsFormal.Emulation

open Capture (Event PointerEvent KeyboardEvent)
open Lib

/-- The messages of a peer; those that only ask for an answer are `other`. -/
inductive Message (F : Type) where
  | enter
  | leave
  | input (event : Event F)
  | pointerMotionAbsolute (time : UInt32) (vx vy : F)
  | other
  deriving DecidableEq

/-- What the listener tells the listening task. -/
inductive ListenEvent (Addr F : Type) where
  | msg (message : Message F) (addr : Addr)
  | accept (addr : Addr) (fingerprint : String)
  | rejected (fingerprint : String) (addr : Addr)
  | closed (addr : Addr)
  | removedBy (fingerprint : String)
  deriving DecidableEq

/--
What the listening task asks of the emulation task.  An event carries the
number of the message it came from, a teardown the number of the step that
asked for it.
-/
inductive ProxyRequest (Addr F : Type) where
  | input (event : Event F) (addr : Addr) (peer : String) (source : Nat)
  | remove (addr : Addr) (asked : Nat)
  | terminate
  | reenable
  | stopForMissing
  deriving DecidableEq

/-- Where the emulation task stands. -/
inductive Phase (F : Type) where
  | waiting
  | starting
  | running (emulation : InputEmulation F)
  | stopped

/-- Both tasks of the machine; `pastCalls` is what the ended sessions told their backends. -/
structure Receiver (Addr F : Type) where
  peerOf : Table Addr String
  refused : List Addr
  driving : List Addr
  lastResponse : List Addr
  absmotion : Table Addr (F × F)
  listening : Bool
  emulationActive : Bool
  exitRequested : Bool
  requests : List (ProxyRequest Addr F)
  notices : List Bool
  phase : Phase F
  pastCalls : List (Call F)
  handles : Table Addr Handle
  nextId : Handle
  queued : PeerQueues Addr F
  mayDriveUs : String → Bool
  now : Nat

namespace Receiver

variable {Addr F E : Type} [DecidableEq Addr]

/-- A machine that has just started: nothing is connected and emulation is starting. -/
def start (mayDriveUs : String → Bool) : Receiver Addr F where
  peerOf := ∅
  refused := []
  driving := []
  lastResponse := []
  absmotion := ∅
  listening := true
  emulationActive := false
  exitRequested := false
  requests := []
  notices := []
  phase := .starting
  pastCalls := []
  handles := ∅
  nextId := 0
  queued := .empty
  mayDriveUs := mayDriveUs
  now := 0

/-! ## The proxy -/

def send (receiver : Receiver Addr F) (request : ProxyRequest Addr F) : Receiver Addr F :=
  { receiver with requests := receiver.requests ++ [request] }

/-- Ask for an event to be injected, unless emulation is switched off. -/
def proxyConsume (receiver : Receiver Addr F) (event : Event F) (addr : Addr) (peer : String) :
    Receiver Addr F :=
  if receiver.emulationActive then receiver.send (.input event addr peer receiver.now)
  else receiver

def proxyRemove (receiver : Receiver Addr F) (addr : Addr) : Receiver Addr F :=
  receiver.send (.remove addr receiver.now)

/-! ## The listening task -/

def without (addrs : List Addr) (addr : Addr) : List Addr := addrs.filter (· ≠ addr)

/-- May the peer admitted at an address inject input right now? -/
def inputPermitted (receiver : Receiver Addr F) (addr : Addr) : Bool :=
  (receiver.peerOf.lookup addr).any receiver.mayDriveUs

/--
Whose input this is, if the peer at an address may drive this machine right now.
If not, what it holds is released, once per refusal.
-/
def admitPeer (receiver : Receiver Addr F) (addr : Addr) : Option String × Receiver Addr F :=
  if receiver.inputPermitted addr then
    (receiver.peerOf.lookup addr, { receiver with refused := without receiver.refused addr })
  else if addr ∈ receiver.refused then (none, receiver)
  else (none, { receiver with refused := receiver.refused ++ [addr] }.proxyRemove addr)

/-- The way from the last absolute position of a peer to the next. -/
def absmotionDelta [Sub F] [Zero F] (receiver : Receiver Addr F) (addr : Addr) (vx vy : F) :
    F × F :=
  let (px, py) := (receiver.absmotion.lookup addr).getD (0, 0)
  (vx - px, vy - py)

section Listening

variable [Sub F] [Zero F] (receiver : Receiver Addr F)

/-- Handle a message; `listed` is whether the listener lists the address when asked. -/
def message (addr : Addr) (listed : Bool) : Message F → Receiver Addr F
  | .enter =>
    match receiver.admitPeer addr with
    | (none, admitted) => admitted
    | (some _, admitted) =>
      if listed then
        { admitted with
          absmotion := admitted.absmotion.insert addr (0, 0)
          driving := without admitted.driving addr ++ [addr] }
      else admitted
  | .leave =>
    { { receiver with driving := without receiver.driving addr }.proxyRemove addr with
      absmotion := receiver.absmotion.erase addr }
  | .input event =>
    match receiver.admitPeer addr with
    | (none, admitted) => admitted
    | (some peer, admitted) =>
      if addr ∈ admitted.driving then admitted.proxyConsume event addr peer else admitted
  | .pointerMotionAbsolute time vx vy =>
    match receiver.admitPeer addr with
    | (none, admitted) => admitted
    | (some peer, admitted) =>
      if addr ∈ admitted.driving then
        let (dx, dy) := admitted.absmotionDelta addr vx vy
        { admitted with absmotion := admitted.absmotion.insert addr (vx, vy) }.proxyConsume
          (.pointer (.motion time dx dy)) addr peer
      else admitted
  | .other => receiver

def listen (listed : Bool) : ListenEvent Addr F → Receiver Addr F
  | .msg message addr =>
    { receiver with
      lastResponse := without receiver.lastResponse addr ++ [addr] }.message addr listed message
  | .accept addr fingerprint =>
    { receiver with
      driving := without receiver.driving addr
      peerOf := receiver.peerOf.insert addr fingerprint }
  | .rejected _ _ => receiver
  | .removedBy _ => receiver
  | .closed addr =>
    { receiver.proxyRemove addr with
      absmotion := receiver.absmotion.erase addr
      refused := without receiver.refused addr
      driving := without receiver.driving addr
      lastResponse := without receiver.lastResponse addr
      peerOf := receiver.peerOf.erase addr }

/-- Let go of a peer that has not answered for too long. -/
def reap (addr : Addr) : Receiver Addr F :=
  if addr ∈ receiver.lastResponse then
    { receiver.proxyRemove addr with
      refused := without receiver.refused addr
      driving := without receiver.driving addr
      lastResponse := without receiver.lastResponse addr }
  else receiver

/-- Take what the emulation task says about itself. -/
def takeNotice : Receiver Addr F :=
  match receiver.notices with
  | [] => receiver
  | enabled :: rest => { receiver with notices := rest, emulationActive := enabled }

end Listening

/-! ## The emulation task -/

section Emulating

variable [Add F] (answer : List (Call F) → Except E Unit) (receiver : Receiver Addr F)

variable (order : HashOrder)

/-- The session is over: what waited is dropped and every handle torn down. -/
def endSession (emulation : InputEmulation F) : Receiver Addr F :=
  { receiver with
    queued := .empty
    notices := receiver.notices ++ [false]
    pastCalls := receiver.pastCalls ++ (emulation.terminate answer order).calls
    phase := if receiver.exitRequested then .stopped else .waiting }

/-- The backend was chosen: the handles of the peers are created on it again. -/
def startSession (scope : ButtonScope) : Receiver Addr F :=
  match receiver.phase with
  | .starting =>
    { receiver with
      notices := receiver.notices ++ [true]
      phase := .running ((receiver.handles.entries.map Sigma.snd).foldl
        (fun emulation handle => (emulation.create handle).2) (.withBackend scope)) }
  | _ => receiver

def failStart : Receiver Addr F :=
  match receiver.phase with
  | .starting =>
    { receiver with phase := if receiver.exitRequested then .stopped else .waiting }
  | _ => receiver

/-- Take one request: sorted into the queues while a session runs, dropped otherwise. -/
def takeRequest : Receiver Addr F :=
  match receiver.requests with
  | [] => receiver
  | request :: rest =>
    let taken := { receiver with requests := rest }
    match receiver.phase with
    | .stopped => receiver
    | .waiting =>
      match request with
      | .reenable => { taken with phase := .starting }
      | .terminate => { taken with phase := .stopped }
      | .input _ _ _ _ => taken
      | .remove _ _ => taken
      | .stopForMissing => taken
    | .starting =>
      match request with
      | .terminate => { taken with phase := .stopped }
      | .reenable => taken
      | .input _ _ _ _ => taken
      | .remove _ _ => taken
      | .stopForMissing => taken
    | .running emulation =>
      match request with
      | .input event addr peer source =>
        { taken with
          queued := (taken.queued.push addr (.input event peer [source])).2 }
      | .remove addr asked =>
        { taken with queued := (taken.queued.push addr (.remove asked)).2 }
      | .terminate => taken.endSession answer order emulation
      | .reenable => taken
      | .stopForMissing => taken.endSession answer order emulation

/-- The system says emulation may start again. -/
def restart : Receiver Addr F :=
  match receiver.phase with
  | .waiting => { receiver with phase := .starting }
  | _ => receiver

def sessionEnded : Receiver Addr F :=
  match receiver.phase with
  | .running emulation => receiver.endSession answer order emulation
  | _ => receiver

/-- Tear down the handle of a peer, if it has one. -/
def removeHandle (emulation : InputEmulation F) (addr : Addr) : Receiver Addr F :=
  match receiver.handles.lookup addr with
  | none => { receiver with phase := .running emulation }
  | some handle =>
    { receiver with
      handles := receiver.handles.erase addr
      phase := .running (emulation.destroy answer order handle) }

/-- The handle of a peer, created for its first event. -/
def handleOf (emulation : InputEmulation F) (addr : Addr) :
    Handle × InputEmulation F × Receiver Addr F :=
  match receiver.handles.lookup addr with
  | some handle => (handle, emulation, receiver)
  | none =>
    (receiver.nextId, (emulation.create receiver.nextId).2,
      { receiver with
        handles := receiver.handles.insert addr receiver.nextId
        nextId := receiver.nextId + 1 })

/-- Serve the next request of the next peer. -/
def serve : Receiver Addr F :=
  match receiver.phase with
  | .running emulation =>
    match receiver.queued.pop with
    | none => receiver
    | some (addr, .input event peer _, _, left) =>
      if receiver.mayDriveUs peer then
        let (handle, created, known) := { receiver with queued := left }.handleOf emulation addr
        let (injected, consumed) := created.consume answer event handle
        match injected with
        | .ok () => { known with phase := .running consumed }
        | .error _ => known.endSession answer order consumed
      else
        { receiver with queued := (left.dropPeer addr).2 }.removeHandle answer order emulation addr
    | some (addr, .remove _, _, left) =>
      { receiver with queued := left }.removeHandle answer order emulation addr
  | _ => receiver

end Emulating

/-! ## Steps -/

/-- One turn of a task, or something outside them. -/
inductive Act (Addr F : Type) where
  | listen (event : ListenEvent Addr F) (listed : Bool)
  | tick (stale : List Addr)
  | notice
  | reenable
  | stopForMissing
  | terminate
  | trust (mayDriveUs : String → Bool)
  | take (order : HashOrder)
  | serve (order : HashOrder)
  | start (scope : ButtonScope)
  | failStart
  | restart
  | sessionEnded (order : HashOrder)

variable [Add F] [Sub F] [Zero F] (answer : List (Call F) → Except E Unit)
  (receiver : Receiver Addr F)

/-- What an act does, the count of steps apart. -/
def act : Act Addr F → Receiver Addr F
  | .listen event listed => if receiver.listening then receiver.listen listed event else receiver
  | .tick stale => if receiver.listening then stale.foldl reap receiver else receiver
  | .notice => if receiver.listening then receiver.takeNotice else receiver
  | .reenable => if receiver.listening then receiver.send .reenable else receiver
  | .stopForMissing =>
    if receiver.listening then { receiver with emulationActive := false }.send .stopForMissing
    else receiver
  | .terminate =>
    if receiver.listening then
      { receiver with listening := false, exitRequested := true }.send .terminate
    else receiver
  | .trust mayDriveUs => { receiver with mayDriveUs := mayDriveUs }
  | .take order => receiver.takeRequest answer order
  | .serve order => receiver.serve answer order
  | .start scope => receiver.startSession scope
  | .failStart => receiver.failStart
  | .restart => receiver.restart
  | .sessionEnded order => receiver.sessionEnded answer order

def step (taken : Act Addr F) : Receiver Addr F :=
  { receiver.act answer taken with now := receiver.now + 1 }

def run (mayDriveUs : String → Bool) (acts : List (Act Addr F)) : Receiver Addr F :=
  acts.foldl (step answer) (.start mayDriveUs)

/-- Everything the backends were told, one session after the other. -/
def calls : List (Call F) :=
  receiver.pastCalls ++
    match receiver.phase with
    | .running emulation => emulation.calls
    | _ => []

/-- The event the next turn of a session hands to the backend. -/
def injects : Option (Addr × Event F × String × List Nat) :=
  match receiver.phase with
  | .running _ =>
    match receiver.queued.pop with
    | some (addr, .input event peer sources, _, _) =>
      if receiver.mayDriveUs peer then some (addr, event, peer, sources) else none
    | _ => none
  | _ => none

end Receiver

end HopsFormal.Emulation
