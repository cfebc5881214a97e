import HopsFormal.Links.Outbound

/-!
# Machines that remove each other

Machines hold links with one another, pair and remove.  A removal forgets first
and closes after, in a task of its own; each link is closed with a reason chosen
from the store, the other machine reads the reason when its end of the link is
over, and what it read is queued as an event for its service.  Every wait of
these tasks is between two steps here.  A machine is known by the fingerprint of
its certificate, which is in lowercase.

Recorded for the statements only: when a link was made, on which link and when a
pairing was confirmed, whether the machine that closed a link held a pairing
then, and what was forgotten.
-/

namespace HopsFormal.Removal

open Lib Links

/-! ## What a machine holds -/

/-- Why a link was closed, as far as the other end tells reasons apart. -/
inductive Reason where
  | removed
  | otherwise
  deriving DecidableEq

/-- How an end of a link is over. -/
inductive Closed where
  | locally
  | byPeer (reason : Reason) (held : Bool)
  | lost
  deriving DecidableEq

/-- One end of a link. -/
structure LinkEnd (Ip : Type) where
  number : Nat
  peer : String
  addr : SocketAddr Ip
  made : Nat
  closed : Option Closed
  deriving DecidableEq

/-- When a pairing was confirmed, and on which link. -/
structure Pairing where
  confirmed : Nat
  link : Nat
  deriving DecidableEq

/-- A link over which its peer drives this machine. -/
structure ConnEntry (Ip : Type) where
  number : Nat
  addr : SocketAddr Ip
  fingerprint : String

/-- The event that a machine closed a link because it removed this one. -/
structure RemovedBy where
  fingerprint : String
  link : Nat
  made : Nat
  held : Bool
  deriving DecidableEq

/-- A close on its way to the other end of a link. -/
structure Notice where
  receiver : String
  link : Nat
  reason : Reason
  held : Bool
  deriving DecidableEq

/-- What was forgotten, and the event it was forgotten on. -/
structure Forgotten where
  event : RemovedBy
  pairing : Option Pairing
  deriving DecidableEq

/-- A part of a task that closes links, between two waits of it. -/
inductive Work (Ip : Type) where
  | inbound (fingerprint : String)
  | inboundClose (fingerprint : String) (reason : Reason)
  | outbound (fingerprint : String)
  | device (handle : Nat) (pin : Option String)
  | addr (addr : SocketAddr Ip)
  | remove (addr : SocketAddr Ip)
  | disconnect (handle : Nat) (addr : SocketAddr Ip)
  deriving DecidableEq

/-- A task that closes links, and the machine whose removal started it, if one did. -/
structure Task (Ip : Type) where
  about : Option String
  work : List (Work Ip)

/--
A machine: its store, where a machine without a pairing waits for its number; its
devices; its ends of links; the links in and the tasks that read them; the links
out and theirs; the tasks that close; the closes it sent that did not arrive; and
the removals its service has still to hear of, from either kind of link.
-/
structure Machine (Ip : Type) where
  entries : Table String (Option Pairing)
  clients : ClientManager Ip
  ends : List (LinkEnd Ip)
  listed : List (ConnEntry Ip)
  reading : List (ConnEntry Ip)
  conns : Table (SocketAddr Ip) PeerLink
  receiving : List (SocketAddr Ip × PeerLink)
  tasks : List (Task Ip)
  sent : List Notice
  emulationEvents : List RemovedBy
  refusals : List RemovedBy
  forgotten : List Forgotten

namespace Machine

variable {Ip : Type} [DecidableEq Ip]

def start : Machine Ip where
  entries := ∅
  clients := .empty
  ends := []
  listed := []
  reading := []
  conns := ∅
  receiving := []
  tasks := []
  sent := []
  emulationEvents := []
  refusals := []
  forgotten := []

variable (machine : Machine Ip)

def isKnown (fingerprint : String) : Bool :=
  (machine.entries.lookup fingerprint).isSome

def pairing (fingerprint : String) : Option Pairing :=
  (machine.entries.lookup fingerprint).join

/-! ## Closing a link -/

def closeReason (fingerprint : String) : Reason :=
  if machine.isKnown fingerprint then .otherwise else .removed

def openEnd (number : Nat) (peer : String) (linkEnd : LinkEnd Ip) : Bool :=
  linkEnd.number = number ∧ linkEnd.peer = peer ∧ linkEnd.closed = none

def close (number : Nat) (peer : String) (reason : Reason) : Machine Ip :=
  if machine.ends.any (openEnd number peer) then
    { machine with
      ends := machine.ends.map fun linkEnd =>
        if openEnd number peer linkEnd then { linkEnd with closed := some .locally } else linkEnd
      sent := machine.sent ++ [⟨peer, number, reason, (machine.pairing peer).isSome⟩] }
  else machine

def closeLink (link : PeerLink) (reason : Reason) : Machine Ip :=
  machine.close link.serial link.fingerprint reason

/-- Clear what a device's link said, unless its link is at another address by now. -/
def clearLink (handle : Nat) (addr : SocketAddr Ip) : Machine Ip :=
  if (machine.clients.activeAddr handle).any (· ≠ addr) then machine
  else
    { machine with
      clients := (((machine.clients.setActiveAddr handle none).setAlive handle
        false).setPeerCommit handle none).setPeerCaps handle none }

/-- Take out and close whichever link is open at an address. -/
def takeOut (addr : SocketAddr Ip) : Machine Ip :=
  match machine.conns.lookup addr with
  | some link => { machine.closeLink link .otherwise with conns := machine.conns.erase addr }
  | none => machine

/-- End a device's link at an address: the one that ended there, or whichever is open. -/
def disconnect (handle : Nat) (addr : SocketAddr Ip) (ended : Option PeerLink) : Machine Ip :=
  match machine.conns.lookup addr, ended with
  | some current, some ended =>
    if current.serial ≠ ended.serial then
      let machine := machine.closeLink ended .otherwise
      if current.handle = handle then machine else machine.clearLink handle addr
    else (machine.takeOut addr).clearLink handle addr
  | _, _ => (machine.takeOut addr).clearLink handle addr

/-! ## The tasks that close -/

/-- The next part of a task, and what it leaves to do. -/
def perform : Work Ip → Machine Ip × List (Work Ip)
  | .inbound fingerprint =>
    (machine, [.inboundClose fingerprint (machine.closeReason fingerprint)])
  | .inboundClose fingerprint reason =>
    let closing := machine.listed.filter (·.fingerprint = fingerprint)
    let closed := closing.foldl (fun machine entry =>
      machine.close entry.number fingerprint reason) machine
    ({ closed with listed := machine.listed.filter (·.fingerprint ≠ fingerprint) }, [])
  | .outbound fingerprint =>
    (machine, (machine.conns.keysWhere fun _ link => link.fingerprint = fingerprint).map .addr)
  | .device handle pin =>
    (machine,
      (machine.conns.keysWhere fun _ link =>
        link.handle = handle ∨ pin = some link.fingerprint).map .addr)
  | .addr addr =>
    let rest := match machine.clients.handlesAt addr with
      | [] => [.remove addr]
      | handles => handles.map (.disconnect · addr)
    match machine.conns.lookup addr with
    | some link => (machine.closeLink link (machine.closeReason link.fingerprint), rest)
    | none => (machine, rest)
  | .remove addr => (machine.takeOut addr, [])
  | .disconnect handle addr => (machine.disconnect handle addr none, [])

/-- One task goes on to its next wait. -/
def works (index : Nat) : Machine Ip :=
  match machine.tasks[index]? with
  | some ⟨about, work :: rest⟩ =>
    let performed := machine.perform work
    { performed.1 with tasks := machine.tasks.set index ⟨about, performed.2 ++ rest⟩ }
  | _ => machine

/-- Start to close every link with a machine, in both directions. -/
def cutSessions (about : Option String) (fingerprint : String) : Machine Ip :=
  { machine with
    tasks := machine.tasks ++ [⟨about, [.inbound fingerprint, .outbound fingerprint]⟩] }

/-- Start to close the links with a machine in the directions that were lost. -/
def cutSessionsDir (fingerprint : String) (cutInbound cutOutbound : Bool) : Machine Ip :=
  { machine with
    tasks := machine.tasks ++ [⟨none,
      (if cutInbound then [.inbound fingerprint] else []) ++
        (if cutOutbound then [.outbound fingerprint] else [])⟩] }

/-! ## Removing -/

/-- Remove a device, and start to close its link. -/
def removeClient (about : Option String) (handle : Nat) : Machine Ip :=
  { machine with
    clients := machine.clients.removeClient handle
    tasks := machine.tasks ++
      ((machine.clients.activeAddr handle).map fun addr =>
        (⟨about, [.addr addr]⟩ : Task Ip)).toList }

def everyPinnedTo (clients : ClientManager Ip) (fingerprint : String) : List Nat :=
  clients.devices.keysWhere fun _ device =>
    device.peerFingerprint.any (eqIgnoreAsciiCase · fingerprint)

/-- A person removes a machine here. -/
def removeAuthorizedKey (fingerprint : String) : Machine Ip :=
  let cut := { machine with entries := machine.entries.erase fingerprint }.cutSessions
    (some fingerprint) fingerprint
  { cut with clients := machine.clients.clearPinsMatching fingerprint }

def forgetMachineThatRemovedThisOne (event : RemovedBy) : Machine Ip :=
  if machine.isKnown event.fingerprint then
    let forgot := { machine with
      entries := machine.entries.erase event.fingerprint
      forgotten := machine.forgotten ++ [Forgotten.mk event (machine.pairing event.fingerprint)] }
    (everyPinnedTo machine.clients event.fingerprint).foldl
      (fun machine handle => machine.removeClient (some event.fingerprint) handle)
      (forgot.cutSessions (some event.fingerprint) event.fingerprint)
  else machine

/-! ## The links -/

/-- What the task of a link that is over says, if its peer closed it as removed. -/
def toldRemoved (number : Nat) (peer : String) : Option RemovedBy :=
  (machine.ends.find? fun linkEnd => linkEnd.number = number ∧ linkEnd.peer = peer).bind
    fun linkEnd =>
      match linkEnd.closed with
      | some (.byPeer .removed held) => some ⟨peer, number, linkEnd.made, held⟩
      | _ => none

/-- Close an end for another reason, and let go of it. -/
def discard (number : Nat) (peer : String) : Machine Ip :=
  let closed := machine.close number peer .otherwise
  { closed with
    ends := closed.ends.filter fun linkEnd => ¬ (linkEnd.number = number ∧ linkEnd.peer = peer) }

def isRead (number : Nat) : Bool :=
  machine.reading.any (·.number = number) ∨ machine.receiving.any (·.2.serial = number)

/-- Let a link in: list it and read it. -/
def admitLink (linkEnd : LinkEnd Ip) : Machine Ip :=
  let entry : ConnEntry Ip := ⟨linkEnd.number, linkEnd.addr, linkEnd.peer⟩
  { machine with
    listed := machine.listed ++ [entry]
    reading := machine.reading ++ [entry] }

/-- Make a link out a device's, and read it. -/
def record (linkEnd : LinkEnd Ip) (handle : Nat) (dialledIn : Bool) : Machine Ip :=
  let link : PeerLink := ⟨linkEnd.number, linkEnd.peer, handle, dialledIn⟩
  { machine with
    clients := machine.clients.setActiveAddr handle (some linkEnd.addr)
    conns := machine.conns.insert linkEnd.addr link
    receiving := machine.receiving ++ [(linkEnd.addr, link)] }

/-- A dial for a device landed: checked once more, pinned and recorded. -/
def recordDial (linkEnd : LinkEnd Ip) (handle : Nat) : Machine Ip :=
  if ¬ machine.clients.targets handle linkEnd.addr ∨ ¬ machine.clients.isOn handle ∨
      (machine.clients.activeAddr handle).any (fun addr => (machine.conns.lookup addr).isSome) then
    machine.discard linkEnd.number linkEnd.peer
  else
    match machine.clients.pin handle linkEnd.peer with
    | .error _ => machine.discard linkEnd.number linkEnd.peer
    | .ok pinned => { machine with clients := pinned }.record linkEnd handle false

/-- The device's machine dialled in: an earlier link it dialled is replaced. -/
def adopt (linkEnd : LinkEnd Ip) (handle : Nat) : Machine Ip :=
  match (machine.clients.activeAddr handle).bind fun addr =>
      (machine.conns.lookup addr).map (Prod.mk addr) with
  | none => machine.record linkEnd handle true
  | some (current, old) =>
    if old.dialledIn then
      { machine.closeLink old .otherwise with
        conns := machine.conns.erase current }.record linkEnd handle true
    else machine.discard linkEnd.number linkEnd.peer

/-- The task that reads a link in is over. -/
def endsIn (index : Nat) : Machine Ip :=
  match machine.reading[index]? with
  | some entry =>
    let told := { machine with
      reading := machine.reading.eraseIdx index
      emulationEvents := machine.emulationEvents ++
        (machine.toldRemoved entry.number entry.fingerprint).toList }
    { told.discard entry.number entry.fingerprint with
      listed := machine.listed.eraseP (·.addr = entry.addr) }
  | none => machine

/-- The task that reads a link out is over. -/
def endsOut (index : Nat) : Machine Ip :=
  match machine.receiving[index]? with
  | some (addr, link) =>
    let told := { machine with
      receiving := machine.receiving.eraseIdx index
      refusals := machine.refusals ++ (machine.toldRemoved link.serial link.fingerprint).toList }
    (told.disconnect link.handle addr (some link)).discard link.serial link.fingerprint
  | none => machine

/-- A close arrives: it counts if this end is still open. -/
def receive (peer : String) (notice : Notice) : Machine Ip :=
  { machine with
    ends := machine.ends.map fun linkEnd =>
      if openEnd notice.link peer linkEnd then
        { linkEnd with closed := some (.byPeer notice.reason notice.held) }
      else linkEnd }

/-- An end is lost: nothing was heard on it for too long. -/
def lose (number : Nat) (peer : String) : Machine Ip :=
  { machine with
    ends := machine.ends.map fun linkEnd =>
      if openEnd number peer linkEnd then { linkEnd with closed := some .lost } else linkEnd }

/-- A person allows a machine to pair: it waits for its number, if it is not known yet. -/
def approve (fingerprint : String) : Machine Ip :=
  if machine.isKnown fingerprint then machine
  else { machine with entries := machine.entries.insert fingerprint none }

/-- The service hears of the next removal, from the links in or from the links out. -/
def hears (inbound : Bool) : Machine Ip :=
  if inbound then
    match machine.emulationEvents with
    | [] => machine
    | event :: rest =>
      { machine with emulationEvents := rest }.forgetMachineThatRemovedThisOne event
  else
    match machine.refusals with
    | [] => machine
    | event :: rest => { machine with refusals := rest }.forgetMachineThatRemovedThisOne event

/-! ## Steps of one machine -/

/-- What a machine may do next on its own. -/
inductive Act (Ip : Type) where
  | approve (fingerprint : String)
  | admits (linkEnd : LinkEnd Ip)
  | recordsDial (linkEnd : LinkEnd Ip) (handle : Nat)
  | adopts (linkEnd : LinkEnd Ip) (handle : Nat)
  | hangsUp (number : Nat) (peer : String)
  | stops (number : Nat) (peer : String)
  | discards (number : Nat) (peer : String)
  | loses (number : Nat) (peer : String)
  | endsIn (index : Nat)
  | endsOut (index : Nat)
  | removes (fingerprint : String)
  | hears (inbound : Bool)
  | works (index : Nat)
  | cutsDirection (fingerprint : String) (inbound outbound : Bool)
  | switchesOff (handle : Nat)
  | deletes (handle : Nat)
  | edits (clients : ClientManager Ip)

/-- A link this machine has an end of, that no task reads yet. -/
def isNew (linkEnd : LinkEnd Ip) : Bool :=
  linkEnd ∈ machine.ends ∧ ¬ machine.isRead linkEnd.number

def step : Act Ip → Machine Ip
  | .approve fingerprint => machine.approve fingerprint
  | .admits linkEnd => if machine.isNew linkEnd then machine.admitLink linkEnd else machine
  | .recordsDial linkEnd handle =>
    if machine.isNew linkEnd then machine.recordDial linkEnd handle else machine
  | .adopts linkEnd handle =>
    if machine.isNew linkEnd ∧ machine.clients.peerFingerprint handle = some linkEnd.peer then
      machine.adopt linkEnd handle
    else machine
  | .hangsUp number peer => machine.close number peer .otherwise
  | .stops number peer => machine.close number peer (machine.closeReason peer)
  | .discards number peer =>
    if machine.isRead number then machine else machine.discard number peer
  | .loses number peer => machine.lose number peer
  | .endsIn index => machine.endsIn index
  | .endsOut index => machine.endsOut index
  | .removes fingerprint => machine.removeAuthorizedKey fingerprint
  | .hears inbound => machine.hears inbound
  | .works index => machine.works index
  | .cutsDirection fingerprint inbound outbound =>
    machine.cutSessionsDir fingerprint inbound outbound
  | .switchesOff handle =>
    { machine with
      clients := machine.clients.deactivateClient handle
      tasks := machine.tasks ++
        [⟨none, [.device handle (machine.clients.peerFingerprint handle)]⟩] }
  | .deletes handle => machine.removeClient none handle
  | .edits clients => { machine with clients := clients }

end Machine

/-! ## Steps of all of them -/

/-- The machines, how many links there were, and how many steps were taken. -/
structure System (Ip : Type) where
  machines : String → Machine Ip
  links : Nat
  clock : Nat

/-- What may happen next. -/
inductive Act (Ip : Type) where
  | here (machine : String) (act : Machine.Act Ip)
  | connects (dialler listener : String) (ofDialler ofListener : SocketAddr Ip)
  | confirms (machine peer : String) (link : Nat)
  | arrives (sender : String) (index : Nat)

namespace System

variable {Ip : Type} [DecidableEq Ip]

def start : System Ip where
  machines := fun _ => .start
  links := 0
  clock := 0

variable (system : System Ip)

def change (machine : String) (changed : Machine Ip) : System Ip :=
  { system with machines := Function.update system.machines machine changed }

/-- A link is made, with an end at either machine. -/
def connect (dialler listener : String) (ofDialler ofListener : SocketAddr Ip) : System Ip :=
  let meet (machine : Machine Ip) (peer : String) (addr : SocketAddr Ip) : Machine Ip :=
    { machine with
      ends := machine.ends ++ [⟨system.links, peer, addr, system.clock, none⟩] }
  let dialled := system.change dialler (meet (system.machines dialler) listener ofListener)
  { dialled.change listener (meet (dialled.machines listener) dialler ofDialler) with
    links := system.links + 1 }

/-- A pairing is confirmed at one of its machines, on a link it has an end of. -/
def confirm (machine peer : String) (link : Nat) : System Ip :=
  let here := system.machines machine
  if here.ends.any (fun linkEnd => linkEnd.number = link ∧ linkEnd.peer = peer) then
    system.change machine
      { here with entries := here.entries.insert peer (some ⟨system.clock, link⟩) }
  else system

/-- A close a machine sent arrives. -/
def arrive (sender : String) (index : Nat) : System Ip :=
  let here := system.machines sender
  match here.sent[index]? with
  | some notice =>
    let sent := system.change sender { here with sent := here.sent.eraseIdx index }
    sent.change notice.receiver ((sent.machines notice.receiver).receive sender notice)
  | none => system

def step (act : Act Ip) : System Ip :=
  let taken := match act with
    | .here machine act => system.change machine ((system.machines machine).step act)
    | .connects dialler listener ofDialler ofListener =>
      system.connect dialler listener ofDialler ofListener
    | .confirms machine peer link => system.confirm machine peer link
    | .arrives sender index => system.arrive sender index
  { taken with clock := taken.clock + 1 }

def run (acts : List (Act Ip)) : System Ip :=
  acts.foldl step start

end System

end HopsFormal.Removal
