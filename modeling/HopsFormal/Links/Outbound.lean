import HopsFormal.Links.Clients

/-!
# The links to the machines this one drives

A link is dialled by this machine for a device, or dialled by the device's
machine and adopted.  Either way it is recorded in the table of open links under
its address, with a task that reads it and one that pings; what is sent finds it
there.  Every wait of the program (a handshake, a stream that opens, a lock) is
between two steps here, so anything may happen meanwhile.  A change that takes
links away starts a close, which runs later and looks for them then.  Each link
is numbered as it is recorded: `recorded` is every link there ever was, and
`heard` what was read on each, the latest first.  What a pairing settles is left
to the steps that grant and revoke.
-/

namespace HopsFormal.Links

open Lib

structure PeerLink where
  serial : Nat
  fingerprint : String
  handle : Nat
  dialledIn : Bool
  deriving DecidableEq

/-- What a peer sends on a link. -/
inductive Frame where
  | pong (enabled : Bool)
  | hello (commit : Commit)
  | capability (flags : UInt32)
  | other

/-- A certificate's fingerprint is written in lowercase. -/
def ofCertificate (fingerprint : String) : Bool :=
  asciiLowercase fingerprint == fingerprint.toList

/-- How far a dial is. -/
inductive Dialling (Ip : Type) where
  | calling (addrs : List (SocketAddr Ip)) (expected : Option String)
  | pairing (addr : SocketAddr Ip) (fingerprint : String)
  | landed (addr : SocketAddr Ip) (fingerprint : String) (greeted : Option Commit)

/-- How far the adoption of a link dialled in is. -/
inductive Adopting where
  | asked
  | opening
  | opened
  deriving DecidableEq

structure Adoption (Ip : Type) where
  handle : Nat
  fingerprint : String
  addr : SocketAddr Ip
  stage : Adopting

/-- A frame on its way out: the device it is for, and the link it is written on. -/
structure Sending (Ip : Type) where
  handle : Nat
  addr : SocketAddr Ip
  link : PeerLink

/-- What is left to do of a close. -/
inductive Closing (Ip : Type) where
  | fingerprint (fingerprint : String)
  | device (handle : Nat) (pin : Option String)
  | addr (addr : SocketAddr Ip)
  | remove (addr : SocketAddr Ip)
  | disconnect (handle : Nat) (addr : SocketAddr Ip)

structure Outbound (Ip : Type) where
  clients : ClientManager Ip
  weMayDrive : String → Bool
  conns : Table (SocketAddr Ip) PeerLink
  recorded : List (SocketAddr Ip × PeerLink)
  connecting : Table Nat (Dialling Ip)
  adopting : List (Adoption Ip)
  receiving : List (SocketAddr Ip × PeerLink)
  pinging : List (SocketAddr Ip × PeerLink)
  sending : List (Sending Ip)
  closing : List (Closing Ip)
  heard : List (PeerLink × Frame)

namespace Outbound

variable {Ip : Type} [DecidableEq Ip]

def start : Outbound Ip where
  clients := .empty
  weMayDrive := fun _ => false
  conns := ∅
  recorded := []
  connecting := ∅
  adopting := []
  receiving := []
  pinging := []
  sending := []
  closing := []
  heard := []

/-! ## Ending a link -/

variable (outbound : Outbound Ip)

/-- The device of a link up at an address other than the one that ended there. -/
def newerAt (addr : SocketAddr Ip) (ended : Option PeerLink) : Option Nat :=
  match outbound.conns.lookup addr, ended with
  | some current, some ended =>
    if current.serial ≠ ended.serial then some current.handle else none
  | _, _ => none

/-- Clear what a device's link said, unless its link is at another address by now. -/
def clearLink (handle : Nat) (addr : SocketAddr Ip) : Outbound Ip :=
  if (outbound.clients.activeAddr handle).any (· ≠ addr) then outbound
  else
    { outbound with
      clients := (((outbound.clients.setActiveAddr handle none).setAlive handle
        false).setPeerCommit handle none).setPeerCaps handle none }

/-- End a device's link at an address: the one that ended there, or whichever is open. -/
def disconnect (handle : Nat) (addr : SocketAddr Ip) (ended : Option PeerLink) : Outbound Ip :=
  match outbound.newerAt addr ended with
  | some newer => if newer = handle then outbound else outbound.clearLink handle addr
  | none => { outbound with conns := outbound.conns.erase addr }.clearLink handle addr

/-! ## Recording a link -/

/-- Make a link a device's: its address, the table, and the tasks that run it. -/
def record (handle : Nat) (addr : SocketAddr Ip) (fingerprint : String) (dialledIn : Bool) :
    Outbound Ip :=
  let link : PeerLink := ⟨outbound.recorded.length, fingerprint, handle, dialledIn⟩
  { outbound with
    clients := outbound.clients.setActiveAddr handle (some addr)
    conns := outbound.conns.insert addr link
    recorded := outbound.recorded ++ [(addr, link)]
    receiving := outbound.receiving ++ [(addr, link)]
    pinging := outbound.pinging ++ [(addr, link)] }

/-- Whether the link at the device's address is in the table. -/
def linked (handle : Nat) : Bool :=
  (outbound.clients.activeAddr handle).any fun addr => (outbound.conns.lookup addr).isSome

/-- What the greeting of a link that was paired on said. -/
def greet (handle : Nat) (greeted : Option Commit) : Outbound Ip :=
  match greeted with
  | some commit => { outbound with clients := outbound.clients.setPeerCommit handle (some commit) }
  | none => outbound

/-- The end of a dial that landed: under the lock, checked once more and recorded. -/
def recordDial (handle : Nat) (addr : SocketAddr Ip) (fingerprint : String)
    (greeted : Option Commit) : Outbound Ip :=
  if ¬ outbound.clients.targets handle addr then outbound
  else if ¬ outbound.clients.isOn handle then outbound
  else if outbound.linked handle then outbound
  else
    match outbound.clients.pin handle fingerprint with
    | .error _ => outbound
    | .ok pinned =>
      let outbound := { outbound with clients := pinned }
      if greeted.isSome ∧ ¬ outbound.weMayDrive fingerprint then outbound
      else (outbound.record handle addr fingerprint false).greet handle greeted

/--
The end of an adoption: an earlier link that was dialled in is replaced, and one
this machine dialled is kept instead.
-/
def recordAdoption (handle : Nat) (addr : SocketAddr Ip) (fingerprint : String) : Outbound Ip :=
  match outbound.clients.activeAddr handle with
  | none => outbound.record handle addr fingerprint true
  | some current =>
    match outbound.conns.lookup current with
    | none => outbound.record handle addr fingerprint true
    | some old =>
      if old.dialledIn then
        { outbound with conns := outbound.conns.erase current }.record handle addr fingerprint true
      else outbound

/-! ## Reading a link -/

/-- One frame of a link, whichever link the table holds by now. -/
def receive (addr : SocketAddr Ip) (link : PeerLink) (frame : Frame) : Outbound Ip :=
  let outbound := { outbound with heard := (link, frame) :: outbound.heard }
  match frame with
  | .pong enabled =>
    { outbound with
      clients := (outbound.clients.setActiveAddr link.handle (some addr)).answeredPing
        link.handle enabled }
  | .hello commit =>
    { outbound with clients := outbound.clients.setPeerCommit link.handle (some commit) }
  | .capability flags =>
    { outbound with clients := outbound.clients.setPeerCaps link.handle (some flags) }
  | .other => outbound

/-! ## Closing links -/

/-- The links whose receiver proved a fingerprint. -/
def linksOf (fingerprint : String) : List (SocketAddr Ip) :=
  outbound.conns.keysWhere fun _ link => link.fingerprint = fingerprint

def linksOfDevice (handle : Nat) (pin : Option String) : List (SocketAddr Ip) :=
  outbound.conns.keysWhere fun _ link => link.handle = handle ∨ pin = some link.fingerprint

def close (closing : Closing Ip) : Outbound Ip :=
  match closing with
  | .fingerprint fingerprint =>
    { outbound with
      closing := outbound.closing ++ (outbound.linksOf fingerprint).map .addr }
  | .device handle pin =>
    { outbound with
      closing := outbound.closing ++ (outbound.linksOfDevice handle pin).map .addr }
  | .addr addr =>
    match outbound.clients.handlesAt addr with
    | [] => { outbound with closing := outbound.closing ++ [.remove addr] }
    | handles =>
      { outbound with closing := outbound.closing ++ handles.map (.disconnect · addr) }
  | .remove addr => { outbound with conns := outbound.conns.erase addr }
  | .disconnect handle addr => outbound.disconnect handle addr none

/-! ## Steps -/

/-- What may happen next, whoever does it. -/
inductive Act (Ip : Type) where
  | add (config : ConfigClient Ip)
  | remove (handle : Nat)
  | switchOn (handle : Nat)
  | switchOff (handle : Nat)
  | setHostname (handle : Nat) (hostname : Option String)
  | setFixIps (handle : Nat) (ips : List Ip)
  | setDnsIps (handle : Nat) (ips : List Ip)
  | setPort (handle : Nat) (port : UInt16)
  | pin (handle : Nat) (fingerprint : String)
  | grant (fingerprint : String)
  | revoke (fingerprint : String) (forget : Bool)
  | dropPins (fingerprint : String)
  | dial (handle : Nat)
  | dialLands (handle : Nat) (addr : SocketAddr Ip) (fingerprint : String)
  | dialMeets (handle : Nat) (addr : SocketAddr Ip) (fingerprint : String)
  | dialPairs (handle : Nat) (commit : Commit)
  | dialFails (handle : Nat) (read : Option (Option (SocketAddr Ip × String)))
  | dialRecords (handle : Nat)
  | dialledIn (fingerprint : String) (addr : SocketAddr Ip) (edgeFree : Bool)
  | adoptionChecks (index : Nat)
  | adoptionOpens (index : Nat)
  | adoptionFails (index : Nat)
  | adoptionRecords (index : Nat)
  | frame (index : Nat) (frame : Frame)
  | peerHello (fingerprint : String) (commit : Commit)
  | peerCaps (fingerprint : String) (flags : UInt32)
  | ends (index : Nat)
  | pingFails (index : Nat)
  | send (handle : Nat)
  | sendTo (handle : Nat) (addr : SocketAddr Ip) (letsGo : Bool)
  | sends (index : Nat) (written : Bool)
  | closes (index : Nat)

/-- A machine that dialled in goes to its device, or gets one. -/
def handleDialledIn (fingerprint : String) (addr : SocketAddr Ip) (edgeFree : Bool) : Outbound Ip :=
  match outbound.clients.claimForDialIn fingerprint with
  | some (handle, clients) =>
    { outbound with
      clients := clients
      adopting := outbound.adopting ++ [⟨handle, fingerprint, addr, .asked⟩] }
  | none =>
    { outbound with
      clients := outbound.clients.addWithConfig ⟨none, [], defaultPort, edgeFree, some fingerprint⟩
      adopting := outbound.adopting ++ [⟨outbound.clients.next, fingerprint, addr, .asked⟩] }

/-- What a machine says on a link it dialled itself goes to the devices pinned to it. -/
def handlePeerHello (fingerprint : String) (commit : Commit) : Outbound Ip :=
  { outbound with
    clients := (outbound.clients.pinnedTo fingerprint).foldl (·.setPeerCommit · (some commit))
      outbound.clients }

def handlePeerCaps (fingerprint : String) (flags : UInt32) : Outbound Ip :=
  { outbound with
    clients := (outbound.clients.pinnedTo fingerprint).foldl (·.setPeerCaps · (some flags))
      outbound.clients }

/-- The checks an adoption makes before it opens its stream. -/
def mayAdopt (adoption : Adoption Ip) : Bool :=
  outbound.weMayDrive adoption.fingerprint ∧
    outbound.clients.peerFingerprint adoption.handle = some adoption.fingerprint ∧
    outbound.clients.isOn adoption.handle

/-- A link that is written to for a device. -/
def startSending (handle : Nat) (addr : SocketAddr Ip) (may : PeerLink → Bool) : Outbound Ip :=
  match outbound.conns.lookup addr with
  | none => outbound
  | some link =>
    if may link then { outbound with sending := outbound.sending ++ [⟨handle, addr, link⟩] }
    else outbound

@[grind =]
def step : Act Ip → Outbound Ip
  | .add config => { outbound with clients := outbound.clients.addWithConfig config }
  | .remove handle =>
    { outbound with
      clients := outbound.clients.removeClient handle
      closing := outbound.closing ++ ((outbound.clients.activeAddr handle).map .addr).toList }
  | .switchOn handle => { outbound with clients := outbound.clients.activateClient handle }
  | .switchOff handle =>
    { outbound with
      clients := outbound.clients.deactivateClient handle
      closing := outbound.closing ++ [.device handle (outbound.clients.peerFingerprint handle)] }
  | .setHostname handle hostname =>
    { outbound with clients := outbound.clients.setHostname handle hostname }
  | .setFixIps handle ips => { outbound with clients := outbound.clients.setFixIps handle ips }
  | .setDnsIps handle ips => { outbound with clients := outbound.clients.setDnsIps handle ips }
  | .setPort handle port => { outbound with clients := outbound.clients.setPort handle port }
  | .pin handle fingerprint =>
    match outbound.clients.pin handle fingerprint with
    | .ok clients =>
      if ofCertificate fingerprint then { outbound with clients := clients } else outbound
    | .error _ => outbound
  | .grant fingerprint =>
    { outbound with weMayDrive := Function.update outbound.weMayDrive fingerprint true }
  | .revoke fingerprint forget =>
    { outbound with
      weMayDrive := Function.update outbound.weMayDrive fingerprint false
      clients :=
        if forget then outbound.clients.clearPinsMatching fingerprint else outbound.clients
      closing := outbound.closing ++ [.fingerprint fingerprint] }
  | .dropPins fingerprint =>
    if outbound.weMayDrive fingerprint then outbound
    else { outbound with clients := outbound.clients.clearPinsMatching fingerprint }
  | .dial handle =>
    if (outbound.connecting.lookup handle).isSome then outbound
    else
      match outbound.clients.device handle with
      | none => outbound
      | some device =>
        { outbound with
          connecting := outbound.connecting.insert handle
            (.calling (device.ips.map (⟨·, device.port⟩)) device.peerFingerprint) }
  | .dialLands handle addr fingerprint =>
    match outbound.connecting.lookup handle with
    | some (.calling addrs expected) =>
      if addr ∈ addrs ∧ expected.all (· = fingerprint) ∧ ofCertificate fingerprint ∧
          outbound.weMayDrive fingerprint then
        { outbound with
          connecting := outbound.connecting.insert handle (.landed addr fingerprint none) }
      else outbound
    | _ => outbound
  | .dialMeets handle addr fingerprint =>
    match outbound.connecting.lookup handle with
    | some (.calling addrs expected) =>
      if addr ∈ addrs ∧ expected.all (· = fingerprint) ∧ ofCertificate fingerprint ∧
          ¬ outbound.weMayDrive fingerprint then
        if outbound.clients.targets handle addr then
          { outbound with
            clients := outbound.clients.setAnsweredAs handle (some (addr, fingerprint))
            connecting :=
              if outbound.clients.isOn handle then
                outbound.connecting.insert handle (.pairing addr fingerprint)
              else outbound.connecting.erase handle }
        else { outbound with connecting := outbound.connecting.erase handle }
      else outbound
    | _ => outbound
  | .dialPairs handle commit =>
    match outbound.connecting.lookup handle with
    | some (.pairing addr fingerprint) =>
      { outbound with
        connecting := outbound.connecting.insert handle (.landed addr fingerprint (some commit)) }
    | _ => outbound
  | .dialFails handle read =>
    match outbound.connecting.lookup handle with
    | some (.calling _ _) =>
      { outbound with
        connecting := outbound.connecting.erase handle
        clients :=
          match read with
          | some read => outbound.clients.setAnsweredAs handle read
          | none => outbound.clients }
    | some (.pairing _ _) =>
      { outbound with connecting := outbound.connecting.erase handle }
    | _ => outbound
  | .dialRecords handle =>
    match outbound.connecting.lookup handle with
    | some (.landed addr fingerprint greeted) =>
      { outbound with connecting := outbound.connecting.erase handle }.recordDial handle addr
        fingerprint greeted
    | _ => outbound
  | .dialledIn fingerprint addr edgeFree =>
    if ofCertificate fingerprint then outbound.handleDialledIn fingerprint addr edgeFree
    else outbound
  | .adoptionChecks index =>
    match outbound.adopting[index]? with
    | some adoption =>
      if adoption.stage = .asked then
        { outbound with
          adopting :=
            if outbound.mayAdopt adoption then
              outbound.adopting.set index { adoption with stage := .opening }
            else outbound.adopting.eraseIdx index }
      else outbound
    | none => outbound
  | .adoptionOpens index =>
    match outbound.adopting[index]? with
    | some adoption =>
      if adoption.stage = .opening then
        { outbound with
          adopting := outbound.adopting.set index { adoption with stage := .opened } }
      else outbound
    | none => outbound
  | .adoptionFails index => { outbound with adopting := outbound.adopting.eraseIdx index }
  | .adoptionRecords index =>
    match outbound.adopting[index]? with
    | some adoption =>
      if adoption.stage = .opened then
        { outbound with adopting := outbound.adopting.eraseIdx index }.recordAdoption
          adoption.handle adoption.addr adoption.fingerprint
      else outbound
    | none => outbound
  | .frame index frame =>
    match outbound.receiving[index]? with
    | some (addr, link) => outbound.receive addr link frame
    | none => outbound
  | .peerHello fingerprint commit => outbound.handlePeerHello fingerprint commit
  | .peerCaps fingerprint flags => outbound.handlePeerCaps fingerprint flags
  | .ends index =>
    match outbound.receiving[index]? with
    | some (addr, link) =>
      { outbound with receiving := outbound.receiving.eraseIdx index }.disconnect link.handle
        addr (some link)
    | none => outbound
  | .pingFails index =>
    match outbound.pinging[index]? with
    | some (addr, link) =>
      { outbound with pinging := outbound.pinging.eraseIdx index }.disconnect link.handle addr
        (some link)
    | none => outbound
  | .send handle =>
    match outbound.clients.activeAddr handle with
    | some addr =>
      outbound.startSending handle addr fun link =>
        ! outbound.weMayDrive link.fingerprint || outbound.clients.alive handle
    | none => outbound
  | .sendTo handle addr letsGo =>
    outbound.startSending handle addr fun link =>
      letsGo || outbound.weMayDrive link.fingerprint
  | .sends index written =>
    match outbound.sending[index]? with
    | some sending =>
      let outbound := { outbound with sending := outbound.sending.eraseIdx index }
      if written then outbound
      else outbound.disconnect sending.handle sending.addr (some sending.link)
    | none => outbound
  | .closes index =>
    match outbound.closing[index]? with
    | some closing => { outbound with closing := outbound.closing.eraseIdx index }.close closing
    | none => outbound

def run (acts : List (Act Ip)) : Outbound Ip :=
  acts.foldl step start

end Outbound

end HopsFormal.Links
