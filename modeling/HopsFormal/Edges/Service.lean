import HopsFormal.Capture.InputEvent
import HopsFormal.Lib.Table
import HopsFormal.Trust.Identity
import Mathlib.Data.Finset.Card
import Mathlib.Data.Finset.Dedup
import Mathlib.Data.List.Sort

/-!
# The edges of the devices

A device that is switched on is reached across an edge of the screen.  The
devices are kept by handle, in the order of their handles; the service moves
them, switches them on and off, and asks the capture task for an edge for each.
After every event it settles the edges: each device switched on gets the edge
it should have, at its position, and loses one it should not.
-/

namespace HopsFormal.Edges

open Capture (Position)
open Lib
open Trust (trim sanitizeLabel)

/-- Where a device is drawn on the arrange canvas. -/
structure Geometry where
  x : Int32
  y : Int32
  width : UInt32
  height : UInt32
  deriving DecidableEq

/-- An entry of the config file. -/
structure ConfigClient (Ip : Type) where
  label : Option String
  ips : Finset Ip
  hostname : Option String
  port : UInt16
  pos : Position
  active : Bool
  enterHook : Option String
  fingerprint : Option String
  geometry : Option Geometry
  deriving DecidableEq

/-- What is configured of a device, and whether it is switched on. -/
structure Device (Ip : Type) where
  label : Option String
  hostname : Option String
  fixIps : Finset Ip
  port : UInt16
  pos : Position
  cmd : Option String
  geometry : Option Geometry
  active : Bool
  dialsUs : Bool
  peerFingerprint : Option String

def defaultPort : UInt16 := 4722

/-- A device as it is added, before anything is known of it. -/
def Device.blank {Ip : Type} : Device Ip where
  label := none
  hostname := none
  fixIps := ∅
  port := defaultPort
  pos := .left
  cmd := none
  geometry := none
  active := false
  dialsUs := false
  peerFingerprint := none

def configEntry {Ip : Type} (device : Device Ip) : ConfigClient Ip where
  label := device.label
  ips := device.fixIps
  hostname := device.hostname
  port := device.port
  pos := device.pos
  active := device.active
  enterHook := device.cmd
  fingerprint := device.peerFingerprint
  geometry := device.geometry

/-! ## The devices -/

structure ClientManager (Ip : Type) where
  next : Nat
  entries : Table Nat (Device Ip)

namespace ClientManager

variable {Ip : Type}

def empty : ClientManager Ip where
  next := 0
  entries := ∅

variable (clients : ClientManager Ip)

def device (handle : Nat) : Option (Device Ip) :=
  clients.entries.lookup handle

def update (handle : Nat) (change : Device Ip → Device Ip) : ClientManager Ip :=
  { clients with entries := clients.entries.modify handle change }

/-- Add a device; its handle was never used before. -/
def add (device : Device Ip) : Nat × ClientManager Ip :=
  (clients.next,
    { next := clients.next + 1
      entries := clients.entries.insert clients.next device })

def addWithConfig (config : ConfigClient Ip) : Nat × ClientManager Ip :=
  clients.add
    { label := config.label
      hostname := config.hostname
      fixIps := config.ips
      port := config.port
      pos := config.pos
      cmd := config.enterHook
      geometry := config.geometry
      active := config.active
      dialsUs := config.hostname.isNone && decide (config.ips.card = 0) && config.fingerprint.isSome
      peerFingerprint := config.fingerprint }

def addClient : Nat × ClientManager Ip :=
  clients.add .blank

def removeClient (handle : Nat) : ClientManager Ip :=
  { clients with entries := clients.entries.erase handle }

def isOn (handle : Nat) : Bool :=
  (clients.device handle).any (·.active)

def getPos (handle : Nat) : Option Position :=
  (clients.device handle).map (·.pos)

/-- The handles of the devices that satisfy a test, in order. -/
def handlesWhere (test : Device Ip → Bool) : List Nat :=
  (clients.entries.keysWhere fun _ device => test device).insertionSort (· ≤ ·)

def activeClients : List Nat :=
  clients.handlesWhere (·.active)

/-- The first device switched on at a position. -/
def clientAt (pos : Position) : Option Nat :=
  (clients.handlesWhere fun device => device.active && device.pos = pos).head?

/-- Switch a device on; says whether it was off. -/
def activateClient (handle : Nat) : Bool × ClientManager Ip :=
  if (clients.device handle).any (fun device => !device.active) then
    (true, clients.update handle fun device => { device with active := true })
  else (false, clients)

/-- Switch a device off; says whether it was on. -/
def deactivateClient (handle : Nat) : Bool × ClientManager Ip :=
  if clients.isOn handle then
    (true, clients.update handle fun device => { device with active := false })
  else (false, clients)

/-- Move a device; says whether it moved and is switched on. -/
def setPos (handle : Nat) (pos : Position) : Bool × ClientManager Ip :=
  if (clients.device handle).any (fun device => device.pos ≠ pos) then
    (clients.isOn handle, clients.update handle fun device => { device with pos := pos })
  else (false, clients)

def setGeometry (handle : Nat) (geometry : Option Geometry) : ClientManager Ip :=
  clients.update handle fun device => { device with geometry := geometry }

/-- Each entry of a file claims a device that reads the same; what is left over changed. -/
def planReload [DecidableEq Ip] (clients : ClientManager Ip) (entries : List (ConfigClient Ip)) :
    List Nat × List (ConfigClient Ip) :=
  let start := ((clients.handlesWhere fun _ => true).filterMap fun handle =>
    (clients.device handle).map fun device => (handle, configEntry device))
  let (unclaimed, fresh) := entries.foldl
    (fun (unclaimed, fresh) entry =>
      match unclaimed.findIdx? (fun held => held.2 = entry) with
      | some at_ => (unclaimed.eraseIdx at_, fresh)
      | none => (unclaimed, fresh ++ [entry]))
    (start, [])
  (unclaimed.map Prod.fst, fresh)

end ClientManager

/-! ## The service -/

/--
The devices, the edges the service believes they have, and the captures the
capture task was asked for.  An edge is `some none` for a device that is on and
should have none.
-/
structure Service (Ip : Type) where
  clients : ClientManager Ip
  edges : Table Nat (Option Position)
  captures : List (Nat × Position)

/-- Which machine each device is, and which machines were never to be driven from here. -/
structure Known where
  machineOf : Nat → Option String
  pairedNotToDrive : String → Bool

/-- Whether a device should have an edge while it is switched on. -/
def Known.wantsEdge (known : Known) (handle : Nat) : Bool :=
  (known.machineOf handle).all fun fingerprint => !known.pairedNotToDrive fingerprint

/-- A device to be added. -/
structure NewDevice (Ip : Type) where
  hostname : Option String
  fixIps : List Ip
  port : UInt16
  pos : Position

/-- A device needs somewhere to be dialled, and a port. -/
@[grind =]
def NewDevice.refused {Ip : Type} (device : NewDevice Ip) : Bool :=
  (!device.hostname.any (fun hostname => !(trim hostname).isEmpty) && device.fixIps.isEmpty) ||
    device.port = 0

/-- An edit that touches neither the position of a device nor its switch. -/
structure Edit (Ip : Type) where
  change : Device Ip → Device Ip
  keeps_pos : ∀ device, (change device).pos = device.pos
  keeps_active : ∀ device, (change device).active = device.active

namespace Service

variable {Ip : Type} (service : Service Ip)

/-- Ask for a capture at an edge. -/
def create (handle : Nat) (pos : Position) : Service Ip :=
  { service with captures := service.captures ++ [(handle, pos)] }

/-- Ask for a capture to be taken away. -/
def destroy (handle : Nat) : Service Ip :=
  { service with captures := service.captures.filter (·.1 ≠ handle) }

/-- Take away the edge of a device, if it has one. -/
def dropEdge (handle : Nat) : Service Ip :=
  let dropped := { service with edges := service.edges.erase handle }
  match service.edges.lookup handle with
  | some (some _) => dropped.destroy handle
  | _ => dropped

def deactivateClient (handle : Nat) : Service Ip :=
  match service.clients.deactivateClient handle with
  | (true, clients) => { service with clients := clients }.dropEdge handle
  | (false, clients) => { service with clients := clients }

def switchOff (handle : Nat) : Service Ip :=
  service.deactivateClient handle

/-- Switch a device on; another one that uses its edge is switched off first. -/
def activateClient (handle : Nat) : Service Ip :=
  match service.clients.getPos handle with
  | none => service
  | some pos =>
    let freed :=
      match service.clients.clientAt pos with
      | some other => if other ≠ handle then service.switchOff other else service
      | none => service
    { freed with clients := (freed.clients.activateClient handle).2 }

def settleEdge (handle : Nat) (settled : Option (Option Position)) : Service Ip :=
  if service.edges.lookup handle = settled then service
  else
    let dropped := service.dropEdge handle
    match settled with
    | none => dropped
    | some edge =>
      let created :=
        match edge with
        | some pos => dropped.create handle pos
        | none => dropped
      { created with edges := created.edges.insert handle edge }

/-- What the edge of a device should be. -/
def settled (known : Known) (handle : Nat) : Option (Option Position) :=
  match (service.clients.getPos handle).filter fun _ => service.clients.isOn handle with
  | none => none
  | some pos => some (if known.wantsEdge handle then some pos else none)

/-- Give every device switched on the edge it should have, and take away each one it should not. -/
def settleEdges (known : Known) : Service Ip :=
  let handles := ((service.clients.activeClients ++ service.edges.keys).insertionSort (· ≤ ·)).dedup
  handles.foldl (fun service handle => service.settleEdge handle (service.settled known handle))
    service

def removeClient (handle : Nat) : Service Ip :=
  { service with clients := service.clients.removeClient handle }.dropEdge handle

/-- A device that changes edge loses its spot on the canvas. -/
def clearSpot (handle : Nat) (pos : Position) : Service Ip :=
  if (service.clients.getPos handle).any (· ≠ pos) then
    { service with clients := service.clients.setGeometry handle none }
  else service

/-- Move the device that was at an edge to the one its new user left. -/
def trade (other : Nat) (vacated : Position) : Service Ip :=
  match service.clients.setPos other vacated with
  | (true, clients) =>
    ({ service with clients := clients.setGeometry other none }.deactivateClient
      other).activateClient other
  | (false, clients) => { service with clients := clients }

/--
Move a device.  One that is switched on and comes to an edge another one uses
trades edges with it.
-/
def updatePos (handle : Nat) (pos : Position) : Service Ip :=
  let old := service.clients.getPos handle
  let holder := (service.clients.clientAt pos).filter (· ≠ handle)
  let cleared := service.clearSpot handle pos
  match cleared.clients.setPos handle pos with
  | (false, clients) => { cleared with clients := clients }
  | (true, clients) =>
    let moved := { cleared with clients := clients }.deactivateClient handle
    let traded :=
      match holder, old with
      | some other, some vacated => moved.trade other vacated
      | _, _ => moved
    traded.activateClient handle

def addDevice [DecidableEq Ip] (service : Service Ip) (device : NewDevice Ip) : Service Ip :=
  if device.refused then service
  else
    let (handle, clients) := service.clients.addClient
    let configured := clients.update handle fun blank =>
      { blank with
        hostname := (device.hostname.map trim).filter fun hostname => !hostname.isEmpty
        port := device.port
        pos := device.pos
        fixIps := device.fixIps.toFinset }
    { service with clients := configured }.activateClient handle

/-- The edges in the order they are offered to a machine that dials in. -/
def offered : List Position := [.right, .left, .top, .bottom]

/-- A device for a machine that dials this one, at the first free edge, or switched off. -/
def addDeviceThatDialsUs (fingerprint : String) (label : Option String) : Service Ip :=
  let (handle, added) := service.clients.addClient
  let named := added.update handle fun blank =>
    { blank with
      peerFingerprint := some fingerprint
      label := (label.map fun name => sanitizeLabel (trim name)).filter
        fun name => !(trim name).isEmpty
      dialsUs := true }
  match offered.find? fun pos => (named.clientAt pos).isNone with
  | some pos => { service with clients := (named.setPos handle pos).2 }.activateClient handle
  | none => { service with clients := named }

/-- Add the device of an entry of the file. -/
def addFresh (entry : ConfigClient Ip) : Service Ip :=
  let (handle, clients) := service.clients.addWithConfig entry
  let added := { service with clients := clients }
  if entry.active then
    { added with clients := (added.clients.deactivateClient handle).2 }.activateClient handle
  else added

def handleConfigChange [DecidableEq Ip] (service : Service Ip) (entries : List (ConfigClient Ip)) :
    Service Ip :=
  let (stale, fresh) := service.clients.planReload entries
  fresh.foldl addFresh (stale.foldl removeClient service)

/-- Every device of the file, the edges not yet settled. -/
def load (entries : List (ConfigClient Ip)) : Service Ip where
  clients := entries.foldl (fun clients entry => (clients.addWithConfig entry).2) .empty
  edges := ∅
  captures := []

/-- Startup: the devices that are on are switched off, and on again one by one. -/
def startup (entries : List (ConfigClient Ip)) (known : Known) : Service Ip :=
  let loaded := load entries
  let active := loaded.clients.activeClients
  let off := active.foldl
    (fun service handle =>
      { service with
        clients := (service.clients.deactivateClient handle).2
        edges := service.edges.erase handle })
    loaded
  (active.foldl activateClient off).settleEdges known

/-- What a device, a person or another machine asks of the service. -/
inductive Act (Ip : Type) where
  | activate (handle : Nat)
  | deactivate (handle : Nat)
  | updatePos (handle : Nat) (pos : Position)
  | create (device : NewDevice Ip)
  | delete (handles : List Nat)
  | reload (entries : List (ConfigClient Ip))
  | dialledIn (fingerprint : String) (label : Option String)
  | edit (handle : Nat) (edit : Edit Ip)
  | other

def act [DecidableEq Ip] (service : Service Ip) : Act Ip → Service Ip
  | .activate handle => service.activateClient handle
  | .deactivate handle => service.switchOff handle
  | .updatePos handle pos => service.updatePos handle pos
  | .create device => service.addDevice device
  | .delete handles => handles.foldl removeClient service
  | .reload entries => service.handleConfigChange entries
  | .dialledIn fingerprint label => service.addDeviceThatDialsUs fingerprint label
  | .edit handle edit =>
    { service with clients := service.clients.update handle edit.change }
  | .other => service

/-- An event, and the edges settled after it. -/
def step [DecidableEq Ip] (service : Service Ip) (event : Act Ip × Known) : Service Ip :=
  (service.act event.1).settleEdges event.2

def run [DecidableEq Ip] (entries : List (ConfigClient Ip)) (known : Known)
    (events : List (Act Ip × Known)) : Service Ip :=
  events.foldl step (startup entries known)

end Service

end HopsFormal.Edges
