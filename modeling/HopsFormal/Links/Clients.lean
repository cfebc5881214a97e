import HopsFormal.Lib.Table

/-!
# The devices

A device is a machine this one may drive: where it is dialled, whether it is
switched on, the machine it is pinned to, and what its link said.  The devices
are kept by handle; a handle is never given out twice.  What is shown only (a
device's name, edge, place on the canvas and the notices about it) is left out.
-/

namespace HopsFormal.Links

open Lib

structure SocketAddr (Ip : Type) where
  ip : Ip
  port : UInt16
  deriving DecidableEq

instance {Ip : Type} [DecidableEq Ip] : LawfulBEq (SocketAddr Ip) := inferInstance

def defaultPort : UInt16 := 4722

/-- The build a machine says it runs. -/
abbrev Commit := Vector UInt8 8

structure Device (Ip : Type) where
  hostname : Option String
  fixIps : List Ip
  dnsIps : List Ip
  ips : List Ip
  port : UInt16
  active : Bool
  activeAddr : Option (SocketAddr Ip)
  peerFingerprint : Option String
  alive : Bool
  peerCaps : Option UInt32
  peerCommit : Option Commit

/-- A device as it is added. -/
structure ConfigClient (Ip : Type) where
  hostname : Option String
  ips : List Ip
  port : UInt16
  active : Bool
  fingerprint : Option String

/-- The devices, those whose peer answered a ping, and the machine each one's dial reached; handles
are counted without the end of a `u64`. -/
structure ClientManager (Ip : Type) where
  devices : Table Nat (Device Ip)
  next : Nat
  answered : List Nat
  answeredAs : Table Nat (SocketAddr Ip × String)

/-- Why nothing was pinned. -/
inductive PinRefused where
  | dialled (other : Nat)
  | pinnedElsewhere (pin : String)
  deriving DecidableEq

def asciiLowercase (text : String) : List Char :=
  text.toList.map Char.toLower

def eqIgnoreAsciiCase (first second : String) : Bool :=
  asciiLowercase first == asciiLowercase second

namespace ClientManager

variable {Ip : Type}

def empty : ClientManager Ip where
  devices := ∅
  next := 0
  answered := []
  answeredAs := ∅

def device (clients : ClientManager Ip) (handle : Nat) : Option (Device Ip) :=
  clients.devices.lookup handle

def update (clients : ClientManager Ip) (handle : Nat) (change : Device Ip → Device Ip) :
    ClientManager Ip :=
  { clients with devices := clients.devices.modify handle change }

variable (clients : ClientManager Ip) (handle : Nat)

theorem device_update (other : Nat) (change : Device Ip → Device Ip) :
    (clients.update handle change).device other =
      if other = handle then (clients.device other).map change else clients.device other :=
  clients.devices.lookup_modify handle other change

@[simp] theorem update_next (change : Device Ip → Device Ip) :
    (clients.update handle change).next = clients.next :=
  rfl

@[simp] theorem update_answered (change : Device Ip → Device Ip) :
    (clients.update handle change).answered = clients.answered :=
  rfl

theorem isSome_update (other : Nat) (change : Device Ip → Device Ip) :
    ((clients.update handle change).device other).isSome = (clients.device other).isSome := by
  rw [device_update]
  split <;> simp

theorem map_device_update {α : Type} {part : Device Ip → α} {change : Device Ip → Device Ip}
    (kept : ∀ device, part (change device) = part device) (clients : ClientManager Ip)
    (handle other : Nat) :
    ((clients.update handle change).device other).map part = (clients.device other).map part := by
  rw [device_update]
  split
  · rw [Option.map_map]
    exact congrArg (Option.map · _) (funext kept)
  · rfl

/-! ## Adding, removing and editing -/

def addWithConfig (clients : ClientManager Ip) (config : ConfigClient Ip) : ClientManager Ip :=
  { clients with
    devices := clients.devices.insert clients.next
      { hostname := config.hostname
        fixIps := config.ips
        dnsIps := []
        ips := config.ips
        port := config.port
        active := config.active
        activeAddr := none
        peerFingerprint := config.fingerprint
        alive := false
        peerCaps := none
        peerCommit := none }
    next := clients.next + 1 }

def removeClient (clients : ClientManager Ip) (handle : Nat) : ClientManager Ip :=
  { clients with
    devices := clients.devices.erase handle
    answered := clients.answered.filter (· ≠ handle)
    answeredAs := clients.answeredAs.erase handle }

def activateClient (clients : ClientManager Ip) (handle : Nat) : ClientManager Ip :=
  clients.update handle fun device => { device with active := true }

def deactivateClient (clients : ClientManager Ip) (handle : Nat) : ClientManager Ip :=
  clients.update handle fun device => { device with active := false }

def updateIps (device : Device Ip) : Device Ip :=
  { device with ips := device.fixIps ++ device.dnsIps }

def setFixIps (clients : ClientManager Ip) (handle : Nat) (ips : List Ip) : ClientManager Ip :=
  clients.update handle fun device => updateIps { device with fixIps := ips }

def setDnsIps (clients : ClientManager Ip) (handle : Nat) (ips : List Ip) : ClientManager Ip :=
  clients.update handle fun device => updateIps { device with dnsIps := ips }

/-- A new name clears the active address and the addresses the old one resolved to. -/
def setHostname (clients : ClientManager Ip) (handle : Nat) (hostname : Option String) :
    ClientManager Ip :=
  clients.update handle fun device =>
    if device.hostname ≠ hostname then
      updateIps { device with hostname := hostname, activeAddr := none, dnsIps := [] }
    else device

/-- A new port is written into the active address too. -/
def setPort (clients : ClientManager Ip) (handle : Nat) (port : UInt16) : ClientManager Ip :=
  clients.update handle fun device =>
    if device.port ≠ port then
      { device with
        port := port
        activeAddr := device.activeAddr.map fun addr => ⟨addr.ip, port⟩ }
    else device

theorem device_addWithConfig_of_ne (config : ConfigClient Ip) {handle : Nat}
    (older : handle ≠ clients.next) :
    (clients.addWithConfig config).device handle = clients.device handle :=
  AList.lookup_insert_ne older

theorem device_removeClient (other : Nat) : (clients.removeClient handle).device other =
      if other = handle then none else clients.device other := by
  split
  · next same =>
    subst same
    exact AList.lookup_erase _ _
  · next apart => exact AList.lookup_erase_ne apart

/-! ## What is asked of a device -/

/-- Whether the device exists and still dials an address. -/
def targets [DecidableEq Ip] (clients : ClientManager Ip) (handle : Nat)
    (addr : SocketAddr Ip) : Bool :=
  (clients.device handle).any fun device => device.port = addr.port ∧ addr.ip ∈ device.ips

def isOn (clients : ClientManager Ip) (handle : Nat) : Bool :=
  (clients.device handle).any (·.active)

def activeAddr (clients : ClientManager Ip) (handle : Nat) : Option (SocketAddr Ip) :=
  (clients.device handle).bind (·.activeAddr)

def peerFingerprint (clients : ClientManager Ip) (handle : Nat) : Option String :=
  (clients.device handle).bind (·.peerFingerprint)

def alive (clients : ClientManager Ip) (handle : Nat) : Bool :=
  (clients.device handle).any (·.alive)

def peerCaps (clients : ClientManager Ip) (handle : Nat) : Option UInt32 :=
  (clients.device handle).bind (·.peerCaps)

/-- The devices whose connection is open to an address. -/
def handlesAt [DecidableEq Ip] (clients : ClientManager Ip) (addr : SocketAddr Ip) : List Nat :=
  clients.devices.keysWhere fun _ device => device.activeAddr = some addr

theorem mem_handlesAt [DecidableEq Ip] {clients : ClientManager Ip} {addr : SocketAddr Ip}
    {handle : Nat} :
    handle ∈ clients.handlesAt addr ↔ clients.activeAddr handle = some addr := by
  rw [handlesAt, Table.mem_keysWhere, activeAddr, Option.bind_eq_some_iff]
  simp [device]

/-! ## What its link says -/

def setActiveAddr (clients : ClientManager Ip) (handle : Nat) (addr : Option (SocketAddr Ip)) :
    ClientManager Ip :=
  let answered := if addr.isNone then clients.answered.filter (· ≠ handle) else clients.answered
  { clients with answered := answered }.update handle fun device =>
    { device with activeAddr := addr }

def setAlive (clients : ClientManager Ip) (handle : Nat) (alive : Bool) : ClientManager Ip :=
  clients.update handle fun device => { device with alive := alive }

/-- The device's peer answered a ping, saying whether it injects input. -/
def answeredPing (clients : ClientManager Ip) (handle : Nat) (alive : Bool) : ClientManager Ip :=
  let answered :=
    if (clients.device handle).isSome then clients.answered.insert handle else clients.answered
  { clients with answered := answered }.setAlive handle alive

def setPeerCommit (clients : ClientManager Ip) (handle : Nat) (commit : Option Commit) :
    ClientManager Ip :=
  clients.update handle fun device => { device with peerCommit := commit }

def setPeerCaps (clients : ClientManager Ip) (handle : Nat) (caps : Option UInt32) :
    ClientManager Ip :=
  clients.update handle fun device => { device with peerCaps := caps }

/-! ## Which machine it is -/

/-- The devices pinned to a machine, those that are on. -/
def pinnedTo (clients : ClientManager Ip) (fingerprint : String) : List Nat :=
  clients.devices.keysWhere fun _ device =>
    device.active && device.peerFingerprint = some fingerprint

/-- Of the devices pinned to a machine, the one added first. -/
def diallerOf (clients : ClientManager Ip) (fingerprint : String) : Option Nat :=
  (clients.devices.keysWhere fun _ device =>
    device.peerFingerprint.any (eqIgnoreAsciiCase · fingerprint)).min?

/--
Pin a device to a machine, unless it is pinned to another one or another device
dials that machine.
-/
def pin (clients : ClientManager Ip) (handle : Nat) (fingerprint : String) :
    Except PinRefused (ClientManager Ip) :=
  match (clients.peerFingerprint handle).filter (! eqIgnoreAsciiCase · fingerprint) with
  | some pin => .error (.pinnedElsewhere pin)
  | none =>
    match (clients.diallerOf fingerprint).filter (· ≠ handle) with
    | some other => .error (.dialled other)
    | none =>
      .ok ({ clients with answeredAs := clients.answeredAs.erase handle }.update handle
        fun device => { device with peerFingerprint := some fingerprint })

/-- Record which machine a device's own dial reached, if one. -/
def setAnsweredAs (clients : ClientManager Ip) (handle : Nat)
    (answered : Option (SocketAddr Ip × String)) : ClientManager Ip :=
  match answered with
  | some reached =>
    if (clients.device handle).isSome then
      { clients with answeredAs := clients.answeredAs.insert handle reached }
    else { clients with answeredAs := clients.answeredAs.erase handle }
  | none => { clients with answeredAs := clients.answeredAs.erase handle }

/--
The device a machine that dialled this one goes to: the one pinned to it, or else
the one pinned to none whose own dial reached it, which is pinned to it now.
-/
def claimForDialIn [DecidableEq Ip] (clients : ClientManager Ip) (fingerprint : String) :
    Option (Nat × ClientManager Ip) :=
  match clients.diallerOf fingerprint with
  | some pinned => some (pinned, clients)
  | none =>
    match (clients.answeredAs.keysWhere fun handle reached =>
        eqIgnoreAsciiCase reached.2 fingerprint ∧
          clients.peerFingerprint handle = none ∧ clients.targets handle reached.1).min? with
    | none => none
    | some reached =>
      match clients.pin reached fingerprint with
      | .ok pinned => some (reached, pinned)
      | .error _ => none

theorem claimForDialIn_cases [DecidableEq Ip] {clients after : ClientManager Ip}
    {fp : String} {handle : Nat}
    (claimed : clients.claimForDialIn fp = some (handle, after)) :
    clients.diallerOf fp = some handle ∧ after = clients ∨
      clients.pin handle fp = .ok after ∧ clients.peerFingerprint handle = none ∧
        ∃ addr machine, clients.answeredAs.lookup handle = some (addr, machine) ∧
          eqIgnoreAsciiCase machine fp ∧ clients.targets handle addr := by
  unfold claimForDialIn at claimed
  split at claimed
  · next pinned first =>
    obtain ⟨rfl, rfl⟩ := Prod.mk.inj (Option.some.inj claimed)
    exact .inl ⟨first, rfl⟩
  · split at claimed
    · cases claimed
    · next found first =>
      split at claimed
      · next pinned pins =>
        obtain ⟨rfl, rfl⟩ := Prod.mk.inj (Option.some.inj claimed)
        obtain ⟨⟨addr, machine⟩, remembered, test⟩ := Table.mem_keysWhere.mp (List.min?_mem first)
        obtain ⟨same, unpinned, targets⟩ := of_decide_eq_true test
        exact .inr ⟨pins, unpinned, addr, machine, remembered, same, targets⟩
      · cases claimed

/-- Let go of every pin to a machine. -/
def clearPinsMatching (clients : ClientManager Ip) (fingerprint : String) : ClientManager Ip :=
  { clients with
    devices := clients.devices.mapValues fun device =>
      if device.peerFingerprint = some fingerprint then
        { device with peerFingerprint := none }
      else device }

theorem device_clearPinsMatching (fp : String) (handle : Nat) :
    (clients.clearPinsMatching fp).device handle =
      (clients.device handle).map fun device =>
        if device.peerFingerprint = some fp then
          { device with peerFingerprint := none }
        else device :=
  clients.devices.lookup_mapValues _ handle

theorem pin_ok {clients pinned : ClientManager Ip} {handle : Nat} {fingerprint : String}
    (taken : clients.pin handle fingerprint = .ok pinned) :
    (∀ pin, clients.peerFingerprint handle = some pin → eqIgnoreAsciiCase pin fingerprint) ∧
      pinned = { clients with answeredAs := clients.answeredAs.erase handle }.update handle
        fun device => { device with peerFingerprint := some fingerprint } := by
  unfold pin at taken
  split at taken
  · exact absurd taken (by simp)
  · next unpinned =>
    split at taken
    · exact absurd taken (by simp)
    · refine ⟨?_, (Except.ok.inj taken).symm⟩
      intro pin pinnedTo
      rw [pinnedTo] at unpinned
      simpa using unpinned

end ClientManager

end HopsFormal.Links
