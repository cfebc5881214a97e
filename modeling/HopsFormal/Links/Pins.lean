import HopsFormal.Links.Permitted
import Mathlib.Data.Finset.Dedup
import Mathlib.Data.List.Sort

/-!
# Which machine each device is

A device is pinned by its own dial, by its machine dialling in, or by the file.
What a dial that did not go through told of the machine at an address is
remembered beside the devices, and decides which device a machine that dials in
goes to.  Here the events of a run come with what each address answered, and the
last answer of each is kept for the record.
-/

namespace HopsFormal.Links

open Lib

variable {Ip : Type}

/-! ## What a failed dial tells -/

/-- What one address presented on a dial, and whether its key signed the handshake. -/
structure Answer (Ip : Type) where
  addr : SocketAddr Ip
  fingerprint : String
  signed : Bool

inductive TrustPrompt (Ip : Type) where
  | nothing
  | offer (addr : SocketAddr Ip) (fingerprint : String)
  | conflict
  deriving DecidableEq

/-- Nothing answered, one machine did, or the addresses answered as different machines. -/
def decideTrustPrompt : List (SocketAddr Ip × String) → TrustPrompt Ip
  | [] => .nothing
  | (addr, fingerprint) :: rest =>
    if rest.all (·.2 = fingerprint) then .offer addr fingerprint else .conflict

/--
What a failed dial tells of the machine at the device's address: the machine that
signed at an address the device still dials, that it reached no one machine, or
nothing.
-/
def whatTheDialRead (seen proven : List (SocketAddr Ip × String))
    (dials : SocketAddr Ip → Bool) : Option (Option (SocketAddr Ip × String)) :=
  match decideTrustPrompt seen with
  | .offer _ fingerprint =>
    (proven.find? fun answer => answer.2 = fingerprint && dials answer.1).map fun answer =>
      some (answer.1, fingerprint)
  | .conflict => some none
  | .nothing => none

/-! ## Taking over a changed file -/

/-- A device as its entry of the file reads, the part it is dialled by. -/
def configEntry (device : Device Ip) : ConfigClient Ip :=
  ⟨device.hostname, device.fixIps, device.port, device.active, device.peerFingerprint⟩

/-- Two entries read the same; the order of the addresses says nothing. -/
def ConfigClient.same [DecidableEq Ip] (first second : ConfigClient Ip) : Bool :=
  first.hostname = second.hostname && first.ips.toFinset = second.ips.toFinset &&
    first.port = second.port && first.active = second.active &&
    first.fingerprint = second.fingerprint

namespace ClientManager

variable [DecidableEq Ip]

/-- Whether a device reads as an entry, what is not dialled by included. -/
def reads {ρ : Type} [DecidableEq ρ] (clients : ClientManager Ip) (rest : Nat → ρ) (handle : Nat)
    (entry : ConfigClient Ip × ρ) : Bool :=
  (clients.device handle).any fun device => (configEntry device).same entry.1 && rest handle = entry.2

/-- One entry of the file claims a device that reads the same, or is to be added. -/
def claims {ρ : Type} [DecidableEq ρ] (clients : ClientManager Ip) (rest : Nat → ρ)
    (plan : List Nat × List (ConfigClient Ip × ρ)) (entry : ConfigClient Ip × ρ) :
    List Nat × List (ConfigClient Ip × ρ) :=
  match plan.1.findIdx? fun handle => clients.reads rest handle entry with
  | some place => (plan.1.eraseIdx place, plan.2)
  | none => (plan.1, plan.2 ++ [entry])

/-- The devices a changed file no longer has, and the entries to add. -/
def planReload {ρ : Type} [DecidableEq ρ] (clients : ClientManager Ip) (rest : Nat → ρ)
    (entries : List (ConfigClient Ip × ρ)) : List Nat × List (ConfigClient Ip × ρ) :=
  entries.foldl (clients.claims rest) (clients.devices.keys.insertionSort (· ≤ ·), [])

end ClientManager

/-! ## Events -/

/--
What happens next: an act, a dial that failed with what each address answered, or
a reload of the file.  What a device's entry says beside what it is dialled by is
given with the reload.
-/
inductive Event (Ip ρ : Type) where
  | act (act : Outbound.Act Ip)
  | fails (handle : Nat) (answers : List (Answer Ip))
  | reload (rest : Nat → ρ) (entries : List (ConfigClient Ip × ρ))

/-- No two entries of a file are pinned to one machine. -/
def NoDuplicatePins (entries : List (ConfigClient Ip)) : Prop :=
  entries.Pairwise fun first second => ∀ pin other, first.fingerprint = some pin →
    second.fingerprint = some other → eqIgnoreAsciiCase pin other = false

namespace Event

variable {ρ : Type}

/--
A person adds a device without a pin, a failed dial comes with its answers, and a
file that is taken over holds no duplicate pins.
-/
def Proper : Event Ip ρ → Prop
  | .act (.add config) => config.fingerprint = none
  | .act (.dialFails _ _) => False
  | .act _ => True
  | .fails _ _ => True
  | .reload _ entries => NoDuplicatePins (entries.map Prod.fst)

def clears : Event Ip ρ → String → Prop
  | .act (.revoke fingerprint forget), pin => forget = true ∧ pin = fingerprint
  | .act (.dropPins fingerprint), pin => pin = fingerprint
  | _, _ => False

variable [DecidableEq Ip]

/-- The answers of a failed dial at the addresses it called. -/
def called (answers : List (Answer Ip)) (addrs : List (SocketAddr Ip)) : List (Answer Ip) :=
  answers.filter (·.addr ∈ addrs)

/-- Whose key signed, which only a dial for a device pinned to no machine takes down. -/
def proven (answers : List (Answer Ip)) (expected : Option String) :
    List (SocketAddr Ip × String) :=
  if expected.isNone then (answers.filter (·.signed)).map fun answer =>
    (answer.addr, answer.fingerprint)
  else []

def seen (answers : List (Answer Ip)) : List (SocketAddr Ip × String) :=
  answers.map fun answer => (answer.addr, answer.fingerprint)

/-- What the devices are told of a failed dial. -/
def read (outbound : Outbound Ip) (handle : Nat) (answers : List (Answer Ip)) :
    Option (Option (SocketAddr Ip × String)) :=
  match outbound.connecting.lookup handle with
  | some (.calling addrs expected) =>
    whatTheDialRead (seen (called answers addrs)) (proven (called answers addrs) expected)
      (outbound.clients.targets handle)
  | _ => none

def acts [DecidableEq ρ] (outbound : Outbound Ip) : Event Ip ρ → List (Outbound.Act Ip)
  | .act one => [one]
  | .fails handle answers => [.dialFails handle (read outbound handle answers)]
  | .reload rest entries =>
    let plan := outbound.clients.planReload rest entries
    plan.1.map .remove ++ plan.2.map fun entry => .add entry.1

/--
Which machines are found to be at an address of a device: a key signed the
handshake there while the device dialled that address.
-/
@[grind =]
def answers (outbound : Outbound Ip) : Event Ip ρ → List (Nat × SocketAddr Ip × String)
  | .act (.dialMeets handle addr fingerprint) =>
    match outbound.connecting.lookup handle with
    | some (.calling addrs expected) =>
      if (addr ∈ addrs ∧ expected.all (· = fingerprint) ∧ ofCertificate fingerprint ∧
          ¬ outbound.weMayDrive fingerprint) ∧ outbound.clients.targets handle addr then
        [(handle, addr, fingerprint)]
      else []
    | _ => []
  | .act (.dialRecords handle) =>
    match outbound.connecting.lookup handle with
    | some (.landed addr fingerprint none) =>
      if outbound.clients.targets handle addr then [(handle, addr, fingerprint)] else []
    | _ => []
  | .fails handle answers =>
    match outbound.connecting.lookup handle with
    | some (.calling addrs _) =>
      ((called answers addrs).filter fun answer =>
        answer.signed && outbound.clients.targets handle answer.addr).map fun answer =>
          (handle, answer.addr, answer.fingerprint)
    | _ => []
  | _ => []

/-- Whether another machine is remembered for a device at an address. -/
def contradicts (clients : ClientManager Ip) (handle : Nat) (addr : SocketAddr Ip)
    (fingerprint : String) : Bool :=
  (clients.answeredAs.lookup handle).any fun old => old.1 = addr && old.2 ≠ fingerprint

/--
An answer that is neither remembered nor pinned, at an address another machine is
remembered for: of a link that lands while the device is off, has a link or may
not be pinned to that machine, or of a dial begun while the device was pinned.
-/
def missed (outbound : Outbound Ip) : Event Ip ρ → Bool
  | .act (.dialRecords handle) =>
    match outbound.connecting.lookup handle with
    | some (.landed addr fingerprint none) =>
      outbound.clients.targets handle addr &&
        (! outbound.clients.isOn handle || outbound.linked handle ||
          ! (outbound.clients.pin handle fingerprint).isOk) &&
        contradicts outbound.clients handle addr fingerprint
    | _ => false
  | .fails handle answers =>
    match outbound.connecting.lookup handle with
    | some (.calling addrs (some _)) =>
      (decideTrustPrompt (seen (called answers addrs)) ≠ .conflict) &&
        (called answers addrs).any fun answer =>
          answer.signed && outbound.clients.targets handle answer.addr &&
            contradicts outbound.clients handle answer.addr answer.fingerprint
    | _ => false
  | _ => false

end Event

/-! ## Runs -/

/-- The links, and the machine last found at each address of each device. -/
structure Watched (Ip : Type) where
  outbound : Outbound Ip
  lastAnswer : Nat → SocketAddr Ip → Option String

namespace Watched

variable {ρ : Type} [DecidableEq Ip] [DecidableEq ρ]

def note (lastAnswer : Nat → SocketAddr Ip → Option String)
    (answer : Nat × SocketAddr Ip × String) : Nat → SocketAddr Ip → Option String :=
  fun handle addr =>
    if handle = answer.1 ∧ addr = answer.2.1 then some answer.2.2 else lastAnswer handle addr

def step (watched : Watched Ip) (event : Event Ip ρ) : Watched Ip where
  outbound := (event.acts watched.outbound).foldl Outbound.step watched.outbound
  lastAnswer := (event.answers watched.outbound).foldl note watched.lastAnswer

/-- The devices of the file, before anything was dialled. -/
def load (entries : List (ConfigClient Ip)) : Watched Ip where
  outbound := (entries.map .add).foldl Outbound.step .start
  lastAnswer := fun _ _ => none

def run (entries : List (ConfigClient Ip)) (events : List (Event Ip ρ)) : Watched Ip :=
  events.foldl step (load entries)

def NoneMissed (watched : Watched Ip) : List (Event Ip ρ) → Prop
  | [] => True
  | event :: rest => event.missed watched.outbound = false ∧ NoneMissed (watched.step event) rest

end Watched

end HopsFormal.Links
