import HopsFormal.Frontend.Connection
import HopsFormal.Lib.Walk
import HopsFormal.Trust.Identity
import Mathlib.Data.List.Sort
import Mathlib.Data.String.Basic

/-!
# One card per machine

The list of devices joins who may connect in, who is paired, which devices are
configured and who asks to pair, by fingerprint.  The first three are hash maps or are
collected in one, so the order each is walked in is a parameter; the devices are walked
by their handles.
-/

namespace HopsFormal.Frontend

open Lib
open Trust (Lowercase trim)

inductive TrustState where
  | provisional
  | trusted
  | pendingApproval
  | pairAgain

/-- The side of a device that this machine dials. -/
structure DeviceSend (Addr : Type) where
  handle : Nat
  config : ClientConfig
  state : ClientState Addr

/-- One machine, both directions together. -/
structure Device (Addr : Type) where
  fingerprint : Option String
  label : String
  trust : TrustState
  connection : Connection
  send : Option (DeviceSend Addr)
  receive : Bool
  paired : Bool
  controls : Bool
  pairAgain : Bool

/-- The name the person gave a device, apart from its address. -/
def givenName (config : ClientConfig) : Option String :=
  config.label.filter fun label => trim label ≠ ""

/-- The hostname, else the description, else the start of the fingerprint. -/
def displayLabel (hostname description : Option String) (fp : String) : String :=
  match hostname.filter (· ≠ ""), description.filter (· ≠ "") with
  | some hostname, _ => hostname
  | none, some description => description
  | none, none => if fp = "" then "unnamed device" else shortFingerprint fp

/-- The orders in which the hash maps are walked. -/
structure DeviceWalks where
  authorized : Walk String
  trust : Walk String
  byFp : Walk String

namespace AppModel

variable {Addr : Type} (model : AppModel Addr)

def isSelf (fp : String) : Bool := model.fingerprint = some fp

abbrev Cards (Addr : Type) := Table String (Device Addr)

/-! ## The cards by fingerprint -/

/-- The card of a machine that may connect in. -/
def authorizedCard (fp description : String) : Device Addr where
  fingerprint := some fp
  label := displayLabel none (some description) fp
  trust := .trusted
  connection := .serviceGone
  send := none
  receive := true
  paired := true
  controls := false
  pairAgain := false

def addAuthorized (cards : Cards Addr) (fp : String) : Cards Addr :=
  if model.isSelf fp then cards
  else
    match model.authorized.lookup fp with
    | some description => cards.insert fp (authorizedCard fp description)
    | none => cards

def pairAgainCard (fp : String) (trust : PeerTrust) : Device Addr where
  fingerprint := some fp
  label := displayLabel none (some trust.label) fp
  trust := .pairAgain
  connection := .serviceGone
  send := none
  receive := false
  paired := false
  controls := false
  pairAgain := true

/-- The card of a machine that is paired, whichever way control goes. -/
def pairedCard (fp : String) (trust : PeerTrust) : Device Addr where
  fingerprint := some fp
  label := displayLabel none (some trust.label) fp
  trust := .trusted
  connection := .serviceGone
  send := none
  receive := false
  paired := true
  controls := false
  pairAgain := false

/-- A machine that is mid-pairing is on its number card instead. -/
def addPairing (cards : Cards Addr) (fp : String) : Cards Addr :=
  match model.trust.lookup fp with
  | none => cards
  | some trust =>
    if model.isSelf fp || trust.pending then cards
    else if trust.pairAgain then
      if (cards.lookup fp).isSome then cards else cards.insert fp (pairAgainCard fp trust)
    else
      let device := (cards.lookup fp).getD (pairedCard fp trust)
      cards.insert fp { device with controls := trust.weMayDrive }

/-- The card of a device whose machine is not paired. -/
def pinnedCard (fp : String) (config : ClientConfig) : Device Addr where
  fingerprint := some fp
  label := displayLabel config.hostname none fp
  trust := if model.pendingPairing = some fp then .pendingApproval else .provisional
  connection := .serviceGone
  send := none
  receive := false
  paired := false
  controls := false
  pairAgain := false

/-- The card of a device whose machine is not known yet. -/
def provisionalCard (send : DeviceSend Addr) : Device Addr where
  fingerprint := none
  label := (givenName send.config).getD (displayLabel send.config.hostname none "")
  trust := .provisional
  connection := .serviceGone
  send := some send
  receive := false
  paired := false
  controls := false
  pairAgain := false

section Names

variable (isIp : String → Bool)

/-- What a device is called once it is on its machine's card; an address is no name. -/
def sendLabel (label : String) (config : ClientConfig) : String :=
  match givenName config with
  | some name => name
  | none =>
    match (config.hostname.filter (· ≠ "")).filter (fun host => !isIp host) with
    | some host => host
    | none => label

/-- Put a device on a card, unless another one is on it already. -/
def attach (device : Device Addr) (send : DeviceSend Addr) : Device Addr :=
  if device.send.isSome then device
  else { device with label := sendLabel isIp device.label send.config, send := some send }

def pinned (state : ClientState Addr) : Option String :=
  state.peerFingerprint.filter fun fp => !model.isSelf fp

def addClient (cards : Cards Addr × List (Device Addr)) (handle : Nat) :
    Cards Addr × List (Device Addr) :=
  match model.clients.lookup handle with
  | none => cards
  | some (config, state) =>
    let send : DeviceSend Addr := ⟨handle, config, state⟩
    match model.pinned state with
    | some fp =>
      let device := (cards.1.lookup fp).getD (model.pinnedCard fp config)
      (cards.1.insert fp (attach isIp device send), cards.2)
    | none => (cards.1, cards.2 ++ [provisionalCard send])

/-- The card of a machine that only asks to pair. -/
def requestCard (fp : String) : Device Addr where
  fingerprint := some fp
  label := shortFingerprint fp
  trust := .pendingApproval
  connection := .serviceGone
  send := none
  receive := false
  paired := false
  controls := false
  pairAgain := false

def addRequest (cards : Cards Addr) : Cards Addr :=
  match model.pendingPairing with
  | none => cards
  | some fp =>
    if (model.authorized.lookup fp).isSome || model.isSelf fp || (cards.lookup fp).isSome then
      cards
    else cards.insert fp (requestCard fp)

def handles : List Nat := model.clients.keys.insertionSort (· ≤ ·)

def cards (walks : DeviceWalks) : Cards Addr × List (Device Addr) :=
  let authorized := (walks.authorized.keys model.authorized.keys).foldl model.addAuthorized ∅
  let paired := (walks.trust.keys model.trust.keys).foldl model.addPairing authorized
  let (byFp, provisional) := model.handles.foldl (model.addClient isIp) (paired, [])
  (model.addRequest byFp, provisional)

end Names

/-! ## What is known of a card -/

/-- What the model knows about a device's connection. -/
def facts (device : Device Addr) : Facts where
  service := model.connected
  standing :=
    match device.fingerprint with
    | none => .notPaired
    | some fp =>
      if model.isPairing fp then
        match model.pairingChecks.find? (·.fingerprint = fp) with
        | none => .pairing .notYet
        | some check => if check.answered then .pairing .answered else .pairing .onScreen
      else if (model.trust.lookup fp).any (·.pairAgain) then .pairAgain
      else if (model.authorized.lookup fp).isSome ||
          (model.trust.lookup fp).any fun trust => !trust.pending then .paired
      else .notPaired
  send :=
    match device.send with
    | none => .none
    | some send =>
      if !send.state.active then .off
      else if send.state.activeAddr.isSome then .on (.up send.state.alive)
      else .on (.down (decide (send.handle ∈ model.unreached)))
  inbound := device.fingerprint.any fun fp => decide (fp ∈ model.connectedPeers)
  removedByPeer := device.send.any fun send => send.state.removedByPeer
  dialsUs :=
    match device.send with
    | some send => send.state.dialsUs
    | none => device.controls

section Order

variable [Lowercase]

def fingerprintLe : Option String → Option String → Prop
  | none, _ => True
  | some _, none => False
  | some first, some second => first ≤ second

instance : DecidableRel fingerprintLe := fun first second =>
  match first, second with
  | none, _ => .isTrue trivial
  | some _, none => .isFalse id
  | some first, some second => inferInstanceAs (Decidable (first ≤ second))

/-- Devices come first, by their handles; `names` decides among the others. -/
def sendLe (first second : Option (DeviceSend Addr)) (names : Prop) : Prop :=
  match first, second with
  | some one, some other => one.handle ≤ other.handle
  | some _, none => True
  | none, some _ => False
  | none, none => names

instance (first second : Option (DeviceSend Addr)) (names : Prop) [decided : Decidable names] :
    Decidable (sendLe first second names) :=
  match first, second with
  | some one, some other => inferInstanceAs (Decidable (one.handle ≤ other.handle))
  | some _, none => .isTrue trivial
  | none, some _ => .isFalse id
  | none, none => decided

/-- Cards in the order of the list: the names without regard to case, then the fingerprints. -/
def cardLe (first second : Device Addr) : Prop :=
  sendLe first.send second.send
    (Lowercase.toLowercase first.label < Lowercase.toLowercase second.label ∨
      Lowercase.toLowercase first.label = Lowercase.toLowercase second.label ∧
        fingerprintLe first.fingerprint second.fingerprint)

instance : DecidableRel (@cardLe Addr _) := fun first second =>
  inferInstanceAs (Decidable (sendLe first.send second.send _))

/-- The list of devices, one card per machine. -/
def devices (isIp : String → Bool) (walks : DeviceWalks) : List (Device Addr) :=
  let (byFp, provisional) := model.cards isIp walks
  let joined := (walks.byFp.keys byFp.keys).filterMap byFp.lookup ++ provisional
  let known := joined.map fun device =>
    { device with connection := Connection.of (model.facts device) }
  known.insertionSort cardLe

end Order

end AppModel

end HopsFormal.Frontend
