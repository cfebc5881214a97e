import HopsFormal.Lib.Table
import HopsFormal.Prompts.PromptGate
import Mathlib.Data.Finset.Basic

/-!
# What a frontend knows of the daemon

A frontend folds the daemon's events into one model: the devices that are
configured, the machines that are trusted, the requests to pair that wait for an
answer and the numbers that wait to be compared, and the addresses machines have
connected in from.  Times are milliseconds.
-/

namespace HopsFormal.Frontend

open Lib
open Prompts (AttemptOrigin)

/-- What the user configured of a device. -/
structure ClientConfig where
  label : Option String
  hostname : Option String

structure ClientState (Addr : Type) where
  active : Bool
  activeAddr : Option Addr
  alive : Bool
  peerFingerprint : Option String
  removedByPeer : Bool
  dialsUs : Bool

/-- What the trust store grants a machine; `pending` until it is confirmed on both. -/
structure PeerTrust where
  clipboardFrom : Bool
  clipboardTo : Bool
  pending : Bool
  label : String
  weMayDrive : Bool
  pairAgain : Bool

inductive PairingCheck where
  | show (number : String)
  | pick (numbers : List String)

/-- A pairing whose number a person here must compare. -/
structure PairingCheckCard (Addr : Type) where
  fingerprint : String
  addr : Option Addr
  check : PairingCheck
  answered : Bool

/-- A machine waiting for an answer to a pairing prompt. -/
structure PairingAttempt (Addr : Type) where
  fingerprint : String
  origin : AttemptOrigin
  addr : Option Addr
  since : Nat

inductive CrossingRefusal where
  | notConnected
  | notAcceptingInput
  | notPermitted
  | unanswered
  deriving DecidableEq

abbrev Clients (Addr : Type) := Table Nat (ClientConfig × ClientState Addr)

/-- What the daemon tells; the events that touch nothing kept here are `other`. -/
inductive FrontendEvent (Addr : Type) where
  | enumerate (list : List (Nat × ClientConfig × ClientState Addr))
  | created (handle : Nat) (config : ClientConfig) (state : ClientState Addr)
  | state (handle : Nat) (config : ClientConfig) (state : ClientState Addr)
  | deleted (handle : Nat)
  | publicKeyFingerprint (fingerprint : String)
  | authorizedUpdated (authorized : Table String String)
  | trustUpdated (trust : Table String PeerTrust)
  | pairingCheck (fingerprint : String) (addr : Option Addr) (check : PairingCheck)
      (answered : Bool)
  | pairingEnded (fingerprint : String) (paired : Bool)
  | deviceConnected (addr : Addr) (fingerprint : String)
  | deviceEntered (fingerprint : String) (addr : Addr)
  | incomingDisconnected (addr : Addr)
  | connectionAttempt (fingerprint : String) (origin : AttemptOrigin) (addr : Option Addr)
  | crossingRefused (handle : Nat) (reason : CrossingRefusal)
  | other

structure AppModel (Addr : Type) where
  connected : Bool
  link : UInt64
  clients : Clients Addr
  fingerprint : Option String
  authorized : Table String String
  trust : Table String PeerTrust
  connectedPeers : Finset String
  pendingPairing : Option String
  pendingPairingOrigin : Option AttemptOrigin
  pendingPairingAddr : Option Addr
  pendingPairingSince : Option Nat
  pairingAttempts : List (PairingAttempt Addr)
  pairingChecks : List (PairingCheckCard Addr)
  peerAddrs : Table Addr String
  unreached : Finset Nat

/-- How many machines awaiting an answer are held at once. -/
def maxPairingAttempts : Nat := 16

/-- The start of a fingerprint, enough to tell two machines apart by. -/
def shortFingerprint (fp : String) : String :=
  String.ofList (List.intercalate [':'] ((fp.toList.splitOn ':').take 3))

/-- Switched on, with no link up. -/
def stillUnreached {Addr : Type} (state : ClientState Addr) : Bool :=
  state.active && state.activeAddr.isNone

namespace AppModel

variable {Addr : Type}

def launched : AppModel Addr where
  connected := false
  link := 0
  clients := ∅
  fingerprint := none
  authorized := ∅
  trust := ∅
  connectedPeers := ∅
  pendingPairing := none
  pendingPairingOrigin := none
  pendingPairingAddr := none
  pendingPairingSince := none
  pairingAttempts := []
  pairingChecks := []
  peerAddrs := ∅
  unreached := ∅

variable (model : AppModel Addr)

/-- Approved here, and waiting for the number to be confirmed on both machines. -/
def isPairing (fp : String) : Bool :=
  (model.trust.lookup fp).any (·.pending) || model.pairingChecks.any (·.fingerprint = fp)

/-- What an attempt asks for is permitted already. -/
def arrivalPermitted (fp : String) : Option AttemptOrigin → Bool
  | some .outboundDial => model.isPairing fp
  | some .inbound | none => model.isPairing fp || (model.authorized.lookup fp).isSome

/-- Replace the entry of a machine in its place, or add it at the end of a full queue's rest. -/
def hold {α : Type} (fingerprint : α → String) (held : List α) (entry : α) : List α :=
  match held.findIdx? (fingerprint · = fingerprint entry) with
  | some place => held.set place entry
  | none =>
    (if maxPairingAttempts ≤ held.length then held.tail else held) ++ [entry]

def noteAttempt (attempt : PairingAttempt Addr) : AppModel Addr :=
  { model with
    pairingAttempts := hold PairingAttempt.fingerprint model.pairingAttempts attempt }

/-- Drop the requests that are permitted by now. -/
def withdrawPermitted : AppModel Addr :=
  { model with
    pairingAttempts := model.pairingAttempts.filter fun attempt =>
      !model.arrivalPermitted attempt.fingerprint (some attempt.origin) }

section Peers

variable [DecidableEq Addr] (model : AppModel Addr)

/-- A machine no address stands for any more is not connected. -/
def forgetIfLastAddr (fp : String) : AppModel Addr :=
  if model.peerAddrs.any fun _ known => known = fp then model
  else { model with connectedPeers := model.connectedPeers.erase fp }

def registerPeer (addr : Addr) (fp : String) : AppModel Addr :=
  let registered := { model with peerAddrs := model.peerAddrs.insert addr fp }
  let settled :=
    match model.peerAddrs.lookup addr with
    | some old => if old = fp then registered else registered.forgetIfLastAddr old
    | none => registered
  { settled with connectedPeers := insert fp settled.connectedPeers }

/-- A device as the daemon now has it. -/
def setClient (handle : Nat) (config : ClientConfig) (state : ClientState Addr) : AppModel Addr :=
  { model with
    unreached := if stillUnreached state then model.unreached else model.unreached.erase handle
    clients := model.clients.insert handle (config, state) }

/-- Fold one event of the daemon into the model. -/
def apply (event : FrontendEvent Addr) (now : Nat) : AppModel Addr :=
  match event with
  | .enumerate list =>
    let clients : Clients Addr := list.foldl (fun clients row => clients.insert row.1 row.2) ∅
    { model with
      clients := clients
      unreached := model.unreached.filter fun handle =>
        (clients.lookup handle).any fun client => stillUnreached client.2 }
  | .created handle config state => model.setClient handle config state
  | .state handle config state => model.setClient handle config state
  | .deleted handle =>
    { model with
      clients := model.clients.erase handle
      unreached := model.unreached.erase handle }
  | .publicKeyFingerprint fingerprint => { model with fingerprint := some fingerprint }
  | .authorizedUpdated authorized =>
    let updated := { model with authorized := authorized }.withdrawPermitted
    if updated.pendingPairing.any fun fp =>
        updated.arrivalPermitted fp updated.pendingPairingOrigin then
      { updated with pendingPairing := none, pendingPairingSince := none }
    else updated
  | .trustUpdated trust => { model with trust := trust }.withdrawPermitted
  | .pairingCheck fingerprint addr check answered =>
    { model with
      pairingChecks := hold PairingCheckCard.fingerprint model.pairingChecks
        ⟨fingerprint, addr, check, answered⟩ }
  | .pairingEnded fingerprint _ =>
    { model with
      pairingChecks := model.pairingChecks.filter (·.fingerprint ≠ fingerprint) }
  | .deviceConnected addr fingerprint => model.registerPeer addr fingerprint
  | .deviceEntered fingerprint addr => model.registerPeer addr fingerprint
  | .incomingDisconnected addr =>
    let gone := { model with peerAddrs := model.peerAddrs.erase addr }
    match model.peerAddrs.lookup addr with
    | some fp => gone.forgetIfLastAddr fp
    | none => gone
  | .connectionAttempt fingerprint origin addr =>
    if model.arrivalPermitted fingerprint (some origin) then model
    else
      { model.noteAttempt ⟨fingerprint, origin, addr, now⟩ with
        pendingPairing := some fingerprint
        pendingPairingOrigin := some origin
        pendingPairingAddr := addr
        pendingPairingSince := some now }
  | .crossingRefused handle reason =>
    if reason = .notConnected ∧
        (model.clients.lookup handle).any fun client => stillUnreached client.2 then
      { model with unreached := insert handle model.unreached }
    else model
  | .other => model

def daemonGone : AppModel Addr :=
  { model with
    connected := false
    link := model.link + 1
    connectedPeers := ∅
    peerAddrs := ∅
    unreached := ∅
    pendingPairing := none
    pendingPairingOrigin := none
    pendingPairingAddr := none
    pendingPairingSince := none
    pairingAttempts := []
    pairingChecks := []
    clients := model.clients.mapValues fun client =>
      (client.1, { client.2 with activeAddr := none, alive := false }) }

end Peers

end AppModel

end HopsFormal.Frontend
