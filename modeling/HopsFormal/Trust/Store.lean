import HopsFormal.Trust.Lease
import Std.Data.ExtTreeMap.Lemmas
import Mathlib.Data.String.Basic

/-!
# The trust store and its verbs

One record per identity, the machines a build before the store listed, and the
floor of the enforcement clock.  A verb that reads the clock takes the reading
of the system clock as an argument.  A verb that answers with an error leaves
the store as it was.
-/

namespace HopsFormal.Trust

/-- A machine to be paired again: the name it had and when it was found. -/
structure PairAgain where
  label : String
  since : Nat
  deriving DecidableEq

/-- Every trust decision of one machine, which names itself canonically. -/
structure TrustStore where
  ours : String
  clock : Clock
  entries : Std.ExtTreeMap String Entry
  pairAgain : Std.ExtTreeMap String PairAgain
  valid : validFingerprint ours = true

/-- What the migration did, for the caller to log. -/
structure MigrationReport where
  toPairAgain : List String := []
  refused : List String := []
  dropped : List String := []
  deriving DecidableEq

namespace TrustStore

variable (store : TrustStore)

def now (reading : Nat) : Nat := store.clock.at_ reading

def setLease (fp : String) (lease : Lease) : TrustStore :=
  { store with entries := store.entries.insert fp { lease := some lease } }

/-- Drop the record of `fp` whole. -/
def removeEntry (fp : String) : TrustStore :=
  { store with entries := store.entries.erase fp }

/-- Take `fp` off the machines to be paired again. -/
def unlist (fp : String) : TrustStore :=
  { store with pairAgain := store.pairAgain.erase fp }

/-- The lease recorded under exactly this key. -/
def leaseAt (fp : String) : Option Lease :=
  store.entries[fp]?.bind Entry.lease

section Verbs

variable [Lowercase]

/-- A store that knows who it is and how far time has got. -/
def new (ours : String) (floor : Nat) : Except TrustError TrustStore :=
  match found : canonicalFingerprint ours with
  | none => .error (.badFingerprint ours)
  | some canonical => .ok ⟨canonical, ⟨floor⟩, ∅, ∅, canonical_valid found⟩

variable (store : TrustStore)

/-- The one door into the store. -/
def admitLease (lease : Lease) : Except TrustError TrustStore := do
  let lease ← lease.canonicalized
  if lease.issuedTo ≠ store.ours then .error (.wrongMachine store.ours lease.issuedTo)
  else
    let store := if lease.confirmed then store.unlist lease.peer else store
    .ok (store.setLease lease.peer lease)

/-- The direction a provenance may not carry, by the name it is refused under. -/
def incoherent (caps : Caps) : Origin → Option String
  | .outboundDial => if caps.contains .driveMe then some "inbound" else none
  | .inbound => if caps.contains .iMayDrive then some "outbound" else none
  | _ => none

/-- An approval added to a lease in force. -/
def mergeLease (held lease : Lease) (clipboardChosen : Bool) : Lease :=
  let granted := if held.clipboardChosen && !clipboardChosen then
    lease.caps.without .clipboard else lease.caps
  let caps := held.caps.union granted
  { held with
    caps
    origin := match decide (caps = lease.caps), lease.origin with
      | true, origin => origin
      | false, .chosen _ => (controllerOf caps).elim .migrated .chosen
      | false, _ => originOf caps
    issuedAt := lease.issuedAt
    expiry := lease.expiry
    confirmed := held.confirmed }

/-- The lease under `fp` if it grants anything at `now`. -/
def inForce (fp : String) (now : Nat) : Option Lease :=
  (store.entries[fp]?.filter fun entry =>
    !(effectiveCapabilities entry store.ours now).isEmpty).bind Entry.lease

def issueLease (reading : Nat) (fingerprint label : String) (caps : Caps) (term : Term)
    (origin : Origin) (clipboardChosen : Bool) : Except TrustError TrustStore := do
  let now := store.now reading
  let lease ← Lease.canonicalized
    { peer := fingerprint
      issuedTo := store.ours
      label
      caps
      origin
      issuedAt := now
      expiry := term.expiryFrom now
      clipboardChosen
      confirmed := false }
  match incoherent caps origin with
  | some granted => .error (.directionMismatch origin granted)
  | none =>
    match store.inForce lease.peer now with
    | some held => store.admitLease (mergeLease held lease clipboardChosen)
    | none => store.admitLease lease

def issueWithOrigin (reading : Nat) (fingerprint label : String) (caps : Caps) (origin : Origin) :
    Except TrustError TrustStore :=
  store.issueLease reading fingerprint label caps defaultTerm origin false

/-- The grant of an approval that asked nothing. -/
def issue (reading : Nat) (fingerprint label : String) (caps : Caps) :
    Except TrustError TrustStore :=
  store.issueWithOrigin reading fingerprint label caps (originOf caps)

/-- The grant of a pairing card's answers. -/
def issueAnswered (reading : Nat) (fingerprint label : String) (controller : Controller)
    (clipboard : Bool) : Except TrustError TrustStore :=
  let drive := driveOf controller
  let shared := if clipboard then existingPairingClipboard drive else .none
  store.issueLease reading fingerprint label (drive.union shared) defaultTerm
    (.chosen controller) true

/-- Extend an existing lease to a fresh term. -/
def renew (reading : Nat) (fingerprint : String) : Except TrustError TrustStore :=
  let fp := key fingerprint
  let now := store.now reading
  match store.leaseAt fp with
  | none => .error (.unknown fp)
  | some lease =>
    .ok (store.setLease fp
      { lease with
        issuedAt := min lease.issuedAt now
        expiry := defaultTerm.expiryFrom now })

def dropCapabilities (fingerprint : String) (drop : Caps) : Option Caps × TrustStore :=
  let fp := key fingerprint
  match store.leaseAt fp with
  | none => (none, store)
  | some lease =>
    let left := lease.caps.without drop
    if left.isEmpty then (some left, store.removeEntry fp)
    else (some left, store.setLease fp { lease with caps := left })

/-- The off arm of the clipboard switch. -/
def disableClipboard (fingerprint : String) : Option Bool × TrustStore :=
  let fp := key fingerprint
  match store.leaseAt fp with
  | none => (none, store)
  | some lease =>
    if lease.clipboardChosen && !lease.caps.intersects .clipboard then (some false, store)
    else
      match store.dropCapabilities fp .clipboard with
      | (none, narrowed) => (none, narrowed)
      | (some _, narrowed) =>
        match narrowed.leaseAt fp with
        | none => (some true, narrowed)
        | some lease =>
          (some true, narrowed.setLease fp { lease with clipboardChosen := true })

/-- Record that both machines confirmed the pairing. -/
def confirm (fingerprint : String) : Except TrustError TrustStore :=
  let fp := key fingerprint
  match store.leaseAt fp with
  | none => .error (.unknown fp)
  | some lease => .ok ((store.setLease fp { lease with confirmed := true }).unlist fp)

/-- Drop the lease of a pairing that was never confirmed. -/
def forgetUnconfirmed (fingerprint : String) : Bool × TrustStore :=
  let fp := key fingerprint
  match store.leaseAt fp with
  | none => (false, store)
  | some lease => if lease.confirmed then (false, store) else (true, store.removeEntry fp)

def enableClipboard (reading : Nat) (fingerprint : String) : Option Bool × TrustStore :=
  let fp := key fingerprint
  let now := store.now reading
  match store.entries[fp]? with
  | none => (none, store)
  | some entry =>
    if (effectiveCapabilities entry store.ours now).isEmpty then (none, store)
    else
      match entry.lease with
      | none => (none, store)
      | some lease =>
        let allowed := existingPairingClipboard lease.caps
        if lease.caps.contains allowed then (some false, store)
        else
          (some true, store.setLease fp
            { lease with caps := lease.caps.union allowed, clipboardChosen := true })

/-- Rename a device; it never grants anything. -/
def setLabel (fingerprint label : String) : Except TrustError TrustStore :=
  let fp := key fingerprint
  let label := sanitizeLabel label
  match store.entries[fp]? with
  | none => .error (.unknown fp)
  | some entry =>
    match entry.lease with
    | none => .ok store
    | some lease => .ok (store.setLease fp { lease with label })

/-- Remove a device: its record and its listing. -/
def forget (fingerprint : String) : Bool × TrustStore :=
  let fp := key fingerprint
  (store.entries.contains fp || store.pairAgain.contains fp, (store.unlist fp).removeEntry fp)

/-- Record a machine to pair again, unless a record is held for it. -/
def listToPairAgain (fingerprint label : String) (since : Nat) : Except TrustError TrustStore :=
  match canonicalFingerprint fingerprint with
  | none => .error (.badFingerprint fingerprint)
  | some fp =>
    if fp = store.ours ∨ store.entries.contains fp then .ok store
    else
      .ok { store with
        pairAgain := store.pairAgain.insert fp { label := sanitizeLabel label, since } }

def toPairAgain (fingerprint : String) : Option PairAgain :=
  store.pairAgain[key fingerprint]?

/-- One authorized entry of the old table. -/
def migrateOne (removed : List String) (now : Nat) (done : MigrationReport × TrustStore)
    (entry : String × String) : MigrationReport × TrustStore :=
  let (report, store) := done
  match canonicalFingerprint entry.1 with
  | none => ({ report with dropped := report.dropped ++ [entry.1] }, store)
  | some fp =>
    if fp ∈ removed then
      if fp ∈ report.refused then (report, store)
      else ({ report with refused := report.refused ++ [fp] }, store)
    else
      match store.listToPairAgain fp entry.2 now with
      | .ok store =>
        if fp ∈ report.toPairAgain then (report, store)
        else ({ report with toPairAgain := report.toPairAgain ++ [fp] }, store)
      | .error _ => ({ report with dropped := report.dropped ++ [fp] }, store)

/--
Turn the old tables into machines to be paired again.  The authorized entries
come in whatever order the table gives them, and of the removals only the
fingerprints are read.
-/
def migrateFromConfig (authorized : List (String × String)) (revoked : List String) (now : Nat) :
    MigrationReport × TrustStore :=
  let removed := revoked.map key
  let (report, store) := authorized.foldl (migrateOne removed now) ({}, store)
  ({ toPairAgain := report.toPairAgain.mergeSort
     refused := report.refused.mergeSort
     dropped := report.dropped.mergeSort }, store)

/-! ## Decisions -/

/-- What `fingerprint` may do at the instant `now` of the enforcement clock. -/
def capabilitiesAt (now : Nat) (fingerprint : String) : Caps :=
  match store.entries[key fingerprint]? with
  | some entry => effectiveCapabilities entry store.ours now
  | none => .none

def capabilities (reading : Nat) (fingerprint : String) : Caps :=
  store.capabilitiesAt (store.now reading) fingerprint

/-- Mid-pairing here, in either direction. -/
def isPairing (reading : Nat) (fingerprint : String) : Bool :=
  match store.entries[key fingerprint]? with
  | some entry => !(awaitingConfirmation entry store.ours (store.now reading)).isEmpty
  | none => false

def lease (fingerprint : String) : Option Lease :=
  store.leaseAt (key fingerprint)

def label (fingerprint : String) : Option String :=
  (store.lease fingerprint).map Lease.label

end Verbs

/-! ## Expiry -/

def observe (reading : Nat) : TrustStore :=
  { store with clock := store.clock.observe reading }

/-- A record whose lease lapsed longer ago than records are kept. -/
def longLapsed (now : Nat) (entry : Entry) : Bool :=
  match entry.lease with
  | some lease => lease.lapsedBy (now - lapsedRetentionSecs)
  | none => false

/-- Drop every lease lapsed for long; answers how many went. -/
def forgetLongLapsed (reading : Nat) : Nat × TrustStore :=
  let store := store.observe reading
  let entries := store.entries.filter fun _ entry => !longLapsed store.clock.floor entry
  (store.entries.size - entries.size, { store with entries })

/-- Advance the floor and report the leases that lapsed since it last moved. -/
def sweep (reading : Nat) : List Lease × TrustStore :=
  let since := store.clock.floor
  let store := store.observe reading
  ((store.entries.values.filterMap Entry.lease).filter fun lease =>
    lease.lapsedBy store.clock.floor && !lease.lapsedBy since, store)

end TrustStore

end HopsFormal.Trust
