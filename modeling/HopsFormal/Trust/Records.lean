import HopsFormal.Trust.Effects

/-!
# The rows on disk

The store is written as flat rows, one per fingerprint, and rebuilt from them
through the same doors every grant passes.  `recordsOf` and `rebuild` are the
two directions; `validate` is what a file must pass before either matters.
-/

namespace HopsFormal.Trust

inductive DiskCap where
  | inbound
  | outbound
  deriving DecidableEq

inductive DiskState where
  | active
  | revoked
  | pairAgain
  deriving DecidableEq

inductive DiskOrigin where
  | inbound
  | outboundDial
  | migrated
  | chosenIMayDrive
  | chosenDriveMe
  | chosenBoth
  deriving DecidableEq

/-- A direction the clipboard moves, from the peer or to it. -/
inductive DiskClipboard where
  | from_
  | to_
  deriving DecidableEq

/-- One row. -/
structure LeaseRecord where
  fingerprint : String
  label : String
  state : DiskState
  origin : DiskOrigin
  issuedAt : Nat
  expiresAt : Option Nat
  revokedAt : Option Nat
  caps : List DiskCap
  confirmed : Bool
  clipboard : Option (List DiskClipboard)
  deriving DecidableEq

def olderBuildCeilingSecs : Nat := 400 * 86400

def expiryOlderBuildsAccept (issuedAt : Nat) : Nat :=
  saturatingAdd issuedAt olderBuildCeilingSecs

/-! ## Structural checks -/

section Validate

variable [Lowercase]

/-- What one row must be, whatever the others are; an error is its text. -/
def validateRow (lease : LeaseRecord) : Except String Unit :=
  match lease.state with
  | .active =>
    if canonicalFingerprint lease.fingerprint ≠ some lease.fingerprint then
      .error (lease.fingerprint ++ " is not a canonical fingerprint")
    else .ok ()
  | .revoked =>
    if !lease.caps.isEmpty then
      .error (lease.fingerprint ++ " is revoked but still carries capabilities")
    else .ok ()
  | .pairAgain =>
    if !lease.caps.isEmpty || lease.clipboard.isSome || lease.confirmed then
      .error (lease.fingerprint ++ " is listed to be paired again but claims a pairing")
    else .ok ()

def validateFrom (seen : List String) : List LeaseRecord → Except String Unit
  | [] => .ok ()
  | lease :: rest =>
    if lease.fingerprint ∈ seen then
      .error ("two leases name " ++ lease.fingerprint ++ " — which one wins is not a question "
        ++ "a trust store gets to leave open")
    else do
      validateRow lease
      validateFrom (lease.fingerprint :: seen) rest

/-- A row that fails means the file is not what this machine wrote. -/
def validate (leases : List LeaseRecord) : Except String Unit := validateFrom [] leases

end Validate

/-! ## Rebuilding the store -/

/-- Why a row was not taken into the store, for the log. -/
inductive Refusal where
  | removalDropped (fingerprint : String)
  | neverConfirmed (fingerprint label : String)
  | notAdmitted (fingerprint : String) (why : TrustError)

def driveOfDisk (caps : List DiskCap) : Caps :=
  caps.foldl (fun drive cap =>
    drive.union (match cap with
      | .inbound => .driveMe
      | .outbound => .iMayDrive)) .none

def clipboardOfDisk (chosen : List DiskClipboard) : Caps :=
  chosen.foldl (fun clipboard direction =>
    clipboard.union (match direction with
      | .from_ => .clipboardFrom
      | .to_ => .clipboardTo)) .none

def originOfDisk : DiskOrigin → Origin
  | .inbound => .inbound
  | .outboundDial => .outboundDial
  | .migrated => .migrated
  | .chosenIMayDrive => .chosen .thisMachine
  | .chosenDriveMe => .chosen .thatMachine
  | .chosenBoth => .chosen .both

/-- The lease an active row stands for; a stored date is not enforced. -/
def leaseOfRecord (ours : String) (r : LeaseRecord) : Lease :=
  let drive := driveOfDisk r.caps
  let clipboard := match r.clipboard with
    | none => existingPairingClipboard drive
    | some chosen => clipboardOfDisk chosen
  { peer := r.fingerprint
    issuedTo := ours
    label := r.label
    caps := drive.union clipboard
    origin := originOfDisk r.origin
    issuedAt := r.issuedAt
    expiry := .never
    clipboardChosen := r.clipboard.isSome
    confirmed := true }

/-- The lease one row brings, or its listing, or the reason it brings neither. -/
def rebuildOne [Lowercase] (ours : String) (done : TrustStore × List Refusal) (r : LeaseRecord) :
    TrustStore × List Refusal :=
  let (store, refused) := done
  match r.state with
  | .revoked => (store, refused ++ [.removalDropped r.fingerprint])
  | .pairAgain =>
    match store.listToPairAgain r.fingerprint r.label r.issuedAt with
    | .ok next => (next, refused)
    | .error e => (store, refused ++ [.notAdmitted r.fingerprint e])
  | .active =>
    if !r.confirmed then (store, refused ++ [.neverConfirmed r.fingerprint r.label])
    else
      match store.admitLease (leaseOfRecord ours r) with
      | .ok next => (next, refused)
      | .error e => (store, refused ++ [.notAdmitted r.fingerprint e])

def rebuild [Lowercase] (ours : String) (floor : Nat) (records : List LeaseRecord) :
    Except TrustError (TrustStore × List Refusal) := do
  let store ← TrustStore.new ours floor
  .ok (records.foldl (rebuildOne ours) (store, []))

/-! ## Flattening the store -/

def diskCapsOf (caps : Caps) : List DiskCap :=
  (if caps.contains .driveMe then [.inbound] else []) ++
    (if caps.contains .iMayDrive then [.outbound] else [])

def diskClipboardOf (held : Caps) : List DiskClipboard :=
  (if held.contains .clipboardFrom then [.from_] else []) ++
    (if held.contains .clipboardTo then [.to_] else [])

def diskOriginOf : Origin → DiskOrigin
  | .inbound => .inbound
  | .outboundDial => .outboundDial
  | .migrated => .migrated
  | .chosen .thisMachine => .chosenIMayDrive
  | .chosen .thatMachine => .chosenDriveMe
  | .chosen .both => .chosenBoth

def clipboardWritten (lease : Lease) : Bool :=
  lease.clipboardChosen ||
    decide (lease.caps.intersection .clipboard ≠ existingPairingClipboard lease.caps)

def recordOfLease (fp : String) (lease : Lease) : LeaseRecord where
  fingerprint := fp
  label := lease.label
  state := .active
  origin := diskOriginOf lease.origin
  issuedAt := lease.issuedAt
  expiresAt := some (match lease.expiry with
    | .never => expiryOlderBuildsAccept lease.issuedAt
    | .at_ notAfter => notAfter)
  revokedAt := none
  caps := diskCapsOf lease.caps
  confirmed := lease.confirmed
  clipboard :=
    if clipboardWritten lease then some (diskClipboardOf (lease.caps.intersection .clipboard))
    else none

def recordOfListing (fp : String) (listing : PairAgain) : LeaseRecord where
  fingerprint := fp
  label := listing.label
  state := .pairAgain
  origin := .migrated
  issuedAt := listing.since
  expiresAt := none
  revokedAt := none
  caps := []
  confirmed := false
  clipboard := none

/-- The row of one record; none for an approval of a machine still listed. -/
def leaseRow [Lowercase] (store : TrustStore) (entry : String × Entry) : Option LeaseRecord :=
  match entry.2.lease with
  | none => none
  | some lease =>
    if !lease.confirmed && (store.toPairAgain entry.1).isSome then none
    else some (recordOfLease entry.1 lease)

def recordsOf [Lowercase] (store : TrustStore) : List LeaseRecord :=
  (store.entries.toList.filterMap (leaseRow store) ++
    store.pairAgain.toList.map fun listing => recordOfListing listing.1 listing.2).mergeSort
      fun a b => decide (a.fingerprint ≤ b.fingerprint)

/-! ## What a row keeps of a lease -/

/-- What a save and a load make of a lease. -/
def reloaded (lease : Lease) : Lease :=
  { lease with
    expiry := .never
    clipboardChosen := clipboardWritten lease
    confirmed := true }

theorem originOfDisk_diskOriginOf (origin : Origin) :
    originOfDisk (diskOriginOf origin) = origin := by
  cases origin with
  | chosen controller => cases controller <;> rfl
  | inbound | outboundDial | migrated => rfl

theorem driveOfDisk_diskCapsOf (caps : Caps) :
    driveOfDisk (diskCapsOf caps) = caps.intersection .drive := by
  revert caps
  decide

theorem clipboardOfDisk_diskClipboardOf (caps : Caps) :
    clipboardOfDisk (diskClipboardOf (caps.intersection .clipboard)) =
      caps.intersection .clipboard := by
  revert caps
  decide

theorem leaseOfRecord_recordOfLease (ours : String) (lease : Lease) :
    leaseOfRecord ours (recordOfLease lease.peer lease) =
      { reloaded lease with issuedTo := ours } := by
  have caps : (leaseOfRecord ours (recordOfLease lease.peer lease)).caps = lease.caps := by
    simp only [leaseOfRecord, recordOfLease, driveOfDisk_diskCapsOf]
    cases written : clipboardWritten lease with
    | true =>
      simp only [if_true, clipboardOfDisk_diskClipboardOf]
      exact Caps.drive_union_clipboard lease.caps
    | false =>
      simp only [clipboardWritten, Bool.or_eq_false_iff, decide_eq_false_iff_not, ne_eq,
        not_not] at written
      simp only [Bool.false_eq_true, if_false, existingPairingClipboard_drive, ← written.2]
      exact Caps.drive_union_clipboard lease.caps
  have chosen : (leaseOfRecord ours (recordOfLease lease.peer lease)).clipboardChosen =
      clipboardWritten lease := by
    simp only [leaseOfRecord, recordOfLease]
    cases clipboardWritten lease <;> rfl
  unfold leaseOfRecord reloaded at *
  simp only [recordOfLease, originOfDisk_diskOriginOf] at *
  rw [caps, chosen]

end HopsFormal.Trust
