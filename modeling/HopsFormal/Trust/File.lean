import HopsFormal.Trust.Records

/-!
# The trust store on disk

Two sealed files: the store with its serial, and the floor with the highest
serial and the latest second this machine has written.  A file is replaced
wholly or not at all, and a seal verifies only what its own key sealed for the
same purpose; everything else a file may hold is `foreign`.  Serials are
unbounded here.
-/

namespace HopsFormal.Trust

def schemaVersion : Nat := 2

def floorVersion : Nat := 1

/-- Which key sealed a document. -/
structure AuthorityBlock where
  alg : String
  publicKey : String
  deriving DecidableEq

/-- A row of the first version: confirmed, with no clipboard chosen. -/
structure LeaseRecordV1 where
  fingerprint : String
  label : String
  state : DiskState
  origin : DiskOrigin
  issuedAt : Nat
  expiresAt : Option Nat
  revokedAt : Option Nat
  caps : List DiskCap
  deriving DecidableEq

def LeaseRecordV1.toRecord (r : LeaseRecordV1) : LeaseRecord where
  fingerprint := r.fingerprint
  label := r.label
  state := r.state
  origin := r.origin
  issuedAt := r.issuedAt
  expiresAt := r.expiresAt
  revokedAt := r.revokedAt
  caps := r.caps
  confirmed := true
  clipboard := none

/-- A sealed store, by the version its body declares. -/
inductive StoreBody where
  | v1 (serial writtenAt : Nat) (leases : List LeaseRecordV1)
  | v2 (serial writtenAt : Nat) (leases : List LeaseRecord)
  | other (version : Nat)
  deriving DecidableEq

structure FloorBody where
  version : Nat
  seconds : Nat
  serial : Nat
  deriving DecidableEq

/-- What a seal covers: the purpose it was made for and the body. -/
inductive Document where
  | store (body : StoreBody)
  | floor (body : FloorBody)
  deriving DecidableEq

/-- What a file holds: a sealed document, or anything no key here sealed. -/
inductive Text where
  | sealed (by_ : AuthorityBlock) (document : Document)
  | foreign (text : String)
  deriving DecidableEq

structure Disk where
  trust : Option Text
  floor : Option Text
  trustV1Copy : Option Text
  floorV1Copy : Option Text
  deriving DecidableEq

inductive TrustFileError where
  | io
  | notSealed
  | otherAuthority
  | edited
  | unknownVersion (version : Nat)
  | rolledBack (serial floorSerial : Nat)
  | invalid (why : String)
  deriving DecidableEq

/-- The open handle: what the last open and the saves since left in memory; its serial is counted
without the end of a `u64`. -/
structure TrustFile where
  serial : Nat
  floorSeconds : Nat
  v1Found : Option (Text × Option Text)
  v1Copy : Option (List (String × DiskState))
  deriving DecidableEq

inductive Loaded where
  | absent
  | present (serial writtenAt : Nat) (leases : List LeaseRecord)
  deriving DecidableEq

/-! ## Opening -/

variable (expect : AuthorityBlock)

/-- The document a text holds, once its seal is checked against `expect`. -/
def verifiedBody : Text → Except TrustFileError Document
  | .foreign _ => .error .notSealed
  | .sealed by_ document => if by_ ≠ expect then .error .otherAuthority else .ok document

def readFloor : Option Text → Except TrustFileError (Nat × Nat)
  | none => .ok (0, 0)
  | some text =>
    match verifiedBody expect text with
    | .error e => .error e
    | .ok (.floor body) => .ok (body.seconds, body.serial)
    | .ok (.store _) => .error .edited

def readStore : Option Text → Except TrustFileError (Option StoreBody)
  | none => .ok none
  | some text =>
    match verifiedBody expect text with
    | .error e => .error e
    | .ok (.store body) => .ok (some body)
    | .ok (.floor _) => .error .edited

/-- The records the kept copy holds; none when it cannot be read. -/
def readV1Copy (disk : Disk) : Option (List (String × DiskState)) :=
  match readStore expect disk.trustV1Copy with
  | .ok (some (.v1 _ _ leases)) => some (leases.map fun r => (r.fingerprint, r.state))
  | _ => none

/-- Serial, time of writing and rows of a store this build understands. -/
@[grind =]
def StoreBody.contents : StoreBody → Except TrustFileError (Nat × Nat × List LeaseRecord)
  | .v1 serial writtenAt leases => .ok (serial, writtenAt, leases.map LeaseRecordV1.toRecord)
  | .v2 serial writtenAt leases => .ok (serial, writtenAt, leases)
  | .other version => .error (.unknownVersion version)

def StoreBody.isVersion1 : StoreBody → Bool
  | .v1 .. => true
  | _ => false

def TrustFile.open_ [Lowercase] (authority : AuthorityBlock) (disk : Disk) :
    Except TrustFileError (TrustFile × Loaded) := do
  let (floorSeconds, floorSerial) ← readFloor authority disk.floor
  let body ← readStore authority disk.trust
  let file : TrustFile :=
    { serial := floorSerial
      floorSeconds
      v1Found := none
      v1Copy := readV1Copy authority disk }
  match body with
  | none => .ok (file, .absent)
  | some body => do
      let (serial, writtenAt, leases) ← body.contents
      if serial < floorSerial then .error (.rolledBack serial floorSerial)
      else
        match validate leases with
        | .error why => .error (.invalid why)
        | .ok () =>
          .ok
            ({ file with
                serial := max floorSerial serial
                floorSeconds := max floorSeconds writtenAt
                v1Found :=
                  if body.isVersion1 then disk.trust.map fun trust => (trust, disk.floor)
                  else none },
              .present serial writtenAt leases)

namespace TrustFile

def now (file : TrustFile) (reading : Nat) : Nat := max reading file.floorSeconds

/-! ## Saving -/

/-- Which operations of one save fail, or are never reached because of a crash. -/
structure Faults where
  copyTrust : Bool := false
  copyFloor : Bool := false
  deleteTrust : Bool := false
  deleteFloor : Bool := false
  sealStore : Bool := false
  writeStore : Bool := false
  sealFloor : Bool := false
  writeFloor : Bool := false
  deriving DecidableEq

abbrev Outcome := Except TrustFileError Unit × TrustFile × Disk

/-- Over a version 1 store both files are copied aside, never over a copy. -/
def keepCopies (authority : AuthorityBlock) (file : TrustFile) (disk : Disk) (faults : Faults) :
    Outcome :=
  match file.v1Found with
  | none => (.ok (), file, disk)
  | some (trust, floor) =>
    if faults.copyTrust then (.error .io, file, disk)
    else
      let disk := { disk with trustV1Copy := some (disk.trustV1Copy.getD trust) }
      match floor with
      | none => (.ok (), { file with v1Copy := readV1Copy authority disk }, disk)
      | some floor =>
        if faults.copyFloor then (.error .io, file, disk)
        else
          let disk := { disk with floorV1Copy := some (disk.floorV1Copy.getD floor) }
          (.ok (), { file with v1Copy := readV1Copy authority disk }, disk)

section Lowercase

variable [Lowercase]

/-- The rows of the copy that `leases` no longer hold in the same state. -/
def droppedFromCopy (held : List (String × DiskState)) (leases : List LeaseRecord) :
    List (String × DiskState) :=
  held.filter fun row =>
    !leases.any fun r => r.state == row.2 && key r.fingerprint == key row.1

def deleteV1CopyIfDropped (file : TrustFile) (disk : Disk) (leases : List LeaseRecord)
    (faults : Faults) : TrustFile × Disk :=
  match file.v1Copy with
  | none => (file, disk)
  | some held =>
    if (droppedFromCopy held leases).isEmpty then (file, disk)
    else
      let disk :=
        { disk with
          trustV1Copy := if faults.deleteTrust then disk.trustV1Copy else none
          floorV1Copy := if faults.deleteFloor then disk.floorV1Copy else none }
      if faults.deleteTrust || faults.deleteFloor then (file, disk)
      else ({ file with v1Copy := none }, disk)

/-- The store first, then the floor; the serial moves on even when neither lands. -/
def writeFiles (authority : AuthorityBlock) (file : TrustFile) (disk : Disk) (reading : Nat)
    (leases : List LeaseRecord) (faults : Faults) : Outcome :=
  let now := file.now reading
  let file := { file with serial := file.serial + 1 }
  if faults.sealStore || faults.writeStore then (.error .io, file, disk)
  else
    let disk :=
      { disk with trust := some (.sealed authority (.store (.v2 file.serial now leases))) }
    let file := { file with v1Found := none, floorSeconds := max file.floorSeconds now }
    if faults.sealFloor || faults.writeFloor then (.error .io, file, disk)
    else
      let floor := { version := floorVersion, seconds := file.floorSeconds, serial := file.serial }
      (.ok (), file, { disk with floor := some (.sealed authority (.floor floor)) })

/-- Replace the store with `leases`, then advance the floor. -/
def save (authority : AuthorityBlock) (file : TrustFile) (disk : Disk) (reading : Nat)
    (leases : List LeaseRecord) (faults : Faults) : Outcome :=
  match validate leases with
  | .error why => (.error (.invalid why), file, disk)
  | .ok () =>
    match keepCopies authority file disk faults with
    | (.error e, file, disk) => (.error e, file, disk)
    | (.ok (), file, disk) =>
      let (file, disk) := deleteV1CopyIfDropped file disk leases faults
      writeFiles authority file disk reading leases faults

end Lowercase

end TrustFile

end HopsFormal.Trust
