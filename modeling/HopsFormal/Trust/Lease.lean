import HopsFormal.Trust.Identity
import HopsFormal.Trust.Caps

/-!
# Leases and the one decision

A lease says what one machine may do to this one and until when.  Every door
into the store checks it with `canonicalized`, and every question the store
answers is `effectiveCapabilities` at an instant of the enforcement clock.
Instants are unix seconds.
-/

namespace HopsFormal.Trust

/-- The largest instant a 64-bit second count holds. -/
def maxInstant : Nat := 2 ^ 64 - 1

def saturatingAdd (a b : Nat) : Nat := min (a + b) maxInstant

/-- Hard ceiling on a numeric lease window. -/
def maxTermSecs : Nat := 400 * 86400

/-- How long a lapsed lease is kept at all. -/
def lapsedRetentionSecs : Nat := 90 * 86400

/-- When a lease stops granting; `at_` is the first second it no longer does. -/
inductive Expiry where
  | never
  | at_ (notAfter : Nat)
  deriving DecidableEq

/-- How long a lease runs from the moment it is issued. -/
inductive Term where
  | unbounded
  | secs (length : Nat)
  deriving DecidableEq

def Term.expiryFrom (now : Nat) : Term → Expiry
  | .unbounded => .never
  | .secs length => .at_ (saturatingAdd now (min length maxTermSecs))

/-- The term every lease is issued with: none. -/
def defaultTerm : Term := .unbounded

/-- Enforcement time is the reading or the floor, whichever is later. -/
structure Clock where
  floor : Nat
  deriving DecidableEq

def Clock.at_ (clock : Clock) (reading : Nat) : Nat := max reading clock.floor

/-- Record that time has reached `reading`; the floor never moves back. -/
def Clock.observe (clock : Clock) (reading : Nat) : Clock := ⟨max clock.floor reading⟩

/-- What act produced a lease. -/
inductive Origin where
  | inbound
  | outboundDial
  | migrated
  | chosen (controller : Controller)
  deriving DecidableEq

/-- The provenance of a grant, derived from what is granted. -/
def originOf (caps : Caps) : Origin :=
  match caps.contains .driveMe, caps.contains .iMayDrive with
  | true, true => .migrated
  | false, true => .outboundDial
  | _, _ => .inbound

/-- One machine's membership: what `peer` may do to `issuedTo`, until when. -/
structure Lease where
  peer : String
  issuedTo : String
  label : String
  caps : Caps
  origin : Origin
  issuedAt : Nat
  expiry : Expiry
  clipboardChosen : Bool
  confirmed : Bool
  deriving DecidableEq

/-- Why a verb refused. -/
inductive TrustError where
  | directionMismatch (origin : Origin) (granted : String)
  | notAsChosen (chosen : Controller) (drive : Caps)
  | badFingerprint (fingerprint : String)
  | unknown (fingerprint : String)
  | wrongMachine (ours found : String)
  | emptyTerm (issuedAt notAfter : Nat)
  | termTooLong (term max : Nat)
  | noCapabilities

namespace Lease

/-- A window must hold an instant and stay within the ceiling. -/
def checkTerm (issuedAt : Nat) : Expiry → Except TrustError Unit
  | .never => .ok ()
  | .at_ notAfter =>
    if notAfter ≤ issuedAt then .error (.emptyTerm issuedAt notAfter)
    else if maxTermSecs < notAfter - issuedAt then
      .error (.termTooLong (notAfter - issuedAt) maxTermSecs)
    else .ok ()

/-- A chosen direction is the whole of what a lease may drive. -/
def checkChosen (caps : Caps) : Origin → Except TrustError Unit
  | .chosen chosen =>
    if caps.intersection .drive ≠ driveOf chosen then
      .error (.notAsChosen chosen (caps.intersection .drive))
    else .ok ()
  | _ => .ok ()

/-- Normalise and check a lease from any door. -/
def canonicalized [Lowercase] (self : Lease) : Except TrustError Lease :=
  match canonicalFingerprint self.peer with
  | none => .error (.badFingerprint self.peer)
  | some peer =>
    match canonicalFingerprint self.issuedTo with
    | none => .error (.badFingerprint self.issuedTo)
    | some issuedTo => do
        checkTerm self.issuedAt self.expiry
        let caps := Caps.fromBitsTruncating self.caps.bits
        checkChosen caps self.origin
        if caps.isEmpty then .error .noCapabilities
        else .ok { self with peer, issuedTo, label := sanitizeLabel self.label, caps }

/-- Inside its window at `now`, an instant of the enforcement clock. -/
def isValidAt (self : Lease) (now : Nat) : Bool :=
  self.issuedAt ≤ now &&
    match self.expiry with
    | .never => true
    | .at_ notAfter => now < notAfter

def lapsedBy (self : Lease) (instant : Nat) : Bool :=
  match self.expiry with
  | .never => false
  | .at_ notAfter => notAfter ≤ instant

end Lease

/-- Everything this machine knows about one identity. -/
structure Entry where
  lease : Option Lease := none

/-- What `entry` permits on machine `ours` at `now`. -/
def effectiveCapabilities (entry : Entry) (ours : String) (now : Nat) : Caps :=
  match entry.lease with
  | some lease =>
    if !lease.confirmed then .none
    else if lease.issuedTo = ours ∧ lease.isValidAt now then lease.caps
    else .none
  | none => .none

/-- The direction granted while the pairing waits for its number. -/
def awaitingConfirmation (entry : Entry) (ours : String) (now : Nat) : Caps :=
  match entry.lease with
  | some lease =>
    if !lease.confirmed ∧ lease.issuedTo = ours ∧ lease.isValidAt now then
      lease.caps.intersection .drive
    else .none
  | none => .none

/-! ## What an admissible lease is -/

/-- The window of a lease, if it ends, is proper and short enough. -/
def Expiry.Proper (issuedAt : Nat) : Expiry → Prop
  | .never => True
  | .at_ notAfter => issuedAt < notAfter ∧ notAfter - issuedAt ≤ maxTermSecs

/-- A chosen origin names exactly the drive bits. -/
def Origin.Agrees (caps : Caps) : Origin → Prop
  | .chosen controller => caps.intersection .drive = driveOf controller
  | _ => True

theorem Origin.Agrees.congr {origin : Origin} {caps others : Caps} (agrees : origin.Agrees caps)
    (same : others.intersection .drive = caps.intersection .drive) : origin.Agrees others := by
  cases origin with
  | chosen controller => exact same.trans agrees
  | inbound | outboundDial | migrated => exact trivial

theorem originOf_agrees (caps granted : Caps) : (originOf granted).Agrees caps := by
  unfold originOf
  cases granted.contains .driveMe <;> cases granted.contains .iMayDrive <;> exact trivial

/-- What `canonicalized` leaves as it is. -/
structure Admissible (lease : Lease) : Prop where
  peer : validFingerprint lease.peer = true
  issuedTo : validFingerprint lease.issuedTo = true
  label : sanitizeLabel lease.label = lease.label
  proper : lease.expiry.Proper lease.issuedAt
  agrees : lease.origin.Agrees lease.caps
  grants : lease.caps.isEmpty = false

namespace Lease

theorem checkTerm_ok {issuedAt : Nat} {expiry : Expiry} :
    checkTerm issuedAt expiry = .ok () ↔ expiry.Proper issuedAt := by
  cases expiry with
  | never => simp [checkTerm, Expiry.Proper]
  | at_ notAfter =>
    simp only [checkTerm, Expiry.Proper]
    split
    · rename_i early
      simp only [reduceCtorEq, false_iff]
      omega
    · split
      · simp only [reduceCtorEq, false_iff]
        omega
      · simp only [true_iff]
        omega

theorem checkChosen_ok {caps : Caps} {origin : Origin} :
    checkChosen caps origin = .ok () ↔ origin.Agrees caps := by
  cases origin with
  | chosen chosen =>
    simp only [checkChosen, Origin.Agrees]
    split
    · rename_i other
      simp [other]
    · rename_i same
      simpa using same
  | inbound | outboundDial | migrated => simp [checkChosen, Origin.Agrees]

section Canonical

variable [Lowercase]

/-- Exactly when a lease passes the door, and what it becomes there. -/
theorem canonicalized_ok {lease result : Lease} :
    lease.canonicalized = .ok result ↔
      ∃ peer issuedTo, canonicalFingerprint lease.peer = some peer ∧
        canonicalFingerprint lease.issuedTo = some issuedTo ∧
        lease.expiry.Proper lease.issuedAt ∧ lease.origin.Agrees lease.caps ∧
        lease.caps.isEmpty = false ∧
        result = { lease with peer, issuedTo, label := sanitizeLabel lease.label } := by
  unfold canonicalized
  cases peerFound : canonicalFingerprint lease.peer with
  | none => simp
  | some peer =>
    cases issuedFound : canonicalFingerprint lease.issuedTo with
    | none => simp
    | some issuedTo =>
      simp only [Caps.fromBitsTruncating_bits, Option.some.injEq]
      cases term : checkTerm lease.issuedAt lease.expiry with
      | error e =>
        have improper : ¬ lease.expiry.Proper lease.issuedAt := by
          rw [← checkTerm_ok, term]
          simp
        simp [bind, Except.bind, improper]
      | ok _ =>
        have proper : lease.expiry.Proper lease.issuedAt := checkTerm_ok.mp term
        cases chosen : checkChosen lease.caps lease.origin with
        | error e =>
          have disagrees : ¬ lease.origin.Agrees lease.caps := by
            rw [← checkChosen_ok, chosen]
            simp
          simp [bind, Except.bind, disagrees]
        | ok _ =>
          have agrees : lease.origin.Agrees lease.caps := checkChosen_ok.mp chosen
          cases empty : lease.caps.isEmpty with
          | true => simp [bind, Except.bind]
          | false => simp [bind, Except.bind, proper, agrees, eq_comm]

theorem canonicalized_admissible {lease result : Lease}
    (passed : lease.canonicalized = .ok result) : Admissible result := by
  obtain ⟨peer, issuedTo, peerFound, issuedFound, proper, agrees, grants, rfl⟩ :=
    canonicalized_ok.mp passed
  exact ⟨canonical_valid peerFound, canonical_valid issuedFound,
    sanitizeLabel_idem _, proper, agrees, grants⟩

/-- The door leaves exactly the admissible leases as they are. -/
theorem canonicalized_self {lease : Lease} :
    lease.canonicalized = .ok lease ↔ Admissible lease := by
  constructor
  · exact canonicalized_admissible
  · intro admissible
    refine canonicalized_ok.mpr ⟨lease.peer, lease.issuedTo,
      canonicalized_of_valid admissible.peer,
      canonicalized_of_valid admissible.issuedTo,
      admissible.proper, admissible.agrees, admissible.grants, ?_⟩
    rw [admissible.label]

end Canonical

end Lease

end HopsFormal.Trust
