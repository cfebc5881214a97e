import HopsFormal.Pairing.Moves

/-!
# A machine just approved

What the first approval of a machine leaves in the store.
-/

namespace HopsFormal.Pairing

open Trust TrustStore

variable (store : TrustStore) (fp : Fingerprint)

/-- The lease of a machine approved both ways, without the clipboard. -/
@[grind =]
def approval : Lease where
  peer := fp.1
  issuedTo := store.ours
  label := sanitizeLabel ""
  caps := driveOf .both
  origin := .chosen .both
  issuedAt := store.now 0
  expiry := .never
  clipboardChosen := true
  confirmed := false

@[grind =]
def approvedStore : TrustStore :=
  store.setLease fp.1 (approval store fp)

@[simp]
theorem ours_approved : (approvedStore store fp).ours = store.ours :=
  rfl

theorem waiting_approved : (approvedStore store fp).waiting fp.1 = some false := by
  simp [waiting, leaseAt, approvedStore, setLease, approval]

section Lowercase

variable [Lowercase]

theorem issueAnswered_unknown {store : TrustStore} {fp : Fingerprint}
    (unknown : store.entries[fp.1]? = none) :
    store.issueAnswered 0 fp.1 "" .both false = .ok (approvedStore store fp) := by
  have unheld : store.inForce fp.1 (store.now 0) = none := by simp [inForce, unknown]
  have asked : (driveOf .both).union Caps.none = driveOf .both := by decide
  have chosen : (driveOf .both).intersection .drive = driveOf .both := by decide
  have grants : (driveOf .both).isEmpty = false := by decide
  simp [issueAnswered, issueLease, Lease.canonicalized, Lease.checkTerm, Lease.checkChosen,
    canonicalized_of_valid fp.2, canonicalized_of_valid store.valid, defaultTerm,
    Term.expiryFrom, bind, Except.bind, asked, chosen, grants, incoherent, unheld, admitLease,
    approval, approvedStore]

theorem Fingerprint.of_valid (fp : Fingerprint) : Fingerprint.of fp.1 = some fp := by
  have canonical := canonicalized_of_valid fp.2
  unfold Fingerprint.of
  split
  · rename_i found
    rw [canonical] at found
    cases found
  · rename_i found
    rw [canonical] at found
    cases found
    rfl

theorem isPairing_approved (store : TrustStore) (fp : Fingerprint) :
    (approvedStore store fp).isPairing 0 fp.1 = true := by
  have drives : ((driveOf .both).intersection .drive).isEmpty = false := by decide
  simp [isPairing, key_of_valid fp.2, approvedStore, setLease, awaitingConfirmation, approval,
    Lease.isValidAt, TrustStore.now, drives]

theorem capabilities_approved (store : TrustStore) (fp : Fingerprint) :
    ((approvedStore store fp).capabilities 0 fp.1).contains .driveMe = false := by
  have nothing : Caps.none.contains .driveMe = false := by decide
  simp [capabilities, capabilitiesAt, key_of_valid fp.2, approvedStore, setLease,
    effectiveCapabilities, approval, nothing]

end Lowercase

end HopsFormal.Pairing
