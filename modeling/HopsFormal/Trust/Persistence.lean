import HopsFormal.Trust.Leaves

/-!
# Nothing granted is lost or widened by a restart

Over the verbs production code calls, a save and a load give back what every
machine may do.  Over all public verbs this needs that no drop takes a part of
a chosen direction: `dropCapabilities` changes the bits and not the origin that
names them, and the load door refuses such a lease.
-/

namespace HopsFormal.Trust.TrustStore

open Option Lease

/-- What a person reads off a lease. -/
def face (lease : Lease) : Caps × String × Origin := (lease.caps, lease.label, lease.origin)

theorem granted_reloaded {lease : Option Lease} {ours : String} {now : Nat}
    (unending : ∀ held, lease = some held → held.expiry = .never) :
    granted ((lease.filter confirmed).map reloaded) ours now = granted lease ours now := by
  cases lease with
  | none => rfl
  | some held =>
    cases confirmed : held.confirmed with
    | false => simp [granted, effectiveCapabilities, filter_some, confirmed]
    | true =>
      have never := unending held rfl
      simp [granted, effectiveCapabilities, filter_some, confirmed, reloaded,
        isValidAt, never]

/-! ## Two machines to run on -/

def machineA : String :=
  "aa:aa:aa:aa:aa:aa:aa:aa:aa:aa:aa:aa:aa:aa:aa:aa:aa:aa:aa:aa:aa:aa:aa:aa:aa:aa:aa:aa:aa:aa:aa:aa"

def machineB : String :=
  "b0:b0:b0:b0:b0:b0:b0:b0:b0:b0:b0:b0:b0:b0:b0:b0:b0:b0:b0:b0:b0:b0:b0:b0:b0:b0:b0:b0:b0:b0:b0:b0"

theorem machineA_valid : validFingerprint machineA = true := by decide

theorem machineB_valid : validFingerprint machineB = true := by decide

/-- The machine `machineA` with nothing in its store. -/
def freshStore : TrustStore := ⟨machineA, ⟨0⟩, ∅, ∅, machineA_valid⟩

/-- A pairing of `machineB`, approved both ways and confirmed. -/
def pairingVerbs : List Verb := [.issueAnswered 0 machineB "" .both false, .confirm machineB]

section Persistence

variable [Lowercase]

theorem reload_face {store again : TrustStore}
    (leases : ∀ fp, again.leaseAt fp = ((store.leaseAt fp).filter confirmed).map reloaded)
    (fingerprint : String) :
    (again.lease fingerprint).map face = ((store.lease fingerprint).filter confirmed).map face := by
  rw [lease, leases, Option.map_map]
  rfl

/--
For every store reached from rebuilt rows by verbs of production code: its rows
pass every check, and a rebuild at a floor no lower refuses only the pairings
never confirmed and answers for every fingerprint as the store did.
-/
theorem records_round_trip {ours : String} {floor : Nat} {records : List LeaseRecord}
    {start : TrustStore} {refused : List Refusal}
    (built : rebuild ours floor records = .ok (start, refused))
    (verbs : List Verb) (production : ∀ verb ∈ verbs, Production verb)
    (later : Nat) (above : (start.run verbs).clock.floor ≤ later) :
    validate (recordsOf (start.run verbs)) = .ok () ∧
    ((recordsOf (start.run verbs)).map (·.fingerprint)).Nodup ∧
    ∃ again,
      rebuild ours later (recordsOf (start.run verbs)) =
        .ok (again, (recordsOf (start.run verbs)).filterMap loadRefusal) ∧
      ∀ fingerprint,
        (∀ now, again.capabilitiesAt now fingerprint =
          (start.run verbs).capabilitiesAt now fingerprint) ∧
        (∀ reading, (start.run verbs).capabilities reading fingerprint ≠ .none →
          again.capabilities reading fingerprint =
            (start.run verbs).capabilities reading fingerprint) ∧
        (again.lease fingerprint).map face =
          (((start.run verbs).lease fingerprint).filter confirmed).map face ∧
        again.toPairAgain fingerprint = (start.run verbs).toPairAgain fingerprint := by
  have rebuilt := rebuild_rebuilt built
  obtain ⟨formed, agreeing, unending⟩ :=
    production_run rebuilt.formed rebuilt.agreeing rebuilt.unending production
  have spelled : canonicalFingerprint ours = some (start.run verbs).ours :=
    (rebuilt.formed.run_ours verbs).symm ▸ rebuilt.ours
  obtain ⟨again, reload, oursEq, clockEq, leases, listings⟩ := formed.reload agreeing spelled later
  have same : ∀ now fingerprint, again.capabilitiesAt now fingerprint =
      (start.run verbs).capabilitiesAt now fingerprint := by
    intro now fingerprint
    rw [capabilitiesAt_eq, capabilitiesAt_eq, oursEq, leases]
    exact granted_reloaded (unending (key fingerprint))
  refine ⟨formed.validate_recordsOf, formed.nodup_recordsOf, again, reload, ?_⟩
  intro fingerprint
  refine ⟨fun now => same now fingerprint, ?_, reload_face leases fingerprint,
    listings (key fingerprint)⟩
  intro reading grants
  unfold capabilities at grants ⊢
  rw [same]
  rw [capabilitiesAt_eq] at grants ⊢
  rw [capabilitiesAt_eq]
  cases found : (start.run verbs).leaseAt (key fingerprint) with
  | none => simp [found, granted, effectiveCapabilities] at grants
  | some held =>
    rw [found] at grants
    have never := unending _ held found
    obtain ⟨confirmed, issuedTo, inForce, _⟩ := effectiveCapabilities_some grants
    have began : held.issuedAt ≤ max reading (start.run verbs).clock.floor := by
      simpa [isValidAt, never, now, Clock.at_] using inForce
    have begun : held.issuedAt ≤ max reading later :=
      le_trans began (max_le_max_left reading above)
    have inForce' : held.isValidAt (again.now reading) = true := by
      simpa [isValidAt, never, now, Clock.at_, clockEq] using begun
    simp [granted, effectiveCapabilities, confirmed, issuedTo, inForce, inForce']

theorem rebuild_nothing : rebuild machineA 0 [] = .ok (freshStore, []) := by
  simp [rebuild, bind, Except.bind, new_of_valid machineA_valid, freshStore]

end Persistence

/-- A machine with no file starts, pairs with another and saves. -/
theorem records_round_trip_paired :
    letI := asciiLowercase
    rebuild machineA 0 [] = .ok (freshStore, []) ∧
      validate (recordsOf (freshStore.run pairingVerbs)) = .ok () ∧
      ∃ again, rebuild machineA (freshStore.run pairingVerbs).clock.floor
          (recordsOf (freshStore.run pairingVerbs)) =
          .ok (again, (recordsOf (freshStore.run pairingVerbs)).filterMap loadRefusal) ∧
        ∀ now, again.capabilitiesAt now machineB =
          (freshStore.run pairingVerbs).capabilitiesAt now machineB := by
  have built := @rebuild_nothing asciiLowercase
  have production : ∀ verb ∈ pairingVerbs, Production verb := by simp [pairingVerbs, Production]
  obtain ⟨valid, _, again, reload, same⟩ := @records_round_trip asciiLowercase _ _ _ _ _ built
    pairingVerbs production _ (le_refl _)
  exact ⟨built, valid, again, reload, (same machineB).1⟩

section Admissible

variable [Lowercase]

/-- A save and a load lose no confirmed lease and change nothing it grants. -/
def SurvivesReload (ours : String) (store : TrustStore) : Prop :=
  validate (recordsOf store) = .ok () ∧ ∀ later, ∃ again,
    rebuild ours later (recordsOf store) = .ok (again, (recordsOf store).filterMap loadRefusal) ∧
    ∀ fingerprint, (again.lease fingerprint).map face =
      ((store.lease fingerprint).filter confirmed).map face

/--
Over every public verb: while no drop takes a part of a chosen direction, every
lease held passes the door unchanged and survives a save and a load.
-/
theorem leases_stay_admissible {ours : String} {floor : Nat} {start : TrustStore}
    (made : new ours floor = .ok start) (verbs : List Verb)
    (keeps : KeepsChoices start verbs) :
    (∀ fp lease, (start.run verbs).leaseAt fp = some lease →
      lease.canonicalized = .ok lease) ∧ SurvivesReload ours (start.run verbs) := by
  obtain ⟨spelled, _, noEntries, _⟩ := new_ok made
  have formed := (formed_new made).run verbs
  have empty : Agreeing start := by simp [Agreeing, leaseAt, noEntries]
  have agreeing := empty.run (formed_new made) keeps
  have spelled' : canonicalFingerprint ours = some (start.run verbs).ours :=
    ((formed_new made).run_ours verbs).symm ▸ spelled
  refine ⟨?_, formed.validate_recordsOf, ?_⟩
  · intro fp lease found
    exact canonicalized_self.mpr (formed.admissible agreeing found)
  · intro later
    obtain ⟨again, reload, _, _, leases, _⟩ := formed.reload agreeing spelled' later
    exact ⟨again, reload, reload_face leases⟩

theorem dropped_choice {store : TrustStore} (empty : store.entries = ∅) {fp : String}
    (valid : validFingerprint fp = true) (reading : Nat) (label : String) :
    ∃ lease, (store.run [.issueAnswered reading fp label .both false, .confirm fp,
        .dropCapabilities fp .iMayDrive]).leaseAt fp = some lease ∧
      lease.confirmed = true ∧ lease.canonicalized = .error (.notAsChosen .both .driveMe) := by
  let lease : Lease :=
    { peer := fp
      issuedTo := store.ours
      label := sanitizeLabel label
      caps := .driveMe
      origin := .chosen .both
      issuedAt := store.now reading
      expiry := .never
      clipboardChosen := true
      confirmed := true }
  have unheld : store.inForce fp (store.now reading) = none := by simp [empty, inForce]
  have chosen : ((driveOf .both).union Caps.none).intersection .drive = driveOf .both := by decide
  have grants : ((driveOf .both).union Caps.none).isEmpty = false := by decide
  have left : ((driveOf .both).union Caps.none).without .iMayDrive = .driveMe := by decide
  have someLeft : Caps.driveMe.isEmpty = false := by decide
  have drives : Caps.driveMe.intersection .drive = .driveMe := by decide
  have other : Caps.driveMe ≠ driveOf .both := by decide
  refine ⟨lease, ?_, rfl, ?_⟩
  · simp [run, step, issueAnswered, issueLease, canonicalized, checkTerm,
      checkChosen, canonicalized_of_valid valid, key_of_valid valid,
      canonicalized_of_valid store.valid, defaultTerm, Term.expiryFrom, bind, Except.bind,
      unlessRefused, chosen, grants, left, someLeft, incoherent, unheld, admitLease, confirm,
      dropCapabilities, lease]
  · simp [lease, canonicalized, checkTerm, checkChosen, bind, Except.bind, drives,
      other, canonicalized_of_valid valid, canonicalized_of_valid store.valid]

end Admissible

/-- A pairing that is confirmed, has its clipboard dropped, and is then switched off it. -/
theorem leases_stay_admissible_paired :
    letI := asciiLowercase
    let verbs := [.issueAnswered 0 machineB "" .both true, .confirm machineB,
      .dropCapabilities machineB .clipboard, .disableClipboard machineB]
    KeepsChoices freshStore verbs ∧ SurvivesReload machineA (freshStore.run verbs) := by
  let _ := asciiLowercase
  intro verbs
  have keeps : KeepsChoices freshStore verbs := by
    refine ⟨trivial, trivial, ?_, trivial, trivial⟩
    intro lease controller held origin
    exact .inr (Caps.drive_without_clipboard lease.caps)
  exact ⟨keeps, (@leases_stay_admissible asciiLowercase machineA 0 freshStore
    (@new_of_valid asciiLowercase machineA machineA_valid 0) _ keeps).2⟩

/-- A drop leaves a confirmed lease that the load door refuses. -/
theorem dropped_choice_refused :
    letI := asciiLowercase
    ∃ lease, (freshStore.run [.issueAnswered 0 machineB "" .both false, .confirm machineB,
        .dropCapabilities machineB .iMayDrive]).leaseAt machineB = some lease ∧
      lease.confirmed = true ∧ lease.canonicalized = .error (.notAsChosen .both .driveMe) :=
  @dropped_choice asciiLowercase freshStore rfl machineB machineB_valid 0 ""

end HopsFormal.Trust.TrustStore
