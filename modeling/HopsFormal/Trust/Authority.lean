import HopsFormal.Trust.Persistence

/-!
# Where every capability comes from

Over every run of the public verbs, a machine that may do anything was granted
it and confirmed since it was last forgotten, each direction to drive by an
approval or a record of its own.  Outside the granting verbs nothing widens,
and a verb that names one machine changes nothing for another.
-/

namespace HopsFormal.Trust.TrustStore

open Lib Lease

def IsDrive (bit : Caps) : Prop := bit = .driveMe ∨ bit = .iMayDrive

theorem IsDrive.union {bit one other : Caps} (isDrive : IsDrive bit)
    (held : (one.union other).contains bit = true) :
    one.contains bit = true ∨ other.contains bit = true := by
  rcases isDrive with rfl | rfl <;> revert one other <;> decide

theorem IsDrive.existing {bit caps : Caps} (isDrive : IsDrive bit)
    (held : (caps.union (existingPairingClipboard caps)).contains bit = true) :
    caps.contains bit = true := by
  rcases isDrive with rfl | rfl <;> revert caps <;> decide

/-! ## The verbs and the leases they are about -/

/-- The verbs that may widen what a machine may do. -/
def Widens : Verb → Prop
  | .issue .. | .issueWithOrigin .. | .issueAnswered .. | .confirm .. | .admitLease ..
  | .renew .. | .enableClipboard .. => True
  | _ => False

/-- The fingerprint a verb names, as the caller spelled it. -/
def names : Verb → Option String
  | .issue _ fingerprint _ _ | .issueWithOrigin _ fingerprint _ _ _
  | .issueAnswered _ fingerprint _ _ _ | .renew _ fingerprint | .dropCapabilities fingerprint _
  | .enableClipboard _ fingerprint | .disableClipboard fingerprint | .setLabel fingerprint _
  | .confirm fingerprint | .forget fingerprint | .forgetUnconfirmed fingerprint
  | .listToPairAgain fingerprint _ _ => some fingerprint
  | .admitLease lease => some lease.peer
  | .sweep _ | .forgetLongLapsed _ | .migrateFromConfig .. => none

theorem names_of_approval {verb : Verb} {approval : Approval} {named : String}
    (made : verb.approval = some approval) (naming : names verb = some named) :
    approval.fingerprint = named := by
  cases verb <;> cases made <;> exact Option.some.inj naming

theorem granted_edit {lease edited : Lease} (ours : String) (now : Nat)
    (issuedTo : edited.issuedTo = lease.issuedTo) (issuedAt : edited.issuedAt = lease.issuedAt)
    (expiry : edited.expiry = lease.expiry) (confirmed : edited.confirmed = lease.confirmed)
    (within : lease.caps.contains edited.caps = true) :
    (granted (some lease) ours now).contains (granted (some edited) ours now) = true := by
  have valid : edited.isValidAt now = lease.isValidAt now := by
    simp only [isValidAt, issuedAt, expiry]
  simp only [granted, effectiveCapabilities, confirmed, issuedTo, valid]
  cases lease.confirmed with
  | false => exact Caps.contains_refl _
  | true =>
    by_cases inForce : lease.issuedTo = ours ∧ lease.isValidAt now = true
    · simpa [inForce] using within
    · simp only [if_neg inForce]
      exact Caps.contains_refl _

section Authority

variable [Lowercase]

/-! ## What a run says about one machine -/

/-- The verb forgets the machine `fp`, under any spelling. -/
def Forgets (fp : String) (verb : Verb) : Prop := ∃ fingerprint, verb = .forget fingerprint ∧
  key fingerprint = fp

/--
At `store` the verb is accepted and grants `caps` to `fp`; `confirmed` says
whether it brings the confirmation with it, as a record off disk does.
-/
inductive Grants (store : TrustStore) (fp : String) : Verb → Caps → Bool → Prop where
  | issued {verb : Verb} {approval : Approval} {next : TrustStore}
      (made : verb.approval = some approval)
      (found : canonicalFingerprint approval.fingerprint = some fp)
      (accepted : approval.issue store = .ok next) : Grants store fp verb approval.caps false
  | admitted {lease checked : Lease} {next : TrustStore}
      (passed : lease.canonicalized = .ok checked) (peer : checked.peer = fp)
      (accepted : store.admitLease lease = .ok next) :
      Grants store fp (.admitLease lease) checked.caps checked.confirmed

/-- Something was granted to `fp` since it was last forgotten. -/
def Approved (start : TrustStore) (fp : String) : List Verb → Prop :=
  Since (Forgets fp) fun before verb _ =>
    ∃ caps confirmed, Grants (start.run before) fp verb caps confirmed

def ConfirmedLater (start : TrustStore) (fp : String) (before : List Verb) (verb : Verb)
    (after : List Verb) : Prop :=
  ∃ middle fingerprint rest next, after = middle ++ .confirm fingerprint :: rest ∧
    key fingerprint = fp ∧ (start.run (before ++ verb :: middle)).confirm fingerprint = .ok next

/-- The verb approves more for a pairing that is confirmed and in force. -/
def Joins (store : TrustStore) (fp : String) (verb : Verb) : Prop :=
  ∃ approval held, verb.approval = some approval ∧
    store.inForce fp (store.now approval.reading) = some held ∧ held.confirmed = true

/--
The direction `bit` was granted to `fp` since it was last forgotten; once it is `settled`, a
confirmation came with the grant or followed it, or was there for what the grant added to.
-/
def Granted (start : TrustStore) (fp : String) (settled : Bool) (bit : Caps) :
    List Verb → Prop :=
  Since (Forgets fp) fun before verb after =>
    ∃ caps confirmed, Grants (start.run before) fp verb caps confirmed ∧
      caps.contains bit = true ∧ (settled = true → confirmed = true ∨
        Joins (start.run before) fp verb ∨ ConfirmedLater start fp before verb after)

/--
Since `fp` was last forgotten a confirmed record was admitted, or something was
granted and a confirmation followed.
-/
def Confirmed (start : TrustStore) (fp : String) : List Verb → Prop :=
  Since (Forgets fp) fun before verb after =>
    (∃ caps, Grants (start.run before) fp verb caps true) ∨
      (∃ caps confirmed, Grants (start.run before) fp verb caps confirmed) ∧
        ConfirmedLater start fp before verb after

/-- Everything a lease held under `fp` owes to the run that left it. -/
structure Authorized (start : TrustStore) (fp : String) (verbs : List Verb) (lease : Lease) :
    Prop where
  approved : Approved start fp verbs
  confirmed : lease.confirmed = true → Confirmed start fp verbs
  drives : ∀ bit, IsDrive bit → lease.caps.contains bit = true →
    Granted start fp lease.confirmed bit verbs

variable {start next store : TrustStore} {fp : String} {verb : Verb} {verbs : List Verb}
  {lease : Lease}

theorem ConfirmedLater.snoc {before after : List Verb}
    (later : ConfirmedLater start fp before verb after) (more : Verb) :
    ConfirmedLater start fp before verb (after ++ [more]) := by
  obtain ⟨middle, fingerprint, rest, next, rfl, named, accepted⟩ := later
  exact ⟨middle, fingerprint, rest ++ [more], next, by simp, named, accepted⟩

theorem Confirmed.snoc (confirmed : Confirmed start fp verbs) (continues : ¬ Forgets fp verb) :
    Confirmed start fp (verbs ++ [verb]) :=
  Since.snoc confirmed continues fun _ _ _ => Or.imp_right (And.imp_right fun later =>
    later.snoc verb)

theorem Granted.snoc {settled : Bool} {bit : Caps} (granted : Granted start fp settled bit verbs)
    (continues : ¬ Forgets fp verb) : Granted start fp settled bit (verbs ++ [verb]) := by
  refine Since.snoc granted continues ?_
  rintro before granting after ⟨caps, confirmed, grants, carried, follows⟩
  exact ⟨caps, confirmed, grants, carried, fun settled =>
    (follows settled).imp_right (Or.imp_right fun later => later.snoc verb)⟩

/-- A step that does not forget the machine keeps what it is owed. -/
theorem Authorized.snoc (authorized : Authorized start fp verbs lease)
    (continues : ¬ Forgets fp verb) : Authorized start fp (verbs ++ [verb]) lease where
  approved := Since.snoc_same authorized.approved continues
  confirmed isConfirmed := (authorized.confirmed isConfirmed).snoc continues
  drives bit isDrive held := (authorized.drives bit isDrive held).snoc continues

/-- A lease with no more drive bits and no new confirmation owes no more. -/
theorem Authorized.edit {edited : Lease} (authorized : Authorized start fp verbs lease)
    (sameConfirmed : edited.confirmed = lease.confirmed)
    (drives : ∀ bit, IsDrive bit → edited.caps.contains bit = true →
      lease.caps.contains bit = true) : Authorized start fp verbs edited where
  approved := authorized.approved
  confirmed isConfirmed := authorized.confirmed (sameConfirmed ▸ isConfirmed)
  drives bit isDrive held := sameConfirmed ▸ authorized.drives bit isDrive (drives bit isDrive held)

theorem forget_leaseAt (store : TrustStore) (fp : String) :
    (store.step (.forget fp)).leaseAt (key fp) = none := by
  simp [step, forget]

theorem Authorized.approve {approval : Approval} (made : verb.approval = some approval)
    (found : canonicalFingerprint approval.fingerprint = some fp)
    (accepted : approval.issue (start.run verbs) = .ok next)
    (held : ∀ lease, (start.run verbs).leaseAt fp = some lease → Authorized start fp verbs lease) :
    Authorized start fp (verbs ++ [verb]) (approval.approved (start.run verbs) fp) := by
  have continues : ¬ Forgets fp verb := by
    rintro ⟨fingerprint, rfl, _⟩
    cases made
  have grants : Grants (start.run verbs) fp verb approval.caps false := .issued made found accepted
  unfold Approval.approved
  cases inForce : (start.run verbs).inForce fp ((start.run verbs).now approval.reading) with
  | none =>
    exact ⟨Since.last ⟨_, _, grants⟩, by simp [Approval.requested],
      fun bit _ asked => Since.last ⟨_, _, grants, asked, by simp [Approval.requested]⟩⟩
  | some old =>
    obtain ⟨isHeld, confirmed, -⟩ := inForce_some inForce
    have owed := (held old isHeld).snoc continues
    refine ⟨owed.approved, owed.confirmed, ?_⟩
    intro bit isDrive merged
    rcases isDrive.union merged with before | added
    · exact owed.drives bit isDrive before
    · refine Since.last ⟨_, _, grants, ?_, fun _ => .inr (.inl ⟨_, _, made, inForce, confirmed⟩)⟩
      split at added
      · exact Caps.contains_trans (Caps.contains_without _ _) added
      · exact added

theorem authorized_step (formed : Formed (start.run verbs))
    (held : ∀ fp lease, (start.run verbs).leaseAt fp = some lease →
      Authorized start fp verbs lease) (verb : Verb)
    (found : ((start.run verbs).step verb).leaseAt fp = some lease) :
    Authorized start fp (verbs ++ [verb]) lease := by
  have continues : ¬ Forgets fp verb := by
    rintro ⟨fingerprint, rfl, rfl⟩
    rw [forget_leaseAt] at found
    cases found
  rcases (formed.step_effect verb).leaves found with old | left
  · exact (held fp lease old).snoc continues
  · cases left with
    | approved made spelled coherent accepted =>
      exact Authorized.approve made spelled accepted (held fp)
    | admitted passed accepted =>
      have grants := Grants.admitted passed rfl accepted
      refine ⟨Since.last ⟨_, _, grants⟩, ?_,
        fun bit _ carried => Since.last ⟨_, _, grants, carried, .inl⟩⟩
      intro confirmed
      exact Since.last (.inl ⟨_, confirmed ▸ grants⟩)
    | renewed old | labelled old =>
      exact ((held _ _ old).snoc continues).edit rfl fun _ _ same => same
    | narrowed old some_left | clipboardOff old =>
      exact ((held _ _ old).snoc continues).edit rfl fun _ _ kept =>
        Caps.contains_trans (Caps.contains_without _ _) kept
    | clipboardOn old =>
      exact ((held _ _ old).snoc continues).edit rfl fun _ isDrive kept => isDrive.existing kept
    | confirmed old accepted =>
      have owed := held _ _ old
      refine ⟨(owed.snoc continues).approved, fun _ => ?_, fun bit isDrive carried => ?_⟩
      · refine Since.snoc_split owed.approved continues ?_
        rintro before granting after rfl grants
        exact .inr ⟨grants, after, _, [], _, rfl, rfl, accepted⟩
      · refine Since.snoc_split (owed.drives bit isDrive carried) continues ?_
        rintro before granting after rfl ⟨caps, confirmed, grants, within, -⟩
        exact ⟨caps, confirmed, grants, within, fun _ =>
          .inr (.inr ⟨after, _, [], _, rfl, rfl, accepted⟩)⟩

theorem authorized_run (formed : Formed start) (empty : ∀ fp, start.leaseAt fp = none)
    (verbs : List Verb) (found : (start.run verbs).leaseAt fp = some lease) :
    Authorized start fp verbs lease := by
  induction verbs using List.reverseRecOn generalizing fp lease with
  | nil =>
    rw [show start.run [] = start from rfl, empty] at found
    cases found
  | append_singleton verbs verb ih =>
    rw [run_append] at found
    exact authorized_step (formed.run verbs) (fun fp lease => ih) verb found

/-! ## What does not widen, and what is left alone -/

theorem Sets.narrows {edited : Lease} {unlisted : Bool}
    (sets : Sets store next fp (some edited) unlisted) (found : store.leaseAt fp = some lease)
    (now : Nat) (fingerprint : String) (within : (granted (some lease) store.ours now).contains
      (granted (some edited) store.ours now) = true) :
    (store.capabilitiesAt now fingerprint).contains (next.capabilitiesAt now fingerprint) =
      true := by
  rw [capabilitiesAt_eq, capabilitiesAt_eq, sets.ours, sets.leaseAt]
  by_cases same : fp = key fingerprint
  · rw [if_pos same, ← same, found]
    exact within
  · rw [if_neg same]
    exact Caps.contains_refl _

theorem Sets.narrows_none {unlisted : Bool} (sets : Sets store next fp none unlisted) (now : Nat)
    (fingerprint : String) :
    (store.capabilitiesAt now fingerprint).contains (next.capabilitiesAt now fingerprint) =
      true := by
  rw [capabilitiesAt_eq, capabilitiesAt_eq, sets.ours, sets.leaseAt]
  split
  · exact Caps.contains_none _
  · exact Caps.contains_refl _

theorem Formed.step_narrows (formed : Formed store) (narrow : ¬ Widens verb) (now : Nat)
    (fp : String) : (store.capabilitiesAt now fp).contains
      ((store.step verb).capabilitiesAt now fp) = true := by
  have effect := formed.step_effect verb
  generalize store.step verb = next at effect ⊢
  cases effect with
  | unchanged | swept => exact Caps.contains_refl _
  | approved made =>
    refine absurd ?_ narrow
    cases verb <;> trivial
  | admitted | renewed | clipboardOn | confirmed => exact absurd trivial narrow
  | narrowed found left sets | clipboardOff found left sets =>
    exact sets.narrows found now fp
      (granted_edit _ _ rfl rfl rfl rfl (Caps.contains_without _ _))
  | labelled found sets =>
    exact sets.narrows found now fp
      (granted_edit _ _ rfl rfl rfl rfl (Caps.contains_refl _))
  | ended names sets | forgotten sets => exact sets.narrows_none now fp
  | pruned prunes =>
    rw [capabilitiesAt_eq, capabilitiesAt_eq, prunes.ours]
    rcases prunes.leaseAt (key fp) with same | ⟨gone, _⟩
    · rw [same]
      exact Caps.contains_refl _
    · rw [gone]
      exact Caps.contains_none _
  | relisted lists relists =>
    rw [capabilitiesAt_eq, capabilitiesAt_eq, relists.ours, relists.leaseAt]
    exact Caps.contains_refl _

theorem Formed.renew_within (formed : Formed store) {reading : Nat} {fp : String}
    (found : store.lease fp = some lease) (now : Nat) : lease.caps.contains
      ((store.step (.renew reading fp)).capabilitiesAt now fp) = true := by
  have within : ∀ held : Lease, held.caps = lease.caps →
      lease.caps.contains (granted (some held) store.ours now) = true := by
    intro held same
    unfold granted effectiveCapabilities
    dsimp only
    split
    · exact Caps.contains_none _
    · split
      · exact same ▸ Caps.contains_refl _
      · exact Caps.contains_none _
  have effect := formed.step_effect (.renew reading fp)
  rw [capabilitiesAt_eq, effect.ours]
  cases held : (store.step (.renew reading fp)).leaseAt (key fp) with
  | none => exact Caps.contains_none _
  | some after =>
    rcases effect.leaves held with old | left
    · exact within after (congrArg caps (Option.some.inj (old.symm.trans found)))
    · cases left with
      | approved made => cases made
      | renewed before =>
        have same := Option.some.inj (before.symm.trans found)
        exact within _ (by rw [← same])

/-- A verb changes nothing for a machine it does not name. -/
theorem Formed.step_frame (formed : Formed store) {named : String}
    (naming : names verb = some named) {fp : String} (other : key named ≠ key fp)
    (reading : Nat) : (store.step verb).capabilities reading fp =
      store.capabilities reading fp := by
  have framed : ∀ {next : TrustStore} {lease : Option Lease} {unlisted : Bool},
      Sets store next (key named) lease unlisted →
      next.capabilities reading fp = store.capabilities reading fp := by
    intro next lease unlisted sets
    unfold capabilities now
    rw [capabilitiesAt_eq, capabilitiesAt_eq, sets.ours, sets.clock, sets.leaseAt, if_neg other]
  have effect := formed.step_effect verb
  generalize store.step verb = next at effect ⊢
  cases effect with
  | unchanged => rfl
  | approved made found coherent accepted sets =>
    have same : key named = _ := names_of_approval made naming ▸ key_of_canonical found
    exact framed (same ▸ sets)
  | admitted passed issuedTo accepted sets =>
    obtain ⟨peer, _, found, _, _, _, _, rfl⟩ := canonicalized_ok.mp passed
    have same : key named = peer := Option.some.inj naming ▸ key_of_canonical found
    exact framed (same ▸ sets)
  | renewed found sets | narrowed found left sets | clipboardOn found sets
  | clipboardOff found left sets | labelled found sets | confirmed found accepted sets
  | forgotten sets => exact framed (Option.some.inj naming ▸ sets)
  | ended verbs sets =>
    rcases verbs with rfl | rfl | ⟨drop, rfl⟩ <;> exact framed (Option.some.inj naming ▸ sets)
  | swept | pruned => cases naming
  | relisted lists relists =>
    unfold capabilities now
    rw [capabilitiesAt_eq, capabilitiesAt_eq, relists.ours, relists.clock, relists.leaseAt]

/-! ## The authority behind every capability -/

/--
Over every run from an empty store: whoever may do anything was granted it and
confirmed since last forgotten, each drive bit by a grant of its own that was confirmed
too or added to what was; outside the widening verbs a further verb only takes away, a
renewal stays within the lease's own bits, and no verb changes what a machine it does
not name may do.
-/
theorem capability_needs_approval {ours : String} {floor : Nat} {start : TrustStore}
    (made : new ours floor = .ok start) (verbs : List Verb) :
    (∀ reading fingerprint, (start.run verbs).capabilities reading fingerprint ≠ .none →
      Confirmed start (key fingerprint) verbs ∧
      ∀ bit, IsDrive bit →
        ((start.run verbs).capabilities reading fingerprint).contains bit = true →
        Granted start (key fingerprint) true bit verbs) ∧
    (∀ verb, ¬ Widens verb → ∀ now fingerprint,
      ((start.run verbs).capabilitiesAt now fingerprint).contains
        (((start.run verbs).step verb).capabilitiesAt now fingerprint) = true) ∧
    (∀ reading fingerprint lease, (start.run verbs).lease fingerprint = some lease → ∀ now,
      lease.caps.contains
        (((start.run verbs).step (.renew reading fingerprint)).capabilitiesAt now fingerprint) =
        true) ∧
    (∀ verb named, names verb = some named → ∀ fingerprint, key named ≠ key fingerprint →
      ∀ reading, ((start.run verbs).step verb).capabilities reading fingerprint =
        (start.run verbs).capabilities reading fingerprint) := by
  have formed := (formed_new made).run verbs
  refine ⟨?_, fun verb narrow now fingerprint => formed.step_narrows narrow now fingerprint,
    fun reading fingerprint lease found now => formed.renew_within found now,
    fun verb named naming fingerprint other reading => formed.step_frame naming other reading⟩
  intro reading fingerprint grants
  obtain ⟨_, _, noEntries, _⟩ := new_ok made
  unfold capabilities at grants ⊢
  rw [capabilitiesAt_eq] at grants ⊢
  cases found : (start.run verbs).leaseAt (key fingerprint) with
  | none => simp [found, granted, effectiveCapabilities] at grants
  | some lease =>
    rw [found] at grants
    have owed := authorized_run (formed_new made) (by simp [leaseAt, noEntries]) verbs found
    obtain ⟨confirmed, _, _, caps⟩ := effectiveCapabilities_some grants
    refine ⟨owed.confirmed confirmed, ?_⟩
    intro bit isDrive held
    rw [granted, caps] at held
    exact confirmed ▸ owed.drives bit isDrive held

/-! ## Where a stricter rule fails -/

/-- Either a confirmed record, or an approval of this very bit and a confirmation after it. -/
def OwnConfirmation (bit : Caps) (verbs : List Verb) : Prop :=
  ∃ before verb after, verbs = before ++ verb :: after ∧
    ((∃ lease, verb = .admitLease lease ∧ lease.confirmed = true) ∨
      (∃ approval, verb.approval = some approval ∧ approval.caps.contains bit = true) ∧
        ∃ fingerprint, .confirm fingerprint ∈ after)

/-- A record of a pairing that lets the peer drive this machine. -/
def recordedLease (ours fp : String) (issuedAt : Nat) (confirmed : Bool) : Lease where
  peer := fp
  issuedTo := ours
  label := ""
  caps := .driveMe
  origin := .inbound
  issuedAt := issuedAt
  expiry := .never
  clipboardChosen := false
  confirmed := confirmed

theorem second_direction {store : TrustStore} (empty : store.entries = ∅) {fp : String}
    (valid : validFingerprint fp = true) (reading : Nat) (label : String) :
    ((store.run [.issue reading fp label .driveMe, .confirm fp,
        .issue reading fp label .iMayDrive]).capabilities reading fp).contains .iMayDrive = true ∧
      ¬ OwnConfirmation .iMayDrive [.issue reading fp label .driveMe, .confirm fp,
        .issue reading fp label .iMayDrive] := by
  have unheld : store.leaseAt fp = none := by simp [empty, leaseAt]
  have grantsMe : Caps.driveMe.isEmpty = false := by decide
  have grantsI : Caps.iMayDrive.isEmpty = false := by decide
  have inbound : originOf .driveMe = .inbound := by decide
  have outbound : originOf .iMayDrive = .outboundDial := by decide
  have apart : Caps.driveMe.contains .iMayDrive = false := by decide
  have apart' : Caps.iMayDrive.contains .driveMe = false := by decide
  have both : Caps.driveMe.union .iMayDrive = .drive := by decide
  have more : ¬ Caps.drive = .iMayDrive := by decide
  have migrated : originOf .drive = .migrated := by decide
  have grants : Caps.drive.isEmpty = false := by decide
  have within : Caps.drive.contains .iMayDrive = true := by decide
  have reached : store.clock.floor ≤ reading ∨ reading ≤ store.clock.floor := le_total _ _
  constructor
  · simp [run, step, issue, issueWithOrigin, issueLease, canonicalized, checkTerm,
      checkChosen, canonicalized_of_valid valid, key_of_valid valid,
      canonicalized_of_valid store.valid, defaultTerm, Term.expiryFrom, bind, Except.bind,
      unlessRefused, incoherent, admitLease, confirm, inForce_eq, granted, effectiveCapabilities,
      isValidAt, now, Clock.at_, mergeLease, capabilities, capabilitiesAt_eq,
      Option.filter_some, unheld, grantsMe, grantsI, inbound, outbound, apart, apart', both, more,
      migrated, grants, within, reached]
  · rintro ⟨before, verb, after, split, rule⟩
    rcases before with _ | ⟨_, _ | ⟨_, _ | ⟨_, _⟩⟩⟩
    · obtain ⟨rfl, rfl⟩ := List.cons.inj split
      simp [Verb.approval, apart] at rule
    · obtain ⟨-, tail⟩ := List.cons.inj split
      obtain ⟨rfl, rfl⟩ := List.cons.inj tail
      simp [Verb.approval] at rule
    · obtain ⟨-, tail⟩ := List.cons.inj split
      obtain ⟨-, tail⟩ := List.cons.inj tail
      obtain ⟨rfl, rfl⟩ := List.cons.inj tail
      simp at rule
    · simp at split

theorem record_confirmed {store : TrustStore} (empty : store.entries = ∅) {fp : String}
    (valid : validFingerprint fp = true) :
    ((store.run [.admitLease (recordedLease store.ours fp 0 false), .confirm fp]).capabilities 0
        fp).contains .driveMe = true ∧
      ¬ OwnConfirmation .driveMe
        [.admitLease (recordedLease store.ours fp 0 false), .confirm fp] := by
  have unheld : store.leaseAt fp = none := by simp [empty, leaseAt]
  have grants : Caps.driveMe.isEmpty = false := by decide
  have within : Caps.driveMe.contains .driveMe = true := by decide
  constructor
  · simp [run, step, canonicalized, checkTerm, checkChosen, recordedLease,
      canonicalized_of_valid valid, key_of_valid valid,
      canonicalized_of_valid store.valid, bind, Except.bind, unlessRefused, admitLease,
      confirm, granted, effectiveCapabilities, isValidAt, now, Clock.at_, capabilities,
      capabilitiesAt_eq, grants, within]
  · rintro ⟨before, verb, after, split, rule⟩
    rcases before with _ | ⟨_, _ | ⟨_, _⟩⟩
    · obtain ⟨rfl, rfl⟩ := List.cons.inj split
      simp [Verb.approval, recordedLease] at rule
    · obtain ⟨-, tail⟩ := List.cons.inj split
      obtain ⟨rfl, rfl⟩ := List.cons.inj tail
      simp [Verb.approval] at rule
    · simp at split

theorem sweep_reaches {store : TrustStore} (empty : store.entries = ∅)
    (early : store.clock.floor = 0) {fp : String} (valid : validFingerprint fp = true) :
    let held := store.run [.admitLease (recordedLease store.ours fp 1000 true)]
    (held.capabilities 0 fp).contains ((held.step (.sweep 2000)).capabilities 0 fp) = false := by
  have unheld : store.leaseAt fp = none := by simp [empty, leaseAt]
  have grants : Caps.driveMe.isEmpty = false := by decide
  have apart : Caps.none.contains .driveMe = false := by decide
  simp [run, step, canonicalized, checkTerm, checkChosen, recordedLease,
    canonicalized_of_valid valid, key_of_valid valid, sweep,
    canonicalized_of_valid store.valid, bind, Except.bind, unlessRefused, admitLease,
    granted, effectiveCapabilities, isValidAt, now, Clock.at_, capabilities,
    capabilitiesAt_eq, grants, apart, early, Clock.observe]

end Authority

def approvedTwice : List Verb :=
  [.issue 0 machineB "" .driveMe, .confirm machineB, .issue 0 machineB "" .iMayDrive]

/-- A machine may be driven by an approval added to a confirmed pairing. -/
theorem capability_needs_approval_paired :
    letI := asciiLowercase
    new machineA 0 = .ok freshStore ∧
      ((freshStore.run approvedTwice).capabilities 0 machineB).contains .iMayDrive = true ∧
      Confirmed freshStore (key machineB) approvedTwice ∧
      Granted freshStore (key machineB) true .iMayDrive approvedTwice := by
  have made := @new_of_valid asciiLowercase machineA machineA_valid 0
  have held : (@capabilities asciiLowercase (@run asciiLowercase freshStore approvedTwice) 0
      machineB).contains .iMayDrive = true :=
    (@second_direction asciiLowercase freshStore rfl machineB machineB_valid 0 "").1
  refine ⟨made, held, ?_⟩
  obtain ⟨confirmed, granted⟩ :=
    (@capability_needs_approval asciiLowercase machineA 0 freshStore made approvedTwice).1 0 machineB
      fun none => absurd held (by rw [none]; decide)
  exact ⟨confirmed, granted .iMayDrive (.inr rfl) held⟩

def confirmedRecord : List Verb :=
  [.admitLease (recordedLease freshStore.ours machineB 0 false), .confirm machineB]

/--
A drive bit is granted whose own approval no confirmation followed, another
comes from a record confirmed later, and a sweep widens what one reading sees.
-/
theorem capability_without_own_confirmation :
    letI := asciiLowercase
    (((freshStore.run approvedTwice).capabilities 0 machineB).contains .iMayDrive = true ∧
      ¬ OwnConfirmation .iMayDrive approvedTwice) ∧
    (((freshStore.run confirmedRecord).capabilities 0 machineB).contains .driveMe = true ∧
      ¬ OwnConfirmation .driveMe confirmedRecord) ∧
    let held := freshStore.run [.admitLease (recordedLease freshStore.ours machineB 1000 true)]
    (held.capabilities 0 machineB).contains
      ((held.step (.sweep 2000)).capabilities 0 machineB) = false :=
  ⟨@second_direction asciiLowercase freshStore rfl machineB machineB_valid 0 "",
    @record_confirmed asciiLowercase freshStore rfl machineB machineB_valid,
    @sweep_reaches asciiLowercase freshStore rfl rfl machineB machineB_valid⟩

end HopsFormal.Trust.TrustStore
