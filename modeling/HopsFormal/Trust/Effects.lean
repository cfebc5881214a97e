import HopsFormal.Trust.Verbs

/-!
# One step of the store

`step` runs any public verb.  In a store that is formed, every step is one of
the effects listed by `Effect`, each of which changes at most one record and
one listing, and stays formed.
-/

namespace HopsFormal.Trust

open Option

/-- The public verbs, with everything the caller and the clock hand them. -/
inductive Verb where
  | issue (reading : Nat) (fingerprint label : String) (caps : Caps)
  | issueWithOrigin (reading : Nat) (fingerprint label : String) (caps : Caps) (origin : Origin)
  | issueAnswered (reading : Nat) (fingerprint label : String) (controller : Controller)
      (clipboard : Bool)
  | renew (reading : Nat) (fingerprint : String)
  | dropCapabilities (fingerprint : String) (drop : Caps)
  | enableClipboard (reading : Nat) (fingerprint : String)
  | disableClipboard (fingerprint : String)
  | setLabel (fingerprint label : String)
  | confirm (fingerprint : String)
  | admitLease (lease : Lease)
  | forget (fingerprint : String)
  | forgetUnconfirmed (fingerprint : String)
  | sweep (reading : Nat)
  | forgetLongLapsed (reading : Nat)
  | listToPairAgain (fingerprint label : String) (since : Nat)
  | migrateFromConfig (authorized : List (String × String)) (revoked : List String) (now : Nat)

def Verb.approval : Verb → Option TrustStore.Approval
  | .issue reading fingerprint label caps =>
    some ⟨reading, fingerprint, label, caps, originOf caps, false⟩
  | .issueWithOrigin reading fingerprint label caps origin =>
    some ⟨reading, fingerprint, label, caps, origin, false⟩
  | .issueAnswered reading fingerprint label controller clipboard =>
    some ⟨reading, fingerprint, label,
      (driveOf controller).union
        (if clipboard then existingPairingClipboard (driveOf controller) else .none),
      .chosen controller, true⟩
  | _ => none

namespace TrustStore

/-- A verb that answers with an error leaves the store as it was. -/
def unlessRefused (store : TrustStore) : Except TrustError TrustStore → TrustStore
  | .ok next => next
  | .error _ => store

def step [Lowercase] (store : TrustStore) : Verb → TrustStore
  | .issue reading fingerprint label caps =>
    store.unlessRefused (store.issue reading fingerprint label caps)
  | .issueWithOrigin reading fingerprint label caps origin =>
    store.unlessRefused (store.issueWithOrigin reading fingerprint label caps origin)
  | .issueAnswered reading fingerprint label controller clipboard =>
    store.unlessRefused (store.issueAnswered reading fingerprint label controller clipboard)
  | .renew reading fingerprint => store.unlessRefused (store.renew reading fingerprint)
  | .dropCapabilities fingerprint drop => (store.dropCapabilities fingerprint drop).2
  | .enableClipboard reading fingerprint => (store.enableClipboard reading fingerprint).2
  | .disableClipboard fingerprint => (store.disableClipboard fingerprint).2
  | .setLabel fingerprint label => store.unlessRefused (store.setLabel fingerprint label)
  | .confirm fingerprint => store.unlessRefused (store.confirm fingerprint)
  | .admitLease lease => store.unlessRefused (store.admitLease lease)
  | .forget fingerprint => (store.forget fingerprint).2
  | .forgetUnconfirmed fingerprint => (store.forgetUnconfirmed fingerprint).2
  | .sweep reading => (store.sweep reading).2
  | .forgetLongLapsed reading => (store.forgetLongLapsed reading).2
  | .listToPairAgain fingerprint label since =>
    store.unlessRefused (store.listToPairAgain fingerprint label since)
  | .migrateFromConfig authorized revoked now =>
    (store.migrateFromConfig authorized revoked now).2

def run [Lowercase] (store : TrustStore) (verbs : List Verb) : TrustStore :=
  verbs.foldl step store

/-! ## A store every verb keeps formed -/

/-- What is true of every lease held under `fp`, whichever verb left it. -/
structure FormedLease (ours fp : String) (lease : Lease) : Prop where
  valid : validFingerprint fp = true
  peer : lease.peer = fp
  issuedTo : lease.issuedTo = ours
  label : sanitizeLabel lease.label = lease.label
  proper : lease.expiry.Proper lease.issuedAt
  grants : lease.caps.isEmpty = false

structure Formed (store : TrustStore) : Prop where
  held : ∀ (fp : String) (entry : Entry), store.entries[fp]? = some entry →
    entry.lease.isSome = true
  lease : ∀ fp lease, store.leaseAt fp = some lease → FormedLease store.ours fp lease
  listed : ∀ (fp : String) (listing : PairAgain), store.pairAgain[fp]? = some listing →
    validFingerprint fp = true ∧ fp ≠ store.ours ∧ sanitizeLabel listing.label = listing.label
  apart : ∀ fp lease, store.leaseAt fp = some lease → lease.confirmed = true →
    store.pairAgain[fp]? = none

/-- One record changes to `lease`, or goes, and its listing may go. -/
structure Sets (store next : TrustStore) (fp : String) (lease : Option Lease)
    (unlisted : Bool) : Prop where
  ours : next.ours = store.ours
  clock : next.clock = store.clock
  entries : ∀ other, next.entries[other]? =
    if fp = other then lease.map (fun lease => ⟨some lease⟩) else store.entries[other]?
  pairAgain : ∀ other, next.pairAgain[other]? =
    if unlisted = true ∧ fp = other then none else store.pairAgain[other]?

variable {store next : TrustStore} {fp : String} {lease : Option Lease} {unlisted : Bool}

theorem Sets.leaseAt (sets : Sets store next fp lease unlisted) (other : String) :
    next.leaseAt other = if fp = other then lease else store.leaseAt other := by
  unfold TrustStore.leaseAt
  rw [sets.entries other]
  split
  · cases lease <;> rfl
  · rfl

theorem sets_setLease (store : TrustStore) (fp : String) (lease : Lease) :
    Sets store (store.setLease fp lease) fp (some lease) false where
  ours := rfl
  clock := rfl
  entries other := by
    simp [setLease, Std.ExtTreeMap.getElem?_insert]
  pairAgain other := by simp

theorem sets_removeEntry (store : TrustStore) (fp : String) :
    Sets store (store.removeEntry fp) fp none false where
  ours := rfl
  clock := rfl
  entries other := by
    simp [removeEntry, Std.ExtTreeMap.getElem?_erase]
  pairAgain other := by simp

theorem Sets.trans {middle : TrustStore} {first second : Option Lease} {also : Bool}
    (one : Sets store middle fp first unlisted) (two : Sets middle next fp second also) :
    Sets store next fp second (unlisted || also) where
  ours := two.ours.trans one.ours
  clock := two.clock.trans one.clock
  entries other := by
    rw [two.entries other]
    split
    · rfl
    · rename_i apart
      rw [one.entries other, if_neg apart]
  pairAgain other := by
    rw [two.pairAgain other, one.pairAgain other]
    by_cases same : fp = other
    · cases unlisted <;> cases also <;> simp [same]
    · simp [same]

theorem Sets.unlist (sets : Sets store next fp lease unlisted) :
    Sets store (next.unlist fp) fp lease true where
  ours := sets.ours
  clock := sets.clock
  entries := sets.entries
  pairAgain other := by
    simp only [pairAgain_unlist, true_and]
    split
    · rfl
    · rename_i apart
      rw [sets.pairAgain other, if_neg (fun both => apart both.2)]

theorem sets_record (store : TrustStore) (lease : Lease) :
    Sets store (store.record lease) lease.peer (some lease) lease.confirmed where
  ours := ours_record store lease
  clock := clock_record store lease
  entries other := by
    simp only [record, setLease, Std.ExtTreeMap.getElem?_insert, map_some,
      Std.LawfulEqCmp.compare_eq_iff_eq]
    split
    · rfl
    · cases lease.confirmed <;> rfl
  pairAgain other := pairAgain_record store lease other

theorem Formed.sets (formed : Formed store) (sets : Sets store next fp lease unlisted)
    (formedLease : ∀ new, lease = some new → FormedLease store.ours fp new)
    (apart : ∀ new, lease = some new → new.confirmed = true →
      unlisted = true ∨ store.pairAgain[fp]? = none) : Formed next where
  held other entry found := by
    rw [sets.entries other] at found
    split at found
    · cases lease with
      | none => simp at found
      | some new => simp only [map_some, Option.some.injEq] at found; simp [← found]
    · exact formed.held other entry found
  lease other new found := by
    rw [sets.ours]
    rw [sets.leaseAt other] at found
    split at found
    · rename_i same
      exact same ▸ formedLease new found
    · exact formed.lease other new found
  listed other listing found := by
    rw [sets.ours]
    rw [sets.pairAgain other] at found
    split at found
    · cases found
    · exact formed.listed other listing found
  apart other new found confirmed := by
    rw [sets.leaseAt other] at found
    rw [sets.pairAgain other]
    split at found
    · rename_i same
      subst same
      rcases apart new found confirmed with gone | absent
      · simp [gone]
      · simp [absent]
    · split
      · rfl
      · exact formed.apart other new found confirmed

theorem Formed.sets_some (formed : Formed store) {lease : Lease}
    (sets : Sets store next fp (some lease) unlisted)
    (formedLease : FormedLease store.ours fp lease)
    (apart : lease.confirmed = true → unlisted = true ∨ store.pairAgain[fp]? = none) :
    Formed next := by
  refine formed.sets sets ?_ ?_
  · intro new same
    exact Option.some.inj same ▸ formedLease
  · intro new same
    exact Option.some.inj same ▸ apart

theorem Formed.sets_edit (formed : Formed store) {old lease : Lease}
    (found : store.leaseAt fp = some old) (sets : Sets store next fp (some lease) false)
    (formedLease : FormedLease store.ours fp lease) (same : lease.confirmed = old.confirmed) :
    Formed next :=
  formed.sets_some sets formedLease fun confirmed =>
    .inr (formed.apart fp old found (same ▸ confirmed))

/-- What listing machines to be paired again may do. -/
structure Relists (store next : TrustStore) : Prop where
  ours : next.ours = store.ours
  clock : next.clock = store.clock
  entries : next.entries = store.entries
  pairAgain : ∀ (fp : String) (listing : PairAgain), next.pairAgain[fp]? = some listing →
    store.pairAgain[fp]? = some listing ∨
      (validFingerprint fp = true ∧ fp ≠ store.ours ∧ store.entries[fp]? = none ∧
        sanitizeLabel listing.label = listing.label)

theorem Relists.refl (store : TrustStore) : Relists store store :=
  ⟨rfl, rfl, rfl, fun _ _ found => .inl found⟩

theorem Relists.trans {store middle next : TrustStore} (one : Relists store middle)
    (two : Relists middle next) : Relists store next where
  ours := two.ours.trans one.ours
  clock := two.clock.trans one.clock
  entries := two.entries.trans one.entries
  pairAgain fp listing found := by
    rcases two.pairAgain fp listing found with old | ⟨valid, other, absent, clean⟩
    · exact one.pairAgain fp listing old
    · exact .inr ⟨valid, one.ours ▸ other, one.entries ▸ absent, clean⟩

theorem Relists.leaseAt (relists : Relists store next) (fp : String) :
    next.leaseAt fp = store.leaseAt fp := by
  simp only [TrustStore.leaseAt, relists.entries]

theorem Formed.relists (formed : Formed store) (relists : Relists store next) : Formed next where
  held fp entry found := formed.held fp entry (relists.entries ▸ found)
  lease fp lease found := by
    rw [relists.ours]
    exact formed.lease fp lease (relists.leaseAt fp ▸ found)
  listed fp listing found := by
    rw [relists.ours]
    rcases relists.pairAgain fp listing found with old | ⟨valid, other, _, clean⟩
    · exact formed.listed fp listing old
    · exact ⟨valid, other, clean⟩
  apart fp lease found confirmed := by
    rw [relists.leaseAt] at found
    cases listing : next.pairAgain[fp]? with
    | none => rfl
    | some entry =>
      rcases relists.pairAgain fp entry listing with old | ⟨_, _, absent, _⟩
      · rw [formed.apart fp lease found confirmed] at old
        cases old
      · simp [TrustStore.leaseAt, absent] at found

/-- What dropping the long lapsed may do. -/
structure Prunes (store next : TrustStore) (floor : Nat) : Prop where
  ours : next.ours = store.ours
  clock : next.clock = ⟨floor⟩
  entries : ∀ fp, next.entries[fp]? = store.entries[fp]? ∨
    next.entries[fp]? = none ∧ ∃ lease, store.leaseAt fp = some lease ∧ lease.lapsedBy floor = true
  pairAgain : next.pairAgain = store.pairAgain

theorem Prunes.leaseAt {floor : Nat} (prunes : Prunes store next floor) (fp : String) :
    next.leaseAt fp = store.leaseAt fp ∨
      next.leaseAt fp = none ∧ ∃ lease, store.leaseAt fp = some lease ∧
        lease.lapsedBy floor = true := by
  rcases prunes.entries fp with same | ⟨gone, lapsed⟩
  · exact .inl (by simp only [TrustStore.leaseAt, same])
  · exact .inr ⟨by simp only [TrustStore.leaseAt, gone, bind_none], lapsed⟩

theorem Formed.prunes {floor : Nat} (formed : Formed store) (prunes : Prunes store next floor) :
    Formed next where
  held fp entry found := by
    rcases prunes.entries fp with same | ⟨gone, _⟩
    · exact formed.held fp entry (same ▸ found)
    · rw [gone] at found
      cases found
  lease fp lease found := by
    rw [prunes.ours]
    rcases prunes.leaseAt fp with same | ⟨gone, _⟩
    · exact formed.lease fp lease (same ▸ found)
    · rw [gone] at found
      cases found
  listed fp listing found := by
    rw [prunes.ours]
    exact formed.listed fp listing (prunes.pairAgain ▸ found)
  apart fp lease found confirmed := by
    rw [prunes.pairAgain]
    rcases prunes.leaseAt fp with same | ⟨gone, _⟩
    · exact formed.apart fp lease (same ▸ found) confirmed
    · rw [gone] at found
      cases found

/-! ## The effects -/

theorem leaseAt_of_entry {entry : Entry} (found : store.entries[fp]? = some entry) :
    store.leaseAt fp = entry.lease := by
  simp [leaseAt, found]

theorem mergeLease_agrees (held lease : Lease) (clipboardChosen : Bool)
    (agrees : lease.origin.Agrees lease.caps) :
    (mergeLease held lease clipboardChosen).origin.Agrees
      (mergeLease held lease clipboardChosen).caps := by
  unfold mergeLease
  dsimp only
  generalize held.caps.union _ = caps
  by_cases same : caps = lease.caps
  · simpa [same] using agrees
  · simp only [same, decide_false]
    cases lease.origin with
    | chosen controller =>
      cases found : controllerOf caps with
      | none => exact trivial
      | some answer => exact controllerOf_some found
    | inbound | outboundDial | migrated => exact originOf_agrees caps caps

theorem forgetLongLapsed_prunes (store : TrustStore) (reading : Nat) :
    Prunes store (store.forgetLongLapsed reading).2 (store.clock.observe reading).floor where
  ours := rfl
  clock := rfl
  entries fp := by
    simp only [forgetLongLapsed, observe, Std.ExtTreeMap.getElem?_filter']
    cases found : store.entries[fp]? with
    | none => exact .inl rfl
    | some entry =>
      cases lapsed : longLapsed (store.clock.observe reading).floor entry with
      | false => exact .inl (by simp [lapsed])
      | true =>
        refine .inr ⟨by simp [lapsed], ?_⟩
        cases held : entry.lease with
        | none => simp [longLapsed, held] at lapsed
        | some lease =>
          refine ⟨lease, (leaseAt_of_entry found).trans held, ?_⟩
          simp only [longLapsed, held] at lapsed
          unfold Lease.lapsedBy at lapsed ⊢
          cases expiry : lease.expiry with
          | never => simp [expiry] at lapsed
          | at_ notAfter =>
            simp only [expiry, decide_eq_true_eq] at lapsed ⊢
            exact le_trans lapsed (Nat.sub_le _ _)
  pairAgain := rfl

section Effects

variable [Lowercase]

/-- Everything a verb can do to a formed store. -/
inductive Effect (store : TrustStore) : Verb → TrustStore → Prop where
  | unchanged (verb : Verb) : Effect store verb store
  | approved {verb : Verb} {approval : Approval} {fp : String} {next : TrustStore}
      (made : verb.approval = some approval)
      (found : canonicalFingerprint approval.fingerprint = some fp)
      (coherent : approval.Coherent)
      (accepted : approval.issue store = .ok next)
      (sets : Sets store next fp (some (approval.approved store fp))
        (approval.approved store fp).confirmed) : Effect store verb next
  | admitted {lease checked : Lease} {next : TrustStore}
      (passed : lease.canonicalized = .ok checked) (issuedTo : checked.issuedTo = store.ours)
      (accepted : store.admitLease lease = .ok next)
      (sets : Sets store next checked.peer (some checked) checked.confirmed) :
      Effect store (.admitLease lease) next
  | renewed {reading : Nat} {fingerprint : String} {lease : Lease} {next : TrustStore}
      (found : store.leaseAt (key fingerprint) = some lease)
      (sets : Sets store next (key fingerprint)
        (some { lease with
          issuedAt := min lease.issuedAt (store.now reading)
          expiry := .never }) false) :
      Effect store (.renew reading fingerprint) next
  | narrowed {fingerprint : String} {drop : Caps} {lease : Lease} {next : TrustStore}
      (found : store.leaseAt (key fingerprint) = some lease)
      (left : (lease.caps.without drop).isEmpty = false)
      (sets : Sets store next (key fingerprint)
        (some { lease with caps := lease.caps.without drop }) false) :
      Effect store (.dropCapabilities fingerprint drop) next
  | clipboardOn {reading : Nat} {fingerprint : String} {lease : Lease} {next : TrustStore}
      (found : store.leaseAt (key fingerprint) = some lease)
      (sets : Sets store next (key fingerprint)
        (some { lease with
          caps := lease.caps.union (existingPairingClipboard lease.caps)
          clipboardChosen := true }) false) :
      Effect store (.enableClipboard reading fingerprint) next
  | clipboardOff {fingerprint : String} {lease : Lease} {next : TrustStore}
      (found : store.leaseAt (key fingerprint) = some lease)
      (left : (lease.caps.without .clipboard).isEmpty = false)
      (sets : Sets store next (key fingerprint)
        (some { lease with
          caps := lease.caps.without .clipboard
          clipboardChosen := true }) false) :
      Effect store (.disableClipboard fingerprint) next
  | labelled {fingerprint label : String} {lease : Lease} {next : TrustStore}
      (found : store.leaseAt (key fingerprint) = some lease)
      (sets : Sets store next (key fingerprint)
        (some { lease with label := sanitizeLabel label }) false) :
      Effect store (.setLabel fingerprint label) next
  | confirmed {fingerprint : String} {lease : Lease} {next : TrustStore}
      (found : store.leaseAt (key fingerprint) = some lease)
      (accepted : store.confirm fingerprint = .ok next)
      (sets : Sets store next (key fingerprint) (some { lease with confirmed := true }) true) :
      Effect store (.confirm fingerprint) next
  | ended {verb : Verb} {fingerprint : String} {next : TrustStore}
      (names : verb = .forgetUnconfirmed fingerprint ∨ verb = .disableClipboard fingerprint ∨
        ∃ drop, verb = .dropCapabilities fingerprint drop)
      (sets : Sets store next (key fingerprint) none false) : Effect store verb next
  | forgotten {fingerprint : String} {next : TrustStore}
      (sets : Sets store next (key fingerprint) none true) :
      Effect store (.forget fingerprint) next
  | swept (reading : Nat) : Effect store (.sweep reading) (store.observe reading)
  | pruned {reading : Nat} {next : TrustStore}
      (prunes : Prunes store next (store.clock.observe reading).floor) :
      Effect store (.forgetLongLapsed reading) next
  | relisted {verb : Verb} {next : TrustStore}
      (lists : (∃ fingerprint label since, verb = .listToPairAgain fingerprint label since) ∨
        ∃ authorized revoked now, verb = .migrateFromConfig authorized revoked now)
      (relists : Relists store next) : Effect store verb next

variable {store : TrustStore} {approval : Approval} {verb : Verb}

theorem Formed.approved_admissible (formed : Formed store)
    (found : canonicalFingerprint approval.fingerprint = some fp) (coherent : approval.Coherent) :
    Admissible (approval.approved store fp) ∧ (approval.approved store fp).peer = fp ∧
      (approval.approved store fp).issuedTo = store.ours := by
  have valid := canonical_valid found
  unfold Approval.approved
  cases held : store.inForce fp (store.now approval.reading) with
  | none =>
    exact ⟨⟨valid, store.valid, sanitizeLabel_idem _, trivial, coherent.agrees,
      coherent.grants⟩, rfl, rfl⟩
  | some old =>
    have kept := formed.lease fp old (inForce_some held).1
    refine ⟨⟨?_, ?_, kept.label, trivial, mergeLease_agrees _ _ _ coherent.agrees, ?_⟩,
      kept.peer, kept.issuedTo⟩
    · exact kept.peer ▸ kept.valid
    · exact kept.issuedTo ▸ store.valid
    · exact Caps.union_grants kept.grants _

theorem step_of_approval (store : TrustStore) (made : verb.approval = some approval) :
    store.step verb = store.unlessRefused (approval.issue store) := by
  cases verb <;> cases made
  · simp only [step, issue, issueWithOrigin, Approval.issue]
  · simp only [step, issueWithOrigin, Approval.issue]
  · simp only [step, issueAnswered, Approval.issue]

theorem Formed.approval_effect (formed : Formed store) (made : verb.approval = some approval) :
    Effect store verb (store.step verb) := by
  rw [step_of_approval store made]
  cases accepted : approval.issue store with
  | error e => exact .unchanged verb
  | ok next =>
    obtain ⟨fp, found, coherent, admitted⟩ := Approval.issue_ok.mp accepted
    obtain ⟨checked, passed, issuedTo, rfl⟩ := admitLease_ok.mp admitted
    obtain ⟨admissible, peer, _⟩ := formed.approved_admissible found coherent
    obtain rfl : approval.approved store fp = checked := by
      rw [Lease.canonicalized_self.mpr admissible] at passed
      exact Except.ok.inj passed
    refine .approved made found coherent accepted ?_
    have sets := sets_record store (approval.approved store fp)
    rwa [peer] at sets

variable (store)

theorem admitLease_effect (lease : Lease) :
    Effect store (.admitLease lease) (store.unlessRefused (store.admitLease lease)) := by
  cases accepted : store.admitLease lease with
  | error e => exact .unchanged _
  | ok next =>
    obtain ⟨checked, passed, issuedTo, rfl⟩ := admitLease_ok.mp accepted
    exact .admitted passed issuedTo accepted (sets_record store checked)

theorem renew_effect (reading : Nat) (fp : String) :
    Effect store (.renew reading fp)
      (store.unlessRefused (store.renew reading fp)) := by
  unfold renew
  cases found : store.leaseAt (key fp) with
  | none =>
    simp only [found]
    exact .unchanged _
  | some lease =>
    simp only [found]
    exact .renewed found (sets_setLease store _ _)

theorem dropCapabilities_sets (fp : String) (drop : Caps) :
    (store.leaseAt (key fp) = none ∧
        store.dropCapabilities fp drop = (none, store)) ∨
      ∃ lease left next, store.leaseAt (key fp) = some lease ∧
        left = lease.caps.without drop ∧
        store.dropCapabilities fp drop = (some left, next) ∧
        (left.isEmpty = true ∧ Sets store next (key fp) none false ∨
          left.isEmpty = false ∧
            Sets store next (key fp) (some { lease with caps := left }) false) := by
  unfold dropCapabilities
  cases found : store.leaseAt (key fp) with
  | none => exact .inl ⟨rfl, by simp [found]⟩
  | some lease =>
    simp only [found]
    cases empty : (lease.caps.without drop).isEmpty with
    | true =>
      exact .inr ⟨lease, _, _, rfl, rfl, by simp, .inl ⟨empty, sets_removeEntry _ _⟩⟩
    | false =>
      exact .inr ⟨lease, _, _, rfl, rfl, by simp, .inr ⟨empty, sets_setLease _ _ _⟩⟩

theorem dropCapabilities_effect (fp : String) (drop : Caps) :
    Effect store (.dropCapabilities fp drop)
      (store.dropCapabilities fp drop).2 := by
  rcases dropCapabilities_sets store fp drop with
    ⟨_, same⟩ | ⟨lease, left, next, found, rfl, dropped, ⟨_, sets⟩ | ⟨some_left, sets⟩⟩
  · rw [same]
    exact .unchanged _
  · rw [dropped]
    exact .ended (.inr (.inr ⟨drop, rfl⟩)) sets
  · rw [dropped]
    exact .narrowed found some_left sets

variable {store}

theorem Formed.disableClipboard_effect (formed : Formed store) (fp : String) :
    Effect store (.disableClipboard fp) (store.disableClipboard fp).2 := by
  unfold disableClipboard
  cases found : store.leaseAt (key fp) with
  | none => simpa [found] using Effect.unchanged _
  | some lease =>
    have same : key (key fp) = key fp :=
      key_of_valid (formed.lease _ _ found).valid
    simp only [found]
    split
    · exact .unchanged _
    · rcases dropCapabilities_sets store (key fp) .clipboard with
        ⟨absent, _⟩ | ⟨held, left, next, heldFound, rfl, dropped, ⟨_, sets⟩ | ⟨some_left, sets⟩⟩
      · rw [same, found] at absent
        cases absent
      · rw [same] at sets
        simp only [dropped, sets.leaseAt, if_true]
        exact .ended (.inr (.inl rfl)) sets
      · rw [same] at sets heldFound
        obtain rfl := Option.some.inj (found.symm.trans heldFound)
        simp only [dropped, sets.leaseAt, if_true]
        exact .clipboardOff found some_left (sets.trans (sets_setLease next _ _))

variable (store)

theorem confirm_effect (fp : String) :
    Effect store (.confirm fp) (store.unlessRefused (store.confirm fp)) := by
  cases accepted : store.confirm fp with
  | error e => exact .unchanged _
  | ok next =>
    cases found : store.leaseAt (key fp) with
    | none => simp [confirm, found] at accepted
    | some lease =>
      have made := accepted
      simp only [confirm, found, Except.ok.injEq] at made
      refine .confirmed found accepted ?_
      rw [← made]
      exact (sets_setLease store _ _).unlist

theorem forgetUnconfirmed_effect (fp : String) :
    Effect store (.forgetUnconfirmed fp) (store.forgetUnconfirmed fp).2 := by
  unfold forgetUnconfirmed
  cases found : store.leaseAt (key fp) with
  | none => simpa [found] using Effect.unchanged _
  | some lease =>
    simp only [found]
    split
    · exact .unchanged _
    · exact .ended (.inl rfl) (sets_removeEntry store _)

theorem enableClipboard_effect (reading : Nat) (fp : String) :
    Effect store (.enableClipboard reading fp)
      (store.enableClipboard reading fp).2 := by
  unfold enableClipboard
  cases found : store.entries[key fp]? with
  | none => simpa [found] using Effect.unchanged _
  | some entry =>
    simp only [found]
    split
    · exact .unchanged _
    · cases held : entry.lease with
      | none => exact .unchanged _
      | some lease =>
        simp only []
        split
        · exact .unchanged _
        · exact .clipboardOn ((leaseAt_of_entry found).trans held) (sets_setLease store _ _)

theorem setLabel_effect (fp label : String) : Effect store (.setLabel fp label)
      (store.unlessRefused (store.setLabel fp label)) := by
  unfold setLabel
  cases found : store.entries[key fp]? with
  | none =>
    simp only [found]
    exact .unchanged _
  | some entry =>
    simp only [found]
    cases held : entry.lease with
    | none => exact .unchanged _
    | some lease =>
      exact .labelled ((leaseAt_of_entry found).trans held) (sets_setLease store _ _)

theorem forget_effect (fp : String) :
    Effect store (.forget fp) (store.forget fp).2 := by
  refine .forgotten ⟨rfl, rfl, ?_, ?_⟩
  · exact (sets_removeEntry (store.unlist (key fp)) (key fp)).entries
  · intro other
    simp [forget]

variable {store}

theorem listToPairAgain_relists {fingerprint label : String} {since : Nat}
    (done : store.listToPairAgain fingerprint label since = .ok next) : Relists store next := by
  unfold listToPairAgain at done
  cases found : canonicalFingerprint fingerprint with
  | none => simp [found] at done
  | some fp =>
    simp only [found] at done
    split at done
    · obtain rfl := Except.ok.inj done
      exact .refl store
    · rename_i fresh
      obtain rfl := Except.ok.inj done
      refine ⟨rfl, rfl, rfl, ?_⟩
      intro other listing listed
      simp only [Std.ExtTreeMap.getElem?_insert, Std.LawfulEqCmp.compare_eq_iff_eq] at listed
      split at listed
      · rename_i same
        subst same
        obtain rfl := Option.some.inj listed
        refine .inr ⟨canonical_valid found, fun ours => fresh (.inl ours), ?_,
          sanitizeLabel_idem label⟩
        simpa [Std.ExtTreeMap.contains_iff_mem] using fun held => fresh (.inr held)
      · exact .inl listed

theorem listToPairAgain_effect (store : TrustStore) (fp label : String) (since : Nat) :
    Effect store (.listToPairAgain fp label since)
      (store.unlessRefused (store.listToPairAgain fp label since)) := by
  cases done : store.listToPairAgain fp label since with
  | error e => exact .unchanged _
  | ok next => exact .relisted (.inl ⟨_, _, _, rfl⟩) (listToPairAgain_relists done)

theorem migrateOne_relists (removed : List String) (now : Nat)
    (done : MigrationReport × TrustStore) (entry : String × String) :
    Relists done.2 (migrateOne removed now done entry).2 := by
  unfold migrateOne
  cases canonicalFingerprint entry.1 with
  | none => exact .refl _
  | some fp =>
    simp only []
    split
    · split <;> exact .refl _
    · cases listed : done.2.listToPairAgain fp entry.2 now with
      | error e => exact .refl _
      | ok next =>
        simp only []
        split <;> exact listToPairAgain_relists listed

theorem migrateFromConfig_relists (store : TrustStore) (authorized : List (String × String))
    (revoked : List String) (now : Nat) :
    Relists store (store.migrateFromConfig authorized revoked now).2 := by
  have folded : ∀ (entries : List (String × String)) (done : MigrationReport × TrustStore),
      Relists done.2 (entries.foldl (migrateOne (revoked.map key) now) done).2 := by
    intro entries
    induction entries with
    | nil => exact fun done => .refl done.2
    | cons entry rest ih => exact fun done => (migrateOne_relists _ now done entry).trans (ih _)
  exact folded authorized ({}, store)

theorem Formed.step_effect (formed : Formed store) (verb : Verb) :
    Effect store verb (store.step verb) := by
  cases verb with
  | issue reading fingerprint label caps | issueWithOrigin reading fingerprint label caps origin
  | issueAnswered reading fingerprint label controller clipboard => exact formed.approval_effect rfl
  | renew reading fingerprint => exact renew_effect store reading fingerprint
  | dropCapabilities fingerprint drop => exact dropCapabilities_effect store fingerprint drop
  | enableClipboard reading fingerprint => exact enableClipboard_effect store reading fingerprint
  | disableClipboard fingerprint => exact formed.disableClipboard_effect fingerprint
  | setLabel fingerprint label => exact setLabel_effect store fingerprint label
  | confirm fingerprint => exact confirm_effect store fingerprint
  | admitLease lease => exact admitLease_effect store lease
  | forget fingerprint => exact forget_effect store fingerprint
  | forgetUnconfirmed fingerprint => exact forgetUnconfirmed_effect store fingerprint
  | sweep reading => exact .swept reading
  | forgetLongLapsed reading => exact .pruned (forgetLongLapsed_prunes store reading)
  | listToPairAgain fingerprint label since =>
    exact listToPairAgain_effect store fingerprint label since
  | migrateFromConfig authorized revoked now =>
    exact .relisted (.inr ⟨_, _, _, rfl⟩) (migrateFromConfig_relists store _ _ now)

theorem Formed.effect (formed : Formed store) (effect : Effect store verb next) : Formed next := by
  cases effect with
  | unchanged => exact formed
  | approved made found coherent accepted sets =>
    obtain ⟨admissible, peer, issuedTo⟩ := formed.approved_admissible found coherent
    exact formed.sets_some sets ⟨canonical_valid found, peer, issuedTo,
      admissible.label, admissible.proper, admissible.grants⟩ .inl
  | admitted passed issuedTo accepted sets =>
    have admissible := Lease.canonicalized_admissible passed
    exact formed.sets_some sets ⟨admissible.peer, rfl, issuedTo, admissible.label,
      admissible.proper, admissible.grants⟩ .inl
  | renewed found sets =>
    have old := formed.lease _ _ found
    exact formed.sets_edit found sets { old with proper := trivial } rfl
  | narrowed found left sets | clipboardOff found left sets =>
    have old := formed.lease _ _ found
    exact formed.sets_edit found sets { old with grants := left } rfl
  | clipboardOn found sets =>
    have old := formed.lease _ _ found
    exact formed.sets_edit found sets { old with grants := Caps.union_grants old.grants _ } rfl
  | labelled found sets =>
    have old := formed.lease _ _ found
    exact formed.sets_edit found sets { old with label := sanitizeLabel_idem _ } rfl
  | confirmed found accepted sets =>
    have old := formed.lease _ _ found
    exact formed.sets_some sets { old with } fun _ => .inl rfl
  | ended names sets | forgotten sets => exact formed.sets sets (by simp) (by simp)
  | swept reading => exact ⟨formed.held, formed.lease, formed.listed, formed.apart⟩
  | pruned prunes => exact formed.prunes prunes
  | relisted lists relists => exact formed.relists relists

theorem Formed.step (formed : Formed store) (verb : Verb) : Formed (store.step verb) :=
  formed.effect (formed.step_effect verb)

theorem formed_new {ours : String} {floor : Nat} (made : new ours floor = .ok store) :
    Formed store := by
  obtain ⟨_, _, noEntries, noListings⟩ := new_ok made
  constructor
  · simp [noEntries]
  · simp [leaseAt, noEntries]
  · simp [noListings]
  · simp [leaseAt, noEntries]

theorem run_append (store : TrustStore) (first rest : List Verb) :
    store.run (first ++ rest) = (store.run first).run rest :=
  List.foldl_append

theorem Formed.run (formed : Formed store) (verbs : List Verb) : Formed (store.run verbs) := by
  induction verbs generalizing store with
  | nil => exact formed
  | cons verb rest ih => exact ih (formed.step verb)

end Effects

end TrustStore

end HopsFormal.Trust
