import HopsFormal.Trust.Leaves

/-!
# Whether a pairing waits for its number

All a pairing in progress asks of the store: is there a lease for a machine,
and is it confirmed.  One lemma for each verb the daemon calls says how the
answer changes.
-/

namespace HopsFormal.Trust.TrustStore

/-- No lease for `fp`, one that waits for its number, or a confirmed one. -/
@[grind =]
def waiting (store : TrustStore) (fp : String) : Option Bool :=
  (store.leaseAt fp).map Lease.confirmed

/-- A pairing that waited is over; a confirmed one is kept. -/
def unlessWaiting : Option Bool → Option Bool
  | some false => none
  | other => other

theorem unlessWaiting_ne (lease : Option Bool) : unlessWaiting lease ≠ some false := by
  cases lease with
  | none => simp [unlessWaiting]
  | some confirmed => cases confirmed <;> simp [unlessWaiting]

theorem unlessWaiting_true {lease : Option Bool} :
    unlessWaiting lease = some true ↔ lease = some true := by
  cases lease with
  | none => simp [unlessWaiting]
  | some confirmed => cases confirmed <;> simp [unlessWaiting]

variable {store : TrustStore} {fp : String}

theorem waiting_some {confirmed : Bool} : store.waiting fp = some confirmed ↔
      ∃ lease, store.leaseAt fp = some lease ∧ lease.confirmed = confirmed := by
  simp [waiting]

theorem waiting_none : store.waiting fp = none ↔ store.leaseAt fp = none := by
  simp [waiting]

/-- A lease that waits keeps a direction to drive when its clipboard goes. -/
def Driven (store : TrustStore) : Prop :=
  ∀ fp lease, store.leaseAt fp = some lease → lease.confirmed = false →
    (lease.caps.without .clipboard).isEmpty = false

theorem answered_drives (controller : Controller) (clipboard : Bool) :
    (((driveOf controller).union
      (if clipboard then existingPairingClipboard (driveOf controller) else .none)).without
        .clipboard).isEmpty = false := by
  revert controller clipboard
  decide

theorem Sets.waiting_same {next : TrustStore} {lease edited : Lease} {unlisted : Bool}
    (sets : Sets store next fp (some edited) unlisted) (found : store.leaseAt fp = some lease)
    (keeps : edited.confirmed = lease.confirmed) (other : String) :
    next.waiting other = store.waiting other := by
  simp only [waiting, sets.leaseAt]
  split
  · rename_i named
    rw [← named, found]
    simp [keeps]
  · rfl

section Waiting

variable [Lowercase] {store : TrustStore} {fp : String}

theorem waiting_of_isPairing {reading : Nat} (valid : validFingerprint fp = true)
    (pairing : store.isPairing reading fp = true) : store.waiting fp = some false := by
  simp only [isPairing, key_of_valid valid] at pairing
  cases found : store.entries[fp]? with
  | none => simp [found] at pairing
  | some entry =>
    have leaseAt := leaseAt_of_entry found
    simp only [found, awaitingConfirmation] at pairing
    cases held : entry.lease with
    | none => simp [held, Caps.isEmpty, Caps.none] at pairing
    | some lease =>
      refine waiting_some.mpr ⟨lease, leaseAt.trans held, ?_⟩
      cases confirmed : lease.confirmed with
      | false => rfl
      | true => simp [held, confirmed, Caps.isEmpty, Caps.none] at pairing

theorem waiting_forgetUnconfirmed (store : TrustStore) (valid : validFingerprint fp = true)
    (other : String) : (store.forgetUnconfirmed fp).2.waiting other =
      if fp = other then unlessWaiting (store.waiting other) else store.waiting other := by
  simp only [forgetUnconfirmed, key_of_valid valid]
  cases found : store.leaseAt fp with
  | none =>
    by_cases same : fp = other
    · subst same
      simp [waiting, found, unlessWaiting]
    · simp [same]
  | some lease =>
    cases confirmed : lease.confirmed with
    | true =>
      by_cases same : fp = other
      · subst same
        simp [waiting, found, unlessWaiting, confirmed]
      · simp only [confirmed, if_true, if_neg same]
    | false =>
      by_cases same : fp = other
      · subst same
        simp [waiting, found, unlessWaiting, confirmed]
      · simp only [confirmed, Bool.false_eq_true, if_false, if_neg same, waiting,
          leaseAt_removeEntry]

theorem waiting_forget (store : TrustStore) (valid : validFingerprint fp = true) (other : String) :
    (store.forget fp).2.waiting other = if fp = other then none else store.waiting other := by
  simp only [forget, key_of_valid valid, waiting, leaseAt_removeEntry, leaseAt_unlist]
  split <;> rfl

theorem waiting_confirm {next : TrustStore} (valid : validFingerprint fp = true)
    (accepted : store.confirm fp = .ok next) : (∃ confirmed, store.waiting fp = some confirmed) ∧
      ∀ other, next.waiting other = if fp = other then some true else store.waiting other := by
  simp only [confirm, key_of_valid valid] at accepted
  cases found : store.leaseAt fp with
  | none => simp [found] at accepted
  | some lease =>
    simp only [found] at accepted
    obtain rfl := Except.ok.inj accepted
    refine ⟨⟨lease.confirmed, waiting_some.mpr ⟨lease, found, rfl⟩⟩, fun other => ?_⟩
    simp only [waiting, leaseAt_unlist, leaseAt_setLease]
    split <;> rfl

theorem Formed.waiting_issueAnswered {next : TrustStore} (formed : Formed store) {reading : Nat}
    {label : String} {controller : Controller} {clipboard : Bool}
    (valid : validFingerprint fp = true)
    (accepted : store.issueAnswered reading fp label controller clipboard = .ok next) :
    (next.waiting fp = some false ∨ next.waiting fp = some true ∧ store.waiting fp = some true) ∧
      ∀ other, fp ≠ other → next.waiting other = store.waiting other := by
  let approval : Approval := ⟨reading, fp, label,
    (driveOf controller).union
      (if clipboard then existingPairingClipboard (driveOf controller) else .none),
    .chosen controller, true⟩
  have issued : approval.issue store = .ok next := by
    simpa only [issueAnswered, Approval.issue] using accepted
  obtain ⟨fp', spelled, coherent, admitted⟩ := Approval.issue_ok.mp issued
  obtain rfl : fp = fp' := Option.some.inj ((canonicalized_of_valid valid).symm.trans spelled)
  obtain ⟨admissible, peer, _⟩ := formed.approved_admissible spelled coherent
  obtain ⟨checked, passed, _, rfl⟩ := admitLease_ok.mp admitted
  rw [Lease.canonicalized_self.mpr admissible] at passed
  obtain rfl := Except.ok.inj passed
  have leaseAt := (sets_record store (approval.approved store fp)).leaseAt
  rw [peer] at leaseAt
  refine ⟨?_, fun other different => by simp [waiting, leaseAt, different]⟩
  have left : (store.record (approval.approved store fp)).waiting fp =
      some (approval.approved store fp).confirmed := by
    simp [waiting, leaseAt]
  rw [left]
  cases held : store.inForce fp (store.now approval.reading) with
  | none =>
    refine .inl ?_
    simp only [Approval.approved, held, Approval.requested]
  | some old =>
    obtain ⟨found, confirmed, _⟩ := inForce_some held
    refine .inr ⟨?_, waiting_some.mpr ⟨old, found, confirmed⟩⟩
    simp only [Approval.approved, held, mergeLease, confirmed]

theorem Formed.waiting_disableClipboard (formed : Formed store) (driven : Driven store)
    (fingerprint fp : String) :
    (store.disableClipboard fingerprint).2.waiting fp = store.waiting fp ∨
      store.waiting fp = some true ∧ (store.disableClipboard fingerprint).2.waiting fp = none := by
  unfold disableClipboard
  cases found : store.leaseAt (key fingerprint) with
  | none => simp [found]
  | some lease =>
    have same : key (key fingerprint) = key fingerprint :=
      key_of_valid (formed.lease _ _ found).valid
    simp only [found]
    split
    · exact .inl rfl
    · rcases dropCapabilities_sets store (key fingerprint) .clipboard with
        ⟨absent, _⟩ | ⟨held, left, next, heldFound, rfl, dropped, ⟨empty, sets⟩ | ⟨_, sets⟩⟩
      · rw [same, found] at absent
        cases absent
      · rw [same] at sets heldFound
        obtain rfl := Option.some.inj (found.symm.trans heldFound)
        simp only [dropped, sets.leaseAt, if_true]
        have confirmed : lease.confirmed = true := by
          cases flag : lease.confirmed with
          | true => rfl
          | false =>
            rw [driven _ _ found flag] at empty
            cases empty
        by_cases named : key fingerprint = fp
        · subst named
          refine .inr ⟨waiting_some.mpr ⟨lease, found, confirmed⟩, ?_⟩
          simp [waiting, sets.leaseAt]
        · refine .inl ?_
          simp [waiting, sets.leaseAt, named]
      · rw [same] at sets heldFound
        obtain rfl := Option.some.inj (found.symm.trans heldFound)
        simp only [dropped, sets.leaseAt, if_true]
        refine .inl ?_
        have twice := sets.trans (sets_setLease next (key fingerprint)
          { lease with caps := lease.caps.without .clipboard, clipboardChosen := true })
        exact twice.waiting_same found rfl fp

/-- The verbs that change a name or a clipboard, or look at the clock. -/
def Adjusts : Verb → Prop
  | .setLabel .. | .enableClipboard .. | .disableClipboard .. | .sweep .. => True
  | _ => False

theorem Formed.waiting_adjust (formed : Formed store) (driven : Driven store) {verb : Verb}
    (adjusts : Adjusts verb) (fp : String) : (store.step verb).waiting fp = store.waiting fp ∨
      store.waiting fp = some true ∧ (store.step verb).waiting fp = none := by
  cases verb with
  | disableClipboard fingerprint => exact formed.waiting_disableClipboard driven fingerprint fp
  | sweep reading => exact .inl rfl
  | setLabel fingerprint label =>
    have effect := formed.step_effect (.setLabel fingerprint label)
    generalize store.step (.setLabel fingerprint label) = next at effect ⊢
    cases effect with
    | unchanged => exact .inl rfl
    | labelled found sets =>
      have keeps := sets.waiting_same found rfl fp
      exact .inl keeps
    | approved made => cases made
    | ended named => obtain ⟨⟨⟩⟩ | ⟨⟨⟩⟩ | ⟨_, ⟨⟩⟩ := named
    | relisted lists => obtain ⟨_, _, _, ⟨⟩⟩ | ⟨_, _, _, ⟨⟩⟩ := lists
  | enableClipboard reading fingerprint =>
    have effect := formed.step_effect (.enableClipboard reading fingerprint)
    generalize store.step (.enableClipboard reading fingerprint) = next at effect ⊢
    cases effect with
    | unchanged => exact .inl rfl
    | clipboardOn found sets =>
      have keeps := sets.waiting_same found rfl fp
      exact .inl keeps
    | approved made => cases made
    | ended named => obtain ⟨⟨⟩⟩ | ⟨⟨⟩⟩ | ⟨_, ⟨⟩⟩ := named
    | relisted lists => obtain ⟨_, _, _, ⟨⟩⟩ | ⟨_, _, _, ⟨⟩⟩ := lists
  | _ => exact adjusts.elim

theorem Driven.step (driven : Driven store) (formed : Formed store) {verb : Verb}
    (production : Production verb) : Driven (store.step verb) := by
  intro fp lease found unconfirmed
  rcases (formed.step_effect verb).leaves found with old | left
  · exact driven fp lease old unconfirmed
  · cases left with
    | approved made spelled coherent accepted =>
      rename_i approval next
      have drives : (approval.caps.without .clipboard).isEmpty = false := by
        cases verb with
        | issueAnswered reading fingerprint label controller clipboard =>
          cases made
          exact answered_drives controller clipboard
        | issue | issueWithOrigin => exact production.elim
        | _ => cases made
      unfold Approval.approved at unconfirmed ⊢
      cases held : store.inForce fp (store.now approval.reading) with
      | none =>
        rw [held] at unconfirmed
        exact drives
      | some old =>
        rw [held] at unconfirmed
        have confirmed : old.confirmed = true := (inForce_some held).2.1
        simp [mergeLease, confirmed] at unconfirmed
    | admitted | renewed | narrowed => exact production.elim
    | clipboardOn old =>
      rename_i held
      have before := driven _ _ old unconfirmed
      have kept : ∀ caps : Caps, (caps.without .clipboard).isEmpty = false →
          ((caps.union (existingPairingClipboard caps)).without .clipboard).isEmpty = false := by
        decide
      exact kept held.caps before
    | clipboardOff old =>
      rename_i held
      have before := driven _ _ old unconfirmed
      have kept : ∀ caps : Caps, (caps.without .clipboard).isEmpty = false →
          ((caps.without .clipboard).without .clipboard).isEmpty = false := by
        decide
      exact kept held.caps before
    | labelled old =>
      have before := driven _ _ old unconfirmed
      exact before
    | confirmed old accepted => cases unconfirmed

end Waiting

end HopsFormal.Trust.TrustStore
