import HopsFormal.Trust.Persistence

/-!
# What an approval does to the lease that is held

An approval meets the lease already held under the same identity: it is added to
one in force, and takes the place of one that has lapsed or was never confirmed.
Here the door and the grant change the store in place, as the source does, so
that a refusal that came after a change would be seen.
-/

namespace HopsFormal.Trust

namespace TrustStore

/-! ## Verbs that change the store in place -/

/-- A verb on a store in place: what it changed stays changed when it answers with an error. -/
abbrev InPlace := ExceptT TrustError (StateM TrustStore)

namespace InPlace

variable {α β : Type}

/-- The answer of a verb and the store it leaves. -/
def on (verb : InPlace α) (store : TrustStore) : Except TrustError α × TrustStore :=
  verb.run.run store

def change (edit : TrustStore → TrustStore) : InPlace Unit :=
  ExceptT.lift (modify edit)

def ask (question : TrustStore → α) : InPlace α :=
  ExceptT.lift (question <$> get)

/-- What was computed without the store. -/
def answered (answer : Except TrustError α) : InPlace α :=
  ExceptT.mk (pure answer)

/-- The second verb finds the store as the first left it; an error ends both. -/
theorem on_bind (verb : InPlace α) (rest : α → InPlace β) (store : TrustStore) :
    (verb >>= rest).on store =
      match verb.on store with
      | (.ok answer, next) => (rest answer).on next
      | (.error e, next) => (.error e, next) := by
  unfold on ExceptT.run StateT.run
  simp only [bind, ExceptT.bind, ExceptT.mk, StateT.bind, ExceptT.bindCont]
  cases verb store with
  | mk answer next => cases answer <;> rfl

@[simp]
theorem on_ask (question : TrustStore → α) (store : TrustStore) :
    (ask question).on store = (.ok (question store), store) := rfl

@[simp]
theorem on_answered (answer : Except TrustError α) (store : TrustStore) :
    (answered answer).on store = (answer, store) := rfl

end InPlace

open Option InPlace

section Approving

variable [Lowercase]

/-- The one door into the store, changing it in place. -/
def admitInPlace (lease : Lease) : InPlace Unit := do
  let lease ← answered lease.canonicalized
  let ours ← ask TrustStore.ours
  if lease.issuedTo ≠ ours then throw (.wrongMachine ours lease.issuedTo)
  else
    if lease.confirmed then change fun store => store.unlist lease.peer
    change fun store => store.setLease lease.peer lease

variable (reading : Nat)

/-- The grant, changing the store in place. -/
def issueInPlace (fingerprint label : String) (caps : Caps) (term : Term) (origin : Origin)
    (clipboardChosen : Bool) : InPlace Unit := do
  let now ← ask fun store => store.now reading
  let ours ← ask TrustStore.ours
  let lease ← answered (Lease.canonicalized
    { peer := fingerprint
      issuedTo := ours
      label
      caps
      origin
      issuedAt := now
      expiry := term.expiryFrom now
      clipboardChosen
      confirmed := false })
  match incoherent caps origin with
  | some granted => throw (.directionMismatch origin granted)
  | none => do
      let held ← ask fun store => store.inForce lease.peer now
      match held with
      | some held => admitInPlace (mergeLease held lease clipboardChosen)
      | none => admitInPlace lease

/-- A verb that answers with an error has not touched the store. -/
def untouched (store : TrustStore) (answer : Except TrustError TrustStore) :
    Except TrustError Unit × TrustStore :=
  (answer.map fun _ => (), store.unlessRefused answer)

theorem admitInPlace_on (lease : Lease) (store : TrustStore) :
    (admitInPlace lease).on store = store.untouched (store.admitLease lease) := by
  unfold admitInPlace admitLease
  simp only [on_bind, on_answered, on_ask]
  cases passed : lease.canonicalized with
  | error e => rfl
  | ok checked =>
    dsimp only [bind, Except.bind]
    split
    · rfl
    · cases checked.confirmed <;> rfl

theorem issueInPlace_on (store : TrustStore) (reading : Nat) (fp label : String)
    (caps : Caps) (term : Term) (origin : Origin) (clipboardChosen : Bool) :
    (issueInPlace reading fp label caps term origin clipboardChosen).on store =
      store.untouched
        (store.issueLease reading fp label caps term origin clipboardChosen) := by
  unfold issueInPlace issueLease
  simp only [on_bind, on_answered, on_ask]
  generalize Lease.canonicalized _ = answer
  cases answer with
  | error e => rfl
  | ok lease =>
    cases incoherent caps origin with
    | some granted => rfl
    | none =>
      simp only [on_bind, on_ask]
      change _ = store.untouched (match store.inForce lease.peer (store.now reading) with
        | some held => store.admitLease (mergeLease held lease clipboardChosen)
        | none => store.admitLease lease)
      cases store.inForce lease.peer (store.now reading) with
      | some held | none => exact admitInPlace_on _ store

/-- The grant of an approval that asked nothing, in place. -/
def issueWithOriginInPlace (fingerprint label : String) (caps : Caps) (origin : Origin) :
    InPlace Unit :=
  issueInPlace reading fingerprint label caps defaultTerm origin false

def issueAnsweredInPlace (fingerprint label : String) (controller : Controller) (clipboard : Bool) :
    InPlace Unit :=
  let drive := driveOf controller
  let shared := if clipboard then existingPairingClipboard drive else .none
  issueInPlace reading fingerprint label (drive.union shared) defaultTerm (.chosen controller) true

/-! ## What an approval is to leave -/

/-- The clipboard a card's answers give: in the chosen directions, after a yes. -/
def answeredClipboard (controller : Controller) (clipboard : Bool) : Caps :=
  if clipboard then existingPairingClipboard (driveOf controller) else .none

/-- Card answers added to a lease in force. -/
structure AddedTo (held lease : Lease) (controller : Controller) (clipboard : Bool) : Prop where
  drive : lease.caps.intersection .drive =
    (held.caps.intersection .drive).union (driveOf controller)
  clipboard : lease.caps.intersection .clipboard =
    (held.caps.intersection .clipboard).union (answeredClipboard controller clipboard)
  label : lease.label = held.label
  confirmed : lease.confirmed = held.confirmed

/-- Card answers that take the place of whatever was held. -/
structure InPlaceOf (lease : Lease) (controller : Controller) (clipboard : Bool) : Prop where
  drive : lease.caps.intersection .drive = driveOf controller
  clipboard : lease.caps.intersection .clipboard = answeredClipboard controller clipboard
  unconfirmed : lease.confirmed = false

/-- What an accepted card answer leaves under the machine it is about. -/
structure AnsweredLaw (store after : TrustStore) (now : Nat) (fp : String)
    (controller : Controller) (clipboard : Bool) (lease : Lease) : Prop where
  left : after.leaseAt fp = some lease
  others : ∀ other, fp ≠ other → after.leaseAt other = store.leaseAt other
  origin : ∃ chosen, lease.origin = .chosen chosen ∧ lease.caps.intersection .drive = driveOf chosen
  added : ∀ held, store.leaseAt fp = some held → held.confirmed = true →
    held.isValidAt now = true → AddedTo held lease controller clipboard
  replaced : ∀ held, store.leaseAt fp = some held →
    held.confirmed = false ∨ held.lapsedBy now = true → InPlaceOf lease controller clipboard
  first : store.leaseAt fp = none → InPlaceOf lease controller clipboard

/-- An approval that asked nothing leaves the clipboard a person chose as it is. -/
structure UnaskedLaw (store after : TrustStore) (now : Nat) (fp : String) (lease : Lease) :
    Prop where
  left : after.leaseAt fp = some lease
  clipboard : ∀ held, store.leaseAt fp = some held → held.confirmed = true →
    held.isValidAt now = true → held.clipboardChosen = true →
    lease.caps.intersection .clipboard = held.caps.intersection .clipboard

/-! ## What an accepted approval leaves -/

variable {store next : TrustStore} {fp fingerprint : String}

omit [Lowercase] in
theorem Formed.inForce_of (formed : Formed store) {held : Lease} {now : Nat}
    (found : store.leaseAt fp = some held) (confirmed : held.confirmed = true)
    (valid : held.isValidAt now = true) : store.inForce fp now = some held := by
  have facts := formed.lease fp held found
  rw [inForce_eq, found, filter_some, if_pos]
  simp [granted, effectiveCapabilities, confirmed, facts.issuedTo, valid, facts.grants]

omit [Lowercase] in
theorem not_inForce {held : Lease} {now : Nat} (found : store.leaseAt fp = some held)
    (ended : held.confirmed = false ∨ held.lapsedBy now = true) : store.inForce fp now = none := by
  rw [inForce_eq, found, filter_some, if_neg]
  rcases ended with unconfirmed | lapsed
  · simp [granted, effectiveCapabilities, unconfirmed, Caps.isEmpty, Caps.none]
  · have outside : held.isValidAt now = false := by
      unfold Lease.isValidAt
      unfold Lease.lapsedBy at lapsed
      cases expiry : held.expiry with
      | never => simp [expiry] at lapsed
      | at_ notAfter =>
        simp only [expiry, decide_eq_true_eq] at lapsed
        simp only [Bool.and_eq_false_iff, decide_eq_false_iff_not]
        omega
    simp [granted, effectiveCapabilities, outside, Caps.isEmpty, Caps.none]

theorem Formed.issue_leaves (formed : Formed store) {approval : Approval}
    (accepted : approval.issue store = .ok next) :
    ∃ fp, canonicalFingerprint approval.fingerprint = some fp ∧ approval.Coherent ∧
      ∀ other, next.leaseAt other =
        if fp = other then some (approval.approved store fp) else store.leaseAt other := by
  obtain ⟨fp, found, coherent, admitted⟩ := Approval.issue_ok.mp accepted
  obtain ⟨checked, passed, issuedTo, rfl⟩ := admitLease_ok.mp admitted
  obtain ⟨admissible, peer, -⟩ := formed.approved_admissible found coherent
  rw [Lease.canonicalized_self.mpr admissible] at passed
  obtain rfl := Except.ok.inj passed
  refine ⟨fp, found, coherent, fun other => ?_⟩
  rw [leaseAt_record, peer]

theorem Formed.issue_taken (formed : Formed store) {approval : Approval}
    (found : canonicalFingerprint approval.fingerprint = some fp) (coherent : approval.Coherent) :
    approval.issue store = .ok (store.record (approval.approved store fp)) := by
  obtain ⟨admissible, -, issuedTo⟩ := formed.approved_admissible found coherent
  exact Approval.issue_ok.mpr ⟨fp, found, coherent,
    admitLease_ok.mpr ⟨_, Lease.canonicalized_self.mpr admissible, issuedTo, rfl⟩⟩

section

omit [Lowercase]

theorem answered_bits (held : Caps) (controller : Controller) (clipboard : Bool) :
    let given := (driveOf controller).union (answeredClipboard controller clipboard)
    (held.union given).intersection .drive = (held.intersection .drive).union (driveOf controller) ∧
      (held.union given).intersection .clipboard =
        (held.intersection .clipboard).union (answeredClipboard controller clipboard) ∧
      given.intersection .drive = driveOf controller ∧
      given.intersection .clipboard = answeredClipboard controller clipboard ∧
      (controllerOf (held.union given)).isSome = true := by
  revert held controller clipboard
  decide

theorem mergeLease_chosen (held : Lease) {lease : Lease} {controller : Controller}
    (origin : lease.origin = .chosen controller)
    (named : (controllerOf (held.caps.union lease.caps)).isSome = true) :
    ∃ chosen, (mergeLease held lease true).origin = .chosen chosen := by
  obtain ⟨chosen, found⟩ := isSome_iff_exists.mp named
  unfold mergeLease
  simp only [Bool.not_true, Bool.and_false, Bool.false_eq_true, if_false]
  cases decide (held.caps.union lease.caps = lease.caps) with
  | true => exact ⟨controller, origin⟩
  | false =>
    rw [origin, found]
    exact ⟨chosen, rfl⟩

/-- What a refused verb in place has done. -/
theorem untouched_error {answer : Except TrustError TrustStore} {e : TrustError}
    (refused : (store.untouched answer).1 = .error e) : (store.untouched answer).2 = store := by
  cases answer with
  | ok next => cases refused
  | error _ => rfl

theorem untouched_ok {answer : Except TrustError TrustStore}
    (accepted : (store.untouched answer).1 = .ok ()) : answer = .ok (store.untouched answer).2 := by
  cases answer with
  | ok next => rfl
  | error _ => cases accepted

end

/-- The approval a card's answers make. -/
def answers (fingerprint label : String) (controller : Controller) (clipboard : Bool) : Approval :=
  ⟨reading, fingerprint, label, (driveOf controller).union (answeredClipboard controller clipboard),
    .chosen controller, true⟩

/-- The approval that asks nothing about the clipboard. -/
def unasked (fingerprint label : String) (caps : Caps) (origin : Origin) : Approval :=
  ⟨reading, fingerprint, label, caps, origin, false⟩

theorem issueAnsweredInPlace_on (store : TrustStore) (reading : Nat) (fp label : String)
    (controller : Controller) (clipboard : Bool) :
    (issueAnsweredInPlace reading fp label controller clipboard).on store =
      store.untouched ((answers reading fp label controller clipboard).issue store) := by
  exact issueInPlace_on store reading fp label
    ((driveOf controller).union (answeredClipboard controller clipboard)) defaultTerm
    (.chosen controller) true

theorem issueWithOriginInPlace_on (store : TrustStore) (reading : Nat)
    (fp label : String) (caps : Caps) (origin : Origin) :
    (issueWithOriginInPlace reading fp label caps origin).on store =
      store.untouched ((unasked reading fp label caps origin).issue store) := by
  exact issueInPlace_on store reading fp label caps defaultTerm origin false

theorem Formed.answered_leaves (formed : Formed store) {reading : Nat} {label : String}
    {controller : Controller} {clipboard : Bool}
    (accepted : (answers reading fingerprint label controller clipboard).issue store = .ok next) :
    ∃ fp lease, canonicalFingerprint fingerprint = some fp ∧
      AnsweredLaw store next (store.now reading) fp controller clipboard lease := by
  obtain ⟨fp, found, coherent, leaves⟩ := formed.issue_leaves accepted
  have replaced : store.inForce fp (store.now reading) = none →
      InPlaceOf ((answers reading fingerprint label controller clipboard).approved store fp)
        controller clipboard := by
    intro absent
    unfold Approval.approved
    rw [answers, absent]
    have bits := answered_bits .none controller clipboard
    exact ⟨bits.2.2.1, bits.2.2.2.1, rfl⟩
  have added : ∀ held, store.inForce fp (store.now reading) = some held →
      AddedTo held ((answers reading fingerprint label controller clipboard).approved store fp)
        controller clipboard := by
    intro held inForce
    unfold Approval.approved
    rw [answers, inForce]
    have bits := answered_bits held.caps controller clipboard
    have caps : ∀ lease : Lease, (mergeLease held lease true).caps = held.caps.union lease.caps :=
      fun lease => by
        unfold mergeLease
        cases held.clipboardChosen <;> rfl
    refine ⟨?_, ?_, rfl, rfl⟩
    · rw [caps]
      exact bits.1
    · rw [caps]
      exact bits.2.1
  refine ⟨fp, _, found, ⟨by rw [leaves, if_pos rfl], fun other apart => by
    rw [leaves, if_neg apart], ?_, fun held stored confirmed valid =>
      added held (formed.inForce_of stored confirmed valid),
    fun held stored ended => replaced (not_inForce stored ended), fun absent =>
      replaced (by rw [inForce_eq, absent, filter_none])⟩⟩
  cases inForce : store.inForce fp (store.now reading) with
  | none =>
    unfold Approval.approved
    rw [answers, inForce]
    exact ⟨controller, rfl, (answered_bits .none controller clipboard).2.2.1⟩
  | some held =>
    have agrees := mergeLease_agrees held
      ((answers reading fingerprint label controller clipboard).requested store fp) true
      coherent.agrees
    have named := (answered_bits held.caps controller clipboard).2.2.2.2
    have byPerson :
        ((answers reading fingerprint label controller clipboard).requested store fp).origin =
          .chosen controller := rfl
    obtain ⟨chosen, origin⟩ := mergeLease_chosen held byPerson named
    rw [origin] at agrees
    have whole : (answers reading fingerprint label controller clipboard).approved store fp =
        mergeLease held
          ((answers reading fingerprint label controller clipboard).requested store fp) true := by
      unfold Approval.approved
      rw [answers, inForce]
    rw [whole]
    exact ⟨chosen, origin, agrees⟩

theorem Formed.unasked_leaves (formed : Formed store) {reading : Nat} {label : String} {caps : Caps}
    {origin : Origin}
    (accepted : (unasked reading fingerprint label caps origin).issue store = .ok next) :
    ∃ fp lease, canonicalFingerprint fingerprint = some fp ∧
      UnaskedLaw store next (store.now reading) fp lease := by
  obtain ⟨fp, found, coherent, leaves⟩ := formed.issue_leaves accepted
  refine ⟨fp, _, found, ⟨by rw [leaves, if_pos rfl], ?_⟩⟩
  intro held stored confirmed valid chosen
  have bits : ∀ one other : Caps, (one.union (other.without .clipboard)).intersection .clipboard =
      one.intersection .clipboard := by decide
  have inForce := formed.inForce_of stored confirmed valid
  unfold Approval.approved
  rw [unasked, inForce]
  dsimp only
  unfold mergeLease
  rw [chosen, Bool.not_false, Bool.and_true, if_pos rfl]
  exact bits held.caps _

theorem Formed.switched_off (formed : Formed store) {lease : Lease}
    (left : (store.disableClipboard fingerprint).2.leaseAt (key fingerprint) = some lease) :
    lease.clipboardChosen = true ∧ lease.caps.intersection .clipboard = .none := by
  have apart : ∀ caps : Caps, caps.intersects .clipboard = false →
      caps.intersection .clipboard = .none := by decide
  have off : ∀ caps : Caps, (caps.without .clipboard).intersection .clipboard = .none := by decide
  revert left
  unfold disableClipboard
  cases found : store.leaseAt (key fingerprint) with
  | none => simp [found]
  | some held =>
    have same : key (key fingerprint) = key fingerprint :=
      key_of_valid (formed.lease _ _ found).valid
    simp only [found]
    split
    · rename_i chosen
      intro left
      obtain rfl := Option.some.inj (found.symm.trans left)
      rw [Bool.and_eq_true, Bool.not_eq_true'] at chosen
      exact ⟨chosen.1, apart held.caps chosen.2⟩
    · rcases dropCapabilities_sets store (key fingerprint) .clipboard with
        ⟨absent, _⟩ | ⟨one, left, next, oneFound, rfl, dropped, ⟨_, sets⟩ | ⟨_, sets⟩⟩
      · rw [same, found] at absent
        cases absent
      · rw [same] at sets
        simp [dropped, sets.leaseAt]
      · rw [same] at sets oneFound
        obtain rfl := Option.some.inj (found.symm.trans oneFound)
        simp only [dropped, sets.leaseAt, if_true, leaseAt_setLease, Option.some.injEq]
        rintro rfl
        exact ⟨rfl, off held.caps⟩

/--
An approval in place: a refusal leaves the store as it was; card answers are
added to a pairing in force, and take the place of one that lapsed or was never
confirmed; an approval that asked nothing leaves a clipboard as it was chosen.
-/
theorem approval_merges {store : TrustStore} (formed : Formed store) (reading : Nat)
    (fingerprint label : String) :
    (∀ controller clipboard,
      let done := (issueAnsweredInPlace reading fingerprint label controller clipboard).on store
      (∀ e, done.1 = .error e → done.2 = store) ∧
        (done.1 = .ok () → ∃ fp lease, canonicalFingerprint fingerprint = some fp ∧
          AnsweredLaw store done.2 (store.now reading) fp controller clipboard lease)) ∧
    (∀ caps origin,
      let done := (issueWithOriginInPlace reading fingerprint label caps origin).on store
      (∀ e, done.1 = .error e → done.2 = store) ∧
        (done.1 = .ok () → ∃ fp lease, canonicalFingerprint fingerprint = some fp ∧
          UnaskedLaw store done.2 (store.now reading) fp lease)) ∧
    ∀ lease, (store.disableClipboard fingerprint).2.leaseAt (key fingerprint) = some lease →
      lease.clipboardChosen = true ∧ lease.caps.intersection .clipboard = .none := by
  refine ⟨fun controller clipboard => ?_, fun caps origin => ?_,
    fun lease left => formed.switched_off left⟩
  · have whole := issueAnsweredInPlace_on store reading fingerprint label controller clipboard
    rw [whole]
    exact ⟨fun e refused => untouched_error refused,
      fun accepted => formed.answered_leaves (untouched_ok accepted)⟩
  · have whole := issueWithOriginInPlace_on store reading fingerprint label caps origin
    rw [whole]
    exact ⟨fun e refused => untouched_error refused,
      fun accepted => formed.unasked_leaves (untouched_ok accepted)⟩

end Approving

/-- A confirmed pairing with a machine this one may drive. -/
def drivenDesk : Lease :=
  ⟨machineB, machineA, "desk", .iMayDrive, .chosen .thisMachine, 0, .never, true, true⟩

/-- Card answers about a machine with a confirmed pairing in force are added to it. -/
theorem approval_merges_held : letI := asciiLowercase
    let store := freshStore.step (.admitLease drivenDesk)
    let done := (issueAnsweredInPlace 5 machineB "laptop" .thatMachine true).on store
    Formed store ∧ store.leaseAt machineB = some drivenDesk ∧ done.1 = .ok () ∧
      ∃ lease, AnsweredLaw store done.2 (store.now 5) machineB .thatMachine true lease ∧
        AddedTo drivenDesk lease .thatMachine true := by
  let _ := asciiLowercase
  have admits : freshStore.admitLease drivenDesk = .ok (freshStore.record drivenDesk) := by
    refine admitLease_ok.mpr ⟨drivenDesk, ?_, rfl, rfl⟩
    exact Lease.canonicalized_ok.mpr ⟨machineB, machineA, canonicalized_of_valid machineB_valid,
      canonicalized_of_valid machineA_valid, trivial, rfl, rfl, rfl⟩
  have stepped : freshStore.step (.admitLease drivenDesk) = freshStore.record drivenDesk := by
    rw [step, admits, unlessRefused]
  dsimp only
  rw [stepped]
  have formed : Formed (freshStore.record drivenDesk) :=
    stepped ▸ (formed_new (new_of_valid machineA_valid 0)).step _
  have held : (freshStore.record drivenDesk).leaseAt machineB = some drivenDesk := by
    rw [leaseAt_record]
    exact if_pos rfl
  have found : canonicalFingerprint (answers 5 machineB "laptop" .thatMachine true).fingerprint =
      some machineB := canonicalized_of_valid machineB_valid
  have coherent : (answers 5 machineB "laptop" .thatMachine true).Coherent :=
    ⟨(answered_bits .none .thatMachine true).2.2.1, rfl, rfl⟩
  have taken : ((issueAnsweredInPlace 5 machineB "laptop" .thatMachine true).on
      (freshStore.record drivenDesk)).1 = .ok () := by
    rw [issueAnsweredInPlace_on, formed.issue_taken found coherent]
    rfl
  obtain ⟨fp, lease, isFp, law⟩ :=
    ((approval_merges formed 5 machineB "laptop").1 .thatMachine true).2 taken
  obtain rfl := Option.some.inj ((canonicalized_of_valid machineB_valid).symm.trans isFp)
  exact ⟨formed, held, taken, lease, law, law.added drivenDesk held rfl rfl⟩

end TrustStore

end HopsFormal.Trust
