import HopsFormal.Lib.Basic
import HopsFormal.Trust.Store

/-!
# What each verb does to the store

The verbs change a store by recording a lease, dropping a record, listing a
machine or moving the clock.  The lemmas here say which of these each verb
does; no later proof unfolds a verb again.
-/

namespace HopsFormal.Trust

open Option Lib

namespace TrustStore

/-! ## Looking up after a change -/

variable (store : TrustStore) (fp other : String) (lease : Lease)

@[simp]
theorem leaseAt_setLease : (store.setLease fp lease).leaseAt other =
      if fp = other then some lease else store.leaseAt other := by
  simp only [leaseAt, setLease, Std.ExtTreeMap.getElem?_insert, Std.LawfulEqCmp.compare_eq_iff_eq]
  split <;> rfl

@[simp]
theorem leaseAt_removeEntry :
    (store.removeEntry fp).leaseAt other = if fp = other then none else store.leaseAt other := by
  simp only [leaseAt, removeEntry, Std.ExtTreeMap.getElem?_erase, Std.LawfulEqCmp.compare_eq_iff_eq]
  split <;> rfl

@[simp]
theorem leaseAt_unlist : (store.unlist fp).leaseAt other = store.leaseAt other := rfl

@[simp]
theorem leaseAt_observe (reading : Nat) (fp : String) :
    (store.observe reading).leaseAt fp = store.leaseAt fp := rfl

@[simp]
theorem ours_observe (reading : Nat) : (store.observe reading).ours = store.ours := rfl

@[simp]
theorem clock_observe (reading : Nat) :
    (store.observe reading).clock = store.clock.observe reading := rfl

@[simp]
theorem pairAgain_setLease : (store.setLease fp lease).pairAgain = store.pairAgain := rfl

@[simp]
theorem pairAgain_removeEntry : (store.removeEntry fp).pairAgain = store.pairAgain := rfl

@[simp]
theorem pairAgain_unlist :
    (store.unlist fp).pairAgain[other]? = if fp = other then none else store.pairAgain[other]? := by
  simp only [unlist, Std.ExtTreeMap.getElem?_erase, Std.LawfulEqCmp.compare_eq_iff_eq]

@[simp]
theorem ours_setLease : (store.setLease fp lease).ours = store.ours := rfl

@[simp]
theorem ours_removeEntry : (store.removeEntry fp).ours = store.ours := rfl

@[simp]
theorem ours_unlist : (store.unlist fp).ours = store.ours := rfl

@[simp]
theorem clock_setLease : (store.setLease fp lease).clock = store.clock := rfl

@[simp]
theorem clock_removeEntry : (store.removeEntry fp).clock = store.clock := rfl

@[simp]
theorem clock_unlist : (store.unlist fp).clock = store.clock := rfl

/-- Record a lease under its own peer, which is then not to be paired again. -/
@[grind =]
def record (store : TrustStore) (lease : Lease) : TrustStore :=
  (if lease.confirmed then store.unlist lease.peer else store).setLease lease.peer lease

@[simp]
theorem leaseAt_record (fp : String) :
    (store.record lease).leaseAt fp = if lease.peer = fp then some lease else store.leaseAt fp := by
  simp only [record, leaseAt_setLease]
  split
  · rfl
  · split <;> rfl

@[simp]
theorem pairAgain_record (fp : String) : (store.record lease).pairAgain[fp]? =
      if lease.confirmed ∧ lease.peer = fp then none else store.pairAgain[fp]? := by
  simp only [record, pairAgain_setLease]
  cases confirmed : lease.confirmed <;> simp

@[simp]
theorem ours_record : (store.record lease).ours = store.ours := by
  simp only [record, ours_setLease]
  split <;> rfl

@[simp]
theorem clock_record : (store.record lease).clock = store.clock := by
  simp only [record, clock_setLease]
  split <;> rfl

/-! ## Decisions read one lease -/

/-- What a lease permits on machine `ours` at `now`. -/
def granted (lease : Option Lease) (ours : String) (now : Nat) : Caps :=
  effectiveCapabilities ⟨lease⟩ ours now

theorem effectiveCapabilities_some {lease : Lease} {ours : String} {now : Nat}
    (grants : effectiveCapabilities ⟨some lease⟩ ours now ≠ .none) :
    lease.confirmed = true ∧ lease.issuedTo = ours ∧ lease.isValidAt now = true ∧
      effectiveCapabilities ⟨some lease⟩ ours now = lease.caps := by
  unfold effectiveCapabilities at grants ⊢
  cases confirmed : lease.confirmed with
  | false => simp [confirmed] at grants
  | true =>
    simp only [confirmed, Bool.not_true, Bool.false_eq_true, if_false] at grants ⊢
    split at grants
    · rename_i inForce
      rw [if_pos inForce]
      exact ⟨trivial, inForce.1, inForce.2, rfl⟩
    · exact absurd rfl grants

theorem inForce_eq (now : Nat) : store.inForce fp now =
      (store.leaseAt fp).filter fun lease =>
        !(granted (some lease) store.ours now).isEmpty := by
  unfold inForce leaseAt granted
  cases store.entries[fp]? with
  | none => rfl
  | some entry =>
    obtain ⟨lease⟩ := entry
    cases lease with
    | none => simp [effectiveCapabilities, Caps.isEmpty, Caps.none]
    | some lease =>
      simp only [filter_some, bind_some]
      split <;> rfl

theorem inForce_some {store : TrustStore} {fp : String} {now : Nat} {held : Lease}
    (found : store.inForce fp now = some held) :
    store.leaseAt fp = some held ∧ held.confirmed = true ∧ held.issuedTo = store.ours := by
  rw [inForce_eq] at found
  obtain ⟨isHeld, grants⟩ := filter_eq_some_iff.mp found
  have nonempty : effectiveCapabilities ⟨some held⟩ store.ours now ≠ .none := by
    intro empty
    simp [granted, empty, Caps.isEmpty, Caps.none] at grants
  have facts := effectiveCapabilities_some nonempty
  exact ⟨isHeld, facts.1, facts.2.1⟩

/-! ## An approval -/

/-- What an approval asks for. -/
structure Approval where
  reading : Nat
  fingerprint : String
  label : String
  caps : Caps
  origin : Origin
  clipboardChosen : Bool

/-- The lease an approval asks for, before it meets the one held. -/
def Approval.requested (approval : Approval) (store : TrustStore) (fp : String) : Lease where
  peer := fp
  issuedTo := store.ours
  label := sanitizeLabel approval.label
  caps := approval.caps
  origin := approval.origin
  issuedAt := store.now approval.reading
  expiry := .never
  clipboardChosen := approval.clipboardChosen
  confirmed := false

/-- The lease an approval leaves: the one asked for, or one added to. -/
def Approval.approved (approval : Approval) (store : TrustStore) (fp : String) : Lease :=
  match store.inForce fp (store.now approval.reading) with
  | some held => mergeLease held (approval.requested store fp) approval.clipboardChosen
  | none => approval.requested store fp

theorem Approval.approved_expiry (approval : Approval) (store : TrustStore) (fp : String) :
    (approval.approved store fp).expiry = .never := by
  unfold Approval.approved
  split <;> rfl

/-- The capabilities an approval may ask for as it says it came about. -/
structure Approval.Coherent (approval : Approval) : Prop where
  agrees : approval.origin.Agrees approval.caps
  grants : approval.caps.isEmpty = false
  coherent : incoherent approval.caps approval.origin = none

section Verbs

variable [Lowercase]

theorem capabilitiesAt_eq (store : TrustStore) (now : Nat) (fingerprint : String) :
    store.capabilitiesAt now fingerprint =
      granted (store.leaseAt (key fingerprint)) store.ours now := by
  unfold capabilitiesAt leaseAt
  cases store.entries[key fingerprint]? <;> rfl

theorem new_ok {ours : String} {floor : Nat} {store : TrustStore}
    (made : new ours floor = .ok store) :
    canonicalFingerprint ours = some store.ours ∧ store.clock = ⟨floor⟩ ∧ store.entries = ∅ ∧
      store.pairAgain = ∅ := by
  unfold new at made
  split at made
  · cases made
  · rename_i canonical found
    obtain rfl := Except.ok.inj made
    exact ⟨found, rfl, rfl, rfl⟩

theorem new_of_canonical {ours machine : String}
    (spelled : canonicalFingerprint ours = some machine) (floor : Nat) :
    ∃ store, new ours floor = .ok store := by
  unfold new
  split
  · rename_i absent
    simp [spelled] at absent
  · exact ⟨_, rfl⟩

theorem new_of_valid {ours : String} (valid : validFingerprint ours = true) (floor : Nat) :
    new ours floor = .ok ⟨ours, ⟨floor⟩, ∅, ∅, valid⟩ := by
  unfold new
  split
  · rename_i absent
    simp [canonicalized_of_valid valid] at absent
  · rename_i canonical found
    obtain rfl := Option.some.inj ((canonicalized_of_valid valid).symm.trans found)
    rfl

theorem admitLease_ok {store next : TrustStore} {lease : Lease} :
    store.admitLease lease = .ok next ↔
      ∃ checked, lease.canonicalized = .ok checked ∧ checked.issuedTo = store.ours ∧
        next = store.record checked := by
  change Except.bind _ _ = _ ↔ _
  rw [bind_ok]
  refine exists_congr fun checked => and_congr_right fun _ => ?_
  simp only [ne_eq, ite_not]
  split
  · rename_i same
    simp only [Except.ok.injEq, same, true_and, record]
    exact eq_comm
  · rename_i other
    simp [other]

def Approval.issue (approval : Approval) (store : TrustStore) : Except TrustError TrustStore :=
  store.issueLease approval.reading approval.fingerprint approval.label approval.caps defaultTerm
    approval.origin approval.clipboardChosen

theorem Approval.issue_ok {approval : Approval} {store next : TrustStore} :
    approval.issue store = .ok next ↔
      ∃ fp, canonicalFingerprint approval.fingerprint = some fp ∧ approval.Coherent ∧
        store.admitLease (approval.approved store fp) = .ok next := by
  change Except.bind _ _ = _ ↔ _
  rw [bind_ok]
  simp only [Lease.canonicalized_ok, canonicalized_of_valid store.valid, Option.some.injEq]
  constructor
  · rintro ⟨lease, ⟨fp, issuedTo, found, rfl, _, agrees, grants, rfl⟩, rest⟩
    cases coherent : incoherent approval.caps approval.origin with
    | some direction => simp [coherent] at rest
    | none =>
      refine ⟨fp, found, ⟨agrees, grants, coherent⟩, ?_⟩
      simp only [coherent] at rest
      unfold approved
      cases held : store.inForce fp (store.now approval.reading) with
      | some old | none => simpa [held, requested, defaultTerm, Term.expiryFrom] using rest
  · rintro ⟨fp, found, coherent, admitted⟩
    refine ⟨_, ⟨fp, _, found, rfl, trivial, coherent.agrees, coherent.grants, rfl⟩, ?_⟩
    simp only [coherent.coherent]
    unfold approved at admitted
    cases held : store.inForce fp (store.now approval.reading) with
    | some old | none => simpa [held, requested, defaultTerm, Term.expiryFrom] using admitted

end Verbs

end TrustStore

end HopsFormal.Trust
