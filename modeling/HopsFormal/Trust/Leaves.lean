import HopsFormal.Trust.RoundTrip

/-!
# The leases a step leaves

A lease held after a step was held before it, or is one of the few the verb can
leave.  A property of leases is therefore kept by a whole run as soon as each
of these has it.
-/

namespace HopsFormal.Trust.TrustStore

open Lib

theorem Sets.leaves_none {store next : TrustStore} {fp : String} {unlisted : Bool}
    (sets : Sets store next fp none unlisted) {other : String} {lease : Lease}
    (found : next.leaseAt other = some lease) : store.leaseAt other = some lease := by
  rw [sets.leaseAt] at found
  split at found
  · cases found
  · exact found

section Leaves

variable [Lowercase]

/-- The lease a verb can leave under `fp`, when it leaves a new one. -/
inductive Leaves (store : TrustStore) : Verb → String → Lease → Prop where
  | approved {verb : Verb} {approval : Approval} {fp : String} {next : TrustStore}
      (made : verb.approval = some approval)
      (found : canonicalFingerprint approval.fingerprint = some fp)
      (coherent : approval.Coherent) (accepted : approval.issue store = .ok next) :
      Leaves store verb fp (approval.approved store fp)
  | admitted {lease checked : Lease} {next : TrustStore}
      (passed : lease.canonicalized = .ok checked)
      (accepted : store.admitLease lease = .ok next) :
      Leaves store (.admitLease lease) checked.peer checked
  | renewed {reading : Nat} {fingerprint : String} {lease : Lease}
      (found : store.leaseAt (key fingerprint) = some lease) :
      Leaves store (.renew reading fingerprint) (key fingerprint)
        { lease with issuedAt := min lease.issuedAt (store.now reading), expiry := .never }
  | narrowed {fingerprint : String} {drop : Caps} {lease : Lease}
      (found : store.leaseAt (key fingerprint) = some lease)
      (left : (lease.caps.without drop).isEmpty = false) :
      Leaves store (.dropCapabilities fingerprint drop) (key fingerprint)
        { lease with caps := lease.caps.without drop }
  | clipboardOn {reading : Nat} {fingerprint : String} {lease : Lease}
      (found : store.leaseAt (key fingerprint) = some lease) :
      Leaves store (.enableClipboard reading fingerprint) (key fingerprint)
        { lease with
          caps := lease.caps.union (existingPairingClipboard lease.caps)
          clipboardChosen := true }
  | clipboardOff {fingerprint : String} {lease : Lease}
      (found : store.leaseAt (key fingerprint) = some lease) :
      Leaves store (.disableClipboard fingerprint) (key fingerprint)
        { lease with caps := lease.caps.without .clipboard, clipboardChosen := true }
  | labelled {fingerprint label : String} {lease : Lease}
      (found : store.leaseAt (key fingerprint) = some lease) :
      Leaves store (.setLabel fingerprint label) (key fingerprint)
        { lease with label := sanitizeLabel label }
  | confirmed {fingerprint : String} {lease : Lease} {next : TrustStore}
      (found : store.leaseAt (key fingerprint) = some lease)
      (accepted : store.confirm fingerprint = .ok next) :
      Leaves store (.confirm fingerprint) (key fingerprint) { lease with confirmed := true }

variable {store next : TrustStore} {verb : Verb} {floor : Nat}

theorem Sets.leaves {fp : String} {new : Lease} {unlisted : Bool}
    (sets : Sets store next fp (some new) unlisted) (leaves : Leaves store verb fp new)
    {other : String} {lease : Lease} (found : next.leaseAt other = some lease) :
    store.leaseAt other = some lease ∨ Leaves store verb other lease := by
  rw [sets.leaseAt] at found
  split at found
  · rename_i same
    obtain rfl := Option.some.inj found
    exact .inr (same ▸ leaves)
  · exact .inl found

section

variable (effect : Effect store verb next)
include effect

theorem Effect.leaves {fp : String} {lease : Lease} (found : next.leaseAt fp = some lease) :
    store.leaseAt fp = some lease ∨ Leaves store verb fp lease := by
  cases effect with
  | unchanged | swept reading => exact .inl found
  | approved made spelled coherent accepted sets =>
    exact sets.leaves (.approved made spelled coherent accepted) found
  | admitted passed issuedTo accepted sets => exact sets.leaves (.admitted passed accepted) found
  | renewed old sets => exact sets.leaves (.renewed old) found
  | narrowed old left sets => exact sets.leaves (.narrowed old left) found
  | clipboardOn old sets => exact sets.leaves (.clipboardOn old) found
  | clipboardOff old left sets => exact sets.leaves (.clipboardOff old) found
  | labelled old sets => exact sets.leaves (.labelled old) found
  | confirmed old accepted sets => exact sets.leaves (.confirmed old accepted) found
  | ended names sets | forgotten sets => exact .inl (sets.leaves_none found)
  | pruned prunes =>
    rcases prunes.leaseAt fp with same | ⟨gone, _⟩
    · exact .inl (same ▸ found)
    · rw [gone] at found
      cases found
  | relisted lists relists => exact .inl (relists.leaseAt fp ▸ found)

theorem Effect.ours : next.ours = store.ours := by
  cases effect with
  | unchanged | swept => rfl
  | approved _ _ _ _ sets | admitted _ _ _ sets | renewed _ sets | narrowed _ _ sets
  | clipboardOn _ sets | clipboardOff _ _ sets | labelled _ sets | confirmed _ _ sets
  | ended _ sets | forgotten sets => exact sets.ours
  | pruned prunes => exact prunes.ours
  | relisted _ relists => exact relists.ours

theorem Effect.floor_le : store.clock.floor ≤ next.clock.floor := by
  have same : next.clock = store.clock → store.clock.floor ≤ next.clock.floor :=
    fun clock => by rw [clock]
  cases effect with
  | unchanged => exact le_refl _
  | approved _ _ _ _ sets | admitted _ _ _ sets | renewed _ sets | narrowed _ _ sets
  | clipboardOn _ sets | clipboardOff _ _ sets | labelled _ sets | confirmed _ _ sets
  | ended _ sets | forgotten sets => exact same sets.clock
  | swept => exact le_max_left _ _
  | pruned prunes =>
    rw [prunes.clock]
    exact le_max_left _ _
  | relisted _ relists => exact same relists.clock

end

theorem Formed.run_ours (formed : Formed store) (verbs : List Verb) :
    (store.run verbs).ours = store.ours := by
  induction verbs generalizing store with
  | nil => rfl
  | cons verb rest ih => exact (ih (formed.step verb)).trans (formed.step_effect verb).ours

/-! ## Origins that name what is held -/

/--
Dropping capabilities takes nothing from the drive bits of a lease whose
direction was chosen, unless it takes everything.
-/
def KeepsChoice (store : TrustStore) : Verb → Prop
  | .dropCapabilities fingerprint drop =>
    ∀ lease controller, store.leaseAt (key fingerprint) = some lease →
      lease.origin = .chosen controller →
      (lease.caps.without drop).isEmpty = true ∨
        (lease.caps.without drop).intersection .drive = lease.caps.intersection .drive
  | _ => True

theorem Agreeing.step {store : TrustStore} (agreeing : Agreeing store) (formed : Formed store)
    {verb : Verb} (keeps : KeepsChoice store verb) : Agreeing (store.step verb) := by
  intro fp lease found
  rcases (formed.step_effect verb).leaves found with old | left
  · exact agreeing fp lease old
  · cases left with
    | approved made spelled coherent accepted =>
      exact (formed.approved_admissible spelled coherent).1.agrees
    | admitted passed accepted => exact (Lease.canonicalized_admissible passed).agrees
    | renewed old | labelled old | confirmed old accepted =>
      have before := agreeing _ _ old
      exact before
    | narrowed old some_left =>
      rename_i held
      cases origin : held.origin with
      | chosen controller =>
        rcases keeps held controller old origin with empty | same
        · rw [some_left] at empty
          cases empty
        · have before := agreeing _ _ old
          rw [origin] at before
          exact same.trans before
      | inbound | outboundDial | migrated => exact trivial
    | clipboardOn old =>
      exact ((agreeing _ _ old).congr (Caps.drive_union_existing _))
    | clipboardOff old =>
      exact ((agreeing _ _ old).congr (Caps.drive_without_clipboard _))

def KeepsChoices (store : TrustStore) : List Verb → Prop
  | [] => True
  | verb :: rest => KeepsChoice store verb ∧ KeepsChoices (store.step verb) rest

theorem Agreeing.run {store : TrustStore} (agreeing : Agreeing store) (formed : Formed store)
    {verbs : List Verb} (keeps : KeepsChoices store verbs) : Agreeing (store.run verbs) := by
  induction verbs generalizing store with
  | nil => exact agreeing
  | cons verb rest ih => exact ih (agreeing.step formed keeps.1) (formed.step verb) keeps.2

/-! ## The verbs of the running daemon -/

/-- The verbs production code calls; the rest exist for the load door and for tests. -/
def Production : Verb → Prop
  | .issueAnswered .. | .confirm .. | .forgetUnconfirmed .. | .forget .. | .enableClipboard ..
  | .disableClipboard .. | .setLabel .. | .listToPairAgain .. | .migrateFromConfig ..
  | .sweep .. => True
  | _ => False

instance (verb : Verb) : Decidable (Production verb) := by
  cases verb <;> unfold Production <;> infer_instance

theorem Production.keepsChoice (production : Production verb) : KeepsChoice store verb := by
  cases verb <;> first | exact trivial | exact production.elim

theorem Unending.step {store : TrustStore} (unending : Unending store) (formed : Formed store)
    {verb : Verb} (production : Production verb) : Unending (store.step verb) := by
  intro fp lease found
  rcases (formed.step_effect verb).leaves found with old | left
  · exact unending fp lease old
  · cases left with
    | approved made spelled coherent accepted =>
      exact Approval.approved_expiry _ store fp
    | admitted passed accepted | narrowed old some_left => exact production.elim
    | renewed old => rfl
    | clipboardOn old | clipboardOff old | labelled old | confirmed old accepted =>
      have before := unending _ _ old
      exact before

theorem production_run (formed : Formed store) (agreeing : Agreeing store)
    (unending : Unending store) {verbs : List Verb} (production : ∀ verb ∈ verbs, Production verb) :
    Formed (store.run verbs) ∧ Agreeing (store.run verbs) ∧ Unending (store.run verbs) := by
  induction verbs generalizing store with
  | nil => exact ⟨formed, agreeing, unending⟩
  | cons verb rest ih =>
    have first := production verb List.mem_cons_self
    exact ih (formed.step verb) (agreeing.step formed first.keepsChoice)
      (unending.step formed first) fun other member =>
        production other (List.mem_cons_of_mem _ member)

/-! ## A store just rebuilt -/

/-- What one row does to the store is what a verb would. -/
theorem rebuildOne_step (ours : String) (done : TrustStore × List Refusal) (row : LeaseRecord) :
    (rebuildOne ours done row).1 = done.1 ∨
      (rebuildOne ours done row).1 = done.1.step (.admitLease (leaseOfRecord ours row)) ∨
      (rebuildOne ours done row).1 =
        done.1.step (.listToPairAgain row.fingerprint row.label row.issuedAt) := by
  unfold rebuildOne
  cases row.state with
  | revoked => exact .inl rfl
  | pairAgain =>
    refine .inr (.inr ?_)
    simp only [step]
    cases done.1.listToPairAgain row.fingerprint row.label row.issuedAt <;> rfl
  | active =>
    simp only []
    split
    · exact .inl rfl
    · refine .inr (.inl ?_)
      simp only [step]
      cases done.1.admitLease (leaseOfRecord ours row) <;> rfl

theorem rebuilt_unending (unending : Unending store) (formed : Formed store) (ours : String)
    (row : LeaseRecord) : Unending (store.step (.admitLease (leaseOfRecord ours row))) := by
  intro fp lease found
  rcases (formed.step_effect _).leaves found with old | left
  · exact unending fp lease old
  · cases left with
    | approved made => cases made
    | admitted passed accepted =>
      obtain ⟨_, _, _, _, _, _, _, rfl⟩ := Lease.canonicalized_ok.mp passed
      rfl

/-- What is true of a store rebuilt for the machine spelled `spelled` from `floor` on. -/
structure Rebuilt (spelled : String) (floor : Nat) (store : TrustStore) : Prop where
  formed : Formed store
  agreeing : Agreeing store
  unending : Unending store
  ours : canonicalFingerprint spelled = some store.ours
  above : floor ≤ store.clock.floor

theorem Rebuilt.rebuildOne {ours : String} {done : TrustStore × List Refusal}
    (rebuilt : Rebuilt ours floor done.1) (row : LeaseRecord) :
    Rebuilt ours floor (rebuildOne ours done row).1 := by
  rcases rebuildOne_step ours done row with same | admitted | listed
  · rw [same]
    exact rebuilt
  · rw [admitted]
    exact ⟨rebuilt.formed.step _, rebuilt.agreeing.step rebuilt.formed trivial,
      rebuilt_unending rebuilt.unending rebuilt.formed ours row,
      (rebuilt.formed.step_effect _).ours ▸ rebuilt.ours,
      le_trans rebuilt.above (rebuilt.formed.step_effect _).floor_le⟩
  · rw [listed]
    exact ⟨rebuilt.formed.step _, rebuilt.agreeing.step rebuilt.formed trivial,
      rebuilt.unending.step rebuilt.formed trivial,
      (rebuilt.formed.step_effect _).ours ▸ rebuilt.ours,
      le_trans rebuilt.above (rebuilt.formed.step_effect _).floor_le⟩

theorem Rebuilt.foldl {ours : String} {done : TrustStore × List Refusal}
    (rebuilt : Rebuilt ours floor done.1) (rows : List LeaseRecord) :
    Rebuilt ours floor (rows.foldl (Trust.rebuildOne ours) done).1 := by
  induction rows generalizing done with
  | nil => exact rebuilt
  | cons row rest ih => exact ih (rebuilt.rebuildOne row)

theorem rebuild_rebuilt {ours : String} {rows : List LeaseRecord} {refused : List Refusal}
    (built : rebuild ours floor rows = .ok (store, refused)) : Rebuilt ours floor store := by
  obtain ⟨start, made, folded⟩ := bind_ok.mp built
  obtain ⟨found, clock, noEntries, _⟩ := new_ok made
  have started : Rebuilt ours floor (start, ([] : List Refusal)).1 :=
    ⟨formed_new made, by simp [Agreeing, leaseAt, noEntries],
      by simp [Unending, leaseAt, noEntries], found, by simp [clock]⟩
  have ended := started.foldl rows
  rw [Except.ok.inj folded] at ended
  exact ended

end Leaves

end HopsFormal.Trust.TrustStore
