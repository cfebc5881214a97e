import HopsFormal.Trust.Records

/-!
# A save followed by a load

The rows of a formed store whose leases are all admissible pass `validate`,
and rebuilding from them refuses only the pairings never confirmed.  What the
rebuilt store answers is then the same, for every fingerprint.
-/

namespace HopsFormal.Trust

open List

namespace TrustStore

/-- Every origin that claims a choice names exactly the drive bits held. -/
def Agreeing (store : TrustStore) : Prop :=
  ∀ fp lease, store.leaseAt fp = some lease → lease.origin.Agrees lease.caps

/-- No lease held lapses. -/
def Unending (store : TrustStore) : Prop :=
  ∀ fp lease, store.leaseAt fp = some lease → lease.expiry = .never

theorem Formed.admissible {store : TrustStore} (formed : Formed store) (agreeing : Agreeing store)
    {fp : String} {lease : Lease} (found : store.leaseAt fp = some lease) : Admissible lease where
  peer := (formed.lease fp lease found).peer ▸ (formed.lease fp lease found).valid
  issuedTo := (formed.lease fp lease found).issuedTo ▸ store.valid
  label := (formed.lease fp lease found).label
  proper := (formed.lease fp lease found).proper
  agrees := agreeing fp lease found
  grants := (formed.lease fp lease found).grants

theorem nodup_keys {β : Type} (map : Std.ExtTreeMap String β) :
    (map.toList.map Prod.fst).Nodup := by
  have distinct := map.distinct_keys_toList
  rw [nodup_iff_pairwise_ne, pairwise_map]
  refine distinct.imp ?_
  intro a b apart same
  exact apart (Std.LawfulEqCmp.compare_eq_iff_eq.mpr same)

section RoundTrip

variable [Lowercase]

/-! ## What rows pass `validate` -/

theorem validateFrom_ok {rows : List LeaseRecord} {seen : List String}
    (rowsOk : ∀ row ∈ rows, validateRow row = .ok ())
    (distinct : (rows.map (·.fingerprint)).Nodup)
    (fresh : ∀ row ∈ rows, row.fingerprint ∉ seen) : validateFrom seen rows = .ok () := by
  induction rows generalizing seen with
  | nil => rfl
  | cons row rest ih =>
    rw [map_cons, nodup_cons] at distinct
    unfold validateFrom
    rw [if_neg (fresh row mem_cons_self), rowsOk row mem_cons_self]
    refine ih (fun other member => rowsOk other (mem_cons_of_mem _ member)) distinct.2 ?_
    intro other member seenAgain
    rcases mem_cons.mp seenAgain with same | before
    · exact distinct.1 (same ▸ mem_map_of_mem member)
    · exact fresh other (mem_cons_of_mem _ member) before

/-! ## The rows of a store -/

variable {store : TrustStore} {row : LeaseRecord} {ours : String}

/-- Every row is a lease's, or a listing's. -/
theorem mem_recordsOf : row ∈ recordsOf store ↔
      (∃ fp lease, store.leaseAt fp = some lease ∧
          ¬ (lease.confirmed = false ∧ (store.toPairAgain fp).isSome = true) ∧
          row = recordOfLease fp lease) ∨
        ∃ (fp : String) (listing : PairAgain), store.pairAgain[fp]? = some listing ∧
          row = recordOfListing fp listing := by
  simp only [recordsOf, mem_mergeSort, mem_append, mem_filterMap, mem_map,
    Prod.exists, Std.ExtTreeMap.mem_toList_iff_getElem?_eq_some]
  refine or_congr ?_ ?_
  · constructor
    · rintro ⟨fp, entry, found, row_eq⟩
      cases held : entry.lease with
      | none => simp [leaseRow, held] at row_eq
      | some lease =>
        simp only [leaseRow, held, Option.ite_none_left_eq_some, Option.some.injEq,
          Bool.and_eq_true, Bool.not_eq_true'] at row_eq
        exact ⟨fp, lease, (leaseAt_of_entry found).trans held, row_eq.1, row_eq.2.symm⟩
    · rintro ⟨fp, lease, found, kept, rfl⟩
      obtain ⟨entry, entryFound, held⟩ := Option.bind_eq_some_iff.mp found
      refine ⟨fp, entry, entryFound, ?_⟩
      simp only [leaseRow, held, Option.ite_none_left_eq_some, Bool.and_eq_true, Bool.not_eq_true']
      exact ⟨kept, trivial⟩
  · exact exists_congr fun fp => exists_congr fun listing =>
      and_congr_right fun _ => eq_comm

theorem leaseRow_fingerprint {entry : String × Entry} (made : leaseRow store entry = some row) :
    row.fingerprint = entry.1 := by
  unfold leaseRow at made
  split at made
  · cases made
  · split at made
    · cases made
    · exact congrArg LeaseRecord.fingerprint (Option.some.inj made).symm

theorem nodup_leaseRows (store : TrustStore) :
    ((store.entries.toList.filterMap (leaseRow store)).map (·.fingerprint)).Nodup := by
  have sub : ∀ entries : List (String × Entry),
      ((entries.filterMap (leaseRow store)).map (·.fingerprint)).Sublist
        (entries.map Prod.fst) := by
    intro entries
    induction entries with
    | nil => exact Sublist.refl _
    | cons entry rest ih =>
      cases made : leaseRow store entry with
      | none =>
        rw [filterMap_cons_none made]
        exact ih.cons _
      | some row =>
        rw [filterMap_cons_some made, map_cons, map_cons, leaseRow_fingerprint made]
        exact ih.cons_cons _
  exact (nodup_keys store.entries).sublist (sub _)

/-- One row per fingerprint. -/
theorem Formed.nodup_recordsOf (formed : Formed store) :
    ((recordsOf store).map (·.fingerprint)).Nodup := by
  have perm := (mergeSort_perm
    (store.entries.toList.filterMap (leaseRow store) ++
      store.pairAgain.toList.map fun listing => recordOfListing listing.1 listing.2)
    fun a b => decide (a.fingerprint ≤ b.fingerprint)).map (·.fingerprint)
  refine perm.nodup_iff.mpr ?_
  rw [map_append]
  refine Nodup.append (nodup_leaseRows store) ?_ ?_
  · rw [map_map]
    exact nodup_keys store.pairAgain
  · intro fp inLeases inListings
    obtain ⟨row, rowMember, rfl⟩ := mem_map.mp inLeases
    obtain ⟨⟨found, entry⟩, entryMember, made⟩ := mem_filterMap.mp rowMember
    have held := Std.ExtTreeMap.mem_toList_iff_getElem?_eq_some.mp entryMember
    rw [leaseRow_fingerprint made] at inListings
    simp only [map_map, mem_map, Prod.exists, Function.comp,
      Std.ExtTreeMap.mem_toList_iff_getElem?_eq_some] at inListings
    obtain ⟨listed, listing, isListed, same⟩ := inListings
    obtain rfl : listed = found := same
    have valid := (formed.listed listed listing isListed).1
    cases leaseEq : entry.lease with
    | none => simp [leaseRow, leaseEq] at made
    | some lease =>
      have leaseFound := (leaseAt_of_entry held).trans leaseEq
      cases confirmed : lease.confirmed with
      | true =>
        rw [formed.apart listed lease leaseFound confirmed] at isListed
        cases isListed
      | false =>
        simp [leaseRow, leaseEq, confirmed, toPairAgain, key_of_valid valid, isListed] at made

theorem Formed.validate_recordsOf (formed : Formed store) :
    validate (recordsOf store) = .ok () := by
  refine validateFrom_ok ?_ formed.nodup_recordsOf (by simp)
  intro row member
  rcases mem_recordsOf.mp member with ⟨fp, lease, found, _, rfl⟩ | ⟨fp, listing, found, rfl⟩
  · simp [validateRow, recordOfLease, canonicalized_of_valid (formed.lease _ _ found).valid]
  · simp [validateRow, recordOfListing]

/-! ## Loading rows -/

/-- The lease a row brings into the store of the machine spelled `ours`. -/
def loadLease (ours : String) (row : LeaseRecord) : Option Lease :=
  if row.state = .active ∧ row.confirmed then (leaseOfRecord ours row).canonicalized.toOption
  else none

def loadListing (row : LeaseRecord) : Option PairAgain :=
  if row.state = .pairAgain then some ⟨sanitizeLabel row.label, row.issuedAt⟩ else none

/-- What the log says about a row whose pairing was never confirmed. -/
def loadRefusal (row : LeaseRecord) : Option Refusal :=
  if row.state = .active ∧ row.confirmed = false then
    some (.neverConfirmed row.fingerprint row.label)
  else none

/-- A row every door lets through on the machine `machine`, spelled `ours`. -/
inductive Loadable (ours machine : String) (row : LeaseRecord) : Prop where
  | lease (active : row.state = .active) (confirmed : row.confirmed = true) (lease : Lease)
      (passed : (leaseOfRecord ours row).canonicalized = .ok lease)
      (issuedTo : lease.issuedTo = machine) (peer : lease.peer = row.fingerprint)
  | pending (active : row.state = .active) (unconfirmed : row.confirmed = false)
  | listing (listed : row.state = .pairAgain) (valid : validFingerprint row.fingerprint = true)
      (other : row.fingerprint ≠ machine)

/-- One row was loaded into `store`, under its own fingerprint only. -/
structure Loaded (spelled : String) (store next : TrustStore) (row : LeaseRecord) : Prop where
  ours : next.ours = store.ours
  clock : next.clock = store.clock
  leaseAt : ∀ fp, next.leaseAt fp =
    if row.fingerprint = fp then loadLease spelled row else store.leaseAt fp
  entries : ∀ fp, row.fingerprint ≠ fp → next.entries[fp]? = store.entries[fp]?
  pairAgain : ∀ fp, next.pairAgain[fp]? =
    if row.fingerprint = fp then loadListing row else store.pairAgain[fp]?

theorem rebuildOne_loads (loadable : Loadable ours store.ours row)
    (unheld : store.entries[row.fingerprint]? = none)
    (unlisted : store.pairAgain[row.fingerprint]? = none) (refused : List Refusal) :
    ∃ next, rebuildOne ours (store, refused) row =
        (next, refused ++ (loadRefusal row).toList) ∧ Loaded ours store next row := by
  cases loadable with
  | lease active confirmed lease passed issuedTo peer =>
    have accepted := admitLease_ok.mpr ⟨lease, passed, issuedTo, rfl⟩
    have sets := sets_record store lease
    rw [peer] at sets
    refine ⟨store.record lease, ?_, sets.ours, sets.clock, ?_, ?_, ?_⟩
    · simp [rebuildOne, active, confirmed, accepted, loadRefusal]
    · intro fp
      rw [sets.leaseAt]
      simp [loadLease, active, confirmed, passed, Except.toOption]
    · intro fp other
      rw [sets.entries, if_neg other]
    · intro fp
      rw [sets.pairAgain]
      by_cases same : row.fingerprint = fp
      · subst same
        simp [loadListing, active, unlisted]
      · simp [same]
  | pending active unconfirmed =>
    refine ⟨store, ?_, rfl, rfl, ?_, fun _ _ => rfl, ?_⟩
    · simp [rebuildOne, active, unconfirmed, loadRefusal]
    · intro fp
      by_cases same : row.fingerprint = fp
      · subst same
        simp [loadLease, unconfirmed, TrustStore.leaseAt, unheld]
      · simp [same]
    · intro fp
      by_cases same : row.fingerprint = fp
      · subst same
        simp [loadListing, active, unlisted]
      · simp [same]
  | listing listed valid other =>
    refine ⟨{ store with
      pairAgain := store.pairAgain.insert row.fingerprint
        { label := sanitizeLabel row.label, since := row.issuedAt } },
      ?_, rfl, rfl, ?_, fun _ _ => rfl, ?_⟩
    · have absent : ¬ (row.fingerprint = store.ours ∨
          store.entries.contains row.fingerprint = true) := by
        rintro (same | held)
        · exact other same
        · have absent : row.fingerprint ∉ store.entries := by simpa using unheld
          exact absent (Std.ExtTreeMap.contains_iff_mem.mp held)
      simp only [rebuildOne, listed, listToPairAgain, canonicalized_of_valid valid,
        if_neg absent, loadRefusal]
      simp
    · intro fp
      by_cases same : row.fingerprint = fp
      · subst same
        simp [loadLease, listed, TrustStore.leaseAt, unheld]
      · simp [same, TrustStore.leaseAt]
    · intro fp
      simp [Std.ExtTreeMap.getElem?_insert, loadListing, listed]

theorem rebuild_rows {rows : List LeaseRecord}
    (loadable : ∀ row ∈ rows, Loadable ours store.ours row)
    (distinct : (rows.map (·.fingerprint)).Nodup)
    (unheld : ∀ row ∈ rows, store.entries[row.fingerprint]? = none)
    (unlisted : ∀ row ∈ rows, store.pairAgain[row.fingerprint]? = none) (refused : List Refusal) :
    ∃ next, rows.foldl (rebuildOne ours) (store, refused) =
        (next, refused ++ rows.filterMap loadRefusal) ∧
      next.ours = store.ours ∧ next.clock = store.clock ∧
      (∀ row ∈ rows, next.leaseAt row.fingerprint = loadLease ours row ∧
        next.pairAgain[row.fingerprint]? = loadListing row) ∧
      ∀ fp, fp ∉ rows.map (·.fingerprint) →
        next.leaseAt fp = store.leaseAt fp ∧ next.pairAgain[fp]? = store.pairAgain[fp]? := by
  induction rows generalizing store refused with
  | nil => exact ⟨store, by simp, rfl, rfl, by simp, fun fp _ => ⟨rfl, rfl⟩⟩
  | cons row rest ih =>
    rw [map_cons, nodup_cons] at distinct
    obtain ⟨middle, stepped, loaded⟩ := rebuildOne_loads (loadable row mem_cons_self)
      (unheld row mem_cons_self) (unlisted row mem_cons_self) refused
    have apart : ∀ other ∈ rest, row.fingerprint ≠ other.fingerprint := by
      intro other member same
      exact distinct.1 (same ▸ mem_map_of_mem member)
    have loadable' : ∀ other ∈ rest, Loadable ours middle.ours other := fun other member =>
      loaded.ours ▸ loadable other (mem_cons_of_mem _ member)
    have unheld' : ∀ other ∈ rest, middle.entries[other.fingerprint]? = none := by
      intro other member
      rw [loaded.entries _ (apart other member)]
      exact unheld other (mem_cons_of_mem _ member)
    have unlisted' : ∀ other ∈ rest, middle.pairAgain[other.fingerprint]? = none := by
      intro other member
      rw [loaded.pairAgain, if_neg (apart other member)]
      exact unlisted other (mem_cons_of_mem _ member)
    obtain ⟨next, folded, ours_eq, clock_eq, brought, others⟩ :=
      ih loadable' distinct.2 unheld' unlisted' (refused ++ (loadRefusal row).toList)
    refine ⟨next, ?_, ours_eq.trans loaded.ours, clock_eq.trans loaded.clock, ?_, ?_⟩
    · rw [foldl_cons, stepped, folded]
      cases refusal : loadRefusal row with
      | none => simp [filterMap_cons_none refusal]
      | some why => simp [filterMap_cons_some refusal]
    · intro other member
      rcases mem_cons.mp member with rfl | later
      · obtain ⟨leaseEq, listingEq⟩ := others _ distinct.1
        rw [leaseEq, listingEq, loaded.leaseAt, loaded.pairAgain]
        simp
      · exact brought other later
    · intro fp absent
      rw [map_cons, mem_cons, not_or] at absent
      obtain ⟨leaseEq, listingEq⟩ := others fp absent.2
      rw [leaseEq, listingEq, loaded.leaseAt, loaded.pairAgain, if_neg (Ne.symm absent.1),
        if_neg (Ne.symm absent.1)]
      exact ⟨rfl, rfl⟩

/-! ## The rebuilt store -/

theorem canonicalized_leaseOfRecord {machine : String} {lease : Lease}
    (spelled : canonicalFingerprint ours = some machine) (admissible : Admissible lease)
    (issuedTo : lease.issuedTo = machine) :
    (leaseOfRecord ours (recordOfLease lease.peer lease)).canonicalized = .ok (reloaded lease) := by
  rw [leaseOfRecord_recordOfLease]
  refine Lease.canonicalized_ok.mpr ⟨lease.peer, machine,
    canonicalized_of_valid admissible.peer, spelled, trivial, admissible.agrees,
    admissible.grants, ?_⟩
  rw [← issuedTo]
  simp only [reloaded, admissible.label]

theorem Formed.loadable (formed : Formed store) (agreeing : Agreeing store)
    (spelled : canonicalFingerprint ours = some store.ours) :
    ∀ row ∈ recordsOf store, Loadable ours store.ours row := by
  intro row member
  rcases mem_recordsOf.mp member with ⟨fp, lease, found, _, rfl⟩ | ⟨fp, listing, found, rfl⟩
  · have held := formed.lease fp lease found
    cases confirmed : lease.confirmed with
    | true =>
      have passed := canonicalized_leaseOfRecord spelled (formed.admissible agreeing found)
        held.issuedTo
      rw [held.peer] at passed
      exact .lease rfl confirmed (reloaded lease) passed held.issuedTo held.peer
    | false => exact .pending rfl confirmed
  · obtain ⟨valid, other, _⟩ := formed.listed fp listing found
    exact .listing rfl valid other

/--
A formed store with admissible leases is rebuilt from its own rows: every
confirmed lease, every listing, and no pairing still waiting for its number.
-/
theorem Formed.reload (formed : Formed store) (agreeing : Agreeing store)
    (spelled : canonicalFingerprint ours = some store.ours) (floor : Nat) :
    ∃ again, rebuild ours floor (recordsOf store) =
        .ok (again, (recordsOf store).filterMap loadRefusal) ∧
      again.ours = store.ours ∧ again.clock = ⟨floor⟩ ∧
      (∀ fp, again.leaseAt fp = ((store.leaseAt fp).filter Lease.confirmed).map reloaded) ∧
      ∀ fp : String, again.pairAgain[fp]? = store.pairAgain[fp]? := by
  obtain ⟨start, made⟩ := new_of_canonical spelled floor
  obtain ⟨found, startClock, startEntries, startPairAgain⟩ := new_ok made
  have startOurs : start.ours = store.ours := Option.some.inj (found.symm.trans spelled)
  obtain ⟨again, folded, oursEq, clockEq, brought, others⟩ :=
    rebuild_rows (startOurs ▸ formed.loadable agreeing spelled) formed.nodup_recordsOf
      (by simp [startEntries]) (by simp [startPairAgain]) []
  have listedBack : ∀ (fp : String) (listing : PairAgain), store.pairAgain[fp]? = some listing →
      again.leaseAt fp = none ∧ again.pairAgain[fp]? = some listing := by
    intro fp listing listed
    obtain ⟨leaseEq, listingEq⟩ :=
      brought _ (mem_recordsOf.mpr (.inr ⟨fp, listing, listed, rfl⟩))
    refine ⟨leaseEq.trans (by simp [loadLease, recordOfListing]), listingEq.trans ?_⟩
    simp only [loadListing, recordOfListing, if_true, (formed.listed fp listing listed).2.2]
  have both : ∀ fp : String,
      again.leaseAt fp = ((store.leaseAt fp).filter Lease.confirmed).map reloaded ∧
        again.pairAgain[fp]? = store.pairAgain[fp]? := by
    intro fp
    cases found : store.leaseAt fp with
    | some lease =>
      have held := formed.lease fp lease found
      cases confirmed : lease.confirmed with
      | true =>
        obtain ⟨leaseEq, listingEq⟩ := brought (recordOfLease fp lease)
          (mem_recordsOf.mpr (.inl ⟨fp, lease, found, by simp [confirmed], rfl⟩))
        have passed := canonicalized_leaseOfRecord spelled (formed.admissible agreeing found)
          held.issuedTo
        rw [held.peer] at passed
        refine ⟨leaseEq.trans ?_, listingEq.trans ?_⟩
        · simp only [loadLease, passed]
          simp [recordOfLease, confirmed, Except.toOption]
        · rw [formed.apart fp lease found confirmed]
          simp [loadListing, recordOfLease]
      | false =>
        cases listed : store.pairAgain[fp]? with
        | some listing =>
          obtain ⟨leaseEq, listingEq⟩ := listedBack fp listing listed
          exact ⟨leaseEq.trans (by simp [confirmed]), listingEq⟩
        | none =>
          have unlisted : store.toPairAgain fp = none := by
            rw [toPairAgain, key_of_valid held.valid, listed]
          obtain ⟨leaseEq, listingEq⟩ := brought (recordOfLease fp lease)
            (mem_recordsOf.mpr (.inl ⟨fp, lease, found, by simp [unlisted], rfl⟩))
          refine ⟨leaseEq.trans ?_, listingEq.trans ?_⟩
          · simp [loadLease, recordOfLease, confirmed]
          · simp [loadListing, recordOfLease]
    | none =>
      cases listed : store.pairAgain[fp]? with
      | some listing => exact listedBack fp listing listed
      | none =>
        have absent : fp ∉ (recordsOf store).map (·.fingerprint) := by
          intro member
          obtain ⟨row, rowMember, rfl⟩ := mem_map.mp member
          rcases mem_recordsOf.mp rowMember with
            ⟨fp, lease, isHeld, _, rfl⟩ | ⟨fp, listing, isListed, rfl⟩
          · exact absurd (isHeld.symm.trans found) (by simp)
          · exact absurd (isListed.symm.trans listed) (by simp)
        obtain ⟨leaseEq, listingEq⟩ := others fp absent
        refine ⟨leaseEq.trans ?_, listingEq.trans ?_⟩
        · simp [TrustStore.leaseAt, startEntries]
        · simp [startPairAgain]
  refine ⟨again, ?_, oursEq.trans startOurs, clockEq.trans startClock, fun fp => (both fp).1,
    fun fp => (both fp).2⟩
  change Except.bind _ _ = _
  rw [made]
  simpa [Except.bind] using folded

end RoundTrip

end TrustStore

end HopsFormal.Trust
