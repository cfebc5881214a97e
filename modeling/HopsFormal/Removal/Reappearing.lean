import HopsFormal.Removal.ByHand

/-!
# How a device comes into the store

A lease is brought into the store by the verbs that name its machine, and into a
store that is loaded by a row of the file.  Nothing else brings one: a device that
the store and the file lack stays away.
-/

namespace HopsFormal.Removal.ByHand

open List Lib Trust Trust.TrustStore TrustFile

/-- The store holds nothing of a device. -/
structure Lacks (store : TrustStore) (fp : String) : Prop where
  lease : store.leaseAt fp = none
  listing : store.pairAgain[fp]? = none

section Verbs

variable [Lowercase]

/-- A verb that can give a device a lease. -/
def Leases (fp : String) : Verb → Prop
  | .admitLease lease => canonicalFingerprint lease.peer = some fp
  | verb => ∃ approval, verb.approval = some approval ∧
      canonicalFingerprint approval.fingerprint = some fp

/-- A verb that can list a device to be paired again. -/
def Lists (fp : String) : Verb → Prop
  | .listToPairAgain fingerprint _ _ => canonicalFingerprint fingerprint = some fp
  | .migrateFromConfig _ _ _ => True
  | _ => False

variable {store : TrustStore} {fp : String}

omit [Lowercase] in
theorem Sets.leaseAt_none {next : TrustStore} {other : String} {lease : Option Lease}
    {unlisted : Bool} (sets : Sets store next fp lease unlisted) (apart : fp ≠ other ∨ lease = none)
    (absent : store.leaseAt other = none) : next.leaseAt other = none := by
  rw [sets.leaseAt]
  split
  · next same =>
    rcases apart with apart | gone
    · exact absurd same apart
    · exact gone
  · exact absent

theorem key_ne {fingerprint : String} {lease : Lease}
    (found : store.leaseAt (key fingerprint) = some lease) (absent : store.leaseAt fp = none) :
    key fingerprint ≠ fp := by
  rintro rfl
  rw [found] at absent
  cases absent

theorem leaseAt_step_none (formed : Formed store) (absent : store.leaseAt fp = none) {verb : Verb}
    (other : ¬ Leases fp verb) : (store.step verb).leaseAt fp = none := by
  have effect := formed.step_effect verb
  generalize store.step verb = next at effect ⊢
  cases effect with
  | unchanged | swept reading => exact absent
  | @approved _ approval named _ made found coherent accepted sets =>
    refine Sets.leaseAt_none sets (.inl ?_) absent
    rintro rfl
    apply other
    cases verb <;> first | exact ⟨approval, made, found⟩ | cases made
  | @admitted lease checked _ passed _ accepted sets =>
    refine Sets.leaseAt_none sets (.inl fun same => other ?_) absent
    obtain ⟨peer, issuedTo, found, -, -, -, -, isChecked⟩ := Lease.canonicalized_ok.mp passed
    rw [Leases, found, ← same, isChecked]
  | renewed found sets | narrowed found left sets | clipboardOn found sets
  | clipboardOff found left sets | labelled found sets | confirmed found accepted sets =>
    exact Sets.leaseAt_none sets (.inl (key_ne found absent)) absent
  | ended names sets | forgotten sets => exact Sets.leaseAt_none sets (.inr rfl) absent
  | pruned prunes =>
    rcases prunes.leaseAt fp with same | ⟨gone, -⟩
    · rw [same, absent]
    · exact gone
  | relisted lists relists => rw [relists.leaseAt, absent]

omit [Lowercase] in
theorem Sets.listing_none {next : TrustStore} {other : String} {lease : Option Lease}
    {unlisted : Bool} (sets : Sets store next fp lease unlisted)
    (absent : store.pairAgain[other]? = none) : next.pairAgain[other]? = none := by
  rw [sets.pairAgain]
  split
  · rfl
  · exact absent

theorem listing_listToPairAgain {fingerprint label : String} {since : Nat}
    (absent : store.pairAgain[fp]? = none) (other : canonicalFingerprint fingerprint ≠ some fp) :
    (store.unlessRefused (store.listToPairAgain fingerprint label since)).pairAgain[fp]? =
      none := by
  unfold listToPairAgain
  cases found : canonicalFingerprint fingerprint with
  | none => exact absent
  | some named =>
    dsimp only
    split
    · exact absent
    · have apart : named ≠ fp := fun same => other (by rw [found, same])
      simp [unlessRefused, Std.ExtTreeMap.getElem?_insert, apart, absent]

theorem listing_step_none (formed : Formed store) (absent : store.pairAgain[fp]? = none)
    {verb : Verb} (other : ¬ Lists fp verb) : (store.step verb).pairAgain[fp]? = none := by
  have effect := formed.step_effect verb
  obtain ⟨next, isNext⟩ : ∃ next, store.step verb = next := ⟨_, rfl⟩
  rw [isNext] at effect ⊢
  cases effect with
  | unchanged | swept reading => exact absent
  | approved made found coherent accepted sets | admitted passed issuedTo accepted sets
  | renewed found sets | narrowed found left sets | clipboardOn found sets
  | clipboardOff found left sets | labelled found sets | confirmed found accepted sets
  | ended names sets | forgotten sets => exact Sets.listing_none sets absent
  | pruned prunes => rw [prunes.pairAgain, absent]
  | relisted lists relists =>
    rcases lists with ⟨fingerprint, label, since, rfl⟩ | ⟨authorized, revoked, now, rfl⟩
    · rw [← isNext]
      exact listing_listToPairAgain absent other
    · exact absurd trivial other

theorem Lacks.step {store : TrustStore} (formed : Formed store) {fp : String}
    (lacks : Lacks store fp) {verb : Verb} (leases : ¬ Leases fp verb) (lists : ¬ Lists fp verb) :
    Lacks (store.step verb) fp :=
  ⟨leaseAt_step_none formed lacks.lease leases, listing_step_none formed lacks.listing lists⟩

theorem lacks_forget (store : TrustStore) (valid : validFingerprint fp = true) :
    Lacks (store.step (.forget fp)) fp := by
  have gone : store.step (.forget fp) = (store.unlist fp).removeEntry fp := by
    change (store.forget fp).2 = _
    rw [forget, key_of_valid valid]
  rw [gone]
  constructor
  · simp
  · simp

end Verbs

/-! ## The rows on disk -/

/-- The rows of the store file, if this machine sealed one it can read. -/
def rowsOn (authority : AuthorityBlock) (disk : Disk) : List LeaseRecord :=
  match readStore authority disk.trust with
  | .ok (some body) =>
    match body.contents with
    | .ok (_, _, rows) => rows
    | .error _ => []
  | _ => []

/-- This machine sealed a store file. -/
def Present (authority : AuthorityBlock) (disk : Disk) : Prop :=
  ∃ body, readStore authority disk.trust = .ok (some body)

theorem rowsOn_congr {authority : AuthorityBlock} {disk disk' : Disk}
    (same : disk'.trust = disk.trust) : rowsOn authority disk' = rowsOn authority disk := by
  simp only [rowsOn, same]

theorem rowsOn_sealed {authority : AuthorityBlock} {disk : Disk} {serial writtenAt : Nat}
    {rows : List LeaseRecord}
    (found : disk.trust = some (.sealed authority (.store (.v2 serial writtenAt rows)))) :
    rowsOn authority disk = rows := by
  simp [rowsOn, readStore_sealed found, StoreBody.contents]

/-- What a save leaves in the file: the rows that were there, or the ones it was given. -/
structure Leaves (authority : AuthorityBlock) (disk disk' : Disk) (rows : List LeaseRecord) :
    Prop where
  rows : rowsOn authority disk' = rowsOn authority disk ∨ rowsOn authority disk' = rows
  present : Present authority disk → Present authority disk'

theorem Leaves.refl (authority : AuthorityBlock) (disk : Disk) (rows : List LeaseRecord) :
    Leaves authority disk disk rows :=
  ⟨.inl rfl, id⟩

section Loading

variable [Lowercase] {authority : AuthorityBlock} {disk : Disk} {fp : String}

theorem leaves_saved {file : TrustFile} {reading : Nat} {rows : List LeaseRecord}
    {out : Outcome} (saved : Saved authority file disk reading rows out) :
    Leaves authority disk out.2.2 rows ∧
      (out.1 = .ok () → rowsOn authority out.2.2 = rows ∧ Present authority out.2.2) := by
  cases saved with
  | nowhere trust floor serial seconds =>
    refine ⟨⟨.inl (rowsOn_congr trust), fun present => ?_⟩, nofun⟩
    rw [Present, trust]
    exact present
  | store checked trust floor serial seconds =>
    exact ⟨⟨.inr (rowsOn_sealed trust), fun _ => ⟨_, readStore_sealed trust⟩⟩, nofun⟩
  | floor checked trust floor serial seconds =>
    exact ⟨⟨.inr (rowsOn_sealed trust), fun _ => ⟨_, readStore_sealed trust⟩⟩,
      fun _ => ⟨rowsOn_sealed trust, _, readStore_sealed trust⟩⟩

/-- A row of this kind names a device. -/
def Names (rows : List LeaseRecord) (kind : DiskState) (fp : String) : Prop :=
  ∃ row ∈ rows, row.state = kind ∧ canonicalFingerprint row.fingerprint = some fp

theorem not_names_recordsOf {store : TrustStore} (formed : Formed store) :
    (store.leaseAt fp = none → ¬ Names (recordsOf store) .active fp) ∧
      (store.pairAgain[fp]? = none → ¬ Names (recordsOf store) .pairAgain fp) := by
  constructor
  · rintro absent ⟨row, member, isActive, found⟩
    rcases mem_recordsOf.mp member with ⟨named, lease, held, -, rfl⟩ | ⟨named, listing, held, rfl⟩
    · rw [recordOfLease, canonicalized_of_valid (formed.lease named lease held).valid] at found
      obtain rfl := Option.some.inj found
      rw [held] at absent
      cases absent
    · cases isActive
  · rintro absent ⟨row, member, isListing, found⟩
    rcases mem_recordsOf.mp member with ⟨named, lease, held, -, rfl⟩ | ⟨named, listing, held, rfl⟩
    · cases isListing
    · rw [recordOfListing, canonicalized_of_valid (formed.listed named listing held).1]
        at found
      obtain rfl := Option.some.inj found
      rw [held] at absent
      cases absent

theorem rebuildOne_none {ours : String} {done : TrustStore × List Refusal} {row : LeaseRecord}
    (formed : Formed done.1) {fp : String} :
    (done.1.leaseAt fp = none → ¬ Names [row] .active fp →
        (rebuildOne ours done row).1.leaseAt fp = none) ∧
      (done.1.pairAgain[fp]? = none → ¬ Names [row] .pairAgain fp →
        (rebuildOne ours done row).1.pairAgain[fp]? = none) := by
  have names : ∀ {kind}, row.state = kind → ¬ Names [row] kind fp →
      canonicalFingerprint row.fingerprint ≠ some fp :=
    fun isKind other found => other ⟨row, mem_singleton_self row, isKind, found⟩
  unfold rebuildOne
  dsimp only
  cases kind : row.state with
  | revoked => exact ⟨fun absent _ => absent, fun absent _ => absent⟩
  | pairAgain =>
    have listed : ∀ out : TrustStore × List Refusal,
        out.1 = done.1.step (.listToPairAgain row.fingerprint row.label row.issuedAt) →
        (done.1.leaseAt fp = none → ¬ Names [row] .active fp → out.1.leaseAt fp = none) ∧
          (done.1.pairAgain[fp]? = none → ¬ Names [row] .pairAgain fp →
            out.1.pairAgain[fp]? = none) := by
      intro out isOut
      rw [isOut]
      constructor
      · refine fun absent _ => leaseAt_step_none formed absent ?_
        rintro ⟨approval, made, -⟩
        cases made
      · exact fun absent other => listing_step_none formed absent (names kind other)
    apply listed
    rw [TrustStore.step]
    cases done.1.listToPairAgain row.fingerprint row.label row.issuedAt <;> rfl
  | active =>
    dsimp only
    split
    · exact ⟨fun absent _ => absent, fun absent _ => absent⟩
    · have admitted : ∀ out : TrustStore × List Refusal,
          out.1 = done.1.step (.admitLease (leaseOfRecord ours row)) →
          (done.1.leaseAt fp = none → ¬ Names [row] .active fp → out.1.leaseAt fp = none) ∧
            (done.1.pairAgain[fp]? = none → ¬ Names [row] .pairAgain fp →
              out.1.pairAgain[fp]? = none) := by
        intro out isOut
        rw [isOut]
        exact ⟨fun absent other => leaseAt_step_none formed absent (names kind other),
          fun absent _ => listing_step_none formed absent id⟩
      apply admitted
      rw [TrustStore.step]
      cases done.1.admitLease (leaseOfRecord ours row) <;> rfl

theorem names_cons {row : LeaseRecord} {rows : List LeaseRecord} {kind : DiskState}
    (absent : ¬ Names (row :: rows) kind fp) : ¬ Names [row] kind fp ∧ ¬ Names rows kind fp := by
  constructor
  · rintro ⟨other, member, found⟩
    rw [mem_singleton] at member
    exact absent ⟨other, member ▸ mem_cons_self, found⟩
  · rintro ⟨other, member, found⟩
    exact absent ⟨other, mem_cons_of_mem row member, found⟩

/-- A store that is loaded holds what the rows name. -/
theorem rebuild_none {ours : String} {rows : List LeaseRecord} {done : TrustStore × List Refusal}
    (formed : Formed done.1) {fp : String} :
    (done.1.leaseAt fp = none → ¬ Names rows .active fp →
        (rows.foldl (rebuildOne ours) done).1.leaseAt fp = none) ∧
      (done.1.pairAgain[fp]? = none → ¬ Names rows .pairAgain fp →
        (rows.foldl (rebuildOne ours) done).1.pairAgain[fp]? = none) := by
  induction rows generalizing done with
  | nil => exact ⟨fun absent _ => absent, fun absent _ => absent⟩
  | cons row rest ih =>
    have next : Formed (rebuildOne ours done row).1 := by
      rcases rebuildOne_step ours done row with same | admitted | listed
      · rw [same]
        exact formed
      · rw [admitted]
        exact formed.step _
      · rw [listed]
        exact formed.step _
    have one := @rebuildOne_none _ ours done row formed fp
    have later := ih next
    constructor
    · intro absent other
      obtain ⟨here, there⟩ := names_cons other
      exact later.1 (one.1 absent here) there
    · intro absent other
      obtain ⟨here, there⟩ := names_cons other
      exact later.2 (one.2 absent here) there

/-- What a start makes of the store file. -/
structure Loads (authority : AuthorityBlock) (disk : Disk) (process : Process) (disk' : Disk) :
    Prop where
  formed : Formed process.store
  lease : ∀ fp, ¬ Names (rowsOn authority disk) .active fp → process.store.leaseAt fp = none
  listing : Present authority disk → ∀ fp, ¬ Names (rowsOn authority disk) .pairAgain fp →
    process.store.pairAgain[fp]? = none
  leaves : Leaves authority disk disk' (recordsOf process.store)
  present : Present authority disk'
  saver : process.saver.isPending = false

theorem startService_loads {ours : String} {disk' : Disk} {boot : Boot} {process : Process}
    (started : startService authority ours disk boot = (some process, disk')) :
    Loads authority disk process disk' := by
  have formed : Formed process.store := by
    have sound := Daemon.startService_started authority ours disk boot
    rw [started] at sound
    exact sound.formed process rfl
  unfold startService at started
  cases opensAs : open_ authority disk with
  | error e =>
    rw [opensAs] at started
    cases started
  | ok opened =>
    rw [opensAs] at started
    obtain ⟨seconds, floorSerial, -, outcome⟩ := open_ok.mp opensAs
    obtain ⟨file, loaded⟩ := opened
    cases loaded with
    | present serial writtenAt leases =>
      rcases outcome with ⟨-, absent⟩ | ⟨body, serial', writtenAt', rows, isStore, contents, -,
        -, isOpened⟩
      · cases absent
      · obtain ⟨-, isLoaded⟩ := Prod.mk.inj isOpened
        cases isLoaded
        have onDisk : rowsOn authority disk = leases := by
          simp only [rowsOn, isStore, contents]
        have there : Present authority disk := ⟨body, isStore⟩
        dsimp only at started
        unfold Trust.start at started
        cases built : rebuild ours (file.now boot.rebuilt) leases with
        | error e =>
          rw [built] at started
          cases started
        | ok result =>
          obtain ⟨store, refused⟩ := result
          have isBuilt := built
          obtain ⟨fresh, made, folded⟩ := bind_ok.mp isBuilt
          obtain ⟨-, -, noEntries, noListings⟩ := new_ok made
          have none_ := fun fp => @rebuild_none _ ours leases (fresh, []) (formed_new made) fp
          rw [Except.ok.inj folded] at none_
          have lease : ∀ fp, ¬ Names (rowsOn authority disk) .active fp →
              store.leaseAt fp = none := by
            rw [onDisk]
            exact fun fp => (none_ fp).1 (by simp [leaseAt, noEntries])
          have listing : ∀ fp, ¬ Names (rowsOn authority disk) .pairAgain fp →
              store.pairAgain[fp]? = none := by
            rw [onDisk]
            exact fun fp => (none_ fp).2 (by simp [noListings])
          obtain ⟨leaves, -⟩ := leaves_saved (save_saved authority file disk
            boot.saved (recordsOf store) boot.faults)
          rw [built] at started
          simp only [bind, Except.bind] at started
          split at started
          · cases started
          · next saved succeeded =>
            split at succeeded
            · cases succeeded
              cases started
              exact ⟨formed, lease, fun _ => listing, leaves, leaves.present there, rfl⟩
            · cases succeeded
              cases started
              exact ⟨formed, lease, fun _ => listing, .refl _ _ _, there, rfl⟩
    | absent =>
      rcases outcome with ⟨isStore, -⟩ | ⟨body, serial, writtenAt, rows, -, -, -, -, isOpened⟩
      · dsimp only at started
        cases made : TrustStore.new ours (file.now boot.rebuilt) with
        | error e =>
          rw [made] at started
          cases started
        | ok store =>
          rw [made] at started
          obtain ⟨-, -, noEntries, -⟩ := new_ok made
          have relists := migrateFromConfig_relists store boot.authorized boot.revoked
            (file.now boot.migrated)
          obtain ⟨leaves, written⟩ := leaves_saved (save_saved authority file disk
            boot.saved (recordsOf (store.migrateFromConfig boot.authorized boot.revoked
              (file.now boot.migrated)).2) boot.faults)
          dsimp only at started
          split at started
          · cases started
          · next out file' disk'' saved =>
            cases started
            rw [saved] at leaves written
            refine ⟨formed, fun fp _ => ?_, ?_, leaves, (written rfl).2, rfl⟩
            · change (store.migrateFromConfig _ _ _).2.leaseAt fp = none
              rw [relists.leaseAt]
              simp [leaseAt, noEntries]
            · rintro ⟨body, found⟩
              rw [isStore] at found
              cases found
      · cases (Prod.mk.inj isOpened).2

theorem startService_unleased {ours : String} {disk' : Disk} {boot : Boot}
    {process : Option Process} (started : startService authority ours disk boot = (process, disk'))
    (absent : ¬ Names (rowsOn authority disk) .active fp) :
    ¬ Names (rowsOn authority disk') .active fp := by
  cases process with
  | some process =>
    have loads := startService_loads started
    rcases loads.leaves.rows with same | written
    · rwa [same]
    · rw [written]
      exact (not_names_recordsOf loads.formed).1 (loads.lease fp absent)
  | none =>
    unfold startService at started
    split at started
    · cases started
      exact absent
    · split at started
      · cases started
        exact absent
      · cases started
    · next file opensAs =>
      split at started
      · cases started
        exact absent
      · next store made =>
        obtain ⟨-, -, noEntries, -⟩ := new_ok made
        let verb := Verb.migrateFromConfig boot.authorized boot.revoked (file.now boot.migrated)
        have formed : Formed (store.step verb) := (formed_new made).step verb
        have none_ : (store.step verb).leaseAt fp = none := by
          refine leaseAt_step_none (formed_new made) (by simp [leaseAt, noEntries]) ?_
          rintro ⟨approval, made, -⟩
          cases made
        obtain ⟨leaves, -⟩ := leaves_saved (save_saved authority file disk
          boot.saved (recordsOf (store.step verb)) boot.faults)
        dsimp only at started
        split at started
        · next error file' _ saved =>
          cases started
          change file.save authority disk boot.saved (recordsOf (store.step verb))
            boot.faults = _ at saved
          rw [saved] at leaves
          rcases leaves.rows with same | written
          · change rowsOn authority disk' = _ at same
            rwa [same]
          · change rowsOn authority disk' = _ at written
            rw [written]
            exact (not_names_recordsOf formed).1 none_
        · cases started

end Loading

end HopsFormal.Removal.ByHand
