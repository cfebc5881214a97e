import HopsFormal.Trust.Saver

/-!
# What waits to be saved, and what is said about it

A save that fails leaves its change waiting with those already waiting; the
next save that succeeds writes the whole store and clears them all.  Whatever
fails and whenever, each change that failed is told of when it fails and told
of once more when it is on disk.
-/

namespace HopsFormal.Trust

open List TrustStore TrustFile

/-- The records of the sealed store on disk. -/
def recordsOn (authority : AuthorityBlock) (disk : Disk) : Option (List LeaseRecord) :=
  match readStore authority disk.trust with
  | .ok (some (.v1 _ _ leases)) => some (leases.map LeaseRecordV1.toRecord)
  | .ok (some (.v2 _ _ leases)) => some leases
  | _ => none

theorem recordsOn_sealed {authority : AuthorityBlock} {disk : Disk} {serial writtenAt : Nat}
    {leases : List LeaseRecord}
    (trust : disk.trust = some (.sealed authority (.store (.v2 serial writtenAt leases)))) :
    recordsOn authority disk = some leases := by
  simp only [recordsOn, readStore_sealed trust]

/-- What the saver is asked to do, the clock it reads, and which writes fail. -/
inductive SaverCall where
  | saveChange (store : TrustStore) (what : String) (reading : Nat) (faults : Faults)
  | sweep (store : TrustStore) (reading : Nat) (faults : Faults)

/-- The changes waiting, each as the user would name it. -/
def TrustSaver.waiting (saver : TrustSaver) : List String :=
  (saver.unsaved.map Unsaved.changes).getD []

/-- The changes a notice says are on disk now. -/
def Notice.landed : Notice → List String
  | .saved changes => changes
  | .unsaved _ _ => []

/-- The change a notice says has just failed. -/
def Notice.newest : Notice → Option String
  | .saved _ => none
  | .unsaved changes _ => changes.getLast?

namespace SaverCall

def store : SaverCall → TrustStore
  | .saveChange store _ _ _ | .sweep store _ _ => store

def named : SaverCall → Option String
  | .saveChange _ what _ _ => some what
  | .sweep _ _ _ => none

/-- The call writes the store it is handed, or tries to. -/
def saves (saver : TrustSaver) : SaverCall → Bool
  | .saveChange _ _ _ _ => true
  | .sweep store _ _ => saver.sweeps store

section Lowercase

variable [Lowercase] (authority : AuthorityBlock)

variable (saver : TrustSaver)

/-- How the file takes the records of the store. -/
def saved (disk : Disk) : SaverCall → Outcome
  | .saveChange store _ reading faults | .sweep store reading faults =>
    saver.file.save authority disk reading (recordsOf store) faults

def failedChange (disk : Disk) (call : SaverCall) : Option String :=
  match (call.saved authority saver disk).1 with
  | .ok () => none
  | .error _ => call.named

/-- What the user is told, and what the call leaves. -/
def answered (disk : Disk) : SaverCall → Option Notice × TrustSaver × Disk
  | .saveChange store what reading faults =>
    saver.saveChange authority disk store what reading faults
  | .sweep store reading faults => saver.sweep authority disk store reading faults

/-- Everything a call can come to. -/
inductive Ends (authority : AuthorityBlock) (saver : TrustSaver) (disk : Disk)
    (call : SaverCall) : Option Notice × TrustSaver × Disk → Prop where
  | idle (idle : call.saves saver = false) (nothing : saver.unsaved = none) :
      Ends authority saver disk call (none, saver, disk)
  | landed {saver' : TrustSaver} {disk' : Disk} {notice : Option Notice} (saves : call.saves saver = true)
      (lands : (call.saved authority saver disk).1 = .ok ())
      (records : recordsOn authority disk' = some (recordsOf call.store))
      (clear : saver'.unsaved = none)
      (told : notice = if saver.waiting = [] then none else some (.saved saver.waiting)) :
      Ends authority saver disk call (notice, saver', disk')
  | failed {saver' : TrustSaver} {disk' : Disk} {notice : Option Notice} {error : TrustFileError}
      (saves : call.saves saver = true) (refused : (call.saved authority saver disk).1 = .error error)
      (waits : saver'.unsaved = some ⟨error, saver.waiting ++ call.named.toList⟩)
      (told : notice = call.named.map fun what => .unsaved (saver.waiting ++ [what]) error) :
      Ends authority saver disk call (notice, saver', disk')

theorem save_cases (disk : Disk) (store : TrustStore) (what : Option String) (reading : Nat)
    (faults : Faults) : let out := saver.save authority disk store what reading faults
    let saved := saver.file.save authority disk reading (recordsOf store) faults
    (saved.1 = .ok () ∧ recordsOn authority out.2.2 = some (recordsOf store) ∧
        out.2.1.unsaved = none ∧
        out.1 = .ok (if saver.waiting = [] then none else some saver.waiting)) ∨
      ∃ error, saved.1 = .error error ∧ out.1 = .error () ∧
        out.2.1.unsaved = some ⟨error, saver.waiting ++ what.toList⟩ := by
  have how := save_saved authority saver.file disk reading (recordsOf store) faults
  have recovered : ((saver.unsaved.map Unsaved.changes).filter fun changes => !changes.isEmpty) =
      if saver.waiting = [] then none else some saver.waiting := by
    unfold TrustSaver.waiting
    cases saver.unsaved with
    | none => rfl
    | some unsaved =>
      obtain ⟨error, changes⟩ := unsaved
      cases changes with
      | nil | cons change rest => simp
  unfold TrustSaver.save
  generalize saver.file.save authority disk reading (recordsOf store) faults = out at how
  cases how with
  | nowhere trust floor serial seconds | store checked trust floor serial seconds =>
    exact .inr ⟨_, rfl, rfl, rfl⟩
  | floor checked trust floor serial seconds =>
    exact .inl ⟨rfl, recordsOn_sealed trust, rfl, congrArg Except.ok recovered⟩

theorem answered_ends (disk : Disk) (call : SaverCall) :
    Ends authority saver disk call (call.answered authority saver disk) := by
  cases call with
  | saveChange store what reading faults =>
    have cases_ := save_cases authority saver disk store (some what) reading faults
    simp only [answered, TrustSaver.saveChange]
    generalize saver.save authority disk store (some what) reading faults = out at cases_ ⊢
    obtain ⟨result, saver', disk'⟩ := out
    rcases cases_ with ⟨lands, records, clear, rfl⟩ | ⟨error, refused, rfl, waits⟩
    · have saves : (SaverCall.saveChange store what reading faults).saves saver = true := rfl
      apply Ends.landed saves lands records clear
      split <;> rfl
    · have saves : (SaverCall.saveChange store what reading faults).saves saver = true := rfl
      apply Ends.failed saves refused waits
      simp only [TrustSaver.pendingNotice]
      rw [waits]
      simp [named]
  | sweep store reading faults =>
    simp only [answered, TrustSaver.sweep]
    cases sweeps : saver.sweeps store with
    | false =>
      apply Ends.idle
      · exact sweeps
      · simp only [TrustSaver.sweeps, Bool.not_eq_false', Bool.and_eq_true,
          Option.isNone_iff_eq_none] at sweeps
        exact sweeps.1
    | true =>
      have saves : (SaverCall.sweep store reading faults).saves saver = true := sweeps
      have cases_ := save_cases authority saver disk store none reading faults
      simp only [if_true]
      generalize saver.save authority disk store none reading faults = out at cases_ ⊢
      obtain ⟨result, saver', disk'⟩ := out
      rcases cases_ with ⟨lands, records, clear, rfl⟩ | ⟨error, refused, rfl, waits⟩
      · apply Ends.landed saves lands records clear
        split <;> rfl
      · exact Ends.failed saves refused waits rfl

end Lowercase

end SaverCall

/-! ## Runs of the saver -/

/-- A saver and its disk, everything it said, and what has happened to it. -/
structure Desk where
  saver : TrustSaver
  disk : Disk
  told : List Notice := []
  /-- The changes whose own save failed, in order. -/
  failed : List String := []
  /-- The last store a save was made of, or tried. -/
  handed : Option TrustStore := none

namespace Desk

section Lowercase

variable [Lowercase] (authority : AuthorityBlock)

/-- One call, and what is noted of it. -/
@[grind =]
def step (desk : Desk) (call : SaverCall) : Desk :=
  let out := call.answered authority desk.saver desk.disk
  { saver := out.2.1
    disk := out.2.2
    told := desk.told ++ out.1.toList
    failed := desk.failed ++ (call.failedChange authority desk.saver desk.disk).toList
    handed := if call.saves desk.saver then some call.store else desk.handed }

def run (desk : Desk) (calls : List SaverCall) : Desk :=
  calls.foldl (step authority) desk

/-- What is on disk, what waits, and what was said, kept in step. -/
structure Kept (authority : AuthorityBlock) (desk : Desk) : Prop where
  onDisk : desk.saver.unsaved = none → ∀ store, desk.handed = some store →
    recordsOn authority desk.disk = some (recordsOf store)
  landed : desk.told.flatMap Notice.landed ++ desk.saver.waiting = desk.failed
  complained : desk.told.filterMap Notice.newest = desk.failed

omit [Lowercase] in
theorem waiting_of_clear {saver : TrustSaver} (clear : saver.unsaved = none) :
    saver.waiting = [] := by
  simp [TrustSaver.waiting, clear]

omit [Lowercase] in
theorem waiting_of_waits {saver : TrustSaver} {error : TrustFileError} {changes : List String}
    (waits : saver.unsaved = some ⟨error, changes⟩) : saver.waiting = changes := by
  simp [TrustSaver.waiting, waits]

theorem Kept.step {authority : AuthorityBlock} {desk : Desk} (kept : Kept authority desk)
    (call : SaverCall) : Kept authority (desk.step authority call) := by
  have ends := call.answered_ends authority desk.saver desk.disk
  unfold Desk.step
  generalize call.answered authority desk.saver desk.disk = out at ends
  cases ends with
  | idle idle nothing =>
    have unnamed : call.failedChange authority desk.saver desk.disk = none := by
      cases call with
      | saveChange store what reading faults => cases idle
      | sweep store reading faults =>
        unfold SaverCall.failedChange
        split <;> rfl
    constructor
    · simpa only [idle, Bool.false_eq_true, if_false] using kept.onDisk
    · simpa [unnamed] using kept.landed
    · simpa [unnamed] using kept.complained
  | landed saves lands records clear told =>
    have nothing : call.failedChange authority desk.saver desk.disk = none := by
      simp only [SaverCall.failedChange, lands]
    constructor
    · intro _ store handed
      simp only [saves, if_true, Option.some.injEq] at handed
      exact handed ▸ records
    · have before := kept.landed
      rw [nothing, waiting_of_clear clear, told]
      split
      · rename_i empty
        simpa [empty] using before
      · simpa [Notice.landed] using before
    · have before := kept.complained
      rw [nothing, told]
      split
      · simpa using before
      · simpa [Notice.newest, filterMap_cons] using before
  | failed saves refused waits told =>
    have named : call.failedChange authority desk.saver desk.disk = call.named := by
      simp only [SaverCall.failedChange, refused]
    constructor
    · intro clear
      rw [waits] at clear
      cases clear
    · have before := kept.landed
      rw [named, waiting_of_waits waits, told]
      cases call.named with
      | none => simpa using before
      | some what => simp [Notice.landed, ← before]
    · have before := kept.complained
      rw [named, told]
      cases call.named with
      | none => simpa using before
      | some what => simp [Notice.newest, before]

theorem Kept.run {authority : AuthorityBlock} {desk : Desk} (kept : Kept authority desk)
    (calls : List SaverCall) : Kept authority (desk.run authority calls) := by
  induction calls generalizing desk with
  | nil => exact kept
  | cons call rest ih => exact ih (kept.step call)

theorem kept_new (file : TrustFile) (disk : Disk) :
    Kept authority { saver := .new file, disk } := by
  constructor
  · intro _ store handed
    cases handed
  · rfl
  · rfl

/-- A save that succeeds leaves nothing waiting; one that fails says all that waits. -/
theorem step_outcome (desk : Desk) {call : SaverCall} (saves : call.saves desk.saver = true) :
    ((call.saved authority desk.saver desk.disk).1 = .ok () →
        (desk.step authority call).saver.isPending = false) ∧
      ∀ error what, (call.saved authority desk.saver desk.disk).1 = .error error →
        call.named = some what →
        (desk.step authority call).told =
          desk.told ++ [.unsaved (desk.saver.waiting ++ [what]) error] := by
  have ends := call.answered_ends authority desk.saver desk.disk
  unfold Desk.step
  generalize call.answered authority desk.saver desk.disk = out at ends
  cases ends with
  | idle idle nothing => simp [saves] at idle
  | landed _ lands records clear told =>
    refine ⟨fun _ => by simp [TrustSaver.isPending, clear], ?_⟩
    intro error what refused
    rw [lands] at refused
    cases refused
  | failed _ refused waits told =>
    refine ⟨fun lands => by simp [refused] at lands, ?_⟩
    intro error what again named
    obtain rfl := Except.error.inj (refused.symm.trans again)
    simp [told, named]

/--
Over every run of calls, whatever fails: while nothing is pending the disk
holds the records of the last store a save was made of, every change that
failed is told of as it fails and is either waiting or was told of once as
saved, in order, and a save that succeeds leaves nothing pending.
-/
theorem saver_completeness (authority : AuthorityBlock) (file : TrustFile) (disk : Disk)
    (calls : List SaverCall) :
    let desk := run authority { saver := .new file, disk } calls
    (desk.saver.isPending = true ∨ ∀ store, desk.handed = some store →
        recordsOn authority desk.disk = some (recordsOf store)) ∧
      desk.told.flatMap Notice.landed ++ desk.saver.waiting = desk.failed ∧
      desk.told.filterMap Notice.newest = desk.failed ∧
      ∀ call : SaverCall, call.saves desk.saver = true →
        ((call.saved authority desk.saver desk.disk).1 = .ok () →
          (desk.step authority call).saver.isPending = false) ∧
        ∀ error what, (call.saved authority desk.saver desk.disk).1 = .error error →
          call.named = some what →
          (desk.step authority call).told =
            desk.told ++ [.unsaved (desk.saver.waiting ++ [what]) error] := by
  intro desk
  have kept : Kept authority desk := (kept_new authority file disk).run calls
  refine ⟨?_, kept.landed, kept.complained, ?_⟩
  · cases clear : desk.saver.unsaved with
    | none => exact .inr (kept.onDisk clear)
    | some unsaved => exact .inl (by simp [TrustSaver.isPending, clear])
  · intro call saves
    exact step_outcome authority desk saves

/-! ## Where a stricter rule fails -/

def listingStore {ours : String} (valid : validFingerprint ours = true) (floor : Nat)
    (fp : String) : TrustStore :=
  ⟨ours, ⟨floor⟩, ∅, (∅ : Std.ExtTreeMap String PairAgain).insert fp ⟨"", 0⟩, valid⟩

theorem recordsOf_listing {ours : String} (valid : validFingerprint ours = true) (floor : Nat)
    (fp : String) : recordsOf (listingStore valid floor fp) ≠ [] := by
  intro none
  have listed : (fp, ⟨"", 0⟩) ∈ (listingStore valid floor fp).pairAgain.toList := by
    rw [Std.ExtTreeMap.mem_toList_iff_getElem?_eq_some]
    simp [listingStore]
  have row : recordOfListing fp ⟨"", 0⟩ ∈ recordsOf (listingStore valid floor fp) := by
    rw [recordsOf, mem_mergeSort, mem_append, List.mem_map]
    exact .inr ⟨_, listed, rfl⟩
  rw [none] at row
  cases row

/-- A saver that has just opened its file. -/
def openedDesk : Desk := { saver := .new ⟨0, 0, none, none⟩, disk := emptyDisk }

theorem saved_at_once {store : TrustStore} (entries : store.entries = ∅)
    (pairAgain : store.pairAgain = ∅) (what : String) :
    openedDesk.step authority (.saveChange store what 0 {}) =
      { saver := ⟨⟨1, 0, none, none⟩, store.clock.floor, none⟩
        disk := Daemon.bareDisk authority 1 0
        handed := some store } := by
  have records := Daemon.recordsOf_nothing entries pairAgain
  simp [step, openedDesk, SaverCall.answered, SaverCall.saved, SaverCall.failedChange,
    SaverCall.saves, SaverCall.store, TrustSaver.saveChange, TrustSaver.save, TrustSaver.new,
    records, TrustFile.save, validate, validateFrom, TrustFile.keepCopies,
    TrustFile.deleteV1CopyIfDropped, TrustFile.writeFiles, TrustFile.now, TrustFile.emptyDisk,
    Daemon.bareDisk]

/-- A change that fails while another waits tells of both. -/
theorem told_again {store : TrustStore} (entries : store.entries = ∅)
    (pairAgain : store.pairAgain = ∅) (first second : String) :
    (run authority openedDesk [.saveChange store first 0 { writeStore := true },
        .saveChange store second 0 { writeStore := true }]).told =
      [.unsaved [first] .io, .unsaved [first, second] .io] := by
  have records := Daemon.recordsOf_nothing entries pairAgain
  simp [run, step, openedDesk, SaverCall.answered, TrustSaver.saveChange, TrustSaver.save,
    TrustSaver.pendingNotice, TrustSaver.new, records, save, validate, validateFrom,
    keepCopies, deleteV1CopyIfDropped, writeFiles,
    Option.filter_some]

theorem idle_sweep_unwritten {store : TrustStore} (entries : store.entries = ∅)
    (pairAgain : store.pairAgain = ∅) (what fp : String) :
    let changed := listingStore store.valid store.clock.floor fp
    let desk := run authority openedDesk [.saveChange store what 0 {}, .sweep changed 0 {}]
    desk.saver.isPending = false ∧ recordsOn authority desk.disk ≠ some (recordsOf changed) := by
  intro changed desk
  have idle : (SaverCall.sweep changed 0 {}).answered authority
      ⟨⟨1, 0, none, none⟩, store.clock.floor, none⟩ (Daemon.bareDisk authority 1 0) =
      (none, ⟨⟨1, 0, none, none⟩, store.clock.floor, none⟩, Daemon.bareDisk authority 1 0) := by
    simp [SaverCall.answered, TrustSaver.sweep, TrustSaver.sweeps, changed, listingStore]
  have ends : desk.saver.isPending = false ∧ desk.disk = Daemon.bareDisk authority 1 0 := by
    simp only [desk, run, foldl_cons, foldl_nil, saved_at_once authority entries pairAgain]
    simp only [step, idle]
    exact ⟨rfl, trivial⟩
  refine ⟨ends.1, ?_⟩
  rw [ends.2, recordsOn_sealed rfl]
  intro same
  exact recordsOf_listing _ _ fp (Option.some.inj same).symm

end Lowercase

/--
A sweep is handed a store that lists a machine the disk does not, and nothing
is pending; and of two changes that fail, the first is told of twice.
-/
theorem unsaved_store_not_pending :
    letI := asciiLowercase
    let authority : AuthorityBlock := ⟨"ed25519", "00"⟩
    let changed := listingStore freshStore.valid 0 machineB
    let desk := run authority openedDesk [.saveChange freshStore "a" 0 {}, .sweep changed 0 {}]
    (desk.saver.isPending = false ∧ recordsOn authority desk.disk ≠ some (recordsOf changed)) ∧
      (run authority openedDesk [.saveChange freshStore "a" 0 { writeStore := true },
          .saveChange freshStore "b" 0 { writeStore := true }]).told =
        [.unsaved ["a"] .io, .unsaved ["a", "b"] .io] :=
  ⟨@idle_sweep_unwritten asciiLowercase ⟨"ed25519", "00"⟩ freshStore rfl rfl "a" machineB,
    @told_again asciiLowercase ⟨"ed25519", "00"⟩ freshStore rfl rfl "a" "b"⟩

end Desk

end HopsFormal.Trust
