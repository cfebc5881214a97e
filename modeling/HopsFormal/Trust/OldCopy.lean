import HopsFormal.Trust.CrashSafe
import HopsFormal.Trust.Persistence

/-!
# The copy of a version 1 store

The first save over a version 1 store copies it aside, and a save that drops a
record the copy holds deletes the copy before it writes.  Reading the copy may
fail where the store itself reads; the copy is then left as it is.  A crash cuts
a save off: the operations it does not reach count among its faults, and the
handle is gone.
-/

namespace HopsFormal.Trust.TrustFile

open Option

/-- A handle, and whether the copy could not be read when it last looked. -/
structure Handle where
  file : TrustFile
  unread : Bool

def Handle.reading (file : TrustFile) (copyRead : Bool) : Handle :=
  if copyRead then ⟨file, false⟩ else ⟨{ file with v1Copy := none }, true⟩

/-- The disk and, while a process runs, its handle. -/
structure CopySystem where
  disk : Disk
  handle : Option Handle

/-- What happens, with whether the copy can be read where it is read. -/
inductive CopyEvent where
  | open_ (readable copyRead : Bool)
  | save (reading : Nat) (leases : List LeaseRecord) (faults : Faults) (copyRead : Bool)
  | crash

/-- A save that reaches its writes has deleted the copies it meant to delete. -/
def CopyEvent.Deletes : CopyEvent → Prop
  | .save _ _ faults _ =>
    faults.deleteTrust = true → faults.sealStore = true ∨ faults.writeStore = true
  | _ => True

/-- The copies are kept, and the one of the store is read again. -/
def keepAndRead (authority : AuthorityBlock) (handle : Handle) (disk : Disk) (faults : Faults)
    (copyRead : Bool) : Except TrustFileError Unit × Handle × Disk :=
  match keepCopies authority handle.file disk faults with
  | (.error e, file, disk) => (.error e, ⟨file, handle.unread⟩, disk)
  | (.ok (), file, disk) =>
    (.ok (), if handle.file.v1Found.isSome then .reading file copyRead else ⟨file, handle.unread⟩,
      disk)

section Lowercase

variable [Lowercase]

def saveReading (authority : AuthorityBlock) (handle : Handle) (disk : Disk) (reading : Nat)
    (leases : List LeaseRecord) (faults : Faults) (copyRead : Bool) :
    Except TrustFileError Unit × Handle × Disk :=
  match validate leases with
  | .error why => (.error (.invalid why), handle, disk)
  | .ok () =>
    match keepAndRead authority handle disk faults copyRead with
    | (.error e, handle, disk) => (.error e, handle, disk)
    | (.ok (), handle, disk) =>
      let (file, disk) := deleteV1CopyIfDropped handle.file disk leases faults
      let (answer, file, disk) := writeFiles authority file disk reading leases faults
      (answer, ⟨file, handle.unread⟩, disk)

def CopySystem.step (authority : AuthorityBlock) (system : CopySystem) : CopyEvent → CopySystem
  | .open_ readable copyRead =>
    { system with
      handle :=
        if readable then
          match open_ authority system.disk with
          | .ok opened => some (.reading opened.1 copyRead)
          | .error _ => none
        else none }
  | .save reading leases faults copyRead =>
    match system.handle with
    | none => system
    | some handle =>
      let out := saveReading authority handle system.disk reading leases faults copyRead
      ⟨out.2.2, some out.2.1⟩
  | .crash => { system with handle := none }

def CopySystem.run (authority : AuthorityBlock) (system : CopySystem)
    (events : List CopyEvent) : CopySystem :=
  events.foldl (CopySystem.step authority) system

/-! ## What is on disk -/

/-- The store on disk is one of the first version. -/
def Version1 (authority : AuthorityBlock) (disk : Disk) : Prop :=
  ∃ body, readStore authority disk.trust = .ok (some body) ∧ body.isVersion1 = true

/-- The copies are as they were, or gone. -/
structure CopiesStay (before after : Disk) : Prop where
  trust : after.trustV1Copy = before.trustV1Copy ∨ after.trustV1Copy = none
  floor : after.floorV1Copy = before.floorV1Copy ∨ after.floorV1Copy = none

/-- The files of the store are as they were. -/
structure FilesStay (before after : Disk) : Prop where
  trust : after.trust = before.trust
  floor : after.floor = before.floor

variable {authority : AuthorityBlock} {disk : Disk}

section

omit [Lowercase]

theorem readV1Copy_congr {before after : Disk} (same : after.trustV1Copy = before.trustV1Copy) :
    readV1Copy authority after = readV1Copy authority before := by
  simp only [readV1Copy, same]

theorem readV1Copy_none (gone : disk.trustV1Copy = none) : readV1Copy authority disk = none := by
  simp only [readV1Copy, gone, readStore]

theorem version1_congr {before after : Disk} (same : after.trust = before.trust) :
    Version1 authority after ↔ Version1 authority before := by
  simp only [Version1, same]

end

/-! ## The invariant -/

/-- The handle knows a version 1 store when it stands on disk, and the copy once it is made. -/
structure Knows (authority : AuthorityBlock) (handle : Handle) (disk : Disk) : Prop where
  found : Version1 authority disk → ∃ text floor, disk.trust = some text ∧
    handle.file.v1Found = some (text, floor)
  copy : handle.unread = false → handle.file.v1Found = none →
    ∀ held, readV1Copy authority disk = some held → handle.file.v1Copy = some held
  blind : handle.unread = true → handle.file.v1Copy = none

def CopySystem.Knowing (authority : AuthorityBlock) (system : CopySystem) : Prop :=
  ∀ handle, system.handle = some handle → Knows authority handle system.disk

omit [Lowercase] in
theorem Knows.reading {file : TrustFile}
    (found : Version1 authority disk → ∃ text floor, disk.trust = some text ∧
      file.v1Found = some (text, floor)) (copy : file.v1Copy = readV1Copy authority disk)
    (copyRead : Bool) : Knows authority (.reading file copyRead) disk := by
  cases copyRead with
  | true => exact ⟨found, fun _ _ held read => copy.trans read, nofun⟩
  | false => exact ⟨found, nofun, fun _ => rfl⟩

theorem open_knows {opened : TrustFile × Loaded} (opens : open_ authority disk = .ok opened)
    (copyRead : Bool) : Knows authority (.reading opened.1 copyRead) disk := by
  obtain ⟨seconds, floorSerial, -, ⟨absent, rfl⟩ |
    ⟨body, serial, writtenAt, leases, present, -, -, -, rfl⟩⟩ := open_ok.mp opens
  · refine .reading ?_ rfl copyRead
    rintro ⟨body, read, -⟩
    rw [absent] at read
    cases read
  · refine .reading ?_ rfl copyRead
    rintro ⟨again, read, version1⟩
    obtain rfl : body = again := by
      rw [present] at read
      exact Option.some.inj (Except.ok.inj read)
    cases trust : disk.trust with
    | none =>
      rw [trust] at present
      cases present
    | some text => exact ⟨text, disk.floor, rfl, by rw [version1]; rfl⟩

/-! ## The steps of a save -/

/-- What keeping the copies does. -/
structure Kept (authority : AuthorityBlock) (handle : Handle) (disk : Disk)
    (out : Except TrustFileError Unit × Handle × Disk) : Prop where
  files : FilesStay disk out.2.2
  found : out.2.1.file.v1Found = handle.file.v1Found
  trustKept : ∀ copy, disk.trustV1Copy = some copy → out.2.2.trustV1Copy = some copy
  floorKept : ∀ copy, disk.floorV1Copy = some copy → out.2.2.floorV1Copy = some copy
  made : ∀ text floor, handle.file.v1Found = some (text, floor) → out.1 = .ok () →
    out.2.2.trustV1Copy = some (disk.trustV1Copy.getD text)
  failed : out.1 ≠ .ok () → handle.file.v1Found ≠ none
  copy : out.1 = .ok () → out.2.1.unread = false → Knows authority handle disk →
    ∀ held, readV1Copy authority out.2.2 = some held → out.2.1.file.v1Copy = some held

omit [Lowercase] in
theorem keepAndRead_kept (authority : AuthorityBlock) (handle : Handle) (disk : Disk)
    (faults : Faults) (copyRead : Bool) :
    Kept authority handle disk (keepAndRead authority handle disk faults copyRead) := by
  have stays : ∀ (copy : Option Text) (text kept : Text), copy = some kept →
      some (copy.getD text) = some kept := by
    rintro _ text kept rfl
    rfl
  have read : ∀ (file : TrustFile) (after : Disk), file.v1Copy = readV1Copy authority after →
      (Handle.reading file copyRead).unread = false → ∀ held,
      readV1Copy authority after = some held →
      (Handle.reading file copyRead).file.v1Copy = some held := by
    intro file after known
    cases copyRead with
    | true => exact fun _ held holds => known.trans holds
    | false => exact nofun
  have found : ∀ file : TrustFile, (Handle.reading file copyRead).file.v1Found = file.v1Found := by
    intro file
    cases copyRead <;> rfl
  unfold keepAndRead keepCopies
  cases v1 : handle.file.v1Found with
  | none =>
    exact
      { files := ⟨rfl, rfl⟩
        found := rfl
        trustKept := fun _ copy => copy
        floorKept := fun _ copy => copy
        made := fun _ _ some => absurd (v1.symm.trans some) nofun
        failed := fun error => absurd rfl error
        copy := fun _ readable knows => knows.copy readable v1 }
  | some files =>
    obtain ⟨trust, floor⟩ := files
    dsimp only [isSome_some]
    cases copyTrust : faults.copyTrust with
    | true =>
      exact
        { files := ⟨rfl, rfl⟩
          found := rfl
          trustKept := fun _ copy => copy
          floorKept := fun _ copy => copy
          made := nofun
          failed := fun _ => by rw [v1]; exact some_ne_none _
          copy := nofun }
    | false =>
      have made : ∀ text other, handle.file.v1Found = some (text, other) →
          some (disk.trustV1Copy.getD trust) = some (disk.trustV1Copy.getD text) := by
        intro text other some
        obtain ⟨rfl, -⟩ := Prod.mk.inj (Option.some.inj (v1.symm.trans some))
        rfl
      cases floor with
      | none =>
        exact
          { files := ⟨rfl, rfl⟩
            found := (found _).trans v1.symm
            trustKept := fun copy => stays _ trust copy
            floorKept := fun _ copy => copy
            made := fun text other some _ => made text other some
            failed := fun error => absurd rfl error
            copy := fun _ readable _ => read _ _ rfl readable }
      | some floor =>
        dsimp only [if_neg Bool.false_ne_true]
        cases copyFloor : faults.copyFloor with
        | true =>
          exact
            { files := ⟨rfl, rfl⟩
              found := rfl
              trustKept := fun copy => stays _ trust copy
              floorKept := fun _ copy => copy
              made := nofun
              failed := fun _ => by rw [v1]; exact some_ne_none _
              copy := nofun }
        | false =>
          exact
            { files := ⟨rfl, rfl⟩
              found := (found _).trans v1.symm
              trustKept := fun copy => stays _ trust copy
              floorKept := fun copy => stays _ floor copy
              made := fun text other some _ => made text other some
              failed := fun error => absurd rfl error
              copy := fun _ readable _ => read _ _ rfl readable }

omit [Lowercase] in
theorem keepAndRead_blind (authority : AuthorityBlock) (disk : Disk) {handle : Handle}
    (blind : handle.unread = true → handle.file.v1Copy = none) (faults : Faults) (copyRead : Bool)
    (unread : (keepAndRead authority handle disk faults copyRead).2.1.unread = true) :
    (keepAndRead authority handle disk faults copyRead).2.1.file.v1Copy = none := by
  have read : ∀ file : TrustFile, (Handle.reading file copyRead).unread = true →
      (Handle.reading file copyRead).file.v1Copy = none := by
    intro file
    cases copyRead <;> simp [Handle.reading]
  revert unread
  unfold keepAndRead keepCopies
  cases handle.file.v1Found with
  | none => exact blind
  | some files =>
    obtain ⟨trust, floor⟩ := files
    dsimp only [isSome_some]
    cases faults.copyTrust with
    | true => exact blind
    | false =>
      cases floor with
      | none => exact read _
      | some floor =>
        cases faults.copyFloor with
        | true => exact blind
        | false => exact read _

/-- What deleting the copies does, when a copy that is to go goes. -/
structure Dropped (authority : AuthorityBlock) (file : TrustFile) (disk : Disk)
    (leases : List LeaseRecord) (faults : Faults) (out : TrustFile × Disk) : Prop where
  files : FilesStay disk out.2
  found : out.1.v1Found = file.v1Found
  copies : CopiesStay disk out.2
  copy : (∀ held, readV1Copy authority disk = some held → file.v1Copy = some held) →
    ∀ held, readV1Copy authority out.2 = some held →
      out.1.v1Copy = some held ∧ (faults.deleteTrust = false → droppedFromCopy held leases = [])
  unknown : file.v1Copy = none → out = (file, disk)

theorem deleteV1CopyIfDropped_dropped (authority : AuthorityBlock) (file : TrustFile)
    (disk : Disk) (leases : List LeaseRecord) (faults : Faults) :
    Dropped authority file disk leases faults (deleteV1CopyIfDropped file disk leases faults) := by
  unfold deleteV1CopyIfDropped
  cases v1 : file.v1Copy with
  | none =>
    exact
      { files := ⟨rfl, rfl⟩
        found := rfl
        copies := ⟨.inl rfl, .inl rfl⟩
        copy := fun known held holds => by
          rw [v1] at known
          cases known held holds
        unknown := fun _ => rfl }
  | some held =>
    dsimp only
    cases dropped : (droppedFromCopy held leases).isEmpty with
    | true =>
      exact
        { files := ⟨rfl, rfl⟩
          found := rfl
          copies := ⟨.inl rfl, .inl rfl⟩
          copy := fun known other holds => by
            obtain rfl := Option.some.inj (v1.symm.trans (known other holds))
            exact ⟨v1, fun _ => List.isEmpty_iff.mp dropped⟩
          unknown := fun none => absurd (v1.symm.trans none) nofun }
    | false =>
      rw [if_neg Bool.false_ne_true]
      cases trust : faults.deleteTrust with
      | true =>
        rw [if_pos (by rfl)]
        exact
          { files := ⟨rfl, rfl⟩
            found := rfl
            copies := ⟨.inl rfl, by cases faults.deleteFloor <;> simp⟩
            copy := fun known other holds =>
              ⟨known other holds, fun deletes => by rw [trust] at deletes; cases deletes⟩
            unknown := fun none => absurd (v1.symm.trans none) nofun }
      | false =>
        have copies : ∀ kept : Option Text, CopiesStay disk
            { disk with
              trustV1Copy := none
              floorV1Copy := if faults.deleteFloor then disk.floorV1Copy else none } :=
          fun _ => ⟨.inr rfl, by cases faults.deleteFloor <;> simp⟩
        have gone : ∀ after : Disk, after.trustV1Copy = none → ∀ other,
            readV1Copy authority after = some other → False := by
          intro after none other holds
          rw [readV1Copy_none none] at holds
          cases holds
        split
        · exact
            { files := ⟨rfl, rfl⟩
              found := rfl
              copies := copies none
              copy := fun _ other holds => (gone _ rfl other holds).elim
              unknown := fun none => absurd (v1.symm.trans none) nofun }
        · exact
            { files := ⟨rfl, rfl⟩
              found := rfl
              copies := copies none
              copy := fun _ other holds => (gone _ rfl other holds).elim
              unknown := fun none => absurd (v1.symm.trans none) nofun }

/-- What writing the store and the floor does to the copies and what is known of them. -/
structure Written (authority : AuthorityBlock) (file : TrustFile) (disk : Disk)
    (leases : List LeaseRecord) (faults : Faults)
    (out : Except TrustFileError Unit × TrustFile × Disk) : Prop where
  trustCopy : out.2.2.trustV1Copy = disk.trustV1Copy
  floorCopy : out.2.2.floorV1Copy = disk.floorV1Copy
  copy : out.2.1.v1Copy = file.v1Copy
  outcome : (out.2.2.trust = disk.trust ∧ out.2.1.v1Found = file.v1Found ∧ out.1 ≠ .ok ()) ∨
    (faults.sealStore = false ∧ faults.writeStore = false ∧ out.2.1.v1Found = none ∧
      ∃ serial writtenAt, out.2.2.trust =
        some (.sealed authority (.store (.v2 serial writtenAt leases))))

omit [Lowercase] in
theorem writeFiles_written (authority : AuthorityBlock) (file : TrustFile) (disk : Disk)
    (reading : Nat) (leases : List LeaseRecord) (faults : Faults) :
    Written authority file disk leases faults
      (writeFiles authority file disk reading leases faults) := by
  unfold writeFiles
  split
  · exact ⟨rfl, rfl, rfl, .inl ⟨rfl, rfl, nofun⟩⟩
  · rename_i writes
    rw [Bool.or_eq_true, not_or, Bool.not_eq_true, Bool.not_eq_true] at writes
    split
    · exact ⟨rfl, rfl, rfl, .inr ⟨writes.1, writes.2, rfl, _, _, rfl⟩⟩
    · exact ⟨rfl, rfl, rfl, .inr ⟨writes.1, writes.2, rfl, _, _, rfl⟩⟩

/-- What a whole save does to the copies and the store. -/
structure SaveLaw (authority : AuthorityBlock) (handle : Handle) (disk : Disk)
    (leases : List LeaseRecord) (faults : Faults) (copyRead : Bool)
    (out : Except TrustFileError Unit × Handle × Disk) : Prop where
  trustKept : ∀ copy, disk.trustV1Copy = some copy →
    out.2.2.trustV1Copy = some copy ∨ out.2.2.trustV1Copy = none
  floorKept : ∀ copy, disk.floorV1Copy = some copy →
    out.2.2.floorV1Copy = some copy ∨ out.2.2.floorV1Copy = none
  knows : Knows authority out.2.1 out.2.2
  copied : Version1 authority disk → out.2.2.trust ≠ disk.trust → ∃ text,
    disk.trust = some text ∧
      (keepAndRead authority handle disk faults copyRead).2.2.trust = some text ∧
      (keepAndRead authority handle disk faults copyRead).2.2.trustV1Copy =
        some (disk.trustV1Copy.getD text)
  complete : out.1 = .ok () → (∃ serial writtenAt, out.2.2.trust =
      some (.sealed authority (.store (.v2 serial writtenAt leases)))) ∧
    ((out.2.1.unread = false ∧ ∀ held, readV1Copy authority out.2.2 = some held →
      droppedFromCopy held leases = []) ∨
      (out.2.1.unread = true ∧ out.2.2.trustV1Copy =
        (keepAndRead authority handle disk faults copyRead).2.2.trustV1Copy))

omit [Lowercase] in
theorem not_version1 {serial writtenAt : Nat} {leases : List LeaseRecord}
    (trust : disk.trust = some (.sealed authority (.store (.v2 serial writtenAt leases)))) :
    ¬ Version1 authority disk := by
  rintro ⟨body, read, version1⟩
  rw [readStore_sealed trust] at read
  obtain rfl := Option.some.inj (Except.ok.inj read)
  cases version1

theorem saveReading_law {handle : Handle} (knows : Knows authority handle disk) (reading : Nat)
    (leases : List LeaseRecord) {faults : Faults} (deletes : faults.deleteTrust = true →
      faults.sealStore = true ∨ faults.writeStore = true) (copyRead : Bool) :
    SaveLaw authority handle disk leases faults copyRead
      (saveReading authority handle disk reading leases faults copyRead) := by
  have kept := keepAndRead_kept authority handle disk faults copyRead
  unfold saveReading
  cases validate leases with
  | error why =>
    exact
      { trustKept := fun _ copy => .inl copy
        floorKept := fun _ copy => .inl copy
        knows := knows
        copied := fun _ changed => absurd rfl changed
        complete := nofun }
  | ok _ =>
    generalize keeping : keepAndRead authority handle disk faults copyRead = out at kept
    have blind := keepAndRead_blind authority disk knows.blind faults copyRead
    rw [keeping] at blind
    obtain ⟨answer, handle', copied⟩ := out
    have found' : Version1 authority copied → ∃ text floor, copied.trust = some text ∧
        handle'.file.v1Found = some (text, floor) := fun version1 => by
      rw [kept.files.trust, kept.found]
      exact knows.found ((version1_congr kept.files.trust).mp version1)
    cases answer with
    | error e =>
      exact
        { trustKept := fun copy held => .inl (kept.trustKept copy held)
          floorKept := fun copy held => .inl (kept.floorKept copy held)
          knows := ⟨found', fun _ none =>
            absurd (kept.found.symm.trans none) (kept.failed nofun), blind⟩
          copied := fun _ changed => absurd kept.files.trust changed
          complete := nofun }
    | ok _ =>
      have known := kept.copy rfl
      have dropped := deleteV1CopyIfDropped_dropped authority handle'.file copied leases faults
      dsimp only at known ⊢
      generalize deleteV1CopyIfDropped handle'.file copied leases faults = deleted at dropped
      obtain ⟨file, left⟩ := deleted
      have written := writeFiles_written authority file left reading leases faults
      generalize writeFiles authority file left reading leases faults = last at written
      obtain ⟨answer, lastFile, lastDisk⟩ := last
      have stays : ∀ held, readV1Copy authority lastDisk = some held →
          readV1Copy authority left = some held := fun held holds =>
        (readV1Copy_congr written.trustCopy).symm.trans holds
      exact
        { trustKept := fun copy held => by
            rw [written.trustCopy]
            exact dropped.copies.trust.imp_left fun same =>
              same.trans (kept.trustKept copy held)
          floorKept := fun copy held => by
            rw [written.floorCopy]
            exact dropped.copies.floor.imp_left fun same =>
              same.trans (kept.floorKept copy held)
          knows :=
            { found := fun version1 => by
                rcases written.outcome with ⟨trust, same, -⟩ | ⟨-, -, -, _, _, trust⟩
                · have trust' : lastDisk.trust = copied.trust :=
                    trust.trans dropped.files.trust
                  rw [trust', same, dropped.found]
                  exact found' ((version1_congr trust').mp version1)
                · exact absurd version1 (not_version1 trust)
              copy := fun readable _ held holds => by
                rw [written.copy]
                exact (dropped.copy (known readable knows) held (stays held holds)).1
              blind := fun unread => by
                have unknown := blind unread
                have same := dropped.unknown unknown
                cases same
                exact written.copy.trans unknown }
          copied := fun version1 changed => by
            obtain ⟨text, floor, trust, found⟩ := knows.found version1
            rw [keeping]
            exact ⟨text, trust, kept.files.trust.trans trust, kept.made text floor found rfl⟩
          complete := fun ok => by
            rcases written.outcome with ⟨-, -, failed⟩ |
              ⟨seals, writes, -, serial, writtenAt, trust⟩
            · exact absurd ok failed
            · refine ⟨⟨serial, writtenAt, trust⟩, ?_⟩
              dsimp only
              cases readable : handle'.unread with
              | true =>
                have same := dropped.unknown (blind readable)
                cases same
                rw [keeping]
                exact .inr ⟨rfl, written.trustCopy⟩
              | false =>
                refine .inl ⟨rfl, fun held holds => ?_⟩
                have deleted : faults.deleteTrust = false := by
                  cases fails : faults.deleteTrust with
                  | false => rfl
                  | true =>
                    rcases deletes fails with fault | fault
                    · rw [seals] at fault
                      cases fault
                    · rw [writes] at fault
                      cases fault
                exact (dropped.copy (known readable knows) held (stays held holds)).2 deleted }

/-! ## Runs -/

/-- What one event does, from a system whose handle knows the copy. -/
structure CopyLaw (authority : AuthorityBlock) (before after : CopySystem) (event : CopyEvent) :
    Prop where
  knowing : after.Knowing authority
  trustKept : ∀ copy, before.disk.trustV1Copy = some copy →
    after.disk.trustV1Copy = some copy ∨ after.disk.trustV1Copy = none
  floorKept : ∀ copy, before.disk.floorV1Copy = some copy →
    after.disk.floorV1Copy = some copy ∨ after.disk.floorV1Copy = none
  copied : Version1 authority before.disk → after.disk.trust ≠ before.disk.trust →
    ∃ handle reading leases faults copyRead text, before.handle = some handle ∧
      event = .save reading leases faults copyRead ∧ before.disk.trust = some text ∧
      (keepAndRead authority handle before.disk faults copyRead).2.2.trust = some text ∧
      (keepAndRead authority handle before.disk faults copyRead).2.2.trustV1Copy =
        some (before.disk.trustV1Copy.getD text)
  complete : ∀ handle reading leases faults copyRead, before.handle = some handle →
    event = .save reading leases faults copyRead →
    (saveReading authority handle before.disk reading leases faults copyRead).1 = .ok () →
    ∃ left serial writtenAt, after.handle = some left ∧
      after.disk.trust = some (.sealed authority (.store (.v2 serial writtenAt leases))) ∧
      ((left.unread = false ∧ ∀ held, readV1Copy authority after.disk = some held →
        ∀ row ∈ held, ∃ r ∈ leases, r.state = row.2 ∧ key r.fingerprint = key row.1) ∨
        (left.unread = true ∧ after.disk.trustV1Copy =
          (keepAndRead authority handle before.disk faults copyRead).2.2.trustV1Copy))

theorem none_dropped {held : List (String × DiskState)} {leases : List LeaseRecord}
    (none : droppedFromCopy held leases = []) :
    ∀ row ∈ held, ∃ r ∈ leases, r.state = row.2 ∧ key r.fingerprint = key row.1 := by
  intro row member
  unfold droppedFromCopy at none
  rw [List.filter_eq_nil_iff] at none
  have present := none row member
  rw [Bool.not_eq_true', Bool.not_eq_false, List.any_eq_true] at present
  obtain ⟨r, inside, same⟩ := present
  rw [Bool.and_eq_true, beq_iff_eq, beq_iff_eq] at same
  exact ⟨r, inside, same.1, same.2⟩

/-- What is not a save leaves the disk alone. -/
theorem CopyLaw.idle {before after : CopySystem} {event : CopyEvent}
    (knowing : after.Knowing authority) (disk : after.disk = before.disk)
    (other : ∀ reading leases faults copyRead, event ≠ .save reading leases faults copyRead) :
    CopyLaw authority before after event where
  knowing := knowing
  trustKept copy held := .inl (by rw [disk, held])
  floorKept copy held := .inl (by rw [disk, held])
  copied _ changed := absurd (congrArg Disk.trust disk) changed
  complete _ reading leases faults copyRead _ same :=
    absurd same (other reading leases faults copyRead)

theorem CopySystem.Knowing.step {system : CopySystem} (knowing : system.Knowing authority)
    {event : CopyEvent} (deletes : event.Deletes) :
    CopyLaw authority system (system.step authority event) event := by
  cases event with
  | open_ readable copyRead =>
    refine .idle ?_ rfl nofun
    intro handle held
    dsimp only [CopySystem.step] at held ⊢
    split at held
    · split at held
      · rename_i opened opens
        obtain rfl := Option.some.inj held
        exact open_knows opens copyRead
      · cases held
    · cases held
  | save reading leases faults copyRead =>
    unfold CopySystem.step
    cases held : system.handle with
    | none =>
      exact ⟨fun handle some => absurd (held.symm.trans some) nofun, fun _ copy => .inl copy,
        fun _ copy => .inl copy, fun _ changed => absurd rfl changed,
        fun _ _ _ _ _ some => absurd (held.symm.trans some) nofun⟩
    | some handle =>
      have law := saveReading_law (knowing handle held) reading leases deletes copyRead
      refine ⟨?_, law.trustKept, law.floorKept, ?_, ?_⟩
      · rintro _ ⟨⟩
        exact law.knows
      · intro version1 changed
        obtain ⟨text, trust, before, copy⟩ := law.copied version1 changed
        exact ⟨handle, reading, leases, faults, copyRead, text, held, rfl, trust, before, copy⟩
      · rintro _ _ _ _ _ same ⟨⟩ ok
        obtain rfl := Option.some.inj (held.symm.trans same)
        obtain ⟨⟨serial, writtenAt, trust⟩, copy⟩ := law.complete ok
        exact ⟨_, serial, writtenAt, rfl, trust, copy.imp_left fun ⟨readable, all⟩ =>
          ⟨readable, fun held holds => none_dropped (all held holds)⟩⟩
  | crash =>
    exact .idle nofun rfl nofun

theorem CopySystem.Knowing.run {system : CopySystem} (knowing : system.Knowing authority)
    {events : List CopyEvent} (deletes : ∀ event ∈ events, event.Deletes) :
    (system.run authority events).Knowing authority := by
  induction events generalizing system with
  | nil => exact knowing
  | cons event rest ih =>
    exact ih (knowing.step (deletes event List.mem_cons_self)).knowing
      fun later member => deletes later (List.mem_cons_of_mem _ member)

/--
Over any sequence of opens, saves, failures and crashes, from any disk: a
version 1 store is replaced only by a save that has a copy of it, or the copy
that stood there before, beside it when it writes; a copy is never written over;
and once a save is complete no copy holds a record the store on disk does not,
unless it could not be read when the handle last looked, and is left as it is.
-/
theorem old_copy_never_resurrects (authority : AuthorityBlock) (disk : Disk)
    {events : List CopyEvent} (deletes : ∀ event ∈ events, event.Deletes) {event : CopyEvent}
    (deletes' : event.Deletes) :
    let reached := CopySystem.run authority ⟨disk, none⟩ events
    CopyLaw authority reached (reached.step authority event) event := by
  have start : CopySystem.Knowing authority ⟨disk, none⟩ := nofun
  exact (start.run deletes).step deletes'

end Lowercase

/-- A version 1 store that no longer holds a machine its copy holds. -/
def diskWithOldCopy (authority : AuthorityBlock) : Disk where
  trust := some (.sealed authority (.store (.v1 3 0 [])))
  floor := none
  trustV1Copy := some (.sealed authority (.store (.v1 1 0
    [⟨"peer", "", .active, .inbound, 0, none, none, []⟩])))
  floorV1Copy := none

/-- A save cut off before its writes, and a whole one after the next start. -/
theorem old_copy_never_resurrects_cut_off :
    letI := asciiLowercase
    let authority : AuthorityBlock := ⟨"ed25519", "00"⟩
    let events : List CopyEvent :=
      [.open_ true true, .save 5 [] { deleteTrust := true, writeStore := true } true, .crash,
        .open_ true true]
    let event : CopyEvent := .save 7 [] {} true
    let reached := CopySystem.run authority ⟨diskWithOldCopy authority, none⟩ events
    CopyLaw authority reached (reached.step authority event) event ∧
      reached.disk = diskWithOldCopy authority ∧
      (reached.step authority event).disk.trustV1Copy = none := by
  let _ := asciiLowercase
  refine ⟨old_copy_never_resurrects _ _ ?_ ?_, rfl, rfl⟩
  · simp [CopyEvent.Deletes]
  · simp [CopyEvent.Deletes]

/-- A version 1 store with a machine, before any copy of it. -/
def diskOfVersion1 (authority : AuthorityBlock) : Disk where
  trust := some (.sealed authority (.store (.v1 1 0
    [⟨TrustStore.machineB, "", .active, .inbound, 0, none, none, []⟩])))
  floor := none
  trustV1Copy := none
  floorV1Copy := none

set_option maxRecDepth 8000 in
/-- The copy a save makes is not read then, and keeps the machine the save dropped. -/
theorem unread_copy_keeps_dropped :
    letI := asciiLowercase
    let authority : AuthorityBlock := ⟨"ed25519", "00"⟩
    let event : CopyEvent := .save 5 [] {} false
    let reached := CopySystem.run authority ⟨diskOfVersion1 authority, none⟩ [.open_ true true]
    event.Deletes ∧
      (∃ handle, reached.handle = some handle ∧
        (saveReading authority handle reached.disk 5 [] {} false).1 = .ok ()) ∧
      (reached.step authority event).disk.trust =
        some (.sealed authority (.store (.v2 2 5 []))) ∧
      readV1Copy authority (reached.step authority event).disk = some [(TrustStore.machineB, .active)] := by
  exact ⟨by simp [CopyEvent.Deletes], ⟨_, rfl, rfl⟩, rfl, rfl⟩

end HopsFormal.Trust.TrustFile
