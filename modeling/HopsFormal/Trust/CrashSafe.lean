import HopsFormal.Lib.Basic
import HopsFormal.Trust.File

/-!
# No lock-out and no rollback, wherever a save is cut off

The store is written before the floor.  Over every sequence of opens, saves,
failed writes and crashes the disk keeps opening, serials only move forward,
and an earlier store put back is refused as soon as the floor has passed it.
-/

namespace HopsFormal.Trust.TrustFile

open Lib

/-! ## What is on disk -/

/-- Seconds and serial of the floor file; zero without one. -/
def floorOn (authority : AuthorityBlock) (disk : Disk) : Nat × Nat :=
  match readFloor authority disk.floor with
  | .ok floor => floor
  | .error _ => (0, 0)

/-- The serial of the store file, if this machine sealed one it can read. -/
def serialOn (authority : AuthorityBlock) (disk : Disk) : Option Nat :=
  match readStore authority disk.trust with
  | .ok (some body) =>
    match body.contents with
    | .ok (serial, _, _) => some serial
    | .error _ => none
  | _ => none

variable {authority : AuthorityBlock} {disk : Disk}

theorem floorOn_congr {disk' : Disk} (same : disk'.floor = disk.floor) :
    floorOn authority disk' = floorOn authority disk := by
  simp only [floorOn, same]

theorem serialOn_congr {disk' : Disk} (same : disk'.trust = disk.trust) :
    serialOn authority disk' = serialOn authority disk := by
  simp only [serialOn, same]

theorem readFloor_sealed {body : FloorBody}
    (found : disk.floor = some (.sealed authority (.floor body))) :
    readFloor authority disk.floor = .ok (body.seconds, body.serial) := by
  simp [readFloor, verifiedBody, found]

theorem floorOn_sealed {body : FloorBody}
    (found : disk.floor = some (.sealed authority (.floor body))) :
    floorOn authority disk = (body.seconds, body.serial) := by
  simp [floorOn, readFloor_sealed found]

theorem readStore_sealed {serial writtenAt : Nat} {leases : List LeaseRecord}
    (found : disk.trust = some (.sealed authority (.store (.v2 serial writtenAt leases)))) :
    readStore authority disk.trust = .ok (some (.v2 serial writtenAt leases)) := by
  simp [readStore, verifiedBody, found]

theorem serialOn_sealed {serial writtenAt : Nat} {leases : List LeaseRecord}
    (found : disk.trust = some (.sealed authority (.store (.v2 serial writtenAt leases)))) :
    serialOn authority disk = some serial := by
  simp [serialOn, readStore_sealed found, StoreBody.contents]

theorem keepCopies_keeps (authority : AuthorityBlock) (file : TrustFile) (disk : Disk)
    (faults : Faults) :
    let out := keepCopies authority file disk faults
    out.2.1.serial = file.serial ∧ out.2.1.floorSeconds = file.floorSeconds ∧
      out.2.2.trust = disk.trust ∧ out.2.2.floor = disk.floor := by
  unfold keepCopies
  split
  · exact ⟨rfl, rfl, rfl, rfl⟩
  · split
    · exact ⟨rfl, rfl, rfl, rfl⟩
    · split
      · exact ⟨rfl, rfl, rfl, rfl⟩
      · split <;> exact ⟨rfl, rfl, rfl, rfl⟩

/-- The disk only moves forward. -/
structure Forward (authority : AuthorityBlock) (before after : Disk) : Prop where
  seconds : (floorOn authority before).1 ≤ (floorOn authority after).1
  floorSerial : (floorOn authority before).2 ≤ (floorOn authority after).2
  serial : ∀ serial, serialOn authority before = some serial →
    ∃ later, serialOn authority after = some later ∧ serial ≤ later
  written : after.trust = before.trust ∨ ∃ later, serialOn authority after = some later ∧
    ∀ serial, serialOn authority before = some serial → serial < later

theorem Forward.unchanged {before after : Disk} (trust : after.trust = before.trust)
    (floor : after.floor = before.floor) : Forward authority before after where
  seconds := by rw [floorOn_congr floor]
  floorSerial := by rw [floorOn_congr floor]
  serial serial found := ⟨serial, (serialOn_congr trust).trans found, le_refl _⟩
  written := .inl trust

section Lowercase

variable [Lowercase]

/-- The daemon starts on this disk. -/
def Opens (authority : AuthorityBlock) (disk : Disk) : Prop :=
  ∃ opened, open_ authority disk = .ok opened

variable {authority : AuthorityBlock} {disk : Disk} {serial : Nat}

theorem open_ok {opened : TrustFile × Loaded} : open_ authority disk = .ok opened ↔
      ∃ seconds floorSerial, readFloor authority disk.floor = .ok (seconds, floorSerial) ∧
        ((readStore authority disk.trust = .ok none ∧
            opened = (⟨floorSerial, seconds, none, readV1Copy authority disk⟩, .absent)) ∨
          ∃ body serial writtenAt leases, readStore authority disk.trust = .ok (some body) ∧
            body.contents = .ok (serial, writtenAt, leases) ∧ floorSerial ≤ serial ∧
            validate leases = .ok () ∧
            opened = (⟨max floorSerial serial, max seconds writtenAt,
              if body.isVersion1 then disk.trust.map fun trust => (trust, disk.floor) else none,
              readV1Copy authority disk⟩, .present serial writtenAt leases)) := by
  change Except.bind _ _ = _ ↔ _
  rw [bind_ok]
  constructor
  · rintro ⟨⟨seconds, floorSerial⟩, floorRead, rest⟩
    refine ⟨seconds, floorSerial, floorRead, ?_⟩
    obtain ⟨body, storeRead, rest⟩ := bind_ok.mp rest
    cases body with
    | none =>
      exact .inl ⟨storeRead, (Except.ok.inj rest).symm⟩
    | some body =>
      obtain ⟨⟨serial, writtenAt, leases⟩, contents, rest⟩ := bind_ok.mp rest
      dsimp only at rest
      split at rest
      · cases rest
      · rename_i current
        cases checked : validate leases with
        | error why => simp [checked] at rest
        | ok _ =>
          simp only [checked] at rest
          exact .inr ⟨body, serial, writtenAt, leases, storeRead, contents, not_lt.mp current,
            checked, (Except.ok.inj rest).symm⟩
  · rintro ⟨seconds, floorSerial, floorRead, outcome⟩
    refine ⟨(seconds, floorSerial), floorRead, ?_⟩
    rcases outcome with ⟨storeRead, rfl⟩ |
      ⟨body, serial, writtenAt, leases, storeRead, contents, current, checked, rfl⟩
    · exact bind_ok.mpr ⟨none, storeRead, rfl⟩
    · refine bind_ok.mpr ⟨some body, storeRead, ?_⟩
      refine bind_ok.mpr ⟨_, contents, ?_⟩
      simp [not_lt.mpr current, checked]

/-! ## What a save does -/

theorem deleteV1CopyIfDropped_keeps (file : TrustFile) (disk : Disk) (leases : List LeaseRecord)
    (faults : Faults) :
    let out := deleteV1CopyIfDropped file disk leases faults
    out.1.serial = file.serial ∧ out.1.floorSeconds = file.floorSeconds ∧
      out.2.trust = disk.trust ∧ out.2.floor = disk.floor := by
  unfold deleteV1CopyIfDropped
  dsimp only
  split
  · exact ⟨rfl, rfl, rfl, rfl⟩
  · split
    · exact ⟨rfl, rfl, rfl, rfl⟩
    · split <;> exact ⟨rfl, rfl, rfl, rfl⟩

/-- How far a save got: nowhere, to the store, or to the floor as well. -/
inductive Saved (authority : AuthorityBlock) (file : TrustFile) (disk : Disk) (reading : Nat)
    (leases : List LeaseRecord) : Outcome → Prop where
  | nowhere {e : TrustFileError} {file' : TrustFile} {disk' : Disk}
      (trust : disk'.trust = disk.trust) (floor : disk'.floor = disk.floor)
      (serial : file.serial ≤ file'.serial) (seconds : file'.floorSeconds = file.floorSeconds) :
      Saved authority file disk reading leases (.error e, file', disk')
  | store {e : TrustFileError} {file' : TrustFile} {disk' : Disk}
      (checked : validate leases = .ok ())
      (trust : disk'.trust = some (.sealed authority
        (.store (.v2 (file.serial + 1) (file.now reading) leases))))
      (floor : disk'.floor = disk.floor) (serial : file'.serial = file.serial + 1)
      (seconds : file'.floorSeconds = file.now reading) :
      Saved authority file disk reading leases (.error e, file', disk')
  | floor {file' : TrustFile} {disk' : Disk} (checked : validate leases = .ok ())
      (trust : disk'.trust = some (.sealed authority
        (.store (.v2 (file.serial + 1) (file.now reading) leases))))
      (floor : disk'.floor = some (.sealed authority
        (.floor ⟨floorVersion, file.now reading, file.serial + 1⟩)))
      (serial : file'.serial = file.serial + 1)
      (seconds : file'.floorSeconds = file.now reading) :
      Saved authority file disk reading leases (.ok (), file', disk')

theorem save_saved (authority : AuthorityBlock) (file : TrustFile) (disk : Disk) (reading : Nat)
    (leases : List LeaseRecord) (faults : Faults) :
    Saved authority file disk reading leases (save authority file disk reading leases faults) := by
  unfold save
  cases checked : validate leases with
  | error why => exact .nowhere rfl rfl (le_refl _) rfl
  | ok _ =>
    have kept := keepCopies_keeps authority file disk faults
    cases copied : keepCopies authority file disk faults with
    | mk result rest =>
      obtain ⟨copiedFile, copiedDisk⟩ := rest
      rw [copied] at kept
      obtain ⟨serialEq, secondsEq, trustEq, floorEq⟩ := kept
      cases result with
      | error e => exact .nowhere trustEq floorEq (le_of_eq serialEq.symm) secondsEq
      | ok _ =>
        have deleted := deleteV1CopyIfDropped_keeps copiedFile copiedDisk leases faults
        dsimp only at deleted ⊢
        generalize deleteV1CopyIfDropped copiedFile copiedDisk leases faults = out at deleted ⊢
        obtain ⟨lastFile, lastDisk⟩ := out
        obtain ⟨serialEq', secondsEq', trustEq', floorEq'⟩ := deleted
        have serial : lastFile.serial = file.serial := serialEq'.trans serialEq
        have seconds : lastFile.floorSeconds = file.floorSeconds :=
          secondsEq'.trans secondsEq
        have nowEq : lastFile.now reading = file.now reading := by
          simp only [now, seconds]
        have later : max lastFile.floorSeconds (lastFile.now reading) = file.now reading := by
          rw [nowEq, seconds]
          exact max_eq_right (le_max_right _ _)
        unfold writeFiles
        split
        · exact .nowhere (trustEq'.trans trustEq) (floorEq'.trans floorEq)
            (by rw [serial]; exact Nat.le_succ _) seconds
        · split
          · exact .store checked (by rw [serial, nowEq]) (floorEq'.trans floorEq)
              (by rw [serial]) later
          · exact .floor checked (by rw [serial, nowEq]) (by rw [later, serial])
              (by rw [serial]) later

/-! ## Runs -/

/-- The disk and, while a process runs, its handle. -/
structure System where
  disk : Disk
  handle : Option TrustFile

/-- What happens: an open that can or cannot read, a save with its faults, a crash. -/
inductive Event where
  | open_ (readable : Bool)
  | save (reading : Nat) (leases : List LeaseRecord) (faults : Faults)
  | crash

def System.step (authority : AuthorityBlock) (system : System) : Event → System
  | .open_ readable =>
    { system with
      handle :=
        if readable then
          match open_ authority system.disk with
          | .ok opened => some opened.1
          | .error _ => none
        else none }
  | .save reading leases faults =>
    match system.handle with
    | none => system
    | some file =>
      let out := save authority file system.disk reading leases faults
      ⟨out.2.2, some out.2.1⟩
  | .crash => { system with handle := none }

def System.run (authority : AuthorityBlock) (system : System) (events : List Event) : System :=
  events.foldl (System.step authority) system

/-- The disk opens, and the handle is ahead of everything on it. -/
structure Safe (authority : AuthorityBlock) (system : System) : Prop where
  opens : Opens authority system.disk
  ahead : ∀ file, system.handle = some file →
    (floorOn authority system.disk).1 ≤ file.floorSeconds ∧
    (floorOn authority system.disk).2 ≤ file.serial ∧
    ∀ serial, serialOn authority system.disk = some serial → serial ≤ file.serial

theorem Opens.current {authority : AuthorityBlock} {disk : Disk} (opens : Opens authority disk)
    {serial : Nat} (found : serialOn authority disk = some serial) :
    (floorOn authority disk).2 ≤ serial := by
  obtain ⟨opened, opensAs⟩ := opens
  obtain ⟨seconds, floorSerial, floorRead, outcome⟩ := open_ok.mp opensAs
  rcases outcome with ⟨storeRead, _⟩ |
    ⟨body, serial', writtenAt, leases, storeRead, contents, current, _⟩
  · simp [serialOn, storeRead] at found
  · simp only [serialOn, storeRead, contents, Option.some.injEq] at found
    simp only [floorOn, floorRead]
    exact found ▸ current

theorem Opens.floorRead (opens : Opens authority disk) :
    readFloor authority disk.floor = .ok (floorOn authority disk) := by
  obtain ⟨opened, opensAs⟩ := opens
  obtain ⟨seconds, floorSerial, floorRead, _⟩ := open_ok.mp opensAs
  simp only [floorOn, floorRead]

theorem opened_ahead {opened : TrustFile × Loaded} (opensAs : open_ authority disk = .ok opened) :
    (floorOn authority disk).1 ≤ opened.1.floorSeconds ∧
      (floorOn authority disk).2 ≤ opened.1.serial ∧
      ∀ serial, serialOn authority disk = some serial → serial ≤ opened.1.serial := by
  obtain ⟨seconds, floorSerial, floorRead, outcome⟩ := open_ok.mp opensAs
  rcases outcome with ⟨storeRead, rfl⟩ |
    ⟨body, serial, writtenAt, leases, storeRead, contents, current, checked, rfl⟩
  · simp [floorOn, floorRead, serialOn, storeRead]
  · simp [floorOn, floorRead, serialOn, storeRead, contents]

theorem refused_older (opens : Opens authority disk) {text : Text}
    (found : serialOn authority { disk with trust := some text } = some serial)
    (older : serial < (floorOn authority disk).2) :
    open_ authority { disk with trust := some text } =
      .error (.rolledBack serial (floorOn authority disk).2) := by
  have floorRead := opens.floorRead
  unfold serialOn at found
  cases storeRead : readStore authority (some text) with
  | error e => simp [storeRead] at found
  | ok body =>
    cases body with
    | none => simp [storeRead] at found
    | some body =>
      cases contents : body.contents with
      | error e => simp [storeRead, contents] at found
      | ok parts =>
        simp only [storeRead, contents, Option.some.injEq] at found
        subst found
        simp [open_, bind, Except.bind, floorRead, storeRead, contents, older]

theorem opens_congr {disk' : Disk} (trust : disk'.trust = disk.trust)
    (floor : disk'.floor = disk.floor) (opens : Opens authority disk) : Opens authority disk' := by
  obtain ⟨opened, opensAs⟩ := opens
  obtain ⟨seconds, floorSerial, floorRead, outcome⟩ := open_ok.mp opensAs
  rcases outcome with ⟨storeRead, _⟩ |
    ⟨body, serial, writtenAt, leases, storeRead, contents, current, checked, _⟩
  · exact ⟨_, open_ok.mpr ⟨seconds, floorSerial, floor ▸ floorRead, .inl ⟨trust ▸ storeRead, rfl⟩⟩⟩
  · exact ⟨_, open_ok.mpr ⟨seconds, floorSerial, floor ▸ floorRead,
      .inr ⟨body, serial, writtenAt, leases, trust ▸ storeRead, contents, current, checked, rfl⟩⟩⟩

theorem opens_written {writtenAt : Nat} {leases : List LeaseRecord}
    (checked : validate leases = .ok ())
    (trust : disk.trust = some (.sealed authority (.store (.v2 serial writtenAt leases))))
    {floor : Nat × Nat} (floorRead : readFloor authority disk.floor = .ok floor)
    (current : floor.2 ≤ serial) : Opens authority disk :=
  ⟨_, open_ok.mpr ⟨floor.1, floor.2, floorRead,
    .inr ⟨_, serial, writtenAt, leases, readStore_sealed trust, rfl, current, checked, rfl⟩⟩⟩

theorem Safe.save {file : TrustFile} (safe : Safe authority ⟨disk, some file⟩) {reading : Nat}
    {leases : List LeaseRecord} {out : Outcome}
    (saved : Saved authority file disk reading leases out) :
    Safe authority ⟨out.2.2, some out.2.1⟩ ∧ Forward authority disk out.2.2 := by
  obtain ⟨secondsAhead, serialAhead, storeAhead⟩ := safe.ahead file rfl
  cases saved with
  | nowhere trust floor serial seconds =>
    refine ⟨⟨opens_congr trust floor safe.opens, ?_⟩, .unchanged trust floor⟩
    rintro file' ⟨⟩
    rw [floorOn_congr floor, serialOn_congr trust, seconds]
    exact ⟨secondsAhead, le_trans serialAhead serial,
      fun serial' found => le_trans (storeAhead serial' found) serial⟩
  | store checked trust floor serial seconds =>
    have floorRead := safe.opens.floorRead
    rw [← floor] at floorRead
    have found := serialOn_sealed trust
    refine ⟨⟨opens_written checked trust floorRead (le_trans serialAhead (Nat.le_succ _)), ?_⟩,
      ?_, ?_, ?_, ?_⟩
    · rintro file' ⟨⟩
      rw [floorOn_congr floor, found, serial, seconds]
      exact ⟨le_trans secondsAhead (le_max_right _ _), le_trans serialAhead (Nat.le_succ _),
        fun serial' same => le_of_eq (Option.some.inj same).symm⟩
    · rw [floorOn_congr floor]
    · rw [floorOn_congr floor]
    · intro serial' before
      exact ⟨_, found, le_trans (storeAhead serial' before) (Nat.le_succ _)⟩
    · exact .inr ⟨_, found, fun serial' before => Nat.lt_succ_of_le (storeAhead serial' before)⟩
  | floor checked trust floor serial seconds =>
    have found := serialOn_sealed trust
    have floorFound := floorOn_sealed floor
    refine ⟨⟨opens_written checked trust (readFloor_sealed floor) (le_refl _), ?_⟩, ?_, ?_, ?_, ?_⟩
    · rintro file' ⟨⟩
      rw [floorFound, found, serial, seconds]
      exact ⟨le_refl _, le_refl _, fun serial' same => le_of_eq (Option.some.inj same).symm⟩
    · rw [floorFound]
      exact le_trans secondsAhead (le_max_right _ _)
    · rw [floorFound]
      exact le_trans serialAhead (Nat.le_succ _)
    · intro serial' before
      exact ⟨_, found, le_trans (storeAhead serial' before) (Nat.le_succ _)⟩
    · exact .inr ⟨_, found, fun serial' before => Nat.lt_succ_of_le (storeAhead serial' before)⟩

variable {system : System}

theorem Safe.step (safe : Safe authority system) (event : Event) :
    Safe authority (system.step authority event) ∧
      Forward authority system.disk (system.step authority event).disk := by
  cases event with
  | open_ readable =>
    refine ⟨⟨safe.opens, ?_⟩, .unchanged rfl rfl⟩
    intro file handle
    simp only [System.step] at handle ⊢
    cases readable with
    | false => cases handle
    | true =>
      cases opensAs : open_ authority system.disk with
      | error e => simp [opensAs] at handle
      | ok opened =>
        simp only [opensAs, if_true, Option.some.injEq] at handle
        exact handle ▸ opened_ahead opensAs
  | save reading leases faults =>
    unfold System.step
    cases handle : system.handle with
    | none => exact ⟨safe, .unchanged rfl rfl⟩
    | some file =>
      have safe' : Safe authority ⟨system.disk, some file⟩ := by
        rw [← handle]
        exact safe
      exact safe'.save (save_saved authority file system.disk reading leases faults)
  | crash => exact ⟨⟨safe.opens, by simp [System.step]⟩, .unchanged rfl rfl⟩

theorem Safe.run (safe : Safe authority system) (events : List Event) :
    Safe authority (system.run authority events) := by
  induction events generalizing system with
  | nil => exact safe
  | cons event rest ih => exact ih (safe.step event).1

/-- Whatever happens later, the floor and the serial are no lower. -/
theorem Safe.run_forward (safe : Safe authority system) (events : List Event) :
    (floorOn authority system.disk).1 ≤ (floorOn authority (system.run authority events).disk).1 ∧
    (floorOn authority system.disk).2 ≤ (floorOn authority (system.run authority events).disk).2 ∧
    ∀ serial, serialOn authority system.disk = some serial →
      ∃ later, serialOn authority (system.run authority events).disk = some later ∧
        serial ≤ later := by
  induction events generalizing system with
  | nil => exact ⟨le_refl _, le_refl _, fun serial found => ⟨serial, found, le_refl _⟩⟩
  | cons event rest ih =>
    obtain ⟨safe', forward⟩ := safe.step event
    obtain ⟨seconds, floorSerial, serials⟩ := ih safe'
    refine ⟨le_trans forward.seconds seconds, le_trans forward.floorSerial floorSerial, ?_⟩
    intro serial found
    obtain ⟨middle, middleFound, le_middle⟩ := forward.serial serial found
    obtain ⟨later, laterFound, le_later⟩ := serials middle middleFound
    exact ⟨later, laterFound, le_trans le_middle le_later⟩

theorem run_append (authority : AuthorityBlock) (system : System) (first rest : List Event) :
    system.run authority (first ++ rest) = (system.run authority first).run authority rest :=
  List.foldl_append

/--
From any disk that opens, over any sequence of opens, saves, failures and
crashes: the disk keeps opening, with a store no older than its floor; a store
that is written has a serial above that of every store before it; the floor
never decreases; and a store whose serial the floor has passed is refused.
-/
theorem crash_safe {authority : AuthorityBlock} {disk : Disk} (opens : Opens authority disk)
    (events : List Event) :
    let start : System := ⟨disk, none⟩
    let reached := start.run authority events
    Opens authority reached.disk ∧
    (∀ serial, serialOn authority reached.disk = some serial →
      (floorOn authority reached.disk).2 ≤ serial) ∧
    (∀ event, (reached.step authority event).disk.trust = reached.disk.trust ∨
      ∃ serial, serialOn authority (reached.step authority event).disk = some serial ∧
        ∀ earlier later, events = earlier ++ later → ∀ before,
          serialOn authority (start.run authority earlier).disk = some before →
          before < serial) ∧
    (∀ more, (floorOn authority reached.disk).1 ≤
          (floorOn authority (start.run authority (events ++ more)).disk).1 ∧
        (floorOn authority reached.disk).2 ≤
          (floorOn authority (start.run authority (events ++ more)).disk).2) ∧
    (∀ text serial, serialOn authority { reached.disk with trust := some text } = some serial →
      serial < (floorOn authority reached.disk).2 →
      open_ authority { reached.disk with trust := some text } =
        .error (.rolledBack serial (floorOn authority reached.disk).2)) := by
  intro start reached
  have safe : ∀ events, Safe authority (start.run authority events) :=
    Safe.run ⟨opens, by simp [start]⟩
  refine ⟨(safe events).opens, fun serial found => (safe events).opens.current found, ?_, ?_, ?_⟩
  · intro event
    rcases ((safe events).step event).2.written with same | ⟨serial, found, above⟩
    · exact .inl same
    · refine .inr ⟨serial, found, ?_⟩
      intro earlier later split before foundBefore
      obtain ⟨now, foundNow, le_now⟩ := ((safe earlier).run_forward later).2.2 before foundBefore
      rw [← run_append, ← split] at foundNow
      exact lt_of_le_of_lt le_now (above now foundNow)
  · intro more
    obtain ⟨seconds, floorSerial, _⟩ := (safe events).run_forward more
    rw [run_append]
    exact ⟨seconds, floorSerial⟩
  · intro text serial found older
    exact refused_older (safe events).opens found older

end Lowercase

/-- The disk of a machine that never ran. -/
def emptyDisk : Disk := ⟨none, none, none, none⟩

theorem opens_emptyDisk [Lowercase] (authority : AuthorityBlock) : Opens authority emptyDisk :=
  ⟨_, rfl⟩

/-- A save whose floor is cut off by a crash, and a save after the next start. -/
theorem crash_safe_cut_off :
    letI := asciiLowercase
    let authority : AuthorityBlock := ⟨"ed25519", "00"⟩
    let events : List Event :=
      [.open_ true, .save 5 [] {}, .save 7 [] { writeFloor := true }, .crash, .open_ true,
        .save 3 [] {}]
    let reached := System.run authority ⟨emptyDisk, none⟩ events
    Opens authority emptyDisk ∧ Opens authority reached.disk ∧
      floorOn authority (System.run authority ⟨emptyDisk, none⟩ (events.take 4)).disk = (5, 1) ∧
      floorOn authority reached.disk = (7, 3) ∧ serialOn authority reached.disk = some 3 := by
  have opens := @opens_emptyDisk asciiLowercase ⟨"ed25519", "00"⟩
  refine ⟨opens, (@crash_safe asciiLowercase _ _ opens _).1, rfl, rfl, rfl⟩

end HopsFormal.Trust.TrustFile
