import HopsFormal.Trust.CrashSafe
import HopsFormal.Trust.Persistence

/-!
# Getting the store to disk, and the clock floor with it

The saver keeps a change that did not reach disk as waiting and retries it on
the sweep.  It counts the floor of the store as written after any save that
succeeds, but the file writes the floor of its own clock.  The two agree at a
save exactly when the file's clock has reached the floor of the store.
-/

namespace HopsFormal.Trust

open List TrustStore Lib
open TrustFile (floorOn save_saved floorOn_congr floorOn_sealed open_ok emptyDisk keepCopies
  writeFiles)

/-- Why the store in memory is not the store on disk. -/
structure Unsaved where
  error : TrustFileError
  changes : List String
  deriving DecidableEq

/-- What the user is told: which changes wait and why, or which got there late. -/
inductive Notice where
  | unsaved (changes : List String) (error : TrustFileError)
  | saved (changes : List String)
  deriving DecidableEq

structure TrustSaver where
  file : TrustFile
  savedFloor : Nat
  unsaved : Option Unsaved
  deriving DecidableEq

theorem lapsed_after {lease : Lease} {instant later : Nat} (lapsed : lease.lapsedBy instant = true)
    (after : instant ≤ later) : lease.lapsedBy later = true ∧ lease.isValidAt later = false := by
  unfold Lease.lapsedBy at lapsed ⊢
  unfold Lease.isValidAt
  cases expiry : lease.expiry with
  | never => simp [expiry] at lapsed
  | at_ notAfter =>
    have ended : notAfter ≤ later := by
      rw [expiry] at lapsed
      exact le_trans (of_decide_eq_true lapsed) after
    simp [ended, Nat.not_lt.mpr ended]

namespace TrustSaver

def new (file : TrustFile) : TrustSaver := ⟨file, 0, none⟩

def isPending (saver : TrustSaver) : Bool := saver.unsaved.isSome

def pendingNotice (saver : TrustSaver) : Option Notice :=
  (saver.unsaved.filter fun waiting => !waiting.changes.isEmpty).map fun waiting =>
    .unsaved waiting.changes waiting.error

section Lowercase

variable [Lowercase]

variable (authority : AuthorityBlock) (saver : TrustSaver)

/-- Write every record; a save that succeeds clears what was waiting. -/
def save (disk : Disk) (store : TrustStore) (what : Option String) (reading : Nat)
    (faults : TrustFile.Faults) : Except Unit (Option (List String)) × TrustSaver × Disk :=
  match TrustFile.save authority saver.file disk reading (recordsOf store) faults with
  | (.ok (), file, disk) =>
    (.ok ((saver.unsaved.map Unsaved.changes).filter fun changes => !changes.isEmpty),
      ⟨file, max saver.savedFloor store.clock.floor, none⟩, disk)
  | (.error error, file, disk) =>
    (.error (),
      { saver with
        file
        unsaved := some
          ⟨error, ((saver.unsaved.map Unsaved.changes).getD []) ++ what.toList⟩ }, disk)

def saveChange (disk : Disk) (store : TrustStore) (what : String) (reading : Nat)
    (faults : TrustFile.Faults) : Option Notice × TrustSaver × Disk :=
  match saver.save authority disk store (some what) reading faults with
  | (.ok saved, saver, disk) => (saved.map .saved, saver, disk)
  | (.error (), saver, disk) => (saver.pendingNotice, saver, disk)

/-- The sweep saves while anything is waiting or when the floor has moved. -/
def sweeps (store : TrustStore) : Bool :=
  !(saver.unsaved.isNone && store.clock.floor ≤ saver.savedFloor)

def sweep (disk : Disk) (store : TrustStore) (reading : Nat) (faults : TrustFile.Faults) :
    Option Notice × TrustSaver × Disk :=
  if saver.sweeps store then
    match saver.save authority disk store none reading faults with
    | (.ok saved, saver, disk) => (saved.map .saved, saver, disk)
    | (.error (), saver, disk) => (none, saver, disk)
  else (none, saver, disk)

end Lowercase

end TrustSaver

/-! ## Starting -/

/-- What one start reads: the old tables, the clock in turn, and which writes fail. -/
structure Boot where
  authorized : List (String × String) := []
  revoked : List String := []
  rebuilt : Nat
  migrated : Nat
  saved : Nat
  faults : TrustFile.Faults := {}

/-- A running daemon: its store and its saver. -/
structure Process where
  store : TrustStore
  saver : TrustSaver

/-- What a start leaves: the floor on disk no lower, and a store and a handle at or above it. -/
structure Started (authority : AuthorityBlock) (disk : Disk) (process : Option Process)
    (disk' : Disk) : Prop where
  forward : (floorOn authority disk).1 ≤ (floorOn authority disk').1
  formed : ∀ p, process = some p → Formed p.store
  ahead : ∀ p, process = some p → (floorOn authority disk').1 ≤ p.saver.file.floorSeconds
  floor : ∀ p, process = some p → (floorOn authority disk).1 ≤ p.store.clock.floor
  saved : ∀ p, process = some p → p.saver.savedFloor = 0

theorem Started.stopped {authority : AuthorityBlock} {disk disk' : Disk}
    (forward : (floorOn authority disk).1 ≤ (floorOn authority disk').1) :
    Started authority disk none disk' :=
  ⟨forward, by simp, by simp, by simp, by simp⟩

theorem Started.running {authority : AuthorityBlock} {disk disk' : Disk} {store : TrustStore}
    {file : TrustFile}
    (forward : (floorOn authority disk).1 ≤ (floorOn authority disk').1)
    (formed : Formed store)
    (ahead : (floorOn authority disk').1 ≤ file.floorSeconds)
    (floor : (floorOn authority disk).1 ≤ store.clock.floor) :
    Started authority disk (some ⟨store, .new file⟩) disk' := by
  refine ⟨forward, ?_, ?_, ?_, ?_⟩ <;> rintro p ⟨⟩
  · exact formed
  · exact ahead
  · exact floor
  · rfl

section Lowercase

variable [Lowercase]

/-- The store of a file that was there, saved at once if its rows change by loading. -/
def start (authority : AuthorityBlock) (file : TrustFile) (disk : Disk) (ours : String)
    (records : List LeaseRecord) (boot : Boot) :
    Except TrustError (TrustStore × TrustFile × Disk) := do
  let (store, _) ← rebuild ours (file.now boot.rebuilt) records
  let unconfirmed := records.any fun r => r.state == .active && !r.confirmed
  let removals := records.any fun r => r.state == .revoked
  if file.v1Found.isSome || unconfirmed || removals then
    let out := file.save authority disk boot.saved (recordsOf store) boot.faults
    .ok (store, out.2.1, out.2.2)
  else .ok (store, file, disk)

/-- Load the sealed store, or make the first one out of the old tables. -/
def startService (authority : AuthorityBlock) (ours : String) (disk : Disk) (boot : Boot) :
    Option Process × Disk :=
  match TrustFile.open_ authority disk with
  | .error _ => (none, disk)
  | .ok (file, .present _ _ leases) =>
    match start authority file disk ours leases boot with
    | .error _ => (none, disk)
    | .ok (store, file, disk) => (some ⟨store, .new file⟩, disk)
  | .ok (file, .absent) =>
    match TrustStore.new ours (file.now boot.rebuilt) with
    | .error _ => (none, disk)
    | .ok store =>
      let store := (store.migrateFromConfig boot.authorized boot.revoked (file.now boot.migrated)).2
      match file.save authority disk boot.saved (recordsOf store) boot.faults with
      | (.error _, _, disk) => (none, disk)
      | (.ok (), file, disk) => (some ⟨store, .new file⟩, disk)

/-! ## Runs of the daemon -/

/-- What happens to the store, the saver and the disk. -/
inductive Happening where
  | boot (boot : Boot)
  | verb (verb : Verb)
  | observe (reading : Nat)
  | saveChange (what : String) (reading : Nat) (faults : TrustFile.Faults)
  | sweep (reading : Nat) (faults : TrustFile.Faults)
  | crash

structure Daemon where
  disk : Disk
  process : Option Process

namespace Daemon

/-- A save by the running process, if one runs. -/
def saving (daemon : Daemon) (save : Process → Option Notice × TrustSaver × Disk) : Daemon :=
  match daemon.process with
  | none => daemon
  | some process =>
    let out := save process
    ⟨out.2.2, some { process with saver := out.2.1 }⟩

def step (authority : AuthorityBlock) (ours : String) (daemon : Daemon) : Happening → Daemon
  | .boot boot =>
    let out := startService authority ours daemon.disk boot
    ⟨out.2, out.1⟩
  | .verb verb =>
    { daemon with
      process := daemon.process.map fun process =>
        { process with store := process.store.step verb } }
  | .observe reading =>
    { daemon with
      process := daemon.process.map fun process =>
        { process with store := process.store.observe reading } }
  | .saveChange what reading faults =>
    daemon.saving fun process =>
      process.saver.saveChange authority daemon.disk process.store what reading faults
  | .sweep reading faults =>
    daemon.saving fun process =>
      process.saver.sweep authority daemon.disk process.store reading faults
  | .crash => { daemon with process := none }

def run (authority : AuthorityBlock) (ours : String) (daemon : Daemon)
    (happenings : List Happening) : Daemon :=
  happenings.foldl (step authority ours) daemon

/-! ## Which saves land -/

/-- The save this happening makes: at which reading, and which writes fail. -/
def attempt (process : Process) : Happening → Option (Nat × TrustFile.Faults)
  | .saveChange _ reading faults => some (reading, faults)
  | .sweep reading faults =>
    if process.saver.sweeps process.store then some (reading, faults) else none
  | _ => none

/-- This happening saves at `reading`, and the save succeeds. -/
def Lands (authority : AuthorityBlock) (disk : Disk) (process : Process)
    (happening : Happening) (reading : Nat) : Prop :=
  ∃ faults, attempt process happening = some (reading, faults) ∧
    (process.saver.file.save authority disk reading (recordsOf process.store) faults).1 = .ok ()

/-- A save that succeeds finds the file's clock at the floor of the store, or past it. -/
def FloorReached (authority : AuthorityBlock) (daemon : Daemon) (happening : Happening) : Prop :=
  ∀ process reading, daemon.process = some process →
    Lands authority daemon.disk process happening reading →
    process.store.clock.floor ≤ process.saver.file.now reading

def FloorsReached (authority : AuthorityBlock) (ours : String) (daemon : Daemon) :
    List Happening → Prop
  | [] => True
  | happening :: rest =>
    FloorReached authority daemon happening ∧
      FloorsReached authority ours (daemon.step authority ours happening) rest

/-- What one happening does to a running process other than starting or stopping it. -/
inductive Moves (authority : AuthorityBlock) (disk : Disk) (process : Process)
    (happening : Happening) : Daemon → Prop where
  | store {store : TrustStore} (quiet : attempt process happening = none)
      (formed : Formed process.store → Formed store)
      (floor : process.store.clock.floor ≤ store.clock.floor) :
      Moves authority disk process happening ⟨disk, some { process with store }⟩
  | landed {reading : Nat} {saver : TrustSaver} {disk' : Disk}
      (lands : Lands authority disk process happening reading)
      (checked : validate (recordsOf process.store) = .ok ())
      (trust : disk'.trust = some (.sealed authority
        (.store (.v2 (process.saver.file.serial + 1) (process.saver.file.now reading)
          (recordsOf process.store)))))
      (floor : disk'.floor = some (.sealed authority
        (.floor ⟨floorVersion, process.saver.file.now reading, process.saver.file.serial + 1⟩)))
      (seconds : saver.file.floorSeconds = process.saver.file.now reading)
      (saved : saver.savedFloor = max process.saver.savedFloor process.store.clock.floor) :
      Moves authority disk process happening ⟨disk', some { process with saver }⟩
  | failed {saver : TrustSaver} {disk' : Disk} (floor : disk'.floor = disk.floor)
      (seconds : process.saver.file.floorSeconds ≤ saver.file.floorSeconds)
      (saved : saver.savedFloor = process.saver.savedFloor)
      (refused : ∀ reading, ¬ Lands authority disk process happening reading) :
      Moves authority disk process happening ⟨disk', some { process with saver }⟩

theorem saver_save {authority : AuthorityBlock} {disk : Disk} {process : Process}
    {happening : Happening} {reading : Nat} {faults : TrustFile.Faults}
    (attempted : attempt process happening = some (reading, faults)) (what : Option String) :
    let out := process.saver.save authority disk process.store what reading faults
    Moves authority disk process happening ⟨out.2.2, some { process with saver := out.2.1 }⟩ := by
  have saved := save_saved authority process.saver.file disk reading
    (recordsOf process.store) faults
  have lands : ∀ at_, Lands authority disk process happening at_ ↔ at_ = reading ∧
      (process.saver.file.save authority disk reading (recordsOf process.store) faults).1 =
        .ok () := by
    intro at_
    simp only [Lands, attempted, Option.some.injEq, Prod.mk.injEq]
    constructor
    · rintro ⟨_, ⟨rfl, rfl⟩, succeeded⟩
      exact ⟨rfl, succeeded⟩
    · rintro ⟨rfl, succeeded⟩
      exact ⟨faults, ⟨rfl, rfl⟩, succeeded⟩
  unfold TrustSaver.save
  generalize process.saver.file.save authority disk reading (recordsOf process.store) faults = out
    at saved lands
  cases saved with
  | nowhere trust floor serial seconds =>
    exact .failed floor (le_of_eq seconds.symm) rfl fun at_ => by simp [lands]
  | store checked trust floor serial seconds =>
    refine .failed floor ?_ rfl fun at_ => by simp [lands]
    rw [seconds]
    exact le_max_right _ _
  | floor checked trust floor serial seconds =>
    exact .landed ((lands reading).mpr ⟨rfl, rfl⟩) checked trust floor seconds rfl

theorem step_moves {authority : AuthorityBlock} {ours : String} {disk : Disk} {process : Process}
    (formed : Formed process.store) {happening : Happening}
    (continues : happening ≠ .crash) (running : ∀ boot, happening ≠ .boot boot) :
    Moves authority disk process happening
      (step authority ours ⟨disk, some process⟩ happening) := by
  cases happening with
  | boot boot => exact absurd rfl (running boot)
  | crash => exact absurd rfl continues
  | verb verb => exact .store rfl (fun formed => formed.step verb) (formed.step_effect verb).floor_le
  | observe reading =>
    exact .store rfl (fun formed => formed.step (.sweep reading)) (le_max_left _ _)
  | saveChange what reading faults =>
    have attempted : attempt process (.saveChange what reading faults) = some (reading, faults) :=
      rfl
    have moves := @saver_save _ authority disk process _ _ _ attempted (some what)
    simp only [step, saving, TrustSaver.saveChange]
    generalize process.saver.save authority disk process.store (some what) reading faults = out
      at moves ⊢
    obtain ⟨result, saver, disk'⟩ := out
    cases result <;> exact moves
  | sweep reading faults =>
    simp only [step, saving, TrustSaver.sweep]
    cases sweeps : process.saver.sweeps process.store with
    | false =>
      exact .failed rfl (le_refl _) rfl fun at_ => by simp [Lands, attempt, sweeps]
    | true =>
      have attempted : attempt process (.sweep reading faults) = some (reading, faults) := by
        simp [attempt, sweeps]
      have moves := @saver_save _ authority disk process _ _ _ attempted none
      simp only [if_true]
      generalize process.saver.save authority disk process.store none reading faults = out
        at moves ⊢
      obtain ⟨result, saver, disk'⟩ := out
      cases result <;> exact moves

/-! ## A start -/

variable {authority : AuthorityBlock} {disk : Disk} {process : Process} {happening : Happening}
  {next : Daemon} {ours : String}

theorem saved_ahead {file : TrustFile} {reading : Nat} {leases : List LeaseRecord}
    {out : TrustFile.Outcome} (saved : TrustFile.Saved authority file disk reading leases out)
    (ahead : (floorOn authority disk).1 ≤ file.floorSeconds) :
    (floorOn authority disk).1 ≤ (floorOn authority out.2.2).1 ∧
      (floorOn authority out.2.2).1 ≤ out.2.1.floorSeconds := by
  have now_ge : file.floorSeconds ≤ file.now reading := le_max_right _ _
  cases saved with
  | nowhere trust floor serial seconds =>
    rw [floorOn_congr floor, seconds]
    exact ⟨le_refl _, ahead⟩
  | store checked trust floor serial seconds =>
    rw [floorOn_congr floor, seconds]
    exact ⟨le_refl _, le_trans ahead now_ge⟩
  | floor checked trust floor serial seconds =>
    rw [floorOn_sealed floor, seconds]
    exact ⟨le_trans ahead now_ge, le_refl _⟩

theorem startService_started (authority : AuthorityBlock) (ours : String) (disk : Disk)
    (boot : Boot) :
    Started authority disk (startService authority ours disk boot).1
      (startService authority ours disk boot).2 := by
  unfold startService
  cases opensAs : TrustFile.open_ authority disk with
  | error e => exact .stopped (le_refl _)
  | ok opened =>
    obtain ⟨ahead, _, _⟩ := TrustFile.opened_ahead opensAs
    obtain ⟨file, loaded⟩ := opened
    have reached : (floorOn authority disk).1 ≤ file.now boot.rebuilt :=
      le_trans ahead (le_max_right _ _)
    cases loaded with
    | present serial writtenAt leases =>
      dsimp only
      unfold start
      cases built : rebuild ours (file.now boot.rebuilt) leases with
      | error e => exact .stopped (le_refl _)
      | ok result =>
        obtain ⟨store, refused⟩ := result
        have rebuilt := rebuild_rebuilt built
        have floor := le_trans reached rebuilt.above
        have saved := save_saved authority file disk boot.saved (recordsOf store) boot.faults
        obtain ⟨forward, ahead'⟩ := saved_ahead saved ahead
        simp only [bind, Except.bind]
        split
        · rename_i failed
          split at failed <;> cases failed
        · rename_i result succeeded
          split at succeeded
          · obtain ⟨rfl, rfl, rfl⟩ := succeeded
            exact .running forward rebuilt.formed ahead' floor
          · obtain ⟨rfl, rfl, rfl⟩ := succeeded
            exact .running (le_refl _) rebuilt.formed ahead floor
    | absent =>
      dsimp only
      cases made : TrustStore.new ours (file.now boot.rebuilt) with
      | error e => exact .stopped (le_refl _)
      | ok store =>
        have clock := (new_ok made).2.1
        let verb := Verb.migrateFromConfig boot.authorized boot.revoked (file.now boot.migrated)
        have formed : Formed (store.step verb) := (formed_new made).step verb
        have kept := ((formed_new made).step_effect verb).floor_le
        have floor : (floorOn authority disk).1 ≤ (store.step verb).clock.floor := by
          rw [clock] at kept
          exact le_trans reached kept
        have same : (store.migrateFromConfig boot.authorized boot.revoked
            (file.now boot.migrated)).2 = store.step verb := rfl
        have saved := save_saved authority file disk boot.saved
          (recordsOf (store.step verb)) boot.faults
        obtain ⟨forward, ahead'⟩ := saved_ahead saved ahead
        simp only [same]
        generalize file.save authority disk boot.saved (recordsOf (store.step verb))
          boot.faults = out at forward ahead' ⊢
        obtain ⟨result, file', disk'⟩ := out
        cases result with
        | error e => exact .stopped forward
        | ok _ => exact .running forward formed ahead' floor

/-! ## What holds in every run -/

/-- The store is formed and the handle is at or above the floor on disk. -/
def Sound (authority : AuthorityBlock) (daemon : Daemon) : Prop :=
  ∀ process, daemon.process = some process → Formed process.store ∧
    (floorOn authority daemon.disk).1 ≤ process.saver.file.floorSeconds

/-- Neither the disk nor a running store is below `instant`. -/
def Past (authority : AuthorityBlock) (instant : Nat) (daemon : Daemon) : Prop :=
  instant ≤ (floorOn authority daemon.disk).1 ∧
    ∀ process, daemon.process = some process → instant ≤ process.store.clock.floor

/-- The saver counts no floor as written that the disk does not hold. -/
def Honest (authority : AuthorityBlock) (daemon : Daemon) : Prop :=
  ∀ process, daemon.process = some process →
    process.saver.savedFloor ≤ (floorOn authority daemon.disk).1

theorem Moves.sound (sound : Sound authority ⟨disk, some process⟩)
    (moves : Moves authority disk process happening next) : Sound authority next := by
  obtain ⟨formed, ahead⟩ := sound process rfl
  cases moves with
  | store quiet kept floor =>
    rintro p ⟨⟩
    exact ⟨kept formed, ahead⟩
  | landed lands checked trust floor seconds saved =>
    rintro p ⟨⟩
    exact ⟨formed, by rw [floorOn_sealed floor, seconds]⟩
  | failed floor seconds saved refused =>
    rintro p ⟨⟩
    exact ⟨formed, by rw [floorOn_congr floor]; exact le_trans ahead seconds⟩

theorem Moves.past (sound : Sound authority ⟨disk, some process⟩)
    (moves : Moves authority disk process happening next) {instant : Nat}
    (past : Past authority instant ⟨disk, some process⟩) : Past authority instant next := by
  obtain ⟨_, ahead⟩ := sound process rfl
  obtain ⟨onDisk, inStore⟩ := past
  have reached := inStore process rfl
  cases moves with
  | store quiet kept floor =>
    refine ⟨onDisk, ?_⟩
    rintro p ⟨⟩
    exact le_trans reached floor
  | landed lands checked trust floor seconds saved =>
    refine ⟨?_, ?_⟩
    · rw [floorOn_sealed floor]
      exact le_trans (le_trans onDisk ahead) (le_max_right _ _)
    · rintro p ⟨⟩
      exact reached
  | failed floor seconds saved refused =>
    refine ⟨?_, ?_⟩
    · rw [floorOn_congr floor]
      exact onDisk
    · rintro p ⟨⟩
      exact reached

theorem Moves.honest (sound : Sound authority ⟨disk, some process⟩)
    (moves : Moves authority disk process happening next)
    (reached : FloorReached authority ⟨disk, some process⟩ happening)
    (honest : Honest authority ⟨disk, some process⟩) : Honest authority next := by
  obtain ⟨_, ahead⟩ := sound process rfl
  have counted := honest process rfl
  cases moves with
  | store quiet kept floor =>
    rintro p ⟨⟩
    exact counted
  | landed lands checked trust floor seconds saved =>
    rintro p ⟨⟩
    rw [floorOn_sealed floor, saved]
    exact max_le (le_trans (le_trans counted ahead) (le_max_right _ _))
      (reached process _ rfl lands)
  | failed floor seconds saved refused =>
    rintro p ⟨⟩
    rw [floorOn_congr floor, saved]
    exact counted

theorem Sound.step_cases {authority : AuthorityBlock} {ours : String} {daemon : Daemon}
    (sound : Sound authority daemon) (happening : Happening) :
    let next := daemon.step authority ours happening
    next = ⟨daemon.disk, none⟩ ∨ Started authority daemon.disk next.process next.disk ∨
      ∃ process, daemon.process = some process ∧
        Moves authority daemon.disk process happening next := by
  obtain ⟨disk, running⟩ := daemon
  by_cases booting : ∃ boot, happening = .boot boot
  · obtain ⟨boot, rfl⟩ := booting
    exact .inr (.inl (startService_started authority ours disk boot))
  · by_cases crashing : happening = .crash
    · subst crashing
      exact .inl rfl
    · cases running with
      | none =>
        refine .inl ?_
        cases happening with
        | boot boot => exact absurd ⟨boot, rfl⟩ booting
        | crash => exact absurd rfl crashing
        | verb verb | observe reading | saveChange what reading faults | sweep reading faults =>
          rfl
      | some process =>
        exact .inr (.inr ⟨process, rfl, step_moves (sound process rfl).1 crashing
          fun boot same => booting ⟨boot, same⟩⟩)

theorem Sound.step {authority : AuthorityBlock} {ours : String} {daemon : Daemon}
    (sound : Sound authority daemon) (happening : Happening) :
    Sound authority (daemon.step authority ours happening) := by
  rcases @Sound.step_cases _ _ ours _ sound happening with stopped | started | ⟨process, running, moves⟩
  · rw [stopped]
    simp [Sound]
  · exact fun process running => ⟨started.formed process running, started.ahead process running⟩
  · obtain ⟨disk, _⟩ := daemon
    subst running
    exact moves.sound sound

theorem Past.step {authority : AuthorityBlock} {ours : String} {daemon : Daemon}
    (sound : Sound authority daemon) {instant : Nat} (past : Past authority instant daemon)
    (happening : Happening) : Past authority instant (daemon.step authority ours happening) := by
  rcases @Sound.step_cases _ _ ours _ sound happening with stopped | started | ⟨process, running, moves⟩
  · rw [stopped]
    exact ⟨past.1, by simp⟩
  · exact ⟨le_trans past.1 started.forward,
      fun process running => le_trans past.1 (started.floor process running)⟩
  · obtain ⟨disk, _⟩ := daemon
    subst running
    exact moves.past sound past

theorem Honest.step {authority : AuthorityBlock} {ours : String} {daemon : Daemon}
    (sound : Sound authority daemon) (honest : Honest authority daemon) {happening : Happening}
    (reached : FloorReached authority daemon happening) :
    Honest authority (daemon.step authority ours happening) := by
  rcases @Sound.step_cases _ _ ours _ sound happening with stopped | started | ⟨process, running, moves⟩
  · rw [stopped]
    simp [Honest]
  · intro process running
    rw [started.saved process running]
    exact Nat.zero_le _
  · obtain ⟨disk, _⟩ := daemon
    subst running
    exact moves.honest sound reached honest

theorem Sound.run {authority : AuthorityBlock} {ours : String} {daemon : Daemon}
    (sound : Sound authority daemon) (happenings : List Happening) :
    Sound authority (daemon.run authority ours happenings) := by
  induction happenings generalizing daemon with
  | nil => exact sound
  | cons happening rest ih => exact ih (sound.step happening)

theorem Past.run {authority : AuthorityBlock} {ours : String} {daemon : Daemon}
    (sound : Sound authority daemon) {instant : Nat} (past : Past authority instant daemon)
    (happenings : List Happening) :
    Past authority instant (daemon.run authority ours happenings) := by
  induction happenings generalizing daemon with
  | nil => exact past
  | cons happening rest ih => exact ih (sound.step happening) (past.step sound happening)

theorem Honest.run {authority : AuthorityBlock} {ours : String} {daemon : Daemon}
    (sound : Sound authority daemon) (honest : Honest authority daemon)
    {happenings : List Happening} (reached : FloorsReached authority ours daemon happenings) :
    Honest authority (daemon.run authority ours happenings) := by
  induction happenings generalizing daemon with
  | nil => exact honest
  | cons happening rest ih =>
    exact ih (sound.step happening) (honest.step sound reached.1) reached.2

theorem FloorsReached.append {daemon : Daemon} {first rest : List Happening}
    (reached : FloorsReached authority ours daemon (first ++ rest)) :
    FloorsReached authority ours daemon first ∧
      FloorsReached authority ours (daemon.run authority ours first) rest := by
  induction first generalizing daemon with
  | nil => exact ⟨trivial, reached⟩
  | cons happening later ih => exact ⟨⟨reached.1, (ih reached.2).1⟩, (ih reached.2).2⟩

theorem run_append (authority : AuthorityBlock) (ours : String) (daemon : Daemon)
    (first rest : List Happening) :
    daemon.run authority ours (first ++ rest) =
      (daemon.run authority ours first).run authority ours rest :=
  foldl_append

/-! ## The floor a save leaves -/

theorem landed_reopens {authority : AuthorityBlock} {ours : String} {daemon : Daemon}
    (sound : Sound authority daemon) {process : Process} (running : daemon.process = some process)
    {happening : Happening} {reading : Nat}
    (lands : Lands authority daemon.disk process happening reading) :
    ∃ opened, TrustFile.open_ authority (daemon.step authority ours happening).disk = .ok opened ∧
      opened.1.floorSeconds = process.saver.file.now reading ∧
      (floorOn authority (daemon.step authority ours happening).disk).1 =
        process.saver.file.now reading ∧
      ∃ saver, (daemon.step authority ours happening).process = some { process with saver } := by
  obtain ⟨disk, _⟩ := daemon
  subst running
  have continues : happening ≠ .crash := by
    rintro rfl
    simp [Lands, attempt] at lands
  have notBooting : ∀ boot, happening ≠ .boot boot := by
    rintro boot rfl
    simp [Lands, attempt] at lands
  have moves := @step_moves _ authority ours disk process (sound process rfl).1 happening continues
    notBooting
  generalize step authority ours ⟨disk, some process⟩ happening = next at moves ⊢
  cases moves with
  | store quiet kept floor => simp [Lands, quiet] at lands
  | failed floor seconds saved refused => exact absurd lands (refused reading)
  | landed lands' checked trust floor seconds saved =>
    rename_i reading' saver disk'
    obtain ⟨faults, attempted, _⟩ := lands
    obtain ⟨faults', attempted', _⟩ := lands'
    obtain ⟨rfl, _⟩ := Prod.mk.inj (Option.some.inj (attempted.symm.trans attempted'))
    have floorFound := floorOn_sealed floor
    refine ⟨_, open_ok.mpr ⟨_, _, TrustFile.readFloor_sealed floor,
      .inr ⟨_, _, _, _, TrustFile.readStore_sealed trust, rfl, le_refl _, checked, rfl⟩⟩,
      max_self _, by rw [floorFound], saver, rfl⟩

/--
Over every run of starts, verbs, observations, saves, failed writes and
crashes.  Of every save that succeeds: the floor read back by reopening is at
least the floor of the store exactly when the file's clock had reached it.  And
if it had at every save that succeeded: the saver never counts a floor as
written that is not on disk, and what had lapsed by the floor of the store at a
save has lapsed at every later reading, after any restart.
-/
theorem clock_survives_restart (authority : AuthorityBlock) (ours : String) (disk : Disk)
    (happenings : List Happening) :
    let start : Daemon := ⟨disk, none⟩
    (∀ earlier happening later, happenings = earlier ++ happening :: later →
      ∀ process reading, (start.run authority ours earlier).process = some process →
      Lands authority (start.run authority ours earlier).disk process happening reading →
      ∃ opened,
        TrustFile.open_ authority
          (start.run authority ours (earlier ++ [happening])).disk = .ok opened ∧
        (process.store.clock.floor ≤ opened.1.floorSeconds ↔
          process.store.clock.floor ≤ max reading process.saver.file.floorSeconds)) ∧
    (FloorsReached authority ours start happenings →
      (∀ process, (start.run authority ours happenings).process = some process →
        process.saver.savedFloor ≤
          (floorOn authority (start.run authority ours happenings).disk).1) ∧
      ∀ earlier happening later, happenings = earlier ++ happening :: later →
        ∀ process reading, (start.run authority ours earlier).process = some process →
        Lands authority (start.run authority ours earlier).disk process happening reading →
        ∀ restarted, (start.run authority ours happenings).process = some restarted →
        ∀ lease : Lease, lease.lapsedBy process.store.clock.floor = true →
        ∀ clock, lease.lapsedBy (restarted.store.now clock) = true ∧
          lease.isValidAt (restarted.store.now clock) = false) := by
  intro start
  have sound : ∀ happenings, Sound authority (start.run authority ours happenings) :=
    Sound.run (by simp [Sound, start])
  have honest : Honest authority start := by simp [Honest, start]
  refine ⟨?_, fun reached => ⟨honest.run (sound []) reached, ?_⟩⟩
  · rintro earlier happening later rfl process reading running lands
    obtain ⟨opened, opensAs, floor, _⟩ := @landed_reopens _ _ ours _ (sound earlier) _ running _ _
      lands
    refine ⟨opened, ?_, ?_⟩
    · rw [run_append]
      exact opensAs
    · rw [floor]
      rfl
  · rintro earlier happening later rfl process reading running lands restarted restartedAs lease
      lapsed clock
    obtain ⟨_, _, _, floor, saver, continued⟩ := @landed_reopens _ _ ours _ (sound earlier) _
      running _ _ lands
    have atSave := (reached.append).2.1 process reading running lands
    have past : Past authority process.store.clock.floor
        ((start.run authority ours earlier).step authority ours happening) := by
      refine ⟨floor ▸ atSave, ?_⟩
      rw [continued]
      rintro p ⟨⟩
      exact le_refl _
    have later' : Past authority process.store.clock.floor
        (((start.run authority ours earlier).step authority ours happening).run authority ours
          later) := past.run ((sound earlier).step happening) later
    rw [run_append] at restartedAs
    have reachedAgain := later'.2 restarted restartedAs
    exact lapsed_after lapsed (le_trans reachedAgain (le_max_right _ _))

/-! ## A machine whose clock is set back -/

theorem recordsOf_nothing {store : TrustStore} (entries : store.entries = ∅)
    (pairAgain : store.pairAgain = ∅) : recordsOf store = [] := by
  have noEntries : store.entries.toList = [] := Std.ExtTreeMap.toList_eq_nil_iff.mpr entries
  have noListings : store.pairAgain.toList = [] := Std.ExtTreeMap.toList_eq_nil_iff.mpr pairAgain
  simp [recordsOf, noEntries, noListings]

/-- The disk after saving no records at all. -/
def bareDisk (authority : AuthorityBlock) (serial seconds : Nat) : Disk where
  trust := some (.sealed authority (.store (.v2 serial seconds [])))
  floor := some (.sealed authority (.floor ⟨floorVersion, seconds, serial⟩))
  trustV1Copy := none
  floorV1Copy := none

def bareProcess {ours : String} (valid : validFingerprint ours = true)
    (floor serial seconds savedFloor : Nat) : Process where
  store := ⟨ours, ⟨floor⟩, ∅, ∅, valid⟩
  saver := ⟨⟨serial, seconds, none, none⟩, savedFloor, none⟩

theorem boot_empty (authority : AuthorityBlock) (valid : validFingerprint ours = true)
    (reading : Nat) : step authority ours ⟨emptyDisk, none⟩
        (.boot { rebuilt := reading, migrated := reading, saved := reading }) =
      ⟨bareDisk authority 1 reading, some (bareProcess valid reading 1 reading 0)⟩ := by
  simp [step, startService, TrustFile.open_, emptyDisk, readFloor, readStore, bind,
    Except.bind, readV1Copy, new_of_valid valid, migrateFromConfig, recordsOf_nothing,
    TrustFile.save, validate, validateFrom, keepCopies,
    TrustFile.deleteV1CopyIfDropped, writeFiles, TrustFile.now, bareDisk, bareProcess,
    TrustSaver.new]

theorem boot_bare (authority : AuthorityBlock) (valid : validFingerprint ours = true)
    (serial seconds reading : Nat) : step authority ours ⟨bareDisk authority serial seconds, none⟩
        (.boot { rebuilt := reading, migrated := reading, saved := reading }) =
      ⟨bareDisk authority serial seconds,
        some (bareProcess valid (max reading seconds) serial seconds 0)⟩ := by
  simp [step, startService, TrustFile.open_, bareDisk, readFloor, readStore, verifiedBody, bind,
    Except.bind, readV1Copy, StoreBody.contents, StoreBody.isVersion1, validate, validateFrom,
    start, rebuild, new_of_valid valid, TrustFile.now, bareProcess, TrustSaver.new]

omit [Lowercase] in
theorem sweeps_bare {ours : String} (valid : validFingerprint ours = true)
    {floor serial seconds savedFloor : Nat} (moved : savedFloor < floor) :
    (bareProcess valid floor serial seconds savedFloor).saver.sweeps
      (bareProcess valid floor serial seconds savedFloor).store = true := by
  have above : decide (floor ≤ savedFloor) = false := decide_eq_false (not_le.mpr moved)
  simp only [TrustSaver.sweeps, bareProcess, Option.isNone_none, Bool.true_and, Bool.not_eq_true']
  exact above

theorem sweep_bare (authority : AuthorityBlock) {ours : String}
    (valid : validFingerprint ours = true) {floor serial seconds savedFloor : Nat}
    (moved : savedFloor < floor) (reading : Nat) :
    step authority ours
        ⟨bareDisk authority serial seconds, some (bareProcess valid floor serial seconds savedFloor)⟩
        (.sweep reading {}) =
      ⟨bareDisk authority (serial + 1) (max reading seconds),
        some (bareProcess valid floor (serial + 1) (max reading seconds) floor)⟩ := by
  simp only [step, saving, TrustSaver.sweep, sweeps_bare valid moved, if_true]
  simp [TrustSaver.save, bareProcess, bareDisk, recordsOf_nothing, TrustFile.save, validate,
    validateFrom, keepCopies, TrustFile.deleteV1CopyIfDropped, writeFiles,
    TrustFile.now, max_eq_right (le_of_lt moved)]

theorem lands_bare (authority : AuthorityBlock) {ours : String}
    (valid : validFingerprint ours = true) {floor serial seconds savedFloor : Nat}
    (moved : savedFloor < floor) (reading : Nat) :
    Lands authority (bareDisk authority serial seconds)
      (bareProcess valid floor serial seconds savedFloor) (.sweep reading {}) reading := by
  refine ⟨{}, by simp only [attempt, sweeps_bare valid moved, if_true], ?_⟩
  simp [bareProcess, bareDisk, recordsOf_nothing, TrustFile.save, validate, validateFrom,
    keepCopies, TrustFile.deleteV1CopyIfDropped, writeFiles]

end Daemon

end Lowercase

namespace Daemon

def shortLease : Lease where
  peer := machineB
  issuedTo := machineA
  label := ""
  caps := .driveMe
  origin := .inbound
  issuedAt := 0
  expiry := .at_ 800
  clipboardChosen := false
  confirmed := true

/--
A start at 0 on an empty disk, the floor observed at 1000, a sweep that saves
then, and a restart at 500: a lease that grants at 500 has lapsed for good.
-/
theorem clock_survives_restart_swept :
    letI := asciiLowercase
    let authority : AuthorityBlock := ⟨"ed25519", "00"⟩
    let happenings : List Happening :=
      [.boot { rebuilt := 0, migrated := 0, saved := 0 }, .verb (.sweep 1000), .sweep 1000 {},
        .crash, .boot { rebuilt := 500, migrated := 500, saved := 500 }]
    FloorsReached authority machineA ⟨emptyDisk, none⟩ happenings ∧
      shortLease.isValidAt 500 = true ∧
      ∃ restarted, (run authority machineA ⟨emptyDisk, none⟩ happenings).process =
          some restarted ∧ restarted.saver.file.serial = 2 ∧
        restarted.saver.savedFloor ≤ (floorOn authority
          (run authority machineA ⟨emptyDisk, none⟩ happenings).disk).1 ∧
        ∀ clock, shortLease.isValidAt (restarted.store.now clock) = false := by
  let _ := asciiLowercase
  intro authority happenings
  have booted := boot_empty authority machineA_valid 0
  have swept : step authority machineA
      ⟨bareDisk authority 1 0, some (bareProcess machineA_valid 0 1 0 0)⟩ (.verb (.sweep 1000)) =
      ⟨bareDisk authority 1 0, some (bareProcess machineA_valid 1000 1 0 0)⟩ := rfl
  have saved := @sweep_bare _ authority machineA machineA_valid 1000 1 0 0 (by omega) 1000
  have again := boot_bare authority machineA_valid 2 1000 500
  have atSave : run authority machineA ⟨emptyDisk, none⟩
      [.boot { rebuilt := 0, migrated := 0, saved := 0 }, .verb (.sweep 1000)] =
      ⟨bareDisk authority 1 0, some (bareProcess machineA_valid 1000 1 0 0)⟩ := by
    simp only [run, foldl_cons, foldl_nil]
    rw [booted, swept]
  have reached : FloorsReached authority machineA ⟨emptyDisk, none⟩ happenings := by
    refine ⟨by rintro process reading ⟨⟩, ?_⟩
    rw [booted]
    refine ⟨by rintro process reading ⟨⟩ ⟨faults, ⟨⟩, _⟩, ?_⟩
    rw [swept]
    refine ⟨?_, ?_⟩
    · rintro process reading ⟨⟩ ⟨faults, attempted, _⟩
      obtain ⟨rfl, rfl⟩ := Prod.mk.inj (Option.some.inj attempted)
      exact le_max_left _ _
    · rw [saved]
      exact ⟨by rintro process reading ⟨⟩ ⟨faults, ⟨⟩, _⟩, by rintro process reading ⟨⟩, trivial⟩
  have ended : run authority machineA ⟨emptyDisk, none⟩ happenings =
      ⟨bareDisk authority 2 1000, some (bareProcess machineA_valid 1000 2 1000 0)⟩ := by
    simp only [run, happenings, foldl_cons, foldl_nil]
    rw [booted, swept, saved]
    exact again
  have running : (run authority machineA ⟨emptyDisk, none⟩ happenings).process =
      some (bareProcess machineA_valid 1000 2 1000 0) := by rw [ended]
  have law := (clock_survives_restart authority machineA emptyDisk happenings).2 reached
  have lapsed : shortLease.lapsedBy
      (bareProcess machineA_valid 1000 1 0 0).store.clock.floor = true := rfl
  refine ⟨reached, rfl, _, running, rfl, law.1 _ running, fun clock => ?_⟩
  refine (law.2 _ (.sweep 1000 {}) _ rfl _ 1000 (congrArg process atSave) ?_ _ running
    shortLease lapsed clock).2
  exact atSave ▸ @lands_bare _ authority machineA machineA_valid 1000 1 0 0 (by omega) 1000

/--
The floor is observed at 1000, the system clock is set back to 500, and the
sweep saves: 500 is what reaches the disk and what the next start enforces.
-/
theorem floor_lost_when_set_back :
    letI := asciiLowercase
    let authority : AuthorityBlock := ⟨"ed25519", "00"⟩
    let happenings : List Happening :=
      [.boot { rebuilt := 0, migrated := 0, saved := 0 }, .verb (.sweep 1000), .sweep 500 {}]
    let restart : List Happening :=
      [.crash, .boot { rebuilt := 500, migrated := 500, saved := 500 }]
    let reached := run authority machineA ⟨emptyDisk, none⟩ happenings
    ∃ process restarted, reached.process = some process ∧
      (reached.run authority machineA restart).process = some restarted ∧
      process.saver.unsaved = none ∧ process.store.clock.floor = 1000 ∧
      process.saver.savedFloor = 1000 ∧ (floorOn authority reached.disk).1 = 500 ∧
      restarted.saver.file.floorSeconds = 500 ∧
      ∃ lease : Lease, lease.lapsedBy process.store.clock.floor = true ∧
        lease.isValidAt (restarted.store.now 500) = true := by
  let _ := asciiLowercase
  intro authority happenings restart reached
  have booted := boot_empty authority machineA_valid 0
  have swept : step authority machineA
      ⟨bareDisk authority 1 0, some (bareProcess machineA_valid 0 1 0 0)⟩ (.verb (.sweep 1000)) =
      ⟨bareDisk authority 1 0, some (bareProcess machineA_valid 1000 1 0 0)⟩ := rfl
  have saved := @sweep_bare _ authority machineA machineA_valid 1000 1 0 0 (by omega) 500
  have ended : reached =
      ⟨bareDisk authority 2 500, some (bareProcess machineA_valid 1000 2 500 1000)⟩ := by
    simp only [reached, run, happenings, foldl_cons, foldl_nil]
    rw [booted, swept, saved]
    rfl
  have again : reached.run authority machineA restart =
      ⟨bareDisk authority 2 500, some (bareProcess machineA_valid 500 2 500 0)⟩ := by
    rw [ended]
    exact boot_bare authority machineA_valid 2 500 500
  rw [again, ended]
  exact ⟨_, _, rfl, rfl, rfl, rfl, rfl, rfl, rfl, shortLease, rfl, rfl⟩

end Daemon

end HopsFormal.Trust
