import HopsFormal.Removal.Reappearing

/-!
# A device removed by hand stays removed

What a removal takes out of memory is gone from the trust file too, or the store is
waiting to be saved and the device stays recorded as listed: the next start finds it
removed again.  A line that is added to the table gives nothing.
-/

namespace HopsFormal.Removal.ByHand

open List Lib Trust Trust.TrustStore Listed

section Removing

variable [Lowercase]

/-! ## What two reads of the file find -/

/-- The table is there and does not list a device. -/
def Unlisted (tables : Tables) (fp : String) : Prop :=
  ∃ file, listedIn tables = some file ∧ fp ∉ file.map canonical

def ListedBy (tables : Tables) (fp : String) : Prop :=
  ∃ file, listedIn tables = some file ∧ fp ∈ file.map canonical

/-- A device the store would write to the table is in neither of two reads of it. -/
structure Found (store : TrustStore) (reading : Nat) (fp : String) (config : Tables)
    (file : Option Tables) : Prop where
  removable : Removable store reading fp
  first : Unlisted config fp
  second : ∃ again, file = some again ∧ Unlisted again fp

variable {listed : Listed} {fp ours : String} {config : Tables} {file : Option String}
  {authority : AuthorityBlock} {disk : Disk} {process : Process} {happening : Happening}
  {daemon before : Daemon} {removed : List String} {machine : Machine}

theorem mem_removals {store : TrustStore} {reading : Nat} {file : Option Tables}
    (valid : validFingerprint fp = true) (recorded : fp ∈ listed.fingerprints)
    (found : Found store reading fp config file) :
    fp ∈ removals listed store reading config file := by
  obtain ⟨removable, ⟨inConfig, isConfig, notFirst⟩, again, isFile, inFile, isAgain, notSecond⟩ :=
    found
  have member : fp ∈ listed.removed (removableFromTheFile store reading) (listedIn config) := by
    rw [isConfig, removed, mem_mergeSort, mem_filter, decide_eq_true_eq]
    refine ⟨List.mem_map.mpr ⟨fp, ?_, canonical_of_valid valid⟩, recorded, notFirst⟩
    exact mem_removableFromTheFile.mpr removable
  unfold removals
  rw [if_neg (ne_nil_of_mem member), isFile, Option.bind_some, isAgain, confirmed,
    mem_filter, decide_eq_true_eq, canonical_of_valid valid]
  exact ⟨member, notSecond⟩

/-! ## What is recorded stays recorded -/

/-- A device is in the record, in memory and on disk. -/
structure Recorded (fp : String) (listed : Listed) (file : Option String) : Prop where
  inMemory : fp ∈ listed.fingerprints
  onDisk : fp ∈ (read file).fingerprints

section

variable (recorded : Recorded fp listed file)
include recorded

section

variable (valid : validFingerprint fp = true)
include valid

theorem Recorded.save {next : Finset String} (member : fp ∈ next) (writes : Bool) :
    Recorded fp (listed.save file next writes).2.1 (listed.save file next writes).2.2 := by
  unfold Listed.save
  split
  · exact recorded
  · split
    · exact ⟨member, mem_read_text valid member⟩
    · exact recorded

theorem Recorded.recordKeeping (now : List String) (writes : Bool) :
    Recorded fp (listed.recordKeeping file now true writes).2.1
      (listed.recordKeeping file now true writes).2.2 :=
  recorded.save valid (Finset.mem_union_right _ recorded.inMemory) writes

theorem Recorded.unrecord {dropped : List String} (other : fp ∉ dropped.map canonical)
    (writes : Bool) : Recorded fp (listed.unrecord file dropped writes).2.1
      (listed.unrecord file dropped writes).2.2 := by
  refine recorded.save valid (Finset.mem_sdiff.mpr ⟨recorded.inMemory, ?_⟩) writes
  rwa [List.mem_toFinset]

end

end

def OnFile (listed : Listed) (file : Option String) : Prop :=
  ∀ fp, validFingerprint fp = true → fp ∈ listed.fingerprints → fp ∈ (read file).fingerprints

theorem OnFile.recorded (onFile : OnFile listed file) (valid : validFingerprint fp = true)
    {now : List String} (member : fp ∈ now) (keep : Bool) :
    (listed.recordKeeping file now keep true).1 = true ∧
      Recorded fp (listed.recordKeeping file now keep true).2.1
        (listed.recordKeeping file now keep true).2.2 := by
  unfold Listed.recordKeeping
  dsimp only
  have told : fp ∈ (now.map canonical).toFinset :=
    List.mem_toFinset.mpr (List.mem_map.mpr ⟨fp, member, canonical_of_valid valid⟩)
  generalize isNext : (if keep then (now.map canonical).toFinset ∪ listed.fingerprints
    else (now.map canonical).toFinset) = next
  have holds : fp ∈ next := by
    rw [← isNext]
    split
    · exact Finset.mem_union_left _ told
    · exact told
  unfold Listed.save
  split
  · next same =>
    have inMemory : fp ∈ listed.fingerprints := same ▸ holds
    exact ⟨rfl, inMemory, onFile fp valid inMemory⟩
  · exact ⟨rfl, holds, mem_read_text valid holds⟩

omit [Lowercase] in
/-- A record that cannot be written stays as it is. -/
theorem save_unwritten (listed : Listed) (file : Option String) (next : Finset String) :
    (listed.save file next false).2 = (listed, file) := by
  unfold Listed.save
  split <;> rfl

theorem OnFile.save (onFile : OnFile listed file) (next : Finset String) (writes : Bool) :
    OnFile (listed.save file next writes).2.1 (listed.save file next writes).2.2 := by
  unfold Listed.save
  split
  · exact onFile
  · split
    · exact fun fp valid member => mem_read_text valid member
    · exact onFile

/-! ## What the trust file holds -/

/-- The store of a running daemon is formed, and its file is there. -/
def Steady (authority : AuthorityBlock) (daemon : Daemon) : Prop :=
  ∀ process, daemon.process = some process → Formed process.store ∧ Present authority daemon.disk

/-- A row of the file holds something of a device. -/
def OnDisk (authority : AuthorityBlock) (disk : Disk) (fp : String) : Prop :=
  Names (rowsOn authority disk) .active fp ∨ Names (rowsOn authority disk) .pairAgain fp

/-- A running daemon holds nothing of a device. -/
def Without (fp : String) (daemon : Daemon) : Prop :=
  ∀ process, daemon.process = some process → Lacks process.store fp

/-- The running daemon holds nothing of a device, and waits to save while the file does. -/
structure Away (authority : AuthorityBlock) (fp : String) (daemon : Daemon) : Prop where
  memory : Without fp daemon
  waits : OnDisk authority daemon.disk fp →
    ∀ process, daemon.process = some process → process.saver.isPending = true

/-- One save: the file keeps its rows or takes the store's, and takes them if nothing waits. -/
structure Saves (authority : AuthorityBlock) (disk : Disk) (store : TrustStore)
    (saver : TrustSaver) (disk' : Disk) : Prop where
  leaves : Leaves authority disk disk' (recordsOf store)
  lands : saver.isPending = false → rowsOn authority disk' = recordsOf store

theorem saves_save (authority : AuthorityBlock) (saver : TrustSaver) (disk : Disk)
    (store : TrustStore) (what : Option String) (reading : Nat) (faults : TrustFile.Faults) :
    let out := saver.save authority disk store what reading faults
    Saves authority disk store out.2.1 out.2.2 := by
  obtain ⟨leaves, lands⟩ := leaves_saved (TrustFile.save_saved authority saver.file disk reading
    (recordsOf store) faults)
  unfold TrustSaver.save
  split
  · next file' disk' saved =>
    rw [saved] at leaves lands
    exact ⟨leaves, fun _ => (lands rfl).1⟩
  · next error file' disk' saved =>
    rw [saved] at leaves
    exact ⟨leaves, nofun⟩

theorem saves_saveChange (authority : AuthorityBlock) (saver : TrustSaver) (disk : Disk)
    (store : TrustStore) (what : String) (reading : Nat) (faults : TrustFile.Faults) :
    let out := saver.saveChange authority disk store what reading faults
    Saves authority disk store out.2.1 out.2.2 := by
  have saves := saves_save authority saver disk store (some what) reading faults
  unfold TrustSaver.saveChange
  generalize saver.save authority disk store (some what) reading faults = out at saves ⊢
  obtain ⟨result, saver', disk'⟩ := out
  cases result <;> exact saves

theorem Saves.not_onDisk {disk' : Disk} {store : TrustStore} {saver : TrustSaver}
    (saves : Saves authority disk store saver disk') (formed : Formed store)
    (lacks : Lacks store fp) (onDisk : OnDisk authority disk' fp) :
    OnDisk authority disk fp ∧ saver.isPending = true := by
  have none_ : ¬ (Names (recordsOf store) .active fp ∨ Names (recordsOf store) .pairAgain fp) := by
    rintro (active | listing)
    · exact (not_names_recordsOf formed).1 lacks.lease active
    · exact (not_names_recordsOf formed).2 lacks.listing listing
  unfold OnDisk at onDisk ⊢
  constructor
  · rcases saves.leaves.rows with same | written
    · rwa [same] at onDisk
    · rw [written] at onDisk
      exact absurd onDisk none_
  · cases pending : saver.isPending with
    | true => rfl
    | false =>
      rw [saves.lands pending] at onDisk
      exact absurd onDisk none_

omit [Lowercase] in
/-- A daemon that does not run has no store. -/
theorem idle {claim : Prop} (running : (Daemon.mk disk none).process = some process) : claim :=
  (Option.some_ne_none process running.symm).elim

omit [Lowercase] in
theorem steady_stopped (authority : AuthorityBlock) (disk : Disk) :
    Steady authority ⟨disk, none⟩ :=
  fun _ => idle

/-- What a happening other than a start leaves of a daemon. -/
inductive Goes (authority : AuthorityBlock) (happening : Happening) (before : Daemon) :
    Daemon → Prop
  | stays : Goes authority happening before before
  | stops : Goes authority happening before ⟨before.disk, none⟩
  | does {process : Process} (running : before.process = some process) (verb : Verb)
      (named : happening = .verb verb ∨ ∃ reading, verb = .sweep reading) :
      Goes authority happening before
        ⟨before.disk, some { process with store := process.store.step verb }⟩
  | saves {process : Process} {saver : TrustSaver} {disk' : Disk}
      (running : before.process = some process)
      (saves : Saves authority before.disk process.store saver disk') :
      Goes authority happening before ⟨disk', some { process with saver }⟩

theorem step_goes (authority : AuthorityBlock) (ours : String) (daemon : Daemon)
    (running : ∀ boot, happening ≠ .boot boot) :
    Goes authority happening daemon (daemon.step authority ours happening) := by
  obtain ⟨disk, process⟩ := daemon
  cases process with
  | none =>
    cases happening with
    | boot boot => exact absurd rfl (running boot)
    | verb verb | observe reading | saveChange what reading faults | sweep reading faults
    | crash => exact .stays
  | some process =>
    cases happening with
    | boot boot => exact absurd rfl (running boot)
    | crash => exact .stops
    | verb verb => exact .does rfl verb (.inl rfl)
    | observe reading => exact .does rfl (.sweep reading) (.inr ⟨reading, rfl⟩)
    | saveChange what reading faults =>
      exact .saves rfl (saves_saveChange authority process.saver disk process.store what
        reading faults)
    | sweep reading faults =>
      simp only [Daemon.step, Daemon.saving, TrustSaver.sweep]
      cases sweeps : process.saver.sweeps process.store with
      | false => exact .stays
      | true =>
        have saves := saves_save authority process.saver disk process.store none reading faults
        simp only [if_true]
        generalize process.saver.save authority disk process.store none reading faults = out
          at saves ⊢
        obtain ⟨result, saver, disk'⟩ := out
        cases result <;> exact .saves rfl saves

theorem Goes.steady {after : Daemon} (goes : Goes authority happening before after)
    (steady : Steady authority before) : Steady authority after := by
  cases goes with
  | stays => exact steady
  | stops => exact steady_stopped authority _
  | does running verb named =>
    rintro _ ⟨⟩
    exact ⟨(steady _ running).1.step verb, (steady _ running).2⟩
  | saves running saves =>
    rintro _ ⟨⟩
    exact ⟨(steady _ running).1, saves.leaves.present (steady _ running).2⟩

theorem steady_happening (ours : String) (steady : Steady authority daemon)
    (running : ∀ boot, happening ≠ .boot boot) :
    Steady authority (daemon.step authority ours happening) :=
  (step_goes authority ours daemon running).steady steady

/-- What happens to the trust store, other than a start or a verb that names a device. -/
def Spares (fp : String) : Happening → Prop
  | .boot _ => False
  | .verb verb => ¬ Leases fp verb ∧ ¬ Lists fp verb
  | _ => True

/-- A step keeps a device away, and puts nothing of it into the file. -/
structure Keeps (authority : AuthorityBlock) (fp : String) (before after : Daemon) : Prop where
  steady : Steady authority after
  memory : Without fp before → Without fp after
  away : Away authority fp before → Away authority fp after
  onDisk : Without fp before → OnDisk authority after.disk fp → OnDisk authority before.disk fp
  present : Present authority before.disk → Present authority after.disk

theorem Keeps.refl (fp : String) (steady : Steady authority daemon) :
    Keeps authority fp daemon daemon :=
  ⟨steady, id, id, fun _ => id, id⟩

theorem Keeps.trans {middle after : Daemon} (one : Keeps authority fp before middle)
    (two : Keeps authority fp middle after) : Keeps authority fp before after where
  steady := two.steady
  memory without := two.memory (one.memory without)
  away away := two.away (one.away away)
  onDisk without onDisk := one.onDisk without (two.onDisk (one.memory without) onDisk)
  present present := two.present (one.present present)

theorem Keeps.stopped (same : disk = before.disk) : Keeps authority fp before ⟨disk, none⟩ where
  steady := steady_stopped authority disk
  memory _ := fun _ => idle
  away _ := ⟨fun _ => idle, fun _ _ => idle⟩
  onDisk _ onDisk := same ▸ onDisk
  present present := same ▸ present

theorem Saves.away {authority : AuthorityBlock} {disk disk' : Disk} {process : Process}
    {saver : TrustSaver} (saves : Saves authority disk process.store saver disk')
    (formed : Formed process.store) {fp : String} (lacks : Lacks process.store fp) :
    Away authority fp ⟨disk', some { process with saver }⟩ where
  memory := by
    rintro _ ⟨⟩
    exact lacks
  waits := by
    rintro onDisk _ ⟨⟩
    exact (saves.not_onDisk formed lacks onDisk).2

theorem sweep_names (fp : String) (reading : Nat) :
    ¬ Leases fp (.sweep reading) ∧ ¬ Lists fp (.sweep reading) := by
  refine ⟨?_, id⟩
  rintro ⟨approval, made, -⟩
  cases made

theorem Goes.keeps {after : Daemon} (goes : Goes authority happening before after)
    (steady : Steady authority before) (spares : Spares fp happening) :
    Keeps authority fp before after := by
  have steady' := goes.steady steady
  cases goes with
  | stays => exact .refl fp steady
  | stops => exact .stopped rfl
  | @does process running verb named =>
    have spared : ¬ Leases fp verb ∧ ¬ Lists fp verb := by
      rcases named with rfl | ⟨reading, rfl⟩
      · exact spares
      · exact sweep_names fp reading
    have memory : Without fp before →
        Without fp ⟨before.disk, some { process with store := process.store.step verb }⟩ := by
      rintro without _ ⟨⟩
      exact (without process running).step (steady process running).1 spared.1 spared.2
    refine ⟨steady', memory, fun away => ⟨memory away.memory, ?_⟩, fun _ => id, id⟩
    rintro onDisk _ ⟨⟩
    exact away.waits onDisk process running
  | @saves process saver disk' running saves =>
    have formed := (steady process running).1
    refine ⟨steady', ?_, fun away => saves.away formed (away.memory process running), ?_,
      saves.leaves.present⟩
    · rintro without _ ⟨⟩
      exact without process running
    · exact fun lacks onDisk => (saves.not_onDisk formed (lacks process running) onDisk).1

theorem keeps_happening (ours : String) (steady : Steady authority daemon)
    (spares : Spares fp happening) :
    Keeps authority fp daemon (daemon.step authority ours happening) := by
  refine (step_goes authority ours daemon ?_).keeps steady spares
  rintro boot rfl
  exact spares

/-! ## Removing what was found -/

theorem spares_forget (fp other : String) : Spares fp (.verb (.forget other)) := by
  refine ⟨?_, id⟩
  rintro ⟨approval, made, -⟩
  cases made

/-- Forgetting a device and saving the store keep this of a daemon. -/
structure Survives (authority : AuthorityBlock) (ours : String) (kept : Daemon → Prop) :
    Prop where
  forgets : ∀ daemon fp, kept daemon → kept (daemon.step authority ours (.verb (.forget fp)))
  saves : ∀ daemon what reading faults, kept daemon →
    kept (daemon.step authority ours (.saveChange what reading faults))

namespace Survives

variable {kept : Daemon → Prop}

section

variable (survives : Survives authority ours kept)
include survives

theorem removal (saving : String → Saving) (holds : kept daemon) (fp : String) :
    kept (removeAuthorizedKey authority ours saving daemon fp) := by
  unfold removeAuthorizedKey
  split
  · exact holds
  · exact survives.saves _ _ _ _ (survives.forgets daemon _ holds)

theorem removals (saving : String → Saving) (holds : kept daemon) (removed : List String) :
    kept (removed.foldl (removeAuthorizedKey authority ours saving) daemon) := by
  induction removed generalizing daemon with
  | nil => exact holds
  | cons other rest ih => exact ih (survives.removal saving holds other)

theorem forgotten (holds : kept daemon) (removed : List String) :
    kept (removed.foldl (fun (daemon : Daemon) fp =>
      daemon.step authority ours (.verb (.forget fp))) daemon) := by
  induction removed generalizing daemon with
  | nil => exact holds
  | cons other rest ih => exact ih (survives.forgets daemon other holds)

theorem forgetRemovedFromCache (holds : kept daemon) (store : TrustStore) (starting : Starting)
    (removed : List String) :
    kept (ByHand.forgetRemovedFromCache authority ours daemon store starting removed) := by
  unfold ByHand.forgetRemovedFromCache
  split
  · exact survives.forgotten holds removed
  · exact survives.saves _ _ _ _ (survives.forgotten holds removed)

end

end Survives

theorem Keeps.survives (authority : AuthorityBlock) (ours fp : String) (before : Daemon) :
    Survives authority ours (Keeps authority fp before) where
  forgets _ other keeps :=
    keeps.trans (keeps_happening ours keeps.steady (spares_forget fp other))
  saves _ _ _ _ keeps := keeps.trans (keeps_happening ours keeps.steady trivial)

theorem keeps_removals (ours : String) (saving : String → Saving) (steady : Steady authority daemon)
    (fp : String) (removed : List String) :
    Keeps authority fp daemon (removed.foldl (removeAuthorizedKey authority ours saving) daemon) :=
  (Keeps.survives authority ours fp daemon).removals saving (.refl fp steady) removed

theorem keeps_forgets (ours : String) (steady : Steady authority daemon) (fp : String)
    (removed : List String) : Keeps authority fp daemon (removed.foldl (fun (daemon : Daemon) fp =>
      daemon.step authority ours (.verb (.forget fp))) daemon) :=
  (Keeps.survives authority ours fp daemon).forgotten (.refl fp steady) removed

theorem away_removeAuthorizedKey (ours : String) (saving : String → Saving)
    (steady : Steady authority daemon) (valid : validFingerprint fp = true) :
    Away authority fp (removeAuthorizedKey authority ours saving daemon fp) := by
  obtain ⟨disk, process⟩ := daemon
  cases process with
  | none => exact ⟨fun _ => idle, fun _ _ => idle⟩
  | some process =>
    have forgotten := (steady process rfl).1.step (.forget fp)
    rw [removeAuthorizedKey]
    rw [canonical_of_valid valid]
    exact @Saves.away _ authority disk _ ⟨process.store.step (.forget fp), process.saver⟩ _
      (saves_saveChange authority process.saver disk (process.store.step (.forget fp)) _ _ _)
      forgotten fp (lacks_forget process.store valid)

theorem away_removals (ours : String) (saving : String → Saving) (steady : Steady authority daemon)
    (valid : validFingerprint fp = true) (member : fp ∈ removed) :
    Away authority fp (removed.foldl (removeAuthorizedKey authority ours saving) daemon) := by
  induction removed generalizing daemon with
  | nil => cases member
  | cons other rest ih =>
    have one : Keeps authority fp daemon (removeAuthorizedKey authority ours saving daemon other) :=
      (Keeps.survives authority ours fp daemon).removal saving (.refl fp steady) other
    rcases mem_cons.mp member with rfl | later
    · exact (keeps_removals ours saving one.steady fp rest).away
        (away_removeAuthorizedKey ours saving steady valid)
    · exact ih one.steady later

/-! ## Steps of a machine -/

/-- The verb a step applies to the trust store. -/
def Act.verb : Act → Option Verb
  | .trust (.verb verb) => some verb
  | _ => none

def Act.isStart : Act → Bool
  | .start _ => true
  | _ => false

/-- The daemon is steady, and what it recorded is read from the file. -/
structure Sound (authority : AuthorityBlock) (machine : Machine) : Prop where
  steady : Steady authority machine.daemon
  onFile : ∀ service, machine.service = some service → OnFile service.listed machine.listedFile

/-- A device is away, and is recorded as listed for as long as the trust file holds it. -/
structure Gone (authority : AuthorityBlock) (fp : String) (machine : Machine) : Prop where
  present : Present authority machine.daemon.disk
  away : Away authority fp machine.daemon
  onDisk : OnDisk authority machine.daemon.disk fp → fp ∈ (read machine.listedFile).fingerprints
  inMemory : OnDisk authority machine.daemon.disk fp → ∀ service,
    machine.service = some service → fp ∈ service.listed.fingerprints

/-- Recording and unrecording keep this of the record and its file, and so does a stop. -/
structure Records (machine : Machine) (kept : Option Listed → Option String → Prop) : Prop where
  records : ∀ process listed file now writes, machine.daemon.process = some process →
    kept (some listed) file →
      kept (some (listed.recordKeeping file now process.saver.isPending writes).2.1)
        (listed.recordKeeping file now process.saver.isPending writes).2.2
  unrecords : ∀ process listed file writes, machine.daemon.process = some process →
    kept (some listed) file →
      kept (some (listed.unrecord file (everyToPairAgain process.store) writes).2.1)
        (listed.unrecord file (everyToPairAgain process.store) writes).2.2
  stops : ∀ listed file, kept listed file → kept none file

theorem Records.saveConfig {kept : Option Listed → Option String → Prop}
    (records : Records machine kept)
    (holds : kept (machine.service.map Service.listed) machine.listedFile) (reading : Nat)
    (written leavesOut recorded unrecorded : Bool) :
    let after := ByHand.saveConfig machine reading written leavesOut recorded unrecorded
    kept (after.service.map Service.listed) after.listedFile := by
  unfold ByHand.saveConfig
  split
  · next process service running served =>
    rw [served] at holds
    dsimp only
    split
    · have one := records.records process service.listed machine.listedFile
        ((configCache process.store reading).map Prod.fst) recorded running holds
      split
      · next listed file isOut =>
        rw [isOut] at one
        exact one
      · next listed file isOut =>
        rw [isOut] at one
        exact records.unrecords process listed file unrecorded running one
    · exact holds
  · exact holds

theorem Records.step {kept : Option Listed → Option String → Prop} (records : Records machine kept)
    (authority : AuthorityBlock) (ours : String)
    (holds : kept (machine.service.map Service.listed) machine.listedFile) {act : Act}
    (running : act.isStart = false) :
    let after := machine.step authority ours act
    kept (after.service.map Service.listed) after.listedFile := by
  cases act with
  | edit file => exact holds
  | reload =>
    dsimp only [Machine.step]
    unfold ByHand.reload
    split
    · next service config served onFile =>
      rw [served] at holds
      exact holds
    · exact holds
  | saveConfig reading written leavesOut recorded unrecorded =>
    exact records.saveConfig holds reading written leavesOut recorded unrecorded
  | checkRemovals reading saving =>
    dsimp only [Machine.step]
    unfold ByHand.checkRemovals
    split
    · next process service _ served =>
      rw [served] at holds
      split
      · exact holds
      · rw [served]
        exact holds
    · exact holds
  | trust happening =>
    cases happening with
    | crash => exact records.stops _ _ holds
    | boot boot | verb verb | observe reading | saveChange what reading faults
    | sweep reading faults => exact holds
  | start starting => cases running

/-! ## A start -/

theorem loads_boot {boot : Boot}
    (running : (daemon.step authority ours (.boot boot)).process = some process) :
    Loads authority daemon.disk process (daemon.step authority ours (.boot boot)).disk :=
  startService_loads (Prod.ext running rfl)

theorem without_forgets (ours : String) (steady : Steady authority daemon)
    (valid : validFingerprint fp = true) (member : fp ∈ removed) :
    Without fp (removed.foldl (fun (daemon : Daemon) fp =>
      daemon.step authority ours (.verb (.forget fp))) daemon) := by
  induction removed generalizing daemon with
  | nil => cases member
  | cons other rest ih =>
    have one := keeps_happening ours steady (spares_forget fp other)
    rcases mem_cons.mp member with rfl | later
    · refine (keeps_forgets ours one.steady fp rest).memory ?_
      obtain ⟨disk, process⟩ := daemon
      cases process with
      | none => exact fun _ => idle
      | some process =>
        rintro _ ⟨⟩
        exact lacks_forget process.store valid
    · exact ih one.steady later

theorem Away.saveChange (ours : String) (steady : Steady authority daemon)
    (without : Without fp daemon) (what : String) (reading : Nat) (faults : TrustFile.Faults) :
    Away authority fp (daemon.step authority ours (.saveChange what reading faults)) := by
  obtain ⟨disk, process⟩ := daemon
  cases process with
  | none => exact ⟨fun _ => idle, fun _ _ => idle⟩
  | some process =>
    exact (saves_saveChange authority process.saver disk process.store what reading
      faults).away (steady process rfl).1 (without process rfl)

theorem keeps_forgetRemovedFromCache (ours : String) (steady : Steady authority daemon)
    (store : TrustStore) (starting : Starting) (fp : String) (removed : List String) :
    Keeps authority fp daemon
      (forgetRemovedFromCache authority ours daemon store starting removed) :=
  (Keeps.survives authority ours fp daemon).forgetRemovedFromCache (.refl fp steady) store starting
    removed

theorem away_forgetRemovedFromCache (ours : String) (steady : Steady authority daemon)
    (store : TrustStore) (starting : Starting) (valid : validFingerprint fp = true)
    (member : fp ∈ removed) :
    Away authority fp (forgetRemovedFromCache authority ours daemon store starting removed) := by
  unfold forgetRemovedFromCache
  rw [if_neg (ne_nil_of_mem member)]
  exact Away.saveChange ours (keeps_forgets ours steady fp removed).steady
    (without_forgets ours steady valid member) _ _ _

/-- What a start leaves: the daemon that forgot what was removed, and what that one recorded. -/
structure Starts (authority : AuthorityBlock) (ours : String) (machine : Machine) (config : Tables)
    (starting : Starting) (process : Process) (after : Machine) : Prop where
  daemon : after.daemon = forgetRemovedFromCache authority ours
    (machine.daemon.step authority ours (.boot (starting.bootWith config))) process.store starting
    (removals (read machine.listedFile) process.store starting.reading config starting.edited)
  recorded : ∀ service, after.service = some service →
    ∃ process' now keep, after.daemon.process = some process' ∧
      (process'.saver.isPending = true → keep = true) ∧
      (∀ fp, validFingerprint fp = true → ListedBy config fp →
        Removable process'.store starting.recording fp → fp ∈ now) ∧
      (service.listed, after.listedFile) = ((read machine.listedFile).recordKeeping
        machine.listedFile now keep starting.recorded).2
  unserved : after.service = none →
    after.daemon.process = none ∧ after.listedFile = machine.listedFile

theorem startWith_starts {starting : Starting} (running : (machine.daemon.step authority ours
      (.boot (starting.bootWith config))).process = some process) :
    Starts authority ours machine config starting process
      (startWith authority ours machine config starting) := by
  unfold startWith
  dsimp only
  rw [running]
  dsimp only
  split
  · next stopped => exact ⟨rfl, nofun, fun _ => ⟨stopped, rfl⟩⟩
  · next process' isRunning =>
    refine ⟨rfl, ?_, nofun⟩
    rintro _ ⟨⟩
    refine ⟨process', _, _, isRunning, fun pending => ?_, ?_, rfl⟩
    · rw [pending, Bool.true_or, Bool.true_or]
    · rintro fp valid ⟨file, isFile, member⟩ removable
      rw [isFile, Option.getD_some, mem_filter, decide_eq_true_eq]
      refine ⟨member, List.mem_map.mpr ⟨fp, ?_, canonical_of_valid valid⟩⟩
      exact mem_removableFromTheFile.mpr removable

theorem steady_boot {authority : AuthorityBlock} (ours : String) (daemon : Daemon) (boot : Boot) :
    Steady authority (daemon.step authority ours (.boot boot)) := by
  intro process running
  have loads := loads_boot running
  exact ⟨loads.formed, loads.present⟩

theorem sound_startWith (authority : AuthorityBlock) (ours : String) (machine : Machine)
    (config : Tables) (starting : Starting) :
    Sound authority (startWith authority ours machine config starting) := by
  have steady := @steady_boot _ authority ours machine.daemon (starting.bootWith config)
  cases running : (machine.daemon.step authority ours
      (.boot (starting.bootWith config))).process with
  | none =>
    have stopped : startWith authority ours machine config starting = { machine with
        daemon := machine.daemon.step authority ours (.boot (starting.bootWith config))
        service := none } := by
      unfold startWith
      dsimp only
      rw [running]
    rw [stopped]
    exact ⟨steady, nofun⟩
  | some process =>
    have starts := startWith_starts running
    generalize startWith authority ours machine config starting = after at starts ⊢
    refine ⟨?_, fun service served => ?_⟩
    · rw [starts.daemon]
      exact (keeps_forgetRemovedFromCache ours steady process.store starting "" _).steady
    · obtain ⟨process', now, keep, -, -, -, recorded⟩ := starts.recorded service served
      have onFile : OnFile (read machine.listedFile) machine.listedFile :=
        fun fp _ member => member
      obtain ⟨isListed, isFile⟩ := Prod.mk.inj recorded
      rw [isListed, isFile]
      exact onFile.save _ starting.recorded

theorem gone_startWith {starting : Starting} (valid : validFingerprint fp = true)
    (recorded : fp ∈ (read machine.listedFile).fingerprints)
    (running : (machine.daemon.step authority ours
      (.boot (starting.bootWith config))).process = some process)
    (found : Found process.store starting.reading fp config starting.edited) :
    Gone authority fp (startWith authority ours machine config starting) := by
  have steady := @steady_boot _ authority ours machine.daemon (starting.bootWith config)
  have starts := startWith_starts running
  generalize startWith authority ours machine config starting = after at starts ⊢
  have away : Away authority fp after.daemon := by
    rw [starts.daemon]
    exact away_forgetRemovedFromCache ours steady process.store starting valid
      (mem_removals valid recorded found)
  have kept : ∀ service, after.service = some service → OnDisk authority after.daemon.disk fp →
      Recorded fp service.listed after.listedFile := by
    intro service served onDisk
    obtain ⟨process', now, keep, isRunning, keeps, -, isRecorded⟩ := starts.recorded service served
    obtain ⟨isListed, isFile⟩ := Prod.mk.inj isRecorded
    rw [isListed, isFile, keeps (away.waits onDisk process' isRunning)]
    exact Recorded.recordKeeping ⟨recorded, recorded⟩ valid now starting.recorded
  have present : Present authority after.daemon.disk := by
    rw [starts.daemon]
    exact (keeps_forgetRemovedFromCache ours steady process.store starting fp _).present
      (loads_boot running).present
  refine ⟨present, away, fun onDisk => ?_,
    fun onDisk service served => (kept service served onDisk).inMemory⟩
  cases served : after.service with
  | none =>
    rw [(starts.unserved served).2]
    exact recorded
  | some service => exact (kept service served onDisk).onDisk

/-! ## Every run -/

theorem step_daemon (ours : String) {kept : Daemon → Prop} {act : Act}
    (happens : ∀ happening, (∀ boot, happening ≠ .boot boot) →
      (∀ verb, happening = .verb verb → act.verb = some verb) → kept machine.daemon →
        kept (machine.daemon.step authority ours happening))
    (survives : Survives authority ours kept) (holds : kept machine.daemon) (running : act.isStart = false) :
    kept (machine.step authority ours act).daemon := by
  cases act with
  | edit file => exact holds
  | reload =>
    change kept (ByHand.reload machine).daemon
    unfold ByHand.reload
    split <;> exact holds
  | saveConfig reading written leavesOut recorded unrecorded =>
    have same : (saveConfig machine reading written leavesOut recorded unrecorded).daemon =
        machine.daemon := by
      unfold saveConfig
      split
      · dsimp only
        split
        · split <;> rfl
        · rfl
      · rfl
    exact same ▸ holds
  | checkRemovals reading saving =>
    change kept (checkRemovals authority ours machine reading saving).daemon
    unfold checkRemovals
    split
    · split
      · exact survives.removals saving holds _
      · exact holds
    · exact holds
  | trust happening =>
    cases happening with
    | boot boot => exact holds
    | verb verb => exact happens (.verb verb) nofun (fun _ same => by cases same; rfl) holds
    | observe reading => exact happens (.observe reading) nofun nofun holds
    | saveChange what reading faults =>
      exact happens (.saveChange what reading faults) nofun nofun holds
    | sweep reading faults => exact happens (.sweep reading faults) nofun nofun holds
    | crash => exact happens .crash nofun nofun holds
  | start starting => cases running

theorem Sound.step {authority : AuthorityBlock} (ours : String) {machine : Machine}
    (sound : Sound authority machine) (act : Act) :
    Sound authority (machine.step authority ours act) := by
  cases starts : act.isStart with
  | true =>
    cases act with
    | start starting =>
      cases onDisk : machine.file with
      | none =>
        have stops : machine.step authority ours (.start starting) = { machine with
            daemon := machine.daemon.step authority ours .crash
            service := none } := by
          rw [Machine.step, onDisk]
        rw [stops]
        exact ⟨fun _ => idle, nofun⟩
      | some config =>
        have same : machine.step authority ours (.start starting) =
            startWith authority ours machine config starting := by
          rw [Machine.step, onDisk]
        rw [same]
        exact sound_startWith authority ours machine config starting
    | _ => cases starts
  | false =>
    have survives : Survives authority ours (Steady authority) :=
      ⟨fun _ _ steady => steady_happening ours steady nofun,
        fun _ _ _ _ steady => steady_happening ours steady nofun⟩
    have records : Records machine fun listed file => ∀ l, listed = some l → OnFile l file :=
      ⟨fun _ listed _ _ writes _ holds _ same => by cases same; exact (holds listed rfl).save _ writes,
        fun _ listed _ writes _ holds _ same => by cases same; exact (holds listed rfl).save _ writes,
        fun _ _ _ _ none => nomatch none⟩
    have onFile := records.step authority ours (fun listed served => by
      obtain ⟨service, isService, rfl⟩ := Option.map_eq_some_iff.mp served
      exact sound.onFile service isService) starts
    refine ⟨step_daemon ours (fun _ running _ steady => steady_happening ours steady running)
      survives sound.steady starts, fun service served => ?_⟩
    exact onFile service.listed (by rw [served]; rfl)

theorem Gone.step {authority : AuthorityBlock} (ours : String) {fp : String} {machine : Machine}
    (gone : Gone authority fp machine) (valid : validFingerprint fp = true)
    (steady : Steady authority machine.daemon) {act : Act} (running : act.isStart = false)
    (spared : ∀ verb, act.verb = some verb → ¬ Leases fp verb ∧ ¬ Lists fp verb) :
    Gone authority fp (machine.step authority ours act) := by
  have keeps : Keeps authority fp machine.daemon (machine.step authority ours act).daemon := by
    refine step_daemon ours ?_ (Keeps.survives authority ours fp _) (.refl fp steady) running
    intro happening notBoot isVerb keeps
    refine keeps.trans (keeps_happening ours keeps.steady ?_)
    cases happening with
    | boot boot => exact notBoot boot rfl
    | verb verb => exact spared verb (isVerb verb rfl)
    | observe reading | saveChange what reading faults | sweep reading faults | crash =>
      exact trivial
  have records : Records machine fun listed file => OnDisk authority machine.daemon.disk fp →
      fp ∈ (read file).fingerprints ∧ ∀ l, listed = some l → fp ∈ l.fingerprints := by
    refine ⟨fun process listed file now writes served holds onDisk => ?_,
      fun process listed file writes served holds onDisk => ?_,
      fun _ _ holds onDisk => ⟨(holds onDisk).1, nofun⟩⟩
    · have recorded : Recorded fp listed file := ⟨(holds onDisk).2 listed rfl, (holds onDisk).1⟩
      have after := recorded.recordKeeping valid now writes
      rw [gone.away.waits onDisk process served]
      exact ⟨after.onDisk, fun _ same => Option.some.inj same ▸ after.inMemory⟩
    · have recorded : Recorded fp listed file := ⟨(holds onDisk).2 listed rfl, (holds onDisk).1⟩
      have other : fp ∉ (everyToPairAgain process.store).map canonical := by
        intro member
        obtain ⟨listed, isListed, same⟩ := List.mem_map.mp member
        obtain ⟨listing, found⟩ := mem_everyToPairAgain.mp isListed
        have valid' := ((steady process served).1.listed listed listing found).1
        rw [canonical_of_valid valid'] at same
        rw [same, (gone.away.memory process served).listing] at found
        cases found
      have after := recorded.unrecord valid other writes
      exact ⟨after.onDisk, fun _ same => Option.some.inj same ▸ after.inMemory⟩
  have record := records.step authority ours (fun onDisk => ⟨gone.onDisk onDisk,
    fun listed served => by
      obtain ⟨service, isService, rfl⟩ := Option.map_eq_some_iff.mp served
      exact gone.inMemory onDisk service isService⟩) running
  have before := keeps.onDisk gone.away.memory
  refine ⟨keeps.present gone.present, keeps.away gone.away,
    fun onDisk => (record (before onDisk)).1, fun onDisk service served => ?_⟩
  exact (record (before onDisk)).2 service.listed (by rw [served]; rfl)

theorem Sound.run {authority : AuthorityBlock} (ours : String) {machine : Machine}
    (sound : Sound authority machine) (acts : List Act) :
    Sound authority (machine.run authority ours acts) := by
  induction acts generalizing machine with
  | nil => exact sound
  | cons act rest ih => exact ih (sound.step ours act)

theorem Gone.run {authority : AuthorityBlock} (ours : String) {fp : String} {machine : Machine}
    (gone : Gone authority fp machine) (valid : validFingerprint fp = true)
    (sound : Sound authority machine) {acts : List Act}
    (running : ∀ act ∈ acts, act.isStart = false)
    (spared : ∀ act ∈ acts, ∀ verb, act.verb = some verb → ¬ Leases fp verb ∧ ¬ Lists fp verb) :
    Gone authority fp (machine.run authority ours acts) := by
  induction acts generalizing machine with
  | nil => exact gone
  | cons act rest ih =>
    have next := gone.step ours valid sound.steady (running act mem_cons_self)
      (spared act mem_cons_self)
    exact ih next (sound.step ours act)
      (fun later member => running later (mem_cons_of_mem act member))
      (fun later member => spared later (mem_cons_of_mem act member))

end Removing

end HopsFormal.Removal.ByHand
