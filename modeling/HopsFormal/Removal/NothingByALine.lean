import HopsFormal.Removal.StaysRemoved

/-!
# What a line in the config gives

A line that is added to the table gives no device a lease: leases come from the
verbs that name a device and from the trust file, which a start reads without
looking at the table.  A removal that two reads find takes the device away, and at
the next start too where the trust file still holds it.
-/

namespace HopsFormal.Removal.ByHand

open List Lib Trust Trust.TrustStore

section Removing

variable [Lowercase]

/-! ## A line gives nothing -/

/-- Neither the running daemon nor the trust file holds a lease of a device. -/
structure Unleased (authority : AuthorityBlock) (fp : String) (daemon : Daemon) : Prop where
  memory : ∀ process, daemon.process = some process → process.store.leaseAt fp = none
  file : ¬ Names (rowsOn authority daemon.disk) .active fp

variable {authority : AuthorityBlock} {disk : Disk} {process : Process} {fp : String}
  {machine : Machine} {act : Act}

theorem Goes.unleased {happening : Happening} {before after : Daemon}
    (goes : Goes authority happening before after) (steady : Steady authority before)
    (unleased : Unleased authority fp before)
    (other : ∀ verb, happening = .verb verb → ¬ Leases fp verb) :
    Unleased authority fp after := by
  cases goes with
  | stays => exact unleased
  | stops => exact ⟨fun _ => idle, unleased.file⟩
  | @does process running verb named =>
    refine ⟨?_, unleased.file⟩
    rintro _ ⟨⟩
    refine leaseAt_step_none (steady process running).1 (unleased.memory process running) ?_
    rcases named with isVerb | ⟨reading, rfl⟩
    · exact other verb isVerb
    · exact (sweep_names fp reading).1
  | @saves process saver disk' running saves =>
    refine ⟨?_, ?_⟩
    · rintro _ ⟨⟩
      exact unleased.memory process running
    · rcases saves.leaves.rows with same | written
      · rw [same]
        exact unleased.file
      · rw [written]
        exact (not_names_recordsOf (steady process running).1).1 (unleased.memory process running)

/-- A daemon that is steady and holds no lease of a device. -/
structure Barred (authority : AuthorityBlock) (fp : String) (daemon : Daemon) : Prop where
  steady : Steady authority daemon
  unleased : Unleased authority fp daemon

variable (ours : String)

theorem Barred.happening {daemon : Daemon} (barred : Barred authority fp daemon)
    {happening : Happening} (running : ∀ boot, happening ≠ .boot boot)
    (other : ∀ verb, happening = .verb verb → ¬ Leases fp verb) :
    Barred authority fp (daemon.step authority ours happening) :=
  ⟨steady_happening ours barred.steady running,
    (step_goes authority ours daemon running).unleased barred.steady barred.unleased other⟩

theorem Barred.survives (authority : AuthorityBlock) (ours fp : String) :
    Survives authority ours (Barred authority fp) where
  forgets _ _ barred := by
    refine barred.happening ours nofun ?_
    rintro verb ⟨⟩
    exact (spares_forget fp _).1
  saves _ _ _ _ barred := barred.happening ours nofun nofun

theorem Barred.boot {daemon : Daemon} (absent : ¬ Names (rowsOn authority daemon.disk) .active fp)
    (boot : Boot) : Barred authority fp (daemon.step authority ours (.boot boot)) := by
  refine ⟨steady_boot ours daemon boot, fun process running => ?_, ?_⟩
  · exact (loads_boot running).lease fp absent
  · exact startService_unleased rfl absent

theorem Barred.step (barred : Barred authority fp machine.daemon)
    (other : ∀ verb, act.verb = some verb → ¬ Leases fp verb) :
    Barred authority fp (machine.step authority ours act).daemon := by
  cases starts : act.isStart with
  | false =>
    refine step_daemon ours ?_ (Barred.survives authority ours fp) barred starts
    intro happening notBoot isVerb barred
    exact barred.happening ours notBoot fun verb same => other verb (isVerb verb same)
  | true =>
    cases act with
    | start starting =>
      cases onDisk : machine.file with
      | none =>
        rw [Machine.step, onDisk]
        exact ⟨fun _ => idle, fun _ => idle, barred.unleased.file⟩
      | some config =>
        have boots := Barred.boot ours barred.unleased.file (starting.bootWith config)
        rw [Machine.step, onDisk]
        cases running : (machine.daemon.step authority ours
            (.boot (starting.bootWith config))).process with
        | none =>
          unfold startWith
          dsimp only
          rw [running]
          exact boots
        | some process =>
          rw [(startWith_starts running).daemon]
          exact (Barred.survives authority ours fp).forgetRemovedFromCache boots
            process.store starting _
    | _ => cases starts

theorem Barred.run (barred : Barred authority fp machine.daemon) {acts : List Act}
    (other : ∀ act ∈ acts, ∀ verb, act.verb = some verb → ¬ Leases fp verb) :
    Barred authority fp (machine.run authority ours acts).daemon := by
  induction acts generalizing machine with
  | nil => exact barred
  | cons act rest ih =>
    exact ih (barred.step ours (other act mem_cons_self))
      fun later member => other later (mem_cons_of_mem act member)

/-! ## A lease stays what it was -/

/-- Every lease of the daemon after was one of the daemon before. -/
def Narrows (before after : Daemon) : Prop :=
  ∀ process, after.process = some process → ∃ earlier, before.process = some earlier ∧
    ∀ fp lease, process.store.leaseAt fp = some lease → earlier.store.leaseAt fp = some lease

omit [Lowercase] in
theorem Narrows.refl (daemon : Daemon) : Narrows daemon daemon :=
  fun process running => ⟨process, running, fun _ _ found => found⟩

omit [Lowercase] in
theorem Narrows.trans {before middle after : Daemon} (one : Narrows before middle)
    (two : Narrows middle after) : Narrows before after := by
  intro process running
  obtain ⟨between, isBetween, later⟩ := two process running
  obtain ⟨earlier, isEarlier, first⟩ := one between isBetween
  exact ⟨earlier, isEarlier, fun fp lease found => first fp lease (later fp lease found)⟩

theorem narrows_forget (authority : AuthorityBlock) (ours : String) (daemon : Daemon)
    (fp : String) : Narrows daemon (daemon.step authority ours (.verb (.forget fp))) := by
  obtain ⟨disk, process⟩ := daemon
  cases process with
  | none => exact fun _ => idle
  | some process =>
    rintro _ ⟨⟩
    refine ⟨process, rfl, fun other lease found => ?_⟩
    change ((process.store.unlist (key fp)).removeEntry (key fp)).leaseAt other = _ at found
    rw [leaseAt_removeEntry, leaseAt_unlist] at found
    split at found
    · cases found
    · exact found

omit [Lowercase] in
theorem narrows_saving (daemon : Daemon) (save : Process → Option Trust.Notice × TrustSaver × Disk) :
    Narrows daemon (daemon.saving save) := by
  obtain ⟨disk, process⟩ := daemon
  cases process with
  | none => exact fun _ => idle
  | some process =>
    rintro _ ⟨⟩
    exact ⟨process, rfl, fun _ _ found => found⟩

theorem narrows_happening (authority : AuthorityBlock) (ours : String) (daemon : Daemon)
    {happening : Happening} (running : ∀ boot, happening ≠ .boot boot)
    (quiet : ∀ verb, happening ≠ .verb verb) :
    Narrows daemon (daemon.step authority ours happening) := by
  cases happening with
  | boot boot => exact absurd rfl (running boot)
  | verb verb => exact absurd rfl (quiet verb)
  | crash => exact fun _ => idle
  | saveChange what reading faults | sweep reading faults => exact narrows_saving daemon _
  | observe reading =>
    obtain ⟨disk, process⟩ := daemon
    cases process with
    | none => exact fun _ => idle
    | some process =>
      rintro _ ⟨⟩
      exact ⟨process, rfl, fun _ _ found => found⟩

theorem Narrows.survives (authority : AuthorityBlock) (ours : String) (before : Daemon) :
    Survives authority ours (Narrows before) where
  forgets daemon fp narrows := narrows.trans (narrows_forget authority ours daemon fp)
  saves daemon _ _ _ narrows := narrows.trans (narrows_saving daemon _)

theorem narrows_step (quiet : act.verb = none) (running : act.isStart = false) :
    Narrows machine.daemon (machine.step authority ours act).daemon := by
  refine step_daemon ours ?_ (Narrows.survives authority ours _) (.refl _) running
  intro happening notBoot isVerb narrows
  refine narrows.trans (narrows_happening authority ours _ notBoot fun verb same => ?_)
  rw [isVerb verb same] at quiet
  cases quiet

theorem startService_tables (present : Present authority disk) (starting : Starting)
    (config other : Tables) : startService authority ours disk (starting.bootWith config) =
      startService authority ours disk (starting.bootWith other) := by
  obtain ⟨body, isStore⟩ := present
  unfold startService
  cases opensAs : TrustFile.open_ authority disk with
  | error e => rfl
  | ok opened =>
    obtain ⟨file, loaded⟩ := opened
    cases loaded with
    | present serial writtenAt leases => rfl
    | absent =>
      obtain ⟨seconds, floorSerial, -, ⟨isAbsent, -⟩ | ⟨body', serial, writtenAt, rows, -, -, -,
        -, isOpened⟩⟩ := TrustFile.open_ok.mp opensAs
      · rw [isStore] at isAbsent
        cases isAbsent
      · cases (Prod.mk.inj isOpened).2

theorem not_names_absent (absent : ¬ Present authority disk) (kind : DiskState) (fp : String) :
    ¬ Names (rowsOn authority disk) kind fp := by
  rintro ⟨row, member, -⟩
  unfold rowsOn at member
  split at member
  · next body isStore => exact absent ⟨body, isStore⟩
  · cases member

theorem leaseAt_start {starting : Starting}
    (running : (machine.step authority ours (.start starting)).daemon.process = some process)
    {lease : Lease} (found : process.store.leaseAt fp = some lease) (config : Tables) : ∃ loaded,
      (machine.daemon.step authority ours (.boot (starting.bootWith config))).process =
        some loaded ∧ loaded.store.leaseAt fp = some lease := by
  cases onDisk : machine.file with
  | none =>
    rw [Machine.step, onDisk] at running
    cases running
  | some read =>
    rw [Machine.step, onDisk] at running
    cases boots : (machine.daemon.step authority ours (.boot (starting.bootWith read))).process with
    | none =>
      unfold startWith at running
      dsimp only at running
      rw [boots] at running
      rw [boots] at running
      cases running
    | some loaded =>
      rw [(startWith_starts boots).daemon] at running
      have narrows := (Narrows.survives authority ours (machine.daemon.step authority ours
        (.boot (starting.bootWith read)))).forgetRemovedFromCache (.refl _) loaded.store starting
      obtain ⟨earlier, isEarlier, kept⟩ := narrows _ process running
      have held := kept fp lease found
      by_cases present : Present authority machine.daemon.disk
      · refine ⟨earlier, ?_, held⟩
        rw [← isEarlier]
        exact congrArg Prod.fst (startService_tables ours present starting config read)
      · rw [(loads_boot isEarlier).lease fp (not_names_absent present _ fp)] at held
        cases held

/-! ## What a read records -/

/-- A start or a save of the config finds a device in the table, and records it. -/
def Act.Lists (authority : AuthorityBlock) (ours : String) (machine : Machine) (fp : String) :
    Act → Prop
  | .start starting => starting.recorded = true ∧ ∃ config process,
      machine.file = some config ∧ ListedBy config fp ∧
        (machine.step authority ours (.start starting)).daemon.process = some process ∧
          Removable process.store starting.recording fp
  | .saveConfig reading written _ recorded _ => written = true ∧ recorded = true ∧
      machine.service.isSome ∧ ∃ process, machine.daemon.process = some process ∧
        fp ∈ (configCache process.store reading).map Prod.fst
  | _ => False

/-- A start or a save of the config that may write the record. -/
def Act.records : Act → Bool
  | .start starting => starting.recorded
  | .saveConfig _ written _ recorded unrecorded => written && (recorded || unrecorded)
  | _ => false

/-- A device is recorded as listed, on disk and by the service that runs. -/
structure Machine.Lists (machine : Machine) (fp : String) : Prop where
  onDisk : fp ∈ (Listed.read machine.listedFile).fingerprints
  inMemory : ∀ service, machine.service = some service → fp ∈ service.listed.fingerprints

theorem lists_startWith {starting : Starting} (recorded : starting.recorded = true)
    (valid : validFingerprint fp = true) {config : Tables} (listed : ListedBy config fp)
    (running : (startWith authority ours machine config starting).daemon.process = some process)
    (removable : Removable process.store starting.recording fp) :
    (startWith authority ours machine config starting).Lists fp := by
  cases boots : (machine.daemon.step authority ours (.boot (starting.bootWith config))).process with
  | none =>
    unfold startWith at running
    dsimp only at running
    rw [boots] at running
    rw [boots] at running
    cases running
  | some loaded =>
    have starts := startWith_starts boots
    generalize startWith authority ours machine config starting = after at running starts ⊢
    cases served : after.service with
    | none =>
      rw [(starts.unserved served).1] at running
      cases running
    | some service =>
      obtain ⟨process', now, keep, isRunning, -, told, isRecorded⟩ := starts.recorded service served
      cases running.symm.trans isRunning
      obtain ⟨isListed, isFile⟩ := Prod.mk.inj isRecorded
      have onFile : OnFile (Listed.read machine.listedFile) machine.listedFile :=
        fun _ _ member => member
      have held := (onFile.recorded valid (told fp valid listed removable) keep).2
      rw [← recorded, ← isListed, ← isFile] at held
      refine ⟨held.onDisk, fun other same => ?_⟩
      cases served.symm.trans same
      exact held.inMemory

theorem lists_saveConfig (sound : Sound authority machine) (valid : validFingerprint fp = true)
    {service : Service} (served : machine.service = some service)
    (running : machine.daemon.process = some process) {reading : Nat}
    (member : fp ∈ (configCache process.store reading).map Prod.fst)
    (leavesOut unrecorded : Bool) :
    (saveConfig machine reading true leavesOut true unrecorded).Lists fp := by
  obtain ⟨taken, held⟩ := (sound.onFile service served).recorded valid member
    process.saver.isPending
  have formed := (sound.steady process running).1
  -- a device that is cached is not listed to be paired again, which the record drops
  have other : fp ∉ (everyToPairAgain process.store).map canonical := by
    intro among
    obtain ⟨listed, isListed, same⟩ := List.mem_map.mp among
    obtain ⟨listing, found⟩ := mem_everyToPairAgain.mp isListed
    rw [canonical_of_valid (formed.listed listed listing found).1] at same
    obtain ⟨lease, leased, confirmed, -⟩ := mem_configCache.mp member
    rw [same, formed.apart fp lease leased confirmed] at found
    cases found
  rw [saveConfig, running, served]
  dsimp only
  rw [if_pos rfl]
  generalize service.listed.recordKeeping machine.listedFile
    ((configCache process.store reading).map Prod.fst) process.saver.isPending true = out
    at taken held
  obtain ⟨taken', listed, listedFile⟩ := out
  cases taken
  have kept := held.unrecord valid other unrecorded
  refine ⟨kept.onDisk, ?_⟩
  rintro _ ⟨⟩
  exact kept.inMemory

theorem lists_step (sound : Sound authority machine) (valid : validFingerprint fp = true)
    (lists : act.Lists authority ours machine fp) :
    (machine.step authority ours act).Lists fp := by
  cases act with
  | start starting =>
    obtain ⟨recorded, config, process, onDisk, listed, running, removable⟩ := lists
    rw [Machine.step, onDisk] at running ⊢
    exact lists_startWith ours recorded valid listed running removable
  | saveConfig reading written leavesOut recorded unrecorded =>
    obtain ⟨rfl, rfl, serves, process, running, member⟩ := lists
    obtain ⟨service, served⟩ := Option.isSome_iff_exists.mp serves
    exact lists_saveConfig sound valid served running member leavesOut unrecorded
  | edit file | reload | checkRemovals reading saving | trust happening => exact lists.elim

namespace Machine.Lists

/-- Whoever has the record as it was still has the device recorded. -/
theorem unchanged {after : Machine} (lists : machine.Lists fp)
    (onDisk : after.listedFile = machine.listedFile)
    (inMemory : after.service.map Service.listed = machine.service.map Service.listed) :
    after.Lists fp := by
  refine ⟨onDisk ▸ lists.onDisk, fun service served => ?_⟩
  rw [served] at inMemory
  obtain ⟨before, serving, same⟩ := Option.map_eq_some_iff.mp inMemory.symm
  exact same ▸ lists.inMemory before serving

theorem saveConfig (lists : machine.Lists fp) {written recorded unrecorded : Bool}
    (unwritten : (written && (recorded || unrecorded)) = false) (reading : Nat)
    (leavesOut : Bool) :
    (saveConfig machine reading written leavesOut recorded unrecorded).Lists fp := by
  unfold ByHand.saveConfig
  split
  · next process service running served =>
    dsimp only
    split
    · next isWritten =>
      obtain ⟨rfl, rfl⟩ : recorded = false ∧ unrecorded = false := by
        simpa [isWritten] using unwritten
      have kept := save_unwritten service.listed machine.listedFile
      unfold Listed.recordKeeping Listed.unrecord
      dsimp only
      split
      · next listed listedFile isOut =>
        cases (congrArg Prod.snd isOut).symm.trans (kept _)
        exact lists.unchanged rfl (by rw [served]; rfl)
      · next listed listedFile isOut =>
        cases (congrArg Prod.snd isOut).symm.trans (kept _)
        rw [kept]
        exact lists.unchanged rfl (by rw [served]; rfl)
    · exact lists.unchanged rfl (by rw [served]; rfl)
  · exact lists

theorem startWith (lists : machine.Lists fp) {starting : Starting}
    (unrecorded : starting.recorded = false) (config : Tables) :
    (startWith authority ours machine config starting).Lists fp := by
  cases boots : (machine.daemon.step authority ours (.boot (starting.bootWith config))).process with
  | none =>
    unfold ByHand.startWith
    dsimp only
    rw [boots]
    exact ⟨lists.onDisk, fun _ serves => by cases serves⟩
  | some loaded =>
    have starts := startWith_starts boots
    generalize ByHand.startWith authority ours machine config starting = after at starts ⊢
    cases served : after.service with
    | none =>
      refine ⟨?_, fun _ same => by cases served.symm.trans same⟩
      rw [(starts.unserved served).2]
      exact lists.onDisk
    | some service =>
      obtain ⟨process', now, keep, -, -, -, isRecorded⟩ := starts.recorded service served
      rw [unrecorded, Listed.recordKeeping, save_unwritten] at isRecorded
      obtain ⟨isListed, isFile⟩ := Prod.mk.inj isRecorded
      refine ⟨isFile ▸ lists.onDisk, fun other same => ?_⟩
      cases served.symm.trans same
      exact isListed ▸ lists.onDisk

theorem step (lists : machine.Lists fp) (unrecorded : act.records = false) :
    (machine.step authority ours act).Lists fp := by
  cases act with
  | edit file => exact lists.unchanged rfl rfl
  | reload =>
    change (reload machine).Lists fp
    unfold reload
    split
    · next service config served onFile => exact lists.unchanged rfl (by rw [served]; rfl)
    · exact lists
  | saveConfig reading written leavesOut recorded unwritten =>
    exact lists.saveConfig unrecorded reading leavesOut
  | checkRemovals reading saving =>
    change (checkRemovals authority ours machine reading saving).Lists fp
    unfold checkRemovals
    split
    · next process service _ served =>
      split
      · exact lists.unchanged rfl (by rw [served]; rfl)
      · exact lists
    · exact lists
  | trust happening =>
    cases happening with
    | crash => exact ⟨lists.onDisk, fun _ serves => by cases serves⟩
    | boot boot => exact lists
    | verb verb | observe reading | saveChange what reading faults
    | sweep reading faults => exact lists.unchanged rfl rfl
  | start starting =>
    rw [Machine.step]
    cases machine.file with
    | none => exact ⟨lists.onDisk, fun _ serves => by cases serves⟩
    | some config => exact lists.startWith ours unrecorded config

end Machine.Lists

/-- The last start or save that recorded what it read listed a device. -/
def LastListed (authority : AuthorityBlock) (ours : String) (machine : Machine) (fp : String)
    (acts : List Act) : Prop :=
  Since (fun taken : Machine × Act => taken.2.records = true)
    (fun _ taken _ => taken.2.Lists authority ours taken.1 fp)
    (trace (Machine.step authority ours) machine acts)

theorem LastListed.lists {acts : List Act} (last : LastListed authority ours machine fp acts)
    (sound : Sound authority machine) (valid : validFingerprint fp = true) :
    (machine.run authority ours acts).Lists fp := by
  induction acts using List.reverseRecOn with
  | nil =>
    obtain ⟨past, taken, later, split, -⟩ := last
    cases past <;> cases split
  | append_singleton acts act ih =>
    rw [LastListed, trace_append] at last
    rw [Machine.run, foldl_append]
    rcases last.of_snoc with now | ⟨quiet, earlier⟩
    · exact lists_step ours (sound.run ours acts) valid now
    · exact (ih earlier).step ours (by simpa using quiet)

/-! ## A removal stands -/

/-- Two reads find a device removed: those of a check, or those of a start. -/
def Act.Removes (authority : AuthorityBlock) (ours : String) (machine : Machine) (fp : String) :
    Act → Prop
  | .checkRemovals reading _ => ∃ process service, machine.daemon.process = some process ∧
      machine.service = some service ∧ service.removalCheck = true ∧
        Found process.store reading fp service.config machine.file
  | .start starting => ∃ config process, machine.file = some config ∧
      (machine.daemon.step authority ours (.boot (starting.bootWith config))).process =
          some process ∧ Found process.store starting.reading fp config starting.edited
  | _ => False

theorem gone_removes {ours : String} (sound : Sound authority machine)
    (valid : validFingerprint fp = true) (lists : machine.Lists fp)
    (removes : act.Removes authority ours machine fp) :
    Gone authority fp (machine.step authority ours act) := by
  cases act with
  | checkRemovals reading saving =>
    obtain ⟨process, service, running, served, due, found⟩ := removes
    have recorded := lists.inMemory service served
    have checked : machine.step authority ours (.checkRemovals reading saving) = { machine with
        daemon := (removals service.listed process.store reading service.config
          machine.file).foldl (removeAuthorizedKey authority ours saving) machine.daemon
        service := some { service with removalCheck := false } } := by
      change checkRemovals authority ours machine reading saving = _
      unfold checkRemovals
      rw [running, served]
      dsimp only
      rw [if_pos due]
    rw [checked]
    refine ⟨(keeps_removals ours saving sound.steady fp _).present (sound.steady process running).2,
      away_removals ours saving sound.steady valid (mem_removals valid recorded found),
      fun _ => sound.onFile service served fp valid recorded, ?_⟩
    rintro _ _ ⟨⟩
    exact recorded
  | start starting =>
    obtain ⟨config, process, onDisk, running, found⟩ := removes
    rw [Machine.step, onDisk]
    exact gone_startWith valid lists.onDisk running found
  | edit file | reload | saveConfig reading written leavesOut recorded unrecorded
  | trust happening => exact removes.elim

/-- What a start loads of a device is a row of the file. -/
theorem onDisk_of_removable {disk' : Disk} (loads : Loads authority disk process disk')
    (present : Present authority disk) {reading : Nat}
    (removable : Removable process.store reading fp) : OnDisk authority disk fp := by
  by_contra absent
  unfold OnDisk at absent
  rw [not_or] at absent
  rcases removable with ⟨lease, found, -⟩ | ⟨listing, found⟩
  · rw [loads.lease fp absent.1] at found
    cases found
  · rw [loads.listing present fp absent.2] at found
    cases found

/--
Adding a line to the table gives no fingerprint a capability; a device that the last
recorded read listed, or that is recorded still, is trusted to drive this machine or
listed to be paired again, and is in neither of two reads of the table is forgotten;
and if the trust file still holds it at the next start whose two reads do not find it
either, it is forgotten again.
-/
theorem removed_by_hand (authority : AuthorityBlock) (ours : String) (disk : Disk)
    (file : Option Tables) (listedFile : Option String) (acts : List Act) :
    let off : Machine := ⟨⟨disk, none⟩, none, file, listedFile⟩
    let machine := off.run authority ours acts
    (∀ fp, ¬ Names (rowsOn authority disk) .active fp →
      (∀ act ∈ acts, ∀ verb, act.verb = some verb → ¬ Leases fp verb) →
        ∀ process, machine.daemon.process = some process → ∀ now fingerprint,
          key fingerprint = fp → process.store.capabilitiesAt now fingerprint = .none) ∧
    (∀ act, act.verb = none → ∀ process fp lease,
      (machine.step authority ours act).daemon.process = some process →
        process.store.leaseAt fp = some lease →
          (∃ before, machine.daemon.process = some before ∧ before.store.leaseAt fp = some lease) ∨
            ∃ starting, act = .start starting ∧ ∀ config, ∃ loaded,
              (machine.daemon.step authority ours (.boot (starting.bootWith config))).process =
                some loaded ∧ loaded.store.leaseAt fp = some lease) ∧
    ∀ fp act, validFingerprint fp = true →
      (LastListed authority ours off fp acts ∨ machine.Lists fp) →
      act.Removes authority ours machine fp →
      (∀ process, (machine.step authority ours act).daemon.process = some process →
        Lacks process.store fp) ∧
      ∀ later, (∀ act ∈ later, act.isStart = false) →
        (∀ act ∈ later, ∀ verb, act.verb = some verb → ¬ Leases fp verb ∧ ¬ Lists fp verb) →
          let stopped := (machine.step authority ours act).run authority ours later
          ∀ starting config loaded, stopped.file = some config →
            (stopped.daemon.step authority ours (.boot (starting.bootWith config))).process =
              some loaded →
            Found loaded.store starting.reading fp config starting.edited →
              ∀ process, (stopped.step authority ours (.start starting)).daemon.process =
                some process → Lacks process.store fp := by
  intro off
  have offSound : Sound authority off := ⟨fun _ => idle, nofun⟩
  have sound := offSound.run ours acts
  refine ⟨?_, ?_, ?_⟩
  · intro fp absent other process running now fingerprint isFp
    have barred : Barred authority fp off.daemon :=
      ⟨fun _ => idle, fun _ => idle, absent⟩
    have none_ := (barred.run ours other).unleased.memory process running
    rw [capabilitiesAt_eq, isFp, none_]
    rfl
  · intro act quiet process fp lease running found
    cases starts : act.isStart with
    | false =>
      obtain ⟨before, isBefore, held⟩ := narrows_step ours quiet starts process running
      exact .inl ⟨before, isBefore, held fp lease found⟩
    | true =>
      cases act with
      | start starting =>
        exact .inr ⟨starting, rfl, leaseAt_start ours running found⟩
      | _ => cases starts
  · intro fp act valid listed removes
    have lists : (off.run authority ours acts).Lists fp :=
      listed.elim (·.lists ours offSound valid) id
    have gone := gone_removes sound valid lists removes
    refine ⟨gone.away.memory, ?_⟩
    intro later running spared
    have still := gone.run ours valid (sound.step ours act) running spared
    intro stopped starting config loaded onDisk boots found
    have recorded := still.onDisk
      (onDisk_of_removable (loads_boot boots) still.present found.removable)
    have again := gone_startWith valid recorded boots found
    rw [Machine.step, onDisk]
    exact again.away.memory

end Removing

/-! ## A removal that is not one -/

/-- A machine that runs and has its removals to look for, with another in its record. -/
def leftRunning (store : TrustStore) (tables : Tables) : Machine :=
  ⟨⟨⟨none, none, none, none⟩, some ⟨store, .new ⟨1, 1, none, none⟩⟩⟩,
    some ⟨tables, ⟨{machineB}⟩, true⟩, some tables, some (Listed.text {machineB})⟩

def tableTakenOut : Machine :=
  leftRunning { freshStore with pairAgain := freshStore.pairAgain.insert machineB ⟨"desk", 1⟩ }
    ⟨none, ∅⟩

/-- The other is driven from here, and its line is taken out of the table. -/
def onlyDriven : Machine :=
  leftRunning (freshStore.setLease machineB ⟨machineB, machineA, "desk", .iMayDrive,
    .chosen .thisMachine, 1, .never, true, true⟩) ⟨some ∅, ∅⟩

/-- A device is recorded as listed, and neither the config nor its file lists it. -/
def Machine.listsNoLonger [Lowercase] (machine : Machine) (fp : String) : Bool :=
  machine.service.any fun service => service.removalCheck ∧ fp ∈ service.listed.fingerprints ∧
    fp ∉ ((listedIn service.config).getD []).map canonical ∧
    fp ∉ ((machine.file.bind listedIn).getD []).map canonical

/--
A device that was listed and is in neither of two reads is not forgotten where the table
is not there to be read, and not where it is only driven from here.
-/
theorem removed_by_hand_kept :
    letI := asciiLowercase
    let authority : AuthorityBlock := ⟨"ed25519", "key"⟩
    let looksAgain : Act := .checkRemovals 2 fun _ => ⟨2, {}⟩
    (tableTakenOut.listsNoLonger machineB = true ∧
      ((tableTakenOut.step authority machineA looksAgain).daemon.process.any fun process =>
        process.store.pairAgain[machineB]?.isSome) = true) ∧
    onlyDriven.listsNoLonger machineB = true ∧
      ((onlyDriven.step authority machineA looksAgain).daemon.process.any fun process =>
        (process.store.leaseAt machineB).isSome) = true := by
  decide +kernel

end HopsFormal.Removal.ByHand
