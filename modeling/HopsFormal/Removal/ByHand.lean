import HopsFormal.Removal.CacheListed

/-!
# A config that is edited by hand

The daemon starts, reads its config again, saves it, and saves the trust store, each
of which may fail; in between the tables of the config are edited by hand.  A removal
found at a start or after a reload is confirmed by a second read, the device is
forgotten in memory, and the store is saved or waits.
-/

namespace HopsFormal.Removal.ByHand

open Lib Trust
open Config (sameMap)

/-- What a running daemon holds of its config. -/
structure Service where
  config : Tables
  listed : Listed
  removalCheck : Bool

/-- One machine; a config that cannot be read, is empty or does not parse is `none`. -/
structure Machine where
  daemon : Daemon
  service : Option Service
  file : Option Tables
  listedFile : Option String

/-- Which clock reading a save finds, and which of its writes fail. -/
structure Saving where
  reading : Nat
  faults : TrustFile.Faults

/-- What a start meets: the config as edited before its second read, the clock, the writes. -/
structure Starting where
  boot : Boot
  edited : Option Tables
  reading : Nat
  recording : Nat
  saving : Saving
  recorded : Bool

inductive Act where
  | edit (file : Option Tables)
  | reload
  | saveConfig (reading : Nat) (written leavesOut recorded unrecorded : Bool)
  | checkRemovals (reading : Nat) (saving : String → Saving)
  | trust (happening : Happening)
  | start (starting : Starting)

/-- How a notice names a device. -/
def named (label fp : String) : String :=
  let label := trim label
  if label = "" then
    "the device " ++ if fp.toList.length < 11 then fp else String.ofList (fp.toList.take 11)
  else "\"" ++ label ++ "\""

section Steps

variable [Lowercase]

/-- The name a device is held under. -/
def labelHeld (store : TrustStore) (fp : String) : String :=
  ((store.label fp).or ((store.toPairAgain fp).map PairAgain.label)).getD ""

/-! ## Removing what was found removed -/

variable (authority : AuthorityBlock)

variable (ours : String) (machine : Machine)

/-- Forget a device and save the store, or leave it waiting. -/
def removeAuthorizedKey (saving : String → Saving) (daemon : Daemon) (fp : String) : Daemon :=
  match daemon.process with
  | none => daemon
  | some process =>
    let fp := canonical fp
    let what := "removing " ++ named (labelHeld process.store fp) fp
    (daemon.step authority ours (.verb (.forget fp))).step authority ours
      (.saveChange what (saving fp).reading (saving fp).faults)

/-- What is removed, of what a read of the config found: a second read must agree. -/
def removals (listed : Listed) (store : TrustStore) (reading : Nat) (config : Tables)
    (file : Option Tables) : List String :=
  let removed := listed.removed (removableFromTheFile store reading) (listedIn config)
  if removed = [] then [] else confirmed removed (file.bind listedIn)

def checkRemovals (reading : Nat) (saving : String → Saving) : Machine :=
  match machine.daemon.process, machine.service with
  | some process, some service =>
    if service.removalCheck then
      let removed := removals service.listed process.store reading service.config machine.file
      { machine with
        daemon := removed.foldl (removeAuthorizedKey authority ours saving) machine.daemon
        service := some { service with removalCheck := false } }
    else machine
  | _, _ => machine

/-- Take in an edited config; removals are looked for once it has settled. -/
def reload : Machine :=
  match machine.service, machine.file with
  | some service, some config =>
    { machine with service := some { service with config, removalCheck := true } }
  | _, _ => machine

/-! ## Saving the config -/

/-- The tables a save writes; whether an empty table is left out is not the program's. -/
def mergeTables (file : Option Tables) (cache : Table String String) (leavesOut : Bool) : Tables :=
  let rendered := if cache.entries = [] ∧ leavesOut = true then none else some cache
  match file with
  | none => ⟨rendered, ∅⟩
  | some theirs =>
    ⟨if sameMap theirs.authorized (some cache) then theirs.authorized else rendered, ∅⟩

/-- Write what the store trusts to the table, then record it. -/
def saveConfig (reading : Nat) (written leavesOut recorded unrecorded : Bool) : Machine :=
  match machine.daemon.process, machine.service with
  | some process, some service =>
    let rows := configCache process.store reading
    let cache : Table String String := (rows.map fun row => ⟨row.1, row.2⟩).toAList
    let service := { service with config := ⟨some cache, ∅⟩ }
    if written then
      let file := some (mergeTables machine.file cache leavesOut)
      match service.listed.recordKeeping machine.listedFile (rows.map Prod.fst)
          process.saver.isPending recorded with
      | (false, listed, listedFile) =>
        { machine with file, listedFile, service := some { service with listed } }
      | (true, listed, listedFile) =>
        let out := listed.unrecord listedFile (everyToPairAgain process.store) unrecorded
        { machine with
          file
          listedFile := out.2.2
          service := some { service with listed := out.2.1 } }
    else { machine with service := some service }
  | _, _ => machine

/-! ## Starting -/

def recordListed (listed : Listed) (listedFile : Option String) (store : TrustStore)
    (reading : Nat) (config : Tables) (keep recorded : Bool) : Listed × Option String :=
  let granted := (removableFromTheFile store reading).map canonical
  let now := (((listedIn config).getD []).map canonical).filter fun fp => fp ∈ granted
  (listed.recordKeeping listedFile now keep recorded).2

/-- What a start hands the trust store: the tables as the config has them. -/
def Starting.bootWith (starting : Starting) (config : Tables) : Boot :=
  { starting.boot with
    authorized := (config.authorized.map lowered).getD []
    revoked := revokedKeys config }

/-- Forget what two reads of the config find removed, and save the store if that is any. -/
def forgetRemovedFromCache (daemon : Daemon) (store : TrustStore) (starting : Starting)
    (removed : List String) : Daemon :=
  let what := "removing " ++ ", ".intercalate (removed.map fun fp => named (labelHeld store fp) fp)
  let forgetting := removed.foldl (fun (daemon : Daemon) fp =>
    daemon.step authority ours (.verb (.forget fp))) daemon
  if removed = [] then forgetting else
    forgetting.step authority ours (.saveChange what starting.saving.reading starting.saving.faults)

/-- A start with a config: the file may be edited between the two reads of it. -/
def startWith (config : Tables) (starting : Starting) : Machine :=
  let daemon := machine.daemon.step authority ours (.boot (starting.bootWith config))
  match daemon.process with
  | none => { machine with daemon, service := none }
  | some process =>
    let listed := Listed.read machine.listedFile
    let found := listed.removed (removableFromTheFile process.store starting.reading)
      (listedIn config)
    let removed := removals listed process.store starting.reading config starting.edited
    let daemon := forgetRemovedFromCache authority ours daemon process.store starting removed
    match daemon.process with
    | none => { machine with daemon, service := none }
    | some process =>
      let keep := process.saver.isPending || decide (removed.length ≠ found.length) ||
        (listedIn config).isNone
      let out := recordListed listed machine.listedFile process.store starting.recording
        config keep starting.recorded
      { daemon
        service := some ⟨config, out.1, false⟩
        file := if found = [] then machine.file else starting.edited
        listedFile := out.2 }

namespace Machine

def step (authority : AuthorityBlock) (ours : String) (machine : Machine) : Act → Machine
  | .edit file => { machine with file }
  | .reload => reload machine
  | .saveConfig reading written leavesOut recorded unrecorded =>
    saveConfig machine reading written leavesOut recorded unrecorded
  | .checkRemovals reading saving => checkRemovals authority ours machine reading saving
  | .trust (.boot _) => machine
  | .trust .crash =>
    { machine with daemon := machine.daemon.step authority ours .crash, service := none }
  | .trust happening =>
    { machine with daemon := machine.daemon.step authority ours happening }
  | .start starting =>
    match machine.file with
    | none => { machine with
        daemon := machine.daemon.step authority ours .crash
        service := none }
    | some config => startWith authority ours machine config starting

def run (authority : AuthorityBlock) (ours : String) (machine : Machine) (acts : List Act) :
    Machine :=
  acts.foldl (step authority ours) machine

end Machine

end Steps

end HopsFormal.Removal.ByHand
