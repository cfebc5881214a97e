import HopsFormal.Config.Aligned

/-!
# Reading the config back

The daemon remembers the text it last saw and the devices it last synced.  A text
that is blank or cannot be read is not taken in; the same text is not read twice.
Between an edit by hand, a read, a change of the daemon's own and a save, anything
may come next.
-/

namespace HopsFormal.Config

open Edges (ConfigClient)
open Lib
open Trust (trim)

variable {Ip Settings : Type} [DecidableEq Ip]

/-! ## Reading a text -/

/-- A file is empty between its truncation and the write of a save in place. -/
def blank (text : String) : Bool :=
  trim text = ""

deriving instance DecidableEq for TomlClient

/-- Two tables of a config, each of which may be missing, have the same rows. -/
def sameTable {α : Type} [DecidableEq α] :
    Option (Table String α) → Option (Table String α) → Bool
  | none, none => true
  | some first, some second =>
    (first.keys ++ second.keys).all fun key => first.lookup key = second.lookup key
  | _, _ => false

@[grind =]
def ConfigToml.same [DecidableEq Settings] (first second : ConfigToml Ip Settings) : Bool :=
  first.clients = second.clients &&
    sameTable first.authorizedFingerprints second.authorizedFingerprints &&
    sameTable first.revokedFingerprints second.revokedFingerprints &&
    first.settings = second.settings

namespace Toml

variable (toml : Toml Ip Settings)

def readConfig (doc : Document Settings) : Option (ConfigToml Ip Settings) :=
  if toml.readsSettings doc.settings then
    (doc.clients.rows.mapM toml.readRow).map fun rows =>
      { clients := match doc.clients with
          | .missing => none
          | _ => some rows
        authorizedFingerprints := doc.authorizedFingerprints
        revokedFingerprints := doc.revokedFingerprints
        settings := doc.settings }
  else none

def read (text : String) : Option (ConfigToml Ip Settings) :=
  (toml.parse text).bind toml.readConfig

/-- A text that is not taken in as a config. -/
def declines (text : String) : Bool :=
  blank text || (toml.read text).isNone

end Toml

open Toml

/-! ## The config and its file -/

structure ConfigFile (Ip Settings : Type) where
  file : Option String
  config : ConfigToml Ip Settings
  remembered : Synced Ip

namespace ConfigFile

variable [DecidableEq Settings] (toml : Toml Ip Settings) (state : ConfigFile Ip Settings)

/-- Take a text in as the config, and whether the config changed. -/
def takeIn (text : String) : ConfigFile Ip Settings × Bool :=
  if blank text then (state, false)
  else
    match toml.read text with
    | none => (state, false)
    | some config =>
      ({ state with
          config := config
          remembered := ⟨entries config.clients, some text⟩ },
        ! state.config.same config)

def readFromDisk : ConfigFile Ip Settings × Option Bool :=
  match state.file with
  | none => (state, none)
  | some text => ((state.takeIn toml text).1, some (state.takeIn toml text).2)

/-- Read the file, unless it reads as it was last seen. -/
def readIfEdited : ConfigFile Ip Settings × Option Bool :=
  match state.file with
  | none => (state, none)
  | some text =>
    if state.remembered.seen = some text then (state, some false)
    else ((state.takeIn toml text).1, some (state.takeIn toml text).2)

/-- Save the config; what is remembered changes only if the save succeeds. -/
def writeBack (system : FileSystem) : ConfigFile Ip Settings :=
  let written := writeConfigFile toml system state.file state.remembered state.config
  { state with
    file := written.1
    remembered := match written.2 with
      | .ok remembered => remembered
      | .error _ => state.remembered }

/-- What happens next: an edit by hand, a read, a change of the daemon's own, or a save. -/
inductive Act (Ip : Type) where
  | edit (file : Option String)
  | readFromDisk
  | readIfEdited
  | change (clients : List (TomlClient Ip)) (authorized : Table String String)
  | writeBack (system : FileSystem)

def step : Act Ip → ConfigFile Ip Settings
  | .edit file => { state with file := file }
  | .readFromDisk => (state.readFromDisk toml).1
  | .readIfEdited => (state.readIfEdited toml).1
  | .change clients authorized =>
    { state with
      config := { state.config with
        clients := some clients
        authorizedFingerprints := some authorized
        revokedFingerprints := none } }
  | .writeBack system => state.writeBack toml system

/-- The daemon starts with a file it can read. -/
def start (text : String) : Option (ConfigFile Ip Settings) :=
  (toml.read text).map fun config =>
    ⟨some text, config, ⟨entries config.clients, some text⟩⟩

def run (acts : List (Act Ip)) : ConfigFile Ip Settings :=
  acts.foldl (step toml) state

end ConfigFile

/-! ## What printing and parsing keep -/

/--
What is printed of a document that reads as a config reads as the same devices and
settings, and a blank text that parses holds no devices.
-/
structure Toml.Lawful (toml : Toml Ip Settings) : Prop where
  reread : ∀ doc config, toml.readConfig doc = some config →
    ∃ again, toml.read (toml.print doc) = some again ∧
      again.clients.getD [] = config.clients.getD [] ∧ again.settings = config.settings
  blank : ∀ text doc, Config.blank text = true → toml.parse text = some doc → doc.clients = .missing

section Documents

variable {toml : Toml Ip Settings} {doc : Document Settings}

theorem readConfig_eq_some_iff {config : ConfigToml Ip Settings}
    (reads : toml.readConfig doc = some config) :
    toml.readClients doc.clients = some (entries config.clients) ∧
      toml.readsSettings doc.settings = true ∧ config.settings = doc.settings := by
  unfold readConfig at reads
  split at reads
  · next readable =>
    obtain ⟨rows, isRows, rfl⟩ := Option.map_eq_some_iff.mp reads
    refine ⟨?_, readable, rfl⟩
    rw [readClients, isRows]
    cases clients : doc.clients with
    | missing =>
      rw [clients] at isRows
      obtain rfl := Option.some.inj isRows
      rfl
    | tables entries | inline above items => rfl
  · cases reads

theorem readConfig_of_clients {result : List (ConfigClient Ip)}
    (clients : toml.readClients doc.clients = some result)
    (settings : toml.readsSettings doc.settings = true) :
    ∃ config, toml.readConfig doc = some config ∧ entries config.clients = result ∧
      config.settings = doc.settings := by
  obtain ⟨rows, isRows, rfl⟩ := Option.map_eq_some_iff.mp clients
  refine ⟨_, by rw [readConfig, if_pos settings, isRows, Option.map_some], ?_, rfl⟩
  cases missing : doc.clients with
  | missing =>
    rw [missing] at isRows
    obtain rfl := Option.some.inj isRows
    rfl
  | tables entries | inline above items => rfl

theorem Toml.Lawful.read_print (lawful : toml.Lawful) {result : List (ConfigClient Ip)}
    (clients : toml.readClients doc.clients = some result)
    (settings : toml.readsSettings doc.settings = true) :
    ∃ config, toml.read (toml.print doc) = some config ∧
      entries config.clients = result ∧ config.settings = doc.settings := by
  obtain ⟨config, reads, entries, same⟩ := readConfig_of_clients clients settings
  obtain ⟨again, rereads, devices, settingsAgain⟩ := lawful.reread doc config reads
  refine ⟨again, rereads, ?_, settingsAgain.trans same⟩
  rw [← entries, Toml.entries, Toml.entries, devices]

/-- What a save that succeeds writes over a text. -/
theorem merge_reads {disk text : String} {base : List (ConfigClient Ip)}
    {ours : ConfigToml Ip Settings} (saved : toml.merge disk base ours = .ok text) :
    ∃ doc theirs after merged, toml.parse disk = some doc ∧
      toml.readClients doc.clients = some theirs ∧ toml.readsSettings doc.settings = true ∧
      toml.writesSettings ours.settings = true ∧
      mergeClients doc.clients base (entries ours.clients) theirs
        ((ours.clients.getD []).map (renderClient toml.ipText)) = .ok after ∧
      text = toml.print merged ∧ merged.clients = after ∧ merged.settings = doc.settings := by
  unfold merge at saved
  split at saved
  · cases saved
  · next doc parsed =>
    cases made : toml.mergeDocument doc base ours with
    | error why =>
      rw [made] at saved
      cases saved
    | ok merged =>
      rw [made] at saved
      cases saved
      unfold mergeDocument at made
      split at made
      · next theirs reads settings =>
        split at made
        · next writes =>
          dsimp only at made
          cases list : mergeClients doc.clients base (entries ours.clients) theirs
              ((ours.clients.getD []).map (renderClient toml.ipText)) with
          | error why =>
            rw [list] at made
            cases made
          | ok after =>
            rw [list] at made
            cases made
            exact ⟨doc, theirs, after, _, parsed, reads, settings, writes, list, rfl, rfl, rfl⟩
        · cases made
      · cases made

end Documents

/-! ## A save over a text that is not taken in -/

section Declined

variable {toml : Toml Ip Settings}

/-- Every device of a list stands in the file, whatever its hook. -/
def Lists (toml : Toml Ip Settings) (file : Option String) (clients : List (ConfigClient Ip)) :
    Prop :=
  ∃ text config, file = some text ∧ toml.read text = some config ∧
    (clients.map forgetHook).Subperm ((entries config.clients).map forgetHook)

/-- A save fails and leaves the file, or the file still lists every device in memory. -/
def SaveKeeps (toml : Toml Ip Settings) (system : FileSystem) (text : String)
    (remembered : Synced Ip) (ours : ConfigToml Ip Settings) : Prop :=
  ((∃ why, (writeConfigFile toml system (some text) remembered ours).2 = .error why) ∧
      (writeConfigFile toml system (some text) remembered ours).1 = some text) ∨
    (∃ next, (writeConfigFile toml system (some text) remembered ours).2 = .ok next) ∧
      Lists toml (writeConfigFile toml system (some text) remembered ours).1 (entries ours.clients)

/--
The text cannot be read as a config at all, the save cannot be made, or no device in
memory is the match of one last synced.
-/
def Spares (toml : Toml Ip Settings) (system : FileSystem) (text : String)
    (remembered : Synced Ip) (ours : ConfigToml Ip Settings) : Prop :=
  toml.read text = none ∨ toml.writesSettings ours.settings = false ∨
    (system.createsDirectory && system.reads && system.renames) = false ∨
      ∀ kept ∈ pair remembered.synced (entries ours.clients) .memory, kept = none

variable {text : String} {ours : ConfigToml Ip Settings}

theorem writeConfigFile_error {system : FileSystem} {remembered : Synced Ip}
    (fails : (system.createsDirectory && system.reads && system.renames) = false ∨
      ∃ why, toml.merge text remembered.synced ours = .error why) :
    (∃ why, (writeConfigFile toml system (some text) remembered ours).2 = .error why) ∧
      (writeConfigFile toml system (some text) remembered ours).1 = some text := by
  unfold writeConfigFile
  split
  · exact ⟨⟨_, rfl⟩, rfl⟩
  · next created =>
    split
    · exact ⟨⟨_, rfl⟩, rfl⟩
    · next reads =>
      dsimp only
      cases merged : toml.merge text remembered.synced ours with
      | error why => exact ⟨⟨_, rfl⟩, rfl⟩
      | ok written =>
        dsimp only
        split
        · next renames =>
          rcases fails with broken | ⟨why, failed⟩
          · simp [not_not.mp created, not_not.mp reads, renames] at broken
          · rw [failed] at merged
            cases merged
        · exact ⟨⟨_, rfl⟩, rfl⟩

theorem writeConfigFile_ok {system : FileSystem} {written : String} {remembered : Synced Ip}
    (works : (system.createsDirectory && system.reads && system.renames) = true)
    (merged : toml.merge text remembered.synced ours = .ok written) :
    writeConfigFile toml system (some text) remembered ours =
      (some written, .ok ⟨entries ours.clients,
        if remembered.seen = some text then some written else none⟩) := by
  rw [Bool.and_eq_true, Bool.and_eq_true] at works
  obtain ⟨⟨created, reads⟩, renames⟩ := works
  rw [writeConfigFile, if_neg (not_not_intro created), if_neg (not_not_intro reads)]
  rw [merged]
  dsimp only
  rw [if_pos renames]
  by_cases same : remembered.seen = some text <;> simp [same]

variable (base : List (ConfigClient Ip))

/-- With no devices in the file, a save writes the devices that were created. -/
theorem mergeClients_missing (mines : List (TomlClient Ip)) :
    ∃ after clients, mergeClients .missing base (mines.map ofToml) []
        (mines.map (renderClient toml.ipText)) = .ok after ∧
      toml.readClients after = some clients ∧
      clients.map forgetHook = (createdOf base (mines.map ofToml)).filterMap
        fun our => ((mines.map ofToml)[our]?).map forgetHook := by
  have nothing : toml.readClients .missing = some [] := rfl
  have merges : ∃ after, mergeClients .missing base (mines.map ofToml) []
      (mines.map (renderClient toml.ipText)) = .ok after := by
    unfold mergeClients
    dsimp only
    split <;> exact ⟨_, rfl⟩
  obtain ⟨after, merged⟩ := merges
  obtain ⟨clients, reads, made, -, -, -⟩ := mergeClients_reads nothing merged
  rw [survivors, removedOf_nothing] at reads
  exact ⟨after, clients, merged, reads, made⟩

theorem merge_unread (ours : ConfigToml Ip Settings) (unread : toml.read text = none) :
    ∃ why, toml.merge text base ours = .error why := by
  cases merged : toml.merge text base ours with
  | error why => exact ⟨why, rfl⟩
  | ok written =>
    obtain ⟨doc, theirs, -, -, parsed, reads, settings, -⟩ := merge_reads merged
    obtain ⟨config, isConfig, -⟩ := readConfig_of_clients reads settings
    rw [Toml.read, parsed, Option.bind_some, isConfig] at unread
    cases unread

theorem merge_unwritten (unwritten : toml.writesSettings ours.settings = false) :
    ∃ why, toml.merge text base ours = .error why := by
  cases merged : toml.merge text base ours with
  | error why => exact ⟨why, rfl⟩
  | ok written =>
    obtain ⟨-, -, -, -, -, -, -, writes, -⟩ := merge_reads merged
    rw [unwritten] at writes
    cases writes

theorem merge_blank (lawful : toml.Lawful) {config : ConfigToml Ip Settings}
    (isBlank : blank text = true) (reads : toml.read text = some config)
    (base : List (ConfigClient Ip)) (writes : toml.writesSettings ours.settings = true) :
    ∃ written again, toml.merge text base ours = .ok written ∧
      toml.read written = some again ∧
      (entries again.clients).map forgetHook =
        (createdOf base (entries ours.clients)).filterMap
          fun our => ((entries ours.clients)[our]?).map forgetHook := by
  obtain ⟨doc, parsed, isConfig⟩ := Option.bind_eq_some_iff.mp reads
  obtain ⟨readsClients, settings, -⟩ := readConfig_eq_some_iff isConfig
  have missing := lawful.blank text doc isBlank parsed
  have theirs : toml.readClients doc.clients = some [] := by
    rw [missing]
    rfl
  obtain ⟨after, clients, merged, readsAfter, made⟩ :=
    @mergeClients_missing _ _ _ toml base (ours.clients.getD [])
  obtain ⟨written, isWritten⟩ : ∃ written, toml.merge text base ours = .ok written := by
    rw [merge, parsed]
    dsimp only
    rw [mergeDocument, theirs, settings]
    dsimp only
    rw [if_pos writes, missing]
    unfold entries
    rw [merged]
    exact ⟨_, rfl⟩
  obtain ⟨doc', theirs', after', printed, parsed', reads', -, -, merged', rfl, same, kept⟩ :=
    merge_reads isWritten
  obtain rfl := Option.some.inj (parsed.symm.trans parsed')
  obtain rfl := Option.some.inj (theirs.symm.trans reads')
  rw [missing, entries, merged] at merged'
  obtain rfl := Except.ok.inj merged'
  rw [← same] at readsAfter
  obtain ⟨again, isAgain, entries, -⟩ := lawful.read_print readsAfter (kept ▸ settings)
  refine ⟨_, again, isWritten, isAgain, ?_⟩
  rw [entries, made]
  rfl

/--
Of a text that is not taken in, a save fails or keeps every device, exactly unless
the text is one that reads as a config without devices and memory holds the match of
a device last synced.
-/
theorem save_of_declined (lawful : toml.Lawful) (system : FileSystem) (remembered : Synced Ip)
    (ours : ConfigToml Ip Settings) (declined : toml.declines text = true) :
    SaveKeeps toml system text remembered ours ↔ Spares toml system text remembered ours := by
  cases reads : toml.read text with
  | none =>
    have fails := merge_unread remembered.synced ours reads
    exact iff_of_true (.inl (writeConfigFile_error (.inr fails))) (.inl reads)
  | some config =>
    have isBlank : blank text = true := by
      rw [declines, reads] at declined
      simpa using declined
    cases writes : toml.writesSettings ours.settings with
    | false =>
      have fails : ∃ why, toml.merge text remembered.synced ours = .error why :=
        merge_unwritten remembered.synced writes
      exact iff_of_true (.inl (writeConfigFile_error (.inr fails))) (.inr (.inl writes))
    | true =>
      cases works : system.createsDirectory && system.reads && system.renames with
      | false =>
        exact iff_of_true (.inl (writeConfigFile_error (.inl works))) (.inr (.inr (.inl works)))
      | true =>
        obtain ⟨written, again, merged, rereads, lists⟩ :=
          merge_blank lawful isBlank reads remembered.synced writes
        have saved := writeConfigFile_ok works merged
        constructor
        · rintro (⟨⟨why, failed⟩, -⟩ | ⟨-, text', config', isFile, isConfig, all⟩)
          · rw [saved] at failed
            cases failed
          · rw [saved] at isFile
            obtain rfl := Option.some.inj isFile
            obtain rfl := Option.some.inj (rereads.symm.trans isConfig)
            rw [lists] at all
            refine .inr (.inr (.inr (unmatched_of_createdOf ?_)))
            have short := all.length_le
            rw [List.length_map] at short
            exact short.trans (List.length_filterMap_le _ _)
        · rintro (unread | unwritten | broken | unmatched)
          · rw [reads] at unread
            cases unread
          · rw [writes] at unwritten
            cases unwritten
          · rw [works] at broken
            cases broken
          · refine .inr ⟨⟨_, by rw [saved]⟩, written, again, by rw [saved], rereads, ?_⟩
            rw [lists, createdOf_all unmatched, map_range]

end Declined

end HopsFormal.Config
