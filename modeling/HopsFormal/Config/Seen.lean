import HopsFormal.Config.Reading
import Mathlib.Data.Countable.Basic
import Mathlib.Logic.Equiv.List

/-!
# What was seen is in memory

The text last seen reads as the settings in memory and as the devices last synced,
in whatever order: what memory holds beyond it is the daemon's own change.  A save
keeps this where it gives no hook to another device.
-/

namespace HopsFormal.Config

open Edges (ConfigClient)
open List Function Lib
open Trust (trim)

variable {Ip Settings : Type} [DecidableEq Ip]

namespace ConfigFile

/-! ## What memory reflects -/

/-- What a text reads as is in memory, the daemon's own changes since apart. -/
def Reflects (toml : Toml Ip Settings) (state : ConfigFile Ip Settings) (text : String) : Prop :=
  ∃ config, toml.read text = some config ∧ config.settings = state.config.settings ∧
    state.remembered.synced.Perm (Toml.entries config.clients)

/-- The settings in memory can be read, and the text last seen is reflected. -/
structure InStep (toml : Toml Ip Settings) (state : ConfigFile Ip Settings) : Prop where
  settings : toml.readsSettings state.config.settings = true
  seen : ∀ text, state.remembered.seen = some text → state.Reflects toml text

/-- A save of a file that is as last seen gives no hook to another device. -/
def HooksHeld (state : ConfigFile Ip Settings) : Act Ip → Prop
  | .writeBack _ => state.file.isSome = true → state.remembered.seen = state.file →
      HooksStay state.remembered.synced (Toml.entries state.config.clients)
  | _ => True

variable {toml : Toml Ip Settings} {text : String} {state : ConfigFile Ip Settings}

theorem reads_settings {config : ConfigToml Ip Settings} (reads : toml.read text = some config) :
    toml.readsSettings config.settings = true := by
  obtain ⟨doc, -, isConfig⟩ := Option.bind_eq_some_iff.mp reads
  obtain ⟨-, settings, same⟩ := readConfig_eq_some_iff isConfig
  rw [same]
  exact settings

/-- A text that is taken in is reflected. -/
theorem InStep.takeIn [DecidableEq Settings] (inStep : state.InStep toml) (text : String) :
    (state.takeIn toml text).1.InStep toml := by
  unfold ConfigFile.takeIn
  split
  · exact inStep
  · split
    · exact inStep
    · next config reads =>
      refine ⟨reads_settings reads, fun seen isSeen => ?_⟩
      obtain rfl := Option.some.inj isSeen
      exact ⟨config, reads, rfl, .refl _⟩

theorem merge_inStep (lawful : toml.Lawful)
    (settings : toml.readsSettings state.config.settings = true) {written : String}
    (reflects : state.Reflects toml text)
    (stay : HooksStay state.remembered.synced (Toml.entries state.config.clients))
    (merged : toml.merge text state.remembered.synced state.config = .ok written) :
    ∃ config, toml.read written = some config ∧
      config.settings = state.config.settings ∧
        (Toml.entries state.config.clients).Perm (Toml.entries config.clients) := by
  obtain ⟨before, reads, same, perm⟩ := reflects
  obtain ⟨doc, theirs, after, printed, parsed, readsClients, -, -, list, rfl, isAfter, kept⟩ :=
    merge_reads merged
  rw [Toml.read, parsed, Option.bind_some] at reads
  obtain ⟨entries, -, sameDoc⟩ := readConfig_eq_some_iff reads
  obtain rfl := Option.some.inj (entries.symm.trans readsClients)
  obtain ⟨result, readsAfter, all⟩ := mergeClients_aligned (aligned_of_perm perm) stay readsClients
    list
  have unchanged : printed.settings = state.config.settings := by
    rw [kept, ← sameDoc, same]
  rw [← isAfter] at readsAfter
  obtain ⟨again, isAgain, isResult, sameAgain⟩ :=
    lawful.read_print readsAfter (unchanged ▸ settings)
  refine ⟨again, isAgain, sameAgain.trans unchanged, ?_⟩
  rw [isResult]
  exact all.symm

/-- Without a file, memory is written whole. -/
theorem render_inStep (lawful : toml.Lawful) {ours : ConfigToml Ip Settings}
    (settings : toml.readsSettings ours.settings = true) {written : String}
    (rendered : toml.render ours = .ok written) :
    ∃ config, toml.read written = some config ∧ config.settings = ours.settings ∧
      Toml.entries config.clients = Toml.entries ours.clients := by
  unfold Toml.render at rendered
  split at rendered
  · have reads : ∀ mines : List (TomlClient Ip), toml.readClients (.tables (mines.map
        (renderClient toml.ipText))) = some (mines.map ofToml) := by
      intro mines
      rw [readClients_eq_some_iff, Clients.rows, List.map_map, List.forall₂_map_left_iff,
        List.forall₂_map_right_iff]
      exact List.forall₂_same.mpr fun mine _ => reads_render mine
    obtain ⟨doc, isDoc, clients, same⟩ : ∃ doc : Document Settings,
        toml.print doc = written ∧
          toml.readClients doc.clients = some (Toml.entries ours.clients) ∧
            doc.settings = ours.settings := by
      refine ⟨_, Except.ok.inj rendered, ?_, rfl⟩
      cases held : ours.clients with
      | none => rfl
      | some mines =>
        cases mines with
        | nil => rfl
        | cons first rest => exact reads (first :: rest)
    obtain ⟨config, isConfig, entries, kept⟩ := lawful.read_print clients (same ▸ settings)
    rw [isDoc] at isConfig
    exact ⟨config, isConfig, kept.trans same, entries⟩
  · cases rendered

theorem writeConfigFile_cases (toml : Toml Ip Settings) (system : FileSystem)
    (file : Option String) (remembered : Synced Ip) (ours : ConfigToml Ip Settings) :
    (∃ why, writeConfigFile toml system file remembered ours = (file, .error why)) ∨
      ∃ written, (match file with
          | some disk => toml.merge disk remembered.synced ours
          | none => toml.render ours) = .ok written ∧
        writeConfigFile toml system file remembered ours =
          (some written, .ok ⟨Toml.entries ours.clients,
            if file.isSome && remembered.seen ≠ file then none else some written⟩) := by
  unfold writeConfigFile
  split
  · exact .inl ⟨_, rfl⟩
  · split
    · exact .inl ⟨_, rfl⟩
    · dsimp only
      split
      · exact .inl ⟨_, rfl⟩
      · next written merged =>
        split
        · exact .inr ⟨written, merged, rfl⟩
        · exact .inl ⟨_, rfl⟩

theorem InStep.writeBack (lawful : toml.Lawful) (inStep : state.InStep toml) (system : FileSystem)
    (held : state.HooksHeld (.writeBack system)) : (state.writeBack toml system).InStep toml := by
  unfold ConfigFile.writeBack
  rcases writeConfigFile_cases toml system state.file state.remembered state.config with
    ⟨why, fails⟩ | ⟨written, merged, saves⟩
  · rw [fails]
    exact ⟨inStep.settings, inStep.seen⟩
  · rw [saves]
    refine ⟨inStep.settings, fun text isSeen => ?_⟩
    split at isSeen
    · cases isSeen
    · next read =>
      obtain rfl := Option.some.inj isSeen
      cases onDisk : state.file with
      | none =>
        rw [onDisk] at merged
        obtain ⟨config, reads, same, entries⟩ :=
          render_inStep lawful inStep.settings merged
        exact ⟨config, reads, same, Perm.of_eq entries.symm⟩
      | some disk =>
        rw [onDisk] at merged read
        have seen : state.remembered.seen = some disk := by
          simpa using read
        have stay := held (by rw [onDisk]; rfl) (by rw [onDisk, seen])
        exact merge_inStep lawful inStep.settings (inStep.seen disk seen) stay merged

/-! ## Every run -/

variable [DecidableEq Settings]

theorem InStep.step (lawful : toml.Lawful) (inStep : state.InStep toml) {act : Act Ip}
    (held : state.HooksHeld act) : (state.step toml act).InStep toml := by
  cases act with
  | edit file | change clients authorized => exact ⟨inStep.settings, inStep.seen⟩
  | readFromDisk =>
    unfold ConfigFile.step ConfigFile.readFromDisk
    dsimp only
    split
    · exact inStep
    · exact inStep.takeIn _
  | readIfEdited =>
    unfold ConfigFile.step ConfigFile.readIfEdited
    dsimp only
    split
    · exact inStep
    · split
      · exact inStep
      · exact inStep.takeIn _
  | writeBack system => exact inStep.writeBack lawful system held

/-- On the way no save gives a hook to another device. -/
def AllHeld (toml : Toml Ip Settings) (state : ConfigFile Ip Settings) : List (Act Ip) → Prop
  | [] => True
  | act :: rest => state.HooksHeld act ∧ AllHeld toml (state.step toml act) rest

theorem InStep.run (lawful : toml.Lawful) (inStep : state.InStep toml) {acts : List (Act Ip)}
    (held : state.AllHeld toml acts) : (state.run toml acts).InStep toml := by
  induction acts generalizing state with
  | nil => exact inStep
  | cons act rest ih => exact ih (inStep.step lawful held.1) held.2

omit [DecidableEq Settings] in
theorem start_inStep (opened : start toml text = some state) : state.InStep toml := by
  obtain ⟨config, reads, rfl⟩ := Option.map_eq_some_iff.mp opened
  refine ⟨reads_settings reads, fun seen isSeen => ?_⟩
  obtain rfl := Option.some.inj isSeen
  exact ⟨config, reads, rfl, .refl _⟩

theorem takeIn_accepted (state : ConfigFile Ip Settings) (accepted : toml.declines text = false) :
    ∃ config, toml.read text = some config ∧
      (state.takeIn toml text).1 = { state with
        config := config
        remembered := ⟨Toml.entries config.clients, some text⟩ } := by
  rw [Toml.declines, Bool.or_eq_false_iff] at accepted
  obtain ⟨full, readable⟩ := accepted
  obtain ⟨config, reads⟩ := Option.isSome_iff_exists.mp (by simpa using readable)
  refine ⟨config, reads, ?_⟩
  rw [ConfigFile.takeIn, full, if_neg Bool.false_ne_true, reads]

theorem read_readFromDisk {state : ConfigFile Ip Settings} {text : String}
    (onDisk : state.file = some text) (accepted : toml.declines text = false) :
    some (state.step toml .readFromDisk).config = toml.read text := by
  obtain ⟨config, reads, taken⟩ := takeIn_accepted state accepted
  rw [ConfigFile.step, ConfigFile.readFromDisk, onDisk, reads]
  rw [taken]

theorem seen_readIfEdited {state : ConfigFile Ip Settings} {text : String}
    (onDisk : state.file = some text) (accepted : toml.declines text = false) :
    (state.step toml .readIfEdited).remembered.seen = some text ∧
      (state.remembered.seen ≠ some text →
        some (state.step toml .readIfEdited).config = toml.read text) := by
  obtain ⟨config, reads, taken⟩ := takeIn_accepted state accepted
  rw [ConfigFile.step, ConfigFile.readIfEdited, onDisk, reads]
  dsimp only
  split
  · next seen => exact ⟨seen, fun unseen => absurd seen unseen⟩
  · rw [taken]
    exact ⟨rfl, fun _ => rfl⟩

/--
A text that is not taken in as a config is trusted by no save, exactly unless it is
a blank one that reads as a config while memory holds the match of a device last
synced; and in every run whose saves give no hook to another device, the text last
seen is reflected in memory, and after a read the text on disk is, if it can be
taken in.
-/
theorem declined_is_spared (lawful : toml.Lawful) :
    (∀ system text (remembered : Synced Ip) (ours : ConfigToml Ip Settings),
      toml.declines text = true →
        (SaveKeeps toml system text remembered ours ↔ Spares toml system text remembered ours)) ∧
      ∀ text opened (acts : List (Act Ip)), start toml text = some opened →
        opened.AllHeld toml acts →
          (∀ seen, (opened.run toml acts).remembered.seen = some seen →
            (opened.run toml acts).Reflects toml seen) ∧
          ∀ disk, (opened.run toml acts).file = some disk → toml.declines disk = false →
            some ((opened.run toml acts).step toml .readFromDisk).config = toml.read disk ∧
              ((opened.run toml acts).step toml .readIfEdited).Reflects toml disk ∧
                ((opened.run toml acts).remembered.seen ≠ some disk →
                  some ((opened.run toml acts).step toml .readIfEdited).config =
                    toml.read disk) := by
  refine ⟨fun system text remembered ours declined =>
    save_of_declined lawful system remembered ours declined, ?_⟩
  intro text opened acts starts held
  have inStep := (start_inStep starts).run lawful held
  refine ⟨inStep.seen, fun disk onDisk accepted => ?_⟩
  obtain ⟨seen, taken⟩ := seen_readIfEdited onDisk accepted
  have now : ((opened.run toml acts).step toml .readIfEdited).InStep toml :=
    inStep.step lawful trivial
  exact ⟨read_readFromDisk onDisk accepted, now.seen disk seen, taken⟩

end ConfigFile

/-! ## A file with one device -/

/-- One address, as it is written. -/
def oneIp : IpText Unit where
  display := fun _ => "10.0.0.2"
  parse := fun text => if text = "10.0.0.2" then some () else none
  parse_display := fun _ => rfl

def deskMac : TomlClient Unit :=
  ⟨some "desk-mac", none, none, none, none, none, none, none, none, none⟩

def deskText : String :=
  "[[clients]]\nhostname = \"desk-mac\"\n"

theorem numbered_clients : ∃ number : List (TomlClient Unit) → ℕ, Injective number := by
  have chars : Countable Char := Injective.countable (f := Char.toNat)
    fun _ _ same => Char.toNat_inj.mp same
  have strings : Countable String := Injective.countable (f := String.toList)
    fun _ _ same => String.toList_inj.mp same
  have ports : Countable UInt16 := Injective.countable (f := UInt16.toNat)
    fun _ _ same => UInt16.toNat_inj.mp same
  have places : Countable Int32 := Injective.countable (f := Int32.toInt)
    fun _ _ same => Int32.toInt_inj.mp same
  have sizes : Countable UInt32 := Injective.countable (f := UInt32.toNat)
    fun _ _ same => UInt32.toNat_inj.mp same
  have edges : Countable Capture.Position := Injective.countable
    (f := fun position => writePosition position |> readString)
    fun one other same => by
      cases one <;> cases other <;> first | rfl | exact absurd same (by decide)
  have geometries : Countable Edges.Geometry := Injective.countable
    (f := fun geometry : Edges.Geometry =>
      (geometry.x, geometry.y, geometry.width, geometry.height))
    fun one other same => by
      cases one
      cases other
      simpa using same
  have clients : Countable (TomlClient Unit) := Injective.countable
    (f := fun client : TomlClient Unit => (client.hostname, client.hostName, client.ips,
      client.port, client.position, client.activateOnStartup, client.enterHook,
      client.fingerprint, client.label, client.geometry))
    fun one other same => by
      cases one
      cases other
      simpa using same
  exact Countable.exists_injective_nat _

/-- The text of a list of devices: exact for none and for the one device. -/
noncomputable def deskPrint (rows : List (TomlClient Unit)) : String :=
  if rows = [] then ""
  else if rows = [deskMac] then deskText
  else String.ofList (List.replicate (numbered_clients.choose rows + 1) '#')

theorem deskPrint_cases (rows : List (TomlClient Unit)) :
    (rows = [] ∧ deskPrint rows = "") ∨ (rows = [deskMac] ∧ deskPrint rows = deskText) ∨
      deskPrint rows = String.ofList (List.replicate (numbered_clients.choose rows + 1) '#') := by
  unfold deskPrint
  split
  · next none => exact .inl ⟨none, rfl⟩
  · split
    · next one => exact .inr (.inl ⟨one, rfl⟩)
    · exact .inr (.inr rfl)

theorem hashes_ne (count : Nat) : String.ofList (List.replicate (count + 1) '#') ≠ "" ∧
    String.ofList (List.replicate (count + 1) '#') ≠ deskText := by
  constructor
  · intro same
    have chars := congrArg String.toList same
    rw [String.toList_ofList, replicate_succ] at chars
    cases chars
  · intro same
    have chars := congrArg String.toList same
    rw [String.toList_ofList, replicate_succ] at chars
    have first : deskText.toList.head? = some '[' := by decide
    rw [← chars] at first
    exact absurd (Option.some.inj first) (by decide)

theorem deskText_ne : deskText ≠ "" := by
  decide

theorem deskPrint_inj {one other : List (TomlClient Unit)}
    (same : deskPrint one = deskPrint other) : one = other := by
  rcases deskPrint_cases one with ⟨isNone, first⟩ | ⟨isDesk, first⟩ | first <;>
    rcases deskPrint_cases other with ⟨isNone', second⟩ | ⟨isDesk', second⟩ | second <;>
    rw [first, second] at same
  · rw [isNone, isNone']
  · exact absurd same.symm deskText_ne
  · exact absurd same.symm (hashes_ne _).1
  · exact absurd same deskText_ne
  · rw [isDesk, isDesk']
  · exact absurd same.symm (hashes_ne _).2
  · exact absurd same (hashes_ne _).1
  · exact absurd same (hashes_ne _).2
  · have lengths := congrArg (fun text : String => text.toList.length) same
    simp only [String.toList_ofList, length_replicate, Nat.add_right_cancel_iff] at lengths
    exact numbered_clients.choose_spec lengths

variable {rows : List (TomlClient Unit)}

theorem blank_deskPrint (isBlank : blank (deskPrint rows) = true) : rows = [] := by
  rcases deskPrint_cases rows with ⟨isNone, -⟩ | ⟨-, printed⟩ | printed
  · exact isNone
  · rw [printed] at isBlank
    exact absurd isBlank (by decide)
  · rw [printed, blank, Trust.trim_of_plain] at isBlank
    · exact absurd (of_decide_eq_true isBlank) (hashes_ne _).1
    · intro char member
      rw [String.toList_ofList] at member
      rw [(mem_replicate.mp member).2]
      decide

def deskRow : Row → Option (TomlClient Unit)
  | .table entry => readClient oneIp entry
  | .fields _ => none

open Classical in
/-- What parses, prints and reads such a file. -/
noncomputable def deskToml : Toml Unit Unit where
  parse := fun text =>
    if blank text then some ⟨.missing, none, none, ()⟩
    else if listed : ∃ rows, deskPrint rows = text then
      some ⟨.tables (listed.choose.map (renderClient oneIp)), none, none, ()⟩
    else none
  print := fun doc => deskPrint ((doc.clients.rows.mapM deskRow).getD [])
  readFields := fun _ => none
  readsSettings := fun _ => true
  writesSettings := fun _ => true
  ipText := oneIp

theorem deskToml_readRow : deskToml.readRow = deskRow := by
  funext row
  cases row <;> rfl

theorem deskToml_blank {text : String} (isBlank : blank text = true) :
    deskToml.parse text = some ⟨.missing, none, none, ()⟩ :=
  if_pos isBlank

theorem deskToml_parse (some_ : rows ≠ []) : deskToml.parse (deskPrint rows) =
      some ⟨.tables (rows.map (renderClient oneIp)), none, none, ()⟩ := by
  have full : ¬ blank (deskPrint rows) = true := fun isBlank => some_ (blank_deskPrint isBlank)
  have listed : ∃ others, deskPrint others = deskPrint rows := ⟨rows, rfl⟩
  have chosen : listed.choose = rows := deskPrint_inj listed.choose_spec
  rw [deskToml]
  dsimp only
  rw [if_neg full, dif_pos listed, chosen]

theorem deskToml_read (some_ : rows ≠ []) :
    deskToml.read (deskPrint rows) = some ⟨some rows, none, none, ()⟩ := by
  have reads : ∀ mines : List (TomlClient Unit),
      (mines.map fun mine => Row.table (renderClient oneIp mine)).mapM deskRow = some mines := by
    intro mines
    induction mines with
    | nil => rfl
    | cons first rest ih =>
      rw [map_cons, mapM_cons, ih, deskRow, readClient_render]
      rfl
  rw [Toml.read, deskToml_parse some_, Option.bind_some, Toml.readConfig, deskToml_readRow]
  simp only [Clients.rows, List.map_map]
  exact congrArg (Option.map _) (reads rows)

theorem deskToml_lawful : deskToml.Lawful where
  reread := by
    intro doc config reads
    have readable : deskToml.readsSettings doc.settings = true := rfl
    rw [Toml.readConfig, if_pos readable, deskToml_readRow] at reads
    obtain ⟨rows, isRows, isConfig⟩ := Option.map_eq_some_iff.mp reads
    have printed : deskToml.print doc = deskPrint rows := by
      rw [deskToml]
      dsimp only
      rw [isRows, Option.getD_some]
    have held : config.clients.getD [] = rows := by
      rw [← isConfig]
      cases clients : doc.clients with
      | missing =>
        rw [clients] at isRows
        exact Option.some.inj isRows
      | tables entries | inline above items => rfl
    rw [printed]
    by_cases none_ : rows = []
    · subst none_
      refine ⟨⟨none, none, none, ()⟩, ?_, held.symm, rfl⟩
      rw [Toml.read, deskToml_blank (by decide)]
      rfl
    · exact ⟨_, deskToml_read none_, held.symm, rfl⟩
  blank := by
    intro text doc isBlank parsed
    rw [deskToml_blank isBlank] at parsed
    rw [← Option.some.inj parsed]

def deskWorks : FileSystem :=
  ⟨true, true, true⟩

theorem deskPrint_deskMac : deskPrint [deskMac] = deskText := by
  rw [deskPrint, if_neg (cons_ne_nil _ _), if_pos rfl]

theorem deskToml_deskText :
    deskToml.read deskText = some ⟨some [deskMac], none, none, ()⟩ := by
  rw [← deskPrint_deskMac]
  exact deskToml_read (cons_ne_nil _ _)

theorem deskToml_saved : deskToml.merge deskText (Toml.entries (some [deskMac]))
    ⟨some [deskMac], none, none, ()⟩ = .ok deskText := by
  have rows : [Row.table (renderClient oneIp deskMac)].mapM deskRow = some [deskMac] := by
    rw [mapM_cons, deskRow, readClient_render]
    rfl
  have theirs : deskToml.readClients (.tables [renderClient oneIp deskMac]) =
      some (Toml.entries (some [deskMac])) := by
    rw [Toml.readClients, deskToml_readRow]
    simp only [Clients.rows, map_cons, map_nil]
    rw [rows]
    rfl
  have unchanged : ∀ clients fresh, mergeClients clients (Toml.entries (some [deskMac]))
      (Toml.entries (some [deskMac])) (Toml.entries (some [deskMac])) fresh = .ok clients := by
    intro clients fresh
    unfold mergeClients
    exact if_pos (by decide)
  have parsed : deskToml.parse deskText =
      some ⟨.tables [renderClient oneIp deskMac], none, none, ()⟩ := by
    rw [← deskPrint_deskMac]
    exact deskToml_parse (cons_ne_nil _ _)
  have printed : deskToml.print ⟨.tables [renderClient oneIp deskMac], none, none, ()⟩ =
      deskText := by
    rw [← deskPrint_deskMac]
    exact congrArg (fun read => deskPrint (Option.getD read [])) rows
  have merged : deskToml.mergeDocument ⟨.tables [renderClient oneIp deskMac], none, none, ()⟩
      (Toml.entries (some [deskMac])) ⟨some [deskMac], none, none, ()⟩ =
      .ok ⟨.tables [renderClient oneIp deskMac], none, none, ()⟩ := by
    have readable : deskToml.readsSettings () = true := rfl
    have writable : deskToml.writesSettings () = true := rfl
    simp only [Toml.mergeDocument, theirs, readable, writable, if_true, unchanged, bind,
      Except.bind]
    rfl
  rw [Toml.merge, parsed]
  simp only [merged, Except.map, printed]

theorem deskText_accepted : deskToml.declines deskText = false := by
  have full : blank deskText = false := by decide
  rw [Toml.declines, full, deskToml_deskText]
  rfl

theorem nothing_declined : deskToml.declines "" = true := by
  have empty : blank "" = true := by decide
  rw [Toml.declines, empty, Bool.true_or]

theorem nothing_reads : deskToml.read "" = some ⟨none, none, none, ()⟩ := by
  rw [Toml.read, deskToml_blank (by decide)]
  rfl

namespace ConfigFile

/-- A device that is not the one last synced, by its name or its port. -/
def studio : TomlClient Unit :=
  ⟨some "studio", none, none, some 4243, none, none, none, none, none, none⟩

def emptiedAndSaved : List (Act Unit) :=
  [.edit (some ""), .readIfEdited, .edit (some deskText), .readIfEdited, .writeBack deskWorks]

theorem declined_is_spared_desk :
    SaveKeeps deskToml deskWorks "" ⟨Toml.entries (some [deskMac]), some deskText⟩
      ⟨some [studio], none, none, ()⟩ ∧
      ∃ opened, start deskToml deskText = some opened ∧ opened.AllHeld deskToml emptiedAndSaved ∧
        (opened.run deskToml emptiedAndSaved).remembered =
          ⟨Toml.entries (some [deskMac]), some deskText⟩ ∧
        (opened.run deskToml emptiedAndSaved).Reflects deskToml deskText := by
  obtain ⟨spares, runs⟩ := declined_is_spared deskToml_lawful
  have apart : ∀ kept ∈ pair (Toml.entries (some [deskMac])) (Toml.entries (some [studio]))
      .memory, kept = none := by
    decide
  refine ⟨(spares deskWorks "" _ _ nothing_declined).mpr (.inr (.inr (.inr apart))), ?_⟩
  let opened : ConfigFile Unit Unit := ⟨some deskText, ⟨some [deskMac], none, none, ()⟩,
    ⟨Toml.entries (some [deskMac]), some deskText⟩⟩
  have opens : start deskToml deskText = some opened := by
    rw [start, deskToml_deskText]
    rfl
  have emptied : ({ opened with file := some "" }).step deskToml .readIfEdited =
      { opened with file := some "" } := by
    have other : some deskText ≠ some "" := fun same => deskText_ne (Option.some.inj same)
    have empty : blank "" = true := by decide
    simp [ConfigFile.step, ConfigFile.readIfEdited, ConfigFile.takeIn, opened, other, empty]
  have restored : opened.step deskToml .readIfEdited = opened := by
    simp [ConfigFile.step, ConfigFile.readIfEdited, opened]
  have saved : opened.step deskToml (.writeBack deskWorks) = opened := by
    simp [ConfigFile.step, ConfigFile.writeBack, writeConfigFile, opened, deskWorks,
      deskToml_saved]
  have stay : HooksStay (Toml.entries (some [deskMac])) (Toml.entries (some [deskMac])) := by
    refine ⟨fun index our first second there isFirst isSecond => ?_, by decide⟩
    rw [Toml.entries, Option.getD_some, map_singleton] at isFirst isSecond
    obtain rfl := mem_singleton.mp (mem_of_getElem? isFirst)
    obtain rfl := mem_singleton.mp (mem_of_getElem? isSecond)
    rfl
  have held : opened.AllHeld deskToml emptiedAndSaved := by
    refine ⟨trivial, trivial, trivial, trivial, ?_, trivial⟩
    change HooksHeld ((({ opened with file := some "" }).step deskToml .readIfEdited |>.step
      deskToml (.edit (some deskText))).step deskToml .readIfEdited) _
    rw [emptied]
    change HooksHeld (opened.step deskToml .readIfEdited) _
    rw [restored]
    exact fun _ _ => stay
  have ended : opened.run deskToml emptiedAndSaved = opened := by
    change ((({ opened with file := some "" }).step deskToml .readIfEdited |>.step
      deskToml (.edit (some deskText))).step deskToml .readIfEdited).step deskToml
        (.writeBack deskWorks) = opened
    rw [emptied]
    change (opened.step deskToml .readIfEdited).step deskToml (.writeBack deskWorks) = opened
    rw [restored, saved]
  have remembers : (opened.run deskToml emptiedAndSaved).remembered =
      ⟨Toml.entries (some [deskMac]), some deskText⟩ := by rw [ended]
  exact ⟨opened, opens, held, remembers,
    (runs deskText opened emptiedAndSaved opens held).1 deskText (by rw [remembers])⟩

/-- A save over an empty file writes one without the device that was last synced. -/
theorem empty_file_trusted : deskToml.declines "" = true ∧
    ¬ SaveKeeps deskToml deskWorks "" ⟨Toml.entries (some [deskMac]), some deskText⟩
      ⟨some [deskMac], none, none, ()⟩ := by
  refine ⟨nothing_declined, fun keeps => ?_⟩
  rcases (save_of_declined deskToml_lawful _ _ _ nothing_declined).mp keeps with
    unread | unwritten | broken | unmatched
  · rw [nothing_reads] at unread
    cases unread
  · cases unwritten
  · cases broken
  · have matched : some 0 ∈ pair (Toml.entries (some [deskMac])) (Toml.entries (some [deskMac]))
        .memory := by
      decide
    cases unmatched _ matched

end ConfigFile

end HopsFormal.Config
