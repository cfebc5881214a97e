import HopsFormal.Config.Entries

/-!
# Saving the config

A save reads the file and changes in it what the daemon changed since it last
read or wrote it.  The file's devices carry no id: the list last synced is
matched with the daemon's list and with the file's, and the two matchings say
which devices of the file were changed and which removed, and which of the
daemon's were created.  How a text is parsed and printed, and how a device written
as an array of its fields is read, is not the program's; neither are the other
settings, of which only matters whether they can be read and written.
-/

namespace HopsFormal.Config

open Edges (ConfigClient)
open Lib

/-! ## The document -/

/-- A device of a list written inline: a table, or an array of its fields. -/
inductive Row where
  | table (entry : Entry)
  | fields (values : List Value)

def Row.table? : Row → Option Entry
  | .table entry => some entry
  | .fields _ => none

/-- The devices of a document, and for a list written inline what is written above it. -/
inductive Clients where
  | missing
  | tables (entries : List Entry)
  | inline (above : String) (rows : List Row)

def Clients.rows : Clients → List Row
  | .missing => []
  | .tables entries => entries.map .table
  | .inline _ rows => rows

structure RevokedEntry where
  label : String
  revokedAt : UInt64
  deriving DecidableEq

structure Document (Settings : Type) where
  clients : Clients
  authorizedFingerprints : Option (Table String String)
  revokedFingerprints : Option (Table String RevokedEntry)
  settings : Settings

structure ConfigToml (Ip Settings : Type) where
  clients : Option (List (TomlClient Ip))
  authorizedFingerprints : Option (Table String String)
  revokedFingerprints : Option (Table String RevokedEntry)
  settings : Settings

/-- What parses, prints and reads a document. -/
structure Toml (Ip Settings : Type) where
  parse : String → Option (Document Settings)
  print : Document Settings → String
  readFields : List Value → Option (TomlClient Ip)
  readsSettings : Settings → Bool
  writesSettings : Settings → Bool
  ipText : IpText Ip

inductive MergeError where
  | syntaxError
  | content
  | render
  | shape
  deriving DecidableEq

/-! ## Matching devices -/

inductive Against where
  | memory
  | file
  deriving DecidableEq

section Pairing

variable {Ip : Type} [DecidableEq Ip]

/-- Two devices pinned to different machines. -/
def apart (first second : ConfigClient Ip) : Bool :=
  match first.fingerprint, second.fingerprint with
  | some pin, some other => pin ≠ other
  | _, _ => false

/-- In how many fields two devices differ; a pin missing on the right is not counted. -/
def differences (first second : ConfigClient Ip) : Nat :=
  ([decide (first.label ≠ second.label), decide (first.hostname ≠ second.hostname),
    decide (first.ips ≠ second.ips), decide (first.port ≠ second.port),
    decide (first.pos ≠ second.pos), decide (first.active ≠ second.active),
    decide (first.enterHook ≠ second.enterHook),
    second.fingerprint.isSome && decide (first.fingerprint ≠ second.fingerprint),
    decide (first.geometry ≠ second.geometry)].filter id).length

/-- What makes two devices the same, the surest first. -/
def tests : List (ConfigClient Ip → ConfigClient Ip → Bool) :=
  [fun first second => first = second,
    fun first second => first.fingerprint.isSome && first.fingerprint = second.fingerprint,
    fun first second => first.hostname.isSome && first.hostname = second.hostname &&
      ! apart first second,
    fun first second => first.ips.Nonempty && first.ips = second.ips &&
      first.port = second.port && ! apart first second]

def matchOne (same : ConfigClient Ip → ConfigClient Ip → Bool)
    (left right : List (ConfigClient Ip)) (out : List (Option Nat)) (index : Nat) :
    List (Option Nat) :=
  match out[index]?, left[index]? with
  | some none, some device =>
    match (List.range right.length).find? fun candidate =>
        some candidate ∉ out ∧ (right[candidate]?).any (same device) with
    | some found => out.set index (some found)
    | none => out
  | _, _ => out

def matchAll (left right : List (ConfigClient Ip)) (out : List (Option Nat))
    (same : ConfigClient Ip → ConfigClient Ip → Bool) : List (Option Nat) :=
  (List.range left.length).foldl (matchOne same left right) out

/-- The one device left on each side, if a single change makes one of the other. -/
def matchLeftOver (left right : List (ConfigClient Ip)) (out : List (Option Nat)) :
    List (Option Nat) :=
  match (List.range left.length).filter (fun index => out[index]? = some none),
      (List.range right.length).filter (fun candidate => some candidate ∉ out) with
  | [index], [candidate] =>
    match left[index]?, right[candidate]? with
    | some first, some second =>
      if differences first second = 1 ∧ ¬ apart first second then
        out.set index (some candidate)
      else out
    | _, _ => out
  | _, _ => out

/-- For each device on the left, the place on the right of the same device. -/
def pair (left right : List (ConfigClient Ip)) (against : Against) : List (Option Nat) :=
  let out := tests.foldl (matchAll left right) (List.replicate left.length none)
  match against with
  | .file => out
  | .memory => matchLeftOver left right out

end Pairing

/-! ## Changing an entry -/

section Merging

variable {Ip : Type} [DecidableEq Ip]

/-- Write one field as the daemon renders it: in its place, and without a line if it has none. -/
def changeField (fresh entry : Entry) (key : String) : Entry :=
  match fresh.lines.lookup key with
  | none => { entry with lines := entry.lines.erase key }
  | some new =>
    match entry.lines.lookup key with
    | none => { entry with lines := entry.lines.insert key new }
    | some _ =>
      { entry with
        lines := entry.lines.changeAt key fun old =>
          { old with
            item := match old.item, new.item with
              | .value _ decor, .value value _ => .value value decor
              | _, item => item } }

/-- The keys of the fields the daemon changed; the hook is the file's alone. -/
def changedKeys (base ours : ConfigClient Ip) : List String :=
  ([("label", decide (base.label ≠ ours.label)), ("hostname", decide (base.hostname ≠ ours.hostname)),
    ("ips", decide (base.ips ≠ ours.ips)), ("port", decide (base.port ≠ ours.port)),
    ("position", decide (base.pos ≠ ours.pos)),
    ("activate_on_startup", decide (base.active ≠ ours.active)),
    ("fingerprint", decide (base.fingerprint ≠ ours.fingerprint)),
    ("geometry", decide (base.geometry ≠ ours.geometry))].filter (·.2)).map (·.1)

def changeFields (base ours : ConfigClient Ip) (fresh entry : Entry) : Entry :=
  (changedKeys base ours).foldl (changeField fresh) entry

/-! ## Changing the list -/

/-- A device the daemon changed: its place in the file, in the daemon's list and in the base. -/
structure Edit where
  theirs : Nat
  ours : Nat
  base : Nat
  deriving DecidableEq

/-- The devices the daemon changed that the file still has. -/
def editsOf (base ours theirs : List (ConfigClient Ip)) : List Edit :=
  (List.range base.length).filterMap fun index =>
    match (pair base ours .memory)[index]?, (pair base theirs .file)[index]? with
    | some (some our), some (some their) =>
      if base[index]? ≠ ours[our]? then some ⟨their, our, index⟩ else none
    | _, _ => none

/-- The places in the file of the devices the daemon removed. -/
def removedOf (base ours theirs : List (ConfigClient Ip)) : List Nat :=
  (List.range base.length).filterMap fun index =>
    match (pair base ours .memory)[index]?, (pair base theirs .file)[index]? with
    | some none, some (some their) => some their
    | _, _ => none

/-- The places of the devices the daemon created. -/
def createdOf (base ours : List (ConfigClient Ip)) : List Nat :=
  (List.range ours.length).filter fun our => some our ∉ pair base ours .memory

/-- A list without one place, the last value in it instead. -/
def swapRemove {α : Type} (list : List α) (index : Nat) : List α :=
  match list.getLast? with
  | some last => (list.set index last).dropLast
  | none => list

def commentAbove (above : String) : Option String :=
  if '#' ∈ above.toList then some above else none

/-- The file's devices as tables, unless one of them is written as an array of its fields. -/
def clientsOf : Clients → Except MergeError (List Entry × Option String)
  | .missing => .ok ([], none)
  | .tables entries => .ok (entries, none)
  | .inline above rows =>
    match rows.mapM Row.table? with
    | some entries => .ok (entries, commentAbove above)
    | none => .error .shape

def applyEdit (base ours : List (ConfigClient Ip)) (fresh : List Entry) (file : List Entry)
    (edit : Edit) : List Entry :=
  match base[edit.base]?, ours[edit.ours]?, fresh[edit.ours]? with
  | some before, some after, some new => file.modify edit.theirs (changeFields before after new)
  | _, _, _ => file

/-- Take the removed entries out, from the last one on. -/
def takeOut (file : List Entry) (removed : List Nat) : List Entry :=
  (removed.insertionSort (· ≤ ·)).reverse.foldl
    (fun file place => if place < file.length then file.eraseIdx place else file) file

/-- Write the created devices; a hook only if an entry this save removes held it. -/
def addCreated (ours : List (ConfigClient Ip)) (fresh : List Entry) (file : List Entry)
    (hooks : List String) : List Nat → List Entry
  | [] => file
  | our :: rest =>
    match fresh[our]?, ours[our]? with
    | some new, some client =>
      match client.enterHook.bind fun hook => hooks.idxOf? hook with
      | some held => addCreated ours fresh (file ++ [new]) (swapRemove hooks held) rest
      | none =>
        addCreated ours fresh
          (file ++ [{ new with lines := new.lines.erase "enter_hook" }]) hooks rest
    | _, _ => addCreated ours fresh file hooks rest

/-- What was written above a list goes above its first entry. -/
def putAbove : Option String → List Entry → List Entry
  | some above, first :: rest => { first with decor := above ++ first.decor } :: rest
  | _, entries => entries

/-- Apply to the file's devices what the daemon did to its list since the base. -/
def mergeClients (clients : Clients) (base ours theirs : List (ConfigClient Ip))
    (fresh : List Entry) : Except MergeError Clients :=
  let edits := editsOf base ours theirs
  let removed := removedOf base ours theirs
  let created := createdOf base ours
  if edits = [] ∧ removed = [] ∧ created = [] then .ok clients
  else do
    let (file, above) ← clientsOf clients
    let edited := edits.foldl (applyEdit base ours fresh) file
    let hooks := removed.filterMap fun their => (theirs[their]?).bind (·.enterHook)
    let merged := addCreated ours fresh (takeOut edited removed) hooks created
    return .tables (putAbove above merged)

/-! ## The save -/

def sameMap {α : Type} [DecidableEq α] (first second : Option (Table String α)) : Bool :=
  let first := first.getD ∅
  let second := second.getD ∅
  (first.keys ++ second.keys).all fun key => first.lookup key = second.lookup key

variable {Settings : Type}

namespace Toml

variable (toml : Toml Ip Settings)

def readRow : Row → Option (TomlClient Ip)
  | .table entry => readClient toml.ipText entry
  | .fields values => toml.readFields values

/-- The devices of a document as the daemon reads them. -/
def readClients (clients : Clients) : Option (List (ConfigClient Ip)) :=
  (clients.rows.mapM toml.readRow).map fun rows => rows.map ofToml

def entries (clients : Option (List (TomlClient Ip))) : List (ConfigClient Ip) :=
  (clients.getD []).map ofToml

def mergeDocument (doc : Document Settings) (base : List (ConfigClient Ip))
    (ours : ConfigToml Ip Settings) : Except MergeError (Document Settings) :=
  match toml.readClients doc.clients, toml.readsSettings doc.settings with
  | some theirs, true =>
    if toml.writesSettings ours.settings then do
      let fresh := (ours.clients.getD []).map (renderClient toml.ipText)
      let clients ← mergeClients doc.clients base (entries ours.clients) theirs fresh
      return { doc with
        clients := clients
        authorizedFingerprints :=
          if sameMap doc.authorizedFingerprints ours.authorizedFingerprints then
            doc.authorizedFingerprints
          else ours.authorizedFingerprints
        revokedFingerprints :=
          if sameMap doc.revokedFingerprints ours.revokedFingerprints then
            doc.revokedFingerprints
          else ours.revokedFingerprints }
    else .error .render
  | _, _ => .error .content

/-- The text to save: what is on disk with the daemon's changes since the base applied. -/
def merge (disk : String) (base : List (ConfigClient Ip)) (ours : ConfigToml Ip Settings) :
    Except MergeError String :=
  match toml.parse disk with
  | none => .error .syntaxError
  | some doc => (toml.mergeDocument doc base ours).map toml.print

/-- With no file on disk, the daemon's own rendering. -/
def render (ours : ConfigToml Ip Settings) : Except MergeError String :=
  if toml.writesSettings ours.settings then
    .ok (toml.print
      { clients := match ours.clients with
          | none => .missing
          | some [] => .inline "" []
          | some clients => .tables (clients.map (renderClient toml.ipText))
        authorizedFingerprints := ours.authorizedFingerprints
        revokedFingerprints := ours.revokedFingerprints
        settings := ours.settings })
  else .error .render

end Toml

/-- How the file system answers a save. -/
structure FileSystem where
  createsDirectory : Bool
  reads : Bool
  renames : Bool

inductive SaveError where
  | directory
  | read
  | leftAsItIs (why : MergeError)
  | write
  deriving DecidableEq

/-- What the daemon remembers of the file: the devices last synced, and the text last seen. -/
structure Synced (Ip : Type) where
  synced : List (ConfigClient Ip)
  seen : Option String

/-- Read, merge and write: what is left on disk, and what the daemon remembers then. -/
def writeConfigFile (toml : Toml Ip Settings) (system : FileSystem) (file : Option String)
    (state : Synced Ip) (ours : ConfigToml Ip Settings) :
    Option String × Except SaveError (Synced Ip) :=
  if ¬ system.createsDirectory then (file, .error .directory)
  else if ¬ system.reads then (file, .error .read)
  else
    let merged := match file with
      | some disk => toml.merge disk state.synced ours
      | none => toml.render ours
    match merged with
    | .error why => (file, .error (.leftAsItIs why))
    | .ok text =>
      if system.renames then
        let unread := file.isSome && state.seen ≠ file
        (some text, .ok ⟨Toml.entries ours.clients, if unread then none else some text⟩)
      else (file, .error .write)

end Merging

end HopsFormal.Config
