import HopsFormal.Edges.Service
import Mathlib.Algebra.Ring.Int.Defs

/-!
# The devices of the config file

A device of the config file is a table of lines, each with what is written above
it and after it; keys this build does not know are lines like any other.  The
lines are kept with the last one first, so that a line put in front is written at
the end.  What is read of a table is one value for each key the build knows, and
what is written is one line for each value a device has.
-/

namespace HopsFormal.Config

open Capture (Position)
open Edges (Geometry ConfigClient defaultPort)
open Option Lib
open Trust (trim sanitizeLabel validFingerprint)

/-! ## Values, lines and tables -/

/-- A value of the file; a number with a point and a date are kept as they are written. -/
inductive Value where
  | string (text : String)
  | integer (number : Int)
  | boolean (flag : Bool)
  | array (items : List Value)
  | table (rows : List (String × Value))
  | other (text : String)

/-- What stands under a key: a value with what is written after it, or tables of their own. -/
inductive Item where
  | value (value : Value) (decor : String)
  | table (rows : List (String × Value))
  | arrayOfTables (tables : List (List (String × Value)))

def Item.content : Item → Value
  | .value held _ => held
  | .table rows => .table rows
  | .arrayOfTables tables => .array (tables.map .table)

/-- What is written above a key, and what stands under it. -/
structure Line where
  above : String
  item : Item

/-- A table of a list of devices. -/
structure Entry where
  decor : String
  lines : Table String Line

/-- A device as the file has it: every field may be missing. -/
structure TomlClient (Ip : Type) where
  hostname : Option String
  hostName : Option String
  ips : Option (List Ip)
  port : Option UInt16
  position : Option Position
  activateOnStartup : Option Bool
  enterHook : Option String
  fingerprint : Option String
  label : Option String
  geometry : Option Geometry

/-- How an address is written and read. -/
structure IpText (Ip : Type) where
  display : Ip → String
  parse : String → Option Ip
  parse_display : ∀ ip, parse (display ip) = some ip

/-! ## Reading a value -/

def readString : Value → Option String
  | .string text => some text
  | _ => none

def readBoolean : Value → Option Bool
  | .boolean flag => some flag
  | _ => none

def readUInt16 : Value → Option UInt16
  | .integer number =>
    if 0 ≤ number ∧ number < 2 ^ 16 then some (.ofNat number.toNat) else none
  | _ => none

def readUInt32 : Value → Option UInt32
  | .integer number =>
    if 0 ≤ number ∧ number < 2 ^ 32 then some (.ofNat number.toNat) else none
  | _ => none

def readInt32 : Value → Option Int32
  | .integer number =>
    if -2 ^ 31 ≤ number ∧ number < 2 ^ 31 then some (.ofInt number) else none
  | _ => none

def readPosition : Value → Option Position
  | .string "left" => some .left
  | .string "right" => some .right
  | .string "top" => some .top
  | .string "bottom" => some .bottom
  | _ => none

def readIps {Ip : Type} (ipText : IpText Ip) : Value → Option (List Ip)
  | .array items => items.mapM fun item => (readString item).bind ipText.parse
  | _ => none

def readGeometry : Value → Option Geometry
  | .table rows => do
      let x ← (rows.lookup "x").bind readInt32
      let y ← (rows.lookup "y").bind readInt32
      let width ← (rows.lookup "width").bind readUInt32
      let height ← (rows.lookup "height").bind readUInt32
      return ⟨x, y, width, height⟩
  | _ => none

/-! ## Writing a value -/

def writePosition : Position → Value
  | .left => .string "left"
  | .right => .string "right"
  | .top => .string "top"
  | .bottom => .string "bottom"

def writeIps {Ip : Type} (ipText : IpText Ip) (ips : List Ip) : Value :=
  .array (ips.map fun ip => .string (ipText.display ip))

def writeGeometry (geometry : Geometry) : Value :=
  .table [("x", .integer geometry.x.toInt), ("y", .integer geometry.y.toInt),
    ("width", .integer geometry.width.toNat), ("height", .integer geometry.height.toNat)]

def writeUInt16 (number : UInt16) : Value :=
  .integer number.toNat

theorem readUInt16_write (number : UInt16) : readUInt16 (writeUInt16 number) = some number := by
  have below := number.toNat_lt
  rw [writeUInt16, readUInt16, if_pos (by omega)]
  simp

theorem readUInt32_integer (number : UInt32) :
    readUInt32 (.integer number.toNat) = some number := by
  have below := number.toNat_lt
  rw [readUInt32, if_pos (by omega)]
  simp

theorem readInt32_integer (number : Int32) : readInt32 (.integer number.toInt) = some number := by
  have above := number.le_toInt
  have below := number.toInt_lt
  rw [readInt32, if_pos ⟨above, below⟩, Int32.ofInt_toInt]

theorem readPosition_write (position : Position) :
    readPosition (writePosition position) = some position := by
  cases position <;> rfl

theorem readIps_write {Ip : Type} (ipText : IpText Ip) (ips : List Ip) :
    readIps ipText (writeIps ipText ips) = some ips := by
  simp only [writeIps, readIps]
  induction ips with
  | nil => rfl
  | cons ip rest ih =>
    rw [List.map_cons, List.mapM_cons, ih]
    simp [readString, ipText.parse_display]

theorem lookup_geometry (x y width height : Value) :
    let rows := [("x", x), ("y", y), ("width", width), ("height", height)]
    rows.lookup "x" = some x ∧ rows.lookup "y" = some y ∧ rows.lookup "width" = some width ∧
      rows.lookup "height" = some height :=
  ⟨rfl, rfl, rfl, rfl⟩

theorem readGeometry_write (geometry : Geometry) :
    readGeometry (writeGeometry geometry) = some geometry := by
  obtain ⟨x, y, width, height⟩ := geometry
  obtain ⟨atX, atY, atWidth, atHeight⟩ := lookup_geometry (.integer x.toInt) (.integer y.toInt)
    (.integer width.toNat) (.integer height.toNat)
  simp only [writeGeometry, readGeometry]
  rw [atX, atY, atWidth, atHeight, bind_some, bind_some, bind_some,
    bind_some, readInt32_integer, readInt32_integer, readUInt32_integer,
    readUInt32_integer]
  rfl

/-! ## Reading and writing a device -/

/-- What is under a key, if it can be read as it should. -/
def field {α : Type} (read : Value → Option α) (entry : Entry) (key : String) :
    Option (Option α) :=
  match entry.lines.lookup key with
  | none => some none
  | some line => (read line.item.content).map some

def readClient {Ip : Type} (ipText : IpText Ip) (entry : Entry) : Option (TomlClient Ip) := do
  let hostname ← field readString entry "hostname"
  let hostName ← field readString entry "host_name"
  let ips ← field (readIps ipText) entry "ips"
  let port ← field readUInt16 entry "port"
  let position ← field readPosition entry "position"
  let activateOnStartup ← field readBoolean entry "activate_on_startup"
  let enterHook ← field readString entry "enter_hook"
  let fingerprint ← field readString entry "fingerprint"
  let label ← field readString entry "label"
  let geometry ← field readGeometry entry "geometry"
  return ⟨hostname, hostName, ips, port, position, activateOnStartup, enterHook, fingerprint,
    label, geometry⟩

/-- The keys of a device this build knows. -/
def keys : List String :=
  ["hostname", "host_name", "ips", "port", "position", "activate_on_startup", "enter_hook",
    "fingerprint", "label", "geometry"]

/-- What a device has under a key. -/
def TomlClient.value {Ip : Type} (ipText : IpText Ip) (client : TomlClient Ip) :
    String → Option Value
  | "hostname" => client.hostname.map .string
  | "host_name" => client.hostName.map .string
  | "ips" => client.ips.map (writeIps ipText)
  | "port" => client.port.map writeUInt16
  | "position" => client.position.map writePosition
  | "activate_on_startup" => client.activateOnStartup.map .boolean
  | "enter_hook" => client.enterHook.map .string
  | "fingerprint" => client.fingerprint.map .string
  | "label" => client.label.map .string
  | "geometry" => client.geometry.map writeGeometry
  | _ => none

/-- A device as the daemon writes it: a field that is missing has no line. -/
def renderClient {Ip : Type} (ipText : IpText Ip) (client : TomlClient Ip) : Entry where
  decor := ""
  lines := .ofKeys keys fun key =>
    (client.value ipText key).map fun value => ⟨"", .value value ""⟩

section Fields

variable {Ip : Type} {ipText : IpText Ip} {entry other : Entry} {client : TomlClient Ip}

/-- The value under a key, without what is written around it. -/
def Entry.content (entry : Entry) (key : String) : Option Value :=
  (entry.lines.lookup key).map (·.item.content)

theorem field_congr {α : Type} (read : Value → Option α) {key : String}
    (same : entry.content key = other.content key) :
    field read entry key = field read other key := by
  unfold Entry.content at same
  unfold field
  cases found : entry.lines.lookup key with
  | none =>
    rw [found, map_none, eq_comm, map_eq_none_iff] at same
    rw [same]
  | some line =>
    rw [found, map_some, eq_comm, map_eq_some_iff] at same
    obtain ⟨there, foundThere, sameContent⟩ := same
    rw [foundThere]
    dsimp only
    rw [sameContent]

theorem readClient_eq_some_iff :
    readClient ipText entry = some client ↔
      field readString entry "hostname" = some client.hostname ∧
        field readString entry "host_name" = some client.hostName ∧
        field (readIps ipText) entry "ips" = some client.ips ∧
        field readUInt16 entry "port" = some client.port ∧
        field readPosition entry "position" = some client.position ∧
        field readBoolean entry "activate_on_startup" = some client.activateOnStartup ∧
        field readString entry "enter_hook" = some client.enterHook ∧
        field readString entry "fingerprint" = some client.fingerprint ∧
        field readString entry "label" = some client.label ∧
        field readGeometry entry "geometry" = some client.geometry := by
  unfold readClient
  simp only [bind_eq_bind, bind_eq_some_iff, Option.pure_def, Option.some.injEq]
  constructor
  · rintro ⟨_, hostname, _, hostName, _, ips, _, port, _, position, _, active, _, hook, _,
      fingerprint, _, label, _, geometry, rfl⟩
    exact ⟨hostname, hostName, ips, port, position, active, hook, fingerprint, label, geometry⟩
  · rintro ⟨hostname, hostName, ips, port, position, active, hook, fingerprint, label, geometry⟩
    exact ⟨_, hostname, _, hostName, _, ips, _, port, _, position, _, active, _, hook, _,
      fingerprint, _, label, _, geometry, rfl⟩

theorem content_render (client : TomlClient Ip) {key : String} (known : key ∈ keys) :
    (renderClient ipText client).content key = client.value ipText key := by
  rw [Entry.content, renderClient, Table.lookup_ofKeys, if_pos known, Option.map_map]
  exact Option.map_id'

theorem field_of_content {α : Type} {read : Value → Option α} {write : α → Value} {key : String}
    (reads : ∀ value, read (write value) = some value) {held : Option α}
    (content : entry.content key = held.map write) : field read entry key = some held := by
  unfold Entry.content at content
  unfold field
  cases found : entry.lines.lookup key with
  | none =>
    rw [found, map_none, eq_comm, map_eq_none_iff] at content
    rw [content]
  | some line =>
    rw [found, map_some, eq_comm, map_eq_some_iff] at content
    obtain ⟨value, rfl, written⟩ := content
    dsimp only
    rw [← written, reads]
    rfl

theorem readClient_render (client : TomlClient Ip) :
    readClient ipText (renderClient ipText client) = some client := by
  have text : ∀ value, readString (.string value) = some value := fun _ => rfl
  have flag : ∀ value, readBoolean (.boolean value) = some value := fun _ => rfl
  rw [readClient_eq_some_iff]
  refine ⟨field_of_content text ?_, field_of_content text ?_,
    field_of_content (readIps_write ipText) ?_, field_of_content readUInt16_write ?_,
    field_of_content readPosition_write ?_, field_of_content flag ?_,
    field_of_content text ?_, field_of_content text ?_, field_of_content text ?_,
    field_of_content readGeometry_write ?_⟩ <;>
  exact content_render client (by decide)

end Fields

/-- A device as the daemon keeps it. -/
def ofToml {Ip : Type} [DecidableEq Ip] (toml : TomlClient Ip) : ConfigClient Ip where
  label := (toml.label.map fun label => sanitizeLabel (trim label)).filter
    fun label => trim label ≠ ""
  ips := (toml.ips.getD []).toFinset
  hostname := toml.hostname
  port := toml.port.getD defaultPort
  pos := toml.position.getD .left
  active := toml.activateOnStartup.getD false
  enterHook := toml.enterHook
  fingerprint := toml.fingerprint.filter validFingerprint
  geometry := toml.geometry

end HopsFormal.Config
