import HopsFormal.Config.Merge

/-!
# A save is a three-way merge

Between the list last synced, the daemon's list and the file's there is a device
of the file for at most one of the base, and one of the daemon's for at most one
of it.  So each entry of the file is changed for one device at most, an entry is
taken out for one device alone, and a device the daemon has is either the change
of one of the base or created.
-/

namespace HopsFormal.Config

open Edges (ConfigClient defaultPort)
open List Lib
open Trust (trim sanitizeLabel validFingerprint)

/-! ## Matchings -/

section Matchings

variable {Ip : Type} {left right : List (ConfigClient Ip)} {out : List (Option Nat)}

/-- Each place on the right is the match of one on the left at most, and is there. -/
structure Matching (left right : List (ConfigClient Ip)) (out : List (Option Nat)) : Prop where
  length : out.length = left.length
  below : ∀ found, some found ∈ out → found < right.length
  once : ∀ {index other found : Nat}, out[index]? = some (some found) →
    out[other]? = some (some found) → index = other

theorem matching_start (left right : List (ConfigClient Ip)) :
    Matching left right (List.replicate left.length none) where
  length := length_replicate
  below := by
    intro found member
    cases (mem_replicate.mp member).2
  once := by
    intro index other found matched _
    cases (mem_replicate.mp (mem_of_getElem? matched)).2

theorem Matching.set (matching : Matching left right out) {index found : Nat}
    (below : found < right.length) (fresh : some found ∉ out) :
    Matching left right (out.set index (some found)) where
  length := by rw [length_set, matching.length]
  below := by
    intro other member
    rcases mem_or_eq_of_mem_set member with earlier | new
    · exact matching.below other earlier
    · rw [Option.some.inj new]
      exact below
  once := by
    intro first second other matched again
    rw [getElem?_set] at matched again
    split at matched
    · split at again
      · next here there => exact here.symm.trans there
      · split at matched
        · cases matched
          exact absurd (mem_of_getElem? again) fresh
        · cases matched
    · split at again
      · split at again
        · cases again
          exact absurd (mem_of_getElem? matched) fresh
        · cases again
      · exact matching.once matched again

theorem Matching.matchOne (matching : Matching left right out)
    (same : ConfigClient Ip → ConfigClient Ip → Bool) (index : Nat) :
    Matching left right (Config.matchOne same left right out index) := by
  unfold Config.matchOne
  split
  · split
    · next found search =>
      have untaken := find?_some search
      have inside := mem_of_find?_eq_some search
      rw [decide_eq_true_eq] at untaken
      exact matching.set (mem_range.mp inside) untaken.1
    · exact matching
  · exact matching

theorem Matching.matchAll (matching : Matching left right out)
    (same : ConfigClient Ip → ConfigClient Ip → Bool) :
    Matching left right (Config.matchAll left right out same) := by
  unfold Config.matchAll
  induction List.range left.length generalizing out with
  | nil => exact matching
  | cons index rest ih => exact ih (matching.matchOne same index)

theorem matchAll_full (full : none ∉ out) (same : ConfigClient Ip → ConfigClient Ip → Bool) :
    matchAll left right out same = out := by
  have one : ∀ index, matchOne same left right out index = out := by
    intro index
    unfold matchOne
    split
    · next unmatched _ => exact absurd (mem_of_getElem? unmatched) full
    · rfl
  unfold matchAll
  induction List.range left.length with
  | nil => rfl
  | cons index rest ih => rw [foldl_cons, one, ih]

variable [DecidableEq Ip]

theorem Matching.matchLeftOver (matching : Matching left right out) :
    Matching left right (Config.matchLeftOver left right out) := by
  unfold Config.matchLeftOver
  split
  · next index candidate _ only =>
    have free : candidate ∈ (List.range right.length).filter fun candidate =>
        some candidate ∉ out := by
      rw [only]
      exact mem_singleton_self candidate
    obtain ⟨inside, untaken⟩ := mem_filter.mp free
    split
    · split
      · exact matching.set (mem_range.mp inside) (of_decide_eq_true untaken)
      · exact matching
    · exact matching
  · exact matching

theorem matching_pair (left right : List (ConfigClient Ip)) (against : Against) :
    Matching left right (pair left right against) := by
  have tested : ∀ (passes : List (ConfigClient Ip → ConfigClient Ip → Bool)) out,
      Matching left right out → Matching left right (passes.foldl (matchAll left right) out) := by
    intro passes
    induction passes with
    | nil => exact fun out matching => matching
    | cons same rest ih => exact fun out matching => ih _ (matching.matchAll same)
  have matching := tested tests _ (matching_start left right)
  cases against with
  | file => exact matching
  | memory => exact matching.matchLeftOver

/-! ## A list matched with itself -/

/-- The first places matched with themselves, the others not yet. -/
@[grind =]
def upTo (count length : Nat) : List (Option Nat) :=
  (List.range length).map fun index => if index < count then some index else none

theorem getElem?_upTo (count length index : Nat) :
    (upTo count length)[index]? =
      if index < length then some (if index < count then some index else none) else none := by
  rw [upTo, getElem?_map]
  split
  · next inside => rw [getElem?_range inside]; rfl
  · next outside =>
    rw [getElem?_eq_none (by simpa using Nat.le_of_not_lt outside)]
    rfl

theorem mem_upTo {count length found : Nat} (within : count ≤ length) :
    some found ∈ upTo count length ↔ found < count := by
  rw [upTo, mem_map]
  constructor
  · rintro ⟨index, -, same⟩
    split at same
    · cases same
      assumption
    · cases same
  · intro early
    exact ⟨found, mem_range.mpr (by omega), if_pos early⟩

theorem matchOne_upTo {count : Nat} (inside : count < left.length) :
    matchOne (fun first second => first = second) left left (upTo count left.length) count =
      upTo (count + 1) left.length := by
  have search : ((List.range left.length).find? fun candidate =>
      decide (some candidate ∉ upTo count left.length ∧
        (left[candidate]?).any fun second => left[count] = second)) = some count := by
    rw [find?_range_eq_some]
    refine ⟨?_, mem_range.mpr inside, ?_⟩
    · simp [mem_upTo (Nat.le_of_lt inside), inside]
    · intro earlier before
      simp [mem_upTo (Nat.le_of_lt inside), before]
  have unmatched : (upTo count left.length)[count]? = some none := by
    rw [getElem?_upTo, if_pos inside, if_neg (Nat.lt_irrefl count)]
  rw [matchOne, unmatched, getElem?_eq_getElem inside]
  simp only [search]
  apply ext_getElem?
  intro index
  rw [getElem?_set, getElem?_upTo, getElem?_upTo]
  have length : (upTo count left.length).length = left.length := by simp [upTo]
  by_cases here : count = index
  · subst here
    simp [length, inside]
  · rw [if_neg here]
    have same : index < count ↔ index < count + 1 := by omega
    simp only [same]

theorem matchAll_equal (list : List (ConfigClient Ip)) :
    matchAll list list (List.replicate list.length none) (fun first second => first = second) =
      upTo list.length list.length := by
  have start : List.replicate list.length none = upTo 0 list.length := by
    simp [upTo, map_const']
  have first : ∀ count, count ≤ list.length →
      (List.range count).foldl (matchOne (fun first second => first = second) list list)
        (List.replicate list.length none) = upTo count list.length := by
    intro count
    induction count with
    | zero => exact fun _ => start
    | succ count ih =>
      intro inside
      rw [range_succ, foldl_append, ih (by omega)]
      exact matchOne_upTo (by omega)
  exact first list.length (Nat.le_refl _)

/-- Matched with itself, each device of a list is its own match. -/
theorem pair_self (list : List (ConfigClient Ip)) :
    pair list list .file = (List.range list.length).map some := by
  have full : none ∉ upTo list.length list.length := by
    intro member
    obtain ⟨index, inside, same⟩ := mem_map.mp member
    rw [if_pos (mem_range.mp inside)] at same
    cases same
  simp only [pair, tests, foldl_cons, foldl_nil]
  rw [matchAll_equal, matchAll_full full, matchAll_full full, matchAll_full full, upTo]
  apply map_congr_left
  intro index inside
  rw [if_pos (mem_range.mp inside)]

end Matchings

/-! ## Changing an entry -/

section Entries

variable {Ip : Type} [DecidableEq Ip]

theorem lookup_changeField {fresh entry : Entry} {key other : String} (apart : other ≠ key) :
    (changeField fresh entry key).lines.lookup other = entry.lines.lookup other := by
  unfold changeField
  split
  · exact AList.lookup_erase_ne apart
  · split
    · exact AList.lookup_insert_ne apart
    · rw [Table.lookup_changeAt, if_neg apart]

theorem content_changeField (fresh entry : Entry) (key other : String) :
    (changeField fresh entry key).content other =
      if other = key then fresh.content other else entry.content other := by
  split
  · next same =>
    subst same
    simp only [Entry.content, changeField]
    cases found : fresh.lines.lookup other with
    | none => rw [AList.lookup_erase]
    | some new =>
      cases there : entry.lines.lookup other with
      | none => rw [AList.lookup_insert]
      | some old =>
        rw [Table.lookup_changeAt, if_pos rfl, there]
        simp only [Option.map_some, Option.some.injEq]
        split
        · next new_ => rw [new_]; rfl
        · rfl
  · next apart => rw [Entry.content, Entry.content, lookup_changeField apart]

theorem lookup_changeFields {base ours : ConfigClient Ip} {fresh entry : Entry} {key : String}
    (unchanged : key ∉ changedKeys base ours) :
    (changeFields base ours fresh entry).lines.lookup key = entry.lines.lookup key := by
  unfold changeFields
  generalize changedKeys base ours = keys at unchanged ⊢
  induction keys generalizing entry with
  | nil => rfl
  | cons first rest ih =>
    rw [mem_cons, not_or] at unchanged
    rw [foldl_cons, ih unchanged.2, lookup_changeField unchanged.1]

theorem content_changeFields (base ours : ConfigClient Ip) (fresh entry : Entry) (key : String) :
    (changeFields base ours fresh entry).content key =
      if key ∈ changedKeys base ours then fresh.content key else entry.content key := by
  unfold changeFields
  induction changedKeys base ours generalizing entry with
  | nil => rfl
  | cons first rest ih =>
    rw [foldl_cons, ih, content_changeField]
    by_cases here : key = first
    · subst here
      simp
    · simp [here]

/-- What a three-way merge makes of one device: the hook is the file's alone. -/
def threeWay (base ours theirs : ConfigClient Ip) : ConfigClient Ip where
  label := if base.label = ours.label then theirs.label else ours.label
  ips := if base.ips = ours.ips then theirs.ips else ours.ips
  hostname := if base.hostname = ours.hostname then theirs.hostname else ours.hostname
  port := if base.port = ours.port then theirs.port else ours.port
  pos := if base.pos = ours.pos then theirs.pos else ours.pos
  active := if base.active = ours.active then theirs.active else ours.active
  enterHook := theirs.enterHook
  fingerprint :=
    if base.fingerprint = ours.fingerprint then theirs.fingerprint else ours.fingerprint
  geometry := if base.geometry = ours.geometry then theirs.geometry else ours.geometry

theorem threeWay_self (base ours : ConfigClient Ip) :
    threeWay base ours base = { ours with enterHook := base.enterHook } := by
  simp only [threeWay, ConfigClient.mk.injEq]
  refine ⟨?_, ?_, ?_, ?_, ?_, ?_, trivial, ?_, ?_⟩ <;>
  split <;> first | assumption | rfl

section Reading

variable {base : ConfigClient Ip} {mine theirs : TomlClient Ip} {ipText : IpText Ip} {entry : Entry}

theorem field_changeFields {α : Type} (read : Value → Option α) {key : String}
    {our their : Option α} {ours : ConfigClient Ip} {fresh : Entry}
    (mineReads : field read fresh key = some our) (theirsReads : field read entry key = some their) :
    field read (changeFields base ours fresh entry) key =
      some (if key ∈ changedKeys base ours then our else their) := by
  have content := content_changeFields base ours fresh entry key
  split
  · next changed =>
    rw [if_pos changed] at content
    rw [field_congr read content, mineReads]
  · next unchanged =>
    rw [if_neg unchanged] at content
    rw [field_congr read content, theirsReads]

/-- What is read of a changed entry: the fields of the changed keys are the daemon's. -/
def mergeToml (changed : List String) (mine theirs : TomlClient Ip) : TomlClient Ip where
  hostname := if "hostname" ∈ changed then mine.hostname else theirs.hostname
  hostName := if "host_name" ∈ changed then mine.hostName else theirs.hostName
  ips := if "ips" ∈ changed then mine.ips else theirs.ips
  port := if "port" ∈ changed then mine.port else theirs.port
  position := if "position" ∈ changed then mine.position else theirs.position
  activateOnStartup :=
    if "activate_on_startup" ∈ changed then mine.activateOnStartup else theirs.activateOnStartup
  enterHook := if "enter_hook" ∈ changed then mine.enterHook else theirs.enterHook
  fingerprint := if "fingerprint" ∈ changed then mine.fingerprint else theirs.fingerprint
  label := if "label" ∈ changed then mine.label else theirs.label
  geometry := if "geometry" ∈ changed then mine.geometry else theirs.geometry

theorem mem_changedKeys (base ours : ConfigClient Ip) :
    ("hostname" ∈ changedKeys base ours ↔ base.hostname ≠ ours.hostname) ∧
      "host_name" ∉ changedKeys base ours ∧
      ("ips" ∈ changedKeys base ours ↔ base.ips ≠ ours.ips) ∧
      ("port" ∈ changedKeys base ours ↔ base.port ≠ ours.port) ∧
      ("position" ∈ changedKeys base ours ↔ base.pos ≠ ours.pos) ∧
      ("activate_on_startup" ∈ changedKeys base ours ↔ base.active ≠ ours.active) ∧
      "enter_hook" ∉ changedKeys base ours ∧
      ("fingerprint" ∈ changedKeys base ours ↔ base.fingerprint ≠ ours.fingerprint) ∧
      ("label" ∈ changedKeys base ours ↔ base.label ≠ ours.label) ∧
      ("geometry" ∈ changedKeys base ours ↔ base.geometry ≠ ours.geometry) := by
  simp [changedKeys]

omit [DecidableEq Ip] in
theorem apply_changed {α β : Type} [DecidableEq β] (f : α → β) {changed : Prop}
    [Decidable changed] {before : β} {our their : α} (differs : changed ↔ before ≠ f our) :
    f (if changed then our else their) = if before = f our then f their else f our := by
  by_cases same : before = f our
  · rw [if_neg (fun changed => differs.mp changed same), if_pos same]
  · rw [if_pos (differs.mpr same), if_neg same]

theorem ofToml_mergeToml (base : ConfigClient Ip) (mine theirs : TomlClient Ip) :
    ofToml (mergeToml (changedKeys base (ofToml mine)) mine theirs) =
      threeWay base (ofToml mine) (ofToml theirs) := by
  obtain ⟨isHostname, -, isIps, isPort, isPosition, isActive, isHook, isFingerprint, isLabel,
    isGeometry⟩ := mem_changedKeys base (ofToml mine)
  simp only [threeWay, mergeToml, ofToml, ConfigClient.mk.injEq]
  refine ⟨?_, ?_, ?_, ?_, ?_, ?_, ?_, ?_, ?_⟩
  · exact apply_changed (fun label => (Option.map (fun name => sanitizeLabel (trim name))
      label).filter fun label => trim label ≠ "") isLabel
  · exact apply_changed (fun ips => (Option.getD ips []).toFinset) isIps
  · exact apply_changed id isHostname
  · exact apply_changed (fun port => Option.getD port defaultPort) isPort
  · exact apply_changed (fun position => Option.getD position Capture.Position.left) isPosition
  · exact apply_changed (fun active => Option.getD active false) isActive
  · exact if_neg isHook
  · exact apply_changed (Option.filter validFingerprint) isFingerprint
  · exact apply_changed id isGeometry

theorem readClient_changeFields (reads : readClient ipText entry = some theirs) :
    ∃ merged, readClient ipText (changeFields base (ofToml mine) (renderClient ipText mine)
        entry) = some merged ∧
      ofToml merged = threeWay base (ofToml mine) (ofToml theirs) := by
  obtain ⟨hostname, hostName, ips, port, position, active, hook, fingerprint, label, geometry⟩ :=
    readClient_eq_some_iff.mp reads
  obtain ⟨hostname', hostName', ips', port', position', active', hook', fingerprint', label',
    geometry'⟩ := readClient_eq_some_iff.mp (@readClient_render _ ipText mine)
  refine ⟨mergeToml (changedKeys base (ofToml mine)) mine theirs,
    readClient_eq_some_iff.mpr ⟨field_changeFields _ hostname' hostname,
    field_changeFields _ hostName' hostName, field_changeFields _ ips' ips,
    field_changeFields _ port' port, field_changeFields _ position' position,
    field_changeFields _ active' active, field_changeFields _ hook' hook,
    field_changeFields _ fingerprint' fingerprint, field_changeFields _ label' label,
    field_changeFields _ geometry' geometry⟩, ?_⟩
  exact ofToml_mergeToml base mine theirs

end Reading

end Entries

end HopsFormal.Config
