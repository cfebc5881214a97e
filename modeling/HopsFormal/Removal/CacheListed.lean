import HopsFormal.Config.Merge
import HopsFormal.Trust.Saver
import Mathlib.Data.Finset.Sort

/-!
# A device removed in the config

The daemon writes the devices it trusts to drive this machine to a table of the
config, and keeps beside the config which devices that table has listed.  One that
was listed, is still trusted and is no longer in the table was removed there, if a
second read of the file agrees.  The file is read as the two tables that name
machines; a device that was listed is a line of its own.
-/

namespace HopsFormal.Removal

open List Lib Trust
open Config (RevokedEntry sameMap)

/-! ## The tables of the config -/

/-- The tables of the config that name machines. -/
structure Tables where
  authorized : Option (Table String String)
  revoked : Table String RevokedEntry

section Listed

variable [Lowercase]

def lowered (listed : Table String String) : List (String × String) :=
  listed.entries.map fun row => (Lowercase.toLowercase row.1, row.2)

def revokedKeys (tables : Tables) : List String :=
  tables.revoked.keys.map Lowercase.toLowercase

/-- The machines a config lists, less those it lists as removed; nothing without the table. -/
def listedIn (tables : Tables) : Option (List String) :=
  tables.authorized.map fun listed =>
    ((lowered listed).map Prod.fst).filter fun fp => fp ∉ revokedKeys tables

/-- A fingerprint as the store keys it. -/
def canonical (fp : String) : String :=
  (canonicalFingerprint fp).getD (Lowercase.toLowercase (trim fp))

/-! ## The devices that were listed -/

/-- The lines of a file that name a device. -/
def devicesOf (text : String) : List String :=
  (((text.toList.splitOn '\n').map fun line => trim (String.ofList line)).filter
    fun line => line ≠ "").map canonical

structure Listed where
  fingerprints : Finset String

namespace Listed

/-- Nothing when the file is absent or cannot be read. -/
def read (file : Option String) : Listed :=
  ⟨((file.map devicesOf).getD []).toFinset⟩

def text (fingerprints : Finset String) : String :=
  String.ofList (fingerprints.sort.flatMap fun fp => fp.toList ++ ['\n'])

/-- Record `next`, writing the file when that changes what is recorded. -/
def save (listed : Listed) (file : Option String) (next : Finset String) (writes : Bool) :
    Bool × Listed × Option String :=
  if next = listed.fingerprints then (true, listed, file)
  else if writes then (true, ⟨next⟩, some (text next))
  else (false, listed, file)

/-- Of what the store would write to the table, what was listed and is not any more. -/
def removed (listed : Listed) (granted : List String) (file : Option (List String)) :
    List String :=
  match file with
  | none => []
  | some file =>
    ((granted.map canonical).filter fun fp =>
      fp ∈ listed.fingerprints ∧ fp ∉ file.map canonical).mergeSort

def recordKeeping (listed : Listed) (file : Option String) (now : List String) (keep : Bool)
    (writes : Bool) : Bool × Listed × Option String :=
  let next := (now.map canonical).toFinset
  listed.save file (if keep then next ∪ listed.fingerprints else next) writes

def unrecord (listed : Listed) (file : Option String) (dropped : List String) (writes : Bool) :
    Bool × Listed × Option String :=
  listed.save file (listed.fingerprints \ (dropped.map canonical).toFinset) writes

end Listed

/-- Of what one read found removed, what a second read does not list either. -/
def confirmed (removed : List String) (again : Option (List String)) : List String :=
  match again with
  | none => []
  | some again => removed.filter fun fp => canonical fp ∉ again.map canonical

end Listed

/-! ## What the store would write -/

/-- The devices the store trusts to drive this machine. -/
def configCache (store : TrustStore) (reading : Nat) : List (String × String) :=
  store.entries.toList.filterMap fun row =>
    (row.2.lease.filter fun lease => lease.confirmed && lease.isValidAt (store.now reading) &&
      lease.caps.contains .driveMe).map fun lease => (row.1, lease.label)

def everyToPairAgain (store : TrustStore) : List String :=
  store.pairAgain.toList.map Prod.fst

/-- What a removal from the table takes away. -/
def removableFromTheFile (store : TrustStore) (reading : Nat) : List String :=
  let cache := (configCache store reading).map Prod.fst
  cache ++ (everyToPairAgain store).filter fun fp => fp ∉ cache

/-- A device is trusted to drive this machine, or listed to be paired again. -/
def Removable (store : TrustStore) (reading : Nat) (fp : String) : Prop :=
  (∃ lease, store.leaseAt fp = some lease ∧ lease.confirmed = true ∧
    lease.isValidAt (store.now reading) = true ∧ lease.caps.contains .driveMe = true) ∨
  ∃ listing : PairAgain, store.pairAgain[fp]? = some listing

variable {store : TrustStore} {fp : String}

theorem mem_configCache {reading : Nat} : fp ∈ (configCache store reading).map Prod.fst ↔
      ∃ lease, store.leaseAt fp = some lease ∧ lease.confirmed = true ∧
        lease.isValidAt (store.now reading) = true ∧ lease.caps.contains .driveMe = true := by
  simp only [configCache, mem_map, mem_filterMap, Prod.exists,
    Std.ExtTreeMap.mem_toList_iff_getElem?_eq_some, Option.map_eq_some_iff,
    Option.filter_eq_some_iff, Bool.and_eq_true, Prod.mk.injEq]
  constructor
  · rintro ⟨_, _, ⟨key, entry, found, lease, ⟨held, ⟨isConfirmed, valid⟩, drives⟩, rfl, rfl⟩, rfl⟩
    exact ⟨lease, by simp [TrustStore.leaseAt, found, held], isConfirmed, valid, drives⟩
  · rintro ⟨lease, found, isConfirmed, valid, drives⟩
    obtain ⟨entry, isEntry, held⟩ := Option.bind_eq_some_iff.mp found
    exact ⟨fp, lease.label, ⟨fp, entry, isEntry, lease, ⟨held, ⟨isConfirmed, valid⟩, drives⟩, rfl,
      rfl⟩, rfl⟩

theorem mem_everyToPairAgain :
    fp ∈ everyToPairAgain store ↔ ∃ listing : PairAgain, store.pairAgain[fp]? = some listing := by
  simp only [everyToPairAgain, mem_map, Prod.exists,
    Std.ExtTreeMap.mem_toList_iff_getElem?_eq_some, exists_and_right, exists_eq_right]

theorem mem_removableFromTheFile {reading : Nat} :
    fp ∈ removableFromTheFile store reading ↔ Removable store reading fp := by
  rw [removableFromTheFile, mem_append, mem_filter, decide_eq_true_eq,
    mem_everyToPairAgain, Removable, ← mem_configCache]
  constructor
  · exact Or.imp_right And.left
  · rintro (cached | listed)
    · exact .inl cached
    · by_cases cached : fp ∈ (configCache store reading).map Prod.fst
      · exact .inl cached
      · exact .inr ⟨listed, cached⟩

/-! ## The record is read as it was written -/

section Record

variable [Lowercase] {fp : String}

theorem canonical_of_valid (valid : validFingerprint fp = true) : canonical fp = fp :=
  key_of_valid valid

omit [Lowercase] in
/-- A line of its own is one of the lines of the text. -/
theorem mem_splitOn_flatMap {lines : List (List Char)} {line : List Char} (member : line ∈ lines)
    (plain : '\n' ∉ line) :
    line ∈ (lines.flatMap fun line => line ++ ['\n']).splitOn '\n' := by
  induction lines with
  | nil => cases member
  | cons first rest ih =>
    rw [flatMap_cons, append_assoc, singleton_append,
      splitOn_append_cons_self, mem_append]
    rcases mem_cons.mp member with rfl | later
    · left
      rw [splitOn_eq_singleton plain]
      exact mem_singleton_self line
    · exact .inr (ih later)

omit [Lowercase] in
theorem newline_notMem (valid : validFingerprint fp = true) : '\n' ∉ fp.toList := by
  intro member
  have allowed := validFingerprint_chars valid '\n' member
  exact absurd allowed (by decide)

theorem Listed.mem_read_text {fingerprints : Finset String} (valid : validFingerprint fp = true)
    (member : fp ∈ fingerprints) :
    fp ∈ (Listed.read (some (Listed.text fingerprints))).fingerprints := by
  have line : fp.toList ∈ (fingerprints.sort.map String.toList) :=
    mem_map_of_mem ((Finset.mem_sort _).mpr member)
  have inText := mem_splitOn_flatMap line (newline_notMem valid)
  rw [flatMap_map] at inText
  rw [Listed.read, Option.map_some, Option.getD_some, mem_toFinset, devicesOf, Listed.text,
    String.toList_ofList]
  refine mem_map.mpr ⟨fp, mem_filter.mpr ⟨mem_map.mpr ⟨fp.toList, inText, ?_⟩, ?_⟩,
    canonical_of_valid valid⟩
  · rw [String.ofList_toList, trim_of_valid valid]
  · rw [decide_eq_true_eq]
    rintro rfl
    exact absurd valid (by decide)

end Record

end HopsFormal.Removal
