import Mathlib.Data.List.AList

/-!
# Tables

A table holds at most one value for a key.  It is Mathlib's association list at
a constant family; what is added here is how a value is changed in place, in
one row or in all of them, and how the rows are searched.
-/

namespace HopsFormal.Lib

open AList

abbrev Table (κ α : Type) := AList fun _ : κ => α

namespace Table

variable {κ α : Type} [DecidableEq κ]

/-- Change the value of one key, if it has one. -/
def modify (table : Table κ α) (key : κ) (change : α → α) : Table κ α :=
  match table.lookup key with
  | none => table
  | some value => table.insert key (change value)

variable (table : Table κ α)

theorem lookup_modify (key other : κ) (change : α → α) : (table.modify key change).lookup other =
      if other = key then (table.lookup other).map change else table.lookup other := by
  unfold modify
  by_cases same : other = key
  · subst same
    rw [if_pos rfl]
    cases found : table.lookup other with
    | none => simpa using found
    | some value => simp
  · rw [if_neg same]
    split
    · rfl
    · exact lookup_insert_ne same

/-- What is left after a key is taken out was there before. -/
theorem lookup_of_erase {table : Table κ α} {key other : κ} {value : α}
    (found : (table.erase key).lookup other = some value) :
    other ≠ key ∧ table.lookup other = some value := by
  by_cases same : other = key
  · subst same
    rw [lookup_erase] at found
    cases found
  · rw [lookup_erase_ne same] at found
    exact ⟨same, found⟩

theorem lookup_of_insert {table : Table κ α} {key other : κ} {value inserted : α}
    (found : (table.insert key inserted).lookup other = some value) :
    (other = key ∧ value = inserted) ∨ table.lookup other = some value := by
  by_cases same : other = key
  · subst same
    rw [lookup_insert] at found
    exact .inl ⟨rfl, (Option.some.inj found).symm⟩
  · rw [lookup_insert_ne same] at found
    exact .inr found

omit [DecidableEq κ] in
theorem keys_map (change : α → α) :
    (table.entries.map fun row => (⟨row.1, change row.2⟩ : Sigma fun _ : κ => α)).keys =
      table.keys := by
  simp only [List.keys, List.map_map, keys]
  rfl

def mapValues (table : Table κ α) (change : α → α) : Table κ α where
  entries := table.entries.map fun row => ⟨row.1, change row.2⟩
  nodupKeys := by
    rw [List.NodupKeys, keys_map]
    exact table.keys_nodup

theorem lookup_mapValues (change : α → α) (key : κ) :
    (table.mapValues change).lookup key = (table.lookup key).map change := by
  obtain ⟨rows, nodup⟩ := table
  simp only [mapValues, lookup]
  clear nodup
  induction rows with
  | nil => rfl
  | cons row rest ih =>
    obtain ⟨first, value⟩ := row
    by_cases same : first = key
    · subst same
      rw [List.map_cons, List.dlookup_cons_eq, List.dlookup_cons_eq]
      rfl
    · have apart : key ≠ first := Ne.symm same
      rw [List.map_cons, List.dlookup_cons_ne _ _ apart, List.dlookup_cons_ne _ _ apart]
      exact ih

/-- Change the value of one key in its place. -/
def changeAt (table : Table κ α) (key : κ) (change : α → α) : Table κ α where
  entries := table.entries.map fun row =>
    (⟨row.1, if row.1 = key then change row.2 else row.2⟩ : Sigma fun _ : κ => α)
  nodupKeys := by
    have keys : (table.entries.map fun row => (⟨row.1, if row.1 = key then change row.2
        else row.2⟩ : Sigma fun _ : κ => α)).keys = table.keys := by
      simp only [List.keys, List.map_map, keys]
      rfl
    rw [List.NodupKeys, keys]
    exact table.keys_nodup

theorem lookup_changeAt (key other : κ) (change : α → α) :
    (table.changeAt key change).lookup other =
      if other = key then (table.lookup other).map change else table.lookup other := by
  apply Option.ext
  intro value
  have rows : (table.changeAt key change).lookup other = some value ↔
      ∃ before, table.lookup other = some before ∧
        (if other = key then change before else before) = value := by
    rw [← Option.mem_def, mem_lookup_iff]
    simp only [changeAt, List.mem_map, Sigma.mk.injEq]
    constructor
    · rintro ⟨⟨at_, before⟩, member, rfl, same⟩
      exact ⟨before, mem_lookup_iff.mpr member, eq_of_heq same⟩
    · rintro ⟨before, found, same⟩
      exact ⟨⟨other, before⟩, mem_lookup_iff.mp found, rfl, heq_of_eq same⟩
  rw [rows]
  split
  · rw [Option.map_eq_some_iff]
  · simp

/-- The table of a function on some keys. -/
def ofKeys (keys : List κ) (value : κ → Option α) : Table κ α :=
  (keys.filterMap fun key =>
    (value key).map fun found => (⟨key, found⟩ : Sigma fun _ : κ => α)).toAList

theorem lookup_ofKeys (keys : List κ) (value : κ → Option α) (key : κ) :
    (ofKeys keys value).lookup key = if key ∈ keys then value key else none := by
  rw [ofKeys, lookup_to_alist]
  induction keys with
  | nil => rfl
  | cons first rest ih =>
    cases found : value first with
    | none =>
      rw [List.filterMap_cons_none (by simp [found]), ih]
      by_cases same : key = first
      · subst same
        simp [found]
      · simp [same]
    | some here =>
      rw [List.filterMap_cons_some (by rw [found]; rfl)]
      by_cases same : key = first
      · subst same
        simp [found]
      · rw [List.dlookup_cons_ne _ _ same, ih]
        simp [same]

theorem lookup_foldl_own {step : Table κ α → κ → Table κ α} {change : κ → Option α → Option α}
    (own : ∀ table key, (step table key).lookup key = change key (table.lookup key))
    (others : ∀ table key other, other ≠ key → (step table key).lookup other = table.lookup other)
    {keys : List κ} (nodup : keys.Nodup) {key : κ}
    (idle : key ∉ keys → ∀ before, change key before = before) (table : Table κ α) :
    (keys.foldl step table).lookup key = change key (table.lookup key) := by
  have away : ∀ (rest : List κ) (table : Table κ α), key ∉ rest →
      (rest.foldl step table).lookup key = table.lookup key := by
    intro rest
    induction rest with
    | nil => exact fun _ _ => rfl
    | cons first rest ih =>
      intro table absent
      obtain ⟨differs, absent⟩ := not_or.mp (mt List.mem_cons.mpr absent)
      rw [List.foldl_cons, ih _ absent, others _ _ _ differs]
  induction keys generalizing table with
  | nil => exact (idle List.not_mem_nil _).symm
  | cons first keys ih =>
    obtain ⟨fresh, nodup⟩ := List.nodup_cons.mp nodup
    rw [List.foldl_cons]
    by_cases same : key = first
    · rw [same] at away ⊢
      rw [away keys _ fresh, own]
    · have still : key ∉ keys → ∀ before, change key before = before := fun absent =>
        idle (List.not_mem_cons_of_ne_of_not_mem same absent)
      rw [ih nodup still, others _ _ _ same]

/-- Whether some row satisfies a test. -/
def any (table : Table κ α) (test : κ → α → Bool) : Bool :=
  table.entries.any fun row => test row.1 row.2

theorem any_iff {table : Table κ α} {test : κ → α → Bool} :
    table.any test = true ↔ ∃ key value, table.lookup key = some value ∧ test key value := by
  rw [any, List.any_eq_true]
  constructor
  · rintro ⟨⟨key, value⟩, member, passes⟩
    exact ⟨key, value, mem_lookup_iff.mpr member, passes⟩
  · rintro ⟨key, value, found, passes⟩
    exact ⟨⟨key, value⟩, mem_lookup_iff.mp found, passes⟩

/-- The keys whose row satisfies a test, as they come. -/
def keysWhere (table : Table κ α) (test : κ → α → Bool) : List κ :=
  (table.entries.filter fun row => test row.1 row.2).map Sigma.fst

theorem mem_keysWhere {table : Table κ α} {test : κ → α → Bool} {key : κ} :
    key ∈ table.keysWhere test ↔ ∃ value, table.lookup key = some value ∧ test key value := by
  rw [keysWhere, List.mem_map]
  constructor
  · rintro ⟨⟨found, value⟩, member, rfl⟩
    obtain ⟨inside, passes⟩ := List.mem_filter.mp member
    exact ⟨value, mem_lookup_iff.mpr inside, passes⟩
  · rintro ⟨value, found, passes⟩
    exact ⟨⟨key, value⟩, List.mem_filter.mpr ⟨mem_lookup_iff.mp found, passes⟩, rfl⟩

end Table

end HopsFormal.Lib
