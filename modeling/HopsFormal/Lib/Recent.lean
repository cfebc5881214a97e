import HopsFormal.Lib.Basic
import HopsFormal.Lib.Table

/-!
# Tables of what is recent

A table anyone can add to is kept below a bound: once it is full the rows that are
no longer recent are dropped, and all of them if it is full still.  What such a table
holds is read off the steps that inserted into it since it was last cleared.
-/

namespace HopsFormal.Lib

open AList

theorem Since.imp {τ : Type} {ends : τ → Prop} {past : List τ} {P Q : τ → Prop}
    (since : Since ends (fun _ step _ => P step) past) (next : ∀ step, P step → Q step) :
    Since ends (fun _ step _ => Q step) past := by
  obtain ⟨before, step, after, split, spared, holds⟩ := since
  exact ⟨before, step, after, split, spared, next step holds⟩

namespace Table

variable {κ α : Type}

/-- The rows that a test keeps. -/
def retain (table : Table κ α) (keep : κ → α → Bool) : Table κ α where
  entries := table.entries.filter fun row => keep row.1 row.2
  nodupKeys := (List.filter_sublist.map Sigma.fst).nodup table.nodupKeys

def size (table : Table κ α) : Nat := table.entries.length

variable [DecidableEq κ]

theorem lookup_retain (table : Table κ α) (keep : κ → α → Bool) (key : κ) :
    (table.retain keep).lookup key = (table.lookup key).filter (keep key) := by
  apply Option.ext
  intro value
  rw [← Option.mem_def, mem_lookup_iff, Option.filter_eq_some_iff, ← Option.mem_def,
    mem_lookup_iff]
  exact List.mem_filter

theorem size_insert_le (table : Table κ α) (key : κ) (value : α) :
    size (table.insert key value) ≤ table.size + 1 := by
  rw [size, entries_insert]
  exact Nat.succ_le_succ (List.kerase_sublist key table.entries).length_le

/-! ## Making room -/

omit [DecidableEq κ] in
/-- A table is full, and full of what is recent. -/
def overflows (table : Table κ α) (recent : α → Bool) (bound : Nat) : Bool :=
  decide (bound ≤ table.size) && decide (bound ≤ size (table.retain fun _ => recent))

omit [DecidableEq κ] in
/-- Drop what is not recent from a full table, and everything if it is full still. -/
@[grind =]
def makeRoom (table : Table κ α) (recent : α → Bool) (bound : Nat) : Table κ α :=
  if bound ≤ table.size then
    let kept := table.retain fun _ => recent
    if bound ≤ kept.size then ∅ else kept
  else table

variable {bound : Nat} {table : Table κ α}

omit [DecidableEq κ] in
theorem size_makeRoom_lt (table : Table κ α) (recent : α → Bool) (positive : 0 < bound) :
    size (table.makeRoom recent bound) < bound := by
  unfold makeRoom
  dsimp only
  split
  · split
    · exact positive
    · omega
  · omega

/-- What is left was there before. -/
theorem lookup_of_makeRoom {recent : α → Bool} {key : κ} {value : α}
    (found : (table.makeRoom recent bound).lookup key = some value) :
    table.lookup key = some value := by
  unfold makeRoom at found
  dsimp only at found
  split at found
  · split at found
    · rw [lookup_empty] at found
      cases found
    · rw [lookup_retain, Option.filter_eq_some_iff] at found
      exact found.1
  · exact found

/-- What is recent stays, unless the table is full of it. -/
theorem lookup_makeRoom {recent : α → Bool} {key : κ} {value : α}
    (room : table.overflows recent bound = false) (isRecent : recent value = true)
    (found : table.lookup key = some value) :
    (table.makeRoom recent bound).lookup key = some value := by
  unfold makeRoom
  split
  · next full =>
    have few : ¬ bound ≤ size (table.retain fun _ => recent) := by
      simpa [overflows, full] using room
    rw [if_neg few, lookup_retain, found, Option.filter_some, if_pos isRecent]
  · exact found

omit [DecidableEq κ] in
theorem makeRoom_overflows {recent : α → Bool} (full : table.overflows recent bound = true) :
    table.makeRoom recent bound = ∅ := by
  unfold overflows at full
  rw [Bool.and_eq_true, decide_eq_true_eq, decide_eq_true_eq] at full
  unfold makeRoom
  rw [if_pos full.1]
  exact if_pos full.2

/-! ## What a table was told -/

section Tracks

variable {τ : Type} (recent : Nat → α → Bool) (newer : α → α → Prop) (clears : τ → Bool)
  (inserts : τ → Option (κ × α))

/--
The table holds what was inserted since it was last cleared: all of it that is recent
at a late moment, or something newer in its place, and nothing else.
-/
structure Tracks (late : Nat → Prop) (past : List τ) (table : Table κ α) : Prop where
  kept : ∀ now, late now → ∀ key value,
    Since (clears · = true) (fun _ step _ => inserts step = some (key, value)) past →
      recent now value = true → ∃ next, newer value next ∧ table.lookup key = some next
  told : ∀ key value, table.lookup key = some value →
    Since (clears · = true) (fun _ step _ => inserts step = some (key, value)) past

variable {recent newer clears inserts} {late later : Nat → Prop} {past : List τ}
  {table : Table κ α} {step : τ} {bound time : Nat}

theorem Tracks.nothing : Tracks recent newer clears inserts late [] (∅ : Table κ α) where
  kept := by
    rintro now - key value ⟨before, step, after, split, -⟩
    cases before <;> cases split
  told key value found := by
    rw [lookup_empty] at found
    cases found

section

variable (tracks : Tracks recent newer clears inserts late past table)
include tracks

/-- A step that does nothing to the table. -/
theorem Tracks.idle (spares : clears step = false) (nothing : inserts step = none)
    (after : ∀ now, later now → late now) :
    Tracks recent newer clears inserts later (past ++ [step]) table where
  kept now isLate key value since isRecent := by
    rcases since.of_snoc with here | ⟨-, earlier⟩
    · rw [nothing] at here
      cases here
    · exact tracks.kept now (after now isLate) key value earlier isRecent
  told key value found :=
    (tracks.told key value found).snoc_same (by rw [spares]; exact Bool.false_ne_true)

/-- What is recent at the time of a step, of what was inserted before it. -/
theorem Tracks.kept_makeRoom
    (mono : ∀ {now value next}, time ≤ now → newer value next → recent now value = true →
      recent time next = true) (cleared : clears step = table.overflows (recent time) bound)
    {now : Nat} (isLate : late now) (after : time ≤ now) {key : κ} {value : α}
    (spared : ¬ clears step = true)
    (earlier : Since (clears · = true) (fun _ step _ => inserts step = some (key, value)) past)
    (isRecent : recent now value = true) : ∃ next, newer value next ∧ recent time next = true ∧
      (table.makeRoom (recent time) bound).lookup key = some next := by
  obtain ⟨next, isNewer, found⟩ := tracks.kept now isLate key value earlier isRecent
  rw [cleared, Bool.not_eq_true] at spared
  have still := mono after isNewer isRecent
  exact ⟨next, isNewer, still, lookup_makeRoom spared still found⟩

theorem Tracks.told_makeRoom (cleared : clears step = table.overflows (recent time) bound) {key : κ}
    {value : α} (found : (table.makeRoom (recent time) bound).lookup key = some value) :
    Since (clears · = true) (fun _ step _ => inserts step = some (key, value))
      (past ++ [step]) := by
  refine (tracks.told key value (lookup_of_makeRoom found)).snoc_same fun clear => ?_
  rw [cleared] at clear
  rw [makeRoom_overflows clear, lookup_empty] at found
  cases found

theorem Tracks.makeRoom
    (mono : ∀ {now value next}, time ≤ now → newer value next → recent now value = true →
      recent time next = true) (cleared : clears step = table.overflows (recent time) bound)
    (nothing : inserts step = none) (after : ∀ now, later now → late now ∧ time ≤ now) :
    Tracks recent newer clears inserts later (past ++ [step])
      (table.makeRoom (recent time) bound) where
  kept now isLate key value since isRecent := by
    obtain ⟨was, ahead⟩ := after now isLate
    rcases since.of_snoc with here | ⟨spared, earlier⟩
    · rw [nothing] at here
      cases here
    · obtain ⟨next, isNewer, -, found⟩ :=
        tracks.kept_makeRoom mono cleared was ahead spared earlier isRecent
      exact ⟨next, isNewer, found⟩
  told _ _ found := tracks.told_makeRoom cleared found

theorem Tracks.insert
    (mono : ∀ {now value next}, time ≤ now → newer value next → recent now value = true →
      recent time next = true) (refl : ∀ value, newer value value)
    (trans : ∀ {first second third}, newer first second → newer second third → newer first third)
    (cleared : clears step = table.overflows (recent time) bound) {key : κ} {value : α}
    (told : inserts step = some (key, value))
    (overtakes : ∀ before, (table.makeRoom (recent time) bound).lookup key = some before →
      recent time before = true → newer before value)
    (after : ∀ now, later now → late now ∧ time ≤ now) :
    Tracks recent newer clears inserts later (past ++ [step])
      (AList.insert key value (table.makeRoom (recent time) bound)) where
  kept now isLate other inserted since isRecent := by
    obtain ⟨was, ahead⟩ := after now isLate
    rcases since.of_snoc with here | ⟨spared, earlier⟩
    · rw [told] at here
      obtain ⟨rfl, rfl⟩ := Prod.mk.inj (Option.some.inj here)
      exact ⟨value, refl value, lookup_insert _⟩
    · obtain ⟨next, isNewer, still, found⟩ :=
        tracks.kept_makeRoom mono cleared was ahead spared earlier isRecent
      by_cases same : other = key
      · subst same
        exact ⟨value, trans isNewer (overtakes next found still), lookup_insert _⟩
      · exact ⟨next, isNewer, (lookup_insert_ne same).trans found⟩
  told other inserted found := by
    rcases lookup_of_insert found with ⟨rfl, rfl⟩ | before
    · exact .last told
    · exact tracks.told_makeRoom cleared before

end

end Tracks

end Table

end HopsFormal.Lib
