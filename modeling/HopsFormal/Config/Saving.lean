import HopsFormal.Config.ThreeWay
import HopsFormal.Lib.Places

/-!
# What a save leaves in the file

Every entry of the file stands for at most one device of the list last synced.
An entry is changed for the one the daemon changed, taken out for the one it
removed, and left as it is otherwise; what the daemon created comes after them.
A hook is written only where an entry that is taken out held it.
-/

namespace HopsFormal.Config

open Edges (ConfigClient)
open List Lib

section Lists

variable {Ip : Type} [DecidableEq Ip] {base ours theirs : List (ConfigClient Ip)}

/-! ## Which entries are changed, and which taken out -/

/-- An entry of the file is the match of a device the daemon removed. -/
def Removed (base ours theirs : List (ConfigClient Ip)) (place : Nat) : Prop :=
  ∃ index : Nat, (pair base theirs .file)[index]? = some (some place) ∧
    (pair base ours .memory)[index]? = some none

/-- An entry of the file is the match of a device the daemon changed. -/
def Changed (base ours theirs : List (ConfigClient Ip)) (place index our : Nat) : Prop :=
  (pair base theirs .file)[index]? = some (some place) ∧
    (pair base ours .memory)[index]? = some (some our) ∧ base[index]? ≠ ours[our]?

theorem mem_removedOf {place : Nat} :
    place ∈ removedOf base ours theirs ↔ Removed base ours theirs place := by
  rw [removedOf, mem_filterMap]
  constructor
  · rintro ⟨index, -, named⟩
    split at named
    · next kept onDisk =>
      cases named
      exact ⟨index, onDisk, kept⟩
    · cases named
  · rintro ⟨index, onDisk, kept⟩
    refine ⟨index, ?_, ?_⟩
    · rw [mem_range, ← (matching_pair base ours .memory).length]
      exact (List.getElem?_eq_some_iff.mp kept).1
    · rw [kept, onDisk]

theorem mem_editsOf {edit : Edit} :
    edit ∈ editsOf base ours theirs ↔ Changed base ours theirs edit.theirs edit.base edit.ours := by
  rw [editsOf, mem_filterMap]
  constructor
  · rintro ⟨index, -, named⟩
    split at named
    · next kept onDisk =>
      split at named
      · next differs =>
        cases named
        exact ⟨onDisk, kept, differs⟩
      · cases named
    · cases named
  · rintro ⟨onDisk, kept, differs⟩
    refine ⟨edit.base, ?_, ?_⟩
    · rw [mem_range, ← (matching_pair base ours .memory).length]
      exact (List.getElem?_eq_some_iff.mp kept).1
    · simp only [kept, onDisk, if_pos differs]

theorem nodup_removedOf : (removedOf base ours theirs).Nodup := by
  apply nodup_range.filterMap
  intro first second place found again
  rw [Option.mem_def] at found again
  split at found
  · next onDisk =>
    cases found
    split at again
    · next there =>
      cases again
      exact (matching_pair base theirs .file).once onDisk there
    · cases again
  · cases found

theorem nodup_editsOf : ((editsOf base ours theirs).map (·.theirs)).Nodup := by
  rw [editsOf, map_filterMap]
  apply nodup_range.filterMap
  intro first second place found again
  rw [Option.mem_def, Option.map_eq_some_iff] at found again
  obtain ⟨edit, found, rfl⟩ := found
  obtain ⟨other, again, same⟩ := again
  split at found
  · next onDisk =>
    split at found
    · cases found
      split at again
      · next there =>
        split at again
        · cases again
          subst same
          exact (matching_pair base theirs .file).once onDisk there
        · cases again
      · cases again
    · cases found
  · cases found

/-! ## The entries that stay -/

def editEntry (base ours : List (ConfigClient Ip)) (fresh : List Entry) (edit : Edit)
    (entry : Entry) : Entry :=
  match base[edit.base]?, ours[edit.ours]?, fresh[edit.ours]? with
  | some before, some after, some new => changeFields before after new entry
  | _, _, _ => entry

theorem applyEdit_eq (fresh file : List Entry) (edit : Edit) :
    applyEdit base ours fresh file edit =
      file.modify edit.theirs (editEntry base ours fresh edit) := by
  unfold applyEdit
  have given : editEntry base ours fresh edit = fun entry =>
      editEntry base ours fresh edit entry := rfl
  split
  · next before after new isBase isOurs isFresh =>
    rw [given]
    simp only [editEntry, isBase, isOurs, isFresh]
  · next missing =>
    have same : editEntry base ours fresh edit = id := by
      funext entry
      unfold editEntry
      split
      · next before after new isBase isOurs isFresh =>
        exact absurd isFresh (missing before after new isBase isOurs)
      · rfl
    rw [same, modify_id]

theorem getElem?_edited (fresh : List Entry) (edits : List Edit)
    (distinct : (edits.map (·.theirs)).Nodup) (file : List Entry) (place : Nat) :
    (edits.foldl (applyEdit base ours fresh) file)[place]? =
      match edits.find? (·.theirs = place) with
      | some edit => (file[place]?).map (editEntry base ours fresh edit)
      | none => file[place]? := by
  induction edits generalizing file with
  | nil => rfl
  | cons edit rest ih =>
    rw [map_cons, nodup_cons] at distinct
    rw [foldl_cons, ih distinct.2, applyEdit_eq, find?_cons]
    by_cases here : edit.theirs = place
    · subst here
      have none_left : rest.find? (fun other => other.theirs = edit.theirs) = none := by
        rw [find?_eq_none]
        intro other member same
        exact distinct.1 (mem_map.mpr ⟨other, member, of_decide_eq_true same⟩)
      rw [none_left]
      simp
    · simp [here]

theorem length_edited (fresh : List Entry) (edits : List Edit) (file : List Entry) :
    (edits.foldl (applyEdit base ours fresh) file).length = file.length := by
  induction edits generalizing file with
  | nil => rfl
  | cons edit rest ih => rw [foldl_cons, ih, applyEdit_eq, length_modify]

end Lists

/-! ## The entries that are added -/

section Created

variable {Ip Settings : Type} [DecidableEq Ip] {index : Nat}

theorem swapRemove_perm {α : Type} {list : List α} {value : α} (found : list[index]? = some value) :
    (value :: swapRemove list index).Perm list := by
  obtain ⟨inside, here⟩ := List.getElem?_eq_some_iff.mp found
  obtain ⟨front, last, rfl⟩ : ∃ front last, list = front ++ [last] :=
    ⟨_, _, (dropLast_append_getLast (ne_nil_of_length_pos (by omega))).symm⟩
  rw [swapRemove, getLast?_append_of_ne_nil _ (by simp)]
  simp only [getLast?_singleton]
  by_cases early : index < front.length
  · rw [set_append_left _ _ early, dropLast_concat]
    rw [getElem_append_left early] at here
    subst here
    refine ((set_perm_cons_eraseIdx early last).cons _).trans ?_
    refine (Perm.swap ..).trans ?_
    refine ((getElem_cons_eraseIdx_perm early).cons last).trans ?_
    exact (perm_append_singleton last front).symm
  · have atEnd : index = front.length := by
      rw [length_append, length_singleton] at inside
      omega
    subst atEnd
    rw [set_append_right _ _ (Nat.le_refl _)]
    simp only [Nat.sub_self, set_cons_zero, dropLast_concat]
    simp only [getElem_concat_length] at here
    subst here
    exact (perm_append_singleton _ front).symm

def forgetHook (client : ConfigClient Ip) : ConfigClient Ip :=
  { client with enterHook := none }

theorem getElem?_append_of_some {α : Type} {list : List α} {value : α} (others : List α)
    (found : list[index]? = some value) : (list ++ others)[index]? = some value := by
  rw [getElem?_append_left (List.getElem?_eq_some_iff.mp found).1, found]

theorem forall₂_at {α β : Type} {relation : α → β → Prop} {list : List α} {others : List β}
    (related : Forall₂ relation list others) {value : α} (found : list[index]? = some value) :
    ∃ other, others[index]? = some other ∧ relation value other := by
  obtain ⟨inside, rfl⟩ := List.getElem?_eq_some_iff.mp found
  have there : index < others.length := related.length_eq ▸ inside
  exact ⟨others[index], getElem?_eq_getElem there, related.get inside there⟩

/-- A row of the file is read as a device. -/
@[grind =]
def Reads (toml : Toml Ip Settings) (row : Row) (client : ConfigClient Ip) : Prop :=
  (toml.readRow row).map ofToml = some client

theorem readClients_eq_some_iff {toml : Toml Ip Settings} {clients : Clients}
    {read : List (ConfigClient Ip)} :
    toml.readClients clients = some read ↔ Forall₂ (Reads toml) clients.rows read := by
  unfold Toml.readClients
  generalize clients.rows = rows
  induction rows generalizing read with
  | nil =>
    constructor
    · rintro ⟨⟩
      exact .nil
    · rintro ⟨⟩
      rfl
  | cons row rest ih =>
    rw [mapM_cons]
    cases here : toml.readRow row with
    | none =>
      constructor
      · intro impossible
        cases impossible
      · intro all
        obtain ⟨client, tail, isFirst, -, -⟩ := forall₂_cons_left_iff.mp all
        rw [Reads, here] at isFirst
        cases isFirst
    | some first =>
      cases there : rest.mapM toml.readRow with
      | none =>
        simp only [there, Option.map_none] at ih
        constructor
        · intro impossible
          cases impossible
        · intro all
          obtain ⟨client, tail, -, others, -⟩ := forall₂_cons_left_iff.mp all
          cases ih.mpr others
      | some others =>
        simp only [there, Option.map_some, Option.some.injEq] at ih
        constructor
        · rintro ⟨⟩
          exact .cons (by rw [Reads, here]; rfl) (ih.mp rfl)
        · intro all
          obtain ⟨client, tail, isFirst, reads, rfl⟩ := forall₂_cons_left_iff.mp all
          rw [Reads, here] at isFirst
          cases isFirst
          rw [← ih.mpr reads]
          rfl

variable {toml : Toml Ip Settings}

theorem reads_render (mine : TomlClient Ip) :
    Reads toml (.table (renderClient toml.ipText mine)) (ofToml mine) := by
  rw [Reads, Toml.readRow, readClient_render]
  rfl

/-- A device written without its hook. -/
theorem reads_render_erase (mine : TomlClient Ip) :
    Reads toml (.table { renderClient toml.ipText mine with
      lines := (renderClient toml.ipText mine).lines.erase "enter_hook" })
      (forgetHook (ofToml mine)) := by
  have others : ∀ key, key ≠ "enter_hook" → ({ renderClient toml.ipText mine with
      lines := (renderClient toml.ipText mine).lines.erase "enter_hook" } : Entry).content key =
        (renderClient toml.ipText mine).content key := by
    intro key apart
    rw [Entry.content, AList.lookup_erase_ne apart, Entry.content]
  obtain ⟨hostname, hostName, ips, port, position, active, -, fingerprint, label, geometry⟩ :=
    readClient_eq_some_iff.mp (@readClient_render _ toml.ipText mine)
  have reads : readClient toml.ipText { renderClient toml.ipText mine with
      lines := (renderClient toml.ipText mine).lines.erase "enter_hook" } =
        some { mine with enterHook := none } := by
    rw [readClient_eq_some_iff]
    refine ⟨?_, ?_, ?_, ?_, ?_, ?_, ?_, ?_, ?_, ?_⟩
    · rw [field_congr _ (others _ (by decide)), hostname]
    · rw [field_congr _ (others _ (by decide)), hostName]
    · rw [field_congr _ (others _ (by decide)), ips]
    · rw [field_congr _ (others _ (by decide)), port]
    · rw [field_congr _ (others _ (by decide)), position]
    · rw [field_congr _ (others _ (by decide)), active]
    · rw [field, AList.lookup_erase]
    · rw [field_congr _ (others _ (by decide)), fingerprint]
    · rw [field_congr _ (others _ (by decide)), label]
    · rw [field_congr _ (others _ (by decide)), geometry]
  rw [Reads, Toml.readRow, reads]
  rfl

theorem addCreated_spec (mines : List (TomlClient Ip)) (created : List Nat) (file : List Entry)
    (hooks : List String) :
    ∃ added clients, addCreated (mines.map ofToml) (mines.map (renderClient toml.ipText)) file
        hooks created = file ++ added ∧
      Forall₂ (Reads toml) (added.map .table) clients ∧
      clients.map forgetHook =
        created.filterMap (fun our => ((mines.map ofToml)[our]?).map forgetHook) ∧
      (clients.filterMap (·.enterHook)).Subperm hooks ∧
      ((created.filterMap fun our => ((mines.map ofToml)[our]?).bind (·.enterHook)).Subperm
        hooks → clients = created.filterMap fun our => (mines.map ofToml)[our]?) ∧
      ∀ client ∈ clients, ∃ our ∈ created, ∃ mine, (mines.map ofToml)[our]? = some mine ∧
        (client = mine ∨ client = forgetHook mine) := by
  induction created generalizing file hooks with
  | nil => exact ⟨[], [], by simp [addCreated], .nil, rfl, nil_subperm, fun _ => rfl, nofun⟩
  | cons our rest ih =>
    cases given : mines[our]? with
    | none =>
      obtain ⟨added, clients, same, reads, made, held, whole, each⟩ := ih file hooks
      have missing : (mines.map ofToml)[our]? = none := by
        rw [getElem?_map, given]
        rfl
      refine ⟨added, clients, ?_, reads, ?_, held, fun given_ => ?_, fun client member => ?_⟩
      · simp [addCreated, given, same]
      · simp [given, made]
      · rw [filterMap_cons_none (by rw [missing]; rfl)] at given_
        rw [filterMap_cons_none missing]
        exact whole given_
      · obtain ⟨other, isCreated, rest⟩ := each client member
        exact ⟨other, mem_cons_of_mem _ isCreated, rest⟩
    | some mine =>
      have isOurs : (mines.map ofToml)[our]? = some (ofToml mine) := by
        rw [getElem?_map, given]
        rfl
      have isFresh : (mines.map (renderClient toml.ipText))[our]? =
          some (renderClient toml.ipText mine) := by
        rw [getElem?_map, given]
        rfl
      simp only [addCreated, isOurs, isFresh]
      cases search : (ofToml mine).enterHook.bind fun hook => hooks.idxOf? hook with
      | some index =>
        obtain ⟨hook, isHook, found⟩ := Option.bind_eq_some_iff.mp search
        obtain ⟨inside, here, -⟩ := idxOf?_eq_some_iff.mp found
        obtain ⟨added, clients, same, reads, made, held, whole, each⟩ :=
          ih (file ++ [renderClient toml.ipText mine]) (swapRemove hooks index)
        have left := swapRemove_perm (List.getElem?_eq_some_iff.mpr ⟨inside, here⟩)
        refine ⟨renderClient toml.ipText mine :: added, ofToml mine :: clients, ?_,
          .cons (reads_render mine) reads, ?_, ?_, fun given_ => ?_, fun client member => ?_⟩
        · dsimp only
          rw [same, append_assoc]
          rfl
        · simp [given, made]
        · rw [filterMap_cons_some isHook]
          exact ((subperm_cons hook).mpr held).trans left.subperm
        · rw [filterMap_cons_some (b := hook) (by rw [isOurs]; exact isHook)] at given_
          rw [filterMap_cons_some isOurs,
            whole ((subperm_cons hook).mp (given_.trans left.symm.subperm))]
        · rcases mem_cons.mp member with new | old
          · exact ⟨our, mem_cons_self, ofToml mine, isOurs, .inl new⟩
          · obtain ⟨other, isCreated, rest⟩ := each client old
            exact ⟨other, mem_cons_of_mem _ isCreated, rest⟩
      | none =>
        obtain ⟨added, clients, same, reads, made, held, whole, each⟩ :=
          ih (file ++ [{ renderClient toml.ipText mine with
            lines := (renderClient toml.ipText mine).lines.erase "enter_hook" }]) hooks
        refine ⟨_ :: added, forgetHook (ofToml mine) :: clients, ?_,
          .cons (reads_render_erase mine) reads, ?_, ?_, fun given_ => ?_,
          fun client member => ?_⟩
        · dsimp only
          rw [same, append_assoc]
          rfl
        · simp [given, made, forgetHook]
        · rw [filterMap_cons_none rfl]
          exact held
        · cases isHook : (ofToml mine).enterHook with
          | some hook =>
            rw [filterMap_cons_some (b := hook) (by rw [isOurs]; exact isHook)] at given_
            rw [isHook, Option.bind_some, idxOf?_eq_none_iff] at search
            exact absurd (given_.subset mem_cons_self) search
          | none =>
            rw [filterMap_cons_none (by rw [isOurs]; exact isHook)] at given_
            have unhooked : forgetHook (ofToml mine) = ofToml mine := by
              rw [forgetHook, ← isHook]
            rw [filterMap_cons_some isOurs, whole given_, unhooked]
        · rcases mem_cons.mp member with new | old
          · exact ⟨our, mem_cons_self, ofToml mine, isOurs, .inr new⟩
          · obtain ⟨other, isCreated, rest⟩ := each client old
            exact ⟨other, mem_cons_of_mem _ isCreated, rest⟩

end Created

/-! ## What is read of the entries that stay -/

section Staying

variable {Ip Settings : Type} [DecidableEq Ip] {toml : Toml Ip Settings}
  {base theirs : List (ConfigClient Ip)} {mines : List (TomlClient Ip)}

/-- What stands at a place of the file after the edits. -/
def mergedAt (base ours theirs : List (ConfigClient Ip)) (place : Nat) :
    Option (ConfigClient Ip) :=
  match (editsOf base ours theirs).find? (·.theirs = place) with
  | some edit => do
      let before ← base[edit.base]?
      let after ← ours[edit.ours]?
      let their ← theirs[place]?
      return threeWay before after their
  | none => theirs[place]?

variable {ours : List (ConfigClient Ip)} {place index our : Nat}

/-- A changed place has one device it was changed for. -/
theorem find?_editsOf (changed : Changed base ours theirs place index our) :
    (editsOf base ours theirs).find? (·.theirs = place) = some ⟨place, our, index⟩ := by
  have member : (⟨place, our, index⟩ : Edit) ∈ editsOf base ours theirs := mem_editsOf.mpr changed
  cases found : (editsOf base ours theirs).find? (·.theirs = place) with
  | none =>
    rw [find?_eq_none] at found
    exact absurd (decide_eq_true rfl) (found _ member)
  | some edit =>
    have there := mem_editsOf.mp (mem_of_find?_eq_some found)
    have isThat := find?_some found
    rw [decide_eq_true_eq] at isThat
    obtain ⟨place', our', index'⟩ := edit
    subst isThat
    have sameIndex := (matching_pair base theirs .file).once there.1 changed.1
    subst sameIndex
    have sameOur := there.2.1.symm.trans changed.2.1
    cases sameOur
    rfl

theorem find?_editsOf_none (unchanged : ∀ index our, ¬ Changed base ours theirs place index our) :
    (editsOf base ours theirs).find? (·.theirs = place) = none := by
  rw [find?_eq_none]
  intro edit member isThat
  have changed := mem_editsOf.mp member
  rw [of_decide_eq_true isThat] at changed
  exact unchanged _ _ changed

theorem Changed.there (changed : Changed base ours theirs place index our) :
    index < base.length ∧ our < ours.length ∧ place < theirs.length := by
  obtain ⟨onDisk, kept, -⟩ := changed
  refine ⟨?_, ?_, ?_⟩
  · rw [← (matching_pair base theirs .file).length]
    exact (List.getElem?_eq_some_iff.mp onDisk).1
  · exact (matching_pair base ours .memory).below our (mem_of_getElem? kept)
  · exact (matching_pair base theirs .file).below place (mem_of_getElem? onDisk)

theorem reads_edited {file : List Entry}
    (reads : Forall₂ (Reads toml) (file.map .table) theirs) {entry : Entry}
    (found : ((editsOf base (mines.map ofToml) theirs).foldl (applyEdit base (mines.map ofToml)
      (mines.map (renderClient toml.ipText))) file)[place]? = some entry) :
    ∃ client, mergedAt base (mines.map ofToml) theirs place = some client ∧
      Reads toml (.table entry) client := by
  rw [getElem?_edited _ _ nodup_editsOf] at found
  have read : ∀ old, file[place]? = some old →
      ∃ their, theirs[place]? = some their ∧ Reads toml (.table old) their := by
    intro old isOld
    exact forall₂_at reads (by rw [getElem?_map, isOld]; rfl)
  unfold mergedAt
  split at found
  · next edit isEdit =>
    obtain ⟨old, isOld, rfl⟩ := Option.map_eq_some_iff.mp found
    obtain ⟨their, isTheir, oldReads⟩ := read old isOld
    have changed := mem_editsOf.mp (mem_of_find?_eq_some isEdit)
    obtain ⟨inBase, inOurs, -⟩ := changed.there
    rw [length_map] at inOurs
    have isBase := getElem?_eq_getElem inBase
    have isMine := getElem?_eq_getElem inOurs
    obtain ⟨toml', isToml, rfl⟩ := Option.map_eq_some_iff.mp oldReads
    obtain ⟨merged, mergedReads, isMerged⟩ := @readClient_changeFields _ _ base[edit.base]
      mines[edit.ours] _ toml.ipText old isToml
    rw [editEntry]
    simp only [isBase, getElem?_map, isMine, Option.map_some, isTheir]
    refine ⟨_, rfl, ?_⟩
    rw [Reads, Toml.readRow, mergedReads, Option.map_some, isMerged]
  · exact read entry found

theorem mergedAt_of_changed {before after their : ConfigClient Ip}
    (changed : Changed base ours theirs place index our) (isBase : base[index]? = some before)
    (isOurs : ours[our]? = some after) (isTheirs : theirs[place]? = some their) :
    mergedAt base ours theirs place = some (threeWay before after their) := by
  rw [mergedAt, find?_editsOf changed]
  simp [isBase, isOurs, isTheirs]

theorem mergedAt_of_unchanged {ours : List (ConfigClient Ip)} {place : Nat}
    (unchanged : ∀ index our, ¬ Changed base ours theirs place index our) :
    mergedAt base ours theirs place = theirs[place]? := by
  rw [mergedAt, find?_editsOf_none unchanged]

/-- What stands at a place is a device of the file, changed or not, with the file's hook. -/
theorem mergedAt_cases (ours : List (ConfigClient Ip)) {their : ConfigClient Ip}
    (isTheirs : theirs[place]? = some their) :
    ∃ client, mergedAt base ours theirs place = some client ∧
      client.enterHook = their.enterHook := by
  by_cases some_ : ∃ index our, Changed base ours theirs place index our
  · obtain ⟨index, our, changed⟩ := some_
    obtain ⟨inBase, inOurs, -⟩ := changed.there
    exact ⟨_, mergedAt_of_changed changed (getElem?_eq_getElem inBase)
      (getElem?_eq_getElem inOurs) isTheirs, rfl⟩
  · have unchanged : ∀ index our, ¬ Changed base ours theirs place index our :=
      fun index our changed => some_ ⟨index, our, changed⟩
    exact ⟨their, (mergedAt_of_unchanged unchanged).trans isTheirs, rfl⟩

end Staying

/-! ## The list that is saved -/

section Saved

variable {Ip Settings : Type} [DecidableEq Ip] {toml : Toml Ip Settings}
  {base theirs : List (ConfigClient Ip)} {mines : List (TomlClient Ip)}

/-- A row is left as it is; only what is written above it may be new. -/
def Row.SameLines : Row → Row → Prop
  | .table entry, .table other => entry.lines = other.lines
  | .fields values, .fields others => values = others
  | _, _ => False

theorem Row.SameLines.refl (row : Row) : row.SameLines row := by
  cases row with
  | table entry | fields values => exact rfl

/-- A row of which only the lines of some keys may be new. -/
def Row.SameBut (keys : List String) : Row → Row → Prop
  | .table entry, .table other =>
    ∀ key, key ∉ keys → entry.lines.lookup key = other.lines.lookup key
  | _, _ => False

/-- The places of the file whose entries stay. -/
def survivors (base ours theirs : List (ConfigClient Ip)) : List Nat :=
  (List.range theirs.length).filter fun place => place ∉ removedOf base ours theirs

variable {ours : List (ConfigClient Ip)} {place : Nat} {entries file : List Entry}

theorem mem_survivors : place ∈ survivors base ours theirs ↔
      place < theirs.length ∧ ¬ Removed base ours theirs place := by
  rw [survivors, mem_filter, mem_range, decide_eq_true_eq, mem_removedOf]

theorem pairwise_survivors (base ours theirs : List (ConfigClient Ip)) :
    (survivors base ours theirs).Pairwise (· < ·) :=
  pairwise_lt_range.filter _

theorem rows_of_tables {rows : List Row} (all : rows.mapM Row.table? = some entries) :
    rows = entries.map .table := by
  induction rows generalizing entries with
  | nil =>
    cases all
    rfl
  | cons row rest ih =>
    rw [mapM_cons] at all
    simp only [Option.bind_eq_bind, Option.bind_eq_some_iff] at all
    obtain ⟨entry, isEntry, others, isOthers, same⟩ := all
    cases same
    cases row with
    | table table =>
      cases isEntry
      rw [ih isOthers]
      rfl
    | fields values => cases isEntry

theorem rows_clientsOf {clients : Clients} {above : Option String}
    (given : clientsOf clients = .ok (file, above)) : clients.rows = file.map .table := by
  cases clients with
  | missing | tables entries =>
    cases given
    rfl
  | inline comment rows =>
    simp only [clientsOf] at given
    split at given
    · next entries all =>
      cases given
      exact rows_of_tables all
    · cases given

theorem forall₂_places {α β γ : Type} {relation : α → γ → Prop} {value : β → Option γ}
    {list : List (α × β)}
    (each : ∀ row ∈ list, ∃ found, value row.2 = some found ∧ relation row.1 found) :
    Forall₂ (fun row found => value row.2 = some found ∧ relation row.1 found) list
      ((list.map (·.2)).filterMap value) := by
  induction list with
  | nil => exact .nil
  | cons row rest ih =>
    obtain ⟨found, isFound, related⟩ := each row mem_cons_self
    rw [map_cons, filterMap_cons_some isFound]
    exact .cons ⟨isFound, related⟩
      (ih fun other member => each other (mem_cons_of_mem row member))

theorem forall₂_putAbove {above : Option String} {clients : List (ConfigClient Ip)}
    (reads : Forall₂ (Reads toml) (entries.map .table) clients) :
    Forall₂ (Reads toml) ((putAbove above entries).map .table) clients := by
  unfold putAbove
  split
  · obtain ⟨client, rest, first, others, rfl⟩ := forall₂_cons_left_iff.mp reads
    exact .cons first others
  · exact reads

theorem putAbove_at (above : Option String) {index : Nat} {entry : Entry}
    (found : entries[index]? = some entry) :
    ∃ new, (putAbove above entries)[index]? = some new ∧ new.lines = entry.lines := by
  unfold putAbove
  split
  · cases index with
    | zero =>
      cases found
      exact ⟨_, rfl, rfl⟩
    | succ index => exact ⟨entry, found, rfl⟩
  · exact ⟨entry, found, rfl⟩

theorem places_perm (ours : List (ConfigClient Ip)) :
    (survivors base ours theirs ++ removedOf base ours theirs).Perm (List.range theirs.length) := by
  have inside : ∀ place ∈ removedOf base ours theirs, place < theirs.length := by
    intro place member
    obtain ⟨index, onDisk, -⟩ := mem_removedOf.mp member
    exact (matching_pair base theirs .file).below place (mem_of_getElem? onDisk)
  have same : (removedOf base ours theirs).Perm ((List.range theirs.length).filter fun place =>
      ! decide (place ∉ removedOf base ours theirs)) := by
    rw [perm_ext_iff_of_nodup nodup_removedOf (nodup_range.filter _)]
    intro place
    rw [mem_filter, mem_range]
    constructor
    · intro member
      exact ⟨inside place member, by simpa using member⟩
    · intro both
      simpa using both.2
  exact (same.append_left _).trans (filter_append_perm _ _)

theorem filterMap_range {α β : Type} (list : List α) (value : α → Option β) :
    (List.range list.length).filterMap (fun place => (list[place]?).bind value) =
      list.filterMap value := by
  induction list with
  | nil => rfl
  | cons first rest ih =>
    rw [length_cons, range_succ_eq_map, filterMap_cons, filterMap_map]
    have later : ((fun place => ((first :: rest)[place]?).bind value) ∘ Nat.succ) =
        fun place => (rest[place]?).bind value := by
      funext place
      simp
    rw [later, ih, filterMap_cons]
    rfl

theorem map_range {α β : Type} (list : List α) (f : α → β) :
    (List.range list.length).filterMap (fun place => (list[place]?).map f) = list.map f := by
  have asBind : (fun place : Nat => (list[place]?).map f) = fun place : Nat =>
      (list[place]?).bind fun value => some (f value) := by
    funext place
    exact Option.map_eq_bind
  rw [asBind, filterMap_range, filterMap_eq_map']

theorem hooks_perm (ours : List (ConfigClient Ip)) :
    (((survivors base ours theirs).filterMap (mergedAt base ours theirs)).filterMap (·.enterHook) ++
      (removedOf base ours theirs).filterMap fun place =>
        (theirs[place]?).bind (·.enterHook)).Perm (theirs.filterMap (·.enterHook)) := by
  have stays : ((survivors base ours theirs).filterMap (mergedAt base ours theirs)).filterMap
      (·.enterHook) = (survivors base ours theirs).filterMap fun place =>
        (theirs[place]?).bind (·.enterHook) := by
    rw [filterMap_filterMap]
    apply filterMap_congr
    intro place member
    have isTheirs := getElem?_eq_getElem (mem_survivors.mp member).1
    obtain ⟨client, isClient, hook⟩ := mergedAt_cases ours isTheirs
    rw [isClient, isTheirs, Option.bind_some, Option.bind_some, hook]
  rw [stays, ← filterMap_append, ← filterMap_range theirs]
  exact (places_perm ours).filterMap _

/-- The devices of the daemon: those matched with one last synced, and those created. -/
theorem ours_perm (ours : List (ConfigClient Ip)) :
    ((pair base ours .memory).filterMap id ++ createdOf base ours).Perm
      (List.range ours.length) := by
  have matching := matching_pair base ours .memory
  have distinct : ((pair base ours .memory).filterMap id).Nodup := by
    rw [← filterMap_range]
    apply nodup_range.filterMap
    intro first second our found again
    rw [Option.mem_def, Option.bind_eq_some_iff] at found again
    obtain ⟨_, found, rfl⟩ := found
    obtain ⟨_, again, rfl⟩ := again
    exact matching.once found again
  have same : ((pair base ours .memory).filterMap id).Perm
      ((List.range ours.length).filter fun our =>
        ! decide (some our ∉ pair base ours .memory)) := by
    rw [perm_ext_iff_of_nodup distinct (nodup_range.filter _)]
    intro our
    rw [mem_filter, mem_range, mem_filterMap]
    constructor
    · rintro ⟨_, member, rfl⟩
      exact ⟨matching.below our member, by simpa using member⟩
    · intro both
      exact ⟨some our, by simpa using both.2, rfl⟩
  exact (perm_append_comm).trans ((same.append_left _).trans (filter_append_perm _ _))

theorem pair_self_at (inside : place < base.length) :
    (pair base base .file)[place]? = some (some place) := by
  rw [pair_self, getElem?_map, getElem?_range inside]
  rfl

theorem synced_at (ours : List (ConfigClient Ip)) (inside : place < base.length) :
    ((pair base ours .memory)[place]?).bind (fun found =>
        (id found).bind fun our => (ours[our]?).map forgetHook) =
      if decide (place ∉ removedOf base ours base) then
        (mergedAt base ours base place).map forgetHook
      else none := by
  have onDisk := pair_self_at inside
  have isBase := getElem?_eq_getElem inside
  obtain ⟨kept, isKept⟩ : ∃ kept, (pair base ours .memory)[place]? = some kept :=
    ⟨_, getElem?_eq_getElem (by rwa [(matching_pair base ours .memory).length])⟩
  have alone : ∀ {index}, (pair base base .file)[index]? = some (some place) → index = place :=
    fun there => (matching_pair base base .file).once there onDisk
  rw [isKept]
  cases kept with
  | none =>
    have removed : place ∈ removedOf base ours base :=
      mem_removedOf.mpr ⟨place, onDisk, isKept⟩
    simp [removed]
  | some our =>
    have stays : place ∉ removedOf base ours base := by
      intro removed
      obtain ⟨index, there, gone⟩ := mem_removedOf.mp removed
      rw [alone there, isKept] at gone
      cases gone
    simp only [stays, not_false_eq_true, decide_true, if_true, id, Option.bind_some]
    have isOurs := getElem?_eq_getElem
      ((matching_pair base ours .memory).below our (mem_of_getElem? isKept))
    by_cases same : base[place]? = ours[our]?
    · rw [mergedAt_of_unchanged, same]
      rintro index other ⟨there, isOther, differs⟩
      rw [alone there] at isOther differs
      cases isKept.symm.trans isOther
      exact differs same
    · rw [mergedAt_of_changed ⟨onDisk, isKept, same⟩ isBase isOurs isBase, threeWay_self, isOurs]
      rfl

theorem synced_perm (ours : List (ConfigClient Ip)) :
    ((((survivors base ours base).filterMap (mergedAt base ours base)).map forgetHook) ++
      (createdOf base ours).filterMap fun our => (ours[our]?).map forgetHook).Perm
        (ours.map forgetHook) := by
  have stays : ((survivors base ours base).filterMap (mergedAt base ours base)).map forgetHook =
      ((pair base ours .memory).filterMap id).filterMap fun our =>
        (ours[our]?).map forgetHook := by
    rw [filterMap_filterMap, ← filterMap_range (pair base ours .memory),
      (matching_pair base ours .memory).length, map_filterMap, survivors,
      filterMap_filter]
    apply filterMap_congr
    intro place member
    exact (synced_at ours (mem_range.mp member)).symm
  rw [stays, ← filterMap_append, ← map_range ours forgetHook]
  exact (ours_perm ours).filterMap _

/--
What a save makes of the file's devices: those not taken out stay in their order,
each left as it is unless the daemon changed its device, and then with the fields
the daemon changed and the file's others; no hook is new; and where the file is as
last synced, the devices are the daemon's.
-/
structure ThreeWayMerge (toml : Toml Ip Settings) (base ours theirs : List (ConfigClient Ip))
    (before after : Clients) (result : List (ConfigClient Ip)) : Prop where
  reads : toml.readClients after = some result
  stays : ∃ places : List Nat,
    (∀ place, place ∈ places ↔ place < theirs.length ∧ ¬ Removed base ours theirs place) ∧
      places.Pairwise (· < ·) ∧
      ∀ (index place : Nat), places[index]? = some place →
        ∃ old new their client, before.rows[place]? = some old ∧ after.rows[index]? = some new ∧
          theirs[place]? = some their ∧ result[index]? = some client ∧
          client.enterHook = their.enterHook ∧
          ((∀ base_ our, ¬ Changed base ours theirs place base_ our) →
            new.SameLines old ∧ client = their) ∧
          ∀ (base_ our : Nat) first second, Changed base ours theirs place base_ our →
            base[base_]? = some first → ours[our]? = some second →
              client = threeWay first second their ∧ new.SameBut (changedKeys first second) old
  hooks : (result.filterMap (·.enterHook)).Subperm (theirs.filterMap (·.enterHook))
  synced : theirs = base → (result.map forgetHook).Perm (ours.map forgetHook)

theorem staying_nothing (noEdits : editsOf base ours theirs = [])
    (noneRemoved : removedOf base ours theirs = []) :
    (survivors base ours theirs).filterMap (mergedAt base ours theirs) = theirs := by
  have same : mergedAt base ours theirs = fun place => (theirs[place]?).bind some := by
    funext place
    rw [mergedAt, noEdits]
    simp
  have all : survivors base ours theirs = List.range theirs.length := by
    rw [survivors, noneRemoved]
    simp
  rw [same, all, filterMap_range, filterMap_some]

theorem threeWayMerge_nothing {clients : Clients} (reads : toml.readClients clients = some theirs)
    (noEdits : editsOf base ours theirs = []) (noneRemoved : removedOf base ours theirs = [])
    (noneCreated : createdOf base ours = []) :
    ThreeWayMerge toml base ours theirs clients clients theirs where
  reads := reads
  stays := by
    refine ⟨survivors base ours theirs, fun _ => mem_survivors, pairwise_survivors _ _ _, ?_⟩
    intro index place isPlace
    have all : survivors base ours theirs = List.range theirs.length := by
      rw [survivors, noneRemoved]
      simp
    rw [all] at isPlace
    obtain ⟨inside, same⟩ := List.getElem?_eq_some_iff.mp isPlace
    rw [getElem_range] at same
    subst same
    rw [length_range] at inside
    have length := (readClients_eq_some_iff.mp reads).length_eq
    refine ⟨_, _, _, _, getElem?_eq_getElem (by omega), getElem?_eq_getElem (by omega),
      getElem?_eq_getElem inside, getElem?_eq_getElem inside, rfl, ?_, ?_⟩
    · intro _
      exact ⟨.refl _, rfl⟩
    · intro base_ our first second changed
      have impossible := mem_editsOf.mpr
        (show Changed base ours theirs (Edit.mk index our base_).theirs _ _ from changed)
      rw [noEdits] at impossible
      cases impossible
  hooks := Subperm.refl _
  synced := by
    rintro rfl
    have perm := @synced_perm _ _ theirs ours
    rw [staying_nothing noEdits noneRemoved, noneCreated] at perm
    simpa using perm

/-- The file's entries after the edits. -/
def edited (toml : Toml Ip Settings) (base : List (ConfigClient Ip)) (mines : List (TomlClient Ip))
    (theirs : List (ConfigClient Ip)) (file : List Entry) : List Entry :=
  (editsOf base (mines.map ofToml) theirs).foldl
    (applyEdit base (mines.map ofToml) (mines.map (renderClient toml.ipText))) file

theorem places_edited (reads : Forall₂ (Reads toml) (file.map .table) theirs) :
    (placesLeft (edited toml base mines theirs file) 0
        (removedOf base (mines.map ofToml) theirs)).map (·.2) =
      survivors base (mines.map ofToml) theirs := by
  have same := reads.length_eq
  rw [length_map] at same
  rw [snd_placesLeft, edited, length_edited, same, survivors]

theorem forall₂_staying (reads : Forall₂ (Reads toml) (file.map .table) theirs) :
    Forall₂ (fun (row : Entry × Nat) client =>
        mergedAt base (mines.map ofToml) theirs row.2 = some client ∧
          Reads toml (.table row.1) client)
      (placesLeft (edited toml base mines theirs file) 0 (removedOf base (mines.map ofToml) theirs))
      ((survivors base (mines.map ofToml) theirs).filterMap
        (mergedAt base (mines.map ofToml) theirs)) := by
  rw [← places_edited reads]
  apply @forall₂_places _ _ _ (fun entry client => Reads toml (.table entry) client)
  rintro ⟨entry, place⟩ member
  exact reads_edited reads (mem_placesLeft.mp member).1

/-- An entry that no device was changed for is as it was, and another but for the fields changed. -/
theorem edited_at {entry : Entry}
    (found : (edited toml base mines theirs file)[place]? = some entry) :
    ∃ old, file[place]? = some old ∧
      ((∀ base_ our, ¬ Changed base (mines.map ofToml) theirs place base_ our) → entry = old) ∧
      ∀ (base_ our : Nat) first second,
        Changed base (mines.map ofToml) theirs place base_ our → base[base_]? = some first →
          (mines.map ofToml)[our]? = some second →
            (Row.table entry).SameBut (changedKeys first second) (.table old) := by
  rw [edited, getElem?_edited _ _ nodup_editsOf] at found
  by_cases some_ : ∃ base_ our, Changed base (mines.map ofToml) theirs place base_ our
  · obtain ⟨base_, our, changed⟩ := some_
    rw [find?_editsOf changed] at found
    obtain ⟨old, isOld, rfl⟩ := Option.map_eq_some_iff.mp found
    refine ⟨old, isOld, fun unchanged => absurd changed (unchanged base_ our), ?_⟩
    intro other another first second again isBase isOurs key unchanged
    have same := (find?_editsOf changed).symm.trans (find?_editsOf again)
    cases same
    obtain ⟨mine, isMine, rfl⟩ := Option.map_eq_some_iff.mp
      ((getElem?_map ..).symm.trans isOurs)
    simp only [editEntry, isBase, getElem?_map, isMine, Option.map_some]
    exact lookup_changeFields unchanged
  · have unchanged : ∀ base_ our, ¬ Changed base (mines.map ofToml) theirs place base_ our :=
      fun base_ our changed => some_ ⟨base_, our, changed⟩
    rw [find?_editsOf_none unchanged] at found
    exact ⟨entry, found, fun _ => rfl, fun base_ our _ _ changed =>
      absurd changed (unchanged base_ our)⟩

def createdHooks (base ours : List (ConfigClient Ip)) : List String :=
  (createdOf base ours).filterMap fun our => (ours[our]?).bind (·.enterHook)

/-- What is read of the list that is saved: what stays, and after it what was created. -/
theorem mergeClients_reads {before after : Clients} (reads : toml.readClients before = some theirs)
    (merged : mergeClients before base (mines.map ofToml) theirs
      (mines.map (renderClient toml.ipText)) = .ok after) :
    ∃ clients, toml.readClients after = some
        ((survivors base (mines.map ofToml) theirs).filterMap
          (mergedAt base (mines.map ofToml) theirs) ++ clients) ∧
      clients.map forgetHook = (createdOf base (mines.map ofToml)).filterMap
        (fun our => ((mines.map ofToml)[our]?).map forgetHook) ∧
      ((createdHooks base (mines.map ofToml)).Subperm
        ((removedOf base (mines.map ofToml) theirs).filterMap fun place =>
          (theirs[place]?).bind (·.enterHook)) →
        clients = (createdOf base (mines.map ofToml)).filterMap fun our =>
          (mines.map ofToml)[our]?) ∧
      (∀ client ∈ clients, ∃ our ∈ createdOf base (mines.map ofToml), ∃ mine,
        (mines.map ofToml)[our]? = some mine ∧ (client = mine ∨ client = forgetHook mine)) ∧
      (clients.filterMap (·.enterHook)).Subperm
        ((removedOf base (mines.map ofToml) theirs).filterMap fun place =>
          (theirs[place]?).bind (·.enterHook)) ∧
      ((after = before ∧ editsOf base (mines.map ofToml) theirs = [] ∧
        removedOf base (mines.map ofToml) theirs = [] ∧ createdOf base (mines.map ofToml) = []) ∨
        ∃ file above added, clientsOf before = .ok (file, above) ∧
          after = .tables (putAbove above ((placesLeft (edited toml base mines theirs file) 0
            (removedOf base (mines.map ofToml) theirs)).map (·.1) ++ added))) := by
  unfold mergeClients at merged
  dsimp only at merged
  split at merged
  · next nothing =>
    cases merged
    refine ⟨[], ?_, by rw [nothing.2.2]; rfl, fun _ => by rw [nothing.2.2]; rfl,
      fun _ member => absurd member not_mem_nil, nil_subperm, .inl ⟨rfl, nothing⟩⟩
    rw [staying_nothing nothing.1 nothing.2.1, append_nil]
    exact reads
  · cases given : clientsOf before with
    | error why =>
      rw [given] at merged
      cases merged
    | ok found =>
      obtain ⟨file, above⟩ := found
      rw [given] at merged
      cases merged
      have rows := rows_clientsOf given
      have fileReads := readClients_eq_some_iff.mp reads
      rw [rows] at fileReads
      obtain ⟨added, clients, isAdded, addedReads, made, held, whole, each⟩ := @addCreated_spec _ _ _ toml
        mines (createdOf base (mines.map ofToml))
        (takeOut (edited toml base mines theirs file) (removedOf base (mines.map ofToml) theirs))
        ((removedOf base (mines.map ofToml) theirs).filterMap fun place =>
          (theirs[place]?).bind (·.enterHook))
      have left : takeOut (edited toml base mines theirs file)
          (removedOf base (mines.map ofToml) theirs) =
            (placesLeft (edited toml base mines theirs file) 0
              (removedOf base (mines.map ofToml) theirs)).map (·.1) :=
        foldl_eraseIdx_sorted nodup_removedOf _
      have staying := @forall₂_staying _ _ _ toml base theirs mines file fileReads
      rw [left] at isAdded
      refine ⟨clients, ?_, made, whole, each, held, .inr ⟨file, above, added, rfl, ?_⟩⟩
      · rw [readClients_eq_some_iff]
        change Forall₂ _ (Clients.rows (.tables (putAbove above (addCreated _ _
          (takeOut (edited toml base mines theirs file) _) _ _)))) _
        rw [left, isAdded]
        apply forall₂_putAbove
        rw [map_append]
        refine rel_append ?_ addedReads
        rw [map_map, forall₂_map_left_iff]
        exact staying.imp fun _ _ both => both.2
      · rw [← isAdded, ← left]
        rfl

theorem mergeClients_spec {before after : Clients}
    (reads : toml.readClients before = some theirs)
    (merged : mergeClients before base (mines.map ofToml) theirs
      (mines.map (renderClient toml.ipText)) = .ok after) :
    ∃ result, ThreeWayMerge toml base (mines.map ofToml) theirs before after result := by
  obtain ⟨clients, readsAfter, made, -, -, held,
    ⟨rfl, noEdits, noneRemoved, noneCreated⟩ | ⟨file, above, added, given, rfl⟩⟩ :=
      mergeClients_reads reads merged
  · exact ⟨theirs, threeWayMerge_nothing reads noEdits noneRemoved noneCreated⟩
  · have rows := rows_clientsOf given
    have fileReads := readClients_eq_some_iff.mp reads
    rw [rows] at fileReads
    have staying := @forall₂_staying _ _ _ toml base theirs mines file fileReads
    refine ⟨(survivors base (mines.map ofToml) theirs).filterMap
      (mergedAt base (mines.map ofToml) theirs) ++ clients, readsAfter, ?_, ?_, ?_⟩
    · refine ⟨survivors base (mines.map ofToml) theirs, fun _ => mem_survivors,
        pairwise_survivors _ _ _, ?_⟩
      intro index place isPlace
      rw [← places_edited fileReads, getElem?_map, Option.map_eq_some_iff] at isPlace
      obtain ⟨⟨entry, _⟩, isRow, rfl⟩ := isPlace
      have there := (mem_placesLeft.mp (mem_of_getElem? isRow)).1
      obtain ⟨old, isOld, asItWas, but⟩ := edited_at there
      obtain ⟨client, isClient, merges, -⟩ := forall₂_at staying isRow
      obtain ⟨their, isTheirs, -⟩ := forall₂_at fileReads
        (show (file.map Row.table)[_]? = some (.table old) by rw [getElem?_map, isOld]; rfl)
      obtain ⟨_, again, hook⟩ := mergedAt_cases (mines.map ofToml) isTheirs
      cases merges.symm.trans again
      have isEntry : ((placesLeft (edited toml base mines theirs file) 0
          (removedOf base (mines.map ofToml) theirs)).map (·.1))[index]? = some entry := by
        rw [getElem?_map, isRow]
        rfl
      obtain ⟨new, isNew, lines⟩ := putAbove_at above (getElem?_append_of_some added isEntry)
      refine ⟨.table old, .table new, their, _, ?_, ?_, isTheirs,
        getElem?_append_of_some clients isClient, hook, ?_, ?_⟩
      · rw [rows, getElem?_map, isOld]
        rfl
      · rw [Clients.rows, getElem?_map, isNew]
        rfl
      · intro unchanged
        refine ⟨?_, ?_⟩
        · rw [asItWas unchanged] at lines
          exact lines
        · rw [mergedAt_of_unchanged unchanged, isTheirs] at again
          exact (Option.some.inj again).symm
      · intro base_ our first second changed isBase isOurs
        refine ⟨?_, ?_⟩
        · rw [mergedAt_of_changed changed isBase isOurs isTheirs] at again
          exact (Option.some.inj again).symm
        · intro key unchanged
          rw [lines]
          exact but base_ our first second changed isBase isOurs key unchanged
    · rw [filterMap_append]
      exact ((subperm_append_left _).mpr held).trans (hooks_perm (mines.map ofToml)).subperm
    · rintro rfl
      rw [map_append, made]
      exact synced_perm (mines.map ofToml)

theorem merge_spec {disk text : String} {ours : ConfigToml Ip Settings}
    (saved : toml.merge disk base ours = .ok text) :
    ∃ doc theirs merged result, toml.parse disk = some doc ∧
      toml.readClients doc.clients = some theirs ∧ text = toml.print merged ∧
      merged.settings = doc.settings ∧
      ThreeWayMerge toml base (Toml.entries ours.clients) theirs doc.clients merged.clients
        result := by
  unfold Toml.merge at saved
  split at saved
  · cases saved
  · next doc parsed =>
    cases made : toml.mergeDocument doc base ours with
    | error why =>
      rw [made] at saved
      cases saved
    | ok merged =>
      rw [made] at saved
      cases saved
      unfold Toml.mergeDocument at made
      split at made
      · next theirs reads _ =>
        split at made
        · dsimp only at made
          cases list : mergeClients doc.clients base (Toml.entries ours.clients) theirs
              ((ours.clients.getD []).map (renderClient toml.ipText)) with
          | error why =>
            rw [list] at made
            cases made
          | ok after =>
            rw [list] at made
            cases made
            obtain ⟨result, merge⟩ := mergeClients_spec reads list
            exact ⟨doc, theirs, _, result, parsed, reads, rfl, rfl, merge⟩
        · cases made
      · cases made

/--
A save of any file, with any list last synced and any config in memory: if it
succeeds, the devices of the document it prints are the three-way merge; if it
fails, the file is left as it is.
-/
theorem save_is_three_way (toml : Toml Ip Settings) (system : FileSystem) (disk : String)
    (state : Synced Ip) (ours : ConfigToml Ip Settings) :
    (∀ next, (writeConfigFile toml system (some disk) state ours).2 = .ok next →
      ∃ doc theirs merged result, toml.parse disk = some doc ∧
        toml.readClients doc.clients = some theirs ∧
        (writeConfigFile toml system (some disk) state ours).1 = some (toml.print merged) ∧
        merged.settings = doc.settings ∧
        ThreeWayMerge toml state.synced (Toml.entries ours.clients) theirs doc.clients
          merged.clients result) ∧
      ∀ why, (writeConfigFile toml system (some disk) state ours).2 = .error why →
        (writeConfigFile toml system (some disk) state ours).1 = some disk := by
  unfold writeConfigFile
  dsimp only
  split
  · simp
  · split
    · simp
    · split
      · simp
      · next text saved =>
        split
        · obtain ⟨doc, theirs, merged, result, parsed, reads, rfl, settings, merge⟩ :=
            merge_spec saved
          refine ⟨?_, ?_⟩
          · intro _ _
            exact ⟨doc, theirs, merged, result, parsed, reads, rfl, settings, merge⟩
          · intro why impossible
            cases impossible
        · simp

end Saved

end HopsFormal.Config
