import HopsFormal.Config.Seen
import HopsFormal.Trust.Persistence

/-!
# Which entry a change lands on

A device last synced is matched with one of memory and with one of the file, each
time because it is recognised by what it holds.  An entry of the file that stays
is as it was or takes the changes of the one device it is recognised as; a hook
leaves its entry only when the entry is taken out.
-/

namespace HopsFormal.Config

open Edges (ConfigClient)
open List Lib

variable {Ip Settings : Type} [DecidableEq Ip]

/-! ## Recognised devices -/

/--
A device is recognised as another by one of the tests; against memory also if a
single field differs and they are not pinned to different machines.
-/
def Recognised (against : Against) (first second : ConfigClient Ip) : Prop :=
  (∃ same ∈ tests, same first second = true) ∨
    against = .memory ∧ differences first second = 1 ∧ apart first second = false

omit [DecidableEq Ip] in
theorem apart_of_same {first second : ConfigClient Ip}
    (same : first.fingerprint = second.fingerprint) : apart first second = false := by
  unfold apart
  rw [same]
  cases second.fingerprint with
  | none => rfl
  | some pin => simp

theorem Recognised.not_apart {against : Against} {first second : ConfigClient Ip}
    (recognised : Recognised against first second) : apart first second = false := by
  rcases recognised with ⟨same, member, passes⟩ | ⟨-, -, notApart⟩
  · simp only [tests, mem_cons, not_mem_nil, or_false] at member
    rcases member with rfl | rfl | rfl | rfl
    · exact apart_of_same (congrArg ConfigClient.fingerprint (of_decide_eq_true passes))
    · rw [Bool.and_eq_true] at passes
      exact apart_of_same (of_decide_eq_true passes.2)
    · rw [Bool.and_eq_true] at passes
      simpa using passes.2
    · rw [Bool.and_eq_true] at passes
      simpa using passes.2
  · exact notApart

def AllRecognised (left right : List (ConfigClient Ip)) (against : Against)
    (out : List (Option Nat)) : Prop :=
  ∀ index found : Nat, out[index]? = some (some found) →
    ∃ first second, left[index]? = some first ∧ right[found]? = some second ∧
      Recognised against first second

section Matches

variable {left right : List (ConfigClient Ip)} {against : Against} {out : List (Option Nat)}

theorem allRecognised_start : AllRecognised left right against
    (List.replicate left.length none) := by
  intro index found matched
  cases (mem_replicate.mp (mem_of_getElem? matched)).2

theorem AllRecognised.set (all : AllRecognised left right against out) {index found : Nat}
    {first second : ConfigClient Ip} (isLeft : left[index]? = some first)
    (isRight : right[found]? = some second) (recognised : Recognised against first second) :
    AllRecognised left right against (out.set index (some found)) := by
  intro other place matched
  rw [getElem?_set] at matched
  split at matched
  · next same =>
    split at matched
    · cases matched
      subst same
      exact ⟨first, second, isLeft, isRight, recognised⟩
    · cases matched
  · exact all other place matched

theorem AllRecognised.matchOne (all : AllRecognised left right against out)
    {same : ConfigClient Ip → ConfigClient Ip → Bool} (isTest : same ∈ tests) (index : Nat) :
    AllRecognised left right against (Config.matchOne same left right out index) := by
  unfold Config.matchOne
  split
  · next device _ isLeft =>
    split
    · next found search =>
      have passes := List.find?_some search
      rw [decide_eq_true_eq] at passes
      obtain ⟨second, isRight, recognised⟩ := (Option.any_eq_true _ _).mp passes.2
      exact all.set isLeft isRight (.inl ⟨same, isTest, recognised⟩)
    · exact all
  · exact all

theorem AllRecognised.matchAll (all : AllRecognised left right against out)
    {same : ConfigClient Ip → ConfigClient Ip → Bool} (isTest : same ∈ tests) :
    AllRecognised left right against (Config.matchAll left right out same) := by
  unfold Config.matchAll
  induction List.range left.length generalizing out with
  | nil => exact all
  | cons index rest ih => exact ih (all.matchOne isTest index)

theorem AllRecognised.matchLeftOver (all : AllRecognised left right .memory out) :
    AllRecognised left right .memory (Config.matchLeftOver left right out) := by
  unfold Config.matchLeftOver
  split
  · split
    · next first second isLeft isRight =>
      split
      · next single =>
        have notApart : apart first second = false := by
          simpa using single.2
        exact all.set isLeft isRight (.inr ⟨rfl, single.1, notApart⟩)
      · exact all
    · exact all
  · exact all

theorem pair_recognised (left right : List (ConfigClient Ip)) (against : Against) :
    AllRecognised left right against (pair left right against) := by
  have tested : ∀ (passes : List (ConfigClient Ip → ConfigClient Ip → Bool)) out,
      (∀ same ∈ passes, same ∈ tests) → AllRecognised left right against out →
        AllRecognised left right against (passes.foldl (matchAll left right) out) := by
    intro passes
    induction passes with
    | nil => exact fun out _ all => all
    | cons same rest ih =>
      intro out isTest all
      exact ih _ (fun other member => isTest other (mem_cons_of_mem _ member))
        (all.matchAll (isTest same mem_cons_self))
  have all := tested tests _ (fun same member => member) allRecognised_start
  cases against with
  | file => exact all
  | memory => exact all.matchLeftOver

end Matches

/-! ## What stays of an entry -/

/-- Entries of one device: with one pin, or with one hostname or one list of addresses. -/
def SameDevice (first second : ConfigClient Ip) : Prop :=
  (first.fingerprint.isSome = true ∧ first.fingerprint = second.fingerprint) ∨
    apart first second = false ∧
      ((first.hostname.isSome = true ∧ first.hostname = second.hostname) ∨
        (first.ips ≠ ∅ ∧ first.ips = second.ips))

def LeftKnown (before after their : ConfigClient Ip) : Prop :=
  (their.fingerprint.isSome = true ∧ before.fingerprint = after.fingerprint) ∨
    (their.hostname.isSome = true ∧ before.hostname = after.hostname) ∨
      (their.ips ≠ ∅ ∧ before.ips = after.ips)

/--
An entry takes the changes of a device last synced, which it and a device of memory
are recognised as.  Where that device was pinned it is not given another pin, and it
stays the same device's unless all that it is known by was changed.
-/
structure ChangedAs (before after their client : ConfigClient Ip) : Prop where
  inFile : Recognised .file before their
  inMemory : Recognised .memory before after
  merged : client = threeWay before after their
  pin : before.fingerprint.isSome = true → apart their client = false
  device : apart their client = false → LeftKnown before after their → SameDevice their client

/-- An entry that stays keeps its hook, and is as it was or takes the changes of one device. -/
structure StaysFor (base ours : List (ConfigClient Ip)) (their client : ConfigClient Ip) :
    Prop where
  hook : client.enterHook = their.enterHook
  changed : client = their ∨ ∃ before ∈ base, ∃ after ∈ ours, ChangedAs before after their client

theorem apart_threeWay {before after their : ConfigClient Ip}
    (inFile : Recognised .file before their) (inMemory : Recognised .memory before after)
    (pinned : before.fingerprint.isSome = true) :
    apart their (threeWay before after their) = false := by
  by_cases unchanged : before.fingerprint = after.fingerprint
  · apply apart_of_same
    rw [threeWay, if_pos unchanged]
  · have now : (threeWay before after their).fingerprint = after.fingerprint := if_neg unchanged
    have near := inFile.not_apart
    have ahead := inMemory.not_apart
    unfold apart at near ahead ⊢
    rw [now]
    obtain ⟨pin, isPin⟩ := Option.isSome_iff_exists.mp pinned
    rw [isPin] at near ahead unchanged
    cases isAfter : after.fingerprint with
    | none => split <;> simp_all
    | some other =>
      rw [isAfter] at ahead unchanged
      exact absurd (congrArg some (by simpa using ahead)) unchanged

theorem sameDevice_threeWay {before after their : ConfigClient Ip}
    (notApart : apart their (threeWay before after their) = false)
    (kept : LeftKnown before after their) : SameDevice their (threeWay before after their) := by
  rcases kept with ⟨pinned, pin⟩ | ⟨named, hostname⟩ | ⟨addressed, ips⟩
  · exact .inl ⟨pinned, (if_pos pin).symm⟩
  · exact .inr ⟨notApart, .inl ⟨named, (if_pos hostname).symm⟩⟩
  · exact .inr ⟨notApart, .inr ⟨addressed, (if_pos ips).symm⟩⟩

theorem staysFor_mergedAt {base theirs : List (ConfigClient Ip)} (ours : List (ConfigClient Ip))
    {place : Nat} {client : ConfigClient Ip}
    (stands : mergedAt base ours theirs place = some client) :
    ∃ their, theirs[place]? = some their ∧ StaysFor base ours their client := by
  by_cases some_ : ∃ index our, Changed base ours theirs place index our
  · obtain ⟨index, our, changed⟩ := some_
    obtain ⟨before, their, isBase, isTheirs, inFile⟩ :=
      pair_recognised base theirs .file index place changed.1
    obtain ⟨before', after, isBase', isOurs, inMemory⟩ :=
      pair_recognised base ours .memory index our changed.2.1
    obtain rfl := Option.some.inj (isBase.symm.trans isBase')
    rw [mergedAt_of_changed changed isBase isOurs isTheirs] at stands
    obtain rfl := Option.some.inj stands
    refine ⟨their, isTheirs, rfl, .inr ⟨before, mem_of_getElem? isBase, after,
      mem_of_getElem? isOurs, inFile, inMemory, rfl, ?_, ?_⟩⟩
    · exact apart_threeWay inFile inMemory
    · exact sameDevice_threeWay
  · have unchanged : ∀ index our, ¬ Changed base ours theirs place index our :=
      fun index our changed => some_ ⟨index, our, changed⟩
    rw [mergedAt_of_unchanged unchanged] at stands
    exact ⟨client, stands, rfl, .inl rfl⟩

/-! ## What a save writes -/

/-- Where the hooks of a list that is saved stand. -/
structure HooksStand (base ours theirs : List (ConfigClient Ip))
    (stay : List (Nat × ConfigClient Ip)) (new : List (ConfigClient Ip)) : Prop where
  places : ∀ place, place ∈ stay.map Prod.fst ↔
    place < theirs.length ∧ ¬ Removed base ours theirs place
  order : (stay.map Prod.fst).Pairwise (· < ·)
  stays : ∀ place client, (place, client) ∈ stay →
    ∃ their, theirs[place]? = some their ∧ StaysFor base ours their client
  created : ∀ client ∈ new, ∃ our ∈ createdOf base ours, ∃ mine, ours[our]? = some mine ∧
    (client = mine ∨ client = forgetHook mine)
  hooks : (new.filterMap (·.enterHook)).Subperm
    ((removedOf base ours theirs).filterMap fun place => (theirs[place]?).bind (·.enterHook))

variable (base ours theirs : List (ConfigClient Ip))

/-- The entries that stay, each with its place in the file. -/
def staying : List (Nat × ConfigClient Ip) :=
  (survivors base ours theirs).filterMap fun place =>
    (mergedAt base ours theirs place).map (place, ·)

theorem snd_staying : (staying base ours theirs).map Prod.snd =
      (survivors base ours theirs).filterMap (mergedAt base ours theirs) := by
  rw [staying, map_filterMap]
  apply filterMap_congr
  intro place _
  cases mergedAt base ours theirs place <;> rfl

theorem fst_staying : (staying base ours theirs).map Prod.fst = survivors base ours theirs := by
  rw [staying, map_filterMap, ← filterMap_some (l := survivors base ours theirs)]
  rw [filterMap_filterMap]
  apply filterMap_congr
  intro place survives
  have inside := (mem_survivors.mp survives).1
  obtain ⟨client, stands, -⟩ : ∃ client, mergedAt base ours theirs place = some client ∧ _ :=
    mergedAt_cases ours (getElem?_eq_getElem inside)
  simp only [Option.bind_some, stands, Option.map_some]

theorem mergeClients_hooks {toml : Toml Ip Settings} {base theirs : List (ConfigClient Ip)}
    {mines : List (TomlClient Ip)} {before after : Clients}
    (reads : toml.readClients before = some theirs)
    (merged : mergeClients before base (mines.map ofToml) theirs
      (mines.map (renderClient toml.ipText)) = .ok after) :
    ∃ stay new, toml.readClients after = some (stay.map Prod.snd ++ new) ∧
      HooksStand base (mines.map ofToml) theirs stay new := by
  obtain ⟨new, readsAfter, -, -, each, hooks, -⟩ := mergeClients_reads reads merged
  refine ⟨staying base (mines.map ofToml) theirs, new, ?_, ?_, ?_, ?_, each, hooks⟩
  · rw [snd_staying]
    exact readsAfter
  · intro place
    rw [fst_staying]
    exact mem_survivors
  · rw [fst_staying]
    exact pairwise_survivors base _ theirs
  · intro place client member
    obtain ⟨other, -, found⟩ := mem_filterMap.mp member
    obtain ⟨stands, isStanding, same⟩ := Option.map_eq_some_iff.mp found
    cases same
    exact staysFor_mergedAt _ isStanding

/--
After a save of any file, with any list last synced and any config in memory, each
hook stands in the entry it stood in, which the daemon's changes reach only for the
device it is recognised as; a hook of an entry that is taken out may stand in one
entry that is written for a device memory created with it.
-/
theorem hooks_stand (toml : Toml Ip Settings) {disk text : String} {base : List (ConfigClient Ip)}
    {ours : ConfigToml Ip Settings} (saved : toml.merge disk base ours = .ok text) :
    ∃ doc theirs merged stay new, toml.parse disk = some doc ∧
      toml.readClients doc.clients = some theirs ∧ text = toml.print merged ∧
      toml.readClients merged.clients = some (stay.map Prod.snd ++ new) ∧
      HooksStand base (Toml.entries ours.clients) theirs stay new := by
  obtain ⟨doc, theirs, after, merged, parsed, reads, -, -, list, printed, rfl, -⟩ :=
    merge_reads saved
  obtain ⟨stay, new, readsAfter, stand⟩ := mergeClients_hooks reads list
  exact ⟨doc, theirs, merged, stay, new, parsed, reads, printed, readsAfter, stand⟩

/-! ## A device that is moved, and one that is pinned twice -/

section Desk

open Trust.TrustStore (machineA machineB)

def desk : TomlClient Unit :=
  ⟨some "desk", none, some [()], none, none, none, none, none, none, none⟩

theorem deskToml_merge {rows after : List (TomlClient Unit)} (some_ : rows ≠ [])
    {base : List (ConfigClient Unit)} {ours : ConfigToml Unit Unit} {merged : Document Unit}
    (made : deskToml.mergeDocument ⟨.tables (rows.map (renderClient oneIp)), none, none, ()⟩
      base ours = .ok merged)
    (reads : merged.clients.rows.mapM deskRow = some after) :
    deskToml.merge (deskPrint rows) base ours = .ok (deskPrint after) := by
  have printed : deskToml.print merged = deskPrint after := by
    rw [deskToml]
    dsimp only
    rw [reads, Option.getD_some]
  rw [Toml.merge, deskToml_parse some_]
  dsimp only
  rw [made, ← printed]
  rfl

theorem hooks_stand_desk : ∃ doc theirs merged stay new,
    deskToml.parse (deskPrint [{ desk with enterHook := some "notify" }]) = some doc ∧
      deskToml.readClients doc.clients = some theirs ∧
      deskPrint [{ desk with hostname := some "desk-2", enterHook := some "notify" }] =
        deskToml.print merged ∧
      deskToml.readClients merged.clients = some (stay.map Prod.snd ++ new) ∧
      HooksStand [ofToml desk] (Toml.entries (some [{ desk with hostname := some "desk-2" }]))
        theirs stay new :=
  @hooks_stand _ _ _ deskToml _ _ [ofToml desk]
    ⟨some [{ desk with hostname := some "desk-2" }], none, none, ()⟩
    (deskToml_merge (cons_ne_nil _ _) rfl rfl)

set_option maxRecDepth 4000 in
/--
An entry known by its addresses alone keeps its hook once they are taken from it, and
one whose pin was taken out by hand under another hostname; and one pinned by hand is
given the pin memory has for an unpinned device.
-/
theorem merge_moves :
    (deskToml.merge (deskPrint [{ desk with hostname := none, enterHook := some "notify" }])
          [ofToml { desk with hostname := none }]
          ⟨some [{ desk with hostname := none, ips := none }], none, none, ()⟩ =
        .ok (deskPrint [⟨none, none, none, none, none, none, some "notify", none, none, none⟩]) ∧
      ¬ SameDevice (ofToml { desk with hostname := none, enterHook := some "notify" })
        (ofToml ⟨none, none, none, none, none, none, some "notify", none, none, none⟩)) ∧
    (deskToml.merge (deskPrint [{ desk with enterHook := some "notify" }])
          [ofToml { desk with fingerprint := some machineA }]
          ⟨some [{ desk with hostname := some "laptop", ips := none, fingerprint := some machineA }],
            none, none, ()⟩ =
        .ok (deskPrint [⟨some "laptop", none, none, none, none, none, some "notify", none, none,
          none⟩]) ∧
      ¬ SameDevice (ofToml { desk with enterHook := some "notify" })
        (ofToml ⟨some "laptop", none, none, none, none, none, some "notify", none, none, none⟩)) ∧
    deskToml.merge (deskPrint [{ desk with fingerprint := some machineA }]) [ofToml desk]
          ⟨some [{ desk with fingerprint := some machineB }], none, none, ()⟩ =
        .ok (deskPrint [{ desk with fingerprint := some machineB }]) ∧
      apart (ofToml { desk with fingerprint := some machineA })
        (ofToml { desk with fingerprint := some machineB }) = true := by
  refine ⟨⟨deskToml_merge (cons_ne_nil _ _) rfl rfl, ?_⟩,
    ⟨deskToml_merge (cons_ne_nil _ _) rfl rfl, ?_⟩,
    deskToml_merge (cons_ne_nil _ _) rfl rfl, by decide⟩
  · rintro (⟨pinned, -⟩ | ⟨-, ⟨named, -⟩ | ⟨-, ips⟩⟩)
    · cases pinned
    · cases named
    · exact absurd ips (by decide)
  · rintro (⟨pinned, -⟩ | ⟨-, ⟨-, hostname⟩ | ⟨-, ips⟩⟩)
    · cases pinned
    · exact absurd hostname (by decide)
    · exact absurd ips (by decide)

end Desk

end HopsFormal.Config
