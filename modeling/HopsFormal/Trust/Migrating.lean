import HopsFormal.Trust.Persistence
import Mathlib.Data.List.Sort

/-!
# The old tables, row by row

The migration reads the old list of machines in whatever order a map gives it.
What it does is stated here for a list of rows in any order: what the store
lists afterwards, what each part of the report names, and when the order of the
rows is seen in either.
-/

namespace HopsFormal.Trust

open List

namespace TrustStore

/-! ## Listing a machine and noting it in the report -/

def listed (store : TrustStore) (fp label : String) (since : Nat) : TrustStore :=
  if fp = store.ours ∨ store.entries.contains fp then store
  else { store with
    pairAgain := store.pairAgain.insert fp { label := sanitizeLabel label, since } }

theorem lookup_listed (store : TrustStore) (fp label other : String) (since : Nat) :
    (store.listed fp label since).pairAgain[other]? =
      if fp = other ∧ fp ≠ store.ours ∧ store.entries.contains fp = false then
        some { label := sanitizeLabel label, since }
      else store.pairAgain[other]? := by
  unfold listed
  split
  · rename_i held
    rw [if_neg]
    rintro ⟨-, different, unknown⟩
    rcases held with own | known
    · exact different own
    · rw [unknown] at known
      cases known
  · rename_i free
    obtain ⟨different, unknown⟩ := not_or.mp free
    simp only [Std.ExtTreeMap.getElem?_insert, Std.LawfulEqCmp.compare_eq_iff_eq, different,
      Bool.not_eq_true _ ▸ unknown, not_false_eq_true, and_true, ne_eq]

/-- A machine put on a part of the report at its first row only. -/
def noted (fps : List String) (fp : String) : List String :=
  if fp ∈ fps then fps else fps ++ [fp]

theorem mem_noted {fps : List String} {fp other : String} :
    other ∈ noted fps fp ↔ other ∈ fps ∨ other = fp := by
  unfold noted
  split
  · rename_i present
    constructor
    · exact .inl
    · rintro (member | rfl)
      · exact member
      · exact present
  · simp

theorem nodup_noted {fps : List String} (distinct : fps.Nodup) (fp : String) :
    (noted fps fp).Nodup := by
  unfold noted
  split
  · exact distinct
  · rename_i absent
    exact nodup_append.mpr ⟨distinct, nodup_singleton fp, by
      rintro member inFps _ inLast rfl
      exact absent (mem_singleton.mp inLast ▸ inFps)⟩

section Rows

variable [Lowercase]

/-- A row of the old list, by the machine it names and the name it gives it. -/
abbrev Row := String × String

/-- The row names this machine, in some spelling. -/
def Names (row : Row) (fp : String) : Prop := canonicalFingerprint row.1 = some fp

instance (row : Row) (fp : String) : Decidable (Names row fp) :=
  inferInstanceAs (Decidable (_ = _))

/-- The machines an old list hands on: named there, not removed, not this one, not known here. -/
structure HandedOn (store : TrustStore) (rows : List Row) (removed : List String)
    (fp : String) : Prop where
  named : ∃ row ∈ rows, Names row fp
  kept : fp ∉ removed
  other : fp ≠ store.ours
  unknown : store.entries.contains fp = false

/-- What a migration is to do, whatever order the rows come in. -/
structure MigrationLaw (store : TrustStore) (rows : List Row) (revoked : List String)
    (now : Nat) : Prop where
  grants : ∀ instant fp, (store.migrateFromConfig rows revoked now).2.capabilitiesAt instant fp =
    store.capabilitiesAt instant fp
  lists : ∀ fp, HandedOn store rows (revoked.map key) fp → ∃ row ∈ rows, Names row fp ∧
    (store.migrateFromConfig rows revoked now).2.pairAgain[fp]? =
      some { label := sanitizeLabel row.2, since := now }
  listsOnly : ∀ fp : String, ¬ HandedOn store rows (revoked.map key) fp →
    (store.migrateFromConfig rows revoked now).2.pairAgain[fp]? = store.pairAgain[fp]?
  named : ∀ fp, fp ∈ (store.migrateFromConfig rows revoked now).1.toPairAgain ↔
    HandedOn store rows (revoked.map key) fp
  apart : (store.migrateFromConfig rows revoked now).1.toPairAgain.Disjoint
      (store.migrateFromConfig rows revoked now).1.refused ∧
    (store.migrateFromConfig rows revoked now).1.toPairAgain.Disjoint
      (store.migrateFromConfig rows revoked now).1.dropped ∧
    (store.migrateFromConfig rows revoked now).1.refused.Disjoint
      (store.migrateFromConfig rows revoked now).1.dropped
  covers : ∀ row ∈ rows, row.1 ∈ (store.migrateFromConfig rows revoked now).1.dropped ∨
    ∃ fp, Names row fp ∧ (fp ∈ (store.migrateFromConfig rows revoked now).1.toPairAgain ∨
      fp ∈ (store.migrateFromConfig rows revoked now).1.refused)
  unordered : ∀ others removals, others.Perm rows → removals.Perm revoked →
    store.migrateFromConfig others removals now = store.migrateFromConfig rows revoked now

/--
Every row that is not removed names a machine that is new here, and the rows
that name one machine give it one name.
-/
structure PlainRows (store : TrustStore) (rows : List Row) (removed : List String) : Prop where
  fresh : ∀ row ∈ rows, ∀ fp, Names row fp → fp ∉ removed →
    fp ≠ store.ours ∧ store.entries.contains fp = false
  agree : ∀ row ∈ rows, ∀ other ∈ rows, ∀ fp, Names row fp → Names other fp → fp ∉ removed →
    sanitizeLabel row.2 = sanitizeLabel other.2

/-! ## One row -/

variable {row : Row} {fp : String} {rows others : List Row} {before store : TrustStore}
  {removed : List String} {now : Nat} {done : MigrationReport × TrustStore}

theorem Names.valid (names : Names row fp) : validFingerprint fp = true :=
  canonical_valid names

theorem listToPairAgain_valid (store : TrustStore) (valid : validFingerprint fp = true)
    (label : String) (since : Nat) :
    store.listToPairAgain fp label since = .ok (store.listed fp label since) := by
  unfold listToPairAgain listed
  rw [canonicalized_of_valid valid]
  dsimp only
  split <;> rfl

/-- Exactly what one row does. -/
theorem migrateOne_eq (removed : List String) (now : Nat) (report : MigrationReport)
    (store : TrustStore) (row : Row) :
    migrateOne removed now (report, store) row =
      match canonicalFingerprint row.1 with
      | none => ({ report with dropped := report.dropped ++ [row.1] }, store)
      | some fp =>
        if fp ∈ removed then ({ report with refused := noted report.refused fp }, store)
        else ({ report with toPairAgain := noted report.toPairAgain fp },
          store.listed fp row.2 now) := by
  unfold migrateOne
  cases found : canonicalFingerprint row.1 with
  | none => rfl
  | some fp =>
    dsimp only
    rw [listToPairAgain_valid store (canonical_valid found)]
    unfold noted
    split
    · split <;> rfl
    · dsimp only
      split <;> rfl

/-! ## The rows in order -/

def lastNamed (rows : List Row) (fp : String) : Option Row :=
  rows.reverse.find? fun row => decide (Names row fp)

theorem lastNamed_snoc (rows : List Row) (row : Row) (fp : String) :
    lastNamed (rows ++ [row]) fp = if Names row fp then some row else lastNamed rows fp := by
  unfold lastNamed
  rw [reverse_append]
  simp only [reverse_cons, reverse_nil, nil_append, cons_append,
    find?_cons]
  by_cases names : Names row fp
  · simp [names]
  · simp [names]

theorem lastNamed_some (found : lastNamed rows fp = some row) : row ∈ rows ∧ Names row fp := by
  constructor
  · exact mem_reverse.mp (mem_of_find?_eq_some found)
  · simpa using find?_some found

theorem lastNamed_of_names (member : row ∈ rows) (names : Names row fp) :
    ∃ last, lastNamed rows fp = some last := by
  apply Option.isSome_iff_exists.mp
  unfold lastNamed
  rw [find?_isSome]
  exact ⟨row, mem_reverse.mpr member, decide_eq_true names⟩

/-- What the rows so far have done to the store and the report. -/
structure RowsRead (before : TrustStore) (removed : List String) (now : Nat) (rows : List Row)
    (done : MigrationReport × TrustStore) : Prop where
  ours : done.2.ours = before.ours
  clock : done.2.clock = before.clock
  entries : done.2.entries = before.entries
  listing : ∀ fp : String, done.2.pairAgain[fp]? =
    if fp ∉ removed ∧ fp ≠ before.ours ∧ before.entries.contains fp = false then
      ((lastNamed rows fp).map fun row : Row =>
        ({ label := sanitizeLabel row.2, since := now } : PairAgain)).or before.pairAgain[fp]?
    else before.pairAgain[fp]?
  toPairAgain : ∀ fp, fp ∈ done.1.toPairAgain ↔ fp ∉ removed ∧ ∃ row ∈ rows, Names row fp
  refused : ∀ fp, fp ∈ done.1.refused ↔ fp ∈ removed ∧ ∃ row ∈ rows, Names row fp
  dropped : done.1.dropped =
    (rows.filter fun row => (canonicalFingerprint row.1).isNone).map Prod.fst
  once : done.1.toPairAgain.Nodup ∧ done.1.refused.Nodup

theorem RowsRead.start (before : TrustStore) (removed : List String) (now : Nat) :
    RowsRead before removed now [] ({}, before) where
  ours := rfl
  clock := rfl
  entries := rfl
  listing fp := by simp [lastNamed]
  toPairAgain fp := by simp
  refused fp := by simp
  dropped := rfl
  once := ⟨nodup_nil, nodup_nil⟩

theorem exists_names_snoc :
    (∃ one ∈ rows ++ [row], Names one fp) ↔ (∃ one ∈ rows, Names one fp) ∨ Names row fp := by
  simp [or_and_right, exists_or]

theorem RowsRead.snoc (migrated : RowsRead before removed now rows done) (row : Row) :
    RowsRead before removed now (rows ++ [row]) (migrateOne removed now done row) := by
  obtain ⟨report, store⟩ := done
  rw [migrateOne_eq]
  cases found : canonicalFingerprint row.1 with
  | none =>
    have unnamed : ∀ fp, ¬ Names row fp := fun fp names => by
      rw [Names, found] at names
      cases names
    exact
      { ours := migrated.ours
        clock := migrated.clock
        entries := migrated.entries
        listing := fun fp => by
          rw [lastNamed_snoc, if_neg (unnamed fp)]
          exact migrated.listing fp
        toPairAgain := fun fp => by
          rw [exists_names_snoc, or_iff_left (unnamed fp)]
          exact migrated.toPairAgain fp
        refused := fun fp => by
          rw [exists_names_snoc, or_iff_left (unnamed fp)]
          exact migrated.refused fp
        dropped := by
          have dropped := migrated.dropped
          rw [filter_append, map_append, dropped]
          simp [found]
        once := migrated.once }
  | some named =>
    have names : ∀ fp, Names row fp ↔ named = fp := fun fp => by
      rw [Names, found, Option.some.injEq]
    have keptDropped : report.dropped =
        ((rows ++ [row]).filter fun row => (canonicalFingerprint row.1).isNone).map Prod.fst := by
      rw [filter_append, map_append, ← migrated.dropped]
      simp [found]
    dsimp only
    by_cases gone : named ∈ removed
    · rw [if_pos gone]
      exact
        { ours := migrated.ours
          clock := migrated.clock
          entries := migrated.entries
          listing := fun fp => by
            rw [migrated.listing fp, lastNamed_snoc]
            by_cases same : named = fp
            · subst same
              rw [if_neg fun kept => kept.1 gone, if_neg fun kept => kept.1 gone]
            · rw [if_neg (mt (names fp).mp same)]
          toPairAgain := fun fp => by
            rw [migrated.toPairAgain fp, exists_names_snoc, names]
            constructor
            · exact And.imp_right .inl
            · rintro ⟨kept, there | rfl⟩
              · exact ⟨kept, there⟩
              · exact absurd gone kept
          refused := fun fp => by
            rw [exists_names_snoc, names, mem_noted, migrated.refused fp, and_or_left]
            constructor
            · rintro (there | rfl)
              · exact .inl there
              · exact .inr ⟨gone, rfl⟩
            · rintro (there | ⟨-, rfl⟩)
              · exact .inl there
              · exact .inr rfl
          dropped := keptDropped
          once := ⟨migrated.once.1, nodup_noted migrated.once.2 named⟩ }
    · rw [if_neg gone]
      have ours : store.ours = before.ours := migrated.ours
      have entries : store.entries = before.entries := migrated.entries
      have same : (store.listed named row.2 now).ours = store.ours ∧
          (store.listed named row.2 now).clock = store.clock ∧
          (store.listed named row.2 now).entries = store.entries := by
        unfold listed
        split <;> exact ⟨rfl, rfl, rfl⟩
      exact
        { ours := same.1.trans migrated.ours
          clock := same.2.1.trans migrated.clock
          entries := same.2.2.trans migrated.entries
          listing := fun fp => by
            have before := migrated.listing fp
            rw [lookup_listed, before, lastNamed_snoc, ours, entries]
            by_cases here : named = fp
            · subst here
              by_cases free : named ≠ store.ours ∧ store.entries.contains named = false
              · rw [ours, entries] at free
                rw [if_pos ⟨rfl, free⟩, if_pos ⟨gone, free⟩, if_pos ((names named).mpr rfl)]
                rfl
              · rw [ours, entries] at free
                rw [if_neg fun there => free there.2, if_neg fun there => free there.2,
                  if_neg fun there => free there.2]
            · rw [if_neg fun there => here there.1, if_neg (mt (names fp).mp here)]
          toPairAgain := fun fp => by
            rw [exists_names_snoc, names, mem_noted, migrated.toPairAgain fp, and_or_left]
            constructor
            · rintro (there | rfl)
              · exact .inl there
              · exact .inr ⟨gone, rfl⟩
            · rintro (there | ⟨-, rfl⟩)
              · exact .inl there
              · exact .inr rfl
          refused := fun fp => by
            rw [migrated.refused fp, exists_names_snoc, names]
            constructor
            · exact And.imp_right .inl
            · rintro ⟨removed, there | rfl⟩
              · exact ⟨removed, there⟩
              · exact absurd removed gone
          dropped := keptDropped
          once := ⟨nodup_noted migrated.once.1 named, migrated.once.2⟩ }

theorem rowsRead_all (before : TrustStore) (removed : List String) (now : Nat)
    (rows : List Row) :
    RowsRead before removed now rows (rows.foldl (migrateOne removed now) ({}, before)) := by
  induction rows using reverseRecOn with
  | nil => exact RowsRead.start before removed now
  | append_singleton rows row ih =>
    rw [foldl_append]
    exact ih.snoc row

/-! ## What a migration has done -/

theorem migrateFromConfig_eq (store : TrustStore) (rows : List Row) (revoked : List String)
    (now : Nat) : ∃ done, RowsRead store (revoked.map key) now rows done ∧
      store.migrateFromConfig rows revoked now =
        ({ toPairAgain := done.1.toPairAgain.mergeSort
           refused := done.1.refused.mergeSort
           dropped := done.1.dropped.mergeSort }, done.2) :=
  ⟨_, rowsRead_all store (revoked.map key) now rows, rfl⟩

/-- What is not a fingerprint is spelled unlike every fingerprint. -/
theorem RowsRead.dropped_foreign (migrated : RowsRead before removed now rows done) {text : String}
    (member : text ∈ done.1.dropped) : canonicalFingerprint text = none := by
  rw [migrated.dropped, mem_map] at member
  obtain ⟨row, inside, rfl⟩ := member
  exact Option.isNone_iff_eq_none.mp (mem_filter.mp inside).2

/-- What the report names is spelled as the store spells it. -/
theorem not_foreign (named : ∃ row ∈ rows, Names row fp) : canonicalFingerprint fp ≠ none := by
  obtain ⟨row, -, names⟩ := named
  rw [canonicalized_of_valid names.valid]
  exact Option.some_ne_none fp

section

variable (migrated : RowsRead before removed now rows done)
include migrated

theorem HandedOn.listing (handed : HandedOn before rows removed fp) :
    ∃ row, lastNamed rows fp = some row ∧
      done.2.pairAgain[fp]? = some { label := sanitizeLabel row.2, since := now } := by
  obtain ⟨row, member, names⟩ := handed.named
  obtain ⟨last, found⟩ := lastNamed_of_names member names
  refine ⟨last, found, ?_⟩
  rw [migrated.listing fp, if_pos ⟨handed.kept, handed.other, handed.unknown⟩, found]
  rfl

theorem RowsRead.listing_other (stays : ¬ HandedOn before rows removed fp) :
    done.2.pairAgain[fp]? = before.pairAgain[fp]? := by
  rw [migrated.listing fp]
  split
  · rename_i free
    cases found : lastNamed rows fp with
    | none => rfl
    | some row =>
      obtain ⟨member, names⟩ := lastNamed_some found
      exact absurd ⟨⟨row, member, names⟩, free.1, free.2.1, free.2.2⟩ stays
  · rfl

theorem RowsRead.named_iff : (∀ fp, fp ∈ done.1.toPairAgain ↔ HandedOn before rows removed fp) ↔
      ∀ row ∈ rows, ∀ fp, Names row fp → fp ∉ removed →
        fp ≠ before.ours ∧ before.entries.contains fp = false := by
  constructor
  · intro named row member fp names kept
    have handed := (named fp).mp ((migrated.toPairAgain fp).mpr ⟨kept, row, member, names⟩)
    exact ⟨handed.other, handed.unknown⟩
  · intro fresh fp
    rw [migrated.toPairAgain fp]
    constructor
    · rintro ⟨kept, row, member, names⟩
      obtain ⟨other, unknown⟩ := fresh row member fp names kept
      exact ⟨⟨row, member, names⟩, kept, other, unknown⟩
    · exact fun handed => ⟨handed.kept, handed.named⟩

/-! ## The order of the rows -/

end

omit [Lowercase] in
theorem mergeSort_congr {fps others : List String} (perm : fps.Perm others) :
    fps.mergeSort = others.mergeSort := by
  have trans : ∀ a b c : String, decide (a ≤ b) = true → decide (b ≤ c) = true →
      decide (a ≤ c) = true := by
    intro a b c one two
    exact decide_eq_true (le_trans (of_decide_eq_true one) (of_decide_eq_true two))
  have total : ∀ a b : String, (decide (a ≤ b) || decide (b ≤ a)) = true := by
    intro a b
    simpa using le_total a b
  have same := ((mergeSort_perm fps fun a b => decide (a ≤ b)).trans perm).trans
    (mergeSort_perm others fun a b => decide (a ≤ b)).symm
  refine same.eq_of_pairwise ?_ (pairwise_mergeSort trans total fps)
    (pairwise_mergeSort trans total others)
  intro a b _ _ one two
  exact le_antisymm (of_decide_eq_true one) (of_decide_eq_true two)

theorem named_perm (perm : others.Perm rows) (fp : String) :
    (∃ row ∈ others, Names row fp) ↔ ∃ row ∈ rows, Names row fp :=
  exists_congr fun _ => and_congr_left fun _ => perm.mem_iff

theorem lastNamed_label (plain : PlainRows store rows removed) (perm : others.Perm rows)
    (kept : fp ∉ removed) : (lastNamed others fp).map (fun row => sanitizeLabel row.2) =
      (lastNamed rows fp).map fun row => sanitizeLabel row.2 := by
  cases found : lastNamed rows fp with
  | none =>
    cases also : lastNamed others fp with
    | none => rfl
    | some row =>
      obtain ⟨member, names⟩ := lastNamed_some also
      obtain ⟨last, last_found⟩ := lastNamed_of_names (perm.mem_iff.mp member) names
      rw [found] at last_found
      cases last_found
  | some row =>
    obtain ⟨member, names⟩ := lastNamed_some found
    obtain ⟨last, also⟩ := lastNamed_of_names (perm.mem_iff.mpr member) names
    obtain ⟨inside, last_names⟩ := lastNamed_some also
    rw [also, Option.map_some, Option.map_some,
      plain.agree last (perm.mem_iff.mp inside) row member fp last_names names kept]

theorem PlainRows.unordered {revoked removals : List String}
    (plain : PlainRows store rows (revoked.map key)) (perm : others.Perm rows)
    (removed : removals.Perm revoked) (now : Nat) :
    store.migrateFromConfig others removals now = store.migrateFromConfig rows revoked now := by
  obtain ⟨first, one, first_eq⟩ := migrateFromConfig_eq store others removals now
  obtain ⟨second, two, second_eq⟩ := migrateFromConfig_eq store rows revoked now
  have gone : ∀ fp, fp ∈ removals.map key ↔ fp ∈ revoked.map key :=
    fun fp => (removed.map key).mem_iff
  have toPairAgain : first.1.toPairAgain.Perm second.1.toPairAgain :=
    (perm_ext_iff_of_nodup one.once.1 two.once.1).mpr fun fp => by
      rw [one.toPairAgain, two.toPairAgain, gone, named_perm perm]
  have refused : first.1.refused.Perm second.1.refused :=
    (perm_ext_iff_of_nodup one.once.2 two.once.2).mpr fun fp => by
      rw [one.refused, two.refused, gone, named_perm perm]
  have dropped : first.1.dropped.Perm second.1.dropped := by
    rw [one.dropped, two.dropped]
    exact (perm.filter _).map Prod.fst
  have listing : first.2.pairAgain = second.2.pairAgain := by
    apply Std.ExtTreeMap.ext_getElem?
    intro fp
    rw [one.listing fp, two.listing fp]
    simp only [gone]
    split
    · rename_i free
      have labels := lastNamed_label plain perm free.1
      have same := congrArg (Option.map fun label => (⟨label, now⟩ : PairAgain)) labels
      rw [Option.map_map, Option.map_map] at same
      exact congrArg (Option.or · store.pairAgain[fp]?) same
    · rfl
  have stores : first.2 = second.2 := by
    obtain ⟨_, ours, clock, entries, pairAgain, _⟩ := first
    obtain ⟨_, ours', clock', entries', pairAgain', _⟩ := second
    obtain rfl : ours = ours' := one.ours.trans two.ours.symm
    obtain rfl : clock = clock' := one.clock.trans two.clock.symm
    obtain rfl : entries = entries' := one.entries.trans two.entries.symm
    obtain rfl : pairAgain = pairAgain' := listing
    rfl
  rw [first_eq, second_eq, mergeSort_congr toPairAgain, mergeSort_congr refused,
    mergeSort_congr dropped, stores]

theorem listing_of_last {store : TrustStore} {rows : List Row} {revoked : List String}
    {now : Nat} {row : Row} {fp : String} (names : Names row fp)
    (handed : HandedOn store rows (revoked.map key) fp) :
    (store.migrateFromConfig (rows.erase row ++ [row]) revoked now).2.pairAgain[fp]? =
      some { label := sanitizeLabel row.2, since := now } := by
  obtain ⟨done, migrated, same⟩ := migrateFromConfig_eq store (rows.erase row ++ [row]) revoked now
  rw [same]
  have also : HandedOn store (rows.erase row ++ [row]) (revoked.map key) fp :=
    ⟨⟨row, by simp, names⟩, handed.kept, handed.other, handed.unknown⟩
  obtain ⟨last, found, listing⟩ := also.listing migrated
  rw [lastNamed_snoc, if_pos names] at found
  rw [listing, Option.some.inj found]

/-- What the order of the rows changes is the name of a machine two of them name. -/
theorem agree_of_unordered {revoked : List String}
    (unordered : ∀ others removals, others.Perm rows → removals.Perm revoked →
      store.migrateFromConfig others removals now = store.migrateFromConfig rows revoked now)
    {other : Row} (member : row ∈ rows) (also : other ∈ rows) (names : Names row fp)
    (same : Names other fp) (handed : HandedOn store rows (revoked.map key) fp) :
    sanitizeLabel row.2 = sanitizeLabel other.2 := by
  have last : ∀ one ∈ rows, (rows.erase one ++ [one]).Perm rows := fun one inside =>
    (perm_append_singleton one _).trans (perm_cons_erase inside).symm
  have first := @listing_of_last _ _ _ _ now _ _ names handed
  have second := @listing_of_last _ _ _ _ now _ _ same handed
  rw [unordered _ _ (last row member) (Perm.refl revoked)] at first
  rw [unordered _ _ (last other also) (Perm.refl revoked)] at second
  have alike := Option.some.inj (first.symm.trans second)
  exact congrArg PairAgain.label alike

/--
A migration does what it says exactly when every row not removed names a
machine new here and no two rows name one machine differently.
-/
theorem migration_law_iff (store : TrustStore) (rows : List Row) (revoked : List String)
    (now : Nat) :
    MigrationLaw store rows revoked now ↔ PlainRows store rows (revoked.map key) := by
  obtain ⟨done, migrated, same⟩ := migrateFromConfig_eq store rows revoked now
  have named : (∀ fp, fp ∈ (store.migrateFromConfig rows revoked now).1.toPairAgain ↔
      HandedOn store rows (revoked.map key) fp) ↔
      ∀ fp, fp ∈ done.1.toPairAgain ↔ HandedOn store rows (revoked.map key) fp := by
    simp only [same, mem_mergeSort]
  constructor
  · intro law
    have fresh := migrated.named_iff.mp (named.mp law.named)
    refine ⟨fresh, fun row member other also fp names names' kept => ?_⟩
    obtain ⟨different, unknown⟩ := fresh row member fp names kept
    exact agree_of_unordered law.unordered member also names names'
      ⟨⟨row, member, names⟩, kept, different, unknown⟩
  · intro plain
    have onReport : ∀ fp, fp ∈ done.1.toPairAgain ∨ fp ∈ done.1.refused →
        canonicalFingerprint fp ≠ none := by
      rintro fp (member | member)
      · exact not_foreign ((migrated.toPairAgain fp).mp member).2
      · exact not_foreign ((migrated.refused fp).mp member).2
    exact
      { grants := fun instant fp => by
          rw [same, capabilitiesAt, capabilitiesAt, migrated.entries, migrated.ours]
        lists := fun fp handed => by
          obtain ⟨row, found, listing⟩ := handed.listing migrated
          obtain ⟨member, names⟩ := lastNamed_some found
          exact ⟨row, member, names, by rw [same, listing]⟩
        listsOnly := fun fp stays => by
          rw [same, migrated.listing_other stays]
        named := named.mpr (migrated.named_iff.mpr plain.fresh)
        apart := by
          rw [same]
          refine ⟨fun fp one two => ?_, fun fp one two => ?_, fun fp one two => ?_⟩
          · rw [mem_mergeSort] at one two
            exact ((migrated.toPairAgain fp).mp one).1 ((migrated.refused fp).mp two).1
          · rw [mem_mergeSort] at one two
            exact onReport fp (.inl one) (migrated.dropped_foreign two)
          · rw [mem_mergeSort] at one two
            exact onReport fp (.inr one) (migrated.dropped_foreign two)
        covers := fun row member => by
          simp only [same, mem_mergeSort]
          cases found : canonicalFingerprint row.1 with
          | none =>
            left
            rw [migrated.dropped, mem_map]
            exact ⟨row, mem_filter.mpr ⟨member, by rw [found]; rfl⟩, rfl⟩
          | some fp =>
            right
            refine ⟨fp, found, ?_⟩
            by_cases gone : fp ∈ revoked.map key
            · exact .inr ((migrated.refused fp).mpr ⟨gone, row, member, found⟩)
            · exact .inl ((migrated.toPairAgain fp).mpr ⟨gone, row, member, found⟩)
        unordered := fun others removals perm removed =>
          plain.unordered perm removed now }

end Rows

/-! ## Two tables whose migration is not what its report says -/

theorem machineB_padded : letI := asciiLowercase
    canonicalFingerprint (" " ++ machineB) = some machineB := by
  let _ := asciiLowercase
  decide +kernel

/--
The report names this machine, which its own list held and which is never
listed; and a machine two rows name is listed under the name read last.
-/
theorem report_and_effect_disagree : letI := asciiLowercase
    ¬ MigrationLaw freshStore [(machineA, "Desk")] [] 0 ∧
      ¬ MigrationLaw freshStore [(machineB, "Desk"), (" " ++ machineB, "Laptop")] [] 0 := by
  let _ := asciiLowercase
  constructor
  · intro law
    have own : Names (machineA, "Desk") machineA := canonicalized_of_valid machineA_valid
    obtain ⟨done, migrated, same⟩ := migrateFromConfig_eq freshStore [(machineA, "Desk")] [] 0
    have reported : machineA ∈ done.1.toPairAgain :=
      (migrated.toPairAgain machineA).mpr ⟨not_mem_nil, _, mem_singleton_self _, own⟩
    have handed := (law.named machineA).mp (by rw [same, mem_mergeSort]; exact reported)
    exact handed.other rfl
  · intro law
    have plain : Names (machineB, "Desk") machineB := canonicalized_of_valid machineB_valid
    have padded : Names (" " ++ machineB, "Laptop") machineB := machineB_padded
    have handed : HandedOn freshStore [(machineB, "Desk"), (" " ++ machineB, "Laptop")] []
        machineB :=
      { named := ⟨_, by simp, plain⟩
        kept := not_mem_nil
        other := by decide
        unknown := rfl }
    have labels := agree_of_unordered law.unordered (by simp) (by simp) plain padded handed
    exact absurd labels (by decide)

end TrustStore

end HopsFormal.Trust
