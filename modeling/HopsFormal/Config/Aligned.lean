import HopsFormal.Config.Saving
import Mathlib.Data.List.ReduceOption

/-!
# A file in step with the list last synced

The devices of the file and the list last synced are the same, in whatever order.
Then every device last synced is matched with one that reads the same, and a save
leaves the daemon's devices in the file: hooks included, if none is given to
another device.
-/

namespace HopsFormal.Config

open Edges (ConfigClient)
open List Lib

/-! ## Places that hold a value -/

section Places

variable {α : Type} [DecidableEq α]

theorem length_places (list : List α) (value : α) :
    ((List.range list.length).filter fun place => list[place]? = some value).length =
      list.count value := by
  induction list with
  | nil => rfl
  | cons first rest ih =>
    rw [length_cons, range_succ_eq_map, filter_cons, filter_map]
    have later : ((fun place => decide ((first :: rest)[place]? = some value)) ∘ Nat.succ) =
        fun place => decide (rest[place]? = some value) := by
      funext place
      simp
    rw [later]
    by_cases same : first = value
    · simp [same, ih]
    · simp [same, ih]

theorem length_places_before {list : List α} {count : Nat} {value : α}
    (here : list[count]? = some value) :
    ((List.range count).filter fun place => list[place]? = some value).length <
      list.count value := by
  have inside : count < list.length := (List.getElem?_eq_some_iff.mp here).1
  have more : ((List.range (count + 1)).filter fun place => list[place]? = some value).length ≤
      ((List.range list.length).filter fun place => list[place]? = some value).length := by
    apply Sublist.length_le
    exact (range_sublist.mpr inside).filter _
  rw [range_succ, filter_append, length_places] at more
  simp only [filter_cons, here, decide_true, if_true, length_append,
    length_cons] at more
  omega

end Places

/-! ## Matching equal devices -/

section Matching

variable {Ip : Type} [DecidableEq Ip] {left right : List (ConfigClient Ip)}

/-- The first places are matched with equal devices, the others not yet. -/
structure EqualUpTo (left right : List (ConfigClient Ip)) (count : Nat)
    (out : List (Option Nat)) : Prop where
  matching : Matching left right out
  equal : ∀ index < count, ∃ found, out[index]? = some (some found) ∧ right[found]? = left[index]?
  later : ∀ index, count ≤ index → index < left.length → out[index]? = some none

theorem EqualUpTo.untaken {count : Nat} {out : List (Option Nat)} {device : ConfigClient Ip}
    (upTo : EqualUpTo left right count out) (perm : left.Perm right)
    (here : left[count]? = some device) :
    ∃ found < right.length, some found ∉ out ∧ right[found]? = some device := by
  by_contra none_left
  have taken : ∀ found ∈ (List.range right.length).filter fun place => right[place]? = some device,
      found ∈ ((List.range count).filter fun place => left[place]? = some device).map
        fun index => (out[index]?).join.getD 0 := by
    intro found member
    obtain ⟨inside, holds⟩ := mem_filter.mp member
    have isTaken : some found ∈ out := by
      by_contra free
      exact none_left ⟨found, mem_range.mp inside, free, of_decide_eq_true holds⟩
    obtain ⟨index, atIndex⟩ := mem_iff_getElem?.mp isTaken
    have early : index < count := by
      by_contra late
      have short : index < left.length := by
        rw [← upTo.matching.length]
        exact (List.getElem?_eq_some_iff.mp atIndex).1
      rw [upTo.later index (Nat.le_of_not_lt late) short] at atIndex
      cases atIndex
    obtain ⟨other, isOther, equal⟩ := upTo.equal index early
    obtain rfl := Option.some.inj (Option.some.inj (isOther.symm.trans atIndex))
    refine mem_map.mpr ⟨index, mem_filter.mpr ⟨mem_range.mpr early, ?_⟩, ?_⟩
    · rw [← equal]
      exact holds
    · rw [atIndex]
      rfl
  have fewer := (subperm_of_subset (nodup_range.filter _) taken).length_le
  rw [length_places, length_map, ← perm.count_eq] at fewer
  have before := length_places_before here
  omega

theorem EqualUpTo.next {count : Nat} {out : List (Option Nat)}
    (upTo : EqualUpTo left right count out) (perm : left.Perm right)
    (inside : count < left.length) :
    EqualUpTo left right (count + 1)
      (matchOne (fun first second => first = second) left right out count) := by
  have here := getElem?_eq_getElem inside
  have unmatched := upTo.later count (Nat.le_refl _) inside
  obtain ⟨candidate, below, free, equal⟩ := upTo.untaken perm here
  have matching := upTo.matching.matchOne (fun first second => first = second) count
  unfold matchOne at matching ⊢
  rw [unmatched, here] at matching ⊢
  dsimp only at matching ⊢
  split at matching
  · next found search =>
    have passes := find?_some search
    rw [decide_eq_true_eq] at passes
    have length : count < out.length := upTo.matching.length ▸ inside
    refine ⟨matching, fun index early => ?_, fun index late short => ?_⟩
    · rw [getElem?_set]
      by_cases same : count = index
      · subst same
        obtain ⟨device, isRight, same⟩ := (Option.any_eq_true _ _).mp passes.2
        refine ⟨found, by simp [length], ?_⟩
        rw [isRight, here, of_decide_eq_true same]
      · rw [if_neg same]
        exact upTo.equal index (by omega)
    · rw [getElem?_set_ne (by omega)]
      exact upTo.later index (by omega) short
  · next none_found =>
    have fails := find?_eq_none.mp none_found candidate (mem_range.mpr below)
    exact absurd (decide_eq_true ⟨free, by simp [equal]⟩) fails

theorem equalUpTo_all (perm : left.Perm right) (count : Nat) (inside : count ≤ left.length) :
    EqualUpTo left right count ((List.range count).foldl
      (matchOne (fun first second => first = second) left right)
      (List.replicate left.length none)) := by
  induction count with
  | zero =>
    refine ⟨matching_start left right, nofun, fun index _ short => ?_⟩
    simp [short]
  | succ count ih =>
    rw [range_succ, foldl_append]
    exact (ih (by omega)).next perm (by omega)

/-- Every device last synced is matched with one of the file that reads the same. -/
structure Aligned (base theirs : List (ConfigClient Ip)) : Prop where
  length : theirs.length = base.length
  found : ∀ index < base.length, ∃ place,
    (pair base theirs .file)[index]? = some (some place) ∧ theirs[place]? = base[index]?

theorem aligned_of_perm (perm : left.Perm right) : Aligned left right := by
  have upTo := equalUpTo_all perm left.length (Nat.le_refl _)
  refine ⟨perm.length_eq.symm, fun index inside => ?_⟩
  have full : none ∉ (List.range left.length).foldl
      (matchOne (fun first second => first = second) left right)
      (List.replicate left.length none) := by
    intro member
    obtain ⟨other, there⟩ := mem_iff_getElem?.mp member
    have short : other < left.length := by
      rw [← upTo.matching.length]
      exact (List.getElem?_eq_some_iff.mp there).1
    obtain ⟨found, isFound, -⟩ := upTo.equal other short
    rw [there] at isFound
    cases isFound
  have first : matchAll left right (List.replicate left.length none)
      (fun first second => first = second) = (List.range left.length).foldl
        (matchOne (fun first second => first = second) left right)
        (List.replicate left.length none) := rfl
  simp only [pair, tests, foldl_cons, foldl_nil]
  rw [first, matchAll_full full, matchAll_full full, matchAll_full full]
  exact upTo.equal index inside

end Matching

/-! ## What a save leaves then -/

section Saved

variable {Ip Settings : Type} [DecidableEq Ip] {toml : Toml Ip Settings}
  {base theirs : List (ConfigClient Ip)} {mines : List (TomlClient Ip)}

def removedHooks (base ours : List (ConfigClient Ip)) : List String :=
  (List.range base.length).filterMap fun index =>
    if (pair base ours .memory)[index]? = some none then (base[index]?).bind (·.enterHook)
    else none

/--
No hook is given to another device: a device that is the change of one last synced
has its hook, and one that is created has none but a removed device's.
-/
structure HooksStay (base ours : List (ConfigClient Ip)) : Prop where
  kept : ∀ (index our : Nat) first second, (pair base ours .memory)[index]? = some (some our) →
    base[index]? = some first → ours[our]? = some second → first.enterHook = second.enterHook
  created : (createdHooks base ours).Subperm (removedHooks base ours)

theorem Aligned.places_perm (aligned : Aligned base theirs) :
    ((pair base theirs .file).filterMap id).Perm (List.range theirs.length) := by
  have matching := matching_pair base theirs .file
  have all : ((pair base theirs .file).filterMap id).length = theirs.length := by
    rw [aligned.length, ← matching.length]
    refine reduceOption_length_eq_iff.mpr fun found member => ?_
    obtain ⟨index, there⟩ := mem_iff_getElem?.mp member
    have inside : index < base.length := by
      rw [← matching.length]
      exact (List.getElem?_eq_some_iff.mp there).1
    obtain ⟨place, isPlace, -⟩ := aligned.found index inside
    obtain rfl := Option.some.inj (there.symm.trans isPlace)
    rfl
  have distinct : ((pair base theirs .file).filterMap id).Nodup := by
    rw [← filterMap_range]
    apply nodup_range.filterMap
    intro first second place found again
    rw [Option.mem_def, Option.bind_eq_some_iff] at found again
    obtain ⟨_, found, rfl⟩ := found
    obtain ⟨_, again, rfl⟩ := again
    exact matching.once found again
  refine (subperm_of_subset distinct fun place member => ?_).perm_of_length_le ?_
  · obtain ⟨_, member, rfl⟩ := mem_filterMap.mp member
    exact mem_range.mpr (matching.below place member)
  · rw [length_range, all]

variable {ours : List (ConfigClient Ip)}

section

variable (aligned : Aligned base theirs)
include aligned

/-- At the match of a device last synced stands what the daemon made of that device. -/
theorem Aligned.merged_at (stay : HooksStay base ours) {index : Nat} (inside : index < base.length) :
    
    ((pair base theirs .file)[index]?).bind (fun found => (id found).bind fun place =>
        if decide (place ∉ removedOf base ours theirs) then mergedAt base ours theirs place
        else none) =
      ((pair base ours .memory)[index]?).bind fun found => (id found).bind fun our =>
        ours[our]? := by
  obtain ⟨place, onDisk, same⟩ := aligned.found index inside
  have isBase := getElem?_eq_getElem inside
  rw [isBase] at same
  obtain ⟨kept, isKept⟩ : ∃ kept, (pair base ours .memory)[index]? = some kept :=
    ⟨_, getElem?_eq_getElem (by rwa [(matching_pair base ours .memory).length])⟩
  have alone : ∀ {other}, (pair base theirs .file)[other]? = some (some place) → other = index :=
    fun there => (matching_pair base theirs .file).once there onDisk
  rw [onDisk, isKept]
  cases kept with
  | none =>
    have removed : place ∈ removedOf base ours theirs :=
      mem_removedOf.mpr ⟨index, onDisk, isKept⟩
    simp [removed]
  | some our =>
    have stays : place ∉ removedOf base ours theirs := by
      intro removed
      obtain ⟨other, there, gone⟩ := mem_removedOf.mp removed
      rw [alone there, isKept] at gone
      cases gone
    simp only [stays, not_false_eq_true, decide_true, if_true, id, Option.bind_some]
    have isOurs := getElem?_eq_getElem
      ((matching_pair base ours .memory).below our (mem_of_getElem? isKept))
    by_cases unchanged : base[index]? = ours[our]?
    · rw [mergedAt_of_unchanged, same, ← isBase, unchanged]
      rintro other another ⟨there, isOther, differs⟩
      rw [alone there] at isOther differs
      obtain rfl := Option.some.inj (Option.some.inj (isKept.symm.trans isOther))
      exact differs unchanged
    · rw [mergedAt_of_changed ⟨onDisk, isKept, unchanged⟩ isBase isOurs same, threeWay_self,
        stay.kept index our _ _ isKept isBase isOurs, isOurs]

/-- What stays and what is created are the daemon's devices, hooks included. -/
theorem Aligned.ours_perm (stay : HooksStay base ours) :
    ((survivors base ours theirs).filterMap (mergedAt base ours theirs) ++
      (createdOf base ours).filterMap fun our => ours[our]?).Perm ours := by
  have stays : ((survivors base ours theirs).filterMap (mergedAt base ours theirs)).Perm
      (((pair base ours .memory).filterMap id).filterMap fun our => ours[our]?) := by
    rw [survivors, filterMap_filter]
    refine (aligned.places_perm.symm.filterMap _).trans (Perm.of_eq ?_)
    rw [filterMap_filterMap, filterMap_filterMap,
      ← filterMap_range (pair base theirs .file), ← filterMap_range (pair base ours .memory),
      (matching_pair base theirs .file).length, (matching_pair base ours .memory).length]
    apply filterMap_congr
    intro index member
    exact aligned.merged_at stay (mem_range.mp member)
  have all : (List.range ours.length).filterMap (fun our => ours[our]?) = ours := by
    have whole := map_range ours id
    simpa only [Option.map_id, map_id, id] using whole
  refine (stays.append_right _).trans ?_
  rw [← filterMap_append]
  exact ((Config.ours_perm ours).filterMap _).trans (Perm.of_eq all)

theorem Aligned.hooks (ours : List (ConfigClient Ip)) :
    ((removedOf base ours theirs).filterMap fun place => (theirs[place]?).bind (·.enterHook)) =
      removedHooks base ours := by
  rw [removedOf, filterMap_filterMap, removedHooks]
  apply filterMap_congr
  intro index member
  obtain ⟨place, onDisk, same⟩ := aligned.found index (mem_range.mp member)
  rw [onDisk, ← same]
  split
  · next kept their =>
    obtain rfl := Option.some.inj (Option.some.inj their)
    rw [if_pos kept]
    rfl
  · next other =>
    rw [if_neg fun kept => other place kept rfl]
    rfl

/-- A save of a file in step leaves the daemon's devices in it. -/
theorem mergeClients_aligned {before after : Clients} (stay : HooksStay base (mines.map ofToml))
    (reads : toml.readClients before = some theirs)
    (merged : mergeClients before base (mines.map ofToml) theirs
      (mines.map (renderClient toml.ipText)) = .ok after) :
    ∃ result, toml.readClients after = some result ∧ result.Perm (mines.map ofToml) := by
  obtain ⟨clients, readsAfter, -, whole, -, -⟩ := mergeClients_reads reads merged
  rw [aligned.hooks] at whole
  rw [whole stay.created] at readsAfter
  exact ⟨_, readsAfter, aligned.ours_perm stay⟩

/-! ## A file without devices -/

end

/-- No device last synced has a match in a file without devices. -/
theorem pair_nothing (base : List (ConfigClient Ip)) (index place : Nat) :
    (pair base [] .file)[index]? ≠ some (some place) := by
  intro found
  have below := (matching_pair base [] .file).below place (mem_of_getElem? found)
  exact Nat.not_lt_zero _ below

theorem removedOf_nothing (base ours : List (ConfigClient Ip)) : removedOf base ours [] = [] := by
  rw [eq_nil_iff_forall_not_mem]
  intro place member
  obtain ⟨index, onDisk, -⟩ := mem_removedOf.mp member
  exact pair_nothing base _ _ onDisk

theorem createdOf_all (unmatched : ∀ kept ∈ pair base ours .memory, kept = none) :
    createdOf base ours = List.range ours.length := by
  refine filter_eq_self.mpr fun our _ => decide_eq_true fun member => ?_
  cases unmatched _ member

theorem unmatched_of_createdOf (all : ours.length ≤ (createdOf base ours).length) :
    ∀ kept ∈ pair base ours .memory, kept = none := by
  intro kept member
  cases kept with
  | none => rfl
  | some our =>
    have inside := (matching_pair base ours .memory).below our member
    have same : createdOf base ours = List.range ours.length := by
      refine Sublist.eq_of_length_le filter_sublist ?_
      rw [length_range]
      exact all
    have created : our ∈ createdOf base ours := by
      rw [same]
      exact mem_range.mpr inside
    exact absurd member (of_decide_eq_true (mem_filter.mp created).2)

end Saved

end HopsFormal.Config
