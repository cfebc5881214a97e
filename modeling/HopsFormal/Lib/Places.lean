import Mathlib.Data.List.Sort

/-!
# Places of a list

Places are taken out of a list one after the other, the last one first, so that
no place moves before it is taken.  What is left is the list of the other places,
in their order.  What stands at a place is also followed through a change of one
place and through one more at the end.
-/

namespace HopsFormal.Lib

open List

variable {α : Type}

/-- The places of a list that are not among some, with what stands there. -/
@[grind =]
def placesLeft (list : List α) (start : Nat) (places : List Nat) : List (α × Nat) :=
  (list.zipIdx start).filter fun row => row.2 ∉ places

theorem placesLeft_append (first second : List α) (start : Nat) (places : List Nat) :
    placesLeft (first ++ second) start places =
      placesLeft first start places ++ placesLeft second (start + first.length) places := by
  rw [placesLeft, zipIdx_append, filter_append, Nat.add_comm]
  rfl

variable {list l : List α} {start place i : Nat} {places : List Nat}

theorem placesLeft_of_below (below : ∀ place ∈ places, place < start) :
    placesLeft list start places = list.zipIdx start := by
  apply filter_eq_self.mpr
  rintro ⟨value, place⟩ member
  have inside := le_snd_of_mem_zipIdx member
  apply decide_eq_true
  intro taken
  have := below place taken
  omega

theorem placesLeft_cons_of_above (above : start + list.length ≤ place) :
    placesLeft list start (place :: places) = placesLeft list start places := by
  apply filter_congr
  rintro ⟨value, other⟩ member
  have inside := snd_lt_add_of_mem_zipIdx member
  have apart : other ≠ place := by omega
  simp [apart]

theorem placesLeft_eraseIdx {list : List α} {place : Nat} {places : List Nat}
    (inside : place < list.length) (below : ∀ other ∈ places, other < place) :
    (placesLeft (list.eraseIdx place) 0 places).map (·.1) =
      (placesLeft list 0 (place :: places)).map (·.1) := by
  have split : list = list.take place ++ list[place] :: list.drop (place + 1) := by simp
  have length : (list.take place).length = place := by
    rw [length_take]
    omega
  have erased : list.eraseIdx place = list.take place ++ list.drop (place + 1) :=
    eraseIdx_eq_take_drop_succ ..
  rw [erased]
  conv_rhs => rw [split]
  rw [placesLeft_append, placesLeft_append, length, Nat.zero_add]
  rw [placesLeft_of_below below, placesLeft_cons_of_above (by omega)]
  have here : placesLeft (list[place] :: list.drop (place + 1)) place (place :: places) =
      (list.drop (place + 1)).zipIdx (place + 1) := by
    rw [placesLeft, zipIdx_cons, filter_cons_of_neg (by simp)]
    apply filter_eq_self.mpr
    rintro ⟨value, other⟩ member
    have after := le_snd_of_mem_zipIdx member
    apply decide_eq_true
    intro taken
    rcases mem_cons.mp taken with same | earlier
    · omega
    · have := below other earlier
      omega
  rw [here]
  simp

/-- Taking places out from the last one on leaves the others. -/
theorem foldl_eraseIdx (descending : places.Pairwise (· > ·)) (list : List α) :
    places.foldl (fun list place =>
        if place < list.length then list.eraseIdx place else list) list =
      (placesLeft list 0 places).map (·.1) := by
  induction places generalizing list with
  | nil => simp [placesLeft]
  | cons place rest ih =>
    obtain ⟨below, descending⟩ := pairwise_cons.mp descending
    rw [foldl_cons, ih descending]
    split
    · next inside => exact placesLeft_eraseIdx inside below
    · next outside => rw [placesLeft_cons_of_above (by omega)]

theorem mem_placesLeft {value : α} :
    (value, place) ∈ placesLeft list 0 places ↔ list[place]? = some value ∧ place ∉ places := by
  rw [placesLeft, mem_filter, mem_zipIdx_iff_getElem?, decide_eq_true_eq]

theorem snd_placesLeft (list : List α) (places : List Nat) :
    (placesLeft list 0 places).map (·.2) =
      (List.range list.length).filter fun place => place ∉ places := by
  have indices : (list.zipIdx.map fun row => row.2) = List.range list.length := by
    rw [range_eq_range']
    exact zipIdx_map_snd ..
  rw [← indices, List.filter_map]
  rfl

theorem placesLeft_congr {others : List Nat} (same : ∀ place, place ∈ places ↔ place ∈ others) :
    placesLeft list start places = placesLeft list start others := by
  apply filter_congr
  intro row _
  simp [same]

theorem foldl_eraseIdx_sorted (distinct : places.Nodup) (list : List α) :
    (places.insertionSort (· ≤ ·)).reverse.foldl (fun list place =>
        if place < list.length then list.eraseIdx place else list) list =
      (placesLeft list 0 places).map (·.1) := by
  have sorted : (places.insertionSort (· ≤ ·)).reverse.Pairwise (· > ·) := by
    rw [pairwise_reverse]
    have ordered := places.pairwise_insertionSort (· ≤ ·)
    have apart : (places.insertionSort (· ≤ ·)).Pairwise (· ≠ ·) :=
      (places.perm_insertionSort (· ≤ ·)).nodup_iff.mpr distinct
    exact (ordered.and apart).imp fun both => Nat.lt_of_le_of_ne both.1 both.2
  rw [foldl_eraseIdx sorted]
  congr 1
  apply placesLeft_congr
  intro place
  rw [mem_reverse, mem_insertionSort]

/-! ## One place of a list changed -/

theorem modify_eq_some {j : Nat} {f : α → α} {y : α} :
    (l.modify i f)[j]? = some y ↔ ∃ x, l[j]? = some x ∧ y = if i = j then f x else x := by
  rw [getElem?_modify]
  cases l[j]? with
  | none => simp
  | some x =>
    simp only [Option.map_eq_map, Option.map_some, Option.some.injEq, exists_eq_left']
    exact eq_comm

theorem append_eq_some {x y : α} :
    (l ++ [x])[i]? = some y ↔ l[i]? = some y ∨ (i = l.length ∧ y = x) := by
  rcases Nat.lt_trichotomy i l.length with low | same | high
  · rw [getElem?_append_left low]
    constructor
    · exact Or.inl
    · rintro (found | ⟨rfl, -⟩)
      · exact found
      · exact absurd low (Nat.lt_irrefl _)
  · subst same
    simp [eq_comm]
  · rw [getElem?_eq_none (by rw [length_append, length_singleton]; omega),
      getElem?_eq_none (Nat.le_of_lt high)]
    constructor
    · intro impossible
      cases impossible
    · rintro (impossible | ⟨rfl, -⟩)
      · cases impossible
      · exact absurd high (Nat.lt_irrefl _)

theorem append_keeps {y : α} {P : α → Prop} (holds : ∃ (j : Nat) (x : α), l[j]? = some x ∧ P x) :
    ∃ (j : Nat) (x : α), (l ++ [y])[j]? = some x ∧ P x := by
  obtain ⟨j, x, found, holds⟩ := holds
  exact ⟨j, x, append_eq_some.mpr (.inl found), holds⟩

end HopsFormal.Lib
