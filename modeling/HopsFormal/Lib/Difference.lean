import Mathlib.Data.List.Induction
import Mathlib.Data.List.Perm.Basic

/-!
# What is left over and what is new

Each of some entries claims an item that reads the same, if one is left.  An
item no entry claimed is left over and an entry that found none is new; how many
there are of each does not depend on the order the entries come in.
-/

namespace HopsFormal.Lib

open List

variable {κ ε : Type} [DecidableEq ε]

/-- One entry claims the first item that reads the same, or is new. -/
def claim (plan : List (κ × ε) × List ε) (entry : ε) : List (κ × ε) × List ε :=
  match plan.1.findIdx? (fun item => item.2 = entry) with
  | some place => (plan.1.eraseIdx place, plan.2)
  | none => (plan.1, plan.2 ++ [entry])

def difference (items : List (κ × ε)) (entries : List ε) : List (κ × ε) × List ε :=
  entries.foldl claim (items, [])

/--
What was claimed and what is left over are the items, what was claimed and what is
new are the entries, and no new entry reads as an item that is left.
-/
structure Claimed (items : List (κ × ε)) (entries : List ε) (plan : List (κ × ε) × List ε)
    (taken : List (κ × ε)) : Prop where
  items : (taken ++ plan.1).Perm items
  entries : (taken.map Prod.snd ++ plan.2).Perm entries
  apart : ∀ entry ∈ plan.2, entry ∉ plan.1.map Prod.snd

namespace Claimed

variable {items : List (κ × ε)} {entries : List ε} {plan : List (κ × ε) × List ε}
  {taken : List (κ × ε)}

theorem claim (claimed : Claimed items entries plan taken) (entry : ε) :
    ∃ more, Claimed items (entries ++ [entry]) (Lib.claim plan entry) more := by
  unfold Lib.claim
  cases found : plan.1.findIdx? (fun item => item.2 = entry) with
  | some place =>
    obtain ⟨inside, reads, -⟩ := findIdx?_eq_some_iff_getElem.mp found
    have same : plan.1[place].2 = entry := of_decide_eq_true reads
    refine ⟨plan.1[place] :: taken, ?_, ?_, ?_⟩
    · have moved : (plan.1[place] :: plan.1.eraseIdx place).Perm plan.1 :=
        getElem_cons_eraseIdx_perm inside
      exact (perm_middle.symm.trans (moved.append_left _)).trans claimed.items
    · have shifted : (entry :: (taken.map Prod.snd ++ plan.2)).Perm (entry :: entries) :=
        claimed.entries.cons entry
      rw [map_cons, cons_append, same]
      exact shifted.trans (perm_append_singleton entry entries).symm
    · intro other isNew held
      obtain ⟨item, member, rfl⟩ := List.mem_map.mp held
      have before : item ∈ plan.1 := (eraseIdx_sublist plan.1 place).subset member
      exact claimed.apart item.2 isNew (List.mem_map_of_mem before)
  | none =>
    have unread := findIdx?_eq_none_iff.mp found
    refine ⟨taken, claimed.items, ?_, ?_⟩
    · rw [← append_assoc]
      exact claimed.entries.append_right [entry]
    · intro other isNew held
      rcases mem_append.mp isNew with before | last
      · exact claimed.apart other before held
      · obtain ⟨item, member, same⟩ := List.mem_map.mp held
        rw [mem_singleton.mp last] at same
        simpa [same] using unread item member

theorem count_left (claimed : Claimed items entries plan taken) (entry : ε) :
    (plan.1.map Prod.snd).count entry = (items.map Prod.snd).count entry - entries.count entry ∧
      plan.2.count entry = entries.count entry - (items.map Prod.snd).count entry := by
  have held := (claimed.items.map Prod.snd).count_eq entry
  have listed := claimed.entries.count_eq entry
  rw [map_append, count_append] at held
  rw [count_append] at listed
  have either : plan.2.count entry = 0 ∨ (plan.1.map Prod.snd).count entry = 0 := by
    by_cases isNew : entry ∈ plan.2
    · exact .inr (count_eq_zero.mpr (claimed.apart entry isNew))
    · exact .inl (count_eq_zero.mpr isNew)
  omega

end Claimed

theorem difference_claimed (items : List (κ × ε)) (entries : List ε) :
    ∃ taken, Claimed items entries (difference items entries) taken := by
  unfold difference
  induction entries using List.reverseRecOn with
  | nil => exact ⟨[], .refl _, .refl _, fun _ member => absurd member not_mem_nil⟩
  | append_singleton done entry ih =>
    obtain ⟨taken, claimed⟩ := ih
    rw [foldl_concat]
    exact claimed.claim entry

/-- How many items of an entry are left over does not depend on the order of the entries. -/
theorem difference_count (items : List (κ × ε)) (entries : List ε) (entry : ε) :
    ((difference items entries).1.map Prod.snd).count entry =
      (items.map Prod.snd).count entry - entries.count entry := by
  obtain ⟨taken, claimed⟩ := difference_claimed items entries
  exact (claimed.count_left entry).1

/-- Entries that read as the items do leave nothing over, and none of them is new. -/
theorem difference_same {items : List (κ × ε)} {entries : List ε}
    (same : (items.map Prod.snd).Perm entries) : difference items entries = ([], []) := by
  obtain ⟨taken, claimed⟩ := difference_claimed items entries
  have none_ : ∀ entry, entry ∉ (difference items entries).1.map Prod.snd ∧
      entry ∉ (difference items entries).2 := by
    intro entry
    obtain ⟨left, added⟩ := claimed.count_left entry
    rw [same.count_eq, Nat.sub_self] at left added
    exact ⟨count_eq_zero.mp left, count_eq_zero.mp added⟩
  refine Prod.ext ?_ (eq_nil_iff_forall_not_mem.mpr fun entry => (none_ entry).2)
  exact map_eq_nil_iff.mp (eq_nil_iff_forall_not_mem.mpr fun entry => (none_ entry).1)

end HopsFormal.Lib
