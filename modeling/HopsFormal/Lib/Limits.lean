import Mathlib.Data.List.Count
import Mathlib.Data.List.TakeWhile

/-!
# So many in a while

What happens again and again is let through only so many times in a while.  The times it was
let through are kept, the oldest first, until they are a whole window old, and a further time
is let through while few of them are left.  No span of a window then holds more than the limit.
-/

namespace HopsFormal.Lib

open List

/-- The times that are not a whole window old, of those kept in order. -/
def notOlder (seen : List Nat) (now window : Nat) : List Nat :=
  seen.dropWhile fun time => decide (window ≤ now - time)

/-- A time is let through, and then kept, if few enough are left. -/
def withinLimit (seen : List Nat) (now limit window : Nat) : Bool × List Nat :=
  if limit ≤ (notOlder seen now window).length then (false, notOlder seen now window)
  else (true, notOlder seen now window ++ [now])

/-- The times in the half-open span of a window from a start on. -/
def inSpan (start window : Nat) (times : List Nat) : Nat :=
  times.countP fun time => decide (start ≤ time ∧ time < start + window)

/--
No span of a window holds more than the limit of the times past, and those of them that are
kept no longer were a window old by now.
-/
structure Limited (limit window : Nat) (past seen : List Nat) (now : Nat) : Prop where
  older : ∃ gone, past = gone ++ seen ∧ ∀ time ∈ gone, time + window ≤ now
  few : ∀ start, inSpan start window past ≤ limit

namespace Limited

variable {limit window now later : Nat} {past seen : List Nat}

theorem nothing (limit window now : Nat) : Limited limit window [] [] now where
  older := ⟨[], rfl, by simp⟩
  few start := Nat.zero_le _

section

variable (limited : Limited limit window past seen now)
include limited

theorem wait (after : now ≤ later) : Limited limit window past seen later where
  older := by
    obtain ⟨gone, whole, old⟩ := limited.older
    exact ⟨gone, whole, fun time member => Nat.le_trans (old time member) after⟩
  few := limited.few

/-- Those that are a window old are dropped, whether or not a further one is let through. -/
theorem notOlder (positive : 0 < window) :
    Limited limit window past (notOlder seen now window) now where
  older := by
    obtain ⟨gone, whole, old⟩ := limited.older
    refine ⟨gone ++ seen.takeWhile fun time => decide (window ≤ now - time), ?_, ?_⟩
    · rw [whole, Lib.notOlder, append_assoc, takeWhile_append_dropWhile]
    · intro time member
      rcases mem_append.mp member with before | dropped
      · exact old time before
      · have aged := mem_takeWhile_imp dropped
        rw [decide_eq_true_eq] at aged
        omega
  few := limited.few

theorem let_through (positive : 0 < window) (within : (withinLimit seen now limit window).1 = true) :
    
    Limited limit window (past ++ [now]) (withinLimit seen now limit window).2 now := by
  obtain ⟨gone, whole, old⟩ := (limited.notOlder positive).older
  unfold withinLimit at within ⊢
  split_ifs at within ⊢ with full
  refine ⟨⟨gone, by rw [whole, append_assoc], old⟩, fun start => ?_⟩
  rw [inSpan, countP_append, countP_singleton]
  by_cases inside : start ≤ now ∧ now < start + window
  · have none_gone : gone.countP (fun time => decide (start ≤ time ∧ time < start + window)) = 0 := by
      rw [countP_eq_zero]
      intro time member
      have aged := old time member
      rw [decide_eq_true_eq]
      omega
    rw [if_pos (by simpa using inside), whole, countP_append, none_gone, Nat.zero_add]
    exact Nat.lt_of_le_of_lt countP_le_length (Nat.not_le.mp full)
  · rw [if_neg (by simpa using inside)]
    exact limited.few start

end

end Limited

end HopsFormal.Lib
