import HopsFormal.Pairing.MatchCode

/-!
# The numbers to pick from

The machine being added offers the real number among two others.  They are drawn until they
differ from all before them; a source that keeps repeating itself gives way, after 64 tries, to
counted numbers.
-/

namespace HopsFormal.Pairing

open List MatchCode

/-- The place of the real number is the first draw; each try before the 64th makes one more. -/
def candidate (draw : Nat → UInt32) (tries : Nat) : String :=
  if tries < 64 then sixDigits ((draw (tries + 1)).toNat % 1000000)
  else sixDigits (tries * 7919 % 1000000)

/-- The drawing loop, unless it takes more tries than `fuel`. -/
@[grind =]
def drawOthers (draw : Nat → UInt32) : Nat → Nat → List String → Option (List String)
  | 0, _, out => if out.length < 3 then none else some out
  | fuel + 1, tries, out =>
    if out.length < 3 then
      let candidate := candidate draw tries
      drawOthers draw fuel (tries + 1) (if candidate ∈ out then out else out ++ [candidate])
    else some out

def swapFirst (out : List String) (at_ : Nat) : List String :=
  match out[0]?, out[at_]? with
  | some first, some other => (out.set 0 other).set at_ first
  | _, _ => out

/-- `draw` gives what each call of the source returns. -/
def choicesFrom (real : String) (draw : Nat → UInt32) (fuel : Nat) : Option (List String) :=
  (drawOthers draw fuel 0 [real]).map fun out => swapFirst out ((draw 0).toNat % 3)

/-! ## The loop -/

def SixDigits (number : String) : Prop :=
  number.toList.length = 6 ∧ ∀ c ∈ number.toList, c.isDigit = true

theorem candidate_sixDigits (draw : Nat → UInt32) (tries : Nat) :
    SixDigits (candidate draw tries) := by
  unfold candidate
  split <;> exact sixDigits_spec (Nat.mod_lt _ (by decide))

/-- The list while it is drawn: the real number, then others that differ. -/
structure Drawn (real : String) (out : List String) : Prop where
  first : ∃ others, out = real :: others ∧ ∀ other ∈ others, SixDigits other
  nodup : out.Nodup
  short : out.length ≤ 3

variable {real : String} {draw : Nat → UInt32} {out : List String}

theorem Drawn.try_ (drawn : Drawn real out) (open_ : out.length < 3) (tries : Nat) :
    Drawn real (if candidate draw tries ∈ out then out else out ++ [candidate draw tries]) := by
  split
  · exact drawn
  · next fresh =>
    obtain ⟨others, rfl, six⟩ := drawn.first
    refine ⟨⟨others ++ [candidate draw tries], rfl, ?_⟩, ?_, ?_⟩
    · intro other member
      rcases mem_append.mp member with before | last
      · exact six other before
      · rw [mem_singleton.mp last]
        exact candidate_sixDigits draw tries
    · exact nodup_append.mpr ⟨drawn.nodup, (by simp), by
        rintro one before other last rfl
        exact fresh (mem_singleton.mp last ▸ before)⟩
    · rw [length_append, length_singleton]
      omega

theorem drawOthers_ends {fuel tries : Nat} (full : ¬ out.length < 3) :
    drawOthers draw fuel tries out = some out := by
  cases fuel <;> simp [drawOthers, full]

theorem drawOthers_add (drawn : Drawn real out) (count fuel tries : Nat) :
    ∃ later, Drawn real later ∧
      drawOthers draw (count + fuel) tries out = drawOthers draw fuel (tries + count) later := by
  induction count generalizing tries out with
  | zero => exact ⟨out, drawn, by rw [Nat.zero_add, Nat.add_zero]⟩
  | succ count ih =>
    by_cases open_ : out.length < 3
    · obtain ⟨later, stillDrawn, same⟩ := ih (drawn.try_ open_ tries) (tries + 1)
      refine ⟨later, stillDrawn, ?_⟩
      rw [Nat.add_right_comm, drawOthers, if_pos open_, same, Nat.add_right_comm, Nat.add_assoc]
    · exact ⟨out, drawn, by rw [drawOthers_ends open_, drawOthers_ends open_]⟩

theorem drawOthers_drawn {fuel tries : Nat} {done : List String} (drawn : Drawn real out)
    (ends : drawOthers draw fuel tries out = some done) : Drawn real done ∧ done.length = 3 := by
  obtain ⟨later, laterDrawn, same⟩ := @drawOthers_add real draw out drawn fuel 0 tries
  rw [Nat.add_zero, ends, drawOthers] at same
  split at same
  · cases same
  · next full =>
    cases same
    exact ⟨laterDrawn, Nat.le_antisymm laterDrawn.short (Nat.le_of_not_lt full)⟩

theorem counted_ends (drawn : Drawn real out) : ∃ done, drawOthers draw 3 64 out = some done := by
  have first : candidate draw 64 = "506816" :=
    show sixDigits (64 * 7919 % 1000000) = _ by decide +kernel
  have second : candidate draw 65 = "514735" :=
    show sixDigits (65 * 7919 % 1000000) = _ by decide +kernel
  have third : candidate draw 66 = "522654" :=
    show sixDigits (66 * 7919 % 1000000) = _ by decide +kernel
  obtain ⟨others, rfl, -⟩ := drawn.first
  rcases others with _ | ⟨other, _ | ⟨another, rest⟩⟩
  · by_cases isFirst : "506816" = real
    · subst isFirst
      simp [drawOthers, first, second, third]
    · by_cases isSecond : "514735" = real
      · subst isSecond
        simp [drawOthers, first, second, third]
      · simp [drawOthers, first, second, isFirst, isSecond]
  · by_cases taken : "506816" = real ∨ "506816" = other
    · by_cases takenToo : "514735" = real ∨ "514735" = other
      · have free : ¬ ("522654" = real ∨ "522654" = other) := by
          rcases taken with rfl | rfl <;> rcases takenToo with same | same <;>
            first | exact absurd same (by decide) | (subst same; decide)
        simp [drawOthers, first, second, third, taken, takenToo, free]
      · simp [drawOthers, first, second, taken, takenToo]
    · simp [drawOthers, first, taken]
  · exact ⟨_, drawOthers_ends (by simp only [length_cons]; omega)⟩

theorem swapFirst_spec (real one two : String) (place : Nat) (below : place < 3) :
    let out := swapFirst [real, one, two] place
    out.Perm [real, one, two] ∧ out[place]? = some real ∧
      ∀ i other, i ≠ place → out[i]? = some other → other = one ∨ other = two := by
  obtain rfl | rfl | rfl : place = 0 ∨ place = 1 ∨ place = 2 := by omega
  · refine ⟨.refl _, rfl, fun i other elsewhere found => ?_⟩
    rcases i with _ | _ | _ | i <;> simp_all [swapFirst]
  · refine ⟨.swap .., rfl, fun i other elsewhere found => ?_⟩
    rcases i with _ | _ | _ | i <;> simp_all [swapFirst]
  · refine ⟨reverse_perm [real, one, two], rfl, fun i other elsewhere found => ?_⟩
    rcases i with _ | _ | _ | i <;> simp_all [swapFirst]

/--
Whatever the source returns, what the loop ends with is three different numbers, the real one
in its place, and the loop ends after 67 tries at most.
-/
theorem choicesFrom_three (real : String) (draw : Nat → UInt32) :
    (∀ fuel out, choicesFrom real draw fuel = some out →
      out.length = 3 ∧ out.Nodup ∧ out[(draw 0).toNat % 3]? = some real ∧
        ∀ i other, i ≠ (draw 0).toNat % 3 → out[i]? = some other → SixDigits other) ∧
    ∃ out, choicesFrom real draw 67 = some out := by
  have start : Drawn real [real] := ⟨⟨[], rfl, nofun⟩, by simp, by simp⟩
  constructor
  · intro fuel out made
    obtain ⟨done, ends, rfl⟩ := Option.map_eq_some_iff.mp made
    obtain ⟨drawn, three⟩ := drawOthers_drawn start ends
    obtain ⟨others, rfl, six⟩ := drawn.first
    obtain ⟨one, two, rfl⟩ : ∃ one two, others = [one, two] :=
      length_eq_two.mp (Nat.succ.inj three)
    have swapped := swapFirst_spec real one two ((draw 0).toNat % 3) (Nat.mod_lt _ (by decide))
    generalize swapFirst (real :: [one, two]) ((draw 0).toNat % 3) = out at swapped ⊢
    obtain ⟨perm, placed, others⟩ := swapped
    refine ⟨perm.length_eq, perm.nodup_iff.mpr drawn.nodup, placed, ?_⟩
    intro i other elsewhere found
    rcases others i other elsewhere found with rfl | rfl
    · exact six _ (by simp)
    · exact six _ (by simp)
  · obtain ⟨later, drawn, same⟩ := @drawOthers_add real draw [real] start 64 3 0
    obtain ⟨done, ends⟩ := @counted_ends real draw later drawn
    exact ⟨_, congrArg (Option.map _) (same.trans ends)⟩

/-- A source that always returns the real number leaves the counted ones. -/
example : choicesFrom "000007" (fun _ => 7) 66 = some ["506816", "000007", "514735"] := by
  decide +kernel

end HopsFormal.Pairing
