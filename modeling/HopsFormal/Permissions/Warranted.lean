import HopsFormal.Permissions.PermissionWatch

/-!
# What a change of permissions rests on

A side counts as having lost a permission once two checks in a row refused it, and as granted once
a check finds what an earlier one found missing.  A check under way when a side starts is kept, and
counts for the new run as if it had been begun in it.
-/

namespace HopsFormal.Permissions

open Function List

/-- A step of the watch, and what it returned. -/
abbrev Entry := Act × Option Change

/-- Whether a check is under way that was begun in a trace, and the checks folded in by it, each
with whether it was begun in it. -/
structure Checks where
  under : Bool
  folded : List (Bool × Answers)

def Checks.after (checks : Checks) : Act → Checks
  | .began => { checks with under := true }
  | .panicked => { checks with under := false }
  | .finished answers _ => ⟨false, checks.folded ++ [(checks.under, answers)]⟩
  | .stopped _ | .started _ _ | .called => checks

def checksOf (trace : List Entry) : Checks :=
  trace.foldl (fun checks entry => checks.after entry.1) ⟨false, []⟩

/-- A side starts or stops. -/
def Act.about (side : Side) : Act → Prop
  | .stopped other => other = side
  | .started other _ => other = side
  | .began | .finished _ _ | .panicked | .called => False

/-- A trace ends with these steps since a side was started. -/
def RunOf (side : Side) (trace during : List Entry) : Prop :=
  ∃ early told, trace = early ++ (.started side true, told) :: during ∧
    ∀ entry ∈ during, ¬entry.1.about side

/-- The last checks folded in by a trace were begun in it and refused a side. -/
def RefusedInARow (side : Side) (count : Nat) (during : List Entry) : Prop :=
  ∃ earlier last, (checksOf during).folded = earlier ++ last ∧ last.length = count ∧
    ∀ check ∈ last, check.1 = true ∧ lost check.2 side ≠ []

/-- A side stops: it says so, or it is found to have lost a permission. -/
def Stops (side : Side) (entry : Entry) : Prop :=
  entry.1 = .stopped side ∨ ∃ missing, entry.2 = some (.revoked side missing)

/-- A check folded in found a permission missing that a side needs. -/
def FoundMissing (side : Side) (entry : Entry) : Prop :=
  ∃ answers restarts, entry.1 = .finished answers restarts ∧
    ∃ permission ∈ side.needs, answers permission = some false

/-- A trace ends with these steps from the one at which a side stopped, and it was not started. -/
def StoppedFor (side : Side) (trace since : List Entry) : Prop :=
  ∃ early stop during, trace = early ++ stop :: during ∧ since = stop :: during ∧
    Stops side stop ∧ ∀ entry ∈ during, ∀ needs, entry.1 ≠ .started side needs

/-- What a change that is returned at the end of a trace rests on. -/
def Warranted (trace : List Entry) (last : Entry) : Change → Prop
  | .revoked side _ => ∃ during, RunOf side (trace ++ [last]) during ∧
      RefusedInARow side refusalsBeforeRevoked during
  | .granted _ => ∃ side since, StoppedFor side trace since ∧
      (∃ entry ∈ since, FoundMissing side entry) ∧
      ∃ answers restarts, last.1 = .finished answers restarts ∧
        ∀ permission ∈ side.needs, answers permission = some true

/--
No check that was under way when a side started comes back while the side runs and finds that it
lost a permission.
-/
def NoneLeftOver (trace : List Entry) : Prop :=
  ∀ before answers restarts told after side during,
    trace = before ++ (.finished answers restarts, told) :: after →
    RunOf side before during → (checksOf during).under = false → lost answers side = []

/-! ## Steps that are added to a trace -/

theorem checksOf_append (trace : List Entry) (entry : Entry) :
    checksOf (trace ++ [entry]) = (checksOf trace).after entry.1 := by
  simp [checksOf]

variable {side : Side} {trace during : List Entry} {entry : Entry} {count : Nat}
  {told : Option Change} {watch : PermissionWatch}

theorem RunOf.append (run : RunOf side trace during) (other : ¬entry.1.about side) :
    RunOf side (trace ++ [entry]) (during ++ [entry]) := by
  obtain ⟨early, told, rfl, alone⟩ := run
  refine ⟨early, told, by simp, fun each there => ?_⟩
  rcases mem_append.mp there with before | last
  · exact alone each before
  · cases mem_singleton.mp last
    exact other

theorem StoppedFor.append {since : List Entry} (stopped : StoppedFor side trace since)
    (other : ∀ needs, entry.1 ≠ .started side needs) :
    StoppedFor side (trace ++ [entry]) (since ++ [entry]) := by
  obtain ⟨early, stop, during, rfl, rfl, stops, none⟩ := stopped
  refine ⟨early, stop, during ++ [entry], by simp, rfl, stops, fun each there => ?_⟩
  rcases mem_append.mp there with before | last
  · exact none each before
  · cases mem_singleton.mp last
    exact other

theorem StoppedFor.now (trace : List Entry) {stop : Entry} (stops : Stops side stop) :
    StoppedFor side (trace ++ [stop]) [stop] :=
  ⟨trace, stop, [], rfl, rfl, stops, by simp⟩

/-- A step that folds in no check. -/
def Act.quiet : Act → Prop
  | .finished _ _ => False
  | .stopped _ | .started _ _ | .began | .panicked | .called => True

theorem folded_quiet {act : Act} (quiet : act.quiet) (checks : Checks) :
    (checks.after act).folded = checks.folded := by
  cases act with
  | finished answers restarts => cases quiet
  | stopped side | started side needs | began | panicked | called => rfl

theorem RefusedInARow.quiet (refused : RefusedInARow side count during) (quiet : entry.1.quiet) :
    RefusedInARow side count (during ++ [entry]) := by
  obtain ⟨earlier, last, folded, length, all⟩ := refused
  exact ⟨earlier, last, by rw [checksOf_append, folded_quiet quiet, folded], length, all⟩

theorem RefusedInARow.none (side : Side) (during : List Entry) : RefusedInARow side 0 during :=
  ⟨_, [], (append_nil _).symm, rfl, by simp⟩

theorem RefusedInARow.another (refused : RefusedInARow side count during) {answers : Answers}
    {restarts : Bool} (under : (checksOf during).under = true) (gone : lost answers side ≠ []) :
    RefusedInARow side (count + 1) (during ++ [(.finished answers restarts, told)]) := by
  obtain ⟨earlier, last, folded, length, all⟩ := refused
  refine ⟨earlier, last ++ [(true, answers)], ?_, by simp [length], fun check there => ?_⟩
  · rw [checksOf_append, ← append_assoc, ← folded]
    change (checksOf during).folded ++ [((checksOf during).under, answers)] = _
    rw [under]
  · rcases mem_append.mp there with before | final
    · exact all check before
    · cases mem_singleton.mp final
      exact ⟨rfl, gone⟩

theorem RefusedInARow.fewer {fewer : Nat} (refused : RefusedInARow side count during)
    (le : fewer ≤ count) : RefusedInARow side fewer during := by
  obtain ⟨earlier, last, folded, length, all⟩ := refused
  refine ⟨earlier ++ last.take (count - fewer), last.drop (count - fewer), ?_, ?_,
    fun check there => all check (mem_of_mem_drop there)⟩
  · rw [append_assoc, take_append_drop, folded]
  · rw [length_drop, length]
    omega

/-! ## What is known of a side -/

/-- What the watch holds of each side rests on the steps taken. -/
structure Known (trace : List Entry) (watch : PermissionWatch) : Prop where
  running : ∀ side count, watch.running side = some count →
    ∃ during, RunOf side trace during ∧ RefusedInARow side count during
  waiting : ∀ side was, watch.waiting side = some was → ∃ since, StoppedFor side trace since ∧
    (was.isSome = true → ∃ entry ∈ since, FoundMissing side entry)
  idle : watch.found = []

/-- A step that is about no side and folds in no check. -/
theorem Known.other (known : Known trace watch) (entry : Entry)
    (apart : ∀ side, ¬entry.1.about side) (quiet : entry.1.quiet) (pending : Option Check) :
    Known (trace ++ [entry]) { watch with pending := pending } where
  running side count runs := by
    obtain ⟨during, run, refused⟩ := known.running side count runs
    exact ⟨_, run.append (apart side), refused.quiet quiet⟩
  waiting side was waits := by
    obtain ⟨since, stopped, found⟩ := known.waiting side was waits
    refine ⟨_, stopped.append fun needs same => apart side (same ▸ rfl), fun some => ?_⟩
    obtain ⟨each, there, missing⟩ := found some
    exact ⟨each, mem_append_left _ there, missing⟩
  idle := known.idle

theorem Known.start (enabled : Bool) : Known [] (.new enabled) where
  running _ _ runs := by cases runs
  waiting _ _ waits := by cases waits
  idle := rfl

theorem Known.stopped (known : Known trace watch) (side : Side) :
    Known (trace ++ [(.stopped side, none)]) (watch.stopped side) where
  running each count runs := by
    unfold PermissionWatch.stopped at runs
    dsimp only at runs
    by_cases own : each = side
    · subst own
      rw [update_self] at runs
      cases runs
    · rw [update_of_ne own] at runs
      obtain ⟨during, run, refused⟩ := known.running each count runs
      exact ⟨_, run.append fun same => own same.symm, refused.quiet trivial⟩
  waiting each was waits := by
    have older : watch.waiting each = some was → ∃ since,
        StoppedFor each (trace ++ [(.stopped side, none)]) since ∧
          (was.isSome = true → ∃ entry ∈ since, FoundMissing each entry) := by
      intro before
      obtain ⟨since, stopped, found⟩ := known.waiting each was before
      refine ⟨_, stopped.append nofun, fun some => ?_⟩
      obtain ⟨entry, there, missing⟩ := found some
      exact ⟨entry, mem_append_left _ there, missing⟩
    have now : Stops side (.stopped side, none) := .inl rfl
    unfold PermissionWatch.stopped at waits
    dsimp only at waits
    split at waits
    · by_cases own : each = side
      · subst own
        rw [update_self] at waits
        cases before : watch.waiting each with
        | none =>
          rw [before] at waits
          cases waits
          exact ⟨_, StoppedFor.now trace now, nofun⟩
        | some held =>
          rw [before] at waits
          cases waits
          exact older before
      · rw [update_of_ne own] at waits
        exact older waits
    · exact older waits
  idle := known.idle

theorem Known.started (known : Known trace watch) (side : Side) (needs : Bool) :
    Known (trace ++ [(.started side needs, none)]) (watch.started side needs) := by
  have next (pending : Option Check) : Known (trace ++ [(.started side needs, none)])
      { watch with
        waiting := Function.update watch.waiting side none
        running := Function.update watch.running side
          (if watch.enabled && needs then some 0 else none)
        pending := pending } := by
    refine ⟨fun each count runs => ?_, fun each was waits => ?_, known.idle⟩
    · dsimp only at runs
      by_cases own : each = side
      · subst own
        rw [update_self] at runs
        split at runs
        · next watched =>
          cases runs
          obtain ⟨-, rfl⟩ := Bool.and_eq_true_iff.mp watched
          exact ⟨[], ⟨trace, none, rfl, by simp⟩, .none each []⟩
        · cases runs
      · rw [update_of_ne own] at runs
        obtain ⟨during, run, refused⟩ := known.running each count runs
        exact ⟨_, run.append fun same => own same.symm, refused.quiet trivial⟩
    · dsimp only at waits
      by_cases own : each = side
      · subst own
        rw [update_self] at waits
        cases waits
      · rw [update_of_ne own] at waits
        obtain ⟨since, stopped, found⟩ := known.waiting each was waits
        refine ⟨_, stopped.append fun needs same => ?_, fun some => ?_⟩
        · cases same
          exact own rfl
        · obtain ⟨entry, there, missing⟩ := found some
          exact ⟨entry, mem_append_left _ there, missing⟩
  exact next _

section Finished

variable {trace : List Entry} {watch : PermissionWatch} {answers : Answers}

theorem Known.refused (known : Known trace watch) {side : Side} {count : Nat}
    (runs : watch.running side = some count) {restarts : Bool} {told : Option Change}
    (fresh : ∀ during, RunOf side trace during → (checksOf during).under = false →
      lost answers side = []) :
    ∃ during, RunOf side (trace ++ [(.finished answers restarts, told)]) during ∧
      RefusedInARow side (if lost answers side = [] then 0 else count + 1) during := by
  obtain ⟨during, run, refused⟩ := known.running side count runs
  refine ⟨_, run.append id, ?_⟩
  split
  · exact .none side _
  · next gone =>
    cases under : (checksOf during).under with
    | true => exact refused.another under gone
    | false => exact absurd (fresh during run under) gone

theorem running_fold (watch : PermissionWatch) (answers : Answers) (restarts : Bool)
    (side : Side) : (watch.fold answers restarts).running side =
      if watch.revokes answers side then none
      else (watch.running side).map fun refused =>
        if lost answers side = [] then 0 else refused + 1 := rfl

theorem waiting_fold (watch : PermissionWatch) (answers : Answers) (restarts : Bool)
    (side : Side) : (watch.fold answers restarts).waiting side =
      if asked answers side then
        ((watch.revoke answers).waiting side).bind fun _ =>
          if missing answers side = ∅ then none else some (some (missing answers side))
      else (watch.revoke answers).waiting side := rfl

theorem Known.finished (known : Known trace watch) (restarts asks : Bool)
    (fresh : ∀ side during, RunOf side trace during → (checksOf during).under = false →
      lost answers side = []) :
    Known (trace ++ [(.finished answers asks, (watch.fold answers restarts).found.head?)])
        { watch.fold answers restarts with found := (watch.fold answers restarts).found.tail } ∧
      ∀ change, (watch.fold answers restarts).found.head? = some change →
        Warranted trace (.finished answers asks, some change) change := by
  have found := @PermissionWatch.found_fold watch answers known.idle restarts
  generalize heads : (watch.fold answers restarts).found.head? = returned
  have told : ∀ side, watch.revokes answers side = true →
      Stops side (.finished answers asks, returned) := by
    intro side revoked
    obtain ⟨-, -, gone, -⟩ := PermissionWatch.revokes_iff.mp revoked
    cases (refused_of_lost gone).1
    rcases found with ⟨-, one⟩ | ⟨kept, -⟩
    · rw [one] at heads
      exact .inr ⟨_, heads.symm⟩
    · rw [revoked] at kept
      cases kept
  -- what waits now waited before, or was taken from those running by this check
  have waited : ∀ side was, (watch.revoke answers).waiting side = some was →
      ∃ since, StoppedFor side (trace ++ [(.finished answers asks, returned)])
          (since ++ [(.finished answers asks, returned)]) ∧
        (watch.revokes answers side = true ∨
          (was.isSome = true → ∃ entry ∈ since, FoundMissing side entry)) := by
    intro side was waits
    cases revoked : watch.revokes answers side with
    | true => exact ⟨[], StoppedFor.now trace (told side revoked), .inl rfl⟩
    | false =>
      have older : watch.waiting side = some was := by
        rw [← waits]
        exact (if_neg (by simp [revoked])).symm
      obtain ⟨since, stopped, missed⟩ := known.waiting side was older
      exact ⟨since, stopped.append nofun, .inr missed⟩
  have missed : ∀ side permission, permission ∈ side.needs → answers permission = some false →
      FoundMissing side (.finished answers asks, returned) := fun side permission needed refused =>
    ⟨answers, asks, rfl, permission, needed, refused⟩
  refine ⟨⟨fun side count runs => ?_, fun side was waits => ?_, ?_⟩, ?_⟩
  · rw [running_fold] at runs
    split at runs
    · cases runs
    · obtain ⟨before, ran, same⟩ := Option.map_eq_some_iff.mp runs
      subst same
      exact known.refused ran (fresh side)
  · rw [waiting_fold] at waits
    split at waits
    · obtain ⟨before, held, still⟩ := Option.bind_eq_some_iff.mp waits
      obtain ⟨since, stopped, -⟩ := waited side before held
      refine ⟨_, stopped, fun _ => ⟨_, mem_append_right _ (.head _), ?_⟩⟩
      split at still
      · cases still
      · next some =>
        rw [missing_eq_empty] at some
        push Not at some
        obtain ⟨permission, needed, refused⟩ := some
        exact missed side permission needed refused
    · obtain ⟨since, stopped, revoked | before⟩ := waited side was waits
      · refine ⟨_, stopped, fun _ => ⟨_, mem_append_right _ (.head _), ?_⟩⟩
        obtain ⟨-, -, gone, -⟩ := PermissionWatch.revokes_iff.mp revoked
        exact missed side _ (accessibility_mem_needs side) (refused_of_lost gone).2
      · refine ⟨_, stopped, fun some => ?_⟩
        obtain ⟨entry, there, was⟩ := before some
        exact ⟨entry, mem_append_left _ there, was⟩
  · dsimp only
    rcases found with ⟨-, one⟩ | ⟨-, nothing | ⟨_, _, _, -, -, -, one⟩⟩
    · rw [one]
      rfl
    · rw [nothing]
      rfl
    · rw [one]
      rfl
  · intro change same
    subst same
    rcases found with ⟨revoked, one⟩ | ⟨-, nothing | ⟨after, side, was, all, none, waits, one⟩⟩
    · rw [one] at heads
      cases heads
      obtain ⟨count, runs, gone, enough⟩ := PermissionWatch.revokes_iff.mp revoked
      obtain ⟨during, run, refused⟩ := known.refused runs (fresh .emulation)
      rw [if_neg gone] at refused
      exact ⟨during, run, refused.fewer enough⟩
    · rw [nothing] at heads
      cases heads
    · rw [one] at heads
      cases heads
      obtain ⟨since, stopped, missing⟩ := known.waiting side (some was) waits
      exact ⟨side, since, stopped, missing rfl, answers, asks, rfl, granted_of_missing all none⟩

end Finished

/-! ## Every run -/

theorem NoneLeftOver.of_append (none : NoneLeftOver (trace ++ [entry])) : NoneLeftOver trace := by
  intro before answers restarts told after side during same
  exact none before answers restarts told (after ++ [entry]) side during (by simp [same])

theorem Known.step {next : PermissionWatch} {act : Act} (known : Known trace watch)
    (stepped : watch.step act = some (next, told)) (fresh : NoneLeftOver (trace ++ [(act, told)])) :
    Known (trace ++ [(act, told)]) next ∧
      ∀ change, told = some change → Warranted trace (act, told) change := by
  cases act with
  | stopped side =>
    cases stepped
    exact ⟨known.stopped side, nofun⟩
  | started side needs =>
    cases stepped
    exact ⟨known.started side needs, nofun⟩
  | began =>
    dsimp only [PermissionWatch.step] at stepped
    split at stepped
    · cases stepped
      exact ⟨known.other (.began, none) (fun _ => id) trivial _, nofun⟩
    · cases stepped
  | panicked =>
    dsimp only [PermissionWatch.step] at stepped
    split at stepped
    · cases stepped
      exact ⟨known.other (.panicked, none) (fun _ => id) trivial _, nofun⟩
    · cases stepped
  | called =>
    dsimp only [PermissionWatch.step] at stepped
    rw [known.idle] at stepped
    cases stepped
  | finished answers asks =>
    dsimp only [PermissionWatch.step] at stepped
    obtain ⟨check, -, folded⟩ := Option.bind_eq_some_iff.mp stepped
    split at folded
    · cases folded
      obtain ⟨after, warranted⟩ := known.finished (check.complete answers && asks) asks
        fun side during run under => fresh trace answers asks _ [] side during rfl run under
      refine ⟨after, fun change same => ?_⟩
      rw [same]
      exact warranted change same
    · cases folded

theorem known_run {enabled : Bool} (ran : Ran enabled trace watch) (fresh : NoneLeftOver trace) :
    Known trace watch := by
  induction ran with
  | start => exact .start enabled
  | step ran stepped ih => exact ((ih fresh.of_append).step stepped fresh).1

/--
If no check that was under way when a side started comes back with a refusal while it runs, then
every change returned is warranted.
-/
theorem changes_warranted (enabled : Bool) (trace : List Entry) (watch next : PermissionWatch)
    (act : Act) (change : Change) (ran : Ran enabled trace watch)
    (stepped : watch.step act = some (next, some change))
    (fresh : NoneLeftOver (trace ++ [(act, some change)])) :
    Warranted trace (act, some change) change :=
  ((known_run ran fresh.of_append).step stepped fresh).2 change rfl

/-- Everything a check asked for of these permissions is refused. -/
def refuses (asked : List Permission) : Answers := fun permission =>
  if permission ∈ asked then some false else none

/-- Emulation runs, a check refuses it, and another one is under way. -/
def refusedOnce : List Entry :=
  [(.started .emulation true, none), (.began, none),
    (.finished (refuses [.accessibility]) false, none), (.began, none)]

/-- Two checks in a row that were begun while emulation runs refuse it. -/
theorem changes_warranted_twice :
    Warranted refusedOnce (.finished (refuses [.accessibility]) false,
      some (.revoked .emulation [.accessibility])) (.revoked .emulation [.accessibility]) := by
  have started : Ran true ([] ++ [(.started .emulation true, none)]) _ := .step .start rfl
  have asked : Ran true ([_] ++ [(.began, none)]) _ := .step started rfl
  have refused : Ran true ([_, _] ++ [(.finished (refuses [.accessibility]) false, none)]) _ :=
    .step asked rfl
  have again : Ran true ([_, _, _] ++ [(.began, none)]) _ := .step refused rfl
  refine changes_warranted true refusedOnce _ _ _ _ again rfl ?_
  rintro before answers restarts told after side during same ⟨early, told', rfl, -⟩ under
  cases early with
  | nil =>
    -- both checks were begun after the start
    rcases during with - | ⟨first, - | ⟨second, - | ⟨third, - | ⟨fourth, rest⟩⟩⟩⟩ <;>
      simp_all [refusedOnce]
    · obtain ⟨-, rfl, -⟩ := same
      cases under
    · obtain ⟨-, rfl, rfl, rfl, -⟩ := same
      cases under
  | cons first early =>
    have there : (Act.started side true, told') ∈
        refusedOnce.tail ++ [(.finished (refuses [.accessibility]) false,
          some (.revoked .emulation [.accessibility]))] := by
      have tails := congrArg List.tail same
      rw [show (refusedOnce.tail ++ [_]) = _ from tails]
      simp
    simp [refusedOnce] at there

/-! ## A check that was under way -/

/-- Emulation starts while a check is under way, which refuses it; another check is begun. -/
def refusedBefore : List Entry :=
  [(.stopped .emulation, none), (.began, none), (.started .emulation true, none),
    (.finished (refuses [.accessibility, .postEvents]) false, none), (.began, none)]

/-- Emulation was started once. -/
theorem during_refusedBefore {early : List Entry}
    (same : refusedBefore ++ [entry] = early ++ (.started .emulation true, told) :: during)
    (other : ¬entry.1.about .emulation) :
    during = [(.finished (refuses [.accessibility, .postEvents]) false, none), (.began, none),
      entry] := by
  rcases early with - | ⟨first, - | ⟨second, - | ⟨third, - | ⟨fourth, - | ⟨fifth, - |
    ⟨sixth, rest⟩⟩⟩⟩⟩⟩ <;> simp [refusedBefore] at same
  · obtain ⟨-, -, -, rfl⟩ := same
    rfl
  · obtain ⟨-, -, -, -, -, rfl, -⟩ := same
    exact absurd rfl other

/-- One of the two checks that took emulation for refused was begun before it started. -/
theorem started_under_a_check :
    ¬∀ (enabled : Bool) (trace : List Entry) (watch next : PermissionWatch) (act : Act)
      (change : Change), Ran enabled trace watch →
      watch.step act = some (next, some change) → Warranted trace (act, some change) change := by
  intro warranted
  have stopped : Ran true ([] ++ [(.stopped .emulation, none)]) _ := .step .start rfl
  have asked : Ran true ([_] ++ [(.began, none)]) _ := .step stopped rfl
  have started : Ran true ([_, _] ++ [(.started .emulation true, none)]) _ := .step asked rfl
  have refused : Ran true ([_, _, _] ++
      [(.finished (refuses [.accessibility, .postEvents]) false, none)]) _ := .step started rfl
  have again : Ran true ([_, _, _, _] ++ [(.began, none)]) _ := .step refused rfl
  have taken := warranted true refusedBefore _ _ (.finished (refuses [.accessibility]) false)
    (.revoked .emulation [.accessibility]) again rfl
  obtain ⟨during, ⟨early, told, same, -⟩, earlier, last, folded, length, all⟩ := taken
  cases during_refusedBefore same id
  have whole : [(false, refuses [.accessibility, .postEvents]), (true, refuses [.accessibility])] =
      earlier ++ last := folded
  have none : earlier = [] := by
    have lengths : 2 = earlier.length + refusalsBeforeRevoked := by
      rw [← length, ← length_append, ← whole]
      rfl
    rw [refusalsBeforeRevoked] at lengths
    exact eq_nil_of_length_eq_zero (by omega)
  subst none
  have first := all (false, refuses [.accessibility, .postEvents]) (by
    rw [← nil_append last, ← whole]
    exact .head _)
  cases first.1

end HopsFormal.Permissions
