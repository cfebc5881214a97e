import HopsFormal.Macos.Crossings
import Mathlib.Algebra.Ring.Int.Defs

/-!
# Taps that are enabled again

A tap is enabled again only in answer to a notice of the system.  The guard then knows of every
notice there was, because none is left unanswered while the taps are there; and what the checks
found last is in the grants.
-/

namespace HopsFormal.Macos

open Capture (CaptureEvent Position)
open List Lib

variable {F : Type}

/-! ## Notices and checks -/

/-- A notice that the system disabled a tap: which one, why, and when. -/
def Act.notice : Act F → Option (TapKind × Disabled × Nat)
  | .event kind seen now _ _ => seen.disabled.map fun why => (kind, why, now)
  | _ => none

/-- When either tap timed out. -/
def Act.timeout (act : Act F) : Option Nat :=
  match act.notice with
  | some (_, .timeout, now) => some now
  | _ => none

def Act.listenUserInput (act : Act F) : Option Nat :=
  match act.notice with
  | some (.listen, .userInput, now) => some now
  | _ => none

/-- Secure input disabled the active tap. -/
def Act.Secures (act : Act F) : Prop := ∃ now, act.notice = some (.active, .userInput, now)

/-- What the last check that asked about each permission found. -/
def found (acts : List (Act F)) : Grants.Found :=
  acts.foldl (fun found act =>
    match act with
    | .record asked missing => found.record asked missing
    | _ => found) fun _ => none

/-- Nothing known of so far is a reason not to enable a tap again. -/
structure Warranted (past : List (Act F)) : Prop where
  granted : ∀ permission, found past permission ≠ some true
  unsecured : ∀ act ∈ past, ¬act.Secures
  timeouts : ∀ start, inSpan start reenableWindow (past.filterMap Act.timeout) ≤ reenables
  userInputs : ∀ start,
    inSpan start listenReenableWindow (past.filterMap Act.listenUserInput) ≤ listenReenables

namespace Core

/-! ## What is no notice -/

/-- A step that enables no tap, and leaves the guard and the grants. -/
structure Plain (core next : Core F) : Prop where
  guard : next.guard = core.guard
  grants : next.grants = core.grants
  halted : core.halted = true → next.halted = true
  did : ∃ new, next.did = core.did ++ new ∧ ∀ kind, .reenable kind ∉ new

namespace Plain

variable {core next last : Core F}

theorem refl (core : Core F) : Plain core core :=
  ⟨rfl, rfl, id, [], by simp, fun kind => not_mem_nil⟩

theorem trans (first : Plain core next) (second : Plain next last) : Plain core last := by
  obtain ⟨new, whole, none⟩ := first.did
  obtain ⟨more, rest, none'⟩ := second.did
  refine ⟨second.guard.trans first.guard, second.grants.trans first.grants,
    fun halted => second.halted (first.halted halted), new ++ more, ?_, fun kind member => ?_⟩
  · rw [rest, whole, append_assoc]
  · rcases mem_append.mp member with early | late
    · exact none kind early
    · exact none' kind late

theorem adds (same : next.guard = core.guard) (granted : next.grants = core.grants)
    (halted : core.halted = true → next.halted = true) {new : List (Did F)}
    (whole : next.did = core.did ++ new) (none : ∀ entry ∈ new, ∀ kind, entry ≠ .reenable kind) :
    Plain core next :=
  ⟨same, granted, halted, new, whole, fun kind member => none _ member kind rfl⟩

theorem tearDown (core : Core F) (why : TearDownWhy) : Plain core (core.tearDown why) := by
  rcases running : core.halted with - | -
  · rw [tearDown_eq running]
    refine adds rfl rfl (fun _ => rfl) (by simp only [append_assoc]; rfl) ?_
    intro entry member kind same
    subst same
    cases under : core.currentPos with
    | none | some pos => simp [under] at member
  · rw [Core.tearDown, if_pos running]
    exact refl core

theorem endCapture (core : Core F) (now : Nat) : Plain core (core.endCapture now) := by
  unfold Core.endCapture
  split
  · exact refl core
  · refine adds rfl rfl id (by simp only [done, append_assoc]; rfl) ?_
    simp

theorem command (core : Core F) (command : TapCommand) (now : Nat) :
    Plain core (core.command command now) := by
  unfold Core.command
  split
  · exact endCapture core now
  · split_ifs
    · exact endCapture core now
    · exact refl core
  · exact tearDown core .halted

section Edges

variable [Add F] [Sub F] [One F]

theorem begin (core : Core F) (pos : Position) (seen : Seen F) (bounds : Bounds F) (now : Nat)
    (granted : Bool) : Plain core (core.begin pos seen bounds now granted) := by
  have asked : Plain core (({ core with taps := (core.taps.installActive granted).2 } : Core F).done
      (.installActive (core.taps.installActive granted).1)) := adds rfl rfl id rfl (by simp)
  unfold Core.begin
  dsimp only
  split
  · refine adds rfl rfl id (by simp only [done, append_assoc]; rfl) ?_
    simp
  · exact asked.trans (tearDown _ _)

variable [LE F] [DecidableLE F]

theorem checkCrossing (core : Core F) (seen : Seen F) (now : Nat) (busy granted : Bool) :
    Plain core (core.checkCrossing seen now busy granted) := by
  unfold Core.checkCrossing
  split
  · exact refl core
  · next pos reached =>
    have cooled : Plain core { core with
        cooldown := core.cooldown.filter fun cooling => now < cooling.2 } :=
      adds rfl rfl id (append_nil _).symm (by simp)
    dsimp only
    split_ifs
    · exact cooled
    · exact cooled.trans (begin _ pos seen _ now granted)

end Edges

variable [IntCast F] (table : UInt16 → Option UInt16)

theorem forward (core : Core F) (pos : Position) (seen : Seen F) :
    Plain core (core.forward table pos seen) := by
  unfold Core.forward
  dsimp only
  have sent : Plain core { core with
      modifierState := (getEvents table seen core.modifierState).modifierState
      did := core.did ++ (getEvents table seen core.modifierState).result.map (.send pos) } :=
    adds rfl rfl id rfl (by simp)
  split_ifs
  · split
    · exact sent.trans (adds rfl rfl id rfl (by simp))
    · exact sent
  · exact sent

end Plain

/-! ## What the guard knows -/

/-- The guard has every notice there was. -/
structure Guarded (past : List (Act F)) (guard : TapGuard) : Prop where
  timeouts : ∀ now, (∀ time ∈ past.filterMap Act.now, time ≤ now) →
    Limited reenables reenableWindow (past.filterMap Act.timeout) guard.timeouts now
  userInputs : ∀ now, (∀ time ∈ past.filterMap Act.now, time ≤ now) →
    Limited listenReenables listenReenableWindow (past.filterMap Act.listenUserInput)
      guard.listenUserInputs now
  unsecured : ∀ act ∈ past, ¬act.Secures

namespace Guarded

variable {past : List (Act F)} {guard : TapGuard} {act : Act F}

theorem nothing : Guarded ([] : List (Act F)) .start where
  timeouts now _ := Limited.nothing reenables reenableWindow now
  userInputs now _ := Limited.nothing listenReenables listenReenableWindow now
  unsecured act member := by cases member

theorem quiet (guarded : Guarded past guard) (silent : act.notice = none) :
    Guarded (past ++ [act]) guard := by
  have early : ∀ now, (∀ time ∈ (past ++ [act]).filterMap Act.now, time ≤ now) →
      ∀ time ∈ past.filterMap Act.now, time ≤ now := by
    intro now after time member
    rw [filterMap_append] at after
    exact after time (mem_append_left _ member)
  refine ⟨fun now after => ?_, fun now after => ?_, ?_⟩
  · rw [filterMap_append, filterMap_cons_none (by rw [Act.timeout, silent])]
    simpa using guarded.timeouts now (early now after)
  · rw [filterMap_append, filterMap_cons_none (by rw [Act.listenUserInput, silent])]
    simpa using guarded.userInputs now (early now after)
  · intro other member
    rcases mem_append.mp member with before | last
    · exact guarded.unsecured other before
    · rw [mem_singleton.mp last]
      rintro ⟨now, secures⟩
      cases silent.symm.trans secures

/-- A notice that is within its limit is one more of those the guard has. -/
theorem answered (guarded : Guarded past guard) {kind : TapKind} {why : Disabled} {now : Nat}
    {missing : Option (List Permission)} {next : TapGuard}
    (notice : act.notice = some (kind, why, now)) (time : act.now = some now)
    (ordered : ∀ time ∈ past.filterMap Act.now, time ≤ now)
    (again : guard.onDisabled kind why now missing = (.reEnable, next)) :
    Guarded (past ++ [act]) next := by
  have later : ∀ after, (∀ time ∈ (past ++ [act]).filterMap Act.now, time ≤ after) →
      (∀ time ∈ past.filterMap Act.now, time ≤ after) ∧ now ≤ after := by
    intro after bound
    rw [filterMap_append] at bound
    refine ⟨fun time member => bound time (mem_append_left _ member), ?_⟩
    exact bound now (mem_append_right _ (by simp [time]))
  have kept : ¬act.Secures → ∀ other ∈ past ++ [act], ¬other.Secures := by
    intro spared other member
    rcases mem_append.mp member with before | last
    · exact guarded.unsecured other before
    · exact mem_singleton.mp last ▸ spared
  obtain ⟨-, ⟨rfl, rfl, within, rfl⟩ | ⟨rfl, within, rfl⟩⟩ := TapGuard.onDisabled_reEnable again
  · refine ⟨fun after bound => ?_, fun after bound => ?_, kept ?_⟩
    · rw [filterMap_append, filterMap_cons_none (by rw [Act.timeout, notice])]
      simpa using guarded.timeouts after (later after bound).1
    · have told : act.listenUserInput = some now := by rw [Act.listenUserInput, notice]
      rw [filterMap_append, filterMap_cons_some told]
      exact ((guarded.userInputs now ordered).let_through (by decide) within).wait
        (later after bound).2
    · rintro ⟨at_, secures⟩
      cases notice.symm.trans secures
  · refine ⟨fun after bound => ?_, fun after bound => ?_, kept ?_⟩
    · have told : act.timeout = some now := by rw [Act.timeout, notice]
      rw [filterMap_append, filterMap_cons_some told]
      exact ((guarded.timeouts now ordered).let_through (by decide) within).wait
        (later after bound).2
    · have untold : act.listenUserInput = none := by
        rw [Act.listenUserInput, notice]
        cases kind <;> rfl
      rw [filterMap_append, filterMap_cons_none untold]
      simpa using guarded.userInputs after (later after bound).1
    · rintro ⟨at_, secures⟩
      cases notice.symm.trans secures

end Guarded

/-- The grants are what the checks found, and while the taps are there the guard has every notice. -/
structure Watched (past : List (Act F)) (core : Core F) : Prop where
  grants : core.grants.Tells (found past)
  guarded : core.halted = false → Guarded past core.guard

theorem found_concat {past : List (Act F)} {act : Act F}
    (unasked : ∀ asked missing, act ≠ .record asked missing) :
    found (past ++ [act]) = found past := by
  rw [found, foldl_append, found]
  cases act with
  | record asked missing => exact absurd rfl (unasked asked missing)
  | event | command | share => rfl

/-- A notice either enables its tap again, or takes every tap down. -/
theorem onDisabled_cases (core : Core F) (kind : TapKind) (why : Disabled) (now : Nat) :
    (∃ guard, core.guard.onDisabled kind why now core.grants.missing = (.reEnable, guard) ∧
      core.onDisabled kind why now =
        ({ core with guard := guard }.done (.reenable kind)).done .recheck) ∨
    ∃ guard, (core.onDisabled kind why now).halted = true ∧
      Plain { core with guard := guard } (core.onDisabled kind why now) := by
  unfold onDisabled
  rcases core.guard.onDisabled kind why now core.grants.missing with ⟨action, guard⟩
  cases action with
  | reEnable => exact .inl ⟨guard, rfl, rfl⟩
  | tearDown reason =>
    exact .inr ⟨guard, tearDown_halted _ reason,
      (Plain.tearDown _ reason).trans (.adds rfl rfl id rfl (by simp))⟩

theorem watched_start (shared : Shared F) : Watched [] (start shared) where
  grants := Grants.tells_start
  guarded _ := .nothing

/-! ## Notices that are answered -/

variable [IntCast F] [Add F] [Sub F] [One F] [LE F] [DecidableLE F] (table : UInt16 → Option UInt16)

/-- A tap is enabled again by a step. -/
def Reenables (core : Core F) (act : Act F) (kind : TapKind) : Prop :=
  .reenable kind ∈ (core.step table act).did.drop core.did.length

/-- What a step can do: what no notice asks for, a record, or the answer to a notice. -/
inductive Steps (core : Core F) : Act F → Core F → Prop where
  | plain {act : Act F} {next : Core F} (plain : Plain core next)
      (unasked : ∀ asked missing, act ≠ .record asked missing)
      (settled : core.halted = true ∨ act.notice = none) : Steps core act next
  | recorded (asked missing : List Permission) :
      Steps core (.record asked missing) { core with grants := core.grants.record asked missing }
  | notified {act : Act F} {kind : TapKind} {why : Disabled} {now : Nat}
      (running : core.halted = false) (notice : act.notice = some (kind, why, now))
      (time : act.now = some now) :
      Steps core act ((core.onDisabled kind why now).done (.answer .keep))

theorem steps (core : Core F) (act : Act F) : Steps core act (core.step table act) := by
  cases act with
  | command command now => exact .plain (.command core command now) (by simp) (.inr rfl)
  | record asked missing => exact .recorded asked missing
  | share shared =>
    exact .plain (.adds rfl rfl id (append_nil _).symm (by simp)) (by simp) (.inr rfl)
  | event kind seen now busy granted =>
    have answered : ∀ (next : Core F) verdict, Plain next (next.done (.answer verdict)) :=
      fun next verdict => .adds rfl rfl id rfl (by simp)
    rw [step_event]
    unfold onEvent
    rcases running : core.halted with - | -
    · rw [if_neg Bool.false_ne_true]
      cases why : seen.disabled with
      | some why_ =>
        refine .notified running ?_ rfl
        rw [Act.notice, why]
        rfl
      | none =>
        refine .plain ?_ (by simp) (.inr (by rw [Act.notice, why]; rfl))
        dsimp only
        split
        · exact (Plain.forward table core _ seen).trans (answered _ _)
        · exact answered _ _
        · split_ifs
          · exact (Plain.checkCrossing core seen now busy granted).trans (answered _ _)
          · exact answered _ _
        · exact answered _ _
    · rw [if_pos rfl]
      exact .plain (answered _ _) (by simp) (.inl running)


/-! ## Runs -/

namespace Watched

variable {past : List (Act F)} {core : Core F} {act : Act F}

theorem step (watched : Watched past core)
    (ordered : ∀ now, act.now = some now → ∀ time ∈ past.filterMap Act.now, time ≤ now) :
    Watched (past ++ [act]) (core.step table act) := by
  generalize after : core.step table act = next
  cases after ▸ steps table core act with
  | plain plain unasked settled =>
    refine ⟨?_, fun running => ?_⟩
    · rw [plain.grants, found_concat unasked]
      exact watched.grants
    · have ran : core.halted = false := by
        by_contra halted
        rw [Bool.not_eq_false] at halted
        cases running.symm.trans (plain.halted halted)
      rw [plain.guard]
      exact (watched.guarded ran).quiet (settled.resolve_left (by simp [ran]))
  | recorded asked missing =>
    refine ⟨?_, fun running => (watched.guarded running).quiet rfl⟩
    rw [found, foldl_append]
    exact Grants.tells_record watched.grants asked missing
  | @notified _ kind why now running notice time =>
    have unasked : ∀ asked missing, act ≠ .record asked missing := by
      rintro asked missing rfl
      cases time
    rcases onDisabled_cases core kind why now with ⟨guard, again, whole⟩ | ⟨guard, halted, plain⟩
    · rw [whole]
      refine ⟨?_, fun _ => ?_⟩
      · rw [found_concat unasked]
        exact watched.grants
      · exact (watched.guarded running).answered notice time (ordered now time) again
    · refine ⟨?_, fun runs => ?_⟩
      · rw [found_concat unasked]
        exact plain.grants ▸ watched.grants
      · cases halted.symm.trans runs

/-- What is enabled again is so with nothing known against it. -/
theorem warranted (watched : Watched past core)
    (ordered : ∀ now, act.now = some now → ∀ time ∈ past.filterMap Act.now, time ≤ now)
    {kind : TapKind} (again : core.Reenables table act kind) : Warranted (past ++ [act]) := by
  have then_ := watched.step table ordered
  unfold Reenables at again
  generalize after : core.step table act = next at again then_
  have none_new : ∀ {before : Core F}, before.did = core.did → (∃ new,
      next.did = before.did ++ new ∧ ∀ kind, .reenable kind ∉ new) → False := by
    rintro before same ⟨new, whole, none⟩
    rw [whole, same, drop_left] at again
    exact none kind again
  cases after ▸ steps table core act with
  | plain plain unasked settled => exact (none_new rfl plain.did).elim
  | recorded asked missing =>
    rw [drop_length] at again
    cases again
  | @notified _ of why now running notice time =>
    rcases onDisabled_cases core of why now with ⟨guard, enables, whole⟩ | ⟨guard, halted, plain⟩
    · have unasked : ∀ asked missing, act ≠ .record asked missing := by
        rintro asked missing rfl
        cases time
      have guarded := then_.guarded (by rw [whole]; exact running)
      have latest : ∀ time ∈ (past ++ [act]).filterMap Act.now, time ≤ now := by
        intro other member
        rw [filterMap_append, filterMap_cons_some time] at member
        rcases mem_append.mp member with before | last
        · exact ordered now time other before
        · rw [mem_singleton.mp last]
      refine ⟨fun permission missing => ?_, guarded.unsecured, ?_, ?_⟩
      · rw [found_concat unasked, ← Grants.mem_missing watched.grants,
          (TapGuard.onDisabled_reEnable enables).1] at missing
        cases missing
      · exact (guarded.timeouts now latest).few
      · exact (guarded.userInputs now latest).few
    · have answered : Plain (core.onDisabled of why now)
          ((core.onDisabled of why now).done (.answer .keep)) := .adds rfl rfl id rfl (by simp)
      exact (none_new rfl (plain.trans answered).did).elim

end Watched

theorem run_concat (shared : Shared F) (acts : List (Act F)) (act : Act F) :
    run table shared (acts ++ [act]) = step table (run table shared acts) act := by
  rw [run, foldl_append]
  rfl

theorem run_watched (shared : Shared F) {acts : List (Act F)}
    (ordered : (acts.filterMap Act.now).Pairwise (· ≤ ·)) :
    Watched acts (run table shared acts) := by
  induction acts using reverseRecOn with
  | nil => exact watched_start shared
  | append_singleton acts act ih =>
    rw [filterMap_append, pairwise_append] at ordered
    rw [run_concat]
    refine (ih ordered.1).step table fun now time other member => ?_
    exact ordered.2.2 other member now (by simp [time])

/-! ## Nothing once the taps are gone -/

/-- Once the taps are gone events are passed on, and nothing else is done. -/
theorem step_halted {core : Core F} (sound : core.Sound) (halted : core.halted = true)
    (act : Act F) : (core.step table act).halted = true ∧
      ((core.step table act).did = core.did ∨
        (core.step table act).did = core.did ++ [.answer .keep]) := by
  cases act with
  | event kind seen now busy granted =>
    rw [step_event]
    unfold onEvent
    rw [if_pos halted]
    exact ⟨halted, .inr rfl⟩
  | command command now =>
    have still : core.endCapture now = core := by
      rw [endCapture, (sound.gone halted).2]
    cases command with
    | release =>
      rw [step, Core.command, still]
      exact ⟨halted, .inl rfl⟩
    | destroy pos =>
      rw [step, Core.command, still, ite_self]
      exact ⟨halted, .inl rfl⟩
    | halt =>
      rw [step, Core.command, tearDown, if_pos halted]
      exact ⟨halted, .inl rfl⟩
  | record asked missing | share shared => exact ⟨halted, .inl rfl⟩

theorem run_halted {core : Core F} (sound : core.Sound) (halted : core.halted = true)
    (later : List (Act F)) : (later.foldl (step table) core).taps = ⟨false, false⟩ ∧
      ∃ n, (later.foldl (step table) core).did = core.did ++ List.replicate n (.answer .keep) := by
  induction later generalizing core with
  | nil => exact ⟨(sound.gone halted).1, 0, (append_nil _).symm⟩
  | cons act later ih =>
    obtain ⟨still, same | more⟩ := step_halted table sound halted act
    · obtain ⟨taps, n, whole⟩ := ih (sound.step table act) still
      exact ⟨taps, n, by rw [foldl_cons, whole, same]⟩
    · obtain ⟨taps, n, whole⟩ := ih (sound.step table act) still
      refine ⟨taps, n + 1, ?_⟩
      rw [foldl_cons, whole, more, append_assoc]
      rfl

/--
In every run the active tap is there exactly in a crossing, the daemon is told to grab and to let
go in turn, only input of a crossing is taken away or sent on, and nothing is done once the taps
are gone; and no tap is enabled again with anything known against it.
-/
theorem run_warranted (shared : Shared F) (acts : List (Act F))
    (ordered : (acts.filterMap Act.now).Pairwise (· ≤ ·)) :
    ((run table shared acts).taps.active = true ↔
        (run table shared acts).currentPos.isSome = true) ∧
    ((run table shared acts).capturing = true ↔ (run table shared acts).currentPos.isSome = true) ∧
    Alternate (notices (run table shared acts).did) ∧
    (∀ before entry after, (run table shared acts).did = before ++ entry :: after →
      (entry = .answer .drop → (standing before).crossing.isSome = true) ∧
      ∀ pos event, entry = .send pos (.input event) → (standing before).crossing = some pos) ∧
    ((run table shared acts).halted = true → ∀ later,
      (run table shared (acts ++ later)).taps = ⟨false, false⟩ ∧
      ∃ n, (run table shared (acts ++ later)).did =
        (run table shared acts).did ++ List.replicate n (.answer .keep)) ∧
    ∀ before act after kind, acts = before ++ act :: after →
      (run table shared before).Reenables table act kind → Warranted (before ++ [act]) := by
  have sound := Sound.run table shared acts
  refine ⟨by rw [sound.active], by rw [sound.capturing], (alternate_notices sound.orderly).1,
    ?_, ?_, ?_⟩
  · intro before entry after split
    have allowed := sound.orderly before entry after split
    constructor
    · rintro rfl
      exact allowed
    · rintro pos event rfl
      exact allowed
  · intro halted later
    rw [show run table shared (acts ++ later) = later.foldl (step table) (run table shared acts)
      from foldl_append]
    exact run_halted table sound halted later
  · rintro before act after kind rfl again
    rw [filterMap_append, pairwise_append] at ordered
    refine (run_watched table shared ordered.1).warranted table ?_ again
    intro now time other member
    exact ordered.2.2 other member now (by simp [time])

/-! ## A slow callback -/

/-- The pointer crosses, and then both taps time out, three times in all. -/
def slow : List (Act Int) := [
  .event .listen { Seen.new .mouseMoved with dx := -1 } 0 false true,
  .event .active (Seen.new .tapDisabledByTimeout) second false false,
  .event .listen (Seen.new .tapDisabledByTimeout) (2 * second) false false,
  .event .active (Seen.new .tapDisabledByTimeout) (3 * second) false false]

/-- Two timeouts are let pass and the third takes every tap down. -/
theorem run_warranted_slow : Warranted (slow.take 2) ∧ Warranted (slow.take 3) ∧
    Alternate (notices (run (fun _ => none) leftOnly slow).did) ∧
    (run (fun _ => none) leftOnly slow).taps = ⟨false, false⟩ := by
  obtain ⟨-, -, alternate, -, gone, warranted⟩ :=
    run_warranted (fun _ => none) leftOnly slow (by decide)
  refine ⟨?_, ?_, alternate, (gone (by decide) []).1⟩
  · exact warranted (slow.take 1) _ (slow.drop 2) .active rfl (by unfold Reenables; decide)
  · exact warranted (slow.take 2) _ (slow.drop 3) .listen rfl (by unfold Reenables; decide)

end Core

end HopsFormal.Macos
