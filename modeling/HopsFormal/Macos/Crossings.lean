import HopsFormal.Lib.Basic
import HopsFormal.Macos.Core

/-!
# Crossings by what was done

What was done, read from the start, says whether a crossing is under way and where, whether the
daemon was told to hide the cursor, and whether the taps are gone.  Each thing is done only where
that allows it, and the state of the core agrees with it.
-/

namespace HopsFormal.Macos

open Capture (CaptureEvent Position)

variable {F : Type}

/-! ## How things stand -/

structure Standing where
  crossing : Option Position
  grabbed : Bool
  gone : Bool
  deriving DecidableEq

namespace Standing

def start : Standing := ⟨none, false, false⟩

/-- A crossing begins with its first event, and ends as the active tap is removed. -/
def after (standing : Standing) : Did F → Standing
  | .send pos .begin => { standing with crossing := some pos }
  | .removeActive => { standing with crossing := none }
  | .tearDown => { standing with crossing := none, gone := true }
  | .notify .grab => { standing with grabbed := true }
  | .notify .released => { standing with grabbed := false }
  | _ => standing

/-- What may be done next. -/
def Allows (standing : Standing) : Did F → Prop
  | .installActive _ => standing.crossing = none ∧ standing.gone = false
  | .reenable _ => standing.gone = false
  | .send _ .begin => standing.crossing = none ∧ standing.gone = false
  | .send pos (.input _) => standing.crossing = some pos
  | .notify .grab => standing.grabbed = false ∧ standing.gone = false
  | .notify .released => standing.grabbed = true
  | .answer .drop => standing.crossing.isSome = true
  | _ => True

theorem allows_answer {standing : Standing} {verdict : Verdict}
    (dropped : verdict = .drop → standing.crossing.isSome = true) :
    standing.Allows (.answer verdict : Did F) := by
  cases verdict with
  | keep => trivial
  | drop => exact dropped rfl

end Standing

open Standing

def standing (did : List (Did F)) : Standing := did.foldl after .start

@[simp]
theorem standing_append (did more : List (Did F)) :
    standing (did ++ more) = more.foldl after (standing did) := List.foldl_append

theorem standing_concat (did : List (Did F)) (entry : Did F) :
    standing (did ++ [entry]) = (standing did).after entry := standing_append did [entry]

/-- Each thing was done where it may be. -/
def Orderly (did : List (Did F)) : Prop :=
  ∀ before entry after, did = before ++ entry :: after → (standing before).Allows entry

theorem orderly_nil : Orderly ([] : List (Did F)) := by
  intro before entry after split
  cases before <;> cases split

theorem orderly_concat {did : List (Did F)} {entry : Did F} :
    Orderly (did ++ [entry]) ↔ Orderly did ∧ (standing did).Allows entry := by
  constructor
  · intro orderly
    refine ⟨fun before other after split => ?_, orderly did entry [] rfl⟩
    exact orderly before other (after ++ [entry]) (by rw [split, List.append_assoc]; rfl)
  · rintro ⟨orderly, allowed⟩ before other after split
    rcases Lib.split_concat split with ⟨rfl, rfl⟩ | ⟨rest, whole⟩
    · exact allowed
    · exact orderly before other rest whole

/-! ## What the daemon is told -/

def notices (did : List (Did F)) : List ProducerEvent :=
  did.filterMap fun
    | .notify event => some event
    | _ => none

/-- A grab where an even number of notices went before. -/
def turn (before : Nat) : ProducerEvent := if before % 2 = 0 then .grab else .released

/-- Grabbed and let go in turn, the first a grab. -/
def Alternate (told : List ProducerEvent) : Prop :=
  ∀ i event, told[i]? = some event → event = turn i

theorem Alternate.concat {told : List ProducerEvent} (alternate : Alternate told) :
    Alternate (told ++ [turn told.length]) := by
  intro i event found
  rw [List.getElem?_append] at found
  split_ifs at found with inside
  · exact alternate i event found
  · rw [List.getElem?_singleton] at found
    split_ifs at found with last
    have same : i = told.length := by omega
    rw [same]
    exact (Option.some.inj found).symm

theorem alternate_notices {did : List (Did F)} (orderly : Orderly did) :
    Alternate (notices did) ∧ (standing did).grabbed = decide ((notices did).length % 2 = 1) := by
  induction did using List.reverseRecOn with
  | nil => exact ⟨fun i event found => by simp [notices] at found, rfl⟩
  | append_singleton did entry ih =>
    obtain ⟨earlier, allowed⟩ := orderly_concat.mp orderly
    obtain ⟨alternate, grabbed⟩ := ih earlier
    have whole : notices (did ++ [entry]) = notices did ++ notices [entry] :=
      List.filterMap_append
    rw [whole, standing_concat]
    cases entry with
    | notify event =>
      have next : event = turn (notices did).length := by
        cases event with
        | grab =>
          have even := grabbed.symm.trans allowed.1
          rw [decide_eq_false_iff_not] at even
          rw [turn, if_pos (by omega)]
        | released =>
          have odd := grabbed.symm.trans allowed
          rw [decide_eq_true_eq] at odd
          rw [turn, if_neg (by omega)]
      have one : notices [(Did.notify event : Did F)] = [turn (notices did).length] := by
        rw [← next]
        rfl
      rw [one]
      refine ⟨alternate.concat, ?_⟩
      cases event with
      | grab =>
        have even := grabbed.symm.trans allowed.1
        rw [decide_eq_false_iff_not] at even
        rw [List.length_append, List.length_singleton]
        exact (decide_eq_true (by omega)).symm
      | released =>
        have odd := grabbed.symm.trans allowed
        rw [decide_eq_true_eq] at odd
        rw [List.length_append, List.length_singleton]
        exact (decide_eq_false (by omega)).symm
    | send pos event =>
      have none : notices [(Did.send pos event : Did F)] = [] := rfl
      rw [none, List.append_nil]
      cases event <;> exact ⟨alternate, grabbed⟩
    | installActive | removeActive | reenable | tearDown | warp | discardPending | fault
    | recheck | answer =>
      rw [show notices [_] = [] from rfl, List.append_nil]
      exact ⟨alternate, grabbed⟩

/-! ## The core agrees with what was done -/

namespace Core

theorem step_event [IntCast F] [Add F] [Sub F] [One F] [LE F] [DecidableLE F]
    (table : UInt16 → Option UInt16) (core : Core F) (kind : TapKind) (seen : Seen F) (now : Nat)
    (busy granted : Bool) : core.step table (.event kind seen now busy granted) =
      (core.onEvent table kind seen now busy granted).2.done
        (.answer (core.onEvent table kind seen now busy granted).1) := rfl

structure Sound (core : Core F) : Prop where
  orderly : Orderly core.did
  standing : standing core.did = ⟨core.currentPos, core.currentPos.isSome, core.halted⟩
  active : core.taps.active = core.currentPos.isSome
  capturing : core.capturing = core.currentPos.isSome
  gone : core.halted = true → core.taps = ⟨false, false⟩ ∧ core.currentPos = none

variable {core : Core F}

theorem tearDown_eq {why : TearDownWhy} (running : core.halted = false) :
    core.tearDown why = { core with
      halted := true
      taps := ⟨false, false⟩
      capturing := false
      currentPos := none
      enterPosition := core.currentPos.elim core.enterPosition fun _ => none
      did := core.did ++ [.tearDown] ++
        (core.currentPos.elim [] fun _ => [.notify .released]) ++
        (why.fault.map Did.fault).toList } := by
  obtain ⟨shared, taps, grants, capturing, guard, currentPos, beganAt, cooldown, enterPosition,
    modifierState, halted, did⟩ := core
  cases running
  unfold tearDown
  cases currentPos with
  | none | some pos => cases why.fault <;> simp [done, Taps.tearDown]

theorem tearDown_halted (core : Core F) (why : TearDownWhy) :
    (core.tearDown why).halted = true := by
  rcases running : core.halted with - | -
  · rw [tearDown_eq running]
  · rw [tearDown, if_pos running]
    exact running

namespace Sound

theorem start (shared : Shared F) : Sound (Core.start shared) where
  orderly := orderly_nil
  standing := rfl
  active := rfl
  capturing := rfl
  gone halted := by cases halted

section

variable (sound : core.Sound)
include sound

theorem done {entry : Did F} (allowed : (Macos.standing core.did).Allows entry)
    (same : (Macos.standing core.did).after entry = Macos.standing core.did) :
    (core.done entry).Sound where
  orderly := orderly_concat.mpr ⟨sound.orderly, allowed⟩
  standing := by rw [Core.done, standing_concat, same, sound.standing]
  active := sound.active
  capturing := sound.capturing
  gone := sound.gone

theorem tearDown (why : TearDownWhy) : (core.tearDown why).Sound := by
  rcases running : core.halted with - | -
  · rw [tearDown_eq running]
    have stands := sound.standing
    have down : Orderly (core.did ++ [.tearDown]) := orderly_concat.mpr ⟨sound.orderly, trivial⟩
    -- the notice of the end is owed if a crossing was under way
    have ended : ∀ did : List (Did F), Orderly did → Macos.standing did = ⟨none, false, true⟩ →
        Sound { core with
          halted := true
          taps := ⟨false, false⟩
          capturing := false
          currentPos := none
          enterPosition := core.currentPos.elim core.enterPosition fun _ => none
          did := did ++ (why.fault.map Did.fault).toList } := by
      intro did orderly standing
      cases why.fault with
      | none => exact ⟨by simpa using orderly, by simpa using standing, rfl, rfl, fun _ => ⟨rfl, rfl⟩⟩
      | some error =>
        refine ⟨orderly_concat.mpr ⟨orderly, trivial⟩, ?_, rfl, rfl, fun _ => ⟨rfl, rfl⟩⟩
        exact (standing_concat _ _).trans standing
    apply ended
    · cases under : core.currentPos with
      | none => exact (List.append_nil (core.did ++ [.tearDown])).symm ▸ down
      | some pos =>
        refine orderly_concat.mpr ⟨down, ?_⟩
        rw [standing_concat, stands, under]
        rfl
    · cases under : core.currentPos with
      | none | some pos => simp [stands, under, after]
  · rw [Core.tearDown, if_pos running]
    exact sound

theorem onDisabled (running : core.halted = false) (kind : TapKind) (why : Disabled) (now : Nat) :
    (core.onDisabled kind why now).Sound := by
  have stands := sound.standing
  rw [running] at stands
  have guarded : ∀ guard, ({ core with guard := guard } : Core F).Sound := fun guard =>
    ⟨sound.orderly, sound.standing, sound.active, sound.capturing, sound.gone⟩
  refine done ?_ trivial rfl
  split
  · refine (guarded _).done ?_ rfl
    exact congrArg Standing.gone stands
  · exact (guarded _).tearDown _

theorem endCapture (now : Nat) : (core.endCapture now).Sound := by
  unfold Core.endCapture
  split
  · exact sound
  · next pos under =>
    have stands := sound.standing
    rw [under] at stands
    have running : core.halted = false := by
      by_contra halted
      rw [Bool.not_eq_false] at halted
      cases under.symm.trans (sound.gone halted).2
    refine ⟨?_, ?_, rfl, rfl, fun halted => by cases running.symm.trans halted⟩
    · refine orderly_concat.mpr ⟨orderly_concat.mpr ⟨orderly_concat.mpr
        ⟨sound.orderly, trivial⟩, trivial⟩, ?_⟩
      simp [Core.done, stands, after, Allows]
    · simp [Core.done, stands, after]

theorem command (command : TapCommand) (now : Nat) : (core.command command now).Sound := by
  unfold Core.command
  split
  · exact sound.endCapture now
  · split_ifs
    · exact sound.endCapture now
    · exact sound
  · exact sound.tearDown .halted

/-- Input of a crossing is sent at its edge. -/
theorem sends {pos : Position} (under : core.currentPos = some pos) {events : List (CaptureEvent F)}
    (input : .begin ∉ events) :
    ({ core with did := core.did ++ events.map (.send pos) } : Core F).Sound := by
  induction events using List.reverseRecOn with
  | nil =>
    rw [List.map_nil, List.append_nil]
    exact sound
  | append_singleton events event ih =>
    rw [List.mem_append, not_or, List.mem_singleton] at input
    have earlier := ih input.1
    rw [List.map_append, List.map_singleton, ← List.append_assoc]
    cases event with
    | begin => exact absurd rfl input.2
    | input event =>
      refine earlier.done ?_ rfl
      have crossing := congrArg crossing earlier.standing
      exact crossing.trans under

end

section Edges

variable [Add F] [Sub F] [One F]

theorem begin (sound : core.Sound) (running : core.halted = false)
    (under : core.currentPos = none) (pos : Position) (seen : Seen F) (bounds : Bounds F)
    (now : Nat) (granted : Bool) : (core.begin pos seen bounds now granted).Sound := by
  have stands := sound.standing
  rw [running, under] at stands
  have inactive : core.taps.active = false := by rw [sound.active, under]; rfl
  unfold Core.begin Taps.installActive
  rw [inactive]
  cases granted with
  | true =>
    refine ⟨?_, ?_, rfl, rfl, fun halted => by cases running.symm.trans halted⟩
    · refine orderly_concat.mpr ⟨orderly_concat.mpr ⟨orderly_concat.mpr ⟨orderly_concat.mpr
        ⟨sound.orderly, ?_⟩, trivial⟩, ?_⟩, ?_⟩
      · rw [stands]
        exact ⟨rfl, rfl⟩
      · simp [Core.done, stands, after, Allows]
      · simp [Core.done, stands, after, Allows]
    · simp [Core.done, stands, after, running]
  | false =>
    have refused : (({ core with taps := { core.taps with active := false } } : Core F).done
        (.installActive false)).Sound := by
      refine ⟨orderly_concat.mpr ⟨sound.orderly, ?_⟩, ?_, ?_, sound.capturing, ?_⟩
      · rw [stands]
        exact ⟨rfl, rfl⟩
      · exact (standing_concat _ _).trans sound.standing
      · exact inactive.symm.trans sound.active
      · intro halted
        cases running.symm.trans halted
    exact refused.tearDown _

variable [LE F] [DecidableLE F]

theorem checkCrossing (sound : core.Sound) (running : core.halted = false)
    (under : core.currentPos = none) (seen : Seen F) (now : Nat) (busy granted : Bool) :
    (core.checkCrossing seen now busy granted).Sound := by
  unfold Core.checkCrossing
  split
  · exact sound
  · next pos reached =>
    have cooled : ∀ cooldown, ({ core with cooldown := cooldown } : Core F).Sound :=
      fun cooldown =>
        ⟨sound.orderly, sound.standing, sound.active, sound.capturing, sound.gone⟩
    have ready := cooled (core.cooldown.filter fun cooling => now < cooling.2)
    dsimp only
    split_ifs
    · exact ready
    · exact ready.begin running under pos seen _ now granted

end Edges

variable [IntCast F] (table : UInt16 → Option UInt16)

theorem forward (sound : core.Sound) {pos : Position} (under : core.currentPos = some pos)
    (seen : Seen F) : (core.forward table pos seen).Sound ∧
      (core.forward table pos seen).currentPos = some pos := by
  have remembered : ∀ mods, ({ core with modifierState := mods } : Core F).Sound := fun mods =>
    ⟨sound.orderly, sound.standing, sound.active, sound.capturing, sound.gone⟩
  have sent := sends (remembered (getEvents table seen core.modifierState).modifierState) under
    (begin_not_mem_getEvents table seen core.modifierState)
  unfold Core.forward
  dsimp only
  split_ifs
  · split
    · exact ⟨sent.done trivial rfl, under⟩
    · exact ⟨sent, under⟩
  · exact ⟨sent, under⟩

variable [Add F] [Sub F] [One F] [LE F] [DecidableLE F]

theorem onEvent (sound : core.Sound) (kind : TapKind) (seen : Seen F) (now : Nat)
    (busy granted : Bool) :
    (core.onEvent table kind seen now busy granted).2.Sound ∧
      ((core.onEvent table kind seen now busy granted).1 = .drop →
        (core.onEvent table kind seen now busy granted).2.currentPos.isSome = true) := by
  unfold Core.onEvent
  rcases running : core.halted with - | -
  · rw [if_neg Bool.false_ne_true]
    split
    · exact ⟨sound.onDisabled running kind _ now, nofun⟩
    · split
      · next pos under =>
        obtain ⟨forwarded, still⟩ := sound.forward table under seen
        refine ⟨forwarded, fun _ => ?_⟩
        rw [still]
        rfl
      · exact ⟨sound, nofun⟩
      · next under =>
        refine ⟨?_, nofun⟩
        split_ifs
        · exact sound.checkCrossing running under seen now busy granted
        · exact sound
      · exact ⟨sound, nofun⟩
  · rw [if_pos rfl]
    exact ⟨sound, nofun⟩

theorem step (sound : core.Sound) (act : Act F) : (core.step table act).Sound := by
  cases act with
  | event kind seen now busy granted =>
    obtain ⟨after, dropped⟩ := sound.onEvent table kind seen now busy granted
    refine after.done (allows_answer fun drops => ?_) rfl
    have crossing := congrArg crossing after.standing
    exact (congrArg Option.isSome crossing).trans (dropped drops)
  | command command now => exact sound.command command now
  | record asked missing | share shared =>
    exact ⟨sound.orderly, sound.standing, sound.active, sound.capturing, sound.gone⟩

theorem run (shared : Shared F) (acts : List (Act F)) : (Core.run table shared acts).Sound := by
  induction acts using List.reverseRecOn with
  | nil => exact start shared
  | append_singleton acts act ih =>
    rw [Core.run, List.foldl_append]
    exact ih.step table act

end Sound

end Core

end HopsFormal.Macos
