import Mathlib.Data.Finset.Basic
import Mathlib.Data.Finset.Union
import Mathlib.Logic.Function.Basic

/-!
# Watching the permissions of the two halves of the daemon

A side that is not running is watched until it has every permission it needs, and one that runs is
watched for the permission it would lose.  A check asks for the permissions off the loop; it stays
under way while sides start and stop, and what it finds is folded into whatever waits or runs by
then.
-/

namespace HopsFormal.Permissions

open List

inductive Permission where
  | accessibility
  | inputMonitoring
  | postEvents
  deriving DecidableEq

/-- The half of the daemon that needs permissions. -/
inductive Side where
  | capture
  | emulation
  deriving DecidableEq

def sides : List Side := [.capture, .emulation]

def permissions : List Permission := [.accessibility, .inputMonitoring, .postEvents]

/-- The permissions a side checks before it starts. -/
def Side.needs : Side → List Permission
  | .capture => [.accessibility, .inputMonitoring]
  | .emulation => [.accessibility, .postEvents]

/-- The permissions checked while a side runs, whose loss stops it; capture checks its own. -/
def Side.watchedWhileRunning : Side → List Permission
  | .capture => []
  | .emulation => [.accessibility]

/-- How many checks in a row must refuse a permission before it counts as gone. -/
def refusalsBeforeRevoked : Nat := 2

/-- What is done once a side has what it was missing: exit to be started again, or say so. -/
inductive AfterGrant where
  | exit (granted : List Permission)
  | tell (granted : List Permission)

inductive Change where
  | granted (after : AfterGrant)
  | revoked (side : Side) (missing : List Permission)

/-- Each permission a check asked for, and whether it is granted. -/
abbrev Answers := Permission → Option Bool

/-- A check under way: the permissions it asks for, and the sides that a grant can complete. -/
structure Check where
  needed : List Permission
  armed : List Side

/--
The sides not running, each with what it was found missing, if a check has run since it stopped;
those running, each with how many checks in a row refused it; what was found and not handed over;
and the check under way.
-/
structure PermissionWatch where
  waiting : Side → Option (Option (Finset Permission))
  running : Side → Option Nat
  found : List Change
  pending : Option Check
  enabled : Bool

namespace PermissionWatch

def new (enabled : Bool) : PermissionWatch where
  waiting _ := none
  running _ := none
  found := []
  pending := none
  enabled := enabled

variable (watch : PermissionWatch)

/-- Whether any check has a side to ask about. -/
def watching : Bool :=
  sides.any fun side => (watch.waiting side).isSome ||
    ((watch.running side).isSome && side.watchedWhileRunning ≠ [])

def stopped (side : Side) : PermissionWatch :=
  { watch with
    running := Function.update watch.running side none
    waiting :=
      if watch.enabled then
        Function.update watch.waiting side (some ((watch.waiting side).getD none))
      else watch.waiting }

/-- The check under way is kept as long as any side is watched. -/
def started (side : Side) (needsPermissions : Bool) : PermissionWatch :=
  let next := { watch with
    waiting := Function.update watch.waiting side none
    running := Function.update watch.running side
      (if watch.enabled && needsPermissions then some 0 else none) }
  { next with pending := if next.watching then next.pending else none }

/-- The check that is begun, with what is asked and what a grant can complete. -/
def check : Check where
  needed := permissions.filter fun permission => sides.any fun side =>
    ((watch.waiting side).isSome && permission ∈ side.needs) ||
      ((watch.running side).isSome && permission ∈ side.watchedWhileRunning)
  armed := sides.filter fun side => (watch.waiting side).any Option.isSome

end PermissionWatch

def lost (answers : Answers) (side : Side) : List Permission :=
  side.watchedWhileRunning.filter fun permission => answers permission = some false

/-- Everything a side needs was asked for. -/
def asked (answers : Answers) (side : Side) : Bool :=
  side.needs.all fun permission => (answers permission).isSome

def missing (answers : Answers) (side : Side) : Finset Permission :=
  (side.needs.filter fun permission => answers permission = some false).toFinset

/-- Some side that a grant can complete has everything it needs. -/
def Check.complete (check : Check) (answers : Answers) : Bool :=
  check.armed.any fun side => side.needs.all fun permission => answers permission = some true

namespace PermissionWatch

variable (watch : PermissionWatch)

/-- The check is the last of those in a row that refused a side that runs. -/
def revokes (answers : Answers) (side : Side) : Bool :=
  (watch.running side).any fun refused =>
    lost answers side ≠ [] && refusalsBeforeRevoked ≤ refused + 1

/-- A side refused often enough waits for the grant instead, each side on its own. -/
def revoke (answers : Answers) : PermissionWatch :=
  { watch with
    running := fun side =>
      if watch.revokes answers side then none
      else (watch.running side).map fun refused =>
        if lost answers side = [] then 0 else refused + 1
    waiting := fun side =>
      if watch.revokes answers side then some (some (lost answers side).toFinset)
      else watch.waiting side
    found := watch.found ++
      (sides.filter (watch.revokes answers)).map fun side => .revoked side (lost answers side) }

/-- What a waiting side was missing, now that it has everything. -/
def grantedTo (answers : Answers) (side : Side) : Option (Finset Permission) :=
  if asked answers side ∧ missing answers side = ∅ then (watch.waiting side).join else none

/-- The check is folded into each waiting side, each on its own. -/
def settle (answers : Answers) (restarts : Bool) : Option AfterGrant × PermissionWatch :=
  let waiting (side : Side) : Option (Option (Finset Permission)) :=
    if asked answers side then
      (watch.waiting side).bind fun _ =>
        if missing answers side = ∅ then none else some (some (missing answers side))
    else watch.waiting side
  let granted := permissions.filter fun permission => sides.any fun side =>
    (watch.grantedTo answers side).any (permission ∈ ·)
  let after :=
    if granted = [] then none
    else some (if restarts then AfterGrant.exit granted else .tell granted)
  (after, { watch with waiting := waiting })

/-- What was found, and whether it is handed over at once. -/
def fold (answers : Answers) (restarts : Bool) : PermissionWatch :=
  let (after, settled) := (watch.revoke answers).settle answers restarts
  { settled with
    pending := none
    found := settled.found ++ (after.map Change.granted).toList }

end PermissionWatch

/--
What happens to the watch.  A call of `changed` that is dropped and made again goes on where it
was: `began` and `finished` are the steps it takes between its awaits, and `called` is a call that
is handed what was found before.
-/
inductive Act where
  | stopped (side : Side)
  | started (side : Side) (needsPermissions : Bool)
  | began
  | finished (answers : Answers) (restarts : Bool)
  | panicked
  | called

def PermissionWatch.step (watch : PermissionWatch) :
    Act → Option (PermissionWatch × Option Change)
  | .stopped side => some (watch.stopped side, none)
  | .started side needsPermissions => some (watch.started side needsPermissions, none)
  | .began =>
    if watch.found = [] ∧ watch.watching ∧ watch.pending = none then
      some ({ watch with pending := some watch.check }, none)
    else none
  | .finished answers restarts =>
    watch.pending.bind fun check =>
      if watch.found = [] ∧ watch.watching ∧
          ∀ permission ∈ permissions, (answers permission).isSome ↔ permission ∈ check.needed then
        let folded := watch.fold answers (check.complete answers && restarts)
        some ({ folded with found := folded.found.tail }, folded.found.head?)
      else none
  | .panicked =>
    if watch.found = [] ∧ watch.watching ∧ watch.pending.isSome then
      some ({ watch with pending := none }, none)
    else none
  | .called =>
    match watch.found with
    | [] => none
    | change :: rest => some ({ watch with found := rest }, some change)

/-- A run of the watch, with what each step returned. -/
inductive Ran (enabled : Bool) : List (Act × Option Change) → PermissionWatch → Prop where
  | start : Ran enabled [] (.new enabled)
  | step {trace : List (Act × Option Change)} {watch next : PermissionWatch} {act : Act}
      {told : Option Change} (ran : Ran enabled trace watch)
      (stepped : watch.step act = some (next, told)) : Ran enabled (trace ++ [(act, told)]) next

/-! ## One check does not find both -/

variable {answers : Answers} {side : Side}

theorem mem_lost {permission : Permission} : permission ∈ lost answers side ↔
      permission ∈ side.watchedWhileRunning ∧ answers permission = some false := by
  rw [lost, mem_filter, decide_eq_true_eq]

theorem refused_of_lost (gone : lost answers side ≠ []) :
    side = .emulation ∧ answers .accessibility = some false := by
  obtain ⟨permission, there⟩ := exists_mem_of_ne_nil _ gone
  obtain ⟨watched, refused⟩ := mem_lost.mp there
  cases side with
  | capture => cases watched
  | emulation =>
    cases mem_singleton.mp watched
    exact ⟨rfl, refused⟩

theorem accessibility_mem_needs (side : Side) : .accessibility ∈ side.needs := by
  cases side <;> exact .head _

theorem missing_eq_empty : missing answers side = ∅ ↔
    ∀ permission ∈ side.needs, answers permission ≠ some false := by
  rw [missing, toFinset_eq_empty_iff, filter_eq_nil_iff]
  simp only [decide_eq_true_eq, ne_eq]

theorem asked_iff : asked answers side = true ↔
    ∀ permission ∈ side.needs, (answers permission).isSome = true := by
  rw [asked, List.all_eq_true]

theorem granted_of_missing (all : asked answers side = true) (none : missing answers side = ∅)
    (permission : Permission) (needed : permission ∈ side.needs) :
    answers permission = some true := by
  obtain ⟨answer, given⟩ := Option.isSome_iff_exists.mp (asked_iff.mp all permission needed)
  have refused := missing_eq_empty.mp none permission needed
  cases answer with
  | true => exact given
  | false => exact absurd given refused

namespace PermissionWatch

variable {watch : PermissionWatch} {answers : Answers} {side : Side}

theorem revokes_iff : watch.revokes answers side = true ↔
    ∃ refused, watch.running side = some refused ∧ lost answers side ≠ [] ∧
      refusalsBeforeRevoked ≤ refused + 1 := by
  unfold revokes
  rw [Option.any_eq_true]
  simp only [Bool.and_eq_true, decide_eq_true_eq]

theorem revokes_capture : watch.revokes answers .capture = false := by
  by_contra revoked
  obtain ⟨-, -, gone, -⟩ := revokes_iff.mp (by simpa using revoked)
  cases (refused_of_lost gone).1

theorem grantedTo_eq_some {was : Finset Permission}
    (granted : watch.grantedTo answers side = some was) :
    asked answers side = true ∧ missing answers side = ∅ ∧
      watch.waiting side = some (some was) := by
  unfold grantedTo at granted
  split at granted
  · next complete => exact ⟨complete.1, complete.2, Option.join_eq_some_iff.mp granted⟩
  · cases granted

theorem found_fold (idle : watch.found = []) (restarts : Bool) :
    (watch.revokes answers .emulation = true ∧
      (watch.fold answers restarts).found = [.revoked .emulation (lost answers .emulation)]) ∨
    watch.revokes answers .emulation = false ∧ ((watch.fold answers restarts).found = [] ∨
      ∃ after side was, asked answers side = true ∧ missing answers side = ∅ ∧
        watch.waiting side = some (some was) ∧
        (watch.fold answers restarts).found = [.granted after]) := by
  unfold fold settle
  dsimp only
  generalize granting : (permissions.filter fun permission => sides.any fun side =>
    ((watch.revoke answers).grantedTo answers side).any (permission ∈ ·)) = granted
  cases revoked : watch.revokes answers .emulation with
  | true =>
    obtain ⟨-, -, gone, -⟩ := revokes_iff.mp revoked
    have refused := (refused_of_lost gone).2
    have nothing : granted = [] := by
      rw [← granting, filter_eq_nil_iff]
      intro permission _ some
      obtain ⟨side, -, complete⟩ := List.any_eq_true.mp some
      obtain ⟨was, given, -⟩ := (Option.any_eq_true _ _).mp complete
      obtain ⟨-, none, -⟩ := grantedTo_eq_some given
      exact missing_eq_empty.mp none _ (accessibility_mem_needs side) refused
    refine .inl ⟨rfl, ?_⟩
    simp [nothing, revoke, idle, sides, revokes_capture, revoked]
  | false =>
    refine .inr ⟨rfl, ?_⟩
    have kept : (watch.revoke answers).found = [] := by
      simp [revoke, idle, sides, revokes_capture, revoked]
    have waits (side : Side) : (watch.revoke answers).waiting side = watch.waiting side := by
      cases side with
      | capture => exact if_neg (by simp [revokes_capture])
      | emulation => exact if_neg (by simp [revoked])
    cases granted with
    | nil => exact .inl (by simp [kept])
    | cons first rest =>
      have there : first ∈ permissions.filter fun permission => sides.any fun side =>
          ((watch.revoke answers).grantedTo answers side).any (permission ∈ ·) := by
        rw [granting]
        exact .head _
      obtain ⟨side, -, complete⟩ := List.any_eq_true.mp (mem_filter.mp there).2
      obtain ⟨was, given, -⟩ := (Option.any_eq_true _ _).mp complete
      obtain ⟨all, none, waited⟩ := grantedTo_eq_some given
      rw [waits] at waited
      rw [kept, if_neg (cons_ne_nil first rest)]
      exact .inr ⟨_, side, was, all, none, waited, rfl⟩

end PermissionWatch

end HopsFormal.Permissions
