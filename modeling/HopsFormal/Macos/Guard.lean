import HopsFormal.Lib.Limits
import HopsFormal.Macos.Seen

/-!
# Disabled taps

The system disables a tap whose callback is slow, or while secure input lasts.  The guard says
whether the tap is enabled again or every tap is taken down; what the last check of each
permission found is kept for it in a word of flags.
-/

namespace HopsFormal.Macos

open Option Lib

inductive TapKind where
  /-- Listen-only, there while capture runs. -/
  | listen
  /-- The filter, there only while the pointer is on a peer. -/
  | active
  deriving DecidableEq

inductive Permission where
  | accessibility
  | inputMonitoring
  deriving DecidableEq

/-- The errors that end the stream. -/
inductive CaptureError where
  | missingPermissions (missing : List Permission)
  | secureInput
  | interrupted (why : String)
  deriving DecidableEq

/-! ## What the checks found -/

/-- Two bits for each permission: it was asked about, and it was missing then. -/
structure Grants where
  bits : Flags 8
  deriving DecidableEq

def grantShift : Permission → Nat
  | .accessibility => 0
  | .inputMonitoring => 2

def bothBits (permission : Permission) : Flags 8 := 0b11 <<< grantShift permission

def askedBit (permission : Permission) : Flags 8 := 0b01 <<< grantShift permission

def missingBit (permission : Permission) : Flags 8 := 0b10 <<< grantShift permission

namespace Grants

def start : Grants := ⟨0⟩

/-- Record what a check found about one permission. -/
def recordOne (missing : List Permission) (bits : Flags 8) (permission : Permission) : Flags 8 :=
  let bits := (bits.remove (bothBits permission)).insert (askedBit permission)
  if permission ∈ missing then bits.insert (missingBit permission) else bits

/-- What is not asked about stays as it was. -/
def record (grants : Grants) (asked missing : List Permission) : Grants :=
  ⟨asked.foldl (recordOne missing) grants.bits⟩

/-- What the checks found missing; none before any check. -/
def missing (grants : Grants) : Option (List Permission) :=
  if grants.bits ≠ 0 then
    some ([.accessibility, .inputMonitoring].filter fun permission =>
      decide (grants.bits &&& missingBit permission ≠ 0))
  else none

/-- What the last check that asked about a permission found: whether it was missing. -/
abbrev Found := Permission → Option Bool

def Found.record (found : Found) (asked missing : List Permission) : Found := fun permission =>
  if permission ∈ asked then some (decide (permission ∈ missing)) else found permission

/-- The word of flags says what the checks found. -/
def Tells (grants : Grants) (found : Found) : Prop :=
  ∀ permission, grants.bits.getLsbD (grantShift permission) = (found permission).isSome ∧
    grants.bits.getLsbD (grantShift permission + 1) = (found permission).getD false

theorem tells_start : start.Tells fun _ => none := by
  intro permission
  cases permission <;> decide

theorem getLsbD_masks (permission other : Permission) :
    ((bothBits permission).getLsbD (grantShift other) = decide (other = permission) ∧
      (bothBits permission).getLsbD (grantShift other + 1) = decide (other = permission)) ∧
    ((askedBit permission).getLsbD (grantShift other) = decide (other = permission) ∧
      (askedBit permission).getLsbD (grantShift other + 1) = false) ∧
    (missingBit permission).getLsbD (grantShift other) = false ∧
      (missingBit permission).getLsbD (grantShift other + 1) = decide (other = permission) := by
  cases permission <;> cases other <;> decide

theorem tells_recordOne {bits : Flags 8} {found : Found} (tells : Tells ⟨bits⟩ found)
    (missing : List Permission) (permission : Permission) :
    Tells ⟨recordOne missing bits permission⟩ (found.record [permission] missing) := by
  intro other
  obtain ⟨⟨clears, clearsNext⟩, ⟨asks, asksNot⟩, missesNot, misses⟩ :=
    getLsbD_masks permission other
  obtain ⟨asked, gone⟩ := tells other
  unfold recordOne Found.record
  by_cases same : other = permission
  · subst same
    by_cases member : other ∈ missing
    · simp [member, clears, clearsNext, asks, asksNot, missesNot, misses]
    · simp [member, clears, clearsNext, asks, asksNot]
  · by_cases member : permission ∈ missing
    · simp [member, same, clears, clearsNext, asks, asksNot, missesNot, misses, asked, gone]
    · simp [member, same, clears, clearsNext, asks, asksNot, asked, gone]

theorem tells_record {grants : Grants} {found : Found} (tells : grants.Tells found)
    (asked missing : List Permission) :
    (grants.record asked missing).Tells (found.record asked missing) := by
  obtain ⟨bits⟩ := grants
  induction asked generalizing bits found with
  | nil => exact tells
  | cons permission rest ih =>
    have recorded := ih _ (tells_recordOne tells missing permission)
    have same : (found.record [permission] missing).record rest missing =
        found.record (permission :: rest) missing := by
      funext other
      unfold Found.record
      by_cases later : other ∈ rest
      · simp [later]
      · simp [later]
    rwa [same] at recorded

theorem mem_missing {grants : Grants} {found : Found} (tells : grants.Tells found)
    (permission : Permission) :
    permission ∈ grants.missing.getD [] ↔ found permission = some true := by
  obtain ⟨asked, gone⟩ := tells permission
  have bit : grants.bits &&& missingBit permission ≠ 0 ↔
      grants.bits.getLsbD (grantShift permission + 1) = true := by
    have mask : missingBit permission = BitVec.twoPow 8 (grantShift permission + 1) := by
      cases permission <;> rfl
    rw [mask, BitVec.and_twoPow]
    split_ifs with set
    · refine iff_of_true ?_ set
      cases permission <;> decide
    · exact iff_of_false (by simp) set
  have missed : grants.bits.getLsbD (grantShift permission + 1) = true ↔
      found permission = some true := by
    rw [gone]
    cases found permission <;> simp
  have any : permission ∈ [Permission.accessibility, .inputMonitoring] := by
    cases permission <;> simp
  rw [← missed, ← bit]
  unfold Grants.missing
  split_ifs with some_
  · rw [getD_some, List.mem_filter, decide_eq_true_eq]
    exact and_iff_right any
  · rw [not_not] at some_
    rw [some_]
    simp

end Grants

/-! ## The guard -/

/-- Why capture's taps were all removed. -/
inductive TearDownWhy where
  | revoked (missing : List Permission)
  | refused
  | secureInput
  | secureInputRepeated
  | timeouts
  | halted
  deriving DecidableEq

/-- What is done with a tap the system disabled. -/
inductive OnDisabled where
  | reEnable
  | tearDown (why : TearDownWhy)
  deriving DecidableEq

/-- Times are counted in nanoseconds. -/
def second : Nat := 1000000000

def millisecond : Nat := 1000000

def reenables : Nat := 2
def reenableWindow : Nat := 30 * second
def listenReenables : Nat := 5
def listenReenableWindow : Nat := 10 * second

/-- The error that ends the stream, if one is reported. -/
def TearDownWhy.fault : TearDownWhy → Option CaptureError
  | .revoked missing => some (.missingPermissions missing)
  | .refused => some (.interrupted "macOS refused the event tap a crossing needs")
  | .secureInput => some .secureInput
  | .secureInputRepeated => some (.interrupted
      s!"secure input disabled the listening event tap more than {listenReenables} times in {listenReenableWindow / second} s")
  | .timeouts => some (.interrupted
      s!"the event tap timed out more than {reenables} times in {reenableWindow / second} s")
  | .halted => none

/-- The times of what was enabled again, the oldest first. -/
structure TapGuard where
  timeouts : List Nat
  listenUserInputs : List Nat
  deriving DecidableEq

namespace TapGuard

def start : TapGuard := ⟨[], []⟩

def onDisabled (guard : TapGuard) (kind : TapKind) (why : Disabled) (now : Nat)
    (missing : Option (List Permission)) : OnDisabled × TapGuard :=
  match missing.filter fun missing => !missing.isEmpty with
  | some missing => (.tearDown (.revoked missing), guard)
  | none =>
    match why, kind with
    | .userInput, .active => (.tearDown .secureInput, guard)
    | .userInput, .listen =>
      let (within, seen) :=
        withinLimit guard.listenUserInputs now listenReenables listenReenableWindow
      (if within then .reEnable else .tearDown .secureInputRepeated,
        { guard with listenUserInputs := seen })
    | .timeout, _ =>
      let (within, seen) := withinLimit guard.timeouts now reenables reenableWindow
      (if within then .reEnable else .tearDown .timeouts, { guard with timeouts := seen })

theorem onDisabled_reEnable {guard next : TapGuard} {kind : TapKind} {why : Disabled} {now : Nat}
    {missing : Option (List Permission)}
    (again : guard.onDisabled kind why now missing = (.reEnable, next)) :
    missing.getD [] = [] ∧
      ((kind = .listen ∧ why = .userInput ∧
        (withinLimit guard.listenUserInputs now listenReenables listenReenableWindow).1 = true ∧
        next = { guard with listenUserInputs :=
          (withinLimit guard.listenUserInputs now listenReenables listenReenableWindow).2 }) ∨
      why = .timeout ∧ (withinLimit guard.timeouts now reenables reenableWindow).1 = true ∧
        next = { guard with
          timeouts := (withinLimit guard.timeouts now reenables reenableWindow).2 }) := by
  unfold onDisabled at again
  split at again
  · cases again
  · next nothing =>
    refine ⟨?_, ?_⟩
    · cases missing with
      | none => rfl
      | some missing =>
        rw [filter_some] at nothing
        split_ifs at nothing with present
        rw [Bool.not_eq_true, Bool.not_eq_false', List.isEmpty_iff] at present
        exact present
    · split at again
      · cases again
      · dsimp only at again
        split_ifs at again with within
        · exact .inl ⟨rfl, rfl, within, (Prod.mk.inj again).2.symm⟩
        · cases again
      · dsimp only at again
        split_ifs at again with within
        · exact .inr ⟨rfl, within, (Prod.mk.inj again).2.symm⟩
        · cases again

end TapGuard

end HopsFormal.Macos
