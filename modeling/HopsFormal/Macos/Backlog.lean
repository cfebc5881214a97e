import HopsFormal.Macos.Stream
import Mathlib.Data.List.Induction

/-!
# The slot and its two sides

The two sides never hold the lock at once, what is to be stored is stored under it, and the slot
is empty for what is sent.  The reader is woken for the channel but not for the slot, so nothing
may be stored for a reader that sleeps.
-/

namespace HopsFormal.Macos

variable {F : Type}

/-! ## How far the two sides are -/

/-- An item the reader took off the channel. -/
def Reader.hand : Reader F → List (Item F)
  | .received item => [item]
  | _ => []

/-- The reader found nothing in the channel, and has not polled again. -/
def Reader.waits : Reader F → Bool
  | .tries | .holds | .parked => true
  | _ => false

/-- It is about to store motion in the slot. -/
def Sender.stores : Sender F → Bool
  | .sends [] _ (some _) _ => true
  | _ => false

def Reader.parks : Reader F → Bool
  | .parked => true
  | _ => false

def Reader.triesLock : Reader F → Bool
  | .tries => true
  | _ => false

namespace Stream

/-! ## Conditions -/

/-- Nothing is stored for a reader that sleeps, and no key or button is overtaken. -/
def Timely (stream : Stream F) : Move F → Prop
  | .tap => stream.sender.stores = true → stream.reader.parks = true → stream.woken = true
  | .read => stream.reader.triesLock = true → stream.sender.locked = false →
      stream.backlog.isSome = true → ∀ item ∈ stream.channel, item.motion?.isSome = true
  | _ => True

instance (stream : Stream F) : ∀ move, Decidable (stream.Timely move)
  | .tap => inferInstanceAs (Decidable (_ → _ → _))
  | .read => inferInstanceAs (Decidable (_ → _ → _ → ∀ item ∈ stream.channel, _))
  | .call _ => inferInstanceAs (Decidable True)
  | .drop => inferInstanceAs (Decidable True)

/-- Each move meets the conditions where it is made. -/
def TimelyFrom [Add F] (stream : Stream F) : List (Move F) → Prop
  | [] => True
  | move :: moves => stream.Timely move ∧ TimelyFrom (stream.step move) moves

instance decidableTimelyFrom [Add F] :
    ∀ (stream : Stream F) (moves : List (Move F)), Decidable (TimelyFrom stream moves)
  | _, [] => inferInstanceAs (Decidable True)
  | stream, move :: moves =>
    have := decidableTimelyFrom (stream.step move) moves
    inferInstanceAs (Decidable (_ ∧ _))

/-! ## Invariants -/

/-- How the two sides stand to the lock and the slot. -/
structure Kept (stream : Stream F) : Prop where
  alone : stream.sender.locked = true → stream.reader.locked = false
  empty : ∀ items counted store locked, stream.sender = .sends items counted store locked →
    stream.backlog = none ∨ locked = false ∧ stream.reader.locked = true
  stores : ∀ items counted motion locked,
    stream.sender = .sends items counted (some motion) locked → locked = true
  ended : ∀ call, stream.sender = .triesTake call ∨ stream.sender = .takes call →
    call.item = none → stream.crossing = none

/-- A sleeping reader is woken by whatever comes, and there is nothing for it yet. -/
structure Awake (stream : Stream F) : Prop where
  drained : stream.reader.waits = true → stream.woken = false →
    stream.waker = true ∧ stream.channel = []
  asleep : stream.reader = .parked → stream.woken = false → stream.backlog = none

theorem kept_start : Kept (start : Stream F) where
  alone locked := by cases locked
  empty items counted store locked at_ := by cases at_
  stores items counted motion locked at_ := by cases at_
  ended call at_ := by rcases at_ with at_ | at_ <;> cases at_

theorem awake_start : Awake (start : Stream F) where
  drained waits := by cases waits
  asleep at_ := by cases at_

/-! ## The lock -/

namespace Kept

variable {stream next : Stream F}

theorem reads (kept : stream.Kept) (sender : next.sender = stream.sender)
    (crossing : next.crossing = stream.crossing)
    (alone : stream.sender.locked = true → next.reader.locked = false)
    (empties : stream.backlog = none ∨ stream.reader.locked = true → next.backlog = none) :
    next.Kept where
  alone locked := alone (sender ▸ locked)
  empty items counted store locked at_ :=
    .inl (empties ((kept.empty items counted store locked (sender ▸ at_)).imp_right And.right))
  stores items counted motion locked at_ := kept.stores items counted motion locked (sender ▸ at_)
  ended call at_ nothing := crossing ▸ kept.ended call (sender ▸ at_) nothing

theorem read (kept : stream.Kept) : stream.read.Kept := by
  unfold Stream.read
  split
  · next reader =>
    have free : stream.reader.locked = false := by rw [reader]; rfl
    split
    · exact kept.reads rfl rfl (fun _ => rfl) fun none => none.resolve_right (by simp [free])
    · exact kept.reads rfl rfl (fun _ => rfl) fun none => none.resolve_right (by simp [free])
  · next item reader =>
    have free : stream.reader.locked = false := by rw [reader]; rfl
    exact kept.reads rfl rfl (fun _ => rfl) fun none => none.resolve_right (by simp [free])
  · next reader =>
    have free : stream.reader.locked = false := by rw [reader]; rfl
    split_ifs with busy
    · exact kept.reads rfl rfl (fun _ => rfl) fun none => none.resolve_right (by simp [free])
    · refine kept.reads rfl rfl (fun locked => absurd locked busy) fun none => ?_
      exact none.resolve_right (by simp [free])
  · split
    · exact kept.reads rfl rfl (fun _ => rfl) fun _ => rfl
    · next nothing => exact kept.reads rfl rfl (fun _ => rfl) fun _ => nothing
  · next reader =>
    have free : stream.reader.locked = false := by rw [reader]; rfl
    exact kept.reads rfl rfl (fun _ => rfl) fun none => none.resolve_right (by simp [free])
  · exact kept

theorem drop (kept : stream.Kept) : stream.drop.Kept := by
  unfold Stream.drop
  split
  case h_3 => exact kept
  all_goals
    next reader =>
      have free : stream.reader.locked = false := by rw [reader]; rfl
      exact kept.reads rfl rfl (fun _ => rfl) fun none => none.resolve_right (by simp [free])

/-- Where the thread of the taps does not send. -/
theorem waits (alone : next.sender.locked = true → next.reader.locked = false)
    (sends : ∀ items counted store locked, next.sender ≠ .sends items counted store locked)
    (takes : ∀ call, next.sender = .triesTake call ∨ next.sender = .takes call →
      call.item = none → next.crossing = none) : next.Kept where
  alone := alone
  empty items counted store locked at_ := absurd at_ (sends items counted store locked)
  stores items counted _ locked at_ := absurd at_ (sends items counted _ locked)
  ended := takes

theorem sends {items : List (Item F)} {counted locked : Bool} {store : Option (Motion F)}
    (sender : next.sender = .sends items counted store locked)
    (alone : locked = true → next.reader.locked = false)
    (empty : next.backlog = none ∨ locked = false ∧ next.reader.locked = true)
    (stores : store.isSome = true → locked = true) : next.Kept where
  alone isLocked := alone (by rw [sender] at isLocked; exact isLocked)
  empty others counts stored lock at_ := by
    cases sender.symm.trans at_
    exact empty
  stores others counts motion lock at_ := by
    cases sender.symm.trans at_
    exact stores rfl
  ended call at_ := by rcases at_ with at_ | at_ <;> cases sender.symm.trans at_

theorem call (kept : stream.Kept) (call : Call F) : (stream.call call).Kept := by
  unfold Stream.call
  split
  · next crossing idle allowed =>
    cases moves : call.item.bind Item.motion? with
    | some moved =>
      refine waits nofun (fun _ _ _ _ at_ => by cases at_) fun other at_ => ?_
      rcases at_ with at_ | at_ <;> cases at_
    | none =>
      refine waits nofun (fun _ _ _ _ at_ => by cases at_) fun other at_ => ?_
      rcases at_ with at_ | at_ <;> cases at_
      intro nothing
      cases call with
      | send pos event | fault error => cases nothing
      | discardPending =>
        cases under : stream.crossing with
        | none =>
          rw [under] at allowed
          cases allowed
        | some pos =>
          rw [under] at allowed
          exact (Option.some.inj allowed).symm
  · exact kept

theorem tap [Add F] (kept : stream.Kept) : stream.tap.Kept := by
  unfold Stream.tap
  split
  · exact kept
  · refine waits nofun (fun _ _ _ _ at_ => by cases at_) fun other at_ => ?_
    rcases at_ with at_ | at_ <;> cases at_
  · split_ifs with busy
    · exact sends rfl nofun (.inr ⟨rfl, busy⟩) nofun
    · refine waits (fun _ => Bool.eq_false_iff.mpr busy) (fun _ _ _ _ at_ => by cases at_)
        fun other at_ => ?_
      rcases at_ with at_ | at_ <;> cases at_
  · next motion behind sender =>
    have alone : stream.reader.locked = false := kept.alone (by rw [sender]; rfl)
    cases behind with
    | true => exact sends rfl (fun _ => alone) (.inl rfl) fun _ => rfl
    | false => exact sends rfl (fun _ => alone) (.inl rfl) nofun
  · next call sender =>
    split_ifs with busy
    · exact sends rfl nofun (.inr ⟨rfl, busy⟩) nofun
    · refine waits (fun _ => Bool.eq_false_iff.mpr busy) (fun _ _ _ _ at_ => by cases at_)
        fun other at_ => ?_
      rcases at_ with at_ | at_ <;> cases at_
      exact kept.ended call (.inl sender)
  · exact sends rfl nofun (.inl rfl) nofun
  · next item rest store locked sender =>
    have alone : locked = true → stream.reader.locked = false := fun isLocked =>
      kept.alone (by rw [sender]; exact isLocked)
    refine sends rfl alone (kept.empty _ _ _ _ sender) fun some => ?_
    obtain ⟨motion, rfl⟩ := Option.isSome_iff_exists.mp some
    exact kept.stores _ _ _ _ sender
  · next item rest store locked sender =>
    have alone : locked = true → stream.reader.locked = false := fun isLocked =>
      kept.alone (by rw [sender]; exact isLocked)
    have stores : store.isSome = true → locked = true := by
      intro some
      obtain ⟨motion, rfl⟩ := Option.isSome_iff_exists.mp some
      exact kept.stores _ _ _ _ sender
    split_ifs
    · exact sends rfl alone (kept.empty _ _ _ _ sender) stores
    · exact sends rfl alone (kept.empty _ _ _ _ sender) stores
  · refine waits nofun (fun _ _ _ _ at_ => by cases at_) fun other at_ => ?_
    rcases at_ with at_ | at_ <;> cases at_
  · refine waits nofun (fun _ _ _ _ at_ => by cases at_) fun other at_ => ?_
    rcases at_ with at_ | at_ <;> cases at_

theorem step [Add F] (kept : stream.Kept) (move : Move F) : (stream.step move).Kept := by
  cases move with
  | call call => exact kept.call call
  | tap => exact kept.tap
  | read => exact kept.read
  | drop => exact kept.drop

end Kept

/-! ## Waking the reader -/

namespace Awake

variable {stream next : Stream F}

/-- A step that stores nothing, and does nothing to the channel and the reader. -/
theorem aside (awake : stream.Awake) (reader : next.reader = stream.reader)
    (woken : next.woken = stream.woken) (waker : next.waker = stream.waker)
    (channel : next.channel = stream.channel)
    (stores : stream.backlog = none → next.backlog = none) : next.Awake where
  drained waits sleeps := by
    rw [reader] at waits
    rw [waker, channel]
    exact awake.drained waits (woken ▸ sleeps)
  asleep at_ sleeps := stores (awake.asleep (reader ▸ at_) (woken ▸ sleeps))

theorem works (reader : next.reader.waits = false) : next.Awake where
  drained waits := by cases reader.symm.trans waits
  asleep at_ := by
    rw [at_] at reader
    cases reader

section

variable (awake : stream.Awake)
include awake

theorem push (item : Item F) (sender : Sender F) :
    ({ stream.push item with sender := sender } : Stream F).Awake := by
  -- a reader that has not been woken has a waker, which this wakes
  have wakes : (stream.woken || stream.waker) = false → stream.reader.waits = true → False := by
    intro sleeps waits
    rw [Bool.or_eq_false_iff] at sleeps
    cases sleeps.2.symm.trans (awake.drained waits sleeps.1).1
  refine ⟨fun waits sleeps => (wakes sleeps waits).elim, fun at_ sleeps => ?_⟩
  have waits : stream.reader.waits = true := congrArg Reader.waits at_
  exact (wakes sleeps waits).elim

theorem read : stream.read.Awake := by
  unfold Stream.read
  split
  · split
    · exact works rfl
    · next nothing => exact ⟨fun _ _ => ⟨rfl, nothing⟩, fun at_ => by cases at_⟩
  · exact works rfl
  · next reader =>
    have waits : stream.reader.waits = true := congrArg Reader.waits reader
    split_ifs
    · exact ⟨nofun, nofun⟩
    · exact ⟨fun _ sleeps => awake.drained waits sleeps, fun at_ => by cases at_⟩
  · next reader =>
    have waits : stream.reader.waits = true := congrArg Reader.waits reader
    split
    · exact works rfl
    · next nothing => exact ⟨fun _ sleeps => awake.drained waits sleeps, fun _ _ => nothing⟩
  · exact works rfl
  · exact awake

theorem drop : stream.drop.Awake := by
  unfold Stream.drop
  split
  · exact works rfl
  · exact works rfl
  · exact awake

theorem call (call : Call F) : (stream.call call).Awake := by
  unfold Stream.call
  split
  · exact awake.aside rfl rfl rfl rfl id
  · exact awake

/-- Motion is not stored for a reader that sleeps. -/
theorem tap [Add F] (timely : stream.Timely .tap) : stream.tap.Awake := by
  unfold Stream.tap
  split
  · exact awake
  · exact awake.aside rfl rfl rfl rfl id
  · split_ifs <;> exact awake.aside rfl rfl rfl rfl id
  · exact awake.aside rfl rfl rfl rfl fun _ => rfl
  · split_ifs <;> exact awake.aside rfl rfl rfl rfl id
  · exact awake.aside rfl rfl rfl rfl fun _ => rfl
  · exact awake.aside rfl rfl rfl rfl id
  · split_ifs
    · exact awake.aside rfl rfl rfl rfl id
    · exact awake.push _ _
  · next counted motion locked sender =>
    refine ⟨awake.drained, fun at_ sleeps => ?_⟩
    have woken := timely (congrArg Sender.stores sender) (congrArg Reader.parks at_)
    cases woken.symm.trans sleeps
  · exact awake.aside rfl rfl rfl rfl id

end

theorem step [Add F] (awake : stream.Awake) {move : Move F} (timely : stream.Timely move) :
    (stream.step move).Awake := by
  cases move with
  | call call => exact awake.call call
  | tap => exact awake.tap timely
  | read => exact awake.read
  | drop => exact awake.drop

end Awake

end Stream

end HopsFormal.Macos
