import HopsFormal.Lib.Tally
import HopsFormal.Macos.Backlog
import Mathlib.Algebra.Group.Prod

/-!
# What becomes of summed motion

Everything sent is, in its order, delivered, in the reader's hand, in the channel, in the slot or
still to be put into them by the thread of the taps.  The reader takes the slot before the
channel, so nothing but motion may be in the channel then.
-/

namespace HopsFormal.Macos

open Capture (CaptureEvent Position)
open List Lib Sender Tally

variable {F : Type}

/-! ## Displacement -/

section Displacement

variable [AddCommMonoid F] (pos : Position)

/-- How far an item moves the pointer at an edge, if it is motion. -/
def Item.gain (item : Item F) : Option (F × F) :=
  item.motion?.map fun motion => if motion.pos = pos then (motion.dx, motion.dy) else 0

/-- The displacement before an event of a crossing counts, from the event before it. -/
def Item.counts : Item F → Bool
  | .event _ (.input _) => true
  | _ => false

def tallied (items : List (Item F)) : Tally (Item F) (F × F) :=
  nothing.adds (Item.gain pos) Item.counts items

/-- Each event that is no motion, with the displacement at an edge between it and the one before. -/
def displacements (items : List (Item F)) : List (Item F × F × F) :=
  (tallied pos items).closed

/-- The displacement at every edge is the same, whatever went before. -/
def Same (items more : List (Item F)) : Prop :=
  ∀ pos, Alike (Item.gain pos) Item.counts items more

theorem gain_motionItem (motion : Motion F) : (motionItem motion).gain pos =
      some (if motion.pos = pos then (motion.dx, motion.dy) else 0) := rfl

end Displacement

/-! ## Where the items are -/

/-- What the thread of the taps has yet to put into the channel or the slot. -/
def Sender.pending : Sender F → List (Item F)
  | .idle => []
  | .motion moved | .tries moved _ | .holds moved _ => [motionItem moved]
  | .triesTake call | .takes call => call.item.toList
  | .sends items _ store _ => items ++ (store.map motionItem).toList

namespace Stream

variable (stream : Stream F)

def slot : List (Item F) := (stream.backlog.map motionItem).toList

/-- A reader that holds the lock takes what is in the slot before what is in the channel. -/
def queued : List (Item F) :=
  if stream.reader.locked then stream.slot ++ stream.channel else stream.channel ++ stream.slot

/-- Everything that was sent, in the order it will be delivered. -/
def line : List (Item F) :=
  stream.delivered ++ (stream.reader.hand ++ (stream.queued ++ stream.sender.pending))

/-! ## What is on its way -/

section Flow

variable [AddCommMonoid F]

theorem same_of_eq {items more : List (Item F)} (same : items = more) : Same items more :=
  fun _ => .of_eq same

theorem same_append {items more others later : List (Item F)} (first : Same items more)
    (second : Same others later) : Same (items ++ others) (more ++ later) :=
  fun pos => (first pos).append (second pos)

theorem isSome_gain {item : Item F} (pos : Position) (motion : item.motion?.isSome = true) :
    (item.gain pos).isSome = true := by
  rw [Item.gain, Option.isSome_map]
  exact motion

theorem same_taken (motion : Option (Motion F)) {call : Call F}
    (sends : call.item ≠ none) :
    Same ((motion.map motionItem).toList ++ call.item.toList) (taken motion call) := by
  cases call with
  | send pos event => exact same_of_eq rfl
  | discardPending => exact absurd rfl sends
  | fault error =>
    cases motion with
    | none => exact same_of_eq rfl
    | some motion => exact fun pos => alike_forget (gain_motionItem pos motion) rfl rfl

/-- What is summed moves the pointer as what it is summed of does. -/
theorem same_emptied (before : Option (Motion F)) (motion : Motion F) (behind : Bool) :
    Same ((before.map motionItem).toList ++ [motionItem motion])
      (emptied before motion behind).pending := by
  cases before with
  | none => cases behind <;> exact same_of_eq rfl
  | some before =>
    unfold emptied
    dsimp only
    by_cases same : before.pos = motion.pos
    · rw [if_pos same]
      have sum : Same [motionItem before, motionItem motion]
          [motionItem ⟨motion.pos, before.dx + motion.dx, before.dy + motion.dy⟩] := by
        intro pos
        refine alike_merge (gain_motionItem pos before) (gain_motionItem pos motion) ?_
        rw [gain_motionItem, same]
        split_ifs
        · rfl
        · rw [add_zero]
      cases behind <;> exact sum
    · rw [if_neg same]
      cases behind <;> exact same_of_eq rfl

/-- The reader moves no item of the line, or only motion ahead of motion. -/
theorem same_read {stream : Stream F} (timely : stream.Timely .read) :
    Same stream.line stream.read.line := by
  unfold Stream.read
  split
  · next reader =>
    split
    · next item rest channel =>
      refine same_of_eq ?_
      simp [line, queued, slot, reader, Reader.hand, Reader.locked, channel]
    · next channel =>
      refine same_of_eq ?_
      simp [line, queued, slot, reader, Reader.hand, Reader.locked, channel]
  · next item reader =>
    refine same_of_eq ?_
    simp [line, queued, slot, reader, Reader.hand, Reader.locked]
  · next reader =>
    split_ifs with busy
    · refine same_of_eq ?_
      simp [line, queued, slot, reader, Reader.hand, Reader.locked]
    · have before : stream.line = stream.delivered ++
          ((stream.channel ++ stream.slot) ++ stream.sender.pending) := by
        simp [line, queued, reader, Reader.hand, Reader.locked]
      have after : ({ stream with reader := .holds } : Stream F).line = stream.delivered ++
          ((stream.slot ++ stream.channel) ++ stream.sender.pending) := rfl
      rw [before, after]
      refine same_append (same_of_eq rfl) (same_append ?_ (same_of_eq rfl))
      cases stored : stream.backlog with
      | none =>
        refine same_of_eq ?_
        simp [slot, stored]
      | some motion =>
        intro pos
        refine alike_swap (fun item member => ?_) fun item member => ?_
        · have moves := timely (congrArg Reader.triesLock reader) (Bool.eq_false_iff.mpr busy)
          exact isSome_gain pos (moves (by rw [stored]; rfl) item member)
        · rw [slot, stored] at member
          rw [mem_singleton.mp member]
          rfl
  · next reader =>
    split
    · next motion stored =>
      refine same_of_eq ?_
      simp [line, queued, slot, reader, Reader.hand, Reader.locked, stored]
    · next stored =>
      refine same_of_eq ?_
      simp [line, queued, slot, reader, Reader.hand, Reader.locked, stored]
  · next reader =>
    refine same_of_eq ?_
    simp [line, queued, slot, reader, Reader.hand, Reader.locked]
  · exact same_of_eq rfl

theorem same_behind {stream next : Stream F} (free : stream.reader.locked = false)
    (delivered : next.delivered = stream.delivered) (reader : next.reader = stream.reader)
    (channel : next.channel = stream.channel)
    (behind : Same (stream.slot ++ stream.sender.pending) (next.slot ++ next.sender.pending)) :
    Same stream.line next.line := by
  have past : ∀ stream : Stream F, stream.reader.locked = false → stream.line =
      (stream.delivered ++ stream.reader.hand ++ stream.channel) ++
        (stream.slot ++ stream.sender.pending) := by
    intro stream free
    simp [line, queued, free]
  rw [past stream free, past next (reader ▸ free), delivered, reader, channel]
  exact same_append (same_of_eq rfl) behind

theorem same_tap {stream : Stream F} (kept : stream.Kept) (here : stream.reader.isGone = false)
    (keeps : ∀ call, stream.sender = .takes call → call.item ≠ none) :
    Same stream.line stream.tap.line := by
  unfold Stream.tap
  split
  · exact same_of_eq rfl
  · next motion sender =>
    refine same_of_eq ?_
    simp [line, queued, slot, sender, pending]
  · next motion behind sender =>
    split_ifs with busy
    · refine same_of_eq ?_
      simp [line, queued, slot, sender, pending]
    · refine same_of_eq ?_
      simp [line, queued, slot, sender, pending]
  · next motion behind sender =>
    have free : stream.reader.locked = false := kept.alone (by rw [sender]; rfl)
    refine same_behind free rfl rfl rfl ?_
    rw [sender]
    exact same_emptied stream.backlog motion behind
  · next call sender =>
    have none : taken none call = call.item.toList := by cases call <;> rfl
    split_ifs with busy
    · refine same_of_eq ?_
      simp [line, queued, slot, sender, pending, none]
    · refine same_of_eq ?_
      simp [line, queued, slot, sender, pending]
  · next call sender =>
    have free : stream.reader.locked = false := kept.alone (by rw [sender]; rfl)
    refine same_behind free rfl rfl rfl ?_
    rw [sender]
    have taking := same_taken stream.backlog (keeps call sender)
    simpa [slot, pending] using taking
  · next item rest store locked sender =>
    refine same_of_eq ?_
    simp [line, queued, slot, sender, pending]
  · next item rest store locked sender =>
    rw [if_neg (by simp [here])]
    refine same_of_eq ?_
    cases held : stream.reader.locked with
    | true => simp [line, queued, slot, push, sender, pending, held]
    | false =>
      have nothing : stream.backlog = none :=
        (kept.empty _ _ _ _ sender).resolve_right fun busy => by
          cases held.symm.trans busy.2
      simp [line, queued, slot, push, sender, pending, held, nothing]
  · next counted motion locked sender =>
    have isLocked : locked = true := kept.stores _ _ _ _ sender
    have free : stream.reader.locked = false := kept.alone (by rw [sender]; exact isLocked)
    have nothing : stream.backlog = none :=
      (kept.empty _ _ _ _ sender).resolve_right fun busy => by
        cases isLocked.symm.trans busy.1
    refine same_behind free rfl rfl rfl (same_of_eq ?_)
    simp [slot, sender, pending, nothing]
  · next counted locked sender =>
    refine same_of_eq ?_
    simp [line, queued, slot, sender, pending]

/-! ## What was sent and what is delivered -/

/--
While there is a reader the line tallies as what was sent, past the last mark too while a crossing
is under way; and the reader was delivered what was sent as far as it got.
-/
structure Flows (stream : Stream F) : Prop where
  agree : stream.reader.isGone = false → ∀ pos,
    Agree (stream.crossing.isSome = true) (tallied pos stream.line) (tallied pos stream.sent)
  told : ∀ pos, displacements pos stream.delivered <+: displacements pos stream.sent

theorem displacements_append (pos : Position) (items more : List (Item F)) :
    displacements pos items <+: displacements pos (items ++ more) := by
  rw [displacements, displacements, tallied, tallied, adds_append]
  exact closed_prefix _ more

theorem tallied_concat (pos : Position) (items : List (Item F)) (item : Item F) :
    tallied pos (items ++ [item]) =
      (tallied pos items).add (Item.gain pos) Item.counts item := adds_append

namespace Flows

variable {stream next : Stream F}

/-- What is delivered is the front of the line. -/
theorem of_agree (agree : ∀ pos,
      Agree (stream.crossing.isSome = true) (tallied pos stream.line) (tallied pos stream.sent)) :
    stream.Flows where
  agree _ := agree
  told pos := by
    have front := displacements_append pos stream.delivered
      (stream.reader.hand ++ (stream.queued ++ stream.sender.pending))
    have whole : displacements pos stream.line = displacements pos stream.sent := (agree pos).1
    exact whole ▸ front

theorem start : (start : Stream F).Flows := of_agree fun _ => .refl _ _

/-- Once the capture is dropped nothing more is delivered. -/
theorem after_gone (flows : stream.Flows) (gone : next.reader.isGone = true)
    (delivered : next.delivered = stream.delivered) {more : List (Item F)}
    (sent : next.sent = stream.sent ++ more) : next.Flows where
  agree here := by cases gone.symm.trans here
  told pos := by
    rw [delivered, sent]
    exact (flows.told pos).trans (displacements_append pos stream.sent more)

theorem moved (flows : stream.Flows) (here : stream.reader.isGone = false)
    (same : Same stream.line next.line) (crossing : next.crossing = stream.crossing)
    (sent : next.sent = stream.sent) : next.Flows := by
  refine of_agree fun pos => ?_
  have tally : tallied pos next.line = tallied pos stream.line := (same pos nothing).symm
  rw [tally, crossing, sent]
  exact flows.agree here pos

theorem agree_call {crossing : Option Position} {call : Call F} {item more : Item F} {pos : Position}
    {before after : List (Item F)}
    (agree : Agree (stream.crossing.isSome = true) (tallied pos before) (tallied pos after))
    (allowed : afterCall stream.crossing call = some crossing) (sends : call.item = some item)
    (same : more.gain pos = item.gain pos) (marks : item.motion? = none → more = item) :
    Agree (crossing.isSome = true) (tallied pos (before ++ [more])) (tallied pos (after ++ [item])) := by
  rw [tallied_concat, tallied_concat]
  have counted : item.counts = true → stream.crossing.isSome = true := by
    intro counts
    cases call with
    | discardPending => cases sends
    | fault error =>
      cases sends
      cases counts
    | send at_ event =>
      cases sends
      cases event with
      | begin => cases counts
      | input event =>
        rcases under : stream.crossing with - | -
        · rw [under] at allowed
          cases allowed
        · rfl
  cases motion : item.motion? with
  | none =>
    have markless : item.gain pos = none := by rw [Item.gain, motion, Option.map_none]
    rw [marks motion]
    exact (agree.add_mark markless counted).weaken fun _ => trivial
  | some moved =>
    have gains : item.gain pos = some (if moved.pos = pos then (moved.dx, moved.dy) else 0) := by
      rw [Item.gain, motion, Option.map_some]
    have input : item.counts = true := by
      unfold Item.motion? at motion
      split at motion
      · rfl
      · cases motion
    have isOpen : Agree True (tallied pos before) (tallied pos after) :=
      agree.weaken fun _ => counted input
    exact (isOpen.add_gain (same.trans gains) gains).weaken fun _ => trivial

section

variable (flows : stream.Flows)
include flows

theorem call (call : Call F) : (stream.call call).Flows := by
  unfold Stream.call
  split
  · next crossing idle allowed =>
    rcases here : stream.reader.isGone with - | -
    · refine of_agree fun pos => ?_
      have agree := flows.agree here pos
      have further : ∀ sender : Sender F, ({ stream with
          crossing := crossing
          sent := stream.sent ++ call.item.toList
          sender := sender } : Stream F).line = stream.line ++ sender.pending := by
        intro sender
        simp [line, queued, slot, idle, pending]
      rw [further]
      cases sends : call.item with
      | none =>
        have none : (triesTake call).pending = [] := by
          rw [pending, sends]
          rfl
        have ends : crossing.isSome = true → stream.crossing.isSome = true := by
          cases call with
          | send pos event | fault error => cases sends
          | discardPending =>
            rcases under : stream.crossing with - | -
            · rw [under] at allowed
              cases allowed
            · exact fun _ => rfl
        rw [Option.bind_none, none, Option.toList_none, append_nil, append_nil]
        exact agree.weaken ends
      | some item =>
        rw [Option.bind_some]
        cases motion : item.motion? with
        | none =>
          have one : (triesTake call).pending = [item] := by
            rw [pending, sends]
            rfl
          rw [one]
          exact agree_call agree allowed sends rfl fun _ => rfl
        | some moved =>
          refine agree_call agree allowed sends ?_ fun none => by cases motion.symm.trans none
          rw [gain_motionItem, Item.gain, motion, Option.map_some]
    · exact flows.after_gone here rfl rfl
  · exact flows

theorem tap (kept : stream.Kept) : stream.tap.Flows := by
  have crossing : stream.tap.crossing = stream.crossing := by
    unfold Stream.tap
    split <;> first | rfl | (split_ifs <;> rfl)
  have sent : stream.tap.sent = stream.sent := by
    unfold Stream.tap
    split <;> first | rfl | (split_ifs <;> rfl)
  have reader : stream.tap.reader = stream.reader := by
    unfold Stream.tap
    split <;> first | rfl | (split_ifs <;> rfl)
  have delivered : stream.tap.delivered = stream.delivered := by
    unfold Stream.tap
    split <;> first | rfl | (split_ifs <;> rfl)
  rcases here : stream.reader.isGone with - | -
  · by_cases drops : ∃ call, stream.sender = .takes call ∧ call.item = none
    · -- what is pending is dropped as the crossing ends
      obtain ⟨call, sender, nothing⟩ := drops
      have ended : stream.crossing = none := kept.ended call (.inr sender) nothing
      have free : stream.reader.locked = false := kept.alone (by rw [sender]; rfl)
      have whole : stream.line = stream.tap.line ++ stream.slot := by
        cases call with
        | send pos event | fault error => cases nothing
        | discardPending =>
          unfold Stream.tap
          rw [sender]
          simp [line, queued, slot, sender, pending, free, taken, Call.item]
      refine of_agree fun pos => ?_
      have closed := (flows.agree here pos).1
      rw [crossing, ended, sent]
      refine ⟨?_, nofun⟩
      rw [← closed, whole]
      cases stored : stream.backlog with
      | none => simp [slot, stored]
      | some motion =>
        have slotted : stream.slot = [motionItem motion] := by rw [slot, stored]; rfl
        rw [slotted, tallied_concat]
        exact (closed_add_gain (gain_motionItem pos motion)).symm
    · refine flows.moved here (same_tap kept here fun call sender nothing => ?_) crossing sent
      exact drops ⟨call, sender, nothing⟩
  · exact flows.after_gone (reader ▸ here) delivered (by rw [sent, append_nil])

theorem read (timely : stream.Timely .read) : stream.read.Flows := by
  have crossing : stream.read.crossing = stream.crossing := by
    unfold Stream.read
    split <;> first | rfl | (split_ifs <;> rfl) | (split <;> rfl)
  have sent : stream.read.sent = stream.sent := by
    unfold Stream.read
    split <;> first | rfl | (split_ifs <;> rfl) | (split <;> rfl)
  rcases here : stream.reader.isGone with - | -
  · exact flows.moved here (same_read timely) crossing sent
  · have same : stream.read = stream := by
      unfold Stream.read
      split <;> first | rfl | simp_all [Reader.isGone]
    rw [same]
    exact flows

theorem drop : stream.drop.Flows := by
  unfold Stream.drop
  split
  · exact flows.after_gone rfl rfl (append_nil _).symm
  · exact flows.after_gone rfl rfl (append_nil _).symm
  · exact flows

end

theorem step (flows : stream.Flows) (kept : stream.Kept) {move : Move F}
    (timely : stream.Timely move) : (stream.step move).Flows := by
  cases move with
  | call call => exact flows.call call
  | tap => exact flows.tap kept
  | read => exact flows.read timely
  | drop => exact flows.drop

end Flows

/-! ## Runs -/

theorem foldl_flows {stream : Stream F} {moves : List (Move F)} (kept : stream.Kept)
    (flows : stream.Flows) (awake : stream.Awake) (timely : TimelyFrom stream moves) :
    (moves.foldl step stream).Flows ∧ (moves.foldl step stream).Awake := by
  induction moves generalizing stream with
  | nil => exact ⟨flows, awake⟩
  | cons move moves ih =>
    obtain ⟨now, later⟩ := timely
    exact ih (kept.step move) (flows.step kept now) (awake.step now) later

/--
In a run whose moves are all timely, whatever is delivered has between two events the displacement
that was sent between them, and nothing is in the slot for a reader that sleeps.
-/
theorem run_delivers (moves : List (Move F)) (timely : TimelyFrom start moves) :
    (∀ pos, displacements pos (run moves).delivered <+: displacements pos (run moves).sent) ∧
      ((run moves).reader = .parked → (run moves).channel = [] → (run moves).woken = false →
        (run moves).backlog = none) := by
  obtain ⟨flows, awake⟩ := foldl_flows kept_start Flows.start awake_start timely
  exact ⟨flows.told, fun parked _ sleeps => awake.asleep parked sleeps⟩

end Flow

/-! ## Moves that are not timely -/

/-- The steps of the thread of the taps for a call that finds the lock free. -/
def calls (call : Call Int) : List (Move Int) := .call call :: List.replicate 5 .tap

def pressed : Call Int := .send .left (.input (.keyboard (.key 0 30 1)))

def movedRight : Call Int := .send .left (.input (.pointer (.motion 0 3 0)))

/-- A crossing and many keys, so that the channel is as deep as motion is summed at. -/
def deep : List (Move Int) :=
  calls (.send .left .begin) ++ (List.replicate (motionBacklog - 1) (calls pressed)).flatten

/-- The depth is read, then the reader drains the channel and sleeps, then motion is stored. -/
def storedLate : List (Move Int) :=
  deep ++ [.call movedRight, .tap] ++ List.replicate (2 * motionBacklog + 3) .read ++
    [.tap, .tap, .tap]

/-- The reader finds nothing, then keys and motion come, then it takes the motion. -/
def takenEarly : List (Move Int) :=
  .read :: deep ++ [.call movedRight, .tap, .tap, .tap, .tap] ++ [.read, .read] ++
    calls pressed ++ List.replicate (2 * motionBacklog + 2) .read

/-- The reader is behind, motion is summed, and the reader takes it once the channel is drained. -/
def summed : List (Move Int) :=
  deep ++ (List.replicate 3 (calls movedRight)).flatten ++
    List.replicate (2 * motionBacklog + 3) .read ++ calls pressed ++ List.replicate 2 .read

/-- Three motions are delivered as one before the key that follows them. -/
theorem run_delivers_summed :
    TimelyFrom start summed ∧
      displacements .left (run summed).delivered <+: displacements .left (run summed).sent ∧
      (displacements .left (run summed).delivered).getLast?.map Prod.snd = some (9, 0) := by
  have timely : TimelyFrom start summed := by decide +kernel
  exact ⟨timely, (run_delivers summed timely).1 .left, by decide +kernel⟩

/-- Motion is held back from a sleeping reader, and overtakes keys that were sent before it. -/
theorem motion_held_back_or_early :
    ¬(∀ moves : List (Move Int), (run moves).reader = .parked → (run moves).channel = [] →
        (run moves).woken = false → (run moves).backlog = none) ∧
    ¬(∀ (moves : List (Move Int)) (pos : Position),
        displacements pos (run moves).delivered <+: displacements pos (run moves).sent) := by
  constructor
  · intro empties
    have nothing := empties storedLate (by decide +kernel) (by decide +kernel) (by decide +kernel)
    have something : (run storedLate).backlog = some ⟨.left, 3, 0⟩ := by decide +kernel
    cases nothing.symm.trans something
  · intro delivers
    have front := delivers takenEarly .left
    exact absurd front (by decide +kernel)

end Stream

end HopsFormal.Macos
