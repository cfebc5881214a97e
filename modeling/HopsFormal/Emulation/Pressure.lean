import HopsFormal.Emulation.Sessions
import Mathlib.Data.Finset.Basic

/-!
# Peers that are held back

A peer with too much waiting is held: its connection stops reading until injection has
caught up.  An input that fills a peer's queue holds the peer; a turn that leaves less
than half of it, a permission that is lost and the end of a session let it go.  A removal
joins the queue of its peer and holds nobody.
-/

namespace HopsFormal.Emulation

open List Lib PeerQueues

/-- How many requests may wait for one peer before its connection stops reading. -/
def peerQueueLimit : Nat := 256

/-- Which peers must stop sending until injection catches up with them. -/
structure InputPressure (Addr : Type) where
  held : Finset Addr

namespace InputPressure

variable {Addr : Type} [DecidableEq Addr]

def unpressed : InputPressure Addr := ⟨∅⟩

def hold (pressure : InputPressure Addr) (addr : Addr) : InputPressure Addr :=
  ⟨insert addr pressure.held⟩

def release (pressure : InputPressure Addr) (addr : Addr) : InputPressure Addr :=
  ⟨pressure.held.erase addr⟩

/-- Let go of every peer that has something queued. -/
def releaseWaiting {F : Type} (pressure : InputPressure Addr) (queued : PeerQueues Addr F) :
    InputPressure Addr :=
  queued.queues.keys.foldl release pressure

theorem mem_releaseWaiting {F : Type} {pressure : InputPressure Addr}
    {queued : PeerQueues Addr F} {addr : Addr} :
    addr ∈ (pressure.releaseWaiting queued).held ↔
      addr ∈ pressure.held ∧ addr ∉ queued.queues.keys := by
  unfold releaseWaiting
  generalize queued.queues.keys = keys
  induction keys generalizing pressure with
  | nil => simp
  | cons first keys ih =>
    rw [foldl_cons, ih, release, Finset.mem_erase, mem_cons, not_or]
    constructor
    · rintro ⟨⟨differs, held⟩, absent⟩
      exact ⟨held, differs, absent⟩
    · rintro ⟨held, differs, absent⟩
      exact ⟨⟨differs, held⟩, absent⟩

end InputPressure

open InputPressure

/-- The receiving machine, with the peers that are held. -/
structure Pressed (Addr F : Type) where
  receiver : Receiver Addr F
  pressure : InputPressure Addr

namespace Pressed

variable {Addr F E : Type} [DecidableEq Addr]

/-- How many requests of a peer wait. -/
@[grind =]
def waiting (pressed : Pressed Addr F) (addr : Addr) : Nat :=
  (pressed.receiver.queued.waiting addr).length

def start (mayDriveUs : String → Bool) : Pressed Addr F := ⟨.start mayDriveUs, unpressed⟩

section Emulating

variable [Add F]

/-- A request is filed: one that fills the queue of its peer holds the peer, if it is input. -/
def afterTake (pressed : Pressed Addr F) : InputPressure Addr :=
  match pressed.receiver.phase, pressed.receiver.requests with
  | .running _, .input event addr peer source :: _ =>
    let waiting := (pressed.receiver.queued.push addr (.input event peer [source])).1.2
    if peerQueueLimit ≤ waiting then pressed.pressure.hold addr else pressed.pressure
  | .running _, .remove _ _ :: _ => pressed.pressure
  | .running _, .terminate :: _ => pressed.pressure.releaseWaiting pressed.receiver.queued
  | .running _, .reenable :: _ => pressed.pressure
  | .running _, .stopForMissing :: _ => pressed.pressure.releaseWaiting pressed.receiver.queued
  | _, _ => pressed.pressure

variable (answer : List (Call F) → Except E Unit)

/-- A request is served, and its peer let go if less than half a queue of it is left. -/
def afterServe (pressed : Pressed Addr F) : InputPressure Addr :=
  match pressed.receiver.phase with
  | .running emulation =>
    match pressed.receiver.queued.pop with
    | none => pressed.pressure
    | some (addr, item, left, rest) =>
      let eased :=
        if left < peerQueueLimit / 2 then pressed.pressure.release addr else pressed.pressure
      match item with
      | .input event peer _ =>
        if pressed.receiver.mayDriveUs peer then
          let known := { pressed.receiver with queued := rest }.handleOf emulation addr
          match (known.2.1.consume answer event known.1).1 with
          | .ok () => eased
          | .error _ => eased.releaseWaiting rest
        else eased.release addr
      | .remove _ => eased
  | _ => pressed.pressure

def afterSession (pressed : Pressed Addr F) : InputPressure Addr :=
  match pressed.receiver.phase with
  | .running _ => pressed.pressure.releaseWaiting pressed.receiver.queued
  | _ => pressed.pressure

variable [Sub F] [Zero F]

def step (pressed : Pressed Addr F) (taken : Receiver.Act Addr F) : Pressed Addr F where
  receiver := pressed.receiver.step answer taken
  pressure :=
    match taken with
    | .take _ => pressed.afterTake
    | .serve _ => pressed.afterServe answer
    | .sessionEnded _ => pressed.afterSession
    | _ => pressed.pressure

def run (mayDriveUs : String → Bool) (acts : List (Receiver.Act Addr F)) : Pressed Addr F :=
  acts.foldl (step answer) (start mayDriveUs)

end Emulating

/-! ## What waits, in numbers -/

theorem waiting_eq_nil {queued : PeerQueues Addr F} {addr : Addr}
    (absent : addr ∉ queued.queues.keys) : queued.waiting addr = [] := by
  have missing : queued.queues.lookup addr = none := AList.lookup_eq_none.mpr absent
  rw [PeerQueues.waiting, missing]
  rfl

theorem push_count [Add F] (queued : PeerQueues Addr F) (addr : Addr) (item : Queued F) :
    (queued.push addr item).1.2 = ((queued.push addr item).2.waiting addr).length := by
  unfold push
  dsimp only
  cases merges : merged (queued.waiting addr).getLast? item with
  | none =>
    rw [waiting_insert, if_pos rfl, length_append, length_singleton]
  | some sum =>
    obtain ⟨_, _, _, _, _, _, _, _, _, last, -, -⟩ := merged_some merges
    have some : 0 < (queued.waiting addr).length := by
      rw [length_pos_iff]
      rintro empty
      rw [empty] at last
      cases last
    dsimp only
    rw [waiting_insert, if_pos rfl, length_append, length_dropLast, length_singleton]
    omega

theorem push_le [Add F] (queued : PeerQueues Addr F) (addr : Addr) (item : Queued F) :
    (queued.waiting addr).length ≤ ((queued.push addr item).2.waiting addr).length := by
  rcases (queued.push_waiting addr item).2 with
    now | ⟨front, _, _, _, _, _, _, _, _, _, before, -, now⟩
  · rw [now, length_append]
    omega
  · rw [now, before, length_append, length_append]
    exact Nat.le_refl _

theorem push_remove [Add F] (queued : PeerQueues Addr F) (addr : Addr) (asked : Nat) :
    ((queued.push addr (.remove asked)).2.waiting addr).length =
      (queued.waiting addr).length + 1 := by
  rcases (queued.push_waiting addr (.remove asked)).2 with
    now | ⟨_, _, _, _, _, _, _, _, _, _, -, is, -⟩
  · rw [now, length_append, length_singleton]
  · cases is

end Pressed

end HopsFormal.Emulation
