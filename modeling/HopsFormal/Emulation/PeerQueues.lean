import HopsFormal.Capture.InputEvent
import HopsFormal.Lib.Table
import Mathlib.Data.List.Induction

/-!
# Every peer's queue, served in turn

What a peer has asked for waits in a queue of its own, and each turn serves one
request of the next peer that has one.  Relative motion merges into motion of
the same peer that still waits at the end of its queue.  Every request carries
the numbers of the messages it is made of, so that what is injected can be
followed back to what was received.
-/

namespace HopsFormal.Emulation

open Capture (Event PointerEvent KeyboardEvent)
open AList Lib

/-- What one peer has asked for and this machine has not done yet. -/
inductive Queued (F : Type) where
  | input (event : Event F) (peer : String) (sources : List Nat)
  | remove (asked : Nat)
  deriving DecidableEq

/-- The messages a request is made of. -/
def Queued.numbers {F : Type} : Queued F → List Nat
  | .input _ _ sources => sources
  | .remove asked => [asked]

structure PeerQueues (Addr F : Type) where
  turn : List Addr
  queues : Table Addr (List (Queued F))

namespace PeerQueues

variable {Addr F : Type} [DecidableEq Addr]

def empty : PeerQueues Addr F := ⟨[], ∅⟩

variable (queues : PeerQueues Addr F)

def waiting (addr : Addr) : List (Queued F) :=
  (queues.queues.lookup addr).getD []

/-- A motion merged into the motion a queue ends with, if both are of one peer. -/
def merged [Add F] : Option (Queued F) → Queued F → Option (Queued F)
  | some (.input (.pointer (.motion _ dx dy)) queuedBy sources),
    .input (.pointer (.motion later moreX moreY)) sender more =>
      if queuedBy = sender then
        some (.input (.pointer (.motion later (dx + moreX) (dy + moreY))) queuedBy
          (sources ++ more))
      else none
  | _, _ => none

/-- Queue a request; says whether it merged and how many now wait for its peer. -/
def push [Add F] (queues : PeerQueues Addr F) (addr : Addr) (item : Queued F) :
    (Bool × Nat) × PeerQueues Addr F :=
  let queue := queues.waiting addr
  let turn := if queue.isEmpty then queues.turn ++ [addr] else queues.turn
  match merged queue.getLast? item with
  | some sum =>
    ((true, queue.length), ⟨turn, queues.queues.insert addr (queue.dropLast ++ [sum])⟩)
  | none =>
    ((false, queue.length + 1), ⟨turn, queues.queues.insert addr (queue ++ [item])⟩)

/-- The next peer's next request, and how many of that peer's are left. -/
def pop : Option (Addr × Queued F × Nat × PeerQueues Addr F) :=
  match queues.turn with
  | [] => none
  | addr :: rest =>
    match queues.queues.lookup addr with
    | none => none
    | some [] => none
    | some (item :: left) =>
      if left.isEmpty then some (addr, item, 0, ⟨rest, queues.queues.erase addr⟩)
      else some (addr, item, left.length, ⟨rest ++ [addr], queues.queues.insert addr left⟩)

/-- Forget everything queued for a peer; says how much that was. -/
def dropPeer (addr : Addr) : Nat × PeerQueues Addr F :=
  ((queues.waiting addr).length, ⟨queues.turn.filter (· ≠ addr), queues.queues.erase addr⟩)

/-! ## What each does to what waits -/

theorem waiting_insert (turn : List Addr) (table : Table Addr (List (Queued F)))
    (addr other : Addr) (queue : List (Queued F)) :
    waiting ⟨turn, table.insert addr queue⟩ other =
      if other = addr then queue else waiting ⟨turn, table⟩ other := by
  unfold waiting
  by_cases same : other = addr
  · subst same
    rw [if_pos rfl, lookup_insert]
    rfl
  · rw [if_neg same, lookup_insert_ne same]

theorem waiting_erase (turn : List Addr) (table : Table Addr (List (Queued F)))
    (addr other : Addr) :
    waiting ⟨turn, table.erase addr⟩ other =
      if other = addr then [] else waiting ⟨turn, table⟩ other := by
  unfold waiting
  by_cases same : other = addr
  · subst same
    rw [if_pos rfl, lookup_erase]
    rfl
  · rw [if_neg same, lookup_erase_ne same]

theorem merged_some [Add F] {last : Option (Queued F)} {item sum : Queued F}
    (merges : merged last item = some sum) :
    ∃ time dx dy later moreX moreY peer sources more,
      last = some (.input (.pointer (.motion time dx dy)) peer sources) ∧
      item = .input (.pointer (.motion later moreX moreY)) peer more ∧
      sum = .input (.pointer (.motion later (dx + moreX) (dy + moreY))) peer (sources ++ more) := by
  unfold merged at merges
  split at merges
  · split at merges
    · rename_i same
      subst same
      obtain rfl := Option.some.inj merges
      exact ⟨_, _, _, _, _, _, _, _, _, rfl, rfl, rfl⟩
    · cases merges
  · cases merges

/-- A request joins the end of its peer's queue, by itself or merged into its last. -/
theorem push_waiting [Add F] (queues : PeerQueues Addr F) (addr : Addr) (item : Queued F) :
    (∀ other, other ≠ addr → (queues.push addr item).2.waiting other = queues.waiting other) ∧
    ((queues.push addr item).2.waiting addr = queues.waiting addr ++ [item] ∨
      ∃ front time dx dy later moreX moreY peer sources more,
        queues.waiting addr = front ++ [.input (.pointer (.motion time dx dy)) peer sources] ∧
        item = .input (.pointer (.motion later moreX moreY)) peer more ∧
        (queues.push addr item).2.waiting addr =
          front ++ [.input (.pointer (.motion later (dx + moreX) (dy + moreY))) peer
            (sources ++ more)]) := by
  unfold push
  dsimp only
  cases merges : merged (queues.waiting addr).getLast? item with
  | none =>
    constructor
    · intro other apart
      rw [waiting_insert, if_neg apart]
      rfl
    · rw [waiting_insert, if_pos rfl]
      exact .inl rfl
  | some sum =>
    constructor
    · intro other apart
      rw [waiting_insert, if_neg apart]
      rfl
    · obtain ⟨time, dx, dy, later, moreX, moreY, peer, sources, more, last, rfl, rfl⟩ :=
        merged_some merges
      refine .inr ⟨(queues.waiting addr).dropLast, time, dx, dy, later, moreX, moreY, peer,
        sources, more, ?_, rfl, ?_⟩
      · exact (List.dropLast_append_getLast? _ last).symm
      · rw [waiting_insert, if_pos rfl]

/-- What serving does: it takes the oldest request of the peer whose turn it is. -/
theorem pop_spec {queues next : PeerQueues Addr F} {addr : Addr} {item : Queued F} {left : Nat}
    (popped : queues.pop = some (addr, item, left, next)) :
    (queues.waiting addr = item :: next.waiting addr ∧
      ∀ other, other ≠ addr → next.waiting other = queues.waiting other) ∧
    left = (next.waiting addr).length ∧
    ∃ rest, queues.turn = addr :: rest ∧
      next.turn = if next.waiting addr = [] then rest else rest ++ [addr] := by
  unfold pop at popped
  split at popped
  · cases popped
  · next first rest order =>
    split at popped
    · cases popped
    · cases popped
    · next oldest others found =>
      have waits : queues.waiting first = oldest :: others := by
        rw [waiting, found]
        rfl
      split at popped
      · next last =>
        cases popped
        refine ⟨⟨?_, fun other apart => ?_⟩, ?_, rest, order, ?_⟩
        · rw [waiting_erase, if_pos rfl, waits, List.isEmpty_iff.mp last]
        · rw [waiting_erase, if_neg apart]
          rfl
        · rw [waiting_erase, if_pos rfl]
          rfl
        · rw [waiting_erase, if_pos rfl, if_pos rfl]
      · next more =>
        cases popped
        refine ⟨⟨?_, fun other apart => ?_⟩, ?_, rest, order, ?_⟩
        · rw [waiting_insert, if_pos rfl, waits]
        · rw [waiting_insert, if_neg apart]
          rfl
        · rw [waiting_insert, if_pos rfl]
        · rw [waiting_insert, if_pos rfl, if_neg fun none_ => more (by rw [none_]; rfl)]

theorem dropPeer_waiting (addr other : Addr) :
    (queues.dropPeer addr).2.waiting other = if other = addr then [] else queues.waiting other := by
  exact waiting_erase _ _ _ _

theorem empty_waiting (addr : Addr) : (empty : PeerQueues Addr F).waiting addr = [] := rfl

end PeerQueues

end HopsFormal.Emulation
