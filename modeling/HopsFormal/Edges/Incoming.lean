import HopsFormal.Capture.InputEvent
import HopsFormal.Lib.Table
import Mathlib.Algebra.Group.Nat.Defs
import Mathlib.Data.Finset.Basic
import Mathlib.Data.List.Induction

/-!
# The connections that come in

A machine that crosses onto this one is registered once for its address, with a
barrier at the edge it came over.  It is kept twice, as an address and under the
handle of its barrier, and what is registered for an address is what it entered
with last.
-/

namespace HopsFormal.Edges

open Capture (Position)
open Option Function Lib

structure Incoming (Addr : Type) where
  fingerprint : String
  addr : Addr
  pos : Position

/-- What the frontend is told of a connection. -/
inductive Notice (Addr : Type) where
  | deviceConnected (addr : Addr) (fingerprint : String)
  | deviceEntered (fingerprint : String) (addr : Addr) (pos : Position)
  | incomingDisconnected (addr : Addr)

/--
The addresses registered, those whose cursor is on this machine, what is registered
under the handle of each barrier, the peers that are connected, the barriers asked
for, what the frontend is told, and whom control was handed back to.  Barriers are
counted without the end of a `u64`.
-/
structure Connections (Addr : Type) [DecidableEq Addr] where
  incomingConns : Finset Addr
  currentlyControlling : Finset Addr
  incomingConnInfo : Table Nat (Incoming Addr)
  connectedPeers : Table Addr String
  nextTriggerHandle : Nat
  captures : List (Nat × Position)
  pendingFrontendEvents : List (Notice Addr)
  handedBack : List Addr

/-- What the emulation and the capture tell the service of a connection. -/
inductive ConnectionEvent (Addr : Type) where
  | connected (addr : Addr) (fingerprint : String)
  | entered (addr : Addr) (pos : Position) (fingerprint : String)
  | disconnected (addr : Addr)
  | edgePushed (addr : Addr) (side : Position)
  | captureBegin (handle : Nat)

/-- The first handle of a barrier for a connection that comes in. -/
def enterHandleBegin : Nat := 2 ^ 63

namespace Connections

variable {Addr : Type} [DecidableEq Addr]

def empty : Connections Addr where
  incomingConns := ∅
  currentlyControlling := ∅
  incomingConnInfo := ∅
  connectedPeers := ∅
  nextTriggerHandle := 0
  captures := []
  pendingFrontendEvents := []
  handedBack := []

def notifyFrontend (connections : Connections Addr) (notices : List (Notice Addr)) :
    Connections Addr :=
  { connections with pendingFrontendEvents := connections.pendingFrontendEvents ++ notices }

/-- What is registered for an address, and under which handle. -/
def find (connections : Connections Addr) (addr : Addr) : Option (Nat × Incoming Addr) :=
  (connections.incomingConnInfo.entries.find? fun row => row.2.addr = addr).map
    fun row => (row.1, row.2)

def addIncoming (connections : Connections Addr) (addr : Addr) (pos : Position)
    (fingerprint : String) : Connections Addr :=
  let handle := enterHandleBegin + connections.nextTriggerHandle
  { connections with
    nextTriggerHandle := connections.nextTriggerHandle + 1
    captures := connections.captures ++ [(handle, pos)]
    incomingConns := insert addr connections.incomingConns
    incomingConnInfo := connections.incomingConnInfo.insert handle ⟨fingerprint, addr, pos⟩ }

def removeIncoming (connections : Connections Addr) (addr : Addr) :
    Option Addr × Connections Addr :=
  match connections.find addr with
  | none => (none, connections)
  | some (handle, incoming) =>
    (some incoming.addr,
      { connections with
        captures := connections.captures.filter (·.1 ≠ handle)
        incomingConns := connections.incomingConns.erase addr
        incomingConnInfo := connections.incomingConnInfo.erase handle })

/-- An address that is not registered here ends the service. -/
def updateIncoming (connections : Connections Addr) (addr : Addr) (pos : Position)
    (fingerprint : String) : Option (Connections Addr) :=
  match connections.find addr with
  | none => none
  | some (handle, incoming) =>
    if incoming.fingerprint ≠ fingerprint ∨ incoming.pos ≠ pos then
      let changed :=
        { connections with
          incomingConnInfo := connections.incomingConnInfo.changeAt handle fun incoming =>
            { incoming with fingerprint := fingerprint, pos := pos } }
      some (((changed.removeIncoming addr).2.addIncoming addr pos fingerprint).notifyFrontend
        [.incomingDisconnected addr, .deviceEntered fingerprint addr pos])
    else some connections

/-- Control goes back to the peer, if its cursor is here. -/
def handBack (connections : Connections Addr) (addr : Addr) : Connections Addr :=
  { connections with
    currentlyControlling := connections.currentlyControlling.erase addr
    handedBack := connections.handedBack ++ [addr] }

def step (connections : Connections Addr) :
    ConnectionEvent Addr → Option (Connections Addr)
  | .connected addr fingerprint =>
    some ({ connections with
      connectedPeers := connections.connectedPeers.insert addr fingerprint }.notifyFrontend
        [.deviceConnected addr fingerprint])
  | .entered addr pos fingerprint =>
    let entered :=
      { connections with currentlyControlling := insert addr connections.currentlyControlling }
    if addr ∉ entered.incomingConns then
      some ((entered.addIncoming addr pos fingerprint).notifyFrontend
        [.deviceEntered fingerprint addr pos])
    else entered.updateIncoming addr pos fingerprint
  | .disconnected addr =>
    let gone :=
      { connections with
        currentlyControlling := connections.currentlyControlling.erase addr
        connectedPeers := connections.connectedPeers.erase addr }
    let (removed, left) := gone.removeIncoming addr
    some (if (connections.connectedPeers.lookup addr).isSome || removed.isSome then
      left.notifyFrontend [.incomingDisconnected addr] else left)
  | .edgePushed addr side =>
    let enteredHere := connections.incomingConnInfo.any fun _ incoming =>
      incoming.addr = addr && incoming.pos = side
    some (if enteredHere && decide (addr ∈ connections.currentlyControlling) then
      connections.handBack addr else connections)
  | .captureBegin handle =>
    match connections.incomingConnInfo.lookup handle with
    | some incoming => some (connections.handBack incoming.addr)
    | none => some connections

/-- The service from its start; `none` once a lookup that must succeed has failed. -/
def run (events : List (ConnectionEvent Addr)) : Option (Connections Addr) :=
  events.foldlM step empty

/-! ## What is kept of a connection -/

/-- Each address that is registered is registered under one handle, given out already. -/
structure Recorded (connections : Connections Addr) : Prop where
  known : ∀ addr, addr ∈ connections.incomingConns ↔
    ∃ handle incoming, connections.incomingConnInfo.lookup handle = some incoming ∧
      incoming.addr = addr
  once : ∀ {handle other incoming second},
    connections.incomingConnInfo.lookup handle = some incoming →
    connections.incomingConnInfo.lookup other = some second → incoming.addr = second.addr →
    handle = other
  older : ∀ {handle incoming}, connections.incomingConnInfo.lookup handle = some incoming →
    handle < enterHandleBegin + connections.nextTriggerHandle

/-- A barrier stands at the edge its connection came over. -/
def Captured (connections : Connections Addr) (handle : Nat) : Prop :=
  ∀ pos, (handle, pos) ∈ connections.captures ↔
    ∃ incoming, connections.incomingConnInfo.lookup handle = some incoming ∧ incoming.pos = pos

variable {connections : Connections Addr} {addr : Addr} {handle : Nat} {incoming : Incoming Addr}
  {known : Addr → Option (String × Position)}

theorem find_some (found : connections.find addr = some (handle, incoming)) :
    connections.incomingConnInfo.lookup handle = some incoming ∧ incoming.addr = addr := by
  obtain ⟨row, isRow, same⟩ := map_eq_some_iff.mp found
  obtain ⟨rfl, rfl⟩ := Prod.mk.inj same
  exact ⟨AList.mem_lookup_iff.mpr (List.mem_of_find?_eq_some isRow),
    of_decide_eq_true (List.find?_some isRow :)⟩

theorem find_none (missing : connections.find addr = none)
    (found : connections.incomingConnInfo.lookup handle = some incoming) :
    incoming.addr ≠ addr := by
  have every := List.find?_eq_none.mp (map_eq_none_iff.mp missing)
  simpa using every ⟨handle, incoming⟩ (AList.mem_lookup_iff.mp found)

/-- What is registered for an address is what is found for it. -/
theorem Recorded.find_eq (recorded : Recorded connections)
    (found : connections.incomingConnInfo.lookup handle = some incoming) :
    connections.find incoming.addr = some (handle, incoming) := by
  cases first : connections.find incoming.addr with
  | none => exact absurd rfl (find_none first found)
  | some pair =>
    obtain ⟨other, second⟩ := pair
    obtain ⟨there, same⟩ := find_some first
    obtain rfl := recorded.once found there same.symm
    rw [found] at there
    rw [Option.some.inj there]

theorem empty_recorded : Recorded (empty : Connections Addr) where
  known addr := by simp [empty]
  once found := by cases found
  older found := by cases found

section

variable (recorded : Recorded connections)
include recorded

theorem Recorded.add (isNew : addr ∉ connections.incomingConns) (pos : Position)
    (fp : String) : Recorded (connections.addIncoming addr pos fp) := by
  have unread : connections.incomingConnInfo.lookup
      (enterHandleBegin + connections.nextTriggerHandle) = none := by
    by_contra there
    obtain ⟨incoming, found⟩ := ne_none_iff_exists'.mp there
    exact absurd (recorded.older found) (Nat.lt_irrefl _)
  have kept : ∀ {handle incoming}, connections.incomingConnInfo.lookup handle = some incoming →
      (connections.addIncoming addr pos fp).incomingConnInfo.lookup handle =
        some incoming := by
    intro handle incoming found
    refine (AList.lookup_insert_ne ?_).trans found
    rintro rfl
    rw [unread] at found
    cases found
  have other : ∀ {handle incoming},
      connections.incomingConnInfo.lookup handle = some incoming → incoming.addr ≠ addr := by
    rintro handle incoming found rfl
    exact isNew ((recorded.known _).mpr ⟨handle, incoming, found, rfl⟩)
  constructor
  · intro asked
    have conns : asked ∈ (connections.addIncoming addr pos fp).incomingConns ↔
        asked = addr ∨ asked ∈ connections.incomingConns := Finset.mem_insert
    rw [conns, recorded.known]
    constructor
    · rintro (rfl | ⟨handle, incoming, found, same⟩)
      · exact ⟨_, _, AList.lookup_insert _, rfl⟩
      · exact ⟨handle, incoming, kept found, same⟩
    · rintro ⟨handle, incoming, found, rfl⟩
      rcases Table.lookup_of_insert found with ⟨-, rfl⟩ | before
      · exact .inl rfl
      · exact .inr ⟨handle, incoming, before, rfl⟩
  · intro handle second first last isFirst isLast same
    rcases Table.lookup_of_insert isFirst with ⟨rfl, rfl⟩ | before
    · rcases Table.lookup_of_insert isLast with ⟨rfl, rfl⟩ | before'
      · rfl
      · exact absurd same.symm (other before')
    · rcases Table.lookup_of_insert isLast with ⟨rfl, rfl⟩ | before'
      · exact absurd same (other before)
      · exact recorded.once before before' same
  · intro handle incoming found
    rcases Table.lookup_of_insert found with ⟨rfl, rfl⟩ | before
    · exact Nat.lt_succ_self _
    · exact Nat.lt_succ_of_lt (recorded.older before)

/-- Taking an address out leaves the others, whatever is registered for it. -/
theorem Recorded.remove (addr : Addr) : Recorded (connections.removeIncoming addr).2 ∧
      addr ∉ (connections.removeIncoming addr).2.incomingConns ∧
      ∀ handle incoming,
        (connections.removeIncoming addr).2.incomingConnInfo.lookup handle = some incoming ↔
          connections.incomingConnInfo.lookup handle = some incoming ∧ incoming.addr ≠ addr := by
  unfold removeIncoming
  cases found : connections.find addr with
  | none =>
    refine ⟨recorded, fun member => ?_, fun handle incoming => ?_⟩
    · obtain ⟨handle, incoming, there, same⟩ := (recorded.known addr).mp member
      exact find_none found there same
    · exact ⟨fun there => ⟨there, find_none found there⟩, And.left⟩
  | some pair =>
    obtain ⟨gone, held⟩ := pair
    obtain ⟨isGone, rfl⟩ := find_some found
    have left : ∀ handle incoming,
        (connections.incomingConnInfo.erase gone).lookup handle = some incoming ↔
          connections.incomingConnInfo.lookup handle = some incoming ∧
            incoming.addr ≠ held.addr := by
      intro handle incoming
      constructor
      · intro there
        obtain ⟨apart, before⟩ := Table.lookup_of_erase there
        exact ⟨before, fun same => apart (recorded.once before isGone same)⟩
      · rintro ⟨before, other⟩
        refine (AList.lookup_erase_ne ?_).trans before
        rintro rfl
        rw [isGone] at before
        exact other (Option.some.inj before ▸ rfl)
    refine ⟨⟨fun asked => ?_, fun isFirst isLast same => ?_, fun there => ?_⟩, ?_, left⟩
    · dsimp only
      rw [Finset.mem_erase, recorded.known]
      constructor
      · rintro ⟨other, handle, incoming, there, rfl⟩
        exact ⟨handle, incoming, (left handle incoming).mpr ⟨there, other⟩, rfl⟩
      · rintro ⟨handle, incoming, there, rfl⟩
        obtain ⟨before, other⟩ := (left handle incoming).mp there
        exact ⟨other, handle, incoming, before, rfl⟩
    · exact recorded.once ((left _ _).mp isFirst).1 ((left _ _).mp isLast).1 same
    · exact recorded.older ((left _ _).mp there).1
    · exact Finset.notMem_erase _ _

theorem Recorded.rewrite {change : Incoming Addr → Incoming Addr}
    (keeps : ∀ incoming, (change incoming).addr = incoming.addr) : Recorded { connections with
      incomingConnInfo := connections.incomingConnInfo.changeAt handle change } := by
  have before : ∀ {other incoming},
      (connections.incomingConnInfo.changeAt handle change).lookup other = some incoming →
        ∃ old, connections.incomingConnInfo.lookup other = some old ∧ old.addr = incoming.addr := by
    intro other incoming found
    rw [Table.lookup_changeAt] at found
    split at found
    · obtain ⟨old, there, rfl⟩ := map_eq_some_iff.mp found
      exact ⟨old, there, (keeps old).symm⟩
    · exact ⟨incoming, found, rfl⟩
  constructor
  · intro addr
    rw [recorded.known]
    constructor
    · rintro ⟨other, old, there, rfl⟩
      by_cases same : other = handle
      · exact ⟨other, change old, by rw [Table.lookup_changeAt, if_pos same, there]; rfl, keeps old⟩
      · exact ⟨other, old, by rw [Table.lookup_changeAt, if_neg same, there], rfl⟩
    · rintro ⟨other, incoming, found, rfl⟩
      obtain ⟨old, there, same⟩ := before found
      exact ⟨other, old, there, same⟩
  · intro first last incoming second isFirst isLast same
    obtain ⟨one, there, isOne⟩ := before isFirst
    obtain ⟨two, there', isTwo⟩ := before isLast
    exact recorded.once there there' (isOne.trans (same.trans isTwo.symm))
  · intro other incoming found
    obtain ⟨old, there, -⟩ := before found
    exact recorded.older there

/-! ## What is registered -/

end

/-- What an address entered with last, unless its connection has ended since. -/
def register (known : Addr → Option (String × Position)) :
    ConnectionEvent Addr → Addr → Option (String × Position)
  | .entered addr pos fingerprint => Function.update known addr (some (fingerprint, pos))
  | .disconnected addr => Function.update known addr none
  | .connected _ _ => known
  | .edgePushed _ _ => known
  | .captureBegin _ => known

/-- The service and what is registered agree on an address. -/
def Agrees (connections : Connections Addr) (known : Addr → Option (String × Position))
    (addr : Addr) : Prop :=
  ∀ fingerprint pos, known addr = some (fingerprint, pos) ↔
    ∃ handle, connections.incomingConnInfo.lookup handle = some ⟨fingerprint, addr, pos⟩

/-- What is kept twice, the barriers and what is registered agree. -/
structure Kept (connections : Connections Addr) (known : Addr → Option (String × Position)) :
    Prop where
  recorded : Recorded connections
  captured : ∀ handle, Captured connections handle
  agrees : ∀ addr, Agrees connections known addr

theorem empty_kept : Kept (empty : Connections Addr) fun _ => none where
  recorded := empty_recorded
  captured handle pos := by simp [empty]
  agrees addr fingerprint pos := by simp [empty]

theorem Kept.add (kept : Kept connections known) (isNew : addr ∉ connections.incomingConns)
    (pos : Position) (fp : String) : Kept (connections.addIncoming addr pos fp)
      (Function.update known addr (some (fp, pos))) := by
  have unread : ∀ {incoming}, connections.incomingConnInfo.lookup
      (enterHandleBegin + connections.nextTriggerHandle) ≠ some incoming := fun found =>
    Nat.lt_irrefl _ (kept.recorded.older found)
  have lookups : ∀ handle, (connections.addIncoming addr pos fp).incomingConnInfo.lookup
      handle = if handle = enterHandleBegin + connections.nextTriggerHandle then
        some ⟨fp, addr, pos⟩ else connections.incomingConnInfo.lookup handle := by
    intro handle
    split
    · next same =>
      subst same
      exact AList.lookup_insert _
    · next apart => exact AList.lookup_insert_ne apart
  refine ⟨kept.recorded.add isNew pos fp, fun handle edge => ?_,
    fun asked name edge => ?_⟩
  · have barriers : (handle, edge) ∈ (connections.addIncoming addr pos fp).captures ↔
        (handle, edge) ∈ connections.captures ∨
          handle = enterHandleBegin + connections.nextTriggerHandle ∧ edge = pos := by
      unfold addIncoming
      simp
    rw [barriers, kept.captured handle edge, lookups]
    split
    · next same =>
      subst same
      constructor
      · rintro (⟨incoming, found, -⟩ | ⟨-, rfl⟩)
        · exact absurd found unread
        · exact ⟨_, rfl, rfl⟩
      · rintro ⟨incoming, found, rfl⟩
        cases found
        exact .inr ⟨rfl, rfl⟩
    · next apart => simp [apart]
  · by_cases same : asked = addr
    · subst same
      rw [update_self]
      constructor
      · intro isThis
        cases isThis
        exact ⟨_, by rw [lookups, if_pos rfl]⟩
      · rintro ⟨handle, found⟩
        rw [lookups] at found
        split at found
        · cases found
          rfl
        · exact absurd ((kept.recorded.known asked).mpr ⟨handle, _, found, rfl⟩) isNew
    · rw [update_of_ne same, kept.agrees asked]
      refine exists_congr fun handle => ?_
      rw [lookups]
      split
      · next here =>
        subst here
        constructor
        · exact fun found => absurd found unread
        · intro found
          cases found
          exact absurd rfl same
      · rfl

/-- An address is taken out, and the others agree as they did. -/
theorem kept_remove {connections : Connections Addr} {known : Addr → Option (String × Position)}
    {addr : Addr} (recorded : Recorded connections)
    (captured : ∀ handle, (∀ incoming, connections.find addr ≠ some (handle, incoming)) →
      Captured connections handle)
    (agrees : ∀ other, other ≠ addr → Agrees connections known other) :
    Kept (connections.removeIncoming addr).2 (Function.update known addr none) := by
  obtain ⟨left, -, lookups⟩ := recorded.remove addr
  refine ⟨left, fun handle edge => ?_, fun asked name edge => ?_⟩
  · have gone : (handle, edge) ∈ (connections.removeIncoming addr).2.captures ↔
        (handle, edge) ∈ connections.captures ∧
          ∀ incoming, connections.find addr ≠ some (handle, incoming) := by
      unfold removeIncoming
      cases connections.find addr with
      | none => simp
      | some pair =>
        obtain ⟨found, incoming⟩ := pair
        rw [List.mem_filter]
        refine and_congr_right fun _ => ?_
        rw [decide_eq_true_eq]
        constructor
        · intro apart held same
          exact apart (Prod.mk.inj (Option.some.inj same)).1.symm
        · rintro apart rfl
          exact apart incoming rfl
    rw [gone]
    constructor
    · rintro ⟨barrier, other⟩
      obtain ⟨incoming, found, rfl⟩ := (captured handle other edge).mp barrier
      refine ⟨incoming, (lookups handle incoming).mpr ⟨found, ?_⟩, rfl⟩
      rintro rfl
      exact other incoming (recorded.find_eq found)
    · rintro ⟨incoming, found, rfl⟩
      obtain ⟨before, apart⟩ := (lookups handle incoming).mp found
      have other : ∀ held, connections.find addr ≠ some (handle, held) := by
        intro held isHeld
        obtain ⟨there, same⟩ := find_some isHeld
        rw [before] at there
        exact apart (Option.some.inj there ▸ same)
      exact ⟨(captured handle other _).mpr ⟨incoming, before, rfl⟩, other⟩
  · by_cases same : asked = addr
    · subst same
      rw [update_self]
      simp [lookups]
    · rw [update_of_ne same, agrees asked same]
      simp [lookups, same]

section

variable (kept : Kept connections known)
include kept

/-- What no step touches may differ. -/
theorem Kept.congr {next : Connections Addr}
    (conns : next.incomingConns = connections.incomingConns)
    (info : next.incomingConnInfo = connections.incomingConnInfo)
    (barriers : next.captures = connections.captures)
    (handles : next.nextTriggerHandle = connections.nextTriggerHandle) : Kept next known := by
  obtain ⟨⟨known', once, older⟩, captured, agrees⟩ := kept
  refine ⟨⟨?_, ?_, ?_⟩, fun handle pos => ?_, fun addr fingerprint pos => ?_⟩
  · rwa [conns, info]
  · rwa [info]
  · rwa [info, handles]
  · rw [barriers, info]
    exact captured handle pos
  · rw [info]
    exact agrees addr fingerprint pos

theorem Kept.remove (addr : Addr) :
    Kept (connections.removeIncoming addr).2 (Function.update known addr none) :=
  kept_remove kept.recorded (fun handle _ => kept.captured handle) fun other _ =>
    kept.agrees other

/-- An address that enters again is registered again, with what it now entered with. -/
theorem Kept.update (member : addr ∈ connections.incomingConns) (pos : Position)
    (fingerprint : String) : ∃ next, connections.updateIncoming addr pos fingerprint = some next ∧
      Kept next (Function.update known addr (some (fingerprint, pos))) := by
  obtain ⟨handle, incoming, isThis, rfl⟩ := (kept.recorded.known addr).mp member
  have found := kept.recorded.find_eq isThis
  unfold updateIncoming
  rw [found]
  dsimp only
  split
  · next changed =>
    refine ⟨_, rfl, ?_⟩
    generalize rewritten : ({ connections with
      incomingConnInfo := connections.incomingConnInfo.changeAt handle fun incoming =>
        { incoming with fingerprint := fingerprint, pos := pos } } : Connections Addr) = now
    have recorded : Recorded now := rewritten ▸ kept.recorded.rewrite fun _ => rfl
    have lookups : ∀ other, other ≠ handle →
        now.incomingConnInfo.lookup other = connections.incomingConnInfo.lookup other := by
      intro other apart
      rw [← rewritten, Table.lookup_changeAt, if_neg apart]
    have here : now.incomingConnInfo.lookup handle =
        some { incoming with fingerprint := fingerprint, pos := pos } := by
      rw [← rewritten, Table.lookup_changeAt, if_pos rfl, isThis]
      rfl
    have foundNow := recorded.find_eq here
    have gone : Kept (now.removeIncoming incoming.addr).2
        (Function.update known incoming.addr none) := by
      refine kept_remove recorded ?_ ?_
      · intro other apart edge
        have differs : other ≠ handle := by
          rintro rfl
          exact apart _ foundNow
        rw [lookups other differs, ← kept.captured other edge, ← rewritten]
      · intro asked apart name edge
        rw [kept.agrees asked]
        refine exists_congr fun other => ?_
        by_cases same : other = handle
        · subst same
          rw [here, isThis]
          constructor
          · intro isOther
            exact absurd (congrArg Incoming.addr (Option.some.inj isOther)) (Ne.symm apart)
          · intro isOther
            exact absurd (congrArg Incoming.addr (Option.some.inj isOther)) (Ne.symm apart)
        · rw [lookups other same]
    have added := gone.add (recorded.remove incoming.addr).2.1 pos fingerprint
    rw [update_idem] at added
    exact added.congr rfl rfl rfl rfl
  · next unchanged =>
    refine ⟨_, rfl, ?_⟩
    rw [not_or, not_not, not_not] at unchanged
    obtain ⟨rfl, rfl⟩ := unchanged
    rw [update_eq_self_iff.mpr]
    · exact kept
    · exact ((kept.agrees incoming.addr _ _).mpr ⟨handle, isThis⟩).symm

end

theorem Kept.step (kept : Kept connections known) (event : ConnectionEvent Addr) :
    ∃ next, connections.step event = some next ∧ Kept next (register known event) := by
  cases event with
  | connected addr fingerprint => exact ⟨_, rfl, kept.congr rfl rfl rfl rfl⟩
  | entered addr pos fingerprint =>
    have entered : Kept { connections with
        currentlyControlling := insert addr connections.currentlyControlling } known :=
      kept.congr rfl rfl rfl rfl
    unfold Connections.step
    dsimp only
    split
    · next isNew =>
      exact ⟨_, rfl, (entered.add isNew pos fingerprint).congr rfl rfl rfl rfl⟩
    · next isKnown => exact entered.update (not_not.mp isKnown) pos fingerprint
  | disconnected addr =>
    have gone : Kept { connections with
        currentlyControlling := connections.currentlyControlling.erase addr
        connectedPeers := connections.connectedPeers.erase addr } known :=
      kept.congr rfl rfl rfl rfl
    have removed := gone.remove addr
    unfold Connections.step
    dsimp only
    generalize Connections.removeIncoming _ addr = result at removed ⊢
    refine ⟨_, rfl, ?_⟩
    split
    · exact removed.congr rfl rfl rfl rfl
    · exact removed
  | edgePushed addr side =>
    refine ⟨_, rfl, ?_⟩
    split
    · exact kept.congr rfl rfl rfl rfl
    · exact kept
  | captureBegin handle =>
    unfold Connections.step
    dsimp only
    split
    · exact ⟨_, rfl, kept.congr rfl rfl rfl rfl⟩
    · exact ⟨_, rfl, kept⟩

theorem kept_run (events : List (ConnectionEvent Addr)) :
    ∃ connections, run events = some connections ∧
      Kept connections (events.foldl register fun _ => none) := by
  induction events using List.reverseRecOn with
  | nil => exact ⟨empty, rfl, empty_kept⟩
  | append_singleton events event ih =>
    obtain ⟨connections, isRun, kept⟩ := ih
    obtain ⟨next, isNext, keptNext⟩ := kept.step event
    refine ⟨next, ?_, ?_⟩
    · unfold run at isRun ⊢
      rw [List.foldlM_append, isRun]
      simp [isNext]
    · rw [List.foldl_append]
      exact keptNext

/--
Whatever order connections enter, enter again and end in, no lookup fails: the
addresses registered are those on record, each under one handle with its barrier at
the edge it entered over, and what is on record is what each entered with last.
-/
theorem incoming_bookkeeping (events : List (ConnectionEvent Addr)) :
    ∃ connections, run events = some connections ∧
      (∀ addr, addr ∈ connections.incomingConns ↔
        ∃ handle incoming, connections.incomingConnInfo.lookup handle = some incoming ∧
          incoming.addr = addr) ∧
      (∀ addr ∈ connections.incomingConns, ∃! handle, ∃ incoming,
        connections.incomingConnInfo.lookup handle = some incoming ∧ incoming.addr = addr) ∧
      (∀ addr ∈ connections.incomingConns, ∀ pos fingerprint,
        (connections.updateIncoming addr pos fingerprint).isSome) ∧
      (∀ handle pos, (handle, pos) ∈ connections.captures ↔
        ∃ incoming, connections.incomingConnInfo.lookup handle = some incoming ∧
          incoming.pos = pos) ∧
      ∀ addr fingerprint pos,
        events.foldl register (fun _ => none) addr = some (fingerprint, pos) ↔
          ∃ handle, connections.incomingConnInfo.lookup handle = some ⟨fingerprint, addr, pos⟩ := by
  obtain ⟨connections, isRun, kept⟩ := kept_run events
  refine ⟨connections, isRun, kept.recorded.known, fun addr member => ?_,
    fun addr member pos fingerprint => ?_, kept.captured, kept.agrees⟩
  · obtain ⟨handle, incoming, isThis, same⟩ := (kept.recorded.known addr).mp member
    refine ⟨handle, ⟨incoming, isThis, same⟩, ?_⟩
    rintro other ⟨second, isOther, again⟩
    exact kept.recorded.once isOther isThis (again.trans same.symm)
  · obtain ⟨next, isNext, -⟩ := kept.update member pos fingerprint
    rw [isNext]
    rfl

end Connections

end HopsFormal.Edges
