import HopsFormal.Lib.LastSplit
import HopsFormal.Lib.Recent
import HopsFormal.Lib.Walk
import HopsFormal.Trust.Identity
import Mathlib.Algebra.GroupWithZero.Nat
import Mathlib.Data.List.MinMax

/-!
# The machines seen on the network

A machine that announces itself is filed under the fingerprint it claims, or under
its name if it claims none, and leaves the list when a name is withdrawn.  What is
announced later is folded into what was announced first.  The list and the
addresses of one machine are bounded.
-/

namespace HopsFormal.Discovery

open AList Lib
open Trust (isWhitespace)

/-- A machine seen on the local network. -/
structure DiscoveredPeer (Addr : Type) where
  claimedFingerprint : Option String
  label : String
  addrs : List Addr
  deriving DecidableEq

/-- The bytes of a text. -/
def len (label : String) : Nat := (label.toList.map Char.utf8Size).sum

/-- A name without the number mDNS gives one that was taken: `studio (2)` is `studio`. -/
def baseLabel (label : String) : String :=
  match splitLast [' ', '('] (label.toList.rdropWhile isWhitespace) with
  | none => label
  | some (front, inner) =>
    if inner.getLast? = some ')' ∧ inner.dropLast ≠ [] ∧ inner.dropLast.all Char.isDigit then
      String.ofList front
    else label

section Peers

variable {Addr : Type}

def peerKey (peer : DiscoveredPeer Addr) : String :=
  peer.claimedFingerprint.getD peer.label

/-- The most addresses kept for one machine. -/
def maxAddrs : Nat := 16

/-- The machine filed under each key, and when it was last heard. -/
abbrev DiscoveredPeers (Addr : Type) := Table String (DiscoveredPeer Addr × Nat)

/-- More machines than a network running hops has. -/
def maxPeers : Nat := 64

section Merge

variable [LinearOrder Addr]

/-- The addresses that are new, as long as there is room. -/
def addAddrs : List Addr → List Addr → List Addr
  | addrs, [] => addrs
  | addrs, addr :: more =>
    if maxAddrs ≤ addrs.length then addrs
    else addAddrs (if addr ∈ addrs then addrs else addrs ++ [addr]) more

/-- What is known of a machine with an announcement folded in, and whether it changed. -/
def merge (known new : DiscoveredPeer Addr) : Bool × DiscoveredPeer Addr :=
  let into : DiscoveredPeer Addr :=
    { addrs := (addAddrs known.addrs new.addrs).mergeSort
      label := if len (baseLabel new.label) < len known.label then baseLabel new.label
        else known.label
      claimedFingerprint := known.claimedFingerprint.or new.claimedFingerprint }
  (decide (into ≠ known), into)

end Merge

namespace DiscoveredPeers

def heard (peers : DiscoveredPeers Addr) (key : String) : Nat :=
  ((peers.lookup key).map Prod.snd).getD 0

/-- Past the bound, the machine heard from longest ago makes room. -/
def makeRoom (peers : DiscoveredPeers Addr) (walk : Walk String) : DiscoveredPeers Addr :=
  if maxPeers ≤ peers.size then
    match (walk.keys peers.keys).argmin peers.heard with
    | some stalest => peers.erase stalest
    | none => peers
  else peers

/-- Record an announcement; says whether the list changed. -/
def found [LinearOrder Addr] (peers : DiscoveredPeers Addr) (walk : Walk String)
    (peer : DiscoveredPeer Addr) (now : Nat) : Bool × DiscoveredPeers Addr :=
  let peer := { peer with addrs := peer.addrs.take maxAddrs }
  match peers.lookup (peerKey peer) with
  | some (known, _) =>
    let (changed, into) := merge known peer
    (changed, AList.insert (peerKey peer) (into, now) peers)
  | none => (true, AList.insert (peerKey peer) (peer, now) (peers.makeRoom walk))

/-- The key whose name is the one withdrawn, the numbers of both apart. -/
def filedAs (peers : DiscoveredPeers Addr) (walk : Walk String) (label : String) : Option String :=
  (walk.keys peers.keys).find? fun key =>
    (peers.lookup key).any fun known => baseLabel known.1.label = baseLabel label

/-- Forget the machine announced under a name; says which it was. -/
def lost (peers : DiscoveredPeers Addr) (walk : Walk String) (label : String) :
    Option (DiscoveredPeer Addr) × DiscoveredPeers Addr :=
  match peers.filedAs walk label with
  | none => (none, peers)
  | some key => ((peers.lookup key).map Prod.fst, peers.erase key)

/-! ## What each does to the list -/

variable {peers : DiscoveredPeers Addr} {walk : Walk String} {key label : String}

theorem lookup_of_makeRoom {value : DiscoveredPeer Addr × Nat}
    (found : (peers.makeRoom walk).lookup key = some value) : peers.lookup key = some value := by
  unfold makeRoom at found
  split at found
  · split at found
    · exact (Table.lookup_of_erase found).2
    · exact found
  · exact found

theorem makeRoom_of_room (walk : Walk String) (room : peers.size < maxPeers) :
    peers.makeRoom walk = peers := by
  exact if_neg (Nat.not_le.mpr room)

theorem size_eq (peers : DiscoveredPeers Addr) : peers.size = peers.keys.length := by
  simp [Table.size, AList.keys, List.keys]

/-- Where machines are listed, one of them was heard from longest ago. -/
theorem stalest_isSome (walk : Walk String) (listed : 0 < peers.size) :
    ∃ stalest ∈ peers, (walk.keys peers.keys).argmin peers.heard = some stalest := by
  cases least : (walk.keys peers.keys).argmin peers.heard with
  | none =>
    have empty := List.argmin_eq_none.mp least
    have length := (walk.perm peers.keys).length_eq
    rw [empty, ← size_eq] at length
    exact absurd length (Nat.ne_of_lt listed)
  | some stalest =>
    exact ⟨stalest, (walk.perm peers.keys).mem_iff.mp (List.argmin_mem least), rfl⟩

theorem size_makeRoom_lt (walk : Walk String) (bounded : peers.size ≤ maxPeers) :
    Table.size (peers.makeRoom walk) < maxPeers := by
  unfold makeRoom
  split
  · next full =>
    obtain ⟨stalest, member, least⟩ :=
      stalest_isSome walk (Nat.lt_of_lt_of_le (by decide) full)
    rw [least]
    have erased : Table.size (AList.erase stalest peers) = peers.keys.length - 1 := by
      rw [size_eq, keys_erase, List.length_erase_of_mem (AList.mem_keys.mp member)]
    rw [size_eq] at bounded full
    rw [erased]
    have positive : 0 < maxPeers := by decide
    omega
  · omega

section Found

variable [LinearOrder Addr]

/-- What an announcement leaves of a machine that may be listed already. -/
def foldedInto (listed : Option (DiscoveredPeer Addr × Nat)) (peer : DiscoveredPeer Addr) :
    DiscoveredPeer Addr :=
  match listed with
  | some (known, _) => (merge known { peer with addrs := peer.addrs.take maxAddrs }).2
  | none => { peer with addrs := peer.addrs.take maxAddrs }

variable {peers : DiscoveredPeers Addr} {peer : DiscoveredPeer Addr}

theorem found_known (walk : Walk String) {known : DiscoveredPeer Addr} {time : Nat}
    (listed : peers.lookup (peerKey peer) = some (known, time)) (now : Nat) :
    peers.found walk peer now =
      ((merge known { peer with addrs := peer.addrs.take maxAddrs }).1,
        AList.insert (peerKey peer) (foldedInto (some (known, time)) peer, now) peers) := by
  have key : peerKey { peer with addrs := peer.addrs.take maxAddrs } = peerKey peer := rfl
  unfold found
  dsimp only
  rw [key, listed]
  rfl

theorem found_new (walk : Walk String) (unlisted : peers.lookup (peerKey peer) = none) (now : Nat) :
    peers.found walk peer now =
      (true, AList.insert (peerKey peer) (foldedInto none peer, now) (peers.makeRoom walk)) := by
  have key : peerKey { peer with addrs := peer.addrs.take maxAddrs } = peerKey peer := rfl
  unfold found
  dsimp only
  rw [key, unlisted]
  rfl

/-- A machine that is announced is listed, with the announcement folded in. -/
theorem lookup_found (peers : DiscoveredPeers Addr) (walk : Walk String) (peer : DiscoveredPeer Addr)
    (now : Nat) : (peers.found walk peer now).2.lookup (peerKey peer) =
      some (foldedInto (peers.lookup (peerKey peer)) peer, now) := by
  cases listed : peers.lookup (peerKey peer) with
  | none =>
    rw [found_new walk listed]
    exact lookup_insert _
  | some value =>
    rw [found_known walk listed]
    exact lookup_insert _

/-- An announcement adds or changes no machine but the one announced. -/
theorem lookup_of_found {walk : Walk String} {now : Nat} {key : String}
    {value : DiscoveredPeer Addr × Nat} (other : key ≠ peerKey peer)
    (listed : (peers.found walk peer now).2.lookup key = some value) :
    peers.lookup key = some value := by
  cases known : peers.lookup (peerKey peer) with
  | none =>
    rw [found_new walk known, lookup_insert_ne other] at listed
    exact lookup_of_makeRoom listed
  | some old =>
    rw [found_known walk known, lookup_insert_ne other] at listed
    exact listed

theorem lookup_found_other (walk : Walk String) (now : Nat) {key : String}
    (other : key ≠ peerKey peer) (room : peerKey peer ∈ peers ∨ peers.size < maxPeers) :
    (peers.found walk peer now).2.lookup key = peers.lookup key := by
  cases known : peers.lookup (peerKey peer) with
  | none =>
    have few := room.resolve_left (lookup_eq_none.mp known)
    rw [found_new walk known, lookup_insert_ne other, makeRoom_of_room walk few]
  | some old => rw [found_known walk known, lookup_insert_ne other]

theorem size_found (walk : Walk String) (peer : DiscoveredPeer Addr) (now : Nat)
    (bounded : peers.size ≤ maxPeers) : Table.size (peers.found walk peer now).2 ≤ maxPeers := by
  cases known : peers.lookup (peerKey peer) with
  | none =>
    rw [found_new walk known]
    exact (Table.size_insert_le _ _ _).trans (size_makeRoom_lt walk bounded)
  | some old =>
    have member : peerKey peer ∈ peers := lookup_isSome.mp (by rw [known]; rfl)
    have positive := List.length_pos_of_mem (AList.mem_keys.mp member)
    rw [found_known walk known, size_eq, keys_insert, List.length_cons,
      List.length_erase_of_mem (AList.mem_keys.mp member)]
    rw [size_eq] at bounded
    omega

end Found

theorem filedAs_some (filed : peers.filedAs walk label = some key) :
    ∃ known time, peers.lookup key = some (known, time) ∧
      baseLabel known.label = baseLabel label := by
  have named := List.find?_some filed
  rw [Option.any_eq_true] at named
  obtain ⟨⟨known, time⟩, listed, same⟩ := named
  exact ⟨known, time, listed, of_decide_eq_true same⟩

theorem filedAs_none (filed : peers.filedAs walk label = none) {known : DiscoveredPeer Addr}
    {time : Nat} (listed : peers.lookup key = some (known, time)) :
    baseLabel known.label ≠ baseLabel label := by
  have member : key ∈ walk.keys peers.keys :=
    (walk.perm peers.keys).mem_iff.mpr (AList.mem_keys.mp (lookup_isSome.mp (by
      rw [listed]
      rfl)))
  have unnamed := List.find?_eq_none.mp filed key member
  rw [listed, Option.any_some, decide_eq_true_eq] at unnamed
  exact unnamed

/-- What a withdrawal leaves was listed before. -/
theorem lookup_of_lost {value : DiscoveredPeer Addr × Nat}
    (listed : (peers.lost walk label).2.lookup key = some value) :
    peers.lookup key = some value := by
  unfold lost at listed
  split at listed
  · exact listed
  · exact (Table.lookup_of_erase listed).2

theorem mem_lost :
    key ∈ (peers.lost walk label).2 ↔ key ∈ peers ∧ peers.filedAs walk label ≠ some key := by
  unfold lost
  split
  · next filed => simp [filed]
  · next gone filed =>
    rw [mem_erase, filed, and_comm]
    refine and_congr_right fun _ => ?_
    rw [ne_eq, ne_eq, Option.some.injEq, eq_comm]

theorem size_lost_le (peers : DiscoveredPeers Addr) (walk : Walk String) (label : String) :
    Table.size (peers.lost walk label).2 ≤ peers.size := by
  unfold lost
  split
  · exact Nat.le_refl _
  · rw [size_eq, size_eq, keys_erase]
    exact List.length_erase_le

end DiscoveredPeers

end Peers

end HopsFormal.Discovery
