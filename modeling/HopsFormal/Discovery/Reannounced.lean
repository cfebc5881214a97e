import HopsFormal.Discovery.Peers
import Mathlib.Data.Finset.Card
import Mathlib.Data.List.Sort

/-!
# What announcing again changes

A machine announces itself piece by piece.  Its first announcement is kept as it
came, with the addresses in their order and the name with its number; what follows
is folded in, and the addresses are then in order and the number is gone.
-/

namespace HopsFormal.Discovery

open List Lib
open Trust (isWhitespace)

variable {Addr : Type} [LinearOrder Addr]

/-! ## Folding in addresses -/

/-- What is folded in is new, once each, and all of it unless the room ran out. -/
theorem addAddrs_spec (addrs more : List Addr) :
    ∃ added, addAddrs addrs more = addrs ++ added ∧ added.Nodup ∧
      (∀ addr ∈ added, addr ∈ more ∧ addr ∉ addrs) ∧
      (added = [] ∨ (addrs ++ added).length ≤ maxAddrs) ∧
      ((∀ addr ∈ more, addr ∈ addrs ++ added) ∨ maxAddrs ≤ (addrs ++ added).length) := by
  induction more generalizing addrs with
  | nil => exact ⟨[], by simp [addAddrs]⟩
  | cons addr more ih =>
    unfold addAddrs
    by_cases full : maxAddrs ≤ addrs.length
    · refine ⟨[], ?_, nodup_nil, by simp, .inl rfl, .inr ?_⟩
      · rw [if_pos full, append_nil]
      · rw [append_nil]
        exact full
    · rw [if_neg full]
      by_cases known : addr ∈ addrs
      · obtain ⟨added, whole, nodup, isNew, bound, all⟩ := ih addrs
        rw [if_pos known]
        refine ⟨added, whole, nodup, fun other member => ?_, bound, ?_⟩
        · exact ⟨mem_cons_of_mem _ (isNew other member).1, (isNew other member).2⟩
        · refine all.imp_left fun each other member => ?_
          rcases mem_cons.mp member with rfl | later
          · exact mem_append_left _ known
          · exact each other later
      · obtain ⟨added, whole, nodup, isNew, bound, all⟩ := ih (addrs ++ [addr])
        rw [if_neg known]
        have joined : addrs ++ [addr] ++ added = addrs ++ addr :: added := by simp
        rw [joined] at whole bound all
        refine ⟨addr :: added, whole, ?_, fun other member => ?_, .inr ?_, ?_⟩
        · refine nodup_cons.mpr ⟨fun member => ?_, nodup⟩
          exact (isNew addr member).2 (by simp)
        · rcases mem_cons.mp member with rfl | later
          · exact ⟨mem_cons_self, known⟩
          · refine ⟨mem_cons_of_mem _ (isNew other later).1, fun member => ?_⟩
            exact (isNew other later).2 (mem_append_left _ member)
        · rcases bound with rfl | bound
          · rw [length_append, length_singleton]
            omega
          · exact bound
        · refine all.imp_left fun each other member => ?_
          rcases mem_cons.mp member with rfl | later
          · simp
          · exact each other later

variable {addrs : List Addr} {rest : List (List Addr)} {key : String} {peers : DiscoveredPeers Addr}
  {pieces : List (DiscoveredPeer Addr × Nat)}

theorem addAddrs_known {more : List Addr}
    (known : (∀ addr ∈ more, addr ∈ addrs) ∨ maxAddrs ≤ addrs.length) :
    addAddrs addrs more = addrs := by
  obtain ⟨added, whole, nodup, isNew, bound, -⟩ := addAddrs_spec addrs more
  rcases known with each | full
  · have nothing : added = [] := eq_nil_iff_forall_not_mem.mpr fun addr member =>
      (isNew addr member).2 (each addr (isNew addr member).1)
    rw [whole, nothing, append_nil]
  · rcases bound with rfl | bound
    · rw [whole, append_nil]
    · have nothing : added = [] := by
        rw [length_append] at bound
        exact eq_nil_of_length_eq_zero (by omega)
      rw [whole, nothing, append_nil]

theorem sorted_mergeSort (addrs : List Addr) : addrs.mergeSort.Pairwise (· ≤ ·) := by
  simpa using @pairwise_mergeSort _ (fun first second : Addr => decide (first ≤ second))
    (fun _ _ _ => by simpa using le_trans) (fun _ _ => by simpa using le_total _ _) addrs

theorem mergeSort_sorted : addrs.mergeSort = addrs ↔ addrs.Pairwise (· ≤ ·) := by
  constructor
  · intro same
    rw [← same]
    exact sorted_mergeSort addrs
  · intro sorted
    exact (mergeSort_perm addrs _).eq_of_pairwise (fun _ _ _ _ => le_antisymm)
      (sorted_mergeSort addrs) sorted

/-! ## The same announcement again -/

theorem baseLabel_front (label : String) :
    baseLabel label = label ∨ ∃ rest ≠ [], label.toList = (baseLabel label).toList ++ rest := by
  unfold baseLabel
  split
  · exact .inl rfl
  · next front inner found =>
    split
    · have trimmed := splitLast_some found
      obtain ⟨rest, whole⟩ := rdropWhile_prefix isWhitespace label.toList
      refine .inr ⟨[' ', '('] ++ inner ++ rest, by simp, ?_⟩
      rw [String.toList_ofList, ← whole, trimmed]
      simp
    · exact .inl rfl

theorem len_baseLabel_lt {label : String} :
    len (baseLabel label) < len label ↔ baseLabel label ≠ label := by
  constructor
  · intro shorter same
    rw [same] at shorter
    exact Nat.lt_irrefl _ shorter
  · intro differs
    obtain ⟨rest, nonempty, whole⟩ := (baseLabel_front label).resolve_left differs
    obtain ⟨first, others, rfl⟩ := exists_cons_of_ne_nil nonempty
    unfold len
    rw [whole, map_append, sum_append, map_cons, sum_cons]
    have positive := first.utf8Size_pos
    omega

/-- What was folded in is known already. -/
theorem merge_again (known new : DiscoveredPeer Addr) :
    merge (merge known new).2 new = (false, (merge known new).2) := by
  have same : (merge (merge known new).2 new).2 = (merge known new).2 := by
    obtain ⟨added, whole, -, -, -, all⟩ := addAddrs_spec known.addrs new.addrs
    have perm := mergeSort_perm (addAddrs known.addrs new.addrs)
      fun first second => decide (first ≤ second)
    have addrs : (addAddrs (addAddrs known.addrs new.addrs).mergeSort new.addrs).mergeSort =
        (addAddrs known.addrs new.addrs).mergeSort := by
      rw [addAddrs_known, mergeSort_sorted.mpr (sorted_mergeSort _)]
      rw [← whole] at all
      rw [perm.length_eq]
      exact all.imp_left fun each addr member => perm.mem_iff.mpr (each addr member)
    have label : (if len (baseLabel new.label) <
          len (if len (baseLabel new.label) < len known.label then baseLabel new.label
            else known.label) then baseLabel new.label
        else if len (baseLabel new.label) < len known.label then baseLabel new.label
          else known.label) =
        if len (baseLabel new.label) < len known.label then baseLabel new.label
          else known.label := by
      by_cases shorter : len (baseLabel new.label) < len known.label
      · rw [if_pos shorter, if_neg (Nat.lt_irrefl _)]
      · rw [if_neg shorter, if_neg shorter]
    have claimed : (known.claimedFingerprint.or new.claimedFingerprint).or
        new.claimedFingerprint = known.claimedFingerprint.or new.claimedFingerprint := by
      rw [Option.or_assoc, Option.or_self]
    unfold merge
    rw [addrs, label, claimed]
  have unchanged : (merge (merge known new).2 new).1 =
      decide ((merge (merge known new).2 new).2 ≠ (merge known new).2) := rfl
  refine Prod.ext ?_ same
  rw [unchanged, same]
  simp

/-- An announcement kept as it came is what folding it in again gives, if it is in order. -/
theorem merge_self (peer : DiscoveredPeer Addr) :
    (merge peer peer).2 = peer ↔
      peer.addrs.Pairwise (· ≤ ·) ∧ baseLabel peer.label = peer.label := by
  have addrs : addAddrs peer.addrs peer.addrs = peer.addrs :=
    addAddrs_known (.inl fun _ member => member)
  have whole : (merge peer peer).2 =
      ⟨peer.claimedFingerprint.or peer.claimedFingerprint,
        if len (baseLabel peer.label) < len peer.label then baseLabel peer.label else peer.label,
        (addAddrs peer.addrs peer.addrs).mergeSort⟩ := rfl
  have fields : (⟨peer.claimedFingerprint,
        if len (baseLabel peer.label) < len peer.label then baseLabel peer.label else peer.label,
        peer.addrs.mergeSort⟩ : DiscoveredPeer Addr) = peer ↔
      (if len (baseLabel peer.label) < len peer.label then baseLabel peer.label
        else peer.label) = peer.label ∧ peer.addrs.mergeSort = peer.addrs := by
    constructor
    · intro same
      exact ⟨congrArg DiscoveredPeer.label same, congrArg DiscoveredPeer.addrs same⟩
    · rintro ⟨label, sorted⟩
      rw [label, sorted]
  rw [whole, addrs, Option.or_self, fields, mergeSort_sorted, and_comm]
  refine and_congr_right fun _ => ?_
  constructor
  · intro label
    by_contra differs
    rw [if_pos (len_baseLabel_lt.mpr differs)] at label
    exact differs label
  · intro same
    rw [same, if_neg (Nat.lt_irrefl _)]

namespace DiscoveredPeers

/-- One list is another but for the time a machine was heard. -/
def HeardAgain (peers next : DiscoveredPeers Addr) (key : String) (now : Nat) : Prop :=
  (∀ other ≠ key, next.lookup other = peers.lookup other) ∧
    ∃ known time, peers.lookup key = some (known, time) ∧ next.lookup key = some (known, now)

/-- An announcement is reported as a change unless what is known has it folded in already. -/
theorem found_unchanged {peer known : DiscoveredPeer Addr} {time : Nat}
    (listed : peers.lookup (peerKey peer) = some (known, time)) (walk : Walk String) (now : Nat) :
    (peers.found walk peer now).1 = false ↔
      (merge known { peer with addrs := peer.addrs.take maxAddrs }).2 = known := by
  have told : (peers.found walk peer now).1 =
      decide ((merge known { peer with addrs := peer.addrs.take maxAddrs }).2 ≠ known) := by
    rw [found_known walk listed]
    rfl
  rw [told, decide_eq_false_iff_not, not_not]

theorem found_folded {peer known : DiscoveredPeer Addr} {time : Nat}
    (listed : peers.lookup (peerKey peer) = some (known, time)) (walk : Walk String) (now : Nat) :
    ((peers.found walk peer now).1 = false ∧
      HeardAgain peers (peers.found walk peer now).2 (peerKey peer) now) ↔
        (merge known { peer with addrs := peer.addrs.take maxAddrs }).2 = known := by
  rw [found_unchanged listed]
  refine ⟨And.left, fun same => ⟨same, fun other apart => ?_, known, time, listed, ?_⟩⟩
  · exact lookup_found_other walk now apart
      (.inl (AList.lookup_isSome.mp (Option.isSome_of_mem listed)))
  · rw [lookup_found, listed]
    exact congrArg (fun folded => some (folded, now)) same

/--
Announced again, a machine that was listed before is not changed; one that was not is
left unchanged exactly when it was announced in order and with no number in its name.
-/
theorem found_again (peers : DiscoveredPeers Addr) (walk again : Walk String)
    (peer : DiscoveredPeer Addr) (now later : Nat) :
    let heard := (peers.found walk peer now).2
    ((heard.found again peer later).1 = false ∧
      HeardAgain heard (heard.found again peer later).2 (peerKey peer) later) ↔
        peerKey peer ∈ peers ∨
          (peer.addrs.take maxAddrs).Pairwise (· ≤ ·) ∧ baseLabel peer.label = peer.label := by
  intro heard
  have listed := lookup_found peers walk peer now
  rw [found_folded listed again later]
  cases before : peers.lookup (peerKey peer) with
  | none =>
    have unlisted : peerKey peer ∉ peers := AList.lookup_eq_none.mp before
    rw [or_iff_right unlisted]
    exact merge_self { peer with addrs := peer.addrs.take maxAddrs }
  | some old =>
    obtain ⟨known, time⟩ := old
    have isListed : peerKey peer ∈ peers := AList.lookup_isSome.mp (Option.isSome_of_mem before)
    refine iff_of_true ?_ (.inl isListed)
    have folded := merge_again known { peer with addrs := peer.addrs.take maxAddrs }
    exact (Prod.ext_iff.mp folded).2

/-! ## The pieces of one machine, in any order -/

def hearAll (walk : Walk String) (peers : DiscoveredPeers Addr)
    (pieces : List (DiscoveredPeer Addr × Nat)) : DiscoveredPeers Addr :=
  pieces.foldl (fun peers piece => (peers.found walk piece.1 piece.2).2) peers

/-- The addresses and the fingerprint listed for a machine. -/
def listing (peers : DiscoveredPeers Addr) (key : String) :
    Option (List Addr × Option String) :=
  (peers.lookup key).map fun known => (known.1.addrs, known.1.claimedFingerprint)

end DiscoveredPeers

open DiscoveredPeers

def kept (piece : DiscoveredPeer Addr × Nat) : List Addr := piece.1.addrs.take maxAddrs

/-- What was kept first, with what came after it and was new. -/
def Grown (first : List Addr) (rest : List (List Addr)) (addrs : List Addr) : Prop :=
  ∃ added, addrs.Perm (first ++ added) ∧ added.Nodup ∧
    (∀ addr ∈ added, addr ∉ first ∧ ∃ more ∈ rest, addr ∈ more) ∧
    addrs.length ≤ maxAddrs ∧
    ((∀ more ∈ rest, ∀ addr ∈ more, addr ∈ addrs) ∨ maxAddrs ≤ addrs.length)

omit [LinearOrder Addr] in
theorem Grown.first {first : List Addr} (bounded : first.length ≤ maxAddrs) :
    Grown first [] first :=
  ⟨[], by simp, nodup_nil, by simp, bounded, .inl (by simp)⟩

theorem Grown.more {first : List Addr} (grown : Grown first rest addrs) (more : List Addr) :
    Grown first (rest ++ [more]) (addAddrs addrs more).mergeSort := by
  obtain ⟨before, perm, nodup, isNew, bounded, all⟩ := grown
  obtain ⟨added, whole, once, news, bound, each⟩ := addAddrs_spec addrs more
  have sorted := mergeSort_perm (addAddrs addrs more) fun first second : Addr =>
    decide (first ≤ second)
  have length := sorted.length_eq
  rw [whole] at sorted length
  rw [whole]
  refine ⟨before ++ added, ?_, ?_, ?_, ?_, ?_⟩
  · rw [← append_assoc]
    exact sorted.trans (perm.append_right added)
  · refine nodup.append once fun addr isBefore isAdded => (news addr isAdded).2 ?_
    exact perm.mem_iff.mpr (mem_append_right _ isBefore)
  · intro addr member
    rcases mem_append.mp member with isBefore | isAdded
    · obtain ⟨notFirst, piece, isPiece, inside⟩ := isNew addr isBefore
      exact ⟨notFirst, piece, mem_append_left _ isPiece, inside⟩
    · refine ⟨fun isFirst => (news addr isAdded).2 ?_, more, by simp, (news addr isAdded).1⟩
      exact perm.mem_iff.mpr (mem_append_left _ isFirst)
  · rw [length]
    rcases bound with rfl | bound
    · rw [append_nil]
      exact bounded
    · exact bound
  · rw [length]
    rcases each with each | full
    · rcases all with all | full
      · refine .inl fun piece isPiece addr inside => sorted.mem_iff.mpr ?_
        rcases mem_append.mp isPiece with isBefore | isLast
        · exact mem_append_left _ (all piece isBefore addr inside)
        · rw [mem_singleton.mp isLast] at inside
          exact each addr inside
      · refine .inr (full.trans ?_)
        rw [length_append]
        omega
    · exact .inr full

/-- Where every address found room, each is listed as often as the first piece has it, or once. -/
theorem Grown.count {first : List Addr} (grown : Grown first rest addrs) {addr : Addr}
    (member : addr ∈ addrs) : addrs.count addr = max 1 (first.count addr) := by
  obtain ⟨added, perm, nodup, isNew, -, -⟩ := grown
  rw [perm.count_eq, count_append]
  rcases mem_append.mp (perm.mem_iff.mp member) with isFirst | isAdded
  · have notAdded : addr ∉ added := fun isAdded => (isNew addr isAdded).1 isFirst
    have positive := count_pos_iff.mpr isFirst
    rw [count_eq_zero_of_not_mem notAdded]
    omega
  · rw [count_eq_zero_of_not_mem (isNew addr isAdded).1,
      count_eq_one_of_mem nodup isAdded]
    rfl

omit [LinearOrder Addr] in
theorem Grown.mem {first : List Addr} (grown : Grown first rest addrs) {addr : Addr}
    (member : addr ∈ addrs) : addr ∈ first ∨ ∃ more ∈ rest, addr ∈ more := by
  obtain ⟨added, perm, -, isNew, -, -⟩ := grown
  rcases mem_append.mp (perm.mem_iff.mp member) with isFirst | isAdded
  · exact .inl isFirst
  · exact .inr (isNew addr isAdded).2

/-- Every address is listed exactly when those the first piece has not found room after it. -/
theorem Grown.all_iff {first : List Addr} (grown : Grown first rest addrs) {all : Finset Addr}
    (isAll : ∀ addr, addr ∈ all ↔ addr ∈ first ∨ ∃ more ∈ rest, addr ∈ more) :
    (∀ addr ∈ all, addr ∈ addrs) ↔ first.length + (all \ first.toFinset).card ≤ maxAddrs := by
  obtain ⟨added, perm, nodup, isNew, bounded, covers⟩ := grown
  have length := perm.length_eq
  rw [length_append] at length
  have inside : added.toFinset ⊆ all \ first.toFinset := by
    intro addr member
    obtain ⟨notFirst, more⟩ := isNew addr (mem_toFinset.mp member)
    exact Finset.mem_sdiff.mpr ⟨(isAll addr).mpr (.inr more), fun isFirst =>
      notFirst (mem_toFinset.mp isFirst)⟩
  have card : added.toFinset.card = added.length := toFinset_card_of_nodup nodup
  constructor
  · intro listed
    have covered : all \ first.toFinset ⊆ added.toFinset := by
      intro addr member
      obtain ⟨isOne, notFirst⟩ := Finset.mem_sdiff.mp member
      rcases mem_append.mp (perm.mem_iff.mp (listed addr isOne)) with isFirst | isAdded
      · exact absurd (mem_toFinset.mpr isFirst) notFirst
      · exact mem_toFinset.mpr isAdded
    rw [Finset.Subset.antisymm covered inside, card]
    omega
  · intro room addr isOne
    rcases (isAll addr).mp isOne with isFirst | ⟨more, isMore, isIn⟩
    · exact perm.mem_iff.mpr (mem_append_left _ isFirst)
    · rcases covers with each | full
      · exact each more isMore addr isIn
      · have whole : added.toFinset = all \ first.toFinset :=
          Finset.eq_of_subset_of_card_le inside (by omega)
        by_cases isFirst : addr ∈ first
        · exact perm.mem_iff.mpr (mem_append_left _ isFirst)
        · have isAdded : addr ∈ added.toFinset := by
            rw [whole]
            exact Finset.mem_sdiff.mpr ⟨isOne, fun member =>
              isFirst (mem_toFinset.mp member)⟩
          exact perm.mem_iff.mpr (mem_append_right _ (mem_toFinset.mp isAdded))

/-- What is listed of a machine when its pieces have been heard, the first one before the rest. -/
structure Pieced (key : String) (first : DiscoveredPeer Addr × Nat)
    (rest : List (DiscoveredPeer Addr × Nat)) (known : DiscoveredPeer Addr) : Prop where
  grown : Grown (kept first) (rest.map kept) known.addrs
  sorted : rest ≠ [] → known.addrs.Pairwise (· ≤ ·)
  claimed : known.claimedFingerprint =
    if ∃ piece ∈ first :: rest, piece.1.claimedFingerprint ≠ none then some key else none

omit [LinearOrder Addr] in
theorem claimed_of_key {peer : DiscoveredPeer Addr} (isKey : peerKey peer = key) :
    peer.claimedFingerprint = if peer.claimedFingerprint ≠ none then some key else none := by
  unfold peerKey at isKey
  cases claimed : peer.claimedFingerprint with
  | none => rfl
  | some fp =>
    rw [claimed] at isKey
    simpa using isKey

variable (walk : Walk String)

theorem pieced_hearAll (unlisted : peers.lookup key = none) {first : DiscoveredPeer Addr × Nat}
    {rest : List (DiscoveredPeer Addr × Nat)}
    (same : ∀ piece ∈ first :: rest, peerKey piece.1 = key) :
    ∃ known time, (peers.hearAll walk (first :: rest)).lookup key = some (known, time) ∧
      Pieced key first rest known := by
  induction rest using reverseRecOn with
  | nil =>
    have isKey := same first mem_cons_self
    have listed := lookup_found peers walk first.1 first.2
    rw [isKey, unlisted] at listed
    refine ⟨_, _, listed, Grown.first (length_take_le _ _), fun some_ => absurd rfl some_, ?_⟩
    refine (claimed_of_key isKey).trans ?_
    simp
  | append_singleton rest last ih =>
    obtain ⟨known, time, listed, pieced⟩ := ih fun piece member => same piece (by
      rw [← cons_append]
      exact mem_append_left _ member)
    have isKey := same last (by simp)
    have again := lookup_found (peers.hearAll walk (first :: rest)) walk last.1 last.2
    rw [isKey, listed] at again
    refine ⟨foldedInto (some (known, time)) last.1, last.2, ?_, ?_⟩
    · rw [hearAll, ← cons_append, foldl_append]
      exact again
    · refine ⟨?_, fun _ => sorted_mergeSort _, ?_⟩
      · rw [map_append]
        exact pieced.grown.more (kept last)
      · have joined : (foldedInto (some (known, time)) last.1).claimedFingerprint =
            known.claimedFingerprint.or last.1.claimedFingerprint := rfl
        have claims : (∃ piece ∈ first :: (rest ++ [last]), piece.1.claimedFingerprint ≠ none) ↔
            (∃ piece ∈ first :: rest, piece.1.claimedFingerprint ≠ none) ∨
              last.1.claimedFingerprint ≠ none := by
          rw [← cons_append]
          simp only [mem_append, mem_singleton, or_and_right, exists_or, exists_eq_left]
        rw [joined, pieced.claimed]
        by_cases before : ∃ piece ∈ first :: rest, piece.1.claimedFingerprint ≠ none
        · rw [if_pos before, if_pos (claims.mpr (.inl before))]
          rfl
        · rw [if_neg before, Option.none_or]
          refine (claimed_of_key isKey).trans (if_congr ?_ rfl rfl)
          rw [claims, or_iff_right before]

/--
Announcements of one machine repeat the same addresses equally often, and with the
repeats their addresses find room.
-/
def RepeatAlike (pieces : List (DiscoveredPeer Addr × Nat)) : Prop :=
  let all := (pieces.flatMap kept).toFinset
  (∀ piece ∈ pieces, ∀ other ∈ pieces, ∀ addr ∈ all,
    max 1 ((kept piece).count addr) = max 1 ((kept other).count addr)) ∧
  ∀ piece ∈ pieces, (kept piece).length + (all \ (kept piece).toFinset).card ≤ maxAddrs

theorem mem_all {first : DiscoveredPeer Addr × Nat} {rest : List (DiscoveredPeer Addr × Nat)}
    (perm : (first :: rest).Perm pieces) (addr : Addr) : addr ∈ (pieces.flatMap kept).toFinset ↔
      addr ∈ kept first ∨ ∃ more ∈ rest.map kept, addr ∈ more := by
  rw [mem_toFinset, ← (perm.flatMap_right kept).mem_iff, flatMap_cons, mem_append,
    mem_flatMap]
  simp

theorem listing_of_alike (unlisted : peers.lookup key = none)
    {other : List (DiscoveredPeer Addr × Nat)} (same : ∀ piece ∈ pieces, peerKey piece.1 = key)
    (alike : pieces.length ≤ 1 ∨ RepeatAlike pieces) (perm : other.Perm pieces) :
    (peers.hearAll walk other).listing key = (peers.hearAll walk pieces).listing key := by
  rcases alike with few | ⟨equal, room⟩
  · cases pieces with
    | nil => rw [perm_nil.mp perm]
    | cons first rest =>
      cases rest with
      | nil => rw [perm_singleton.mp perm]
      | cons => simp at few
  · cases pieces with
    | nil => rw [perm_nil.mp perm]
    | cons first rest =>
      cases other with
      | nil => exact absurd (nil_perm.mp perm) (cons_ne_nil _ _)
      | cons start others =>
        obtain ⟨known, time, listed, pieced⟩ := pieced_hearAll walk unlisted same
        obtain ⟨second, later, listedToo, piecedToo⟩ := pieced_hearAll walk unlisted
          fun piece member => same piece (perm.mem_iff.mp member)
        have isStart := perm.mem_iff.mp mem_cons_self
        have all := (pieced.grown.all_iff (mem_all (Perm.refl _))).mpr
          (room first mem_cons_self)
        have allToo := (piecedToo.grown.all_iff (mem_all perm)).mpr (room start isStart)
        have counts : ∀ addr, second.addrs.count addr = known.addrs.count addr := by
          intro addr
          by_cases isOne : addr ∈ ((first :: rest).flatMap kept).toFinset
          · rw [piecedToo.grown.count (allToo addr isOne), pieced.grown.count (all addr isOne)]
            exact equal start isStart first mem_cons_self addr isOne
          · have notKnown : addr ∉ known.addrs := fun member =>
              isOne ((mem_all (Perm.refl _) addr).mpr (pieced.grown.mem member))
            have notSecond : addr ∉ second.addrs := fun member =>
              isOne ((mem_all perm addr).mpr (piecedToo.grown.mem member))
            rw [count_eq_zero_of_not_mem notKnown, count_eq_zero_of_not_mem notSecond]
        have addrs : second.addrs = known.addrs := by
          have bag := perm_iff_count.mpr counts
          cases rest with
          | nil =>
            obtain ⟨rfl, rfl⟩ := List.cons.inj (perm_singleton.mp perm)
            rw [listed] at listedToo
            cases listedToo
            rfl
          | cons next more =>
            have several : others ≠ [] := by
              rintro rfl
              simpa using perm.length_eq
            exact bag.eq_of_pairwise (fun _ _ _ _ => le_antisymm)
              (piecedToo.sorted several) (pieced.sorted (cons_ne_nil _ _))
        have claimed : second.claimedFingerprint = known.claimedFingerprint := by
          rw [piecedToo.claimed, pieced.claimed]
          simp only [perm.mem_iff]
        unfold listing
        rw [listed, listedToo, Option.map_some, Option.map_some, addrs, claimed]

theorem alike_of_listing (unlisted : peers.lookup key = none)
    (same : ∀ piece ∈ pieces, peerKey piece.1 = key) (ordered : ∀ other, other.Perm pieces →
      (peers.hearAll walk other).listing key = (peers.hearAll walk pieces).listing key) :
    RepeatAlike pieces := by
  -- whichever piece is heard first, the same addresses are listed
  have each : ∀ piece ∈ pieces, ∃ rest addrs claimed, (piece :: rest).Perm pieces ∧
      (peers.hearAll walk pieces).listing key = some (addrs, claimed) ∧
      Grown (kept piece) (rest.map kept) addrs := by
    intro piece member
    obtain ⟨front, back, rfl⟩ := append_of_mem member
    have perm : (piece :: (front ++ back)).Perm (front ++ piece :: back) :=
      perm_middle.symm
    obtain ⟨known, time, listed, pieced⟩ := pieced_hearAll walk unlisted
      fun other isOther => same other (perm.mem_iff.mp isOther)
    refine ⟨front ++ back, known.addrs, known.claimedFingerprint, perm, ?_, pieced.grown⟩
    rw [← ordered _ perm, listing, listed]
    rfl
  have covers : ∀ {addrs claimed},
      (peers.hearAll walk pieces).listing key = some (addrs, claimed) →
      ∀ addr ∈ (pieces.flatMap kept).toFinset, addr ∈ addrs := by
    intro addrs claimed listed addr isOne
    obtain ⟨piece, member, inside⟩ := mem_flatMap.mp (mem_toFinset.mp isOne)
    obtain ⟨rest, others, second, -, isListed, grown⟩ := each piece member
    rw [listed] at isListed
    cases isListed
    obtain ⟨added, perm, -⟩ := grown
    exact perm.mem_iff.mpr (mem_append_left _ inside)
  refine ⟨fun piece member other isOther addr isOne => ?_, fun piece member => ?_⟩
  · obtain ⟨rest, addrs, claimed, -, listed, grown⟩ := each piece member
    obtain ⟨others, second, third, -, isListed, grownToo⟩ := each other isOther
    rw [listed] at isListed
    cases isListed
    have inside := covers listed addr isOne
    exact (grown.count inside).symm.trans (grownToo.count inside)
  · obtain ⟨rest, addrs, claimed, perm, listed, grown⟩ := each piece member
    exact (grown.all_iff (mem_all perm)).mp (covers listed)

theorem listing_iff_alike (unlisted : key ∉ peers) (same : ∀ piece ∈ pieces, peerKey piece.1 = key) :
    (∀ other, other.Perm pieces →
      (peers.hearAll walk other).listing key = (peers.hearAll walk pieces).listing key) ↔
        pieces.length ≤ 1 ∨ RepeatAlike pieces :=
  ⟨fun ordered => .inr (alike_of_listing walk (AList.lookup_eq_none.mpr unlisted) same ordered),
    fun alike _ perm => listing_of_alike walk (AList.lookup_eq_none.mpr unlisted) same alike perm⟩

/-! ## What a run can leave -/

inductive DiscoveryEvent (Addr : Type) where
  | found (peer : DiscoveredPeer Addr)
  | lost (label : String)

namespace DiscoveredPeers

def step (peers : DiscoveredPeers Addr) (event : DiscoveryEvent Addr × Walk String × Nat) :
    DiscoveredPeers Addr :=
  match event with
  | (.found peer, walk, now) => (peers.found walk peer now).2
  | (.lost label, walk, _) => (peers.lost walk label).2

variable (events : List (DiscoveryEvent Addr × Walk String × Nat))

def run : DiscoveredPeers Addr :=
  events.foldl step ∅

/-- No address is listed more often than an announcement of the machine had it, or once. -/
def HeardOf (key : String) (known : DiscoveredPeer Addr) : Prop :=
  ∃ peer walk now, (.found peer, walk, now) ∈ events ∧ peerKey peer = key ∧
    ∀ addr, known.addrs.count addr ≤ max 1 (peer.addrs.count addr)

structure Bounded (events : List (DiscoveryEvent Addr × Walk String × Nat))
    (peers : DiscoveredPeers Addr) : Prop where
  machines : peers.size ≤ maxPeers
  addrs : ∀ {key known time}, peers.lookup key = some (known, time) →
    known.addrs.length ≤ maxAddrs ∧ HeardOf events key known

theorem HeardOf.mono {events : List (DiscoveryEvent Addr × Walk String × Nat)}
    {known : DiscoveredPeer Addr} (heardOf : HeardOf events key known)
    (event : DiscoveryEvent Addr × Walk String × Nat) : HeardOf (events ++ [event]) key known := by
  obtain ⟨peer, walk, now, member, isKey, bound⟩ := heardOf
  exact ⟨peer, walk, now, mem_append_left _ member, isKey, bound⟩

/-- Folding in adds an address at most once, and none past the bound. -/
theorem count_merge (known new : DiscoveredPeer Addr) {bound : Addr → Nat}
    (before : ∀ addr, known.addrs.count addr ≤ max 1 (bound addr))
    (few : known.addrs.length ≤ maxAddrs) :
    (merge known new).2.addrs.length ≤ maxAddrs ∧
      ∀ addr, (merge known new).2.addrs.count addr ≤ max 1 (bound addr) := by
  obtain ⟨added, whole, nodup, isNew, room, -⟩ := addAddrs_spec known.addrs new.addrs
  have perm : (merge known new).2.addrs.Perm (known.addrs ++ added) :=
    whole ▸ mergeSort_perm (addAddrs known.addrs new.addrs) _
  refine ⟨?_, fun addr => ?_⟩
  · rw [perm.length_eq]
    rcases room with rfl | room
    · rw [append_nil]
      exact few
    · exact room
  · rw [perm.count_eq, count_append]
    by_cases isAdded : addr ∈ added
    · rw [count_eq_zero_of_not_mem (isNew addr isAdded).2,
        count_eq_one_of_mem nodup isAdded]
      exact le_max_left _ _
    · rw [count_eq_zero_of_not_mem isAdded]
      exact before addr

theorem Bounded.step {events : List (DiscoveryEvent Addr × Walk String × Nat)}
    {peers : DiscoveredPeers Addr} (bounded : Bounded events peers)
    (event : DiscoveryEvent Addr × Walk String × Nat) :
    Bounded (events ++ [event]) (peers.step event) := by
  obtain ⟨told, walk, now⟩ := event
  cases told with
  | found peer =>
    refine ⟨size_found walk peer now bounded.machines, fun {key known time} listed => ?_⟩
    by_cases same : key = peerKey peer
    · subst same
      have isNow := (lookup_found peers walk peer now).symm.trans listed
      cases before : peers.lookup (peerKey peer) with
      | none =>
        rw [before] at isNow
        cases isNow
        refine ⟨length_take_le _ _, peer, walk, now, by simp, rfl, fun addr => ?_⟩
        exact ((take_sublist _ _).count_le addr).trans (le_max_right _ _)
      | some old =>
        obtain ⟨old, heardAt⟩ := old
        obtain ⟨few, first, walked, then_, member, isKey, bound⟩ := bounded.addrs before
        rw [before] at isNow
        cases isNow
        obtain ⟨length, count⟩ := count_merge old
          { peer with addrs := peer.addrs.take maxAddrs } bound few
        exact ⟨length, first, walked, then_, mem_append_left _ member, isKey, count⟩
    · obtain ⟨few, heardOf⟩ := bounded.addrs (lookup_of_found same listed)
      exact ⟨few, heardOf.mono _⟩
  | lost label =>
    refine ⟨(size_lost_le peers walk label).trans bounded.machines, fun listed => ?_⟩
    obtain ⟨few, heardOf⟩ := bounded.addrs (lookup_of_lost listed)
    exact ⟨few, heardOf.mono _⟩

theorem bounded_run : Bounded events (run events) := by
  induction events using reverseRecOn with
  | nil => exact ⟨Nat.zero_le _, nofun⟩
  | append_singleton events event ih =>
    unfold run at ih ⊢
    rw [foldl_append]
    exact ih.step event

/--
In any list that can be reached, a machine announced twice over is unchanged exactly
when it was listed before or came in order under a name with no number; its pieces
leave the same in every order exactly when they repeat their addresses alike; and the
machines, their addresses and what these repeat are bounded.
-/
theorem announced_again (events : List (DiscoveryEvent Addr × Walk String × Nat)) :
    (∀ walk again peer now later, let heard := ((run events).found walk peer now).2
      ((heard.found again peer later).1 = false ∧
        HeardAgain heard (heard.found again peer later).2 (peerKey peer) later) ↔
          peerKey peer ∈ run events ∨
            (peer.addrs.take maxAddrs).Pairwise (· ≤ ·) ∧ baseLabel peer.label = peer.label) ∧
    (∀ walk key, key ∉ run events → ∀ pieces, (∀ piece ∈ pieces, peerKey piece.1 = key) →
      ((∀ other, other.Perm pieces →
        ((run events).hearAll walk other).listing key =
          ((run events).hearAll walk pieces).listing key) ↔
        pieces.length ≤ 1 ∨ RepeatAlike pieces)) ∧
    Bounded events (run events) :=
  ⟨found_again (run events), fun walk _ unlisted _ same => listing_iff_alike walk unlisted same,
    bounded_run events⟩

/-- A machine heard for the first time with two addresses out of order, and again. -/
theorem unordered_announced_again :
    ¬ ∀ (events : List (DiscoveryEvent Nat × Walk String × Nat)) (walk again : Walk String)
      (peer : DiscoveredPeer Nat) (now later : Nat),
      ((((run events).found walk peer now).2).found again peer later).1 = false := by
  intro unchanged
  let peer : DiscoveredPeer Nat := ⟨some "aa", "studio", [2, 1]⟩
  have listed := lookup_found (run []) Walk.asFiled peer 0
  have told := (found_unchanged listed Walk.asFiled 1).mp (unchanged [] Walk.asFiled Walk.asFiled peer 0 1)
  have sorted := ((merge_self peer).mp told).1
  exact absurd sorted (by decide)

end DiscoveredPeers

end HopsFormal.Discovery
