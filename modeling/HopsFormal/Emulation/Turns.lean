import HopsFormal.Emulation.PeerQueues
import HopsFormal.Lib.Basic

/-!
# Whose turn it is

A peer stands in the order of turns once while something waits for it and not
otherwise.  What is queued for it leaves its queue in the order it came in, each
request by itself or motions added up.  A peer that was just served stands behind
every other peer that waits.
-/

namespace HopsFormal.Emulation

open Capture (Event PointerEvent KeyboardEvent)
open List Lib

namespace PeerQueues

variable {Addr F : Type} [DecidableEq Addr]

/-- What is done to the queues. -/
inductive Act (Addr F : Type) where
  | push (addr : Addr) (item : Queued F)
  | pop
  | drop (addr : Addr)

@[grind =]
def step [Add F] (queues : PeerQueues Addr F) : Act Addr F → PeerQueues Addr F
  | .push addr item => (queues.push addr item).2
  | .pop =>
    match queues.pop with
    | some (_, _, _, next) => next
    | none => queues
  | .drop addr => (queues.dropPeer addr).2

abbrev Taken (Addr F : Type) := PeerQueues Addr F × Act Addr F

/-- What a step serves, and whose it is. -/
def given (taken : Taken Addr F) : Option (Addr × Queued F) :=
  match taken.2 with
  | .pop => taken.1.pop.map fun popped => (popped.1, popped.2.1)
  | _ => none

def served (taken : Taken Addr F) : Option Addr := (given taken).map Prod.fst

/-! ## The order of turns -/

/-- A peer is in the order once while something waits for it, and not otherwise. -/
structure InTurn (queues : PeerQueues Addr F) : Prop where
  once : queues.turn.Nodup
  waits : ∀ addr, addr ∈ queues.turn ↔ queues.waiting addr ≠ []

theorem empty_inTurn : InTurn (empty : PeerQueues Addr F) where
  once := nodup_nil
  waits addr := by simp [empty, waiting]

theorem push_turn [Add F] (queues : PeerQueues Addr F) (addr : Addr) (item : Queued F) :
    (queues.push addr item).2.turn =
      if queues.waiting addr = [] then queues.turn ++ [addr] else queues.turn := by
  unfold push
  dsimp only
  split
  all_goals
    simp only [List.isEmpty_iff]

theorem push_waits [Add F] (queues : PeerQueues Addr F) (addr : Addr) (item : Queued F) :
    (queues.push addr item).2.waiting addr ≠ [] := by
  rcases (queues.push_waiting addr item).2 with now | ⟨front, _, _, _, _, _, _, _, _, _, -, -, now⟩
  · rw [now]
    exact append_ne_nil_of_right_ne_nil _ (cons_ne_nil _ _)
  · rw [now]
    exact append_ne_nil_of_right_ne_nil _ (cons_ne_nil _ _)

variable {queues next : PeerQueues Addr F} {addr behind ahead : Addr} {item : Queued F} {left : Nat}
  {acts : List (Act Addr F)} {past : List (Taken Addr F)} {act : Act Addr F}

section

variable (inTurn : InTurn queues)
include inTurn

theorem InTurn.push [Add F] (addr : Addr) (item : Queued F) : InTurn (queues.push addr item).2 where
  once := by
    rw [push_turn]
    split
    · rename_i idle
      refine nodup_append.mpr ⟨inTurn.once, nodup_singleton addr, ?_⟩
      intro first isFirst second isSecond same
      rw [mem_singleton.mp isSecond] at same
      exact (inTurn.waits addr).mp (same ▸ isFirst) idle
    · exact inTurn.once
  waits other := by
    by_cases same : other = addr
    · subst same
      refine ⟨fun _ => push_waits queues other item, fun _ => ?_⟩
      rw [push_turn]
      split
      · exact mem_append_right _ (mem_singleton_self other)
      · rename_i waits
        exact (inTurn.waits other).mpr waits
    · rw [(queues.push_waiting addr item).1 other same, ← inTurn.waits, push_turn]
      split
      · rw [mem_append, mem_singleton, or_iff_left same]
      · rfl

/-- While a peer is in the order there is a request to serve. -/
theorem InTurn.pop_isSome (waits : queues.turn ≠ []) : ∃ popped, queues.pop = some popped := by
  unfold PeerQueues.pop
  cases order : queues.turn with
  | nil => exact absurd order waits
  | cons first rest =>
    have member : first ∈ queues.turn := by rw [order]; exact mem_cons_self
    have some_ := (inTurn.waits first).mp member
    unfold waiting at some_
    dsimp only
    cases found : queues.queues.lookup first with
    | none =>
      rw [found] at some_
      exact absurd rfl some_
    | some queue =>
      cases queue with
      | nil =>
        rw [found] at some_
        exact absurd rfl some_
      | cons oldest others =>
        dsimp only
        split
        · exact ⟨_, rfl⟩
        · exact ⟨_, rfl⟩

theorem InTurn.pop (popped : queues.pop = some (addr, item, left, next)) : InTurn next := by
  obtain ⟨⟨front, others⟩, _, rest, order, now⟩ := pop_spec popped
  have once := inTurn.once
  rw [order, nodup_cons] at once
  constructor
  · rw [now]
    split
    · exact once.2
    · refine nodup_append.mpr ⟨once.2, nodup_singleton addr, ?_⟩
      intro first isFirst second isSecond same
      rw [mem_singleton.mp isSecond] at same
      exact once.1 (same ▸ isFirst)
  · intro other
    by_cases same : other = addr
    · subst same
      rw [now]
      split
      · rename_i idle
        simp [once.1, idle]
      · rename_i waits
        simp [waits]
    · rw [others other same, ← inTurn.waits, order, now, mem_cons, or_iff_right same]
      split
      · rfl
      · rw [mem_append, mem_singleton, or_iff_left same]

theorem InTurn.dropPeer (addr : Addr) : InTurn (queues.dropPeer addr).2 where
  once := inTurn.once.filter _
  waits other := by
    rw [dropPeer_waiting]
    unfold PeerQueues.dropPeer
    rw [mem_filter, decide_eq_true_iff, inTurn.waits]
    by_cases same : other = addr
    · simp [same]
    · simp [same]

end

theorem InTurn.step [Add F] (inTurn : InTurn queues) (act : Act Addr F) :
    InTurn (queues.step act) := by
  cases act with
  | push addr item => exact inTurn.push addr item
  | pop =>
    unfold PeerQueues.step
    cases popped : queues.pop with
    | none => exact inTurn
    | some result =>
      obtain ⟨addr, item, left, next⟩ := result
      exact inTurn.pop popped
  | drop addr => exact inTurn.dropPeer addr

theorem InTurn.run [Add F] (inTurn : InTurn queues) (acts : List (Act Addr F)) :
    InTurn (acts.foldl PeerQueues.step queues) := by
  induction acts generalizing queues with
  | nil => exact inTurn
  | cons act rest ih => exact ih (inTurn.step act)

/-! ## What leaves a queue -/

/-- A relative motion that is queued. -/
structure Move (F : Type) where
  time : UInt32
  dx : F
  dy : F
  sources : List Nat

def Move.queued (peer : String) (move : Move F) : Queued F :=
  .input (.pointer (.motion move.time move.dx move.dy)) peer move.sources

/-- Two motions added up, at the time of the later. -/
def Move.plus [Add F] (move later : Move F) : Move F :=
  ⟨later.time, move.dx + later.dx, move.dy + later.dy, move.sources ++ later.sources⟩

/-- A request by itself, or the motions of one peer added up. -/
inductive Merges [Add F] : List (Queued F) → Queued F → Prop where
  | one (item : Queued F) : Merges [item] item
  | motions (peer : String) (first : Move F) (rest : List (Move F)) :
      Merges ((first :: rest).map (Move.queued peer)) ((rest.foldl Move.plus first).queued peer)

/-- A further motion of the same peer is added to the sum. -/
theorem Merges.more [Add F] {items : List (Queued F)} {peer : String} {move : Move F}
    (merges : Merges items (move.queued peer)) (later : Move F) :
    Merges (items ++ [later.queued peer]) ((move.plus later).queued peer) := by
  generalize same : move.queued peer = sum at merges
  cases merges with
  | one item =>
    subst same
    exact .motions peer move [later]
  | motions other first rest =>
    simp only [Move.queued, Queued.input.injEq, Event.pointer.injEq,
      PointerEvent.motion.injEq] at same
    obtain ⟨⟨time, dx, dy⟩, rfl, sources⟩ := same
    have moves : move = rest.foldl Move.plus first := by
      cases move
      simp_all
    have whole := Merges.motions peer first (rest ++ [later])
    rwa [foldl_concat, ← moves, map_cons, map_append, map_singleton,
      ← cons_append, ← map_cons] at whole

/-- What was queued for a peer. -/
def asked (addr : Addr) (acts : List (Act Addr F)) : List (Queued F) :=
  acts.filterMap fun act =>
    match act with
    | .push dest item => if dest = addr then some item else none
    | _ => none

/-- What a step takes out of a peer's queue, each with whether it was served. -/
def leaves (addr : Addr) (taken : Taken Addr F) : List (Queued F × Bool) :=
  match taken.2 with
  | .push _ _ => []
  | .pop =>
    match taken.1.pop with
    | some (peer, item, _) => if peer = addr then [(item, true)] else []
    | none => []
  | .drop dropped =>
    if dropped = addr then (taken.1.waiting addr).map fun item => (item, false) else []

def servings (addr : Addr) (past : List (Taken Addr F)) : List (Queued F) :=
  past.filterMap fun taken =>
    (given taken).bind fun pair => if pair.1 = addr then some pair.2 else none

theorem servings_eq (addr : Addr) (past : List (Taken Addr F)) :
    servings addr past = ((past.flatMap (leaves addr)).filter Prod.snd).map Prod.fst := by
  induction past with
  | nil => rfl
  | cons taken rest ih =>
    obtain ⟨queues, act⟩ := taken
    have first : servings addr ((queues, act) :: rest) =
        servings addr [(queues, act)] ++ servings addr rest :=
      @filterMap_append _ _ [(queues, act)] rest _
    rw [flatMap_cons, filter_append, map_append, ← ih, first,
      append_cancel_right_eq]
    cases act with
    | push dest item => rfl
    | drop dropped =>
      have none_ : ((leaves addr (queues, .drop dropped)).filter Prod.snd) = [] := by
        unfold leaves
        dsimp only
        split
        · exact filter_eq_nil_iff.mpr (by simp)
        · rfl
      rw [none_]
      rfl
    | pop =>
      unfold servings given leaves
      cases popped : queues.pop with
      | none => simp [popped]
      | some result =>
        by_cases same : result.1 = addr
        · simp [popped, same]
        · simp [popped, same]

/-- What was queued for a peer has left its queue or waits in it, in the order it came in. -/
def InOrder [Add F] (addr : Addr) (acts : List (Act Addr F)) (past : List (Taken Addr F))
    (queues : PeerQueues Addr F) : Prop :=
  ∃ groups, groups.flatten = asked addr acts ∧
    Forall₂ Merges groups ((past.flatMap (leaves addr)).map Prod.fst ++ queues.waiting addr)

theorem step_waiting [Add F] (queues : PeerQueues Addr F) (act : Act Addr F) (addr : Addr)
    (quiet : asked addr [act] = []) :
    queues.waiting addr =
      (leaves addr (queues, act)).map Prod.fst ++ (queues.step act).waiting addr := by
  cases act with
  | push dest item =>
    have apart : addr ≠ dest := by
      rintro rfl
      simp [asked] at quiet
    exact ((queues.push_waiting dest item).1 addr apart).symm
  | pop =>
    unfold leaves step
    cases popped : queues.pop with
    | none => rfl
    | some result =>
      obtain ⟨peer, item, left, next⟩ := result
      obtain ⟨front, others⟩ := (pop_spec popped).1
      dsimp only
      split
      · rename_i same
        rw [← same, front]
        rfl
      · rename_i apart
        exact (others addr (Ne.symm apart)).symm
  | drop dropped =>
    unfold leaves step
    dsimp only
    rw [dropPeer_waiting]
    by_cases same : dropped = addr
    · rw [if_pos same, if_pos same.symm, map_map, append_nil]
      exact (map_id _).symm
    · rw [if_neg same, if_neg (Ne.symm same)]
      rfl

theorem InOrder.step [Add F] (inOrder : InOrder addr acts past queues) (act : Act Addr F) :
    InOrder addr (acts ++ [act]) (past ++ [(queues, act)]) (queues.step act) := by
  obtain ⟨groups, whole, each⟩ := inOrder
  have asks : asked addr (acts ++ [act]) = asked addr acts ++ asked addr [act] :=
    filterMap_append
  rw [InOrder, asks, flatMap_append, flatMap_singleton]
  cases quiet : asked addr [act] with
  | nil =>
    refine ⟨groups, by rw [whole, append_nil], ?_⟩
    rwa [step_waiting queues act addr quiet, ← append_assoc, ← map_append] at each
  | cons item rest =>
    obtain ⟨rfl, rfl⟩ : act = .push addr item ∧ rest = [] := by
      cases act with
      | push dest other =>
        by_cases same : dest = addr
        · simp_all [asked]
        · simp [asked, same] at quiet
      | pop | drop dropped => cases quiet
    have none_ : leaves addr (queues, .push addr item) = [] := rfl
    rw [none_, append_nil]
    rcases (queues.push_waiting addr item).2 with now |
      ⟨front, time, dx, dy, later, moreX, moreY, peer, sources, more, before, rfl, now⟩
    · refine ⟨groups ++ [[item]], by rw [flatten_concat, whole], ?_⟩
      rw [show (queues.step (.push addr item)).waiting addr = _ from now, ← append_assoc]
      exact rel_append each (.cons (.one item) .nil)
    · rw [before, ← append_assoc] at each
      obtain ⟨early, last, rfl, earlier, final⟩ := forall₂_concat each
      let moved : Move F := ⟨time, dx, dy, sources⟩
      let added : Move F := ⟨later, moreX, moreY, more⟩
      have sum : Merges (last ++ [added.queued peer]) ((moved.plus added).queued peer) :=
        Merges.more final added
      refine ⟨early ++ [last ++ [added.queued peer]], ?_, ?_⟩
      · rw [flatten_concat, ← append_assoc, ← flatten_concat, whole]
        rfl
      · rw [show (queues.step (.push addr _)).waiting addr = _ from now, ← append_assoc]
        exact rel_append earlier (.cons sum .nil)

theorem inOrder_run [Add F] (addr : Addr) (acts : List (Act Addr F)) :
    InOrder addr acts (trace step empty acts) (acts.foldl step empty) := by
  induction acts using reverseRecOn with
  | nil => exact ⟨[], rfl, .nil⟩
  | append_singleton acts act ih =>
    rw [trace_append, foldl_concat]
    exact ih.step act

/-! ## Who stands behind whom -/

/-- A peer waits, and another stands nowhere before it. -/
def Behind (behind ahead : Addr) (queues : PeerQueues Addr F) : Prop :=
  ∃ front back, queues.turn = front ++ ahead :: back ∧ behind ∉ front

theorem served_eq_some : served (queues, act) = some addr ↔
      act = .pop ∧ ∃ item left next, queues.pop = some (addr, item, left, next) := by
  unfold served given
  cases act with
  | push dest item | drop dropped => simp
  | pop =>
    cases queues.pop with
    | none => simp
    | some popped =>
      obtain ⟨peer, item, left, next⟩ := popped
      simp

theorem behind_of_served [Add F] (inTurn : InTurn queues) (apart : ahead ≠ behind)
    (now : served (queues, act) = some behind) (waits : (queues.step act).waiting ahead ≠ []) :
    Behind behind ahead (queues.step act) := by
  obtain ⟨rfl, item, left, next, popped⟩ := served_eq_some.mp now
  have leads : queues.step .pop = next := by
    unfold step
    rw [popped]
  rw [leads] at waits ⊢
  obtain ⟨rest, order, after⟩ := (pop_spec popped).2.2
  have once := inTurn.once
  rw [order, nodup_cons] at once
  have stands := ((inTurn.pop popped).waits ahead).mpr waits
  rw [after] at stands
  have member : ahead ∈ rest := by
    split at stands
    · exact stands
    · exact (mem_append.mp stands).resolve_right fun last =>
        apart (mem_singleton.mp last)
  obtain ⟨front, back, rfl⟩ := append_of_mem member
  have free : behind ∉ front := fun within => once.1 (mem_append_left _ within)
  rw [Behind, after]
  split
  · exact ⟨front, back, rfl, free⟩
  · exact ⟨front, back ++ [behind], by simp, free⟩

section

variable (stands : Behind behind ahead queues)
include stands

theorem Behind.not_served (apart : ahead ≠ behind) (act : Act Addr F) :
    served (queues, act) ≠ some behind := by
  intro now
  obtain ⟨rfl, item, left, next, popped⟩ := served_eq_some.mp now
  obtain ⟨rest, order, -⟩ := (pop_spec popped).2.2
  obtain ⟨front, back, split, free⟩ := stands
  rw [order] at split
  cases front with
  | nil => exact apart (List.cons.inj split).1.symm
  | cons first more => exact free (mem_cons.mpr (.inl (List.cons.inj split).1))

theorem Behind.push [Add F] (addr : Addr) (item : Queued F) :
    Behind behind ahead (queues.push addr item).2 := by
  obtain ⟨front, back, split, free⟩ := stands
  rw [Behind, push_turn]
  split
  · exact ⟨front, back ++ [addr], by rw [split]; simp, free⟩
  · exact ⟨front, back, split, free⟩

theorem Behind.pop (popped : queues.pop = some (addr, item, left, next)) (other : addr ≠ ahead) :
    Behind behind ahead next := by
  obtain ⟨rest, order, now⟩ := (pop_spec popped).2.2
  obtain ⟨front, back, split, free⟩ := stands
  rw [order] at split
  cases front with
  | nil => exact absurd (List.cons.inj split).1 other
  | cons first more =>
    obtain ⟨rfl, rfl⟩ := List.cons.inj split
    have free' : behind ∉ more := fun within => free (mem_cons_of_mem _ within)
    rw [Behind, now]
    split
    · exact ⟨more, back, rfl, free'⟩
    · exact ⟨more, back ++ [addr], by simp, free'⟩

theorem Behind.dropPeer (other : ahead ≠ addr) : Behind behind ahead (queues.dropPeer addr).2 := by
  obtain ⟨front, back, split, free⟩ := stands
  refine ⟨front.filter (· ≠ addr), back.filter (· ≠ addr), ?_,
    fun within => free (mem_of_mem_filter within)⟩
  unfold PeerQueues.dropPeer
  rw [split, filter_append, filter_cons_of_pos (by simpa using other)]

end

theorem Behind.step [Add F] (stands : Behind behind ahead queues)
    (passed : served (queues, act) ≠ some ahead) (waits : (queues.step act).waiting ahead ≠ []) :
    Behind behind ahead (queues.step act) := by
  cases act with
  | push addr item => exact stands.push addr item
  | pop =>
    unfold PeerQueues.step
    cases popped : queues.pop with
    | none => exact stands
    | some result =>
      obtain ⟨addr, item, left, next⟩ := result
      have other : addr ≠ ahead := by
        rintro rfl
        exact passed (served_eq_some.mpr ⟨rfl, item, left, next, popped⟩)
      exact stands.pop popped other
  | drop addr =>
    refine stands.dropPeer ?_
    rintro rfl
    refine waits ?_
    unfold PeerQueues.step
    rw [dropPeer_waiting, if_pos rfl]

theorem Behind.run [Add F] (stands : Behind behind ahead queues) (apart : ahead ≠ behind)
    (passed : ∀ taken ∈ trace PeerQueues.step queues acts, served taken ≠ some ahead)
    (waits : ∀ taken ∈ trace PeerQueues.step queues acts, taken.1.waiting ahead ≠ [])
    (ends : (acts.foldl PeerQueues.step queues).waiting ahead ≠ []) :
    (∀ taken ∈ trace PeerQueues.step queues acts, served taken ≠ some behind) ∧
      Behind behind ahead (acts.foldl PeerQueues.step queues) := by
  induction acts generalizing queues with
  | nil => exact ⟨fun _ member => absurd member not_mem_nil, stands⟩
  | cons act rest ih =>
    have here := passed (queues, act) mem_cons_self
    have next : (queues.step act).waiting ahead ≠ [] := by
      cases rest with
      | nil => exact ends
      | cons second more =>
        exact waits (queues.step act, second) (mem_cons_of_mem _ mem_cons_self)
    obtain ⟨none_, behind_⟩ := ih (stands.step here next)
      (fun taken member => passed taken (mem_cons_of_mem _ member))
      (fun taken member => waits taken (mem_cons_of_mem _ member)) ends
    refine ⟨fun taken member => ?_, behind_⟩
    rcases mem_cons.mp member with rfl | member
    · exact stands.not_served apart act
    · exact none_ taken member

/-! ## Between two turns -/

theorem served_between [Add F] {between later : List (Taken Addr F)} {first second : Taken Addr F}
    (split : trace step empty acts = past ++ first :: (between ++ second :: later))
    {peer other : Addr} (apart : other ≠ peer) (begins : served first = some peer)
    (ends : served second = some peer)
    (waits : ∀ taken ∈ between ++ [second], taken.1.waiting other ≠ []) :
    ∃ taken ∈ between, served taken = some other := by
  by_contra none_
  have passed : ∀ taken ∈ between, served taken ≠ some other := by
    intro taken member now
    exact none_ ⟨taken, member, now⟩
  obtain ⟨before, -, -, -, start⟩ := trace_split step split
  obtain ⟨after, rest⟩ := trace_rest step split
  obtain ⟨middle, -, -, rfl, arrives⟩ := trace_split step rest.symm
  have inTurn : InTurn first.1 := start ▸ empty_inTurn.run before
  have final : (middle.foldl step (first.1.step first.2)).waiting other ≠ [] :=
    arrives ▸ waits second (mem_append_right _ (mem_singleton_self _))
  have begun : (first.1.step first.2).waiting other ≠ [] := by
    cases middle with
    | nil => exact final
    | cons act more =>
      exact waits (first.1.step first.2, act) (mem_append_left _ mem_cons_self)
  have stands := behind_of_served inTurn apart begins begun
  have reaches := (stands.run apart passed
    (fun taken member => waits taken (mem_append_left _ member)) final).2
  rw [← arrives] at reaches
  exact reaches.not_served apart second.2 ends

/-- How often a peer is served. -/
def turns (peer : Addr) (steps : List (Taken Addr F)) : Nat :=
  steps.countP fun taken => served taken = some peer

theorem served_once [Add F] {between later : List (Taken Addr F)} {first second : Taken Addr F}
    (split : trace step empty acts = past ++ first :: (between ++ second :: later))
    {peer other : Addr} (apart : other ≠ peer) (begins : served first = some peer)
    (ends : served second = some peer) (passed : ∀ taken ∈ between, served taken ≠ some peer)
    (waits : ∀ taken ∈ between ++ [second], taken.1.waiting other ≠ [])
    (itself : ∀ taken ∈ between, taken.1.waiting peer ≠ []) : turns other between = 1 := by
  obtain ⟨taken, member, now⟩ := served_between split apart begins ends waits
  obtain ⟨early, late, rfl⟩ := append_of_mem member
  have onlyOnce : ∀ front mid back : List (Taken Addr F), ∀ one two : Taken Addr F,
      early ++ taken :: late = front ++ one :: (mid ++ two :: back) →
      served one = some other → served two ≠ some other := by
    intro front mid back one two inside isOne isTwo
    have longer : trace step empty acts = (past ++ first :: front) ++
        one :: (mid ++ two :: (back ++ second :: later)) := by
      rw [split, inside]
      simp
    obtain ⟨between', within, isPeer⟩ := served_between longer (Ne.symm apart) isOne isTwo
      fun state among => itself state (by
        rw [inside]
        rcases mem_append.mp among with among | among
        · simp [among]
        · simp [mem_singleton.mp among])
    exact passed between' (by rw [inside]; simp [within]) isPeer
  have before : early.countP (fun step => served step = some other) = 0 := by
    refine countP_eq_zero.mpr fun step within isOther => ?_
    obtain ⟨front, mid, rfl⟩ := append_of_mem within
    exact onlyOnce front mid late step taken (by simp) (of_decide_eq_true isOther) now
  have after : late.countP (fun step => served step = some other) = 0 := by
    refine countP_eq_zero.mpr fun step within isOther => ?_
    obtain ⟨mid, back, rfl⟩ := append_of_mem within
    exact onlyOnce early mid back taken step rfl now (of_decide_eq_true isOther)
  rw [turns, countP_append, countP_cons_of_pos (by simpa using now), before, after]

/--
A peer is in the order of turns once while something waits for it, and not otherwise,
and something is served whenever something waits.  What is queued for a peer is served,
dropped or still waits in the order it came in, each request by itself or the motions
of one peer added up.  Between two turns of a peer every other that waits throughout is
served, and once if the peer waits throughout itself.
-/
theorem queues_in_turn [Add F] (acts : List (Act Addr F)) :
    (∀ addr, (acts.foldl step empty).turn.count addr =
      if (acts.foldl step empty).waiting addr = [] then 0 else 1) ∧
    ((∃ addr, (acts.foldl step empty).waiting addr ≠ []) →
      ∃ popped, (acts.foldl step empty).pop = some popped) ∧
    (∀ addr, InOrder addr acts (trace step empty acts) (acts.foldl step empty) ∧
      servings addr (trace step empty acts) =
        (((trace step empty acts).flatMap (leaves addr)).filter Prod.snd).map Prod.fst) ∧
    (∀ past first between second later,
      trace step empty acts = past ++ first :: (between ++ second :: later) →
      ∀ peer, served first = some peer → served second = some peer →
      (∀ taken ∈ between, served taken ≠ some peer) →
      ∀ other, other ≠ peer → (∀ taken ∈ between ++ [second], taken.1.waiting other ≠ []) →
        1 ≤ turns other between ∧
          ((∀ taken ∈ between, taken.1.waiting peer ≠ []) → turns other between = 1)) := by
  have inTurn : InTurn (acts.foldl step empty) := empty_inTurn.run acts
  refine ⟨fun addr => ?_, ?_, fun addr => ⟨inOrder_run addr acts, servings_eq addr _⟩, ?_⟩
  · split
    · rename_i idle
      exact count_eq_zero.mpr fun member => (inTurn.waits addr).mp member idle
    · rename_i waits
      exact count_eq_one_of_mem inTurn.once ((inTurn.waits addr).mpr waits)
  · rintro ⟨addr, waits⟩
    exact inTurn.pop_isSome (ne_nil_of_mem ((inTurn.waits addr).mpr waits))
  · intro past first between second later split peer begins ends passed other apart waits
    obtain ⟨taken, member, now⟩ := served_between split apart begins ends waits
    refine ⟨countP_pos_iff.mpr ⟨taken, member, decide_eq_true now⟩, fun itself => ?_⟩
    exact served_once split apart begins ends passed waits itself

/-- Something asked of one peer. -/
def request (number : Nat) : Queued Nat := .remove number

/-- Both wait throughout, and each is served once between two turns of the other. -/
def bothWait : List (Act Nat Nat) :=
  [.push 0 (request 0), .push 1 (request 1), .push 0 (request 2), .push 1 (request 3),
    .pop, .pop, .pop]

theorem queues_in_turn_both :
    turns 1 (((trace step empty bothWait).drop 5).take 1) = 1 := by
  have fair := (queues_in_turn bothWait).2.2.2
  refine (fair ((trace step empty bothWait).take 4) ((trace step empty bothWait)[4])
    (((trace step empty bothWait).drop 5).take 1) ((trace step empty bothWait)[6]) []
    rfl 0 (by decide) (by decide) (by decide) 1 (by decide) (by decide)).2 (by decide)

/-- The first has nothing waiting for a while, and the second is served again and again. -/
def idleBetween : List (Act Nat Nat) :=
  [.push 0 (request 0), .push 1 (request 1), .push 1 (request 2), .push 1 (request 3),
    .pop, .pop, .push 0 (request 4), .pop, .pop]

/-- A peer that waits throughout is served twice between two turns of one that does not. -/
theorem queues_in_turn_idle :
    ∃ past first between second later,
      trace step empty idleBetween = past ++ first :: (between ++ second :: later) ∧
      served first = some 0 ∧ served second = some 0 ∧
      (∀ taken ∈ between, served taken ≠ some 0) ∧
      (∀ taken ∈ first :: between ++ [second], taken.1.waiting 1 ≠ []) ∧
      turns 1 between = 2 :=
  ⟨(trace step empty idleBetween).take 4, (trace step empty idleBetween)[4],
    ((trace step empty idleBetween).drop 5).take 3, (trace step empty idleBetween)[8], [],
    rfl, by decide, by decide, by decide, by decide, by decide⟩

end PeerQueues

end HopsFormal.Emulation
