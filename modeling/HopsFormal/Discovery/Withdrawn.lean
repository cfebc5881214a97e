import HopsFormal.Discovery.Peers
import HopsFormal.Lib.Basic
import Mathlib.Data.Finset.Card

/-!
# Which machine a withdrawal takes off the list

Machines announce names and withdraw them, and no two announce one name at a time.
A machine is filed under its fingerprint and found by a name, so a withdrawal may
find another machine whose name differs in the number alone, or miss the machine
that withdraws.
-/

namespace HopsFormal.Discovery

open AList Function Lib
open DiscoveredPeers

/-- What a machine says; machines are told apart by their fingerprints. -/
inductive Act (Addr : Type) where
  | announce (machine label : String) (addrs : List Addr) (now : Nat)
  | withdraw (machine label : String)

namespace Act

variable {Addr : Type}

def machine : Act Addr → String
  | announce machine _ _ _ => machine
  | withdraw machine _ => machine

def label : Act Addr → String
  | announce _ label _ _ => label
  | withdraw _ label => label

end Act

/-- The list, the names each machine announces now, and the one it announced last. -/
structure Airwaves (Addr : Type) where
  peers : DiscoveredPeers Addr
  names : String → Finset String
  current : String → Option String

namespace Airwaves

variable {Addr : Type} [LinearOrder Addr]

def silent : Airwaves Addr := ⟨∅, fun _ => ∅, fun _ => none⟩

def step (air : Airwaves Addr) (taken : Act Addr × Walk String) : Airwaves Addr :=
  match taken with
  | (.announce machine label addrs now, walk) =>
    { peers := (air.peers.found walk ⟨some machine, label, addrs⟩ now).2
      names := Function.update air.names machine (insert label (air.names machine))
      current := Function.update air.current machine (some label) }
  | (.withdraw machine label, walk) =>
    { air with
      peers := (air.peers.lost walk label).2
      names := Function.update air.names machine ((air.names machine).erase label) }

def run (acts : List (Act Addr × Walk String)) : Airwaves Addr := acts.foldl step silent

/-- No other machine announces the name that is announced or withdrawn. -/
def Distinct (machines : Finset String) (air : Airwaves Addr) (act : Act Addr) : Prop :=
  act.machine ∈ machines ∧ ∀ other ≠ act.machine, act.label ∉ air.names other

/--
A machine whose last name is not withdrawn is listed, and one that has withdrawn
every name is not.
-/
structure Lists (air : Airwaves Addr) : Prop where
  announced : ∀ machine label, air.current machine = some label → label ∈ air.names machine →
    machine ∈ air.peers
  withdrawn : ∀ machine, air.names machine = ∅ → machine ∉ air.peers

/-- What is said of one machine unlists no other that still announces. -/
def Spares (air next : Airwaves Addr) (act : Act Addr) : Prop :=
  ∀ other ≠ act.machine, (air.names other).Nonempty → other ∈ air.peers → other ∈ next.peers

/--
No other machine is listed under the name withdrawn, the numbers apart; the machine
that withdraws is if this was its last name, and is not if it has since announced
another one.
-/
def Clear (air : Airwaves Addr) : Act Addr → Prop
  | .announce _ _ _ _ => True
  | .withdraw machine label =>
    (∀ other ≠ machine, ∀ known time, air.peers.lookup other = some (known, time) →
      baseLabel known.label ≠ baseLabel label) ∧
    ∀ known time, air.peers.lookup machine = some (known, time) →
      ((air.names machine).erase label = ∅ → baseLabel known.label = baseLabel label) ∧
      ∀ current ∈ (air.names machine).erase label, air.current machine = some current →
        baseLabel known.label ≠ baseLabel label

/-! ## What is kept -/

/-- The list is right, and only the machines there are are on it. -/
structure Kept (machines : Finset String) (air : Airwaves Addr) : Prop where
  lists : Lists air
  known : ∀ machine ∈ air.peers, machine ∈ machines

omit [LinearOrder Addr] in
theorem silent_kept (machines : Finset String) : Kept machines (silent : Airwaves Addr) where
  lists := ⟨fun _ _ isCurrent => (nomatch isCurrent), fun _ _ => notMem_empty _⟩
  known _ member := absurd member (notMem_empty _)

variable {machines : Finset String} {air : Airwaves Addr} {machine label key : String}

omit [LinearOrder Addr] in
theorem Kept.room (kept : Kept machines air) (few : machines.card ≤ maxPeers)
    (member : machine ∈ machines) : machine ∈ air.peers ∨ air.peers.size < maxPeers := by
  by_cases listed : machine ∈ air.peers
  · exact .inl listed
  · have inside : insert machine air.peers.keys.toFinset ⊆ machines := by
      intro other isOther
      rcases Finset.mem_insert.mp isOther with rfl | isListed
      · exact member
      · exact kept.known other (AList.mem_keys.mpr (List.mem_toFinset.mp isListed))
    have unlisted : machine ∉ air.peers.keys.toFinset := fun isListed =>
      listed (AList.mem_keys.mpr (List.mem_toFinset.mp isListed))
    have bound := Finset.card_le_card inside
    rw [Finset.card_insert_of_notMem unlisted,
      List.toFinset_card_of_nodup air.peers.keys_nodup, ← size_eq] at bound
    exact .inr (bound.trans few)

theorem mem_announced {walk : Walk String} {addrs : List Addr} {now : Nat}
    (room : machine ∈ air.peers ∨ air.peers.size < maxPeers) (other : String) :
    other ∈ (air.step (.announce machine label addrs now, walk)).peers ↔
      other = machine ∨ other ∈ air.peers := by
  by_cases same : other = machine
  · subst same
    refine iff_of_true (lookup_isSome.mp ?_) (.inl rfl)
    have listed := lookup_found air.peers walk ⟨some other, label, addrs⟩ now
    exact Option.isSome_of_mem listed
  · have kept : (air.step (.announce machine label addrs now, walk)).peers.lookup other =
        air.peers.lookup other :=
      lookup_found_other walk now same room
    rw [← lookup_isSome, kept, lookup_isSome]
    exact ⟨.inr, fun listed => listed.resolve_left same⟩

theorem Kept.announce (kept : Kept machines air) (few : machines.card ≤ maxPeers)
    (member : machine ∈ machines) (addrs : List Addr) (now : Nat) (walk : Walk String) :
    Kept machines (air.step (.announce machine label addrs now, walk)) ∧
      Spares air (air.step (.announce machine label addrs now, walk))
        (.announce machine label addrs now) := by
  have listed : ∀ other, other ∈ (air.step (.announce machine label addrs now, walk)).peers ↔ _ :=
    mem_announced (kept.room few member)
  refine ⟨⟨⟨fun other name isCurrent isName => ?_, fun other none_ => ?_⟩, fun other isListed => ?_⟩,
    fun other _ _ isListed => (listed other).mpr (.inr isListed)⟩
  · rw [listed]
    by_cases same : other = machine
    · exact .inl same
    · have before : air.current other = some name :=
        (update_of_ne same _ _).symm.trans isCurrent
      have announced : name ∈ air.names other :=
        (update_of_ne same (insert label (air.names machine)) air.names) ▸ isName
      exact .inr (kept.lists.announced other name before announced)
  · rw [listed]
    by_cases same : other = machine
    · subst same
      have names : (air.step (.announce other label addrs now, walk)).names other =
          insert label (air.names other) := update_self ..
      rw [names] at none_
      exact absurd none_ (Finset.insert_ne_empty _ _)
    · have names : (air.step (.announce machine label addrs now, walk)).names other =
          air.names other := update_of_ne same _ _
      rw [names] at none_
      rintro (isMachine | isListed)
      · exact same isMachine
      · exact kept.lists.withdrawn other none_ isListed
  · rcases (listed other).mp isListed with rfl | before
    · exact member
    · exact kept.known other before

omit [LinearOrder Addr] in
theorem Clear.filed (clear : Clear air (.withdraw machine label)) {walk : Walk String}
    (filed : air.peers.filedAs walk label = some key) : key = machine := by
  obtain ⟨known, time, listed, same⟩ := filedAs_some filed
  by_contra other
  exact clear.1 key other known time listed same

theorem names_withdraw (air : Airwaves Addr) (machine label : String) (walk : Walk String)
    (other : String) : (air.step (.withdraw machine label, walk)).names other =
      if other = machine then (air.names machine).erase label else air.names other := by
  by_cases same : other = machine
  · subst same
    rw [if_pos rfl]
    exact update_self ..
  · rw [if_neg same]
    exact update_of_ne same _ _

theorem Kept.withdraw (kept : Kept machines air) (clear : Clear air (.withdraw machine label))
    (walk : Walk String) : Kept machines (air.step (.withdraw machine label, walk)) ∧
      Spares air (air.step (.withdraw machine label, walk)) (.withdraw machine label) := by
  have listed : ∀ other, other ∈ (air.step (.withdraw machine label, walk)).peers ↔
      other ∈ air.peers ∧ air.peers.filedAs walk label ≠ some other := fun other => mem_lost
  refine ⟨⟨⟨fun other name isCurrent isName => ?_, fun other none_ => ?_⟩, fun other isListed => ?_⟩,
    fun other isOther _ isListed => ?_⟩
  · rw [names_withdraw] at isName
    rw [listed]
    split at isName
    · next same =>
      subst same
      have before := kept.lists.announced other name isCurrent (Finset.mem_of_mem_erase isName)
      refine ⟨before, fun filed => ?_⟩
      obtain ⟨known, time, isListed, same⟩ := filedAs_some filed
      exact (clear.2 known time isListed).2 name isName isCurrent same
    · next apart =>
      exact ⟨kept.lists.announced other name isCurrent isName, fun filed =>
        apart (clear.filed filed)⟩
  · rw [names_withdraw] at none_
    rw [listed]
    split at none_
    · next same =>
      subst same
      rintro ⟨isListed, notFiled⟩
      obtain ⟨⟨known, time⟩, isKnown⟩ := Option.isSome_iff_exists.mp (lookup_isSome.mpr isListed)
      have named := (clear.2 known time isKnown).1 none_
      cases filed : air.peers.filedAs walk label with
      | none => exact filedAs_none filed isKnown named
      | some key =>
        obtain rfl := clear.filed filed
        exact notFiled filed
    · exact fun isListed => kept.lists.withdrawn other none_ isListed.1
  · exact kept.known other ((listed other).mp isListed).1
  · exact (listed other).mpr ⟨isListed, fun filed => isOther (clear.filed filed)⟩

theorem Kept.step (kept : Kept machines air) (few : machines.card ≤ maxPeers) {act : Act Addr}
    (distinct : Distinct machines air act) (clear : Clear air act) (walk : Walk String) :
    Kept machines (air.step (act, walk)) ∧ Spares air (air.step (act, walk)) act := by
  cases act with
  | announce machine label addrs now => exact kept.announce few distinct.1 addrs now walk
  | withdraw machine label => exact kept.withdraw clear walk

/-! ## A withdrawal that is not clear -/

omit [LinearOrder Addr] in
/-- Walked first, a machine of the name withdrawn is the one taken off. -/
theorem filedAs_from {peers : DiscoveredPeers Addr} {known : DiscoveredPeer Addr} {time : Nat}
    (listed : peers.lookup key = some (known, time))
    (named : baseLabel known.label = baseLabel label) :
    peers.filedAs (Walk.from_ key) label = some key := by
  have member : key ∈ peers.keys := AList.mem_keys.mp (lookup_isSome.mp (by
    rw [listed]
    rfl))
  unfold filedAs Walk.from_
  dsimp only
  rw [if_pos member, List.find?_cons_of_pos]
  rw [listed, Option.any_some, decide_eq_true_eq]
  exact named

theorem not_mem_from {known : DiscoveredPeer Addr} {time : Nat}
    (listed : air.peers.lookup key = some (known, time))
    (named : baseLabel known.label = baseLabel label) :
    key ∉ (air.step (.withdraw machine label, Walk.from_ key)).peers := fun isListed =>
  (mem_lost.mp isListed).2 (filedAs_from listed named)

theorem Kept.clear (kept : Kept machines air) {act : Act Addr}
    (right : ∀ walk, Lists (air.step (act, walk)) ∧
      Spares air (air.step (act, walk)) act) : Clear air act := by
  cases act with
  | announce machine label addrs now => trivial
  | withdraw machine label =>
    refine ⟨fun other isOther known time listed named => ?_, fun known time listed =>
      ⟨fun none_ => ?_, fun current isName isCurrent named => ?_⟩⟩
    · have isListed : other ∈ air.peers := lookup_isSome.mp (Option.isSome_of_mem listed)
      have announces : (air.names other).Nonempty := by
        by_contra none_
        exact kept.lists.withdrawn other (Finset.not_nonempty_iff_eq_empty.mp none_) isListed
      exact not_mem_from listed named
        ((right (Walk.from_ other)).2 other isOther announces isListed)
    · by_contra unnamed
      have gone := (right (Walk.from_ machine)).1.withdrawn machine (by
        rw [names_withdraw, if_pos rfl]
        exact none_)
      refine gone (mem_lost.mpr ⟨lookup_isSome.mp (Option.isSome_of_mem listed), ?_⟩)
      intro filed
      obtain ⟨found, heardAt, isFound, named⟩ := filedAs_some filed
      rw [listed] at isFound
      cases isFound
      exact unnamed named
    · have stays := (right (Walk.from_ machine)).1.announced machine current isCurrent (by
        rw [names_withdraw, if_pos rfl]
        exact isName)
      exact not_mem_from listed named stays

theorem kept_run (few : machines.card ≤ maxPeers) {acts : List (Act Addr × Walk String)}
    (clear : ∀ taken ∈ trace step silent acts,
      Distinct machines taken.1 taken.2.1 ∧ Clear taken.1 taken.2.1) :
    Kept machines (run acts) := by
  unfold run
  have begins : Kept machines (silent : Airwaves Addr) := silent_kept machines
  generalize silent = air at begins clear ⊢
  induction acts generalizing air with
  | nil => exact begins
  | cons taken rest ih =>
    obtain ⟨act, walk⟩ := taken
    have now := clear (air, act, walk) List.mem_cons_self
    exact ih _ (begins.step few now.1 now.2 walk).1 fun later member =>
      clear later (List.mem_cons_of_mem _ member)

/--
As long as every withdrawal is clear the list is right, and what comes next keeps it
right and takes no other machine off, in whatever order the list is walked, exactly
when it is clear too.
-/
theorem clear_withdrawals_list (machines : Finset String) (few : machines.card ≤ maxPeers)
    (acts : List (Act Addr × Walk String))
    (clear : ∀ taken ∈ trace step silent acts,
      Distinct machines taken.1 taken.2.1 ∧ Clear taken.1 taken.2.1) :
    Lists (run acts) ∧ ∀ act, Distinct machines (run acts) act →
      ((∀ walk, Lists ((run acts).step (act, walk)) ∧
        Spares (run acts) ((run acts).step (act, walk)) act) ↔ Clear (run acts) act) := by
  have kept := kept_run few clear
  refine ⟨kept.lists, fun act distinct => ⟨kept.clear, fun isClear walk => ?_⟩⟩
  obtain ⟨next, spares⟩ := kept.step few distinct isClear walk
  exact ⟨next.lists, spares⟩

/-- Two machines of different names, and the second one leaves. -/
def leaving : List (Act Nat × Walk String) :=
  [(.announce "aa" "studio" [1] 0, Walk.from_ "aa"),
    (.announce "bb" "office" [2] 1, Walk.from_ "aa"), (.withdraw "bb" "office", Walk.from_ "aa")]

/-- The machine that withdrew is off the list, and the other one is still on it. -/
theorem clear_withdrawals_list_leaving :
    (∀ taken ∈ trace step silent leaving, Distinct {"aa", "bb"} taken.1 taken.2.1 ∧
      Clear taken.1 taken.2.1) ∧
      "aa" ∈ (run leaving).peers ∧ "bb" ∉ (run leaving).peers := by
  have clear : ∀ taken ∈ trace step silent leaving,
      Distinct {"aa", "bb"} taken.1 taken.2.1 ∧ Clear taken.1 taken.2.1 := by
    have labels : ∀ entry ∈ (run (leaving.take 2)).peers.entries,
        (entry.1 = "bb" ∧ entry.2.1.label = "office") ∨
          (entry.1 = "aa" ∧ entry.2.1.label = "studio") := by
      decide
    have unnamed : ((run (leaving.take 2)).names "bb").erase "office" = ∅ := by
      decide
    intro taken member
    simp only [trace, leaving, List.mem_cons, List.not_mem_nil, or_false] at member
    rcases member with rfl | rfl | rfl
    · exact ⟨⟨by decide, fun _ _ => Finset.notMem_empty _⟩, trivial⟩
    · refine ⟨⟨by decide, fun other _ => ?_⟩, trivial⟩
      by_cases same : other = "aa"
      · subst same
        decide
      · simp [step, silent, Act.label, update_of_ne same]
    · refine ⟨⟨by decide, fun other isOther => ?_⟩, fun other isOther known time listed => ?_,
        fun known time listed => ⟨fun _ => ?_, fun current isName => ?_⟩⟩
      · have apart : other ≠ "bb" := isOther
        by_cases same : other = "aa"
        · subst same
          decide
        · simp [step, silent, Act.label, update_of_ne same, update_of_ne apart]
      · rcases labels _ (mem_lookup_iff.mp listed) with ⟨its, -⟩ | ⟨-, named⟩
        · exact absurd its isOther
        · rw [named]
          decide
      · rcases labels _ (mem_lookup_iff.mp listed) with ⟨-, named⟩ | ⟨its, -⟩
        · rw [named]
        · simp at its
      · exact absurd isName (unnamed ▸ Finset.notMem_empty current)
  obtain ⟨announced, withdrawn⟩ := (clear_withdrawals_list {"aa", "bb"} (by decide) leaving clear).1
  exact ⟨clear, announced "aa" "studio" (by decide) (by decide), withdrawn "bb" (by decide)⟩

/-- Two machines of one name, the second renamed by mDNS, and the second one leaves. -/
def renamed : List (Act Nat × Walk String) :=
  [(.announce "aa" "studio" [1] 0, Walk.from_ "aa"),
    (.announce "bb" "studio (2)" [2] 1, Walk.from_ "aa"),
    (.withdraw "bb" "studio (2)", Walk.from_ "aa")]

/-- The first machine still announces and is taken off the list, the second stays on it. -/
theorem renamed_takes_other :
    ¬ ∀ (machines : Finset String) (acts : List (Act Nat × Walk String)),
      machines.card ≤ maxPeers →
      (∀ taken ∈ trace step silent acts, Distinct machines taken.1 taken.2.1) →
      Lists (run acts) := by
  intro lists
  have distinct : ∀ taken ∈ trace step silent renamed, Distinct {"aa", "bb"} taken.1 taken.2.1 := by
    intro taken member
    simp only [trace, renamed, List.mem_cons, List.not_mem_nil, or_false] at member
    rcases member with rfl | rfl | rfl
    · exact ⟨by decide, fun _ _ => Finset.notMem_empty _⟩
    · refine ⟨by decide, fun other _ => ?_⟩
      by_cases same : other = "aa"
      · subst same
        decide
      · simp [step, silent, Act.label, update_of_ne same]
    · refine ⟨by decide, fun other isOther => ?_⟩
      have apart : other ≠ "bb" := isOther
      by_cases same : other = "aa"
      · subst same
        decide
      · simp [step, silent, Act.label, update_of_ne same, update_of_ne apart]
  have right := lists {"aa", "bb"} renamed (by decide) distinct
  have isListed := right.announced "aa" "studio" (by decide) (by decide)
  exact absurd isListed (by decide)

end Airwaves

end HopsFormal.Discovery
