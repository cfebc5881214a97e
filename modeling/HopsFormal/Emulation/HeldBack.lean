import HopsFormal.Emulation.Pressure
import Mathlib.Algebra.Ring.Int.Defs

/-!
# Nobody is held for nothing

A held peer always has half a queue waiting, so every way in which its requests go lets
it go too.  The other direction has one hole: a removal fills a queue without holding
anybody.
-/

namespace HopsFormal.Emulation.Pressed

open List Lib
open InputPressure
open Receiver Receiver

variable {Addr F E : Type} [DecidableEq Addr]

def HeldWaits (pressed : Pressed Addr F) : Prop :=
  ∀ addr ∈ pressed.pressure.held, peerQueueLimit / 2 ≤ pressed.waiting addr

/-- Whoever is not held has room in its queue. -/
def FreeBelow (pressed : Pressed Addr F) : Prop :=
  ∀ addr ∉ pressed.pressure.held, pressed.waiting addr < peerQueueLimit

/-- No removal is filed into the last place of the queue of a peer that is not held. -/
def Clear (pressed : Pressed Addr F) : Act Addr F → Prop
  | .take _ => ∀ addr asked rest, Running pressed.receiver →
      pressed.receiver.requests = .remove addr asked :: rest →
        addr ∈ pressed.pressure.held ∨ pressed.waiting addr + 1 < peerQueueLimit
  | _ => True

/-- Everything a step does to what waits and to who is held. -/
inductive Change [Add F] (pressed : Pressed Addr F) (taken : Act Addr F)
    (next : Pressed Addr F) : Prop where
  | same (clear : pressed.Clear taken)
      (queued : next.receiver.queued = pressed.receiver.queued)
      (held : next.pressure = pressed.pressure)
  | input (clear : pressed.Clear taken) (addr : Addr) (item : Queued F)
      (queued : next.receiver.queued = (pressed.receiver.queued.push addr item).2)
      (held : next.pressure = if peerQueueLimit ≤ next.waiting addr then
        pressed.pressure.hold addr else pressed.pressure)
  | removal (addr : Addr) (asked : Nat)
      (clear : pressed.Clear taken ↔
        addr ∈ pressed.pressure.held ∨ pressed.waiting addr + 1 < peerQueueLimit)
      (queued : next.receiver.queued = (pressed.receiver.queued.push addr (.remove asked)).2)
      (held : next.pressure = pressed.pressure)
  | served (clear : pressed.Clear taken) (addr : Addr) (item : Queued F)
      (count : pressed.waiting addr = next.waiting addr + 1)
      (others : ∀ other, other ≠ addr → next.waiting other = pressed.waiting other)
      (held : next.pressure = if next.waiting addr < peerQueueLimit / 2 then
        pressed.pressure.release addr else pressed.pressure)
  | dropped (clear : pressed.Clear taken) (addr : Addr) (gone : next.waiting addr = 0)
      (others : ∀ other, other ≠ addr → next.waiting other = pressed.waiting other)
      (held : ∀ other, other ∈ next.pressure.held ↔ other ≠ addr ∧ other ∈ pressed.pressure.held)
  | cleared (clear : pressed.Clear taken) (gone : ∀ addr, next.waiting addr = 0)
      (held : ∀ addr ∈ next.pressure.held, addr ∈ pressed.pressure.held ∧ pressed.waiting addr = 0)

theorem half_pos : 0 < peerQueueLimit / 2 := by decide

variable {pressed next : Pressed Addr F} {taken : Act Addr F}

theorem Change.heldWaits [Add F] (change : pressed.Change taken next) (waits : pressed.HeldWaits) :
    next.HeldWaits := by
  intro addr member
  cases change with
  | same clear queued held =>
    rw [held] at member
    rw [waiting, queued]
    exact waits addr member
  | input clear filed item queued held =>
    have grows : pressed.waiting addr ≤ next.waiting addr := by
      rw [waiting, waiting, queued]
      by_cases same : addr = filed
      · rw [same]
        exact push_le _ _ _
      · rw [(PeerQueues.push_waiting _ _ _).1 addr same]
    rw [held] at member
    split at member
    · next full =>
      rcases Finset.mem_insert.mp member with rfl | before
      · exact Nat.le_trans (Nat.div_le_self _ _) full
      · exact Nat.le_trans (waits addr before) grows
    · exact Nat.le_trans (waits addr member) grows
  | removal filed asked clear queued held =>
    rw [held] at member
    refine Nat.le_trans (waits addr member) ?_
    rw [waiting, waiting, queued]
    by_cases same : addr = filed
    · rw [same]
      exact push_le _ _ _
    · rw [(PeerQueues.push_waiting _ _ _).1 addr same]
  | served clear first item count others held =>
    rw [held] at member
    by_cases same : addr = first
    · subst same
      split at member
      · exact absurd member (Finset.notMem_erase _ _)
      · next enough => exact Nat.le_of_not_lt enough
    · rw [others addr same]
      split at member
      · exact waits addr (Finset.mem_of_mem_erase member)
      · exact waits addr member
  | dropped clear first gone others held =>
    obtain ⟨differs, before⟩ := (held addr).mp member
    rw [others addr differs]
    exact waits addr before
  | cleared clear gone held =>
    obtain ⟨before, none⟩ := held addr member
    have some := waits addr before
    have positive := half_pos
    omega

/-- A step keeps room for all who are not held exactly if no removal takes the last place. -/
theorem Change.freeBelow_iff [Add F] {pressed next : Pressed Addr F}
    {taken : Act Addr F} (change : pressed.Change taken next)
    (free : pressed.FreeBelow) :
    next.FreeBelow ↔ pressed.Clear taken := by
  cases change with
  | same clear queued held =>
    refine iff_of_true (fun addr absent => ?_) clear
    rw [held] at absent
    rw [waiting, queued]
    exact free addr absent
  | input clear filed item queued held =>
    refine iff_of_true (fun addr absent => ?_) clear
    rw [held] at absent
    by_cases same : addr = filed
    · subst same
      split at absent
      · exact absurd (Finset.mem_insert_self _ _) absent
      · next room => exact Nat.lt_of_not_le room
    · rw [waiting, queued, (PeerQueues.push_waiting _ _ _).1 addr same]
      refine free addr fun before => absent ?_
      split
      · exact Finset.mem_insert_of_mem before
      · exact before
  | removal filed asked clear queued held =>
    have count : next.waiting filed = pressed.waiting filed + 1 := by
      rw [waiting, queued, push_remove]
      rfl
    rw [clear]
    constructor
    · intro next_
      by_cases before : filed ∈ pressed.pressure.held
      · exact .inl before
      · refine .inr (count ▸ next_ filed ?_)
        rwa [held]
    · intro room addr absent
      rw [held] at absent
      by_cases same : addr = filed
      · subst same
        rw [count]
        exact room.resolve_left absent
      · rw [waiting, queued, (PeerQueues.push_waiting _ _ _).1 addr same]
        exact free addr absent
  | served clear first item count others held =>
    refine iff_of_true (fun addr absent => ?_) clear
    rw [held] at absent
    by_cases same : addr = first
    · subst same
      split at absent
      · next little =>
        exact Nat.lt_of_lt_of_le little (Nat.div_le_self _ _)
      · have before := free addr absent
        omega
    · rw [others addr same]
      refine free addr fun before => absent ?_
      split
      · exact Finset.mem_erase_of_ne_of_mem same before
      · exact before
  | dropped clear first gone others held =>
    refine iff_of_true (fun addr absent => ?_) clear
    by_cases same : addr = first
    · rw [same, gone]
      decide
    · rw [others addr same]
      exact free addr fun before => absent ((held addr).mpr ⟨same, before⟩)
  | cleared clear gone held =>
    refine iff_of_true (fun addr _ => ?_) clear
    rw [gone]
    decide

/-! ## One step of the machine -/

variable [Add F] (answer : List (Call F) → Except E Unit)

theorem change_releaseWaiting (clear : pressed.Clear taken) (queued : next.receiver.queued = .empty)
    (held : next.pressure = pressed.pressure.releaseWaiting pressed.receiver.queued) :
    pressed.Change taken next := by
  refine .cleared clear (fun addr => ?_) fun addr member => ?_
  · rw [waiting, queued, PeerQueues.empty_waiting]
    rfl
  · rw [held, mem_releaseWaiting] at member
    refine ⟨member.1, ?_⟩
    rw [waiting, waiting_eq_nil member.2]
    rfl

theorem change_take (pressed : Pressed Addr F) (order : HashOrder) (now : Nat) :
    pressed.Change (.take order)
      ⟨{ pressed.receiver.takeRequest answer order with now := now }, pressed.afterTake⟩ := by
  have clearUnless : (∀ addr asked rest,
      pressed.receiver.requests ≠ .remove addr asked :: rest) → pressed.Clear (.take order) :=
    fun other addr asked rest _ is => absurd is (other addr asked rest)
  unfold afterTake takeRequest
  cases requests : pressed.receiver.requests with
  | nil =>
    have same : pressed.Change (.take order)
        ⟨{ pressed.receiver with now := now }, pressed.pressure⟩ :=
      .same (clearUnless (by simp [requests])) rfl rfl
    cases pressed.receiver.phase <;> exact same
  | cons request rest =>
    cases phase : pressed.receiver.phase with
    | waiting | starting =>
      have clear : pressed.Clear (.take order) := by
        rintro addr asked rest ⟨emulation, running⟩
        rw [phase] at running
        cases running
      cases request <;> exact .same clear rfl rfl
    | stopped =>
      have clear : pressed.Clear (.take order) := by
        rintro addr asked rest ⟨emulation, running⟩
        rw [phase] at running
        cases running
      exact .same clear rfl rfl
    | running emulation =>
      cases request with
      | input event addr peer source =>
        refine .input (clearUnless (by simp [requests])) addr (.input event peer [source]) rfl ?_
        dsimp only
        rw [push_count]
        rfl
      | remove addr asked =>
        refine .removal addr asked ?_ rfl rfl
        constructor
        · exact fun clear => clear addr asked rest ⟨emulation, phase⟩ requests
        · intro room other number others _ is
          obtain ⟨same, -⟩ := List.cons.inj (requests.symm.trans is)
          cases same
          exact room
      | terminate | stopForMissing =>
        exact change_releaseWaiting (clearUnless (by simp [requests])) rfl rfl
      | reenable => exact .same (clearUnless (by simp [requests])) rfl rfl

omit [Add F] in
theorem pop_change {addr : Addr} {item : Queued F} {left : Nat} {rest : PeerQueues Addr F}
    (popped : pressed.receiver.queued.pop = some (addr, item, left, rest)) :
    left = (rest.waiting addr).length ∧
      pressed.waiting addr = (rest.waiting addr).length + 1 ∧
      ∀ other, other ≠ addr → (rest.waiting other).length = pressed.waiting other := by
  obtain ⟨⟨front, others⟩, left, _⟩ := PeerQueues.pop_spec popped
  refine ⟨left, ?_, fun other differs => ?_⟩
  · rw [waiting, front, length_cons]
  · rw [waiting, others other differs]

theorem change_serve (pressed : Pressed Addr F) (order : HashOrder) (now : Nat) :
    pressed.Change (.serve order)
      ⟨{ pressed.receiver.serve answer order with now := now }, pressed.afterServe answer⟩ := by
  have idle : pressed.Change (.serve order)
      ⟨{ pressed.receiver with now := now }, pressed.pressure⟩ := .same trivial rfl rfl
  unfold afterServe serve
  cases phase : pressed.receiver.phase with
  | waiting | starting | stopped => exact idle
  | running emulation =>
    cases popped : pressed.receiver.queued.pop with
    | none => exact idle
    | some front =>
      obtain ⟨addr, item, left, rest⟩ := front
      have after : ∀ (receiver : Receiver Addr F), receiver.queued = rest →
          pressed.Change (.serve order) ⟨receiver, if left < peerQueueLimit / 2 then
            pressed.pressure.release addr else pressed.pressure⟩ := by
        intro receiver queued
        subst queued
        obtain ⟨rfl, count, others⟩ := pop_change popped
        exact .served trivial addr item count others rfl
      have removed : ∀ (receiver : Receiver Addr F),
          (receiver.removeHandle answer order emulation addr).queued = receiver.queued := by
        intro receiver
        unfold removeHandle
        split <;> rfl
      cases item with
      | remove asked => exact after _ (removed _)
      | input event peer sources =>
        dsimp only
        by_cases permitted : pressed.receiver.mayDriveUs peer = true
        · rw [if_pos permitted, if_pos permitted]
          simp only [phase]
          generalize made : handleOf _ emulation addr = known
          obtain ⟨handle, created, known⟩ := known
          have queued : known.queued = rest := by
            unfold handleOf at made
            split at made <;> cases made <;> rfl
          generalize created.consume answer event handle = answered
          obtain ⟨injected, consumed⟩ := answered
          cases injected with
          | ok done =>
            cases done
            exact after { known with phase := .running consumed, now := now } queued
          | error _ =>
            obtain ⟨rfl, count, others⟩ := pop_change popped
            refine .cleared trivial (fun _ => rfl) fun other member => ?_
            obtain ⟨eased, absent⟩ := mem_releaseWaiting.mp member
            have nothing := congrArg List.length (waiting_eq_nil absent)
            have positive := half_pos
            by_cases same : other = addr
            · subst same
              rw [if_pos (by rw [nothing]; exact positive)] at eased
              exact absurd eased (Finset.notMem_erase _ _)
            · refine ⟨?_, (others other same).symm.trans nothing⟩
              split at eased
              · exact Finset.mem_of_mem_erase eased
              · exact eased
        · rw [if_neg permitted, if_neg permitted]
          obtain ⟨-, -, others⟩ := pop_change popped
          have queued : ∀ other, ({ pressed.receiver with
              queued := (rest.dropPeer addr).2 }.removeHandle answer order emulation
                addr).queued.waiting other =
              if other = addr then [] else rest.waiting other := by
            intro other
            rw [removed]
            exact PeerQueues.dropPeer_waiting rest addr other
          refine .dropped trivial addr ?_ (fun other differs => ?_) fun other => ?_
          · exact congrArg List.length ((queued addr).trans (if_pos rfl))
          · rw [← others other differs]
            exact congrArg List.length ((queued other).trans (if_neg differs))
          · rw [release, Finset.mem_erase]
            refine and_congr_right fun differs => ?_
            split
            · exact Finset.mem_erase.trans (and_iff_right differs)
            · rfl

theorem change_sessionEnded (pressed : Pressed Addr F) (order : HashOrder) (now : Nat) :
    pressed.Change (.sessionEnded order)
      ⟨{ pressed.receiver.sessionEnded answer order with now := now }, pressed.afterSession⟩ := by
  unfold afterSession sessionEnded
  cases pressed.receiver.phase with
  | running emulation => exact change_releaseWaiting trivial rfl rfl
  | waiting | starting | stopped => exact .same trivial rfl rfl

variable [Sub F] [Zero F]

theorem change_step (pressed : Pressed Addr F) (taken : Act Addr F) :
    pressed.Change taken (pressed.step answer taken) := by
  have listening : ∀ next : Receiver Addr F, pressed.Clear taken →
      next.queued = pressed.receiver.queued →
        pressed.Change taken ⟨{ next with now := pressed.receiver.now + 1 }, pressed.pressure⟩ :=
    fun _ clear queued => .same clear queued rfl
  cases taken with
  | take order => exact change_take answer pressed order _
  | serve order => exact change_serve answer pressed order _
  | sessionEnded order => exact change_sessionEnded answer pressed order _
  | listen event listed =>
    refine listening _ trivial ?_
    dsimp only [act]
    split
    · exact (listen_session pressed.receiver listed event).2.1
    · rfl
  | tick stale =>
    refine listening _ trivial ?_
    dsimp only [act]
    split
    · exact (foldl_reap_session stale pressed.receiver).2.1
    · rfl
  | notice =>
    refine listening _ trivial ?_
    dsimp only [act, takeNotice]
    split
    · split <;> rfl
    · rfl
  | reenable | stopForMissing | terminate =>
    refine listening _ trivial ?_
    dsimp only [act]
    split <;> rfl
  | trust mayDriveUs => exact listening _ trivial rfl
  | start scope =>
    refine listening _ trivial ?_
    dsimp only [act, startSession]
    split <;> rfl
  | failStart =>
    refine listening _ trivial ?_
    dsimp only [act, failStart]
    split <;> rfl
  | restart =>
    refine listening _ trivial ?_
    dsimp only [act, restart]
    split <;> rfl

/-! ## Runs -/

/-- A condition on every step of a run, in the state it is taken in. -/
def Throughout (condition : Pressed Addr F → Act Addr F → Prop) :
    Pressed Addr F → List (Act Addr F) → Prop
  | _, [] => True
  | pressed, taken :: acts =>
    condition pressed taken ∧ Throughout condition (pressed.step answer taken) acts

theorem heldWaits_run (mayDriveUs : String → Bool) (acts : List (Act Addr F)) :
    (run answer mayDriveUs acts).HeldWaits := by
  induction acts using List.reverseRecOn with
  | nil => exact fun _ member => absurd member (Finset.notMem_empty _)
  | append_singleton acts taken ih =>
    rw [run, foldl_append]
    exact (change_step answer _ taken).heldWaits ih

/-- From a state with room for all who are not held, all later ones have it if all are clear. -/
theorem freeBelow_throughout (free : pressed.FreeBelow) (acts : List (Act Addr F)) :
    Throughout answer Clear pressed acts ↔
      ∀ before, before <+: acts → (before.foldl (step answer) pressed).FreeBelow := by
  induction acts generalizing pressed with
  | nil =>
    refine iff_of_true trivial fun before isPrefix => ?_
    rwa [prefix_nil.mp isPrefix]
  | cons taken acts ih =>
    have freeNext := (change_step answer pressed taken).freeBelow_iff free
    constructor
    · rintro ⟨clear, rest⟩ before isPrefix
      rcases prefix_cons_iff.mp isPrefix with rfl | ⟨tail, rfl, isTail⟩
      · exact free
      · exact (ih (freeNext.mpr clear)).mp rest tail isTail
    · intro room
      have next := room [taken] ⟨acts, rfl⟩
      refine ⟨freeNext.mp next, (ih next).mpr fun before isPrefix => ?_⟩
      exact room (taken :: before) (cons_prefix_cons.mpr ⟨rfl, isPrefix⟩)

/--
In every run whoever is held has half a queue waiting, so nobody is held with nothing to
serve; and whoever is not held has room in every state exactly if no removal is filed
into the last place of the queue of a peer that is not held.
-/
theorem pressure_never_stuck (mayDriveUs : String → Bool) (acts : List (Act Addr F)) :
    (∀ addr ∈ (run answer mayDriveUs acts).pressure.held,
        peerQueueLimit / 2 ≤ (run answer mayDriveUs acts).waiting addr) ∧
      (∀ addr, (run answer mayDriveUs acts).waiting addr = 0 →
        addr ∉ (run answer mayDriveUs acts).pressure.held) ∧
      (Throughout answer Clear (start mayDriveUs) acts ↔
        ∀ before, before <+: acts → ∀ addr ∉ (run answer mayDriveUs before).pressure.held,
          (run answer mayDriveUs before).waiting addr < peerQueueLimit) := by
  have waits := heldWaits_run answer mayDriveUs acts
  refine ⟨waits, fun addr nothing member => ?_, freeBelow_throughout answer ?_ acts⟩
  · have half := waits addr member
    have positive := half_pos
    omega
  · intro addr _
    exact Nat.lt_of_lt_of_le half_pos (Nat.div_le_self _ _)

/-- A key goes down or up, and the emulation task files it. -/
def keyed : List (Act Nat Int) :=
  [.listen (.msg (.input (.keyboard (.key 0 30 1))) 7) true, .take .inserted]

/-- Four batches of keys with one turn after each, three more keys, and the peer leaves. -/
def crammed : List (Act Nat Int) :=
  [.start .machine, .notice, .listen (.accept 7 "peer") true, .listen (.msg .enter 7) true] ++
    (List.replicate 4 ((List.replicate 64 keyed).flatten ++ [.serve .inserted])).flatten ++
    (List.replicate 3 keyed).flatten ++ [.listen (.msg .leave 7) true, .take .inserted]

/-- The queue of the peer is full and nobody is held. -/
theorem crammed_not_held :
    ¬ ∀ (answer : List (Call Int) → Except Unit Unit) (acts : List (Act Nat Int)),
      ∀ addr ∉ (run answer (fun _ => true) acts).pressure.held,
        (run answer (fun _ => true) acts).waiting addr < peerQueueLimit := by
  intro room
  have full : let pressed := run (E := Unit) (fun _ => .ok ()) (fun _ => true) crammed
      7 ∉ pressed.pressure.held ∧ pressed.waiting 7 = peerQueueLimit := by
    decide +kernel
  exact absurd (room (fun _ => .ok ()) crammed 7 full.1) (Nat.not_lt.mpr full.2.ge)

end HopsFormal.Emulation.Pressed
