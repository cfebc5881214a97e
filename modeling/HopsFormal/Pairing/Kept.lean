import HopsFormal.Pairing.Moves
import Mathlib.Data.Set.Card

/-!
# What the board keeps

The board's counts are those of the tasks, at most one task was let send, and
what is held is held by one task.  Every move keeps this.
-/

namespace HopsFormal.Pairing

open Option Function Trust

/-! ## The phase of a connection -/

/-- Where the task of a connection is; a connection without one is over. -/
def Talk.phaseAt (talk : Talk) (conn : Nat) : Phase :=
  match talk.tasks conn with
  | none => .isOver
  | some task => task.phase

variable {talk : Talk} {conn : Nat} {phase : Phase} {arrival : Arrival} {ticket : Ticket}

theorem phaseAt_of_found {role : Role} (found : talk.tasks conn = some ⟨role, phase⟩) :
    talk.phaseAt conn = phase := by
  simp [Talk.phaseAt, found]

theorem phaseAt_of_unused (unused : talk.tasks conn = none) : talk.phaseAt conn = .isOver := by
  simp [Talk.phaseAt, unused]

@[simp]
theorem phaseAt_setTask (talk : Talk) (conn : Nat) (role : Role) (phase : Phase) :
    (talk.setTask conn role phase).phaseAt = Function.update talk.phaseAt conn phase := by
  funext other
  by_cases same : other = conn
  · subst same
    simp [Talk.phaseAt, Talk.setTask]
  · simp [Talk.phaseAt, Talk.setTask, same]

theorem setTask_phaseAt (talk : Talk) (conn : Nat) (role : Role) (phase : Phase) :
    (talk.setTask conn role phase).phaseAt conn = phase := by
  rw [phaseAt_setTask, update_self]

theorem phaseAt_congr {other : Talk} (tasks : talk.tasks = other.tasks) (conn : Nat) :
    talk.phaseAt conn = other.phaseAt conn :=
  congrArg (fun found => (Talk.phaseAt { tasks := found } conn)) tasks

@[simp]
theorem setTask_slot (talk : Talk) (conn : Nat) (role : Role) (phase : Phase) :
    (talk.setTask conn role phase).slot = talk.slot :=
  rfl

def Phase.isSent : Phase → Bool
  | .sent _ => true
  | _ => false

/-! ## The comparisons counted -/

/-- The connections whose comparisons are counted in one class. -/
def arrivals (phases : Nat → Phase) (preferred : Bool) : Set Nat :=
  {conn | ∃ arrival, (phases conn).arrival = some arrival ∧ arrival.preferred = preferred}

theorem arrivals_update_none (phases : Nat → Phase) (conn : Nat) (counts : phase.arrival = none)
    (preferred : Bool) : arrivals (Function.update phases conn phase) preferred =
      arrivals phases preferred \ {conn} := by
  ext other
  by_cases same : other = conn
  · subst same
    simp [arrivals, counts]
  · simp [arrivals, same]

theorem arrivals_update_some (phases : Nat → Phase) (conn : Nat)
    (counts : phase.arrival = some arrival) (preferred : Bool) :
    arrivals (Function.update phases conn phase) preferred =
      if arrival.preferred = preferred then insert conn (arrivals phases preferred)
      else arrivals phases preferred \ {conn} := by
  ext other
  by_cases same : other = conn
  · subst same
    split <;> simp [arrivals, *]
  · split <;> simp [arrivals, same]

/-- How many comparisons are counted in one class. -/
def Arriving.counted (arriving : Arriving) (preferred : Bool) : Nat :=
  if preferred then arriving.preferred else arriving.other

def counted (arriving : Option Arriving) (preferred : Bool) : Nat :=
  match arriving with
  | none => 0
  | some arriving => arriving.counted preferred

theorem counted_count (arriving : Arriving) (class_ preferred : Bool) (change : Nat → Nat) :
    (arriving.count class_ change).counted preferred =
      if class_ = preferred then change (arriving.counted preferred)
      else arriving.counted preferred := by
  cases class_ <;> cases preferred <;> rfl

theorem counted_dropArrival (slot : Slot) (arrival : Arrival) (preferred : Bool) :
    counted (slot.dropArrival arrival).arriving preferred =
      if arrival.preferred = preferred then counted slot.arriving preferred - 1
      else counted slot.arriving preferred := by
  unfold Slot.dropArrival
  cases entry : slot.arriving with
  | none => simp [counted, entry]
  | some arriving =>
    have out := counted_count arriving arrival.preferred preferred (· - 1)
    simp only [counted]
    rw [← out]
    by_cases last : (arriving.count arrival.preferred (· - 1)).preferred = 0 ∧
        (arriving.count arrival.preferred (· - 1)).other = 0
    · rw [if_pos last]
      cases preferred with
      | true => exact last.1.symm
      | false => exact last.2.symm
    · rw [if_neg last]

theorem dropArrival_sent {slot : Slot} {arriving : Arriving}
    (left : (slot.dropArrival arrival).arriving = some arriving) :
    ∃ before, slot.arriving = some before ∧ arriving.sent = before.sent := by
  unfold Slot.dropArrival at left
  cases entry : slot.arriving with
  | none =>
    simp only [entry] at left
    cases left
  | some before =>
    simp only [entry] at left
    split at left
    · cases left
    · refine ⟨before, rfl, ?_⟩
      rw [← Option.some.inj left, Arriving.count]
      split <;> rfl

@[simp]
theorem dropArrival_held (slot : Slot) (arrival : Arrival) :
    (slot.dropArrival arrival).held = slot.held := by
  unfold Slot.dropArrival
  split <;> rfl

/-! ## The counts and the tasks -/

/-- The comparisons counted are those under way, and at most one of them was let send. -/
structure Counts (phases : Nat → Phase) (arriving : Option Arriving) : Prop where
  counted : ∀ preferred, (arrivals phases preferred).encard = counted arriving preferred
  sent : ∀ {conn entry}, (phases conn).isSent = true → arriving = some entry → entry.sent = true
  alone : ∀ {conn other}, (phases conn).isSent = true → (phases other).isSent = true → other = conn

namespace Counts

variable {phases : Nat → Phase} {arriving : Option Arriving} {conn : Nat} {phase : Phase}

theorem fresh : Counts (fun _ => .isOver) none where
  counted preferred := by
    have empty : arrivals (fun _ => .isOver) preferred = ∅ := by
      ext conn
      simp [arrivals, Phase.arrival]
    rw [empty, Set.encard_empty]
    rfl
  sent sent := by cases sent
  alone sent := by cases sent

theorem arrival_of_isSent (sent : phase.isSent = true) : ∃ arrival, phase.arrival = some arrival := by
  cases phase with
  | sent arrival => exact ⟨arrival, rfl⟩
  | _ => cases sent

/-- A comparison under way is counted on the board. -/
theorem entry (counts : Counts phases arriving) (there : (phases conn).arrival = some arrival) :
    ∃ entry, arriving = some entry := by
  have member : conn ∈ arrivals phases arrival.preferred := ⟨arrival, there, rfl⟩
  have number := counts.counted arrival.preferred
  cases arriving with
  | some entry => exact ⟨entry, rfl⟩
  | none =>
    simp only [Pairing.counted, Nat.cast_zero, Set.encard_eq_zero] at number
    simp [number] at member

/-- While no entry says so, no comparison was let send. -/
theorem unsent (counts : Counts phases arriving)
    (none_sent : ∀ entry, arriving = some entry → entry.sent = false) (conn : Nat) :
    (phases conn).isSent = false := by
  by_contra sent
  rw [Bool.not_eq_false] at sent
  obtain ⟨arrival, there⟩ := arrival_of_isSent sent
  obtain ⟨entry, found⟩ := counts.entry there
  have marked := counts.sent sent found
  rw [none_sent entry found] at marked
  cases marked

/-- Replacing a task by one that was not let send leaves the others that were. -/
theorem sent_elsewhere {other : Nat} (quiet : phase.isSent = false)
    (sent : (Function.update phases conn phase other).isSent = true) :
    (phases other).isSent = true := by
  by_cases same : other = conn
  · subst same
    rw [update_self, quiet] at sent
    cases sent
  · rwa [update_of_ne same] at sent

theorem replaced (counts : Counts phases arriving) (quiet : phase.isSent = false)
    {arriving' : Option Arriving}
    (number : ∀ preferred,
      (arrivals (Function.update phases conn phase) preferred).encard =
        Pairing.counted arriving' preferred)
    (marked : ∀ entry', arriving' = some entry' → ∀ other, (phases other).isSent = true →
      ∃ entry, arriving = some entry ∧ (entry.sent = true → entry'.sent = true)) :
    Counts (Function.update phases conn phase) arriving' where
  counted := number
  sent sent entry := by
    have before := sent_elsewhere quiet sent
    obtain ⟨old, found, keeps⟩ := marked _ entry _ before
    exact keeps (counts.sent before found)
  alone sent sent' := counts.alone (sent_elsewhere quiet sent) (sent_elsewhere quiet sent')

/-- A task that was counted nowhere and is counted nowhere. -/
theorem uncounted (counts : Counts phases arriving) (before : (phases conn).arrival = none)
    (after : phase.arrival = none) : Counts (Function.update phases conn phase) arriving := by
  have quiet : phase.isSent = false := by
    cases phase <;> first | rfl | cases after
  refine counts.replaced quiet (fun preferred => ?_) fun entry found _ _ => ⟨entry, found, id⟩
  rw [arrivals_update_none phases conn after, Set.sdiff_singleton_eq_self]
  · exact counts.counted preferred
  · rintro ⟨arrival, found, _⟩
    rw [before] at found
    cases found

theorem countedOut {slot : Slot} (counts : Counts phases slot.arriving) {arrival : Arrival}
    (before : (phases conn).arrival = some arrival) (after : phase.arrival = none) :
    Counts (Function.update phases conn phase) (slot.dropArrival arrival).arriving := by
  have quiet : phase.isSent = false := by
    cases phase <;> first | rfl | cases after
  refine counts.replaced quiet (fun preferred => ?_) fun entry found other _ => ?_
  · rw [arrivals_update_none phases conn after, counted_dropArrival]
    have number := counts.counted preferred
    split
    · rename_i same
      have member : conn ∈ arrivals phases preferred := ⟨arrival, before, same⟩
      rw [Set.encard_sdiff_singleton_of_mem member, number, ENat.natCast_sub, Nat.cast_one]
    · rename_i other
      rw [Set.sdiff_singleton_eq_self, number]
      rintro ⟨arrival', found, same⟩
      rw [before] at found
      cases found
      exact other same
  · obtain ⟨old, there, same⟩ := dropArrival_sent found
    exact ⟨old, there, fun marked => same.trans marked⟩

theorem told {slot : Slot} (counts : Counts phases slot.arriving) :
    Counts phases slot.told.arriving where
  counted preferred := by
    rw [counts.counted preferred]
    unfold Slot.told
    cases slot.arriving <;> rfl
  sent sent entry := by
    simp only [Slot.told, map_eq_some_iff] at entry
    obtain ⟨old, found, rfl⟩ := entry
    have marked := counts.sent sent found
    exact marked
  alone := counts.alone

/-- A further comparison, while none was let send. -/
theorem begins {slot : Slot} (counts : Counts phases slot.arriving) {arrival : Arrival}
    {entry : Arriving} (unused : phases conn = .isOver) (after : phase = .arriving arrival)
    (open_ : slot.arriving = some entry ∧ entry.sent = false ∧ entry.told = false ∨
      slot.arriving = none ∧ entry = {}) :
    Counts (Function.update phases conn phase) (some (entry.count arrival.preferred (· + 1))) := by
  subst after
  have number : ∀ preferred, Pairing.counted slot.arriving preferred = entry.counted preferred := by
    intro preferred
    rcases open_ with ⟨found, _⟩ | ⟨found, rfl⟩
    · rw [found]
      rfl
    · rw [found]
      cases preferred <;> rfl
  have none_sent : ∀ conn, (phases conn).isSent = false := by
    apply counts.unsent
    intro old found
    rcases open_ with ⟨there, unsent, _⟩ | ⟨there, _⟩
    · rw [there] at found
      cases found
      exact unsent
    · rw [there] at found
      cases found
  have outside : ∀ preferred, conn ∉ arrivals phases preferred := by
    rintro preferred ⟨arrival', found, _⟩
    rw [unused] at found
    cases found
  refine counts.replaced rfl (fun preferred => ?_) fun _ _ other sent => ?_
  · rw [arrivals_update_some phases conn rfl]
    have added := counted_count entry arrival.preferred preferred (· + 1)
    split
    · rename_i same
      rw [if_pos same] at added
      rw [Set.encard_insert_of_notMem (outside preferred), counts.counted, number]
      simp [Pairing.counted, added]
    · rename_i other
      rw [if_neg other] at added
      rw [Set.sdiff_singleton_eq_self (outside preferred), counts.counted, number]
      simp [Pairing.counted, added]
  · rw [none_sent other] at sent
    cases sent

/-- The first comparison that is let send. -/
theorem sends {entry : Arriving} (counts : Counts phases (some entry))
    (before : phases conn = .arriving arrival) (unsent : entry.sent = false) :
    Counts (Function.update phases conn (.sent arrival)) (some { entry with sent := true }) := by
  have none_sent : ∀ conn, (phases conn).isSent = false := by
    apply counts.unsent
    rintro old found
    cases found
    exact unsent
  have only : ∀ {other}, (Function.update phases conn (.sent arrival) other).isSent = true →
      other = conn := by
    intro other sent
    by_contra different
    rw [update_of_ne different, none_sent] at sent
    cases sent
  constructor
  · intro preferred
    have same : arrivals (Function.update phases conn (.sent arrival)) preferred =
        arrivals phases preferred := by
      ext other
      by_cases same : other = conn
      · subst same
        simp [arrivals, before, Phase.arrival]
      · simp [arrivals, same]
    rw [same, counts.counted]
    rfl
  · rintro other entry' _ found
    cases found
    rfl
  · intro first second sent sent'
    rw [only sent, only sent']

end Counts

/-! ## What is held and the tasks -/

/-- What is held is held by one task, and no task that was let send competes with it. -/
structure Holds (phases : Nat → Phase) (held : Option Held) : Prop where
  free : ∀ {conn}, (phases conn).isSent = true → held = none
  holds : ∀ {conn ticket}, (phases conn).ticket = some ticket →
    ∃ stage, held = some ⟨conn, ticket.attempt, stage⟩
  held : ∀ {there}, held = some there →
    ∃ ticket, (phases there.conn).ticket = some ticket ∧ ticket.attempt = there.attempt

namespace Holds

variable {phases : Nat → Phase} {held : Option Held} {conn : Nat} {phase : Phase}

theorem fresh : Holds (fun _ => .isOver) none where
  free sent := by cases sent
  holds ticket := by cases ticket
  held there := by cases there

theorem staged (holds : Holds phases held) {stage : Held → Stage} :
    Holds phases (held.map fun there => { there with stage := stage there }) where
  free sent := by rw [holds.free sent, map_none]
  holds ticket := by
    obtain ⟨_, there⟩ := holds.holds ticket
    exact ⟨_, by rw [there, map_some]⟩
  held there := by
    rw [map_eq_some_iff] at there
    obtain ⟨before, found, rfl⟩ := there
    have by_ := holds.held found
    exact by_

theorem goesOn (holds : Holds phases held) (same : phase.ticket = (phases conn).ticket)
    (calm : phase.isSent = true → held = none) :
    Holds (Function.update phases conn phase) held := by
  have tickets : ∀ other, (Function.update phases conn phase other).ticket =
      (phases other).ticket := by
    intro other
    by_cases there : other = conn
    · subst there
      rw [update_self, same]
    · rw [update_of_ne there]
  constructor
  · intro other sent
    by_cases there : other = conn
    · subst there
      rw [update_self] at sent
      exact calm sent
    · rw [update_of_ne there] at sent
      exact holds.free sent
  · intro other ticket found
    rw [tickets] at found
    exact holds.holds found
  · intro there found
    rw [tickets]
    exact holds.held found

/-- The one comparison that was let send is held. -/
theorem reaches (holds : Holds phases none) {ticket : Ticket} {stage : Stage}
    (alone : ∀ other, (phases other).isSent = true → other = conn)
    (taken : phase.ticket = some ticket) :
    Holds (Function.update phases conn phase) (some ⟨conn, ticket.attempt, stage⟩) := by
  have none_holds : ∀ other, (phases other).ticket = none := by
    intro other
    by_contra found
    obtain ⟨ticket, found⟩ := ne_none_iff_exists'.mp found
    obtain ⟨_, there⟩ := holds.holds found
    cases there
  constructor
  · intro other sent
    by_cases there : other = conn
    · subst there
      rw [update_self] at sent
      cases phase with
      | sent arrival => cases taken
      | _ => cases sent
    · rw [update_of_ne there] at sent
      exact absurd (alone other sent) there
  · intro other ticket' found
    by_cases there : other = conn
    · subst there
      rw [update_self, taken] at found
      cases found
      exact ⟨stage, rfl⟩
    · rw [update_of_ne there, none_holds] at found
      cases found
  · rintro there found
    cases found
    exact ⟨ticket, by rw [update_self, taken], rfl⟩

/-- The task that holds lets go. -/
theorem release {slot : Slot} (holds : Holds phases slot.held)
    (before : (phases conn).ticket = some ticket) (after : phase.ticket = none) :
    Holds (Function.update phases conn phase) (slot.release ticket.attempt).held := by
  obtain ⟨stage, there⟩ := holds.holds before
  have released : (slot.release ticket.attempt).held = none := by
    simp [Slot.release, there]
  rw [released]
  constructor
  · intro _ _
    rfl
  · intro other ticket' found
    by_cases same : other = conn
    · subst same
      rw [update_self, after] at found
      cases found
    · rw [update_of_ne same] at found
      obtain ⟨_, elsewhere⟩ := holds.holds found
      rw [there] at elsewhere
      have conns : conn = other := congrArg Held.conn (Option.some.inj elsewhere)
      exact absurd conns.symm same
  · intro there found
    cases found

end Holds

/-! ## Every move keeps both -/

/-- What the board and the tasks with one machine have in common. -/
structure Kept (talk : Talk) : Prop where
  counts : Counts talk.phaseAt talk.slot.arriving
  holds : Holds talk.phaseAt talk.slot.held

theorem Kept.fresh : Kept {} := ⟨Counts.fresh, Holds.fresh⟩

theorem Kept.staged {talk' : Talk} (kept : Kept talk) (tasks : talk'.tasks = talk.tasks)
    (arriving : talk'.slot.arriving = talk.slot.arriving)
    (held : ∃ stage : Held → Stage, talk'.slot.held =
      talk.slot.held.map fun there => { there with stage := stage there }) : Kept talk' := by
  have phases : talk'.phaseAt = talk.phaseAt := by
    funext conn
    simp [Talk.phaseAt, tasks]
  obtain ⟨stage, held⟩ := held
  constructor
  · rw [phases, arriving]
    exact kept.counts
  · rw [phases, held]
    exact kept.holds.staged

theorem staged_same (held : Option Held) :
    ∃ stage : Held → Stage, held = held.map fun there => { there with stage := stage there } :=
  ⟨Held.stage, by simp⟩

theorem staged_end (slot : Slot) :
    ∃ stage : Held → Stage,
      slot.end_.held = slot.held.map fun there => { there with stage := stage there } :=
  ⟨fun _ => .isOver, rfl⟩

theorem staged_advance (slot : Slot) (source target : Stage) :
    ∃ stage : Held → Stage,
      (slot.advance source target).held =
        slot.held.map fun there => { there with stage := stage there } := by
  refine ⟨fun there => if there.stage = source then target else there.stage, ?_⟩
  simp only [Slot.advance]
  congr 1
  funext there
  split <;> rfl

theorem arrival_of_ticket (holds : phase.ticket = some ticket) : phase.arrival = none := by
  cases phase with
  | arriving arrival | sent arrival => cases holds
  | _ => rfl

theorem ticket_of_arrival (counts : phase.arrival = some arrival) : phase.ticket = none := by
  cases phase with
  | arriving arrival | sent arrival => rfl
  | _ => cases counts

theorem Kept.goesOn (kept : Kept talk) (before : (talk.phaseAt conn).ticket = some ticket)
    (after : phase.ticket = some ticket) (role : Role) : Kept (talk.setTask conn role phase) := by
  have quiet : phase.isSent = false := by
    cases phase with
    | sent arrival => cases after
    | _ => rfl
  constructor
  · rw [phaseAt_setTask, setTask_slot]
    exact kept.counts.uncounted (arrival_of_ticket before) (arrival_of_ticket after)
  · rw [phaseAt_setTask, setTask_slot]
    refine kept.holds.goesOn (after.trans before.symm) fun sent => ?_
    rw [quiet] at sent
    cases sent

/-- A task without a number is counted out. -/
theorem Kept.leaves (kept : Kept talk) (before : (talk.phaseAt conn).arrival = some arrival)
    (role : Role) : Kept (talk.leave conn role arrival).1 := by
  constructor
  · exact phaseAt_setTask _ conn role .isOver ▸ kept.counts.countedOut before rfl
  · rw [Talk.leave, phaseAt_setTask, setTask_slot, dropArrival_held]
    exact kept.holds.goesOn (ticket_of_arrival before).symm nofun

theorem Kept.lets (kept : Kept talk) (before : (talk.phaseAt conn).ticket = some ticket)
    (after : phase.ticket = none) (uncounted : phase.arrival = none) (role : Role) :
    Kept (({ talk with slot := talk.slot.release ticket.attempt }).setTask conn role phase) := by
  have arriving : (talk.slot.release ticket.attempt).arriving = talk.slot.arriving := by
    unfold Slot.release
    split <;> rfl
  constructor
  · rw [phaseAt_setTask, setTask_slot, arriving]
    exact kept.counts.uncounted (arrival_of_ticket before) uncounted
  · rw [phaseAt_setTask, setTask_slot]
    exact kept.holds.release before after

/-- A task leaves the tasks of other connections alone. -/
theorem works_phaseAt {talk' : Talk} {other : Nat} {role : Role} {act : TaskAct} {told : List Told}
    (does : Works talk conn role phase act talk' told) (different : other ≠ conn) :
    talk'.phaseAt other = talk.phaseAt other := by
  have untouched : ∀ slot role' phase',
      (({ talk with slot }).setTask conn role' phase').phaseAt other = talk.phaseAt other := by
    intro slot role' phase'
    rw [phaseAt_setTask, update_of_ne different]
    rfl
  cases does with
  | waits => rfl
  | _ => exact untouched _ _ _

theorem Kept.works {talk talk' : Talk} (kept : Kept talk) {conn : Nat} {role : Role}
    {phase : Phase} {act : TaskAct} {told : List Told}
    (found : talk.tasks conn = some ⟨role, phase⟩)
    (does : Works talk conn role phase act talk' told) : Kept talk' := by
  have here := phaseAt_of_found found
  cases does with
  | waits => exact kept
  | sends asks counted free unsent untold =>
    subst asks
    constructor
    · rw [phaseAt_setTask, setTask_slot]
      exact (counted ▸ kept.counts).sends here unsent
    · rw [phaseAt_setTask, setTask_slot]
      refine kept.holds.goesOn ?_ fun _ => free
      rw [here]
      rfl
  | leaves asks asked => exact kept.leaves (by rw [here, asks]; rfl) role
  | slips sent shows | refused sent taken => exact kept.leaves (by rw [here, sent]; rfl) role
  | fails counts =>
    rw [← here] at counts
    constructor
    · exact phaseAt_setTask _ conn role .isOver ▸ kept.counts.told.countedOut counts rfl
    · rw [phaseAt_setTask, setTask_slot, dropArrival_held]
      exact kept.holds.goesOn (ticket_of_arrival counts).symm nofun
  | @reaches arrival number theirs ticket sent free made =>
    have sends : (talk.phaseAt conn).isSent = true := by
      rw [here, sent]
      rfl
    have attempt : ticket.attempt = arrival.attempt := by rw [made]
    constructor
    · rw [phaseAt_setTask, setTask_slot]
      exact @Counts.countedOut _ conn (.holding ticket number)
        { talk.slot with held := some ⟨conn, arrival.attempt, .comparing⟩ } kept.counts arrival
        (by rw [here, sent]; rfl) rfl
    · rw [phaseAt_setTask, setTask_slot, dropArrival_held, ← attempt]
      refine (free ▸ kept.holds).reaches (fun other also => ?_) rfl
      exact kept.counts.alone sends also
  | answers holds stage => exact kept.goesOn (by rw [here, holds]; rfl) rfl role
  | greets answered shows => exact kept.goesOn (by rw [here, answered]; rfl) rfl role
  | hears listens =>
    refine kept.goesOn ?_ rfl role
    rw [here]
    rcases listens with ⟨rfl, _⟩ | rfl
    · rfl
    · rfl
  | finishes holds | stops holds isOver => exact kept.lets (by rw [here, holds]) rfl rfl role
  | pairs confirmed settled => exact kept.lets (by rw [here, confirmed]; rfl) rfl rfl role

section Lowercase

variable [Lowercase]

theorem Kept.moves {machine : Machine} {fp : Fingerprint} {act : Act} {view : View}
    (kept : Kept (machine.talks fp)) (moves : Moves machine fp act view) : Kept view.talk := by
  cases moves with
  | elsewhere grown | ignores queued event onScreen other | adjusts leased => exact kept
  | @busy _ conn role unused =>
    have phase := phaseAt_of_unused unused
    constructor
    · rw [phaseAt_setTask, setTask_slot]
      exact kept.counts.uncounted (phase ▸ rfl) rfl
    · rw [phaseAt_setTask, setTask_slot]
      exact kept.holds.goesOn (phase ▸ rfl) nofun
  | begins asked unused free counted =>
    have phase := phaseAt_of_unused unused
    constructor
    · rw [phaseAt_setTask, setTask_slot]
      exact kept.counts.begins phase rfl counted
    · rw [phaseAt_setTask, setTask_slot]
      exact kept.holds.goesOn (phase ▸ rfl) nofun
  | works found does => exact kept.works found does
  | shown first queued event waits | drops queued event onScreen | expires unshown
  | approves named left => exact kept.staged rfl rfl (staged_same _)
  | unshown first queued event unpaired | abandons queued event | cancels named asked
  | forgets asked => exact kept.staged rfl rfl (staged_end _)
  | settles first queued event onScreen answered leased | picks named onScreen unanswered right =>
    exact kept.staged rfl rfl (staged_advance _ _ _)

/-! ## A number on screen -/

/-- A number is on screen only while the approval it is for waits. -/
def Waits (view : View) : Prop :=
  ∀ ceremony, view.talk.ceremony = some ceremony → view.lease = some false

theorem Waits.moves {machine : Machine} {fp : Fingerprint} {act : Act} {view : View}
    (waits : Waits (machine.view fp)) (moves : Moves machine fp act view) : Waits view := by
  intro ceremony onScreen
  cases moves with
  | elsewhere grown | busy unused | begins asked unused free counted
  | ignores queued event shown other => exact waits ceremony onScreen
  | works found does =>
    rw [works_ceremony does] at onScreen
    exact waits ceremony onScreen
  | shown first queued event leased => exact leased
  | unshown first queued event unpaired | settles first queued event shown answered leased
  | abandons queued event | drops queued event shown | cancels named asked | forgets asked =>
    cases onScreen
  | picks named shown unanswered right => exact waits _ shown
  | expires unshown =>
    rw [Talk.unapproved, unshown] at onScreen
    cases onScreen
  | approves named left =>
    rcases left with left | ⟨_, before⟩
    · exact left
    · have now := waits ceremony onScreen
      rw [before] at now
      cases now
  | adjusts leased =>
    have now := waits ceremony onScreen
    rw [leased] at now
    cases now

end Lowercase

end HopsFormal.Pairing
