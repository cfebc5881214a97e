import HopsFormal.Pairing.Approved
import HopsFormal.Pairing.Kept
import HopsFormal.Trust.Persistence

/-!
# One number for one approval

A comparison that sent this machine's half and then ended leaves the board
before the service reads that it ended, and with it goes the board's record
that a half was sent.  What was sent for an approval is accounted for as long
as the end waits in the queue, so a run sends one half for each approval if no
comparison asks to send while an end waits unread.
-/

namespace HopsFormal.Pairing

open List Trust TrustStore Lib

/-! ## What an attempt leaves behind -/

/-- The attempt held still compares, or waits for the other machine. -/
def Stage.live : Stage → Bool
  | .comparing | .answered => true
  | .settled | .isOver => false

/-- Attempt `attempt` is held and goes on, or its end is in the queue. -/
def Alive (held : Option Held) (queue : List Told) (attempt : Nat) : Prop :=
  (∃ conn stage, held = some ⟨conn, attempt, stage⟩ ∧ stage.live = true) ∨
    ∃ told why, told ∈ queue ∧ told.event = .ended why attempt

/-- Every number in the queue is that of an attempt that goes on, or ends further down the queue. -/
def Backed (held : Option Held) : List Told → Prop
  | [] => True
  | told :: rest =>
    (∀ role number attempt theirs, told.event = .number role number attempt theirs →
      Alive held rest attempt) ∧ Backed held rest

/-- A half sent is accounted for: its comparison goes on, or an end is in the queue. -/
def Busy (talk : Talk) (queue : List Told) : Prop :=
  (∃ conn, (talk.phaseAt conn).isSent = true) ∨ ∃ attempt, Alive talk.slot.held queue attempt

/-- What is on screen and what is in the queue is that of attempts that go on or end. -/
structure Accounted (view : View) : Prop where
  waits : Waits view
  shown : ∀ ceremony, view.talk.ceremony = some ceremony →
    Alive view.talk.slot.held view.queue ceremony.attempt
  told : view.lease = some false → Backed view.talk.slot.held view.queue

variable {held : Option Held} {queue rest : List Told} {attempt : Nat} {slot : Slot}

theorem Backed.append {held' : Option Held} {new : List Told} (backed : Backed held queue)
    (alive : ∀ rest attempt, Alive held rest attempt → Alive held' (rest ++ new) attempt)
    (last : Backed held' new) : Backed held' (queue ++ new) := by
  induction queue with
  | nil => exact last
  | cons told rest ih =>
    refine ⟨fun role number attempt theirs event => ?_, ih backed.2⟩
    exact alive rest attempt (backed.1 role number attempt theirs event)

theorem Backed.mono {held' : Option Held} (backed : Backed held queue)
    (alive : ∀ rest attempt, Alive held rest attempt → Alive held' rest attempt) :
    Backed held' queue := by
  have appended : Backed held' (queue ++ []) := backed.append (by simpa using alive) trivial
  simpa using appended

/-- A queue without numbers asks for nothing. -/
theorem Backed.of_silent (silent : ∀ told ∈ queue, ∀ role number attempt theirs,
      told.event ≠ .number role number attempt theirs) : Backed held queue := by
  induction queue with
  | nil => trivial
  | cons told rest ih =>
    refine ⟨fun role number attempt theirs event => ?_, ih fun later member => ?_⟩
    · exact absurd event (silent told (by simp) role number attempt theirs)
    · exact silent later (by simp [member])

theorem Alive.append (alive : Alive held rest attempt) (new : List Told) :
    Alive held (rest ++ new) attempt := by
  rcases alive with there | ⟨told, why, member, event⟩
  · exact .inl there
  · exact .inr ⟨told, why, mem_append_left new member, event⟩

/-- The end of another attempt is not what an attempt waits for. -/
theorem Alive.tail {told : Told} (alive : Alive held (told :: rest) attempt)
    (other : ∀ why, told.event ≠ .ended why attempt) : Alive held rest attempt := by
  rcases alive with there | ⟨ended, why, member, event⟩
  · exact .inl there
  · rcases mem_cons.mp member with rfl | later
    · exact absurd event (other why)
    · exact .inr ⟨ended, why, later, event⟩

/-- Whatever is held, an attempt that ends is not it any more. -/
theorem Alive.of_none (alive : Alive none rest attempt) : Alive held rest attempt := by
  rcases alive with ⟨conn, stage, there, _⟩ | ended
  · cases there
  · exact .inr ended

theorem stage_of_held {slot : Slot} {conn attempt : Nat} {stage : Stage}
    (there : slot.held = some ⟨conn, attempt, stage⟩) : slot.stage attempt = stage := by
  simp [Slot.stage, there]

theorem release_of_held {conn : Nat} {stage : Stage}
    (there : slot.held = some ⟨conn, attempt, stage⟩) : (slot.release attempt).held = none := by
  simp [Slot.release, there]

theorem advance_live (alive : Alive slot.held rest attempt) :
    Alive slot.answered.held rest attempt := by
  rcases alive with ⟨conn, stage, there, live⟩ | ended
  · cases stage with
    | comparing | answered =>
      exact .inl ⟨conn, .answered, by simp [Slot.answered, Slot.advance, there], rfl⟩
    | settled | isOver => cases live
  · exact .inr ended

/-! ## What a task does to it -/

section Works

variable {talk talk' : Talk} {conn : Nat} {role : Role} {phase : Phase} {act : TaskAct}
  {told : List Told}

/-- A task lets go of what is not live any more without a word, and of what is only with one. -/
theorem Alive.released (kept : Kept talk) {ticket : Ticket}
    (holds : (talk.phaseAt conn).ticket = some ticket) {rest : List Told} {attempt : Nat}
    (alive : Alive talk.slot.held rest attempt)
    (said : (talk.slot.stage ticket.attempt).live = true →
      ∃ told' why, told' ∈ told ∧ told'.event = .ended why ticket.attempt) :
    Alive (talk.slot.release ticket.attempt).held (rest ++ told) attempt := by
  obtain ⟨stage, there⟩ := kept.holds.holds holds
  rcases alive with ⟨conn', stage', there', live⟩ | ended
  · rw [there] at there'
    cases there'
    rw [stage_of_held there] at said
    obtain ⟨told', why, member, event⟩ := said live
    exact .inr ⟨told', why, mem_append_right rest member, event⟩
  · rw [release_of_held there]
    exact Alive.append (.inr ended) told

theorem Alive.works (kept : Kept talk) (found : talk.tasks conn = some ⟨role, phase⟩)
    (does : Works talk conn role phase act talk' told) {rest : List Told} {attempt : Nat}
    (alive : Alive talk.slot.held rest attempt) :
    Alive talk'.slot.held (rest ++ told) attempt := by
  have here := phaseAt_of_found found
  cases does with
  | waits | sends asks counted free unsent untold | answers holds stage | greets answered shows =>
    exact alive.append []
  | leaves asks asked | slips sent shows | refused sent taken =>
    rw [Talk.leave, setTask_slot, dropArrival_held]
    exact alive.append []
  | fails counts =>
    rw [setTask_slot, dropArrival_held]
    exact alive.append _
  | reaches sent free made =>
    rw [free] at alive
    exact alive.of_none.append _
  | hears listens => exact alive.append _
  | finishes holds =>
    exact alive.released kept (here ▸ holds) fun _ => ⟨_, _, mem_singleton_self _, rfl⟩
  | stops holds isOver =>
    refine alive.released kept (here ▸ holds) fun live => ?_
    rw [isOver] at live
    cases live
  | @pairs ticket number confirmed settled =>
    have holds : phase.ticket = some ticket := by rw [confirmed, Phase.ticket]
    refine alive.released kept (here ▸ holds) fun live => ?_
    rw [settled] at live
    cases live

/-- The number a task tells is that of what it comes to hold. -/
theorem Backed.works (kept : Kept talk) (found : talk.tasks conn = some ⟨role, phase⟩)
    (does : Works talk conn role phase act talk' told) {queue : List Told}
    (backed : Backed talk.slot.held queue) : Backed talk'.slot.held (queue ++ told) := by
  refine backed.append (fun rest attempt alive => alive.works kept found does) ?_
  cases does with
  | reaches sent free made =>
    refine ⟨fun role' number' attempt' theirs' event => ?_, trivial⟩
    cases event
    rw [setTask_slot, dropArrival_held]
    exact .inl ⟨conn, .comparing, rfl, rfl⟩
  | _ =>
    refine Backed.of_silent ?_
    simp

/-- What a task that sent leaves behind: only a slip leaves nothing. -/
theorem Busy.works (kept : Kept talk) (found : talk.tasks conn = some ⟨role, phase⟩)
    (does : Works talk conn role phase act talk' told)
    (draws : act = .failed .noRandomness true → phase.isSent = false) {queue : List Told}
    (busy : Busy talk queue) : Busy talk' (queue ++ told) := by
  have here := phaseAt_of_found found
  rcases busy with ⟨other, sent⟩ | ⟨attempt, alive⟩
  · by_cases same : other = conn
    · subst same
      rw [here] at sent
      cases does with
      | waits => exact .inl ⟨other, here ▸ sent⟩
      | sends asks counted free unsent untold | leaves asks asked =>
        subst asks
        cases sent
      | slips sends shows =>
        rw [draws rfl] at sent
        cases sent
      | fails counts | finishes holds =>
        exact .inr ⟨_, .inr ⟨_, _, mem_append_right queue (mem_singleton_self _), rfl⟩⟩
      | @reaches arrival number theirs ticket sends free made =>
        refine .inr ⟨arrival.attempt, .inl ⟨other, .comparing, ?_, rfl⟩⟩
        rw [setTask_slot, dropArrival_held]
      | refused sends taken =>
        rw [kept.holds.free (here ▸ sent)] at taken
        cases taken
      | answers holds stage =>
        subst holds
        cases sent
      | greets answered shows =>
        subst answered
        cases sent
      | hears listens =>
        rcases listens with ⟨rfl, _⟩ | rfl
        · cases sent
        · cases sent
      | stops holds isOver =>
        cases phase with
        | sent arrival => cases holds
        | _ => cases sent
      | pairs confirmed settled =>
        subst confirmed
        cases sent
    · rw [← works_phaseAt does same] at sent
      exact .inl ⟨other, sent⟩
  · exact .inr ⟨attempt, alive.works kept found does⟩

end Works

/-! ## When a run sends one half for each approval -/

def EndWaits (machine : Machine) (fp : Fingerprint) : Prop :=
  ∃ told why attempt, (fp, told) ∈ machine.queue ∧ told.event = .ended why attempt

def NumberWaits (machine : Machine) (fp : Fingerprint) : Prop :=
  ∃ told role number attempt theirs, (fp, told) ∈ machine.queue ∧
    told.event = .number role number attempt theirs

/-- A comparison with `fp` is let send this machine's half. -/
def Sends (fp : Fingerprint) (step : Machine × Act) : Prop :=
  ∃ conn closed role arrival, step.2 = .task fp conn (.maySend closed) ∧
    (step.1.talks fp).tasks conn = some ⟨role, .arriving arrival⟩ ∧
    ((step.1.talks fp).slot.maySend arrival).1 = .sends

section Lowercase

variable [Lowercase]

/-- An approval of `fp` is made where none waits. -/
def Approves (fp : Fingerprint) (step : Machine × Act) : Prop :=
  step.1.store.waiting fp.1 ≠ some false ∧ (step.1.step step.2).store.waiting fp.1 = some false

/--
What keeps the halves sent in step with the approvals: a comparison asks only
while its approval waits and no end is unread, an approval is given only while
no number is unread, no randomness fails once a half may go out, and a number is
read while its approval holds.
-/
def InStep (fp : Fingerprint) (step : Machine × Act) : Prop :=
  let (machine, act) := step
  let talk := machine.talks fp
  match act with
  | .task other _ (.maySend _) =>
    other = fp → talk.slot.held = none → talk.slot.spent = false →
      machine.store.waiting fp.1 = some false ∧ ¬ EndWaits machine fp
  | .task other conn (.failed .noRandomness true) =>
    other = fp → (talk.phaseAt conn).isSent = false
  | .approve spelled _ _ _ _ _ =>
    Fingerprint.of spelled = some fp → machine.store.waiting fp.1 ≠ some false →
      ¬ NumberWaits machine fp
  | .dequeue reading _ =>
    ∀ told role number attempt theirs, machine.queue.head? = some (fp, told) →
      told.event = .number role number attempt theirs →
      machine.store.waiting fp.1 = some false → machine.store.isPairing reading fp.1 = true
  | _ => True

variable {machine : Machine} {fp : Fingerprint} {act : Act} {view : View}

/-- A number read while its approval waits is read while that approval holds. -/
theorem InStep.unshown {reading : Nat} {randomness : Bool}
    (inStep : InStep fp (machine, .dequeue reading randomness)) {told : Told} {role : Role}
    {number : String} {attempt : Nat} {theirs : Option Answer}
    (first : machine.queue.head? = some (fp, told))
    (event : told.event = .number role number attempt theirs)
    (unpaired : machine.store.isPairing reading fp.1 = false) :
    machine.store.waiting fp.1 ≠ some false := by
  intro waiting
  have pairing := inStep told role number attempt theirs first event waiting
  rw [unpaired] at pairing
  cases pairing

theorem Accounted.moves (kept : Kept (machine.talks fp)) (accounted : Accounted (machine.view fp))
    (inStep : InStep fp (machine, act)) (moves : Moves machine fp act view) : Accounted view := by
  refine ⟨accounted.waits.moves moves, ?_, ?_⟩
  · intro ceremony onScreen
    cases moves with
    | elsewhere grown | busy unused | begins asked unused free counted | approves named left
    | adjusts leased => exact accounted.shown ceremony onScreen
    | works found does =>
      rw [works_ceremony does] at onScreen
      exact (accounted.shown ceremony onScreen).works kept found does
    | shown first queued event waits =>
      cases onScreen
      have backed := accounted.told waits
      rw [queued] at backed
      exact backed.1 _ _ _ _ event
    | unshown first queued event unpaired | settles first queued event shown answered leased
    | abandons queued event | drops queued event shown | cancels named asked | forgets asked =>
      cases onScreen
    | ignores queued event shown other =>
      have alive := accounted.shown ceremony onScreen
      rw [queued] at alive
      refine alive.tail fun why ended => ?_
      rw [event] at ended
      cases ended
      cases shown.symm.trans onScreen
      exact other rfl
    | @picks _ _ before named shown unanswered right =>
      cases onScreen
      have alive := accounted.shown before shown
      exact advance_live alive
    | expires unshown =>
      rw [Talk.unapproved, unshown] at onScreen
      cases onScreen
  · intro waiting
    cases moves with
    | elsewhere grown | busy unused | begins asked unused free counted =>
      exact accounted.told waiting
    | works found does => exact (accounted.told waiting).works kept found does
    | shown first queued event waits | ignores queued event shown other =>
      have backed := accounted.told waiting
      rw [queued] at backed
      exact backed.2
    | unshown first queued event unpaired =>
      exact absurd waiting (inStep.unshown first event unpaired)
    | settles first queued event shown answered leased | forgets asked | adjusts leased =>
      cases waiting
    | abandons queued event | drops queued event shown | cancels named asked | expires unshown =>
      exact absurd waiting (unlessWaiting_ne _)
    | picks named shown unanswered right =>
      exact (accounted.told waiting).mono fun _ _ => advance_live
    | approves named left =>
      by_cases before : machine.store.waiting fp.1 = some false
      · exact accounted.told before
      · have silent := inStep named before
        refine Backed.of_silent fun told member role number attempt theirs event => ?_
        exact silent ⟨told, role, number, attempt, theirs, mem_about.mp member, event⟩

/-- While an approval waits, a half sent for it stays accounted for. -/
theorem Busy.moves (kept : Kept (machine.talks fp)) (accounted : Accounted (machine.view fp))
    (inStep : InStep fp (machine, act)) (moves : Moves machine fp act view)
    (waiting : view.lease = some false) (busy : Busy (machine.talks fp) (machine.view fp).queue) :
    Busy view.talk view.queue := by
  have untouched : ∀ {conn role phase slot}, (machine.talks fp).tasks conn = none →
      slot.held = (machine.talks fp).slot.held →
      Busy (({ machine.talks fp with slot }).setTask conn role phase) (machine.view fp).queue := by
    intro conn role phase slot unused held
    rcases busy with ⟨other, sent⟩ | ⟨attempt, alive⟩
    · refine .inl ⟨other, ?_⟩
      have different : other ≠ conn := by
        rintro rfl
        rw [phaseAt_of_unused unused] at sent
        cases sent
      rw [phaseAt_setTask, Function.update_of_ne different]
      exact sent
    · refine .inr ⟨attempt, ?_⟩
      rw [setTask_slot, held]
      exact alive
  cases moves with
  | elsewhere grown | approves named left => exact busy
  | busy unused | begins asked unused free counted => exact untouched unused rfl
  | works found does =>
    refine busy.works kept found does fun failed => ?_
    subst failed
    rw [← phaseAt_of_found found]
    exact inStep rfl
  | shown first queued event waits =>
    rw [queued] at busy
    refine busy.imp_right fun ⟨attempt, alive⟩ => ⟨attempt, alive.tail fun why ended => ?_⟩
    rw [event] at ended
    cases ended
  | unshown first queued event unpaired =>
    exact absurd waiting (inStep.unshown first event unpaired)
  | settles first queued event shown answered leased | forgets asked | adjusts leased =>
    cases waiting
  | abandons queued event | drops queued event shown | cancels named asked | expires unshown =>
    exact absurd waiting (unlessWaiting_ne _)
  | @ignores _ _ _ _ _ _ ceremony queued event shown other =>
    have alive := accounted.shown ceremony shown
    rw [queued] at alive
    refine .inr ⟨ceremony.attempt, alive.tail fun why ended => ?_⟩
    rw [event] at ended
    cases ended
    exact other rfl
  | picks named shown unanswered right =>
    exact busy.imp_right fun ⟨attempt, alive⟩ => ⟨attempt, advance_live alive⟩

def HalfSent (fp : Fingerprint) (past : List (Machine × Act)) : Prop :=
  Since (Approves fp) (fun _ step _ => Sends fp step) past

/-- What holds wherever a run stands. -/
structure Standing (fp : Fingerprint) (past : List (Machine × Act)) (machine : Machine) : Prop where
  sound : machine.Sound
  kept : Kept (machine.talks fp)
  accounted : Accounted (machine.view fp)
  sent : HalfSent fp past → machine.store.waiting fp.1 = some false →
    Busy (machine.talks fp) (machine.view fp).queue

variable {store : TrustStore}

theorem Standing.start (formed : Formed store) (driven : Driven store) (fp : Fingerprint) :
    Standing fp [] (Machine.start store) where
  sound := ⟨formed, driven⟩
  kept := Kept.fresh
  accounted :=
    { waits := nofun
      shown := nofun
      told := fun _ => trivial }
  sent since := by
    obtain ⟨before, x, after, split, _⟩ := since
    simp at split

theorem Sends.isSent (sends : Sends fp (machine, act)) :
    ∃ conn, (((machine.step act).talks fp).phaseAt conn).isSent = true := by
  obtain ⟨conn, closed, role, arrival, rfl, found, verdict⟩ := sends
  refine ⟨conn, ?_⟩
  dsimp only at found verdict
  rcases maySend_cases (machine.talks fp).slot arrival with
    gaveUp | waited | ⟨arriving, _, _, _, _, sent⟩
  · rw [gaveUp] at verdict
    cases verdict
  · rw [waited] at verdict
    cases verdict
  · simp [Machine.step, Talk.act, found, sent, Phase.isSent]

theorem Standing.step {past : List (Machine × Act)} (standing : Standing fp past machine)
    (inStep : InStep fp (machine, act)) :
    Standing fp (past ++ [(machine, act)]) (machine.step act) := by
  have moves := standing.sound.step_moves act fp
  constructor
  · exact standing.sound.step act
  · exact standing.kept.moves moves
  · exact standing.accounted.moves standing.kept inStep moves
  · intro since waiting
    rcases since.of_snoc with sends | ⟨not_approved, before⟩
    · exact .inl sends.isSent
    · have waited : machine.store.waiting fp.1 = some false := by
        by_contra none_waited
        exact not_approved ⟨none_waited, waiting⟩
      exact (standing.sent before waited).moves standing.kept standing.accounted inStep moves
        waiting

/--
A run that keeps in step sends this machine's half twice only with a fresh
approval in between.
-/
theorem one_half_for_each_approval {store : TrustStore} (formed : Formed store)
    (driven : Driven store) (fp : Fingerprint) (acts : List Act)
    (inStep : ∀ step ∈ trace Machine.step (.start store) acts, InStep fp step)
    (past between later : List (Machine × Act)) (first second : Machine × Act)
    (split : trace Machine.step (.start store) acts = past ++ first :: (between ++ second :: later))
    (sent : Sends fp first) (again : Sends fp second) : ∃ step ∈ between, Approves fp step := by
  by_contra unapproved
  have regrouped : trace Machine.step (.start store) acts =
      (past ++ first :: between) ++ second :: later := by simp [split]
  have standing : Standing fp ([] ++ (past ++ first :: between)) second.1 :=
    trace_inv Machine.step (fun _ _ _ before ok => before.step ok)
      (.start formed driven fp) inStep regrouped
  have since : HalfSent fp ([] ++ (past ++ first :: between)) :=
    ⟨past, first, between, rfl, fun step member approves => unapproved ⟨step, member, approves⟩,
      sent⟩
  obtain ⟨conn, closed, role, arrival, asks, found, verdict⟩ := again
  rcases maySend_cases (second.1.talks fp).slot arrival with
    gaveUp | waited | ⟨arriving, entry, free, unsent, untold, _⟩
  · rw [gaveUp] at verdict
    cases verdict
  · rw [waited] at verdict
    cases verdict
  · have unspent : (second.1.talks fp).slot.spent = false := by
      simp [Slot.spent, entry, unsent, untold]
    have here : InStep fp (second.1, .task fp conn (.maySend closed)) := by
      rw [← asks]
      exact inStep second (by rw [split]; simp)
    obtain ⟨waiting, unread⟩ := here rfl free unspent
    rcases standing.sent since waiting with ⟨other, sends⟩ | ⟨attempt, alive⟩
    · have marked := standing.kept.counts.sent sends entry
      rw [unsent] at marked
      cases marked
    · rcases alive with ⟨_, _, there, _⟩ | ⟨told, why, member, event⟩
      · rw [free] at there
        cases there
      · exact unread ⟨told, why, attempt, mem_about.mp member, event⟩

/-! ## A half sent twice -/

/-- An approval, and a comparison that is lost once this machine's half went out. -/
def lostComparison (fp : Fingerprint) : List Act :=
  [.approve fp.1 0 "" .both false true, .accept fp 0 0, .task fp 0 (.maySend false),
    .task fp 0 (.failed (.late (.io "connection lost")) true)]

def furtherComparison (fp : Fingerprint) : List Act :=
  [.accept fp 1 0, .task fp 1 (.maySend false)]

attribute [local simp] Machine.start Machine.step Machine.request Machine.atDesk Machine.desk
  Machine.arrive Desk.addAuthorizedKey Desk.handle Desk.pairingEnded Desk.forgetPairing
  Talk.begin_ Talk.act Talk.setTask Talk.fail Slot.begin_ Slot.spent Slot.maySend Slot.dropArrival
  Slot.told Arriving.count CeremonyError.possible CeremonyError.isLate beforeNumber
  Fingerprint.of_valid isPairing_approved capabilities_approved waiting_approved

theorem sends_twice (unknown : store.entries[fp.1]? = none) : ∃ past first between second,
      trace Machine.step (.start store) (lostComparison fp ++ furtherComparison fp) =
        past ++ first :: (between ++ [second]) ∧
      Sends fp first ∧ Sends fp second ∧ ∀ step ∈ between, ¬ Approves fp step := by
  have approves := issueAnswered_unknown unknown
  refine ⟨[_, _], _, [_, _], _, rfl, ?_, ?_, ?_⟩
  · cases kept : keeps .pick store.ours fp.1 <;> simp [Sends, approves, kept]
  · cases kept : keeps .pick store.ours fp.1 <;> simp [Sends, approves, kept]
  · cases kept : keeps .pick store.ours fp.1 <;> simp [Approves, approves, kept]

/-- The end is read and the machine approved afresh before the further comparison begins. -/
def approvedAfresh (fp : Fingerprint) : List Act :=
  lostComparison fp ++ .dequeue 0 true :: .approve fp.1 0 "" .both false true ::
    furtherComparison fp

theorem forgetUnconfirmed_approved (store : TrustStore) (fp : Fingerprint) :
    (approvedStore store fp).forgetUnconfirmed fp.1 =
      (true, (approvedStore store fp).removeEntry fp.1) := by
  simp [forgetUnconfirmed, key_of_valid fp.2, leaseAt, approvedStore, setLease, approval]

theorem inStep_approvedAfresh (unknown : store.entries[fp.1]? = none) :
    ∀ step ∈ trace Machine.step (.start store) (approvedAfresh fp), InStep fp step := by
  have approves := issueAnswered_unknown unknown
  have afresh := @issueAnswered_unknown _ ((approvedStore store fp).removeEntry fp.1) fp
    (by simp [removeEntry])
  cases kept : keeps .pick store.ours fp.1 <;>
    simp [approvedAfresh, lostComparison, furtherComparison, trace, InStep, EndWaits, NumberWaits,
      approves, afresh, forgetUnconfirmed_approved, kept]

theorem sends_afresh (unknown : store.entries[fp.1]? = none) : ∃ past first between second,
      trace Machine.step (.start store) (approvedAfresh fp) =
        past ++ first :: (between ++ [second]) ∧
      Sends fp first ∧ Sends fp second := by
  have approves := issueAnswered_unknown unknown
  have afresh := @issueAnswered_unknown _ ((approvedStore store fp).removeEntry fp.1) fp
    (by simp [removeEntry])
  refine ⟨[_, _], _, [_, _, _, _], _, rfl, ?_, ?_⟩
  · cases kept : keeps .pick store.ours fp.1 <;> simp [Sends, approves, kept]
  · cases kept : keeps .pick store.ours fp.1 <;>
      simp [Sends, approves, afresh, forgetUnconfirmed_approved, kept]

end Lowercase

/-- Where the end is read and the machine approved afresh, each approval sends one half. -/
theorem one_half_for_each_approval_afresh :
    letI := asciiLowercase
    let fp : Fingerprint := ⟨machineB, machineB_valid⟩
    (∀ step ∈ trace Machine.step (.start freshStore) (approvedAfresh fp), InStep fp step) ∧
      ∃ past first between second,
        trace Machine.step (.start freshStore) (approvedAfresh fp) =
          past ++ first :: (between ++ [second]) ∧
        Sends fp first ∧ Sends fp second ∧ ∃ step ∈ between, Approves fp step := by
  let _ := asciiLowercase
  intro fp
  have inStep := @inStep_approvedAfresh _ fp freshStore rfl
  obtain ⟨past, first, between, second, split, sends, again⟩ := @sends_afresh _ fp freshStore rfl
  have formed : Formed freshStore := formed_new (new_of_valid machineA_valid 0)
  have driven : Driven freshStore := by simp [Driven, leaseAt, freshStore]
  refine ⟨inStep, past, first, between, second, split, sends, again, ?_⟩
  exact one_half_for_each_approval formed driven fp _ inStep past between [] first second split
    sends again

/-- One approval, two halves: the end of the first waits unread when the second is sent. -/
theorem half_sent_twice :
    letI := asciiLowercase
    let fp : Fingerprint := ⟨machineB, machineB_valid⟩
    ∃ past first between second,
      trace Machine.step (.start freshStore) (lostComparison fp ++ furtherComparison fp) =
        past ++ first :: (between ++ [second]) ∧
      Sends fp first ∧ Sends fp second ∧ ∀ step ∈ between, ¬ Approves fp step :=
  @sends_twice asciiLowercase _ freshStore rfl

end HopsFormal.Pairing
