import HopsFormal.Pairing.Order

/-!
# What fails leads nowhere

A comparison that one machine's person rejects, that a task gives up or whose
connection goes down never comes to be confirmed on the machine that dialled.
-/

namespace HopsFormal.Pairing

open List Trust TrustStore MatchCode Lib Net Machine

/-! ## A comparison that was refused -/

/-- The comparison told its number, did not pair, and whatever is held is over. -/
structure Talk.Refused (talk : Talk) (conn : Nat) : Prop where
  used : talk.tasks conn ≠ none
  told : (talk.phaseAt conn).arrival = none
  unpaired : talk.phaseAt conn ≠ .paired
  isOver : ∀ held, talk.slot.held = some held → held.stage = .isOver

variable {slot : Slot}

theorem stage_over (isOver : ∀ held, slot.held = some held → held.stage = .isOver) (attempt : Nat) :
    slot.stage attempt = .isOver := by
  unfold Slot.stage
  split
  · rename_i held there
    split
    · exact isOver held there
    · rfl
  · rfl

/-- While the number waits to be read, nothing went on from it. -/
def Unread (conn : Nat) (view : View) : Prop :=
  (∃ told ∈ view.queue, told.isNumber = true) →
    (view.talk.phaseAt conn).isQuiet = true ∧
      ∀ held, view.talk.slot.held = some held → held.stage = .comparing ∨ held.stage = .isOver

theorem numbers_pos {view : View} {told : Told} (member : told ∈ view.queue)
    (number : told.isNumber = true) (none_ : view.numbers = 0) : False := by
  have positive := countP_pos_iff.mpr ⟨told, member, number⟩
  simp only [View.numbers] at none_
  omega

/-- A number that waits is the only one. -/
theorem Once.unshown {conn : Nat} {view : View} (once : Once conn view) {told : Told}
    (member : told ∈ view.queue) (number : told.isNumber = true) : view.talk.ceremony = none := by
  have positive := countP_pos_iff.mpr ⟨told, member, number⟩
  have less := once.once
  cases onScreen : view.talk.ceremony with
  | none => rfl
  | some ceremony =>
    simp only [View.numbers, onScreen, Option.toList_some, length_singleton] at less
    omega

theorem held_of_answered {attempt : Nat} (stage : slot.stage attempt = .answered) :
    ∃ held, slot.held = some held ∧ held.stage = .answered := by
  unfold Slot.stage at stage
  split at stage
  · rename_i held there
    split at stage
    · exact ⟨held, there, stage⟩
    · cases stage
  · cases stage

section Works

variable {talk talk' : Talk} {conn : Nat} {role : Role} {phase : Phase} {task : TaskAct}
  {told : List Told}

/-- A task takes another phase while what is held stays over. -/
theorem Talk.Refused.set {slot : Slot} {phase' : Phase} (arrival : phase'.arrival = none)
    (unpaired : phase' ≠ .paired) (isOver : ∀ held, slot.held = some held → held.stage = .isOver) :
    (({ talk with slot }).setTask conn role phase').Refused conn := by
  refine ⟨by rw [setTask_found]; simp, ?_, ?_, isOver⟩
  · rw [setTask_phaseAt]
    exact arrival
  · rw [setTask_phaseAt]
    exact unpaired

theorem Talk.Refused.works (refused : talk.Refused conn)
    (found : talk.tasks conn = some ⟨role, phase⟩)
    (does : Works talk conn role phase task talk' told) :
    talk'.Refused conn ∧ (phase.isQuiet = true → (talk'.phaseAt conn).isQuiet = true) := by
  have here := phaseAt_of_found found
  have arrived := refused.told
  rw [here] at arrived
  have uncounted : ∀ {arrival}, phase.arrival = some arrival → False := by
    intro arrival counts
    rw [arrived] at counts
    cases counts
  have isOver := stage_over refused.isOver
  have released : ∀ attempt held, (talk.slot.release attempt).held = some held →
      held.stage = .isOver := fun _ held left => refused.isOver held (release_held left)
  cases does with
  | waits => exact ⟨refused, fun quiet => here ▸ quiet⟩
  | sends asks | leaves asks => exact (uncounted (by rw [asks]; rfl)).elim
  | slips sent | refused sent | reaches sent => exact (uncounted (by rw [sent]; rfl)).elim
  | fails counts => exact (uncounted counts).elim
  | answers holds stage | pairs confirmed stage =>
    rw [isOver] at stage
    cases stage
  | greets answered shows =>
    refine ⟨.set rfl (by simp) refused.isOver, fun quiet => ?_⟩
    rw [answered] at quiet
    cases quiet
  | hears listens =>
    refine ⟨.set rfl (by simp) refused.isOver, fun quiet => ?_⟩
    rcases listens with ⟨rfl, _⟩ | rfl
    · cases quiet
    · cases quiet
  | finishes holds | stops holds stage =>
    exact ⟨.set rfl (by simp) (released _), fun _ => by rw [setTask_phaseAt]; rfl⟩

theorem Works.tellsOnce {view : View} (does : Works view.talk conn role phase task talk told)
    (found : view.talk.tasks conn = some ⟨role, phase⟩) (before : ¬ view.talk.Untold conn) :
    ¬ talk.Untold conn ∧
      View.numbers { view with talk, queue := view.queue ++ told } ≤ view.numbers := by
  have here := phaseAt_of_found found
  have uncounted : ∀ {arrival}, phase.arrival = some arrival → False := by
    intro arrival counts
    exact before (.inr ⟨arrival, here ▸ counts⟩)
  have set : ∀ {slot phase' events}, phase'.arrival = none →
      (∀ event ∈ events, event.isNumber = false) →
      ¬ (({ view.talk with slot }).setTask conn role phase').Untold conn ∧
        View.numbers { view with
          talk := ({ view.talk with slot }).setTask conn role phase'
          queue := view.queue ++ events } ≤ view.numbers := by
    intro slot phase' events arrival silent
    refine ⟨?_, ?_⟩
    · rintro (unused | ⟨other, counts⟩)
      · rw [setTask_found] at unused
        cases unused
      · rw [setTask_phaseAt, arrival] at counts
        cases counts
    · have none_ : events.countP Told.isNumber = 0 := by
        rw [countP_eq_zero]
        intro event member
        rw [silent event member]
        simp
      simp only [View.numbers, countP_append, none_]
      exact le_rfl
  cases does with
  | waits =>
    rw [append_nil]
    exact ⟨before, le_rfl⟩
  | sends asks | leaves asks => exact (uncounted (by rw [asks]; rfl)).elim
  | slips sent | refused sent | reaches sent => exact (uncounted (by rw [sent]; rfl)).elim
  | fails counts => exact (uncounted counts).elim
  | answers holds stage | greets answered shows => exact @set view.talk.slot _ _ rfl (by simp)
  | hears listens => exact @set view.talk.slot _ _ rfl (by simp [Told.isNumber])
  | finishes holds => exact set rfl (by simp [Told.isNumber])
  | stops holds stage | pairs confirmed stage => exact set rfl (by simp)

theorem Works.unread {view : View} (once : Once conn view) (unread : Unread conn view)
    (found : view.talk.tasks conn = some ⟨role, phase⟩)
    (does : Works view.talk conn role phase task talk told) :
    Unread conn { view with talk, queue := view.queue ++ told } := by
  have here := phaseAt_of_found found
  have old : ∀ {events : List Told}, (∀ event ∈ events, event.isNumber = false) →
      (∃ event ∈ view.queue ++ events, event.isNumber = true) →
      ∃ event ∈ view.queue, event.isNumber = true := by
    rintro events silent ⟨event, member, number⟩
    rcases mem_append.mp member with before | new
    · exact ⟨event, before, number⟩
    · rw [silent event new] at number
      cases number
  have uncounted : ∀ {arrival}, phase.arrival = some arrival →
      (∃ event ∈ view.queue, event.isNumber = true) → False := by
    intro arrival counts waits
    have none_ := once.untold (.inr ⟨arrival, here ▸ counts⟩)
    exact waits.elim fun event ⟨member, number⟩ => numbers_pos member number none_
  have loud : phase.isQuiet = false → (∃ event ∈ view.queue, event.isNumber = true) → False := by
    intro loud waits
    have quiet := (unread waits).1
    rw [here, loud] at quiet
    cases quiet
  cases does with
  | waits =>
    rw [append_nil]
    exact unread
  | sends asks | leaves asks =>
    exact fun waits => (uncounted (by rw [asks]; rfl) (old (by simp) waits)).elim
  | slips sent | refused sent =>
    exact fun waits => (uncounted (by rw [sent]; rfl) (old (by simp) waits)).elim
  | fails counts =>
    exact fun waits => (uncounted counts (old (by simp [Told.isNumber]) waits)).elim
  | reaches sent free made =>
    refine fun _ => ⟨by rw [setTask_phaseAt]; rfl, fun held holds => ?_⟩
    rw [setTask_slot, dropArrival_held] at holds
    cases holds
    exact .inl rfl
  | @answers ticket number holds stage =>
    intro waits
    have waits := old (by simp) waits
    obtain ⟨held, holds', same⟩ := held_of_answered stage
    rcases (unread waits).2 held holds' with comparing | isOver
    · rw [comparing] at same
      cases same
    · rw [isOver] at same
      cases same
  | greets answered shows =>
    exact fun waits => (loud (by rw [answered]; rfl) (old (by simp) waits)).elim
  | hears listens =>
    refine fun waits => (loud ?_ (old (by simp [Told.isNumber]) waits)).elim
    rcases listens with ⟨rfl, _⟩ | rfl
    · rfl
    · rfl
  | finishes holds =>
    refine fun waits => ⟨by rw [setTask_phaseAt]; rfl, fun held left => ?_⟩
    exact (unread (old (by simp [Told.isNumber]) waits)).2 held (release_held left)
  | stops holds stage =>
    refine fun waits => ⟨by rw [setTask_phaseAt]; rfl, fun held left => ?_⟩
    exact (unread (old (by simp) waits)).2 held (release_held left)
  | pairs confirmed stage =>
    exact fun waits => (loud (by rw [confirmed]; rfl) (old (by simp) waits)).elim

end Works

theorem over_of_end {held : Held} (there : slot.end_.held = some held) : held.stage = .isOver := by
  simp only [Slot.end_, Option.map_eq_some_iff] at there
  obtain ⟨before, holds, rfl⟩ := there
  rfl

theorem over_of_advance {source target : Stage} (live : source ≠ .isOver)
    (isOver : ∀ held, slot.held = some held → held.stage = .isOver) {held : Held}
    (there : (slot.advance source target).held = some held) : held.stage = .isOver := by
  simp only [Slot.advance, Option.map_eq_some_iff] at there
  obtain ⟨before, holds, rfl⟩ := there
  have stage := isOver before holds
  split
  · rename_i same
    rw [stage] at same
    exact absurd same.symm live
  · exact stage

section Service

variable [Lowercase] {machine : Machine} {fp : Fingerprint} {conn : Nat} {act : Act} {view : View}

theorem Talk.Refused.moves (refused : (machine.talks fp).Refused conn)
    (moves : Moves machine fp act view)
    (alone : ∀ other, (machine.talks fp).tasks other ≠ none → other = conn)
    (alone' : ∀ other, view.talk.tasks other ≠ none → other = conn) :
    view.talk.Refused conn ∧ (((machine.talks fp).phaseAt conn).isQuiet = true →
      (view.talk.phaseAt conn).isQuiet = true) := by
  have staged : ∀ {talk : Talk}, talk.tasks = (machine.talks fp).tasks →
      (∀ held, talk.slot.held = some held → held.stage = .isOver) →
      talk.Refused conn ∧ (((machine.talks fp).phaseAt conn).isQuiet = true →
        (talk.phaseAt conn).isQuiet = true) := by
    intro talk tasks isOver
    rw [← phaseAt_congr tasks]
    refine ⟨⟨tasks ▸ refused.used, ?_, ?_, isOver⟩, id⟩
    · rw [phaseAt_congr tasks]
      exact refused.told
    · rw [phaseAt_congr tasks]
      exact refused.unpaired
  have taken : ∀ {other role phase slot}, (machine.talks fp).tasks other = none →
      (∀ again, (({ machine.talks fp with slot }).setTask other role phase).tasks again ≠ none →
        again = conn) → False := by
    intro other role phase slot unused only
    have here : other = conn := only other (by rw [setTask_found]; simp)
    exact refused.used (here ▸ unused)
  cases moves with
  | elsewhere grown | shown first queued event waits | ignores queued event onScreen other
  | drops queued event onScreen | expires unshown | approves named left | adjusts leased =>
    exact staged rfl refused.isOver
  | busy unused | begins asked unused free counted => exact (taken unused alone').elim
  | @works other task role phase talk told found does =>
    have here : other = conn := alone other (by rw [found]; simp)
    subst here
    have worked := refused.works found does
    rw [← phaseAt_of_found found] at worked
    exact worked
  | unshown first queued event unpaired | abandons queued event | cancels named asked
  | forgets asked => exact staged rfl fun _ => over_of_end
  | settles first queued event onScreen answered leased | picks named onScreen unanswered right =>
    exact staged rfl fun _ => over_of_advance (by decide) refused.isOver

theorem Moves.tellsOnce (moves : Moves machine fp act view)
    (told : ¬ (machine.talks fp).Untold conn)
    (alone : ∀ other, (machine.talks fp).tasks other ≠ none → other = conn)
    (alone' : ∀ other, view.talk.tasks other ≠ none → other = conn) :
    ¬ view.talk.Untold conn ∧ view.numbers ≤ (machine.view fp).numbers := by
  have staged : ∀ {talk : Talk} {queue lease attempts}, talk.tasks = (machine.talks fp).tasks →
      View.numbers ⟨lease, talk, queue, attempts⟩ ≤ (machine.view fp).numbers →
      ¬ talk.Untold conn ∧
        View.numbers ⟨lease, talk, queue, attempts⟩ ≤ (machine.view fp).numbers := by
    intro talk queue lease attempts tasks less
    refine ⟨?_, less⟩
    rw [Talk.Untold, tasks, phaseAt_congr tasks]
    exact told
  have fewer : ∀ {talk : Talk} {queue : List Told} {lease attempts},
      queue.Sublist (machine.view fp).queue →
      talk.ceremony.toList.length ≤ (machine.talks fp).ceremony.toList.length →
      View.numbers ⟨lease, talk, queue, attempts⟩ ≤ (machine.view fp).numbers :=
    fun within ceremony => Nat.add_le_add within.countP_le ceremony
  have taken : ∀ {other role phase slot}, (machine.talks fp).tasks other = none →
      (∀ again, (({ machine.talks fp with slot }).setTask other role phase).tasks again ≠ none →
        again = conn) → False := by
    intro other role phase slot unused only
    have here : other = conn := only other (by rw [setTask_found]; simp)
    exact told (.inl (here ▸ unused))
  cases moves with
  | elsewhere grown | expires unshown | approves named left | adjusts leased =>
    exact staged rfl (fewer (.refl _) le_rfl)
  | busy unused | begins asked unused free counted => exact (taken unused alone').elim
  | @works other task role phase talk events found does =>
    have here : other = conn := alone other (by rw [found]; simp)
    subst here
    exact does.tellsOnce found told
  | shown first queued event waits =>
    refine staged rfl ?_
    have number := isNumber_iff.mpr ⟨_, _, _, _, event⟩
    simp only [View.numbers, queued, countP_cons, number, if_true, Option.toList_some,
      length_singleton]
    omega
  | unshown first queued event unpaired | settles first queued event onScreen answered leased
  | abandons queued event | drops queued event onScreen =>
    exact staged rfl (fewer (tail_sublist queued) (Nat.zero_le _))
  | ignores queued event onScreen other => exact staged rfl (fewer (tail_sublist queued) le_rfl)
  | picks named onScreen unanswered right =>
    refine staged rfl (fewer (.refl _) ?_)
    rw [onScreen]
    rfl
  | cancels named asked | forgets asked => exact staged rfl (fewer (.refl _) (Nat.zero_le _))

theorem Unread.moves (once : Once conn (machine.view fp)) (unread : Unread conn (machine.view fp))
    (moves : Moves machine fp act view)
    (alone : ∀ other, (machine.talks fp).tasks other ≠ none → other = conn)
    (alone' : ∀ other, view.talk.tasks other ≠ none → other = conn) : Unread conn view := by
  have staged : ∀ {talk : Talk} {queue : List Told} {lease attempts},
      talk.tasks = (machine.talks fp).tasks → queue.Sublist (machine.view fp).queue →
      (∀ held, talk.slot.held = some held → held.stage = .isOver ∨
        (machine.talks fp).slot.held = some held) →
      Unread conn ⟨lease, talk, queue, attempts⟩ := by
    rintro talk queue lease attempts tasks within held ⟨told, member, number⟩
    obtain ⟨quiet, stages⟩ := unread ⟨told, within.subset member, number⟩
    refine ⟨?_, fun there holds => (held there holds).elim .inr (stages there)⟩
    rw [phaseAt_congr tasks]
    exact quiet
  have same : ∀ held, (machine.talks fp).slot.held = some held → held.stage = .isOver ∨
      (machine.talks fp).slot.held = some held := fun _ => .inr
  have taken : ∀ {other talk attempts}, (machine.talks fp).tasks other = none → other = conn →
      Unread conn { machine.view fp with talk, attempts } := by
    rintro other talk attempts unused rfl ⟨told, member, number⟩
    exact (@numbers_pos (machine.view fp) told member number (once.untold (.inl unused))).elim
  have shows : ∀ {talk lease attempts} {queue : List Told} {ceremony},
      (machine.talks fp).ceremony = some ceremony → queue.Sublist (machine.view fp).queue →
      Unread conn ⟨lease, talk, queue, attempts⟩ := by
    rintro talk lease attempts queue ceremony onScreen within ⟨told, member, number⟩
    have none_ := once.unshown (within.subset member) number
    change (machine.talks fp).ceremony = none at none_
    rw [onScreen] at none_
    cases none_
  cases moves with
  | elsewhere grown | expires unshown | approves named left | adjusts leased =>
    exact staged rfl (.refl _) same
  | @busy _ other role unused | @begins _ other role arriving asked unused free counted =>
    exact taken unused (alone' other (by rw [setTask_found]; simp))
  | @works other task role phase talk told found does =>
    have here : other = conn := alone other (by rw [found]; simp)
    subst here
    exact does.unread once unread found
  | @shown _ _ told rest _ _ _ _ _ first queued event waits =>
    rintro ⟨again, member, number⟩
    have less := once.once
    have positive : 0 < rest.countP Told.isNumber :=
      countP_pos_iff.mpr ⟨again, member, number⟩
    have first' := isNumber_iff.mpr ⟨_, _, _, _, event⟩
    simp only [View.numbers, queued, countP_cons, first', if_true] at less
    omega
  | unshown first queued event unpaired | abandons queued event =>
    exact staged rfl (tail_sublist queued) fun _ there => .inl (over_of_end there)
  | settles first queued event onScreen answered leased => exact shows onScreen (tail_sublist queued)
  | ignores queued event onScreen other | drops queued event onScreen =>
    exact staged rfl (tail_sublist queued) same
  | picks named onScreen unanswered right => exact shows onScreen (.refl _)
  | cancels named asked | forgets asked =>
    exact staged rfl (.refl _) fun _ there => .inl (over_of_end there)

/-- A connection that has a task keeps one. -/
theorem Moves.uses (moves : Moves machine fp act view)
    (used : (machine.talks fp).tasks conn ≠ none) : view.talk.tasks conn ≠ none := by
  have takes : ∀ {other role phase slot}, (machine.talks fp).tasks other = none →
      (({ machine.talks fp with slot }).setTask other role phase).tasks conn ≠ none := by
    intro other role phase slot unused
    have different : conn ≠ other := by
      rintro rfl
      exact used unused
    rw [setTask_elsewhere _ different]
    exact used
  cases moves with
  | busy unused | begins asked unused free counted => exact takes unused
  | works found does =>
    rw [← Option.isSome_iff_ne_none] at used ⊢
    rw [works_tasks found does]
    exact used
  | _ => exact used

theorem rejected_ends (waits : machine.store.waiting fp.1 = some false)
    (rejects : PicksWrong fp (machine, act) ∨ Cancels fp (machine, act) ∨
      Removes fp (machine, act)) : ((machine.step act).view fp).queue = (machine.view fp).queue ∧
      ((machine.step act).talks fp).tasks = (machine.talks fp).tasks ∧
      ((machine.step act).talks fp).ceremony = none ∧
      ((machine.step act).talks fp).slot = (machine.talks fp).slot.end_ := by
  rcases rejects with ⟨spelled, number, ceremony, rfl, named, onScreen, unanswered, wrong⟩ |
    ⟨spelled, rfl, named⟩ | (⟨spelled, rfl, named⟩ | rfl)
  · have dealt : (machine.desk fp).answerPairing fp number =
        (machine.desk fp).endCeremony.forgetPairing fp := by
      simp only [Desk.answerPairing, desk]
      rw [onScreen]
      simp [unanswered, wrong]
    simp only [Machine.step, Machine.request, named, dealt, view_atDesk]
    simp [atDesk, Desk.forgetPairing, Desk.endCeremony, desk]
  · simp only [Machine.step, Machine.request, named, view_atDesk]
    simp [atDesk, Desk.cancelPairing, Desk.forgetPairing, Desk.endCeremony, desk]
  · simp only [Machine.step, Machine.request, named, view_atDesk]
    simp [atDesk, Desk.forgetMachine, Desk.endCeremony, desk]
  · have known : (machine.desk fp).store.entries.contains (key fp.1) = true := by
      by_contra unknown
      simp only [desk, key_of_valid fp.2, Bool.not_eq_true] at unknown
      have unleased : machine.store.leaseAt fp.1 = none := by
        simp [leaseAt, Std.ExtTreeMap.getElem?_eq_none_of_contains_eq_false unknown]
      rw [waiting_none.mpr unleased] at waits
      cases waits
    simp only [Machine.step, Desk.removedBy, known, if_true, view_atDesk]
    simp [atDesk, Desk.forgetMachine, Desk.endCeremony, desk]

end Service

/-! ## What fails, and what is lost by it -/

/-- The dialler has no confirmation waiting to be read. -/
def Net.Unheard (pair : Pair) (conn : Nat) (net : Net) : Prop :=
  ∀ told ∈ ((net.machine (pair.dialler conn)).view (pair.peer (pair.dialler conn))).queue,
    told.event ≠ .peerConfirmed

/-- The comparison can no longer be confirmed on the machine that dialled. -/
inductive Net.Lost (pair : Pair) (conn : Nat) (net : Net) : Prop where
  | down (down : (net.line conn).up = false) (frames : (net.line conn).framesBack = [])
      (unheard : net.Unheard pair conn)
  | stopped (refused : (net.talk pair (pair.dialler conn)).Refused conn)
      (quiet : (net.phase pair (pair.dialler conn) conn).isQuiet = true)
      (unheard : net.Unheard pair conn)
  | withdrawn (told : ¬ (net.talk pair (pair.dialler conn)).Untold conn)
      (off : ((net.machine (pair.dialler conn)).view (pair.peer (pair.dialler conn))).numbers = 0)
  | refused (refused : (net.talk pair (pair.dialler conn).other).Refused conn)
      (frames : (net.line conn).framesBack = []) (unheard : net.Unheard pair conn)

/-- The person of `side` rejects the other machine while the comparison is held or on screen. -/
def Rejects [Lowercase] (pair : Pair) (side : Side) (step : Net × NetAct) : Prop :=
  ∃ does, step.2 = .machine side does ∧
    (PicksWrong (pair.peer side) (step.1.machine side, does) ∨
      Cancels (pair.peer side) (step.1.machine side, does) ∨
      Removes (pair.peer side) (step.1.machine side, does)) ∧
    (step.1.machine side).store.waiting (pair.peer side).1 = some false ∧
    ((step.1.talk pair side).slot.held ≠ none ∨ (step.1.talk pair side).ceremony ≠ none)

theorem side_cases (pair : Pair) (conn : Nat) (side : Side) :
    side = pair.dialler conn ∨ side = (pair.dialler conn).other := by
  cases side <;> cases pair.dialler conn <;> simp [Side.other]

section Fails

variable [Sha256] [Lowercase]

/-- The task of `side` ends without having paired, on the dialler without having read the answer. -/
def GivesUp (pair : Pair) (conn : Nat) (side : Side) (step : Net × NetAct) : Prop :=
  step.1.phase pair side conn ≠ .isOver ∧ (step.1.step pair step.2).phase pair side conn = .isOver ∧
    (side = pair.dialler conn → (step.1.phase pair side conn).isHeard = false)

/-- The connection goes down before the dialler read the answer. -/
def Cuts (pair : Pair) (conn : Nat) (step : Net × NetAct) : Prop :=
  step.2 = .cut conn ∧ ¬ (step.1.talk pair (pair.dialler conn)).Heard conn

def Fails (pair : Pair) (conn : Nat) (step : Net × NetAct) : Prop :=
  (∃ side, Rejects pair side step) ∨ (∃ side, GivesUp pair conn side step) ∨ Cuts pair conn step

/-- What holds wherever a run over one connection stands, the numbers that wait included. -/
structure Watched (pair : Pair) (conn : Nat) (past : List (Net × NetAct)) (net : Net) : Prop where
  compared : Compared pair conn past net
  unread : ∀ side, Unread conn ((net.machine side).view (pair.peer side))

variable {pair : Pair} {net : Net} {conn : Nat} {past : List (Net × NetAct)} {act : NetAct}

theorem Watched.step (watched : Watched pair conn past net) (isOver : act.Over pair conn) :
    Watched pair conn (past ++ [(net, act)]) (net.step pair act) := by
  refine ⟨watched.compared.step isOver, fun side => ?_⟩
  have alone := watched.compared.step_alone isOver side
  exact watched.compared.step_view act side (P := Unread conn) (watched.unread side)
    fun does moves => (watched.unread side).moves (watched.compared.once side) moves
      (watched.compared.alone side) alone

/-- No confirmation comes to wait while none is on its way, or the task stopped. -/
theorem Compared.step_unheard (compared : Compared pair conn past net)
    (unheard : net.Unheard pair conn)
    (deaf : (net.line conn).framesBack = [] ∨
      (net.phase pair (pair.dialler conn) conn).isQuiet = true) :
    (net.step pair act).Unheard pair conn := by
  intro told member event
  rcases compared.step_confirms member event with before | ⟨frames, loud, _⟩
  · exact unheard told before event
  · rcases deaf with none_ | quiet
    · exact frames none_
    · rw [loud] at quiet
      cases quiet

theorem Compared.step_refused (compared : Compared pair conn past net)
    (isOver : act.Over pair conn) {side : Side} (refused : (net.talk pair side).Refused conn) :
    ((net.step pair act).talk pair side).Refused conn ∧
      ((net.phase pair side conn).isQuiet = true →
        ((net.step pair act).phase pair side conn).isQuiet = true) := by
  have alone := compared.step_alone isOver side
  exact compared.step_view act side (P := fun view => view.talk.Refused conn ∧
    ((net.phase pair side conn).isQuiet = true → (view.talk.phaseAt conn).isQuiet = true))
    ⟨refused, id⟩ fun does moves => refused.moves moves (compared.alone side) alone

/-- No frame comes back while the added machine did not pair. -/
theorem step_silent (frames : (net.line conn).framesBack = [])
    (mute : net.phase pair (pair.dialler conn).other conn ≠ .paired ∨ (net.line conn).up = false) :
    ((net.step pair act).line conn).framesBack = [] := by
  rcases @step_framesBack _ pair net _ act conn with within | ⟨paired, up⟩
  · rw [frames] at within
    exact sublist_nil.mp within
  · rcases mute with unpaired | down
    · exact absurd paired unpaired
    · rw [down] at up
      cases up

theorem Net.Lost.step (compared : Compared pair conn past net) (isOver : act.Over pair conn)
    (lost : net.Lost pair conn) : (net.step pair act).Lost pair conn := by
  cases lost with
  | down down frames unheard =>
    exact .down (step_down down) (step_silent frames (.inr down))
      (compared.step_unheard unheard (.inl frames))
  | stopped refused quiet unheard =>
    obtain ⟨refused', quiet'⟩ := compared.step_refused isOver refused
    exact .stopped refused' (quiet' quiet) (compared.step_unheard unheard (.inr quiet))
  | withdrawn told off =>
    have alone := compared.step_alone isOver (pair.dialler conn)
    obtain ⟨told', off'⟩ := compared.step_view act (pair.dialler conn)
      (P := fun view => ¬ view.talk.Untold conn ∧ view.numbers = 0) ⟨told, off⟩ fun does moves => by
        obtain ⟨told', less⟩ := moves.tellsOnce told (compared.alone _) alone
        exact ⟨told', by omega⟩
    exact .withdrawn told' off'
  | refused refused frames unheard =>
    exact .refused (compared.step_refused isOver refused).1
      (step_silent frames (.inl refused.unpaired))
      (compared.step_unheard unheard (.inl frames))

section

variable (compared : Compared pair conn past net)
include compared

theorem Compared.held {side : Side} {held : Held}
    (holds : (net.talk pair side).slot.held = some held) :
    ∃ ticket, (net.phase pair side conn).ticket = some ticket := by
  obtain ⟨ticket, there, _⟩ := (compared.fits.linked.kept side).holds.held holds
  have used : (net.talk pair side).tasks held.conn ≠ none := by
    intro unused
    rw [phaseAt_of_unused unused] at there
    cases there
  rw [compared.alone side held.conn used] at there
  exact ⟨ticket, there⟩

theorem Compared.told {side : Side}
    (under : (net.talk pair side).slot.held ≠ none ∨ (net.talk pair side).ceremony ≠ none) :
    ¬ (net.talk pair side).Untold conn ∧ net.phase pair side conn ≠ .paired := by
  rcases under with holds | onScreen
  · obtain ⟨held, holds⟩ := Option.ne_none_iff_exists'.mp holds
    obtain ⟨ticket, there⟩ := compared.held holds
    refine ⟨?_, fun paired => ?_⟩
    · rintro (unused | ⟨arrival, counts⟩)
      · rw [phase, phaseAt_of_unused unused] at there
        cases there
      · rw [phase, ticket_of_arrival counts] at there
        cases there
    · rw [paired] at there
      cases there
  · obtain ⟨ceremony, onScreen⟩ := Option.ne_none_iff_exists'.mp onScreen
    have some_ : ((net.machine side).view (pair.peer side)).numbers ≠ 0 := by
      simp only [View.numbers, view]
      rw [talk] at onScreen
      rw [onScreen]
      simp
    exact ⟨fun untold => some_ ((compared.once side).untold untold),
      fun paired => some_ ((compared.once side).done (.inl paired))⟩

/-- Nothing is on its way from a machine that did not pair. -/
theorem Compared.step_unpassed (act : NetAct)
    (unpaired : net.phase pair (pair.dialler conn).other conn ≠ .paired) :
    ((net.step pair act).line conn).framesBack = [] ∧ (net.step pair act).Unheard pair conn := by
  refine ⟨?_, fun told member event => ?_⟩
  · by_contra frames
    exact unpaired (compared.step_passed act (.inl frames))
  · exact unpaired (compared.step_passed act (.inr ⟨told, member, event⟩))

end

section

variable (watched : Watched pair conn past net)
include watched

theorem Watched.rejects {side : Side} (rejects : Rejects pair side (net, act)) :
    (net.step pair act).Lost pair conn := by
  obtain ⟨does, rfl, rejected, waits, under⟩ := rejects
  have compared := watched.compared
  obtain ⟨told, unpaired⟩ := compared.told under
  have stepped : (net.step pair (.machine side does)).machine side =
      (net.machine side).step does := by
    have allowed : net.allows pair side does = true := by
      rcases rejected with ⟨_, _, _, rfl, _⟩ | ⟨_, rfl, _⟩ | ⟨_, rfl, _⟩ | rfl <;> rfl
    simp [Net.step, allowed, Net.perform]
  obtain ⟨queue, tasks, off, slot⟩ := rejected_ends waits rejected
  have phases : ((net.step pair (.machine side does)).phase pair side conn) =
      net.phase pair side conn := by
    rw [phase, talk, stepped]
    exact phaseAt_congr tasks conn
  have refused : ((net.step pair (.machine side does)).talk pair side).Refused conn := by
    refine ⟨?_, ?_, ?_, fun held there => ?_⟩
    · rw [talk, stepped, tasks]
      exact fun unused => told (.inl unused)
    · change ((net.step pair (.machine side does)).phase pair side conn).arrival = none
      rw [phases]
      by_contra counts
      obtain ⟨arrival, counts⟩ := Option.ne_none_iff_exists'.mp counts
      exact told (.inr ⟨arrival, counts⟩)
    · change (net.step pair (.machine side does)).phase pair side conn ≠ .paired
      rw [phases]
      exact unpaired
    · rw [talk, stepped, slot] at there
      exact over_of_end there
  rcases side_cases pair conn side with rfl | rfl
  · have numbers : (((net.step pair (.machine (pair.dialler conn) does)).machine
        (pair.dialler conn)).view (pair.peer (pair.dialler conn))).numbers =
          ((net.machine (pair.dialler conn)).view (pair.peer (pair.dialler conn))).queue.countP
            Told.isNumber := by
      rw [stepped, View.numbers, queue]
      change _ + (((net.machine (pair.dialler conn)).step does).talks
        (pair.peer (pair.dialler conn))).ceremony.toList.length = _
      rw [off]
      rfl
    by_cases waiting : ∃ told ∈ ((net.machine (pair.dialler conn)).view
        (pair.peer (pair.dialler conn))).queue, told.isNumber = true
    · have quiet := (watched.unread (pair.dialler conn) waiting).1
      obtain ⟨number, member, isNumber⟩ := waiting
      have unshown := (compared.once (pair.dialler conn)).unshown member isNumber
      have holds : (net.talk pair (pair.dialler conn)).slot.held ≠ none :=
        under.resolve_right fun onScreen => onScreen unshown
      obtain ⟨held, holds⟩ := Option.ne_none_iff_exists'.mp holds
      obtain ⟨ticket, there⟩ := compared.held holds
      refine .stopped refused (phases ▸ quiet) fun told member event => ?_
      rw [stepped, queue] at member
      have heard := ((compared.once (pair.dialler conn)).heard told member event).2
      change (net.phase pair (pair.dialler conn) conn).isHeard = true at heard
      change (net.phase pair (pair.dialler conn) conn).isQuiet = true at quiet
      cases phase : net.phase pair (pair.dialler conn) conn with
      | holding ticket number =>
        rw [phase] at heard
        cases heard
      | isOver =>
        rw [phase] at there
        cases there
      | _ =>
        rw [phase] at quiet
        cases quiet
    · refine .withdrawn ?_ ?_
      · rintro (unused | ⟨arrival, counts⟩)
        · exact refused.used unused
        · rw [refused.told] at counts
          cases counts
      · rw [numbers, countP_eq_zero]
        intro told member isNumber
        exact waiting ⟨told, member, isNumber⟩
  · obtain ⟨frames, unheard⟩ := compared.step_unpassed (.machine _ does) unpaired
    exact .refused refused frames unheard

theorem Watched.givesUp (isOver : act.Over pair conn) {side : Side}
    (gives : GivesUp pair conn side (net, act)) : (net.step pair act).Lost pair conn := by
  obtain ⟨live, ended, unread⟩ := gives
  have compared := watched.compared
  have next := watched.step isOver
  have used : ((net.step pair act).talk pair side).tasks conn ≠ none := by
    have before : (net.talk pair side).tasks conn ≠ none := by
      intro unused
      exact live (phaseAt_of_unused unused)
    exact compared.step_view act side (P := fun view => view.talk.tasks conn ≠ none) before
      fun does moves => moves.uses before
  have refused : ((net.step pair act).talk pair side).Refused conn := by
    have phase : ((net.step pair act).talk pair side).phaseAt conn = .isOver := ended
    refine ⟨used, by rw [phase]; rfl, by rw [phase]; simp, fun held holds => ?_⟩
    obtain ⟨ticket, there⟩ := next.compared.held holds
    rw [ended] at there
    cases there
  rcases side_cases pair conn side with rfl | rfl
  · refine .stopped refused (by rw [ended]; rfl) fun told member event => ?_
    have unheard : ∀ told ∈ ((net.machine (pair.dialler conn)).view
        (pair.peer (pair.dialler conn))).queue, told.event ≠ .peerConfirmed := by
      intro told member event
      have heard := ((compared.once (pair.dialler conn)).heard told member event).2
      change (net.phase pair (pair.dialler conn) conn).isHeard = true at heard
      rw [unread rfl] at heard
      cases heard
    rcases compared.step_confirms member event with before | ⟨_, _, ticket, number, confirmed⟩
    · exact unheard told before event
    · exact absurd (confirmed.symm.trans ended) (by simp)
  · have unpaired : net.phase pair (pair.dialler conn).other conn ≠ .paired := by
      intro paired
      rw [compared.step_paired paired] at ended
      cases ended
    obtain ⟨frames, unheard⟩ := compared.step_unpassed act unpaired
    exact .refused refused frames unheard

theorem Watched.fails (isOver : act.Over pair conn) (fails : Fails pair conn (net, act)) :
    (net.step pair act).Lost pair conn := by
  rcases fails with ⟨side, rejects⟩ | ⟨side, gives⟩ | ⟨rfl, unheard⟩
  · exact watched.rejects rejects
  · exact watched.givesUp isOver gives
  · refine .down (by simp [Net.step, Line.cut]) (by simp [Net.step, Line.cut]) ?_
    intro told member event
    exact unheard ((watched.compared.once (pair.dialler conn)).heard told member event)

end

theorem Watched.start {stores : Side → TrustStore} (formed : ∀ side, Formed (stores side))
    (driven : ∀ side, Driven (stores side))
    (settled : ∀ side, (stores side).waiting (pair.peer side).1 ≠ some false) :
    Watched pair conn [] (.start stores) :=
  ⟨.start formed driven settled conn, fun _ ⟨_, member, _⟩ => by cases member⟩

theorem watched_run {stores : Side → TrustStore} (formed : ∀ side, Formed (stores side))
    (driven : ∀ side, Driven (stores side))
    (settled : ∀ side, (stores side).waiting (pair.peer side).1 ≠ some false)
    {acts : List NetAct} (isOver : ∀ act ∈ acts, act.Over pair conn)
    {later : List (Net × NetAct)} {step : Net × NetAct}
    (split : trace (Net.step pair) (.start stores) acts = past ++ step :: later) :
    Watched pair conn past step.1 ∧
      ∀ failed ∈ past, Fails pair conn failed → step.1.Lost pair conn := by
  refine @trace_inv _ _ (Net.step pair) acts past later (fun taken => taken.2.Over pair conn)
    (fun past net => Watched pair conn past net ∧
      ∀ failed ∈ past, Fails pair conn failed → net.Lost pair conn) ?_ [] _
    ⟨.start formed driven settled, by simp⟩ ?_ step split
  · rintro past net act ⟨watched, lost⟩ isOver
    refine ⟨watched.step isOver, fun failed member fails => ?_⟩
    rcases mem_append.mp member with old | new
    · exact (lost failed old fails).step watched.compared isOver
    · rw [mem_singleton.mp new] at fails
      exact watched.fails isOver fails
  · exact fun taken member => isOver taken.2 (mem_trace _ member)

/--
In every run over one connection, the machine that dialled records the pairing
as confirmed only after the other machine's person picked the same number there
and its store was told to confirm; and never after anything failed on either
side before.
-/
theorem added_confirms_first (pair : Pair) {stores : Side → TrustStore}
    (formed : ∀ side, Formed (stores side)) (driven : ∀ side, Driven (stores side))
    (settled : ∀ side, (stores side).waiting (pair.peer side).1 ≠ some false) (conn : Nat)
    (acts : List NetAct) (isOver : ∀ act ∈ acts, act.Over pair conn)
    (past later : List (Net × NetAct)) (step : Net × NetAct)
    (split : trace (Net.step pair) (.start stores) acts = past ++ step :: later)
    (before : (step.1.machine (pair.dialler conn)).store.waiting
      (pair.peer (pair.dialler conn)).1 ≠ some true)
    (after : ((step.1.step pair step.2).machine (pair.dialler conn)).store.waiting
      (pair.peer (pair.dialler conn)).1 = some true) :
    (∃ shown, Settles pair (pair.dialler conn) shown step ∧
      AddedFirst pair conn past shown.2) ∧ ∀ failed ∈ past, ¬ Fails pair conn failed := by
  obtain ⟨net, act⟩ := step
  obtain ⟨watched, lost⟩ := watched_run formed driven settled isOver split
  dsimp only at watched lost before after
  have compared := watched.compared
  have agreed := compared.agreed (pair.dialler conn)
  rcases @step_machine _ pair net _ act (pair.dialler conn) with
    ⟨_, same⟩ | ⟨does, rfl, _, _, _, stepped⟩
  · rw [same] at after
    exact absurd after before
  · have moves := agreed.sound.step_moves does (pair.peer (pair.dialler conn))
    rw [stepped] at after
    obtain ⟨reading, randomness, told, ceremony, rfl, first, event, onScreen, answered⟩ :=
      moves.settled before after
    obtain ⟨rest, queue⟩ := List.head?_eq_some_iff.mp first
    have queued : ((net.machine (pair.dialler conn)).view (pair.peer (pair.dialler conn))).queue =
        told :: about (pair.peer (pair.dialler conn)) rest := by
      simp only [view, queue, about_cons]
    have member : told ∈
        ((net.machine (pair.dialler conn)).view (pair.peer (pair.dialler conn))).queue := by
      rw [queued]
      exact mem_cons_self
    refine ⟨⟨ceremony.shows, ⟨reading, randomness, told, ceremony, rfl, first, event, onScreen,
      answered, rfl, by rw [stepped]; exact after⟩, ?_⟩, fun failed failedBefore fails => ?_⟩
    · obtain ⟨other, theirs, addedFirst⟩ :=
        compared.first (.inl (compared.passed (.inr ⟨told, member, event⟩)))
      have agree : ceremony.number = other :=
        compared.fits.linked.numbers_agree (compared.shown onScreen queued event) theirs
      rw [Ceremony.shows, agree]
      exact addedFirst
    · cases lost failed failedBefore fails with
      | down down frames unheard | stopped refused quiet unheard | refused refused frames unheard =>
        exact unheard told member event
      | withdrawn untold off =>
        simp only [View.numbers] at off
        change _ + ((net.machine (pair.dialler conn)).talks
          (pair.peer (pair.dialler conn))).ceremony.toList.length = 0 at off
        rw [onScreen] at off
        simp at off

end Fails

/-- Both people pick the number, and the machine that dialled confirms after the other. -/
theorem added_confirms_first_once :
    letI := asciiLowercase
    letI := standardSha256
    let number := code (twoMachines.exporter 0) (twoMachines.name .left).1
      (twoMachines.name .right).1 (List.replicate 32 1) (List.replicate 32 2)
    ∃ past step shown,
      trace (Net.step twoMachines) (.start fun side => emptyStore (twoMachines.name side))
        (bothHold twoMachines (List.replicate 32 1) (List.replicate 32 2) ++
          bothConfirm twoMachines number ++ [.machine .left (.dequeue 0 true)]) = past ++ [step] ∧
      Settles twoMachines .left shown step ∧ AddedFirst twoMachines 0 past shown.2 ∧
      ∀ failed ∈ past, ¬ Fails twoMachines 0 failed := by
  intro number
  have unknown : ∀ side, (emptyStore (twoMachines.name side)).entries[(twoMachines.peer side).1]? =
      none := by
    intro side
    simp [emptyStore]
  have settled : ∀ side, (emptyStore (twoMachines.name side)).waiting (twoMachines.peer side).1 ≠
      some false := by
    intro side
    simp [waiting, leaseAt, emptyStore]
  have isOver : ∀ act ∈ @bothHold standardSha256 twoMachines (List.replicate 32 1)
      (List.replicate 32 2) ++ bothConfirm twoMachines number ++
        [.machine .left (.dequeue 0 true)], act.Over twoMachines 0 := by
    simp [bothHold, bothConfirm, NetAct.Over]
  obtain ⟨past, step, split, before, after⟩ := @bothConfirm_settles asciiLowercase standardSha256
    twoMachines (fun side => emptyStore (twoMachines.name side)) rfl unknown (List.replicate 32 1)
    (List.replicate 32 2) number rfl
  obtain ⟨⟨shown, settles, first⟩, clean⟩ := @added_confirms_first standardSha256 asciiLowercase
    twoMachines (fun side => emptyStore (twoMachines.name side))
    (fun side => @formed_empty asciiLowercase (twoMachines.name side))
    (fun side => driven_empty (twoMachines.name side)) settled 0 _ isOver past [] step split
    (by change (step.1.machine .left).store.waiting (twoMachines.peer .left).1 ≠ some true
        rw [before]; decide) after
  exact ⟨past, step, shown, split, settles, first, clean⟩

end HopsFormal.Pairing
