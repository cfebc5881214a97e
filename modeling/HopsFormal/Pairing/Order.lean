import HopsFormal.Pairing.Agreement

/-!
# The added machine confirms first

One comparison over one connection: whatever either machine, its person or the
connection does, the machine that dialled records the pairing as confirmed only
after the other did, and nothing that fails on the way leads there.
-/

namespace HopsFormal.Pairing

open Function List Trust TrustStore MatchCode Lib Net

/-! ## Connections taken up -/

theorem atDesk_tasks {machine next : Machine} {fp : Fingerprint} {desk : Desk}
    (talks : next.talks = machine.talks)
    (tasks : desk.talk.tasks = (machine.talks fp).tasks) (other : Fingerprint) :
    ((next.atDesk fp desk).talks other).tasks = (machine.talks other).tasks := by
  by_cases same : other = fp
  · subst same
    simpa [Machine.atDesk] using tasks
  · simp [Machine.atDesk, same, talks]

variable {conn : Nat}

theorem arrive_tasks {machine : Machine} {fp other : Fingerprint} {conn' : Nat} {role : Role}
    (used : ((machine.arrive fp conn role).talks other).tasks conn' ≠ none) :
    (machine.talks other).tasks conn' ≠ none ∨ fp = other ∧ conn = conn' := by
  by_cases same : other = fp
  · subst same
    by_cases here : conn' = conn
    · exact .inr ⟨rfl, here.symm⟩
    · refine .inl ?_
      simp only [Machine.arrive, update_self, Talk.begin_] at used
      split at used
      · exact used
      · split at used
        · rwa [setTask_elsewhere _ here] at used
        · rwa [setTask_elsewhere _ here] at used
  · simp only [Machine.arrive, update_of_ne same] at used
    exact .inl used

section Tasks

variable [Lowercase]

theorem handle_tasks (desk : Desk) (fp : Fingerprint) (reading : Nat) (randomness : Bool)
    (event : PairingEvent) : (desk.handle fp reading randomness event).talk.tasks =
      desk.talk.tasks := by
  cases event with
  | number role number attempt theirs =>
    simp only [Desk.handle, Desk.showPairingNumber]
    split
    · rfl
    · split <;> rfl
  | peerConfirmed =>
    simp only [Desk.handle, Desk.settlePairing]
    split
    · rfl
    · split <;> rfl
  | ended why attempt =>
    simp only [Desk.handle, Desk.pairingEnded]
    split <;> rfl

theorem answerPairing_tasks (desk : Desk) (fp : Fingerprint) (number : String) :
    (desk.answerPairing fp number).talk.tasks = desk.talk.tasks := by
  unfold Desk.answerPairing
  split
  · rfl
  · split
    · rfl
    · split
      · rfl
      · split <;> rfl

theorem addAuthorizedKey_tasks (desk : Desk) (fp : Fingerprint) (reading : Nat) (label : String)
    (controller : Controller) (clipboard prompted : Bool) :
    (desk.addAuthorizedKey fp reading label controller clipboard prompted).talk.tasks =
      desk.talk.tasks := by
  unfold Desk.addAuthorizedKey
  split
  · rfl
  · split
    · rfl
    · dsimp only
      split <;> rfl

theorem request_tasks {machine : Machine} (spelled : String) {deal : Desk → Fingerprint → Desk}
    (tasks : ∀ fp, (deal (machine.desk fp) fp).talk.tasks = (machine.talks fp).tasks)
    (other : Fingerprint) :
    ((machine.request spelled deal).talks other).tasks = (machine.talks other).tasks := by
  unfold Machine.request
  split
  · rfl
  · exact atDesk_tasks rfl (tasks _) other

theorem step_tasks {machine : Machine} {act : Act} {fp : Fingerprint} {conn : Nat}
    (used : ((machine.step act).talks fp).tasks conn ≠ none) :
    (machine.talks fp).tasks conn ≠ none ∨ (∃ reading, act = .accept fp conn reading) ∨
      act = .dial fp conn := by
  have same : ((machine.step act).talks fp).tasks = (machine.talks fp).tasks →
      (machine.talks fp).tasks conn ≠ none ∨ (∃ reading, act = .accept fp conn reading) ∨
        act = .dial fp conn := by
    intro tasks
    rw [tasks] at used
    exact .inl used
  cases act with
  | accept other conn' reading =>
    simp only [Machine.step] at used
    split at used
    · rcases arrive_tasks used with before | ⟨rfl, rfl⟩
      · exact .inl before
      · exact .inr (.inl ⟨reading, rfl⟩)
    · exact .inl used
  | dial other conn' =>
    rcases arrive_tasks used with before | ⟨rfl, rfl⟩
    · exact .inl before
    · exact .inr (.inr rfl)
  | task other conn' task =>
    by_cases here : fp = other
    · subst here
      rw [step_task_talk] at used
      cases found : (machine.talks fp).tasks conn' with
      | none =>
        simp only [Talk.act, found] at used
        exact .inl used
      | some there =>
        have kept := works_tasks found (act_works found task) conn
        rw [← Option.isSome_iff_ne_none] at used ⊢
        exact .inl (kept ▸ used)
    · refine same ?_
      simp [Machine.step, here]
  | dequeue reading randomness =>
    cases queue : machine.queue with
    | nil => exact same (by simp [Machine.step, queue])
    | cons entry rest =>
      simp only [Machine.step, queue] at same used
      exact same (atDesk_tasks rfl (handle_tasks _ _ _ _ _) fp)
  | approve spelled reading label controller clipboard prompted =>
    exact same (request_tasks spelled (fun fp => addAuthorizedKey_tasks _ fp _ _ _ _ _) fp)
  | confirmPairing spelled number =>
    exact same (request_tasks spelled (fun fp => answerPairing_tasks _ fp number) fp)
  | cancelPairing spelled | remove spelled => exact same (request_tasks spelled (fun fp => rfl) fp)
  | removedBy other =>
    refine same (atDesk_tasks rfl ?_ fp)
    unfold Desk.removedBy
    split <;> rfl
  | forgetUnstarted other =>
    refine same (atDesk_tasks rfl ?_ fp)
    unfold Desk.forgetUnstarted
    split <;> rfl
  | _ => exact same rfl

end Tasks

/-! ## One number, told once -/

def Told.isNumber (told : Told) : Bool :=
  match told.event with
  | .number .. => true
  | _ => false

/-- The numbers on screen or on their way there. -/
@[grind =]
def View.numbers (view : View) : Nat :=
  view.queue.countP Told.isNumber + view.talk.ceremony.toList.length

/-- The comparison on `conn` has not told its number. -/
def Talk.Untold (talk : Talk) (conn : Nat) : Prop :=
  talk.tasks conn = none ∨ ∃ arrival, (talk.phaseAt conn).arrival = some arrival

/-- A task that is over, or that read the other machine's confirmation. -/
def Phase.isHeard : Phase → Bool
  | .confirmed .. | .paired | .isOver => true
  | _ => false

/-- A task that waits for an answer here, or is over. -/
def Phase.isQuiet : Phase → Bool
  | .holding .. | .isOver => true
  | _ => false

def Talk.Heard (talk : Talk) (conn : Nat) : Prop :=
  talk.tasks conn ≠ none ∧ (talk.phaseAt conn).isHeard = true

/-- The pairing is settled here. -/
def Talk.Done (talk : Talk) (conn : Nat) : Prop :=
  talk.phaseAt conn = .paired ∨ ∃ held, talk.slot.held = some held ∧ held.stage = .settled

/-- With one connection only one number is ever told, and it is read at most once. -/
structure Once (conn : Nat) (view : View) : Prop where
  once : view.numbers ≤ 1
  untold : view.talk.Untold conn → view.numbers = 0
  heard : ∀ told ∈ view.queue, told.event = .peerConfirmed → view.talk.Heard conn
  done : view.talk.Done conn → view.numbers = 0

theorem Once.fresh (conn : Nat) (lease : Option Bool) (attempts : Nat) :
    Once conn ⟨lease, {}, [], attempts⟩ where
  once := Nat.zero_le 1
  untold _ := rfl
  heard _ member := by cases member
  done _ := rfl

theorem isNumber_iff {told : Told} :
    told.isNumber = true ↔
      ∃ role number attempt theirs, told.event = .number role number attempt theirs := by
  unfold Told.isNumber
  cases told.event with
  | number role number attempt theirs | _ => simp

/-- A step that tells and shows no number, and settles nothing, keeps it. -/
theorem Once.of_less {view view' : View} (once : Once conn view)
    (less : view'.numbers ≤ view.numbers)
    (untold : view'.talk.Untold conn → view.talk.Untold conn ∨ view.numbers = 0)
    (heard : ∀ told ∈ view'.queue, told.event = .peerConfirmed →
      view'.talk.Heard conn ∨ told ∈ view.queue ∧ (view.talk.Heard conn → view'.talk.Heard conn))
    (done : view'.talk.Done conn → view.talk.Done conn ∨ view'.numbers = 0) : Once conn view' where
  once := less.trans once.once
  untold still := by
    rcases untold still with before | none_
    · have none_ := once.untold before
      omega
    · omega
  heard told member event := by
    rcases heard told member event with now | ⟨before, stays⟩
    · exact now
    · exact stays (once.heard told before event)
  done settled := by
    rcases done settled with before | none_
    · have none_ := once.done before
      omega
    · exact none_

/-- A task takes another phase and tells no number. -/
theorem Once.set {view : View} {conn : Nat} {role : Role} {phase phase' : Phase}
    {told : List Told} (once : Once conn view) (slot : Slot)
    (found : view.talk.tasks conn = some ⟨role, phase⟩)
    (silent : ∀ event ∈ told, event.isNumber = false)
    (counted : ∀ arrival, phase'.arrival = some arrival → ∃ before, phase.arrival = some before)
    (heard : phase'.isHeard = true ∨
      phase.isHeard = false ∧ ∀ event ∈ told, event.event ≠ .peerConfirmed)
    (done : (phase' = .paired ∨ ∃ held, slot.held = some held ∧ held.stage = .settled) →
      ∃ held, view.talk.slot.held = some held ∧ held.stage = .settled) :
    Once conn { view with
      talk := ({ view.talk with slot }).setTask conn role phase'
      queue := view.queue ++ told } := by
  have here := phaseAt_of_found found
  have tasks : (({ view.talk with slot }).setTask conn role phase').tasks conn ≠ none := by
    rw [setTask_found]
    simp
  have numbers : View.numbers { view with
      talk := ({ view.talk with slot }).setTask conn role phase'
      queue := view.queue ++ told } = view.numbers := by
    have none_ : told.countP Told.isNumber = 0 := by
      rw [countP_eq_zero]
      intro event member
      rw [silent event member]
      simp
    simp only [View.numbers, countP_append, none_]
    rfl
  refine once.of_less numbers.le ?_ ?_ ?_
  · rintro (unused | ⟨arrival, counts⟩)
    · exact absurd unused tasks
    · rw [setTask_phaseAt] at counts
      obtain ⟨before, counts⟩ := counted arrival counts
      exact .inl (.inr ⟨before, here ▸ counts⟩)
  · intro event member confirms
    rcases heard with now | ⟨unheard, none_⟩
    · refine .inl ⟨tasks, ?_⟩
      rw [setTask_phaseAt]
      exact now
    · rcases mem_append.mp member with old | new
      · refine .inr ⟨old, fun before => ?_⟩
        have contrary := before.2
        rw [here, unheard] at contrary
        cases contrary
      · exact absurd confirms (none_ event new)
  · rintro (paired | settled)
    · rw [setTask_phaseAt] at paired
      exact .inl (.inr (done (.inl paired)))
    · exact .inl (.inr (done (.inr settled)))

theorem held_of_stage {slot : Slot} {attempt : Nat} (settled : slot.stage attempt = .settled) :
    ∃ held, slot.held = some held ∧ held.stage = .settled := by
  unfold Slot.stage at settled
  split at settled
  · rename_i held there
    split at settled
    · exact ⟨held, there, settled⟩
    · cases settled
  · cases settled

theorem release_held {slot : Slot} {attempt : Nat} {held : Held}
    (there : (slot.release attempt).held = some held) : slot.held = some held := by
  unfold Slot.release at there
  split at there
  · cases there
  · exact there

theorem Once.works {view : View} {conn : Nat} {role : Role} {phase : Phase} {act : TaskAct}
    {talk : Talk} {told : List Told} (once : Once conn view)
    (found : view.talk.tasks conn = some ⟨role, phase⟩)
    (does : Works view.talk conn role phase act talk told) :
    Once conn { view with talk, queue := view.queue ++ told } := by
  have here := phaseAt_of_found found
  cases does with
  | waits =>
    rw [append_nil]
    exact once
  | sends asks counted free unsent untold =>
    refine once.set _ found (by simp) ?_ (.inr ⟨by rw [asks]; rfl, by simp⟩) ?_
    · rw [asks]
      exact fun _ _ => ⟨_, rfl⟩
    · simp [free]
  | leaves asks asked | slips sent shows | refused sent taken =>
    refine once.set _ found (by simp) (by simp [Phase.arrival]) (.inl rfl) ?_
    rw [dropArrival_held]
    simp
  | fails counts =>
    refine once.set _ found (by simp [Told.isNumber]) (by simp [Phase.arrival]) (.inl rfl) ?_
    rw [dropArrival_held]
    simp [Slot.told]
  | @reaches arrival number theirs ticket sent free made =>
    have zero := once.untold (.inr ⟨arrival, by rw [here, sent]; rfl⟩)
    have unheard : ∀ event ∈ view.queue, event.event ≠ .peerConfirmed := by
      intro event member confirms
      have contrary := (once.heard event member confirms).2
      rw [here, sent] at contrary
      cases contrary
    constructor
    · simp only [View.numbers, countP_append] at zero ⊢
      have one : [(⟨arrival.attempt, .number role number arrival.attempt ticket.theirs⟩ :
          Told)].countP Told.isNumber = 1 := rfl
      rw [one]
      change _ + view.talk.ceremony.toList.length ≤ 1
      omega
    · rintro (unused | ⟨other, counts⟩)
      · rw [setTask_found] at unused
        cases unused
      · rw [setTask_phaseAt] at counts
        cases counts
    · intro event member confirms
      rcases mem_append.mp member with old | new
      · exact absurd confirms (unheard event old)
      · rw [mem_singleton.mp new] at confirms
        cases confirms
    · rintro (paired | ⟨held, holds, settled⟩)
      · rw [setTask_phaseAt] at paired
        cases paired
      · rw [setTask_slot, dropArrival_held] at holds
        cases holds
        cases settled
  | answers holds stage =>
    exact once.set view.talk.slot found (by simp) (by simp [Phase.arrival])
      (.inr ⟨by rw [holds]; rfl, by simp⟩) (by simp)
  | greets answered shows =>
    exact once.set view.talk.slot found (by simp) (by simp [Phase.arrival])
      (.inr ⟨by rw [answered]; rfl, by simp⟩) (by simp)
  | hears listens =>
    exact once.set view.talk.slot found (by simp [Told.isNumber])
      (by simp [Phase.arrival]) (.inl rfl) (by simp)
  | finishes holds =>
    refine once.set _ found (by simp [Told.isNumber]) (by simp [Phase.arrival]) (.inl rfl) ?_
    rintro (paired | ⟨held, there, settled⟩)
    · cases paired
    · exact ⟨held, release_held there, settled⟩
  | stops holds isOver =>
    refine once.set _ found (by simp) (by simp [Phase.arrival]) (.inl rfl) ?_
    rintro (paired | ⟨held, there, settled⟩)
    · cases paired
    · exact ⟨held, release_held there, settled⟩
  | pairs confirmed settled =>
    exact once.set _ found (by simp) (by simp [Phase.arrival]) (.inl rfl)
      fun _ => held_of_stage settled

/-- A task settles nothing. -/
theorem Works.done {talk talk' : Talk} {conn : Nat} {role : Role} {phase : Phase} {task : TaskAct}
    {told : List Told} (does : Works talk conn role phase task talk' told)
    (done : talk'.Done conn) : talk.Done conn := by
  have set : ∀ {slot phase'}, phase' ≠ .paired →
      (∀ held, slot.held = some held → held.stage = .settled → talk.slot.held = some held) →
      (({ talk with slot }).setTask conn role phase').Done conn → talk.Done conn := by
    rintro slot phase' unpaired same (paired | ⟨held, there, settled⟩)
    · rw [setTask_phaseAt] at paired
      exact absurd paired unpaired
    · exact .inr ⟨held, same held there settled, settled⟩
  have released : ∀ attempt held, (talk.slot.release attempt).held = some held →
      held.stage = .settled → talk.slot.held = some held :=
    fun _ _ there _ => release_held there
  have dropped : ∀ arrival held, (talk.slot.dropArrival arrival).held = some held →
      held.stage = .settled → talk.slot.held = some held := by
    intro arrival held there _
    rwa [dropArrival_held] at there
  cases does with
  | waits => exact done
  | sends asks counted free unsent untold | answers holds stage | greets answered shows
  | hears listens => exact set (by simp) (fun _ there _ => there) done
  | leaves asks asked | slips sent shows | refused sent taken =>
    exact set (by simp) (dropped _) done
  | fails counts =>
    refine set (by simp) (fun held there _ => ?_) done
    rwa [dropArrival_held] at there
  | reaches sent free made =>
    refine set (by simp) (fun held there settled => ?_) done
    rw [dropArrival_held] at there
    cases there
    cases settled
  | finishes holds | stops holds isOver => exact set (by simp) (released _) done
  | pairs confirmed settled => exact .inr (held_of_stage settled)

section Service

variable {machine : Machine} {fp : Fingerprint} {conn : Nat} {talk : Talk} {act : Act} {view : View}

/-- What the service does to the talk that neither shows a number nor settles. -/
theorem Once.staged (once : Once conn (machine.view fp)) {queue : List Told} {lease : Option Bool}
    {attempts : Nat} (tasks : talk.tasks = (machine.talks fp).tasks)
    (within : queue.Sublist (machine.view fp).queue)
    (ceremony : talk.ceremony.toList.length ≤ (machine.talks fp).ceremony.toList.length)
    (held : ∀ held, talk.slot.held = some held → held.stage = .settled →
      ∃ before, (machine.talks fp).slot.held = some before ∧ before.stage = .settled) :
    Once conn ⟨lease, talk, queue, attempts⟩ := by
  have phases := phaseAt_congr tasks conn
  refine once.of_less ?_ ?_ ?_ ?_
  · exact Nat.add_le_add within.countP_le ceremony
  · intro untold
    rw [Talk.Untold, tasks, phases] at untold
    exact .inl untold
  · intro told member event
    refine .inr ⟨within.subset member, fun heard => ?_⟩
    rw [Talk.Heard, tasks, phases]
    exact heard
  · rintro (paired | ⟨there, holds, settled⟩)
    · rw [phases] at paired
      exact .inl (.inl paired)
    · exact .inl (.inr (held there holds settled))

theorem settled_of_advance {slot : Slot} {source target : Stage} (elsewhere : target ≠ .settled)
    {held : Held} (there : (slot.advance source target).held = some held)
    (settled : held.stage = .settled) :
    ∃ before, slot.held = some before ∧ before.stage = .settled := by
  simp only [Slot.advance, Option.map_eq_some_iff] at there
  obtain ⟨before, holds, rfl⟩ := there
  split at settled
  · exact absurd settled elsewhere
  · exact ⟨before, holds, settled⟩

theorem unsettled_of_end {slot : Slot} {held : Held} (there : slot.end_.held = some held) :
    held.stage ≠ .settled := by
  simp only [Slot.end_, Option.map_eq_some_iff] at there
  obtain ⟨before, holds, rfl⟩ := there
  simp

theorem Once.takesUp (once : Once conn (machine.view fp)) {attempts : Nat}
    (unused : (machine.talks fp).tasks conn = none)
    (ceremony : talk.ceremony = (machine.talks fp).ceremony) :
    Once conn { machine.view fp with talk, attempts } := by
  have zero := once.untold (.inl unused)
  have same : View.numbers { machine.view fp with talk, attempts } = (machine.view fp).numbers := by
    simp only [View.numbers, ceremony]
    rfl
  refine once.of_less same.le (fun _ => .inr zero) ?_ fun _ => .inr (same.trans zero)
  intro told member event
  exact absurd unused (once.heard told member event).1

/-- The number is read. -/
theorem Once.shown (once : Once conn (machine.view fp)) {told : Told} {rest : List Told}
    (queued : (machine.view fp).queue = told :: rest) (number : told.isNumber = true)
    (ceremony : Ceremony) :
    Once conn { machine.view fp with
      talk := { machine.talks fp with ceremony := some ceremony }
      queue := rest } := by
  have counts : (machine.view fp).numbers =
      rest.countP Told.isNumber + 1 + (machine.talks fp).ceremony.toList.length := by
    simp only [View.numbers, queued, countP_cons, number, if_true]
    rfl
  have less := once.once
  refine once.of_less ?_ .inl (fun other member event => .inr ⟨?_, id⟩) .inl
  · rw [counts]
    simp only [View.numbers, Option.toList_some, length_singleton]
    omega
  · rw [queued]
    exact mem_cons_of_mem _ member

theorem Once.settles (once : Once conn (machine.view fp)) {told : Told} {rest : List Told}
    (queued : (machine.view fp).queue = told :: rest) {ceremony : Ceremony}
    (onScreen : (machine.talks fp).ceremony = some ceremony) {lease : Option Bool}
    (tasks : talk.tasks = (machine.talks fp).tasks) (off : talk.ceremony = none) :
    Once conn { machine.view fp with lease, talk, queue := rest } := by
  have phases := phaseAt_congr tasks conn
  have zero : View.numbers { machine.view fp with lease, talk, queue := rest } = 0 := by
    have less := once.once
    have counts : (machine.view fp).numbers = (machine.view fp).queue.countP Told.isNumber + 1 := by
      simp only [View.numbers]
      change _ + (machine.talks fp).ceremony.toList.length = _
      rw [onScreen]
      rfl
    have within : rest.countP Told.isNumber ≤ (machine.view fp).queue.countP Told.isNumber := by
      rw [queued]
      exact (sublist_cons_self told rest).countP_le
    simp only [View.numbers, off, Option.toList_none, length_nil]
    omega
  refine once.of_less (zero ▸ Nat.zero_le _) ?_ ?_ fun _ => .inr zero
  · intro untold
    rw [Talk.Untold, tasks, phases] at untold
    exact .inl untold
  · intro other member event
    refine .inr ⟨?_, fun heard => ?_⟩
    · rw [queued]
      exact mem_cons_of_mem _ member
    · rw [Talk.Heard, tasks, phases]
      exact heard

theorem tail_sublist {told : Told} {rest : List Told}
    (queued : (machine.view fp).queue = told :: rest) : rest.Sublist (machine.view fp).queue :=
  queued ▸ sublist_cons_self told rest

theorem Once.moves [Lowercase] (once : Once conn (machine.view fp))
    (moves : Moves machine fp act view)
    (alone : ∀ other, (machine.talks fp).tasks other ≠ none → other = conn)
    (alone' : ∀ other, view.talk.tasks other ≠ none → other = conn) : Once conn view := by
  have same : ∀ held, (machine.talks fp).slot.held = some held → held.stage = .settled →
      ∃ before, (machine.talks fp).slot.held = some before ∧ before.stage = .settled :=
    fun held there settled => ⟨held, there, settled⟩
  cases moves with
  | elsewhere grown | expires unshown | approves named left | adjusts leased =>
    exact once.staged rfl (.refl _) le_rfl same
  | @busy _ other role unused | @begins _ other role arriving asked unused free counted =>
    have here : other = conn := alone' other (by rw [setTask_found]; simp)
    exact once.takesUp (here ▸ unused) rfl
  | @works other task role phase talk told found does =>
    have here : other = conn := alone other (by rw [found]; simp)
    subst here
    exact once.works found does
  | shown first queued event waits =>
    exact once.shown queued (isNumber_iff.mpr ⟨_, _, _, _, event⟩) _
  | unshown first queued event unpaired | abandons queued event =>
    exact once.staged rfl (tail_sublist queued) (Nat.zero_le _)
      fun held there settled => absurd settled (unsettled_of_end there)
  | settles first queued event onScreen answered leased =>
    exact once.settles queued onScreen rfl rfl
  | ignores queued event onScreen other => exact once.staged rfl (tail_sublist queued) le_rfl same
  | drops queued event onScreen => exact once.staged rfl (tail_sublist queued) (Nat.zero_le _) same
  | picks named onScreen unanswered right =>
    refine once.staged rfl (.refl _) ?_ fun held there settled =>
      settled_of_advance (by decide) there settled
    rw [onScreen]
    rfl
  | cancels named asked | forgets asked =>
    exact once.staged rfl (.refl _) (Nat.zero_le _)
      fun held there settled => absurd settled (unsettled_of_end there)

/-- A pairing comes to be settled only by the service telling its store. -/
theorem Moves.done [Lowercase] (moves : Moves machine fp act view)
    (alone : ∀ other, (machine.talks fp).tasks other ≠ none → other = conn)
    (done : view.talk.Done conn) : (machine.talks fp).Done conn ∨
      ∃ reading randomness told rest ceremony, act = .dequeue reading randomness ∧
        machine.queue.head? = some (fp, told) ∧ (machine.view fp).queue = told :: rest ∧
        told.event = .peerConfirmed ∧ (machine.talks fp).ceremony = some ceremony ∧
        ceremony.answered = true ∧ view.lease = some true := by
  have ended : ∀ {talk : Talk}, talk.Done conn → talk.tasks = (machine.talks fp).tasks →
      talk.slot = (machine.talks fp).slot.end_ → (machine.talks fp).Done conn := by
    rintro talk (paired | ⟨held, there, settled⟩) tasks slot
    · rw [phaseAt_congr tasks] at paired
      exact .inl paired
    · rw [slot] at there
      exact absurd settled (unsettled_of_end there)
  have takes : ∀ {other role phase slot}, (machine.talks fp).tasks other = none →
      phase ≠ .paired → slot.held = (machine.talks fp).slot.held →
      (({ machine.talks fp with slot }).setTask other role phase).Done conn →
      (machine.talks fp).Done conn := by
    rintro other role phase slot unused unpaired same (paired | ⟨held, there, settled⟩)
    · rw [phaseAt_setTask, update_apply] at paired
      split at paired
      · exact absurd paired unpaired
      · exact .inl paired
    · exact .inr ⟨held, same ▸ there, settled⟩
  cases moves with
  | elsewhere grown | shown first queued event waits | ignores queued event onScreen other
  | drops queued event onScreen | expires unshown | approves named left | adjusts leased =>
    exact .inl done
  | busy unused | begins asked unused free counted => exact .inl (takes unused (by simp) rfl done)
  | @works other task role phase talk told found does =>
    have here : other = conn := alone other (by rw [found]; simp)
    subst here
    exact .inl (does.done done)
  | unshown first queued event unpaired | abandons queued event | cancels named asked
  | forgets asked => exact .inl (ended done rfl rfl)
  | settles first queued event onScreen answered leased =>
    exact .inr ⟨_, _, _, _, _, rfl, first, queued, event, onScreen, answered, rfl⟩
  | picks named onScreen unanswered right =>
    refine .inl ?_
    rcases done with paired | ⟨held, there, settled⟩
    · exact .inl paired
    · exact .inr (settled_of_advance (by decide) there settled)

theorem Moves.paired [Lowercase] (moves : Moves machine fp act view)
    (paired : (machine.talks fp).phaseAt conn = .paired) : view.talk.phaseAt conn = .paired := by
  have takes : ∀ {other role phase slot}, (machine.talks fp).tasks other = none →
      (({ machine.talks fp with slot }).setTask other role phase).phaseAt conn = .paired := by
    intro other role phase slot unused
    rw [phaseAt_setTask, update_apply]
    split
    · rename_i same
      rw [same, phaseAt_of_unused unused] at paired
      cases paired
    · exact paired
  cases moves with
  | busy unused | begins asked unused free counted => exact takes unused
  | @works other task role phase talk told found does =>
    by_cases same : conn = other
    · subst same
      rw [phaseAt_of_found found] at paired
      subst paired
      cases does with
      | waits => exact phaseAt_of_found found
      | sends asks | leaves asks => cases asks
      | slips sent | refused sent | reaches sent => cases sent
      | fails counts => cases counts
      | answers holds | finishes holds | stops holds => cases holds
      | greets answered => cases answered
      | hears listens =>
        rcases listens with ⟨absurd_, _⟩ | absurd_
        · cases absurd_
        · cases absurd_
      | pairs confirmed => cases confirmed
    · rw [works_phaseAt does same]
      exact paired
  | _ => exact paired

theorem Moves.confirms [Lowercase] (moves : Moves machine fp act view) {told : Told}
    (member : told ∈ view.queue) (event : told.event = .peerConfirmed) :
    told ∈ (machine.view fp).queue ∨
      ∃ other role phase, act = .task fp other (.hear true) ∧
        (machine.talks fp).tasks other = some ⟨role, phase⟩ ∧ phase.isQuiet = false ∧
        ∃ ticket number, view.talk.phaseAt other = .confirmed ticket number := by
  cases moves with
  | @works other task role phase talk events found does =>
    rcases mem_append.mp member with old | new
    · exact .inl old
    · cases does with
      | @hears ticket number listens =>
        refine .inr ⟨other, role, phase, rfl, found, ?_, ticket, number, ?_⟩
        · rcases listens with ⟨rfl, _⟩ | rfl
          · rfl
          · rfl
        · rw [setTask_phaseAt]
      | reaches sent free made | fails counts | finishes holds =>
        rw [mem_singleton.mp new] at event
        cases event
      | _ => cases new
  | shown first queued number waits | unshown first queued number unpaired
  | settles first queued confirms onScreen answered leased | abandons queued other
  | ignores queued ended onScreen other | drops queued ended onScreen =>
    exact .inl ((tail_sublist queued).subset member)
  | _ => exact .inl member

end Service

/-! ## What each step of the two machines does -/

/-- One half of the comparison goes on; frames and the connection stay. -/
structure Line.Half (line line' : Line) : Prop where
  steady : ∃ dials, Line.Steady dials line line'
  framesBack : line'.framesBack = line.framesBack
  up : line'.up = line.up

namespace Line.Half

variable {line : Line}

theorem commit [Sha256] (exporter : Bytes) (mine theirs : String) (nonce : Bytes) :
    Half line (line.commit exporter mine theirs nonce) := by
  refine ⟨⟨_, .commit exporter mine theirs nonce⟩, ?_, ?_⟩
  all_goals
    unfold Line.commit
    split <;> rfl

theorem readCommitment : Half line line.readCommitment := by
  refine ⟨⟨_, .readCommitment⟩, ?_, ?_⟩
  all_goals
    unfold Line.readCommitment
    split <;> rfl

theorem sendNonce (nonce : Bytes) : Half line (line.sendNonce nonce) := by
  refine ⟨⟨_, .sendNonce nonce⟩, ?_, ?_⟩
  all_goals
    unfold Line.sendNonce
    split <;> rfl

theorem readNonce : Half line line.readNonce := by
  refine ⟨⟨_, .readNonce⟩, ?_, ?_⟩
  all_goals
    unfold Line.readNonce
    split <;> rfl

theorem reveal : Half line line.reveal := by
  refine ⟨⟨_, .reveal⟩, ?_, ?_⟩
  all_goals
    unfold Line.reveal
    split <;> rfl

theorem readReveal [Sha256] (exporter : Bytes) (mine theirs : String) :
    Half line (line.readReveal exporter mine theirs) := by
  refine ⟨⟨_, .readReveal exporter mine theirs⟩, ?_, ?_⟩
  all_goals
    unfold Line.readReveal
    split
    · split <;> rfl
    · rfl

end Line.Half

theorem onLine_framesBack (dials : Bool) (after : Phase) (line : Line) (task : TaskAct) :
    (onLine dials after line task).framesBack.Sublist line.framesBack := by
  cases task with
  | maySend closed => cases dials <;> grind [onLine, Line.go]
  | hear hello =>
    cases dials with
    | true => exact List.tail_sublist _
    | false => exact .refl _
  | _ => exact .refl _

theorem onLine_up (dials : Bool) (after : Phase) (line : Line) (task : TaskAct) :
    (onLine dials after line task).up = line.up := by
  cases task with
  | maySend closed => cases dials <;> grind [onLine, Line.go]
  | hear hello => cases dials <;> rfl
  | _ => rfl

theorem onLine_nonces {dials end_ : Bool} {after : Phase} {line : Line} {task : TaskAct}
    {both : Bytes × Bytes} (known : line.nonces end_ = some both) :
    (onLine dials after line task).nonces end_ = some both := by
  cases task with
  | maySend closed =>
    cases dials <;> cases end_ <;> grind [onLine, Line.go, Line.nonces]
  | hear hello => cases dials <;> exact known
  | _ => exact known

theorem compare_line {pair : Pair} {net : Net} {side : Side} {conn other : Nat} {stands : Phase → Bool}
    {change : Line → Line} : (net.compare pair side conn stands change).line other = net.line other ∨
      other = conn ∧ stands (net.phase pair side conn) = true ∧
        (net.compare pair side conn stands change).line other = change (net.line conn) := by
  unfold Net.compare
  split
  · rename_i there
    by_cases same : other = conn
    · subst same
      exact .inr ⟨rfl, there, by simp⟩
    · exact .inl (by simp [same])
  · exact .inl rfl

section Step

variable [Sha256] {pair : Pair} {net : Net}

/-- The step of one machine in a step of the two, if it is allowed. -/
def performed (pair : Pair) (side : Side) (step : Net × NetAct) : Option (Machine × Act) :=
  match step.2 with
  | .machine other act =>
    if other = side ∧ step.1.allows pair side act = true then some (step.1.machine side, act)
    else none
  | _ => none

/-- The steps of one machine. -/
def history (pair : Pair) (side : Side) (past : List (Net × NetAct)) : List (Machine × Act) :=
  past.filterMap (performed pair side)

theorem history_snoc (side : Side) (past : List (Net × NetAct)) (step : Net × NetAct) :
    history pair side (past ++ [step]) =
      history pair side past ++ (performed pair side step).toList := by
  cases found : performed pair side step <;> simp [history, filterMap_append, found]

/-- The dialler reads a confirmation only while one is on its way to it. -/
theorem heard_frames {conn : Nat}
    (consents : net.consents pair (pair.dialler conn) conn (.hear true) = true) :
    (net.line conn).framesBack ≠ [] := by
  have dials : pair.dials (pair.dialler conn) conn = true := by simp [Pair.dials]
  simp only [Net.consents, Bool.and_eq_true, dials, Line.frames, if_true, beq_iff_eq] at consents
  intro none_
  rw [none_] at consents
  cases consents.2

variable [Lowercase]

theorem step_machine (act : NetAct) (side : Side) :
    (performed pair side (net, act) = none ∧ (net.step pair act).machine side = net.machine side) ∨
      ∃ does, act = .machine side does ∧ net.allows pair side does = true ∧
        performed pair side (net, act) = some (net.machine side, does) ∧
        net.step pair act = net.perform pair side does ∧
        (net.step pair act).machine side = (net.machine side).step does := by
  have compares : ∀ side' conn stands change,
      (net.compare pair side' conn stands change).machine side = net.machine side := by
    intro side' conn stands change
    unfold Net.compare
    split <;> rfl
  cases act with
  | machine other does =>
    by_cases allowed : net.allows pair other does = true
    · by_cases same : other = side
      · subst same
        refine .inr ⟨does, rfl, allowed, ?_, ?_, ?_⟩
        · simp [performed, allowed]
        · simp [Net.step, allowed]
        · simp [Net.step, allowed, Net.perform]
      · refine .inl ⟨by simp [performed, same], ?_⟩
        simp [Net.step, allowed, Net.perform, Ne.symm same]
    · refine .inl ⟨?_, by simp [Net.step, allowed]⟩
      simp only [performed, ite_eq_right_iff]
      rintro ⟨rfl, also⟩
      exact absurd also allowed
  | cut conn => exact .inl ⟨rfl, rfl⟩
  | _ => exact .inl ⟨rfl, compares _ _ _ _⟩

theorem step_line (act : NetAct) (conn : Nat) :
    (net.step pair act).line conn = net.line conn ∨
      Line.Half (net.line conn) ((net.step pair act).line conn) ∨
      (∃ dials after task,
        (net.step pair act).line conn = onLine dials after (net.line conn) task) ∨
      (net.step pair act).line conn = (net.line conn).cut ∨
      net.phase pair (pair.dialler conn).other conn = .paired ∧
        ∃ frame, (net.step pair act).line conn = (net.line conn).answer frame := by
  have halves : ∀ side other stands change, (∀ line, Line.Half line (change line)) →
      (net.compare pair side other stands change).line conn = net.line conn ∨
        Line.Half (net.line conn) ((net.compare pair side other stands change).line conn) := by
    intro side other stands change half
    rcases @compare_line pair net side other conn stands change with same | ⟨rfl, _, changed⟩
    · exact .inl same
    · rw [changed]
      exact .inr (half _)
  have lift : ∀ {P Q R : Prop}, P ∨ Q → P ∨ Q ∨ R := by tauto
  cases act with
  | machine side does =>
    simp only [Net.step]
    split
    · by_cases idle : ∀ conn task, does ≠ .task (pair.peer side) conn task
      · exact .inl (congrFun (perform_line net idle) conn)
      · push Not at idle
        obtain ⟨other, task, rfl⟩ := idle
        rw [perform_line_task, update_apply]
        split
        · rename_i same
          subst same
          exact .inr (.inr (.inl ⟨_, _, task, rfl⟩))
        · exact .inl rfl
    · exact .inl rfl
  | cut other =>
    simp only [Net.step, update_apply]
    split
    · rename_i same
      subst same
      exact .inr (.inr (.inr (.inl rfl)))
    · exact .inl rfl
  | answer other frame =>
    rcases @compare_line pair net (pair.dialler other).other other conn (· == .paired)
      (fun line => line.answer frame) with same | ⟨rfl, paired, changed⟩
    · exact .inl same
    · exact .inr (.inr (.inr (.inr ⟨by simpa using paired, frame, changed⟩)))
  | commit other nonce => exact lift (halves _ _ _ _ fun _ => .commit _ _ _ _)
  | readCommitment other => exact lift (halves _ _ _ _ fun _ => .readCommitment)
  | sendNonce other nonce => exact lift (halves _ _ _ _ fun _ => .sendNonce _)
  | readNonce other => exact lift (halves _ _ _ _ fun _ => .readNonce)
  | reveal other => exact lift (halves _ _ _ _ fun _ => .reveal)
  | readReveal other => exact lift (halves _ _ _ _ fun _ => .readReveal _ _ _)

variable {act : NetAct}

/-- What both ends know of a connection stays. -/
theorem step_nonces {conn : Nat} {end_ : Bool} {both : Bytes × Bytes}
    (known : (net.line conn).nonces end_ = some both) :
    ((net.step pair act).line conn).nonces end_ = some both := by
  rcases @step_line _ pair net _ act conn with
    same | half | ⟨dials, after, task, worked⟩ | went | ⟨_, frame, answered⟩
  · rw [same]
    exact known
  · obtain ⟨dials, steady⟩ := half.steady
    exact steady.nonces _ _ known
  · rw [worked]
    exact onLine_nonces known
  · rw [went]
    exact known
  · rw [answered]
    exact known

theorem step_number {side : Side} {conn : Nat} {number : String}
    (known : pair.number side conn (net.line conn) = some number) :
    pair.number side conn ((net.step pair act).line conn) = some number :=
  number_stays (fun _ _ found => step_nonces found) known

theorem step_framesBack (act : NetAct) (conn : Nat) :
    ((net.step pair act).line conn).framesBack.Sublist (net.line conn).framesBack ∨
      net.phase pair (pair.dialler conn).other conn = .paired ∧ (net.line conn).up = true := by
  rcases @step_line _ pair net _ act conn with
    same | half | ⟨dials, after, task, worked⟩ | went | ⟨paired, frame, answered⟩
  · rw [same]
    exact .inl (.refl _)
  · rw [half.framesBack]
    exact .inl (.refl _)
  · rw [worked]
    exact .inl (onLine_framesBack _ _ _ _)
  · rw [went]
    exact .inl (nil_sublist _)
  · cases up : (net.line conn).up with
    | true => exact .inr ⟨paired, rfl⟩
    | false =>
      rw [answered, Line.answer, up]
      exact .inl (by simp)

theorem step_down {conn : Nat} (down : (net.line conn).up = false) :
    ((net.step pair act).line conn).up = false := by
  rcases @step_line _ pair net _ act conn with
    same | half | ⟨dials, after, task, worked⟩ | went | ⟨_, frame, answered⟩
  · rw [same]
    exact down
  · rw [half.up]
    exact down
  · rw [worked, onLine_up]
    exact down
  · rw [went]
    rfl
  · rw [answered]
    exact down

/-! ## Which machine settles first -/

/-- Only one connection between the two is ever dialled or accepted. -/
def NetAct.Over (pair : Pair) (conn : Nat) : NetAct → Prop
  | .machine side (.dial fp other) => fp = pair.peer side → other = conn
  | .machine side (.accept fp other _) => fp = pair.peer side → other = conn
  | _ => True

/-- The service of `side` tells its store to confirm, by the number on screen, and it does. -/
def Settles (pair : Pair) (side : Side) (shown : Nat × String) (step : Net × NetAct) : Prop :=
  ∃ reading randomness told ceremony, step.2 = .machine side (.dequeue reading randomness) ∧
    (step.1.machine side).queue.head? = some (pair.peer side, told) ∧
    told.event = .peerConfirmed ∧
    (step.1.talk pair side).ceremony = some ceremony ∧ ceremony.answered = true ∧
    ceremony.shows = shown ∧
    ((step.1.step pair step.2).machine side).store.waiting (pair.peer side).1 = some true

/-- The machine that did not dial settled before, on this number, which its person picked. -/
def AddedFirst (pair : Pair) (conn : Nat) (past : List (Net × NetAct)) (number : String) : Prop :=
  ∃ attempt before step after, past = before ++ step :: after ∧
    Settles pair (pair.dialler conn).other (attempt, number) step ∧
    SinceLast (Forgets (pair.peer (pair.dialler conn).other))
      [GivesApproval (pair.peer (pair.dialler conn).other),
        ReadsNumber (pair.peer (pair.dialler conn).other) (attempt, number),
        PicksNumber (pair.peer (pair.dialler conn).other) (attempt, number)]
      (history pair (pair.dialler conn).other before)

/-- The confirmation of the added machine is on its way, or waits to be read. -/
def Net.Passed (pair : Pair) (conn : Nat) (net : Net) : Prop :=
  (net.line conn).framesBack ≠ [] ∨
    ∃ told ∈ ((net.machine (pair.dialler conn)).view (pair.peer (pair.dialler conn))).queue,
      told.event = .peerConfirmed

/-- What holds wherever a run over one connection stands. -/
structure Compared (pair : Pair) (conn : Nat) (past : List (Net × NetAct)) (net : Net) : Prop where
  fits : Fits pair net
  agreed : ∀ side, Agreed (pair.peer side) (history pair side past) (net.machine side)
  alone : ∀ side other, (net.talk pair side).tasks other ≠ none → other = conn
  once : ∀ side, Once conn ((net.machine side).view (pair.peer side))
  heard : ∀ side, ∀ step ∈ history pair side past, ∀ shown, Hears (pair.peer side) shown step →
    pair.number side conn (net.line conn) = some shown.2
  passed : net.Passed pair conn → net.phase pair (pair.dialler conn).other conn = .paired
  first : (net.talk pair (pair.dialler conn).other).Done conn → ∃ number,
    pair.number (pair.dialler conn).other conn (net.line conn) = some number ∧
      AddedFirst pair conn past number

theorem AddedFirst.snoc {conn : Nat} {past : List (Net × NetAct)} {number : String}
    (first : AddedFirst pair conn past number) (step : Net × NetAct) :
    AddedFirst pair conn (past ++ [step]) number := by
  obtain ⟨attempt, before, settles, after, rfl, settled, since⟩ := first
  exact ⟨attempt, before, settles, after ++ [step], by simp, settled, since⟩

theorem Compared.start {stores : Side → TrustStore} (formed : ∀ side, Formed (stores side))
    (driven : ∀ side, Driven (stores side))
    (settled : ∀ side, (stores side).waiting (pair.peer side).1 ≠ some false) (conn : Nat) :
    Compared pair conn [] (.start stores) where
  fits := ⟨.start formed driven, _, .start pair stores⟩
  agreed side := .start (formed side) (driven side) (settled side)
  alone side other used := absurd rfl used
  once side := .fresh conn _ _
  heard side step member := by cases member
  passed := by
    rintro (frames | ⟨told, member, _⟩)
    · exact absurd rfl frames
    · cases member
  first := by
    rintro (paired | ⟨held, there, _⟩)
    · cases paired
    · cases there

variable {conn : Nat} {past : List (Net × NetAct)}

theorem Compared.step_view (compared : Compared pair conn past net) (act : NetAct) (side : Side)
    {P : View → Prop} (before : P ((net.machine side).view (pair.peer side)))
    (moves : ∀ does, Moves (net.machine side) (pair.peer side) does
      (((net.step pair act).machine side).view (pair.peer side)) →
      P (((net.step pair act).machine side).view (pair.peer side))) :
    P (((net.step pair act).machine side).view (pair.peer side)) := by
  rcases step_machine act side with ⟨_, same⟩ | ⟨does, rfl, _, _, _, stepped⟩
  · rw [same]
    exact before
  · refine moves does ?_
    rw [stepped]
    exact (compared.agreed side).sound.step_moves does (pair.peer side)

/-- The number on screen as a confirmation is read is the one of the connection. -/
theorem Compared.shown (compared : Compared pair conn past net) {side : Side} {ceremony : Ceremony}
    {told : Told} {rest : List Told} (onScreen : (net.talk pair side).ceremony = some ceremony)
    (queued : ((net.machine side).view (pair.peer side)).queue = told :: rest)
    (event : told.event = .peerConfirmed) :
    pair.number side conn (net.line conn) = some ceremony.number := by
  have faithful := (compared.agreed side).faithful
  rw [talk] at onScreen
  rw [onScreen, Option.map_some, queued] at faithful
  obtain ⟨number, ⟨earlier, heardThere, hears⟩, only⟩ := faithful.1 event
  have same : ceremony.shows = (told.by_, number) := only _ rfl
  rw [← same] at hears
  exact compared.heard _ earlier heardThere _ hears

section

variable (compared : Compared pair conn past net)
include compared

/-- Only the one connection comes to have a task. -/
theorem Compared.step_alone (isOver : act.Over pair conn) (side : Side) (other : Nat)
    (used : ((net.step pair act).talk pair side).tasks other ≠ none) : other = conn := by
  rcases @step_machine _ pair net _ act side with ⟨_, same⟩ | ⟨does, rfl, _, _, _, stepped⟩
  · rw [talk, same] at used
    exact compared.alone side other used
  · rw [talk, stepped] at used
    rcases step_tasks used with before | ⟨reading, rfl⟩ | rfl
    · exact compared.alone side other before
    · exact isOver rfl
    · exact isOver rfl

theorem Compared.step_agreed (act : NetAct) (side : Side) :
    Agreed (pair.peer side) (history pair side (past ++ [(net, act)]))
      ((net.step pair act).machine side) := by
  rw [history_snoc]
  rcases @step_machine _ pair net _ act side with
    ⟨none_, same⟩ | ⟨does, rfl, _, found, _, stepped⟩
  · rw [none_, same]
    simpa using compared.agreed side
  · rw [found, stepped]
    exact (compared.agreed side).step does

theorem Compared.step_once (isOver : act.Over pair conn) (side : Side) :
    Once conn (((net.step pair act).machine side).view (pair.peer side)) := by
  exact compared.step_view act side (P := Once conn) (compared.once side) fun does moves =>
    (compared.once side).moves moves (compared.alone side) (compared.step_alone isOver side)

theorem Compared.step_heard (act : NetAct) (side : Side) :
    ∀ step ∈ history pair side (past ++ [(net, act)]), ∀ shown, Hears (pair.peer side) shown step →
      pair.number side conn ((net.step pair act).line conn) = some shown.2 := by
  intro step member shown hears
  refine step_number ?_
  rw [history_snoc] at member
  rcases mem_append.mp member with old | new
  · exact compared.heard side step old shown hears
  · rcases @step_machine _ pair net _ act side with ⟨none_, _⟩ | ⟨does, rfl, _, found, _, _⟩
    · rw [none_] at new
      cases new
    · rw [found, Option.toList_some, mem_singleton] at new
      subst new
      obtain ⟨other, role, phase, ticket, rfl, task, listens, _⟩ := hears
      have here : other = conn := compared.alone side other (by rw [talk, task]; simp)
      subst here
      refine compared.fits.linked.numbers side other shown.2 ?_
      rw [Net.phase, Net.talk, phaseAt_of_found task]
      rcases listens with ⟨rfl, _⟩ | rfl
      · rfl
      · rfl

theorem Compared.step_confirms {told : Told}
    (member : told ∈ (((net.step pair act).machine (pair.dialler conn)).view
      (pair.peer (pair.dialler conn))).queue) (event : told.event = .peerConfirmed) :
    told ∈ ((net.machine (pair.dialler conn)).view (pair.peer (pair.dialler conn))).queue ∨
      (net.line conn).framesBack ≠ [] ∧
        (net.phase pair (pair.dialler conn) conn).isQuiet = false ∧ ∃ ticket number,
        (net.step pair act).phase pair (pair.dialler conn) conn = .confirmed ticket number := by
  rcases @step_machine _ pair net _ act (pair.dialler conn) with
    ⟨_, same⟩ | ⟨does, rfl, allowed, _, _, stepped⟩
  · rw [same] at member
    exact .inl member
  · rw [stepped] at member
    have moves := (compared.agreed (pair.dialler conn)).sound.step_moves does
      (pair.peer (pair.dialler conn))
    rcases moves.confirms member event with
      before | ⟨other, role, phase, rfl, found, loud, confirmed⟩
    · exact .inl before
    · have here : other = conn := compared.alone _ other (by rw [talk, found]; simp)
      subst here
      have consents : net.consents pair (pair.dialler other) other (.hear true) = true := by
        simpa [allows] using allowed
      refine .inr ⟨heard_frames consents, ?_, ?_⟩
      · rwa [Net.phase, Net.talk, phaseAt_of_found found]
      · rw [Net.phase, Net.talk, stepped]
        exact confirmed

/-- The confirmation is on its way only from a machine that paired. -/
theorem Compared.step_passed (act : NetAct) (passed : (net.step pair act).Passed pair conn) :
    net.phase pair (pair.dialler conn).other conn = .paired := by
  rcases passed with frames | ⟨told, member, event⟩
  · rcases @step_framesBack _ pair net _ act conn with within | ⟨paired, _⟩
    · refine compared.passed (.inl fun none_ => frames ?_)
      rw [none_] at within
      exact sublist_nil.mp within
    · exact paired
  · rcases compared.step_confirms member event with before | ⟨frames, _⟩
    · exact compared.passed (.inr ⟨told, before, event⟩)
    · exact compared.passed (.inl frames)

theorem Compared.step_paired {side : Side} (paired : net.phase pair side conn = .paired) :
    (net.step pair act).phase pair side conn = .paired := by
  exact compared.step_view act side (P := fun view => view.talk.phaseAt conn = .paired) paired
    fun does moves => moves.paired paired

/-- The added machine is settled because it was, or because its store was just told. -/
theorem Compared.step_first (act : NetAct)
    (done : ((net.step pair act).talk pair (pair.dialler conn).other).Done conn) :
    ∃ number, pair.number (pair.dialler conn).other conn (net.line conn) = some number ∧
      AddedFirst pair conn (past ++ [(net, act)]) number := by
  have stays : (net.talk pair (pair.dialler conn).other).Done conn → ∃ number,
      pair.number (pair.dialler conn).other conn (net.line conn) = some number ∧
        AddedFirst pair conn (past ++ [(net, act)]) number := by
    intro before
    obtain ⟨number, known, first⟩ := compared.first before
    exact ⟨number, known, first.snoc _⟩
  rcases @step_machine _ pair net _ act (pair.dialler conn).other with
    ⟨_, same⟩ | ⟨does, rfl, _, found, _, stepped⟩
  · rw [talk, same] at done
    exact stays done
  · have agreed := compared.agreed (pair.dialler conn).other
    have moves := agreed.sound.step_moves does (pair.peer (pair.dialler conn).other)
    rw [talk, stepped] at done
    rcases moves.done (compared.alone _) done with before | ⟨reading, randomness, told, rest,
      ceremony, rfl, first, queued, event, onScreen, answered, leased⟩
    · exact stays before
    · refine ⟨ceremony.number, ?_, ceremony.attempt, past, _, [], rfl, ?_, ?_⟩
      · exact compared.shown onScreen queued event
      · refine ⟨reading, randomness, told, ceremony, rfl, first, event, onScreen, answered, rfl, ?_⟩
        rw [stepped]
        exact leased
      · exact agreed.picked ceremony onScreen answered

end

theorem Compared.step (compared : Compared pair conn past net) {act : NetAct}
    (isOver : act.Over pair conn) :
    Compared pair conn (past ++ [(net, act)]) (net.step pair act) where
  fits := compared.fits.step act
  agreed := compared.step_agreed act
  alone := compared.step_alone isOver
  once := compared.step_once isOver
  heard := compared.step_heard act
  passed passed := compared.step_paired (compared.step_passed act passed)
  first done := by
    obtain ⟨number, known, first⟩ := compared.step_first act done
    exact ⟨number, step_number known, first⟩

end Step

end HopsFormal.Pairing
