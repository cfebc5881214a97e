import HopsFormal.Pairing.Approved
import HopsFormal.Pairing.Kept
import HopsFormal.Trust.Persistence

/-!
# Confirmed only after both people agreed

A lease is confirmed at one door, by the confirmation of the attempt whose
number is on screen, and only after an approval, that number and its pick, with
nothing forgotten in between.
-/

namespace HopsFormal.Pairing

open List Function Trust TrustStore Lib

/-! ## What the screen comes to show -/

/-- The attempt and number of an event, if it is a number, else what was there. -/
def Told.shows (screen : Option (Nat × String)) (told : Told) : Option (Nat × String) :=
  match told.event with
  | .number _ number attempt _ => some (attempt, number)
  | _ => screen

def Ceremony.shows (ceremony : Ceremony) : Nat × String := (ceremony.attempt, ceremony.number)

/-- What is on screen once the events waiting are read, if any of it is left then. -/
def View.screen (view : View) : Option (Nat × String) :=
  view.queue.foldl Told.shows (view.talk.ceremony.map Ceremony.shows)

theorem shows_of_event {told : Told}
    (event : ∀ role number attempt theirs, told.event ≠ .number role number attempt theirs)
    (screen : Option (Nat × String)) : told.shows screen = screen := by
  unfold Told.shows
  cases kind : told.event with
  | number role number attempt theirs => exact absurd kind (event role number attempt theirs)
  | peerConfirmed | ended why attempt => rfl

theorem shows_none (screen : Option (Nat × String)) (told : Told) :
    told.shows none = told.shows screen ∨ told.shows none = none := by
  unfold Told.shows
  cases told.event with
  | number role number attempt theirs => exact .inl rfl
  | peerConfirmed | ended why attempt => exact .inr rfl

/-- Whatever is on screen is `shown`. -/
def Only (screen : Option (Nat × String)) (shown : Nat × String) : Prop :=
  ∀ other, screen = some other → other = shown

/-- Taking a number off screen leaves what is shown in the end, or nothing. -/
theorem Only.blank {screen : Option (Nat × String)} {queue : List Told} {shown : Nat × String}
    (only : Only (queue.foldl Told.shows screen) shown) :
    Only (queue.foldl Told.shows none) shown := by
  induction queue generalizing screen with
  | nil =>
    intro other found
    cases found
  | cons told rest ih =>
    rw [foldl_cons] at only ⊢
    rcases shows_none screen told with same | nothing
    · rw [same]
      exact only
    · rw [nothing]
      exact ih only

/-- Each confirmation in the queue is one that `Heard`, of what is on screen when it is read. -/
def Faithful (Heard : Nat × String → Prop) (screen : Option (Nat × String)) : List Told → Prop
  | [] => True
  | told :: rest =>
    (told.event = .peerConfirmed →
      ∃ number, Heard (told.by_, number) ∧ Only screen (told.by_, number)) ∧
    Faithful Heard (told.shows screen) rest

namespace Faithful

variable {Heard : Nat × String → Prop} {screen : Option (Nat × String)} {queue : List Told}

section

variable (faithful : Faithful Heard screen queue)
include faithful

theorem mono {Heard' : Nat × String → Prop} (more : ∀ shown, Heard shown → Heard' shown) :
    Faithful Heard' screen queue := by
  induction queue generalizing screen with
  | nil => trivial
  | cons told rest ih =>
    refine ⟨fun event => ?_, ih faithful.2⟩
    obtain ⟨number, heard, only⟩ := faithful.1 event
    exact ⟨number, more _ heard, only⟩

/-- A number taken off screen confirms nothing else. -/
theorem blank : Faithful Heard none queue := by
  induction queue generalizing screen with
  | nil => trivial
  | cons told rest ih =>
    refine ⟨fun event => ?_, ?_⟩
    · obtain ⟨number, heard, _⟩ := faithful.1 event
      exact ⟨number, heard, fun other absurd_ => by cases absurd_⟩
    · rcases shows_none screen told with same | nothing
      · rw [same]
        exact faithful.2
      · rw [nothing]
        exact ih faithful.2

theorem append {new : List Told} (last : Faithful Heard (queue.foldl Told.shows screen) new) :
    Faithful Heard screen (queue ++ new) := by
  induction queue generalizing screen with
  | nil => exact last
  | cons told rest ih => exact ⟨faithful.1, ih faithful.2 last⟩

end

end Faithful

theorem faithful_silent {Heard : Nat × String → Prop} {screen : Option (Nat × String)}
    {new : List Told} (silent : ∀ told ∈ new, told.event ≠ .peerConfirmed) :
    Faithful Heard screen new := by
  induction new generalizing screen with
  | nil => trivial
  | cons told rest ih =>
    refine ⟨fun event => absurd event (silent told (by simp)), ih fun later member => ?_⟩
    exact silent later (by simp [member])

/-! ## The number held is the last told -/

/-- The last number told is that of what is held. -/
def Last (view : View) : Prop :=
  ∀ conn attempt stage number, view.talk.slot.held = some ⟨conn, attempt, stage⟩ →
    (view.talk.phaseAt conn).number = some number → Only view.screen (attempt, number)

/-- What holds nothing new and shows nothing new keeps it. -/
theorem Last.of {view view' : View} (last : Last view)
    (held : ∀ conn attempt stage, view'.talk.slot.held = some ⟨conn, attempt, stage⟩ →
      ∃ stage', view.talk.slot.held = some ⟨conn, attempt, stage'⟩)
    (numbers : ∀ conn number, (view'.talk.phaseAt conn).number = some number →
      (view.talk.phaseAt conn).number = some number)
    (screen : ∀ shown, Only view.screen shown → Only view'.screen shown) : Last view' := by
  intro conn attempt stage number there told
  obtain ⟨stage', before⟩ := held conn attempt stage there
  exact screen _ (last conn attempt stage' number before (numbers conn number told))

theorem held_of_staged {held held' : Option Held}
    (staged : ∃ stage : Held → Stage,
      held' = held.map fun there => { there with stage := stage there }) :
    ∀ conn attempt stage, held' = some ⟨conn, attempt, stage⟩ →
      ∃ stage', held = some ⟨conn, attempt, stage'⟩ := by
  intro conn attempt stage there
  obtain ⟨change, same⟩ := staged
  rw [same, Option.map_eq_some_iff] at there
  obtain ⟨before, found, stays⟩ := there
  cases stays
  exact ⟨before.stage, found⟩

theorem held_of_same {held held' : Option Held} (same : held' = held) :
    ∀ conn attempt stage, held' = some ⟨conn, attempt, stage⟩ →
      ∃ stage', held = some ⟨conn, attempt, stage'⟩ := by
  intro conn attempt stage there
  exact ⟨stage, same ▸ there⟩

theorem number_setTask {talk : Talk} {conn : Nat} {phase : Phase}
    (stays : phase.number = none ∨ phase.number = (talk.phaseAt conn).number) (slot : Slot)
    (role : Role) : ∀ other number,
      ((({ talk with slot }).setTask conn role phase).phaseAt other).number = some number →
      (talk.phaseAt other).number = some number := by
  intro other number told
  rw [phaseAt_setTask] at told
  by_cases same : other = conn
  · subst same
    rw [update_self] at told
    rcases stays with none_ | stays
    · rw [none_] at told
      cases told
    · rw [← stays]
      exact told
  · rw [update_of_ne same] at told
    exact told

/-- Events that are no numbers change nothing on screen. -/
theorem foldl_shows_silent {new : List Told}
    (silent : ∀ told ∈ new, ∀ role number attempt theirs,
      told.event ≠ .number role number attempt theirs) (screen : Option (Nat × String)) :
    new.foldl Told.shows screen = screen := by
  induction new generalizing screen with
  | nil => rfl
  | cons told rest ih =>
    rw [foldl_cons, shows_of_event (silent told (by simp))]
    exact ih (fun later member => silent later (by simp [member])) screen

theorem Last.works {view : View} (last : Last view) {conn : Nat} {role : Role} {phase : Phase}
    {act : TaskAct} {talk : Talk} {told : List Told} (kept : Kept view.talk)
    (found : view.talk.tasks conn = some ⟨role, phase⟩)
    (does : Works view.talk conn role phase act talk told) :
    Last { view with talk, queue := view.queue ++ told } := by
  have here := phaseAt_of_found found
  have screen : (∀ event ∈ told, ∀ role number attempt theirs,
      event.event ≠ .number role number attempt theirs) → ∀ shown, Only view.screen shown →
      Only (View.screen { view with talk, queue := view.queue ++ told }) shown := by
    intro silent shown only
    simp only [View.screen, works_ceremony does, foldl_append, foldl_shows_silent silent]
    exact only
  have released : ∀ {ticket : Ticket}, phase.ticket = some ticket →
      (view.talk.slot.release ticket.attempt).held = none := by
    intro ticket holds
    obtain ⟨stage, there⟩ := kept.holds.holds (here ▸ holds)
    simp [Slot.release, there]
  cases does with
  | waits => exact last.of (held_of_same rfl) (fun _ _ told => told) (screen (by simp))
  | sends asks counted free unsent untold =>
    exact last.of (held_of_same rfl) (number_setTask (.inl rfl) _ _) (screen (by simp))
  | leaves asks asked | slips sent shows | fails counts | refused sent taken =>
    exact last.of (held_of_same (dropArrival_held ..)) (number_setTask (.inl rfl) _ _)
      (screen (by simp))
  | @reaches arrival number theirs ticket sent free made =>
    intro conn' attempt stage number' there shown other onScreen
    rw [setTask_slot, dropArrival_held] at there
    cases there
    rw [setTask_phaseAt] at shown
    cases shown
    simp only [View.screen, foldl_append] at onScreen
    cases onScreen
    rfl
  | answers holds stage =>
    exact last.of (held_of_same rfl) (number_setTask (.inr (by rw [here, holds]; rfl)) _ _)
      (screen (by simp))
  | greets answered shows =>
    exact last.of (held_of_same rfl) (number_setTask (.inr (by rw [here, answered]; rfl)) _ _)
      (screen (by simp))
  | hears listens =>
    refine last.of (held_of_same rfl) (number_setTask (.inr ?_) _ _) (screen (by simp))
    rw [here]
    rcases listens with ⟨rfl, _⟩ | rfl
    · rfl
    · rfl
  | finishes holds | stops holds isOver =>
    intro _ _ _ _ there
    rw [setTask_slot, released holds] at there
    cases there
  | @pairs ticket number confirmed settled =>
    intro _ _ _ _ there
    rw [setTask_slot, released (by rw [confirmed, Phase.ticket])] at there
    cases there

section Lowercase

variable [Lowercase] {machine : Machine} {fp : Fingerprint} {act : Act} {view : View}

theorem Last.moves (kept : Kept (machine.talks fp)) (last : Last (machine.view fp))
    (moves : Moves machine fp act view) : Last view := by
  have blank : ∀ {told rest}, (machine.view fp).queue = told :: rest → ∀ shown,
      Only (machine.view fp).screen shown → Only (rest.foldl Told.shows none) shown := by
    intro told rest queued shown only
    rw [View.screen, queued, foldl_cons] at only
    exact only.blank
  cases moves with
  | elsewhere grown | adjusts leased => exact last
  | busy unused | begins asked unused free counted =>
    exact last.of (held_of_same rfl) (number_setTask (.inl rfl) _ _) fun _ only => only
  | works found does => exact last.works kept found does
  | shown first queued event waits | ignores queued event onScreen other =>
    refine last.of (held_of_same rfl) (fun _ _ told => told) fun shown only => ?_
    simp only [View.screen, queued, foldl_cons, Told.shows, event] at only
    exact only
  | unshown first queued event unpaired | abandons queued event =>
    exact last.of (held_of_staged (staged_end _)) (fun _ _ told => told) (blank queued)
  | settles first queued event onScreen answered leased =>
    exact last.of (held_of_staged (staged_advance _ _ _)) (fun _ _ told => told) (blank queued)
  | drops queued event onScreen =>
    exact last.of (held_of_same rfl) (fun _ _ told => told) (blank queued)
  | picks named onScreen unanswered right =>
    refine last.of (held_of_staged (staged_advance _ _ _)) (fun _ _ told => told)
      fun shown only => ?_
    have before : (machine.view fp).talk.ceremony = some _ := onScreen
    rw [View.screen, before] at only
    exact only
  | cancels named asked | forgets asked =>
    exact last.of (held_of_staged (staged_end _)) (fun _ _ told => told) fun _ only => only.blank
  | expires unshown | approves named left =>
    exact last.of (held_of_same rfl) (fun _ _ told => told) fun _ only => only

/-! ## Every confirmation is that of what is on screen -/

/-- A task that told its number reads the other machine's confirmation. -/
def Hears (fp : Fingerprint) (shown : Nat × String) (step : Machine × Act) : Prop :=
  ∃ conn role phase ticket, step.2 = .task fp conn (.hear true) ∧
    (step.1.talks fp).tasks conn = some ⟨role, phase⟩ ∧
    (phase = .answered ticket shown.2 ∧ role = .pick ∨ phase = .greeted ticket shown.2) ∧
    ticket.attempt = shown.1

theorem Faithful.moves {Heard : Nat × String → Prop} (kept : Kept (machine.talks fp))
    (last : Last (machine.view fp))
    (faithful : Faithful Heard ((machine.talks fp).ceremony.map Ceremony.shows)
      (machine.view fp).queue)
    (moves : Moves machine fp act view)
    (heard : ∀ shown, Hears fp shown (machine, act) → Heard shown) :
    Faithful Heard (view.talk.ceremony.map Ceremony.shows) view.queue := by
  have tail : ∀ {told rest}, (machine.view fp).queue = told :: rest →
      Faithful Heard (told.shows ((machine.talks fp).ceremony.map Ceremony.shows)) rest := by
    intro told rest queued
    rw [queued] at faithful
    exact faithful.2
  cases moves with
  | elsewhere grown | busy unused | begins asked unused free counted | expires unshown
  | approves named left | adjusts leased => exact faithful
  | @works conn act role phase talk told found does =>
    rw [works_ceremony does]
    refine faithful.append ?_
    cases does with
    | @hears ticket number listens =>
      refine ⟨fun _ => ⟨number, heard _ ⟨_, _, _, ticket, rfl, found, listens, rfl⟩, ?_⟩, trivial⟩
      obtain ⟨holds, told⟩ : phase.ticket = some ticket ∧ phase.number = some number := by
        rcases listens with ⟨rfl, _⟩ | rfl
        · exact ⟨rfl, rfl⟩
        · exact ⟨rfl, rfl⟩
      rw [← phaseAt_of_found found] at holds told
      obtain ⟨stage, there⟩ := kept.holds.holds holds
      exact last _ _ stage number there told
    | _ => exact faithful_silent (by simp)
  | shown first queued event waits | ignores queued event onScreen other =>
    have rest := tail queued
    simp only [Told.shows, event] at rest
    exact rest
  | unshown first queued event unpaired | settles first queued event onScreen answered leased
  | abandons queued event | drops queued event onScreen => exact (tail queued).blank
  | picks named onScreen unanswered right =>
    rw [onScreen] at faithful
    exact faithful
  | cancels named asked | forgets asked => exact faithful.blank

/-! ## What led to a number on screen -/

/-- The pairing is gone, or the approval that waited. -/
def Forgets (fp : Fingerprint) (step : Machine × Act) : Prop :=
  step.1.store.waiting fp.1 ≠ none ∧ (step.1.step step.2).store.waiting fp.1 = none

/-- The person here approves `fp`, and the approval waits for its number. -/
def GivesApproval (fp : Fingerprint) (step : Machine × Act) : Prop :=
  ∃ spelled reading label controller clipboard,
    step.2 = .approve spelled reading label controller clipboard true ∧
    Fingerprint.of spelled = some fp ∧ (step.1.step step.2).store.waiting fp.1 = some false

def ReadsNumber (fp : Fingerprint) (shown : Nat × String) (step : Machine × Act) : Prop :=
  ∃ reading randomness told role theirs, step.2 = .dequeue reading randomness ∧
    step.1.queue.head? = some (fp, told) ∧ told.event = .number role shown.2 shown.1 theirs

/-- The person here answers with this number. -/
def PicksNumber (fp : Fingerprint) (shown : Nat × String) (step : Machine × Act) : Prop :=
  ∃ spelled number, step.2 = .confirmPairing spelled number ∧
    Fingerprint.of spelled = some fp ∧ trim number = shown.2

/-- What holds wherever a run stands: how the approval and the number on screen came about. -/
structure Agreed (fp : Fingerprint) (past : List (Machine × Act)) (machine : Machine) : Prop where
  sound : machine.Sound
  kept : Kept (machine.talks fp)
  waits : Waits (machine.view fp)
  last : Last (machine.view fp)
  faithful : Faithful (fun shown => ∃ step ∈ past, Hears fp shown step)
    ((machine.talks fp).ceremony.map Ceremony.shows) (machine.view fp).queue
  approved : machine.store.waiting fp.1 = some false →
    SinceLast (Forgets fp) [GivesApproval fp] past
  shown : ∀ ceremony, (machine.talks fp).ceremony = some ceremony →
    SinceLast (Forgets fp) [GivesApproval fp, ReadsNumber fp ceremony.shows] past
  picked : ∀ ceremony, (machine.talks fp).ceremony = some ceremony → ceremony.answered = true →
    SinceLast (Forgets fp)
      [GivesApproval fp, ReadsNumber fp ceremony.shows, PicksNumber fp ceremony.shows] past

theorem Moves.given (moves : Moves machine fp act view)
    (before : (machine.view fp).lease ≠ some false) (after : view.lease = some false) :
    ∃ spelled reading label controller clipboard,
      act = .approve spelled reading label controller clipboard true ∧
      Fingerprint.of spelled = some fp := by
  cases moves with
  | elsewhere grown | busy unused | begins asked unused free counted | works found does
  | shown first queued event waits | unshown first queued event unpaired
  | ignores queued event onScreen other | picks named onScreen unanswered right =>
    exact absurd after before
  | settles first queued event onScreen answered leased | forgets asked | adjusts leased =>
    cases after
  | abandons queued event | drops queued event onScreen | cancels named asked | expires unshown =>
    exact absurd after (unlessWaiting_ne _)
  | approves named left => exact ⟨_, _, _, _, _, rfl, named⟩

theorem Moves.onScreen (moves : Moves machine fp act view) {ceremony : Ceremony}
    (onScreen : view.talk.ceremony = some ceremony) :
    (machine.talks fp).ceremony = some ceremony ∨
      (ReadsNumber fp ceremony.shows (machine, act) ∧ ceremony.answered = false ∧
        machine.store.waiting fp.1 = some false) ∨
      ∃ before, (machine.talks fp).ceremony = some before ∧ before.shows = ceremony.shows ∧
        PicksNumber fp ceremony.shows (machine, act) := by
  cases moves with
  | elsewhere grown | busy unused | begins asked unused free counted
  | ignores queued event shown other | expires unshown | approves named left | adjusts leased =>
    exact .inl onScreen
  | works found does =>
    rw [works_ceremony does] at onScreen
    exact .inl onScreen
  | shown first queued event waits =>
    cases onScreen
    exact .inr (.inl ⟨⟨_, _, _, _, _, rfl, first, event⟩, rfl, waits⟩)
  | unshown first queued event unpaired | settles first queued event shown answered leased
  | abandons queued event | drops queued event shown | cancels named asked | forgets asked =>
    cases onScreen
  | picks named shown unanswered right =>
    cases onScreen
    exact .inr (.inr ⟨_, shown, rfl, _, _, rfl, named, right⟩)

variable {store : TrustStore}

theorem Agreed.start (formed : Formed store) (driven : Driven store)
    (settled : store.waiting fp.1 ≠ some false) : Agreed fp [] (.start store) where
  sound := ⟨formed, driven⟩
  kept := Kept.fresh
  waits _ onScreen := by cases onScreen
  last _ _ _ _ there := by cases there
  faithful := trivial
  approved waiting := absurd waiting settled
  shown _ onScreen := by cases onScreen
  picked _ onScreen := by cases onScreen

theorem Agreed.step {past : List (Machine × Act)} (agreed : Agreed fp past machine) (act : Act) :
    Agreed fp (past ++ [(machine, act)]) (machine.step act) := by
  have moves := agreed.sound.step_moves act fp
  have waits := agreed.waits.moves moves
  have remembers : (machine.step act).store.waiting fp.1 = some false →
      ¬ Forgets fp (machine, act) := by
    intro waiting forgets
    rw [forgets.2] at waiting
    cases waiting
  refine
    { sound := agreed.sound.step act
      kept := agreed.kept.moves moves
      waits := waits
      last := agreed.last.moves agreed.kept moves
      faithful := ?_
      approved := ?_
      shown := ?_
      picked := ?_ }
  · have before : Faithful (fun shown => ∃ step ∈ past ++ [(machine, act)], Hears fp shown step)
        ((machine.talks fp).ceremony.map Ceremony.shows) (machine.view fp).queue := by
      refine agreed.faithful.mono ?_
      rintro shown ⟨step, member, hears⟩
      exact ⟨step, mem_append_left _ member, hears⟩
    exact before.moves agreed.kept agreed.last moves fun shown hears =>
      ⟨_, mem_append_right _ (mem_singleton_self _), hears⟩
  · intro waiting
    by_cases waited : machine.store.waiting fp.1 = some false
    · exact (agreed.approved waited).wait (remembers waiting)
    · obtain ⟨spelled, reading, label, controller, clipboard, rfl, named⟩ :=
        moves.given waited waiting
      exact (SinceLast.nothing _ past).next (remembers waiting)
        ⟨spelled, reading, label, controller, clipboard, rfl, named, waiting⟩
  · intro ceremony onScreen
    have waiting := remembers (waits ceremony onScreen)
    rcases moves.onScreen onScreen with before | ⟨reads, _, waited⟩ | ⟨before, shown, same, _⟩
    · exact (agreed.shown ceremony before).wait waiting
    · exact (agreed.approved waited).next waiting reads
    · rw [← same]
      exact (agreed.shown before shown).wait waiting
  · intro ceremony onScreen answered
    have waiting := remembers (waits ceremony onScreen)
    rcases moves.onScreen onScreen with before | ⟨_, unanswered, _⟩ | ⟨before, shown, same, picks⟩
    · exact (agreed.picked ceremony before answered).wait waiting
    · rw [unanswered] at answered
      cases answered
    · have read := agreed.shown before shown
      rw [same] at read
      exact read.next waiting picks

/-! ## The one door -/

def ReadsEnd (fp : Fingerprint) (attempt : Nat) (step : Machine × Act) : Prop :=
  ∃ reading randomness told why, step.2 = .dequeue reading randomness ∧
    step.1.queue.head? = some (fp, told) ∧ told.event = .ended why attempt

/-- The person here names another number than the one on screen, which waits for an answer. -/
def PicksWrong (fp : Fingerprint) (step : Machine × Act) : Prop :=
  ∃ spelled number ceremony, step.2 = .confirmPairing spelled number ∧
    Fingerprint.of spelled = some fp ∧ (step.1.talks fp).ceremony = some ceremony ∧
    ceremony.answered = false ∧ trim number ≠ ceremony.number

def Cancels (fp : Fingerprint) (step : Machine × Act) : Prop :=
  ∃ spelled, step.2 = .cancelPairing spelled ∧ Fingerprint.of spelled = some fp

def Removes (fp : Fingerprint) (step : Machine × Act) : Prop :=
  (∃ spelled, step.2 = .remove spelled ∧ Fingerprint.of spelled = some fp) ∨ step.2 = .removedBy fp

/-- The end of the attempt on screen is read, or of any while no number is. -/
def EndsPairing (fp : Fingerprint) (step : Machine × Act) : Prop :=
  ∃ attempt, ReadsEnd fp attempt step ∧
    ∀ ceremony, (step.1.talks fp).ceremony = some ceremony → ceremony.attempt = attempt

/-- A lease comes to be confirmed only by the confirmation of an answered number. -/
theorem Moves.settled (moves : Moves machine fp act view)
    (before : (machine.view fp).lease ≠ some true) (after : view.lease = some true) :
    ∃ reading randomness told ceremony, act = .dequeue reading randomness ∧
      machine.queue.head? = some (fp, told) ∧ told.event = .peerConfirmed ∧
      (machine.talks fp).ceremony = some ceremony ∧ ceremony.answered = true := by
  have dropped : unlessWaiting (machine.view fp).lease ≠ some true := by
    rw [Ne, unlessWaiting_true]
    exact before
  cases moves with
  | elsewhere grown | busy unused | begins asked unused free counted | works found does
  | shown first queued event waits | unshown first queued event unpaired
  | ignores queued event onScreen other | picks named onScreen unanswered right =>
    exact absurd after before
  | settles first queued event onScreen answered leased =>
    exact ⟨_, _, _, _, rfl, first, event, onScreen, answered⟩
  | abandons queued event | drops queued event onScreen | cancels named asked | expires unshown =>
    exact absurd after dropped
  | forgets asked | adjusts leased => cases after
  | approves named left =>
    rcases left with left | ⟨_, left⟩
    · rw [left] at after
      cases after
    · exact absurd left before

/-- Reading an event deals with the machine it is about. -/
theorem step_dequeue {told : Told} (first : machine.queue.head? = some (fp, told)) (reading : Nat)
    (randomness : Bool) :
    (machine.step (.dequeue reading randomness)).store =
      ((machine.desk fp).handle fp reading randomness told.event).store := by
  obtain ⟨rest, queue⟩ := head?_eq_some_iff.mp first
  simp only [Machine.step, queue]
  rfl

theorem ended_leaves_none (step : Machine × Act)
    (ends : PicksWrong fp step ∨ Cancels fp step ∨ Removes fp step ∨ EndsPairing fp step) :
    (step.1.step step.2).store.waiting fp.1 ≠ some false := by
  obtain ⟨machine, act⟩ := step
  have forgot : ∀ desk : Desk, (desk.forgetPairing fp).store.waiting fp.1 ≠ some false := by
    intro desk
    rw [waiting_forgetPairing]
    exact unlessWaiting_ne _
  have gone : ((machine.desk fp).forgetMachine fp).store.waiting fp.1 ≠ some false := by
    simp [Desk.forgetMachine, Desk.endCeremony, waiting_forget _ fp.2]
  rcases ends with ⟨spelled, number, ceremony, rfl, named, onScreen, unanswered, wrong⟩ |
    ⟨spelled, rfl, named⟩ | (⟨spelled, rfl, named⟩ | rfl) |
    ⟨attempt, ⟨reading, randomness, told, why, rfl, first, event⟩, onScreen⟩
  · have dealt : (machine.desk fp).answerPairing fp number =
        (machine.desk fp).endCeremony.forgetPairing fp := by
      simp only [Desk.answerPairing, Machine.desk]
      rw [onScreen]
      simp [unanswered, wrong]
    simp only [Machine.step, Machine.request, named, dealt]
    exact forgot _
  · simp only [Machine.step, Machine.request, named]
    exact forgot _
  · simp only [Machine.step, Machine.request, named]
    exact gone
  · simp only [Machine.step, Machine.atDesk, Desk.removedBy]
    split
    · exact gone
    · rename_i unknown
      have unleased : machine.store.leaseAt fp.1 = none := by
        simp only [Machine.desk, key_of_valid fp.2, Bool.not_eq_true] at unknown
        simp [leaseAt, Std.ExtTreeMap.getElem?_eq_none_of_contains_eq_false unknown]
      rw [Machine.desk, waiting_none.mpr unleased]
      simp
  · rw [step_dequeue first, event]
    have dealt : (machine.desk fp).pairingEnded fp attempt =
        ({ machine.desk fp with
          talk := { (machine.desk fp).talk with ceremony := none } }).forgetPairing fp := by
      unfold Desk.pairingEnded
      rw [if_neg]
      intro other
      simp only [Option.any_eq_true, bne_iff_ne] at other
      obtain ⟨ceremony, shown, different⟩ := other
      exact different (onScreen ceremony shown)
    rw [Desk.handle, dealt]
    exact forgot _

theorem ended_keeps_confirmed {step : Machine × Act} {attempt : Nat}
    (ends : ReadsEnd fp attempt step) (confirmed : step.1.store.waiting fp.1 = some true) :
    (step.1.step step.2).store.waiting fp.1 = some true := by
  obtain ⟨machine, act⟩ := step
  obtain ⟨reading, randomness, told, why, rfl, first, event⟩ := ends
  rw [step_dequeue first, event, Desk.handle, Desk.pairingEnded]
  split
  · exact confirmed
  · rw [waiting_forgetPairing]
    exact unlessWaiting_true.mpr confirmed

/--
Wherever a run stands: a lease comes to be confirmed only at the one door, by
the confirmation of the attempt on screen, after an approval, that number and its
pick with nothing forgotten in between; what ends a pairing leaves no approval
that waits; and the end of an attempt leaves a confirmed lease.
-/
theorem confirmed_after_both_agreed {store : TrustStore} (formed : Formed store)
    (driven : Driven store) (fp : Fingerprint) (settled : store.waiting fp.1 ≠ some false)
    (acts : List Act) (past later : List (Machine × Act)) (step : Machine × Act)
    (split : trace Machine.step (.start store) acts = past ++ step :: later) :
    (step.1.store.waiting fp.1 ≠ some true →
      (step.1.step step.2).store.waiting fp.1 = some true →
      ∃ reading randomness told ceremony, step.2 = .dequeue reading randomness ∧
        step.1.queue.head? = some (fp, told) ∧ told.event = .peerConfirmed ∧
        (step.1.step step.2).store = ((step.1.desk fp).settlePairing fp).store ∧
        (step.1.talks fp).ceremony = some ceremony ∧ ceremony.attempt = told.by_ ∧
        SinceLast (Forgets fp) [GivesApproval fp, ReadsNumber fp ceremony.shows,
          PicksNumber fp ceremony.shows] past ∧
        ∃ earlier ∈ past, Hears fp ceremony.shows earlier) ∧
    (PicksWrong fp step ∨ Cancels fp step ∨ Removes fp step ∨ EndsPairing fp step →
      (step.1.step step.2).store.waiting fp.1 ≠ some false) ∧
    (∀ attempt, ReadsEnd fp attempt step → step.1.store.waiting fp.1 = some true →
      (step.1.step step.2).store.waiting fp.1 = some true) := by
  have agreed : Agreed fp ([] ++ past) step.1 :=
    trace_inv Machine.step (fun _ _ act before _ => before.step act)
      (Agreed.start formed driven settled) (fun _ _ => trivial) split
  refine ⟨fun before after => ?_, ended_leaves_none step,
    fun attempt ends confirmed => ended_keeps_confirmed ends confirmed⟩
  obtain ⟨reading, randomness, told, ceremony, dequeues, first, event, onScreen, answered⟩ :=
    (agreed.sound.step_moves step.2 fp).settled before after
  have stored : (step.1.step step.2).store = ((step.1.desk fp).settlePairing fp).store := by
    rw [dequeues, step_dequeue first, event, Desk.handle]
  obtain ⟨rest, queue⟩ := head?_eq_some_iff.mp first
  have faithful := agreed.faithful
  rw [onScreen, Option.map_some, Machine.view, queue, about_cons] at faithful
  obtain ⟨number, ⟨earlier, member, hears⟩, only⟩ := faithful.1 event
  have same : ceremony.shows = (told.by_, number) := only _ rfl
  refine ⟨reading, randomness, told, ceremony, dequeues, first, event, stored, onScreen,
    congrArg Prod.fst same, agreed.picked ceremony onScreen answered, earlier, member, ?_⟩
  rw [same]
  exact hears

/-! ## Runs of one pairing -/

/-- Two connections of an approved machine, of which the first has its number on screen. -/
def shownNumber (fp : Fingerprint) : List Act :=
  [.approve fp.1 0 "" .both false true, .accept fp 0 0, .accept fp 1 0,
    .task fp 0 (.maySend false), .task fp 0 (.compared "123456" none), .dequeue 0 true]

/-- Another connection fails while the number of the first is on screen. -/
def endedElsewhere (fp : Fingerprint) : List Act :=
  shownNumber fp ++ [.task fp 1 (.failed .notSupported false), .dequeue 0 true]

/-- The right number is picked, and then another. -/
def pickedTwice (fp : Fingerprint) : List Act :=
  shownNumber fp ++ [.confirmPairing fp.1 "123456", .confirmPairing fp.1 "654321"]

/-- The right number is picked and the other machine confirms. -/
def bothAgree (fp : Fingerprint) : List Act :=
  shownNumber fp ++ [.confirmPairing fp.1 "123456", .task fp 0 .look, .task fp 0 (.hear true),
    .dequeue 0 true]

attribute [local simp] Machine.start Machine.step Machine.request Machine.atDesk Machine.desk
  Machine.arrive Desk.addAuthorizedKey Desk.handle Desk.showPairingNumber Desk.pairingEnded
  Desk.answerPairing Desk.settlePairing Talk.begin_ Talk.act Talk.setTask Talk.reach Talk.fail
  Slot.begin_ Slot.spent Slot.maySend Slot.hold Slot.dropArrival Slot.told Slot.answered
  Slot.advance Slot.stage Arriving.count CeremonyError.possible beforeNumber Fingerprint.of_valid
  isPairing_approved capabilities_approved waiting_approved

theorem endedElsewhere_waits (unknown : store.entries[fp.1]? = none) :
    ∃ past step, trace Machine.step (.start store) (endedElsewhere fp) = past ++ [step] ∧
      ReadsEnd fp 2 step ∧ (step.1.step step.2).store.waiting fp.1 = some false := by
  have approves := issueAnswered_unknown unknown
  refine ⟨trace Machine.step (.start store) (endedElsewhere fp).dropLast,
    ((endedElsewhere fp).dropLast.foldl Machine.step (.start store), .dequeue 0 true), rfl,
    ⟨0, true, ⟨2, .ended .noComparison 2⟩, .noComparison, rfl, ?_, rfl⟩, ?_⟩
  · cases kept : keeps .pick store.ours fp.1 <;>
      simp [endedElsewhere, shownNumber, approves, kept]
  · cases kept : keeps .pick store.ours fp.1 <;>
      simp [endedElsewhere, shownNumber, approves, kept]

theorem pickedTwice_waits (unknown : store.entries[fp.1]? = none) :
    ∃ past step ceremony, trace Machine.step (.start store) (pickedTwice fp) = past ++ [step] ∧
      step.2 = .confirmPairing fp.1 "654321" ∧
      (step.1.talks fp).ceremony = some ceremony ∧ trim "654321" ≠ ceremony.number ∧
      (step.1.step step.2).store.waiting fp.1 = some false := by
  have approves := issueAnswered_unknown unknown
  have plain : trim "123456" = "123456" := by decide
  refine ⟨trace Machine.step (.start store) (pickedTwice fp).dropLast,
    ((pickedTwice fp).dropLast.foldl Machine.step (.start store), .confirmPairing fp.1 "654321"),
    ⟨.pick, 1, "123456", true, none⟩, rfl, rfl, ?_, by decide, ?_⟩
  · cases kept : keeps .pick store.ours fp.1 <;>
      simp [pickedTwice, shownNumber, approves, kept, plain]
  · cases kept : keeps .pick store.ours fp.1 <;>
      simp [pickedTwice, shownNumber, approves, kept, plain]

theorem bothAgree_settles (unknown : store.entries[fp.1]? = none) :
    ∃ past step, trace Machine.step (.start store) (bothAgree fp) = past ++ [step] ∧
      step.1.store.waiting fp.1 = some false ∧
      (step.1.step step.2).store.waiting fp.1 = some true := by
  have approves := issueAnswered_unknown unknown
  have plain : trim "123456" = "123456" := by decide
  obtain ⟨next, accepted⟩ : ∃ next, (approvedStore store fp).confirm fp.1 = .ok next := by
    simp [confirm, key_of_valid fp.2, leaseAt, approvedStore, setLease]
  have confirmed := (waiting_confirm fp.2 accepted).2
  refine ⟨trace Machine.step (.start store) (bothAgree fp).dropLast,
    ((bothAgree fp).dropLast.foldl Machine.step (.start store), .dequeue 0 true), rfl, ?_, ?_⟩
  · cases kept : keeps .pick store.ours fp.1 <;>
      simp [bothAgree, shownNumber, approves, kept, plain]
  · cases kept : keeps .pick store.ours fp.1 <;>
      simp [bothAgree, shownNumber, approves, kept, plain, accepted, confirmed]

end Lowercase

/-- Both people agree on the number, and the lease is confirmed. -/
theorem confirmed_after_both_agreed_once :
    letI := asciiLowercase
    let fp : Fingerprint := ⟨machineB, machineB_valid⟩
    ∃ past step, trace Machine.step (.start freshStore) (bothAgree fp) = past ++ [step] ∧
      step.1.store.waiting fp.1 = some false ∧
      (step.1.step step.2).store.waiting fp.1 = some true ∧
      ∃ ceremony, (step.1.talks fp).ceremony = some ceremony ∧
        SinceLast (Forgets fp) [GivesApproval fp, ReadsNumber fp ceremony.shows,
          PicksNumber fp ceremony.shows] past := by
  let _ := asciiLowercase
  intro fp
  obtain ⟨past, step, split, waits, confirmed⟩ := @bothAgree_settles _ fp freshStore rfl
  have formed : Formed freshStore := formed_new (new_of_valid machineA_valid 0)
  have driven : Driven freshStore := by simp [Driven, leaseAt, freshStore]
  have settled : freshStore.waiting fp.1 ≠ some false := by simp [waiting, leaseAt, freshStore]
  obtain ⟨_, _, _, ceremony, _, _, _, _, onScreen, _, since, _⟩ :=
    (confirmed_after_both_agreed formed driven fp settled (bothAgree fp) past [] step split).1
      (by rw [waits]; decide) confirmed
  exact ⟨past, step, split, waits, confirmed, ceremony, onScreen, since⟩

/--
Two ends of a run that leave an approval waiting: the end of an attempt that is
not on screen, and another number after the right one.
-/
theorem waits_after_end_and_wrong_pick :
    letI := asciiLowercase
    let fp : Fingerprint := ⟨machineB, machineB_valid⟩
    (∃ past step, trace Machine.step (.start freshStore) (endedElsewhere fp) = past ++ [step] ∧
      ReadsEnd fp 2 step ∧ (step.1.step step.2).store.waiting fp.1 = some false) ∧
    ∃ past step ceremony,
      trace Machine.step (.start freshStore) (pickedTwice fp) = past ++ [step] ∧
      step.2 = .confirmPairing fp.1 "654321" ∧
      (step.1.talks fp).ceremony = some ceremony ∧ trim "654321" ≠ ceremony.number ∧
      (step.1.step step.2).store.waiting fp.1 = some false :=
  ⟨@endedElsewhere_waits asciiLowercase _ freshStore rfl,
    @pickedTwice_waits asciiLowercase _ freshStore rfl⟩

end HopsFormal.Pairing
