import HopsFormal.Pairing.Machine

/-!
# What one task can do

`Works` lists everything a task can do between two awaits: to the board, to
itself, and what it tells the service.
-/

namespace HopsFormal.Pairing

def Phase.arrival : Phase → Option Arrival
  | .arriving arrival | .sent arrival => some arrival
  | _ => none

def Phase.ticket : Phase → Option Ticket
  | .holding ticket _ | .answered ticket _ | .greeted ticket _ | .confirmed ticket _ =>
    some ticket
  | _ => none

def Phase.number : Phase → Option String
  | .holding _ number | .answered _ number | .greeted _ number | .confirmed _ number =>
    some number
  | _ => none

theorem setTask_found (talk : Talk) (conn : Nat) (role : Role) (phase : Phase) :
    (talk.setTask conn role phase).tasks conn = some ⟨role, phase⟩ := by
  simp [Talk.setTask]

variable {conn : Nat} {talk : Talk} {role : Role} {phase : Phase}

theorem setTask_elsewhere (talk : Talk) {other : Nat} (different : other ≠ conn) (role : Role)
    (phase : Phase) : (talk.setTask conn role phase).tasks other = talk.tasks other := by
  simp [Talk.setTask, different]

/-- Everything a task can do on one connection. -/
inductive Works (talk : Talk) (conn : Nat) (role : Role) (phase : Phase) :
    TaskAct → Talk → List Told → Prop where
  | waits {act : TaskAct} : Works talk conn role phase act talk []
  | sends {arrival : Arrival} {arriving : Arriving} {closed : Bool}
      (asks : phase = .arriving arrival) (counted : talk.slot.arriving = some arriving)
      (free : talk.slot.held = none) (unsent : arriving.sent = false)
      (untold : arriving.told = false) :
      Works talk conn role phase (.maySend closed)
        (({ talk with
            slot := { talk.slot with arriving := some { arriving with sent := true } } }).setTask
          conn role (.sent arrival)) []
  | leaves {arrival : Arrival} {act : TaskAct} (asks : phase = .arriving arrival)
      (asked : (∃ closed, act = .maySend closed) ∨ ∃ error, act = .failed error true) :
      Works talk conn role phase act (talk.leave conn role arrival).1 []
  | slips {arrival : Arrival} (sent : phase = .sent arrival) (shows : role = .show_) :
      Works talk conn role phase (.failed .noRandomness true) (talk.leave conn role arrival).1 []
  | fails {arrival : Arrival} {why : Why} {error : CeremonyError} {closed : Bool}
      (counts : phase.arrival = some arrival) :
      Works talk conn role phase (.failed error closed)
        (({ talk with slot := talk.slot.told.dropArrival arrival }).setTask conn role .isOver)
        [⟨arrival.attempt, .ended why arrival.attempt⟩]
  | reaches {arrival : Arrival} {number : String} {theirs : Option Nat} {ticket : Ticket}
      (sent : phase = .sent arrival) (free : talk.slot.held = none)
      (made : ticket = ⟨arrival.attempt, theirs.bind Answer.fromWire⟩) :
      Works talk conn role phase (.compared number theirs)
        (({ talk with
            slot := ({ talk.slot with
              held := some ⟨conn, arrival.attempt, .comparing⟩ }).dropArrival arrival }).setTask
          conn role (.holding ticket number))
        [⟨arrival.attempt, .number role number arrival.attempt ticket.theirs⟩]
  | refused {arrival : Arrival} {number : String} {theirs : Option Nat}
      (sent : phase = .sent arrival) (taken : talk.slot.held.isSome = true) :
      Works talk conn role phase (.compared number theirs) (talk.leave conn role arrival).1 []
  | answers {ticket : Ticket} {number : String} (holds : phase = .holding ticket number)
      (stage : talk.slot.stage ticket.attempt = .answered) :
      Works talk conn role phase .look (talk.setTask conn role (.answered ticket number)) []
  | greets {ticket : Ticket} {number : String} (answered : phase = .answered ticket number)
      (shows : role = .show_) :
      Works talk conn role phase .greet (talk.setTask conn role (.greeted ticket number)) []
  | hears {ticket : Ticket} {number : String}
      (listens : phase = .answered ticket number ∧ role = .pick ∨ phase = .greeted ticket number) :
      Works talk conn role phase (.hear true)
        (talk.setTask conn role (.confirmed ticket number)) [⟨ticket.attempt, .peerConfirmed⟩]
  | finishes {ticket : Ticket} {why : Why} {act : TaskAct} (holds : phase.ticket = some ticket) :
      Works talk conn role phase act
        (({ talk with slot := talk.slot.release ticket.attempt }).setTask conn role .isOver)
        [⟨ticket.attempt, .ended why ticket.attempt⟩]
  | stops {ticket : Ticket} {act : TaskAct} (holds : phase.ticket = some ticket)
      (isOver : talk.slot.stage ticket.attempt = .isOver) :
      Works talk conn role phase act
        (({ talk with slot := talk.slot.release ticket.attempt }).setTask conn role .isOver) []
  | pairs {ticket : Ticket} {number : String} (confirmed : phase = .confirmed ticket number)
      (settled : talk.slot.stage ticket.attempt = .settled) :
      Works talk conn role phase .look
        (({ talk with slot := talk.slot.release ticket.attempt }).setTask conn role .paired) []

theorem maySend_cases (slot : Slot) (arrival : Arrival) :
    slot.maySend arrival = (.givesUp, slot) ∨ slot.maySend arrival = (.waits, slot) ∨
      ∃ arriving, slot.arriving = some arriving ∧ slot.held = none ∧ arriving.sent = false ∧
        arriving.told = false ∧
        slot.maySend arrival =
          (.sends, { slot with arriving := some { arriving with sent := true } }) := by
  unfold Slot.maySend
  cases counted : slot.arriving with
  | none => exact .inl rfl
  | some arriving =>
    dsimp only
    split
    · exact .inl rfl
    · rename_i open_
      simp only [Bool.or_eq_true, not_or, Bool.not_eq_true, Option.isSome_eq_false_iff,
        Option.isNone_iff_eq_none] at open_
      obtain ⟨⟨free, unsent⟩, untold⟩ := open_
      split
      · exact .inr (.inr ⟨arriving, rfl, free, unsent, untold, rfl⟩)
      · exact .inr (.inl rfl)

theorem finish_works {ticket : Ticket} (holds : phase.ticket = some ticket) (act : TaskAct)
    {why : Option Why} (quiet : why = none → talk.slot.stage ticket.attempt = .isOver) :
    Works talk conn role phase act (talk.finish conn role ticket why).1
      (talk.finish conn role ticket why).2 := by
  cases why with
  | none => exact .stops holds (quiet rfl)
  | some why => exact .finishes holds

theorem whyCut_quiet {ticket : Ticket} {cause : Cause} (quiet : talk.whyCut ticket cause = none) :
    talk.slot.stage ticket.attempt = .isOver := by
  cases cause with
  | closed =>
    by_contra running
    simp [Talk.whyCut, running] at quiet
  | timedOut | deviceGone | unexpected => cases quiet

theorem fail_works {arrival : Arrival} (counts : phase.arrival = some arrival)
    {error : CeremonyError} {closed : Bool} (quiet : beforeNumber closed error = none →
      Works talk conn role phase (.failed error closed) (talk.leave conn role arrival).1 []) :
    Works talk conn role phase (.failed error closed)
      (talk.fail conn role arrival (beforeNumber closed error)).1
      (talk.fail conn role arrival (beforeNumber closed error)).2 := by
  cases why : beforeNumber closed error with
  | none => exact quiet why
  | some why => exact .fails counts

theorem beforeNumber_quiet {closed : Bool} {error : CeremonyError}
    (quiet : beforeNumber closed error = none) : closed = true ∧ error.isLate = false := by
  cases closed with
  | false => cases error <;> cases quiet
  | true =>
    refine ⟨rfl, ?_⟩
    cases late : error.isLate with
    | false => rfl
    | true => simp [beforeNumber, late] at quiet

theorem act_works (found : talk.tasks conn = some ⟨role, phase⟩) (act : TaskAct) :
    Works talk conn role phase act (talk.act conn act).1 (talk.act conn act).2 := by
  unfold Talk.act
  rw [found]
  cases act with
  | maySend closed =>
    cases phase with
    | arriving arrival =>
      dsimp only
      have quiet : Works talk conn role (.arriving arrival) (.maySend closed)
          (talk.leave conn role arrival).1 [] := .leaves rfl (.inl ⟨closed, rfl⟩)
      rcases maySend_cases talk.slot arrival with
        gaveUp | waited | ⟨arriving, counted, free, unsent, untold, sent⟩
      · rw [gaveUp]
        exact quiet
      · rw [waited]
        dsimp only
        split
        · exact quiet
        · exact .waits
      · rw [sent]
        exact .sends rfl counted free unsent untold
    | _ => exact .waits
  | failed error closed =>
    cases phase with
    | arriving arrival =>
      dsimp only
      split
      · refine fail_works rfl fun quiet => ?_
        obtain ⟨rfl, _⟩ := beforeNumber_quiet quiet
        exact .leaves rfl (.inr ⟨error, rfl⟩)
      · exact .waits
    | sent arrival =>
      dsimp only
      split
      · rename_i possible
        refine fail_works rfl fun quiet => ?_
        obtain ⟨rfl, early⟩ := beforeNumber_quiet quiet
        cases error with
        | noRandomness =>
          cases role with
          | show_ => exact .slips rfl rfl
          | pick => cases possible
        | late error => cases early
        | _ => cases possible
      · exact .waits
    | _ => exact .waits
  | compared number theirs =>
    cases phase with
    | sent arrival =>
      simp only [Talk.reach, Slot.hold]
      cases taken : talk.slot.held with
      | none => exact .reaches rfl taken rfl
      | some held => exact .refused rfl (by simp [taken])
    | _ => exact .waits
  | look =>
    cases phase with
    | holding ticket number =>
      dsimp only
      cases stage : talk.slot.stage ticket.attempt with
      | answered => exact .answers rfl stage
      | isOver => exact finish_works rfl .look fun _ => stage
      | comparing | settled => exact .waits
    | answered ticket number | greeted ticket number =>
      dsimp only
      split
      · rename_i isOver
        exact finish_works rfl .look fun _ => isOver
      · exact .waits
    | confirmed ticket number =>
      dsimp only
      cases stage : talk.slot.stage ticket.attempt with
      | settled => exact .pairs rfl stage
      | isOver => exact finish_works rfl .look fun _ => stage
      | comparing | answered => exact .waits
    | _ => exact .waits
  | interrupted cause =>
    cases phase with
    | holding ticket number | answered ticket number | greeted ticket number
    | confirmed ticket number =>
      dsimp only
      split
      · exact finish_works rfl _ whyCut_quiet
      · exact .waits
    | _ => exact .waits
  | greet =>
    cases phase with
    | answered ticket number =>
      dsimp only
      split
      · rename_i shows
        exact .greets rfl shows
      · exact .waits
    | _ => exact .waits
  | hear hello =>
    cases phase with
    | answered ticket number =>
      dsimp only
      split
      · exact .waits
      · rename_i picks
        have pick : role = .pick := by
          cases role with
          | show_ => exact absurd rfl picks
          | pick => rfl
        split
        · rename_i heard
          subst heard
          exact .hears (.inl ⟨rfl, pick⟩)
        · exact finish_works rfl _ (by simp)
    | greeted ticket number =>
      dsimp only
      split
      · rename_i heard
        subst heard
        exact .hears (.inr rfl)
      · exact finish_works rfl _ (by simp)
    | _ => exact .waits

/-- A task leaves the number on screen alone. -/
theorem works_ceremony {talk' : Talk} {act : TaskAct} {told : List Told}
    (does : Works talk conn role phase act talk' told) : talk'.ceremony = talk.ceremony := by
  cases does <;> rfl

end HopsFormal.Pairing
