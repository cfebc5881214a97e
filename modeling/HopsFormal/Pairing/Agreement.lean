import HopsFormal.Pairing.Seated
import HopsFormal.Pairing.Timed

/-!
# Both machines hold the same connection

Whatever the two machines and the connections between them do, what each has of
the other fits together: its tasks and the halves of the comparisons, and the
order in which either began and was let send.
-/

namespace HopsFormal.Pairing

open Option Function Trust TrustStore MatchCode Lib

/-! ## What the service does to the order -/

/-- A connection is taken up that had no task, and nothing that was let send. -/
structure TakesUp (talk talk' : Talk) (conn : Nat) (role : Role) (phase : Phase) : Prop where
  unused : talk.tasks conn = none
  tasks : talk'.tasks = Function.update talk.tasks conn (some ⟨role, phase⟩)
  opens : ∀ other, other ≠ conn → talk'.Open other → talk.Open other
  begins : phase = .isOver ∨ ∃ arrival, phase = .arriving arrival

variable {talk talk' : Talk} {conn other : Nat} {role : Role} {phase : Phase}

section

variable (takes : TakesUp talk talk' conn role phase)
include takes

theorem TakesUp.phaseAt (other : Nat) :
    talk'.phaseAt other = if other = conn then phase else talk.phaseAt other := by
  by_cases same : other = conn
  · rw [Talk.phaseAt, takes.tasks, same, update_self, if_pos rfl]
  · rw [Talk.phaseAt, takes.tasks, update_of_ne same, if_neg same]
    rfl

theorem TakesUp.number {number : String} (told : (talk'.phaseAt other).number = some number) :
    (talk.phaseAt other).number = some number := by
  rw [takes.phaseAt] at told
  split at told
  · rcases takes.begins with rfl | ⟨arrival, rfl⟩
    · cases told
    · cases told
  · exact told

theorem TakesUp.live (lives : talk'.Live other) : talk.Live other := by
  rw [Talk.Live, takes.phaseAt] at lives
  split at lives
  · rcases takes.begins with rfl | ⟨arrival, rfl⟩
    · rcases lives with sent | ⟨ticket, holds⟩
      · cases sent
      · cases holds
    · rcases lives with sent | ⟨ticket, holds⟩
      · cases sent
      · cases holds
  · exact lives

end

section Lowercase

variable [Lowercase]

/-- A step that is no task's leaves the tasks and the counts, or takes up a connection. -/
theorem Moves.footing {machine : Machine} {fp : Fingerprint} {act : Act} {view : View}
    (moves : Moves machine fp act view) (idle : ∀ conn task, act ≠ .task fp conn task) :
    (view.talk.tasks = (machine.talks fp).tasks ∧
        view.talk.slot.arriving = (machine.talks fp).slot.arriving) ∨
      ∃ conn role phase, TakesUp (machine.talks fp) view.talk conn role phase ∧
        (phase ≠ .isOver → (∃ reading, act = .accept fp conn reading ∧ role = .pick) ∨
          act = .dial fp conn ∧ role = .show_) := by
  cases moves with
  | @busy _ conn role unused =>
    refine .inr ⟨conn, role, .isOver, ⟨unused, rfl, ?_, .inl rfl⟩, by simp⟩
    rintro other different ⟨arrives, unsent⟩
    rw [phaseAt_setTask, update_of_ne different] at arrives
    exact ⟨arrives, unsent⟩
  | @begins _ conn role arriving asked unused free counted =>
    refine .inr ⟨conn, role, _, ⟨unused, rfl, ?_, .inr ⟨_, rfl⟩⟩, fun _ => ?_⟩
    · rintro other different ⟨arrives, unsent⟩
      rw [phaseAt_setTask, update_of_ne different] at arrives
      refine ⟨arrives, fun entry found => ?_⟩
      rcases counted with ⟨there, quiet, _⟩ | ⟨none_, _⟩
      · rw [there] at found
        cases found
        exact quiet
      · rw [none_] at found
        cases found
    · rcases asked with ⟨reading, accepts, picks, _⟩ | dials
      · exact .inl ⟨reading, accepts, picks⟩
      · exact .inr dials
  | @works conn task => exact absurd rfl (idle conn task)
  | _ => exact .inl ⟨rfl, rfl⟩

end Lowercase

/-! ## What holds wherever the two machines stand -/

/-- Every machine's tasks and connections fit together. -/
structure Linked [Sha256] (pair : Pair) (net : Net) : Prop where
  sound : ∀ side, (net.machine side).Sound
  kept : ∀ side, Kept (net.talk pair side)
  last : ∀ side, Last ((net.machine side).view (pair.peer side))
  honest : ∀ conn, (net.line conn).Honest
  begun : ∀ side conn, (net.line conn).begun (pair.dials side conn) = true →
    ((net.talk pair side).tasks conn).isSome = true
  numbers : ∀ side conn number, (net.phase pair side conn).number = some number →
    pair.number side conn (net.line conn) = some number

theorem Pair.dials_other (pair : Pair) (side : Side) (conn : Nat) :
    pair.dials side.other conn = !pair.dials side conn := by
  cases side <;> cases dials : pair.dialler conn <;> simp [Pair.dials, Side.other, dials]

theorem dials_ne {pair : Pair} {side side' : Side} (different : side' ≠ side) (conn : Nat) :
    pair.dials side' conn = !pair.dials side conn := by
  have other : side' = side.other := by
    cases side <;> cases side' <;> simp_all [Side.other]
  rw [other, pair.dials_other]

theorem task_of_phase (here : talk.phaseAt conn ≠ .isOver) : (talk.tasks conn).isSome = true := by
  cases found : talk.tasks conn with
  | none => exact absurd (phaseAt_of_unused found) here
  | some task => rfl

theorem Timed.steady {pair : Pair} {net : Net} {times : Times}
    (timed : Timed pair net times) {dials : Bool} {conn : Nat} {line : Line}
    (steady : Line.Steady dials (net.line conn) line) :
    Timed pair { net with line := Function.update net.line conn line } times := by
  refine timed.later (fun _ _ => rfl) (fun side other => ?_) (fun _ _ => id) fun _ _ => id
  by_cases same : other = conn
  · subst same
    dsimp only
    rw [update_self, steady.gone]
  · dsimp only
    rw [update_of_ne same]

theorem number_of_ticket {ticket : Ticket} (holds : phase.ticket = some ticket) :
    ∃ number, phase.number = some number := by
  cases phase with
  | holding ticket number | answered ticket number | greeted ticket number
  | confirmed ticket number => exact ⟨number, rfl⟩
  | _ => cases holds

theorem keeps_both_ends (pair : Pair) (side : Side) (conn : Nat) :
    keeps (pair.role side conn) (pair.name side).1 (pair.name side.other).1 =
      keeps (pair.role side.other conn) (pair.name side.other).1 (pair.name side).1 := by
  rw [Pair.role, Pair.role, pair.dials_other]
  cases pair.dials side conn with
  | true => exact keeps_agree _ _
  | false => exact (keeps_agree _ _).symm

theorem keeps_one (pair : Pair) (opposite : pair.dialler conn ≠ pair.dialler other) (side : Side) :
    keeps (pair.role side conn) (pair.name side).1 (pair.name side.other).1 =
      !keeps (pair.role side other) (pair.name side).1 (pair.name side.other).1 := by
  have distinct : (pair.name side).1 ≠ (pair.name side.other).1 := by
    intro same
    have names := Subtype.ext same
    cases side with
    | left => exact pair.distinct names
    | right => exact pair.distinct names.symm
  have turned : pair.dials side conn = !pair.dials side other := by
    rw [Pair.dials, Pair.dials]
    cases here : pair.dialler conn <;> cases there : pair.dialler other <;> cases side <;> simp_all
  rw [Pair.role, Pair.role, turned]
  cases pair.dials side other with
  | true =>
    have one := preferred_one distinct
    simp [keeps, one]
  | false => simpa [keeps] using preferred_one distinct

theorem onLine_begun (dials : Bool) (after : Phase) (line : Line) (task : TaskAct) (end_ : Bool) :
    (Net.onLine dials after line task).begun end_ = line.begun end_ := by
  cases task with
  | maySend closed =>
    cases dials <;> cases end_ <;> grind [Net.onLine, Line.go, Line.begun]
  | greet => rfl
  | hear hello =>
    cases dials <;> rfl
  | _ => rfl

section Perform

variable [Lowercase] {pair : Pair}

theorem Timed.eased {net : Net} {times : Times} (timed : Timed pair net times) {side : Side}
    {act : Act}
    (gone : ∀ side' conn,
      ((net.perform pair side act).line conn).gone (pair.dials side' conn) =
        (net.line conn).gone (pair.dials side' conn))
    (tasks : ∀ conn, ((((net.machine side).step act).talks (pair.peer side)).tasks conn).isSome =
      ((net.talk pair side).tasks conn).isSome)
    (eases : Eases (net.talk pair side) (((net.machine side).step act).talks (pair.peer side))) :
    Timed pair (net.perform pair side act) times := by
  refine timed.later (fun side' conn => ?_) gone (fun side' conn open_ => ?_)
    fun side' conn lives => ?_
  · rw [perform_talk]
    split
    · rename_i same
      rw [same]
      exact tasks conn
    · rfl
  · rw [perform_talk] at open_
    split at open_
    · rename_i same
      rw [same]
      exact eases.1 conn open_
    · exact open_
  · rw [perform_talk] at lives
    split at lives
    · rename_i same
      rw [same]
      exact eases.2 conn lives
    · exact lives

end Perform

section Sha256

variable [Sha256] {pair : Pair} {net : Net}

theorem Linked.start {stores : Side → TrustStore} (formed : ∀ side, Formed (stores side))
    (driven : ∀ side, Driven (stores side)) : Linked pair (.start stores) where
  sound side := ⟨formed side, driven side⟩
  kept _ := Kept.fresh
  last _ _ _ _ _ there := by cases there
  honest _ := Line.Honest.fresh
  begun side conn begun := by
    cases dials : pair.dials side conn <;> simp [Net.start, Line.begun, dials] at begun
  numbers _ _ _ told := by cases told

variable {side : Side} {conn : Nat}

theorem number_stays {line line' : Line}
    (nonces : ∀ end_ nonces, line.nonces end_ = some nonces → line'.nonces end_ = some nonces)
    {number : String} (known : pair.number side conn line = some number) :
    pair.number side conn line' = some number := by
  rw [Pair.number, map_eq_some_iff] at known ⊢
  obtain ⟨both, found, same⟩ := known
  exact ⟨both, nonces _ _ found, same⟩

/-- One end's half takes a step. -/
theorem Linked.steady (linked : Linked pair net) {side : Side} {conn : Nat} {line : Line}
    (steady : Line.Steady (pair.dials side conn) (net.line conn) line)
    (task : line.begun (pair.dials side conn) = true →
      ((net.talk pair side).tasks conn).isSome = true) :
    Linked pair { net with line := Function.update net.line conn line } where
  sound := linked.sound
  kept := linked.kept
  last := linked.last
  honest other := by
    by_cases same : other = conn
    · subst same
      simpa using steady.honest (linked.honest other)
    · simpa [same] using linked.honest other
  begun side' other begun := by
    by_cases same : other = conn
    · subst same
      dsimp only at begun
      rw [update_self] at begun
      by_cases mine : side' = side
      · subst mine
        exact task begun
      · rcases steady.begun _ begun with before | end_
        · exact linked.begun side' other before
        · rw [dials_ne mine] at end_
          simp at end_
    · dsimp only at begun
      rw [update_of_ne same] at begun
      exact linked.begun side' other begun
  numbers side' other number told := by
    have known := linked.numbers side' other number told
    by_cases same : other = conn
    · subst same
      dsimp only
      rw [update_self]
      exact number_stays steady.nonces known
    · dsimp only
      rw [update_of_ne same]
      exact known

/-- Both ends of a connection work out the same six digits. -/
theorem Linked.numbers_agree (linked : Linked pair net) {here there : String}
    (mine : pair.number side conn (net.line conn) = some here)
    (theirs : pair.number side.other conn (net.line conn) = some there) : here = there := by
  obtain ⟨mineBoth, mineFound, rfl⟩ := map_eq_some_iff.mp mine
  obtain ⟨theirBoth, theirFound, rfl⟩ := map_eq_some_iff.mp theirs
  have same : mineBoth = theirBoth := by
    rw [pair.dials_other] at theirFound
    cases dials : pair.dials side conn with
    | true =>
      rw [dials] at mineFound theirFound
      exact (linked.honest conn).nonces_agree mineFound theirFound
    | false =>
      rw [dials] at mineFound theirFound
      exact ((linked.honest conn).nonces_agree theirFound mineFound).symm
  have twice : side.other.other = side := by cases side <;> rfl
  rw [same, twice, code_comm]

/-- What a machine holds was let send on both ends, and its number is what both nonces give. -/
theorem Linked.held (linked : Linked pair net) {held : Held}
    (holds : (net.talk pair side).slot.held = some held) : (net.talk pair side).Live held.conn ∧
      (∀ end_, (net.line held.conn).gone end_ = true) ∧
      ∃ number, (net.phase pair side held.conn).number = some number ∧
        pair.number side held.conn (net.line held.conn) = some number ∧
        Only ((net.machine side).view (pair.peer side)).screen (held.attempt, number) := by
  obtain ⟨ticket, there, _⟩ := (linked.kept side).holds.held holds
  obtain ⟨number, told⟩ := number_of_ticket there
  have known := linked.numbers side held.conn number told
  obtain ⟨both, found, _⟩ := map_eq_some_iff.mp known
  refine ⟨.inr ⟨ticket, there⟩, (linked.honest held.conn).nonces_gone found, number, told, known, ?_⟩
  exact linked.last side held.conn held.attempt held.stage number holds told

/-- The two machines and their connections fit, and some times do. -/
structure Fits (pair : Pair) (net : Net) : Prop where
  linked : Linked pair net
  timed : ∃ times, Timed pair net times

theorem Fits.steady (fits : Fits pair net) {side : Side} {conn : Nat} {line : Line}
    (steady : Line.Steady (pair.dials side conn) (net.line conn) line)
    (task : line.begun (pair.dials side conn) = true →
      ((net.talk pair side).tasks conn).isSome = true) :
    Fits pair { net with line := Function.update net.line conn line } := by
  obtain ⟨times, timed⟩ := fits.timed
  exact ⟨fits.linked.steady steady task, times, timed.steady steady⟩

/-- One end's half takes a step while its task is there. -/
theorem Fits.compare (fits : Fits pair net) {stands : Phase → Bool} {change : Line → Line}
    (here : stands .isOver = false)
    (steady : ∀ line, Line.Steady (pair.dials side conn) line (change line)) :
    Fits pair (net.compare pair side conn stands change) := by
  unfold Net.compare
  split
  · rename_i there
    refine fits.steady (steady _) fun _ => task_of_phase fun isOver => ?_
    rw [Net.phase, isOver, here] at there
    cases there
  · exact fits

/-- A task's step that was not let send leaves both halves on its connection. -/
theorem onLine_steady {task : TaskAct} {after : Phase}
    (consents : net.consents pair side conn task = true)
    (quiet : (net.phase pair side conn).isArriving = true → after.isSent = false) :
    Line.Steady (pair.dials side conn) (net.line conn)
      (Net.onLine (pair.dials side conn) after (net.line conn) task) := by
  cases task with
  | maySend closed =>
    simp only [Net.consents, Bool.and_eq_true] at consents
    simp only [Net.onLine, quiet consents.1]
    exact .same _ _
  | greet => exact .greet
  | hear hello => exact .hear _
  | _ => exact .same _ _

/-- A step without a task does nothing. -/
theorem onLine_unused {task : TaskAct} (consents : net.consents pair side conn task = true)
    (unused : net.phase pair side conn = .isOver) :
    Net.onLine (pair.dials side conn) .isOver (net.line conn) task = net.line conn := by
  cases task with
  | greet => simp [Net.consents, unused] at consents
  | hear hello => simp [Net.consents, unused, Phase.listens] at consents
  | _ => rfl

section Lowercase

variable [Lowercase]

/-- What a machine's step keeps, whatever it does to the connections. -/
theorem Linked.perform (linked : Linked pair net) (side : Side) (act : Act)
    (honest : ∀ conn, ((net.perform pair side act).line conn).Honest)
    (begun : ∀ side' conn,
      ((net.perform pair side act).line conn).begun (pair.dials side' conn) = true →
        (net.line conn).begun (pair.dials side' conn) = true)
    (nonces : ∀ conn end_ nonces, (net.line conn).nonces end_ = some nonces →
      ((net.perform pair side act).line conn).nonces end_ = some nonces)
    (tasks : ∀ conn, ((net.talk pair side).tasks conn).isSome = true →
      ((((net.machine side).step act).talks (pair.peer side)).tasks conn).isSome = true)
    (numbers : ∀ conn number,
      ((((net.machine side).step act).talks (pair.peer side)).phaseAt conn).number = some number →
        pair.number side conn (net.line conn) = some number) :
    Linked pair (net.perform pair side act) := by
  have moves := (linked.sound side).step_moves act (pair.peer side)
  have machines : ∀ {P : Side → Machine → Prop}, (∀ side', P side' (net.machine side')) →
      P side ((net.machine side).step act) →
      ∀ side', P side' ((net.perform pair side act).machine side') := by
    intro P before now side'
    by_cases same : side' = side
    · subst same
      simpa [Net.perform] using now
    · simpa [Net.perform, same] using before side'
  constructor
  · exact machines linked.sound ((linked.sound side).step act)
  · exact @machines (fun side' machine => Kept (machine.talks (pair.peer side'))) linked.kept
      ((linked.kept side).moves moves)
  · exact @machines (fun side' machine => Last (machine.view (pair.peer side'))) linked.last
      ((linked.last side).moves (linked.kept side) moves)
  · exact honest
  · intro side' conn began
    have before := linked.begun side' conn (begun side' conn began)
    rw [perform_talk]
    split
    · rename_i same
      subst same
      exact tasks conn before
    · exact before
  · intro side' conn number told
    refine number_stays (nonces conn) ?_
    rw [Net.phase, perform_talk] at told
    split at told
    · rename_i same
      subst same
      exact numbers conn number told
    · exact linked.numbers side' conn number told

variable {side : Side} {conn : Nat}

section

variable (fits : Fits pair net)
include fits

/-- A machine does what is no step of a task with the other. -/
theorem Fits.idle {act : Act} (idle : ∀ conn task, act ≠ .task (pair.peer side) conn task) :
    Fits pair (net.perform pair side act) := by
  obtain ⟨linked, times, timed⟩ := fits
  have moves := (linked.sound side).step_moves act (pair.peer side)
  have lines := perform_line net idle
  have gone : ∀ side' conn,
      ((net.perform pair side act).line conn).gone (pair.dials side' conn) =
        (net.line conn).gone (pair.dials side' conn) := by
    rw [lines]
    exact fun _ _ => rfl
  have performed := linked.perform side act (lines ▸ linked.honest)
    (by rw [lines]; exact fun _ _ => id) (by rw [lines]; exact fun _ _ _ => id)
  rcases moves.footing idle with ⟨tasks, arriving⟩ | ⟨conn, role, phase, takes, _⟩
  · have phases : (((net.machine side).step act).talks (pair.peer side)).phaseAt =
        (net.talk pair side).phaseAt := by
      funext conn
      exact congrArg (fun found => (Talk.phaseAt { tasks := found } conn)) tasks
    refine ⟨performed (fun conn found => ?_) fun conn number told => ?_, times,
      timed.eased gone (fun conn => ?_) ⟨fun conn open_ => ?_, fun conn lives => ?_⟩⟩
    · exact (congrFun tasks conn).symm ▸ found
    · rw [phases] at told
      exact linked.numbers side conn number told
    · exact congrArg Option.isSome (congrFun tasks conn)
    · rw [Talk.Open, phases] at open_
      exact ⟨open_.1, fun entry found => open_.2 entry (arriving.trans found)⟩
    · rw [Talk.Live, phases] at lives
      exact lives
  · have taken : ∀ side' conn', ¬ (side' = side ∧ conn' = conn) →
        ((net.perform pair side act).talk pair side').tasks conn' =
          (net.talk pair side').tasks conn' := by
      intro side' conn' other
      rw [perform_talk]
      split
      · rename_i same
        have different : conn' ≠ conn := fun also => other ⟨same, also⟩
        rw [same]
        exact (congrFun takes.tasks conn').trans (update_of_ne different ..)
      · rfl
    have there := congrFun takes.tasks conn
    rw [update_self] at there
    refine ⟨performed (fun conn' found => ?_) fun conn' number told => ?_, _,
      timed.begins takes.unused ?_ (fun side' conn' other => ?_) gone
        (fun side' conn' open_ => ?_) fun side' conn' lives => ?_⟩
    · by_cases same : conn' = conn
      · rw [same]
        exact isSome_iff_exists.mpr ⟨_, there⟩
      · have kept := congrFun takes.tasks conn'
        rw [update_of_ne same] at kept
        exact (congrArg Option.isSome kept).trans found
    · exact linked.numbers side conn' number (takes.number told)
    · rw [perform_talk, if_pos rfl]
      exact isSome_iff_exists.mpr ⟨_, there⟩
    · rw [taken side' conn' other]
    · rw [perform_talk] at open_
      split at open_
      · rename_i same
        by_cases also : conn' = conn
        · exact .inl ⟨same, also⟩
        · rw [same]
          exact .inr (takes.opens conn' also open_)
      · exact .inr open_
    · rw [perform_talk] at lives
      split at lives
      · rename_i same
        rw [same]
        exact takes.live lives
      · exact lives

/-- A task takes a step that lets nothing send. -/
theorem Fits.eased {task : TaskAct} (steady : Line.Steady (pair.dials side conn) (net.line conn)
      (Net.onLine (pair.dials side conn) (((net.talk pair side).act conn task).1.phaseAt conn)
        (net.line conn) task))
    (eases : Eases (net.talk pair side) ((net.talk pair side).act conn task).1)
    (tasks : ∀ other, (((net.talk pair side).act conn task).1.tasks other).isSome =
      ((net.talk pair side).tasks other).isSome) (numbers : ∀ other number,
      (((net.talk pair side).act conn task).1.phaseAt other).number = some number →
        pair.number side other (net.line other) = some number) :
    Fits pair (net.perform pair side (.task (pair.peer side) conn task)) := by
  obtain ⟨linked, times, timed⟩ := fits
  have lines := perform_line_task pair net side conn task
  have talks := step_task_talk (net.machine side) (pair.peer side) conn task
  have each : ∀ {P : Nat → Line → Line → Prop}, (∀ other, P other (net.line other) (net.line other)) →
      P conn (net.line conn) (Net.onLine (pair.dials side conn)
        (((net.talk pair side).act conn task).1.phaseAt conn) (net.line conn) task) →
      ∀ other, P other (net.line other)
        ((net.perform pair side (.task (pair.peer side) conn task)).line other) := by
    intro P same here other
    rw [lines, update_apply]
    split
    · rename_i there
      rw [there]
      exact here
    · exact same other
  refine ⟨linked.perform side _ ?_ ?_ ?_ ?_ ?_, times, timed.eased ?_ ?_ ?_⟩
  · exact @each (fun _ _ line => line.Honest) linked.honest (steady.honest (linked.honest conn))
  · intro side' other began
    have same := @each (fun other before line => ∀ end_, line.begun end_ = before.begun end_)
      (fun _ _ => rfl) (onLine_begun _ _ _ _) other
    rw [← same]
    exact began
  · exact @each (fun _ before line => ∀ end_ nonces, before.nonces end_ = some nonces →
      line.nonces end_ = some nonces) (fun _ _ _ => id) steady.nonces
  · intro other found
    rw [talks]
    exact (tasks other).trans found
  · intro other number told
    rw [talks] at told
    exact numbers other number told
  · intro side' other
    exact @each (fun other before line => line.gone (pair.dials side' other) =
      before.gone (pair.dials side' other)) (fun _ => rfl) (steady.gone _) other
  · intro other
    rw [talks]
    exact tasks other
  · rw [talks]
    exact eases

theorem Fits.sends {closed : Bool} (asks : (net.line conn).asks (pair.dials side conn) = true)
    (lets : LetSend (net.talk pair side) ((net.talk pair side).act conn (.maySend closed)).1 conn)
    (tasks : ∀ other, (((net.talk pair side).act conn (.maySend closed)).1.tasks other).isSome =
      ((net.talk pair side).tasks other).isSome) (numbers : ∀ other number,
      (((net.talk pair side).act conn (.maySend closed)).1.phaseAt other).number = some number →
        pair.number side other (net.line other) = some number) :
    Fits pair (net.perform pair side (.task (pair.peer side) conn (.maySend closed))) := by
  obtain ⟨linked, times, timed⟩ := fits
  obtain ⟨went, stayed, nonces, begun⟩ := Line.go_spec asks
  have lines := perform_line_task pair net side conn (.maySend closed)
  simp only [Net.onLine, lets.sent, if_true] at lines
  have talks := step_task_talk (net.machine side) (pair.peer side) conn (.maySend closed)
  refine ⟨linked.perform side _ ?_ ?_ ?_ ?_ ?_, _, timed.sends lets.opened ?_ ?_ ?_ ?_ ?_ ?_⟩
  · intro other
    rw [lines, update_apply]
    split
    · exact (linked.honest conn).go _
    · exact linked.honest other
  · intro side' other began
    rw [lines, update_apply] at began
    split at began
    · rename_i there
      rw [begun] at began
      rw [there]
      exact there ▸ began
    · exact began
  · intro other end_ both known
    rw [lines, update_apply]
    split
    · rename_i there
      exact nonces end_ both (there ▸ known)
    · exact known
  · intro other found
    rw [talks]
    exact (tasks other).trans found
  · intro other number told
    rw [talks] at told
    exact numbers other number told
  · refine linked.begun _ conn ?_
    rw [pair.dials_other]
    exact (linked.honest conn).asks_begun asks
  · intro side' other
    rw [perform_talk]
    split
    · rename_i same
      rw [talks, same]
      exact tasks other
    · rfl
  · rw [lines, update_self]
    exact went
  · intro side' other elsewhere
    rw [lines, update_apply]
    split
    · rename_i there
      subst there
      have different : side' ≠ side := fun same => elsewhere ⟨same, rfl⟩
      refine stayed _ ?_
      rw [dials_ne different]
      simp
    · rfl
  · intro side' other open_
    rw [perform_talk] at open_
    split at open_
    · rw [talks] at open_
      exact absurd open_ (lets.closed other)
    · rename_i different
      exact ⟨different, open_⟩
  · intro side' other lives
    rw [perform_talk] at lives
    split at lives
    · rename_i same
      rw [talks] at lives
      exact .inl ⟨same, lets.alone other lives⟩
    · rename_i different
      exact .inr ⟨different, lives⟩

theorem Fits.task {task : TaskAct} (consents : net.consents pair side conn task = true) :
    Fits pair (net.perform pair side (.task (pair.peer side) conn task)) := by
  have linked := fits.linked
  cases found : (net.talk pair side).tasks conn with
  | none =>
    have same : (net.talk pair side).act conn task = (net.talk pair side, []) := by
      simp only [Talk.act, found]
    have isOver := phaseAt_of_unused found
    refine fits.eased ?_ ?_ ?_ ?_
    · rw [same, isOver, onLine_unused consents isOver]
      exact .same _ _
    · rw [same]
      exact ⟨fun _ => id, fun _ => id⟩
    · rw [same]
      exact fun _ => rfl
    · rw [same]
      exact linked.numbers side
  | some there =>
    obtain ⟨role, phase⟩ := there
    have does := act_works found task
    have tasks := works_tasks found does
    have numbers : ∀ other number,
        (((net.talk pair side).act conn task).1.phaseAt other).number = some number →
          pair.number side other (net.line other) = some number := by
      intro other number tells
      rcases does.number found tells with before | ⟨rfl, theirs, rfl⟩
      · exact linked.numbers side other number before
      · simpa [Net.consents] using consents
    rcases does.eases (linked.kept side) found with ⟨⟨closed, rfl⟩, lets⟩ | ⟨eases, quiet⟩
    · simp only [Net.consents, Bool.and_eq_true] at consents
      exact fits.sends consents.2 lets tasks numbers
    · refine fits.eased (onLine_steady consents fun arrives => quiet ?_) eases tasks numbers
      rw [Net.phase, phaseAt_of_found found] at arrives
      exact arrives

end

theorem Fits.step (fits : Fits pair net) (act : NetAct) : Fits pair (net.step pair act) := by
  have dialler : ∀ conn, pair.dials (pair.dialler conn) conn = true := by simp [Pair.dials]
  have listener : ∀ conn, pair.dials (pair.dialler conn).other conn = false := by
    intro conn
    rw [pair.dials_other, dialler]
    rfl
  cases act with
  | machine side act =>
    simp only [Net.step]
    split
    · rename_i allowed
      by_cases idle : ∀ conn task, act ≠ .task (pair.peer side) conn task
      · exact fits.idle idle
      · push Not at idle
        obtain ⟨conn, task, rfl⟩ := idle
        refine fits.task ?_
        simpa [Net.allows] using allowed
    · exact fits
  | commit conn nonce =>
    simp only [Net.step]
    refine fits.compare rfl fun line => ?_
    rw [listener]
    exact .commit _ _ _ _
  | readCommitment conn =>
    simp only [Net.step]
    refine fits.compare rfl fun line => ?_
    rw [dialler]
    exact .readCommitment
  | sendNonce conn nonce =>
    simp only [Net.step]
    refine fits.compare rfl fun line => ?_
    rw [dialler]
    exact .sendNonce nonce
  | readNonce conn =>
    simp only [Net.step]
    refine fits.compare rfl fun line => ?_
    rw [listener]
    exact .readNonce
  | reveal conn =>
    simp only [Net.step]
    refine fits.compare rfl fun line => ?_
    rw [listener]
    exact .reveal
  | readReveal conn =>
    simp only [Net.step]
    refine fits.compare rfl fun line => ?_
    rw [dialler]
    exact .readReveal _ _ _
  | answer conn frame =>
    simp only [Net.step]
    exact fits.compare rfl fun line => .answer frame
  | cut conn =>
    refine @Fits.steady _ pair net fits (pair.dialler conn) conn _ .cut fun began => ?_
    exact fits.linked.begun _ conn began

theorem Fits.run (fits : Fits pair net) (acts : List NetAct) :
    Fits pair (acts.foldl (Net.step pair) net) := by
  induction acts generalizing net with
  | nil => exact fits
  | cons act rest ih => exact ih (fits.step act)

/--
However two machines dial each other and whatever becomes of their connections,
if both hold one for the other it is the same connection, both have told their
person the same six digits for it, and nothing else is left to come on screen;
and both work out alike which of two connections is the one to keep.
-/
theorem hold_same_connection (pair : Pair) {stores : Side → TrustStore}
    (formed : ∀ side, Formed (stores side)) (driven : ∀ side, Driven (stores side))
    (acts : List NetAct) :
    let net := acts.foldl (Net.step pair) (.start stores)
    (∀ here there, (net.talk pair .left).slot.held = some here →
      (net.talk pair .right).slot.held = some there →
        here.conn = there.conn ∧
          ∃ number, (number.toList.length = 6 ∧ ∀ c ∈ number.toList, c.isDigit = true) ∧
            (net.phase pair .left here.conn).number = some number ∧
            (net.phase pair .right here.conn).number = some number ∧
            Only ((net.machine .left).view (pair.peer .left)).screen (here.attempt, number) ∧
            Only ((net.machine .right).view (pair.peer .right)).screen (there.attempt, number)) ∧
      (∀ side conn, keeps (pair.role side conn) (pair.name side).1 (pair.name side.other).1 =
        keeps (pair.role side.other conn) (pair.name side.other).1 (pair.name side).1) ∧
      ∀ conn other, pair.dialler conn ≠ pair.dialler other → ∀ side,
        keeps (pair.role side conn) (pair.name side).1 (pair.name side.other).1 =
          !keeps (pair.role side other) (pair.name side).1 (pair.name side.other).1 := by
  intro net
  have begins : Fits pair (.start stores) := ⟨.start formed driven, _, .start pair stores⟩
  obtain ⟨linked, times, timed⟩ := begins.run acts
  refine ⟨fun here there left right => ?_, keeps_both_ends pair, fun _ _ => keeps_one pair⟩
  obtain ⟨lives, gone, number, told, known, only⟩ := linked.held left
  obtain ⟨lives', gone', number', told', known', only'⟩ := linked.held right
  have same : here.conn = there.conn :=
    @Timed.same_connection pair _ times timed .left _ _ lives lives' (gone' _) (gone _)
  rw [← same] at told' known'
  have numbers : number = number' := linked.numbers_agree known known'
  subst numbers
  refine ⟨same, number, ?_, told, told', only, only'⟩
  obtain ⟨both, _, rfl⟩ := map_eq_some_iff.mp known
  exact code_sixDigits _ _ _ _ _

end Lowercase

end Sha256

/-- Both machines approve each other, the first dials, and both come to hold the connection. -/
theorem hold_same_connection_once :
    letI := asciiLowercase
    letI := standardSha256
    let net := (bothHold twoMachines (List.replicate 32 1) (List.replicate 32 2)).foldl
      (Net.step twoMachines) (.start fun side => emptyStore (twoMachines.name side))
    ∃ number, (net.talk twoMachines .left).slot.held = some ⟨0, 1, .comparing⟩ ∧
      (net.talk twoMachines .right).slot.held = some ⟨0, 1, .comparing⟩ ∧
      number.toList.length = 6 ∧
      (net.phase twoMachines .left 0).number = some number ∧
      (net.phase twoMachines .right 0).number = some number := by
  intro net
  have unknown : ∀ side, (emptyStore (twoMachines.name side)).entries[(twoMachines.peer side).1]? =
      none := by
    intro side
    simp [emptyStore]
  have held : net = _ := @bothHold_held asciiLowercase standardSha256 twoMachines
    (fun side => emptyStore (twoMachines.name side)) rfl unknown (List.replicate 32 1)
    (List.replicate 32 2) _ rfl
  have left : (net.talk twoMachines .left).slot.held = some ⟨0, 1, .comparing⟩ := by
    rw [held]
    simp [Net.talk, Side.each, heldMachine]
  have right : (net.talk twoMachines .right).slot.held = some ⟨0, 1, .comparing⟩ := by
    rw [held]
    simp [Net.talk, Side.each, heldMachine]
  obtain ⟨agree, _⟩ := @hold_same_connection standardSha256 asciiLowercase twoMachines
    (fun side => emptyStore (twoMachines.name side))
    (fun side => @formed_empty asciiLowercase (twoMachines.name side))
    (fun side => driven_empty (twoMachines.name side))
    (@bothHold standardSha256 twoMachines (List.replicate 32 1) (List.replicate 32 2))
  generalize reached : List.foldl (@Net.step twoMachines asciiLowercase standardSha256)
    (.start fun side => emptyStore (twoMachines.name side))
    (@bothHold standardSha256 twoMachines (List.replicate 32 1) (List.replicate 32 2)) = net'
    at agree
  have same : net = net' := reached
  subst same
  obtain ⟨_, number, digits, here, there, _⟩ := agree _ _ left right
  exact ⟨number, left, right, digits.1, here, there⟩

end HopsFormal.Pairing
