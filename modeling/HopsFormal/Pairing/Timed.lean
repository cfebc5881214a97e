import HopsFormal.Pairing.Confirmed
import HopsFormal.Pairing.Network

/-!
# When two machines began, and when they were let send

A machine that was let send on one connection and then takes up another begins
the other only after the first is over there, and it is let send only after the
other machine began on the same connection.  Two machines that held different
connections at once would each have begun after the other.
-/

namespace HopsFormal.Pairing

open Option Function Trust TrustStore MatchCode Lib Line

/-! ## What one connection carries -/

def Initiator.nonce : Initiator → Option Bytes
  | .nonced _ nonce | .opened nonce _ => some nonce
  | _ => none

def Responder.theirs : Responder → Option Bytes
  | .asked _ theirs | .going _ theirs | .revealed _ theirs => some theirs
  | _ => none

/-- Each end has what the other told it, and nothing else is on its way. -/
structure Line.Honest (line : Line) : Prop where
  toInitiator : ∀ message ∈ line.toInitiator,
    (∃ digest, message = .commitment digest ∧ line.responder ≠ .opening) ∨
      ∃ nonce theirs, message = .nonce nonce ∧ line.responder = .revealed nonce theirs
  toResponder : ∀ message ∈ line.toResponder,
    ∃ nonce, message = .nonce nonce ∧ line.initiator.nonce = some nonce
  asked : ∀ theirs, line.responder.theirs = some theirs → line.initiator.nonce = some theirs
  opened : ∀ nonce theirs, line.initiator = .opened nonce theirs →
    ∃ heard, line.responder = .revealed theirs heard
  committed : line.initiator ≠ .waiting → line.responder ≠ .opening

namespace Line.Honest

variable {line : Line}

theorem fresh : Honest {} := by
  constructor <;> simp [Responder.theirs]

section

variable (honest : line.Honest)
include honest

theorem commit [Sha256] (exporter : Bytes) (mine theirs : String) (nonce : Bytes) :
    (line.commit exporter mine theirs nonce).Honest := by
  unfold Line.commit
  split
  · obtain ⟨toInitiator, toResponder, asked, opened, committed⟩ := honest
    constructor <;> grind [Responder.theirs]
  · exact honest

theorem readCommitment : line.readCommitment.Honest := by
  unfold Line.readCommitment
  split
  · rename_i digest rest waiting queued
    obtain ⟨toInitiator, toResponder, asked, opened, committed⟩ := honest
    have read := toInitiator (.commitment digest) (by simp [queued])
    constructor <;> grind [Initiator.nonce]
  · exact honest

theorem go (dials : Bool) : (line.go dials).Honest := by
  unfold Line.go
  obtain ⟨toInitiator, toResponder, asked, opened, committed⟩ := honest
  split
  · split
    · constructor <;> grind [Initiator.nonce]
    · constructor <;> assumption
  · split
    · constructor <;> grind [Responder.theirs]
    · constructor <;> assumption

theorem sendNonce (nonce : Bytes) : (line.sendNonce nonce).Honest := by
  unfold Line.sendNonce
  split
  · obtain ⟨toInitiator, toResponder, asked, opened, committed⟩ := honest
    constructor <;> grind [Initiator.nonce]
  · exact honest

theorem readNonce : line.readNonce.Honest := by
  unfold Line.readNonce
  split
  · rename_i nonce theirs rest stands queued
    obtain ⟨toInitiator, toResponder, asked, opened, committed⟩ := honest
    have read := toResponder (.nonce theirs) (by simp [queued])
    constructor <;> grind [Responder.theirs]
  · exact honest

theorem reveal : line.reveal.Honest := by
  unfold Line.reveal
  split
  · obtain ⟨toInitiator, toResponder, asked, opened, committed⟩ := honest
    constructor <;> grind [Responder.theirs]
  · exact honest

theorem readReveal [Sha256] (exporter : Bytes) (mine theirs : String) :
    (line.readReveal exporter mine theirs).Honest := by
  unfold Line.readReveal
  obtain ⟨toInitiator, toResponder, asked, opened, committed⟩ := honest
  split
  · rename_i received nonce revealed rest stands queued
    have read := toInitiator (.nonce revealed) (by simp [queued])
    split
    · constructor <;> grind [Initiator.nonce]
    · constructor <;> grind
  · constructor <;> assumption

/-- Frames and the connection going down leave the comparison as it is. -/
theorem of_same {line' : Line} (initiator : line'.initiator = line.initiator)
    (responder : line'.responder = line.responder)
    (toInitiator : line'.toInitiator ⊆ line.toInitiator)
    (toResponder : line'.toResponder ⊆ line.toResponder) : line'.Honest := by
  constructor
  · rw [responder]
    exact fun message member => honest.toInitiator message (toInitiator member)
  · rw [initiator]
    exact fun message member => honest.toResponder message (toResponder member)
  · rw [initiator, responder]
    exact honest.asked
  · rw [initiator, responder]
    exact honest.opened
  · rw [initiator, responder]
    exact honest.committed

end

end Line.Honest

@[grind =]
def Line.begun (line : Line) (dials : Bool) : Bool :=
  if dials then line.initiator != .waiting else line.responder != .opening

variable {line : Line} {dials : Bool}

theorem Line.Honest.asks_begun (honest : line.Honest) (asks : line.asks dials = true) :
    line.begun (!dials) = true := by
  cases dials with
  | true =>
    cases stands : line.initiator with
    | asked received =>
      have other := honest.committed (by rw [stands]; simp)
      simpa [begun] using other
    | _ => simp [Line.asks, stands] at asks
  | false =>
    cases stands : line.responder with
    | asked nonce theirs =>
      have told := honest.asked theirs (by rw [stands, Responder.theirs])
      have other : line.initiator ≠ .waiting := by
        intro waiting
        rw [waiting] at told
        cases told
      simpa [begun] using other
    | _ => simp [Line.asks, stands] at asks

theorem Line.Honest.nonces_gone (honest : line.Honest) {nonces : Bytes × Bytes}
    (both : line.nonces dials = some nonces) (end_ : Bool) : line.gone end_ = true := by
  cases dials with
  | true =>
    cases stands : line.initiator with
    | opened nonce theirs =>
      obtain ⟨heard, revealed⟩ := honest.opened nonce theirs stands
      cases end_ <;> simp [gone, stands, revealed]
    | _ => simp [Line.nonces, stands] at both
  | false =>
    cases stands : line.responder with
    | revealed nonce theirs =>
      have told := honest.asked theirs (by rw [stands, Responder.theirs])
      cases sends : line.initiator with
      | nonced received mine | opened mine heard =>
        cases end_ <;> simp [gone, stands, sends]
      | _ => simp [sends, Initiator.nonce] at told
    | _ => simp [Line.nonces, stands] at both

theorem Line.Honest.nonces_agree (honest : line.Honest) {here there : Bytes × Bytes}
    (dialler : line.nonces true = some here) (listener : line.nonces false = some there) :
    here = there := by
  cases stands : line.initiator with
  | opened nonce theirs =>
    obtain ⟨heard, revealed⟩ := honest.opened nonce theirs stands
    have told := honest.asked heard (by rw [revealed, Responder.theirs])
    simp only [nonces, stands, if_true, Option.some.injEq] at dialler
    simp only [nonces, revealed, Bool.false_eq_true, if_false, Option.some.injEq] at listener
    simp only [stands, Initiator.nonce, Option.some.injEq] at told
    rw [← dialler, ← listener, told]
  | _ => simp [nonces, stands] at dialler

/-! ## When each machine began, and when it was let send -/

/-- A comparison that may yet be let send. -/
def Talk.Open (talk : Talk) (conn : Nat) : Prop :=
  (talk.phaseAt conn).isArriving = true ∧
    ∀ entry, talk.slot.arriving = some entry → entry.sent = false

/-- A comparison that was let send and is not over. -/
def Talk.Live (talk : Talk) (conn : Nat) : Prop :=
  (talk.phaseAt conn).isSent = true ∨ ∃ ticket, (talk.phaseAt conn).ticket = some ticket

/-- The times at which each machine began on a connection, and was let send on it. -/
structure Times where
  now : Nat
  begun : Side → Nat → Option Nat
  sent : Side → Nat → Option Nat

structure Timed (pair : Pair) (net : Net) (times : Times) : Prop where
  begun : ∀ side conn, ((net.talk pair side).tasks conn).isSome = (times.begun side conn).isSome
  sent : ∀ side conn, (net.line conn).gone (pair.dials side conn) = (times.sent side conn).isSome
  past_begun : ∀ side conn time, times.begun side conn = some time → time < times.now
  past_sent : ∀ side conn time, times.sent side conn = some time → time < times.now
  after : ∀ side conn time, times.sent side conn = some time →
    ∃ first, times.begun side.other conn = some first ∧ first < time
  opens : ∀ side conn, (net.talk pair side).Open conn → ∀ other time,
    times.sent side other = some time →
    ∃ first, times.begun side conn = some first ∧ time < first
  live : ∀ side conn, (net.talk pair side).Live conn → ∀ other time, other ≠ conn →
    times.sent side other = some time →
    ∃ first, times.begun side conn = some first ∧ time < first

namespace Timed

variable {pair : Pair} {net net' : Net} {times : Times}

theorem start (pair : Pair) (stores : Side → TrustStore) :
    Timed pair (.start stores) ⟨0, fun _ _ => none, fun _ _ => none⟩ where
  begun _ _ := rfl
  sent side conn := by
    cases pair.dials side conn <;> rfl
  past_begun _ _ _ absurd_ := by cases absurd_
  past_sent _ _ _ absurd_ := by cases absurd_
  after _ _ _ absurd_ := by cases absurd_
  opens _ _ _ _ _ absurd_ := by cases absurd_
  live _ _ _ _ _ _ absurd_ := by cases absurd_

/-- A step that begins nothing and lets nothing send keeps the times. -/
theorem later (timed : Timed pair net times)
    (tasks : ∀ side conn, ((net'.talk pair side).tasks conn).isSome =
      ((net.talk pair side).tasks conn).isSome)
    (gone : ∀ side conn, (net'.line conn).gone (pair.dials side conn) =
      (net.line conn).gone (pair.dials side conn))
    (opens : ∀ side conn, (net'.talk pair side).Open conn → (net.talk pair side).Open conn)
    (live : ∀ side conn, (net'.talk pair side).Live conn → (net.talk pair side).Live conn) :
    Timed pair net' times where
  begun side conn := (tasks side conn).trans (timed.begun side conn)
  sent side conn := (gone side conn).trans (timed.sent side conn)
  past_begun := timed.past_begun
  past_sent := timed.past_sent
  after := timed.after
  opens side conn open_ := timed.opens side conn (opens side conn open_)
  live side conn lives := timed.live side conn (live side conn lives)

theorem begins (timed : Timed pair net times) {side : Side} {conn : Nat}
    (unused : (net.talk pair side).tasks conn = none)
    (task : ((net'.talk pair side).tasks conn).isSome = true)
    (tasks : ∀ side' conn', ¬ (side' = side ∧ conn' = conn) →
      ((net'.talk pair side').tasks conn').isSome = ((net.talk pair side').tasks conn').isSome)
    (gone : ∀ side' conn', (net'.line conn').gone (pair.dials side' conn') =
      (net.line conn').gone (pair.dials side' conn'))
    (opens : ∀ side' conn', (net'.talk pair side').Open conn' →
      side' = side ∧ conn' = conn ∨ (net.talk pair side').Open conn')
    (live : ∀ side' conn', (net'.talk pair side').Live conn' → (net.talk pair side').Live conn') :
    Timed pair net' ⟨times.now + 1,
      fun side' conn' => if side' = side ∧ conn' = conn then some times.now
        else times.begun side' conn', times.sent⟩ := by
  have unbegun : times.begun side conn = none := by
    have none_ := timed.begun side conn
    rw [unused] at none_
    simpa using none_.symm
  have kept : ∀ side' conn' time, times.begun side' conn' = some time →
      (if side' = side ∧ conn' = conn then some times.now else times.begun side' conn') =
        some time := by
    intro side' conn' time found
    rw [if_neg]
    · exact found
    · rintro ⟨rfl, rfl⟩
      rw [unbegun] at found
      cases found
  constructor
  · intro side' conn'
    by_cases same : side' = side ∧ conn' = conn
    · obtain ⟨rfl, rfl⟩ := same
      simp [task]
    · rw [tasks side' conn' same, timed.begun]
      dsimp only
      rw [if_neg same]
  · intro side' conn'
    rw [gone, timed.sent]
  · intro side' conn' time found
    dsimp only at found ⊢
    split at found
    · cases found
      omega
    · have before := timed.past_begun side' conn' time found
      omega
  · intro side' conn' time found
    have before := timed.past_sent side' conn' time found
    dsimp only
    omega
  · intro side' conn' time sent
    obtain ⟨first, begun, order⟩ := timed.after side' conn' time sent
    exact ⟨first, kept _ _ _ begun, order⟩
  · intro side' conn' open_ other time sent
    rcases opens side' conn' open_ with ⟨rfl, rfl⟩ | before
    · exact ⟨times.now, by simp, timed.past_sent side' other time sent⟩
    · obtain ⟨first, begun, order⟩ := timed.opens side' conn' before other time sent
      exact ⟨first, kept _ _ _ begun, order⟩
  · intro side' conn' lives other time different sent
    obtain ⟨first, begun, order⟩ :=
      timed.live side' conn' (live side' conn' lives) other time different sent
    exact ⟨first, kept _ _ _ begun, order⟩

/-- A machine is let send on a connection on which the other began. -/
theorem sends (timed : Timed pair net times) {side : Side} {conn : Nat}
    (opened : (net.talk pair side).Open conn)
    (there : ((net.talk pair side.other).tasks conn).isSome = true)
    (tasks : ∀ side' conn', ((net'.talk pair side').tasks conn').isSome =
      ((net.talk pair side').tasks conn').isSome)
    (went : (net'.line conn).gone (pair.dials side conn) = true)
    (gone : ∀ side' conn', ¬ (side' = side ∧ conn' = conn) →
      (net'.line conn').gone (pair.dials side' conn') =
        (net.line conn').gone (pair.dials side' conn'))
    (opens : ∀ side' conn', (net'.talk pair side').Open conn' →
      side' ≠ side ∧ (net.talk pair side').Open conn')
    (live : ∀ side' conn', (net'.talk pair side').Live conn' →
      side' = side ∧ conn' = conn ∨ side' ≠ side ∧ (net.talk pair side').Live conn') :
    Timed pair net' ⟨times.now + 1, times.begun,
      fun side' conn' => if side' = side ∧ conn' = conn then some times.now
        else times.sent side' conn'⟩ := by
  constructor
  · intro side' conn'
    exact (tasks side' conn').trans (timed.begun side' conn')
  · intro side' conn'
    by_cases same : side' = side ∧ conn' = conn
    · obtain ⟨rfl, rfl⟩ := same
      simp [went]
    · rw [gone side' conn' same, timed.sent]
      dsimp only
      rw [if_neg same]
  · intro side' conn' time found
    have before := timed.past_begun side' conn' time found
    dsimp only
    omega
  · intro side' conn' time found
    dsimp only at found ⊢
    split at found
    · cases found
      omega
    · have before := timed.past_sent side' conn' time found
      omega
  · intro side' conn' time sent
    dsimp only at sent ⊢
    split at sent
    · rename_i same
      obtain ⟨rfl, rfl⟩ := same
      cases sent
      rw [timed.begun] at there
      obtain ⟨first, begun⟩ := isSome_iff_exists.mp there
      exact ⟨first, begun, timed.past_begun _ _ _ begun⟩
    · exact timed.after side' conn' time sent
  · intro side' conn' open_ other time sent
    obtain ⟨elsewhere, before⟩ := opens side' conn' open_
    dsimp only at sent
    rw [if_neg fun same => elsewhere same.1] at sent
    exact timed.opens side' conn' before other time sent
  · intro side' conn' lives other time different sent
    dsimp only at sent
    rcases live side' conn' lives with ⟨rfl, rfl⟩ | ⟨elsewhere, before⟩
    · rw [if_neg fun same => different same.2] at sent
      exact timed.opens side' conn' opened other time sent
    · rw [if_neg fun same => elsewhere same.1] at sent
      exact timed.live side' conn' before other time different sent

end Timed

theorem Timed.same_connection {pair : Pair} {net : Net} {times : Times}
    (timed : Timed pair net times) {side : Side} {here there : Nat}
    (holds : (net.talk pair side).Live here) (also : (net.talk pair side.other).Live there)
    (sentThere : (net.line there).gone (pair.dials side there) = true)
    (sentHere : (net.line here).gone (pair.dials side.other here) = true) : here = there := by
  by_contra different
  rw [timed.sent] at sentThere sentHere
  obtain ⟨time, sent⟩ := isSome_iff_exists.mp sentThere
  obtain ⟨time', sent'⟩ := isSome_iff_exists.mp sentHere
  obtain ⟨first, begun, before⟩ := timed.live side here holds there time (Ne.symm different) sent
  obtain ⟨first', begun', before'⟩ :=
    timed.live side.other there also here time' different sent'
  obtain ⟨began, againThere, order⟩ := timed.after side there time sent
  obtain ⟨began', againHere, order'⟩ := timed.after side.other here time' sent'
  have twice : side.other.other = side := by cases side <;> rfl
  rw [twice, begun] at againHere
  rw [begun'] at againThere
  cases againThere
  cases againHere
  omega

/-! ## What a task does to the order -/

section Works

variable {talk talk' : Talk} {conn : Nat} {role : Role} {phase : Phase} {act : TaskAct}
  {told : List Told}

theorem works_tasks (found : talk.tasks conn = some ⟨role, phase⟩)
    (does : Works talk conn role phase act talk' told) (other : Nat) :
    (talk'.tasks other).isSome = (talk.tasks other).isSome := by
  have set : ∀ slot role' phase',
      ((({ talk with slot }).setTask conn role' phase').tasks other).isSome =
        (talk.tasks other).isSome := by
    intro slot role' phase'
    by_cases same : other = conn
    · subst same
      rw [setTask_found, found]
      rfl
    · rw [setTask_elsewhere _ same]
  cases does with
  | waits => rfl
  | _ => exact set _ _ _

/-- A task that is not let send opens nothing and brings nothing to life. -/
def Eases (talk talk' : Talk) : Prop :=
  (∀ other, talk'.Open other → talk.Open other) ∧ ∀ other, talk'.Live other → talk.Live other

/-- A task takes a phase that neither begins nor was let send, and no record is lost. -/
theorem Eases.set {slot : Slot} {phase' : Phase} (here : talk.phaseAt conn = phase)
    (kept : Kept (({ talk with slot }).setTask conn role phase'))
    (arriving : phase'.isArriving = true → phase.isArriving = true)
    (live : phase'.isSent = true ∨ (∃ ticket, phase'.ticket = some ticket) →
      phase.isSent = true ∨ ∃ ticket, phase.ticket = some ticket)
    (marked : ∀ entry, slot.arriving = some entry →
      ∃ before, talk.slot.arriving = some before ∧ entry.sent = before.sent) :
    Eases talk (({ talk with slot }).setTask conn role phase') := by
  have phases : ∀ other, other ≠ conn →
      (({ talk with slot }).setTask conn role phase').phaseAt other = talk.phaseAt other := by
    intro other different
    rw [phaseAt_setTask, update_of_ne different]
    rfl
  constructor
  · rintro other ⟨arrives, unsent⟩
    obtain ⟨arrival, counts⟩ : ∃ arrival,
        ((({ talk with slot }).setTask conn role phase').phaseAt other).arrival = some arrival := by
      cases at_ : (({ talk with slot }).setTask conn role phase').phaseAt other with
      | arriving arrival => exact ⟨arrival, rfl⟩
      | _ =>
        rw [at_] at arrives
        cases arrives
    obtain ⟨entry, found⟩ := kept.counts.entry counts
    obtain ⟨before, found', same⟩ := marked entry found
    refine ⟨?_, fun entry' again => ?_⟩
    · by_cases same : other = conn
      · subst same
        rw [here]
        rw [setTask_phaseAt] at arrives
        exact arriving arrives
      · rw [phases other same] at arrives
        exact arrives
    · rw [found'] at again
      cases again
      rw [← same]
      exact unsent entry found
  · intro other lives
    by_cases same : other = conn
    · subst same
      rw [Talk.Live, setTask_phaseAt] at lives
      rw [Talk.Live, here]
      exact live lives
    · rw [Talk.Live, phases other same] at lives
      exact lives

/-- What a task that is let send leaves: it alone, and nothing that may yet be. -/
structure LetSend (talk talk' : Talk) (conn : Nat) : Prop where
  opened : talk.Open conn
  closed : ∀ other, ¬ talk'.Open other
  alone : ∀ other, talk'.Live other → other = conn
  sent : (talk'.phaseAt conn).isSent = true

theorem LetSend.of_free (kept : Kept talk) {arrival : Arrival} {entry : Arriving}
    (here : talk.phaseAt conn = .arriving arrival) (counted : talk.slot.arriving = some entry)
    (free : talk.slot.held = none) (unsent : entry.sent = false) :
    LetSend talk (({ talk with
      slot := { talk.slot with arriving := some { entry with sent := true } } }).setTask conn role
        (.sent arrival)) conn where
  opened := by
    refine ⟨by rw [here]; rfl, fun entry' found => ?_⟩
    rw [counted] at found
    cases found
    exact unsent
  closed := by
    rintro other ⟨_, none_sent⟩
    have marked := none_sent _ rfl
    cases marked
  alone := by
    intro other lives
    by_contra different
    rw [Talk.Live, phaseAt_setTask, update_of_ne different] at lives
    rcases lives with sent | ⟨ticket, holds⟩
    · have marked := kept.counts.sent sent counted
      rw [unsent] at marked
      cases marked
    · obtain ⟨stage, there⟩ := kept.holds.holds holds
      rw [free] at there
      cases there
  sent := by
    rw [setTask_phaseAt]
    rfl

theorem Works.number (found : talk.tasks conn = some ⟨role, phase⟩)
    (does : Works talk conn role phase act talk' told) {other : Nat} {number : String}
    (tells : (talk'.phaseAt other).number = some number) :
    (talk.phaseAt other).number = some number ∨
      other = conn ∧ ∃ theirs, act = .compared number theirs := by
  have here := phaseAt_of_found found
  cases does with
  | waits => exact .inl tells
  | reaches sent free made =>
    rw [phaseAt_setTask] at tells
    by_cases same : other = conn
    · rw [same, update_self] at tells
      cases tells
      exact .inr ⟨same, _, rfl⟩
    · rw [update_of_ne same] at tells
      exact .inl tells
  | answers holds stage =>
    exact .inl (number_setTask (.inr (by rw [here, holds]; rfl)) talk.slot role _ _ tells)
  | greets answered shows =>
    exact .inl (number_setTask (.inr (by rw [here, answered]; rfl)) talk.slot role _ _ tells)
  | hears listens =>
    refine .inl (number_setTask (.inr ?_) talk.slot role _ _ tells)
    rw [here]
    rcases listens with ⟨rfl, _⟩ | rfl
    · rfl
    · rfl
  | _ => exact .inl (number_setTask (.inl rfl) _ role _ _ tells)

theorem Works.eases (kept : Kept talk) (found : talk.tasks conn = some ⟨role, phase⟩)
    (does : Works talk conn role phase act talk' told) :
    (∃ closed, act = .maySend closed) ∧ LetSend talk talk' conn ∨
      Eases talk talk' ∧ (phase.isArriving = true → (talk'.phaseAt conn).isSent = false) := by
  have here := phaseAt_of_found found
  have kept' := kept.works found does
  have same : ∀ entry, talk.slot.arriving = some entry →
      ∃ before, talk.slot.arriving = some before ∧ entry.sent = before.sent :=
    fun entry counted => ⟨entry, counted, rfl⟩
  have told_ : ∀ arrival entry, (talk.slot.told.dropArrival arrival).arriving = some entry →
      ∃ before, talk.slot.arriving = some before ∧ entry.sent = before.sent := by
    intro arrival entry left
    obtain ⟨marked, counted, sent⟩ := dropArrival_sent left
    simp only [Slot.told, map_eq_some_iff] at counted
    obtain ⟨before, counted, rfl⟩ := counted
    exact ⟨before, counted, sent⟩
  have released : ∀ attempt entry, (talk.slot.release attempt).arriving = some entry →
      ∃ before, talk.slot.arriving = some before ∧ entry.sent = before.sent := by
    intro attempt entry left
    unfold Slot.release at left
    split at left
    · exact same entry left
    · exact same entry left
  cases does with
  | waits =>
    refine .inr ⟨⟨fun _ => id, fun _ => id⟩, fun arrives => ?_⟩
    rw [here]
    cases phase with
    | arriving arrival => rfl
    | _ => cases arrives
  | sends asks counted free unsent untold =>
    subst asks
    exact .inl ⟨⟨_, rfl⟩, LetSend.of_free kept here counted free unsent⟩
  | leaves asks asked | slips sent shows | refused sent taken =>
    exact .inr ⟨.set here kept' (by simp [Phase.isArriving]) (by simp [Phase.isSent, Phase.ticket])
      fun _ => dropArrival_sent, fun _ => by rw [Talk.leave, setTask_phaseAt]; rfl⟩
  | fails counts =>
    exact .inr ⟨.set here kept' (by simp [Phase.isArriving]) (by simp [Phase.isSent, Phase.ticket])
      (told_ _), fun _ => by rw [setTask_phaseAt]; rfl⟩
  | reaches sent free made =>
    refine .inr ⟨.set here kept' (by simp [Phase.isArriving]) (fun _ => .inl ?_)
      fun _ left => ?_, fun _ => by rw [setTask_phaseAt]; rfl⟩
    · rw [sent]
      rfl
    · obtain ⟨before, counted, marked⟩ := dropArrival_sent left
      exact ⟨before, counted, marked⟩
  | answers holds stage =>
    refine .inr ⟨.set here kept' (by simp [Phase.isArriving]) (fun _ => .inr ?_) same,
      fun _ => by rw [setTask_phaseAt]; rfl⟩
    rw [holds]
    exact ⟨_, rfl⟩
  | greets answered shows =>
    refine .inr ⟨.set here kept' (by simp [Phase.isArriving]) (fun _ => .inr ?_) same,
      fun _ => by rw [setTask_phaseAt]; rfl⟩
    rw [answered]
    exact ⟨_, rfl⟩
  | hears listens =>
    refine .inr ⟨.set here kept' (by simp [Phase.isArriving]) (fun _ => .inr ?_) same,
      fun _ => by rw [setTask_phaseAt]; rfl⟩
    rcases listens with ⟨rfl, _⟩ | rfl
    · exact ⟨_, rfl⟩
    · exact ⟨_, rfl⟩
  | finishes holds | stops holds isOver | pairs confirmed settled =>
    exact .inr ⟨.set here kept' (by simp [Phase.isArriving]) (by simp [Phase.isSent, Phase.ticket])
      (released _), fun _ => by rw [setTask_phaseAt]; rfl⟩

end Works

/-! ## What a half of the comparison does to the order -/

/-- One end's half goes on: what was let go, and what is known, stays. -/
structure Line.Steady (dials : Bool) (line line' : Line) : Prop where
  honest : line.Honest → line'.Honest
  gone : ∀ end_, line'.gone end_ = line.gone end_
  nonces : ∀ end_ nonces, line.nonces end_ = some nonces → line'.nonces end_ = some nonces
  begun : ∀ end_, line'.begun end_ = true → line.begun end_ = true ∨ end_ = dials

namespace Line.Steady

variable {dials : Bool} {line : Line}

theorem same (dials : Bool) (line : Line) : Steady dials line line :=
  ⟨id, fun _ => rfl, fun _ _ => id, fun _ => .inl⟩

/-- Frames and the connection going down leave both halves. -/
theorem of_same {line' : Line} (initiator : line'.initiator = line.initiator)
    (responder : line'.responder = line.responder)
    (toInitiator : line'.toInitiator ⊆ line.toInitiator)
    (toResponder : line'.toResponder ⊆ line.toResponder) : Steady dials line line' where
  honest honest := honest.of_same initiator responder toInitiator toResponder
  gone end_ := by rw [Line.gone, Line.gone, initiator, responder]
  nonces end_ nonces known := by rwa [Line.nonces, initiator, responder]
  begun end_ begun := by
    rw [Line.begun, initiator, responder] at begun
    exact .inl begun

theorem commit [Sha256] (exporter : Bytes) (mine theirs : String) (nonce : Bytes) :
    Steady false line (line.commit exporter mine theirs nonce) := by
  refine ⟨fun honest => honest.commit exporter mine theirs nonce, ?_, ?_, ?_⟩
  all_goals
    intro end_
    cases end_ <;> grind [Line.commit, Line.gone, Line.nonces, Line.begun]

theorem readCommitment : Steady true line line.readCommitment := by
  refine ⟨Honest.readCommitment, ?_, ?_, ?_⟩
  all_goals
    intro end_
    cases end_ <;> grind [Line.readCommitment, Line.gone, Line.nonces, Line.begun]

theorem sendNonce (nonce : Bytes) : Steady true line (line.sendNonce nonce) := by
  refine ⟨fun honest => honest.sendNonce nonce, ?_, ?_, ?_⟩
  all_goals
    intro end_
    cases end_ <;> grind [Line.sendNonce, Line.gone, Line.nonces, Line.begun]

theorem readNonce : Steady false line line.readNonce := by
  refine ⟨Honest.readNonce, ?_, ?_, ?_⟩
  all_goals
    intro end_
    cases end_ <;> grind [Line.readNonce, Line.gone, Line.nonces, Line.begun]

theorem reveal : Steady false line line.reveal := by
  refine ⟨Honest.reveal, ?_, ?_, ?_⟩
  all_goals
    intro end_
    cases end_ <;> grind [Line.reveal, Line.gone, Line.nonces, Line.begun]

theorem readReveal [Sha256] (exporter : Bytes) (mine theirs : String) :
    Steady true line (line.readReveal exporter mine theirs) := by
  refine ⟨fun honest => honest.readReveal exporter mine theirs, ?_, ?_, ?_⟩
  all_goals
    intro end_
    cases end_ <;> grind [Line.readReveal, Line.gone, Line.nonces, Line.begun]

theorem answer (frame : Frame) : Steady dials line (line.answer frame) :=
  of_same rfl rfl (List.Subset.refl _) (List.Subset.refl _)

theorem greet : Steady dials line line.greet :=
  of_same rfl rfl (List.Subset.refl _) (List.Subset.refl _)

theorem hear (end_ : Bool) : Steady dials line (line.hear end_) := by
  unfold Line.hear
  split
  · exact of_same rfl rfl (List.Subset.refl _) (List.Subset.refl _)
  · exact of_same rfl rfl (List.Subset.refl _) (List.Subset.refl _)

theorem cut : Steady dials line line.cut :=
  of_same rfl rfl (List.nil_subset _) (List.nil_subset _)

end Line.Steady

/-- An end that asked goes, and nothing else changes. -/
theorem Line.go_spec (asks : line.asks dials = true) : (line.go dials).gone dials = true ∧
      (∀ end_, end_ ≠ dials → (line.go dials).gone end_ = line.gone end_) ∧
      (∀ end_ nonces, line.nonces end_ = some nonces → (line.go dials).nonces end_ = some nonces) ∧
      ∀ end_, (line.go dials).begun end_ = line.begun end_ := by
  cases dials <;> grind [asks, go, gone, nonces, begun]

end HopsFormal.Pairing
