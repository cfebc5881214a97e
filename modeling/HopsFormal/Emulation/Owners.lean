import HopsFormal.Emulation.Gate

/-!
# Whose presses are held

Whatever the emulation lists for a handle was pressed by an event that waited in
the line of the handle's address, and a teardown that stands behind it in that
line takes it away.  What is known of a press when it is queued, and what a
teardown behind it adds to that, is therefore known of everything listed.
-/

namespace HopsFormal.Emulation

open Capture (Event PointerEvent KeyboardEvent Held kind)
open List Lib

variable {Addr F E : Type} [DecidableEq Addr]

namespace Receiver

/-- A teardown waits among some requests. -/
def TornDown (items : List (Queued F)) : Prop := ∃ asked, .remove asked ∈ items

theorem TornDown.mono {old new : List (Queued F)}
    (keeps : ∀ asked, .remove asked ∈ old → .remove asked ∈ new) :
    TornDown old → TornDown new := by
  rintro ⟨asked, waits⟩
  exact ⟨asked, keeps asked waits⟩

/-- No teardown of a line is gone. -/
def Keeps (receiver next : Receiver Addr F) (addr : Addr) : Prop :=
  ∀ asked, .remove asked ∈ receiver.line addr → .remove asked ∈ next.line addr

/-- Everything a step can do to the handles of a session that then runs. -/
inductive HandleStep (answer : List (Call F) → Except E Unit) (receiver next : Receiver Addr F) :
    Prop where
  | apart (after : ¬ Running next)
  | fresh (emulation : InputEmulation F) (after : next.phase = .running emulation)
      (nothing : ∀ handle held, ¬ Lists emulation handle held)
  | same (after : next.phase = receiver.phase) (handles : next.handles = receiver.handles)
      (keeps : ∀ addr, Keeps receiver next addr)
  | absent (addr : Addr) (after : next.phase = receiver.phase)
      (unknown : receiver.handles.lookup addr = none) (handles : next.handles = receiver.handles)
      (others : ∀ other, other ≠ addr → Keeps receiver next other)
  | removed (emulation : InputEmulation F) (order : HashOrder) (addr : Addr) (handle : Handle)
      (before : receiver.phase = .running emulation)
      (after : next.phase = .running (emulation.destroy answer order handle))
      (known : receiver.handles.lookup addr = some handle)
      (handles : next.handles = receiver.handles.erase addr)
      (others : ∀ other, other ≠ addr → Keeps receiver next other)
  | injected (emulation created : InputEmulation F) (addr : Addr) (event : Event F)
      (peer : String) (sources : List Nat) (handle : Handle)
      (before : receiver.phase = .running emulation)
      (through : created = emulation ∨ created = (emulation.create handle).2)
      (after : next.phase = .running (created.consume answer event handle).2)
      (known : next.handles.lookup addr = some handle)
      (handles : ∀ other owner, receiver.handles.lookup other = some owner →
        next.handles.lookup other = some owner)
      (front : receiver.line addr = .input event peer sources :: next.line addr)
      (keeps : ∀ other, Keeps receiver next other)

section Handles

variable (answer : List (Call F) → Except E Unit)

theorem line_popped {receiver : Receiver Addr F} {addr : Addr} {item : Queued F} {count : Nat}
    {left : PeerQueues Addr F} (popped : receiver.queued.pop = some (addr, item, count, left)) :
    receiver.line addr = item :: { receiver with queued := left }.line addr ∧
      ∀ other, other ≠ addr →
        { receiver with queued := left }.line other = receiver.line other := by
  obtain ⟨front, others⟩ := (PeerQueues.pop_spec popped).1
  constructor
  · rw [line, front]
    rfl
  · intro other apart
    rw [line, others other apart]
    rfl

variable (receiver : Receiver Addr F) (order : HashOrder)

theorem removeHandle_handles {queued : PeerQueues Addr F} {emulation : InputEmulation F}
    {addr : Addr} (running : receiver.phase = .running emulation) (others : ∀ other, other ≠ addr →
      { receiver with queued := queued }.line other = receiver.line other) :
    HandleStep answer receiver
      ({ receiver with queued := queued }.removeHandle answer order emulation addr) := by
  have keeps : ∀ other, other ≠ addr → Keeps receiver
      ({ receiver with queued := queued }.removeHandle answer order emulation addr) other := by
    intro other apart asked waits
    rw [removeHandle_line, others other apart]
    exact waits
  cases known : receiver.handles.lookup addr with
  | none =>
    refine .absent addr ?_ known ?_ keeps
    · simp only [removeHandle, known]
      exact running.symm
    · simp only [removeHandle, known]
  | some handle =>
    refine .removed emulation order addr handle running ?_ known ?_ keeps
    · simp only [removeHandle, known]
    · simp only [removeHandle, known]

theorem handleOf_handles (emulation : InputEmulation F) (addr : Addr) :
    let found := receiver.handleOf emulation addr
    (found.2.1 = emulation ∨ found.2.1 = (emulation.create found.1).2) ∧
      found.2.2.handles.lookup addr = some found.1 ∧
      ∀ other owner, receiver.handles.lookup other = some owner →
        found.2.2.handles.lookup other = some owner := by
  unfold handleOf
  cases known : receiver.handles.lookup addr with
  | some handle => exact ⟨.inl rfl, known, fun _ _ owns => owns⟩
  | none =>
    refine ⟨.inr rfl, AList.lookup_insert _, fun other owner owns => ?_⟩
    have apart : other ≠ addr := by
      rintro rfl
      rw [known] at owns
      cases owns
    rw [AList.lookup_insert_ne apart]
    exact owns

theorem serve_handles : HandleStep answer receiver (receiver.serve answer order) := by
  cases phase : receiver.phase with
  | waiting | starting | stopped =>
    simp only [serve, phase]
    exact .same rfl rfl fun _ _ waits => waits
  | running emulation =>
    cases popped : receiver.queued.pop with
    | none =>
      simp only [serve, phase, popped]
      exact .same rfl rfl fun _ _ waits => waits
    | some next =>
      obtain ⟨addr, item, count, left⟩ := next
      obtain ⟨front, others⟩ := line_popped popped
      cases item with
      | remove asked =>
        simp only [serve, phase, popped]
        exact removeHandle_handles answer receiver order phase others
      | input event peer sources =>
        simp only [serve, phase, popped]
        split
        · generalize made : handleOf _ emulation addr = known
          have found := handleOf_handles
            { receiver with phase := .running emulation, queued := left } emulation addr
          have lines := handleOf_line
            { receiver with phase := .running emulation, queued := left } emulation addr
          rw [made] at found lines
          obtain ⟨handle, created, known⟩ := known
          obtain ⟨through, owns, owners⟩ := found
          split
          · refine .injected emulation created addr event peer sources handle phase through
              rfl owns owners ?_ ?_
            · rw [front]
              exact congrArg _ (lines addr).symm
            · intro other asked waits
              have kept : .remove asked ∈ known.line other := by
                refine (lines other).symm ▸ ?_
                by_cases same : other = addr
                · subst same
                  rw [front] at waits
                  exact (mem_cons.mp waits).resolve_left (by simp)
                · rw [← others other same] at waits
                  exact waits
              exact kept
          · exact .apart (endSession_apart answer _ _ _)
        · refine removeHandle_handles answer receiver order phase ?_
          intro other apart
          rw [← others other apart]
          simp [line, PeerQueues.dropPeer_waiting, apart]

theorem startSession_handles (scope : ButtonScope) :
    HandleStep answer receiver (receiver.startSession scope) := by
  unfold startSession
  cases phase : receiver.phase with
  | waiting | running emulation | stopped => exact .same rfl rfl fun _ _ waits => waits
  | starting =>
    have created : ∀ (handles : List Handle) (start : InputEmulation F), Kept start →
        (∀ handle held, ¬ Lists start handle held) → ∀ handle held,
        ¬ Lists (handles.foldl (fun emulation handle => (emulation.create handle).2) start)
          handle held := by
      intro handles
      induction handles with
      | nil => exact fun _ _ nothing => nothing
      | cons first rest ih =>
        intro start kept nothing
        refine ih _ (kept.create first) fun handle held lists => ?_
        exact nothing handle held ((create_lists kept.formed first handle held).mp lists)
    refine .fresh _ rfl (created _ _ (kept_start scope) ?_)
    intro handle held lists
    cases held <;> cases lists

variable [Add F]

theorem takeRequest_handles : HandleStep answer receiver (receiver.takeRequest answer order) := by
  cases waiting : receiver.requests with
  | nil =>
    simp only [takeRequest, waiting]
    exact .same rfl rfl fun _ _ waits => waits
  | cons request rest =>
    cases phase : receiver.phase with
    | stopped =>
      refine .apart ?_
      simp [takeRequest, waiting, phase, Running]
    | waiting | starting =>
      refine .apart ?_
      cases request <;> simp [takeRequest, waiting, phase, Running]
    | running emulation =>
      have sorts : ∀ (dest : Addr) (item : Queued F),
          item.numbers.length = 1 →
          (∀ addr, asQueued addr request = if dest = addr then some item else none) →
          ∀ addr, Keeps receiver { receiver with
            requests := rest
            queued := (receiver.queued.push dest item).2 } addr := by
        intro dest item one asks addr asked waits
        rcases push_line waiting one asks addr with same | ⟨front, back, time, dx, dy, later,
          moreX, moreY, peer, sources, source, before, now⟩
        · rw [same]
          exact waits
        · rw [now]
          rw [before] at waits
          simpa using waits
      simp only [takeRequest, waiting, phase]
      cases request with
      | input event dest peer source | remove dest asked =>
        exact .same phase.symm rfl (sorts dest _ rfl fun _ => rfl)
      | reenable =>
        refine .same phase.symm rfl fun addr asked waits => ?_
        rw [line_cons waiting] at waits
        simpa [asQueued, line] using waits
      | terminate | stopForMissing => exact .apart (endSession_apart answer _ _ _)

variable [Sub F] [Zero F]

omit [Add F] in
theorem listen_handles (listed : Bool) (event : ListenEvent Addr F) :
    HandleStep answer receiver (receiver.listen listed event) := by
  have session := listen_session receiver listed event
  refine .same session.1 session.2.2.2 fun addr asked waits => ?_
  cases event with
  | msg message dest =>
    rcases message_line
      { receiver with lastResponse := without receiver.lastResponse dest ++ [dest] } dest addr
      listed message with same | removed | ⟨event, peer, -, -, -, -, -, more⟩
    · rw [listen, same]
      exact waits
    · rw [listen, removed]
      exact mem_append_left _ waits
    · rw [listen, more]
      exact mem_append_left _ waits
  | accept dest fingerprint | rejected fingerprint dest | removedBy fingerprint => exact waits
  | closed dest =>
    have removed := line_proxyRemove receiver dest addr
    have more : .remove asked ∈ (receiver.proxyRemove dest).line addr := by
      rw [removed]
      exact mem_append_left _ waits
    exact more

theorem act_handles (taken : Act Addr F) :
    HandleStep answer receiver (receiver.act answer taken) := by
  have stays : HandleStep answer receiver receiver := .same rfl rfl fun _ _ waits => waits
  have sends : ∀ (next : Receiver Addr F) (request : ProxyRequest Addr F),
      SameSession receiver next → next.requests = receiver.requests →
      HandleStep answer receiver (next.send request) := by
    intro next request session same
    refine .same session.1 session.2.2.2 fun addr asked waits => ?_
    rw [line] at waits
    simp only [line, send, session.2.1, same, filterMap_append, ← append_assoc]
    exact mem_append_left _ waits
  cases taken with
  | listen event listed =>
    simp only [act]
    split
    · exact listen_handles answer receiver listed event
    · exact stays
  | tick stale =>
    simp only [act]
    split
    · have session := foldl_reap_session stale receiver
      refine .same session.1 session.2.2.2 fun addr asked waits => ?_
      rw [foldl_reap_line]
      exact mem_append_left _ waits
    · exact stays
  | notice =>
    simp only [act, takeNotice]
    split
    · split
      · exact stays
      · exact .same rfl rfl fun _ _ waits => waits
    · exact stays
  | reenable =>
    simp only [act]
    split
    · exact sends receiver .reenable ⟨rfl, rfl, rfl, rfl⟩ rfl
    · exact stays
  | stopForMissing =>
    simp only [act]
    split
    · exact sends { receiver with emulationActive := false } .stopForMissing
        ⟨rfl, rfl, rfl, rfl⟩ rfl
    · exact stays
  | terminate =>
    simp only [act]
    split
    · exact sends { receiver with listening := false, exitRequested := true } .terminate
        ⟨rfl, rfl, rfl, rfl⟩ rfl
    · exact stays
  | trust mayDriveUs => exact .same rfl rfl fun _ _ waits => waits
  | take order => exact takeRequest_handles answer receiver order
  | serve order => exact serve_handles answer receiver order
  | start scope => exact startSession_handles answer receiver scope
  | failStart =>
    simp only [act, failStart]
    split
    · refine .apart ?_
      dsimp only [Running]
      split <;> simp
    · exact stays
  | restart =>
    simp only [act, restart]
    split
    · exact .apart (by simp [Running])
    · exact stays
  | sessionEnded order =>
    simp only [act, sessionEnded]
    split
    · exact .apart (endSession_apart answer _ _ _)
    · exact stays

end Handles

/-! ## What is known of a press -/

/--
`Known addr held torn` is what is known of a press of the connection at an
address, given whether a teardown of that address waits behind it.  It is known
of every press that waits and of everything listed.
-/
structure Owned (Known : Addr → Held → Prop → Prop) (receiver : Receiver Addr F) : Prop where
  queued : ∀ addr front event peer sources back held,
    receiver.line addr = front ++ .input event peer sources :: back →
    kind (.input event) = .press held → Known addr held (TornDown back)
  listed : ∀ emulation handle held, receiver.phase = .running emulation →
    Lists emulation handle held → ∃ addr, receiver.handles.lookup addr = some handle ∧
      Known addr held (TornDown (receiver.line addr))

/-- More may be known of an address whose line ends with a teardown. -/
theorem Owned.closing {Known More : Addr → Held → Prop → Prop} {receiver : Receiver Addr F}
    (owned : Owned Known receiver) (Closed : Addr → Prop)
    (ends : ∀ addr, Closed addr → ∃ old asked, receiver.line addr = old ++ [.remove asked])
    (weaker : ∀ addr held (torn : Prop), Known addr held torn → (Closed addr → torn) →
      More addr held torn) : Owned More receiver := by
  constructor
  case queued =>
    intro addr front event peer sources back held split presses
    refine weaker addr held _ (owned.queued addr front event peer sources back held split presses) ?_
    intro closes
    obtain ⟨old, asked, line⟩ := ends addr closes
    rcases append_eq_append_cons (line.symm.trans split) with ⟨rest, -, rfl⟩ | ⟨gap, -, inner⟩
    · exact ⟨asked, mem_append_right _ mem_cons_self⟩
    · have member : Queued.input event peer sources ∈ [(.remove asked : Queued F)] := by
        rw [inner]
        simp
      cases mem_singleton.mp member
  case listed =>
    intro emulation handle held running lists
    obtain ⟨addr, owns, known⟩ := owned.listed emulation handle held running lists
    refine ⟨addr, owns, weaker addr held _ known fun closes => ?_⟩
    obtain ⟨old, asked, line⟩ := ends addr closes
    exact ⟨asked, by rw [line]; simp⟩

section Owned

variable {Known : Addr → Held → Prop → Prop}
  (mono : ∀ addr held (torn more : Prop), (torn → more) → Known addr held torn → Known addr held more)
  [Add F]

include mono in
theorem Shifts.owned {taken : Taken Addr F} {addr : Addr} {old new : List (Queued F)}
    (shifts : Shifts taken addr old new)
    (before : ∀ front event peer sources back held, old = front ++ .input event peer sources :: back →
      kind (.input event) = .press held → Known addr held (TornDown back))
    (joined : ∀ event held, (∃ message, Told (.msg message addr) taken ∧ Asks message event) →
      kind (.input event) = .press held → Known addr held False)
    {front back : List (Queued F)} {event : Event F} {peer : String} {sources : List Nat}
    {held : Held} (split : new = front ++ .input event peer sources :: back)
    (presses : kind (.input event) = .press held) : Known addr held (TornDown back) := by
  cases shifts with
  | asked item joins now =>
    rw [now] at split
    rcases append_eq_append_cons split with ⟨rest, inner, whole⟩ | ⟨gap, -, inner⟩
    · refine mono addr held _ _ (TornDown.mono fun asked waits => ?_)
        (before front event peer sources rest held inner presses)
      rw [whole]
      exact mem_append_left _ waits
    · have last : item = .input event peer sources := by
        have member : Queued.input event peer sources ∈ [item] := by
          rw [inner]
          simp
        exact (mem_singleton.mp member).symm
      cases joins with
      | remove => cases last
      | input message asked sender told asks permitted known driving =>
        cases last
        exact mono addr held _ _ False.elim (joined event held ⟨message, told, asks⟩ presses)
  | merged first last time dx dy later moreX moreY sender former source was now =>
    rw [now] at split
    rcases append_eq_append_cons split with ⟨rest, inner, whole⟩ | ⟨gap, -, inner⟩
    · refine mono addr held _ _ (TornDown.mono fun asked waits => ?_)
        (before front event peer sources _ held (by rw [was, inner, append_assoc]; rfl)
          presses)
      rw [whole]
      simpa using waits
    · cases gap with
      | nil =>
        cases inner
        cases presses
      | cons head rest =>
        obtain ⟨-, tail⟩ := List.cons.inj inner
        exact before (first ++ .input (.pointer (.motion time dx dy)) sender former ::
          .input (.pointer (.motion later moreX moreY)) sender [source] :: rest) event peer
          sources back held (by rw [was, tail]; simp) presses
  | served dropped was =>
    exact before (dropped ++ front) event peer sources back held
      (by rw [was, split, append_assoc]) presses

variable [Sub F] [Zero F] (answer : List (Call F) → Except E Unit)

include mono in
theorem Owned.step {receiver : Receiver Addr F} (owned : Owned Known receiver)
    (idle : Idle receiver)
    (kept : ∀ emulation, receiver.phase = .running emulation → Kept emulation)
    (taken : Act Addr F)
    (joined : ∀ addr event held,
      (∃ message, Told (.msg message addr) (receiver, taken) ∧ Asks message event) →
      kind (.input event) = .press held → Known addr held False) :
    Owned Known (receiver.step answer taken) := by
  constructor
  case queued =>
    intro addr front event peer sources back held split presses
    exact (step_shifts answer idle taken addr).owned mono (owned.queued addr) (joined addr) split
      presses
  case listed =>
    intro emulation handle held running lists
    have weaker : ∀ addr, Keeps receiver (receiver.act answer taken) addr →
        Known addr held (TornDown (receiver.line addr)) →
        Known addr held (TornDown ((receiver.act answer taken).line addr)) :=
      fun addr keeps => mono addr held _ _ (TornDown.mono keeps)
    cases act_handles answer receiver taken with
    | apart after => exact absurd ⟨emulation, running⟩ after
    | fresh now after nothing =>
      cases after.symm.trans running
      exact absurd lists (nothing handle held)
    | same after handles keeps =>
      obtain ⟨addr, owns, known⟩ := owned.listed emulation handle held
        (after.symm.trans running) lists
      exact ⟨addr, handles ▸ owns, weaker addr (keeps addr) known⟩
    | absent gone after unknown handles others =>
      obtain ⟨addr, owns, known⟩ := owned.listed emulation handle held
        (after.symm.trans running) lists
      have apart : addr ≠ gone := by
        rintro rfl
        rw [unknown] at owns
        cases owns
      exact ⟨addr, handles ▸ owns, weaker addr (others addr apart) known⟩
    | removed former order gone torn before after known handles others =>
      cases after.symm.trans running
      obtain ⟨old, other⟩ := (destroy_lists answer order former torn handle held).mp lists
      obtain ⟨addr, owns, knows⟩ := owned.listed former handle held before old
      have apart : addr ≠ gone := by
        rintro rfl
        exact other (Option.some.inj (owns.symm.trans known))
      refine ⟨addr, ?_, weaker addr (others addr apart) knows⟩
      have erased : (receiver.act answer taken).handles.lookup addr = some handle := by
        rw [handles, AList.lookup_erase_ne apart]
        exact owns
      exact erased
    | injected former created dest event peer sources through_ before through after owns handles
        front keeps =>
        cases after.symm.trans running
        rcases (consume_tells answer (kept former before) through event).2 handle held lists with
          old | ⟨rfl, presses⟩
        · obtain ⟨addr, before_owns, known⟩ := owned.listed former handle held before old
          exact ⟨addr, handles addr handle before_owns, weaker addr (keeps addr) known⟩
        · exact ⟨dest, owns, owned.queued dest [] event peer sources _ held front presses⟩

end Owned

end Receiver

end HopsFormal.Emulation
