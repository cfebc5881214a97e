import HopsFormal.Emulation.Lines

/-!
# What each task knows

The listening task knows which peer was accepted at an address and which
addresses have crossed; only what it hears and its watchdog change that.  The
emulation task knows its session; one lemma says everything a step can do to it.
-/

namespace HopsFormal.Emulation

open Capture (Event PointerEvent KeyboardEvent)
open List Lib

variable {Addr F E : Type} [DecidableEq Addr]

namespace Receiver

/-! ## What the listening task knows of the connections -/

variable (receiver : Receiver Addr F)

def SameConnections (next : Receiver Addr F) : Prop :=
  next.peerOf = receiver.peerOf ∧ next.driving = receiver.driving

theorem admit_leaves (addr : Addr) : ∃ refused requests, (receiver.admitPeer addr).2 =
      { receiver with refused := refused, requests := requests } := by
  unfold admitPeer
  split
  · exact ⟨_, receiver.requests, rfl⟩
  · split
    · exact ⟨receiver.refused, receiver.requests, rfl⟩
    · exact ⟨_, _, rfl⟩

omit [DecidableEq Addr] in
theorem proxyConsume_leaves (event : Event F) (addr : Addr) (peer : String) :
    ∃ requests, receiver.proxyConsume event addr peer = { receiver with requests := requests } := by
  unfold proxyConsume
  split
  · exact ⟨_, rfl⟩
  · exact ⟨receiver.requests, rfl⟩

theorem mem_without {addrs : List Addr} {addr other : Addr} :
    other ∈ without addrs addr ↔ other ∈ addrs ∧ other ≠ addr := by
  simp [without]

theorem foldl_reap_connections (stale : List Addr) (receiver : Receiver Addr F) :
    (stale.foldl reap receiver).peerOf = receiver.peerOf ∧
      ∀ addr ∈ (stale.foldl reap receiver).driving,
        addr ∈ receiver.driving ∧ ¬ (addr ∈ stale ∧ addr ∈ receiver.lastResponse) := by
  induction stale generalizing receiver with
  | nil => exact ⟨rfl, fun addr driving => ⟨driving, by simp⟩⟩
  | cons first rest ih =>
    obtain ⟨same, kept⟩ := ih (reap receiver first)
    rw [foldl_cons]
    by_cases known : first ∈ receiver.lastResponse
    · have reaped : reap receiver first = { receiver.proxyRemove first with
          refused := without receiver.refused first
          driving := without receiver.driving first
          lastResponse := without receiver.lastResponse first } := if_pos known
      refine ⟨by rw [same, reaped]; rfl, fun addr driving => ?_⟩
      obtain ⟨before, spared⟩ := kept addr driving
      rw [reaped] at before spared
      obtain ⟨drove, apart⟩ := mem_without.mp before
      refine ⟨drove, ?_⟩
      rintro ⟨member, heard⟩
      rcases mem_cons.mp member with equal | later
      · exact apart equal
      · exact spared ⟨later, mem_without.mpr ⟨heard, apart⟩⟩
    · have spared : reap receiver first = receiver := if_neg known
      rw [spared] at same kept ⊢
      refine ⟨same, fun addr driving => ⟨(kept addr driving).1, ?_⟩⟩
      rintro ⟨member, heard⟩
      rcases mem_cons.mp member with rfl | later
      · exact known heard
      · exact (kept addr driving).2 ⟨later, heard⟩

section Connections

variable [Sub F] [Zero F]

theorem message_leaves (receiver : Receiver Addr F) (addr : Addr) (listed : Bool)
    (message : Message F) : ∃ refused requests driving absmotion,
      receiver.message addr listed message = { receiver with
        refused := refused, requests := requests, driving := driving, absmotion := absmotion } ∧
      (message ≠ .enter → message ≠ .leave → driving = receiver.driving) ∧
      ∀ other ∈ driving, message = .enter ∧ other = addr ∧ receiver.inputPermitted addr = true ∨
        other ∈ receiver.driving ∧ ¬ (message = .leave ∧ other = addr) := by
  have stays : message ≠ .leave → ∀ other ∈ receiver.driving,
      message = .enter ∧ other = addr ∧ receiver.inputPermitted addr = true ∨
        other ∈ receiver.driving ∧ ¬ (message = .leave ∧ other = addr) :=
    fun stays _ drove => .inr ⟨drove, fun leaves => stays leaves.1⟩
  obtain ⟨refused, requests, same⟩ := receiver.admit_leaves addr
  cases message with
  | leave =>
    refine ⟨_, _, _, _, rfl, fun _ left => absurd rfl left, fun other driving => .inr ?_⟩
    obtain ⟨drove, apart⟩ := mem_without.mp driving
    exact ⟨drove, fun left => apart left.2⟩
  | other => exact ⟨_, _, _, _, rfl, fun _ _ => rfl, stays (by simp)⟩
  | enter =>
    rw [Receiver.message]
    cases decided : receiver.admitPeer addr with
    | mk whose admitted =>
      rw [decided] at same
      cases same
      cases whose with
      | none => exact ⟨_, _, _, _, rfl, fun entered => absurd rfl entered, stays (by simp)⟩
      | some peer =>
        obtain ⟨known, permitted, -⟩ := admit_some decided
        dsimp only
        split
        · refine ⟨_, _, _, _, rfl, fun entered => absurd rfl entered, fun other driving => ?_⟩
          rcases mem_append.mp driving with old | new
          · exact stays (by simp) other (mem_without.mp old).1
          · refine .inl ⟨rfl, mem_singleton.mp new, ?_⟩
            rw [inputPermitted, known]
            exact permitted
        · exact ⟨_, _, _, _, rfl, fun entered => absurd rfl entered, stays (by simp)⟩
  | input event =>
    rw [Receiver.message]
    cases decided : receiver.admitPeer addr with
    | mk whose admitted =>
      rw [decided] at same
      cases same
      cases whose with
      | none => exact ⟨_, _, _, _, rfl, fun _ _ => rfl, stays (by simp)⟩
      | some peer =>
        dsimp only
        split
        · obtain ⟨asked, consumes⟩ := proxyConsume_leaves { receiver with
            refused := refused, requests := requests } event addr peer
          exact ⟨_, _, _, _, consumes, fun _ _ => rfl, stays (by simp)⟩
        · exact ⟨_, _, _, _, rfl, fun _ _ => rfl, stays (by simp)⟩
  | pointerMotionAbsolute time vx vy =>
    rw [Receiver.message]
    cases decided : receiver.admitPeer addr with
    | mk whose admitted =>
      rw [decided] at same
      cases same
      cases whose with
      | none => exact ⟨_, _, _, _, rfl, fun _ _ => rfl, stays (by simp)⟩
      | some peer =>
        dsimp only
        split
        · obtain ⟨asked, consumes⟩ := proxyConsume_leaves { receiver with
            refused := refused, requests := requests
            absmotion := receiver.absmotion.insert addr (vx, vy) } _ addr peer
          exact ⟨_, _, _, _, consumes, fun _ _ => rfl, stays (by simp)⟩
        · exact ⟨_, _, _, _, rfl, fun _ _ => rfl, stays (by simp)⟩

variable [Add F] (answer : List (Call F) → Except E Unit)

/-- Only what the emulation task keeps for itself has changed, and the requests it takes. -/
def Emulates (receiver next : Receiver Addr F) : Prop :=
  ∃ requests notices phase pastCalls handles nextId queued, next = { receiver with
    requests := requests, notices := notices, phase := phase, pastCalls := pastCalls
    handles := handles, nextId := nextId, queued := queued }

omit [Sub F] [Zero F] [Add F] in
theorem serve_requests (receiver : Receiver Addr F) (order : HashOrder) :
    Emulates receiver (receiver.serve answer order) ∧
      (receiver.serve answer order).requests = receiver.requests := by
  unfold serve
  split
  · split
    · exact ⟨⟨_, _, _, _, _, _, _, rfl⟩, rfl⟩
    · split
      · dsimp only
        unfold handleOf
        split <;> split <;> exact ⟨⟨_, _, _, _, _, _, _, rfl⟩, rfl⟩
      · unfold removeHandle
        split <;> exact ⟨⟨_, _, _, _, _, _, _, rfl⟩, rfl⟩
    · unfold removeHandle
      split <;> exact ⟨⟨_, _, _, _, _, _, _, rfl⟩, rfl⟩
  · exact ⟨⟨_, _, _, _, _, _, _, rfl⟩, rfl⟩

omit [Sub F] [Zero F] in
theorem takeRequest_emulates (receiver : Receiver Addr F) (order : HashOrder) :
    Emulates receiver (receiver.takeRequest answer order) := by
  unfold takeRequest
  split
  · exact ⟨_, _, _, _, _, _, _, rfl⟩
  · dsimp only
    split
    · exact ⟨_, _, _, _, _, _, _, rfl⟩
    all_goals split <;> exact ⟨_, _, _, _, _, _, _, rfl⟩

omit [DecidableEq Addr] [Sub F] [Zero F] [Add F] in
theorem Emulates.connections {receiver next : Receiver Addr F} (emulates : Emulates receiver next) :
    SameConnections receiver next := by
  obtain ⟨_, _, _, _, _, _, _, rfl⟩ := emulates
  exact ⟨rfl, rfl⟩

def Act.Emulating : Act Addr F → Prop
  | .take _ | .serve _ | .start _ | .failStart | .restart | .sessionEnded _ => True
  | _ => False

theorem act_emulates (receiver : Receiver Addr F) (taken : Act Addr F)
    (emulating : taken.Emulating) : Emulates receiver (receiver.act answer taken) := by
  cases taken with
  | take order => exact takeRequest_emulates answer receiver order
  | serve order => exact (serve_requests answer receiver order).1
  | start scope =>
    simp only [act, startSession]
    split <;> exact ⟨_, _, _, _, _, _, _, rfl⟩
  | failStart =>
    simp only [act, failStart]
    split <;> exact ⟨_, _, _, _, _, _, _, rfl⟩
  | restart =>
    simp only [act, restart]
    split <;> exact ⟨_, _, _, _, _, _, _, rfl⟩
  | sessionEnded order =>
    simp only [act, sessionEnded]
    split <;> exact ⟨_, _, _, _, _, _, _, rfl⟩
  | _ => exact emulating.elim

/-- A step in which the listening task handled an event or let its watchdog look. -/
def Handles (taken : Taken Addr F) : Prop :=
  taken.1.listening = true ∧
    ((∃ event listed, taken.2 = .listen event listed) ∨ ∃ stale, taken.2 = .tick stale)

omit [DecidableEq Addr] [Sub F] [Zero F] [Add F] in
theorem Told.handles {event : ListenEvent Addr F} {taken : Taken Addr F}
    (told : Told event taken) : Handles taken :=
  ⟨told.1, .inl ⟨event, told.2⟩⟩

variable {addr : Addr} {receiver : Receiver Addr F}

omit [DecidableEq Addr] [Sub F] [Zero F] [Add F] in
theorem Parts.handles {taken : Taken Addr F} (parts : Parts addr taken) : Handles taken := by
  rcases parts with left | closed | ⟨awake, -, stale, ticked, -⟩
  · exact left.handles
  · exact closed.handles
  · exact ⟨awake, .inr ⟨stale, ticked⟩⟩

theorem step_connections (receiver : Receiver Addr F) (taken : Act Addr F)
    (other : ¬ Handles (receiver, taken)) :
    SameConnections receiver (receiver.step answer taken) := by
  have emulates := act_emulates answer receiver taken
  cases taken with
  | listen event listed =>
    have asleep : ¬ receiver.listening = true := fun awake =>
      other ⟨awake, .inl ⟨event, listed, rfl⟩⟩
    simp only [step, act, if_neg asleep]
    exact ⟨rfl, rfl⟩
  | tick stale =>
    have asleep : ¬ receiver.listening = true := fun awake =>
      other ⟨awake, .inr ⟨stale, rfl⟩⟩
    simp only [step, act, if_neg asleep]
    exact ⟨rfl, rfl⟩
  | notice =>
    simp only [step, act, takeNotice]
    split
    · split <;> exact ⟨rfl, rfl⟩
    · exact ⟨rfl, rfl⟩
  | reenable | stopForMissing | terminate =>
    simp only [step, act]
    split <;> exact ⟨rfl, rfl⟩
  | trust mayDriveUs => exact ⟨rfl, rfl⟩
  | take order | serve order | start scope | failStart | restart | sessionEnded order =>
    exact (emulates trivial).connections

theorem step_of_listen (awake : receiver.listening = true) (event : ListenEvent Addr F)
    (listed : Bool) : SameConnections (receiver.listen listed event)
      (receiver.step answer (.listen event listed)) := by
  simp only [step, act, if_pos awake]
  exact ⟨rfl, rfl⟩

theorem step_of_tick (awake : receiver.listening = true) (stale : List Addr) :
    SameConnections (stale.foldl reap receiver) (receiver.step answer (.tick stale)) := by
  simp only [step, act, if_pos awake]
  exact ⟨rfl, rfl⟩

theorem step_known {taken : Act Addr F} {peer : String}
    (known : (receiver.step answer taken).peerOf.lookup addr = some peer) :
    Told (.accept addr peer) (receiver, taken) ∨
      receiver.peerOf.lookup addr = some peer ∧
        ¬ (Told (.closed addr) (receiver, taken) ∨
          ∃ other, Told (.accept addr other) (receiver, taken)) := by
  by_cases handles : Handles (receiver, taken)
  · obtain ⟨awake, ⟨event, listed, rfl⟩ | ⟨stale, rfl⟩⟩ := handles
    · rw [(step_of_listen answer awake event listed).1] at known
      cases event with
      | msg message dest =>
        refine .inr ⟨?_, by simp [Told]⟩
        obtain ⟨_, _, _, _, same, -⟩ := message_leaves { receiver with
          lastResponse := without receiver.lastResponse dest ++ [dest] } dest listed message
        rw [listen, same] at known
        exact known
      | accept dest fingerprint =>
        simp only [listen] at known
        by_cases same : addr = dest
        · subst same
          rw [AList.lookup_insert] at known
          cases known
          exact .inl ⟨awake, listed, rfl⟩
        · rw [AList.lookup_insert_ne same] at known
          refine .inr ⟨known, ?_⟩
          simp [Told, Ne.symm same]
      | rejected fingerprint dest | removedBy fingerprint => exact .inr ⟨known, by simp [Told]⟩
      | closed dest =>
        simp only [listen] at known
        by_cases same : addr = dest
        · subst same
          rw [AList.lookup_erase] at known
          cases known
        · rw [AList.lookup_erase_ne same] at known
          refine .inr ⟨known, ?_⟩
          simp [Told, Ne.symm same]
    · rw [(step_of_tick answer awake stale).1, (foldl_reap_connections stale receiver).1] at known
      exact .inr ⟨known, by simp [Told]⟩
  · rw [(step_connections answer receiver taken handles).1] at known
    refine .inr ⟨known, ?_⟩
    rintro (closed | ⟨other, accepted⟩)
    · exact handles closed.handles
    · exact handles accepted.handles

theorem step_driving {taken : Act Addr F} (driving : addr ∈ (receiver.step answer taken).driving) :
    Told (.msg .enter addr) (receiver, taken) ∧ receiver.inputPermitted addr = true ∨
      addr ∈ receiver.driving ∧
        ¬ (Parts addr (receiver, taken) ∨
          ∃ other, Told (.accept addr other) (receiver, taken)) := by
  by_cases handles : Handles (receiver, taken)
  · obtain ⟨awake, ⟨event, listed, rfl⟩ | ⟨stale, rfl⟩⟩ := handles
    · rw [(step_of_listen answer awake event listed).2] at driving
      cases event with
      | msg message dest =>
        obtain ⟨_, _, _, _, same, -, crosses⟩ := message_leaves { receiver with
          lastResponse := without receiver.lastResponse dest ++ [dest] } dest listed message
        rw [listen, same] at driving
        rcases crosses addr driving with ⟨rfl, rfl, permitted⟩ | ⟨drove, stayed⟩
        · exact .inl ⟨⟨awake, listed, rfl⟩, permitted⟩
        · refine .inr ⟨drove, ?_⟩
          simp only [Parts, Told, Reaped]
          rintro ((⟨-, again, equal⟩ | ⟨-, again, equal⟩ | ⟨-, -, stale, equal, -⟩) |
            ⟨other, -, again, equal⟩)
          · cases equal
            exact stayed ⟨rfl, rfl⟩
          all_goals cases equal
      | accept dest fingerprint | closed dest =>
        obtain ⟨drove, apart⟩ := mem_without.mp driving
        refine .inr ⟨drove, ?_⟩
        simp [Parts, Told, Reaped, Ne.symm apart]
      | rejected fingerprint dest | removedBy fingerprint =>
        exact .inr ⟨driving, by simp [Parts, Told, Reaped]⟩
    · rw [(step_of_tick answer awake stale).2] at driving
      obtain ⟨drove, spared⟩ := (foldl_reap_connections stale receiver).2 addr driving
      refine .inr ⟨drove, ?_⟩
      simp only [Parts, Told, Reaped]
      rintro ((⟨-, again, equal⟩ | ⟨-, again, equal⟩ | ⟨-, heard, again, equal, among⟩) |
        ⟨other, -, again, equal⟩)
      · cases equal
      · cases equal
      · cases equal
        exact spared ⟨among, heard⟩
      · cases equal
  · rw [(step_connections answer receiver taken handles).2] at driving
    refine .inr ⟨driving, ?_⟩
    rintro (parts | ⟨other, accepted⟩)
    · exact handles parts.handles
    · exact handles accepted.handles

end Connections

/-! ## What the emulation task knows of its session -/

/-- The session is the one it was, and nothing was told to its backend. -/
def SameSession (next : Receiver Addr F) : Prop :=
  next.phase = receiver.phase ∧ next.queued = receiver.queued ∧
    next.pastCalls = receiver.pastCalls ∧ next.handles = receiver.handles

omit [DecidableEq Addr] in
theorem SameSession.trans {first second third : Receiver Addr F} (one : SameSession first second)
    (two : SameSession second third) : SameSession first third :=
  ⟨two.1.trans one.1, two.2.1.trans one.2.1, two.2.2.1.trans one.2.2.1, two.2.2.2.trans one.2.2.2⟩

theorem foldl_reap_session (stale : List Addr) (receiver : Receiver Addr F) :
    SameSession receiver (stale.foldl reap receiver) := by
  induction stale generalizing receiver with
  | nil => exact ⟨rfl, rfl, rfl, rfl⟩
  | cons first rest ih =>
    have reaped : SameSession receiver (reap receiver first) := by
      unfold reap
      split <;> exact ⟨rfl, rfl, rfl, rfl⟩
    exact reaped.trans (ih _)

section Sessions

variable [Sub F] [Zero F]

theorem listen_session (receiver : Receiver Addr F) (listed : Bool)
    (event : ListenEvent Addr F) : SameSession receiver (receiver.listen listed event) := by
  cases event with
  | msg message addr =>
    obtain ⟨_, _, _, _, same, -⟩ := message_leaves { receiver with
      lastResponse := without receiver.lastResponse addr ++ [addr] } addr listed message
    rw [listen, same]
    exact ⟨rfl, rfl, rfl, rfl⟩
  | accept addr fingerprint | rejected fingerprint addr | removedBy fingerprint | closed addr =>
    exact ⟨rfl, rfl, rfl, rfl⟩

variable [Add F] (answer : List (Call F) → Except E Unit) (receiver : Receiver Addr F)
  (order : HashOrder)

def Running : Prop :=
  ∃ emulation, receiver.phase = .running emulation

/-- Everything a step can do to the session. -/
inductive SessionStep (receiver : Receiver Addr F) (taken : Act Addr F)
    (next : Receiver Addr F) : Prop where
  | same (session : SameSession receiver next)
  | apart (before : ¬ Running receiver) (after : ¬ Running next)
      (queued : next.queued = receiver.queued) (past : next.pastCalls = receiver.pastCalls)
  | started (scope : ButtonScope) (handles : List Handle) (before : ¬ Running receiver)
      (after : next.phase = .running (handles.foldl
        (fun emulation handle => (emulation.create handle).2) (.withBackend scope)))
      (past : next.pastCalls = receiver.pastCalls)
  | sorted (before : Running receiver) (after : next.phase = receiver.phase)
      (past : next.pastCalls = receiver.pastCalls)
  | removed (emulation : InputEmulation F) (order : HashOrder) (handle : Handle)
      (before : receiver.phase = .running emulation)
      (after : next.phase = .running (emulation.destroy answer order handle))
      (past : next.pastCalls = receiver.pastCalls)
  | injected (emulation created : InputEmulation F) (order : HashOrder) (addr : Addr)
      (event : Event F) (peer : String) (sources : List Nat) (handle : Handle)
      (serves : taken = .serve order) (injects : receiver.injects = some (addr, event, peer, sources))
      (before : receiver.phase = .running emulation)
      (through : created = emulation ∨ created = (emulation.create handle).2)
      (after : next.phase = .running (created.consume answer event handle).2)
      (past : next.pastCalls = receiver.pastCalls)
  | failed (emulation created : InputEmulation F) (order : HashOrder) (addr : Addr)
      (event : Event F) (peer : String) (sources : List Nat) (handle : Handle)
      (serves : taken = .serve order) (injects : receiver.injects = some (addr, event, peer, sources))
      (before : receiver.phase = .running emulation)
      (through : created = emulation ∨ created = (emulation.create handle).2)
      (after : ¬ Running next) (queued : next.queued = .empty)
      (past : next.pastCalls = receiver.pastCalls ++
        ((created.consume answer event handle).2.terminate answer order).calls)
  | ended (emulation : InputEmulation F) (order : HashOrder)
      (before : receiver.phase = .running emulation)
      (after : ¬ Running next) (queued : next.queued = .empty)
      (past : next.pastCalls = receiver.pastCalls ++ (emulation.terminate answer order).calls)

omit [Sub F] [Zero F] [Add F] [DecidableEq Addr] in
theorem endSession_apart (emulation : InputEmulation F) :
    ¬ Running (receiver.endSession answer order emulation) := by
  rintro ⟨later, running⟩
  unfold endSession at running
  split at running <;> cases running

omit [Sub F] [Zero F] [Add F] in
theorem serve_session :
    SessionStep answer receiver (.serve order) (receiver.serve answer order) := by
  cases phase : receiver.phase with
  | running emulation =>
    cases popped : receiver.queued.pop with
    | none =>
      simp only [serve, phase, popped]
      exact .same ⟨rfl, rfl, rfl, rfl⟩
    | some front =>
      obtain ⟨addr, item, count, left⟩ := front
      cases item with
      | remove asked =>
        simp only [serve, phase, popped, removeHandle]
        split
        · exact .sorted ⟨emulation, phase⟩ phase.symm rfl
        · exact .removed emulation order _ phase rfl rfl
      | input event peer sources =>
        simp only [serve, phase, popped]
        split
        · rename_i permitted
          have injects : receiver.injects = some (addr, event, peer, sources) := by
            simp [Receiver.injects, phase, popped, permitted]
          generalize made : handleOf _ emulation addr = known
          obtain ⟨handle, created, known⟩ := known
          have through : created = emulation ∨ created = (emulation.create handle).2 := by
            unfold handleOf at made
            split at made
            · cases made
              exact .inl rfl
            · cases made
              exact .inr rfl
          have past : known.pastCalls = receiver.pastCalls := by
            unfold handleOf at made
            split at made <;> cases made <;> rfl
          split
          · exact .injected emulation created order addr event peer sources handle rfl
              injects phase through rfl past
          · refine .failed emulation created order addr event peer sources handle rfl
              injects phase through (endSession_apart answer _ _ _) rfl ?_
            rw [← past]
            rfl
        · simp only [removeHandle]
          split
          · exact .sorted ⟨emulation, phase⟩ phase.symm rfl
          · exact .removed emulation order _ phase rfl rfl
  | waiting | starting | stopped =>
    simp only [serve, phase]
    exact .same ⟨rfl, rfl, rfl, rfl⟩

omit [Sub F] [Zero F] in
theorem takeRequest_session :
    SessionStep answer receiver (.take order) (receiver.takeRequest answer order) := by
  cases waiting : receiver.requests with
  | nil =>
    simp only [takeRequest, waiting]
    exact .same ⟨rfl, rfl, rfl, rfl⟩
  | cons request rest =>
    cases phase : receiver.phase with
    | stopped =>
      simp only [takeRequest, waiting, phase]
      exact .same ⟨rfl, rfl, rfl, rfl⟩
    | waiting =>
      have before : ¬ Running receiver := by simp [Running, phase]
      simp only [takeRequest, waiting, phase]
      cases request with
      | reenable | terminate => exact .apart before (by simp [Running]) rfl rfl
      | input event dest peer source | remove dest asked | stopForMissing =>
        exact .same ⟨phase.symm, rfl, rfl, rfl⟩
    | starting =>
      have before : ¬ Running receiver := by simp [Running, phase]
      simp only [takeRequest, waiting, phase]
      cases request with
      | reenable | input event dest peer source | remove dest asked | stopForMissing =>
        exact .same ⟨phase.symm, rfl, rfl, rfl⟩
      | terminate => exact .apart before (by simp [Running]) rfl rfl
    | running emulation =>
      simp only [takeRequest, waiting, phase]
      cases request with
      | input event dest peer source | remove dest asked =>
        exact .sorted ⟨emulation, phase⟩ phase.symm rfl
      | reenable => exact .same ⟨phase.symm, rfl, rfl, rfl⟩
      | terminate | stopForMissing =>
        exact .ended emulation order phase (endSession_apart answer _ _ _) rfl rfl

theorem act_session (taken : Act Addr F) :
    SessionStep answer receiver taken (receiver.act answer taken) := by
  cases taken with
  | listen event listed =>
    simp only [act]
    split
    · exact .same (listen_session receiver listed event)
    · exact .same ⟨rfl, rfl, rfl, rfl⟩
  | tick stale =>
    simp only [act]
    split
    · exact .same (foldl_reap_session stale receiver)
    · exact .same ⟨rfl, rfl, rfl, rfl⟩
  | notice =>
    simp only [act, takeNotice]
    split
    · split <;> exact .same ⟨rfl, rfl, rfl, rfl⟩
    · exact .same ⟨rfl, rfl, rfl, rfl⟩
  | reenable | stopForMissing | terminate =>
    simp only [act]
    split <;> exact .same ⟨rfl, rfl, rfl, rfl⟩
  | trust mayDriveUs => exact .same ⟨rfl, rfl, rfl, rfl⟩
  | take order => exact takeRequest_session answer receiver order
  | serve order => exact serve_session answer receiver order
  | start scope =>
    cases phase : receiver.phase with
    | starting =>
      simp only [act, startSession, phase]
      exact .started scope _ (by simp [Running, phase]) rfl rfl
    | waiting | running emulation | stopped =>
      simp only [act, startSession, phase]
      exact .same ⟨rfl, rfl, rfl, rfl⟩
  | failStart =>
    cases phase : receiver.phase with
    | starting =>
      refine .apart (by simp [Running, phase]) ?_ ?_ ?_
      · simp only [act, failStart, phase, Running]
        split <;> simp
      · simp only [act, failStart, phase]
      · simp only [act, failStart, phase]
    | waiting | running emulation | stopped =>
      simp only [act, failStart, phase]
      exact .same ⟨rfl, rfl, rfl, rfl⟩
  | restart =>
    cases phase : receiver.phase with
    | waiting =>
      simp only [act, restart, phase]
      exact .apart (by simp [Running, phase]) (by simp [Running]) rfl rfl
    | starting | running emulation | stopped =>
      simp only [act, restart, phase]
      exact .same ⟨rfl, rfl, rfl, rfl⟩
  | sessionEnded order =>
    cases phase : receiver.phase with
    | running emulation =>
      simp only [act, sessionEnded, phase]
      exact .ended emulation order phase (endSession_apart answer _ _ _) rfl rfl
    | waiting | starting | stopped =>
      simp only [act, sessionEnded, phase]
      exact .same ⟨rfl, rfl, rfl, rfl⟩

theorem step_session (taken : Act Addr F) :
    SessionStep answer receiver taken (receiver.step answer taken) := by
  cases act_session answer receiver taken with
  | same session => exact .same session
  | apart before after queued past => exact .apart before after queued past
  | started scope handles before after past => exact .started scope handles before after past
  | sorted before after past => exact .sorted before after past
  | removed emulation order handle before after past =>
    exact .removed emulation order handle before after past
  | injected emulation created order addr event peer sources handle serves injects before through
      after past =>
      exact .injected emulation created order addr event peer sources handle serves injects before
        through after past
  | failed emulation created order addr event peer sources handle serves injects before through
      after queued past =>
      exact .failed emulation created order addr event peer sources handle serves injects before
        through after queued past
  | ended emulation order before after queued past =>
    exact .ended emulation order before after queued past

/-- Outside a session nothing is queued, ever. -/
theorem Idle.step {receiver : Receiver Addr F} (idle : Idle receiver) (taken : Act Addr F) :
    Idle (receiver.step answer taken) := by
  intro quiet addr
  cases step_session answer receiver taken with
  | same session =>
    rw [session.2.1]
    refine idle (fun emulation running => ?_) addr
    exact quiet emulation (session.1.trans running)
  | apart before after queued past =>
    rw [queued]
    exact idle (fun emulation running => before ⟨emulation, running⟩) addr
  | started scope handles before after past | removed emulation order handle before after past =>
    exact absurd after (quiet _)
  | sorted before after past =>
    obtain ⟨emulation, running⟩ := before
    exact absurd (after.trans running) (quiet emulation)
  | injected emulation created order at_ event peer sources handle serves injects before through
      after past => exact absurd after (quiet _)
  | failed emulation created order at_ event peer sources handle serves injects before through
      after queued past =>
      rw [queued]
      exact PeerQueues.empty_waiting addr
  | ended emulation order before after queued past =>
    rw [queued]
    exact PeerQueues.empty_waiting addr

end Sessions

/-! ## Ending -/

section Ending

variable [Sub F] [Zero F] [Add F] (answer : List (Call F) → Except E Unit)

theorem step_listening (receiver : Receiver Addr F) (taken : Act Addr F) :
    (receiver.step answer taken).listening = receiver.listening ∨ taken = .terminate := by
  have emulates := act_emulates answer receiver taken
  cases taken with
  | listen event listed =>
    left
    simp only [step, act]
    split
    · cases event with
      | msg message addr =>
        obtain ⟨_, _, _, _, same, -⟩ := message_leaves { receiver with
          lastResponse := without receiver.lastResponse addr ++ [addr] } addr listed message
        rw [listen, same]
      | accept addr fingerprint | rejected fingerprint addr | removedBy fingerprint
      | closed addr => rfl
    · rfl
  | tick stale =>
    left
    have reaped : ∀ start : Receiver Addr F,
        (stale.foldl reap start).listening = start.listening := by
      clear emulates
      induction stale with
      | nil => exact fun _ => rfl
      | cons first rest ih =>
        intro start
        rw [foldl_cons, ih]
        unfold reap
        split <;> rfl
    simp only [step, act]
    split
    · exact reaped receiver
    · rfl
  | notice =>
    left
    simp only [step, act, takeNotice]
    split
    · split <;> rfl
    · rfl
  | reenable | stopForMissing =>
    left
    simp only [step, act]
    split <;> rfl
  | terminate => exact .inr rfl
  | trust mayDriveUs => exact .inl rfl
  | take order | serve order | start scope | failStart | restart | sessionEnded order =>
    obtain ⟨_, _, _, _, _, _, _, same⟩ := emulates trivial
    left
    simp only [step, same]

variable {receiver : Receiver Addr F}

/-- The listening task does not start again. -/
theorem step_awake {taken : Act Addr F} (awake : (receiver.step answer taken).listening = true) :
    receiver.listening = true := by
  rcases step_listening answer receiver taken with same | rfl
  · rw [← same]
    exact awake
  · by_contra asleep
    simp only [step, act, if_neg asleep] at awake
    exact asleep awake

/-- Once the listening task has ended, emulation has stopped or is about to be told to. -/
def Ending (receiver : Receiver Addr F) : Prop :=
  receiver.listening = false → receiver.exitRequested = true ∧
    (receiver.phase = .stopped ∨ .terminate ∈ receiver.requests)

omit [Sub F] [Zero F] in
theorem takeRequest_ending (order : HashOrder) (exits : receiver.exitRequested = true)
    (ending : receiver.phase = .stopped ∨ .terminate ∈ receiver.requests) :
    (receiver.takeRequest answer order).exitRequested = true ∧
      ((receiver.takeRequest answer order).phase = .stopped ∨
        .terminate ∈ (receiver.takeRequest answer order).requests) := by
  cases waiting : receiver.requests with
  | nil =>
    have same : receiver.takeRequest answer order = receiver := by
      simp only [takeRequest, waiting]
    rw [same]
    exact ⟨exits, ending⟩
  | cons request rest =>
    rw [waiting] at ending
    cases phase : receiver.phase with
    | stopped =>
      have same : receiver.takeRequest answer order = receiver := by
        simp only [takeRequest, waiting, phase]
      rw [same]
      exact ⟨exits, .inl phase⟩
    | waiting | starting =>
      cases request <;> simp_all [takeRequest]
    | running emulation =>
      cases request <;> simp_all [takeRequest, endSession]

theorem Ending.step (ending : Ending receiver) (taken : Act Addr F) :
    Ending (receiver.step answer taken) := by
  intro ended
  cases awake : receiver.listening with
  | true =>
    rcases step_listening answer receiver taken with same | rfl
    · rw [same, awake] at ended
      cases ended
    · simp only [Receiver.step, act, if_pos awake]
      exact ⟨rfl, .inr (by simp [send])⟩
  | false =>
    obtain ⟨exits, stops⟩ := ending awake
    have asleep : ¬ receiver.listening = true := by simp [awake]
    cases taken with
    | listen event listed | tick stale | notice | reenable | stopForMissing | terminate =>
      simp only [Receiver.step, act, if_neg asleep]
      exact ⟨exits, stops⟩
    | trust mayDriveUs => exact ⟨exits, stops⟩
    | take order => exact takeRequest_ending answer order exits stops
    | serve order =>
      obtain ⟨⟨_, _, _, _, _, _, _, same⟩, requests⟩ := serve_requests answer receiver order
      refine ⟨(congrArg exitRequested same).trans exits, ?_⟩
      rcases stops with stopped | told
      · left
        simp only [Receiver.step, act, serve, stopped]
      · right
        simp only [Receiver.step, act, requests]
        exact told
    | start scope =>
      simp only [Receiver.step, act, startSession]
      split
      · rename_i starting
        exact ⟨exits, .inr (stops.resolve_left (by simp [starting]))⟩
      · exact ⟨exits, stops⟩
    | failStart =>
      simp only [Receiver.step, act, failStart]
      split
      · exact ⟨exits, .inl (by simp [exits])⟩
      · exact ⟨exits, stops⟩
    | restart =>
      simp only [Receiver.step, act, restart]
      split
      · rename_i waiting
        exact ⟨exits, .inr (stops.resolve_left (by simp [waiting]))⟩
      · exact ⟨exits, stops⟩
    | sessionEnded order =>
      simp only [Receiver.step, act, sessionEnded]
      split
      · exact ⟨exits, .inl (by simp [endSession, exits])⟩
      · exact ⟨exits, stops⟩

end Ending

end Receiver

end HopsFormal.Emulation
