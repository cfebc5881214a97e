import HopsFormal.Emulation.Receiver
import HopsFormal.Lib.Basic

/-!
# What waits for a connection

Whatever is asked for an address stands in one line: first what is sorted into
its queue, then what is still on the way there.  A step adds one request to the
end of a line, merges two motions that stand next to each other, or takes
requests from its front.  Every request carries the numbers of the steps it was
asked in, so that a line is always in the order of those steps.
-/

namespace HopsFormal.Emulation

open Capture (Event PointerEvent KeyboardEvent)
open List Lib

variable {Addr F E : Type} [DecidableEq Addr]

namespace Receiver

/-! ## What happened to a connection -/

abbrev Taken (Addr F : Type) := Receiver Addr F × Act Addr F

/-- A step in which the listening task heard an event. -/
def Told (event : ListenEvent Addr F) (taken : Taken Addr F) : Prop :=
  taken.1.listening = true ∧ ∃ listed, taken.2 = .listen event listed

/-- A step in which the watchdog gave up on an address. -/
def Reaped (addr : Addr) (taken : Taken Addr F) : Prop :=
  taken.1.listening = true ∧ addr ∈ taken.1.lastResponse ∧
    ∃ stale, taken.2 = .tick stale ∧ addr ∈ stale

/-- Accepted for a peer, and neither closed nor accepted again since. -/
def Accepted (addr : Addr) (peer : String) (past : List (Taken Addr F)) : Prop :=
  Since (fun taken => Told (.closed addr) taken ∨ ∃ other, Told (.accept addr other) taken)
    (fun _ taken _ => Told (.accept addr peer) taken) past

/-- The end of a connection's crossing: its leaving, closing, reaping or a new connection. -/
def Parts (addr : Addr) (taken : Taken Addr F) : Prop :=
  Told (.msg .leave addr) taken ∨ Told (.closed addr) taken ∨ Reaped addr taken

/-- Crossed onto this machine while it was permitted to, and neither left nor closed since. -/
def Entered (addr : Addr) (past : List (Taken Addr F)) : Prop :=
  Since (fun taken => Parts addr taken ∨ ∃ other, Told (.accept addr other) taken)
    (fun _ taken _ => Told (.msg .enter addr) taken ∧ taken.1.inputPermitted addr = true) past

/-- The event a message asks to inject; where an absolute motion starts is not told by it. -/
inductive Asks : Message F → Event F → Prop where
  | input (event : Event F) : Asks (.input event) event
  | motion (time : UInt32) (vx vy dx dy : F) :
      Asks (.pointerMotionAbsolute time vx vy) (.pointer (.motion time dx dy))

/--
The message a step heard asked for an event, from a connection that had been
accepted for the peer, had crossed and not left, while the peer could drive this
machine.
-/
def Qualified (past : List (Taken Addr F)) (number : Nat) (addr : Addr) (peer : String)
    (event : Event F) : Prop :=
  ∃ before taken after message, past = before ++ taken :: after ∧ before.length = number ∧
    Told (.msg message addr) taken ∧ Asks message event ∧ taken.1.mayDriveUs peer = true ∧
    Accepted addr peer before ∧ Entered addr before

variable {addr : Addr} {peer : String} {event : Event F} {receiver next : Receiver Addr F}

theorem Qualified.snoc {past : List (Taken Addr F)} {number : Nat}
    (qualified : Qualified past number addr peer event) (taken : Taken Addr F) :
    Qualified (past ++ [taken]) number addr peer event := by
  obtain ⟨before, step, after, message, rfl, rest⟩ := qualified
  exact ⟨before, step, after ++ [taken], message, by simp, rest⟩

/-- The event made of several: one by itself, or motions added up. -/
inductive Made [Add F] : Event F → List (Event F) → Prop where
  | one (event : Event F) : Made event [event]
  | more {time : UInt32} {dx dy : F} {parts : List (Event F)} (later : UInt32) (moreX moreY : F) :
      Made (.pointer (.motion time dx dy)) parts →
      Made (.pointer (.motion later (dx + moreX) (dy + moreY)))
        (parts ++ [.pointer (.motion later moreX moreY)])

theorem Made.parts_ne_nil [Add F] {parts : List (Event F)} (made : Made event parts) :
    parts ≠ [] := by
  cases made <;> simp

theorem Made.of_single [Add F] {part : Event F} {parts : List (Event F)} (made : Made event parts)
    (single : parts = [part]) : event = part := by
  cases made with
  | one event => exact (List.cons.inj single).1
  | more later moreX moreY before =>
    have nothing := (append_inj' (single.trans (nil_append [part]).symm) rfl).1
    exact absurd nothing before.parts_ne_nil

/-- A request to inject is made of messages that each qualify. -/
def Sound [Add F] (past : List (Taken Addr F)) (addr : Addr) (event : Event F) (peer : String)
    (sources : List Nat) : Prop :=
  ∃ parts, List.Forall₂ (fun number part => Qualified past number addr peer part) sources parts ∧
    Made event parts

theorem Sound.snoc [Add F] {past : List (Taken Addr F)} {sources : List Nat}
    (sound : Sound past addr event peer sources) (taken : Taken Addr F) :
    Sound (past ++ [taken]) addr event peer sources := by
  obtain ⟨parts, each, made⟩ := sound
  exact ⟨parts, each.imp fun _ _ qualified => qualified.snoc taken, made⟩

/-! ## What waits for an address -/

/-- What a request asks for an address. -/
def asQueued (addr : Addr) : ProxyRequest Addr F → Option (Queued F)
  | .input event dest peer source =>
    if dest = addr then some (.input event peer [source]) else none
  | .remove dest asked => if dest = addr then some (.remove asked) else none
  | _ => none

/-- Everything asked for an address and not yet served: first what is sorted. -/
def line (receiver : Receiver Addr F) (addr : Addr) : List (Queued F) :=
  receiver.queued.waiting addr ++ receiver.requests.filterMap (asQueued addr)

/-- The messages a line is made of. -/
def numbers (line : List (Queued F)) : List Nat := line.flatMap Queued.numbers

/-- A request a step may add to what waits for an address. -/
inductive Joins (taken : Taken Addr F) (addr : Addr) : Queued F → Prop where
  | remove : Joins taken addr (.remove taken.1.now)
  | input (message : Message F) (event : Event F) (peer : String)
      (told : Told (.msg message addr) taken) (asks : Asks message event)
      (permitted : taken.1.mayDriveUs peer = true)
      (known : taken.1.peerOf.lookup addr = some peer) (driving : addr ∈ taken.1.driving) :
      Joins taken addr (.input event peer [taken.1.now])

/-- What one step may do to what waits for an address. -/
inductive Shifts [Add F] (taken : Taken Addr F) (addr : Addr) (old new : List (Queued F)) :
    Prop where
  | asked (item : Queued F) (joins : Joins taken addr item) (now : new = old ++ [item])
  | merged (front back : List (Queued F)) (time : UInt32) (dx dy : F) (later : UInt32)
      (moreX moreY : F) (peer : String) (sources : List Nat) (source : Nat)
      (before : old = front ++ .input (.pointer (.motion time dx dy)) peer sources ::
        .input (.pointer (.motion later moreX moreY)) peer [source] :: back)
      (now : new = front ++ .input (.pointer (.motion later (dx + moreX) (dy + moreY))) peer
        (sources ++ [source]) :: back)
  | served (dropped : List (Queued F)) (before : old = dropped ++ new)

namespace Shifts

variable [Add F] {taken : Taken Addr F} {addr : Addr} {old new : List (Queued F)}

theorem refl (taken : Taken Addr F) (addr : Addr) (items : List (Queued F)) :
    Shifts taken addr items items :=
  .served [] rfl

section

variable (shifts : Shifts taken addr old new)
include shifts

theorem mem_numbers {number : Nat} (member : number ∈ numbers new) :
    number ∈ numbers old ∨ number = taken.1.now := by
  cases shifts with
  | asked item joins now =>
    rw [now, numbers, flatMap_append, mem_append] at member
    refine member.imp_right fun added => ?_
    cases joins <;> simpa [Queued.numbers] using added
  | merged front back time dx dy later moreX moreY peer sources source before now =>
    left
    rw [before]
    rw [now] at member
    simpa [numbers, Queued.numbers] using member
  | served dropped before =>
    left
    rw [before, numbers, flatMap_append]
    exact mem_append_right _ member

theorem ordered (sorted : (numbers old).Pairwise (· < ·))
    (past : ∀ number ∈ numbers old, number < taken.1.now) : (numbers new).Pairwise (· < ·) := by
  cases shifts with
  | asked item joins now =>
    rw [now, numbers, flatMap_append, pairwise_append]
    refine ⟨sorted, by cases joins <;> simp [Queued.numbers], fun number member last added => ?_⟩
    have recent : last = taken.1.now := by
      cases joins <;> simpa [Queued.numbers] using added
    rw [recent]
    exact past number member
  | merged front back time dx dy later moreX moreY peer sources source before now =>
    rw [before] at sorted
    rw [now]
    simpa [numbers, Queued.numbers] using sorted
  | served dropped before =>
    rw [before, numbers, flatMap_append] at sorted
    exact (pairwise_append.mp sorted).2.1

/-- A teardown goes on waiting until everything before it is gone. -/
theorem remove_stays (sorted : (numbers old).Pairwise (· < ·)) {asked : Nat}
    (waits : .remove asked ∈ old) :
    .remove asked ∈ new ∨ ∀ number ∈ numbers new, asked < number := by
  cases shifts with
  | asked item joins now =>
    left
    rw [now]
    exact mem_append_left _ waits
  | merged front back time dx dy later moreX moreY peer sources source before now =>
    left
    rw [before] at waits
    rw [now]
    simpa using waits
  | served dropped before =>
    rw [before] at waits
    rcases mem_append.mp waits with gone | stays
    · right
      rw [before, numbers, flatMap_append] at sorted
      intro number member
      refine (pairwise_append.mp sorted).2.2 asked ?_ number member
      exact mem_flatMap.mpr ⟨_, gone, by simp [Queued.numbers]⟩
    · exact .inl stays

end

end Shifts

/-! ## The listening task -/

theorem line_proxyRemove (receiver : Receiver Addr F) (addr other : Addr) :
    (receiver.proxyRemove addr).line other =
      receiver.line other ++ if addr = other then [.remove receiver.now] else [] := by
  unfold line proxyRemove send
  rw [filterMap_append, ← append_assoc]
  by_cases same : addr = other
  · simp [asQueued, same]
  · simp [asQueued, same]

theorem line_proxyConsume (receiver : Receiver Addr F) (event : Event F) (addr other : Addr)
    (peer : String) :
    (receiver.proxyConsume event addr peer).line other = receiver.line other ∨
      addr = other ∧ (receiver.proxyConsume event addr peer).line other =
        receiver.line other ++ [.input event peer [receiver.now]] := by
  unfold proxyConsume
  split
  · unfold line send
    rw [filterMap_append, ← append_assoc]
    by_cases same : addr = other
    · exact .inr ⟨same, by simp [asQueued, same]⟩
    · exact .inl (by simp [asQueued, same])
  · exact .inl rfl

theorem admit_some (admitted : receiver.admitPeer addr = (some peer, next)) :
    receiver.peerOf.lookup addr = some peer ∧ receiver.mayDriveUs peer = true ∧
      next = { receiver with refused := without receiver.refused addr } := by
  unfold admitPeer at admitted
  split at admitted
  · rename_i permitted
    obtain ⟨known, same⟩ := Prod.mk.inj admitted
    rw [inputPermitted, known] at permitted
    exact ⟨known, permitted, same.symm⟩
  · split at admitted <;> cases admitted

theorem admit_none (turned : receiver.admitPeer addr = (none, next)) : next = receiver ∨
      next = { receiver with refused := receiver.refused ++ [addr] }.proxyRemove addr := by
  unfold admitPeer at turned
  split at turned
  · rename_i permitted
    obtain ⟨unknown, -⟩ := Prod.mk.inj turned
    rw [inputPermitted, unknown] at permitted
    cases permitted
  · split at turned
    · exact .inl (Prod.mk.inj turned).2.symm
    · exact .inr (Prod.mk.inj turned).2.symm

/-- Being turned away adds at most a teardown, of the address itself. -/
theorem admit_none_line {other : Addr} (turned : receiver.admitPeer addr = (none, next)) :
    next.line other = receiver.line other ∨
      next.line other = receiver.line other ++ [.remove receiver.now] := by
  rcases admit_none turned with rfl | rfl
  · exact .inl rfl
  · rw [line_proxyRemove]
    split
    · exact .inr rfl
    · exact .inl (append_nil _)

/-- The watchdog asks for one teardown of each address it gives up on. -/
theorem foldl_reap_line (stale : List Addr) (receiver : Receiver Addr F) (addr : Addr) :
    (stale.foldl reap receiver).line addr =
      receiver.line addr ++
        if addr ∈ stale ∧ addr ∈ receiver.lastResponse then [.remove receiver.now] else [] := by
  induction stale generalizing receiver with
  | nil => simp
  | cons first rest ih =>
    rw [foldl_cons, ih]
    by_cases known : first ∈ receiver.lastResponse
    · have reaped : (reap receiver first).line addr =
          receiver.line addr ++ if first = addr then [.remove receiver.now] else [] := by
        rw [reap, if_pos known]
        exact line_proxyRemove receiver first addr
      have heard : addr ∈ (reap receiver first).lastResponse ↔
          addr ∈ receiver.lastResponse ∧ addr ≠ first := by
        rw [reap, if_pos known]
        simp [without]
      have now : (reap receiver first).now = receiver.now := by
        rw [reap, if_pos known]
        rfl
      simp only [reaped, heard, now, append_assoc]
      by_cases same : first = addr
      · subst same
        simp [known]
      · have apart : addr ≠ first := fun equal => same equal.symm
        simp [same, apart]
    · rw [reap, if_neg known]
      by_cases same : addr = first
      · subst same
        simp [known]
      · simp [same]

section Listening

variable [Sub F] [Zero F]

theorem message_line (receiver : Receiver Addr F) (addr other : Addr) (listed : Bool)
    (message : Message F) :
    (receiver.message addr listed message).line other = receiver.line other ∨
    (receiver.message addr listed message).line other =
      receiver.line other ++ [.remove receiver.now] ∨
    ∃ event peer, addr = other ∧ Asks message event ∧ receiver.mayDriveUs peer = true ∧
      receiver.peerOf.lookup addr = some peer ∧ addr ∈ receiver.driving ∧
      (receiver.message addr listed message).line other =
        receiver.line other ++ [.input event peer [receiver.now]] := by
  cases message with
  | enter =>
    simp only [Receiver.message]
    cases decided : receiver.admitPeer addr with
    | mk whose admitted =>
      cases whose with
      | none => exact (admit_none_line decided).imp_right .inl
      | some peer =>
        obtain ⟨-, -, rfl⟩ := admit_some decided
        dsimp only
        split
        · exact .inl rfl
        · exact .inl rfl
  | leave =>
    have line := line_proxyRemove { receiver with driving := without receiver.driving addr }
      addr other
    by_cases same : addr = other
    · rw [if_pos same] at line
      exact .inr (.inl line)
    · rw [if_neg same, append_nil] at line
      exact .inl line
  | input event =>
    simp only [Receiver.message]
    cases decided : receiver.admitPeer addr with
    | mk whose admitted =>
      cases whose with
      | none => exact (admit_none_line decided).imp_right .inl
      | some peer =>
        obtain ⟨known, permitted, rfl⟩ := admit_some decided
        dsimp only
        split
        · rename_i driving
          rcases line_proxyConsume
            { receiver with refused := without receiver.refused addr } event addr other peer
            with same | ⟨here, more⟩
          · exact .inl same
          · exact .inr (.inr ⟨event, peer, here, .input event, permitted, known, driving, more⟩)
        · exact .inl rfl
  | pointerMotionAbsolute time vx vy =>
    simp only [Receiver.message]
    cases decided : receiver.admitPeer addr with
    | mk whose admitted =>
      cases whose with
      | none => exact (admit_none_line decided).imp_right .inl
      | some peer =>
        obtain ⟨known, permitted, rfl⟩ := admit_some decided
        dsimp only
        split
        · rename_i driving
          generalize absmotionDelta _ addr vx vy = moved
          obtain ⟨dx, dy⟩ := moved
          rcases line_proxyConsume
            { receiver with
              refused := without receiver.refused addr
              absmotion := receiver.absmotion.insert addr (vx, vy) }
            (.pointer (.motion time dx dy)) addr other peer with same | ⟨here, more⟩
          · exact .inl same
          · exact .inr (.inr ⟨_, peer, here, .motion time vx vy dx dy, permitted, known,
              driving, more⟩)
        · exact .inl rfl
  | other => exact .inl rfl

end Listening

/-! ## The emulation task -/

/-- Nothing waits in the queues unless a session runs. -/
def Idle (receiver : Receiver Addr F) : Prop :=
  (∀ emulation, receiver.phase ≠ .running emulation) → ∀ addr, receiver.queued.waiting addr = []

section Emulating

variable (answer : List (Call F) → Except E Unit)

theorem removeHandle_line (receiver : Receiver Addr F) (order : HashOrder)
    (emulation : InputEmulation F) (addr other : Addr) :
    (receiver.removeHandle answer order emulation addr).line other = receiver.line other := by
  unfold removeHandle
  split <;> rfl

theorem handleOf_line (receiver : Receiver Addr F) (emulation : InputEmulation F)
    (addr other : Addr) :
    (receiver.handleOf emulation addr).2.2.line other = receiver.line other := by
  unfold handleOf
  split <;> rfl

theorem serve_line (receiver : Receiver Addr F) (order : HashOrder) (addr : Addr) :
    ∃ dropped, receiver.line addr = dropped ++ (receiver.serve answer order).line addr := by
  unfold serve
  split
  · rename_i emulation running
    cases popped : receiver.queued.pop with
    | none => exact ⟨[], rfl⟩
    | some next =>
      obtain ⟨first, item, count, left⟩ := next
      obtain ⟨front, others⟩ := (PeerQueues.pop_spec popped).1
      have taken : ∃ dropped, receiver.line addr =
          dropped ++ { receiver with queued := left }.line addr := by
        by_cases same : addr = first
        · subst same
          exact ⟨[item], by simp [line, front]⟩
        · exact ⟨[], by simp [line, others addr same]⟩
      cases item with
      | remove asked =>
        rw [removeHandle_line]
        exact taken
      | input event peer sources =>
        dsimp only
        split
        · generalize made : handleOf _ emulation first = known
          have same : known.2.2.line addr = { receiver with queued := left }.line addr := by
            rw [← made]
            exact handleOf_line _ _ _ _
          split
          · rw [← same] at taken
            exact taken
          · rw [← same] at taken
            obtain ⟨dropped, before⟩ := taken
            refine ⟨dropped ++ known.2.2.queued.waiting addr, ?_⟩
            rw [before, append_assoc]
            rfl
        · rw [removeHandle_line]
          obtain ⟨dropped, before⟩ := taken
          by_cases same : addr = first
          · refine ⟨receiver.queued.waiting addr, ?_⟩
            simp [line, PeerQueues.dropPeer_waiting, same]
          · refine ⟨dropped, ?_⟩
            rw [before]
            simp [line, PeerQueues.dropPeer_waiting, same]
  · exact ⟨[], rfl⟩

/-- A turn that finds the permission of a peer gone drops everything sorted for its address. -/
def refuses (receiver : Receiver Addr F) : Option Addr :=
  match receiver.phase with
  | .running _ =>
    match receiver.queued.pop with
    | some (addr, .input _ peer _, _, _) => if receiver.mayDriveUs peer then none else some addr
    | _ => none
  | _ => none

variable {receiver : Receiver Addr F} {addr : Addr} {request : ProxyRequest Addr F}
  {rest : List (ProxyRequest Addr F)}

theorem refuses_line (refused : receiver.refuses = some addr) (order : HashOrder) :
    receiver.line addr =
      receiver.queued.waiting addr ++ (receiver.serve answer order).line addr := by
  unfold refuses at refused
  split at refused
  · rename_i emulation running
    split at refused
    · rename_i first event peer sources count left popped
      split at refused
      · cases refused
      · rename_i denied
        obtain rfl := Option.some.inj refused
        simp only [serve, running, popped]
        rw [if_neg denied, removeHandle_line]
        simp [line, PeerQueues.dropPeer_waiting]
    · cases refused
  · cases refused

theorem line_cons (waiting : receiver.requests = request :: rest) (addr : Addr) :
    receiver.line addr = receiver.queued.waiting addr ++ (asQueued addr request).toList ++
      rest.filterMap (asQueued addr) := by
  rw [line, waiting, filterMap_cons]
  cases asQueued addr request <;> simp

variable [Add F]

section

variable (waiting : receiver.requests = request :: rest)
include waiting

theorem push_line {dest : Addr} {item : Queued F} (one : item.numbers.length = 1)
    (asks : ∀ addr, asQueued addr request = if dest = addr then some item else none) (addr : Addr) :
    let sorted := { receiver with
      requests := rest
      queued := (receiver.queued.push dest item).2 }
    sorted.line addr = receiver.line addr ∨
      ∃ front back time dx dy later moreX moreY peer sources source,
        receiver.line addr = front ++ .input (.pointer (.motion time dx dy)) peer sources ::
          .input (.pointer (.motion later moreX moreY)) peer [source] :: back ∧
        sorted.line addr = front ++
          .input (.pointer (.motion later (dx + moreX) (dy + moreY))) peer
            (sources ++ [source]) :: back := by
  obtain ⟨others, here⟩ := PeerQueues.push_waiting receiver.queued dest item
  rw [line_cons waiting, asks addr]
  by_cases same : dest = addr
  · subst same
    simp only [line, if_pos, Option.toList_some]
    rcases here with joined | ⟨front, time, dx, dy, later, moreX, moreY, peer, sources, more,
      before, rfl, sum⟩
    · rw [joined]
      exact .inl rfl
    · obtain ⟨source, rfl⟩ := length_eq_one_iff.mp one
      refine .inr ⟨front, rest.filterMap (asQueued dest), time, dx, dy, later, moreX, moreY, peer,
        sources, source, ?_, ?_⟩
      · rw [before]
        simp
      · rw [sum]
        simp
  · simp only [line, if_neg same, Option.toList_none, append_nil,
      others addr (fun equal => same equal.symm)]
    exact .inl trivial

theorem push_shifts {dest : Addr} {item : Queued F} (one : item.numbers.length = 1)
    (asks : ∀ addr, asQueued addr request = if dest = addr then some item else none)
    (taken : Taken Addr F) (addr : Addr) : Shifts taken addr (receiver.line addr)
      ({ receiver with
        requests := rest
        queued := (receiver.queued.push dest item).2 }.line addr) := by
  rcases push_line waiting one asks addr with same | ⟨front, back, time, dx, dy, later, moreX,
    moreY, peer, sources, source, before, now⟩
  · exact .served [] same.symm
  · exact .merged front back time dx dy later moreX moreY peer sources source before now

theorem drop_shifts {next : Receiver Addr F} (idle : receiver.queued.waiting addr = [])
    (left : next.requests = rest) (same : next.queued = receiver.queued) (taken : Taken Addr F) :
    Shifts taken addr (receiver.line addr) (next.line addr) := by
  refine .served (asQueued addr request).toList ?_
  rw [line_cons waiting, line, left, same, idle, nil_append, nil_append]

end

theorem takeRequest_shifts (idle : Idle receiver) (order : HashOrder) (taken : Taken Addr F)
    (addr : Addr) :
    Shifts taken addr (receiver.line addr) ((receiver.takeRequest answer order).line addr) := by
  unfold takeRequest
  cases waiting : receiver.requests with
  | nil => exact .refl ..
  | cons request rest =>
    cases phase : receiver.phase with
    | stopped => exact .refl ..
    | waiting | starting =>
      have nothing := idle (by simp [phase]) addr
      cases request <;> refine drop_shifts waiting nothing ?_ ?_ taken <;> rfl
    | running emulation =>
      cases request with
      | input event dest peer source | remove dest asked =>
        exact push_shifts waiting rfl (fun _ => rfl) taken addr
      | terminate | stopForMissing =>
        refine .served (receiver.queued.waiting addr) ?_
        rw [line_cons waiting]
        simp [asQueued, endSession, line, PeerQueues.empty_waiting]
      | reenable =>
        refine .served [] ?_
        rw [line_cons waiting]
        simp [asQueued, line]

theorem send_shifts (receiver : Receiver Addr F) (nothing : asQueued addr request = none)
    (taken : Taken Addr F) :
    Shifts taken addr (receiver.line addr) ((receiver.send request).line addr) := by
  refine .served [] ?_
  simp [line, send, nothing]

end Emulating

/-! ## One step -/

section Steps

variable [Add F] [Sub F] [Zero F] (answer : List (Call F) → Except E Unit)
  {receiver : Receiver Addr F}

theorem listen_shifts {event : ListenEvent Addr F} {listed : Bool}
    (awake : receiver.listening = true) (addr : Addr) :
    Shifts (receiver, .listen event listed) addr (receiver.line addr)
      ((receiver.listen listed event).line addr) := by
  cases event with
  | msg message dest =>
    rcases message_line
      { receiver with lastResponse := without receiver.lastResponse dest ++ [dest] } dest addr
      listed message with same | removed | ⟨event, peer, rfl, asks, permitted, known, driving,
      more⟩
    · exact .served [] same.symm
    · exact .asked _ .remove removed
    · exact .asked _ (.input message event peer ⟨awake, listed, rfl⟩ asks permitted known
        driving) more
  | accept dest fingerprint | rejected fingerprint dest | removedBy fingerprint => exact .refl ..
  | closed dest =>
    have removed := line_proxyRemove receiver dest addr
    by_cases same : dest = addr
    · rw [if_pos same] at removed
      exact .asked _ .remove removed
    · rw [if_neg same, append_nil] at removed
      exact .served [] removed.symm

theorem step_shifts (idle : Idle receiver) (taken : Act Addr F) (addr : Addr) :
    Shifts (receiver, taken) addr (receiver.line addr)
      ((receiver.step answer taken).line addr) := by
  have awake_only : ∀ next : Receiver Addr F,
      (receiver.listening = true →
        Shifts (receiver, taken) addr (receiver.line addr) (next.line addr)) →
      Shifts (receiver, taken) addr (receiver.line addr)
        ((if receiver.listening = true then next else receiver).line addr) := by
    intro next shifts
    split
    · rename_i awake
      exact shifts awake
    · exact .refl ..
  cases taken with
  | listen event listed => exact awake_only _ fun awake => listen_shifts awake addr
  | tick stale =>
    refine awake_only _ fun awake => ?_
    rw [foldl_reap_line]
    split
    · exact .asked _ .remove rfl
    · rw [append_nil]
      exact .refl ..
  | notice =>
    refine awake_only _ fun awake => ?_
    unfold takeNotice
    split
    · exact .refl ..
    · exact .refl ..
  | reenable => exact awake_only _ fun awake => send_shifts receiver rfl _
  | stopForMissing =>
    exact awake_only _ fun awake =>
      send_shifts { receiver with emulationActive := false } rfl _
  | terminate =>
    exact awake_only _ fun awake =>
      send_shifts { receiver with listening := false, exitRequested := true } rfl _
  | trust mayDriveUs => exact .refl ..
  | take order => exact takeRequest_shifts answer idle order _ addr
  | serve order =>
    obtain ⟨dropped, before⟩ := serve_line answer receiver order addr
    exact .served dropped before
  | start scope =>
    refine .served [] ?_
    simp only [step, act, startSession, line]
    split <;> rfl
  | failStart =>
    refine .served [] ?_
    simp only [step, act, failStart, line]
    split <;> rfl
  | restart =>
    refine .served [] ?_
    simp only [step, act, restart, line]
    split <;> rfl
  | sessionEnded order =>
    simp only [step, act, sessionEnded]
    split
    · exact .served (receiver.queued.waiting addr) rfl
    · exact .refl ..

/-- Leaving, closing and reaping ask for a teardown. -/
theorem parts_line {taken : Act Addr F} {addr : Addr} (parts : Parts addr (receiver, taken)) :
    (receiver.step answer taken).line addr = receiver.line addr ++ [.remove receiver.now] := by
  rcases parts with ⟨awake, listed, rfl⟩ | ⟨awake, listed, rfl⟩ | ⟨awake, heard, stale, rfl, among⟩
  · have removed := line_proxyRemove
      { receiver with
        lastResponse := without receiver.lastResponse addr ++ [addr]
        driving := without receiver.driving addr } addr addr
    rw [if_pos rfl] at removed
    simp only [step, act, if_pos awake, listen, message]
    exact removed
  · have removed := line_proxyRemove receiver addr addr
    rw [if_pos rfl] at removed
    simp only [step, act, if_pos awake, listen]
    exact removed
  · have removed := foldl_reap_line stale receiver addr
    rw [if_pos ⟨among, heard⟩] at removed
    simp only [step, act, if_pos awake]
    exact removed

end Steps

end Receiver

end HopsFormal.Emulation
