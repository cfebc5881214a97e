import HopsFormal.Emulation.Sessions
import HopsFormal.Emulation.Shared
import Mathlib.Algebra.Ring.Int.Defs

/-!
# The injection gate

Whatever is injected was received from a connection that had been accepted and
had crossed onto this machine without leaving since, of a peer that could drive
this machine then and can now.  A connection that leaves or closes asks for its
teardown behind everything it sent before: what is injected after it left is
still waiting in front of that teardown, and nothing is once the teardown was
served or dropped.
-/

namespace HopsFormal.Emulation

open Capture (Event PointerEvent KeyboardEvent Held kind)
open List Lib

variable {Addr F E : Type} [DecidableEq Addr]

namespace Receiver

/-! ## The gate -/

section Gate

variable [Add F] [Sub F] [Zero F] (answer : List (Call F) → Except E Unit)

/-- A turn in which the permission of the peer at an address was found gone. -/
def Refused (addr : Addr) (taken : Taken Addr F) : Prop :=
  taken.1.refuses = some addr ∧ ∃ order, taken.2 = .serve order

/-- What holds of a machine, given the steps that led to it. -/
structure Gated (past : List (Taken Addr F)) (receiver : Receiver Addr F) : Prop where
  now : receiver.now = past.length
  idle : Idle receiver
  known : ∀ addr peer, receiver.peerOf.lookup addr = some peer → Accepted addr peer past
  entered : ∀ addr ∈ receiver.driving, Entered addr past
  kept : ∀ emulation, receiver.phase = .running emulation → Kept emulation
  sound : ∀ addr event peer sources, .input event peer sources ∈ receiver.line addr →
    Sound past addr event peer sources
  sorted : ∀ addr, (numbers (receiver.line addr)).Pairwise (· < ·)
  recent : ∀ addr, ∀ number ∈ numbers (receiver.line addr), number < past.length
  parted : ∀ addr before taken after, past = before ++ taken :: after → Parts addr taken →
    .remove before.length ∈ receiver.line addr ∨
      ∀ number ∈ numbers (receiver.line addr), before.length < number
  dropped : ∀ addr before taken after, past = before ++ taken :: after → Refused addr taken →
    ∀ gone ∈ numbers (taken.1.queued.waiting addr), gone < past.length ∧
      ∀ number ∈ numbers (receiver.line addr), gone < number

variable {receiver : Receiver Addr F} {taken : Act Addr F} {event : Event F}
  {emulation : InputEmulation F}

omit [Sub F] [Zero F] in
theorem Shifts.sound {past : List (Taken Addr F)} (gated : Gated past receiver) {addr : Addr}
    {new : List (Queued F)} (shifts : Shifts (receiver, taken) addr (receiver.line addr) new)
    {peer : String} {sources : List Nat} (waits : .input event peer sources ∈ new) :
    Sound (past ++ [(receiver, taken)]) addr event peer sources := by
  cases shifts with
  | asked item joins now =>
    rw [now] at waits
    rcases mem_append.mp waits with old | added
    · exact (gated.sound addr event peer sources old).snoc _
    · cases mem_singleton.mp added
      cases joins with
      | input message event peer told asks permitted known driving =>
        refine ⟨[event], .cons ?_ .nil, .one event⟩
        exact ⟨past, (receiver, taken), [], message, rfl, gated.now.symm, told, asks,
          permitted, gated.known addr peer known, gated.entered addr driving⟩
  | merged front back time dx dy later moreX moreY queuedBy former source before now =>
    rw [now] at waits
    rcases mem_append.mp waits with early | rest
    · refine (gated.sound addr event peer sources ?_).snoc _
      rw [before]
      exact mem_append_left _ early
    · rcases mem_cons.mp rest with total | late
      · cases total
        obtain ⟨parts, each, made⟩ := gated.sound addr (.pointer (.motion time dx dy)) peer
          former (by rw [before]; simp)
        obtain ⟨more, one, last⟩ := gated.sound addr (.pointer (.motion later moreX moreY))
          peer [source] (by rw [before]; simp)
        obtain ⟨part, others, qualified, nothing, rfl⟩ := forall₂_cons_left_iff.mp one
        cases nothing
        obtain rfl := last.of_single rfl
        have whole : Sound past addr
            (.pointer (.motion later (dx + moreX) (dy + moreY))) peer
            (former ++ [source]) :=
          ⟨_, rel_append each (.cons qualified .nil), .more later moreX moreY made⟩
        exact whole.snoc _
      · refine (gated.sound addr event peer sources ?_).snoc _
        rw [before]
        exact mem_append_right _ (mem_cons_of_mem _ (mem_cons_of_mem _ late))
  | served dropped before =>
    refine (gated.sound addr event peer sources ?_).snoc _
    rw [before]
    exact mem_append_right _ waits

omit [Add F] [Sub F] [Zero F] in
theorem SessionStep.kept {next : Receiver Addr F} (moves : SessionStep answer receiver taken next)
    (kept : ∀ emulation, receiver.phase = .running emulation → Kept emulation)
    (running : next.phase = .running emulation) : Kept emulation := by
  cases moves with
  | same session => exact kept emulation (session.1.symm.trans running)
  | apart before after queued past => exact absurd ⟨emulation, running⟩ after
  | started scope handles before after past =>
    cases after.symm.trans running
    have created : ∀ (handles : List Handle) (start : InputEmulation F), Kept start →
        Kept (handles.foldl (fun emulation handle => (emulation.create handle).2) start) := by
      intro handles
      induction handles with
      | nil => exact fun _ starts => starts
      | cons handle rest ih => exact fun _ starts => ih _ (starts.create handle)
    exact created handles _ (kept_start scope)
  | sorted before after past => exact kept emulation (after.symm.trans running)
  | removed former order handle before after past =>
    cases after.symm.trans running
    exact (kept former before).destroy answer order handle
  | injected former created order addr event peer sources handle serves injects before through
      after past =>
      cases after.symm.trans running
      have known : Kept created := by
        rcases through with rfl | rfl
        · exact kept _ before
        · exact (kept _ before).create handle
      exact known.step answer (.consume event handle)
  | failed former created order addr event peer sources handle serves injects before through
      after queued past => exact absurd ⟨emulation, running⟩ after
  | ended former order before after queued past => exact absurd ⟨emulation, running⟩ after

omit [Sub F] [Zero F] in
theorem gated_start (mayDriveUs : String → Bool) :
    Gated [] (.start mayDriveUs : Receiver Addr F) where
  now := rfl
  idle _ _ := rfl
  known _ _ known := by cases known
  entered _ driving := by cases driving
  kept _ running := by cases running
  sound _ _ _ _ waits := by cases waits
  sorted _ := List.Pairwise.nil
  recent _ _ member := by cases member
  parted _ before _ _ split := by cases before <;> cases split
  dropped _ before _ _ split := by cases before <;> cases split

theorem Gated.step {past : List (Taken Addr F)} (gated : Gated past receiver) (taken : Act Addr F) :
    Gated (past ++ [(receiver, taken)]) (receiver.step answer taken) := by
  have shifts := fun addr => step_shifts answer gated.idle taken addr
  have recent : ∀ addr, ∀ number ∈ numbers (receiver.line addr), number < receiver.now := by
    rw [gated.now]
    exact gated.recent
  have later : ∀ addr gone, gone < past.length →
      (∀ number ∈ numbers (receiver.line addr), gone < number) →
      ∀ number ∈ numbers ((receiver.step answer taken).line addr), gone < number := by
    intro addr gone old before number member
    rcases (shifts addr).mem_numbers member with there | new
    · exact before number there
    · rw [new, gated.now]
      exact old
  constructor
  case now =>
    rw [length_append]
    exact congrArg (· + 1) gated.now
  case idle => exact gated.idle.step answer taken
  case known =>
    intro addr peer known
    rcases step_known answer known with told | ⟨before, continues⟩
    · exact .last told
    · exact (gated.known addr peer before).snoc_same continues
  case entered =>
    intro addr driving
    rcases step_driving answer driving with crossed | ⟨before, continues⟩
    · exact .last crossed
    · exact (gated.entered addr before).snoc_same continues
  case kept =>
    intro emulation running
    exact (step_session answer receiver taken).kept answer gated.kept running
  case sound =>
    intro addr event peer sources waits
    exact (shifts addr).sound gated waits
  case sorted => exact fun addr => (shifts addr).ordered (gated.sorted addr) (recent addr)
  case recent =>
    intro addr number member
    rw [length_append, length_singleton]
    rcases (shifts addr).mem_numbers member with there | new
    · exact Nat.lt_succ_of_lt (gated.recent addr number there)
    · rw [new, gated.now]
      exact Nat.lt_succ_self _
  case parted =>
    intro addr before step after split parts
    rcases split_concat split with ⟨rfl, rfl⟩ | ⟨rest, old⟩
    · left
      rw [parts_line answer parts, gated.now]
      exact mem_append_right _ mem_cons_self
    · rcases gated.parted addr before step rest old parts with waits | passed
      · exact (shifts addr).remove_stays (gated.sorted addr) waits
      · refine .inr (later addr before.length ?_ passed)
        rw [old, length_append, length_cons]
        omega
  case dropped =>
    intro addr before step after split refused gone member
    rw [length_append, length_singleton]
    rcases split_concat split with ⟨rfl, rfl⟩ | ⟨rest, old⟩
    · obtain ⟨refuses, order, rfl⟩ := refused
      have line := refuses_line answer refuses order
      have whole := gated.sorted addr
      rw [line, numbers, flatMap_append, pairwise_append] at whole
      refine ⟨Nat.lt_succ_of_lt (gated.recent addr gone ?_), whole.2.2 gone member⟩
      rw [line, numbers, flatMap_append]
      exact mem_append_left _ member
    · obtain ⟨early, passed⟩ := gated.dropped addr before step rest old refused gone member
      exact ⟨Nat.lt_succ_of_lt early, later addr gone early passed⟩

theorem gated_run (mayDriveUs : String → Bool) (acts : List (Act Addr F)) :
    Gated (trace (step answer) (.start mayDriveUs) acts) (run answer mayDriveUs acts) := by
  induction acts using reverseRecOn with
  | nil => exact gated_start mayDriveUs
  | append_singleton acts taken ih =>
    have next := ih.step answer taken
    rw [trace_append, run, foldl_append]
    exact next

/-! ## What the backend is told -/

/-- A modifier reset, or the release of what a handle lists. -/
def Releases (emulation : InputEmulation F) (event : Event F) (handle : Handle) : Prop :=
  event = .keyboard (.modifiers 0 0 0 0) ∨ ∃ held, event = letGo held ∧ Lists emulation handle held

section

omit [Add F] [Sub F] [Zero F]

theorem destroy_releases (order : HashOrder) (emulation : InputEmulation F) (handle : Handle) :
    ∃ made, (emulation.destroy answer order handle).calls = emulation.calls ++ made ∧
      ∀ event through, .consume event through ∈ made → Releases emulation event through := by
  obtain ⟨last, calls, ends⟩ := destroy_calls answer order emulation handle
  rw [append_assoc] at calls
  refine ⟨_, calls, fun event through member => ?_⟩
  rcases mem_append.mp member with early | late
  · obtain ⟨held, inside, equal⟩ := mem_map.mp early
    cases equal
    refine .inr ⟨held, rfl, ?_⟩
    rcases mem_append.mp inside with button | key
    · obtain ⟨code, found, rfl⟩ := mem_map.mp button
      exact (mem_releasedButtons.mp found).1
    · obtain ⟨code, found, rfl⟩ := mem_map.mp key
      exact mem_releasedKeys.mp found
  · rcases mem_cons.mp late with equal | later
    · cases equal
      exact .inl rfl
    · rcases ends with rfl | rfl
      · cases later
      · cases mem_singleton.mp later

theorem terminate_releases (order : HashOrder) (emulation : InputEmulation F) :
    ∃ made, (emulation.terminate answer order).calls = emulation.calls ++ made ∧
      ∀ event through, .consume event through ∈ made → Releases emulation event through := by
  have torn : ∀ (handles : List Handle) (start : InputEmulation F),
      ∃ made, (handles.foldl (InputEmulation.destroy answer order) start).calls =
          start.calls ++ made ∧
        ∀ event through, .consume event through ∈ made → Releases start event through := by
    intro handles
    induction handles with
    | nil => exact fun start => ⟨[], by simp, by simp⟩
    | cons handle rest ih =>
      intro start
      obtain ⟨first, now, releases⟩ := destroy_releases answer order start handle
      obtain ⟨others, then_, more⟩ := ih (start.destroy answer order handle)
      refine ⟨first ++ others, by rw [foldl_cons, then_, now, append_assoc], ?_⟩
      intro event through member
      rcases mem_append.mp member with early | late
      · exact releases event through early
      · rcases more event through late with reset | ⟨held, lets, lists⟩
        · exact .inl reset
        · exact .inr ⟨held, lets, ((destroy_lists answer order start handle _ _).mp lists).1⟩
  obtain ⟨made, calls, releases⟩ := torn (order.handles emulation.handles) emulation
  refine ⟨made ++ [.terminate], ?_, fun event through member => ?_⟩
  · rw [InputEmulation.terminate, InputEmulation.call, calls, append_assoc]
  · rcases mem_append.mp member with early | late
    · exact releases event through early
    · cases mem_singleton.mp late

theorem injects_waits {addr : Addr} {peer : String} {sources : List Nat}
    (injects : receiver.injects = some (addr, event, peer, sources)) :
    receiver.mayDriveUs peer = true ∧ .input event peer sources ∈ receiver.line addr := by
  unfold Receiver.injects at injects
  split at injects
  · split at injects
    · rename_i first queued sender made count left popped
      split at injects
      · rename_i permitted
        obtain ⟨rfl, rfl, rfl, rfl⟩ := by simpa using injects
        refine ⟨permitted, ?_⟩
        rw [line, (PeerQueues.pop_spec popped).1.1]
        exact mem_cons_self
      · cases injects
    · cases injects
  · cases injects

end

/-- The backend is made to let go of what a session lists, or has just been told to press. -/
def LetsGo (receiver : Receiver Addr F) (event : Event F) (handle : Handle) : Prop :=
  event = .keyboard (.modifiers 0 0 0 0) ∨ ∃ held, event = letGo held ∧
    ((∃ emulation, receiver.phase = .running emulation ∧ Lists emulation handle held) ∨
      ∃ addr pressed peer sources, receiver.injects = some (addr, pressed, peer, sources) ∧
        kind (.input pressed) = .press held)

omit [Add F] [Sub F] [Zero F] in
theorem LetsGo.of_releases (running : receiver.phase = .running emulation) {handle : Handle}
    (releases : Releases emulation event handle) : LetsGo receiver event handle := by
  rcases releases with reset | ⟨held, lets, lists⟩
  · exact .inl reset
  · exact .inr ⟨held, lets, .inl ⟨emulation, running, lists⟩⟩

section

omit [DecidableEq Addr] [Add F] [Sub F] [Zero F]

theorem calls_of_running (running : receiver.phase = .running emulation) :
    receiver.calls = receiver.pastCalls ++ emulation.calls := by
  rw [calls, running]

theorem calls_of_apart (apart : ¬ Running receiver) : receiver.calls = receiver.pastCalls := by
  unfold calls
  split
  · rename_i emulation running
    exact absurd ⟨emulation, running⟩ apart
  · exact append_nil _

end

section

omit [Add F] [Sub F] [Zero F]

theorem create_tells (emulation : InputEmulation F) (handle : Handle) :
    ∃ made, (emulation.create handle).2.calls = emulation.calls ++ made ∧
      ∀ event via, Call.consume event via ∉ made := by
  unfold InputEmulation.create
  split
  · exact ⟨[], by simp, by simp⟩
  · exact ⟨[.create handle], rfl, by simp⟩

theorem consume_tells {created : InputEmulation F} (kept : Kept emulation) {handle : Handle}
    (through : created = emulation ∨ created = (emulation.create handle).2) (event : Event F) :
    (∃ made, (created.consume answer event handle).2.calls = emulation.calls ++ made ∧
      ∀ told via, .consume told via ∈ made → told = event) ∧
    ∀ other held, Lists (created.consume answer event handle).2 other held →
      Lists emulation other held ∨ other = handle ∧ kind (.input event) = .press held := by
  have before : (∃ made, created.calls = emulation.calls ++ made ∧
      ∀ told via, Call.consume told via ∉ made) ∧
      Formed created ∧ ∀ other held, Lists created other held → Lists emulation other held := by
    rcases through with rfl | rfl
    · exact ⟨⟨[], by simp, by simp⟩, kept.formed, fun _ _ lists => lists⟩
    · exact ⟨create_tells emulation handle, (kept.create handle).formed,
        fun other held => (create_lists kept.formed handle other held).mp⟩
  obtain ⟨⟨first, opened, quiet⟩, formed, listed⟩ := before
  have tells : ∀ rest : List (Call F), (∀ told via, Call.consume told via ∈ rest → told = event) →
      (created.consume answer event handle).2.calls = created.calls ++ rest →
      ∃ made, (created.consume answer event handle).2.calls = emulation.calls ++ made ∧
        ∀ told via, .consume told via ∈ made → told = event := by
    intro rest own calls
    refine ⟨first ++ rest, by rw [calls, opened, append_assoc], fun told via member => ?_⟩
    rcases mem_append.mp member with early | late
    · exact absurd early (quiet told via)
    · exact own told via late
  have one : ∀ via : Handle, ∀ told other,
      Call.consume told other ∈ [.consume event via] → told = event := by
    intro via told other member
    cases mem_singleton.mp member
    rfl
  cases (consume_settled answer formed handle event).consumed with
  | pressed held sort live fresh lists calls =>
    refine ⟨tells _ (one handle) calls, fun other what now => ?_⟩
    rcases (lists other what).mp now with old | ⟨own, rfl⟩
    · exact .inl (listed other what old)
    · exact .inr ⟨own, sort⟩
  | loose held sort absent lists calls | passed no_press no_release lists calls =>
    exact ⟨tells _ (one handle) calls,
      fun other what now => .inl (listed other what ((lists other what).mp now))⟩
  | released held sort holder via lists_it same lists calls =>
    exact ⟨tells _ (one via) calls,
      fun other what now => .inl (listed other what ((lists other what).mp now).1)⟩
  | dropped lists calls =>
    exact ⟨tells [] (by simp) (by rw [calls, append_nil]),
      fun other what now => .inl (listed other what ((lists other what).mp now))⟩

theorem SessionStep.calls {next : Receiver Addr F} (moves : SessionStep answer receiver taken next)
    (kept : ∀ emulation, receiver.phase = .running emulation → Kept emulation) :
    ∃ made, next.calls = receiver.calls ++ made ∧
      ∀ event handle, .consume event handle ∈ made →
        LetsGo receiver event handle ∨ ∃ order addr peer sources, taken = .serve order ∧
          receiver.injects = some (addr, event, peer, sources) := by
  cases moves with
  | same session =>
    refine ⟨[], ?_, by simp⟩
    rw [Receiver.calls, Receiver.calls, session.1, session.2.2.1, append_nil]
  | apart before after queued past =>
    refine ⟨[], ?_, by simp⟩
    rw [calls_of_apart after, calls_of_apart before, past, append_nil]
  | started scope handles before after past =>
    rw [calls_of_running after, calls_of_apart before, past]
    refine ⟨_, rfl, ?_⟩
    have created : ∀ (handles : List Handle) (start : InputEmulation F),
        (∀ event via, Call.consume event via ∉ start.calls) →
        ∀ event via, Call.consume event via ∉ (handles.foldl
          (fun emulation handle => (emulation.create handle).2) start).calls := by
      intro handles
      induction handles with
      | nil => exact fun _ quiet => quiet
      | cons handle rest ih =>
        intro start quiet
        refine ih _ fun event via member => ?_
        obtain ⟨made, told, silent⟩ := create_tells start handle
        rw [told] at member
        rcases mem_append.mp member with old | new
        · exact quiet event via old
        · exact silent event via new
    intro event handle member
    exact absurd member (created handles _ (fun _ _ none => by cases none) event handle)
  | sorted before after past =>
    refine ⟨[], ?_, by simp⟩
    rw [Receiver.calls, Receiver.calls, after, past, append_nil]
  | removed emulation order handle before after past =>
    obtain ⟨made, told, releases⟩ := destroy_releases answer order emulation handle
    refine ⟨made, ?_, fun event via member => .inl (.of_releases before (releases _ _ member))⟩
    rw [calls_of_running after, calls_of_running before, past, told, append_assoc]
  | injected emulation created order addr event peer sources handle serves injects before through
      after past =>
      obtain ⟨⟨made, told, own⟩, -⟩ := consume_tells answer (kept emulation before) through event
      refine ⟨made, ?_, fun other via member => .inr ⟨order, addr, peer, sources, serves, ?_⟩⟩
      · rw [calls_of_running after, calls_of_running before, past, told, append_assoc]
      · rw [own other via member]
        exact injects
  | failed emulation created order addr event peer sources handle serves injects before through
      after queued past =>
      obtain ⟨⟨made, told, own⟩, lists⟩ :=
        consume_tells answer (kept emulation before) through event
      obtain ⟨last, ends, releases⟩ := terminate_releases answer order
        (created.consume answer event handle).2
      refine ⟨made ++ last, ?_, fun other via member => ?_⟩
      · rw [calls_of_apart after, calls_of_running before, past, ends, told]
        simp
      · rcases mem_append.mp member with early | late
        · refine .inr ⟨order, addr, peer, sources, serves, ?_⟩
          rw [own other via early]
          exact injects
        · left
          rcases releases other via late with reset | ⟨held, lets, listed⟩
          · exact .inl reset
          · refine .inr ⟨held, lets, ?_⟩
            rcases lists via held listed with old | ⟨-, pressed⟩
            · exact .inl ⟨emulation, before, old⟩
            · exact .inr ⟨addr, event, peer, sources, injects, pressed⟩
  | ended emulation order before after queued past =>
    obtain ⟨made, told, releases⟩ := terminate_releases answer order emulation
    refine ⟨made, ?_, fun event via member => .inl (.of_releases before (releases _ _ member))⟩
    rw [calls_of_apart after, calls_of_running before, past, told, append_assoc]

end

/--
Every event the backend is told lets go of what a handle holds, or is injected
by this step: its peer may drive this machine now, and each message it is made of
came from a connection accepted for that peer that had crossed and not parted.
What the connection sent before it parted is injected only while the teardown it
asked for still waits, and what was queued when its permission was found gone is
never injected.
-/
theorem injection_gate (mayDriveUs : String → Bool) (acts : List (Act Addr F))
    (taken : Act Addr F) :
    let past := trace (step answer) (.start mayDriveUs) acts
    let receiver := run answer mayDriveUs acts
    ∃ made, (receiver.step answer taken).calls = receiver.calls ++ made ∧
      ∀ event handle, .consume event handle ∈ made →
        LetsGo receiver event handle ∨ ∃ order addr peer sources, taken = .serve order ∧
          receiver.injects = some (addr, event, peer, sources) ∧
          receiver.mayDriveUs peer = true ∧ Sound past addr event peer sources ∧
          ∀ number ∈ sources, ∀ before during after, past = before ++ during :: after →
            (Parts addr during → number < before.length →
              .remove before.length ∈ receiver.line addr) ∧
            (Refused addr during → number ∉ numbers (during.1.queued.waiting addr)) := by
  intro past receiver
  have gated : Gated past receiver := gated_run answer mayDriveUs acts
  obtain ⟨made, told, why⟩ := (step_session answer receiver taken).calls answer gated.kept
  refine ⟨made, told, fun event handle member => (why event handle member).imp_right ?_⟩
  rintro ⟨order, addr, peer, sources, serves, injects⟩
  obtain ⟨permitted, waits⟩ := injects_waits injects
  have queued : ∀ number ∈ sources, number ∈ numbers (receiver.line addr) :=
    fun number source => mem_flatMap.mpr ⟨_, waits, source⟩
  refine ⟨order, addr, peer, sources, serves, injects, permitted,
    gated.sound addr event peer sources waits, ?_⟩
  intro number source before during after split
  constructor
  · intro parts earlier
    rcases gated.parted addr before during after split parts with still | passed
    · exact still
    · exact absurd (passed number (queued number source)) (Nat.lt_asymm earlier)
  · intro refused gone
    have passed := (gated.dropped addr before during after split refused number gone).2
    exact Nat.lt_irrefl number (passed number (queued number source))

end Gate

/-- A key goes down on a connection that then leaves, before the emulation task has its turn. -/
def pressedThenLeft : List (Act Nat Int) :=
  [.start .machine, .notice, .listen (.accept 7 "peer") true, .listen (.msg .enter 7) true,
    .listen (.msg (.input (.keyboard (.key 0 30 1))) 7) true, .listen (.msg .leave 7) true,
    .take .inserted]

/-- What was queued before a connection left is injected after it left. -/
theorem injected_after_leave :
    let answer : List (Call Int) → Except Unit Unit := fun _ => .ok ()
    let receiver := run answer (fun _ => true) pressedThenLeft
    receiver.injects = some (7, .keyboard (.key 0 30 1), "peer", [4]) ∧
      (receiver.step answer (.serve .inserted)).calls =
        receiver.calls ++ [.create 0, .consume (.keyboard (.key 0 30 1)) 0] ∧
      ∃ before during after,
        trace (step answer) (.start fun _ => true) pressedThenLeft =
          before ++ during :: after ∧ before.length = 5 ∧ Parts 7 during := by
  intro answer receiver
  refine ⟨by decide, by decide, (trace (step answer) (.start fun _ => true) pressedThenLeft).take 5,
    (run answer (fun _ => true) (pressedThenLeft.take 5), .listen (.msg .leave 7) true),
    (trace (step answer) (.start fun _ => true) pressedThenLeft).drop 6, rfl, rfl,
    .inl ⟨rfl, true, rfl⟩⟩

end Receiver

end HopsFormal.Emulation
