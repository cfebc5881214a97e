import HopsFormal.Emulation.Gate

/-!
# Whether a peer drives this machine

Requests that widen trust are refused while a peer drives the machine.  Three
cells say whether one does: when a peer last put input in, whether one has
crossed over and not left, and whether something one pressed is still down.
Both tasks write them by hand beside what they do; the machine of this module
is the receiver together with the cells, written as the source writes them.
-/

namespace HopsFormal.Emulation

open Capture (Event PointerEvent KeyboardEvent Held)
open List Lib Receiver

structure Driven where
  lastInput : Option Nat
  crossed : Bool
  held : Bool
  deriving DecidableEq

namespace Driven

def initial : Driven where
  lastInput := none
  crossed := false
  held := false

/-- Whether a peer drives the machine, or did less than `quiet` ago. -/
def within (driven : Driven) (now quiet : Nat) : Bool :=
  driven.crossed || driven.held || driven.lastInput.any fun time => now - time < quiet

def inputNow (driven : Driven) (time : Nat) : Driven :=
  { driven with lastInput := some time }

def injected (driven : Driven) (time : Nat) (stillHeld : Bool) : Driven :=
  { driven.inputNow time with held := stillHeld }

/-- After a teardown: what is let go for a peer counts as its input. -/
def letGo (driven : Driven) (time : Nat) (wasHeld stillHeld : Bool) : Driven :=
  { (if wasHeld then driven.inputNow time else driven) with held := stillHeld }

/-- A peer crosses onto the machine. -/
def insertCrossed (driven : Driven) : Driven :=
  { driven with crossed := true }

/-- A peer is no longer among those that crossed onto the machine. -/
def removeCrossed {Addr : Type} [DecidableEq Addr] (driven : Driven) (time : Nat)
    (peers : List Addr) (addr : Addr) : Driven :=
  { (if addr ∈ peers then driven.inputNow time else driven) with
    crossed := !(without peers addr).isEmpty }

/-- The listener is gone, and with it everyone who had crossed. -/
def dropCrossed (driven : Driven) : Driven :=
  { driven with crossed := false }

end Driven

open Driven

namespace InputEmulation

variable {F : Type}

def hasPressedKeys (emulation : InputEmulation F) (handle : Handle) : Bool :=
  (emulation.pressedKeys.lookup handle).any fun pressed => !pressed.isEmpty

/-- Whether a handle holds a key or a button down on this machine. -/
def holds (emulation : InputEmulation F) (handle : Handle) : Bool :=
  emulation.hasPressedKeys handle ||
    (emulation.pressedButtons.lookup handle).any fun pressed => !pressed.isEmpty

/-- Whether any handle holds a key or a button down on this machine. -/
def holdsAnything (emulation : InputEmulation F) : Bool :=
  emulation.pressedKeys.any (fun _ pressed => !pressed.isEmpty) ||
    emulation.pressedButtons.any fun _ pressed => !pressed.isEmpty

end InputEmulation

/-- Whether the emulation of a running session holds something a peer pressed. -/
def Receiver.holdsAnything {Addr F : Type} (receiver : Receiver Addr F) : Bool :=
  match receiver.phase with
  | .running emulation => emulation.holdsAnything
  | _ => false

/-- The receiving machine and what it says about being driven. -/
structure DrivenReceiver (Addr F : Type) where
  receiver : Receiver Addr F
  driven : Driven

namespace DrivenReceiver

variable {Addr F E : Type} [DecidableEq Addr]

def start (mayDriveUs : String → Bool) : DrivenReceiver Addr F where
  receiver := .start mayDriveUs
  driven := .initial

/-! ## The listening task -/

section Listening

variable [Sub F] [Zero F] (machine : DrivenReceiver Addr F)

/-- An event is stamped as it arrives, whether or not emulation is switched on. -/
def consumed (time : Nat) (addr : Addr) : Driven :=
  match machine.receiver.admitPeer addr with
  | (none, _) => machine.driven
  | (some _, admitted) =>
    if addr ∈ admitted.driving then machine.driven.inputNow time else machine.driven

def message (time : Nat) (addr : Addr) (listed : Bool) : Message F → Driven
  | .enter =>
    match machine.receiver.admitPeer addr with
    | (none, _) => machine.driven
    | (some _, _) => if listed then machine.driven.insertCrossed else machine.driven
  | .leave => machine.driven.removeCrossed time machine.receiver.driving addr
  | .input _ => machine.consumed time addr
  | .pointerMotionAbsolute _ _ _ => machine.consumed time addr
  | .other => machine.driven

def listen (time : Nat) (listed : Bool) (event : ListenEvent Addr F) : DrivenReceiver Addr F where
  receiver := machine.receiver.listen listed event
  driven :=
    match event with
    | .msg message addr => machine.message time addr listed message
    | .accept addr _ => machine.driven.removeCrossed time machine.receiver.driving addr
    | .rejected _ _ => machine.driven
    | .removedBy _ => machine.driven
    | .closed addr => machine.driven.removeCrossed time machine.receiver.driving addr

def reap (time : Nat) (machine : DrivenReceiver Addr F) (addr : Addr) : DrivenReceiver Addr F where
  receiver := machine.receiver.reap addr
  driven :=
    if addr ∈ machine.receiver.lastResponse then
      machine.driven.removeCrossed time machine.receiver.driving addr
    else machine.driven

end Listening

/-! ## The emulation task -/

section Emulating

variable [Add F] (answer : List (Call F) → Except E Unit)

/-- The session is over, and with it whatever it held. -/
def endSession (driven : Driven) (time : Nat) (emulation : InputEmulation F) : Driven :=
  driven.letGo time emulation.holdsAnything false

variable (machine : DrivenReceiver Addr F)

def takeRequest (time : Nat) (order : HashOrder) : DrivenReceiver Addr F where
  receiver := machine.receiver.takeRequest answer order
  driven :=
    match machine.receiver.requests, machine.receiver.phase with
    | .terminate :: _, .running emulation => endSession machine.driven time emulation
    | .stopForMissing :: _, .running emulation => endSession machine.driven time emulation
    | _, _ => machine.driven

def sessionEnded (time : Nat) (order : HashOrder) : DrivenReceiver Addr F where
  receiver := machine.receiver.sessionEnded answer order
  driven :=
    match machine.receiver.phase with
    | .running emulation => endSession machine.driven time emulation
    | _ => machine.driven

/-- Tear down the handle of a peer, if it has one. -/
def removeHandle (time : Nat) (order : HashOrder) (emulation : InputEmulation F) (addr : Addr) :
    Driven :=
  match machine.receiver.handles.lookup addr with
  | none => machine.driven
  | some handle =>
    machine.driven.letGo time (emulation.holds handle)
      (emulation.destroy answer order handle).holdsAnything

/-- Serve the next request of the next peer; a failed injection still counts, and ends the session. -/
def serve (time : Nat) (order : HashOrder) : DrivenReceiver Addr F where
  receiver := machine.receiver.serve answer order
  driven :=
    match machine.receiver.phase with
    | .running emulation =>
      match machine.receiver.queued.pop with
      | none => machine.driven
      | some (addr, .input event peer _, _, left) =>
        if machine.receiver.mayDriveUs peer then
          let (handle, created, _) :=
            { machine.receiver with queued := left }.handleOf emulation addr
          let (injected, consumed) := created.consume answer event handle
          let counted := machine.driven.injected time consumed.holdsAnything
          match injected with
          | .ok () => counted
          | .error _ => endSession counted time consumed
        else machine.removeHandle answer time order emulation addr
      | some (addr, .remove _, _, _) => machine.removeHandle answer time order emulation addr
    | _ => machine.driven

end Emulating

/-! ## Steps -/

/-- A turn of the receiver, or the end of the listening task once emulation has stopped. -/
inductive Turn (Addr F : Type) where
  | act (taken : Act Addr F)
  | dropped

section Steps

variable [Add F] [Sub F] [Zero F] (answer : List (Call F) → Except E Unit)

/-- What an act does, the count of steps apart. -/
def act (machine : DrivenReceiver Addr F) (time : Nat) :
    Act Addr F → DrivenReceiver Addr F
  | .listen event listed =>
    if machine.receiver.listening then machine.listen time listed event else machine
  | .tick stale =>
    if machine.receiver.listening then stale.foldl (reap time) machine else machine
  | .take order => machine.takeRequest answer time order
  | .serve order => machine.serve answer time order
  | .sessionEnded order => machine.sessionEnded answer time order
  | taken => { machine with receiver := machine.receiver.act answer taken }

/-- One turn, with what the clock says. -/
def step (machine : DrivenReceiver Addr F) (turn : Nat × Turn Addr F) : DrivenReceiver Addr F :=
  match turn.2 with
  | .act taken =>
    let next := machine.act answer turn.1 taken
    { next with receiver := { next.receiver with now := machine.receiver.now + 1 } }
  | .dropped =>
    match machine.receiver.listening, machine.receiver.phase with
    | false, .stopped =>
      { receiver := { machine.receiver with driving := [] }
        driven := machine.driven.dropCrossed }
    | _, _ => machine

def run (mayDriveUs : String → Bool) (turns : List (Nat × Turn Addr F)) : DrivenReceiver Addr F :=
  turns.foldl (step answer) (.start mayDriveUs)

end Steps

end DrivenReceiver

open DrivenReceiver

/-! ## What the emulation holds -/

variable {Addr F E : Type} [DecidableEq Addr]

theorem any_listing {table : Table Handle (List UInt32)} :
    (table.any fun _ pressed => !pressed.isEmpty) = true ↔
      ∃ handle code, code ∈ listing table handle := by
  rw [Table.any_iff]
  constructor
  · rintro ⟨handle, pressed, found, nonempty⟩
    obtain ⟨code, member⟩ := exists_mem_of_ne_nil pressed (by simpa using nonempty)
    refine ⟨handle, code, ?_⟩
    rw [listing, found]
    exact member
  · rintro ⟨handle, code, member⟩
    unfold listing at member
    cases found : table.lookup handle with
    | none =>
      rw [found] at member
      cases member
    | some pressed =>
      rw [found] at member
      refine ⟨handle, pressed, found, ?_⟩
      have nonempty := ne_nil_of_mem member
      simpa using nonempty

variable {emulation : InputEmulation F}

theorem holdsAnything_iff :
    emulation.holdsAnything = true ↔ ∃ handle held, Lists emulation handle held := by
  rw [InputEmulation.holdsAnything, Bool.or_eq_true, any_listing, any_listing]
  constructor
  · rintro (⟨handle, key, member⟩ | ⟨handle, button, member⟩)
    · exact ⟨handle, .key key, member⟩
    · exact ⟨handle, .button button, member⟩
  · rintro ⟨handle, held, lists⟩
    cases held with
    | key key => exact .inl ⟨handle, key, lists⟩
    | button button => exact .inr ⟨handle, button, lists⟩

theorem holdsAnything_false_iff :
    emulation.holdsAnything = false ↔ ∀ handle held, ¬ Lists emulation handle held := by
  rw [← Bool.not_eq_true, holdsAnything_iff]
  push Not
  rfl

theorem Formed.handle_of_lists (formed : Formed emulation) {handle : Handle} {held : Held}
    (lists : Lists emulation handle held) : handle ∈ emulation.handles := by
  have row : ∀ {table : Table Handle (List UInt32)} {code : UInt32},
      code ∈ listing table handle → handle ∈ table := by
    intro table code member
    refine AList.lookup_isSome.mp ?_
    unfold listing at member
    cases found : table.lookup handle with
    | none =>
      rw [found] at member
      cases member
    | some pressed => rfl
  cases held with
  | key key => exact (formed.keys_rows handle).mp (row lists)
  | button button => exact (formed.buttons_rows handle).mp (row lists)

section Holding

variable (answer : List (Call F) → Except E Unit)

theorem foldl_destroy_lists (order : HashOrder) (handles : List Handle)
    (emulation : InputEmulation F) (other : Handle) (held : Held) :
    Lists (handles.foldl (InputEmulation.destroy answer order) emulation) other held ↔
      Lists emulation other held ∧ other ∉ handles := by
  induction handles generalizing emulation with
  | nil => simp
  | cons handle rest ih =>
    rw [foldl_cons, ih, destroy_lists, mem_cons, not_or, and_assoc]

/-- A session that ends lets go of everything. -/
theorem Formed.terminate_holds_nothing (formed : Formed emulation) (order : HashOrder) :
    (emulation.terminate answer order).holdsAnything = false := by
  refine holdsAnything_false_iff.mpr fun handle held lists => ?_
  have left : Lists ((order.handles emulation.handles).foldl
      (InputEmulation.destroy answer order) emulation) handle held := by
    cases held with
    | key key | button button => exact lists
  obtain ⟨listed, spared⟩ := (foldl_destroy_lists answer order _ emulation handle held).mp left
  exact spared ((order.handles_perm _).mem_iff.mpr (formed.handle_of_lists listed))

theorem created_holds_nothing (handles : List Handle) (scope : ButtonScope) :
    (handles.foldl (fun emulation handle => (emulation.create handle).2)
      (.withBackend scope : InputEmulation F)).holdsAnything = false := by
  have created : ∀ (emulation : InputEmulation F), Kept emulation →
      emulation.holdsAnything = false →
      (handles.foldl (fun emulation handle => (emulation.create handle).2)
        emulation).holdsAnything = false := by
    induction handles with
    | nil => exact fun _ _ nothing => nothing
    | cons handle rest ih =>
      intro emulation kept nothing
      refine ih _ (kept.create handle) (holdsAnything_false_iff.mpr fun other held lists => ?_)
      exact holdsAnything_false_iff.mp nothing other held
        ((create_lists kept.formed handle other held).mp lists)
  refine created _ (kept_start scope) (holdsAnything_false_iff.mpr fun handle held lists => ?_)
  cases held with
  | key key | button button => cases lists

end Holding

/-! ## What the cells say -/

namespace Driven

theorem held_removeCrossed (driven : Driven) (time : Nat) (peers : List Addr) (addr : Addr) :
    (driven.removeCrossed time peers addr).held = driven.held := by
  unfold removeCrossed
  split <;> rfl

theorem crossed_letGo (driven : Driven) (time : Nat) (wasHeld stillHeld : Bool) :
    (driven.letGo time wasHeld stillHeld).crossed = driven.crossed := by
  unfold letGo
  split <;> rfl

end Driven

namespace DrivenReceiver

/-- The cells say what is the case, and the emulation of a session keeps its account. -/
structure Truthful (machine : DrivenReceiver Addr F) : Prop where
  held : machine.driven.held = machine.receiver.holdsAnything
  crossed : machine.driven.crossed = !machine.receiver.driving.isEmpty
  kept : ∀ emulation, machine.receiver.phase = .running emulation → Kept emulation

omit [DecidableEq Addr] in
theorem holdsAnything_of_running {receiver : Receiver Addr F}
    (running : receiver.phase = .running emulation) :
    receiver.holdsAnything = emulation.holdsAnything := by
  rw [holdsAnything, running]

omit [DecidableEq Addr] in
theorem holdsAnything_of_apart {receiver : Receiver Addr F} (apart : ¬ Running receiver) :
    receiver.holdsAnything = false := by
  unfold holdsAnything
  split
  · rename_i emulation running
    exact absurd ⟨emulation, running⟩ apart
  · rfl

/-! ## The listening task keeps the cells truthful -/

theorem admit_whose (receiver : Receiver Addr F) (addr : Addr) :
    (receiver.admitPeer addr).1 =
      if receiver.inputPermitted addr then receiver.peerOf.lookup addr else none := by
  unfold admitPeer
  split
  · rfl
  · split <;> rfl

variable (machine : DrivenReceiver Addr F)

theorem held_consumed (time : Nat) (addr : Addr) :
    (machine.consumed time addr).held = machine.driven.held := by
  unfold consumed
  split
  · rfl
  · split <;> rfl

theorem crossed_consumed (time : Nat) (addr : Addr) :
    (machine.consumed time addr).crossed = machine.driven.crossed := by
  unfold consumed
  split
  · rfl
  · split <;> rfl

theorem held_message (time : Nat) (addr : Addr) (listed : Bool) (message : Message F) :
    (machine.message time addr listed message).held = machine.driven.held := by
  cases message with
  | enter =>
    simp only [message]
    split
    · rfl
    · split <;> rfl
  | leave => exact held_removeCrossed _ _ _ _
  | input event | pointerMotionAbsolute stamp vx vy => exact held_consumed machine time addr
  | other => rfl

section Listening

variable [Sub F] [Zero F]

/-- Only entering and leaving change who has crossed. -/
theorem driving_consumed (receiver : Receiver Addr F) (addr : Addr) (listed : Bool)
    {message : Message F} (enters : message ≠ .enter) (leaves : message ≠ .leave) :
    (receiver.message addr listed message).driving = receiver.driving := by
  obtain ⟨_, _, _, _, same, drives, -⟩ := message_leaves receiver addr listed message
  rw [same]
  exact drives enters leaves

theorem crossed_message {machine : DrivenReceiver Addr F} (truthful : Truthful machine)
    (time : Nat) (addr : Addr) (listed : Bool) (message : Message F) {receiver : Receiver Addr F}
    (drives : receiver.driving = machine.receiver.driving)
    (admits : (receiver.admitPeer addr).1 = (machine.receiver.admitPeer addr).1) :
    (machine.message time addr listed message).crossed =
      !(receiver.message addr listed message).driving.isEmpty := by
  have crossed := truthful.crossed
  rw [← drives] at crossed
  cases message with
  | enter =>
    have same : (receiver.admitPeer addr).2.driving = receiver.driving := by
      obtain ⟨_, _, same⟩ := Receiver.admit_leaves receiver addr
      rw [same]
    simp only [message, Receiver.message]
    generalize machine.receiver.admitPeer addr = before at *
    generalize receiver.admitPeer addr = decided at *
    obtain ⟨whose, admitted⟩ := decided
    obtain ⟨asked, refused⟩ := before
    subst admits
    cases whose with
    | none => rw [crossed, ← same]
    | some peer =>
      dsimp only
      split
      · simp [insertCrossed]
      · rw [crossed, ← same]
  | leave =>
    simp only [message, Receiver.message, removeCrossed, ← drives]
    rfl
  | input event | pointerMotionAbsolute stamp vx vy =>
    rw [driving_consumed receiver addr listed (by simp) (by simp), ← crossed]
    exact crossed_consumed machine time addr
  | other => exact crossed

theorem Truthful.listen {machine : DrivenReceiver Addr F} (truthful : Truthful machine)
    (time : Nat) (listed : Bool) (event : ListenEvent Addr F) :
    Truthful (machine.listen time listed event) := by
  have session := (listen_session machine.receiver listed event).1
  refine ⟨?_, ?_, ?_⟩
  · have holds : (machine.receiver.listen listed event).holdsAnything =
        machine.receiver.holdsAnything := by
      rw [holdsAnything, session, holdsAnything]
    change _ = (machine.receiver.listen listed event).holdsAnything
    rw [holds, ← truthful.held]
    cases event with
    | msg message addr => exact held_message machine time addr listed message
    | accept addr fingerprint | closed addr => exact held_removeCrossed _ _ _ _
    | rejected fingerprint addr | removedBy fingerprint => rfl
  · cases event with
    | msg message addr =>
      refine crossed_message truthful time addr listed message rfl ?_
      rw [admit_whose, admit_whose]
      rfl
    | accept addr fingerprint | closed addr => rfl
    | rejected fingerprint addr | removedBy fingerprint => exact truthful.crossed
  · exact fun emulation running => truthful.kept emulation (session.symm.trans running)

end Listening

theorem Truthful.reap {machine : DrivenReceiver Addr F} (truthful : Truthful machine)
    (time : Nat) (addr : Addr) : Truthful (machine.reap time addr) := by
  unfold DrivenReceiver.reap Receiver.reap
  by_cases heard : addr ∈ machine.receiver.lastResponse
  · rw [if_pos heard, if_pos heard]
    refine ⟨?_, rfl, truthful.kept⟩
    exact (held_removeCrossed _ _ _ _).trans truthful.held
  · rw [if_neg heard, if_neg heard]
    exact truthful

theorem Truthful.foldl_reap (time : Nat) (stale : List Addr) {machine : DrivenReceiver Addr F}
    (truthful : Truthful machine) : Truthful (stale.foldl (DrivenReceiver.reap time) machine) := by
  induction stale generalizing machine with
  | nil => exact truthful
  | cons addr rest ih => exact ih (truthful.reap time addr)

/-! ## The emulation task keeps the cells truthful -/

section Emulating

variable [Add F] [Sub F] [Zero F] (answer : List (Call F) → Except E Unit)
  {machine : DrivenReceiver Addr F} {emulation : InputEmulation F}

omit [Add F] [Sub F] [Zero F] in
/-- A step that leaves the connections alone and writes the cell for what is held. -/
theorem Truthful.emulated (truthful : Truthful machine) {taken : Act Addr F}
    {next : Receiver Addr F} {driven : Driven}
    (moves : SessionStep answer machine.receiver taken next)
    (connections : next.driving = machine.receiver.driving)
    (crossed : driven.crossed = machine.driven.crossed) (held : driven.held = next.holdsAnything) :
    Truthful ⟨next, driven⟩ := by
  refine ⟨held, ?_, fun emulation running => moves.kept answer truthful.kept running⟩
  rw [crossed, connections, truthful.crossed]

omit [Sub F] [Zero F] in
theorem held_takeRequest (truthful : Truthful machine) (time : Nat) (order : HashOrder) :
    (machine.takeRequest answer time order).driven.held =
      (machine.receiver.takeRequest answer order).holdsAnything := by
  have held := truthful.held
  unfold Receiver.holdsAnything at held
  cases waiting : machine.receiver.requests with
  | nil =>
    simp only [takeRequest, Receiver.takeRequest, waiting]
    exact truthful.held
  | cons request rest =>
    cases phase : machine.receiver.phase with
    | stopped =>
      simp only [takeRequest, Receiver.takeRequest, waiting, phase]
      exact truthful.held
    | waiting | starting =>
      rw [phase] at held
      simp only [takeRequest, Receiver.takeRequest, waiting, phase, held]
      cases request <;> simp only [Receiver.holdsAnything]
    | running emulation =>
      rw [phase] at held
      simp only [takeRequest, Receiver.takeRequest, waiting, phase]
      cases request with
      | input event addr peer source | remove addr asked | reenable =>
        simp only [Receiver.holdsAnything, held]
      | terminate | stopForMissing =>
        exact (holdsAnything_of_apart (Receiver.endSession_apart answer _ order _)).symm

omit [Sub F] [Zero F] in
theorem Truthful.takeRequest (truthful : Truthful machine) (time : Nat) (order : HashOrder) :
    Truthful (machine.takeRequest answer time order) := by
  refine truthful.emulated answer (takeRequest_session answer machine.receiver order)
    (takeRequest_emulates answer machine.receiver order).connections.2 ?_
    (held_takeRequest answer truthful time order)
  split
  · exact crossed_letGo _ _ _ _
  · exact crossed_letGo _ _ _ _
  · rfl

omit [Sub F] [Zero F] [Add F] in
theorem held_removeHandle (truthful : Truthful machine) (time : Nat) (order : HashOrder)
    (addr : Addr) (running : machine.receiver.phase = .running emulation)
    {receiver : Receiver Addr F} (handles : receiver.handles = machine.receiver.handles) :
    (machine.removeHandle answer time order emulation addr).held =
      (receiver.removeHandle answer order emulation addr).holdsAnything := by
  unfold removeHandle Receiver.removeHandle
  rw [handles]
  cases machine.receiver.handles.lookup addr with
  | none => exact truthful.held.trans (holdsAnything_of_running running)
  | some handle => rfl

omit [DecidableEq Addr] [Sub F] [Zero F] [Add F] in
theorem held_injected (driven : Driven) (time : Nat) (order : HashOrder) (known : Receiver Addr F)
    (outcome : Except E Unit) (consumed : InputEmulation F) :
    (match outcome with
      | .ok () => driven.injected time consumed.holdsAnything
      | .error _ => endSession (driven.injected time consumed.holdsAnything) time consumed).held =
    holdsAnything (match outcome with
      | .ok () => { known with phase := .running consumed }
      | .error _ => known.endSession answer order consumed) := by
  cases outcome with
  | ok done => rfl
  | error failure =>
    exact (holdsAnything_of_apart (endSession_apart answer known order consumed)).symm

section

omit [Sub F] [Zero F] [Add F]

theorem held_serve (truthful : Truthful machine) (time : Nat) (order : HashOrder) :
    (machine.serve answer time order).driven.held =
      (machine.receiver.serve answer order).holdsAnything := by
  simp only [serve, Receiver.serve]
  cases phase : machine.receiver.phase with
  | running emulation =>
    cases popped : machine.receiver.queued.pop with
    | none => exact truthful.held
    | some turn =>
      obtain ⟨addr, item, count, left⟩ := turn
      cases item with
      | remove asked => exact held_removeHandle answer truthful time order addr phase rfl
      | input event peer sources =>
        dsimp only
        split
        · exact held_injected answer machine.driven time order _ _ _
        · exact held_removeHandle answer truthful time order addr phase rfl
  | waiting | starting | stopped => exact truthful.held

theorem crossed_removeHandle (machine : DrivenReceiver Addr F) (time : Nat) (order : HashOrder)
    (emulation : InputEmulation F) (addr : Addr) :
    (machine.removeHandle answer time order emulation addr).crossed = machine.driven.crossed := by
  unfold removeHandle
  split
  · rfl
  · exact crossed_letGo _ _ _ _

theorem Truthful.serve (truthful : Truthful machine) (time : Nat) (order : HashOrder) :
    Truthful (machine.serve answer time order) := by
  refine truthful.emulated answer (serve_session answer machine.receiver order)
    (serve_requests answer machine.receiver order).1.connections.2 ?_
    (held_serve answer truthful time order)
  split
  · split
    · rfl
    · split
      · dsimp only
        split
        · rfl
        · exact crossed_letGo _ _ _ _
      · exact crossed_removeHandle answer machine time order _ _
    · exact crossed_removeHandle answer machine time order _ _
  · rfl

end

theorem Truthful.sessionEnded (truthful : Truthful machine) (time : Nat) (order : HashOrder) :
    Truthful (machine.sessionEnded answer time order) := by
  have moves := Receiver.act_session answer machine.receiver (.sessionEnded order)
  cases phase : machine.receiver.phase with
  | running emulation =>
    refine truthful.emulated answer moves ?_ ?_ ?_
    · simp only [Receiver.sessionEnded, phase, Receiver.endSession]
    · simp only [phase]
      exact crossed_letGo _ _ _ _
    · simp only [Receiver.sessionEnded, phase]
      exact (holdsAnything_of_apart (Receiver.endSession_apart answer _ order _)).symm
  | waiting | starting | stopped =>
    simp only [DrivenReceiver.sessionEnded, Receiver.sessionEnded, phase]
    exact truthful

/-! ## Every run -/

theorem Truthful.act (truthful : Truthful machine) (time : Nat) (taken : Receiver.Act Addr F) :
    Truthful (machine.act answer time taken) := by
  have moves := Receiver.act_session answer machine.receiver taken
  have same : ∀ {next : Receiver Addr F}, next.phase = machine.receiver.phase →
      next.driving = machine.receiver.driving → Truthful ⟨next, machine.driven⟩ := by
    intro next phase driving
    refine ⟨?_, ?_, fun emulation running => truthful.kept emulation (phase.symm.trans running)⟩
    · rw [Receiver.holdsAnything, phase]
      exact truthful.held
    · rw [driving]
      exact truthful.crossed
  cases taken with
  | listen event listed =>
    simp only [DrivenReceiver.act]
    split
    · exact truthful.listen time listed event
    · exact truthful
  | tick stale =>
    simp only [DrivenReceiver.act]
    split
    · exact truthful.foldl_reap time stale
    · exact truthful
  | take order => exact truthful.takeRequest answer time order
  | serve order => exact truthful.serve answer time order
  | sessionEnded order => exact truthful.sessionEnded answer time order
  | notice =>
    simp only [DrivenReceiver.act, Receiver.act, Receiver.takeNotice]
    split
    · split
      · exact truthful
      · exact same rfl rfl
    · exact truthful
  | reenable | stopForMissing | terminate =>
    simp only [DrivenReceiver.act, Receiver.act]
    split
    · exact same rfl rfl
    · exact truthful
  | trust mayDriveUs => exact same rfl rfl
  | start scope =>
    simp only [DrivenReceiver.act, Receiver.act, Receiver.startSession] at moves ⊢
    cases phase : machine.receiver.phase with
    | starting =>
      rw [phase] at moves
      refine truthful.emulated answer moves rfl rfl ?_
      rw [truthful.held, Receiver.holdsAnything, phase]
      exact (created_holds_nothing _ scope).symm
    | running emulation | waiting | stopped => exact truthful
  | failStart =>
    simp only [DrivenReceiver.act, Receiver.act, Receiver.failStart] at moves ⊢
    cases phase : machine.receiver.phase with
    | starting =>
      rw [phase] at moves
      refine truthful.emulated answer moves rfl rfl ?_
      rw [truthful.held, Receiver.holdsAnything, phase]
      dsimp only
      split <;> rfl
    | running emulation | waiting | stopped => exact truthful
  | restart =>
    simp only [DrivenReceiver.act, Receiver.act, Receiver.restart] at moves ⊢
    cases phase : machine.receiver.phase with
    | waiting =>
      rw [phase] at moves
      refine truthful.emulated answer moves rfl rfl ?_
      rw [truthful.held, Receiver.holdsAnything, phase]
      rfl
    | running emulation | starting | stopped => exact truthful

theorem Truthful.step (truthful : Truthful machine) (turn : Nat × Turn Addr F) :
    Truthful (machine.step answer turn) := by
  obtain ⟨time, turn⟩ := turn
  cases turn with
  | act taken =>
    have acted := truthful.act answer time taken
    exact ⟨acted.held, acted.crossed, acted.kept⟩
  | dropped =>
    simp only [DrivenReceiver.step]
    split
    · exact ⟨truthful.held, rfl, truthful.kept⟩
    · exact truthful

variable (mayDriveUs : String → Bool)

omit [DecidableEq Addr] [Add F] [Sub F] [Zero F] in
theorem truthful_start : Truthful (.start mayDriveUs : DrivenReceiver Addr F) where
  held := rfl
  crossed := rfl
  kept _ running := by cases running

theorem truthful_run (turns : List (Nat × Turn Addr F)) :
    Truthful (run answer mayDriveUs turns) := by
  induction turns using List.reverseRecOn with
  | nil => exact truthful_start mayDriveUs
  | append_singleton turns turn ih =>
    rw [run, foldl_concat]
    exact ih.step answer turn

/-! ## The stamp -/

/-- Something is held, a peer is crossed in, or an event is about to be injected. -/
def Busy (receiver : Receiver Addr F) : Prop :=
  receiver.holdsAnything = true ∨ receiver.driving ≠ [] ∨ receiver.injects.isSome

/-- The stamp is what it was, or was set in a busy turn. -/
def Stamped (machine : DrivenReceiver Addr F) (time : Nat) (driven : Driven) : Prop :=
  driven.lastInput = machine.driven.lastInput ∨ driven.lastInput = some time ∧ Busy machine.receiver

section

omit [Add F] [Sub F] [Zero F]

variable (machine)

variable (time : Nat) (addr : Addr)

theorem stamped_letGo {wasHeld : Bool} (stillHeld : Bool)
    (was : wasHeld = true → machine.receiver.holdsAnything = true) :
    Stamped machine time (machine.driven.letGo time wasHeld stillHeld) := by
  cases wasHeld with
  | true => exact .inr ⟨rfl, .inl (was rfl)⟩
  | false => exact .inl rfl

theorem stamped_removeCrossed :
    Stamped machine time (machine.driven.removeCrossed time machine.receiver.driving addr) := by
  unfold removeCrossed
  split
  · rename_i crossed
    exact .inr ⟨rfl, .inr (.inl (ne_nil_of_mem crossed))⟩
  · exact .inl rfl

theorem stamped_consumed : Stamped machine time (machine.consumed time addr) := by
  have same : (machine.receiver.admitPeer addr).2.driving = machine.receiver.driving := by
    obtain ⟨_, _, same⟩ := admit_leaves machine.receiver addr
    rw [same]
  unfold consumed
  generalize machine.receiver.admitPeer addr = decided at same
  obtain ⟨whose, admitted⟩ := decided
  cases whose with
  | none => exact .inl rfl
  | some peer =>
    dsimp only at same ⊢
    split
    · rename_i crossed
      rw [same] at crossed
      exact .inr ⟨rfl, .inr (.inl (ne_nil_of_mem crossed))⟩
    · exact .inl rfl

theorem stamped_message (listed : Bool) (message : Message F) :
    Stamped machine time (machine.message time addr listed message) := by
  cases message with
  | enter =>
    simp only [message]
    split
    · exact .inl rfl
    · split <;> exact .inl rfl
  | leave => exact stamped_removeCrossed machine time addr
  | input event | pointerMotionAbsolute stamp vx vy => exact stamped_consumed machine time addr
  | other => exact .inl rfl

theorem stamped_reap : Stamped machine time (machine.reap time addr).driven := by
  unfold reap
  split
  · exact stamped_removeCrossed machine time addr
  · exact .inl rfl

variable {machine}

theorem Busy.of_reap {time : Nat} {addr : Addr} (busy : Busy (machine.reap time addr).receiver) :
    Busy machine.receiver := by
  unfold reap Receiver.reap at busy
  split at busy
  · rcases busy with holds | drives | injects
    · exact .inl holds
    · refine .inr (.inl fun nobody => drives ?_)
      rw [nobody]
      rfl
    · exact .inr (.inr injects)
  · exact busy

theorem stamped_foldl_reap (stale : List Addr) (machine : DrivenReceiver Addr F) :
    Stamped machine time (stale.foldl (reap time) machine).driven := by
  induction stale generalizing machine with
  | nil => exact .inl rfl
  | cons addr rest ih =>
    rcases ih (machine.reap time addr) with unstamped | ⟨stamped, busy⟩
    · rw [foldl_cons, Stamped, unstamped]
      exact stamped_reap machine time addr
    · exact .inr ⟨stamped, busy.of_reap⟩

end

omit [DecidableEq Addr] [Add F] [Sub F] [Zero F] in
theorem holdsAnything_of_holds {handle : Handle} (holds : emulation.holds handle = true) :
    emulation.holdsAnything = true := by
  unfold InputEmulation.holds InputEmulation.hasPressedKeys at holds
  unfold InputEmulation.holdsAnything
  rw [Bool.or_eq_true, Option.any_eq_true, Option.any_eq_true] at holds
  rw [Bool.or_eq_true, Table.any_iff, Table.any_iff]
  rcases holds with ⟨pressed, found, nonempty⟩ | ⟨pressed, found, nonempty⟩
  · exact .inl ⟨handle, pressed, found, nonempty⟩
  · exact .inr ⟨handle, pressed, found, nonempty⟩

section

omit [Add F] [Sub F] [Zero F]

theorem stamped_removeHandle (machine : DrivenReceiver Addr F) (time : Nat) (order : HashOrder)
    (addr : Addr) (running : machine.receiver.phase = .running emulation) :
    Stamped machine time (machine.removeHandle answer time order emulation addr) := by
  unfold removeHandle
  split
  · exact .inl rfl
  · refine stamped_letGo machine time _ fun holds => ?_
    rw [holdsAnything_of_running running]
    exact holdsAnything_of_holds holds

theorem stamped_serve (machine : DrivenReceiver Addr F) (time : Nat) (order : HashOrder) :
    Stamped machine time (machine.serve answer time order).driven := by
  simp only [serve]
  cases phase : machine.receiver.phase with
  | running emulation =>
    cases popped : machine.receiver.queued.pop with
    | none => exact .inl rfl
    | some turn =>
      obtain ⟨addr, item, count, left⟩ := turn
      cases item with
      | remove asked => exact stamped_removeHandle answer machine time order addr phase
      | input event peer sources =>
        dsimp only
        split
        · rename_i permitted
          have busy : Busy machine.receiver := by
            refine .inr (.inr ?_)
            simp only [injects, phase, popped, permitted, if_true, Option.isSome]
          refine .inr ⟨?_, busy⟩
          split
          · rfl
          · unfold endSession Driven.letGo
            split <;> rfl
        · exact stamped_removeHandle answer machine time order addr phase
  | waiting | starting | stopped => exact .inl rfl

end

omit [Sub F] [Zero F] in
theorem stamped_takeRequest (machine : DrivenReceiver Addr F) (time : Nat) (order : HashOrder) :
    Stamped machine time (machine.takeRequest answer time order).driven := by
  simp only [takeRequest]
  split
  · rename_i running
    exact stamped_letGo machine time _ fun holds => (holdsAnything_of_running running).trans holds
  · rename_i running
    exact stamped_letGo machine time _ fun holds => (holdsAnything_of_running running).trans holds
  · exact .inl rfl

omit [Add F] [Sub F] [Zero F] in
theorem stamped_sessionEnded (machine : DrivenReceiver Addr F) (time : Nat) (order : HashOrder) :
    Stamped machine time (machine.sessionEnded answer time order).driven := by
  simp only [sessionEnded]
  split
  · rename_i running
    exact stamped_letGo machine time _ fun holds => (holdsAnything_of_running running).trans holds
  · exact .inl rfl

theorem stamped_step (machine : DrivenReceiver Addr F) (turn : Nat × Turn Addr F) :
    Stamped machine turn.1 (machine.step answer turn).driven := by
  obtain ⟨time, turn⟩ := turn
  cases turn with
  | dropped =>
    simp only [step]
    split <;> exact .inl rfl
  | act taken =>
    change Stamped machine time (machine.act answer time taken).driven
    cases taken with
    | listen event listed =>
      simp only [act]
      split
      · cases event with
        | msg message addr => exact stamped_message machine time addr listed message
        | accept addr fingerprint | closed addr => exact stamped_removeCrossed machine time addr
        | rejected fingerprint addr | removedBy fingerprint => exact .inl rfl
      · exact .inl rfl
    | tick stale =>
      simp only [act]
      split
      · exact stamped_foldl_reap time stale machine
      · exact .inl rfl
    | take order => exact stamped_takeRequest answer machine time order
    | serve order => exact stamped_serve answer machine time order
    | sessionEnded order => exact stamped_sessionEnded answer machine time order
    | _ => exact .inl rfl

theorem stamped_run (turns : List (Nat × Turn Addr F)) {time : Nat}
    (stamped : (run answer mayDriveUs turns).driven.lastInput = some time) :
    ∃ earlier turn later, turns = earlier ++ turn :: later ∧
      Busy (run answer mayDriveUs earlier).receiver ∧ turn.1 = time := by
  induction turns using List.reverseRecOn with
  | nil => cases stamped
  | append_singleton turns turn ih =>
    rw [run, foldl_concat] at stamped
    rcases stamped_step answer (run answer mayDriveUs turns) turn with old | ⟨new, busy⟩
    · obtain ⟨earlier, last, later, split, busy, shows⟩ := ih (old.symm.trans stamped)
      exact ⟨earlier, last, later ++ [turn], by simp [split], busy, shows⟩
    · exact ⟨turns, turn, [], rfl, busy, Option.some.inj (new.symm.trans stamped)⟩

/--
After every turn the cells say what is the case, and a session that ends lets go
of everything.  So the machine reads as driven while something is held or a peer
is crossed in, and no longer once neither is and the quiet time has passed since
the last turn at which one was or an event was injected.
-/
theorem driven_cells (mayDriveUs : String → Bool) (turns : List (Nat × Turn Addr F)) :
    let machine := run answer mayDriveUs turns
    (machine.driven.held = true ↔
      ∃ emulation, machine.receiver.phase = .running emulation ∧
        ∃ handle held, Lists emulation handle held) ∧
    (machine.driven.crossed = true ↔ ∃ addr, addr ∈ machine.receiver.driving) ∧
    (∀ emulation order, machine.receiver.phase = .running emulation →
      (emulation.terminate answer order).holdsAnything = false) ∧
    (∀ now quiet, ((∃ emulation, machine.receiver.phase = .running emulation ∧
          ∃ handle held, Lists emulation handle held) ∨
        ∃ addr, addr ∈ machine.receiver.driving) →
      machine.driven.within now quiet = true) ∧
    (∀ now quiet, (¬ ∃ emulation, machine.receiver.phase = .running emulation ∧
          ∃ handle held, Lists emulation handle held) →
        (¬ ∃ addr, addr ∈ machine.receiver.driving) →
        (∀ earlier turn later, turns = earlier ++ turn :: later →
          Busy (run answer mayDriveUs earlier).receiver → turn.1 + quiet ≤ now) →
      machine.driven.within now quiet = false) := by
  intro machine
  have truthful : Truthful machine := truthful_run answer mayDriveUs turns
  have held : machine.driven.held = true ↔
      ∃ emulation, machine.receiver.phase = .running emulation ∧
        ∃ handle held, Lists emulation handle held := by
    rw [truthful.held]
    constructor
    · intro holds
      cases phase : machine.receiver.phase with
      | running emulation =>
        rw [holdsAnything_of_running phase] at holds
        exact ⟨emulation, rfl, holdsAnything_iff.mp holds⟩
      | _ => simp [holdsAnything, phase] at holds
    · rintro ⟨emulation, running, lists⟩
      rw [holdsAnything_of_running running]
      exact holdsAnything_iff.mpr lists
  have crossed : machine.driven.crossed = true ↔ ∃ addr, addr ∈ machine.receiver.driving := by
    rw [truthful.crossed, Bool.not_eq_true', isEmpty_eq_false_iff_exists_mem]
  refine ⟨held, crossed, ?_, ?_, ?_⟩
  · intro emulation order running
    exact (truthful.kept emulation running).formed.terminate_holds_nothing answer order
  · rintro now quiet (holds | drives)
    · simp [within, held.mpr holds]
    · simp [within, crossed.mpr drives]
  · intro now quiet released left passed
    have unheld : machine.driven.held = false := Bool.eq_false_iff.mpr (mt held.mp released)
    have uncrossed : machine.driven.crossed = false := Bool.eq_false_iff.mpr (mt crossed.mp left)
    rw [within, unheld, uncrossed, Bool.false_or, Bool.false_or, Option.any_eq_false]
    intro time stamped
    obtain ⟨earlier, turn, later, split, busy, rfl⟩ :=
      stamped_run answer mayDriveUs turns stamped
    have elapsed := passed earlier turn later split busy
    have late : ¬ now - turn.1 < quiet := by omega
    simpa using late

end Emulating

end DrivenReceiver

end HopsFormal.Emulation
