import HopsFormal.Emulation.Turns
import HopsFormal.Macos.Seen
import Mathlib.Algebra.BigOperators.Group.List.Basic
import Mathlib.Data.Rat.Floor
import Mathlib.Tactic.Linarith

/-!
# Motion in whole pixels

The Windows and the X11 backend turn each motion into whole pixels by itself and keep nothing of
what is left over.  What they hand to the system so falls short of what they received by the sum
of what each motion left over, and motion merged before it reaches them goes another way than the
same motion unmerged.  Deltas are exact numbers here.
-/

namespace HopsFormal.Emulation

open Capture (Event PointerEvent KeyboardEvent)
open Macos (btnLeft btnRight btnMiddle btnBack btnForward)

/-! ## Whole pixels -/

/-- A number without what it has after the point. -/
def truncate (x : ℚ) : ℤ := if 0 ≤ x then ⌊x⌋ else ⌈x⌉

/-- `x as i32`: no further than the type reaches. -/
def asI32 (x : ℚ) : Int32 := .ofInt (max (-2147483648) (min 2147483647 (truncate x)))

/-- What a delta has after the point, with its sign, and what it has beyond the type. -/
def leftOver (x : ℚ) : ℚ :=
  if 2147483647 ≤ x then x - 2147483647
  else if x ≤ -2147483648 then x + 2147483648
  else if 0 ≤ x then Int.fract x else -Int.fract (-x)

theorem asI32_toInt (x : ℚ) :
    (asI32 x).toInt = max (-2147483648) (min 2147483647 (truncate x)) :=
  Int32.toInt_ofInt_of_le (by omega) (by omega)

theorem leftOver_eq (x : ℚ) : leftOver x = x - (asI32 x).toInt := by
  rw [asI32_toInt, leftOver, truncate]
  split
  · rename_i high
    have whole : (2147483647 : ℤ) ≤ ⌊x⌋ := Int.le_floor.mpr (by exact_mod_cast high)
    rw [if_pos (by linarith), min_eq_left whole]
    norm_num
  · rename_i high
    split
    · rename_i low
      have whole : ⌈x⌉ ≤ (-2147483648 : ℤ) := Int.ceil_le.mpr (by exact_mod_cast low)
      rw [if_neg (by linarith), min_eq_right (by omega), max_eq_left whole]
      norm_num
    · rename_i low
      split
      · rename_i right
        have above : 0 ≤ ⌊x⌋ := Int.floor_nonneg.mpr right
        have below : ⌊x⌋ < 2147483647 := Int.floor_lt.mpr (by push_cast; linarith)
        rw [min_eq_right (by omega), max_eq_right (by omega), Int.fract]
      · rename_i left
        have above : ⌈x⌉ ≤ 0 := Int.ceil_le.mpr (by push_cast; linarith)
        have below : -2147483648 < ⌈x⌉ := Int.lt_ceil.mpr (by push_cast; linarith)
        rw [min_eq_right (by omega), max_eq_right (by omega), Int.fract, Int.floor_neg]
        push_cast
        ring

inductive Axis where
  | x
  | y

/-- How far an event moves the pointer along an axis. -/
def along (axis : Axis) : Event ℚ → ℚ
  | .pointer (.motion _ dx dy) =>
    match axis with
    | .x => dx
    | .y => dy
  | _ => 0

variable (axis : Axis) (events : List (Event ℚ))

theorem along_keyboard (event : KeyboardEvent) : along axis (.keyboard event) = 0 := rfl

theorem asI32_zero : (asI32 0).toInt = 0 := by simp [asI32_toInt, truncate]

def received (axis : Axis) (events : List (Event ℚ)) : ℚ := (events.map (along axis)).sum

/-- What the events leave over. -/
def lost (axis : Axis) (events : List (Event ℚ)) : ℚ :=
  (events.map fun event => leftOver (along axis event)).sum

/-- The whole pixels of the events, each turned into pixels by itself. -/
def pixels (axis : Axis) (events : List (Event ℚ)) : ℤ :=
  (events.map fun event => (asI32 (along axis event)).toInt).sum

theorem lost_eq : lost axis events = received axis events - pixels axis events := by
  induction events with
  | nil => simp [lost, received, pixels]
  | cons event rest ih =>
    have first := leftOver_eq (along axis event)
    unfold lost received pixels at ih ⊢
    simp only [List.map_cons, List.sum_cons, Int.cast_add]
    linarith

theorem within_pixel :
    |(pixels axis events : ℚ) - received axis events| < 1 ↔ |lost axis events| < 1 := by
  rw [lost_eq, abs_sub_comm]

theorem pixels_concat (event : Event ℚ) :
    pixels axis (events ++ [event]) = pixels axis events + (asI32 (along axis event)).toInt := by
  simp [pixels]

/-! ## Windows -/

inductive MouseFlag where
  | move
  | leftDown
  | leftUp
  | rightDown
  | rightUp
  | middleDown
  | middleUp
  | xDown
  | xUp
  | wheel
  | hwheel

/-- An event as the system is offered it. -/
inductive Input where
  | mouse (dx dy : Int32) (mouseData : UInt32) (flag : MouseFlag)
  | keyboard (scan : UInt16) (extended up : Bool)

def Input.along (axis : Axis) : Input → ℤ
  | .mouse dx dy _ _ =>
    match axis with
    | .x => dx.toInt
    | .y => dy.toInt
  | .keyboard .. => 0

def handed (axis : Axis) (offered : List Input) : ℤ := (offered.map (Input.along axis)).sum

/-- How often one event is offered to a desktop that refuses it. -/
def sendInputMaxAttempts : Nat := 8

def relMouse (dx dy : Int32) : Option Input := some (.mouse dx dy 0 .move)

/-- None for a button, or a state of one, the system has no event for. -/
def mouseButton (button state : UInt32) : Option Input :=
  let flag : Option MouseFlag :=
    if state = 0 then
      if button = btnLeft then some .leftUp
      else if button = btnRight then some .rightUp
      else if button = btnMiddle then some .middleUp
      else if button = btnBack then some .xUp
      else if button = btnForward then some .xUp
      else none
    else if state = 1 then
      if button = btnLeft then some .leftDown
      else if button = btnRight then some .rightDown
      else if button = btnMiddle then some .middleDown
      else if button = btnBack then some .xDown
      else if button = btnForward then some .xDown
      else none
    else none
  -- the two side buttons
  let mouseData := if button = btnBack then 1 else if button = btnForward then 2 else 0
  flag.map (.mouse 0 0 mouseData ·)

def scroll (axis : UInt8) (value : Int32) : Option Input :=
  if axis = 0 then some (.mouse 0 0 (-value).toUInt32 .wheel)
  else if axis = 1 then some (.mouse 0 0 (-value).toUInt32 .hwheel)
  else none

def pointerInput : PointerEvent ℚ → Option Input
  | .motion _ dx dy => relMouse (asI32 dx) (asI32 dy)
  | .button _ button state => mouseButton button state
  | .axis _ axis value => scroll axis (asI32 value)
  | .axisDiscrete120 axis value => scroll axis value

/-- The key that repeats, whether the desktop refuses what it is offered, and what it was offered. -/
structure WindowsEmulation where
  repeatTask : Option UInt32
  desktopRefusing : Bool
  offered : List Input

namespace WindowsEmulation

def start : WindowsEmulation := ⟨none, false, []⟩

/-- Offer an event, which the desktop refuses so many times; says whether it was taken, which
nothing to offer counts as. -/
def sendInputSafe (emulation : WindowsEmulation) (refusals : Nat) :
    Option Input → Bool × WindowsEmulation
  | none => (true, emulation)
  | some input =>
    (decide (refusals < sendInputMaxAttempts),
      { emulation with offered := emulation.offered ++ [input] })

def killRepeatTask (emulation : WindowsEmulation) : WindowsEmulation :=
  { emulation with repeatTask := none }

def noteDelivery (emulation : WindowsEmulation) (delivered : Bool) : WindowsEmulation :=
  if (!delivered) = emulation.desktopRefusing then emulation
  else if delivered then { emulation with desktopRefusing := false }
  else { emulation.killRepeatTask with desktopRefusing := true }

section Keys

-- the Windows code of a key, by the tables of keys
variable (windowsScancode : UInt32 → Option UInt16)

def keyEvent (key : UInt32) (state : UInt8) : Option Input :=
  (windowsScancode key).map fun scan => .keyboard (scan &&& 0xff) (0xff < scan) (state = 0)

def consume (emulation : WindowsEmulation) (refusals : Nat) : Event ℚ → WindowsEmulation
  | .pointer event =>
    let (delivered, sent) := emulation.sendInputSafe refusals (pointerInput event)
    sent.noteDelivery delivered
  | .keyboard (.key _ key state) =>
    let armed :=
      if state = 0 then emulation.killRepeatTask
      else if state = 1 then { emulation.killRepeatTask with repeatTask := some key }
      else emulation
    let (delivered, sent) := armed.sendInputSafe refusals (keyEvent windowsScancode key state)
    sent.noteDelivery delivered
  | .keyboard (.modifiers ..) => emulation

/-- The key that repeats is pressed again, and no more once the desktop refuses it. -/
def repeatKey (emulation : WindowsEmulation) (refusals : Nat) : WindowsEmulation :=
  match emulation.repeatTask with
  | none => emulation
  | some key =>
    let (delivered, sent) := emulation.sendInputSafe refusals (keyEvent windowsScancode key 1)
    if delivered then sent else sent.killRepeatTask

inductive Act where
  | consume (event : Event ℚ) (refusals : Nat)
  | repeatKey (refusals : Nat)

def step (emulation : WindowsEmulation) : Act → WindowsEmulation
  | .consume event refusals => emulation.consume windowsScancode refusals event
  | .repeatKey refusals => emulation.repeatKey windowsScancode refusals

def consumed (acts : List Act) : List (Event ℚ) :=
  acts.filterMap fun act =>
    match act with
    | .consume event _ => some event
    | .repeatKey _ => none

def run (acts : List Act) : WindowsEmulation := acts.foldl (step windowsScancode) start

variable (axis : Axis) (emulation : WindowsEmulation)

theorem noteDelivery_offered (delivered : Bool) :
    (emulation.noteDelivery delivered).offered = emulation.offered := by
  unfold noteDelivery
  split
  · rfl
  · split <;> rfl

theorem handed_send (refusals : Nat) (input : Option Input) :
    handed axis (emulation.sendInputSafe refusals input).2.offered =
      handed axis emulation.offered + (input.map (Input.along axis)).getD 0 := by
  cases input with
  | none => simp [sendInputSafe]
  | some input => simp [sendInputSafe, handed]

theorem mouseButton_along (button state : UInt32) :
    ((mouseButton button state).map (Input.along axis)).getD 0 = 0 := by
  unfold mouseButton
  generalize (if state = 0 then _ else _ : Option MouseFlag) = flag
  cases flag <;> cases axis <;> rfl

theorem scroll_along (wheel : UInt8) (value : Int32) :
    ((scroll wheel value).map (Input.along axis)).getD 0 = 0 := by
  unfold scroll
  cases axis <;> (split; rfl; split <;> rfl)

theorem pointerInput_along (event : PointerEvent ℚ) :
    ((pointerInput event).map (Input.along axis)).getD 0 =
      (asI32 (Emulation.along axis (.pointer event))).toInt := by
  cases event with
  | motion time dx dy => cases axis <;> rfl
  | button time button state => exact (mouseButton_along axis button state).trans asI32_zero.symm
  | axis time wheel value => exact (scroll_along axis wheel _).trans asI32_zero.symm
  | axisDiscrete120 wheel value => exact (scroll_along axis wheel value).trans asI32_zero.symm

theorem keyEvent_along (key : UInt32) (state : UInt8) :
    ((keyEvent windowsScancode key state).map (Input.along axis)).getD 0 = 0 := by
  unfold keyEvent
  cases windowsScancode key <;> rfl

theorem handed_step (act : Act) : handed axis (emulation.step windowsScancode act).offered =
      handed axis emulation.offered + pixels axis (consumed [act]) := by
  cases act with
  | consume event refusals =>
    have whole : pixels axis (consumed [.consume event refusals]) =
        (asI32 (along axis event)).toInt := by simp [consumed, pixels]
    rw [whole]
    cases event with
    | pointer event =>
      exact (congrArg (handed axis) (noteDelivery_offered _ _)).trans
        ((handed_send axis emulation refusals _).trans (by rw [pointerInput_along]))
    | keyboard event =>
      cases event with
      | key time key state =>
        refine (congrArg (handed axis) (noteDelivery_offered _ _)).trans
          ((handed_send axis _ refusals _).trans ?_)
        rw [keyEvent_along, along_keyboard, asI32_zero]
        split
        · rfl
        · split <;> rfl
      | modifiers depressed latched locked group =>
        rw [along_keyboard, asI32_zero, add_zero]
        rfl
  | repeatKey refusals =>
    have none_ : pixels axis (consumed [.repeatKey refusals]) = 0 := rfl
    rw [none_, add_zero]
    unfold step repeatKey
    dsimp only
    split
    · rfl
    · rename_i key _
      have sent := handed_send axis emulation refusals (keyEvent windowsScancode key 1)
      rw [keyEvent_along, add_zero] at sent
      split
      · exact sent
      · exact sent

theorem handed_run (acts : List Act) :
    handed axis (run windowsScancode acts).offered = pixels axis (consumed acts) := by
  induction acts using List.reverseRecOn with
  | nil => rfl
  | append_singleton acts act ih =>
    have parts : consumed (acts ++ [act]) = consumed acts ++ consumed [act] :=
      List.filterMap_append
    rw [run, List.foldl_concat, handed_step, ← run, ih, parts]
    simp [pixels]

end Keys

end WindowsEmulation

open WindowsEmulation

/-! ## X11 -/

/-- What the server is asked to fake. -/
inductive Fake where
  | relativeMotion (dx dy : Int32)
  | button (button : UInt32) (state : Int32)
  | key (key : UInt32) (state : Int32)

def Fake.along (axis : Axis) : Fake → ℤ
  | .relativeMotion dx dy =>
    match axis with
    | .x => dx.toInt
    | .y => dy.toInt
  | _ => 0

def scrollUp : UInt32 := 4
def scrollDown : UInt32 := 5
def scrollLeft : UInt32 := 6
def scrollRight : UInt32 := 7

def x11Button (button : UInt32) : UInt32 :=
  if button = btnRight then 3
  else if button = btnMiddle then 2
  else if button = btnBack then 8
  else if button = btnForward then 9
  else 1

def emulateScroll (axis : UInt8) (value : ℚ) : List Fake :=
  let direction :=
    if axis = 1 then if value < 0 then scrollLeft else scrollRight
    else if value < 0 then scrollUp else scrollDown
  [.button direction 1, .button direction 0]

def fakes : Event ℚ → List Fake
  | .pointer (.motion _ dx dy) => [.relativeMotion (asI32 dx) (asI32 dy)]
  | .pointer (.button _ button state) => [.button (x11Button button) state.toInt32]
  | .pointer (.axis _ axis value) => emulateScroll axis value
  | .pointer (.axisDiscrete120 axis value) => emulateScroll axis value.toInt
  -- codes of keys are shifted by 8 here
  | .keyboard (.key _ key state) => [.key (key + 8) state.toUInt32.toInt32]
  | .keyboard (.modifiers ..) => []

structure X11Emulation where
  faked : List Fake
  flushes : Nat

namespace X11Emulation

def start : X11Emulation := ⟨[], 0⟩

def consume (emulation : X11Emulation) (event : Event ℚ) : X11Emulation :=
  ⟨emulation.faked ++ fakes event, emulation.flushes + 1⟩

def run (events : List (Event ℚ)) : X11Emulation := events.foldl consume start

def handed (axis : Axis) (emulation : X11Emulation) : ℤ :=
  (emulation.faked.map (Fake.along axis)).sum

theorem handed_consume (axis : Axis) (emulation : X11Emulation) (event : Event ℚ) :
    (emulation.consume event).handed axis =
      emulation.handed axis + (asI32 (along axis event)).toInt := by
  have whole : ((fakes event).map (Fake.along axis)).sum = (asI32 (along axis event)).toInt := by
    cases event with
    | pointer event =>
      cases event with
      | motion time dx dy => cases axis <;> exact add_zero _
      | button time button state => exact asI32_zero.symm
      | axis time wheel value => exact asI32_zero.symm
      | axisDiscrete120 wheel value => exact asI32_zero.symm
    | keyboard event => cases event <;> exact asI32_zero.symm
  unfold handed consume
  rw [List.map_append, List.sum_append, whole]

theorem handed_run (axis : Axis) (events : List (Event ℚ)) :
    (run events).handed axis = pixels axis events := by
  induction events using List.reverseRecOn with
  | nil => rfl
  | append_singleton events event ih =>
    rw [run, List.foldl_concat, handed_consume, ← run, ih, pixels_concat]

end X11Emulation

/-! ## Merged motion -/

namespace PeerQueues

variable {Addr : Type} [DecidableEq Addr]

/-- The events among what is queued. -/
def inputs (items : List (Queued ℚ)) : List (Event ℚ) :=
  items.filterMap fun item =>
    match item with
    | .input event _ _ => some event
    | .remove _ => none

theorem received_append (axis : Axis) (first second : List (Event ℚ)) :
    received axis (first ++ second) = received axis first + received axis second := by
  simp [received]

theorem inputs_append (first second : List (Queued ℚ)) :
    inputs (first ++ second) = inputs first ++ inputs second := List.filterMap_append

theorem Merges.received {items : List (Queued ℚ)} {item : Queued ℚ} (merges : Merges items item)
    (axis : Axis) :
    Emulation.received axis (inputs items) = Emulation.received axis (inputs [item]) := by
  cases merges with
  | one => rfl
  | motions peer first rest =>
    induction rest generalizing first with
    | nil => rfl
    | cons later rest ih =>
      have merged := ih (first.plus later)
      rw [List.foldl_cons, ← merged]
      cases axis <;> simp [inputs, Emulation.received, along, Move.queued, Move.plus, add_assoc]

/-- The events queued for a peer as they leave its queue: served, dropped, or waiting still. -/
def leaving (addr : Addr) (acts : List (Act Addr ℚ)) : List (Event ℚ) :=
  inputs (((Lib.trace step empty acts).flatMap (leaves addr)).map Prod.fst ++
    (acts.foldl step empty).waiting addr)

theorem received_merged (axis : Axis) (addr : Addr) (acts : List (Act Addr ℚ)) :
    received axis (leaving addr acts) = received axis (inputs (asked addr acts)) := by
  obtain ⟨groups, whole, each⟩ := inOrder_run addr acts
  rw [leaving, ← whole]
  generalize ((Lib.trace step empty acts).flatMap (leaves addr)).map Prod.fst ++
    (acts.foldl step empty).waiting addr = left at each
  clear whole
  induction each with
  | nil => rfl
  | @cons group item groups left merges _ ih =>
    rw [List.flatten_cons, inputs_append, received_append, ← ih, merges.received,
      ← received_append, ← inputs_append, List.singleton_append]

/-- Of motion of one total, what is handed on differs by what is left over. -/
theorem pixels_sub {axis : Axis} {first second : List (Event ℚ)}
    (same : received axis first = received axis second) :
    |(pixels axis first : ℚ) - pixels axis second| ≤ 1 ↔
      |lost axis first - lost axis second| ≤ 1 := by
  have apart : lost axis first - lost axis second =
      -((pixels axis first : ℚ) - pixels axis second) := by
    rw [lost_eq, lost_eq, same]
    ring
  rw [apart, abs_neg]

/--
What either backend hands to the system is within a pixel of what it received exactly when what
the motions leave over, each by itself, adds up to less than a pixel.  Motion merged by the queue
of its peer goes as far as the same motion unmerged, up to a pixel, exactly when what the two
leave over differs by a pixel at most.
-/
theorem whole_pixels_iff (windowsScancode : UInt32 → Option UInt16) :
    (∀ acts axis,
      |(handed axis (WindowsEmulation.run windowsScancode acts).offered : ℚ) -
          received axis (consumed acts)| < 1 ↔ |lost axis (consumed acts)| < 1) ∧
    (∀ events axis,
      |((X11Emulation.run events).handed axis : ℚ) - received axis events| < 1 ↔
        |lost axis events| < 1) ∧
    (∀ (acts : List (Act Addr ℚ)) addr axis,
      (∀ whole apart, consumed whole = leaving addr acts →
        consumed apart = inputs (asked addr acts) →
        (|(handed axis (WindowsEmulation.run windowsScancode whole).offered : ℚ) -
            handed axis (WindowsEmulation.run windowsScancode apart).offered| ≤ 1 ↔
          |lost axis (leaving addr acts) - lost axis (inputs (asked addr acts))| ≤ 1)) ∧
      (|((X11Emulation.run (leaving addr acts)).handed axis : ℚ) -
          (X11Emulation.run (inputs (asked addr acts))).handed axis| ≤ 1 ↔
        |lost axis (leaving addr acts) - lost axis (inputs (asked addr acts))| ≤ 1)) := by
  refine ⟨fun acts axis => ?_, fun events axis => ?_, fun acts addr axis => ⟨?_, ?_⟩⟩
  · rw [handed_run, within_pixel]
  · rw [X11Emulation.handed_run, within_pixel]
  · intro whole apart merged unmerged
    rw [handed_run, handed_run, merged, unmerged, pixels_sub (received_merged axis addr acts)]
  · rw [X11Emulation.handed_run, X11Emulation.handed_run,
      pixels_sub (received_merged axis addr acts)]

/-- A motion of half a pixel to the right. -/
def half : Event ℚ := .pointer (.motion 0 (1 / 2) 0)

/-- Four of them of one peer wait at once. -/
def halves : List (Act Nat ℚ) := List.replicate 4 (.push 0 (.input half "peer" []))

/-- A motion of a pixel and a half to the right. -/
def stepAndHalf : Event ℚ := .pointer (.motion 0 (3 / 2) 0)

/-- Merged, two of them move the pointer by three; by themselves each moves it by one. -/
theorem whole_pixels_iff_halves :
    |(handed .x (WindowsEmulation.run (fun _ => none)
        [.consume (.pointer (.motion 0 3 0)) 0]).offered : ℚ) -
      handed .x (WindowsEmulation.run (fun _ => none)
        (List.replicate 2 (.consume stepAndHalf 0))).offered| ≤ 1 := by
  have same := ((whole_pixels_iff fun _ => none).2.2
    (List.replicate 2 (.push 0 (.input stepAndHalf "peer" []))) 0 .x).1
    [.consume (.pointer (.motion 0 3 0)) 0] (List.replicate 2 (.consume stepAndHalf 0))
    (by decide +kernel) (by decide +kernel)
  exact same.mpr (by decide +kernel)

/-- Four motions of half a pixel move nothing; merged they move the pointer by two. -/
theorem halves_lost :
    ¬ (∀ acts axis,
      |(handed axis (WindowsEmulation.run (fun _ => none) acts).offered : ℚ) -
          received axis (consumed acts)| < 1) ∧
    ¬ (∀ events axis,
      |((X11Emulation.run events).handed axis : ℚ) - received axis events| < 1) ∧
    ¬ (∀ (acts : List (Act Nat ℚ)) addr axis whole apart,
      consumed whole = leaving addr acts →
      consumed apart = inputs (asked addr acts) →
      |(handed axis (WindowsEmulation.run (fun _ => none) whole).offered : ℚ) -
          handed axis (WindowsEmulation.run (fun _ => none) apart).offered| ≤ 1) ∧
    ¬ (∀ (acts : List (Act Nat ℚ)) addr axis,
      |((X11Emulation.run (leaving addr acts)).handed axis : ℚ) -
          (X11Emulation.run (inputs (asked addr acts))).handed axis| ≤ 1) := by
  refine ⟨fun near => ?_, fun near => ?_, fun near => ?_, fun near => ?_⟩
  · exact absurd (near (List.replicate 4 (.consume half 0)) .x) (by decide +kernel)
  · exact absurd (near (List.replicate 4 half) .x) (by decide +kernel)
  · have far := near halves 0 .x [.consume (.pointer (.motion 0 2 0)) 0]
      (List.replicate 4 (.consume half 0)) (by decide +kernel) (by decide +kernel)
    exact absurd far (by decide +kernel)
  · exact absurd (near halves 0 .x) (by decide +kernel)

end PeerQueues

end HopsFormal.Emulation
