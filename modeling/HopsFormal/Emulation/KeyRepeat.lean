import HopsFormal.Emulation.KeyStrokes
import HopsFormal.Emulation.MacOs

/-!
# Keys held through one repeating key

The keys peers hold are told to macOS by the one task that repeats a key.  A key that goes down
takes the task, and the key that had it is posted up; any key that comes up, and any teardown,
ends the task whichever key it repeats.
-/

namespace HopsFormal.Emulation

open Capture (Event Held Kind kind)
open List Lib

variable {F E : Type}

/-! ## What the system was told -/

def Posted.goes (code : UInt16) : Posted → Option Bool
  | .key of down _ => if of = code then some down else none
  | _ => none

def toldDown (posted : List Posted) (code : UInt16) : Bool :=
  ((posted.filterMap (Posted.goes code)).getLast?).getD false

theorem toldDown_key (posted : List Posted) (code of : UInt16) (down : Bool)
    (modifiers : XMods) :
    toldDown (posted ++ [.key of down modifiers]) code =
      if of = code then down else toldDown posted code := by
  unfold toldDown
  rw [filterMap_append]
  by_cases same : of = code
  · simp [Posted.goes, same]
  · simp [Posted.goes, same]

theorem toldDown_posted (posted : List Posted) (code : UInt16) {post : Posted}
    (other : post.goes code = none) : toldDown (posted ++ [post]) code = toldDown posted code := by
  unfold toldDown
  rw [filterMap_append, filterMap_cons_none other, filterMap_nil, append_nil]

namespace MacOs

variable {macOs : MacOs}

/-- The system was told of one key that it is down, the one that repeats. -/
def Slotted (macOs : MacOs) : Prop :=
  ∀ code, toldDown macOs.posted code = true ↔ macOs.repeatTask = some code

theorem slotted_start : Slotted start := fun code => by simp [start, toldDown]

theorem cancelRepeatTask_repeatTask (macOs : MacOs) : macOs.cancelRepeatTask.repeatTask = none := by
  unfold cancelRepeatTask
  split
  · next none => exact none
  · rfl

theorem Slotted.cancelRepeatTask (slotted : macOs.Slotted) : macOs.cancelRepeatTask.Slotted := by
  unfold MacOs.cancelRepeatTask
  split
  · exact slotted
  · next key repeats =>
    intro code
    simp only [post, toldDown_key, reduceCtorEq, iff_false]
    split
    · exact Bool.false_ne_true
    · next other =>
      rw [slotted, repeats]
      exact fun same => other (Option.some.inj same)

theorem spawnRepeatTask_repeatTask (macOs : MacOs) (key : UInt16) :
    (macOs.spawnRepeatTask key).repeatTask = some key := rfl

theorem Slotted.spawnRepeatTask (slotted : macOs.Slotted) (key : UInt16) :
    (macOs.spawnRepeatTask key).Slotted := by
  intro code
  have cancelled := slotted.cancelRepeatTask code
  rw [cancelRepeatTask_repeatTask] at cancelled
  simp only [MacOs.spawnRepeatTask, post, toldDown_key, Option.some.injEq]
  split
  · next same => exact iff_of_true rfl same
  · next other => exact iff_of_false (fun told => by cases cancelled.mp told) other

theorem Slotted.tick (slotted : macOs.Slotted) : macOs.tick.Slotted := by
  unfold MacOs.tick
  split
  · exact slotted
  · next key repeats =>
    intro code
    simp only [post, toldDown_key]
    split
    · next same =>
      rw [repeats, same]
      simp
    · exact slotted code

/-- Posts that are not of keys, and changes of the modifiers, are beside the point. -/
theorem Slotted.same {next : MacOs} (slotted : macOs.Slotted)
    (task : next.repeatTask = macOs.repeatTask)
    (told : ∀ code, toldDown next.posted code = toldDown macOs.posted code) : next.Slotted :=
  fun code => by rw [told, task, slotted]

variable (mac : UInt16 → Option UInt16) (hidConnect : Bool)

theorem Slotted.consumeKey (slotted : macOs.Slotted) (key : UInt32) (state : UInt8) :
    (macOs.consumeKey mac hidConnect key state).Slotted := by
  unfold MacOs.consumeKey
  split
  · split
    · exact slotted.same rfl fun code => toldDown_posted _ code rfl
    · exact slotted
  · split
    · exact slotted
    · split
      · exact slotted.same rfl fun code => toldDown_posted _ code rfl
      · exact slotted.same rfl fun _ => rfl
      · split
        · exact slotted.spawnRepeatTask _
        · exact slotted.cancelRepeatTask

theorem Slotted.call (slotted : macOs.Slotted) (made : Call F) :
    (macOs.call mac hidConnect made).Slotted := by
  cases made with
  | consume event handle =>
    cases event with
    | keyboard event =>
      cases event with
      | key time key state => exact slotted.consumeKey mac hidConnect key state
      | modifiers depressed latched locked group => exact slotted.same rfl fun _ => rfl
    | pointer event => exact slotted
  | create handle => exact slotted.same rfl fun _ => rfl
  | destroy handle | terminate => exact slotted.cancelRepeatTask.same rfl fun _ => rfl

theorem Slotted.foldl_call (slotted : macOs.Slotted) (calls : List (Call F)) :
    (calls.foldl (MacOs.call mac hidConnect) macOs).Slotted := by
  induction calls generalizing macOs with
  | nil => exact slotted
  | cons made rest ih => exact ih (slotted.call mac hidConnect made)

end MacOs

/-! ## Peers that type -/

/-- What happens while peers type: a key goes down or comes up, a session begins or ends, and
the timer of the repeating key runs out. -/
inductive KeyAct where
  | key (handle : Handle) (time key : UInt32) (down : Bool)
  | create (handle : Handle)
  | destroy (handle : Handle) (order : HashOrder)
  | tick

/-- The layer above and the backend. -/
structure Typing (F : Type) where
  emulation : InputEmulation F
  macOs : MacOs

def KeyAct.op : KeyAct → Option (Op F)
  | .key handle time code down => some (.consume (stroke time code down) handle)
  | .create handle => some (.create handle)
  | .destroy handle order => some (.destroy handle order)
  | .tick => none

namespace Typing

variable (answer : List (Call F) → Except E Unit) (mac : UInt16 → Option UInt16) (hidConnect : Bool)

def start : Typing F where
  emulation := .withBackend .machine
  macOs := .start

/-- The backend gets the calls that an operation makes. -/
def step (typing : Typing F) (act : KeyAct) : Typing F :=
  match act.op with
  | none => { typing with macOs := typing.macOs.tick }
  | some op =>
    let emulation := Emulation.step answer typing.emulation op
    { emulation := emulation
      macOs := (emulation.calls.drop typing.emulation.calls.length).foldl
        (MacOs.call mac hidConnect) typing.macOs }

def run (acts : List KeyAct) : Typing F := acts.foldl (step answer mac hidConnect) start

theorem run_concat (acts : List KeyAct) (act : KeyAct) :
    run answer mac hidConnect (acts ++ [act]) =
      step answer mac hidConnect (run answer mac hidConnect acts) act := by
  rw [run, foldl_append]
  rfl

/-- What the backend makes of the calls of an operation. -/
theorem step_op {typing : Typing F} {op : Op F} {made : List (Call F)} (act : KeyAct)
    (is : act.op = some op)
    (calls : (Emulation.step answer typing.emulation op).calls = typing.emulation.calls ++ made) :
    step answer mac hidConnect typing act =
      { emulation := Emulation.step answer typing.emulation op
        macOs := made.foldl (MacOs.call mac hidConnect) typing.macOs } := by
  rw [step, is]
  simp only [calls, drop_left]

/-- A key of macOS that some peer holds. -/
def HeldCode (typing : Typing F) (code : UInt16) : Prop :=
  ∃ handle key, Lists typing.emulation handle (.key key) ∧ mac key.toUInt16 = some code

end Typing

/-- The key a call passes down. -/
def pressedKey : Call F → Option UInt32
  | .consume (.keyboard (.key _ key state)) _ => if state = 0 then none else some key
  | _ => none

/-- The key last passed down to the backend. -/
def lastPressed (calls : List (Call F)) : Option UInt32 := (calls.filterMap pressedKey).getLast?

theorem lastPressed_concat (calls : List (Call F)) (made : Call F) :
    lastPressed (calls ++ [made]) = (pressedKey made).or (lastPressed calls) := by
  unfold lastPressed
  rw [filterMap_append]
  cases pressed : pressedKey made with
  | none => rw [filterMap_cons_none pressed, filterMap_nil, append_nil]; rfl
  | some key => simp [pressed]

/-- A key that macOS has a code for, and that is neither a modifier nor a media key. -/
structure Ordinary (mac : UInt16 → Option UInt16) (key : UInt32) : Prop where
  media : evdevToNxKeytype key = none
  mapped : (mac key.toUInt16).isSome
  lock : key ≠ keyCapsLock
  modifier : pressedMask key = 0

theorem MacOs.consumeKey_ordinary {mac : UInt16 → Option UInt16} {key : UInt32} {code : UInt16}
    (ordinary : Ordinary mac key) (coded : mac key.toUInt16 = some code) (hidConnect : Bool)
    (macOs : MacOs) (state : UInt8) :
    macOs.consumeKey mac hidConnect key state =
      if state = 1 then macOs.spawnRepeatTask code else macOs.cancelRepeatTask := by
  simp only [consumeKey, ordinary.media, coded, updateModifiers, if_neg ordinary.lock,
    if_pos ordinary.modifier]

namespace Typing

variable {answer : List (Call F) → Except E Unit} {mac : UInt16 → Option UInt16}
  {hidConnect : Bool} {typing : Typing F}

/-- What holds of every run: the task repeats the key that was pressed last, which is held. -/
structure Sound (mac : UInt16 → Option UInt16) (typing : Typing F) : Prop where
  kept : Kept typing.emulation
  slotted : typing.macOs.Slotted
  repeats : ∀ code, typing.macOs.repeatTask = some code →
    ∃ handle key, Lists typing.emulation handle (.key key) ∧ mac key.toUInt16 = some code ∧
      lastPressed typing.emulation.calls = some key
  ordinary : ∀ handle key, Lists typing.emulation handle (.key key) → Ordinary mac key

/-- The keys the system was last told are down are those the peers hold. -/
def Mirrors (mac : UInt16 → Option UInt16) (typing : Typing F) : Prop :=
  ∀ code, toldDown typing.macOs.posted code = true ↔ typing.HeldCode mac code

/-- What the timer would post down again is held, and was pressed last. -/
def RepeatsHeld (mac : UInt16 → Option UInt16) (typing : Typing F) : Prop :=
  ∀ code modifiers,
    typing.macOs.tick.posted = typing.macOs.posted ++ [.key code true modifiers] →
      ∃ handle key, Lists typing.emulation handle (.key key) ∧ mac key.toUInt16 = some code ∧
        lastPressed typing.emulation.calls = some key

theorem Sound.repeatsHeld (sound : typing.Sound mac) : typing.RepeatsHeld mac := by
  intro code modifiers posts
  refine sound.repeats code ?_
  unfold MacOs.tick at posts
  split at posts
  · simp at posts
  · next key repeats =>
    cases append_cancel_left posts
    exact repeats

/-- A key goes down while no other key of macOS is held, one comes up while no other is held,
and a session ends while no other peer holds one. -/
def Meets (mac : UInt16 → Option UInt16) (typing : Typing F) : KeyAct → Prop
  | .key handle _ key true => Passes typing.emulation handle key true →
      ∀ code, typing.HeldCode mac code → mac key.toUInt16 = some code
  | .key handle _ key false => Passes typing.emulation handle key false →
      ∀ other held, Lists typing.emulation other (.key held) → other = handle ∧ held = key
  | .destroy handle _ => handle ∈ typing.emulation.handles →
      ∀ other key, Lists typing.emulation other (.key key) → other = handle
  | _ => True

/-! ### One step -/

/-- A step that changes nothing of what is held and of what repeats. -/
structure Still (typing next : Typing F) : Prop where
  lists : ∀ handle held, Lists next.emulation handle held ↔ Lists typing.emulation handle held
  task : next.macOs.repeatTask = typing.macOs.repeatTask
  last : lastPressed next.emulation.calls = lastPressed typing.emulation.calls

theorem Still.heldCode {next : Typing F} (still : Still typing next) (code : UInt16) :
    next.HeldCode mac code ↔ typing.HeldCode mac code := by
  simp only [HeldCode, still.lists]

theorem mirrors_iff (slotted : typing.macOs.Slotted) :
    typing.Mirrors mac ↔ ∀ code, typing.macOs.repeatTask = some code ↔ typing.HeldCode mac code :=
  forall_congr' fun code => by rw [slotted code]

/-- A step that changes nothing keeps what holds of every run. -/
theorem Sound.still (sound : typing.Sound mac) {next : Typing F} (still : Still typing next)
    (kept : Kept next.emulation) (slotted : next.macOs.Slotted) : next.Sound mac where
  kept := kept
  slotted := slotted
  repeats code task := by
    obtain ⟨handle, key, lists, coded, last⟩ := sound.repeats code (still.task ▸ task)
    exact ⟨handle, key, (still.lists handle _).mpr lists, coded, still.last.trans last⟩
  ordinary handle key lists := sound.ordinary handle key ((still.lists handle _).mp lists)

/-- Where nothing repeats, the system is told right exactly if nothing is held. -/
theorem mirrors_idle (sound : typing.Sound mac) (idle : typing.macOs.repeatTask = none) :
    typing.Mirrors mac ↔ ∀ handle key, ¬ Lists typing.emulation handle (.key key) := by
  rw [mirrors_iff sound.slotted, idle]
  constructor
  · intro mirrors handle key lists
    obtain ⟨code, coded⟩ := Option.isSome_iff_exists.mp (sound.ordinary handle key lists).mapped
    cases (mirrors code).mpr ⟨handle, key, lists, coded⟩
  · rintro nothing code
    refine iff_of_false nofun ?_
    rintro ⟨handle, key, lists, -⟩
    exact nothing handle key lists

variable (answer) (mac) (hidConnect)

theorem slotted_step (slotted : typing.macOs.Slotted) (act : KeyAct) :
    (step answer mac hidConnect typing act).macOs.Slotted := by
  unfold step
  split
  · exact slotted.tick
  · exact slotted.foldl_call mac hidConnect _

section

variable (kept : Kept typing.emulation)
include kept

theorem kept_step (act : KeyAct) : Kept (step answer mac hidConnect typing act).emulation := by
  unfold step
  split
  · exact kept
  · exact kept.step answer _

theorem step_passed {handle : Handle} {key : UInt32} {down : Bool} (time : UInt32)
    (passes : Passes typing.emulation handle key down) {code : UInt16} (ordinary : Ordinary mac key)
    (coded : mac key.toUInt16 = some code) :
    (step answer mac hidConnect typing (.key handle time key down)).macOs.repeatTask =
        (if down then some code else none) ∧
      lastPressed (step answer mac hidConnect typing (.key handle time key down)).emulation.calls =
        (if down then some key else lastPressed typing.emulation.calls) ∧
      ∀ other held,
        (Lists (step answer mac hidConnect typing (.key handle time key down)).emulation other held ↔
          if down then Lists typing.emulation other held ∨ other = handle ∧ held = .key key
          else Lists typing.emulation other held ∧ ¬ (other = handle ∧ held = .key key)) := by
  have calls : (Emulation.step answer typing.emulation
      (.consume (stroke time key down) handle)).calls =
        typing.emulation.calls ++ [.consume (stroke time key down) handle] :=
    (consume_stroke_calls answer kept.formed handle time key down).1 passes
  have lists := (consume_stroke answer kept handle time key down).1 passes
  rw [step_op answer mac hidConnect (.key handle time key down) rfl calls]
  refine ⟨?_, ?_, lists⟩
  · simp only [foldl_cons, foldl_nil, stroke, MacOs.call,
      MacOs.consumeKey_ordinary ordinary coded]
    cases down with
    | true => exact MacOs.spawnRepeatTask_repeatTask _ _
    | false => exact MacOs.cancelRepeatTask_repeatTask _
  · refine (congrArg lastPressed calls).trans ((lastPressed_concat _ _).trans ?_)
    cases down <;> rfl

theorem step_dropped {handle : Handle} {time key : UInt32} {down : Bool}
    (dropped : ¬ Passes typing.emulation handle key down) :
    Still typing (step answer mac hidConnect typing (.key handle time key down)) := by
  have calls := (consume_stroke_calls answer kept.formed handle time key down).2 dropped
  have whole : (Emulation.step answer typing.emulation
      (.consume (stroke time key down) handle)).calls = typing.emulation.calls ++ [] :=
    calls.trans (append_nil _).symm
  rw [step_op answer mac hidConnect (.key handle time key down) rfl whole]
  exact ⟨(consume_stroke answer kept handle time key down).2 dropped, rfl,
    congrArg lastPressed calls⟩

end

theorem step_tick : Still typing (step answer mac hidConnect typing .tick) := by
  refine ⟨fun _ _ => Iff.rfl, ?_, rfl⟩
  simp only [step, KeyAct.op, MacOs.tick]
  split <;> rfl

theorem step_create (kept : Kept typing.emulation) (handle : Handle) :
    Still typing (step answer mac hidConnect typing (.create handle)) := by
  have lists := create_lists kept.formed handle
  by_cases there : handle ∈ typing.emulation.handles
  · have calls : (Emulation.step answer typing.emulation (.create handle)).calls =
        typing.emulation.calls ++ [] := by
      rw [Emulation.step, InputEmulation.create, if_pos there, append_nil]
    rw [step_op answer mac hidConnect (.create handle) rfl calls]
    rw [append_nil] at calls
    exact ⟨lists, rfl, congrArg lastPressed calls⟩
  · have calls : (Emulation.step answer typing.emulation (.create handle)).calls =
        typing.emulation.calls ++ [.create handle] := by
      rw [Emulation.step, InputEmulation.create, if_neg there]
      rfl
    rw [step_op answer mac hidConnect (.create handle) rfl calls]
    exact ⟨lists, rfl, (congrArg lastPressed calls).trans (lastPressed_concat _ _)⟩

theorem teardown_calls (answer : List (Call F) → Except E Unit) (order : HashOrder)
    (emulation : InputEmulation F) (handle : Handle) :
    (emulation.destroy answer order handle).calls = emulation.calls ++
      (((releasedButtons order emulation handle).map Held.button ++
        (releasedKeys order emulation handle).map Held.key).map
          fun held => .consume (letGo held) handle) ++
      .consume (.keyboard (.modifiers 0 0 0 0)) handle ::
        if handle ∈ emulation.handles then [.destroy handle] else [] := by
  simp only [InputEmulation.destroy, releaseHeld_eq]
  split <;> simp [InputEmulation.call]

/-- A teardown ends the task, and changes nothing where there was no session. -/
theorem step_destroy (kept : Kept typing.emulation) (handle : Handle) (order : HashOrder) :
    if handle ∈ typing.emulation.handles then
      (step answer mac hidConnect typing (.destroy handle order)).macOs.repeatTask = none ∧
        ∀ other held, (Lists (step answer mac hidConnect typing
            (.destroy handle order)).emulation other held ↔
          Lists typing.emulation other held ∧ other ≠ handle)
    else Still typing (step answer mac hidConnect typing (.destroy handle order)) := by
  have lists := destroy_lists answer order typing.emulation handle
  have calls : (Emulation.step answer typing.emulation (.destroy handle order)).calls = _ :=
    teardown_calls answer order typing.emulation handle
  rw [append_assoc] at calls
  split
  · next live =>
    rw [if_pos live] at calls
    rw [step_op answer mac hidConnect (.destroy handle order) rfl calls]
    refine ⟨?_, lists⟩
    rw [foldl_append, foldl_cons, foldl_cons, foldl_nil]
    exact MacOs.cancelRepeatTask_repeatTask _
  · next absent =>
    have unlisted : ∀ held, ¬ Lists typing.emulation handle held := fun held listed =>
      absent (kept.formed.lists_live listed)
    have buttons : releasedButtons order typing.emulation handle = [] :=
      eq_nil_iff_forall_not_mem.mpr fun button member =>
        unlisted (.button button) (mem_releasedButtons.mp member).1
    have keys : releasedKeys order typing.emulation handle = [] :=
      eq_nil_iff_forall_not_mem.mpr fun key member =>
        unlisted (.key key) (mem_releasedKeys.mp member)
    rw [if_neg absent, buttons, keys, map_nil, map_nil, append_nil, map_nil,
      nil_append] at calls
    rw [step_op answer mac hidConnect (.destroy handle order) rfl calls]
    refine ⟨fun other held => (lists other held).trans (and_iff_left_of_imp ?_), rfl,
      (congrArg lastPressed calls).trans (lastPressed_concat _ _)⟩
    rintro listed rfl
    exact unlisted held listed

/-- Where a step is of a key, the key is an ordinary one. -/
def Types (mac : UInt16 → Option UInt16) : KeyAct → Prop
  | .key _ _ key _ => Ordinary mac key
  | _ => True

theorem Sound.step (sound : typing.Sound mac) {act : KeyAct} (types : Types mac act) :
    (Typing.step answer mac hidConnect typing act).Sound mac := by
  have kept := kept_step answer mac hidConnect sound.kept act
  have slotted := slotted_step answer mac hidConnect sound.slotted act
  cases act with
  | tick => exact sound.still (step_tick answer mac hidConnect) kept slotted
  | create handle => exact sound.still (step_create answer mac hidConnect sound.kept handle) kept slotted
  | destroy handle order =>
    have did := step_destroy answer mac hidConnect sound.kept handle order
    split at did
    · obtain ⟨ended, lists⟩ := did
      refine ⟨kept, slotted, fun code task => ?_, fun other key listed => ?_⟩
      · rw [ended] at task
        cases task
      · exact sound.ordinary other key ((lists other _).mp listed).1
    · exact sound.still did kept slotted
  | key handle time key down =>
    by_cases passes : Passes typing.emulation handle key down
    · obtain ⟨code, coded⟩ := Option.isSome_iff_exists.mp types.mapped
      obtain ⟨task, last, lists⟩ := step_passed answer mac hidConnect sound.kept time passes types coded
      cases down with
      | true =>
        refine ⟨kept, slotted, fun other same => ?_, fun other held listed => ?_⟩
        · rw [task] at same
          cases same
          exact ⟨handle, key, (lists handle _).mpr (.inr ⟨rfl, rfl⟩), coded, last⟩
        · rcases (lists other _).mp listed with before | ⟨-, same⟩
          · exact sound.ordinary other held before
          · cases same
            exact types
      | false =>
        refine ⟨kept, slotted, fun other same => ?_, fun other held listed => ?_⟩
        · rw [task] at same
          cases same
        · exact sound.ordinary other held ((lists other _).mp listed).1
    · exact sound.still (step_dropped answer mac hidConnect sound.kept passes) kept slotted

theorem mirrors_step (sound : typing.Sound mac) (mirrors : typing.Mirrors mac) {act : KeyAct}
    (types : Types mac act) :
    (Typing.step answer mac hidConnect typing act).Mirrors mac ↔ typing.Meets mac act := by
  have after := sound.step answer mac hidConnect types
  have stays : Still typing (Typing.step answer mac hidConnect typing act) →
      (Typing.step answer mac hidConnect typing act).Mirrors mac := by
    intro still
    rw [mirrors_iff after.slotted, still.task]
    exact fun code => ((mirrors_iff sound.slotted).mp mirrors code).trans (still.heldCode code).symm
  cases act with
  | tick => exact iff_of_true (stays (step_tick answer mac hidConnect)) trivial
  | create handle =>
    exact iff_of_true (stays (step_create answer mac hidConnect sound.kept handle)) trivial
  | destroy handle order =>
    have did := step_destroy answer mac hidConnect sound.kept handle order
    split at did
    · next live =>
      obtain ⟨ended, lists⟩ := did
      rw [mirrors_idle after ended]
      constructor
      · intro nothing _ other key listed
        by_contra apart
        exact nothing other key ((lists other _).mpr ⟨listed, apart⟩)
      · intro meets other key listed
        obtain ⟨before, apart⟩ := (lists other _).mp listed
        exact apart (meets live other key before)
    · next absent => exact iff_of_true (stays did) fun live => absurd live absent
  | key handle time key down =>
    by_cases passes : Passes typing.emulation handle key down
    · obtain ⟨code, coded⟩ := Option.isSome_iff_exists.mp types.mapped
      obtain ⟨task, -, lists⟩ :=
        step_passed answer mac hidConnect sound.kept time passes types coded
      cases down with
      | true =>
        have held : ∀ other, (Typing.step answer mac hidConnect typing
            (.key handle time key true)).HeldCode mac other ↔
              typing.HeldCode mac other ∨ code = other := by
          intro other
          constructor
          · rintro ⟨by_, what, listed, same⟩
            rcases (lists by_ _).mp listed with before | ⟨-, this⟩
            · exact .inl ⟨by_, what, before, same⟩
            · cases this
              exact .inr (Option.some.inj (coded.symm.trans same))
          · rintro (⟨by_, what, before, same⟩ | rfl)
            · exact ⟨by_, what, (lists by_ _).mpr (.inl before), same⟩
            · exact ⟨handle, key, (lists handle _).mpr (.inr ⟨rfl, rfl⟩), coded⟩
        rw [mirrors_iff after.slotted, task]
        simp only [held, if_true, Option.some.injEq, Meets, coded]
        constructor
        · exact fun right _ other before => (right other).mpr (.inl before)
        · exact fun meets other => ⟨.inr, fun holds => holds.elim (meets passes other) id⟩
      | false =>
        rw [mirrors_idle after task]
        constructor
        · intro nothing _ other what listed
          by_contra apart
          refine nothing other what ((lists other _).mpr ⟨listed, fun same => apart ?_⟩)
          exact ⟨same.1, by simpa using same.2⟩
        · intro meets other what listed
          obtain ⟨before, apart⟩ := (lists other _).mp listed
          obtain ⟨rfl, rfl⟩ := meets passes other what before
          exact apart ⟨rfl, rfl⟩
    · refine iff_of_true (stays (step_dropped answer mac hidConnect sound.kept passes)) ?_
      cases down <;> exact fun passed => absurd passed passes

/-! ### Runs -/

theorem sound_run (acts : List KeyAct) (types : ∀ act ∈ acts, Types mac act) :
    (run answer mac hidConnect acts).Sound mac := by
  induction acts using reverseRecOn with
  | nil =>
    have nobody : ∀ handle key, ¬ Lists (start : Typing F).emulation handle (.key key) :=
      nofun
    refine ⟨kept_start _, MacOs.slotted_start, nofun, ?_⟩
    exact fun handle key listed => absurd listed (nobody handle key)
  | append_singleton acts act ih =>
    rw [run_concat]
    exact (ih fun other member => types other (mem_append_left _ member)).step
      answer mac hidConnect (types act (mem_append_right _ (mem_singleton.mpr rfl)))

/--
In every state of a run the system was last told of the keys that peers hold, and the timer
repeats only one that is held and was pressed last, exactly if each key goes down while no
other is held, each comes up while no other is held, and each session ends while no other
peer holds one.
-/
theorem run_mirrors_iff (acts : List KeyAct) (types : ∀ act ∈ acts, Types mac act) :
    (∀ front, front <+: acts → (run answer mac hidConnect front).Mirrors mac ∧
        (run answer mac hidConnect front).RepeatsHeld mac) ↔
      ∀ front act, front ++ [act] <+: acts → (run answer mac hidConnect front).Meets mac act := by
  have sound : ∀ front, front <+: acts → (run answer mac hidConnect front).Sound mac :=
    fun front taken => sound_run answer mac hidConnect front fun act member =>
      types act (taken.subset member)
  have stepped : ∀ front act, front ++ [act] <+: acts →
      (run answer mac hidConnect front).Mirrors mac →
        ((run answer mac hidConnect (front ++ [act])).Mirrors mac ↔
          (run answer mac hidConnect front).Meets mac act) := by
    intro front act taken mirrors
    rw [run_concat]
    exact mirrors_step answer mac hidConnect (sound front ((prefix_append _ _).trans taken))
      mirrors (types act (taken.subset (mem_append_right _ (mem_singleton.mpr rfl))))
  constructor
  · intro right front act taken
    have before := (right front ((prefix_append _ _).trans taken)).1
    exact (stepped front act taken before).mp (right _ taken).1
  · intro meets front
    induction front using reverseRecOn with
    | nil =>
      intro taken
      refine ⟨?_, (sound [] taken).repeatsHeld⟩
      rw [mirrors_idle (sound [] taken) rfl]
      exact nofun
    | append_singleton front act ih =>
      intro taken
      have before := (ih ((prefix_append _ _).trans taken)).1
      exact ⟨(stepped front act taken before).mpr (meets front act taken),
        (sound _ taken).repeatsHeld⟩

/-- The codes of A and B. -/
def letters (evdev : UInt16) : Option UInt16 :=
  if evdev = 30 then some 0 else if evdev = 48 then some 11 else none

theorem ordinary_letters {key : UInt32} (letter : key = 30 ∨ key = 48) : Ordinary letters key := by
  rcases letter with rfl | rfl <;> exact ⟨by decide, by decide, by decide, by decide⟩

/-- A is typed and repeats, then B. -/
def oneAfterAnother : List KeyAct :=
  [.create 1, .key 1 0 30 true, .tick, .key 1 0 30 false, .key 1 0 48 true, .tick,
    .key 1 0 48 false]

theorem run_mirrors_iff_letter :
    (∀ front, front <+: oneAfterAnother →
        (run (fun _ : List (Call Unit) => (.ok () : Except Unit Unit)) letters false
          front).Mirrors letters ∧
        (run (fun _ : List (Call Unit) => (.ok () : Except Unit Unit)) letters false
          front).RepeatsHeld letters) ↔
      ∀ front act, front ++ [act] <+: oneAfterAnother →
        (run (fun _ : List (Call Unit) => (.ok () : Except Unit Unit)) letters false
          front).Meets letters act :=
  run_mirrors_iff _ letters false _ (by
    intro act member
    simp only [oneAfterAnother, mem_cons, not_mem_nil, or_false] at member
    rcases member with rfl | rfl | rfl | rfl | rfl | rfl | rfl
    · trivial
    · exact ordinary_letters (.inl rfl)
    · trivial
    · exact ordinary_letters (.inl rfl)
    · exact ordinary_letters (.inr rfl)
    · trivial
    · exact ordinary_letters (.inr rfl))

/-- B goes down while A is held, and A is posted up. -/
theorem rolled_over_released :
    ¬ ∀ acts : List KeyAct, (∀ act ∈ acts, Types letters act) →
      (run (fun _ : List (Call Unit) => (.ok () : Except Unit Unit)) letters false
        acts).Mirrors letters := by
  intro mirrors
  have types : ∀ act ∈ [KeyAct.create 1, .key 1 0 30 true, .key 1 0 48 true],
      Types letters act := by
    intro act member
    simp only [mem_cons, not_mem_nil, or_false] at member
    rcases member with rfl | rfl | rfl
    · trivial
    · exact ordinary_letters (.inl rfl)
    · exact ordinary_letters (.inr rfl)
  have told := (mirrors _ types 0).mpr ⟨1, 30, by decide, by decide⟩
  exact absurd told (by decide)

end Typing

end HopsFormal.Emulation
