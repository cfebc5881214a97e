import HopsFormal.Capture.EventQueueRuns

/-!
# No key or button is left held by the capture queue

For every capacity and every interleaving of pushes and pops: once everything
was taken, the consumer holds nothing the producer does not hold, and every
press that was delivered is followed by a release as soon as one was pushed
for it, the one pushed or one the queue made up.
-/

namespace HopsFormal.Capture.EventQueue

open List

variable {F : Type}

inductive Op (F : Type) where
  | push (pos : Position) (event : CaptureEvent F)
  | pop
  deriving DecidableEq

/-- A queue in use: its state, everything pushed and everything taken. -/
structure History (F : Type) where
  state : State F
  pushed : List (Item F)
  delivered : List (Item F)

def History.start (capacity : Nat) : History F := ⟨channel capacity, [], []⟩

def History.step [Add F] (history : History F) : Op F → History F
  | .push pos event =>
    { history with
      state := (history.state.push pos event).1
      pushed := history.pushed ++ [(pos, event)] }
  | .pop =>
    match history.state.pop with
    | none => history
    | some (item, state, _) =>
      { history with state := state, delivered := history.delivered ++ [item] }

def run [Add F] (capacity : Nat) (ops : List (Op F)) : History F :=
  ops.foldl History.step (.start capacity)

theorem run_append [Add F] (capacity : Nat) (first rest : List (Op F)) :
    run capacity (first ++ rest) = rest.foldl History.step (run capacity first) :=
  foldl_append

/-- What was taken, then what still waits. -/
@[grind =]
def History.stream (history : History F) : List (Item F) :=
  history.delivered ++ history.state.events

/-! ## One step -/

theorem releaseHeld_receiverGone (state : State F) :
    state.releaseHeld.receiverGone = state.receiverGone := by
  have kept : ∀ (held : List (Position × Held)) (start : State F),
      (held.foldl (fun released x => released.keep x.1 x.2.release) start).receiverGone =
        start.receiverGone := by
    intro held
    induction held with
    | nil => exact fun _ => rfl
    | cons first rest ih => exact fun start => ih (start.keep first.1 first.2.release)
  exact kept _ _

theorem push_receiverGone [Add F] (state : State F) (pos : Position) (event : CaptureEvent F) :
    (state.push pos event).1.receiverGone = state.receiverGone := by
  unfold State.push
  split
  · rfl
  · split
    · split <;> rfl
    · rfl
    · split
      · rfl
      · split <;> rfl
    · split
      · rfl
      · split
        · exact releaseHeld_receiverGone state
        · split <;> rfl
    · split
      · rfl
      · split
        · exact releaseHeld_receiverGone state
        · rfl

/-- Taking an event moves it along the stream and changes nothing held. -/
theorem pop_some {state next : State F} {item : Item F} {note : Option Note}
    (popped : state.pop = some (item, next, note)) :
    state.events = item :: next.events ∧ next.held = state.held ∧
      next.receiverGone = state.receiverGone := by
  unfold State.pop at popped
  cases events : state.events with
  | nil => simp [events] at popped
  | cons first rest =>
    simp only [events] at popped
    by_cases last : rest.isEmpty = true
    · rw [if_pos last] at popped
      obtain ⟨rfl, rfl, _⟩ := popped
      exact ⟨rfl, rfl, rfl⟩
    · rw [if_neg last] at popped
      obtain ⟨rfl, rfl, _⟩ := popped
      exact ⟨rfl, rfl, rfl⟩

theorem step_pop [Add F] (history : History F) :
    history.step .pop = history ∨ ∃ item next note, history.state.pop = some (item, next, note) ∧
      history.step .pop =
        { history with state := next, delivered := history.delivered ++ [item] } := by
  cases popped : history.state.pop with
  | none => exact .inl (by simp [History.step, popped])
  | some taken => exact .inr ⟨_, _, _, rfl, by simp [History.step, popped]⟩

/-- The queue's record of what is held is that of its stream. -/
structure Sound (history : History F) : Prop where
  listening : history.state.receiverGone = false
  held_eq : heldAfter history.stream = history.state.held
  held_sub : ∀ x ∈ history.state.held, x ∈ heldAfter history.pushed

variable {history : History F} {index : Nat} {pos : Position} {event press : CaptureEvent F}
  {h : Held} {x : Position × Held}

theorem Sound.pushed [Add F] (sound : Sound history) (pos : Position) (event : CaptureEvent F) :
    Pushed history.state pos event (history.state.push pos event).1 :=
  push_pushed _ pos event sound.listening (sound.held_eq ▸ heldAfter_nodup _)

theorem Sound.step_extends [Add F] (sound : Sound history) (op : Op F) :
    ∃ same appended, (history.step op).stream = same ++ appended ∧
      List.Forall₂ Alike history.stream same ∧
      (history.step op).state.held = appended.foldl track history.state.held := by
  cases op with
  | push pos event =>
    obtain ⟨same, appended, events, alike, held, _⟩ := (sound.pushed pos event).extends_events
    refine ⟨history.delivered ++ same, appended, ?_, ?_, held⟩
    · simp [History.stream, History.step, events]
    · exact rel_append (alike_refl _) alike
  | pop =>
    rcases step_pop history with same | ⟨item, next, note, popped, stepped⟩
    · exact ⟨history.stream, [], by simp [same], alike_refl _, by simp [same]⟩
    · obtain ⟨events, held, _⟩ := pop_some popped
      refine ⟨history.stream, [], ?_, alike_refl _, by simp [stepped, held]⟩
      simp [stepped, History.stream, events]

theorem Sound.step [Add F] (sound : Sound history) (op : Op F) : Sound (history.step op) where
  listening := by
    cases op with
    | push pos event => exact (push_receiverGone _ _ _).trans sound.listening
    | pop =>
      rcases step_pop history with same | ⟨item, next, note, popped, stepped⟩
      · rw [same]
        exact sound.listening
      · rw [stepped]
        exact (pop_some popped).2.2.trans sound.listening
  held_eq := by
    obtain ⟨same, appended, stream, alike, held⟩ := sound.step_extends op
    rw [stream, heldAfter_append, held, ← sound.held_eq]
    exact congrArg (List.foldl track · appended) (foldl_track_alike alike []).symm
  held_sub := by
    cases op with
    | push pos event =>
      intro x member
      change x ∈ heldAfter (history.pushed ++ [(pos, event)])
      rw [heldAfter_append]
      change x ∈ track (heldAfter history.pushed) (pos, event)
      rcases (sound.pushed pos event).held_from x member with ⟨old, kept⟩ | ⟨samePos, pressed⟩
      · have before := sound.held_sub x old
        unfold track
        split
        · split
          · exact before
          · exact mem_append_left _ before
        · rename_i h sort
          simp only [mem_filter, before, true_and, bne_iff_ne, ne_eq]
          rintro rfl
          exact kept ⟨rfl, sort⟩
        · exact before
      · unfold track
        simp only [pressed]
        split
        · rename_i present
          rwa [← samePos] at present
        · rw [← samePos]
          exact mem_append_right _ (mem_singleton_self _)
    | pop =>
      rcases step_pop history with same | ⟨item, next, note, popped, stepped⟩
      · rw [same]
        exact sound.held_sub
      · rw [stepped]
        exact (pop_some popped).2.1 ▸ sound.held_sub

theorem sound_start (capacity : Nat) : Sound (.start capacity : History F) where
  listening := rfl
  held_eq := rfl
  held_sub := by simp [History.start, channel]

theorem foldl_sound [Add F] (sound : Sound history) (ops : List (Op F)) :
    Sound (ops.foldl History.step history) := by
  induction ops generalizing history with
  | nil => exact sound
  | cons op rest ih => exact ih (sound.step op)

theorem run_sound [Add F] (capacity : Nat) (ops : List (Op F)) : Sound (run capacity ops) :=
  foldl_sound (sound_start capacity) ops

/-! ## A press and the release after it -/

theorem Sound.stream_get [Add F] (sound : Sound history) (ops : List (Op F)) {item : Item F}
    (found : history.stream[index]? = some item) (still : ¬ IsMotion item) :
    (ops.foldl History.step history).stream[index]? = some item := by
  induction ops generalizing history with
  | nil => exact found
  | cons op rest ih =>
    apply ih (sound.step op)
    obtain ⟨same, appended, stream, alike, _⟩ := sound.step_extends op
    rw [stream]
    have placed := alike_get alike found still
    rw [getElem?_append_left (List.getElem?_eq_some_iff.mp placed).1]
    exact placed

/-- Past `index` the stream releases `x`. -/
def Released (history : History F) (index : Nat) (x : Position × Held) : Prop :=
  ∃ later event, index < later ∧ history.stream[later]? = some (x.1, event) ∧
    kind event = .release x.2

theorem not_isMotion_of_release (sort : kind event = .release h) : ¬ IsMotion (pos, event) := by
  rintro ⟨dx, dy, motion⟩
  simp [sort] at motion

theorem not_isMotion_of_press (sort : kind event = .press h) : ¬ IsMotion (pos, event) := by
  rintro ⟨dx, dy, motion⟩
  simp [sort] at motion

theorem Released.foldl [Add F] (released : Released history index x) (sound : Sound history)
    (ops : List (Op F)) : Released (ops.foldl History.step history) index x := by
  obtain ⟨later, event, past, found, sort⟩ := released
  exact ⟨later, event, past, sound.stream_get ops found (not_isMotion_of_release sort), sort⟩

theorem Sound.step_held [Add F] (sound : Sound history) (op : Op F)
    (within : index < history.stream.length) (held : x ∈ history.state.held) :
    x ∈ (history.step op).state.held ∨ Released (history.step op) index x := by
  cases op with
  | push pos event =>
    by_cases gone : x ∈ (history.state.push pos event).1.held
    · exact .inl gone
    · obtain ⟨same, appended, events, alike, _, letGo, _⟩ :=
        (sound.pushed pos event).extends_events
      obtain ⟨⟨samePos, made⟩, member, rfl, sort⟩ := letGo x held gone
      obtain ⟨offset, small, found⟩ := getElem_of_mem member
      refine .inr ⟨history.stream.length + offset, made, by omega, ?_, sort⟩
      have width : (history.delivered ++ same).length = history.stream.length := by
        simp [History.stream, alike.length_eq]
      simp only [History.stream, History.step, events]
      rw [← append_assoc, getElem?_append_right (by simp [History.stream] at width ⊢; omega)]
      have : history.stream.length + offset - (history.delivered ++ same).length = offset := by
        omega
      simp only [History.stream] at this
      rw [this, List.getElem?_eq_some_iff]
      exact ⟨small, found⟩
  | pop =>
    refine .inl ?_
    rcases step_pop history with same | ⟨item, next, note, popped, stepped⟩
    · rwa [same]
    · rw [stepped]
      exact (pop_some popped).2.1 ▸ held

theorem Sound.foldl_held [Add F] (sound : Sound history) (ops : List (Op F))
    (within : index < history.stream.length) (held : x ∈ history.state.held) :
    x ∈ (ops.foldl History.step history).state.held ∨
      Released (ops.foldl History.step history) index x := by
  induction ops generalizing history with
  | nil => exact .inl held
  | cons op rest ih =>
    rcases sound.step_held op within held with still | released
    · refine ih (sound.step op) ?_ still
      obtain ⟨same, appended, stream, alike, _⟩ := sound.step_extends op
      rw [stream, length_append, ← alike.length_eq]
      omega
    · exact .inr (released.foldl (sound.step op) rest)

theorem Sound.push_release [Add F] (sound : Sound history) (within : index < history.stream.length)
    (held : x ∈ history.state.held) (sort : kind event = .release x.2) :
    Released (history.step (.push x.1 event)) index x := by
  rcases sound.step_held (.push x.1 event) within held with still | released
  · rcases (sound.pushed x.1 event).held_from x still with ⟨_, kept⟩ | ⟨_, pressed⟩
    · exact absurd ⟨rfl, sort⟩ kept
    · simp [sort] at pressed
  · exact released

/-- A push that appends exactly its own event. -/
def Accepts [Add F] (state : State F) (pos : Position) (event : CaptureEvent F) : Prop :=
  (state.push pos event).1.events = state.events ++ [(pos, event)]

instance [Add F] [DecidableEq F] (state : State F) (pos : Position) (event : CaptureEvent F) :
    Decidable (Accepts state pos event) :=
  inferInstanceAs (Decidable (_ = _))

theorem Sound.accepted_held [Add F] (sound : Sound history) (sort : kind event = .press h)
    (accepted : Accepts history.state pos event) :
    (pos, h) ∈ (history.step (.push pos event)).state.held := by
  have followed := (sound.step (.push pos event)).held_eq
  have stream : (history.step (.push pos event)).stream = history.stream ++ [(pos, event)] := by
    simp [History.stream, History.step, show _ = _ from accepted]
  rw [stream, heldAfter_append] at followed
  rw [← followed]
  simp only [foldl_cons, foldl_nil, track, sort]
  split
  · assumption
  · exact mem_append_right _ (mem_singleton_self _)

theorem accepted_stream [Add F] (accepted : Accepts history.state pos event) :
    (history.step (.push pos event)).stream = history.stream ++ [(pos, event)] := by
  simp [History.stream, History.step, show _ = _ from accepted]

theorem Sound.press_step [Add F] (sound : Sound history) (op : Op F)
    (found : (history.step op).stream[index]? = some (pos, press)) (sort : kind press = .press h) :
    history.stream[index]? = some (pos, press) ∨
      op = .push pos press ∧ Accepts history.state pos press ∧ index = history.stream.length := by
  have still : ¬ IsMotion (pos, press) := not_isMotion_of_press sort
  cases op with
  | pop =>
    rcases step_pop history with same | ⟨item, next, note, popped, stepped⟩
    · exact .inl (same ▸ found)
    · refine .inl ?_
      rw [stepped] at found
      simpa [History.stream, (pop_some popped).1] using found
  | push origin event =>
    obtain ⟨same, appended, events, alike, _, _, presses⟩ :=
      (sound.pushed origin event).extends_events
    have stream : (history.step (.push origin event)).stream =
        (history.delivered ++ same) ++ appended := by
      simp [History.stream, History.step, events]
    rw [stream] at found
    by_cases early : index < (history.delivered ++ same).length
    · rw [getElem?_append_left early] at found
      exact .inl (alike_get_old (rel_append (alike_refl _) alike) found still)
    · rw [getElem?_append_right (not_lt.mp early)] at found
      have accepted : Accepts history.state origin event :=
        presses _ (mem_of_getElem? found) h sort
      have single : appended = [(origin, event)] := by
        have both := events.symm.trans accepted
        exact (append_inj both alike.length_eq.symm).2
      rw [single] at found
      have first : index - (history.delivered ++ same).length = 0 := by
        have bound := (List.getElem?_eq_some_iff.mp found).1
        simp only [length_singleton] at bound
        omega
      rw [first] at found
      obtain ⟨rfl, rfl⟩ := Prod.mk.inj (Option.some.inj found)
      refine .inr ⟨rfl, accepted, ?_⟩
      have width : (history.delivered ++ same).length = history.stream.length := by
        simp [History.stream, alike.length_eq]
      omega

theorem Sound.length_foldl [Add F] (sound : Sound history) (ops : List (Op F)) :
    history.stream.length ≤ (ops.foldl History.step history).stream.length := by
  induction ops generalizing history with
  | nil => exact le_refl _
  | cons op rest ih =>
    obtain ⟨same, appended, stream, alike, _⟩ := sound.step_extends op
    refine le_trans ?_ (ih (sound.step op))
    rw [stream, length_append, ← alike.length_eq]
    exact Nat.le_add_right _ _

theorem run_press [Add F] (capacity : Nat) (ops : List (Op F))
    (found : (run capacity ops).stream[index]? = some (pos, press)) (sort : kind press = .press h) :
    ∃ first rest, ops = first ++ .push pos press :: rest ∧
      Accepts (run capacity first).state pos press ∧
      index = (run capacity first).stream.length := by
  induction ops using reverseRecOn with
  | nil => simp [run, History.start, History.stream, channel] at found
  | append_singleton ops op ih =>
    rw [run_append, foldl_cons, foldl_nil] at found
    rcases (run_sound capacity ops).press_step op found sort with old | ⟨rfl, accepted, placed⟩
    · obtain ⟨first, rest, rfl, accepted, placed⟩ := ih old
      exact ⟨first, rest ++ [op], by simp, accepted, placed⟩
    · exact ⟨ops, [], rfl, accepted, placed⟩

theorem Sound.released [Add F] (sound : Sound history) {release : CaptureEvent F}
    (sort : kind press = .press h) (accepted : Accepts history.state pos press) {rest : List (Op F)}
    (pushed : .push pos release ∈ rest) (releases : kind release = .release h) :
    Released (rest.foldl History.step (history.step (.push pos press)))
      history.stream.length (pos, h) := by
  obtain ⟨middle, last, rfl⟩ := append_of_mem pushed
  rw [foldl_append, foldl_cons]
  have after := sound.step (.push pos press)
  have then_ := foldl_sound after middle
  have within : history.stream.length < (history.step (.push pos press)).stream.length := by
    simp [accepted_stream accepted]
  refine Released.foldl ?_ (then_.step _) last
  rcases after.foldl_held middle within (sound.accepted_held sort accepted) with held | done
  · exact then_.push_release (lt_of_lt_of_le within (after.length_foldl middle)) held releases
  · exact done.foldl then_ [.push pos release]

/--
Once everything was taken, the consumer holds nothing the producer does not,
and every press that was delivered came from a push after which any release
pushed for it has a release delivered behind that press.
-/
theorem no_stuck_key [Add F] (capacity : Nat) (ops : List (Op F))
    (drained : (run capacity ops).state.events = []) :
    (∀ x ∈ heldAfter (run capacity ops).delivered, x ∈ heldAfter (run capacity ops).pushed) ∧
    ∀ (index : Nat) (pos : Position) (press : CaptureEvent F) (h : Held),
      (run capacity ops).delivered[index]? = some (pos, press) → kind press = .press h →
      ∃ first rest, ops = first ++ .push pos press :: rest ∧
        index = (run capacity first).stream.length ∧
        ∀ release, .push pos release ∈ rest → kind release = .release h →
          ∃ later item, index < later ∧
            (run capacity ops).delivered[later]? = some (pos, item) ∧
            kind item = .release h := by
  have whole : (run capacity ops).stream = (run capacity ops).delivered := by
    simp [History.stream, drained]
  rw [← whole]
  constructor
  · intro x member
    rw [(run_sound capacity ops).held_eq] at member
    exact (run_sound capacity ops).held_sub x member
  · intro index pos press h found sort
    obtain ⟨first, rest, rfl, accepted, rfl⟩ := run_press capacity ops found sort
    refine ⟨first, rest, rfl, rfl, ?_⟩
    intro release pushed releases
    rw [run_append, foldl_cons]
    exact (run_sound capacity first).released sort accepted pushed releases

/-- A full queue: the key it must let go of is released before the pushed release. -/
theorem no_stuck_key_overflowed :
    let ops : List (Op Int) :=
      [.push .left (.input (.keyboard (.key 0 30 1))), .push .left (.input (.pointer (.axis 0 0 1))),
        .pop, .push .left (.input (.keyboard (.key 0 30 0))), .pop, .pop]
    (run 1 ops).state.events = [] ∧
      ∀ x ∈ heldAfter (run 1 ops).delivered, x ∈ heldAfter (run 1 ops).pushed :=
  ⟨by decide, (no_stuck_key 1 _ (by decide)).1⟩

end HopsFormal.Capture.EventQueue
