import HopsFormal.Capture.NoStuckKey
import HopsFormal.Lib.Basic
import Mathlib.Algebra.BigOperators.Group.List.Basic
import Mathlib.Algebra.Group.Prod
import Mathlib.Tactic.Abel

/-!
# The capture queue neither loses nor reorders

Every entry of a run's stream is followed back to the push that appended it.
Without the releases the queue made up, the entries other than motion are a
subsequence of what was pushed, every `Begin` among them, and all of it when no
push found the queue at capacity.  Between two entries other than motion the
stream moves as far as what was pushed between the two pushes they come from.
-/

namespace HopsFormal.Capture.EventQueue

open List Lib History

variable {F : Type}

instance (item : Item F) : Decidable (IsMotion item) :=
  match sort : kind item.2 with
  | .motion dx dy => isTrue ⟨dx, dy, sort⟩
  | .press _ => isFalse fun ⟨_, _, motion⟩ => by simp [sort] at motion
  | .release _ => isFalse fun ⟨_, _, motion⟩ => by simp [sort] at motion
  | .begin => isFalse fun ⟨_, _, motion⟩ => by simp [sort] at motion
  | .other => isFalse fun ⟨_, _, motion⟩ => by simp [sort] at motion

/-! ## Where a motion is summed -/

variable {item : Item F} {pos : Position} {event : CaptureEvent F} {history : History F}

theorem IsMotion.eq (motion : IsMotion item) :
    ∃ time dx dy, item = (item.1, .input (.pointer (.motion time dx dy))) := by
  obtain ⟨pos, event⟩ := item
  obtain ⟨x, y, sort⟩ := motion
  cases event with
  | begin => simp [kind] at sort
  | input event =>
    cases event with
    | keyboard event =>
      cases event with
      | key time key state =>
        simp only [kind] at sort
        split at sort <;> cases sort
      | modifiers depressed latched locked group => simp [kind] at sort
    | pointer event =>
      cases event with
      | motion time dx dy => exact ⟨time, dx, dy, rfl⟩
      | button time button state =>
        simp only [kind] at sort
        split at sort <;> cases sort
      | axis time axis value | axisDiscrete120 axis value => simp [kind] at sort

theorem mergeMotion_none [Add F] {dx dy : F} {items : List (Item F)}
    (apart : mergeMotion pos dx dy items = none) {front back : List (Item F)}
    (whole : items = front ++ item :: back) (motion : IsMotion item)
    (early : ∀ other ∈ front, IsMotion other) : item.1 ≠ pos := by
  induction front generalizing items with
  | nil =>
    obtain ⟨time, x, y, same⟩ := motion.eq
    rw [whole, nil_append, same] at apart
    intro here
    simp [mergeMotion, here] at apart
  | cons first rest ih =>
    obtain ⟨time, x, y, same⟩ := (early first mem_cons_self).eq
    rw [whole, cons_append, same] at apart
    simp only [mergeMotion] at apart
    split at apart
    · cases apart
    · exact ih (Option.map_eq_none_iff.mp apart) rfl fun other member =>
        early other (mem_cons_of_mem _ member)

/-! ## What a push answers with -/

/-- Everything a push can do to the waiting entries. -/
inductive Answered [Add F] (state : State F) (pos : Position) (event : CaptureEvent F)
    (after : State F) (note : Option Note) : Prop where
  | summed (front back : List (Item F)) (time : UInt32) (x y dx dy : F)
      (sort : kind event = .motion dx dy)
      (before : state.events = front ++ (pos, .input (.pointer (.motion time x y))) :: back)
      (now : after.events =
        front ++ (pos, .input (.pointer (.motion time (x + dx) (y + dy)))) :: back)
      (tail : ∀ item ∈ back, IsMotion item)
      (quiet : note = none) (refusing : after.refusing = state.refusing)
  | moved (motion : IsMotion (pos, event))
      (now : after.events = state.events ++ [(pos, event)])
      (apart : ∀ front item back, state.events = front ++ item :: back → IsMotion item →
        (∀ other ∈ back, IsMotion other) → item.1 ≠ pos)
      (quiet : note = none) (refusing : after.refusing = state.refusing)
  | kept (still : ¬ IsMotion (pos, event))
      (now : after.events = state.events ++ [(pos, event)])
      (quiet : note = none) (refusing : after.refusing = state.refusing)
  | overflowed (still : ¬ IsMotion (pos, event)) (input : kind event ≠ .begin)
      (full : state.capacity ≤ state.kept)
      (now : after.events = state.events ++ state.held.map fun x => (x.1, x.2.release))
      (told : note.isSome)
  | left (still : ¬ IsMotion (pos, event)) (input : kind event ≠ .begin)
      (full : state.refusing.isSome ∨ state.capacity ≤ state.kept)
      (now : after.events = state.events) (quiet : note = none)

theorem not_isMotion (still : ∀ dx dy, kind event ≠ .motion dx dy) : ¬ IsMotion (pos, event) := by
  rintro ⟨dx, dy, sort⟩
  exact still dx dy sort

theorem push_answered [Add F] (state : State F) (pos : Position) (event : CaptureEvent F)
    (listening : state.receiverGone = false) :
    Answered state pos event (state.push pos event).1 (state.push pos event).2 := by
  unfold State.push
  rw [if_neg (by simp [listening])]
  cases sort : kind event with
  | motion dx dy =>
    dsimp only
    split
    · rename_i merged summed
      obtain ⟨front, back, time, x, y, whole, result, motion⟩ := mergeMotion_some summed
      have before := congrArg List.reverse whole
      rw [reverse_reverse, reverse_append, reverse_cons, append_assoc,
        singleton_append] at before
      refine .summed back.reverse front.reverse time x y dx dy sort before ?_ ?_ rfl rfl
      · simp [result]
      · intro item member
        exact motion item (mem_reverse.mp member)
    · rename_i apart
      refine .moved ⟨dx, dy, sort⟩ rfl ?_ rfl rfl
      intro front item back whole motion tail
      have turned : state.events.reverse = back.reverse ++ item :: front.reverse := by
        simp [whole]
      exact mergeMotion_none apart turned motion fun other member =>
        tail other (mem_reverse.mp member)
  | begin => exact .kept (not_isMotion (by simp [sort])) rfl rfl rfl
  | release h =>
    have still : ¬ IsMotion (pos, event) := not_isMotion (by simp [sort])
    dsimp only
    split
    · exact .kept still rfl rfl rfl
    · split
      · exact .kept still rfl rfl rfl
      · rename_i closed
        refine .left still (by simp [sort]) ?_ rfl rfl
        by_cases refuses : state.refusing.isSome
        · exact .inl refuses
        · refine .inr (not_lt.mp fun room => closed ⟨?_, room⟩)
          simpa using refuses
  | press h =>
    have still : ¬ IsMotion (pos, event) := not_isMotion (by simp [sort])
    dsimp only
    split
    · rename_i refuses
      exact .left still (by simp [sort]) (.inl refuses) rfl rfl
    · split
      · rename_i full
        exact .overflowed still (by simp [sort]) full (releaseHeld_events state) rfl
      · split
        · exact .kept still rfl rfl rfl
        · exact .kept still rfl rfl rfl
  | other =>
    have still : ¬ IsMotion (pos, event) := not_isMotion (by simp [sort])
    dsimp only
    split
    · rename_i refuses
      exact .left still (by simp [sort]) (.inl refuses) rfl rfl
    · split
      · rename_i full
        exact .overflowed still (by simp [sort]) full (releaseHeld_events state) rfl
      · exact .kept still rfl rfl rfl

/-! ## Where an entry comes from -/

/-- The push an entry of the stream comes from. -/
structure Origin where
  push : Nat
  madeUp : Bool
  taken : Nat
  deriving DecidableEq

abbrev Entry (F : Type) := Item F × Origin

/--
The origins of what one step appends to the stream: the number of the push,
whether it overflowed, so that what it appended is made up, and how many
entries had been taken by then.
-/
def History.appended [Add F] (history : History F) : Op F → List Origin
  | .push pos event =>
    List.replicate
      ((history.state.push pos event).1.events.length - history.state.events.length)
      ⟨history.pushed.length, (history.state.push pos event).2.isSome, history.delivered.length⟩
  | .pop => []

/-- A run with the origin of every entry of its stream. -/
structure Account (F : Type) where
  history : History F
  origins : List Origin

def Account.step [Add F] (account : Account F) (op : Op F) : Account F where
  history := account.history.step op
  origins := account.origins ++ account.history.appended op

def account [Add F] (capacity : Nat) (ops : List (Op F)) : Account F :=
  ops.foldl Account.step ⟨.start capacity, []⟩

def Account.entries (account : Account F) : List (Entry F) :=
  account.history.stream.zip account.origins

variable (capacity : Nat) (ops : List (Op F))

theorem account_history [Add F] : (account capacity ops).history = run capacity ops := by
  have kept : ∀ start : Account F,
      (ops.foldl Account.step start).history = ops.foldl step start.history := by
    induction ops with
    | nil => exact fun _ => rfl
    | cons op rest ih => exact fun start => ih (start.step op)
  exact kept _

theorem account_concat [Add F] (op : Op F) :
    account capacity (ops ++ [op]) = (account capacity ops).step op := by
  simp [account, foldl_append]

theorem Account.entries_items {account : Account F}
    (width : account.origins.length = account.history.stream.length) :
    account.entries.map Prod.fst = account.history.stream :=
  map_fst_zip (le_of_eq width.symm)

/-- What a push does to the entries and their origins. -/
inductive Grown [Add F] (history : History F) (pos : Position) (event : CaptureEvent F)
    (before after : List (Entry F)) : Prop where
  | summed (front back : List (Entry F)) (origin : Origin) (time : UInt32) (x y dx dy : F)
      (sort : kind event = .motion dx dy)
      (old : before = front ++ ((pos, .input (.pointer (.motion time x y))), origin) :: back)
      (now : after =
        front ++ ((pos, .input (.pointer (.motion time (x + dx) (y + dy)))), origin) :: back)
      (tail : ∀ entry ∈ back, IsMotion entry.1)
  | moved (motion : IsMotion (pos, event))
      (now : after = before ++
        [((pos, event), ⟨history.pushed.length, false, history.delivered.length⟩)])
      (apart : ∀ front entry back, before = front ++ entry :: back → IsMotion entry.1 →
        (∀ other ∈ back, IsMotion other.1) → entry.1.1 = pos →
        front.length < history.delivered.length)
  | kept (still : ¬ IsMotion (pos, event))
      (now : after = before ++
        [((pos, event), ⟨history.pushed.length, false, history.delivered.length⟩)])
  | overflowed (still : ¬ IsMotion (pos, event)) (input : kind event ≠ .begin)
      (now : after = before ++ history.state.held.map fun x =>
        ((x.1, x.2.release), ⟨history.pushed.length, true, history.delivered.length⟩))
  | left (still : ¬ IsMotion (pos, event)) (input : kind event ≠ .begin) (now : after = before)

theorem Account.step_append [Add F] {account : Account F}
    (width : account.origins.length = account.history.stream.length) {added : List (Item F)}
    (now : (account.history.state.push pos event).1.events =
      account.history.state.events ++ added) :
    (account.step (.push pos event)).entries = account.entries ++ added.map fun item =>
      (item, ⟨account.history.pushed.length, (account.history.state.push pos event).2.isSome,
        account.history.delivered.length⟩) := by
  have fresh : account.history.appended (.push pos event) = List.replicate added.length
      ⟨account.history.pushed.length, (account.history.state.push pos event).2.isSome,
        account.history.delivered.length⟩ := by
    simp [History.appended, now]
  have stream : (account.history.step (.push pos event)).stream =
      account.history.stream ++ added := by
    simp [History.stream, History.step, now]
  simp only [Account.entries, Account.step, fresh, stream]
  rw [zip_append width.symm]
  congr 1
  rw [← map_const', map_prod_left_eq_zip]

theorem Account.grown [Add F] {account : Account F}
    (width : account.origins.length = account.history.stream.length)
    (listening : account.history.state.receiverGone = false)
    (pos : Position) (event : CaptureEvent F) :
    Grown account.history pos event account.entries (account.step (.push pos event)).entries := by
  cases push_answered account.history.state pos event listening with
  | summed front back time x y dx dy sort before now tail quiet refusing =>
    have stream : account.history.stream = (account.history.delivered ++ front) ++
        (pos, .input (.pointer (.motion time x y))) :: back := by
      simp [History.stream, before]
    have after : (account.history.step (.push pos event)).stream =
        (account.history.delivered ++ front) ++
          (pos, .input (.pointer (.motion time (x + dx) (y + dy)))) :: back := by
      simp [History.stream, History.step, now]
    have same : account.history.appended (.push pos event) = [] := by
      simp [History.appended, now, before]
    have long : (account.history.delivered ++ front).length < account.origins.length := by
      simp [width, stream]
    have split : account.origins =
        account.origins.take (account.history.delivered ++ front).length ++
          account.origins[(account.history.delivered ++ front).length] ::
            account.origins.drop ((account.history.delivered ++ front).length + 1) := by
      rw [getElem_cons_drop, take_append_drop]
    have aligned : (account.history.delivered ++ front).length =
        (account.origins.take (account.history.delivered ++ front).length).length := by
      rw [length_take, min_eq_left (le_of_lt long)]
    refine .summed
      ((account.history.delivered ++ front).zip
        (account.origins.take (account.history.delivered ++ front).length))
      (back.zip (account.origins.drop ((account.history.delivered ++ front).length + 1)))
      account.origins[(account.history.delivered ++ front).length] time x y dx dy sort ?_ ?_ ?_
    · rw [Account.entries, stream]
      conv_lhs => rw [split]
      rw [zip_append aligned, zip_cons_cons]
    · simp only [Account.entries, Account.step, same, append_nil, after]
      conv_lhs => rw [split]
      rw [zip_append aligned, zip_cons_cons]
    · intro entry member
      exact tail entry.1 (of_mem_zip member).1
  | moved motion now apart quiet refusing =>
    refine .moved motion ?_ ?_
    · rw [Account.step_append width now, quiet]
      rfl
    · intro front entry back whole moves tail here
      by_contra early
      have items := congrArg (List.map Prod.fst) whole
      rw [Account.entries_items width, map_append, map_cons, History.stream] at items
      have waiting := congrArg (List.drop account.history.delivered.length) items
      rw [drop_left, drop_append_of_le_length (by simpa using early)] at waiting
      refine apart _ _ _ waiting moves ?_ here
      intro other member
      obtain ⟨inner, inside, rfl⟩ := mem_map.mp member
      exact tail inner inside
  | kept still now quiet refusing =>
    refine .kept still ?_
    rw [Account.step_append width now, quiet]
    rfl
  | overflowed still input full now told =>
    refine .overflowed still input ?_
    rw [Account.step_append width now, told, map_map]
    rfl
  | left still input full now quiet =>
    refine .left still input ?_
    have nothing : (account.history.state.push pos event).1.events =
        account.history.state.events ++ [] := by simp [now]
    rw [Account.step_append width nothing]
    simp

theorem pop_refusing {state next : State F} {note : Option Note}
    (popped : state.pop = some (item, next, note)) (accepts : state.refusing = none) :
    next.refusing = none := by
  unfold State.pop at popped
  cases events : state.events with
  | nil => simp [events] at popped
  | cons first rest =>
    simp only [events] at popped
    by_cases last : rest.isEmpty = true
    · rw [if_pos last] at popped
      cases popped
      rfl
    · rw [if_neg last] at popped
      cases popped
      exact accepts

/-- Taking an event changes neither the entries nor what was pushed. -/
theorem Account.step_pop [Add F] (account : Account F) :
    (account.step .pop).entries = account.entries ∧
      (account.step .pop).history.pushed = account.history.pushed ∧
      account.history.delivered.length ≤ (account.step .pop).history.delivered.length := by
  have same : (account.step .pop).origins = account.origins := by
    simp [Account.step, appended]
  have fresh : (account.step .pop).history = account.history.step .pop := rfl
  rcases EventQueue.step_pop account.history with stays | ⟨item, next, note, popped, stepped⟩
  · rw [Account.entries, same, fresh, stays]
    exact ⟨rfl, rfl, le_refl _⟩
  · rw [Account.entries, same, fresh, stepped]
    refine ⟨?_, rfl, by simp⟩
    simp [Account.entries, stream, (pop_some popped).1]

variable {before after : List (Entry F)}

/-- An entry a push leaves stood there before, up to its motion, or is new. -/
theorem Grown.mem [Add F] (grown : Grown history pos event before after) {entry : Entry F}
    (member : entry ∈ after) :
    (∃ old ∈ before, entry.2 = old.2 ∧ (entry = old ∨ IsMotion entry.1 ∧ IsMotion old.1)) ∨
      entry = ((pos, event), ⟨history.pushed.length, false, history.delivered.length⟩) ∨
      ∃ held : Position × Held, entry = ((held.1, held.2.release),
        ⟨history.pushed.length, true, history.delivered.length⟩) := by
  have stays : ∀ old ∈ before, ∃ old' ∈ before, old.2 = old'.2 ∧
      (old = old' ∨ IsMotion old.1 ∧ IsMotion old'.1) :=
    fun old inside => ⟨old, inside, rfl, .inl rfl⟩
  cases grown with
  | summed front back origin time x y dx dy sort old now tail =>
    subst old now
    simp only [mem_append, mem_cons] at member
    rcases member with inside | rfl | inside
    · exact .inl (stays entry (by simp [inside]))
    · exact .inl ⟨((pos, .input (.pointer (.motion time x y))), origin), by simp, rfl,
        .inr ⟨⟨_, _, rfl⟩, _, _, rfl⟩⟩
    · exact .inl (stays entry (by simp [inside]))
  | moved motion now apart | kept still now =>
    subst now
    rcases mem_append.mp member with inside | new
    · exact .inl (stays entry inside)
    · exact .inr (.inl (mem_singleton.mp new))
  | overflowed still input now =>
    subst now
    rcases mem_append.mp member with inside | new
    · exact .inl (stays entry inside)
    · obtain ⟨held, -, rfl⟩ := mem_map.mp new
      exact .inr (.inr ⟨held, rfl⟩)
  | left still input now =>
    subst now
    exact .inl (stays entry member)

theorem Grown.origins [Add F] (grown : Grown history pos event before after) :
    ∃ added, after.map Prod.snd = before.map Prod.snd ++ added ∧
      ∀ origin ∈ added, origin.push = history.pushed.length := by
  cases grown with
  | summed front back origin time x y dx dy sort old now tail =>
    exact ⟨[], by simp [old, now], by simp⟩
  | moved motion now apart | kept still now => exact ⟨_, by rw [now, map_append], by simp⟩
  | overflowed still input now =>
    refine ⟨_, by rw [now, map_append], ?_⟩
    intro origin member
    obtain ⟨entry, inside, rfl⟩ := mem_map.mp member
    obtain ⟨held, -, rfl⟩ := mem_map.mp inside
    rfl
  | left still input now => exact ⟨[], by simp [now], by simp⟩

/-! ## Nothing is made of nothing -/

/-- The entries other than motion that the queue did not make up. -/
@[grind =]
def genuine (entries : List (Entry F)) : List (Item F) :=
  (entries.filter fun entry => ¬ IsMotion entry.1 ∧ entry.2.madeUp = false).map Prod.fst

def withoutMotion (items : List (Item F)) : List (Item F) :=
  items.filter fun item => ¬ IsMotion item

/-- The crossings among the entries. -/
@[grind =]
def begins (items : List (Item F)) : List (Item F) :=
  items.filter fun item =>
    match kind item.2 with
    | .begin => true
    | _ => false

/-- What every run keeps about where its entries come from. -/
structure Accounted (account : Account F) : Prop where
  sound : Sound account.history
  width : account.origins.length = account.history.stream.length
  earlier : ∀ entry ∈ account.entries, entry.2.push < account.history.pushed.length
  sorted : (account.entries.map Prod.snd).Pairwise fun first second => first.push ≤ second.push
  from_push : ∀ entry ∈ account.entries, ¬ IsMotion entry.1 → entry.2.madeUp = false →
    account.history.pushed[entry.2.push]? = some entry.1
  release_only : ∀ entry ∈ account.entries, entry.2.madeUp = true →
    ∃ held : Held, entry.1.2 = held.release
  in_order : (genuine account.entries).Sublist (withoutMotion account.history.pushed)
  crossings : begins (account.entries.map Prod.fst) = begins account.history.pushed

theorem withoutMotion_append (front back : List (Item F)) :
    withoutMotion (front ++ back) = withoutMotion front ++ withoutMotion back :=
  filter_append ..

theorem withoutMotion_motion (motion : IsMotion item) (rest : List (Item F)) :
    withoutMotion (item :: rest) = withoutMotion rest := by
  simp [withoutMotion, motion]

theorem begins_append (front back : List (Item F)) :
    begins (front ++ back) = begins front ++ begins back :=
  filter_append ..

theorem genuine_append (front back : List (Entry F)) :
    genuine (front ++ back) = genuine front ++ genuine back := by
  simp [genuine]

theorem genuine_motion {entry : Entry F} (motion : IsMotion entry.1) (rest : List (Entry F)) :
    genuine (entry :: rest) = genuine rest := by
  simp [genuine, motion]

theorem begins_motion (motion : IsMotion item) : begins [item] = [] := by
  obtain ⟨dx, dy, sort⟩ := motion
  simp [begins, sort]

theorem begins_input (input : kind item.2 ≠ .begin) : begins [item] = [] := by
  rw [begins, filter_eq_nil_iff]
  intro other member
  obtain rfl := mem_singleton.mp member
  cases sort : kind other.2 with
  | begin => exact absurd sort input
  | motion dx dy | press held | release held | other => simp

theorem genuine_madeUp {entries : List (Entry F)}
    (made : ∀ entry ∈ entries, entry.2.madeUp = true) : genuine entries = [] := by
  rw [genuine, map_eq_nil_iff, filter_eq_nil_iff]
  intro entry member
  simp [made entry member]

theorem begins_releases (held : List (Position × Held)) :
    begins (held.map fun x => ((x.1, x.2.release) : Item F)) = [] := by
  rw [begins, filter_eq_nil_iff]
  intro item member
  obtain ⟨x, -, rfl⟩ := mem_map.mp member
  simp [kind_release]

theorem Grown.in_order [Add F] (grown : Grown history pos event before after)
    (ordered : (genuine before).Sublist (withoutMotion history.pushed)) :
    (genuine after).Sublist (withoutMotion (history.pushed ++ [(pos, event)])) := by
  have longer := ordered.trans (sublist_append_left (withoutMotion history.pushed)
    (withoutMotion [(pos, event)]))
  rw [← withoutMotion_append] at longer
  cases grown with
  | summed front back origin time x y dx dy sort old now tail =>
    have same : genuine after = genuine before := by
      rw [old, now, genuine_append, genuine_append, genuine_motion, genuine_motion]
      · exact ⟨x, y, rfl⟩
      · exact ⟨x + dx, y + dy, rfl⟩
    exact same ▸ longer
  | moved motion now apart =>
    rw [now, genuine_append, genuine_motion motion]
    simpa [genuine] using longer
  | kept still now =>
    rw [now, genuine_append, withoutMotion_append]
    refine ordered.append ?_
    simp [genuine, withoutMotion, still]
  | overflowed still input now =>
    have none_genuine : genuine (history.state.held.map fun x => (((x.1, x.2.release),
        ⟨history.pushed.length, true, history.delivered.length⟩) : Entry F)) = [] := by
      apply genuine_madeUp
      intro entry member
      obtain ⟨held, -, rfl⟩ := mem_map.mp member
      rfl
    rw [now, genuine_append, none_genuine, append_nil]
    exact longer
  | left still input now => exact now ▸ longer

theorem Grown.crossings [Add F] (grown : Grown history pos event before after)
    (crossed : begins (before.map Prod.fst) = begins history.pushed) :
    begins (after.map Prod.fst) = begins (history.pushed ++ [(pos, event)]) := by
  rw [begins_append, ← crossed]
  cases grown with
  | summed front back origin time x y dx dy sort old now tail =>
    rw [old, now, begins_motion ⟨_, _, sort⟩]
    simp [begins, kind]
  | moved motion now apart | kept still now => rw [now, map_append, begins_append]; rfl
  | overflowed still input now =>
    rw [now, map_append, begins_append, begins_input input, map_map]
    congr 1
    exact begins_releases _
  | left still input now => rw [now, begins_input input, append_nil]

/-- The origins keep up with the stream. -/
theorem Account.step_width [Add F] {account : Account F}
    (width : account.origins.length = account.history.stream.length)
    (listening : account.history.state.receiverGone = false) (op : Op F) :
    (account.step op).origins.length = (account.step op).history.stream.length := by
  cases op with
  | pop =>
    have same : (account.step .pop).origins = account.origins := by
      simp [Account.step, History.appended]
    have fresh : (account.step .pop).history = account.history.step .pop := rfl
    rw [same, width, fresh]
    rcases EventQueue.step_pop account.history with stays | ⟨item, next, note, popped, stepped⟩
    · rw [stays]
    · rw [stepped]
      simp [History.stream, (pop_some popped).1]
  | push pos event =>
    have longer : account.history.state.events.length ≤
        (account.history.state.push pos event).1.events.length := by
      cases push_answered account.history.state pos event listening with
      | summed front back time x y dx dy sort before now tail quiet refusing => simp [before, now]
      | moved motion now apart quiet refusing | kept still now quiet refusing
      | overflowed still input full now told => simp [now]
      | left still input full now quiet => rw [now]
    simp only [Account.step, length_append, width, History.appended, length_replicate,
      History.stream, History.step]
    omega

theorem Accounted.step [Add F] {account : Account F} (accounted : Accounted account) (op : Op F) :
    Accounted (account.step op) := by
  cases op with
  | pop =>
    obtain ⟨entries, pushed, -⟩ := account.step_pop
    refine ⟨accounted.sound.step .pop,
      Account.step_width accounted.width accounted.sound.listening .pop, ?_, ?_, ?_, ?_, ?_, ?_⟩
    · rw [entries, pushed]
      exact accounted.earlier
    · rw [entries]
      exact accounted.sorted
    · rw [entries, pushed]
      exact accounted.from_push
    · rw [entries]
      exact accounted.release_only
    · rw [entries, pushed]
      exact accounted.in_order
    · rw [entries, pushed]
      exact accounted.crossings
  | push pos event =>
    have grown := Account.grown accounted.width accounted.sound.listening pos event
    have pushed : (account.step (.push pos event)).history.pushed =
        account.history.pushed ++ [(pos, event)] := rfl
    refine ⟨accounted.sound.step (.push pos event),
      Account.step_width accounted.width accounted.sound.listening _, ?_, ?_, ?_, ?_,
      grown.in_order accounted.in_order, grown.crossings accounted.crossings⟩
    · intro entry member
      rw [pushed, length_append]
      rcases grown.mem member with ⟨old, inside, same, -⟩ | rfl | ⟨held, rfl⟩
      · rw [same]
        exact Nat.lt_add_right _ (accounted.earlier old inside)
      · exact Nat.lt_add_one _
      · exact Nat.lt_add_one _
    · obtain ⟨added, origins, fresh⟩ := grown.origins
      rw [origins, pairwise_append]
      refine ⟨accounted.sorted, ?_, ?_⟩
      · refine pairwise_of_forall_mem_list ?_
        intro first inFirst second inSecond
        rw [fresh first inFirst, fresh second inSecond]
      · intro old inside new inNew
        obtain ⟨entry, member, rfl⟩ := mem_map.mp inside
        rw [fresh new inNew]
        exact le_of_lt (accounted.earlier entry member)
    · intro entry member still real
      rw [pushed]
      rcases grown.mem member with ⟨old, inside, same, rfl | ⟨moves, -⟩⟩ | rfl | ⟨held, rfl⟩
      · rw [getElem?_append_left (accounted.earlier entry inside)]
        exact accounted.from_push entry inside still real
      · exact absurd moves still
      · simp
      · cases real
    · intro entry member made
      rcases grown.mem member with ⟨old, inside, same, rfl | ⟨-, moved⟩⟩ | rfl | ⟨held, rfl⟩
      · exact accounted.release_only entry inside made
      · obtain ⟨held, released⟩ := accounted.release_only old inside (same ▸ made)
        obtain ⟨dx, dy, sort⟩ := moved
        rw [released, kind_release] at sort
        cases sort
      · cases made
      · exact ⟨held.2, rfl⟩

theorem account_accounted [Add F] : Accounted (account capacity ops) := by
  induction ops using reverseRecOn with
  | nil =>
    refine ⟨sound_start capacity, rfl, ?_, ?_, ?_, ?_, List.Sublist.refl _, rfl⟩
    · intro entry member
      cases member
    · exact List.Pairwise.nil
    · intro entry member
      cases member
    · intro entry member
      cases member
  | append_singleton ops op ih =>
    rw [account_concat]
    exact ih.step op

/-! ## Nothing is lost while there is room -/

/-- No push of anything but motion found the queue at capacity. -/
def NeverFull [Add F] (capacity : Nat) (ops : List (Op F)) : Prop :=
  ∀ first pos event rest, ops = first ++ .push pos event :: rest → ¬ IsMotion (pos, event) →
    (run capacity first).state.kept < (run capacity first).state.capacity

theorem NeverFull.init [Add F] {capacity : Nat} {ops : List (Op F)} {op : Op F}
    (room : NeverFull capacity (ops ++ [op])) : NeverFull capacity ops := by
  intro first pos event rest split
  apply room first pos event (rest ++ [op])
  rw [split, append_assoc, cons_append]

/-- While there is room nothing is refused and nothing but motion is changed. -/
theorem NeverFull.kept [Add F] {capacity : Nat} {ops : List (Op F)}
    (room : NeverFull capacity ops) :
    (run capacity ops).state.refusing = none ∧
      withoutMotion (run capacity ops).stream = withoutMotion (run capacity ops).pushed := by
  induction ops using reverseRecOn with
  | nil => exact ⟨rfl, rfl⟩
  | append_singleton ops op ih =>
    obtain ⟨open_, same⟩ := ih room.init
    have next : run capacity (ops ++ [op]) = (run capacity ops).step op := run_append ..
    rw [next]
    cases op with
    | pop =>
      rcases EventQueue.step_pop (run capacity ops) with stays | ⟨item, after, note, popped, stepped⟩
      · rw [stays]
        exact ⟨open_, same⟩
      · rw [stepped]
        refine ⟨?_, ?_⟩
        · exact pop_refusing popped open_
        · rw [← same]
          simp [stream, (pop_some popped).1]
    | push pos event =>
      have listening := (run_sound capacity ops).listening
      have free := room ops pos event [] rfl
      have pushed : ((run capacity ops).step (.push pos event)).pushed =
          (run capacity ops).pushed ++ [(pos, event)] := rfl
      have waits : ((run capacity ops).step (.push pos event)).stream =
          (run capacity ops).delivered ++ ((run capacity ops).state.push pos event).1.events :=
        rfl
      rw [pushed, withoutMotion_append, ← same, waits, stream]
      cases push_answered (run capacity ops).state pos event listening with
      | summed front back time x y dx dy sort before now tail quiet refusing =>
        refine ⟨refusing.trans open_, ?_⟩
        have moves : IsMotion (pos, event) := ⟨dx, dy, sort⟩
        rw [now, before, withoutMotion_motion moves]
        simp only [withoutMotion_append]
        rw [withoutMotion_motion ⟨_, _, rfl⟩, withoutMotion_motion ⟨_, _, rfl⟩]
        simp [withoutMotion]
      | moved motion now apart quiet refusing | kept still now quiet refusing =>
        refine ⟨refusing.trans open_, ?_⟩
        rw [now, ← append_assoc, withoutMotion_append]
      | overflowed still input full now told =>
        exact absurd (free still) (not_lt.mpr full)
      | left still input full now quiet =>
        rcases full with refuses | full
        · simp [open_] at refuses
        · exact absurd (free still) (not_lt.mpr full)

/-! ## How far the pointer moves -/

section Motion

variable [AddCommGroup F]

/-- What an entry moves the pointer of `pos`. -/
def motionTo (pos : Position) (item : Item F) : F × F :=
  match kind item.2 with
  | .motion dx dy => if item.1 = pos then (dx, dy) else 0
  | _ => 0

def total (pos : Position) (items : List (Item F)) : F × F :=
  (items.map (motionTo pos)).sum

theorem total_append (pos : Position) (front back : List (Item F)) :
    total pos (front ++ back) = total pos front + total pos back := by
  simp [total]

theorem total_cons (pos : Position) (item : Item F) (rest : List (Item F)) :
    total pos (item :: rest) = motionTo pos item + total pos rest := by
  simp [total]

theorem motionTo_still (still : ¬ IsMotion item) (pos : Position) : motionTo pos item = 0 := by
  unfold motionTo
  split
  · rename_i dx dy sort
    exact absurd ⟨dx, dy, sort⟩ still
  · rfl

theorem total_still {items : List (Item F)} (still : ∀ item ∈ items, ¬ IsMotion item)
    (pos : Position) : total pos items = 0 := by
  apply sum_eq_zero
  intro amount member
  obtain ⟨item, inside, rfl⟩ := mem_map.mp member
  exact motionTo_still (still item inside) pos

/--
Up to an entry other than motion the stream moves as far as what was pushed
before the push that entry comes from, and over all as far as all of it.
-/
structure Balanced (pos : Position) (entries : List (Entry F)) (pushed : List (Item F)) :
    Prop where
  upTo : ∀ front entry back, entries = front ++ entry :: back → ¬ IsMotion entry.1 →
    total pos (front.map Prod.fst) = total pos (pushed.take entry.2.push)
  whole : total pos (entries.map Prod.fst) = total pos pushed

theorem Balanced.append_still {entries added : List (Entry F)} {pushed : List (Item F)}
    (balanced : Balanced pos entries pushed)
    (earlier : ∀ entry ∈ entries, entry.2.push < pushed.length)
    (own : ∀ entry ∈ added, ¬ IsMotion entry.1 ∧ entry.2.push = pushed.length)
    (still : ¬ IsMotion item) : Balanced pos (entries ++ added) (pushed ++ [item]) where
  upTo := by
    intro front entry back split moves
    rcases append_eq_append_cons split with ⟨rest, inner, -⟩ | ⟨gap, rfl, inner⟩
    · have before := earlier entry (by simp [inner])
      rw [take_append_of_le_length (le_of_lt before)]
      exact balanced.upTo front entry rest inner moves
    · have here : entry ∈ added := by simp [inner]
      rw [(own entry here).2, take_left, map_append, total_append, balanced.whole,
        add_eq_left]
      apply total_still
      intro other member
      obtain ⟨between, inside, rfl⟩ := mem_map.mp member
      exact (own between (by simp [inner, inside])).1
  whole := by
    rw [map_append, total_append, total_append, balanced.whole, add_right_inj,
      total_cons, motionTo_still still, zero_add]
    apply total_still
    intro other member
    obtain ⟨entry, inside, rfl⟩ := mem_map.mp member
    exact (own entry inside).1

theorem Grown.balanced (grown : Grown history pos event before after)
    (earlier : ∀ entry ∈ before, entry.2.push < history.pushed.length) {side : Position}
    (balanced : Balanced side before history.pushed) :
    Balanced side after (history.pushed ++ [(pos, event)]) := by
  cases grown with
  | summed front back origin time x y dx dy sort old now tail =>
    have added : total side [(pos, event)] = if pos = side then (dx, dy) else 0 := by
      simp [total, motionTo, sort]
    refine ⟨?_, ?_⟩
    · intro first entry rest split still
      rw [now] at split
      rcases append_eq_append_cons split with ⟨rest', inner, -⟩ | ⟨gap, -, inner⟩
      · have inside : entry ∈ before := by simp [old, inner]
        rw [take_append_of_le_length (le_of_lt (earlier entry inside))]
        have earlier_split : before = first ++ entry :: (rest' ++
            ((pos, .input (.pointer (.motion time x y))), origin) :: back) := by
          rw [old, inner, append_assoc, cons_append]
        exact balanced.upTo first entry _ earlier_split still
      · cases gap with
        | nil =>
          obtain ⟨rfl, -⟩ := List.cons.inj inner
          exact absurd ⟨_, _, rfl⟩ still
        | cons head others =>
          obtain ⟨-, inside⟩ := List.cons.inj inner
          exact absurd (tail entry (by simp [inside])) still
    · have whole := balanced.whole
      rw [old] at whole
      rw [now, total_append, added, ← whole]
      simp only [map_append, map_cons, total_append, total_cons, motionTo, kind]
      split
      · rw [← Prod.mk_add_mk]
        abel
      · simp
  | moved motion now apart =>
    subst now
    refine ⟨?_, ?_⟩
    · intro front entry back split still
      rcases append_eq_append_cons split with ⟨rest, inner, -⟩ | ⟨gap, -, inner⟩
      · have inside : entry ∈ before := by simp [inner]
        rw [take_append_of_le_length (le_of_lt (earlier entry inside))]
        exact balanced.upTo front entry rest inner still
      · have only : entry ∈ gap ++ entry :: back := by simp
        rw [← inner] at only
        obtain rfl := mem_singleton.mp only
        exact absurd motion still
    · rw [map_append, total_append, total_append, balanced.whole]
      rfl
  | kept still now =>
    subst now
    apply balanced.append_still earlier _ still
    intro entry member
    obtain rfl := mem_singleton.mp member
    exact ⟨still, rfl⟩
  | overflowed still input now =>
    subst now
    apply balanced.append_still earlier _ still
    intro entry member
    obtain ⟨held, -, rfl⟩ := mem_map.mp member
    exact ⟨not_isMotion_of_release (kind_release _), rfl⟩
  | left still input now =>
    have none_added : Balanced side (before ++ []) (history.pushed ++ [(pos, event)]) :=
      balanced.append_still earlier (by simp) still
    rw [append_nil] at none_added
    exact now ▸ none_added

theorem account_balanced (capacity : Nat) (ops : List (Op F)) (pos : Position) :
    Balanced pos (account capacity ops).entries (run capacity ops).pushed := by
  induction ops using reverseRecOn with
  | nil =>
    refine ⟨?_, rfl⟩
    intro front entry back split
    cases front <;> cases split
  | append_singleton ops op ih =>
    have accounted := account_accounted capacity ops
    rw [← account_history, account_concat]
    rw [← account_history] at ih
    cases op with
    | pop =>
      obtain ⟨entries, pushed, -⟩ := (account capacity ops).step_pop
      rw [entries, pushed]
      exact ih
    | push side event =>
      exact (Account.grown accounted.width accounted.sound.listening side event).balanced
        accounted.earlier ih

/--
Between two entries other than motion the stream moves as far as what was
pushed between the two pushes they come from, before and behind such an entry
as far as what was pushed before and behind its push, and over all as far as
all of it.
-/
structure MotionKept (pos : Position) (entries : List (Entry F)) (pushed : List (Item F)) :
    Prop where
  before : ∀ front entry back, entries = front ++ entry :: back → ¬ IsMotion entry.1 →
    total pos (front.map Prod.fst) = total pos (pushed.take entry.2.push)
  between : ∀ front first middle second back,
    entries = front ++ first :: (middle ++ second :: back) →
    ¬ IsMotion first.1 → ¬ IsMotion second.1 →
    total pos (middle.map Prod.fst) = total pos ((pushed.take second.2.push).drop first.2.push)
  behind : ∀ front entry back, entries = front ++ entry :: back → ¬ IsMotion entry.1 →
    total pos (back.map Prod.fst) = total pos (pushed.drop entry.2.push)
  whole : total pos (entries.map Prod.fst) = total pos pushed

theorem account_motionKept (capacity : Nat) (ops : List (Op F)) (pos : Position) :
    MotionKept pos (account capacity ops).entries (run capacity ops).pushed where
  before := (account_balanced capacity ops pos).upTo
  whole := (account_balanced capacity ops pos).whole
  behind := by
    intro front entry back split still
    have balanced := account_balanced capacity ops pos
    have early := balanced.upTo front entry back split still
    have whole := balanced.whole
    rw [split, map_append, map_cons, total_append, total_cons,
      motionTo_still still, zero_add, early,
      ← take_append_drop entry.2.push (run capacity ops).pushed, total_append] at whole
    rw [take_append_drop] at whole
    exact add_left_cancel whole
  between := by
    intro front first middle second back split still quiet
    have balanced := account_balanced capacity ops pos
    have start := balanced.upTo front first (middle ++ second :: back) split still
    have stop := balanced.upTo (front ++ first :: middle) second back (by simp [split]) quiet
    have ordered : first.2.push ≤ second.2.push := by
      have sorted := (account_accounted capacity ops).sorted
      rw [split, map_append, map_cons, pairwise_append, pairwise_cons] at sorted
      exact sorted.2.1.1 second.2 (by simp)
    rw [map_append, map_cons, total_append, total_cons, motionTo_still still, zero_add,
      start] at stop
    have cut : (run capacity ops).pushed.take first.2.push =
        ((run capacity ops).pushed.take second.2.push).take first.2.push := by
      rw [take_take, min_eq_left ordered]
    rw [cut] at stop
    have parts := total_append pos
      (((run capacity ops).pushed.take second.2.push).take first.2.push)
      (((run capacity ops).pushed.take second.2.push).drop first.2.push)
    rw [take_append_drop] at parts
    exact add_left_cancel (stop.trans parts)

end Motion

/-! ## One motion at a time -/

/--
Two motions of one position with nothing but motion between them: the earlier
one had been taken before the later one was pushed.
-/
def Spaced (entries : List (Entry F)) : Prop :=
  ∀ front first middle second back, entries = front ++ first :: (middle ++ second :: back) →
    IsMotion first.1 → IsMotion second.1 → first.1.1 = second.1.1 →
    (∀ entry ∈ middle, IsMotion entry.1) → front.length < second.2.taken

def Entry.shape (entry : Entry F) : Position × Bool × Nat :=
  (entry.1.1, decide (IsMotion entry.1), entry.2.taken)

theorem Spaced.congr (same : before.map Entry.shape = after.map Entry.shape)
    (spaced : Spaced before) : Spaced after := by
  intro front first middle second back split moves follows here between
  rw [split, map_append, map_cons, map_append, map_cons] at same
  obtain ⟨front', tail, rfl, frontEq, tailEq⟩ := map_eq_append_iff.mp same
  obtain ⟨first', tail, rfl, firstEq, tailEq⟩ := map_eq_cons_iff.mp tailEq
  obtain ⟨middle', tail, rfl, middleEq, tailEq⟩ := map_eq_append_iff.mp tailEq
  obtain ⟨second', back', rfl, secondEq, -⟩ := map_eq_cons_iff.mp tailEq
  simp only [Entry.shape, Prod.mk.injEq, decide_eq_decide] at firstEq secondEq
  have width := congrArg List.length frontEq
  rw [length_map, length_map] at width
  rw [← width, ← secondEq.2.2]
  refine spaced front' first' middle' second' back' rfl (firstEq.2.1.mpr moves)
    (secondEq.2.1.mpr follows) ?_ ?_
  · rw [firstEq.1, secondEq.1, here]
  · intro entry member
    have inside : entry.shape ∈ middle.map Entry.shape := by
      rw [← middleEq]
      exact mem_map_of_mem member
    obtain ⟨other, otherIn, otherEq⟩ := mem_map.mp inside
    simp only [Entry.shape, Prod.mk.injEq, decide_eq_decide] at otherEq
    exact otherEq.2.1.mp (between other otherIn)

theorem Spaced.append {added : List (Entry F)} (spaced : Spaced before)
    (fresh : ∀ front first middle gap second back, before ++ gap = front ++ first :: middle →
      added = gap ++ second :: back → IsMotion first.1 → IsMotion second.1 →
      first.1.1 = second.1.1 → (∀ entry ∈ middle, IsMotion entry.1) →
      front.length < second.2.taken) : Spaced (before ++ added) := by
  intro front first middle second back split moves follows here between
  have joined : before ++ added = (front ++ first :: middle) ++ second :: back := by
    rw [split, append_assoc, cons_append]
  rcases append_eq_append_cons joined with ⟨rest, inner, -⟩ | ⟨gap, whole, inner⟩
  · refine spaced front first middle second rest ?_ moves follows here between
    rw [inner, append_assoc, cons_append]
  · exact fresh front first middle gap second back whole.symm inner moves follows here between

theorem Grown.spaced [Add F] {history : History F} {pos : Position} {event : CaptureEvent F}
    {before after : List (Entry F)} (grown : Grown history pos event before after)
    (spaced : Spaced before) : Spaced after := by
  cases grown with
  | summed front back origin time x y dx dy sort old now tail =>
    refine spaced.congr ?_
    rw [old, now]
    simp only [map_append, map_cons, Entry.shape]
    have old_moves : IsMotion ((pos, .input (.pointer (.motion time x y))) : Item F) :=
      ⟨x, y, rfl⟩
    have new_moves :
        IsMotion ((pos, .input (.pointer (.motion time (x + dx) (y + dy)))) : Item F) :=
      ⟨x + dx, y + dy, rfl⟩
    simp only [old_moves, new_moves]
  | moved motion now apart =>
    subst now
    apply spaced.append
    intro front first middle gap second back whole inner moves follows here between
    cases gap with
    | nil =>
      obtain ⟨rfl, -⟩ := List.cons.inj inner
      rw [append_nil] at whole
      exact apart front first middle whole moves between here
    | cons head rest => simp at inner
  | kept still now =>
    subst now
    apply spaced.append
    intro front first middle gap second back whole inner moves follows here between
    have only : second ∈ gap ++ second :: back := by simp
    rw [← inner] at only
    obtain rfl := mem_singleton.mp only
    exact absurd follows still
  | overflowed still input now =>
    subst now
    apply spaced.append
    intro front first middle gap second back whole inner moves follows here between
    have only : second ∈ gap ++ second :: back := by simp
    rw [← inner] at only
    obtain ⟨held, -, rfl⟩ := mem_map.mp only
    exact absurd follows (not_isMotion_of_release (kind_release _))
  | left still input now => exact now ▸ spaced

theorem account_spaced [Add F] : Spaced (account capacity ops).entries := by
  induction ops using reverseRecOn with
  | nil =>
    intro front first middle second back split
    cases front <;> cases split
  | append_singleton ops op ih =>
    have accounted := account_accounted capacity ops
    rw [account_concat]
    cases op with
    | pop =>
      rw [(account capacity ops).step_pop.1]
      exact ih
    | push side event =>
      exact (Account.grown accounted.width accounted.sound.listening side event).spaced ih

theorem account_taken [Add F] : ∀ entry ∈ (account capacity ops).entries,
      entry.2.taken ≤ (run capacity ops).delivered.length := by
  induction ops using reverseRecOn with
  | nil =>
    intro entry member
    cases member
  | append_singleton ops op ih =>
    have accounted := account_accounted capacity ops
    rw [← account_history, account_concat]
    rw [← account_history] at ih
    cases op with
    | pop =>
      obtain ⟨entries, -, longer⟩ := (account capacity ops).step_pop
      rw [entries]
      exact fun entry member => le_trans (ih entry member) longer
    | push side event =>
      intro entry member
      have grown := Account.grown accounted.width accounted.sound.listening side event
      rcases grown.mem member with ⟨old, inside, same, -⟩ | rfl | ⟨held, rfl⟩
      · rw [same]
        exact ih old inside
      · exact le_refl _
      · exact le_refl _

theorem run_one_motion [Add F] {front middle back : List (Item F)} {first second : Item F}
    (split : (run capacity ops).state.events = front ++ first :: (middle ++ second :: back))
    (moves : IsMotion first) (follows : IsMotion second) (between : ∀ item ∈ middle, IsMotion item) :
    first.1 ≠ second.1 := by
  intro here
  have items := Account.entries_items (account_accounted capacity ops).width
  rw [account_history, stream, split, ← append_assoc] at items
  obtain ⟨front', tail, whole, frontEq, tailEq⟩ := map_eq_append_iff.mp items
  obtain ⟨first', rest, rfl, rfl, restEq⟩ := map_eq_cons_iff.mp tailEq
  obtain ⟨middle', last, rfl, rfl, lastEq⟩ := map_eq_append_iff.mp restEq
  obtain ⟨second', back', rfl, rfl, -⟩ := map_eq_cons_iff.mp lastEq
  have early := account_spaced capacity ops front' first' middle' second' back' whole moves
    follows here fun entry member => between entry.1 (mem_map_of_mem member)
  have late := account_taken capacity ops second' (by simp [whole])
  have width := congrArg List.length frontEq
  rw [length_map, length_append] at width
  omega

/-! ## Taking everything -/

/-- A queue with something waiting gives it away. -/
theorem pop_cons {state : State F} {rest : List (Item F)} (events : state.events = item :: rest) :
    ∃ next note, state.pop = some (item, next, note) ∧ next.events = rest := by
  unfold State.pop
  simp only [events]
  by_cases last : rest.isEmpty = true
  · rw [if_pos last]
    exact ⟨_, _, rfl, rfl⟩
  · rw [if_neg last]
    exact ⟨_, _, rfl, rfl⟩

theorem pops_delivered [Add F] (history : History F) (count : Nat) :
    ((List.replicate count Op.pop).foldl step history).delivered =
      history.delivered ++ history.state.events.take count := by
  induction count generalizing history with
  | zero => simp
  | succ count ih =>
    rw [replicate_succ, foldl_cons, ih]
    cases events : history.state.events with
    | nil =>
      have stays : history.step .pop = history := by
        simp [step, State.pop, events]
      simp [stays, events]
    | cons item rest =>
      obtain ⟨next, note, popped, left⟩ := pop_cons events
      have stepped : history.step .pop =
          { history with state := next, delivered := history.delivered ++ [item] } := by
        simp [step, popped]
      simp [stepped, left]

/-- A consumer that takes everything has taken the whole stream. -/
theorem drained_delivered [Add F] {count : Nat}
    (enough : (run capacity ops).state.events.length ≤ count) :
    (run capacity (ops ++ List.replicate count .pop)).delivered = (run capacity ops).stream := by
  rw [run_append, pops_delivered, take_of_length_le enough, stream]

/--
For every capacity and every interleaving of pushes and pops, of the stream the
consumer takes: what the queue made up are releases, without them and without
motion it is a subsequence of what was pushed, each entry the event of the push
it comes from, with every `Begin`; all of it in order when no push found the
queue at capacity; every position moves as far between two entries other than
motion as it was pushed there; and no two motions of one position wait with
nothing but motion between them.
-/
theorem no_loss [AddCommGroup F] (capacity : Nat) (ops : List (Op F)) :
    (∀ count, (run capacity ops).state.events.length ≤ count →
      (run capacity (ops ++ List.replicate count .pop)).delivered = (run capacity ops).stream) ∧
    (account capacity ops).entries.map Prod.fst = (run capacity ops).stream ∧
    (∀ entry ∈ (account capacity ops).entries, entry.2.madeUp = true →
      ∃ held : Held, entry.1.2 = held.release) ∧
    (∀ entry ∈ (account capacity ops).entries, ¬ IsMotion entry.1 → entry.2.madeUp = false →
      (run capacity ops).pushed[entry.2.push]? = some entry.1) ∧
    (genuine (account capacity ops).entries).Sublist (withoutMotion (run capacity ops).pushed) ∧
    begins (run capacity ops).stream = begins (run capacity ops).pushed ∧
    (NeverFull capacity ops →
      withoutMotion (run capacity ops).stream = withoutMotion (run capacity ops).pushed) ∧
    (∀ pos, MotionKept pos (account capacity ops).entries (run capacity ops).pushed) ∧
    Spaced (account capacity ops).entries ∧
    ∀ front first middle second back,
      (run capacity ops).state.events = front ++ first :: (middle ++ second :: back) →
      IsMotion first → IsMotion second → (∀ item ∈ middle, IsMotion item) →
      first.1 ≠ second.1 := by
  have accounted := account_accounted capacity ops
  have items := Account.entries_items accounted.width
  have crossings := accounted.crossings
  rw [items] at crossings
  rw [account_history] at items crossings
  refine ⟨fun count enough => drained_delivered capacity ops enough, items,
    accounted.release_only, ?_, ?_, crossings, fun room => room.kept.2,
    account_motionKept capacity ops, account_spaced capacity ops, ?_⟩
  · rw [← account_history]
    exact accounted.from_push
  · rw [← account_history]
    exact accounted.in_order
  · intro front first middle second back split moves follows between
    exact run_one_motion capacity ops split moves follows between

/-- A motion summed behind a key that was taken: all of it is delivered. -/
theorem no_loss_with_room :
    let ops : List (Op Int) :=
      [.push .left (.input (.keyboard (.key 0 30 1))), .pop,
        .push .left (.input (.pointer (.motion 0 2 3))),
        .push .left (.input (.pointer (.motion 1 4 5))),
        .push .left (.input (.keyboard (.key 0 30 0)))]
    NeverFull 1 ops ∧ withoutMotion (run 1 ops).stream = withoutMotion (run 1 ops).pushed ∧
      total .left (run 1 ops).stream = (6, 8) := by
  intro ops
  have room : NeverFull 1 ops := by
    intro first pos event rest split still
    rcases first with _ | ⟨a, _ | ⟨b, _ | ⟨c, _ | ⟨d, _ | ⟨e, first⟩⟩⟩⟩⟩
    · decide
    · simp [ops] at split
    · obtain ⟨rfl, rfl, same, -⟩ := by simpa [ops] using split
      exact absurd ⟨2, 3, by rw [← same.2]; rfl⟩ still
    · obtain ⟨rfl, rfl, rfl, same, -⟩ := by simpa [ops] using split
      exact absurd ⟨4, 5, by rw [← same.2]; rfl⟩ still
    · obtain ⟨rfl, rfl, rfl, rfl, -⟩ := by simpa [ops] using split
      decide
    · simp [ops] at split
  exact ⟨room, (no_loss 1 ops).2.2.2.2.2.2.1 room, by decide⟩

end HopsFormal.Capture.EventQueue
