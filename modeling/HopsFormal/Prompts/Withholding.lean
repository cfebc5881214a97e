import HopsFormal.Prompts.RateLimits

/-!
# Prompts that may still be answered

A prompt that was admitted is handed back for as long as the window it was admitted in
has stayed open, and not after a gap.  The gate keeps when the window last opened
while it was closed; that this says the same as having been open at every moment is
shown over the calls between.
-/

namespace HopsFormal.Prompts

open List Lib
open Prompter PromptGate

/-! ## The window -/

namespace PromptGate

def isOpen (gate : PromptGate) (now : Nat) : Prop := (gate.remaining now).isSome = true

variable {gate : PromptGate} {now : Nat}

theorem isOpen_iff :
    gate.isOpen now ↔ ∃ opened, gate.opened = some opened ∧ now - opened < window := by
  unfold isOpen remaining
  cases gate.opened with
  | none => simp
  | some opened =>
    rw [Option.bind_some]
    by_cases late : now - opened ≤ window
    · rw [if_pos late, Option.filter_some]
      simp only [Option.some.injEq, exists_eq_left']
      split
      · next left =>
        rw [decide_eq_true_eq] at left
        exact ⟨fun _ => by omega, fun _ => rfl⟩
      · next spent =>
        rw [decide_eq_true_eq, not_not] at spent
        exact ⟨nofun, fun _ => by omega⟩
    · rw [if_neg late]
      simp only [Option.some.injEq, exists_eq_left']
      exact ⟨nofun, fun _ => by omega⟩

theorem isOpen_mono {time : Nat} (before : time ≤ now) (shown : gate.isOpen now) :
    gate.isOpen time := by
  obtain ⟨opened, isOpened, left⟩ := isOpen_iff.mp shown
  exact isOpen_iff.mpr ⟨opened, isOpened, by omega⟩

theorem openThroughout_iff {admitted : Nat} : gate.openThroughout admitted now = true ↔
      gate.isOpen now ∧ ∃ since, gate.openSince = some since ∧ since ≤ admitted := by
  unfold openThroughout isOpen
  rw [Bool.and_eq_true, Option.any_eq_true]
  simp only [decide_eq_true_eq]

theorem isOpen_open (gate : PromptGate) (now : Nat) : (gate.open_ now).isOpen now :=
  isOpen_iff.mpr ⟨now, rfl, by rw [Nat.sub_self]; decide⟩

theorem admit_window (gate : PromptGate) (fp : String) (ip : Option IpAddr) (now : Nat) :
    (gate.admit_ fp ip now).2.opened = gate.opened ∧
      (gate.admit_ fp ip now).2.openSince = gate.openSince := by
  have answered := gate.admits fp ip now
  generalize gate.admit_ fp ip now = out at answered
  cases answered with
  | closed shut | throttled shown taken | repeat_ reaches found recent | prompt reaches fresh =>
    exact ⟨rfl, rfl⟩

end PromptGate

theorem step_window (prompter : Prompter) (call : Call) :
    (∃ now, call = .open_ now ∧ (prompter.step call).gate = prompter.gate.open_ now) ∨
      (prompter.step call).gate.opened = prompter.gate.opened ∧
        (prompter.step call).gate.openSince = prompter.gate.openSince := by
  cases call with
  | open_ now => exact .inl ⟨now, rfl, rfl⟩
  | admit_ fingerprint ip now => exact .inr (prompter.gate.admit_window fingerprint ip now)
  | hold fingerprint origin addr now | take fingerprint now | replay now | forget fingerprint =>
    exact .inr ⟨rfl, rfl⟩

/-! ## Open at every moment -/

/-- When a call is made; one that does not ask for the time is made when the last was. -/
def Call.at_ (call : Call) (clock : Nat) : Nat := call.time.getD clock

theorem Call.at_at (call : Call) (clock : Nat) : call.at_ (call.at_ clock) = call.at_ clock := by
  unfold Call.at_
  cases call.time <;> rfl

/-- The window is open at every moment from `clock` on, through some calls, until `now`. -/
def StaysOpen (prompter : Prompter) (clock : Nat) : List Call → Nat → Prop
  | [], now => ∀ time, clock ≤ time → time ≤ now → prompter.gate.isOpen time
  | call :: rest, now =>
    (∀ time, clock ≤ time → time ≤ call.at_ clock → prompter.gate.isOpen time) ∧
      StaysOpen (prompter.step call) (call.at_ clock) rest now

/-- Calls in order, from one moment to another. -/
def Between (clock : Nat) : List Call → Nat → Prop
  | [], now => clock ≤ now
  | call :: rest, now => clock ≤ call.at_ clock ∧ Between (call.at_ clock) rest now

/-- The window a prompt was admitted in is still open. -/
structure Linked (gate : PromptGate) (clock admitted : Nat) : Prop where
  isOpen : gate.isOpen clock
  since : ∃ since, gate.openSince = some since ∧ since ≤ admitted
  after : admitted ≤ clock

/-- The window a prompt was admitted in has closed. -/
def Broken (gate : PromptGate) (clock admitted : Nat) : Prop :=
  (∃ since, gate.openSince = some since ∧ admitted < since ∧ since ≤ clock) ∨
    admitted < clock ∧ ¬ gate.isOpen clock

theorem isOpen_congr {gate next : PromptGate} (same : next.opened = gate.opened) (time : Nat) :
    next.isOpen time ↔ gate.isOpen time := by
  rw [isOpen_iff, isOpen_iff, same]

variable {prompter : Prompter} {clock admitted time now : Nat} {call : Call} {calls : List Call}
  {fingerprint : String} {attempt : PendingAttempt}

theorem Linked.step (linked : Linked prompter.gate clock admitted)
    (forward : clock ≤ call.at_ clock) (shown : prompter.gate.isOpen (call.at_ clock)) :
    Linked (prompter.step call).gate (call.at_ clock) admitted := by
  refine ⟨?_, ?_, linked.after.trans forward⟩
  · rcases step_window prompter call with ⟨now, rfl, opens⟩ | ⟨opened, -⟩
    · rw [opens]
      exact prompter.gate.isOpen_open now
    · exact (isOpen_congr opened _).mpr shown
  · rcases step_window prompter call with ⟨now, rfl, opens⟩ | ⟨-, since⟩
    · have left : (prompter.gate.remaining now).isNone = false := by
        rw [← Option.not_isSome, Bool.not_eq_false']
        exact shown
      rw [opens, open_, left]
      exact linked.since
    · rw [since]
      exact linked.since

theorem Broken.step (broken : Broken prompter.gate clock admitted)
    (forward : clock ≤ call.at_ clock) :
    Broken (prompter.step call).gate (call.at_ clock) admitted := by
  rcases step_window prompter call with ⟨now, rfl, opens⟩ | ⟨opened, since⟩
  · change clock ≤ now at forward
    change Broken _ now admitted
    rw [opens]
    rcases broken with ⟨since, isSince, later, before⟩ | ⟨later, shut⟩
    · left
      by_cases left : (prompter.gate.remaining now).isNone = true
      · exact ⟨now, by rw [open_, if_pos left], by omega, le_rfl⟩
      · exact ⟨since, by rw [open_, if_neg left]; exact isSince, later, by omega⟩
    · have closed : (prompter.gate.remaining now).isNone = true := by
        rw [← Option.not_isSome, Bool.not_eq_true']
        exact Bool.eq_false_iff.mpr fun shown => shut (isOpen_mono forward shown)
      exact .inl ⟨now, by rw [open_, if_pos closed], by omega, le_rfl⟩
  · rcases broken with ⟨when, isSince, later, before⟩ | ⟨later, shut⟩
    · exact .inl ⟨when, since.trans isSince, later, before.trans forward⟩
    · refine .inr ⟨later.trans_le forward, fun shown => shut ?_⟩
      exact isOpen_mono forward ((isOpen_congr opened _).mp shown)

/-- A window that closes before a call has broken by then. -/
theorem Linked.breaks (linked : Linked prompter.gate clock admitted) (forward : clock ≤ time)
    (shut : ¬ prompter.gate.isOpen time) : Broken prompter.gate time admitted := by
  refine .inr ⟨lt_of_le_of_ne (linked.after.trans forward) ?_, shut⟩
  rintro rfl
  have same : clock = admitted := le_antisymm forward linked.after
  exact shut (same ▸ linked.isOpen)

theorem Broken.run (broken : Broken prompter.gate clock admitted)
    (between : Between clock calls now) :
    ¬ (prompter.run calls).gate.openThroughout admitted now = true := by
  induction calls generalizing prompter clock with
  | nil =>
    rw [openThroughout_iff]
    rintro ⟨shown, since, isSince, before⟩
    rcases broken with ⟨other, isOther, later, -⟩ | ⟨-, shut⟩
    · obtain rfl := Option.some.inj (isSince.symm.trans isOther)
      omega
    · exact shut (isOpen_mono between shown)
  | cons call rest ih => exact ih (broken.step between.1) between.2

theorem openThroughout_run (linked : Linked prompter.gate clock admitted)
    (between : Between clock calls now) :
    (prompter.run calls).gate.openThroughout admitted now = true ↔
      StaysOpen prompter clock calls now := by
  induction calls generalizing prompter clock with
  | nil =>
    rw [openThroughout_iff]
    constructor
    · rintro ⟨shown, -⟩ time - before
      exact isOpen_mono before shown
    · intro stays
      exact ⟨stays now between le_rfl, linked.since⟩
  | cons call rest ih =>
    by_cases shown : prompter.gate.isOpen (call.at_ clock)
    · have next := ih (linked.step between.1 shown) between.2
      refine next.trans ⟨fun stays => ⟨fun time _ before => ?_, stays⟩, And.right⟩
      exact isOpen_mono before shown
    · have broken := linked.breaks between.1 shown
      refine iff_of_false ?_ fun stays => shown (stays.1 _ between.1 le_rfl)
      have still : Broken (prompter.step call).gate (call.at_ clock) admitted := by
        have forward : call.at_ clock ≤ call.at_ (call.at_ clock) := (call.at_at clock).ge
        have next := broken.step forward
        rwa [call.at_at] at next
      exact still.run between.2

/-! ## The prompts that are held -/

theorem mem_expire {pending : PendingAttempts} {gate : PromptGate} :
    (pending.expire gate now).held.lookup fingerprint = some attempt ↔
      pending.held.lookup fingerprint = some attempt ∧
        gate.openThroughout attempt.admitted now = true := by
  rw [PendingAttempts.expire, Table.lookup_retain, Option.filter_eq_some_iff]

theorem held_of_run
    (held : (start.run calls).pending.held.lookup fingerprint = some attempt) :
    ∃ before after, calls = before ++
      .hold fingerprint attempt.origin attempt.addr attempt.admitted :: after := by
  induction calls using reverseRecOn with
  | nil => cases held
  | append_singleton calls call ih =>
    have earlier : (start.run calls).pending.held.lookup fingerprint = some attempt →
        ∃ before after, calls ++ [call] = before ++
          .hold fingerprint attempt.origin attempt.addr attempt.admitted :: after := by
      intro before
      obtain ⟨front, back, rfl⟩ := ih before
      exact ⟨front, back ++ [call], by simp⟩
    rw [run_concat] at held
    generalize start.run calls = prompter at held earlier
    cases call with
    | open_ now | admit_ other ip now => exact earlier held
    | hold other origin addr now =>
      rcases Table.lookup_of_insert held with ⟨rfl, rfl⟩ | before
      · exact ⟨calls, [], rfl⟩
      · split at before
        · cases before
        · exact earlier (mem_expire.mp before).1
    | take other now => exact earlier (mem_expire.mp (Table.lookup_of_erase held).2).1
    | replay now => exact earlier (mem_expire.mp held).1
    | forget other => exact earlier (Table.lookup_of_erase held).2

/-- A call forgets, takes or replaces the dial of a machine. -/
def Call.drops (fingerprint : String) : Call → Bool
  | .hold other _ _ _ | .take other _ | .forget other => other = fingerprint
  | _ => false

/-- A step evicts everything that is held, which is as much as the bound allows. -/
def evicts (taken : Prompter × Call) : Bool :=
  match taken.2 with
  | .hold _ _ _ now =>
    maxPendingAttempts ≤ (taken.1.pending.expire taken.1.gate now).held.size
  | _ => false

theorem held_step (linked : Linked prompter.gate clock attempt.admitted)
    (held : prompter.pending.held.lookup fingerprint = some attempt)
    (shown : prompter.gate.isOpen (call.at_ clock)) (spares : call.drops fingerprint = false)
    (room : evicts (prompter, call) = false) :
    (prompter.step call).pending.held.lookup fingerprint = some attempt := by
  have stays : ∀ now, call.at_ clock = now →
      (prompter.pending.expire prompter.gate now).held.lookup fingerprint = some attempt := by
    rintro now rfl
    exact mem_expire.mpr ⟨held, openThroughout_iff.mpr ⟨shown, linked.since⟩⟩
  cases call with
  | open_ now | admit_ other ip now => exact held
  | hold other origin addr now =>
    have apart : fingerprint ≠ other := fun same => of_decide_eq_false spares same.symm
    refine (AList.lookup_insert_ne apart).trans ?_
    rw [if_neg (of_decide_eq_false room)]
    exact stays now rfl
  | take other now =>
    have apart : fingerprint ≠ other := fun same => of_decide_eq_false spares same.symm
    exact (AList.lookup_erase_ne apart).trans (stays now rfl)
  | replay now => exact stays now rfl
  | forget other =>
    have apart : fingerprint ≠ other := fun same => of_decide_eq_false spares same.symm
    exact (AList.lookup_erase_ne apart).trans held

theorem held_run (linked : Linked prompter.gate clock attempt.admitted)
    (held : prompter.pending.held.lookup fingerprint = some attempt)
    (between : Between clock calls now) (stays : StaysOpen prompter clock calls now)
    (spares : ∀ call ∈ calls, call.drops fingerprint = false)
    (room : ∀ taken ∈ trace step prompter calls, evicts taken = false) :
    (prompter.run calls).pending.held.lookup fingerprint = some attempt ∧
      (prompter.run calls).gate.openThroughout attempt.admitted now = true := by
  refine ⟨?_, (openThroughout_run linked between).mpr stays⟩
  induction calls generalizing prompter clock with
  | nil => exact held
  | cons call rest ih =>
    have shown := stays.1 _ between.1 le_rfl
    exact ih (linked.step between.1 shown)
      (held_step linked held shown (spares call mem_cons_self) (room _ mem_cons_self))
      between.2 stays.2 (fun other member => spares other (mem_cons_of_mem _ member))
      (fun taken member => room taken (mem_cons_of_mem _ member))

/-! ## From the admission on -/

/-- A window that was opened was opened by the last call. -/
theorem since_run {opened : Nat} (isBy : By calls now)
    (isOpened : (start.run calls).gate.opened = some opened) :
    ∃ since, (start.run calls).gate.openSince = some since ∧ since ≤ now := by
  induction calls using reverseRecOn generalizing opened with
  | nil => cases isOpened
  | append_singleton calls call ih =>
    rw [run_concat] at isOpened ⊢
    rcases step_window (start.run calls) call with ⟨time, rfl, opens⟩ | ⟨same, since⟩
    · rw [opens, open_]
      split
      · exact ⟨time, rfl, isBy.before.2 time rfl⟩
      · next left =>
        cases before : (start.run calls).gate.opened with
        | none =>
          rw [remaining, before] at left
          exact absurd rfl left
        | some earlier => exact ih isBy.before.1 before
    · rw [same] at isOpened
      rw [since]
      exact ih isBy.before.1 isOpened

theorem linked_admission {earlier : List Call} {ip : Option IpAddr} (isBy : By earlier time)
    (prompts : (start.run earlier).answer (.admit_ fingerprint ip time) =
      .admits .prompt) : Linked (start.run earlier).gate time time := by
  have reaches := reaches_of_prompt (Answer.admits.inj prompts)
  rw [PromptGate.reaches, Bool.and_eq_true] at reaches
  obtain ⟨opened, isOpened, -⟩ := isOpen_iff.mp reaches.1
  exact ⟨reaches.1, since_run isBy isOpened, le_rfl⟩

theorem between_of (ordered : InOrder calls)
    (after : ∀ time ∈ calls.filterMap Call.time, clock ≤ time) (isBy : By calls now)
    (forward : clock ≤ now) : Between clock calls now := by
  induction calls generalizing clock with
  | nil => exact forward
  | cons call rest ih =>
    unfold InOrder at ordered
    unfold By at isBy
    cases made : call.time with
    | none =>
      rw [filterMap_cons_none made] at ordered after isBy
      rw [Between, Call.at_, made]
      exact ⟨le_rfl, ih ordered after isBy forward⟩
    | some time =>
      rw [filterMap_cons_some made] at ordered after isBy
      rw [pairwise_cons] at ordered
      rw [Between, Call.at_, made]
      exact ⟨after time mem_cons_self, ih ordered.2 ordered.1
        (fun other member => isBy other (mem_cons_of_mem _ member))
        (isBy time mem_cons_self)⟩

theorem between_split {earlier rest : List Call} (ordered : InOrder calls) (isBy : By calls now)
    (split : calls = earlier ++ call :: rest) (made : call.time = some time) :
    By earlier time ∧ Between time (call :: rest) now := by
  subst split
  have whole := ordered
  unfold InOrder at whole
  rw [filterMap_append, filterMap_cons_some made, pairwise_append] at whole
  obtain ⟨-, tail, across⟩ := whole
  refine ⟨fun other member => across other member time mem_cons_self, between_of ?_ ?_ ?_ ?_⟩
  · unfold InOrder
    rw [filterMap_cons_some made]
    exact tail
  · rw [filterMap_cons_some made]
    intro other member
    rcases mem_cons.mp member with rfl | later
    · exact le_rfl
    · exact (pairwise_cons.mp tail).1 other later
  · unfold By at isBy ⊢
    rw [filterMap_append] at isBy
    exact fun other member => isBy other (mem_append_right _ member)
  · refine isBy time ?_
    rw [filterMap_append, filterMap_cons_some made]
    exact mem_append_right _ mem_cons_self

theorem Linked.append {front back : List Call} (linked : Linked prompter.gate clock admitted)
    (between : Between clock (front ++ back) now)
    (stays : StaysOpen prompter clock (front ++ back) now) :
    ∃ clock', Linked (prompter.run front).gate clock' admitted ∧ Between clock' back now ∧
      StaysOpen (prompter.run front) clock' back now := by
  induction front generalizing prompter clock with
  | nil => exact ⟨clock, linked, between, stays⟩
  | cons call rest ih =>
    exact ih (linked.step between.1 (stays.1 _ between.1 le_rfl)) between.2 stays.2

/-- A held dial was admitted, and the window has been open at every moment since. -/
def Vouched (calls : List Call) (fingerprint : String) (attempt : PendingAttempt) (now : Nat) :
    Prop :=
  ∃ earlier ip later, calls = earlier ++ .admit_ fingerprint ip attempt.admitted :: later ∧
    (start.run earlier).answer (.admit_ fingerprint ip attempt.admitted) = .admits .prompt ∧
    .hold fingerprint attempt.origin attempt.addr attempt.admitted ∈ later ∧
    StaysOpen (start.run earlier) attempt.admitted
      (.admit_ fingerprint ip attempt.admitted :: later) now

/-- What is held was admitted by the gate, at the moment it is held. -/
def HoldsAdmitted (calls : List Call) : Prop :=
  ∀ before fingerprint origin addr time after,
    calls = before ++ .hold fingerprint origin addr time :: after →
      ∃ earlier ip between, before = earlier ++ .admit_ fingerprint ip time :: between ∧
        (start.run earlier).answer (.admit_ fingerprint ip time) = .admits .prompt

theorem vouched (ordered : InOrder calls) (admitted : HoldsAdmitted calls) (isBy : By calls now)
    (held : (start.run calls).pending.held.lookup fingerprint = some attempt)
    (through : (start.run calls).gate.openThroughout attempt.admitted now = true) :
    Vouched calls fingerprint attempt now := by
  obtain ⟨before, after, split⟩ := held_of_run held
  obtain ⟨earlier, ip, between, rfl, prompts⟩ := admitted _ _ _ _ _ _ split
  rw [append_assoc, cons_append] at split
  obtain ⟨earlierBy, ahead⟩ := between_split ordered isBy split rfl
  refine ⟨earlier, ip, _, split, prompts, ?_, ?_⟩
  · exact mem_append_right _ mem_cons_self
  · rw [split, run_append] at through
    exact (openThroughout_run (linked_admission earlierBy prompts) ahead).mp through

/--
What a take hands back was admitted in a window that has been open without a gap until
now; it is handed back whenever that is so and it was not dropped or evicted; and all that
is shown again was admitted in such a window.
-/
theorem prompt_withholding {calls : List Call} (ordered : InOrder calls)
    (admitted : HoldsAdmitted calls) {now : Nat} (isBy : By calls now) :
    (∀ fingerprint attempt, (start.run calls).answer (.take fingerprint now) =
        .taken (some attempt) → Vouched calls fingerprint attempt now) ∧
    (∀ earlier fingerprint ip time between origin addr after,
      calls = earlier ++ .admit_ fingerprint ip time ::
          (between ++ .hold fingerprint origin addr time :: after) →
        (start.run earlier).answer (.admit_ fingerprint ip time) = .admits .prompt →
        StaysOpen (start.run earlier) time (.admit_ fingerprint ip time ::
          (between ++ .hold fingerprint origin addr time :: after)) now →
        (∀ call ∈ after, call.drops fingerprint = false) →
        (∀ taken ∈ trace step (start.run (earlier ++
            .admit_ fingerprint ip time :: (between ++ [.hold fingerprint origin addr time])))
          after, evicts taken = false) →
        (start.run calls).answer (.take fingerprint now) = .taken (some ⟨origin, addr, time⟩)) ∧
    ∀ shown, (start.run calls).answer (.replay now) = .shown shown →
      ∀ row ∈ shown, Vouched calls row.1 row.2 now := by
  refine ⟨?_, ?_, ?_⟩
  · intro fingerprint attempt handed
    obtain ⟨held, through⟩ := mem_expire.mp (Answer.taken.inj handed)
    exact vouched ordered admitted isBy held through
  · intro earlier fingerprint ip time between origin addr after split prompts stays spares room
    obtain ⟨earlierBy, ahead⟩ := between_split ordered isBy split rfl
    have regroup : Call.admit_ fingerprint ip time ::
        (between ++ .hold fingerprint origin addr time :: after) =
          (.admit_ fingerprint ip time :: (between ++ [.hold fingerprint origin addr time])) ++
            after := by
      rw [cons_append, append_assoc, singleton_append]
    rw [regroup] at split ahead stays
    obtain ⟨clock, linked, left, open_⟩ :=
      (linked_admission earlierBy prompts).append ahead stays
    rw [← run_append] at linked open_
    have holds : (start.run (earlier ++ .admit_ fingerprint ip time ::
        (between ++ [.hold fingerprint origin addr time]))).pending.held.lookup fingerprint =
          some ⟨origin, addr, time⟩ := by
      rw [← cons_append, ← append_assoc, run_concat]
      exact AList.lookup_insert _
    obtain ⟨held, through⟩ := held_run linked holds left open_ spares room
    rw [split, ← append_assoc, run_append]
    exact congrArg Answer.taken (mem_expire.mpr ⟨held, through⟩)
  · intro shown answers row member
    rw [← Answer.shown.inj answers] at member
    obtain ⟨entry, kept, rfl⟩ := mem_map.mp member
    obtain ⟨held, through⟩ := mem_expire.mp (AList.mem_lookup_iff.mpr (mem_filter.mp kept).1)
    exact vouched ordered admitted isBy held through

/--
Our own dial reaches a laptop and its prompt is held, the window lapses, and add device is
opened again: a dial reaches the desk, and the window is opened once more while it is held.
-/
def reached : List Call :=
  [.open_ 0, .admit_ "laptop" none 1, .hold "laptop" .outboundDial none 1,
    .open_ (fromSecs 200), .admit_ "desk" none (fromSecs 201),
    .hold "desk" .outboundDial none (fromSecs 201), .open_ (fromSecs 202)]

theorem prompt_withholding_reached :
    (start.run reached).answer (.take "laptop" (fromSecs 203)) = .taken none ∧
      (start.run reached).answer (.take "desk" (fromSecs 203)) =
        .taken (some ⟨.outboundDial, none, fromSecs 201⟩) ∧
      Vouched reached "desk" ⟨.outboundDial, none, fromSecs 201⟩ (fromSecs 203) := by
  have admitted : HoldsAdmitted reached := by
    intro before fingerprint origin addr time after split
    have place : before.length < 7 := by
      have size := congrArg List.length split
      rw [length_append, length_cons] at size
      have seven : reached.length = 7 := rfl
      omega
    have front : before = reached.take before.length := by
      rw [split, take_left]
    have here : reached[before.length]? = some (.hold fingerprint origin addr time) := by
      rw [split, getElem?_append_right le_rfl, Nat.sub_self]
      rfl
    generalize before.length = place' at place front here
    subst front
    obtain rfl | rfl | rfl | rfl | rfl | rfl | rfl : place' = 0 ∨ place' = 1 ∨ place' = 2 ∨
        place' = 3 ∨ place' = 4 ∨ place' = 5 ∨ place' = 6 := by omega
    all_goals cases here
    · exact ⟨[.open_ 0], none, [], rfl, by decide⟩
    · exact ⟨reached.take 4, none, [], rfl, by decide⟩
  have facts := @prompt_withholding reached (by decide) admitted (fromSecs 203) (by decide)
  have handed : (start.run reached).answer (.take "desk" (fromSecs 203)) =
      .taken (some ⟨.outboundDial, none, fromSecs 201⟩) := by decide
  exact ⟨by decide, handed, facts.1 "desk" _ handed⟩

end HopsFormal.Prompts
