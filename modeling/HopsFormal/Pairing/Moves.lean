import HopsFormal.Pairing.Works
import HopsFormal.Trust.Waiting

/-!
# What one step can do to one pairing

`view` is what a machine has about one other, and `Moves` lists everything a
step can do to it.  Each invariant below is proved against this list.
-/

namespace HopsFormal.Pairing

open Option Function Trust TrustStore Machine Desk Fingerprint

/-- All a machine has about one other: its lease, the board and tasks, and the events waiting. -/
structure View where
  lease : Option Bool
  talk : Talk
  queue : List Told
  attempts : Nat

/-- The events of a queue that are about `fp`, in order. -/
@[grind =]
def about (fp : Fingerprint) (queue : List (Fingerprint × Told)) : List Told :=
  (queue.filter fun entry => entry.1 = fp).map Prod.snd

@[simp]
theorem about_append (fp : Fingerprint) (first rest : List (Fingerprint × Told)) :
    about fp (first ++ rest) = about fp first ++ about fp rest := by
  simp [about]

@[simp]
theorem about_told (fp : Fingerprint) (told : List Told) :
    about fp (told.map fun event => (fp, event)) = told := by
  simp [about, List.filter_map, comp_def]

variable {fp : Fingerprint}

theorem about_told_other {other : Fingerprint} (different : other ≠ fp) (told : List Told) :
    about fp (told.map fun event => (other, event)) = [] := by
  simp [about, List.filter_map, comp_def, different]

theorem about_cons (fp : Fingerprint) (told : Told) (rest : List (Fingerprint × Told)) :
    about fp ((fp, told) :: rest) = told :: about fp rest := by
  simp [about]

theorem about_cons_other {other : Fingerprint} (different : other ≠ fp) (told : Told)
    (rest : List (Fingerprint × Told)) : about fp ((other, told) :: rest) = about fp rest := by
  simp [about, different]

theorem mem_about {told : Told} {queue : List (Fingerprint × Told)} :
    told ∈ about fp queue ↔ (fp, told) ∈ queue := by
  simp [about]

namespace Talk

/-- The number goes off screen and the attempt held is over. -/
def ended (talk : Talk) : Talk := { talk with slot := talk.slot.end_, ceremony := none }

def unapproved (talk : Talk) : Talk := { talk with approved := false }

end Talk

def Machine.view (machine : Machine) (fp : Fingerprint) : View where
  lease := machine.store.waiting fp.1
  talk := machine.talks fp
  queue := about fp machine.queue
  attempts := machine.attempts

/-- What a machine relies on of its store. -/
structure Machine.Sound (machine : Machine) : Prop where
  formed : Formed machine.store
  driven : Driven machine.store

theorem view_atDesk (machine : Machine) (fp : Fingerprint) (desk : Desk) :
    (machine.atDesk fp desk).view fp =
      { machine.view fp with lease := desk.store.waiting fp.1, talk := desk.talk } := by
  simp [view, atDesk]

section Lowercase

variable [Lowercase]

/-- Everything a step can do to what a machine has about `fp`. -/
inductive Moves (machine : Machine) (fp : Fingerprint) : Act → View → Prop where
  | elsewhere {act : Act} {attempts : Nat} (grown : machine.attempts ≤ attempts) :
      Moves machine fp act { machine.view fp with attempts }
  | busy {act : Act} {conn : Nat} {role : Role} (unused : (machine.talks fp).tasks conn = none) :
      Moves machine fp act
        { machine.view fp with talk := (machine.talks fp).setTask conn role .isOver }
  | begins {act : Act} {conn : Nat} {role : Role} {arriving : Arriving}
      (asked : (∃ reading, act = .accept fp conn reading ∧ role = .pick ∧
          machine.store.isPairing reading fp.1 = true) ∨ act = .dial fp conn ∧ role = .show_)
      (unused : (machine.talks fp).tasks conn = none)
      (free : (machine.talks fp).slot.held = none)
      (counted : (machine.talks fp).slot.arriving = some arriving ∧ arriving.sent = false ∧
          arriving.told = false ∨
        (machine.talks fp).slot.arriving = none ∧ arriving = {}) :
      Moves machine fp act
        { machine.view fp with
          talk := ({ machine.talks fp with
            slot := { (machine.talks fp).slot with
              arriving := some (arriving.count (keeps role machine.store.ours fp.1) (· + 1)) } }
            ).setTask conn role (.arriving ⟨keeps role machine.store.ours fp.1,
              machine.attempts + 1⟩)
          attempts := machine.attempts + 1 }
  | works {conn : Nat} {act : TaskAct} {role : Role} {phase : Phase} {talk : Talk}
      {told : List Told} (found : (machine.talks fp).tasks conn = some ⟨role, phase⟩)
      (does : Works (machine.talks fp) conn role phase act talk told) :
      Moves machine fp (.task fp conn act)
        { machine.view fp with talk, queue := (machine.view fp).queue ++ told }
  | shown {reading : Nat} {randomness : Bool} {told : Told} {rest : List Told} {role : Role}
      {number : String} {attempt : Nat} {theirs : Option Answer}
      {disagree : Option (Answer × Answer)} (first : machine.queue.head? = some (fp, told))
      (queued : (machine.view fp).queue = told :: rest)
      (event : told.event = .number role number attempt theirs)
      (waits : (machine.view fp).lease = some false) :
      Moves machine fp (.dequeue reading randomness)
        { machine.view fp with
          talk := { machine.talks fp with
            ceremony := some ⟨role, attempt, number, false, disagree⟩ }
          queue := rest }
  | unshown {reading : Nat} {randomness : Bool} {told : Told} {rest : List Told} {role : Role}
      {number : String} {attempt : Nat} {theirs : Option Answer}
      (first : machine.queue.head? = some (fp, told))
      (queued : (machine.view fp).queue = told :: rest)
      (event : told.event = .number role number attempt theirs)
      (unpaired : machine.store.isPairing reading fp.1 = false) :
      Moves machine fp (.dequeue reading randomness)
        { machine.view fp with talk := (machine.talks fp).ended, queue := rest }
  | settles {reading : Nat} {randomness : Bool} {told : Told} {rest : List Told}
      {ceremony : Ceremony} {confirmed : Bool} (first : machine.queue.head? = some (fp, told))
      (queued : (machine.view fp).queue = told :: rest)
      (event : told.event = .peerConfirmed)
      (onScreen : (machine.talks fp).ceremony = some ceremony)
      (answered : ceremony.answered = true)
      (leased : (machine.view fp).lease = some confirmed) :
      Moves machine fp (.dequeue reading randomness)
        { machine.view fp with
          lease := some true
          talk := { machine.talks fp with
            slot := (machine.talks fp).slot.settled
            ceremony := none
            approved := false }
          queue := rest }
  | abandons {reading : Nat} {randomness : Bool} {told : Told} {rest : List Told}
      (queued : (machine.view fp).queue = told :: rest)
      (event : ∀ why attempt, told.event ≠ .ended why attempt) :
      Moves machine fp (.dequeue reading randomness)
        { machine.view fp with
          lease := unlessWaiting (machine.view fp).lease
          talk := (machine.talks fp).ended.unapproved
          queue := rest }
  | ignores {reading : Nat} {randomness : Bool} {told : Told} {rest : List Told} {why : Why}
      {attempt : Nat} {ceremony : Ceremony} (queued : (machine.view fp).queue = told :: rest)
      (event : told.event = .ended why attempt)
      (onScreen : (machine.talks fp).ceremony = some ceremony)
      (other : ceremony.attempt ≠ attempt) :
      Moves machine fp (.dequeue reading randomness) { machine.view fp with queue := rest }
  | drops {reading : Nat} {randomness : Bool} {told : Told} {rest : List Told} {why : Why}
      {attempt : Nat} (queued : (machine.view fp).queue = told :: rest)
      (event : told.event = .ended why attempt)
      (onScreen : ∀ ceremony, (machine.talks fp).ceremony = some ceremony →
        ceremony.attempt = attempt) :
      Moves machine fp (.dequeue reading randomness)
        { machine.view fp with
          lease := unlessWaiting (machine.view fp).lease
          talk := ({ machine.talks fp with ceremony := none }).unapproved
          queue := rest }
  | picks {spelled number : String} {ceremony : Ceremony}
      (named : of spelled = some fp)
      (onScreen : (machine.talks fp).ceremony = some ceremony)
      (unanswered : ceremony.answered = false) (right : trim number = ceremony.number) :
      Moves machine fp (.confirmPairing spelled number)
        { machine.view fp with
          talk := { machine.talks fp with
            slot := (machine.talks fp).slot.answered
            ceremony := some { ceremony with answered := true } } }
  | cancels {act : Act} {spelled : String} (named : of spelled = some fp)
      (asked : (∃ number, act = .confirmPairing spelled number) ∨ act = .cancelPairing spelled) :
      Moves machine fp act
        { machine.view fp with
          lease := unlessWaiting (machine.view fp).lease
          talk := (machine.talks fp).ended.unapproved }
  | forgets {act : Act}
      (asked : (∃ spelled, act = .remove spelled ∧ of spelled = some fp) ∨ act = .removedBy fp) :
      Moves machine fp act
        { machine.view fp with lease := none, talk := (machine.talks fp).unapproved.ended }
  | expires (unshown : (machine.talks fp).ceremony = none) :
      Moves machine fp (.forgetUnstarted fp)
        { machine.view fp with
          lease := unlessWaiting (machine.view fp).lease
          talk := (machine.talks fp).unapproved }
  | approves {spelled : String} {reading : Nat} {label : String} {controller : Controller}
      {clipboard approved : Bool} {lease : Option Bool}
      (named : of spelled = some fp)
      (left : lease = some false ∨ lease = some true ∧ (machine.view fp).lease = some true) :
      Moves machine fp (.approve spelled reading label controller clipboard true)
        { machine.view fp with lease, talk := { machine.talks fp with approved } }
  | adjusts {act : Act} (leased : (machine.view fp).lease = some true) :
      Moves machine fp act { machine.view fp with lease := none }

/-! ## What the service does -/

/-- One dealing of the service with `fp`: at most one verb, about no other machine. -/
structure Deals (fp : Fingerprint) (desk next : Desk) : Prop where
  stepped : next.store = desk.store ∨ ∃ verb, Production verb ∧ next.store = desk.store.step verb
  others : ∀ other, fp.1 ≠ other → next.store.waiting other = desk.store.waiting other

variable {fp : Fingerprint} {desk next : Desk} {machine : Machine} {act : Act} {spelled : String}

theorem Deals.same (store : next.store = desk.store) : Deals fp desk next :=
  ⟨.inl store, fun other _ => by rw [store]⟩

theorem Deals.forgetPairing (fp : Fingerprint) (store : next.store = desk.store) :
    Deals fp desk (next.forgetPairing fp) := by
  refine ⟨.inr ⟨.forgetUnconfirmed fp.1, trivial, ?_⟩, fun other different => ?_⟩
  · simp only [Desk.forgetPairing, store, TrustStore.step]
  · simp only [Desk.forgetPairing, waiting_forgetUnconfirmed _ fp.2, if_neg different, store]

variable (desk)

theorem waiting_forgetPairing (fp : Fingerprint) :
    (desk.forgetPairing fp).store.waiting fp.1 = unlessWaiting (desk.store.waiting fp.1) := by
  simp [forgetPairing, waiting_forgetUnconfirmed _ fp.2]

theorem showPairingNumber_deals (fp : Fingerprint) (reading : Nat) (randomness : Bool) (role : Role)
    (number : String) (attempt : Nat) (theirs : Option Answer) :
    Deals fp desk (desk.showPairingNumber fp reading randomness role number attempt theirs) := by
  unfold showPairingNumber
  split
  · exact .same rfl
  · split
    · exact .forgetPairing fp rfl
    · exact .same rfl

theorem settlePairing_deals (fp : Fingerprint) : Deals fp desk (desk.settlePairing fp) := by
  unfold settlePairing
  split
  · exact .forgetPairing fp rfl
  · cases accepted : desk.store.confirm fp.1 with
    | error why => exact .forgetPairing fp rfl
    | ok store =>
      refine ⟨.inr ⟨.confirm fp.1, trivial, ?_⟩, fun other different => ?_⟩
      · simp only [TrustStore.step, accepted, unlessRefused]
      · simp only [(waiting_confirm fp.2 accepted).2, if_neg different]

theorem pairingEnded_deals (fp : Fingerprint) (attempt : Nat) :
    Deals fp desk (desk.pairingEnded fp attempt) := by
  unfold pairingEnded
  split
  · exact .same rfl
  · exact .forgetPairing fp rfl

theorem handle_deals (fp : Fingerprint) (reading : Nat) (randomness : Bool) (event : PairingEvent) :
    Deals fp desk (desk.handle fp reading randomness event) := by
  cases event with
  | number role number attempt theirs => exact showPairingNumber_deals ..
  | peerConfirmed => exact settlePairing_deals desk fp
  | ended why attempt => exact pairingEnded_deals desk fp attempt

theorem answerPairing_deals (fp : Fingerprint) (number : String) :
    Deals fp desk (desk.answerPairing fp number) := by
  unfold answerPairing
  cases desk.talk.ceremony with
  | none => exact .same rfl
  | some ceremony =>
    dsimp only
    split
    · exact .same rfl
    · split
      · exact .forgetPairing fp rfl
      · split
        · exact .forgetPairing fp rfl
        · exact .same rfl

theorem forgetMachine_deals (fp : Fingerprint) : Deals fp desk (desk.forgetMachine fp) := by
  refine ⟨.inr ⟨.forget fp.1, trivial, rfl⟩, fun other different => ?_⟩
  simp only [forgetMachine, endCeremony, waiting_forget _ fp.2, if_neg different]

theorem removedBy_deals (fp : Fingerprint) : Deals fp desk (desk.removedBy fp) := by
  unfold removedBy
  split
  · exact forgetMachine_deals desk fp
  · exact .same rfl

theorem forgetUnstarted_deals (fp : Fingerprint) : Deals fp desk (desk.forgetUnstarted fp) := by
  unfold forgetUnstarted
  split
  · exact .forgetPairing fp rfl
  · exact .same rfl

variable {desk}

theorem addAuthorizedKey_deals (formed : Formed desk.store) (fp : Fingerprint) (reading : Nat)
    (label : String) (controller : Controller) (clipboard prompted : Bool) : Deals fp desk
      (desk.addAuthorizedKey fp reading label controller clipboard prompted) := by
  unfold addAuthorizedKey
  split
  · exact .same rfl
  · cases accepted : desk.store.issueAnswered reading fp.1 label controller clipboard with
    | error why => exact .same rfl
    | ok store =>
      refine ⟨.inr ⟨.issueAnswered reading fp.1 label controller clipboard, trivial, ?_⟩, ?_⟩
      · simp only [TrustStore.step, accepted, unlessRefused]
      · exact (formed.waiting_issueAnswered fp.2 accepted).2

/-! ## Every step is one of the moves -/

theorem Deals.elsewhere {other : Fingerprint} (different : other ≠ fp)
    (deals : Deals other (machine.desk other) next) :
    (machine.atDesk other next).view fp = machine.view fp := by
  have spelled : other.1 ≠ fp.1 := fun same => different (Subtype.ext same)
  simp [view, atDesk, update_of_ne (Ne.symm different), deals.others fp.1 spelled, desk]

theorem Moves.stays {view : View} (same : view = machine.view fp) : Moves machine fp act view := by
  rw [same]
  exact .elsewhere (le_refl _)

theorem request_moves {deal : Desk → Fingerprint → Desk}
    (deals : ∀ other, Deals other (machine.desk other) (deal (machine.desk other) other))
    (moves : of spelled = some fp →
      Moves machine fp act
        { machine.view fp with
          lease := (deal (machine.desk fp) fp).store.waiting fp.1
          talk := (deal (machine.desk fp) fp).talk }) :
    Moves machine fp act ((machine.request spelled deal).view fp) := by
  unfold request
  cases named : of spelled with
  | none => exact .stays rfl
  | some other =>
    by_cases same : other = fp
    · subst same
      rw [view_atDesk]
      exact moves named
    · exact .stays ((deals other).elsewhere same)

theorem arrive_moves {other : Fingerprint} {conn : Nat} {role : Role}
    (asked : other = fp → (∃ reading, act = .accept fp conn reading ∧ role = .pick ∧
      machine.store.isPairing reading fp.1 = true) ∨ act = .dial fp conn ∧ role = .show_) :
    Moves machine fp act ((machine.arrive other conn role).view fp) := by
  by_cases same : other = fp
  · subst same
    simp only [arrive, Talk.begin_, Slot.begin_]
    cases used : (machine.talks other).tasks conn with
    | some task => exact .stays (by simp [view])
    | none =>
      dsimp only
      split
      · rename_i result
        split at result
        · have moves : Moves machine other act { machine.view other with
              talk := (machine.talks other).setTask conn role .isOver } := .busy used
          simpa [view] using moves
        · cases result
      · rename_i arrival slot result
        split at result
        · cases result
        · rename_i open_
          obtain ⟨rfl, rfl⟩ := Prod.mk.inj (Option.some.inj result)
          simp only [Bool.or_eq_true, not_or, Bool.not_eq_true, isSome_eq_false_iff,
            isNone_iff_eq_none] at open_
          obtain ⟨free, unspent⟩ := open_
          have moves := @Moves.begins _ machine other act conn role
            ((machine.talks other).slot.arriving.getD {}) (asked rfl) used free (by
              cases counted : (machine.talks other).slot.arriving with
              | none => exact .inr ⟨rfl, rfl⟩
              | some arriving =>
                simp only [Slot.spent, counted, any_some, Bool.or_eq_false_iff] at unspent
                exact .inl ⟨rfl, unspent⟩)
          simpa [view] using moves
  · have grown : machine.attempts ≤ (machine.arrive other conn role).attempts := by
      simp only [arrive, Talk.begin_]
      cases (machine.talks other).tasks conn with
      | some task => exact le_refl _
      | none =>
        cases (machine.talks other).slot.begin_ role machine.store.ours other.1
            machine.attempts with
        | none => exact le_refl _
        | some begun => exact Nat.le_succ _
    have moves : Moves machine fp act
        { machine.view fp with attempts := (machine.arrive other conn role).attempts } :=
      .elsewhere grown
    simpa [view, arrive, update_of_ne (Ne.symm same)] using moves

theorem answer_moves {number : String} (named : of spelled = some fp) :
    Moves machine fp (.confirmPairing spelled number)
      { machine.view fp with
        lease := ((machine.desk fp).answerPairing fp number).store.waiting fp.1
        talk := ((machine.desk fp).answerPairing fp number).talk } := by
  have cancelled : Moves machine fp (.confirmPairing spelled number)
      { machine.view fp with
        lease := ((machine.desk fp).endCeremony.forgetPairing fp).store.waiting fp.1
        talk := ((machine.desk fp).endCeremony.forgetPairing fp).talk } := by
    rw [waiting_forgetPairing]
    exact .cancels named (.inl ⟨number, rfl⟩)
  unfold answerPairing
  cases onScreen : (machine.desk fp).talk.ceremony with
  | none => exact .stays rfl
  | some ceremony =>
    dsimp only
    split
    · exact .stays rfl
    · rename_i unanswered
      split
      · exact cancelled
      · rename_i right
        split
        · exact cancelled
        · exact .picks named onScreen (Bool.not_eq_true _ ▸ unanswered) (not_not.mp right)

theorem approve_moves {machine : Machine} (formed : Formed machine.store) {fp : Fingerprint}
    {spelled label : String} {reading : Nat} {controller : Controller} {clipboard prompted : Bool}
    (named : of spelled = some fp) :
    let next := (machine.desk fp).addAuthorizedKey fp reading label controller clipboard prompted
    Moves machine fp (.approve spelled reading label controller clipboard prompted)
      { machine.view fp with lease := next.store.waiting fp.1, talk := next.talk } := by
  intro next
  cases prompted with
  | false => exact .stays rfl
  | true =>
    simp only [next, addAuthorizedKey]
    cases accepted : (machine.desk fp).store.issueAnswered reading fp.1 label controller
        clipboard with
    | error why => exact .stays rfl
    | ok store =>
      have left := (formed.waiting_issueAnswered fp.2 accepted).1
      have moves : ∀ approved, Moves machine fp
          (.approve spelled reading label controller clipboard true)
          { machine.view fp with
            lease := store.waiting fp.1
            talk := { machine.talks fp with approved } } :=
        fun approved => .approves named left
      simp only [Bool.not_true, Bool.false_eq_true, if_false]
      split
      · exact moves true
      · exact moves (machine.talks fp).approved

theorem handle_moves {machine : Machine} {fp : Fingerprint} {reading : Nat} {randomness : Bool}
    {told : Told} {rest : List Told} (first : machine.queue.head? = some (fp, told))
    (queued : (machine.view fp).queue = told :: rest) :
    let next := (machine.desk fp).handle fp reading randomness told.event
    Moves machine fp (.dequeue reading randomness)
      { machine.view fp with
        lease := next.store.waiting fp.1
        talk := next.talk
        queue := rest } := by
  intro next
  have abandoned : (∀ why attempt, told.event ≠ .ended why attempt) →
      Moves machine fp (.dequeue reading randomness)
        { machine.view fp with
          lease := ((machine.desk fp).endCeremony.forgetPairing fp).store.waiting fp.1
          talk := ((machine.desk fp).endCeremony.forgetPairing fp).talk
          queue := rest } := by
    intro event
    rw [waiting_forgetPairing]
    exact .abandons queued event
  cases event : told.event with
  | number role number attempt theirs =>
    simp only [next, event, handle, showPairingNumber]
    split
    · rename_i unpaired
      exact .unshown first queued event (Bool.not_eq_true' _ ▸ unpaired)
    · rename_i pairing
      split
      · exact abandoned (by simp [event])
      · have pairing' : machine.store.isPairing reading fp.1 = true := by
          simpa [desk] using pairing
        exact .shown first queued event (waiting_of_isPairing fp.2 pairing')
  | peerConfirmed =>
    simp only [next, event, handle, settlePairing]
    split
    · exact abandoned (by simp [event])
    · rename_i answered
      cases accepted : (machine.desk fp).store.confirm fp.1 with
      | error why => exact abandoned (by simp [event])
      | ok store =>
        obtain ⟨⟨confirmed, leased⟩, waiting⟩ := waiting_confirm fp.2 accepted
        simp only [waiting, if_true]
        simp only [Bool.not_eq_true', Bool.not_eq_false, Option.any_eq_true] at answered
        obtain ⟨ceremony, onScreen, answered⟩ := answered
        exact .settles first queued event onScreen answered leased
  | ended why attempt =>
    simp only [next, event, handle, pairingEnded]
    split
    · rename_i other
      simp only [Option.any_eq_true, bne_iff_ne] at other
      obtain ⟨ceremony, onScreen, other⟩ := other
      exact .ignores queued event onScreen other
    · rename_i shown
      rw [waiting_forgetPairing]
      refine .drops queued event fun ceremony onScreen => ?_
      by_contra other
      exact shown (by simpa [desk, onScreen] using other)

theorem task_moves (machine : Machine) (fp other : Fingerprint) (conn : Nat) (act : TaskAct) :
    Moves machine fp (.task other conn act) ((machine.step (.task other conn act)).view fp) := by
  by_cases same : other = fp
  · subst same
    cases found : (machine.talks other).tasks conn with
    | none =>
      refine .stays ?_
      simp [Machine.step, Talk.act, found, Machine.view]
    | some task =>
      obtain ⟨role, phase⟩ := task
      have moves := Moves.works found (act_works found act)
      simpa [Machine.step, Machine.view] using moves
  · refine .stays ?_
    simp [Machine.step, Machine.view, update_of_ne (Ne.symm same), about_told_other same]

theorem dequeue_moves (machine : Machine) (fp : Fingerprint) (reading : Nat)
    (randomness : Bool) :
    Moves machine fp (.dequeue reading randomness)
      ((machine.step (.dequeue reading randomness)).view fp) := by
  cases queue : machine.queue with
  | nil => exact .stays (by simp [Machine.step, queue])
  | cons entry rest =>
    obtain ⟨other, told⟩ := entry
    have stepped : machine.step (.dequeue reading randomness) =
        ({ machine with queue := rest }).atDesk other
          ((machine.desk other).handle other reading randomness told.event) := by
      simp only [Machine.step, queue]
    rw [stepped]
    by_cases same : other = fp
    · subst same
      have first : machine.queue.head? = some (other, told) := by rw [queue, List.head?_cons]
      have queued : (machine.view other).queue = told :: about other rest := by
        simp only [view, queue, about_cons]
      have moves := @handle_moves _ machine other reading randomness told _ first queued
      rw [view_atDesk]
      exact moves
    · have deals : Deals other (({ machine with queue := rest } : Machine).desk other)
          ((machine.desk other).handle other reading randomness told.event) :=
        handle_deals (machine.desk other) other reading randomness told.event
      refine .stays ?_
      rw [deals.elsewhere same]
      simp only [view, queue, about_cons_other same]

/-- A verb about a name, a clipboard or the clock leaves a pairing that waits alone. -/
theorem adjust_moves (sound : machine.Sound) (fp : Fingerprint) {verb : Verb}
    (adjusts : Adjusts verb) :
    Moves machine fp act (({ machine with store := machine.store.step verb } : Machine).view fp) := by
  rcases sound.formed.waiting_adjust sound.driven adjusts fp.1 with same | ⟨leased, gone⟩
  · exact .stays (by simp only [view, same])
  · have moves : Moves machine fp act { machine.view fp with lease := none } := .adjusts leased
    simpa only [view, gone] using moves

theorem Machine.Sound.step_moves {machine : Machine} (sound : machine.Sound) (act : Act)
    (fp : Fingerprint) : Moves machine fp act ((machine.step act).view fp) := by
  cases act with
  | accept other conn reading =>
    simp only [step]
    split
    · rename_i admitted
      simp only [Bool.and_eq_true] at admitted
      exact arrive_moves fun same => .inl ⟨reading, by rw [same], rfl, same ▸ admitted.2⟩
    · exact .stays rfl
  | dial other conn => exact arrive_moves fun same => .inr ⟨by rw [same], rfl⟩
  | task other conn act => exact task_moves machine fp other conn act
  | dequeue reading randomness => exact dequeue_moves machine fp reading randomness
  | approve spelled reading label controller clipboard prompted =>
    exact request_moves (fun other => addAuthorizedKey_deals sound.formed ..)
      (approve_moves sound.formed)
  | confirmPairing spelled number =>
    exact request_moves (fun other => answerPairing_deals ..) answer_moves
  | cancelPairing spelled =>
    refine request_moves (fun other => .forgetPairing other rfl) fun named => ?_
    rw [cancelPairing, waiting_forgetPairing]
    exact .cancels named (.inr rfl)
  | remove spelled =>
    refine request_moves (fun other => forgetMachine_deals ..) fun named => ?_
    have gone : ((machine.desk fp).forgetMachine fp).store.waiting fp.1 = none := by
      simp [forgetMachine, endCeremony, waiting_forget _ fp.2]
    rw [gone]
    exact .forgets (.inl ⟨spelled, rfl, named⟩)
  | removedBy other =>
    by_cases same : other = fp
    · subst same
      simp only [step, view_atDesk, removedBy]
      split
      · have gone : ((machine.desk other).forgetMachine other).store.waiting other.1 = none := by
          simp [forgetMachine, endCeremony, waiting_forget _ other.2]
        rw [gone]
        exact .forgets (.inr rfl)
      · exact .stays rfl
    · exact .stays ((removedBy_deals (machine.desk other) other).elsewhere same)
  | forgetUnstarted other =>
    by_cases same : other = fp
    · subst same
      simp only [step, view_atDesk, forgetUnstarted]
      split
      · rename_i stale
        simp only [Bool.and_eq_true, isNone_iff_eq_none] at stale
        rw [waiting_forgetPairing]
        exact .expires stale.2
      · exact .stays rfl
    · exact .stays ((forgetUnstarted_deals (machine.desk other) other).elsewhere same)
  | setLabel spelled label | enableClipboard reading spelled | disableClipboard spelled
  | sweep reading => exact adjust_moves sound fp trivial

theorem Machine.Sound.verb {machine : Machine} (sound : machine.Sound) {verb : Verb}
    (production : Production verb) {next : Machine}
    (stepped : next.store = machine.store.step verb) : next.Sound := by
  constructor
  · rw [stepped]
    exact sound.formed.step verb
  · rw [stepped]
    exact sound.driven.step sound.formed production

theorem Machine.Sound.deals (sound : machine.Sound) (deals : Deals fp (machine.desk fp) desk)
    {next : Machine} (dealt : next.store = desk.store) : next.Sound := by
  rcases deals.stepped with same | ⟨verb, production, stepped⟩
  · have store : next.store = machine.store := dealt.trans same
    constructor
    · rw [store]
      exact sound.formed
    · rw [store]
      exact sound.driven
  · exact sound.verb production (dealt.trans stepped)

theorem Machine.Sound.request (sound : machine.Sound) (spelled : String)
    {deal : Desk → Fingerprint → Desk}
    (deals : ∀ fp, Deals fp (machine.desk fp) (deal (machine.desk fp) fp)) :
    (machine.request spelled deal).Sound := by
  unfold Machine.request
  cases of spelled with
  | none => exact sound
  | some fp => exact sound.deals (deals fp) rfl

theorem Machine.Sound.step {machine : Machine} (sound : machine.Sound) (act : Act) :
    (machine.step act).Sound := by
  cases act with
  | accept fp conn reading =>
    simp only [Machine.step]
    split
    · exact ⟨sound.formed, sound.driven⟩
    · exact sound
  | dial fp conn | task fp conn act => exact ⟨sound.formed, sound.driven⟩
  | dequeue reading randomness =>
    cases queue : machine.queue with
    | nil => simpa only [Machine.step, queue] using sound
    | cons entry rest =>
      simp only [Machine.step, queue]
      exact sound.deals (handle_deals (machine.desk entry.1) entry.1 reading randomness _) rfl
  | approve spelled reading label controller clipboard prompted =>
    simp only [Machine.step]
    refine sound.request spelled fun fp => ?_
    exact addAuthorizedKey_deals sound.formed fp reading label controller clipboard prompted
  | confirmPairing spelled number =>
    simp only [Machine.step]
    refine sound.request spelled fun fp => ?_
    exact answerPairing_deals (machine.desk fp) fp number
  | cancelPairing spelled => exact sound.request spelled fun fp => .forgetPairing fp rfl
  | remove spelled => exact sound.request spelled fun fp => forgetMachine_deals ..
  | removedBy fp => exact sound.deals (removedBy_deals (machine.desk fp) fp) rfl
  | forgetUnstarted fp => exact sound.deals (forgetUnstarted_deals (machine.desk fp) fp) rfl
  | setLabel spelled label => exact @Sound.verb _ _ sound (.setLabel spelled label) trivial _ rfl
  | enableClipboard reading spelled =>
    exact @Sound.verb _ _ sound (.enableClipboard reading spelled) trivial _ rfl
  | disableClipboard spelled =>
    exact @Sound.verb _ _ sound (.disableClipboard spelled) trivial _ rfl
  | sweep reading => exact @Sound.verb _ _ sound (.sweep reading) trivial _ rfl

end Lowercase

end HopsFormal.Pairing
