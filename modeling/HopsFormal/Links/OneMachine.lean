import HopsFormal.Links.Reloads

/-!
# One device for each machine

Whatever the order of dials, dial-ins, edits, removals and reloads, no two
devices are pinned to one machine and no pin gives way to another machine's but
by being cleared.  A machine that dials in goes to the device pinned to it, or to
one whose current address was last found to be that machine's, unless an answer
was missed on the way.
-/

namespace HopsFormal.Links

open List Lib ClientManager Event

variable {Ip ρ : Type} [DecidableEq Ip]

namespace Outbound

/-! ## Several acts -/

theorem given_foldl {outbound : Outbound Ip} (acts : List (Act Ip))
    (given : Recorded outbound ∧ Asked outbound) :
    Recorded (acts.foldl step outbound) ∧ Asked (acts.foldl step outbound) := by
  induction acts generalizing outbound with
  | nil => exact given
  | cons act rest ih => exact ih ⟨given.1.step given.2 act, given.2.step given.1 act⟩

theorem clients_removes (outbound : Outbound Ip) (gone : List Nat) :
    ((gone.map .remove).foldl step outbound).clients =
      gone.foldl removeClient outbound.clients := by
  induction gone generalizing outbound with
  | nil => rfl
  | cons first rest ih => exact ih _

theorem clients_adds (outbound : Outbound Ip) (added : List (ConfigClient Ip)) :
    ((added.map .add).foldl step outbound).clients =
      added.foldl addWithConfig outbound.clients := by
  induction added generalizing outbound with
  | nil => rfl
  | cons first rest ih => exact ih _

theorem forgets_foldl {outbound : Outbound Ip} (acts : List (Act Ip))
    (silent : ∀ act ∈ acts, tells act = false) :
    Forgets outbound.clients (acts.foldl step outbound).clients := by
  induction acts generalizing outbound with
  | nil => exact .refl _
  | cons act rest ih =>
    intro handle reached found
    have later : Forgets (outbound.step act).clients
        (rest.foldl step (outbound.step act)).clients :=
      ih fun act member => silent act (mem_cons_of_mem _ member)
    exact step_forgets outbound (silent act mem_cons_self) handle reached
      (later handle reached found)

end Outbound

/-! ## What a failed dial tells -/

variable {seen : List (SocketAddr Ip × String)}

omit [DecidableEq Ip] in
theorem decideTrustPrompt_offer {addr : SocketAddr Ip} {fp : String}
    (offered : decideTrustPrompt seen = .offer addr fp) :
    ∀ answer ∈ seen, answer.2 = fp := by
  cases seen with
  | nil => cases offered
  | cons first rest =>
    unfold decideTrustPrompt at offered
    dsimp only at offered
    split at offered
    · next same =>
      obtain ⟨-, rfl⟩ := TrustPrompt.offer.inj offered
      intro answer member
      rcases mem_cons.mp member with new | old
      · rw [new]
      · simpa using all_eq_true.mp same answer old
    · cases offered

omit [DecidableEq Ip] in
theorem whatTheDialRead_some {proven : List (SocketAddr Ip × String)} {dials : SocketAddr Ip → Bool}
    {addr : SocketAddr Ip} {fp : String}
    (read : whatTheDialRead seen proven dials = some (some (addr, fp))) :
    (∀ answer ∈ seen, answer.2 = fp) ∧ (addr, fp) ∈ proven ∧
      dials addr = true := by
  unfold whatTheDialRead at read
  split at read
  · next offered =>
    obtain ⟨answer, found, same⟩ := Option.map_eq_some_iff.mp read
    obtain ⟨rfl, rfl⟩ := Prod.mk.inj (Option.some.inj same)
    have member := mem_of_find?_eq_some found
    have holds := find?_some found
    rw [Bool.and_eq_true, decide_eq_true_eq] at holds
    exact ⟨decideTrustPrompt_offer offered, holds.1 ▸ member, holds.2⟩
  · cases read
  · cases read

omit [DecidableEq Ip] in
theorem whatTheDialRead_none {proven : List (SocketAddr Ip × String)} {dials : SocketAddr Ip → Bool}
    (read : whatTheDialRead seen proven dials = none) : decideTrustPrompt seen ≠ .conflict ∧
      ∀ answer ∈ proven, answer ∈ seen → dials answer.1 = false := by
  unfold whatTheDialRead at read
  split at read
  · next offered =>
    refine ⟨by rw [offered]; nofun, fun answer member answered => ?_⟩
    have unread := find?_eq_none.mp (Option.map_eq_none_iff.mp read) answer member
    simpa [decideTrustPrompt_offer offered answer answered] using unread
  · cases read
  · next nothing =>
    refine ⟨by rw [nothing]; nofun, fun answer member answered => ?_⟩
    cases seen with
    | nil => cases answered
    | cons first rest =>
      unfold decideTrustPrompt at nothing
      dsimp only at nothing
      split at nothing <;> cases nothing

omit [DecidableEq Ip] in
theorem Event.mem_proven {answers : List (Answer Ip)} {expected : Option String}
    {shown : SocketAddr Ip × String} :
    shown ∈ proven answers expected ↔ expected = none ∧
      ∃ answer ∈ answers, answer.signed = true ∧ (answer.addr, answer.fingerprint) = shown := by
  cases expected with
  | none => simp [proven, and_assoc]
  | some pin => simp [proven]

namespace Watched

open Outbound

variable [DecidableEq ρ]

/-! ## Pins -/

/-- What holds of the devices whatever the dials tell. -/
structure Sound (watched : Watched Ip) : Prop where
  given : Recorded watched.outbound ∧ Asked watched.outbound
  unique : watched.outbound.clients.Unique

variable {watched : Watched Ip} {event : Event Ip ρ} {handle : Nat} {addrs : List (SocketAddr Ip)}
  {expected : Option String}

/-- An event neither puts one machine's pin in another's place nor pins a machine twice. -/
theorem step_moved (sound : watched.Sound) (proper : event.Proper) :
    Moved watched.outbound.clients (watched.step event).outbound.clients event.clears := by
  cases event with
  | act one =>
    refine Outbound.step_moved sound.given.1 sound.unique one fun config its pin fingerprint => ?_
    subst its
    have unpinned : config.fingerprint = none := proper
    rw [unpinned] at fingerprint
    cases fingerprint
  | fails handle answers =>
    exact Outbound.step_moved (ρ := ρ) sound.given.1 sound.unique (.dialFails handle _) nofun
  | reload rest entries =>
    obtain ⟨unique, stay⟩ := reload_unique rest sound.given.1.devices sound.unique proper
    have clients : (watched.step (.reload rest entries)).outbound.clients =
        ((watched.outbound.clients.planReload rest entries).2.map Prod.fst).foldl addWithConfig
          ((watched.outbound.clients.planReload rest entries).1.foldl removeClient
            watched.outbound.clients) := by
      rw [← clients_removes, ← clients_adds]
      simp only [step, acts, foldl_append, map_map]
      rfl
    rw [← clients] at unique stay
    refine ⟨fun handle pin pinned => .inr ?_, fun handle pin pinned => .inr ?_⟩
    · have after := stay handle (sound.given.1.devices handle (device_of_pinned pinned))
      split at after
      · exact .inl after
      · refine .inr ⟨pin, ?_, eqIgnoreAsciiCase_iff.mpr rfl⟩
        rw [peerFingerprint, after]
        exact pinned
    · intro other otherPin apart otherPinned
      by_contra same
      rw [Bool.not_eq_false] at same
      exact apart (unique other handle otherPin pin otherPinned pinned same)

theorem Sound.step (sound : watched.Sound) (proper : event.Proper) : (watched.step event).Sound :=
  ⟨given_foldl _ sound.given, (step_moved sound proper).unique sound.unique⟩

/-- The devices of a file without duplicate pins. -/
theorem load_sound {entries : List (ConfigClient Ip)} (alone : NoDuplicatePins entries) :
    (load entries).Sound := by
  refine ⟨given_foldl _ ⟨recorded_start, nofun⟩, ?_⟩
  rw [load, clients_adds]
  exact (unique_adds entries recorded_start.devices nofun (fun _ _ _ _ => nofun) alone).1

/-! ## What is remembered -/

/-- What is remembered of a device's dial is the last answer of that address. -/
def Remembers (watched : Watched Ip) : Prop :=
  ∀ handle addr fingerprint,
    watched.outbound.clients.answeredAs.lookup handle = some (addr, fingerprint) →
      watched.lastAnswer handle addr = some fingerprint

/-- Answers that agree on an address, one of them there or before. -/
theorem foldl_note {lastAnswer : Nat → SocketAddr Ip → Option String}
    {answers : List (Nat × SocketAddr Ip × String)} {addr : SocketAddr Ip} {fp : String}
    (there : lastAnswer handle addr = some fp ∨
      ∃ answer ∈ answers, answer.1 = handle ∧ answer.2.1 = addr)
    (agree : ∀ answer ∈ answers, answer.1 = handle → answer.2.1 = addr →
      answer.2.2 = fp) : answers.foldl note lastAnswer handle addr = some fp := by
  induction answers generalizing lastAnswer with
  | nil =>
    rcases there with before | ⟨answer, member, -⟩
    · exact before
    · cases member
  | cons first rest ih =>
    refine ih ?_ fun answer member => agree answer (mem_cons_of_mem _ member)
    by_cases its : handle = first.1 ∧ addr = first.2.1
    · left
      rw [note, if_pos its, agree first mem_cons_self its.1.symm its.2.symm]
    · rw [note, if_neg its]
      refine there.imp_right ?_
      rintro ⟨answer, member, same, here⟩
      rcases mem_cons.mp member with new | old
      · subst new
        exact absurd ⟨same.symm, here.symm⟩ its
      · exact ⟨answer, old, same, here⟩

omit [DecidableEq Ip] in
theorem remembered_setAnsweredAs {clients : ClientManager Ip} {other : Nat}
    {answered : Option (SocketAddr Ip × String)} {reached : SocketAddr Ip × String}
    (found : (clients.setAnsweredAs handle answered).answeredAs.lookup other = some reached) :
    (other = handle ∧ answered = some reached) ∨
      (other ≠ handle ∧ clients.answeredAs.lookup other = some reached) := by
  have erased : (clients.answeredAs.erase handle).lookup other = some reached →
      other ≠ handle ∧ clients.answeredAs.lookup other = some reached :=
    Table.lookup_of_erase
  unfold setAnsweredAs at found
  split at found
  · split at found
    · by_cases same : other = handle
      · subst same
        rw [AList.lookup_insert] at found
        exact .inl ⟨rfl, found⟩
      · rw [AList.lookup_insert_ne same] at found
        exact .inr ⟨same, found⟩
    · exact .inr (erased found)
  · exact .inr (erased found)

theorem Remembers.forgets (remembers : watched.Remembers)
    (forgets : Forgets watched.outbound.clients (watched.step event).outbound.clients)
    (agree : ∀ answer ∈ event.answers watched.outbound,
      (watched.step event).outbound.clients.answeredAs.lookup answer.1 = none ∨
        contradicts watched.outbound.clients answer.1 answer.2.1 answer.2.2 = false) :
    (watched.step event).Remembers := by
  intro handle addr fingerprint found
  have before := forgets handle _ found
  refine foldl_note (.inl (remembers handle addr fingerprint before)) ?_
  rintro ⟨other, there, answered⟩ member rfl rfl
  rcases agree _ member with gone | same
  · rw [gone] at found
    cases found
  · rw [contradicts, before] at same
    exact (by simpa using same : fingerprint = answered).symm

theorem answeredAs_step (watched : Watched Ip) (act : Act Ip) :
    (watched.step (.act act : Event Ip ρ)).outbound.clients.answeredAs =
      (watched.outbound.repinned act).answeredAs :=
  (step_rests watched.outbound act).remembered

theorem forgets_step (watched : Watched Ip) {act : Act Ip} (silent : tells act = false) :
    Forgets watched.outbound.clients (watched.step (.act act : Event Ip ρ)).outbound.clients :=
  step_forgets watched.outbound silent

theorem step_remembers_dialMeets (remembers : watched.Remembers) (handle : Nat)
    (addr : SocketAddr Ip) (fp : String) :
    (watched.step (.act (.dialMeets handle addr fp) : Event Ip ρ)).Remembers := by
  intro other there machine found
  rw [answeredAs_step] at found
  unfold Watched.step answers repinned at *
  dsimp only at found ⊢
  cases looked : watched.outbound.connecting.lookup handle with
  | none =>
    rw [looked] at found
    exact remembers other there machine found
  | some dialling =>
    rw [looked] at found
    cases dialling with
    | calling addrs expected =>
      dsimp only at found ⊢
      split at found
      · next met =>
        rw [if_pos met]
        rcases remembered_setAnsweredAs found with ⟨rfl, its⟩ | ⟨apart, before⟩
        · obtain ⟨rfl, rfl⟩ := Prod.mk.inj (Option.some.inj its)
          exact if_pos ⟨rfl, rfl⟩
        · exact (if_neg fun its => apart its.1).trans (remembers other there machine before)
      · next unmet =>
        rw [if_neg unmet]
        exact remembers other there machine found
    | pairing addr fp | landed addr fp accepted =>
      exact remembers other there machine found

theorem step_remembers_dialRecords (remembers : watched.Remembers) (handle : Nat)
    (caught : (.act (.dialRecords handle) : Event Ip ρ).missed watched.outbound = false) :
    (watched.step (.act (.dialRecords handle) : Event Ip ρ)).Remembers := by
  refine remembers.forgets (forgets_step watched rfl) ?_
  intro answer member
  unfold missed at caught
  unfold answers at member
  dsimp only at caught member
  split at member
  · next addr fingerprint landed =>
    split at member
    · next targets =>
      obtain rfl := mem_singleton.mp member
      rw [landed] at caught
      simp only [targets, Bool.true_and, Bool.and_eq_false_iff] at caught
      refine caught.imp_left fun taken => ?_
      simp only [Bool.or_eq_false_iff] at taken
      obtain ⟨⟨isOn, unlinked⟩, pins⟩ := taken
      have reaches : watched.outbound.reachesPin handle addr = true :=
        reachesPin_iff.mpr ⟨targets, by simpa using isOn, by simp [unlinked]⟩
      rw [answeredAs_step, repinned, landed]
      dsimp only
      rw [if_pos reaches, pinned]
      cases taken : watched.outbound.clients.pin handle fingerprint with
      | error refused =>
        rw [taken] at pins
        cases pins
      | ok after =>
        obtain ⟨-, rfl⟩ := pin_ok taken
        exact AList.lookup_erase _ _
    · cases member
  · cases member

omit [DecidableEq ρ] in
theorem answers_fails {outbound : Outbound Ip}
    (calling : outbound.connecting.lookup handle = some (.calling addrs expected))
    (answers : List (Answer Ip)) {told : Nat × SocketAddr Ip × String} :
    told ∈ (.fails handle answers : Event Ip ρ).answers outbound ↔
      ∃ answer ∈ called answers addrs,
        (answer.signed && outbound.clients.targets handle answer.addr) = true ∧
          (handle, answer.addr, answer.fingerprint) = told := by
  rw [Event.answers, calling]
  simp only [mem_map, mem_filter, and_assoc]

omit [DecidableEq ρ] in
/-- Of a dial that tells nothing, no answer contradicts what is remembered. -/
theorem unread_agrees {answers : List (Answer Ip)}
    (calling : watched.outbound.connecting.lookup handle = some (.calling addrs expected))
    (caught : (.fails handle answers : Event Ip ρ).missed watched.outbound = false)
    (unread : whatTheDialRead (Event.seen (Event.called answers addrs))
      (Event.proven (Event.called answers addrs) expected)
      (watched.outbound.clients.targets handle) = none) {answer : Answer Ip}
    (heard : answer ∈ Event.called answers addrs)
    (dialled : (answer.signed && watched.outbound.clients.targets handle answer.addr) = true) :
    Event.contradicts watched.outbound.clients handle answer.addr answer.fingerprint =
      false := by
  obtain ⟨oneMachine, away⟩ := whatTheDialRead_none unread
  cases expected with
  | none =>
    rw [Bool.and_eq_true] at dialled
    have proved : (answer.addr, answer.fingerprint) ∈
        Event.proven (Event.called answers addrs) none :=
      Event.mem_proven.mpr ⟨rfl, answer, heard, dialled.1, rfl⟩
    have shown : (answer.addr, answer.fingerprint) ∈ Event.seen (Event.called answers addrs) :=
      mem_map.mpr ⟨answer, heard, rfl⟩
    have gone := away _ proved shown
    rw [dialled.2] at gone
    cases gone
  | some pin =>
    rw [Event.missed, calling] at caught
    simp only [decide_not, Bool.and_eq_false_iff, Bool.not_eq_false', decide_eq_true_eq,
      oneMachine, false_or] at caught
    have one := any_eq_false.mp caught answer heard
    rw [dialled, Bool.true_and] at one
    exact Bool.eq_false_iff.mpr one

theorem repinned_unread (outbound : Outbound Ip) (handle : Nat) :
    outbound.repinned (.dialFails handle none) = outbound.clients := by
  unfold repinned
  dsimp only
  split
  · next read => cases read
  · rfl

theorem repinned_read {outbound : Outbound Ip}
    (calling : outbound.connecting.lookup handle = some (.calling addrs expected))
    (read : Option (SocketAddr Ip × String)) : outbound.repinned (.dialFails handle (some read)) =
      outbound.clients.setAnsweredAs handle read := by
  unfold repinned
  dsimp only
  rw [calling]

theorem step_remembers_fails (remembers : watched.Remembers) (handle : Nat)
    (answers : List (Answer Ip))
    (caught : (.fails handle answers : Event Ip ρ).missed watched.outbound = false) :
    (watched.step (.fails handle answers : Event Ip ρ)).Remembers := by
  have now : (watched.step (.fails handle answers : Event Ip ρ)).outbound.clients.answeredAs =
      (watched.outbound.repinned
        (.dialFails handle (read watched.outbound handle answers))).answeredAs :=
    (step_rests watched.outbound
      (.dialFails handle (read watched.outbound handle answers))).remembered
  by_cases calling : ∃ addrs expected,
      watched.outbound.connecting.lookup handle = some (.calling addrs expected)
  · obtain ⟨addrs, expected, calling⟩ := calling
    have reads : read watched.outbound handle answers =
        whatTheDialRead (seen (called answers addrs))
          (proven (called answers addrs) expected)
          (watched.outbound.clients.targets handle) := by
      rw [Event.read, calling]
    cases told : read watched.outbound handle answers with
    | none =>
      rw [told, repinned_unread] at now
      refine remembers.forgets (fun other reached found => now ▸ found) ?_
      intro answer member
      obtain ⟨heard, called, dialled, rfl⟩ := (answers_fails calling answers).mp member
      exact .inr (unread_agrees calling caught (reads.symm.trans told) called dialled)
    | some reached =>
      rw [told, repinned_read calling] at now
      intro other there machine found
      rw [now] at found
      rcases remembered_setAnsweredAs found with ⟨rfl, its⟩ | ⟨apart, before⟩
      · subst its
        obtain ⟨same, proved, dials⟩ := whatTheDialRead_some (reads.symm.trans told)
        refine foldl_note (.inr ?_) ?_
        · obtain ⟨-, answer, called, signed, its⟩ := mem_proven.mp proved
          obtain ⟨rfl, rfl⟩ := Prod.mk.inj its
          refine ⟨_, (answers_fails calling answers).mpr ⟨answer, called, ?_, rfl⟩, rfl, rfl⟩
          rw [signed, dials]
          rfl
        · intro answer member _ _
          obtain ⟨heard, called, -, rfl⟩ := (answers_fails calling answers).mp member
          exact same (heard.addr, heard.fingerprint) (mem_map.mpr ⟨heard, called, rfl⟩)
      · refine foldl_note (.inl (remembers other there machine before)) ?_
        intro answer member its _
        obtain ⟨heard, -, -, rfl⟩ := (answers_fails calling answers).mp member
        exact absurd its.symm apart
  · have silent : read watched.outbound handle answers = none := by
      unfold Event.read
      split
      · next addrs expected found => exact absurd ⟨addrs, expected, found⟩ calling
      · rfl
    rw [silent, repinned_unread] at now
    refine remembers.forgets (fun other reached found => now ▸ found) ?_
    intro answer member
    unfold Event.answers at member
    dsimp only at member
    split at member
    · next addrs expected found => exact absurd ⟨addrs, expected, found⟩ calling
    · cases member

theorem step_remembers (remembers : watched.Remembers) (proper : event.Proper)
    (caught : event.missed watched.outbound = false) : (watched.step event).Remembers := by
  cases event with
  | act one =>
    cases one with
    | dialMeets handle addr fingerprint =>
      exact step_remembers_dialMeets remembers handle addr fingerprint
    | dialRecords handle => exact step_remembers_dialRecords remembers handle caught
    | dialFails handle read => cases proper
    | _ => exact remembers.forgets (forgets_step watched rfl) nofun
  | fails handle answers => exact step_remembers_fails remembers handle answers caught
  | reload rest entries =>
    refine remembers.forgets (forgets_foldl _ fun act member => ?_) nofun
    rcases mem_append.mp member with gone | added
    · obtain ⟨handle, -, rfl⟩ := mem_map.mp gone
      rfl
    · obtain ⟨entry, -, rfl⟩ := mem_map.mp added
      rfl

/-! ## Every run -/

theorem run_sound {entries : List (ConfigClient Ip)} {events : List (Event Ip ρ)}
    (alone : NoDuplicatePins entries) (proper : ∀ event ∈ events, event.Proper) :
    (run entries events).Sound := by
  induction events using reverseRecOn with
  | nil => exact load_sound alone
  | append_singleton events event ih =>
    rw [run, foldl_append]
    have before := ih fun event member => proper event (mem_append_left _ member)
    exact before.step (proper event (mem_append_right _ (mem_singleton_self _)))

theorem foldl_remembers (remembers : watched.Remembers) {events : List (Event Ip ρ)}
    (proper : ∀ event ∈ events, event.Proper) (caught : watched.NoneMissed events) :
    (events.foldl step watched).Remembers := by
  induction events generalizing watched with
  | nil => exact remembers
  | cons event rest ih =>
    have now := step_remembers remembers (proper event mem_cons_self) caught.1
    exact ih now (fun event member => proper event (mem_cons_of_mem _ member)) caught.2

/--
A device may be handed a machine that dials in: it is pinned to that machine, or
to none and one of its current addresses was last found to be that machine's.
-/
def reached (watched : Watched Ip) (handle : Nat) (fingerprint : String) : Prop :=
  (∃ pin, watched.outbound.clients.peerFingerprint handle = some pin ∧
      eqIgnoreAsciiCase pin fingerprint) ∨
    watched.outbound.clients.peerFingerprint handle = none ∧ ∃ addr machine,
      watched.outbound.clients.targets handle addr ∧
        watched.lastAnswer handle addr = some machine ∧ eqIgnoreAsciiCase machine fingerprint

omit [DecidableEq ρ] in
theorem Remembers.reached (remembers : watched.Remembers) {fp : String}
    {after : ClientManager Ip}
    (claimed : watched.outbound.clients.claimForDialIn fp = some (handle, after)) :
    watched.reached handle fp := by
  rcases claimForDialIn_cases claimed with
    ⟨first, _⟩ | ⟨_, unpinned, addr, machine, remembered, same, targets⟩
  · exact .inl (diallerOf_pinned first)
  · exact .inr ⟨unpinned, addr, machine, targets, remembers _ addr machine remembered, same⟩

theorem load_remembers (entries : List (ConfigClient Ip)) : (load entries).Remembers := by
  intro handle addr fingerprint found
  have silent : ∀ act ∈ entries.map Act.add, tells act = false := by
    intro act member
    obtain ⟨config, -, rfl⟩ := mem_map.mp member
    rfl
  have before : (Outbound.start : Outbound Ip).clients.answeredAs.lookup handle =
      some (addr, fingerprint) :=
    forgets_foldl _ silent handle _ found
  cases before

/--
From a file without duplicate pins, in every run: no two devices are pinned to one
machine, the next event puts no machine's pin in another's place, and while no
answer was missed a machine that dials in is handed to a device that is its.
-/
theorem one_device_for_each_machine (entries : List (ConfigClient Ip))
    (events : List (Event Ip ρ)) (alone : NoDuplicatePins entries)
    (proper : ∀ event ∈ events, event.Proper) :
    (run entries events).outbound.clients.Unique ∧
      (∀ next : Event Ip ρ, next.Proper → ∀ handle pin,
        (run entries events).outbound.clients.peerFingerprint handle = some pin →
          next.clears pin ∨
            ((run entries events).step next).outbound.clients.device handle = none ∨
              ∃ now, ((run entries events).step next).outbound.clients.peerFingerprint handle =
                some now ∧ eqIgnoreAsciiCase pin now) ∧
      ((load entries).NoneMissed events → ∀ fingerprint handle after,
        (run entries events).outbound.clients.claimForDialIn fingerprint = some (handle, after) →
          (run entries events).reached handle fingerprint) := by
  have sound := run_sound alone proper
  refine ⟨sound.unique, fun next its => (step_moved sound its).kept, ?_⟩
  intro caught fingerprint handle after claimed
  exact (foldl_remembers (load_remembers entries) proper caught).reached claimed

/-! ## An answer that is missed -/

def twoDevices : List (ConfigClient Nat) :=
  [⟨none, [1], 4722, true, none⟩, ⟨none, [2], 4722, true, some "aa"⟩]

/--
The first device's dial fails where another machine signed; then the machine of
the second device answers there, and its pin is refused.
-/
def secondAnswers : List (Event Nat Unit) :=
  [.act (.grant "aa"), .act (.dial 0), .fails 0 [⟨⟨1, 4722⟩, "bb", true⟩], .act (.dial 0),
    .act (.dialLands 0 ⟨1, 4722⟩ "aa"), .act (.dialRecords 0)]

theorem twoDevices_alone : NoDuplicatePins twoDevices := by
  refine .cons (fun second _ pin other its => nomatch its) (.cons (fun _ member => ?_) .nil)
  cases member

theorem secondAnswers_proper : ∀ event ∈ secondAnswers, event.Proper := by
  intro event member
  simp only [secondAnswers, mem_cons, not_mem_nil, or_false] at member
  rcases member with rfl | rfl | rfl | rfl | rfl | rfl <;> trivial

theorem one_device_for_each_machine_two :
    (run twoDevices (secondAnswers.take 3)).reached 0 "bb" := by
  have proper : ∀ event ∈ secondAnswers.take 3, event.Proper :=
    fun event member => secondAnswers_proper event (mem_of_mem_take member)
  have handed : ((run twoDevices (secondAnswers.take 3)).outbound.clients.claimForDialIn
      "bb").map Prod.fst = some 0 := by
    decide
  obtain ⟨⟨handle, after⟩, claimed, rfl⟩ := Option.map_eq_some_iff.mp handed
  refine (one_device_for_each_machine twoDevices _ twoDevices_alone proper).2.2 ?_ "bb" _ after
    claimed
  exact ⟨by decide, by decide +kernel, by decide +kernel, trivial⟩

/-- The machine that signed there before is handed the device all the same. -/
theorem second_answer_missed :
    NoDuplicatePins twoDevices ∧ (∀ event ∈ secondAnswers, event.Proper) ∧
      ∃ after, (run twoDevices secondAnswers).outbound.clients.claimForDialIn "bb" =
          some (0, after) ∧ ¬ (run twoDevices secondAnswers).reached 0 "bb" := by
  refine ⟨twoDevices_alone, secondAnswers_proper, ?_⟩
  have handed : ((run twoDevices secondAnswers).outbound.clients.claimForDialIn "bb").map
      Prod.fst = some 0 := by
    decide
  obtain ⟨⟨handle, after⟩, claimed, rfl⟩ := Option.map_eq_some_iff.mp handed
  refine ⟨after, claimed, ?_⟩
  rintro (⟨pin, pinned, -⟩ | ⟨-, addr, machine, targets, answered, same⟩)
  · have unpinned : (run twoDevices secondAnswers).outbound.clients.peerFingerprint 0 =
        none := by
      decide
    rw [unpinned] at pinned
    cases pinned
  · have dialled : ((run twoDevices secondAnswers).outbound.clients.device 0).map
        (fun device => (device.port, device.ips)) = some (4722, [1]) := by
      decide
    obtain ⟨device, found, its⟩ := Option.map_eq_some_iff.mp dialled
    rw [ClientManager.targets, found] at targets
    obtain ⟨port, ips⟩ := Prod.mk.inj its
    obtain ⟨ip, there⟩ := addr
    simp only [Option.any_some, port, ips, mem_singleton, decide_eq_true_eq] at targets
    obtain ⟨rfl, rfl⟩ := targets
    have last : (run twoDevices secondAnswers).lastAnswer 0 ⟨1, 4722⟩ = some "aa" := by
      decide
    obtain rfl := Option.some.inj (last.symm.trans answered)
    cases same

end Watched

end HopsFormal.Links
