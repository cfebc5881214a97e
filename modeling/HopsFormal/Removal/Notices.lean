import HopsFormal.Removal.Machines

/-!
# Notices of removals

What a machine forgets on a `removed` close is a pairing the other machine no
longer held when it closed the link, and one no newer than that link.  The two
facts travel with the reason: from the store the closing task read it from, with
the notice in flight, into the end it closed, with the event in the queue.  They
are lost when a pairing is confirmed while one of these is still on its way.
-/

namespace HopsFormal.Removal

open Function List Lib Links

/-! ## What a removal may take -/

/-- The pairing, if there is one, was confirmed on the link or before it was made. -/
def NotNewer (pairing : Option Pairing) (link made : Nat) : Prop :=
  ∀ held, pairing = some held → held.link = link ∨ held.confirmed ≤ made

theorem notNewer_none (link made : Nat) : NotNewer none link made := by
  intro held impossible
  cases impossible

instance (pairing : Option Pairing) (link made : Nat) : Decidable (NotNewer pairing link made) :=
  match pairing with
  | none => isTrue (notNewer_none link made)
  | some held =>
    decidable_of_iff (held.link = link ∨ held.confirmed ≤ made)
      ⟨fun older _ same => Option.some.inj same ▸ older, fun older => older held rfl⟩

/-- What was forgotten on an event is what the removal was about. -/
def Forgotten.Fair (forgotten : Forgotten) : Prop :=
  forgotten.event.held = false ∧
    NotNewer forgotten.pairing forgotten.event.link forgotten.event.made

instance (forgotten : Forgotten) : Decidable forgotten.Fair :=
  inferInstanceAs (Decidable (_ ∧ _))

def LinkEnd.closedAsRemoved {Ip : Type} (linkEnd : LinkEnd Ip) : Bool :=
  match linkEnd.closed with
  | some (.byPeer .removed _) => true
  | _ => false

namespace Machine

variable {Ip : Type}

/-! ## What a machine knows of the removals that reach it -/

/-- What a part of a task that a removal started is about. -/
def Names (fingerprint : String) : Work Ip → Prop
  | .inbound named => named = fingerprint
  | .inboundClose named _ => named = fingerprint
  | .outbound named => named = fingerprint
  | .device _ _ => False
  | _ => True

/-- The removals the service has still to hear of. -/
def heard (machine : Machine Ip) : List RemovedBy :=
  machine.emulationEvents ++ machine.refusals

/--
What a machine holds of removals: those queued and those its ends were closed with
are about no newer pairing, a task that chose to close as removed holds none, a
task a removal started names the removed machine, and each close as removed that
was sent is one that is allowed.
-/
structure Own (links : Nat) (allowed : Notice → Prop) (machine : Machine Ip) : Prop where
  queued : ∀ event ∈ machine.heard, event.held = false ∧
    NotNewer (machine.pairing event.fingerprint) event.link event.made
  closed : ∀ linkEnd ∈ machine.ends, ∀ held, linkEnd.closed = some (.byPeer .removed held) →
    held = false ∧ NotNewer (machine.pairing linkEnd.peer) linkEnd.number linkEnd.made
  chosen : ∀ task ∈ machine.tasks, ∀ fingerprint,
    .inboundClose fingerprint .removed ∈ task.work → machine.pairing fingerprint = none
  named : ∀ task ∈ machine.tasks, ∀ fingerprint ∈ task.about, ∀ work ∈ task.work,
    Names fingerprint work
  sent : ∀ notice ∈ machine.sent, notice.link < links ∧
    (notice.reason = .removed → notice.held = false ∧ allowed notice)
  numbered : ∀ linkEnd ∈ machine.ends, linkEnd.number < links
  fair : ∀ forgotten ∈ machine.forgotten, forgotten.Fair

/-- A machine's pairings only go and its ends only close. -/
structure Shrinks (before after : Machine Ip) : Prop where
  pairing : ∀ fingerprint, after.pairing fingerprint = before.pairing fingerprint ∨
    after.pairing fingerprint = none
  ends : ∀ linkEnd ∈ after.ends, ∃ earlier ∈ before.ends, earlier.number = linkEnd.number ∧
    earlier.peer = linkEnd.peer ∧ earlier.made = linkEnd.made

/-- What a step of one machine keeps. -/
structure Keeps (links : Nat) (allowed : Notice → Prop) (before after : Machine Ip) : Prop where
  own : before.Own links allowed → after.Own links allowed
  shrinks : Shrinks before after

variable {links : Nat} {allowed : Notice → Prop} {before middle after machine : Machine Ip}
  {fingerprint peer : String} {number : Nat} {reason : Reason} {work : Work Ip}

theorem Shrinks.notNewer (shrinks : Shrinks before after) {link made : Nat}
    (older : NotNewer (before.pairing fingerprint) link made) :
    NotNewer (after.pairing fingerprint) link made := by
  rcases shrinks.pairing fingerprint with same | gone
  · rw [same]
    exact older
  · rw [gone]
    exact notNewer_none link made

theorem Shrinks.trans (first : Shrinks before middle) (second : Shrinks middle after) :
    Shrinks before after where
  pairing := by
    intro fingerprint
    rcases second.pairing fingerprint with same | gone
    · rw [same]
      exact first.pairing fingerprint
    · exact .inr gone
  ends := by
    intro linkEnd member
    obtain ⟨earlier, inside, number, peer, made⟩ := second.ends linkEnd member
    obtain ⟨earliest, first_inside, first_number, first_peer, first_made⟩ :=
      first.ends earlier inside
    exact ⟨earliest, first_inside, first_number.trans number, first_peer.trans peer,
      first_made.trans made⟩

theorem Keeps.trans (first : Keeps links allowed before middle)
    (second : Keeps links allowed middle after) : Keeps links allowed before after where
  own := second.own ∘ first.own
  shrinks := first.shrinks.trans second.shrinks

theorem Keeps.frame (entries : after.entries = before.entries) (ends : after.ends = before.ends)
    (tasks : after.tasks = before.tasks) (sent : after.sent = before.sent)
    (heard : after.heard = before.heard) (forgotten : after.forgotten = before.forgotten) :
    Keeps links allowed before after where
  own := by
    intro own
    constructor
    · rw [heard]
      simpa only [pairing, entries] using own.queued
    · rw [ends]
      simpa only [pairing, entries] using own.closed
    · rw [tasks]
      simpa only [pairing, entries] using own.chosen
    · rw [tasks]
      exact own.named
    · rw [sent]
      exact own.sent
    · rw [ends]
      exact own.numbered
    · rw [forgotten]
      exact own.fair
  shrinks := by
    constructor
    · intro fingerprint
      exact .inl (by rw [pairing, entries, pairing])
    · rw [ends]
      intro linkEnd member
      exact ⟨linkEnd, member, rfl, rfl, rfl⟩

theorem Keeps.refl (machine : Machine Ip) : Keeps links allowed machine machine :=
  .frame rfl rfl rfl rfl rfl rfl

/-! ## Changing the tasks and the store -/

theorem Own.withTasks (own : machine.Own links allowed) {tasks : List (Task Ip)}
    (chosen : ∀ task ∈ tasks, ∀ fingerprint,
      .inboundClose fingerprint .removed ∈ task.work → machine.pairing fingerprint = none)
    (named : ∀ task ∈ tasks, ∀ fingerprint ∈ task.about, ∀ work ∈ task.work,
      Names fingerprint work) :
    { machine with tasks := tasks }.Own links allowed :=
  ⟨own.queued, own.closed, chosen, named, own.sent, own.numbered, own.fair⟩

variable (machine)

theorem keeps_addTask {tasks : List (Task Ip)}
    (unchosen : ∀ task ∈ tasks, ∀ fingerprint reason, .inboundClose fingerprint reason ∉ task.work)
    (named : ∀ task ∈ tasks, ∀ fingerprint ∈ task.about, ∀ work ∈ task.work,
      Names fingerprint work) :
    Keeps links allowed machine { machine with tasks := machine.tasks ++ tasks } := by
  refine ⟨?_, fun _ => .inl rfl, fun linkEnd member => ⟨linkEnd, member, rfl, rfl, rfl⟩⟩
  intro own
  apply own.withTasks
  · intro task member fingerprint inside
    rcases mem_append.mp member with earlier | fresh
    · exact own.chosen task earlier fingerprint inside
    · exact absurd inside (unchosen task fresh fingerprint .removed)
  · intro task member
    rcases mem_append.mp member with earlier | fresh
    · exact own.named task earlier
    · exact named task fresh

theorem pairing_erase (fingerprint other : String) :
    { machine with entries := machine.entries.erase fingerprint }.pairing other =
        machine.pairing other ∨
      { machine with entries := machine.entries.erase fingerprint }.pairing other = none := by
  by_cases same : other = fingerprint
  · subst same
    right
    rw [pairing, AList.lookup_erase]
    rfl
  · left
    rw [pairing, AList.lookup_erase_ne same, pairing]

theorem keeps_entries {entries : Table String (Option Pairing)}
    (gone : ∀ fingerprint, { machine with entries := entries }.pairing fingerprint =
        machine.pairing fingerprint ∨
      { machine with entries := entries }.pairing fingerprint = none) :
    Keeps links allowed machine { machine with entries := entries } := by
  have shrinks : Shrinks machine { machine with entries := entries } :=
    ⟨gone, fun linkEnd member => ⟨linkEnd, member, rfl, rfl, rfl⟩⟩
  refine ⟨?_, shrinks⟩
  intro own
  refine ⟨?_, ?_, ?_, own.named, own.sent, own.numbered, own.fair⟩
  · intro event member
    exact ⟨(own.queued event member).1, shrinks.notNewer (own.queued event member).2⟩
  · intro linkEnd member held closed
    obtain ⟨unheld, older⟩ := own.closed linkEnd member held closed
    exact ⟨unheld, shrinks.notNewer older⟩
  · intro task member fingerprint inside
    rcases gone fingerprint with same | none
    · rw [same]
      exact own.chosen task member fingerprint inside
    · exact none

theorem keeps_erase (fingerprint : String) :
    Keeps links allowed machine { machine with entries := machine.entries.erase fingerprint } :=
  keeps_entries machine (machine.pairing_erase fingerprint)

theorem pairing_insert (fp other : String) (entry : Option Pairing) :
    { machine with entries := machine.entries.insert fp entry }.pairing other =
      if other = fp then entry else machine.pairing other := by
  split
  · next same =>
    rw [same, pairing, AList.lookup_insert]
    rfl
  · next apart => rw [pairing, AList.lookup_insert_ne apart, pairing]

theorem keeps_approve (fp : String) :
    Keeps links allowed machine (machine.approve fp) := by
  unfold approve
  split
  · exact .refl machine
  · apply keeps_entries
    intro other
    rw [pairing_insert]
    split
    · exact .inr rfl
    · exact .inl rfl

variable {machine}

theorem notNewer_of_link (confirmed link made : Nat) :
    NotNewer (some ⟨confirmed, link⟩) link made := by
  intro held same
  left
  rw [← Option.some.inj same]

theorem Own.confirm {others : Notice → Prop} {confirmed link : Nat}
    (own : machine.Own links allowed) (unheard : ∀ event ∈ machine.heard, event.fingerprint ≠ peer)
    (unclosed : ∀ linkEnd ∈ machine.ends, linkEnd.peer = peer →
      linkEnd.closedAsRemoved → linkEnd.number = link)
    (unchosen : ∀ task ∈ machine.tasks, .inboundClose peer .removed ∉ task.work)
    (allows : ∀ notice ∈ machine.sent, notice.reason = .removed → allowed notice → others notice) :
    { machine with entries := machine.entries.insert peer (some ⟨confirmed, link⟩) }.Own links
      others := by
  constructor
  · intro event member
    rw [pairing_insert, if_neg (unheard event member)]
    exact own.queued event member
  · intro linkEnd member held closed
    obtain ⟨unheld, older⟩ := own.closed linkEnd member held closed
    refine ⟨unheld, ?_⟩
    rw [pairing_insert]
    split
    · next this =>
      rw [unclosed linkEnd member this (by rw [LinkEnd.closedAsRemoved, closed])]
      exact notNewer_of_link confirmed link linkEnd.made
    · exact older
  · intro task member fingerprint inside
    have apart : fingerprint ≠ peer := by
      rintro rfl
      exact unchosen task member inside
    rw [pairing_insert, if_neg apart]
    exact own.chosen task member fingerprint inside
  · exact own.named
  · intro notice member
    obtain ⟨below, known⟩ := own.sent notice member
    exact ⟨below, fun removed =>
      ⟨(known removed).1, allows notice member removed (known removed).2⟩⟩
  · exact own.numbered
  · exact own.fair

/-! ## Closing a link -/

theorem pairing_of_closeReason (removed : machine.closeReason fingerprint = .removed) :
    machine.pairing fingerprint = none := by
  unfold closeReason isKnown at removed
  split at removed
  · cases removed
  · next unknown =>
    rw [Bool.not_eq_true, Option.isSome_eq_false_iff, Option.isNone_iff_eq_none] at unknown
    rw [pairing, unknown]
    rfl

theorem pairing_close (machine : Machine Ip) (number : Nat) (peer : String) (reason : Reason)
    (fp : String) :
    (machine.close number peer reason).pairing fp = machine.pairing fp := by
  unfold close
  split
  · rfl
  · rfl

theorem mem_map_closed {ends : List (LinkEnd Ip)} {how : Closed} {linkEnd : LinkEnd Ip}
    (member : linkEnd ∈ ends.map fun linkEnd =>
      if openEnd number peer linkEnd then { linkEnd with closed := some how } else linkEnd) :
    ∃ earlier ∈ ends, earlier.number = linkEnd.number ∧ earlier.peer = linkEnd.peer ∧
      earlier.made = linkEnd.made ∧ (linkEnd.closed = earlier.closed ∨
        (linkEnd.closed = some how ∧ linkEnd.number = number ∧ linkEnd.peer = peer)) := by
  obtain ⟨earlier, inside, rfl⟩ := mem_map.mp member
  refine ⟨earlier, inside, ?_⟩
  split
  · next isOpen =>
    obtain ⟨sameNumber, samePeer, -⟩ := of_decide_eq_true isOpen
    exact ⟨rfl, rfl, rfl, .inr ⟨rfl, sameNumber, samePeer⟩⟩
  · exact ⟨rfl, rfl, rfl, .inl rfl⟩

theorem keeps_map_closed (machine : Machine Ip) {number : Nat} {peer : String} {how : Closed}
    (known : ∀ held, how = .byPeer .removed held → held = false ∧
      ∀ linkEnd ∈ machine.ends, linkEnd.number = number → linkEnd.peer = peer →
        NotNewer (machine.pairing peer) linkEnd.number linkEnd.made) :
    Keeps links allowed machine { machine with
      ends := machine.ends.map fun linkEnd =>
        if openEnd number peer linkEnd then { linkEnd with closed := some how } else linkEnd } := by
  constructor
  · intro own
    refine ⟨own.queued, ?_, own.chosen, own.named, own.sent, ?_, own.fair⟩
    · intro linkEnd member held closed
      obtain ⟨earlier, inside, sameNumber, samePeer, sameMade, same | ⟨here, isThat⟩⟩ :=
        mem_map_closed member
      · rw [← sameNumber, ← samePeer, ← sameMade]
        exact own.closed earlier inside held (same ▸ closed)
      · obtain ⟨unheld, older⟩ := known held (Option.some.inj (here.symm.trans closed))
        refine ⟨unheld, ?_⟩
        rw [← sameNumber, ← sameMade, isThat.2]
        exact older earlier inside (sameNumber.trans isThat.1) (samePeer.trans isThat.2)
    · intro linkEnd member
      obtain ⟨earlier, inside, sameNumber, -⟩ := mem_map_closed member
      exact sameNumber ▸ own.numbered earlier inside
  · refine ⟨fun _ => .inl rfl, ?_⟩
    intro linkEnd member
    obtain ⟨earlier, inside, sameNumber, samePeer, sameMade, -⟩ := mem_map_closed member
    exact ⟨earlier, inside, sameNumber, samePeer, sameMade⟩

theorem keeps_lose (machine : Machine Ip) (number : Nat) (peer : String) :
    Keeps links allowed machine (machine.lose number peer) := by
  apply keeps_map_closed
  simp

/-- A close that arrives is known at the end it closes. -/
theorem keeps_receive (machine : Machine Ip) {notice : Notice}
    (known : notice.reason = .removed → notice.held = false ∧
      ∀ linkEnd ∈ machine.ends, linkEnd.number = notice.link → linkEnd.peer = peer →
        NotNewer (machine.pairing peer) linkEnd.number linkEnd.made) :
    Keeps links allowed machine (machine.receive peer notice) := by
  apply keeps_map_closed
  intro held told
  injection told with asRemoved wasHeld
  obtain ⟨unheld, older⟩ := known asRemoved
  exact ⟨wasHeld ▸ unheld, older⟩

theorem keeps_close (permitted : reason = .removed → machine.ends.any (openEnd number peer) →
      machine.pairing peer = none ∧ allowed ⟨peer, number, .removed, false⟩) :
    Keeps links allowed machine (machine.close number peer reason) := by
  unfold close
  split
  · next opened =>
    have closed : Keeps links allowed machine _ :=
      @keeps_map_closed _ _ _ machine number peer .locally (by simp)
    refine ⟨?_, closed.shrinks.pairing, closed.shrinks.ends⟩
    intro own
    have rest := closed.own own
    refine ⟨rest.queued, rest.closed, rest.chosen, rest.named, ?_, rest.numbered, rest.fair⟩
    intro notice member
    rcases mem_append.mp member with earlier | fresh
    · exact own.sent notice earlier
    · obtain rfl := mem_singleton.mp fresh
      obtain ⟨linkEnd, inside, isOpen⟩ := any_eq_true.mp opened
      obtain ⟨sameNumber, -⟩ := of_decide_eq_true isOpen
      refine ⟨sameNumber ▸ own.numbered linkEnd inside, ?_⟩
      rintro rfl
      obtain ⟨unpaired, allows⟩ := permitted rfl opened
      rw [unpaired]
      exact ⟨rfl, allows⟩
  · exact .refl machine

theorem keeps_close_otherwise (machine : Machine Ip) (number : Nat) (peer : String) :
    Keeps links allowed machine (machine.close number peer .otherwise) := by
  apply keeps_close
  intro impossible
  cases impossible

theorem keeps_discard (machine : Machine Ip) (number : Nat) (peer : String) :
    Keeps links allowed machine (machine.discard number peer) := by
  refine (keeps_close_otherwise machine number peer).trans ⟨?_, ?_⟩
  · intro own
    refine ⟨own.queued, ?_, own.chosen, own.named, own.sent, ?_, own.fair⟩
    · intro linkEnd member
      exact own.closed linkEnd (mem_filter.mp member).1
    · intro linkEnd member
      exact own.numbered linkEnd (mem_filter.mp member).1
  · refine ⟨fun _ => .inl rfl, ?_⟩
    intro linkEnd member
    exact ⟨linkEnd, (mem_filter.mp member).1, rfl, rfl, rfl⟩

theorem any_openEnd_of_close {other : Nat} {otherPeer : String}
    (opened : (machine.close number peer reason).ends.any (openEnd other otherPeer)) :
    machine.ends.any (openEnd other otherPeer) := by
  unfold close at opened
  split at opened
  · obtain ⟨linkEnd, member, isOpen⟩ := any_eq_true.mp opened
    obtain ⟨earlier, inside, rfl⟩ := mem_map.mp member
    refine any_eq_true.mpr ⟨earlier, inside, ?_⟩
    by_cases closed : openEnd number peer earlier
    · rw [if_pos closed] at isOpen
      exact absurd (of_decide_eq_true isOpen).2.2 (by simp)
    · rwa [if_neg closed] at isOpen
  · exact opened

theorem keeps_closeAll (entries : List (ConnEntry Ip))
    (permitted : reason = .removed → ∀ entry ∈ entries,
      machine.ends.any (openEnd entry.number fingerprint) →
        machine.pairing fingerprint = none ∧ allowed ⟨fingerprint, entry.number, .removed, false⟩) :
    Keeps links allowed machine (entries.foldl (fun machine entry =>
      machine.close entry.number fingerprint reason) machine) := by
  induction entries generalizing machine with
  | nil => exact .refl machine
  | cons entry rest ih =>
    refine (keeps_close fun removed opened =>
      permitted removed entry mem_cons_self opened).trans (ih ?_)
    intro removed other member opened
    rw [pairing_close]
    exact permitted removed other (mem_cons_of_mem entry member) (any_openEnd_of_close opened)

/-! ## Removing -/

theorem keeps_cutSessions (machine : Machine Ip) (fp : String) :
    Keeps links allowed machine (machine.cutSessions (some fp) fp) := by
  apply keeps_addTask <;> simp [Names]

theorem keeps_removeClient (machine : Machine Ip) (about : Option String) (handle : Nat) :
    Keeps links allowed machine (machine.removeClient about handle) := by
  refine (keeps_addTask machine ?_ ?_).trans (.frame rfl rfl rfl rfl rfl rfl)
  · simp
  · simp [Names]

theorem keeps_removeAuthorizedKey (machine : Machine Ip) (fp : String) :
    Keeps links allowed machine (machine.removeAuthorizedKey fp) :=
  ((keeps_erase machine fp).trans (keeps_cutSessions _ fp)).trans
    (.frame rfl rfl rfl rfl rfl rfl)

theorem keeps_removeClients (about : Option String) (handles : List Nat) :
    Keeps links allowed machine (handles.foldl (fun machine handle =>
      machine.removeClient about handle) machine) := by
  induction handles generalizing machine with
  | nil => exact .refl machine
  | cons handle rest ih => exact (keeps_removeClient machine about handle).trans ih

theorem keeps_forget {event : RemovedBy} (held : event.held = false)
    (older : NotNewer (machine.pairing event.fingerprint) event.link event.made) :
    Keeps links allowed machine (machine.forgetMachineThatRemovedThisOne event) := by
  unfold forgetMachineThatRemovedThisOne
  split
  · refine Keeps.trans ?_ ((keeps_cutSessions _ _).trans (keeps_removeClients _ _))
    have erased : Keeps links allowed machine _ := keeps_erase machine event.fingerprint
    refine ⟨?_, erased.shrinks.pairing, erased.shrinks.ends⟩
    intro own
    have rest := erased.own own
    refine ⟨rest.queued, rest.closed, rest.chosen, rest.named, rest.sent, rest.numbered, ?_⟩
    intro forgotten member
    rcases mem_append.mp member with earlier | fresh
    · exact own.fair forgotten earlier
    · obtain rfl := mem_singleton.mp fresh
      exact ⟨held, older⟩
  · exact .refl machine

theorem keeps_queues (machine : Machine Ip) {emulationEvents refusals : List RemovedBy}
    (known : machine.Own links allowed → ∀ event ∈ emulationEvents ++ refusals,
      event ∈ machine.heard ∨ (event.held = false ∧
        NotNewer (machine.pairing event.fingerprint) event.link event.made)) :
    Keeps links allowed machine
      { machine with emulationEvents := emulationEvents, refusals := refusals } := by
  refine ⟨?_, fun _ => .inl rfl, fun linkEnd member => ⟨linkEnd, member, rfl, rfl, rfl⟩⟩
  intro own
  refine ⟨?_, own.closed, own.chosen, own.named, own.sent, own.numbered, own.fair⟩
  intro event member
  rcases known own event member with earlier | fresh
  · exact own.queued event earlier
  · exact fresh

theorem keeps_hears (own : machine.Own links allowed) (inbound : Bool) :
    Keeps links allowed machine (machine.hears inbound) := by
  unfold hears
  split
  · split
    · exact .refl machine
    · next event rest queue =>
      have first : event ∈ machine.heard := by simp [heard, queue]
      refine Keeps.trans (keeps_queues machine ?_)
        (keeps_forget (own.queued event first).1 (own.queued event first).2)
      intro _ other member
      left
      rw [heard, queue]
      exact mem_cons_of_mem event member
  · split
    · exact .refl machine
    · next event rest queue =>
      have first : event ∈ machine.heard := by simp [heard, queue]
      refine Keeps.trans (keeps_queues machine ?_)
        (keeps_forget (own.queued event first).1 (own.queued event first).2)
      intro _ other member
      left
      rw [heard, queue]
      rcases mem_append.mp member with early | late
      · exact mem_append_left _ early
      · exact mem_append_right _ (mem_cons_of_mem event late)

/-! ## The end of a link -/

theorem toldRemoved_known (own : machine.Own links allowed) {event : RemovedBy}
    (told : machine.toldRemoved number peer = some event) :
    event.held = false ∧ NotNewer (machine.pairing event.fingerprint) event.link event.made := by
  obtain ⟨linkEnd, found, said⟩ := Option.bind_eq_some_iff.mp told
  have isThat := List.find?_some found
  obtain ⟨sameNumber, samePeer⟩ := of_decide_eq_true isThat
  split at said
  · next held closed =>
    cases said
    rw [← sameNumber, ← samePeer]
    exact own.closed linkEnd (mem_of_find?_eq_some found) held closed
  · cases said

variable [DecidableEq Ip]

variable (machine)

theorem keeps_endsIn (index : Nat) : Keeps links allowed machine (machine.endsIn index) := by
  unfold endsIn
  split
  · next entry _ =>
    refine Keeps.trans ?_ ((keeps_discard _ entry.number entry.fingerprint).trans
      (.frame rfl rfl rfl rfl rfl rfl))
    refine (keeps_queues machine ?_).trans (.frame rfl rfl rfl rfl rfl rfl)
    intro own event member
    rcases mem_append.mp member with early | late
    · rcases mem_append.mp early with earlier | fresh
      · exact .inl (mem_append_left _ earlier)
      · exact .inr (toldRemoved_known own (Option.mem_toList.mp fresh))
    · exact .inl (mem_append_right _ late)
  · exact .refl machine

theorem keeps_clearLink (handle : Nat) (addr : SocketAddr Ip) :
    Keeps links allowed machine (machine.clearLink handle addr) := by
  unfold clearLink
  split
  · exact .refl machine
  · exact .frame rfl rfl rfl rfl rfl rfl

theorem keeps_takeOut (addr : SocketAddr Ip) :
    Keeps links allowed machine (machine.takeOut addr) := by
  unfold takeOut
  split
  · next link _ =>
    exact (keeps_close_otherwise machine link.serial link.fingerprint).trans
      (.frame rfl rfl rfl rfl rfl rfl)
  · exact .refl machine

theorem keeps_disconnect (handle : Nat) (addr : SocketAddr Ip) (ended : Option PeerLink) :
    Keeps links allowed machine (machine.disconnect handle addr ended) := by
  unfold disconnect
  split
  · next ended _ =>
    split
    · have closed : Keeps links allowed machine (machine.closeLink ended .otherwise) :=
        keeps_close_otherwise machine ended.serial ended.fingerprint
      split
      · exact closed
      · exact closed.trans (keeps_clearLink _ handle addr)
    · exact (keeps_takeOut machine addr).trans (keeps_clearLink _ handle addr)
  · exact (keeps_takeOut machine addr).trans (keeps_clearLink _ handle addr)

theorem keeps_endsOut (index : Nat) : Keeps links allowed machine (machine.endsOut index) := by
  unfold endsOut
  split
  · next addr link _ =>
    refine Keeps.trans ?_ ((keeps_disconnect _ link.handle addr (some link)).trans
      (keeps_discard _ link.serial link.fingerprint))
    refine (keeps_queues machine ?_).trans (.frame rfl rfl rfl rfl rfl rfl)
    intro own event member
    rcases mem_append.mp member with early | late
    · exact .inl (mem_append_left _ early)
    · rcases mem_append.mp late with earlier | fresh
      · exact .inl (mem_append_right _ earlier)
      · exact .inr (toldRemoved_known own (Option.mem_toList.mp fresh))
  · exact .refl machine

variable {machine}

/-! ## The tasks that close -/

/-- The links a part of a task would close as removed. -/
def namesAsRemoved (machine : Machine Ip) : Work Ip → List (Nat × String)
  | .inboundClose fingerprint .removed =>
    (machine.listed.filter (·.fingerprint = fingerprint)).map fun entry =>
      (entry.number, fingerprint)
  | .addr addr =>
    match machine.conns.lookup addr with
    | some link =>
      if machine.closeReason link.fingerprint = .removed then
        [(link.serial, link.fingerprint)]
      else []
    | none => []
  | _ => []

/-- Those of them that are open. -/
def closesAsRemoved (machine : Machine Ip) (work : Work Ip) : List (Nat × String) :=
  (machine.namesAsRemoved work).filter fun link => machine.ends.any (openEnd link.1 link.2)

theorem keeps_perform (chosen : ∀ fingerprint, work = .inboundClose fingerprint .removed →
      machine.pairing fingerprint = none)
    (permitted : ∀ link ∈ machine.closesAsRemoved work, allowed ⟨link.2, link.1, .removed, false⟩) :
    Keeps links allowed machine (machine.perform work).1 := by
  cases work with
  | inbound fingerprint | outbound fingerprint | device handle pin => exact .refl machine
  | inboundClose fingerprint reason =>
    refine (keeps_closeAll (machine.listed.filter (·.fingerprint = fingerprint)) ?_).trans
      (.frame rfl rfl rfl rfl rfl rfl)
    rintro rfl entry member opened
    refine ⟨chosen fingerprint rfl, permitted (entry.number, fingerprint) ?_⟩
    exact mem_filter.mpr ⟨mem_map.mpr ⟨entry, member, rfl⟩, opened⟩
  | addr addr =>
    simp only [perform]
    split
    · next link found =>
      apply keeps_close
      intro removed opened
      refine ⟨pairing_of_closeReason removed, permitted (link.serial, link.fingerprint) ?_⟩
      refine mem_filter.mpr ⟨?_, opened⟩
      simp [namesAsRemoved, found, removed]
    · exact .refl machine
  | remove addr => exact keeps_takeOut machine addr
  | disconnect handle addr => exact keeps_disconnect machine handle addr none

theorem unpaired_of_left (left : .inboundClose fingerprint .removed ∈ (machine.perform work).2) :
    machine.pairing fingerprint = none := by
  cases work with
  | inbound asked =>
    simp only [perform, mem_singleton, Work.inboundClose.injEq] at left
    obtain ⟨rfl, removed⟩ := left
    exact pairing_of_closeReason removed.symm
  | inboundClose asked reason | remove addr | disconnect handle addr => cases left
  | outbound asked | device handle pin => simp [perform] at left
  | addr addr =>
    simp only [perform] at left
    split at left <;> split at left <;> simp at left

theorem names_of_left {left : Work Ip} (named : Names fingerprint work)
    (inside : left ∈ (machine.perform work).2) : Names fingerprint left := by
  cases work with
  | inbound asked =>
    obtain rfl := mem_singleton.mp inside
    exact named
  | inboundClose asked reason | remove addr | disconnect handle addr => cases inside
  | outbound asked =>
    obtain ⟨addr, -, rfl⟩ := mem_map.mp inside
    trivial
  | device handle pin => exact named.elim
  | addr addr =>
    have onlyAddr : left = .remove addr ∨ ∃ handle, left = .disconnect handle addr := by
      simp only [perform] at inside
      split at inside <;> split at inside <;> simp at inside <;> grind
    rcases onlyAddr with rfl | ⟨handle, rfl⟩ <;> trivial

theorem keeps_works (own : machine.Own links allowed) {index : Nat}
    (permitted : ∀ task ∈ machine.tasks[index]?, ∀ work ∈ task.work.head?,
      ∀ link ∈ machine.closesAsRemoved work, allowed ⟨link.2, link.1, .removed, false⟩) :
    Keeps links allowed machine (machine.works index) := by
  unfold works
  split
  · next about work rest found =>
    have here : (⟨about, work :: rest⟩ : Task Ip) ∈ machine.tasks := mem_of_getElem? found
    have kept : Keeps links allowed machine (machine.perform work).1 := by
      apply keeps_perform
      · rintro fingerprint rfl
        exact own.chosen _ here fingerprint mem_cons_self
      · exact permitted _ found work rfl
    refine ⟨fun _ => (kept.own own).withTasks ?_ ?_, kept.shrinks.pairing, kept.shrinks.ends⟩
    rotate_left
    · intro task member fingerprint isAbout other inside
      rcases mem_or_eq_of_mem_set member with earlier | rfl
      · exact own.named task earlier fingerprint isAbout other inside
      · rcases mem_append.mp inside with left | later
        · exact names_of_left (own.named _ here fingerprint isAbout work mem_cons_self) left
        · exact own.named _ here fingerprint isAbout other (mem_cons_of_mem work later)
    have gone : ∀ fingerprint, machine.pairing fingerprint = none →
        (machine.perform work).1.pairing fingerprint = none := by
      intro fingerprint unpaired
      rcases kept.shrinks.pairing fingerprint with same | none
      · rw [same, unpaired]
      · exact none
    intro task member fingerprint inside
    rcases mem_or_eq_of_mem_set member with earlier | rfl
    · exact gone fingerprint (own.chosen task earlier fingerprint inside)
    · rcases mem_append.mp inside with left | later
      · exact gone fingerprint (unpaired_of_left left)
      · exact gone fingerprint (own.chosen _ here fingerprint (mem_cons_of_mem work later))
  · exact .refl machine

/-! ## The steps of one machine -/

theorem keeps_recordDial (machine : Machine Ip) (linkEnd : LinkEnd Ip) (handle : Nat) :
    Keeps links allowed machine (machine.recordDial linkEnd handle) := by
  unfold recordDial
  split
  · exact keeps_discard machine linkEnd.number linkEnd.peer
  · split
    · exact keeps_discard machine linkEnd.number linkEnd.peer
    · exact .frame rfl rfl rfl rfl rfl rfl

theorem keeps_adopt (machine : Machine Ip) (linkEnd : LinkEnd Ip) (handle : Nat) :
    Keeps links allowed machine (machine.adopt linkEnd handle) := by
  unfold adopt
  split
  · exact .frame rfl rfl rfl rfl rfl rfl
  · next old _ =>
    split
    · exact (keeps_close_otherwise machine old.serial old.fingerprint).trans
        (.frame rfl rfl rfl rfl rfl rfl)
    · exact keeps_discard machine linkEnd.number linkEnd.peer

def removedLinks (machine : Machine Ip) : Act Ip → List (Nat × String)
  | .stops number peer =>
    if machine.closeReason peer = .removed ∧ machine.ends.any (openEnd number peer) then
      [(number, peer)]
    else []
  | .works index =>
    ((machine.tasks[index]?).bind (·.work.head?)).toList.flatMap machine.closesAsRemoved
  | _ => []

theorem keeps_step (own : machine.Own links allowed) {act : Act Ip}
    (permitted : ∀ link ∈ machine.removedLinks act, allowed ⟨link.2, link.1, .removed, false⟩) :
    Keeps links allowed machine (machine.step act) := by
  cases act with
  | approve fingerprint => exact keeps_approve machine fingerprint
  | admits linkEnd =>
    simp only [step]
    split
    · exact .frame rfl rfl rfl rfl rfl rfl
    · exact .refl machine
  | recordsDial linkEnd handle =>
    simp only [step]
    split
    · exact keeps_recordDial machine linkEnd handle
    · exact .refl machine
  | adopts linkEnd handle =>
    simp only [step]
    split
    · exact keeps_adopt machine linkEnd handle
    · exact .refl machine
  | hangsUp number peer => exact keeps_close_otherwise machine number peer
  | stops number peer =>
    apply keeps_close
    intro removed opened
    refine ⟨pairing_of_closeReason removed, permitted (number, peer) ?_⟩
    rw [removedLinks, if_pos ⟨removed, opened⟩]
    exact mem_singleton_self _
  | discards number peer =>
    simp only [step]
    split
    · exact .refl machine
    · exact keeps_discard machine number peer
  | loses number peer => exact keeps_lose machine number peer
  | endsIn index => exact keeps_endsIn machine index
  | endsOut index => exact keeps_endsOut machine index
  | removes fingerprint => exact keeps_removeAuthorizedKey machine fingerprint
  | hears inbound => exact keeps_hears own inbound
  | works index =>
    apply keeps_works own
    intro task found work first link member
    apply permitted
    refine mem_flatMap.mpr ⟨work, ?_, member⟩
    rw [Option.mem_toList, Option.bind_eq_some_iff]
    exact ⟨task, found, first⟩
  | cutsDirection fingerprint inbound outbound =>
    apply keeps_addTask
    · intro task member other reason
      obtain rfl := mem_singleton.mp member
      cases inbound <;> cases outbound <;> simp
    · simp
  | switchesOff handle =>
    refine (keeps_addTask machine ?_ ?_).trans (.frame rfl rfl rfl rfl rfl rfl)
    · simp
    · simp
  | deletes handle => exact keeps_removeClient machine none handle
  | edits clients => exact .frame rfl rfl rfl rfl rfl rfl

end Machine

/-! ## The steps of all machines -/

namespace System

variable {Ip : Type} {system : System Ip}

@[simp] theorem machines_change_self (system : System Ip) (machine : String)
    (changed : Machine Ip) : (system.change machine changed).machines machine = changed :=
  update_self ..

variable {machine : String}

theorem machines_change_of_ne (system : System Ip) {other : String} (changed : Machine Ip)
    (apart : other ≠ machine) :
    (system.change machine changed).machines other = system.machines other :=
  update_of_ne apart ..

/-- The other machine's pairing is no newer than the link a close is about. -/
def Allowed (system : System Ip) (sender : String) (notice : Notice) : Prop :=
  ∀ linkEnd ∈ (system.machines notice.receiver).ends, linkEnd.number = notice.link →
    linkEnd.peer = sender →
      NotNewer ((system.machines notice.receiver).pairing sender) linkEnd.number linkEnd.made

/-- Every machine knows of removals only what they were about. -/
def Sound (system : System Ip) : Prop :=
  ∀ machine, (system.machines machine).Own system.links (system.Allowed machine)

theorem sound_start : (start : System Ip).Sound := by
  intro machine
  constructor <;> intro _ member <;> cases member

theorem Allowed.change {sender : String} {notice : Notice} {changed : Machine Ip}
    (allowed : system.Allowed sender notice)
    (shrinks : Machine.Shrinks (system.machines machine) changed) :
    (system.change machine changed).Allowed sender notice := by
  intro linkEnd member sameNumber samePeer
  by_cases here : notice.receiver = machine
  · subst here
    rw [machines_change_self] at member ⊢
    obtain ⟨earlier, inside, number, peer, made⟩ := shrinks.ends linkEnd member
    have older := shrinks.notNewer (allowed earlier inside (number.trans sameNumber)
      (peer.trans samePeer))
    rwa [number, made] at older
  · rw [machines_change_of_ne system changed here] at member ⊢
    exact allowed linkEnd member sameNumber samePeer

/-- A step of one machine that keeps what it knows keeps what all know. -/
theorem Sound.change (sound : system.Sound) {changed : Machine Ip}
    (keeps : Machine.Keeps system.links (system.Allowed machine) (system.machines machine)
      changed) : (system.change machine changed).Sound := by
  have allows : ∀ other (before : Machine Ip),
      before.Own system.links (system.Allowed other) →
        before.Own system.links ((system.change machine changed).Allowed other) := by
    intro other before own
    refine ⟨own.queued, own.closed, own.chosen, own.named, ?_, own.numbered, own.fair⟩
    intro notice member
    obtain ⟨below, known⟩ := own.sent notice member
    exact ⟨below, fun removed => ⟨(known removed).1, (known removed).2.change keeps.shrinks⟩⟩
  intro other
  apply allows
  by_cases here : other = machine
  · subst here
    rw [machines_change_self]
    exact keeps.own (sound other)
  · rw [machines_change_of_ne system changed here]
    exact sound other

theorem machine_connect (dialler listener : String) (ofDialler ofListener : SocketAddr Ip)
    (machine : String) :
    ∃ ends, (system.connect dialler listener ofDialler ofListener).machines machine =
        { system.machines machine with ends := ends } ∧
      ∀ linkEnd ∈ ends, linkEnd ∈ (system.machines machine).ends ∨
        (linkEnd.number = system.links ∧ linkEnd.closed = none) := by
  simp only [System.connect, System.change]
  by_cases isListener : machine = listener
  · subst isListener
    rw [update_self]
    by_cases isDialler : machine = dialler
    · subst isDialler
      rw [update_self]
      refine ⟨_, rfl, ?_⟩
      intro linkEnd member
      simp only [append_assoc, mem_append, mem_singleton] at member
      rcases member with earlier | rfl | rfl
      · exact .inl earlier
      · exact .inr ⟨rfl, rfl⟩
      · exact .inr ⟨rfl, rfl⟩
    · rw [update_of_ne isDialler]
      refine ⟨_, rfl, ?_⟩
      intro linkEnd member
      rcases mem_append.mp member with earlier | fresh
      · exact .inl earlier
      · obtain rfl := mem_singleton.mp fresh
        exact .inr ⟨rfl, rfl⟩
  · rw [update_of_ne isListener]
    by_cases isDialler : machine = dialler
    · subst isDialler
      rw [update_self]
      refine ⟨_, rfl, ?_⟩
      intro linkEnd member
      rcases mem_append.mp member with earlier | fresh
      · exact .inl earlier
      · obtain rfl := mem_singleton.mp fresh
        exact .inr ⟨rfl, rfl⟩
    · rw [update_of_ne isDialler]
      exact ⟨_, rfl, fun _ => .inl⟩

theorem Sound.connect (sound : system.Sound) (dialler listener : String)
    (ofDialler ofListener : SocketAddr Ip) :
    (system.connect dialler listener ofDialler ofListener).Sound := by
  have became := @machine_connect _ system dialler listener ofDialler ofListener
  intro machine
  obtain ⟨ends, same, fresh⟩ := became machine
  have own := sound machine
  rw [same]
  refine ⟨own.queued, ?_, own.chosen, own.named, ?_, ?_, own.fair⟩
  · intro linkEnd member held closed
    rcases fresh linkEnd member with earlier | ⟨-, unclosed⟩
    · exact own.closed linkEnd earlier held closed
    · rw [unclosed] at closed
      cases closed
  · intro notice member
    obtain ⟨below, known⟩ := own.sent notice member
    refine ⟨Nat.lt_succ_of_lt below, fun removed => ⟨(known removed).1, ?_⟩⟩
    intro linkEnd inside sameNumber samePeer
    obtain ⟨theirs, same, fresh⟩ := became notice.receiver
    rw [same] at inside ⊢
    rcases fresh linkEnd inside with earlier | ⟨number, -⟩
    · exact (known removed).2 linkEnd earlier sameNumber samePeer
    · omega
  · intro linkEnd member
    rcases fresh linkEnd member with earlier | ⟨number, -⟩
    · exact Nat.lt_succ_of_lt (own.numbered linkEnd earlier)
    · rw [number]
      exact Nat.lt_succ_self _

/--
Nothing of a removal of the machine is on its way: no event of it is queued, no
other link was closed by the peer as removed, no such close is in flight, and no
task chose to close the links with it as removed.
-/
def Quiet (system : System Ip) (machine peer : String) (link : Nat) : Prop :=
  (∀ event ∈ (system.machines machine).heard, event.fingerprint ≠ peer) ∧
    (∀ linkEnd ∈ (system.machines machine).ends, linkEnd.peer = peer →
      linkEnd.closedAsRemoved → linkEnd.number = link) ∧
    (∀ notice ∈ (system.machines peer).sent, notice.receiver = machine →
      notice.reason = .removed → notice.link = link) ∧
    ∀ task ∈ (system.machines machine).tasks, .inboundClose peer .removed ∉ task.work

theorem Sound.confirm (sound : system.Sound) {peer : String} {link : Nat}
    (quiet : system.Quiet machine peer link) : (system.confirm machine peer link).Sound := by
  unfold System.confirm
  dsimp only
  split
  · obtain ⟨unheard, unclosed, unsent, unchosen⟩ := quiet
    have allows : ∀ other, ∀ notice ∈ (system.machines other).sent,
        notice.reason = .removed → system.Allowed other notice →
          (system.change machine { system.machines machine with
            entries := (system.machines machine).entries.insert peer
              (some ⟨system.clock, link⟩) }).Allowed other notice := by
      intro other notice member removed allowed linkEnd inside sameNumber samePeer
      by_cases here : notice.receiver = machine
      · rw [here, machines_change_self] at inside ⊢
        rw [Machine.pairing_insert]
        split
        · next this =>
          subst this
          rw [sameNumber, unsent notice member here removed]
          exact Machine.notNewer_of_link system.clock link linkEnd.made
        · subst here
          exact allowed linkEnd inside sameNumber samePeer
      · rw [machines_change_of_ne _ _ here] at inside ⊢
        exact allowed linkEnd inside sameNumber samePeer
    intro other
    have own := sound other
    by_cases here : other = machine
    · subst here
      rw [machines_change_self]
      exact own.confirm unheard unclosed unchosen (allows other)
    · rw [machines_change_of_ne _ _ here]
      refine ⟨own.queued, own.closed, own.chosen, own.named, ?_, own.numbered, own.fair⟩
      intro notice member
      obtain ⟨below, known⟩ := own.sent notice member
      exact ⟨below, fun removed =>
        ⟨(known removed).1, allows other notice member removed (known removed).2⟩⟩
  · exact sound

theorem Sound.arrive (sound : system.Sound) (sender : String) (index : Nat) :
    (system.arrive sender index).Sound := by
  unfold System.arrive
  dsimp only
  split
  · next notice found =>
    have sending : notice ∈ (system.machines sender).sent := mem_of_getElem? found
    have known := ((sound sender).sent notice sending).2
    have taken : (system.change sender { system.machines sender with
        sent := (system.machines sender).sent.eraseIdx index }).Sound := by
      apply sound.change
      refine ⟨?_, fun _ => .inl rfl, fun linkEnd member => ⟨linkEnd, member, rfl, rfl, rfl⟩⟩
      intro own
      refine ⟨own.queued, own.closed, own.chosen, own.named, ?_, own.numbered, own.fair⟩
      intro other member
      exact own.sent other (mem_of_mem_eraseIdx member)
    apply taken.change
    apply Machine.keeps_receive
    intro removed
    refine ⟨(known removed).1, (known removed).2.change ?_⟩
    exact ⟨fun _ => .inl rfl, fun linkEnd member => ⟨linkEnd, member, rfl, rfl, rfl⟩⟩
  · exact sound

end System

end HopsFormal.Removal
