import HopsFormal.Removal.Notices

/-!
# A removal takes away only the pairing it was about

Nothing of a third machine is touched by a removal here, by the removal that is
heard of, or by a task one of them started, as long as what a task closes by its
address is still the removed machine's.  With what is known of the notices, this
is what a removal takes away in every run; a run in which a pairing is confirmed
while the notice of an earlier removal is on its way shows a fresh pairing go.
-/

namespace HopsFormal.Removal

open Option Lib Links ClientManager

/-- Nothing of a machine is touched: its record, its devices, its links and their ends. -/
structure Untouched {Ip : Type} [DecidableEq Ip] (third : String) (before after : Machine Ip) :
    Prop where
  entry : after.entries.lookup third = before.entries.lookup third
  device : ∀ handle device, device.peerFingerprint = some third →
    (after.clients.device handle = some device ↔ before.clients.device handle = some device)
  ends : after.ends.filter (·.peer = third) = before.ends.filter (·.peer = third)
  listed : after.listed.filter (·.fingerprint = third) =
    before.listed.filter (·.fingerprint = third)
  link : ∀ addr link, link.fingerprint = third →
    (after.conns.lookup addr = some link ↔ before.conns.lookup addr = some link)
  sent : after.sent.filter (·.receiver = third) = before.sent.filter (·.receiver = third)

namespace Untouched

variable {Ip : Type} [DecidableEq Ip] {third : String} {before middle after : Machine Ip}

theorem refl (third : String) (machine : Machine Ip) : Untouched third machine machine :=
  ⟨rfl, fun _ _ _ => Iff.rfl, rfl, rfl, fun _ _ _ => Iff.rfl, rfl⟩

theorem trans (first : Untouched third before middle) (second : Untouched third middle after) :
    Untouched third before after where
  entry := second.entry.trans first.entry
  device := fun handle device pinned =>
    (second.device handle device pinned).trans (first.device handle device pinned)
  ends := second.ends.trans first.ends
  listed := second.listed.trans first.listed
  link := fun addr link theirs =>
    (second.link addr link theirs).trans (first.link addr link theirs)
  sent := second.sent.trans first.sent

/-- A change of the devices that leaves those of the machine alone. -/
theorem ofClients (machine : Machine Ip) {clients : ClientManager Ip}
    (device : ∀ handle device, device.peerFingerprint = some third →
      (clients.device handle = some device ↔ machine.clients.device handle = some device)) :
    Untouched third machine { machine with clients := clients } :=
  ⟨rfl, device, rfl, rfl, fun _ _ _ => Iff.rfl, rfl⟩

theorem ofEntries (machine : Machine Ip) {removed : String} (apart : third ≠ removed) :
    Untouched third machine { machine with entries := machine.entries.erase removed } :=
  ⟨AList.lookup_erase_ne apart, fun _ _ _ => Iff.rfl, rfl, rfl, fun _ _ _ => Iff.rfl, rfl⟩

end Untouched

theorem ne_of_apart {third removed : String} (apart : eqIgnoreAsciiCase third removed = false) :
    third ≠ removed := by
  rintro rfl
  simp [eqIgnoreAsciiCase] at apart

namespace Machine

variable {Ip : Type} {third removed : String} {machine : Machine Ip}

/-! ## Closing the links of another machine -/

variable {fingerprint : String} {reason : Reason}

theorem listed_closeAll (entries : List (ConnEntry Ip)) (machine : Machine Ip) :
    (entries.foldl (fun machine entry =>
      machine.close entry.number fingerprint reason) machine).listed = machine.listed := by
  induction entries generalizing machine with
  | nil => rfl
  | cons entry rest ih =>
    rw [List.foldl_cons, ih]
    unfold close
    split
    · rfl
    · rfl

theorem conns_closeLink (machine : Machine Ip) (link : PeerLink) (reason : Reason) :
    (machine.closeLink link reason).conns = machine.conns := by
  unfold closeLink close
  split
  · rfl
  · rfl

variable [DecidableEq Ip]

theorem untouched_close (machine : Machine Ip) {number : Nat} {peer : String} {reason : Reason}
    (apart : third ≠ peer) : Untouched third machine (machine.close number peer reason) := by
  unfold close
  split
  · refine ⟨rfl, fun _ _ _ => Iff.rfl, ?_, rfl, fun _ _ _ => Iff.rfl, ?_⟩
    · induction machine.ends with
      | nil => rfl
      | cons linkEnd rest ih =>
        rw [List.map_cons, List.filter_cons, List.filter_cons, ih]
        by_cases closed : openEnd number peer linkEnd
        · have theirs : linkEnd.peer = peer := (of_decide_eq_true closed).2.1
          simp [closed, theirs, apart.symm]
        · rw [if_neg closed]
    · rw [List.filter_append]
      simp [apart.symm]
  · exact .refl third machine

theorem untouched_closeAll (entries : List (ConnEntry Ip)) (apart : third ≠ fingerprint)
    (machine : Machine Ip) : Untouched third machine (entries.foldl (fun machine entry =>
      machine.close entry.number fingerprint reason) machine) := by
  induction entries generalizing machine with
  | nil => exact .refl third machine
  | cons entry rest ih => exact (machine.untouched_close apart).trans (ih _)

/-- The link open at an address, if there is one, is the removed machine's. -/
def TheirsAt (machine : Machine Ip) (removed : String) (addr : SocketAddr Ip) : Prop :=
  ∀ link ∈ machine.conns.lookup addr, eqIgnoreAsciiCase link.fingerprint removed

theorem ne_of_theirs (apart : eqIgnoreAsciiCase third removed = false)
    (theirs : eqIgnoreAsciiCase fingerprint removed) : third ≠ fingerprint := by
  rintro rfl
  rw [apart] at theirs
  cases theirs

theorem untouched_takeOut (apart : eqIgnoreAsciiCase third removed = false)
    {addr : SocketAddr Ip} (theirs : machine.TheirsAt removed addr) :
    Untouched third machine (machine.takeOut addr) := by
  unfold takeOut
  split
  · next link found =>
    have other : third ≠ link.fingerprint := ne_of_theirs apart (theirs link found)
    refine (machine.untouched_close other).trans ⟨rfl, fun _ _ _ => Iff.rfl, rfl, rfl, ?_, rfl⟩
    intro at_ kept isThird
    have same : (machine.close link.serial link.fingerprint .otherwise).conns =
        machine.conns := machine.conns_closeLink link .otherwise
    rw [same]
    by_cases here : at_ = addr
    · subst here
      rw [AList.lookup_erase, found]
      constructor
      · intro impossible
        cases impossible
      · intro isThat
        rw [Option.some.inj isThat, isThird] at other
        exact absurd rfl other
    · rw [AList.lookup_erase_ne here]
  · exact .refl third machine

/-- A device's link is at another address, or the device is not another machine's. -/
def TheirDevice (machine : Machine Ip) (removed : String) (handle : Nat) (addr : SocketAddr Ip) :
    Prop :=
  (machine.clients.activeAddr handle).any (· ≠ addr) ∨
    ∀ pin ∈ machine.clients.peerFingerprint handle, eqIgnoreAsciiCase pin removed

omit [DecidableEq Ip] in
theorem map_device_iff {found : Option (Device Ip)} {change : Device Ip → Device Ip}
    (kept : ∀ device, (change device).peerFingerprint = device.peerFingerprint)
    (other : found.bind (·.peerFingerprint) ≠ some third) {device : Device Ip}
    (pinned : device.peerFingerprint = some third) :
    found.map change = some device ↔ found = some device := by
  cases found with
  | none => simp
  | some before =>
    simp only [map_some, Option.some.injEq]
    constructor
    · rintro rfl
      rw [kept] at pinned
      exact absurd pinned other
    · rintro rfl
      exact absurd pinned other

theorem untouched_clearLink (apart : eqIgnoreAsciiCase third removed = false) {handle : Nat}
    {addr : SocketAddr Ip} (theirs : machine.TheirDevice removed handle addr) :
    Untouched third machine (machine.clearLink handle addr) := by
  unfold clearLink
  split
  · exact .refl third machine
  · next here =>
    rcases theirs with elsewhere | theirs
    · exact absurd elsewhere here
    · apply Untouched.ofClients
      intro asked device pinned
      simp only [setPeerCaps, setPeerCommit, setAlive, setActiveAddr, device_update]
      by_cases same : asked = handle
      · subst same
        simp only [if_true, Option.map_map]
        refine map_device_iff ?_ ?_ pinned
        · intro before
          rfl
        · intro isThird
          exact ne_of_theirs apart (theirs third isThird) rfl
      · simp only [if_neg same]
        exact Iff.rfl

/-- What a task closes by its address is still the removed machine's. -/
def StillTheirs (machine : Machine Ip) (removed : String) : Work Ip → Prop
  | .addr addr => machine.TheirsAt removed addr
  | .remove addr => machine.TheirsAt removed addr
  | .disconnect handle addr =>
    machine.TheirsAt removed addr ∧ machine.TheirDevice removed handle addr
  | _ => True

instance (machine : Machine Ip) (removed : String) :
    DecidablePred (machine.StillTheirs removed)
  | .addr addr => inferInstanceAs (Decidable (∀ link ∈ machine.conns.lookup addr, _))
  | .remove addr => inferInstanceAs (Decidable (∀ link ∈ machine.conns.lookup addr, _))
  | .disconnect handle addr =>
    inferInstanceAs (Decidable ((∀ link ∈ machine.conns.lookup addr, _) ∧
      (_ ∨ ∀ pin ∈ machine.clients.peerFingerprint handle, _)))
  | .inbound _ | .inboundClose _ _ | .outbound _ | .device _ _ => instDecidableTrue

theorem untouched_perform (apart : eqIgnoreAsciiCase third removed = false) {work : Work Ip}
    (named : Names removed work) (theirs : machine.StillTheirs removed work) :
    Untouched third machine (machine.perform work).1 := by
  cases work with
  | inbound asked | outbound asked | device handle pin => exact .refl third machine
  | inboundClose asked reason =>
    obtain rfl := named
    refine (untouched_closeAll _ (ne_of_apart apart) machine).trans
      ⟨rfl, fun _ _ _ => Iff.rfl, rfl, ?_, fun _ _ _ => Iff.rfl, rfl⟩
    rw [listed_closeAll]
    change (machine.listed.filter _).filter _ = _
    rw [List.filter_filter]
    apply List.filter_congr
    intro entry _
    by_cases isThird : entry.fingerprint = third
    · simp [isThird, ne_of_apart apart]
    · simp [isThird]
  | addr addr =>
    simp only [perform]
    split
    · next link found =>
      exact machine.untouched_close (ne_of_theirs apart (theirs link found))
    · exact .refl third machine
  | remove addr => exact untouched_takeOut apart theirs
  | disconnect handle addr =>
    have clients : (machine.takeOut addr).clients = machine.clients := by
      unfold takeOut closeLink close
      split
      · split
        · rfl
        · rfl
      · rfl
    have taken := untouched_takeOut apart theirs.1
    have cleared : Untouched third (machine.takeOut addr)
        ((machine.takeOut addr).clearLink handle addr) := by
      apply untouched_clearLink apart
      rw [TheirDevice, clients]
      exact theirs.2
    simp only [perform, disconnect]
    split
    · next impossible => cases impossible
    · exact taken.trans cleared

/-! ## Removing another machine -/

theorem untouched_tasks (machine : Machine Ip) (tasks : List (Task Ip)) :
    Untouched third machine { machine with tasks := tasks } :=
  ⟨rfl, fun _ _ _ => Iff.rfl, rfl, rfl, fun _ _ _ => Iff.rfl, rfl⟩

theorem untouched_queues (machine : Machine Ip) (emulationEvents refusals : List RemovedBy) :
    Untouched third machine
      { machine with emulationEvents := emulationEvents, refusals := refusals } :=
  ⟨rfl, fun _ _ _ => Iff.rfl, rfl, rfl, fun _ _ _ => Iff.rfl, rfl⟩

theorem untouched_works (apart : eqIgnoreAsciiCase third removed = false) {index : Nat}
    {task : Task Ip} (found : machine.tasks[index]? = some task)
    (named : ∀ work ∈ task.work, Names removed work)
    (theirs : ∀ work ∈ task.work.head?, machine.StillTheirs removed work) :
    Untouched third machine (machine.works index) := by
  unfold works
  rw [found]
  split
  · next about work rest isThat =>
    cases isThat
    exact (untouched_perform apart (named work List.mem_cons_self) (theirs work rfl)).trans
      (untouched_tasks _ _)
  · exact .refl third machine

theorem untouched_removeAuthorizedKey (apart : eqIgnoreAsciiCase third removed = false) :
    Untouched third machine (machine.removeAuthorizedKey removed) := by
  have other := ne_of_apart apart
  refine (Untouched.ofEntries machine other).trans ((untouched_tasks _ _).trans
    (Untouched.ofClients _ ?_))
  intro handle device pinned
  rw [device_clearPinsMatching]
  change Option.map _ (machine.clients.device handle) = some device ↔
    machine.clients.device handle = some device
  cases found : machine.clients.device handle with
  | none => simp
  | some before =>
    simp only [map_some, Option.some.injEq]
    split
    · next isTheirs =>
      constructor
      · rintro rfl
        cases pinned
      · rintro rfl
        rw [isTheirs, Option.some.injEq] at pinned
        exact absurd pinned.symm other
    · exact Iff.rfl

theorem untouched_removeClient {about : Option String} {handle : Nat}
    (other : machine.clients.peerFingerprint handle ≠ some third) :
    Untouched third machine (machine.removeClient about handle) := by
  refine ⟨rfl, ?_, rfl, rfl, fun _ _ _ => Iff.rfl, rfl⟩
  intro asked device pinned
  rw [removeClient, device_removeClient]
  split
  · next same =>
    subst same
    constructor
    · intro impossible
      cases impossible
    · intro found
      rw [peerFingerprint, found] at other
      exact absurd pinned other
  · exact Iff.rfl

theorem untouched_removeClients {about : Option String} (handles : List Nat)
    (machine : Machine Ip)
    (others : ∀ handle ∈ handles, machine.clients.peerFingerprint handle ≠ some third) :
    Untouched third machine (handles.foldl (fun machine handle =>
      machine.removeClient about handle) machine) := by
  induction handles generalizing machine with
  | nil => exact .refl third machine
  | cons handle rest ih =>
    refine (untouched_removeClient (others handle List.mem_cons_self)).trans (ih _ ?_)
    intro later member
    simp only [removeClient, peerFingerprint, device_removeClient]
    split
    · simp
    · exact others later (List.mem_cons_of_mem handle member)

theorem untouched_forget {event : RemovedBy}
    (apart : eqIgnoreAsciiCase third event.fingerprint = false) :
    Untouched third machine (machine.forgetMachineThatRemovedThisOne event) := by
  unfold forgetMachineThatRemovedThisOne
  split
  · refine Untouched.trans ?_ (untouched_removeClients _ _ ?_)
    · exact (Untouched.ofEntries machine (ne_of_apart apart)).trans
        ⟨rfl, fun _ _ _ => Iff.rfl, rfl, rfl, fun _ _ _ => Iff.rfl, rfl⟩
    · intro handle member pinned
      obtain ⟨device, found, isTheirs⟩ := Table.mem_keysWhere.mp member
      have pin : device.peerFingerprint = some third := by
        rw [← pinned]
        simp [ClientManager.peerFingerprint, ClientManager.device, cutSessions, found]
      rw [pin] at isTheirs
      exact ne_of_theirs apart isTheirs rfl
  · exact .refl third machine

/-- The machine whose removal a step carries out. -/
def removalOf (machine : Machine Ip) : Act Ip → Option String
  | .removes fingerprint => some fingerprint
  | .hears true => machine.emulationEvents.head?.map (·.fingerprint)
  | .hears false => machine.refusals.head?.map (·.fingerprint)
  | .works index => (machine.tasks[index]?).bind (·.about)
  | _ => none

def taskOf (machine : Machine Ip) : Act Ip → Option (Task Ip)
  | .works index => machine.tasks[index]?
  | _ => none

/-- What a removal's task closes by its address in a step is still the removed machine's. -/
def ClosesTheirs (machine : Machine Ip) (act : Act Ip) : Prop :=
  ∀ task ∈ machine.taskOf act, ∀ removed ∈ task.about, ∀ work ∈ task.work.head?,
    machine.StillTheirs removed work

instance (machine : Machine Ip) (act : Act Ip) : Decidable (machine.ClosesTheirs act) :=
  inferInstanceAs (Decidable (∀ task ∈ machine.taskOf act, _))

theorem untouched_step {links : Nat} {allowed : Notice → Prop} (own : machine.Own links allowed)
    {act : Act Ip} (theirs : machine.ClosesTheirs act)
    (removes : machine.removalOf act = some removed)
    (apart : eqIgnoreAsciiCase third removed = false) :
    Untouched third machine (machine.step act) := by
  cases act with
  | removes fingerprint =>
    cases removes
    exact untouched_removeAuthorizedKey apart
  | hears inbound =>
    cases inbound with
    | true =>
      obtain ⟨event, first, rfl⟩ := map_eq_some_iff.mp removes
      obtain ⟨rest, queue⟩ := List.head?_eq_some_iff.mp first
      simp only [step, hears, queue, if_true]
      exact (untouched_queues machine _ _).trans (untouched_forget apart)
    | false =>
      obtain ⟨event, first, rfl⟩ := map_eq_some_iff.mp removes
      obtain ⟨rest, queue⟩ := List.head?_eq_some_iff.mp first
      simp only [step, hears, queue, Bool.false_eq_true, if_false]
      exact (untouched_queues machine _ _).trans (untouched_forget apart)
  | works index =>
    obtain ⟨task, found, about⟩ := bind_eq_some_iff.mp removes
    apply untouched_works apart found
    · exact own.named task (List.mem_of_getElem? found) removed about
    · exact theirs task found removed about
  | _ => cases removes

end Machine

/-! ## Every run -/

namespace System

variable {Ip : Type} [DecidableEq Ip] {system : System Ip}

/--
A pairing is confirmed only while no removal between its machines is on its way, a
link is closed as removed only while the other machine's pairing is no newer, and
what a removal closes by its address is still the removed machine's.
-/
def Meets (system : System Ip) : Act Ip → Prop
  | .here machine act =>
    (∀ link ∈ (system.machines machine).removedLinks act,
      system.Allowed machine ⟨link.2, link.1, .removed, false⟩) ∧
      (system.machines machine).ClosesTheirs act
  | .confirms machine peer link => system.Quiet machine peer link
  | _ => True

omit [DecidableEq Ip] in
instance (system : System Ip) (sender : String) (notice : Notice) :
    Decidable (system.Allowed sender notice) :=
  inferInstanceAs (Decidable (∀ linkEnd ∈ (system.machines notice.receiver).ends, _))

instance (system : System Ip) (machine peer : String) (link : Nat) :
    Decidable (system.Quiet machine peer link) :=
  inferInstanceAs (Decidable ((∀ event ∈ (system.machines machine).heard, _) ∧
    (∀ linkEnd ∈ (system.machines machine).ends, _) ∧
      (∀ notice ∈ (system.machines peer).sent, _) ∧ ∀ task ∈ (system.machines machine).tasks, _))

instance (system : System Ip) : DecidablePred system.Meets
  | .here machine act =>
    inferInstanceAs (Decidable ((∀ link ∈ (system.machines machine).removedLinks act, _) ∧ _))
  | .confirms machine peer link =>
    inferInstanceAs (Decidable (system.Quiet machine peer link))
  | .connects _ _ _ _ | .arrives _ _ => instDecidableTrue

def MeetsAll (system : System Ip) : List (Act Ip) → Prop
  | [] => True
  | act :: rest => system.Meets act ∧ (system.step act).MeetsAll rest

instance decidableMeetsAll (system : System Ip) :
    (acts : List (Act Ip)) → Decidable (system.MeetsAll acts)
  | [] => instDecidableTrue
  | act :: rest =>
    have := decidableMeetsAll (system.step act) rest
    inferInstanceAs (Decidable (system.Meets act ∧ _))

theorem Sound.step (sound : system.Sound) {act : Act Ip} (meets : system.Meets act) :
    (system.step act).Sound := by
  cases act with
  | here machine act => exact sound.change (Machine.keeps_step (sound machine) meets.1)
  | connects dialler listener ofDialler ofListener =>
    exact sound.connect dialler listener ofDialler ofListener
  | confirms machine peer link => exact sound.confirm meets
  | arrives sender index => exact sound.arrive sender index

theorem Sound.foldl {acts : List (Act Ip)} (sound : system.Sound)
    (meets : system.MeetsAll acts) : (acts.foldl System.step system).Sound := by
  induction acts generalizing system with
  | nil => exact sound
  | cons act rest ih => exact ih (sound.step meets.1) meets.2

theorem MeetsAll.split {earlier later : List (Act Ip)} {act : Act Ip}
    (meets : system.MeetsAll (earlier ++ act :: later)) :
    system.MeetsAll earlier ∧ (earlier.foldl System.step system).Meets act := by
  induction earlier generalizing system with
  | nil => exact ⟨trivial, meets.1⟩
  | cons first rest ih =>
    obtain ⟨before, there⟩ := ih meets.2
    exact ⟨⟨meets.1, before⟩, there⟩

/--
In every run that meets the condition, what any machine forgot on a `removed`
close is a pairing the other no longer held when it closed that link, and one no
newer than the link; and every step of a removal leaves the other machines alone
and, where it happens, everything of a third machine.
-/
theorem removal_takes_only_its_pairing (acts : List (Act Ip))
    (meets : (start : System Ip).MeetsAll acts) :
    (∀ machine, ∀ forgotten ∈ ((run acts).machines machine).forgotten, forgotten.Fair) ∧
      ∀ earlier machine act later, acts = earlier ++ .here machine act :: later →
        ∀ removed, ((run earlier).machines machine).removalOf act = some removed →
          (∀ third, eqIgnoreAsciiCase third removed = false →
            Untouched third ((run earlier).machines machine)
              ((run (earlier ++ [.here machine act])).machines machine)) ∧
          ∀ other, other ≠ machine →
            (run (earlier ++ [.here machine act])).machines other =
              (run earlier).machines other := by
  constructor
  · intro machine
    exact ((sound_start.foldl meets) machine).fair
  · rintro earlier machine act later rfl removed removes
    obtain ⟨before, here⟩ := meets.split
    have sound : (run earlier).Sound := sound_start.foldl before
    have next : run (earlier ++ [.here machine act]) = (run earlier).step (.here machine act) := by
      rw [run, List.foldl_append]
      rfl
    rw [next]
    constructor
    · intro third apart
      have after : ((run earlier).step (.here machine act)).machines machine =
          ((run earlier).machines machine).step act :=
        machines_change_self _ machine _
      rw [after]
      exact Machine.untouched_step (sound machine) here.2 removes apart
    · intro other apart
      exact machines_change_of_ne _ _ apart

/-- Two machines pair; the one that was dialled removes the other, which hears of it. -/
def removedOnce : List (Act Nat) :=
  [.here "a" (.edits (empty.addWithConfig ⟨none, [2], 1, true, none⟩)),
    .connects "a" "b" ⟨1, 9⟩ ⟨2, 1⟩, .confirms "a" "b" 0, .confirms "b" "a" 0,
    .here "b" (.admits ⟨0, "a", ⟨1, 9⟩, 1, none⟩),
    .here "a" (.recordsDial ⟨0, "b", ⟨2, 1⟩, 1, none⟩ 0), .here "b" (.removes "a"),
    .here "b" (.works 0), .here "b" (.works 0), .arrives "b" 0, .here "a" (.endsOut 0)]

theorem removal_takes_only_its_pairing_heard :
    (start : System Nat).MeetsAll (removedOnce ++ [.here "a" (.hears false)]) ∧
      ((run (removedOnce ++ [.here "a" (.hears false)])).machines "a").forgotten ≠ [] ∧
      ∀ forgotten ∈ ((run (removedOnce ++ [.here "a" (.hears false)])).machines "a").forgotten,
        forgotten.Fair := by
  have meets : (start : System Nat).MeetsAll (removedOnce ++ [.here "a" (.hears false)]) := by
    decide
  exact ⟨meets, by decide, (removal_takes_only_its_pairing _ meets).1 "a"⟩

/--
They pair again before the removal is heard of: the fresh pairing is forgotten on
the old link's notice, and its device with it, while the other machine holds it.
-/
theorem fresh_pairing_forgotten :
    let acts : List (Act Nat) := removedOnce ++
      [.connects "a" "b" ⟨1, 9⟩ ⟨2, 1⟩, .confirms "a" "b" 1, .confirms "b" "a" 1,
        .here "a" (.hears false)]
    ((run acts).machines "a").forgotten = [⟨⟨"b", 0, 1, false⟩, some ⟨12, 1⟩⟩] ∧
      (¬ ∀ forgotten ∈ ((run acts).machines "a").forgotten, forgotten.Fair) ∧
      ((run acts).machines "a").clients.devices.keys = [] ∧
      ((run acts).machines "b").pairing "a" = some ⟨13, 1⟩ := by
  decide

end System

end HopsFormal.Removal
