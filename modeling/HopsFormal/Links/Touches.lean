import HopsFormal.Links.Outbound
import HopsFormal.Lib.Basic

/-!
# What a step does to the links

Most steps leave the links and what they said alone.  The others add, remove or
edit a device, record a link, hear a frame, end a link or take one out of the
table; which of these a step does is read off the state before it.
-/

namespace HopsFormal.Links

open AList Lib
open Device ClientManager

variable {Ip : Type}

/-- The part of a device that its link decides. -/
def Device.shown (device : Device Ip) : Option (SocketAddr Ip) × Bool × Option UInt32 :=
  (device.activeAddr, device.alive, device.peerCaps)

/-- The part of a device that decides whether it may have a link. -/
def Device.standing (device : Device Ip) : Bool × Option String :=
  (device.active, device.peerFingerprint)

/-- What a step does to the links. -/
inductive Touch (Ip : Type) where
  | none
  | adds (config : ConfigClient Ip)
  | removes (handle : Nat)
  | renames (handle : Nat) (hostname : Option String)
  | ports (handle : Nat) (port : UInt16)
  | records (handle : Nat) (addr : SocketAddr Ip) (fingerprint : String) (dialledIn : Bool)
  | hears (addr : SocketAddr Ip) (link : PeerLink) (frame : Frame)
  | states (fingerprint : String) (flags : UInt32)
  | ends (handle : Nat) (addr : SocketAddr Ip) (ended : Option PeerLink) (loop : Option Nat)
  | drops (addr : SocketAddr Ip)

namespace Outbound

variable [DecidableEq Ip]

/-- Take the link at a device's address out of the table. -/
@[grind =]
def withoutLink (outbound : Outbound Ip) (handle : Nat) : Outbound Ip :=
  match outbound.clients.activeAddr handle with
  | some current => { outbound with conns := outbound.conns.erase current }
  | none => outbound

/-- The checks on a dial that landed, made under the lock. -/
def takesDial (outbound : Outbound Ip) (handle : Nat) (addr : SocketAddr Ip)
    (fingerprint : String) (greeted : Option Commit) : Bool :=
  outbound.clients.targets handle addr && outbound.clients.isOn handle &&
    ! outbound.linked handle && (outbound.clients.pin handle fingerprint).isOk &&
    (greeted.isNone || outbound.weMayDrive fingerprint)

/-- A link dialled in is taken unless this machine's own link is up. -/
def takesAdoption (outbound : Outbound Ip) (handle : Nat) : Bool :=
  ((outbound.clients.activeAddr handle).bind (outbound.conns.lookup ·)).all (·.dialledIn)

@[grind =]
def touch (outbound : Outbound Ip) : Act Ip → Touch Ip
  | .add config => .adds config
  | .remove handle => .removes handle
  | .setHostname handle hostname => .renames handle hostname
  | .setPort handle port => .ports handle port
  | .dialRecords handle =>
    match outbound.connecting.lookup handle with
    | some (.landed addr fingerprint greeted) =>
      if outbound.takesDial handle addr fingerprint greeted then
        .records handle addr fingerprint false
      else .none
    | _ => .none
  | .dialledIn fingerprint _ edgeFree =>
    if ofCertificate fingerprint then
      match outbound.clients.claimForDialIn fingerprint with
      | some _ => .none
      | none => .adds ⟨none, [], defaultPort, edgeFree, some fingerprint⟩
    else .none
  | .adoptionRecords index =>
    match outbound.adopting[index]? with
    | some adoption =>
      if adoption.stage = .opened ∧ outbound.takesAdoption adoption.handle then
        .records adoption.handle adoption.addr adoption.fingerprint true
      else .none
    | none => .none
  | .frame index frame =>
    match outbound.receiving[index]? with
    | some (addr, link) => .hears addr link frame
    | none => .none
  | .peerCaps fingerprint flags => .states fingerprint flags
  | .ends index =>
    match outbound.receiving[index]? with
    | some (addr, link) => .ends link.handle addr (some link) (some index)
    | none => .none
  | .pingFails index =>
    match outbound.pinging[index]? with
    | some (addr, link) => .ends link.handle addr (some link) none
    | none => .none
  | .sends index false =>
    match outbound.sending[index]? with
    | some sending => .ends sending.handle sending.addr (some sending.link) none
    | none => .none
  | .closes index =>
    match outbound.closing[index]? with
    | some (.remove addr) => .drops addr
    | some (.disconnect handle addr) => .ends handle addr none none
    | _ => .none
  | _ => .none

def touched (outbound : Outbound Ip) : Touch Ip → Outbound Ip
  | .none => outbound
  | .adds config => { outbound with clients := outbound.clients.addWithConfig config }
  | .removes handle => { outbound with clients := outbound.clients.removeClient handle }
  | .renames handle hostname =>
    { outbound with clients := outbound.clients.setHostname handle hostname }
  | .ports handle port => { outbound with clients := outbound.clients.setPort handle port }
  | .records handle addr fingerprint dialledIn =>
    (outbound.withoutLink handle).record handle addr fingerprint dialledIn
  | .hears addr link frame => outbound.receive addr link frame
  | .states fingerprint flags => outbound.handlePeerCaps fingerprint flags
  | .ends handle addr ended loop =>
    { outbound with
      receiving := loop.elim outbound.receiving outbound.receiving.eraseIdx }.disconnect handle
        addr ended
  | .drops addr => { outbound with conns := outbound.conns.erase addr }

@[simp] theorem withoutLink_clients (outbound : Outbound Ip) (handle : Nat) :
    (outbound.withoutLink handle).clients = outbound.clients := by
  unfold withoutLink
  split <;> rfl

@[simp] theorem withoutLink_recorded (outbound : Outbound Ip) (handle : Nat) :
    (outbound.withoutLink handle).recorded = outbound.recorded := by
  unfold withoutLink
  split <;> rfl

@[simp] theorem withoutLink_receiving (outbound : Outbound Ip) (handle : Nat) :
    (outbound.withoutLink handle).receiving = outbound.receiving := by
  unfold withoutLink
  split <;> rfl

@[simp] theorem withoutLink_heard (outbound : Outbound Ip) (handle : Nat) :
    (outbound.withoutLink handle).heard = outbound.heard := by
  unfold withoutLink
  split <;> rfl

theorem lookup_withoutLink (outbound : Outbound Ip) (handle : Nat) (addr : SocketAddr Ip) :
    (outbound.withoutLink handle).conns.lookup addr =
      if outbound.clients.activeAddr handle = some addr then none
      else outbound.conns.lookup addr := by
  unfold withoutLink
  split
  · next current active =>
    rw [active]
    by_cases same : current = addr
    · subst same
      rw [if_pos rfl]
      exact lookup_erase _ _
    · rw [if_neg fun equal => same (Option.some.inj equal)]
      exact lookup_erase_ne (Ne.symm same)
  · next inactive => rw [inactive, if_neg (by simp)]

theorem lookup_record (outbound : Outbound Ip) (handle : Nat) (addr other : SocketAddr Ip)
    (fp : String) (dialledIn : Bool) :
    (outbound.record handle addr fp dialledIn).conns.lookup other =
      if other = addr then
        some ⟨outbound.recorded.length, fp, handle, dialledIn⟩
      else outbound.conns.lookup other := by
  split
  · next same =>
    subst same
    exact lookup_insert _
  · next apart => exact lookup_insert_ne apart

/-- Two states with the same links, of devices whose links say the same. -/
structure Alike (first second : Outbound Ip) : Prop where
  conns : ∀ addr, second.conns.lookup addr = first.conns.lookup addr
  recorded : second.recorded = first.recorded
  receiving : second.receiving = first.receiving
  heard : second.heard = first.heard
  next : second.clients.next = first.clients.next
  answered : second.clients.answered = first.clients.answered
  shown : ∀ handle, (second.clients.device handle).map shown =
    (first.clients.device handle).map shown

theorem Alike.refl (outbound : Outbound Ip) : Alike outbound outbound :=
  ⟨fun _ => rfl, rfl, rfl, rfl, rfl, rfl, fun _ => rfl⟩

variable {outbound other : Outbound Ip} {handle : Nat} {fingerprint : String} {addr : SocketAddr Ip}
  {greeted : Option Commit}

/-- Two states with the same links, on which the same was heard. -/
structure SameLinks (first second : Outbound Ip) : Prop where
  conns : second.conns = first.conns
  recorded : second.recorded = first.recorded
  receiving : second.receiving = first.receiving
  heard : second.heard = first.heard

/-- The devices differ in nothing that a link decided. -/
structure SameShown (before after : ClientManager Ip) : Prop where
  next : after.next = before.next
  answered : after.answered = before.answered
  shown : ∀ handle, (after.device handle).map shown = (before.device handle).map shown

omit [DecidableEq Ip] in
theorem SameShown.refl (clients : ClientManager Ip) : SameShown clients clients :=
  ⟨rfl, rfl, fun _ => rfl⟩

omit [DecidableEq Ip] in
theorem SameShown.trans {before between after : ClientManager Ip} (one : SameShown before between)
    (two : SameShown between after) : SameShown before after :=
  ⟨two.next.trans one.next, two.answered.trans one.answered,
    fun handle => (two.shown handle).trans (one.shown handle)⟩

section

variable (links : SameLinks outbound other)
include links

theorem alike_of_shown (shown : SameShown outbound.clients other.clients) : Alike outbound other :=
  ⟨fun _ => by rw [links.conns], links.recorded, links.receiving, links.heard, shown.next,
    shown.answered, shown.shown⟩

theorem alike_of_clients (clients : other.clients = outbound.clients) : Alike outbound other :=
  alike_of_shown links (clients ▸ .refl _)

/-- Ending a link looks at the links and the devices only. -/
theorem alike_disconnect (clients : other.clients = outbound.clients) (handle : Nat)
    (addr : SocketAddr Ip) (ended : Option PeerLink) :
    Alike (outbound.disconnect handle addr ended) (other.disconnect handle addr ended) := by
  have newer : other.newerAt addr ended = outbound.newerAt addr ended := by
    simp only [newerAt, links.conns]
  have cleared {first second : Outbound Ip} (links : SameLinks first second)
      (clients : second.clients = first.clients) :
      Alike (first.clearLink handle addr) (second.clearLink handle addr) := by
    unfold clearLink
    rw [clients]
    split
    · exact alike_of_clients links clients
    · exact alike_of_clients ⟨links.conns, links.recorded, links.receiving, links.heard⟩ rfl
  unfold disconnect
  rw [newer]
  split
  · split
    · exact alike_of_clients links clients
    · exact cleared links clients
  · exact cleared ⟨by rw [links.conns], links.recorded, links.receiving, links.heard⟩ clients

end

section

omit [DecidableEq Ip]

variable {clients : ClientManager Ip}

/-- A change of one device in nothing its link decided. -/
theorem shown_update {change : Device Ip → Device Ip}
    (kept : ∀ device, (change device).shown = device.shown) :
    SameShown clients (clients.update handle change) :=
  ⟨rfl, rfl, fun other => map_device_update kept _ handle other⟩

theorem shown_pin {pinned : ClientManager Ip} (taken : clients.pin handle fingerprint = .ok pinned) :
    SameShown clients pinned := by
  obtain ⟨-, rfl⟩ := pin_ok taken
  have kept : ∀ device : Device Ip,
      shown { device with peerFingerprint := some fingerprint } = device.shown :=
    fun _ => rfl
  exact ⟨rfl, rfl, fun other => map_device_update kept _ handle other⟩

theorem shown_clearPins : SameShown clients (clients.clearPinsMatching fingerprint) := by
  refine ⟨rfl, rfl, fun k => ?_⟩
  rw [device_clearPinsMatching, Option.map_map]
  congr 1
  funext device
  simp only [Function.comp_apply]
  split <;> rfl

theorem shown_peerHello (outbound : Outbound Ip) (fingerprint : String) (commit : Commit) :
    SameShown outbound.clients (outbound.handlePeerHello fingerprint commit).clients :=
  List.foldlRecOn _ _ (.refl _) fun _ kept _ _ => kept.trans (shown_update fun _ => rfl)

theorem setAnsweredAs_devices (clients : ClientManager Ip) (handle : Nat)
    (answered : Option (SocketAddr Ip × String)) :
    (clients.setAnsweredAs handle answered).devices = clients.devices ∧
      (clients.setAnsweredAs handle answered).next = clients.next ∧
      (clients.setAnsweredAs handle answered).answered = clients.answered := by
  unfold setAnsweredAs
  split
  · split <;> exact ⟨rfl, rfl, rfl⟩
  · exact ⟨rfl, rfl, rfl⟩

theorem shown_answeredAs (answered : Option (SocketAddr Ip × String)) :
    SameShown clients (clients.setAnsweredAs handle answered) := by
  obtain ⟨devices, next, asked⟩ := setAnsweredAs_devices clients handle answered
  refine ⟨next, asked, fun k => ?_⟩
  rw [device, devices]
  rfl

theorem shown_setActiveAddr {other : ClientManager Ip} (same : SameShown clients other)
    (handle : Nat) (addr : Option (SocketAddr Ip)) (k : Nat) :
    ((other.setActiveAddr handle addr).device k).map shown =
      ((clients.setActiveAddr handle addr).device k).map shown := by
  have here := same.shown k
  simp only [setActiveAddr, device_update]
  split
  · revert here
    simp only [device]
    cases other.devices.lookup k <;> cases clients.devices.lookup k <;> simp [shown]
  · exact here

end

theorem shown_claim {clients after : ClientManager Ip}
    (claimed : clients.claimForDialIn fingerprint = some (handle, after)) :
    SameShown clients after := by
  rcases claimForDialIn_cases claimed with ⟨_, rfl⟩ | ⟨pins, _⟩
  · exact .refl _
  · exact shown_pin pins

theorem recordDial_taken (taken : outbound.takesDial handle addr fingerprint greeted = true) :
    ∃ pinned, outbound.clients.pin handle fingerprint = .ok pinned ∧
      outbound.linked handle = false ∧
      outbound.recordDial handle addr fingerprint greeted =
        ({ outbound with clients := pinned }.record handle addr fingerprint false).greet handle
          greeted := by
  simp only [takesDial, Bool.and_eq_true, Bool.not_eq_true'] at taken
  obtain ⟨⟨⟨⟨targets, on⟩, unlinked⟩, pins⟩, permitted⟩ := taken
  cases pinned : outbound.clients.pin handle fingerprint with
  | error refused =>
    rw [pinned] at pins
    cases pins
  | ok clients =>
    refine ⟨clients, rfl, unlinked, ?_⟩
    have allowed : ¬ (greeted.isSome = true ∧ ¬ outbound.weMayDrive fingerprint = true) := by
      rintro ⟨paired, refused⟩
      rw [Option.isSome_iff_ne_none] at paired
      simp [paired, refused] at permitted
    simp only [recordDial, targets, on, unlinked, pinned, not_true, if_false,
      Bool.false_eq_true, if_neg allowed]

theorem recordDial_refused_cases
    (refused : outbound.takesDial handle addr fingerprint greeted = false) :
    outbound.recordDial handle addr fingerprint greeted = outbound ∨
      ∃ pinned, outbound.clients.pin handle fingerprint = .ok pinned ∧
        outbound.recordDial handle addr fingerprint greeted =
          { outbound with clients := pinned } := by
  unfold recordDial
  split
  · exact .inl rfl
  split
  · exact .inl rfl
  split
  · exact .inl rfl
  split
  · exact .inl rfl
  · next targets on unlinked _ pinned pins =>
    dsimp only
    split
    · exact .inr ⟨pinned, pins, rfl⟩
    · next permitted =>
      exfalso
      rw [not_and_or, Decidable.not_not] at permitted
      simp only [Decidable.not_not] at targets on
      rcases permitted with unpaired | permitted
      · simp [takesDial, targets, on, unlinked, pins, Except.isOk, Except.toBool] at refused
        exact unpaired (by simp [refused.1])
      · simp [takesDial, targets, on, unlinked, pins, permitted, Except.isOk,
          Except.toBool] at refused

theorem recordDial_refused (refused : outbound.takesDial handle addr fingerprint greeted = false) :
    Alike outbound (outbound.recordDial handle addr fingerprint greeted) := by
  rcases recordDial_refused_cases refused with same | ⟨pinned, pins, same⟩
  · rw [same]
    exact .refl _
  · rw [same]
    exact alike_of_shown ⟨rfl, rfl, rfl, rfl⟩ (shown_pin pins)

theorem alike_record
    (conns : ∀ addr, other.conns.lookup addr = (outbound.withoutLink handle).conns.lookup addr)
    (recorded : other.recorded = outbound.recorded)
    (receiving : other.receiving = outbound.receiving) (heard : other.heard = outbound.heard)
    (shown : SameShown outbound.clients other.clients) (addr : SocketAddr Ip)
    (fp : String) (dialledIn : Bool) :
    Alike ((outbound.withoutLink handle).record handle addr fp dialledIn)
      (other.record handle addr fp dialledIn) := by
  constructor
  · intro at'
    rw [lookup_record, lookup_record, recorded, withoutLink_recorded, conns]
  · simp [record, recorded]
  · simp [record, recorded, receiving]
  · simp [record, heard]
  · simp [record, setActiveAddr, shown.next]
  · simp [record, setActiveAddr, shown.answered]
  · intro k
    simpa [record] using shown_setActiveAddr shown handle (some addr) k

theorem alike_greet (alike : Alike outbound other) (handle : Nat) (greeted : Option Commit) :
    Alike outbound (other.greet handle greeted) := by
  cases greeted with
  | none => exact alike
  | some commit =>
    have kept : ∀ device : Device Ip,
        shown { device with peerCommit := some commit } = device.shown :=
      fun _ => rfl
    exact ⟨alike.conns, alike.recorded, alike.receiving, alike.heard, alike.next, alike.answered,
      fun k => (map_device_update kept _ handle k).trans (alike.shown k)⟩

theorem alike_dial (taken : outbound.takesDial handle addr fingerprint greeted = true)
    (connecting : Table Nat (Dialling Ip)) :
    Alike ((outbound.withoutLink handle).record handle addr fingerprint false)
      ({ outbound with connecting := connecting }.recordDial handle addr fingerprint greeted) := by
  have ready : { outbound with connecting := connecting }.takesDial handle addr fingerprint
      greeted = true := taken
  obtain ⟨pinned, pins, unlinked, recorded⟩ := recordDial_taken ready
  rw [recorded]
  apply alike_greet
  apply alike_record
  · intro other
    rw [lookup_withoutLink]
    split
    · next active =>
      rw [linked] at unlinked
      rw [active] at unlinked
      simpa using unlinked
    · rfl
  all_goals first | rfl | exact shown_pin pins

theorem alike_adoption (taken : outbound.takesAdoption handle = true)
    (adopting : List (Adoption Ip)) (addr : SocketAddr Ip) (fp : String) :
    Alike ((outbound.withoutLink handle).record handle addr fp true)
      ({ outbound with adopting := adopting }.recordAdoption handle addr fp) := by
  have unlinked (absent : ∀ current, outbound.clients.activeAddr handle = some current →
      outbound.conns.lookup current = none) :
      Alike ((outbound.withoutLink handle).record handle addr fp true)
        ({ outbound with adopting := adopting }.record handle addr fp true) := by
    apply alike_record
    · intro other
      rw [lookup_withoutLink]
      split
      · next active => exact absent other active
      · rfl
    all_goals first | rfl | exact .refl _
  unfold recordAdoption
  split
  · next inactive => exact unlinked (by simp [inactive])
  · next current active =>
    split
    · next absent =>
      refine unlinked ?_
      rintro other equal
      cases active.symm.trans equal
      exact absent
    · next old up =>
      rw [takesAdoption, active] at taken
      rw [if_pos (by simpa [up] using taken)]
      apply alike_record
      · intro other
        rw [withoutLink, active]
      all_goals first | rfl | exact .refl _

theorem recordAdoption_refused (refused : outbound.takesAdoption handle = false)
    (addr : SocketAddr Ip) (fp : String) :
    outbound.recordAdoption handle addr fp = outbound := by
  rw [takesAdoption] at refused
  unfold recordAdoption
  split
  · next inactive => simp [inactive] at refused
  · next current active =>
    rw [active] at refused
    split
    · next absent => simp [absent] at refused
    · next old up => rw [if_neg (by simpa [up] using refused)]

variable (outbound)

theorem startSending_alike (handle : Nat) (addr : SocketAddr Ip) (may : PeerLink → Bool) :
    Alike outbound (outbound.startSending handle addr may) := by
  unfold startSending
  split
  · exact .refl _
  · split
    · exact alike_of_clients ⟨rfl, rfl, rfl, rfl⟩ rfl
    · exact .refl _

theorem step_alike_dial (handle : Nat) :
    Alike (outbound.touched (outbound.touch (.dialRecords handle)))
      (outbound.step (.dialRecords handle)) := by
  simp only [step, touch]
  cases waiting : outbound.connecting.lookup handle with
  | none => exact .refl _
  | some dialling =>
    cases dialling with
    | calling addrs expected | pairing addr fingerprint => exact .refl _
    | landed addr fingerprint greeted =>
      dsimp only
      split
      · next taken => exact alike_dial taken _
      · next refused =>
        let ready := { outbound with connecting := outbound.connecting.erase handle }
        have unready : ready.takesDial handle addr fingerprint greeted = false :=
          Bool.eq_false_iff.mpr refused
        have alike := recordDial_refused unready
        exact ⟨alike.conns, alike.recorded, alike.receiving, alike.heard, alike.next,
          alike.answered, alike.shown⟩

theorem step_alike_adoption (index : Nat) :
    Alike (outbound.touched (outbound.touch (.adoptionRecords index)))
      (outbound.step (.adoptionRecords index)) := by
  simp only [step, touch]
  cases found : outbound.adopting[index]? with
  | none => exact .refl _
  | some adoption =>
    dsimp only
    by_cases opened : adoption.stage = .opened
    · rw [if_pos opened]
      by_cases taken : outbound.takesAdoption adoption.handle = true
      · rw [if_pos ⟨opened, taken⟩]
        exact alike_adoption taken _ _ _
      · rw [if_neg fun both => taken both.2]
        let ready := { outbound with adopting := outbound.adopting.eraseIdx index }
        have refused : ready.takesAdoption adoption.handle = false :=
          Bool.eq_false_iff.mpr taken
        rw [recordAdoption_refused refused]
        exact alike_of_clients ⟨rfl, rfl, rfl, rfl⟩ rfl
    · rw [if_neg opened, if_neg fun both => opened both.1]
      exact .refl _

theorem step_alike_close (index : Nat) :
    Alike (outbound.touched (outbound.touch (.closes index))) (outbound.step (.closes index)) := by
  simp only [step, touch]
  cases found : outbound.closing[index]? with
  | none => exact .refl _
  | some closing =>
    cases closing with
    | fingerprint fingerprint | device handle pin | remove addr =>
      exact alike_of_clients ⟨rfl, rfl, rfl, rfl⟩ rfl
    | addr addr =>
      simp only [close]
      split
      · exact alike_of_clients ⟨rfl, rfl, rfl, rfl⟩ rfl
      · exact alike_of_clients ⟨rfl, rfl, rfl, rfl⟩ rfl
    | disconnect handle addr =>
      apply alike_disconnect
      · exact ⟨rfl, rfl, rfl, rfl⟩
      · rfl

theorem step_alike_dialledIn (fp : String) (addr : SocketAddr Ip) (edgeFree : Bool) :
    Alike (outbound.touched (outbound.touch (.dialledIn fp addr edgeFree)))
      (outbound.step (.dialledIn fp addr edgeFree)) := by
  simp only [step, touch]
  split
  · unfold handleDialledIn
    cases claimed : outbound.clients.claimForDialIn fp with
    | some claim =>
      obtain ⟨handle, clients⟩ := claim
      exact alike_of_shown ⟨rfl, rfl, rfl, rfl⟩ (shown_claim claimed)
    | none => exact alike_of_clients ⟨rfl, rfl, rfl, rfl⟩ rfl
  · exact .refl _

theorem step_alike (act : Act Ip) :
    Alike (outbound.touched (outbound.touch act)) (outbound.step act) := by
  cases act with
  | add config | setHostname handle hostname | setPort handle port
  | peerCaps fingerprint flags => exact .refl _
  | peerHello fingerprint commit =>
    exact alike_of_shown ⟨rfl, rfl, rfl, rfl⟩ (shown_peerHello outbound fingerprint commit)
  | remove handle | grant fingerprint | adoptionFails index =>
    exact alike_of_clients ⟨rfl, rfl, rfl, rfl⟩ rfl
  | switchOn handle | switchOff handle | setFixIps handle ips | setDnsIps handle ips =>
    exact alike_of_shown ⟨rfl, rfl, rfl, rfl⟩ (shown_update fun _ => rfl)
  | pin handle fingerprint =>
    simp only [step, touch, touched]
    split
    · next clients pins =>
      split
      · exact alike_of_shown ⟨rfl, rfl, rfl, rfl⟩ (shown_pin pins)
      · exact .refl _
    · exact .refl _
  | revoke fingerprint forget =>
    cases forget with
    | true => exact alike_of_shown ⟨rfl, rfl, rfl, rfl⟩ shown_clearPins
    | false => exact alike_of_clients ⟨rfl, rfl, rfl, rfl⟩ rfl
  | dropPins fingerprint =>
    simp only [step, touch, touched]
    split
    · exact .refl _
    · exact alike_of_shown ⟨rfl, rfl, rfl, rfl⟩ shown_clearPins
  | dial handle =>
    simp only [step, touch, touched]
    split
    · exact .refl _
    · split
      · exact .refl _
      · exact alike_of_clients ⟨rfl, rfl, rfl, rfl⟩ rfl
  | dialLands handle addr fingerprint | adoptionChecks index | adoptionOpens index =>
    simp only [step, touch, touched]
    split
    · split
      · exact alike_of_clients ⟨rfl, rfl, rfl, rfl⟩ rfl
      · exact .refl _
    · exact .refl _
  | dialMeets handle addr fingerprint =>
    simp only [step, touch, touched]
    split
    · split
      · split
        · exact alike_of_shown ⟨rfl, rfl, rfl, rfl⟩ (shown_answeredAs (some (addr, fingerprint)))
        · exact alike_of_clients ⟨rfl, rfl, rfl, rfl⟩ rfl
      · exact .refl _
    · exact .refl _
  | dialPairs handle commit =>
    simp only [step, touch, touched]
    split
    · exact alike_of_clients ⟨rfl, rfl, rfl, rfl⟩ rfl
    · exact .refl _
  | dialFails handle read =>
    simp only [step, touch, touched]
    split
    · cases read with
      | none => exact alike_of_clients ⟨rfl, rfl, rfl, rfl⟩ rfl
      | some read => exact alike_of_shown ⟨rfl, rfl, rfl, rfl⟩ (shown_answeredAs read)
    · exact alike_of_clients ⟨rfl, rfl, rfl, rfl⟩ rfl
    · exact .refl _
  | dialRecords handle => exact step_alike_dial outbound handle
  | dialledIn fingerprint addr edgeFree =>
    exact step_alike_dialledIn outbound fingerprint addr edgeFree
  | adoptionRecords index => exact step_alike_adoption outbound index
  | frame index frame | ends index =>
    simp only [step, touch]
    cases outbound.receiving[index]? with
    | none | some entry => exact .refl _
  | pingFails index =>
    simp only [step, touch]
    cases outbound.pinging[index]? with
    | none => exact .refl _
    | some entry =>
      apply alike_disconnect
      · exact ⟨rfl, rfl, rfl, rfl⟩
      · rfl
  | send handle =>
    simp only [step, touch, touched]
    split
    · exact startSending_alike outbound handle _ _
    · exact .refl _
  | sendTo handle addr letsGo => exact startSending_alike outbound handle addr _
  | sends index written =>
    cases written with
    | true =>
      simp only [step, touch, touched]
      split
      · exact alike_of_clients ⟨rfl, rfl, rfl, rfl⟩ rfl
      · exact .refl _
    | false =>
      simp only [step, touch]
      cases outbound.sending[index]? with
      | none => exact .refl _
      | some sending =>
        apply alike_disconnect
        · exact ⟨rfl, rfl, rfl, rfl⟩
        · rfl
  | closes index => exact step_alike_close outbound index

variable {outbound}

/-! ## What has no part in the links -/

/-- Two states that differ in their links and in what these say only. -/
structure Aside (first second : Outbound Ip) : Prop where
  weMayDrive : second.weMayDrive = first.weMayDrive
  connecting : second.connecting = first.connecting
  adopting : second.adopting = first.adopting
  closing : second.closing = first.closing
  standing : ∀ handle, (second.clients.device handle).map standing =
    (first.clients.device handle).map standing

omit [DecidableEq Ip] in
theorem Aside.refl (outbound : Outbound Ip) : Aside outbound outbound :=
  ⟨rfl, rfl, rfl, rfl, fun _ => rfl⟩

omit [DecidableEq Ip] in
theorem Aside.trans {third : Outbound Ip} (one : Aside outbound other) (two : Aside other third) :
    Aside outbound third :=
  ⟨two.weMayDrive.trans one.weMayDrive, two.connecting.trans one.connecting,
    two.adopting.trans one.adopting, two.closing.trans one.closing,
    fun handle => (two.standing handle).trans (one.standing handle)⟩

omit [DecidableEq Ip] in
theorem aside_update {change : Device Ip → Device Ip}
    (clients : ∀ k, other.clients.device k = (outbound.clients.update handle change).device k)
    (kept : ∀ device, (change device).standing = device.standing)
    (weMayDrive : other.weMayDrive = outbound.weMayDrive)
    (connecting : other.connecting = outbound.connecting)
    (adopting : other.adopting = outbound.adopting) (closing : other.closing = outbound.closing) :
    Aside outbound other := by
  refine ⟨weMayDrive, connecting, adopting, closing, ?_⟩
  intro k
  rw [clients]
  exact map_device_update kept _ handle k

variable (outbound)

theorem clearLink_aside (handle : Nat) (addr : SocketAddr Ip) :
    Aside outbound (outbound.clearLink handle addr) := by
  have address : ∀ device : Device Ip,
      standing { device with activeAddr := none } = device.standing := fun _ => rfl
  have alive : ∀ device : Device Ip,
      standing { device with alive := false } = device.standing := fun _ => rfl
  have commit : ∀ device : Device Ip,
      standing { device with peerCommit := none } = device.standing := fun _ => rfl
  have caps : ∀ device : Device Ip,
      standing { device with peerCaps := none } = device.standing := fun _ => rfl
  unfold clearLink
  split
  · exact .refl _
  · refine ⟨rfl, rfl, rfl, rfl, ?_⟩
    intro k
    calc
      _ = _ := map_device_update caps _ handle k
      _ = _ := map_device_update commit _ handle k
      _ = _ := map_device_update alive _ handle k
      _ = _ := map_device_update address _ handle k

theorem disconnect_aside (handle : Nat) (addr : SocketAddr Ip) (ended : Option PeerLink) :
    Aside outbound (outbound.disconnect handle addr ended) := by
  unfold disconnect
  split
  · split
    · exact .refl _
    · exact clearLink_aside outbound handle addr
  · have rest := clearLink_aside { outbound with conns := outbound.conns.erase addr } handle addr
    exact ⟨rest.weMayDrive, rest.connecting, rest.adopting, rest.closing, rest.standing⟩

theorem record_aside (handle : Nat) (addr : SocketAddr Ip) (fp : String) (dialledIn : Bool) :
    
    Aside outbound (outbound.record handle addr fp dialledIn) :=
  aside_update (fun _ => rfl) (fun _ => rfl) rfl rfl rfl rfl

variable {outbound}

omit [DecidableEq Ip] in
theorem greet_aside (outbound : Outbound Ip) (handle : Nat) (greeted : Option Commit) :
    Aside outbound (outbound.greet handle greeted) := by
  cases greeted with
  | none => exact .refl _
  | some commit => exact aside_update (fun _ => rfl) (fun _ => rfl) rfl rfl rfl rfl

theorem recordAdoption_aside (outbound : Outbound Ip) (handle : Nat) (addr : SocketAddr Ip)
    (fp : String) : Aside outbound (outbound.recordAdoption handle addr fp) := by
  unfold recordAdoption
  split
  · exact record_aside outbound handle addr fp true
  · next current _ =>
    split
    · exact record_aside outbound handle addr fp true
    · split
      · have rest := record_aside { outbound with conns := outbound.conns.erase current } handle
          addr fp true
        exact ⟨rest.weMayDrive, rest.connecting, rest.adopting, rest.closing, rest.standing⟩
      · exact .refl _

omit [DecidableEq Ip] in
theorem receive_aside (outbound : Outbound Ip) (addr : SocketAddr Ip) (link : PeerLink)
    (frame : Frame) : Aside outbound (outbound.receive addr link frame) := by
  cases frame with
  | pong enabled =>
    have address : ∀ device : Device Ip,
        standing { device with activeAddr := some addr } = device.standing :=
      fun _ => rfl
    have alive : ∀ device : Device Ip,
        standing { device with alive := enabled } = device.standing := fun _ => rfl
    refine ⟨rfl, rfl, rfl, rfl, ?_⟩
    intro k
    calc
      _ = _ := map_device_update alive _ link.handle k
      _ = _ := map_device_update address _ link.handle k
  | hello commit | capability flags =>
    exact aside_update (fun _ => rfl) (fun _ => rfl) rfl rfl rfl rfl
  | other => exact ⟨rfl, rfl, rfl, rfl, fun _ => rfl⟩

theorem startSending_aside (outbound : Outbound Ip) (handle : Nat) (addr : SocketAddr Ip)
    (may : PeerLink → Bool) : Aside outbound (outbound.startSending handle addr may) := by
  unfold startSending
  split
  · exact .refl _
  · split
    · exact ⟨rfl, rfl, rfl, rfl, fun _ => rfl⟩
    · exact .refl _

end Outbound

end HopsFormal.Links
