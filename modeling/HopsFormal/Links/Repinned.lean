import HopsFormal.Links.Pins

/-!
# What an act does to the pins

Most acts leave the pins and what is remembered of dials alone.  Those that move
a pin never put one machine's in place of another's, and pin a device only to a
machine no other device is pinned to.
-/

namespace HopsFormal.Links

open Option Lib

variable {Ip : Type}

theorem eqIgnoreAsciiCase_iff {first second : String} :
    eqIgnoreAsciiCase first second = true ↔ asciiLowercase first = asciiLowercase second := by
  rw [eqIgnoreAsciiCase, beq_iff_eq]

namespace ClientManager

/-! ## What happens to pins -/

/-- No two devices are pinned to one machine. -/
def Unique (clients : ClientManager Ip) : Prop :=
  ∀ one other pin otherPin, clients.peerFingerprint one = some pin →
    clients.peerFingerprint other = some otherPin → eqIgnoreAsciiCase pin otherPin → one = other

/-- The pins and what is remembered of dials are the same. -/
structure Rests (before after : ClientManager Ip) : Prop where
  pins : ∀ handle, after.peerFingerprint handle = before.peerFingerprint handle
  gone : ∀ handle, (after.device handle).isSome = (before.device handle).isSome
  remembered : after.answeredAs = before.answeredAs

variable (clients : ClientManager Ip) (handle : Nat)

theorem Rests.refl : Rests clients clients :=
  ⟨fun _ => rfl, fun _ => rfl, rfl⟩

theorem Rests.trans {first second third : ClientManager Ip} (one : Rests first second)
    (two : Rests second third) : Rests first third :=
  ⟨fun handle => (two.pins handle).trans (one.pins handle),
    fun handle => (two.gone handle).trans (one.gone handle),
    two.remembered.trans one.remembered⟩

theorem peerFingerprint_join :
    clients.peerFingerprint handle = ((clients.device handle).map Device.peerFingerprint).join := by
  unfold peerFingerprint
  cases clients.device handle <;> rfl

theorem peerFingerprint_update (other : Nat) (change : Device Ip → Device Ip) :
    (clients.update handle change).peerFingerprint other =
      if other = handle then (clients.device other).bind fun device =>
        (change device).peerFingerprint
      else clients.peerFingerprint other := by
  unfold peerFingerprint
  rw [device_update]
  split
  · cases clients.device other <;> rfl
  · rfl

/-- A change of a device that keeps its pin, whatever is known of the answers to pings. -/
theorem rests_update (answered : List Nat) (handle : Nat) (change : Device Ip → Device Ip)
    (kept : ∀ device, (change device).peerFingerprint = device.peerFingerprint) :
    Rests clients ({ clients with answered := answered }.update handle change) := by
  refine ⟨fun other => ?_, fun other => isSome_update _ handle other change, rfl⟩
  rw [peerFingerprint_join, map_device_update kept]
  exact (peerFingerprint_join clients other).symm

theorem rests_setActiveAddr (addr : Option (SocketAddr Ip)) :
    Rests clients (clients.setActiveAddr handle addr) :=
  rests_update clients _ handle _ fun _ => rfl

theorem rests_setAlive (alive : Bool) : Rests clients (clients.setAlive handle alive) :=
  rests_update clients clients.answered handle _ fun _ => rfl

theorem rests_answeredPing (alive : Bool) : Rests clients (clients.answeredPing handle alive) :=
  rests_update clients _ handle _ fun _ => rfl

theorem rests_setPeerCommit (commit : Option Commit) :
    Rests clients (clients.setPeerCommit handle commit) :=
  rests_update clients clients.answered handle _ fun _ => rfl

theorem rests_setPeerCaps (caps : Option UInt32) :
    Rests clients (clients.setPeerCaps handle caps) :=
  rests_update clients clients.answered handle _ fun _ => rfl

end ClientManager

namespace Outbound

open ClientManager

variable [DecidableEq Ip] (outbound : Outbound Ip) (handle : Nat) (addr : SocketAddr Ip)

theorem rests_clearLink : Rests outbound.clients (outbound.clearLink handle addr).clients := by
  unfold clearLink
  split
  · exact .refl _
  · exact (((rests_setActiveAddr _ handle none).trans (rests_setAlive _ handle false)).trans
      (rests_setPeerCommit _ handle none)).trans (rests_setPeerCaps _ handle none)

theorem rests_disconnect (ended : Option PeerLink) :
    Rests outbound.clients (outbound.disconnect handle addr ended).clients := by
  unfold disconnect
  split
  · split
    · exact .refl _
    · exact rests_clearLink outbound handle addr
  · exact rests_clearLink { outbound with conns := outbound.conns.erase addr } handle addr

omit [DecidableEq Ip] in
theorem rests_greet (greeted : Option Commit) :
    Rests outbound.clients (outbound.greet handle greeted).clients := by
  unfold greet
  split
  · exact rests_setPeerCommit _ handle _
  · exact .refl _

omit [DecidableEq Ip] in
theorem rests_receive (link : PeerLink) (frame : Frame) :
    Rests outbound.clients (outbound.receive addr link frame).clients := by
  cases frame with
  | pong enabled =>
    exact (rests_setActiveAddr _ link.handle (some addr)).trans (rests_answeredPing _ _ enabled)
  | hello commit => exact rests_setPeerCommit _ link.handle _
  | capability flags => exact rests_setPeerCaps _ link.handle _
  | other => exact .refl _

theorem rests_recordAdoption (fp : String) :
    Rests outbound.clients (outbound.recordAdoption handle addr fp).clients := by
  unfold recordAdoption
  split
  · exact rests_setActiveAddr _ handle (some addr)
  · split
    · exact rests_setActiveAddr _ handle (some addr)
    · split
      · exact rests_setActiveAddr _ handle (some addr)
      · exact .refl _

theorem rests_startSending (may : PeerLink → Bool) :
    Rests outbound.clients (outbound.startSending handle addr may).clients := by
  unfold startSending
  split
  · exact .refl _
  · split <;> exact .refl _

theorem rests_close (closing : Closing Ip) :
    Rests outbound.clients (outbound.close closing).clients := by
  cases closing with
  | fingerprint fingerprint | device handle pin | remove addr => exact .refl _
  | addr addr =>
    unfold close
    dsimp only
    split <;> exact .refl _
  | disconnect handle addr => exact rests_disconnect outbound handle addr none

/-! ## Which acts move a pin -/

/-- Whether a dial that landed comes to pinning its device. -/
def reachesPin (outbound : Outbound Ip) (handle : Nat) (addr : SocketAddr Ip) : Bool :=
  outbound.clients.targets handle addr && outbound.clients.isOn handle && ! outbound.linked handle

/-- The devices once a machine is pinned, if it may be. -/
def pinned (clients : ClientManager Ip) (handle : Nat) (fingerprint : String) : ClientManager Ip :=
  match clients.pin handle fingerprint with
  | .ok after => after
  | .error _ => clients

/-- What an act does to the pins and to what is remembered of dials. -/
def repinned (outbound : Outbound Ip) : Act Ip → ClientManager Ip
  | .add config => outbound.clients.addWithConfig config
  | .remove handle => outbound.clients.removeClient handle
  | .pin handle fingerprint =>
    if ofCertificate fingerprint then pinned outbound.clients handle fingerprint
    else outbound.clients
  | .revoke fingerprint forget =>
    if forget then outbound.clients.clearPinsMatching fingerprint else outbound.clients
  | .dropPins fingerprint =>
    if outbound.weMayDrive fingerprint then outbound.clients
    else outbound.clients.clearPinsMatching fingerprint
  | .dialMeets handle addr fingerprint =>
    match outbound.connecting.lookup handle with
    | some (.calling addrs expected) =>
      if (addr ∈ addrs ∧ expected.all (· = fingerprint) ∧ ofCertificate fingerprint ∧
          ¬ outbound.weMayDrive fingerprint) ∧ outbound.clients.targets handle addr then
        outbound.clients.setAnsweredAs handle (some (addr, fingerprint))
      else outbound.clients
    | _ => outbound.clients
  | .dialFails handle read =>
    match outbound.connecting.lookup handle, read with
    | some (.calling _ _), some read => outbound.clients.setAnsweredAs handle read
    | _, _ => outbound.clients
  | .dialRecords handle =>
    match outbound.connecting.lookup handle with
    | some (.landed addr fingerprint _) =>
      if outbound.reachesPin handle addr then pinned outbound.clients handle fingerprint
      else outbound.clients
    | _ => outbound.clients
  | .dialledIn fingerprint _ edgeFree =>
    if ofCertificate fingerprint then
      match outbound.clients.claimForDialIn fingerprint with
      | some (_, after) => after
      | none => outbound.clients.addWithConfig ⟨none, [], defaultPort, edgeFree, some fingerprint⟩
    else outbound.clients
  | _ => outbound.clients

theorem reachesPin_iff {outbound : Outbound Ip} {handle : Nat} {addr : SocketAddr Ip} :
    outbound.reachesPin handle addr = true ↔
      outbound.clients.targets handle addr = true ∧ outbound.clients.isOn handle = true ∧
        ¬ outbound.linked handle = true := by
  simp [reachesPin, and_assoc]

theorem rests_recordDial (fp : String) (greeted : Option Commit) :
    Rests (if outbound.reachesPin handle addr then pinned outbound.clients handle fp
      else outbound.clients) (outbound.recordDial handle addr fp greeted).clients := by
  by_cases reaches : outbound.reachesPin handle addr = true
  · obtain ⟨targets, isOn, unlinked⟩ := reachesPin_iff.mp reaches
    rw [if_pos reaches, recordDial, if_neg (not_not_intro targets), if_neg (not_not_intro isOn),
      if_neg unlinked, pinned]
    cases outbound.clients.pin handle fp with
    | error refused => exact .refl _
    | ok after =>
      dsimp only
      split
      · exact .refl _
      · exact (rests_setActiveAddr after handle (some addr)).trans (rests_greet
          ({ outbound with clients := after }.record handle addr fp false) handle
          greeted)
  · rw [if_neg reaches]
    unfold recordDial
    split
    · exact .refl _
    · next targets =>
      split
      · exact .refl _
      · next isOn =>
        split
        · exact .refl _
        · next unlinked =>
          exact absurd (reachesPin_iff.mpr ⟨not_not.mp targets, not_not.mp isOn, unlinked⟩) reaches

omit [DecidableEq Ip] in
theorem device_setAnsweredAs (clients : ClientManager Ip) (handle : Nat)
    (answered : Option (SocketAddr Ip × String)) (other : Nat) :
    (clients.setAnsweredAs handle answered).device other = clients.device other := by
  unfold setAnsweredAs
  split
  · split <;> rfl
  · rfl

theorem step_rests (act : Act Ip) : Rests (outbound.repinned act) (outbound.step act).clients := by
  cases act with
  | add config | remove handle | grant fingerprint | revoke fingerprint forget
  | adoptionFails index => exact .refl _
  | switchOn handle | switchOff handle | setFixIps handle ips | setDnsIps handle ips =>
    exact rests_update _ _ handle _ fun _ => rfl
  | setHostname handle hostname | setPort handle port =>
    refine rests_update _ outbound.clients.answered handle _ fun device => ?_
    split <;> rfl
  | pin handle fingerprint =>
    unfold repinned step pinned
    dsimp only
    cases outbound.clients.pin handle fingerprint with
    | error refused =>
      rw [ite_self]
      exact .refl _
    | ok after =>
      split <;> exact .refl _
  | dropPins fingerprint | dialPairs handle commit =>
    unfold repinned step
    dsimp only
    split <;> exact .refl _
  | dial handle =>
    unfold repinned step
    dsimp only
    split
    · exact .refl _
    · split <;> exact .refl _
  | dialLands handle addr fingerprint | adoptionChecks index | adoptionOpens index =>
    unfold repinned step
    dsimp only
    split
    · split <;> exact .refl _
    · exact .refl _
  | dialMeets handle addr fingerprint =>
    unfold repinned step
    dsimp only
    cases outbound.connecting.lookup handle with
    | none => exact .refl _
    | some dialling =>
      cases dialling with
      | calling addrs expected =>
        dsimp only
        split
        · next met =>
          rw [if_pos met.1, if_pos met.2]
          exact .refl _
        · next unmet =>
          split
          · next checked =>
            rw [if_neg fun targets => unmet ⟨checked, targets⟩]
            exact .refl _
          · exact .refl _
      | pairing addr fingerprint | landed addr fingerprint greeted => exact .refl _
  | dialFails handle read =>
    unfold repinned step
    dsimp only
    cases outbound.connecting.lookup handle with
    | none => exact .refl _
    | some dialling =>
      cases dialling <;> cases read <;> exact .refl _
  | dialRecords handle =>
    unfold repinned step
    dsimp only
    cases outbound.connecting.lookup handle with
    | none => exact .refl _
    | some dialling =>
      cases dialling with
      | calling addrs expected | pairing addr fingerprint => exact .refl _
      | landed addr fingerprint greeted =>
        exact rests_recordDial
          { outbound with connecting := outbound.connecting.erase handle } handle addr
          fingerprint greeted
  | dialledIn fingerprint addr edgeFree =>
    unfold repinned step handleDialledIn
    dsimp only
    split
    · cases outbound.clients.claimForDialIn fingerprint <;> exact .refl _
    · exact .refl _
  | adoptionRecords index =>
    unfold repinned step
    dsimp only
    split
    · split
      · exact rests_recordAdoption { outbound with adopting := outbound.adopting.eraseIdx index }
          _ _ _
      · exact .refl _
    · exact .refl _
  | frame index frame =>
    unfold repinned step
    dsimp only
    split
    · exact rests_receive outbound _ _ frame
    · exact .refl _
  | peerHello fingerprint commit =>
    exact List.foldlRecOn _ _ (.refl _) fun _ kept _ _ => kept.trans (rests_setPeerCommit _ _ _)
  | peerCaps fingerprint flags =>
    exact List.foldlRecOn _ _ (.refl _) fun _ kept _ _ => kept.trans (rests_setPeerCaps _ _ _)
  | ends index =>
    unfold repinned step
    dsimp only
    split
    · exact rests_disconnect { outbound with receiving := outbound.receiving.eraseIdx index } _ _ _
    · exact .refl _
  | pingFails index =>
    unfold repinned step
    dsimp only
    split
    · exact rests_disconnect { outbound with pinging := outbound.pinging.eraseIdx index } _ _ _
    · exact .refl _
  | send handle =>
    unfold repinned step
    dsimp only
    split
    · exact rests_startSending outbound handle _ _
    · exact .refl _
  | sendTo handle addr letsGo => exact rests_startSending outbound handle addr _
  | sends index written =>
    unfold repinned step
    dsimp only
    split
    · split
      · exact .refl _
      · exact rests_disconnect { outbound with sending := outbound.sending.eraseIdx index } _ _ _
    · exact .refl _
  | closes index =>
    unfold repinned step
    dsimp only
    split
    · exact rests_close { outbound with closing := outbound.closing.eraseIdx index } _
    · exact .refl _

end Outbound

namespace ClientManager

/-! ## What an act does to a pin -/

theorem eqIgnoreAsciiCase_comm (first second : String) :
    eqIgnoreAsciiCase first second = eqIgnoreAsciiCase second first :=
  Bool.beq_comm

theorem eqIgnoreAsciiCase_trans {first second third : String}
    (one : eqIgnoreAsciiCase first second) (two : eqIgnoreAsciiCase second third) :
    eqIgnoreAsciiCase first third :=
  eqIgnoreAsciiCase_iff.mpr ((eqIgnoreAsciiCase_iff.mp one).trans (eqIgnoreAsciiCase_iff.mp two))

variable {clients before after : ClientManager Ip} {handle : Nat} {fingerprint : String}

theorem device_of_pinned {pin : String} (pinned : clients.peerFingerprint handle = some pin) :
    (clients.device handle).isSome := by
  obtain ⟨device, found, -⟩ := bind_eq_some_iff.mp pinned
  rw [found]
  rfl

/--
A pin that is no longer there was cleared, or its device removed; and one that is
new is of a machine no other device is pinned to.
-/
structure Moved (before after : ClientManager Ip) (clears : String → Prop) : Prop where
  kept : ∀ handle pin, before.peerFingerprint handle = some pin → clears pin ∨
    after.device handle = none ∨
      ∃ now, after.peerFingerprint handle = some now ∧ eqIgnoreAsciiCase pin now
  new : ∀ handle pin, after.peerFingerprint handle = some pin →
    before.peerFingerprint handle = some pin ∨ ∀ other otherPin, other ≠ handle →
      after.peerFingerprint other = some otherPin → eqIgnoreAsciiCase otherPin pin = false

theorem Moved.unique {clears : String → Prop} (moved : Moved before after clears)
    (unique : before.Unique) : after.Unique := by
  intro one other pin otherPin isOne isOther same
  by_contra apart
  rcases moved.new one pin isOne with oldOne | newOne
  · rcases moved.new other otherPin isOther with oldOther | newOther
    · exact apart (unique one other pin otherPin oldOne oldOther same)
    · rw [newOther one pin apart isOne] at same
      cases same
  · rw [eqIgnoreAsciiCase_comm, newOne other otherPin (Ne.symm apart) isOther] at same
    cases same

/-- No pin is new and each that is gone was cleared or its device was. -/
theorem moved_of_fewer {clears : String → Prop}
    (fewer : ∀ handle pin, after.peerFingerprint handle = some pin →
      before.peerFingerprint handle = some pin)
    (kept : ∀ handle pin, before.peerFingerprint handle = some pin → clears pin ∨
      after.device handle = none ∨ after.peerFingerprint handle = some pin) :
    Moved before after clears := by
  refine ⟨fun handle pin pinned => ?_, fun handle pin pinned => .inl (fewer handle pin pinned)⟩
  refine (kept handle pin pinned).imp_right (Or.imp_right fun stays => ⟨pin, stays, ?_⟩)
  exact eqIgnoreAsciiCase_iff.mpr rfl

theorem Moved.refl (clients : ClientManager Ip) (clears : String → Prop) :
    Moved clients clients clears :=
  moved_of_fewer (fun _ _ pinned => pinned) fun _ _ pinned => .inr (.inr pinned)

theorem Moved.rests {later : ClientManager Ip} {clears : String → Prop}
    (moved : Moved before after clears) (rests : Rests after later) :
    Moved before later clears := by
  constructor
  · intro handle pin pinned
    rw [rests.pins]
    refine (moved.kept handle pin pinned).imp_right (Or.imp_left fun gone => ?_)
    have same := rests.gone handle
    rw [gone] at same
    exact isNone_iff_eq_none.mp (by simpa using same)
  · intro handle pin pinned
    rw [rests.pins] at pinned
    refine (moved.new handle pin pinned).imp_right fun free other otherPin apart otherPinned => ?_
    rw [rests.pins] at otherPinned
    exact free other otherPin apart otherPinned

theorem moved_removeClient (clients : ClientManager Ip) (handle : Nat) (clears : String → Prop) :
    Moved clients (clients.removeClient handle) clears := by
  have device (other : Nat) := device_removeClient clients handle other
  refine moved_of_fewer (fun other pin pinned => ?_) fun other pin pinned => .inr ?_
  · rw [peerFingerprint, device] at pinned
    split at pinned
    · cases pinned
    · exact pinned
  · rw [peerFingerprint, device]
    split
    · exact .inl rfl
    · exact .inr pinned

theorem peerFingerprint_clearPinsMatching (clients : ClientManager Ip) (fp : String)
    (handle : Nat) : (clients.clearPinsMatching fp).peerFingerprint handle =
      (clients.peerFingerprint handle).filter (· ≠ fp) := by
  unfold peerFingerprint
  rw [device_clearPinsMatching]
  cases clients.device handle with
  | none => rfl
  | some device =>
    simp only [map_some, bind_some]
    cases pinned : device.peerFingerprint with
    | none => simp [pinned]
    | some pin =>
      by_cases same : pin = fp
      · simp [Option.filter, same]
      · simp [Option.filter, pinned, same]

theorem moved_clearPinsMatching {clears : String → Prop} (cleared : clears fingerprint) :
    Moved clients (clients.clearPinsMatching fingerprint) clears := by
  refine moved_of_fewer (fun handle pin pinned => ?_) fun handle pin pinned => ?_
  · rw [peerFingerprint_clearPinsMatching] at pinned
    exact (filter_eq_some_iff.mp pinned).1
  · by_cases same : pin = fingerprint
    · exact .inl (same ▸ cleared)
    · refine .inr (.inr ?_)
      rw [peerFingerprint_clearPinsMatching]
      exact filter_eq_some_iff.mpr ⟨pinned, by simpa using same⟩

/-! ## A new pin -/

/-- No device is pinned to a machine. -/
def Free (clients : ClientManager Ip) (fingerprint : String) : Prop :=
  ∀ handle pin, clients.peerFingerprint handle = some pin →
    eqIgnoreAsciiCase pin fingerprint = false

theorem mem_pinnedTo : handle ∈ (clients.devices.keysWhere fun _ device =>
        device.peerFingerprint.any (eqIgnoreAsciiCase · fingerprint)) ↔
      ∃ pin, clients.peerFingerprint handle = some pin ∧ eqIgnoreAsciiCase pin fingerprint := by
  rw [Table.mem_keysWhere]
  unfold peerFingerprint device
  constructor
  · rintro ⟨device, found, pinned⟩
    obtain ⟨pin, its, same⟩ := (Option.any_eq_true _ _).mp pinned
    exact ⟨pin, by rw [found]; exact its, same⟩
  · rintro ⟨pin, pinned, same⟩
    obtain ⟨device, found, its⟩ := bind_eq_some_iff.mp pinned
    exact ⟨device, found, by rw [its]; exact same⟩

theorem free_of_diallerOf (nobody : clients.diallerOf fingerprint = none) :
    clients.Free fingerprint := by
  intro handle pin pinned
  have empty := List.min?_eq_none_iff.mp nobody
  by_contra same
  rw [Bool.not_eq_false] at same
  have member := mem_pinnedTo.mpr ⟨pin, pinned, same⟩
  rw [empty] at member
  cases member

theorem diallerOf_pinned (first : clients.diallerOf fingerprint = some handle) :
    ∃ pin, clients.peerFingerprint handle = some pin ∧ eqIgnoreAsciiCase pin fingerprint :=
  mem_pinnedTo.mp (List.min?_mem first)

/-- A device is pinned while no other one is pinned to the machine. -/
theorem others_of_pin {other : Nat} {pin : String} (unique : clients.Unique)
    (taken : clients.pin handle fingerprint = .ok after) (apart : other ≠ handle)
    (pinned : clients.peerFingerprint other = some pin) :
    eqIgnoreAsciiCase pin fingerprint = false := by
  unfold ClientManager.pin at taken
  split at taken
  · cases taken
  · split at taken
    · cases taken
    · next nobody =>
      cases dialler : clients.diallerOf fingerprint with
      | none => exact free_of_diallerOf dialler other pin pinned
      | some first =>
        rw [dialler] at nobody
        have its : first = handle := by simpa using nobody
        obtain ⟨firstPin, firstPinned, firstSame⟩ := diallerOf_pinned dialler
        by_contra same
        rw [Bool.not_eq_false] at same
        rw [eqIgnoreAsciiCase_comm] at firstSame
        have one := unique other first pin firstPin pinned firstPinned
          (eqIgnoreAsciiCase_trans same firstSame)
        exact apart (one.trans its)

theorem moved_pin {clears : String → Prop} (unique : clients.Unique)
    (taken : clients.pin handle fingerprint = .ok after) : Moved clients after clears := by
  have others : ∀ other pin, other ≠ handle → clients.peerFingerprint other = some pin →
      eqIgnoreAsciiCase pin fingerprint = false :=
    fun _ _ apart pinned => others_of_pin unique taken apart pinned
  obtain ⟨before, rfl⟩ := pin_ok taken
  have pins := peerFingerprint_update
    { clients with answeredAs := clients.answeredAs.erase handle } handle
  constructor
  · intro other pin pinned
    refine .inr (.inr ?_)
    rw [pins]
    by_cases its : other = handle
    · subst its
      obtain ⟨device, found, -⟩ := bind_eq_some_iff.mp pinned
      rw [if_pos rfl]
      refine ⟨fingerprint, ?_, before pin pinned⟩
      exact bind_eq_some_iff.mpr ⟨device, found, rfl⟩
    · rw [if_neg its]
      exact ⟨pin, pinned, eqIgnoreAsciiCase_iff.mpr rfl⟩
  · intro other pin pinned
    rw [pins] at pinned
    split at pinned
    · next its =>
      subst its
      obtain ⟨device, -, same⟩ := bind_eq_some_iff.mp pinned
      obtain rfl := Option.some.inj same
      refine .inr fun third thirdPin apart thirdPinned => ?_
      rw [pins, if_neg apart] at thirdPinned
      exact others third thirdPin apart thirdPinned
    · exact .inl pinned

theorem moved_pinned (handle : Nat) (fp : String) {clears : String → Prop}
    (unique : clients.Unique) :
    Moved clients (Outbound.pinned clients handle fp) clears := by
  unfold Outbound.pinned
  split
  · next after taken => exact moved_pin unique taken
  · exact .refl _ _

theorem peerFingerprint_addWithConfig (clients : ClientManager Ip) (config : ConfigClient Ip)
    (handle : Nat) : (clients.addWithConfig config).peerFingerprint handle =
      if handle = clients.next then config.fingerprint else clients.peerFingerprint handle := by
  unfold peerFingerprint
  split
  · next new =>
    subst new
    rw [device, addWithConfig, AList.lookup_insert]
    rfl
  · next old => rw [device_addWithConfig_of_ne _ _ old]

theorem moved_addWithConfig {config : ConfigClient Ip} {clears : String → Prop}
    (older : ∀ handle, (clients.device handle).isSome → handle < clients.next)
    (free : ∀ pin, config.fingerprint = some pin → clients.Free pin) :
    Moved clients (clients.addWithConfig config) clears := by
  have pins := peerFingerprint_addWithConfig clients config
  constructor
  · intro handle pin pinned
    have old := older handle (device_of_pinned pinned)
    refine .inr (.inr ⟨pin, ?_, eqIgnoreAsciiCase_iff.mpr rfl⟩)
    rw [pins, if_neg (Nat.ne_of_lt old)]
    exact pinned
  · intro handle pin pinned
    rw [pins] at pinned
    split at pinned
    · next new =>
      refine .inr fun other otherPin apart otherPinned => ?_
      rw [pins, if_neg (new ▸ apart)] at otherPinned
      exact free pin pinned other otherPin otherPinned
    · exact .inl pinned

theorem moved_setAnsweredAs (clients : ClientManager Ip) (handle : Nat)
    (answered : Option (SocketAddr Ip × String)) (clears : String → Prop) :
    Moved clients (clients.setAnsweredAs handle answered) clears := by
  have device := Outbound.device_setAnsweredAs clients handle answered
  have pins (other : Nat) : (clients.setAnsweredAs handle answered).peerFingerprint other =
      clients.peerFingerprint other := by
    rw [peerFingerprint, device, peerFingerprint]
  refine moved_of_fewer (fun other pin pinned => ?_) fun other pin pinned => .inr (.inr ?_)
  · exact (pins other).symm.trans pinned
  · exact (pins other).trans pinned

theorem moved_claimForDialIn [DecidableEq Ip] {clears : String → Prop} (unique : clients.Unique)
    (claimed : clients.claimForDialIn fingerprint = some (handle, after)) :
    Moved clients after clears := by
  rcases claimForDialIn_cases claimed with ⟨_, rfl⟩ | ⟨taken, _⟩
  · exact .refl _ _
  · exact moved_pin unique taken

theorem free_of_unclaimed [DecidableEq Ip] (unclaimed : clients.claimForDialIn fingerprint = none) :
    clients.Free fingerprint := by
  cases dialler : clients.diallerOf fingerprint with
  | none => exact free_of_diallerOf dialler
  | some first =>
    rw [claimForDialIn, dialler] at unclaimed
    cases unclaimed

end ClientManager

namespace Outbound

open ClientManager

variable {ρ : Type} [DecidableEq Ip]

theorem repinned_moved {outbound : Outbound Ip} (recorded : Recorded outbound)
    (unique : outbound.clients.Unique) (act : Act Ip)
    (added : ∀ config, act = .add config → ∀ pin, config.fingerprint = some pin →
      outbound.clients.Free pin) :
    Moved outbound.clients (outbound.repinned act) (Event.act act : Event Ip ρ).clears := by
  cases act with
  | add config => exact moved_addWithConfig recorded.devices (added config rfl)
  | remove handle => exact moved_removeClient _ handle _
  | pin handle fingerprint =>
    unfold repinned
    dsimp only
    split
    · exact moved_pinned handle fingerprint unique
    · exact .refl _ _
  | revoke fingerprint forget =>
    cases forget with
    | false => exact .refl _ _
    | true => exact moved_clearPinsMatching ⟨rfl, rfl⟩
  | dropPins fingerprint =>
    unfold repinned
    dsimp only
    split
    · exact .refl _ _
    · exact moved_clearPinsMatching rfl
  | dialMeets handle addr fingerprint =>
    unfold repinned
    dsimp only
    split
    · split
      · exact moved_setAnsweredAs _ handle _ _
      · exact .refl _ _
    · exact .refl _ _
  | dialFails handle read =>
    unfold repinned
    dsimp only
    split
    · exact moved_setAnsweredAs _ handle _ _
    · exact .refl _ _
  | dialRecords handle =>
    unfold repinned
    dsimp only
    split
    · split
      · exact moved_pinned handle _ unique
      · exact .refl _ _
    · exact .refl _ _
  | dialledIn fingerprint addr edgeFree =>
    unfold repinned
    dsimp only
    split
    · split
      · next claimed => exact moved_claimForDialIn unique claimed
      · next unclaimed =>
        refine moved_addWithConfig recorded.devices fun pin its => ?_
        obtain rfl := Option.some.inj its
        exact free_of_unclaimed unclaimed
    · exact .refl _ _
  | _ => exact .refl _ _

theorem step_moved {outbound : Outbound Ip} (recorded : Recorded outbound)
    (unique : outbound.clients.Unique) (act : Act Ip)
    (added : ∀ config, act = .add config → ∀ pin, config.fingerprint = some pin →
      outbound.clients.Free pin) :
    Moved outbound.clients (outbound.step act).clients (Event.act act : Event Ip ρ).clears :=
  (repinned_moved recorded unique act added).rests (step_rests outbound act)

/-! ## What is remembered of dials -/

/-- Nothing is remembered of a dial that was not before. -/
def Forgets (before after : ClientManager Ip) : Prop :=
  ∀ handle reached, after.answeredAs.lookup handle = some reached →
    before.answeredAs.lookup handle = some reached

omit [DecidableEq Ip] in
theorem Forgets.refl (clients : ClientManager Ip) : Forgets clients clients :=
  fun _ _ found => found

variable {after : ClientManager Ip} {handle : Nat}

section

omit [DecidableEq Ip]

theorem forgets_erase {before : ClientManager Ip}
    (erased : after.answeredAs = before.answeredAs.erase handle) : Forgets before after := by
  intro other reached found
  rw [erased] at found
  exact (Table.lookup_of_erase found).2

theorem forgets_pin {clients : ClientManager Ip} {fp : String}
    (taken : clients.pin handle fp = .ok after) : Forgets clients after := by
  obtain ⟨-, rfl⟩ := pin_ok taken
  exact forgets_erase rfl

theorem forgets_pinned (clients : ClientManager Ip) (handle : Nat) (fp : String) :
    Forgets clients (pinned clients handle fp) := by
  unfold pinned
  split
  · next after taken => exact forgets_pin taken
  · exact .refl _

end

theorem forgets_claimForDialIn {clients : ClientManager Ip} {fp : String}
    (claimed : clients.claimForDialIn fp = some (handle, after)) :
    Forgets clients after := by
  rcases claimForDialIn_cases claimed with ⟨_, rfl⟩ | ⟨taken, _⟩
  · exact .refl _
  · exact forgets_pin taken

/-- Whether an act tells what a dial reached. -/
def tells : Act Ip → Bool
  | .dialMeets _ _ _ => true
  | .dialFails _ _ => true
  | _ => false

/-- Only a dial that tells what it reached adds to what is remembered. -/
theorem step_forgets (outbound : Outbound Ip) {act : Act Ip} (silent : tells act = false) :
    Forgets outbound.clients (outbound.step act).clients := by
  have forgets : Forgets outbound.clients (outbound.repinned act) := by
    cases act with
    | dialMeets handle addr fingerprint | dialFails handle read => cases silent
    | remove handle => exact forgets_erase rfl
    | pin handle fingerprint =>
      unfold repinned
      dsimp only
      split
      · exact forgets_pinned _ handle fingerprint
      · exact .refl _
    | revoke fingerprint forget =>
      cases forget <;> exact .refl _
    | dropPins fingerprint =>
      unfold repinned
      dsimp only
      split <;> exact .refl _
    | dialRecords handle =>
      unfold repinned
      dsimp only
      split
      · split
        · exact forgets_pinned _ handle _
        · exact .refl _
      · exact .refl _
    | dialledIn fingerprint addr edgeFree =>
      unfold repinned
      dsimp only
      split
      · split
        · next claimed => exact forgets_claimForDialIn claimed
        · exact .refl _
      · exact .refl _
    | _ => exact .refl _
  intro handle reached found
  rw [(step_rests outbound act).remembered] at found
  exact forgets handle reached found

end Outbound

end HopsFormal.Links
