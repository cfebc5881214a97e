import HopsFormal.Links.Recorded

/-!
# A device that is off or gone holds no link

A link is permitted while its device exists, is switched on and is pinned to the
link's machine, and this machine may drive that machine.  A change that ends
this starts a close that looks for the link by its machine, its device or its
address.  The checks made before a link is recorded are not all made again when
it is, and a removed device's links are looked for at its address only; while
neither matters, every link is permitted or about to be closed.
-/

namespace HopsFormal.Links

open List Lib
open ClientManager

namespace Outbound

variable {Ip : Type} [DecidableEq Ip]

/-- A link's device is on and pinned to the link's machine, which may be driven. -/
def permitted (outbound : Outbound Ip) (handle : Nat) (fingerprint : String) : Bool :=
  outbound.clients.isOn handle && outbound.clients.peerFingerprint handle = some fingerprint &&
    outbound.weMayDrive fingerprint

/-- A close that will find a link, wherever it is by then. -/
def covers (addr : SocketAddr Ip) (link : PeerLink) : Closing Ip → Bool
  | .fingerprint fingerprint => link.fingerprint = fingerprint
  | .device handle pin => link.handle = handle ∨ pin = some link.fingerprint
  | .addr there => there = addr
  | .remove there => there = addr
  | .disconnect _ there => there = addr

/-- A link is about to be closed. -/
def covered (outbound : Outbound Ip) (addr : SocketAddr Ip) (link : PeerLink) : Bool :=
  outbound.closing.any (covers addr link)

/-! ## The condition on a step -/

/--
The steps that may leave a link that is not permitted, when they do not: a dial
lands while its machine may be driven, an adoption is recorded while what it
checked still holds, and a device is removed while its links are at its address
or about to be closed.
-/
@[grind =]
def checked (outbound : Outbound Ip) : Act Ip → Bool
  | .dialRecords handle =>
    match outbound.connecting.lookup handle with
    | some (.landed addr fingerprint greeted) =>
      ! outbound.takesDial handle addr fingerprint greeted || outbound.weMayDrive fingerprint
    | _ => true
  | .adoptionRecords index =>
    match outbound.adopting[index]? with
    | some adoption =>
      adoption.stage ≠ .opened || ! outbound.takesAdoption adoption.handle ||
        outbound.mayAdopt adoption
    | none => true
  | .remove handle =>
    ! outbound.conns.any fun addr link =>
      link.handle = handle ∧ outbound.clients.activeAddr handle ≠ some addr ∧
        ¬ outbound.covered addr link
  | _ => true

def Checked (taken : Outbound Ip × Act Ip) : Prop :=
  taken.1.checked taken.2 = true

instance (taken : Outbound Ip × Act Ip) : Decidable (Checked taken) :=
  inferInstanceAs (Decidable (_ = true))

/-! ## Devices that keep what permits their links -/

/-- Every device that is on and pinned to a machine stays so. -/
def Keeps (before after : ClientManager Ip) : Prop :=
  ∀ handle fingerprint, ofCertificate fingerprint → before.isOn handle →
    before.peerFingerprint handle = some fingerprint →
    after.isOn handle ∧ after.peerFingerprint handle = some fingerprint

variable {clients pinned : ClientManager Ip} {handle index : Nat} {fingerprint : String}
  {outbound before after : Outbound Ip}

section

omit [DecidableEq Ip]

theorem on_pinned_iff :
    (clients.isOn handle = true ∧ clients.peerFingerprint handle = some fingerprint) ↔
      ∃ device, clients.device handle = some device ∧ device.active = true ∧
        device.peerFingerprint = some fingerprint := by
  unfold isOn peerFingerprint
  cases clients.device handle <;> simp

theorem Keeps.refl (clients : ClientManager Ip) : Keeps clients clients :=
  fun _ _ _ on pinned => ⟨on, pinned⟩

theorem keeps_of_standing {before after : ClientManager Ip}
    (same : ∀ handle, (before.device handle).isSome →
      (after.device handle).map Device.standing = (before.device handle).map Device.standing) :
    Keeps before after := by
  intro handle fingerprint certified on pinned
  obtain ⟨device, found, active, pin⟩ := on_pinned_iff.mp ⟨on, pinned⟩
  have standing := same handle (by rw [found]; rfl)
  rw [found, Option.map_some] at standing
  obtain ⟨later, there, equal⟩ := Option.map_eq_some_iff.mp standing
  obtain ⟨sameActive, samePin⟩ := Prod.mk.inj equal
  exact on_pinned_iff.mpr ⟨later, there, sameActive.trans active, samePin.trans pin⟩

theorem keeps_update {change : Device Ip → Device Ip}
    (kept : ∀ device, (change device).standing = device.standing) :
    Keeps clients (clients.update handle change) :=
  keeps_of_standing fun other _ => map_device_update kept _ handle other

theorem keeps_activateClient (clients : ClientManager Ip) (handle : Nat) :
    Keeps clients (clients.activateClient handle) := by
  intro other fingerprint certified on pinned
  obtain ⟨device, found, active, pin⟩ := on_pinned_iff.mp ⟨on, pinned⟩
  refine on_pinned_iff.mpr ?_
  rw [activateClient, device_update, found]
  split
  · exact ⟨_, rfl, rfl, pin⟩
  · exact ⟨device, rfl, active, pin⟩

theorem keeps_setAnsweredAs (clients : ClientManager Ip) (handle : Nat)
    (answered : Option (SocketAddr Ip × String)) :
    Keeps clients (clients.setAnsweredAs handle answered) := by
  apply keeps_of_standing
  intro other _
  rw [device, (setAnsweredAs_devices clients handle answered).1]
  rfl

theorem clearPinsMatching_other {other : String} (on : clients.isOn handle)
    (pinned : clients.peerFingerprint handle = some other) (apart : other ≠ fingerprint) :
    (clients.clearPinsMatching fingerprint).isOn handle ∧
      (clients.clearPinsMatching fingerprint).peerFingerprint handle = some other := by
  obtain ⟨device, found, active, pin⟩ := on_pinned_iff.mp ⟨on, pinned⟩
  have kept : device.peerFingerprint ≠ some fingerprint :=
    fun same => apart (Option.some.inj (pin.symm.trans same))
  refine on_pinned_iff.mpr ⟨device, ?_, active, pin⟩
  rw [device_clearPinsMatching, found, Option.map_some, if_neg kept]

/-- A device that is on stays so as it is pinned. -/
theorem pin_on (on : clients.isOn handle) (taken : clients.pin handle fingerprint = .ok pinned) :
    pinned.isOn handle ∧ pinned.peerFingerprint handle = some fingerprint := by
  obtain ⟨-, rfl⟩ := pin_ok taken
  obtain ⟨device, found, active⟩ := (Option.any_eq_true _ _).mp on
  refine on_pinned_iff.mpr ⟨{ device with peerFingerprint := some fingerprint }, ?_, active, rfl⟩
  rw [device_update, if_pos rfl]
  exact congrArg (Option.map _) found

theorem eq_of_ignoreCase {first second : String} (certified : ofCertificate first)
    (other : ofCertificate second) (same : eqIgnoreAsciiCase first second) : first = second := by
  rw [ofCertificate, beq_iff_eq] at certified other
  rw [eqIgnoreAsciiCase, beq_iff_eq, certified, other] at same
  exact String.toList_inj.mp same

theorem keeps_pin (certified : ofCertificate fingerprint)
    (taken : clients.pin handle fingerprint = .ok pinned) : Keeps clients pinned := by
  intro other certificate proven on pin
  obtain ⟨before, rfl⟩ := pin_ok taken
  by_cases same : other = handle
  · subst same
    obtain rfl := eq_of_ignoreCase proven certified (before certificate pin)
    exact pin_on on taken
  · unfold isOn peerFingerprint
    rw [device_update, if_neg same]
    exact ⟨on, pin⟩

end

theorem keeps_claim {after : ClientManager Ip} (certified : ofCertificate fingerprint)
    (claimed : clients.claimForDialIn fingerprint = some (handle, after)) :
    Keeps clients after := by
  rcases claimForDialIn_cases claimed with ⟨_, rfl⟩ | ⟨pins, _⟩
  · exact fun _ _ _ on pinned => ⟨on, pinned⟩
  · exact keeps_pin certified pins

theorem keeps_add (recorded : Recorded outbound) (config : ConfigClient Ip) :
    Keeps outbound.clients (outbound.clients.addWithConfig config) := by
  apply keeps_of_standing
  intro handle there
  have older := recorded.devices handle there
  rw [device_addWithConfig_of_ne _ _ (Nat.ne_of_lt older)]

/-! ## The invariant -/

omit [DecidableEq Ip] in
/-- What a dial reached so far proved a certificate. -/
def proven : Dialling Ip → Bool
  | .calling _ _ => true
  | .pairing _ fingerprint => ofCertificate fingerprint
  | .landed _ fingerprint _ => ofCertificate fingerprint

structure Guarded (outbound : Outbound Ip) : Prop where
  links : ∀ addr link, outbound.conns.lookup addr = some link →
    outbound.permitted link.handle link.fingerprint ∨ outbound.covered addr link
  certified : ∀ addr link, outbound.conns.lookup addr = some link → ofCertificate link.fingerprint
  dialling : ∀ handle dialling, outbound.connecting.lookup handle = some dialling → proven dialling
  asked : ∀ adoption ∈ outbound.adopting, ofCertificate adoption.fingerprint

theorem guarded_start : Guarded (start : Outbound Ip) := by
  constructor
  · intro addr link up
    cases up
  · intro addr link up
    cases up
  · intro handle dialling found
    cases found
  · intro adoption member
    cases member

/-- What a step does that keeps every link permitted or about to be closed. -/
structure Moves (before after : Outbound Ip) : Prop where
  conns : ∀ addr link, after.conns.lookup addr = some link →
    before.conns.lookup addr = some link ∨
      (after.permitted link.handle link.fingerprint ∧ ofCertificate link.fingerprint)
  links : ∀ addr link, after.conns.lookup addr = some link → ofCertificate link.fingerprint →
    before.permitted link.handle link.fingerprint ∨ before.covered addr link →
    after.permitted link.handle link.fingerprint ∨ after.covered addr link
  dialling : ∀ handle dialling, after.connecting.lookup handle = some dialling →
    before.connecting.lookup handle = some dialling ∨ proven dialling
  asked : ∀ adoption ∈ after.adopting,
    (∃ old ∈ before.adopting, old.fingerprint = adoption.fingerprint) ∨
      ofCertificate adoption.fingerprint

theorem Guarded.moves (guarded : Guarded before) (moves : Moves before after) : Guarded after := by
  constructor
  · intro addr link up
    rcases moves.conns addr link up with old | ⟨permitted, -⟩
    · exact moves.links addr link up (guarded.certified addr link old) (guarded.links addr link old)
    · exact .inl permitted
  · intro addr link up
    rcases moves.conns addr link up with old | ⟨-, certified⟩
    · exact guarded.certified addr link old
    · exact certified
  · intro handle dialling found
    rcases moves.dialling handle dialling found with old | proven
    · exact guarded.dialling handle dialling old
    · exact proven
  · intro adoption member
    rcases moves.asked adoption member with ⟨old, before, same⟩ | certified
    · exact same ▸ guarded.asked old before
    · exact certified

omit [DecidableEq Ip] in
theorem permitted_iff : outbound.permitted handle fingerprint = true ↔
      outbound.clients.isOn handle ∧
        outbound.clients.peerFingerprint handle = some fingerprint ∧
        outbound.weMayDrive fingerprint := by
  simp [permitted, and_assoc]

omit [DecidableEq Ip] in
theorem permitted_keeps
    (drive : ∀ fingerprint, before.weMayDrive fingerprint → after.weMayDrive fingerprint)
    (keeps : Keeps before.clients after.clients) (certified : ofCertificate fingerprint)
    (permitted : before.permitted handle fingerprint) : after.permitted handle fingerprint := by
  obtain ⟨on, pinned, may⟩ := permitted_iff.mp permitted
  obtain ⟨still, same⟩ := keeps handle fingerprint certified on pinned
  exact permitted_iff.mpr ⟨still, same, drive fingerprint may⟩

theorem covered_of {addr : SocketAddr Ip} {link : PeerLink} {close : Closing Ip}
    (member : close ∈ outbound.closing) (finds : covers addr link close) :
    outbound.covered addr link :=
  any_eq_true.mpr ⟨close, member, finds⟩

theorem covered_mono (closing : ∀ close ∈ before.closing, close ∈ after.closing)
    {addr : SocketAddr Ip} {link : PeerLink} (covered : before.covered addr link) :
    after.covered addr link := by
  obtain ⟨close, member, finds⟩ := any_eq_true.mp covered
  exact covered_of (closing close member) finds

/-- A step that of each link keeps the permission, or starts a close that finds it. -/
theorem moves_kept (conns : after.conns = before.conns)
    (connecting : after.connecting = before.connecting)
    (adopting : after.adopting = before.adopting)
    (closing : ∀ close ∈ before.closing, close ∈ after.closing)
    (kept : ∀ addr link, before.conns.lookup addr = some link → ofCertificate link.fingerprint →
      before.permitted link.handle link.fingerprint →
      after.permitted link.handle link.fingerprint ∨ after.covered addr link) :
    Moves before after := by
  refine ⟨?_, ?_, ?_, ?_⟩
  · rw [conns]
    exact fun _ _ up => .inl up
  · rw [conns]
    rintro addr link up certified (permitted | covered)
    · exact kept addr link up certified permitted
    · exact .inr (covered_mono closing covered)
  · rw [connecting]
    exact fun _ _ found => .inl found
  · rw [adopting]
    exact fun adoption member => .inl ⟨adoption, member, rfl⟩

section

variable (keeps : Keeps before.clients after.clients) (conns : after.conns = before.conns)
  (weMayDrive : after.weMayDrive = before.weMayDrive)
include keeps conns weMayDrive

/-- A change of the devices that takes no permission away. -/
theorem moves_clients (connecting : after.connecting = before.connecting)
    (adopting : after.adopting = before.adopting) (closing : after.closing = before.closing) :
    Moves before after := by
  apply moves_kept conns connecting adopting
  · rw [closing]
    exact fun _ member => member
  · refine fun _ _ _ certified permitted => .inl (permitted_keeps ?_ keeps certified permitted)
    rw [weMayDrive]
    exact fun _ may => may

theorem moves_adopting (connecting : after.connecting = before.connecting)
    (closing : after.closing = before.closing)
    (asked : ∀ adoption ∈ after.adopting,
      (∃ old ∈ before.adopting, old.fingerprint = adoption.fingerprint) ∨
        ofCertificate adoption.fingerprint) : Moves before after := by
  have rest : Moves before { after with adopting := before.adopting } :=
    moves_clients keeps conns weMayDrive connecting rfl closing
  exact ⟨rest.conns, rest.links, rest.dialling, asked⟩

theorem moves_connecting (adopting : after.adopting = before.adopting)
    (closing : after.closing = before.closing)
    (dialling : ∀ handle dialling, after.connecting.lookup handle = some dialling →
      before.connecting.lookup handle = some dialling ∨ proven dialling) : Moves before after := by
  have rest : Moves before { after with connecting := before.connecting } :=
    moves_clients keeps conns weMayDrive rfl adopting closing
  exact ⟨rest.conns, rest.links, dialling, rest.asked⟩

end

theorem Moves.refl (outbound : Outbound Ip) : Moves outbound outbound :=
  moves_clients (.refl _) rfl rfl rfl rfl rfl

/-- What follows changes the links only, to ones that are permitted. -/
theorem Moves.aside {ready : Outbound Ip} (begun : Moves before ready)
    (conns : ready.conns = before.conns) (aside : Aside ready after)
    (links : ∀ addr link, after.conns.lookup addr = some link →
      ready.conns.lookup addr = some link ∨
        (ready.permitted link.handle link.fingerprint ∧ ofCertificate link.fingerprint)) :
    Moves before after := by
  have keeps {link : PeerLink} (certified : ofCertificate link.fingerprint)
      (permitted : ready.permitted link.handle link.fingerprint) :
      after.permitted link.handle link.fingerprint := by
    refine permitted_keeps ?_ (keeps_of_standing fun handle _ => aside.standing handle) certified
      permitted
    rw [aside.weMayDrive]
    exact fun _ may => may
  refine ⟨fun addr link up => ?_, fun addr link up certified before => ?_, ?_, ?_⟩
  · rcases links addr link up with old | ⟨permitted, certified⟩
    · exact .inl (conns ▸ old)
    · exact .inr ⟨keeps certified permitted, certified⟩
  · rcases links addr link up with old | ⟨permitted, -⟩
    · rcases begun.links addr link old certified before with permitted | covered
      · exact .inl (keeps certified permitted)
      · refine .inr (covered_mono ?_ covered)
        rw [aside.closing]
        exact fun _ member => member
    · exact .inl (keeps certified permitted)
  · rw [aside.connecting]
    exact begun.dialling
  · rw [aside.adopting]
    exact begun.asked

/-- A step that only takes links away, or says something of them. -/
theorem moves_aside (aside : Aside before after)
    (fewer : ∀ addr link, after.conns.lookup addr = some link →
      before.conns.lookup addr = some link) : Moves before after :=
  (Moves.refl _).aside rfl aside fun addr link up => .inl (fewer addr link up)

theorem moves_disconnect {cut : Outbound Ip} {addr : SocketAddr Ip} {ended : Option PeerLink}
    (conns : cut.conns = before.conns) (aside : Aside before cut) :
    Moves before (cut.disconnect handle addr ended) :=
  moves_aside (aside.trans (disconnect_aside cut handle addr ended))
    fun _ _ up => conns ▸ (disconnect_conns up).1

section

omit [DecidableEq Ip]

theorem inserted_or_before {connecting : Table Nat (Dialling Ip)} {inserted : Dialling Ip}
    (certified : proven inserted) (other : Nat) (dialling : Dialling Ip)
    (found : (connecting.insert handle inserted).lookup other = some dialling) :
    connecting.lookup other = some dialling ∨ proven dialling := by
  rcases Table.lookup_of_insert found with ⟨-, rfl⟩ | old
  · exact .inr certified
  · exact .inl old

theorem erased_or_before {connecting : Table Nat (Dialling Ip)} (other : Nat)
    (dialling : Dialling Ip) (found : (connecting.erase handle).lookup other = some dialling) :
    connecting.lookup other = some dialling ∨ proven dialling :=
  .inl (Table.lookup_of_erase found).2

end

/-! ## The steps of dials and adoptions -/

variable (outbound)

theorem moves_dial (handle : Nat) : Moves outbound (outbound.step (.dial handle)) := by
  simp only [step]
  split
  · exact .refl _
  · split
    · exact .refl _
    · exact moves_connecting (.refl _) rfl rfl rfl rfl (inserted_or_before rfl)

theorem moves_dialLands (handle : Nat) (addr : SocketAddr Ip) (fp : String) :
    Moves outbound (outbound.step (.dialLands handle addr fp)) := by
  simp only [step]
  split
  · split
    · next lands =>
      exact moves_connecting (.refl _) rfl rfl rfl rfl (inserted_or_before lands.2.2.1)
    · exact .refl _
  · exact .refl _

theorem moves_dialMeets (handle : Nat) (addr : SocketAddr Ip) (fp : String) :
    Moves outbound (outbound.step (.dialMeets handle addr fp)) := by
  simp only [step]
  split
  · split
    · next meets =>
      split
      · have dialling : ∀ other dialling,
            (if outbound.clients.isOn handle then
              outbound.connecting.insert handle (.pairing addr fp)
            else outbound.connecting.erase handle).lookup other = some dialling →
            outbound.connecting.lookup other = some dialling ∨ proven dialling := by
          split
          · exact inserted_or_before meets.2.2.1
          · exact erased_or_before
        exact moves_connecting (keeps_setAnsweredAs _ _ _) rfl rfl rfl rfl dialling
      · exact moves_connecting (.refl _) rfl rfl rfl rfl erased_or_before
    · exact .refl _
  · exact .refl _

variable {outbound}

theorem moves_dialPairs (guarded : Guarded outbound) (handle : Nat) (commit : Commit) :
    Moves outbound (outbound.step (.dialPairs handle commit)) := by
  simp only [step]
  split
  · next addr fingerprint found =>
    have certified : ofCertificate fingerprint := guarded.dialling handle _ found
    exact moves_connecting (.refl _) rfl rfl rfl rfl (inserted_or_before certified)
  · exact .refl _

theorem moves_dialFails (outbound : Outbound Ip) (handle : Nat)
    (read : Option (Option (SocketAddr Ip × String))) :
    Moves outbound (outbound.step (.dialFails handle read)) := by
  simp only [step]
  split
  · cases read with
    | none => exact moves_connecting (.refl _) rfl rfl rfl rfl erased_or_before
    | some read =>
      exact moves_connecting (keeps_setAnsweredAs _ _ _) rfl rfl rfl rfl erased_or_before
  · exact moves_connecting (.refl _) rfl rfl rfl rfl erased_or_before
  · exact .refl _

theorem moves_dialledIn (recorded : Recorded outbound) (fp : String) (addr : SocketAddr Ip)
    (edgeFree : Bool) : Moves outbound (outbound.step (.dialledIn fp addr edgeFree)) := by
  have grown (certified : ofCertificate fp) (handle : Nat) :
      ∀ adoption ∈ outbound.adopting ++ [⟨handle, fp, addr, .asked⟩],
        (∃ old ∈ outbound.adopting, old.fingerprint = adoption.fingerprint) ∨
          ofCertificate adoption.fingerprint := by
    intro adoption member
    rcases mem_append.mp member with old | new
    · exact .inl ⟨adoption, old, rfl⟩
    · rw [mem_singleton.mp new]
      exact .inr certified
  simp only [step]
  split
  · next certified =>
    unfold handleDialledIn
    split
    · next handle clients claimed =>
      exact moves_adopting (keeps_claim certified claimed) rfl rfl rfl rfl (grown certified handle)
    · exact moves_adopting (keeps_add recorded _) rfl rfl rfl rfl (grown certified _)
  · exact .refl _

theorem moves_adoption (adopting : List (Adoption Ip)) (from_old : ∀ adoption ∈ adopting,
      ∃ old ∈ outbound.adopting, old.fingerprint = adoption.fingerprint) :
    Moves outbound { outbound with adopting := adopting } :=
  moves_adopting (.refl _) rfl rfl rfl rfl fun adoption member => .inl (from_old adoption member)

omit [DecidableEq Ip] in
theorem old_of_eraseIdx : ∀ adoption ∈ outbound.adopting.eraseIdx index,
      ∃ old ∈ outbound.adopting, old.fingerprint = adoption.fingerprint :=
  fun adoption member => ⟨adoption, mem_of_mem_eraseIdx member, rfl⟩

omit [DecidableEq Ip] in
theorem old_of_set {before after : Adoption Ip} (found : outbound.adopting[index]? = some before)
    (same : before.fingerprint = after.fingerprint) :
    ∀ adoption ∈ outbound.adopting.set index after,
      ∃ old ∈ outbound.adopting, old.fingerprint = adoption.fingerprint := by
  intro adoption member
  rcases mem_or_eq_of_mem_set member with old | rfl
  · exact ⟨adoption, old, rfl⟩
  · exact ⟨before, mem_of_getElem? found, same⟩

/-! ## Recording a link -/

theorem moves_dialRecords (guarded : Guarded outbound)
    (checked : outbound.checked (.dialRecords handle)) :
    Moves outbound (outbound.step (.dialRecords handle)) := by
  simp only [step]
  simp only [Outbound.checked] at checked
  split
  · next addr fingerprint greeted found =>
    rw [found] at checked
    have certified : ofCertificate fingerprint := guarded.dialling handle _ found
    let ready := { outbound with connecting := outbound.connecting.erase handle }
    have begun : Moves outbound ready :=
      moves_connecting (.refl _) rfl rfl rfl rfl erased_or_before
    cases taken : ready.takesDial handle addr fingerprint greeted with
    | true =>
      obtain ⟨pinned, pins, unlinked, recorded⟩ := recordDial_taken taken
      have may : ready.weMayDrive fingerprint = true := by
        have same : outbound.takesDial handle addr fingerprint greeted = true := taken
        simpa [same] using checked
      have on : ready.clients.isOn handle = true := by
        simp only [takesDial, Bool.and_eq_true] at taken
        exact taken.1.1.1.2
      let ready' := { ready with clients := pinned }
      have begun : Moves outbound ready' :=
        moves_connecting (keeps_pin certified pins) rfl rfl rfl rfl erased_or_before
      rw [recorded]
      refine begun.aside rfl ((record_aside ready' handle addr fingerprint false).trans
        (greet_aside _ handle greeted)) fun other link up => ?_
      have same : ((ready'.record handle addr fingerprint false).greet handle greeted).conns =
          (ready'.record handle addr fingerprint false).conns := by
        cases greeted <;> rfl
      rw [same, lookup_record] at up
      split at up
      · cases up
        obtain ⟨on, pin⟩ := pin_on on pins
        exact .inr ⟨permitted_iff.mpr ⟨on, pin, may⟩, certified⟩
      · exact .inl up
    | false =>
      rcases recordDial_refused_cases taken with same | ⟨pinned, pins, same⟩
      · rw [same]
        exact begun
      · rw [same]
        exact moves_connecting (keeps_pin certified pins) rfl rfl rfl rfl erased_or_before
  · exact .refl _

theorem moves_adoptionRecords (guarded : Guarded outbound)
    (checked : outbound.checked (.adoptionRecords index)) :
    Moves outbound (outbound.step (.adoptionRecords index)) := by
  simp only [step]
  simp only [Outbound.checked] at checked
  split
  · next adoption found =>
    rw [found] at checked
    split
    · next opened =>
      let ready := { outbound with adopting := outbound.adopting.eraseIdx index }
      have begun : Moves outbound ready := moves_adoption _ old_of_eraseIdx
      cases taken : ready.takesAdoption adoption.handle with
      | true =>
        have same : outbound.takesAdoption adoption.handle = true := taken
        have may : outbound.mayAdopt adoption = true := by
          simpa [opened, same] using checked
        rw [mayAdopt, decide_eq_true_eq] at may
        have certified := guarded.asked adoption (mem_of_getElem? found)
        have alike := alike_adoption same (outbound.adopting.eraseIdx index) adoption.addr
          adoption.fingerprint
        refine begun.aside rfl (recordAdoption_aside ready _ _ _) fun other link up => ?_
        rw [alike.conns, lookup_record, lookup_withoutLink, withoutLink_recorded] at up
        split at up
        · cases up
          exact .inr ⟨permitted_iff.mpr ⟨may.2.2, may.2.1, may.1⟩, certified⟩
        · split at up
          · cases up
          · exact .inl up
      | false =>
        rw [recordAdoption_refused taken]
        exact begun
    · exact .refl _
  · exact .refl _

/-! ## Closing links -/

theorem moves_closes (outbound : Outbound Ip) (index : Nat) :
    Moves outbound (outbound.step (.closes index)) := by
  simp only [step]
  split
  · next closing found =>
    let rest := { outbound with closing := outbound.closing.eraseIdx index }
    have kept {after : Outbound Ip} (aside : Aside rest { after with closing := rest.closing })
        (fewer : ∀ addr link, after.conns.lookup addr = some link →
          outbound.conns.lookup addr = some link)
        (grown : ∀ close ∈ rest.closing, close ∈ after.closing)
        (finds : ∀ addr link, after.conns.lookup addr = some link → covers addr link closing →
          after.covered addr link) : Moves outbound after := by
      have keeps : Keeps outbound.clients after.clients :=
        keeps_of_standing fun other _ => aside.standing other
      have drive : after.weMayDrive = outbound.weMayDrive := aside.weMayDrive
      have connecting : after.connecting = outbound.connecting := aside.connecting
      have adopting : after.adopting = outbound.adopting := aside.adopting
      refine ⟨fun addr link up => .inl (fewer addr link up), ?_, ?_, ?_⟩
      · rintro addr link up certified (permitted | covered)
        · refine .inl (permitted_keeps ?_ keeps certified permitted)
          rw [drive]
          exact fun _ may => may
        · obtain ⟨close, member, finding⟩ := any_eq_true.mp covered
          rcases eq_or_mem_eraseIdx found member with rfl | left
          · exact .inr (finds addr link up finding)
          · exact .inr (covered_of (grown close left) finding)
      · rw [connecting]
        exact fun _ _ found => .inl found
      · rw [adopting]
        exact fun adoption member => .inl ⟨adoption, member, rfl⟩
    have spreads {new : List (Closing Ip)} (finds : ∀ addr link,
        outbound.conns.lookup addr = some link → covers addr link closing →
          ∃ close ∈ new, covers addr link close) :
        Moves outbound { rest with closing := rest.closing ++ new } := by
      refine kept ⟨rfl, rfl, rfl, rfl, fun _ => rfl⟩ (fun _ _ up => up)
        (fun _ member => mem_append_left _ member) fun addr link up found => ?_
      obtain ⟨close, member, finds⟩ := finds addr link up found
      exact covered_of (mem_append_right _ member) finds
    cases closing with
    | fingerprint fingerprint | device handle pin =>
      exact spreads fun addr link up finds => ⟨_, mem_map.mpr
        ⟨addr, Table.mem_keysWhere.mpr ⟨link, up, finds⟩, rfl⟩, decide_eq_true rfl⟩
    | addr there =>
      simp only [close]
      split
      · exact spreads fun addr link up finds => ⟨_, mem_cons_self, finds⟩
      · next handles some_at =>
        obtain ⟨first, others, split⟩ := exists_cons_of_ne_nil some_at
        have among : first ∈ outbound.clients.handlesAt there := by
          rw [split]
          exact mem_cons_self
        exact spreads fun addr link up finds =>
          ⟨_, mem_map.mpr ⟨first, among, rfl⟩, finds⟩
    | remove there =>
      apply kept
      · exact ⟨rfl, rfl, rfl, rfl, fun _ => rfl⟩
      · exact fun _ _ up => (Table.lookup_of_erase up).2
      · exact fun _ member => member
      · intro addr link up finds
        exact absurd (of_decide_eq_true finds).symm (Table.lookup_of_erase up).1
    | disconnect handle there =>
      have aside := disconnect_aside rest handle there none
      apply kept
      · exact ⟨aside.weMayDrive, aside.connecting, aside.adopting, rfl, aside.standing⟩
      · exact fun _ _ up => (disconnect_conns up).1
      · intro close member
        exact aside.closing ▸ member
      · intro addr link up finds
        obtain ⟨newer, found⟩ := (disconnect_conns up).2 (of_decide_eq_true finds).symm
        simp [newerAt] at found
  · exact .refl _

theorem moves_remove (checked : outbound.checked (.remove handle)) :
    Moves outbound (outbound.step (.remove handle)) := by
  have others : ∀ addr link, outbound.conns.lookup addr = some link → link.handle = handle →
      outbound.clients.activeAddr handle = some addr ∨ outbound.covered addr link := by
    intro addr link up its
    by_contra missed
    rw [not_or] at missed
    simp only [Outbound.checked, Bool.not_eq_true', ← Bool.not_eq_true, Table.any_iff] at checked
    exact checked ⟨addr, link, up, by simpa using ⟨its, missed.1, Bool.eq_false_iff.mpr missed.2⟩⟩
  refine moves_kept rfl rfl rfl (fun _ member => mem_append_left _ member)
    fun addr link up certified permitted => ?_
  by_cases its : link.handle = handle
  · rcases others addr link up its with active | covered
    · have finds : covers addr link (.addr addr) := decide_eq_true rfl
      refine .inr (covered_of (mem_append_right _ ?_) finds)
      rw [active]
      exact mem_cons_self
    · exact .inr (covered_mono (fun _ member => mem_append_left _ member) covered)
  · obtain ⟨on, pinned, may⟩ := permitted_iff.mp permitted
    refine .inl (permitted_iff.mpr ⟨?_, ?_, may⟩)
    · rw [step, isOn, device_removeClient, if_neg its]
      exact on
    · rw [step, peerFingerprint, device_removeClient, if_neg its]
      exact pinned

variable (outbound)

theorem moves_switchOff (handle : Nat) : Moves outbound (outbound.step (.switchOff handle)) := by
  refine moves_kept rfl rfl rfl (fun _ member => mem_append_left _ member)
    fun addr link up certified permitted => ?_
  by_cases its : link.handle = handle
  · refine .inr (covered_of (mem_append_right _ mem_cons_self) ?_)
    exact decide_eq_true (.inl its)
  · obtain ⟨on, pinned, may⟩ := permitted_iff.mp permitted
    refine .inl (permitted_iff.mpr ⟨?_, ?_, may⟩)
    · rw [step, isOn, deactivateClient, device_update, if_neg its]
      exact on
    · rw [step, peerFingerprint, deactivateClient, device_update, if_neg its]
      exact pinned

theorem moves_revoke (fp : String) (forget : Bool) :
    Moves outbound (outbound.step (.revoke fp forget)) := by
  refine moves_kept rfl rfl rfl (fun _ member => mem_append_left _ member)
    fun addr link up certified permitted => ?_
  by_cases its : link.fingerprint = fp
  · refine .inr (covered_of (mem_append_right _ mem_cons_self) ?_)
    exact decide_eq_true its
  · obtain ⟨on, pinned, may⟩ := permitted_iff.mp permitted
    have still : (outbound.step (.revoke fp forget)).weMayDrive link.fingerprint := by
      rw [step]
      dsimp only
      rw [Function.update_of_ne its]
      exact may
    cases forget with
    | true =>
      obtain ⟨on, pinned⟩ := clearPinsMatching_other on pinned its
      exact .inl (permitted_iff.mpr ⟨on, pinned, still⟩)
    | false => exact .inl (permitted_iff.mpr ⟨on, pinned, still⟩)

theorem moves_dropPins (fp : String) :
    Moves outbound (outbound.step (.dropPins fp)) := by
  simp only [step]
  split
  · exact .refl _
  · next unpermitted =>
    refine moves_kept rfl rfl rfl (fun _ member => member)
      fun addr link up certified permitted => ?_
    obtain ⟨on, pinned, may⟩ := permitted_iff.mp permitted
    have its : link.fingerprint ≠ fp := fun same => unpermitted (same ▸ may)
    obtain ⟨on, pinned⟩ := clearPinsMatching_other on pinned its
    exact .inl (permitted_iff.mpr ⟨on, pinned, may⟩)

variable {outbound}

/-! ## Every step -/

theorem step_moves (recorded : Recorded outbound) (guarded : Guarded outbound) {act : Act Ip}
    (checked : outbound.checked act) : Moves outbound (outbound.step act) := by
  cases act with
  | add config => exact moves_clients (keeps_add recorded config) rfl rfl rfl rfl rfl
  | remove handle => exact moves_remove checked
  | switchOn handle => exact moves_clients (keeps_activateClient _ handle) rfl rfl rfl rfl rfl
  | switchOff handle => exact moves_switchOff outbound handle
  | setHostname handle hostname | setPort handle port =>
    refine moves_clients (keeps_update ?_) rfl rfl rfl rfl rfl
    intro device
    split <;> rfl
  | setFixIps handle ips | setDnsIps handle ips =>
    exact moves_clients (keeps_update fun _ => rfl) rfl rfl rfl rfl rfl
  | pin handle fingerprint =>
    simp only [step]
    split
    · next clients pins =>
      split
      · next certified => exact moves_clients (keeps_pin certified pins) rfl rfl rfl rfl rfl
      · exact .refl _
    · exact .refl _
  | grant fingerprint =>
    have keeps : Keeps outbound.clients (outbound.step (.grant fingerprint)).clients := .refl _
    refine moves_kept rfl rfl rfl (fun _ member => member) fun _ _ _ certified permitted =>
      .inl (permitted_keeps (fun other may => ?_) keeps certified permitted)
    simp only [step]
    by_cases same : other = fingerprint
    · rw [same, Function.update_self]
    · rw [Function.update_of_ne same]
      exact may
  | revoke fingerprint forget => exact moves_revoke outbound fingerprint forget
  | dropPins fingerprint => exact moves_dropPins outbound fingerprint
  | dial handle => exact moves_dial outbound handle
  | dialLands handle addr fingerprint => exact moves_dialLands outbound handle addr fingerprint
  | dialMeets handle addr fingerprint => exact moves_dialMeets outbound handle addr fingerprint
  | dialPairs handle commit => exact moves_dialPairs guarded handle commit
  | dialFails handle read => exact moves_dialFails outbound handle read
  | dialRecords handle => exact moves_dialRecords guarded checked
  | dialledIn fingerprint addr edgeFree =>
    exact moves_dialledIn recorded fingerprint addr edgeFree
  | adoptionChecks index =>
    simp only [step]
    split
    · next adoption found =>
      split
      · split
        · exact moves_adoption _ (old_of_set found rfl)
        · exact moves_adoption _ old_of_eraseIdx
      · exact .refl _
    · exact .refl _
  | adoptionOpens index =>
    simp only [step]
    split
    · next adoption found =>
      split
      · exact moves_adoption _ (old_of_set found rfl)
      · exact .refl _
    · exact .refl _
  | adoptionFails index => exact moves_adoption _ old_of_eraseIdx
  | adoptionRecords index => exact moves_adoptionRecords guarded checked
  | frame index frame =>
    simp only [step]
    split
    · apply moves_aside (receive_aside _ _ _ _)
      cases frame <;> exact fun _ _ up => up
    · exact .refl _
  | peerHello fingerprint commit | peerCaps fingerprint flags =>
    refine moves_clients (foldlRecOn _ _ (.refl _) ?_) rfl rfl rfl rfl rfl
    intro clients kept handle _ other fp certified on pinned
    obtain ⟨on, pinned⟩ := kept other fp certified on pinned
    refine keeps_update ?_ other fp certified on pinned
    exact fun _ => rfl
  | ends index =>
    simp only [step]
    split
    · exact moves_disconnect rfl ⟨rfl, rfl, rfl, rfl, fun _ => rfl⟩
    · exact .refl _
  | pingFails index =>
    simp only [step]
    split
    · exact moves_disconnect rfl ⟨rfl, rfl, rfl, rfl, fun _ => rfl⟩
    · exact .refl _
  | send handle =>
    simp only [step]
    split
    · apply moves_aside (startSending_aside _ _ _ _)
      intro addr link up
      rwa [(startSending_alike _ _ _ _).conns] at up
    · exact .refl _
  | sendTo handle addr letsGo =>
    apply moves_aside (startSending_aside _ _ _ _)
    intro other link up
    rwa [(startSending_alike _ _ _ _).conns] at up
  | sends index written =>
    simp only [step]
    split
    · split
      · exact moves_aside ⟨rfl, rfl, rfl, rfl, fun _ => rfl⟩ fun _ _ up => up
      · exact moves_disconnect rfl ⟨rfl, rfl, rfl, rfl, fun _ => rfl⟩
    · exact .refl _
  | closes index => exact moves_closes outbound index

theorem run_guarded (acts : List (Act Ip))
    (checked : ∀ taken ∈ trace step start acts, Checked taken) : Guarded (run acts) := by
  induction acts using reverseRecOn with
  | nil => exact guarded_start
  | append_singleton acts act ih =>
    rw [trace_append] at checked
    have guarded : Guarded (run acts) := ih fun before member =>
      checked before (mem_append_left _ member)
    have now : Checked (run acts, act) :=
      checked _ (mem_append_right _ mem_cons_self)
    rw [run, foldl_append]
    exact guarded.moves (step_moves (run_recorded acts).1 guarded now)

/--
While what was checked of a dial or an adoption still holds when its link is
recorded, and a removed device has no link but at its address: once every close
has run, each link in the table is of a device that exists, is on and is pinned
to the link's machine, which this machine may drive.
-/
theorem links_are_permitted (acts : List (Act Ip))
    (checked : ∀ taken ∈ trace step start acts, Checked taken) :
    let outbound := run acts
    outbound.closing = [] → ∀ addr link, outbound.conns.lookup addr = some link →
      (∃ device, outbound.clients.device link.handle = some device ∧ device.active = true ∧
        device.peerFingerprint = some link.fingerprint) ∧
      outbound.weMayDrive link.fingerprint = true := by
  intro outbound settled addr link up
  have guarded : Guarded outbound := run_guarded acts checked
  rcases guarded.links addr link up with permitted | covered
  · obtain ⟨on, pinned, may⟩ := permitted_iff.mp permitted
    exact ⟨on_pinned_iff.mp ⟨on, pinned⟩, may⟩
  · rw [Outbound.covered, settled] at covered
    cases covered

/-- A device is dialled, switched off, switched on and dialled again. -/
def switched : List (Act Nat) :=
  [.grant "ab", .add ⟨some "desk", [1], 4722, true, none⟩, .dial 0, .dialLands 0 ⟨1, 4722⟩ "ab",
    .dialRecords 0, .switchOff 0, .closes 0, .closes 0, .closes 0, .switchOn 0, .dial 0,
    .dialLands 0 ⟨1, 4722⟩ "ab", .dialRecords 0]

theorem links_are_permitted_switched :
    (∀ taken ∈ trace step start switched, Checked taken) ∧ (run switched).closing = [] ∧
      (run switched).conns.lookup ⟨1, 4722⟩ = some ⟨1, "ab", 0, false⟩ ∧
      (run switched).weMayDrive "ab" = true := by
  have checked : ∀ taken ∈ trace step start switched, Checked taken := by
    decide
  have settled : (run switched).closing = [] := by
    rfl
  have up : (run switched).conns.lookup ⟨1, 4722⟩ = some ⟨1, "ab", 0, false⟩ := by
    decide
  exact ⟨checked, settled, up, (links_are_permitted switched checked settled _ _ up).2⟩

/-- A device is switched off while the link its machine dialled in opens its stream. -/
def switchedWhileAdopted : List (Act Nat) :=
  [.grant "ab", .add ⟨none, [], 4722, true, some "ab"⟩, .dialledIn "ab" ⟨1, 9000⟩ true,
    .adoptionChecks 0, .switchOff 0, .closes 0, .adoptionOpens 0, .adoptionRecords 0]

/-- Every close has run, and a device that is off has a link. -/
theorem off_device_linked :
    (run switchedWhileAdopted).closing = [] ∧
      (run switchedWhileAdopted).conns.lookup ⟨1, 9000⟩ = some ⟨0, "ab", 0, true⟩ ∧
      (run switchedWhileAdopted).clients.isOn 0 = false := by
  refine ⟨rfl, ?_, ?_⟩
  · decide
  · decide

end Outbound

end HopsFormal.Links
