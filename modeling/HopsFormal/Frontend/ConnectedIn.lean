import HopsFormal.Frontend.OneCard

/-!
# Who is connected in

An address stands for the machine it last connected in as.  A machine is connected in
while an address stands for it, so the list of devices shows one that connected in and
has not gone, and drops one whose address another machine has taken.
-/

namespace HopsFormal.Frontend

open Lib
open Trust (Lowercase)

variable {Addr : Type}

def FrontendEvent.connects : FrontendEvent Addr → Option (Addr × String)
  | .deviceConnected addr fp => some (addr, fp)
  | .deviceEntered fp addr => some (addr, fp)
  | _ => none

namespace AppModel

variable [DecidableEq Addr] {model : AppModel Addr}

/-- The machines that are connected in are those an address stands for. -/
def Inward (model : AppModel Addr) : Prop :=
  ∀ fp, fp ∈ model.connectedPeers ↔ ∃ addr, model.peerAddrs.lookup addr = some fp

/-! ## One event -/

omit [DecidableEq Addr] in
theorem forgetIfLastAddr_peerAddrs (fp : String) :
    (model.forgetIfLastAddr fp).peerAddrs = model.peerAddrs := by
  unfold forgetIfLastAddr
  split <;> rfl

theorem mem_forgetIfLastAddr {fp other : String} :
    other ∈ (model.forgetIfLastAddr fp).connectedPeers ↔
      other ∈ model.connectedPeers ∧
        (other = fp → ∃ addr, model.peerAddrs.lookup addr = some fp) := by
  have known : (model.peerAddrs.any fun _ kept => kept = fp) = true ↔
      ∃ addr, model.peerAddrs.lookup addr = some fp := by
    rw [Table.any_iff]
    constructor
    · rintro ⟨addr, kept, found, same⟩
      exact ⟨addr, found.trans (congrArg some (of_decide_eq_true same))⟩
    · rintro ⟨addr, found⟩
      exact ⟨addr, fp, found, decide_eq_true rfl⟩
  unfold forgetIfLastAddr
  split
  · next kept => exact ⟨fun member => ⟨member, fun _ => known.mp kept⟩, And.left⟩
  · next gone =>
    rw [Finset.mem_erase]
    constructor
    · rintro ⟨differs, member⟩
      exact ⟨member, fun same => absurd same differs⟩
    · rintro ⟨member, stands⟩
      exact ⟨fun same => gone (known.mpr (stands same)), member⟩

theorem registerPeer_peerAddrs (addr : Addr) (fp : String) :
    (model.registerPeer addr fp).peerAddrs = model.peerAddrs.insert addr fp := by
  unfold registerPeer
  split
  · split
    · rfl
    · exact forgetIfLastAddr_peerAddrs _
  · rfl

/-- A machine that connects in is there, and one it took the address of may be gone. -/
theorem mem_registerPeer {addr : Addr} {fp other : String} :
    other ∈ (model.registerPeer addr fp).connectedPeers ↔
      other = fp ∨ other ∈ model.connectedPeers ∧
        (model.peerAddrs.lookup addr = some other →
          ∃ still, (model.peerAddrs.insert addr fp).lookup still = some other) := by
  by_cases same : other = fp
  · subst same
    refine iff_of_true ?_ (.inl rfl)
    exact Finset.mem_insert_self _ _
  · unfold registerPeer
    rw [Finset.mem_insert]
    refine or_congr_right ?_
    split
    · next old held =>
      split
      · next equal =>
        subst equal
        refine (and_iff_left fun stands => ?_).symm
        exact absurd (Option.some.inj (held.symm.trans stands)).symm same
      · rw [mem_forgetIfLastAddr, held]
        refine and_congr_right fun _ => ⟨fun stands is => ?_, fun stands is => ?_⟩
        · obtain rfl := Option.some.inj is
          exact stands rfl
        · subst is
          exact stands rfl
    · next free =>
      rw [free]
      exact (and_iff_left nofun).symm

theorem Inward.registerPeer (inward : model.Inward) (addr : Addr) (fp : String) :
    (model.registerPeer addr fp).Inward := by
  intro other
  rw [mem_registerPeer, registerPeer_peerAddrs, inward other]
  constructor
  · rintro (rfl | ⟨⟨from_, found⟩, stands⟩)
    · exact ⟨addr, AList.lookup_insert _⟩
    · by_cases here : from_ = addr
      · subst here
        exact stands found
      · exact ⟨from_, (AList.lookup_insert_ne here).trans found⟩
  · rintro ⟨from_, found⟩
    by_cases here : from_ = addr
    · subst here
      rw [AList.lookup_insert] at found
      exact .inl (Option.some.inj found).symm
    · have before := found
      rw [AList.lookup_insert_ne here] at before
      exact .inr ⟨⟨from_, before⟩, fun _ => ⟨from_, found⟩⟩

theorem Inward.incomingDisconnected (inward : model.Inward) (addr : Addr) (now : Nat) :
    (model.apply (.incomingDisconnected addr) now).Inward := by
  rw [apply]
  cases held : model.peerAddrs.lookup addr with
  | none =>
    have same : ∀ other, (model.peerAddrs.erase addr).lookup other =
        model.peerAddrs.lookup other := by
      intro other
      by_cases here : other = addr
      · rw [here, AList.lookup_erase, held]
      · exact AList.lookup_erase_ne here
    intro fp
    simp only [same]
    exact inward fp
  | some fp =>
    intro other
    rw [mem_forgetIfLastAddr, forgetIfLastAddr_peerAddrs]
    rw [inward other]
    constructor
    · rintro ⟨⟨from_, found⟩, stands⟩
      by_cases here : from_ = addr
      · subst here
        obtain rfl := Option.some.inj (held.symm.trans found)
        exact stands rfl
      · exact ⟨from_, (AList.lookup_erase_ne here).trans found⟩
    · rintro ⟨from_, found⟩
      refine ⟨⟨from_, (Table.lookup_of_erase found).2⟩, fun same => ⟨from_, ?_⟩⟩
      rw [← same]
      exact found

/-- No other event says anything about who is connected in. -/
theorem apply_peers (event : FrontendEvent Addr) (now : Nat) :
    (∃ addr fp, event.connects = some (addr, fp) ∧
        model.apply event now = model.registerPeer addr fp) ∨
      (∃ addr, event = .incomingDisconnected addr) ∨
      event.connects = none ∧ (∀ addr, event ≠ .incomingDisconnected addr) ∧
        (model.apply event now).peerAddrs = model.peerAddrs ∧
        (model.apply event now).connectedPeers = model.connectedPeers := by
  cases event with
  | deviceConnected addr fp | deviceEntered fp addr => exact .inl ⟨addr, fp, rfl, rfl⟩
  | incomingDisconnected addr => exact .inr (.inl ⟨addr, rfl⟩)
  | authorizedUpdated authorized | connectionAttempt fp origin addr
  | crossingRefused handle reason =>
    refine .inr (.inr ⟨rfl, nofun, ?_⟩)
    rw [apply]
    split <;> exact ⟨rfl, rfl⟩
  | _ => exact .inr (.inr ⟨rfl, nofun, rfl, rfl⟩)

theorem Inward.apply (inward : model.Inward) (event : FrontendEvent Addr) (now : Nat) :
    (model.apply event now).Inward := by
  rcases model.apply_peers event now with
    ⟨addr, fp, -, is⟩ | ⟨addr, rfl⟩ | ⟨-, -, addrs, peers⟩
  · rw [is]
    exact inward.registerPeer addr fp
  · exact inward.incomingDisconnected addr now
  · intro fp
    rw [addrs, peers]
    exact inward fp

/-! ## Runs -/

/-- The model after a list of events, each with its moment. -/
def heard (events : List (FrontendEvent Addr × Nat)) : AppModel Addr :=
  events.foldl (fun model event => model.apply event.1 event.2) launched

variable (events : List (FrontendEvent Addr × Nat))

theorem heard_concat (event : FrontendEvent Addr) (now : Nat) :
    heard (events ++ [(event, now)]) = (heard events).apply event now :=
  List.foldl_append

theorem inward_heard : (heard events).Inward := by
  induction events using List.reverseRecOn with
  | nil => exact fun _ => ⟨nofun, nofun⟩
  | append_singleton events event ih =>
    rw [heard_concat]
    exact ih.apply _ _

/-- An address connected in as a machine, and has neither gone nor become another since. -/
def StandsFor (events : List (FrontendEvent Addr × Nat)) (addr : Addr) (fp : String) : Prop :=
  ∃ before event now after, events = before ++ (event, now) :: after ∧
    event.connects = some (addr, fp) ∧
    ∀ later ∈ after, later.1 ≠ .incomingDisconnected addr ∧
      ∀ other, later.1.connects = some (addr, other) → other = fp

omit [DecidableEq Addr] in
theorem standsFor_concat {events : List (FrontendEvent Addr × Nat)} {event : FrontendEvent Addr}
    {now : Nat} {addr : Addr} {fp : String} :
    StandsFor (events ++ [(event, now)]) addr fp ↔
      event.connects = some (addr, fp) ∨ StandsFor events addr fp ∧
        event ≠ .incomingDisconnected addr ∧
        ∀ other, event.connects = some (addr, other) → other = fp := by
  constructor
  · rintro ⟨before, first, moment, after, whole, connects, since⟩
    rcases List.eq_nil_or_concat after with rfl | ⟨rest, last, rfl⟩
    · obtain ⟨-, same⟩ := List.append_inj' whole rfl
      cases same
      exact .inl connects
    · rw [List.concat_eq_append] at whole since
      rw [← List.cons_append, ← List.append_assoc] at whole
      obtain ⟨earlier, same⟩ := List.append_inj' whole rfl
      cases same
      refine .inr ⟨⟨before, first, moment, rest, earlier, connects, fun later member => ?_⟩, ?_⟩
      · exact since later (List.mem_append_left _ member)
      · exact since (event, now) (by simp)
  · rintro (connects | ⟨⟨before, first, moment, after, rfl, connects, since⟩, gone, other⟩)
    · exact ⟨events, event, now, [], rfl, connects, nofun⟩
    · refine ⟨before, first, moment, after ++ [(event, now)], ?_, connects, fun later member => ?_⟩
      · rw [List.append_assoc, List.cons_append]
      · rcases List.mem_append.mp member with early | last
        · exact since later early
        · obtain rfl := List.mem_singleton.mp last
          exact ⟨gone, other⟩

theorem peerAddrs_heard (addr : Addr) (fp : String) :
    (heard events).peerAddrs.lookup addr = some fp ↔ StandsFor events addr fp := by
  induction events using List.reverseRecOn with
  | nil =>
    refine ⟨nofun, ?_⟩
    rintro ⟨before, event, now, after, whole, -⟩
    exact absurd whole.symm (by simp)
  | append_singleton events last ih =>
    obtain ⟨event, now⟩ := last
    rw [heard_concat, standsFor_concat, ← ih]
    rcases (heard events).apply_peers event now with
      ⟨from_, machine, connects, is⟩ | ⟨from_, rfl⟩ | ⟨quiet, stays, addrs, -⟩
    · have notGone : event ≠ .incomingDisconnected addr := by
        rintro rfl
        cases connects
      rw [is, registerPeer_peerAddrs, connects]
      by_cases here : addr = from_
      · subst here
        rw [AList.lookup_insert]
        constructor
        · intro same
          exact .inl (by rw [Option.some.inj same])
        · rintro (same | ⟨-, -, other⟩)
          · exact congrArg some (Prod.mk.inj (Option.some.inj same)).2
          · exact congrArg some (other machine rfl)
      · rw [AList.lookup_insert_ne here]
        constructor
        · intro found
          refine .inr ⟨found, notGone, fun other same => ?_⟩
          exact absurd (Prod.mk.inj (Option.some.inj same)).1.symm here
        · rintro (same | ⟨found, -⟩)
          · exact absurd (Prod.mk.inj (Option.some.inj same)).1.symm here
          · exact found
    · have erased : ((heard events).apply (.incomingDisconnected from_) now).peerAddrs =
          (heard events).peerAddrs.erase from_ := by
        rw [apply]
        split
        · exact forgetIfLastAddr_peerAddrs _
        · rfl
      rw [erased]
      by_cases here : addr = from_
      · subst here
        rw [AList.lookup_erase]
        refine ⟨nofun, ?_⟩
        rintro (connects | ⟨-, notGone, -⟩)
        · cases connects
        · exact absurd rfl notGone
      · rw [AList.lookup_erase_ne here]
        constructor
        · intro found
          refine .inr ⟨found, fun same => here ?_, nofun⟩
          cases same
          rfl
        · rintro (connects | ⟨found, -⟩)
          · cases connects
          · exact found
    · rw [addrs, quiet]
      constructor
      · exact fun found => .inr ⟨found, stays addr, nofun⟩
      · rintro (connects | ⟨found, -⟩)
        · cases connects
        · exact found

/-! ## One card per machine -/

/-- What holds of a list of devices. -/
structure OneCard (model : AppModel Addr) (devices : List (Device Addr)) : Prop where
  nodup : devices.Nodup
  /-- No machine is on two cards. -/
  distinct : ∀ one ∈ devices, ∀ other ∈ devices, ∀ fp, one.fingerprint = some fp →
    other.fingerprint = some fp → one = other
  /-- Every machine that is known in some way is on a card, except this one. -/
  listed : ∀ fp, (∃ device ∈ devices, device.fingerprint = some fp) ↔ model.Listed fp
  /-- A device is on a card unless an earlier one is pinned to its machine. -/
  sends : ∀ handle config state, model.clients.lookup handle = some (config, state) →
    ((∃ device ∈ devices, device.send = some ⟨handle, config, state⟩) ↔
      ¬∃ earlier client fp, earlier < handle ∧ model.clients.lookup earlier = some client ∧
        model.pinned client.2 = some fp ∧ model.pinned state = some fp)
  /-- No device is on two cards. -/
  sendOnce : ∀ one ∈ devices, ∀ other ∈ devices, ∀ send sent, one.send = some send →
    other.send = some sent → send.handle = sent.handle → one = other
  /-- What a card carries is from entries with its own fingerprint. -/
  ownSend : ∀ device ∈ devices, ∀ send, device.send = some send →
    model.clients.lookup send.handle = some (send.config, send.state) ∧
      model.pinned send.state = device.fingerprint
  ownReceive : ∀ device ∈ devices, device.receive = true ↔
    ∃ fp, device.fingerprint = some fp ∧ (model.authorized.lookup fp).isSome = true
  ownControls : ∀ device ∈ devices, device.controls = true ↔
    ∃ fp trust, device.fingerprint = some fp ∧ model.trust.lookup fp = some trust ∧
      trust.pending = false ∧ trust.pairAgain = false ∧ trust.weMayDrive = true
  /-- The state a card shows is that of what is known of it. -/
  connection : ∀ device ∈ devices, device.connection = Connection.of (model.facts device)

omit [DecidableEq Addr] in
theorem oneCard [Lowercase] (model : AppModel Addr) (isIp : String → Bool)
    (walks : DeviceWalks) : model.OneCard (model.devices isIp walks) := by
  have carries : ∀ card, model.IsCard isIp card → ∀ fp, card.fingerprint = some fp →
      model.Carries (model.sentTo fp) fp card :=
    fun card isCard fp named => (cardAt_spec isIp fp).1 card (isCard.cardAt named)
  refine ⟨devices_nodup walks, fun one inside other too fp named alike => ?_, fun fp => ?_,
    fun handle config state row => ?_,
    fun one inside other too send sent sends also same => ?_,
    fun device member send sends => ?_, fun device member => ?_, fun device member => ?_,
    fun device member => ?_⟩
  · obtain ⟨card, isCard, rfl⟩ := (mem_devices walks).mp inside
    obtain ⟨second, isToo, rfl⟩ := (mem_devices walks).mp too
    exact congrArg _ (isCard.eq_of_fingerprint isToo named alike)
  · rw [← (cardAt_spec isIp fp).2, Option.isSome_iff_exists]
    constructor
    · rintro ⟨device, member, named⟩
      obtain ⟨card, isCard, rfl⟩ := (mem_devices walks).mp member
      exact ⟨card, isCard.cardAt named⟩
    · rintro ⟨card, atFp⟩
      exact ⟨model.known card, (mem_devices walks).mpr ⟨card, .inl ⟨fp, atFp⟩, rfl⟩,
        ((cardAt_spec isIp fp).1 card atFp).fingerprint⟩
  · have onCard : (∃ card, model.IsCard isIp card ∧ card.send = some ⟨handle, config, state⟩) ↔ _ :=
      exists_isCard_send row
    rw [← onCard]
    constructor
    · rintro ⟨device, member, sends⟩
      obtain ⟨card, isCard, rfl⟩ := (mem_devices walks).mp member
      exact ⟨card, isCard, sends⟩
    · rintro ⟨card, isCard, sends⟩
      exact ⟨model.known card, (mem_devices walks).mpr ⟨card, isCard, rfl⟩, sends⟩
  · obtain ⟨card, isCard, rfl⟩ := (mem_devices walks).mp inside
    obtain ⟨second, isToo, rfl⟩ := (mem_devices walks).mp too
    exact congrArg _ (isCard.eq_of_handle isToo sends also same)
  · obtain ⟨card, isCard, rfl⟩ := (mem_devices walks).mp member
    exact isCard.send_spec sends
  · obtain ⟨card, isCard, rfl⟩ := (mem_devices walks).mp member
    change card.receive = true ↔ ∃ fp, card.fingerprint = some fp ∧ _
    cases named : card.fingerprint with
    | none =>
      obtain ⟨send, rfl⟩ := isCard.of_unnamed named
      exact ⟨nofun, nofun⟩
    | some fp =>
      rw [(carries card isCard fp named).receive]
      simp
  · obtain ⟨card, isCard, rfl⟩ := (mem_devices walks).mp member
    change card.controls = true ↔ ∃ fp trust, card.fingerprint = some fp ∧ _
    cases named : card.fingerprint with
    | none =>
      obtain ⟨send, rfl⟩ := isCard.of_unnamed named
      exact ⟨nofun, nofun⟩
    | some fp =>
      rw [(carries card isCard fp named).controls, controlsOf, Option.any_eq_true]
      simp [and_assoc]
  · obtain ⟨card, -, rfl⟩ := (mem_devices walks).mp member
    rfl

/--
After any events the list shows one card per machine, whatever order the maps are walked
in, and a card reads as connected in exactly while some address that connected in as its
machine has neither gone nor connected in as another since.
-/
theorem one_card_per_machine [Lowercase] (isIp : String → Bool)
    (events : List (FrontendEvent Addr × Nat)) (walks : DeviceWalks) :
    (heard events).OneCard ((heard events).devices isIp walks) ∧
      (∀ others, (heard events).devices isIp others = (heard events).devices isIp walks) ∧
      ∀ device ∈ (heard events).devices isIp walks,
        ((heard events).facts device).inbound = true ↔
          ∃ fp addr, device.fingerprint = some fp ∧ StandsFor events addr fp := by
  refine ⟨oneCard _ isIp walks, fun others => devices_walks others walks, fun device _ => ?_⟩
  rw [facts, Option.any_eq_true]
  constructor
  · rintro ⟨fp, named, member⟩
    obtain ⟨addr, found⟩ := (inward_heard events fp).mp (of_decide_eq_true member)
    exact ⟨fp, addr, named, (peerAddrs_heard events addr fp).mp found⟩
  · rintro ⟨fp, addr, named, stands⟩
    have found := (peerAddrs_heard events addr fp).mpr stands
    exact ⟨fp, named, decide_eq_true ((inward_heard events fp).mpr ⟨addr, found⟩)⟩

/-- One machine connects in from an address, and then another does. -/
def retaken : List (FrontendEvent Nat × Nat) :=
  [(.authorizedUpdated ((∅ : Table String String).insert "aa" "desk"), 0),
    (.deviceConnected 1 "aa", 1), (.deviceConnected 1 "bb", 2)]

/-- The first one never disconnected, and does not read as connected in any more. -/
theorem retaken_forgets :
    ¬ ∀ (_ : Lowercase) (isIp : String → Bool) (events : List (FrontendEvent Nat × Nat))
      (walks : DeviceWalks), ∀ device ∈ (heard events).devices isIp walks,
        ((heard events).facts device).inbound = true ↔
          ∃ fp addr before event now after, device.fingerprint = some fp ∧
            events = before ++ (event, now) :: after ∧ event.connects = some (addr, fp) ∧
            ∀ later ∈ after, later.1 ≠ .incomingDisconnected addr := by
  intro exact
  let lower := HopsFormal.Trust.asciiLowercase
  let walks : DeviceWalks := ⟨.asFiled, .asFiled, .asFiled⟩
  have listed : (heard retaken).Listed "aa" := ⟨by decide, .inl (by decide)⟩
  obtain ⟨device, member, named⟩ :=
    ((oneCard (heard retaken) (fun _ => false) walks).listed "aa").mpr listed
  have inward := (exact lower (fun _ => false) retaken walks device member).mpr
    ⟨"aa", 1, [retaken[0]], .deviceConnected 1 "aa", 1, [(.deviceConnected 1 "bb", 2)], named, rfl,
      rfl, by simp⟩
  rw [facts, named] at inward
  have gone : "aa" ∉ (heard retaken).connectedPeers := by decide
  exact gone (of_decide_eq_true inward)

end AppModel

end HopsFormal.Frontend
