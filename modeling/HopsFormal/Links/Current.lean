import HopsFormal.Links.Recorded

/-!
# A device's link state is its current link's

What a device shows of its link is where the link is, whether its peer answered
a ping, whether it injects input and what it is capable of.  The steps that
write these look for the device's link each in its own way: an edit of the port
moves the address without a link, a frame is written down whichever link it came
on, what the machine states on a link it dialled itself is written down too, an
adoption replaces a link without clearing what it said.  While none of
these meets a device whose link is another one, the table holds at most one link
of each device, it is at the device's address, and the device shows exactly what
that link said.
-/

namespace HopsFormal.Links

open Lib ClientManager

/-- What a peer said of itself. -/
structure Stated where
  answered : Bool
  alive : Bool
  caps : Option UInt32
  deriving DecidableEq

namespace Stated

def blank : Stated := ⟨false, false, none⟩

/-- What it said after one more frame. -/
def hears (stated : Stated) : Frame → Stated
  | .pong enabled => { stated with answered := true, alive := enabled }
  | .capability flags => { stated with caps := some flags }
  | .hello _ => stated
  | .other => stated

end Stated

/-- Whether a frame is one a device shows something of. -/
def Frame.states : Frame → Bool
  | .pong _ => true
  | .capability _ => true
  | .hello _ => false
  | .other => false

theorem Stated.hears_of_not_states (stated : Stated) {frame : Frame}
    (silent : frame.states = false) : stated.hears frame = stated := by
  cases frame with
  | pong enabled | capability flags => cases silent
  | hello commit | other => rfl

def said : List (PeerLink × Frame) → PeerLink → Stated
  | [], _ => .blank
  | (first, frame) :: rest, link =>
    if first = link then (said rest link).hears frame else said rest link

theorem said_of_unheard {heard : List (PeerLink × Frame)} {link : PeerLink}
    (unheard : ∀ entry ∈ heard, entry.1 ≠ link) : said heard link = .blank := by
  induction heard with
  | nil => rfl
  | cons entry rest ih =>
    rw [said, if_neg (unheard entry List.mem_cons_self)]
    exact ih fun other member => unheard other (List.mem_cons_of_mem _ member)

namespace ClientManager

variable {Ip : Type}

/-- What a device shows of its peer. -/
def stated (clients : ClientManager Ip) (handle : Nat) : Stated where
  answered := handle ∈ clients.answered
  alive := clients.alive handle
  caps := clients.peerCaps handle

end ClientManager

/-- The part of a device its peer said. -/
def Device.word {Ip : Type} (device : Device Ip) : Bool × Option UInt32 :=
  (device.alive, device.peerCaps)

namespace ClientManager

variable {Ip : Type}

theorem stated_eq (clients : ClientManager Ip) (handle : Nat) :
    clients.stated handle =
      { answered := handle ∈ clients.answered
        alive := ((clients.device handle).map Device.word).any Prod.fst
        caps := ((clients.device handle).map Device.word).bind Prod.snd } := by
  unfold stated alive peerCaps
  cases clients.device handle <;> rfl

variable {clients : ClientManager Ip} {handle : Nat}

theorem stated_congr {other : ClientManager Ip}
    (answered : handle ∈ other.answered ↔ handle ∈ clients.answered)
    (word : (other.device handle).map Device.word = (clients.device handle).map Device.word) :
    other.stated handle = clients.stated handle := by
  rw [stated_eq, stated_eq, word]
  simp [answered]

theorem activeAddr_eq (clients : ClientManager Ip) (handle : Nat) :
    clients.activeAddr handle = ((clients.device handle).map (·.activeAddr)).bind id := by
  unfold activeAddr
  cases clients.device handle <;> rfl

theorem activeAddr_congr {other : ClientManager Ip}
    (same : (other.device handle).map (·.activeAddr) = (clients.device handle).map (·.activeAddr)) :
    other.activeAddr handle = clients.activeAddr handle := by
  rw [activeAddr_eq, activeAddr_eq, same]

theorem stated_of_absent (absent : clients.device handle = none)
    (unanswered : handle ∉ clients.answered) : clients.stated handle = .blank := by
  rw [stated_eq, absent]
  simp [unanswered, Stated.blank]

/-! ## What each change does to it -/

section

variable {change : Device Ip → Device Ip}

/-- A change of one device that leaves what its peer said alone. -/
theorem stated_update (kept : ∀ device, (change device).word = device.word) (other : Nat) :
    (clients.update handle change).stated other = clients.stated other :=
  stated_congr Iff.rfl (map_device_update kept clients handle other)

theorem activeAddr_update (kept : ∀ device, (change device).activeAddr = device.activeAddr)
    (other : Nat) : (clients.update handle change).activeAddr other = clients.activeAddr other :=
  activeAddr_congr (map_device_update kept clients handle other)

end

theorem activeAddr_setHostname {other : Nat} {hostname : Option String} {addr : SocketAddr Ip}
    (active : (clients.setHostname handle hostname).activeAddr other = some addr) :
    clients.activeAddr other = some addr := by
  rw [setHostname, activeAddr, device_update] at active
  split at active
  · obtain ⟨device, found, there⟩ := Option.bind_eq_some_iff.mp active
    obtain ⟨before, device_eq, rfl⟩ := Option.map_eq_some_iff.mp found
    rw [activeAddr, device_eq]
    split at there
    · cases there
    · exact there
  · exact active

theorem activeAddr_setPort {port : UInt16} (still : (clients.device handle).all fun device =>
      device.port = port ∨ device.activeAddr.all (·.port = port)) (other : Nat) :
    (clients.setPort handle port).activeAddr other = clients.activeAddr other := by
  apply activeAddr_congr
  rw [setPort, device_update]
  split
  · next same =>
    subst same
    cases found : clients.device other with
    | none => rfl
    | some device =>
      rw [found] at still
      simp only [Option.map_some]
      split
      · next changes =>
        cases active : device.activeAddr with
        | none => rfl
        | some addr =>
          have has : addr.port = port := by
            simpa [changes, active] using still
          simp [← has]
      · rfl
  · rfl

theorem activeAddr_setActiveAddr {other : Nat} {addr there : SocketAddr Ip}
    (active : (clients.setActiveAddr handle (some addr)).activeAddr other = some there) :
    (other = handle ∧ there = addr ∧ (clients.device handle).isSome) ∨
      (other ≠ handle ∧ clients.activeAddr other = some there) := by
  rw [setActiveAddr, activeAddr, device_update] at active
  split at active
  · next same =>
    subst same
    obtain ⟨device, found, here⟩ := Option.bind_eq_some_iff.mp active
    obtain ⟨before, device_eq, rfl⟩ := Option.map_eq_some_iff.mp found
    exact .inl ⟨rfl, (Option.some.inj here).symm, Option.isSome_iff_exists.mpr ⟨_, device_eq⟩⟩
  · next apart => exact .inr ⟨apart, active⟩

theorem activeAddr_answeredPing (clients : ClientManager Ip) (handle other : Nat)
    (enabled : Bool) :
    (clients.answeredPing handle enabled).activeAddr other = clients.activeAddr other := by
  have kept : ∀ device : Device Ip,
      Device.activeAddr { device with alive := enabled } = device.activeAddr :=
    fun _ => rfl
  exact activeAddr_congr (map_device_update kept _ handle other)

/-- A frame changes what its device shows, if there is one. -/
theorem stated_hears {after : ClientManager Ip} {frame : Frame} (other : Nat)
    (here : other = handle → after.stated other =
      if (clients.device other).isSome then (clients.stated other).hears frame
      else clients.stated other)
    (others : other ≠ handle → after.device other = clients.device other ∧
      (other ∈ after.answered ↔ other ∈ clients.answered)) : after.stated other =
      if other = handle ∧ (clients.device other).isSome then (clients.stated other).hears frame
      else clients.stated other := by
  by_cases same : other = handle
  · rw [here same]
    simp only [same, true_and]
  · obtain ⟨device, answered⟩ := others same
    rw [if_neg fun both => same both.1]
    exact stated_congr answered (by rw [device])

theorem stated_answeredPing (clients : ClientManager Ip) (handle : Nat) (enabled : Bool)
    (other : Nat) : (clients.answeredPing handle enabled).stated other =
      if other = handle ∧ (clients.device other).isSome then
        (clients.stated other).hears (.pong enabled)
      else clients.stated other := by
  have changed : (clients.answeredPing handle enabled).device other =
      if other = handle then (clients.device other).map fun device =>
        { device with alive := enabled }
      else clients.device other :=
    device_update _ _ _ _
  apply stated_hears
  · rintro rfl
    rw [if_pos rfl] at changed
    rw [stated_eq, stated_eq, changed]
    cases found : clients.device other <;>
      simp [answeredPing, setAlive, found, Stated.hears, Device.word]
  · intro apart
    refine ⟨changed.trans (if_neg apart), ?_⟩
    simp only [answeredPing, setAlive, update_answered]
    split
    · rw [List.mem_insert_iff, or_iff_right apart]
    · rfl

theorem stated_setPeerCaps (clients : ClientManager Ip) (handle : Nat) (flags : UInt32)
    (other : Nat) : (clients.setPeerCaps handle (some flags)).stated other =
      if other = handle ∧ (clients.device other).isSome then
        (clients.stated other).hears (.capability flags)
      else clients.stated other := by
  have changed : (clients.setPeerCaps handle (some flags)).device other =
      if other = handle then (clients.device other).map fun device =>
        { device with peerCaps := some flags }
      else clients.device other :=
    device_update _ _ _ _
  have asked : (clients.setPeerCaps handle (some flags)).answered = clients.answered := rfl
  apply stated_hears
  · rintro rfl
    rw [if_pos rfl] at changed
    rw [stated_eq, stated_eq, changed, asked]
    cases clients.device other <;> simp [Stated.hears, Device.word]
  · exact fun apart => ⟨changed.trans (if_neg apart), Iff.rfl⟩

/-- A device whose link ended shows nothing. -/
def cleared (clients : ClientManager Ip) (handle : Nat) : ClientManager Ip :=
  (((clients.setActiveAddr handle none).setAlive handle false).setPeerCommit handle
    none).setPeerCaps handle none

theorem device_cleared (clients : ClientManager Ip) (handle other : Nat) :
    (clients.cleared handle).device other =
      if other = handle then (clients.device other).map fun device =>
        { device with activeAddr := none, alive := false, peerCommit := none, peerCaps := none }
      else clients.device other := by
  have base : (clients.setActiveAddr handle none).device other =
      if other = handle then (clients.device other).map fun device =>
        { device with activeAddr := none }
      else clients.device other :=
    device_update _ _ _ _
  rw [cleared, setPeerCaps, device_update, setPeerCommit, device_update, setAlive, device_update,
    base]
  split
  · simp only [Option.map_map]
    rfl
  · rfl

theorem activeAddr_cleared (clients : ClientManager Ip) (handle other : Nat) :
    (clients.cleared handle).activeAddr other =
      if other = handle then none else clients.activeAddr other := by
  rw [activeAddr, device_cleared]
  split
  · cases clients.device other <;> rfl
  · rfl

theorem stated_of_gone {after : ClientManager Ip}
    (asked : after.answered = clients.answered.filter (· ≠ handle))
    (here : ∀ device, after.device handle = some device → device.word = (false, none))
    (others : ∀ other, other ≠ handle → after.device other = clients.device other) (other : Nat) :
    after.stated other = if other = handle then .blank else clients.stated other := by
  split
  · next same =>
    subst same
    rw [stated_eq, asked]
    cases found : after.device other with
    | none => simp [Stated.blank]
    | some device => simp [here device found, Stated.blank]
  · next apart =>
    apply stated_congr
    · rw [asked, List.mem_filter]
      simp [apart]
    · rw [others other apart]

variable (clients)

theorem stated_cleared (handle other : Nat) : (clients.cleared handle).stated other =
      if other = handle then .blank else clients.stated other := by
  refine stated_of_gone rfl (fun device found => ?_) (fun other apart => ?_) other
  · rw [device_cleared, if_pos rfl] at found
    obtain ⟨before, -, rfl⟩ := Option.map_eq_some_iff.mp found
    rfl
  · rw [device_cleared, if_neg apart]

theorem stated_removeClient (handle other : Nat) : (clients.removeClient handle).stated other =
      if other = handle then .blank else clients.stated other := by
  refine stated_of_gone rfl (fun device found => ?_) (fun other apart => ?_) other
  · rw [device_removeClient, if_pos rfl] at found
    cases found
  · rw [device_removeClient, if_neg apart]

theorem activeAddr_removeClient (handle other : Nat) :
    (clients.removeClient handle).activeAddr other =
      if other = handle then none else clients.activeAddr other := by
  rw [activeAddr, device_removeClient]
  split <;> rfl

end ClientManager

namespace Outbound

variable {Ip : Type} [DecidableEq Ip]

/-! ## The condition on a step -/

/-- The table holds a link of a device. -/
def hasLink (outbound : Outbound Ip) (handle : Nat) : Bool :=
  outbound.conns.any fun _ link => link.handle = handle

/--
A device may be given a link at an address: it shows nothing, and the table has
neither a link of it nor one at that address, but for the link at its own.
-/
def vacant (outbound : Outbound Ip) (handle : Nat) (addr : SocketAddr Ip) : Bool :=
  (outbound.clients.stated handle = .blank) &&
    ! outbound.conns.any fun there link =>
      (link.handle = handle ∨ there = addr) ∧ outbound.clients.activeAddr handle ≠ some there

/--
The end of a link meets its own device: what it takes out of the table is that
device's, and a device it clears without taking anything has no link there.
-/
def own (outbound : Outbound Ip) (handle : Nat) (addr : SocketAddr Ip)
    (ended : Option PeerLink) : Bool :=
  match outbound.newerAt addr ended, outbound.conns.lookup addr with
  | some newer, _ =>
    newer = handle || (outbound.clients.activeAddr handle).isSome || ! outbound.hasLink handle
  | none, some link => link.handle = handle
  | none, none => (outbound.clients.activeAddr handle).isSome || ! outbound.hasLink handle

/-- The steps that may write over another link's state, when they do not. -/
def careful (outbound : Outbound Ip) : Touch Ip → Bool
  | .ports handle port =>
    (outbound.clients.device handle).all fun device =>
      device.port = port ∨ device.activeAddr.all (·.port = port)
  | .records handle addr _ _ => outbound.vacant handle addr
  | .hears addr link frame =>
    ! frame.states || (outbound.clients.device link.handle).isNone ||
      outbound.conns.lookup addr = some link
  | .states fingerprint flags =>
    (outbound.clients.pinnedTo fingerprint).all fun handle =>
      outbound.clients.peerCaps handle = some flags
  | .ends handle addr ended _ => outbound.own handle addr ended
  | .drops addr => (outbound.clients.handlesAt addr).isEmpty
  | _ => true

theorem shown_peerCaps (outbound : Outbound Ip) (fingerprint : String) (flags : UInt32)
    (careful : outbound.careful (.states fingerprint flags)) :
    SameShown outbound.clients (outbound.handlePeerCaps fingerprint flags).clients := by
  have same := List.all_eq_true.mp careful
  refine List.foldlRecOn _ _ (.refl _) fun clients kept handle pinned =>
    ⟨kept.next, kept.answered, fun other => ?_⟩
  rw [← kept.shown, setPeerCaps, device_update]
  split
  · next its =>
    subst its
    have shows : outbound.clients.peerCaps other = some flags :=
      of_decide_eq_true (same other pinned)
    have still := kept.shown other
    cases found : clients.device other with
    | none => rfl
    | some device =>
      rw [found] at still
      obtain ⟨before, there, alike⟩ := Option.map_eq_some_iff.mp still.symm
      have caps : device.peerCaps = some flags := by
        rw [peerCaps, there] at shows
        rw [← shows]
        exact (congrArg (·.2.2) alike).symm
      simp [Device.shown, caps]
  · rfl

/-! ## The invariant -/

structure Current (outbound : Outbound Ip) : Prop where
  linked : ∀ handle addr, outbound.clients.activeAddr handle = some addr →
    ∃ link, outbound.conns.lookup addr = some link ∧ link.handle = handle
  single : ∀ addr other link another, outbound.conns.lookup addr = some link →
    outbound.conns.lookup other = some another → link.handle = another.handle → addr = other
  said : ∀ addr link, outbound.conns.lookup addr = some link →
    (outbound.clients.device link.handle).isSome →
    outbound.clients.stated link.handle = said outbound.heard link
  left : ∀ handle, outbound.clients.stated handle ≠ .blank →
    ∃ entry ∈ outbound.receiving, entry.2.handle = handle

theorem current_start : Current (start : Outbound Ip) := by
  constructor
  · intro handle addr active
    cases active
  · intro addr other link another up
    cases up
  · intro addr link up
    cases up
  · intro handle shown
    exact absurd rfl shown

variable {outbound other : Outbound Ip} {addr : SocketAddr Ip} {handle : Nat} {link : PeerLink}
  {ended : Option PeerLink} {act : Act Ip}

theorem Alike.activeAddr (alike : Alike outbound other) (handle : Nat) :
    other.clients.activeAddr handle = outbound.clients.activeAddr handle := by
  have shown := congrArg (Option.map Prod.fst) (alike.shown handle)
  apply activeAddr_congr
  simpa [Option.map_map, Device.shown, Function.comp_def] using shown

theorem Alike.stated (alike : Alike outbound other) (handle : Nat) :
    other.clients.stated handle = outbound.clients.stated handle := by
  have shown := congrArg (Option.map Prod.snd) (alike.shown handle)
  apply stated_congr
  · rw [alike.answered]
  · rw [Option.map_map, Option.map_map] at shown
    exact shown

section

variable (current : Current outbound)
include current

theorem Current.congr (alike : Alike outbound other) : Current other := by
  constructor
  · intro handle addr active
    rw [alike.activeAddr] at active
    rw [alike.conns]
    exact current.linked handle addr active
  · intro addr other link another up there
    rw [alike.conns] at up there
    exact current.single addr other link another up there
  · intro addr link up there
    rw [alike.conns] at up
    rw [alike.isSome] at there
    rw [alike.stated, alike.heard]
    exact current.said addr link up there
  · intro handle shown
    rw [alike.stated] at shown
    rw [alike.receiving]
    exact current.left handle shown

/-- Links taken out, while every device shows the same or nothing. -/
theorem Current.less {conns : Table (SocketAddr Ip) PeerLink} {clients : ClientManager Ip}
    (active : ∀ other there, clients.activeAddr other = some there →
      outbound.clients.activeAddr other = some there ∧
        conns.lookup there = outbound.conns.lookup there)
    (links : ∀ there link, conns.lookup there = some link →
      outbound.conns.lookup there = some link ∧ ((clients.device link.handle).isSome →
        (outbound.clients.device link.handle).isSome ∧
          clients.stated link.handle = outbound.clients.stated link.handle))
    (stated : ∀ other, clients.stated other = .blank ∨
      clients.stated other = outbound.clients.stated other) :
    Current { outbound with conns := conns, clients := clients } := by
  constructor
  · intro other there here
    obtain ⟨before, kept⟩ := active other there here
    obtain ⟨link, up, its⟩ := current.linked other there before
    exact ⟨link, kept.trans up, its⟩
  · intro first second link another up there
    exact current.single first second link another (links first link up).1 (links second another there).1
  · intro there link up exist
    obtain ⟨before, same⟩ := links there link up
    obtain ⟨still, stated⟩ := same exist
    exact stated.trans (current.said there link before still)
  · intro other shown
    rcases stated other with blank | same
    · exact absurd blank shown
    · exact current.left other (same ▸ shown)

/-- Devices that show no more than they did, of the same links. -/
theorem Current.withClients {clients : ClientManager Ip}
    (active : ∀ handle addr, clients.activeAddr handle = some addr →
      outbound.clients.activeAddr handle = some addr)
    (stated : ∀ handle, clients.stated handle = outbound.clients.stated handle)
    (there : ∀ addr link, outbound.conns.lookup addr = some link →
      (clients.device link.handle).isSome → (outbound.clients.device link.handle).isSome) :
    Current { outbound with clients := clients } :=
  current.less (fun other addr here => ⟨active other addr here, rfl⟩)
    (fun addr link up => ⟨up, fun exist => ⟨there addr link up exist, stated _⟩⟩)
    fun other => .inr (stated other)

/-- Fewer links, none of which is at a device's address. -/
theorem Current.drops (unused : ∀ handle, outbound.clients.activeAddr handle ≠ some addr) :
    Current { outbound with conns := outbound.conns.erase addr } := by
  apply current.less
  · exact fun other there active =>
      ⟨active, AList.lookup_erase_ne fun same => unused other (same ▸ active)⟩
  · exact fun there link up => ⟨(Table.lookup_of_erase up).2, fun exist => ⟨exist, rfl⟩⟩
  · exact fun other => .inr rfl

theorem Current.adds (recorded : Recorded outbound) (config : ConfigClient Ip) :
    Current { outbound with clients := outbound.clients.addWithConfig config } := by
  have absent : outbound.clients.device outbound.clients.next = none := by
    rw [← Option.not_isSome_iff_eq_none]
    intro there
    exact Nat.lt_irrefl _ (recorded.devices _ there)
  have unanswered : outbound.clients.next ∉ outbound.clients.answered := by
    intro said
    exact Nat.lt_irrefl _ (recorded.devices _ (recorded.answered _ said))
  have here : (outbound.clients.addWithConfig config).device outbound.clients.next =
      some ⟨config.hostname, config.ips, [], config.ips, config.port, config.active, none,
        config.fingerprint, false, none, none⟩ :=
    AList.lookup_insert _
  apply current.withClients
  · intro handle addr active
    by_cases new : handle = outbound.clients.next
    · rw [new, activeAddr, here] at active
      cases active
    · rwa [activeAddr, device_addWithConfig_of_ne _ _ new] at active
  · intro handle
    by_cases new : handle = outbound.clients.next
    · subst new
      rw [stated_of_absent absent unanswered, stated_eq, here]
      simp [addWithConfig, unanswered, Device.word, Stated.blank]
    · apply stated_congr
      · exact Iff.rfl
      · rw [device_addWithConfig_of_ne _ _ new]
  · intro addr link up there
    have older := recorded.given _ (recorded.received _ (recorded.listed addr link up))
    rwa [device_addWithConfig_of_ne _ _ (Nat.ne_of_lt older)] at there

theorem Current.removes (handle : Nat) :
    Current { outbound with clients := outbound.clients.removeClient handle } := by
  apply current.less
  · intro other addr active
    rw [activeAddr_removeClient] at active
    split at active
    · cases active
    · exact ⟨active, rfl⟩
  · refine fun addr link up => ⟨up, fun there => ?_⟩
    rw [device_removeClient] at there
    rw [stated_removeClient]
    split at there
    · cases there
    · next apart => exact ⟨there, if_neg apart⟩
  · intro other
    rw [stated_removeClient]
    exact ite_eq_or_eq _ _ _

end

theorem vacant_iff : outbound.vacant handle addr = true ↔ outbound.clients.stated handle = .blank ∧
      ∀ there link, outbound.conns.lookup there = some link →
        (link.handle = handle ∨ there = addr) →
        outbound.clients.activeAddr handle = some there := by
  rw [vacant, Bool.and_eq_true, decide_eq_true_eq, Bool.not_eq_true', ← Bool.not_eq_true,
    Table.any_iff]
  refine and_congr_right fun _ => ?_
  constructor
  · intro none_other there link up its
    by_contra elsewhere
    exact none_other ⟨there, link, up, by simpa using ⟨its, elsewhere⟩⟩
  · rintro free ⟨there, link, up, test⟩
    obtain ⟨its, elsewhere⟩ := of_decide_eq_true test
    exact elsewhere (free there link up its)

section

variable (current : Current outbound)
include current

theorem Current.records (recorded : Recorded outbound) (vacant : outbound.vacant handle addr)
    (fp : String) (dialledIn : Bool) :
    Current ((outbound.withoutLink handle).record handle addr fp dialledIn) := by
  obtain ⟨blank, free⟩ := vacant_iff.mp vacant
  have fresh (other : SocketAddr Ip) (link : PeerLink)
      (up : ((outbound.withoutLink handle).record handle addr fp
        dialledIn).conns.lookup other = some link) :
      (other = addr ∧ link = ⟨outbound.recorded.length, fp, handle, dialledIn⟩) ∨
        (other ≠ addr ∧ link.handle ≠ handle ∧ outbound.conns.lookup other = some link) := by
    rw [lookup_record, lookup_withoutLink, withoutLink_recorded] at up
    split at up
    · next same => exact .inl ⟨same, (Option.some.inj up).symm⟩
    · next apart =>
      split at up
      · cases up
      · next elsewhere =>
        exact .inr ⟨apart, fun its => elsewhere (free other link up (.inl its)), up⟩
  have stated (other : Nat) : ((outbound.withoutLink handle).record handle addr fp
      dialledIn).clients.stated other = outbound.clients.stated other := by
    rw [record, withoutLink_clients]
    exact stated_update (fun _ => by rfl) other
  constructor
  · intro other there active
    rw [record, withoutLink_clients] at active
    rcases activeAddr_setActiveAddr active with
      ⟨rfl, rfl, -⟩ | ⟨apart, before⟩
    · refine ⟨⟨outbound.recorded.length, fp, other, dialledIn⟩, ?_, rfl⟩
      rw [lookup_record, if_pos rfl, withoutLink_recorded]
    · obtain ⟨link, up, its⟩ := current.linked other there before
      have own_addr : outbound.clients.activeAddr handle ≠ some there := by
        intro mine
        obtain ⟨mineLink, mineUp, mineIts⟩ := current.linked handle there mine
        cases up.symm.trans mineUp
        exact apart (its.symm.trans mineIts)
      have new_addr : there ≠ addr := fun same => own_addr (free there link up (.inr same))
      refine ⟨link, ?_, its⟩
      rw [lookup_record, if_neg new_addr, lookup_withoutLink, if_neg own_addr]
      exact up
  · intro first second link another up there same
    rcases fresh first link up with ⟨rfl, rfl⟩ | ⟨-, other, before⟩
    · rcases fresh second another there with ⟨rfl, -⟩ | ⟨-, others, -⟩
      · rfl
      · exact absurd same.symm others
    · rcases fresh second another there with ⟨-, rfl⟩ | ⟨-, -, beforeToo⟩
      · exact absurd same other
      · exact current.single first second link another before beforeToo same
  · intro other link up there
    rw [stated]
    have kept : ((outbound.withoutLink handle).record handle addr fp
        dialledIn).heard = outbound.heard := withoutLink_heard _ _
    rw [kept]
    rcases fresh other link up with ⟨-, rfl⟩ | ⟨-, -, before⟩
    · rw [blank]
      refine (said_of_unheard ?_).symm
      intro entry member same
      obtain ⟨old, among, heardOn⟩ := recorded.heard entry member
      obtain ⟨index, bound, at'⟩ := List.mem_iff_getElem.mp among
      have numbered := recorded.numbered index old (List.getElem?_eq_some_iff.mpr ⟨bound, at'⟩)
      rw [heardOn, same] at numbered
      dsimp only at numbered
      omega
    · apply current.said other link before
      rwa [record, withoutLink_clients, setActiveAddr, isSome_update] at there
  · intro other shown
    rw [stated] at shown
    obtain ⟨entry, member, its⟩ := current.left other shown
    exact ⟨entry, by simp [record, member], its⟩

/-! ## A frame -/

theorem Current.receive (runs : (addr, link) ∈ outbound.receiving) {frame : Frame}
    (own : frame.states = false ∨ outbound.clients.device link.handle = none ∨
      outbound.conns.lookup addr = some link) : Current (outbound.receive addr link frame) := by
  have conns : (outbound.receive addr link frame).conns = outbound.conns := by
    cases frame <;> rfl
  have heard : (outbound.receive addr link frame).heard = (link, frame) :: outbound.heard := by
    cases frame <;> rfl
  have receiving : (outbound.receive addr link frame).receiving = outbound.receiving := by
    cases frame <;> rfl
  have there (handle : Nat) : ((outbound.receive addr link frame).clients.device handle).isSome =
      (outbound.clients.device handle).isSome := by
    cases frame with
    | pong enabled =>
      refine (isSome_update _ _ _ _).trans ?_
      exact isSome_update _ _ _ _
    | hello commit | capability flags => exact isSome_update _ _ _ _
    | other => rfl
  have active (handle : Nat) (there : SocketAddr Ip)
      (here : (outbound.receive addr link frame).clients.activeAddr handle = some there) :
      outbound.clients.activeAddr handle = some there ∨
        (handle = link.handle ∧ there = addr ∧ frame.states = true ∧
          (outbound.clients.device link.handle).isSome) := by
    cases frame with
    | pong enabled =>
      rw [Outbound.receive, activeAddr_answeredPing] at here
      rcases activeAddr_setActiveAddr here with ⟨its, at', exist⟩ | ⟨-, before⟩
      · exact .inr ⟨its, at', rfl, exist⟩
      · exact .inl before
    | hello commit | capability flags =>
      exact .inl ((activeAddr_update (fun _ => by rfl) handle).symm.trans here)
    | other => exact .inl here
  have stated (handle : Nat) : (outbound.receive addr link frame).clients.stated handle =
      if handle = link.handle ∧ (outbound.clients.device handle).isSome then
        (outbound.clients.stated handle).hears frame
      else outbound.clients.stated handle := by
    cases frame with
    | pong enabled =>
      have there : ((outbound.clients.setActiveAddr link.handle (some addr)).device handle).isSome =
          (outbound.clients.device handle).isSome := isSome_update _ _ _ _
      have same : (outbound.clients.setActiveAddr link.handle (some addr)).stated handle =
          outbound.clients.stated handle := stated_update (fun _ => by rfl) handle
      rw [Outbound.receive, stated_answeredPing, there, same]
    | hello commit =>
      rw [Outbound.receive, setPeerCommit, stated_update fun _ => by rfl]
      split <;> rfl
    | capability flags => exact stated_setPeerCaps _ _ _ _
    | other => split <;> rfl
  constructor
  · intro handle at' here
    rw [conns]
    rcases active handle at' here with before | ⟨rfl, rfl, states, exist⟩
    · exact current.linked handle at' before
    · rcases own with silent | absent | up
      · simp [silent] at states
      · simp [absent] at exist
      · exact ⟨link, up, rfl⟩
  · rw [conns]
    exact current.single
  · intro other up
    rw [conns, there, heard, stated]
    intro found exist
    have before := current.said other up found exist
    rw [before, HopsFormal.Links.said]
    by_cases same : link = up
    · subst same
      rw [if_pos ⟨rfl, exist⟩, if_pos rfl]
    · rw [if_neg same]
      split
      · next device =>
        rcases own with silent | absent | here
        · exact Stated.hears_of_not_states _ silent
        · rw [device.1, absent] at exist
          cases exist
        · cases current.single other addr up link found here device.1
          exact absurd (Option.some.inj (here.symm.trans found)) same
      · rfl
  · intro handle shown
    rw [receiving]
    by_cases its : handle = link.handle
    · exact ⟨(addr, link), runs, its.symm⟩
    · rw [stated, if_neg fun both => its both.1] at shown
      exact current.left handle shown

/-! ## The end of a link -/

theorem Current.clears {conns : Table (SocketAddr Ip) PeerLink}
    (links : ∀ there link, conns.lookup there = some link →
      outbound.conns.lookup there = some link ∧ link.handle ≠ handle)
    (kept : ∀ other there, other ≠ handle → outbound.clients.activeAddr other = some there →
      conns.lookup there = outbound.conns.lookup there) :
    Current { outbound with conns := conns, clients := outbound.clients.cleared handle } := by
  apply current.less
  · intro other there active
    rw [activeAddr_cleared] at active
    split at active
    · cases active
    · next apart => exact ⟨active, kept other there apart active⟩
  · intro there link up
    obtain ⟨before, apart⟩ := links there link up
    rw [device_cleared, stated_cleared, if_neg apart, if_neg apart]
    exact ⟨before, fun exist => ⟨exist, rfl⟩⟩
  · intro other
    rw [stated_cleared]
    exact ite_eq_or_eq _ _ _

theorem Current.cleared
    (unlinked : ∀ addr link, outbound.conns.lookup addr = some link → link.handle ≠ handle) :
    Current { outbound with clients := outbound.clients.cleared handle } :=
  current.clears (fun addr link up => ⟨up, unlinked addr link up⟩) fun _ _ _ _ => rfl

/-- A device's only link may be taken out and the device cleared. -/
theorem Current.endsOwn
    (only : ∀ other link, outbound.conns.lookup other = some link → other ≠ addr →
      link.handle ≠ handle)
    (unused : ∀ other, other ≠ handle → outbound.clients.activeAddr other ≠ some addr) :
    Current { outbound with
      conns := outbound.conns.erase addr, clients := outbound.clients.cleared handle } := by
  apply current.clears
  · intro there link up
    obtain ⟨elsewhere, before⟩ := Table.lookup_of_erase up
    exact ⟨before, only there link before elsewhere⟩
  · exact fun other there apart active =>
      AList.lookup_erase_ne fun same => unused other apart (same ▸ active)

end

theorem clearLink_elsewhere {current : SocketAddr Ip}
    (active : outbound.clients.activeAddr handle = some current) (elsewhere : current ≠ addr) :
    outbound.clearLink handle addr = outbound := by
  rw [clearLink, active, if_pos (by simpa using elsewhere)]

theorem clearLink_here
    (here : ∀ current, outbound.clients.activeAddr handle = some current → current = addr) :
    outbound.clearLink handle addr =
      { outbound with clients := outbound.clients.cleared handle } := by
  rw [clearLink, if_neg]
  · rfl
  · cases active : outbound.clients.activeAddr handle with
    | none => simp
    | some current => simp [here current active]

theorem newerAt_some {newer : Nat} (found : outbound.newerAt addr ended = some newer) :
    ∃ link old, outbound.conns.lookup addr = some link ∧ ended = some old ∧
      link.serial ≠ old.serial ∧ link.handle = newer := by
  unfold newerAt at found
  split at found
  · next link old up =>
    split at found
    · next apart => exact ⟨link, old, up, rfl, apart, Option.some.inj found⟩
    · cases found
  · cases found

theorem hasLink_iff : outbound.hasLink handle = true ↔
      ∃ addr link, outbound.conns.lookup addr = some link ∧ link.handle = handle := by
  rw [hasLink, Table.any_iff]
  simp only [decide_eq_true_eq]

/-- What the end of a link does, when it meets its own device. -/
inductive Ends (outbound : Outbound Ip) (handle : Nat) (addr : SocketAddr Ip)
    (ended : Option PeerLink) : Prop where
  | newer (link : PeerLink) (up : outbound.conns.lookup addr = some link)
      (its : link.handle = handle) (found : outbound.newerAt addr ended = some handle)
      (unchanged : outbound.disconnect handle addr ended = outbound)
  | elsewhere (current : SocketAddr Ip) (active : outbound.clients.activeAddr handle = some current)
      (apart : current ≠ addr)
      (missed : outbound.conns.lookup addr = none ∨
        ∃ newer, outbound.newerAt addr ended = some newer)
      (unchanged : Alike outbound (outbound.disconnect handle addr ended))
  | unlinked (none_up : ∀ other link, outbound.conns.lookup other = some link →
        link.handle ≠ handle)
      (cleared : Alike { outbound with clients := outbound.clients.cleared handle }
        (outbound.disconnect handle addr ended))
  | taken (link : PeerLink) (up : outbound.conns.lookup addr = some link)
      (its : link.handle = handle) (found : outbound.newerAt addr ended = none)
      (only : ∀ other link, outbound.conns.lookup other = some link → other ≠ addr →
        link.handle ≠ handle)
      (cleared : outbound.disconnect handle addr ended = { outbound with
        conns := outbound.conns.erase addr, clients := outbound.clients.cleared handle })

section

variable (current : Current outbound)
include current

theorem Current.ends_cases (own : outbound.own handle addr ended) :
    Ends outbound handle addr ended := by
  have none_of (unlinked : outbound.hasLink handle = false) : ∀ other link,
      outbound.conns.lookup other = some link → link.handle ≠ handle := by
    intro other link up its
    rw [hasLink_iff.mpr ⟨other, link, up, its⟩] at unlinked
    cases unlinked
  have erase_alike (absent : outbound.conns.lookup addr = none) (clients : ClientManager Ip) :
      Alike { outbound with clients := clients }
        { outbound with conns := outbound.conns.erase addr, clients := clients } := by
    refine ⟨?_, rfl, rfl, rfl, rfl, rfl, fun _ => rfl⟩
    intro other
    by_cases same : other = addr
    · subst same
      rw [AList.lookup_erase]
      exact absent.symm
    · exact AList.lookup_erase_ne same
  cases found : outbound.newerAt addr ended with
  | some newer =>
    obtain ⟨link, old, up, rfl, apart, its⟩ := newerAt_some found
    by_cases same : newer = handle
    · subst same
      apply Ends.newer link up its found
      rw [disconnect, found]
      exact if_pos rfl
    · have disconnected : outbound.disconnect handle addr (some old) =
          outbound.clearLink handle addr := by
        rw [disconnect, found]
        exact if_neg same
      rw [Outbound.own, found] at own
      cases active : outbound.clients.activeAddr handle with
      | some at' =>
        obtain ⟨mine, mineUp, mineIts⟩ := current.linked handle at' active
        have elsewhere : at' ≠ addr := by
          rintro rfl
          cases up.symm.trans mineUp
          exact same (its.symm.trans mineIts)
        apply Ends.elsewhere at' active elsewhere (.inr ⟨newer, found⟩)
        rw [disconnected, clearLink_elsewhere active elsewhere]
        exact .refl _
      | none =>
        have unlinked := none_of (by simpa [active, same] using own)
        apply Ends.unlinked unlinked
        rw [disconnected, clearLink_here (by simp [active])]
        exact .refl _
  | none =>
    have disconnected : outbound.disconnect handle addr ended =
        { outbound with conns := outbound.conns.erase addr }.clearLink handle addr := by
      rw [disconnect, found]
    cases up : outbound.conns.lookup addr with
    | some link =>
      have its : link.handle = handle := by
        simpa [Outbound.own, found, up] using own
      have only : ∀ other link, outbound.conns.lookup other = some link → other ≠ addr →
          link.handle ≠ handle := by
        intro other another there apart same
        exact apart (current.single other addr another link there up (same.trans its.symm))
      apply Ends.taken link up its found only
      rw [disconnected, clearLink_here]
      intro at' active
      obtain ⟨mine, mineUp, mineIts⟩ := current.linked handle at' active
      by_contra apart
      exact only at' mine mineUp apart mineIts
    | none =>
      rw [Outbound.own, found, up] at own
      cases active : outbound.clients.activeAddr handle with
      | some at' =>
        obtain ⟨mine, mineUp, mineIts⟩ := current.linked handle at' active
        have elsewhere : at' ≠ addr := by
          rintro rfl
          cases up.symm.trans mineUp
        let erased := { outbound with conns := outbound.conns.erase addr }
        have kept : erased.clearLink handle addr = erased :=
          clearLink_elsewhere active elsewhere
        apply Ends.elsewhere at' active elsewhere (.inl up)
        rw [disconnected, kept]
        exact erase_alike up outbound.clients
      | none =>
        apply Ends.unlinked (none_of (by simpa [active] using own))
        rw [disconnected, clearLink_here (by simp [active])]
        exact erase_alike up _

theorem Current.disconnect (own : outbound.own handle addr ended) :
    Current (outbound.disconnect handle addr ended) := by
  cases current.ends_cases own with
  | newer link up its found unchanged =>
    rw [unchanged]
    exact current
  | elsewhere at' active apart missed unchanged => exact current.congr unchanged
  | unlinked none_up cleared => exact (current.cleared none_up).congr cleared
  | taken link up its found only cleared =>
    rw [cleared]
    apply current.endsOwn only
    intro other apart active
    obtain ⟨mine, mineUp, mineIts⟩ := current.linked other addr active
    cases up.symm.trans mineUp
    exact apart (mineIts.symm.trans its)

theorem Current.shows_link (own : outbound.own handle addr ended)
    (shown : (outbound.disconnect handle addr ended).clients.stated handle ≠ .blank) :
    ∃ other link, (outbound.disconnect handle addr ended).conns.lookup other = some link ∧
      link.handle = handle := by
  cases current.ends_cases own with
  | newer link up its found unchanged =>
    rw [unchanged]
    exact ⟨addr, link, up, its⟩
  | elsewhere at' active apart missed unchanged =>
    obtain ⟨link, up, its⟩ := current.linked handle at' active
    exact ⟨at', link, (unchanged.conns at').trans up, its⟩
  | unlinked none_up cleared =>
    rw [cleared.stated, stated_cleared, if_pos rfl] at shown
    exact absurd rfl shown
  | taken link up its found only cleared =>
    rw [cleared, stated_cleared, if_pos rfl] at shown
    exact absurd rfl shown

theorem Current.ends (recorded : Recorded outbound) {index : Nat}
    (found : outbound.receiving[index]? = some (addr, link))
    (own : outbound.own link.handle addr (some link)) :
    Current ({ outbound with receiving := outbound.receiving.eraseIdx index }.disconnect
      link.handle addr (some link)) := by
  have ended := current.disconnect own
  have listed := (recorded.ends found).listed
  rw [disconnect_receiving] at listed ⊢
  refine { ended with left := ?_ }
  intro handle shown
  by_cases its : handle = link.handle
  · subst its
    obtain ⟨other, another, up, its⟩ := current.shows_link own shown
    exact ⟨(other, another), listed other another up, its⟩
  · obtain ⟨entry, member, same⟩ := ended.left handle shown
    have before : entry ∈ outbound.receiving := by
      have kept : (outbound.disconnect link.handle addr (some link)).receiving =
          outbound.receiving := by
        rw [show outbound = { outbound with receiving := outbound.receiving } from rfl,
          disconnect_receiving]
      rwa [kept] at member
    rcases eq_or_mem_eraseIdx found before with rfl | left
    · exact absurd same.symm its
    · exact ⟨entry, left, same⟩

/-! ## Every step -/

theorem Current.touched (recorded : Recorded outbound) {touch : Touch Ip}
    (known : outbound.known touch) (careful : outbound.careful touch) :
    Current (outbound.touched touch) := by
  cases touch with
  | none => exact current
  | adds config => exact current.adds recorded config
  | removes handle => exact current.removes handle
  | renames handle hostname =>
    apply current.withClients
    · intro other addr active
      exact activeAddr_setHostname active
    · exact stated_update fun device => by split <;> rfl
    · intro addr link up there
      exact (isSome_update _ _ _ _).symm.trans there
  | ports handle port =>
    apply current.withClients
    · intro other addr active
      rwa [activeAddr_setPort careful] at active
    · exact stated_update fun device => by split <;> rfl
    · intro addr link up there
      exact (isSome_update _ _ _ _).symm.trans there
  | records handle addr fingerprint dialledIn =>
    exact current.records recorded careful fingerprint dialledIn
  | hears addr link frame =>
    apply current.receive known
    simpa [Outbound.careful, or_assoc] using careful
  | states fingerprint flags =>
    exact current.congr
      (alike_of_shown ⟨rfl, rfl, rfl, rfl⟩ (shown_peerCaps outbound fingerprint flags careful))
  | ends handle addr ended loop =>
    cases loop with
    | none => exact current.disconnect careful
    | some index =>
      obtain ⟨link, rfl, rfl, found⟩ := known
      exact current.ends recorded found careful
  | drops addr =>
    apply current.drops
    intro handle active
    have among := mem_handlesAt.mpr active
    rw [List.isEmpty_iff.mp careful] at among
    cases among

end

/-- A step writes over no other link's state. -/
def Careful (taken : Outbound Ip × Act Ip) : Prop :=
  taken.1.careful (taken.1.touch taken.2) = true

instance (taken : Outbound Ip × Act Ip) : Decidable (Careful taken) :=
  inferInstanceAs (Decidable (_ = true))

theorem Current.step (current : Current outbound) (recorded : Recorded outbound)
    (asked : Asked outbound) (careful : Careful (outbound, act)) : Current (outbound.step act) :=
  (current.touched recorded (touch_known recorded asked act) careful).congr
    (step_alike outbound act)

theorem run_current (acts : List (Act Ip))
    (careful : ∀ taken ∈ trace step start acts, Careful taken) : Current (run acts) := by
  induction acts using List.reverseRecOn with
  | nil => exact current_start
  | append_singleton acts act ih =>
    rw [trace_append] at careful
    have current : Current (run acts) := ih fun before member =>
      careful before (List.mem_append_left _ member)
    have now : Careful (run acts, act) :=
      careful _ (List.mem_append_right _ List.mem_cons_self)
    obtain ⟨recorded, asked⟩ := run_recorded acts
    rw [run, List.foldl_append]
    exact current.step recorded asked now

def endOf (outbound : Outbound Ip) : Act Ip → Option PeerLink
  | .ends index => outbound.receiving[index]?.map Prod.snd
  | .pingFails index => outbound.pinging[index]?.map Prod.snd
  | .sends index false => outbound.sending[index]?.map Sending.link
  | _ => none

theorem touch_of_endOf {ended : PeerLink} (ends : outbound.endOf act = some ended) :
    ∃ handle addr loop, outbound.touch act = .ends handle addr (some ended) loop := by
  cases act with
  | ends index =>
    obtain ⟨⟨addr, link⟩, found, rfl⟩ := Option.map_eq_some_iff.mp ends
    exact ⟨link.handle, addr, some index, by simp [touch, found]⟩
  | pingFails index =>
    obtain ⟨⟨addr, link⟩, found, rfl⟩ := Option.map_eq_some_iff.mp ends
    exact ⟨link.handle, addr, none, by simp [touch, found]⟩
  | sends index written =>
    cases written with
    | true => cases ends
    | false =>
      obtain ⟨sending, found, rfl⟩ := Option.map_eq_some_iff.mp ends
      exact ⟨sending.handle, sending.addr, none, by simp [touch, found]⟩
  | _ => cases ends

/-- The end of a link leaves every other link, and what its device shows, alone. -/
theorem Current.newer_kept (current : Current outbound) (careful : Careful (outbound, act))
    {ended : PeerLink} (ends : outbound.endOf act = some ended)
    (up : outbound.conns.lookup addr = some link) (apart : link.serial ≠ ended.serial) :
    (outbound.step act).conns.lookup addr = some link ∧
      (outbound.step act).clients.activeAddr link.handle = outbound.clients.activeAddr link.handle ∧
      (outbound.step act).clients.stated link.handle = outbound.clients.stated link.handle := by
  obtain ⟨handle, at', loop, touches⟩ := touch_of_endOf ends
  have alike := step_alike outbound act
  rw [Careful, touches] at careful
  rw [touches, Outbound.touched, disconnect_receiving] at alike
  rw [alike.conns, alike.activeAddr, alike.stated]
  cases current.ends_cases careful with
  | newer newer newerUp its found unchanged =>
    rw [unchanged]
    exact ⟨up, rfl, rfl⟩
  | elsewhere there active elsewhere missed unchanged =>
    rw [unchanged.conns, unchanged.activeAddr, unchanged.stated]
    exact ⟨up, rfl, rfl⟩
  | unlinked none_up cleared =>
    have other := none_up addr link up
    rw [cleared.conns, cleared.activeAddr, cleared.stated]
    rw [activeAddr_cleared, stated_cleared, if_neg other, if_neg other]
    exact ⟨up, rfl, rfl⟩
  | taken own ownUp its found only cleared =>
    have elsewhere : addr ≠ at' := by
      rintro rfl
      cases up.symm.trans ownUp
      simp [newerAt, up, apart] at found
    have other := only addr link up elsewhere
    rw [cleared]
    rw [activeAddr_cleared, stated_cleared, if_neg other, if_neg other]
    exact ⟨(AList.lookup_erase_ne elsewhere).trans up, rfl, rfl⟩

/-! ## The links of a run -/

/-- Nothing is under way: every link that is read or pinged is the one in the table. -/
structure Quiet (outbound : Outbound Ip) : Prop where
  connecting : ∀ handle, outbound.connecting.lookup handle = none
  adopting : outbound.adopting = []
  receiving : ∀ entry ∈ outbound.receiving, outbound.conns.lookup entry.1 = some entry.2
  pinging : ∀ entry ∈ outbound.pinging, outbound.conns.lookup entry.1 = some entry.2
  sending : outbound.sending.length = 0
  closing : outbound.closing.length = 0

/--
While no step writes over the state of another link: a device's address is that
of its link in the table, which is the only one it has there; the device shows
exactly what was said on that link, and nothing once it has none and all is
quiet; and the end of a link leaves every other link and its device alone.
-/
theorem link_state_is_current (acts : List (Act Ip))
    (careful : ∀ taken ∈ trace step start acts, Careful taken) :
    let outbound := run acts
    (∀ handle addr, outbound.clients.activeAddr handle = some addr →
      ∃ link, outbound.conns.lookup addr = some link ∧ link.handle = handle) ∧
    (∀ addr other link another, outbound.conns.lookup addr = some link →
      outbound.conns.lookup other = some another → link.handle = another.handle → addr = other) ∧
    (∀ addr link, outbound.conns.lookup addr = some link →
      (outbound.clients.device link.handle).isSome →
      outbound.clients.stated link.handle = said outbound.heard link) ∧
    (Quiet outbound → ∀ handle,
      (∀ addr link, outbound.conns.lookup addr = some link → link.handle ≠ handle) →
      outbound.clients.stated handle = .blank) ∧
    (∀ act ended, Careful (outbound, act) → outbound.endOf act = some ended →
      ∀ addr link, outbound.conns.lookup addr = some link → link.serial ≠ ended.serial →
        (outbound.step act).conns.lookup addr = some link ∧
        (outbound.step act).clients.activeAddr link.handle =
          outbound.clients.activeAddr link.handle ∧
        (outbound.step act).clients.stated link.handle = outbound.clients.stated link.handle) := by
  intro outbound
  have current : Current outbound := run_current acts careful
  refine ⟨current.linked, current.single, current.said, ?_, ?_⟩
  · intro quiet handle unlinked
    by_contra shown
    obtain ⟨entry, member, its⟩ := current.left handle shown
    exact unlinked entry.1 entry.2 (quiet.receiving entry member) its
  · intro act ended now ends addr link up apart
    exact current.newer_kept now ends up apart

/-- A device is dialled, answers, loses that link, is renamed and is dialled in to. -/
def redialled : List (Act Nat) :=
  [.grant "ab", .add ⟨some "desk", [1], 4722, true, none⟩, .dial 0, .dialLands 0 ⟨1, 4722⟩ "ab",
    .dialRecords 0, .frame 0 (.capability 3), .peerCaps "ab" 3, .frame 0 (.pong true), .ends 0,
    .pingFails 0, .setHostname 0 (some "den"), .dialledIn "ab" ⟨2, 9000⟩ true, .adoptionChecks 0,
    .adoptionOpens 0, .adoptionRecords 0, .frame 0 (.pong true)]

theorem link_state_is_current_redialled :
    (∀ taken ∈ trace step start redialled, Careful taken) ∧
      (run redialled).clients.activeAddr 0 = some ⟨2, 9000⟩ ∧
      ∃ link, (run redialled).conns.lookup ⟨2, 9000⟩ = some link ∧ link.handle = 0 := by
  have careful : ∀ taken ∈ trace step start redialled, Careful taken := by
    decide
  have active : (run redialled).clients.activeAddr 0 = some ⟨2, 9000⟩ := by
    decide
  exact ⟨careful, active, (link_state_is_current redialled careful).1 0 _ active⟩

/-- A machine dials in again from another address before its first link ended. -/
def replaced : List (Act Nat) :=
  [.grant "ab", .add ⟨none, [], 4722, true, some "ab"⟩, .dialledIn "ab" ⟨1, 9000⟩ true,
    .adoptionChecks 0, .adoptionOpens 0, .adoptionRecords 0, .frame 0 (.capability 3),
    .frame 0 (.pong true), .dialledIn "ab" ⟨1, 9001⟩ true, .adoptionChecks 0, .adoptionOpens 0,
    .adoptionRecords 0, .ends 0, .pingFails 0]

/-- All is quiet, nothing was heard on the new link, and the device shows what the old one said. -/
theorem replaced_shows_earlier :
    let link : PeerLink := ⟨1, "ab", 0, true⟩
    Quiet (run replaced) ∧ (run replaced).conns.lookup ⟨1, 9001⟩ = some link ∧
      (run replaced).clients.activeAddr 0 = some ⟨1, 9001⟩ ∧
      said (run replaced).heard link = .blank ∧
      (run replaced).clients.stated 0 = ⟨true, true, some 3⟩ := by
  refine ⟨⟨?_, ?_, ?_, ?_, ?_, ?_⟩, ?_⟩
  · intro handle
    rfl
  all_goals decide

end Outbound

end HopsFormal.Links
