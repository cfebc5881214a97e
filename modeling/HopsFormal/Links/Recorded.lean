import HopsFormal.Links.Touches

/-!
# Every link was recorded

In every run, however its steps interleave: the links are numbered in the order
they are recorded, each one in the table is still being read, what was heard was
heard on a link that was recorded, and every device a link or an adoption names
is one there is or was.
-/

namespace HopsFormal.Links

open List Lib
open ClientManager (setPeerCaps isSome_update setAlive answeredPing setActiveAddr
  device_addWithConfig_of_ne)

namespace Outbound

variable {Ip : Type} [DecidableEq Ip]

structure Recorded (outbound : Outbound Ip) : Prop where
  numbered : ∀ index (entry : SocketAddr Ip × PeerLink),
    outbound.recorded[index]? = some entry → entry.2.serial = index
  received : ∀ entry ∈ outbound.receiving, entry ∈ outbound.recorded
  listed : ∀ addr link, outbound.conns.lookup addr = some link → (addr, link) ∈ outbound.receiving
  heard : ∀ said ∈ outbound.heard, ∃ entry ∈ outbound.recorded, entry.2 = said.1
  given : ∀ entry ∈ outbound.recorded, entry.2.handle < outbound.clients.next
  devices : ∀ handle, (outbound.clients.device handle).isSome → handle < outbound.clients.next
  answered : ∀ handle ∈ outbound.clients.answered, (outbound.clients.device handle).isSome

theorem recorded_start : Recorded (start : Outbound Ip) := by
  constructor <;> simp [start, ClientManager.empty, ClientManager.device]

variable {outbound : Outbound Ip} {clients : ClientManager Ip} {addr : SocketAddr Ip}
  {link : PeerLink} {handle : Nat}

theorem Alike.isSome {other : Outbound Ip} (alike : Alike outbound other) (handle : Nat) :
    (other.clients.device handle).isSome = (outbound.clients.device handle).isSome := by
  have shown := congrArg Option.isSome (alike.shown handle)
  simpa using shown

section

variable (recorded : Recorded outbound)
include recorded

theorem Recorded.congr {other : Outbound Ip} (alike : Alike outbound other) : Recorded other := by
  constructor
  · rw [alike.recorded]
    exact recorded.numbered
  · rw [alike.recorded, alike.receiving]
    exact recorded.received
  · intro addr link
    rw [alike.conns, alike.receiving]
    exact recorded.listed addr link
  · rw [alike.heard, alike.recorded]
    exact recorded.heard
  · rw [alike.recorded, alike.next]
    exact recorded.given
  · intro handle
    rw [alike.isSome, alike.next]
    exact recorded.devices handle
  · intro handle
    rw [alike.isSome, alike.answered]
    exact recorded.answered handle

/-- What changes devices in place, and the answers of devices there are. -/
theorem Recorded.withClients (next : clients.next = outbound.clients.next)
    (devices : ∀ handle, (clients.device handle).isSome = (outbound.clients.device handle).isSome)
    (answered : ∀ handle ∈ clients.answered, handle ∈ outbound.clients.answered ∨
      (outbound.clients.device handle).isSome) : Recorded { outbound with clients := clients } := by
  constructor
  · exact recorded.numbered
  · exact recorded.received
  · exact recorded.listed
  · exact recorded.heard
  · intro entry member
    have old := recorded.given entry member
    rwa [← next] at old
  · intro handle there
    rw [devices] at there
    have old := recorded.devices handle there
    rwa [← next] at old
  · intro handle said
    rw [devices]
    exact (answered handle said).elim (recorded.answered handle) id

theorem Recorded.withoutLink {conns : Table (SocketAddr Ip) PeerLink}
    (fewer : ∀ addr link, conns.lookup addr = some link → outbound.conns.lookup addr = some link) :
    Recorded { outbound with conns := conns } :=
  { recorded with listed := fun addr link up => recorded.listed addr link (fewer addr link up) }

theorem Recorded.clearLink (handle : Nat) (addr : SocketAddr Ip) :
    Recorded (outbound.clearLink handle addr) := by
  unfold Outbound.clearLink
  split
  · exact recorded
  · apply recorded.withClients
    · rfl
    · intro other
      rw [setPeerCaps, isSome_update, ClientManager.setPeerCommit,
        isSome_update, setAlive, isSome_update]
      exact isSome_update _ _ _ _
    · intro other said
      exact .inl (mem_filter.mp said).1

end

theorem clearLink_conns (outbound : Outbound Ip) (handle : Nat) (addr : SocketAddr Ip) :
    (outbound.clearLink handle addr).conns = outbound.conns := by
  unfold clearLink
  split <;> rfl

theorem Recorded.receive (recorded : Recorded outbound) (runs : (addr, link) ∈ outbound.receiving)
    (frame : Frame) : Recorded (outbound.receive addr link frame) := by
  have heard : Recorded { outbound with heard := (link, frame) :: outbound.heard } := by
    refine { recorded with heard := ?_ }
    intro said member
    rcases mem_cons.mp member with rfl | old
    · exact ⟨(addr, link), recorded.received _ runs, rfl⟩
    · exact recorded.heard said old
  cases frame with
  | pong enabled =>
    apply heard.withClients
    · rfl
    · intro other
      simp only [answeredPing, setAlive, isSome_update]
      exact isSome_update _ _ _ _
    · intro other said
      simp only [answeredPing, setAlive, ClientManager.update_answered] at said
      split at said
      · next there =>
        rcases mem_insert_iff.mp said with rfl | old
        · rw [setActiveAddr, isSome_update] at there
          exact .inr there
        · exact .inl old
      · exact .inl said
  | hello commit | capability flags =>
    apply heard.withClients
    · rfl
    · intro other
      exact isSome_update _ _ _ _
    · exact fun _ said => .inl said
  | other => exact heard

theorem Recorded.record (recorded : Recorded outbound) (known : handle < outbound.clients.next)
    (addr : SocketAddr Ip) (fp : String) (dialledIn : Bool) :
    Recorded (outbound.record handle addr fp dialledIn) := by
  constructor
  · intro index entry found
    rw [Outbound.record, getElem?_append] at found
    split at found
    · exact recorded.numbered index entry found
    · next past =>
      obtain ⟨bound, equal⟩ := List.getElem?_eq_some_iff.mp found
      rw [getElem_singleton] at equal
      rw [length_singleton] at bound
      subst equal
      dsimp only
      omega
  · intro entry member
    rcases mem_append.mp member with old | new
    · exact mem_append_left _ (recorded.received entry old)
    · exact mem_append_right _ new
  · intro other link up
    rw [lookup_record] at up
    split at up
    · next same =>
      cases up
      exact mem_append_right _ (by simp [same])
    · exact mem_append_left _ (recorded.listed other link up)
  · intro said member
    obtain ⟨entry, old, same⟩ := recorded.heard said member
    exact ⟨entry, mem_append_left _ old, same⟩
  · intro entry member
    rcases mem_append.mp member with old | new
    · exact recorded.given entry old
    · rw [mem_singleton.mp new]
      exact known
  · intro other there
    rw [Outbound.record, setActiveAddr, isSome_update] at there
    exact recorded.devices other there
  · intro other said
    rw [Outbound.record, setActiveAddr, isSome_update]
    exact recorded.answered other said

theorem Recorded.disconnect (recorded : Recorded outbound) (handle : Nat) (addr : SocketAddr Ip)
    (ended : Option PeerLink) : Recorded (outbound.disconnect handle addr ended) := by
  unfold Outbound.disconnect
  split
  · split
    · exact recorded
    · exact recorded.clearLink handle addr
  · apply Recorded.clearLink
    exact recorded.withoutLink fun _ _ up => (Table.lookup_of_erase up).2

theorem disconnect_conns {other : SocketAddr Ip} {ended : Option PeerLink}
    (up : (outbound.disconnect handle addr ended).conns.lookup other = some link) :
    outbound.conns.lookup other = some link ∧
      (other = addr → ∃ newer, outbound.newerAt addr ended = some newer) := by
  unfold disconnect at up
  split at up
  · next newer found =>
    refine ⟨?_, fun _ => ⟨newer, found⟩⟩
    split at up
    · exact up
    · rwa [clearLink_conns] at up
  · rw [clearLink_conns] at up
    obtain ⟨apart, before⟩ := Table.lookup_of_erase up
    exact ⟨before, fun same => absurd same apart⟩

theorem disconnect_receiving (outbound : Outbound Ip)
    (receiving : List (SocketAddr Ip × PeerLink)) (handle : Nat) (addr : SocketAddr Ip)
    (ended : Option PeerLink) :
    { outbound with receiving := receiving }.disconnect handle addr ended =
      { outbound.disconnect handle addr ended with receiving := receiving } := by
  have newer : { outbound with receiving := receiving }.newerAt addr ended =
      outbound.newerAt addr ended := rfl
  unfold disconnect
  rw [newer]
  split
  · split
    · rfl
    · unfold clearLink
      split <;> rfl
  · unfold clearLink
    split <;> rfl

theorem disconnect_recorded (outbound : Outbound Ip) (handle : Nat) (addr : SocketAddr Ip)
    (ended : Option PeerLink) :
    (outbound.disconnect handle addr ended).recorded = outbound.recorded := by
  unfold disconnect clearLink
  split
  · split
    · rfl
    · split <;> rfl
  · split <;> rfl

theorem Recorded.ends (recorded : Recorded outbound) {index : Nat}
    (found : outbound.receiving[index]? = some (addr, link)) :
    Recorded ({ outbound with receiving := outbound.receiving.eraseIdx index }.disconnect
      link.handle addr (some link)) := by
  have ended := recorded.disconnect link.handle addr (some link)
  rw [disconnect_receiving]
  refine { ended with received := ?_, listed := ?_ }
  · intro entry member
    rw [disconnect_recorded]
    exact recorded.received entry (mem_of_mem_eraseIdx member)
  · intro other up listed
    obtain ⟨before, newer⟩ := disconnect_conns listed
    rcases eq_or_mem_eraseIdx found (recorded.listed other up before) with same | left
    · obtain ⟨rfl, rfl⟩ := Prod.mk.inj same
      obtain ⟨handle, newer⟩ := newer rfl
      simp [newerAt, before] at newer
    · exact left

theorem Recorded.adds (recorded : Recorded outbound) (config : ConfigClient Ip) :
    Recorded { outbound with clients := outbound.clients.addWithConfig config } := by
  refine { recorded with given := ?_, devices := ?_, answered := ?_ }
  · intro entry member
    exact Nat.lt_succ_of_lt (recorded.given entry member)
  · intro handle there
    by_cases new : handle = outbound.clients.next
    · exact new ▸ Nat.lt_succ_self _
    · rw [device_addWithConfig_of_ne _ _ new] at there
      exact Nat.lt_succ_of_lt (recorded.devices handle there)
  · intro handle said
    have there := recorded.answered handle said
    have older := recorded.devices handle there
    rwa [device_addWithConfig_of_ne _ _ (by omega)]

theorem Recorded.removes (recorded : Recorded outbound) (handle : Nat) :
    Recorded { outbound with clients := outbound.clients.removeClient handle } := by
  refine { recorded with devices := ?_, answered := ?_ }
  · intro other there
    rw [ClientManager.device_removeClient] at there
    split at there
    · cases there
    · exact recorded.devices other there
  · intro other said
    obtain ⟨old, apart⟩ := mem_filter.mp said
    rw [ClientManager.device_removeClient, if_neg (by simpa using apart)]
    exact recorded.answered other old

/-- The device a recorded link is for was given a handle. -/
def known (outbound : Outbound Ip) : Touch Ip → Prop
  | .records handle _ _ _ => handle < outbound.clients.next
  | .hears addr link _ => (addr, link) ∈ outbound.receiving
  | .ends handle addr ended (some index) =>
    ∃ link, ended = some link ∧ handle = link.handle ∧
      outbound.receiving[index]? = some (addr, link)
  | _ => True

theorem Recorded.touched (recorded : Recorded outbound) {touch : Touch Ip}
    (known : outbound.known touch) : Recorded (outbound.touched touch) := by
  cases touch with
  | none => exact recorded
  | adds config => exact recorded.adds config
  | removes handle => exact recorded.removes handle
  | renames handle hostname | ports handle port =>
    exact recorded.withClients rfl (fun other => isSome_update _ _ other _)
      fun _ said => .inl said
  | records handle addr fingerprint dialledIn =>
    have fewer : Recorded (outbound.withoutLink handle) := by
      unfold Outbound.withoutLink
      split
      · exact recorded.withoutLink fun _ _ up => (Table.lookup_of_erase up).2
      · exact recorded
    apply fewer.record
    rw [withoutLink_clients]
    exact known
  | hears addr link frame => exact recorded.receive known frame
  | states fingerprint flags =>
    exact foldlRecOn (motive := fun clients => Recorded { outbound with clients := clients })
      _ _ recorded fun clients kept handle _ =>
        kept.withClients rfl (fun other => isSome_update _ _ other _) fun _ said => .inl said
  | ends handle addr ended loop =>
    cases loop with
    | none => exact recorded.disconnect handle addr ended
    | some index =>
      obtain ⟨link, rfl, rfl, found⟩ := known
      exact recorded.ends found
  | drops addr => exact recorded.withoutLink fun _ _ up => (Table.lookup_of_erase up).2

/-! ## The devices of adoptions -/

theorem targets_isSome (targets : clients.targets handle addr = true) :
    (clients.device handle).isSome := by
  rw [ClientManager.targets] at targets
  cases found : clients.device handle with
  | none =>
    rw [found] at targets
    cases targets
  | some device => rfl

theorem claimForDialIn_isSome {after : ClientManager Ip} {fp : String}
    (claimed : clients.claimForDialIn fp = some (handle, after)) :
    (clients.device handle).isSome ∧ after.next = clients.next := by
  rcases ClientManager.claimForDialIn_cases claimed with
    ⟨first, rfl⟩ | ⟨pins, _, _, _, _, _, targets⟩
  · obtain ⟨device, found, -⟩ := Table.mem_keysWhere.mp (List.min?_mem first)
    exact ⟨by rw [ClientManager.device, found]; rfl, rfl⟩
  · exact ⟨targets_isSome targets, (shown_pin pins).1⟩

variable (outbound)

theorem recordDial_adopting (handle : Nat) (addr : SocketAddr Ip) (fp : String)
    (greeted : Option Commit) :
    (outbound.recordDial handle addr fp greeted).adopting = outbound.adopting := by
  unfold recordDial
  split
  · rfl
  split
  · rfl
  split
  · rfl
  split
  · rfl
  · dsimp only
    split
    · rfl
    · cases greeted <;> rfl

theorem close_adopting (closing : Closing Ip) :
    (outbound.close closing).adopting = outbound.adopting := by
  cases closing with
  | fingerprint fingerprint | device handle pin | remove addr => rfl
  | addr addr =>
    simp only [close]
    split <;> rfl
  | disconnect handle addr => exact (disconnect_aside outbound handle addr none).adopting

theorem step_adopting (act : Act Ip) : ∀ adoption ∈ (outbound.step act).adopting,
      (∃ old ∈ outbound.adopting, old.handle = adoption.handle) ∨
        (∃ fingerprint addr edgeFree, act = .dialledIn fingerprint addr edgeFree) := by
  have kept {other : Outbound Ip} (same : other.adopting = outbound.adopting) :
      ∀ adoption ∈ other.adopting, (∃ old ∈ outbound.adopting, old.handle = adoption.handle) ∨
        (∃ fingerprint addr edgeFree, act = .dialledIn fingerprint addr edgeFree) := by
    intro adoption member
    rw [same] at member
    exact .inl ⟨adoption, member, rfl⟩
  have fewer {index : Nat} {adopting : List (Adoption Ip)}
      (same : adopting = outbound.adopting.eraseIdx index) :
      ∀ adoption ∈ adopting, (∃ old ∈ outbound.adopting, old.handle = adoption.handle) ∨
        (∃ fingerprint addr edgeFree, act = .dialledIn fingerprint addr edgeFree) := by
    intro adoption member
    rw [same] at member
    exact .inl ⟨adoption, mem_of_mem_eraseIdx member, rfl⟩
  have moved {index : Nat} {before after : Adoption Ip}
      (found : outbound.adopting[index]? = some before) (same : before.handle = after.handle) :
      ∀ adoption ∈ outbound.adopting.set index after,
        (∃ old ∈ outbound.adopting, old.handle = adoption.handle) ∨
        (∃ fingerprint addr edgeFree, act = .dialledIn fingerprint addr edgeFree) := by
    intro adoption member
    rcases mem_or_eq_of_mem_set member with old | rfl
    · exact .inl ⟨adoption, old, rfl⟩
    · exact .inl ⟨before, mem_of_getElem? found, same⟩
  cases act with
  | dialledIn fingerprint addr edgeFree => exact fun _ _ => .inr ⟨fingerprint, addr, edgeFree, rfl⟩
  | pin handle fingerprint | dialLands handle addr fingerprint =>
    simp only [step]
    split
    · split <;> exact kept rfl
    · exact kept rfl
  | dropPins fingerprint | dialPairs handle commit | dialFails handle read =>
    simp only [step]
    split <;> exact kept rfl
  | dial handle =>
    simp only [step]
    split
    · exact kept rfl
    · split <;> exact kept rfl
  | dialMeets handle addr fingerprint =>
    simp only [step]
    split
    · split
      · split <;> exact kept rfl
      · exact kept rfl
    · exact kept rfl
  | dialRecords handle =>
    simp only [step]
    split
    · exact kept (recordDial_adopting _ _ _ _ _)
    · exact kept rfl
  | adoptionChecks index =>
    simp only [step]
    split
    · next adoption found =>
      split
      · dsimp only
        split
        · exact moved found rfl
        · exact fewer rfl
      · exact kept rfl
    · exact kept rfl
  | adoptionOpens index =>
    simp only [step]
    split
    · next adoption found =>
      split
      · exact moved found rfl
      · exact kept rfl
    · exact kept rfl
  | adoptionFails index => exact fewer rfl
  | adoptionRecords index =>
    simp only [step]
    split
    · split
      · exact fewer (recordAdoption_aside _ _ _ _).adopting
      · exact kept rfl
    · exact kept rfl
  | frame index frame =>
    simp only [step]
    split
    · exact kept (receive_aside _ _ _ _).adopting
    · exact kept rfl
  | ends index | pingFails index =>
    simp only [step]
    split
    · exact kept (disconnect_aside _ _ _ _).adopting
    · exact kept rfl
  | send handle =>
    simp only [step]
    split
    · exact kept (startSending_aside _ _ _ _).adopting
    · exact kept rfl
  | sendTo handle addr letsGo => exact kept (startSending_aside _ _ _ _).adopting
  | sends index written =>
    simp only [step]
    split
    · split
      · exact kept rfl
      · exact kept (disconnect_aside _ _ _ _).adopting
    · exact kept rfl
  | closes index =>
    simp only [step]
    split
    · exact kept (close_adopting _ _)
    · exact kept rfl
  | _ => exact kept rfl

variable {outbound}

/-! ## Every step -/

/-- Every adoption under way is for a device there is or was. -/
def Asked (outbound : Outbound Ip) : Prop :=
  ∀ adoption ∈ outbound.adopting, adoption.handle < outbound.clients.next

theorem touch_known (recorded : Recorded outbound) (asked : Asked outbound) (act : Act Ip) :
    outbound.known (outbound.touch act) := by
  cases act with
  | dialRecords handle =>
    simp only [touch]
    split
    · split
      · next taken =>
        simp only [takesDial, Bool.and_eq_true] at taken
        exact recorded.devices handle (targets_isSome taken.1.1.1.1)
      · trivial
    · trivial
  | dialledIn fingerprint addr edgeFree =>
    simp only [touch]
    split
    · split <;> trivial
    · trivial
  | adoptionRecords index =>
    simp only [touch]
    split
    · next adoption found =>
      split
      · exact asked adoption (mem_of_getElem? found)
      · trivial
    · trivial
  | frame index frame =>
    simp only [touch]
    split
    · next addr link found => exact mem_of_getElem? found
    · trivial
  | ends index =>
    simp only [touch]
    split
    · next addr link found => exact ⟨link, rfl, rfl, found⟩
    · trivial
  | pingFails index | closes index =>
    simp only [touch]
    split <;> trivial
  | sends index written =>
    cases written with
    | true => trivial
    | false =>
      simp only [touch]
      split <;> trivial
  | _ => trivial

theorem Recorded.step (recorded : Recorded outbound) (asked : Asked outbound) (act : Act Ip) :
    Recorded (outbound.step act) :=
  (recorded.touched (touch_known recorded asked act)).congr (step_alike outbound act)

theorem next_le_touched (outbound : Outbound Ip) (touch : Touch Ip) :
    outbound.clients.next ≤ (outbound.touched touch).clients.next := by
  have cleared (outbound : Outbound Ip) (handle : Nat) (addr : SocketAddr Ip) :
      (outbound.clearLink handle addr).clients.next = outbound.clients.next := by
    unfold clearLink
    split <;> rfl
  cases touch with
  | adds config => exact Nat.le_succ _
  | records handle addr fingerprint dialledIn =>
    have same : ((outbound.withoutLink handle).record handle addr fingerprint
        dialledIn).clients.next = (outbound.withoutLink handle).clients.next := rfl
    rw [touched, same, withoutLink_clients]
  | hears addr link frame =>
    cases frame <;> exact Nat.le_refl _
  | states fingerprint flags =>
    exact foldlRecOn (motive := fun clients : ClientManager Ip =>
      outbound.clients.next ≤ clients.next) _ _ (Nat.le_refl _) fun _ kept _ _ => kept
  | ends handle addr ended loop =>
    simp only [touched, disconnect]
    split
    · split
      · exact Nat.le_refl _
      · rw [cleared]
    · rw [cleared]
  | _ => exact Nat.le_refl _

theorem Asked.step (asked : Asked outbound) (recorded : Recorded outbound) (act : Act Ip) :
    Asked (outbound.step act) := by
  have later : outbound.clients.next ≤ (outbound.step act).clients.next := by
    rw [(step_alike outbound act).next]
    exact next_le_touched _ _
  intro adoption member
  rcases step_adopting outbound act adoption member with
    ⟨old, before, same⟩ | ⟨fingerprint, addr, edgeFree, rfl⟩
  · have given := asked old before
    omega
  · simp only [Outbound.step] at member later ⊢
    split at member
    · next certified =>
      rw [if_pos certified] at later ⊢
      unfold handleDialledIn at member later ⊢
      split at member
      · next handle clients claimed =>
        rw [claimed] at later
        obtain ⟨there, next⟩ := claimForDialIn_isSome claimed
        rcases mem_append.mp member with old | new
        · exact Nat.lt_of_lt_of_le (asked adoption old) later
        · rw [mem_singleton.mp new]
          exact Nat.lt_of_lt_of_le (recorded.devices handle there) later
      · next unclaimed =>
        rw [unclaimed] at later
        rcases mem_append.mp member with old | new
        · exact Nat.lt_of_lt_of_le (asked adoption old) later
        · rw [mem_singleton.mp new]
          exact Nat.lt_succ_self _
    · next uncertified =>
      rw [if_neg uncertified]
      exact asked adoption member

theorem run_recorded (acts : List (Act Ip)) : Recorded (run acts) ∧ Asked (run acts) := by
  induction acts using reverseRecOn with
  | nil => exact ⟨recorded_start, fun _ member => nomatch member⟩
  | append_singleton acts act ih =>
    rw [run, foldl_append]
    exact ⟨ih.1.step ih.2 act, ih.2.step ih.1 act⟩

end Outbound

end HopsFormal.Links
