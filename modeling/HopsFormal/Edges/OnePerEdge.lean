import HopsFormal.Edges.Service

/-!
# One device for each edge

Whatever is asked of the service, at most one device that is switched on uses
an edge of the screen, and once the edges are settled the captures asked for
are those of the devices that want an edge, where they are.  The devices are
looked at one handle at a time: each operation is described by what it does to
the device of every handle.
-/

namespace HopsFormal.Edges

open Capture (Position)
open List Lib ClientManager AList

variable {Ip : Type}

namespace ClientManager

/-! ## What each operation does to a device -/

theorem device_update (clients : ClientManager Ip) (handle other : Nat)
    (change : Device Ip → Device Ip) :
    (clients.update handle change).device other =
      if other = handle then (clients.device other).map change else clients.device other :=
  clients.entries.lookup_modify handle other change

theorem device_add (clients : ClientManager Ip) (device : Device Ip) (other : Nat) :
    (clients.add device).2.device other =
      if other = clients.next then some device else clients.device other := by
  split
  · next same =>
    subst same
    exact lookup_insert _
  · next apart => exact lookup_insert_ne apart

theorem device_removeClient (clients : ClientManager Ip) (handle other : Nat) :
    (clients.removeClient handle).device other =
      if other = handle then none else clients.device other := by
  split
  · next same =>
    subst same
    exact lookup_erase _ _
  · next apart => exact lookup_erase_ne apart

variable {clients : ClientManager Ip} {handle : Nat} {pos : Position}

/-- A change that is not made because it would change nothing. -/
theorem device_unless {change : Device Ip → Device Ip}
    (idle : ∀ device, clients.device handle = some device → change device = device) (other : Nat) :
    clients.device other =
      if other = handle then (clients.device other).map change else clients.device other := by
  split
  · next same =>
    subst same
    cases found : clients.device other with
    | none => rfl
    | some device => rw [Option.map_some, idle device found]
  · rfl

variable (clients)

theorem device_activateClient (handle other : Nat) :
    (clients.activateClient handle).2.device other =
      if other = handle then
        (clients.device other).map fun device => { device with active := true }
      else clients.device other := by
  unfold activateClient
  split
  · exact device_update clients handle other _
  · next off =>
    refine device_unless (fun device found => ?_) other
    have on : device.active = true := by simpa [found] using off
    rw [← on]

theorem device_deactivateClient (handle other : Nat) :
    (clients.deactivateClient handle).2.device other =
      if other = handle then
        (clients.device other).map fun device => { device with active := false }
      else clients.device other := by
  unfold deactivateClient
  split
  · exact device_update clients handle other _
  · next on =>
    refine device_unless (fun device found => ?_) other
    have off : device.active = false := by simpa [isOn, found] using on
    rw [← off]

theorem device_setPos (handle : Nat) (pos : Position) (other : Nat) :
    (clients.setPos handle pos).2.device other =
      if other = handle then (clients.device other).map fun device => { device with pos := pos }
      else clients.device other := by
  unfold setPos
  split
  · exact device_update clients handle other _
  · next there =>
    refine device_unless (fun device found => ?_) other
    have same : device.pos = pos := by simpa [found] using there
    rw [← same]

variable {clients}

/-! ## Where a device is switched on -/

/-- The edge of a device that is switched on. -/
def onAt (clients : ClientManager Ip) (handle : Nat) : Option Position :=
  (clients.device handle).bind fun device => if device.active then some device.pos else none

theorem onAt_eq_some : clients.onAt handle = some pos ↔
      ∃ device, clients.device handle = some device ∧ device.active = true ∧ device.pos = pos := by
  rw [onAt, Option.bind_eq_some_iff]
  constructor
  · rintro ⟨device, found, on⟩
    split at on
    · next active => exact ⟨device, found, active, Option.some.inj on⟩
    · cases on
  · rintro ⟨device, found, active, rfl⟩
    exact ⟨device, found, if_pos active⟩

theorem mem_handlesWhere {test : Device Ip → Bool} : handle ∈ clients.handlesWhere test ↔
      ∃ device, clients.device handle = some device ∧ test device = true := by
  rw [handlesWhere, mem_insertionSort]
  exact Table.mem_keysWhere

theorem mem_activeClients :
    handle ∈ clients.activeClients ↔ ∃ pos, clients.onAt handle = some pos := by
  rw [activeClients, mem_handlesWhere]
  constructor
  · rintro ⟨device, found, active⟩
    exact ⟨device.pos, onAt_eq_some.mpr ⟨device, found, active, rfl⟩⟩
  · rintro ⟨pos, on⟩
    obtain ⟨device, found, active, -⟩ := onAt_eq_some.mp on
    exact ⟨device, found, active⟩

theorem onAt_of_clientAt (first : clients.clientAt pos = some handle) :
    clients.onAt handle = some pos := by
  obtain ⟨device, found, test⟩ := mem_handlesWhere.mp (mem_of_head? first)
  rw [Bool.and_eq_true, decide_eq_true_eq] at test
  exact onAt_eq_some.mpr ⟨device, found, test.1, test.2⟩

theorem free_of_clientAt (nobody : clients.clientAt pos = none) (handle : Nat) :
    clients.onAt handle ≠ some pos := by
  intro on
  obtain ⟨device, found, active, there⟩ := onAt_eq_some.mp on
  have listed : handle ∈ clients.handlesWhere fun device => device.active && device.pos = pos :=
    mem_handlesWhere.mpr ⟨device, found, by simp [active, there]⟩
  rw [head?_eq_none_iff.mp nobody] at listed
  cases listed

/-- At most one device that is switched on is at an edge. -/
def Apart (clients : ClientManager Ip) : Prop :=
  ∀ handle other pos, clients.onAt handle = some pos → clients.onAt other = some pos →
    handle = other

theorem onAt_congr {first second : ClientManager Ip}
    (same : first.device handle = second.device handle) :
    first.onAt handle = second.onAt handle := by
  rw [onAt, same, onAt]

/-- Whoever is on was on before, at the same edge. -/
theorem Apart.of_fewer {before after : ClientManager Ip} (apart : Apart before)
    (fewer : ∀ handle pos, after.onAt handle = some pos → before.onAt handle = some pos) :
    Apart after :=
  fun handle other pos one two =>
    apart handle other pos (fewer handle pos one) (fewer other pos two)

theorem onAt_deactivateClient {other : Nat}
    (on : (clients.deactivateClient handle).2.onAt other = some pos) :
    other ≠ handle ∧ clients.onAt other = some pos := by
  obtain ⟨device, found, active, there⟩ := onAt_eq_some.mp on
  rw [device_deactivateClient] at found
  split at found
  · obtain ⟨old, -, rfl⟩ := Option.map_eq_some_iff.mp found
    cases active
  · next elsewhere =>
    exact ⟨elsewhere, onAt_eq_some.mpr ⟨device, found, active, there⟩⟩

theorem Apart.deactivateClient (apart : Apart clients) (handle : Nat) :
    Apart (clients.deactivateClient handle).2 :=
  apart.of_fewer fun _ _ on => (onAt_deactivateClient on).2

theorem Apart.removeClient (apart : Apart clients) (handle : Nat) :
    Apart (clients.removeClient handle) := by
  refine apart.of_fewer fun other pos on => ?_
  obtain ⟨device, found, active, there⟩ := onAt_eq_some.mp on
  rw [device_removeClient] at found
  split at found
  · cases found
  · exact onAt_eq_some.mpr ⟨device, found, active, there⟩

/-- Whatever was done to a device, it is not in the way once it is switched off. -/
theorem Apart.elsewhere {before after : ClientManager Ip} (apart : Apart before)
    (same : ∀ other, other ≠ handle → after.device other = before.device other) :
    Apart (after.deactivateClient handle).2 := by
  refine apart.of_fewer fun other pos on => ?_
  obtain ⟨elsewhere, there⟩ := onAt_deactivateClient on
  rw [← there]
  exact (onAt_congr (same other elsewhere)).symm

/-- A device that is off is not in the way. -/
theorem Apart.add (apart : Apart clients) {device : Device Ip} (off : device.active = false) :
    Apart (clients.add device).2 := by
  refine apart.of_fewer fun other pos on => ?_
  obtain ⟨found, there, active, same⟩ := onAt_eq_some.mp on
  rw [device_add] at there
  split at there
  · cases there
    rw [off] at active
    cases active
  · exact onAt_eq_some.mpr ⟨found, there, active, same⟩

/-- A change that keeps the switch of the devices and the place of those that are on. -/
theorem Apart.update (apart : Apart clients) (handle : Nat) {change : Device Ip → Device Ip}
    (switch : ∀ device, (change device).active = device.active)
    (place : ∀ device, clients.device handle = some device → device.active = true →
      (change device).pos = device.pos) : Apart (clients.update handle change) := by
  refine apart.of_fewer fun other pos on => ?_
  obtain ⟨device, found, active, there⟩ := onAt_eq_some.mp on
  rw [device_update] at found
  split at found
  · next same =>
    subst same
    obtain ⟨old, before, rfl⟩ := Option.map_eq_some_iff.mp found
    rw [switch] at active
    rw [place old before active] at there
    exact onAt_eq_some.mpr ⟨old, before, active, there⟩
  · exact onAt_eq_some.mpr ⟨device, found, active, there⟩

/-- A device that stays where it is, or is off, moves past nobody. -/
theorem Apart.setPos {clients : ClientManager Ip} (apart : Apart clients) {handle : Nat}
    {pos : Position} (idle : (clients.setPos handle pos).1 = false) :
    Apart (clients.setPos handle pos).2 := by
  unfold ClientManager.setPos at idle ⊢
  split at idle
  · next moves =>
    rw [if_pos moves]
    refine apart.update handle (fun _ => rfl) fun device found active => ?_
    rw [isOn, found, Option.any_some, active] at idle
    cases idle
  · next stays =>
    rw [if_neg stays]
    exact apart

theorem onAt_activateClient {other : Nat}
    (on : (clients.activateClient handle).2.onAt other = some pos) :
    (other = handle ∧ clients.getPos handle = some pos) ∨ clients.onAt other = some pos := by
  obtain ⟨device, found, active, there⟩ := onAt_eq_some.mp on
  rw [device_activateClient] at found
  split at found
  · next same =>
    subst same
    obtain ⟨old, before, rfl⟩ := Option.map_eq_some_iff.mp found
    refine .inl ⟨rfl, ?_⟩
    rw [getPos, before, ← there]
    rfl
  · exact .inr (onAt_eq_some.mpr ⟨device, found, active, there⟩)

/-- Switching a device on at an edge nobody else uses. -/
theorem Apart.activateClient (apart : Apart clients)
    (free : ∀ pos, clients.getPos handle = some pos → ∀ other,
      clients.onAt other = some pos → other = handle) :
    Apart (clients.activateClient handle).2 := by
  intro first second pos one two
  rcases onAt_activateClient one with ⟨rfl, there⟩ | on
  · rcases onAt_activateClient two with ⟨rfl, -⟩ | other
    · rfl
    · exact (free pos there second other).symm
  · rcases onAt_activateClient two with ⟨rfl, there⟩ | other
    · exact free pos there first on
    · exact apart first second pos on other

end ClientManager

namespace Service

open ClientManager (Apart)

/-! ## The captures follow the edges -/

/-- The captures asked for are the edges the service believes in. -/
structure Mirrored (service : Service Ip) : Prop where
  captured : ∀ handle pos, (handle, pos) ∈ service.captures ↔
    service.edges.lookup handle = some (some pos)
  nodup : service.captures.Nodup

@[simp] theorem clients_dropEdge (service : Service Ip) (handle : Nat) :
    (service.dropEdge handle).clients = service.clients := by
  unfold dropEdge
  split <;> rfl

@[simp] theorem edges_dropEdge (service : Service Ip) (handle : Nat) :
    (service.dropEdge handle).edges = service.edges.erase handle := by
  unfold dropEdge
  split <;> rfl

variable {service : Service Ip} {handle : Nat} {clients : ClientManager Ip} {pos : Position}
  {device : Device Ip}

section

variable (mirrored : Mirrored service)
include mirrored

theorem Mirrored.withClients (clients : ClientManager Ip) :
    Mirrored { service with clients := clients } :=
  ⟨mirrored.captured, mirrored.nodup⟩

theorem Mirrored.dropEdge (handle : Nat) : Mirrored (service.dropEdge handle) := by
  have erased : ∀ other pos, (service.edges.erase handle).lookup other = some (some pos) ↔
      service.edges.lookup other = some (some pos) ∧ other ≠ handle := by
    intro other pos
    by_cases same : other = handle
    · subst same
      simp
    · rw [lookup_erase_ne same]
      simp [same]
  unfold Service.dropEdge
  split
  · refine ⟨fun other pos => ?_, mirrored.nodup.filter _⟩
    refine Iff.trans ?_ (erased other pos).symm
    rw [← mirrored.captured]
    simp [destroy]
  · next none_held =>
    refine ⟨fun other pos => ?_, mirrored.nodup⟩
    refine Iff.trans ?_ (erased other pos).symm
    rw [← mirrored.captured]
    refine ⟨fun held => ⟨held, ?_⟩, And.left⟩
    rintro rfl
    exact none_held pos ((mirrored.captured other pos).mp held)

theorem Mirrored.create (vacant : service.edges.lookup handle = none) (pos : Position) :
    Mirrored { service.create handle pos with
      edges := service.edges.insert handle (some pos) } := by
  constructor
  · intro other place
    simp only [Service.create, mem_append, mem_singleton, Prod.mk.injEq]
    by_cases same : other = handle
    · subst same
      rw [lookup_insert, mirrored.captured, vacant]
      simp [eq_comm]
    · rw [lookup_insert_ne same, mirrored.captured]
      simp [same]
  · refine mirrored.nodup.append (nodup_singleton _) ?_
    rw [disjoint_singleton]
    intro held
    rw [mirrored.captured, vacant] at held
    cases held

theorem Mirrored.unwanted (vacant : service.edges.lookup handle = none) :
    Mirrored { service with edges := service.edges.insert handle none } := by
  refine ⟨fun other place => ?_, mirrored.nodup⟩
  by_cases same : other = handle
  · subst same
    rw [lookup_insert, mirrored.captured, vacant]
    simp
  · rw [lookup_insert_ne same, mirrored.captured]

/-! ## Settling -/

end

theorem clients_settleEdge (service : Service Ip) (handle : Nat)
    (settled : Option (Option Position)) :
    (service.settleEdge handle settled).clients = service.clients := by
  unfold settleEdge
  split
  · rfl
  · cases settled with
    | none => exact clients_dropEdge service handle
    | some edge =>
      cases edge with
      | none | some pos => exact clients_dropEdge service handle

theorem edges_settleEdge (service : Service Ip) (handle : Nat)
    (settled : Option (Option Position)) (other : Nat) :
    (service.settleEdge handle settled).edges.lookup other =
      if other = handle then settled else service.edges.lookup other := by
  unfold settleEdge
  split
  · next held =>
    split
    · next same => rw [same, held]
    · rfl
  · by_cases same : other = handle
    · subst same
      rw [if_pos rfl]
      cases settled with
      | none => exact (congrArg _ (edges_dropEdge service other)).trans (lookup_erase _ _)
      | some edge =>
        cases edge with
        | none | some pos => exact lookup_insert _
    · rw [if_neg same]
      have dropped : (service.dropEdge handle).edges.lookup other = service.edges.lookup other := by
        rw [edges_dropEdge, lookup_erase_ne same]
      cases settled with
      | none => exact dropped
      | some edge =>
        cases edge with
        | none | some pos => exact (lookup_insert_ne same).trans dropped

theorem Mirrored.settleEdge (mirrored : Mirrored service) (handle : Nat)
    (settled : Option (Option Position)) : Mirrored (service.settleEdge handle settled) := by
  have dropped := mirrored.dropEdge handle
  have vacant : (service.dropEdge handle).edges.lookup handle = none := by
    rw [edges_dropEdge, lookup_erase]
  unfold Service.settleEdge
  split
  · exact mirrored
  · cases settled with
    | none => exact dropped
    | some edge =>
      cases edge with
      | none => exact dropped.unwanted vacant
      | some pos => exact dropped.create vacant pos

theorem settled_congr {first second : Service Ip} (same : first.clients = second.clients)
    (known : Known) (handle : Nat) : first.settled known handle = second.settled known handle := by
  rw [settled, settled, same]

theorem foldl_settleEdge (known : Known) (handles : List Nat) (mirrored : Mirrored service) :
    let after := handles.foldl
      (fun service handle => service.settleEdge handle (service.settled known handle)) service
    after.clients = service.clients ∧ Mirrored after ∧
      ∀ handle, after.edges.lookup handle =
        if handle ∈ handles then service.settled known handle
        else service.edges.lookup handle := by
  induction handles generalizing service with
  | nil => exact ⟨rfl, mirrored, fun _ => rfl⟩
  | cons first rest ih =>
    have same := clients_settleEdge service first (service.settled known first)
    obtain ⟨clients, kept, edges⟩ :=
      ih (mirrored.settleEdge first (service.settled known first))
    refine ⟨clients.trans same, kept, fun handle => ?_⟩
    rw [foldl_cons, edges, settled_congr same, edges_settleEdge]
    by_cases later : handle ∈ rest
    · simp [later]
    · by_cases here : handle = first
      · simp [here]
      · simp [later, here]

theorem settled_eq {known : Known} : service.settled known handle =
      (service.clients.onAt handle).map fun pos =>
        if known.wantsEdge handle then some pos else none := by
  unfold settled onAt getPos isOn
  cases service.clients.device handle with
  | none => rfl
  | some device =>
    cases active : device.active with
    | true => simp [active, Option.filter]
    | false => simp [active]

/-- Settled, the captures are those of the devices that want an edge, where they are. -/
structure Settled (service : Service Ip) (known : Known) : Prop where
  mirrored : Mirrored service
  edges : ∀ handle, service.edges.lookup handle = service.settled known handle

theorem clients_settleEdges (mirrored : Mirrored service) (known : Known) :
    (service.settleEdges known).clients = service.clients :=
  (foldl_settleEdge known _ mirrored).1

theorem Mirrored.settleEdges (mirrored : Mirrored service) (known : Known) :
    Settled (service.settleEdges known) known := by
  obtain ⟨clients, kept, edges⟩ := foldl_settleEdge known
    ((service.clients.activeClients ++ service.edges.keys).insertionSort (· ≤ ·)).dedup mirrored
  refine ⟨kept, fun handle => ?_⟩
  refine (edges handle).trans ?_
  rw [settled_congr (clients_settleEdges mirrored known)]
  split
  · rfl
  · next spared =>
    rw [mem_dedup, mem_insertionSort, mem_append, not_or] at spared
    have vacant : service.edges.lookup handle = none :=
      lookup_eq_none.mpr fun held => spared.2 (mem_keys.mp held)
    rw [vacant, settled_eq]
    cases on : service.clients.onAt handle with
    | none => rfl
    | some pos => exact absurd (mem_activeClients.mpr ⟨pos, on⟩) spared.1

theorem Settled.captured {known : Known} (settled : Settled service known) (handle : Nat)
    (pos : Position) : (handle, pos) ∈ service.captures ↔
      service.clients.onAt handle = some pos ∧ known.wantsEdge handle = true := by
  rw [settled.mirrored.captured, settled.edges, settled_eq]
  cases service.clients.onAt handle with
  | none => simp
  | some place =>
    cases known.wantsEdge handle with
    | true | false => simp

/-! ## What is asked of the service -/

/-- At most one device for each edge, and no capture the service does not know of. -/
structure Orderly (service : Service Ip) : Prop where
  apart : Apart service.clients
  mirrored : Mirrored service

theorem Orderly.withClients (orderly : Orderly service) (apart : Apart clients) :
    Orderly { service with clients := clients } :=
  ⟨apart, orderly.mirrored.withClients clients⟩

theorem Orderly.dropEdge (orderly : Orderly service) (handle : Nat) :
    Orderly (service.dropEdge handle) := by
  refine ⟨?_, orderly.mirrored.dropEdge handle⟩
  rw [clients_dropEdge]
  exact orderly.apart

theorem clients_deactivateClient (service : Service Ip) (handle : Nat) :
    (service.deactivateClient handle).clients = (service.clients.deactivateClient handle).2 := by
  unfold deactivateClient
  generalize service.clients.deactivateClient handle = decided
  obtain ⟨was, clients⟩ := decided
  cases was with
  | true => exact clients_dropEdge _ handle
  | false => rfl

theorem Mirrored.deactivateClient (mirrored : Mirrored service) (handle : Nat) :
    Mirrored (service.deactivateClient handle) := by
  unfold Service.deactivateClient
  generalize service.clients.deactivateClient handle = decided
  obtain ⟨was, clients⟩ := decided
  cases was with
  | true => exact (mirrored.withClients clients).dropEdge handle
  | false => exact mirrored.withClients clients

theorem Orderly.deactivateClient (orderly : Orderly service) (handle : Nat) :
    Orderly (service.deactivateClient handle) := by
  refine ⟨?_, orderly.mirrored.deactivateClient handle⟩
  rw [clients_deactivateClient]
  exact orderly.apart.deactivateClient handle

/-- Switching a device on, once the edge is free of others. -/
theorem activateClient_cases (service : Service Ip) (handle : Nat) :
    (service.clients.getPos handle = none ∧ service.activateClient handle = service) ∨
    ∃ pos freed, service.clients.getPos handle = some pos ∧
      (freed = service ∨ ∃ other, other ≠ handle ∧ service.clients.onAt other = some pos ∧
        freed = service.deactivateClient other) ∧
      (Apart service.clients → ∀ other, freed.clients.onAt other = some pos → other = handle) ∧
      service.activateClient handle =
        { freed with clients := (freed.clients.activateClient handle).2 } := by
  unfold activateClient
  cases place : service.clients.getPos handle with
  | none => exact .inl ⟨rfl, rfl⟩
  | some pos =>
    refine .inr ?_
    cases first : service.clients.clientAt pos with
    | none =>
      refine ⟨pos, service, rfl, .inl rfl, fun _ other on => ?_, by simp [first]⟩
      exact absurd on (free_of_clientAt first other)
    | some holder =>
      have on := onAt_of_clientAt first
      by_cases own : holder = handle
      · refine ⟨pos, service, rfl, .inl rfl, fun apart other there => ?_, ?_⟩
        · exact (apart other holder pos there on).trans own
        · simp [first, own]
      · refine ⟨pos, service.deactivateClient holder, rfl, .inr ⟨holder, own, on, rfl⟩,
          fun apart other there => ?_, ?_⟩
        · rw [clients_deactivateClient] at there
          obtain ⟨elsewhere, before⟩ := onAt_deactivateClient there
          exact absurd (apart other holder pos before on) elsewhere
        · simp [first, own, switchOff]

theorem getPos_of_freed {freed : Service Ip}
    (kept : freed.clients.device handle = service.clients.device handle) :
    freed.clients.getPos handle = service.clients.getPos handle := by
  rw [getPos, kept, getPos]

section

variable (orderly : Orderly service)
include orderly

theorem Orderly.activateClient (handle : Nat) : Orderly (service.activateClient handle) := by
  rcases activateClient_cases service handle with
    ⟨-, same⟩ | ⟨pos, freed, place, frees, free, same⟩
  · rw [same]
    exact orderly
  · have left : Orderly freed ∧ freed.clients.getPos handle = some pos := by
      rcases frees with rfl | ⟨other, apart, -, rfl⟩
      · exact ⟨orderly, place⟩
      · refine ⟨orderly.deactivateClient other, ?_⟩
        rw [← place]
        apply getPos_of_freed
        rw [clients_deactivateClient, device_deactivateClient, if_neg (Ne.symm apart)]
    rw [same]
    refine left.1.withClients (left.1.apart.activateClient fun there at_ other on => ?_)
    rw [left.2] at at_
    cases at_
    exact free orderly.apart other on

theorem Orderly.removeClient (handle : Nat) : Orderly (service.removeClient handle) :=
  (orderly.withClients (orderly.apart.removeClient handle)).dropEdge handle

theorem Orderly.addDevice [DecidableEq Ip] (device : NewDevice Ip) :
    Orderly (service.addDevice device) := by
  unfold Service.addDevice
  split
  · exact orderly
  · refine Orderly.activateClient (orderly.withClients ?_) _
    have added : Apart service.clients.addClient.2 := orderly.apart.add rfl
    refine added.update _ (fun _ => rfl) fun blank found active => ?_
    rw [addClient, device_add, if_pos rfl] at found
    cases found
    cases active

theorem Orderly.addFresh (entry : ConfigClient Ip) : Orderly (service.addFresh entry) := by
  unfold Service.addFresh
  dsimp only
  split
  · refine Orderly.activateClient (orderly.withClients ?_) _
    refine orderly.apart.elsewhere fun other elsewhere => ?_
    exact (device_add ..).trans (if_neg elsewhere)
  · next off =>
    refine orderly.withClients (orderly.apart.add ?_)
    simpa using off

end

theorem Orderly.foldl {α : Type} {change : Service Ip → α → Service Ip}
    (keeps : ∀ service item, Orderly service → Orderly (change service item)) (items : List α)
    (orderly : Orderly service) : Orderly (items.foldl change service) := by
  induction items generalizing service with
  | nil => exact orderly
  | cons item rest ih => exact ih (keeps service item orderly)

section

variable (orderly : Orderly service)
include orderly

theorem Orderly.handleConfigChange [DecidableEq Ip] (entries : List (ConfigClient Ip)) :
    Orderly (service.handleConfigChange entries) := by
  have removed := orderly.foldl (fun _ handle before => before.removeClient handle)
    (service.clients.planReload entries).1
  exact removed.foldl (fun _ entry before => before.addFresh entry) _

theorem Orderly.addDeviceThatDialsUs (fp : String) (label : Option String) :
    Orderly (service.addDeviceThatDialsUs fp label) := by
  have blank : service.clients.addClient.2.device service.clients.addClient.1 = some .blank := by
    rw [addClient, device_add]
    exact if_pos rfl
  have added : Apart service.clients.addClient.2 := orderly.apart.add rfl
  unfold Service.addDeviceThatDialsUs
  generalize service.clients.addClient = adding at blank added
  obtain ⟨handle, clients⟩ := adding
  dsimp only at blank added ⊢
  generalize naming : clients.update handle _ = named
  have apart : Apart named := by
    rw [← naming]
    refine added.update handle (fun _ => rfl) fun _ _ _ => rfl
  have off : named.isOn handle = false := by
    rw [← naming, isOn, device_update, if_pos rfl, blank]
    rfl
  split
  · next pos found =>
    refine Orderly.activateClient (orderly.withClients (apart.setPos ?_)) handle
    unfold setPos
    split
    · exact off
    · rfl
  · exact orderly.withClients apart

/-- A device is changed and taken from its edge. -/
theorem Orderly.reseats
    (same : ∀ other, other ≠ handle → clients.device other = service.clients.device other) :
    Orderly ({ service with clients := clients }.deactivateClient handle) := by
  refine ⟨?_, (orderly.mirrored.withClients clients).deactivateClient handle⟩
  rw [clients_deactivateClient]
  exact orderly.apart.elsewhere same

theorem Orderly.clearSpot (handle : Nat) (pos : Position) :
    Orderly (service.clearSpot handle pos) := by
  unfold Service.clearSpot
  split
  · exact orderly.withClients (orderly.apart.update handle (fun _ => rfl) fun _ _ _ => rfl)
  · exact orderly

theorem Orderly.trade (other : Nat) (vacated : Position) :
    Orderly (service.trade other vacated) := by
  have seats := device_setPos service.clients other vacated
  have idle := @Apart.setPos Ip service.clients orderly.apart other vacated
  unfold Service.trade
  generalize service.clients.setPos other vacated = moves at seats idle
  obtain ⟨on, clients⟩ := moves
  cases on with
  | false => exact orderly.withClients (idle rfl)
  | true =>
    refine Orderly.activateClient (orderly.reseats fun each elsewhere => ?_) other
    rw [setGeometry, device_update, if_neg elsewhere]
    exact (seats each).trans (if_neg elsewhere)

theorem Orderly.updatePos (handle : Nat) (pos : Position) :
    Orderly (service.updatePos handle pos) := by
  have tidy := orderly.clearSpot handle pos
  unfold Service.updatePos
  dsimp only
  generalize service.clearSpot handle pos = cleared at tidy
  have seats := device_setPos cleared.clients handle pos
  have idle := @Apart.setPos Ip cleared.clients tidy.apart handle pos
  generalize cleared.clients.setPos handle pos = moves at seats idle
  obtain ⟨on, clients⟩ := moves
  cases on with
  | false => exact tidy.withClients (idle rfl)
  | true =>
    have moved : Orderly ({ cleared with clients := clients }.deactivateClient handle) :=
      tidy.reseats fun other elsewhere => (seats other).trans (if_neg elsewhere)
    refine Orderly.activateClient ?_ handle
    split
    · exact moved.trade _ _
    · exact moved

theorem Orderly.act [DecidableEq Ip] (asked : Act Ip) : Orderly (service.act asked) := by
  cases asked with
  | activate handle => exact orderly.activateClient handle
  | deactivate handle => exact orderly.deactivateClient handle
  | updatePos handle pos => exact orderly.updatePos handle pos
  | create device => exact orderly.addDevice device
  | delete handles => exact orderly.foldl (fun _ handle before => before.removeClient handle) _
  | reload entries => exact orderly.handleConfigChange entries
  | dialledIn fingerprint label => exact orderly.addDeviceThatDialsUs fingerprint label
  | edit handle edit =>
    exact orderly.withClients
      (orderly.apart.update handle edit.keeps_active fun device _ _ => edit.keeps_pos device)
  | other => exact orderly

theorem Orderly.settleEdges (known : Known) :
    Orderly (service.settleEdges known) ∧ Settled (service.settleEdges known) known := by
  have settled := orderly.mirrored.settleEdges known
  refine ⟨⟨?_, settled.mirrored⟩, settled⟩
  rw [clients_settleEdges orderly.mirrored known]
  exact orderly.apart

/-! ## Startup -/

end

/-- Switched off one after the other, the devices that were on are all off. -/
theorem onAt_foldl_deactivate (handles : List Nat) (service : Service Ip) (handle : Nat) :
    let off := handles.foldl
      (fun service handle =>
        { service with
          clients := (service.clients.deactivateClient handle).2
          edges := service.edges.erase handle })
      service
    (∀ pos, off.clients.onAt handle = some pos →
      handle ∉ handles ∧ service.clients.onAt handle = some pos) ∧
    off.captures = service.captures ∧ (service.edges = ∅ → off.edges = ∅) := by
  induction handles generalizing service with
  | nil => exact ⟨fun pos on => ⟨by simp, on⟩, rfl, id⟩
  | cons first rest ih =>
    obtain ⟨offs, captures, edges⟩ := ih
      { service with
        clients := (service.clients.deactivateClient first).2
        edges := service.edges.erase first }
    refine ⟨fun pos on => ?_, captures, fun vacant => edges ?_⟩
    · obtain ⟨spared, there⟩ := offs pos on
      obtain ⟨elsewhere, before⟩ := onAt_deactivateClient there
      exact ⟨by simp [spared, elsewhere], before⟩
    · change service.edges.erase first = ∅
      rw [vacant]
      rfl

theorem orderly_startup (entries : List (ConfigClient Ip)) (known : Known) :
    Orderly (startup entries known) ∧ Settled (startup entries known) known := by
  unfold startup
  dsimp only
  have off := onAt_foldl_deactivate (load entries).clients.activeClients (load entries)
  generalize (load entries).clients.activeClients.foldl _ (load entries) = service at off
  refine Orderly.settleEdges ?_ known
  refine Orderly.foldl (fun _ handle before => before.activateClient handle) _ ⟨?_, ?_⟩
  · intro handle other pos on
    obtain ⟨spared, there⟩ := (off handle).1 pos on
    exact absurd (mem_activeClients.mpr ⟨pos, there⟩) spared
  · obtain ⟨-, captures, edges⟩ := off 0
    refine ⟨fun handle pos => ?_, ?_⟩
    · rw [captures, edges rfl]
      simp [load]
    · rw [captures]
      exact nodup_nil

theorem orderly_run [DecidableEq Ip] (entries : List (ConfigClient Ip)) (known : Known)
    (events : List (Act Ip × Known)) :
    Orderly (run entries known events) ∧
      Settled (run entries known events) ((events.getLast?.map Prod.snd).getD known) := by
  induction events using List.reverseRecOn with
  | nil => exact orderly_startup entries known
  | append_singleton events event ih =>
    rw [run, foldl_concat, getLast?_concat]
    exact (ih.1.act event.1).settleEdges event.2

/-! ## Moving a device -/

theorem device_deactivateClient (service : Service Ip) (handle other : Nat) :
    (service.deactivateClient handle).clients.device other =
      if other = handle then
        (service.clients.device other).map fun device => { device with active := false }
      else service.clients.device other := by
  rw [clients_deactivateClient, ClientManager.device_deactivateClient]

theorem device_activateClient (place : service.clients.getPos handle = some pos)
    (free : ∀ other, service.clients.onAt other = some pos → other = handle) (other : Nat) :
    (service.activateClient handle).clients.device other =
      if other = handle then
        (service.clients.device other).map fun device => { device with active := true }
      else service.clients.device other := by
  rcases activateClient_cases service handle with
    ⟨gone, -⟩ | ⟨there, freed, found, frees, -, same⟩
  · rw [place] at gone
    cases gone
  · rw [place] at found
    cases found
    rw [same]
    rcases frees with rfl | ⟨holder, apart, on, -⟩
    · exact device_activateClient _ handle other
    · exact absurd (free holder on) apart

theorem clientAt_of_onAt (apart : Apart clients) (on : clients.onAt handle = some pos) :
    clients.clientAt pos = some handle := by
  cases first : clients.clientAt pos with
  | none => exact absurd on (free_of_clientAt first handle)
  | some holder => rw [apart holder handle pos (onAt_of_clientAt first) on]

theorem setPos_on (found : clients.device handle = some device) (on : device.active = true)
    (moves : device.pos ≠ pos) : (clients.setPos handle pos).1 = true := by
  simp [setPos, isOn, found, on, moves]

theorem device_setGeometry (clients : ClientManager Ip) (handle : Nat)
    (geometry : Option Geometry) (other : Nat) :
    (clients.setGeometry handle geometry).device other =
      if other = handle then
        (clients.device other).map fun device => { device with geometry := geometry }
      else clients.device other :=
  device_update clients handle other _

theorem device_clearSpot (found : service.clients.device handle = some device) (pos : Position)
    (other : Nat) : (service.clearSpot handle pos).clients.device other =
      if other = handle then
        some { device with geometry := if device.pos = pos then device.geometry else none }
      else service.clients.device other := by
  unfold clearSpot
  by_cases stays : device.pos = pos
  · rw [if_neg (by simp [getPos, found, stays]), if_pos stays]
    split
    · next same => rw [same, found]
    · rfl
  · rw [if_pos (by simp [getPos, found, stays]), if_neg stays, device_setGeometry]
    split
    · next same =>
      rw [same, found]
      rfl
    · rfl

theorem device_trade {other : Nat} {vacated : Position}
    (found : service.clients.device other = some device) (on : device.active = true)
    (moves : device.pos ≠ vacated) (free : ∀ each, service.clients.onAt each ≠ some vacated)
    (each : Nat) : (service.trade other vacated).clients.device each =
      if each = other then some { device with pos := vacated, geometry := none }
      else service.clients.device each := by
  have seats := device_setPos service.clients other vacated
  have moved := setPos_on found on moves
  unfold trade
  generalize service.clients.setPos other vacated = outcome at seats moved
  obtain ⟨went, clients⟩ := outcome
  cases moved
  dsimp only at seats ⊢
  have reseated : ∀ each, ({ service with clients := clients.setGeometry other none }
      |>.deactivateClient other).clients.device each =
        if each = other then
          some { device with pos := vacated, geometry := none, active := false }
        else service.clients.device each := by
    intro each
    rw [device_deactivateClient, device_setGeometry, seats]
    split
    · next same =>
      subst same
      rw [found]
      rfl
    · rfl
  generalize Service.deactivateClient _ other = gone at reseated
  have place : gone.clients.getPos other = some vacated := by
    rw [getPos, reseated, if_pos rfl]
    rfl
  have alone : ∀ third, gone.clients.onAt third = some vacated → third = other := by
    intro third there
    by_contra elsewhere
    refine free third ?_
    rw [← there]
    apply onAt_congr
    rw [reseated, if_neg elsewhere]
  rw [device_activateClient place alone, reseated]
  split
  · simp [← on]
  · rfl

theorem device_updatePos_trade (apart : Apart service.clients) {other : Nat}
    {mover user : Device Ip} (found : service.clients.device handle = some mover)
    (on : mover.active = true) (uses : service.clients.device other = some user)
    (busy : user.active = true) (there : user.pos = pos) (two : handle ≠ other) (each : Nat) :
    (service.updatePos handle pos).clients.device each =
      if each = handle then some { mover with pos := pos, geometry := none }
      else if each = other then some { user with pos := mover.pos, geometry := none }
      else service.clients.device each := by
  have moverOn : service.clients.onAt handle = some mover.pos :=
    onAt_eq_some.mpr ⟨mover, found, on, rfl⟩
  have userOn : service.clients.onAt other = some pos :=
    onAt_eq_some.mpr ⟨user, uses, busy, there⟩
  have moves : mover.pos ≠ pos := by
    intro same
    rw [same] at moverOn
    exact two (apart handle other pos moverOn userOn)
  have holder : (service.clients.clientAt pos).filter (· ≠ handle) = some other := by
    rw [clientAt_of_onAt apart userOn]
    simp [Ne.symm two, Option.filter]
  have old : service.clients.getPos handle = some mover.pos := by
    rw [getPos, found]
    rfl
  have cleared : service.clearSpot handle pos =
      { service with clients := service.clients.setGeometry handle none } := by
    simp [clearSpot, old, moves]
  have spot : (service.clients.setGeometry handle none).device handle =
      some { mover with geometry := none } := by
    rw [device_setGeometry, if_pos rfl, found]
    rfl
  have seats := device_setPos (service.clients.setGeometry handle none) handle pos
  have went := setPos_on spot on moves
  unfold updatePos
  dsimp only
  rw [holder, old, cleared]
  generalize (service.clients.setGeometry handle none).setPos handle pos = outcome at seats went
  obtain ⟨moved, clients⟩ := outcome
  cases went
  dsimp only at seats ⊢
  have off : ∀ each, ({ service with clients := clients }.deactivateClient handle).clients.device
      each = if each = handle then
          some { mover with pos := pos, geometry := none, active := false }
        else service.clients.device each := by
    intro each
    rw [device_deactivateClient, seats, device_setGeometry]
    split
    · next same =>
      subst same
      rw [found]
      rfl
    · rfl
  generalize Service.deactivateClient _ handle = gone at off
  have free : ∀ third, gone.clients.onAt third ≠ some mover.pos := by
    intro third there
    obtain ⟨device, held, active, place⟩ := onAt_eq_some.mp there
    rw [off] at held
    split at held
    · cases held
      cases active
    · next elsewhere =>
      refine elsewhere (apart third handle mover.pos ?_ moverOn)
      exact onAt_eq_some.mpr ⟨device, held, active, place⟩
  have uses' : gone.clients.device other = some user := by
    rw [off, if_neg (Ne.symm two), uses]
  have traded := device_trade uses' busy (there ▸ Ne.symm moves) free
  generalize gone.trade other mover.pos = last at traded
  have place : last.clients.getPos handle = some pos := by
    rw [getPos, traded, if_neg two, off, if_pos rfl]
    rfl
  have alone : ∀ third, last.clients.onAt third = some pos → third = handle := by
    intro third at_
    obtain ⟨device, held, active, same⟩ := onAt_eq_some.mp at_
    by_contra elsewhere
    rw [traded, off, if_neg elsewhere] at held
    split at held
    · cases held
      exact moves same
    · next third_party =>
      refine third_party (apart third other pos ?_ userOn)
      exact onAt_eq_some.mpr ⟨device, held, active, same⟩
  rw [device_activateClient place alone, traded, off]
  by_cases own : each = handle
  · simp [own, two, ← on]
  · simp [own]

theorem device_updatePos_alone {mover : Device Ip}
    (found : service.clients.device handle = some mover)
    (alone : mover.active = true → ∀ other, service.clients.onAt other = some pos →
      other = handle) (each : Nat) : (service.updatePos handle pos).clients.device each =
      if each = handle then
        some { mover with
          pos := pos
          geometry := if mover.pos = pos then mover.geometry else none }
      else service.clients.device each := by
  have cleared := device_clearSpot found pos
  have holder : (service.clients.clientAt pos).filter (· ≠ handle) = none ∨
      mover.active = false := by
    cases on : mover.active with
    | false => exact .inr rfl
    | true =>
      refine .inl (Option.filter_eq_none_iff.mpr fun other first => ?_)
      simpa using alone on other (onAt_of_clientAt first)
  unfold updatePos
  dsimp only
  generalize service.clearSpot handle pos = spot at cleared
  have seats := device_setPos spot.clients handle pos
  have went : (spot.clients.setPos handle pos).1 = true → mover.active = true := by
    unfold setPos
    split
    · intro on
      simpa [isOn, cleared] using on
    · intro on
      cases on
  generalize spot.clients.setPos handle pos = outcome at seats went
  obtain ⟨moved, clients⟩ := outcome
  have placed : ∀ each, clients.device each =
      if each = handle then
        some { mover with
          pos := pos
          geometry := if mover.pos = pos then mover.geometry else none }
      else service.clients.device each := by
    intro each
    rw [seats, cleared]
    split <;> rfl
  cases moved with
  | false => exact placed each
  | true =>
    have on := went rfl
    have nobody := holder.resolve_right (by simp [on])
    rw [nobody]
    dsimp only
    have off := device_deactivateClient { spot with clients := clients } handle
    generalize Service.deactivateClient _ handle = gone at off
    simp only [placed] at off
    have place : gone.clients.getPos handle = some pos := by
      rw [getPos, off, if_pos rfl, if_pos rfl]
      rfl
    have free : ∀ third, gone.clients.onAt third = some pos → third = handle := by
      intro third there
      by_contra elsewhere
      refine elsewhere (alone on third ?_)
      rw [← there]
      apply onAt_congr
      rw [off, if_neg elsewhere, if_neg elsewhere]
    rw [device_activateClient place free, off]
    by_cases own : each = handle
    · simp [own, ← on]
    · simp [own]

/-! ## Every run -/

/--
After every event at most one device that is on uses an edge, and the captures
asked for are those of the devices that are on and want an edge, where they are.
A device that is on and is moved to an edge another one uses trades edges with
it; any other move changes only the device that is moved.
-/
theorem edges_in_order [DecidableEq Ip] (entries : List (ConfigClient Ip)) (known : Known)
    (events : List (Act Ip × Known)) :
    let service := run entries known events
    let last := (events.getLast?.map Prod.snd).getD known
    (∀ handle other pos, service.clients.onAt handle = some pos →
      service.clients.onAt other = some pos → handle = other) ∧
    (∀ handle pos, (handle, pos) ∈ service.captures ↔
      service.clients.onAt handle = some pos ∧ last.wantsEdge handle = true) ∧
    service.captures.Nodup ∧
    (∀ handle other mover user pos now, service.clients.device handle = some mover →
      mover.active = true → service.clients.device other = some user → user.active = true →
      user.pos = pos → handle ≠ other → ∀ each,
        (service.step (.updatePos handle pos, now)).clients.device each =
          if each = handle then some { mover with pos := pos, geometry := none }
          else if each = other then some { user with pos := mover.pos, geometry := none }
          else service.clients.device each) ∧
    (∀ handle mover pos now, service.clients.device handle = some mover →
      (mover.active = true → ∀ other, service.clients.onAt other = some pos →
        other = handle) → ∀ each,
        (service.step (.updatePos handle pos, now)).clients.device each =
          if each = handle then
            some { mover with
              pos := pos
              geometry := if mover.pos = pos then mover.geometry else none }
          else service.clients.device each) := by
  intro service last
  obtain ⟨orderly, settled⟩ := orderly_run entries known events
  have moved : ∀ handle pos now, (service.step (.updatePos handle pos, now)).clients =
      (service.updatePos handle pos).clients := by
    intro handle pos now
    exact clients_settleEdges (orderly.updatePos handle pos).mirrored now
  refine ⟨orderly.apart, settled.captured, orderly.mirrored.nodup, ?_, ?_⟩
  · intro handle other mover user pos now found on uses busy there two each
    rw [moved]
    exact device_updatePos_trade orderly.apart found on uses busy there two each
  · intro handle mover pos now found alone each
    rw [moved]
    exact device_updatePos_alone found alone each

/-- Two devices, the first one on at the left edge and the second off at the right. -/
def twoDevices : List (ConfigClient Nat) :=
  [⟨none, {1}, none, 4722, .left, true, none, none, none⟩,
    ⟨none, {2}, none, 4722, .right, false, none, none, none⟩]

def nothingKnown : Known where
  machineOf _ := none
  pairedNotToDrive _ := false

/-- A device that is off and is moved to an edge another one uses stays off, and trades nothing. -/
theorem off_device_trades_nothing :
    let service := run twoDevices nothingKnown []
    let moved := service.step (.updatePos 1 .left, nothingKnown)
    service.clients.onAt 0 = some .left ∧ service.clients.getPos 1 = some .right ∧
      moved.clients.onAt 1 = none ∧ moved.clients.getPos 1 = some .left ∧
      moved.clients.onAt 0 = some .left := by
  decide

end Service

end HopsFormal.Edges
