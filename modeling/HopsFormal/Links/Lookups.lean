import HopsFormal.Lib.Basic
import HopsFormal.Links.Clients

/-!
# Looking up a device's name

Two tasks look the names of devices up.  The resolver is asked for a lookup when a device is
switched on, when its name is edited and when a frontend wants one; what it finds waits for the
service, which records it.  The task that holds a device's link looks its name up again after a
dial that reached nothing, and records what it finds itself.  Either records what it found for the
device, whatever the device is named by then.  What the person is told of a name that was not
found is left out.
-/

namespace HopsFormal.Links

open List Lib

structure DnsRequest where
  handle : Nat
  hostname : String

/-- What the resolver tells the service; a lookup that failed found nothing. -/
inductive DnsEvent (Ip : Type) where
  | resolving (handle : Nat)
  | resolved (handle : Nat) (hostname : String) (ips : Option (List Ip))

/--
The devices, what the resolver is asked for and looks up, what it told the service, the lookups of
the tasks that dial, and everything that lookups returned so far, each with the name looked up.
-/
structure Lookups (Ip : Type) where
  clients : ClientManager Ip
  requests : List DnsRequest
  activeTasks : Table Nat String
  events : List (DnsEvent Ip)
  dialling : List DnsRequest
  returned : List (String × List Ip)

variable {Ip : Type}

namespace Lookups

def start : Lookups Ip := ⟨.empty, [], ∅, [], [], []⟩

def hostname (lookups : Lookups Ip) (handle : Nat) : Option String :=
  (lookups.clients.device handle).bind (·.hostname)

/-! ## The service -/

def resolve (lookups : Lookups Ip) (handle : Nat) : Lookups Ip :=
  match lookups.hostname handle with
  | none => lookups
  | some hostname => { lookups with requests := lookups.requests ++ [⟨handle, hostname⟩] }

/-- A device switched on switches off the one that used its edge. -/
def activateClient (lookups : Lookups Ip) (handle : Nat) (other : Option Nat) : Lookups Ip :=
  let asked := lookups.resolve handle
  let freed :=
    match other with
    | none => asked.clients
    | some evicted => asked.clients.deactivateClient evicted
  { asked with clients := freed.activateClient handle }

def updateHostname (lookups : Lookups Ip) (handle : Nat) (hostname : Option String) : Lookups Ip :=
  let edited := { lookups with clients := lookups.clients.setHostname handle hostname }
  if (lookups.clients.device handle).any (·.hostname ≠ hostname) then edited.resolve handle
  else edited

def updateFixIps (lookups : Lookups Ip) (handle : Nat) (ips : List Ip) : Lookups Ip :=
  { lookups with clients := lookups.clients.setFixIps handle ips }

/-- The name an answer is for is not looked at. -/
def handleResolverEvent (lookups : Lookups Ip) : Lookups Ip :=
  match lookups.events with
  | [] => lookups
  | .resolving _ :: rest => { lookups with events := rest }
  | .resolved handle _ ips :: rest =>
    { lookups with events := rest, clients := lookups.clients.setDnsIps handle (ips.getD []) }

/-! ## The resolver -/

/-- A request ends the unfinished lookup made for its device before. -/
def doDns (lookups : Lookups Ip) : Lookups Ip :=
  match lookups.requests with
  | [] => lookups
  | request :: rest =>
    { lookups with
      requests := rest
      activeTasks := lookups.activeTasks.insert request.handle request.hostname
      events := lookups.events ++ [.resolving request.handle] }

def resolveHostname (lookups : Lookups Ip) (handle : Nat) (ips : Option (List Ip)) : Lookups Ip :=
  match lookups.activeTasks.lookup handle with
  | none => lookups
  | some hostname =>
    { lookups with
      activeTasks := lookups.activeTasks.erase handle
      events := lookups.events ++ [.resolved handle hostname ips]
      returned := lookups.returned ++ ips.toList.map (hostname, ·) }

/-! ## The tasks that dial -/

def lookUpAgain (lookups : Lookups Ip) (handle : Nat) : Lookups Ip :=
  match lookups.hostname handle with
  | none => lookups
  | some hostname => { lookups with dialling := lookups.dialling ++ [⟨handle, hostname⟩] }

/-- The addresses looked up for a device before. -/
def known (lookups : Lookups Ip) (handle : Nat) : List Ip :=
  ((lookups.clients.device handle).map (·.dnsIps)).getD []

/-- Whether a lookup found other addresses than are known. -/
def changed [DecidableEq Ip] (known ips : List Ip) : Bool :=
  ips.length ≠ known.length || ips.any (· ∉ known)

/-- What was found replaces what is known if it differs; nothing found, or no answer in time,
keeps it. -/
def found [DecidableEq Ip] (lookups : Lookups Ip) (index : Nat) (ips : Option (List Ip)) :
    Lookups Ip :=
  match lookups.dialling[index]? with
  | none => lookups
  | some request =>
    let answered :=
      { lookups with
        dialling := lookups.dialling.eraseIdx index
        returned := lookups.returned ++ ips.toList.map (request.hostname, ·) }
    match ips.filter (!·.isEmpty) with
    | none => answered
    | some ips =>
      if changed (answered.known request.handle) ips then
        { answered with clients := answered.clients.setDnsIps request.handle ips }
      else answered

inductive Act (Ip : Type) where
  | add (config : ConfigClient Ip)
  | remove (handle : Nat)
  | activate (handle : Nat) (other : Option Nat)
  | updateHostname (handle : Nat) (hostname : Option String)
  | updateFixIps (handle : Nat) (ips : List Ip)
  /-- A frontend asks for a lookup. -/
  | resolveDns (handle : Nat)
  /-- The resolver takes a request. -/
  | doDns
  /-- The resolver's lookup for a device ends. -/
  | resolveHostname (handle : Nat) (ips : Option (List Ip))
  /-- The service takes what the resolver told it. -/
  | resolverEvent
  | lookUpAgain (handle : Nat)
  /-- A lookup of a task that dials ends. -/
  | found (index : Nat) (ips : Option (List Ip))
  /-- A task that dials is stopped in its lookup. -/
  | stop (index : Nat)

@[grind =]
def step [DecidableEq Ip] (lookups : Lookups Ip) : Act Ip → Lookups Ip
  | .add config => { lookups with clients := lookups.clients.addWithConfig config }
  | .remove handle => { lookups with clients := lookups.clients.removeClient handle }
  | .activate handle other => lookups.activateClient handle other
  | .updateHostname handle hostname => lookups.updateHostname handle hostname
  | .updateFixIps handle ips => lookups.updateFixIps handle ips
  | .resolveDns handle => lookups.resolve handle
  | .doDns => lookups.doDns
  | .resolveHostname handle ips => lookups.resolveHostname handle ips
  | .resolverEvent => lookups.handleResolverEvent
  | .lookUpAgain handle => lookups.lookUpAgain handle
  | .found index ips => lookups.found index ips
  | .stop index => { lookups with dialling := lookups.dialling.eraseIdx index }

def run [DecidableEq Ip] (acts : List (Act Ip)) : Lookups Ip := acts.foldl step start

/-! ## Addresses of the present name -/

/-- A device has the addresses one lookup of its name returned, or none, and is dialled at these
and at its fixed ones. -/
structure Named (returned : List (String × List Ip)) (device : Device Ip) : Prop where
  dnsIps : device.dnsIps = [] ∨
    ∃ name, device.hostname = some name ∧ (name, device.dnsIps) ∈ returned
  ips : ∀ ip, ip ∈ device.ips ↔ ip ∈ device.fixIps ∨ ip ∈ device.dnsIps

/-- Every device has the addresses of its present name. -/
def Current (lookups : Lookups Ip) : Prop :=
  ∀ handle device, lookups.clients.device handle = some device → Named lookups.returned device

/-- The answer a step records for a device: the name it is for and the addresses it brings. -/
def answer [DecidableEq Ip] (lookups : Lookups Ip) : Act Ip → Option (Nat × String × List Ip)
  | .resolverEvent =>
    match lookups.events with
    | .resolved handle hostname ips :: _ => some (handle, hostname, ips.getD [])
    | _ => none
  | .found index ips =>
    match lookups.dialling[index]?, ips with
    | some request, some ips =>
      if changed (lookups.known request.handle) ips then
        some (request.handle, request.hostname, ips)
      else none
    | _, _ => none
  | _ => none

/-- An answer that brings an address is for the name its device has now. -/
def Fits [DecidableEq Ip] (lookups : Lookups Ip) (act : Act Ip) : Prop :=
  ∀ handle name ips, lookups.answer act = some (handle, name, ips) → ips ≠ [] →
    ∀ device, lookups.clients.device handle = some device → device.hostname = some name

/-- What the resolver told the service was returned by a lookup of the name told. -/
def Told (lookups : Lookups Ip) : Prop :=
  ∀ handle name ips, .resolved handle name (some ips) ∈ lookups.events →
    (name, ips) ∈ lookups.returned

structure Sound (lookups : Lookups Ip) : Prop where
  current : lookups.Current
  told : lookups.Told

variable {lookups : Lookups Ip}

theorem Named.more {returned : List (String × List Ip)} {device : Device Ip}
    (named : Named returned device) (more : List (String × List Ip)) :
    Named (returned ++ more) device where
  dnsIps := named.dnsIps.imp_right fun ⟨name, called, within⟩ =>
    ⟨name, called, mem_append_left _ within⟩
  ips := named.ips

theorem mem_updateIps (device : Device Ip) (ip : Ip) :
    ip ∈ (ClientManager.updateIps device).ips ↔ ip ∈ device.fixIps ∨ ip ∈ device.dnsIps :=
  mem_append

section

variable (current : lookups.Current)
include current

/-- A change of one device that keeps its addresses those of its name keeps all of them so. -/
theorem Current.update {handle : Nat} {change : Device Ip → Device Ip}
    (keeps : ∀ device, lookups.clients.device handle = some device →
      Named lookups.returned device → Named lookups.returned (change device)) :
    Current { lookups with clients := lookups.clients.update handle change } := by
  intro other device there
  rw [ClientManager.device_update] at there
  split at there
  · rename_i same
    subst same
    obtain ⟨old, was, rfl⟩ := Option.map_eq_some_iff.mp there
    exact keeps old was (current other old was)
  · exact current other device there

theorem Current.setDnsIps {handle : Nat} {ips : List Ip}
    (fits : ∀ device, lookups.clients.device handle = some device → ips ≠ [] →
      ∃ name, device.hostname = some name ∧ (name, ips) ∈ lookups.returned) :
    Current { lookups with clients := lookups.clients.setDnsIps handle ips } := by
  refine current.update fun device there _ => ⟨?_, mem_updateIps _⟩
  by_cases nothing : ips = []
  · exact .inl nothing
  · exact .inr (fits device there nothing)

theorem Current.setHostname (handle : Nat) (hostname : Option String) :
    Current { lookups with clients := lookups.clients.setHostname handle hostname } := by
  refine current.update fun device _ named => ?_
  split
  · exact ⟨.inl rfl, mem_updateIps _⟩
  · exact named

theorem Current.setFixIps (handle : Nat) (ips : List Ip) :
    Current { lookups with clients := lookups.clients.setFixIps handle ips } :=
  current.update fun _ _ named => ⟨named.dnsIps, mem_updateIps _⟩

theorem Current.add (config : ConfigClient Ip) :
    Current { lookups with clients := lookups.clients.addWithConfig config } := by
  intro handle device there
  by_cases fresh : handle = lookups.clients.next
  · subst fresh
    obtain rfl := Option.some.inj ((AList.lookup_insert _).symm.trans there)
    exact ⟨.inl rfl, fun ip => by simp⟩
  · rw [ClientManager.device_addWithConfig_of_ne _ _ fresh] at there
    exact current handle device there

theorem Current.remove (handle : Nat) :
    Current { lookups with clients := lookups.clients.removeClient handle } := by
  intro other device there
  rw [ClientManager.device_removeClient] at there
  split at there
  · cases there
  · exact current other device there

end

section

variable (sound : lookups.Sound)
include sound

/-- Asking for a lookup writes nothing down. -/
theorem Sound.resolve (handle : Nat) : (lookups.resolve handle).Sound := by
  unfold Lookups.resolve
  split
  · exact sound
  · exact ⟨sound.current, sound.told⟩

theorem Sound.activateClient (handle : Nat) (other : Option Nat) :
    (lookups.activateClient handle other).Sound := by
  obtain ⟨current, told⟩ := sound.resolve handle
  have freed : Current { lookups.resolve handle with
      clients := match other with
        | none => (lookups.resolve handle).clients
        | some evicted => (lookups.resolve handle).clients.deactivateClient evicted } := by
    cases other with
    | none => exact current
    | some evicted => exact current.update fun _ _ named => ⟨named.dnsIps, named.ips⟩
  exact ⟨freed.update fun _ _ named => ⟨named.dnsIps, named.ips⟩, told⟩

theorem Sound.updateHostname (handle : Nat) (hostname : Option String) :
    (lookups.updateHostname handle hostname).Sound := by
  have edited : Sound { lookups with clients := lookups.clients.setHostname handle hostname } :=
    ⟨sound.current.setHostname handle hostname, sound.told⟩
  unfold Lookups.updateHostname
  split
  · exact edited.resolve handle
  · exact edited

theorem Sound.handleResolverEvent [DecidableEq Ip] (fits : lookups.Fits .resolverEvent) :
    lookups.handleResolverEvent.Sound := by
  unfold Lookups.handleResolverEvent
  cases waiting : lookups.events with
  | nil => exact sound
  | cons event rest =>
    have later : Told { lookups with events := rest } := fun handle name ips within =>
      sound.told handle name ips (waiting ▸ .tail _ within)
    cases event with
    | resolving handle => exact ⟨sound.current, later⟩
    | resolved handle name ips =>
      refine ⟨?_, later⟩
      have now : lookups.answer .resolverEvent = some (handle, name, ips.getD []) := by
        simp only [answer, waiting]
      have stays : Current { lookups with events := rest } := sound.current
      refine stays.setDnsIps fun device there something => ⟨name, ?_, ?_⟩
      · exact fits handle name _ now something device there
      · cases ips with
        | none => exact absurd rfl something
        | some ips => exact sound.told handle name ips (waiting ▸ .head _)

theorem Sound.doDns : lookups.doDns.Sound := by
  unfold Lookups.doDns
  split
  · exact sound
  · refine ⟨sound.current, fun handle name ips within => ?_⟩
    rcases mem_append.mp within with before | now
    · exact sound.told handle name ips before
    · simp at now

theorem Sound.resolveHostname (handle : Nat) (ips : Option (List Ip)) :
    (lookups.resolveHostname handle ips).Sound := by
  unfold Lookups.resolveHostname
  split
  · exact sound
  · refine ⟨fun other device there => (sound.current other device there).more _,
      fun other name more within => mem_append.mpr ?_⟩
    rcases mem_append.mp within with before | now
    · exact .inl (sound.told other name more before)
    · obtain ⟨rfl, rfl, rfl⟩ := by simpa using now
      exact .inr (by simp)

theorem Sound.lookUpAgain (handle : Nat) : (lookups.lookUpAgain handle).Sound := by
  unfold Lookups.lookUpAgain
  split
  · exact sound
  · exact ⟨sound.current, sound.told⟩

theorem Sound.found [DecidableEq Ip] {index : Nat} {ips : Option (List Ip)}
    (fits : lookups.Fits (.found index ips)) : (lookups.found index ips).Sound := by
  unfold Lookups.found
  cases asked : lookups.dialling[index]? with
  | none => exact sound
  | some request =>
    let answered : Lookups Ip :=
      { lookups with
        dialling := lookups.dialling.eraseIdx index
        returned := lookups.returned ++ ips.toList.map (request.hostname, ·) }
    have ended : answered.Sound :=
      ⟨fun other device there => (sound.current other device there).more _,
        fun other name more within => mem_append_left _ (sound.told other name more within)⟩
    cases ips with
    | none => exact ended
    | some ips =>
      dsimp only
      split
      · exact ended
      · rename_i brought kept
        obtain ⟨same, -⟩ := Option.filter_eq_some_iff.mp kept
        obtain rfl := Option.some.inj same
        split
        · rename_i differs
          have now : lookups.answer (.found index (some ips)) =
              some (request.handle, request.hostname, ips) := by
            simp only [answer, asked]
            exact if_pos differs
          exact ⟨ended.current.setDnsIps fun device there something =>
            ⟨request.hostname, fits _ _ _ now something device there, by simp [answered]⟩,
            ended.told⟩
        · exact ended

end

theorem Sound.step [DecidableEq Ip] (sound : lookups.Sound) {act : Act Ip} (fits : lookups.Fits act) :
    (lookups.step act).Sound := by
  cases act with
  | add config => exact ⟨sound.current.add config, sound.told⟩
  | remove handle => exact ⟨sound.current.remove handle, sound.told⟩
  | activate handle other => exact sound.activateClient handle other
  | updateHostname handle hostname => exact sound.updateHostname handle hostname
  | updateFixIps handle ips => exact ⟨sound.current.setFixIps handle ips, sound.told⟩
  | resolveDns handle => exact sound.resolve handle
  | doDns => exact sound.doDns
  | resolveHostname handle ips => exact sound.resolveHostname handle ips
  | resolverEvent => exact sound.handleResolverEvent fits
  | lookUpAgain handle => exact sound.lookUpAgain handle
  | found index ips => exact sound.found fits
  | stop index => exact ⟨sound.current, sound.told⟩

theorem start_sound : (start : Lookups Ip).Sound where
  current := by nofun
  told := by nofun

theorem sound_run [DecidableEq Ip] (acts : List (Act Ip))
    (fits : ∀ taken ∈ trace step start acts, Fits taken.1 taken.2) : (run acts).Sound := by
  induction acts using List.reverseRecOn with
  | nil => exact start_sound
  | append_singleton acts act ih =>
    rw [trace_append] at fits
    rw [run, foldl_concat]
    exact (ih fun taken within => fits taken (mem_append_left _ within)).step
      (fits (run acts, act) (by simp [trace, run]))

/--
In a run in which every answer that brings an address is for the name its device has when it is
recorded, each device has at every moment the addresses that one lookup of its present name
returned, or none, and is dialled at these and at its fixed ones.
-/
theorem addresses_of_present_name [DecidableEq Ip] (acts : List (Act Ip))
    (fits : ∀ taken ∈ trace step start acts, Fits taken.1 taken.2) :
    ∀ past later, acts = past ++ later → (run past).Current := by
  rintro past later rfl
  rw [trace_append] at fits
  exact (sound_run past fun taken within => fits taken (mem_append_left _ within)).current

/-- A device is looked up by its name, and once more after the name was edited. -/
def renamed : List (Act Nat) :=
  [.add ⟨some "old", [], 4722, true, none⟩, .activate 0 none, .doDns, .resolveHostname 0 (some [1]),
    .resolverEvent, .resolverEvent, .updateHostname 0 (some "new"), .lookUpAgain 0,
    .found 0 (some [2])]

theorem addresses_of_present_name_renamed : (run renamed).Current := by
  refine addresses_of_present_name renamed ?_ renamed [] (by simp)
  intro taken within handle name ips answered something device there
  simp only [renamed, trace, mem_cons, not_mem_nil, or_false] at within
  rcases within with rfl | rfl | rfl | rfl | rfl | rfl | rfl | rfl | rfl <;> cases answered
  -- what is recorded is what the resolver told, and what the task that dials found
  · obtain rfl := Option.some.inj there
    rfl
  · obtain rfl := Option.some.inj there
    rfl

/-- The name is cleared while the resolver looks it up. -/
def cleared : List (Act Nat) :=
  [.add ⟨some "old", [], 4722, true, none⟩, .activate 0 none, .doDns, .updateHostname 0 none,
    .resolveHostname 0 (some [1]), .resolverEvent, .resolverEvent]

/-- The name is edited while the task that dials looks it up. -/
def dialled : List (Act Nat) :=
  [.add ⟨some "old", [], 4722, true, none⟩, .lookUpAgain 0, .updateHostname 0 (some "new"),
    .found 0 (some [1])]

/-- Either task records what the old name was found at, and the device is dialled there. -/
theorem old_addresses_recorded : ¬ (run cleared).Current ∧ ¬ (run dialled).Current := by
  constructor
  · intro current
    obtain ⟨nothing | ⟨name, called, -⟩, -⟩ := current 0 _ rfl
    · cases nothing
    · cases called
  · intro current
    obtain ⟨nothing | ⟨name, called, within⟩, -⟩ := current 0 _ rfl
    · cases nothing
    · obtain rfl := Option.some.inj called
      revert within
      decide

end Lookups

end HopsFormal.Links
