import HopsFormal.Links.Repinned

/-!
# Taking over a changed file

Each entry of the file claims a device that reads the same, or is added; a device
no entry claims is removed.  Claimed entries and added ones are together the
entries of the file, so a file without duplicate pins leaves no two devices
pinned to one machine.
-/

namespace HopsFormal.Links

open List Lib

variable {Ip : Type}

/-! ## Entries without duplicate pins -/

theorem noDuplicatePins_perm {entries others : List (ConfigClient Ip)}
    (perm : entries.Perm others) (alone : NoDuplicatePins entries) : NoDuplicatePins others := by
  refine (perm.pairwise_iff fun {first second} apart => ?_).mp alone
  intro pin other its others
  rw [ClientManager.eqIgnoreAsciiCase_comm]
  exact apart other pin others its

theorem ConfigClient.same_fingerprint [DecidableEq Ip] {first second : ConfigClient Ip}
    (same : first.same second = true) : first.fingerprint = second.fingerprint := by
  simp only [ConfigClient.same, Bool.and_eq_true, decide_eq_true_eq] at same
  exact same.2

namespace ClientManager

/-! ## The plan -/

section Planned

variable [DecidableEq Ip] {ρ : Type} [DecidableEq ρ]

/--
Of the entries read so far each claimed a device or is to be added, and of the
devices each was claimed or is to go.
-/
structure Planned (clients : ClientManager Ip) (rest : Nat → ρ)
    (done : List (ConfigClient Ip × ρ)) (plan : List Nat × List (ConfigClient Ip × ρ))
    (taken : List (Nat × ConfigClient Ip × ρ)) : Prop where
  devices : (taken.map Prod.fst ++ plan.1).Perm clients.devices.keys
  entries : (taken.map Prod.snd ++ plan.2).Perm done
  reads : ∀ claim ∈ taken, clients.reads rest claim.1 claim.2 = true

variable {clients : ClientManager Ip} {rest : Nat → ρ} {done : List (ConfigClient Ip × ρ)}
  {plan : List Nat × List (ConfigClient Ip × ρ)} {taken : List (Nat × ConfigClient Ip × ρ)}

theorem Planned.claims (planned : Planned clients rest done plan taken)
    (entry : ConfigClient Ip × ρ) :
    ∃ more, Planned clients rest (done ++ [entry]) (clients.claims rest plan entry) more := by
  unfold ClientManager.claims
  split
  · next place found =>
    obtain ⟨inside, read, -⟩ := List.findIdx?_eq_some_iff_getElem.mp found
    refine ⟨(plan.1[place], entry) :: taken, ?_, ?_, ?_⟩
    · have moved : (plan.1[place] :: plan.1.eraseIdx place).Perm plan.1 :=
        getElem_cons_eraseIdx_perm inside
      exact (perm_middle.symm.trans (moved.append_left _)).trans planned.devices
    · have shifted : (entry :: (taken.map Prod.snd ++ plan.2)).Perm (entry :: done) :=
        planned.entries.cons entry
      exact shifted.trans (perm_append_singleton entry done).symm
    · intro claim member
      rcases mem_cons.mp member with new | old
      · exact new ▸ read
      · exact planned.reads claim old
  · refine ⟨taken, planned.devices, ?_, planned.reads⟩
    rw [← append_assoc]
    exact planned.entries.append_right [entry]

theorem planReload_planned (clients : ClientManager Ip) (rest : Nat → ρ)
    (entries : List (ConfigClient Ip × ρ)) :
    ∃ taken, Planned clients rest entries (clients.planReload rest entries) taken := by
  unfold planReload
  induction entries using reverseRecOn with
  | nil => exact ⟨[], perm_insertionSort _ _, .refl _, nofun⟩
  | append_singleton done entry ih =>
    obtain ⟨taken, planned⟩ := ih
    rw [foldl_append]
    exact planned.claims entry

/-- A device that stays is pinned to no machine an entry to be added is pinned to. -/
theorem Planned.apart (planned : Planned clients rest done plan taken)
    (alone : NoDuplicatePins (done.map Prod.fst)) {handle : Nat} {pin other : String}
    {entry : ConfigClient Ip × ρ} (stays : handle ∉ plan.1)
    (pinned : clients.peerFingerprint handle = some pin) (added : entry ∈ plan.2)
    (its : entry.1.fingerprint = some other) : eqIgnoreAsciiCase pin other = false := by
  have key : handle ∈ clients.devices.keys := by
    obtain ⟨device, found, -⟩ := Option.bind_eq_some_iff.mp pinned
    exact AList.lookup_isSome.mp (Option.isSome_iff_exists.mpr ⟨device, found⟩)
  obtain ⟨claim, claimed, rfl⟩ := mem_map.mp <|
    (mem_append.mp (planned.devices.mem_iff.mpr key)).resolve_right stays
  have read := planned.reads claim claimed
  obtain ⟨device, found, same⟩ := (Option.any_eq_true _ _).mp read
  rw [Bool.and_eq_true] at same
  have reads : claim.2.1.fingerprint = some pin := by
    rw [← ConfigClient.same_fingerprint same.1, configEntry]
    rw [peerFingerprint, found] at pinned
    exact pinned
  have all := noDuplicatePins_perm (planned.entries.symm.map Prod.fst) alone
  rw [map_append] at all
  refine (pairwise_append.mp all).2.2 claim.2.1 ?_ entry.1 (mem_map_of_mem added) pin
    other reads its
  exact mem_map_of_mem (mem_map_of_mem claimed)

theorem Planned.added (planned : Planned clients rest done plan taken)
    (alone : NoDuplicatePins (done.map Prod.fst)) : NoDuplicatePins (plan.2.map Prod.fst) := by
  have all := noDuplicatePins_perm (planned.entries.symm.map Prod.fst) alone
  rw [map_append] at all
  exact (pairwise_append.mp all).2.1

end Planned

/-! ## Removing and adding several -/

theorem device_removes (clients : ClientManager Ip) (gone : List Nat) (handle : Nat) :
    (gone.foldl removeClient clients).device handle =
      if handle ∈ gone then none else clients.device handle := by
  induction gone generalizing clients with
  | nil => simp
  | cons first others ih =>
    rw [foldl_cons, ih, device_removeClient]
    by_cases same : handle = first <;> simp [same]

theorem next_removes (clients : ClientManager Ip) (gone : List Nat) :
    (gone.foldl removeClient clients).next = clients.next := by
  induction gone generalizing clients with
  | nil => rfl
  | cons first others ih => exact ih _

/-- Every device has a handle that was given out. -/
def Older (clients : ClientManager Ip) : Prop :=
  ∀ handle, (clients.device handle).isSome → handle < clients.next

variable {clients : ClientManager Ip}

theorem Older.addWithConfig (older : clients.Older) (config : ConfigClient Ip) :
    (clients.addWithConfig config).Older := by
  intro handle there
  by_cases new : handle = clients.next
  · exact new ▸ Nat.lt_succ_self _
  · rw [device_addWithConfig_of_ne _ _ new] at there
    exact Nat.lt_succ_of_lt (older handle there)

theorem unique_adds (added : List (ConfigClient Ip)) (older : clients.Older)
    (unique : clients.Unique)
    (free : ∀ config ∈ added, ∀ pin, config.fingerprint = some pin → clients.Free pin)
    (alone : NoDuplicatePins added) : (added.foldl addWithConfig clients).Unique ∧
      ∀ handle < clients.next,
        (added.foldl addWithConfig clients).device handle = clients.device handle := by
  induction added generalizing clients with
  | nil => exact ⟨unique, fun _ _ => rfl⟩
  | cons first others ih =>
    obtain ⟨apart, alone⟩ := pairwise_cons.mp alone
    have moved : Moved clients (clients.addWithConfig first) fun _ => False :=
      moved_addWithConfig older (free first mem_cons_self)
    have later : ∀ config ∈ others, ∀ pin, config.fingerprint = some pin →
        (clients.addWithConfig first).Free pin := by
      intro config member pin its handle other pinned
      rw [peerFingerprint_addWithConfig] at pinned
      split at pinned
      · exact apart config member other pin pinned its
      · exact free config (mem_cons_of_mem _ member) pin its handle other pinned
    obtain ⟨after, stay⟩ := ih (older.addWithConfig first) (moved.unique unique) later alone
    refine ⟨after, fun handle old => ?_⟩
    rw [foldl_cons, stay handle (Nat.lt_succ_of_lt old),
      device_addWithConfig_of_ne _ _ (Nat.ne_of_lt old)]

/-- A file without duplicate pins is taken over without one. -/
theorem reload_unique [DecidableEq Ip] {ρ : Type} [DecidableEq ρ] (rest : Nat → ρ)
    {entries : List (ConfigClient Ip × ρ)} (older : clients.Older) (unique : clients.Unique)
    (alone : NoDuplicatePins (entries.map Prod.fst)) :
    (((clients.planReload rest entries).2.map Prod.fst).foldl addWithConfig
        ((clients.planReload rest entries).1.foldl removeClient clients)).Unique ∧
      ∀ handle < clients.next, (((clients.planReload rest entries).2.map Prod.fst).foldl
          addWithConfig ((clients.planReload rest entries).1.foldl removeClient clients)).device
            handle =
        if handle ∈ (clients.planReload rest entries).1 then none else clients.device handle := by
  obtain ⟨taken, planned⟩ := planReload_planned clients rest entries
  generalize clients.planReload rest entries = plan at planned ⊢
  have device := device_removes clients plan.1
  have remains : ∀ handle pin, (plan.1.foldl removeClient clients).peerFingerprint handle =
      some pin → handle ∉ plan.1 ∧ clients.peerFingerprint handle = some pin := by
    intro handle pin pinned
    rw [peerFingerprint, device] at pinned
    split at pinned
    · cases pinned
    · next stays => exact ⟨stays, pinned⟩
  have left : (plan.1.foldl removeClient clients).Older := by
    intro handle there
    rw [device] at there
    rw [next_removes]
    split at there
    · cases there
    · exact older handle there
  have fewer : (plan.1.foldl removeClient clients).Unique := by
    intro one other pin otherPin isOne isOther same
    exact unique one other pin otherPin (remains one pin isOne).2 (remains other otherPin isOther).2
      same
  have free : ∀ config ∈ plan.2.map Prod.fst, ∀ pin, config.fingerprint = some pin →
      (plan.1.foldl removeClient clients).Free pin := by
    intro config member pin its handle other pinned
    obtain ⟨entry, added, rfl⟩ := mem_map.mp member
    obtain ⟨stays, before⟩ := remains handle other pinned
    exact planned.apart alone stays before added its
  obtain ⟨after, stay⟩ := unique_adds _ left fewer free (planned.added alone)
  refine ⟨after, fun handle old => ?_⟩
  rw [stay handle ((next_removes clients plan.1).symm ▸ old), device]

end ClientManager

end HopsFormal.Links
