import HopsFormal.Edges.OnePerEdge
import HopsFormal.Lib.Basic
import HopsFormal.Lib.Difference

/-!
# What a reload changes

A reload of the file removes the devices no entry claims and adds the entries
that claimed none.  The entries kept and the entries added are those of the file,
so the same file read again changes nothing.
-/

namespace HopsFormal.Edges

open List Lib

namespace ClientManager

variable {Ip : Type}

/-! ## The devices and their entries -/

def handles (clients : ClientManager Ip) : List Nat := clients.handlesWhere fun _ => true

def entryOf (clients : ClientManager Ip) (handle : Nat) : Option (ConfigClient Ip) :=
  (clients.device handle).map configEntry

/-- Every device with its entry, in the order of the handles. -/
def held (clients : ClientManager Ip) : List (Nat × ConfigClient Ip) :=
  clients.handles.filterMap fun handle =>
    (clients.device handle).map fun device => (handle, configEntry device)

variable {clients : ClientManager Ip} {handle : Nat}

theorem mem_handles : handle ∈ clients.handles ↔ (clients.device handle).isSome := by
  rw [handles, mem_handlesWhere, Option.isSome_iff_exists]
  simp

variable (clients)

theorem handles_nodup : clients.handles.Nodup := by
  unfold handles handlesWhere
  rw [(perm_insertionSort _ _).nodup_iff]
  exact clients.entries.nodupKeys.sublist filter_sublist

theorem held_fst : clients.held.map Prod.fst = clients.handles := by
  unfold held
  rw [map_filterMap]
  refine (filterMap_congr fun handle member => ?_).trans filterMap_some
  obtain ⟨device, found⟩ := Option.isSome_iff_exists.mp (mem_handles.mp member)
  rw [found]
  rfl

theorem held_nodup : clients.held.Nodup := by
  have handles := clients.handles_nodup
  rw [← held_fst] at handles
  exact handles.of_map _

variable {clients}

theorem mem_held {entry : ConfigClient Ip} :
    (handle, entry) ∈ clients.held ↔ clients.entryOf handle = some entry := by
  unfold held entryOf
  rw [mem_filterMap]
  constructor
  · rintro ⟨other, -, found⟩
    obtain ⟨device, is, same⟩ := Option.map_eq_some_iff.mp found
    obtain ⟨rfl, rfl⟩ := Prod.mk.inj same
    rw [is]
    rfl
  · intro found
    obtain ⟨device, is, rfl⟩ := Option.map_eq_some_iff.mp found
    exact ⟨handle, mem_handles.mpr (by rw [is]; rfl), by rw [is]; rfl⟩

variable (clients)

theorem planReload_eq [DecidableEq Ip] (entries : List (ConfigClient Ip)) :
    clients.planReload entries =
      ((difference clients.held entries).1.map Prod.fst, (difference clients.held entries).2) :=
  rfl

/-! ## Removing and adding several -/

theorem device_removes (stale : List Nat) (handle : Nat) :
    (stale.foldl removeClient clients).device handle =
      if handle ∈ stale then none else clients.device handle := by
  induction stale generalizing clients with
  | nil => simp
  | cons first rest ih =>
    rw [foldl_cons, ih, device_removeClient]
    by_cases same : handle = first <;> simp [same]

theorem next_removes (stale : List Nat) :
    (stale.foldl removeClient clients).next = clients.next := by
  induction stale generalizing clients with
  | nil => rfl
  | cons first rest ih => exact ih _

variable {clients}

def addAll (clients : ClientManager Ip) (fresh : List (ConfigClient Ip)) : ClientManager Ip :=
  fresh.foldl (fun clients entry => (clients.addWithConfig entry).2) clients

variable (clients)

theorem entryOf_addWithConfig (entry : ConfigClient Ip) (handle : Nat) :
    (clients.addWithConfig entry).2.entryOf handle =
      if handle = clients.next then some entry else clients.entryOf handle := by
  unfold entryOf addWithConfig
  rw [device_add]
  split
  · rfl
  · rfl

theorem entryOf_addAll (fresh : List (ConfigClient Ip)) (handle : Nat) :
    (clients.addAll fresh).entryOf handle =
      if handle < clients.next then clients.entryOf handle
      else (fresh[handle - clients.next]?).or (clients.entryOf handle) := by
  induction fresh generalizing clients with
  | nil => simp [addAll]
  | cons entry rest ih =>
    have step : clients.addAll (entry :: rest) = (clients.addWithConfig entry).2.addAll rest :=
      rfl
    have next : (clients.addWithConfig entry).2.next = clients.next + 1 := rfl
    rw [step, ih, next, entryOf_addWithConfig]
    rcases Nat.lt_trichotomy handle clients.next with before | here | after
    · rw [if_pos (Nat.lt_succ_of_lt before), if_neg (Nat.ne_of_lt before), if_pos before]
    · subst here
      simp
    · have later : ¬ handle < clients.next + 1 := Nat.not_lt.mpr after
      have place : handle - clients.next = handle - (clients.next + 1) + 1 := by omega
      rw [if_neg later, if_neg (Nat.ne_of_gt after), if_neg (Nat.lt_asymm after), place,
        getElem?_cons_succ]

theorem device_addAll (fresh : List (ConfigClient Ip)) (older : handle < clients.next) :
    (clients.addAll fresh).device handle = clients.device handle := by
  induction fresh generalizing clients with
  | nil => rfl
  | cons entry rest ih =>
    have later := ih (clients.addWithConfig entry).2 (Nat.lt_succ_of_lt older)
    exact later.trans ((device_add ..).trans (if_neg (Nat.ne_of_lt older)))

variable {clients}

def reload [DecidableEq Ip] (clients : ClientManager Ip) (entries : List (ConfigClient Ip)) :
    ClientManager Ip :=
  ((clients.planReload entries).1.foldl removeClient clients).addAll (clients.planReload entries).2

/-- The devices an entry of the file claims. -/
def kept [DecidableEq Ip] (clients : ClientManager Ip) (entries : List (ConfigClient Ip)) :
    List Nat :=
  clients.handles.filter (· ∉ (clients.planReload entries).1)

/-! ## The plan -/

section Plan

variable [DecidableEq Ip] {clients : ClientManager Ip} {entries : List (ConfigClient Ip)}

/-- What was claimed is what is kept. -/
theorem taken_perm {taken : List (Nat × ConfigClient Ip)}
    (claimed : Claimed clients.held entries (difference clients.held entries) taken) :
    taken.Perm (clients.held.filter fun item => item.1 ∉ (clients.planReload entries).1) := by
  have whole := claimed.items.map Prod.fst
  rw [map_append, held_fst] at whole
  have apart := nodup_append.mp (whole.nodup_iff.mpr clients.handles_nodup)
  have stale : (clients.planReload entries).1 =
    (difference clients.held entries).1.map Prod.fst := rfl
  have parts := claimed.items.filter fun item => item.1 ∉ (clients.planReload entries).1
  rw [filter_append] at parts
  have all : taken.filter (fun item => item.1 ∉ (clients.planReload entries).1) = taken := by
    refine filter_eq_self.mpr fun item member => decide_eq_true fun isStale => ?_
    exact apart.2.2 item.1 (mem_map_of_mem member) item.1 isStale rfl
  have none_ : (difference clients.held entries).1.filter
      (fun item => item.1 ∉ (clients.planReload entries).1) = [] := by
    refine filter_eq_nil_iff.mpr fun item member => ?_
    have isStale : item.1 ∈ (clients.planReload entries).1 := mem_map_of_mem member
    simpa using isStale
  rwa [all, none_, append_nil] at parts

theorem kept_entries :
    (clients.kept entries).filterMap clients.entryOf =
      (clients.held.filter fun item => item.1 ∉ (clients.planReload entries).1).map Prod.snd := by
  have pairs : ∀ handles : List Nat,
      (handles.filter (· ∉ (clients.planReload entries).1)).filterMap clients.entryOf =
        ((handles.filterMap fun handle => (clients.device handle).map fun device =>
          (handle, configEntry device)).filter
            fun item => item.1 ∉ (clients.planReload entries).1).map Prod.snd := by
    intro handles
    induction handles with
    | nil => rfl
    | cons first rest ih =>
      cases found : clients.device first with
      | none =>
        have unread : clients.entryOf first = none := by rw [entryOf, found]; rfl
        rw [filterMap_cons_none (by rw [found]; rfl), ← ih, filter_cons]
        split
        · rw [filterMap_cons_none unread]
        · rfl
      | some device =>
        have read : clients.entryOf first = some (configEntry device) := by
          rw [entryOf, found]; rfl
        rw [filterMap_cons_some (by rw [found]; rfl), filter_cons, filter_cons]
        split
        · rw [filterMap_cons_some read, ih]
          rfl
        · exact ih
  exact pairs clients.handles

theorem kept_fresh :
    ((clients.kept entries).filterMap clients.entryOf ++ (clients.planReload entries).2).Perm
      entries := by
  obtain ⟨taken, claimed⟩ := difference_claimed clients.held entries
  rw [kept_entries]
  exact (((taken_perm claimed).symm.map Prod.snd).append_right _).trans claimed.entries

theorem stale_kept :
    ((clients.planReload entries).1 ++ clients.kept entries).Perm clients.handles := by
  obtain ⟨taken, claimed⟩ := difference_claimed clients.held entries
  have whole := claimed.items.map Prod.fst
  rw [map_append, held_fst] at whole
  have inside : ∀ handle ∈ (clients.planReload entries).1, handle ∈ clients.handles :=
    fun handle member => whole.subset (mem_append_right _ member)
  have stale := (nodup_append.mp (whole.nodup_iff.mpr clients.handles_nodup)).2.1
  have same : (clients.handles.filter (· ∈ (clients.planReload entries).1)).Perm
      (clients.planReload entries).1 := by
    refine (perm_ext_iff_of_nodup (clients.handles_nodup.filter _) stale).mpr fun handle => ?_
    rw [mem_filter, decide_eq_true_iff]
    exact ⟨And.right, fun member => ⟨inside handle member, member⟩⟩
  have split := filter_append_perm (fun handle => handle ∈ (clients.planReload entries).1)
    clients.handles
  refine (same.symm.append_right _).trans ?_
  refine (Perm.of_eq ?_).trans split
  rw [kept]
  congr 1
  exact filter_congr fun handle _ => by simp

end Plan

/-! ## Handles that were given out -/

/-- What is done to the devices. -/
inductive Act (Ip : Type) where
  | add (device : Device Ip)
  | remove (handle : Nat)
  | change (handle : Nat) (change : Device Ip → Device Ip)

def step (clients : ClientManager Ip) : Act Ip → ClientManager Ip
  | .add device => (clients.add device).2
  | .remove handle => clients.removeClient handle
  | .change handle change => clients.update handle change

def gives (taken : ClientManager Ip × Act Ip) : Option Nat :=
  match taken.2 with
  | .add device => some (taken.1.add device).1
  | _ => none

/-- Every handle that was given out, and every device's, is before the next one. -/
structure Older (given : List Nat) (clients : ClientManager Ip) : Prop where
  given : ∀ handle ∈ given, handle < clients.next
  devices : ∀ handle, (clients.device handle).isSome → handle < clients.next

theorem Older.step {given : List Nat} (older : Older given clients) (act : Act Ip) :
    Older (given ++ (gives (clients, act)).toList) (clients.step act) := by
  cases act with
  | add device =>
    constructor
    · intro handle member
      rcases mem_append.mp member with before | last
      · exact Nat.lt_succ_of_lt (older.given handle before)
      · rw [mem_singleton.mp last]
        exact Nat.lt_succ_self _
    · intro handle there
      rw [ClientManager.step, device_add] at there
      split at there
      · next same => exact same ▸ Nat.lt_succ_self _
      · exact Nat.lt_succ_of_lt (older.devices handle there)
  | remove gone =>
    have none_ : (gives (clients, .remove gone)).toList = [] := rfl
    rw [none_, append_nil]
    refine ⟨older.given, fun handle there => ?_⟩
    rw [ClientManager.step, device_removeClient] at there
    split at there
    · cases there
    · exact older.devices handle there
  | change changed change =>
    have none_ : (gives (clients, .change changed change)).toList = [] := rfl
    rw [none_, append_nil]
    refine ⟨older.given, fun handle there => ?_⟩
    rw [ClientManager.step, device_update] at there
    refine older.devices handle ?_
    split at there
    · rwa [Option.isSome_map] at there
    · exact there

theorem older_run (acts : List (Act Ip)) :
    Older ((trace step empty acts).filterMap gives) (acts.foldl step empty) := by
  induction acts using reverseRecOn with
  | nil => exact ⟨fun _ member => absurd member not_mem_nil, nofun⟩
  | append_singleton acts act ih =>
    have last : (trace step (acts.foldl step empty) [act]).filterMap gives =
        (gives (acts.foldl step empty, act)).toList := by
      cases act with
      | add device | remove handle | change handle change => rfl
    rw [trace_append, filterMap_append, foldl_concat, last]
    exact ih.step act

/-! ## After a reload -/

section Reload

variable [DecidableEq Ip] {clients : ClientManager Ip} {given : List Nat}

theorem entryOf_reload (older : Older given clients) (entries : List (ConfigClient Ip))
    (handle : Nat) :
    (clients.reload entries).entryOf handle =
      if handle < clients.next then
        if handle ∈ (clients.planReload entries).1 then none else clients.entryOf handle
      else (clients.planReload entries).2[handle - clients.next]? := by
  have removed : ((clients.planReload entries).1.foldl removeClient clients).entryOf handle =
      if handle ∈ (clients.planReload entries).1 then none else clients.entryOf handle := by
    rw [entryOf, device_removes]
    split
    · rfl
    · rfl
  rw [reload, entryOf_addAll, next_removes, removed]
  split
  · rfl
  · next later =>
    have gone : clients.device handle = none := by
      by_contra there
      exact later (older.devices handle (Option.isSome_iff_ne_none.mpr there))
    rw [entryOf, gone]
    simp

theorem held_reload (older : Older given clients) (entries : List (ConfigClient Ip)) :
    (clients.reload entries).held.Perm
      ((clients.held.filter fun item => item.1 ∉ (clients.planReload entries).1) ++
        ((clients.planReload entries).2.zipIdx clients.next).map Prod.swap) := by
  have before : ∀ {handle entry}, (handle, entry) ∈ clients.held → handle < clients.next := by
    intro handle entry member
    obtain ⟨device, found, -⟩ := Option.map_eq_some_iff.mp (mem_held.mp member)
    exact older.devices handle (by rw [found]; rfl)
  have added : ∀ {handle entry},
      (handle, entry) ∈ ((clients.planReload entries).2.zipIdx clients.next).map Prod.swap ↔
        clients.next ≤ handle ∧
          (clients.planReload entries).2[handle - clients.next]? = some entry := by
    intro handle entry
    rw [← mk_mem_zipIdx_iff_le_and_getElem?_sub, mem_map]
    constructor
    · rintro ⟨⟨other, at_⟩, member, same⟩
      cases same
      exact member
    · intro member
      exact ⟨(entry, handle), member, rfl⟩
  have once : (((clients.planReload entries).2.zipIdx clients.next).map Prod.swap).Nodup := by
    refine Nodup.of_map Prod.fst ?_
    rw [map_map, show Prod.fst ∘ Prod.swap = (Prod.snd : ConfigClient Ip × Nat → Nat) from rfl,
      zipIdx_map_snd]
    exact nodup_range' 1
  refine (perm_ext_iff_of_nodup (held_nodup _) (nodup_append.mpr
    ⟨clients.held_nodup.filter _, once, ?_⟩)).mpr ?_
  · intro first isKept second isAdded same
    subst same
    exact absurd (before (mem_filter.mp isKept).1) (Nat.not_lt.mpr (added.mp isAdded).1)
  · rintro ⟨handle, entry⟩
    rw [mem_held, entryOf_reload older, mem_append, mem_filter, mem_held, added,
      decide_eq_true_iff]
    by_cases old : handle < clients.next
    · rw [if_pos old]
      by_cases isStale : handle ∈ (clients.planReload entries).1
      · simp [isStale, old]
      · simp [isStale, old]
    · rw [if_neg old]
      have none_ : clients.entryOf handle ≠ some entry := fun found =>
        old (before (mem_held.mpr found))
      simp [none_, Nat.not_lt.mp old]

/-- The same file read again changes nothing. -/
theorem planReload_reload (older : Older given clients) (entries : List (ConfigClient Ip)) :
    (clients.reload entries).planReload entries = ([], []) := by
  have added : (((clients.planReload entries).2.zipIdx clients.next).map Prod.swap).map Prod.snd =
      (clients.planReload entries).2 := by
    rw [map_map, show Prod.snd ∘ Prod.swap = (Prod.fst : ConfigClient Ip × Nat → _) from rfl,
      zipIdx_map_fst]
  have same : ((clients.reload entries).held.map Prod.snd).Perm entries := by
    refine ((held_reload older entries).map Prod.snd).trans ?_
    rw [map_append, added, ← kept_entries]
    exact kept_fresh
  rw [planReload_eq, difference_same same]
  rfl

/-- How many devices of an entry are removed does not depend on the order of the entries. -/
theorem stale_count (entries : List (ConfigClient Ip)) (entry : ConfigClient Ip) :
    ((clients.planReload entries).1.filter fun handle =>
        clients.entryOf handle = some entry).length =
      (clients.handles.filter fun handle => clients.entryOf handle = some entry).length -
        entries.count entry := by
  have stale : ∀ items : List (Nat × ConfigClient Ip), (∀ item ∈ items, item ∈ clients.held) →
      ((items.map Prod.fst).filter fun handle => clients.entryOf handle = some entry).length =
        (items.map Prod.snd).count entry := by
    intro items inside
    induction items with
    | nil => rfl
    | cons item rest ih =>
      have here := mem_held.mp (inside item mem_cons_self)
      have later := ih fun other member => inside other (mem_cons_of_mem _ member)
      rw [map_cons, map_cons, filter_cons, count_cons, here]
      by_cases same : item.2 = entry
      · simp [same, later]
      · simp [same, later]
  obtain ⟨taken, claimed⟩ := difference_claimed clients.held entries
  have subset : ∀ item ∈ (difference clients.held entries).1, item ∈ clients.held :=
    fun item member => claimed.items.subset (mem_append_right _ member)
  have all := stale clients.held fun _ member => member
  rw [held_fst] at all
  rw [planReload_eq, stale _ subset, all]
  exact difference_count _ _ _

end Reload

/--
After any run, the entries kept and the entries added are those of the file and the
devices kept and those removed are the devices; how many devices of an entry are
removed does not depend on the order of the file; the same file read again changes
nothing; a device kept is left as it is, and one added has a handle never given out
before and reads as its entry.
-/
theorem reload_plan [DecidableEq Ip] (acts : List (Act Ip)) (entries : List (ConfigClient Ip)) :
    (((acts.foldl step empty).kept entries).filterMap (acts.foldl step empty).entryOf ++
      ((acts.foldl step empty).planReload entries).2).Perm entries ∧
    (((acts.foldl step empty).planReload entries).1 ++
      (acts.foldl step empty).kept entries).Perm (acts.foldl step empty).handles ∧
    (∀ others, others.Perm entries → ∀ entry,
      (((acts.foldl step empty).planReload others).1.filter fun handle =>
          (acts.foldl step empty).entryOf handle = some entry).length =
        (((acts.foldl step empty).planReload entries).1.filter fun handle =>
          (acts.foldl step empty).entryOf handle = some entry).length) ∧
    ((acts.foldl step empty).reload entries).planReload entries = ([], []) ∧
    (∀ handle ∈ (acts.foldl step empty).kept entries,
      ((acts.foldl step empty).reload entries).device handle =
        (acts.foldl step empty).device handle) ∧
    (∀ handle, (((acts.foldl step empty).reload entries).device handle).isSome →
      handle ∈ (acts.foldl step empty).kept entries ∨
        handle ∉ (trace step empty acts).filterMap gives ∧
          ((acts.foldl step empty).reload entries).entryOf handle =
            ((acts.foldl step empty).planReload entries).2[handle -
              (acts.foldl step empty).next]?) ∧
    ∀ entry : ConfigClient Ip,
      ((acts.foldl step empty).addWithConfig entry).2.entryOf
        ((acts.foldl step empty).addWithConfig entry).1 = some entry := by
  have older := older_run acts
  generalize acts.foldl step empty = clients at older ⊢
  generalize (trace step empty acts).filterMap gives = given at older ⊢
  refine ⟨kept_fresh, stale_kept, fun others same entry => ?_, planReload_reload older entries,
    fun handle isKept => ?_, fun handle there => ?_, fun entry => ?_⟩
  · rw [stale_count, stale_count, same.count_eq]
  · obtain ⟨member, stays⟩ := mem_filter.mp isKept
    have old := older.devices handle (mem_handles.mp member)
    rw [reload, device_addAll _ _ (by rwa [next_removes]), device_removes,
      if_neg (of_decide_eq_true stays)]
  · have reads := entryOf_reload older entries handle
    by_cases old : handle < clients.next
    · left
      rw [if_pos old] at reads
      obtain ⟨device, found⟩ := Option.isSome_iff_exists.mp there
      rw [entryOf, found] at reads
      split at reads
      · cases reads
      · next stays =>
        obtain ⟨before, isDevice, -⟩ := Option.map_eq_some_iff.mp reads.symm
        exact mem_filter.mpr ⟨mem_handles.mpr (by rw [isDevice]; rfl), decide_eq_true stays⟩
    · exact .inr ⟨fun was => old (older.given handle was), by rw [reads, if_neg old]⟩
  · rw [entryOf_addWithConfig]
    exact if_pos rfl

def named (hostname : String) : Device Nat := { Device.blank with hostname := some hostname }

/-- Two devices of one entry and a third. -/
def duplicated : List (Act Nat) := [.add (named "desk"), .add (named "desk"), .add (named "lap")]

/-- One of the two goes, whichever way round the file is, and the third stays. -/
theorem reload_plan_duplicated :
    (((duplicated.foldl step empty).planReload
        [configEntry (named "lap"), configEntry (named "desk")]).1.filter fun handle =>
      (duplicated.foldl step empty).entryOf handle = some (configEntry (named "desk"))).length =
      1 ∧
    ((duplicated.foldl step empty).reload
        [configEntry (named "desk"), configEntry (named "lap")]).device 2 =
      (duplicated.foldl step empty).device 2 := by
  have plan := reload_plan duplicated [configEntry (named "desk"), configEntry (named "lap")]
  refine ⟨(plan.2.2.1 _ (.swap _ _ []) _).trans ?_, plan.2.2.2.2.1 2 ?_⟩
  · decide
  · decide

end ClientManager

end HopsFormal.Edges
