import HopsFormal.Trust.Spelling
import HopsFormal.Trust.RoundTrip

/-!
# Time, and leases that lapse

Enforcement time is the reading or the floor, whichever is later, and only
what records a reading moves the floor.  A lease whose window ended by some
enforcement time grants nothing from then on until it is granted again, and a
sweep that carries the floor past its end reports it, once.
-/

namespace HopsFormal.Trust

open List

/-- What is done with the store, or with a handle on its clock. -/
inductive Call where
  | verb (verb : Verb)
  | observe (reading : Nat)

def Call.IsClock : Call → Prop
  | .verb (.sweep _) | .verb (.forgetLongLapsed _) | .observe _ => True
  | _ => False

def Call.recorded : Call → Option Nat
  | .verb (.sweep reading) | .verb (.forgetLongLapsed reading) | .observe reading => some reading
  | _ => none

namespace TrustStore

section Calls

variable [Lowercase]

/-- The leases a call reports as lapsed, and the store it leaves. -/
def call (store : TrustStore) : Call → List Lease × TrustStore
  | .verb (.sweep reading) => store.sweep reading
  | .verb verb => ([], store.step verb)
  | .observe reading => ([], store.observe reading)

/-- Everything a run of calls reports, in order, and the store it leaves. -/
def callAll (store : TrustStore) : List Call → List Lease × TrustStore
  | [] => ([], store)
  | call :: rest =>
    let (reported, next) := store.call call
    let (later, last) := next.callAll rest
    (reported ++ later, last)

theorem call_verb (store : TrustStore) (verb : Verb) :
    (store.call (.verb verb)).2 = store.step verb := by
  cases verb <;> rfl

theorem callAll_append (store : TrustStore) (first rest : List Call) :
    store.callAll (first ++ rest) =
      ((store.callAll first).1 ++ ((store.callAll first).2.callAll rest).1,
        ((store.callAll first).2.callAll rest).2) := by
  induction first generalizing store with
  | nil => rfl
  | cons call first ih => simp only [cons_append, callAll, ih, append_assoc]

/-! ## One call -/

variable {store : TrustStore} {fp : String} {instant : Nat}

theorem Formed.call (formed : Formed store) (call : Call) : Formed (store.call call).2 := by
  cases call with
  | verb verb =>
    rw [call_verb]
    exact formed.step verb
  | observe reading => exact ⟨formed.held, formed.lease, formed.listed, formed.apart⟩

theorem Formed.callAll {store : TrustStore} (formed : Formed store) (calls : List Call) :
    Formed (store.callAll calls).2 := by
  induction calls generalizing store with
  | nil => exact formed
  | cons call rest ih => exact ih (formed.call call)

theorem Formed.call_floor (formed : Formed store) (call : Call) :
    store.clock.floor ≤ (store.call call).2.clock.floor := by
  cases call with
  | verb verb =>
    rw [call_verb]
    exact (formed.step_effect verb).floor_le
  | observe reading => exact le_max_left _ _

theorem Formed.callAll_floor (formed : Formed store) (calls : List Call) :
    store.clock.floor ≤ (store.callAll calls).2.clock.floor := by
  induction calls generalizing store with
  | nil => exact le_refl _
  | cons call rest ih => exact (formed.call_floor call).trans (ih (formed.call call))

/-! ## A lease that has lapsed -/

/-- The call may give a machine a lease with a window of its own. -/
def Revives (fp : String) : Call → Prop
  | .verb verb => MayRecord fp verb ∨
      ∃ reading fingerprint, verb = .renew reading fingerprint ∧ key fingerprint = fp
  | .observe _ => False

theorem Formed.call_expiry (formed : Formed store) {call : Call} (unrevived : ¬ Revives fp call)
    {lease : Lease} (found : (store.call call).2.leaseAt fp = some lease) :
    ∃ before, store.leaseAt fp = some before ∧ lease.expiry = before.expiry := by
  cases call with
  | observe reading => exact ⟨lease, found, rfl⟩
  | verb verb =>
    rw [call_verb] at found
    rcases (formed.step_effect verb).leaves found with before | leaves
    · exact ⟨lease, before, rfl⟩
    · cases leaves with
      | approved made spelled coherent accepted =>
        exact absurd (.inl (.inl ⟨_, made, spelled⟩)) unrevived
      | admitted passed accepted =>
        obtain ⟨peer, issuedTo, spelled, _, _, _, _, rfl⟩ := Lease.canonicalized_ok.mp passed
        exact absurd (.inl (.inr ⟨_, rfl, spelled⟩)) unrevived
      | renewed before => exact absurd (.inr ⟨_, _, rfl, rfl⟩) unrevived
      | narrowed before left | clipboardOn before | clipboardOff before | labelled before
      | confirmed before accepted => exact ⟨_, before, rfl⟩

/-- Nothing is held for the machine but what had lapsed by the instant. -/
def Lapsed (store : TrustStore) (fp : String) (instant : Nat) : Prop :=
  ∀ lease, store.leaseAt fp = some lease → lease.lapsedBy instant = true

theorem Formed.call_lapsed (formed : Formed store) {call : Call} (lapsed : store.Lapsed fp instant)
    (unrevived : ¬ Revives fp call) : (store.call call).2.Lapsed fp instant := by
  intro lease found
  obtain ⟨before, held, same⟩ := formed.call_expiry unrevived found
  have ended := lapsed before held
  unfold Lease.lapsedBy at ended ⊢
  rw [same]
  exact ended

theorem Formed.callAll_lapsed (formed : Formed store) {calls : List Call}
    (lapsed : store.Lapsed fp instant) (unrevived : ∀ call ∈ calls, ¬ Revives fp call) :
    (store.callAll calls).2.Lapsed fp instant := by
  induction calls generalizing store with
  | nil => exact lapsed
  | cons call rest ih =>
    apply ih (formed.call call)
    · exact formed.call_lapsed lapsed (unrevived call mem_cons_self)
    · intro later member
      exact unrevived later (mem_cons_of_mem call member)

theorem Lapsed.grants_nothing {fp : String} {reading : Nat}
    (lapsed : store.Lapsed (key fp) instant) (reached : instant ≤ store.now reading) :
    store.capabilities reading fp = .none := by
  rw [capabilities, capabilitiesAt_eq]
  cases found : store.leaseAt (key fp) with
  | none => rfl
  | some lease =>
    by_contra grants
    obtain ⟨_, _, valid, _⟩ := effectiveCapabilities_some grants
    have ended := lapsed lease found
    unfold Lease.lapsedBy at ended
    unfold Lease.isValidAt at valid
    cases expiry : lease.expiry with
    | never => simp [expiry] at ended
    | at_ notAfter =>
      simp only [expiry, decide_eq_true_eq, Bool.and_eq_true] at ended valid
      omega

end Calls

/-! ## What a sweep reports -/

theorem values_eq {β : Type} (map : Std.ExtTreeMap String β) :
    map.values = map.toList.map Prod.snd := by
  obtain ⟨inner⟩ := map
  induction inner using Std.ExtDTreeMap.inductionOn with
  | _ tree =>
    change tree.inner.values = (Std.DTreeMap.Internal.Impl.Const.toList tree.inner).map Prod.snd
    rw [Std.DTreeMap.Internal.Impl.values_eq_map_snd,
      Std.DTreeMap.Internal.Impl.Const.toList_eq_toListModel_map]
    simp [Function.comp_def]

/-- The leases held, in the order of their machines. -/
def leases (store : TrustStore) : List Lease := store.entries.values.filterMap Entry.lease

theorem leases_eq (store : TrustStore) :
    store.leases = store.entries.toList.filterMap fun record => record.2.lease := by
  rw [leases, values_eq, filterMap_map]
  rfl

variable {store : TrustStore} {lease : Lease}

theorem mem_leases {fp : String} (held : store.leaseAt fp = some lease) : lease ∈ store.leases := by
  obtain ⟨entry, found, carries⟩ := Option.bind_eq_some_iff.mp held
  rw [leases_eq, mem_filterMap]
  exact ⟨(fp, entry), Std.ExtTreeMap.mem_toList_iff_getElem?_eq_some.mpr found, carries⟩

theorem Formed.nodup_leases (formed : Formed store) : store.leases.Nodup := by
  rw [leases_eq]
  have peers : ∀ record ∈ store.entries.toList, ∀ lease, record.2.lease = some lease →
      lease.peer = record.1 := by
    intro record member lease carries
    have found := Std.ExtTreeMap.mem_toList_iff_getElem?_eq_some.mp member
    exact (formed.lease record.1 lease ((leaseAt_of_entry found).trans carries)).peer
  apply List.Nodup.of_map Lease.peer
  have distinct := nodup_keys store.entries
  generalize store.entries.toList = records at peers distinct ⊢
  induction records with
  | nil => exact nodup_nil
  | cons record rest ih =>
    rw [map_cons, nodup_cons] at distinct
    have later := ih (fun other member => peers other (mem_cons_of_mem _ member)) distinct.2
    cases carries : record.2.lease with
    | none => simpa only [filterMap_cons, carries] using later
    | some lease =>
      simp only [filterMap_cons, carries, map_cons, nodup_cons]
      refine ⟨?_, later⟩
      intro again
      obtain ⟨other, isLease, samePeer⟩ := mem_map.mp again
      obtain ⟨holder, member, holds⟩ := mem_filterMap.mp isLease
      apply distinct.1
      rw [← peers record mem_cons_self lease carries, ← samePeer,
        peers holder (mem_cons_of_mem _ member) other holds]
      exact mem_map_of_mem member

/-- A lease is in one report at most once. -/
theorem Formed.sweep_count_le (formed : Formed store) (reading : Nat) (lease : Lease) :
    (store.sweep reading).1.count lease ≤ 1 :=
  nodup_iff_count_le_one.mp (formed.nodup_leases.filter _) lease

theorem sweep_count_lapsed (store : TrustStore) (reading : Nat)
    (lapsed : lease.lapsedBy store.clock.floor = true) :
    (store.sweep reading).1.count lease = 0 := by
  apply count_eq_zero_of_not_mem
  intro reported
  have kept := (mem_filter.mp reported).2
  simp [lapsed] at kept

/-- What is not over by the reading is in no report. -/
theorem sweep_count_valid (store : TrustStore) {reading : Nat}
    (valid : lease.lapsedBy (store.clock.observe reading).floor = false) :
    (store.sweep reading).1.count lease = 0 := by
  apply count_eq_zero_of_not_mem
  intro reported
  have kept := (mem_filter.mp reported).2
  simp [valid] at kept

theorem Formed.sweep_reports (formed : Formed store) {reading : Nat} {fp : String}
    (held : store.leaseAt fp = some lease) (before : lease.lapsedBy store.clock.floor = false)
    (after : lease.lapsedBy (store.clock.observe reading).floor = true) :
    (store.sweep reading).1.count lease = 1 := by
  apply count_eq_one_of_mem (formed.nodup_leases.filter _)
  apply mem_filter.mpr
  exact ⟨mem_leases held, by simp [before, after]⟩

theorem lapsedBy_mono {early late : Nat} (lapsed : lease.lapsedBy early = true)
    (order : early ≤ late) : lease.lapsedBy late = true := by
  unfold Lease.lapsedBy at lapsed ⊢
  cases expiry : lease.expiry with
  | never => simp [expiry] at lapsed
  | at_ notAfter =>
    simp only [expiry, decide_eq_true_eq] at lapsed ⊢
    omega

section Reported

variable [Lowercase] {lease : Lease} {store : TrustStore} {fp : String} {notAfter : Nat}

theorem call_count_lapsed (store : TrustStore) (call : Call)
    (lapsed : lease.lapsedBy store.clock.floor = true) : (store.call call).1.count lease = 0 := by
  cases call with
  | observe reading => rfl
  | verb verb =>
    cases verb with
    | sweep reading => exact store.sweep_count_lapsed reading lapsed
    | _ => rfl

theorem Formed.callAll_count_lapsed (formed : Formed store) (calls : List Call)
    (lapsed : lease.lapsedBy store.clock.floor = true) :
    (store.callAll calls).1.count lease = 0 := by
  induction calls generalizing store with
  | nil => rfl
  | cons call rest ih =>
    simp only [TrustStore.callAll, count_append]
    rw [store.call_count_lapsed call lapsed,
      ih (formed.call call) (lapsedBy_mono lapsed (formed.call_floor call))]

theorem Formed.call_count (formed : Formed store) (call : Call) (lease : Lease) :
    (store.call call).1.count lease = 0 ∨
      (store.call call).1.count lease = 1 ∧
        lease.lapsedBy (store.call call).2.clock.floor = true := by
  cases call with
  | observe reading => exact .inl rfl
  | verb verb =>
    cases verb with
    | sweep reading =>
      cases lapsed : lease.lapsedBy (store.clock.observe reading).floor with
      | false => exact .inl (store.sweep_count_valid lapsed)
      | true =>
        have atMost := formed.sweep_count_le reading lease
        rcases Nat.le_one_iff_eq_zero_or_eq_one.mp atMost with none | one
        · exact .inl none
        · exact .inr ⟨one, lapsed⟩
    | _ => exact .inl rfl

theorem Formed.callAll_count_le (formed : Formed store) (calls : List Call) (lease : Lease) :
    (store.callAll calls).1.count lease ≤ 1 := by
  induction calls generalizing store with
  | nil => exact Nat.zero_le 1
  | cons call rest ih =>
    simp only [TrustStore.callAll, count_append]
    rcases formed.call_count call lease with none | ⟨one, lapsed⟩
    · rw [none, Nat.zero_add]
      exact ih (formed.call call)
    · rw [one, (formed.call call).callAll_count_lapsed rest lapsed]

/-- The call looks at the clock, which has not come to the end of the window yet. -/
def Early (notAfter : Nat) (call : Call) : Prop :=
  call.IsClock ∧ ∀ reading, call.recorded = some reading → reading < notAfter

theorem call_early (held : store.leaseAt fp = some lease) (expiry : lease.expiry = .at_ notAfter)
    (open_ : store.clock.floor < notAfter) {call : Call} (early : Early notAfter call) :
    (store.call call).1.count lease = 0 ∧ (store.call call).2.leaseAt fp = some lease ∧
      (store.call call).2.clock.floor < notAfter := by
  have unlapsed : ∀ instant, instant < notAfter → lease.lapsedBy instant = false := by
    intro instant before
    simp only [Lease.lapsedBy, expiry, decide_eq_false_iff_not]
    omega
  cases call with
  | observe reading =>
    have reached := early.2 reading rfl
    exact ⟨rfl, held, max_lt open_ reached⟩
  | verb verb =>
    cases verb with
    | sweep reading =>
      have floor : (store.clock.observe reading).floor < notAfter :=
        max_lt open_ (early.2 reading rfl)
      exact ⟨store.sweep_count_valid (unlapsed _ floor), held, floor⟩
    | forgetLongLapsed reading =>
      have floor : (store.clock.observe reading).floor < notAfter :=
        max_lt open_ (early.2 reading rfl)
      refine ⟨rfl, ?_, floor⟩
      rcases (store.forgetLongLapsed_prunes reading).leaseAt fp with
        same | ⟨_, other, found, lapsed⟩
      · exact same.trans held
      · obtain rfl := Option.some.inj (held.symm.trans found)
        rw [unlapsed _ floor] at lapsed
        cases lapsed
    | _ => exact absurd early.1 id

theorem callAll_early (held : store.leaseAt fp = some lease) (expiry : lease.expiry = .at_ notAfter)
    (open_ : store.clock.floor < notAfter) {calls : List Call}
    (early : ∀ call ∈ calls, Early notAfter call) :
    (store.callAll calls).1.count lease = 0 ∧ (store.callAll calls).2.leaseAt fp = some lease ∧
      (store.callAll calls).2.clock.floor < notAfter := by
  induction calls generalizing store with
  | nil => exact ⟨rfl, held, open_⟩
  | cons call rest ih =>
    obtain ⟨unreported, stillHeld, stillOpen⟩ :=
      call_early held expiry open_ (early call mem_cons_self)
    obtain ⟨later, lastHeld, lastOpen⟩ := ih stillHeld stillOpen
      fun other member => early other (mem_cons_of_mem call member)
    refine ⟨?_, lastHeld, lastOpen⟩
    simp only [TrustStore.callAll, count_append]
    rw [unreported, later]

theorem Formed.reported_once (formed : Formed store) (held : store.leaseAt fp = some lease)
    (expiry : lease.expiry = .at_ notAfter) (open_ : store.clock.floor < notAfter)
    {before : List Call} (early : ∀ call ∈ before, Early notAfter call) {reading : Nat}
    (reached : notAfter ≤ reading) (after : List Call) :
    (store.callAll (before ++ .verb (.sweep reading) :: after)).1.count lease = 1 := by
  obtain ⟨unreported, stillHeld, stillOpen⟩ := callAll_early held expiry open_ early
  have formedThen := formed.callAll before
  rw [callAll_append]
  generalize (store.callAll before).2 = store at stillHeld stillOpen formedThen
  have lapsed : lease.lapsedBy (store.clock.observe reading).floor = true := by
    simp only [Lease.lapsedBy, expiry, decide_eq_true_eq]
    exact reached.trans (le_max_right _ _)
  have unlapsed : lease.lapsedBy store.clock.floor = false := by
    simp only [Lease.lapsedBy, expiry, decide_eq_false_iff_not]
    omega
  have now : (store.call (.verb (.sweep reading))).1.count lease = 1 :=
    formedThen.sweep_reports stillHeld unlapsed lapsed
  have never : ((store.call (.verb (.sweep reading))).2.callAll after).1.count lease = 0 :=
    (formedThen.call (.verb (.sweep reading))).callAll_count_lapsed after lapsed
  simp only [TrustStore.callAll, count_append]
  rw [unreported, now, never]

/--
In every run of calls: the floor never moves back, no enforcement time falls
below it, and readings in order give times in order.  What lapsed by an
enforcement time grants nothing at that time or later until it is granted
again.  No lease is reported twice, and one whose end a sweep carries the floor
past is reported.
-/
theorem expiry_is_one_way {ours : String} {floor : Nat} {start : TrustStore}
    (made : new ours floor = .ok start) (history : List Call) :
    let store := (start.callAll history).2
    (∀ calls reading again, store.clock.floor ≤ (store.callAll calls).2.clock.floor ∧
      store.clock.floor ≤ (store.callAll calls).2.now again ∧
      (reading ≤ again → store.now reading ≤ (store.callAll calls).2.now again)) ∧
    (∀ fingerprint reading calls again, store.Lapsed (key fingerprint) (store.now reading) →
      (∀ call ∈ calls, ¬ Revives (key fingerprint) call) →
      store.now reading ≤ (store.callAll calls).2.now again →
      (store.callAll calls).2.capabilities again fingerprint = .none) ∧
    (∀ lease calls, (store.callAll calls).1.count lease ≤ 1) ∧
    ∀ fp lease notAfter before reading after, store.leaseAt fp = some lease →
      lease.expiry = .at_ notAfter → store.clock.floor < notAfter →
      (∀ call ∈ before, Early notAfter call) → notAfter ≤ reading →
      (store.callAll (before ++ .verb (.sweep reading) :: after)).1.count lease = 1 := by
  have formed := (formed_new made).callAll history
  refine ⟨?_, ?_, ?_, ?_⟩
  · intro calls reading again
    have climbs := formed.callAll_floor calls
    refine ⟨climbs, climbs.trans (le_max_right _ _), ?_⟩
    intro order
    exact max_le_max order climbs
  · intro fingerprint reading calls again lapsed unrevived reached
    exact (formed.callAll_lapsed lapsed unrevived).grants_nothing reached
  · intro lease calls
    exact formed.callAll_count_le calls lease
  · intro fp lease notAfter before reading after held expiry open_ early reached
    exact formed.reported_once held expiry open_ early reached after

end Reported

/-! ## A lease that ends -/

/-- A record of a confirmed pairing that ends after a thousand seconds. -/
def endingLease (ours fp : String) : Lease :=
  { recordedLease ours fp 0 true with expiry := .at_ 1000 }

theorem endingLease_admitted [Lowercase] (store : TrustStore) {fp : String}
    (valid : validFingerprint fp = true) :
    store.step (.admitLease (endingLease store.ours fp)) =
      store.record (endingLease store.ours fp) := by
  have admissible : Admissible (endingLease store.ours fp) :=
    ⟨valid, store.valid, (by decide : sanitizeLabel "" = ""),
      (by decide : 0 < 1000 ∧ 1000 - 0 ≤ maxTermSecs), trivial,
      (by decide : Caps.driveMe.isEmpty = false)⟩
  have accepted := admitLease_ok.mpr ⟨_, Lease.canonicalized_self.mpr admissible, rfl, rfl⟩
  simp only [step, accepted, unlessRefused]

/-- The machine `machineA` with a record of `machineB` that ends. -/
def endingStore : TrustStore := freshStore.record (endingLease freshStore.ours machineB)

theorem callAll_one [Lowercase] (store : TrustStore) (verb : Verb) :
    (store.callAll [.verb verb]).2 = store.step verb :=
  store.call_verb verb

/-- The record of `machineB` is read into an empty store. -/
def endingHistory : List Call := [.verb (.admitLease (endingLease freshStore.ours machineB))]

theorem endingStore_reached :
    (@callAll asciiLowercase freshStore endingHistory).2 = endingStore := by
  rw [endingHistory, @callAll_one asciiLowercase]
  exact @endingLease_admitted asciiLowercase freshStore machineB machineB_valid

theorem endingStore_leaseAt :
    endingStore.leaseAt machineB = some (endingLease freshStore.ours machineB) := by
  simp [endingStore, endingLease, recordedLease]

/-- The clock is looked at before the end, and swept past it twice. -/
theorem expiry_is_one_way_swept :
    letI := asciiLowercase
    ((freshStore.callAll endingHistory).2.callAll
      [.observe 500, .verb (.sweep 1000), .verb (.sweep 2000)]).1.count
        (endingLease freshStore.ours machineB) = 1 := by
  have made := @new_of_valid asciiLowercase machineA machineA_valid 0
  have facts := @expiry_is_one_way asciiLowercase machineA 0 freshStore made endingHistory
  have early : ∀ call ∈ [Call.observe 500], Early 1000 call := by
    simp [Early, Call.IsClock, Call.recorded]
  have held : (@callAll asciiLowercase freshStore endingHistory).2.leaseAt machineB =
      some (endingLease freshStore.ours machineB) := by
    rw [endingStore_reached]
    exact endingStore_leaseAt
  have open_ : (@callAll asciiLowercase freshStore endingHistory).2.clock.floor < 1000 := by
    rw [endingStore_reached]
    decide
  exact facts.2.2.2 machineB _ 1000 [.observe 500] 1000 [.verb (.sweep 2000)] held rfl open_
    early (by decide)

/--
A reading behind an earlier one is an earlier enforcement time, at which a
lease that had lapsed grants again, and no sweep reports a lease whose end
something else carried the floor past.
-/
theorem unrecorded_time_moves_back :
    letI := asciiLowercase
    (freshStore.callAll endingHistory).2 = endingStore ∧
      endingStore.now 500 < endingStore.now 1000 ∧
      endingStore.capabilities 1000 machineB = .none ∧
      endingStore.capabilities 500 machineB ≠ .none ∧
      (endingStore.callAll [.observe 1000, .verb (.sweep 2000)]).1.count
        (endingLease freshStore.ours machineB) = 0 ∧
      (endingStore.callAll [.verb (.forgetLongLapsed 1000), .verb (.sweep 2000)]).1.count
        (endingLease freshStore.ours machineB) = 0 := by
  have lapsed : (endingLease freshStore.ours machineB).lapsedBy 1000 = true := by decide
  have known : @key asciiLowercase machineB = machineB :=
    @key_of_valid asciiLowercase machineB machineB_valid
  refine ⟨endingStore_reached, by decide, ?_, ?_, ?_, ?_⟩
  · simp only [capabilities, capabilitiesAt_eq, known, endingStore_leaseAt]
    decide
  · simp only [capabilities, capabilitiesAt_eq, known, endingStore_leaseAt]
    decide
  · simp only [callAll, call, nil_append, append_nil]
    exact sweep_count_lapsed _ 2000 lapsed
  · simp only [callAll, call, step, nil_append, append_nil]
    exact sweep_count_lapsed _ 2000 lapsed

end TrustStore

end HopsFormal.Trust
