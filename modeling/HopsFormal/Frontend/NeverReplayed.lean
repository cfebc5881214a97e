import HopsFormal.Frontend.Requests

/-!
# A request is never replayed

What was accepted is, in the order of the calls, what is settled, what is on its way
and what waits.  Nothing waits while no daemon is connected, so what waits was always
accepted on the connection that is up.
-/

namespace HopsFormal.Frontend

open List

namespace AppModel

variable {Addr : Type} [DecidableEq Addr]

theorem apply_connection (model : AppModel Addr) (event : FrontendEvent Addr) (now : Nat) :
    (model.apply event now).connected = model.connected ∧
      (model.apply event now).link = model.link := by
  have forgotten : ∀ (known : AppModel Addr) (fp : String),
      (known.forgetIfLastAddr fp).connected = known.connected ∧
        (known.forgetIfLastAddr fp).link = known.link := by
    intro known fp
    unfold forgetIfLastAddr
    split <;> exact ⟨rfl, rfl⟩
  have registered : ∀ (addr : Addr) (fp : String),
      (model.registerPeer addr fp).connected = model.connected ∧
        (model.registerPeer addr fp).link = model.link := by
    intro addr fp
    unfold registerPeer
    split
    · split
      · exact ⟨rfl, rfl⟩
      · exact forgotten _ _
    · exact ⟨rfl, rfl⟩
  cases event with
  | deviceConnected addr fp | deviceEntered fp addr => exact registered addr fp
  | incomingDisconnected addr =>
    rw [apply]
    split
    · exact forgotten _ _
    · exact ⟨rfl, rfl⟩
  | authorizedUpdated authorized | connectionAttempt fp origin addr
  | crossingRefused handle reason =>
    rw [apply]
    split <;> exact ⟨rfl, rfl⟩
  | _ => exact ⟨rfl, rfl⟩

end AppModel

namespace FrontendClient

variable {Addr Request : Type} {client : FrontendClient Addr Request}

/-- What was dropped with one connection. -/
def lostOn (client : FrontendClient Addr Request) (connection : Nat) :
    List (Accepted Request) :=
  client.lost.filter (·.connection = connection)

/-- How requests, answers, connections and reports stand to each other. -/
structure Kept (client : FrontendClient Addr Request) : Prop where
  linkIs : client.model.link = UInt64.ofNat client.past
  apart : client.loop = .apart → client.model.connected = false ∧ client.queue = []
  ledger : client.accepted = client.settled.map Prod.fst ++ client.pending
  inOrder : (client.accepted.map Accepted.number).Pairwise (· < ·)
  answered : ∀ number link, client.answers[number]? = some (some link) ↔
    ∃ entry ∈ client.accepted, entry.number = number ∧ entry.link = link
  linked : ∀ entry ∈ client.accepted, entry.link = UInt64.ofNat entry.connection
  here : ∀ entry ∈ client.pending, entry.connection = client.past
  writtenTo : ∀ entry connection, (entry, Fate.written connection) ∈ client.settled →
    entry.connection = connection ∧ connection ≤ client.past
  lostBefore : ∀ entry, (entry, Fate.lost) ∈ client.settled → entry.connection < client.past
  reported : ∀ connection, client.reports connection =
    if 0 < (client.lostOn connection).length then [(client.lostOn connection).length] else []

theorem kept_spawned : (spawned : FrontendClient Addr Request).Kept where
  linkIs := rfl
  apart _ := ⟨rfl, rfl⟩
  ledger := rfl
  inOrder := List.Pairwise.nil
  answered number link := by simp [spawned]
  linked := nofun
  here := nofun
  writtenTo := nofun
  lostBefore := nofun
  reported _ := rfl

theorem Kept.same_record (kept : client.Kept) {model : AppModel Addr}
    {loop : ConnectionLoop Request} {handles : Bool} (link : model.link = client.model.link)
    (apart : loop = .apart → model.connected = false ∧ client.queue = [])
    (inFlight : loop.inFlight = client.loop.inFlight) :
    Kept { client with model := model, loop := loop, handles := handles } where
  linkIs := link.trans kept.linkIs
  apart := apart
  ledger := by
    rw [pending, inFlight]
    exact kept.ledger
  inOrder := kept.inOrder
  answered := kept.answered
  linked := kept.linked
  here entry member := by
    rw [pending, inFlight] at member
    exact kept.here entry member
  writtenTo := kept.writtenTo
  lostBefore := kept.lostBefore
  reported := kept.reported

variable {entry : Accepted Request}

section

variable (kept : client.Kept)
include kept

/-- Every call that was taken has been answered by now. -/
theorem Kept.number_lt (member : entry ∈ client.accepted) :
    entry.number < client.answers.length := by
  have answer := (kept.answered entry.number entry.link).mpr ⟨entry, member, rfl, rfl⟩
  exact (List.getElem?_eq_some_iff.mp answer).1

theorem Kept.requestOn (request : Request) : (client.requestOn request).2.Kept := by
  by_cases up : (client.model.connected && client.loop.receives) = true
  · have connected := (Bool.and_eq_true_iff.mp up).1
    let entry : Accepted Request :=
      ⟨client.answers.length, client.past, client.model.link, request⟩
    rw [FrontendClient.requestOn, if_pos up]
    refine ⟨kept.linkIs, fun apart => ?_, ?_, ?_, fun number link => ?_, fun other member => ?_,
      fun other member => ?_, kept.writtenTo, kept.lostBefore, kept.reported⟩
    · rw [(kept.apart apart).1] at connected
      cases connected
    · change client.accepted ++ [entry] = _ ++ (client.loop.inFlight ++ (client.queue ++ [entry]))
      rw [kept.ledger, pending, append_assoc, append_assoc]
    · change ((client.accepted ++ [entry]).map Accepted.number).Pairwise (· < ·)
      rw [map_append, map_singleton, pairwise_append]
      refine ⟨kept.inOrder, pairwise_singleton _ _, fun number member last isLast => ?_⟩
      obtain ⟨other, inside, rfl⟩ := mem_map.mp member
      obtain rfl := mem_singleton.mp isLast
      exact kept.number_lt inside
    · change (client.answers ++ [some client.model.link])[number]? = _ ↔
        ∃ other ∈ client.accepted ++ [entry], _
      simp only [mem_append, mem_singleton, or_and_right, exists_or, exists_eq_left,
        ← kept.answered]
      rcases Nat.lt_trichotomy number client.answers.length with earlier | rfl | later
      · rw [getElem?_append_left earlier]
        refine ⟨.inl, fun either => either.elim id fun last => ?_⟩
        exact absurd last.1 (Nat.ne_of_gt earlier)
      · simp [entry]
      · rw [getElem?_eq_none (by simpa using Nat.succ_le_of_lt later),
          getElem?_eq_none later.le]
        simp [entry, later.ne]
    · rcases mem_append.mp member with before | last
      · exact kept.linked other before
      · obtain rfl := mem_singleton.mp last
        exact kept.linkIs
    · change other ∈ client.loop.inFlight ++ (client.queue ++ [entry]) at member
      rw [← append_assoc] at member
      rcases mem_append.mp member with before | last
      · exact kept.here other before
      · obtain rfl := mem_singleton.mp last
        rfl
  · rw [FrontendClient.requestOn, if_neg up]
    refine ⟨kept.linkIs, kept.apart, kept.ledger, kept.inOrder, fun number link => ?_,
      kept.linked, kept.here, kept.writtenTo, kept.lostBefore, fun connection => ?_⟩
    · rw [← kept.answered]
      rcases Nat.lt_or_ge number client.answers.length with earlier | later
      · rw [getElem?_append_left earlier]
      · rw [getElem?_append_right later, getElem?_eq_none later, getElem?_singleton]
        split <;> simp
    · refine Eq.trans ?_ (kept.reported connection)
      exact filterMap_append.trans (append_nil _)

theorem Kept.take (serving : client.loop = .serving) : client.take.Kept := by
  unfold FrontendClient.take
  split
  · next entry rest waits =>
    have same : ∀ list, client.pending = list ↔ client.queue = list := by
      intro list
      rw [pending, serving]
      rfl
    refine ⟨kept.linkIs, nofun, ?_, kept.inOrder, kept.answered, kept.linked, ?_,
      kept.writtenTo, kept.lostBefore, kept.reported⟩
    · rw [kept.ledger, (same _).mpr waits]
      rfl
    · have here := kept.here
      rw [(same _).mpr waits] at here
      exact here
  · split
    · exact kept
    · refine kept.same_record rfl nofun ?_
      rw [serving]
      rfl

/-- A request that was written leaves the pending ones, and is on its own connection. -/
theorem Kept.wrote (writing : client.loop = .writing entry) : Kept { client with
      loop := .serving
      settled := client.settled ++ [(entry, .written client.past)] } := by
  have pendingIs : client.pending = entry :: client.queue := by
    rw [pending, writing]
    rfl
  refine ⟨kept.linkIs, nofun, ?_, kept.inOrder, kept.answered, kept.linked, fun other member => ?_,
    fun other connection member => ?_, fun other member => ?_, fun connection => ?_⟩
  · change client.accepted = (client.settled ++ [(entry, _)]).map Prod.fst ++ client.queue
    rw [kept.ledger, pendingIs, map_append, append_assoc]
    rfl
  · refine kept.here other ?_
    rw [pendingIs]
    exact mem_cons_of_mem _ member
  · rcases mem_append.mp member with before | last
    · exact kept.writtenTo other connection before
    · cases mem_singleton.mp last
      refine ⟨kept.here entry ?_, le_rfl⟩
      rw [pendingIs]
      exact mem_cons_self
  · rcases mem_append.mp member with before | last
    · exact kept.lostBefore other before
    · cases mem_singleton.mp last
  · have same : ∀ loop, lostOn { client with
        loop := loop
        settled := client.settled ++ [(entry, .written client.past)] } connection =
          client.lostOn connection := by
      simp [lostOn, lost]
    rw [same]
    exact kept.reported connection

/-- At the end of a connection all that is pending is dropped, and the number is said. -/
theorem Kept.gone {unsent : Option (Accepted Request)} (ended : client.loop = .ended unsent) :
    (client.gone unsent).Kept := by
  have pendingIs : client.pending = unsent.toList ++ client.queue := by
    rw [pending, ended]
    rfl
  refine ⟨?_, fun _ => ⟨rfl, rfl⟩, ?_, kept.inOrder, kept.answered, kept.linked, nofun,
    fun other connection member => ?_, fun other member => ?_, fun connection => ?_⟩
  · change client.model.link + 1 = UInt64.ofNat (client.past + 1)
    rw [kept.linkIs, UInt64.ofNat_add]
    rfl
  · change client.accepted =
      (client.settled ++ (unsent.toList ++ client.queue).map _).map Prod.fst ++ []
    rw [kept.ledger, pendingIs, map_append, map_map, append_nil]
    congr 1
    exact (map_id _).symm
  · rcases mem_append.mp member with before | last
    · obtain ⟨same, bound⟩ := kept.writtenTo other connection before
      exact ⟨same, bound.trans (Nat.le_succ _)⟩
    · obtain ⟨_, -, equal⟩ := mem_map.mp last
      cases equal
  · rcases mem_append.mp member with before | last
    · exact (kept.lostBefore other before).trans (Nat.lt_succ_self _)
    · obtain ⟨_, inside, equal⟩ := mem_map.mp last
      cases equal
      rw [kept.here other (pendingIs ▸ inside)]
      exact Nat.lt_succ_self _
  · have dropped : (client.gone unsent).lostOn connection = client.lostOn connection ++
        client.pending.filter (·.connection = connection) := by
      simp [lostOn, lost, FrontendClient.gone, pendingIs, filter_map, Function.comp_def]
    have said : (client.gone unsent).reports connection = client.reports connection ++
        if 0 < client.pending.length ∧ client.past = connection then [client.pending.length]
        else [] := by
      simp only [reports, FrontendClient.gone, filterMap_append, pendingIs, length_append]
      by_cases any : 0 < unsent.toList.length + client.queue.length
      · by_cases this : client.past = connection
        · simp [any, this]
        · simp [any, this]
      · simp [any]
    rw [dropped, said, kept.reported]
    by_cases this : client.past = connection
    · have nothing : client.lostOn connection = [] := by
        refine eq_nil_iff_forall_not_mem.mpr fun entry member => ?_
        obtain ⟨inside, on⟩ := mem_filter.mp member
        obtain ⟨⟨_, fate⟩, isLost, rfl⟩ := mem_map.mp inside
        obtain ⟨settled, is⟩ := mem_filter.mp isLost
        obtain rfl : fate = .lost := of_decide_eq_true is
        have before := kept.lostBefore _ settled
        rw [this, of_decide_eq_true on] at before
        exact absurd before (Nat.lt_irrefl _)
      have all : client.pending.filter (·.connection = connection) = client.pending :=
        filter_eq_self.mpr fun entry member =>
          decide_eq_true ((kept.here entry member).trans this)
      simp [nothing, all, this]
    · have none : client.pending.filter (·.connection = connection) = [] :=
        filter_eq_nil_iff.mpr fun entry member on =>
          this ((kept.here entry member).symm.trans (of_decide_eq_true on))
      simp [none, this]

end

variable [DecidableEq Addr]

theorem Kept.step (kept : client.Kept) (act : Act Addr Request) : (client.step act).Kept := by
  unfold FrontendClient.step
  split
  · split
    · exact kept.requestOn _
    · exact kept
  · exact kept.same_record rfl kept.apart rfl
  · next apart => exact kept.same_record rfl nofun (by rw [apart]; rfl)
  · next syncing => exact kept.same_record rfl nofun (by rw [syncing]; rfl)
  · next event now serving =>
    refine kept.same_record (client.model.apply_connection event now).2 (fun apart => ?_) rfl
    rw [serving] at apart
    cases apart
  · next serving => exact kept.same_record rfl nofun (by rw [serving]; rfl)
  · next serving => exact kept.take serving
  · next writing => exact kept.wrote writing
  · next writing => exact kept.same_record rfl nofun (by rw [writing]; rfl)
  · next ended => exact kept.gone ended
  · exact kept

theorem kept_run (acts : List (Act Addr Request)) : (run acts).Kept := by
  induction acts using reverseRecOn with
  | nil => exact kept_spawned
  | append_singleton acts act ih =>
    rw [run, foldl_append]
    exact ih.step act

/-! ## What the record comes to -/

omit [DecidableEq Addr]

theorem mem_written {connection : Nat} : (entry, connection) ∈ client.written ↔
      (entry, Fate.written connection) ∈ client.settled := by
  rw [written, mem_filterMap]
  constructor
  · rintro ⟨⟨other, fate⟩, member, equal⟩
    cases fate with
    | written on =>
      cases equal
      exact member
    | lost => cases equal
  · exact fun member => ⟨_, member, rfl⟩

theorem mem_lost : entry ∈ client.lost ↔ (entry, Fate.lost) ∈ client.settled := by
  rw [lost, mem_map]
  constructor
  · rintro ⟨⟨other, fate⟩, member, rfl⟩
    obtain ⟨inside, is⟩ := mem_filter.mp member
    obtain rfl : fate = .lost := of_decide_eq_true is
    exact inside
  · exact fun member => ⟨_, mem_filter.mpr ⟨member, rfl⟩, rfl⟩

theorem written_sublist (settled : List (Accepted Request × Fate)) :
    ((settled.filterMap fun entry =>
      match entry.2 with
      | .written connection => some (entry.1, connection)
      | .lost => none).map Prod.fst).Sublist (settled.map Prod.fst) := by
  induction settled with
  | nil => exact Sublist.refl _
  | cons entry rest ih =>
    obtain ⟨taken, fate⟩ := entry
    cases fate with
    | written connection => exact ih.cons_cons taken
    | lost => exact ih.cons taken

section

variable (kept : client.Kept)
include kept

theorem Kept.sublist_inOrder {part : List (Accepted Request)}
    (sublist : part.Sublist (client.settled.map Prod.fst)) :
    (part.map Accepted.number).Pairwise (· < ·) := by
  refine kept.inOrder.sublist (Sublist.map _ ?_)
  rw [kept.ledger]
  exact sublist.trans (sublist_append_left _ _)

theorem Kept.accepted_nodup : client.accepted.Nodup :=
  Nodup.of_map Accepted.number (kept.inOrder.imp Nat.ne_of_lt)

/-- A request has one fate. -/
theorem Kept.settled_once {fate other : Fate} (member : (entry, fate) ∈ client.settled)
    (also : (entry, other) ∈ client.settled) : fate = other := by
  have nodup := kept.accepted_nodup
  rw [kept.ledger] at nodup
  have same := inj_on_of_nodup_map nodup.of_append_left member also rfl
  exact congrArg Prod.snd same

theorem Kept.not_pending {fate : Fate} (member : (entry, fate) ∈ client.settled) :
    entry ∉ client.pending := by
  have nodup := kept.accepted_nodup
  rw [kept.ledger] at nodup
  exact disjoint_of_nodup_append nodup (mem_map_of_mem member)

theorem Kept.of_accepted (member : entry ∈ client.accepted) :
    (entry, Fate.written entry.connection) ∈ client.settled ∨
      (entry, Fate.lost) ∈ client.settled ∨ entry ∈ client.pending := by
  rw [kept.ledger] at member
  rcases mem_append.mp member with inSettled | waits
  · obtain ⟨⟨other, fate⟩, settled, rfl⟩ := mem_map.mp inSettled
    cases fate with
    | written connection =>
      obtain ⟨rfl, -⟩ := kept.writtenTo other connection settled
      exact .inl settled
    | lost => exact .inr (.inl settled)
  · exact .inr (.inr waits)

end

/-- What holds of the requests made so far. -/
structure NeverReplayed (client : FrontendClient Addr Request) : Prop where
  /-- An answer with a link stands for one request, and it is the link of its connection. -/
  answered : ∀ number link, client.answers[number]? = some (some link) ↔
    ∃ entry ∈ client.accepted, entry.number = number ∧ entry.link = link
  linked : client.model.link = UInt64.ofNat client.past ∧
    ∀ entry ∈ client.accepted, entry.link = UInt64.ofNat entry.connection
  /-- What is written was accepted, and goes to the connection it was accepted on. -/
  own : ∀ entry connection, (entry, connection) ∈ client.written →
    entry ∈ client.accepted ∧ connection = entry.connection
  /-- Nothing is written twice, or out of the order of the calls. -/
  inOrder : (client.written.map (·.1.number)).Pairwise (· < ·)
  /-- What was refused is not written. -/
  refused : ∀ number, client.answers[number]? = some none →
    ∀ sent ∈ client.written, sent.1.number ≠ number
  /-- A connection that ended had each of its requests written or lost, not both. -/
  settled : ∀ entry ∈ client.accepted, entry.connection < client.past →
    Xor ((entry, entry.connection) ∈ client.written) (entry ∈ client.lostOn entry.connection)
  /-- On the connection that is up a request is written or pending, not both. -/
  current : ∀ entry ∈ client.accepted, ¬entry.connection < client.past →
    entry.connection = client.past ∧
      Xor ((entry, entry.connection) ∈ client.written) (entry ∈ client.pending)
  /-- What was lost is said once, as the number of different calls that were. -/
  counted : ∀ connection, ((client.lostOn connection).map Accepted.number).Pairwise (· < ·) ∧
    client.reports connection =
      if 0 < (client.lostOn connection).length then [(client.lostOn connection).length] else []
  /-- Nothing waits when a connection opens. -/
  fresh : client.loop = .apart → client.queue = []

theorem Kept.neverReplayed (kept : client.Kept) : client.NeverReplayed := by
  have isLost : ∀ entry, entry ∈ client.lostOn entry.connection ↔
      (entry, Fate.lost) ∈ client.settled := by
    intro entry
    rw [lostOn, mem_filter, mem_lost]
    simp
  have ofWritten : ∀ entry connection, (entry, connection) ∈ client.written →
      entry ∈ client.accepted ∧ connection = entry.connection := by
    intro entry connection member
    have settled := mem_written.mp member
    refine ⟨?_, (kept.writtenTo _ _ settled).1.symm⟩
    rw [kept.ledger]
    exact mem_append_left _ (mem_map_of_mem settled)
  refine ⟨kept.answered, ⟨kept.linkIs, kept.linked⟩, ofWritten, ?_, ?_, ?_, ?_, ?_,
    fun apart => (kept.apart apart).2⟩
  · have sorted := kept.sublist_inOrder (written_sublist client.settled)
    rwa [map_map] at sorted
  · rintro number none ⟨entry, connection⟩ member rfl
    have answer := (kept.answered _ _).mpr ⟨entry, (ofWritten _ _ member).1, rfl, rfl⟩
    rw [none] at answer
    cases answer
  · intro entry member before
    rw [isLost, mem_written]
    rcases kept.of_accepted member with settled | settled | waits
    · exact .inl ⟨settled, fun also => nomatch kept.settled_once settled also⟩
    · exact .inr ⟨settled, fun also => nomatch kept.settled_once settled also⟩
    · exact absurd (kept.here entry waits) before.ne
  · intro entry member notBefore
    rw [mem_written]
    rcases kept.of_accepted member with settled | settled | waits
    · have bound := (kept.writtenTo _ _ settled).2
      exact ⟨by omega, .inl ⟨settled, kept.not_pending settled⟩⟩
    · exact absurd (kept.lostBefore _ settled) notBefore
    · exact ⟨kept.here entry waits, .inr ⟨waits, fun settled => kept.not_pending settled waits⟩⟩
  · intro connection
    refine ⟨kept.sublist_inOrder ?_, kept.reported connection⟩
    exact filter_sublist.trans (filter_sublist.map _)

/--
In every run of calls and of the connection loop, a request that was answered with a link is
written to the connection of that link alone, at most once and in the order of the calls,
or counted once in what is said when that connection ends; and a request that was refused
is never written.
-/
theorem never_replayed [DecidableEq Addr] (acts : List (Act Addr Request)) :
    (run acts).NeverReplayed :=
  (kept_run acts).neverReplayed

end FrontendClient

end HopsFormal.Frontend
