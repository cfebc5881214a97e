import HopsFormal.Emulation.Listener
import HopsFormal.Emulation.Owners

/-!
# One connection at an address

While no connection is admitted at an address whose last one is still being
read, the list is the loops that run less the connections this machine closed,
an address is said to be closed exactly when its loop ends, and whatever the
emulation holds once everything is processed was pressed by a connection that is
still read.  With two connections at one address the loop that ends takes the
older one off the list, whichever of them it was.
-/

namespace HopsFormal.Emulation

open Capture (Event PointerEvent KeyboardEvent Held kind)
open List Lib Listener

variable {Addr F E : Type} [DecidableEq Addr]

namespace Listener

/-! ## The list -/

/-- The list is the running loops less the connections this machine closed. -/
structure Tidy (listener : Listener Addr F) : Prop where
  apart : (listener.loops.map Conn.addr).Nodup
  distinct : (listener.loops.map Conn.number).Nodup
  listed : listener.conns = listener.loops.filter (·.number ∉ listener.revoked)
  admitted : ∀ conn ∈ listener.loops, conn.number < listener.admitted
  closed : ∀ number ∈ listener.revoked, number < listener.admitted

variable {listener : Listener Addr F} {conn : Conn Addr}

section

omit [DecidableEq Addr]

/-- Only the list, the loops, the closed connections and the count matter for it. -/
theorem Tidy.congr {other : Listener Addr F} (tidy : Tidy listener)
    (conns : other.conns = listener.conns) (loops : other.loops = listener.loops)
    (revoked : other.revoked = listener.revoked) (admitted : other.admitted = listener.admitted) :
    Tidy other := by
  constructor
  · rw [loops]
    exact tidy.apart
  · rw [loops]
    exact tidy.distinct
  · rw [conns, loops, revoked]
    exact tidy.listed
  · rw [loops, admitted]
    exact tidy.admitted
  · rw [revoked, admitted]
    exact tidy.closed

theorem Tidy.post (tidy : Tidy listener) (author : Option Nat) (event : ListenEvent Addr F) :
    Tidy (listener.post author event) := by
  unfold Listener.post
  split
  · exact tidy.congr rfl rfl rfl rfl
  · exact tidy

theorem post_conns (listener : Listener Addr F) (author : Option Nat)
    (event : ListenEvent Addr F) : (listener.post author event).conns = listener.conns := by
  unfold post
  split <;> rfl

theorem post_withConns (listener : Listener Addr F) (author : Option Nat)
    (event : ListenEvent Addr F) (conns : List (Conn Addr)) :
    { listener.post author event with conns := conns } =
      { listener with conns := conns }.post author event := by
  unfold post
  split <;> rfl

end

theorem eraseP_addr {conns : List (Conn Addr)} (apart : (conns.map Conn.addr).Nodup)
    (addr : Addr) : conns.eraseP (·.addr = addr) = conns.filter (·.addr ≠ addr) := by
  induction conns with
  | nil => rfl
  | cons first rest ih =>
    obtain ⟨new, others⟩ := nodup_cons.mp apart
    by_cases same : first.addr = addr
    · have none_left : ∀ conn ∈ rest, conn.addr ≠ addr := by
        intro conn member equal
        exact new (mem_map.mpr ⟨conn, member, equal.trans same.symm⟩)
      rw [eraseP_cons_of_pos (by simpa using same),
        filter_cons_of_neg (by simpa using same), filter_eq_self.mpr]
      intro conn member
      simpa using none_left conn member
    · rw [eraseP_cons_of_neg (by simpa using same),
        filter_cons_of_pos (by simpa using same), ih others]

/-- Under one connection at an address, a loop that ends takes its own off the list. -/
theorem Tidy.eraseP (tidy : Tidy listener) (runs : conn ∈ listener.loops) :
    listener.conns.eraseP (·.addr = conn.addr) =
      (listener.loops.erase conn).filter (·.number ∉ listener.revoked) := by
  have listed : (listener.conns.map Conn.addr).Nodup := by
    rw [tidy.listed]
    exact tidy.apart.sublist (filter_sublist.map _)
  have own : listener.loops.erase conn = listener.loops.filter (·.addr ≠ conn.addr) := by
    rw [(tidy.apart.of_map _).erase_eq_filter]
    refine filter_congr fun other member => ?_
    have injective : other = conn ↔ other.addr = conn.addr :=
      ⟨congrArg _, inj_on_of_nodup_map tidy.apart member runs⟩
    by_cases same : other = conn
    · simp [same]
    · simp [same, mt injective.mpr same]
  rw [eraseP_addr listed, own, tidy.listed, filter_comm]

/-- Then no other connection of that address is listed. -/
theorem Tidy.none_left (tidy : Tidy listener) (addr : Addr) :
    (listener.conns.eraseP (·.addr = addr)).any (·.addr = addr) = false := by
  have listed : (listener.conns.map Conn.addr).Nodup := by
    rw [tidy.listed]
    exact tidy.apart.sublist (filter_sublist.map _)
  rw [eraseP_addr listed, any_eq_false]
  intro other member
  simpa using (mem_filter.mp member).2

/-- A loop that ends under one connection at an address closes the address. -/
theorem Tidy.finish_eq (tidy : Tidy listener) (runs : conn ∈ listener.loops) (removed : Bool) :
    listener.finish conn removed =
      let ended := { listener with
        conns := (listener.loops.erase conn).filter (·.number ∉ listener.revoked)
        loops := listener.loops.erase conn }
      (if removed then ended.post (some conn.number) (.removedBy conn.fingerprint) else ended).post
        (some conn.number) (.closed conn.addr) := by
  have none_left := tidy.none_left conn.addr
  have left := tidy.eraseP runs
  rw [left] at none_left
  simp only [finish, if_pos runs]
  cases removed with
  | false =>
    simp only [removeConn, Bool.false_eq_true, if_false, none_left, left]
  | true =>
    simp only [removeConn, if_true, post_conns, post_withConns, none_left, left,
      Bool.false_eq_true, if_false]

omit [DecidableEq Addr] in
theorem tidy_start (mayDriveUs : String → Bool) :
    Tidy (.start mayDriveUs : Listener Addr F) where
  apart := nodup_nil
  distinct := nodup_nil
  listed := rfl
  admitted _ member := by cases member
  closed _ member := by cases member

/-- A connection is admitted only when no loop of its address runs. -/
def Alone : Listener Addr F × Act Addr F → Prop
  | (listener, .admitPeer addr _) => ∀ conn ∈ listener.loops, conn.addr ≠ addr
  | _ => True

instance (taken : Listener Addr F × Act Addr F) : Decidable (Alone taken) :=
  match taken with
  | (_, .admitPeer _ _) => inferInstanceAs (Decidable (∀ _ ∈ _, _))
  | (_, .closeFingerprint _) => isTrue trivial
  | (_, .receive _ _) => isTrue trivial
  | (_, .finish _ _) => isTrue trivial
  | (_, .reject _ _) => isTrue trivial
  | (_, .deliver) => isTrue trivial
  | (_, .task _) => isTrue trivial

omit [DecidableEq Addr] in
theorem Tidy.admitPeer (tidy : Tidy listener) {addr : Addr} (fp : String)
    (alone : ∀ conn ∈ listener.loops, conn.addr ≠ addr) :
    Tidy (listener.admitPeer addr fp) := by
  refine Tidy.post ?_ _ _
  have fresh : listener.admitted ∉ listener.revoked := fun old =>
    Nat.lt_irrefl _ (tidy.closed _ old)
  constructor
  · rw [map_append, nodup_append]
    refine ⟨tidy.apart, nodup_singleton _, ?_⟩
    intro other member last added
    obtain ⟨conn, runs, rfl⟩ := mem_map.mp member
    rw [mem_singleton.mp added]
    exact alone conn runs
  · rw [map_append, nodup_append]
    refine ⟨tidy.distinct, nodup_singleton _, ?_⟩
    intro other member last added
    obtain ⟨conn, runs, rfl⟩ := mem_map.mp member
    rw [mem_singleton.mp added]
    exact Nat.ne_of_lt (tidy.admitted conn runs)
  · rw [filter_append, ← tidy.listed]
    simp [fresh]
  · intro conn member
    rcases mem_append.mp member with old | new
    · exact Nat.lt_succ_of_lt (tidy.admitted conn old)
    · rw [mem_singleton.mp new]
      exact Nat.lt_succ_self _
  · intro number old
    exact Nat.lt_succ_of_lt (tidy.closed number old)

omit [DecidableEq Addr] in
theorem Tidy.closeFingerprint (tidy : Tidy listener) (fp : String) :
    Tidy (listener.closeFingerprint fp) := by
  refine ⟨tidy.apart, tidy.distinct, ?_, tidy.admitted, ?_⟩
  · have closes : ∀ conn ∈ listener.loops, conn.number ∉ listener.revoked →
        (conn.number ∈ (listener.conns.filter (·.fingerprint = fp)).map Conn.number ↔
          conn.fingerprint = fp) := by
      intro conn runs open_
      have listed : conn ∈ listener.conns := by
        rw [tidy.listed]
        exact mem_filter.mpr ⟨runs, by simpa using open_⟩
      constructor
      · intro member
        obtain ⟨other, inside, same⟩ := mem_map.mp member
        obtain ⟨there, presented⟩ := mem_filter.mp inside
        rw [tidy.listed] at there
        have equal := inj_on_of_nodup_map tidy.distinct (mem_filter.mp there).1 runs same
        rw [← equal]
        simpa using presented
      · intro presented
        exact mem_map.mpr ⟨conn, mem_filter.mpr ⟨listed, by simpa using presented⟩, rfl⟩
    have before : listener.conns.filter (·.fingerprint ≠ fp) =
        listener.loops.filter fun conn =>
          decide (conn.fingerprint ≠ fp) && decide (conn.number ∉ listener.revoked) := by
      rw [tidy.listed, filter_filter]
    refine before.trans (filter_congr fun conn runs => ?_)
    rw [Bool.eq_iff_iff, Bool.and_eq_true, decide_eq_true_eq, decide_eq_true_eq, decide_eq_true_eq]
    by_cases gone : conn.number ∈ listener.revoked
    · simp [Listener.closeFingerprint, gone]
    · have iff := closes conn runs gone
      simp only [Listener.closeFingerprint, mem_append, iff, gone, false_or,
        not_false_eq_true, and_true]
  · intro number member
    rcases mem_append.mp member with old | new
    · exact tidy.closed number old
    · obtain ⟨conn, inside, rfl⟩ := mem_map.mp new
      have listed := (mem_filter.mp inside).1
      rw [tidy.listed] at listed
      exact tidy.admitted conn (mem_filter.mp listed).1

theorem Tidy.finish (tidy : Tidy listener) (conn : Conn Addr) (removed : Bool) :
    Tidy (listener.finish conn removed) := by
  by_cases runs : conn ∈ listener.loops
  · have ended : Tidy { listener with
        conns := (listener.loops.erase conn).filter (·.number ∉ listener.revoked)
        loops := listener.loops.erase conn } := by
      refine ⟨tidy.apart.sublist (erase_sublist.map _),
        tidy.distinct.sublist (erase_sublist.map _), rfl, ?_, tidy.closed⟩
      intro other member
      exact tidy.admitted other (mem_of_mem_erase member)
    rw [tidy.finish_eq runs]
    refine Tidy.post ?_ _ _
    split
    · exact ended.post _ _
    · exact ended
  · unfold Listener.finish
    rw [if_neg runs]
    exact tidy

variable [Add F] [Sub F] [Zero F] (answer : List (Call F) → Except E Unit)

theorem Tidy.step (tidy : Tidy listener) (taken : Act Addr F) (alone : Alone (listener, taken)) :
    Tidy (listener.step answer taken) := by
  cases taken with
  | admitPeer addr fingerprint => exact tidy.admitPeer fingerprint alone
  | closeFingerprint fingerprint => exact tidy.closeFingerprint fingerprint
  | receive conn message =>
    simp only [Listener.step, receive]
    split
    · exact tidy.post _ _
    · exact tidy
  | finish conn removed => exact tidy.finish conn removed
  | reject fingerprint addr => exact tidy.post _ _
  | deliver =>
    simp only [Listener.step, deliver]
    split
    · exact tidy
    · split
      · exact tidy.congr rfl rfl rfl rfl
      · exact tidy
  | task taken => cases taken <;> exact tidy.congr rfl rfl rfl rfl

/-! ## What is posted -/

/-- What an act posts while the listening task runs, under one connection at an address. -/
def posts (listener : Listener Addr F) : Act Addr F → List (Post Addr F)
  | .admitPeer addr fingerprint => [⟨some listener.admitted, .accept addr fingerprint⟩]
  | .receive conn message =>
    if conn ∈ listener.loops then [⟨some conn.number, .msg message conn.addr⟩] else []
  | .finish conn removed =>
    if conn ∈ listener.loops then
      (if removed then [⟨some conn.number, .removedBy conn.fingerprint⟩] else []) ++
        [⟨some conn.number, .closed conn.addr⟩]
    else []
  | .reject fingerprint addr => [⟨none, .rejected fingerprint addr⟩]
  | _ => []

section

omit [DecidableEq Addr] [Add F] [Sub F] [Zero F]

theorem post_posted (listener : Listener Addr F) (author : Option Nat)
    (event : ListenEvent Addr F) :
    (listener.post author event).posted =
      listener.posted ++ if listener.receiver.listening then [⟨author, event⟩] else [] := by
  unfold post
  split
  · rfl
  · exact (append_nil _).symm

theorem post_receiver (listener : Listener Addr F) (author : Option Nat)
    (event : ListenEvent Addr F) :
    (listener.post author event).receiver = listener.receiver := by
  unfold post
  split <;> rfl

end

theorem Tidy.step_posted (tidy : Tidy listener) (taken : Act Addr F) :
    (listener.step answer taken).posted =
      listener.posted ++ if listener.receiver.listening then listener.posts taken else [] := by
  cases taken with
  | admitPeer addr fingerprint | reject fingerprint addr => exact post_posted _ _ _
  | closeFingerprint fingerprint => simp [Listener.step, Listener.closeFingerprint, posts]
  | receive conn message =>
    simp only [Listener.step, receive, posts]
    split
    · exact post_posted _ _ _
    · simp
  | finish conn removed =>
    by_cases runs : conn ∈ listener.loops
    · simp only [Listener.step, tidy.finish_eq runs, posts, if_pos runs]
      rw [post_posted]
      cases removed with
      | false => simp
      | true =>
        simp only [if_true, post_receiver, post_posted]
        split <;> simp
    · simp only [Listener.step, Listener.finish, posts, if_neg runs]
      simp
  | deliver =>
    simp only [Listener.step, deliver, posts]
    split
    · simp
    · split <;> simp
  | task taken =>
    simp only [Listener.step, posts]
    cases taken <;> simp [turn]

omit [Add F] [Sub F] [Zero F] in
theorem Tidy.posts_closed (tidy : Tidy listener) (taken : Act Addr F) (addr : Addr) :
    (∃ post ∈ listener.posts taken, post.event = .closed addr) ↔
      ∃ conn removed, taken = .finish conn removed ∧ conn ∈ listener.loops ∧ conn.addr = addr ∧
        ∀ other ∈ listener.loops, other.addr = addr → other = conn := by
  constructor
  · rintro ⟨post, member, closes⟩
    cases taken with
    | admitPeer other fingerprint | reject fingerprint other =>
      cases mem_singleton.mp member
      cases closes
    | closeFingerprint fingerprint | deliver | task taken => cases member
    | receive conn message =>
      simp only [posts] at member
      split at member
      · cases mem_singleton.mp member
        cases closes
      · cases member
    | finish conn removed =>
      simp only [posts] at member
      split at member
      · rename_i runs
        rcases mem_append.mp member with told | last
        · split at told
          · cases mem_singleton.mp told
            cases closes
          · cases told
        · cases mem_singleton.mp last
          cases closes
          exact ⟨conn, removed, rfl, runs, rfl, fun other member same =>
            inj_on_of_nodup_map tidy.apart member runs same⟩
      · cases member
  · rintro ⟨conn, removed, rfl, runs, rfl, -⟩
    refine ⟨⟨some conn.number, .closed conn.addr⟩, ?_, rfl⟩
    simp only [posts, if_pos runs]
    exact mem_append_right _ mem_cons_self

/-! ## Who is still read -/

/-- A message is of a connection still read, or its address was closed after it. -/
def Read (listener : Listener Addr F) : Prop :=
  listener.receiver.listening = true → ∀ front post back message addr,
    listener.posted = front ++ post :: back → post.event = .msg message addr →
    (∃ conn ∈ listener.loops, post.author = some conn.number ∧ conn.addr = addr) ∨
      ∃ later ∈ back, later.event = .closed addr

omit [DecidableEq Addr] [Add F] [Sub F] [Zero F] in
theorem Read.grow {next : Listener Addr F} (read : Read listener)
    (awake : next.receiver.listening = true → listener.receiver.listening = true)
    {new : List (Post Addr F)} (posted : next.posted = listener.posted ++ new)
    (own : ∀ post ∈ new, ∀ message addr, post.event = .msg message addr →
      ∃ conn ∈ next.loops, post.author = some conn.number ∧ conn.addr = addr)
    (stays : ∀ conn ∈ listener.loops,
      conn ∈ next.loops ∨ ∃ later ∈ new, later.event = .closed conn.addr) : Read next := by
  intro listening front post back message addr split asks
  rw [posted] at split
  rcases append_eq_append_cons split with ⟨rest, inner, rfl⟩ | ⟨gap, -, inner⟩
  · rcases read (awake listening) front post rest message addr inner asks with
      ⟨conn, runs, author, rfl⟩ | ⟨later, member, closes⟩
    · rcases stays conn runs with still | ⟨later, member, closes⟩
      · exact .inl ⟨conn, still, author, rfl⟩
      · exact .inr ⟨later, mem_append_right _ member, closes⟩
    · exact .inr ⟨later, mem_append_left _ member, closes⟩
  · exact .inl (own post (by rw [inner]; simp) message addr asks)

theorem step_receiver (listener : Listener Addr F) (taken : Act Addr F) :
    (listener.step answer taken).receiver = listener.receiver ∨
      ∃ heard, (listener.step answer taken).receiver = listener.receiver.step answer heard := by
  cases taken with
  | admitPeer addr fingerprint | reject fingerprint addr => exact .inl (post_receiver _ _ _)
  | closeFingerprint fingerprint => exact .inl rfl
  | receive conn message =>
    left
    simp only [step, receive]
    split
    · exact post_receiver _ _ _
    · rfl
  | finish conn removed =>
    left
    simp only [step, finish, removeConn]
    split
    · split <;> split <;> simp only [post_receiver]
    · rfl
  | deliver =>
    simp only [step, deliver]
    split
    · exact .inl rfl
    · split
      · exact .inr ⟨_, rfl⟩
      · exact .inl rfl
  | task taken =>
    cases taken with
    | listen event listed => exact .inl rfl
    | _ => exact .inr ⟨_, rfl⟩

omit [DecidableEq Addr] [Add F] [Sub F] [Zero F] in
theorem post_loops (listener : Listener Addr F) (author : Option Nat)
    (event : ListenEvent Addr F) : (listener.post author event).loops = listener.loops := by
  unfold post
  split <;> rfl

theorem step_loops (listener : Listener Addr F) (taken : Act Addr F) {conn : Conn Addr}
    (runs : conn ∈ listener.loops) :
    conn ∈ (listener.step answer taken).loops ∨ ∃ removed, taken = .finish conn removed := by
  cases taken with
  | admitPeer addr fingerprint =>
    left
    simp only [step, admitPeer, post_loops]
    exact mem_append_left _ runs
  | closeFingerprint fingerprint => exact .inl runs
  | receive other message =>
    left
    simp only [step, receive]
    split
    · rw [post_loops]
      exact runs
    · exact runs
  | finish other removed =>
    by_cases same : conn = other
    · exact .inr ⟨removed, by rw [same]⟩
    · left
      simp only [step, finish, removeConn]
      split
      · split <;> split <;> simp only [post_loops] <;> exact (mem_erase_of_ne same).mpr runs
      · exact runs
  | reject fingerprint addr =>
    left
    simp only [step, post_loops]
    exact runs
  | deliver =>
    left
    simp only [step, deliver]
    split
    · exact runs
    · split <;> exact runs
  | task taken =>
    left
    cases taken <;> exact runs

theorem Read.step (read : Read listener) (tidy : Tidy listener) (taken : Act Addr F) :
    Read (listener.step answer taken) := by
  have woke : (listener.step answer taken).receiver.listening = true →
      listener.receiver.listening = true := by
    intro awake
    rcases step_receiver answer listener taken with same | ⟨heard, same⟩
    · rw [← same]
      exact awake
    · rw [same] at awake
      exact Receiver.step_awake answer awake
  intro awake
  have posted := tidy.step_posted answer taken
  rw [if_pos (woke awake)] at posted
  refine read.grow woke posted ?_ ?_ awake
  · intro post member message addr asks
    cases taken with
    | receive conn sent =>
      simp only [posts] at member
      split at member
      · rename_i runs
        cases mem_singleton.mp member
        cases asks
        refine ⟨conn, ?_, rfl, rfl⟩
        exact (step_loops answer listener (.receive conn message) runs).resolve_right (by simp)
      · cases member
    | finish conn removed =>
      simp only [posts] at member
      split at member
      · rcases mem_append.mp member with told | last
        · split at told
          · cases mem_singleton.mp told
            cases asks
          · cases told
        · cases mem_singleton.mp last
          cases asks
      · cases member
    | admitPeer other fingerprint | reject fingerprint other =>
      cases mem_singleton.mp member
      cases asks
    | closeFingerprint fingerprint | deliver | task taken => cases member
  · intro conn runs
    rcases step_loops answer listener taken runs with stays | ⟨removed, rfl⟩
    · exact .inl stays
    · right
      refine (tidy.posts_closed (.finish conn removed) conn.addr).mpr
        ⟨conn, removed, rfl, runs, rfl, fun other member same => ?_⟩
      exact inj_on_of_nodup_map tidy.apart member runs same

/-! ## Where a held key was pressed -/

/--
A press of the connection at an address was posted, and if the address was
closed after it then a teardown stands behind it or that closing is still on its
way.
-/
def Origin (posted channel : List (Post Addr F)) (addr : Addr) (held : Held) (torn : Prop) : Prop :=
  ∃ front post back event, posted = front ++ post :: back ∧
    post.event = .msg (.input event) addr ∧ kind (.input event) = .press held ∧
    ((∃ later ∈ back, later.event = .closed addr) →
      torn ∨ ∃ waits ∈ channel, waits.event = .closed addr)

section

omit [DecidableEq Addr] [Add F] [Sub F] [Zero F]

theorem Origin.mono (posted channel : List (Post Addr F)) (addr : Addr) (held : Held)
    (torn more : Prop) (weaker : torn → more) (origin : Origin posted channel addr held torn) :
    Origin posted channel addr held more := by
  obtain ⟨front, post, back, event, split, asks, presses, after⟩ := origin
  exact ⟨front, post, back, event, split, asks, presses, fun closed =>
    (after closed).imp_left weaker⟩

theorem Origin.post {posted channel : List (Post Addr F)} {addr : Addr} {held : Held}
    {torn : Prop} (origin : Origin posted channel addr held torn) (new : Post Addr F) :
    Origin (posted ++ [new]) (channel ++ [new]) addr held torn := by
  obtain ⟨front, post, back, event, split, asks, presses, after⟩ := origin
  refine ⟨front, post, back ++ [new], event, by rw [split]; simp, asks, presses, ?_⟩
  rintro ⟨later, member, closes⟩
  rcases mem_append.mp member with old | last
  · rcases after ⟨later, old, closes⟩ with behind | ⟨waits, waiting, closing⟩
    · exact .inl behind
    · exact .inr ⟨waits, mem_append_left _ waiting, closing⟩
  · exact .inr ⟨later, mem_append_right _ last, closes⟩

end

/-- Everything held or on its way was pressed as posted. -/
structure Traced (listener : Listener Addr F) : Prop where
  rest : ∃ heard, listener.posted = heard ++ listener.channel
  idle : listener.receiver.Idle
  kept : ∀ emulation, listener.receiver.phase = .running emulation → Kept emulation
  ending : listener.receiver.Ending
  owned : listener.receiver.Owned (Origin listener.posted listener.channel)

section

omit [Add F] [Sub F] [Zero F]

theorem Traced.congr {next : Listener Addr F} (traced : Traced listener)
    (posted : next.posted = listener.posted) (channel : next.channel = listener.channel)
    (receiver : next.receiver = listener.receiver) : Traced next := by
  constructor
  · rw [posted, channel]
    exact traced.rest
  · rw [receiver]
    exact traced.idle
  · rw [receiver]
    exact traced.kept
  · rw [receiver]
    exact traced.ending
  · rw [posted, channel, receiver]
    exact traced.owned

theorem Traced.post (traced : Traced listener) (author : Option Nat) (event : ListenEvent Addr F) :
    Traced (listener.post author event) := by
  unfold Listener.post
  split
  · obtain ⟨heard, rest⟩ := traced.rest
    refine ⟨⟨heard, by simp [rest]⟩, traced.idle, traced.kept, traced.ending, ?_, ?_⟩
    · intro addr front asked peer sources back held split presses
      exact (traced.owned.queued addr front asked peer sources back held split presses).post _
    · intro emulation handle held running lists
      obtain ⟨addr, owns, origin⟩ := traced.owned.listed emulation handle held running lists
      exact ⟨addr, owns, origin.post _⟩
  · exact traced

end

theorem Traced.turn (traced : Traced listener) {taken : Receiver.Act Addr F}
    (hears : ∀ event listed, taken ≠ .listen event listed) :
    Traced { listener with receiver := listener.receiver.step answer taken } where
  rest := traced.rest
  idle := traced.idle.step answer taken
  kept emulation running :=
    (Receiver.step_session answer listener.receiver taken).kept answer traced.kept running
  ending := traced.ending.step answer taken
  owned := by
    refine traced.owned.step (Origin.mono _ _) answer traced.idle traced.kept taken ?_
    rintro addr event held ⟨message, ⟨-, listed, told⟩, -⟩
    exact absurd told (hears _ _)

theorem Traced.deliver (traced : Traced listener) : Traced (listener.deliver answer) := by
  unfold Listener.deliver
  split
  · exact traced
  · rename_i next rest waiting
    split
    · rename_i awake
      generalize ((lookedUp next.event).any fun addr => (listener.replyTo addr).isSome) = listed
      obtain ⟨heard, whole⟩ := traced.rest
      rw [waiting] at whole
      have owned := traced.owned
      rw [waiting] at owned
      have stepped : (listener.receiver.step answer (.listen next.event listed)).Owned
          (Origin listener.posted (next :: rest)) := by
        refine owned.step (Origin.mono _ _) answer traced.idle traced.kept _ ?_
        rintro addr event held ⟨message, ⟨-, again, told⟩, asks⟩ presses
        cases asks with
        | motion time vx vy dx dy => cases presses
        | input event =>
          refine ⟨heard, next, rest, event, whole, (Receiver.Act.listen.inj told).1, presses, ?_⟩
          rintro ⟨later, member, closes⟩
          exact .inr ⟨later, mem_cons_of_mem _ member, closes⟩
      refine ⟨⟨heard ++ [next], by rw [whole]; simp⟩, traced.idle.step answer _,
        fun emulation running => (Receiver.step_session answer listener.receiver _).kept answer
          traced.kept running, traced.ending.step answer _, ?_⟩
      refine stepped.closing (fun addr => next.event = .closed addr) ?_ ?_
      · intro addr closes
        exact ⟨_, _, Receiver.parts_line answer (.inr (.inl ⟨awake, listed, by rw [closes]⟩))⟩
      · rintro addr held torn ⟨front, post, back, event, split, asks, presses, after⟩ closes
        refine ⟨front, post, back, event, split, asks, presses, fun later => ?_⟩
        rcases after later with behind | ⟨waits, member, closing⟩
        · exact .inl behind
        · rcases mem_cons.mp member with rfl | still
          · exact .inl (closes closing)
          · exact .inr ⟨waits, still, closing⟩
    · exact traced

theorem Traced.step (traced : Traced listener) (taken : Act Addr F) :
    Traced (listener.step answer taken) := by
  cases taken with
  | admitPeer addr fingerprint =>
    have listed : Traced { listener with
        conns := listener.conns ++ [⟨listener.admitted, addr, fingerprint⟩]
        loops := listener.loops ++ [⟨listener.admitted, addr, fingerprint⟩]
        admitted := listener.admitted + 1 } := traced.congr rfl rfl rfl
    exact listed.post _ _
  | closeFingerprint fingerprint => exact traced.congr rfl rfl rfl
  | receive conn message =>
    simp only [Listener.step, receive]
    split
    · exact traced.post _ _
    · exact traced
  | finish conn removed =>
    simp only [Listener.step, Listener.finish, removeConn]
    split
    · have ended : Traced { listener with loops := listener.loops.erase conn } :=
        traced.congr rfl rfl rfl
      have told : Traced (if removed = true then
          { listener with loops := listener.loops.erase conn }.post (some conn.number)
            (.removedBy conn.fingerprint)
          else { listener with loops := listener.loops.erase conn }) := by
        split
        · exact ended.post _ _
        · exact ended
      generalize (if removed = true then _ else _ : Listener Addr F) = now at told ⊢
      have forgot : Traced { now with conns := now.conns.eraseP (·.addr = conn.addr) } :=
        told.congr rfl rfl rfl
      split
      · exact forgot
      · exact forgot.post _ _
    · exact traced
  | reject fingerprint addr => exact traced.post _ _
  | deliver => exact traced.deliver answer
  | task taken =>
    cases taken with
    | listen event listed => exact traced
    | _ => exact traced.turn answer (by simp)

/-! ## Every run -/

omit [Add F] [Sub F] [Zero F] in
theorem traced_start (mayDriveUs : String → Bool) :
    Traced (.start mayDriveUs : Listener Addr F) where
  rest := ⟨[], rfl⟩
  idle _ _ := rfl
  kept _ running := by cases running
  ending ended := by cases ended
  owned := by
    constructor
    case queued =>
      intro addr front event peer sources back held split presses
      cases front <;> cases split
    case listed =>
      intro emulation handle held running
      cases running

theorem run_alone (mayDriveUs : String → Bool) {acts : List (Act Addr F)}
    (alone : ∀ taken ∈ trace (step answer) (.start mayDriveUs) acts, Alone taken) :
    Tidy (run answer mayDriveUs acts) ∧ Read (run answer mayDriveUs acts) ∧
      Traced (run answer mayDriveUs acts) := by
  induction acts using reverseRecOn with
  | nil =>
    refine ⟨tidy_start mayDriveUs, ?_, traced_start mayDriveUs⟩
    intro awake front post back message addr split
    cases front <;> cases split
  | append_singleton acts taken ih =>
    rw [trace_append] at alone
    obtain ⟨tidy, read, traced⟩ := ih fun before member =>
      alone before (mem_append_left _ member)
    have now : Alone (run answer mayDriveUs acts, taken) :=
      alone _ (mem_append_right _ mem_cons_self)
    rw [run, foldl_append]
    exact ⟨tidy.step answer taken now, read.step answer tidy taken, traced.step answer taken⟩

/-- Nothing waits anywhere between a read loop and the backend. -/
def Processed (listener : Listener Addr F) : Prop :=
  listener.channel = [] ∧ listener.receiver.requests = [] ∧
    ∀ addr, listener.receiver.queued.waiting addr = []

omit [Add F] [Sub F] [Zero F] in
theorem Traced.held (traced : Traced listener) (read : Read listener)
    (processed : Processed listener) {emulation : InputEmulation F} {handle : Handle} {held : Held}
    (running : listener.receiver.phase = .running emulation) (lists : Lists emulation handle held) :
    ∃ conn ∈ listener.loops, listener.receiver.handles.lookup conn.addr = some handle ∧
      ∃ post ∈ listener.posted, ∃ event, post.author = some conn.number ∧
        post.event = .msg (.input event) conn.addr ∧ kind (.input event) = .press held := by
  obtain ⟨nothing, taken, served⟩ := processed
  have awake : listener.receiver.listening = true := by
    by_contra asleep
    rcases (traced.ending (by simpa using asleep)).2 with stopped | told
    · cases stopped.symm.trans running
    · rw [taken] at told
      cases told
  obtain ⟨addr, owns, front, post, back, event, split, asks, presses, after⟩ :=
    traced.owned.listed emulation handle held running lists
  rcases read awake front post back (.input event) addr split asks with
    ⟨conn, runs, author, rfl⟩ | closed
  · exact ⟨conn, runs, owns, post, by rw [split]; simp, event, author, asks, presses⟩
  · rcases after closed with ⟨asked, waits⟩ | ⟨waits, member, -⟩
    · rw [Receiver.line, served, taken] at waits
      cases waits
    · rw [nothing] at member
      cases member

/--
While connections at one address do not overlap: every connection still read is
closed with its fingerprint, and it is listed, and the one replies to its address
reach, unless this machine closed it already; an address is said to be closed
exactly when the last loop of it that runs ends; and once everything is processed
whatever the emulation holds was pressed by a connection still read.
-/
theorem none_lost_while_alone (mayDriveUs : String → Bool) (acts : List (Act Addr F))
    (alone : ∀ taken ∈ trace (step answer) (.start mayDriveUs) acts, Alone taken) :
    let listener := run answer mayDriveUs acts
    (∀ conn ∈ listener.loops,
      conn.number ∈ (listener.closeFingerprint conn.fingerprint).revoked ∧
      (conn ∈ listener.conns ↔ conn.number ∉ listener.revoked) ∧
      (listener.replyTo conn.addr = some conn ↔ conn.number ∉ listener.revoked)) ∧
    (∀ taken, ∃ new, (listener.step answer taken).posted = listener.posted ++ new ∧
      ∀ addr, (∃ post ∈ new, post.event = .closed addr) ↔
        listener.receiver.listening = true ∧ ∃ conn removed, taken = .finish conn removed ∧
          conn ∈ listener.loops ∧ conn.addr = addr ∧
          ∀ other ∈ listener.loops, other.addr = addr → other = conn) ∧
    (Processed listener → ∀ emulation handle held,
      listener.receiver.phase = .running emulation → Lists emulation handle held →
      ∃ conn ∈ listener.loops, listener.receiver.handles.lookup conn.addr = some handle ∧
        ∃ post ∈ listener.posted, ∃ event, post.author = some conn.number ∧
          post.event = .msg (.input event) conn.addr ∧ kind (.input event) = .press held) := by
  intro listener
  obtain ⟨tidy, read, traced⟩ : Tidy listener ∧ Read listener ∧ Traced listener :=
    run_alone answer mayDriveUs alone
  refine ⟨?_, ?_, ?_⟩
  · intro conn runs
    have listed : conn ∈ listener.conns ↔ conn.number ∉ listener.revoked := by
      rw [tidy.listed, mem_filter, decide_eq_true_eq]
      exact and_iff_right runs
    refine ⟨?_, listed, fun reached => listed.mp (mem_of_find?_eq_some reached), ?_⟩
    · by_cases spared : conn.number ∈ listener.revoked
      · exact mem_append_left _ spared
      · refine mem_append_right _ (mem_map.mpr ⟨conn, ?_, rfl⟩)
        exact mem_filter.mpr ⟨listed.mpr spared, by simp⟩
    · intro spared
      have found : (listener.replyTo conn.addr).isSome := by
        rw [replyTo, find?_isSome]
        exact ⟨conn, listed.mpr spared, by simp⟩
      obtain ⟨other, reached⟩ := Option.isSome_iff_exists.mp found
      have there := mem_of_find?_eq_some reached
      have same : other.addr = conn.addr := by simpa using find?_some reached
      rw [tidy.listed] at there
      rw [reached, inj_on_of_nodup_map tidy.apart (mem_filter.mp there).1 runs same]
  · intro taken
    refine ⟨_, tidy.step_posted answer taken, fun addr => ?_⟩
    rw [← tidy.posts_closed taken addr]
    cases awake : listener.receiver.listening with
    | true | false => simp
  · intro processed emulation handle held running lists
    exact traced.held read processed running lists

/--
Two connections press a key each and a third is closed with its fingerprint; one of
the two ends, and another is admitted from its address.
-/
def typing : List (Act Nat Int) :=
  [.task (.start .machine), .task .notice, .admitPeer 7 "peer", .admitPeer 8 "guest",
    .admitPeer 9 "other", .receive ⟨0, 7, "peer"⟩ .enter, .receive ⟨2, 9, "other"⟩ .enter,
    .receive ⟨0, 7, "peer"⟩ (.input (.keyboard (.key 0 30 1))),
    .receive ⟨2, 9, "other"⟩ (.input (.keyboard (.key 0 31 1))), .closeFingerprint "guest",
    .finish ⟨2, 9, "other"⟩ false, .admitPeer 9 "other"] ++
  replicate 9 .deliver ++ replicate 3 (.task (.take .inserted)) ++
  replicate 3 (.task (.serve .inserted))

/-- The key of the connection still read is all that is held; the one closed is off the list. -/
theorem none_lost_while_alone_typing :
    let answer : List (Call Int) → Except Unit Unit := fun _ => .ok ()
    let listener := run answer (fun _ => true) typing
    (∀ taken ∈ trace (step answer) (.start fun _ => true) typing, Alone taken) ∧
      (∃ emulation, listener.receiver.phase = .running emulation ∧
        Lists emulation 0 (.key 30) ∧ ¬ Lists emulation 1 (.key 31) ∧
        ∃ conn ∈ listener.loops, listener.receiver.handles.lookup conn.addr = some 0) ∧
      (⟨1, 8, "guest"⟩ : Conn Nat) ∉ listener.conns ∧
      listener.replyTo 9 = some ⟨3, 9, "other"⟩ := by
  have alone : ∀ taken ∈ trace (step fun _ => (.ok () : Except Unit Unit)) (.start fun _ => true)
      typing, Alone taken := by
    decide
  obtain ⟨listed, -, held⟩ := none_lost_while_alone _ (fun _ => true) typing alone
  dsimp only
  generalize settled : run _ (fun _ => true) typing = listener at listed held ⊢
  have loops : listener.loops = [⟨0, 7, "peer"⟩, ⟨1, 8, "guest"⟩, ⟨3, 9, "other"⟩] := by
    rw [← settled]
    rfl
  have revoked : listener.revoked = [1] := by
    rw [← settled]
    rfl
  have processed : Processed listener := by
    rw [← settled]
    exact ⟨rfl, rfl, fun _ => rfl⟩
  obtain ⟨emulation, running, lists, gone⟩ : ∃ emulation,
      listener.receiver.phase = .running emulation ∧ Lists emulation 0 (.key 30) ∧
        ¬ Lists emulation 1 (.key 31) := by
    rw [← settled]
    exact ⟨_, rfl, mem_cons_self, not_mem_nil⟩
  obtain ⟨conn, runs, owns, -⟩ := held processed emulation 0 (.key 30) running lists
  rw [loops, revoked] at listed
  refine ⟨alone, ⟨emulation, running, lists, gone, conn, runs, owns⟩, ?_, ?_⟩
  · intro kept
    exact (listed ⟨1, 8, "guest"⟩ (by decide)).2.1.mp kept (by decide)
  · exact (listed ⟨3, 9, "other"⟩ (by decide)).2.2.mpr (by decide)

def newerFirst : List (Act Nat Int) :=
  [.admitPeer 7 "peer", .admitPeer 7 "peer", .finish ⟨1, 7, "peer"⟩ false]

/-- The older connection is still read, off the list, and outlives its fingerprint's closing. -/
theorem newer_ends_first :
    let listener : Listener Nat Int :=
      run (fun _ => (.ok () : Except Unit Unit)) (fun _ => true) newerFirst
    (⟨0, 7, "peer"⟩ : Conn Nat) ∈ listener.loops ∧ listener.revoked = [] ∧
      (⟨0, 7, "peer"⟩ : Conn Nat) ∉ listener.conns ∧
      0 ∉ (listener.closeFingerprint "peer").revoked := by
  decide

end Listener

end HopsFormal.Emulation
