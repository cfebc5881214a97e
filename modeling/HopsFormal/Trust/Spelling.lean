import HopsFormal.Trust.Authority
import HopsFormal.Trust.Persistence
import Mathlib.Data.List.Forall2

/-!
# A machine is the same in every spelling

Everything the store is asked or told about a machine goes through one spelling
of its fingerprint.  Two runs whose fingerprints differ in letter case and in
surrounding whitespace only leave the same store behind and get the same
answers, but for the words a refusal quotes back.
-/

namespace HopsFormal.Trust

variable [Lowercase]

/-- Two texts that differ in letter case and surrounding whitespace only. -/
def Respells (first second : String) : Prop :=
  Lowercase.toLowercase (trim first) = Lowercase.toLowercase (trim second)

theorem key_eq (fp : String) :
    key fp = Lowercase.toLowercase (trim fp) := by
  unfold key canonicalFingerprint
  dsimp only
  split <;> rfl

variable {first second : String}

theorem Respells.key (respells : Respells first second) : key first = key second := by
  rw [key_eq, key_eq]
  exact respells

theorem Respells.canonical (respells : Respells first second) :
    canonicalFingerprint first = canonicalFingerprint second := by
  unfold canonicalFingerprint
  rw [respells]

theorem respells_of_ascii (plain : (trim first).toList.all (fun c => c.toNat < 128) = true)
    (other : (trim second).toList.all (fun c => c.toNat < 128) = true)
    (same : (trim first).toList.map Char.toLower = (trim second).toList.map Char.toLower) :
    Respells first second := by
  have low : ∀ {text : List Char}, text.all (fun c => c.toNat < 128) = true →
      ∀ c ∈ text, c.toNat < 128 := by
    intro text below c member
    simpa using List.all_eq_true.mp below c member
  unfold Respells
  rw [Lowercase.ascii _ (low plain), Lowercase.ascii _ (low other), same]

/-! ## What the store is asked -/

/-- The last two weeks of a lease. -/
def renewWindowSecs : Nat := 14 * 86400

/-- Still valid, and close to lapsing. -/
def Lease.isExpiring (lease : Lease) (now : Nat) : Bool :=
  lease.isValidAt now &&
    match lease.expiry with
    | .never => false
    | .at_ notAfter => notAfter - now ≤ renewWindowSecs

namespace TrustStore

variable (store : TrustStore)

/-- Whether a machine holds every capability asked for, and something is asked. -/
def permits (reading : Nat) (fingerprint : String) (want : Caps) : Bool :=
  !(want.isEmpty || Caps.fromBitsTruncating want.bits ≠ want) &&
    (store.capabilities reading fingerprint).contains want

/-- Whether a pairing here waits for its number in a direction. -/
def awaits (reading : Nat) (fingerprint : String) (drive : Caps) : Bool :=
  !drive.isEmpty &&
    store.entries[key fingerprint]?.any fun entry =>
      (awaitingConfirmation entry store.ours (store.now reading)).contains drive

def isKnown (fingerprint : String) : Bool :=
  store.entries.contains (key fingerprint)

def hasLiveLease (reading : Nat) (fingerprint : String) : Bool :=
  !(store.capabilities reading fingerprint).isEmpty

def pairedNotToDrive (fingerprint : String) : Bool :=
  (store.lease fingerprint).any fun lease => !lease.caps.contains .iMayDrive

def isExpiring (reading : Nat) (fingerprint : String) : Bool :=
  (store.lease fingerprint).any fun lease => lease.isExpiring (store.now reading)

end TrustStore

/-- The questions asked of the store, each about one machine. -/
inductive Question where
  | capabilities (reading : Nat)
  | permits (reading : Nat) (want : Caps)
  | awaits (reading : Nat) (drive : Caps)
  | isPairing (reading : Nat)
  | isKnown
  | hasLiveLease (reading : Nat)
  | label
  | lease
  | isExpiring (reading : Nat)
  | pairedNotToDrive
  | toPairAgain

/-- Whatever is done with the store. -/
inductive Operation where
  | verb (verb : Verb)
  | ask (question : Question) (fingerprint : String)

/-- What an operation gives back. -/
inductive Answer where
  | done (result : Except TrustError Unit)
  | caps (caps : Option Caps)
  | switched (changed : Option Bool)
  | yes (answer : Bool)
  | lapsed (leases : List Lease)
  | count (gone : Nat)
  | migrated (report : MigrationReport)
  | label (label : Option String)
  | lease (lease : Option Lease)
  | listed (listing : Option PairAgain)

namespace TrustStore

variable (store : TrustStore)

/-- What a verb gives back. -/
def answer : Verb → Answer
  | .issue reading fingerprint label caps =>
    .done ((store.issue reading fingerprint label caps).map fun _ => ())
  | .issueWithOrigin reading fingerprint label caps origin =>
    .done ((store.issueWithOrigin reading fingerprint label caps origin).map fun _ => ())
  | .issueAnswered reading fingerprint label controller clipboard =>
    .done ((store.issueAnswered reading fingerprint label controller clipboard).map fun _ => ())
  | .renew reading fingerprint => .done ((store.renew reading fingerprint).map fun _ => ())
  | .dropCapabilities fingerprint drop => .caps (store.dropCapabilities fingerprint drop).1
  | .enableClipboard reading fingerprint =>
    .switched (store.enableClipboard reading fingerprint).1
  | .disableClipboard fingerprint => .switched (store.disableClipboard fingerprint).1
  | .setLabel fingerprint label => .done ((store.setLabel fingerprint label).map fun _ => ())
  | .confirm fingerprint => .done ((store.confirm fingerprint).map fun _ => ())
  | .admitLease lease => .done ((store.admitLease lease).map fun _ => ())
  | .forget fingerprint => .yes (store.forget fingerprint).1
  | .forgetUnconfirmed fingerprint => .yes (store.forgetUnconfirmed fingerprint).1
  | .sweep reading => .lapsed (store.sweep reading).1
  | .forgetLongLapsed reading => .count (store.forgetLongLapsed reading).1
  | .listToPairAgain fingerprint label since =>
    .done ((store.listToPairAgain fingerprint label since).map fun _ => ())
  | .migrateFromConfig authorized revoked now =>
    .migrated (store.migrateFromConfig authorized revoked now).1

def reply (fingerprint : String) : Question → Answer
  | .capabilities reading => .caps (some (store.capabilities reading fingerprint))
  | .permits reading want => .yes (store.permits reading fingerprint want)
  | .awaits reading drive => .yes (store.awaits reading fingerprint drive)
  | .isPairing reading => .yes (store.isPairing reading fingerprint)
  | .isKnown => .yes (store.isKnown fingerprint)
  | .hasLiveLease reading => .yes (store.hasLiveLease reading fingerprint)
  | .label => .label (store.label fingerprint)
  | .lease => .lease (store.lease fingerprint)
  | .isExpiring reading => .yes (store.isExpiring reading fingerprint)
  | .pairedNotToDrive => .yes (store.pairedNotToDrive fingerprint)
  | .toPairAgain => .listed (store.toPairAgain fingerprint)

/-- The answer to an operation, and the store it leaves. -/
def operate : Operation → Answer × TrustStore
  | .verb verb => (store.answer verb, store.step verb)
  | .ask question fingerprint => (store.reply fingerprint question, store)

/-- The answers of a run, and the store it ends with. -/
def operateAll (store : TrustStore) : List Operation → List Answer × TrustStore
  | [] => ([], store)
  | operation :: rest =>
    let (answer, next) := store.operate operation
    let (answers, last) := next.operateAll rest
    (answer :: answers, last)

end TrustStore

/-! ## Two spellings of one operation -/

/-- A verb with other spellings of the machines it names. -/
inductive Verb.Respelled : Verb → Verb → Prop where
  | issue {first second : String} (respells : Respells first second) (reading : Nat)
      (label : String) (caps : Caps) :
      Verb.Respelled (.issue reading first label caps) (.issue reading second label caps)
  | issueWithOrigin {first second : String} (respells : Respells first second) (reading : Nat)
      (label : String) (caps : Caps) (origin : Origin) :
      Verb.Respelled (.issueWithOrigin reading first label caps origin)
        (.issueWithOrigin reading second label caps origin)
  | issueAnswered {first second : String} (respells : Respells first second) (reading : Nat)
      (label : String) (controller : Controller) (clipboard : Bool) :
      Verb.Respelled (.issueAnswered reading first label controller clipboard)
        (.issueAnswered reading second label controller clipboard)
  | renew {first second : String} (respells : Respells first second) (reading : Nat) :
      Verb.Respelled (.renew reading first) (.renew reading second)
  | dropCapabilities {first second : String} (respells : Respells first second) (drop : Caps) :
      Verb.Respelled (.dropCapabilities first drop) (.dropCapabilities second drop)
  | enableClipboard {first second : String} (respells : Respells first second) (reading : Nat) :
      Verb.Respelled (.enableClipboard reading first) (.enableClipboard reading second)
  | disableClipboard {first second : String} (respells : Respells first second) :
      Verb.Respelled (.disableClipboard first) (.disableClipboard second)
  | setLabel {first second : String} (respells : Respells first second) (label : String) :
      Verb.Respelled (.setLabel first label) (.setLabel second label)
  | confirm {first second : String} (respells : Respells first second) :
      Verb.Respelled (.confirm first) (.confirm second)
  | admitLease {lease other : Lease} (peer : Respells lease.peer other.peer)
      (issuedTo : Respells lease.issuedTo other.issuedTo)
      (rest : other = { lease with peer := other.peer, issuedTo := other.issuedTo }) :
      Verb.Respelled (.admitLease lease) (.admitLease other)
  | forget {first second : String} (respells : Respells first second) :
      Verb.Respelled (.forget first) (.forget second)
  | forgetUnconfirmed {first second : String} (respells : Respells first second) :
      Verb.Respelled (.forgetUnconfirmed first) (.forgetUnconfirmed second)
  | sweep (reading : Nat) : Verb.Respelled (.sweep reading) (.sweep reading)
  | forgetLongLapsed (reading : Nat) :
      Verb.Respelled (.forgetLongLapsed reading) (.forgetLongLapsed reading)
  | listToPairAgain {first second : String} (respells : Respells first second) (label : String)
      (since : Nat) :
      Verb.Respelled (.listToPairAgain first label since) (.listToPairAgain second label since)
  | migrateFromConfig {authorized others : List (String × String)} {revoked removed : List String}
      (entries : List.Forall₂ (fun entry other => Respells entry.1 other.1 ∧ entry.2 = other.2)
        authorized others)
      (removals : List.Forall₂ Respells revoked removed) (now : Nat) :
      Verb.Respelled (.migrateFromConfig authorized revoked now)
        (.migrateFromConfig others removed now)

/-- An operation with other spellings of the machines it names. -/
inductive Operation.Respelled : Operation → Operation → Prop where
  | verb {first second : Verb} (respelled : first.Respelled second) :
      Operation.Respelled (.verb first) (.verb second)
  | ask {first second : String} (respells : Respells first second) (question : Question) :
      Operation.Respelled (.ask question first) (.ask question second)

/-- Two answers that differ in the spelling of what is not a fingerprint only. -/
inductive Answer.Alike : Answer → Answer → Prop where
  | same (answer : Answer) : Answer.Alike answer answer
  | quotes {first second : String} (respells : Respells first second)
      (foreign : canonicalFingerprint first = none) :
      Answer.Alike (.done (.error (.badFingerprint first))) (.done (.error (.badFingerprint second)))
  | drops {report other : MigrationReport} (listed : report.toPairAgain = other.toPairAgain)
      (refused : report.refused = other.refused)
      (dropped : (report.dropped.map key).Perm (other.dropped.map key)) :
      Answer.Alike (.migrated report) (.migrated other)

/-! ## One operation in two spellings -/

/-- Two results that are equal, or refuse two spellings of what is not a fingerprint. -/
def Quoted {α : Type} (first second : Except TrustError α) : Prop :=
  first = second ∨ ∃ one other, Respells one other ∧ canonicalFingerprint one = none ∧
    first = .error (.badFingerprint one) ∧ second = .error (.badFingerprint other)

namespace Quoted

theorem bind {α β : Type} {first second : Except TrustError α} (quoted : Quoted first second)
    (next : α → Except TrustError β) : Quoted (first.bind next) (second.bind next) := by
  rcases quoted with rfl | ⟨one, other, respells, foreign, rfl, rfl⟩
  · exact .inl rfl
  · exact .inr ⟨one, other, respells, foreign, rfl, rfl⟩

theorem alike {first second : Except TrustError TrustStore} (quoted : Quoted first second) :
    Answer.Alike (.done (first.map fun _ => ())) (.done (second.map fun _ => ())) := by
  rcases quoted with rfl | ⟨one, other, respells, foreign, rfl, rfl⟩
  · exact .same _
  · exact .quotes respells foreign

theorem unlessRefused {first second : Except TrustError TrustStore}
    (quoted : Quoted first second) (store : TrustStore) :
    store.unlessRefused first = store.unlessRefused second := by
  rcases quoted with rfl | ⟨one, other, _, _, rfl, rfl⟩
  · rfl
  · rfl

end Quoted

theorem Lease.canonicalized_respelled {lease other : Lease}
    (peer : Respells lease.peer other.peer) (issuedTo : Respells lease.issuedTo other.issuedTo)
    (rest : other = { lease with peer := other.peer, issuedTo := other.issuedTo }) :
    Quoted lease.canonicalized other.canonicalized := by
  obtain ⟨otherPeer, otherIssuedTo, _⟩ := other
  cases rest
  unfold Lease.canonicalized
  rw [← peer.canonical, ← issuedTo.canonical]
  cases foundPeer : canonicalFingerprint lease.peer with
  | none => exact .inr ⟨_, _, peer, foundPeer, rfl, rfl⟩
  | some canonicalPeer =>
    cases foundIssuedTo : canonicalFingerprint lease.issuedTo with
    | none => exact .inr ⟨_, _, issuedTo, foundIssuedTo, rfl, rfl⟩
    | some canonicalIssuedTo => exact .inl rfl

namespace TrustStore

theorem admitLease_respelled (store : TrustStore) {lease other : Lease}
    (peer : Respells lease.peer other.peer) (issuedTo : Respells lease.issuedTo other.issuedTo)
    (rest : other = { lease with peer := other.peer, issuedTo := other.issuedTo }) :
    Quoted (store.admitLease lease) (store.admitLease other) :=
  (Lease.canonicalized_respelled peer issuedTo rest).bind _

variable {first second : String} {store : TrustStore}

theorem issueLease_respelled (store : TrustStore) (respells : Respells first second) (reading : Nat)
    (label : String) (caps : Caps) (term : Term) (origin : Origin) (clipboardChosen : Bool) :
    Quoted (store.issueLease reading first label caps term origin clipboardChosen)
      (store.issueLease reading second label caps term origin clipboardChosen) := by
  apply Quoted.bind
  exact Lease.canonicalized_respelled respells rfl rfl

theorem listToPairAgain_respelled (store : TrustStore) (respells : Respells first second)
    (label : String) (since : Nat) : Quoted (store.listToPairAgain first label since)
      (store.listToPairAgain second label since) := by
  unfold listToPairAgain
  rw [← respells.canonical]
  cases found : canonicalFingerprint first with
  | none => exact .inr ⟨_, _, respells, found, rfl, rfl⟩
  | some fp => exact .inl rfl

/-! ## The migration in two spellings -/

/-- Two migrations that differ in the spelling of what they dropped only. -/
structure Migrated (first second : MigrationReport × TrustStore) : Prop where
  store : first.2 = second.2
  toPairAgain : first.1.toPairAgain = second.1.toPairAgain
  refused : first.1.refused = second.1.refused
  dropped : first.1.dropped.map key = second.1.dropped.map key

theorem Migrated.one {first second : MigrationReport × TrustStore}
    (migrated : Migrated first second) (removed : List String) (now : Nat)
    {entry other : String × String} (respells : Respells entry.1 other.1)
    (label : entry.2 = other.2) :
    Migrated (migrateOne removed now first entry) (migrateOne removed now second other) := by
  obtain ⟨⟨listed, refused, dropped⟩, store⟩ := first
  obtain ⟨⟨otherListed, otherRefused, otherDropped⟩, otherStore⟩ := second
  obtain ⟨sameStore, sameListed, sameRefused, sameKeys⟩ := migrated
  subst sameStore sameListed sameRefused
  unfold migrateOne
  rw [← respells.canonical, ← label]
  cases found : canonicalFingerprint entry.1 with
  | none => exact ⟨rfl, rfl, rfl, by simp [sameKeys, respells.key]⟩
  | some fp =>
    dsimp only
    split
    · split
      · exact ⟨rfl, rfl, rfl, sameKeys⟩
      · exact ⟨rfl, rfl, rfl, sameKeys⟩
    · cases store.listToPairAgain fp entry.2 now with
      | error e => exact ⟨rfl, rfl, rfl, by simp [sameKeys]⟩
      | ok next =>
        dsimp only
        split
        · exact ⟨rfl, rfl, rfl, sameKeys⟩
        · exact ⟨rfl, rfl, rfl, sameKeys⟩

theorem Migrated.foldl {first second : MigrationReport × TrustStore}
    (migrated : Migrated first second) (removed : List String) (now : Nat)
    {authorized others : List (String × String)}
    (entries : List.Forall₂ (fun entry other => Respells entry.1 other.1 ∧ entry.2 = other.2)
      authorized others) :
    Migrated (authorized.foldl (migrateOne removed now) first)
      (others.foldl (migrateOne removed now) second) := by
  induction entries generalizing first second with
  | nil => exact migrated
  | cons spelled rest ih => exact ih (migrated.one removed now spelled.1 spelled.2)

theorem keys_respelled {revoked removed : List String}
    (removals : List.Forall₂ Respells revoked removed) : revoked.map key = removed.map key := by
  induction removals with
  | nil => rfl
  | cons respells rest ih => rw [List.map_cons, List.map_cons, respells.key, ih]

variable (store)

theorem migrateFromConfig_respelled {authorized others : List (String × String)}
    {revoked removed : List String}
    (entries : List.Forall₂ (fun entry other => Respells entry.1 other.1 ∧ entry.2 = other.2)
      authorized others) (removals : List.Forall₂ Respells revoked removed) (now : Nat) :
    (store.migrateFromConfig authorized revoked now).2 =
        (store.migrateFromConfig others removed now).2 ∧
      Answer.Alike (.migrated (store.migrateFromConfig authorized revoked now).1)
        (.migrated (store.migrateFromConfig others removed now).1) := by
  have start : Migrated ({}, store) ({}, store) := ⟨rfl, rfl, rfl, rfl⟩
  have folded := start.foldl (revoked.map key) now entries
  unfold migrateFromConfig
  rw [← keys_respelled removals]
  refine ⟨folded.store, .drops ?_ ?_ ?_⟩
  · exact congrArg List.mergeSort folded.toPairAgain
  · exact congrArg List.mergeSort folded.refused
  · have sorted : ∀ texts : List String, (texts.mergeSort.map key).Perm (texts.map key) :=
      fun texts => (List.mergeSort_perm texts _).map key
    exact ((sorted _).trans (List.Perm.of_eq folded.dropped)).trans (sorted _).symm

/-! ## Whole runs in two spellings -/

theorem step_respelled {first second : Verb} (respelled : first.Respelled second) :
    store.step first = store.step second ∧
      Answer.Alike (store.answer first) (store.answer second) := by
  cases respelled with
  | issue respells reading label caps =>
    have quoted := store.issueLease_respelled respells reading label caps defaultTerm
      (originOf caps) false
    exact ⟨quoted.unlessRefused store, quoted.alike⟩
  | issueWithOrigin respells reading label caps origin =>
    have quoted := store.issueLease_respelled respells reading label caps defaultTerm origin false
    exact ⟨quoted.unlessRefused store, quoted.alike⟩
  | issueAnswered respells reading label controller clipboard =>
    have quoted := store.issueLease_respelled respells reading label
      ((driveOf controller).union
        (if clipboard then existingPairingClipboard (driveOf controller) else .none))
      defaultTerm (.chosen controller) true
    exact ⟨quoted.unlessRefused store, quoted.alike⟩
  | renew respells reading =>
    simp only [step, answer, renew, respells.key, true_and]
    exact .same _
  | dropCapabilities respells drop =>
    simp only [step, answer, dropCapabilities, respells.key, true_and]
    exact .same _
  | enableClipboard respells reading =>
    simp only [step, answer, enableClipboard, respells.key, true_and]
    exact .same _
  | disableClipboard respells =>
    simp only [step, answer, disableClipboard, respells.key, true_and]
    exact .same _
  | setLabel respells label =>
    simp only [step, answer, setLabel, respells.key, true_and]
    exact .same _
  | confirm respells =>
    simp only [step, answer, confirm, respells.key, true_and]
    exact .same _
  | admitLease peer issuedTo rest =>
    have quoted := store.admitLease_respelled peer issuedTo rest
    exact ⟨quoted.unlessRefused store, quoted.alike⟩
  | forget respells =>
    simp only [step, answer, forget, respells.key, true_and]
    exact .same _
  | forgetUnconfirmed respells =>
    simp only [step, answer, forgetUnconfirmed, respells.key, true_and]
    exact .same _
  | sweep reading | forgetLongLapsed reading => exact ⟨rfl, .same _⟩
  | listToPairAgain respells label since =>
    have quoted := store.listToPairAgain_respelled respells label since
    exact ⟨quoted.unlessRefused store, quoted.alike⟩
  | migrateFromConfig entries removals now =>
    exact store.migrateFromConfig_respelled entries removals now

/-- A question has one answer in every spelling. -/
theorem reply_respelled (respells : Respells first second) (question : Question) :
    store.reply first question = store.reply second question := by
  cases question <;>
    simp only [reply, capabilities, capabilitiesAt, permits, awaits, isPairing, isKnown,
      hasLiveLease, label, lease, isExpiring, pairedNotToDrive, toPairAgain, respells.key]

theorem operate_respelled {first second : Operation} (respelled : first.Respelled second) :
    (store.operate first).2 = (store.operate second).2 ∧
      Answer.Alike (store.operate first).1 (store.operate second).1 := by
  cases respelled with
  | verb respelled => exact store.step_respelled respelled
  | ask respells question =>
    refine ⟨rfl, ?_⟩
    dsimp only [operate]
    rw [store.reply_respelled respells question]
    exact .same _

theorem operateAll_respelled {operations others : List Operation}
    (respelled : List.Forall₂ Operation.Respelled operations others) :
    (store.operateAll operations).2 = (store.operateAll others).2 ∧
      List.Forall₂ Answer.Alike (store.operateAll operations).1 (store.operateAll others).1 := by
  induction respelled generalizing store with
  | nil => exact ⟨rfl, .nil⟩
  | cons one rest ih =>
    obtain ⟨same, alike⟩ := store.operate_respelled one
    obtain ⟨last, answers⟩ := ih (store.operate _).2
    simp only [operateAll]
    rw [← same]
    exact ⟨last, .cons alike answers⟩

variable {store}

/-! ## One record for each machine -/

def verbsOf (operations : List Operation) : List Verb :=
  operations.filterMap fun operation =>
    match operation with
    | .verb verb => some verb
    | .ask _ _ => none

/-- Questions leave the store alone. -/
theorem operateAll_run (store : TrustStore) (operations : List Operation) :
    (store.operateAll operations).2 = store.run (verbsOf operations) := by
  induction operations generalizing store with
  | nil => rfl
  | cons operation rest ih =>
    cases operation with
    | verb verb => exact ih (store.step verb)
    | ask question fingerprint => exact ih store

def MayRecord (fp : String) (verb : Verb) : Prop :=
  (∃ approval, verb.approval = some approval ∧
      canonicalFingerprint approval.fingerprint = some fp) ∨
    ∃ lease, verb = .admitLease lease ∧ canonicalFingerprint lease.peer = some fp

theorem Formed.step_held (formed : Formed store) {verb : Verb} {fp : String}
    (held : (store.step verb).leaseAt fp ≠ none) : store.leaseAt fp ≠ none ∨ MayRecord fp verb := by
  obtain ⟨lease, found⟩ := Option.ne_none_iff_exists'.mp held
  rcases (formed.step_effect verb).leaves found with before | leaves
  · exact .inl (by simp [before])
  · cases leaves with
    | approved made spelled coherent accepted => exact .inr (.inl ⟨_, made, spelled⟩)
    | admitted passed accepted =>
      obtain ⟨peer, issuedTo, spelled, _, _, _, _, rfl⟩ := Lease.canonicalized_ok.mp passed
      exact .inr (.inr ⟨_, rfl, spelled⟩)
    | renewed before | narrowed before left | clipboardOn before | clipboardOff before
    | labelled before | confirmed before accepted => exact .inl (by simp [before])

theorem Formed.run_held (formed : Formed store) {verbs : List Verb} {fp : String}
    (held : (store.run verbs).leaseAt fp ≠ none) :
    store.leaseAt fp ≠ none ∨ ∃ verb ∈ verbs, MayRecord fp verb := by
  induction verbs generalizing store with
  | nil => exact .inl held
  | cons verb rest ih =>
    rcases ih (formed.step verb) held with before | ⟨later, member, grants⟩
    · rcases formed.step_held before with first | grants
      · exact .inl first
      · exact .inr ⟨verb, List.mem_cons_self, grants⟩
    · exact .inr ⟨later, List.mem_cons_of_mem verb member, grants⟩

/-- One canonical record for each machine, and none that is paired is to be paired again. -/
structure Keyed (store : TrustStore) : Prop where
  entries : ∀ (fp : String) (entry : Entry), store.entries[fp]? = some entry →
    canonicalFingerprint fp = some fp ∧ ∃ lease, entry.lease = some lease ∧ lease.peer = fp
  pairAgain : ∀ (fp : String) (listing : PairAgain), store.pairAgain[fp]? = some listing →
    canonicalFingerprint fp = some fp
  oneRecord : ∀ first second, Respells first second → first ∈ store.entries →
    second ∈ store.entries → first = second
  oneListing : ∀ first second, Respells first second → first ∈ store.pairAgain →
    second ∈ store.pairAgain → first = second
  notOurs : store.pairAgain[store.ours]? = none
  apart : ∀ fp lease, store.leaseAt fp = some lease → lease.confirmed = true →
    store.pairAgain[fp]? = none

theorem eq_of_respells (respells : Respells first second)
    (one : canonicalFingerprint first = some first)
    (other : canonicalFingerprint second = some second) : first = second := by
  rw [respells.canonical, other] at one
  exact (Option.some.inj one).symm

theorem Formed.keyed (formed : Formed store) : Keyed store := by
  have entries : ∀ (fp : String) (entry : Entry), store.entries[fp]? = some entry →
      canonicalFingerprint fp = some fp ∧ ∃ lease, entry.lease = some lease ∧ lease.peer = fp := by
    intro fp entry found
    obtain ⟨lease, held⟩ := Option.isSome_iff_exists.mp (formed.held fp entry found)
    have formedLease := formed.lease fp lease ((leaseAt_of_entry found).trans held)
    exact ⟨canonicalized_of_valid formedLease.valid, lease, held, formedLease.peer⟩
  have listings : ∀ (fp : String) (listing : PairAgain), store.pairAgain[fp]? = some listing →
      canonicalFingerprint fp = some fp := by
    intro fp listing listed
    exact canonicalized_of_valid (formed.listed fp listing listed).1
  refine ⟨entries, listings, ?_, ?_, ?_, formed.apart⟩
  · intro first second respells one other
    obtain ⟨entry, found⟩ := Option.isSome_iff_exists.mp
      (Std.ExtTreeMap.mem_iff_isSome_getElem?.mp one)
    obtain ⟨another, alsoFound⟩ := Option.isSome_iff_exists.mp
      (Std.ExtTreeMap.mem_iff_isSome_getElem?.mp other)
    exact eq_of_respells respells (entries _ _ found).1 (entries _ _ alsoFound).1
  · intro first second respells one other
    obtain ⟨listing, found⟩ := Option.isSome_iff_exists.mp
      (Std.ExtTreeMap.mem_iff_isSome_getElem?.mp one)
    obtain ⟨another, alsoFound⟩ := Option.isSome_iff_exists.mp
      (Std.ExtTreeMap.mem_iff_isSome_getElem?.mp other)
    exact eq_of_respells respells (listings _ _ found) (listings _ _ alsoFound)
  · cases listed : store.pairAgain[store.ours]? with
    | none => rfl
    | some listing => exact absurd rfl (formed.listed _ _ listed).2.1

theorem new_respelled {ours other : String} (respells : Respells ours other) {floor : Nat}
    {start : TrustStore} (made : new ours floor = .ok start) : new other floor = .ok start := by
  obtain ⟨canonical, clock, entries, pairAgain⟩ := new_ok made
  unfold new
  split
  · rename_i absent
    rw [← respells.canonical, canonical] at absent
    cases absent
  · rename_i found
    rw [← respells.canonical, canonical] at found
    obtain ⟨ours, clock, entries, pairAgain, valid⟩ := start
    cases found
    subst clock entries pairAgain
    rfl

/--
A store and a run of operations on it, in two spellings: the stores are the
same throughout, the answers differ in what they quote of texts that are no
fingerprint only, every machine has one record, and this machine has one of
itself only where it was granted one.
-/
theorem spelling_changes_nothing {ours other : String} (spelled : Respells ours other)
    {floor : Nat} {start : TrustStore} (made : new ours floor = .ok start)
    {operations others : List Operation}
    (respelled : List.Forall₂ Operation.Respelled operations others) :
    new other floor = .ok start ∧
      (start.operateAll operations).2 = (start.operateAll others).2 ∧
      List.Forall₂ Answer.Alike (start.operateAll operations).1 (start.operateAll others).1 ∧
      Keyed (start.operateAll operations).2 ∧
      ((start.operateAll operations).2.ours ∈ (start.operateAll operations).2.entries →
        ∃ verb ∈ verbsOf operations, MayRecord start.ours verb) := by
  have formed := formed_new made
  obtain ⟨same, alike⟩ := start.operateAll_respelled respelled
  refine ⟨new_respelled spelled made, same, alike, ?_, ?_⟩
  · rw [operateAll_run]
    exact (formed.run _).keyed
  · rw [operateAll_run, formed.run_ours]
    intro member
    obtain ⟨entry, found⟩ := Option.isSome_iff_exists.mp
      (Std.ExtTreeMap.mem_iff_isSome_getElem?.mp member)
    obtain ⟨lease, held⟩ := Option.isSome_iff_exists.mp ((formed.run _).held _ _ found)
    have kept : (start.run (verbsOf operations)).leaseAt start.ours ≠ none := by
      rw [leaseAt_of_entry found, held]
      exact Option.some_ne_none lease
    rcases formed.run_held kept with before | granted
    · simp [leaseAt, (new_ok made).2.2.1] at before
    · exact granted

/-- Nothing stops an approval of this machine by itself. -/
theorem own_fingerprint_held (empty : store.entries = ∅) (reading : Nat) :
    store.ours ∈ (store.step (.issue reading store.ours "" .driveMe)).entries := by
  have unheld : store.leaseAt store.ours = none := by simp [empty, leaseAt]
  have grants : Caps.driveMe.isEmpty = false := by decide
  have inbound : originOf .driveMe = .inbound := by decide
  have apart : Caps.driveMe.contains .iMayDrive = false := by decide
  simp [step, issue, issueWithOrigin, issueLease, Lease.canonicalized, Lease.checkTerm,
    Lease.checkChosen, canonicalized_of_valid store.valid, defaultTerm, Term.expiryFrom,
    bind, Except.bind, unlessRefused, incoherent, admitLease, inForce_eq, setLease, unheld, grants,
    inbound, apart]

theorem refusal_quotes (store : TrustStore) {text : String}
    (foreign : canonicalFingerprint text = none) (label : String) (since : Nat) :
    store.answer (.listToPairAgain text label since) = .done (.error (.badFingerprint text)) := by
  simp [answer, listToPairAgain, foreign, Except.map]

end TrustStore

omit [Lowercase]

open TrustStore

/-- The other machine in capitals, with blanks around it. -/
def machineBShouted : String :=
  "  B0:B0:B0:B0:B0:B0:B0:B0:B0:B0:B0:B0:B0:B0:B0:B0:B0:B0:B0:B0:B0:B0:B0:B0:B0:B0:B0:B0:B0:B0:B0:B0 "

theorem respells_shouted : @Respells asciiLowercase machineB machineBShouted := by
  apply @respells_of_ascii asciiLowercase
  · decide +kernel
  · decide +kernel
  · decide +kernel

/-- A pairing under one spelling is confirmed and looked up under the other. -/
theorem spelling_changes_nothing_shouted :
    letI := asciiLowercase
    let pairing (fp : String) : List Operation :=
      [.verb (.issueAnswered 0 fp "" .both false), .verb (.confirm machineB),
        .ask (.capabilities 0) fp]
    (freshStore.operateAll (pairing machineB)).2 =
        (freshStore.operateAll (pairing machineBShouted)).2 ∧
      Keyed (freshStore.operateAll (pairing machineB)).2 := by
  let _ := asciiLowercase
  have made : new machineA 0 = .ok freshStore := new_of_valid machineA_valid 0
  have ours : Respells machineA machineA := rfl
  have theirs : Respells machineB machineB := rfl
  have facts := spelling_changes_nothing ours made
    (.cons (.verb (.issueAnswered respells_shouted 0 "" .both false))
      (.cons (.verb (.confirm theirs)) (.cons (.ask respells_shouted (.capabilities 0)) .nil)))
  exact ⟨facts.2.1, facts.2.2.2.1⟩

/--
Two spellings of a text that is no fingerprint are refused in different words,
and this machine is held after an approval of itself.
-/
theorem spelling_quoted_back :
    letI := asciiLowercase
    (Respells "X" "x" ∧ freshStore.answer (.listToPairAgain "X" "" 0) ≠
        freshStore.answer (.listToPairAgain "x" "" 0)) ∧
      freshStore.ours ∈ (freshStore.step (.issue 0 freshStore.ours "" .driveMe)).entries := by
  let _ := asciiLowercase
  have upper : canonicalFingerprint "X" = none := by decide
  have lower : canonicalFingerprint "x" = none := by decide
  have spelled : Respells "X" "x" := by
    apply respells_of_ascii
    · decide +kernel
    · decide +kernel
    · decide +kernel
  refine ⟨⟨spelled, ?_⟩, own_fingerprint_held rfl 0⟩
  rw [refusal_quotes _ upper, refusal_quotes _ lower]
  simp

end HopsFormal.Trust
