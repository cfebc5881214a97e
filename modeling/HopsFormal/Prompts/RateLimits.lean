import HopsFormal.Prompts.PromptGate

/-!
# How often a prompt may be raised

The two records of the gate, by machine and by address, hold what was prompted for
since they were last cleared, as far as it is recent.  What a knock is answered is
read off the prompts before it.
-/

namespace HopsFormal.Prompts

open Option Lib RecentPrompts Prompter

/-! ## What a knock does -/

namespace PromptGate

variable (gate : PromptGate)

/-- Another machine at the address a knock came from was prompted for moments ago. -/
def throttles (fingerprint : String) (ip : Option IpAddr) (now : Nat) : Bool :=
  (ip.map sourceOf).any fun source => gate.sources.takenByAnother source fingerprint now

/-- A knock gets as far as the record of machines. -/
def reaches (fingerprint : String) (ip : Option IpAddr) (now : Nat) : Bool :=
  (gate.remaining now).isSome && !gate.throttles fingerprint ip now

/-- The record of machines once there is room in it. -/
def room (now : Nat) : Table String Nat :=
  gate.recent.seen.makeRoom (RecentPrompts.recent now) RecentPrompts.pruneAt

/-- The four answers, what each takes, and what it leaves. -/
inductive Admits (gate : PromptGate) (fingerprint : String) (ip : Option IpAddr) (now : Nat) :
    Admit × PromptGate → Prop where
  | closed (shut : gate.remaining now = none) : Admits gate fingerprint ip now (.closed, gate)
  | throttled (shown : (gate.remaining now).isSome = true)
      (taken : gate.throttles fingerprint ip now = true) :
      Admits gate fingerprint ip now (.throttled, gate)
  | repeat_ (reaches : gate.reaches fingerprint ip now = true) {at_ : Nat}
      (found : (gate.room now).lookup fingerprint = some at_)
      (recent : RecentPrompts.recent now at_ = true) :
      Admits gate fingerprint ip now (.repeat_, { gate with recent := ⟨gate.room now⟩ })
  | prompt (reaches : gate.reaches fingerprint ip now = true)
      (fresh : ∀ at_, (gate.room now).lookup fingerprint = some at_ →
        RecentPrompts.recent now at_ = false) :
      Admits gate fingerprint ip now (.prompt, { gate with
        recent := ⟨(gate.room now).insert fingerprint now⟩
        sources := match ip.map sourceOf with
          | some source => gate.sources.record source fingerprint now
          | none => gate.sources })

theorem admits (fp : String) (ip : Option IpAddr) (now : Nat) :
    Admits gate fp ip now (gate.admit_ fp ip now) := by
  unfold admit_
  split
  · next shut => exact .closed (isNone_iff_eq_none.mp shut)
  · next shown =>
    have isOpen : (gate.remaining now).isSome = true := by
      cases left : gate.remaining now with
      | none => exact absurd (by rw [left]; rfl) shown
      | some span => rfl
    dsimp only
    split
    · next taken => exact .throttled isOpen taken
    · next untaken =>
      have reaches : gate.reaches fp ip now = true := by
        rw [PromptGate.reaches, isOpen, Bool.true_and, throttles]
        simpa using untaken
      have seen : gate.recent.seenRecently fp now =
          if ((gate.room now).lookup fp).any (RecentPrompts.recent now) then
            (true, ⟨gate.room now⟩)
          else (false, ⟨(gate.room now).insert fp now⟩) := rfl
      rw [seen]
      split_ifs with again
      · obtain ⟨at_, found, recent⟩ := (Option.any_eq_true _ _).mp again
        exact .repeat_ reaches found recent
      · refine .prompt reaches fun at_ found => ?_
        rw [found, any_some, Bool.not_eq_true] at again
        exact again

end PromptGate

/-! ## What a step of a run raises and clears -/

/-- A prompt that is raised: for which machine, counted against which address, and when. -/
structure Raised where
  fingerprint : String
  source : Option IpAddr
  at_ : Nat

variable (prompter : Prompter) (taken : Prompter × Call)

def raised : Option Raised :=
  match taken.2 with
  | .admit_ fingerprint ip now =>
    if (taken.1.gate.admit_ fingerprint ip now).1 = .prompt then
      some ⟨fingerprint, ip.map sourceOf, now⟩
    else none
  | _ => none

def clearsRecent : Bool :=
  match taken.2 with
  | .admit_ fingerprint ip now => taken.1.gate.reaches fingerprint ip now &&
      taken.1.gate.recent.seen.overflows (recent now) pruneAt
  | _ => false

/-- A step clears the record of addresses, which is full of what is recent. -/
def clearsSources : Bool :=
  match taken.2 with
  | .admit_ _ _ now => (raised taken).any fun raised => raised.source.isSome &&
      taken.1.gate.sources.seen.overflows (RecentSources.recent now) RecentSources.pruneAt
  | _ => false

/-- What a step tells the record of machines. -/
def tellsRecent : Option (String × Nat) :=
  (raised taken).map fun prompt => (prompt.fingerprint, prompt.at_)

/-- What a step tells the record of addresses. -/
def tellsSources : Option (IpAddr × String × Nat) :=
  (raised taken).bind fun prompt =>
    prompt.source.map fun source => (source, prompt.fingerprint, prompt.at_)

/-- The same machine's prompt, and no earlier. -/
def SameLater (first second : String × Nat) : Prop :=
  first.1 = second.1 ∧ first.2 ≤ second.2

variable {call : Call} {prompt : Raised} {now : Nat} {calls : List Call} {fingerprint : String}
  {ip : Option IpAddr}

theorem raised_eq_some {prompter : Prompter} : raised (prompter, call) = some prompt ↔ ∃ ip,
      call = .admit_ prompt.fingerprint ip prompt.at_ ∧ prompt.source = ip.map sourceOf ∧
        (prompter.gate.admit_ prompt.fingerprint ip prompt.at_).1 = .prompt := by
  unfold raised
  cases call with
  | admit_ fingerprint ip now =>
    dsimp only
    constructor
    · intro isRaised
      split_ifs at isRaised with prompts
      obtain rfl := Option.some.inj isRaised
      exact ⟨ip, rfl, rfl, prompts⟩
    · rintro ⟨other, same, source, prompts⟩
      obtain ⟨rfl, rfl, rfl⟩ := Call.admit_.inj same
      rw [if_pos prompts, ← source]
  | open_ now | hold fingerprint origin addr now | take fingerprint now | replay now
  | forget fingerprint => simp

/-! ## The records and what was prompted for -/

/-- The record of machines holds the prompts since it was last cleared. -/
def TracksRecent (calls : List Call) (gate : PromptGate) : Prop :=
  Table.Tracks recent (· ≤ ·) clearsRecent tellsRecent (By calls)
    (trace step .start calls) gate.recent.seen

/-- The record of addresses holds the prompts since it was last cleared. -/
def TracksSources (calls : List Call) (gate : PromptGate) : Prop :=
  Table.Tracks RecentSources.recent SameLater clearsSources tellsSources (By calls)
    (trace step .start calls) gate.sources.seen

theorem trace_concat (calls : List Call) (call : Call) :
    trace step .start (calls ++ [call]) = trace step .start calls ++ [(start.run calls, call)] :=
  trace_append step .start calls [call]

theorem run_concat (calls : List Call) (call : Call) :
    start.run (calls ++ [call]) = (start.run calls).step call :=
  List.foldl_concat step .start call calls

def Call.isKnock : Call → Bool
  | .admit_ _ _ _ => true
  | _ => false

theorem step_records (other : call.isKnock = false) :
    (prompter.step call).gate.recent = prompter.gate.recent ∧
      (prompter.step call).gate.sources = prompter.gate.sources ∧
        raised (prompter, call) = none ∧ clearsRecent (prompter, call) = false ∧
          clearsSources (prompter, call) = false := by
  cases call with
  | admit_ fingerprint ip now => cases other
  | open_ now | hold fingerprint origin addr now | take fingerprint now | replay now
  | forget fingerprint => exact ⟨rfl, rfl, rfl, rfl, rfl⟩

theorem recent_mono {time at_ next : Nat} (after : time ≤ now) (later : at_ ≤ next)
    (recent : RecentPrompts.recent now at_ = true) : RecentPrompts.recent time next = true := by
  unfold RecentPrompts.recent at *
  rw [decide_eq_true_eq] at *
  omega

theorem source_mono {time : Nat} {record next : String × Nat} (after : time ≤ now)
    (later : SameLater record next) (recent : RecentSources.recent now record = true) :
    RecentSources.recent time next = true := by
  have ahead := later.2
  unfold RecentSources.recent at *
  rw [decide_eq_true_eq] at *
  omega

/-- What a knock is answered, leaves and raises. -/
theorem step_admit_ (fp : String) (ip : Option IpAddr) (now : Nat) :
    ∃ out, prompter.gate.Admits fp ip now out ∧
      prompter.answer (.admit_ fp ip now) = .admits out.1 ∧
        prompter.step (.admit_ fp ip now) = { prompter with gate := out.2 } ∧
          raised (prompter, .admit_ fp ip now) =
            if out.1 = .prompt then some ⟨fp, ip.map sourceOf, now⟩ else none :=
  ⟨_, prompter.gate.admits fp ip now, rfl, rfl, rfl⟩

theorem By.admit_ {later : Nat} (isBy : By (calls ++ [.admit_ fingerprint ip now]) later) :
    By calls later ∧ now ≤ later :=
  ⟨isBy.before.1, isBy.before.2 now rfl⟩

theorem tracksRecent_step (tracks : TracksRecent calls (start.run calls).gate) :
    TracksRecent (calls ++ [call]) (start.run (calls ++ [call])).gate := by
  unfold TracksRecent at *
  rw [trace_concat, run_concat]
  generalize start.run calls = prompter at *
  by_cases other : call.isKnock = false
  · obtain ⟨same, -, unraised, spares, -⟩ := step_records prompter other
    rw [same]
    refine tracks.idle spares ?_ fun later isBy => isBy.before.1
    rw [tellsRecent, unraised]
    rfl
  cases call with
  | admit_ fingerprint ip now =>
    obtain ⟨out, answered, -, step, raises⟩ := step_admit_ prompter fingerprint ip now
    have clears : clearsRecent (prompter, .admit_ fingerprint ip now) =
        (prompter.gate.reaches fingerprint ip now && prompter.gate.recent.seen.overflows
          (RecentPrompts.recent now) RecentPrompts.pruneAt) := rfl
    rw [step]
    cases answered with
    | closed shut =>
      refine tracks.idle ?_ ?_ fun later isBy => isBy.admit_.1
      · rw [clears, PromptGate.reaches, shut]
        rfl
      · rw [tellsRecent, raises]
        rfl
    | throttled shown taken =>
      refine tracks.idle ?_ ?_ fun later isBy => isBy.admit_.1
      · rw [clears, PromptGate.reaches, taken, Bool.not_true, Bool.and_false]
        rfl
      · rw [tellsRecent, raises]
        rfl
    | repeat_ reaches found recent =>
      refine tracks.makeRoom recent_mono ?_ ?_ fun later isBy => isBy.admit_
      · rw [clears, reaches]
        rfl
      · rw [tellsRecent, raises]
        rfl
    | prompt reaches fresh =>
      refine tracks.insert recent_mono (fun _ => le_refl _) le_trans ?_ ?_ ?_
        fun later isBy => isBy.admit_
      · rw [clears, reaches]
        rfl
      · rw [tellsRecent, raises]
        rfl
      · intro before found recent
        rw [fresh before found] at recent
        cases recent
  | _ => exact absurd rfl other

theorem raised_time {taken : Prompter × Call} (member : taken ∈ trace step .start calls)
    (isRaised : raised taken = some prompt) (isBy : By calls now) : prompt.at_ ≤ now := by
  obtain ⟨prompter, call⟩ := taken
  obtain ⟨ip, rfl, -⟩ := raised_eq_some.mp isRaised
  exact isBy _ (List.mem_filterMap.mpr ⟨_, mem_trace step member, rfl⟩)

theorem tracksSources_step (ordered : InOrder (calls ++ [call]))
    (tracks : TracksSources calls (Prompter.start.run calls).gate) :
    TracksSources (calls ++ [call]) (Prompter.start.run (calls ++ [call])).gate := by
  unfold TracksSources at *
  rw [trace_concat, run_concat]
  by_cases other : call.isKnock = false
  · generalize Prompter.start.run calls = prompter at *
    obtain ⟨-, same, unraised, -, spares⟩ := step_records prompter other
    rw [same]
    refine tracks.idle spares ?_ fun later isBy => isBy.before.1
    rw [tellsSources, unraised]
    rfl
  cases call with
  | admit_ fingerprint ip now =>
    have isBy : By calls now := ordered.before.2 now rfl
    have times : ∀ source record,
        (Prompter.start.run calls).gate.sources.seen.lookup source = some record →
          record.2 ≤ now := by
      intro source record found
      obtain ⟨before, taken, after, split, -, told⟩ := tracks.told source record found
      obtain ⟨prompt, isRaised, isSource⟩ := bind_eq_some_iff.mp told
      obtain ⟨_, -, same⟩ := map_eq_some_iff.mp isSource
      rw [← (Prod.mk.inj same).2]
      exact raised_time (split ▸ List.mem_append_right _ List.mem_cons_self) isRaised isBy
    generalize Prompter.start.run calls = prompter at *
    obtain ⟨out, answered, -, step, raises⟩ := step_admit_ prompter fingerprint ip now
    rw [step]
    have quiet : out.1 ≠ .prompt → raised (prompter, .admit_ fingerprint ip now) = none :=
      fun other => raises.trans (if_neg other)
    have idle : out.1 ≠ .prompt → Table.Tracks RecentSources.recent SameLater clearsSources
        tellsSources (By (calls ++ [.admit_ fingerprint ip now]))
        (trace Prompter.step .start calls ++ [(prompter, .admit_ fingerprint ip now)])
        prompter.gate.sources.seen := by
      intro other
      refine tracks.idle ?_ ?_ fun later isBy => isBy.admit_.1
      · rw [clearsSources, quiet other]
        rfl
      · rw [tellsSources, quiet other]
        rfl
    cases answered with
    | closed shut | throttled shown taken | repeat_ reaches found recent =>
      exact idle nofun
    | prompt reaches fresh =>
      rw [if_pos rfl] at raises
      cases isSource : ip.map sourceOf with
      | none =>
        rw [isSource] at raises
        refine tracks.idle ?_ ?_ fun later isBy => isBy.admit_.1
        · rw [clearsSources, raises]
          rfl
        · rw [tellsSources, raises]
          rfl
      | some source =>
        rw [isSource] at raises
        refine tracks.insert source_mono (fun _ => ⟨rfl, le_refl _⟩)
          (fun one two => ⟨one.1.trans two.1, one.2.trans two.2⟩) ?_ ?_ ?_
          fun later isBy => isBy.admit_
        · rw [clearsSources, raises]
          rfl
        · rw [tellsSources, raises]
          rfl
        · intro before found recent
          have there := Table.lookup_of_makeRoom found
          rw [PromptGate.reaches, Bool.and_eq_true, Bool.not_eq_true', PromptGate.throttles,
            isSource, any_some, RecentSources.takenByAnother, there,
            any_some, decide_eq_false_iff_not, not_and] at reaches
          by_contra other
          refine other ⟨?_, times source before there⟩
          by_contra apart
          exact reaches.2 apart recent
  | _ => exact absurd rfl other

theorem tracks_run (ordered : InOrder calls) : TracksRecent calls (start.run calls).gate ∧
      TracksSources calls (start.run calls).gate := by
  induction calls using List.reverseRecOn with
  | nil => exact ⟨.nothing, .nothing⟩
  | append_singleton calls call ih =>
    have before := ih ordered.before.1
    exact ⟨tracksRecent_step before.1, tracksSources_step ordered before.2⟩

/-! ## What a knock is answered -/

/-- Another machine was prompted for at an address moments ago. -/
def OtherPrompted (past : List (Prompter × Call)) (source : IpAddr) (fingerprint : String)
    (now : Nat) : Prop :=
  Since (clearsSources · = true) (fun _ taken _ => ∃ prompt, raised taken = some prompt ∧
    prompt.source = some source ∧ prompt.fingerprint ≠ fingerprint ∧
      now - prompt.at_ < RecentSources.window) past

/-- A machine was prompted for moments ago itself. -/
def SelfPrompted (past : List (Prompter × Call)) (fingerprint : String) (now : Nat) : Prop :=
  Since (clearsRecent · = true) (fun _ taken _ => ∃ prompt, raised taken = some prompt ∧
    prompt.fingerprint = fingerprint ∧ now - prompt.at_ < window) past

theorem throttles_iff (ordered : InOrder calls) (isBy : By calls now) (fp : String)
    (ip : Option IpAddr) : (start.run calls).gate.throttles fp ip now = true ↔
      ∃ source, ip.map sourceOf = some source ∧
        OtherPrompted (trace step .start calls) source fp now := by
  have tracks := (tracks_run ordered).2
  unfold PromptGate.throttles
  rw [Option.any_eq_true]
  refine exists_congr fun source => and_congr_right fun _ => ?_
  unfold RecentSources.takenByAnother
  rw [Option.any_eq_true]
  constructor
  · rintro ⟨record, found, taken⟩
    rw [decide_eq_true_eq] at taken
    refine (tracks.told source record found).imp fun step told => ?_
    obtain ⟨prompt, isRaised, isSource⟩ := bind_eq_some_iff.mp told
    obtain ⟨_, isAt, same⟩ := map_eq_some_iff.mp isSource
    obtain ⟨rfl, rfl⟩ := Prod.mk.inj same
    exact ⟨prompt, isRaised, isAt, taken.1, of_decide_eq_true taken.2⟩
  · rintro ⟨before, step, after, split, spared, prompt, isRaised, isAt, apart, recent⟩
    have told : tellsSources step = some (source, prompt.fingerprint, prompt.at_) := by
      rw [tellsSources, isRaised, bind_some, isAt]
      rfl
    have isRecent : RecentSources.recent now (prompt.fingerprint, prompt.at_) = true :=
      decide_eq_true recent
    obtain ⟨next, later, found⟩ := tracks.kept now isBy source _
      ⟨before, step, after, split, spared, told⟩ isRecent
    refine ⟨next, found, decide_eq_true ⟨?_, source_mono le_rfl later isRecent⟩⟩
    rw [← later.1]
    exact apart

theorem repeats_iff (ordered : InOrder calls) (isBy : By calls now) (fp : String) :
    (∃ at_, ((start.run calls).gate.room now).lookup fp = some at_ ∧
        RecentPrompts.recent now at_ = true) ↔
      (start.run calls).gate.recent.seen.overflows (RecentPrompts.recent now)
          RecentPrompts.pruneAt = false ∧
        SelfPrompted (trace step .start calls) fp now := by
  have tracks := (tracks_run ordered).1
  constructor
  · rintro ⟨at_, found, recent⟩
    constructor
    · cases full : (start.run calls).gate.recent.seen.overflows
          (RecentPrompts.recent now) RecentPrompts.pruneAt with
      | false => rfl
      | true =>
        rw [PromptGate.room, Table.makeRoom_overflows full, AList.lookup_empty] at found
        cases found
    · refine (tracks.told fp at_ (Table.lookup_of_makeRoom found)).imp
        fun step told => ?_
      obtain ⟨prompt, isRaised, same⟩ := map_eq_some_iff.mp told
      obtain ⟨rfl, rfl⟩ := Prod.mk.inj same
      exact ⟨prompt, isRaised, rfl, of_decide_eq_true recent⟩
  · rintro ⟨room, before, step, after, split, spared, prompt, isRaised, rfl, recent⟩
    have told : tellsRecent step = some (prompt.fingerprint, prompt.at_) := by
      rw [tellsRecent, isRaised]
      rfl
    have isRecent : RecentPrompts.recent now prompt.at_ = true := decide_eq_true recent
    obtain ⟨next, later, found⟩ := tracks.kept now isBy prompt.fingerprint _
      ⟨before, step, after, split, spared, told⟩ isRecent
    have still := recent_mono le_rfl later isRecent
    exact ⟨next, Table.lookup_makeRoom room still found, still⟩

/--
A knock is prompted for exactly when the window is open, no other machine was prompted
for at its address moments ago, and it was not prompted for moments ago itself.
-/
theorem prompts_iff (ordered : InOrder calls) (isBy : By calls now) (fp : String)
    (ip : Option IpAddr) : let gate := (start.run calls).gate
    (gate.admit_ fp ip now).1 = .prompt ↔ (gate.remaining now).isSome = true ∧
      (¬ ∃ source, ip.map sourceOf = some source ∧
        OtherPrompted (trace step .start calls) source fp now) ∧
      ¬ (gate.recent.seen.overflows (recent now) pruneAt = false ∧
        SelfPrompted (trace step .start calls) fp now) := by
  intro gate
  rw [← throttles_iff ordered isBy, ← repeats_iff ordered isBy]
  have answered := gate.admits fp ip now
  generalize gate.admit_ fp ip now = out at answered
  cases answered with
  | closed shut => simp [shut]
  | throttled shown taken =>
    exact ⟨nofun, fun holds => absurd taken holds.2.1⟩
  | repeat_ reaches found recent =>
    exact ⟨nofun, fun holds => absurd ⟨_, found, recent⟩ holds.2.2⟩
  | prompt reaches fresh =>
    rw [PromptGate.reaches, Bool.and_eq_true, Bool.not_eq_true'] at reaches
    refine ⟨fun _ => ⟨reaches.1, ?_, ?_⟩, fun _ => rfl⟩
    · rw [Bool.not_eq_true]
      exact reaches.2
    · rintro ⟨at_, found, recent⟩
      rw [fresh at_ found] at recent
      cases recent

/-! ## The bounds -/

theorem raised_answer {taken : Prompter × Call} (isRaised : raised taken = some prompt) : ∃ ip,
      taken.2 = .admit_ prompt.fingerprint ip prompt.at_ ∧ prompt.source = ip.map sourceOf ∧
        (taken.1.gate.admit_ prompt.fingerprint ip prompt.at_).1 = .prompt := by
  obtain ⟨prompter, call⟩ := taken
  exact raised_eq_some.mp isRaised

theorem reaches_of_prompt {gate : PromptGate}
    (prompts : (gate.admit_ fingerprint ip now).1 = .prompt) :
    gate.reaches fingerprint ip now = true := by
  have answered := gate.admits fingerprint ip now
  generalize gate.admit_ fingerprint ip now = out at answered prompts
  cases answered with
  | closed shut | throttled shown taken | repeat_ reaches found recent => cases prompts
  | prompt reaches fresh => exact reaches

theorem InOrder.prefix {later : List Call} (ordered : InOrder (calls ++ later)) :
    InOrder calls := by
  unfold InOrder at *
  rw [List.filterMap_append, List.pairwise_append] at ordered
  exact ordered.1

theorem size_record_le (sources : RecentSources) (ip : IpAddr) (fp : String) (now : Nat) :
    (sources.record ip fp now).seen.size ≤ RecentSources.pruneAt :=
  (Table.size_insert_le _ _ _).trans (Table.size_makeRoom_lt _ _ (by decide))

/-- Neither record outgrows its bound. -/
theorem sizes_step (call : Call) (bounded : prompter.gate.recent.seen.size ≤ pruneAt ∧
      prompter.gate.sources.seen.size ≤ RecentSources.pruneAt) :
    (prompter.step call).gate.recent.seen.size ≤ pruneAt ∧
      (prompter.step call).gate.sources.seen.size ≤ RecentSources.pruneAt := by
  by_cases other : call.isKnock = false
  · obtain ⟨same, alike, -⟩ := step_records prompter other
    rw [same, alike]
    exact bounded
  cases call with
  | admit_ fingerprint ip now =>
    obtain ⟨out, answered, -, step, -⟩ := step_admit_ prompter fingerprint ip now
    have room : (prompter.gate.room now).size < pruneAt :=
      Table.size_makeRoom_lt _ _ (by decide)
    rw [step]
    cases answered with
    | closed shut | throttled shown taken => exact bounded
    | repeat_ reaches found recent => exact ⟨room.le, bounded.2⟩
    | prompt reaches fresh =>
      refine ⟨(Table.size_insert_le _ _ _).trans room, ?_⟩
      cases ip.map sourceOf with
      | none => exact bounded.2
      | some source => exact size_record_le prompter.gate.sources source fingerprint now
  | _ => exact absurd rfl other

theorem sizes_run (calls : List Call) :
    (start.run calls).gate.recent.seen.size ≤ pruneAt ∧
      (start.run calls).gate.sources.seen.size ≤ RecentSources.pruneAt := by
  induction calls using List.reverseRecOn with
  | nil => exact ⟨by decide, by decide⟩
  | append_singleton calls call ih =>
    rw [run_concat]
    exact sizes_step _ call ih

theorem step_refused {prompter : Prompter}
    (refused : prompter.answer (.admit_ fingerprint ip now) = .admits .closed ∨
      prompter.answer (.admit_ fingerprint ip now) = .admits .throttled) :
    prompter.step (.admit_ fingerprint ip now) = prompter := by
  obtain ⟨out, answered, answers, step, -⟩ := step_admit_ prompter fingerprint ip now
  rw [answers] at refused
  rw [step]
  cases answered with
  | closed shut | throttled shown taken => rfl
  | repeat_ reaches found recent | prompt reaches fresh =>
    rcases refused with same | same <;> cases same

/--
Between two prompts for one machine at least 2 seconds pass, and between prompts for two
machines at one source at least 10, unless the record was cleared for being full; neither
record outgrows its bound; and a refused or throttled knock changes no later answer.
-/
theorem prompt_rate_limits {calls : List Call} (ordered : InOrder calls) :
    (∀ before first between second after, trace step .start calls =
        before ++ first :: (between ++ second :: after) →
      ∀ one two, raised first = some one → raised second = some two →
        (one.fingerprint = two.fingerprint →
          (∀ taken ∈ between ++ [second], clearsRecent taken = false) →
            one.at_ + fromSecs 2 ≤ two.at_) ∧
        ∀ source, one.source = some source → two.source = some source →
          one.fingerprint ≠ two.fingerprint →
            (∀ taken ∈ between, clearsSources taken = false) → one.at_ + fromSecs 10 ≤ two.at_) ∧
    ((start.run calls).gate.recent.seen.size ≤ 256 ∧
      (start.run calls).gate.sources.seen.size ≤ 256) ∧
    ∀ fingerprint ip now, let prompter := start.run calls
      (prompter.answer (.admit_ fingerprint ip now) = .admits .closed ∨
          prompter.answer (.admit_ fingerprint ip now) = .admits .throttled) →
        ∀ later, (prompter.step (.admit_ fingerprint ip now)).answers later =
          prompter.answers later := by
  refine ⟨?_, sizes_run calls, ?_⟩
  · intro before first between second after split one two isOne isTwo
    obtain ⟨past, rest, rfl, isPast, isAt⟩ := trace_split step
      (split.trans (List.append_assoc before (first :: between) (second :: after)).symm)
    obtain ⟨ip, isCall, source, prompts⟩ := raised_answer isTwo
    rw [isAt] at prompts
    rw [isCall, List.append_cons] at ordered
    have reaches := reaches_of_prompt prompts
    have isBy : By past two.at_ := ordered.prefix.before.2 _ rfl
    obtain ⟨-, alone, fresh⟩ := (prompts_iff ordered.prefix.prefix isBy _ ip).mp prompts
    constructor
    · intro same spared
      by_contra soon
      refine fresh ⟨?_, before, first, between, isPast.symm, ?_, one, isOne, same, ?_⟩
      · have clears := spared second (List.mem_append_right _ List.mem_cons_self)
        rw [clearsRecent, isCall, isAt] at clears
        dsimp only at clears
        rwa [reaches, Bool.true_and] at clears
      · intro taken member
        exact Bool.eq_false_iff.mp (spared taken (List.mem_append_left _ member))
      · unfold fromSecs at soon
        unfold window fromSecs
        omega
    · intro at_ isSource isSame apart spared
      by_contra soon
      refine alone ⟨at_, source.symm.trans isSame, before, first, between, isPast.symm, ?_, one,
        isOne, isSource, apart, ?_⟩
      · intro taken member
        exact Bool.eq_false_iff.mp (spared taken member)
      · unfold fromSecs at soon
        unfold RecentSources.window fromSecs
        omega
  · intro fingerprint ip now prompter refused later
    rw [step_refused refused]

/-- A machine knocks three times in three seconds, and another at its address ten later. -/
def knocksThrice : List Call :=
  [.open_ 0, .admit_ "desk" (some (.v4 0xc0000207)) 0,
    .admit_ "desk" (some (.v4 0xc0000207)) (fromSecs 1),
    .admit_ "desk" (some (.v4 0xc0000207)) (fromSecs 3),
    .admit_ "laptop" (some (.v4 0xc0000207)) (fromSecs 13)]

theorem prompt_rate_limits_thrice :
    start.answers knocksThrice =
        [.done, .admits .prompt, .admits .repeat_, .admits .prompt, .admits .prompt] ∧
      ∀ before first between second after,
        trace step start knocksThrice = before ++ first :: (between ++ second :: after) →
        ∀ one two, raised first = some one → raised second = some two →
          (one.fingerprint = two.fingerprint → one.at_ + fromSecs 2 ≤ two.at_) ∧
          ∀ source, one.source = some source → two.source = some source →
            one.fingerprint ≠ two.fingerprint → one.at_ + fromSecs 10 ≤ two.at_ := by
  have clears : ∀ taken ∈ trace step start knocksThrice,
      clearsRecent taken = false ∧ clearsSources taken = false := by
    decide
  refine ⟨by decide, fun before first between second after split one two isOne isTwo => ?_⟩
  obtain ⟨same, apart⟩ := (@prompt_rate_limits knocksThrice (by decide)).1 before first between
    second after split one two isOne isTwo
  rw [split] at clears
  refine ⟨fun alike => same alike fun taken member => (clears taken ?_).1,
    fun source isOne isTwo other => apart source isOne isTwo other fun taken member =>
      (clears taken ?_).2⟩
  · rw [List.mem_append, List.mem_singleton] at member
    rcases member with member | rfl <;> simp_all
  · simp [member]

end HopsFormal.Prompts
