import HopsFormal.Clipboard.Monitor
import Mathlib.Data.List.Induction

/-!
# What the clipboard monitor discloses

A text is read when it may be and sent when two polls in a row have found it unmarked.  What
the task found as it began to read, and what a peer sent it, is not sent until a poll has
found something else there or another text has been written over it.
-/

namespace HopsFormal.Clipboard

open List

/-! ## The deeds of a run -/

/-- The poll read this text, with the marks clear, at this count of copies. -/
def Poll.Reads (poll : Poll) (text : String) (count : Option Int) : Prop :=
  poll.wanted = true ∧ poll.reading = some ⟨some false, true, .text text count⟩

instance (poll : Poll) (text : String) (count : Option Int) : Decidable (poll.Reads text count) :=
  inferInstanceAs (Decidable (_ ∧ _))

def Poll.FoundElse (poll : Poll) (text : String) : Prop :=
  ∃ reading, poll.reading = some reading ∧ reading.copied ≠ .changing ∧
    ∀ count, reading.copied ≠ .text text count

namespace Deed

def poll? : Deed → Option Poll
  | .poll tick => some tick
  | .applied _ => none

/-- After this the text is not known to be on the clipboard. -/
def Replaces (text : String) : Deed → Prop
  | .poll tick => tick.FoundElse text
  | .applied other => other ≠ text

end Deed

def polls (deeds : List Deed) : List Poll := deeds.filterMap Deed.poll?

/-- Some poll since reading was last not wanted could read the clipboard. -/
def started : List Poll → Bool
  | [] => false
  | poll :: older =>
    poll.wanted && (poll.reading.any (fun reading => reading.copied ≠ .changing) || started older)

/-- The deed tells the task that the clipboard holds this text, and to keep it to itself. -/
def Deed.Leaves (older : List Deed) (text : String) : Deed → Prop
  | .poll tick => started (polls older) = false ∧ ∃ count, tick.Reads text count
  | .applied other => other = text

/-- A deed left this text, and none has replaced it since. -/
inductive Holding (text : String) : List Deed → Prop
  | left {deed : Deed} {older : List Deed} (leaves : deed.Leaves older text) :
      Holding text (deed :: older)
  | kept {deed : Deed} {older : List Deed} (keeps : ¬ deed.Replaces text)
      (held : Holding text older) : Holding text (deed :: older)

theorem Holding.of_split {text : String} {deed : Deed} {older : List Deed}
    (leaves : deed.Leaves older text) {between : List Deed}
    (kept : ∀ other ∈ between, ¬ other.Replaces text) :
    Holding text (between ++ deed :: older) := by
  induction between with
  | nil => exact .left leaves
  | cons first between ih =>
    exact .kept (kept first mem_cons_self)
      (ih fun other among => kept other (mem_cons_of_mem first among))

/-! ## What one poll does to the memory -/

namespace Memory

variable {memory : Memory} {copied : Copied} {text : String}

theorem found_sent (sent : (memory.found copied).2 = some text) :
    memory.reading = true ∧ memory.last ≠ some text ∧
      ∃ count, copied = .text text count ∧ memory.settling = some (count, text) := by
  unfold found at sent
  split at sent
  case isFalse => cases sent
  case isTrue reads =>
    cases copied with
    | text other count =>
      simp only [foundAgain] at sent
      split at sent
      · cases sent
      · rename_i differs
        split at sent
        · cases sent
        · rename_i settled
          obtain rfl : other = text := Option.some.inj sent
          exact ⟨reads, differs, count, rfl, not_not.mp settled⟩
    | isPrivate | nothing | changing => cases sent

theorem found_reading (memory : Memory) (copied : Copied) :
    (memory.found copied).1.reading = (decide (copied ≠ .changing) || memory.reading) := by
  cases reads : memory.reading with
  | false => cases copied <;> simp [found, foundFirst, reads]
  | true =>
    cases copied with
    | text text count =>
      simp only [found, foundAgain, reads, if_true]
      split
      · simp
      · split <;> simp
    | isPrivate | nothing | changing => simp [found, foundAgain, reads]

theorem found_settling {count : Option Int} (idle : memory.reading = false → memory.settling = none)
    (settling : (memory.found copied).1.settling = some (count, text)) :
    copied = .text text count := by
  cases reads : memory.reading with
  | false =>
    have unsettled := idle reads
    cases copied <;> simp [found, foundFirst, reads, unsettled] at settling
  | true =>
    cases copied with
    | text other seen =>
      simp only [found, foundAgain, reads, if_true] at settling
      split at settling
      · cases settling
      · split at settling
        · obtain ⟨rfl, rfl⟩ := Prod.mk.inj (Option.some.inj settling)
          rfl
        · cases settling
    | isPrivate | nothing | changing => simp [found, foundAgain, reads] at settling

theorem found_first (idle : memory.reading = false) (text : String) (count : Option Int) :
    (memory.found (.text text count)).1.last = some text := by
  simp [found, foundFirst, idle]

/-- A remembered text stays remembered while the reads find it, or can tell nothing. -/
theorem found_last (known : memory.last = some text)
    (same : copied = .changing ∨ ∃ count, copied = .text text count) :
    (memory.found copied).1.last = some text := by
  obtain rfl | ⟨count, rfl⟩ := same
  · cases reads : memory.reading <;> simp [found, foundFirst, foundAgain, reads, known]
  · cases reads : memory.reading <;> simp [found, foundFirst, foundAgain, reads, known]

end Memory

/-! ## What one step does -/

/-- A step of the task: nothing, a text written, a poll that may not read, or a read. -/
inductive Step (memory : Memory) (deeds : List Deed) : Memory → List Deed → Prop
  | idle : Step memory deeds memory deeds
  | wrote (text : String) : Step memory deeds (memory.wrote text) (.applied text :: deeds)
  | notWanted : Step memory deeds memory.notWanted (.poll ⟨false, none, none⟩ :: deeds)
  | read (reading : Reading) (asked : reading.textAsked = true → reading.marks = some false)
      (text : ∀ text count, reading.copied = .text text count →
        reading = ⟨some false, true, .text text count⟩) :
      Step memory deeds (memory.found reading.copied).1
        (.poll ⟨true, some reading, (memory.found reading.copied).2⟩ :: deeds)

theorem Monitor.step_cases (monitor : Monitor) (act : Act) :
    Step monitor.memory monitor.deeds (monitor.step act).memory (monitor.step act).deeds := by
  cases act with
  | change change | permit wanted | apply text => exact .idle
  | write outcome =>
    simp only [Monitor.step, Monitor.write]
    split
    · exact .idle
    · exact .idle
    · exact .wrote _
  | poll counted looked offered =>
    simp only [Monitor.step, Monitor.poll]
    split
    · exact .read _ (monitor.board.read_asked counted looked offered)
        fun _ _ => monitor.board.read_text counted looked offered
    · exact .notWanted

/-! ## The invariant -/

/-- The poll read and sent what it may, given what was done before it. -/
structure Poll.Proper (poll : Poll) (older : List Deed) : Prop where
  wanted : poll.reading.isSome = true → poll.wanted = true
  clear : ∀ reading, poll.reading = some reading → reading.textAsked = true →
    reading.marks = some false
  begun : poll.sent.isSome = true → started (polls older) = true
  twice : ∀ text, poll.sent = some text → ∃ count previous earlier,
    polls older = previous :: earlier ∧ poll.Reads text count ∧ previous.Reads text count
  news : ∀ text, poll.sent = some text → ¬ Holding text older

/-- What the task remembers is what its deeds tell. -/
structure Remembers (memory : Memory) (deeds : List Deed) : Prop where
  reading : memory.reading = started (polls deeds)
  idle : memory.reading = false → memory.settling = none
  settling : ∀ count text, memory.settling = some (count, text) → ∃ previous earlier,
    polls deeds = previous :: earlier ∧ previous.Reads text count
  last : ∀ text, Holding text deeds → memory.last = some text

theorem Remembers.start : Remembers .start [] where
  reading := rfl
  idle _ := rfl
  settling _ _ settling := nomatch settling
  last _ held := nomatch held

variable {memory : Memory} {deeds : List Deed}

section

variable (remembers : Remembers memory deeds)
include remembers

/-- A read that sends sends what it may. -/
theorem Remembers.proper {reading : Reading}
    (asked : reading.textAsked = true → reading.marks = some false)
    (whole : ∀ text count, reading.copied = .text text count →
      reading = ⟨some false, true, .text text count⟩) :
    Poll.Proper ⟨true, some reading, (memory.found reading.copied).2⟩ deeds where
  wanted _ := rfl
  clear other same := by
    cases same
    exact asked
  begun sends := by
    obtain ⟨text, sent⟩ := Option.isSome_iff_exists.mp sends
    rw [← remembers.reading]
    exact (Memory.found_sent sent).1
  twice text sent := by
    obtain ⟨-, -, count, found, settled⟩ := Memory.found_sent sent
    obtain ⟨previous, earlier, before, reads⟩ := remembers.settling count text settled
    exact ⟨count, previous, earlier, before, ⟨rfl, congrArg some (whole text count found)⟩, reads⟩
  news text sent held := (Memory.found_sent sent).2.1 (remembers.last text held)

theorem Remembers.wrote (text : String) :
    Remembers (memory.wrote text) (.applied text :: deeds) where
  reading := remembers.reading
  idle := remembers.idle
  settling := remembers.settling
  last other held := by
    cases held with
    | left leaves => exact congrArg some leaves
    | kept keeps held => exact congrArg some (not_not.mp keeps)

theorem Remembers.notWanted : Remembers memory.notWanted (.poll ⟨false, none, none⟩ :: deeds) where
  reading := rfl
  idle _ := rfl
  settling _ _ settling := nomatch settling
  last other held := by
    cases held with
    | left leaves =>
      obtain ⟨-, count, wanted, -⟩ := leaves
      cases wanted
    | kept keeps held => exact remembers.last other held

theorem Remembers.read {reading : Reading}
    (whole : ∀ text count, reading.copied = .text text count →
      reading = ⟨some false, true, .text text count⟩) : Remembers (memory.found reading.copied).1
      (.poll ⟨true, some reading, (memory.found reading.copied).2⟩ :: deeds) where
  reading := by
    rw [Memory.found_reading, remembers.reading]
    rfl
  idle stopped := by
    rw [Memory.found_reading, Bool.or_eq_false_iff] at stopped
    have unread : reading.copied = .changing := by simpa using stopped.1
    simpa [Memory.found, Memory.foundFirst, stopped.2, unread] using remembers.idle stopped.2
  settling count text settling := by
    have found := Memory.found_settling remembers.idle settling
    exact ⟨_, polls deeds, rfl, rfl, congrArg some (whole text count found)⟩
  last text held := by
    cases held with
    | left leaves =>
      obtain ⟨unread, count, -, found⟩ := leaves
      rw [Option.some.inj found]
      exact Memory.found_first (remembers.reading.trans unread) text count
    | kept keeps held =>
      refine Memory.found_last (remembers.last text held) ?_
      by_contra other
      rw [not_or, not_exists] at other
      exact keeps ⟨reading, rfl, other.1, other.2⟩

end

/-- What the task remembers and what it did, together. -/
structure Discreet (memory : Memory) (deeds : List Deed) : Prop where
  remembers : Remembers memory deeds
  proper : ∀ newer poll older, deeds = newer ++ .poll poll :: older → poll.Proper older

theorem Discreet.extend {memory' : Memory} {deed : Deed} (discreet : Discreet memory deeds)
    (remembers : Remembers memory' (deed :: deeds))
    (proper : ∀ poll, deed = .poll poll → poll.Proper deeds) :
    Discreet memory' (deed :: deeds) where
  remembers := remembers
  proper newer poll older split := by
    cases newer with
    | nil =>
      obtain ⟨same, rest⟩ := List.cons.inj split
      exact rest ▸ proper poll same
    | cons first newer => exact discreet.proper newer poll older (List.cons.inj split).2

theorem Discreet.step {memory' : Memory} {deeds' : List Deed} (discreet : Discreet memory deeds)
    (step : Step memory deeds memory' deeds') : Discreet memory' deeds' := by
  have remembers := discreet.remembers
  cases step with
  | idle => exact discreet
  | wrote text => exact discreet.extend (remembers.wrote text) fun poll same => nomatch same
  | notWanted =>
    refine discreet.extend remembers.notWanted fun poll same => ?_
    cases same
    exact ⟨nofun, nofun, nofun, nofun, nofun⟩
  | read reading asked whole =>
    refine discreet.extend (remembers.read whole) fun poll same => ?_
    cases same
    exact remembers.proper asked whole

theorem Monitor.run_discreet (board : Board) (wanted : Bool) (acts : List Act) :
    Discreet (run board wanted acts).memory (run board wanted acts).deeds := by
  induction acts using List.reverseRecOn with
  | nil => exact ⟨.start, fun newer poll older split => by simp [run, Monitor.start] at split⟩
  | append_singleton acts act ih =>
    rw [run, foldl_append]
    exact ih.step (step_cases _ act)

/-! ## What is sent -/

/-- A text is sent when this poll and the one before it read it unmarked at the same count of
copies; the text is asked for only where reading is wanted and the marks are clear; the text
there as reading began, and a text of a peer, is sent only after a poll has found something
else or another text has been applied. -/
theorem Monitor.sent_discreetly (board : Board) (wanted : Bool) (acts : List Act)
    {newer older : List Deed} {poll : Poll}
    (split : (run board wanted acts).deeds = newer ++ .poll poll :: older) :
    (∀ text, poll.sent = some text → ∃ count previous earlier,
      polls older = previous :: earlier ∧ poll.Reads text count ∧ previous.Reads text count) ∧
    (∀ reading, poll.reading = some reading →
      poll.wanted = true ∧ (reading.textAsked = true → reading.marks = some false)) ∧
    (started (polls older) = false → poll.sent = none) ∧
    (∀ text between first rest count, poll.sent = some text →
      older = between ++ .poll first :: rest → started (polls rest) = false →
      first.Reads text count → ∃ other ∈ between, other.Replaces text) ∧
    (∀ text between rest, poll.sent = some text → older = between ++ .applied text :: rest →
      ∃ other ∈ between, other.Replaces text) := by
  have proper := (run_discreet board wanted acts).proper newer poll older split
  have replaced : ∀ {text between deed rest}, poll.sent = some text →
      older = between ++ deed :: rest → deed.Leaves rest text →
      ∃ other ∈ between, other.Replaces text := by
    intro text between deed rest sent parts leaves
    by_contra kept
    simp only [not_exists, not_and] at kept
    exact proper.news text sent (parts ▸ Holding.of_split leaves kept)
  refine ⟨proper.twice, fun reading found => ⟨?_, proper.clear reading found⟩, ?_, ?_, ?_⟩
  · exact proper.wanted (found ▸ rfl)
  · intro unread
    by_contra sends
    have begun := proper.begun (Option.isSome_iff_ne_none.mpr sends)
    exact absurd (begun.symm.trans unread) (by decide)
  · intro text between first rest count sent parts unread reads
    exact replaced sent parts ⟨unread, count, reads⟩
  · intro text between rest sent parts
    exact replaced sent parts rfl

/-- A run that sends: a copy is made after the first read, and two polls find it. -/
def copiedOnce : List Act :=
  [.poll [] [] [], .change (.copy (some "p") (some false) (some 1)), .poll [] [] [], .poll [] [] []]

theorem Monitor.sent_discreetly_once :
    ∃ count previous earlier, polls [Deed.poll ⟨true, some ⟨some false, true,
        .text "p" (some 1)⟩, none⟩, .poll ⟨true, some ⟨some false, true, .nothing⟩, none⟩] =
          previous :: earlier ∧
      Poll.Reads ⟨true, some ⟨some false, true, .text "p" (some 1)⟩, some "p"⟩ "p" count ∧
      previous.Reads "p" count :=
  (Monitor.sent_discreetly ⟨none, some false, some 0⟩ true copiedOnce
    (show (run ⟨none, some false, some 0⟩ true copiedOnce).deeds = [] ++ _ :: _ from rfl)).1 "p" rfl

/-- Two texts of peers are applied, and then the first of them is copied here. -/
def copiedAfterBoth : List Act :=
  [.poll [] [] [], .apply "p", .write (some (some false, some 1)), .apply "q",
    .write (some (some false, some 2)), .change (.copy (some "p") (some false) (some 3)),
    .poll [] [] [], .poll [] [] []]

/-- A text that was applied is sent though every poll since has found just that text: another
text was applied in between, and the text was copied anew. -/
theorem Monitor.copied_after_both : ∃ poll between rest,
    (run ⟨none, some false, some 0⟩ true copiedAfterBoth).deeds =
      .poll poll :: (between ++ .applied "p" :: rest) ∧ poll.sent = some "p" ∧
    ∀ other ∈ polls between, other.wanted = true ∧ ¬ other.FoundElse "p" := by
  refine ⟨⟨true, some ⟨some false, true, .text "p" (some 3)⟩, some "p"⟩,
    [.poll ⟨true, some ⟨some false, true, .text "p" (some 3)⟩, none⟩, .applied "q"],
    [.poll ⟨true, some ⟨some false, true, .nothing⟩, none⟩], rfl, rfl, ?_⟩
  intro other among
  obtain rfl := mem_singleton.mp among
  refine ⟨rfl, ?_⟩
  rintro ⟨reading, same, -, differs⟩
  cases same
  exact differs (some 3) rfl

end HopsFormal.Clipboard
