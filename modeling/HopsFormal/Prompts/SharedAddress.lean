import HopsFormal.Prompts.Withholding

/-!
# Two machines behind one address

A machine that is throttled, because another at its address was prompted for, is
prompted for later if the other was not prompted for again meanwhile: each prompt of the
other counts against the address anew.
-/

namespace HopsFormal.Prompts

open Lib Prompter

/-- A throttled machine knocks again, for the first time ten seconds or more later. -/
structure KnocksAgain (earlier between : List Call) (fingerprint : String)
    (first second : IpAddr) (throttledAt now : Nat) : Prop where
  ordered : InOrder (earlier ++ .admit_ fingerprint (some first) throttledAt :: between)
  made : By (earlier ++ .admit_ fingerprint (some first) throttledAt :: between) now
  throttled : (start.run earlier).answer (.admit_ fingerprint (some first) throttledAt) =
    .admits .throttled
  together : sourceOf second = sourceOf first
  later : throttledAt + fromSecs 10 ≤ now
  firstAgain : ∀ ip time, .admit_ fingerprint ip time ∈ between → time < throttledAt + fromSecs 10
  stays : StaysOpen (start.run earlier) throttledAt
    (.admit_ fingerprint (some first) throttledAt :: between) now

theorem StaysOpen.now {prompter : Prompter} {clock now : Nat} {calls : List Call}
    (stays : StaysOpen prompter clock calls now) (between : Between clock calls now) :
    (prompter.run calls).gate.isOpen now := by
  induction calls generalizing prompter clock with
  | nil => exact stays now between le_rfl
  | cons call rest ih => exact ih stays.2 between.2

/--
The throttled machine is prompted for exactly when no other machine at its address was
prompted for in the last ten seconds, and it was not itself in the last two.
-/
theorem knocksAgain_prompts_iff {earlier between : List Call} {fingerprint : String}
    {first second : IpAddr} {throttledAt now : Nat}
    (again : KnocksAgain earlier between fingerprint first second throttledAt now) :
    let calls := earlier ++ .admit_ fingerprint (some first) throttledAt :: between
    let gate := (start.run calls).gate
    (start.run calls).answer (.admit_ fingerprint (some second) now) = .admits .prompt ↔
      ¬ OtherPrompted (trace step .start calls) (sourceOf second) fingerprint now ∧
      ¬ (gate.recent.seen.overflows (RecentPrompts.recent now) RecentPrompts.pruneAt = false ∧
        SelfPrompted (trace step .start calls) fingerprint now) := by
  intro calls gate
  have shown : gate.isOpen now := by
    obtain ⟨-, ahead⟩ := between_split again.ordered again.made rfl rfl
    have opens := again.stays.now ahead
    rw [← run_append] at opens
    exact opens
  have whole := prompts_iff again.ordered again.made fingerprint (some second)
  refine Iff.trans ⟨Answer.admits.inj, congrArg Answer.admits⟩ (whole.trans ?_)
  constructor
  · rintro ⟨-, alone, fresh⟩
    exact ⟨fun other => alone ⟨_, rfl, other⟩, fresh⟩
  · rintro ⟨alone, fresh⟩
    refine ⟨shown, ?_, fresh⟩
    rintro ⟨source, same, other⟩
    obtain rfl := Option.some.inj same
    exact alone other

def sharedAddress : IpAddr := .v4 0xc0000207

/-- The desk is prompted for, and the laptop behind the same address knocks a second later. -/
def deskFirst : List Call :=
  [.open_ 0, .admit_ "desk" (some sharedAddress) 0]

def deskKeepsKnocking : List Call :=
  [2, 4, 6, 8, 10].map fun secs => .admit_ "desk" (some sharedAddress) (fromSecs secs)

theorem deskFirst_linked :
    Linked (start.run deskFirst).gate (fromSecs 1) (fromSecs 1) :=
  ⟨rfl, ⟨0, rfl, by decide⟩, le_rfl⟩

theorem knocksAgain_laptop :
    KnocksAgain deskFirst deskKeepsKnocking "laptop" sharedAddress sharedAddress (fromSecs 1)
      (fromSecs 11) where
  ordered := by decide
  made := by decide
  throttled := by decide
  together := rfl
  later := by decide
  firstAgain ip time member := by simp [deskKeepsKnocking] at member
  stays := (openThroughout_run deskFirst_linked (between_of (by decide) (by decide) (by decide)
    (by decide))).mp (by decide)

/-- The laptop is throttled again, ten seconds after it was. -/
theorem laptop_shut_out :
    KnocksAgain deskFirst deskKeepsKnocking "laptop" sharedAddress sharedAddress (fromSecs 1)
        (fromSecs 11) ∧
      (start.run (deskFirst ++ .admit_ "laptop" (some sharedAddress) (fromSecs 1) ::
          deskKeepsKnocking)).answer (.admit_ "laptop" (some sharedAddress) (fromSecs 11)) ≠
        .admits .prompt :=
  ⟨knocksAgain_laptop, by decide⟩

/-- Where the desk knocks once only, the laptop is prompted for. -/
theorem knocksAgain_prompts_iff_alone :
    ¬ OtherPrompted (trace step .start
      (deskFirst ++ [.admit_ "laptop" (some sharedAddress) (fromSecs 1)])) (sourceOf sharedAddress)
        "laptop" (fromSecs 11) := by
  have again : KnocksAgain deskFirst [] "laptop" sharedAddress sharedAddress (fromSecs 1)
      (fromSecs 11) :=
    ⟨by decide, by decide, by decide, rfl, by decide, nofun,
      (openThroughout_run deskFirst_linked (between_of (by decide) (by decide) (by decide)
        (by decide))).mp (by decide)⟩
  exact ((knocksAgain_prompts_iff again).mp (by decide)).1

end HopsFormal.Prompts
