import HopsFormal.Frontend.PairingCard

/-!
# An approval binds to the machine on the card

The card keeps its machine while the request is live, except that the queue behind it
is bounded: when a machine that does not wait yet asks and the queue is full, the one
that waits longest goes, and that may be the one on the card.
-/

namespace HopsFormal.Frontend

open List
open Prompts (AttemptOrigin)

/-! ## The bounded queue -/

namespace AppModel

section Hold

variable {α : Type} {fingerprint : α → String} {held : List α} {entry other : α}

/-- A machine that waits already has its entry replaced; a new one goes to the end. -/
theorem hold_cases (fp : α → String) (held : List α) (entry : α) :
    (∃ before old after, held = before ++ old :: after ∧ fp old = fp entry ∧
        hold fp held entry = before ++ entry :: after) ∨
      (∀ old ∈ held, fp old ≠ fp entry) ∧
        hold fp held entry =
          (if maxPairingAttempts ≤ held.length then held.tail else held) ++ [entry] := by
  unfold hold
  cases place : held.findIdx? (fp · = fp entry) with
  | none =>
    refine .inr ⟨fun old member same => ?_, rfl⟩
    have differs := findIdx?_eq_none_iff.mp place old member
    exact absurd same (by simpa using differs)
  | some found =>
    obtain ⟨inside, same, -⟩ := findIdx?_eq_some_iff_getElem.mp place
    refine .inl ⟨held.take found, held[found], held.drop (found + 1), ?_, ?_, ?_⟩
    · rw [getElem_cons_drop, take_append_drop]
    · exact of_decide_eq_true same
    · exact set_eq_take_append_cons_drop.trans (if_pos inside)

theorem mem_hold_self : entry ∈ hold fingerprint held entry := by
  rcases hold_cases fingerprint held entry with ⟨before, old, after, -, -, is⟩ | ⟨-, is⟩
  · rw [is]
    simp
  · rw [is]
    simp

theorem nodup_hold (nodup : (held.map fingerprint).Nodup) :
    ((hold fingerprint held entry).map fingerprint).Nodup := by
  rcases hold_cases fingerprint held entry with ⟨before, old, after, rfl, same, is⟩ | ⟨isNew, is⟩
  · rw [is]
    rw [map_append, map_cons, same] at nodup
    rwa [map_append, map_cons]
  · have kept : ((if maxPairingAttempts ≤ held.length then held.tail else held).Sublist held) := by
      split
      · exact tail_sublist held
      · exact Sublist.refl held
    rw [is, map_append, map_singleton]
    refine Nodup.append (nodup.sublist (kept.map _)) (nodup_singleton _) ?_
    refine disjoint_singleton.mpr fun member => ?_
    obtain ⟨old, inside, same⟩ := mem_map.mp member
    exact isNew old (kept.subset inside) same

/-- What is held afterwards is the new entry, or one of another machine held before. -/
theorem of_mem_hold (nodup : (held.map fingerprint).Nodup)
    (member : other ∈ hold fingerprint held entry) :
    other = entry ∨ other ∈ held ∧ fingerprint other ≠ fingerprint entry := by
  rcases hold_cases fingerprint held entry with ⟨before, old, after, rfl, same, is⟩ | ⟨isNew, is⟩
  · rw [is, mem_append, mem_cons] at member
    rw [map_append, map_cons, nodup_append, nodup_cons] at nodup
    obtain ⟨-, ⟨notAfter, -⟩, apart⟩ := nodup
    rcases member with inBefore | rfl | inAfter
    · refine .inr ⟨by simp [inBefore], fun equal => ?_⟩
      exact apart _ (mem_map_of_mem inBefore) _ mem_cons_self (equal.trans same.symm)
    · exact .inl rfl
    · refine .inr ⟨by simp [inAfter], fun equal => notAfter ?_⟩
      exact (equal.trans same.symm) ▸ mem_map_of_mem inAfter
  · rw [is, mem_append, mem_singleton] at member
    rcases member with kept | rfl
    · have inside : other ∈ held := by
        split at kept
        · exact mem_of_mem_tail kept
        · exact kept
      exact .inr ⟨inside, isNew other inside⟩
    · exact .inl rfl

/-- An entry goes only for another machine's, from the front of a full queue. -/
theorem mem_hold_of_mem (member : other ∈ held) (differs : fingerprint other ≠ fingerprint entry)
    (stays : (∃ old ∈ held, fingerprint old = fingerprint entry) ∨
      held.length < maxPairingAttempts ∨ held.head? ≠ some other) :
    other ∈ hold fingerprint held entry := by
  rcases hold_cases fingerprint held entry with ⟨before, old, after, rfl, same, is⟩ | ⟨isNew, is⟩
  · rw [is]
    rcases mem_append.mp member with inBefore | inRest
    · simp [inBefore]
    · rcases mem_cons.mp inRest with rfl | inAfter
      · exact absurd same differs
      · simp [inAfter]
  · rw [is]
    refine mem_append_left _ ?_
    rcases stays with ⟨old, inside, same⟩ | room | notFront
    · exact absurd same (isNew old inside)
    · rwa [if_neg (by omega)]
    · split
      · cases held with
        | nil => exact member
        | cons front rest =>
          rcases mem_cons.mp member with rfl | later
          · exact absurd rfl notFront
          · exact later
      · exact member

theorem hold_drops_front {front : α} (nodup : (held.map fingerprint).Nodup)
    (isNew : ∀ old ∈ held, fingerprint old ≠ fingerprint entry)
    (full : maxPairingAttempts ≤ held.length) (first : held.head? = some front) :
    ∀ kept ∈ hold fingerprint held entry, fingerprint kept ≠ fingerprint front := by
  intro kept member same
  have frontIn : front ∈ held := mem_of_head? first
  rcases hold_cases fingerprint held entry with ⟨before, old, after, rfl, equal, -⟩ | ⟨-, is⟩
  · exact isNew old (by simp) equal
  · rw [is, if_pos full, mem_append, mem_singleton] at member
    cases held with
    | nil => cases frontIn
    | cons head rest =>
      obtain rfl : head = front := Option.some.inj first
      rcases member with later | rfl
      · rw [map_cons, nodup_cons] at nodup
        exact nodup.1 (same ▸ mem_map_of_mem later)
      · exact isNew head mem_cons_self same.symm

end Hold

variable {Addr : Type} [DecidableEq Addr]

/-- An event holds a request that is not permitted, or drops those that are by now. -/
theorem apply_attempts (model : AppModel Addr) (event : FrontendEvent Addr) (now : Nat) :
    (∃ fp origin addr, event = .connectionAttempt fp origin addr ∧
        model.arrivalPermitted fp (some origin) = false ∧
        (model.apply event now).pairingAttempts =
          hold PairingAttempt.fingerprint model.pairingAttempts ⟨fp, origin, addr, now⟩ ∧
        (model.apply event now).arrivalPermitted = model.arrivalPermitted) ∨
      (∀ fp origin addr, event = .connectionAttempt fp origin addr →
          model.arrivalPermitted fp (some origin) = true) ∧
        (model.apply event now).pairingAttempts.Sublist model.pairingAttempts ∧
        ∀ attempt ∈ model.pairingAttempts,
          (model.apply event now).arrivalPermitted attempt.fingerprint (some attempt.origin) =
              false →
            attempt ∈ (model.apply event now).pairingAttempts := by
  have unchanged : ∀ after : AppModel Addr, after.pairingAttempts = model.pairingAttempts →
      after.pairingAttempts.Sublist model.pairingAttempts ∧
        ∀ attempt ∈ model.pairingAttempts,
          after.arrivalPermitted attempt.fingerprint (some attempt.origin) = false →
            attempt ∈ after.pairingAttempts := by
    intro after same
    rw [same]
    exact ⟨Sublist.refl _, fun _ member _ => member⟩
  have forgotten : ∀ (known : AppModel Addr) (fp : String),
      (known.forgetIfLastAddr fp).pairingAttempts = known.pairingAttempts := by
    intro known fp
    unfold forgetIfLastAddr
    split <;> rfl
  have registered : ∀ (addr : Addr) (fp : String),
      (model.registerPeer addr fp).pairingAttempts = model.pairingAttempts := by
    intro addr fp
    unfold registerPeer
    split
    · split
      · rfl
      · exact forgotten _ _
    · rfl
  cases event with
  | connectionAttempt fp origin addr =>
    cases permitted : model.arrivalPermitted fp (some origin) with
    | true =>
      refine .inr ⟨?_, unchanged _ ?_⟩
      · rintro _ _ _ ⟨⟩
        exact permitted
      · rw [apply, if_pos permitted]
    | false =>
      have is : model.apply (.connectionAttempt fp origin addr) now =
          { model.noteAttempt ⟨fp, origin, addr, now⟩ with
            pendingPairing := some fp
            pendingPairingOrigin := some origin
            pendingPairingAddr := addr
            pendingPairingSince := some now } := by
        rw [apply, if_neg (by simp [permitted])]
      refine .inl ⟨fp, origin, addr, rfl, permitted, ?_, ?_⟩
      · rw [is]
        rfl
      · rw [is]
        rfl
  | authorizedUpdated authorized =>
    refine .inr ⟨nofun, ?_⟩
    have is : (model.apply (.authorizedUpdated authorized) now).pairingAttempts =
        { model with authorized := authorized }.withdrawPermitted.pairingAttempts := by
      rw [apply]
      split <;> rfl
    have permits : (model.apply (.authorizedUpdated authorized) now).arrivalPermitted =
        { model with authorized := authorized }.arrivalPermitted := by
      rw [apply]
      split <;> rfl
    rw [is, permits]
    exact ⟨filter_sublist, fun attempt member refused =>
      mem_filter.mpr ⟨member, by rw [refused]; rfl⟩⟩
  | trustUpdated trust =>
    refine .inr ⟨nofun, filter_sublist, fun attempt member refused =>
      mem_filter.mpr ⟨member, ?_⟩⟩
    exact Bool.not_eq_true' _ ▸ refused
  | deviceConnected addr fp | deviceEntered fp addr =>
    exact .inr ⟨nofun, unchanged _ (registered addr fp)⟩
  | incomingDisconnected addr =>
    refine .inr ⟨nofun, unchanged _ ?_⟩
    rw [apply]
    split
    · exact forgotten _ _
    · rfl
  | crossingRefused handle reason =>
    refine .inr ⟨nofun, unchanged _ ?_⟩
    rw [apply]
    split <;> rfl
  | enumerate | created | state | deleted | publicKeyFingerprint | pairingCheck | pairingEnded
  | other => exact .inr ⟨nofun, unchanged _ rfl⟩

end AppModel

/-! ## What the card picks -/

namespace PairingCard

variable {Addr : Type} {card : PairingCard} {model : AppModel Addr} {now : Nat}
  {snoozed : String → Bool} {attempt : PairingAttempt Addr}

theorem of_pick (picked : card.pick model now snoozed = some attempt) :
    attempt ∈ model.pairingAttempts ∧ live model now snoozed attempt = true := by
  rcases Option.or_eq_some_iff.mp picked with kept | ⟨-, oldest⟩
  · exact mem_filter.mp (mem_of_find?_eq_some kept)
  · exact ⟨mem_of_find?_eq_some oldest, find?_some oldest⟩

theorem pick_onScreen (member : attempt ∈ model.pairingAttempts)
    (isLive : live model now snoozed attempt = true)
    (shown : card.shown.map Prod.fst = some attempt.fingerprint) :
    (card.pick model now snoozed).map PairingAttempt.fingerprint = some attempt.fingerprint := by
  unfold pick
  cases found : (model.pairingAttempts.filter (live model now snoozed)).find?
      (fun waiting => some waiting.fingerprint = card.shown.map Prod.fst) with
  | none =>
    have differs := find?_eq_none.mp found attempt (mem_filter.mpr ⟨member, isLive⟩)
    exact absurd (decide_eq_true shown.symm) differs
  | some kept =>
    have same : some kept.fingerprint = card.shown.map Prod.fst := by
      simpa using find?_some found
    rw [Option.some_or, Option.map_some, same, shown]

/-- After a card is drawn, what was picked is what is on screen. -/
theorem shown_show (card : PairingCard) (model : AppModel Addr) (now : Nat)
    (snoozed : String → Bool) :
    (card.show model now snoozed).2.shown.map Prod.fst =
      (card.pick model now snoozed).map PairingAttempt.fingerprint := by
  unfold «show»
  cases picked : card.pick model now snoozed with
  | none => rfl
  | some attempt =>
    dsimp only
    split
    · next same => exact same.symm
    · rfl

theorem show_fst (card : PairingCard) (model : AppModel Addr) (now : Nat)
    (snoozed : String → Bool) :
    (card.show model now snoozed).1 = card.pick model now snoozed := by
  unfold «show»
  dsimp only
  split
  · split <;> rfl
  · rfl

end PairingCard

/-! ## The desk -/

namespace Desk

open AppModel PairingCard

variable {Addr : Type} {desk : Desk Addr}

/-- A machine's request stands: not permitted since, repeated of late, and not denied. -/
def Requested (desk : Desk Addr) (fp : String) (now : Nat) (snoozed : String → Bool) : Prop :=
  ∃ asked, desk.asked fp = some asked ∧ now - asked.since < staleAfter ∧ snoozed fp = false

/-- Whenever the card is drawn next, it keeps its machine if the request of it stands. -/
def Keeps (desk : Desk Addr) : Prop :=
  ∀ fp now snoozed, desk.clock ≤ now → desk.onScreen = some fp →
    desk.Requested fp now snoozed →
      (desk.card.show desk.model now snoozed).1.map PairingAttempt.fingerprint = some fp

/--
No machine that is new to a full queue pushes out the one on the card: it is permitted or
waits already, or there is room, or the first in the queue is not on the card or has not
repeated its request of late.
-/
def Clear (desk : Desk Addr) : Act Addr → Prop
  | .event (.connectionAttempt fp origin _) now =>
    desk.model.arrivalPermitted fp (some origin) = true ∨
      (∃ waiting ∈ desk.model.pairingAttempts, waiting.fingerprint = fp) ∨
      desk.model.pairingAttempts.length < maxPairingAttempts ∨
      ∀ front asked, desk.model.pairingAttempts.head? = some front →
        desk.onScreen = some front.fingerprint → desk.asked front.fingerprint = some asked →
          staleAfter ≤ now - asked.since
  | _ => True

def OnTime (desk : Desk Addr) : Act Addr → Prop
  | .event _ now => desk.clock ≤ now
  | .draw now _ => desk.clock ≤ now
  | .answer _ => True

/-- What is asked, what waits and what is on screen agree, in every state of every run. -/
structure Sound (desk : Desk Addr) : Prop where
  agree : ∀ attempt ∈ desk.model.pairingAttempts, ∀ asked,
    desk.asked attempt.fingerprint = some asked → asked = ⟨attempt.origin, attempt.since⟩
  nodup : (desk.model.pairingAttempts.map PairingAttempt.fingerprint).Nodup
  unpermitted : ∀ fp asked, desk.asked fp = some asked →
    desk.model.arrivalPermitted fp (some asked.origin) = false
  screen : desk.card.shown.map Prod.fst = desk.onScreen

/-- The machine on the card waits, unless its request is stale. -/
def Held (desk : Desk Addr) : Prop :=
  ∀ fp asked, desk.onScreen = some fp → desk.asked fp = some asked →
    desk.clock - asked.since < staleAfter →
      ∃ attempt ∈ desk.model.pairingAttempts, attempt.fingerprint = fp

theorem keeps_iff_held (sound : desk.Sound) : desk.Keeps ↔ desk.Held := by
  constructor
  · intro keeps fp asked shown asks fresh
    have kept := keeps fp desk.clock (fun _ => false) le_rfl shown ⟨asked, asks, fresh, rfl⟩
    rw [show_fst, Option.map_eq_some_iff] at kept
    obtain ⟨attempt, picked, same⟩ := kept
    exact ⟨attempt, (of_pick picked).1, same⟩
  · rintro held fp now snoozed later shown ⟨asked, asks, fresh, awake⟩
    obtain ⟨attempt, member, rfl⟩ := held fp asked shown asks (by omega)
    obtain rfl := sound.agree attempt member asked asks
    rw [show_fst]
    refine pick_onScreen member ?_ (sound.screen.trans shown)
    have refused := sound.unpermitted _ _ asks
    simp only [live, refused, awake, decide_eq_true fresh, Bool.not_false, Bool.and_self]

variable [DecidableEq Addr]

/-! ### What an event changes -/

variable {fp : String} {now : Nat}

theorem asked_held {origin : AttemptOrigin} {addr : Option Addr}
    (unpermitted : ∀ fp asked, desk.asked fp = some asked →
      desk.model.arrivalPermitted fp (some asked.origin) = false)
    (refused : desk.model.arrivalPermitted fp (some origin) = false)
    (same : (desk.model.apply (.connectionAttempt fp origin addr) now).arrivalPermitted =
      desk.model.arrivalPermitted) (other : String) :
    (desk.step (.event (.connectionAttempt fp origin addr) now)).asked other =
      if other = fp then some ⟨origin, now⟩ else desk.asked other := by
  simp only [step, askedAfter, same]
  by_cases this : other = fp
  · subst this
    rw [if_pos ⟨rfl, refused⟩, if_pos rfl]
    simp [refused]
  · rw [if_neg fun both => this both.1.symm, if_neg this]
    cases asks : desk.asked other with
    | none => rfl
    | some asked => simp [unpermitted other asked asks]

theorem asked_kept {event : FrontendEvent Addr}
    (others : ∀ fp origin addr, event = .connectionAttempt fp origin addr →
      desk.model.arrivalPermitted fp (some origin) = true) {asked : Asked}
    (asks : (desk.step (.event event now)).asked fp = some asked) : desk.asked fp = some asked ∧
      (desk.model.apply event now).arrivalPermitted fp (some asked.origin) = false := by
  obtain ⟨heard, refused⟩ := Option.filter_eq_some_iff.mp asks
  refine ⟨?_, by simpa using refused⟩
  cases event with
  | connectionAttempt other origin addr =>
    dsimp only at heard
    split at heard
    · next both =>
      have permitted := others other origin addr rfl
      rw [both.1, both.2] at permitted
      cases permitted
    · exact heard
  | _ => exact heard

theorem unpermitted_event (event : FrontendEvent Addr) (now : Nat) {asked : Asked}
    (asks : (desk.step (.event event now)).asked fp = some asked) :
    (desk.step (.event event now)).model.arrivalPermitted fp (some asked.origin) = false := by
  obtain ⟨-, refused⟩ := Option.filter_eq_some_iff.mp asks
  exact (Bool.not_eq_true' _).mp refused

/-! ### One step -/

theorem Sound.step (sound : desk.Sound) (act : Act Addr) : (desk.step act).Sound := by
  cases act with
  | event event now =>
    rcases desk.model.apply_attempts event now with
      ⟨fp, origin, addr, rfl, refused, queue, same⟩ | ⟨others, kept, -⟩
    · refine ⟨fun attempt member asked asks => ?_, ?_, fun _ _ => unpermitted_event _ now,
        sound.screen⟩
      · rw [asked_held sound.unpermitted refused same] at asks
        have inQueue := (congrArg (attempt ∈ ·) queue).mp member
        rcases of_mem_hold sound.nodup inQueue with rfl | ⟨before, differs⟩
        · rw [if_pos rfl] at asks
          exact (Option.some.inj asks).symm
        · rw [if_neg differs] at asks
          exact sound.agree attempt before asked asks
      · rw [Desk.step, queue]
        exact nodup_hold sound.nodup
    · refine ⟨fun attempt member asked asks => ?_, ?_, fun _ _ => unpermitted_event event now,
        sound.screen⟩
      · exact sound.agree attempt (kept.subset member) asked (asked_kept others asks).1
      · exact sound.nodup.sublist (kept.map _)
  | draw now snoozed =>
    refine ⟨sound.agree, sound.nodup, sound.unpermitted, ?_⟩
    rw [Desk.step, onScreen, head?_cons, Option.bind_some, shown_show, show_fst]
  | answer answer =>
    rw [Desk.step]
    split
    · exact ⟨sound.agree, sound.nodup, sound.unpermitted, sound.screen⟩
    · exact sound

theorem held_step_iff (sound : desk.Sound) (held : desk.Held) {act : Act Addr}
    (onTime : desk.OnTime act) : (desk.step act).Held ↔ desk.Clear act := by
  cases act with
  | event event now =>
    have later : desk.clock ≤ now := onTime
    rcases desk.model.apply_attempts event now with
      ⟨fp, origin, addr, rfl, refused, queue, same⟩ | ⟨others, -, stays⟩
    · have asks := asked_held sound.unpermitted refused same
      constructor
      · intro holds
        by_cases waits : ∃ waiting ∈ desk.model.pairingAttempts, waiting.fingerprint = fp
        · exact .inr (.inl waits)
        · by_cases room : desk.model.pairingAttempts.length < maxPairingAttempts
          · exact .inr (.inr (.inl room))
          · refine .inr (.inr (.inr fun front asked first shown asksFront => ?_))
            by_contra fresh
            have isNew : ∀ old ∈ desk.model.pairingAttempts, old.fingerprint ≠ fp :=
              fun old member equal => waits ⟨old, member, equal⟩
            have differs := isNew front (mem_of_head? first)
            have asksStill := (asks front.fingerprint).trans ((if_neg differs).trans asksFront)
            obtain ⟨attempt, member, equal⟩ :=
              holds front.fingerprint asked shown asksStill (Nat.lt_of_not_le fresh)
            have inQueue := (congrArg (attempt ∈ ·) queue).mp member
            exact hold_drops_front sound.nodup isNew (Nat.le_of_not_lt room) first attempt
              inQueue equal
      · intro clear shownFp asked shown asksAfter fresh
        rw [asks] at asksAfter
        by_cases this : shownFp = fp
        · subst this
          exact ⟨_, (congrArg (_ ∈ ·) queue).mpr mem_hold_self, rfl⟩
        · rw [if_neg this] at asksAfter
          have freshNow : now - asked.since < staleAfter := fresh
          obtain ⟨attempt, member, rfl⟩ := held shownFp asked shown asksAfter (by omega)
          refine ⟨attempt, (congrArg (_ ∈ ·) queue).mpr (mem_hold_of_mem member this ?_), rfl⟩
          rcases clear with permitted | waits | room | aside
          · rw [refused] at permitted
            cases permitted
          · exact .inl waits
          · exact .inr (.inl room)
          · refine .inr (.inr fun first => ?_)
            exact absurd (aside attempt asked first shown asksAfter) (Nat.not_le.mpr freshNow)
    · refine iff_of_true (fun fp asked shown asksAfter fresh => ?_) ?_
      · obtain ⟨asksBefore, refused⟩ := asked_kept others asksAfter
        have freshNow : now - asked.since < staleAfter := fresh
        obtain ⟨attempt, member, rfl⟩ := held fp asked shown asksBefore (by omega)
        obtain rfl := sound.agree attempt member asked asksBefore
        exact ⟨attempt, stays attempt member refused, rfl⟩
      · cases event with
        | connectionAttempt fp origin addr => exact .inl (others fp origin addr rfl)
        | _ => trivial
  | draw now snoozed =>
    refine iff_of_true (fun fp asked shown _ _ => ?_) trivial
    rw [Desk.step, onScreen, head?_cons, Option.bind_some, show_fst,
      Option.map_eq_some_iff] at shown
    obtain ⟨attempt, picked, same⟩ := shown
    exact ⟨attempt, (of_pick picked).1, same⟩
  | answer answer =>
    refine iff_of_true ?_ trivial
    rw [Desk.step]
    split
    · exact held
    · exact held

/-! ### Clicks and answers -/

/-- The card has shown a machine since it is noted to, and nothing else. -/
def Armed (desk : Desk Addr) : Prop :=
  ∀ fp since, desk.card.shown = some (fp, since) →
    ∃ recent earlier, desk.shows = recent ++ (since, some fp) :: earlier ∧
      ∀ shown ∈ recent, shown.2 = some fp

/-- What a list of answers, the latest first, comes to. -/
def replay (given : List (String × CardAnswer)) : PairingAnswers :=
  given.foldr (fun entry answers => answers.give entry.2) .unanswered

/-- The answers held for a machine are the latest ones, and all given for it. -/
def Own (desk : Desk Addr) : Prop :=
  ∀ fp, desk.answers.fingerprint = some fp →
    ∃ recent earlier, desk.given = recent ++ earlier ∧ (∀ entry ∈ recent, entry.1 = fp) ∧
      desk.answers = { replay recent with fingerprint := some fp }

theorem Armed.step (armed : desk.Armed) (act : Act Addr) : (desk.step act).Armed := by
  cases act with
  | event event now => exact armed
  | answer answer =>
    rw [Desk.step]
    split
    · exact armed
    · exact armed
  | draw now snoozed =>
    intro fp since shown
    simp only [Desk.step, show_fst] at shown ⊢
    unfold «show» at shown
    cases picked : desk.card.pick desk.model now snoozed with
    | none =>
      rw [picked] at shown
      cases shown
    | some attempt =>
      rw [picked] at shown
      dsimp only at shown
      split at shown
      · next same =>
        obtain ⟨recent, earlier, whole, each⟩ := armed fp since shown
        refine ⟨(now, some attempt.fingerprint) :: recent, earlier, ?_, ?_⟩
        · rw [whole]
          rfl
        · rw [shown] at same
          exact forall_mem_cons.mpr ⟨same, each⟩
      · obtain ⟨rfl, rfl⟩ := Prod.mk.inj (Option.some.inj shown)
        exact ⟨[], desk.shows, rfl, nofun⟩

omit [DecidableEq Addr] in
/-- Turning the answers to a machine leaves those given for it, or none. -/
theorem own_forCard (own : desk.Own) (fp : String) :
    ∃ recent earlier, desk.given = recent ++ earlier ∧ (∀ entry ∈ recent, entry.1 = fp) ∧
      desk.answers.forCard fp = { replay recent with fingerprint := some fp } := by
  unfold PairingAnswers.forCard
  split
  · next same => exact own fp same
  · exact ⟨[], desk.given, rfl, nofun, rfl⟩

theorem Own.step (own : desk.Own) (act : Act Addr) : (desk.step act).Own := by
  cases act with
  | event event now => exact own
  | draw now snoozed =>
    intro fp
    simp only [Desk.step]
    cases drawn : (desk.card.show desk.model now snoozed).1.map PairingAttempt.fingerprint with
    | none => exact own fp
    | some shown =>
      intro same
      obtain ⟨recent, earlier, whole, each, is⟩ := own_forCard own shown
      rw [Option.elim_some, is] at same
      obtain rfl : shown = fp := Option.some.inj same
      exact ⟨recent, earlier, whole, each, is⟩
  | answer answer =>
    rw [Desk.step]
    split
    · next shown _ =>
      intro fp same
      obtain ⟨recent, earlier, whole, each, is⟩ := own_forCard own shown
      have given : ((desk.answers.forCard shown).give answer) =
          { replay ((shown, answer) :: recent) with fingerprint := some shown } := by
        rw [is]
        cases answer <;> rfl
      rw [given] at same
      obtain rfl : shown = fp := Option.some.inj same
      exact ⟨(shown, answer) :: recent, earlier, congrArg _ whole,
        forall_mem_cons.mpr ⟨rfl, each⟩, given⟩
    · exact own

/-! ## Runs -/

/-- A condition on every step of a run, in the state it is taken in. -/
def Throughout (condition : Desk Addr → Act Addr → Prop) : Desk Addr → List (Act Addr) → Prop
  | _, [] => True
  | desk, act :: acts => condition desk act ∧ Throughout condition (desk.step act) acts

omit [DecidableEq Addr] in
theorem sound_opened : (opened : Desk Addr).Sound :=
  ⟨nofun, nodup_nil, nofun, rfl⟩

theorem keeps_throughout (sound : desk.Sound) (held : desk.Held) {acts : List (Act Addr)}
    (onTime : Throughout OnTime desk acts) :
    Throughout Clear desk acts ↔ ∀ before, before <+: acts → (before.foldl step desk).Keeps := by
  have keepsNow : desk.Keeps := (keeps_iff_held sound).mpr held
  induction acts generalizing desk with
  | nil =>
    refine iff_of_true trivial fun before isPrefix => ?_
    rwa [prefix_nil.mp isPrefix]
  | cons act acts ih =>
    have soundNext := sound.step act
    have heldIff := held_step_iff sound held onTime.1
    constructor
    · rintro ⟨clear, rest⟩ before isPrefix
      have heldNext := heldIff.mpr clear
      rcases prefix_cons_iff.mp isPrefix with rfl | ⟨tail, rfl, isTail⟩
      · exact keepsNow
      · exact (ih soundNext heldNext onTime.2 ((keeps_iff_held soundNext).mpr heldNext)).mp
          rest tail isTail
    · intro keeps
      have keepsNext := keeps [act] ⟨acts, rfl⟩
      have heldNext := (keeps_iff_held soundNext).mp keepsNext
      refine ⟨heldIff.mp heldNext, (ih soundNext heldNext onTime.2 keepsNext).mpr ?_⟩
      intro before isPrefix
      exact keeps (act :: before) (cons_prefix_cons.mpr ⟨rfl, isPrefix⟩)

theorem run_induction {motive : Desk Addr → Prop} (start : motive opened)
    (step : ∀ desk act, motive desk → motive (desk.step act)) (acts : List (Act Addr)) :
    motive (run acts) := by
  induction acts using reverseRecOn with
  | nil => exact start
  | append_singleton acts act ih =>
    rw [run, foldl_append]
    exact step _ act ih

/-- Every time the card was drawn from some moment on, a second ago or more, it showed this. -/
def ShownFor (desk : Desk Addr) (fp : String) (now : Nat) : Prop :=
  ∃ recent since earlier, desk.shows = recent ++ (since, some fp) :: earlier ∧
    (∀ shown ∈ recent, shown.2 = some fp) ∧ since + armAfter ≤ now

/-- An approval says what the latest answers come to, all of them given for its machine. -/
def AnsweredFor (desk : Desk Addr) (request : AuthorizeKey) : Prop :=
  ∃ recent earlier, desk.given = recent ++ earlier ∧
    (∀ entry ∈ recent, entry.1 = request.fingerprint) ∧
    (replay recent).controller = some request.controller ∧
    (replay recent).clipboard = request.clipboard

omit [DecidableEq Addr] in
theorem shownFor_approve (armed : desk.Armed) (approved : desk.card.approve fp now = .ok ()) :
    desk.ShownFor fp now := by
  unfold approve at approved
  split at approved
  · next shownFp since shown =>
    split at approved
    · next same =>
      split at approved
      · next longEnough =>
        subst same
        obtain ⟨recent, earlier, whole, each⟩ := armed shownFp since shown
        have positive : 0 < armAfter := by decide
        exact ⟨recent, since, earlier, whole, each, by omega⟩
      · cases approved
    · cases approved
  · cases approved

omit [DecidableEq Addr] in
theorem answeredFor_approval (own : desk.Own) {name : String} {request : AuthorizeKey}
    (approved : desk.answers.approval fp name = .ok request) :
    request.fingerprint = fp ∧ desk.AnsweredFor request := by
  unfold PairingAnswers.approval at approved
  split at approved
  · next same =>
    obtain ⟨recent, earlier, whole, each, is⟩ := own fp same
    rw [is] at approved
    unfold approvalRequest at approved
    split at approved
    · cases approved
    · next controller chosen =>
      cases approved
      exact ⟨rfl, recent, earlier, whole, each, chosen, rfl⟩
  · cases approved

/--
The card keeps its machine in every state of a run exactly if no step pushes out the one
it shows; in any run a click counts only for what has been on screen for a second, and an
approval holds no answer given for another machine.
-/
theorem approval_binds (acts : List (Act Addr)) (onTime : Throughout OnTime opened acts) :
    (Throughout Clear opened acts ↔ ∀ before, before <+: acts → (run before).Keeps) ∧
      (∀ fp now, (run acts).card.approve fp now = .ok () → (run acts).ShownFor fp now) ∧
      ∀ fp name request, (run acts).answers.approval fp name = .ok request →
        request.fingerprint = fp ∧ (run acts).AnsweredFor request := by
  have armed : (run acts).Armed := run_induction nofun (fun _ act armed => armed.step act) acts
  have own : (run acts).Own := run_induction nofun (fun _ act own => own.step act) acts
  exact ⟨keeps_throughout sound_opened nofun onTime, fun _ _ => shownFor_approve armed,
    fun _ _ _ => answeredFor_approval own⟩

/-- A machine asks to pair, at a moment. -/
def knock (fp : String) (now : Nat) : Act Nat :=
  .event (.connectionAttempt fp .inbound none) now

/-- A machine asks and is shown, and then as many others ask as the queue holds. -/
def crowd : List (Act Nat) :=
  [knock "aa" 0, .draw 0 fun _ => false] ++
    ["b0", "b1", "b2", "b3", "b4", "b5", "b6", "b7", "b8", "b9", "ba", "bb", "bc", "bd", "be",
      "bf"].map fun fp => knock fp 1

theorem crowd_onTime : Throughout OnTime opened crowd := by
  simp [crowd, knock, Throughout, OnTime, step, opened]

/-- The machine on the card asked a moment ago, and the card turns to another. -/
theorem crowd_takes_card :
    ¬ ∀ acts : List (Act Nat), Throughout OnTime opened acts →
      ∀ before, before <+: acts → (run before).Keeps := by
  intro keeps
  have asks : (run crowd).asked "aa" = some ⟨.inbound, 0⟩ := by decide
  have kept := keeps crowd crowd_onTime crowd (prefix_refl crowd) "aa" 1 (fun _ => false)
    (by decide) (by decide) ⟨⟨.inbound, 0⟩, asks, by decide, rfl⟩
  exact absurd kept (by decide)

/-- With one machine on the card and another behind it, the card stays. -/
theorem approval_binds_two :
    (run [knock "aa" 0, .draw 0 fun _ => false, knock "b0" 1]).Keeps := by
  refine (approval_binds _ ?_).1.mp ?_ _ prefix_rfl
  · simp [knock, Throughout, OnTime, step, opened]
  · exact ⟨.inr (.inr (.inl (by decide))), trivial, .inr (.inr (.inl (by decide))), trivial⟩

end Desk

end HopsFormal.Frontend
