import HopsFormal.Ipc.Admission
import HopsFormal.Lib.Places

/-!
# What the proof agrees on

Whatever lines are delivered, an admitted connection was proved to by one
frontend for its own two nonces, a frontend has proved only what a connection
answered to it, and neither is matched with two of the other.  What has been
covered by a code is kept in a record, and each entry of it goes back to a party
that still has the two nonces.
-/

namespace HopsFormal.Ipc

open Option Lib
open Trust.Seal (Bytes ascii)
open Pairing (Sha256)

variable {Request : Type} [Sha256]

/-! ## One connection -/

namespace Connection

/-- What was written to a connection that is not admitted. -/
def Said (setup : Setup Request) (conn : Connection Request) : Prop :=
  (conn.written = [] ∨ ∃ nf nd, conn.answer = some (nf, nd) ∧
      conn.written <+: asBytes (answerLine setup.token nf nd)) ∨
    (setup.unix = true ∧ conn.refused = true ∧ conn.written <+: asBytes busyLine)

/-- What holds of a connection by itself. -/
structure Plain (setup : Setup Request) (conn : Connection Request) : Prop where
  opened : conn.stage = .opened → conn.answer = none ∧ conn.written = []
  exchange : ∀ nf nd, conn.stage = .answered nf nd ∨ conn.stage = .admitted nf nd →
    conn.answer = some (nf, nd)
  fields : ∀ nf nd, conn.answer = some (nf, nd) → isHexField nf = true ∧ isHexField nd = true
  authed : conn.state.authed = true → ∃ nf nd, conn.stage = .admitted nf nd
  before : (∀ nf nd, conn.stage ≠ .admitted nf nd) → conn.taken = [] ∧ conn.Said setup

variable {setup : Setup Request} {conn : Connection Request} {nf nd : String}

theorem Plain.ended (plain : conn.Plain setup) (before : ∀ nf nd, conn.stage ≠ .admitted nf nd) :
    ({ conn with stage := .ended } : Connection Request).Plain setup where
  opened impossible := by cases impossible
  exchange nf nd impossible := by rcases impossible with impossible | impossible <;> cases impossible
  fields := plain.fields
  authed was := by
    obtain ⟨nf, nd, admitted⟩ := plain.authed was
    exact absurd admitted (before nf nd)
  before _ := plain.before before

/-- Nothing about the proof is changed on an admitted connection. -/
theorem Plain.later (plain : conn.Plain setup) (admitted : conn.stage = .admitted nf nd)
    (state : ConnState) (written : Bytes) (taken : List Request) :
    ({ conn with state := state, written := written, taken := taken } :
      Connection Request).Plain setup where
  opened impossible := by
    rw [show conn.stage = _ from admitted] at impossible
    cases impossible
  exchange := plain.exchange
  fields := plain.fields
  authed _ := ⟨nf, nd, admitted⟩
  before never := absurd admitted (never nf nd)

omit [Sha256] in
theorem challengeHeard_fields {line : Bytes} {raw : Option (Vector UInt8 32)}
    (heard : challengeHeard line raw = some (nf, nd)) :
    isHexField nf = true ∧ isHexField nd = true := by
  unfold challengeHeard at heard
  simp only [bind_eq_bind, bind_eq_some_iff, Option.pure_def, Option.some.injEq,
    Prod.mk.injEq] at heard
  obtain ⟨first, -, _, challenge, _, drawn, rfl, rfl⟩ := heard
  exact ⟨isHexField_challengeIn challenge, isHexField_nonce drawn⟩

theorem accept_plain (setup : Setup Request) (daemon waiting took : Nat) :
    (accept setup.unix daemon waiting took : Connection Request).Plain setup := by
  unfold accept
  split
  · refine ⟨nofun, fun nf nd impossible => ?_,
      nofun, nofun,
      fun _ => ⟨rfl, ?_⟩⟩
    · rcases impossible with impossible | impossible <;> cases impossible
    · unfold Said sayBusy
      split
      · rename_i unix
        exact .inr ⟨unix, rfl, List.take_prefix _ _⟩
      · exact .inl (.inl rfl)
  · refine ⟨fun _ => ⟨rfl, rfl⟩, fun nf nd impossible => ?_,
      nofun, nofun,
      fun _ => ⟨rfl, .inl (.inl rfl)⟩⟩
    rcases impossible with impossible | impossible <;> cases impossible

omit [Sha256] in
theorem accept_proof (unix : Bool) (daemon waiting took : Nat) :
    (accept unix daemon waiting took : Connection Request).answer = none ∧
      ∀ nf nd, (accept unix daemon waiting took : Connection Request).stage ≠ .admitted nf nd := by
  unfold accept
  split <;> exact ⟨rfl, fun _ _ => Stage.noConfusion⟩

theorem Plain.read (plain : conn.Plain setup) (admitted : conn.stage = .admitted nf nd)
    (line : Bytes) : (conn.read setup line).Plain setup := by
  unfold Connection.read
  split
  · exact plain
  · split
    · exact plain.later admitted _ _ _
    · exact plain.later admitted _ _ _

theorem Plain.lose (plain : conn.Plain setup) : conn.lose.Plain setup := by
  unfold Connection.lose
  split
  · rename_i opened
    exact plain.ended (by rw [opened]; intro nf nd impossible; cases impossible)
  · rename_i answered
    exact plain.ended (by rw [answered]; intro nf nd impossible; cases impossible)
  · rename_i admitted
    exact plain.later admitted _ _ _
  · exact plain

theorem Plain.writeOne (plain : conn.Plain setup) (event : Bytes) (took : Nat) :
    (conn.writeOne event took).Plain setup := by
  unfold Connection.writeOne
  split
  · exact plain
  · split
    · exact plain
    · rename_i authed
      have wasAuthed : conn.state.authed = true := by simpa using authed
      obtain ⟨nf, nd, admitted⟩ := plain.authed wasAuthed
      split
      · exact plain.later admitted _ _ _
      · exact plain.later admitted _ _ _

theorem Plain.answers (plain : conn.Plain setup) (opened : conn.stage = .opened)
    (nfField : isHexField nf = true) (ndField : isHexField nd = true) (took : Nat) (stage : Stage)
    (next : stage = .answered nf nd ∨ stage = .ended) : ({ conn with
        stage := stage
        answer := some (nf, nd)
        written := conn.written ++ (asBytes (answerLine setup.token nf nd)).take took } :
      Connection Request).Plain setup where
  opened impossible := by
    dsimp only at impossible
    rw [impossible] at next
    rcases next with next | next <;> cases next
  exchange nf' nd' there := by
    rcases next with rfl | rfl
    · rcases there with there | there
      · obtain ⟨rfl, rfl⟩ := Stage.answered.inj there
        rfl
      · cases there
    · rcases there with there | there <;> cases there
  fields nf' nd' made := by
    obtain ⟨rfl, rfl⟩ := Prod.mk.inj (Option.some.inj made)
    exact ⟨nfField, ndField⟩
  authed was := by
    obtain ⟨_, _, admitted⟩ := plain.authed was
    rw [opened] at admitted
    cases admitted
  before _ := by
    have never : ∀ nf nd, conn.stage ≠ .admitted nf nd := by
      intro _ _ admitted
      rw [opened] at admitted
      cases admitted
    refine ⟨(plain.before never).1, .inl (.inr ⟨nf, nd, rfl, ?_⟩)⟩
    rw [(plain.opened opened).2, List.nil_append]
    exact List.take_prefix _ _

theorem Plain.hear (plain : conn.Plain setup) (line : Bytes) (raw : Option (Vector UInt8 32))
    (took : Nat) : (conn.hear setup line raw took).Plain setup := by
  unfold Connection.hear
  split
  · rename_i opened
    split
    · exact plain.ended (by rw [opened]; intro nf nd impossible; cases impossible)
    · rename_i nf nd heard
      obtain ⟨nfField, ndField⟩ := challengeHeard_fields heard
      refine plain.answers opened nfField ndField took _ ?_
      split
      · exact .inl rfl
      · exact .inr rfl
  · rename_i nf nd answered
    split
    · refine ⟨nofun, fun nf' nd' there => ?_, plain.fields,
        fun _ => ⟨nf, nd, rfl⟩, fun never => absurd rfl (never nf nd)⟩
      rcases there with there | there
      · cases there
      · obtain ⟨rfl, rfl⟩ := Stage.admitted.inj there
        exact plain.exchange nf nd (.inl answered)
    · exact plain.ended (by rw [answered]; intro nf nd impossible; cases impossible)
  · rename_i admitted
    exact plain.read admitted line
  · exact plain

/-! ## What a line changes about the proof -/

theorem hear_answer (setup : Setup Request) (conn : Connection Request) (line : Bytes)
    (raw : Option (Vector UInt8 32)) (took : Nat) :
    (conn.hear setup line raw took).answer =
      (if conn.stage = .opened then challengeHeard line raw else none).or conn.answer := by
  unfold Connection.hear
  split
  · rename_i opened
    rw [if_pos opened]
    split
    · rename_i unheard
      rw [unheard, none_or]
    · rename_i heard
      rw [heard]
      rfl
  · rename_i answered
    have unopened : conn.stage ≠ .opened := by
      rw [answered]
      exact Stage.noConfusion
    rw [if_neg unopened, none_or]
    split <;> rfl
  · rename_i admitted
    have unopened : conn.stage ≠ .opened := by
      rw [admitted]
      exact Stage.noConfusion
    rw [if_neg unopened, none_or]
    unfold Connection.read
    split
    · rfl
    · split <;> rfl
  · rename_i ended
    have unopened : conn.stage ≠ .opened := by
      rw [ended]
      exact Stage.noConfusion
    rw [if_neg unopened, none_or]

theorem hear_admitted {line : Bytes} {raw : Option (Vector UInt8 32)} {took : Nat}
    (admitted : (conn.hear setup line raw took).stage = .admitted nf nd) :
    conn.stage = .admitted nf nd ∨ (conn.stage = .answered nf nd ∧
      (preauthLine line).any (frontendProven setup.token nf nd) = true) := by
  unfold Connection.hear at admitted
  split at admitted
  · split at admitted
    · cases admitted
    · dsimp only at admitted
      split at admitted <;> cases admitted
  · rename_i nf' nd' answered
    split at admitted
    · rename_i proven
      obtain ⟨rfl, rfl⟩ := Stage.admitted.inj admitted
      exact .inr ⟨answered, proven⟩
    · cases admitted
  · left
    unfold Connection.read at admitted
    split at admitted
    · exact admitted
    · split at admitted <;> exact admitted
  · left
    exact admitted

omit [Sha256] in
theorem lose_answer (conn : Connection Request) : conn.lose.answer = conn.answer := by
  unfold lose
  split <;> rfl

omit [Sha256] in
theorem lose_admitted (admitted : conn.lose.stage = .admitted nf nd) :
    conn.stage = .admitted nf nd := by
  unfold lose at admitted
  split at admitted
  · cases admitted
  · cases admitted
  · exact admitted
  · exact admitted

omit [Sha256] in
theorem writeOne_proof (conn : Connection Request) (event : Bytes) (took : Nat) :
    (conn.writeOne event took).answer = conn.answer ∧
      (conn.writeOne event took).stage = conn.stage := by
  unfold writeOne
  split
  · exact ⟨rfl, rfl⟩
  · split
    · exact ⟨rfl, rfl⟩
    · split <;> exact ⟨rfl, rfl⟩

end Connection

/-! ## One session -/

namespace Session

/-- What holds of a session by itself: only a checked answer is given a proof. -/
structure Plain (token : String) (session : Session) : Prop where
  field : isHexField session.nf = true
  own : ∀ nd, session.asking = .proved nd → isHexField nd = true
  waits : session.asking = .asked → session.sent = asBytes (challengeLine session.nf)
  silent : (∀ nd, session.asking ≠ .proved nd) → session.sent <+: asBytes (challengeLine session.nf)
  proof : ∀ nd, session.asking = .proved nd → ∃ part,
    part <+: asBytes (proofLine token session.nf nd) ∧
    session.sent = asBytes (challengeLine session.nf) ++ part

theorem ask_plain (token : String) {nf : String} (field : isHexField nf = true) (took : Nat) :
    (ask nf took).Plain token := by
  have never : ∀ nd, (ask nf took).asking ≠ .proved nd := by
    intro nd
    unfold ask
    dsimp only
    split <;> exact Asking.noConfusion
  refine ⟨field, fun nd proved => absurd proved (never nd), fun asked => ?_,
    fun _ => List.take_prefix _ _, fun nd proved => absurd proved (never nd)⟩
  unfold ask at asked ⊢
  dsimp only at asked ⊢
  split at asked
  · rename_i whole
    exact List.take_of_length_le whole
  · cases asked

variable {token nd : String} {session : Session}

theorem Plain.gaveUp (plain : session.Plain token) (asked : session.asking = .asked) :
    ({ session with asking := .gaveUp } : Session).Plain token where
  field := plain.field
  own nd impossible := by cases impossible
  waits impossible := by cases impossible
  silent _ := plain.silent (by rw [asked]; exact fun _ => Asking.noConfusion)
  proof nd impossible := by cases impossible

theorem answerHeard_field {stream : Bytes} (heard : session.answerHeard token stream = some nd) :
    isHexField nd = true := by
  unfold answerHeard at heard
  dsimp only at heard
  split at heard
  · cases heard
  · split at heard
    · cases heard
    · obtain ⟨text, -, proven⟩ := bind_eq_some_iff.mp heard
      exact (daemonProven_iff.mp proven).1

omit [Sha256] in
theorem stop_nf (session : Session) : session.stop.nf = session.nf := by
  unfold stop
  split <;> rfl

omit [Sha256] in
theorem stop_proved : session.stop.asking = .proved nd ↔ session.asking = .proved nd := by
  unfold stop
  split
  · rename_i asked
    rw [asked]
    constructor <;> exact fun impossible => Asking.noConfusion impossible
  · exact Iff.rfl

theorem Plain.stop (plain : session.Plain token) : session.stop.Plain token := by
  unfold Session.stop
  split
  · rename_i asked
    exact plain.gaveUp asked
  · exact plain

theorem Plain.hear (plain : session.Plain token) (stream : Bytes) (took : Nat) :
    (session.hear token stream took).Plain token := by
  unfold Session.hear
  split
  · rename_i asked
    split
    · exact plain.gaveUp asked
    · rename_i nd heard
      refine ⟨plain.field, fun nd' proved => ?_, nofun,
        fun never => absurd rfl (never nd), fun nd' proved => ?_⟩
      · obtain rfl := Asking.proved.inj proved
        exact answerHeard_field heard
      · obtain rfl := Asking.proved.inj proved
        exact ⟨_, List.take_prefix _ _, by rw [← plain.waits asked]⟩
  · exact plain
  · exact plain

theorem hear_nf (token : String) (session : Session) (stream : Bytes) (took : Nat) :
    (session.hear token stream took).nf = session.nf := by
  unfold Session.hear
  split
  · split <;> rfl
  · rfl
  · rfl

theorem hear_proved {stream : Bytes} {took : Nat} :
    (session.hear token stream took).asking = .proved nd ↔
      session.asking = .proved nd ∨
        (session.asking = .asked ∧ session.answerHeard token stream = some nd) := by
  unfold Session.hear
  split
  · rename_i asked
    rw [asked]
    split
    · rename_i unheard
      simp [unheard]
    · rename_i heard
      simp [heard]
  · rename_i proved
    simp [proved]
  · rename_i gaveUp
    simp [gaveUp]

end Session

end HopsFormal.Ipc
