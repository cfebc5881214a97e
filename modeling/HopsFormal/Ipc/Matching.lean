import HopsFormal.Ipc.Agreement
import HopsFormal.Ipc.Undisturbed

/-!
# Connections matched with sessions

The record of what was covered by codes ties the two sides together: an entry
under the daemon's label goes back to a connection that answered with its two
nonces, one under the frontend's label to a session that proved itself on them.
A code that is found correct is in the record, so each side finds the other.
-/

namespace HopsFormal.Ipc

open Lib
open Trust.Seal (Bytes ascii)
open Pairing (Sha256)

variable {Request : Type}

namespace World

/-- Some connection was answered with these nonces. -/
def Answered (world : World Request) (nf nd : String) : Prop :=
  ∃ (i : Nat) (conn : Connection Request), world.conns[i]? = some conn ∧ conn.answer = some (nf, nd)

/-- Some session proved itself on these nonces. -/
def Proved (world : World Request) (nf nd : String) : Prop :=
  ∃ (i : Nat) (session : Session),
    world.sessions[i]? = some session ∧ session.nf = nf ∧ session.asking = .proved nd

variable [Sha256]

/-- What holds in every world that is reached. -/
structure Agreed (setup : Setup Request) (world : World Request) : Prop where
  conns : ∀ (i : Nat) conn, world.conns[i]? = some conn → conn.Plain setup
  sessions : ∀ (i : Nat) session, world.sessions[i]? = some session → session.Plain setup.token
  drawnNd : ∀ (i : Nat) conn nf nd, world.conns[i]? = some conn → conn.answer = some (nf, nd) →
    nd ∈ world.drawn
  drawnNf : ∀ (i : Nat) session, world.sessions[i]? = some session → session.nf ∈ world.drawn
  ownNd : ∀ (i j : Nat) one other nf nf' nd, world.conns[i]? = some one →
    world.conns[j]? = some other → one.answer = some (nf, nd) → other.answer = some (nf', nd) → i = j
  ownNf : ∀ (i j : Nat) one other, world.sessions[i]? = some one →
    world.sessions[j]? = some other → one.nf = other.nf → i = j
  made : ∀ code ∈ world.made, ∃ nf nd,
    (world.Answered nf nd ∧ code = covered daemonLabel nf nd) ∨
      (world.Proved nf nd ∧ code = covered frontendLabel nf nd)
  proven : ∀ (i : Nat) conn nf nd, world.conns[i]? = some conn → conn.stage = .admitted nf nd →
    world.Proved nf nd
  answered : ∀ nf nd, world.Proved nf nd → world.Answered nf nd

namespace Agreed

variable {setup : Setup Request} {world : World Request} {nf nd : String}

section

variable (agreed : world.Agreed setup)
include agreed

theorem answered_fields (answered : world.Answered nf nd) :
    isHexField nf = true ∧ isHexField nd = true := by
  obtain ⟨i, conn, found, answer⟩ := answered
  exact (agreed.conns i conn found).fields nf nd answer

theorem proved_of_made (nfField : isHexField nf = true) (ndField : isHexField nd = true)
    (made : covered frontendLabel nf nd ∈ world.made) : world.Proved nf nd := by
  obtain ⟨nf', nd', ⟨answered, same⟩ | ⟨proved, same⟩⟩ := agreed.made _ made
  · obtain ⟨nfField', ndField'⟩ := agreed.answered_fields answered
    exact absurd same.symm (covered_label_ne nfField' ndField' nfField ndField)
  · obtain ⟨nfField', ndField'⟩ := agreed.answered_fields (agreed.answered nf' nd' proved)
    obtain ⟨rfl, rfl⟩ := covered_injective nfField ndField nfField' ndField' same
    exact proved

theorem answered_of_made (nfField : isHexField nf = true) (ndField : isHexField nd = true)
    (made : covered daemonLabel nf nd ∈ world.made) : world.Answered nf nd := by
  obtain ⟨nf', nd', ⟨answered, same⟩ | ⟨proved, same⟩⟩ := agreed.made _ made
  · obtain ⟨nfField', ndField'⟩ := agreed.answered_fields answered
    obtain ⟨rfl, rfl⟩ := covered_injective nfField ndField nfField' ndField' same
    exact answered
  · obtain ⟨nfField', ndField'⟩ := agreed.answered_fields (agreed.answered nf' nd' proved)
    exact absurd same (covered_label_ne nfField ndField nfField' ndField')

/-- The record and the matches survive when each side keeps what it had. -/
theorem made_of (next : World Request)
    (answers : ∀ nf nd, world.Answered nf nd → next.Answered nf nd)
    (proves : ∀ nf nd, world.Proved nf nd → next.Proved nf nd) : ∀ code ∈ world.made, ∃ nf nd,
      (next.Answered nf nd ∧ code = covered daemonLabel nf nd) ∨
        (next.Proved nf nd ∧ code = covered frontendLabel nf nd) := by
  intro code made
  obtain ⟨nf, nd, ⟨answered, same⟩ | ⟨proved, same⟩⟩ := agreed.made code made
  · exact ⟨nf, nd, .inl ⟨answers nf nd answered, same⟩⟩
  · exact ⟨nf, nd, .inr ⟨proves nf nd proved, same⟩⟩

theorem conn_changed {i : Nat} {change : Connection Request → Connection Request}
    (opened : Option (String × String))
    (plain : ∀ conn, conn.Plain setup → (change conn).Plain setup)
    (answer : ∀ conn, world.conns[i]? = some conn → (change conn).answer = opened.or conn.answer)
    (unanswered : ∀ pair ∈ opened, ∃ conn, world.conns[i]? = some conn ∧ conn.answer = none)
    (fresh : ∀ pair ∈ opened, pair.2 ∉ world.drawn)
    (admitted : ∀ conn nf nd, world.conns[i]? = some conn →
      (change conn).stage = .admitted nf nd → world.Proved nf nd) : Agreed setup
      { world with
        conns := world.conns.modify i change
        made := world.made ++ (opened.map fun (nf, nd) => covered daemonLabel nf nd).toList
        drawn := world.drawn ++ (opened.map Prod.snd).toList } := by
  have later : ∀ {j : Nat} {conn' : Connection Request} {nf nd : String},
      (world.conns.modify i change)[j]? = some conn' → conn'.answer = some (nf, nd) →
      (i = j ∧ opened = some (nf, nd)) ∨
        ∃ conn, world.conns[j]? = some conn ∧ conn.answer = some (nf, nd) := by
    intro j conn' nf nd found answered
    obtain ⟨conn, was, rfl⟩ := modify_eq_some.mp found
    split at answered
    · rename_i same
      subst same
      rw [answer conn was] at answered
      cases opened with
      | none => exact .inr ⟨conn, was, answered⟩
      | some pair =>
        rw [Option.some_or] at answered
        exact .inl ⟨rfl, answered⟩
    · exact .inr ⟨conn, was, answered⟩
  have answers : ∀ nf nd, world.Answered nf nd →
      Answered { world with conns := world.conns.modify i change } nf nd := by
    rintro nf nd ⟨j, conn, was, answered⟩
    refine ⟨j, _, modify_eq_some.mpr ⟨conn, was, rfl⟩, ?_⟩
    split
    · rename_i same
      subst same
      rw [answer conn was]
      cases opened with
      | none => exact answered
      | some pair =>
        obtain ⟨_, there, none⟩ := unanswered pair rfl
        rw [was] at there
        rw [Option.some.inj there, none] at answered
        cases answered
    · exact answered
  refine ⟨fun j conn' found => ?_, agreed.sessions, fun j conn' nf nd found answered => ?_,
    fun j session found => List.mem_append_left _ (agreed.drawnNf j session found),
    fun j k one other nf nf' nd isOne isOther oneAnswer otherAnswer => ?_, agreed.ownNf,
    fun code isMade => ?_, fun j conn' nf nd found isAdmitted => ?_,
    fun nf nd proved => answers nf nd (agreed.answered nf nd proved)⟩
  · obtain ⟨conn, was, rfl⟩ := modify_eq_some.mp found
    split
    · exact plain conn (agreed.conns j conn was)
    · exact agreed.conns j conn was
  · rcases later found answered with ⟨-, rfl⟩ | ⟨conn, was, had⟩
    · exact List.mem_append_right _ List.mem_cons_self
    · exact List.mem_append_left _ (agreed.drawnNd j conn nf nd was had)
  · rcases later isOne oneAnswer with ⟨rfl, first⟩ | ⟨one', wasOne, hadOne⟩
    · rcases later isOther otherAnswer with ⟨rfl, -⟩ | ⟨other', wasOther, hadOther⟩
      · rfl
      · exact absurd (agreed.drawnNd k other' nf' nd wasOther hadOther) (fresh _ first)
    · rcases later isOther otherAnswer with ⟨rfl, second⟩ | ⟨other', wasOther, hadOther⟩
      · exact absurd (agreed.drawnNd j one' nf nd wasOne hadOne) (fresh _ second)
      · exact agreed.ownNd j k one' other' nf nf' nd wasOne wasOther hadOne hadOther
  · rcases List.mem_append.mp isMade with before | now
    · exact agreed.made_of { world with conns := world.conns.modify i change }
        answers (fun _ _ => id) code before
    · obtain ⟨⟨nf, nd⟩, rfl, rfl⟩ := Option.map_eq_some_iff.mp (Option.mem_toList.mp now)
      obtain ⟨conn, was, none⟩ := unanswered _ rfl
      refine ⟨nf, nd, .inl ⟨⟨i, change conn, ?_, ?_⟩, rfl⟩⟩
      · exact modify_eq_some.mpr ⟨conn, was, (if_pos rfl).symm⟩
      · rw [answer conn was, Option.some_or]
  · obtain ⟨conn, was, rfl⟩ := modify_eq_some.mp found
    split at isAdmitted
    · rename_i same
      subst same
      exact admitted conn nf nd was isAdmitted
    · exact agreed.proven j conn nf nd was isAdmitted

/-- A connection is opened at a daemon. -/
theorem conn_added {conn : Connection Request} (plain : conn.Plain setup)
    (unanswered : conn.answer = none) (outside : ∀ nf nd, conn.stage ≠ .admitted nf nd) :
    Agreed setup { world with conns := world.conns ++ [conn] } := by
  have before : ∀ {j : Nat} {conn' : Connection Request} {nf nd : String},
      (world.conns ++ [conn])[j]? = some conn' → conn'.answer = some (nf, nd) →
      world.conns[j]? = some conn' := by
    intro j conn' nf nd found answered
    rcases append_eq_some.mp found with was | ⟨-, rfl⟩
    · exact was
    · rw [unanswered] at answered
      cases answered
  have answers : ∀ nf nd, world.Answered nf nd →
      Answered { world with conns := world.conns ++ [conn] } nf nd :=
    fun _ _ answered => append_keeps answered
  refine ⟨fun j conn' found => ?_, agreed.sessions,
    fun j conn' nf nd found answered =>
      agreed.drawnNd j conn' nf nd (before found answered) answered,
    agreed.drawnNf,
    fun j k one other nf nf' nd isOne isOther oneAnswer otherAnswer =>
      agreed.ownNd j k one other nf nf' nd (before isOne oneAnswer) (before isOther otherAnswer)
        oneAnswer otherAnswer,
    agreed.ownNf,
    agreed.made_of { world with conns := world.conns ++ [conn] } answers (fun _ _ => id),
    fun j conn' nf nd found isAdmitted => ?_,
    fun nf nd proved => answers nf nd (agreed.answered nf nd proved)⟩
  · rcases append_eq_some.mp found with was | ⟨-, rfl⟩
    · exact agreed.conns j conn' was
    · exact plain
  · rcases append_eq_some.mp found with was | ⟨-, rfl⟩
    · exact agreed.proven j conn' nf nd was isAdmitted
    · exact absurd isAdmitted (outside nf nd)

theorem session_changed {i : Nat} {change : Session → Session} (proof : Option (String × String))
    (plain : ∀ session, session.Plain setup.token → (change session).Plain setup.token)
    (sameNf : ∀ session, (change session).nf = session.nf)
    (proves : ∀ session nd, world.sessions[i]? = some session →
      ((change session).asking = .proved nd ↔
        session.asking = .proved nd ∨ proof = some (session.nf, nd)))
    (present : ∀ pair ∈ proof, ∃ session, world.sessions[i]? = some session ∧ session.nf = pair.1)
    (answered : ∀ pair ∈ proof, world.Answered pair.1 pair.2) : Agreed setup
      { world with
        sessions := world.sessions.modify i change
        made := world.made ++ (proof.map fun (nf, nd) => covered frontendLabel nf nd).toList } := by
  have keeps : ∀ nf nd, world.Proved nf nd →
      Proved { world with sessions := world.sessions.modify i change } nf nd := by
    rintro nf nd ⟨j, session, was, own, proved⟩
    refine ⟨j, _, modify_eq_some.mpr ⟨session, was, rfl⟩, ?_⟩
    split
    · rename_i same
      subst same
      exact ⟨(sameNf session).trans own, (proves session nd was).mpr (.inl proved)⟩
    · exact ⟨own, proved⟩
  refine ⟨agreed.conns, fun j session' found => ?_, agreed.drawnNd, fun j session' found => ?_,
    agreed.ownNd, fun j k one other isOne isOther same => ?_, fun code isMade => ?_,
    fun j conn nf nd found isAdmitted => keeps nf nd (agreed.proven j conn nf nd found isAdmitted),
    fun nf nd proved => ?_⟩
  · obtain ⟨session, was, rfl⟩ := modify_eq_some.mp found
    split
    · exact plain session (agreed.sessions j session was)
    · exact agreed.sessions j session was
  · obtain ⟨session, was, rfl⟩ := modify_eq_some.mp found
    split
    · rw [sameNf]
      exact agreed.drawnNf j session was
    · exact agreed.drawnNf j session was
  · obtain ⟨one', wasOne, rfl⟩ := modify_eq_some.mp isOne
    obtain ⟨other', wasOther, rfl⟩ := modify_eq_some.mp isOther
    have nf : ∀ (k : Nat) session, (if i = k then change session else session).nf = session.nf := by
      intro k session
      split
      · exact sameNf session
      · rfl
    rw [nf, nf] at same
    exact agreed.ownNf j k one' other' wasOne wasOther same
  · rcases List.mem_append.mp isMade with before | now
    · exact agreed.made_of { world with sessions := world.sessions.modify i change }
        (fun _ _ => id) keeps code before
    · obtain ⟨⟨nf, nd⟩, rfl, rfl⟩ := Option.map_eq_some_iff.mp (Option.mem_toList.mp now)
      obtain ⟨session, was, own⟩ := present _ rfl
      subst own
      refine ⟨_, nd, .inr ⟨⟨i, change session, ?_, sameNf session, ?_⟩, rfl⟩⟩
      · exact modify_eq_some.mpr ⟨session, was, (if_pos rfl).symm⟩
      · exact (proves session nd was).mpr (.inr rfl)
  · obtain ⟨j, session', found, rfl, proved⟩ := proved
    obtain ⟨session, was, rfl⟩ := modify_eq_some.mp found
    split at proved
    · rename_i same
      subst same
      rw [if_pos rfl, sameNf]
      rcases (proves session nd was).mp proved with before | now
      · exact agreed.answered _ nd ⟨i, session, was, rfl, before⟩
      · exact answered _ now
    · rename_i apart
      rw [if_neg apart]
      exact agreed.answered _ nd ⟨j, session, was, rfl, proved⟩

theorem session_added {session : Session} (plain : session.Plain setup.token)
    (fresh : session.nf ∉ world.drawn) (unproved : ∀ nd, session.asking ≠ .proved nd) : Agreed setup
      { world with
        sessions := world.sessions ++ [session]
        drawn := world.drawn ++ [session.nf] } := by
  have keeps : ∀ nf nd, world.Proved nf nd →
      Proved { world with sessions := world.sessions ++ [session] } nf nd :=
    fun _ _ proved => append_keeps proved
  refine ⟨agreed.conns, fun j session' found => ?_,
    fun j conn nf nd found answer =>
      List.mem_append_left _ (agreed.drawnNd j conn nf nd found answer),
    fun j session' found => ?_, agreed.ownNd, fun j k one other isOne isOther same => ?_,
    agreed.made_of { world with sessions := world.sessions ++ [session] } (fun _ _ => id) keeps,
    fun j conn nf nd found isAdmitted => keeps nf nd (agreed.proven j conn nf nd found isAdmitted),
    fun nf nd proved => ?_⟩
  · rcases append_eq_some.mp found with was | ⟨-, rfl⟩
    · exact agreed.sessions j session' was
    · exact plain
  · rcases append_eq_some.mp found with was | ⟨-, rfl⟩
    · exact List.mem_append_left _ (agreed.drawnNf j session' was)
    · exact List.mem_append_right _ List.mem_cons_self
  · rcases append_eq_some.mp isOne with wasOne | ⟨rfl, rfl⟩
    · rcases append_eq_some.mp isOther with wasOther | ⟨-, rfl⟩
      · exact agreed.ownNf j k one other wasOne wasOther same
      · exact absurd (same ▸ agreed.drawnNf j one wasOne) fresh
    · rcases append_eq_some.mp isOther with wasOther | ⟨rfl, -⟩
      · exact absurd (same ▸ agreed.drawnNf k other wasOther) fresh
      · rfl
  · obtain ⟨j, session', found, own, proved⟩ := proved
    rcases append_eq_some.mp found with was | ⟨-, rfl⟩
    · exact agreed.answered nf nd ⟨j, session', was, own, proved⟩
    · exact absurd proved (unproved nd)

end

end Agreed

/-! ## One act -/

variable {world : World Request} {i : Nat} {setup : Setup Request}

omit [Sha256] in
theorem opens_of {conn : Connection Request} (found : world.conns[i]? = some conn) (line : Bytes)
    (raw : Option (Vector UInt8 32)) : world.opens i line raw =
      if conn.stage = .opened then challengeHeard line raw else none := by
  unfold opens
  rw [found]

omit [Sha256] in
theorem present_of_opens {line : Bytes} {raw : Option (Vector UInt8 32)} {pair : String × String}
    (opened : world.opens i line raw = some pair) :
    ∃ conn, world.conns[i]? = some conn ∧ conn.stage = .opened := by
  unfold opens at opened
  split at opened
  · rename_i conn found
    split at opened
    · rename_i isOpened
      exact ⟨conn, found, isOpened⟩
    · cases opened
  · cases opened

theorem accepts_of {setup : Setup Request} {world : World Request} {i : Nat} {session : Session}
    (found : world.sessions[i]? = some session) (stream : Bytes) :
    world.accepts setup i stream =
      if session.asking = .asked then
        (session.answerHeard setup.token stream).map fun nd => (session.nf, nd)
      else none := by
  unfold accepts
  rw [found]

theorem present_of_accepts {stream : Bytes} {pair : String × String}
    (accepted : world.accepts setup i stream = some pair) :
    ∃ session, world.sessions[i]? = some session ∧ session.nf = pair.1 ∧
      session.asking = .asked ∧ session.answerHeard setup.token stream = some pair.2 := by
  unfold accepts at accepted
  split at accepted
  · rename_i session found
    split at accepted
    · rename_i asked
      obtain ⟨nd, heard, rfl⟩ := Option.map_eq_some_iff.mp accepted
      exact ⟨session, found, rfl, asked, heard⟩
    · cases accepted
  · cases accepted

theorem Sound.recorded {act : Act} (sound : world.Sound setup act) {code : Bytes}
    (found : world.checks setup act = some code) : code ∈ world.made := by
  obtain ⟨made, isMade, same⟩ := sound.unforged code found
  rw [← sound.injective code found made isMade same]
  exact isMade

namespace Agreed

variable {setup : Setup Request} {world : World Request}

theorem line (agreed : world.Agreed setup) (i : Nat) (line : Bytes)
    (raw : Option (Vector UInt8 32)) (took : Nat)
    (sound : world.Sound setup (.line i line raw took)) :
    (world.step setup (.line i line raw took)).Agreed setup := by
  refine agreed.conn_changed (world.opens i line raw)
    (fun conn plain => plain.hear line raw took) (fun conn found => ?_) (fun pair opened => ?_)
    (fun pair opened => ?_) (fun conn nf nd found admitted => ?_)
  · rw [opens_of found]
    exact Connection.hear_answer setup conn line raw took
  · obtain ⟨conn, found, isOpened⟩ := present_of_opens opened
    exact ⟨conn, found, ((agreed.conns i conn found).opened isOpened).1⟩
  · exact sound.fresh pair.2 (Option.mem_map_of_mem Prod.snd opened)
  · rcases Connection.hear_admitted admitted with already | ⟨answered, proven⟩
    · exact agreed.proven i conn nf nd found already
    · have plain := agreed.conns i conn found
      obtain ⟨nfField, ndField⟩ := plain.fields nf nd (plain.exchange nf nd (.inl answered))
      refine agreed.proved_of_made nfField ndField (sound.recorded ?_)
      unfold checks
      dsimp only
      rw [found]
      dsimp only
      rw [answered]
      exact if_pos proven

theorem reply (agreed : world.Agreed setup) (i : Nat) (stream : Bytes) (took : Nat)
    (sound : world.Sound setup (.reply i stream took)) :
    (world.step setup (.reply i stream took)).Agreed setup := by
  refine agreed.session_changed (world.accepts setup i stream)
    (fun session plain => plain.hear stream took)
    (fun session => Session.hear_nf setup.token session stream took)
    (fun session nd found => ?_) (fun pair accepted => ?_) (fun pair accepted => ?_)
  · rw [Session.hear_proved, accepts_of found]
    constructor
    · rintro (already | ⟨asked, heard⟩)
      · exact .inl already
      · right
        rw [if_pos asked, heard]
        rfl
    · rintro (already | now)
      · exact .inl already
      · split at now
        · rename_i asked
          obtain ⟨nd', heard, same⟩ := Option.map_eq_some_iff.mp now
          obtain rfl := (Prod.mk.inj same).2
          exact .inr ⟨asked, heard⟩
        · cases now
  · obtain ⟨session, found, own, -, -⟩ := present_of_accepts accepted
    exact ⟨session, found, own⟩
  · obtain ⟨session, found, own, -, heard⟩ := present_of_accepts accepted
    have nfField := (agreed.sessions i session found).field
    rw [own] at nfField
    refine agreed.answered_of_made nfField (Session.answerHeard_field heard) (sound.recorded ?_)
    have same : world.accepts setup i stream = some pair := accepted
    unfold checks
    dsimp only
    rw [same]
    rfl

/-- Every act keeps the two sides agreed. -/
theorem step (agreed : world.Agreed setup) {act : Act} (sound : world.Sound setup act) :
    (world.step setup act).Agreed setup := by
  cases act with
  | connect daemon took =>
    obtain ⟨unanswered, outside⟩ :=
      Connection.accept_proof setup.unix daemon (world.waiting daemon) took
    exact agreed.conn_added (Connection.accept_plain setup daemon _ took) unanswered outside
  | line i line raw took => exact agreed.line i line raw took sound
  | lost i =>
    have kept := agreed.conn_changed (i := i) none (fun _ plain => plain.lose)
      (fun conn _ => conn.lose_answer) nofun nofun
      (fun conn nf nd found admitted =>
        agreed.proven i conn nf nd found (Connection.lose_admitted admitted))
    simpa [World.step] using kept
  | event i event took =>
    have kept := agreed.conn_changed (i := i) none (fun _ plain => plain.writeOne event took)
      (fun conn _ => (conn.writeOne_proof event took).1) nofun
      nofun
      (fun conn nf nd found admitted =>
        agreed.proven i conn nf nd found ((conn.writeOne_proof event took).2 ▸ admitted))
    simpa [World.step] using kept
  | ask raw took =>
    cases drawn : nonce raw with
    | none =>
      unfold World.step
      dsimp only
      rw [drawn]
      exact agreed
    | some nf =>
      unfold World.step
      dsimp only
      rw [drawn]
      have unproved : ∀ nd, (Session.ask nf took).asking ≠ .proved nd := by
        intro nd
        unfold Session.ask
        dsimp only
        split <;> exact Asking.noConfusion
      exact agreed.session_added (Session.ask_plain setup.token (isHexField_nonce drawn) took)
        (sound.fresh nf drawn) unproved
  | reply i stream took => exact agreed.reply i stream took sound
  | giveUp i =>
    have kept := agreed.session_changed (i := i) none (fun _ plain => plain.stop)
      (fun session => session.stop_nf)
      (fun session nd _ => Session.stop_proved.trans (by simp))
      nofun nofun
    simpa [World.step] using kept

theorem start : (World.start : World Request).Agreed setup := by
  refine ⟨fun i conn found => ?_, fun i session found => ?_, fun i conn nf nd found => ?_,
    fun i session found => ?_, fun i j one other nf nf' nd found => ?_,
    fun i j one other found => ?_, fun code made => ?_, fun i conn nf nd found => ?_,
    fun nf nd proved => ?_⟩
  any_goals cases found
  · cases made
  · obtain ⟨i, session, found, -⟩ := proved
    cases found

theorem foldl (agreed : world.Agreed setup) {acts : List Act}
    (sound : world.SoundFrom setup acts) :
    (acts.foldl (World.step setup) world).Agreed setup := by
  induction acts generalizing world with
  | nil => exact agreed
  | cons act rest ih =>
    obtain ⟨here, rest⟩ := sound
    exact ih (agreed.step here) rest

theorem run {acts : List Act} (sound : World.start.SoundFrom setup acts) :
    (World.run setup acts).Agreed setup :=
  foldl start sound

end Agreed

/-! ## The proof over whole runs -/

/-- An admitted connection and a session that proved itself on its nonces. -/
def Matched (conn : Connection Request) (session : Session) : Prop :=
  ∃ nd, conn.stage = .admitted session.nf nd ∧ session.asking = .proved nd

/--
In every run, a connection is admitted by a proof made for its own two nonces, a
frontend sends its proof only on an answer made for its own nonce, connections
and sessions are matched one for one, and until it is admitted no request is
taken from a connection and only its answer, or the line that the daemon is
busy, is written to it.
-/
theorem two_way_proof {setup : Setup Request} {acts : List Act}
    (sound : World.start.SoundFrom setup acts) :
    (∀ conn ∈ (run setup acts).conns, ∀ nf nd, conn.stage = .admitted nf nd →
      conn.answer = some (nf, nd) ∧
        ∃ session ∈ (run setup acts).sessions, session.nf = nf ∧ session.asking = .proved nd) ∧
    (∀ session ∈ (run setup acts).sessions,
      (∀ nd, session.asking = .proved nd →
        ∃ conn ∈ (run setup acts).conns, conn.answer = some (session.nf, nd)) ∧
      ((∀ nd, session.asking ≠ .proved nd) → session.sent <+: asBytes (challengeLine session.nf))) ∧
    (∀ (i j : Nat) conn one other, conn ∈ (run setup acts).conns →
      (run setup acts).sessions[i]? = some one → (run setup acts).sessions[j]? = some other →
      Matched conn one → Matched conn other → i = j) ∧
    (∀ (i j : Nat) one other session, session ∈ (run setup acts).sessions →
      (run setup acts).conns[i]? = some one → (run setup acts).conns[j]? = some other →
      Matched one session → Matched other session → i = j) ∧
    ∀ conn ∈ (run setup acts).conns, (∀ nf nd, conn.stage ≠ .admitted nf nd) →
      conn.taken = [] ∧ conn.Said setup := by
  have agreed := Agreed.run sound
  refine ⟨fun conn member nf nd admitted => ?_, fun session member => ⟨fun nd proved => ?_, ?_⟩,
    fun i j conn one other _ isOne isOther matchOne matchOther => ?_,
    fun i j one other session _ isOne isOther matchOne matchOther => ?_,
    fun conn member outside => ?_⟩
  · obtain ⟨i, found⟩ := List.mem_iff_getElem?.mp member
    obtain ⟨j, session, isSession, own, proved⟩ := agreed.proven i conn nf nd found admitted
    exact ⟨(agreed.conns i conn found).exchange nf nd (.inr admitted), session,
      List.mem_of_getElem? isSession, own, proved⟩
  · obtain ⟨i, found⟩ := List.mem_iff_getElem?.mp member
    obtain ⟨j, conn, isConn, answer⟩ := agreed.answered _ nd ⟨i, session, found, rfl, proved⟩
    exact ⟨conn, List.mem_of_getElem? isConn, answer⟩
  · obtain ⟨i, found⟩ := List.mem_iff_getElem?.mp member
    exact (agreed.sessions i session found).silent
  · obtain ⟨nd, oneStage, -⟩ := matchOne
    obtain ⟨nd', otherStage, -⟩ := matchOther
    rw [oneStage] at otherStage
    exact agreed.ownNf i j one other isOne isOther (Stage.admitted.inj otherStage).1
  · obtain ⟨nd, oneStage, proved⟩ := matchOne
    obtain ⟨nd', otherStage, proved'⟩ := matchOther
    rw [proved] at proved'
    obtain rfl := Asking.proved.inj proved'
    exact agreed.ownNd i j one other session.nf session.nf nd isOne isOther
      ((agreed.conns i one isOne).exchange _ _ (.inr oneStage))
      ((agreed.conns j other isOther).exchange _ _ (.inr otherStage))
  · obtain ⟨i, found⟩ := List.mem_iff_getElem?.mp member
    exact (agreed.conns i conn found).before outside

end World

/-! ## Two runs with the digest of the standard -/

namespace World

attribute [local instance] Pairing.standardSha256

/-- A token, and requests that are all alike. -/
def plainSetup : Setup Unit :=
  ⟨"0123456789abcdef0123456789abcdef0123456789abcdef0123456789abcdef", true, fun _ => some ()⟩

/-- On an undisturbed exchange the two sides find each other. -/
theorem two_way_proof_exchange : ∃ conn ∈ (run plainSetup
      (exchange plainSetup (.replicate 32 1) (.replicate 32 2))).conns,
    ∃ session ∈ (run plainSetup (exchange plainSetup (.replicate 32 1) (.replicate 32 2))).sessions,
    Matched conn session := by
  have codes : hmacSha256 (ascii plainSetup.token)
        [covered daemonLabel (hex (Vector.replicate 32 1).toList)
          (hex (Vector.replicate 32 2).toList)] ≠
      hmacSha256 (ascii plainSetup.token)
        [covered frontendLabel (hex (Vector.replicate 32 1).toList)
          (hex (Vector.replicate 32 2).toList)] := by decide +kernel
  have apart : hex (Vector.replicate 32 1).toList ≠ hex (Vector.replicate 32 2).toList := by
    decide
  obtain ⟨sound, stages⟩ := exchange_admits plainSetup Sha256.length_digest apart codes
  have first : Stage.admitted (hex (Vector.replicate 32 1).toList)
      (hex (Vector.replicate 32 2).toList) ∈ (run plainSetup
        (exchange plainSetup (.replicate 32 1) (.replicate 32 2))).conns.map Connection.stage := by
    rw [stages]
    exact List.mem_cons_self
  obtain ⟨conn, member, admitted⟩ := List.mem_map.mp first
  obtain ⟨-, session, isSession, own, proved⟩ :=
    (two_way_proof sound).1 conn member _ _ admitted
  exact ⟨conn, member, session, isSession, _, own ▸ admitted, proved⟩

/-- The connection beyond the limit is not admitted and is still written to. -/
theorem busy_written :
    (World.start : World Unit).SoundFrom plainSetup (List.replicate 33 (.connect 0 5)) ∧
      ∃ conn ∈ (run plainSetup (List.replicate 33 (.connect 0 5))).conns,
        (∀ nf nd, conn.stage ≠ .admitted nf nd) ∧ conn.answer = none ∧
          conn.written = asBytes "busy\n" ∧ conn.written ≠ [] := by
  have quiet : ∀ (count : Nat) (world : World Unit),
      world.SoundFrom plainSetup (List.replicate count (.connect 0 5)) := by
    intro count
    induction count with
    | zero => exact fun _ => trivial
    | succ count ih =>
      exact fun world => ⟨⟨nofun, nofun, nofun⟩, ih _⟩
  have last : (run plainSetup (List.replicate 33 (.connect 0 5))).conns[32]? =
      some ⟨0, .ended, ⟨false, false⟩, true, none, asBytes "busy\n", []⟩ := by decide
  refine ⟨quiet 33 _, _, List.mem_of_getElem? last, fun _ _ => Stage.noConfusion, rfl, rfl, ?_⟩
  decide

end World

end HopsFormal.Ipc
