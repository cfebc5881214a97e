import HopsFormal.Lib.Overwriting
import HopsFormal.Trust.Identity
import Mathlib.Data.List.DropRight
import Mathlib.Logic.Function.Basic

/-!
# The token of the local socket

The processes of one user share a token, kept in a file that any of them may have to make.  Each
reads the file, piece by piece, and mints a token where there is none.  A file that is not there is
created, which one process alone can do; one that holds something else is opened anew and emptied,
which every process that read it can do.
-/

namespace HopsFormal.Ipc.Minting

open List
open Trust (isWhitespace)

abbrev Text := List Char

/-- How many hex digits a token has. -/
def tokenChars : Nat := 64

/-- Digits of either case; what is minted has lowercase ones. -/
def isHexDigit (c : Char) : Bool :=
  ('0' ≤ c && c ≤ '9') || ('a' ≤ c && c ≤ 'f') || ('A' ≤ c && c ≤ 'F')

/-- What is minted. -/
structure Token where
  text : Text
  length_eq : text.length = tokenChars
  hex : text.all isHexDigit = true

/-- What a token file holds part-way through being written. -/
def beingWritten (text : Text) : Bool :=
  text.length < tokenChars && text.all isHexDigit

/-- The token in a text, if it is one. -/
def wellFormed (text : Text) : Option Text :=
  let text := (text.dropWhile isWhitespace).rdropWhile isWhitespace
  if text.length = tokenChars ∧ text.all isHexDigit = true then some text else none

/-- What a process is at; `again` reads what another process created. -/
inductive Pc where
  | idle
  | opening (again : Bool)
  | reading (again : Bool) (text : Text)
  | settling (again : Bool) (text : Text) (part : beingWritten text = true)
  | minting (absent : Bool)
  | writing (token : Token) (written : Nat)
  | done (token : Text)
  | failed

/-- The file at the path, and what each process is at. -/
structure State where
  file : Option Text
  pcs : Nat → Pc

@[grind =]
def start (file : Option Text) : State where
  file := file
  pcs _ := .idle

/-- One operation of a process on the file, or a decision between two. -/
inductive Act where
  | begin (p : Nat)
  | openFile (p : Nat)
  | read (p n : Nat)
  | finish (p : Nat)
  | reread (p : Nat)
  | giveUp (p : Nat)
  | readError (p : Nat)
  | create (p : Nat) (token : Token)
  | replace (p : Nat) (token : Token)
  | write (p n : Nat)
  | fail (p : Nat)

namespace State

def go (state : State) (p : Nat) (pc : Pc) : State :=
  { state with pcs := Function.update state.pcs p pc }

/-- What is made of a file that was read: its token, or a new one where it was read first. -/
def conclude (again : Bool) (text : Text) : Pc :=
  match wellFormed text with
  | some token => .done token
  | none => if again then .failed else .minting false

/-- Bytes written at an offset; what was never written before them is zero. -/
def writeAt (text : Text) (offset : Nat) (bytes : Text) : Text :=
  (text ++ List.replicate (offset - text.length) '\x00').take offset ++ bytes ++
    text.drop (offset + bytes.length)

def step (state : State) : Act → Option State
  | .begin p =>
    match state.pcs p with
    | .idle => some (state.go p (.opening false))
    | _ => none
  | .openFile p =>
    match state.pcs p with
    | .opening again =>
      match state.file with
      | some _ => some (state.go p (.reading again []))
      | none => some (state.go p (if again then .failed else .minting true))
    | _ => none
  | .read p n =>
    match state.pcs p, state.file with
    | .reading again text, some held =>
      if 0 < n ∧ n ≤ held.length - text.length then
        some (state.go p (.reading again (text ++ (held.drop text.length).take n)))
      else none
    | _, _ => none
  | .finish p =>
    match state.pcs p, state.file with
    | .reading again text, some held =>
      if held.length ≤ text.length then
        some (state.go p (if part : beingWritten text = true then .settling again text part
          else conclude again text))
      else none
    | _, _ => none
  | .reread p =>
    match state.pcs p with
    | .settling again _ _ => some (state.go p (.opening again))
    | _ => none
  | .giveUp p =>
    -- the time for it to be written has run out
    match state.pcs p with
    | .settling again text _ => some (state.go p (conclude again text))
    | _ => none
  | .readError p =>
    -- a file that cannot be read is replaced like a malformed one
    match state.pcs p with
    | .opening again => some (state.go p (if again then .failed else .minting false))
    | .reading again _ => some (state.go p (if again then .failed else .minting false))
    | _ => none
  | .create p token =>
    match state.pcs p with
    | .minting true =>
      match state.file with
      | none => some ({ state with file := some [] }.go p (.writing token 0))
      | some _ => some (state.go p (.opening true))
    | _ => none
  | .replace p token =>
    match state.pcs p with
    | .minting false => some ({ state with file := some [] }.go p (.writing token 0))
    | _ => none
  | .write p n =>
    match state.pcs p, state.file with
    | .writing token written, some held =>
      if 0 < n ∧ n ≤ tokenChars - written then
        let chunk := (token.text.drop written).take n
        some ({ state with file := some (writeAt held written chunk) }.go p
          (if written + n = tokenChars then .done token.text else .writing token (written + n)))
      else none
    | _, _ => none
  | .fail p =>
    -- any other error, or the end of the process
    match state.pcs p with
    | .done _ | .failed => none
    | _ => some (state.go p .failed)

end State

/-! ## Texts -/

theorem isWhitespace_of_isHexDigit {c : Char} (digit : isHexDigit c = true) :
    isWhitespace c = false := by
  have range : 48 ≤ c.toNat ∧ c.toNat ≤ 102 := by
    simp only [isHexDigit, Bool.or_eq_true, Bool.and_eq_true, decide_eq_true_eq] at digit
    change ((48 ≤ c.toNat ∧ c.toNat ≤ 57) ∨ 97 ≤ c.toNat ∧ c.toNat ≤ 102) ∨
      65 ≤ c.toNat ∧ c.toNat ≤ 70 at digit
    omega
  simp only [isWhitespace, Bool.or_eq_false_iff, Bool.and_eq_false_iff, decide_eq_false_iff_not,
    beq_eq_false_iff_ne]
  omega

variable {text : Text} {state : State}

theorem trim_hex (hex : text.all isHexDigit = true) :
    (text.dropWhile isWhitespace).rdropWhile isWhitespace = text := by
  have digit : ∀ c ∈ text, isWhitespace c = false := fun c there =>
    isWhitespace_of_isHexDigit (all_eq_true.mp hex c there)
  have front : text.dropWhile isWhitespace = text := by
    rw [dropWhile_eq_self_iff]
    intro some white
    rw [digit _ (getElem_mem _)] at white
    cases white
  rw [front, rdropWhile_eq_self_iff]
  intro some white
  rw [digit _ (getLast_mem some)] at white
  cases white

theorem wellFormed_token (token : Token) : wellFormed token.text = some token.text := by
  unfold wellFormed
  rw [trim_hex token.hex]
  exact if_pos ⟨token.length_eq, token.hex⟩

theorem wellFormed_of_beingWritten (part : beingWritten text = true) : wellFormed text = none := by
  obtain ⟨less, hex⟩ := Bool.and_eq_true_iff.mp part
  unfold wellFormed
  rw [trim_hex hex]
  exact if_neg fun whole => absurd whole.1 (of_decide_eq_true less).ne

theorem beingWritten_take (token : Token) {written : Nat} (less : written < tokenChars) :
    beingWritten (token.text.take written) = true := by
  refine Bool.and_eq_true_iff.mpr ⟨decide_eq_true ?_, all_eq_true.mpr fun c there => ?_⟩
  · rw [length_take]
    omega
  · exact all_eq_true.mp token.hex c (mem_of_mem_take there)

theorem writeAt_take (token : Token) {written : Nat} (n : Nat)
    (less : written < tokenChars) :
    State.writeAt (token.text.take written) written ((token.text.drop written).take n) =
      token.text.take (written + n) :=
  Lib.overwrite_take '\x00' token.text n (token.length_eq ▸ less.le)

/-! ## Every run -/

/-- A process took a token from the file, has read a part of it, or writes it. -/
def Pc.Uses : Pc → Prop
  | .reading _ text => text ≠ []
  | .writing _ _ | .done _ => True
  | .idle | .opening _ | .settling _ _ _ | .minting _ | .failed => False

/-- A process empties the file only while no other one uses it. -/
def Careful (state : State) : Act → Prop
  | .replace p _ => ∀ q, q ≠ p → ¬(state.pcs q).Uses
  | _ => True

/-- The states reached from a file by steps that are allowed where they are taken. -/
inductive Reaches (allowed : State → Act → Prop) (file : Option Text) : State → Prop where
  | start : Reaches allowed file (start file)
  | step {state next : State} {act : Act} (reached : Reaches allowed file state)
      (careful : allowed state act) (stepped : state.step act = some next) :
      Reaches allowed file next

/--
One process at most writes the file, which then holds what is written of its token and was taken
for none; what is read of the file is what it begins with, and a token taken is in the file.
-/
structure Sound (state : State) : Prop where
  writing : ∀ p token written, state.pcs p = .writing token written →
    written < tokenChars ∧ state.file = some (token.text.take written)
  alone : ∀ p token written, state.pcs p = .writing token written →
    ∀ q, q ≠ p → (∀ taken, state.pcs q ≠ .done taken) ∧ ∀ other n, state.pcs q ≠ .writing other n
  reading : ∀ p again text, state.pcs p = .reading again text →
    ∃ held, state.file = some held ∧ text <+: held
  taken : ∀ p token, state.pcs p = .done token →
    ∃ held, state.file = some held ∧ wellFormed held = some token

theorem pcs_go (state : State) (p q : Nat) (pc : Pc) :
    (state.go p pc).pcs q = if q = p then pc else state.pcs q :=
  Function.update_apply ..

theorem Sound.start (file : Option Text) : Sound (start file) := by
  constructor <;> intros <;> contradiction

section

variable (sound : Sound state)
include sound

/-- A process that comes to use nothing of the file. -/
theorem Sound.go (p : Nat) {pc : Pc} (idle : ¬pc.Uses)
    (there : ∀ again, pc = .reading again [] → ∃ held, state.file = some held) :
    Sound (state.go p pc) where
  writing q token written at_ := by
    rw [pcs_go] at at_
    split at at_
    · subst at_
      exact absurd trivial idle
    · exact sound.writing q token written at_
  alone q token written at_ other apart := by
    rw [pcs_go] at at_
    split at at_
    · subst at_
      exact absurd trivial idle
    · rw [pcs_go]
      split
      · exact ⟨fun taken same => idle (same ▸ trivial), fun _ _ same => idle (same ▸ trivial)⟩
      · exact sound.alone q token written at_ other apart
  reading q again text at_ := by
    rw [pcs_go] at at_
    split at at_
    · subst at_
      cases text with
      | nil =>
        obtain ⟨held, file⟩ := there again rfl
        exact ⟨held, file, nil_prefix⟩
      | cons c rest => exact absurd (cons_ne_nil c rest) idle
    · exact sound.reading q again text at_
  taken q token at_ := by
    rw [pcs_go] at at_
    split at at_
    · subst at_
      exact absurd trivial idle
    · exact sound.taken q token at_

theorem Sound.read (p : Nat) {again : Bool}
    (prefixed : ∃ held, state.file = some held ∧ text <+: held) :
    Sound (state.go p (.reading again text)) where
  writing q token written at_ := by
    rw [pcs_go] at at_
    split at at_
    · cases at_
    · exact sound.writing q token written at_
  alone q token written at_ other apart := by
    rw [pcs_go] at at_
    split at at_
    · cases at_
    · rw [pcs_go]
      split
      · exact ⟨nofun, nofun⟩
      · exact sound.alone q token written at_ other apart
  reading q again text at_ := by
    rw [pcs_go] at at_
    split at at_
    · cases at_
      exact prefixed
    · exact sound.reading q again text at_
  taken q token at_ := by
    rw [pcs_go] at at_
    split at at_
    · cases at_
    · exact sound.taken q token at_

theorem Sound.take (p : Nat) {held token : Text} (file : state.file = some held)
    (whole : wellFormed held = some token) : Sound (state.go p (.done token)) := by
  have unwritten : ∀ q other written, state.pcs q ≠ .writing other written := by
    intro q other written at_
    obtain ⟨less, partly⟩ := sound.writing q other written at_
    rw [file] at partly
    cases partly
    rw [wellFormed_of_beingWritten (beingWritten_take other less)] at whole
    cases whole
  have unwritten' : ∀ q other written,
      (state.go p (.done token)).pcs q ≠ .writing other written := by
    intro q other written at_
    rw [pcs_go] at at_
    split at at_
    · cases at_
    · exact unwritten q other written at_
  refine ⟨fun q other written at_ => absurd at_ (unwritten' q other written),
    fun q other written at_ => absurd at_ (unwritten' q other written), ?_, ?_⟩
  · intro q again text at_
    rw [pcs_go] at at_
    split at at_
    · cases at_
    · exact sound.reading q again text at_
  · intro q other at_
    rw [pcs_go] at at_
    split at at_
    · cases at_
      exact ⟨held, file, whole⟩
    · exact sound.taken q other at_

theorem Sound.conclude (p : Nat) {held : Text} (file : state.file = some held) (again : Bool) :
    Sound (state.go p (State.conclude again held)) := by
  unfold State.conclude
  cases whole : wellFormed held with
  | none => cases again <;> exact sound.go p id nofun
  | some token => exact sound.take p file whole

end

theorem Sound.empty (p : Nat) (token : Token) (unused : ∀ q, q ≠ p → ¬(state.pcs q).Uses) :
    Sound ({ state with file := some [] }.go p (.writing token 0)) where
  writing q other written at_ := by
    rw [pcs_go] at at_
    split at at_
    · cases at_
      exact ⟨by decide, rfl⟩
    · next apart => exact absurd (at_ ▸ trivial) (unused q apart)
  alone q other written at_ each apart := by
    rw [pcs_go] at at_
    split at at_
    · next same =>
      subst same
      rw [pcs_go, if_neg apart]
      exact ⟨fun _ at_ => unused each apart (at_ ▸ trivial),
        fun _ _ at_ => unused each apart (at_ ▸ trivial)⟩
    · next apart => exact absurd (at_ ▸ trivial) (unused q apart)
  reading q again text at_ := by
    rw [pcs_go] at at_
    split at at_
    · cases at_
    · next apart =>
      cases text with
      | nil => exact ⟨[], rfl, nil_prefix⟩
      | cons c rest => exact absurd (at_ ▸ cons_ne_nil c rest) (unused q apart)
  taken q token at_ := by
    rw [pcs_go] at at_
    split at at_
    · cases at_
    · next apart => exact absurd (at_ ▸ trivial) (unused q apart)

theorem Sound.write (sound : Sound state) {p n written : Nat} {token : Token}
    (at_ : state.pcs p = .writing token written) (more : n ≤ tokenChars - written) {pc : Pc}
    (next : (written + n = tokenChars ∧ pc = .done token.text) ∨
      (written + n ≠ tokenChars ∧ pc = .writing token (written + n))) :
    Sound ({ state with file := some (token.text.take (written + n)) }.go p pc) := by
  obtain ⟨less, file⟩ := sound.writing p token written at_
  have only := sound.alone p token written at_
  refine ⟨fun q other m there => ?_, fun q other m there each apart => ?_,
    fun q again text there => ?_, fun q other there => ?_⟩ <;> rw [pcs_go] at there
  · split at there
    · rcases next with ⟨-, rfl⟩ | ⟨part, rfl⟩
      · cases there
      · cases there
        exact ⟨by omega, rfl⟩
    · next apart => exact absurd there ((only q apart).2 other m)
  · split at there
    · next same =>
      subst same
      rw [pcs_go, if_neg apart]
      exact only each apart
    · next other_ => exact absurd there ((only q other_).2 other m)
  · split at there
    · rcases next with ⟨-, rfl⟩ | ⟨-, rfl⟩ <;> cases there
    · obtain ⟨held, before, prefixed⟩ := sound.reading q again text there
      rw [file] at before
      cases before
      exact ⟨_, rfl, prefixed.trans (take_prefix_take_left (Nat.le_add_right written n))⟩
  · split at there
    · rcases next with ⟨whole, rfl⟩ | ⟨-, rfl⟩
      · cases there
        refine ⟨_, rfl, ?_⟩
        rw [whole, ← token.length_eq, take_length]
        exact wellFormed_token token
      · cases there
    · next apart => exact absurd there ((only q apart).1 other)

/-- Nobody uses a file that is not there. -/
theorem Sound.unused (sound : Sound state) (absent : state.file = none) (q : Nat) :
    ¬(state.pcs q).Uses := by
  intro uses
  cases at_ : state.pcs q with
  | idle | opening | settling | minting | failed =>
    rw [at_] at uses
    exact uses
  | reading again text =>
    obtain ⟨held, file, -⟩ := sound.reading q again text at_
    rw [absent] at file
    cases file
  | writing token written =>
    obtain ⟨-, file⟩ := sound.writing q token written at_
    rw [absent] at file
    cases file
  | done token =>
    obtain ⟨held, file, -⟩ := sound.taken q token at_
    rw [absent] at file
    cases file

theorem Sound.step {state next : State} {act : Act} (sound : Sound state)
    (careful : Careful state act) (stepped : state.step act = some next) : Sound next := by
  cases act with
  | begin p | reread p =>
    dsimp only [State.step] at stepped
    split at stepped
    · cases stepped
      exact sound.go p id nofun
    · cases stepped
  | openFile p =>
    dsimp only [State.step] at stepped
    split at stepped
    · next again _ =>
      split at stepped
      · next held file =>
        cases stepped
        exact sound.go p (fun uses => uses rfl) fun _ _ => ⟨held, file⟩
      · cases stepped
        cases again <;> exact sound.go p id nofun
    · cases stepped
  | read p n =>
    dsimp only [State.step] at stepped
    split at stepped
    · next again text held at_ file =>
      split at stepped
      · cases stepped
        obtain ⟨held, file', rest, rfl⟩ := sound.reading p again text at_
        rw [file] at file'
        cases file'
        refine sound.read p ⟨_, file, ?_⟩
        rw [drop_left]
        exact (prefix_append_right_inj text).mpr <| take_prefix n rest
      · cases stepped
    · cases stepped
  | finish p =>
    dsimp only [State.step] at stepped
    split at stepped
    · next again text held at_ file =>
      split at stepped
      · next all =>
        cases stepped
        obtain ⟨held, file', prefixed⟩ := sound.reading p again text at_
        rw [file] at file'
        cases file'
        cases prefixed.eq_of_length_le all
        split
        · exact sound.go p id nofun
        · exact sound.conclude p file again
      · cases stepped
    · cases stepped
  | giveUp p =>
    dsimp only [State.step] at stepped
    split at stepped
    · next again text part _ =>
      cases stepped
      unfold State.conclude
      rw [wellFormed_of_beingWritten part]
      cases again <;> exact sound.go p id nofun
    · cases stepped
  | readError p =>
    dsimp only [State.step] at stepped
    split at stepped
    · next again _ =>
      cases stepped
      cases again <;> exact sound.go p id nofun
    · next again _ _ =>
      cases stepped
      cases again <;> exact sound.go p id nofun
    · cases stepped
  | create p token =>
    dsimp only [State.step] at stepped
    split at stepped
    · split at stepped
      · next absent =>
        cases stepped
        exact Sound.empty p token fun q _ => sound.unused absent q
      · cases stepped
        exact sound.go p id nofun
    · cases stepped
  | replace p token =>
    dsimp only [State.step] at stepped
    split at stepped
    · cases stepped
      exact Sound.empty p token careful
    · cases stepped
  | write p n =>
    dsimp only [State.step] at stepped
    split at stepped
    · next token written held at_ file =>
      split at stepped
      · next some =>
        cases stepped
        obtain ⟨less, partly⟩ := sound.writing p token written at_
        rw [file] at partly
        cases partly
        rw [writeAt_take token n less]
        refine sound.write at_ some.2 ?_
        split
        · next whole => exact .inl ⟨whole, rfl⟩
        · next part => exact .inr ⟨part, rfl⟩
      · cases stepped
    · cases stepped
  | fail p =>
    dsimp only [State.step] at stepped
    split at stepped
    · cases stepped
    · cases stepped
    · cases stepped
      exact sound.go p id nofun

theorem sound_reaches {file : Option Text} (reached : Reaches Careful file state) :
    Sound state := by
  induction reached with
  | start => exact Sound.start file
  | step reached careful stepped ih => exact ih.step careful stepped

/--
While a process empties the file only if no other one uses it, each process that has succeeded
returned the token that is in the file, at every moment, and so once all have finished.
-/
theorem one_token (file : Option Text) (state : State) (reached : Reaches Careful file state)
    (p : Nat) (token : Text) (succeeded : state.pcs p = .done token) :
    ∃ held, state.file = some held ∧ wellFormed held = some token :=
  (sound_reaches reached).taken p token succeeded

/-! ## Two processes -/

def run (state : State) (acts : List Act) : Option State :=
  acts.foldlM State.step state

theorem Reaches.run {allowed : State → Act → Prop} {file : Option Text} {acts : List Act}
    (always : ∀ act ∈ acts, ∀ state, allowed state act) {state next : State}
    (reached : Reaches allowed file state) (ran : run state acts = some next) :
    Reaches allowed file next := by
  induction acts generalizing state with
  | nil =>
    cases ran
    exact reached
  | cons act rest ih =>
    obtain ⟨between, stepped, ran⟩ := Option.bind_eq_some_iff.mp ran
    exact ih (fun act there => always act (.tail _ there))
      (reached.step (always act (.head _) state) stepped) ran

/-- A token of one digit. -/
def only (digit : Char) (hex : isHexDigit digit = true) : Token where
  text := List.replicate tokenChars digit
  length_eq := length_replicate
  hex := all_replicate.trans (by simp [hex])

def zeros : Token := only '0' rfl

def ones : Token := only '1' rfl

/-- Neither finds a file; the first creates it, and the second reads it again. -/
def fresh : List Act :=
  [.begin 0, .openFile 0, .begin 1, .openFile 1, .create 0 zeros, .create 1 ones, .write 0 64]

theorem one_token_fresh : ∃ state, run (start none) fresh = some state ∧
    state.pcs 0 = .done zeros.text ∧
    ∃ held, state.file = some held ∧ wellFormed held = some zeros.text := by
  have reached : Reaches Careful none _ := @Reaches.run Careful none fresh (by simp [fresh, Careful])
    _ _ .start rfl
  exact ⟨_, rfl, rfl, one_token none _ reached 0 zeros.text rfl⟩

/-- Both read a malformed file; each empties it and writes its own token. -/
def mangled : List Act :=
  [.begin 0, .openFile 0, .read 0 1, .finish 0, .begin 1, .openFile 1, .read 1 1, .finish 1,
    .replace 0 zeros, .write 0 64, .replace 1 ones, .write 1 64]

/-- A process has not begun, or has ended. -/
def Pc.Finished : Pc → Prop
  | .idle | .done _ | .failed => True
  | .opening _ | .reading _ _ | .settling _ _ _ | .minting _ | .writing _ _ => False

/-- Two processes that find a malformed file can succeed with two tokens. -/
theorem mangled_two_tokens :
    ¬∀ (file : Option Text) (state : State), Reaches (fun _ _ => True) file state →
      (∀ p, (state.pcs p).Finished) → ∀ p token, state.pcs p = .done token →
      ∃ held, state.file = some held ∧ wellFormed held = some token := by
  intro agree
  have reached : Reaches (fun _ _ => True) (some ['x']) _ :=
    @Reaches.run _ _ mangled (by simp) _ _ .start rfl
  obtain ⟨held, file, whole⟩ := agree (some ['x']) _ reached (fun p => by
    rcases p with - | - | p <;> trivial) 0 zeros.text rfl
  have last : held = ones.text := by
    cases file
    exact (@writeAt_take ones 0 64 (by decide)).trans (take_of_length_le ones.length_eq.le)
  rw [last, wellFormed_token] at whole
  have first := congrArg List.head? (Option.some.inj whole)
  cases first

end HopsFormal.Ipc.Minting
