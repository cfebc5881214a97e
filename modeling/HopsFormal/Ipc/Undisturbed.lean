import HopsFormal.Ipc.Admission

/-!
# An exchange that nothing disturbs

A frontend that reaches the daemon and whose lines arrive as they were sent is
admitted, whatever the token and the two nonces are.
-/

namespace HopsFormal.Ipc

open Trust.Seal (Bytes ascii)
open Pairing (Sha256)

/-! ## Lines in time -/

theorem every_char {text : List Char} {holds : Char → Prop} [DecidablePred holds]
    (all : text.all (fun c => decide (holds c)) = true) : ∀ c ∈ text, holds c :=
  fun c member => of_decide_eq_true (List.all_eq_true.mp all c member)

theorem preauthLine_field {before field : String} (short : before.toList.length ≤ 64)
    (plain : ∀ c ∈ before.toList, c.toNat < 128) (isField : isHexField field = true) :
    preauthLine (asBytes (before ++ field)) = some (before ++ field) := by
  obtain ⟨length, digits⟩ := isHexField_spec isField
  obtain ⟨init, last, split, digit⟩ := field_last isField
  have chars : ∀ c ∈ (before ++ field).toList, c.toNat < 128 := by
    intro c member
    rw [String.toList_append] at member
    rcases List.mem_append.mp member with inBefore | inField
    · exact plain c inBefore
    · exact isAsciiHexdigit_small (digits c inField)
  have fits : (asBytes (before ++ field)).length ≤ preauthLineMax := by
    rw [asBytes_ascii chars, length_ascii, String.toList_append, List.length_append, preauthLineMax]
    omega
  have whole : (asBytes (before ++ field)).getLast? ≠ some 0x0d := by
    rw [asBytes_ascii chars, ascii, String.toList_append, split, List.map_append, List.map_append,
      ← List.append_assoc, List.map_singleton, List.getLast?_concat]
    have small := isAsciiHexdigit_small digit
    have every : ∀ n : Fin 128, isAsciiHexdigit (Char.ofNat n) = true →
        some (UInt8.ofNat n) ≠ some 0x0d := by decide
    have here := every ⟨last.toNat, small⟩
    rw [Char.ofNat_toNat] at here
    exact here digit
  unfold preauthLine
  rw [if_neg (Nat.not_lt.mpr fits), takeLine, if_neg whole, fromUtf8_asBytes]

theorem asBytes_line {text : String} (plain : ∀ c ∈ text.toList, c.toNat < 128 ∧ c ≠ '\n') :
    asBytes (text ++ "\n") = ascii text ++ [0x0a] := by
  rw [asBytes_ascii]
  · rw [ascii, String.toList_append, List.map_append]
    rfl
  · intro c member
    rw [String.toList_append] at member
    rcases List.mem_append.mp member with inText | newline
    · exact (plain c inText).1
    · obtain rfl := List.mem_singleton.mp newline
      decide

theorem answerRead_line {text : String} (short : text.toList.length < answerLineMax)
    (plain : ∀ c ∈ text.toList, c.toNat < 128 ∧ c ≠ '\n') :
    answerRead (asBytes (text ++ "\n")) = asBytes (text ++ "\n") := by
  have before : ∀ b ∈ ascii text, (b != 0x0a) = true := by
    intro b member
    obtain ⟨c, inText, rfl⟩ := List.mem_map.mp member
    obtain ⟨small, notNewline⟩ := plain c inText
    rw [bne_iff_ne]
    intro same
    have value : c.toNat = 10 := by
      have bytes := congrArg UInt8.toNat same
      rw [UInt8.toNat_ofNat'] at bytes
      have ten : (0x0a : UInt8).toNat = 10 := rfl
      omega
    exact notNewline (Char.toNat_inj.mp value)
  have most : (ascii text ++ [0x0a]).take answerLineMax = ascii text ++ [0x0a] := by
    apply List.take_of_length_le
    rw [List.length_append, length_ascii, List.length_singleton]
    omega
  unfold answerRead
  dsimp only
  have newline : ([0x0a] : Bytes).takeWhile (· != 0x0a) ++
      (([0x0a] : Bytes).dropWhile (· != 0x0a)).take 1 = [0x0a] := by decide
  rw [asBytes_line plain, most, List.takeWhile_append_of_pos before, List.dropWhile_append_of_pos before,
    List.append_assoc, newline]

/-! ## The exchange -/

variable {Request : Type} [Sha256]

theorem isHexField_mac (digests : ∀ bytes, (Sha256.digest bytes).length = 32)
    (token : String) (label : Bytes) (nf nd : String) :
    isHexField (mac token label nf nd) = true :=
  isHexField_hex (digests _)

theorem Session.answerHeard_answerLine {token nf nd : String} {sent : Bytes}
    (ndField : isHexField nd = true)
    (macField : isHexField (mac token daemonLabel nf nd) = true) :
    (⟨nf, .asked, sent⟩ : Session).answerHeard token (asBytes (answerLine token nf nd)) =
      some nd := by
  obtain ⟨ndLength, ndDigits⟩ := isHexField_spec ndField
  obtain ⟨macLength, macDigits⟩ := isHexField_spec macField
  have word : ∀ c ∈ "answer ".toList ++ [' '], c.toNat < 128 ∧ c ≠ '\n' :=
    every_char (by decide)
  have digit : ∀ c, isAsciiHexdigit c = true → c.toNat < 128 ∧ c ≠ '\n' := by
    intro c isDigit
    refine ⟨isAsciiHexdigit_small isDigit, ?_⟩
    rintro rfl
    revert isDigit
    decide
  have chars : ("answer" ++ " " ++ nd ++ " " ++ mac token daemonLabel nf nd).toList =
      "answer ".toList ++ (nd.toList ++ ([' '] ++ (mac token daemonLabel nf nd).toList)) := by
    simp only [String.toList_append, List.append_assoc]
    rfl
  have plain : ∀ c ∈ ("answer" ++ " " ++ nd ++ " " ++ mac token daemonLabel nf nd).toList,
      c.toNat < 128 ∧ c ≠ '\n' := by
    intro c member
    rw [chars] at member
    simp only [List.mem_append] at member
    rcases member with inWord | inNd | blank | inMac
    · exact word c (List.mem_append_left _ inWord)
    · exact digit c (ndDigits c inNd)
    · exact word c (List.mem_append_right _ blank)
    · exact digit c (macDigits c inMac)
  have read : answerRead (asBytes (answerLine token nf nd)) = asBytes (answerLine token nf nd) := by
    refine answerRead_line ?_ plain
    rw [chars]
    simp only [List.length_append, ndLength, macLength, answerLineMax]
    decide
  have long : 128 ≤ (asBytes (answerLine token nf nd)).length := by
    rw [answerLine, asBytes_line plain, List.length_append, length_ascii, chars]
    simp only [List.length_append, ndLength, macLength]
    omega
  have notBusy : asBytes (answerLine token nf nd) ≠ asBytes busyLine := by
    intro same
    have short : (asBytes busyLine).length = 5 := by decide
    rw [same, short] at long
    omega
  have notEmpty : ¬ (asBytes (answerLine token nf nd)).isEmpty = true := by
    intro empty
    rw [List.isEmpty_iff.mp empty] at long
    cases long
  unfold Session.answerHeard
  rw [read, if_neg notBusy, if_neg notEmpty, fromUtf8_asBytes, Option.bind_some,
    daemonProven_answerLine ndField macField]

namespace World

/-- A challenge, its answer and the proof, each carried as it was sent. -/
def exchange (setup : Setup Request) (rawF rawD : Vector UInt8 32) : List Act :=
  let nf := hex rawF.toList
  let nd := hex rawD.toList
  [.ask (some rawF) (asBytes (challengeLine nf)).length,
    .connect 0 0,
    .line 0 (asBytes ("challenge" ++ " " ++ nf)) (some rawD)
      (asBytes (answerLine setup.token nf nd)).length,
    .reply 0 (asBytes (answerLine setup.token nf nd)) 0,
    .line 0 (asBytes ("proof" ++ " " ++ mac setup.token frontendLabel nf nd)) none 0]

def answeredConn (setup : Setup Request) (nf nd : String) : Connection Request :=
  ⟨0, .answered nf nd, ⟨false, false⟩, false, some (nf, nd),
    asBytes (answerLine setup.token nf nd), []⟩

variable {setup : Setup Request}

theorem asked (rawF : Vector UInt8 32) :
    (start : World Request).step setup
        (.ask (some rawF) (asBytes (challengeLine (hex rawF.toList))).length) =
      ⟨[], [⟨hex rawF.toList, .asked, asBytes (challengeLine (hex rawF.toList))⟩], [],
        [hex rawF.toList]⟩ := by
  unfold World.step start
  dsimp only [nonce, Option.map_some]
  rw [Session.ask]
  simp only [Nat.le_refl, if_true, List.take_length, List.nil_append]

variable {rawD : Vector UInt8 32} {nf nd : String}

omit [Sha256] in
theorem heard_challenge (nfField : isHexField nf = true) :
    challengeHeard (asBytes ("challenge" ++ " " ++ nf)) (some rawD) =
      some (nf, hex rawD.toList) := by
  have first : preauthLine (asBytes ("challenge" ++ " " ++ nf)) = some ("challenge" ++ " " ++ nf) :=
    preauthLine_field (by decide) (every_char (by decide)) nfField
  unfold challengeHeard
  rw [first]
  simp only [Option.bind_eq_bind, Option.bind_some]
  rw [challengeIn_challenge nfField]
  rfl

theorem answers_challenge (nfField : isHexField nf = true) (sessions : List Session)
    (drawn : List String) :
    (⟨[⟨0, .opened, ⟨false, false⟩, false, none, [], []⟩], sessions, [], drawn⟩ :
        World Request).step setup
        (.line 0 (asBytes ("challenge" ++ " " ++ nf)) (some rawD)
          (asBytes (answerLine setup.token nf (hex rawD.toList))).length) =
      ⟨[answeredConn setup nf (hex rawD.toList)], sessions,
        [covered daemonLabel nf (hex rawD.toList)], drawn ++ [hex rawD.toList]⟩ := by
  unfold World.step
  simp only [opens, List.getElem?_cons_zero, if_true, heard_challenge nfField, Connection.hear, Nat.le_refl,
    List.take_length, List.nil_append, List.modify_zero_cons, Option.map_some, Option.toList_some,
    answeredConn]

theorem proves_answer (ndField : isHexField nd = true)
    (macField : isHexField (mac setup.token daemonLabel nf nd) = true)
    (conns : List (Connection Request)) (sent : Bytes) (made : List Bytes) (drawn : List String) :
    World.accepts setup ⟨conns, [⟨nf, .asked, sent⟩], made, drawn⟩ 0
        (asBytes (answerLine setup.token nf nd)) = some (nf, nd) ∧
      World.step setup ⟨conns, [⟨nf, .asked, sent⟩], made, drawn⟩
        (.reply 0 (asBytes (answerLine setup.token nf nd)) 0) =
      ⟨conns, [⟨nf, .proved nd, sent⟩], made ++ [covered frontendLabel nf nd], drawn⟩ := by
  have heard : (⟨nf, .asked, sent⟩ : Session).answerHeard setup.token
      (asBytes (answerLine setup.token nf nd)) = some nd :=
    Session.answerHeard_answerLine ndField macField
  constructor
  · simp only [accepts, List.getElem?_cons_zero, if_true, heard, Option.map_some]
  · unfold World.step
    simp only [accepts, List.getElem?_cons_zero, if_true, heard, Session.hear, List.take_zero,
      List.append_nil, List.modify_zero_cons, Option.map_some, Option.toList_some]

theorem admits_proof (macField : isHexField (mac setup.token frontendLabel nf nd) = true)
    (sessions : List Session) (made : List Bytes) (drawn : List String) :
    (preauthLine (asBytes ("proof" ++ " " ++ mac setup.token frontendLabel nf nd))).any
        (frontendProven setup.token nf nd) = true ∧
      World.step setup ⟨[answeredConn setup nf nd], sessions, made, drawn⟩
        (.line 0 (asBytes ("proof" ++ " " ++ mac setup.token frontendLabel nf nd)) none 0) =
      ⟨[{ answeredConn setup nf nd with stage := .admitted nf nd, state := ⟨true, false⟩ }],
        sessions, made, drawn⟩ := by
  have second : preauthLine (asBytes ("proof" ++ " " ++ mac setup.token frontendLabel nf nd)) =
      some ("proof" ++ " " ++ mac setup.token frontendLabel nf nd) :=
    preauthLine_field (by decide) (every_char (by decide)) macField
  have proven : (preauthLine
      (asBytes ("proof" ++ " " ++ mac setup.token frontendLabel nf nd))).any
        (frontendProven setup.token nf nd) = true := by
    rw [second, Option.any_some, frontendProven_proof macField]
  refine ⟨proven, ?_⟩
  unfold World.step
  simp only [opens, List.getElem?_cons_zero, answeredConn, Connection.hear, proven, if_true,
    List.modify_zero_cons, reduceCtorEq, if_false, Option.map_none, Option.toList_none,
    List.append_nil]

theorem sound_of_draws {world : World Request} {act : Act} {drawn : String}
    (draws : world.draws act = some drawn) (fresh : drawn ∉ world.drawn)
    (unchecked : world.checks setup act = none) : world.Sound setup act := by
  refine ⟨fun other isDrawn => ?_, fun found isFound => ?_, fun found isFound => ?_⟩
  · rw [draws] at isDrawn
    rwa [← Option.some.inj isDrawn]
  · rw [unchecked] at isFound
    cases isFound
  · rw [unchecked] at isFound
    cases isFound

theorem sound_of_checks {world : World Request} {act : Act} {code : Bytes}
    (undrawn : world.draws act = none) (checks : world.checks setup act = some code)
    (made : code ∈ world.made)
    (alone : ∀ other ∈ world.made, hmacSha256 (ascii setup.token) [other] =
      hmacSha256 (ascii setup.token) [code] → other = code) : world.Sound setup act := by
  refine ⟨fun other isDrawn => ?_, fun found isFound => ?_, fun found isFound => ?_⟩
  · rw [undrawn] at isDrawn
    cases isDrawn
  · rw [checks] at isFound
    obtain rfl := Option.some.inj isFound
    exact ⟨code, made, rfl⟩
  · rw [checks] at isFound
    obtain rfl := Option.some.inj isFound
    exact alone

theorem challenge_sound (nfField : isHexField nf = true) {sessions : List Session}
    {drawn : List String} (fresh : hex rawD.toList ∉ drawn) (took : Nat) :
    World.Sound setup ⟨[⟨0, .opened, ⟨false, false⟩, false, none, [], []⟩], sessions, [], drawn⟩
      (.line 0 (asBytes ("challenge" ++ " " ++ nf)) (some rawD) took) := by
  refine sound_of_draws ?_ fresh rfl
  unfold draws opens
  simp only [List.getElem?_cons_zero, if_true, heard_challenge nfField, Option.map_some]

theorem answer_sound (ndField : isHexField nd = true)
    (macField : isHexField (mac setup.token daemonLabel nf nd) = true)
    (conns : List (Connection Request)) (sent : Bytes) (drawn : List String) :
    World.Sound setup ⟨conns, [⟨nf, .asked, sent⟩], [covered daemonLabel nf nd], drawn⟩
      (.reply 0 (asBytes (answerLine setup.token nf nd)) 0) := by
  have checked : World.checks setup
      ⟨conns, [⟨nf, .asked, sent⟩], [covered daemonLabel nf nd], drawn⟩
      (.reply 0 (asBytes (answerLine setup.token nf nd)) 0) = some (covered daemonLabel nf nd) := by
    unfold checks
    dsimp only
    rw [(proves_answer ndField macField conns sent _ drawn).1]
    rfl
  exact sound_of_checks rfl checked List.mem_cons_self
    fun other made _ => List.mem_singleton.mp made

theorem proof_sound (macField : isHexField (mac setup.token frontendLabel nf nd) = true)
    (codes : hmacSha256 (ascii setup.token) [covered daemonLabel nf nd] ≠
      hmacSha256 (ascii setup.token) [covered frontendLabel nf nd]) (sessions : List Session)
    (drawn : List String) : World.Sound setup
      ⟨[answeredConn setup nf nd], sessions,
        [covered daemonLabel nf nd] ++ [covered frontendLabel nf nd], drawn⟩
      (.line 0 (asBytes ("proof" ++ " " ++ mac setup.token frontendLabel nf nd)) none 0) := by
  have checked : World.checks setup
      ⟨[answeredConn setup nf nd], sessions,
        [covered daemonLabel nf nd] ++ [covered frontendLabel nf nd], drawn⟩
      (.line 0 (asBytes ("proof" ++ " " ++ mac setup.token frontendLabel nf nd)) none 0) =
      some (covered frontendLabel nf nd) := by
    simp only [answeredConn]
    exact if_pos (admits_proof macField sessions [] drawn).1
  refine sound_of_checks rfl checked (List.mem_append_right _ List.mem_cons_self) ?_
  intro other made same
  rcases List.mem_append.mp made with daemon | frontend
  · rw [List.mem_singleton.mp daemon] at same
    exact absurd same codes
  · exact List.mem_singleton.mp frontend

/-- A frontend whose lines reach the daemon, and back, is admitted on its own nonces. -/
theorem exchange_admits (setup : Setup Request)
    (digests : ∀ bytes, (Sha256.digest bytes).length = 32) {rawF : Vector UInt8 32}
    (apart : hex rawF.toList ≠ hex rawD.toList) (codes : hmacSha256 (ascii setup.token)
        [covered daemonLabel (hex rawF.toList) (hex rawD.toList)] ≠
      hmacSha256 (ascii setup.token) [covered frontendLabel (hex rawF.toList) (hex rawD.toList)]) :
    (World.start : World Request).SoundFrom setup (exchange setup rawF rawD) ∧
      (run setup (exchange setup rawF rawD)).conns.map Connection.stage =
        [.admitted (hex rawF.toList) (hex rawD.toList)] := by
  have nfField : isHexField (hex rawF.toList) = true := isHexField_hex (Vector.length_toList)
  have ndField : isHexField (hex rawD.toList) = true := isHexField_hex (Vector.length_toList)
  have daemonMac := isHexField_mac digests setup.token daemonLabel (hex rawF.toList)
    (hex rawD.toList)
  have frontendMac := isHexField_mac digests setup.token frontendLabel (hex rawF.toList)
    (hex rawD.toList)
  have fresh : hex rawD.toList ∉ [hex rawF.toList] := by
    rw [List.mem_singleton]
    exact fun same => apart same.symm
  have opened : (⟨[], [⟨hex rawF.toList, .asked, asBytes (challengeLine (hex rawF.toList))⟩], [],
      [hex rawF.toList]⟩ : World Request).step setup (.connect 0 0) =
      ⟨[⟨0, .opened, ⟨false, false⟩, false, none, [], []⟩],
        [⟨hex rawF.toList, .asked, asBytes (challengeLine (hex rawF.toList))⟩], [],
        [hex rawF.toList]⟩ := rfl
  have proved := (proves_answer ndField daemonMac
    [answeredConn setup (hex rawF.toList) (hex rawD.toList)]
    (asBytes (challengeLine (hex rawF.toList)))
    [covered daemonLabel (hex rawF.toList) (hex rawD.toList)]
    ([hex rawF.toList] ++ [hex rawD.toList])).2
  constructor
  · unfold exchange
    dsimp only [SoundFrom]
    rw [asked, opened, answers_challenge nfField, proved]
    refine ⟨sound_of_draws rfl List.not_mem_nil rfl,
      ⟨nofun, nofun, nofun⟩,
      challenge_sound nfField fresh _, answer_sound ndField daemonMac _ _ _,
      proof_sound frontendMac codes _ _, trivial⟩
  · unfold run exchange
    dsimp only [List.foldl_cons, List.foldl_nil]
    rw [asked, opened, answers_challenge nfField, proved, (admits_proof frontendMac _ _ _).2]
    rfl

end World

end HopsFormal.Ipc
