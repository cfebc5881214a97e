import HopsFormal.Trust.Identity
import HopsFormal.Trust.Seal
import HopsFormal.Pairing.MatchCode

/-!
# The two-way proof that opens every frontend connection

Both ends hold the token and prove it to each other without sending it: a
challenge with the frontend's nonce, an answer with the daemon's nonce and a
code over both, a proof with another code over both.  The two codes carry
different labels, and a field is always 64 hex digits, so what is covered by a
code determines the side that made it and the two nonces.
-/

namespace HopsFormal.Ipc

open Trust (trim isWhitespace)
open Trust.Seal (Bytes ascii forall_byte)
open Pairing (Sha256)

/-! ## Texts and bytes -/

def fromUtf8 (bytes : Bytes) : Option String := String.fromUTF8? ⟨bytes.toArray⟩

def asBytes (text : String) : Bytes := text.toUTF8.data.toList

def stripPrefix (start text : String) : Option String :=
  if start.toList <+: text.toList then some (String.ofList (text.toList.drop start.length))
  else none

/-- What stands before the first blank and what stands behind it. -/
def splitOnce (text : String) : Option (String × String) :=
  match text.toList.dropWhile (· != ' ') with
  | [] => none
  | _ :: behind => some (String.ofList (text.toList.takeWhile (· != ' ')), String.ofList behind)

def isAsciiHexdigit (c : Char) : Bool :=
  ('0' ≤ c && c ≤ '9') || ('a' ≤ c && c ≤ 'f') || ('A' ≤ c && c ≤ 'F')

def nonceBytes : Nat := 32

/-- Hex digits in a nonce or a code. -/
def hexChars : Nat := 64

/-- Sixty-four hex digits; a text that has only these has one byte for each. -/
def isHexField (s : String) : Bool :=
  s.toList.length == hexChars && s.toList.all isAsciiHexdigit

def hexDigit (value : UInt8) : Char :=
  Char.ofNat (if value < 10 then 0x30 + value.toNat else 0x57 + value.toNat)

/-- Each byte as two digits, lowercase. -/
def hex (bytes : Bytes) : String :=
  String.ofList (bytes.flatMap fun b : UInt8 => [hexDigit (b >>> 4), hexDigit (b &&& 0x0f)])

/-! ## The lines -/

/-- `hops-ipc/2 daemon` and a zero byte. -/
def daemonLabel : Bytes := ascii "hops-ipc/2 daemon" ++ [0]

/-- `hops-ipc/2 frontend` and a zero byte. -/
def frontendLabel : Bytes := ascii "hops-ipc/2 frontend" ++ [0]

def busyLine : String := "busy\n"

def answerLineMax : Nat := 256

def covered (label : Bytes) (nf nd : String) : Bytes := label ++ ascii nf ++ ascii nd

/-- A nonce from what the system's randomness gave, if it gave any. -/
def nonce (raw : Option (Vector UInt8 32)) : Option String := raw.map fun raw => hex raw.toList

def challengeLine (nf : String) : String := "challenge" ++ " " ++ nf ++ "\n"

/-- The frontend's nonce, if the line is a challenge. -/
def challengeIn (line : String) : Option String := do
  let rest ← stripPrefix " " (← stripPrefix "challenge" (trim line))
  if isHexField rest then some rest else none

section Sha256

variable [Sha256]

def hmacBlock : Nat := 64

def hmacSha256 (key : Bytes) (parts : List Bytes) : Bytes :=
  let short := if hmacBlock < key.length then Sha256.digest key else key
  let block := short ++ List.replicate (hmacBlock - short.length) 0
  let inner := Sha256.digest (block.map (· ^^^ 0x36) ++ parts.flatten)
  Sha256.digest (block.map (· ^^^ 0x5c) ++ inner)

def mac (token : String) (label : Bytes) (nf nd : String) : String :=
  hex (hmacSha256 (ascii token) [label, ascii nf, ascii nd])

/-- The comparison that does not stop at the first difference. -/
def tokenMatches (expected offered : String) : Bool :=
  let (a, b) := (asBytes expected, asBytes offered)
  a.length == b.length && (List.zipWith (· ^^^ ·) a b).foldl (· ||| ·) 0 == 0

/-- The daemon's answer to challenge `nf`, with its own nonce `nd`. -/
def answerLine (token nf nd : String) : String :=
  "answer" ++ " " ++ nd ++ " " ++ mac token daemonLabel nf nd ++ "\n"

/-- The daemon's nonce, when the line is its answer to challenge `nf`. -/
def daemonProven (token nf line : String) : Option String := do
  let rest ← stripPrefix " " (← stripPrefix "answer" (trim line))
  let (nd, offered) ← splitOnce rest
  if !isHexField nd || !isHexField offered then none
  else if tokenMatches (mac token daemonLabel nf nd) offered then some nd
  else none

/-- The frontend's proof, for challenge `nf` answered with `nd`. -/
def proofLine (token nf nd : String) : String :=
  "proof" ++ " " ++ mac token frontendLabel nf nd ++ "\n"

/-- Whether the line is a frontend's proof for challenge `nf` answered with `nd`. -/
def frontendProven (token nf nd line : String) : Bool :=
  match (stripPrefix "proof" (trim line)).bind (stripPrefix " ") with
  | none => false
  | some offered => isHexField offered && tokenMatches (mac token frontendLabel nf nd) offered

end Sha256

/-! ## What a code covers -/

variable {s t nf nd text before field : String}

theorem isHexField_spec (field : isHexField s = true) :
    s.toList.length = 64 ∧ ∀ c ∈ s.toList, isAsciiHexdigit c = true := by
  simp only [isHexField, hexChars, Bool.and_eq_true, beq_iff_eq, List.all_eq_true] at field
  exact field

theorem isAsciiHexdigit_small {c : Char} (digit : isAsciiHexdigit c = true) : c.toNat < 128 := by
  simp only [isAsciiHexdigit, Bool.or_eq_true, Bool.and_eq_true, decide_eq_true_eq,
    Char.le_def, UInt32.le_iff_toNat_le] at digit
  have value : c.toNat = c.val.toNat := rfl
  rcases digit with (⟨-, high⟩ | ⟨-, high⟩) | ⟨-, high⟩
  · have bound : ('9' : Char).val.toNat = 57 := rfl
    omega
  · have bound : ('f' : Char).val.toNat = 102 := rfl
    omega
  · have bound : ('F' : Char).val.toNat = 70 := rfl
    omega

theorem length_ascii (text : String) : (ascii text).length = text.toList.length := by
  rw [ascii, List.length_map]

theorem ascii_injective (sPlain : ∀ c ∈ s.toList, c.toNat < 128)
    (tPlain : ∀ c ∈ t.toList, c.toNat < 128) (same : ascii s = ascii t) : s = t := by
  apply String.toList_inj.mp
  unfold ascii at same
  generalize s.toList = left at sPlain same
  generalize t.toList = right at tPlain same
  induction left generalizing right with
  | nil =>
    cases right with
    | nil => rfl
    | cons c rest => cases same
  | cons a left ih =>
    cases right with
    | nil => cases same
    | cons b right =>
      obtain ⟨heads, tails⟩ := List.cons.inj same
      have aSmall := sPlain a List.mem_cons_self
      have bSmall := tPlain b List.mem_cons_self
      have values : a.toNat = b.toNat := by
        have bytes := congrArg UInt8.toNat heads
        rw [UInt8.toNat_ofNat', UInt8.toNat_ofNat'] at bytes
        omega
      have chars : a = b := Char.toNat_inj.mp values
      rw [chars, ih (fun c member => sPlain c (List.mem_cons_of_mem _ member)) _
        (fun c member => tPlain c (List.mem_cons_of_mem _ member)) tails]

theorem ascii_field_injective (sField : isHexField s = true) (tField : isHexField t = true)
    (same : ascii s = ascii t) : s = t :=
  ascii_injective (fun c member => isAsciiHexdigit_small ((isHexField_spec sField).2 c member))
    (fun c member => isAsciiHexdigit_small ((isHexField_spec tField).2 c member)) same

theorem length_covered (label : Bytes) (nfField : isHexField nf = true)
    (ndField : isHexField nd = true) : (covered label nf nd).length = label.length + 128 := by
  rw [covered, List.length_append, List.length_append, length_ascii, length_ascii,
    (isHexField_spec nfField).1, (isHexField_spec ndField).1]

theorem covered_injective {label : Bytes} {nf' nd' : String} (nfField : isHexField nf = true)
    (ndField : isHexField nd = true) (nfField' : isHexField nf' = true)
    (ndField' : isHexField nd' = true) (same : covered label nf nd = covered label nf' nd') :
    nf = nf' ∧ nd = nd' := by
  unfold covered at same
  rw [List.append_assoc, List.append_assoc] at same
  have fields := List.append_cancel_left same
  have lengths : (ascii nf).length = (ascii nf').length := by
    rw [length_ascii, length_ascii, (isHexField_spec nfField).1, (isHexField_spec nfField').1]
  obtain ⟨first, second⟩ := List.append_inj fields lengths
  exact ⟨ascii_field_injective nfField nfField' first, ascii_field_injective ndField ndField' second⟩

theorem covered_label_ne {nf' nd' : String} (nfField : isHexField nf = true)
    (ndField : isHexField nd = true) (nfField' : isHexField nf' = true)
    (ndField' : isHexField nd' = true) :
    covered daemonLabel nf nd ≠ covered frontendLabel nf' nd' := by
  intro same
  have lengths := congrArg List.length same
  rw [length_covered _ nfField ndField, length_covered _ nfField' ndField'] at lengths
  have daemon : daemonLabel.length = 18 := by decide
  have frontend : frontendLabel.length = 20 := by decide
  omega

/-! ## What the checks accept -/

theorem stripPrefix_eq_some {start rest : String} :
    stripPrefix start text = some rest ↔ text = start ++ rest := by
  unfold stripPrefix
  constructor
  · intro stripped
    split at stripped
    · rename_i isStart
      obtain ⟨behind, whole⟩ := isStart
      obtain rfl := Option.some.inj stripped
      apply String.toList_inj.mp
      rw [String.toList_append, String.toList_ofList, ← whole, ← String.length_toList,
        List.drop_left]
    · cases stripped
  · rintro rfl
    rw [String.toList_append, if_pos (List.prefix_append _ _), ← String.length_toList,
      List.drop_left, String.ofList_toList]

theorem splitOnce_eq_some {behind : String} : splitOnce text = some (before, behind) ↔
      text = before ++ " " ++ behind ∧ ' ' ∉ before.toList := by
  unfold splitOnce
  constructor
  · intro split
    cases after : text.toList.dropWhile (· != ' ') with
    | nil =>
      rw [after] at split
      cases split
    | cons blank rest =>
      rw [after] at split
      obtain ⟨rfl, rfl⟩ := Prod.mk.inj (Option.some.inj split)
      have isBlank : blank = ' ' := by
        have first := List.head_dropWhile_not (p := (· != ' ')) (l := text.toList)
          (by rw [after]; exact List.cons_ne_nil _ _)
        simp only [after, List.head_cons] at first
        simpa using first
      have whole := List.takeWhile_append_dropWhile (p := (· != ' ')) (l := text.toList)
      constructor
      · apply String.toList_inj.mp
        rw [after, isBlank] at whole
        simp only [String.toList_append, String.toList_ofList, List.append_assoc]
        exact whole.symm
      · intro member
        rw [String.toList_ofList] at member
        simpa using List.mem_takeWhile_imp member
  · rintro ⟨rfl, noBlank⟩
    have plain : ∀ c ∈ before.toList, (c != ' ') = true := by
      intro c member
      rw [bne_iff_ne]
      rintro rfl
      exact noBlank member
    rw [String.toList_append, String.toList_append, List.append_assoc,
      List.dropWhile_append_of_pos plain, List.takeWhile_append_of_pos plain]
    have blank : " ".toList = [' '] := rfl
    rw [blank]
    simp

theorem xor_eq_zero {a b : UInt8} (zero : a ^^^ b = 0) : a = b := by
  have bits := congrArg UInt8.toBitVec zero
  rw [UInt8.toBitVec_xor] at bits
  exact UInt8.toBitVec_inj.mp (BitVec.xor_eq_zero_iff.mp bits)

theorem foldl_or_eq_zero (bytes : Bytes) (acc : UInt8) :
    bytes.foldl (· ||| ·) acc = 0 ↔ acc = 0 ∧ ∀ b ∈ bytes, b = 0 := by
  induction bytes generalizing acc with
  | nil => simp
  | cons b rest ih =>
    have both : acc ||| b = 0 ↔ acc = 0 ∧ b = 0 := by
      rw [← UInt8.toBitVec_inj, ← UInt8.toBitVec_inj, ← UInt8.toBitVec_inj, UInt8.toBitVec_or]
      exact BitVec.or_eq_zero_iff
    rw [List.foldl_cons, ih, both, List.forall_mem_cons, and_assoc]

theorem zipWith_xor_zero {a b : Bytes} (lengths : a.length = b.length) :
    (∀ x ∈ List.zipWith (· ^^^ ·) a b, x = 0) ↔ a = b := by
  induction a generalizing b with
  | nil =>
    cases b with
    | nil => simp
    | cons y b => cases lengths
  | cons x a ih =>
    cases b with
    | nil => cases lengths
    | cons y b =>
      rw [List.zipWith_cons_cons, List.forall_mem_cons, ih (Nat.succ.inj lengths), List.cons.injEq]
      constructor
      · exact fun ⟨zero, rest⟩ => ⟨xor_eq_zero zero, rest⟩
      · exact fun ⟨same, rest⟩ => ⟨by rw [same, UInt8.xor_self], rest⟩

theorem asBytes_injective (same : asBytes s = asBytes t) : s = t := by
  apply String.toByteArray_inj.mp
  apply ByteArray.ext
  exact Array.toList_inj.mp same

/-- The comparison accepts the very text and no other. -/
theorem tokenMatches_iff {expected offered : String} :
    tokenMatches expected offered = true ↔ expected = offered := by
  unfold tokenMatches
  simp only [Bool.and_eq_true, beq_iff_eq, foldl_or_eq_zero, true_and]
  constructor
  · rintro ⟨lengths, zeros⟩
    exact asBytes_injective ((zipWith_xor_zero lengths).mp zeros)
  · rintro rfl
    exact ⟨rfl, (zipWith_xor_zero rfl).mpr rfl⟩

section Sha256

variable [Sha256]

/-- A proof checks exactly when it is the code over both nonces, whitespace around it aside. -/
theorem frontendProven_iff {token nf nd line : String} :
    frontendProven token nf nd line = true ↔
      isHexField (mac token frontendLabel nf nd) = true ∧
        trim line = "proof" ++ (" " ++ mac token frontendLabel nf nd) := by
  unfold frontendProven
  constructor
  · intro proven
    split at proven
    · cases proven
    · rename_i offered read
      obtain ⟨rest, word, blank⟩ := Option.bind_eq_some_iff.mp read
      obtain ⟨field, same⟩ := (Bool.and_eq_true _ _).mp proven
      rw [stripPrefix_eq_some] at word blank
      rw [tokenMatches_iff.mp same, word, blank]
      exact ⟨field, rfl⟩
  · rintro ⟨field, spelled⟩
    have read : (stripPrefix "proof" (trim line)).bind (stripPrefix " ") =
        some (mac token frontendLabel nf nd) :=
      Option.bind_eq_some_iff.mpr ⟨_, stripPrefix_eq_some.mpr spelled, stripPrefix_eq_some.mpr rfl⟩
    rw [read]
    exact (Bool.and_eq_true _ _).mpr ⟨field, tokenMatches_iff.mpr rfl⟩

theorem daemonProven_iff {token nf nd line : String} :
    daemonProven token nf line = some nd ↔
      isHexField nd = true ∧ isHexField (mac token daemonLabel nf nd) = true ∧
        trim line = "answer" ++ (" " ++ (nd ++ " " ++ mac token daemonLabel nf nd)) := by
  unfold daemonProven
  simp only [Option.bind_eq_bind, Option.bind_eq_some_iff, stripPrefix_eq_some]
  constructor
  · rintro ⟨rest, word, behind, blank, ⟨own, offered⟩, fields, checked⟩
    obtain ⟨parts, -⟩ := splitOnce_eq_some.mp fields
    split at checked
    · cases checked
    · rename_i isField
      split at checked
      · rename_i same
        obtain rfl := Option.some.inj checked
        simp only [Bool.or_eq_true, Bool.not_eq_true', not_or, Bool.not_eq_false] at isField
        rw [tokenMatches_iff.mp same, word, blank, parts]
        exact ⟨isField.1, isField.2, rfl⟩
      · cases checked
  · rintro ⟨ndField, macField, spelled⟩
    refine ⟨_, spelled, _, rfl, (nd, mac token daemonLabel nf nd), ?_, ?_⟩
    · refine splitOnce_eq_some.mpr ⟨rfl, ?_⟩
      intro member
      have impossible := (isHexField_spec ndField).2 ' ' member
      revert impossible
      decide
    · dsimp only
      rw [ndField, macField, tokenMatches_iff.mpr rfl]
      rfl

end Sha256

/-! ## Honest lines -/

theorem hexDigit_spec : ∀ value : UInt8, value < 16 → isAsciiHexdigit (hexDigit value) = true :=
  forall_byte (by decide +kernel)

theorem isHexField_hex {bytes : Bytes} (length : bytes.length = 32) :
    isHexField (hex bytes) = true := by
  unfold isHexField hex
  rw [Bool.and_eq_true, beq_iff_eq, List.all_eq_true, String.toList_ofList]
  constructor
  · simp [length, hexChars]
  · intro c member
    obtain ⟨b, -, digits⟩ := List.mem_flatMap.mp member
    have halves : (b >>> 4) < 16 ∧ (b &&& 0x0f) < 16 := by
      obtain ⟨high, low, -⟩ := Trust.Seal.nibbles b
      exact ⟨high, low⟩
    simp only [List.mem_cons, List.not_mem_nil, or_false] at digits
    rcases digits with rfl | rfl
    · exact hexDigit_spec _ halves.1
    · exact hexDigit_spec _ halves.2

theorem isHexField_nonce {raw : Option (Vector UInt8 32)} (drawn : nonce raw = some nd) :
    isHexField nd = true := by
  obtain ⟨raw, -, rfl⟩ := Option.map_eq_some_iff.mp drawn
  exact isHexField_hex (by rw [Vector.length_toList])

theorem isHexField_challengeIn {line : String} (challenge : challengeIn line = some nf) :
    isHexField nf = true := by
  unfold challengeIn at challenge
  simp only [Option.bind_eq_bind, Option.bind_eq_some_iff] at challenge
  obtain ⟨_, -, rest, -, field⟩ := challenge
  split at field
  · rename_i isField
    obtain rfl := Option.some.inj field
    exact isField
  · cases field

theorem hexdigit_not_white {c : Char} (digit : isAsciiHexdigit c = true) :
    isWhitespace c = false := by
  have small := isAsciiHexdigit_small digit
  have every : ∀ n : Fin 128, isAsciiHexdigit (Char.ofNat n) = true →
      isWhitespace (Char.ofNat n) = false := by decide
  have here := every ⟨c.toNat, small⟩
  rw [Char.ofNat_toNat] at here
  exact here digit

theorem asBytes_ofList (chars : List Char) :
    asBytes (String.ofList chars) = chars.flatMap String.utf8EncodeChar := by
  simp [asBytes, List.utf8Encode]

theorem asBytes_ascii (plain : ∀ c ∈ text.toList, c.toNat < 128) : asBytes text = ascii text := by
  have bytes := asBytes_ofList text.toList
  rw [String.ofList_toList] at bytes
  rw [bytes, ascii, List.map_eq_flatMap]
  apply List.flatMap_congr
  intro c member
  have small := plain c member
  have one : c.utf8Size = 1 := by
    rw [Char.utf8Size_eq_one_iff, UInt32.le_iff_toNat_le]
    have value : c.toNat = c.val.toNat := rfl
    have top : (127 : UInt32).toNat = 127 := rfl
    omega
  rw [String.utf8EncodeChar_eq_singleton one]
  congr 1

theorem fromUtf8_asBytes (text : String) : fromUtf8 (asBytes text) = some text := by
  unfold fromUtf8 asBytes String.fromUTF8?
  have whole : (⟨text.toUTF8.data.toList.toArray⟩ : ByteArray) = text.toByteArray := rfl
  rw [whole, dif_pos text.isValidUTF8]
  rfl

theorem field_last (isField : isHexField field = true) :
    ∃ init last, field.toList = init ++ [last] ∧ isAsciiHexdigit last = true := by
  obtain ⟨length, digits⟩ := isHexField_spec isField
  have nonempty : field.toList ≠ [] := by
    intro empty
    rw [empty] at length
    cases length
  obtain ⟨init, last, split⟩ := List.eq_nil_or_concat field.toList |>.resolve_left nonempty
  rw [List.concat_eq_append] at split
  have member : last ∈ field.toList := by
    rw [split]
    exact List.mem_append_right _ List.mem_cons_self
  exact ⟨init, last, split, digits last member⟩

theorem trim_field {first : Char} {rest : List Char} (start : before.toList = first :: rest)
    (plain : isWhitespace first = false) (isField : isHexField field = true) :
    trim (before ++ field) = before ++ field := by
  obtain ⟨init, last, split, digit⟩ := field_last isField
  apply String.toList_inj.mp
  rw [trim, String.toList_ofList, String.toList_append, start, split, List.cons_append,
    List.dropWhile_cons_of_neg (by rw [plain]; decide), ← List.cons_append, ← List.append_assoc,
    List.rdropWhile_concat_neg _ _ _ (by rw [hexdigit_not_white digit]; decide)]

theorem trim_line {first : Char} {rest : List Char} (start : before.toList = first :: rest)
    (plain : isWhitespace first = false) (isField : isHexField field = true) :
    trim (before ++ field ++ "\n") = before ++ field := by
  obtain ⟨init, last, split, digit⟩ := field_last isField
  have newline : "\n".toList = ['\n'] := rfl
  apply String.toList_inj.mp
  rw [trim, String.toList_ofList, String.toList_append, String.toList_append, newline, start,
    split]
  simp only [List.cons_append]
  rw [List.dropWhile_cons_of_neg (by rw [plain]; decide), ← List.cons_append, ← List.cons_append,
    List.rdropWhile_concat_pos _ _ _ (by decide), ← List.append_assoc,
    List.rdropWhile_concat_neg _ _ _ (by rw [hexdigit_not_white digit]; decide)]

theorem challengeIn_challenge (field : isHexField nf = true) :
    challengeIn ("challenge" ++ " " ++ nf) = some nf := by
  have start : ("challenge" ++ " ").toList = 'c' :: "hallenge ".toList := rfl
  unfold challengeIn
  rw [trim_field start (by decide) field, String.append_assoc, stripPrefix_eq_some.mpr rfl]
  simp only [Option.bind_eq_bind, Option.bind_some]
  rw [stripPrefix_eq_some.mpr rfl, Option.bind_some, if_pos field]

section Sha256

variable [Sha256]

theorem daemonProven_answerLine {token nf nd : String} (ndField : isHexField nd = true)
    (macField : isHexField (mac token daemonLabel nf nd) = true) :
    daemonProven token nf (answerLine token nf nd) = some nd := by
  refine daemonProven_iff.mpr ⟨ndField, macField, ?_⟩
  unfold answerLine
  have start : ("answer" ++ " " ++ nd ++ " ").toList =
      'a' :: ("nswer ".toList ++ (nd.toList ++ [' '])) := by
    simp only [String.toList_append, List.append_assoc]
    rfl
  rw [trim_line start (by decide) macField]
  simp only [String.append_assoc]

theorem frontendProven_proof {token nf nd : String}
    (macField : isHexField (mac token frontendLabel nf nd) = true) :
    frontendProven token nf nd ("proof" ++ " " ++ mac token frontendLabel nf nd) = true := by
  have start : ("proof" ++ " ").toList = 'p' :: "roof ".toList := rfl
  refine frontendProven_iff.mpr ⟨macField, ?_⟩
  rw [trim_field start (by decide) macField, String.append_assoc]

end Sha256

end HopsFormal.Ipc
