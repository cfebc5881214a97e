import HopsFormal.Lib.LastSplit
import Mathlib.Data.List.DropRight

/-!
# The seal around a document

A sealed document is the text of its body, a separator, and a signature block
that gives one value in hex.  What is signed is the domain in front of the body,
and nothing else of the file.  Signing, checking a signature and reading the
signature block are library code and stand as parameters; texts are their bytes.
-/

namespace HopsFormal.Trust.Seal

open List Lib

abbrev Bytes := List UInt8

/-- The bytes of a text of ASCII characters. -/
def ascii (text : String) : Bytes := text.toList.map fun c => UInt8.ofNat c.toNat

/-! ## Hex -/

def hexDigit (value : UInt8) : UInt8 := if value < 10 then 0x30 + value else 0x57 + value

@[grind =]
def hexEncode : List UInt8 → Bytes
  | [] => []
  | b :: rest => hexDigit (b >>> 4) :: hexDigit (b &&& 0x0f) :: hexEncode rest

@[grind =]
def hexNibble (b : UInt8) : Option UInt8 :=
  if 0x30 ≤ b ∧ b ≤ 0x39 then some (b - 0x30)
  else if 0x61 ≤ b ∧ b ≤ 0x66 then some (b - 0x61 + 10)
  else none

/-- The pairs of a text in order; what is left of an odd one is not looked at. -/
@[grind =]
def decodePairs : Bytes → Option (List UInt8)
  | hi :: lo :: rest =>
    match hexNibble hi, hexNibble lo with
    | some hi, some lo => (decodePairs rest).map ((hi <<< 4 ||| lo) :: ·)
    | _, _ => none
  | _ => some []

@[grind =]
def hexDecode (s : Bytes) : Option (List UInt8) :=
  if s.length % 2 ≠ 0 then none else decodePairs s

theorem forall_byte {P : UInt8 → Prop} (all : ∀ n : Fin 256, P (UInt8.ofFin n)) (b : UInt8) :
    P b :=
  all b.toFin

theorem hexNibble_hexDigit : ∀ value : UInt8, value < 16 →
    hexNibble (hexDigit value) = some value :=
  forall_byte (by decide +kernel)

theorem hexDigit_hexNibble : ∀ b : UInt8, (hexNibble b).all fun value =>
    hexDigit value == b && value < 16 :=
  forall_byte (by decide +kernel)

theorem nibbles : ∀ b : UInt8, (b >>> 4) < 16 ∧ (b &&& 0x0f) < 16 ∧
    ((b >>> 4) <<< 4 ||| (b &&& 0x0f)) = b :=
  forall_byte (by decide +kernel)

theorem joined : ∀ hi lo : UInt8, hi < 16 → lo < 16 →
    ((hi <<< 4 ||| lo) >>> 4 = hi ∧ (hi <<< 4 ||| lo) &&& 0x0f = lo) := by
  intro hi lo high low
  have small : ∀ h l : Fin 16, ((UInt8.ofNat h <<< 4 ||| UInt8.ofNat l) >>> 4 = UInt8.ofNat h ∧
      (UInt8.ofNat h <<< 4 ||| UInt8.ofNat l) &&& 0x0f = UInt8.ofNat l) := by decide
  have one := small ⟨hi.toNat, high⟩ ⟨lo.toNat, low⟩
  simpa using one

theorem length_hexEncode (bytes : List UInt8) : (hexEncode bytes).length = 2 * bytes.length := by
  induction bytes with
  | nil => rfl
  | cons b rest ih =>
    rw [hexEncode, length_cons, length_cons, ih, length_cons]
    omega

theorem decodePairs_hexEncode (bytes : List UInt8) :
    decodePairs (hexEncode bytes) = some bytes := by
  induction bytes with
  | nil => rfl
  | cons b rest ih =>
    obtain ⟨high, low, whole⟩ := nibbles b
    rw [hexEncode, decodePairs, hexNibble_hexDigit _ high, hexNibble_hexDigit _ low, ih]
    dsimp only
    rw [Option.map_some, whole]

theorem hexDecode_hexEncode (bytes : List UInt8) : hexDecode (hexEncode bytes) = some bytes := by
  unfold hexDecode
  rw [if_neg, decodePairs_hexEncode]
  rw [length_hexEncode]
  omega

theorem hexEncode_decodePairs {s : Bytes} {bytes : List UInt8} (even : s.length % 2 = 0)
    (read : decodePairs s = some bytes) : hexEncode bytes = s := by
  induction s using decodePairs.induct generalizing bytes with
  | case1 hi lo rest high low lowRead highRead ih =>
    unfold decodePairs at read
    rw [highRead, lowRead] at read
    obtain ⟨tail, tailRead, rfl⟩ := Option.map_eq_some_iff.mp read
    have highFacts := hexDigit_hexNibble hi
    have lowFacts := hexDigit_hexNibble lo
    rw [highRead] at highFacts
    rw [lowRead] at lowFacts
    simp only [Option.all_some, Bool.and_eq_true, beq_iff_eq, decide_eq_true_eq]
      at highFacts lowFacts
    obtain ⟨one, two⟩ := joined high low highFacts.2 lowFacts.2
    have shorter : rest.length % 2 = 0 := by
      rw [length_cons, length_cons] at even
      omega
    rw [hexEncode, one, two, highFacts.1, lowFacts.1, ih shorter tailRead]
  | case2 hi lo rest unread =>
    unfold decodePairs at read
    split at read
    · rename_i high low highRead lowRead
      exact (unread high low highRead lowRead).elim
    · cases read
  | case3 s short =>
    cases s with
    | nil =>
      obtain rfl := Option.some.inj read
      rfl
    | cons hi rest =>
      cases rest with
      | nil => cases even
      | cons lo rest => exact (short hi lo rest rfl).elim

theorem hexEncode_hexDecode {s : Bytes} {bytes : List UInt8} (read : hexDecode s = some bytes) :
    hexEncode bytes = s := by
  unfold hexDecode at read
  split at read
  · cases read
  · rename_i even
    exact hexEncode_decodePairs (not_not.mp even) read

/-! ## Sealing and checking a seal -/

def signatureSeparator : Bytes := ascii "\n[signature]\n"

def signatureBlock (signature : Bytes) : Bytes :=
  ascii "value = \"" ++ hexEncode signature ++ ascii "\"\n"

def trustDomain : Bytes := ascii "hops.trust-store.v1" ++ [0]

def floorDomain : Bytes := ascii "hops.trust-floor.v1" ++ [0]

/-- What a document is sealed as. -/
inductive Purpose where
  | store
  | floor

def Purpose.domain : Purpose → Bytes
  | .store => trustDomain
  | .floor => floorDomain

def domainSeparated (domain body : Bytes) : Bytes := domain ++ body

/-- What a machine signs with. -/
structure Authority where
  publicKey : Bytes
  sign : Bytes → Except String Bytes

/-- The library code a seal is checked with. -/
structure Checker where
  verify : Bytes → Bytes → Bytes → Bool
  readBlock : Bytes → Except String Bytes

structure AuthorityBlock where
  alg : String
  publicKey : Bytes

def Authority.block (authority : Authority) : AuthorityBlock :=
  ⟨"ecdsa-p256-sha256", hexEncode authority.publicKey⟩

inductive SealError where
  | untrusted (reason : String)
  | unsupportedAlgorithm (name : String)
  | sign (reason : String)

def sealBody (authority : Authority) (domain text : Bytes) : Except SealError Bytes :=
  let text := text.rdropWhile (· == 0x0a)
  match authority.sign (domainSeparated domain text) with
  | .error reason => .error (.sign reason)
  | .ok signature => .ok (text ++ signatureSeparator ++ signatureBlock signature)

def parseAlgorithm (name : String) : Except SealError Unit :=
  if name = "ecdsa-p256-sha256" then .ok () else .error (.unsupportedAlgorithm name)

/-- The signed body of `text`, once its signature is checked against `expect`. -/
def verifiedBody (checker : Checker) (text domain : Bytes) (expect : AuthorityBlock) :
    Except SealError Bytes :=
  match splitLast signatureSeparator text with
  | none => .error (.untrusted "it carries no signature block")
  | some (body, tail) =>
    match checker.readBlock tail with
    | .error e => .error (.untrusted ("unreadable signature block: " ++ e))
    | .ok value =>
      match hexDecode value with
      | none => .error (.untrusted "the signature is not hex")
      | some signature =>
        match parseAlgorithm expect.alg with
        | .error e => .error e
        | .ok () =>
          match hexDecode expect.publicKey with
          | none => .error (.untrusted "the authority key is not hex")
          | some publicKey =>
            if checker.verify publicKey (domainSeparated domain body) signature then
              .ok body
            else
              .error (.untrusted
                "the signature does not match its contents — the file has been edited")

/-! ## What the library code is relied on for -/

/-- The signature a text presents, where the checker finds one. -/
def Presents (checker : Checker) (text signature : Bytes) : Prop :=
  ∃ body tail value, splitLast signatureSeparator text = some (body, tail) ∧
    checker.readBlock tail = .ok value ∧ hexDecode value = some signature

/--
The signature block reads as it was written, a signature made verifies, and one
in the world that verifies is of a message this machine signed: it signs the
bodies it seals, and never one body as a store and as a floor.
-/
structure Sound (checker : Checker) (authority : Authority) (sealings : Purpose → Bytes → Prop)
    (inWorld : Bytes → Prop) : Prop where
  reads : ∀ signature, checker.readBlock (signatureBlock signature) = .ok (hexEncode signature)
  correct : ∀ message signature, authority.sign message = .ok signature →
    checker.verify authority.publicKey message signature = true
  unforgeable : ∀ message signature, inWorld signature →
    checker.verify authority.publicKey message signature = true →
    ∃ purpose body, sealings purpose body ∧ message = domainSeparated purpose.domain body
  apart : ∀ body, sealings .floor body → ¬ sealings .store body

/-! ## Splitting a sealed text -/

theorem mem_hexEncode {bytes : List UInt8} {b : UInt8} (member : b ∈ hexEncode bytes) :
    ∃ value : UInt8, value < 16 ∧ b = hexDigit value := by
  induction bytes with
  | nil => cases member
  | cons first rest ih =>
    obtain ⟨high, low, -⟩ := nibbles first
    rw [hexEncode, mem_cons, mem_cons] at member
    rcases member with rfl | rfl | later
    · exact ⟨_, high, rfl⟩
    · exact ⟨_, low, rfl⟩
    · exact ih later

theorem hexDigit_plain : ∀ value : UInt8, value < 16 →
    hexDigit value ≠ 0x5b ∧ hexDigit value ≠ 0x22 :=
  forall_byte (by decide +kernel)

theorem mem_hexEncode_plain {bytes : List UInt8} {b : UInt8} (member : b ∈ hexEncode bytes) :
    b ≠ 0x5b ∧ b ≠ 0x22 := by
  obtain ⟨value, small, rfl⟩ := mem_hexEncode member
  exact hexDigit_plain value small

theorem splitLast_sealed (body signature : Bytes) :
    splitLast signatureSeparator (body ++ signatureSeparator ++ signatureBlock signature) =
      some (body, signatureBlock signature) := by
  have separator : signatureSeparator = 0x0a :: 0x5b :: ascii "signature]\n" := by decide
  rw [separator]
  apply splitLast_append
  apply not_infix_of_second
  · decide
  · rw [mem_append, signatureBlock, mem_append, mem_append]
    rintro (inName | (inOpening | inHex) | inClosing)
    · revert inName
      decide
    · revert inOpening
      decide
    · exact (mem_hexEncode_plain inHex).1 rfl
    · revert inClosing
      decide

theorem domain_unique {purpose other : Purpose} {body also : Bytes}
    (same : domainSeparated purpose.domain body = domainSeparated other.domain also) :
    purpose = other ∧ body = also := by
  have length : ∀ purpose : Purpose, purpose.domain.length = 20 := by
    intro purpose
    cases purpose <;> decide
  obtain ⟨domains, bodies⟩ := append_inj same ((length purpose).trans (length other).symm)
  refine ⟨?_, bodies⟩
  cases purpose <;> cases other
  · rfl
  · exact absurd domains (by decide)
  · exact absurd domains (by decide)
  · rfl

/-! ## What a seal says -/

theorem parseAlgorithm_block (authority : Authority) :
    parseAlgorithm authority.block.alg = .ok () := rfl

theorem hexDecode_block (authority : Authority) :
    hexDecode authority.block.publicKey = some authority.publicKey :=
  hexDecode_hexEncode authority.publicKey

/-- Exactly when a text is accepted as this authority's. -/
theorem verifiedBody_ok {checker : Checker} {authority : Authority} {text domain body : Bytes} :
    verifiedBody checker text domain authority.block = .ok body ↔
      ∃ tail value signature, splitLast signatureSeparator text = some (body, tail) ∧
        checker.readBlock tail = .ok value ∧ hexDecode value = some signature ∧
        checker.verify authority.publicKey (domainSeparated domain body) signature = true := by
  unfold verifiedBody
  rw [parseAlgorithm_block, hexDecode_block]
  constructor
  · intro accepted
    split at accepted
    · cases accepted
    · rename_i front tail split_at
      cases read : checker.readBlock tail with
      | error e => simp [read] at accepted
      | ok value =>
        cases decoded : hexDecode value with
        | none => simp [read, decoded] at accepted
        | some signature =>
          simp only [read, decoded] at accepted
          split at accepted
          · rename_i verified
            cases accepted
            exact ⟨tail, value, signature, split_at, read, decoded, verified⟩
          · cases accepted
  · rintro ⟨tail, value, signature, split_at, read, decoded, verified⟩
    rw [split_at]
    simp only [read, decoded]
    rw [if_pos verified]

theorem sealBody_ok {authority : Authority} {domain text whole : Bytes}
    (made : sealBody authority domain text = .ok whole) :
    ∃ signature, authority.sign (domainSeparated domain (text.rdropWhile (· == 0x0a))) =
        .ok signature ∧
      whole = text.rdropWhile (· == 0x0a) ++ signatureSeparator ++ signatureBlock signature := by
  unfold sealBody at made
  dsimp only at made
  split at made
  · cases made
  · rename_i signature signed
    cases made
    exact ⟨signature, signed, rfl⟩

section Sound

variable {checker : Checker} {authority : Authority} {sealings : Purpose → Bytes → Prop}
  {inWorld : Bytes → Prop}

section

variable (sound : Sound checker authority sealings inWorld)
include sound

theorem Sound.verifiedBody_seal {domain text whole : Bytes}
    (made : sealBody authority domain text = .ok whole) :
    verifiedBody checker whole domain authority.block = .ok (text.rdropWhile (· == 0x0a)) := by
  obtain ⟨signature, signed, rfl⟩ := sealBody_ok made
  exact verifiedBody_ok.mpr ⟨_, _, signature, splitLast_sealed _ signature, sound.reads signature,
    hexDecode_hexEncode signature, sound.correct _ signature signed⟩

theorem Sound.sealed_of_verified {purpose : Purpose} {text body : Bytes}
    (world : ∀ signature, Presents checker text signature → inWorld signature)
    (accepted : verifiedBody checker text purpose.domain authority.block = .ok body) :
    sealings purpose body ∧ ∃ tail signature,
      text = body ++ signatureSeparator ++ tail ∧
      checker.readBlock tail = .ok (hexEncode signature) ∧
      checker.verify authority.publicKey (domainSeparated purpose.domain body) signature =
        true := by
  obtain ⟨tail, value, signature, split_at, read, decoded, verified⟩ :=
    verifiedBody_ok.mp accepted
  have presented : Presents checker text signature :=
    ⟨body, tail, value, split_at, read, decoded⟩
  obtain ⟨other, also, made, same⟩ := sound.unforgeable _ signature (world signature presented)
    verified
  obtain ⟨rfl, rfl⟩ := domain_unique same
  refine ⟨made, tail, signature, splitLast_some split_at, ?_, verified⟩
  rw [hexEncode_hexDecode decoded, read]

theorem Sound.floor_refused {text whole : Bytes}
    (made : sealBody authority floorDomain text = .ok whole)
    (logged : sealings .floor (text.rdropWhile (· == 0x0a)))
    (world : ∀ signature, Presents checker whole signature → inWorld signature) :
    ∃ e, verifiedBody checker whole trustDomain authority.block = .error e := by
  cases outcome : verifiedBody checker whole trustDomain authority.block with
  | error e => exact ⟨e, rfl⟩
  | ok body =>
    have accepted : verifiedBody checker whole Purpose.store.domain authority.block =
        .ok body := outcome
    obtain ⟨tail, -, -, split_at, -⟩ := verifiedBody_ok.mp accepted
    obtain ⟨signature, -, rfl⟩ := sealBody_ok made
    rw [splitLast_sealed] at split_at
    obtain ⟨rfl, -⟩ := Prod.mk.inj (Option.some.inj split_at)
    exact absurd (sound.sealed_of_verified world accepted).1 (sound.apart _ logged)

end

/--
A seal gives back its body, whatever the body holds; what is accepted for a
purpose stands around a body this machine sealed for that purpose, and a floor's
seal is refused as a store's; hex reads back as what it was written from, and
nothing else is hex.
-/
theorem seal_format (sound : Sound checker authority sealings inWorld) :
    (∀ domain text whole, sealBody authority domain text = .ok whole →
      verifiedBody checker whole domain authority.block = .ok (text.rdropWhile (· == 0x0a))) ∧
    (∀ purpose text body, (∀ signature, Presents checker text signature → inWorld signature) →
      verifiedBody checker text (Purpose.domain purpose) authority.block = .ok body →
      sealings purpose body ∧ ∃ tail signature, text = body ++ signatureSeparator ++ tail ∧
        checker.readBlock tail = .ok (hexEncode signature) ∧
        checker.verify authority.publicKey (domainSeparated purpose.domain body) signature = true) ∧
    (∀ text whole, sealBody authority floorDomain text = .ok whole →
      sealings .floor (text.rdropWhile (· == 0x0a)) →
      (∀ signature, Presents checker whole signature → inWorld signature) →
      ∃ e, verifiedBody checker whole trustDomain authority.block = .error e) ∧
    (∀ bytes, hexDecode (hexEncode bytes) = some bytes) ∧
    ∀ s bytes, hexDecode s = some bytes → hexEncode bytes = s :=
  ⟨fun _ _ _ => sound.verifiedBody_seal, fun _ _ _ => sound.sealed_of_verified,
    fun _ _ => sound.floor_refused, hexDecode_hexEncode, fun _ _ => hexEncode_hexDecode⟩

end Sound

/-! ## A checker to run on -/

def readValueLine (tail : Bytes) : Except String Bytes :=
  if ascii "value = \"" <+: tail then
    let rest := tail.drop 9
    let value := rest.takeWhile (· != 0x22)
    match rest.drop value.length with
    | [0x22, 0x0a] => .ok value
    | 0x22 :: 0x0a :: 0x23 :: comment =>
      if 0x0a ∈ comment then .error "expected a comment" else .ok value
    | _ => .error "expected a value"
  else .error "expected a value"

/-- An authority whose signature is the message, and the checker that knows it. -/
def echoAuthority : Authority := ⟨[1], .ok⟩

def echoChecker : Checker := ⟨fun _ message signature => message == signature, readValueLine⟩

theorem readValueLine_block (signature : Bytes) :
    readValueLine (signatureBlock signature) = .ok (hexEncode signature) := by
  have opening : (ascii "value = \"").length = 9 := by decide
  have closing : ascii "\"\n" = [0x22, 0x0a] := by decide
  have digits : ∀ b ∈ hexEncode signature, (b != 0x22) = true := by
    intro b member
    exact bne_iff_ne.mpr (mem_hexEncode_plain member).2
  have rest : (signatureBlock signature).drop 9 = hexEncode signature ++ [0x22, 0x0a] := by
    rw [signatureBlock, append_assoc, ← opening, drop_left, closing]
  have value : (hexEncode signature ++ [0x22, 0x0a]).takeWhile (· != 0x22) =
      hexEncode signature := by
    rw [takeWhile_append_of_pos digits]
    simp
  unfold readValueLine
  rw [if_pos (by rw [signatureBlock, append_assoc]; exact prefix_append _ _)]
  dsimp only
  rw [rest, value, drop_left]
  rfl

/-- One store body was sealed, and its signature is the only one in the world. -/
theorem sound_echo : Sound echoChecker echoAuthority
    (fun purpose body => purpose = .store ∧ body = ascii "a")
    (fun signature => signature = domainSeparated trustDomain (ascii "a")) where
  reads := readValueLine_block
  correct message signature signed := by
    cases signed
    exact beq_self_eq_true message
  unforgeable message signature known verified :=
    ⟨.store, ascii "a", ⟨rfl, rfl⟩, (eq_of_beq verified).trans known⟩
  apart body sealed := nomatch sealed.1

/-- A body that holds the separator and looks like a seal comes back whole. -/
theorem seal_format_nested :
    let text := ascii "a\n[signature]\nvalue = \"00\"\n[signature]\nb\n"
    ∃ whole, sealBody echoAuthority trustDomain text = .ok whole ∧
      verifiedBody echoChecker whole trustDomain echoAuthority.block =
        .ok (ascii "a\n[signature]\nvalue = \"00\"\n[signature]\nb") := by
  intro text
  refine ⟨_, rfl, ?_⟩
  rw [(seal_format sound_echo).1 trustDomain text _ rfl]
  rfl

/-- A comment behind the signature block is read over: the text is no sealed text, and accepted. -/
theorem comment_accepted :
    let text := ascii "a" ++ signatureSeparator ++
      signatureBlock (domainSeparated trustDomain (ascii "a")) ++ [0x23]
    (∀ signature, Presents echoChecker text signature →
        signature = domainSeparated trustDomain (ascii "a")) ∧
      verifiedBody echoChecker text trustDomain echoAuthority.block = .ok (ascii "a") ∧
      ∀ body whole, sealBody echoAuthority trustDomain body = .ok whole → whole ≠ text := by
  intro text
  have split_at : splitLast signatureSeparator text = some (ascii "a",
      signatureBlock (domainSeparated trustDomain (ascii "a")) ++ [0x23]) := by decide
  have read : readValueLine
      (signatureBlock (domainSeparated trustDomain (ascii "a")) ++ [0x23]) =
      .ok (hexEncode (domainSeparated trustDomain (ascii "a"))) := by decide
  refine ⟨?_, ?_, ?_⟩
  · rintro signature ⟨body, tail, value, found, valued, decoded⟩
    obtain ⟨rfl, rfl⟩ := Prod.mk.inj (Option.some.inj (split_at.symm.trans found))
    obtain rfl := Except.ok.inj (read.symm.trans valued)
    rw [hexDecode_hexEncode] at decoded
    exact (Option.some.inj decoded).symm
  · exact verifiedBody_ok.mpr ⟨_, _, _, split_at, read, hexDecode_hexEncode _, beq_self_eq_true _⟩
  · rintro body whole made same
    obtain ⟨signature, -, rfl⟩ := sealBody_ok made
    have ends := congrArg List.getLast? same
    rw [getLast?_append, signatureBlock, getLast?_append,
      show (ascii "\"\n").getLast? = some 0x0a from by decide] at ends
    simp [text] at ends

end HopsFormal.Trust.Seal
