import HopsFormal.Lib.Sha256
import Mathlib.Data.String.Basic

/-!
# The six digits both machines show

Each machine works the number out from what it sees: the keying material of the
connection, both fingerprints and a nonce of each.  The two ends name the
fingerprints in opposite orders, so both sort them first.
-/

namespace HopsFormal.Pairing

open List

abbrev Bytes := List UInt8

/-- The SHA-256 digest, which the machines take from elsewhere. -/
class Sha256 where
  digest : Bytes → Bytes

/-- The digest of the standard. -/
@[reducible]
def standardSha256 : Sha256 := ⟨Lib.Sha256.digest⟩

namespace MatchCode

def utf8 (text : String) : Bytes := text.toUTF8.toList

def commitDomain : Bytes := utf8 "hops-match-commit-v1"

def codeDomain : Bytes := utf8 "hops-match-v1"

/-- The two fingerprints in a fixed order. -/
def ordered (a b : String) : String × String := if a ≤ b then (a, b) else (b, a)

/-- The session and the two identities, in the order both ends agree on. -/
def absorbContext (exporter : Bytes) (a b : String) : Bytes :=
  let (lo, hi) := ordered a b
  exporter ++ utf8 lo ++ [0] ++ utf8 hi ++ [0]

def sixDigits (n : Nat) : String :=
  let digits := Nat.toDigits 10 n
  String.ofList (List.replicate (6 - digits.length) '0' ++ digits)

def fromBigEndian (bytes : Bytes) : Nat := bytes.foldl (fun n byte => n * 256 + byte.toNat) 0

section Sha256

variable [Sha256]

/-- The responder's commitment to its own nonce. -/
def commitment (exporter : Bytes) (a b : String) (nonceR : Bytes) : Bytes :=
  Sha256.digest (commitDomain ++ absorbContext exporter a b ++ nonceR)

/-- The number shown on both screens. -/
def code (exporter : Bytes) (a b : String) (nonceI nonceR : Bytes) : String :=
  let d := Sha256.digest (codeDomain ++ absorbContext exporter a b ++ nonceI ++ nonceR)
  sixDigits (fromBigEndian (d.take 8) % 1000000)

/-- A revealed nonce opens the commitment received first. -/
def opens (received exporter : Bytes) (a b : String) (nonceR : Bytes) : Bool :=
  let expected := commitment exporter a b nonceR
  received.length == expected.length &&
    (List.zipWith (· ^^^ ·) received expected).foldl (· ||| ·) 0 == 0

end Sha256

variable (exporter : Bytes) (a b : String)

theorem ordered_comm : ordered a b = ordered b a := by
  unfold ordered
  rcases lt_trichotomy a b with less | same | greater
  · rw [if_pos (le_of_lt less), if_neg (not_le.mpr less)]
  · rw [same]
  · rw [if_neg (not_le.mpr greater), if_pos (le_of_lt greater)]

theorem absorbContext_comm : absorbContext exporter a b = absorbContext exporter b a := by
  rw [absorbContext, absorbContext, ordered_comm]

/-- Both ends work out the same number from the same nonces. -/
theorem code_comm [Sha256] (nonceI nonceR : Bytes) :
    code exporter a b nonceI nonceR = code exporter b a nonceI nonceR := by
  rw [code, code, absorbContext_comm]

theorem opens_commitment [Sha256] (nonceR : Bytes) :
    opens (commitment exporter a b nonceR) exporter b a nonceR = true := by
  have same : commitment exporter b a nonceR = commitment exporter a b nonceR := by
    rw [commitment, commitment, absorbContext_comm]
  have zero : ∀ bytes : Bytes, (List.zipWith (· ^^^ ·) bytes bytes).foldl (· ||| ·) 0 = 0 := by
    intro bytes
    induction bytes with
    | nil => rfl
    | cons byte rest ih => simpa using ih
  simp only [opens, same, zero, BEq.rfl, Bool.and_self]

theorem sixDigits_spec {n : Nat} (small : n < 1000000) :
    (sixDigits n).toList.length = 6 ∧ ∀ c ∈ (sixDigits n).toList, c.isDigit = true := by
  have short : (Nat.toDigits 10 n).length ≤ 6 :=
    (Nat.length_toDigits_le_iff (by decide) (by decide)).mpr small
  constructor
  · simp only [sixDigits, String.toList_ofList, length_append, length_replicate]
    omega
  · intro c member
    simp only [sixDigits, String.toList_ofList, mem_append, mem_replicate] at member
    rcases member with ⟨_, rfl⟩ | member
    · rfl
    · exact Nat.isDigit_of_mem_toDigits (by decide) (by decide) member

theorem code_sixDigits [Sha256] (nonceI nonceR : Bytes) :
    (code exporter a b nonceI nonceR).toList.length = 6 ∧
      ∀ c ∈ (code exporter a b nonceI nonceR).toList, c.isDigit = true :=
  sixDigits_spec (Nat.mod_lt _ (by decide))

end MatchCode

end HopsFormal.Pairing
