import Mathlib.Data.List.DropRight
import Mathlib.Data.Char

/-!
# How a machine is named

A fingerprint arrives in any spelling and is brought to one canonical form at
every door, a label is cleaned once where it enters.  Lowercasing is the one
library function taken as a parameter: only its action on ASCII text is ever
relied on.
-/

namespace HopsFormal.Trust

open List

/-- `str::to_lowercase`, known to send ASCII text to its ASCII lowercase. -/
class Lowercase where
  toLowercase : String → String
  ascii : ∀ s : String, (∀ c ∈ s.toList, c.toNat < 128) →
    toLowercase s = String.ofList (s.toList.map Char.toLower)

/-- Lowercasing that leaves everything outside ASCII alone. -/
@[reducible]
def asciiLowercase : Lowercase where
  toLowercase s := String.ofList (s.toList.map Char.toLower)
  ascii _ _ := rfl

/-- The characters with the property White_Space, which `str::trim` takes off. -/
def isWhitespace (c : Char) : Bool :=
  let n := c.toNat
  (0x09 ≤ n && n ≤ 0x0d) || n == 0x20 || n == 0x85 || n == 0xa0 || n == 0x1680 ||
    (0x2000 ≤ n && n ≤ 0x200a) || n == 0x2028 || n == 0x2029 || n == 0x202f ||
    n == 0x205f || n == 0x3000

def trim (s : String) : String :=
  String.ofList ((s.toList.dropWhile isWhitespace).rdropWhile isWhitespace)

/-! ## Fingerprints -/

def maxLabelLen : Nat := 64

/-- A leaf certificate's SHA-256 fingerprint is 32 lowercase hex bytes. -/
def fingerprintGroups : Nat := 32

def isHexDigit (c : Char) : Bool :=
  ('0' ≤ c && c ≤ '9') || ('a' ≤ c && c ≤ 'f')

def validFingerprint (fp : String) : Bool :=
  let groups := fp.toList.splitOn ':'
  groups.all (fun g => g.length == 2 && g.all isHexDigit) && groups.length == fingerprintGroups

section Canonical

variable [Lowercase]

def canonicalFingerprint (fp : String) : Option String :=
  let lowered := Lowercase.toLowercase (trim fp)
  if validFingerprint lowered then some lowered else none

/--
The one spelling of an identity.  What is not a fingerprint becomes trimmed
lowercase, which no lease is ever kept under.
-/
def key (fingerprint : String) : String :=
  (canonicalFingerprint fingerprint).getD (Lowercase.toLowercase (trim fingerprint))

end Canonical

/-- A character a fingerprint may hold. -/
def inFingerprint (c : Char) : Bool := isHexDigit c || c == ':'

variable {c : Char}

theorem mem_splitOn {chars : List Char} (member : c ∈ chars) (other : c ≠ ':') :
    ∃ group ∈ chars.splitOn ':', c ∈ group := by
  induction chars with
  | nil => simp at member
  | cons first rest ih =>
    rw [splitOn_cons_eq_if_modifyHead]
    cases groups : rest.splitOn ':' with
    | nil => exact absurd groups (splitOn_ne_nil ':' rest)
    | cons head tail =>
      rcases mem_cons.mp member with rfl | later
      · simp [other]
      · obtain ⟨group, inside, found⟩ := ih later
        rw [groups] at inside
        split
        · exact ⟨group, mem_cons_of_mem _ inside, found⟩
        · rcases mem_cons.mp inside with rfl | inTail
          · exact ⟨first :: group, by simp, mem_cons_of_mem _ found⟩
          · exact ⟨group, by simp [inTail], found⟩

theorem validFingerprint_chars {fp : String} (valid : validFingerprint fp = true) :
    ∀ c ∈ fp.toList, inFingerprint c = true := by
  intro c member
  by_cases colon : c = ':'
  · simp [inFingerprint, colon]
  · obtain ⟨group, inside, found⟩ := mem_splitOn member colon
    simp only [validFingerprint, Bool.and_eq_true, List.all_eq_true] at valid
    simp [inFingerprint, (valid.1 group inside).2 c found]

section

variable (allowed : inFingerprint c = true)
include allowed

theorem inFingerprint_range : (48 ≤ c.toNat ∧ c.toNat ≤ 58) ∨ (97 ≤ c.toNat ∧ c.toNat ≤ 102) := by
  simp only [inFingerprint, isHexDigit, Bool.or_eq_true, Bool.and_eq_true, decide_eq_true_eq,
    beq_iff_eq] at allowed
  rcases allowed with (⟨low, high⟩ | ⟨low, high⟩) | rfl
  · exact .inl ⟨low, le_trans high (by decide)⟩
  · exact .inr ⟨low, high⟩
  · exact .inl (by decide)

theorem inFingerprint_not_whitespace : isWhitespace c = false := by
  have range := inFingerprint_range allowed
  simp only [isWhitespace, Bool.or_eq_false_iff, Bool.and_eq_false_iff, decide_eq_false_iff_not,
    beq_eq_false_iff_ne]
  omega

theorem inFingerprint_toLower : c.toLower = c := by
  have range := inFingerprint_range allowed
  unfold Char.toLower
  rw [dif_neg]
  rintro ⟨low, high⟩
  have lower : 65 ≤ c.toNat := low
  have upper : c.toNat ≤ 90 := high
  omega

end

theorem trim_of_plain {text : String} (plain : ∀ c ∈ text.toList, isWhitespace c = false) :
    trim text = text := by
  have front : text.toList.dropWhile isWhitespace = text.toList := by
    cases chars : text.toList with
    | nil => rfl
    | cons first rest => simp [plain first (by simp [chars])]
  have back : text.toList.rdropWhile isWhitespace = text.toList := by
    rw [rdropWhile_eq_self_iff]
    intro nonempty
    simp [plain _ (getLast_mem nonempty)]
  rw [trim, front, back, String.ofList_toList]

theorem trim_of_valid {fp : String} (valid : validFingerprint fp = true) : trim fp = fp :=
  trim_of_plain fun c member =>
    inFingerprint_not_whitespace (validFingerprint_chars valid c member)

section Canonical

variable [Lowercase] {fp : String}

theorem toLowercase_of_valid (valid : validFingerprint fp = true) :
    Lowercase.toLowercase fp = fp := by
  have chars := validFingerprint_chars valid
  rw [Lowercase.ascii]
  · rw [map_congr_left fun c member => inFingerprint_toLower (chars c member)]
    simp
  · intro c member
    have range := inFingerprint_range (chars c member)
    omega

theorem canonical_valid {canonical : String}
    (found : canonicalFingerprint fp = some canonical) : validFingerprint canonical = true := by
  simp only [canonicalFingerprint, Option.ite_none_right_eq_some, Option.some.injEq] at found
  exact found.2 ▸ found.1

@[simp]
theorem canonicalized_of_valid (valid : validFingerprint fp = true) :
    canonicalFingerprint fp = some fp := by
  simp [canonicalFingerprint, trim_of_valid valid, toLowercase_of_valid valid, valid]

theorem key_of_canonical {canonical : String} (found : canonicalFingerprint fp = some canonical) :
    key fp = canonical := by
  simp [key, found]

theorem key_of_valid (valid : validFingerprint fp = true) : key fp = fp :=
  key_of_canonical (canonicalized_of_valid valid)

end Canonical

/-! ## Labels -/

/-- The characters a label may keep: no control, zero-width or bidi ones. -/
def inLabel (c : Char) : Bool :=
  let n := c.toNat
  !(n ≤ 0x1f || (0x7f ≤ n && n ≤ 0x9f)) &&
    !((0x200b ≤ n && n ≤ 0x200f) || (0x202a ≤ n && n ≤ 0x202e) ||
      (0x2066 ≤ n && n ≤ 0x2069) || n == 0xfeff)

def sanitizeLabel (s : String) : String :=
  String.ofList ((s.toList.filter inLabel).take maxLabelLen)

/-- A label that was cleaned once is not changed again. -/
@[simp]
theorem sanitizeLabel_idem (s : String) : sanitizeLabel (sanitizeLabel s) = sanitizeLabel s := by
  have kept : ((s.toList.filter inLabel).take maxLabelLen).filter inLabel =
      (s.toList.filter inLabel).take maxLabelLen := by
    rw [filter_eq_self]
    intro c member
    exact (mem_filter.mp (mem_of_mem_take member)).2
  simp only [sanitizeLabel, String.toList_ofList, kept, take_take, Nat.min_self]

end HopsFormal.Trust
