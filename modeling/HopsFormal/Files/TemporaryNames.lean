import HopsFormal.Lib.LastSplit
import Mathlib

/-!
# The names of temporary files

A file that is created is written under a name that holds the id of the process and a counter, both
in decimal; a name is taken for one of these only if both numbers stand in it as they are written.
One that is saved is written under one name for all processes.
-/

namespace HopsFormal.Files

open List
open Lib (splitLast splitLast_append)

abbrev Text := List Char

def decimal (n : Nat) : Text :=
  Nat.toDigits 10 n

/-- The part of a name that a process picks. -/
def unique (pid n : Nat) : Text :=
  decimal pid ++ '.' :: decimal n

variable (name : Text)

/-- A name beside that of a file. -/
def sibling (suffix : Text) : Text :=
  '.' :: name ++ '.' :: suffix

def temporaryName (pid n : Nat) : Text :=
  sibling name (unique pid n ++ ".tmp".toList)

/-- A file name without its extension; a name that begins with its only dot has none. -/
def fileStem : Text :=
  match splitLast ['.'] name with
  | some (before, _) => if before = [] then name else before
  | none => name

def saveName : Text :=
  fileStem name ++ ".toml.tmp".toList

/-- Decimal digits with no leading zero. -/
def asWritten (s : Text) : Bool :=
  s ≠ [] && s.all Char.isDigit && (s = ['0'] || s.head? ≠ some '0')

/-- The number written in decimal digits, if it is below a bound. -/
def parse (bound : Nat) (s : Text) : Option Nat :=
  let n := Nat.ofDigitChars 10 s 0
  if n < bound then some n else none

/-- What is before and after the first of a character. -/
def splitOnce (c : Char) (s : Text) : Option (Text × Text) :=
  if c ∈ s then some (s.takeWhile (· ≠ c), (s.dropWhile (· ≠ c)).tail) else none

/-- The process id in a file name, if that is a temporary's. -/
def temporaryWriter (fileName start : Text) : Option Nat :=
  (fileName.dropPrefix? start).bind fun rest =>
    (rest.dropSuffix? ".tmp".toList).bind fun middle =>
      (splitOnce '.' middle).bind fun (pid, n) =>
        if !asWritten pid || !asWritten n || (parse (2 ^ 64) n).isNone then none
        else parse (2 ^ 32) pid

/-! ## Numbers in decimal -/

variable {n : Nat} {c : Char} {s : Text}

theorem isDigit_decimal (there : c ∈ decimal n) : c.isDigit = true :=
  Nat.isDigit_of_mem_toDigits (by decide) (by decide) there

theorem parse_decimal {bound : Nat} : parse bound (decimal n) =
    if n < bound then some n else none := by
  unfold parse decimal
  rw [Nat.ofDigitChars_ten_toDigits]

theorem digitChar_of_isDigit (digit : c.isDigit = true) : ∃ d, d < 10 ∧ d.digitChar = c := by
  have range : 48 ≤ c.toNat ∧ c.toNat ≤ 57 := by
    simpa [Char.isDigit, Char.le_def, UInt32.le_iff_toNat_le] using digit
  have digits : ∀ d, d < 10 → d.digitChar.toNat = d + 48 := by decide
  refine ⟨c.toNat - 48, by omega, Char.toNat_inj.mp ?_⟩
  rw [digits _ (by omega)]
  omega

theorem decimal_of_lt (small : n < 10) : decimal n = [n.digitChar] :=
  Nat.toDigits_of_lt_base small

theorem decimal_of_le (large : 10 ≤ n) : decimal n = decimal (n / 10) ++ [(n % 10).digitChar] :=
  Nat.toDigits_of_base_le (by decide) large

theorem decimal_ne_nil (n : Nat) : decimal n ≠ [] :=
  Nat.toDigits_ne_nil

theorem head_decimal (positive : 0 < n) : (decimal n).head? ≠ some '0' := by
  induction n using Nat.strongRecOn with
  | ind n ih =>
    rcases Nat.lt_or_ge n 10 with small | large
    · have nonzero : ∀ d, d < 10 → 0 < d → d.digitChar ≠ '0' := by decide
      rw [decimal_of_lt small, head?_cons]
      exact fun same => nonzero n small positive (Option.some.inj same)
    · rw [decimal_of_le large, head?_append_of_ne_nil _ (decimal_ne_nil _)]
      exact ih (n / 10) (by omega) (by omega)

theorem asWritten_decimal (n : Nat) : asWritten (decimal n) = true := by
  have digits : (decimal n).all Char.isDigit = true :=
    all_eq_true.mpr fun _ => isDigit_decimal
  rcases Nat.eq_zero_or_pos n with rfl | positive
  · decide
  · simp [asWritten, digits, decimal_ne_nil, head_decimal positive]

/-- Digits that do not begin with a zero, one added after the other. -/
theorem exists_decimal_pos (some_ : s ≠ []) (digits : s.all Char.isDigit = true)
    (plain : s.head? ≠ some '0') : ∃ n, 0 < n ∧ s = decimal n := by
  induction s using reverseRecOn with
  | nil => exact absurd rfl some_
  | append_singleton front last ih =>
    rw [all_append, Bool.and_eq_true] at digits
    obtain ⟨d, small, rfl⟩ := digitChar_of_isDigit (all_eq_true.mp digits.2 last (.head _))
    by_cases alone : front = []
    · subst alone
      refine ⟨d, Nat.pos_of_ne_zero fun zero => ?_, (decimal_of_lt small).symm⟩
      subst zero
      exact plain rfl
    · rw [head?_append_of_ne_nil _ alone] at plain
      obtain ⟨n, positive, rfl⟩ := ih alone digits.1 plain
      refine ⟨10 * n + d, by omega, ?_⟩
      have front : (10 * n + d) / 10 = n := by omega
      have last : (10 * n + d) % 10 = d := by omega
      have whole := decimal_of_le (show 10 ≤ 10 * n + d by omega)
      rw [front, last] at whole
      exact whole.symm

theorem exists_decimal (written : asWritten s = true) : ∃ n, s = decimal n := by
  simp only [asWritten, Bool.and_eq_true, Bool.or_eq_true, decide_eq_true_eq] at written
  obtain ⟨⟨some, digits⟩, rfl | plain⟩ := written
  · exact ⟨0, rfl⟩
  · obtain ⟨n, -, same⟩ := exists_decimal_pos some digits plain
    exact ⟨n, same⟩

/-! ## The writer of a temporary -/

theorem splitOnce_eq_some {before after : Text} :
    splitOnce c s = some (before, after) ↔ s = before ++ c :: after ∧ c ∉ before := by
  have none_in (text : Text) : c ∉ text.takeWhile (· ≠ c) := fun there => by
    simpa using mem_takeWhile_imp there
  unfold splitOnce
  constructor
  · intro split
    split at split
    · next there =>
      cases split
      obtain ⟨front, back, rfl, free⟩ := eq_append_cons_of_mem there
      have plain : ∀ each ∈ front, decide (each ≠ c) = true := fun each member =>
        decide_eq_true fun same => free (same ▸ member)
      rw [takeWhile_append_of_pos plain, dropWhile_append_of_pos plain]
      simp [free]
    · cases split
  · rintro ⟨rfl, free⟩
    have plain : ∀ each ∈ before, decide (each ≠ c) = true := fun each member =>
      decide_eq_true fun same => free (same ▸ member)
    rw [if_pos (by simp), takeWhile_append_of_pos plain, dropWhile_append_of_pos plain]
    simp

theorem dot_notMem_decimal (n : Nat) : '.' ∉ decimal n := fun there => by
  cases isDigit_decimal there

theorem temporaryWriter_eq_some {fileName name : Text} {pid : Nat} :
    temporaryWriter fileName ('.' :: name ++ ['.']) = some pid ↔
      pid < 2 ^ 32 ∧ ∃ n, n < 2 ^ 64 ∧ fileName = temporaryName name pid n := by
  unfold temporaryWriter
  simp only [Option.bind_eq_some_iff, dropPrefix?_eq_some_iff, dropSuffix?_eq_some_iff,
    beq_iff_eq]
  constructor
  · rintro ⟨rest, ⟨start, rfl, rfl⟩, middle, ⟨ending, rfl, rfl⟩, ⟨p, n⟩, split, whose⟩
    obtain ⟨rfl, -⟩ := splitOnce_eq_some.mp split
    split at whose
    · cases whose
    · next valid =>
      simp only [Bool.or_eq_true, Bool.not_eq_true', not_or, Bool.not_eq_false,
        Bool.not_eq_true, Option.isNone_eq_false_iff] at valid
      obtain ⟨⟨written, counted⟩, countable⟩ := valid
      obtain ⟨m, counter⟩ := Option.isSome_iff_exists.mp countable
      obtain ⟨p, rfl⟩ := exists_decimal written
      obtain ⟨n, rfl⟩ := exists_decimal counted
      rw [parse_decimal] at whose counter
      split at whose
      · next fits =>
        cases whose
        split at counter
        · next counts => exact ⟨fits, n, counts, by simp [temporaryName, sibling, unique]⟩
        · cases counter
      · cases whose
  · rintro ⟨fits, n, counts, rfl⟩
    refine ⟨unique pid n ++ ".tmp".toList, ⟨_, ?_, rfl⟩, unique pid n, ⟨_, rfl, rfl⟩,
      (decimal pid, decimal n), splitOnce_eq_some.mpr ⟨rfl, dot_notMem_decimal pid⟩, ?_⟩
    · simp [temporaryName, sibling]
    · simp only [asWritten_decimal, parse_decimal, if_pos fits, if_pos counts, Bool.not_true,
        Option.isNone_some, Bool.or_self, Bool.false_eq_true, if_false]

/-! ## Names apart from each other -/

theorem decimal_injective : Function.Injective decimal := fun m n same => by
  have parsed := congrArg (Nat.ofDigitChars 10 · 0) same
  simpa only [decimal, Nat.ofDigitChars_ten_toDigits] using parsed

theorem temporaryName_eq (pid n : Nat) : temporaryName name pid n =
    '.' :: name ++ '.' :: decimal pid ++ '.' :: decimal n ++ ".tmp".toList := by
  simp [temporaryName, sibling, unique]

theorem temporaryName_inj {name : Text} {pid pid' n' : Nat} :
    temporaryName name pid n = temporaryName name pid' n' ↔ pid = pid' ∧ n = n' := by
  constructor
  · intro same
    simp only [temporaryName, sibling, cons_append, append_cancel_left_eq,
      List.cons.injEq, append_cancel_right_eq, true_and] at same
    have split := splitOnce_eq_some.mpr
      ⟨(rfl : unique pid n = decimal pid ++ '.' :: decimal n), dot_notMem_decimal pid⟩
    rw [same, splitOnce_eq_some.mpr
      ⟨(rfl : unique pid' n' = decimal pid' ++ '.' :: decimal n'), dot_notMem_decimal pid'⟩] at split
    obtain ⟨before, after⟩ := Prod.ext_iff.mp (Option.some.inj split)
    exact ⟨decimal_injective before.symm, decimal_injective after.symm⟩
  · rintro ⟨rfl, rfl⟩
    rfl

theorem temporaryName_ne (pid n : Nat) : temporaryName name pid n ≠ name :=
  fun same => by
    have lengths := congrArg List.length same
    simp only [temporaryName_eq, length_append, length_cons] at lengths
    omega

theorem saveName_ne : saveName name ≠ name := fun same => by
  have split : splitLast ['.'] name = some (fileStem name ++ ".toml".toList, "tmp".toList) := by
    have found := @splitLast_append _ _ '.' [] (fileStem name ++ ".toml".toList) "tmp".toList
      (by decide)
    rwa [show fileStem name ++ ".toml".toList ++ ['.'] ++ "tmp".toList = name by
      simpa [saveName] using same] at found
  have stem : fileStem name = fileStem name ++ ".toml".toList := by
    conv_lhs => unfold fileStem
    rw [split]
    exact if_neg (by simp)
  have lengths := congrArg List.length stem
  simp at lengths

/-- A counter does not end in a letter. -/
theorem saveName_ne_temporaryName (pid n : Nat) :
    saveName name ≠ temporaryName name pid n := fun same => by
  obtain ⟨front, last, digits⟩ := (eq_nil_or_concat (decimal n)).resolve_left (decimal_ne_nil n)
  have digit : last.isDigit = true := isDigit_decimal (n := n) (by simp [digits])
  have whole : (fileStem name ++ ".tom".toList ++ ['l']) ++ ".tmp".toList =
      ('.' :: name ++ '.' :: decimal pid ++ '.' :: front ++ [last]) ++ ".tmp".toList := by
    simpa [saveName, temporaryName_eq, digits] using same
  have letter : ['l'] = [last] := append_inj_right' (append_cancel_right whole) rfl
  cases letter
  cases digit

end HopsFormal.Files
