import Mathlib.Data.List.Basic
import Mathlib.Tactic.Ring

/-!
# Numbers as bytes, the most significant first

A number of a fixed width and its bytes are the same information: each is read
back from the other.
-/

namespace HopsFormal.Lib

/-- The low `width` bytes of a number, most significant first. -/
@[grind =]
def beBytes : Nat → Nat → List UInt8
  | 0, _ => []
  | width + 1, n => UInt8.ofNat (n / 256 ^ width) :: beBytes width n

/-- The number some bytes stand for. -/
def ofBeBytes : List UInt8 → Nat
  | [] => 0
  | byte :: rest => byte.toNat * 256 ^ rest.length + ofBeBytes rest

@[simp]
theorem length_beBytes (width n : Nat) : (beBytes width n).length = width := by
  induction width with
  | zero => rfl
  | succ width ih => simp [beBytes, ih]

theorem ofBeBytes_lt (bytes : List UInt8) : ofBeBytes bytes < 256 ^ bytes.length := by
  induction bytes with
  | nil => exact Nat.one_pos
  | cons byte rest ih =>
    have small : byte.toNat ≤ 255 := Nat.le_of_lt_succ byte.toNat_lt
    calc ofBeBytes (byte :: rest)
        < byte.toNat * 256 ^ rest.length + 256 ^ rest.length := Nat.add_lt_add_left ih _
      _ ≤ 255 * 256 ^ rest.length + 256 ^ rest.length :=
          Nat.add_le_add_right (Nat.mul_le_mul_right _ small) _
      _ = 256 ^ (byte :: rest).length := by
          rw [List.length_cons, Nat.pow_succ]
          ring

theorem ofBeBytes_beBytes (width n : Nat) : ofBeBytes (beBytes width n) = n % 256 ^ width := by
  induction width with
  | zero => simp [beBytes, ofBeBytes, Nat.mod_one]
  | succ width ih =>
    have byte : (UInt8.ofNat (n / 256 ^ width)).toNat = n / 256 ^ width % 256 := by
      simp
    rw [beBytes, ofBeBytes, length_beBytes, ih, byte, Nat.pow_succ, Nat.mod_mul, Nat.add_comm,
      Nat.mul_comm]

theorem ofBeBytes_of_lt {width n : Nat} (fits : n < 256 ^ width) :
    ofBeBytes (beBytes width n) = n := by
  rw [ofBeBytes_beBytes, Nat.mod_eq_of_lt fits]

theorem beBytes_add_mul (width high n : Nat) :
    beBytes width (high * 256 ^ width + n) = beBytes width n := by
  induction width generalizing high with
  | zero => rfl
  | succ width ih =>
    have positive : 0 < 256 ^ width := Nat.pow_pos (by decide)
    have split : high * 256 ^ (width + 1) + n = (high * 256) * 256 ^ width + n := by
      rw [Nat.pow_succ]
      ring
    have byte : UInt8.ofNat ((high * 256 * 256 ^ width + n) / 256 ^ width) =
        UInt8.ofNat (n / 256 ^ width) := by
      rw [Nat.add_comm, Nat.add_mul_div_right _ _ positive]
      apply UInt8.toNat.inj
      simp
    rw [split, beBytes, beBytes, byte, ih]

theorem beBytes_ofBeBytes (bytes : List UInt8) :
    beBytes bytes.length (ofBeBytes bytes) = bytes := by
  induction bytes with
  | nil => rfl
  | cons byte rest ih =>
    have positive : 0 < 256 ^ rest.length := Nat.pow_pos (by decide)
    have top : (byte.toNat * 256 ^ rest.length + ofBeBytes rest) / 256 ^ rest.length =
        byte.toNat := by
      rw [Nat.add_comm, Nat.add_mul_div_right _ _ positive,
        Nat.div_eq_of_lt (ofBeBytes_lt rest), Nat.zero_add]
    rw [List.length_cons, beBytes, ofBeBytes, top, beBytes_add_mul, ih]
    simp

end HopsFormal.Lib
