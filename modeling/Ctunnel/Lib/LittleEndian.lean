import Ctunnel.Lib.BigEndian
import Mathlib.Tactic.Ring

/-!
# Little-endian numerals over bytes

`leNat` and `leBytes` are the little-endian readings of `beNat` and `beBytes`:
the numeral reversed. A numeral is taken apart at any byte (`leNat_append`),
which is how a machine reads one in words, and two byte strings of one length
with the same value are the same.
-/

namespace Ctunnel.Lib

/-- The value of a little-endian numeral. -/
def leNat (bs : Bytes) : Nat := beNat bs.reverse

/-- The `w`-byte little-endian numeral of `v`. -/
def leBytes (w v : Nat) : Bytes := (beBytes w v).reverse

@[simp] theorem leNat_nil : leNat [] = 0 := rfl

theorem leNat_cons (b : UInt8) (bs : Bytes) : leNat (b :: bs) = b.toNat + 256 * leNat bs := by
  rw [leNat, List.reverse_cons, beNat_concat, leNat]
  omega

@[simp] theorem leBytes_length (w v : Nat) : (leBytes w v).length = w := by
  simp [leBytes]

theorem leBytes_succ (w v : Nat) :
    leBytes (w + 1) v = UInt8.ofNat v :: leBytes w (v / 256) := by
  simp [leBytes, beBytes_concat]

theorem leNat_lt (bs : Bytes) : leNat bs < 256 ^ bs.length := by
  have h := beNat_lt bs.reverse
  rwa [List.length_reverse] at h

theorem leNat_leBytes (w v : Nat) : leNat (leBytes w v) = v % 256 ^ w := by
  rw [leNat, leBytes, List.reverse_reverse, beNat_beBytes]

theorem leBytes_leNat (bs : Bytes) : leBytes bs.length (leNat bs) = bs := by
  have h := beBytes_beNat bs.reverse
  rw [List.length_reverse] at h
  rw [leBytes, leNat, h, List.reverse_reverse]

/-- Values that agree modulo the width have one numeral. -/
theorem leBytes_mod (w v : Nat) : leBytes w (v % 256 ^ w) = leBytes w v := by
  have h := leBytes_leNat (leBytes w v)
  rwa [leBytes_length, leNat_leBytes] at h

/-- Byte strings of one length are determined by their value. -/
theorem leNat_inj {a b : Bytes} (hlen : a.length = b.length) (h : leNat a = leNat b) : a = b := by
  rw [← leBytes_leNat a, ← leBytes_leNat b, hlen, h]

/-- The value of a numeral in two parts. -/
theorem leNat_append (a b : Bytes) : leNat (a ++ b) = leNat a + 256 ^ a.length * leNat b := by
  induction a with
  | nil => simp
  | cons x a ih =>
      rw [List.cons_append, leNat_cons, ih, leNat_cons, List.length_cons, pow_succ]
      ring

theorem leNat_concat (bs : Bytes) (b : UInt8) :
    leNat (bs ++ [b]) = leNat bs + 256 ^ bs.length * b.toNat := by
  rw [leNat_append, leNat_cons, leNat_nil, Nat.mul_zero, Nat.add_zero]

/-- Zeros above a numeral do not count. -/
theorem leNat_zeros (n : Nat) : leNat (List.replicate n 0) = 0 := by
  induction n with
  | zero => rfl
  | succ n ih =>
      rw [List.replicate_succ, leNat_cons, ih]
      rfl

theorem leNat_append_zeros (bs : Bytes) (n : Nat) :
    leNat (bs ++ List.replicate n 0) = leNat bs := by
  rw [leNat_append, leNat_zeros, Nat.mul_zero, Nat.add_zero]

/-- A numeral in two parts, low part first. -/
theorem leBytes_append (w w' v : Nat) :
    leBytes (w + w') v = leBytes w v ++ leBytes w' (v / 256 ^ w) := by
  induction w generalizing v with
  | zero => simp [leBytes, beBytes]
  | succ w ih =>
      rw [Nat.succ_add, leBytes_succ, leBytes_succ, ih, List.cons_append, Nat.div_div_eq_div_mul,
        ← Nat.pow_succ']

/-- Byte `i` of a numeral. -/
theorem leBytes_getElem? (w v : Nat) {i : Nat} (hi : i < w) :
    (leBytes w v)[i]? = some (UInt8.ofNat (v / 256 ^ i)) := by
  induction w generalizing v i with
  | zero => exact absurd hi (Nat.not_lt_zero _)
  | succ w ih =>
      rw [leBytes_succ]
      cases i with
      | zero => rw [List.getElem?_cons_zero, Nat.pow_zero, Nat.div_one]
      | succ i =>
          rw [List.getElem?_cons_succ, ih _ (Nat.lt_of_succ_lt_succ hi), Nat.div_div_eq_div_mul,
            Nat.pow_succ']

end Ctunnel.Lib
