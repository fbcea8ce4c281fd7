import Ctunnel.Monocypher.Poly1305
import Mathlib.Algebra.BigOperators.Intervals
import Mathlib.Algebra.BigOperators.Ring.Finset

/-!
# The one-time authenticator

`crypto_poly1305`, in whatever pieces the message is handed to it, evaluates the
polynomial of the message at the clamped key modulo `2^130 - 5` and adds the
second half of the key modulo `2^128` (`poly1305_value`).
-/

namespace Ctunnel

open Lib

/-- The bits of the first half of the key that are kept. -/
def clampMask : Nat := 0x0ffffffc0ffffffc0ffffffc0fffffff

/-- Block `i` of a message. -/
def messageBlock (m : Bytes) (i : Nat) : Bytes := slice m (16 * i) 16

/-- The polynomial of a message: its first block is the coefficient of the highest power. -/
def messagePolynomial (r : Nat) (m : Bytes) : Nat :=
  ∑ i ∈ Finset.range ((m.length + 15) / 16),
    blockNumber (messageBlock m i) * r ^ ((m.length + 15) / 16 - i)

/-! ## The accumulator evaluates the polynomial -/

theorem foldBlocks_horner (r : Nat) (m : Bytes) (k : Nat) :
    foldBlocks 16 (polyStep r) k 0 m =
      (∑ i ∈ Finset.range k, blockNumber (messageBlock m i) * r ^ (k - i)) % polyPrime := by
  induction k with
  | zero => rfl
  | succ k ih =>
      have hshift : ∑ i ∈ Finset.range k, blockNumber (messageBlock m i) * r ^ (k + 1 - i) =
          (∑ i ∈ Finset.range k, blockNumber (messageBlock m i) * r ^ (k - i)) * r := by
        rw [Finset.sum_mul]
        apply Finset.sum_congr rfl
        intro i hi
        have hlt := Finset.mem_range.mp hi
        rw [Nat.succ_sub hlt.le, pow_succ, Nat.mul_assoc]
      rw [foldBlocks_concat, ih, polyStep, Finset.sum_range_succ, hshift, Nat.add_sub_cancel_left,
        pow_one, ← Nat.add_mul]
      exact (Nat.mod_modEq _ _).add_right _ |>.mul_right r

theorem polyAccumulator_eq (r : Nat) (m : Bytes) :
    polyAccumulator r m = messagePolynomial r m % polyPrime := foldBlocks_horner r m _

/-! ## The key -/

/-- Masks act on each word. -/
theorem and_word {a b c d : Nat} (ha : a < 2 ^ 32) (hc : c < 2 ^ 32) :
    (a + 2 ^ 32 * b) &&& (c + 2 ^ 32 * d) = (a &&& c) + 2 ^ 32 * (b &&& d) := by
  have hlow : ((a + 2 ^ 32 * b) &&& (c + 2 ^ 32 * d)) % 2 ^ 32 = a &&& c := by
    rw [Nat.and_mod_two_pow, Nat.add_mul_mod_self_left, Nat.add_mul_mod_self_left,
      Nat.mod_eq_of_lt ha, Nat.mod_eq_of_lt hc]
  have hhigh : ((a + 2 ^ 32 * b) &&& (c + 2 ^ 32 * d)) / 2 ^ 32 = b &&& d := by
    rw [Nat.and_div_two_pow, Nat.add_mul_div_left _ _ (by omega), Nat.add_mul_div_left _ _ (by omega),
      Nat.div_eq_of_lt ha, Nat.div_eq_of_lt hc, Nat.zero_add, Nat.zero_add]
  have hsplit := Nat.div_add_mod ((a + 2 ^ 32 * b) &&& (c + 2 ^ 32 * d)) (2 ^ 32)
  rw [hlow, hhigh] at hsplit
  omega

theorem words_r (key : Octets 32) :
    words (cryptoPoly1305Init key).r = leNat (key.toList.take 16) &&& clampMask := by
  have hlen : (key.toList.take 16).length = 16 := by
    rw [List.length_take, List.Vector.toList_length]
    rfl
  have hload : ∀ k ≤ 12, load32Le ((key.toList.take 16).drop k) = load32Le (key.toList.drop k) := by
    intro k hk
    rw [← UInt32.toNat_inj, load32Le_toNat (by rw [List.length_drop, hlen]; omega),
      load32Le_toNat (by rw [List.length_drop, List.Vector.toList_length]; omega), List.drop_take,
      List.take_take, Nat.min_eq_left (by omega)]
  have h0 := hload 0 (by omega)
  have hmask : clampMask = 0x0fffffff + 2 ^ 32 * (0x0ffffffc + 2 ^ 32 * (0x0ffffffc +
      2 ^ 32 * 0x0ffffffc)) := rfl
  have hnested : leNat (key.toList.take 16) = (load32Le key.toList).toNat +
      2 ^ 32 * ((load32Le (key.toList.drop 4)).toNat +
        2 ^ 32 * ((load32Le (key.toList.drop 8)).toNat +
          2 ^ 32 * (load32Le (key.toList.drop 12)).toNat)) := by
    rw [List.drop_zero, List.drop_zero] at h0
    rw [leNat_block hlen, h0, hload 4 (by omega), hload 8 (by omega), hload 12 (by omega)]
    omega
  rw [hnested, hmask, and_word (UInt32.toNat_lt _) (by decide),
    and_word (UInt32.toNat_lt _) (by decide), and_word (UInt32.toNat_lt _) (by decide)]
  show (load32Le key.toList &&& 0x0fffffff).toNat +
    2 ^ 32 * (load32Le (key.toList.drop 4) &&& 0x0ffffffc).toNat +
    2 ^ 64 * (load32Le (key.toList.drop 8) &&& 0x0ffffffc).toNat +
    2 ^ 96 * (load32Le (key.toList.drop 12) &&& 0x0ffffffc).toNat = _
  have hlow : (0x0fffffff : UInt32).toNat = 0x0fffffff := rfl
  have hhigh : (0x0ffffffc : UInt32).toNat = 0x0ffffffc := rfl
  rw [UInt32.toNat_and, UInt32.toNat_and, UInt32.toNat_and, UInt32.toNat_and, hlow, hhigh]
  ring

theorem words_pad (key : Octets 32) :
    words (cryptoPoly1305Init key).pad = leNat (key.toList.drop 16) := by
  rw [leNat_block (by rw [List.length_drop, List.Vector.toList_length]), List.drop_drop,
    List.drop_drop, List.drop_drop]
  rfl

/-! ## The theorem -/

theorem foldl_update_absorbed {ctx : CryptoPoly1305Ctx} {key : Octets 32} {m : Bytes}
    (h : ctx.Absorbed key m) (parts : List Bytes) :
    (parts.foldl cryptoPoly1305Update ctx).Absorbed key (m ++ parts.flatten) := by
  induction parts generalizing ctx m with
  | nil => simpa using h
  | cons part parts ih =>
      rw [List.foldl_cons, List.flatten_cons, ← List.append_assoc]
      exact ih (h.update part)

/-- The tag of a context that has absorbed a message. -/
theorem CryptoPoly1305Ctx.Absorbed.tag {ctx : CryptoPoly1305Ctx} {key : Octets 32} {m : Bytes}
    (h : ctx.Absorbed key m) :
    (cryptoPoly1305Final ctx).toList =
      leBytes 16 (messagePolynomial (leNat (key.toList.take 16) &&& clampMask) m % polyPrime +
        leNat (key.toList.drop 16)) := by
  rw [h.final, h.r, h.pad, words_r, words_pad, polyAccumulator_eq]

/-- `crypto_poly1305_init`, any number of updates and `crypto_poly1305_final`: the tag is the
value of the message polynomial at the clamped first half of the key, modulo `2^130 - 5`, plus the
second half, modulo `2^128`. How the message is split into updates does not matter. -/
theorem poly1305_value (key : Octets 32) (parts : List Bytes) :
    (cryptoPoly1305Final (parts.foldl cryptoPoly1305Update (cryptoPoly1305Init key))).toList =
      leBytes 16 (messagePolynomial (leNat (key.toList.take 16) &&& clampMask) parts.flatten %
        polyPrime + leNat (key.toList.drop 16)) :=
  (foldl_update_absorbed (.init key) parts).tag

end Ctunnel
