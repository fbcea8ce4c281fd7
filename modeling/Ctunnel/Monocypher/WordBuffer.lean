import Ctunnel.Lib.Cursor
import Ctunnel.Monocypher.Words

/-!
# Bytes in a buffer of words

BLAKE2b keeps its input in 64-bit words. `HoldsBytes input bs` says that the
words of `input` are the bytes `bs`, eight to a word, with zeros behind them;
that is what lets a byte be added with an `or` (`HoldsBytes.orByte`) and words
be loaded behind the bytes that are there (`HoldsBytes.loadWords`). The bytes
determine the words (`HoldsBytes.words`).
-/

namespace Ctunnel

open Lib

/-- The words of `input` are the bytes `bs`, and zero behind them. -/
structure HoldsBytes (input : List UInt64) (bs : Bytes) : Prop where
  fits : bs.length ≤ 8 * input.length
  word : ∀ j < input.length, (input.getD j 0).toNat = leNat (slice bs (8 * j) 8)

theorem slice_nil_of_le {bs : Bytes} {off : Nat} (h : bs.length ≤ off) (n : Nat) :
    slice bs off n = [] := by
  rw [slice, List.drop_eq_nil_of_le h, List.take_nil]

theorem load64LeBuf_length (src : Bytes) (n : Nat) : (load64LeBuf src n).length = n := by
  rw [load64LeBuf, List.length_map, List.length_range]

theorem load64LeBuf_getD {src : Bytes} {n j : Nat} (hj : j < n) :
    (load64LeBuf src n).getD j 0 = load64Le (src.drop (j * 8)) := by
  rw [List.getD_eq_getElem _ _ (by rw [load64LeBuf_length]; exact hj)]
  simp only [load64LeBuf, List.getElem_map, List.getElem_range]

namespace HoldsBytes

variable {input : List UInt64} {bs : Bytes}

theorem zeros (n : Nat) : HoldsBytes (List.replicate n 0) [] where
  fits := Nat.zero_le _
  word := by
    intro j hj
    rw [List.length_replicate] at hj
    rw [List.getD_replicate _ hj, slice_nil_of_le (Nat.zero_le _)]
    rfl

/-- A whole buffer that is loaded. -/
theorem loaded {block : Bytes} {n : Nat} (h : block.length = 8 * n) :
    HoldsBytes (load64LeBuf block n) block where
  fits := by
    rw [load64LeBuf_length]
    exact Nat.le_of_eq h
  word := by
    intro j hj
    rw [load64LeBuf_length] at hj
    rw [load64LeBuf_getD hj, load64Le_toNat (by rw [List.length_drop]; omega), Nat.mul_comm j]
    rfl

/-- The bytes determine the words. -/
theorem words {n : Nat} (h : HoldsBytes input bs) (hn : input.length = n) :
    input = load64LeBuf (bs ++ List.replicate (8 * n - bs.length) 0) n := by
  apply List.ext_getElem
  · rw [load64LeBuf_length, hn]
  · intro j hj hj'
    have hfits := h.fits
    rw [load64LeBuf_length] at hj'
    let padded := bs ++ List.replicate (8 * n - bs.length) 0
    have hloaded : (load64LeBuf padded n).getD j 0 = load64Le (padded.drop (j * 8)) :=
      load64LeBuf_getD hj'
    have hword := h.word j hj
    rw [List.getD_eq_getElem _ _ hj] at hword
    rw [List.getD_eq_getElem _ _ (by rw [load64LeBuf_length]; exact hj')] at hloaded
    rw [hloaded, ← UInt64.toNat_inj, hword, load64Le_toNat (by
      rw [List.length_drop, List.length_append, List.length_replicate]
      omega), List.drop_append, List.take_append, List.drop_replicate, List.take_replicate,
      leNat_append_zeros, slice, Nat.mul_comm]

/-- A byte is added behind the others. -/
theorem orByte (h : HoldsBytes input bs) {word byte : Nat} (hword : word < input.length)
    (hbyte : byte < 8) (hlen : bs.length = 8 * word + byte) (b : UInt8) :
    HoldsBytes
      (input.set word (input.getD word 0 ||| (b.toUInt64 <<< UInt64.ofNat (byte <<< 3))))
      (bs ++ [b]) := by
  have hold := h.word word hword
  have hpart : (slice bs (8 * word) 8).length = byte := by
    rw [slice, List.length_take, List.length_drop]
    omega
  constructor
  · rw [List.length_append, List.length_singleton, List.length_set]
    omega
  · intro j hj
    rw [List.length_set] at hj
    by_cases hsame : j = word
    · -- the word the byte goes to was below `256 ^ byte`
      subst hsame
      have hlow : (input.getD j 0).toNat < 2 ^ (8 * byte) := by
        have hlt := leNat_lt (slice bs (8 * j) 8)
        rw [hpart, ← hold] at hlt
        rwa [Nat.pow_mul]
      have hb := b.toNat_lt
      have hshift : (b.toUInt64 <<< UInt64.ofNat (byte <<< 3)).toNat = b.toNat * 2 ^ (8 * byte) := by
        have hbits : (UInt64.ofNat (byte <<< 3)).toNat = 8 * byte := by
          rw [UInt64.toNat_ofNat', Nat.shiftLeft_eq]
          omega
        have hsmall : b.toNat * 2 ^ (8 * byte) < 2 ^ 64 := by
          calc b.toNat * 2 ^ (8 * byte) ≤ 255 * 2 ^ 56 :=
                Nat.mul_le_mul (by omega) (Nat.pow_le_pow_right (by omega) (by omega))
            _ < 2 ^ 64 := by decide
        rw [UInt64.toNat_shiftLeft, hbits, UInt8.toNat_toUInt64,
          Nat.mod_eq_of_lt (a := 8 * byte) (by omega), Nat.shiftLeft_eq, Nat.mod_eq_of_lt hsmall]
      have hnew : slice (bs ++ [b]) (8 * j) 8 = slice bs (8 * j) 8 ++ [b] := by
        have htake : (bs.drop (8 * j)).take 8 = bs.drop (8 * j) :=
          List.take_of_length_le (by rw [List.length_drop]; omega)
        rw [slice, slice, htake, List.drop_append_of_le_length (by omega),
          List.take_of_length_le (by
            rw [List.length_append, List.length_drop, List.length_singleton]
            omega)]
      rw [List.getD_eq_getElem?_getD, List.getElem?_set_self hj, Option.getD_some, UInt64.toNat_or,
        hshift, or_shifted hlow, hnew, leNat_concat, hpart, hold, Nat.pow_mul, Nat.mul_comm b.toNat]
    · rw [List.getD_eq_getElem?_getD, List.getElem?_set_ne (Ne.symm hsame),
        ← List.getD_eq_getElem?_getD, h.word j hj]
      by_cases hbefore : j < word
      · rw [slice_append_inside _ (by omega)]
      · rw [slice_nil_of_le (by omega), slice_nil_of_le (by
          rw [List.length_append, List.length_singleton]
          omega)]

/-- Words are loaded behind the bytes that are there. -/
theorem loadWords (h : HoldsBytes input bs) {word n : Nat} (hlen : bs.length = 8 * word)
    (hfits : word + n ≤ input.length) {message : Bytes} (hn : 8 * n ≤ message.length) :
    HoldsBytes (input.take word ++ load64LeBuf message n ++ input.drop (word + n))
      (bs ++ message.take (8 * n)) := by
  have htake : (message.take (8 * n)).length = 8 * n := List.length_take_of_le hn
  have hfront : (input.take word).length = word := List.length_take_of_le (by omega)
  have hsize : (input.take word ++ load64LeBuf message n ++ input.drop (word + n)).length =
      input.length := by
    rw [List.length_append, List.length_append, hfront, load64LeBuf_length, List.length_drop]
    omega
  constructor
  · rw [hsize, List.length_append, htake]
    omega
  · intro j hj
    rw [hsize] at hj
    have hword := h.word j hj
    by_cases hbefore : j < word
    · rw [List.append_assoc, List.getD_append _ _ _ _ (by rw [hfront]; exact hbefore),
        slice_append_inside _ (by omega), ← hword, List.getD_eq_getElem?_getD,
        List.getElem?_take_of_lt hbefore, ← List.getD_eq_getElem?_getD]
    · by_cases hloaded : j < word + n
      · have hslice : slice (bs ++ message.take (8 * n)) (8 * j) 8 =
            (message.drop ((j - word) * 8)).take 8 := by
          rw [slice, List.drop_append, List.drop_eq_nil_of_le (by omega), List.nil_append,
            List.drop_take, List.take_take, hlen]
          congr 1
          · omega
          · congr 1
            omega
        rw [List.append_assoc, List.getD_append_right _ _ _ _ (by rw [hfront]; omega), hfront,
          List.getD_append _ _ _ _ (by rw [load64LeBuf_length]; omega),
          load64LeBuf_getD (by omega), load64Le_toNat (by rw [List.length_drop]; omega), hslice]
      · rw [slice_nil_of_le (by omega)] at hword
        have hbehind : (input.take word ++ load64LeBuf message n).length = word + n := by
          rw [List.length_append, hfront, load64LeBuf_length]
        have hsplit : word + n + (j - (word + n)) = j := by omega
        rw [List.getD_append_right _ _ _ _ (by rw [hbehind]; omega), hbehind,
          slice_nil_of_le (by rw [List.length_append, htake]; omega), List.getD_eq_getElem?_getD,
          List.getElem?_drop, hsplit, ← List.getD_eq_getElem?_getD]
        exact hword

end HoldsBytes

end Ctunnel
