import Ctunnel.Lib.BigEndian

/-!
# Byte strings under a keystream

A stream cipher in counter mode makes a keystream of blocks that depend on their
number only and combines it with the text byte by byte. `xorBytes` is the
combination, `keystream n block len` the first `len` bytes of the blocks
`block 0, block 1, …` of `n` bytes. Applied twice a keystream cancels
(`xorBytes_cancel`), and after whole blocks it is the keystream of the blocks
that follow (`keystream_blocks`), which is what lets a text be processed in parts.
-/

namespace Ctunnel.Lib

/-- Byte by byte exclusive or; the longer string is cut. -/
def xorBytes (a b : Bytes) : Bytes := List.zipWith (· ^^^ ·) a b

@[simp] theorem xorBytes_nil (b : Bytes) : xorBytes [] b = [] := rfl

@[simp] theorem xorBytes_length (a b : Bytes) : (xorBytes a b).length = min a.length b.length :=
  List.length_zipWith

theorem xorBytes_append {a b : Bytes} (c d : Bytes) (h : a.length = b.length) :
    xorBytes (a ++ c) (b ++ d) = xorBytes a b ++ xorBytes c d := List.zipWith_append h

/-- A keystream that covers the text cancels. -/
theorem xorBytes_cancel {a b : Bytes} (h : a.length ≤ b.length) :
    xorBytes (xorBytes a b) b = a := by
  induction a generalizing b with
  | nil => rfl
  | cons x a ih =>
      cases b with
      | nil => exact absurd h (Nat.not_succ_le_zero _)
      | cons y b =>
          show (x ^^^ y ^^^ y) :: xorBytes (xorBytes a b) b = x :: a
          rw [UInt8.xor_assoc, UInt8.xor_self, UInt8.xor_zero, ih (Nat.le_of_succ_le_succ h)]

/-- A text of zeros shows the keystream. -/
theorem xorBytes_zeros (n : Nat) (b : Bytes) : xorBytes (List.replicate n 0) b = b.take n := by
  induction n generalizing b with
  | zero => rw [List.take_zero, List.replicate_zero, xorBytes_nil]
  | succ n ih =>
      cases b with
      | nil => rfl
      | cons y b =>
          show ((0 : UInt8) ^^^ y) :: xorBytes (List.replicate n 0) b = y :: b.take n
          rw [UInt8.zero_xor, ih]

/-- The combination as a loop over the positions. -/
theorem range_xorBytes {a b : Bytes} {n : Nat} (ha : n ≤ a.length) (hb : n ≤ b.length) :
    ((List.range n).map fun i => a.getD i 0 ^^^ b.getD i 0) = xorBytes (a.take n) (b.take n) := by
  apply List.ext_getElem
  · rw [List.length_map, List.length_range, xorBytes_length, List.length_take_of_le ha,
      List.length_take_of_le hb, Nat.min_self]
  · intro i hi _
    rw [List.length_map, List.length_range] at hi
    simp only [xorBytes, List.getElem_map, List.getElem_range, List.getElem_zipWith,
      List.getElem_take]
    rw [List.getD_eq_getElem _ _ (by omega), List.getD_eq_getElem _ _ (by omega)]

theorem xorBytes_comm (a b : Bytes) : xorBytes a b = xorBytes b a :=
  List.zipWith_comm_of_comm fun x y => UInt8.xor_comm x y

/-- The first `len` bytes of the blocks `block 0, block 1, …` of `n` bytes. -/
def keystream (n : Nat) (block : Nat → Bytes) (len : Nat) : Bytes :=
  ((List.range ((len + n - 1) / n)).flatMap block).take len

section
variable {n : Nat} {block : Nat → Bytes}

theorem blocks_length (hblock : ∀ i, (block i).length = n) (k : Nat) :
    ((List.range k).flatMap block).length = n * k := by
  induction k with
  | zero => rfl
  | succ k ih =>
      rw [List.range_succ, List.flatMap_append, List.length_append, ih, List.flatMap_singleton,
        hblock, Nat.mul_succ]

theorem keystream_length (hn : 0 < n) (hblock : ∀ i, (block i).length = n) (len : Nat) :
    (keystream n block len).length = len := by
  rw [keystream, List.length_take, blocks_length hblock]
  apply Nat.min_eq_left
  have h := Nat.lt_mul_div_succ (len + n - 1) hn
  rw [Nat.mul_add, Nat.mul_one] at h
  omega

/-- After `k` whole blocks: the keystream of the blocks from `k` on. -/
theorem keystream_blocks (hn : 0 < n) (hblock : ∀ i, (block i).length = n) (k len : Nat) :
    keystream n block (n * k + len) =
      (List.range k).flatMap block ++ keystream n (fun i => block (k + i)) len := by
  have hcount : (n * k + len + n - 1) / n = k + (len + n - 1) / n := by
    rw [Nat.add_assoc, Nat.add_sub_assoc (by omega), Nat.mul_add_div hn]
  have hshift : ((List.range ((len + n - 1) / n)).map (k + ·)).flatMap block =
      (List.range ((len + n - 1) / n)).flatMap fun i => block (k + i) := by
    rw [List.flatMap_map]
  rw [keystream, hcount, List.range_add, List.flatMap_append, hshift,
    ← blocks_length hblock k, List.take_length_add_append]
  rfl

/-- Less than a block. -/
theorem keystream_short {len : Nat} (hpos : 0 < len) (hlen : len ≤ n) :
    keystream n block len = (block 0).take len := by
  have hcount : (len + n - 1) / n = 1 :=
    Nat.div_eq_of_lt_le (by omega) (by omega)
  rw [keystream, hcount, List.range_one, List.flatMap_singleton]

@[simp] theorem keystream_zero : keystream n block 0 = [] := List.take_zero

/-- Byte `i` of the keystream is in block `i / n`. -/
theorem keystream_getElem? (hn : 0 < n) (hblock : ∀ i, (block i).length = n) {len i : Nat}
    (hi : i < len) : (keystream n block len)[i]? = (block (i / n))[i % n]? := by
  have hmod := Nat.mod_lt i hn
  have hdiv := Nat.div_add_mod i n
  obtain ⟨rest, hrest⟩ : ∃ rest, len = n * (i / n) + rest := ⟨len - n * (i / n), by omega⟩
  have hlen := blocks_length hblock (i / n)
  have hindex : i - ((List.range (i / n)).flatMap block).length = i % n := by omega
  rw [hrest, keystream_blocks hn hblock, List.getElem?_append_right (by omega), hindex]
  by_cases hshort : rest ≤ n
  · rw [keystream_short (by omega) hshort, List.getElem?_take_of_lt (by omega)]
    rfl
  · obtain ⟨more, rfl⟩ : ∃ more, rest = n * 1 + more := ⟨rest - n, by omega⟩
    rw [keystream_blocks hn (fun _ => hblock _), List.range_one, List.flatMap_singleton,
      List.getElem?_append_left (by rw [hblock]; omega)]
    rfl

end

end Ctunnel.Lib
