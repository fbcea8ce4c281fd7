import Ctunnel.Monocypher.Chacha20

/-!
# The stream cipher

What callers of `crypto_chacha20_djb` rely on. A byte of the output depends on
the byte of the text at its place and on the number of its block only, and the
same call undoes itself (`chacha20_bytes`). A text that is handed over in parts,
each a number of whole blocks, each call at the counter the one before returned,
comes out as if it had been handed over at once (`chacha20_parts`).
-/

namespace Ctunnel

open Lib

/-- Every byte of the output is the byte of the text at its place under a byte of the block its
place lies in; the counter that is returned counts the blocks begun; a second call at the same
counter restores the text. -/
theorem chacha20_bytes (key : Octets 32) (nonce : Octets 8) (ctr : UInt64) (text : Bytes) :
    (chacha20Apply key nonce ctr text).1.length = text.length ∧
      (∀ i < text.length, (chacha20Apply key nonce ctr text).1.getD i 0 =
        text.getD i 0 ^^^ (chacha20Block key nonce (ctr + UInt64.ofNat (i / 64)) 0).getD (i % 64) 0) ∧
      (chacha20Apply key nonce ctr text).2 = ctr + UInt64.ofNat ((text.length + 63) / 64) ∧
      (chacha20Apply key nonce ctr (chacha20Apply key nonce ctr text).1).1 = text := by
  refine ⟨chacha20Apply_length .., ?_, ?_, chacha20Apply_twice ..⟩
  · intro i hi
    have hblock : (keystream 64 (chacha20Block key nonce ctr) text.length)[i]? =
        (chacha20Block key nonce ctr (i / 64))[i % 64]? :=
      keystream_getElem? (by decide) (chacha20Block_length key nonce ctr) hi
    have hzero : chacha20Block key nonce (ctr + UInt64.ofNat (i / 64)) 0 =
        chacha20Block key nonce ctr (i / 64) := (chacha20Block_add key nonce ctr (i / 64) 0).symm
    have hmod : i % 64 < (chacha20Block key nonce ctr (i / 64)).length := by
      rw [chacha20Block_length]
      exact Nat.mod_lt i (by decide)
    rw [chacha20Apply_eq, hzero, List.getD_eq_getElem?_getD, List.getD_eq_getElem?_getD,
      List.getD_eq_getElem?_getD]
    show (List.zipWith (· ^^^ ·) text _)[i]?.getD 0 = _
    rw [List.getElem?_zipWith, hblock, List.getElem?_eq_getElem hi, List.getElem?_eq_getElem hmod]
    rfl
  · rw [chacha20Apply_eq]

/-- Calls one after the other, each at the counter the one before returned. -/
def chacha20Run (key : Octets 32) (nonce : Octets 8) : UInt64 → List Bytes → Bytes × UInt64
  | ctr, [] => ([], ctr)
  | ctr, text :: texts =>
      let first := chacha20Apply key nonce ctr text
      let rest := chacha20Run key nonce first.2 texts
      (first.1 ++ rest.1, rest.2)

/-- Whole blocks first, then the rest at the counter that was returned. -/
theorem chacha20Apply_append (key : Octets 32) (nonce : Octets 8) (ctr : UInt64) {whole : Bytes}
    (h : 64 ∣ whole.length) (rest : Bytes) :
    chacha20Apply key nonce ctr (whole ++ rest) =
      ((chacha20Apply key nonce ctr whole).1 ++
          (chacha20Apply key nonce (chacha20Apply key nonce ctr whole).2 rest).1,
        (chacha20Apply key nonce (chacha20Apply key nonce ctr whole).2 rest).2) := by
  obtain ⟨k, hk⟩ := h
  have hwhole : keystream 64 (chacha20Block key nonce ctr) whole.length =
      (List.range k).flatMap (chacha20Block key nonce ctr) := by
    have hsplit := keystream_whole key nonce ctr k 0
    rw [keystream_zero, List.append_nil] at hsplit
    rw [hk, ← hsplit, Nat.add_zero]
  have hceil : UInt64.ofNat ((whole.length + rest.length + 63) / 64) =
      UInt64.ofNat k + UInt64.ofNat ((rest.length + 63) / 64) := by
    rw [← UInt64.ofNat_add]
    congr 1
    omega
  have hbegun : (whole.length + 63) / 64 = k := by omega
  rw [chacha20Apply_eq, chacha20Apply_eq key nonce ctr whole, hwhole, hbegun, chacha20Apply_eq,
    List.length_append, hceil, ← UInt64.add_assoc, hk, keystream_whole]
  show (xorBytes (whole ++ rest) (_ ++ _), _) = _
  rw [xorBytes_append _ _ (by rw [blocks_length (chacha20Block_length key nonce ctr), hk])]

/-- A text handed over in parts that are whole blocks, but for the last one, comes out as if it
had been handed over at once, and the counter with it. -/
theorem chacha20_parts (key : Octets 32) (nonce : Octets 8) (ctr : UInt64) (parts : List Bytes)
    (h : ∀ part ∈ parts, 64 ∣ part.length) (last : Bytes) :
    chacha20Run key nonce ctr (parts ++ [last]) =
      chacha20Apply key nonce ctr (parts.flatten ++ last) := by
  induction parts generalizing ctr with
  | nil =>
      show ((chacha20Apply key nonce ctr last).1 ++ [], (chacha20Apply key nonce ctr last).2) = _
      rw [List.append_nil]
      rfl
  | cons part parts ih =>
      have hpart := h part List.mem_cons_self
      have hparts : ∀ p ∈ parts, 64 ∣ p.length := fun p hp => h p (List.mem_cons_of_mem part hp)
      rw [List.flatten_cons, List.append_assoc, chacha20Apply_append key nonce ctr hpart,
        ← ih _ hparts]
      rfl

/-- Two blocks and a half, in three calls. -/
theorem chacha20_parts_three :
    chacha20Run (.replicate 32 7) (.replicate 8 9) 0xffffffff
        ([List.replicate 64 1, List.replicate 64 2] ++ [List.replicate 32 3]) =
      chacha20Apply (.replicate 32 7) (.replicate 8 9) 0xffffffff
        ([List.replicate 64 1, List.replicate 64 2].flatten ++ List.replicate 32 3) :=
  chacha20_parts (.replicate 32 7) (.replicate 8 9) 0xffffffff _ (by simp) _

end Ctunnel
