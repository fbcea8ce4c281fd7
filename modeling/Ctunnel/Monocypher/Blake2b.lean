import Ctunnel.Lib.Blocks
import Ctunnel.Monocypher.WordBuffer

/-!
# BLAKE2b (`third_party/monocypher/src/monocypher.c`)

The compression function and the streaming interface over it. The context
buffers its input in words, aligns to words and then to blocks, and holds a full
block back until it is known whether it is the last one. `Blake2bCtx.Absorbed`
says what a context that has read a message looks like, in whatever parts the
message came: the blocks in front of the last one are compressed, the bytes
behind them stand in the buffer, and the two words of the offset count them.
-/

namespace Ctunnel

open Lib

/-- `crypto_blake2b_ctx`. -/
structure Blake2bCtx where
  hash : Vector UInt64 8
  inputOffset0 : UInt64
  inputOffset1 : UInt64
  input : List UInt64
  inputIdx : Nat
  hashSize : Nat

/-- `iv`. -/
def blake2bIv : Vector UInt64 8 :=
  #v[0x6a09e667f3bcc908, 0xbb67ae8584caa73b, 0x3c6ef372fe94f82b, 0xa54ff53a5f1d36f1,
    0x510e527fade682d1, 0x9b05688c2b3e6c1f, 0x1f83d9abfb41bd6b, 0x5be0cd19137e2179]

/-- `sigma` of `blake2b_compress`. -/
def blake2bSigma : List (List Nat) :=
  [[0, 1, 2, 3, 4, 5, 6, 7, 8, 9, 10, 11, 12, 13, 14, 15],
    [14, 10, 4, 8, 9, 15, 13, 6, 1, 12, 0, 2, 11, 7, 5, 3],
    [11, 8, 12, 0, 5, 2, 15, 13, 10, 14, 3, 6, 7, 1, 9, 4],
    [7, 9, 3, 1, 13, 12, 11, 14, 2, 6, 5, 10, 4, 0, 15, 8],
    [9, 0, 5, 7, 2, 4, 10, 15, 14, 1, 11, 12, 6, 8, 3, 13],
    [2, 12, 6, 10, 0, 11, 8, 3, 4, 13, 7, 5, 15, 14, 1, 9],
    [12, 5, 1, 15, 14, 13, 4, 10, 0, 7, 6, 3, 9, 2, 8, 11],
    [13, 11, 7, 14, 12, 1, 3, 9, 5, 0, 15, 4, 8, 6, 2, 10],
    [6, 15, 14, 9, 11, 3, 0, 8, 12, 2, 13, 7, 1, 4, 10, 5],
    [10, 2, 8, 4, 7, 6, 1, 5, 15, 11, 9, 14, 3, 12, 13, 0],
    [0, 1, 2, 3, 4, 5, 6, 7, 8, 9, 10, 11, 12, 13, 14, 15],
    [14, 10, 4, 8, 9, 15, 13, 6, 1, 12, 0, 2, 11, 7, 5, 3]]

/-- `rotr64`. -/
def rotr64 (x n : UInt64) : UInt64 := (x >>> n) ^^^ (x <<< (64 - n))

/-- `BLAKE2_G`. -/
def blake2G (a b c d : Fin 16) (x y : UInt64) (v : Vector UInt64 16) : Vector UInt64 16 :=
  let v := v.set a (v[a] + (v[b] + x))
  let v := v.set d (rotr64 (v[d] ^^^ v[a]) 32)
  let v := v.set c (v[c] + v[d])
  let v := v.set b (rotr64 (v[b] ^^^ v[c]) 24)
  let v := v.set a (v[a] + (v[b] + y))
  let v := v.set d (rotr64 (v[d] ^^^ v[a]) 16)
  let v := v.set c (v[c] + v[d])
  v.set b (rotr64 (v[b] ^^^ v[c]) 63)

/-- `BLAKE2_ROUND`, with the row of `sigma` it is given. -/
def blake2Round (input : List UInt64) (v : Vector UInt64 16) (sigma : List Nat) :
    Vector UInt64 16 :=
  let word := fun i => input.getD (sigma.getD i 0) 0
  let v := blake2G 0 4 8 12 (word 0) (word 1) v
  let v := blake2G 1 5 9 13 (word 2) (word 3) v
  let v := blake2G 2 6 10 14 (word 4) (word 5) v
  let v := blake2G 3 7 11 15 (word 6) (word 7) v
  let v := blake2G 0 5 10 15 (word 8) (word 9) v
  let v := blake2G 1 6 11 12 (word 10) (word 11) v
  let v := blake2G 2 7 8 13 (word 12) (word 13) v
  blake2G 3 4 9 14 (word 14) (word 15) v

/-- What `blake2b_compress` does with the hash, once the offset is incremented. -/
def blake2bMix (hash : Vector UInt64 8) (offset0 offset1 : UInt64) (input : List UInt64)
    (isLastBlock : Bool) : Vector UInt64 8 :=
  let v : Vector UInt64 16 :=
    #v[hash[0], hash[1], hash[2], hash[3], hash[4], hash[5], hash[6], hash[7],
      blake2bIv[0], blake2bIv[1], blake2bIv[2], blake2bIv[3], blake2bIv[4] ^^^ offset0,
      blake2bIv[5] ^^^ offset1, blake2bIv[6] ^^^ (if isLastBlock then ~~~0 else 0), blake2bIv[7]]
  let v := blake2bSigma.foldl (blake2Round input) v
  #v[hash[0] ^^^ (v[0] ^^^ v[8]), hash[1] ^^^ (v[1] ^^^ v[9]), hash[2] ^^^ (v[2] ^^^ v[10]),
    hash[3] ^^^ (v[3] ^^^ v[11]), hash[4] ^^^ (v[4] ^^^ v[12]), hash[5] ^^^ (v[5] ^^^ v[13]),
    hash[6] ^^^ (v[6] ^^^ v[14]), hash[7] ^^^ (v[7] ^^^ v[15])]

/-- `blake2b_compress`. -/
def blake2bCompress (ctx : Blake2bCtx) (isLastBlock : Bool) : Blake2bCtx :=
  let y := UInt64.ofNat ctx.inputIdx
  let x0 := ctx.inputOffset0 + y
  let x1 := if x0 < y then ctx.inputOffset1 + 1 else ctx.inputOffset1
  { ctx with
    inputOffset0 := x0
    inputOffset1 := x1
    hash := blake2bMix ctx.hash x0 x1 ctx.input isLastBlock }

/-- `crypto_blake2b_keyed_init`. -/
def cryptoBlake2bKeyedInit (hashSize : Nat) (key : Bytes) : Blake2bCtx :=
  let ctx : Blake2bCtx :=
    { hash := blake2bIv.set 0 (blake2bIv[0] ^^^
        ((0x01010000 : UInt64) ^^^ (UInt64.ofNat key.length <<< 8) ^^^ UInt64.ofNat hashSize))
      inputOffset0 := 0
      inputOffset1 := 0
      input := List.replicate 16 0
      inputIdx := 0
      hashSize }
  if key.length > 0 then
    -- the first block is the key, padded with zeros
    let keyBlock := key ++ List.replicate (128 - key.length) 0
    { ctx with input := load64LeBuf keyBlock 16, inputIdx := 128 }
  else ctx

/-- `ctx->input[word] |= (u64)b << (byte << 3)`. -/
def Blake2bCtx.orByte (ctx : Blake2bCtx) (word byte : Nat) (b : UInt8) : Blake2bCtx :=
  { ctx with
    input := ctx.input.set word
      (ctx.input.getD word 0 ||| (b.toUInt64 <<< UInt64.ofNat (byte <<< 3))) }

/-- `load64_le_buf(ctx->input + word, message, nbWords)`. -/
def Blake2bCtx.loadWords (ctx : Blake2bCtx) (word : Nat) (message : Bytes) (nbWords : Nat) :
    Blake2bCtx :=
  { ctx with
    input := ctx.input.take word ++ load64LeBuf message nbWords ++ ctx.input.drop (word + nbWords) }

/-- The alignment with word boundaries in `crypto_blake2b_update`; the loop
counts `byte` up and leaves `input_idx` for the end. -/
def blake2bAlignWord (ctx : Blake2bCtx) (message : Bytes) : Blake2bCtx × Bytes :=
  if ctx.inputIdx &&& 7 ≠ 0 then
    let nbBytes := min (gap ctx.inputIdx 8) message.length
    let word := ctx.inputIdx >>> 3
    let byte := ctx.inputIdx &&& 7
    let filled := (List.range nbBytes).foldl
      (fun ctx i => ctx.orByte word (byte + i) (message.getD i 0)) ctx
    ({ filled with inputIdx := ctx.inputIdx + nbBytes }, message.drop nbBytes)
  else (ctx, message)

/-- The alignment with block boundaries. -/
def blake2bAlignBlock (ctx : Blake2bCtx) (message : Bytes) : Blake2bCtx × Bytes :=
  if ctx.inputIdx &&& 127 ≠ 0 then
    let nbWords := min (gap ctx.inputIdx 128) message.length >>> 3
    ({ ctx.loadWords (ctx.inputIdx >>> 3) message nbWords with
        inputIdx := ctx.inputIdx + (nbWords <<< 3) },
      message.drop (nbWords <<< 3))
  else (ctx, message)

/-- One round of the loop over the blocks: a full buffer is compressed only now
that more input follows. -/
def blake2bBlock (ctx : Blake2bCtx) (block : Bytes) : Blake2bCtx :=
  let ctx := if ctx.inputIdx = 128 then blake2bCompress ctx false else ctx
  { ctx with input := load64LeBuf block 16, inputIdx := 128 }

/-- What is left behind the blocks: whole words first, then bytes. -/
def blake2bRest (ctx : Blake2bCtx) (message : Bytes) : Blake2bCtx :=
  if message.length ≠ 0 then
    let ctx := if ctx.inputIdx = 128 then { blake2bCompress ctx false with inputIdx := 0 } else ctx
    let ctx := if ctx.inputIdx = 0 then { ctx with input := List.replicate 16 0 } else ctx
    let nbWords := message.length >>> 3
    let ctx := { ctx.loadWords 0 message nbWords with inputIdx := ctx.inputIdx + (nbWords <<< 3) }
    (message.drop (nbWords <<< 3)).foldl
      (fun ctx b =>
        { ctx.orByte (ctx.inputIdx >>> 3) (ctx.inputIdx &&& 7) b with
          inputIdx := ctx.inputIdx + 1 }) ctx
  else ctx

/-- `crypto_blake2b_update`. -/
def cryptoBlake2bUpdate (ctx : Blake2bCtx) (message : Bytes) : Blake2bCtx :=
  if message.length = 0 then ctx
  else
    let (ctx, message) := blake2bAlignWord ctx message
    let (ctx, message) := blake2bAlignBlock ctx message
    let nbBlocks := message.length >>> 7
    let ctx := foldBlocks 128 blake2bBlock nbBlocks ctx message
    blake2bRest ctx (message.drop (nbBlocks <<< 7))

/-- `crypto_blake2b_final`: whole words, then the bytes of the last one. -/
def cryptoBlake2bFinal (ctx : Blake2bCtx) : Bytes :=
  let ctx := blake2bCompress ctx true
  let hashSize := min ctx.hashSize 64
  let nbWords := hashSize >>> 3
  store64LeBuf (ctx.hash.toList.take nbWords) ++
    (List.range' (nbWords <<< 3) (hashSize - nbWords <<< 3)).map fun i =>
      ((ctx.hash.toList.getD (i >>> 3) 0 >>> UInt64.ofNat (8 * (i &&& 7))) &&& 0xff).toUInt8

/-- `crypto_blake2b_keyed`. -/
def cryptoBlake2bKeyed (hashSize : Nat) (key message : Bytes) : Bytes :=
  cryptoBlake2bFinal (cryptoBlake2bUpdate (cryptoBlake2bKeyedInit hashSize key) message)

/-- `crypto_blake2b`. -/
def cryptoBlake2b (hashSize : Nat) (message : Bytes) : Bytes :=
  cryptoBlake2bKeyed hashSize [] message

/-! ## The hash of a message, block by block -/

/-- One block that is not the last: the hash, and the number of bytes so far. -/
def blake2bStep (s : Vector UInt64 8 × Nat) (block : Bytes) : Vector UInt64 8 × Nat :=
  (blake2bMix s.1 (UInt64.ofNat (s.2 + 128)) (UInt64.ofNat ((s.2 + 128) / 2 ^ 64))
    (load64LeBuf block 16) false, s.2 + 128)

/-- The first `k` blocks. -/
def blake2bBlocks (hash : Vector UInt64 8) (k : Nat) (data : Bytes) : Vector UInt64 8 :=
  (foldBlocks 128 blake2bStep k (hash, 0) data).1

/-- The blocks in front of the last one; a block that may be the last one is not among them. -/
def frontBlocks (n : Nat) : Nat := (n - 1) / 128

/-- The hash of the whole input: every block but the last under the number of bytes up to its
end, the last one padded with zeros and under the number of all bytes. -/
def blake2bHash (hash : Vector UInt64 8) (data : Bytes) : Vector UInt64 8 :=
  let last := data.drop (128 * frontBlocks data.length)
  blake2bMix (blake2bBlocks hash (frontBlocks data.length) data) (UInt64.ofNat data.length)
    (UInt64.ofNat (data.length / 2 ^ 64))
    (load64LeBuf (last ++ List.replicate (128 - last.length) 0) 16) true

theorem foldBlocks_counter (hash : Vector UInt64 8) (k : Nat) (data : Bytes) :
    (foldBlocks 128 blake2bStep k (hash, 0) data).2 = 128 * k := by
  induction k with
  | zero => rfl
  | succ k ih =>
      rw [foldBlocks_concat]
      show (foldBlocks 128 blake2bStep k (hash, 0) data).2 + 128 = _
      rw [ih]
      rfl

theorem blake2bBlocks_succ (hash : Vector UInt64 8) (k : Nat) (data : Bytes) :
    blake2bBlocks hash (k + 1) data =
      blake2bMix (blake2bBlocks hash k data) (UInt64.ofNat (128 * (k + 1)))
        (UInt64.ofNat (128 * (k + 1) / 2 ^ 64)) (load64LeBuf (slice data (128 * k) 128) 16) false := by
  have hcounter := foldBlocks_counter hash k data
  rw [blake2bBlocks, foldBlocks_concat, blake2bStep, hcounter]
  rfl

theorem blake2bBlocks_append (hash : Vector UInt64 8) {k : Nat} {data : Bytes} (rest : Bytes)
    (h : 128 * k ≤ data.length) :
    blake2bBlocks hash k (data ++ rest) = blake2bBlocks hash k data := by
  rw [blake2bBlocks, foldBlocks_append rest h]
  rfl

/-! ## The context -/

/-- The two words of the offset count one number. -/
theorem offset_add (t : Nat) {y : Nat} (hy : y < 2 ^ 64) :
    UInt64.ofNat t + UInt64.ofNat y = UInt64.ofNat (t + y) ∧
      (if UInt64.ofNat t + UInt64.ofNat y < UInt64.ofNat y
        then UInt64.ofNat (t / 2 ^ 64) + 1 else UInt64.ofNat (t / 2 ^ 64)) =
        UInt64.ofNat ((t + y) / 2 ^ 64) := by
  have hsum : UInt64.ofNat t + UInt64.ofNat y = UInt64.ofNat (t + y) := (UInt64.ofNat_add ..).symm
  have hcarry : UInt64.ofNat (t + y) < UInt64.ofNat y ↔ (t + y) % 2 ^ 64 < y := by
    rw [UInt64.lt_iff_toNat_lt, UInt64.toNat_ofNat', UInt64.toNat_ofNat', Nat.mod_eq_of_lt hy]
  refine ⟨hsum, ?_⟩
  rw [hsum]
  by_cases h : (t + y) % 2 ^ 64 < y
  · have hnext : (t + y) / 2 ^ 64 = t / 2 ^ 64 + 1 := by omega
    rw [if_pos (hcarry.mpr h), hnext, UInt64.ofNat_add]
    rfl
  · have hsame : (t + y) / 2 ^ 64 = t / 2 ^ 64 := by omega
    rw [if_neg (mt hcarry.mp h), hsame]

/-- `k` blocks of the input are compressed. -/
structure Blake2bCtx.Compressed (ctx : Blake2bCtx) (hash : Vector UInt64 8) (hashSize : Nat)
    (data : Bytes) (k : Nat) : Prop where
  hash : ctx.hash = blake2bBlocks hash k data
  offset0 : ctx.inputOffset0 = UInt64.ofNat (128 * k)
  offset1 : ctx.inputOffset1 = UInt64.ofNat (128 * k / 2 ^ 64)
  size : ctx.input.length = 16
  hashSize : ctx.hashSize = hashSize
  front : 128 * k ≤ data.length

/-- `k` blocks are compressed, and what stands behind them is buffered. -/
structure Blake2bCtx.Buffered (ctx : Blake2bCtx) (hash : Vector UInt64 8) (hashSize : Nat)
    (data : Bytes) (k : Nat) : Prop extends ctx.Compressed hash hashSize data k where
  idx : ctx.inputIdx = data.length - 128 * k
  holds : HoldsBytes ctx.input (data.drop (128 * k))

/-- The context has absorbed the input `data`: no block that may be the last is compressed. -/
def Blake2bCtx.Absorbed (ctx : Blake2bCtx) (hash : Vector UInt64 8) (hashSize : Nat)
    (data : Bytes) : Prop := ctx.Buffered hash hashSize data (frontBlocks data.length)

namespace Blake2bCtx

variable {ctx : Blake2bCtx} {hash : Vector UInt64 8} {hashSize : Nat} {data : Bytes}

theorem Compressed.append {k : Nat} (h : ctx.Compressed hash hashSize data k) (rest : Bytes) :
    ctx.Compressed hash hashSize (data ++ rest) k where
  hash := by
    rw [blake2bBlocks_append hash rest h.front]
    exact h.hash
  offset0 := h.offset0
  offset1 := h.offset1
  size := h.size
  hashSize := h.hashSize
  front := by
    have := h.front
    rw [List.length_append]
    omega

/-- A full buffer is compressed. -/
theorem Compressed.next {k : Nat} (h : ctx.Compressed hash hashSize data k)
    (hidx : ctx.inputIdx = 128) (hfront : 128 * (k + 1) ≤ data.length)
    (hinput : HoldsBytes ctx.input (slice data (128 * k) 128)) :
    (blake2bCompress ctx false).Compressed hash hashSize data (k + 1) := by
  obtain ⟨hlow, hhigh⟩ := offset_add (128 * k) (y := 128) (by decide)
  have hlen : (slice data (128 * k) 128).length = 128 := slice_length (by omega)
  have hwords := hinput.words h.size
  rw [hlen, Nat.sub_self, List.replicate_zero, List.append_nil] at hwords
  constructor
  · show blake2bMix ctx.hash (ctx.inputOffset0 + UInt64.ofNat ctx.inputIdx) _ ctx.input false = _
    rw [hidx, h.offset0, h.offset1, hhigh, hlow, blake2bBlocks_succ, ← hwords, h.hash]
    rfl
  · show ctx.inputOffset0 + UInt64.ofNat ctx.inputIdx = _
    rw [hidx, h.offset0, hlow]
    rfl
  · show (if ctx.inputOffset0 + UInt64.ofNat ctx.inputIdx < UInt64.ofNat ctx.inputIdx
      then ctx.inputOffset1 + 1 else ctx.inputOffset1) = _
    rw [hidx, h.offset0, h.offset1, hhigh]
    rfl
  · exact h.size
  · exact h.hashSize
  · exact hfront

/-- The buffer is the last block as soon as something is in it. -/
theorem Buffered.absorbed {k : Nat} (h : ctx.Buffered hash hashSize data k)
    (hlast : 128 * k < data.length ∧ data.length ≤ 128 * (k + 1) ∨ data.length = 0 ∧ k = 0) :
    ctx.Absorbed hash hashSize data := by
  have hk : frontBlocks data.length = k := by
    rw [frontBlocks]
    omega
  rw [Absorbed, hk]
  exact h

/-- Bytes that fit behind the others are buffered. -/
theorem Buffered.fill {k : Nat} (h : ctx.Buffered hash hashSize data k) {part : Bytes}
    {input : List UInt64} (hsize : input.length = 16)
    (hinput : HoldsBytes input (data.drop (128 * k) ++ part)) :
    ({ ctx with input := input, inputIdx := ctx.inputIdx + part.length } : Blake2bCtx).Buffered
      hash hashSize (data ++ part) k := by
  have hfront := h.front
  constructor
  · exact { h.toCompressed.append part with size := hsize }
  · show ctx.inputIdx + part.length = _
    rw [h.idx, List.length_append]
    omega
  · rw [List.drop_append_of_le_length h.front]
    exact hinput

theorem Buffered.rest_length {k : Nat} (h : ctx.Buffered hash hashSize data k) :
    (data.drop (128 * k)).length = ctx.inputIdx := by
  rw [List.length_drop, h.idx]

/-! ## The steps of an update -/

/-- The bytes of the first loop go into one word. -/
theorem foldl_orByte {bs message : Bytes} {word byte : Nat} (hsize : ctx.input.length = 16)
    (hword : word < 16) (hlen : bs.length = 8 * word + byte) (hholds : HoldsBytes ctx.input bs)
    {n : Nat} (hn : byte + n ≤ 8) (hm : n ≤ message.length) :
    ∃ input, (List.range n).foldl
          (fun ctx i => ctx.orByte word (byte + i) (message.getD i 0)) ctx = { ctx with input } ∧
      input.length = 16 ∧ HoldsBytes input (bs ++ message.take n) := by
  induction n with
  | zero =>
      refine ⟨ctx.input, rfl, hsize, ?_⟩
      rw [List.take_zero, List.append_nil]
      exact hholds
  | succ n ih =>
      obtain ⟨input, hfold, hsize', hholds'⟩ := ih (by omega) (by omega)
      have hnext : message.take (n + 1) = message.take n ++ [message.getD n 0] := by
        rw [List.take_add_one, List.getD_eq_getElem _ _ (by omega),
          List.getElem?_eq_getElem (by omega)]
        rfl
      rw [List.range_succ, List.foldl_append, hfold]
      refine ⟨_, rfl, by rw [List.length_set]; exact hsize', ?_⟩
      rw [hnext, ← List.append_assoc]
      apply hholds'.orByte (by omega) (by omega)
      rw [List.length_append, List.length_take_of_le (by omega)]
      omega

/-- The bytes of the last loop go where `input_idx` points. -/
theorem foldl_putByte {bs : Bytes} (message : Bytes) (hsize : ctx.input.length = 16)
    (hidx : ctx.inputIdx = bs.length) (hholds : HoldsBytes ctx.input bs)
    (hfits : bs.length + message.length ≤ 128) :
    ∃ input, message.foldl
          (fun ctx b => { ctx.orByte (ctx.inputIdx >>> 3) (ctx.inputIdx &&& 7) b with
            inputIdx := ctx.inputIdx + 1 }) ctx =
        { ctx with input, inputIdx := ctx.inputIdx + message.length } ∧
      input.length = 16 ∧ HoldsBytes input (bs ++ message) := by
  induction message generalizing ctx bs with
  | nil =>
      refine ⟨ctx.input, rfl, hsize, ?_⟩
      rw [List.append_nil]
      exact hholds
  | cons b message ih =>
      rw [List.length_cons] at hfits
      have hword : ctx.inputIdx >>> 3 = bs.length / 8 := by
        rw [hidx]
        exact Nat.shiftRight_eq_div_pow ..
      have hbyte : ctx.inputIdx &&& 7 = bs.length % 8 := by
        rw [hidx]
        exact Nat.and_two_pow_sub_one_eq_mod bs.length 3
      have hlen : bs.length = 8 * (bs.length / 8) + bs.length % 8 := (Nat.div_add_mod _ _).symm
      have hput := hholds.orByte (by omega) (Nat.mod_lt _ (by decide)) hlen b
      rw [← hword, ← hbyte] at hput
      obtain ⟨input, hfold, hsize', hholds'⟩ := ih
        (show ({ ctx.orByte (ctx.inputIdx >>> 3) (ctx.inputIdx &&& 7) b with
          inputIdx := ctx.inputIdx + 1 } : Blake2bCtx).input.length = 16 by
            rw [orByte, List.length_set]; exact hsize)
        (show ctx.inputIdx + 1 = (bs ++ [b]).length by rw [List.length_append, hidx]; rfl) hput
        (by rw [List.length_append, List.length_singleton]; omega)
      refine ⟨input, ?_, hsize', ?_⟩
      · rw [List.foldl_cons, hfold, List.length_cons, Nat.add_comm message.length,
          ← Nat.add_assoc]
        rfl
      · rw [List.append_cons]
        exact hholds'

theorem gap_pow {x k : Nat} (hk : k < 64) (hx : x % 2 ^ k ≠ 0) :
    gap x (2 ^ k) = 2 ^ k - x % 2 ^ k := by
  rw [gap_eq x hk, Nat.mod_eq_of_lt]
  have := Nat.two_pow_pos k
  omega

/-- After the alignment the buffer ends with a word, or nothing is left. -/
theorem Buffered.alignWord {k : Nat} (h : ctx.Buffered hash hashSize data k)
    (hidx : ctx.inputIdx ≤ 128) (message : Bytes) :
    ∃ ctx' part rest, blake2bAlignWord ctx message = (ctx', rest) ∧ message = part ++ rest ∧
      ctx'.Buffered hash hashSize (data ++ part) k ∧ ctx'.inputIdx ≤ 128 ∧
      (ctx'.inputIdx % 8 = 0 ∨ rest = []) := by
  have hbyte : ctx.inputIdx &&& 7 = ctx.inputIdx % 8 := Nat.and_two_pow_sub_one_eq_mod _ 3
  have hword : ctx.inputIdx >>> 3 = ctx.inputIdx / 8 := Nat.shiftRight_eq_div_pow ..
  unfold blake2bAlignWord
  rw [hbyte, hword]
  by_cases haligned : ctx.inputIdx % 8 ≠ 0
  · have hgap : gap ctx.inputIdx 8 = 8 - ctx.inputIdx % 8 := gap_pow (k := 3) (by omega) haligned
    rw [if_pos haligned, hgap]
    generalize hn : min (8 - ctx.inputIdx % 8) message.length = n
    have hword : ctx.inputIdx / 8 < 16 := by omega
    have hrest : (data.drop (128 * k)).length = 8 * (ctx.inputIdx / 8) + ctx.inputIdx % 8 := by
      rw [h.rest_length]
      omega
    have hroom : ctx.inputIdx % 8 + n ≤ 8 := by omega
    have htaken : n ≤ message.length := by omega
    obtain ⟨input, hfold, hsize, hholds⟩ := foldl_orByte h.size hword hrest h.holds hroom htaken
    have htake : (message.take n).length = n := List.length_take_of_le (by omega)
    have hfill := h.fill hsize hholds
    rw [htake] at hfill
    simp only [hfold]
    refine ⟨_, message.take n, _, rfl, (List.take_append_drop n message).symm, hfill, ?_, ?_⟩
    · show ctx.inputIdx + n ≤ 128
      omega
    · by_cases hall : message.length ≤ n
      · exact .inr (List.drop_eq_nil_of_le hall)
      · left
        show (ctx.inputIdx + n) % 8 = 0
        omega
  · rw [if_neg haligned]
    refine ⟨ctx, [], message, rfl, rfl, ?_, hidx, .inl (by omega)⟩
    rw [List.append_nil]
    exact h

/-- Words from the message behind the buffer. -/
theorem Buffered.loadWords {k : Nat} (h : ctx.Buffered hash hashSize data k)
    (hmod : ctx.inputIdx % 8 = 0) {n : Nat} {message : Bytes} (hn : 8 * n ≤ message.length)
    (hfits : ctx.inputIdx + 8 * n ≤ 128) :
    ({ ctx.loadWords (ctx.inputIdx / 8) message n with
        inputIdx := ctx.inputIdx + 8 * n } : Blake2bCtx).Buffered hash hashSize
      (data ++ message.take (8 * n)) k := by
  have hrest : (data.drop (128 * k)).length = 8 * (ctx.inputIdx / 8) := by
    rw [h.rest_length]
    omega
  have hholds := h.holds.loadWords hrest (n := n) (by rw [h.size]; omega) hn
  have hsize : (ctx.loadWords (ctx.inputIdx / 8) message n).input.length = 16 := by
    rw [Blake2bCtx.loadWords, List.length_append, List.length_append, load64LeBuf_length,
      List.length_take_of_le (by rw [h.size]; omega), List.length_drop, h.size]
    omega
  have hfill := h.fill hsize hholds
  rw [List.length_take_of_le hn] at hfill
  exact hfill

theorem loadWords_zero (ctx : Blake2bCtx) (word : Nat) (message : Bytes) :
    ctx.loadWords word message 0 = ctx := by
  have hinput : ctx.input.take word ++ [] ++ ctx.input.drop word = ctx.input := by
    rw [List.append_nil, List.take_append_drop]
  show { ctx with input := ctx.input.take word ++ [] ++ ctx.input.drop word } = ctx
  rw [hinput]

/-- After the alignment the buffer is empty or full, or what is left is shorter than a word. -/
theorem Buffered.alignBlock {k : Nat} (h : ctx.Buffered hash hashSize data k)
    (hidx : ctx.inputIdx ≤ 128) {message : Bytes} (hword : ctx.inputIdx % 8 = 0 ∨ message = []) :
    ∃ ctx' part rest, blake2bAlignBlock ctx message = (ctx', rest) ∧ message = part ++ rest ∧
      ctx'.Buffered hash hashSize (data ++ part) k ∧
      (ctx'.inputIdx % 128 = 0 ∧ ctx'.inputIdx ≤ 128 ∨
        rest.length < 8 ∧ 0 < ctx'.inputIdx ∧ ctx'.inputIdx + rest.length ≤ 128) := by
  have hblock : ctx.inputIdx &&& 127 = ctx.inputIdx % 128 := Nat.and_two_pow_sub_one_eq_mod _ 7
  have hshift : ctx.inputIdx >>> 3 = ctx.inputIdx / 8 := Nat.shiftRight_eq_div_pow ..
  unfold blake2bAlignBlock
  rw [hblock, hshift]
  by_cases haligned : ctx.inputIdx % 128 ≠ 0
  · have hgap : gap ctx.inputIdx 128 = 128 - ctx.inputIdx % 128 :=
      gap_pow (k := 7) (by omega) haligned
    rw [if_pos haligned, hgap, Nat.shiftRight_eq_div_pow]
    generalize hn : min (128 - ctx.inputIdx % 128) message.length / 2 ^ 3 = n
    have hbytes : n <<< 3 = 8 * n := by
      rw [Nat.shiftLeft_eq]
      omega
    simp only [hbytes]
    obtain hmod | hnil := hword
    · have hleft : (message.drop (8 * n)).length = message.length - 8 * n := List.length_drop ..
      refine ⟨_, message.take (8 * n), _, rfl, (List.take_append_drop _ message).symm,
        h.loadWords hmod (by omega) (by omega), ?_⟩
      show (ctx.inputIdx + 8 * n) % 128 = 0 ∧ ctx.inputIdx + 8 * n ≤ 128 ∨
        (message.drop (8 * n)).length < 8 ∧ 0 < ctx.inputIdx + 8 * n ∧
          ctx.inputIdx + 8 * n + (message.drop (8 * n)).length ≤ 128
      omega
    · subst hnil
      obtain rfl : n = 0 := by
        rw [List.length_nil] at hn
        omega
      rw [loadWords_zero]
      refine ⟨ctx, [], [], rfl, rfl, ?_, .inr ⟨by decide, by omega, hidx⟩⟩
      rw [List.append_nil]
      exact h
  · rw [if_neg haligned]
    refine ⟨ctx, [], message, rfl, rfl, ?_, .inl ⟨by omega, hidx⟩⟩
    rw [List.append_nil]
    exact h

/-- An empty or full buffer, emptied. -/
theorem Buffered.flush {k : Nat} (h : ctx.Buffered hash hashSize data k)
    (hidx : ctx.inputIdx % 128 = 0 ∧ ctx.inputIdx ≤ 128) :
    ∃ k', data.length = 128 * k' ∧
      (if ctx.inputIdx = 128 then blake2bCompress ctx false else ctx).Compressed hash hashSize
        data k' := by
  have hfront := h.front
  have hlen := h.idx
  by_cases hfull : ctx.inputIdx = 128
  · refine ⟨k + 1, by omega, ?_⟩
    have hall : slice data (128 * k) 128 = data.drop (128 * k) := by
      apply List.take_of_length_le
      rw [h.rest_length, hfull]
    rw [if_pos hfull]
    exact h.next hfull (by omega) (by rw [hall]; exact h.holds)
  · refine ⟨k, by omega, ?_⟩
    rw [if_neg hfull]
    exact h.toCompressed

/-- One round of the loop over the blocks. -/
theorem Buffered.block {k : Nat} (h : ctx.Buffered hash hashSize data k)
    (hidx : ctx.inputIdx % 128 = 0 ∧ ctx.inputIdx ≤ 128) {block : Bytes} (hblock : block.length = 128) :
    ∃ k', (blake2bBlock ctx block).Buffered hash hashSize (data ++ block) k' ∧
      (blake2bBlock ctx block).inputIdx = 128 := by
  obtain ⟨k', hlen, hcompressed⟩ := h.flush hidx
  have hnone : data.drop (128 * k') = [] := List.drop_eq_nil_of_le (Nat.le_of_eq hlen)
  refine ⟨k', ?_, rfl⟩
  constructor
  · exact { hcompressed.append block with size := load64LeBuf_length block 16 }
  · show 128 = _
    rw [List.length_append, hblock, hlen]
    omega
  · rw [List.drop_append_of_le_length (Nat.le_of_eq hlen.symm), hnone, List.nil_append]
    exact HoldsBytes.loaded hblock

/-- The loop over the blocks. -/
theorem Buffered.blocks {k : Nat} (h : ctx.Buffered hash hashSize data k)
    (hidx : ctx.inputIdx % 128 = 0 ∧ ctx.inputIdx ≤ 128) {n : Nat} {message : Bytes}
    (hn : 128 * n ≤ message.length) :
    ∃ k', (foldBlocks 128 blake2bBlock n ctx message).Buffered hash hashSize
        (data ++ message.take (128 * n)) k' ∧
      (foldBlocks 128 blake2bBlock n ctx message).inputIdx =
        if n = 0 then ctx.inputIdx else 128 := by
  induction n with
  | zero =>
      refine ⟨k, ?_, rfl⟩
      show ctx.Buffered hash hashSize (data ++ []) k
      rw [List.append_nil]
      exact h
  | succ n ih =>
      obtain ⟨k', hbuffered, hidx'⟩ := ih (by omega)
      have hlen : ((message.drop (128 * n)).take 128).length = 128 := by
        rw [List.length_take, List.length_drop]
        omega
      have hempty : (foldBlocks 128 blake2bBlock n ctx message).inputIdx % 128 = 0 ∧
          (foldBlocks 128 blake2bBlock n ctx message).inputIdx ≤ 128 := by
        rw [hidx']
        by_cases hzero : n = 0
        · rw [if_pos hzero]
          exact hidx
        · rw [if_neg hzero]
          decide
      obtain ⟨k'', hnext, hfull⟩ := hbuffered.block hempty hlen
      rw [foldBlocks_concat, Nat.mul_succ, List.take_add, ← List.append_assoc]
      exact ⟨k'', hnext, hfull⟩

/-- The bytes behind the last word. -/
theorem Buffered.putBytes {k : Nat} (h : ctx.Buffered hash hashSize data k) {message : Bytes}
    (hfits : ctx.inputIdx + message.length ≤ 128) :
    (message.foldl
      (fun ctx b => { ctx.orByte (ctx.inputIdx >>> 3) (ctx.inputIdx &&& 7) b with
        inputIdx := ctx.inputIdx + 1 }) ctx).Buffered hash hashSize (data ++ message) k ∧
    (message.foldl
      (fun ctx b => { ctx.orByte (ctx.inputIdx >>> 3) (ctx.inputIdx &&& 7) b with
        inputIdx := ctx.inputIdx + 1 }) ctx).inputIdx = ctx.inputIdx + message.length := by
  obtain ⟨input, hfold, hsize, hholds⟩ := foldl_putByte message h.size h.rest_length.symm h.holds
    (by rw [h.rest_length]; exact hfits)
  rw [hfold]
  exact ⟨h.fill hsize hholds, rfl⟩

/-- What is left behind the blocks is buffered. -/
theorem Buffered.rest {k : Nat} (h : ctx.Buffered hash hashSize data k) {message : Bytes}
    (hne : message.length ≠ 0)
    (hidx : (ctx.inputIdx % 128 = 0 ∧ ctx.inputIdx ≤ 128) ∧ message.length < 128 ∨
      message.length < 8 ∧ 0 < ctx.inputIdx ∧ ctx.inputIdx + message.length ≤ 128) :
    ∃ k', (blake2bRest ctx message).Buffered hash hashSize (data ++ message) k' ∧
      0 < (blake2bRest ctx message).inputIdx ∧ (blake2bRest ctx message).inputIdx ≤ 128 := by
  have hbytes : ∀ n, n <<< 3 = 8 * n := by
    intro n
    rw [Nat.shiftLeft_eq, Nat.mul_comm]
  have hlen : (message.take (8 * (message.length / 2 ^ 3))).length = 8 * (message.length / 2 ^ 3) :=
    List.length_take_of_le (by omega)
  have hdrop : (message.drop (8 * (message.length / 2 ^ 3))).length =
      message.length - 8 * (message.length / 2 ^ 3) := List.length_drop ..
  unfold blake2bRest
  rw [if_pos hne]
  simp only [hbytes, Nat.shiftRight_eq_div_pow message.length 3]
  obtain ⟨hempty, hshort⟩ | ⟨hshort, hpos, hfits⟩ := hidx
  · -- the buffer is emptied, and filled from its start
    obtain ⟨k', hdata, hcompressed⟩ := h.flush hempty
    generalize hctx' : (if ctx.inputIdx = 128 then { blake2bCompress ctx false with inputIdx := 0 }
      else ctx : Blake2bCtx) = ctx'
    have hzero : ctx'.inputIdx = 0 := by
      rw [← hctx']
      by_cases hfull : ctx.inputIdx = 128
      · rw [if_pos hfull]
      · rw [if_neg hfull]
        omega
    have hcompressed' : ctx'.Compressed hash hashSize data k' := by
      rw [← hctx']
      by_cases hfull : ctx.inputIdx = 128
      · rw [if_pos hfull] at hcompressed ⊢
        exact { hcompressed with }
      · rw [if_neg hfull] at hcompressed ⊢
        exact hcompressed
    have hready : ({ ctx' with input := List.replicate 16 0 } : Blake2bCtx).Buffered hash hashSize
        data k' := by
      constructor
      · exact { hcompressed' with size := List.length_replicate }
      · show ctx'.inputIdx = _
        omega
      · rw [List.drop_eq_nil_of_le (Nat.le_of_eq hdata)]
        exact HoldsBytes.zeros 16
    have hwords := hready.loadWords (by show ctx'.inputIdx % 8 = 0; rw [hzero])
      (show 8 * (message.length / 2 ^ 3) ≤ message.length by omega)
      (by show ctx'.inputIdx + _ ≤ 128; omega)
    have hindex : ({ ctx' with input := List.replicate 16 0 } : Blake2bCtx).inputIdx / 8 = 0 := by
      show ctx'.inputIdx / 8 = 0
      rw [hzero]
    rw [hindex] at hwords
    rw [if_pos hzero]
    obtain ⟨hput, hcount⟩ := hwords.putBytes
      (show ctx'.inputIdx + 8 * (message.length / 2 ^ 3) +
        (message.drop (8 * (message.length / 2 ^ 3))).length ≤ 128 by omega)
    rw [List.append_assoc, List.take_append_drop] at hput
    refine ⟨k', hput, ?_⟩
    rw [hcount]
    show 0 < ctx'.inputIdx + 8 * (message.length / 2 ^ 3) + _ ∧
      ctx'.inputIdx + 8 * (message.length / 2 ^ 3) + _ ≤ 128
    omega
  · -- fewer than eight bytes, behind what is there
    have hnone : message.length / 2 ^ 3 = 0 := by omega
    rw [hnone, Nat.mul_zero, List.drop_zero, if_neg (show ¬ctx.inputIdx = 128 by omega),
      if_neg (show ¬ctx.inputIdx = 0 by omega), loadWords_zero]
    obtain ⟨hput, hcount⟩ := h.putBytes hfits
    refine ⟨k, hput, ?_⟩
    show 0 < (List.foldl _ ctx message).inputIdx ∧ (List.foldl _ ctx message).inputIdx ≤ 128
    rw [hcount]
    omega

/-- `crypto_blake2b_update` absorbs its message, however the words and the blocks lie. -/
theorem Absorbed.update (h : ctx.Absorbed hash hashSize data) (message : Bytes) :
    (cryptoBlake2bUpdate ctx message).Absorbed hash hashSize (data ++ message) := by
  unfold cryptoBlake2bUpdate
  by_cases hempty : message.length = 0
  · rw [if_pos hempty, List.eq_nil_of_length_eq_zero hempty, List.append_nil]
    exact h
  · rw [if_neg hempty]
    have hidx : ctx.inputIdx ≤ 128 := by
      rw [h.idx, frontBlocks]
      omega
    obtain ⟨ctx₁, part₁, rest₁, hword, hsplit₁, hbuffered₁, hidx₁, haligned₁⟩ :=
      h.alignWord hidx message
    obtain ⟨ctx₂, part₂, rest₂, hblock, hsplit₂, hbuffered₂, haligned₂⟩ :=
      hbuffered₁.alignBlock hidx₁ haligned₁
    have hwhole : data ++ message = data ++ part₁ ++ part₂ ++ rest₂ := by
      rw [hsplit₁, hsplit₂, List.append_assoc, List.append_assoc]
    have hlength : message.length = part₁.length + part₂.length + rest₂.length := by
      rw [hsplit₁, hsplit₂, List.length_append, List.length_append, Nat.add_assoc]
    -- the buffer is the last block, since something was written
    have hcount := hbuffered₂.idx
    have hfront := h.front
    rw [List.length_append, List.length_append] at hcount
    simp only [hword, hblock, Nat.shiftRight_eq_div_pow, Nat.shiftLeft_eq,
      Nat.mul_comm _ (2 ^ 7)]
    show (blake2bRest (foldBlocks 128 blake2bBlock (rest₂.length / 128) ctx₂ rest₂)
      (rest₂.drop (128 * (rest₂.length / 128)))).Absorbed hash hashSize (data ++ message)
    have hdrop : (rest₂.drop (128 * (rest₂.length / 128))).length = rest₂.length % 128 := by
      rw [List.length_drop]
      omega
    have hdone : ∀ {ctx' : Blake2bCtx} {k : Nat}, ctx'.Buffered hash hashSize (data ++ message) k →
        0 < ctx'.inputIdx → ctx'.inputIdx ≤ 128 → ctx'.Absorbed hash hashSize (data ++ message) := by
      intro ctx' k hbuffered hpos hle
      have hk := hbuffered.idx
      exact hbuffered.absorbed (.inl (by omega))
    obtain ⟨k, hblocks, hready⟩ : ∃ k, (foldBlocks 128 blake2bBlock (rest₂.length / 128) ctx₂
          rest₂).Buffered hash hashSize
          (data ++ part₁ ++ part₂ ++ rest₂.take (128 * (rest₂.length / 128))) k ∧
        (foldBlocks 128 blake2bBlock (rest₂.length / 128) ctx₂ rest₂).inputIdx =
          if rest₂.length / 128 = 0 then ctx₂.inputIdx else 128 := by
      obtain hfull | hshort := haligned₂
      · exact hbuffered₂.blocks hfull (by omega)
      · have hnone : rest₂.length / 128 = 0 := by omega
        rw [hnone, Nat.mul_zero, List.take_zero, List.append_nil]
        exact ⟨_, hbuffered₂, rfl⟩
    generalize foldBlocks 128 blake2bBlock (rest₂.length / 128) ctx₂ rest₂ = ctx₃ at hblocks hready
    by_cases hleft : (rest₂.drop (128 * (rest₂.length / 128))).length = 0
    · have hall : rest₂.take (128 * (rest₂.length / 128)) = rest₂ :=
        List.take_of_length_le (by omega)
      rw [hall, ← hwhole] at hblocks
      rw [blake2bRest, if_neg (not_not.mpr hleft)]
      apply hdone hblocks
      · rw [hready]
        split <;> omega
      · rw [hready]
        split <;> omega
    · obtain ⟨k', hrest, hpos, hle⟩ := hblocks.rest hleft (by
        rw [hready]
        split <;> omega)
      rw [List.append_assoc, List.take_append_drop, ← hwhole] at hrest
      exact hdone hrest hpos hle

end Blake2bCtx

/-! ## The digest -/

/-- The hash `crypto_blake2b_keyed_init` starts from. -/
def blake2bParameters (hashSize keySize : Nat) : Vector UInt64 8 :=
  blake2bIv.set 0 (blake2bIv[0] ^^^
    ((0x01010000 : UInt64) ^^^ (UInt64.ofNat keySize <<< 8) ^^^ UInt64.ofNat hashSize))

/-- The block in front of the message if there is a key. -/
def blake2bKeyBlock (key : Bytes) : Bytes :=
  if key.length > 0 then key ++ List.replicate (128 - key.length) 0 else []

theorem cryptoBlake2bKeyedInit_absorbed (hashSize : Nat) {key : Bytes} (hkey : key.length ≤ 128) :
    (cryptoBlake2bKeyedInit hashSize key).Absorbed (blake2bParameters hashSize key.length) hashSize
      (blake2bKeyBlock key) := by
  unfold cryptoBlake2bKeyedInit blake2bKeyBlock
  by_cases h : key.length > 0
  · have hlen : (key ++ List.replicate (128 - key.length) 0).length = 8 * 16 := by
      rw [List.length_append, List.length_replicate]
      omega
    have hnone : frontBlocks (key ++ List.replicate (128 - key.length) 0).length = 0 := by
      rw [hlen]
      rfl
    rw [if_pos h, if_pos h, Blake2bCtx.Absorbed, hnone]
    constructor
    · exact ⟨rfl, rfl, rfl, load64LeBuf_length .., rfl, Nat.zero_le _⟩
    · show 128 = _
      rw [hlen]
    · exact HoldsBytes.loaded hlen
  · rw [if_neg h, if_neg h]
    constructor
    · exact ⟨rfl, rfl, rfl, rfl, rfl, Nat.zero_le _⟩
    · rfl
    · exact HoldsBytes.zeros 16

theorem store64LeBuf_cons (x : UInt64) (w : List UInt64) :
    store64LeBuf (x :: w) = store64Le x ++ store64LeBuf w := rfl

theorem store64LeBuf_split (w : List UInt64) (q : Nat) :
    (store64LeBuf w).take (8 * q) = store64LeBuf (w.take q) ∧
      (store64LeBuf w).drop (8 * q) = store64LeBuf (w.drop q) := by
  induction q generalizing w with
  | zero => exact ⟨rfl, rfl⟩
  | succ q ih =>
      cases w with
      | nil => exact ⟨List.take_nil, List.drop_nil⟩
      | cons x w =>
          obtain ⟨htake, hdrop⟩ := ih w
          have hsize : 8 * (q + 1) = (store64Le x).length + 8 * q := by
            rw [store64Le_length]
            omega
          rw [store64LeBuf_cons, hsize, List.take_length_add_append, List.drop_length_add_append,
            htake, hdrop]
          exact ⟨rfl, rfl⟩

/-- A byte of a word, shifted out, is the byte that is stored. -/
theorem store64Le_byte (v : UInt64) {i : Nat} (hi : i < 8) :
    (store64Le v)[i]? = some ((v >>> UInt64.ofNat (8 * i)) &&& 0xff).toUInt8 := by
  rw [store64Le_eq, leBytes_getElem? 8 v.toNat hi]
  congr 1
  have hbits : (UInt64.ofNat (8 * i)).toNat % 64 = 8 * i := by
    rw [UInt64.toNat_ofNat']
    omega
  rw [← UInt8.toNat_inj, UInt64.toNat_toUInt8, UInt64.toNat_and, UInt64.toNat_shiftRight, hbits,
    Nat.shiftRight_eq_div_pow, UInt8.toNat_ofNat', Nat.pow_mul]
  show _ = (v.toNat / 256 ^ i &&& 255) % 2 ^ 8
  rw [show 255 = 2 ^ 8 - 1 from rfl, Nat.and_two_pow_sub_one_eq_mod, Nat.mod_mod]

/-- Whole words and then the bytes of the last one: the first bytes of all words. -/
theorem store_prefix (w : List UInt64) {n : Nat} (h : n ≤ 8 * w.length) :
    store64LeBuf (w.take (n >>> 3)) ++
        (List.range' (n >>> 3 <<< 3) (n - n >>> 3 <<< 3)).map (fun i =>
          ((w.getD (i >>> 3) 0 >>> UInt64.ofNat (8 * (i &&& 7))) &&& 0xff).toUInt8) =
      (store64LeBuf w).take n := by
  obtain ⟨q, r, hr, rfl⟩ : ∃ q r, r < 8 ∧ n = 8 * q + r :=
    ⟨n / 8, n % 8, Nat.mod_lt n (by decide), (Nat.div_add_mod n 8).symm⟩
  have hq : (8 * q + r) >>> 3 = q := by
    rw [Nat.shiftRight_eq_div_pow]
    omega
  have hbytes : q <<< 3 = 8 * q := by
    rw [Nat.shiftLeft_eq, Nat.mul_comm]
  obtain ⟨htake, hdrop⟩ := store64LeBuf_split w q
  rw [hq, hbytes, Nat.add_sub_cancel_left, List.take_add, htake, hdrop]
  congr 1
  by_cases hzero : r = 0
  · subst hzero
    rw [List.take_zero]
    rfl
  · have hlast : q < w.length := by omega
    rw [List.drop_eq_getElem_cons hlast, store64LeBuf_cons, List.take_append_of_le_length (by
      rw [store64Le_length]
      omega)]
    apply List.ext_getElem?
    intro i
    rw [List.getElem?_map]
    by_cases hi : i < r
    · have hindex : (8 * q + i) >>> 3 = q := by
        rw [Nat.shiftRight_eq_div_pow]
        omega
      have hbyte : (8 * q + i) &&& 7 = i := by
        rw [show 7 = 2 ^ 3 - 1 from rfl, Nat.and_two_pow_sub_one_eq_mod]
        omega
      rw [List.getElem?_range' hi, List.getElem?_take_of_lt hi, store64Le_byte _ (by omega), Nat.one_mul,
        Option.map_some, hindex, hbyte, List.getD_eq_getElem _ _ hlast]
    · have hshort : ((store64Le w[q]).take r).length ≤ i := by
        rw [List.length_take, store64Le_length]
        omega
      rw [List.getElem?_eq_none (by rw [List.length_range']; omega), List.getElem?_eq_none hshort]
      rfl

/-- `crypto_blake2b_final`. -/
theorem Blake2bCtx.Absorbed.final {ctx : Blake2bCtx} {hash : Vector UInt64 8} {hashSize : Nat}
    {data : Bytes} (h : ctx.Absorbed hash hashSize data) :
    cryptoBlake2bFinal ctx =
      (store64LeBuf (blake2bHash hash data).toList).take (min hashSize 64) := by
  have hfront := h.front
  have hidx : ctx.inputIdx < 2 ^ 64 := by
    rw [h.idx, frontBlocks]
    omega
  have hall : 128 * frontBlocks data.length + ctx.inputIdx = data.length := by
    rw [h.idx]
    omega
  obtain ⟨hlow, hhigh⟩ := offset_add (128 * frontBlocks data.length) hidx
  rw [hall] at hlow hhigh
  have hhash : (blake2bCompress ctx true).hash = blake2bHash hash data := by
    show blake2bMix ctx.hash (ctx.inputOffset0 + UInt64.ofNat ctx.inputIdx)
      (if ctx.inputOffset0 + UInt64.ofNat ctx.inputIdx < UInt64.ofNat ctx.inputIdx
        then ctx.inputOffset1 + 1 else ctx.inputOffset1) ctx.input true = _
    rw [h.offset0, h.offset1, hhigh, hlow, h.hash, h.holds.words h.size]
    rfl
  have hsize : min hashSize 64 ≤ 8 * (blake2bHash hash data).toList.length := by
    rw [Vector.length_toList]
    omega
  rw [← store_prefix _ hsize, ← hhash, ← h.hashSize]
  rfl

end Ctunnel
