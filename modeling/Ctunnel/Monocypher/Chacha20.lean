import Ctunnel.Lib.Keystream
import Ctunnel.Monocypher.Words
import Ctunnel.Types

/-!
# ChaCha20 (`third_party/monocypher/src/monocypher.c`)

The rounds, HChaCha20 and the stream functions over them. The loop over the
whole blocks and the code of the incomplete last block write the text under one
keystream, whose block `i` belongs to the counter `ctr + i`
(`cryptoChacha20Djb_eq`); the two words the counter is kept in carry.
-/

namespace Ctunnel

open Lib

/-- The words of `input` and `pool`. -/
abbrev stateWords : Nat := 16

instance : NeZero stateWords := ⟨by decide⟩

/-- `rotl32`. -/
def rotl32 (x n : UInt32) : UInt32 := (x <<< n) ^^^ (x >>> (32 - n))

/-- `QUARTERROUND`. -/
def quarterRound (a b c d : Fin stateWords) (t : Vector UInt32 stateWords) : Vector UInt32 stateWords :=
  let t := t.set a (t[a] + t[b])
  let t := t.set d (rotl32 (t[d] ^^^ t[a]) 16)
  let t := t.set c (t[c] + t[d])
  let t := t.set b (rotl32 (t[b] ^^^ t[c]) 12)
  let t := t.set a (t[a] + t[b])
  let t := t.set d (rotl32 (t[d] ^^^ t[a]) 8)
  let t := t.set c (t[c] + t[d])
  t.set b (rotl32 (t[b] ^^^ t[c]) 7)

/-- The body of the loop of `chacha20_rounds`: a column round and a diagonal
round. -/
def chacha20DoubleRound (t : Vector UInt32 stateWords) : Vector UInt32 stateWords :=
  let t := quarterRound 0 4 8 12 t
  let t := quarterRound 1 5 9 13 t
  let t := quarterRound 2 6 10 14 t
  let t := quarterRound 3 7 11 15 t
  let t := quarterRound 0 5 10 15 t
  let t := quarterRound 1 6 11 12 t
  let t := quarterRound 2 7 8 13 t
  quarterRound 3 4 9 14 t

/-- `chacha20_rounds`. -/
def chacha20Rounds (input : Vector UInt32 stateWords) : Vector UInt32 stateWords := chacha20DoubleRound^[10] input

/-- `chacha20_constant`. -/
def chacha20Constant : Bytes := ascii "expand 32-byte k"

/-- The sixteen words of the constant, a key and four more. -/
def chacha20Words (key : Octets 32) (w12 w13 w14 w15 : UInt32) : Vector UInt32 stateWords :=
  #v[load32Le chacha20Constant, load32Le (chacha20Constant.drop 4),
    load32Le (chacha20Constant.drop 8), load32Le (chacha20Constant.drop 12),
    load32Le key.toList, load32Le (key.toList.drop 4), load32Le (key.toList.drop 8),
    load32Le (key.toList.drop 12), load32Le (key.toList.drop 16), load32Le (key.toList.drop 20),
    load32Le (key.toList.drop 24), load32Le (key.toList.drop 28), w12, w13, w14, w15]

/-- `crypto_chacha20_h`. -/
def cryptoChacha20H (key : Octets 32) (input : Octets 16) : Octets 32 :=
  let block := chacha20Rounds (chacha20Words key (load32Le input.toList)
    (load32Le (input.toList.drop 4)) (load32Le (input.toList.drop 8))
    (load32Le (input.toList.drop 12)))
  ⟨store32LeBuf [block[0], block[1], block[2], block[3]] ++
    store32LeBuf [block[12], block[13], block[14], block[15]], rfl⟩

/-- `input` of `crypto_chacha20_djb` at the counter `ctr`. -/
def chacha20Input (key : Octets 32) (nonce : Octets 8) (ctr : UInt64) : Vector UInt32 stateWords :=
  chacha20Words key ctr.toUInt32 (ctr >>> 32).toUInt32 (load32Le nonce.toList)
    (load32Le (nonce.toList.drop 4))

/-- The two inner loops over the words of a block, with a text and without. -/
def chacha20Text (pool input : Vector UInt32 stateWords) (plainText : Option Bytes) : Bytes :=
  (List.finRange stateWords).flatMap fun (j : Fin stateWords) =>
    let p := pool[j] + input[j]
    match plainText with
    | some text => store32Le (p ^^^ load32Le (text.drop (4 * j)))
    | none => store32Le p

/-- `input[12]++`, with the carry into `input[13]`. -/
def chacha20Count (input : Vector UInt32 stateWords) : Vector UInt32 stateWords :=
  let input := input.set 12 (input[12] + 1)
  if input[12] = 0 then input.set 13 (input[13] + 1) else input

/-- The loop over the whole blocks. -/
def chacha20Blocks : Nat → Vector UInt32 stateWords → Option Bytes → Bytes × Vector UInt32 stateWords
  | 0, input, _ => ([], input)
  | n + 1, input, plainText =>
      let text := chacha20Text (chacha20Rounds input) input plainText
      let rest := chacha20Blocks n (chacha20Count input) (plainText.map (List.drop 64))
      (text ++ rest.1, rest.2)

/-- The last, incomplete block. -/
def chacha20Last (input : Vector UInt32 stateWords) (plainText : Bytes) (textSize : Nat) : Bytes :=
  let pool := chacha20Rounds input
  let tmp := (List.finRange stateWords).flatMap fun (i : Fin stateWords) => store32Le (pool[i] + input[i])
  (List.range textSize).map fun i => tmp.getD i 0 ^^^ plainText.getD i 0

/-- `crypto_chacha20_djb`: the text and the next counter. Without a text the
last block is combined with `zero`. -/
def cryptoChacha20Djb (plainText : Option Bytes) (textSize : Nat) (key : Octets 32)
    (nonce : Octets 8) (ctr : UInt64) : Bytes × UInt64 :=
  let nbBlocks := textSize >>> 6
  let rest := textSize &&& 63
  let whole := chacha20Blocks nbBlocks (chacha20Input key nonce ctr) plainText
  let input := whole.2
  let last :=
    if rest > 0 then
      chacha20Last input
        ((plainText.map (List.drop (64 * nbBlocks))).getD (List.replicate 128 0)) rest
    else []
  (whole.1 ++ last,
    input[12].toUInt64 + (input[13].toUInt64 <<< 32) + (if rest > 0 then 1 else 0))

/-- Block `i` of the keystream that starts at `ctr`. -/
def chacha20Block (key : Octets 32) (nonce : Octets 8) (ctr : UInt64) (i : Nat) : Bytes :=
  let input := chacha20Input key nonce (ctr + UInt64.ofNat i)
  chacha20Text (chacha20Rounds input) input none

/-! ## The counter -/

/-- The carry between the two counter words is the carry of a 64-bit counter. -/
theorem counter_carry (ctr : UInt64) :
    ((ctr + 1) >>> 32).toUInt32 =
      if (ctr + 1).toUInt32 = 0 then (ctr >>> 32).toUInt32 + 1 else (ctr >>> 32).toUInt32 := by
  have hctr := ctr.toNat_lt
  have hsum : (ctr + 1).toNat = (ctr.toNat + 1) % 2 ^ 64 := UInt64.toNat_add ctr 1
  have hhigh : ∀ x : UInt64, (x >>> 32).toUInt32.toNat = x.toNat / 2 ^ 32 % 2 ^ 32 := by
    intro x
    rw [UInt64.toNat_toUInt32, UInt64.toNat_shiftRight]
    show x.toNat >>> 32 % 2 ^ 32 = _
    rw [Nat.shiftRight_eq_div_pow]
  have hzero : (ctr + 1).toUInt32 = 0 ↔ (ctr + 1).toNat % 2 ^ 32 = 0 := by
    rw [← UInt32.toNat_inj, UInt64.toNat_toUInt32]
    rfl
  by_cases h : (ctr + 1).toUInt32 = 0
  · have hlow := hzero.mp h
    rw [if_pos h, ← UInt32.toNat_inj, UInt32.toNat_add, hhigh, hhigh, hsum]
    show _ = (ctr.toNat / 2 ^ 32 % 2 ^ 32 + 1) % 2 ^ 32
    omega
  · have hlow := mt hzero.mpr h
    rw [if_neg h, ← UInt32.toNat_inj, hhigh, hhigh, hsum]
    omega

theorem chacha20Count_input (key : Octets 32) (nonce : Octets 8) (ctr : UInt64) :
    chacha20Count (chacha20Input key nonce ctr) = chacha20Input key nonce (ctr + 1) := by
  have hlow : (ctr + 1).toUInt32 = ctr.toUInt32 + 1 := UInt64.toUInt32_add ctr 1
  have hcarry := counter_carry ctr
  rw [hlow] at hcarry
  rw [chacha20Input, chacha20Input, hlow, hcarry]
  show (if ctr.toUInt32 + 1 = 0 then _ else _) = _
  by_cases h : ctr.toUInt32 + 1 = 0
  · rw [if_pos h, if_pos h]
    rfl
  · rw [if_neg h, if_neg h]
    rfl

/-- The two counter words are read back as one. -/
theorem counter_words (ctr : UInt64) :
    ctr.toUInt32.toUInt64 + ((ctr >>> 32).toUInt32.toUInt64 <<< 32) = ctr := by
  have hctr := ctr.toNat_lt
  have hhigh : (ctr >>> 32).toUInt32.toUInt64.toNat = ctr.toNat / 2 ^ 32 := by
    rw [UInt32.toNat_toUInt64, UInt64.toNat_toUInt32, UInt64.toNat_shiftRight]
    show ctr.toNat >>> 32 % 2 ^ 32 = _
    rw [Nat.shiftRight_eq_div_pow]
    omega
  have hshift : ((ctr >>> 32).toUInt32.toUInt64 <<< (32 : UInt64)).toNat =
      ctr.toNat / 2 ^ 32 * 2 ^ 32 := by
    rw [UInt64.toNat_shiftLeft, hhigh, Nat.shiftLeft_eq]
    show ctr.toNat / 2 ^ 32 * 2 ^ 32 % 2 ^ 64 = _
    omega
  rw [← UInt64.toNat_inj, UInt64.toNat_add, hshift, UInt32.toNat_toUInt64, UInt64.toNat_toUInt32]
  omega

/-! ## The text of a block -/

theorem store32Le_xor (x y : UInt32) :
    store32Le (x ^^^ y) = xorBytes (store32Le x) (store32Le y) := by
  show [(x ^^^ y).toUInt8, ((x ^^^ y) >>> 8).toUInt8, ((x ^^^ y) >>> 16).toUInt8,
      ((x ^^^ y) >>> 24).toUInt8] =
    [x.toUInt8 ^^^ y.toUInt8, (x >>> 8).toUInt8 ^^^ (y >>> 8).toUInt8,
      (x >>> 16).toUInt8 ^^^ (y >>> 16).toUInt8, (x >>> 24).toUInt8 ^^^ (y >>> 24).toUInt8]
  rw [UInt32.shiftRight_xor, UInt32.shiftRight_xor, UInt32.shiftRight_xor, UInt32.toUInt8_xor,
    UInt32.toUInt8_xor, UInt32.toUInt8_xor, UInt32.toUInt8_xor]

theorem store32Le_load32Le {s : Bytes} (h : 4 ≤ s.length) : store32Le (load32Le s) = s.take 4 := by
  have hlen : (s.take 4).length = 4 := by
    rw [List.length_take]
    omega
  have hback := leBytes_leNat (s.take 4)
  rw [hlen] at hback
  rw [store32Le_eq, load32Le_toNat h, hback]

/-- Words combined one after the other are their bytes combined. -/
theorem flatMap_store_xor (w : List UInt32) {text : Bytes} (h : 4 * w.length ≤ text.length) :
    ((List.range w.length).flatMap fun j =>
        store32Le (w.getD j 0 ^^^ load32Le (text.drop (4 * j)))) =
      xorBytes (text.take (4 * w.length)) (w.flatMap store32Le) := by
  induction w generalizing text with
  | nil => rfl
  | cons x w ih =>
      rw [List.length_cons] at h ⊢
      have hrest : ((List.range w.length).flatMap fun j =>
          store32Le ((x :: w).getD (j + 1) 0 ^^^ load32Le (text.drop (4 * (j + 1))))) =
          xorBytes ((text.drop 4).take (4 * w.length)) (w.flatMap store32Le) := by
        rw [← ih (by rw [List.length_drop]; omega)]
        congr 1
        funext j
        rw [List.drop_drop, List.getD_cons_succ, Nat.mul_succ, Nat.add_comm]
      have hfour : (text.take 4).length = (store32Le x).length := by
        rw [List.length_take, store32Le_length]
        omega
      rw [List.range_succ_eq_map, List.flatMap_cons, List.flatMap_map, List.flatMap_cons,
        Nat.mul_succ, Nat.add_comm, List.take_add, xorBytes_append _ _ hfour]
      show store32Le (x ^^^ load32Le (text.drop 0)) ++ _ = _
      rw [hrest, List.drop_zero, store32Le_xor, store32Le_load32Le (by omega)]
      rw [xorBytes_comm]

/-- What a block of text is combined with if there is none. -/
def plainBytes (plainText : Option Bytes) (n : Nat) : Bytes :=
  match plainText with
  | some text => text.take n
  | none => List.replicate n 0

theorem chacha20Text_length (pool input : Vector UInt32 stateWords) (plainText : Option Bytes) :
    (chacha20Text pool input plainText).length = 64 := by
  have hword : ∀ j : Fin stateWords, (match plainText with
      | some text => store32Le (pool[j] + input[j] ^^^ load32Le (text.drop (4 * j)))
      | none => store32Le (pool[j] + input[j])).length = 4 := by
    intro j
    cases plainText <;> rfl
  simp only [chacha20Text, List.length_flatMap, hword]
  rfl

theorem chacha20Text_none (pool input : Vector UInt32 stateWords) :
    chacha20Text pool input none =
      ((List.finRange stateWords).map fun j : Fin stateWords => pool[j] + input[j]).flatMap store32Le := by
  rw [List.flatMap_map]
  rfl

/-- A block of text is combined with the block of the keystream. -/
theorem chacha20Text_xor (pool input : Vector UInt32 stateWords) {plainText : Option Bytes}
    (h : ∀ text, plainText = some text → 64 ≤ text.length) :
    chacha20Text pool input plainText =
      xorBytes (plainBytes plainText 64) (chacha20Text pool input none) := by
  cases plainText with
  | none =>
      rw [plainBytes, xorBytes_zeros, List.take_of_length_le]
      exact Nat.le_of_eq (chacha20Text_length ..)
  | some text =>
      have hlong : 4 * ((List.finRange stateWords).map fun j : Fin stateWords => pool[j] + input[j]).length ≤
          text.length := by
        rw [List.length_map, List.length_finRange]
        exact h text rfl
      have hwords := flatMap_store_xor _ hlong
      rw [chacha20Text_none, plainBytes]
      exact hwords

/-! ## The loop over the blocks -/

theorem chacha20Block_length (key : Octets 32) (nonce : Octets 8) (ctr : UInt64) (i : Nat) :
    (chacha20Block key nonce ctr i).length = 64 := by
  rw [chacha20Block]
  exact chacha20Text_length ..

theorem chacha20Block_add (key : Octets 32) (nonce : Octets 8) (ctr : UInt64) (i j : Nat) :
    chacha20Block key nonce ctr (i + j) = chacha20Block key nonce (ctr + UInt64.ofNat i) j := by
  rw [chacha20Block, chacha20Block, UInt64.ofNat_add, ← UInt64.add_assoc]

theorem plainBytes_length {plainText : Option Bytes} {n : Nat}
    (h : ∀ text, plainText = some text → n ≤ text.length) : (plainBytes plainText n).length = n := by
  cases plainText with
  | none => exact List.length_replicate
  | some text => exact List.length_take_of_le (h text rfl)

theorem plainBytes_add (plainText : Option Bytes) (m n : Nat) :
    plainBytes plainText (m + n) =
      plainBytes plainText m ++ plainBytes (plainText.map (List.drop m)) n := by
  cases plainText with
  | none => exact List.replicate_add m n 0
  | some text => exact List.take_add

/-- The whole blocks: the text under the keystream, and the counter behind it. -/
theorem chacha20Blocks_eq (key : Octets 32) (nonce : Octets 8) {n : Nat} (ctr : UInt64)
    {plainText : Option Bytes} (h : ∀ text, plainText = some text → 64 * n ≤ text.length) :
    chacha20Blocks n (chacha20Input key nonce ctr) plainText =
      (xorBytes (plainBytes plainText (64 * n))
          ((List.range n).flatMap (chacha20Block key nonce ctr)),
        chacha20Input key nonce (ctr + UInt64.ofNat n)) := by
  induction n generalizing ctr plainText with
  | zero =>
      have hnil : plainBytes plainText (64 * 0) = [] := by cases plainText <;> rfl
      rw [hnil]
      show _ = (_, chacha20Input key nonce (ctr + 0))
      rw [UInt64.add_zero]
      rfl
  | succ n ih =>
      have hfirst : ∀ text, plainText = some text → 64 ≤ text.length := by
        intro text htext
        have := h text htext
        omega
      have hrest : ∀ text, plainText.map (List.drop 64) = some text → 64 * n ≤ text.length := by
        intro text htext
        obtain ⟨whole, hwhole, rfl⟩ := Option.map_eq_some_iff.mp htext
        have := h whole hwhole
        rw [List.length_drop]
        omega
      have hcount : ctr + UInt64.ofNat (n + 1) = ctr + 1 + UInt64.ofNat n := by
        rw [UInt64.ofNat_add, UInt64.add_comm (UInt64.ofNat n), ← UInt64.add_assoc]
        rfl
      have hblock : (chacha20Block key nonce ctr ∘ Nat.succ) = chacha20Block key nonce (ctr + 1) := by
        funext i
        show chacha20Block key nonce ctr (i + 1) = _
        rw [Nat.add_comm, chacha20Block_add]
        rfl
      have hzero : chacha20Block key nonce ctr 0 = chacha20Text
          (chacha20Rounds (chacha20Input key nonce ctr)) (chacha20Input key nonce ctr) none := by
        have hadd : ctr + UInt64.ofNat 0 = ctr := UInt64.add_zero ctr
        rw [chacha20Block, hadd]
      rw [chacha20Blocks, chacha20Count_input, ih (ctr + 1) hrest, chacha20Text_xor _ _ hfirst,
        Nat.mul_succ, Nat.add_comm (64 * n), plainBytes_add, hcount, List.range_succ_eq_map,
        List.flatMap_cons, List.flatMap_map, ← hzero]
      show (_ ++ _, _) = (xorBytes _ (_ ++ (List.range n).flatMap
        (chacha20Block key nonce ctr ∘ Nat.succ)), _)
      rw [hblock, xorBytes_append _ _ (by rw [plainBytes_length hfirst, chacha20Block_length])]

theorem chacha20Last_eq (input : Vector UInt32 stateWords) {plainText : Bytes} {n : Nat} (hn : n ≤ 64)
    (h : n ≤ plainText.length) :
    chacha20Last input plainText n =
      xorBytes (plainText.take n) ((chacha20Text (chacha20Rounds input) input none).take n) := by
  show ((List.range n).map fun i =>
    (chacha20Text (chacha20Rounds input) input none).getD i 0 ^^^ plainText.getD i 0) = _
  rw [range_xorBytes (by rw [chacha20Text_length]; exact hn) h, xorBytes_comm]

/-- The keystream from a counter, taken apart behind its whole blocks. -/
theorem keystream_whole (key : Octets 32) (nonce : Octets 8) (ctr : UInt64) (k n : Nat) :
    keystream 64 (chacha20Block key nonce ctr) (64 * k + n) =
      (List.range k).flatMap (chacha20Block key nonce ctr) ++
        keystream 64 (chacha20Block key nonce (ctr + UInt64.ofNat k)) n := by
  have hshift : (fun i => chacha20Block key nonce ctr (k + i)) =
      chacha20Block key nonce (ctr + UInt64.ofNat k) := funext fun i => chacha20Block_add ..
  rw [keystream_blocks (by decide) (chacha20Block_length key nonce ctr), hshift]

/-- What is left of a text behind its whole blocks. -/
theorem plainBytes_rest (plainText : Option Bytes) (k : Nat) {n : Nat} (hn : n ≤ 128) :
    plainBytes (plainText.map (List.drop k)) n =
      ((plainText.map (List.drop k)).getD (List.replicate 128 0)).take n := by
  cases plainText with
  | none =>
      show List.replicate n 0 = (List.replicate 128 0).take n
      rw [List.take_replicate, Nat.min_eq_left hn]
  | some text => rfl

/-- `crypto_chacha20_djb`: the text under the keystream, and the counter of the next block. -/
theorem cryptoChacha20Djb_eq (key : Octets 32) (nonce : Octets 8) (ctr : UInt64)
    {plainText : Option Bytes} {n : Nat} (h : ∀ text, plainText = some text → n ≤ text.length) :
    cryptoChacha20Djb plainText n key nonce ctr =
      (xorBytes (plainBytes plainText n) (keystream 64 (chacha20Block key nonce ctr) n),
        ctr + UInt64.ofNat ((n + 63) / 64)) := by
  have hblocks : n >>> 6 = n / 64 := Nat.shiftRight_eq_div_pow n 6
  have hrest : n &&& 63 = n % 64 := Nat.and_two_pow_sub_one_eq_mod n 6
  obtain ⟨k, r, hr, rfl⟩ : ∃ k r, r < 64 ∧ n = 64 * k + r :=
    ⟨n / 64, n % 64, Nat.mod_lt n (by decide), (Nat.div_add_mod n 64).symm⟩
  have hk : (64 * k + r) / 64 = k := by omega
  have hmod : (64 * k + r) % 64 = r := by omega
  have hfit : ∀ text, plainText = some text → 64 * k ≤ text.length := by
    intro text htext
    have := h text htext
    omega
  have hcounter : ∀ c : UInt64, (chacha20Input key nonce c)[12].toUInt64 +
      ((chacha20Input key nonce c)[13].toUInt64 <<< 32) = c := counter_words
  rw [cryptoChacha20Djb, hblocks, hrest, hk, hmod, chacha20Blocks_eq key nonce ctr hfit,
    keystream_whole, plainBytes_add, xorBytes_append _ _ (by
      rw [blocks_length (chacha20Block_length key nonce ctr), plainBytes_length hfit])]
  show (_, (chacha20Input key nonce (ctr + UInt64.ofNat k))[12].toUInt64 +
    ((chacha20Input key nonce (ctr + UInt64.ofNat k))[13].toUInt64 <<< 32) + _) = _
  rw [hcounter]
  by_cases hpos : r > 0
  · have hceil : UInt64.ofNat ((64 * k + r + 63) / 64) = UInt64.ofNat k + 1 := by
      rw [show (64 * k + r + 63) / 64 = k + 1 by omega, UInt64.ofNat_add]
      rfl
    have hkeep : r ≤ ((plainText.map (List.drop (64 * k))).getD (List.replicate 128 0)).length := by
      cases plainText with
      | none =>
          show r ≤ (List.replicate 128 (0 : UInt8)).length
          rw [List.length_replicate]
          omega
      | some text =>
          have := h text rfl
          show r ≤ (text.drop (64 * k)).length
          rw [List.length_drop]
          omega
    have hfirst : chacha20Block key nonce (ctr + UInt64.ofNat k) 0 =
        chacha20Text (chacha20Rounds (chacha20Input key nonce (ctr + UInt64.ofNat k)))
          (chacha20Input key nonce (ctr + UInt64.ofNat k)) none := by
      have hadd : ctr + UInt64.ofNat k + UInt64.ofNat 0 = ctr + UInt64.ofNat k := UInt64.add_zero _
      rw [chacha20Block, hadd]
    rw [if_pos hpos, if_pos hpos, hceil, UInt64.add_assoc, keystream_short hpos (by omega),
      hfirst, plainBytes_rest plainText _ (by omega), chacha20Last_eq _ (by omega) hkeep]
  · have hceil : (64 * k + r + 63) / 64 = k := by omega
    have hzero : r = 0 := by omega
    have hnil : ∀ a : Bytes, xorBytes a [] = [] := fun a => List.zipWith_nil_right
    rw [if_neg hpos, if_neg hpos, hceil, UInt64.add_zero, hzero, keystream_zero, hnil]

/-! ## Calls with a text -/

/-- `crypto_chacha20_djb` with a text. -/
def chacha20Apply (key : Octets 32) (nonce : Octets 8) (ctr : UInt64) (text : Bytes) :
    Bytes × UInt64 := cryptoChacha20Djb (some text) text.length key nonce ctr

theorem chacha20Apply_eq (key : Octets 32) (nonce : Octets 8) (ctr : UInt64) (text : Bytes) :
    chacha20Apply key nonce ctr text =
      (xorBytes text (keystream 64 (chacha20Block key nonce ctr) text.length),
        ctr + UInt64.ofNat ((text.length + 63) / 64)) := by
  have hfit : ∀ t, some text = some t → text.length ≤ t.length := by
    intro t ht
    rw [Option.some.inj ht]
  rw [chacha20Apply, cryptoChacha20Djb_eq key nonce ctr hfit]
  show (xorBytes (text.take text.length) _, _) = _
  rw [List.take_length]

theorem chacha20Stream_length (key : Octets 32) (nonce : Octets 8) (ctr : UInt64) (n : Nat) :
    (keystream 64 (chacha20Block key nonce ctr) n).length = n :=
  keystream_length (by decide) (chacha20Block_length key nonce ctr) n

theorem chacha20Apply_length (key : Octets 32) (nonce : Octets 8) (ctr : UInt64) (text : Bytes) :
    (chacha20Apply key nonce ctr text).1.length = text.length := by
  rw [chacha20Apply_eq]
  show (xorBytes text _).length = _
  rw [xorBytes_length, chacha20Stream_length, Nat.min_self]

/-- The call undoes itself. -/
theorem chacha20Apply_twice (key : Octets 32) (nonce : Octets 8) (ctr : UInt64) (text : Bytes) :
    (chacha20Apply key nonce ctr (chacha20Apply key nonce ctr text).1).1 = text := by
  have hlen := chacha20Apply_length key nonce ctr text
  rw [chacha20Apply_eq key nonce ctr (chacha20Apply key nonce ctr text).1, hlen, chacha20Apply_eq]
  show xorBytes (xorBytes text _) _ = text
  exact xorBytes_cancel (Nat.le_of_eq (chacha20Stream_length ..).symm)

end Ctunnel
