import Ctunnel.Monocypher.Aead

/-!
# Hashes, MACs and derived keys

The streaming interface of BLAKE2b computes one function of the parameters, the
key and the message, whatever parts the message is handed over in
(`blake2b_value`). `ct_crypto_kdf` hashes its counter and its context in two
parts, and writes its output block by block until it has enough;
`ct_crypto_kdf_value` says that this is `ctCryptoKdf` over the source's BLAKE2b.
-/

namespace Ctunnel

open Lib

/-- The digest of a key and a message. -/
def blake2bDigest (hashSize : Nat) (key message : Bytes) : Bytes :=
  (store64LeBuf (blake2bHash (blake2bParameters hashSize key.length)
    (blake2bKeyBlock key ++ message)).toList).take (min hashSize 64)

theorem foldl_update_blake2b {ctx : Blake2bCtx} {hash : Vector UInt64 8} {hashSize : Nat}
    {data : Bytes} (h : ctx.Absorbed hash hashSize data) (parts : List Bytes) :
    (parts.foldl cryptoBlake2bUpdate ctx).Absorbed hash hashSize (data ++ parts.flatten) := by
  induction parts generalizing ctx data with
  | nil => simpa using h
  | cons part parts ih =>
      rw [List.foldl_cons, List.flatten_cons, ← List.append_assoc]
      exact ih (h.update part)

/-- `crypto_blake2b_keyed_init`, any number of updates and `crypto_blake2b_final`: every block but
the last is compressed under the number of bytes up to its end, the last one, padded, under the
number of all bytes. How the message is split into updates does not matter. -/
theorem blake2b_value (hashSize : Nat) (key : Bytes) (parts : List Bytes)
    (hkey : key.length ≤ 128) :
    cryptoBlake2bFinal (parts.foldl cryptoBlake2bUpdate (cryptoBlake2bKeyedInit hashSize key)) =
      blake2bDigest hashSize key parts.flatten :=
  (foldl_update_blake2b (cryptoBlake2bKeyedInit_absorbed hashSize hkey) parts).final

/-- A message in three parts that meet inside a word. -/
theorem blake2b_value_parts :
    cryptoBlake2bFinal (([[1, 2, 3], [], [4]] : List Bytes).foldl cryptoBlake2bUpdate
        (cryptoBlake2bKeyedInit 32 [9])) = blake2bDigest 32 [9] [1, 2, 3, 4] :=
  blake2b_value 32 [9] [[1, 2, 3], [], [4]] (by decide)

/-! ## Derived keys -/

/-- The block of the loop of `ct_crypto_kdf`: the counter and the context are hashed one after the
other. -/
def kdfBlock (prk : Octets 64) (context : Bytes) (counter : UInt64) : Bytes :=
  let encodedCounter := (List.range 8).map fun i => (counter >>> UInt64.ofNat (i * 8)).toUInt8
  let ctx := cryptoBlake2bKeyedInit 64 prk.toList
  let ctx := cryptoBlake2bUpdate ctx encodedCounter
  let ctx := cryptoBlake2bUpdate ctx context
  cryptoBlake2bFinal ctx

/-- The loop of `ct_crypto_kdf`. -/
def kdfLoop (prk : Octets 64) (context : Bytes) (counter : UInt64) (outputLength : Nat) :
    Option Bytes :=
  if _h : outputLength = 0 then some []
  else
    let block := if outputLength < 64 then outputLength else 64
    let expanded := (kdfBlock prk context counter).take block
    -- a counter that is used up ends the loop only if output is still missing
    if counter = 0xffffffffffffffff ∧ outputLength - block ≠ 0 then none
    else (kdfLoop prk context (counter + 1) (outputLength - block)).map (expanded ++ ·)
termination_by outputLength
decreasing_by split <;> omega

/-- `ct_crypto_kdf`. -/
def ctCryptoKdfSource (length : Nat) (material salt context : Bytes) : Option Bytes :=
  if salt.length > 64 then none
  else
    let prk :=
      if salt.length ≠ 0 then cryptoBlake2bKeyed 64 salt material else cryptoBlake2b 64 material
    kdfLoop (sliceOctets prk 0 64) context 0 length

theorem kdfBlock_eq (prk : Octets 64) (context : Bytes) (counter : UInt64) :
    kdfBlock prk context counter =
      cryptoBlake2bKeyed 64 prk.toList (leBytes 8 counter.toNat ++ context) := by
  have hkey : prk.toList.length ≤ 128 := by
    rw [List.Vector.toList_length]
    decide
  have hcounter : ((List.range 8).map fun i => (counter >>> UInt64.ofNat (i * 8)).toUInt8) =
      leBytes 8 counter.toNat := by
    apply List.ext_getElem?
    intro i
    by_cases hi : i < 8
    · have hbits : (UInt64.ofNat (i * 8)).toNat % 64 = 8 * i := by
        rw [UInt64.toNat_ofNat']
        omega
      rw [leBytes_getElem? 8 _ hi, List.getElem?_map, List.getElem?_range hi, Option.map_some]
      congr 1
      rw [← UInt8.toNat_inj, UInt64.toNat_toUInt8, UInt64.toNat_shiftRight, hbits,
        Nat.shiftRight_eq_div_pow, UInt8.toNat_ofNat', Nat.pow_mul]
    · rw [List.getElem?_eq_none (by rw [List.length_map, List.length_range]; omega),
        List.getElem?_eq_none (by rw [leBytes_length]; omega)]
  have hinit := cryptoBlake2bKeyedInit_absorbed 64 hkey
  have htwo := (foldl_update_blake2b hinit [leBytes 8 counter.toNat, context]).final
  have hone := (foldl_update_blake2b hinit [leBytes 8 counter.toNat ++ context]).final
  rw [List.flatten_cons, List.flatten_cons, List.flatten_nil, List.append_nil] at htwo
  rw [List.flatten_cons, List.flatten_nil, List.append_nil] at hone
  rw [kdfBlock, hcounter]
  exact htwo.trans hone.symm

theorem cryptoBlake2bKeyed_length (hashSize : Nat) {key : Bytes} (hkey : key.length ≤ 128)
    (message : Bytes) : (cryptoBlake2bKeyed hashSize key message).length = min hashSize 64 := by
  have hvalue := (foldl_update_blake2b (cryptoBlake2bKeyedInit_absorbed hashSize hkey) [message]).final
  have hwords : ∀ w : List UInt64, (store64LeBuf w).length = 8 * w.length := by
    intro w
    induction w with
    | nil => rfl
    | cons x w ih =>
        rw [store64LeBuf_cons, List.length_append, ih, store64Le_length, List.length_cons]
        omega
  show (cryptoBlake2bFinal ([message].foldl cryptoBlake2bUpdate _)).length = _
  rw [hvalue, List.length_take, hwords, Vector.length_toList]
  omega

/-- Block `i` of the output of `ct_crypto_kdf`. -/
def kdfOutput (prk : Octets 64) (context : Bytes) (i : Nat) : Bytes :=
  cryptoBlake2bKeyed 64 prk.toList (leBytes 8 i ++ context)

theorem kdfOutput_length (prk : Octets 64) (context : Bytes) (i : Nat) :
    (kdfOutput prk context i).length = 64 := by
  have hkey : prk.toList.length ≤ 128 := by
    rw [List.Vector.toList_length]
    decide
  exact cryptoBlake2bKeyed_length 64 hkey _

/-- The output of the loop: as many blocks as it takes, unless the counter runs out. -/
theorem kdfLoop_eq (prk : Octets 64) (context : Bytes) (counter : UInt64) (length : Nat) :
    kdfLoop prk context counter length =
      if 64 * (2 ^ 64 - counter.toNat) < length then none
      else some (keystream 64 (fun i => kdfOutput prk context (counter.toNat + i)) length) := by
  induction length using Nat.strongRecOn generalizing counter with
  | ind length ih =>
      have hcounter := counter.toNat_lt
      have hblock : kdfBlock prk context counter = kdfOutput prk context (counter.toNat + 0) :=
        kdfBlock_eq prk context counter
      have hall : (kdfOutput prk context (counter.toNat + 0)).take 64 =
          kdfOutput prk context (counter.toNat + 0) :=
        List.take_of_length_le (Nat.le_of_eq (kdfOutput_length ..))
      rw [kdfLoop]
      by_cases hzero : length = 0
      · rw [dif_pos hzero, if_neg (by omega), hzero, keystream_zero]
      · rw [dif_neg hzero]
        by_cases hlast : length ≤ 64
        · -- the last block, complete or not
          have hsize : (if length < 64 then length else 64) = length := by split <;> omega
          simp only [hsize, Nat.sub_self]
          rw [if_neg (fun h => h.2 rfl), if_neg (by omega), kdfLoop, dif_pos rfl, hblock,
            keystream_short (by omega) hlast, Option.map_some, List.append_nil]
        · have hsize : (if length < 64 then length else 64) = 64 := if_neg (by omega)
          simp only [hsize]
          by_cases hend : counter = 0xffffffffffffffff
          · have hmax : counter.toNat = 2 ^ 64 - 1 := by
              rw [hend]
              rfl
            rw [if_pos ⟨hend, by omega⟩, if_pos (by omega)]
          · have hmax : counter.toNat ≠ 2 ^ 64 - 1 := fun h => hend (UInt64.toNat_inj.mp h)
            have hnext : (counter + 1).toNat = counter.toNat + 1 := by
              rw [UInt64.toNat_add]
              show (counter.toNat + 1) % 2 ^ 64 = _
              omega
            have hshift : (fun i => kdfOutput prk context (counter.toNat + 1 + i)) =
                fun i => kdfOutput prk context (counter.toNat + (1 + i)) := by
              funext i
              rw [Nat.add_assoc]
            have hlength : ∀ i, (kdfOutput prk context (counter.toNat + i)).length = 64 :=
              fun i => kdfOutput_length ..
            have hsplit := keystream_blocks (by decide) hlength 1 (length - 64)
            rw [show 64 * 1 + (length - 64) = length by omega, List.range_one,
              List.flatMap_singleton] at hsplit
            rw [if_neg (fun h => hend h.1), ih (length - 64) (by omega) (counter + 1), hnext,
              hsplit, hshift, hblock, hall]
            by_cases hlong : 64 * (2 ^ 64 - counter.toNat) < length
            · rw [if_pos hlong, if_pos (by omega)]
              rfl
            · rw [if_neg hlong, if_neg (by omega)]
              rfl

/-- `ct_crypto_kdf`, with its streaming calls and its loop, is `ctCryptoKdf` over the BLAKE2b of
the source: it fails on a long salt or when the block counter runs out, and gives the same bytes. -/
theorem ct_crypto_kdf_value (m : Monocypher) (length : Nat) (material salt context : Bytes) :
    ctCryptoKdfSource length material salt context =
      (ctCryptoKdf m.withSource length material salt context).map List.Vector.toList := by
  unfold ctCryptoKdfSource ctCryptoKdf
  by_cases hsalt : salt.length > 64
  · rw [if_pos hsalt, if_pos (.inl hsalt)]
    rfl
  · have hextract : sliceOctets (if salt.length ≠ 0 then cryptoBlake2bKeyed 64 salt material
        else cryptoBlake2b 64 material) 0 64 = kdfExtract m.withSource material salt := by
      unfold kdfExtract
      by_cases hempty : salt.length ≠ 0
      · rw [if_pos hempty, if_pos hempty]
        rfl
      · rw [if_neg hempty, if_neg hempty]
        rfl
    have hzero : (0 : UInt64).toNat = 0 := rfl
    rw [if_neg hsalt]
    simp only [hextract]
    generalize kdfExtract m.withSource material salt = prk
    have hexpand : (kdfExpand m.withSource prk context length).toList =
        keystream 64 (fun i => kdfOutput prk context (0 + i)) length := by
      have hblock : (fun i => (m.withSource.blake2bKeyed 64 prk.toList
          ((beBytes 8 i).reverse ++ context)).toList) = fun i => kdfOutput prk context (0 + i) := by
        funext i
        rw [Nat.zero_add]
        show (sliceOctets (kdfOutput prk context i) 0 64).toList = _
        rw [sliceOctets_toList (by rw [kdfOutput_length]), slice, List.drop_zero,
          List.take_of_length_le (Nat.le_of_eq (kdfOutput_length ..))]
      have hlength : ∀ i, (kdfOutput prk context (0 + i)).length = 64 :=
        fun i => kdfOutput_length prk context (0 + i)
      have hlen := blocks_length hlength ((length + 63) / 64)
      rw [kdfExpand, hblock, sliceOctets_toList (by rw [hlen]; omega)]
      rfl
    rw [kdfLoop_eq, hzero]
    by_cases hlong : 2 ^ 64 * 64 < length
    · rw [if_pos (by omega), if_pos (.inr hlong)]
      rfl
    · rw [if_neg (by omega), if_neg (by simp only [not_or]; exact ⟨hsalt, hlong⟩), Option.map_some,
        hexpand]

end Ctunnel
