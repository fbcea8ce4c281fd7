import Ctunnel.Crypto.Recorded
import Ctunnel.Monocypher.Aead
import Ctunnel.Theorems.Authenticator

/-!
# Boxes, from the primitives up

`crypto_aead_lock` computes what its construction says: the text under the
keystream from block 1 on, and the authenticator of the padded message under the
key in block 0 (`aead_lock_value`). `crypto_aead_unlock` accepts exactly what
`crypto_aead_lock` makes, so a box of `ct_aead_encrypt` over the source's
primitives is opened by `ct_aead_decrypt`, and nothing else is
(`aead_boxes`). Equality of secrets is decided in constant time whatever their
length (`ct_crypto_equal_iff`).
-/

namespace Ctunnel

open Lib

/-! ## The construction -/

/-- `lock_auth`: the authenticator over the padded message. -/
theorem lockAuth_value (authKey : Octets 32) (ad cipherText : Bytes) :
    (lockAuth authKey ad cipherText).toList =
      leBytes 16 (messagePolynomial (leNat (authKey.toList.take 16) &&& clampMask)
        (lockAuthMessage ad cipherText) % polyPrime + leNat (authKey.toList.drop 16)) := by
  have habsorbed := foldl_update_absorbed (.init authKey) [ad, List.replicate (gap ad.length 16) 0, cipherText,
    List.replicate (gap cipherText.length 16) 0,
    store64Le (UInt64.ofNat ad.length) ++ store64Le (UInt64.ofNat cipherText.length)]
  have hflat : [ad, List.replicate (gap ad.length 16) 0, cipherText,
      List.replicate (gap cipherText.length 16) 0,
      store64Le (UInt64.ofNat ad.length) ++ store64Le (UInt64.ofNat cipherText.length)].flatten =
      lockAuthMessage ad cipherText := by
    simp only [lockAuthMessage, List.flatten_cons, List.flatten_nil, List.append_nil,
      List.append_assoc]
  rw [List.nil_append, hflat] at habsorbed
  exact habsorbed.tag

/-- The key `crypto_aead_lock` encrypts under. -/
def aeadSubKey (key : Octets 32) (nonce : Octets 24) : Octets 32 :=
  cryptoChacha20H key (sliceOctets nonce.toList 0 16)

/-- Block `i` of the keystream of a box. -/
def aeadBlock (key : Octets 32) (nonce : Octets 24) (i : Nat) : Bytes :=
  chacha20Block (aeadSubKey key nonce) (sliceOctets nonce.toList 16 8) 0 i

/-- The one-time key: the first half of block 0. -/
theorem authKey_eq (key : Octets 32) (nonce : Octets 24) :
    (sliceOctets (cryptoAeadInitX key nonce).authKey 0 32).toList =
      (aeadBlock key nonce 0).take 32 := by
  have hnone : ∀ text, (none : Option Bytes) = some text → 64 ≤ text.length := by
    intro text h
    exact absurd h (by simp)
  have hlen : (aeadBlock key nonce 0).length = 64 := chacha20Block_length ..
  have hkey : (cryptoAeadInitX key nonce).authKey = aeadBlock key nonce 0 := by
    show (cryptoChacha20Djb none 64 (aeadSubKey key nonce) (sliceOctets nonce.toList 16 8) 0).1 = _
    rw [cryptoChacha20Djb_eq _ _ _ hnone, keystream_short (by decide) (by decide), plainBytes,
      xorBytes_zeros, List.take_take]
    exact List.take_of_length_le (Nat.le_of_eq hlen)
  rw [hkey, sliceOctets_toList (by rw [hlen]; decide), slice, List.drop_zero]

/-- `crypto_aead_lock`: byte `i` of the text is under byte `i + 64` of the keystream, and the tag
is the polynomial of the padded message at the one-time key in the first 32 bytes. -/
theorem aead_lock_value (key : Octets 32) (nonce : Octets 24) (ad plainText : Bytes) :
    (cryptoAeadLock key nonce ad plainText).1 =
        xorBytes plainText (keystream 64 (fun i => aeadBlock key nonce (1 + i)) plainText.length) ∧
      (cryptoAeadLock key nonce ad plainText).2.toList =
        leBytes 16 (messagePolynomial (leNat ((aeadBlock key nonce 0).take 16) &&& clampMask)
          (lockAuthMessage ad (cryptoAeadLock key nonce ad plainText).1) % polyPrime +
          leNat (((aeadBlock key nonce 0).drop 16).take 16)) := by
  constructor
  · have hshift : (fun i => aeadBlock key nonce (1 + i)) =
        chacha20Block (aeadSubKey key nonce) (sliceOctets nonce.toList 16 8) (0 + 1) :=
      funext fun i => chacha20Block_add ..
    show (chacha20Apply (aeadSubKey key nonce) (sliceOctets nonce.toList 16 8) (0 + 1) plainText).1 = _
    rw [chacha20Apply_eq, hshift]
  · have hmac : (cryptoAeadLock key nonce ad plainText).2 =
        lockAuth (sliceOctets (cryptoAeadInitX key nonce).authKey 0 32) ad
          (cryptoAeadLock key nonce ad plainText).1 := rfl
    rw [hmac, lockAuth_value, authKey_eq, List.take_take, List.drop_take]
    rfl

/-! ## The boxes of the tunnel -/

theorem aeadInverse_withSource (m : Monocypher) : AeadInverse m.withSource := by
  intro key nonce ad plain
  have hunlock : cryptoAeadUnlock key nonce ad (cryptoAeadLock key nonce ad plain).2
      (cryptoAeadLock key nonce ad plain).1 = some plain := cryptoAeadUnlock_iff.mpr rfl
  have hlen := cryptoAeadLock_length key nonce ad plain
  show ((cryptoAeadUnlock key nonce ad (cryptoAeadLock key nonce ad plain).2
    (cryptoAeadLock key nonce ad plain).1).map fun p =>
      sliceOctets p 0 (cryptoAeadLock key nonce ad plain).1.length).map List.Vector.toList = _
  rw [hunlock, Option.map_some, Option.map_some, sliceOctets_toList (by omega), slice,
    List.drop_zero, hlen, List.take_length]

/-- A box opens to a text exactly if it is the box that is made of the text. -/
theorem aead_boxes (m : Monocypher) (cipher : CtCipher) (key : Octets 32) (base : Octets 16)
    (sequence : UInt64) (ad box plain : Bytes) (hbox : box.length ≤ sizeMax) :
    ctAeadDecrypt m.withSource cipher key base sequence ad box = some plain ↔
      ctAeadEncrypt m.withSource cipher key base sequence ad plain = some box := by
  constructor
  · intro h
    have hcipher := ctAeadDecrypt_cipher h
    have hlen := ctAeadDecrypt_length h
    subst hcipher
    unfold ctAeadDecrypt at h
    by_cases hrefused : (!ctCipherAvailable .chacha || decide (box.length < ctAeadTag)) = true
    · rw [if_pos hrefused] at h
      exact absurd h (by simp)
    · rw [if_neg hrefused] at h
      have hlong : ctAeadTag ≤ box.length := by
        simpa [ctCipherAvailable] using hrefused
      obtain ⟨v, hv, hplain⟩ := Option.map_eq_some_iff.mp h
      obtain ⟨text, htext, hslice⟩ := Option.map_eq_some_iff.mp hv
      have hsame : text = plain := by
        have htake := cryptoAeadUnlock_length htext
        rw [← hplain, ← hslice, sliceOctets_toList (by rw [htake]; omega), slice, List.drop_zero,
          ← htake, List.take_length]
      rw [hsame] at htext
      have hlock := cryptoAeadUnlock_iff.mp htext
      unfold ctAeadEncrypt
      rw [if_neg (by
        simp only [ctCipherAvailable, beq_self_eq_true, Bool.not_true, Bool.false_or,
          decide_eq_true_eq]
        omega)]
      show some ((cryptoAeadLock key (makeNonce base sequence) ad plain).1 ++
        (cryptoAeadLock key (makeNonce base sequence) ad plain).2.toList) = some box
      have htag : (sliceOctets box (box.length - ctAeadTag) 16).toList =
          box.drop (box.length - ctAeadTag) := by
        rw [sliceOctets_toList (by simp only [ctAeadTag] at hlong ⊢; omega), slice,
          List.take_of_length_le]
        rw [List.length_drop]
        simp only [ctAeadTag] at hlong ⊢
        omega
      rw [hlock, htag, List.take_append_drop]
  · intro h
    exact ctAeadDecrypt_sealed (aeadInverse_withSource m) h

/-- The box that is made of `hello` opens to `hello`. -/
theorem hello_box_opens :
    ∃ box, box.length = 21 ∧
      ctAeadEncrypt (CryptoLog.mk [] [] [] []).monocypher.withSource .chacha (.replicate 32 7)
        (.replicate 16 9) 1 (ascii "head") (ascii "hello") = some box ∧
      ctAeadDecrypt (CryptoLog.mk [] [] [] []).monocypher.withSource .chacha (.replicate 32 7)
        (.replicate 16 9) 1 (ascii "head") box = some (ascii "hello") := by
  obtain ⟨box, hbox⟩ := ctAeadEncrypt_some (CryptoLog.mk [] [] [] []).monocypher.withSource
    (.replicate 32 7) (.replicate 16 9) 1 (ascii "head")
    (show (ascii "hello").length ≤ sizeMax - ctAeadTag by decide)
  have hlen : box.length = 21 := ctAeadEncrypt_length hbox
  have hsize : box.length ≤ sizeMax := by
    rw [hlen]
    decide
  exact ⟨box, hlen, hbox, (aead_boxes (CryptoLog.mk [] [] [] []).monocypher .chacha
    (.replicate 32 7) (.replicate 16 9) 1 (ascii "head") box (ascii "hello") hsize).mpr hbox⟩

/-! ## Comparison -/

/-- `ct_crypto_equal` decides equality, by words where the length allows it. -/
theorem ct_crypto_equal_iff {n : Nat} (left right : Octets n) :
    ctCryptoEqual left.toList right.toList n = true ↔ left = right := by
  have hl := List.Vector.toList_length left
  have hr := List.Vector.toList_length right
  have heq : left = right ↔ left.toList = right.toList :=
    ⟨fun h => congrArg _ h, fun h => List.Vector.eq _ _ h⟩
  have hword : ∀ x : UInt64, (neq0 x == 0) = true ↔ x = 0 := by
    intro x
    rw [neq0_eq, beq_iff_eq]
    by_cases hx : x = 0
    · simp [hx]
    · simp [hx]
  have hwhole : ∀ k, n = k → (left.toList.take k = right.toList.take k ↔
      left.toList = right.toList) := by
    intro k hk
    rw [List.take_of_length_le (by omega), List.take_of_length_le (by omega)]
  rw [heq]
  unfold ctCryptoEqual
  by_cases h16 : n = 16
  · rw [if_pos h16, cryptoVerify16, hword, x16_eq_zero (by omega) (by omega), hwhole 16 h16]
  · rw [if_neg h16]
    by_cases h32 : n = 32
    · rw [if_pos h32, cryptoVerify32, hword, x32_eq_zero (by omega) (by omega), hwhole 32 h32]
    · rw [if_neg h32]
      by_cases h64 : n = 64
      · rw [if_pos h64, cryptoVerify64, hword, x64_eq_zero (by omega) (by omega), hwhole 64 h64]
      · rw [if_neg h64]
        simp only [beq_iff_eq]
        rw [difference_eq_zero]
        constructor
        · intro h
          apply List.ext_getElem (by omega)
          intro i hi hi'
          have hat := h i (by omega)
          rwa [List.getD_eq_getElem _ _ hi, List.getD_eq_getElem _ _ hi'] at hat
        · intro h i _
          rw [h]

end Ctunnel
