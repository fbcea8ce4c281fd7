import Ctunnel.Crypto
import Ctunnel.Monocypher.Blake2b
import Ctunnel.Monocypher.Chacha20
import Ctunnel.Monocypher.Poly1305

/-!
# Authenticated encryption (`third_party/monocypher/src/monocypher.c`)

XChaCha20 and Poly1305 put together: the first block of the keystream is the
one-time key of the authenticator, the text is encrypted from the second block
on, and the tag covers the associated data and the ciphertext, each padded to
whole blocks, and their lengths. `Monocypher.withSource` puts these functions
and BLAKE2b in the place of the library's in the parameter the rest of the
development is about; the functions of the curves stay as they are.
-/

namespace Ctunnel

open Lib

/-- `crypto_aead_ctx`. -/
structure CryptoAeadCtx where
  counter : UInt64
  key : Octets 32
  nonce : Octets 8

/-- `lock_auth`. -/
def lockAuth (authKey : Octets 32) (ad cipherText : Bytes) : Octets 16 :=
  let sizes := store64Le (UInt64.ofNat ad.length) ++ store64Le (UInt64.ofNat cipherText.length)
  let ctx := cryptoPoly1305Init authKey
  let ctx := cryptoPoly1305Update ctx ad
  let ctx := cryptoPoly1305Update ctx (List.replicate (gap ad.length 16) 0)
  let ctx := cryptoPoly1305Update ctx cipherText
  let ctx := cryptoPoly1305Update ctx (List.replicate (gap cipherText.length 16) 0)
  let ctx := cryptoPoly1305Update ctx sizes
  cryptoPoly1305Final ctx

/-- `crypto_aead_init_x`. -/
def cryptoAeadInitX (key : Octets 32) (nonce : Octets 24) : CryptoAeadCtx where
  key := cryptoChacha20H key (sliceOctets nonce.toList 0 16)
  nonce := sliceOctets nonce.toList 16 8
  counter := 0

/-- `auth_key` of `crypto_aead_write` and `crypto_aead_read`. -/
def CryptoAeadCtx.authKey (ctx : CryptoAeadCtx) : Bytes :=
  (cryptoChacha20Djb none 64 ctx.key ctx.nonce ctx.counter).1

/-- `crypto_aead_write`: the context with the next key, the ciphertext and the tag. -/
def cryptoAeadWrite (ctx : CryptoAeadCtx) (ad plainText : Bytes) :
    CryptoAeadCtx × Bytes × Octets 16 :=
  let cipherText :=
    (cryptoChacha20Djb (some plainText) plainText.length ctx.key ctx.nonce (ctx.counter + 1)).1
  let mac := lockAuth (sliceOctets ctx.authKey 0 32) ad cipherText
  ({ ctx with key := sliceOctets ctx.authKey 32 32 }, cipherText, mac)

/-- `crypto_aead_read`: the context and, if the tag is right, the text. -/
def cryptoAeadRead (ctx : CryptoAeadCtx) (mac : Octets 16) (ad cipherText : Bytes) :
    CryptoAeadCtx × Option Bytes :=
  let realMac := lockAuth (sliceOctets ctx.authKey 0 32) ad cipherText
  let mismatch := cryptoVerify16 mac.toList realMac.toList
  if mismatch = 0 then
    ({ ctx with key := sliceOctets ctx.authKey 32 32 },
      some (cryptoChacha20Djb (some cipherText) cipherText.length ctx.key ctx.nonce
        (ctx.counter + 1)).1)
  else (ctx, none)

/-- `crypto_aead_lock`. -/
def cryptoAeadLock (key : Octets 32) (nonce : Octets 24) (ad plainText : Bytes) :
    Bytes × Octets 16 := (cryptoAeadWrite (cryptoAeadInitX key nonce) ad plainText).2

/-- `crypto_aead_unlock`. -/
def cryptoAeadUnlock (key : Octets 32) (nonce : Octets 24) (ad : Bytes) (mac : Octets 16)
    (cipherText : Bytes) : Option Bytes :=
  (cryptoAeadRead (cryptoAeadInitX key nonce) mac ad cipherText).2

/-! ## Boxes -/

theorem cryptoVerify16_eq_zero (a b : Octets 16) : cryptoVerify16 a.toList b.toList = 0 ↔ a = b := by
  have hword : x16 a.toList b.toList = 0 ↔ a.toList.take 16 = b.toList.take 16 :=
    x16_eq_zero (by rw [List.Vector.toList_length]) (by rw [List.Vector.toList_length])
  rw [List.take_of_length_le (by rw [List.Vector.toList_length]),
    List.take_of_length_le (by rw [List.Vector.toList_length])] at hword
  rw [cryptoVerify16, neq0_eq]
  constructor
  · intro h
    by_cases hzero : x16 a.toList b.toList = 0
    · exact List.Vector.eq _ _ (hword.mp hzero)
    · rw [if_neg hzero] at h
      exact absurd h (by decide)
  · intro h
    rw [if_pos (hword.mpr (congrArg List.Vector.toList h))]

theorem cryptoAeadWrite_cipherText (ctx : CryptoAeadCtx) (ad plainText : Bytes) :
    (cryptoAeadWrite ctx ad plainText).2.1 =
      (chacha20Apply ctx.key ctx.nonce (ctx.counter + 1) plainText).1 := rfl

theorem cryptoAeadWrite_length (ctx : CryptoAeadCtx) (ad plainText : Bytes) :
    (cryptoAeadWrite ctx ad plainText).2.1.length = plainText.length := by
  rw [cryptoAeadWrite_cipherText, chacha20Apply_length]

/-- A context reads exactly what it would write, and goes on as if it had. -/
theorem cryptoAeadRead_iff (ctx ctx' : CryptoAeadCtx) (mac : Octets 16) (ad cipherText : Bytes)
    (plainText : Bytes) :
    cryptoAeadRead ctx mac ad cipherText = (ctx', some plainText) ↔
      cryptoAeadWrite ctx ad plainText = (ctx', cipherText, mac) := by
  have hread : cryptoAeadRead ctx mac ad cipherText =
      if cryptoVerify16 mac.toList
          (lockAuth (sliceOctets ctx.authKey 0 32) ad cipherText).toList = 0 then
        ({ ctx with key := sliceOctets ctx.authKey 32 32 },
          some (chacha20Apply ctx.key ctx.nonce (ctx.counter + 1) cipherText).1)
      else (ctx, none) := rfl
  have hwrite : cryptoAeadWrite ctx ad plainText =
      ({ ctx with key := sliceOctets ctx.authKey 32 32 },
        (chacha20Apply ctx.key ctx.nonce (ctx.counter + 1) plainText).1,
        lockAuth (sliceOctets ctx.authKey 0 32) ad
          (chacha20Apply ctx.key ctx.nonce (ctx.counter + 1) plainText).1) := rfl
  have hverify := cryptoVerify16_eq_zero mac (lockAuth (sliceOctets ctx.authKey 0 32) ad cipherText)
  rw [hread, hwrite]
  constructor
  · intro h
    by_cases hmac : mac = lockAuth (sliceOctets ctx.authKey 0 32) ad cipherText
    · rw [if_pos (hverify.mpr hmac)] at h
      obtain ⟨hctx, hplain⟩ := Prod.mk.inj h
      rw [← Option.some.inj hplain, chacha20Apply_twice, hctx, ← hmac]
    · rw [if_neg (mt hverify.mp hmac)] at h
      exact absurd (Prod.mk.inj h).2 (by simp)
  · intro h
    obtain ⟨hctx, hrest⟩ := Prod.mk.inj h
    obtain ⟨hcipher, hmac⟩ := Prod.mk.inj hrest
    rw [hcipher] at hmac
    rw [if_pos (hverify.mpr hmac.symm), hctx, ← hcipher, chacha20Apply_twice]

/-- The message `lock_auth` authenticates. -/
def lockAuthMessage (ad cipherText : Bytes) : Bytes :=
  ad ++ List.replicate (gap ad.length 16) 0 ++ cipherText ++
    List.replicate (gap cipherText.length 16) 0 ++
    (store64Le (UInt64.ofNat ad.length) ++ store64Le (UInt64.ofNat cipherText.length))

/-! ## The parameter, from the source -/

theorem cryptoAeadLock_length (key : Octets 32) (nonce : Octets 24) (ad plainText : Bytes) :
    (cryptoAeadLock key nonce ad plainText).1.length = plainText.length :=
  cryptoAeadWrite_length ..

theorem cryptoAeadUnlock_iff {key : Octets 32} {nonce : Octets 24} {ad : Bytes} {mac : Octets 16}
    {cipherText plainText : Bytes} :
    cryptoAeadUnlock key nonce ad mac cipherText = some plainText ↔
      cryptoAeadLock key nonce ad plainText = (cipherText, mac) := by
  rw [cryptoAeadUnlock, cryptoAeadLock]
  constructor
  · intro h
    have hread := (cryptoAeadRead_iff (cryptoAeadInitX key nonce) _ mac ad cipherText plainText).mp
      (Prod.ext rfl h)
    rw [hread]
  · intro h
    have hwrite := (cryptoAeadRead_iff (cryptoAeadInitX key nonce) _ mac ad cipherText plainText).mpr
      (Prod.ext rfl h)
    rw [hwrite]

theorem cryptoAeadUnlock_length {key : Octets 32} {nonce : Octets 24} {ad : Bytes} {mac : Octets 16}
    {cipherText plainText : Bytes}
    (h : cryptoAeadUnlock key nonce ad mac cipherText = some plainText) :
    plainText.length = cipherText.length := by
  have hlock := cryptoAeadUnlock_iff.mp h
  have hlen := cryptoAeadLock_length key nonce ad plainText
  rw [hlock] at hlen
  exact hlen.symm

/-- The library with BLAKE2b and the authenticated encryption of the source; `m` is left with the
functions of the curves. -/
def Monocypher.withSource (m : Monocypher) : Monocypher :=
  { m with
    blake2b := fun n message => sliceOctets (cryptoBlake2b n message) 0 n
    blake2bKeyed := fun n key message => sliceOctets (cryptoBlake2bKeyed n key message) 0 n
    aeadLock := fun key nonce ad plain =>
      (⟨(cryptoAeadLock key nonce ad plain).1, cryptoAeadLock_length ..⟩,
        (cryptoAeadLock key nonce ad plain).2)
    aeadUnlock := fun key nonce ad tag cipher =>
      (cryptoAeadUnlock key nonce ad tag cipher).map fun plain =>
        sliceOctets plain 0 cipher.length }

end Ctunnel
