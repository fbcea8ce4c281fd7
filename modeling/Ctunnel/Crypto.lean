import Ctunnel.Lib.WriteBuf
import Ctunnel.Protocol

/-!
# Keys, nonces and boxes (`src/crypto/crypto_monocypher.c`)

The primitives of the vendored Monocypher library are the parameter
`Monocypher`; their output lengths are part of their types. What the
developments below assume of them (unforgeability, absence of collisions among
the inputs of a run, commutation of X25519) is stated where it is used, about
the calls a run makes. Everything `crypto_monocypher.c` builds from the
primitives is defined here: the KDF, the session and stream keys, the nonce
`base ‖ sequence` and the AEAD box `ciphertext ‖ tag`.
-/

namespace Ctunnel

open Lib

/-- The functions of `monocypher.h` that ctunnel calls. -/
structure Monocypher where
  /-- `crypto_blake2b(hash, n, message)`. -/
  blake2b : (n : Nat) → Bytes → Octets n
  /-- `crypto_blake2b_keyed(hash, n, key, message)`. -/
  blake2bKeyed : (n : Nat) → (key : Bytes) → Bytes → Octets n
  /-- `crypto_aead_lock`: ciphertext and tag under a key and a nonce. -/
  aeadLock : Octets 32 → Octets 24 → (ad : Bytes) → (plain : Bytes) →
    Octets plain.length × Octets 16
  /-- `crypto_aead_unlock`: the plaintext if the tag is right. -/
  aeadUnlock : Octets 32 → Octets 24 → (ad : Bytes) → (tag : Octets 16) → (cipher : Bytes) →
    Option (Octets cipher.length)
  /-- `crypto_eddsa_sign`. -/
  eddsaSign : (secret : Octets 64) → Bytes → Octets 64
  /-- `crypto_eddsa_check(…) == 0`. -/
  eddsaCheck : (signature : Octets 64) → (publicKey : Octets 32) → Bytes → Bool
  /-- `crypto_x25519_public_key`. -/
  x25519PublicKey : Octets 32 → Octets 32
  /-- `crypto_x25519`. -/
  x25519 : (secret : Octets 32) → (publicKey : Octets 32) → Octets 32

/-! ## Hash, MAC and KDF -/

/-- `ct_crypto_hash`. -/
def ctCryptoHash (m : Monocypher) (message : Bytes) : Octets 32 := m.blake2b 32 message

/-- `ct_crypto_mac`. -/
def ctCryptoMac (m : Monocypher) (key : Octets 32) (message : Bytes) : Octets 32 :=
  m.blake2bKeyed 32 key.toList message

/-- The extract step of `ct_crypto_kdf`. -/
def kdfExtract (m : Monocypher) (material salt : Bytes) : Octets 64 :=
  if salt.length ≠ 0 then m.blake2bKeyed 64 salt material else m.blake2b 64 material

/-- The expand loop of `ct_crypto_kdf`: blocks `0, 1, …` of 64 bytes, each keyed
by the extracted key over the little-endian counter and the context. -/
def kdfExpand (m : Monocypher) (prk : Octets 64) (context : Bytes) (length : Nat) :
    Octets length :=
  sliceOctets ((List.range ((length + 63) / 64)).flatMap fun counter =>
    (m.blake2bKeyed 64 prk.toList ((beBytes 8 counter).reverse ++ context)).toList) 0 length

/-- `ct_crypto_kdf`. The second disjunct is the exhausted block counter. -/
def ctCryptoKdf (m : Monocypher) (length : Nat) (material salt context : Bytes) :
    Option (Octets length) :=
  if salt.length > 64 ∨ 2 ^ 64 * 64 < length then none
  else some (kdfExpand m (kdfExtract m material salt) context length)

/-- `derive`. -/
def derive (m : Monocypher) (material salt : Octets 32) (label : String) (length : Nat) :
    Option (Octets length) :=
  ctCryptoKdf m length material.toList salt.toList (ascii label)

/-- What `derive` derives: a 32-byte salt and a short output are never refused. -/
def deriveKey (m : Monocypher) (material salt : Octets 32) (label : String) (length : Nat) :
    Octets length :=
  kdfExpand m (kdfExtract m material.toList salt.toList) (ascii label) length

theorem derive_eq (m : Monocypher) (material salt : Octets 32) (label : String) {length : Nat}
    (h : length ≤ 64) : derive m material salt label length =
      some (deriveKey m material salt label length) := by
  unfold derive ctCryptoKdf
  rw [if_neg]
  · rfl
  · simp only [List.Vector.toList_length]
    omega

/-! ## Session keys -/

/-- `ct_session_keys`. -/
structure CtSessionKeys where
  controlC2s : Octets 32
  controlS2c : Octets 32
  dataMaster : Octets 32
  workAuthKey : Octets 32
  streamAuthKey : Octets 32
  nonceC2s : Octets 16
  nonceS2c : Octets 16
  sessionId : UInt64
  deriving DecidableEq

/-- `memset(keys, 0, sizeof *keys)`. -/
def CtSessionKeys.zero : CtSessionKeys :=
  ⟨.replicate 32 0, .replicate 32 0, .replicate 32 0, .replicate 32 0, .replicate 32 0,
    .replicate 16 0, .replicate 16 0, 0⟩

/-- `ct_derive_session`. Without data encryption there is no `data_master`. -/
def ctDeriveSession (b : Build) (m : Monocypher) (shared : Octets 32) (transcript : Bytes) :
    Option CtSessionKeys := do
  let salt := m.blake2b 32 transcript
  let controlC2s ← derive m shared salt "ctunnel-v3/control-c2s-key" 32
  let controlS2c ← derive m shared salt "ctunnel-v3/control-s2c-key" 32
  let nonceC2s ← derive m shared salt "ctunnel-v3/control-c2s-nonce" 16
  let nonceS2c ← derive m shared salt "ctunnel-v3/control-s2c-nonce" 16
  let workAuthKey ← derive m shared salt "ctunnel-v3/work-auth" 32
  let streamAuthKey ← derive m shared salt "ctunnel-v3/stream-auth" 32
  let sessionId ← derive m shared salt "ctunnel-v3/session-id" 8
  let dataMaster ←
    if b.dataEncryption then derive m shared salt "ctunnel-v3/data-master" 32
    else some (.replicate 32 0)
  let id := ctGetU64 sessionId.toList 0
  return { controlC2s, controlS2c, dataMaster, workAuthKey, streamAuthKey, nonceC2s, nonceS2c,
           sessionId := if id = 0 then 1 else id }

/-- The keys `ct_derive_session` derives. -/
def sessionKeys (dataEncryption : Bool) (m : Monocypher) (shared : Octets 32) (t : Bytes) :
    CtSessionKeys :=
  let salt := m.blake2b 32 t
  let id := ctGetU64 (deriveKey m shared salt "ctunnel-v3/session-id" 8).toList 0
  { controlC2s := deriveKey m shared salt "ctunnel-v3/control-c2s-key" 32
    controlS2c := deriveKey m shared salt "ctunnel-v3/control-s2c-key" 32
    dataMaster :=
      if dataEncryption then deriveKey m shared salt "ctunnel-v3/data-master" 32
      else .replicate 32 0
    workAuthKey := deriveKey m shared salt "ctunnel-v3/work-auth" 32
    streamAuthKey := deriveKey m shared salt "ctunnel-v3/stream-auth" 32
    nonceC2s := deriveKey m shared salt "ctunnel-v3/control-c2s-nonce" 16
    nonceS2c := deriveKey m shared salt "ctunnel-v3/control-s2c-nonce" 16
    sessionId := if id = 0 then 1 else id }

/-- `ct_derive_session` does not fail. -/
theorem ctDeriveSession_eq (b : Build) (m : Monocypher) (shared : Octets 32) (t : Bytes) :
    ctDeriveSession b m shared t = some (sessionKeys b.dataEncryption m shared t) := by
  simp only [ctDeriveSession, derive_eq m shared _ _ (show 32 ≤ 64 by omega),
    derive_eq m shared _ _ (show 16 ≤ 64 by omega), derive_eq m shared _ _ (show 8 ≤ 64 by omega),
    Option.bind_eq_bind, Option.bind_some, Option.pure_def, sessionKeys]
  cases b.dataEncryption <;> rfl

/-! ## Stream keys -/

/-- The `dir` argument of `ct_derive_data`. -/
inductive Direction
  | c2s
  | s2c
  deriving DecidableEq, Repr

/-- `(uint8_t)dir`. -/
def Direction.toByte : Direction → UInt8
  | .c2s => 0
  | .s2c => 1

/-- `key_label` of `ct_derive_data`. -/
def Direction.keyLabel : Direction → String
  | .c2s => "ctunnel-v3/data-stream-c2s-key"
  | .s2c => "ctunnel-v3/data-stream-s2c-key"

/-- `nonce_label` of `ct_derive_data`. -/
def Direction.nonceLabel : Direction → String
  | .c2s => "ctunnel-v3/data-stream-c2s-nonce"
  | .s2c => "ctunnel-v3/data-stream-s2c-nonce"

/-- What identifies a stream to `ct_derive_data`. -/
structure StreamContext where
  stream : UInt64
  random : Octets 32
  workId : Octets 32
  serviceId : CString
  mode : CtEncMode
  deriving DecidableEq

/-- The writes `ct_derive_data` makes into `uint8_t context[192]`. -/
def deriveDataContext (c : StreamContext) (dir : Direction) : WriteBuf :=
  (WriteBuf.new 192).putAll
    [ascii "ctunnel-v3/data-stream", ctPutU64 c.stream, c.random.toList, c.workId.toList,
      ctPutU16 (UInt16.ofNat c.serviceId.length), c.serviceId.bytes, [c.mode.toByte],
      [dir.toByte]]

/-- `ct_derive_data`: key and nonce base of one direction of a stream. -/
def ctDeriveData (b : Build) (m : Monocypher) (master : Octets 32) (c : StreamContext)
    (dir : Direction) : Option (Octets 32 × Octets 16) :=
  if c.serviceId.length > b.maxServiceIdLength then none
  else do
    let salt := m.blake2b 32 (deriveDataContext c dir).bytes
    let key ← derive m master salt dir.keyLabel 32
    let nonceBase ← derive m master salt dir.nonceLabel 16
    return (key, nonceBase)

/-! ## AEAD boxes -/

/-- `ct_cipher_available`. -/
def ctCipherAvailable (c : CtCipher) : Bool := c == .chacha

/-- `make_nonce`. -/
def makeNonce (base : Octets 16) (sequence : UInt64) : Octets 24 :=
  ⟨base.toList ++ ctPutU64 sequence, by simp⟩

/-- `SIZE_MAX` of a 32-bit target, the smallest one supported. -/
def sizeMax : Nat := 2 ^ 32 - 1

/-- `ct_aead_encrypt`: the box `ciphertext ‖ tag`. -/
def ctAeadEncrypt (m : Monocypher) (cipher : CtCipher) (key : Octets 32) (base : Octets 16)
    (sequence : UInt64) (ad plain : Bytes) : Option Bytes :=
  if !ctCipherAvailable cipher || decide (plain.length > sizeMax - ctAeadTag) then none
  else
    let locked := m.aeadLock key (makeNonce base sequence) ad plain
    some (locked.1.toList ++ locked.2.toList)

/-- `ct_aead_decrypt`. -/
def ctAeadDecrypt (m : Monocypher) (cipher : CtCipher) (key : Octets 32) (base : Octets 16)
    (sequence : UInt64) (ad input : Bytes) : Option Bytes :=
  if !ctCipherAvailable cipher || decide (input.length < ctAeadTag) then none
  else
    let n := input.length - ctAeadTag
    (m.aeadUnlock key (makeNonce base sequence) ad (sliceOctets input n 16)
      (input.take n)).map List.Vector.toList

theorem ctAeadEncrypt_some (m : Monocypher) (key : Octets 32) (base : Octets 16)
    (sequence : UInt64) (ad : Bytes) {plain : Bytes} (h : plain.length ≤ sizeMax - ctAeadTag) :
    ∃ box, ctAeadEncrypt m .chacha key base sequence ad plain = some box := by
  unfold ctAeadEncrypt
  rw [if_neg (by simpa [ctCipherAvailable] using h)]
  exact ⟨_, rfl⟩

/-- A box is 16 bytes longer than its plaintext. -/
theorem ctAeadEncrypt_length {m : Monocypher} {cipher : CtCipher} {key : Octets 32}
    {base : Octets 16} {sequence : UInt64} {ad plain box : Bytes}
    (h : ctAeadEncrypt m cipher key base sequence ad plain = some box) :
    box.length = plain.length + ctAeadTag := by
  unfold ctAeadEncrypt at h
  split at h
  · exact absurd h (by simp)
  · injection h with h
    subst h
    simp [ctAeadTag]

/-- A plaintext is 16 bytes shorter than its box. -/
theorem ctAeadDecrypt_length {m : Monocypher} {cipher : CtCipher} {key : Octets 32}
    {base : Octets 16} {sequence : UInt64} {ad input plain : Bytes}
    (h : ctAeadDecrypt m cipher key base sequence ad input = some plain) :
    plain.length = input.length - ctAeadTag := by
  unfold ctAeadDecrypt at h
  split at h
  · exact absurd h (by simp)
  · obtain ⟨v, _, hv⟩ := Option.map_eq_some_iff.mp h
    subst hv
    simp

/-- Only the one cipher that is available seals boxes. -/
theorem ctAeadEncrypt_cipher {m : Monocypher} {cipher : CtCipher} {key : Octets 32}
    {base : Octets 16} {sequence : UInt64} {ad plain box : Bytes}
    (h : ctAeadEncrypt m cipher key base sequence ad plain = some box) : cipher = .chacha := by
  unfold ctAeadEncrypt at h
  split at h
  · exact absurd h (by simp)
  · rename_i hok
    simp only [Bool.or_eq_true, Bool.not_eq_true', not_or, Bool.not_eq_false] at hok
    simpa [ctCipherAvailable] using hok.1

theorem ctAeadDecrypt_cipher {m : Monocypher} {cipher : CtCipher} {key : Octets 32}
    {base : Octets 16} {sequence : UInt64} {ad input plain : Bytes}
    (h : ctAeadDecrypt m cipher key base sequence ad input = some plain) : cipher = .chacha := by
  unfold ctAeadDecrypt at h
  split at h
  · exact absurd h (by simp)
  · rename_i hok
    simp only [Bool.or_eq_true, Bool.not_eq_true', not_or, Bool.not_eq_false] at hok
    simpa [ctCipherAvailable] using hok.1

/-- `crypto_aead_unlock` undoes `crypto_aead_lock` (documented of Monocypher). -/
def AeadInverse (m : Monocypher) : Prop :=
  ∀ key nonce ad plain,
    (m.aeadUnlock key nonce ad (m.aeadLock key nonce ad plain).2
      (m.aeadLock key nonce ad plain).1.toList).map List.Vector.toList = some plain

/-- A box opens, under the parameters it was made with, to its plaintext. -/
theorem ctAeadDecrypt_sealed {m : Monocypher} (hinv : AeadInverse m) {cipher : CtCipher}
    {key : Octets 32} {base : Octets 16} {sequence : UInt64} {ad plain box : Bytes}
    (henc : ctAeadEncrypt m cipher key base sequence ad plain = some box) :
    ctAeadDecrypt m cipher key base sequence ad box = some plain := by
  have hlen := ctAeadEncrypt_length henc
  unfold ctAeadEncrypt at henc
  split at henc
  · exact absurd henc (by simp)
  · rename_i havailable
    injection henc with hbox
    have hn : box.length - ctAeadTag = plain.length := by omega
    have htake : box.take (box.length - ctAeadTag) =
        (m.aeadLock key (makeNonce base sequence) ad plain).1.toList := by
      rw [hn, ← hbox, List.take_left' (by simp)]
    have htag : sliceOctets box (box.length - ctAeadTag) 16 =
        (m.aeadLock key (makeNonce base sequence) ad plain).2 := by
      apply List.Vector.eq
      rw [sliceOctets_toList (by simp only [ctAeadTag] at hlen ⊢; omega), hn, ← hbox,
        slice_append_right (by simp)]
      simp [slice]
    have hback := hinv key (makeNonce base sequence) ad plain
    rw [← htake, ← htag] at hback
    unfold ctAeadDecrypt
    rw [if_neg]
    · exact hback
    · intro hrefused
      simp only [Bool.or_eq_true, Bool.not_eq_true', decide_eq_true_eq] at hrefused havailable
      rcases hrefused with hcipher | hshort
      · exact havailable (.inl hcipher)
      · omega

/-- Whatever a box opens to under the parameters it was made with is its
plaintext. -/
theorem ctAeadDecrypt_encrypt {m : Monocypher} (hinv : AeadInverse m) {cipher cipher' : CtCipher}
    {key : Octets 32} {base : Octets 16} {sequence : UInt64} {ad plain box plain' : Bytes}
    (henc : ctAeadEncrypt m cipher key base sequence ad plain = some box)
    (hdec : ctAeadDecrypt m cipher' key base sequence ad box = some plain') :
    plain' = plain := by
  have hsame : cipher' = cipher := by rw [ctAeadEncrypt_cipher henc, ctAeadDecrypt_cipher hdec]
  subst hsame
  rw [ctAeadDecrypt_sealed hinv henc] at hdec
  exact (Option.some.inj hdec).symm

end Ctunnel
