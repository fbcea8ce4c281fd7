import Ctunnel.Crypto

/-!
# Recorded primitives

A `Monocypher` that answers from a log of calls of the library, and in a fixed
way on every other input. A log is what a recorded session of ctunnel leaves:
digests, boxes, signatures and X25519 results. `CryptoLog.aeadInverse` says when
such a log is consistent with boxes being opened to what was sealed.
-/

namespace Ctunnel

open Lib

/-! ## Byte literals -/

/-- The `n` bytes of a numeral. -/
def octets (n v : Nat) : Octets n := ⟨beBytes n v, by simp⟩

/-- 64 bytes, given as two numerals of 32. -/
def octets64 (hi lo : Nat) : Octets 64 := ⟨beBytes 32 hi ++ beBytes 32 lo, by simp⟩

/-! ## Logs -/

/-- A digest of `length` bytes; an empty key is the unkeyed hash. -/
structure HashEntry where
  length : Nat
  key : Bytes
  message : Bytes
  digest : Bytes

structure BoxEntry where
  key : Octets 32
  nonce : Octets 24
  ad : Bytes
  plain : Bytes
  cipher : Bytes
  tag : Octets 16

structure SignatureEntry where
  secret : Octets 64
  publicKey : Octets 32
  message : Bytes
  signature : Octets 64

structure ExchangeEntry where
  secret : Octets 32
  publicKey : Octets 32
  peer : Octets 32
  shared : Octets 32

structure CryptoLog where
  hashes : List HashEntry
  boxes : List BoxEntry
  signatures : List SignatureEntry
  exchanges : List ExchangeEntry

namespace CryptoLog

def digest (log : CryptoLog) (length : Nat) (key message : Bytes) : Octets length :=
  match log.hashes.find? fun e => e.length == length && e.key == key && e.message == message with
  | some e => sliceOctets e.digest 0 length
  | none => .replicate length 0

def sealedBox (log : CryptoLog) (key : Octets 32) (nonce : Octets 24) (ad plain : Bytes) :
    Option BoxEntry :=
  log.boxes.find? fun e => e.key == key && e.nonce == nonce && e.ad == ad && e.plain == plain

def openedBox (log : CryptoLog) (key : Octets 32) (nonce : Octets 24) (ad : Bytes)
    (tag : Octets 16) (cipher : Bytes) : Option BoxEntry :=
  log.boxes.find? fun e =>
    e.key == key && e.nonce == nonce && e.ad == ad && e.tag == tag && e.cipher == cipher

/-- The primitives a log stands for. An unrecorded box is its plaintext under
the zero tag. -/
def monocypher (log : CryptoLog) : Monocypher where
  blake2b n message := log.digest n [] message
  blake2bKeyed n key message := log.digest n key message
  aeadLock key nonce ad plain :=
    match log.sealedBox key nonce ad plain with
    | some e => (sliceOctets e.cipher 0 plain.length, e.tag)
    | none => (⟨plain, rfl⟩, .replicate 16 0)
  aeadUnlock key nonce ad tag cipher :=
    match log.openedBox key nonce ad tag cipher with
    | some e => some (sliceOctets e.plain 0 cipher.length)
    | none => if tag = .replicate 16 0 then some ⟨cipher, rfl⟩ else none
  eddsaSign secret message :=
    match log.signatures.find? fun e => e.secret == secret && e.message == message with
    | some e => e.signature
    | none => .replicate 64 0
  eddsaCheck signature publicKey message :=
    log.signatures.any fun e =>
      e.signature == signature && e.publicKey == publicKey && e.message == message
  x25519PublicKey secret :=
    match log.exchanges.find? fun e => e.secret == secret with
    | some e => e.publicKey
    | none => secret
  x25519 secret peer :=
    match log.exchanges.find? fun e => e.secret == secret && e.peer == peer with
    | some e => e.shared
    | none => .replicate 32 0

/-- A recorded box has the length of its plaintext, a tag of its own, and opens
to one plaintext. -/
def BoxesConsistent (log : CryptoLog) : Prop :=
  ∀ e ∈ log.boxes, e.cipher.length = e.plain.length ∧ e.tag ≠ .replicate 16 0 ∧
    ∀ e' ∈ log.boxes, e'.key = e.key → e'.nonce = e.nonce → e'.ad = e.ad → e'.tag = e.tag →
      e'.cipher = e.cipher → e'.plain = e.plain

instance (log : CryptoLog) : Decidable log.BoxesConsistent := by
  unfold BoxesConsistent
  infer_instance

theorem sealedBox_some {log : CryptoLog} {key : Octets 32} {nonce : Octets 24} {ad plain : Bytes}
    {e : BoxEntry} (h : log.sealedBox key nonce ad plain = some e) :
    e ∈ log.boxes ∧ e.key = key ∧ e.nonce = nonce ∧ e.ad = ad ∧ e.plain = plain := by
  have hprop := List.find?_some h
  simp only [Bool.and_eq_true, beq_iff_eq] at hprop
  exact ⟨List.mem_of_find?_eq_some h, hprop.1.1.1, hprop.1.1.2, hprop.1.2, hprop.2⟩

theorem openedBox_some {log : CryptoLog} {key : Octets 32} {nonce : Octets 24} {ad cipher : Bytes}
    {tag : Octets 16} {e : BoxEntry} (h : log.openedBox key nonce ad tag cipher = some e) :
    e ∈ log.boxes ∧ e.key = key ∧ e.nonce = nonce ∧ e.ad = ad ∧ e.tag = tag ∧
      e.cipher = cipher := by
  have hprop := List.find?_some h
  simp only [Bool.and_eq_true, beq_iff_eq] at hprop
  exact ⟨List.mem_of_find?_eq_some h, hprop.1.1.1.1, hprop.1.1.1.2, hprop.1.1.2, hprop.1.2,
    hprop.2⟩

theorem monocypher_lock {log : CryptoLog} (key : Octets 32) (nonce : Octets 24) (ad plain : Bytes) :
    (∃ e, log.sealedBox key nonce ad plain = some e ∧
      log.monocypher.aeadLock key nonce ad plain =
        (sliceOctets e.cipher 0 plain.length, e.tag)) ∨
    log.monocypher.aeadLock key nonce ad plain = (⟨plain, rfl⟩, .replicate 16 0) := by
  simp only [monocypher]
  cases hseal : log.sealedBox key nonce ad plain with
  | none => exact .inr rfl
  | some e => exact .inl ⟨e, rfl, rfl⟩

theorem monocypher_unlock {log : CryptoLog} {key : Octets 32} {nonce : Octets 24} {ad : Bytes}
    {tag : Octets 16} {cipher plain : Bytes} (hlen : cipher.length = plain.length)
    (h : (∃ e, log.openedBox key nonce ad tag cipher = some e ∧ e.plain = plain) ∨
      log.openedBox key nonce ad tag cipher = none ∧ tag = .replicate 16 0 ∧ cipher = plain) :
    (log.monocypher.aeadUnlock key nonce ad tag cipher).map List.Vector.toList = some plain := by
  simp only [monocypher]
  rcases h with ⟨e, hopen, rfl⟩ | ⟨hopen, rfl, rfl⟩
  · rw [hopen]
    simp only [Option.map_some]
    rw [sliceOctets_toList (by omega), slice, List.drop_zero, hlen, List.take_length]
  · rw [hopen]
    rfl

/-- A consistent log opens every box to what was sealed in it. -/
theorem aeadInverse {log : CryptoLog} (h : log.BoxesConsistent) :
    AeadInverse log.monocypher := by
  intro key nonce ad plain
  rcases monocypher_lock key nonce ad plain with ⟨e, hseal, hlock⟩ | hlock
  · obtain ⟨hmem, rfl, rfl, rfl, rfl⟩ := sealedBox_some hseal
    obtain ⟨hlen, -, hone⟩ := h e hmem
    have hcipher : (sliceOctets e.cipher 0 e.plain.length).toList = e.cipher := by
      rw [sliceOctets_toList (by omega), slice, List.drop_zero, ← hlen, List.take_length]
    rw [hlock, hcipher]
    refine monocypher_unlock hlen (.inl ?_)
    cases hopen : log.openedBox e.key e.nonce e.ad e.tag e.cipher with
    | none =>
        have hno := List.find?_eq_none.mp hopen e hmem
        simp at hno
    | some e' =>
        obtain ⟨hmem', hkey, hnonce, had, htag, hciph⟩ := openedBox_some hopen
        exact ⟨e', rfl, hone e' hmem' hkey hnonce had htag hciph⟩
  · rw [hlock]
    refine monocypher_unlock rfl (.inr ⟨?_, rfl, rfl⟩)
    -- no recorded box has the zero tag
    cases hopen : log.openedBox key nonce ad (.replicate 16 0) plain with
    | none => exact hopen
    | some e =>
        obtain ⟨hmem, -, -, -, htag, -⟩ := openedBox_some hopen
        exact absurd htag (h e hmem).2.1

end CryptoLog

end Ctunnel
