import Ctunnel.Types
import Mathlib.Data.List.GetD

/-!
# Wire protocol v3 (`src/protocol/protocol.c`)

The frame header, length-prefixed strings, the header of a DATA record and the
body of `REGISTER_SERVICE`. Integers are big-endian on the wire; a decoder that
the source gives an output parameter per field returns the fields.
-/

namespace Ctunnel

open Lib

/-! ## Integers -/

/-- `ct_put_u16`. -/
def ctPutU16 (v : UInt16) : Bytes := beBytes 2 v.toNat

/-- `ct_put_u32`. -/
def ctPutU32 (v : UInt32) : Bytes := beBytes 4 v.toNat

/-- `ct_put_u64`. -/
def ctPutU64 (v : UInt64) : Bytes := beBytes 8 v.toNat

/-- `ct_get_u16(p + off)`. -/
def ctGetU16 (p : Bytes) (off : Nat) : UInt16 := UInt16.ofNat (beNat (slice p off 2))

/-- `ct_get_u32(p + off)`. -/
def ctGetU32 (p : Bytes) (off : Nat) : UInt32 := UInt32.ofNat (beNat (slice p off 4))

/-- `ct_get_u64(p + off)`. -/
def ctGetU64 (p : Bytes) (off : Nat) : UInt64 := UInt64.ofNat (beNat (slice p off 8))

@[simp] theorem ctPutU16_length (v : UInt16) : (ctPutU16 v).length = 2 := by simp [ctPutU16]
@[simp] theorem ctPutU32_length (v : UInt32) : (ctPutU32 v).length = 4 := by simp [ctPutU32]
@[simp] theorem ctPutU64_length (v : UInt64) : (ctPutU64 v).length = 8 := by simp [ctPutU64]

theorem ctGetU32_put (v : UInt32) (rest : Bytes) : ctGetU32 (ctPutU32 v ++ rest) 0 = v := by
  have hv := v.toNat_lt
  rw [ctGetU32, slice_append_left (ctPutU32_length v), ctPutU32, beNat_beBytes,
    Nat.mod_eq_of_lt (by omega), UInt32.ofNat_toNat]

theorem ctGetU64_put (v : UInt64) (rest : Bytes) : ctGetU64 (ctPutU64 v ++ rest) 0 = v := by
  have hv := v.toNat_lt
  rw [ctGetU64, slice_append_left (ctPutU64_length v), ctPutU64, beNat_beBytes,
    Nat.mod_eq_of_lt (by omega), UInt64.ofNat_toNat]

theorem ctPutU64_inj {v v' : UInt64} (h : ctPutU64 v = ctPutU64 v') : v = v' := by
  have hv := v.toNat_lt
  have hv' := v'.toNat_lt
  exact UInt64.toNat_inj.mp (beBytes_inj (by omega) (by omega) h)

theorem append_u64_inj {v v' : UInt64} {x y : Bytes} (h : ctPutU64 v ++ x = ctPutU64 v' ++ y) :
    v = v' ∧ x = y := by
  obtain ⟨hv, hxy⟩ := List.append_inj h (by simp)
  exact ⟨ctPutU64_inj hv, hxy⟩

theorem append_u32_inj {v v' : UInt32} {x y : Bytes} (h : ctPutU32 v ++ x = ctPutU32 v' ++ y) :
    v = v' ∧ x = y := by
  have hv := v.toNat_lt
  have hv' := v'.toNat_lt
  obtain ⟨hvv, hxy⟩ := append_beBytes_inj (by omega) (by omega) h
  exact ⟨UInt32.toNat_inj.mp hvv, hxy⟩

theorem append_u16_inj {v v' : UInt16} {x y : Bytes} (h : ctPutU16 v ++ x = ctPutU16 v' ++ y) :
    v = v' ∧ x = y := by
  have hv := v.toNat_lt
  have hv' := v'.toNat_lt
  obtain ⟨hvv, hxy⟩ := append_beBytes_inj (by omega) (by omega) h
  exact ⟨UInt16.toNat_inj.mp hvv, hxy⟩

/-- A string behind its own length is delimited. -/
theorem append_string_inj {s t x y : Bytes} (hs : s.length ≤ 65535) (ht : t.length ≤ 65535)
    (h : ctPutU16 (UInt16.ofNat s.length) ++ (s ++ x) =
      ctPutU16 (UInt16.ofNat t.length) ++ (t ++ y)) : s = t ∧ x = y := by
  obtain ⟨hlen, hrest⟩ := append_u16_inj h
  have hlen' := congrArg UInt16.toNat hlen
  rw [UInt16.toNat_ofNat', UInt16.toNat_ofNat', Nat.mod_eq_of_lt (by omega),
    Nat.mod_eq_of_lt (by omega)] at hlen'
  exact List.append_inj hrest hlen'

/-- What is read from two bytes is written back as these bytes. -/
theorem ctPutU16_get {p : Bytes} {off : Nat} (h : off + 2 ≤ p.length) :
    ctPutU16 (ctGetU16 p off) = slice p off 2 := by
  have hlen := slice_length h
  have hlt := beNat_lt (slice p off 2)
  rw [hlen] at hlt
  have hback : (UInt16.ofNat (beNat (slice p off 2))).toNat = beNat (slice p off 2) := by
    rw [UInt16.toNat_ofNat']
    exact Nat.mod_eq_of_lt hlt
  have hbytes := beBytes_beNat (slice p off 2)
  rw [hlen] at hbytes
  rw [ctPutU16, ctGetU16, hback, hbytes]

theorem ctPutU32_get {p : Bytes} {off : Nat} (h : off + 4 ≤ p.length) :
    ctPutU32 (ctGetU32 p off) = slice p off 4 := by
  have hlen := slice_length h
  have hlt := beNat_lt (slice p off 4)
  rw [hlen] at hlt
  have hback : (UInt32.ofNat (beNat (slice p off 4))).toNat = beNat (slice p off 4) := by
    rw [UInt32.toNat_ofNat']
    exact Nat.mod_eq_of_lt hlt
  have hbytes := beBytes_beNat (slice p off 4)
  rw [hlen] at hbytes
  rw [ctPutU32, ctGetU32, hback, hbytes]

/-! ## Message types -/

/-- `ct_msg_type`. -/
inductive CtMsgType
  | clientHello
  | serverHello
  | clientAuth
  | authOk
  | authFailed
  | registerService
  | registerOk
  | registerFailed
  | unregisterService
  | requestWorkConnection
  | workConnectionBind
  | startStream
  | streamReady
  | streamFailed
  | closeStream
  | udpDatagram
  | udpSessionClose
  | udpError
  | ping
  | pong
  | error
  | goaway
  deriving DecidableEq, Repr

/-- The enumerator's value. -/
def CtMsgType.toByte : CtMsgType → UInt8
  | .clientHello => 1
  | .serverHello => 2
  | .clientAuth => 3
  | .authOk => 4
  | .authFailed => 5
  | .registerService => 10
  | .registerOk => 11
  | .registerFailed => 12
  | .unregisterService => 13
  | .requestWorkConnection => 20
  | .workConnectionBind => 21
  | .startStream => 22
  | .streamReady => 23
  | .streamFailed => 24
  | .closeStream => 25
  | .udpDatagram => 26
  | .udpSessionClose => 27
  | .udpError => 28
  | .ping => 30
  | .pong => 31
  | .error => 32
  | .goaway => 33

/-- `ct_message_type_valid`. -/
def ctMessageTypeValid (t : UInt8) : Bool :=
  [1, 2, 3, 4, 5, 10, 11, 12, 13, 20, 21, 22, 23, 24, 25, 26, 27, 28, 30, 31, 32, 33].contains t

/-! ## Frame header -/

/-- `CT_MAGIC`. -/
def ctMagic : UInt32 := 0x4354554e

/-- `CT_PROTOCOL_VERSION`. -/
def ctProtocolVersion : UInt8 := 3

/-- `CT_FRAME_HEADER_SIZE`. -/
def ctFrameHeaderSize : Nat := 36

/-- `CT_FLAG_ENCRYPTED`. -/
def ctFlagEncrypted : UInt8 := 1

/-- `CT_AEAD_TAG`, also `CT_RECORD_TAG_SIZE`. -/
def ctAeadTag : Nat := 16

/-- `UINT64_MAX`. -/
def uint64Max : UInt64 := 0xffffffffffffffff

/-- `ct_frame_header`. -/
structure CtFrameHeader where
  type : UInt8
  flags : UInt8
  payloadLen : UInt32
  sessionId : UInt64
  streamId : UInt64
  sequence : UInt64
  deriving DecidableEq

/-- The 36 bytes of an encoded header. -/
def frameHeaderBytes (h : CtFrameHeader) : Octets 36 :=
  ⟨ctPutU32 ctMagic ++ [ctProtocolVersion, h.type, h.flags, 36] ++ ctPutU32 h.payloadLen ++
    ctPutU64 h.sessionId ++ ctPutU64 h.streamId ++ ctPutU64 h.sequence, by simp⟩

/-- `ct_frame_header_encode`. -/
def ctFrameHeaderEncode (b : Build) (h : CtFrameHeader) : Option (Octets 36) :=
  if !ctMessageTypeValid h.type || decide (b.maxFrameSize < h.payloadLen.toNat) then none
  else some (frameHeaderBytes h)

/-- `ct_frame_header_decode`. -/
def ctFrameHeaderDecode (b : Build) (p : Octets 36) : Option CtFrameHeader :=
  if ctGetU32 p.toList 0 ≠ ctMagic ∨ p.toList.getD 4 0 ≠ ctProtocolVersion ∨
      p.toList.getD 7 0 ≠ 36 ∨ ctMessageTypeValid (p.toList.getD 5 0) = false then none
  else
    let h : CtFrameHeader :=
      { type := p.toList.getD 5 0
        flags := p.toList.getD 6 0
        payloadLen := ctGetU32 p.toList 8
        sessionId := ctGetU64 p.toList 12
        streamId := ctGetU64 p.toList 20
        sequence := ctGetU64 p.toList 28 }
    if b.maxFrameSize < h.payloadLen.toNat then none else some h

/-- What an encoder put into a header a decoder reads back. -/
theorem ctFrameHeaderDecode_encode {b : Build} {h : CtFrameHeader} {p : Octets 36}
    (henc : ctFrameHeaderEncode b h = some p) : ctFrameHeaderDecode b p = some h := by
  unfold ctFrameHeaderEncode at henc
  split at henc
  · exact absurd henc (by simp)
  · rename_i hok
    simp only [Bool.or_eq_true, Bool.not_eq_true', decide_eq_true_eq, not_or, not_lt,
      Bool.not_eq_false] at hok
    injection henc with henc
    subst henc
    -- peel the concatenation field by field
    have hlist : (frameHeaderBytes h).toList =
        ctPutU32 ctMagic ++ ([ctProtocolVersion, h.type, h.flags, 36] ++
          (ctPutU32 h.payloadLen ++ (ctPutU64 h.sessionId ++ (ctPutU64 h.streamId ++
            (ctPutU64 h.sequence ++ []))))) := by
      simp [frameHeaderBytes, List.Vector.toList]
    have hmagic : ctGetU32 (frameHeaderBytes h).toList 0 = ctMagic := by
      rw [hlist, ctGetU32_put]
    have hlen : ctGetU32 (frameHeaderBytes h).toList 8 = h.payloadLen := by
      rw [hlist, ctGetU32, slice_append_right (by simp), slice_append_right (by simp)]
      exact ctGetU32_put _ _
    have hsession : ctGetU64 (frameHeaderBytes h).toList 12 = h.sessionId := by
      rw [hlist, ctGetU64, slice_append_right (by simp), slice_append_right (by simp),
        slice_append_right (by simp)]
      exact ctGetU64_put _ _
    have hstream : ctGetU64 (frameHeaderBytes h).toList 20 = h.streamId := by
      rw [hlist, ctGetU64, slice_append_right (by simp), slice_append_right (by simp),
        slice_append_right (by simp), slice_append_right (by simp)]
      exact ctGetU64_put _ _
    have hseq : ctGetU64 (frameHeaderBytes h).toList 28 = h.sequence := by
      rw [hlist, ctGetU64, slice_append_right (by simp), slice_append_right (by simp),
        slice_append_right (by simp), slice_append_right (by simp), slice_append_right (by simp)]
      exact ctGetU64_put _ _
    have hbytes : ∀ i, i < 4 → (frameHeaderBytes h).toList.getD (4 + i) 0 =
        [ctProtocolVersion, h.type, h.flags, 36].getD i 0 := by
      intro i hi
      rw [hlist, List.getD_append_right _ _ _ _ (by simp), List.getD_append _ _ _ _ (by simp; omega)]
      simp
    have h4 : (frameHeaderBytes h).toList.getD 4 0 = ctProtocolVersion := hbytes 0 (by omega)
    have h5 : (frameHeaderBytes h).toList.getD 5 0 = h.type := hbytes 1 (by omega)
    have h6 : (frameHeaderBytes h).toList.getD 6 0 = h.flags := hbytes 2 (by omega)
    have h7 : (frameHeaderBytes h).toList.getD 7 0 = 36 := hbytes 3 (by omega)
    unfold ctFrameHeaderDecode
    rw [hmagic, h4, h5, h6, h7, hlen, hsession, hstream, hseq]
    simp [hok.1, Nat.not_lt.mpr hok.2]

/-- Decoders of two builds read the same fields. -/
theorem ctFrameHeaderDecode_build {b b' : Build} {head : Octets 36} {h h' : CtFrameHeader}
    (hb : ctFrameHeaderDecode b head = some h) (hb' : ctFrameHeaderDecode b' head = some h') :
    h = h' := by
  unfold ctFrameHeaderDecode at hb hb'
  split at hb
  · exact absurd hb (by simp)
  · rename_i hok
    rw [if_neg hok] at hb'
    simp only at hb hb'
    split at hb
    · exact absurd hb (by simp)
    · split at hb'
      · exact absurd hb' (by simp)
      · exact Option.some.inj (hb.symm.trans hb')

/-! ## Length-prefixed strings -/

/-- `ct_pack_string`: append to a buffer of capacity `cap`, of which `buf` is
filled. -/
def ctPackString (cap : Nat) (buf : Bytes) (s : CString) (max : Nat) : Option Bytes :=
  if s.length > max ∨ s.length > 65535 ∨ buf.length > cap ∨ cap - buf.length < 2 + s.length then
    none
  else some (buf ++ ctPutU16 (UInt16.ofNat s.length) ++ s.bytes)

/-- `ct_unpack_string`: the bytes of the field (the caller's buffer holds them
with a NUL behind) and the offset after it. -/
def ctUnpackString (p : Bytes) (n off cap : Nat) : Option (Bytes × Nat) :=
  if off > n ∨ n - off < 2 then none
  else
    let z := (ctGetU16 p off).toNat
    if z ≥ cap ∨ n - off - 2 < z then none
    else some (slice p (off + 2) z, off + 2 + z)

/-- A string that was unpacked stands in the buffer behind its length. -/
theorem ctUnpackString_some {p s : Bytes} {n off cap o : Nat}
    (h : ctUnpackString p n off cap = some (s, o)) (hn : n ≤ p.length) :
    s.length < cap ∧ s.length ≤ 65535 ∧ o = off + 2 + s.length ∧ o ≤ n ∧
      slice p off (2 + s.length) = ctPutU16 (UInt16.ofNat s.length) ++ s := by
  simp only [ctUnpackString] at h
  split at h
  · exact absurd h (by simp)
  · split at h
    · exact absurd h (by simp)
    · rename_i hroom hfit
      simp only [not_or, not_lt, ge_iff_le, not_le, gt_iff_lt] at hroom hfit
      simp only [Option.some.injEq, Prod.mk.injEq] at h
      obtain ⟨rfl, rfl⟩ := h
      have hlen : (slice p (off + 2) (ctGetU16 p off).toNat).length = (ctGetU16 p off).toNat :=
        slice_length (by omega)
      have hlt := (ctGetU16 p off).toNat_lt
      rw [hlen]
      refine ⟨hfit.1, by omega, rfl, by omega, ?_⟩
      rw [UInt16.ofNat_toNat, ctPutU16_get (by omega)]
      simp only [slice]
      rw [List.take_add, List.drop_drop]

/-! ## DATA records -/

/-- `ct_data_record_header_decode`: encoded length and sequence. -/
def ctDataRecordHeaderDecode (header : Octets 12) (maxPlaintext : Nat)
    (previousSequence : UInt64) : Option (UInt32 × UInt64) :=
  let length := ctGetU32 header.toList 0
  let receivedSequence := ctGetU64 header.toList 4
  if maxPlaintext > 0xffffffff - ctAeadTag ∨ length.toNat < ctAeadTag ∨
      length.toNat > maxPlaintext + ctAeadTag ∨ previousSequence = uint64Max ∨
      receivedSequence ≠ previousSequence + 1 then none
  else some (length, receivedSequence)

/-- What the receiver of a record header has checked. -/
theorem ctDataRecordHeaderDecode_some {header : Octets 12} {maxPlaintext : Nat}
    {prev : UInt64} {n : UInt32} {seq : UInt64}
    (h : ctDataRecordHeaderDecode header maxPlaintext prev = some (n, seq)) :
    ctAeadTag ≤ n.toNat ∧ n.toNat ≤ maxPlaintext + ctAeadTag ∧ prev ≠ uint64Max ∧
      seq = prev + 1 := by
  simp only [ctDataRecordHeaderDecode] at h
  split at h
  · exact absurd h (by simp)
  · rename_i hok
    simp only [gt_iff_lt, ne_eq, not_or, not_lt, Decidable.not_not] at hok
    simp only [Option.some.injEq, Prod.mk.injEq] at h
    obtain ⟨rfl, rfl⟩ := h
    exact ⟨hok.2.1, hok.2.2.1, hok.2.2.2.1, hok.2.2.2.2⟩

/-- Below the last sequence number the successor does not wrap. -/
theorem toNat_succ_of_ne_max {s : UInt64} (h : s ≠ uint64Max) :
    (s + 1).toNat = s.toNat + 1 := by
  have hlt := s.toNat_lt
  have hne : s.toNat ≠ uint64Max.toNat := fun he => h (UInt64.toNat_inj.mp he)
  have hmax : uint64Max.toNat = 2 ^ 64 - 1 := by decide
  have hone : (1 : UInt64).toNat = 1 := by decide
  rw [UInt64.toNat_add, hone]
  omega

/-! ## REGISTER_SERVICE -/

/-- The fields `ct_register_request_decode` returns. -/
structure RegisterRequest where
  serviceId : Bytes
  remoteAddress : Bytes
  remotePort : UInt16
  type : UInt8
  mode : UInt8
  proxyProtocol : UInt8
  udpIdleTimeout : UInt32
  udpReplyTimeout : UInt32
  udpMaxSessions : UInt32
  udpMaxDatagramSize : UInt32
  deriving DecidableEq

/-- `ct_register_request_decode` (every caller passes all output pointers). -/
def ctRegisterRequestDecode (payload : Bytes) (serviceCapacity addressCapacity : Nat) :
    Option RegisterRequest :=
  match ctUnpackString payload payload.length 0 serviceCapacity with
  | none => none
  | some (serviceId, off1) =>
      match ctUnpackString payload payload.length off1 addressCapacity with
      | none => none
      | some (remoteAddress, off2) =>
          if payload.length - off2 < 4 then none
          else
            let base : RegisterRequest :=
              { serviceId := serviceId
                remoteAddress := remoteAddress
                remotePort := ctGetU16 payload off2
                type := payload.getD (off2 + 2) 0
                mode := payload.getD (off2 + 3) 0
                proxyProtocol := 0
                udpIdleTimeout := 0
                udpReplyTimeout := 0
                udpMaxSessions := 0
                udpMaxDatagramSize := 0 }
            let off := off2 + 4
            if payload.length = off then some base
            else
              let proxied := payload.length - off = 1 ∨ payload.length - off = 17
              let base := if proxied then { base with proxyProtocol := payload.getD off 0 } else base
              let off := if proxied then off + 1 else off
              if payload.length = off then some base
              else if payload.length - off ≠ 16 then none
              else some
                { base with
                  udpIdleTimeout := ctGetU32 payload off
                  udpReplyTimeout := ctGetU32 payload (off + 4)
                  udpMaxSessions := ctGetU32 payload (off + 8)
                  udpMaxDatagramSize := ctGetU32 payload (off + 12) }

end Ctunnel
