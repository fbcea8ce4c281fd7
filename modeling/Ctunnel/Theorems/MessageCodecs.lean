import Ctunnel.Client.Session
import Ctunnel.Lib.Fetch
import Ctunnel.Net.Fields
import Ctunnel.Theorems.Registration

/-!
# Frame headers and REGISTER_SERVICE

The header encoder and decoder are inverse on the headers and on the strings that
they accept (`frame_header_codec`). `ct_register_request_decode` reads back what
`client_register` writes, accepts exactly four layouts, and reads no byte behind
the payload (`register_request_codec`).
-/

namespace Ctunnel

open Lib

variable {b : Build}

/-! ## Frame headers -/

theorem ctFrameHeaderEncode_some {h : CtFrameHeader} (htype : ctMessageTypeValid h.type = true)
    (hlen : h.payloadLen.toNat ≤ b.maxFrameSize) :
    ctFrameHeaderEncode b h = some (frameHeaderBytes h) := by
  unfold ctFrameHeaderEncode
  rw [if_neg]
  simp [htype, hlen]

/-- A decoded header has passed the tests of the encoder. -/
theorem ctFrameHeaderDecode_valid {p : Octets 36} {h : CtFrameHeader}
    (hdec : ctFrameHeaderDecode b p = some h) :
    ctMessageTypeValid h.type = true ∧ h.payloadLen.toNat ≤ b.maxFrameSize := by
  unfold ctFrameHeaderDecode at hdec
  split at hdec
  · exact absurd hdec (by simp)
  · rename_i hok
    simp only [not_or, ne_eq, not_not, Bool.not_eq_false] at hok
    dsimp only at hdec
    split at hdec
    · exact absurd hdec (by simp)
    · rename_i hlen
      injection hdec with hdec
      subst hdec
      exact ⟨hok.2.2.2, Nat.le_of_not_lt hlen⟩

theorem ctFrameHeaderEncode_decode {p : Octets 36} {h : CtFrameHeader}
    (hdec : ctFrameHeaderDecode b p = some h) : ctFrameHeaderEncode b h = some p := by
  obtain ⟨htype, hlen⟩ := ctFrameHeaderDecode_valid hdec
  rw [ctFrameHeaderEncode_some htype hlen, ← ctFrameHeaderDecode_bytes hdec]

/-- The two functions are inverse: on every header of a valid type and length, on
every string that is decoded, and these strings are the encoded headers. -/
theorem frame_header_codec (b : Build) :
    (∀ h, ctMessageTypeValid h.type = true → h.payloadLen.toNat ≤ b.maxFrameSize →
      ∃ p, ctFrameHeaderEncode b h = some p ∧ ctFrameHeaderDecode b p = some h) ∧
    (∀ p h, ctFrameHeaderDecode b p = some h → ctFrameHeaderEncode b h = some p) ∧
    ∀ p, (∃ h, ctFrameHeaderDecode b p = some h) ↔ ∃ h, ctFrameHeaderEncode b h = some p := by
  refine ⟨?_, fun p h hdec => ctFrameHeaderEncode_decode hdec, ?_⟩
  · intro h htype hlen
    have henc := ctFrameHeaderEncode_some htype hlen
    exact ⟨_, henc, ctFrameHeaderDecode_encode henc⟩
  · intro p
    constructor
    · rintro ⟨h, hdec⟩
      exact ⟨h, ctFrameHeaderEncode_decode hdec⟩
    · rintro ⟨h, henc⟩
      exact ⟨h, ctFrameHeaderDecode_encode henc⟩

/-- A PING of a session. -/
theorem ping_header_decoded :
    ∃ p, ctFrameHeaderEncode defaultBuild ⟨CtMsgType.ping.toByte, 1, 32, 7, 0, 4⟩ = some p ∧
      ctFrameHeaderDecode defaultBuild p = some ⟨CtMsgType.ping.toByte, 1, 32, 7, 0, 4⟩ :=
  (frame_header_codec defaultBuild).1 _ (by decide) (by decide)

/-! ## REGISTER_SERVICE -/

/-- Two strings behind their lengths that fit their buffers, four fixed bytes and a
tail. -/
structure RegisterLayout (serviceCapacity addressCapacity : Nat) (p id addr fixed tail : Bytes) :
    Prop where
  payload : p = stringField id ++ (stringField addr ++ (fixed ++ tail))
  id_length : id.length ≤ 65535
  addr_length : addr.length ≤ 65535
  id_fits : id.length < serviceCapacity
  addr_fits : addr.length < addressCapacity
  fixed_length : fixed.length = 4

/-- What the strings and the fixed bytes say. -/
def registerFixed (id addr fixed : Bytes) : RegisterRequest :=
  { serviceId := id
    remoteAddress := addr
    remotePort := ctGetU16 fixed 0
    type := fixed.getD 2 0
    mode := fixed.getD 3 0
    proxyProtocol := 0
    udpIdleTimeout := 0
    udpReplyTimeout := 0
    udpMaxSessions := 0
    udpMaxDatagramSize := 0 }

/-- What a tail of 16 bytes adds. -/
def RegisterRequest.withUdp (r : RegisterRequest) (tail : Bytes) : RegisterRequest :=
  { r with
    udpIdleTimeout := ctGetU32 tail 0
    udpReplyTimeout := ctGetU32 tail 4
    udpMaxSessions := ctGetU32 tail 8
    udpMaxDatagramSize := ctGetU32 tail 12 }

/-- What a tail adds to the fixed bytes, by its length. -/
def RegisterRequest.withTail (r : RegisterRequest) (tail : Bytes) : Option RegisterRequest :=
  if tail.length = 0 then some r
  else if tail.length = 1 then some { r with proxyProtocol := tail.getD 0 0 }
  else if tail.length = 16 then some (r.withUdp tail)
  else if tail.length = 17 then
    some (RegisterRequest.withUdp { r with proxyProtocol := tail.getD 0 0 } (tail.drop 1))
  else none

theorem ctGetU32_drop (p : Bytes) (off k : Nat) : ctGetU32 (p.drop off) k = ctGetU32 p (off + k) := by
  rw [ctGetU32, ctGetU32, slice, slice, List.drop_drop]

theorem getD_drop (p : Bytes) (off k : Nat) : (p.drop off).getD k 0 = p.getD (off + k) 0 := by
  simp [List.getD_eq_getElem?_getD, List.getElem?_drop]

theorem getD_take {p : Bytes} {k n : Nat} (h : k < n) : (p.take n).getD k 0 = p.getD k 0 := by
  simp [List.getD_eq_getElem?_getD, h]

/-- The decoder behind the two strings. -/
theorem ctRegisterRequestDecode_of_strings {p id addr : Bytes} {sc ac off₁ off₂ : Nat}
    (hid : ctUnpackString p p.length 0 sc = some (id, off₁))
    (haddr : ctUnpackString p p.length off₁ ac = some (addr, off₂)) (hroom : off₂ + 4 ≤ p.length) :
    ctRegisterRequestDecode p sc ac =
      (registerFixed id addr (slice p off₂ 4)).withTail (p.drop (off₂ + 4)) := by
  have hport : ctGetU16 (slice p off₂ 4) 0 = ctGetU16 p off₂ := by
    simp [ctGetU16, slice, List.take_take]
  have hbyte : ∀ k < 4, (slice p off₂ 4).getD k 0 = p.getD (off₂ + k) 0 := by
    intro k hk
    rw [slice, getD_take hk, getD_drop]
  obtain ⟨z, hz⟩ : ∃ z, p.length = off₂ + 4 + z := ⟨p.length - (off₂ + 4), by omega⟩
  have htail : (p.drop (off₂ + 4)).length = z := by
    rw [List.length_drop]
    omega
  unfold ctRegisterRequestDecode RegisterRequest.withTail
  rw [hid]
  dsimp only
  rw [haddr]
  dsimp only
  rw [if_neg (by omega), htail]
  simp only [RegisterRequest.withUdp, registerFixed, hport, hbyte 2 (by omega), hbyte 3 (by omega),
    List.drop_drop, ctGetU32_drop, getD_drop, Nat.add_zero]
  have hleft : p.length - (off₂ + 4) = z := by omega
  rw [hleft]
  by_cases h0 : z = 0
  · rw [if_pos (by omega), if_pos h0]
  · rw [if_neg (by omega), if_neg h0]
    by_cases h1 : z = 1
    · have hend : p.length = off₂ + 4 + 1 := by omega
      simp [h1, hend]
    · by_cases h16 : z = 16
      · have hmore : p.length ≠ off₂ + 4 := by omega
        simp [h16, hleft, hmore]
      · by_cases h17 : z = 17
        · have hmore : p.length ≠ off₂ + 4 + 1 := by omega
          have hudp : p.length - (off₂ + 4 + 1) = 16 := by omega
          simp [h17, hmore, hudp]
        · have hmore : p.length ≠ off₂ + 4 := by omega
          simp [h1, h16, h17, hleft, hmore]

/-- What the decoder accepts, and what it reads there. -/
theorem ctRegisterRequestDecode_iff {p : Bytes} {sc ac : Nat} {r : RegisterRequest} :
    ctRegisterRequestDecode p sc ac = some r ↔ ∃ id addr fixed tail,
      RegisterLayout sc ac p id addr fixed tail ∧
        (registerFixed id addr fixed).withTail tail = some r := by
  constructor
  · intro h
    have hparts := h
    unfold ctRegisterRequestDecode at hparts
    cases hid : ctUnpackString p p.length 0 sc with
    | none =>
        rw [hid] at hparts
        exact absurd hparts (by simp)
    | some x =>
        obtain ⟨id, off₁⟩ := x
        rw [hid] at hparts
        dsimp only at hparts
        cases haddr : ctUnpackString p p.length off₁ ac with
        | none =>
            rw [haddr] at hparts
            exact absurd hparts (by simp)
        | some y =>
            obtain ⟨addr, off₂⟩ := y
            rw [haddr] at hparts
            dsimp only at hparts
            split at hparts
            · exact absurd hparts (by simp)
            · rename_i hroom
              obtain ⟨hidFits, hidLen, rfl, hidEnd, -⟩ := ctUnpackString_some hid (Nat.le_refl _)
              obtain ⟨haddrFits, haddrLen, hoff, haddrEnd, -⟩ :=
                ctUnpackString_some haddr (Nat.le_refl _)
              rw [ctRegisterRequestDecode_of_strings hid haddr (by omega)] at h
              refine ⟨id, addr, slice p off₂ 4, p.drop (off₂ + 4), ?_, h⟩
              refine ⟨?_, hidLen, haddrLen, hidFits, haddrFits, slice_length (by omega)⟩
              rw [← drop_slice, ← ctUnpackString_drop haddr (Nat.le_refl _),
                ← ctUnpackString_drop hid (Nat.le_refl _), List.drop_zero]
  · rintro ⟨id, addr, fixed, tail, ⟨hp, hidLen, haddrLen, hidFits, haddrFits, hfixed⟩, hr⟩
    have h0 : p.drop 0 = stringField id ++ (stringField addr ++ (fixed ++ tail)) := hp
    have h1 := drop_of_drop h0
    have h2 := drop_of_drop h1
    have h3 := drop_of_drop h2
    have hslice := slice_of_drop h2
    have hlen := le_of_drop h0 (Nat.zero_le _)
    simp only [stringField_length, List.length_append, Nat.zero_add, hfixed] at h1 h2 h3 hslice hlen
    have hid := ctUnpackString_of_drop h0 hidLen hidFits (n := p.length) (by omega)
    rw [Nat.zero_add] at hid
    have haddr := ctUnpackString_of_drop h1 haddrLen haddrFits (n := p.length) (by omega)
    rw [Nat.add_assoc (2 + id.length)] at haddr
    rw [ctRegisterRequestDecode_of_strings hid haddr (by omega), hslice, h3]
    exact hr

theorem RegisterRequest.withTail_isSome (r : RegisterRequest) (tail : Bytes) :
    (r.withTail tail).isSome = true ↔
      tail.length = 0 ∨ tail.length = 1 ∨ tail.length = 16 ∨ tail.length = 17 := by
  unfold RegisterRequest.withTail
  by_cases h0 : tail.length = 0
  · simp [h0]
  · by_cases h1 : tail.length = 1
    · simp [h1]
    · by_cases h16 : tail.length = 16
      · simp [h16]
      · by_cases h17 : tail.length = 17
        · simp [h17]
        · rw [if_neg h0, if_neg h1, if_neg h16, if_neg h17]
          simp [h0, h1, h16, h17]

/-! ## Reads of the decoder -/

/-- `ct_unpack_string`, with every read of the buffer. -/
def ctUnpackStringFetch (p : Bytes) (n off cap : Nat) : Fetch (Bytes × Nat) := do
  Fetch.check (¬ (off > n ∨ n - off < 2))
  let z ← Fetch.read n off 2 (ctGetU16 p off).toNat
  Fetch.check (¬ (z ≥ cap ∨ n - off - 2 < z))
  let s ← Fetch.read n (off + 2) z (slice p (off + 2) z)
  return (s, off + 2 + z)

/-- The end of `ct_register_request_decode`: the four limits. -/
def registerUdpFetch (payload : Bytes) (off : Nat) (base : RegisterRequest) :
    Fetch RegisterRequest := do
  Fetch.check (payload.length - off = 16)
  let idle ← Fetch.read payload.length off 4 (ctGetU32 payload off)
  let reply ← Fetch.read payload.length (off + 4) 4 (ctGetU32 payload (off + 4))
  let sessions ← Fetch.read payload.length (off + 8) 4 (ctGetU32 payload (off + 8))
  let size ← Fetch.read payload.length (off + 12) 4 (ctGetU32 payload (off + 12))
  return { base with
    udpIdleTimeout := idle
    udpReplyTimeout := reply
    udpMaxSessions := sessions
    udpMaxDatagramSize := size }

/-- `ct_register_request_decode`, with every read of the payload. -/
def ctRegisterRequestFetch (payload : Bytes) (serviceCapacity addressCapacity : Nat) :
    Fetch RegisterRequest := do
  let (serviceId, off) ← ctUnpackStringFetch payload payload.length 0 serviceCapacity
  let (remoteAddress, off) ← ctUnpackStringFetch payload payload.length off addressCapacity
  Fetch.check (¬ payload.length - off < 4)
  let remotePort ← Fetch.read payload.length off 2 (ctGetU16 payload off)
  let type ← Fetch.read payload.length (off + 2) 1 (payload.getD (off + 2) 0)
  let mode ← Fetch.read payload.length (off + 3) 1 (payload.getD (off + 3) 0)
  let base : RegisterRequest := ⟨serviceId, remoteAddress, remotePort, type, mode, 0, 0, 0, 0, 0⟩
  let off := off + 4
  if payload.length = off then return base
  else if payload.length - off = 1 ∨ payload.length - off = 17 then do
    let proxy ← Fetch.read payload.length off 1 (payload.getD off 0)
    if payload.length = off + 1 then return { base with proxyProtocol := proxy }
    else registerUdpFetch payload (off + 1) { base with proxyProtocol := proxy }
  else registerUdpFetch payload off base

theorem ctUnpackStringFetch_eq (p : Bytes) (n off cap : Nat) :
    ctUnpackStringFetch p n off cap = Fetch.ofOption (ctUnpackString p n off cap) := by
  unfold ctUnpackStringFetch ctUnpackString
  by_cases hshort : off > n ∨ n - off < 2
  · rw [if_pos hshort, Fetch.check_neg (not_not.mpr hshort)]
    rfl
  · rw [if_neg hshort, Fetch.check_pos hshort, Fetch.bind_accepted, Fetch.read_inside (by omega),
      Fetch.bind_accepted]
    dsimp only
    by_cases hlong : (ctGetU16 p off).toNat ≥ cap ∨ n - off - 2 < (ctGetU16 p off).toNat
    · rw [if_pos hlong, Fetch.check_neg (not_not.mpr hlong)]
      rfl
    · rw [if_neg hlong, Fetch.check_pos hlong, Fetch.bind_accepted, Fetch.read_inside (by omega)]
      rfl

theorem registerUdpFetch_eq {p : Bytes} {off : Nat} (base : RegisterRequest) :
    registerUdpFetch p off base =
      Fetch.ofOption (if p.length - off ≠ 16 then none else some
        { base with
          udpIdleTimeout := ctGetU32 p off
          udpReplyTimeout := ctGetU32 p (off + 4)
          udpMaxSessions := ctGetU32 p (off + 8)
          udpMaxDatagramSize := ctGetU32 p (off + 12) }) := by
  unfold registerUdpFetch
  by_cases hleft : p.length - off = 16
  · rw [Fetch.check_pos hleft, Fetch.bind_accepted, Fetch.read_inside (by omega),
      Fetch.bind_accepted, Fetch.read_inside (by omega), Fetch.bind_accepted,
      Fetch.read_inside (by omega), Fetch.bind_accepted, Fetch.read_inside (by omega),
      if_neg (not_not.mpr hleft)]
    rfl
  · rw [Fetch.check_neg hleft, if_pos hleft]
    rfl

/-- The decoder reads its payload only. -/
theorem ctRegisterRequestFetch_eq (p : Bytes) (sc ac : Nat) :
    ctRegisterRequestFetch p sc ac = Fetch.ofOption (ctRegisterRequestDecode p sc ac) := by
  unfold ctRegisterRequestFetch ctRegisterRequestDecode
  rw [ctUnpackStringFetch_eq]
  cases hid : ctUnpackString p p.length 0 sc with
  | none => rfl
  | some x =>
      obtain ⟨id, off₁⟩ := x
      show (ctUnpackStringFetch p p.length off₁ ac >>= _) = _
      rw [ctUnpackStringFetch_eq]
      dsimp only
      cases haddr : ctUnpackString p p.length off₁ ac with
      | none => rfl
      | some y =>
          obtain ⟨addr, off₂⟩ := y
          obtain ⟨-, -, -, hend, -⟩ := ctUnpackString_some haddr (Nat.le_refl _)
          simp only [Fetch.ofOption, Fetch.bind_accepted]
          by_cases hroom : p.length - off₂ < 4
          · rw [Fetch.check_neg (not_not.mpr hroom), if_pos hroom]
            rfl
          · rw [Fetch.check_pos hroom, if_neg hroom, Fetch.bind_accepted,
              Fetch.read_inside (by omega), Fetch.bind_accepted, Fetch.read_inside (by omega),
              Fetch.bind_accepted, Fetch.read_inside (by omega), Fetch.bind_accepted]
            by_cases hend : p.length = off₂ + 4
            · rw [if_pos hend, if_pos hend]
              rfl
            · rw [if_neg hend, if_neg hend]
              by_cases hproxied : p.length - (off₂ + 4) = 1 ∨ p.length - (off₂ + 4) = 17
              · rw [if_pos hproxied, Fetch.read_inside (by omega), Fetch.bind_accepted]
                simp only [if_pos hproxied]
                by_cases hlast : p.length = off₂ + 4 + 1
                · rw [if_pos hlast, if_pos hlast]
                  rfl
                · rw [if_neg hlast, if_neg hlast, registerUdpFetch_eq]
                  rfl
              · rw [if_neg hproxied]
                simp only [if_neg hproxied, if_neg hend]
                rw [registerUdpFetch_eq]
                rfl

/-! ## What the client sends -/

/-- A service entry that `ct_config_validate` lets through in a build. -/
structure CtServiceConfig.Registrable (b : Build) (s : CtServiceConfig) : Prop where
  id : s.id.length ≤ b.maxServiceIdLength
  address : s.remoteAddr.length ≤ b.maxAddressLength
  type : s.type = 1 ∨ (s.type = 2 ∧ b.udp = true)
  /-- The limits are `int`s. -/
  idle : s.udpIdleTimeout < 2 ^ 31
  reply : s.udpReplyTimeout < 2 ^ 31
  sessions : s.udpMaxSessions < 2 ^ 31
  size : s.udpMaxDatagramSize < 2 ^ 31

/-- A decoded request says what a service entry says; a TCP entry has no limits. -/
structure RegisterRequest.Says (r : RegisterRequest) (s : CtServiceConfig) : Prop where
  id : r.serviceId = s.id.bytes
  address : r.remoteAddress = s.remoteAddr.bytes
  port : r.remotePort = s.remotePort
  type : r.type = s.type
  mode : r.mode = s.encryption.toByte
  proxy : r.proxyProtocol = s.proxyProtocol.toByte
  idle : r.udpIdleTimeout.toNat = if s.type = 2 then s.udpIdleTimeout else 0
  reply : r.udpReplyTimeout.toNat = if s.type = 2 then s.udpReplyTimeout else 0
  sessions : r.udpMaxSessions.toNat = if s.type = 2 then s.udpMaxSessions else 0
  size : r.udpMaxDatagramSize.toNat = if s.type = 2 then s.udpMaxDatagramSize else 0

/-- The four limits on the wire. -/
def udpLimits (s : CtServiceConfig) : Bytes :=
  ctPutU32 (UInt32.ofNat s.udpIdleTimeout) ++ (ctPutU32 (UInt32.ofNat s.udpReplyTimeout) ++
    (ctPutU32 (UInt32.ofNat s.udpMaxSessions) ++ ctPutU32 (UInt32.ofNat s.udpMaxDatagramSize)))

theorem registerPayload_layout {s : CtServiceConfig} (hs : s.Registrable b) {sc ac : Nat}
    (hsc : s.id.length < sc) (hac : s.remoteAddr.length < ac) :
    ∃ p, registerPayload b s = some p ∧
      RegisterLayout sc ac p s.id.bytes s.remoteAddr.bytes
        (ctPutU16 s.remotePort ++ [s.type, s.encryption.toByte])
        (s.proxyProtocol.toByte :: if b.udp = true ∧ s.type = 2 then udpLimits s else []) := by
  obtain ⟨hid, haddr, -, -, -, -, -⟩ := hs
  have hidRange := b.maxServiceIdLength_range
  have haddrRange := b.maxAddressLength_range
  have hbuffer := b.controlBufferSize_ids.2
  have hpackId := @ctPackString_fits b.controlBufferSize [] s.id b.maxServiceIdLength hid (by omega)
    (by simp; omega)
  have hpackAddr := @ctPackString_fits b.controlBufferSize (stringField s.id.bytes) s.remoteAddr
    b.maxAddressLength haddr (by omega) (by
      simp only [stringField_length]
      simp only [CString.length] at hid haddr ⊢
      omega)
  simp only [CString.length] at hid haddr hsc hac
  refine ⟨_, ?_, ⟨rfl, by omega, by omega, hsc, hac, by simp⟩⟩
  unfold registerPayload
  rw [hpackId]
  simp only [List.nil_append, Option.bind_eq_bind, Option.bind_some, hpackAddr]
  simp only [udpLimits, List.append_assoc, List.cons_append, List.nil_append]
  rfl

theorem toNat_ofNat_int {v : Nat} (h : v < 2 ^ 31) : (UInt32.ofNat v).toNat = v := by
  rw [UInt32.toNat_ofNat']
  exact Nat.mod_eq_of_lt (by omega)

theorem ctGetU32_of_drop {p rest : Bytes} {off : Nat} {v : UInt32}
    (h : p.drop off = ctPutU32 v ++ rest) : ctGetU32 p off = v := by
  have hzero := ctGetU32_drop p off 0
  rw [h, ctGetU32_put, Nat.add_zero] at hzero
  exact hzero.symm

/-- The four limits are read back. -/
theorem RegisterRequest.withUdp_limits (r : RegisterRequest) (s : CtServiceConfig) :
    r.withUdp (udpLimits s) =
      { r with
        udpIdleTimeout := UInt32.ofNat s.udpIdleTimeout
        udpReplyTimeout := UInt32.ofNat s.udpReplyTimeout
        udpMaxSessions := UInt32.ofNat s.udpMaxSessions
        udpMaxDatagramSize := UInt32.ofNat s.udpMaxDatagramSize } := by
  have h0 : (udpLimits s).drop 0 = ctPutU32 (UInt32.ofNat s.udpIdleTimeout) ++ _ := rfl
  have h4 := drop_of_drop h0
  have h8 := drop_of_drop h4
  have h12 := drop_of_drop h8
  simp only [ctPutU32_length, Nat.zero_add, Nat.reduceAdd] at h4 h8 h12
  rw [← List.append_nil (ctPutU32 (UInt32.ofNat s.udpMaxDatagramSize))] at h12
  unfold RegisterRequest.withUdp
  rw [ctGetU32_of_drop h0, ctGetU32_of_drop h4, ctGetU32_of_drop h8, ctGetU32_of_drop h12]

theorem registerFixed_fields (s : CtServiceConfig) :
    registerFixed s.id.bytes s.remoteAddr.bytes
      (ctPutU16 s.remotePort ++ [s.type, s.encryption.toByte]) =
      ⟨s.id.bytes, s.remoteAddr.bytes, s.remotePort, s.type, s.encryption.toByte, 0, 0, 0, 0, 0⟩ := by
  have hport : (ctPutU16 s.remotePort ++ [s.type, s.encryption.toByte]).drop 0 =
      ctPutU16 s.remotePort ++ [s.type, s.encryption.toByte] := rfl
  have htype := drop_of_drop hport
  have hmode := drop_of_drop (show _ = [s.type] ++ [s.encryption.toByte] from htype)
  simp only [ctPutU16_length, Nat.zero_add, List.length_singleton, Nat.reduceAdd] at htype hmode
  unfold registerFixed
  rw [ctGetU16_of_drop hport, getD_of_drop htype, getD_of_drop hmode]

/-- The payload of a service entry is decoded to what the entry says. -/
theorem registerPayload_decoded {s : CtServiceConfig} (hs : s.Registrable b) {sc ac : Nat}
    (hsc : s.id.length < sc) (hac : s.remoteAddr.length < ac) :
    ∃ p r, registerPayload b s = some p ∧ ctRegisterRequestDecode p sc ac = some r ∧ r.Says s := by
  obtain ⟨p, hp, hlayout⟩ := registerPayload_layout hs hsc hac
  cases htype : decide (s.type = 2) with
  | true =>
      have hudp : s.type = 2 := of_decide_eq_true htype
      have hbuild : b.udp = true := by
        rcases hs.type with h | h
        · rw [hudp] at h
          exact absurd h (by decide)
        · exact h.2
      rw [if_pos ⟨hbuild, hudp⟩] at hlayout
      refine ⟨p, RegisterRequest.withUdp
        ⟨s.id.bytes, s.remoteAddr.bytes, s.remotePort, s.type, s.encryption.toByte,
          s.proxyProtocol.toByte, 0, 0, 0, 0⟩ (udpLimits s), hp,
        ctRegisterRequestDecode_iff.mpr ⟨_, _, _, _, hlayout, ?_⟩, ?_⟩
      · rw [registerFixed_fields]
        have hlen : (s.proxyProtocol.toByte :: udpLimits s).length = 17 := by simp [udpLimits]
        unfold RegisterRequest.withTail
        rw [if_neg (by omega), if_neg (by omega), if_neg (by omega), if_pos hlen]
        rfl
      · rw [RegisterRequest.withUdp_limits]
        refine ⟨rfl, rfl, rfl, rfl, rfl, rfl, ?_, ?_, ?_, ?_⟩
        all_goals rw [if_pos hudp]
        · exact toNat_ofNat_int hs.idle
        · exact toNat_ofNat_int hs.reply
        · exact toNat_ofNat_int hs.sessions
        · exact toNat_ofNat_int hs.size
  | false =>
      have htcp : s.type ≠ 2 := of_decide_eq_false htype
      rw [if_neg (fun h => htcp h.2)] at hlayout
      refine ⟨p, ⟨s.id.bytes, s.remoteAddr.bytes, s.remotePort, s.type, s.encryption.toByte,
        s.proxyProtocol.toByte, 0, 0, 0, 0⟩, hp,
        ctRegisterRequestDecode_iff.mpr ⟨_, _, _, _, hlayout, ?_⟩, ?_⟩
      · rw [registerFixed_fields]
        rfl
      · refine ⟨rfl, rfl, rfl, rfl, rfl, rfl, ?_, ?_, ?_, ?_⟩
        all_goals
          rw [if_neg htcp]
          rfl

/-- The decoder reads back every service entry that a client registers. It succeeds
on exactly the payloads of the four layouts, and reads no byte behind a payload. -/
theorem register_request_codec (b : Build) :
    (∀ s : CtServiceConfig, s.Registrable b → ∀ sc ac, s.id.length < sc → s.remoteAddr.length < ac →
      ∃ p r, registerPayload b s = some p ∧ ctRegisterRequestDecode p sc ac = some r ∧ r.Says s) ∧
    ∀ p sc ac,
      ((ctRegisterRequestDecode p sc ac).isSome = true ↔ ∃ id addr fixed tail,
        RegisterLayout sc ac p id addr fixed tail ∧
          (tail.length = 0 ∨ tail.length = 1 ∨ tail.length = 16 ∨ tail.length = 17)) ∧
      ctRegisterRequestFetch p sc ac = Fetch.ofOption (ctRegisterRequestDecode p sc ac) ∧
      ctRegisterRequestFetch p sc ac ≠ .outside := by
  refine ⟨fun s hs sc ac hsc hac => registerPayload_decoded hs hsc hac, fun p sc ac => ⟨?_, ?_, ?_⟩⟩
  · rw [Option.isSome_iff_exists]
    constructor
    · rintro ⟨r, hr⟩
      obtain ⟨id, addr, fixed, tail, hlayout, htail⟩ := ctRegisterRequestDecode_iff.mp hr
      refine ⟨id, addr, fixed, tail, hlayout, ?_⟩
      rw [← RegisterRequest.withTail_isSome (registerFixed id addr fixed), htail]
      rfl
    · rintro ⟨id, addr, fixed, tail, hlayout, hlen⟩
      rw [← RegisterRequest.withTail_isSome (registerFixed id addr fixed)] at hlen
      obtain ⟨r, hr⟩ := Option.isSome_iff_exists.mp hlen
      exact ⟨r, ctRegisterRequestDecode_iff.mpr ⟨id, addr, fixed, tail, hlayout, hr⟩⟩
  · exact ctRegisterRequestFetch_eq p sc ac
  · rw [ctRegisterRequestFetch_eq]
    exact Fetch.ofOption_stays _

/-- `dns` is registered with its limits. -/
theorem dns_registration_decoded :
    ∃ p r, registerPayload defaultBuild dnsService = some p ∧
      ctRegisterRequestDecode p 65 129 = some r ∧ r.Says dnsService :=
  (register_request_codec defaultBuild).1 dnsService
    ⟨by decide, by decide, .inr (by decide), by decide, by decide, by decide, by decide⟩ 65 129
    (by decide) (by decide)

end Ctunnel
