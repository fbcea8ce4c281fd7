import Ctunnel.Client.Session
import Ctunnel.Crypto.Recorded
import Ctunnel.Net.StreamFields
import Ctunnel.Theorems.StackBuffers

/-!
# The control buffers of the encoders

CLIENT_HELLO, REGISTER_SERVICE, START_STREAM and STREAM_READY are written into
buffers of `CONFIG_CONTROL_BUFFER_SIZE` bytes. Strings and endpoints are written with
a check of the room left, all other fields without one: `ctkconfig.py` and
`CMakeLists.txt` have to demand enough room for them.
-/

namespace Ctunnel

open Lib

variable {b : Build} {m : Monocypher} {c : CtControl} {x : StreamContext}
  {md : Option CtStreamMetadata}

/-! ## The writes -/

/-- `ch` of `ct_handshake_client`. -/
def clientHelloWrites (b : Build) (cfg : CtConfig) (cr xpk : Octets 32) : Option WriteBuf := do
  let id ← ctPackString b.controlBufferSize [] cfg.clientId b.maxClientIdLength
  return (WriteBuf.new b.controlBufferSize).putAll
    [id, cr.toList, xpk.toList, ctPutU32 cfg.cipherMask]

/-- `b` of `client_register`. -/
def registerWrites (b : Build) (s : CtServiceConfig) : Option WriteBuf := do
  let id ← ctPackString b.controlBufferSize [] s.id b.maxServiceIdLength
  let strings ← ctPackString b.controlBufferSize id s.remoteAddr b.maxAddressLength
  let w := (WriteBuf.new b.controlBufferSize).putAll [strings, ctPutU16 s.remotePort,
    [s.type, s.encryption.toByte, s.proxyProtocol.toByte]]
  return if b.udp = true ∧ s.type = 2 then w.putAll
    [ctPutU32 (UInt32.ofNat s.udpIdleTimeout), ctPutU32 (UInt32.ofNat s.udpReplyTimeout),
      ctPutU32 (UInt32.ofNat s.udpMaxSessions), ctPutU32 (UInt32.ofNat s.udpMaxDatagramSize)]
  else w

/-- `p` of `ct_start_stream_send` before the endpoints, which may refuse. -/
def startStreamFront (b : Build) (x : StreamContext) (mode : UInt8) : Option WriteBuf := do
  let id ← ctPackString b.controlBufferSize [] x.serviceId b.maxServiceIdLength
  return (WriteBuf.new b.controlBufferSize).putAll
    [id, [x.mode.toByte], x.workId.toList, x.random.toList, ctPutU64 x.stream, [mode]]

/-- `p` of `ct_start_stream_send`. -/
def startStreamWrites (b : Build) (m : Monocypher) (c : CtControl) (x : StreamContext)
    (md : Option CtStreamMetadata) : Option WriteBuf := do
  let p ← startStreamPayload b x md
  let mac ← streammac b m c CtMsgType.startStream.toByte .server x md 1
  return p.put mac.toList

/-- `p` of `ct_stream_ready_send`. -/
def streamReadyWrites (b : Build) (m : Monocypher) (c : CtControl) (x : StreamContext)
    (ok : Bool) : Option WriteBuf := do
  let p ← streamReadyPayload b x ok
  let mac ← streammac b m c (readyMessageType ok) .client x none (okByte ok)
  return p.put mac.toList

/-- Every write of every encoder stays inside. An id or an address beyond its limit is
refused before anything is written. -/
structure EncodersInside (b : Build) (m : Monocypher) : Prop where
  hello : ∀ cfg cr xpk, ∀ w ∈ clientHelloWrites b cfg cr xpk, w.inside = true
  register : ∀ s, ∀ w ∈ registerWrites b s, w.inside = true
  startFront : ∀ x mode, ∀ w ∈ startStreamFront b x mode, w.inside = true
  start : ∀ c x md, ∀ w ∈ startStreamWrites b m c x md, w.inside = true
  ready : ∀ c x ok, ∀ w ∈ streamReadyWrites b m c x ok, w.inside = true

/-! ## The writes are the payloads -/

theorem clientHelloWrites_bytes (cfg : CtConfig) (cr xpk : Octets 32) :
    (clientHelloWrites b cfg cr xpk).map WriteBuf.bytes =
      (ctPackString b.controlBufferSize [] cfg.clientId b.maxClientIdLength).map fun id =>
        id ++ cr.toList ++ xpk.toList ++ ctPutU32 cfg.cipherMask := by
  unfold clientHelloWrites
  cases ctPackString b.controlBufferSize [] cfg.clientId b.maxClientIdLength with
  | none => rfl
  | some id => simp

theorem registerWrites_bytes (s : CtServiceConfig) :
    (registerWrites b s).map WriteBuf.bytes = registerPayload b s := by
  unfold registerWrites registerPayload
  cases ctPackString b.controlBufferSize [] s.id b.maxServiceIdLength with
  | none => rfl
  | some id =>
      simp only [Option.bind_eq_bind, Option.bind_some]
      cases ctPackString b.controlBufferSize id s.remoteAddr b.maxAddressLength with
      | none => rfl
      | some strings =>
          simp only [Option.bind_some, Option.pure_def, Option.map_some]
          by_cases hudp : b.udp = true ∧ s.type = 2
          · rw [if_pos hudp, if_pos hudp, WriteBuf.putAll_bytes, WriteBuf.new_putAll_bytes]
            simp
          · rw [if_neg hudp, if_neg hudp, WriteBuf.new_putAll_bytes]
            simp

theorem startStreamWrites_bytes :
    (startStreamWrites b m c x md).map WriteBuf.bytes = startStreamBytes b m c x md := by
  unfold startStreamWrites startStreamBytes
  cases startStreamPayload b x md with
  | none => rfl
  | some p => cases streammac b m c CtMsgType.startStream.toByte .server x md 1 <;> rfl

theorem streamReadyWrites_bytes (ok : Bool) :
    (streamReadyWrites b m c x ok).map WriteBuf.bytes = streamReadyBytes b m c x ok := by
  unfold streamReadyWrites streamReadyBytes
  cases streamReadyPayload b x ok with
  | none => rfl
  | some p => cases streammac b m c (readyMessageType ok) .client x none (okByte ok) <;> rfl

/-! ## How long they get -/

theorem clientHelloWrites_inside {cfg : CtConfig} {cr xpk : Octets 32} {w : WriteBuf}
    (h : clientHelloWrites b cfg cr xpk = some w) : w.inside = true := by
  have hids := b.controlBufferSize_ids
  simp only [clientHelloWrites, Option.bind_eq_bind, Option.bind_eq_some_iff] at h
  obtain ⟨id, hid, h⟩ := h
  obtain ⟨rfl, hmax, -, -⟩ := ctPackString_eq hid
  obtain rfl := Option.some.inj h
  rw [WriteBuf.new_putAll_inside]
  simp only [List.flatten_cons, List.flatten_nil, List.nil_append, List.length_append,
    stringField_length, List.Vector.toList_length, ctPutU32_length, List.length_nil,
    CString.length] at hmax ⊢
  omega

theorem registerWrites_inside {s : CtServiceConfig} {w : WriteBuf}
    (h : registerWrites b s = some w) : w.inside = true := by
  have hids := b.controlBufferSize_ids
  simp only [registerWrites, Option.bind_eq_bind, Option.bind_eq_some_iff] at h
  obtain ⟨id, hid, strings, hstrings, h⟩ := h
  obtain ⟨rfl, hmax, -, -⟩ := ctPackString_eq hid
  obtain ⟨rfl, hmax', -, -⟩ := ctPackString_eq hstrings
  obtain rfl := Option.some.inj h
  simp only [CString.length] at hmax hmax'
  split
  · rw [(((WriteBuf.Exact.new _).putAll _).putAll _).inside_iff, WriteBuf.putAll_bytes]
    simp only [WriteBuf.new_putAll_bytes, List.flatten_cons, List.flatten_nil, List.length_append,
      stringField_length, ctPutU16_length, ctPutU32_length, List.length_cons, List.length_nil,
      WriteBuf.putAll_cap, WriteBuf.new_cap]
    omega
  · rw [WriteBuf.new_putAll_inside]
    simp only [List.flatten_cons, List.flatten_nil, List.length_append, stringField_length,
      ctPutU16_length, List.length_cons, List.length_nil]
    omega

theorem startStreamFront_inside {mode : UInt8} {w : WriteBuf}
    (hroom : b.maxServiceIdLength + 146 ≤ b.controlBufferSize)
    (h : startStreamFront b x mode = some w) : w.inside = true := by
  simp only [startStreamFront, Option.bind_eq_bind, Option.bind_eq_some_iff] at h
  obtain ⟨id, hid, h⟩ := h
  obtain ⟨rfl, hmax, -, -⟩ := ctPackString_eq hid
  obtain rfl := Option.some.inj h
  rw [WriteBuf.new_putAll_inside]
  simp only [List.flatten_cons, List.flatten_nil, List.nil_append, List.length_append,
    stringField_length, List.Vector.toList_length, ctPutU64_length, List.length_cons,
    List.length_nil, CString.length] at hmax ⊢
  omega

theorem startStreamPayload_exact {w : WriteBuf} (h : startStreamPayload b x md = some w) :
    w.Exact ∧ w.cap = b.controlBufferSize := by
  unfold startStreamPayload at h
  simp only [Option.bind_eq_bind, Option.bind_eq_some_iff] at h
  obtain ⟨id, -, h⟩ := h
  have hfront := (WriteBuf.Exact.new b.controlBufferSize).putAll
    [id, [x.mode.toByte], x.workId.toList, x.random.toList, ctPutU64 x.stream]
  have hcap := WriteBuf.putAll_cap (.new b.controlBufferSize)
    [id, [x.mode.toByte], x.workId.toList, x.random.toList, ctPutU64 x.stream]
  cases md with
  | none =>
      obtain rfl := Option.some.inj h
      exact ⟨hfront.putAll _, (WriteBuf.putAll_cap _ _).trans hcap⟩
  | some md =>
      simp only [Option.bind_eq_some_iff] at h
      obtain ⟨source, -, destination, -, h⟩ := h
      obtain rfl := Option.some.inj h
      exact ⟨((hfront.put _).put _).put _, hcap⟩

theorem metadataField_length_le (md : Option CtStreamMetadata) : (metadataField md).length ≤ 39 := by
  cases md with
  | none => simp [metadataField]
  | some md =>
      have hone := addressLength_le md.source.family
      have htwo := addressLength_le md.destination.family
      simp only [metadataField, List.length_append, endpointField_length, List.length_singleton]
      omega

/-- Whether START_STREAM fits is a matter of its length. -/
theorem startStreamWrites_inside {w : WriteBuf} (h : startStreamWrites b m c x md = some w) :
    w.inside = true ↔
      107 + x.serviceId.length + (metadataField md).length ≤ b.controlBufferSize := by
  simp only [startStreamWrites, Option.bind_eq_bind, Option.bind_eq_some_iff] at h
  obtain ⟨p, hp, mac, -, h⟩ := h
  obtain ⟨hexact, hcap⟩ := startStreamPayload_exact hp
  obtain rfl := Option.some.inj h
  rw [(hexact.put _).inside_iff, WriteBuf.put_cap, hcap, WriteBuf.put, (startStreamPayload_eq hp).1]
  simp only [List.length_append, contextField_length, List.Vector.toList_length, CString.length]
  omega

theorem streamReadyWrites_inside {ok : Bool} {w : WriteBuf}
    (hroom : b.maxServiceIdLength + 146 ≤ b.controlBufferSize)
    (h : streamReadyWrites b m c x ok = some w) : w.inside = true := by
  simp only [streamReadyWrites, streamReadyPayload, Option.bind_eq_bind,
    Option.bind_eq_some_iff] at h
  obtain ⟨p, ⟨id, hid, hp⟩, mac, -, h⟩ := h
  obtain ⟨rfl, hmax, -, -⟩ := ctPackString_eq hid
  obtain rfl := Option.some.inj hp
  obtain rfl := Option.some.inj h
  rw [(((WriteBuf.Exact.new _).putAll _).put _).inside_iff, WriteBuf.put_cap, WriteBuf.putAll_cap, WriteBuf.put,
    WriteBuf.new_putAll_bytes]
  simp only [List.flatten_cons, List.flatten_nil, List.nil_append, List.length_append,
    stringField_length, List.Vector.toList_length, ctPutU64_length, List.length_cons,
    List.length_nil, CString.length, WriteBuf.new_cap] at hmax ⊢
  omega

/-! ## The room the build has to leave -/

/-- A service id of `n` letters. -/
def idOfLength (n : Nat) : CString := ⟨List.replicate n 97, by simp [List.mem_replicate]⟩

def longContext (n : Nat) : StreamContext :=
  ⟨1, .replicate 32 0, .replicate 32 0, idOfLength n, .required⟩

/-- Two IPv6 endpoints. -/
def metadata6 : CtStreamMetadata := ⟨.off, loopback6, loopback6⟩

/-- An id for which the endpoints still pass their checks is encoded. -/
theorem startStreamWrites_long {n : Nat} (hmax : n ≤ b.maxServiceIdLength)
    (hfits : n + 114 ≤ b.controlBufferSize) :
    ∃ w, startStreamWrites b m .zero (longContext n) (some metadata6) = some w := by
  have hlen : (longContext n).serviceId.length = n := by
    simp [longContext, idOfLength, CString.length]
  have hmetadata : (metadataField (some metadata6)).length = 39 := by rfl
  have hfamilies : FamiliesKnown (some metadata6) := by
    intro md hmd
    obtain rfl := Option.mem_some_iff.mp hmd
    decide
  obtain ⟨p, hp, -⟩ := startStreamPayload_fits (b := b) (x := longContext n) (by omega) hfamilies
    (by
      rw [List.length_append, contextField_length, hmetadata]
      rw [CString.length] at hlen
      omega)
  have hmac : ∃ mac, streammac b m .zero CtMsgType.startStream.toByte .server (longContext n)
      (some metadata6) 1 = some mac := by
    unfold streammac
    rw [if_neg]
    · exact ⟨_, rfl⟩
    · have hclient : CtControl.zero.clientId.length = 0 := rfl
      omega
  obtain ⟨mac, hmac⟩ := hmac
  refine ⟨p.put mac.toList, ?_⟩
  simp only [startStreamWrites, hp, hmac, Option.bind_eq_bind, Option.bind_some]
  rfl

/-- Every encoder stays inside its buffer exactly when the buffer has room for the
START_STREAM of the longest service id with two IPv6 endpoints. -/
theorem encoders_inside_iff (b : Build) (m : Monocypher) :
    EncodersInside b m ↔ b.maxServiceIdLength + 146 ≤ b.controlBufferSize := by
  constructor
  · intro h
    by_contra hsmall
    -- the longest id whose endpoints are not refused
    obtain ⟨n, hn⟩ : ∃ n, n = min b.maxServiceIdLength (b.controlBufferSize - 114) := ⟨_, rfl⟩
    have hcontrol := b.controlBufferSize_range
    obtain ⟨w, hw⟩ := @startStreamWrites_long b m n (by omega) (by omega)
    have hinside := (startStreamWrites_inside hw).mp (h.start _ _ _ w hw)
    have hlen : (longContext n).serviceId.length = n := by
      simp [longContext, idOfLength, CString.length]
    have hmetadata : (metadataField (some metadata6)).length = 39 := by rfl
    omega
  · intro hroom
    refine ⟨fun _ _ _ _ => clientHelloWrites_inside, fun _ _ => registerWrites_inside,
      fun _ _ _ => startStreamFront_inside hroom, ?_, fun _ _ _ _ => streamReadyWrites_inside hroom⟩
    intro c x md w hw
    have hle := metadataField_length_le md
    have hmax : x.serviceId.length ≤ b.maxServiceIdLength := by
      simp only [startStreamWrites, Option.bind_eq_bind] at hw
      obtain ⟨p, hp, -⟩ := Option.bind_eq_some_iff.mp hw
      exact (startStreamPayload_eq hp).2.1
    rw [startStreamWrites_inside hw]
    omega

/-- A build that passes every check, with the longest service ids and the smallest
buffer they are admitted with. -/
def narrowBuild : Build :=
  { miniBuild with
    maxServiceIdLength := 256
    maxAddressLength := 16
    controlBufferSize := 304
    maxServiceIdLength_range := by decide
    maxAddressLength_range := by decide
    controlBufferSize_range := by decide
    controlBufferSize_ids := by decide
    controlBufferSize_udp := fun h => absurd h (by decide) }

/-- Its START_STREAM for a service id of 190 bytes is written past the end of the
buffer. -/
theorem narrow_start_overruns : ¬ ∀ (b : Build) (m : Monocypher), EncodersInside b m := by
  intro h
  let m := CryptoLog.monocypher ⟨[], [], [], []⟩
  obtain ⟨w, hw⟩ := @startStreamWrites_long narrowBuild m 190 (by decide) (by decide)
  have hinside := (startStreamWrites_inside hw).mp ((h narrowBuild m).start _ _ _ w hw)
  have hlen : 107 + (longContext 190).serviceId.length + (metadataField (some metadata6)).length =
      336 := by decide +kernel
  rw [hlen] at hinside
  exact absurd hinside (by decide)

end Ctunnel
