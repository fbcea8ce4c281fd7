import Ctunnel.Net.ControlLink
import Ctunnel.Net.Fields

/-!
# START_STREAM, STREAM_READY and STREAM_FAILED

What the senders write into these frames, field by field, what a receiver reads
from a payload, and when it accepts: `StartAccepted` and `ReadyAccepted` say it of
the payload, `startStreamParse_exact` and `ReadyRead.exact` what stands in it.
-/

namespace Ctunnel

open Lib

variable {b : Build} {m : Monocypher} {c : CtControl} {x : StreamContext}
  {md : Option CtStreamMetadata} {id p stale : Bytes} {mac : Octets 32} {σ : Type}

/-! ## What the senders write -/

/-- The fields both messages start with, for a service id field of `id`. -/
def contextField (x : StreamContext) (id : Bytes) : Bytes :=
  stringField id ++ [x.mode.toByte] ++ x.workId.toList ++ x.random.toList ++ ctPutU64 x.stream

/-- NULL is the mode OFF and two families 0. -/
def metadataField : Option CtStreamMetadata → Bytes
  | some md => [md.proxyProtocol.toByte] ++ endpointField md.source ++ endpointField md.destination
  | none => [0, 0, 0]

/-- The payload of a START_STREAM. -/
def startField (x : StreamContext) (id : Bytes) (md : Option CtStreamMetadata) (mac : Octets 32) :
    Bytes :=
  contextField x id ++ metadataField md ++ mac.toList

/-- The payload of a STREAM_READY or STREAM_FAILED. -/
def readyField (x : StreamContext) (id : Bytes) (ok : UInt8) (mac : Octets 32) : Bytes :=
  contextField x id ++ [ok] ++ mac.toList

theorem contextField_length (x : StreamContext) (id : Bytes) :
    (contextField x id).length = 75 + id.length := by
  simp only [contextField, List.length_append, stringField_length, List.length_singleton,
    List.Vector.toList_length, ctPutU64_length]
  omega

theorem contextField_inj {x y : StreamContext} {id id' r r' : Bytes} (hid : id.length ≤ 65535)
    (hid' : id'.length ≤ 65535) (h : contextField x id ++ r = contextField y id' ++ r') :
    id = id' ∧ { x with serviceId := y.serviceId } = y ∧ r = r' := by
  simp only [contextField, List.append_assoc] at h
  obtain ⟨hids, hrest⟩ := stringField_inj hid hid' h
  obtain ⟨hmode, hrest⟩ := List.append_inj hrest (by simp)
  obtain ⟨hwork, hrest⟩ := List.append_inj hrest (by simp)
  obtain ⟨hrandom, hrest⟩ := List.append_inj hrest (by simp)
  obtain ⟨hstream, hrest⟩ := append_u64_inj hrest
  have hmode := CtEncMode.toByte_inj (List.head_eq_of_cons_eq hmode)
  refine ⟨hids, ?_, hrest⟩
  cases x
  cases y
  simp only [StreamContext.mk.injEq] at *
  exact ⟨hstream, List.Vector.eq _ _ hrandom, List.Vector.eq _ _ hwork, trivial, hmode⟩

/-- The payload `ct_start_stream_send` puts into its frame. -/
def startStreamBytes (b : Build) (m : Monocypher) (c : CtControl) (x : StreamContext)
    (md : Option CtStreamMetadata) : Option Bytes := do
  let p ← startStreamPayload b x md
  let mac ← streammac b m c CtMsgType.startStream.toByte .server x md 1
  return (p.put mac.toList).bytes

/-- The payload `ct_stream_ready_send` puts into its frame. -/
def streamReadyBytes (b : Build) (m : Monocypher) (c : CtControl) (x : StreamContext) (ok : Bool) :
    Option Bytes := do
  let p ← streamReadyPayload b x ok
  let mac ← streammac b m c (readyMessageType ok) .client x none (okByte ok)
  return (p.put mac.toList).bytes

/-- The endpoints of the metadata can be encoded. -/
def FamiliesKnown (md : Option CtStreamMetadata) : Prop :=
  ∀ v ∈ md, addressLength v.source.family ≠ 0 ∧ addressLength v.destination.family ≠ 0

theorem startStreamPayload_eq {w : WriteBuf} (h : startStreamPayload b x md = some w) :
    w.bytes = contextField x x.serviceId.bytes ++ metadataField md ∧
      x.serviceId.length ≤ b.maxServiceIdLength ∧ FamiliesKnown md := by
  unfold startStreamPayload at h
  simp only [Option.bind_eq_bind, Option.bind_eq_some_iff] at h
  obtain ⟨s, hs, h⟩ := h
  obtain ⟨rfl, hmax, -, -⟩ := ctPackString_eq hs
  cases md with
  | none =>
      injection h with h
      subst h
      refine ⟨?_, hmax, fun v hv => absurd hv (by simp)⟩
      simp [WriteBuf.putAll_bytes, WriteBuf.new, contextField, metadataField]
  | some v =>
      simp only [Option.bind_eq_some_iff] at h
      obtain ⟨source, hsource, destination, hdestination, h⟩ := h
      obtain ⟨rfl, hfamily, -⟩ := ctUdpEndpointEncode_eq hsource
      obtain ⟨rfl, hfamily', -⟩ := ctUdpEndpointEncode_eq hdestination
      injection h with h
      subst h
      refine ⟨?_, hmax, fun v' hv => ?_⟩
      · simp [WriteBuf.put, WriteBuf.putAll_bytes, WriteBuf.new, contextField, metadataField]
      · obtain rfl := Option.mem_some_iff.mp hv
        exact ⟨hfamily, hfamily'⟩

/-- What fits into the buffer is encoded. -/
theorem startStreamPayload_fits (hmax : x.serviceId.length ≤ b.maxServiceIdLength)
    (hfamilies : FamiliesKnown md)
    (hcap : (contextField x x.serviceId.bytes ++ metadataField md).length ≤ b.controlBufferSize) :
    ∃ w, startStreamPayload b x md = some w ∧
      w.bytes = contextField x x.serviceId.bytes ++ metadataField md := by
  have hid := b.maxServiceIdLength_range
  have hlen := contextField_length x x.serviceId.bytes
  rw [List.length_append, hlen] at hcap
  have hstring := @ctPackString_fits b.controlBufferSize [] x.serviceId b.maxServiceIdLength hmax
    (by omega) (by simp only [CString.length, List.length_nil]; omega)
  have hsome : ∃ w, startStreamPayload b x md = some w := by
    unfold startStreamPayload
    simp only [hstring, Option.bind_eq_bind, Option.bind_some]
    cases md with
    | none => exact ⟨_, rfl⟩
    | some v =>
        obtain ⟨hsource, hdestination⟩ := hfamilies v rfl
        have hone := endpointField_length v.source
        have htwo := endpointField_length v.destination
        simp only [metadataField, List.length_append, List.length_singleton] at hcap
        dsimp only
        rw [ctUdpEndpointEncode_fits hsource]
        · simp only [Option.bind_some]
          rw [ctUdpEndpointEncode_fits hdestination]
          · exact ⟨_, rfl⟩
          · simp [WriteBuf.put, WriteBuf.putAll_bytes, WriteBuf.new] at hcap ⊢
            omega
        · simp [WriteBuf.put, WriteBuf.putAll_bytes, WriteBuf.new] at hcap ⊢
          omega
  obtain ⟨w, hw⟩ := hsome
  exact ⟨w, hw, (startStreamPayload_eq hw).1⟩

theorem startStreamBytes_eq {q : Bytes} (h : startStreamBytes b m c x md = some q) :
    ∃ mac, streammac b m c CtMsgType.startStream.toByte .server x md 1 = some mac ∧
      q = startField x x.serviceId.bytes md mac ∧
      x.serviceId.length ≤ b.maxServiceIdLength ∧ FamiliesKnown md := by
  simp only [startStreamBytes, Option.bind_eq_bind, Option.bind_eq_some_iff] at h
  obtain ⟨w, hw, mac, hmac, h⟩ := h
  obtain ⟨hbytes, hmax, hfamilies⟩ := startStreamPayload_eq hw
  refine ⟨mac, hmac, ?_, hmax, hfamilies⟩
  rw [← Option.some.inj h, WriteBuf.put, hbytes]
  rfl

theorem startStreamBytes_fits (hmax : x.serviceId.length ≤ b.maxServiceIdLength)
    (hfamilies : FamiliesKnown md)
    (hmac : streammac b m c CtMsgType.startStream.toByte .server x md 1 = some mac)
    (hcap : (startField x x.serviceId.bytes md mac).length ≤ b.controlBufferSize) :
    startStreamBytes b m c x md = some (startField x x.serviceId.bytes md mac) := by
  rw [startField, List.length_append] at hcap
  obtain ⟨w, hw, hbytes⟩ := startStreamPayload_fits hmax hfamilies (by omega)
  simp only [startStreamBytes, hw, hmac, Option.bind_eq_bind, Option.bind_some]
  rw [WriteBuf.put, hbytes]
  rfl

theorem streamReadyBytes_eq {q : Bytes} {ok : Bool} (h : streamReadyBytes b m c x ok = some q) :
    ∃ mac, streammac b m c (readyMessageType ok) .client x none (okByte ok) = some mac ∧
      q = readyField x x.serviceId.bytes (okByte ok) mac ∧
      x.serviceId.length ≤ b.maxServiceIdLength := by
  simp only [streamReadyBytes, streamReadyPayload, Option.bind_eq_bind, Option.bind_eq_some_iff] at h
  obtain ⟨w, ⟨s, hs, hw⟩, mac, hmac, h⟩ := h
  obtain ⟨rfl, hmax, -, -⟩ := ctPackString_eq hs
  refine ⟨mac, hmac, ?_, hmax⟩
  obtain rfl := Option.some.inj hw
  rw [← Option.some.inj h, WriteBuf.put, WriteBuf.new_putAll_bytes]
  simp [readyField, contextField]

theorem streamReadyBytes_fits {ok : Bool} (hmax : x.serviceId.length ≤ b.maxServiceIdLength)
    (hmac : streammac b m c (readyMessageType ok) .client x none (okByte ok) = some mac)
    (hcap : (readyField x x.serviceId.bytes (okByte ok) mac).length ≤ b.controlBufferSize) :
    streamReadyBytes b m c x ok = some (readyField x x.serviceId.bytes (okByte ok) mac) := by
  have hid := b.maxServiceIdLength_range
  have hlen := contextField_length x x.serviceId.bytes
  rw [readyField, List.length_append, List.length_append, hlen] at hcap
  have hstring := @ctPackString_fits b.controlBufferSize [] x.serviceId b.maxServiceIdLength hmax
    (by omega) (by simp only [CString.length, List.length_nil]; omega)
  simp only [streamReadyBytes, streamReadyPayload, hstring, hmac, Option.bind_eq_bind,
    Option.bind_some]
  show some _ = some _
  rw [WriteBuf.put, WriteBuf.new_putAll_bytes]
  simp [readyField, contextField]

/-! ## What the senders put on the wire -/

/-- One plain frame of `type` with payload `q`. -/
structure PlainFrame (b : Build) (type : UInt8) (session stream : UInt64) (q : Bytes)
    (wire : Bytes) : Prop where
  fits : q.length ≤ b.maxFrameSize
  encoded : ∃ head, ctFrameHeaderEncode b (plainHeader type session stream q) = some head ∧
    wire = head.toList ++ q

theorem ctStartStreamSend_wire {work : CtWork} {serviceId : CString} {sid : UInt64}
    {mode : CtEncMode} {random : Option (Octets 32)} {io : SendIo} {s : σ} :
    (ctStartStreamSend b m work c serviceId sid mode md random io s).Ends []
      (fun rnd _ tr => ∃ q,
        startStreamBytes b m c ⟨sid, rnd, work.id, serviceId, mode⟩ md = some q ∧
        PlainFrame b CtMsgType.startStream.toByte c.keys.sessionId sid q (wireOut tr))
      (fun _ _ => True) := by
  refine .need ?_ (fun _ => trivial)
  intro rnd _
  refine .need ?_ (fun _ => trivial)
  intro w hw
  refine .need ?_ (fun _ => trivial)
  intro mac hmac
  refine .tell (.bind ctPlainSend_wire ?_)
  rintro _ s' tr ⟨-, hlen, head, hhead, hwire⟩
  refine .ret ⟨(w.put mac.toList).bytes, ?_, hlen, head, hhead, ?_⟩
  · simp only [startStreamBytes, hw, hmac, Option.bind_eq_bind, Option.bind_some]
    rfl
  · rw [hwire]
    rfl

theorem ctStreamReadySend_wire {work : CtWork} {serviceId : CString} {sid : UInt64}
    {mode : CtEncMode} {rnd : Octets 32} {ok : Bool} {io : SendIo} {s : σ} :
    (ctStreamReadySend b m work c serviceId mode sid rnd ok io s).Ends []
      (fun _ _ tr => ∃ q, streamReadyBytes b m c ⟨sid, rnd, work.id, serviceId, mode⟩ ok = some q ∧
        PlainFrame b (readyMessageType ok) c.keys.sessionId sid q (wireOut tr))
      (fun _ _ => True) := by
  refine .need ?_ (fun _ => trivial)
  intro w hw
  refine .need ?_ (fun _ => trivial)
  intro mac hmac
  refine .tell (.of_bind_pure (.bind ctPlainSend_wire ?_))
  rintro _ s' tr ⟨-, hlen, head, hhead, hwire⟩
  refine .ret ⟨(w.put mac.toList).bytes, ?_, hlen, head, hhead, ?_⟩
  · simp only [streamReadyBytes, hw, hmac, Option.bind_eq_bind, Option.bind_some]
    rfl
  · rw [hwire]
    rfl

/-! ## What the receivers read -/

/-- The metadata without the address bytes that a family does not use. -/
def CtStreamMetadata.trimmed (v : CtStreamMetadata) : CtStreamMetadata :=
  { v with source := v.source.trimmed, destination := v.destination.trimmed }

/-- The offset of the MAC. -/
def macOffset (x : StreamContext) (id : Bytes) (md : Option CtStreamMetadata) : Nat :=
  (contextField x id ++ metadataField md).length

theorem startField_drop (x : StreamContext) (id : Bytes) (md : Option CtStreamMetadata)
    (mac : Octets 32) (stale : Bytes) :
    (startField x id md mac ++ stale).drop (macOffset x id md) = mac.toList ++ stale := by
  rw [startField, List.append_assoc _ mac.toList, macOffset, List.drop_left]

/-- The reads up to the mode of the PROXY protocol. -/
structure ContextRead (b : Build) (x : StreamContext) (id p : Bytes) (n : Nat) : Prop where
  service : ctUnpackString p n 0 (b.maxServiceIdLength + 1) = some (id, 2 + id.length)
  mode : p.getD (2 + id.length) 0 = x.mode.toByte
  workId : sliceOctets p (2 + id.length + 1) 32 = x.workId
  random : sliceOctets p (2 + id.length + 33) 32 = x.random
  stream : ctGetU64 p (2 + id.length + 65) = x.stream

theorem contextField_read {n : Nat} (rest : Bytes) (hp : p = contextField x id ++ rest)
    (hid : id.length ≤ b.maxServiceIdLength) (hn : 2 + id.length ≤ n) : ContextRead b x id p n := by
  have hmax := b.maxServiceIdLength_range
  have hlen : p.length = 75 + id.length + rest.length := by
    rw [hp, List.length_append, contextField_length]
  have h0 : p.drop 0 = stringField id ++ ([x.mode.toByte] ++ (x.workId.toList ++
      (x.random.toList ++ (ctPutU64 x.stream ++ rest)))) := by
    simp [hp, contextField]
  have hmode := drop_of_drop h0
  have hwork := drop_of_drop hmode
  have hrandom := drop_of_drop hwork
  have hstream := drop_of_drop hrandom
  simp only [stringField_length, List.length_singleton, List.Vector.toList_length, Nat.zero_add]
    at hmode hwork hrandom hstream
  exact {
    service := by
      have hread := @ctUnpackString_of_drop p id _ n 0 (b.maxServiceIdLength + 1) h0 (by omega)
        (by omega) (by omega)
      rwa [Nat.zero_add] at hread
    mode := getD_of_drop hmode
    workId := sliceOctets_of_drop hwork (by omega)
    random := sliceOctets_of_drop hrandom (by omega)
    stream := ctGetU64_of_drop hstream }

/-- What was read stands at the front of the payload. -/
theorem ContextRead.front {n : Nat} (h : ContextRead b x id p n) (hn : n ≤ p.length)
    (hfits : 75 + id.length ≤ n) : p = contextField x id ++ p.drop (75 + id.length) := by
  have hservice := ctUnpackString_drop h.service hn
  rw [List.drop_zero] at hservice
  calc p = stringField id ++ p.drop (2 + id.length) := hservice
    _ = stringField id ++ ([x.mode.toByte] ++ (x.workId.toList ++ (x.random.toList ++
          (ctPutU64 x.stream ++ p.drop (2 + id.length + 65 + 8))))) := by
        rw [drop_getD _ (by omega), h.mode, drop_sliceOctets (2 + id.length + 1) 32
          (by omega), h.workId, drop_sliceOctets (2 + id.length + 1 + 32) 32 (by omega),
          h.random, drop_u64 (2 + id.length + 1 + 32 + 32) (by omega)]
        rw [← h.stream]
    _ = contextField x id ++ p.drop (75 + id.length) := by
        have hend : 2 + id.length + 65 + 8 = 75 + id.length := by omega
        rw [hend]
        simp [contextField]

section Parse

variable {work : CtWork} {h : CtFrameHeader} {v : CtStreamMetadata}

/-- The receiver reads the fields the sender wrote. -/
theorem startStreamParse_field (hwork : work.id = x.workId) (hstream : h.streamId = x.stream)
    (hid : id.length ≤ b.maxServiceIdLength) (hfamilies : FamiliesKnown (some v)) :
    startStreamParse b work h (startField x id (some v) mac ++ stale)
        (startField x id (some v) mac).length =
      some ({ x with serviceId := CString.ofBytes id }, v.trimmed, macOffset x id (some v)) := by
  obtain ⟨hsourceFamily, hdestinationFamily⟩ := hfamilies v rfl
  have hcontext := contextField_length x id
  have hlen : (startField x id (some v) mac).length = 75 + id.length + (1 +
      (endpointField v.source).length + (endpointField v.destination).length) + 32 := by
    simp only [startField, metadataField, List.length_append, List.length_singleton,
      List.Vector.toList_length, hcontext]
  have hread : ContextRead b x id (startField x id (some v) mac ++ stale)
      (startField x id (some v) mac).length :=
    contextField_read _ (by rw [startField, List.append_assoc, List.append_assoc]) hid (by omega)
  have h0 : (startField x id (some v) mac ++ stale).drop 0 = contextField x id ++
      ([v.proxyProtocol.toByte] ++ (endpointField v.source ++ (endpointField v.destination ++
        (mac.toList ++ stale)))) := by
    simp [startField, metadataField]
  have hproxy := drop_of_drop h0
  have hsource := drop_of_drop hproxy
  have hdestination := drop_of_drop hsource
  rw [hcontext, Nat.zero_add] at hproxy hsource hdestination
  rw [List.length_singleton] at hsource hdestination
  have hbyte : (startField x id (some v) mac ++ stale).getD (2 + id.length + 73) 0 =
      v.proxyProtocol.toByte := by
    have hat : 2 + id.length + 73 = 75 + id.length := by omega
    rw [hat]
    exact getD_of_drop hproxy
  have hone := ctUdpEndpointDecode_of_drop (n := (startField x id (some v) mac).length) hsource
    hsourceFamily (by omega)
  have htwo := ctUdpEndpointDecode_of_drop (n := (startField x id (some v) mac).length) hdestination
    hdestinationFamily (by omega)
  have hfirst : 2 + id.length + 74 = 75 + id.length + 1 := by omega
  unfold startStreamParse
  simp only [hread.service, Option.bind_eq_bind, Option.bind_some, hread.mode, CtEncMode.ofByte_toByte,
    hread.workId, hread.random, hread.stream, hbyte, CtProxyProtocolMode.ofByte_toByte, hfirst, hone,
    htwo]
  rw [if_neg (by rw [hwork]; simp), if_neg (by rw [hstream, hlen]; simp; omega),
    if_neg (by rw [hlen]; omega), hwork]
  have hend : 75 + id.length + 1 + (endpointField v.source).length +
      (endpointField v.destination).length = macOffset x id (some v) := by
    simp only [macOffset, metadataField, List.length_append, List.length_singleton, hcontext]
    omega
  rw [hend]
  rfl

theorem idField_contextField {rest : Bytes} (hid : id.length ≤ 65535) :
    idField (contextField x id ++ rest) = id := by
  have hread := @ctUnpackString_of_drop (contextField x id ++ rest) id
    ([x.mode.toByte] ++ x.workId.toList ++ x.random.toList ++ ctPutU64 x.stream ++ rest)
    (2 + id.length) 0 (id.length + 1) (by simp [contextField]) hid (by omega) (by omega)
  rw [← List.append_nil (contextField x id ++ rest)] at hread
  refine (idField_of_unpack hread ?_).1
  rw [List.length_append, contextField_length]
  omega

/-- What the receiver read is what the sender writes for it. -/
theorem startStreamParse_exact {o : Nat}
    (hparse : startStreamParse b work h (p ++ stale) p.length = some (x, v, o)) :
    p = startField x (idField p) (some v) (sliceOctets (p ++ stale) o 32) ∧
      x.serviceId = CString.ofBytes (idField p) ∧ (idField p).length ≤ b.maxServiceIdLength ∧
      v.trimmed = v ∧ FamiliesKnown (some v) ∧ x.workId = work.id ∧ x.stream = h.streamId := by
  unfold startStreamParse at hparse
  simp only [Option.bind_eq_bind, Option.bind_eq_some_iff] at hparse
  obtain ⟨⟨id, o₁⟩, hid, mode, hmode, hparse⟩ := hparse
  obtain ⟨hfield, rfl, -, hmax⟩ := idField_of_unpack hid (Nat.le_refl _)
  split at hparse
  · exact absurd hparse (by simp)
  · rename_i hwork
    split at hparse
    · exact absurd hparse (by simp)
    · rename_i hroom
      simp only [not_or, Decidable.not_not, ge_iff_le, not_le] at hroom hwork
      simp only [Option.bind_eq_some_iff] at hparse
      obtain ⟨proxy, hproxy, ⟨source, o₂⟩, hsource, ⟨destination, o₃⟩, hdestination, hparse⟩ := hparse
      split at hparse
      · exact absurd hparse (by simp)
      · rename_i htail
        simp only [Option.pure_def, Option.some.injEq, Prod.mk.injEq] at hparse
        obtain ⟨rfl, rfl, rfl⟩ := hparse
        have hn : p.length ≤ (p ++ stale).length := by
          rw [List.length_append]
          omega
        have hread : ContextRead b ⟨ctGetU64 (p ++ stale) (2 + id.length + 65),
            sliceOctets (p ++ stale) (2 + id.length + 33) 32, work.id, CString.ofBytes id, mode⟩ id
            (p ++ stale) p.length :=
          ⟨hid, (CtEncMode.toByte_of_ofByte hmode).symm, hwork, rfl, rfl⟩
        have hfront := hread.front hn (by omega)
        obtain ⟨hone, hlen, -, hfamily, htrimmed⟩ := ctUdpEndpointDecode_drop hsource hn
        obtain ⟨htwo, hlen', hle, hfamily', htrimmed'⟩ := ctUdpEndpointDecode_drop hdestination hn
        have hat : 75 + id.length = 2 + id.length + 73 := by omega
        have hbyte := CtProxyProtocolMode.toByte_of_ofByte hproxy
        rw [hfield]
        refine ⟨?_, rfl, by omega, ?_, ?_, rfl, hroom.1⟩
        · refine @List.append_cancel_right _ p stale _ ?_
          calc p ++ stale = _ := hfront
            _ = _ ++ ([proxy.toByte] ++ (endpointField source ++ (endpointField destination ++
                  ((sliceOctets (p ++ stale) o₃ 32).toList ++ (p ++ stale).drop (o₃ + 32))))) := by
                rw [hat, drop_getD _ (by omega), ← hbyte, hone, htwo,
                  drop_sliceOctets o₃ 32 (by omega)]
            _ = _ := by
                have hend : o₃ + 32 = p.length := by omega
                rw [hend, List.drop_left]
                simp [startField, metadataField]
        · rw [CtStreamMetadata.trimmed, htrimmed, htrimmed']
        · intro v hv
          obtain rfl := Option.mem_some_iff.mp hv
          exact ⟨hfamily, hfamily'⟩

/-- The family 0 of a NULL is no family. -/
theorem startStreamParse_null (hid : id.length ≤ 65535) :
    startStreamParse b work h (startField x id none mac ++ stale)
      (startField x id none mac).length = none := by
  cases hparse : startStreamParse b work h (startField x id none mac ++ stale)
      (startField x id none mac).length with
  | none => rfl
  | some r =>
      obtain ⟨x', v, o⟩ := r
      obtain ⟨heq, -, hmax, -, hfamilies, -⟩ := startStreamParse_exact hparse
      have hrange := b.maxServiceIdLength_range
      generalize idField (startField x id none mac) = id' at heq hmax
      generalize sliceOctets (startField x id none mac ++ stale) o 32 = tag at heq
      simp only [startField, List.append_assoc _ (metadataField _)] at heq
      obtain ⟨-, -, heq⟩ := contextField_inj hid (by omega) heq
      obtain ⟨hfamily, -⟩ := hfamilies v rfl
      simp only [metadataField, endpointField, List.cons_append, List.nil_append,
        List.append_assoc, List.cons.injEq] at heq
      rw [← heq.2.1] at hfamily
      exact absurd rfl hfamily

/-- The reads of a STREAM_READY payload `p`: its id field and its ok byte. -/
structure ReadyRead (b : Build) (x : StreamContext) (p : Bytes) (ok : UInt8) (tag : Octets 32) :
    Prop where
  exact : p = readyField x (idField p) ok tag
  service : CString.ofBytes (idField p) = x.serviceId
  fits : (idField p).length ≤ b.maxServiceIdLength
  binary : ok ≤ 1

theorem readyField_read {ok : UInt8} {tag : Octets 32}
    (hmax : x.serviceId.length ≤ b.maxServiceIdLength) (hok : ok ≤ 1) :
    ReadyRead b x (readyField x x.serviceId.bytes ok tag) ok tag := by
  have hids := b.maxServiceIdLength_range
  simp only [CString.length] at hmax
  have hid : idField (readyField x x.serviceId.bytes ok tag) = x.serviceId.bytes := by
    rw [readyField, List.append_assoc]
    exact idField_contextField (by omega)
  exact ⟨by rw [hid], by rw [hid, CString.ofBytes_bytes], by rw [hid]; exact hmax, hok⟩

/-- The checks of `ct_stream_ready_recv` between the header and the MAC. -/
theorem readyRead_iff {ok : UInt8} {tag : Octets 32} :
    ReadyRead b x p ok tag ↔ ∃ id o, ctUnpackString p p.length 0 (b.maxServiceIdLength + 1) = some (id, o) ∧
      (p.length - o = 106 ∧ CString.ofBytes id = x.serviceId ∧ p.getD o 0 = x.mode.toByte ∧
        sliceOctets p (o + 1) 32 = x.workId ∧ sliceOctets p (o + 33) 32 = x.random ∧
        ctGetU64 p (o + 65) = x.stream ∧ p.getD (o + 73) 0 ≤ 1) ∧
      p.getD (o + 73) 0 = ok ∧ sliceOctets p (o + 74) 32 = tag := by
  have hcontext := contextField_length x (idField p)
  constructor
  · rintro ⟨hexact, hservice, hfits, hok⟩
    have hlen := congrArg List.length hexact
    simp only [readyField, List.length_append, hcontext, List.length_singleton,
      List.Vector.toList_length] at hlen
    have hread : ContextRead b x (idField p) p p.length := by
      refine contextField_read ([ok] ++ tag.toList) ?_ hfits (by omega)
      rw [← List.append_assoc]
      exact hexact
    have h0 : p.drop 0 = contextField x (idField p) ++ ([ok] ++ (tag.toList ++ [])) := by
      rw [List.drop_zero, List.append_nil, ← List.append_assoc]
      exact hexact
    have hbyte := drop_of_drop h0
    have htag := drop_of_drop hbyte
    rw [hcontext, Nat.zero_add] at hbyte htag
    have hat : 2 + (idField p).length + 73 = 75 + (idField p).length := by omega
    have hat' : 2 + (idField p).length + 74 = 75 + (idField p).length + 1 := by omega
    have hok' : p.getD (2 + (idField p).length + 73) 0 = ok := hat ▸ getD_of_drop hbyte
    refine ⟨_, _, hread.service, ⟨by omega, hservice, hread.mode, hread.workId, hread.random,
      hread.stream, hok' ▸ hok⟩, hok', ?_⟩
    rw [hat']
    exact sliceOctets_of_drop htag (by omega)
  · rintro ⟨id, o, hid, ⟨hlen, hservice, hmode, hwork, hrandom, hstream, hok⟩, rfl, rfl⟩
    obtain ⟨rfl, rfl, -, hmax⟩ := idField_of_unpack_self hid
    have hread : ContextRead b x (idField p) p p.length := ⟨hid, hmode, hwork, hrandom, hstream⟩
    refine ⟨?_, hservice, by omega, hok⟩
    have hat : 75 + (idField p).length = 2 + (idField p).length + 73 := by omega
    calc p = _ := hread.front (Nat.le_refl _) (by omega)
      _ = contextField x (idField p) ++ ([p.getD (2 + (idField p).length + 73) 0] ++
            ((sliceOctets p (2 + (idField p).length + 74) 32).toList ++
              p.drop (2 + (idField p).length + 74 + 32))) := by
          rw [hat, drop_getD _ (by omega),
            drop_sliceOctets (2 + (idField p).length + 73 + 1) 32 (by omega)]
      _ = _ := by
          rw [List.drop_eq_nil_of_le (by omega)]
          simp [readyField]

end Parse

/-! ## What the receivers accept -/

section Accept

variable {work : CtWork} {inbox : Bytes} {s : σ}

/-- `ct_start_stream_recv` accepts the payload `p` of a frame. -/
structure StartAccepted (b : Build) (m : Monocypher) (work : CtWork) (c : CtControl)
    (h : CtFrameHeader) (p stale : Bytes) (x : StreamContext) (v : CtStreamMetadata) : Prop where
  checked : h.type = CtMsgType.startStream.toByte ∧ h.sessionId = c.keys.sessionId ∧
    h.sequence = 0 ∧ 110 ≤ p.length
  parsed : ∃ o, startStreamParse b work h (p ++ stale) p.length = some (x, v, o) ∧
    streammac b m c CtMsgType.startStream.toByte .server x (some v) 1 =
      some (sliceOctets (p ++ stale) o 32)

theorem ctStartStreamRecv_value_iff {r : StreamContext × CtStreamMetadata} :
    (ctStartStreamRecv b m work c inbox stale s).value = some r ↔
      ∃ h p, ctPlainRecv b inbox b.controlBufferSize = some (h, p) ∧
        StartAccepted b m work c h p stale r.1 r.2 := by
  refine Reply.Ends.value_iff (P := fun r : StreamContext × CtStreamMetadata => ∃ h p,
    ctPlainRecv b inbox b.controlBufferSize = some (h, p) ∧
    StartAccepted b m work c h p stale r.1 r.2) [] ?_
  refine .need ?_ ?_
  · rintro ⟨h, p⟩ hrecv
    have hsame : ∀ {h' p'}, ctPlainRecv b inbox b.controlBufferSize = some (h', p') → (h', p') = (h, p) :=
      fun hrecv' => Option.some.inj (hrecv'.symm.trans hrecv)
    refine .check (fun hchecked => .need ?_ ?_) ?_
    · rintro ⟨x, v, o⟩ hparse
      refine .need ?_ ?_
      · intro mac hmac
        refine .tell (.check ?_ ?_)
        · rintro rfl
          refine .tell (.ret ⟨⟨h, p, hrecv, hchecked, o, hparse, hmac⟩, ?_⟩)
          rintro ⟨x', v'⟩ ⟨h', p', hrecv', -, o', hparse', -⟩
          cases hsame hrecv'
          cases hparse.symm.trans hparse'
          rfl
        · rintro htag ⟨x', v'⟩ ⟨h', p', hrecv', -, o', hparse', hmac'⟩
          cases hsame hrecv'
          cases hparse.symm.trans hparse'
          exact htag (Option.some.inj (hmac.symm.trans hmac'))
      · rintro hmac ⟨x', v'⟩ ⟨h', p', hrecv', -, o', hparse', hmac'⟩
        cases hsame hrecv'
        cases hparse.symm.trans hparse'
        exact absurd (hmac.symm.trans hmac') (by simp)
    · rintro hparse ⟨x', v'⟩ ⟨h', p', hrecv', -, o', hparse', -⟩
      cases hsame hrecv'
      exact absurd (hparse.symm.trans hparse') (by simp)
    · rintro hno ⟨x', v'⟩ ⟨h', p', hrecv', hchecked, -⟩
      cases hsame hrecv'
      exact hno hchecked
  · rintro hno ⟨x', v'⟩ ⟨h', p', hrecv', -⟩
    exact absurd (hno.symm.trans hrecv') (by simp)

/-- `ct_stream_ready_recv` accepts the payload `p` of a frame with the ok byte `ok`. -/
structure ReadyAccepted (b : Build) (m : Monocypher) (c : CtControl) (x : StreamContext)
    (h : CtFrameHeader) (p : Bytes) (ok : UInt8) : Prop where
  checked : h.sessionId = c.keys.sessionId ∧ h.streamId = x.stream ∧ h.sequence = 0 ∧
    (h.type = CtMsgType.streamReady.toByte ∨ h.type = CtMsgType.streamFailed.toByte)
  parsed : ∃ tag, ReadyRead b x p ok tag ∧ streammac b m c h.type .client x none ok = some tag

theorem ctStreamReadyRecv_value_iff {serviceId : CString} {mode : CtEncMode} {sid : UInt64}
    {rnd : Octets 32} {accepted : Bool} :
    (ctStreamReadyRecv b m work c serviceId mode sid rnd inbox s).value = some accepted ↔
      ∃ h p ok, ctPlainRecv b inbox b.controlBufferSize = some (h, p) ∧
        ReadyAccepted b m c ⟨sid, rnd, work.id, serviceId, mode⟩ h p ok ∧
        accepted = decide (ok ≠ 0 ∧ h.type = CtMsgType.streamReady.toByte) := by
  refine Reply.Ends.value_iff (P := fun accepted => ∃ h p ok,
    ctPlainRecv b inbox b.controlBufferSize = some (h, p) ∧
    ReadyAccepted b m c ⟨sid, rnd, work.id, serviceId, mode⟩ h p ok ∧
    accepted = decide (ok ≠ 0 ∧ h.type = CtMsgType.streamReady.toByte)) [] ?_
  refine .need ?_ ?_
  · rintro ⟨h, p⟩ hrecv
    have hsame : ∀ {h' p'}, ctPlainRecv b inbox b.controlBufferSize = some (h', p') → (h', p') = (h, p) :=
      fun hrecv' => Option.some.inj (hrecv'.symm.trans hrecv)
    refine .check (fun hchecked => .need ?_ ?_) ?_
    · rintro ⟨id, o⟩ hid
      have hboth : ∀ {ok tag}, ReadyRead b ⟨sid, rnd, work.id, serviceId, mode⟩ p ok tag →
          p.getD (o + 73) 0 = ok ∧ sliceOctets p (o + 74) 32 = tag := by
        intro ok tag hread
        obtain ⟨id', o', hid', -, hok, htag⟩ := readyRead_iff.mp hread
        cases hid.symm.trans hid'
        exact ⟨hok, htag⟩
      refine .check (fun hfields => .need ?_ ?_) ?_
      · intro mac hmac
        refine .tell (.check ?_ ?_)
        · intro htag
          refine .tell (.ret ⟨⟨h, p, _, hrecv, ⟨hchecked, _, readyRead_iff.mpr ⟨id, o, hid, hfields,
            rfl, rfl⟩, htag ▸ hmac⟩, rfl⟩, ?_⟩)
          rintro accepted' ⟨h', p', ok, hrecv', ⟨-, tag, hread, -⟩, haccepted⟩
          cases hsame hrecv'
          rw [haccepted, ← (hboth hread).1]
        · rintro htag accepted' ⟨h', p', ok, hrecv', ⟨-, tag, hread, hmac'⟩, -⟩
          cases hsame hrecv'
          obtain ⟨rfl, rfl⟩ := hboth hread
          exact htag (Option.some.inj (hmac.symm.trans hmac'))
      · rintro hmac accepted' ⟨h', p', ok, hrecv', ⟨-, tag, hread, hmac'⟩, -⟩
        cases hsame hrecv'
        obtain ⟨rfl, rfl⟩ := hboth hread
        exact absurd (hmac.symm.trans hmac') (by simp)
      · rintro hno accepted' ⟨h', p', ok, hrecv', ⟨-, tag, hread, -⟩, -⟩
        cases hsame hrecv'
        obtain ⟨id', o', hid', hfields, -⟩ := readyRead_iff.mp hread
        cases hid.symm.trans hid'
        exact hno hfields
    · rintro hno accepted' ⟨h', p', ok, hrecv', ⟨-, tag, hread, -⟩, -⟩
      cases hsame hrecv'
      obtain ⟨id', o', hid', -⟩ := readyRead_iff.mp hread
      exact absurd (hno.symm.trans hid') (by simp)
    · rintro hno accepted' ⟨h', p', ok, hrecv', ⟨hchecked, -⟩, -⟩
      cases hsame hrecv'
      exact hno hchecked
  · rintro hno accepted' ⟨h', p', ok, hrecv', -⟩
    exact absurd (hno.symm.trans hrecv') (by simp)

end Accept

end Ctunnel
