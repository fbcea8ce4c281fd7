import Ctunnel.Net.Work

/-!
# Opening a stream (`src/net/net.c`)

START_STREAM from the server and STREAM_READY or STREAM_FAILED from the client,
exchanged on a work connection in plain frames and bound to the session, the
client, the work id and the stream by `streammac`.

A receive buffer is a stack buffer: the bytes behind the received payload are
the argument `stale`.
-/

namespace Ctunnel

open Lib

/-! ## Endpoints -/

/-- The address bytes of a family; 0 for an unknown one. -/
def addressLength (family : UInt8) : Nat := if family = 4 then 4 else if family = 6 then 16 else 0

/-- `ct_udp_endpoint_encode`: what it writes at `offset`. -/
def ctUdpEndpointEncode (capacity offset : Nat) (endpoint : CtEndpoint) : Option Bytes :=
  let n := addressLength endpoint.family
  if n = 0 ∨ offset > capacity ∨ capacity - offset < 1 + n + 2 then none
  else some ([endpoint.family] ++ endpoint.addr.toList.take n ++ ctPutU16 endpoint.port)

/-- `ct_udp_endpoint_decode`: the endpoint and the offset after it. -/
def ctUdpEndpointDecode (buffer : Bytes) (length offset : Nat) : Option (CtEndpoint × Nat) :=
  if offset ≥ length then none
  else
    let family := buffer.getD offset 0
    let n := addressLength family
    if n = 0 ∨ length - (offset + 1) < n + 2 then none
    else some
      (⟨family, sliceOctets (slice buffer (offset + 1) n ++ List.replicate 16 0) 0 16,
        ctGetU16 buffer (offset + 1 + n)⟩, offset + 1 + n + 2)

/-! ## `streammac` -/

/-- `sender_role`. -/
inductive SenderRole
  | server
  | client
  deriving DecidableEq, Repr

def SenderRole.toByte : SenderRole → UInt8
  | .server => 0
  | .client => 1

/-- The metadata block of `streammac`: 39 bytes, or 38 zero bytes for NULL. -/
def streammacMetadata : Option CtStreamMetadata → List Bytes
  | some md =>
      [[md.proxyProtocol.toByte], [md.source.family], md.source.addr.toList,
        ctPutU16 md.source.port, [md.destination.family], md.destination.addr.toList,
        ctPutU16 md.destination.port]
  | none => [List.replicate 38 0]

/-- The writes `streammac` makes into `uint8_t authenticated[256]`. -/
def streammacInput (c : CtControl) (messageType : UInt8) (senderRole : SenderRole)
    (x : StreamContext) (metadata : Option CtStreamMetadata) (ok : UInt8) : WriteBuf :=
  (WriteBuf.new 256).putAll
    ([ascii "ctunnel-v3/stream-binding", ctPutU64 c.keys.sessionId,
      ctPutU16 (UInt16.ofNat c.clientId.length), c.clientId.bytes, x.workId.toList,
      ctPutU16 (UInt16.ofNat x.serviceId.length), x.serviceId.bytes, ctPutU64 x.stream,
      x.random.toList, [x.mode.toByte]] ++ streammacMetadata metadata ++
      [[messageType], [senderRole.toByte], [ok]])

/-- `streammac`. -/
def streammac (b : Build) (m : Monocypher) (c : CtControl) (messageType : UInt8)
    (senderRole : SenderRole) (x : StreamContext) (metadata : Option CtStreamMetadata)
    (ok : UInt8) : Option (Octets 32) :=
  if c.clientId.length > b.maxClientIdLength ∨ x.serviceId.length > b.maxServiceIdLength then none
  else some (ctCryptoMac m c.keys.streamAuthKey
    (streammacInput c messageType senderRole x metadata ok).bytes)

/-! ## START_STREAM -/

/-- The payload of START_STREAM up to its MAC. -/
def startStreamPayload (b : Build) (x : StreamContext) (metadata : Option CtStreamMetadata) :
    Option WriteBuf := do
  let cap := b.controlBufferSize
  let id ← ctPackString cap [] x.serviceId b.maxServiceIdLength
  let p := (WriteBuf.new cap).putAll
    [id, [x.mode.toByte], x.workId.toList, x.random.toList, ctPutU64 x.stream]
  match metadata with
  | some md => do
      let p := p.put [md.proxyProtocol.toByte]
      let source ← ctUdpEndpointEncode cap p.bytes.length md.source
      let p := p.put source
      let destination ← ctUdpEndpointEncode cap p.bytes.length md.destination
      return p.put destination
  | none => return p.putAll [[0], [0], [0]]

/-- `ct_start_stream_send`: the stream random it drew. -/
def ctStartStreamSend {σ : Type} (b : Build) (m : Monocypher) (work : CtWork) (c : CtControl)
    (id : CString) (sid : UInt64) (encm : CtEncMode) (metadata : Option CtStreamMetadata)
    (random : Option (Octets 32)) (io : SendIo) : Call Effect σ (Octets 32) := do
  let rnd ← Call.need random
  let x : StreamContext := ⟨sid, rnd, work.id, id, encm⟩
  let p ← Call.need (startStreamPayload b x metadata)
  let mac ← Call.need
    (streammac b m c CtMsgType.startStream.toByte .server x metadata 1)
  Call.tell [.macSend c.keys.streamAuthKey
    (streammacInput c CtMsgType.startStream.toByte .server x metadata 1).bytes,
    .startSend c.keys c.clientId x metadata]
  ctPlainSend b work.fd CtMsgType.startStream.toByte c.keys.sessionId sid
    (p.put mac.toList).bytes io
  return rnd

/-- The fields of a START_STREAM payload of `n` bytes at the front of `p`, and the
offset of its MAC. -/
def startStreamParse (b : Build) (work : CtWork) (h : CtFrameHeader) (p : Bytes) (n : Nat) :
    Option (StreamContext × CtStreamMetadata × Nat) := do
  let (id, o) ← ctUnpackString p n 0 (b.maxServiceIdLength + 1)
  let mode ← CtEncMode.ofByte (p.getD o 0)
  if sliceOctets p (o + 1) 32 ≠ work.id then none
  else
    let rnd : Octets 32 := sliceOctets p (o + 33) 32
    let sid := ctGetU64 p (o + 65)
    if sid ≠ h.streamId ∨ o + 73 ≥ n then none
    else do
      let proxy ← CtProxyProtocolMode.ofByte (p.getD (o + 73) 0)
      let (source, o) ← ctUdpEndpointDecode p n (o + 74)
      let (destination, o) ← ctUdpEndpointDecode p n o
      if n - o ≠ 32 then none
      else return (⟨sid, rnd, work.id, CString.ofBytes id, mode⟩, ⟨proxy, source, destination⟩, o)

/-- `ct_start_stream_recv`. -/
def ctStartStreamRecv {σ : Type} (b : Build) (m : Monocypher) (work : CtWork) (c : CtControl)
    (inbox stale : Bytes) : Call Effect σ (StreamContext × CtStreamMetadata) := do
  let (h, payload) ← Call.need (ctPlainRecv b inbox b.controlBufferSize)
  Call.check (h.type = CtMsgType.startStream.toByte ∧ h.sessionId = c.keys.sessionId ∧
    h.sequence = 0 ∧ 110 ≤ payload.length)
  let p := payload ++ stale
  let (x, md, o) ← Call.need (startStreamParse b work h p payload.length)
  let mac ← Call.need
    (streammac b m c CtMsgType.startStream.toByte .server x (some md) 1)
  let tag : Octets 32 := sliceOctets p o 32
  Call.tell [.macCheck c.keys.streamAuthKey
    (streammacInput c CtMsgType.startStream.toByte .server x (some md) 1).bytes tag]
  Call.check (mac = tag)
  Call.tell [.startRecv c.keys c.clientId x md]
  return (x, md)

/-! ## STREAM_READY and STREAM_FAILED -/

/-- `message_type` of `ct_stream_ready_send`. -/
def readyMessageType (ok : Bool) : UInt8 :=
  if ok then CtMsgType.streamReady.toByte else CtMsgType.streamFailed.toByte

/-- `(uint8_t)ok`. -/
def okByte (ok : Bool) : UInt8 := if ok then 1 else 0

/-- The payload of STREAM_READY and STREAM_FAILED up to its MAC. -/
def streamReadyPayload (b : Build) (x : StreamContext) (ok : Bool) : Option WriteBuf := do
  let id ← ctPackString b.controlBufferSize [] x.serviceId b.maxServiceIdLength
  return (WriteBuf.new b.controlBufferSize).putAll
    [id, [x.mode.toByte], x.workId.toList, x.random.toList, ctPutU64 x.stream, [okByte ok]]

/-- `ct_stream_ready_send`. -/
def ctStreamReadySend {σ : Type} (b : Build) (m : Monocypher) (work : CtWork) (c : CtControl)
    (serviceId : CString) (mode : CtEncMode) (sid : UInt64) (rnd : Octets 32) (ok : Bool)
    (io : SendIo) : Call Effect σ Unit := do
  let x : StreamContext := ⟨sid, rnd, work.id, serviceId, mode⟩
  let p ← Call.need (streamReadyPayload b x ok)
  let mac ← Call.need (streammac b m c (readyMessageType ok) .client x none (okByte ok))
  Call.tell [.macSend c.keys.streamAuthKey
    (streammacInput c (readyMessageType ok) .client x none (okByte ok)).bytes,
    .readySend c.keys c.clientId x ok]
  ctPlainSend b work.fd (readyMessageType ok) c.keys.sessionId sid (p.put mac.toList).bytes io

/-- `ct_stream_ready_recv`: `*ok`. -/
def ctStreamReadyRecv {σ : Type} (b : Build) (m : Monocypher) (work : CtWork) (c : CtControl)
    (serviceId : CString) (mode : CtEncMode) (sid : UInt64) (rnd : Octets 32) (inbox : Bytes) :
    Call Effect σ Bool := do
  let (h, p) ← Call.need (ctPlainRecv b inbox b.controlBufferSize)
  Call.check (h.sessionId = c.keys.sessionId ∧ h.streamId = sid ∧ h.sequence = 0 ∧
    (h.type = CtMsgType.streamReady.toByte ∨ h.type = CtMsgType.streamFailed.toByte))
  let (service, o) ← Call.need (ctUnpackString p p.length 0 (b.maxServiceIdLength + 1))
  Call.check (p.length - o = 106 ∧ CString.ofBytes service = serviceId ∧
    p.getD o 0 = mode.toByte ∧ sliceOctets p (o + 1) 32 = work.id ∧
    sliceOctets p (o + 33) 32 = rnd ∧ ctGetU64 p (o + 65) = sid ∧ p.getD (o + 73) 0 ≤ 1)
  let ok := p.getD (o + 73) 0
  let x : StreamContext := ⟨sid, rnd, work.id, serviceId, mode⟩
  let mac ← Call.need (streammac b m c h.type .client x none ok)
  let tag : Octets 32 := sliceOctets p (o + 74) 32
  Call.tell [.macCheck c.keys.streamAuthKey (streammacInput c h.type .client x none ok).bytes tag]
  Call.check (mac = tag)
  let accepted := decide (ok ≠ 0 ∧ h.type = CtMsgType.streamReady.toByte)
  Call.tell [.readyRecv c.keys c.clientId x accepted]
  return accepted

end Ctunnel
