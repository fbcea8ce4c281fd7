import Ctunnel.Net.Datagram
import Ctunnel.Server.State

/-!
# UDP sessions of the server (`src/server/server.c`)

A session is one external endpoint of one UDP service. Datagrams travel in
CT_MSG_UDP_DATAGRAM frames of the control channel.
-/

namespace Ctunnel

open Lib

/-- `++p->next_stream`, skipping 0. -/
def nextStreamId (n : UInt64) : UInt64 := if n + 1 = 0 then 1 else n + 1

/-! ## Frames -/

/-- `udp_pack`. -/
def udpPack (b : Build) (cap : Nat) (direction : UInt8) (id seq : UInt64) (service : CString)
    (peer : CtEndpoint) (payload : Bytes) : Option Bytes :=
  if payload.length > 65535 ∨ cap < 17 then none
  else do
    let out ← ctPackString cap ([direction] ++ ctPutU64 id ++ ctPutU64 seq) service
      b.maxServiceIdLength
    let endpoint ← ctUdpEndpointEncode cap out.length peer
    let out := out ++ endpoint
    if cap - out.length < 2 + payload.length then none
    else some (out ++ ctPutU16 (UInt16.ofNat payload.length) ++ payload)

/-- `udp_unpack`. -/
def udpUnpack (p : Bytes) (serviceCap : Nat) : Option UdpFrame :=
  if p.length < 17 then none
  else do
    let (service, off) ← ctUnpackString p p.length 17 serviceCap
    let (peer, off) ← ctUdpEndpointDecode p p.length off
    if p.length - off < 2 then none
    else if p.length - (off + 2) ≠ (ctGetU16 p off).toNat then none
    else some ⟨p.getD 0 0, ctGetU64 p 1, ctGetU64 p 9, CString.ofBytes service, peer,
      p.drop (off + 2)⟩

/-! ## The session table -/

/-- `server_udp_find`. -/
def serverUdpFind (b : Build) (p : ServerPeer) (svc : Nat) (peer : CtEndpoint) : Option Nat :=
  (List.range b.maxUdpSessions).find? fun i =>
    (p.udp i).active && (p.udp i).svc == svc && endpointEqual (p.udp i).peer peer

/-- `server_udp_find_id`. -/
def serverUdpFindId (b : Build) (p : ServerPeer) (id : UInt64) : Option Nat :=
  (List.range b.maxUdpSessions).find? fun i => (p.udp i).active && (p.udp i).id == id

def ServerPeer.setUdp (p : ServerPeer) (i : Nat) (s : ServerUdpSession) : ServerPeer :=
  { p with udp := Function.update p.udp i s }

/-- `server_udp_create`. -/
def serverUdpCreate (b : Build) (svc : Nat) (peer : CtEndpoint) (listener : Socket)
    (now : UInt64) : Call Effect ServerPeer Nat := do
  let p ← Call.get
  Call.onFail [.inc .udpSessionsRejectedTotal]
    (Call.check ((List.range b.maxUdpSessions).countP (fun i => (p.udp i).active) <
      (p.service svc).cfg.udpMaxSessions))
  let i ← Call.onFail [.inc .udpSessionsRejectedTotal]
    (Call.need ((List.range b.maxUdpSessions).find? fun i => !(p.udp i).active))
  let id := nextStreamId p.nextStream
  Call.modify fun p => { p with nextStream := id }
  Call.modify fun p => p.setUdp i ⟨true, id, 0, 0, 0, now, peer, svc, listener⟩
  Call.tell [.inc .udpSessionsActive, .inc .udpSessionsCreatedTotal]
  return i

/-! ## Traffic -/

/-- What the environment decides in `server_udp_from_external`. -/
structure UdpExternalIo where
  recv : RecvFrom
  send : SendIo
  deriving DecidableEq

/-- The session a datagram belongs to, and the frame it is sent in. -/
def serverUdpForward (b : Build) (m : Monocypher) (svc : Nat) (listener : Socket) (now : UInt64)
    (peer : CtEndpoint) (payload : Bytes) (io : SendIo) : Call Effect ServerPeer Unit := do
  let p ← Call.get
  let found ← Call.attempt (match serverUdpFind b p svc peer with
    | some i => pure i
    | none => serverUdpCreate b svc peer listener now)
  match found with
  | none => Call.tell [.inc .udpDatagramsDroppedTotal]
  | some i => do
      Call.modify fun p => p.setUdp i { p.udp i with lastMs := now, txSeq := (p.udp i).txSeq + 1 }
      let p ← Call.get
      Call.onFail [.inc .udpDatagramsDroppedTotal] do
        let frame ← Call.need (udpPack b b.controlBufferSize 0 (p.udp i).id (p.udp i).txSeq
          (p.service svc).cfg.id peer payload)
        onControl (ctControlSend b m CtMsgType.udpDatagram.toByte (p.udp i).id frame io)
      Call.tell [.inc .udpDatagramsC2sTotal, .metricAdd .udpBytesC2sTotal payload.length]

/-- `server_udp_from_external`. -/
def serverUdpFromExternal (b : Build) (m : Monocypher) (svc : Nat) (listener : Socket)
    (now : UInt64) (io : UdpExternalIo) : Call Effect ServerPeer Unit := do
  let p ← Call.get
  match ctUdpRecv b b.maxUdpDatagramSize io.recv with
  | .failed => Call.need none
  | .nothing => return ()
  | .datagram peer payload =>
      if payload.length > (p.service svc).cfg.udpMaxDatagramSize then
        Call.tell [.inc .udpDatagramsOversizedTotal, .inc .udpDatagramsDroppedTotal]
      else serverUdpForward b m svc listener now peer payload io.send

/-- `server_udp_from_client`. -/
def serverUdpFromClient (b : Build) (payload : Bytes) (now : UInt64) (io : SendTo) :
    Call Effect ServerPeer Unit := do
  let f ← Call.onFail [.inc .udpDatagramsDroppedTotal] (Call.need
    ((udpUnpack payload (b.maxServiceIdLength + 1)).filter fun f => f.direction == 1))
  let p ← Call.get
  match (serverUdpFindId b p f.id).filter fun i =>
      (p.service (p.udp i).svc).cfg.id == f.service && endpointEqual (p.udp i).peer f.peer with
  | none => Call.tell [.inc .udpDatagramsDroppedTotal]
  | some i =>
      match udpReplayAccept b.udpReplayWindow (p.udp i).rxHigh (p.udp i).rxBitmap f.seq with
      | none => Call.tell [.inc .udpReplayDroppedTotal]
      | some (high, bitmap) => do
          Call.modify fun p => p.setUdp i
            { p.udp i with rxHigh := high, rxBitmap := bitmap, lastMs := now }
          Call.onFail [.inc .udpLocalSendFailuresTotal]
            (ctUdpSend b (p.udp i).listener (p.udp i).peer f.payload io)
          Call.tell [.inc .udpDatagramsS2cTotal, .metricAdd .udpBytesS2cTotal f.payload.length]

/-- `server_udp_expire`. -/
def serverUdpExpire (b : Build) (now : UInt64) : Call Effect ServerPeer Unit := do
  let p ← Call.get
  let expired := fun i => (p.udp i).active &&
    decide ((now - (p.udp i).lastMs).toNat > (p.service (p.udp i).svc).cfg.udpIdleTimeout * 1000)
  Call.modify fun p => { p with udp := fun i => if expired i then .zero else p.udp i }
  Call.tell ((List.range b.maxUdpSessions).flatMap fun i =>
    if expired i then [.dec .udpSessionsActive, .inc .udpSessionsExpiredTotal] else [])

end Ctunnel
