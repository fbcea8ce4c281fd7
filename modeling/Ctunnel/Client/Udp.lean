import Ctunnel.Config
import Ctunnel.Net.Datagram
import Mathlib.Logic.Function.Basic

/-!
# UDP sessions of the client (`src/client/client.c`)

A session is opened by the first datagram of the server that carries its id, with
a local socket of its own; replies go back in CT_MSG_UDP_DATAGRAM frames.
-/

namespace Ctunnel

open Lib

/-- `client_udp_session`. -/
structure ClientUdpSession where
  active : Bool
  id : UInt64
  txSeq : UInt64
  rxHigh : UInt64
  rxBitmap : UInt64
  lastMs : UInt64
  peer : CtEndpoint
  localEnd : CtEndpoint
  svc : CtServiceConfig
  fd : Socket
  deriving DecidableEq

def ClientUdpSession.zero : ClientUdpSession :=
  ⟨false, 0, 0, 0, 0, 0, .zero, .zero, .zero, 0⟩

/-- `client_svc`. -/
def clientSvc (cfg : CtConfig) (id : CString) : Option CtServiceConfig :=
  cfg.services.find? fun s => s.id == id

/-- The table of sessions. -/
abbrev ClientUdpTable : Type := Nat → ClientUdpSession

/-- `client_udp_find`. -/
def clientUdpFind (b : Build) (t : ClientUdpTable) (id : UInt64) : Option Nat :=
  (List.range b.maxUdpSessions).find? fun i => (t i).active && (t i).id == id

/-- What the environment decides in `client_udp_create`: the address of the local
service and the socket. -/
structure UdpCreateIo where
  localName : Option SockAddr
  opened : Option Socket
  deriving DecidableEq

/-- `client_udp_create`. -/
def clientUdpCreate (b : Build) (cfg : CtConfig) (d : UdpFrame) (now : UInt64) (io : UdpCreateIo) :
    Call Effect ClientUdpTable Nat := do
  let svc ← Call.need ((clientSvc cfg d.service).filter fun s => s.type == 2)
  let t ← Call.get
  Call.onFail [.inc .udpSessionsRejectedTotal]
    (Call.check ((List.range b.maxUdpSessions).countP (fun i => (t i).active) <
      svc.udpMaxSessions))
  let localEnd ← Call.need (io.localName.bind (endpointFromSockaddr b))
  let fd ← Call.need io.opened
  Call.tell [.socketOpen fd]
  let i ← Call.onFail [.socketClose fd]
    (Call.need ((List.range b.maxUdpSessions).find? fun i => !(t i).active))
  Call.modify fun t => Function.update t i ⟨true, d.id, 0, 0, 0, now, d.peer, localEnd, svc, fd⟩
  Call.tell [.inc .udpSessionsActive, .inc .udpSessionsCreatedTotal]
  return i

/-- What the environment decides in `client_udp_from_server`. -/
structure UdpFromServerIo where
  create : UdpCreateIo
  send : SendTo
  deriving DecidableEq

/-- A datagram for an open session of its service. -/
def clientUdpDeliver (b : Build) (i : Nat) (d : UdpFrame) (now : UInt64) (io : SendTo) :
    Call Effect ClientUdpTable Unit := do
  let t ← Call.get
  if d.payload.length > (t i).svc.udpMaxDatagramSize then
    Call.tell [.inc .udpDatagramsOversizedTotal, .inc .udpDatagramsDroppedTotal]
  else
    match udpReplayAccept b.udpReplayWindow (t i).rxHigh (t i).rxBitmap d.seq with
    | none => Call.tell [.inc .udpReplayDroppedTotal]
    | some (high, bitmap) => do
        Call.modify fun t => Function.update t i
          { t i with rxHigh := high, rxBitmap := bitmap, lastMs := now }
        Call.onFail [.inc .udpLocalSendFailuresTotal]
          (ctUdpSend b (t i).fd (t i).localEnd d.payload io)
        Call.tell [.inc .udpDatagramsC2sTotal, .metricAdd .udpBytesC2sTotal d.payload.length]

/-- `client_udp_from_server`. -/
def clientUdpFromServer (b : Build) (cfg : CtConfig) (payload : Bytes) (now : UInt64)
    (io : UdpFromServerIo) : Call Effect ClientUdpTable Unit := do
  let d ← Call.onFail [.inc .udpDatagramsDroppedTotal] (Call.need
    ((ctUdpDatagramUnpack b payload).filter fun d => d.direction == 0))
  let t ← Call.get
  let found ← Call.attempt (match clientUdpFind b t d.id with
    | some i => pure i
    | none => clientUdpCreate b cfg d now io.create)
  let t ← Call.get
  match found.filter fun i => (t i).svc.id == d.service && endpointEqual (t i).peer d.peer with
  | none => Call.tell [.inc .udpDatagramsDroppedTotal]
  | some i => clientUdpDeliver b i d now io.send

/-- The closes and metric updates of `client_udp_close`. -/
def clientUdpCloseEffects (s : ClientUdpSession) (expired : Bool) : List Effect :=
  if s.active then
    [.socketClose s.fd, .dec .udpSessionsActive] ++
      if expired then [.inc .udpSessionsExpiredTotal] else []
  else []

/-- `client_udp_expire`. -/
def clientUdpExpire (b : Build) (now : UInt64) : Call Effect ClientUdpTable Unit := do
  let t ← Call.get
  let expired := fun i => (t i).active &&
    decide ((now - (t i).lastMs).toNat > (t i).svc.udpIdleTimeout * 1000)
  Call.modify fun t i => if expired i then .zero else t i
  Call.tell ((List.range b.maxUdpSessions).flatMap fun i =>
    if expired i then clientUdpCloseEffects (t i) true else [])

end Ctunnel
