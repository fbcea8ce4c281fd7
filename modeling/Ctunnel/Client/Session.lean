import Ctunnel.Client.Udp
import Ctunnel.Lib.SwapRemove
import Ctunnel.Net.Handshake
import Ctunnel.Net.RelayOpen

/-!
# The client (`src/client/client.c`)

One `client_session`: connect, handshake, register the services, then an event
loop over the control connection, the idle work connections, the relays and the
UDP sessions. A call that fails is the source's `goto done`. A build without the
work pool behaves as with `pool_count = 0`.
-/

namespace Ctunnel

open Lib

/-- `idle_work`. -/
structure IdleWork where
  connection : CtWork
  readRetryAfterMs : UInt64
  deriving DecidableEq

/-- The locals of `client_session`. -/
structure ClientSession where
  ctl : CtControl
  work : List IdleWork
  relays : Nat → CtRelay
  udp : ClientUdpTable

/-- The locals before the handshake. -/
def ClientSession.blank : ClientSession where
  ctl := .zero
  work := []
  relays := fun _ => .unused
  udp := fun _ => .zero

def onClientControl {α : Type} (x : Call Effect CtControl α) : Call Effect ClientSession α :=
  Call.zoom ClientSession.ctl (fun s c => { s with ctl := c }) x

def onClientUdp {α : Type} (x : Call Effect ClientUdpTable α) : Call Effect ClientSession α :=
  Call.zoom ClientSession.udp (fun s t => { s with udp := t }) x

def onClientRelay {α : Type} (k : Nat) (x : Call Effect CtRelay α) :
    Call Effect ClientSession α :=
  Call.zoom (fun s => s.relays k) (fun s r => { s with relays := Function.update s.relays k r }) x

/-! ## Work connections -/

/-- `add_work`. -/
def addWork (b : Build) (m : Monocypher) (io : WorkConnectIo) : Call Effect ClientSession Unit := do
  Call.tell [.addWork]
  let s ← Call.get
  Call.check (s.work.length < b.maxStreams)
  let w ← Call.onFail [.inc .workConnectFailuresTotal] (onClientControl (ctWorkConnect b m io))
  Call.modify fun s => { s with work := s.work ++ [⟨w, 0⟩] }
  Call.tell [.inc .workIdle]

/-- The loops that fill the pool: until one `add_work` fails, or there are
`target` idle connections. -/
def fillPool (b : Build) (m : Monocypher) (target : Nat) (io : Nat → WorkConnectIo) :
    Nat → Call Effect ClientSession Unit
  | 0 => return ()
  | fuel + 1 => do
      let s ← Call.get
      if s.work.length < target then do
        let added ← Call.attempt (addWork b m (io fuel))
        match added with
        | some _ => fillPool b m target io fuel
        | none => return ()
      else return ()

/-! ## Registration -/

/-- The payload of REGISTER_SERVICE. -/
def registerPayload (b : Build) (s : CtServiceConfig) : Option Bytes := do
  let id ← ctPackString b.controlBufferSize [] s.id b.maxServiceIdLength
  let addr ← ctPackString b.controlBufferSize id s.remoteAddr b.maxAddressLength
  return addr ++ ctPutU16 s.remotePort ++ [s.type, s.encryption.toByte, s.proxyProtocol.toByte] ++
    if b.udp = true ∧ s.type = 2 then
      ctPutU32 (UInt32.ofNat s.udpIdleTimeout) ++ ctPutU32 (UInt32.ofNat s.udpReplyTimeout) ++
        ctPutU32 (UInt32.ofNat s.udpMaxSessions) ++ ctPutU32 (UInt32.ofNat s.udpMaxDatagramSize)
    else []

/-- The replies to one registration, until the one that ends the loop; the list
ends where `ct_control_recv` times out. -/
def registerReplies (b : Build) (m : Monocypher) (id : CString) :
    List (RecvIo × SendIo) → Call Effect CtControl Unit
  | [] => Call.need none
  | (recv, pong) :: rest => do
      let (h, reply) ← ctControlRecv b m b.controlBufferSize recv
      if h.type = CtMsgType.ping.toByte then do
        ctControlSend b m CtMsgType.pong.toByte 0 reply pong
        registerReplies b m id rest
      else if h.type = CtMsgType.requestWorkConnection.toByte then
        registerReplies b m id rest
      else do
        Call.check (h.type = CtMsgType.registerOk.toByte)
        let (registered, o) ← Call.need
          (ctUnpackString reply reply.length 0 (b.maxServiceIdLength + 1))
        Call.check (o = reply.length ∧ CString.ofBytes registered = id)

/-- What the environment decides during one registration. -/
structure ClientRegisterIo where
  send : SendIo
  replies : List (RecvIo × SendIo)

/-- `client_register`, from the service at index `i` on. -/
def clientRegister (b : Build) (m : Monocypher) (io : Nat → ClientRegisterIo) :
    (i : Nat) → List CtServiceConfig → Call Effect CtControl Unit
  | _, [] => return ()
  | i, s :: rest => do
      let payload ← Call.need (registerPayload b s)
      ctControlSend b m CtMsgType.registerService.toByte 0 payload (io i).send
      registerReplies b m s.id (io i).replies
      clientRegister b m io (i + 1) rest

/-! ## Opening and closing a session -/

/-- What the environment decides in `client_session` before its loop. -/
structure ClientConnectIo where
  connected : Option Socket
  handshake : ClientHandshakeIo
  register : Nat → ClientRegisterIo
  alloc : Bool
  pool : Nat → WorkConnectIo

/-- `client_session` up to its loop. -/
def clientConnect (b : Build) (m : Monocypher) (cfg : CtConfig) (io : ClientConnectIo) :
    Call Effect ClientSession Unit := do
  let fd ← Call.need io.connected
  Call.tell [.socketOpen fd]
  Call.onFail [.socketClose fd] (do
    onClientControl (ctHandshakeClient b m fd cfg io.handshake)
    onClientControl (clientRegister b m io.register 0 cfg.services)
    Call.check (io.alloc = true))
  fillPool b m cfg.poolCount io.pool cfg.poolCount

/-- The label `done:` of `client_session`, after GOAWAY. -/
def clientDoneEffects (b : Build) (s : ClientSession) : List Effect :=
  s.work.map (fun w => .socketClose w.connection.fd) ++ s.work.map (fun _ => .dec .workIdle) ++
    (List.range b.maxStreams).flatMap (fun k =>
      if (s.relays k).closed then [] else (ctRelayClose b (s.relays k)).effects) ++
    (if b.udp then (List.range b.maxUdpSessions).flatMap fun i =>
      clientUdpCloseEffects (s.udp i) false else []) ++
    [.socketClose s.ctl.fd]

/-! ## Events -/

/-- What the environment decides when the control connection is readable. -/
structure ClientControlIo where
  queued : Queued
  more : Bytes
  alloc : Bool
  reply : SendIo
  work : WorkConnectIo
  udp : UdpFromServerIo
  now : UInt64

/-- A control frame. -/
def clientControl (b : Build) (m : Monocypher) (cfg : CtConfig) (io : ClientControlIo) :
    Call Effect ClientSession Unit := do
  let (h, payload) ← onClientControl (ctControlRecv b m b.controlBufferSize
    ⟨io.queued.inbox io.more, io.alloc, io.now⟩)
  if h.type = CtMsgType.ping.toByte then
    onClientControl (ctControlSend b m CtMsgType.pong.toByte 0 payload io.reply)
  else if h.type = CtMsgType.pong.toByte then return ()
  else if h.type = CtMsgType.requestWorkConnection.toByte then do
    let _ ← Call.attempt (addWork b m io.work)
  else if b.udp = true ∧ h.type = CtMsgType.udpDatagram.toByte then
    onClientUdp (clientUdpFromServer b cfg payload io.now io.udp)
  else Call.need none

def clientControlEvent (b : Build) (m : Monocypher) (cfg : CtConfig) (io : ClientControlIo) :
    Call Effect ClientSession Unit :=
  match ctFrameAvailable b (b.controlBufferSize + ctAeadTag) ctFlagEncrypted io.queued with
  | .failed => Call.need none
  | .later => Call.modify fun s => { s with ctl := { s.ctl with readRetryAfterMs := io.now + 50 } }
  | .frame _ => do
      Call.modify fun s => { s with ctl := { s.ctl with readRetryAfterMs := 0 } }
      clientControl b m cfg io

/-- What the environment decides when an idle work connection is readable; `stale`
is what the receive buffer held before. -/
structure ClientWorkIo where
  queued : Queued
  more : Bytes
  stale : Bytes
  connected : Option Socket
  ready : SendIo
  alloc : RelayAlloc
  pool : Nat → WorkConnectIo
  now : UInt64

/-- The service a START_STREAM is for, if the client offers it in that mode. -/
def offeredService (cfg : CtConfig) (x : StreamContext) (md : CtStreamMetadata) :
    Option CtServiceConfig × List Effect :=
  match (clientSvc cfg x.serviceId).filter fun s => s.encryption == x.mode with
  | none => (none, [])
  | some s =>
      if s.proxyProtocol = md.proxyProtocol then (some s, [])
      else (none, [.inc .proxyProtocolModeMismatchTotal])

/-- A stream whose local service is connected: answer, then relay. -/
def openStream (b : Build) (m : Monocypher) (w : CtWork) (x : StreamContext)
    (md : CtStreamMetadata) (localFd : Socket) (io : ClientWorkIo) :
    Call Effect ClientSession Unit := do
  let s ← Call.get
  let k ← Call.need ((List.range b.maxStreams).find? fun k => (s.relays k).closed)
  ctStreamReadySend b m w s.ctl x.serviceId x.mode x.stream x.random true io.ready
  onClientRelay k (relayInit b m .client s.ctl
    { direct := localFd
      work := w.fd
      context := x
      metadata := some md
      alloc := io.alloc })

/-- START_STREAM on the work connection `w`. -/
def clientStream (b : Build) (m : Monocypher) (cfg : CtConfig) (w : CtWork) (io : ClientWorkIo) :
    Call Effect ClientSession Unit := do
  let s ← Call.get
  let (x, md) ← Call.onFail [.socketClose w.fd]
    (ctStartStreamRecv b m w s.ctl (io.queued.inbox io.more) io.stale)
  let (service, mismatch) := offeredService cfg x md
  Call.tell mismatch
  match service.bind fun _ => io.connected with
  | none => do
      let _ ← Call.attempt
        (ctStreamReadySend b m w s.ctl x.serviceId x.mode x.stream x.random false io.ready)
      Call.tell [.socketClose w.fd]
  | some localFd => do
      Call.tell [.socketOpen localFd]
      let _ ← Call.attempt
        (Call.onFail [.socketClose localFd, .socketClose w.fd] (openStream b m w x md localFd io))

/-- An idle work connection is readable. -/
def clientWorkEvent (b : Build) (m : Monocypher) (cfg : CtConfig) (fd : Socket)
    (io : ClientWorkIo) : Call Effect ClientSession Unit := do
  let s ← Call.get
  match s.work.findIdx? fun w => w.connection.fd == fd with
  | none => return ()
  | some index =>
      match ctPlainFrameAvailable b b.controlBufferSize io.queued, s.work[index]? with
      | .frame _, some w => do
          Call.modify fun s => { s with work := swapRemove s.work index }
          Call.tell [.dec .workIdle]
          let received ← Call.attempt (clientStream b m cfg w.connection io)
          -- a rejected START_STREAM goes on with the next event
          match received with
          | some _ => fillPool b m (min cfg.poolCount b.maxStreams) io.pool b.maxStreams
          | none => return ()
      | .later, _ =>
          Call.modify fun s => { s with
            work := s.work.modify index fun w => { w with readRetryAfterMs := io.now + 50 } }
      | _, _ => do
          Call.modify fun s => { s with work := swapRemove s.work index }
          Call.tell [.socketClose fd, .dec .workIdle]

/-- What the environment decides when a local UDP socket is readable. -/
structure UdpLocalIo where
  recv : RecvFrom
  send : SendIo
  now : UInt64
  deriving DecidableEq

/-- `client_udp_from_local`. -/
def clientUdpFromLocal (b : Build) (m : Monocypher) (i : Nat) (io : UdpLocalIo) :
    Call Effect ClientSession Unit := do
  let s ← Call.get
  match ctUdpRecv b b.maxUdpDatagramSize io.recv with
  | .failed => Call.need none
  | .nothing => return ()
  | .datagram _ payload =>
      if payload.length > (s.udp i).svc.udpMaxDatagramSize then
        Call.tell [.inc .udpDatagramsOversizedTotal, .inc .udpDatagramsDroppedTotal]
      else do
        let session := { s.udp i with lastMs := io.now, txSeq := (s.udp i).txSeq + 1 }
        Call.modify fun s => { s with udp := Function.update s.udp i session }
        Call.onFail [.inc .udpDatagramsDroppedTotal] (do
          let frame ← Call.need (ctUdpDatagramPack b b.controlBufferSize
            ⟨1, session.id, session.txSeq, session.svc.id, session.peer, payload⟩)
          onClientControl (ctControlSend b m CtMsgType.udpDatagram.toByte session.id frame io.send))
        Call.tell [.inc .udpDatagramsS2cTotal, .metricAdd .udpBytesS2cTotal payload.length]

/-- What the environment decides after a batch of events. -/
structure ClientTickIo where
  now : UInt64
  ping : SendIo
  deriving DecidableEq

/-- The end of an iteration: expired UDP sessions and the heartbeat. -/
def clientTick (b : Build) (m : Monocypher) (cfg : CtConfig) (io : ClientTickIo) :
    Call Effect ClientSession Unit := do
  if b.udp then onClientUdp (clientUdpExpire b io.now)
  let s ← Call.get
  Call.check ((io.now - s.ctl.lastRxMs).toNat ≤ cfg.heartbeatTimeout * 1000)
  if (io.now - s.ctl.lastTxMs).toNat > cfg.heartbeatInterval * 1000 then
    onClientControl (ctControlSend b m CtMsgType.ping.toByte 0
      (ctPutU64 (s.ctl.txSeq + 1) ++ ctPutU64 io.now) io.ping)

/-! ## The client -/

/-- What the client does next, with what the environment decides in it. `goaway` is the
send of GOAWAY, if `ct_runtime_should_stop` when the event ends the session. -/
inductive ClientEvent
  | connect (io : ClientConnectIo)
  | control (io : ClientControlIo) (goaway : Option SendIo := none)
  | work (fd : Socket) (io : ClientWorkIo)
  | udpLocal (i : Nat) (io : UdpLocalIo) (goaway : Option SendIo := none)
  | relay (k : Nat) (side : Side) (ev : EvMask) (io : RelayIo)
  | tick (io : ClientTickIo) (goaway : Option SendIo := none)
  /-- The loop ends: `ct_runtime_should_stop`, or there is no event loop. -/
  | stop (goaway : Option SendIo)

/-- The send of GOAWAY, if the event ends the session. -/
def ClientEvent.goaway : ClientEvent → Option SendIo
  | .control _ io | .udpLocal _ _ io | .tick _ io | .stop io => io
  | .connect _ | .work _ _ | .relay _ _ _ _ => none

/-- An event of an open session; it fails where the source goes to `done:`. -/
def sessionEvent (b : Build) (m : Monocypher) (cfg : CtConfig) :
    ClientEvent → Call Effect ClientSession Unit
  | .connect _ => return ()
  | .control io _ => clientControlEvent b m cfg io
  | .work fd io => clientWorkEvent b m cfg fd io
  | .udpLocal i io _ => clientUdpFromLocal b m i io
  | .relay k side ev io => do
      let _ ← Call.attempt (onClientRelay k (Call.ofOutcome fun r =>
        ctRelayProcess b m (match side with | .direct => r.direct | .work => r.work) ev io r))
  | .tick io _ => clientTick b m cfg io
  | .stop _ => Call.need none

/-- The start of the label `done:`. -/
def sayGoaway (b : Build) (m : Monocypher) : Option SendIo → Call Effect ClientSession Unit
  | none => return ()
  | some io => do
      let _ ← Call.attempt (onClientControl (ctControlSend b m CtMsgType.goaway.toByte 0 [] io))

/-- An event of an open session, and GOAWAY where it ends it. -/
def sessionCall (b : Build) (m : Monocypher) (cfg : CtConfig) (ev : ClientEvent) :
    Call Effect ClientSession Unit := do
  let handled ← Call.attempt (sessionEvent b m cfg ev)
  match handled with
  | some _ => return ()
  | none => do
      sayGoaway b m ev.goaway
      Call.need none

/-- `ct_run_client`: a session, or none between two of them. -/
def clientStep (b : Build) (m : Monocypher) (cfg : CtConfig) (ev : ClientEvent)
    (s : Option ClientSession) : Outcome Effect (Option ClientSession) :=
  match s, ev with
  | none, .connect io =>
      let r := clientConnect b m cfg io .blank
      ⟨r.value.map fun _ => r.state, r.value.isSome, r.effects⟩
  | none, _ => .done none
  | some s, ev =>
      let r := sessionCall b m cfg ev s
      match r.value with
      | some _ => .emit (some r.state) r.effects
      | none => .fail none (r.effects ++ clientDoneEffects b r.state)

end Ctunnel
