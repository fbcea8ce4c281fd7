import Ctunnel.Server.Incoming
import Ctunnel.Server.Register

/-!
# The event loop of the server (`src/server/server.c`)

`ct_run_server` registers every socket it waits for, handles the events of the
batch `event_loop_wait` reports, and sweeps the tables for what has expired. The
references of a batch are made before its events are handled, so an event may
reach a slot that another event of the same batch has changed.
-/

namespace Ctunnel

open Lib

/-! ## REF_CONTROL -/

/-- What the environment decides when a control connection is readable. -/
structure ControlIo where
  queued : Queued
  more : Bytes
  alloc : Bool
  register : RegisterIo
  reply : SendIo
  sendTo : SendTo
  goaway : SendIo
  now : UInt64

/-- `server_control`. -/
def serverControl (b : Build) (m : Monocypher) (cfg : CtConfig) (control : List BoundSocket)
    (peers : Nat → ServerPeer) (io : ControlIo) : Call Effect ServerPeer Unit := do
  let (h, payload) ← onControl (ctControlRecv b m b.controlBufferSize
    ⟨io.queued.inbox io.more, io.alloc, io.now⟩)
  if h.type = CtMsgType.registerService.toByte then
    registerService b m cfg control peers payload io.register
  else if b.udp = true ∧ h.type = CtMsgType.udpDatagram.toByte then
    serverUdpFromClient b payload io.now io.sendTo
  else if h.type = CtMsgType.ping.toByte then
    onControl (ctControlSend b m CtMsgType.pong.toByte 0 payload io.reply)
  else if h.type = CtMsgType.pong.toByte then return ()
  else Call.need none

def setReadRetry (ms : UInt64) : Call Effect ServerPeer Unit :=
  Call.modify fun p => { p with ctl := { p.ctl with readRetryAfterMs := ms } }

def controlEvent (b : Build) (m : Monocypher) (cfg : CtConfig) (i : Nat) (io : ControlIo) :
    Call Effect ServerState Unit :=
  match ctFrameAvailable b (b.controlBufferSize + ctAeadTag) ctFlagEncrypted io.queued with
  | .failed => onPeer i (peerClose b m io.goaway)
  | .later => onPeer i (setReadRetry (io.now + 50))
  | .frame _ => do
      let st ← Call.get
      onPeer i (do
        setReadRetry 0
        let handled ← Call.attempt (serverControl b m cfg st.control st.peers io)
        match handled with
        | some _ => return ()
        | none => peerClose b m io.goaway)

/-! ## REF_STARTING -/

/-- What the environment decides when a starting work connection is readable. -/
structure StartingIo where
  queued : Queued
  more : Bytes
  alloc : RelayAlloc
  now : UInt64

/-- `find_starting` and the answer of the client. -/
def startingEvent (b : Build) (m : Monocypher) (fd : Socket) (io : StartingIo) :
    Call Effect ServerPeer Unit := do
  let p ← Call.get
  match p.starting.findIdx? fun s => s.work.fd == fd with
  | none => return ()
  | some index =>
      match ctPlainFrameAvailable b b.controlBufferSize io.queued, p.starting[index]? with
      | .frame _, some s => do
          let finished ← Call.attempt
            (startRelayFinish b m s ⟨io.queued.inbox io.more, io.alloc⟩)
          removeStarting index finished.isNone
      | .later, _ =>
          Call.modify fun p => { p with
            starting := p.starting.modify index fun s => { s with readRetryAfterMs := io.now + 50 } }
      | _, _ => removeStarting index true

/-! ## REF_SERVICE and REF_UDP_SERVICE -/

/-- What the environment decides when a service listener is readable: an accepted
connection with its two names, if `ct_net_connection_endpoints` finds them. -/
structure ServiceIo where
  accepted : Option Socket
  names : Option (SockAddr × SockAddr)
  request : SendIo
  starts : Nat → StartIo
  now : UInt64

/-- The metadata of an accepted connection. -/
def connectionMetadata (b : Build) (s : ServerService) (names : Option (SockAddr × SockAddr)) :
    Option CtStreamMetadata := do
  let (peer, here) ← names
  let source ← endpointFromSockaddr b peer
  let destination ← endpointFromSockaddr b here
  return ⟨s.cfg.proxyProtocol, source, destination⟩

/-- `reject_reason` is set. -/
def streamLimit (b : Build) (cfg : CtConfig) (p : ServerPeer) : Bool :=
  decide (cfg.maxPendingStreams ≤ p.pending.length) || p.pending.length == b.maxPendingStreams ||
    (p.auth.any fun a => decide (a.maxStreams ≤ activeStreams b p)) ||
    decide (cfg.maxStreamsPerClient ≤ activeStreams b p)

/-- A connection to a service waits for a work connection. -/
def acceptPending (b : Build) (m : Monocypher) (cfg : CtConfig) (svc : Nat) (fd : Socket)
    (md : CtStreamMetadata) (io : ServiceIo) : Call Effect ServerPeer Unit := do
  Call.modify fun p => { p with
    pending := p.pending ++ [⟨fd, svc, md, io.now + timeoutMs cfg.connectTimeout⟩] }
  Call.tell [.inc .pendingStreams]
  let p ← Call.get
  if p.work = [] then do
    let _ ← Call.attempt (onControl (ctControlSend b m CtMsgType.requestWorkConnection.toByte 0 []
      io.request))
  matchPending b m cfg io.starts

def serviceEvent (b : Build) (m : Monocypher) (cfg : CtConfig) (svc : Nat) (io : ServiceIo) :
    Call Effect ServerPeer Unit := do
  let p ← Call.get
  -- a listener that is not open accepts nothing
  match (if (p.service svc).listenFd = [] then none else io.accepted) with
  | none => return ()
  | some fd => do
      Call.tell [.socketOpen fd]
      match connectionMetadata b (p.service svc) io.names with
      | none => Call.tell [.inc .connectionsRejectedTotal, .inc .proxyProtocolHeaderFailuresTotal,
          .socketClose fd]
      | some md =>
          if streamLimit b cfg p then
            Call.tell [.inc .connectionsRejectedTotal, .inc .resourceLimitRejectionsTotal,
              .socketClose fd]
          else acceptPending b m cfg svc fd md io

/-- What the environment decides when a UDP service is readable, per socket. -/
structure UdpServiceIo where
  external : Nat → UdpExternalIo
  goaway : Nat → SendIo
  now : UInt64

/-- The loop of REF_UDP_SERVICE over `udp_fd[i]`, from `i` on; closing the peer
ends it. -/
def udpServiceLoop (b : Build) (m : Monocypher) (svc : Nat) (io : UdpServiceIo) :
    (fuel i : Nat) → Call Effect ServerPeer Unit
  | 0, _ => return ()
  | fuel + 1, i => do
      let p ← Call.get
      match (p.service svc).udpFd[i]? with
      | none => return ()
      | some s => do
          let handled ← Call.attempt
            (serverUdpFromExternal b m svc s.fd io.now (io.external i))
          match handled with
          | some _ => pure ()
          | none => peerClose b m (io.goaway i)
          udpServiceLoop b m svc io fuel (i + 1)

def udpServiceEvent (b : Build) (m : Monocypher) (svc : Nat) (io : UdpServiceIo) :
    Call Effect ServerPeer Unit := do
  let p ← Call.get
  udpServiceLoop b m svc io (p.service svc).udpFd.length 0

/-! ## The sweep -/

/-- What the environment decides in the sweep; `poll` is the time when the next
batch is registered. -/
structure SweepIo where
  now : UInt64
  poll : UInt64
  ping : Nat → SendIo
  goaway : Nat → SendIo

/-- The payload of the server's PING. -/
def pingPayload (c : CtControl) (now : UInt64) : Bytes := ctPutU64 (c.txSeq + 1) ++ ctPutU64 now

/-- Heartbeats: a silent peer is closed, a quiet channel gets a PING. -/
def sweepHeartbeat (b : Build) (m : Monocypher) (cfg : CtConfig) (i : Nat) (io : SweepIo) :
    Call Effect ServerPeer Unit := do
  let p ← Call.get
  if (io.now - p.ctl.lastRxMs).toNat > cfg.heartbeatTimeout * 1000 then
    peerClose b m (io.goaway i)
  else if (io.now - p.ctl.lastTxMs).toNat > cfg.heartbeatInterval * 1000 then do
    let sent ← Call.attempt (onControl (ctControlSend b m CtMsgType.ping.toByte 0
      (pingPayload p.ctl io.now) (io.ping i)))
    match sent with
    | some _ => return ()
    | none => peerClose b m (io.goaway i)
  else return ()

/-- The part of the sweep about one peer. -/
def sweepPeer (b : Build) (m : Monocypher) (cfg : CtConfig) (i : Nat) (io : SweepIo) :
    Call Effect ServerPeer Unit := do
  let p ← Call.get
  if p.active then do
    let pending := sweepList (fun c => decide (c.deadline < io.now)) p.pending
    Call.modify fun p => { p with pending := pending.1 }
    Call.tell (pending.2.flatMap fun c =>
      [.socketClose c.fd, .dec .pendingStreams, .inc .streamsFailedTotal])
    let starting := sweepList (fun s => decide (s.deadline ≤ io.now)) p.starting
    Call.modify fun p => { p with starting := starting.1 }
    Call.tell (starting.2.flatMap fun s =>
      [.socketClose s.pending.fd, .socketClose s.work.fd, .inc .streamsFailedTotal])
    if b.udp then serverUdpExpire b io.now
    sweepHeartbeat b m cfg i io
  else return ()

/-- The same call for each of the listed peers. -/
def eachPeer (f : Nat → Call Effect ServerPeer Unit) : List Nat → Call Effect ServerState Unit
  | [] => return ()
  | i :: is => do
      onPeer i (f i)
      eachPeer f is

/-- What `ct_run_server` does after the events of a batch. -/
def sweep (b : Build) (m : Monocypher) (cfg : CtConfig) (io : SweepIo) :
    Call Effect ServerState Unit := do
  let st ← Call.get
  let incoming := sweepTable (fun t i => t.conns[i]?) IncomingTable.remove
    (fun c => decide (c.deadline ≤ io.now)) st.incoming.conns.length 0 st.incoming
  Call.modify fun st => { st with incoming := incoming.1 }
  Call.tell (incoming.2.map fun c => .socketClose c.fd)
  eachPeer (fun i => sweepPeer b m cfg i io) (List.range b.maxClients)

/-- The end of `ct_run_server`. -/
def shutdown (b : Build) (m : Monocypher) (goaway : Nat → SendIo) :
    Call Effect ServerState Unit := do
  eachPeer (fun i => peerClose b m (goaway i)) (List.range b.maxClients)
  let st ← Call.get
  let incoming := sweepTable (fun t i => t.conns[i]?) IncomingTable.remove (fun _ => true)
    st.incoming.conns.length 0 st.incoming
  Call.tell (incoming.2.map (fun c => .socketClose c.fd) ++ closeSet st.control)
  Call.modify fun st => { st with incoming := incoming.1, control := [] }

/-! ## The loop -/

/-- `ref`. -/
inductive ServerRef
  | accept
  | incoming (fd : Socket)
  | control (i : Nat)
  | service (i svc : Nat)
  | udpService (i svc : Nat)
  | starting (i : Nat) (fd : Socket)
  | relay (i k : Nat) (side : Side)
  deriving DecidableEq

/-- What the loop does next, with what the environment decides in it. -/
inductive ServerEvent
  | accept (io : AcceptIo)
  | incoming (fd : Socket) (io : IncomingIo)
  | control (i : Nat) (io : ControlIo)
  | service (i svc : Nat) (io : ServiceIo)
  | udpService (i svc : Nat) (io : UdpServiceIo)
  | starting (i : Nat) (fd : Socket) (io : StartingIo)
  | relay (i k : Nat) (side : Side) (ev : EvMask) (io : RelayIo)
  /-- The end of a batch. -/
  | sweep (io : SweepIo)
  /-- `ct_runtime_should_stop`. -/
  | stop (goaway : Nat → SendIo)

/-- The references made for one peer. -/
def peerRefs (b : Build) (now : UInt64) (i : Nat) (p : ServerPeer) : List ServerRef :=
  if p.active then
    (if p.ctl.readRetryAfterMs ≤ now then [.control i] else []) ++
      (List.range p.svc.length).flatMap (fun j =>
        (p.service j).listenFd.map (fun _ => .service i j) ++
          if b.udp then (p.service j).udpFd.map (fun _ => .udpService i j) else []) ++
      (p.starting.filter fun s => decide (s.readRetryAfterMs ≤ now)).map
        (fun s => .starting i s.work.fd) ++
      (List.range b.maxStreams).flatMap fun k =>
        if (p.relays k).closed then [] else [.relay i k .direct, .relay i k .work]
  else []

/-- The references of a batch. -/
def serverRefs (b : Build) (now : UInt64) (st : ServerState) : List ServerRef :=
  st.control.map (fun _ => .accept) ++
    (st.incoming.conns.filter fun c => decide (c.readRetryAfterMs ≤ now)).map
      (fun c => .incoming c.fd) ++
    (List.range b.maxClients).flatMap fun i => peerRefs b now i (st.peers i)

/-- `event_capacity`. -/
def eventCapacity (b : Build) : Nat :=
  2 + b.maxClients * 2 +
    b.maxClients * (1 + 2 * b.maxServices + b.maxPendingStreams + 2 * b.maxStreams)

/-- The reference an event is reported with. -/
def ServerEvent.ref : ServerEvent → Option ServerRef
  | .accept _ => some .accept
  | .incoming fd _ => some (.incoming fd)
  | .control i _ => some (.control i)
  | .service i svc _ => some (.service i svc)
  | .udpService i svc _ => some (.udpService i svc)
  | .starting i fd _ => some (.starting i fd)
  | .relay i k side _ _ => some (.relay i k side)
  | .sweep _ => none
  | .stop _ => none

/-- One event. -/
def serverCall (b : Build) (m : Monocypher) (cfg : CtConfig) :
    ServerEvent → Call Effect ServerState Unit
  | .accept io => acceptEvent b cfg io
  | .incoming fd io => incomingEvent b m cfg fd io
  | .control i io => controlEvent b m cfg i io
  | .service i svc io => onPeer i (serviceEvent b m cfg svc io)
  | .udpService i svc io => onPeer i (udpServiceEvent b m svc io)
  | .starting i fd io => onPeer i (startingEvent b m fd io)
  | .relay i k side ev io => onPeer i (onRelay k (Call.ofOutcome fun r =>
      ctRelayProcess b m (match side with | .direct => r.direct | .work => r.work) ev io r))
  | .sweep io => sweep b m cfg io
  | .stop goaway => shutdown b m goaway

/-- The loop between two events: the state, and the references of the batch. -/
structure ServerLoop where
  state : ServerState
  refs : List ServerRef

def ServerLoop.start (b : Build) (control : List BoundSocket) (now : UInt64) : ServerLoop :=
  ⟨.start b control, serverRefs b now (.start b control)⟩

/-- The references after an event: the end of a batch makes those of the next. -/
def nextRefs (b : Build) (refs : List ServerRef) (st : ServerState) : ServerEvent → List ServerRef
  | .sweep io => serverRefs b io.poll st
  | .stop _ => []
  | _ => refs

/-- One event of the loop. -/
def serverStep (b : Build) (m : Monocypher) (cfg : CtConfig) (ev : ServerEvent) (s : ServerLoop) :
    Outcome Effect ServerLoop :=
  let r := serverCall b m cfg ev s.state
  ⟨⟨r.state, nextRefs b s.refs r.state ev⟩, r.value.isSome, r.effects⟩

/-- The event is reported for a reference of the batch. -/
def Reported (s : ServerLoop) (ev : ServerEvent) : Prop := ∀ ref ∈ ev.ref, ref ∈ s.refs

instance (s : ServerLoop) (ev : ServerEvent) : Decidable (Reported s ev) :=
  inferInstanceAs (Decidable (∀ ref ∈ ev.ref, ref ∈ s.refs))

end Ctunnel
