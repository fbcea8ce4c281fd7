import Ctunnel.Net.Account
import Ctunnel.Server.Loop

/-!
# The moves of the server

Everything `ct_run_server` does to its state is a chain of the moves listed here:
`PeerMove` for what concerns one peer, `ServerMove` for the rest. A move carries
the checks the code made before it, the sockets it opens and closes, and its keyed
effects, so an invariant of the server is checked once per move.
-/

namespace Ctunnel

open Lib

/-- The sockets an active peer holds, in the order `peer_close` closes them. -/
def peerSockets (b : Build) (p : ServerPeer) : List Socket :=
  [p.ctl.fd] ++ p.svc.flatMap (fun s => s.listenFd.map BoundSocket.fd) ++
    p.svc.flatMap (fun s => s.udpFd.map BoundSocket.fd) ++ p.work.map CtWork.fd ++
    p.pending.map PendingConn.fd ++
    p.starting.flatMap (fun s => [s.pending.fd, s.work.fd]) ++
    (List.range b.maxStreams).flatMap fun k =>
      if (p.relays k).closed then [] else [(p.relays k).direct, (p.relays k).work]

/-- The context of a stream that waits for the client's answer. -/
def ServerPeer.context (p : ServerPeer) (s : StartingConn) : StreamContext :=
  ⟨s.streamId, s.random, s.work.id, (p.service s.pending.svc).cfg.id,
    (p.service s.pending.svc).cfg.encryption⟩

/-- The sockets of a relay are left alone, or both are closed. -/
inductive RelaySockets (r : CtRelay) : List Effect → CtRelay → Prop
  | same {r' : CtRelay} (h : SameWiring r r') : RelaySockets r [] r'
  | closed {r' : CtRelay} (hopen : r.closed = false) (hclosed : r'.closed = true) :
      RelaySockets r (closes [r.direct, r.work]) r'

/-! ## One peer -/

/-- The same session, whatever has been counted in it. -/
structure SameUdpSession (s t : ServerUdpSession) : Prop where
  active : t.active = s.active
  id : t.id = s.id
  peer : t.peer = s.peer
  svc : t.svc = s.svc
  listener : t.listener = s.listener

/-- The UDP sessions and the last stream id: a new session takes a free slot and
the next id, a session is used, or sessions expire. -/
inductive UdpMove (b : Build) (p : ServerPeer) : (Nat → ServerUdpSession) → UInt64 → Prop
  | created {i svc : Nat} {peer : CtEndpoint} {listener : Socket} (now : UInt64)
      (hi : i < b.maxUdpSessions) (hfree : (p.udp i).active = false)
      (hnew : serverUdpFind b p svc peer = none)
      (hroom : (List.range b.maxUdpSessions).countP (fun i => (p.udp i).active) <
        (p.service svc).cfg.udpMaxSessions)
      (hlistener : listener ∈ (p.service svc).udpFd.map BoundSocket.fd) :
      UdpMove b p
        (Function.update p.udp i
          ⟨true, nextStreamId p.nextStream, 0, 0, 0, now, peer, svc, listener⟩)
        (nextStreamId p.nextStream)
  | used {i : Nat} {s : ServerUdpSession} (hactive : (p.udp i).active = true)
      (hsame : SameUdpSession (p.udp i) s) :
      UdpMove b p (Function.update p.udp i s) p.nextStream
  | expired (gone : Nat → Bool) :
      UdpMove b p (fun i => if gone i then .zero else p.udp i) p.nextStream

inductive PeerMove (b : Build) (m : Monocypher) (cfg : CtConfig) (p : ServerPeer) :
    List Effect → ServerPeer → Prop
  | idle {es : List Effect} (hes : Does es [] []) : PeerMove b m cfg p es p
  /-- The control channel, while a control event is handled. -/
  | answer {es K : List Effect} {c : CtControl} (hes : Does es [] K)
      (hmove : ControlMove p.ctl K c) (hfd : c.fd = p.ctl.fd) :
      PeerMove b m cfg p es { p with ctl := c }
  /-- The control channel, otherwise. -/
  | channel {es K : List Effect} {c : CtControl} (hlive : p.active = true ∨ p.svc ≠ [])
      (hes : Does es [] K) (hmove : ControlMove p.ctl K c) (hfd : c.fd = p.ctl.fd) :
      PeerMove b m cfg p es { p with ctl := c }
  | sessions {udp : Nat → ServerUdpSession} {next : UInt64} (hudp : UdpMove b p udp next) :
      PeerMove b m cfg p [] { p with udp := udp, nextStream := next }
  | closed {es : List Effect} (hactive : p.active = true)
      (hes : Does es (closes (peerSockets b p)) []) : PeerMove b m cfg p es .zero
  /-- A connection to a service is closed again. -/
  | refused {es : List Effect} (fd : Socket) (hes : Does es [.socketOpen fd, .socketClose fd] []) :
      PeerMove b m cfg p es p
  | accepted {es : List Effect} (c : PendingConn) (hlisten : (p.service c.svc).listenFd ≠ [])
      (hlimit : streamLimit b cfg p = false) (hes : Does es [.socketOpen c.fd] []) :
      PeerMove b m cfg p es { p with pending := p.pending ++ [c] }
  /-- A pending connection timed out. -/
  | expired {es : List Effect} (index : Nat) (c : PendingConn) (hc : p.pending[index]? = some c)
      (hes : Does es (closes [c.fd]) []) :
      PeerMove b m cfg p es { p with pending := swapRemove p.pending index }
  /-- `start_relay_begin` returned 0. -/
  | begun {es : List Effect} (s : StartingConn) (hpending : p.pending.head? = some s.pending)
      (hwork : p.work.getLast? = some s.work) (hroom : p.starting.length < b.maxPendingStreams)
      (hid : s.streamId = nextStreamId p.nextStream)
      (hes : Does es [] (startSent p.ctl (p.context s) (some s.pending.metadata))) :
      PeerMove b m cfg p es { p with
        pending := p.pending.tail
        work := p.work.dropLast
        nextStream := s.streamId
        starting := p.starting ++ [s] }
  /-- `start_relay_begin` failed. -/
  | unbegun {es K : List Effect} (c : PendingConn) (w : CtWork)
      (hpending : p.pending.head? = some c) (hwork : p.work.getLast? = some w)
      (hK : K = [] ∨ ∃ rnd, K = startSent p.ctl ⟨nextStreamId p.nextStream, rnd, w.id,
        (p.service c.svc).cfg.id, (p.service c.svc).cfg.encryption⟩ (some c.metadata))
      (hes : Does es (closes [c.fd, w.fd]) K) :
      PeerMove b m cfg p es { p with
        pending := p.pending.tail
        work := p.work.dropLast
        nextStream := nextStreamId p.nextStream }
  | waited (index : Nat) (ms : UInt64) :
      PeerMove b m cfg p [] { p with
        starting := p.starting.modify index fun s => { s with readRetryAfterMs := ms } }
  /-- `start_relay_finish` returned 0. -/
  | finished {es K : List Effect} (index : Nat) (s : StartingConn) (k : Nat) (r : CtRelay)
      (hs : p.starting[index]? = some s) (hk : k < b.maxStreams)
      (hfree : (p.relays k).closed = true ∨ (p.relays k).direct = invalidSocket)
      (hK : AnswerChecked m p.ctl (p.context s) (some true) K)
      (hr : FreshRelay b m s.pending.fd s.work.fd false p.ctl.cipher p.ctl.keys.dataMaster
        (p.context s) r)
      (hes : Does es [] (K ++ relayDerives b .server p.ctl (p.context s))) :
      PeerMove b m cfg p es { p with
        starting := swapRemove p.starting index
        relays := Function.update p.relays k r }
  /-- The client refused the stream, its answer was not accepted, or it timed
  out. -/
  | unfinished {es K : List Effect} (index : Nat) (s : StartingConn) (ok : Option Bool)
      (hs : p.starting[index]? = some s) (hok : ok ≠ some true)
      (hK : AnswerChecked m p.ctl (p.context s) ok K)
      (hes : Does es (closes [s.pending.fd, s.work.fd]) K) :
      PeerMove b m cfg p es { p with starting := swapRemove p.starting index }
  /-- `ct_relay_init` failed, and its caller closes the sockets as well. -/
  | spoiled {es K : List Effect} (index : Nat) (s : StartingConn) (k : Nat) (r : CtRelay)
      (hs : p.starting[index]? = some s) (hk : k < b.maxStreams)
      (hfree : (p.relays k).closed = true ∨ (p.relays k).direct = invalidSocket)
      (hK : AnswerChecked m p.ctl (p.context s) (some true) K) (hr : r.closed = true)
      (hes : Does es (closes [s.pending.fd, s.work.fd, s.pending.fd, s.work.fd])
        (K ++ relayDerives b .server p.ctl (p.context s))) :
      PeerMove b m cfg p es { p with
        starting := swapRemove p.starting index
        relays := Function.update p.relays k r }
  /-- A relay handles an event. -/
  | relayed {es S K : List Effect} (k : Nat) {r : CtRelay}
      (hS : RelaySockets (p.relays k) S r) (hK : RelayMove (p.relays k) K r)
      (hrest : (p.relays k).closed = true → r = p.relays k) (hes : Does es S K) :
      PeerMove b m cfg p es { p with relays := Function.update p.relays k r }

/-! ## The server -/

/-- What `register_service` makes of a request: the configuration in it, and
sockets the operating system granted, for TCP or for UDP. -/
structure Requested (b : Build) (r : RegisterRequest) (io : BindIo) (s : ServerService) : Prop where
  config : r.config b = some s.cfg
  granted : ∀ sock ∈ s.listenFd ++ s.udpFd, io.Grants sock
  tcp : s.cfg.type = 1 → s.udpFd = []
  udp : s.cfg.type ≠ 1 → s.listenFd = []

/-- What `register_service` has checked when it opens the sockets of a service. -/
structure Admitted (b : Build) (cfg : CtConfig) (p : ServerPeer) (a : CtAuthorizedClient)
    (s : CtServiceConfig) : Prop where
  request : ∃ r : RegisterRequest, r.config b = some s ∧ requestRefusal b r = none
  config : configRefusal b p s = none
  auth : authRefusal cfg a p s = none

/-- A move of the server; `G` says which services may be registered in which
state. -/
inductive ServerMove (b : Build) (m : Monocypher) (cfg : CtConfig)
    (G : ServerState → ServerService → Prop) (st : ServerState) : List Effect → ServerState → Prop
  | peer {es : List Effect} (i : Nat) {p : ServerPeer} (hi : i < b.maxClients)
      (h : PeerMove b m cfg (st.peers i) es p) : ServerMove b m cfg G st es (st.setPeer i p)
  | idle {es : List Effect} (hes : Does es [] []) : ServerMove b m cfg G st es st
  | rated (rates : List AuthRate) : ServerMove b m cfg G st [] { st with rates := rates }
  /-- A control connection is closed again. -/
  | refused {es : List Effect} (fd : Socket) (hes : Does es [.socketOpen fd, .socketClose fd] []) :
      ServerMove b m cfg G st es st
  | accepted {es : List Effect} (c : IncomingConn) (hc : c.handshake = .zero)
      (hroom : st.incoming.conns.length ≠ b.maxClients * 2)
      (hremote : incomingForRemote st.incoming c.remote < 2)
      (hes : Does es [.socketOpen c.fd] []) :
      ServerMove b m cfg G st es { st with incoming := st.incoming.add c }
  /-- An incoming connection goes on with its handshake or waits for more bytes. -/
  | heard {es : List Effect} (index : Nat) (f : IncomingConn → IncomingConn)
      (hfd : ∀ c, (f c).fd = c.fd) (hremote : ∀ c, (f c).remote = c.remote)
      (hauth : ∀ c, ∀ a ∈ (f c).handshake.authorized,
        a ∈ c.handshake.authorized ∨ a ∈ cfg.clients)
      (hes : Does es [] []) :
      ServerMove b m cfg G st es
        { st with incoming := { st.incoming with conns := st.incoming.conns.modify index f } }
  | removed {es : List Effect} (index : Nat) (c : IncomingConn)
      (hc : st.incoming.conns[index]? = some c) (hes : Does es (closes [c.fd]) []) :
      ServerMove b m cfg G st es { st with incoming := st.incoming.remove index }
  /-- `ct_work_accept_bind` accepted a work connection. -/
  | bound {es K : List Effect} (index : Nat) (c : IncomingConn) (i : Nat) (w : CtWork)
      {ctl : CtControl} (hc : st.incoming.conns[index]? = some c) (hi : i < b.maxClients)
      (hactive : (st.peers i).active = true) (hroom : (st.peers i).work.length ≠ b.maxStreams)
      (hK : WorkBound m c.fd (st.peers i).ctl (some w) ctl K) (hes : Does es [] K) :
      ServerMove b m cfg G st es { st.setPeer i { st.peers i with
        ctl := ctl, work := (st.peers i).work ++ [w] } with incoming := st.incoming.remove index }
  | unbound {es K : List Effect} (fd : Socket) (i : Nat)
      (hK : WorkBound m fd (st.peers i).ctl none (st.peers i).ctl K) (hes : Does es [] K) :
      ServerMove b m cfg G st es st
  /-- `ct_handshake_server_finish` accepted a client. -/
  | joined {es K : List Effect} (index : Nat) (c : IncomingConn) (i : Nat)
      (a : CtAuthorizedClient) (next : UInt64) {ctl : CtControl}
      (hc : st.incoming.conns[index]? = some c) (hi : freeSlot b cfg st.peers = some i)
      (hK : FinishMove b m c.fd c.handshake (st.peers i).ctl (some a) ctl K) (hes : Does es [] K) :
      ServerMove b m cfg G st es { st.setPeer i { st.peers i with
        ctl := ctl
        auth := some a
        active := true
        nextStream := next } with incoming := st.incoming.remove index }
  /-- `ct_handshake_server_finish` failed, with the channel of a free slot in its
  hands. -/
  | unjoined {es K : List Effect} (index : Nat) (c : IncomingConn) (i : Nat) {ctl : CtControl}
      (hc : st.incoming.conns[index]? = some c) (hi : freeSlot b cfg st.peers = some i)
      (hK : FinishMove b m c.fd c.handshake (st.peers i).ctl none ctl K) (hes : Does es [] K) :
      ServerMove b m cfg G st es { st.setPeer i { st.peers i with ctl := ctl } with
        incoming := { st.incoming with
          conns := st.incoming.conns.modify index fun c => { c with handshake := .zero } } }
  /-- `register_service` opened the sockets of a service. -/
  | registered {es S : List Effect} (i : Nat) (s : ServerService) (a : CtAuthorizedClient)
      (hi : i < b.maxClients) (ha : (st.peers i).auth = some a)
      (hadmitted : Admitted b cfg (st.peers i) a s.cfg)
      (hset : (s.listenFd ++ s.udpFd).length ≤ 2) (hs : G st s)
      (hfree : listenSetOverlapsExisting b s.listenFd st.control st.peers = false)
      (hS : Opens S ((s.listenFd ++ s.udpFd).map BoundSocket.fd)) (hes : Does es S []) :
      ServerMove b m cfg G st es
        (st.setPeer i { st.peers i with svc := (st.peers i).svc ++ [s] })
  /-- `register_service` closed what it had opened. -/
  | unregistered {es S : List Effect} {fds : List Socket} (hS : Opens S fds)
      (hes : Does es (S ++ closes fds) []) : ServerMove b m cfg G st es st
  /-- The end of `ct_run_server`. -/
  | stopped {es : List Effect} (hes : Does es (closes (st.control.map BoundSocket.fd)) []) :
      ServerMove b m cfg G st es { st with control := [] }

end Ctunnel
