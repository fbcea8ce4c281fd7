import Ctunnel.Lib.SwapRemove
import Ctunnel.Server.State
import Ctunnel.Server.Udp

/-!
# Streams and peers of the server (`src/server/server.c`)

An external connection waits in `pending` until it is paired with an idle work
connection, in `starting` for the client's answer, and then becomes a relay.
-/

namespace Ctunnel

open Lib

/-- `connect_timeout * 1000`. -/
def timeoutMs (seconds : Nat) : UInt64 := UInt64.ofNat (seconds * 1000)

def onRelay {α : Type} (k : Nat) (x : Call Effect CtRelay α) : Call Effect ServerPeer α :=
  Call.zoom (fun p => p.relays k) (fun p r => { p with relays := Function.update p.relays k r }) x

/-- `active_streams`. -/
def activeStreams (b : Build) (p : ServerPeer) : Nat :=
  p.pending.length + p.starting.length +
    (List.range b.maxStreams).countP fun k => !(p.relays k).closed

/-! ## Closing a peer -/

/-- The closes and metric updates of `peer_close`. -/
def peerCloseEffects (b : Build) (p : ServerPeer) : List Effect :=
  [.socketClose p.ctl.fd] ++ p.svc.flatMap (fun s => closeSet s.listenFd) ++
    p.svc.flatMap (fun s => closeSet s.udpFd) ++ p.work.map (fun w => .socketClose w.fd) ++
    p.work.map (fun _ => .dec .workIdle) ++ p.pending.map (fun c => .socketClose c.fd) ++
    p.pending.map (fun _ => .dec .pendingStreams) ++
    p.starting.flatMap (fun s => [.socketClose s.pending.fd, .socketClose s.work.fd]) ++
    (List.range b.maxStreams).flatMap (fun k =>
      if (p.relays k).closed then [] else (ctRelayClose b (p.relays k)).effects) ++
    if b.udp then (List.range b.maxUdpSessions).flatMap fun i =>
      if (p.udp i).active then [.dec .udpSessionsActive] else []
    else []

/-- `peer_close`. -/
def peerClose (b : Build) (m : Monocypher) (io : SendIo) : Call Effect ServerPeer Unit := do
  let p ← Call.get
  if p.active then do
    let _ ← Call.attempt (onControl (ctControlSend b m CtMsgType.goaway.toByte 0 [] io))
    let p ← Call.get
    Call.tell (peerCloseEffects b p)
    Call.modify fun _ => .zero
  else return ()

/-! ## Starting a stream -/

/-- What the environment decides in `start_relay_begin`. -/
structure StartIo where
  random : Option (Octets 32)
  send : SendIo
  now : UInt64
  deriving DecidableEq

/-- `start_relay_begin`. -/
def startRelayBegin (b : Build) (m : Monocypher) (pending : PendingConn) (work : CtWork)
    (timeout : UInt64) (io : StartIo) : Call Effect ServerPeer Unit := do
  let p ← Call.get
  Call.check (p.starting.length ≠ b.maxPendingStreams)
  let sid := nextStreamId p.nextStream
  Call.modify fun p => { p with nextStream := sid }
  let cfg := (p.service pending.svc).cfg
  let random ← ctStartStreamSend b m work p.ctl cfg.id sid cfg.encryption (some pending.metadata)
    io.random io.send
  Call.modify fun p => { p with
    starting := p.starting ++ [⟨pending, work, sid, io.now + timeout, random, 0⟩] }

/-- One round of `match_pending`: the oldest pending connection and the newest
idle work connection. -/
def matchOne (b : Build) (m : Monocypher) (cfg : CtConfig) (pc : PendingConn) (w : CtWork)
    (io : StartIo) : Call Effect ServerPeer Unit := do
  Call.modify fun p => { p with pending := p.pending.tail, work := p.work.dropLast }
  Call.tell [.dec .pendingStreams, .dec .workIdle]
  let started ← Call.attempt
    (startRelayBegin b m pc w (timeoutMs cfg.connectTimeout) io)
  match started with
  | some _ => return ()
  | none => Call.tell [.socketClose pc.fd, .socketClose w.fd, .inc .streamsFailedTotal]

/-- The loop of `match_pending`, at most `fuel` times. -/
def matchLoop (b : Build) (m : Monocypher) (cfg : CtConfig) (io : Nat → StartIo) :
    Nat → Call Effect ServerPeer Unit
  | 0 => return ()
  | fuel + 1 => do
      let p ← Call.get
      match p.pending.head?, p.work.getLast? with
      | some pc, some w =>
          if p.starting.length < b.maxPendingStreams then do
            matchOne b m cfg pc w (io fuel)
            matchLoop b m cfg io fuel
          else return ()
      | _, _ => return ()

/-- `match_pending`: every round takes one pending connection. -/
def matchPending (b : Build) (m : Monocypher) (cfg : CtConfig) (io : Nat → StartIo) :
    Call Effect ServerPeer Unit := do
  let p ← Call.get
  matchLoop b m cfg io p.pending.length

/-! ## The client's answer -/

/-- What the environment decides in `start_relay_finish`. -/
structure FinishIo where
  inbox : Bytes
  alloc : RelayAlloc

/-- `start_relay_finish`. -/
def startRelayFinish (b : Build) (m : Monocypher) (s : StartingConn) (io : FinishIo) :
    Call Effect ServerPeer Unit := do
  let p ← Call.get
  let k ← Call.need ((List.range b.maxStreams).find? fun k =>
    (p.relays k).closed || (p.relays k).direct == invalidSocket)
  let cfg := (p.service s.pending.svc).cfg
  let ok ← ctStreamReadyRecv b m s.work p.ctl cfg.id cfg.encryption s.streamId s.random io.inbox
  Call.check (ok = true)
  onRelay k (relayInit b m .server p.ctl
    { direct := s.pending.fd
      work := s.work.fd
      context := ⟨s.streamId, s.random, s.work.id, cfg.id, cfg.encryption⟩
      metadata := none
      alloc := io.alloc })

/-- `remove_starting`. -/
def removeStarting (index : Nat) (closeSockets : Bool) : Call Effect ServerPeer Unit := do
  let p ← Call.get
  match p.starting[index]? with
  | some s => do
      if closeSockets then Call.tell [.socketClose s.pending.fd, .socketClose s.work.fd]
      Call.modify fun p => { p with starting := swapRemove p.starting index }
  | none => return ()

end Ctunnel
