import Ctunnel.Server.Streams

/-!
# Incoming connections of the server (`src/server/server.c`)

Connections that have not said yet what they are: they become a peer by the two
halves of a handshake, or a work connection of an active peer by one bind
message. Failed authentications slow down their remote address.
-/

namespace Ctunnel

open Lib

/-! ## Authentication rates -/

/-- The first slot with the smallest `blocked_until`. -/
def oldestRate (rates : List AuthRate) : Nat :=
  (List.range rates.length).foldl
    (fun oldest i =>
      if (rates.getD i .zero).blockedUntil < (rates.getD oldest .zero).blockedUntil then i
      else oldest) 0

/-- `auth_rate_slot`: the table and the index of the slot. -/
def authRateSlot (rates : List AuthRate) (address : CString) : List AuthRate × Nat :=
  match rates.findIdx? fun r => r.address == address with
  | some i => (rates, i)
  | none =>
      let i := (rates.findIdx? fun r => r.address.bytes == []).getD (oldestRate rates)
      (rates.set i { AuthRate.zero with address := address }, i)

/-- `auth_rate_failed`. -/
def authRateFailed (rate : AuthRate) (now : UInt64) : AuthRate :=
  let failures := if rate.failures < 5 then rate.failures + 1 else rate.failures
  { rate with failures := failures, blockedUntil := now + UInt64.ofNat (2 ^ failures * 500) }

/-! ## The table -/

/-- `find_incoming`: the index of the connection. -/
def findIncoming (t : IncomingTable) (fd : Socket) : Option Nat :=
  t.conns.findIdx? fun c => c.fd == fd

/-- `incoming_for_remote`. -/
def incomingForRemote (t : IncomingTable) (remote : CString) : Nat :=
  t.conns.countP fun c => c.remote == remote

/-- `remove_incoming` on the table: the handshake is aborted, the last connection
moves to its place and stays in the slot it leaves. -/
def IncomingTable.remove (t : IncomingTable) (index : Nat) : IncomingTable :=
  let conns := t.conns.modify index fun c => { c with handshake := .zero }
  match conns.getLast? with
  | some last => ⟨swapRemove conns index, last :: t.stale⟩
  | none => t

/-- `memset` and the fields set when a connection is accepted. -/
def IncomingTable.add (t : IncomingTable) (c : IncomingConn) : IncomingTable :=
  ⟨t.conns ++ [c], t.stale.tail⟩

/-- `remove_incoming`. -/
def removeIncoming (index : Nat) (closeSocket : Bool) : Call Effect ServerState Unit := do
  let st ← Call.get
  match st.incoming.conns[index]? with
  | some c => do
      if closeSocket then Call.tell [.socketClose c.fd]
      Call.modify fun st => { st with incoming := st.incoming.remove index }
  | none => return ()

/-! ## REF_ACCEPT -/

/-- What `ct_net_accept` returned, and the time of the event. -/
structure AcceptIo where
  accepted : Option (Socket × CString)
  now : UInt64
  deriving DecidableEq

def acceptEvent (b : Build) (cfg : CtConfig) (io : AcceptIo) : Call Effect ServerState Unit :=
  match io.accepted with
  | none => return ()
  | some (fd, remote) => do
      Call.tell [.socketOpen fd, .inc .connectionsAcceptedTotal]
      let st ← Call.get
      if st.incoming.conns.length = b.maxClients * 2 ∨ 2 ≤ incomingForRemote st.incoming remote then
        Call.tell [.inc .connectionsRejectedTotal, .inc .resourceLimitRejectionsTotal,
          .socketClose fd]
      else
        let deadline := io.now + timeoutMs cfg.handshakeTimeout
        Call.modify fun st =>
          { st with incoming := st.incoming.add ⟨fd, false, deadline, 0, remote, .zero⟩ }

/-! ## REF_INCOMING -/

/-- What the environment decides when an incoming connection is readable: what it
holds and what still arrives, the parts of the handshake calls that are not read
from it, and the clock before and after. -/
structure IncomingIo where
  queued : Queued
  more : Bytes
  serverBegin : ServerBeginIo
  authOk : SendIo
  starts : Nat → StartIo
  now : UInt64
  after : UInt64

/-- A call on the handshake of an incoming connection. -/
def onHandshake {α : Type} (index : Nat) (x : Call Effect CtServerHandshake α) :
    Call Effect ServerState α :=
  Call.zoom (fun st => (st.incoming.conns.getD index .zero).handshake)
    (fun st hs => { st with incoming := { st.incoming with
      conns := st.incoming.conns.modify index fun c => { c with handshake := hs } } }) x

/-- A call on the handshake of an incoming connection and the control channel of
a peer. -/
def onFinish {α : Type} (index i : Nat) (x : Call Effect (CtServerHandshake × CtControl) α) :
    Call Effect ServerState α :=
  Call.zoom (fun st => ((st.incoming.conns.getD index .zero).handshake, (st.peers i).ctl))
    (fun st y => { st with
      incoming := { st.incoming with
        conns := st.incoming.conns.modify index fun c => { c with handshake := y.1 } }
      peers := Function.update st.peers i { st.peers i with ctl := y.2 } }) x

/-- The log line, the metric and the slot of a failed authentication. -/
def authFailed (index slot : Nat) (now : UInt64) : Call Effect ServerState Unit := do
  Call.tell [.inc .authFailuresTotal]
  Call.modify fun st => { st with rates := st.rates.modify slot fun r => authRateFailed r now }
  removeIncoming index true

/-- CLIENT_HELLO. -/
def incomingHello (b : Build) (m : Monocypher) (cfg : CtConfig) (index : Nat) (c : IncomingConn)
    (h : CtFrameHeader) (io : IncomingIo) : Call Effect ServerState Unit := do
  let st ← Call.get
  let (rates, slot) := authRateSlot st.rates c.remote
  Call.modify fun st => { st with rates := rates }
  if io.now < (rates.getD slot .zero).blockedUntil then do
    Call.tell [.inc .authFailuresTotal]
    removeIncoming index true
  else do
    let begun ← Call.attempt (do
      Call.check (h.sessionId = 0 ∧ h.streamId = 0 ∧ h.sequence = 0 ∧ 70 ≤ h.payloadLen.toNat ∧
        h.payloadLen.toNat ≤ 2 + b.maxClientIdLength + 68)
      onHandshake index (ctHandshakeServerBegin b m c.fd cfg
        { io.serverBegin with hello := io.queued.inbox io.more }))
    match begun with
    | none => authFailed index slot io.after
    | some _ =>
        Call.modify fun st => { st with incoming := { st.incoming with
          conns := st.incoming.conns.modify index fun c => { c with waitingForAuth := true } } }

/-- `find_session`. -/
def findSession (b : Build) (peers : Nat → ServerPeer) (sid : UInt64) : Option Nat :=
  (List.range b.maxClients).find? fun i =>
    (peers i).active && (peers i).ctl.keys.sessionId == sid

/-- A work connection that `ct_work_accept_bind` accepted joins the idle ones. -/
def bindWork (b : Build) (m : Monocypher) (fd : Socket) (inbox : Bytes) :
    Call Effect ServerPeer Unit := do
  let w ← onControl (ctWorkAcceptBind b m fd inbox)
  Call.modify fun p => { p with work := p.work ++ [w] }
  Call.tell [.inc .workIdle]

/-- WORK_CONNECTION_BIND. -/
def incomingBind (b : Build) (m : Monocypher) (cfg : CtConfig) (index : Nat) (c : IncomingConn)
    (h : CtFrameHeader) (io : IncomingIo) : Call Effect ServerState Unit := do
  let st ← Call.get
  match findSession b st.peers h.sessionId with
  | none => removeIncoming index true
  | some i => do
      let bound ← Call.attempt (do
        Call.check (h.streamId = 0 ∧ h.sequence = 0 ∧ h.payloadLen.toNat = 64 ∧
          (st.peers i).work.length ≠ b.maxStreams)
        onPeer i (bindWork b m c.fd (io.queued.inbox io.more)))
      match bound with
      | none => do
          if (st.peers i).work.length = b.maxStreams then
            Call.tell [.inc .resourceLimitRejectionsTotal]
          removeIncoming index true
      | some _ => do
          removeIncoming index false
          onPeer i (matchPending b m cfg io.starts)

/-- The first free peer slot. -/
def freeSlot (b : Build) (cfg : CtConfig) (peers : Nat → ServerPeer) : Option Nat :=
  (List.range (min cfg.maxClients b.maxClients)).find? fun i => !(peers i).active

/-- CLIENT_AUTH: the client that `ct_handshake_server_finish` accepts takes the
slot. -/
def incomingAuth (b : Build) (m : Monocypher) (cfg : CtConfig) (index : Nat) (c : IncomingConn)
    (io : IncomingIo) : Call Effect ServerState Unit := do
  let st ← Call.get
  let (rates, slot) := authRateSlot st.rates c.remote
  Call.modify fun st => { st with rates := rates }
  let finished ← Call.attempt (do
    let i ← Call.need (freeSlot b cfg st.peers)
    let auth ← onFinish index i (ctHandshakeServerFinish b m c.fd
      ⟨io.queued.inbox io.more, io.authOk, io.now⟩)
    Call.modify fun st => st.setPeer i { st.peers i with
      auth := some auth, active := true, nextStream := io.after })
  match finished with
  | none => authFailed index slot io.after
  | some _ => do
      Call.modify fun st => { st with rates := st.rates.set slot .zero }
      removeIncoming index false

/-- An incoming connection is readable. -/
def incomingEvent (b : Build) (m : Monocypher) (cfg : CtConfig) (fd : Socket) (io : IncomingIo) :
    Call Effect ServerState Unit := do
  let st ← Call.get
  match findIncoming st.incoming fd with
  | none => return ()
  | some index =>
      let c := st.incoming.conns.getD index .zero
      match ctPlainFrameAvailable b b.controlBufferSize io.queued with
      | .failed => removeIncoming index true
      | .later =>
          Call.modify fun st => { st with incoming := { st.incoming with
            conns := st.incoming.conns.modify index fun c =>
              { c with readRetryAfterMs := io.now + 50 } } }
      | .frame h =>
          if c.waitingForAuth = false ∧ h.type = CtMsgType.clientHello.toByte then
            incomingHello b m cfg index c h io
          else if c.waitingForAuth = false ∧ h.type = CtMsgType.workConnectionBind.toByte then
            incomingBind b m cfg index c h io
          else if c.waitingForAuth = true ∧ h.type = CtMsgType.clientAuth.toByte ∧
              h.sessionId = 0 ∧ h.streamId = 0 ∧ h.sequence = 0 ∧ h.payloadLen.toNat = 64 then
            incomingAuth b m cfg index c io
          else removeIncoming index true

end Ctunnel
