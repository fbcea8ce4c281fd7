import Ctunnel.Config
import Ctunnel.Net.Handshake
import Ctunnel.Net.RelayOpen
import Ctunnel.Net.Socket
import Mathlib.Logic.Function.Basic

/-!
# The state of the server (`src/server/server.c`)

A counted array is a list; a table whose free slots are marked in the slot
(`relays`, `udp`, the peers themselves) is a function of the index, which the
code keeps below the size of the table. A pointer into a peer's service table is
the index: a table entry is set once, when the service is registered, and the
table is only cleared as a whole.
-/

namespace Ctunnel

open Lib

/-- `server_service`. -/
structure ServerService where
  cfg : CtServiceConfig
  listenFd : List BoundSocket
  udpFd : List BoundSocket
  deriving DecidableEq

/-- A cleared entry of the service table. -/
def ServerService.zero : ServerService := ⟨.zero, [], []⟩

/-- `pending_conn`. -/
structure PendingConn where
  fd : Socket
  svc : Nat
  metadata : CtStreamMetadata
  deadline : UInt64
  deriving DecidableEq

/-- `server_udp_session`. -/
structure ServerUdpSession where
  active : Bool
  id : UInt64
  txSeq : UInt64
  rxHigh : UInt64
  rxBitmap : UInt64
  lastMs : UInt64
  peer : CtEndpoint
  svc : Nat
  listener : Socket
  deriving DecidableEq

def ServerUdpSession.zero : ServerUdpSession := ⟨false, 0, 0, 0, 0, 0, .zero, 0, 0⟩

/-- `starting_conn`. -/
structure StartingConn where
  pending : PendingConn
  work : CtWork
  streamId : UInt64
  deadline : UInt64
  random : Octets 32
  readRetryAfterMs : UInt64
  deriving DecidableEq

/-- `incoming_conn`. -/
structure IncomingConn where
  fd : Socket
  waitingForAuth : Bool
  deadline : UInt64
  readRetryAfterMs : UInt64
  remote : CString
  handshake : CtServerHandshake
  deriving DecidableEq

def IncomingConn.zero : IncomingConn := ⟨0, false, 0, 0, ⟨[], CString.noNul_nil⟩, .zero⟩

/-- `incoming[]`: the first `incoming_n` entries, and what the slots behind them
still hold. -/
structure IncomingTable where
  conns : List IncomingConn
  stale : List IncomingConn
  deriving DecidableEq

/-- `auth_rate`. -/
structure AuthRate where
  address : CString
  blockedUntil : UInt64
  failures : Nat
  deriving DecidableEq

def AuthRate.zero : AuthRate := ⟨⟨[], CString.noNul_nil⟩, 0, 0⟩

/-- `server_peer`. -/
structure ServerPeer where
  active : Bool
  ctl : CtControl
  auth : Option CtAuthorizedClient
  svc : List ServerService
  work : List CtWork
  pending : List PendingConn
  udp : Nat → ServerUdpSession
  starting : List StartingConn
  relays : Nat → CtRelay
  nextStream : UInt64

/-- A slot as `ct_run_server` and `peer_close` leave it. -/
def ServerPeer.zero : ServerPeer where
  active := false
  ctl := .zero
  auth := none
  svc := []
  work := []
  pending := []
  udp := fun _ => .zero
  starting := []
  relays := fun _ => .unused
  nextStream := 0

/-- The service a pointer into the table points to. -/
def ServerPeer.service (p : ServerPeer) (svc : Nat) : ServerService :=
  p.svc.getD svc .zero

/-- The state of `ct_run_server`; `control` is `control_listeners`. -/
structure ServerState where
  control : List BoundSocket
  incoming : IncomingTable
  rates : List AuthRate
  peers : Nat → ServerPeer

/-- The state when the event loop is entered. -/
def ServerState.start (b : Build) (control : List BoundSocket) : ServerState where
  control := control
  incoming := ⟨[], List.replicate (b.maxClients * 2) .zero⟩
  rates := List.replicate (b.maxClients * 2) .zero
  peers := fun _ => .zero

/-! ## Parts of the state -/

def ServerState.setPeer (st : ServerState) (i : Nat) (p : ServerPeer) : ServerState :=
  { st with peers := Function.update st.peers i p }

@[simp] theorem ServerState.setPeer_self (st : ServerState) (i : Nat) (p : ServerPeer) :
    (st.setPeer i p).peers i = p := by
  simp [ServerState.setPeer]

theorem ServerState.setPeer_other (st : ServerState) {i j : Nat} (p : ServerPeer) (h : j ≠ i) :
    (st.setPeer i p).peers j = st.peers j := by
  simp [ServerState.setPeer, h]

/-- A call on one peer. -/
def onPeer {α : Type} (i : Nat) (x : Call Effect ServerPeer α) : Call Effect ServerState α :=
  Call.zoom (fun st => st.peers i) (fun st p => st.setPeer i p) x

/-- A call on a peer's control channel. -/
def onControl {α : Type} (x : Call Effect CtControl α) : Call Effect ServerPeer α :=
  Call.zoom ServerPeer.ctl (fun p c => { p with ctl := c }) x

/-- The closes of a set of sockets, such as `listen_set_close`. -/
def closeSet (set : List BoundSocket) : List Effect := set.map fun s => .socketClose s.fd

end Ctunnel
