import Ctunnel.Server.State

/-!
# Registering a service (`src/server/server.c`)

`register_service` with every reason it refuses for, and the listener conflict
test over the control listeners and the listeners of all active peers.
-/

namespace Ctunnel

open Lib

/-- `listen_set_open`. -/
def listenSetOpen {σ : Type} (b : Build) (addr : CString) (io : BindIo) :
    Call Effect σ (List BoundSocket) :=
  bindSetOpen b ctNetListen addr io

/-- `udp_set_open`. -/
def udpSetOpen {σ : Type} (b : Build) (addr : CString) (io : BindIo) :
    Call Effect σ (List BoundSocket) :=
  bindSetOpen b ctUdpBind addr io

/-- The listeners of the services of active peers. -/
def activeListeners (b : Build) (peers : Nat → ServerPeer) : List BoundSocket :=
  (List.range b.maxClients).flatMap fun i =>
    if (peers i).active then (peers i).svc.flatMap ServerService.listenFd else []

/-- `listen_set_overlaps_existing`. -/
def listenSetOverlapsExisting (b : Build) (set control : List BoundSocket)
    (peers : Nat → ServerPeer) : Bool :=
  set.any fun s => (control ++ activeListeners b peers).any (ctNetBoundEndpointsOverlap b s)

/-- `find_service`. -/
def findService (p : ServerPeer) (id : CString) : Option ServerService :=
  p.svc.find? fun s => s.cfg.id == id

/-! ## Refusals -/

/-- The reasons of CT_MSG_REGISTER_FAILED. -/
inductive RegisterRefusal
  | unsupportedServiceType
  | invalidEncryption
  | unsupportedServiceOption
  | invalidUdpLimit
  | dataEncryptionUnavailable
  | duplicateService
  | serviceLimit
  | notAuthorized
  | bindFailed
  | listenerConflict
  deriving DecidableEq, Repr

/-- `why`. -/
def RegisterRefusal.why : RegisterRefusal → Bytes
  | .unsupportedServiceType => ascii "UNSUPPORTED_SERVICE_TYPE"
  | .invalidEncryption => ascii "INVALID_ENCRYPTION"
  | .unsupportedServiceOption => ascii "UNSUPPORTED_SERVICE_OPTION"
  | .invalidUdpLimit => ascii "INVALID_UDP_LIMIT"
  | .dataEncryptionUnavailable => ascii "DATA_ENCRYPTION_UNAVAILABLE"
  | .duplicateService => ascii "DUPLICATE_SERVICE"
  | .serviceLimit => ascii "SERVICE_LIMIT"
  | .notAuthorized => ascii "NOT_AUTHORIZED"
  | .bindFailed => ascii "BIND_FAILED"
  | .listenerConflict => ascii "LISTENER_CONFLICT"

/-- A UDP limit of the request, or its default. -/
def udpLimit (b : Build) (requested : UInt32) (default : Nat) : Nat :=
  if !b.udp then 0 else if requested = 0 then default else requested.toNat

/-- The `ct_service_config` of a request whose bytes are enumerators. -/
def RegisterRequest.config (b : Build) (r : RegisterRequest) : Option CtServiceConfig := do
  let encryption ← CtEncMode.ofByte r.mode
  let proxyProtocol ← CtProxyProtocolMode.ofByte r.proxyProtocol
  return {
    id := CString.ofBytes r.serviceId
    remoteAddr := CString.ofBytes r.remoteAddress
    localAddr := ⟨[], CString.noNul_nil⟩
    remotePort := r.remotePort
    localPort := 0
    encryption := encryption
    type := r.type
    proxyProtocol := proxyProtocol
    udpIdleTimeout := udpLimit b r.udpIdleTimeout 60
    udpReplyTimeout := udpLimit b r.udpReplyTimeout 5
    udpMaxSessions := udpLimit b r.udpMaxSessions b.maxUdpSessions
    udpMaxDatagramSize := udpLimit b r.udpMaxDatagramSize b.maxUdpDatagramSize }

theorem RegisterRequest.config_some {b : Build} {r : RegisterRequest} {s : CtServiceConfig}
    (h : r.config b = some s) :
    s.type = r.type ∧ CtProxyProtocolMode.ofByte r.proxyProtocol = some s.proxyProtocol := by
  simp only [RegisterRequest.config, Option.bind_eq_bind, Option.bind_eq_some_iff] at h
  obtain ⟨mode, -, proxy, hproxy, hs⟩ := h
  obtain rfl := Option.some.inj hs
  exact ⟨rfl, hproxy⟩

/-- The proxy modes compiled in. -/
def proxySupported (b : Build) (v : UInt8) : Bool :=
  v == CtProxyProtocolMode.off.toByte ||
    (b.proxyProtocolV1 && v == CtProxyProtocolMode.v1.toByte) ||
    (b.proxyProtocolV2 && v == CtProxyProtocolMode.v2.toByte)

/-- The UDP limits of a configuration are in range. -/
def udpLimitsValid (b : Build) (s : CtServiceConfig) : Bool :=
  decide (1 ≤ s.udpIdleTimeout ∧ s.udpIdleTimeout ≤ 86400 ∧ 1 ≤ s.udpReplyTimeout ∧
    s.udpReplyTimeout ≤ 86400 ∧ 1 ≤ s.udpMaxSessions ∧ s.udpMaxSessions ≤ b.maxUdpSessions ∧
    512 ≤ s.udpMaxDatagramSize ∧ s.udpMaxDatagramSize ≤ b.maxUdpDatagramSize)

/-- The checks on the bytes of a request, before it is a configuration. -/
def requestRefusal (b : Build) (r : RegisterRequest) : Option RegisterRefusal :=
  if r.type ≠ 1 ∧ ¬(b.udp = true ∧ r.type = 2) then some .unsupportedServiceType
  else if CtEncMode.ofByte r.mode = none then some .invalidEncryption
  else if proxySupported b r.proxyProtocol = false then some .unsupportedServiceOption
  else if r.type ≠ 1 ∧ r.proxyProtocol ≠ CtProxyProtocolMode.off.toByte then
    some .unsupportedServiceOption
  else none

/-- The checks on the configuration. -/
def configRefusal (b : Build) (p : ServerPeer) (s : CtServiceConfig) : Option RegisterRefusal :=
  if s.type = 2 ∧ udpLimitsValid b s = false then some .invalidUdpLimit
  else if b.dataEncryption = false ∧ s.encryption = .required then some .dataEncryptionUnavailable
  else if (findService p s.id).isSome then some .duplicateService
  else none

/-- The checks that read the authorization record. -/
def authRefusal (cfg : CtConfig) (auth : CtAuthorizedClient) (p : ServerPeer)
    (s : CtServiceConfig) : Option RegisterRefusal :=
  if p.svc.length ≥ auth.maxServices ∨ p.svc.length ≥ cfg.maxServicesPerClient then
    some .serviceLimit
  else if ctAuthorizedPort auth s.remoteAddr s.remotePort = false then some .notAuthorized
  else none

/-! ## Opening and answering -/

/-- The sockets of a service that passed the checks, or why there are none; a
conflicting set is closed again. -/
def openService (b : Build) (control : List BoundSocket) (peers : Nat → ServerPeer)
    (s : CtServiceConfig) (io : BindIo) :
    Call Effect ServerPeer (Except RegisterRefusal ServerService) := do
  if s.type = 1 then do
    let listeners ← Call.attempt (listenSetOpen b s.remoteAddr io)
    match listeners with
    | none => return .error .bindFailed
    | some set =>
        if listenSetOverlapsExisting b set control peers then do
          Call.tell (closeSet set)
          return .error .listenerConflict
        else return .ok ⟨s, set, []⟩
  else do
    let sockets ← Call.attempt (udpSetOpen b s.remoteAddr io)
    match sockets with
    | none => return .error .bindFailed
    | some set => return .ok ⟨s, [], set⟩

/-- `register_service` up to `ok` and `why`. A slot that is not active has no
authorization record; the source reads through a null pointer there, and the
call ends. -/
def registerChecks (b : Build) (cfg : CtConfig) (control : List BoundSocket)
    (peers : Nat → ServerPeer) (r : RegisterRequest) (io : BindIo) :
    Call Effect ServerPeer (Except RegisterRefusal ServerService) := do
  match requestRefusal b r with
  | some why => return .error why
  | none => do
      let s ← Call.need (r.config b)
      let p ← Call.get
      match configRefusal b p s with
      | some why => return .error why
      | none => do
          let auth ← Call.need p.auth
          match authRefusal cfg auth p s with
          | some why => return .error why
          | none => openService b control peers s io

/-- The reply that names a service. -/
def registerReply (b : Build) (id : CString) : Bytes :=
  (ctPackString b.controlBufferSize [] id b.maxServiceIdLength).getD []

/-- The reply that names a service and says why it is refused. -/
def refusalReply (b : Build) (id : CString) (why : RegisterRefusal) : Bytes :=
  (ctPackString b.controlBufferSize (registerReply b id) (CString.ofBytes why.why) 80).getD
    (registerReply b id)

/-- What the environment decides in `register_service`. -/
structure RegisterIo where
  bind : BindIo
  send : SendIo
  deriving DecidableEq

/-- `register_service`. -/
def registerService (b : Build) (m : Monocypher) (cfg : CtConfig) (control : List BoundSocket)
    (peers : Nat → ServerPeer) (payload : Bytes) (io : RegisterIo) :
    Call Effect ServerPeer Unit := do
  let r ← Call.need (ctRegisterRequestDecode payload (b.maxServiceIdLength + 1)
    (b.maxAddressLength + 1))
  let id := CString.ofBytes r.serviceId
  let result ← registerChecks b cfg control peers r io.bind
  match result with
  | .ok service => do
      Call.modify fun p => { p with svc := p.svc ++ [service] }
      onControl (ctControlSend b m CtMsgType.registerOk.toByte 0 (registerReply b id) io.send)
  | .error why =>
      onControl (ctControlSend b m CtMsgType.registerFailed.toByte 0 (refusalReply b id why)
        io.send)

end Ctunnel
