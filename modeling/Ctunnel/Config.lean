import Ctunnel.Types

/-!
# Configuration (`ctunnel.h`, `src/config/config.c`)

The loaded configuration, as far as the modelled code reads it, and the lookups
in the authorized clients. Key files are read when they are needed, so their
contents are inputs of the calls that load them.
-/

namespace Ctunnel

/-- `ct_service_config`. -/
structure CtServiceConfig where
  id : CString
  remoteAddr : CString
  localAddr : CString
  remotePort : UInt16
  localPort : UInt16
  encryption : CtEncMode
  /-- 1 for TCP, 2 for UDP. -/
  type : UInt8
  proxyProtocol : CtProxyProtocolMode
  udpIdleTimeout : Nat
  udpReplyTimeout : Nat
  udpMaxSessions : Nat
  udpMaxDatagramSize : Nat
  deriving DecidableEq

/-- A cleared `ct_service_config`. -/
def CtServiceConfig.zero : CtServiceConfig :=
  ⟨⟨[], CString.noNul_nil⟩, ⟨[], CString.noNul_nil⟩, ⟨[], CString.noNul_nil⟩, 0, 0, .required, 0, .off, 0, 0, 0, 0⟩

/-- `ct_port_range`. -/
structure CtPortRange where
  first : UInt16
  last : UInt16
  deriving DecidableEq

/-- `ct_authorized_client`. -/
structure CtAuthorizedClient where
  id : CString
  allowAddr : CString
  ports : List CtPortRange
  maxServices : Nat
  maxStreams : Nat
  deriving DecidableEq

/-- `ct_config`. -/
structure CtConfig where
  clientId : CString
  bindAddr : CString
  bindPort : UInt16
  cipherMask : UInt32
  preferredCipher : CtCipher
  heartbeatInterval : Nat
  heartbeatTimeout : Nat
  handshakeTimeout : Nat
  connectTimeout : Nat
  poolCount : Nat
  maxClients : Nat
  maxServicesPerClient : Nat
  maxStreamsPerClient : Nat
  maxPendingStreams : Nat
  services : List CtServiceConfig
  clients : List CtAuthorizedClient
  deriving DecidableEq

/-- The tests of `validate` against the compiled limits; `ct_config_load` returns no
configuration that fails one. -/
def limitsValid (b : Build) (cfg : CtConfig) : Bool :=
  decide (cfg.maxClients ≤ b.maxClients) &&
    decide (cfg.maxServicesPerClient ≤ b.maxServices ∧ cfg.maxStreamsPerClient ≤ b.maxStreams ∧
      cfg.maxPendingStreams ≤ b.maxPendingStreams)

/-- `ct_authorized_find`. -/
def ctAuthorizedFind (cfg : CtConfig) (id : CString) : Option CtAuthorizedClient :=
  cfg.clients.find? fun a => a.id == id

/-- `ct_authorized_port`. -/
def ctAuthorizedPort (a : CtAuthorizedClient) (addr : CString) (p : UInt16) : Bool :=
  (a.allowAddr.bytes == [42] || a.allowAddr == addr) &&
    a.ports.any fun r => decide (r.first ≤ p ∧ p ≤ r.last)

end Ctunnel
