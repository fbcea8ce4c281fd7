import Ctunnel.Config
import Ctunnel.Lib.IniText
import Mathlib.Logic.Function.Basic

/-!
# Keys of the configuration file (`src/config/config.c`)

The configuration as `ct_config_load` fills it, its defaults, and what each key of the
`[common]` section and of a service section does to it. The string, port and integer
keys are families: one rule each, and a table of their members with name, size or
range, and default.
-/

namespace Ctunnel

open Lib

/-! ## Build and host -/

/-- The build-time configuration, with what only the loader reads. -/
structure LoaderBuild extends Build where
  /-- `CONFIG_CTUNNEL_SERVER`. -/
  server : Bool
  /-- `CONFIG_CTUNNEL_CLIENT`. -/
  client : Bool
  /-- `CONFIG_FEATURE_WORK_POOL`. -/
  workPool : Bool
  /-- `CONFIG_FEATURE_ENV_OVERRIDE`. -/
  envOverride : Bool
  maxPathLength : Nat
  maxPortRanges : Nat
  defaultPoolCount : Nat
  defaultMaxStreams : Nat
  defaultMaxPendingStreams : Nat
  /-- `CT_COMPILED_LOG_MAX`. -/
  logMaxLevel : Nat
  maxPathLength_range : 64 ≤ maxPathLength ∧ maxPathLength ≤ 2048
  maxPortRanges_range : 1 ≤ maxPortRanges ∧ maxPortRanges ≤ 128
  defaultPoolCount_range : defaultPoolCount ≤ 64
  defaultMaxStreams_range : 1 ≤ defaultMaxStreams ∧ defaultMaxStreams ≤ maxStreams
  defaultMaxPendingStreams_range :
    1 ≤ defaultMaxPendingStreams ∧ defaultMaxPendingStreams ≤ maxPendingStreams
  logMaxLevel_range : logMaxLevel ≤ 4

/-- `configs/default_defconfig`. -/
def defaultLoaderBuild : LoaderBuild where
  toBuild := defaultBuild
  server := true
  client := true
  workPool := true
  envOverride := false
  maxPathLength := 512
  maxPortRanges := 32
  defaultPoolCount := 16
  defaultMaxStreams := 256
  defaultMaxPendingStreams := 256
  logMaxLevel := 2
  maxPathLength_range := by decide
  maxPortRanges_range := by decide
  defaultPoolCount_range := by decide
  defaultMaxStreams_range := by decide
  defaultMaxPendingStreams_range := by decide
  logMaxLevel_range := by decide

/-- The C library, and for which texts `inet_pton` returns 1. -/
structure HostLibrary extends CLibrary where
  inetPton4 : CString → Bool
  inetPton6 : CString → Bool

/-! ## The configuration -/

inductive CtMode
  | none
  | server
  | client
  deriving DecidableEq

/-- The `STR` keys. -/
inductive StrKey
  | bindAddr
  | serverAddr
  | clientId
  | identityPrivateKey
  | serverPublicKey
  | authorizedClientsFile
  | logFile
  deriving DecidableEq

inductive PortKey
  | bindPort
  | serverPort
  deriving DecidableEq

/-- The `INT` keys. -/
inductive IntKey
  | heartbeatInterval
  | heartbeatTimeout
  | handshakeTimeout
  | connectTimeout
  | reconnectInitialDelay
  | reconnectMaxDelay
  | reconnectJitterPercent
  | poolCount
  | maxClients
  | maxServicesPerClient
  | maxStreamsPerClient
  | maxPendingStreams
  | logRotateDays
  | logMaxSizeKib
  deriving DecidableEq

/-- `ct_service_config`, with `udp_options_seen`. -/
structure LoadedService extends CtServiceConfig where
  udpOptionsSeen : Bool
  deriving DecidableEq

/-- `ct_authorized_client`, with the path of its key. -/
structure LoadedClient extends CtAuthorizedClient where
  publicKey : CString
  deriving DecidableEq

/-- `ct_config`; the fields of the `STR`, `INT` and port keys by their keys. -/
structure LoadedConfig where
  mode : CtMode
  configPath : CString
  str : StrKey → CString
  port : PortKey → UInt16
  cipherMask : UInt32
  preferredCipher : CtCipher
  int : IntKey → Int
  defaultDataEncryption : CtEncMode
  logLevel : Nat
  services : List LoadedService
  clients : List LoadedClient

def CString.empty : CString := ⟨[], CString.noNul_nil⟩

/-- A text of the source. -/
def CString.lit (s : String) : CString := CString.ofBytes (ascii s)

/-- The name of a key in the file. -/
def StrKey.name : StrKey → String
  | .bindAddr => "bind_addr"
  | .serverAddr => "server_addr"
  | .clientId => "client_id"
  | .identityPrivateKey => "identity_private_key"
  | .serverPublicKey => "server_public_key"
  | .authorizedClientsFile => "authorized_clients_file"
  | .logFile => "log_file"

/-- `sizeof c->field`. -/
def StrKey.size (b : LoaderBuild) : StrKey → Nat
  | .bindAddr | .serverAddr => b.maxAddressLength + 1
  | .clientId => b.maxClientIdLength + 1
  | .identityPrivateKey | .serverPublicKey | .authorizedClientsFile | .logFile => b.maxPathLength

def PortKey.name : PortKey → String
  | .bindPort => "bind_port"
  | .serverPort => "server_port"

def IntKey.name : IntKey → String
  | .heartbeatInterval => "heartbeat_interval"
  | .heartbeatTimeout => "heartbeat_timeout"
  | .handshakeTimeout => "handshake_timeout"
  | .connectTimeout => "connect_timeout"
  | .reconnectInitialDelay => "reconnect_initial_delay"
  | .reconnectMaxDelay => "reconnect_max_delay"
  | .reconnectJitterPercent => "reconnect_jitter_percent"
  | .poolCount => "pool_count"
  | .maxClients => "max_clients"
  | .maxServicesPerClient => "max_services_per_client"
  | .maxStreamsPerClient => "max_streams_per_client"
  | .maxPendingStreams => "max_pending_streams"
  | .logRotateDays => "log_rotate_days"
  | .logMaxSizeKib => "log_max_size_kib"

/-- `lo` and `hi`. -/
def IntKey.range (b : LoaderBuild) : IntKey → Int × Int
  | .heartbeatInterval => (1, 3600)
  | .heartbeatTimeout => (2, 7200)
  | .handshakeTimeout => (1, 120)
  | .connectTimeout => (1, 120)
  | .reconnectInitialDelay => (1, 3600)
  | .reconnectMaxDelay => (1, 86400)
  | .reconnectJitterPercent => (0, 90)
  | .poolCount => (0, b.maxStreams)
  | .maxClients => (1, b.maxClients)
  | .maxServicesPerClient => (1, b.maxServices)
  | .maxStreamsPerClient => (1, b.maxStreams)
  | .maxPendingStreams => (1, b.maxPendingStreams)
  | .logRotateDays => (0, 3650)
  | .logMaxSizeKib => (64, 1048576)

def IntKey.initial (b : LoaderBuild) : IntKey → Int
  | .heartbeatInterval => 20
  | .heartbeatTimeout => 60
  | .handshakeTimeout => 10
  | .connectTimeout => 5
  | .reconnectInitialDelay => 1
  | .reconnectMaxDelay => 30
  | .reconnectJitterPercent => 20
  | .poolCount => b.defaultPoolCount
  | .maxClients => b.maxClients
  | .maxServicesPerClient => b.maxServices
  | .maxStreamsPerClient => b.defaultMaxStreams
  | .maxPendingStreams => b.defaultMaxPendingStreams
  | .logRotateDays => 7
  | .logMaxSizeKib => 1024

/-- The address that stands for every address of the first family of the build. -/
def wildcardAddr (b : Build) : CString := if b.ipv6 then .lit "::" else .lit "0.0.0.0"

/-- The default of `default_data_encryption`. -/
def compiledEncryption (b : Build) : CtEncMode := if b.dataEncryption then .required else .disabled

/-- `defaults`. -/
def defaults (b : LoaderBuild) : LoadedConfig where
  mode := .none
  configPath := .empty
  str := fun k => match k with
    | .bindAddr => wildcardAddr b.toBuild
    | _ => .empty
  port := fun _ => 7000
  cipherMask := 2
  preferredCipher := .chacha
  int := IntKey.initial b
  defaultDataEncryption := compiledEncryption b.toBuild
  logLevel := b.logMaxLevel
  services := []
  clients := []

/-! ## Values -/

/-- What `set_common` and `set_service` return when they fail: 1, -1 and -2. -/
inductive SetError
  | unknown
  | invalid
  | unavailable
  deriving DecidableEq

/-- A value that could not be read is invalid. -/
def orInvalid {α : Type} : Option α → Except SetError α
  | some a => .ok a
  | none => .error .invalid

/-- `cp` into `n` bytes. -/
def cp (n : Nat) (s : Bytes) : Option CString := if s.length ≥ n then none else some (.ofBytes s)

/-- `integer`. -/
def integer (lib : CLibrary) (s : Bytes) (range : Int × Int) : Option Int :=
  let r := strtol lib s
  if r.errno = true ∨ r.rest ≠ [] ∨ r.value < range.1 ∨ r.value > range.2 then none else some r.value

/-- `port`. -/
def port (lib : CLibrary) (s : Bytes) : Option UInt16 :=
  (integer lib s (1, 65535)).map fun v => UInt16.ofNat v.toNat

/-- `address_family_unavailable`. -/
def addressFamilyUnavailable (b : Build) (lib : HostLibrary) (address : CString) : Option Nat :=
  if address = .empty ∨ address = .lit "*" then none
  else if b.ipv4 = false ∧ lib.inetPton4 address = true then some 4
  else if b.ipv6 = false ∧ lib.inetPton6 address = true then some 6
  else none

/-- `enc`. -/
def enc (b : Build) (s : Bytes) : Except SetError CtEncMode :=
  if s ∈ [ascii "true", ascii "yes", ascii "on", ascii "enabled", ascii "required"] then
    if b.dataEncryption then .ok .required else .error .unavailable
  else if s ∈ [ascii "false", ascii "no", ascii "off", ascii "disabled"] then .ok .disabled
  else .error .invalid

/-- What `key_seen` returns: 0 with the key added, 1 or -1. -/
inductive KeySeen
  | fresh (seen : List Bytes)
  | duplicate
  | tooMany
  deriving DecidableEq

/-- `key_seen`, with room for `capacity` keys of 31 bytes. -/
def keySeen (seen : List Bytes) (capacity : Nat) (key : Bytes) : KeySeen :=
  if key ∈ seen then .duplicate
  else if seen.length = capacity ∨ key.length ≥ 32 then .tooMany
  else .fresh (seen ++ [key])

/-- The tokens between the commas of a text; `token` is the one under way. -/
def commaTokens : (token s : Bytes) → List Bytes
  | token, [] => [token]
  | token, c :: s => if c = 44 then token :: commaTokens [] s else commaTokens (token ++ [c]) s

/-- `ciphers`: a mask with the bit of the only cipher. -/
def ciphers (s : Bytes) : Option UInt32 :=
  if s.length ≥ 128 then none
  else if ∀ token ∈ commaTokens [] s, trim token = ascii "xchacha20-poly1305" then some 2
  else none

/-- `ct_log_parse_level`. -/
def ctLogParseLevel (b : LoaderBuild) (s : Bytes) : Option Nat :=
  (List.range (b.logMaxLevel + 1)).find? fun i =>
    [ascii "error", ascii "warn", ascii "info", ascii "debug", ascii "trace"][i]? == some s

/-! ## `set_common` -/

/-- The keys of the `[common]` section. -/
inductive CommonKey
  | str (k : StrKey)
  | mode
  | port (k : PortKey)
  | allowedCiphers
  | preferredCipher
  | defaultDataEncryption
  | logLevel
  | int (k : IntKey)
  | controlEncryption
  | authMode
  deriving DecidableEq

def CommonKey.name : CommonKey → String
  | .str k => k.name
  | .mode => "mode"
  | .port k => k.name
  | .allowedCiphers => "allowed_ciphers"
  | .preferredCipher => "preferred_cipher"
  | .defaultDataEncryption => "default_data_encryption"
  | .logLevel => "log_level"
  | .int k => k.name
  | .controlEncryption => "control_encryption"
  | .authMode => "auth_mode"

/-- The keys in the order `set_common` compares them. -/
def commonKeys : List CommonKey :=
  [.str .bindAddr, .str .serverAddr, .str .clientId, .str .identityPrivateKey,
    .str .serverPublicKey, .str .authorizedClientsFile, .str .logFile, .mode, .port .bindPort,
    .port .serverPort, .allowedCiphers, .preferredCipher, .defaultDataEncryption, .logLevel,
    .int .heartbeatInterval, .int .heartbeatTimeout, .int .handshakeTimeout, .int .connectTimeout,
    .int .reconnectInitialDelay, .int .reconnectMaxDelay, .int .reconnectJitterPercent,
    .int .poolCount, .int .maxClients, .int .maxServicesPerClient, .int .maxStreamsPerClient,
    .int .maxPendingStreams, .int .logRotateDays, .int .logMaxSizeKib, .controlEncryption,
    .authMode]

def commonKey (k : Bytes) : Option CommonKey := commonKeys.find? fun key => ascii key.name == k

/-- What a line of the `[common]` section stores. -/
inductive CommonUpdate
  | str (k : StrKey) (s : CString)
  | mode (m : CtMode)
  | port (k : PortKey) (p : UInt16)
  | cipherMask (mask : UInt32)
  | preferredCipher (cipher : CtCipher)
  | defaultDataEncryption (e : CtEncMode)
  | logLevel (level : Nat)
  | int (k : IntKey) (v : Int)
  /-- The keys that have one admitted value only. -/
  | nothing
  deriving DecidableEq

def CommonUpdate.apply (c : LoadedConfig) : CommonUpdate → LoadedConfig
  | .str k s => { c with str := Function.update c.str k s }
  | .mode m => { c with mode := m }
  | .port k p => { c with port := Function.update c.port k p }
  | .cipherMask mask => { c with cipherMask := mask }
  | .preferredCipher cipher => { c with preferredCipher := cipher }
  | .defaultDataEncryption e => { c with defaultDataEncryption := e }
  | .logLevel level => { c with logLevel := level }
  | .int k v => { c with int := Function.update c.int k v }
  | .nothing => c

/-- The value of a key that has to be this text. -/
def onlyValue (v : Bytes) (text : String) : Except SetError CommonUpdate :=
  if v = ascii text then .ok .nothing else .error .invalid

/-- The line `key = v`. -/
def commonUpdate (b : LoaderBuild) (lib : CLibrary) (v : Bytes) :
    CommonKey → Except SetError CommonUpdate
  | .str k => (orInvalid (cp (k.size b) v)).map (.str k)
  | .mode =>
      if v = ascii "server" then if b.server then .ok (.mode .server) else .error .unavailable
      else if v = ascii "client" then if b.client then .ok (.mode .client) else .error .unavailable
      else .error .invalid
  | .port k => (orInvalid (port lib v)).map (.port k)
  | .allowedCiphers => (orInvalid (ciphers v)).map .cipherMask
  | .preferredCipher =>
      if v = ascii "xchacha20-poly1305" then .ok (.preferredCipher .chacha) else .error .invalid
  | .defaultDataEncryption => (enc b.toBuild v).map .defaultDataEncryption
  | .logLevel => (orInvalid (ctLogParseLevel b v)).map .logLevel
  | .int k =>
      if k = .poolCount ∧ b.workPool = false then
        if v = ascii "0" then .ok .nothing else .error .unavailable
      else (orInvalid (integer lib v (k.range b))).map (.int k)
  | .controlEncryption => onlyValue v "required"
  | .authMode => onlyValue v "public-key"

/-- `set_common`. -/
def setCommon (b : LoaderBuild) (lib : CLibrary) (k v : Bytes) (c : LoadedConfig) :
    Except SetError LoadedConfig :=
  match commonKey k with
  | none => .error .unknown
  | some key => (commonUpdate b lib v key).map (CommonUpdate.apply c)

/-! ## `set_service` -/

inductive UdpKey
  | idleTimeout
  | replyTimeout
  | maxSessions
  | maxDatagramSize
  deriving DecidableEq

/-- The keys of a service section. -/
inductive ServiceKey
  | type
  | remoteAddr
  | localAddr
  | remotePort
  | localPort
  | dataEncryption
  | proxyProtocol
  | proxyProtocolTlv
  | udp (k : UdpKey)
  deriving DecidableEq

def UdpKey.name : UdpKey → String
  | .idleTimeout => "udp_idle_timeout"
  | .replyTimeout => "udp_reply_timeout"
  | .maxSessions => "udp_max_sessions"
  | .maxDatagramSize => "udp_max_datagram_size"

def UdpKey.range (b : Build) : UdpKey → Int × Int
  | .idleTimeout => (1, 86400)
  | .replyTimeout => (1, 86400)
  | .maxSessions => (1, b.maxUdpSessions)
  | .maxDatagramSize => (512, b.maxUdpDatagramSize)

def UdpKey.store (v : Nat) (s : CtServiceConfig) : UdpKey → CtServiceConfig
  | .idleTimeout => { s with udpIdleTimeout := v }
  | .replyTimeout => { s with udpReplyTimeout := v }
  | .maxSessions => { s with udpMaxSessions := v }
  | .maxDatagramSize => { s with udpMaxDatagramSize := v }

def UdpKey.field (s : CtServiceConfig) : UdpKey → Nat
  | .idleTimeout => s.udpIdleTimeout
  | .replyTimeout => s.udpReplyTimeout
  | .maxSessions => s.udpMaxSessions
  | .maxDatagramSize => s.udpMaxDatagramSize

def ServiceKey.name : ServiceKey → String
  | .type => "type"
  | .remoteAddr => "remote_addr"
  | .localAddr => "local_addr"
  | .remotePort => "remote_port"
  | .localPort => "local_port"
  | .dataEncryption => "data_encryption"
  | .proxyProtocol => "proxy_protocol"
  | .proxyProtocolTlv => "proxy_protocol_tlv"
  | .udp k => k.name

/-- The keys `set_service` compares; those of the PROXY protocol only where it is compiled
in. -/
def serviceKeys (b : Build) : List ServiceKey :=
  [.type, .remoteAddr, .localAddr, .remotePort, .localPort, .dataEncryption] ++
    (if b.proxyProtocol then [.proxyProtocol, .proxyProtocolTlv] else []) ++
    [.udp .idleTimeout, .udp .replyTimeout, .udp .maxSessions, .udp .maxDatagramSize]

def serviceKey (b : Build) (k : Bytes) : Option ServiceKey :=
  (serviceKeys b).find? fun key => ascii key.name == k

def serviceType (b : Build) (v : Bytes) : Except SetError UInt8 :=
  if v = ascii "tcp" then .ok 1
  else if v = ascii "udp" then if b.udp then .ok 2 else .error .unavailable
  else if v = ascii "http" then .ok 3
  else if v = ascii "https" then .ok 4
  else .error .invalid

def proxyMode (b : Build) (v : Bytes) : Except SetError CtProxyProtocolMode :=
  if v = ascii "off" then .ok .off
  else if v = ascii "v1" then if b.proxyProtocolV1 then .ok .v1 else .error .unavailable
  else if v = ascii "v2" then if b.proxyProtocolV2 then .ok .v2 else .error .unavailable
  else .error .invalid

/-- The line `key = v` of a service section. -/
def serviceUpdate (b : Build) (lib : CLibrary) (v : Bytes) (s : LoadedService) :
    ServiceKey → Except SetError LoadedService
  | .type => (serviceType b v).map fun t => { s with type := t }
  | .remoteAddr => (orInvalid (cp (b.maxAddressLength + 1) v)).map fun a => { s with remoteAddr := a }
  | .localAddr => (orInvalid (cp (b.maxAddressLength + 1) v)).map fun a => { s with localAddr := a }
  | .remotePort => (orInvalid (port lib v)).map fun p => { s with remotePort := p }
  | .localPort => (orInvalid (port lib v)).map fun p => { s with localPort := p }
  | .dataEncryption => (enc b v).map fun e => { s with encryption := e }
  | .proxyProtocol => (proxyMode b v).map fun m => { s with proxyProtocol := m }
  | .proxyProtocolTlv => if v = ascii "off" then .ok s else .error .invalid
  | .udp k =>
      if b.udp then (orInvalid (integer lib v (k.range b))).map fun n =>
        ⟨k.store n.toNat s.toCtServiceConfig, true⟩
      else .error .unavailable

/-- `set_service`. -/
def setService (b : Build) (lib : CLibrary) (k v : Bytes) (s : LoadedService) :
    Except SetError LoadedService :=
  match serviceKey b k with
  | none => .error .unknown
  | some key => serviceUpdate b lib v s key

/-- A service whose header has been read. -/
def newService (b : Build) (id : Bytes) (encryption : CtEncMode) : LoadedService where
  id := .ofBytes id
  remoteAddr := wildcardAddr b
  localAddr := if b.ipv4 then .lit "127.0.0.1" else .lit "::1"
  remotePort := 0
  localPort := 0
  encryption := encryption
  type := 0
  proxyProtocol := .off
  udpIdleTimeout := if b.udp then 60 else 0
  udpReplyTimeout := if b.udp then 5 else 0
  udpMaxSessions := if b.udp then b.maxUdpSessions else 0
  udpMaxDatagramSize := if b.udp then b.maxUdpDatagramSize else 0
  udpOptionsSeen := false

end Ctunnel
