import Ctunnel.Config.Keys

/-!
# Loading the configuration (`src/config/config.c`)

`ct_config_load` reads the file line by line, refuses a key that is set twice, and
checks the result: `ct_config_validate`. `ct_authorized_load` reads the clients of a
server in the same way. An error carries what its message prints.
-/

namespace Ctunnel

open Lib

/-! ## Errors -/

/-- What is wrong with a line. -/
inductive LineError
  | tooLong
  | invalidSection
  | sectionTooLong
  | tooManyServices
  | expectedKeyValue
  | duplicateKey (k : Bytes)
  | tooManyKeys (k : Bytes)
  | badValue (e : SetError) (k v : Bytes)
  deriving DecidableEq

/-- What `ct_config_validate` finds. -/
inductive ValidateError
  | modeRequired
  | serverNotCompiled
  | clientNotCompiled
  | identityRequired
  | preferredCipherNotAllowed
  | familyNotCompiled (family : Nat)
  | heartbeatTimeout
  | maxClients
  | resourceLimit
  | workPoolNotCompiled
  | dataEncryptionNotCompiled
  | authorizedClientsRequired
  | servicesInServer
  | clientFieldsRequired
  | serviceFamily (id : CString) (family : Nat)
  | serviceType (id : CString)
  | serviceProxyProtocol (id : CString)
  | serviceUdpNotCompiled (id : CString)
  | serviceUdpOption (id : CString)
  | serviceEncryption (id : CString)
  | servicePorts (id : CString)
  | duplicateService (id : CString)
  deriving DecidableEq

/-- Why `ct_config_load` fails on a file it could open. -/
inductive ConfigError
  | line (ln : Nat) (e : LineError)
  | logLevelUnavailable
  | poolCountLimit
  | logPathTooLong
  | invalid (e : ValidateError)
  deriving DecidableEq

/-- The decimal digits of `%u`. -/
def decimalText (n : Nat) : Bytes := (Nat.repr n).toList.map fun c => UInt8.ofNat c.toNat

/-- `err`, before it is cut to its buffer. -/
def LineError.message (ln : Nat) : LineError → Bytes
  | .tooLong => ascii "line " ++ decimalText ln ++ ascii " too long"
  | .invalidSection => ascii "line " ++ decimalText ln ++ ascii ": invalid section"
  | .sectionTooLong => ascii "line " ++ decimalText ln ++ ascii ": section too long"
  | .tooManyServices => ascii "too many services"
  | .expectedKeyValue => ascii "line " ++ decimalText ln ++ ascii ": expected key=value"
  | .duplicateKey k => ascii "line " ++ decimalText ln ++ ascii ": duplicate key " ++ k
  | .tooManyKeys k => ascii "line " ++ decimalText ln ++ ascii ": too many key " ++ k
  | .badValue e k v =>
      ascii "line " ++ decimalText ln ++ ascii ": " ++
        (match e with
          | .unknown => ascii "unknown key"
          | .unavailable => ascii "feature unavailable for"
          | .invalid => ascii "invalid value for") ++ ascii " " ++ k ++ ascii " '" ++ v ++ ascii "'"

/-- The message of a service. -/
def serviceMessage (id : CString) (text : Bytes) : Bytes :=
  ascii "service " ++ id.bytes ++ ascii ": " ++ text

def ValidateError.message (b : LoaderBuild) : ValidateError → Bytes
  | .modeRequired => ascii "common.mode is required"
  | .serverNotCompiled => ascii "server role is not compiled into this binary"
  | .clientNotCompiled => ascii "client role is not compiled into this binary"
  | .identityRequired => ascii "identity_private_key is required"
  | .preferredCipherNotAllowed => ascii "preferred_cipher is not allowed"
  | .familyNotCompiled family =>
      ascii "IPv" ++ decimalText family ++ ascii " address used but IPv" ++ decimalText family ++
        ascii " is not compiled in"
  | .heartbeatTimeout => ascii "heartbeat_timeout must exceed interval"
  | .maxClients => ascii "max_clients exceeds compiled limit " ++ decimalText b.maxClients
  | .resourceLimit => ascii "runtime resource limit exceeds a compiled hard limit"
  | .workPoolNotCompiled => ascii "work pool is not compiled into this binary"
  | .dataEncryptionNotCompiled => ascii "relay data encryption is not compiled into this binary"
  | .authorizedClientsRequired => ascii "authorized_clients_file is required"
  | .servicesInServer => ascii "server config cannot contain service sections"
  | .clientFieldsRequired =>
      ascii "client server_addr, client_id and server_public_key are required"
  | .serviceFamily id family =>
      serviceMessage id (ascii "IPv" ++ decimalText family ++ ascii " is not compiled in")
  | .serviceType id => serviceMessage id (ascii "unsupported service type")
  | .serviceProxyProtocol id =>
      serviceMessage id (ascii "PROXY Protocol is only supported for TCP")
  | .serviceUdpNotCompiled id => serviceMessage id (ascii "UDP is not compiled into this binary")
  | .serviceUdpOption id => serviceMessage id (ascii "UDP-only option used with TCP service")
  | .serviceEncryption id =>
      serviceMessage id (ascii "data encryption is unavailable in this build")
  | .servicePorts id => serviceMessage id (ascii "ports are required")
  | .duplicateService id => ascii "duplicate service " ++ id.bytes

def ConfigError.message (b : LoaderBuild) : ConfigError → Bytes
  | .line ln e => e.message ln
  | .logLevelUnavailable => ascii "CTUNNEL_LOG_LEVEL is unavailable in this build"
  | .poolCountLimit => ascii "CTUNNEL_POOL_COUNT exceeds the compiled limit"
  | .logPathTooLong => ascii "default log file path is too long"
  | .invalid e => e.message b

/-! ## The lines of the file -/

/-- The variables of the loop of `ct_config_load`; `svc` says whether the pointer is set,
and then it points to the last service. -/
structure LoadState where
  config : LoadedConfig
  sectionName : Bytes
  svc : Bool
  commonSeen : List Bytes
  sectionSeen : List Bytes

def LoadState.start (b : LoaderBuild) (path : CString) : LoadState where
  config := { defaults b with configPath := (cp b.maxPathLength path.bytes).getD .empty }
  sectionName := []
  svc := false
  commonSeen := []
  sectionSeen := []

/-- A section header. -/
def configEnter (b : LoaderBuild) (name : Bytes) (st : LoadState) : Except LineError LoadState :=
  if name.length ≥ b.maxServiceIdLength + 1 then .error .sectionTooLong
  else if name = ascii "common" then
    .ok { st with sectionName := name, svc := false, sectionSeen := [] }
  else if st.config.services.length = b.maxServices then .error .tooManyServices
  else .ok { st with
    config := { st.config with services := st.config.services ++
      [newService b.toBuild name st.config.defaultDataEncryption] }
    sectionName := name
    svc := true
    sectionSeen := [] }

/-- The key is taken, or seen for the second time. -/
def takeKey (seen : List Bytes) (capacity : Nat) (k : Bytes) : Except LineError (List Bytes) :=
  match keySeen seen capacity k with
  | .fresh seen => .ok seen
  | .duplicate => .error (.duplicateKey k)
  | .tooMany => .error (.tooManyKeys k)

/-- The error of `set_common` and `set_service`, with the line. -/
def withLine {α : Type} (k v : Bytes) : Except SetError α → Except LineError α
  | .ok a => .ok a
  | .error e => .error (.badValue e k v)

/-- The service `svc` points to. -/
def LoadState.service (st : LoadState) : LoadedService :=
  st.config.services.getLastD ⟨.zero, false⟩

/-- A line `k = v`. -/
def configSet (b : LoaderBuild) (lib : CLibrary) (k v : Bytes) (st : LoadState) :
    Except LineError LoadState :=
  if st.sectionName = [] then .error .expectedKeyValue
  else if st.svc then do
    let seen ← takeKey st.sectionSeen 16 k
    let s ← withLine k v (setService b.toBuild lib k v st.service)
    return { st with
      config := { st.config with services := st.config.services.dropLast ++ [s] }
      sectionSeen := seen }
  else do
    let seen ← takeKey st.commonSeen 40 k
    let c ← withLine k v (setCommon b lib k v st.config)
    return { st with config := c, commonSeen := seen }

def configReader (b : LoaderBuild) (lib : CLibrary) : IniReader LoadState LineError where
  enter := configEnter b
  set := configSet b lib
  tooLong := .tooLong
  badHeader := .invalidSection
  malformed := .expectedKeyValue

/-- `line[CT_MAX_PATH * 2]`. -/
def LoaderBuild.lineSize (b : LoaderBuild) : Nat := b.maxPathLength * 2

/-- What the file says. -/
def readConfig (b : LoaderBuild) (lib : CLibrary) (path : CString) (file : Bytes) :
    Except ConfigError LoadedConfig :=
  match (configReader b lib).run 0 (.start b path) (fgetsAll b.lineSize [] file) with
  | .ok st => .ok st.config
  | .error (ln, e) => .error (.line ln e)

/-! ## After the file -/

/-- `getenv` of the two variables. -/
structure LoaderEnv where
  logLevel : Option CString
  poolCount : Option CString

/-- `CTUNNEL_LOG_LEVEL`. -/
def overrideLogLevel (b : LoaderBuild) (value : Option CString) (c : LoadedConfig) :
    Except ConfigError LoadedConfig :=
  match value with
  | none => .ok c
  | some v =>
      match ctLogParseLevel b v.bytes with
      | some level => .ok { c with logLevel := level }
      | none => .error .logLevelUnavailable

/-- `CTUNNEL_POOL_COUNT`. -/
def overridePoolCount (b : LoaderBuild) (lib : CLibrary) (value : Option CString)
    (c : LoadedConfig) : Except ConfigError LoadedConfig :=
  match value with
  | none => .ok c
  | some v =>
      match integer lib v.bytes (0, b.maxStreams) with
      | some n => .ok { c with int := Function.update c.int .poolCount n }
      | none => .error .poolCountLimit

/-- The overrides from the environment. -/
def applyEnvironment (b : LoaderBuild) (lib : CLibrary) (env : LoaderEnv) (c : LoadedConfig) :
    Except ConfigError LoadedConfig :=
  if b.envOverride then
    overrideLogLevel b env.logLevel c >>= overridePoolCount b lib env.poolCount
  else .ok c

/-- The name of the default log file. -/
def defaultLogName (b : LoaderBuild) (mode : CtMode) : Bytes :=
  if b.server = true ∧ mode = .server then ascii "ctunnel-server.log"
  else if b.client = true ∧ mode = .client then ascii "ctunnel-client.log"
  else ascii "ctunnel.log"

/-- The path up to its last slash, the slash included. -/
def directoryOf (path : Bytes) : Bytes := path.rdropWhile fun c => c != 47

/-- `set_default_log_file`. -/
def setDefaultLogFile (b : LoaderBuild) (c : LoadedConfig) : Except ConfigError LoadedConfig :=
  if c.str .logFile = .empty then
    match cp b.maxPathLength (directoryOf c.configPath.bytes ++ defaultLogName b c.mode) with
    | some path => .ok { c with str := Function.update c.str .logFile path }
    | none => .error .logPathTooLong
  else .ok c

/-- What is wrong with one service of a client; `before` are the services before it. -/
def serviceRefused (b : LoaderBuild) (lib : HostLibrary) (before : List LoadedService)
    (s : LoadedService) : Option ValidateError :=
  match (addressFamilyUnavailable b.toBuild lib s.remoteAddr).or
      (addressFamilyUnavailable b.toBuild lib s.localAddr) with
  | some family => some (.serviceFamily s.id family)
  | none =>
      if s.type ≠ 1 ∧ s.type ≠ 2 then some (.serviceType s.id)
      else if b.proxyProtocol = true ∧ s.type ≠ 1 ∧ s.proxyProtocol ≠ .off then
        some (.serviceProxyProtocol s.id)
      else if b.udp = false ∧ s.type = 2 then some (.serviceUdpNotCompiled s.id)
      else if b.udp = true ∧ s.type = 1 ∧ s.udpOptionsSeen = true then some (.serviceUdpOption s.id)
      else if b.dataEncryption = false ∧ s.encryption ≠ .disabled then some (.serviceEncryption s.id)
      else if s.remotePort = 0 ∨ s.localPort = 0 then some (.servicePorts s.id)
      else if ∃ t ∈ before, t.id = s.id then some (.duplicateService s.id)
      else none

/-- The services of a client, from the first on. -/
def servicesRefused (b : LoaderBuild) (lib : HostLibrary) :
    (before services : List LoadedService) → Option ValidateError
  | _, [] => none
  | before, s :: services =>
      (serviceRefused b lib before s).or (servicesRefused b lib (before ++ [s]) services)

/-- `ct_config_validate`: what it refuses. -/
def configRefused (b : LoaderBuild) (lib : HostLibrary) (c : LoadedConfig) : Option ValidateError :=
  if c.mode = .none then some .modeRequired
  else if b.server = false ∧ c.mode = .server then some .serverNotCompiled
  else if b.client = false ∧ c.mode = .client then some .clientNotCompiled
  else if c.str .identityPrivateKey = .empty then some .identityRequired
  else if c.cipherMask &&& (1 <<< UInt32.ofNat c.preferredCipher.toByte.toNat) = 0 then
    some .preferredCipherNotAllowed
  else
    match (addressFamilyUnavailable b.toBuild lib (c.str .bindAddr)).or
        (if c.mode = .client then addressFamilyUnavailable b.toBuild lib (c.str .serverAddr)
          else none) with
    | some family => some (.familyNotCompiled family)
    | none =>
        if c.int .heartbeatTimeout ≤ c.int .heartbeatInterval then some .heartbeatTimeout
        else if c.int .maxClients > b.maxClients then some .maxClients
        else if c.int .maxServicesPerClient > b.maxServices ∨
            c.int .maxStreamsPerClient > b.maxStreams ∨
            c.int .maxPendingStreams > b.maxPendingStreams then some .resourceLimit
        else if b.workPool = false ∧ c.int .poolCount ≠ 0 then some .workPoolNotCompiled
        else if b.dataEncryption = false ∧ c.defaultDataEncryption ≠ .disabled then
          some .dataEncryptionNotCompiled
        else if c.mode = .server then
          if c.str .authorizedClientsFile = .empty then some .authorizedClientsRequired
          else if c.services ≠ [] then some .servicesInServer
          else none
        else if c.str .serverAddr = .empty ∨ c.str .clientId = .empty ∨
            c.str .serverPublicKey = .empty then some .clientFieldsRequired
        else servicesRefused b lib [] c.services

/-- `ct_config_load` on the contents of a file. -/
def ctConfigLoad (b : LoaderBuild) (lib : HostLibrary) (env : LoaderEnv) (path : CString)
    (file : Bytes) : Except ConfigError LoadedConfig := do
  let c ← readConfig b lib.toCLibrary path file
  let c ← applyEnvironment b lib.toCLibrary env c
  let c ← setDefaultLogFile b c
  match configRefused b lib c with
  | some e => .error (.invalid e)
  | none => return c

end Ctunnel
