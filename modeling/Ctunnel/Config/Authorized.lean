import Ctunnel.Config.Load
import Ctunnel.Lib.IniKeys

/-!
# The authorized clients (`src/config/config.c`)

`ct_authorized_load` reads a file with one section `[client.ID]` for each client into the
configuration that `ct_config_load` has filled. Every key of a section can be set once
but `allow_remote_port`, which adds a range of ports each time.
-/

namespace Ctunnel

open Lib

/-! ## Errors -/

/-- What is wrong with a line. -/
inductive ClientLineError
  | tooLong
  | expectedClient
  | tooManyClients
  | duplicateClient (id : Bytes)
  | idTooLong
  | malformed
  | duplicateKey (k : Bytes)
  | tooManyKeys (k : Bytes)
  | unknownKey (k : Bytes)
  | invalid (k : Bytes)
  deriving DecidableEq

/-- Why `ct_authorized_load` fails on a file it could open. -/
inductive AuthorizedError
  | line (ln : Nat) (e : ClientLineError)
  | familyNotCompiled (id : CString)
  | incomplete (id : CString)
  deriving DecidableEq

/-- `err`, before it is cut to its buffer. -/
def AuthorizedError.message : AuthorizedError → Bytes
  | .line _ .tooManyClients => ascii "too many authorized clients"
  | .line _ (.duplicateClient id) => ascii "duplicate authorized client " ++ id
  | .line _ .idTooLong => ascii "client id too long"
  | .line ln e =>
      ascii "clients line " ++ decimalText ln ++
        (match e with
          | .tooLong => ascii " too long"
          | .expectedClient => ascii ": expected [client.ID]"
          | .duplicateKey k => ascii ": duplicate key " ++ k
          | .tooManyKeys k => ascii ": too many key " ++ k
          | .unknownKey k => ascii " unknown key " ++ k
          | .invalid k => ascii " invalid " ++ k
          | _ => ascii " malformed")
  | .familyNotCompiled id =>
      ascii "client " ++ id.bytes ++ ascii " uses an address family not compiled in"
  | .incomplete id =>
      ascii "client " ++ id.bytes ++ ascii " requires public_key and allow_remote_port"

/-! ## Values -/

/-- `parse_range`; it leaves `errno` alone. -/
def parseRange (lib : CLibrary) (v : Bytes) : Option CtPortRange :=
  let a := strtol lib v
  let z := if a.rest.head? = some 45 then strtol lib a.rest.tail else a
  if z.rest ≠ [] ∨ a.value < 1 ∨ z.value < a.value ∨ z.value > 65535 then none
  else some ⟨UInt16.ofNat a.value.toNat, UInt16.ofNat z.value.toNat⟩

/-- The keys of a client section, in the order they are compared. -/
inductive ClientKey
  | publicKey
  | allowBindAddr
  | allowRemotePort
  | maxServices
  | maxStreams
  deriving DecidableEq

def ClientKey.name : ClientKey → String
  | .publicKey => "public_key"
  | .allowBindAddr => "allow_bind_addr"
  | .allowRemotePort => "allow_remote_port"
  | .maxServices => "max_services"
  | .maxStreams => "max_streams"

def clientKeys : List ClientKey :=
  [.publicKey, .allowBindAddr, .allowRemotePort, .maxServices, .maxStreams]

def clientKey (k : Bytes) : Option ClientKey := clientKeys.find? fun key => ascii key.name == k

/-- The line `key = v` of a client; `none` where the value is invalid. -/
def clientUpdate (b : LoaderBuild) (lib : CLibrary) (v : Bytes) (a : LoadedClient) :
    ClientKey → Option LoadedClient
  | .publicKey => (cp b.maxPathLength v).map fun path => { a with publicKey := path }
  | .allowBindAddr => (cp (b.maxAddressLength + 1) v).map fun addr => { a with allowAddr := addr }
  | .allowRemotePort =>
      if a.ports.length = b.maxPortRanges then none
      else (parseRange lib v).map fun r => { a with ports := a.ports ++ [r] }
  | .maxServices => (integer lib v (1, b.maxServices)).map fun n => { a with maxServices := n.toNat }
  | .maxStreams => (integer lib v (1, b.maxStreams)).map fun n => { a with maxStreams := n.toNat }

/-- The line `k = v`, and its two errors. -/
def setClient (b : LoaderBuild) (lib : CLibrary) (k v : Bytes) (a : LoadedClient) :
    Except ClientLineError LoadedClient :=
  match clientKey k with
  | none => .error (.unknownKey k)
  | some key =>
      match clientUpdate b lib v a key with
      | some a => .ok a
      | none => .error (.invalid k)

/-- A client whose header has been read. -/
def newClient (b : LoaderBuild) (c : LoadedConfig) (id : CString) : LoadedClient where
  id := id
  allowAddr := wildcardAddr b.toBuild
  ports := []
  maxServices := (c.int .maxServicesPerClient).toNat
  maxStreams := (c.int .maxStreamsPerClient).toNat
  publicKey := .empty

/-! ## The lines of the file -/

/-- The variables of the loop; `current` says whether `a` is set, and then it points to the
last client. -/
structure ClientState where
  config : LoadedConfig
  current : Bool
  sectionSeen : List Bytes

/-- A section header. -/
def authorizedEnter (b : LoaderBuild) (name : Bytes) (st : ClientState) :
    Except ClientLineError ClientState :=
  if ascii "client." <+: name then
    let id := name.drop 7
    if st.config.clients.length = b.maxClients then .error .tooManyClients
    else if ∃ a ∈ st.config.clients, a.id = CString.ofBytes id then .error (.duplicateClient id)
    else
      match cp (b.maxClientIdLength + 1) id with
      | none => .error .idTooLong
      | some id => .ok {
          config := { st.config with clients := st.config.clients ++ [newClient b st.config id] }
          current := true
          sectionSeen := [] }
  else .error .expectedClient

/-- The key is taken, unless it may be set again. -/
def takeClientKey (seen : List Bytes) (k : Bytes) : Except ClientLineError (List Bytes) :=
  if k = ascii "allow_remote_port" then .ok seen
  else
    match keySeen seen 4 k with
    | .fresh seen => .ok seen
    | .duplicate => .error (.duplicateKey k)
    | .tooMany => .error (.tooManyKeys k)

/-- The client `a` points to. -/
def ClientState.client (st : ClientState) : LoadedClient :=
  st.config.clients.getLastD ⟨⟨.empty, .empty, [], 0, 0⟩, .empty⟩

/-- A line `k = v`. -/
def authorizedSet (b : LoaderBuild) (lib : CLibrary) (k v : Bytes) (st : ClientState) :
    Except ClientLineError ClientState :=
  if st.current then do
    let seen ← takeClientKey st.sectionSeen k
    let a ← setClient b lib k v st.client
    return { st with
      config := { st.config with clients := st.config.clients.dropLast ++ [a] }
      sectionSeen := seen }
  else .error .malformed

def authorizedReader (b : LoaderBuild) (lib : CLibrary) : IniReader ClientState ClientLineError where
  enter := authorizedEnter b
  set := authorizedSet b lib
  tooLong := .tooLong
  badHeader := .expectedClient
  malformed := .malformed

/-- What is wrong with a client after the file has been read. -/
def clientRefused (b : LoaderBuild) (lib : HostLibrary) (a : LoadedClient) : Option AuthorizedError :=
  if addressFamilyUnavailable b.toBuild lib a.allowAddr ≠ none then some (.familyNotCompiled a.id)
  else if a.publicKey = .empty ∨ a.ports = [] then some (.incomplete a.id)
  else none

/-- `ct_authorized_load` on the contents of a file. -/
def ctAuthorizedLoad (b : LoaderBuild) (lib : HostLibrary) (c : LoadedConfig) (file : Bytes) :
    Except AuthorizedError LoadedConfig :=
  match (authorizedReader b lib.toCLibrary).run 0 ⟨c, false, []⟩ (fgetsAll b.lineSize [] file) with
  | .error (ln, e) => .error (.line ln e)
  | .ok st =>
      match st.config.clients.findSome? (clientRefused b lib) with
      | some e => .error e
      | none => .ok st.config

/-! ## The configuration of the server -/

/-- The fields that the running program reads. -/
def LoadedConfig.toCtConfig (c : LoadedConfig) : CtConfig where
  clientId := c.str .clientId
  bindAddr := c.str .bindAddr
  bindPort := c.port .bindPort
  cipherMask := c.cipherMask
  preferredCipher := c.preferredCipher
  heartbeatInterval := (c.int .heartbeatInterval).toNat
  heartbeatTimeout := (c.int .heartbeatTimeout).toNat
  handshakeTimeout := (c.int .handshakeTimeout).toNat
  connectTimeout := (c.int .connectTimeout).toNat
  poolCount := (c.int .poolCount).toNat
  maxClients := (c.int .maxClients).toNat
  maxServicesPerClient := (c.int .maxServicesPerClient).toNat
  maxStreamsPerClient := (c.int .maxStreamsPerClient).toNat
  maxPendingStreams := (c.int .maxPendingStreams).toNat
  services := c.services.map (·.toCtServiceConfig)
  clients := c.clients.map (·.toCtAuthorizedClient)

end Ctunnel
