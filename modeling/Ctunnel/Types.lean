import Ctunnel.Lib.BigEndian
import Mathlib.Data.List.TakeWhile

/-!
# Build configuration and shared types (`Kconfig`, `ctunnel.h`)

`Build` is one configuration the Kconfig files admit: the feature switches and
compile-time limits that the modelled code reads, each with the range its
`config` entry declares, and the two lower bounds on the control buffer that
`ctkconfig.py` and `CMakeLists.txt` check. Everything below is stated for an
arbitrary `Build`.

Strings that C code handles by `strlen`, `strcmp` and `memcpy(…, strlen)` are
`CString`s: byte strings without a NUL.
-/

namespace Ctunnel

open Lib

/-! ## Kconfig -/

/-- A build admitted by the Kconfig ranges. -/
structure Build where
  /-- `CONFIG_FEATURE_DATA_ENCRYPTION`. -/
  dataEncryption : Bool
  /-- `CONFIG_FEATURE_UDP`. -/
  udp : Bool
  /-- `CONFIG_FEATURE_IPV4`. -/
  ipv4 : Bool
  /-- `CONFIG_FEATURE_IPV6`. -/
  ipv6 : Bool
  /-- `CONFIG_FEATURE_PROXY_PROTOCOL`. -/
  proxyProtocol : Bool
  /-- `CONFIG_FEATURE_PROXY_PROTOCOL_V1`. -/
  proxyProtocolV1 : Bool
  /-- `CONFIG_FEATURE_PROXY_PROTOCOL_V2`. -/
  proxyProtocolV2 : Bool
  maxClients : Nat
  maxServices : Nat
  maxStreams : Nat
  maxPendingStreams : Nat
  maxUdpSessions : Nat
  maxUdpDatagramSize : Nat
  udpReplayWindow : Nat
  maxFrameSize : Nat
  maxClientIdLength : Nat
  maxServiceIdLength : Nat
  maxAddressLength : Nat
  streamBufferSize : Nat
  controlBufferSize : Nat
  proxyV1_depends : proxyProtocolV1 = true → proxyProtocol = true
  proxyV2_depends : proxyProtocolV2 = true → proxyProtocol = true
  maxClients_range : 1 ≤ maxClients ∧ maxClients ≤ 64
  maxServices_range : 1 ≤ maxServices ∧ maxServices ≤ 256
  maxStreams_range : 1 ≤ maxStreams ∧ maxStreams ≤ 4096
  maxPendingStreams_range : 1 ≤ maxPendingStreams ∧ maxPendingStreams ≤ 1024
  maxUdpSessions_range : 1 ≤ maxUdpSessions ∧ maxUdpSessions ≤ 8192
  maxUdpDatagramSize_range : 512 ≤ maxUdpDatagramSize ∧ maxUdpDatagramSize ≤ 65507
  udpReplayWindow_range : 64 ≤ udpReplayWindow ∧ udpReplayWindow ≤ 128
  maxFrameSize_range : 4096 ≤ maxFrameSize ∧ maxFrameSize ≤ 1048576
  maxClientIdLength_range : 8 ≤ maxClientIdLength ∧ maxClientIdLength ≤ 256
  maxServiceIdLength_range : 8 ≤ maxServiceIdLength ∧ maxServiceIdLength ≤ 256
  maxAddressLength_range : 16 ≤ maxAddressLength ∧ maxAddressLength ≤ 512
  streamBufferSize_range : 4096 ≤ streamBufferSize ∧ streamBufferSize ≤ 262144
  controlBufferSize_range : 256 ≤ controlBufferSize ∧ controlBufferSize ≤ 65536
  controlBufferSize_ids : maxClientIdLength + 192 ≤ controlBufferSize ∧
    maxServiceIdLength + maxAddressLength + 32 ≤ controlBufferSize
  controlBufferSize_udp : udp = true →
    maxUdpDatagramSize + maxServiceIdLength + 40 ≤ controlBufferSize

/-- `configs/default_defconfig`. -/
def defaultBuild : Build where
  dataEncryption := true
  udp := true
  ipv4 := true
  ipv6 := true
  proxyProtocol := true
  proxyProtocolV1 := true
  proxyProtocolV2 := true
  maxClients := 4
  maxServices := 32
  maxStreams := 256
  maxPendingStreams := 256
  maxUdpSessions := 1024
  maxUdpDatagramSize := 1472
  udpReplayWindow := 64
  maxFrameSize := 1048576
  maxClientIdLength := 64
  maxServiceIdLength := 64
  maxAddressLength := 128
  streamBufferSize := 65536
  controlBufferSize := 4096
  proxyV1_depends := fun _ => rfl
  proxyV2_depends := fun _ => rfl
  maxClients_range := by decide
  maxServices_range := by decide
  maxStreams_range := by decide
  maxPendingStreams_range := by decide
  maxUdpSessions_range := by decide
  maxUdpDatagramSize_range := by decide
  udpReplayWindow_range := by decide
  maxFrameSize_range := by decide
  maxClientIdLength_range := by decide
  maxServiceIdLength_range := by decide
  maxAddressLength_range := by decide
  streamBufferSize_range := by decide
  controlBufferSize_range := by decide
  controlBufferSize_ids := by decide
  controlBufferSize_udp := by decide

/-- `configs/mini_defconfig`. -/
def miniBuild : Build where
  dataEncryption := false
  udp := false
  ipv4 := false
  ipv6 := true
  proxyProtocol := false
  proxyProtocolV1 := false
  proxyProtocolV2 := false
  maxClients := 1
  maxServices := 4
  maxStreams := 8
  maxPendingStreams := 4
  maxUdpSessions := 1024
  maxUdpDatagramSize := 1472
  udpReplayWindow := 64
  maxFrameSize := 16384
  maxClientIdLength := 32
  maxServiceIdLength := 32
  maxAddressLength := 64
  streamBufferSize := 16384
  controlBufferSize := 1024
  proxyV1_depends := fun h => h
  proxyV2_depends := fun h => h
  maxClients_range := by decide
  maxServices_range := by decide
  maxStreams_range := by decide
  maxPendingStreams_range := by decide
  maxUdpSessions_range := by decide
  maxUdpDatagramSize_range := by decide
  udpReplayWindow_range := by decide
  maxFrameSize_range := by decide
  maxClientIdLength_range := by decide
  maxServiceIdLength_range := by decide
  maxAddressLength_range := by decide
  streamBufferSize_range := by decide
  controlBufferSize_range := by decide
  controlBufferSize_ids := by decide
  controlBufferSize_udp := fun h => absurd h (by decide)

/-- `CHUNK` of `relay.c`: the largest plaintext of one record and the size of
one read from the direct socket. -/
def Build.chunk (b : Build) : Nat :=
  if b.streamBufferSize < 32768 then b.streamBufferSize / 2 else 16384

/-! ## Strings -/

/-- The bytes of a string literal. -/
def ascii (s : String) : Bytes := s.toByteArray.data.toList

/-- A C string: bytes without a NUL. -/
structure CString where
  bytes : Bytes
  noNul : (0 : UInt8) ∉ bytes
  deriving DecidableEq

theorem CString.noNul_nil : (0 : UInt8) ∉ ([] : Bytes) := by simp

/-- What `strlen` and `strcmp` see of a buffer that ends in a NUL. -/
def CString.ofBytes (bs : Bytes) : CString where
  bytes := bs.takeWhile (fun c => c != 0)
  noNul := by
    intro h
    have := List.mem_takeWhile_imp h
    simp at this

/-- `strlen`. -/
def CString.length (s : CString) : Nat := s.bytes.length

theorem CString.ext {s t : CString} (h : s.bytes = t.bytes) : s = t := by
  cases s
  cases t
  simp only at h
  subst h
  rfl

/-- A NUL-free buffer is its own string. -/
theorem CString.ofBytes_bytes (s : CString) : CString.ofBytes s.bytes = s := by
  apply CString.ext
  simp only [CString.ofBytes]
  rw [List.takeWhile_eq_self_iff]
  intro c hc
  have hne : c ≠ 0 := fun h => s.noNul (h ▸ hc)
  simpa using hne

/-! ## `ctunnel.h` -/

/-- The two ends of a session. -/
inductive End
  | client
  | server
  deriving DecidableEq, Repr

def End.peer : End → End
  | .client => .server
  | .server => .client

def End.isClient : End → Bool
  | .client => true
  | .server => false

/-- `ct_socket`. -/
abbrev Socket := Int

/-- `CT_INVALID_SOCKET`. -/
def invalidSocket : Socket := -1

/-- `ct_enc_mode`. -/
inductive CtEncMode
  | required
  | disabled
  deriving DecidableEq, Repr

/-- `(uint8_t)mode`. -/
def CtEncMode.toByte : CtEncMode → UInt8
  | .required => 0
  | .disabled => 1

/-- The cast from a wire byte, with the membership test every caller makes. -/
def CtEncMode.ofByte (v : UInt8) : Option CtEncMode :=
  if v = 0 then some .required else if v = 1 then some .disabled else none

/-- `ct_cipher`. -/
inductive CtCipher
  | none
  | chacha
  deriving DecidableEq, Repr

/-- `(uint8_t)cipher`. -/
def CtCipher.toByte : CtCipher → UInt8
  | .none => 0
  | .chacha => 1

/-- `ct_proxy_protocol_mode`. -/
inductive CtProxyProtocolMode
  | off
  | v1
  | v2
  deriving DecidableEq, Repr

/-- `(uint8_t)mode`. -/
def CtProxyProtocolMode.toByte : CtProxyProtocolMode → UInt8
  | .off => 0
  | .v1 => 1
  | .v2 => 2

/-- The cast from a wire byte, with the `> CT_PROXY_PROTOCOL_V2` test. -/
def CtProxyProtocolMode.ofByte (v : UInt8) : Option CtProxyProtocolMode :=
  if v = 0 then some .off else if v = 1 then some .v1
  else if v = 2 then some .v2 else none

theorem CtEncMode.toByte_inj {m m' : CtEncMode} (h : m.toByte = m'.toByte) : m = m' := by
  cases m <;> cases m' <;> first | rfl | exact absurd h (by decide)

theorem CtProxyProtocolMode.toByte_inj {m m' : CtProxyProtocolMode}
    (h : m.toByte = m'.toByte) : m = m' := by
  cases m <;> cases m' <;> first | rfl | exact absurd h (by decide)

/-- `ct_endpoint`. -/
structure CtEndpoint where
  family : UInt8
  addr : Octets 16
  port : UInt16
  deriving DecidableEq

/-- `memset(endpoint, 0, sizeof *endpoint)`. -/
def CtEndpoint.zero : CtEndpoint := ⟨0, List.Vector.replicate 16 0, 0⟩

/-- `ct_stream_metadata`. -/
structure CtStreamMetadata where
  proxyProtocol : CtProxyProtocolMode
  source : CtEndpoint
  destination : CtEndpoint
  deriving DecidableEq

end Ctunnel
