import Ctunnel.Net.Socket

/-!
# UDP datagrams in control frames (`src/net/net.c`)

`ct_udp_datagram` with its encoding, and the two functions that `server.c` and
`client.c` both have a copy of.
-/

namespace Ctunnel

open Lib

/-- `endpoint_equal`. -/
def endpointEqual (a c : CtEndpoint) : Bool :=
  let n := addressLength a.family
  n != 0 && a.family == c.family && a.port == c.port &&
    a.addr.toList.take n == c.addr.toList.take n

/-- `udp_replay_accept`, with `CONFIG_UDP_REPLAY_WINDOW` numbers of memory. -/
def udpReplayAccept (window : Nat) (high bitmap seq : UInt64) : Option (UInt64 × UInt64) :=
  if seq = 0 then none
  else if high < seq then
    let shift := seq - high
    some (seq, if 64 ≤ shift then 1 else (bitmap <<< shift) ||| 1)
  else
    let behind := high - seq
    if window ≤ behind.toNat then none
    else if bitmap &&& ((1 : UInt64) <<< behind) ≠ 0 then none
    else some (high, bitmap ||| ((1 : UInt64) <<< behind))

/-- `ct_udp_datagram`. -/
structure UdpFrame where
  direction : UInt8
  id : UInt64
  seq : UInt64
  service : CString
  peer : CtEndpoint
  payload : Bytes
  deriving DecidableEq

/-- `ct_udp_datagram_pack`. -/
def ctUdpDatagramPack (b : Build) (cap : Nat) (d : UdpFrame) : Option Bytes :=
  if d.payload.length > 65535 ∨ cap < 17 then none
  else do
    let out ← ctPackString cap ([d.direction] ++ ctPutU64 d.id ++ ctPutU64 d.seq) d.service
      b.maxServiceIdLength
    let endpoint ← ctUdpEndpointEncode cap out.length d.peer
    let out := out ++ endpoint
    if cap - out.length < 2 + d.payload.length then none
    else some (out ++ ctPutU16 (UInt16.ofNat d.payload.length) ++ d.payload)

/-- `ct_udp_datagram_unpack`. -/
def ctUdpDatagramUnpack (b : Build) (p : Bytes) : Option UdpFrame :=
  if p.length < 17 then none
  else do
    let (service, off) ← ctUnpackString p p.length 17 (b.maxServiceIdLength + 1)
    let (peer, off) ← ctUdpEndpointDecode p p.length off
    if p.length - off < 2 then none
    else if p.length - (off + 2) ≠ (ctGetU16 p off).toNat then none
    else some ⟨p.getD 0 0, ctGetU64 p 1, ctGetU64 p 9, CString.ofBytes service, peer,
      p.drop (off + 2)⟩

end Ctunnel
