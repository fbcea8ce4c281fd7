import Ctunnel.Protocol

/-!
# PROXY protocol headers (`src/net/proxy_protocol.c`)

Both header builders return the bytes they would leave in the caller's buffer,
or fail. `inetNtop` prints addresses the way glibc does.
-/

namespace Ctunnel

open Lib

/-- `CT_PROXY_PROTOCOL_MAX_HEADER`, also the limit of a v1 header. -/
def ctProxyProtocolMaxHeader : Nat := 108

/-! ## `inet_ntop` -/

/-- A number in the given base, lower case. -/
def numeral (base n : Nat) : Bytes :=
  (Nat.toDigits base n).map fun c => UInt8.ofNat c.toNat

/-- `inet_ntop(AF_INET, …)`. -/
def inetNtop4 (addr : Bytes) : Bytes :=
  numeral 10 (addr.getD 0 0).toNat ++ ascii "." ++ numeral 10 (addr.getD 1 0).toNat ++
    ascii "." ++ numeral 10 (addr.getD 2 0).toNat ++ ascii "." ++
    numeral 10 (addr.getD 3 0).toNat

/-- The eight 16-bit words of an IPv6 address. -/
def words6 (addr : Octets 16) : List Nat :=
  (List.range 8).map fun i => beNat (slice addr.toList (2 * i) 2)

/-- Length of the run of zero words at the front. -/
def zeroRun : List Nat → Nat
  | 0 :: ws => zeroRun ws + 1
  | _ => 0

/-- The first longest run of at least two zero words: start and length. -/
def bestRun (ws : List Nat) : Option (Nat × Nat) :=
  (List.range 8).foldl (fun best i =>
    let n := zeroRun (ws.drop i)
    match best with
    | none => if n ≥ 2 then some (i, n) else none
    | some (_, m) => if n > m then some (i, n) else best) none

/-- `inet_ntop(AF_INET6, …)`: words in hexadecimal, the best run as `::`, an
embedded IPv4 address in dotted form. -/
def inetNtop6 (addr : Octets 16) : Bytes :=
  let ws := words6 addr
  let hex := fun (l : List Nat) => List.intercalate (ascii ":") (l.map (numeral 16))
  match bestRun ws with
  | none => hex ws
  | some (base, len) =>
      if base = 0 ∧ (len = 6 ∨ (len = 5 ∧ ws.getD 5 0 = 0xffff)) then
        (if len = 6 then ascii "::" else ascii "::ffff:") ++ inetNtop4 (addr.toList.drop 12)
      else hex (ws.take base) ++ ascii "::" ++ hex (ws.drop (base + len))

/-! ## Address pairs -/

/-- `is_v4_mapped`. -/
def isV4Mapped (e : CtEndpoint) : Bool :=
  e.family == 6 && e.addr.toList.take 12 == [0, 0, 0, 0, 0, 0, 0, 0, 0, 0, 0xff, 0xff]

/-- `memmove(addr, addr + 12, 4)` with the family changed to 4. -/
def unmapV4 (e : CtEndpoint) : CtEndpoint :=
  { e with family := 4, addr := sliceOctets (slice e.addr.toList 12 4 ++ e.addr.toList.drop 4) 0 16 }

/-- `normalize_pair`. -/
def normalizePair (m : CtStreamMetadata) : Option (CtEndpoint × CtEndpoint) :=
  let mapped := m.source.family = 6 ∧ m.destination.family = 6 ∧
    isV4Mapped m.source = true ∧ isV4Mapped m.destination = true
  let source := if mapped then unmapV4 m.source else m.source
  let destination := if mapped then unmapV4 m.destination else m.destination
  if source.family ≠ destination.family ∨ (source.family ≠ 4 ∧ source.family ≠ 6) then none
  else some (source, destination)

/-! ## Headers -/

/-- `ct_proxy_protocol_build_v1` into a buffer of `cap` bytes. -/
def ctProxyProtocolBuildV1 (b : Build) (cap : Nat) (m : CtStreamMetadata) : Option Bytes :=
  if !b.proxyProtocolV1 then none
  else
    match normalizePair m with
    | none => none
    | some (source, destination) =>
        let print := fun (e : CtEndpoint) =>
          if source.family = 4 then inetNtop4 e.addr.toList else inetNtop6 e.addr
        let text := ascii "PROXY TCP" ++ numeral 10 source.family.toNat ++ ascii " " ++
          print source ++ ascii " " ++ print destination ++ ascii " " ++
          numeral 10 source.port.toNat ++ ascii " " ++ numeral 10 destination.port.toNat ++
          [13, 10]
        if text.length ≥ cap ∨ text.length > ctProxyProtocolMaxHeader then none else some text

/-- `ct_proxy_protocol_build_v2` into a buffer of `cap` bytes. -/
def ctProxyProtocolBuildV2 (b : Build) (cap : Nat) (m : CtStreamMetadata) : Option Bytes :=
  if !b.proxyProtocolV2 then none
  else
    match normalizePair m with
    | none => none
    | some (source, destination) =>
        let addressLength := if source.family = 4 then 4 else 16
        let payloadLength := addressLength * 2 + 4
        if cap < 12 + 4 + payloadLength then none
        else some
          ([0x0d, 0x0a, 0x0d, 0x0a, 0x00, 0x0d, 0x0a, 0x51, 0x55, 0x49, 0x54, 0x0a] ++
            [0x21, if source.family = 4 then 0x11 else 0x21] ++
            ctPutU16 (UInt16.ofNat payloadLength) ++ source.addr.toList.take addressLength ++
            destination.addr.toList.take addressLength ++ ctPutU16 source.port ++
            ctPutU16 destination.port)

/-- `ct_proxy_protocol_build` into a buffer of `cap` bytes. -/
def ctProxyProtocolBuild (b : Build) (cap : Nat) (m : Option CtStreamMetadata) : Option Bytes :=
  match m with
  | none => some []
  | some m =>
      match m.proxyProtocol with
      | .off => some []
      | .v1 => ctProxyProtocolBuildV1 b cap m
      | .v2 => ctProxyProtocolBuildV2 b cap m

end Ctunnel
