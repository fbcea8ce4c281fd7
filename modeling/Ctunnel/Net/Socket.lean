import Ctunnel.Net.Stream

/-!
# Sockets (`src/net/net.c`)

Bound sockets and the overlap test of listeners, UDP sockets, and
`ct_frame_available`. A bound socket carries the name `getsockname` returns for
it. What the operating system decides is an argument: the outcome of every
`socket`/`bind`, the queued bytes of a socket, a received datagram.
-/

namespace Ctunnel

open Lib

/-! ## Names -/

/-- `struct sockaddr_in` and `struct sockaddr_in6`. -/
inductive SockAddr
  | inet (port : UInt16) (addr : Octets 4)
  | inet6 (port : UInt16) (addr : Octets 16) (scopeId : UInt32)
  deriving DecidableEq

/-- A socket and what `getsockname` returns for it. -/
structure BoundSocket where
  fd : Socket
  name : SockAddr
  deriving DecidableEq

/-- `ct_net_bound_endpoints_overlap`. -/
def ctNetBoundEndpointsOverlap (b : Build) (left right : BoundSocket) : Bool :=
  match left.name, right.name with
  | .inet port addr, .inet port' addr' =>
      port == port' &&
        (addr == .replicate 4 0 || addr' == .replicate 4 0 || addr == addr')
  | .inet6 port addr scopeId, .inet6 port' addr' scopeId' =>
      b.ipv6 && port == port' &&
        (addr == .replicate 16 0 || addr' == .replicate 16 0 ||
          (scopeId == scopeId' && addr == addr'))
  | _, _ => false

theorem ctNetBoundEndpointsOverlap_comm (b : Build) (left right : BoundSocket) :
    ctNetBoundEndpointsOverlap b left right = ctNetBoundEndpointsOverlap b right left := by
  obtain ⟨fd, name⟩ := left
  obtain ⟨fd', name'⟩ := right
  cases name with
  | inet port addr =>
      cases name' with
      | inet port' addr' =>
          simp only [ctNetBoundEndpointsOverlap]
          rw [Bool.beq_comm (a := port), Bool.or_comm (addr == _),
            Bool.beq_comm (a := addr) (b := addr')]
      | inet6 port' addr' scopeId' => rfl
  | inet6 port addr scopeId =>
      cases name' with
      | inet port' addr' => rfl
      | inet6 port' addr' scopeId' =>
          simp only [ctNetBoundEndpointsOverlap]
          rw [Bool.beq_comm (a := port), Bool.or_comm (addr == _),
            Bool.beq_comm (a := addr) (b := addr'), Bool.beq_comm (a := scopeId)]

/-- `endpoint_from_sockaddr`: an IPv4-mapped IPv6 address becomes an IPv4 one. -/
def endpointFromSockaddr (b : Build) : SockAddr → Option CtEndpoint
  | .inet port addr => some ⟨4, ⟨addr.toList ++ List.replicate 12 0, by simp⟩, port⟩
  | .inet6 port addr _ =>
      if !b.ipv6 then none
      else if addr.toList.take 12 = List.replicate 10 0 ++ [0xff, 0xff] then
        some ⟨4, sliceOctets (addr.toList.drop 12 ++ List.replicate 12 0) 0 16, port⟩
      else some ⟨6, addr, port⟩

/-- `sockaddr_from_endpoint` succeeds. -/
def sockaddrFromEndpoint (b : Build) (endpoint : CtEndpoint) : Bool :=
  endpoint.family == 4 || (b.ipv6 && endpoint.family == 6)

/-! ## Binding -/

/-- What happens to one entry of `getaddrinfo`'s list: `socket` returns `fd`, and
`bind` and `listen` succeed or not. -/
structure BindAttempt where
  fd : Option Socket
  bound : Bool
  name : SockAddr
  deriving DecidableEq

/-- The loop over `getaddrinfo`'s list: the first socket that can be bound. -/
def bindFirst {σ : Type} : List BindAttempt → Call Effect σ BoundSocket
  | [] => Call.need none
  | a :: rest =>
      match a.fd with
      | none => bindFirst rest
      | some fd => do
          Call.tell [.socketOpen fd]
          if a.bound then return ⟨fd, a.name⟩
          else do
            Call.tell [.socketClose fd]
            bindFirst rest

/-- `ct_net_listen`. -/
def ctNetListen {σ : Type} : List BindAttempt → Call Effect σ BoundSocket := bindFirst

/-- `ct_udp_bind`. -/
def ctUdpBind {σ : Type} : List BindAttempt → Call Effect σ BoundSocket := bindFirst

/-- The binds of one service: to `0.0.0.0` and `::` for the address `*`, else to
its address. -/
structure BindIo where
  any4 : List BindAttempt
  any6 : List BindAttempt
  addr : List BindAttempt
  deriving DecidableEq

/-- The binds the operating system grants. -/
def BindIo.Grants (io : BindIo) (s : BoundSocket) : Prop :=
  ∃ a ∈ io.any4 ++ io.any6 ++ io.addr, a.bound = true ∧ a.fd = some s.fd ∧ a.name = s.name

/-- The address `*`. -/
def anyAddress : Bytes := [42]

/-- The body of `listen_set_open` and `udp_set_open`: as many of the wildcard
sockets as can be bound, or the one socket. -/
def bindSetOpen {σ : Type} (b : Build) (bind : List BindAttempt → Call Effect σ BoundSocket)
    (addr : CString) (io : BindIo) : Call Effect σ (List BoundSocket) :=
  if addr.bytes = anyAddress then do
    let v4 ← Call.attempt (if b.ipv4 then bind io.any4 else Call.need none)
    let v6 ← Call.attempt (if b.ipv6 then bind io.any6 else Call.need none)
    Call.check (v4.toList ++ v6.toList ≠ [])
    return v4.toList ++ v6.toList
  else do
    let fd ← bind io.addr
    return [fd]

/-! ## UDP -/

/-- What `recvfrom` does: a datagram and its source, nothing yet, or an error. -/
inductive RecvFrom
  | datagram (source : SockAddr) (bytes : Bytes)
  | wouldBlock
  | failed
  deriving DecidableEq

/-- What `ct_udp_recv` returns: a datagram, 1 or -1. -/
inductive UdpRecv
  | datagram (source : CtEndpoint) (payload : Bytes)
  | nothing
  | failed
  deriving DecidableEq

/-- `ct_udp_recv`: `recvfrom` drops what does not fit in the buffer. -/
def ctUdpRecv (b : Build) (capacity : Nat) : RecvFrom → UdpRecv
  | .datagram source bytes =>
      match endpointFromSockaddr b source with
      | some endpoint => .datagram endpoint (bytes.take capacity)
      | none => .failed
  | .wouldBlock => .nothing
  | .failed => .failed

/-- What `sendto` returns. -/
inductive SendTo
  | sent (n : Nat)
  | wouldBlock
  | failed
  deriving DecidableEq

/-- `ct_udp_send`: fails unless it returns 0 or 1. -/
def ctUdpSend {σ : Type} (b : Build) (fd : Socket) (destination : CtEndpoint) (bytes : Bytes)
    (io : SendTo) : Call Effect σ Unit := do
  Call.check (sockaddrFromEndpoint b destination = true)
  match io with
  | .sent n => do
      Call.tell [.datagram fd destination bytes]
      Call.check (n = bytes.length)
  | .wouldBlock => return ()
  | .failed => Call.need none

theorem ctUdpSend_ends {σ : Type} {b : Build} {fd : Socket} {destination : CtEndpoint}
    {bytes : Bytes} {io : SendTo} (s : σ) (tr : List Effect) :
    (ctUdpSend b fd destination bytes io s).Ends tr
      (fun _ s' tr' => s' = s ∧ (tr' = tr ∨ tr' = tr ++ [.datagram fd destination bytes]))
      (fun s' tr' => s' = s ∧ (tr' = tr ∨ tr' = tr ++ [.datagram fd destination bytes])) := by
  refine .check (fun _ => ?_) (fun _ => ⟨rfl, .inl rfl⟩)
  cases io with
  | sent n =>
      exact .tell (.of_bind_pure (.check (fun _ => .ret ⟨rfl, .inr rfl⟩) (fun _ => ⟨rfl, .inr rfl⟩)))
  | wouldBlock => exact .ret ⟨rfl, .inl rfl⟩
  | failed => exact .of_bind_pure (.need (fun _ h => absurd h (by simp)) (fun _ => ⟨rfl, .inl rfl⟩))

/-! ## Frames that have arrived -/

/-- What a socket holds when it is peeked at: queued bytes, nothing yet, or end of
file or an error. -/
inductive Queued
  | bytes (queue : Bytes)
  | wouldBlock
  | closed
  deriving DecidableEq

/-- What `ct_frame_available` returns: 1 with the header, 0 or -1. -/
inductive FrameAvailable
  | frame (h : CtFrameHeader)
  | later
  | failed
  deriving DecidableEq

/-- `ct_frame_available`. -/
def ctFrameAvailable (b : Build) (maxPayload : Nat) (flags : UInt8) : Queued → FrameAvailable
  | .wouldBlock => .later
  | .closed => .failed
  | .bytes queue =>
      if queue = [] then .failed
      else if queue.length < ctFrameHeaderSize then .later
      else
        match ctFrameHeaderDecode b (sliceOctets queue 0 36) with
        | none => .failed
        | some h =>
            if h.flags ≠ flags ∨ h.payloadLen.toNat > maxPayload then .failed
            else if ctFrameHeaderSize + h.payloadLen.toNat ≤ queue.length then .frame h
            else .later

/-- `ct_plain_frame_available`. -/
def ctPlainFrameAvailable (b : Build) (maxPayload : Nat) : Queued → FrameAvailable :=
  ctFrameAvailable b maxPayload 0

/-- The bytes a `recv` gets after a peek: what was queued and what follows. -/
def Queued.inbox (q : Queued) (more : Bytes) : Bytes :=
  match q with
  | .bytes queue => queue ++ more
  | _ => more

end Ctunnel
