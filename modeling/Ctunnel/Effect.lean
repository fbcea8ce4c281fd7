import Ctunnel.Crypto

/-!
# Observable effects

What a modelled function does besides returning a value and updating its
arguments: socket traffic and socket closes, metric updates, ring appends and
calls of the cryptographic primitives. Every effectful function returns the
list of its effects in program order, so a run of the system has one trace.
-/

namespace Ctunnel

open Lib

/-- `ct_metric_id` (the ones some modelled function touches). -/
inductive CtMetric
  | connectionsAcceptedTotal
  | connectionsRejectedTotal
  | activeStreams
  | pendingStreams
  | streamsOpenedTotal
  | streamsClosedTotal
  | streamsFailedTotal
  | workIdle
  | workActive
  | workConnectFailuresTotal
  | bytesC2sTotal
  | bytesS2cTotal
  | bufferBytesCurrent
  | aeadFailuresTotal
  | authFailuresTotal
  | resourceLimitRejectionsTotal
  | udpSessionsActive
  | udpSessionsCreatedTotal
  | udpSessionsExpiredTotal
  | udpSessionsRejectedTotal
  | udpDatagramsC2sTotal
  | udpDatagramsS2cTotal
  | udpBytesC2sTotal
  | udpBytesS2cTotal
  | udpDatagramsDroppedTotal
  | udpDatagramsOversizedTotal
  | udpReplayDroppedTotal
  | udpLocalSendFailuresTotal
  | proxyProtocolV1ConnectionsTotal
  | proxyProtocolV2ConnectionsTotal
  | proxyProtocolDisabledConnectionsTotal
  | proxyProtocolHeaderFailuresTotal
  | proxyProtocolModeMismatchTotal
  | proxyProtocolLocalWriteFailuresTotal
  deriving DecidableEq, Repr

/-- The two sockets of a relay. -/
inductive Side
  | direct
  | work
  deriving DecidableEq, Repr

/-- The three rings of a relay. -/
inductive RingId
  | toDirect
  | toWork
  | workInput
  deriving DecidableEq, Repr

/-- The inputs of one AEAD call: who can open `box`, and bound to what. -/
structure AeadCall where
  key : Octets 32
  base : Octets 16
  sequence : UInt64
  ad : Bytes
  box : Bytes
  deriving DecidableEq

/-- What a handshake transcript binds, in wire order. -/
@[ext] structure HandshakeFields where
  clientId : Bytes
  clientRandom : Octets 32
  clientEphemeral : Octets 32
  offered : UInt32
  serverRandom : Octets 32
  serverEphemeral : Octets 32
  cipher : UInt8
  clientIdentity : Octets 32
  serverIdentity : Octets 32
  deriving DecidableEq

/-- One observable effect. -/
inductive Effect
  | metricAdd (id : CtMetric) (value : Nat)
  | metricSub (id : CtMetric) (value : Nat)
  | socketOpen (fd : Socket)
  | socketClose (fd : Socket)
  | shutdownWrite (fd : Socket)
  /-- Bytes `recv` returned on a socket of a relay. -/
  | recv (side : Side) (bytes : Bytes)
  /-- Bytes of a relay's ring that `send` took. -/
  | sent (ring : RingId) (bytes : Bytes)
  /-- `append(ring, src, …)`, of which `taken` bytes went into the ring. -/
  | append (ring : RingId) (src : Bytes) (taken : Nat)
  /-- Bytes put on a control, handshake or work socket. -/
  | wire (fd : Socket) (bytes : Bytes)
  /-- A datagram handed to `sendto`. -/
  | datagram (fd : Socket) (destination : CtEndpoint) (bytes : Bytes)
  /-- A call of `add_work`. -/
  | addWork
  /-- A call of `ct_control_send`. -/
  | controlSend (type : UInt8) (stream : UInt64) (payload : Bytes)
  /-- What a call of `ct_control_recv` returned. -/
  | controlRecv (type : UInt8) (stream : UInt64) (payload : Bytes)
  | aeadEncrypt (call : AeadCall) (plain : Bytes)
  | aeadDecrypt (call : AeadCall) (plain : Option Bytes)
  /-- `ct_handshake_client` computed the transcript of `f`; `secret` is its X25519
  secret. -/
  | clientHandshake (secret : Octets 32) (f : HandshakeFields)
  /-- `ct_handshake_server_begin` computed the transcript of `f`. -/
  | serverHandshake (secret : Octets 32) (f : HandshakeFields)
  /-- `ct_handshake_client` returned 0. -/
  | clientSession (serverPublic secret : Octets 32) (f : HandshakeFields) (keys : CtSessionKeys)
  /-- `ct_handshake_server_finish` returned 0. -/
  | serverSession (clientPublic secret : Octets 32) (clientId : CString) (transcript : Bytes)
      (keys : CtSessionKeys)
  /-- A call of `ct_derive_session`. -/
  | deriveSession (e : End) (shared : Octets 32) (transcript : Bytes)
  /-- `ct_work_accept_bind` returned 0. -/
  | workAccept (keys : CtSessionKeys) (id : Octets 32)
  /-- A call of `ct_start_stream_send` that got to its MAC. -/
  | startSend (keys : CtSessionKeys) (clientId : CString) (x : StreamContext)
      (metadata : Option CtStreamMetadata)
  /-- What `ct_start_stream_recv` returned. -/
  | startRecv (keys : CtSessionKeys) (clientId : CString) (x : StreamContext)
      (metadata : CtStreamMetadata)
  /-- A call of `ct_stream_ready_send` that got to its MAC. -/
  | readySend (keys : CtSessionKeys) (clientId : CString) (x : StreamContext) (ok : Bool)
  /-- What `ct_stream_ready_recv` returned. -/
  | readyRecv (keys : CtSessionKeys) (clientId : CString) (x : StreamContext) (ok : Bool)
  /-- `ct_relay_init` derives the keys of a stream from the session's `data_master`. -/
  | deriveData (e : End) (keys : CtSessionKeys) (x : StreamContext)
  | sign (secret : Octets 64) (message : Bytes)
  | verify (publicKey : Octets 32) (message : Bytes) (ok : Bool)
  /-- An authenticator computed for sending. -/
  | macSend (key : Octets 32) (message : Bytes)
  /-- An authenticator computed to check a received `tag`. -/
  | macCheck (key : Octets 32) (message : Bytes) (tag : Octets 32)
  deriving DecidableEq

/-- `ct_metric_inc`. -/
abbrev Effect.inc (id : CtMetric) : Effect := .metricAdd id 1

/-- `ct_metric_dec`. -/
abbrev Effect.dec (id : CtMetric) : Effect := .metricSub id 1

/-- Effects that make or use keys, or bind something to a session. -/
def Effect.keyed : Effect → Bool
  | .aeadEncrypt .. | .deriveSession .. | .deriveData .. | .workAccept .. | .startSend ..
  | .startRecv .. | .readySend .. | .readyRecv .. | .macSend .. | .macCheck .. => true
  | _ => false

/-- The keyed effects of a trace. -/
def keyed (es : List Effect) : List Effect := es.filter Effect.keyed

@[simp] theorem keyed_nil : keyed [] = [] := rfl

theorem keyed_append (es es' : List Effect) : keyed (es ++ es') = keyed es ++ keyed es' :=
  List.filter_append ..

theorem keyed_eq_nil {es : List Effect} (h : ∀ e ∈ es, e.keyed = false) : keyed es = [] :=
  List.filter_eq_nil_iff.mpr fun e he => by simp [h e he]

/-- Effects that open or close a socket. -/
def Effect.onSocket : Effect → Bool
  | .socketOpen _ | .socketClose _ => true
  | _ => false

/-- The opens and closes of a trace. -/
def sockets (es : List Effect) : List Effect := es.filter Effect.onSocket

theorem sockets_append (es es' : List Effect) : sockets (es ++ es') = sockets es ++ sockets es' :=
  List.filter_append ..

theorem sockets_eq_nil {es : List Effect} (h : ∀ e ∈ es, e.onSocket = false) : sockets es = [] :=
  List.filter_eq_nil_iff.mpr fun e he => by simp [h e he]

/-! ## Assumptions on a run -/

/-- Every box opened in the run was sealed in the run, under the same key and
with the same sequence number and header. -/
def Authentic {κ : Type} (tr : List (κ × Effect)) : Prop :=
  ∀ e call plain, (e, Effect.aeadDecrypt call (some plain)) ∈ tr →
    ∃ e' call' plain', (e', Effect.aeadEncrypt call' plain') ∈ tr ∧ call'.key = call.key ∧
      call'.sequence = call.sequence ∧ call'.ad = call.ad ∧ call'.box = call.box

end Ctunnel
