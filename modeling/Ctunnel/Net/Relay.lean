import Ctunnel.Effect
import Ctunnel.Lib.Traced
import Ctunnel.Net.ProxyProtocol
import Ctunnel.Util.Ring

/-!
# The stream relay (`src/net/relay.c`)

A relay copies between a *direct* socket (the external or local application)
and a *work* socket (the tunnel), through the rings `to_direct` and `to_work`.
An encrypted relay turns every read from the direct socket into one DATA record
and collects work-side bytes in `work_input` until complete records can be
opened.

What the operating system decides (how many bytes a `send` takes, what a `recv`
returns, whether `malloc` succeeds) is an argument of the functions below. A
function that returns `0` or `-1` and updates the relay in place is an
`Outcome`.
-/

namespace Ctunnel

open Lib

/-- `ct_relay`. -/
structure CtRelay where
  direct : Socket
  work : Socket
  closed : Bool
  directEof : Bool
  workEof : Bool
  isClient : Bool
  streamAccounted : Bool
  proxyHeaderPending : Bool
  proxyHeaderRemaining : Nat
  accountedBufferBytes : Nat
  encrypted : Bool
  cipher : CtCipher
  sendKey : Octets 32
  recvKey : Octets 32
  sendNonce : Octets 16
  recvNonce : Octets 16
  sendSeq : UInt64
  recvSeq : UInt64
  workInput : CtRing
  toDirect : CtRing
  toWork : CtRing

/-- `memset(r, 0, sizeof *r)` with the sockets and the role set. -/
def CtRelay.zero (direct work : Socket) (isClient : Bool) : CtRelay where
  direct := direct
  work := work
  closed := false
  directEof := false
  workEof := false
  isClient := isClient
  streamAccounted := false
  proxyHeaderPending := false
  proxyHeaderRemaining := 0
  accountedBufferBytes := 0
  encrypted := false
  cipher := .none
  sendKey := .replicate 32 0
  recvKey := .replicate 32 0
  sendNonce := .replicate 16 0
  recvNonce := .replicate 16 0
  sendSeq := 0
  recvSeq := 0
  workInput := .freed
  toDirect := .freed
  toWork := .freed

/-- The ring with the given name. -/
def CtRelay.ring (r : CtRelay) : RingId → CtRing
  | .toDirect => r.toDirect
  | .toWork => r.toWork
  | .workInput => r.workInput

/-- Replace the ring with the given name. -/
def CtRelay.setRing (r : CtRelay) : RingId → CtRing → CtRelay
  | .toDirect, q => { r with toDirect := q }
  | .toWork, q => { r with toWork := q }
  | .workInput, q => { r with workInput := q }

abbrev RelayOutcome := Outcome Effect CtRelay

/-! ## The operating system's part -/

/-- What `send` returns. -/
inductive SendResult
  | sent (n : Nat)
  | wouldBlock
  | failed
  deriving DecidableEq

/-- What `recv` returns. -/
inductive RecvResult
  | data (bytes : Bytes)
  | eof
  | wouldBlock
  | failed
  deriving DecidableEq

/-- `recv` into a buffer of `cap` bytes: at most `cap` bytes, and no bytes at
all means end of file. -/
def RecvResult.into (res : RecvResult) (cap : Nat) : RecvResult :=
  match res with
  | .data bytes => if (bytes.take cap).isEmpty then .eof else .data (bytes.take cap)
  | other => other

theorem RecvResult.into_data {bytes : Bytes} {cap : Nat} (hsome : bytes ≠ [])
    (hcap : bytes.length ≤ cap) : (RecvResult.data bytes).into cap = .data bytes := by
  simp [RecvResult.into, List.take_of_length_le hcap, hsome]

/-- The results of the socket calls of one `ct_relay_process`. -/
structure RelayIo where
  send : SendResult
  recv : RecvResult

/-- An event mask (`CT_EV_READ`, `CT_EV_WRITE`, `CT_EV_ERROR`, `CT_EV_HANGUP`). -/
structure EvMask where
  read : Bool
  write : Bool
  error : Bool
  hangup : Bool
  deriving DecidableEq

/-! ## Rings and metrics -/

/-- `append`: succeeds only if the ring takes all of `src`. -/
def append (ring : RingId) (src : Bytes) (r : CtRelay) : RelayOutcome :=
  let w := ctRingWrite (r.ring ring) src
  ⟨r.setRing ring w.1, w.2 == src.length, [.append ring src w.2]⟩

theorem append_of_room {ring : RingId} {src : Bytes} {r : CtRelay}
    (h : src.length ≤ (r.ring ring).room) :
    append ring src r =
      ⟨r.setRing ring (ctRingWrite (r.ring ring) src).1, true,
        [.append ring src src.length]⟩ := by
  simp [append, Nat.min_eq_left h]

theorem append_of_no_room {ring : RingId} {src : Bytes} {r : CtRelay}
    (h : (r.ring ring).room < src.length) :
    append ring src r =
      ⟨r.setRing ring (ctRingWrite (r.ring ring) src).1, false,
        [.append ring src (r.ring ring).room]⟩ := by
  simp only [append, ctRingWrite_taken, Nat.min_eq_right (Nat.le_of_lt h)]
  congr 1
  simp
  omega

/-- `buffered_bytes`. -/
def bufferedBytes (b : Build) (r : CtRelay) : Nat :=
  r.toDirect.len + r.toWork.len + if b.dataEncryption then r.workInput.len else 0

/-- `sync_buffer_metric`. -/
def syncBufferMetric (b : Build) (r : CtRelay) : RelayOutcome :=
  let now := bufferedBytes b r
  .emit { r with accountedBufferBytes := now }
    [if now ≥ r.accountedBufferBytes then
      .metricAdd .bufferBytesCurrent (now - r.accountedBufferBytes)
     else .metricSub .bufferBytesCurrent (r.accountedBufferBytes - now)]

/-- `metric_bytes`. -/
def metricBytes (r : CtRelay) (source : Socket) (n : Nat) : Effect :=
  let directToWork := source == r.direct
  let c2s := if r.isClient then directToWork else !directToWork
  .metricAdd (if c2s then .bytesC2sTotal else .bytesS2cTotal) n

/-! ## Opening and closing -/

/-- `ct_relay_close`. -/
def ctRelayClose (b : Build) (r : CtRelay) : RelayOutcome :=
  let accounting : List Effect :=
    if !r.closed && r.streamAccounted then
      (syncBufferMetric b r).effects ++
        [.metricSub .bufferBytesCurrent (bufferedBytes b r), .inc .streamsClosedTotal,
          .dec .activeStreams, .dec .workActive]
    else []
  let sockets : List Effect :=
    if !r.closed then [.socketClose r.direct, .socketClose r.work] else []
  .emit
    { r with
      closed := true
      accountedBufferBytes :=
        if !r.closed && r.streamAccounted then 0 else r.accountedBufferBytes
      streamAccounted := if r.closed then r.streamAccounted else false
      sendKey := if b.dataEncryption then .replicate 32 0 else r.sendKey
      recvKey := if b.dataEncryption then .replicate 32 0 else r.recvKey
      workInput := if b.dataEncryption then .freed else r.workInput
      toDirect := .freed
      toWork := .freed }
    (accounting ++ sockets)

/-- A failed `ct_relay_init` closes what it was given. -/
def relayInitFailed (b : Build) (r : CtRelay) (before : List Effect) : RelayOutcome :=
  .fail (ctRelayClose b r).state (before ++ (ctRelayClose b r).effects)

/-- The three `malloc`s of `ct_relay_init`, in order. -/
structure RelayAlloc where
  toDirect : Bool
  toWork : Bool
  workInput : Bool

/-- `ct_ring_init(&ring, CT_IO_BUFFER_SIZE)`. -/
def relayRing (b : Build) (alloc : Bool) : Option CtRing :=
  ctRingInit alloc b.streamBufferSize (Nat.lt_of_lt_of_le (by omega) b.streamBufferSize_range.1)

/-- The direction a relay end sends in; it receives in the other one. -/
def sendDirection (isClient : Bool) : Direction := if isClient then .c2s else .s2c

def Direction.opposite : Direction → Direction
  | .c2s => .s2c
  | .s2c => .c2s

/-- The rings and the keys of `ct_relay_init`; failure leaves what was set up
so far. -/
def relayInitBuffers (b : Build) (m : Monocypher) (alloc : RelayAlloc)
    (cipher : CtCipher) (master : Octets 32) (c : StreamContext) (r : CtRelay) : RelayOutcome :=
  if b.dataEncryption then
    let r := { r with encrypted := c.mode == .required, cipher := cipher }
    match relayRing b alloc.toDirect with
    | none => .fail r []
    | some toDirect =>
        let r := { r with toDirect := toDirect }
        match relayRing b alloc.toWork with
        | none => .fail r []
        | some toWork =>
            let r := { r with toWork := toWork }
            match relayRing b alloc.workInput with
            | none => .fail r []
            | some workInput =>
                let r := { r with workInput := workInput }
                if r.encrypted then
                  match ctDeriveData b m master c (sendDirection r.isClient),
                      ctDeriveData b m master c (sendDirection r.isClient).opposite with
                  | some (sendKey, sendNonce), some (recvKey, recvNonce) =>
                      .done { r with sendKey, sendNonce, recvKey, recvNonce }
                  | _, _ => .fail r []
                else .done r
  else if c.mode ≠ .disabled then .fail r []
  else
    match relayRing b alloc.toDirect with
    | none => .fail r []
    | some toDirect =>
        let r := { r with toDirect := toDirect }
        match relayRing b alloc.toWork with
        | none => .fail r []
        | some toWork => .done { r with toWork := toWork }

/-- The PROXY header of `ct_relay_init`, queued before any application byte. -/
def relayInitProxy (b : Build) (metadata : Option CtStreamMetadata) (r : CtRelay) : RelayOutcome :=
  match metadata with
  | some md =>
      if b.proxyProtocol && r.isClient && md.proxyProtocol != .off then
        match ctProxyProtocolBuild b ctProxyProtocolMaxHeader (some md) with
        | none => .fail r [.inc .proxyProtocolHeaderFailuresTotal]
        | some header =>
            let o := append .toDirect header r
            if o.ok then
              .emit { o.state with proxyHeaderPending := true
                                   proxyHeaderRemaining := header.length }
                (o.effects ++ [.inc (if md.proxyProtocol = .v1
                  then .proxyProtocolV1ConnectionsTotal else .proxyProtocolV2ConnectionsTotal)])
            else .fail o.state (o.effects ++ [.inc .proxyProtocolHeaderFailuresTotal])
      else .emit r (if r.isClient then [.inc .proxyProtocolDisabledConnectionsTotal] else [])
  | none => .emit r (if r.isClient then [.inc .proxyProtocolDisabledConnectionsTotal] else [])

/-- `ct_relay_init`; the data mode is part of the stream context. -/
def ctRelayInit (b : Build) (m : Monocypher) (alloc : RelayAlloc) (direct work : Socket)
    (client : Bool) (cipher : CtCipher) (master : Octets 32)
    (c : StreamContext) (metadata : Option CtStreamMetadata) : RelayOutcome :=
  let o := (relayInitBuffers b m alloc cipher master c (.zero direct work client)).andThen
    (relayInitProxy b metadata)
  if o.ok then
    .emit { o.state with streamAccounted := true }
      (o.effects ++ [.inc .streamsOpenedTotal, .inc .activeStreams, .inc .workActive])
  else relayInitFailed b o.state o.effects

/-- What a successful `ct_relay_init` hands to its caller. -/
structure FreshRelay (b : Build) (m : Monocypher) (direct work : Socket) (client : Bool)
    (cipher : CtCipher) (master : Octets 32) (c : StreamContext) (r : CtRelay) : Prop where
  isOpen : r.closed = false
  direct : r.direct = direct
  work : r.work = work
  encrypted : r.encrypted = (b.dataEncryption && c.mode == .required)
  available : c.mode = .required → b.dataEncryption = true
  sendSeq : r.sendSeq = 0
  recvSeq : r.recvSeq = 0
  toWork : r.toWork.len = 0 ∧ r.toWork.cap = b.streamBufferSize
  toDirect : r.toDirect.cap = b.streamBufferSize
  workInput : r.workInput.len = 0 ∧
    (b.dataEncryption = true → r.workInput.cap = b.streamBufferSize)
  keys : r.encrypted = true → r.cipher = cipher ∧
    ctDeriveData b m master c (sendDirection client) = some (r.sendKey, r.sendNonce) ∧
    ctDeriveData b m master c (sendDirection client).opposite = some (r.recvKey, r.recvNonce)

/-- A relay whose stream requires encryption has it. -/
theorem FreshRelay.required {b : Build} {m : Monocypher} {direct work : Socket} {client : Bool}
    {cipher : CtCipher} {master : Octets 32} {c : StreamContext} {r : CtRelay}
    (h : FreshRelay b m direct work client cipher master c r) (hmode : c.mode = .required) :
    r.encrypted = true := by
  rw [h.encrypted, h.available hmode, hmode]
  rfl

theorem relayRing_some {b : Build} {alloc : Bool} {q : CtRing} (h : relayRing b alloc = some q) :
    q.len = 0 ∧ q.cap = b.streamBufferSize :=
  (ctRingInit_queue h).2

section Init

variable {b : Build} {m : Monocypher} {alloc : RelayAlloc} {cipher : CtCipher}
  {master : Octets 32} {c : StreamContext} {direct work : Socket} {client : Bool}

theorem relayInitBuffers_ends (tr : List Effect) :
    (relayInitBuffers b m alloc cipher master c (.zero direct work client)).Ends tr
      (fun r _ => FreshRelay b m direct work client cipher master c r)
      (fun _ _ => True) := by
  unfold relayInitBuffers
  by_cases hb : b.dataEncryption = true
  · rw [if_pos hb]
    dsimp only
    split
    · exact .fail trivial
    · rename_i toDirect hd
      split
      · exact .fail trivial
      · rename_i toWork hw
        split
        · exact .fail trivial
        · rename_i workInput hi
          have hfresh : ∀ sendKey sendNonce recvKey recvNonce,
              (c.mode = .required →
                ctDeriveData b m master c (sendDirection client) = some (sendKey, sendNonce) ∧
                ctDeriveData b m master c (sendDirection client).opposite =
                  some (recvKey, recvNonce)) →
              FreshRelay b m direct work client cipher master c
                { CtRelay.zero direct work client with
                  encrypted := c.mode == .required
                  cipher, toDirect, toWork, workInput, sendKey, sendNonce, recvKey, recvNonce } := by
            intro sendKey sendNonce recvKey recvNonce hkeys
            exact
              { isOpen := rfl
                direct := rfl
                work := rfl
                encrypted := by simp [hb]
                available := fun _ => hb
                sendSeq := rfl
                recvSeq := rfl
                toWork := relayRing_some hw
                toDirect := (relayRing_some hd).2
                workInput := ⟨(relayRing_some hi).1, fun _ => (relayRing_some hi).2⟩
                keys := fun henc => ⟨rfl, hkeys (by simpa using henc)⟩ }
          split
          · split
            · rename_i sendKey sendNonce recvKey recvNonce hsend hrecv
              exact .done (hfresh _ _ _ _ fun _ => ⟨hsend, hrecv⟩)
            · exact .fail trivial
          · rename_i hmode
            exact .done (hfresh _ _ _ _ fun h => absurd (by simp [h]) hmode)
  · rw [if_neg hb]
    split
    · exact .fail trivial
    · rename_i hdisabled
      have hmode : c.mode = .disabled := Decidable.not_not.mp hdisabled
      dsimp only
      split
      · exact .fail trivial
      · rename_i toDirect hd
        split
        · exact .fail trivial
        · rename_i toWork hw
          refine .done ?_
          exact
            { isOpen := rfl
              direct := rfl
              work := rfl
              encrypted := by simp [hb, CtRelay.zero]
              available := fun h => absurd (hmode.symm.trans h) (by decide)
              sendSeq := rfl
              recvSeq := rfl
              toWork := relayRing_some hw
              toDirect := (relayRing_some hd).2
              workInput := ⟨rfl, fun h => absurd h hb⟩
              keys := fun h => absurd h (by simp [CtRelay.zero]) }

/-- Queueing the PROXY header fills no ring but `to_direct`. -/
theorem relayInitProxy_ends (metadata : Option CtStreamMetadata) {r : CtRelay} (tr : List Effect)
    (h : FreshRelay b m direct work client cipher master c r) :
    (relayInitProxy b metadata r).Ends tr
      (fun r _ => FreshRelay b m direct work client cipher master c r)
      (fun _ _ => True) := by
  unfold relayInitProxy
  split
  · split
    · split
      · exact .fail trivial
      · dsimp only
        split
        · refine .emit ?_
          exact { h with toDirect := (ctRingWrite_cap _ _).trans h.toDirect }
        · exact .fail trivial
    · exact .emit h
  · exact .emit h

/-- `ct_relay_init` hands out a fresh relay or a closed one. -/
theorem ctRelayInit_ends (metadata : Option CtStreamMetadata) (tr : List Effect) :
    (ctRelayInit b m alloc direct work client cipher master c metadata).Ends tr
      (fun r _ => FreshRelay b m direct work client cipher master c r)
      (fun r _ => r.closed = true) := by
  unfold ctRelayInit
  dsimp only
  have hinit : ((relayInitBuffers b m alloc cipher master c (.zero direct work client)).andThen
      (relayInitProxy b metadata)).Ends tr
        (fun r _ => FreshRelay b m direct work client cipher master c r)
        (fun _ _ => True) :=
    (relayInitBuffers_ends tr).andThen fun r tr h => relayInitProxy_ends metadata tr h
  split
  · rename_i hok
    exact .emit { hinit.of_ok hok with }
  · exact .fail rfl

theorem ctRelayInit_fresh {metadata : Option CtStreamMetadata}
    (hok : (ctRelayInit b m alloc direct work client cipher master c metadata).ok = true) :
    FreshRelay b m direct work client cipher master c
      (ctRelayInit b m alloc direct work client cipher master c metadata).state := by
  have hinit : (ctRelayInit b m alloc direct work client cipher master c metadata).Ends [] _ _ :=
    ctRelayInit_ends metadata []
  exact hinit.of_ok hok

theorem ctRelayInit_closed {metadata : Option CtStreamMetadata}
    (hok : (ctRelayInit b m alloc direct work client cipher master c metadata).ok = false) :
    (ctRelayInit b m alloc direct work client cipher master c metadata).state.closed = true := by
  have hinit : (ctRelayInit b m alloc direct work client cipher master c metadata).Ends [] _ _ :=
    ctRelayInit_ends metadata []
  exact hinit.of_not_ok hok

/-- Without a PROXY header a new relay has nothing to send, and neither side has
ended. -/
theorem ctRelayInit_blank
    (hok : (ctRelayInit b m alloc direct work client cipher master c none).ok = true) :
    (ctRelayInit b m alloc direct work client cipher master c none).state.directEof = false ∧
      (ctRelayInit b m alloc direct work client cipher master c none).state.workEof = false ∧
      (ctRelayInit b m alloc direct work client cipher master c none).state.toDirect.len = 0 := by
  have hbuffers : (relayInitBuffers b m alloc cipher master c (.zero direct work client)).Ends []
      (fun r _ => r.directEof = false ∧ r.workEof = false ∧ r.toDirect.len = 0)
      (fun _ _ => True) := by
    unfold relayInitBuffers
    split
    · dsimp only
      split
      · exact .fail trivial
      · rename_i toDirect hd
        have hblank := (relayRing_some hd).1
        split
        · exact .fail trivial
        · split
          · exact .fail trivial
          · split
            · split
              · exact .done ⟨rfl, rfl, hblank⟩
              · exact .fail trivial
            · exact .done ⟨rfl, rfl, hblank⟩
    · split
      · exact .fail trivial
      · split
        · exact .fail trivial
        · rename_i toDirect hd
          dsimp only
          split
          · exact .fail trivial
          · exact .done ⟨rfl, rfl, (relayRing_some hd).1⟩
  cases hb : (relayInitBuffers b m alloc cipher master c (.zero direct work client)).ok with
  | false =>
      unfold ctRelayInit at hok
      rw [Outcome.andThen_of_not_ok _ hb] at hok
      dsimp only at hok
      rw [hb] at hok
      exact absurd hok (by simp [relayInitFailed])
  | true =>
      have hblank := hbuffers.of_ok hb
      unfold ctRelayInit
      rw [Outcome.andThen_of_ok _ hb]
      exact hblank

theorem ctDeriveData_some (b : Build) (m : Monocypher) (master : Octets 32) {c : StreamContext}
    (dir : Direction) (hid : c.serviceId.length ≤ b.maxServiceIdLength) :
    ∃ key nonce, ctDeriveData b m master c dir = some (key, nonce) := by
  unfold ctDeriveData
  rw [if_neg (by omega)]
  simp only [derive_eq m master _ _ (show 32 ≤ 64 by omega),
    derive_eq m master _ _ (show 16 ≤ 64 by omega), Option.bind_eq_bind, Option.bind_some,
    Option.pure_def]
  exact ⟨_, _, rfl⟩

/-- With memory, a service id of this build and a mode it supports, a relay
without PROXY header is opened. -/
theorem ctRelayInit_ok (halloc : alloc.toDirect = true ∧ alloc.toWork = true ∧
      alloc.workInput = true) (hid : c.serviceId.length ≤ b.maxServiceIdLength)
    (havailable : c.mode = .required → b.dataEncryption = true) :
    (ctRelayInit b m alloc direct work client cipher master c none).ok = true := by
  have hring : ∃ q, relayRing b true = some q := ⟨_, rfl⟩
  obtain ⟨q, hq⟩ := hring
  have hbuffers : (relayInitBuffers b m alloc cipher master c (.zero direct work client)).ok =
      true := by
    unfold relayInitBuffers
    rw [halloc.1, halloc.2.1, halloc.2.2, hq]
    split
    · dsimp only
      split
      · obtain ⟨key, nonce, hsend⟩ := ctDeriveData_some b m master (sendDirection client) hid
        obtain ⟨key', nonce', hrecv⟩ :=
          ctDeriveData_some b m master (sendDirection client).opposite hid
        simp only [CtRelay.zero, hsend, hrecv]
        rfl
      · rfl
    · rename_i hb
      rw [if_neg]
      · rfl
      · intro hmode
        have hreq : c.mode = .required := by
          cases hm : c.mode with
          | required => rfl
          | disabled => exact absurd hm hmode
        exact hb (havailable hreq)
  unfold ctRelayInit
  rw [Outcome.andThen_of_ok _ hbuffers]
  rfl

end Init

/-! ## Interest -/

/-- `ct_relay_events`. The subtractions do not underflow: an open relay has
rings of `CT_IO_BUFFER_SIZE ≥ 4096` bytes. -/
def ctRelayEvents (b : Build) (r : CtRelay) (fd : Socket) : EvMask :=
  if r.closed then ⟨false, false, false, false⟩
  else if fd = r.direct then
    ⟨!r.directEof && decide (r.toWork.len < r.toWork.cap - b.chunk - 32),
      decide (r.toDirect.len ≠ 0), false, false⟩
  else if fd = r.work then
    ⟨!r.workEof &&
      (if b.dataEncryption then decide (r.workInput.len < r.workInput.cap - b.chunk - 32)
       else decide (r.toDirect.len < r.toDirect.cap - b.chunk)),
      decide (r.toWork.len ≠ 0), false, false⟩
  else ⟨false, false, false, false⟩

/-! ## Writing -/

/-- `flush`, on the ring with the given name. -/
def flush (ring : RingId) (res : SendResult) (r : CtRelay) : RelayOutcome :=
  let p := ctRingPeek (r.ring ring)
  if p.isEmpty then .done r
  else
    match res with
    | .sent n =>
        let z := min n p.length
        if z = 0 then .fail r []
        else .emit (r.setRing ring (ctRingConsume (r.ring ring) z)) [.sent ring (p.take z)]
    | .wouldBlock => .done r
    | .failed => .fail r []

/-- What `flush` can do: nothing, fail, or send a front part of the ring. -/
theorem flush_cases (ring : RingId) (res : SendResult) (r : CtRelay) :
    flush ring res r = .done r ∨ flush ring res r = .fail r [] ∨
      ∃ z, flush ring res r =
        .emit (r.setRing ring (ctRingConsume (r.ring ring) z))
          [.sent ring ((r.ring ring).queue.take z)] := by
  unfold flush
  dsimp only
  split
  · exact .inl rfl
  · cases res with
    | wouldBlock => exact .inl rfl
    | failed => exact .inr (.inl rfl)
    | sent n =>
        dsimp only
        split
        · exact .inr (.inl rfl)
        · refine .inr (.inr ⟨min n (ctRingPeek (r.ring ring)).length, ?_⟩)
          have hfront : (ctRingPeek (r.ring ring)).take (min n (ctRingPeek (r.ring ring)).length) =
              (r.ring ring).queue.take (min n (ctRingPeek (r.ring ring)).length) := by
            generalize hz : min n (ctRingPeek (r.ring ring)).length = z
            rw [ctRingPeek_queue (r.ring ring), List.take_take, Nat.min_eq_left (by omega)]
          rw [hfront]

/-- The ring `ct_relay_process` flushes for a socket. -/
def CtRelay.flushRing (r : CtRelay) (fd : Socket) : RingId :=
  if fd = r.direct then .toDirect else .toWork

/-- `flush_relay`. -/
def flushRelay (fd : Socket) (res : SendResult) (r : CtRelay) : RelayOutcome :=
  let ring := r.flushRing fd
  let o := flush ring res r
  if r.proxyHeaderPending && decide (fd = r.direct) then
    if o.ok then
      let consumed := (r.ring ring).len - (o.state.ring ring).len
      if consumed ≥ r.proxyHeaderRemaining then
        .emit { o.state with proxyHeaderRemaining := 0, proxyHeaderPending := false } o.effects
      else
        .emit { o.state with proxyHeaderRemaining := r.proxyHeaderRemaining - consumed } o.effects
    else .fail o.state (o.effects ++ [.inc .proxyProtocolLocalWriteFailuresTotal])
  else o

/-- `flush_relay` is `flush` with bookkeeping for the PROXY header. -/
theorem flushRelay_cases (fd : Socket) (res : SendResult) (r : CtRelay) :
    let o := flush (r.flushRing fd) res r
    (o.ok = true ∧ ∃ pending remaining, flushRelay fd res r =
        .emit { o.state with proxyHeaderPending := pending, proxyHeaderRemaining := remaining }
          o.effects) ∨
      (o.ok = false ∧ ∃ es, flushRelay fd res r = .fail o.state (o.effects ++ es) ∧
        ∀ e ∈ es, e = .inc .proxyProtocolLocalWriteFailuresTotal) := by
  intro o
  have ho : flush (r.flushRing fd) res r = o := rfl
  clear_value o
  cases hok : o.ok with
  | true =>
      refine .inl ⟨rfl, ?_⟩
      simp only [flushRelay, ho, hok, if_true]
      split
      · split
        · exact ⟨false, 0, rfl⟩
        · exact ⟨o.state.proxyHeaderPending, _, rfl⟩
      · exact ⟨o.state.proxyHeaderPending, o.state.proxyHeaderRemaining, by
          cases o
          simp only at hok
          subst hok
          rfl⟩
  | false =>
      refine .inr ⟨rfl, ?_⟩
      simp only [flushRelay, ho, hok, Bool.false_eq_true, if_false]
      split
      · exact ⟨_, rfl, by simp⟩
      · refine ⟨[], ?_, by simp⟩
        cases o
        simp only at hok
        subst hok
        simp [Outcome.fail]

/-! ## Records -/

/-- The 12-byte header of a DATA record. -/
def recordHeader (length : UInt32) (sequence : UInt64) : Octets 12 :=
  ⟨ctPutU32 length ++ ctPutU64 sequence, by simp⟩

/-- The receiver's view of a header: its length is in range and its number is the
next one. -/
theorem recordHeader_decode (n : UInt32) {prev : UInt64} {limit : Nat}
    (hlimit : limit ≤ 0xffffffff - ctAeadTag) (hprev : prev ≠ uint64Max) :
    ctDataRecordHeaderDecode (recordHeader n (prev + 1)) limit prev =
      if n.toNat < ctAeadTag ∨ n.toNat > limit + ctAeadTag then none else some (n, prev + 1) := by
  have hlen : ctGetU32 (recordHeader n (prev + 1)).toList 0 = n := ctGetU32_put n _
  have hseq : ctGetU64 (recordHeader n (prev + 1)).toList 4 = prev + 1 := by
    have hput := ctGetU64_put (prev + 1) []
    rw [List.append_nil] at hput
    show ctGetU64 (ctPutU32 n ++ ctPutU64 (prev + 1)) 4 = prev + 1
    rw [ctGetU64, slice_append_right (by simp), ctPutU32_length]
    exact hput
  have hlimit' : ¬ limit > 0xffffffff - ctAeadTag := by omega
  simp only [ctDataRecordHeaderDecode, hlen, hseq, hprev, hlimit', ne_eq, not_true_eq_false,
    or_false, false_or]

/-- `encrypt_chunk`. -/
def encryptChunk (m : Monocypher) (p : Bytes) (r : CtRelay) : RelayOutcome :=
  if r.sendSeq = uint64Max then .fail r []
  else
    let seq := r.sendSeq + 1
    let r := { r with sendSeq := seq }
    let head := (recordHeader (UInt32.ofNat (p.length + ctAeadTag)) seq).toList
    match ctAeadEncrypt m r.cipher r.sendKey r.sendNonce seq head p with
    | none => .fail r [.inc .aeadFailuresTotal]
    | some box =>
        (Outcome.emit r [.aeadEncrypt ⟨r.sendKey, r.sendNonce, seq, head, box⟩ p]).andThen
          (append .toWork (head ++ box))

/-- One complete record of `n` bytes after its header: the body of the loop of
`decrypt_ready` past its tests. -/
def decryptRecord (m : Monocypher) (n : UInt32) (seq : UInt64) (r : CtRelay) : RelayOutcome :=
  let h := ctRingRead r.workInput 12
  let box := ctRingRead h.1 n.toNat
  let r := { r with workInput := box.1 }
  let call : AeadCall := ⟨r.recvKey, r.recvNonce, seq, h.2, box.2⟩
  match ctAeadDecrypt m r.cipher r.recvKey r.recvNonce seq h.2 box.2 with
  | none => .fail r [.aeadDecrypt call none, .inc .aeadFailuresTotal]
  | some plain =>
      ((Outcome.emit r [.aeadDecrypt call (some plain)]).andThen (append .toDirect plain)).andThen
        fun r => .done { r with recvSeq := seq }

/-- The call `decryptRecord` makes, in terms of the queued bytes. -/
def CtRelay.recordCall (r : CtRelay) (n : UInt32) (seq : UInt64) : AeadCall :=
  ⟨r.recvKey, r.recvNonce, seq, r.workInput.queue.take 12,
    (r.workInput.queue.drop 12).take n.toNat⟩

theorem decryptRecord_rejected {m : Monocypher} {n : UInt32} {seq : UInt64} {r : CtRelay}
    (h : ctAeadDecrypt m r.cipher r.recvKey r.recvNonce seq (r.recordCall n seq).ad
      (r.recordCall n seq).box = none) :
    decryptRecord m n seq r =
      .fail { r with workInput := (ctRingRead (ctRingRead r.workInput 12).1 n.toNat).1 }
        [.aeadDecrypt (r.recordCall n seq) none, .inc .aeadFailuresTotal] := by
  simp only [CtRelay.recordCall] at h
  simp only [decryptRecord, ctRingRead_bytes, ctRingRead_queue, h, CtRelay.recordCall]

/-- The room test of `decrypt_ready` is about the plaintext. -/
theorem CtRelay.recordCall_plain {m : Monocypher} {n : UInt32} {seq : UInt64} {r : CtRelay}
    {plain : Bytes} (hlen : 12 + n.toNat ≤ r.workInput.len)
    (h : ctAeadDecrypt m r.cipher r.recvKey r.recvNonce seq (r.recordCall n seq).ad
      (r.recordCall n seq).box = some plain) : plain.length = n.toNat - ctAeadTag := by
  have hqlen : r.workInput.queue.length = r.workInput.len := r.workInput.queue_length
  have hbox : (r.recordCall n seq).box.length = n.toNat := by
    simp only [CtRelay.recordCall, List.length_take, List.length_drop, hqlen]
    omega
  rw [ctAeadDecrypt_length h, hbox]

/-- A record whose plaintext has room is delivered. -/
theorem decryptRecord_opened {m : Monocypher} {n : UInt32} {seq : UInt64} {r : CtRelay}
    {plain : Bytes}
    (h : ctAeadDecrypt m r.cipher r.recvKey r.recvNonce seq (r.recordCall n seq).ad
      (r.recordCall n seq).box = some plain)
    (hroom : plain.length ≤ r.toDirect.room) :
    decryptRecord m n seq r =
      .emit
        { r with
          workInput := (ctRingRead (ctRingRead r.workInput 12).1 n.toNat).1
          toDirect := (ctRingWrite r.toDirect plain).1
          recvSeq := seq }
        [.aeadDecrypt (r.recordCall n seq) (some plain),
          .append .toDirect plain plain.length] := by
  simp only [CtRelay.recordCall] at h
  simp only [decryptRecord, ctRingRead_bytes, ctRingRead_queue, h, CtRelay.recordCall]
  rw [Outcome.emit_andThen, append_of_room hroom]
  rfl

/-- The loop of `decrypt_ready`, at most `fuel` times. -/
def decryptLoop (b : Build) (m : Monocypher) : Nat → CtRelay → RelayOutcome
  | 0, r => .done r
  | fuel + 1, r =>
      if r.workInput.len < 12 then .done r
      else
        -- the header is read from a copy of the ring struct
        let h := sliceOctets (ctRingRead r.workInput 12).2 0 12
        match ctDataRecordHeaderDecode h b.chunk r.recvSeq with
        | none => .fail r [.inc .aeadFailuresTotal]
        | some (n, seq) =>
            if r.workInput.len < 12 + n.toNat then .done r
            else if r.toDirect.room < n.toNat - ctAeadTag then .done r
            else (decryptRecord m n seq r).andThen (decryptLoop b m fuel)

/-- `decrypt_ready`. Every iteration that continues takes at least 28 bytes from
`work_input`, so its fill level bounds the number of iterations. -/
def decryptReady (b : Build) (m : Monocypher) (r : CtRelay) : RelayOutcome :=
  decryptLoop b m r.workInput.len r

/-- An iteration takes bytes from `work_input`. -/
theorem decryptRecord_shrinks {m : Monocypher} {n : UInt32} {seq : UInt64} {r : CtRelay}
    (h : 12 ≤ r.workInput.len) (hok : (decryptRecord m n seq r).ok = true) :
    (decryptRecord m n seq r).state.workInput.len < r.workInput.len := by
  have hread : (ctRingRead (ctRingRead r.workInput 12).1 n.toNat).1.len < r.workInput.len := by
    simp only [ctRingRead_len]
    omega
  have hends : (decryptRecord m n seq r).Ends []
      (fun r' _ => r'.workInput.len < r.workInput.len) (fun _ _ => True) := by
    simp only [decryptRecord]
    split
    · exact .fail trivial
    · refine Outcome.Ends.andThen (Outcome.Ends.andThen
        (Q := fun r' _ => r'.workInput.len < r.workInput.len)
        (R := fun r' _ => r'.workInput.len < r.workInput.len) (.emit hread) ?_)
        fun r' tr' h' => .done h'
      intro r' tr' h'
      unfold append Outcome.Ends
      split
      · exact h'
      · trivial
  exact hends.of_ok hok

private theorem decryptLoop_short {b : Build} {m : Monocypher} {r : CtRelay}
    (h : r.workInput.len < 12) (fuel : Nat) : decryptLoop b m fuel r = .done r := by
  cases fuel with
  | zero => rfl
  | succ fuel => rw [decryptLoop, if_pos h]

/-- Fuel beyond the fill level of `work_input` changes nothing. -/
theorem decryptLoop_fuel (b : Build) (m : Monocypher) (fuel fuel' : Nat) (r : CtRelay)
    (h : r.workInput.len ≤ fuel) (h' : r.workInput.len ≤ fuel') :
    decryptLoop b m fuel r = decryptLoop b m fuel' r := by
  induction fuel generalizing fuel' r with
  | zero => rw [decryptLoop_short (by omega), decryptLoop_short (by omega)]
  | succ fuel ih =>
      cases fuel' with
      | zero => rw [decryptLoop_short (by omega), decryptLoop_short (by omega)]
      | succ fuel' =>
          unfold decryptLoop
          split
          · rfl
          · dsimp only
            split
            · rfl
            · split
              · rfl
              · split
                · rfl
                · rename_i hlen n seq _ _ _
                  cases hok : (decryptRecord m n seq r).ok with
                  | false => rw [Outcome.andThen_of_not_ok _ hok, Outcome.andThen_of_not_ok _ hok]
                  | true =>
                      have hshrink := decryptRecord_shrinks (by omega) hok
                      rw [Outcome.andThen_of_ok _ hok, Outcome.andThen_of_ok _ hok,
                        ih fuel' _ (by omega) (by omega)]

/-- `decrypt_ready` as the loop of the source: stop on a short or incomplete
record or a full `to_direct`, fail on a bad header, else open the record and go
on. -/
theorem decryptReady_loop (b : Build) (m : Monocypher) (r : CtRelay) :
    decryptReady b m r =
      if r.workInput.len < 12 then .done r
      else
        match ctDataRecordHeaderDecode (sliceOctets (ctRingRead r.workInput 12).2 0 12) b.chunk
            r.recvSeq with
        | none => .fail r [.inc .aeadFailuresTotal]
        | some (n, seq) =>
            if r.workInput.len < 12 + n.toNat then .done r
            else if r.toDirect.room < n.toNat - ctAeadTag then .done r
            else (decryptRecord m n seq r).andThen (decryptReady b m) := by
  rw [decryptReady, decryptLoop_fuel b m _ (r.workInput.len + 1) r (Nat.le_refl _) (by omega)]
  conv_lhs => unfold decryptLoop
  split
  · rfl
  · dsimp only
    split
    · rfl
    · split
      · rfl
      · split
        · rfl
        · rename_i n seq _ _ _
          cases hok : (decryptRecord m n seq r).ok with
          | false => rw [Outcome.andThen_of_not_ok _ hok, Outcome.andThen_of_not_ok _ hok]
          | true =>
              have hshrink := decryptRecord_shrinks (by omega) hok
              rw [Outcome.andThen_of_ok _ hok, Outcome.andThen_of_ok _ hok, decryptReady,
                decryptLoop_fuel b m _ _ _ (by omega) (Nat.le_refl _)]

/-! ## Reading -/

/-- `read_direct`. -/
def readDirect (b : Build) (m : Monocypher) (res : RecvResult) (r : CtRelay) : RelayOutcome :=
  match res.into b.chunk with
  | .data bytes =>
      (Outcome.emit r [.recv .direct bytes, metricBytes r r.direct bytes.length]).andThen
        (if b.dataEncryption && r.encrypted then encryptChunk m bytes else append .toWork bytes)
  | .eof => .done { r with directEof := true }
  | .wouldBlock => .done r
  | .failed => .fail r []

/-- `read_work`. -/
def readWork (b : Build) (m : Monocypher) (res : RecvResult) (r : CtRelay) : RelayOutcome :=
  match res.into (b.chunk + 32) with
  | .data bytes =>
      (Outcome.emit r [.recv .work bytes, metricBytes r r.work bytes.length]).andThen
        (if b.dataEncryption && r.encrypted then
          fun r => (append .workInput bytes r).andThen (decryptReady b m)
         else append .toDirect bytes)
  | .eof => .done { r with workEof := true }
  | .wouldBlock => .done r
  | .failed => .fail r []

/-! ## One event -/

/-- The drain `ct_relay_process` makes after a direct-side flush. -/
def drainRelay (b : Build) (m : Monocypher) (fd : Socket) (r : CtRelay) : RelayOutcome :=
  if decide (fd = r.direct) && r.encrypted && decide (r.workInput.len ≠ 0) then
    decryptReady b m r
  else .done r

/-- `ct_relay_process` up to its last `sync_buffer_metric`. -/
def relayBody (b : Build) (m : Monocypher) (fd : Socket) (ev : EvMask) (io : RelayIo)
    (r : CtRelay) : RelayOutcome :=
  ((((if ev.write then flushRelay fd io.send r else .done r).andThen
      (syncBufferMetric b)).andThen
    fun r => if b.dataEncryption then (drainRelay b m fd r).andThen (syncBufferMetric b)
      else .done r).andThen
    fun r => if ev.read then
        (if fd = r.direct then readDirect b m io.recv r else readWork b m io.recv r)
      else .done r).andThen
    (syncBufferMetric b)

/-- The stages of an event: the flush keeps `I`, the drain leads to `D`, the read
to `J`, and the accounting between them changes nothing. -/
theorem relayBody_stages {b : Build} {m : Monocypher} {fd : Socket} {ev : EvMask} {io : RelayIo}
    {I D J W : CtRelay → List Effect → Prop} (hsync : Triple I (syncBufferMetric b) I W)
    (hflush : ev.write = true → Triple I (flushRelay fd io.send) I W)
    (hdrain : b.dataEncryption = true → Triple I (drainRelay b m fd) D W)
    (hplain : b.dataEncryption = false → ∀ r tr, I r tr → D r tr)
    (hsync' : Triple D (syncBufferMetric b) D W)
    (hread : ev.read = true → Triple D
      (fun r => if fd = r.direct then readDirect b m io.recv r else readWork b m io.recv r) J W)
    (hskip : ev.read = false → ∀ r tr, D r tr → J r tr)
    (hsync'' : Triple J (syncBufferMetric b) J W) :
    Triple I (relayBody b m fd ev io) J W := by
  intro r tr h
  have hfirst : (if ev.write then flushRelay fd io.send r else .done r).Ends tr I W := by
    split
    · rename_i hev
      exact hflush hev r tr h
    · exact .done h
  refine (((hfirst.andThen hsync).andThen (R := D) ?_).andThen (R := J) ?_).andThen hsync''
  · intro r tr h
    split
    · rename_i hb
      exact (hdrain hb r tr h).andThen hsync'
    · rename_i hb
      exact .done (hplain (by simpa using hb) r tr h)
  · intro r tr h
    split
    · rename_i hev
      exact hread hev r tr h
    · rename_i hev
      exact .done (hskip (by simpa using hev) r tr h)

/-- The stages of an event whose flush and drain keep `I`. -/
theorem relayBody_ends {b : Build} {m : Monocypher} {fd : Socket} {ev : EvMask} {io : RelayIo}
    {I J W : CtRelay → List Effect → Prop} (hsync : Triple I (syncBufferMetric b) I W)
    (hflush : ev.write = true → Triple I (flushRelay fd io.send) I W)
    (hdrain : b.dataEncryption = true → Triple I (drainRelay b m fd) I W)
    (hread : ev.read = true → Triple I
      (fun r => if fd = r.direct then readDirect b m io.recv r else readWork b m io.recv r) J W)
    (hskip : ev.read = false → ∀ r tr, I r tr → J r tr)
    (hsync' : Triple J (syncBufferMetric b) J W) :
    Triple I (relayBody b m fd ev io) J W :=
  relayBody_stages hsync hflush hdrain (fun _ _ _ h => h) hsync hread hskip hsync'

/-- The half-closes at the end of `ct_relay_process`. -/
def relayShutdowns (r : CtRelay) : List Effect :=
  (if r.directEof && r.toWork.len == 0 then [.shutdownWrite r.work] else []) ++
    (if r.workEof && r.toDirect.len == 0 then [.shutdownWrite r.direct] else [])

/-- `ct_relay_process`. -/
def ctRelayProcess (b : Build) (m : Monocypher) (fd : Socket) (ev : EvMask) (io : RelayIo)
    (r : CtRelay) : RelayOutcome :=
  if r.closed then .fail r []
  else
    let o := relayBody b m fd ev io r
    if o.ok then
      let es := o.effects ++ relayShutdowns o.state
      if o.state.directEof && o.state.workEof && o.state.toDirect.len == 0 &&
          o.state.toWork.len == 0 then
        .fail (ctRelayClose b o.state).state (es ++ (ctRelayClose b o.state).effects)
      else .emit o.state es
    else
      .fail (ctRelayClose b o.state).state
        (o.effects ++ [.inc .streamsFailedTotal] ++ (ctRelayClose b o.state).effects)

end Ctunnel
