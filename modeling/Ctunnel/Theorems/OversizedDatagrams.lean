import Ctunnel.Client.Session
import Ctunnel.Theorems.DatagramCodec
import Ctunnel.Theorems.ListenerIsolation

/-!
# Oversized datagrams

`server_udp_from_external` and `client_udp_from_local` receive into a buffer of
CONFIG_MAX_UDP_DATAGRAM_SIZE bytes and test the length of what is in it. A datagram
that does not fit is cut before the test, and passes it exactly if the limit of the
service is the size of the buffer (`datagrams_whole_iff`).
-/

namespace Ctunnel

open Lib

variable {b : Build} {m : Monocypher}

/-- A handled datagram is forwarded whole or not at all, and dropped and counted
above the limit. -/
structure WholeOrDropped (b : Build) (limit : Nat) (bytes : Bytes) (es : List Effect) : Prop where
  whole : ∀ stream q, Effect.controlSend CtMsgType.udpDatagram.toByte stream q ∈ es →
    (ctUdpDatagramUnpack b q).map UdpFrame.payload = some bytes
  dropped : limit < bytes.length →
    es = [.inc .udpDatagramsOversizedTotal, .inc .udpDatagramsDroppedTotal]

/-- What forwarding `payload` leaves in the trace. -/
def Effect.Forwards (b : Build) (payload : Bytes) : Effect → Prop
  | .controlSend _ _ q => (ctUdpDatagramUnpack b q).map UdpFrame.payload = some payload
  | .metricAdd id _ => id ≠ .udpDatagramsOversizedTotal
  | _ => True

/-- The other end finds the payload in a packed frame. -/
theorem packed_payload {cap : Nat} {d : UdpFrame} {q : Bytes}
    (h : ctUdpDatagramPack b cap d = some q) :
    (ctUdpDatagramUnpack b q).map UdpFrame.payload = some d.payload := by
  obtain ⟨rfl, hid, hlen, hfamily, hpayload⟩ := ctUdpDatagramPack_eq h
  rw [ctUdpDatagramUnpack_field hid hlen hfamily hpayload]
  rfl

theorem ctControlSend_forwards {payload q : Bytes} {type : UInt8} {stream : UInt64} {io : SendIo}
    (hq : (ctUdpDatagramUnpack b q).map UdpFrame.payload = some payload) :
    Call.Emits (Effect.Forwards b payload) (ctControlSend b m type stream q io) := by
  have hwire : ∀ (fd : Socket) (p : Bytes) (taken : Nat),
      Call.Emits (Effect.Forwards b payload) (sendall fd p taken : Call Effect CtControl Unit) :=
    fun _ _ _ => .bind (.tell (by simp [Effect.Forwards])) fun _ => .check
  refine .bind (.tell (by simpa [Effect.Forwards] using hq)) fun _ => .bind .get fun c => ?_
  refine .bind .check fun _ => .bind .modify fun _ => .bind .check fun _ => ?_
  refine .bind .need fun head => .bind .need fun box => ?_
  refine .bind (.tell (by simp [Effect.Forwards])) fun _ => ?_
  exact .bind (hwire _ _ _) fun _ => .bind (hwire _ _ _) fun _ => .modify

/-- A frame that is packed and sent. -/
theorem packSend_forwards {σ α : Type} {o : Option Bytes} {payload : Bytes}
    (ho : ∀ q, o = some q → (ctUdpDatagramUnpack b q).map UdpFrame.payload = some payload)
    {k : Bytes → Call Effect σ α}
    (hk : ∀ q, (ctUdpDatagramUnpack b q).map UdpFrame.payload = some payload →
      Call.Emits (Effect.Forwards b payload) (k q)) :
    Call.Emits (Effect.Forwards b payload) (Call.need o >>= k) := by
  cases o with
  | some q => exact hk q (ho q rfl)
  | none => exact fun _ _ he => absurd he (by simp [Call.need, Bind.bind, Call.bind])

/-! ## The server -/

theorem serverUdpCreate_forwards {payload : Bytes} {svc : Nat} {peer : CtEndpoint}
    {listener : Socket} {now : UInt64} :
    Call.Emits (Effect.Forwards b payload) (serverUdpCreate b svc peer listener now) := by
  refine .bind .get fun p => .bind (.onFail (by simp [Effect.Forwards]) .check) fun _ => ?_
  refine .bind (.onFail (by simp [Effect.Forwards]) .need) fun i => .bind .modify fun _ => ?_
  exact .bind .modify fun _ => .bind (.tell (by simp [Effect.Forwards])) fun _ => .pure

theorem serverUdpForward_forwards {payload : Bytes} {svc : Nat} {listener : Socket} {now : UInt64}
    {peer : CtEndpoint} {io : SendIo} :
    Call.Emits (Effect.Forwards b payload)
      (serverUdpForward b m svc listener now peer payload io) := by
  refine .bind .get fun p => .bind (.attempt ?_) fun found => ?_
  · cases serverUdpFind b p svc peer with
    | some i => exact .pure
    | none => exact serverUdpCreate_forwards
  · cases found with
    | none => exact .tell (by simp [Effect.Forwards])
    | some i =>
        refine .bind .modify fun _ => .bind .get fun p => .bind (.onFail ?_ ?_) fun _ => ?_
        · simp [Effect.Forwards]
        · refine packSend_forwards (fun q hq => ?_) fun q hq => .zoom (ctControlSend_forwards hq)
          exact packed_payload (d := ⟨0, _, _, _, peer, payload⟩) hq
        · exact .tell (by simp [Effect.Forwards])

/-- A trace that forwards `payload` counts nothing as oversized. -/
theorem forwards_ne {es : List Effect} {payload : Bytes} (h : ∀ e ∈ es, e.Forwards b payload) :
    es ≠ [.inc .udpDatagramsOversizedTotal, .inc .udpDatagramsDroppedTotal] := by
  rintro rfl
  exact h (.inc .udpDatagramsOversizedTotal) (List.mem_cons_self ..) rfl

/-- What both ends do with a datagram: the cut is tested, and dropped or forwarded. -/
theorem wholeOrDropped_iff {limit : Nat} {bytes : Bytes} {es : List Effect}
    (hlimit : limit ≤ b.maxUdpDatagramSize)
    (hlong : limit < (bytes.take b.maxUdpDatagramSize).length →
      es = [.inc .udpDatagramsOversizedTotal, .inc .udpDatagramsDroppedTotal])
    (hshort : (bytes.take b.maxUdpDatagramSize).length ≤ limit →
      ∀ e ∈ es, e.Forwards b (bytes.take b.maxUdpDatagramSize)) :
    WholeOrDropped b limit bytes es ↔ limit < b.maxUdpDatagramSize ∨ bytes.length ≤ limit := by
  rw [List.length_take] at hlong hshort
  constructor
  · intro h
    by_contra hcut
    rw [not_or] at hcut
    exact forwards_ne (hshort (by omega)) (h.dropped (by omega))
  · intro hfits
    by_cases hover : limit < bytes.length
    · have hes := hlong (by omega)
      exact ⟨fun stream q hq => absurd hq (by simp [hes]), fun _ => hes⟩
    · have hforward := hshort (by omega)
      rw [List.take_of_length_le (by omega)] at hforward
      exact ⟨fun stream q hq => hforward _ hq, fun h => absurd h hover⟩

theorem ctUdpRecv_datagram {max : Nat} {source : SockAddr} {bytes : Bytes} {peer : CtEndpoint}
    (hsource : endpointFromSockaddr b source = some peer) :
    ctUdpRecv b max (.datagram source bytes) = .datagram peer (bytes.take max) := by
  rw [ctUdpRecv, hsource]

theorem serverUdpFromExternal_iff {svc : Nat} {listener : Socket} {now : UInt64} {source : SockAddr}
    {bytes : Bytes} {peer : CtEndpoint} {send : SendIo} {p : ServerPeer}
    (hsource : endpointFromSockaddr b source = some peer)
    (hlimit : (p.service svc).cfg.udpMaxDatagramSize ≤ b.maxUdpDatagramSize) :
    WholeOrDropped b (p.service svc).cfg.udpMaxDatagramSize bytes
        (serverUdpFromExternal b m svc listener now ⟨.datagram source bytes, send⟩ p).effects ↔
      (p.service svc).cfg.udpMaxDatagramSize < b.maxUdpDatagramSize ∨
        bytes.length ≤ (p.service svc).cfg.udpMaxDatagramSize := by
  have hcall : serverUdpFromExternal b m svc listener now ⟨.datagram source bytes, send⟩ p =
      (if (bytes.take b.maxUdpDatagramSize).length > (p.service svc).cfg.udpMaxDatagramSize then
        Call.tell [.inc .udpDatagramsOversizedTotal, .inc .udpDatagramsDroppedTotal]
      else serverUdpForward b m svc listener now peer (bytes.take b.maxUdpDatagramSize) send :
        Call Effect ServerPeer Unit) p := by
    unfold serverUdpFromExternal
    rw [ctUdpRecv_datagram hsource]
    rfl
  rw [hcall]
  refine wholeOrDropped_iff hlimit (fun hlong => ?_) fun hshort => ?_
  · rw [if_pos hlong]
    rfl
  · rw [if_neg (Nat.not_lt.mpr hshort)]
    exact serverUdpForward_forwards p

/-! ## The client -/

/-- A received datagram is dropped, or handled by a call that forwards it. -/
theorem clientUdpFromLocal_datagram {i : Nat} {source : SockAddr} {bytes : Bytes}
    {peer : CtEndpoint} {now : UInt64} {send : SendIo} (s : ClientSession)
    (hsource : endpointFromSockaddr b source = some peer) :
    ∃ forward : Call Effect ClientSession Unit,
      Call.Emits (Effect.Forwards b (bytes.take b.maxUdpDatagramSize)) forward ∧
      clientUdpFromLocal b m i ⟨.datagram source bytes, send, now⟩ s =
        (if (bytes.take b.maxUdpDatagramSize).length > (s.udp i).svc.udpMaxDatagramSize then
          Call.tell [.inc .udpDatagramsOversizedTotal, .inc .udpDatagramsDroppedTotal]
        else forward) s := by
  let session := { s.udp i with lastMs := now, txSeq := (s.udp i).txSeq + 1 }
  refine ⟨do
    Call.modify fun s => { s with udp := Function.update s.udp i session }
    Call.onFail [.inc .udpDatagramsDroppedTotal] (do
      let frame ← Call.need (ctUdpDatagramPack b b.controlBufferSize
        ⟨1, session.id, session.txSeq, session.svc.id, session.peer,
          bytes.take b.maxUdpDatagramSize⟩)
      onClientControl (ctControlSend b m CtMsgType.udpDatagram.toByte session.id frame send))
    Call.tell [.inc .udpDatagramsS2cTotal,
      .metricAdd .udpBytesS2cTotal (bytes.take b.maxUdpDatagramSize).length], ?_, ?_⟩
  · refine .bind .modify fun _ => .bind (.onFail (by simp [Effect.Forwards]) ?_) fun _ => ?_
    · exact packSend_forwards (fun q hq => packed_payload hq) fun q hq =>
        .zoom (ctControlSend_forwards hq)
    · exact .tell (by simp [Effect.Forwards])
  · unfold clientUdpFromLocal
    rw [ctUdpRecv_datagram hsource]
    rfl

theorem clientUdpFromLocal_iff {i : Nat} {source : SockAddr} {bytes : Bytes} {peer : CtEndpoint}
    {now : UInt64} {send : SendIo} {s : ClientSession}
    (hsource : endpointFromSockaddr b source = some peer)
    (hlimit : (s.udp i).svc.udpMaxDatagramSize ≤ b.maxUdpDatagramSize) :
    WholeOrDropped b (s.udp i).svc.udpMaxDatagramSize bytes
        (clientUdpFromLocal b m i ⟨.datagram source bytes, send, now⟩ s).effects ↔
      (s.udp i).svc.udpMaxDatagramSize < b.maxUdpDatagramSize ∨
        bytes.length ≤ (s.udp i).svc.udpMaxDatagramSize := by
  obtain ⟨forward, hforward, hcall⟩ := clientUdpFromLocal_datagram s hsource
  rw [hcall]
  refine wholeOrDropped_iff hlimit (fun hlong => ?_) fun hshort => ?_
  · rw [if_pos hlong]
    rfl
  · rw [if_neg (Nat.not_lt.mpr hshort)]
    exact hforward s

/-- Both ends handle a datagram as they should exactly if it does not exceed the
limit of the service or this limit is below the size of the buffer. -/
theorem datagrams_whole_iff (b : Build) (m : Monocypher) :
    (∀ p svc listener now source bytes peer send,
      endpointFromSockaddr b source = some peer →
      (p.service svc).cfg.udpMaxDatagramSize ≤ b.maxUdpDatagramSize →
      (WholeOrDropped b (p.service svc).cfg.udpMaxDatagramSize bytes
          (serverUdpFromExternal b m svc listener now ⟨.datagram source bytes, send⟩ p).effects ↔
        (p.service svc).cfg.udpMaxDatagramSize < b.maxUdpDatagramSize ∨
          bytes.length ≤ (p.service svc).cfg.udpMaxDatagramSize)) ∧
    ∀ s i now source bytes peer send,
      endpointFromSockaddr b source = some peer →
      (s.udp i).svc.udpMaxDatagramSize ≤ b.maxUdpDatagramSize →
      (WholeOrDropped b (s.udp i).svc.udpMaxDatagramSize bytes
          (clientUdpFromLocal b m i ⟨.datagram source bytes, send, now⟩ s).effects ↔
        (s.udp i).svc.udpMaxDatagramSize < b.maxUdpDatagramSize ∨
          bytes.length ≤ (s.udp i).svc.udpMaxDatagramSize) :=
  ⟨fun _ _ _ _ _ _ _ _ hsource hlimit => serverUdpFromExternal_iff hsource hlimit,
    fun _ _ _ _ _ _ _ hsource hlimit => clientUdpFromLocal_iff hsource hlimit⟩

/-! ## The largest limit -/

/-- `dns` with the limit of the build. -/
def dnsLarge : CtServiceConfig := { dnsService with udpMaxDatagramSize := 1472 }

def dnsLargeRegister : BoxEntry :=
  edgeFrame 10 1 ((registerPayload defaultBuild dnsLarge).getD [])
    0x9dc88af83a787cef65d973ffe9a9a6ff8cac0e48f1dd587c9644c79ab11088c004bc054c47
    0x115368177db6a24c646ef5ccf9b11f82

def largeLog : CryptoLog := { hubLog with boxes := hubLog.boxes ++ [dnsLargeRegister] }

/-- One byte more than fits in the buffer. -/
def longQuery : UdpExternalIo :=
  ⟨.datagram (.inet 40000 ⟨[192, 0, 2, 7], rfl⟩) (List.replicate 1473 0x61), sendAll⟩

/-- The peer of `edge` once `dns` is registered. -/
def largePeer : ServerPeer :=
  (runs (serverStep defaultBuild largeLog.monocypher edgeConfig)
    (.start defaultBuild [hubListener] 0)
    (hubJoin ++ [hubControl dnsLargeRegister 6 5300])).1.state.peers 0

/-- The payloads of the datagrams that a trace forwards. -/
def forwardedPayloads (b : Build) (es : List Effect) : List Bytes :=
  es.filterMap fun
    | .controlSend _ _ q => (ctUdpDatagramUnpack b q).map UdpFrame.payload
    | _ => none

/-- A datagram that fits. -/
def shortQuery : UdpExternalIo :=
  ⟨.datagram (.inet 40000 ⟨[192, 0, 2, 7], rfl⟩) dnsQuery.payload, sendAll⟩

/-- The other end with one session of `dns`. -/
def largeSession : ClientSession :=
  { ClientSession.blank with
    udp := Function.update ClientSession.blank.udp 0
      { ClientUdpSession.zero with active := true, svc := dnsLarge } }

/-- One evaluation of the registration and of both datagrams. -/
theorem large_runs :
    ServerRun defaultBuild largeLog.monocypher edgeConfig [hubListener] 0
      (hubJoin ++ [hubControl dnsLargeRegister 6 5300]) ∧
    (largePeer.service 0).cfg.udpMaxDatagramSize = 1472 ∧
    forwardedPayloads defaultBuild (serverUdpFromExternal defaultBuild largeLog.monocypher 0 6 0
      longQuery largePeer).effects = [List.replicate 1472 0x61] ∧
    forwardedPayloads defaultBuild (serverUdpFromExternal defaultBuild largeLog.monocypher 0 6 0
      shortQuery largePeer).effects = [dnsQuery.payload] := by
  decide +kernel

/-- Both ends forward a datagram that fits. -/
theorem short_datagram_whole :
    forwardedPayloads defaultBuild (serverUdpFromExternal defaultBuild largeLog.monocypher 0 6 0
      shortQuery largePeer).effects = [dnsQuery.payload] ∧
    WholeOrDropped defaultBuild 1472 dnsQuery.payload
      (serverUdpFromExternal defaultBuild largeLog.monocypher 0 6 0 shortQuery largePeer).effects ∧
    WholeOrDropped defaultBuild 1472 dnsQuery.payload
      (clientUdpFromLocal defaultBuild largeLog.monocypher 0
        ⟨.datagram (.inet 53 ⟨[127, 0, 0, 1], rfl⟩) dnsQuery.payload, sendAll, 0⟩
        largeSession).effects := by
  obtain ⟨-, hlimit, -, hsent⟩ := large_runs
  have hboth := datagrams_whole_iff defaultBuild largeLog.monocypher
  have hserver := hboth.1 largePeer 0 6 0 (.inet 40000 ⟨[192, 0, 2, 7], rfl⟩) dnsQuery.payload _
    sendAll rfl (Nat.le_of_eq hlimit)
  rw [hlimit] at hserver
  have hclient := hboth.2 largeSession 0 0 (.inet 53 ⟨[127, 0, 0, 1], rfl⟩) dnsQuery.payload _
    sendAll rfl (Nat.le_refl _)
  exact ⟨hsent, hserver.mpr (.inr (by decide)), hclient.mpr (.inr (by decide))⟩

/-- The server forwards 1472 of the 1473 bytes. -/
theorem long_datagram_cut :
    ServerRun defaultBuild largeLog.monocypher edgeConfig [hubListener] 0
      (hubJoin ++ [hubControl dnsLargeRegister 6 5300]) ∧
    (largePeer.service 0).cfg.udpMaxDatagramSize = 1472 ∧
    forwardedPayloads defaultBuild (serverUdpFromExternal defaultBuild largeLog.monocypher 0 6 0
      longQuery largePeer).effects = [List.replicate 1472 0x61] ∧
    ¬ WholeOrDropped defaultBuild 1472 (List.replicate 1473 0x61)
      (serverUdpFromExternal defaultBuild largeLog.monocypher 0 6 0 longQuery largePeer).effects := by
  obtain ⟨hrun, hlimit, hsent, -⟩ := large_runs
  refine ⟨hrun, hlimit, hsent, ?_⟩
  have hiff := @serverUdpFromExternal_iff defaultBuild largeLog.monocypher 0 6 0
    (.inet 40000 ⟨[192, 0, 2, 7], rfl⟩) (List.replicate 1473 0x61) _ sendAll largePeer rfl
    (Nat.le_of_eq hlimit)
  rw [hlimit] at hiff
  intro h
  exact absurd (hiff.mp h) (by decide +kernel)

end Ctunnel
