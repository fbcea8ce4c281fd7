import Ctunnel.Lib.History
import Ctunnel.Server.UdpSteps
import Ctunnel.Theorems.UdpSessionLimits

/-!
# The server reflects no datagrams

The client decides what the server sends on its UDP services, but not where to: a
datagram goes to the endpoint of an active session, through a socket of its service,
and the session was opened for a datagram that this socket received from this endpoint
and has lasted since. A service has one session for an endpoint
(`udp_replies_solicited`).
-/

namespace Ctunnel

open Lib

variable {b : Build} {m : Monocypher} {cfg : CtConfig} {p : ServerPeer}

/-! ## The sessions of a peer -/

theorem endpointEqual_comm (a c : CtEndpoint) : endpointEqual a c = endpointEqual c a := by
  have hiff : ∀ {a c : CtEndpoint}, endpointEqual a c = true → endpointEqual c a = true := by
    intro a c h
    simp only [endpointEqual, Bool.and_eq_true, bne_iff_ne, beq_iff_eq] at h ⊢
    obtain ⟨⟨⟨hfamily, hsame⟩, hport⟩, haddr⟩ := h
    rw [← hsame]
    exact ⟨⟨⟨hfamily, rfl⟩, hport.symm⟩, haddr.symm⟩
  exact Bool.eq_iff_iff.mpr ⟨hiff, hiff⟩

/-- The sessions are within the table, each uses a socket of its service, and no two are for one
service and endpoint. -/
structure UdpTable (b : Build) (p : ServerPeer) : Prop where
  bounded : ∀ j, (p.udp j).active = true → j < b.maxUdpSessions
  own : ∀ j, (p.udp j).active = true →
    (p.udp j).listener ∈ (p.service (p.udp j).svc).udpFd.map BoundSocket.fd
  distinct : ∀ i j, (p.udp i).active = true → (p.udp j).active = true →
    (p.udp i).svc = (p.udp j).svc → endpointEqual (p.udp i).peer (p.udp j).peer = true → i = j

theorem UdpTable.zero : UdpTable b .zero := by
  constructor <;> simp [ServerPeer.zero, ServerUdpSession.zero]

/-- The sessions of `q` are sessions of `p`, and its services are services of `p`. -/
theorem UdpTable.kept {q : ServerPeer} (h : UdpTable b p) (hkept : UdpKept p q)
    (hsvc : ∀ j, (p.service j).udpFd.map BoundSocket.fd ⊆ (q.service j).udpFd.map BoundSocket.fd) :
    UdpTable b q := by
  have hactive : ∀ j, (q.udp j).active = true → (p.udp j).active = true :=
    fun j hj => (hkept j hj).active.symm.trans hj
  constructor
  · exact fun j hj => h.bounded j (hactive j hj)
  · intro j hj
    rw [(hkept j hj).listener, (hkept j hj).svc]
    exact hsvc _ (h.own j (hactive j hj))
  · intro i j hi hj hsame hpeer
    rw [(hkept i hi).svc, (hkept j hj).svc] at hsame
    rw [(hkept i hi).peer, (hkept j hj).peer] at hpeer
    exact h.distinct i j (hactive i hi) (hactive j hj) hsame hpeer

theorem UdpMove.table {udp : Nat → ServerUdpSession} {next : UInt64} (h : UdpMove b p udp next)
    (ht : UdpTable b p) : UdpTable b { p with udp := udp, nextStream := next } := by
  cases h with
  | @created i svc peer listener now hi hfree hnew hroom hlistener =>
      -- no session of the service has the endpoint
      have hother : ∀ j, (p.udp j).active = true → (p.udp j).svc = svc →
          endpointEqual (p.udp j).peer peer = false := by
        intro j hj hsvc
        have hno := List.find?_eq_none.mp hnew j (List.mem_range.mpr (ht.bounded j hj))
        simpa [hj, hsvc] using hno
      have hself : (Function.update p.udp i (⟨true, nextStreamId p.nextStream, 0, 0, 0, now, peer, svc,
          listener⟩ : ServerUdpSession)) i = _ := Function.update_self ..
      have hrest : ∀ j, j ≠ i → (Function.update p.udp i (⟨true, nextStreamId p.nextStream, 0, 0, 0,
          now, peer, svc, listener⟩ : ServerUdpSession)) j = p.udp j :=
        fun j hj => Function.update_of_ne hj ..
      constructor
      · intro j hj
        by_cases hji : j = i
        · exact hji ▸ hi
        · dsimp only at hj
          rw [hrest j hji] at hj
          exact ht.bounded j hj
      · intro j hj
        dsimp only at hj ⊢
        by_cases hji : j = i
        · rw [hji, hself]
          exact hlistener
        · rw [hrest j hji] at hj ⊢
          exact ht.own j hj
      · intro j k hj hk hsvc hpeer
        dsimp only at hj hk hsvc hpeer
        by_cases hji : j = i
        · by_cases hki : k = i
          · rw [hji, hki]
          · rw [hrest k hki] at hk hsvc hpeer
            rw [hji, hself] at hsvc hpeer
            rw [endpointEqual_comm, hother k hk hsvc.symm] at hpeer
            exact absurd hpeer (by simp)
        · rw [hrest j hji] at hj hsvc hpeer
          by_cases hki : k = i
          · rw [hki, hself] at hsvc hpeer
            rw [hother j hj hsvc] at hpeer
            exact absurd hpeer (by simp)
          · rw [hrest k hki] at hk hsvc hpeer
            exact ht.distinct j k hj hk hsvc hpeer
  | @used i s hactive hsame =>
      exact ht.kept (UdpKept.use (.refl p) hsame) fun _ => List.Subset.refl _
  | expired gone =>
      refine ht.kept (fun j hj => ?_) fun _ => List.Subset.refl _
      change (if gone j then ServerUdpSession.zero else p.udp j).active = true at hj
      show SameUdpSession _ (if gone j then ServerUdpSession.zero else p.udp j)
      split at hj
      · exact absurd hj (by simp [ServerUdpSession.zero])
      · rename_i hlive
        rw [if_neg hlive]
        exact .refl _

theorem PeerMove.udpTable {es : List Effect} {q : ServerPeer} (h : PeerMove b m cfg p es q)
    (ht : UdpTable b p) : UdpTable b q := by
  cases h with
  | closed => exact .zero
  | sessions hudp => exact hudp.table ht
  | _ => exact ⟨ht.bounded, ht.own, ht.distinct⟩

/-- A new service takes no socket from the others. -/
theorem UdpTable.registered (ht : UdpTable b p) (s : ServerService) :
    UdpTable b { p with svc := p.svc ++ [s] } := by
  refine ht.kept (.refl p) fun j fd hfd => ?_
  unfold ServerPeer.service at hfd ⊢
  by_cases hj : j < p.svc.length
  · rwa [List.getD_append _ _ _ _ hj]
  · rw [List.getD_eq_default _ _ (by omega)] at hfd
    exact absurd hfd (by simp [ServerService.zero])

theorem ServerMove.udpTables {G : ServerState → ServerService → Prop} {st st' : ServerState}
    {es : List Effect} (h : ServerMove b m cfg G st es st') (hst : AllPeers (fun _ => UdpTable b) st) :
    AllPeers (fun _ => UdpTable b) st' := by
  have hsame : ∀ i {q : ServerPeer}, q.udp = (st.peers i).udp → q.svc = (st.peers i).svc →
      UdpTable b q := by
    intro i q hudp hsvc
    refine (hst i).kept (fun j _ => ?_) fun j => ?_
    · rw [hudp]
      exact .refl _
    · unfold ServerPeer.service
      rw [hsvc]
      exact List.Subset.refl _
  cases h with
  | peer i hi hmove => exact hst.setPeer (hmove.udpTable (hst i))
  | bound index c i w => exact hst.setPeer (hsame i rfl rfl)
  | joined index c i a next => exact hst.setPeer (hsame i rfl rfl)
  | unjoined index c i => exact hst.setPeer (hsame i rfl rfl)
  | registered i s => exact hst.setPeer ((hst i).registered s)
  | _ => exact hst

/-! ## Runs -/

variable {control : List BoundSocket} {now : UInt64} {evs : List ServerEvent}

theorem serverRun_udpTables (hrun : ServerRun b m cfg control now evs) (i : Nat) :
    UdpTable b ((serverAfter b m cfg control now evs).state.peers i) :=
  serverRun_keeps (I := fun st _ => AllPeers (fun _ => UdpTable b) st)
    (fun _ _ _ _ _ hmove h => hmove.udpTables h) (fun _ => .zero) hrun i

/-- The session that the peer in slot `i` has in slot `j` is `s`. -/
def HasSession (i j : Nat) (s : ServerUdpSession) (l : ServerLoop) : Prop :=
  ((l.state.peers i).udp j).active = true ∧ SameUdpSession s ((l.state.peers i).udp j)

/-- A session that an event finds or opens. -/
theorem serverStep_session {l : ServerLoop} {ev : ServerEvent} {i j : Nat} {s : ServerUdpSession}
    (h : HasSession i j s (serverStep b m cfg ev l).state) :
    HasSession i j s l ∨ ev.Hears b l.state i s.svc s.listener s.peer := by
  obtain ⟨hactive, hsame⟩ := h
  have hkeep : ∀ {q : ServerPeer}, q = (serverStep b m cfg ev l).state.state.peers i →
      SameUdpSession ((l.state.peers i).udp j) (q.udp j) → HasSession i j s l := by
    rintro q rfl hold
    exact ⟨hold.active.symm.trans hactive, hsame.trans hold.symm⟩
  by_cases hudp : ∃ k svc io, ev = .udpService k svc io
  · obtain ⟨k, svc, io, rfl⟩ := hudp
    have hstate : (serverStep b m cfg (.udpService k svc io) l).state.state =
        l.state.setPeer k (udpServiceEvent b m svc io (l.state.peers k)).state := rfl
    by_cases hik : i = k
    · subst hik
      rw [hstate, ServerState.setPeer_self] at hactive hsame hkeep
      rcases udpServiceEvent_opened svc io (l.state.peers i) j hactive with hold | ⟨hsvc, hheard⟩
      · exact .inl (hkeep rfl hold)
      · right
        rw [← hsame.svc, ← hsame.listener, ← hsame.peer, hsvc]
        exact ⟨io, rfl, hheard⟩
    · rw [hstate, ServerState.setPeer_other _ _ hik] at hkeep
      exact .inl (hkeep rfl (.refl _))
  · left
    refine hkeep rfl (serverCall_kept (fun k svc io heq => hudp ⟨k, svc, io, heq⟩) i j hactive)

/-- A session was opened for a datagram from its endpoint, and has lasted since. -/
theorem session_since {i j : Nat}
    (hactive : (((serverAfter b m cfg control now evs).state.peers i).udp j).active = true) :
    let s := ((serverAfter b m cfg control now evs).state.peers i).udp j
    HeldSince (serverStep b m cfg) (fun l ev => ev.Hears b l.state i s.svc s.listener s.peer)
      (HasSession i j s) (.start b control now) evs := by
  intro s
  refine heldSince_of_step ?_ (fun _ _ _ _ h => serverStep_session h) ⟨hactive, .refl _⟩
  rintro ⟨hno, -⟩
  exact absurd hno (by simp [ServerLoop.start, ServerState.start, ServerPeer.zero,
    ServerUdpSession.zero])

/-- The datagram that the peer in slot `i` sends through `fd` to `destination` is one of an active
session `s`, which was opened when `fd` received a datagram from `destination`. -/
structure Solicited (b : Build) (m : Monocypher) (cfg : CtConfig) (control : List BoundSocket)
    (now : UInt64) (before : List ServerEvent) (i : Nat) (fd : Socket) (destination : CtEndpoint)
    (j : Nat) (s : ServerUdpSession) : Prop where
  session : HasSession i j s (serverAfter b m cfg control now before)
  listener : s.listener = fd
  endpoint : s.peer = destination
  own : fd ∈ (((serverAfter b m cfg control now before).state.peers i).service s.svc).udpFd.map
    BoundSocket.fd
  heard : HeldSince (serverStep b m cfg) (fun l ev => ev.Hears b l.state i s.svc fd destination)
    (HasSession i j s) (.start b control now) before

/-- In every run of the server a service has at most one session for an endpoint, and every
datagram that the server sends is sent while it handles a control frame of a client, through a
socket of a service of this client, to an endpoint from which this socket received the datagram
that opened the session, which is still active. -/
theorem udp_replies_solicited (hrun : ServerRun b m cfg control now evs) :
    (∀ i j k, let p := (serverAfter b m cfg control now evs).state.peers i
      (p.udp j).active = true → (p.udp k).active = true → (p.udp j).svc = (p.udp k).svc →
      endpointEqual (p.udp j).peer (p.udp k).peer = true → j = k) ∧
    ∀ before ev post, evs = before ++ ev :: post → ∀ fd destination bytes,
      Effect.datagram fd destination bytes ∈
        (serverStep b m cfg ev (serverAfter b m cfg control now before)).effects →
      ∃ i io j s, ev = .control i io ∧
        Solicited b m cfg control now before i fd destination j s := by
  refine ⟨fun i => (serverRun_udpTables hrun i).distinct, ?_⟩
  rintro before ev post rfl fd destination bytes hsent
  have hbefore : ServerRun b m cfg control now before := Along.of_append hrun |>.1
  by_cases hev : ∃ i io, ev = .control i io
  · obtain ⟨i, io, rfl⟩ := hev
    obtain ⟨j, hactive, rfl, rfl⟩ := controlEvent_delivered (b := b) (m := m) i io _ fd destination
      bytes hsent
    refine ⟨i, io, j, _, rfl, ⟨hactive, .refl _⟩, rfl, rfl, ?_, session_since hactive⟩
    exact (serverRun_udpTables hbefore i).own j hactive
  · have hnone := serverCall_undelivered (b := b) (m := m)
      (fun i io heq => hev ⟨i, io, heq⟩) _ _ hsent fd destination bytes
    exact absurd rfl hnone

/-! ## A reply to `dns` -/

/-- The answer of `edge` to `dnsQuery`. -/
def dnsAnswerFrame : BoxEntry :=
  frameBox edgeKeys.sessionId edgeKeys.controlC2s edgeKeys.nonceC2s 26 1 2
    ((ctUdpDatagramPack defaultBuild defaultBuild.controlBufferSize
      { dnsQuery with direction := 1, payload := ascii "one" }).getD [])
    0x847f0c59e284b6b548b0e142eb251950ecf3738ce90cb4dc3c13a716459c454aaa7d
    0x183f6275f74f802875253ad968ba911e

def answerLog : CryptoLog := { hubLog with boxes := hubLog.boxes ++ [dnsAnswerFrame] }

/-- `edge` registers `dns`, and a query arrives. -/
def askedRun : List ServerEvent :=
  hubJoin ++ [hubControl dnsRegister 6 5300, hubTurn, dnsArrives]

/-- The answer of `edge` arrives, and is sent. -/
def dnsAnswerIo : ControlIo where
  queued := .bytes dnsAnswerFrame.frame
  more := []
  alloc := true
  register := ⟨⟨[], [], []⟩, sendAll⟩
  reply := sendAll
  sendTo := .sent 3
  goaway := sendAll
  now := 0

/-- It goes to the client that asked. -/
theorem dns_answer_solicited :
    .datagram 6 dnsQuery.peer (ascii "one") ∈
        (serverStep defaultBuild answerLog.monocypher edgeConfig (.control 0 dnsAnswerIo)
          (serverAfter defaultBuild answerLog.monocypher edgeConfig [hubListener] 0 askedRun)).effects ∧
      ∃ i j s, Solicited defaultBuild answerLog.monocypher edgeConfig [hubListener] 0 askedRun i 6
        dnsQuery.peer j s := by
  have hfacts : ServerRun defaultBuild answerLog.monocypher edgeConfig [hubListener] 0
        (askedRun ++ [.control 0 dnsAnswerIo]) ∧
      .datagram 6 dnsQuery.peer (ascii "one") ∈
        (serverStep defaultBuild answerLog.monocypher edgeConfig (.control 0 dnsAnswerIo)
          (serverAfter defaultBuild answerLog.monocypher edgeConfig [hubListener] 0
            askedRun)).effects := by
    decide +kernel
  obtain ⟨hrun, hsent⟩ := hfacts
  obtain ⟨i, io, j, s, -, hsolicited⟩ := (udp_replies_solicited hrun).2 _ _ [] rfl _ _ _ hsent
  exact ⟨hsent, i, j, s, hsolicited⟩

end Ctunnel
