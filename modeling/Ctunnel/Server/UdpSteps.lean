import Ctunnel.Server.Conns

/-!
# What an event does to the UDP sessions of the peers

Sessions are opened in REF_UDP_SERVICE only, each for an endpoint that a datagram was
read from (`ServerEvent.Hears`); every other event goes on with them or ends them.
Datagrams go out in REF_CONTROL only, to the endpoint of a session and through its socket.
`serverCall_udp` says so for every event.
-/

namespace Ctunnel

open Lib

/-! ## Sessions that go on -/

/-- The sessions of `q` are sessions of `p`. -/
def UdpKept (p q : ServerPeer) : Prop :=
  ∀ j, (q.udp j).active = true → SameUdpSession (p.udp j) (q.udp j)

namespace SameUdpSession

variable {s t u : ServerUdpSession}

theorem refl (s : ServerUdpSession) : SameUdpSession s s := ⟨rfl, rfl, rfl, rfl, rfl⟩

theorem symm (h : SameUdpSession s t) : SameUdpSession t s :=
  ⟨h.active.symm, h.id.symm, h.peer.symm, h.svc.symm, h.listener.symm⟩

theorem trans (h : SameUdpSession s t) (h' : SameUdpSession t u) : SameUdpSession s u :=
  ⟨h'.active.trans h.active, h'.id.trans h.id, h'.peer.trans h.peer, h'.svc.trans h.svc,
    h'.listener.trans h.listener⟩

end SameUdpSession

variable {b : Build} {m : Monocypher} {cfg : CtConfig} {p q : ServerPeer} {st : ServerState}

namespace UdpKept

theorem refl (p : ServerPeer) : UdpKept p p := fun _ _ => .refl _

theorem zero (p : ServerPeer) : UdpKept p .zero := fun _ hj => absurd hj (by simp [ServerPeer.zero,
  ServerUdpSession.zero])

/-- A session is used. -/
theorem use (h : UdpKept p q) {i : Nat} {s : ServerUdpSession} (hs : SameUdpSession (q.udp i) s) :
    UdpKept p (q.setUdp i s) := by
  intro j hj
  by_cases hji : j = i
  · subst hji
    have hself : (q.setUdp j s).udp j = s := Function.update_self ..
    rw [hself] at hj ⊢
    exact (h j (hs.active ▸ hj)).trans hs
  · have hother : (q.setUdp i s).udp j = q.udp j := Function.update_of_ne hji ..
    rw [hother] at hj ⊢
    exact h j hj

end UdpKept

/-! ## Calls that open no session -/

section Kept

theorem peerClose_kept {io : SendIo} : Call.Keeps (UdpKept p) (peerClose b m io) :=
  peerClose_keeps (fun _ _ h => h) (.zero p)

theorem registerService_kept {control : List BoundSocket} {peers : Nat → ServerPeer}
    {payload : Bytes} {io : RegisterIo} :
    Call.Keeps (UdpKept p) (registerService b m cfg control peers payload io) := by
  refine .bind .need fun r => .bind (fun q hq => ?_) fun result => ?_
  · refine Reply.Ends.state [] (I := UdpKept p)
      ((registerChecks_ends control peers r io.bind q).mono ?_ ?_)
    · rintro _ _ _ ⟨rfl, -⟩
      exact hq
    · rintro _ _ ⟨rfl, -⟩
      exact hq
  · cases result with
    | ok service => exact .bind (.modify fun _ h => h) fun _ => onControl_keeps fun _ _ h => h
    | error why => exact onControl_keeps fun _ _ h => h

/-- A frame of the client uses the session it names. -/
theorem serverUdpFromClient_kept {payload : Bytes} {now : UInt64} {io : SendTo} :
    Call.Keeps (UdpKept p) (serverUdpFromClient b payload now io) := by
  refine .bind (.onFail .need) fun f => ?_
  intro q hq
  refine Reply.Ends.state [] (I := UdpKept p) (.get ?_)
  cases (serverUdpFindId b q f.id).filter fun i =>
      (q.service (q.udp i).svc).cfg.id == f.service && endpointEqual (q.udp i).peer f.peer with
  | none => exact hq
  | some i =>
      dsimp only
      cases udpReplayAccept b.udpReplayWindow (q.udp i).rxHigh (q.udp i).rxBitmap f.seq with
      | none => exact hq
      | some window =>
          have hused : UdpKept p (q.setUdp i
              { q.udp i with rxHigh := window.1, rxBitmap := window.2, lastMs := now }) :=
            hq.use ⟨rfl, rfl, rfl, rfl, rfl⟩
          have hsend : Call.Keeps (UdpKept p)
              (ctUdpSend b (q.udp i).listener (q.udp i).peer f.payload io) := by
            intro q' hq'
            refine Reply.Ends.state [] (I := UdpKept p) ((ctUdpSend_ends q' []).mono ?_ ?_)
            · rintro _ _ _ ⟨rfl, -⟩
              exact hq'
            · rintro _ _ ⟨rfl, -⟩
              exact hq'
          exact .modify (Call.Keeps.ends (.bind (.onFail hsend) fun _ => .tell) hused [])

theorem serverControl_kept {control : List BoundSocket} {peers : Nat → ServerPeer} {io : ControlIo} :
    Call.Keeps (UdpKept p) (serverControl b m cfg control peers io) := by
  refine .bind (onControl_keeps fun _ _ h => h) fun (h, payload) => ?_
  refine .ite (fun _ => registerService_kept) fun _ => .ite (fun _ => serverUdpFromClient_kept) ?_
  intro _
  exact .ite (fun _ => onControl_keeps fun _ _ h => h) fun _ => .ite (fun _ => .pure) fun _ => .need

theorem streamFree_kept : StreamFree (UdpKept p) :=
  ⟨fun _ _ h => h, fun _ _ h => h, fun _ _ h => h, fun _ _ h => h⟩

theorem matchPending_kept {io : Nat → StartIo} :
    Call.Keeps (UdpKept p) (matchPending b m cfg io) :=
  matchPending_keeps streamFree_kept fun _ _ h => h

theorem serviceEvent_kept {svc : Nat} {io : ServiceIo} :
    Call.Keeps (UdpKept p) (serviceEvent b m cfg svc io) := by
  refine .bind .get fun q => ?_
  cases (if (q.service svc).listenFd = [] then none else io.accepted) with
  | none => exact .pure
  | some fd =>
      refine .bind .tell fun _ => ?_
      cases connectionMetadata b (q.service svc) io.names with
      | none => exact .tell
      | some md =>
          refine .ite (fun _ => .tell) fun _ => .bind (.modify fun _ h => h) fun _ => ?_
          refine .bind .tell fun _ => .bind .get fun q => .ite (fun _ => ?_) fun _ => matchPending_kept
          exact .bind (.attempt (onControl_keeps fun _ _ h => h)) fun _ => matchPending_kept

theorem serverUdpExpire_kept {now : UInt64} : Call.Keeps (UdpKept p) (serverUdpExpire b now) := by
  intro q hq j hj
  change (if _ then ServerUdpSession.zero else q.udp j).active = true at hj
  show SameUdpSession _ (if _ then ServerUdpSession.zero else q.udp j)
  split at hj
  · exact absurd hj (by simp [ServerUdpSession.zero])
  · rename_i hlive
    rw [if_neg hlive]
    exact hq j hj

theorem sweepHeartbeat_kept {i : Nat} {io : SweepIo} :
    Call.Keeps (UdpKept p) (sweepHeartbeat b m cfg i io) := by
  refine .bind .get fun q => .ite (fun _ => peerClose_kept) fun _ => ?_
  refine .ite (fun _ => .bind (.attempt (onControl_keeps fun _ _ h => h)) fun sent => ?_) fun _ => .pure
  cases sent with
  | some _ => exact .pure
  | none => exact peerClose_kept

theorem sweepPeer_kept {i : Nat} {io : SweepIo} :
    Call.Keeps (UdpKept p) (sweepPeer b m cfg i io) := by
  refine .bind .get fun q => .ite (fun _ => .bind (.modify fun _ h => h) fun _ => ?_) fun _ => .pure
  refine .bind .tell fun _ => .bind (.modify fun _ h => h) fun _ => .bind .tell fun _ => ?_
  exact .ite (fun _ => .bind serverUdpExpire_kept fun _ => sweepHeartbeat_kept) fun _ =>
    sweepHeartbeat_kept

/-- Every peer goes on with sessions of `st`. -/
abbrev AllKept (st : ServerState) : ServerState → Prop := AllPeers fun i => UdpKept (st.peers i)

theorem incomingBind_kept (index : Nat) (c : IncomingConn) (h : CtFrameHeader) (io : IncomingIo) :
    Call.Keeps (AllKept st) (incomingBind b m cfg index c h io) := by
  have hwork : ∀ i, Call.Keeps (UdpKept (st.peers i)) (bindWork b m c.fd (io.queued.inbox io.more)) :=
    fun i => .bind (onControl_keeps fun _ _ h => h) fun _ => .bind (.modify fun _ h => h) fun _ => .tell
  refine .bind .get fun st' => ?_
  cases findSession b st'.peers h.sessionId with
  | none => exact removeIncoming_all index true
  | some i =>
      refine .bind (.attempt (.bind .check fun _ => onPeer_all (hwork i))) fun bound => ?_
      cases bound with
      | none =>
          exact .ite (fun _ => .bind .tell fun _ => removeIncoming_all index true)
            fun _ => removeIncoming_all index true
      | some _ =>
          exact .bind (removeIncoming_all index false) fun _ => onPeer_all matchPending_kept

theorem controlEvent_kept {i : Nat} {io : ControlIo} :
    Call.Keeps (AllKept st) (controlEvent b m cfg i io) := by
  unfold controlEvent
  cases ctFrameAvailable b (b.controlBufferSize + ctAeadTag) ctFlagEncrypted io.queued with
  | failed => exact onPeer_all peerClose_kept
  | later => exact onPeer_all (setReadRetry_keeps fun _ _ h => h)
  | frame _ =>
      refine .bind .get fun st' => onPeer_all (.bind (setReadRetry_keeps fun _ _ h => h) fun _ => ?_)
      refine .bind (.attempt serverControl_kept) fun handled => ?_
      cases handled with
      | some _ => exact .pure
      | none => exact peerClose_kept

/-- No event but that of a UDP service opens a session. -/
theorem serverCall_kept {ev : ServerEvent} (hev : ∀ i svc io, ev ≠ .udpService i svc io) :
    AllKept st (serverCall b m cfg ev st).state := by
  have hstart : AllKept st st := fun i => .refl _
  cases ev with
  | accept io => exact acceptEvent_all io st hstart
  | incoming fd io =>
      exact incomingEvent_all (fun _ _ _ h => h) (fun _ _ _ _ h => h)
        (fun index c h io _ => incomingBind_kept index c h io) io st hstart
  | control i io => exact controlEvent_kept st hstart
  | service i svc io => exact onPeer_all serviceEvent_kept st hstart
  | udpService i svc io => exact absurd rfl (hev i svc io)
  | starting i fd io =>
      exact onPeer_all (startingEvent_keeps (fun _ _ h => h) fun _ _ h => h) st hstart
  | relay i k side ev io => exact onPeer_all (relayEvent_keeps streamFree_kept) st hstart
  | sweep io => exact sweep_all io hstart fun i _ => sweepPeer_kept _ (.refl _)
  | stop goaway =>
      have hshut : Call.Keeps (AllKept st) (shutdown b m goaway) := by
        refine .bind (fun st' h => ?_) fun _ => .bind .get fun _ => .bind .tell fun _ => ?_
        · exact eachPeer_all List.nodup_range h fun i _ => peerClose_kept _ (h i)
        · exact .modify fun _ h => h
      exact hshut st hstart

end Kept

/-! ## Opening a session -/

/-- A datagram from `peer` is read from the socket `fd` of service `svc`. -/
def Heard (b : Build) (p : ServerPeer) (svc : Nat) (io : UdpServiceIo) (fd : Socket)
    (peer : CtEndpoint) : Prop :=
  ∃ k s source bytes, (p.service svc).udpFd[k]? = some s ∧ s.fd = fd ∧
    (io.external k).recv = .datagram source bytes ∧ endpointFromSockaddr b source = some peer

/-- The event is one of the peer in slot `i`, in which it is heard. -/
def ServerEvent.Hears (b : Build) (st : ServerState) (ev : ServerEvent) (i svc : Nat) (fd : Socket)
    (peer : CtEndpoint) : Prop :=
  ∃ io, ev = .udpService i svc io ∧ Heard b (st.peers i) svc io fd peer

section Opened

/-- The sessions of `q` are sessions of `p`, and new ones for service `svc` that `H` holds of. -/
def UdpOpened (H : Socket → CtEndpoint → Prop) (svc : Nat) (p q : ServerPeer) : Prop :=
  ∀ j, (q.udp j).active = true → SameUdpSession (p.udp j) (q.udp j) ∨
    (q.udp j).svc = svc ∧ H (q.udp j).listener (q.udp j).peer

variable {H : Socket → CtEndpoint → Prop} {svc : Nat}

theorem UdpOpened.use (h : UdpOpened H svc p q) {i : Nat} {s : ServerUdpSession}
    (hs : SameUdpSession (q.udp i) s) : UdpOpened H svc p (q.setUdp i s) := by
  intro j hj
  by_cases hji : j = i
  · subst hji
    have hself : (q.setUdp j s).udp j = s := Function.update_self ..
    rw [hself] at hj ⊢
    rcases h j (hs.active ▸ hj) with hsame | ⟨hsvc, hheard⟩
    · exact .inl (hsame.trans hs)
    · refine .inr ⟨hs.svc.trans hsvc, ?_⟩
      rw [hs.listener, hs.peer]
      exact hheard
  · have hother : (q.setUdp i s).udp j = q.udp j := Function.update_of_ne hji ..
    rw [hother] at hj ⊢
    exact h j hj

theorem UdpOpened.create (h : UdpOpened H svc p q) {i : Nat} {id : UInt64} {now : UInt64}
    {peer : CtEndpoint} {listener : Socket} (hheard : H listener peer) :
    UdpOpened H svc p (q.setUdp i ⟨true, id, 0, 0, 0, now, peer, svc, listener⟩) := by
  intro j hj
  by_cases hji : j = i
  · subst hji
    have hself : (q.setUdp j ⟨true, id, 0, 0, 0, now, peer, svc, listener⟩).udp j =
        ⟨true, id, 0, 0, 0, now, peer, svc, listener⟩ := Function.update_self ..
    rw [hself]
    exact .inr ⟨rfl, hheard⟩
  · have hother : (q.setUdp i ⟨true, id, 0, 0, 0, now, peer, svc, listener⟩).udp j = q.udp j :=
      Function.update_of_ne hji ..
    rw [hother] at hj ⊢
    exact h j hj

/-- Reading a socket of the service: the services stay, or the peer is closed. -/
structure UdpReading (H : Socket → CtEndpoint → Prop) (svc : Nat) (p q : ServerPeer) : Prop where
  opened : UdpOpened H svc p q
  services : q.svc = p.svc ∨ q.svc = []

theorem serverUdpForward_reads {listener : Socket} {now : UInt64} {peer : CtEndpoint}
    {payload : Bytes} {io : SendIo} (hheard : H listener peer) :
    Call.Keeps (UdpReading H svc p) (serverUdpForward b m svc listener now peer payload io) := by
  refine .bind .get fun q => .bind (.attempt ?_) fun found => ?_
  · cases serverUdpFind b q svc peer with
    | some i => exact .pure
    | none =>
        refine .bind .get fun _ => .bind (.onFail .check) fun _ => .bind (.onFail .need) fun i => ?_
        refine .bind (.modify fun _ h => ⟨h.opened, h.services⟩) fun _ => ?_
        refine .bind (.modify fun _ h => ⟨h.opened.create hheard, h.services⟩) fun _ => ?_
        exact .bind .tell fun _ => .pure
  · cases found with
    | none => exact .tell
    | some i =>
        refine .bind (.modify fun q h => ⟨h.opened.use ⟨rfl, rfl, rfl, rfl, rfl⟩, h.services⟩) ?_
        intro _
        refine .bind .get fun _ => .bind (.onFail (.bind .need fun _ => ?_)) fun _ => .tell
        exact onControl_keeps fun _ _ h => ⟨h.opened, h.services⟩

theorem serverUdpFromExternal_reads {listener : Socket} {now : UInt64} {io : UdpExternalIo}
    (hheard : ∀ source bytes peer, io.recv = .datagram source bytes →
      endpointFromSockaddr b source = some peer → H listener peer) :
    Call.Keeps (UdpReading H svc p) (serverUdpFromExternal b m svc listener now io) := by
  refine .bind .get fun q => ?_
  cases hrecv : io.recv with
  | wouldBlock => exact .pure
  | failed => exact .need
  | datagram source bytes =>
      unfold ctUdpRecv
      dsimp only
      cases hpeer : endpointFromSockaddr b source with
      | none => exact .need
      | some peer =>
          exact .ite (fun _ => .tell) fun _ => serverUdpForward_reads (hheard _ _ _ hrecv hpeer)

/-- A session that REF_UDP_SERVICE opens is for an endpoint it has heard. -/
theorem udpServiceEvent_opened (svc : Nat) (io : UdpServiceIo) (p : ServerPeer) :
    UdpOpened (Heard b p svc io) svc p (udpServiceEvent b m svc io p).state := by
  let I := UdpReading (Heard b p svc io) svc p
  have hclose : ∀ io', Call.Keeps I (peerClose b m io') := fun io' =>
    peerClose_keeps (fun _ _ h => ⟨h.opened, h.services⟩)
      ⟨fun j hj => .inl (UdpKept.zero p j hj), .inr rfl⟩
  -- a socket that the loop still finds is one of `p`
  have hfound : ∀ {q : ServerPeer} {k : Nat} {s : BoundSocket}, I q →
      (q.service svc).udpFd[k]? = some s → (p.service svc).udpFd[k]? = some s := by
    intro q k s hq hs
    rcases hq.services with hsvc | hsvc
    · unfold ServerPeer.service at hs ⊢
      rwa [hsvc] at hs
    · unfold ServerPeer.service at hs
      rw [hsvc] at hs
      exact absurd hs (by simp [ServerService.zero])
  have hloop : ∀ fuel k, Call.Keeps I (udpServiceLoop b m svc io fuel k) := by
    intro fuel
    induction fuel with
    | zero => exact fun k => .pure
    | succ fuel ih =>
        intro k q hq
        refine Reply.Ends.state [] (I := I) (.get ?_)
        cases hs : (q.service svc).udpFd[k]? with
        | none => exact .ret hq
        | some s =>
            have hread : Call.Keeps I (serverUdpFromExternal b m svc s.fd io.now (io.external k)) :=
              serverUdpFromExternal_reads fun source bytes peer hrecv hpeer =>
                ⟨k, s, source, bytes, hfound hq hs, rfl, hrecv, hpeer⟩
            refine Call.Keeps.ends (.bind (.attempt hread) fun handled => ?_) hq []
            cases handled with
            | some _ => exact ih (k + 1)
            | none => exact .bind (hclose _) fun _ => ih (k + 1)
  have hevent : Call.Keeps I (udpServiceEvent b m svc io) := .bind .get fun q => hloop _ 0
  exact (hevent p ⟨fun j _ => .inl (.refl _), .inl rfl⟩).opened

end Opened

/-! ## Datagrams that go out -/

section Undelivered

theorem ctHandshakeServerFinish_undelivered {fd : Socket} {io : ServerFinishIo} :
    Call.Emits Effect.Undelivered (ctHandshakeServerFinish b m fd io) := by
  intro s
  have hbody : Call.Emits Effect.Undelivered (serverFinishBody b m fd s.1 io) := by
    refine .bind .need fun _ => .bind .need fun _ => .bind .check fun _ => ?_
    refine .bind (.tell (by simp [Effect.Undelivered])) fun _ => .bind .check fun _ => ?_
    refine .bind .check fun _ => .bind .need fun _ => .bind .modify fun _ => .bind .need fun _ => ?_
    refine .bind (.tell (by simp [Effect.Undelivered])) fun _ => .bind .modify fun _ => ?_
    refine .bind (ctControlSend_framing.mono fun _ h => h.undelivered) fun _ => .bind .modify fun _ => ?_
    exact .bind (.tell (by simp [Effect.Undelivered])) fun _ => .pure
  exact Call.Emits.rollback hbody s.2

theorem incomingAuth_undelivered {index : Nat} {c : IncomingConn} {io : IncomingIo} :
    Call.Emits Effect.Undelivered (incomingAuth b m cfg index c io) := by
  refine .bind .get fun st => .bind .modify fun _ => .bind (.attempt ?_) fun finished => ?_
  · exact .bind .need fun i => .bind (.zoom ctHandshakeServerFinish_undelivered) fun _ => .modify
  · cases finished with
    | none => exact authFailed_routine.mono fun _ h => h.plain.undelivered
    | some _ => exact .bind .modify fun _ => removeIncoming_routine.mono fun _ h => h.plain.undelivered

theorem incomingEvent_undelivered {fd : Socket} {io : IncomingIo} :
    Call.Emits Effect.Undelivered (incomingEvent b m cfg fd io) := by
  have hremove : ∀ index, Call.Emits Effect.Undelivered (removeIncoming index true) := fun _ =>
    removeIncoming_routine.mono fun _ h => h.plain.undelivered
  refine .bind .get fun st => ?_
  cases findIncoming st.incoming fd with
  | none => exact .pure
  | some index =>
      dsimp only
      cases ctPlainFrameAvailable b b.controlBufferSize io.queued with
      | failed => exact hremove index
      | later => exact .modify
      | frame hd =>
          refine .ite (fun _ => incomingHello_routine.mono fun _ h => h.plain.undelivered) fun _ => ?_
          refine .ite (fun _ => incomingBind_routine.mono fun _ h => h.plain.undelivered) fun _ => ?_
          exact .ite (fun _ => incomingAuth_undelivered) fun _ => hremove index

theorem serviceEvent_undelivered {svc : Nat} {io : ServiceIo} :
    Call.Emits Effect.Undelivered (serviceEvent b m cfg svc io) := by
  refine .bind .get fun p => ?_
  cases (if (p.service svc).listenFd = [] then none else io.accepted) with
  | none => exact .pure
  | some fd =>
      refine .bind (.tell (by simp [Effect.Undelivered])) fun _ => ?_
      cases connectionMetadata b (p.service svc) io.names with
      | none => exact .tell (by simp [Effect.Undelivered])
      | some md =>
          refine .ite (fun _ => .tell (by simp [Effect.Undelivered])) fun _ => .bind .modify fun _ => ?_
          refine .bind (.tell (by simp [Effect.Undelivered])) fun _ => .bind .get fun q => ?_
          have hmatch := (@matchPending_routine b m cfg io.starts).mono fun _ h => h.plain.undelivered
          exact .ite (fun _ => .bind (.attempt onControl_undelivered) fun _ => hmatch) fun _ => hmatch

theorem serverUdpFromExternal_undelivered {svc : Nat} {listener : Socket} {now : UInt64}
    {io : UdpExternalIo} :
    Call.Emits Effect.Undelivered (serverUdpFromExternal b m svc listener now io) := by
  refine .bind .get fun p => ?_
  cases ctUdpRecv b b.maxUdpDatagramSize io.recv with
  | failed => exact .need
  | nothing => exact .pure
  | datagram peer payload =>
      refine .ite (fun _ => .tell (by simp [Effect.Undelivered])) fun _ => ?_
      refine .bind .get fun q => .bind (.attempt ?_) fun found => ?_
      · cases serverUdpFind b q svc peer with
        | some i => exact .pure
        | none =>
            refine .bind .get fun _ => .bind (.onFail (by simp [Effect.Undelivered]) .check) fun _ => ?_
            refine .bind (.onFail (by simp [Effect.Undelivered]) .need) fun _ => ?_
            refine .bind .modify fun _ => .bind .modify fun _ => ?_
            exact .bind (.tell (by simp [Effect.Undelivered])) fun _ => .pure
      · cases found with
        | none => exact .tell (by simp [Effect.Undelivered])
        | some i =>
            refine .bind .modify fun _ => .bind .get fun _ => ?_
            refine .bind (.onFail (by simp [Effect.Undelivered]) (.bind .need fun _ => ?_)) fun _ =>
              .tell (by simp [Effect.Undelivered])
            exact onControl_undelivered

theorem udpServiceEvent_undelivered {svc : Nat} {io : UdpServiceIo} :
    Call.Emits Effect.Undelivered (udpServiceEvent b m svc io) := by
  have hloop : ∀ fuel i, Call.Emits Effect.Undelivered (udpServiceLoop b m svc io fuel i) := by
    intro fuel
    induction fuel with
    | zero => exact fun i => .pure
    | succ fuel ih =>
        intro i
        refine .bind .get fun p => ?_
        cases (p.service svc).udpFd[i]? with
        | none => exact .pure
        | some s =>
            refine .bind (.attempt serverUdpFromExternal_undelivered) fun handled => ?_
            cases handled with
            | some _ => exact ih (i + 1)
            | none => exact .bind peerClose_undelivered fun _ => ih (i + 1)
  exact .bind .get fun p => hloop _ 0

theorem sweepHeartbeat_undelivered {i : Nat} {io : SweepIo} :
    Call.Emits Effect.Undelivered (sweepHeartbeat b m cfg i io) := by
  refine .bind .get fun p => .ite (fun _ => peerClose_undelivered) fun _ => ?_
  refine .ite (fun _ => .bind (.attempt onControl_undelivered) fun sent => ?_) fun _ => .pure
  cases sent with
  | some _ => exact .pure
  | none => exact peerClose_undelivered

theorem sweepPeer_undelivered {i : Nat} {io : SweepIo} :
    Call.Emits Effect.Undelivered (sweepPeer b m cfg i io) := by
  refine .bind .get fun p => .ite (fun _ => .bind .modify fun _ => ?_) fun _ => .pure
  refine .bind (.tell (List.forall_mem_flatMap.mpr fun c _ => ?_)) fun _ => .bind .modify fun _ => ?_
  · simp [Effect.Undelivered]
  refine .bind (.tell (List.forall_mem_flatMap.mpr fun s _ => ?_)) fun _ => ?_
  · simp [Effect.Undelivered]
  refine .ite (fun _ => .bind ?_ fun _ => sweepHeartbeat_undelivered) fun _ => sweepHeartbeat_undelivered
  refine .bind .get fun q => .bind .modify fun _ => .tell (List.forall_mem_flatMap.mpr fun j _ => ?_)
  split
  · simp [Effect.Undelivered]
  · simp

theorem eachPeer_undelivered {f : Nat → Call Effect ServerPeer Unit}
    (hf : ∀ i, Call.Emits Effect.Undelivered (f i)) (is : List Nat) :
    Call.Emits Effect.Undelivered (eachPeer f is) := by
  induction is with
  | nil => exact .pure
  | cons i is ih => exact .bind (.zoom (hf i)) fun _ => ih

/-- No event but that of a control channel sends a datagram. -/
theorem serverCall_undelivered {ev : ServerEvent} (hev : ∀ i io, ev ≠ .control i io) :
    Call.Emits Effect.Undelivered (serverCall b m cfg ev) := by
  cases ev with
  | accept io => exact acceptEvent_local.mono fun _ h => h.plain.undelivered
  | incoming fd io => exact incomingEvent_undelivered
  | control i io => exact absurd rfl (hev i io)
  | service i svc io => exact .zoom serviceEvent_undelivered
  | udpService i svc io => exact .zoom udpServiceEvent_undelivered
  | starting i fd io => exact .zoom (startingEvent_plain.mono fun _ h => h.undelivered)
  | relay i k side ev io => exact .zoom (relayEvent_plain.mono fun _ h => h.undelivered)
  | sweep io =>
      refine .bind .get fun st => .bind .modify fun _ => .bind (.tell ?_) fun _ => ?_
      · exact List.forall_mem_map.mpr fun c _ => by simp [Effect.Undelivered]
      · exact eachPeer_undelivered (fun i => sweepPeer_undelivered) _
  | stop goaway =>
      refine .bind (eachPeer_undelivered (fun i => peerClose_undelivered) _) fun _ => .bind .get ?_
      refine fun st => .bind (.tell (List.forall_mem_append.mpr ⟨?_, ?_⟩)) fun _ => .modify
      · exact List.forall_mem_map.mpr fun c _ => by simp [Effect.Undelivered]
      · exact List.forall_mem_map.mpr fun s _ => by simp [Effect.Undelivered]

end Undelivered

section Delivered

/-- A datagram in the trace went to the endpoint of a session of `p`, through its socket. -/
def Delivered (p : ServerPeer) (tr : List Effect) : Prop :=
  ∀ fd destination bytes, Effect.datagram fd destination bytes ∈ tr →
    ∃ j, (p.udp j).active = true ∧ (p.udp j).listener = fd ∧ (p.udp j).peer = destination

theorem delivered_append {tr es : List Effect} (h : Delivered p tr)
    (hes : ∀ e ∈ es, e.Undelivered) : Delivered p (tr ++ es) := by
  intro fd destination bytes hmem
  rcases List.mem_append.mp hmem with hmem | hmem
  · exact h fd destination bytes hmem
  · exact absurd rfl (hes _ hmem fd destination bytes)

/-- A call that sends no datagram. -/
theorem delivered_ends {σ α : Type} {x : Call Effect σ α} {s : σ} {tr : List Effect}
    (hx : Call.Emits Effect.Undelivered x) (h : Delivered p tr) :
    (x s).Ends tr (fun _ _ => Delivered p) (fun _ => Delivered p) :=
  .mk (fun _ _ => delivered_append h (hx s)) fun _ => delivered_append h (hx s)

theorem ctControlRecv_undelivered {cap : Nat} {io : RecvIo} :
    Call.Emits Effect.Undelivered (ctControlRecv b m cap io) := by
  refine .bind .get fun _ => .bind .need fun _ => .bind .need fun _ => .bind .check fun _ => ?_
  refine .bind .check fun _ => .bind .need fun _ => ?_
  refine .bind (.tell (by simp [Effect.Undelivered])) fun _ => .bind .need fun _ => ?_
  exact .bind .modify fun _ => .bind (.tell (by simp [Effect.Undelivered])) fun _ => .pure

/-- A datagram of the client goes to the endpoint of the session it names. -/
theorem serverUdpFromClient_delivered {payload : Bytes} {now : UInt64} {io : SendTo}
    {tr : List Effect} (h : Delivered p tr) :
    (serverUdpFromClient b payload now io p).Ends tr (fun _ _ => Delivered p)
      (fun _ => Delivered p) := by
  refine .bind (Q := fun _ p' tr' => p = p' ∧ tr = tr') (.onFail (.of_bind_pure (.need ?_ ?_))) ?_
  · exact fun f _ => .ret ⟨rfl, rfl⟩
  · exact fun _ => delivered_append h (by simp [Effect.Undelivered])
  · rintro f _ _ ⟨rfl, rfl⟩
    refine .get ?_
    cases hfind : (serverUdpFindId b p f.id).filter fun i =>
        (p.service (p.udp i).svc).cfg.id == f.service && endpointEqual (p.udp i).peer f.peer with
    | none => exact .of_bind_pure (.tell (.ret (delivered_append h (by simp [Effect.Undelivered]))))
    | some i =>
        have hactive : (p.udp i).active = true := by
          obtain ⟨hid, -⟩ := Option.filter_eq_some_iff.mp hfind
          have hprop := List.find?_some hid
          simp only [Bool.and_eq_true] at hprop
          exact hprop.1
        dsimp only
        cases udpReplayAccept b.udpReplayWindow (p.udp i).rxHigh (p.udp i).rxBitmap f.seq with
        | none => exact .of_bind_pure (.tell (.ret (delivered_append h (by simp [Effect.Undelivered]))))
        | some window =>
            have hsent : ∀ tr', tr' = tr ∨ tr' = tr ++
                [.datagram (p.udp i).listener (p.udp i).peer f.payload] → Delivered p tr' := by
              rintro tr' (rfl | rfl)
              · exact h
              · intro fd destination bytes hmem
                rcases List.mem_append.mp hmem with hmem | hmem
                · exact h fd destination bytes hmem
                · injection List.mem_singleton.mp hmem with hfd hdest
                  exact ⟨i, hactive, hfd.symm, hdest.symm⟩
            refine .modify (.bind (Q := fun _ _ => Delivered p) (.onFail ?_) ?_)
            · refine (ctUdpSend_ends _ tr).mono (fun _ _ tr' h' => hsent tr' h'.2) fun _ tr' h' => ?_
              exact delivered_append (hsent tr' h'.2) (by simp [Effect.Undelivered])
            · intro _ p' tr' h'
              exact .of_bind_pure (.tell (.ret (delivered_append h' (by simp [Effect.Undelivered]))))

theorem serverControl_delivered {control : List BoundSocket} {peers : Nat → ServerPeer}
    {io : ControlIo} {tr : List Effect} (h : Delivered p tr) :
    (serverControl b m cfg control peers io p).Ends tr (fun _ _ => Delivered p)
      (fun _ => Delivered p) := by
  have hrecv : (onControl (ctControlRecv b m b.controlBufferSize
      ⟨io.queued.inbox io.more, io.alloc, io.now⟩) p).Ends tr
      (fun _ p' tr' => p'.udp = p.udp ∧ Delivered p tr') (fun _ => Delivered p) := by
    have hemit : Call.Emits Effect.Undelivered (onControl (ctControlRecv b m b.controlBufferSize
        ⟨io.queued.inbox io.more, io.alloc, io.now⟩)) := .zoom ctControlRecv_undelivered
    exact .mk (fun _ _ => ⟨rfl, delivered_append h (hemit p)⟩) fun _ => delivered_append h (hemit p)
  refine .bind hrecv ?_
  rintro ⟨hd, payload⟩ p' tr' ⟨hudp, h'⟩
  have hsame : ∀ tr, Delivered p' tr ↔ Delivered p tr := by
    intro tr
    unfold Delivered
    rw [hudp]
  refine .ite (fun _ => delivered_ends registerService_undelivered h') fun _ => ?_
  refine .ite (fun _ => ?_) fun _ => .ite (fun _ => delivered_ends onControl_undelivered h') fun _ => ?_
  · exact (serverUdpFromClient_delivered ((hsame tr').mpr h')).mono (fun _ _ tr => (hsame tr).mp)
      fun _ tr => (hsame tr).mp
  · exact delivered_ends (.ite (fun _ => .pure) fun _ => .need) h'

/-- What REF_CONTROL of the peer in slot `i` sends goes to endpoints of its sessions. -/
theorem controlEvent_delivered (i : Nat) (io : ControlIo) (st : ServerState) :
    Delivered (st.peers i) (controlEvent b m cfg i io st).effects := by
  have hnil : Delivered (st.peers i) [] := fun _ _ _ h => absurd h (by simp)
  have hend : (controlEvent b m cfg i io st).Ends [] (fun _ _ => Delivered (st.peers i))
      (fun _ => Delivered (st.peers i)) := by
    unfold controlEvent
    cases ctFrameAvailable b (b.controlBufferSize + ctAeadTag) ctFlagEncrypted io.queued with
    | failed => exact delivered_ends (.zoom peerClose_undelivered) hnil
    | later => exact delivered_ends (.zoom .modify) hnil
    | frame hd =>
        refine .get (.zoom (.modify (.bind (Q := fun _ _ => Delivered (st.peers i))
          (.attempt ?_) ?_)))
        · exact serverControl_delivered (p := { st.peers i with
            ctl := { (st.peers i).ctl with readRetryAfterMs := 0 } }) hnil
        · intro handled p' tr' h
          cases handled with
          | some _ => exact .ret h
          | none => exact delivered_ends peerClose_undelivered h
  cases hv : (controlEvent b m cfg i io st).value with
  | some _ => exact hend.of_some hv
  | none => exact hend.of_none hv

end Delivered

end Ctunnel
