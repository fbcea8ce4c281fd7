import Ctunnel.Net.Gauges
import Ctunnel.Server.Conns

/-!
# The gauges of the server

Every call on a peer shifts the gauges by what it makes of the tables of the peer:
one lemma per function. A slot of `relays` is given to a new stream when its relay
is closed or has no direct socket, so an open relay is only ever overwritten if it
had none; the sockets the server accepts are valid.
-/

namespace Ctunnel

open Lib

/-! ## What a peer counts for -/

def peerGauge (b : Build) (p : ServerPeer) : Gauge → Nat :=
  tableGauge b p.pending.length p.work.length p.relays fun i => (p.udp i).active

/-- What all peers count for. -/
def serverGauge (b : Build) (st : ServerState) (g : Gauge) : Nat :=
  ∑ i ∈ Finset.range b.maxClients, peerGauge b (st.peers i) g

/-- An open relay of the server is accounted for with all its bytes, and has a direct socket. -/
structure CtRelay.Serving (b : Build) (r : CtRelay) : Prop where
  accounted : r.streamAccounted = true
  balanced : r.Balanced b
  direct : r.direct ≠ invalidSocket

/-- The open relays of a peer are in its table, and its streams have sockets. -/
structure ServerPeer.Sound (b : Build) (p : ServerPeer) : Prop where
  relays : ∀ k, (p.relays k).closed = false → k < b.maxStreams ∧ (p.relays k).Serving b
  pending : ∀ c ∈ p.pending, c.fd ≠ invalidSocket
  starting : ∀ s ∈ p.starting, s.pending.fd ≠ invalidSocket

theorem ServerPeer.Sound.zero (b : Build) : ServerPeer.Sound b .zero where
  relays := fun _ h => absurd h (by simp [ServerPeer.zero, CtRelay.unused])
  pending := fun _ h => absurd h (by simp [ServerPeer.zero])
  starting := fun _ h => absurd h (by simp [ServerPeer.zero])

/-- The trace led the gauges from zero to what the peer and the rest count for. -/
structure PeerLevel (b : Build) (rest : Gauge → Nat) (p : ServerPeer) (tr : List Effect) :
    Prop where
  sound : p.Sound b
  shifts : Shifts 0 tr (peerGauge b p + rest)

/-- The tables the gauges count. -/
structure SameTables (p p' : ServerPeer) : Prop where
  pending : p'.pending = p.pending
  work : p'.work = p.work
  starting : p'.starting = p.starting
  relays : p'.relays = p.relays
  udp : ∀ i, (p'.udp i).active = (p.udp i).active

theorem SameTables.refl (p : ServerPeer) : SameTables p p := ⟨rfl, rfl, rfl, rfl, fun _ => rfl⟩

section Peer

variable {b : Build} {m : Monocypher} {cfg : CtConfig} {rest : Gauge → Nat} {p p' : ServerPeer}
  {tr l : List Effect}

theorem PeerLevel.step (h : PeerLevel b rest p tr) (hsound : p'.Sound b)
    (hshift : Shifts (peerGauge b p) l (peerGauge b p')) : PeerLevel b rest p' (tr ++ l) :=
  ⟨hsound, h.shifts.trans (hshift.add rest)⟩

theorem SameTables.gauge (h : SameTables p p') : peerGauge b p' = peerGauge b p := by
  have hudp : (fun i => (p'.udp i).active) = fun i => (p.udp i).active := funext h.udp
  rw [peerGauge, peerGauge, h.pending, h.work, h.relays, hudp]

theorem SameTables.sound (h : SameTables p p') (hp : p.Sound b) : p'.Sound b where
  relays := by
    rw [h.relays]
    exact hp.relays
  pending := by
    rw [h.pending]
    exact hp.pending
  starting := by
    rw [h.starting]
    exact hp.starting

/-- What leaves the tables and the gauges alone. -/
theorem PeerLevel.same (h : PeerLevel b rest p tr) (hsame : SameTables p p')
    (hl : ∀ e ∈ l, e.Ungauged) : PeerLevel b rest p' (tr ++ l) := by
  refine h.step (hsame.sound h.sound) ?_
  rw [hsame.gauge]
  exact .still hl _

theorem PeerLevel.quiet (h : PeerLevel b rest p tr) (hl : ∀ e ∈ l, e.Ungauged) :
    PeerLevel b rest p (tr ++ l) := h.same (.refl p) hl

theorem PeerLevel.alike {q : ServerPeer} (h : PeerLevel b rest p tr) (hsound : q.Sound b)
    (hgauge : peerGauge b q = peerGauge b p) : PeerLevel b rest q tr :=
  ⟨hsound, hgauge ▸ h.shifts⟩

theorem PeerLevel.silent (h : PeerLevel b rest p tr) (hsame : SameTables p p') :
    PeerLevel b rest p' tr := h.alike (hsame.sound h.sound) hsame.gauge

/-- A call on a peer shifts the gauges by what it makes of the tables. -/
def KeepsLevel (b : Build) {α : Type} (x : Call Effect ServerPeer α) : Prop :=
  ∀ rest p tr, PeerLevel b rest p tr →
    (x p).Ends tr (fun _ => PeerLevel b rest) (PeerLevel b rest)

/-- A call that leaves the tables and the gauges alone. -/
theorem KeepsLevel.aside {α : Type} {x : Call Effect ServerPeer α}
    (hx : Call.Emits Effect.Ungauged x) (hkeep : ∀ p, Call.Keeps (SameTables p) x) :
    KeepsLevel b x := fun _ p _ h =>
  .mk (fun _ _ => h.same (hkeep p p (.refl p)) (hx p))
    (fun _ => h.same (hkeep p p (.refl p)) (hx p))

theorem SameTables.ctl (h : SameTables p p') (c : CtControl) :
    SameTables p { p' with ctl := c } := { h with }

theorem onControl_level {α : Type} {x : Call Effect CtControl α}
    (hx : Call.Emits Effect.Ungauged x) : KeepsLevel b (onControl x) :=
  .aside (.zoom hx) fun _ => onControl_keeps fun _ c h => h.ctl c

theorem setReadRetry_level (ms : UInt64) : KeepsLevel b (setReadRetry ms) :=
  .aside .modify fun _ => setReadRetry_keeps fun _ c h => h.ctl c

/-! ## Closing -/

theorem closeSet_ungauged (set : List BoundSocket) : ∀ e ∈ closeSet set, e.Ungauged := by
  intro e he
  obtain ⟨s, -, rfl⟩ := List.mem_map.mp he
  trivial

theorem closes_ungauged {α : Type} (l : List α) (fd : α → Socket) :
    ∀ e ∈ l.map (fun x => Effect.socketClose (fd x)), e.Ungauged := by
  intro e he
  obtain ⟨x, -, rfl⟩ := List.mem_map.mp he
  trivial

/-- `peer_close` gives back everything the peer counts for. -/
theorem peerCloseEffects_shifts (hp : p.Sound b) :
    Shifts (peerGauge b p) (peerCloseEffects b p) (peerGauge b .zero) := by
  have hsets : ∀ sets : ServerService → List BoundSocket,
      ∀ e ∈ p.svc.flatMap (fun s => closeSet (sets s)), e.Ungauged := by
    intro sets e he
    obtain ⟨s, -, he⟩ := List.mem_flatMap.mp he
    exact closeSet_ungauged _ e he
  have hstarting : ∀ e ∈ p.starting.flatMap (fun s =>
      [Effect.socketClose s.pending.fd, .socketClose s.work.fd]), e.Ungauged := by
    intro e he
    obtain ⟨s, -, he⟩ := List.mem_flatMap.mp he
    simp only [List.mem_cons, List.not_mem_nil, or_false] at he
    rcases he with rfl | rfl <;> trivial
  have hfirst : Shifts (peerGauge b p) [.socketClose p.ctl.fd] (peerGauge b p) :=
    .still (by simp [Effect.Ungauged]) _
  have hwork := (((hfirst.quiet (hsets ServerService.listenFd)).quiet
    (hsets ServerService.udpFd)).quiet (closes_ungauged p.work CtWork.fd)).trans
    (Shifts.queues (.clearWork p.work))
  have hpending := (hwork.quiet (closes_ungauged p.pending PendingConn.fd)).trans
    (Shifts.queues (.clearPending p.pending))
  have hrelays := (hpending.quiet hstarting).trans (Shifts.eachRelay (fun _ => .unused)
    (fun k => if (p.relays k).closed then [] else (ctRelayClose b (p.relays k)).effects) ?_)
  · refine hrelays.trans (Shifts.eachSession (fun _ => false)
      (fun i => if (p.udp i).active then [.dec .udpSessionsActive] else []) fun i _ => ?_)
    cases (p.udp i).active with
    | true => exact .closeSession
    | false => exact .refl _
  · intro k _
    rw [CtRelay.gauge_closed (r := .unused) rfl]
    cases hclosed : (p.relays k).closed with
    | true =>
        rw [CtRelay.gauge_closed hclosed]
        exact .refl 0
    | false => exact ctRelayClose_shifts hclosed (hp.relays k hclosed).2.accounted

theorem peerClose_level (io : SendIo) : KeepsLevel b (peerClose b m io) := by
  intro rest p tr h
  refine .get (.ite (fun _ => ?_) fun _ => .ret h)
  refine .bind (.attempt (Q := fun _ => PeerLevel b rest)
    (onControl_level ctControlSend_ungauged rest p tr h)) fun _ p' tr' h' => ?_
  refine .get (.tell (.of_bind_pure (.modify (.ret ?_))))
  exact h'.step (.zero b) (peerCloseEffects_shifts h'.sound)

/-! ## UDP -/

theorem SameTables.setUdp {i : Nat} {s : ServerUdpSession} (hs : s.active = (p.udp i).active) :
    SameTables p (p.setUdp i s) := by
  refine ⟨rfl, rfl, rfl, rfl, fun j => ?_⟩
  show (Function.update p.udp i s j).active = _
  by_cases hj : j = i
  · rw [hj, Function.update_self, hs]
  · rw [Function.update_of_ne hj]

theorem serverUdpCreate_level (hb : b.udp = true) (svc : Nat) (peer : CtEndpoint)
    (listener : Socket) (now : UInt64) :
    KeepsLevel b (serverUdpCreate b svc peer listener now) := by
  intro rest p tr h
  have hrejected := h.quiet (l := [.inc .udpSessionsRejectedTotal]) (by simp [Effect.Ungauged])
  refine .get (.bind (Q := fun _ p' tr' => p' = p ∧ tr' = tr) (.onFail (.of_bind_pure
    (.check (fun _ => .ret ⟨rfl, rfl⟩) fun _ => hrejected))) ?_)
  rintro - p' tr' ⟨rfl, rfl⟩
  refine .bind (Q := fun i p'' tr'' => p'' = p' ∧ tr'' = tr' ∧ i < b.maxUdpSessions ∧
    (p'.udp i).active = false) (.onFail (.of_bind_pure
    (.need (fun i hi => .ret ⟨rfl, rfl, ?_⟩) fun _ => hrejected))) ?_
  · refine ⟨List.mem_range.mp (List.mem_of_find?_eq_some hi), ?_⟩
    simpa using List.find?_some hi
  · rintro i p'' tr'' ⟨rfl, rfl, hi, hfree⟩
    refine .modify (.modify (.tell (.ret (h.step { h.sound with } ?_))))
    have hshift : Shifts (peerGauge b p'') [.inc .udpSessionsActive, .inc .udpSessionsCreatedTotal]
        (tableGauge b p''.pending.length p''.work.length p''.relays
          (Function.update (fun i => (p''.udp i).active) i true)) :=
      .session hb hi (by rw [hfree]; exact .openSession)
    have hactive : ∀ s : ServerUdpSession, (fun j => (Function.update p''.udp i s j).active) =
        Function.update (fun i => (p''.udp i).active) i s.active := fun s =>
      Function.comp_update ServerUdpSession.active p''.udp i s
    simpa only [peerGauge, ServerPeer.setUdp, hactive] using hshift

theorem serverUdpForward_level (hb : b.udp = true) (svc : Nat) (listener : Socket) (now : UInt64)
    (peer : CtEndpoint) (payload : Bytes) (io : SendIo) :
    KeepsLevel b (serverUdpForward b m svc listener now peer payload io) := by
  intro rest p tr h
  refine .get (.bind (.attempt (Q := fun _ => PeerLevel b rest) ?_) fun found p' tr' h' => ?_)
  · cases serverUdpFind b p svc peer with
    | some i => exact .ret h
    | none => exact serverUdpCreate_level hb svc peer listener now rest p tr h
  · cases found with
    | none => exact .of_bind_pure (.tell (.ret (h'.quiet (by simp [Effect.Ungauged]))))
    | some i =>
        refine .modify (.get (.bind (Q := fun _ => PeerLevel b rest) (.onFail ?_) ?_))
        · have hused : PeerLevel b rest (p'.setUdp i
              { p'.udp i with lastMs := now, txSeq := (p'.udp i).txSeq + 1 }) tr' :=
            h'.silent (.setUdp rfl)
          have hfailed : ∀ {p'' tr''}, PeerLevel b rest p'' tr'' →
              PeerLevel b rest p'' (tr'' ++ [.inc .udpDatagramsDroppedTotal]) :=
            fun h => h.quiet (by simp [Effect.Ungauged])
          refine .need (fun frame _ => ?_) fun _ => hfailed hused
          exact (onControl_level ctControlSend_ungauged rest _ tr' hused).mono (fun _ _ _ => id)
            fun _ _ => hfailed
        · intro _ p'' tr'' h''
          exact .of_bind_pure (.tell (.ret (h''.quiet (by simp [Effect.Ungauged]))))

theorem serverUdpFromExternal_level (hb : b.udp = true) (svc : Nat) (listener : Socket)
    (now : UInt64) (io : UdpExternalIo) :
    KeepsLevel b (serverUdpFromExternal b m svc listener now io) := by
  intro rest p tr h
  refine .get ?_
  cases ctUdpRecv b b.maxUdpDatagramSize io.recv with
  | failed => exact .of_bind_pure (.need (fun _ hno => absurd hno (by simp)) fun _ => h)
  | nothing => exact .ret h
  | datagram peer payload =>
      refine .ite (fun _ => ?_) fun _ =>
        serverUdpForward_level hb svc listener now peer payload io.send rest p tr h
      exact .of_bind_pure (.tell (.ret (h.quiet (by simp [Effect.Ungauged]))))

theorem udpServiceLoop_level (hb : b.udp = true) (svc : Nat) (io : UdpServiceIo) (fuel i : Nat) :
    KeepsLevel b (udpServiceLoop b m svc io fuel i) := by
  induction fuel generalizing i with
  | zero => exact fun rest p tr h => .ret h
  | succ fuel ih =>
      intro rest p tr h
      unfold udpServiceLoop
      refine .get ?_
      cases (p.service svc).udpFd[i]? with
      | none => exact .ret h
      | some s =>
          refine .bind (.attempt (Q := fun _ => PeerLevel b rest)
            (serverUdpFromExternal_level hb svc s.fd io.now (io.external i) rest p tr h)) ?_
          intro handled p' tr' h'
          cases handled with
          | some _ => exact ih (i + 1) rest p' tr' h'
          | none =>
              refine .bind (peerClose_level (io.goaway i) rest p' tr' h') ?_
              exact fun _ p'' tr'' h'' => ih (i + 1) rest p'' tr'' h''

theorem udpServiceEvent_level (hb : b.udp = true) (svc : Nat) (io : UdpServiceIo) :
    KeepsLevel b (udpServiceEvent b m svc io) :=
  fun rest p tr h => .get (udpServiceLoop_level hb svc io _ 0 rest p tr h)

theorem serverUdpFromClient_level (payload : Bytes) (now : UInt64) (io : SendTo) :
    KeepsLevel b (serverUdpFromClient b payload now io) := by
  intro rest p tr h
  refine .bind (Q := fun _ => PeerLevel b rest) (.onFail (.of_bind_pure (.need
    (fun _ _ => .ret h) fun _ => h.quiet (by simp [Effect.Ungauged])))) fun f p' tr' h' => ?_
  refine .get ?_
  cases (serverUdpFindId b p' f.id).filter fun i =>
      (p'.service (p'.udp i).svc).cfg.id == f.service && endpointEqual (p'.udp i).peer f.peer with
  | none => exact .of_bind_pure (.tell (.ret (h'.quiet (by simp [Effect.Ungauged]))))
  | some i =>
      dsimp only
      cases udpReplayAccept b.udpReplayWindow (p'.udp i).rxHigh (p'.udp i).rxBitmap f.seq with
      | none => exact .of_bind_pure (.tell (.ret (h'.quiet (by simp [Effect.Ungauged]))))
      | some w =>
          have hused : PeerLevel b rest (p'.setUdp i
              { p'.udp i with rxHigh := w.1, rxBitmap := w.2, lastMs := now }) tr' :=
            h'.silent (.setUdp rfl)
          have hsend : KeepsLevel b (ctUdpSend b (p'.udp i).listener (p'.udp i).peer f.payload io) :=
            .aside ctUdpSend_ungauged fun _ => ctUdpSend_keeps
          refine .modify (.bind (Q := fun _ => PeerLevel b rest) (.onFail
            ((hsend rest _ tr' hused).mono (fun _ _ _ => id) fun _ _ h =>
              h.quiet (by simp [Effect.Ungauged]))) ?_)
          intro _ p'' tr'' h''
          exact .of_bind_pure (.tell (.ret (h''.quiet (by simp [Effect.Ungauged]))))

theorem serverUdpExpire_level (hb : b.udp = true) (now : UInt64) :
    KeepsLevel b (serverUdpExpire b now) := by
  intro rest p tr h
  refine .get (.modify (.of_bind_pure (.tell (.ret (h.step { h.sound with } ?_)))))
  have hshift := @Shifts.eachSession b p.pending.length p.work.length p.relays
    (fun i => (p.udp i).active)
    (fun i => (if (p.udp i).active &&
      decide ((now - (p.udp i).lastMs).toNat > (p.service (p.udp i).svc).cfg.udpIdleTimeout * 1000)
      then ServerUdpSession.zero else p.udp i).active)
    (fun i => if (p.udp i).active &&
      decide ((now - (p.udp i).lastMs).toNat > (p.service (p.udp i).svc).cfg.udpIdleTimeout * 1000)
      then [.dec .udpSessionsActive, .inc .udpSessionsExpiredTotal] else []) fun i _ => ?_
  · rw [if_pos hb] at hshift
    exact hshift
  · split
    · rename_i hexpired
      rw [(Bool.and_eq_true_iff.mp hexpired).1]
      exact Shifts.closeSession.quiet (l := [.inc .udpSessionsExpiredTotal])
        (by simp [Effect.Ungauged])
    · exact .refl _

/-! ## The control connection -/

theorem Effect.ungauged_of_onSocket {e : Effect} (h : e.onSocket = true) : e.Ungauged := by
  cases e <;> trivial

theorem registerService_level (control : List BoundSocket) (peers : Nat → ServerPeer)
    (payload : Bytes) (io : RegisterIo) :
    KeepsLevel b (registerService b m cfg control peers payload io) := by
  intro rest p tr h
  refine .need (fun r _ => ?_) fun _ => h
  have hchecks : KeepsLevel b (registerChecks b cfg control peers r io.bind) := by
    refine .aside (registerChecks_sockets.mono fun _ => Effect.ungauged_of_onSocket) fun q p hp => ?_
    refine Reply.Ends.state [] (I := SameTables q)
      ((registerChecks_ends control peers r io.bind p).mono ?_ ?_)
    · rintro _ _ _ ⟨rfl, -⟩
      exact hp
    · rintro _ _ ⟨rfl, -⟩
      exact hp
  refine .bind (hchecks rest p tr h) fun result p' tr' h' => ?_
  cases result with
  | ok service =>
      refine .modify (onControl_level ctControlSend_ungauged rest _ tr' ?_)
      exact h'.silent ⟨rfl, rfl, rfl, rfl, fun _ => rfl⟩
  | error why => exact onControl_level ctControlSend_ungauged rest p' tr' h'

theorem serverControl_level (control : List BoundSocket) (peers : Nat → ServerPeer)
    (io : ControlIo) : KeepsLevel b (serverControl b m cfg control peers io) := by
  intro rest p tr h
  refine .bind (onControl_level ctControlRecv_ungauged rest p tr h) fun (hd, payload) p' tr' h' => ?_
  refine .ite (fun _ => registerService_level control peers payload io.register rest p' tr' h')
    fun _ => ?_
  refine .ite (fun _ => serverUdpFromClient_level payload io.now io.sendTo rest p' tr' h')
    fun _ => ?_
  refine .ite (fun _ => onControl_level ctControlSend_ungauged rest p' tr' h') fun _ => ?_
  refine .ite (fun _ => .ret h') fun _ => .of_bind_pure (.need (fun _ hno => ?_) fun _ => h')
  exact absurd hno (by simp)

/-! ## Matching -/

theorem startRelayBegin_level {pending : PendingConn} (hfd : pending.fd ≠ invalidSocket)
    (work : CtWork) (timeout : UInt64) (io : StartIo) :
    KeepsLevel b (startRelayBegin b m pending work timeout io) := by
  intro rest p tr h
  refine .get (.check (fun _ => .modify ?_) fun _ => h)
  have hsend : KeepsLevel b (ctStartStreamSend b m work p.ctl (p.service pending.svc).cfg.id
      (nextStreamId p.nextStream) (p.service pending.svc).cfg.encryption (some pending.metadata)
      io.random io.send) := by
    refine .aside ctStartStreamSend_ungauged fun _ => ?_
    refine .bind .need fun _ => .bind .need fun _ => .bind .need fun _ => .bind .tell fun _ => ?_
    exact .bind ctPlainSend_keeps fun _ => .pure
  have hnumbered : PeerLevel b rest { p with nextStream := nextStreamId p.nextStream } tr :=
    h.silent ⟨rfl, rfl, rfl, rfl, fun _ => rfl⟩
  refine .bind (hsend rest _ tr hnumbered) fun random p' tr' h' => ?_
  refine .of_bind_pure (.modify (.ret (h'.alike ?_ rfl)))
  refine { h'.sound with starting := fun s hs => ?_ }
  rcases List.mem_append.mp hs with hs | hs
  · exact h'.sound.starting s hs
  · rw [List.mem_singleton.mp hs]
    exact hfd

theorem matchOne_level {pc : PendingConn} {w : CtWork} (io : StartIo)
    (hpending : p.pending.head? = some pc) (hwork : p.work.getLast? = some w)
    (h : PeerLevel b rest p tr) :
    (matchOne b m cfg pc w io p).Ends tr (fun _ => PeerLevel b rest) (PeerLevel b rest) := by
  obtain ⟨waiting, hwaiting⟩ : ∃ l, p.pending = pc :: l := List.head?_eq_some_iff.mp hpending
  obtain ⟨idle, hidle⟩ : ∃ l, p.work = l ++ [w] := List.getLast?_eq_some_iff.mp hwork
  have htaken : PeerLevel b rest { p with pending := p.pending.tail, work := p.work.dropLast }
      (tr ++ [.dec .pendingStreams, .dec .workIdle]) := by
    refine h.step { h.sound with pending := fun c hc => ?_ } ?_
    · exact h.sound.pending c (List.mem_of_mem_tail hc)
    · refine Shifts.queues ?_
      rw [hwaiting, hidle, List.dropLast_concat, List.length_append]
      exact Shifts.popPending.trans Shifts.popWork
  have hfd : pc.fd ≠ invalidSocket := h.sound.pending pc (by rw [hwaiting]; exact List.mem_cons_self)
  refine .modify (.tell (.bind (.attempt (Q := fun _ => PeerLevel b rest)
    (startRelayBegin_level hfd w _ io rest _ _ htaken)) fun started p' tr' h' => ?_))
  cases started with
  | some _ => exact .ret h'
  | none => exact .of_bind_pure (.tell (.ret (h'.quiet (by simp [Effect.Ungauged]))))

theorem matchLoop_level (io : Nat → StartIo) (fuel : Nat) :
    KeepsLevel b (matchLoop b m cfg io fuel) := by
  induction fuel with
  | zero => exact fun rest p tr h => .ret h
  | succ fuel ih =>
      intro rest p tr h
      unfold matchLoop
      refine .get ?_
      cases hpending : p.pending.head? with
      | none => exact .ret h
      | some pc =>
          cases hwork : p.work.getLast? with
          | none => exact .ret h
          | some w =>
              refine .ite (fun _ => ?_) fun _ => .ret h
              exact .bind (matchOne_level (io fuel) hpending hwork h)
                fun _ p' tr' h' => ih rest p' tr' h'

theorem matchPending_level (io : Nat → StartIo) : KeepsLevel b (matchPending b m cfg io) :=
  fun rest p tr h => .get (matchLoop_level io _ rest p tr h)

theorem serviceEvent_level (svc : Nat) {io : ServiceIo}
    (hvalid : io.accepted ≠ some invalidSocket) : KeepsLevel b (serviceEvent b m cfg svc io) := by
  intro rest p tr h
  refine .get ?_
  cases haccepted : (if (p.service svc).listenFd = [] then none else io.accepted) with
  | none => exact .ret h
  | some fd =>
      have hfd : fd ≠ invalidSocket := by
        split at haccepted
        · exact absurd haccepted (by simp)
        · rintro rfl
          exact hvalid haccepted
      have hopen := h.quiet (l := [.socketOpen fd]) (by simp [Effect.Ungauged])
      refine .tell ?_
      cases connectionMetadata b (p.service svc) io.names with
      | none => exact .of_bind_pure (.tell (.ret (hopen.quiet (by simp [Effect.Ungauged]))))
      | some md =>
          refine .ite (fun _ => .of_bind_pure (.tell (.ret (hopen.quiet
            (by simp [Effect.Ungauged]))))) fun _ => .modify (.tell ?_)
          have hwaits : PeerLevel b rest { p with
              pending := p.pending ++ [⟨fd, svc, md, io.now + timeoutMs cfg.connectTimeout⟩] }
              (tr ++ [.socketOpen fd] ++ [.inc .pendingStreams]) := by
            refine hopen.step { h.sound with pending := fun c hc => ?_ } (Shifts.queues ?_)
            · rcases List.mem_append.mp hc with hc | hc
              · exact h.sound.pending c hc
              · rw [List.mem_singleton.mp hc]
                exact hfd
            · rw [List.length_append]
              exact .pushPending
          refine .get (.ite (fun _ => ?_) fun _ => matchPending_level io.starts rest _ _ hwaits)
          refine .bind (.attempt (Q := fun _ => PeerLevel b rest)
            (onControl_level ctControlSend_ungauged rest _ _ hwaits)) fun _ p' tr' h' => ?_
          exact matchPending_level io.starts rest p' tr' h'

/-! ## Starting streams -/

/-- A slot of the table gets another relay. -/
theorem PeerLevel.relay (h : PeerLevel b rest p tr) {k : Nat} {r : CtRelay}
    (hk : k < b.maxStreams) (hshift : Shifts (p.relays k).gauge l r.gauge)
    (hr : r.closed = false → r.Serving b) :
    PeerLevel b rest { p with relays := Function.update p.relays k r } (tr ++ l) := by
  refine h.step { h.sound with relays := fun j hj => ?_ } (Shifts.relay hk hshift)
  replace hj : (Function.update p.relays k r j).closed = false := hj
  show j < b.maxStreams ∧ (Function.update p.relays k r j).Serving b
  by_cases hjk : j = k
  · subst hjk
    rw [Function.update_self] at hj ⊢
    exact ⟨hk, hr hj⟩
  · rw [Function.update_of_ne hjk] at hj ⊢
    exact h.sound.relays j hj

theorem startRelayFinish_level {s : StartingConn} (hfd : s.pending.fd ≠ invalidSocket)
    (io : FinishIo) : KeepsLevel b (startRelayFinish b m s io) := by
  intro rest p tr h
  refine .get (.need (fun k hk => ?_) fun _ => h)
  have hlt : k < b.maxStreams := List.mem_range.mp (List.mem_of_find?_eq_some hk)
  have hfree : (p.relays k).closed = true ∨ (p.relays k).direct = invalidSocket := by
    simpa using List.find?_some hk
  have hclosed : (p.relays k).closed = true := by
    by_contra hopen
    rcases hfree with hclosed | hnone
    · exact hopen hclosed
    · exact (h.sound.relays k (by simpa using hopen)).2.direct hnone
  let cfg := (p.service s.pending.svc).cfg
  refine .bind (Q := fun _ p' tr' => p'.relays = p.relays ∧ PeerLevel b rest p' tr') ?_ ?_
  · have hrecv : Call.Keeps (SameTables p)
        (ctStreamReadyRecv b m s.work p.ctl cfg.id cfg.encryption s.streamId s.random io.inbox) := by
      refine .bind .need fun _ => .bind .check fun _ => .bind .need fun _ => .bind .check fun _ => ?_
      exact .bind .need fun _ => .bind .tell fun _ => .bind .check fun _ => .bind .tell fun _ => .pure
    have hsame := hrecv p (.refl p)
    exact .mk (fun _ _ => ⟨hsame.relays, h.same hsame (ctStreamReadyRecv_ungauged p)⟩)
      fun _ => h.same hsame (ctStreamReadyRecv_ungauged p)
  · rintro ok p' tr' ⟨hrelays, h'⟩
    refine .check (fun _ => ?_) fun _ => h'
    obtain ⟨hshift, hopened⟩ := relayInit_shifts (b := b) (m := m) .server p.ctl
      ⟨s.pending.fd, s.work.fd, ⟨s.streamId, s.random, s.work.id, cfg.id, cfg.encryption⟩, none,
        io.alloc⟩ (p'.relays k)
    rw [← CtRelay.gauge_closed hclosed, ← hrelays] at hshift
    have hend := h'.relay hlt hshift fun hopen => ?_
    · exact .mk (fun _ _ => hend) fun _ => hend
    · obtain ⟨haccounted, hbalanced, hplain, hdirect⟩ := hopened hopen
      refine ⟨haccounted, hbalanced (hplain rfl), ?_⟩
      rw [hdirect]
      exact hfd

theorem removeStarting_level (index : Nat) (closing : Bool) :
    KeepsLevel b (removeStarting index closing) := by
  intro rest p tr h
  refine .get ?_
  cases p.starting[index]? with
  | none => exact .ret h
  | some s =>
      have hremoved : ∀ {tr'}, PeerLevel b rest p tr' →
          PeerLevel b rest { p with starting := swapRemove p.starting index } tr' := by
        intro tr' h'
        refine h'.alike { h'.sound with starting := fun s hs => ?_ } rfl
        exact h'.sound.starting s ((swapRemove_subperm p.starting index).subset hs)
      cases closing with
      | true =>
          have hclosed := h.quiet (l := [.socketClose s.pending.fd, .socketClose s.work.fd])
            (by simp [Effect.Ungauged])
          exact .tell (.of_bind_pure (.modify (.ret (hremoved hclosed))))
      | false => exact .of_bind_pure (.modify (.ret (hremoved h)))

theorem startingEvent_level (fd : Socket) (io : StartingIo) :
    KeepsLevel b (startingEvent b m fd io) := by
  intro rest p tr h
  refine .get ?_
  cases p.starting.findIdx? fun s => s.work.fd == fd with
  | none => exact .ret h
  | some index =>
      dsimp only
      cases ctPlainFrameAvailable b b.controlBufferSize io.queued with
      | failed => exact removeStarting_level index true rest p tr h
      | later =>
          refine .of_bind_pure (.modify (.ret (h.alike { h.sound with starting := ?_ } rfl)))
          intro s hs
          obtain ⟨j, hj⟩ := List.mem_iff_getElem?.mp hs
          rw [List.getElem?_modify] at hj
          obtain ⟨s', hs', rfl⟩ := Option.map_eq_some_iff.mp hj
          have hvalid := h.sound.starting s' (List.mem_of_getElem? hs')
          split <;> exact hvalid
      | frame hd =>
          cases hs : p.starting[index]? with
          | none => exact removeStarting_level index true rest p tr h
          | some s =>
              have hfd := h.sound.starting s (List.mem_of_getElem? hs)
              refine .bind (.attempt (Q := fun _ => PeerLevel b rest)
                (startRelayFinish_level hfd _ rest p tr h)) fun finished p' tr' h' => ?_
              exact removeStarting_level index finished.isNone rest p' tr' h'

/-! ## Relays -/

theorem relayEvent_level (k : Nat) (side : Side) (ev : EvMask) (io : RelayIo) :
    KeepsLevel b (onRelay k (Call.ofOutcome fun r =>
      ctRelayProcess b m (match side with | .direct => r.direct | .work => r.work) ev io r)) := by
  intro rest p tr h
  have hevent : ∀ fd, PeerLevel b rest
      { p with
        relays := Function.update p.relays k (ctRelayProcess b m fd ev io (p.relays k)).state }
      (tr ++ (ctRelayProcess b m fd ev io (p.relays k)).effects) := by
    intro fd
    cases hclosed : (p.relays k).closed with
    | true =>
        rw [ctRelayProcess, if_pos hclosed]
        refine h.same ⟨rfl, rfl, rfl, ?_, fun _ => rfl⟩ (by simp)
        exact Function.update_eq_self k p.relays
    | false =>
        obtain ⟨hk, hserving⟩ := h.sound.relays k hclosed
        obtain ⟨hshift, hopen⟩ := ctRelayProcess_shifts (b := b) (m := m) fd ev io
          (r := p.relays k) fun _ => hserving.accounted
        refine h.relay hk hshift fun hstill => ?_
        obtain ⟨haccounted, hbalanced, hsame⟩ := hopen hstill
        exact ⟨haccounted, hbalanced, hsame ▸ hserving.direct⟩
  exact .zoom (.ofOutcome (.mk (fun _ => hevent _) fun _ => hevent _))

/-! ## The sweep -/

theorem sweepHeartbeat_level (i : Nat) (io : SweepIo) :
    KeepsLevel b (sweepHeartbeat b m cfg i io) := by
  intro rest p tr h
  refine .get (.ite (fun _ => peerClose_level (io.goaway i) rest p tr h) fun _ => ?_)
  refine .ite (fun _ => ?_) fun _ => .ret h
  refine .bind (.attempt (Q := fun _ => PeerLevel b rest)
    (onControl_level ctControlSend_ungauged rest p tr h)) fun sent p' tr' h' => ?_
  cases sent with
  | some _ => exact .ret h'
  | none => exact peerClose_level (io.goaway i) rest p' tr' h'

theorem sweepPeer_level (i : Nat) (io : SweepIo) : KeepsLevel b (sweepPeer b m cfg i io) := by
  intro rest p tr h
  refine .get (.ite (fun _ => ?_) fun _ => .ret h)
  have hpending : PeerLevel b rest
      { p with pending := (sweepList (fun c => decide (c.deadline < io.now)) p.pending).1 }
      (tr ++ (sweepList (fun c => decide (c.deadline < io.now)) p.pending).2.flatMap fun c =>
        [.socketClose c.fd, .dec .pendingStreams, .inc .streamsFailedTotal]) := by
    refine sweepTable_keeps (I := fun l tr => PeerLevel b rest { p with pending := l } tr) ?_ _ 0
      p.pending tr h
    intro l tr' index c hc h'
    refine h'.step { h'.sound with pending := fun c' hc' => ?_ } (Shifts.queues ?_)
    · exact h'.sound.pending c' ((swapRemove_subperm l index).subset hc')
    · rw [← swapRemove_length hc]
      have hclose : Shifts (queueGauge ((swapRemove l index).length + 1) p.work.length)
          [.socketClose c.fd] (queueGauge ((swapRemove l index).length + 1) p.work.length) :=
        .still (by simp [Effect.Ungauged]) _
      exact (hclose.trans .popPending).quiet (l := [.inc .streamsFailedTotal])
        (by simp [Effect.Ungauged])
  refine .modify (.tell (.modify (.tell ?_)))
  generalize tr ++ (sweepList (fun c => decide (c.deadline < io.now)) p.pending).2.flatMap _ = tr'
    at hpending ⊢
  generalize (sweepList (fun c => decide (c.deadline < io.now)) p.pending).1 = left at hpending ⊢
  have hstarting : PeerLevel b rest
      { p with
        pending := left
        starting := (sweepList (fun s => decide (s.deadline ≤ io.now)) p.starting).1 }
      (tr' ++ (sweepList (fun s => decide (s.deadline ≤ io.now)) p.starting).2.flatMap fun s =>
        [.socketClose s.pending.fd, .socketClose s.work.fd, .inc .streamsFailedTotal]) := by
    refine sweepTable_keeps (I := fun l tr => PeerLevel b rest
      { p with pending := left, starting := l } tr) ?_ _ 0 p.starting tr' hpending
    intro l tr'' index s hs h'
    refine (h'.alike (q := { p with pending := left, starting := swapRemove l index })
      { h'.sound with starting := fun s' hs' => ?_ } rfl).quiet (by simp [Effect.Ungauged])
    exact h'.sound.starting s' ((swapRemove_subperm l index).subset hs')
  refine .ite (fun hb => ?_) fun _ => sweepHeartbeat_level i io rest _ _ hstarting
  exact .bind (serverUdpExpire_level hb io.now rest _ _ hstarting)
    fun _ p' tr'' h' => sweepHeartbeat_level i io rest p' tr'' h'

theorem bindWork_level (fd : Socket) (inbox : Bytes) : KeepsLevel b (bindWork b m fd inbox) := by
  intro rest p tr h
  refine .bind (onControl_level ctWorkAcceptBind_ungauged rest p tr h) fun w p' tr' h' => ?_
  refine .modify (.of_bind_pure (.tell (.ret (h'.step { h'.sound with } (Shifts.queues ?_)))))
  rw [List.length_append]
  exact .pushWork

end Peer

/-! ## All peers -/

/-- The trace led the gauges from zero to what the peers count for. -/
structure ServerLevel (b : Build) (st : ServerState) (tr : List Effect) : Prop where
  sound : ∀ i, (st.peers i).Sound b
  shifts : Shifts 0 tr (serverGauge b st)

section Server

variable {b : Build} {m : Monocypher} {cfg : CtConfig} {st st' : ServerState}
  {tr l : List Effect}

theorem ServerLevel.same (h : ServerLevel b st tr)
    (hsame : AllPeers (fun i => SameTables (st.peers i)) st') (hl : ∀ e ∈ l, e.Ungauged) :
    ServerLevel b st' (tr ++ l) := by
  have hgauge : serverGauge b st' = serverGauge b st := by
    funext g
    refine Finset.sum_congr rfl fun i _ => ?_
    rw [(hsame i).gauge]
  refine ⟨fun i => (hsame i).sound (h.sound i), ?_⟩
  rw [hgauge]
  exact h.shifts.quiet hl

theorem ServerLevel.silent (h : ServerLevel b st tr)
    (hsame : AllPeers (fun i => SameTables (st.peers i)) st') : ServerLevel b st' tr := by
  have hend := h.same hsame (l := []) (by simp)
  rwa [List.append_nil] at hend

theorem ServerLevel.quiet (h : ServerLevel b st tr) (hl : ∀ e ∈ l, e.Ungauged) :
    ServerLevel b st (tr ++ l) := h.same (fun _ => .refl _) hl

/-- A call of the server shifts the gauges by what it makes of the peers. -/
def KeepsServerLevel (b : Build) {α : Type} (x : Call Effect ServerState α) : Prop :=
  ∀ st tr, ServerLevel b st tr → (x st).Ends tr (fun _ => ServerLevel b) (ServerLevel b)

theorem KeepsServerLevel.aside {α : Type} {x : Call Effect ServerState α}
    (hx : Call.Emits Effect.Ungauged x)
    (hkeep : ∀ st : ServerState, Call.Keeps (AllPeers fun i => SameTables (st.peers i)) x) :
    KeepsServerLevel b x := fun st _ h =>
  .mk (fun _ _ => h.same (hkeep st st fun _ => .refl _) (hx st))
    (fun _ => h.same (hkeep st st fun _ => .refl _) (hx st))

theorem onPeer_level {α : Type} {x : Call Effect ServerPeer α} {i : Nat} (hi : i < b.maxClients)
    (hx : KeepsLevel b x) : KeepsServerLevel b (onPeer i x) := by
  intro st tr h
  have hsum := fun g => sum_range_update hi st.peers fun p => peerGauge b p g
  choose rest hrest using hsum
  have hsplit : ∀ p, serverGauge b (st.setPeer i p) = peerGauge b p + rest :=
    fun p => funext fun g => hrest g p
  have hpeer : PeerLevel b rest (st.peers i) tr := by
    refine ⟨h.sound i, ?_⟩
    rw [← hsplit, st.setPeer_peers]
    exact h.shifts
  have hlift : ∀ p' tr', PeerLevel b rest p' tr' → ServerLevel b (st.setPeer i p') tr' := by
    intro p' tr' h'
    refine ⟨AllPeers.setPeer (I := fun _ p => ServerPeer.Sound b p) h.sound h'.sound, ?_⟩
    rw [hsplit]
    exact h'.shifts
  exact .zoom ((hx rest _ tr hpeer).mono (fun _ => hlift) hlift)

/-! ## Incoming connections -/

theorem acceptEvent_level (io : AcceptIo) : KeepsServerLevel b (acceptEvent b cfg io) := by
  refine .aside ?_ fun _ => acceptEvent_all io
  unfold acceptEvent
  cases io.accepted with
  | none => exact .pure
  | some x =>
      obtain ⟨fd, remote⟩ := x
      refine .bind (.tell (by simp [Effect.Ungauged])) fun _ => .bind .get fun _ => ?_
      exact .ite (fun _ => .tell (by simp [Effect.Ungauged])) fun _ => .modify

theorem removeIncoming_ungauged {index : Nat} {closing : Bool} :
    Call.Emits Effect.Ungauged (removeIncoming index closing) := by
  refine .bind .get fun st => ?_
  cases st.incoming.conns[index]? with
  | none => exact .pure
  | some c =>
      cases closing with
      | true => exact .bind (.tell (by simp [Effect.Ungauged])) fun _ => .modify
      | false => exact .modify

theorem removeIncoming_level (index : Nat) (closing : Bool) :
    KeepsServerLevel b (removeIncoming index closing) :=
  .aside removeIncoming_ungauged fun _ => removeIncoming_all index closing

theorem authFailed_ungauged {index slot : Nat} {now : UInt64} :
    Call.Emits Effect.Ungauged (authFailed index slot now) :=
  .bind (.tell (by simp [Effect.Ungauged])) fun _ => .bind .modify fun _ => removeIncoming_ungauged

theorem incomingHello_level (index : Nat) (c : IncomingConn) (hd : CtFrameHeader)
    (io : IncomingIo) : KeepsServerLevel b (incomingHello b m cfg index c hd io) := by
  refine .aside ?_ fun _ => incomingHello_all index c hd io
  refine .bind .get fun st => .bind .modify fun _ => .ite (fun _ => ?_) fun _ => ?_
  · exact .bind (.tell (by simp [Effect.Ungauged])) fun _ => removeIncoming_ungauged
  · refine .bind (.attempt (.bind .check fun _ => .zoom ctHandshakeServerBegin_ungauged))
      fun begun => ?_
    cases begun with
    | none => exact authFailed_ungauged
    | some _ => exact .modify

theorem incomingAuth_level (index : Nat) (c : IncomingConn) (io : IncomingIo) :
    KeepsServerLevel b (incomingAuth b m cfg index c io) := by
  refine .aside ?_ fun _ => incomingAuth_all (fun _ _ c h => h.ctl c)
    (fun _ _ _ _ h => ⟨h.pending, h.work, h.starting, h.relays, h.udp⟩) index c io
  refine .bind .get fun st => .bind .modify fun _ => .bind (.attempt ?_) fun finished => ?_
  · exact .bind .need fun i => .bind (.zoom ctHandshakeServerFinish_ungauged) fun _ => .modify
  · cases finished with
    | none => exact authFailed_ungauged
    | some _ => exact .bind .modify fun _ => removeIncoming_ungauged

theorem incomingBind_level (index : Nat) (c : IncomingConn) (hd : CtFrameHeader)
    (io : IncomingIo) : KeepsServerLevel b (incomingBind b m cfg index c hd io) := by
  intro st tr h
  refine .get ?_
  cases hfind : findSession b st.peers hd.sessionId with
  | none => exact removeIncoming_level index true st tr h
  | some i =>
      have hi : i < b.maxClients := List.mem_range.mp (List.mem_of_find?_eq_some hfind)
      refine .bind (.attempt (Q := fun _ => ServerLevel b) (.check (fun _ =>
        onPeer_level hi (bindWork_level c.fd _) st tr h) fun _ => h)) fun bound st' tr' h' => ?_
      cases bound with
      | none =>
          refine .ite (fun _ => .tell ?_) fun _ => removeIncoming_level index true st' tr' h'
          exact removeIncoming_level index true st' _ (h'.quiet (by simp [Effect.Ungauged]))
      | some _ =>
          exact .bind (removeIncoming_level index false st' tr' h')
            fun _ st'' tr'' h'' => onPeer_level hi (matchPending_level io.starts) st'' tr'' h''

theorem incomingEvent_level (fd : Socket) (io : IncomingIo) :
    KeepsServerLevel b (incomingEvent b m cfg fd io) := by
  intro st tr h
  refine .get ?_
  cases findIncoming st.incoming fd with
  | none => exact .ret h
  | some index =>
      dsimp only
      cases ctPlainFrameAvailable b b.controlBufferSize io.queued with
      | failed => exact removeIncoming_level index true st tr h
      | later => exact .of_bind_pure (.modify (.ret (h.silent fun _ => .refl _)))
      | frame hd =>
          refine .ite (fun _ => incomingHello_level index _ hd io st tr h) fun _ => ?_
          refine .ite (fun _ => incomingBind_level index _ hd io st tr h) fun _ => ?_
          exact .ite (fun _ => incomingAuth_level index _ io st tr h)
            fun _ => removeIncoming_level index true st tr h

/-! ## The loop -/

theorem controlEvent_level {i : Nat} (hi : i < b.maxClients) (io : ControlIo) :
    KeepsServerLevel b (controlEvent b m cfg i io) := by
  intro st tr h
  unfold controlEvent
  cases ctFrameAvailable b (b.controlBufferSize + ctAeadTag) ctFlagEncrypted io.queued with
  | failed => exact onPeer_level hi (peerClose_level io.goaway) st tr h
  | later => exact onPeer_level hi (setReadRetry_level _) st tr h
  | frame _ =>
      refine .get (onPeer_level hi ?_ st tr h)
      intro rest p tr h
      refine .bind (setReadRetry_level 0 rest p tr h) fun _ p' tr' h' => ?_
      refine .bind (.attempt (Q := fun _ => PeerLevel b rest)
        (serverControl_level st.control st.peers io rest p' tr' h')) fun handled p'' tr'' h'' => ?_
      cases handled with
      | some _ => exact .ret h''
      | none => exact peerClose_level io.goaway rest p'' tr'' h''

theorem eachPeer_level {f : Nat → Call Effect ServerPeer Unit} (hf : ∀ i, KeepsLevel b (f i))
    (is : List Nat) (his : ∀ i ∈ is, i < b.maxClients) : KeepsServerLevel b (eachPeer f is) := by
  induction is with
  | nil => exact fun st tr h => .ret h
  | cons i is ih =>
      intro st tr h
      refine .bind (onPeer_level (his i List.mem_cons_self) (hf i) st tr h) ?_
      exact fun _ st' tr' h' => ih (fun j hj => his j (List.mem_cons_of_mem i hj)) st' tr' h'

theorem sweep_level (io : SweepIo) : KeepsServerLevel b (sweep b m cfg io) := by
  intro st tr h
  refine .get (.modify (.tell ?_))
  refine eachPeer_level (fun i => sweepPeer_level i io) _ (fun i hi => List.mem_range.mp hi) _ _ ?_
  exact h.same (fun _ => .refl _) (closes_ungauged _ IncomingConn.fd)

theorem shutdown_level (goaway : Nat → SendIo) : KeepsServerLevel b (shutdown b m goaway) := by
  intro st tr h
  refine .bind (eachPeer_level (fun i => peerClose_level (goaway i)) _
    (fun i hi => List.mem_range.mp hi) st tr h) fun _ st' tr' h' => ?_
  refine .get (.tell (.of_bind_pure (.modify (.ret (h'.same (fun _ => .refl _) ?_)))))
  intro e he
  rcases List.mem_append.mp he with he | he
  · exact closes_ungauged _ IncomingConn.fd e he
  · exact closeSet_ungauged _ e he

/-- A connection that is accepted has a socket: `ct_net_accept` fails with CT_INVALID_SOCKET. -/
def ServerEvent.HasSocket : ServerEvent → Prop
  | .service _ _ io => io.accepted ≠ some invalidSocket
  | _ => True

instance (ev : ServerEvent) : Decidable ev.HasSocket := by
  unfold ServerEvent.HasSocket
  split <;> infer_instance

/-- The references of a batch are to what the build has. -/
def UdpBuilt (b : Build) (s : ServerLoop) : Prop :=
  ∀ i svc, ServerRef.udpService i svc ∈ s.refs → b.udp = true

theorem serverRefs_udp {now : UInt64} {i svc : Nat}
    (h : ServerRef.udpService i svc ∈ serverRefs b now st) : b.udp = true := by
  simp only [serverRefs, List.mem_append, List.mem_map, List.mem_flatMap] at h
  rcases h with (⟨s, -, h⟩ | ⟨c, -, h⟩) | ⟨j, -, h⟩
  · exact absurd h (by simp)
  · exact absurd h (by simp)
  · unfold peerRefs at h
    split at h
    · simp only [List.mem_append, List.mem_flatMap, List.mem_map] at h
      rcases h with ((h | ⟨k, -, ⟨s, -, h⟩ | h⟩) | ⟨s, -, h⟩) | ⟨k, -, h⟩
      · split at h <;> simp at h
      · exact absurd h (by simp)
      · by_contra hb
        rw [if_neg hb] at h
        exact absurd h (by simp)
      · exact absurd h (by simp)
      · split at h <;> simp at h
    · exact absurd h (by simp)

/-- Every event of the loop shifts the gauges by what it makes of the peers. -/
theorem serverCall_level (ev : ServerEvent) (hslot : ∀ i ∈ ev.slot, i < b.maxClients)
    (hudp : ∀ i svc io, ev = .udpService i svc io → b.udp = true) (hsocket : ev.HasSocket) :
    KeepsServerLevel b (serverCall b m cfg ev) := by
  cases ev with
  | accept io => exact acceptEvent_level io
  | incoming fd io => exact incomingEvent_level fd io
  | control i io => exact controlEvent_level (hslot i rfl) io
  | service i svc io => exact onPeer_level (hslot i rfl) (serviceEvent_level svc hsocket)
  | udpService i svc io =>
      exact onPeer_level (hslot i rfl) (udpServiceEvent_level (hudp i svc io rfl) svc io)
  | starting i fd io => exact onPeer_level (hslot i rfl) (startingEvent_level fd io)
  | relay i k side ev io => exact onPeer_level (hslot i rfl) (relayEvent_level k side ev io)
  | sweep io => exact sweep_level io
  | stop goaway => exact shutdown_level goaway

theorem serverStep_level {s : ServerLoop} {ev : ServerEvent} (hslots : SlotsBounded b s)
    (hudp : UdpBuilt b s) (hrep : Reported s ev) (hsocket : ev.HasSocket)
    (h : ServerLevel b s.state tr) :
    UdpBuilt b (serverStep b m cfg ev s).state ∧
      ServerLevel b (serverStep b m cfg ev s).state.state
        (tr ++ (serverStep b m cfg ev s).effects) := by
  constructor
  · show ∀ i svc, _ ∈ nextRefs b s.refs (serverCall b m cfg ev s.state).state ev → _
    cases ev with
    | sweep io => exact fun _ _ href => serverRefs_udp href
    | stop goaway => exact fun _ _ href => absurd href (by simp [nextRefs])
    | accept | incoming | control | service | udpService | starting | relay => exact hudp
  · have hslot : ∀ i ∈ ev.slot, i < b.maxClients := by
      intro i hi
      obtain ⟨ref, href, hmem⟩ := ev.slot_ref hi
      exact hslots ref (hrep ref href) i hmem
    have hbuilt : ∀ i svc io, ev = .udpService i svc io → b.udp = true := by
      rintro i svc io rfl
      exact hudp i svc (hrep _ rfl)
    have hcall : (serverCall b m cfg ev s.state).Ends tr (fun _ => ServerLevel b) (ServerLevel b) :=
      serverCall_level ev hslot hbuilt hsocket s.state tr h
    cases hv : (serverCall b m cfg ev s.state).value with
    | some _ => exact hcall.of_some hv
    | none => exact hcall.of_none hv

theorem ServerLevel.start (control : List BoundSocket) : ServerLevel b (.start b control) [] := by
  refine ⟨fun _ => .zero b, fun g => ?_⟩
  have hzero : serverGauge b (.start b control) g = 0 := by
    refine Finset.sum_eq_zero fun i _ => ?_
    show tableGauge b 0 0 (fun _ => .unused) (fun _ => false) g = 0
    rw [tableGauge_eq]
    cases g <;> simp [queueGauge, sessionGauge, CtRelay.gauge, CtRelay.unused]
  show 0 = serverGauge b (.start b control) g
  rw [hzero]

/-- The trace of a run leads the gauges from zero to what the peers count for. -/
theorem serverRun_level {control : List BoundSocket} {now : UInt64} {evs : List ServerEvent}
    (hrun : ServerRun b m cfg control now evs) (hsocket : ∀ ev ∈ evs, ev.HasSocket) :
    ServerLevel b (runs (serverStep b m cfg) (.start b control now) evs).1.state
      (runs (serverStep b m cfg) (.start b control now) evs).2 := by
  have hstep : ∀ (s : ServerLoop) tr ev, Reported s ev ∧ ev.HasSocket →
      SlotsBounded b s ∧ UdpBuilt b s ∧ ServerLevel b s.state tr →
      SlotsBounded b (serverStep b m cfg ev s).state ∧ UdpBuilt b (serverStep b m cfg ev s).state ∧
        ServerLevel b (serverStep b m cfg ev s).state.state
          (tr ++ (serverStep b m cfg ev s).effects) := by
    rintro s tr ev ⟨hrep, hsock⟩ ⟨hslots, hudp, h⟩
    exact ⟨(serverStep_walks m cfg hslots hrep tr).2, serverStep_level hslots hudp hrep hsock h⟩
  have hend := runs_along
    (I := fun s tr => SlotsBounded b s ∧ UdpBuilt b s ∧ ServerLevel b s.state tr) hstep
    (Along.and hrun (along_of_forall (fun ev hev _ => hsocket ev hev) _))
    ⟨serverRefs_slots now _, fun _ _ href => serverRefs_udp href, .start control⟩
  simpa using hend.2.2

end Server

end Ctunnel
