import Ctunnel.Client.Session
import Ctunnel.Net.Gauges

/-!
# The gauges of the client

The same for the client: its idle work connections, its relays and its UDP
sessions. Every way out of a session gives back what the session counted for, so
between two sessions the gauges are at zero.
-/

namespace Ctunnel

open Lib

/-! ## What a session counts for -/

/-- The client keeps no streams waiting. -/
def ClientSession.gauge (b : Build) (s : ClientSession) : Gauge → Nat :=
  tableGauge b 0 s.work.length s.relays fun i => (s.udp i).active

/-- The open relays of a session are in its table and accounted for; what is in their rings is
too, but for a PROXY header. -/
def ClientSession.Sound (b : Build) (s : ClientSession) : Prop :=
  ∀ k, (s.relays k).closed = false → k < b.maxStreams ∧ (s.relays k).streamAccounted = true ∧
    ((s.relays k).proxyHeaderPending = false → (s.relays k).Balanced b)

/-- The trace led the gauges from zero to what the session counts for. -/
structure SessionLevel (b : Build) (s : ClientSession) (tr : List Effect) : Prop where
  sound : s.Sound b
  shifts : Shifts 0 tr (s.gauge b)

/-- The tables the gauges count. -/
structure SameSlots (s s' : ClientSession) : Prop where
  work : s'.work = s.work
  relays : s'.relays = s.relays
  udp : ∀ i, (s'.udp i).active = (s.udp i).active

theorem SameSlots.refl (s : ClientSession) : SameSlots s s := ⟨rfl, rfl, fun _ => rfl⟩

section Session

variable {b : Build} {m : Monocypher} {cfg : CtConfig} {s s' : ClientSession}
  {tr l : List Effect}

theorem SameSlots.gauge (h : SameSlots s s') : s'.gauge b = s.gauge b := by
  have hudp : (fun i => (s'.udp i).active) = fun i => (s.udp i).active := funext h.udp
  rw [ClientSession.gauge, ClientSession.gauge, h.work, h.relays, hudp]

theorem SameSlots.sound (h : SameSlots s s') (hs : s.Sound b) : s'.Sound b := by
  unfold ClientSession.Sound
  rw [h.relays]
  exact hs

theorem SessionLevel.step (h : SessionLevel b s tr) (hsound : s'.Sound b)
    (hshift : Shifts (s.gauge b) l (s'.gauge b)) : SessionLevel b s' (tr ++ l) :=
  ⟨hsound, h.shifts.trans hshift⟩

/-- What leaves the tables and the gauges alone. -/
theorem SessionLevel.same (h : SessionLevel b s tr) (hsame : SameSlots s s')
    (hl : ∀ e ∈ l, e.Ungauged) : SessionLevel b s' (tr ++ l) := by
  refine h.step (hsame.sound h.sound) ?_
  rw [hsame.gauge]
  exact .still hl _

theorem SessionLevel.quiet (h : SessionLevel b s tr) (hl : ∀ e ∈ l, e.Ungauged) :
    SessionLevel b s (tr ++ l) := h.same (.refl s) hl

theorem SessionLevel.silent (h : SessionLevel b s tr) (hsame : SameSlots s s') :
    SessionLevel b s' tr := ⟨hsame.sound h.sound, hsame.gauge ▸ h.shifts⟩

/-- A call on a session shifts the gauges by what it makes of the tables. -/
def KeepsSession (b : Build) {α : Type} (x : Call Effect ClientSession α) : Prop :=
  ∀ s tr, SessionLevel b s tr → (x s).Ends tr (fun _ => SessionLevel b) (SessionLevel b)

/-- A call that leaves the tables and the gauges alone. -/
theorem KeepsSession.aside {α : Type} {x : Call Effect ClientSession α}
    (hx : Call.Emits Effect.Ungauged x) (hkeep : ∀ s, Call.Keeps (SameSlots s) x) :
    KeepsSession b x := fun s _ h =>
  .mk (fun _ _ => h.same (hkeep s s (.refl s)) (hx s))
    (fun _ => h.same (hkeep s s (.refl s)) (hx s))

theorem onClientControl_slots {α : Type} {x : Call Effect CtControl α} (s : ClientSession) :
    Call.Keeps (SameSlots s) (onClientControl x) := .zoom fun _ _ h => { h with }

theorem onClientControl_session {α : Type} {x : Call Effect CtControl α}
    (hx : Call.Emits Effect.Ungauged x) : KeepsSession b (onClientControl x) :=
  .aside (.zoom hx) onClientControl_slots

/-! ## Work connections -/

theorem addWork_session (io : WorkConnectIo) : KeepsSession b (addWork b m io) := by
  intro s tr h
  have hcall := h.quiet (l := [.addWork]) (by simp [Effect.Ungauged])
  refine .tell (.get (.check (fun _ => ?_) fun _ => hcall))
  refine .bind (Q := fun _ => SessionLevel b) (.onFail
    ((onClientControl_session ctWorkConnect_ungauged s _ hcall).mono (fun _ _ _ => id)
      fun _ _ h' => h'.quiet (by simp [Effect.Ungauged]))) fun w s' tr' h' => ?_
  refine .modify (.of_bind_pure (.tell (.ret (h'.step h'.sound (Shifts.queues ?_)))))
  rw [List.length_append]
  exact .pushWork

/-- Filling the pool never fails. -/
theorem fillPool_ends (target : Nat) (io : Nat → WorkConnectIo) (fuel : Nat)
    (h : SessionLevel b s tr) :
    (fillPool b m target io fuel s).Ends tr (fun _ => SessionLevel b) (fun _ _ => False) := by
  induction fuel generalizing s tr with
  | zero => exact .ret h
  | succ fuel ih =>
      unfold fillPool
      refine .get (.ite (fun _ => ?_) fun _ => .ret h)
      refine .bind (.attempt (Q := fun _ => SessionLevel b) (addWork_session (io fuel) s tr h)) ?_
      intro added s' tr' h'
      cases added with
      | some _ => exact ih h'
      | none => exact .ret h'

/-! ## Opening and closing a session -/

theorem registerReplies_ungauged {id : CString} {replies : List (RecvIo × SendIo)} :
    Call.Emits Effect.Ungauged (registerReplies b m id replies) := by
  induction replies with
  | nil => exact .need
  | cons x rest ih =>
      obtain ⟨recv, pong⟩ := x
      refine .bind ctControlRecv_ungauged fun _ => .ite (fun _ => ?_) fun _ => ?_
      · exact .bind ctControlSend_ungauged fun _ => ih
      · exact .ite (fun _ => ih) fun _ => .bind .check fun _ => .bind .need fun _ => .check

theorem clientRegister_ungauged {io : Nat → ClientRegisterIo} {i : Nat}
    {services : List CtServiceConfig} :
    Call.Emits Effect.Ungauged (clientRegister b m io i services) := by
  induction services generalizing i with
  | nil => exact .pure
  | cons x rest ih =>
      exact .bind .need fun _ => .bind ctControlSend_ungauged fun _ =>
        .bind registerReplies_ungauged fun _ => ih

theorem blank_gauge : ClientSession.blank.gauge b = 0 := by
  funext g
  show tableGauge b 0 0 (fun _ => .unused) (fun _ => false) g = 0
  rw [tableGauge_eq]
  cases g <;> simp [queueGauge, sessionGauge, CtRelay.gauge, CtRelay.unused]

/-- Until the session is open nothing counts. -/
theorem clientConnect_ends {io : ClientConnectIo} (h : Shifts 0 tr 0) :
    (clientConnect b m cfg io .blank).Ends tr (fun _ => SessionLevel b)
      (fun _ tr' => Shifts 0 tr' 0) := by
  have hblank : SessionLevel b .blank tr :=
    ⟨fun _ hopen => absurd hopen (by simp [ClientSession.blank, CtRelay.unused]),
      blank_gauge (b := b) ▸ h⟩
  refine .need (fun fd _ => .tell ?_) fun _ => h
  have hopen := hblank.quiet (l := [.socketOpen fd]) (by simp [Effect.Ungauged])
  let opening : Call Effect ClientSession Unit := do
    onClientControl (ctHandshakeClient b m fd cfg io.handshake)
    onClientControl (clientRegister b m io.register 0 cfg.services)
    Call.check (io.alloc = true)
  have hquiet : Call.Emits Effect.Ungauged opening :=
    .bind (.zoom ctHandshakeClient_ungauged) fun _ => .bind (.zoom clientRegister_ungauged)
      fun _ => .check
  have hslots : Call.Keeps (SameSlots .blank) opening :=
    .bind (onClientControl_slots _) fun _ => .bind (onClientControl_slots _) fun _ => .check
  refine .bind (Q := fun _ => SessionLevel b) (.onFail (x := opening) ?_) fun _ s tr' h' =>
    (fillPool_ends cfg.poolCount io.pool cfg.poolCount h').mono (fun _ _ _ => id) fun _ _ => False.elim
  have hend := hopen.same (hslots .blank (.refl _)) (hquiet .blank)
  refine .mk (fun _ _ => hend) fun _ => ?_
  have hfailed := (h.quiet (l := [.socketOpen fd]) (by simp [Effect.Ungauged])).quiet
    (hquiet .blank)
  exact hfailed.quiet (by simp [Effect.Ungauged])

theorem clientUdpCloseEffects_shifts (x : ClientUdpSession) (expired : Bool) :
    Shifts (sessionGauge x.active) (clientUdpCloseEffects x expired) (sessionGauge false) := by
  unfold clientUdpCloseEffects
  cases x.active with
  | false => exact .refl _
  | true =>
      have hclose : Shifts (sessionGauge true) [.socketClose x.fd] (sessionGauge true) :=
        .still (by simp [Effect.Ungauged]) _
      rw [if_pos rfl]
      refine (hclose.trans .closeSession).quiet fun e he => ?_
      split at he
      · rw [List.mem_singleton.mp he]
        simp [Effect.Ungauged]
      · exact absurd he (by simp)

/-- The end of a session gives back everything it counts for. -/
theorem clientDoneEffects_shifts (hs : s.Sound b) :
    Shifts (s.gauge b) (clientDoneEffects b s) 0 := by
  have hcloses : ∀ e ∈ s.work.map (fun w => Effect.socketClose w.connection.fd), e.Ungauged := by
    intro e he
    obtain ⟨w, -, rfl⟩ := List.mem_map.mp he
    trivial
  have hfirst : Shifts (s.gauge b) (s.work.map fun w => .socketClose w.connection.fd) (s.gauge b) :=
    .still hcloses _
  have hrelays := (hfirst.trans (Shifts.queues (.clearWork s.work))).trans
    (Shifts.eachRelay (fun _ => .unused)
      (fun k => if (s.relays k).closed then [] else (ctRelayClose b (s.relays k)).effects) ?_)
  · have hudp := hrelays.trans (Shifts.eachSession (fun _ => false)
      (fun i => clientUdpCloseEffects (s.udp i) false)
      fun i _ => clientUdpCloseEffects_shifts (s.udp i) false)
    rw [← blank_gauge (b := b)]
    exact hudp.quiet (l := [.socketClose s.ctl.fd]) (by simp [Effect.Ungauged])
  · intro k _
    rw [CtRelay.gauge_closed (r := .unused) rfl]
    cases hclosed : (s.relays k).closed with
    | true =>
        rw [CtRelay.gauge_closed hclosed]
        exact .refl 0
    | false => exact ctRelayClose_shifts hclosed (hs k hclosed).2.1

/-! ## UDP -/

/-- A call on the table of UDP sessions, seen from the session. -/
def KeepsUdp (b : Build) {α : Type} (x : Call Effect ClientUdpTable α) : Prop :=
  ∀ (s : ClientSession) (t : ClientUdpTable) (tr : List Effect),
    SessionLevel b { s with udp := t } tr →
      (x t).Ends tr (fun _ t' => SessionLevel b { s with udp := t' })
        (fun t' => SessionLevel b { s with udp := t' })

theorem onClientUdp_session {α : Type} {x : Call Effect ClientUdpTable α} (hx : KeepsUdp b x) :
    KeepsSession b (onClientUdp x) :=
  fun s tr h => .zoom (hx s s.udp tr h)

theorem SameSlots.setUdp {i : Nat} {x : ClientUdpSession} (hx : x.active = (s.udp i).active) :
    SameSlots s { s with udp := Function.update s.udp i x } := by
  refine ⟨rfl, rfl, fun j => ?_⟩
  show (Function.update s.udp i x j).active = _
  by_cases hj : j = i
  · rw [hj, Function.update_self, hx]
  · rw [Function.update_of_ne hj]

theorem clientUdpCreate_udp (hb : b.udp = true) (d : UdpFrame) (now : UInt64) (io : UdpCreateIo) :
    KeepsUdp b (clientUdpCreate b cfg d now io) := by
  intro s t tr h
  refine .need (fun svc _ => .get ?_) fun _ => h
  refine .bind (Q := fun _ t' tr' => t' = t ∧ tr' = tr) (.onFail (.of_bind_pure
    (.check (fun _ => .ret ⟨rfl, rfl⟩) fun _ => h.quiet (by simp [Effect.Ungauged])))) ?_
  rintro - t' tr' ⟨rfl, rfl⟩
  refine .need (fun localEnd _ => .need (fun fd _ => .tell ?_) fun _ => h) fun _ => h
  have hopen := h.quiet (l := [.socketOpen fd]) (by simp [Effect.Ungauged])
  refine .bind (Q := fun i t'' tr'' => t'' = t' ∧ tr'' = tr' ++ [.socketOpen fd] ∧
    i < b.maxUdpSessions ∧ (t' i).active = false) (.onFail (.of_bind_pure
    (.need (fun i hi => .ret ⟨rfl, rfl, ?_⟩) fun _ =>
      hopen.quiet (by simp [Effect.Ungauged])))) ?_
  · refine ⟨List.mem_range.mp (List.mem_of_find?_eq_some hi), ?_⟩
    simpa using List.find?_some hi
  · rintro i t'' tr'' ⟨rfl, rfl, hi, hfree⟩
    refine .modify (.tell (.ret (hopen.step h.sound ?_)))
    have hshift : Shifts (tableGauge b 0 s.work.length s.relays fun i => (t'' i).active)
        [.inc .udpSessionsActive, .inc .udpSessionsCreatedTotal]
        (tableGauge b 0 s.work.length s.relays
          (Function.update (fun i => (t'' i).active) i true)) :=
      .session hb hi (by rw [hfree]; exact .openSession)
    have hactive : ∀ x : ClientUdpSession, (fun j => (Function.update t'' i x j).active) =
        Function.update (fun i => (t'' i).active) i x.active := fun x =>
      Function.comp_update ClientUdpSession.active t'' i x
    simpa only [ClientSession.gauge, hactive] using hshift

theorem clientUdpDeliver_udp (i : Nat) (d : UdpFrame) (now : UInt64) (io : SendTo) :
    KeepsUdp b (clientUdpDeliver b i d now io) := by
  intro s t tr h
  have hquiet : ∀ {t' tr' l}, SessionLevel b { s with udp := t' } tr' →
      (∀ e ∈ l, Effect.Ungauged e) → SessionLevel b { s with udp := t' } (tr' ++ l) :=
    fun h' hl => h'.quiet hl
  refine .get (.ite (fun _ => .of_bind_pure (.tell (.ret (hquiet h (by simp [Effect.Ungauged])))))
    fun _ => ?_)
  cases udpReplayAccept b.udpReplayWindow (t i).rxHigh (t i).rxBitmap d.seq with
  | none => exact .of_bind_pure (.tell (.ret (hquiet h (by simp [Effect.Ungauged]))))
  | some w =>
      let session : ClientUdpSession := { t i with rxHigh := w.1, rxBitmap := w.2, lastMs := now }
      let used : ClientUdpTable := Function.update t i session
      have hused : SessionLevel b { s with udp := used } tr :=
        h.silent (SameSlots.setUdp (s := { s with udp := t }) rfl)
      let sending : Call Effect ClientUdpTable Unit :=
        ctUdpSend b (t i).fd (t i).localEnd d.payload io
      have hsame : (sending used).state = used :=
        ctUdpSend_keeps (I := fun t' => t' = used) used rfl
      have hsend : ∀ e ∈ (sending used).effects, e.Ungauged := ctUdpSend_ungauged used
      refine .modify (.bind (Q := fun _ t' => SessionLevel b { s with udp := t' }) (.onFail ?_) ?_)
      · have hend : SessionLevel b { s with udp := (sending used).state }
            (tr ++ (sending used).effects) := by
          rw [hsame]
          exact hused.quiet hsend
        exact Reply.Ends.mk (r := sending used) (fun _ _ => hend)
          fun _ => hquiet hend (by simp [Effect.Ungauged])
      · intro _ t' tr' h'
        exact .of_bind_pure (.tell (.ret (hquiet h' (by simp [Effect.Ungauged]))))

theorem clientUdpFromServer_udp (hb : b.udp = true) (payload : Bytes) (now : UInt64)
    (io : UdpFromServerIo) : KeepsUdp b (clientUdpFromServer b cfg payload now io) := by
  intro s t tr h
  refine .bind (Q := fun _ t' => SessionLevel b { s with udp := t' }) (.onFail (.of_bind_pure (.need
    (fun _ _ => .ret h) fun _ => h.quiet (by simp [Effect.Ungauged])))) fun d t' tr' h' => ?_
  refine .get (.bind (.attempt (Q := fun _ t'' => SessionLevel b { s with udp := t'' }) ?_) ?_)
  · cases clientUdpFind b t' d.id with
    | some i => exact .ret h'
    | none => exact clientUdpCreate_udp hb d now io.create s t' tr' h'
  · intro found t'' tr'' h''
    refine .get ?_
    cases found.filter fun i => (t'' i).svc.id == d.service && endpointEqual (t'' i).peer d.peer with
    | none => exact .of_bind_pure (.tell (.ret (h''.quiet (by simp [Effect.Ungauged]))))
    | some i => exact clientUdpDeliver_udp i d now io.send s t'' tr'' h''

theorem clientUdpExpire_udp (hb : b.udp = true) (now : UInt64) :
    KeepsUdp b (clientUdpExpire b now) := by
  intro s t tr h
  refine .get (.modify (.of_bind_pure (.tell (.ret (h.step h.sound ?_)))))
  have hshift := @Shifts.eachSession b 0 s.work.length s.relays (fun i => (t i).active)
    (fun i => (if (t i).active &&
      decide ((now - (t i).lastMs).toNat > (t i).svc.udpIdleTimeout * 1000)
      then ClientUdpSession.zero else t i).active)
    (fun i => if (t i).active &&
      decide ((now - (t i).lastMs).toNat > (t i).svc.udpIdleTimeout * 1000)
      then clientUdpCloseEffects (t i) true else []) fun i _ => ?_
  · rw [if_pos hb] at hshift
    exact hshift
  · split
    · exact clientUdpCloseEffects_shifts (t i) true
    · exact .refl _

theorem clientUdpFromLocal_session (i : Nat) (io : UdpLocalIo) :
    KeepsSession b (clientUdpFromLocal b m i io) := by
  intro s tr h
  refine .get ?_
  cases ctUdpRecv b b.maxUdpDatagramSize io.recv with
  | failed => exact .of_bind_pure (.need (fun _ hno => absurd hno (by simp)) fun _ => h)
  | nothing => exact .ret h
  | datagram source payload =>
      refine .ite (fun _ => .of_bind_pure (.tell (.ret (h.quiet (by simp [Effect.Ungauged])))))
        fun _ => .modify (.bind (Q := fun _ => SessionLevel b) (.onFail ?_) ?_)
      · let session : ClientUdpSession :=
          { s.udp i with lastMs := io.now, txSeq := (s.udp i).txSeq + 1 }
        have hused : SessionLevel b { s with udp := Function.update s.udp i session } tr :=
          h.silent (.setUdp rfl)
        have hfailed : ∀ {s' tr'}, SessionLevel b s' tr' →
            SessionLevel b s' (tr' ++ [.inc .udpDatagramsDroppedTotal]) :=
          fun h => h.quiet (by simp [Effect.Ungauged])
        refine .need (fun frame _ => ?_) fun _ => hfailed hused
        exact (onClientControl_session ctControlSend_ungauged _ tr hused).mono (fun _ _ _ => id)
          fun _ _ => hfailed
      · intro _ s' tr' h'
        exact .of_bind_pure (.tell (.ret (h'.quiet (by simp [Effect.Ungauged]))))

/-! ## Streams -/

/-- A slot of the table gets another relay. -/
theorem SessionLevel.relay (h : SessionLevel b s tr) {k : Nat} {r : CtRelay}
    (hk : k < b.maxStreams) (hshift : Shifts (s.relays k).gauge l r.gauge)
    (hr : r.closed = false → r.streamAccounted = true ∧
      (r.proxyHeaderPending = false → r.Balanced b)) :
    SessionLevel b { s with relays := Function.update s.relays k r } (tr ++ l) := by
  refine h.step (fun j hj => ?_) (Shifts.relay hk hshift)
  replace hj : (Function.update s.relays k r j).closed = false := hj
  show j < b.maxStreams ∧ (Function.update s.relays k r j).streamAccounted = true ∧
    ((Function.update s.relays k r j).proxyHeaderPending = false →
      (Function.update s.relays k r j).Balanced b)
  by_cases hjk : j = k
  · subst hjk
    rw [Function.update_self] at hj ⊢
    exact ⟨hk, hr hj⟩
  · rw [Function.update_of_ne hjk] at hj ⊢
    exact h.sound j hj

theorem ctStreamReadySend_session {w : CtWork} {c : CtControl} {id : CString} {mode : CtEncMode}
    {stream : UInt64} {rnd : Octets 32} {ok : Bool} {io : SendIo} :
    KeepsSession b (ctStreamReadySend b m w c id mode stream rnd ok io) := by
  refine .aside ctStreamReadySend_ungauged fun _ => ?_
  exact .bind .need fun _ => .bind .need fun _ => .bind .tell fun _ => ctPlainSend_keeps

theorem openStream_session (w : CtWork) (x : StreamContext) (md : CtStreamMetadata)
    (localFd : Socket) (io : ClientWorkIo) :
    KeepsSession b (openStream b m w x md localFd io) := by
  intro s tr h
  refine .get (.need (fun k hk => ?_) fun _ => h)
  have hlt : k < b.maxStreams := List.mem_range.mp (List.mem_of_find?_eq_some hk)
  have hclosed : (s.relays k).closed = true := by simpa using List.find?_some hk
  have hready : Call.Keeps (SameSlots s)
      (ctStreamReadySend b m w s.ctl x.serviceId x.mode x.stream x.random true io.ready) :=
    .bind .need fun _ => .bind .need fun _ => .bind .tell fun _ => ctPlainSend_keeps
  have hsame := hready s (.refl s)
  refine .bind (Q := fun _ s' tr' => s'.relays = s.relays ∧ SessionLevel b s' tr') (.mk
    (fun _ _ => ⟨hsame.relays, h.same hsame (ctStreamReadySend_ungauged s)⟩)
    fun _ => h.same hsame (ctStreamReadySend_ungauged s)) ?_
  rintro - s' tr' ⟨hrelays, h'⟩
  obtain ⟨hshift, hopened⟩ := relayInit_shifts (b := b) (m := m) .client s.ctl
    ⟨localFd, w.fd, x, some md, io.alloc⟩ (s'.relays k)
  rw [← CtRelay.gauge_closed hclosed, ← hrelays] at hshift
  have hend := h'.relay hlt hshift fun hopen => ?_
  · exact .mk (fun _ _ => hend) fun _ => hend
  · obtain ⟨haccounted, hbalanced, -, -⟩ := hopened hopen
    exact ⟨haccounted, hbalanced⟩

theorem clientStream_session (w : CtWork) (io : ClientWorkIo) :
    KeepsSession b (clientStream b m cfg w io) := by
  intro s tr h
  have hrecv : KeepsSession b (ctStartStreamRecv b m w s.ctl (io.queued.inbox io.more) io.stale) := by
    refine .aside ctStartStreamRecv_ungauged fun _ => ?_
    exact .bind .need fun _ => .bind .check fun _ => .bind .need fun _ => .bind .need fun _ =>
      .bind .tell fun _ => .bind .check fun _ => .bind .tell fun _ => .pure
  refine .get (.bind (Q := fun _ => SessionLevel b) (.onFail ((hrecv s tr h).mono
    (fun _ _ _ => id) fun _ _ h' => h'.quiet (by simp [Effect.Ungauged]))) ?_)
  rintro ⟨x, md⟩ s' tr' h'
  have hmismatch : ∀ e ∈ (offeredService cfg x md).2, e.Ungauged := by
    unfold offeredService
    split
    · simp
    · split <;> simp [Effect.Ungauged]
  dsimp only
  generalize offeredService cfg x md = offered at hmismatch ⊢
  obtain ⟨service, mismatch⟩ := offered
  refine .tell ?_
  have hoffered := h'.quiet hmismatch
  cases service.bind fun _ => io.connected with
  | none =>
      refine .bind (.attempt (Q := fun _ => SessionLevel b)
        (ctStreamReadySend_session s' _ hoffered)) fun _ s'' tr'' h'' => ?_
      exact .of_bind_pure (.tell (.ret (h''.quiet (by simp [Effect.Ungauged]))))
  | some localFd =>
      have hopen := hoffered.quiet (l := [.socketOpen localFd]) (by simp [Effect.Ungauged])
      refine .tell (.bind (.attempt (Q := fun _ => SessionLevel b) (.onFail
        ((openStream_session w x md localFd io s' _ hopen).mono (fun _ _ _ => id)
          fun _ _ h'' => h''.quiet (by simp [Effect.Ungauged])))) ?_)
      exact fun _ s'' tr'' h'' => .ret h''

theorem clientWorkEvent_session (fd : Socket) (io : ClientWorkIo) :
    KeepsSession b (clientWorkEvent b m cfg fd io) := by
  intro s tr h
  refine .get ?_
  cases hindex : s.work.findIdx? fun w => w.connection.fd == fd with
  | none => exact .ret h
  | some index =>
      obtain ⟨hlt, -⟩ := List.findIdx?_eq_some_iff_getElem.mp hindex
      have hw : s.work[index]? = some s.work[index] := List.getElem?_eq_getElem hlt
      have htaken : Shifts (s.gauge b) [.dec .workIdle]
          (ClientSession.gauge b { s with work := swapRemove s.work index }) := by
        refine Shifts.queues ?_
        rw [← swapRemove_length hw]
        exact .popWork
      dsimp only
      rw [hw]
      cases ctPlainFrameAvailable b b.controlBufferSize io.queued with
      | failed =>
          have hclose : Shifts (s.gauge b) [.socketClose fd] (s.gauge b) :=
            .still (by simp [Effect.Ungauged]) _
          exact .modify (.of_bind_pure (.tell (.ret (h.step h.sound (hclose.trans htaken)))))
      | later =>
          refine .of_bind_pure (.modify (.ret ⟨h.sound, ?_⟩))
          show Shifts 0 tr (tableGauge b 0 (s.work.modify index _).length _ _)
          rw [List.length_modify]
          exact h.shifts
      | frame hd =>
          refine .modify (.tell (.bind (.attempt (Q := fun _ => SessionLevel b)
            (clientStream_session s.work[index].connection io _ _ (h.step h.sound htaken)))
            fun received s' tr' h' => ?_))
          cases received with
          | some _ => exact (fillPool_ends _ io.pool _ h').mono (fun _ _ _ => id) fun _ _ => False.elim
          | none => exact .ret h'

/-! ## The loop -/

theorem clientControlEvent_session (io : ClientControlIo) :
    KeepsSession b (clientControlEvent b m cfg io) := by
  intro s tr h
  unfold clientControlEvent
  cases ctFrameAvailable b (b.controlBufferSize + ctAeadTag) ctFlagEncrypted io.queued with
  | failed => exact .of_bind_pure (.need (fun _ hno => absurd hno (by simp)) fun _ => h)
  | later => exact .of_bind_pure (.modify (.ret (h.silent ⟨rfl, rfl, fun _ => rfl⟩)))
  | frame hd =>
      have hheard : SessionLevel b { s with ctl := { s.ctl with readRetryAfterMs := 0 } } tr :=
        h.silent ⟨rfl, rfl, fun _ => rfl⟩
      refine .modify (.bind (onClientControl_session ctControlRecv_ungauged _ tr hheard)
        fun (hd, payload) s' tr' h' => ?_)
      refine .ite (fun _ => onClientControl_session ctControlSend_ungauged s' tr' h') fun _ => ?_
      refine .ite (fun _ => .ret h') fun _ => .ite (fun _ => ?_) fun _ => .ite (fun hudp => ?_)
        fun _ => .of_bind_pure (.need (fun _ hno => absurd hno (by simp)) fun _ => h')
      · exact .bind (.attempt (Q := fun _ => SessionLevel b) (addWork_session io.work s' tr' h'))
          fun _ s'' tr'' h'' => .ret h''
      · exact onClientUdp_session (clientUdpFromServer_udp hudp.1 payload io.now io.udp) s' tr' h'

theorem clientTick_session (io : ClientTickIo) : KeepsSession b (clientTick b m cfg io) := by
  have hbeat : ∀ s tr, SessionLevel b s tr → ((do
      let s ← Call.get
      Call.check ((io.now - s.ctl.lastRxMs).toNat ≤ cfg.heartbeatTimeout * 1000)
      if (io.now - s.ctl.lastTxMs).toNat > cfg.heartbeatInterval * 1000 then
        onClientControl (ctControlSend b m CtMsgType.ping.toByte 0
          (ctPutU64 (s.ctl.txSeq + 1) ++ ctPutU64 io.now) io.ping) : Call Effect ClientSession Unit)
      s).Ends tr (fun _ => SessionLevel b) (SessionLevel b) := by
    intro s tr h
    refine .get (.check (fun _ => .ite (fun _ => ?_) fun _ => .ret h) fun _ => h)
    exact onClientControl_session ctControlSend_ungauged s tr h
  intro s tr h
  refine .ite (fun hb => ?_) fun _ => hbeat s tr h
  exact .bind (onClientUdp_session (clientUdpExpire_udp hb io.now) s tr h)
    fun _ s' tr' h' => hbeat s' tr' h'

theorem clientRelay_session (k : Nat) (side : Side) (ev : EvMask) (io : RelayIo) :
    KeepsSession b (onClientRelay k (Call.ofOutcome fun r =>
      ctRelayProcess b m (match side with | .direct => r.direct | .work => r.work) ev io r)) := by
  intro s tr h
  have hevent : ∀ fd, SessionLevel b
      { s with
        relays := Function.update s.relays k (ctRelayProcess b m fd ev io (s.relays k)).state }
      (tr ++ (ctRelayProcess b m fd ev io (s.relays k)).effects) := by
    intro fd
    cases hclosed : (s.relays k).closed with
    | true =>
        rw [ctRelayProcess, if_pos hclosed]
        exact h.same ⟨rfl, Function.update_eq_self k s.relays, fun _ => rfl⟩ (by simp)
    | false =>
        obtain ⟨hk, haccounted, -⟩ := h.sound k hclosed
        obtain ⟨hshift, hopen⟩ := ctRelayProcess_shifts (b := b) (m := m) fd ev io
          (r := s.relays k) fun _ => haccounted
        refine h.relay hk hshift fun hstill => ?_
        obtain ⟨haccounted', hbalanced, -⟩ := hopen hstill
        exact ⟨haccounted', fun _ => hbalanced⟩
  exact .zoom (.ofOutcome (.mk (fun _ => hevent _) fun _ => hevent _))

theorem sessionEvent_session (ev : ClientEvent) : KeepsSession b (sessionEvent b m cfg ev) := by
  cases ev with
  | connect io => exact fun s tr h => .ret h
  | control io => exact clientControlEvent_session io
  | work fd io => exact clientWorkEvent_session fd io
  | udpLocal i io => exact clientUdpFromLocal_session i io
  | relay k side ev io =>
      exact fun s tr h => .bind (.attempt (Q := fun _ => SessionLevel b)
        (clientRelay_session k side ev io s tr h)) fun _ s' tr' h' => .ret h'
  | tick io => exact clientTick_session io
  | stop goaway =>
      exact fun s tr h => .of_bind_pure (.need (fun _ hno => absurd hno (by simp)) fun _ => h)

theorem sayGoaway_session (io : Option SendIo) : KeepsSession b (sayGoaway b m io) := by
  cases io with
  | none => exact fun s tr h => .ret h
  | some io =>
      exact fun s tr h => .bind (.attempt (Q := fun _ => SessionLevel b)
        (onClientControl_session ctControlSend_ungauged s tr h)) fun _ s' tr' h' => .ret h'

theorem sessionCall_session (ev : ClientEvent) : KeepsSession b (sessionCall b m cfg ev) := by
  intro s tr h
  refine .bind (.attempt (Q := fun _ => SessionLevel b) (sessionEvent_session ev s tr h)) ?_
  intro handled s' tr' h'
  cases handled with
  | some _ => exact .ret h'
  | none =>
      refine .bind (sayGoaway_session _ s' tr' h') fun _ s'' tr'' h'' => ?_
      exact .of_bind_pure (.need (fun _ hno => absurd hno (by simp)) fun _ => h'')

/-! ## Sessions that come and go -/

/-- The gauges of the client, in a session or between two. -/
def clientGauge (b : Build) : Option ClientSession → Gauge → Nat
  | none => 0
  | some s => s.gauge b

/-- The trace led the gauges from zero to what the client counts for. -/
structure ClientLevel (b : Build) (s : Option ClientSession) (tr : List Effect) : Prop where
  sound : ∀ t ∈ s, ClientSession.Sound b t
  shifts : Shifts 0 tr (clientGauge b s)

theorem SessionLevel.client (h : SessionLevel b s tr) : ClientLevel b (some s) tr where
  sound := fun _ ht => Option.some.inj ht ▸ h.sound
  shifts := h.shifts

theorem ClientLevel.closed (h : Shifts 0 tr 0) : ClientLevel b none tr where
  sound := fun _ ht => absurd ht (by simp)
  shifts := h

theorem clientStep_level (ev : ClientEvent) {s : Option ClientSession}
    (h : ClientLevel b s tr) :
    ClientLevel b (clientStep b m cfg ev s).state (tr ++ (clientStep b m cfg ev s).effects) := by
  cases s with
  | none =>
      have hidle : ClientLevel b none (tr ++ []) := by
        rw [List.append_nil]
        exact h
      cases ev with
      | connect io =>
          let r := clientConnect b m cfg io .blank
          have hconnect : r.Ends tr (fun _ => SessionLevel b) (fun _ tr' => Shifts 0 tr' 0) :=
            clientConnect_ends h.shifts
          show ClientLevel b (r.value.map fun _ => r.state) (tr ++ r.effects)
          cases hv : r.value with
          | some _ => exact (hconnect.of_some hv).client
          | none => exact .closed (hconnect.of_none hv)
      | control | work | udpLocal | relay | tick | stop => exact hidle
  | some s =>
      have hcall : (sessionCall b m cfg ev s).Ends tr (fun _ => SessionLevel b) (SessionLevel b) :=
        sessionCall_session ev s tr ⟨h.sound s rfl, h.shifts⟩
      unfold clientStep
      dsimp only
      cases hv : (sessionCall b m cfg ev s).value with
      | some _ => exact (hcall.of_some hv).client
      | none =>
          have hfailed := hcall.of_none hv
          have hdone := hfailed.shifts.trans (clientDoneEffects_shifts hfailed.sound)
          rw [List.append_assoc] at hdone
          exact .closed hdone

/-- The trace of a run leads the gauges from zero to what the client counts for. -/
theorem clientRun_level (evs : List ClientEvent) :
    ClientLevel b (runs (clientStep b m cfg) none evs).1
      (runs (clientStep b m cfg) none evs).2 := by
  have hend := @runs_keeps Effect (Option ClientSession) ClientEvent (clientStep b m cfg)
    (ClientLevel b) (fun _ _ ev h => clientStep_level ev h) none [] evs (.closed (.refl 0))
  simpa using hend

end Session

end Ctunnel
