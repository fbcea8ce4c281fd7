import Ctunnel.Server.Moves

/-!
# Every call of the server is a walk

One lemma per function of the server: from a state reached by moves it ends, with
success or not, in a state reached by moves. `serverCall_walks` puts the events of
the loop together.
-/

namespace Ctunnel

open Lib

section Peer

variable {b : Build} {m : Monocypher} {cfg : CtConfig} {p₀ p : ServerPeer} {tr₀ tr : List Effect}

/-- A call on a peer goes on with a walk. -/
def PeerWalks (b : Build) (m : Monocypher) (cfg : CtConfig) {α : Type}
    (x : Call Effect ServerPeer α) : Prop :=
  ∀ p₀ tr₀ p tr, Walk (PeerMove b m cfg) p₀ tr₀ p tr →
    (x p).Ends tr (fun _ => Walk (PeerMove b m cfg) p₀ tr₀) (Walk (PeerMove b m cfg) p₀ tr₀)

theorem PeerWalks.attempt {α : Type} {x : Call Effect ServerPeer α} (hx : PeerWalks b m cfg x) :
    PeerWalks b m cfg (Call.attempt x) :=
  fun p₀ tr₀ p tr h => .attempt (hx p₀ tr₀ p tr h)

/-! ## Metrics -/

theorem walk_idle {es : List Effect} (h : Walk (PeerMove b m cfg) p₀ tr₀ p tr)
    (hes : ∀ e ∈ es, e.Idle) : Walk (PeerMove b m cfg) p₀ tr₀ p (tr ++ es) :=
  h.step (.idle (.idle hes))

/-! ## The control channel -/

theorem onControl_send_walks {type : UInt8} {stream : UInt64} {payload : Bytes} {io : SendIo}
    (hlive : p.active = true ∨ p.svc ≠ []) (h : Walk (PeerMove b m cfg) p₀ tr₀ p tr) :
    (onControl (ctControlSend b m type stream payload io) p).Ends tr
      (fun _ p' tr' => Walk (PeerMove b m cfg) p₀ tr₀ p' tr' ∧ p' = { p with ctl := p'.ctl })
      (fun p' tr' => Walk (PeerMove b m cfg) p₀ tr₀ p' tr' ∧ p' = { p with ctl := p'.ctl }) := by
  have hsent : ∀ c tr', ControlSent b m type stream payload p.ctl tr c tr' →
      Walk (PeerMove b m cfg) p₀ tr₀ { p with ctl := c } tr' ∧
        { p with ctl := c } = { p with ctl := c } := by
    intro c tr' hs
    obtain ⟨K, hK, hmove, hfd⟩ := hs.since
    exact ⟨h.since hK fun es hes => .channel hlive hes hmove hfd, rfl⟩
  exact .zoom ((ctControlSend_ends b m type stream payload io p.ctl tr).mono
    (fun _ c tr' => hsent c tr') (fun c tr' => hsent c tr'))

theorem onControl_answer_walks {type : UInt8} {stream : UInt64} {payload : Bytes} {io : SendIo} :
    PeerWalks b m cfg (onControl (ctControlSend b m type stream payload io)) := by
  intro p₀ tr₀ p tr h
  have hsent : ∀ c tr', ControlSent b m type stream payload p.ctl tr c tr' →
      Walk (PeerMove b m cfg) p₀ tr₀ { p with ctl := c } tr' := by
    intro c tr' hs
    obtain ⟨K, hK, hmove, hfd⟩ := hs.since
    exact h.since hK fun es hes => .answer hes hmove hfd
  exact .zoom ((ctControlSend_ends b m type stream payload io p.ctl tr).mono
    (fun _ c tr' => hsent c tr') (fun c tr' => hsent c tr'))

theorem setReadRetry_walks (ms : UInt64) : PeerWalks b m cfg (setReadRetry ms) := by
  intro p₀ tr₀ p tr h
  refine .of_bind_pure (.modify (.ret (h.silent (.answer ⟨rfl, rfl⟩ ?_ rfl))))
  exact (ControlMove.quiet (.refl p.ctl) (Nat.le_refl _)).timed p.ctl.lastRxMs p.ctl.lastTxMs ms

/-! ## Closing -/

theorem sockets_closes (fds : List Socket) : sockets (closes fds) = closes fds := by
  refine List.filter_eq_self.mpr fun e he => ?_
  obtain ⟨fd, -, rfl⟩ := List.mem_map.mp he
  rfl

theorem keyed_closes (fds : List Socket) : keyed (closes fds) = [] := by
  refine keyed_eq_nil fun e he => ?_
  obtain ⟨fd, -, rfl⟩ := List.mem_map.mp he
  rfl

theorem does_closes (fds : List Socket) : Does (closes fds) (closes fds) [] :=
  ⟨sockets_closes fds, keyed_closes fds⟩

theorem closeSet_eq (set : List BoundSocket) : closeSet set = closes (set.map BoundSocket.fd) := by
  simp [closeSet, closes]

theorem Does.append {es es' S S' K K' : List Effect} (h : Does es S K) (h' : Does es' S' K') :
    Does (es ++ es') (S ++ S') (K ++ K') :=
  ⟨by rw [sockets_append, h.sockets, h'.sockets], by rw [keyed_append, h.keyed, h'.keyed]⟩

theorem does_flatMap {α : Type} (l : List α) {f g : α → List Effect}
    (h : ∀ x ∈ l, Does (f x) (g x) []) : Does (l.flatMap f) (l.flatMap g) [] := by
  induction l with
  | nil => exact ⟨rfl, rfl⟩
  | cons x l ih =>
      exact (h x List.mem_cons_self).append (ih fun y hy => h y (List.mem_cons_of_mem x hy))

theorem peerCloseEffects_does (b : Build) (p : ServerPeer) :
    Does (peerCloseEffects b p) (closes (peerSockets b p)) [] := by
  have hset : ∀ sets : ServerService → List BoundSocket,
      Does (p.svc.flatMap fun s => closeSet (sets s))
        (p.svc.flatMap fun s => closes ((sets s).map BoundSocket.fd)) [] := by
    intro sets
    refine does_flatMap _ fun s _ => ?_
    rw [closeSet_eq]
    exact does_closes _
  have hmetric : ∀ {α : Type} (l : List α) (id : CtMetric),
      Does (l.map fun _ => Effect.dec id) [] [] := by
    intro α l id
    refine .idle fun e he => ?_
    obtain ⟨x, -, rfl⟩ := List.mem_map.mp he
    exact ⟨rfl, rfl⟩
  have hmap : ∀ {α : Type} (l : List α) (fd : α → Socket),
      Does (l.map fun x => .socketClose (fd x)) (closes (l.map fd)) [] := by
    intro α l fd
    have heq : (l.map fun x => Effect.socketClose (fd x)) = closes (l.map fd) := by
      rw [closes, List.map_map]
      rfl
    rw [heq]
    exact does_closes _
  have hstarting : Does (p.starting.flatMap fun s =>
      [.socketClose s.pending.fd, .socketClose s.work.fd])
      (p.starting.flatMap fun s => closes [s.pending.fd, s.work.fd]) [] :=
    does_flatMap _ fun s _ => does_closes [s.pending.fd, s.work.fd]
  have hrelays : Does ((List.range b.maxStreams).flatMap fun k =>
      if (p.relays k).closed then [] else (ctRelayClose b (p.relays k)).effects)
      ((List.range b.maxStreams).flatMap fun k => closes
        (if (p.relays k).closed then [] else [(p.relays k).direct, (p.relays k).work])) [] := by
    refine does_flatMap _ fun k _ => ?_
    cases hclosed : (p.relays k).closed with
    | true => exact ⟨rfl, rfl⟩
    | false =>
        refine ⟨?_, keyed_eq_nil fun e he => keyed_of_quiet (ctRelayClose_quiet b _ e he)⟩
        rw [if_neg (by simp), ctRelayClose_sockets, relaySockets, hclosed]
        rfl
  have hudp : Does (if b.udp then (List.range b.maxUdpSessions).flatMap fun i =>
      if (p.udp i).active then [.dec .udpSessionsActive] else [] else []) [] [] := by
    refine .idle fun e he => ?_
    split at he
    · obtain ⟨i, -, he⟩ := List.mem_flatMap.mp he
      split at he
      · rw [List.mem_singleton.mp he]
        exact ⟨rfl, rfl⟩
      · exact absurd he (by simp)
    · exact absurd he (by simp)
  have hall := (((((((((does_closes [p.ctl.fd]).append (hset ServerService.listenFd)).append
    (hset ServerService.udpFd)).append (hmap p.work CtWork.fd)).append (hmetric p.work .workIdle)).append
    (hmap p.pending PendingConn.fd)).append (hmetric p.pending .pendingStreams)).append hstarting).append
    hrelays).append hudp
  simpa [peerCloseEffects, peerSockets, closes, List.map_flatMap] using hall

theorem peerClose_walks (io : SendIo) : PeerWalks b m cfg (peerClose b m io) := by
  intro p₀ tr₀ p tr h
  refine .get (.ite (fun hactive => ?_) (fun _ => .ret h))
  refine .bind (.attempt (Q := fun _ p' tr' => Walk (PeerMove b m cfg) p₀ tr₀ p' tr' ∧
    p'.active = true) ?_) ?_
  · refine (onControl_send_walks (.inl hactive) h).mono ?_ ?_
    · rintro - p' tr' ⟨h', heq⟩
      exact ⟨h', by rw [heq]; exact hactive⟩
    · rintro p' tr' ⟨h', heq⟩
      exact ⟨h', by rw [heq]; exact hactive⟩
  · rintro - p' tr' ⟨h', hactive'⟩
    refine .get (.tell (.of_bind_pure (.modify (.ret ?_))))
    exact h'.step (.closed hactive' (peerCloseEffects_does b p'))

/-! ## UDP -/

theorem service_svc {svc : Nat} (p : ServerPeer)
    (h : (p.service svc).udpFd ≠ [] ∨ (p.service svc).listenFd ≠ []) : p.svc ≠ [] := by
  intro hnil
  simp [ServerPeer.service, hnil, ServerService.zero] at h

/-- A session is used. -/
theorem walk_used (h : Walk (PeerMove b m cfg) p₀ tr₀ p tr) {i : Nat} {s : ServerUdpSession}
    (hactive : (p.udp i).active = true) (hsame : SameUdpSession (p.udp i) s) :
    Walk (PeerMove b m cfg) p₀ tr₀ (p.setUdp i s) tr :=
  h.silent (.sessions (.used hactive hsame))

theorem serverUdpFind_active {svc i : Nat} {peer : CtEndpoint}
    (h : serverUdpFind b p svc peer = some i) :
    (p.udp i).active = true ∧ (p.udp i).svc = svc ∧ endpointEqual (p.udp i).peer peer = true := by
  simpa [and_assoc] using List.find?_some h

theorem serverUdpCreate_walks {svc : Nat} {peer : CtEndpoint} {listener : Socket} (now : UInt64)
    (hlistener : listener ∈ (p.service svc).udpFd.map BoundSocket.fd)
    (hnew : serverUdpFind b p svc peer = none) (h : Walk (PeerMove b m cfg) p₀ tr₀ p tr) :
    (serverUdpCreate b svc peer listener now p).Ends tr
      (fun i p' tr' => Walk (PeerMove b m cfg) p₀ tr₀ p' tr' ∧ p'.svc = p.svc ∧
        (p'.udp i).active = true)
      (fun p' tr' => Walk (PeerMove b m cfg) p₀ tr₀ p' tr' ∧ p'.svc = p.svc) := by
  have hrejected : Walk (PeerMove b m cfg) p₀ tr₀ p (tr ++ [.inc .udpSessionsRejectedTotal]) :=
    walk_idle h (by simp)
  refine .get (.bind (Q := fun _ p' tr' => p' = p ∧ tr' = tr ∧
    (List.range b.maxUdpSessions).countP (fun i => (p.udp i).active) <
      (p.service svc).cfg.udpMaxSessions) (.onFail (.of_bind_pure
    (.check (fun hroom => .ret ⟨rfl, rfl, hroom⟩) (fun _ => ⟨hrejected, rfl⟩)))) ?_)
  rintro - p' tr' ⟨rfl, rfl, hroom⟩
  refine .bind (Q := fun i p'' tr'' => p'' = p' ∧ tr'' = tr' ∧ i < b.maxUdpSessions ∧
    (p'.udp i).active = false) (.onFail (.of_bind_pure
    (.need (fun i hi => .ret ⟨rfl, rfl, ?_⟩) (fun _ => ⟨hrejected, rfl⟩)))) ?_
  · refine ⟨List.mem_range.mp (List.mem_of_find?_eq_some hi), ?_⟩
    simpa using List.find?_some hi
  rintro i p'' tr'' ⟨rfl, rfl, hlt, hfree⟩
  refine .modify (.modify (.tell (.ret ⟨?_, rfl, by simp [ServerPeer.setUdp]⟩)))
  refine walk_idle ?_ (by simp)
  exact h.silent (.sessions (.created now hlt hfree hnew hroom hlistener))

theorem serverUdpForward_walks {svc : Nat} {listener : Socket} (now : UInt64) (peer : CtEndpoint)
    (payload : Bytes) (io : SendIo)
    (hlistener : listener ∈ (p.service svc).udpFd.map BoundSocket.fd)
    (h : Walk (PeerMove b m cfg) p₀ tr₀ p tr) :
    (serverUdpForward b m svc listener now peer payload io p).Ends tr
      (fun _ => Walk (PeerMove b m cfg) p₀ tr₀) (Walk (PeerMove b m cfg) p₀ tr₀) := by
  have hlive : p.svc ≠ [] := by
    refine @service_svc svc p (.inl fun hnil => ?_)
    rw [hnil] at hlistener
    exact absurd hlistener (by simp)
  refine .get (.bind (Q := fun found p' tr' => Walk (PeerMove b m cfg) p₀ tr₀ p' tr' ∧
    p'.svc = p.svc ∧ ∀ i ∈ found, (p'.udp i).active = true) (.attempt ?_) ?_)
  · cases hfind : serverUdpFind b p svc peer with
    | some i =>
        refine .ret ⟨h, rfl, ?_⟩
        rintro j ⟨⟩
        exact (serverUdpFind_active hfind).1
    | none =>
        refine (serverUdpCreate_walks now hlistener hfind h).mono ?_ ?_
        · rintro i p' tr' ⟨h', hsvc, hactive⟩
          refine ⟨h', hsvc, ?_⟩
          rintro j ⟨⟩
          exact hactive
        · rintro p' tr' ⟨h', hsvc⟩
          exact ⟨h', hsvc, fun j hj => by cases hj⟩
  · rintro found p' tr' ⟨h', hsvc, hfound⟩
    cases found with
    | none => exact .of_bind_pure (.tell (.ret (walk_idle h' (by simp))))
    | some i =>
        refine .modify (.get (.bind (Q := fun _ => Walk (PeerMove b m cfg) p₀ tr₀) (.onFail ?_) ?_))
        · have hu := @walk_used b m cfg p₀ p' tr₀ tr' h' i
            { p'.udp i with lastMs := now, txSeq := (p'.udp i).txSeq + 1 } (hfound i rfl)
            ⟨rfl, rfl, rfl, rfl, rfl⟩
          have hfail : ∀ {p'' tr''}, Walk (PeerMove b m cfg) p₀ tr₀ p'' tr'' →
              Walk (PeerMove b m cfg) p₀ tr₀ p'' (tr'' ++ [.inc .udpDatagramsDroppedTotal]) :=
            fun h => walk_idle h (by simp)
          refine .need ?_ (fun _ => hfail hu)
          intro frame _
          refine (onControl_send_walks (.inr ?_) hu).mono (fun _ _ _ h => h.1)
            (fun _ _ h => hfail h.1)
          rw [show (p'.setUdp i _).svc = p'.svc from rfl, hsvc]
          exact hlive
        · intro _ p'' tr'' h''
          exact .of_bind_pure (.tell (.ret (walk_idle h'' (by simp))))

theorem serverUdpFromExternal_walks {svc : Nat} {listener : Socket} (now : UInt64)
    (io : UdpExternalIo) (hlistener : listener ∈ (p.service svc).udpFd.map BoundSocket.fd)
    (h : Walk (PeerMove b m cfg) p₀ tr₀ p tr) :
    (serverUdpFromExternal b m svc listener now io p).Ends tr
      (fun _ => Walk (PeerMove b m cfg) p₀ tr₀) (Walk (PeerMove b m cfg) p₀ tr₀) := by
  refine .get ?_
  cases ctUdpRecv b b.maxUdpDatagramSize io.recv with
  | failed => exact .of_bind_pure (.need (fun _ h => absurd h (by simp)) (fun _ => h))
  | nothing => exact .ret h
  | datagram peer payload =>
      refine .ite (fun _ => ?_) (fun _ => serverUdpForward_walks now peer payload _ hlistener h)
      exact .of_bind_pure (.tell (.ret (walk_idle h (by simp))))

theorem udpServiceLoop_walks (svc : Nat) (io : UdpServiceIo) (fuel i : Nat) :
    PeerWalks b m cfg (udpServiceLoop b m svc io fuel i) := by
  induction fuel generalizing i with
  | zero => exact fun p₀ tr₀ p tr h => .ret h
  | succ fuel ih =>
      intro p₀ tr₀ p tr h
      unfold udpServiceLoop
      refine .get ?_
      cases hs : (p.service svc).udpFd[i]? with
      | none => exact .ret h
      | some s =>
          have hlistener := List.mem_map_of_mem (f := BoundSocket.fd) (List.mem_of_getElem? hs)
          refine .bind (.attempt (Q := fun _ => Walk (PeerMove b m cfg) p₀ tr₀)
            (serverUdpFromExternal_walks io.now (io.external i) hlistener h)) ?_
          intro handled p' tr' h'
          cases handled with
          | some _ => exact ih (i + 1) p₀ tr₀ p' tr' h'
          | none =>
              refine .bind (peerClose_walks (io.goaway i) p₀ tr₀ p' tr' h') ?_
              exact fun _ p'' tr'' h'' => ih (i + 1) p₀ tr₀ p'' tr'' h''

theorem udpServiceEvent_walks (svc : Nat) (io : UdpServiceIo) :
    PeerWalks b m cfg (udpServiceEvent b m svc io) :=
  fun p₀ tr₀ p tr h => .get (udpServiceLoop_walks svc io _ 0 p₀ tr₀ p tr h)

theorem serverUdpFromClient_walks (payload : Bytes) (now : UInt64) (io : SendTo) :
    PeerWalks b m cfg (serverUdpFromClient b payload now io) := by
  intro p₀ tr₀ p tr h
  refine .bind (Q := fun _ p' tr' => p' = p ∧ tr' = tr) (.onFail (.of_bind_pure (.need
    (fun _ _ => .ret ⟨rfl, rfl⟩) (fun _ => walk_idle h (by simp))))) ?_
  rintro f p' tr' ⟨rfl, rfl⟩
  refine .get ?_
  cases hfound : (serverUdpFindId b p' f.id).filter fun i =>
      (p'.service (p'.udp i).svc).cfg.id == f.service && endpointEqual (p'.udp i).peer f.peer with
  | none => exact .of_bind_pure (.tell (.ret (walk_idle h (by simp))))
  | some i =>
      have hactive : (p'.udp i).active = true := by
        have hid := List.find?_some (Option.eq_some_of_filter_eq_some hfound)
        exact (by simpa using hid : (p'.udp i).active = true ∧ _).1
      dsimp only
      cases udpReplayAccept b.udpReplayWindow (p'.udp i).rxHigh (p'.udp i).rxBitmap f.seq with
      | none => exact .of_bind_pure (.tell (.ret (walk_idle h (by simp))))
      | some w =>
          have hu := @walk_used b m cfg p₀ p' tr₀ tr' h i
            { p'.udp i with rxHigh := w.1, rxBitmap := w.2, lastMs := now } hactive
            ⟨rfl, rfl, rfl, rfl, rfl⟩
          have hsent : ∀ p'' tr'', p'' = p'.setUdp i
                { p'.udp i with rxHigh := w.1, rxBitmap := w.2, lastMs := now } ∧
              (tr'' = tr' ∨ tr'' = tr' ++ [.datagram (p'.udp i).listener (p'.udp i).peer f.payload]) →
              Walk (PeerMove b m cfg) p₀ tr₀ p'' tr'' := by
            rintro p'' tr'' ⟨rfl, rfl | rfl⟩
            · exact hu
            · exact walk_idle hu (by simp)
          refine .modify (.bind (Q := fun _ => Walk (PeerMove b m cfg) p₀ tr₀) (.onFail
            ((ctUdpSend_ends _ tr').mono (fun _ p'' tr'' he => hsent p'' tr'' he)
              (fun p'' tr'' he => walk_idle (hsent p'' tr'' he) (by simp)))) ?_)
          intro _ p'' tr'' h''
          exact .of_bind_pure (.tell (.ret (walk_idle h'' (by simp))))

theorem serverUdpExpire_walks (now : UInt64) (h : Walk (PeerMove b m cfg) p₀ tr₀ p tr) :
    (serverUdpExpire b now p).Ends tr
      (fun _ p' tr' => Walk (PeerMove b m cfg) p₀ tr₀ p' tr' ∧ p'.active = p.active)
      (Walk (PeerMove b m cfg) p₀ tr₀) := by
  refine .get (.modify (.of_bind_pure (.tell (.ret ⟨walk_idle ?_ ?_, rfl⟩))))
  · exact h.silent (.sessions (.expired _))
  · intro e he
    obtain ⟨i, -, he⟩ := List.mem_flatMap.mp he
    split at he
    · simp only [List.mem_cons, List.not_mem_nil, or_false] at he
      rcases he with rfl | rfl <;> exact ⟨rfl, rfl⟩
    · exact absurd he (by simp)

/-! ## Matching -/

theorem startRelayBegin_ends (pending : PendingConn) (work : CtWork) (timeout : UInt64)
    (io : StartIo) (hroom : p.starting.length ≠ b.maxPendingStreams) :
    (startRelayBegin b m pending work timeout io p).Ends tr
      (fun _ p' tr' => ∃ s, s.pending = pending ∧ s.work = work ∧
        s.streamId = nextStreamId p.nextStream ∧
        Since tr [] (startSent p.ctl (p.context s) (some pending.metadata)) tr' ∧
        p' = { p with nextStream := s.streamId, starting := p.starting ++ [s] })
      (fun p' tr' => ∃ K, Since tr [] K tr' ∧
        (K = [] ∨ ∃ rnd, K = startSent p.ctl ⟨nextStreamId p.nextStream, rnd, work.id,
          (p.service pending.svc).cfg.id, (p.service pending.svc).cfg.encryption⟩
          (some pending.metadata)) ∧
        p' = { p with nextStream := nextStreamId p.nextStream }) := by
  refine .get (.check (fun _ => .modify ?_) (fun h => absurd hroom h))
  refine .bind ((ctStartStreamSend_ends work p.ctl _ _ _ (some pending.metadata) io.random io.send
    _ tr).mono (fun _ _ _ h => h) ?_) ?_
  · rintro p' tr' ⟨rfl, K, hK, hcases⟩
    exact ⟨K, hK, hcases, rfl⟩
  · rintro rnd p' tr' ⟨rfl, hK⟩
    refine .of_bind_pure (.modify (.ret ?_))
    exact ⟨⟨pending, work, nextStreamId p.nextStream, io.now + timeout, rnd, 0⟩, rfl, rfl, rfl, hK,
      rfl⟩

theorem matchOne_walks (pc : PendingConn) (w : CtWork) (io : StartIo)
    (hpending : p.pending.head? = some pc) (hwork : p.work.getLast? = some w)
    (hroom : p.starting.length < b.maxPendingStreams) (h : Walk (PeerMove b m cfg) p₀ tr₀ p tr) :
    (matchOne b m cfg pc w io p).Ends tr (fun _ => Walk (PeerMove b m cfg) p₀ tr₀)
      (Walk (PeerMove b m cfg) p₀ tr₀) := by
  have hmetric : Since tr [] [] (tr ++ [.dec .pendingStreams, .dec .workIdle]) :=
    (Since.refl tr).idle (by simp)
  let q : ServerPeer := { p with pending := p.pending.tail, work := p.work.dropLast }
  refine .modify (.tell (.bind (Q := fun started p' tr' =>
    (started = some () ∧ Walk (PeerMove b m cfg) p₀ tr₀ p' tr') ∨
    (started = none ∧ ∃ K, Since tr [] K tr' ∧
      (K = [] ∨ ∃ rnd, K = startSent q.ctl ⟨nextStreamId q.nextStream, rnd, w.id,
        (q.service pc.svc).cfg.id, (q.service pc.svc).cfg.encryption⟩ (some pc.metadata)) ∧
      p' = { q with nextStream := nextStreamId q.nextStream })) (.attempt ?_) ?_))
  · refine (startRelayBegin_ends (p := q) pc w _ io (Nat.ne_of_lt hroom)).mono ?_ ?_
    · rintro - p' tr' ⟨s, rfl, rfl, hid, hK, rfl⟩
      refine .inl ⟨rfl, h.since (hmetric.trans hK) fun es hes => ?_⟩
      exact .begun s hpending hwork hroom hid hes
    · rintro p' tr' ⟨K, hK, hcases, rfl⟩
      exact .inr ⟨rfl, K, hmetric.trans hK, hcases, rfl⟩
  · rintro started p' tr' (⟨rfl, hw⟩ | ⟨rfl, K, hK, hcases, rfl⟩)
    · exact .ret hw
    · have hclose : Does [.socketClose pc.fd, .socketClose w.fd, .inc .streamsFailedTotal]
          (closes [pc.fd, w.fd]) [] := ⟨rfl, rfl⟩
      refine .of_bind_pure (.tell (.ret (h.since (hK.add hclose) fun es hes => ?_)))
      exact .unbegun pc w hpending hwork hcases (by simpa using hes)

theorem matchLoop_walks (io : Nat → StartIo) (fuel : Nat) :
    PeerWalks b m cfg (matchLoop b m cfg io fuel) := by
  induction fuel with
  | zero => exact fun p₀ tr₀ p tr h => .ret h
  | succ fuel ih =>
      intro p₀ tr₀ p tr h
      unfold matchLoop
      refine .get ?_
      cases hpending : p.pending.head? with
      | none => exact .ret h
      | some pc =>
          cases hwork : p.work.getLast? with
          | none => exact .ret h
          | some w =>
              refine .ite (fun hroom => ?_) (fun _ => .ret h)
              exact .bind (matchOne_walks pc w (io fuel) hpending hwork hroom h)
                (fun _ p' tr' h' => ih p₀ tr₀ p' tr' h')

theorem matchPending_walks (io : Nat → StartIo) : PeerWalks b m cfg (matchPending b m cfg io) :=
  fun p₀ tr₀ p tr h => .get (matchLoop_walks io _ p₀ tr₀ p tr h)

/-! ## Services -/

theorem serviceEvent_walks (svc : Nat) (io : ServiceIo) :
    PeerWalks b m cfg (serviceEvent b m cfg svc io) := by
  intro p₀ tr₀ p tr h
  refine .get ?_
  cases hlisten : decide ((p.service svc).listenFd = []) with
  | true =>
      rw [if_pos (of_decide_eq_true hlisten)]
      exact .ret h
  | false =>
      replace hlisten := of_decide_eq_false hlisten
      rw [if_neg hlisten]
      cases io.accepted with
      | none => exact .ret h
      | some fd =>
          have hopen : Since tr [.socketOpen fd] [] (tr ++ [.socketOpen fd]) :=
            (Since.refl tr).add ⟨rfl, rfl⟩
          have hrefused : ∀ es, Does es [.socketClose fd] [] →
              Walk (PeerMove b m cfg) p₀ tr₀ p (tr ++ [.socketOpen fd] ++ es) :=
            fun es hes => h.since (hopen.add hes) fun _ => .refused fd
          refine .tell ?_
          cases connectionMetadata b (p.service svc) io.names with
          | none => exact .of_bind_pure (.tell (.ret (hrefused _ ⟨rfl, rfl⟩)))
          | some md =>
              dsimp only
              cases hlimit : streamLimit b cfg p with
              | true => exact .of_bind_pure (.tell (.ret (hrefused _ ⟨rfl, rfl⟩)))
              | false =>
                  let c : PendingConn := ⟨fd, svc, md, io.now + timeoutMs cfg.connectTimeout⟩
                  have hlive : p.svc ≠ [] := service_svc p (.inr hlisten)
                  have hpend : Walk (PeerMove b m cfg) p₀ tr₀ { p with pending := p.pending ++ [c] }
                      (tr ++ [.socketOpen fd] ++ [.inc .pendingStreams]) :=
                    h.since (hopen.idle (by simp)) fun _ => .accepted c hlisten hlimit
                  refine .modify (.tell (.get (.ite (fun _ => ?_) (fun _ => ?_))))
                  · refine .bind (.attempt (Q := fun _ => Walk (PeerMove b m cfg) p₀ tr₀)
                      ((onControl_send_walks (p := { p with pending := p.pending ++ [c] }) (.inr hlive)
                        hpend).mono (fun _ _ _ h => h.1) (fun _ _ h => h.1))) ?_
                    exact fun _ p' tr' h' => matchPending_walks io.starts p₀ tr₀ p' tr' h'
                  · exact matchPending_walks io.starts p₀ tr₀ _ _ hpend

/-! ## Starting streams -/

/-- What `start_relay_finish` leaves to `remove_starting`. -/
inductive FinishEnds (b : Build) (m : Monocypher) (p : ServerPeer) (s : StartingConn)
    (tr : List Effect) : Option Unit → ServerPeer → List Effect → Prop
  | refused {K tr' : List Effect} (ok : Option Bool) (hok : ok ≠ some true)
      (hK : AnswerChecked m p.ctl (p.context s) ok K) (htr : Since tr [] K tr') :
      FinishEnds b m p s tr none p tr'
  | failed {K tr' : List Effect} {k : Nat} {r : CtRelay} (hk : k < b.maxStreams)
      (hfree : (p.relays k).closed = true ∨ (p.relays k).direct = invalidSocket)
      (hK : AnswerChecked m p.ctl (p.context s) (some true) K) (hr : r.closed = true)
      (htr : Since tr (closes [s.pending.fd, s.work.fd])
        (K ++ relayDerives b .server p.ctl (p.context s)) tr') :
      FinishEnds b m p s tr none { p with relays := Function.update p.relays k r } tr'
  | done {K tr' : List Effect} {k : Nat} {r : CtRelay} (hk : k < b.maxStreams)
      (hfree : (p.relays k).closed = true ∨ (p.relays k).direct = invalidSocket)
      (hK : AnswerChecked m p.ctl (p.context s) (some true) K)
      (hr : FreshRelay b m s.pending.fd s.work.fd false p.ctl.cipher p.ctl.keys.dataMaster
        (p.context s) r)
      (htr : Since tr [] (K ++ relayDerives b .server p.ctl (p.context s)) tr') :
      FinishEnds b m p s tr (some ()) { p with relays := Function.update p.relays k r } tr'

theorem startRelayFinish_ends (s : StartingConn) (io : FinishIo) :
    (startRelayFinish b m s io p).Ends tr (fun a => FinishEnds b m p s tr (some a))
      (FinishEnds b m p s tr none) := by
  refine .get (.need ?_ (fun _ => .refused none (by simp) .unread (.refl tr)))
  intro k hk
  have hfree : (p.relays k).closed = true ∨ (p.relays k).direct = invalidSocket := by
    simpa using List.find?_some hk
  have hlt : k < b.maxStreams := List.mem_range.mp (List.mem_of_find?_eq_some hk)
  refine .bind ((ctStreamReadyRecv_ends s.work p.ctl _ _ s.streamId s.random io.inbox p tr).mono
    (fun _ _ _ h => h) ?_) ?_
  · rintro p' tr' ⟨rfl, K, hK, hcheck⟩
    exact .refused none (by simp) hcheck hK
  · rintro ok p' tr' ⟨rfl, K, hK, hcheck⟩
    refine .check ?_ (fun hok => .refused (some ok) (by simpa using hok) hcheck hK)
    rintro rfl
    refine .zoom ((relayInit_ends .server p'.ctl _ _ tr').mono ?_ ?_)
    · rintro - r tr'' ⟨hsince, hr⟩
      exact .done hlt hfree hcheck hr (hK.trans hsince)
    · rintro r tr'' ⟨hclosed, hsince⟩
      exact .failed hlt hfree hcheck hclosed (hK.trans hsince)

/-- `remove_starting` and the closes of its caller. -/
theorem removeStarting_ends (index : Nat) (s : StartingConn) (closing : Bool)
    (hs : p.starting[index]? = some s) {Q : ServerPeer → List Effect → Prop}
    (h : Q { p with starting := swapRemove p.starting index }
      (tr ++ if closing then closes [s.pending.fd, s.work.fd] else [])) :
    (removeStarting index closing p).Ends tr (fun _ => Q) Q := by
  refine .get ?_
  rw [hs]
  dsimp only
  cases closing with
  | true => exact .tell (.of_bind_pure (.modify (.ret h)))
  | false =>
      rw [if_neg (by simp), List.append_nil] at h
      exact .of_bind_pure (.modify (.ret h))

theorem finished_walks (index : Nat) (s : StartingConn) (hs : p.starting[index]? = some s)
    {v : Option Unit} {p' : ServerPeer} {tr' : List Effect}
    (h : Walk (PeerMove b m cfg) p₀ tr₀ p tr) (hends : FinishEnds b m p s tr v p' tr') :
    (removeStarting index v.isNone p').Ends tr' (fun _ => Walk (PeerMove b m cfg) p₀ tr₀)
      (Walk (PeerMove b m cfg) p₀ tr₀) := by
  cases hends with
  | refused ok hok hK htr =>
      refine removeStarting_ends index s true hs (h.since (htr.add (does_closes _)) ?_)
      intro es hes
      exact .unfinished index s ok hs hok hK (by simpa using hes)
  | @failed _ _ k r hk hfree hK hr htr =>
      refine removeStarting_ends (p := { p with relays := Function.update p.relays k r }) index s
        true hs (h.since (htr.add (does_closes _)) ?_)
      intro es hes
      exact .spoiled index s _ _ hs hk hfree hK hr (by simpa [closes] using hes)
  | @done _ _ k r hk hfree hK hr htr =>
      refine removeStarting_ends (p := { p with relays := Function.update p.relays k r }) index s
        false hs ?_
      rw [if_neg (by simp), List.append_nil]
      exact h.since htr fun es hes => .finished index s _ _ hs hk hfree hK hr hes

theorem startingEvent_walks (fd : Socket) (io : StartingIo) :
    PeerWalks b m cfg (startingEvent b m fd io) := by
  intro p₀ tr₀ p tr h
  refine .get ?_
  cases hindex : p.starting.findIdx? fun s => s.work.fd == fd with
  | none => exact .ret h
  | some index =>
      obtain ⟨hlt, -⟩ := List.findIdx?_eq_some_iff_getElem.mp hindex
      have hs : p.starting[index]? = some p.starting[index] := List.getElem?_eq_getElem hlt
      have hremove : (removeStarting index true p).Ends tr
          (fun _ => Walk (PeerMove b m cfg) p₀ tr₀) (Walk (PeerMove b m cfg) p₀ tr₀) :=
        finished_walks index _ hs (v := none) h (.refused none (by simp) .unread (.refl tr))
      dsimp only
      rw [hs]
      cases ctPlainFrameAvailable b b.controlBufferSize io.queued with
      | failed => exact hremove
      | later => exact .of_bind_pure (.modify (.ret (h.silent (.waited index (io.now + 50)))))
      | frame _ =>
          refine .bind (.attempt (Q := fun v => FinishEnds b m p p.starting[index] tr v)
            (startRelayFinish_ends _ _)) ?_
          exact fun v p' tr' hends => finished_walks index _ hs h hends

/-! ## Relays -/

theorem relayEvent_walks (k : Nat) (side : Side) (ev : EvMask) (io : RelayIo) :
    PeerWalks b m cfg (onRelay k (Call.ofOutcome fun r =>
      ctRelayProcess b m (match side with | .direct => r.direct | .work => r.work) ev io r)) := by
  intro p₀ tr₀ p tr h
  have hwalk : ∀ fd, Walk (PeerMove b m cfg) p₀ tr₀
      { p with
        relays := Function.update p.relays k (ctRelayProcess b m fd ev io (p.relays k)).state }
      (tr ++ (ctRelayProcess b m fd ev io (p.relays k)).effects) := by
    intro fd
    obtain ⟨K, ⟨es, hes, hkeyed⟩, hmove⟩ :=
      ctRelayProcess_move (b := b) (m := m) fd ev io (p.relays k) tr
    rw [← List.append_cancel_left hes] at hkeyed
    have hrest : (p.relays k).closed = true →
        (ctRelayProcess b m fd ev io (p.relays k)).state = p.relays k := by
      intro hclosed
      rw [ctRelayProcess, if_pos hclosed]
      rfl
    rcases ctRelayProcess_sockets (b := b) (m := m) fd ev io (p.relays k) with
      ⟨hsame, hS⟩ | ⟨hopen, hclosed, hS⟩
    · exact h.step (.relayed k (.same hsame) hmove hrest ⟨hS, hkeyed⟩)
    · exact h.step (.relayed k (.closed hopen hclosed) hmove hrest ⟨hS, hkeyed⟩)
  exact .zoom (.ofOutcome (.mk (fun _ => hwalk _) (fun _ => hwalk _)))

/-! ## The sweep -/

theorem sweepHeartbeat_walks (i : Nat) (io : SweepIo) (hactive : p.active = true)
    (h : Walk (PeerMove b m cfg) p₀ tr₀ p tr) :
    (sweepHeartbeat b m cfg i io p).Ends tr (fun _ => Walk (PeerMove b m cfg) p₀ tr₀)
      (Walk (PeerMove b m cfg) p₀ tr₀) := by
  refine .get (.ite (fun _ => peerClose_walks (io.goaway i) p₀ tr₀ p tr h) (fun _ => ?_))
  refine .ite (fun _ => ?_) (fun _ => .ret h)
  refine .bind (.attempt (Q := fun _ => Walk (PeerMove b m cfg) p₀ tr₀)
    ((onControl_send_walks (.inl hactive) h).mono (fun _ _ _ h => h.1) (fun _ _ h => h.1))) ?_
  intro sent p' tr' h'
  cases sent with
  | some _ => exact .ret h'
  | none => exact peerClose_walks (io.goaway i) p₀ tr₀ p' tr' h'

theorem sweepPeer_walks (i : Nat) (io : SweepIo) : PeerWalks b m cfg (sweepPeer b m cfg i io) := by
  intro p₀ tr₀ p tr h
  refine .get (.ite (fun hactive => ?_) (fun _ => .ret h))
  have hpending : Walk (PeerMove b m cfg) p₀ tr₀
      { p with pending := (sweepList (fun c => decide (c.deadline < io.now)) p.pending).1 }
      (tr ++ (sweepList (fun c => decide (c.deadline < io.now)) p.pending).2.flatMap fun c =>
        [.socketClose c.fd, .dec .pendingStreams, .inc .streamsFailedTotal]) := by
    refine sweepTable_keeps (I := fun l tr => Walk (PeerMove b m cfg) p₀ tr₀
      { p with pending := l } tr) ?_ _ 0 p.pending tr h
    intro l tr' index c hc h'
    exact h'.step (.expired index c hc ⟨rfl, rfl⟩)
  refine .modify (.tell (.modify (.tell ?_)))
  generalize tr ++ (sweepList (fun c => decide (c.deadline < io.now)) p.pending).2.flatMap _ = tr'
    at hpending ⊢
  generalize (sweepList (fun c => decide (c.deadline < io.now)) p.pending).1 = left at hpending ⊢
  have hstarting : Walk (PeerMove b m cfg) p₀ tr₀
      { p with
        pending := left
        starting := (sweepList (fun s => decide (s.deadline ≤ io.now)) p.starting).1 }
      (tr' ++ (sweepList (fun s => decide (s.deadline ≤ io.now)) p.starting).2.flatMap fun s =>
        [.socketClose s.pending.fd, .socketClose s.work.fd, .inc .streamsFailedTotal]) := by
    refine sweepTable_keeps (I := fun l tr => Walk (PeerMove b m cfg) p₀ tr₀
      { p with pending := left, starting := l } tr) ?_ _ 0 p.starting tr' hpending
    intro l tr'' index s hs h'
    exact h'.step (.unfinished index s none hs (by simp) .unread ⟨rfl, rfl⟩)
  refine .ite (fun _ => ?_) (fun _ => sweepHeartbeat_walks i io hactive hstarting)
  refine .bind (serverUdpExpire_walks io.now hstarting) ?_
  rintro - p' tr'' ⟨h', hsame⟩
  exact sweepHeartbeat_walks i io (hsame.trans hactive) h'

end Peer

/-! ## The server -/

section Server

variable {b : Build} {m : Monocypher} {cfg : CtConfig} {G : ServerState → ServerService → Prop}

/-- A call of the server goes on with a walk. -/
def ServerWalks (b : Build) (m : Monocypher) (cfg : CtConfig)
    (G : ServerState → ServerService → Prop) {α : Type} (x : Call Effect ServerState α) : Prop :=
  ∀ st₀ tr₀ st tr, Walk (ServerMove b m cfg G) st₀ tr₀ st tr →
    (x st).Ends tr (fun _ => Walk (ServerMove b m cfg G) st₀ tr₀)
      (Walk (ServerMove b m cfg G) st₀ tr₀)

theorem ServerState.setPeer_peers (st : ServerState) (i : Nat) : st.setPeer i (st.peers i) = st := by
  simp [ServerState.setPeer]

@[simp] theorem ServerState.setPeer_setPeer (st : ServerState) (i : Nat) (p p' : ServerPeer) :
    (st.setPeer i p).setPeer i p' = st.setPeer i p' := by
  simp [ServerState.setPeer]

variable {st₀ st : ServerState} {tr₀ tr : List Effect} {i : Nat}

/-- The walk of one peer, seen from the server. -/
theorem PeerWalks.lift {α : Type} {x : Call Effect ServerPeer α} (hi : i < b.maxClients)
    (hx : PeerWalks b m cfg x) {p : ServerPeer}
    (h : Walk (ServerMove b m cfg G) st₀ tr₀ (st.setPeer i p) tr) :
    (x p).Ends tr (fun _ p' => Walk (ServerMove b m cfg G) st₀ tr₀ (st.setPeer i p'))
      (fun p' => Walk (ServerMove b m cfg G) st₀ tr₀ (st.setPeer i p')) := by
  have hlift : ∀ p' tr', Walk (PeerMove b m cfg) p tr p' tr' →
      Walk (ServerMove b m cfg G) st₀ tr₀ (st.setPeer i p') tr' := by
    intro p' tr' hw
    refine h.trans (hw.lift (f := st.setPeer i) ?_)
    intro q es q' hmove
    rw [← st.setPeer_setPeer i q q']
    exact .peer i hi (by rw [ServerState.setPeer_self]; exact hmove)
  exact (hx p tr p tr .start).mono (fun _ => hlift) hlift

theorem onPeer_walks {α : Type} {x : Call Effect ServerPeer α} (hi : i < b.maxClients)
    (hx : PeerWalks b m cfg x) : ServerWalks b m cfg G (onPeer i x) := by
  intro st₀ tr₀ st tr h
  rw [← st.setPeer_peers i] at h
  exact .zoom (hx.lift hi h)

theorem server_idle {es : List Effect} (h : Walk (ServerMove b m cfg G) st₀ tr₀ st tr)
    (hes : ∀ e ∈ es, e.Idle) : Walk (ServerMove b m cfg G) st₀ tr₀ st (tr ++ es) :=
  h.step (.idle (.idle hes))

/-! ## Registering a service -/

/-- What `register_service` has done up to `ok` and `why`. -/
inductive RegisterEnds (b : Build) (cfg : CtConfig) (control : List BoundSocket)
    (peers : Nat → ServerPeer) (r : RegisterRequest) (io : BindIo) (p : ServerPeer)
    (tr : List Effect) : Except RegisterRefusal ServerService → List Effect → Prop
  | refused {S tr' : List Effect} {fds : List Socket} (why : RegisterRefusal) (hS : Opens S fds)
      (htr : Since tr (S ++ closes fds) [] tr') :
      RegisterEnds b cfg control peers r io p tr (.error why) tr'
  | opened {tr' : List Effect} (s : ServerService) (a : CtAuthorizedClient) (ha : p.auth = some a)
      (hadmitted : Admitted b cfg p a s.cfg)
      (hset : (s.listenFd ++ s.udpFd).length ≤ 2)
      (hs : Requested b r io s)
      (hfree : listenSetOverlapsExisting b s.listenFd control peers = false)
      (htr : Opened tr ((s.listenFd ++ s.udpFd).map BoundSocket.fd) tr') :
      RegisterEnds b cfg control peers r io p tr (.ok s) tr'

theorem authRefusal_none {a : CtAuthorizedClient} {p : ServerPeer} {s : CtServiceConfig}
    (h : authRefusal cfg a p s = none) :
    p.svc.length < min a.maxServices cfg.maxServicesPerClient ∧
      ctAuthorizedPort a s.remoteAddr s.remotePort = true := by
  unfold authRefusal at h
  split at h
  · exact absurd h (by simp)
  · rename_i hlimit
    split at h
    · exact absurd h (by simp)
    · rename_i hport
      exact ⟨by omega, by simpa using hport⟩

theorem openService_ends (control : List BoundSocket) (peers : Nat → ServerPeer)
    {r : RegisterRequest} {s : CtServiceConfig} (hconfig : r.config b = some s) (io : BindIo)
    (p : ServerPeer) (a : CtAuthorizedClient) (ha : p.auth = some a)
    (hadmitted : Admitted b cfg p a s)
    (W : ServerPeer → List Effect → Prop) :
    (openService b control peers s io p).Ends tr
      (fun v p' tr' => p' = p ∧ RegisterEnds b cfg control peers r io p tr v tr') W := by
  have hbind : ∀ {k : Option (List BoundSocket) →
      Call Effect ServerPeer (Except RegisterRefusal ServerService)},
      (∀ tr', Opened tr [] tr' → (k none p).Ends tr'
        (fun v p' tr' => p' = p ∧ RegisterEnds b cfg control peers r io p tr v tr') W) →
      (∀ set tr', set.length ≤ 2 → (∀ sock ∈ set, io.Grants sock) → Opened tr (set.map BoundSocket.fd) tr' →
        (k (some set) p).Ends tr'
          (fun v p' tr' => p' = p ∧ RegisterEnds b cfg control peers r io p tr v tr') W) →
      ((Call.attempt (bindSetOpen b bindFirst s.remoteAddr io) >>= k) p).Ends tr
        (fun v p' tr' => p' = p ∧ RegisterEnds b cfg control peers r io p tr v tr') W := by
    intro k hnone hsome
    refine .bind (Q := fun v p' tr' => p' = p ∧ (v = none ∧ Opened tr [] tr' ∨
      ∃ set, v = some set ∧ set.length ≤ 2 ∧ (∀ sock ∈ set, io.Grants sock) ∧
        Opened tr (set.map BoundSocket.fd) tr'))
      (.attempt ((bindSetOpen_ends b s.remoteAddr io p tr).mono ?_ ?_)) ?_
    · rintro set p' tr' ⟨rfl, hlen, hgrant, hopen⟩
      exact ⟨rfl, .inr ⟨set, rfl, hlen, hgrant, hopen⟩⟩
    · rintro p' tr' ⟨rfl, hopen⟩
      exact ⟨rfl, .inl ⟨rfl, hopen⟩⟩
    · rintro v p' tr' ⟨rfl, ⟨rfl, hopen⟩ | ⟨set, rfl, hlen, hgrant, hopen⟩⟩
      · exact hnone tr' hopen
      · exact hsome set tr' hlen hgrant hopen
  have hrefused : ∀ tr', Opened tr [] tr' →
      RegisterEnds b cfg control peers r io p tr (.error .bindFailed) tr' := by
    rintro tr' ⟨S, hS, hopens⟩
    exact .refused .bindFailed hopens (by simpa [closes] using hS)
  refine .ite (fun htcp => ?_) (fun hudp => ?_)
  · refine hbind (fun tr' h => .ret ⟨rfl, hrefused tr' h⟩) ?_
    intro set tr' hlen hgrant hopen
    dsimp only
    cases hoverlap : listenSetOverlapsExisting b set control peers with
    | true =>
        obtain ⟨S, hS, hopens⟩ := hopen
        refine .tell (.ret ⟨rfl, .refused .listenerConflict hopens ?_⟩)
        rw [closeSet_eq]
        exact hS.add (does_closes _)
    | false =>
        have hs : Requested b r io ⟨s, set, []⟩ :=
          ⟨hconfig, by simpa using hgrant, fun _ => rfl, fun hno => absurd htcp hno⟩
        exact .ret ⟨rfl, .opened _ a ha hadmitted (by simpa using hlen) hs hoverlap
          (by simpa using hopen)⟩
  · refine hbind (fun tr' h => .ret ⟨rfl, hrefused tr' h⟩) ?_
    intro set tr' hlen hgrant hopen
    have hs : Requested b r io ⟨s, [], set⟩ :=
      ⟨hconfig, by simpa using hgrant, fun htcp => absurd htcp hudp, fun _ => rfl⟩
    exact .ret ⟨rfl, .opened _ a ha hadmitted (by simpa using hlen) hs rfl (by simpa using hopen)⟩

theorem registerChecks_ends (control : List BoundSocket) (peers : Nat → ServerPeer)
    (r : RegisterRequest) (io : BindIo) (p : ServerPeer) :
    (registerChecks b cfg control peers r io p).Ends tr
      (fun v p' tr' => p' = p ∧ RegisterEnds b cfg control peers r io p tr v tr')
      (fun p' tr' => p' = p ∧ tr' = tr) := by
  have hrefused : ∀ why, RegisterEnds b cfg control peers r io p tr (.error why) tr :=
    fun why => .refused why .none (.refl tr)
  unfold registerChecks
  cases hrequest : requestRefusal b r with
  | some why => exact .ret ⟨rfl, hrefused why⟩
  | none =>
      refine .need ?_ (fun _ => ⟨rfl, rfl⟩)
      intro s hconfig
      refine .get ?_
      cases hcfg : configRefusal b p s with
      | some why => exact .ret ⟨rfl, hrefused why⟩
      | none =>
          refine .need ?_ (fun _ => ⟨rfl, rfl⟩)
          intro a ha
          cases hlimit : authRefusal cfg a p s with
          | some why => exact .ret ⟨rfl, hrefused why⟩
          | none =>
              exact openService_ends control peers hconfig io p a ha
                ⟨⟨r, hconfig, hrequest⟩, hcfg, hlimit⟩ _

/-- The conflict test reads only which peers are active and their services. -/
theorem listenSetOverlapsExisting_ctl (set control : List BoundSocket) (peers : Nat → ServerPeer)
    (i : Nat) (c : CtControl) :
    listenSetOverlapsExisting b set control (Function.update peers i { peers i with ctl := c }) =
      listenSetOverlapsExisting b set control peers := by
  have hsame : activeListeners b (Function.update peers i { peers i with ctl := c }) =
      activeListeners b peers := by
    unfold activeListeners
    congr 1
    funext j
    by_cases hj : j = i
    · subst hj
      simp
    · simp [hj]
  rw [listenSetOverlapsExisting, hsame, listenSetOverlapsExisting]

theorem registerService_walks (hi : i < b.maxClients) (payload : Bytes) (io : RegisterIo)
    (c : CtControl) (hG : ∀ r s, ctRegisterRequestDecode payload (b.maxServiceIdLength + 1)
      (b.maxAddressLength + 1) = some r → Requested b r io.bind s →
      G (st.setPeer i { st.peers i with ctl := c }) s) (h : Walk (ServerMove b m cfg G) st₀ tr₀
      (st.setPeer i { st.peers i with ctl := c }) tr) :
    (registerService b m cfg st.control st.peers payload io { st.peers i with ctl := c }).Ends tr
      (fun _ p' => Walk (ServerMove b m cfg G) st₀ tr₀ (st.setPeer i p'))
      (fun p' => Walk (ServerMove b m cfg G) st₀ tr₀ (st.setPeer i p')) := by
  refine .need ?_ (fun _ => h)
  intro r hr
  refine .bind ((registerChecks_ends st.control st.peers r io.bind _).mono (fun _ _ _ h => h) ?_) ?_
  · rintro p' tr' ⟨rfl, rfl⟩
    exact h
  · rintro v p' tr' ⟨rfl, hends⟩
    cases hends with
    | refused why hS htr =>
        exact onControl_answer_walks.lift hi (h.since htr fun es hes => .unregistered hS hes)
    | opened s a ha hadmitted hset hs hfree htr =>
        obtain ⟨S, hS, hopens⟩ := htr
        refine .modify (onControl_answer_walks.lift hi ?_)
        refine h.since hS fun es hes => ?_
        have hmove : ServerMove b m cfg G (st.setPeer i { st.peers i with ctl := c }) es _ :=
          .registered i s a hi (by simpa using ha) (by simpa using hadmitted) hset
            (hG r s hr hs) ?_ hopens hes
        · simpa using hmove
        · show listenSetOverlapsExisting b s.listenFd st.control
            (Function.update st.peers i { st.peers i with ctl := c }) = false
          rw [listenSetOverlapsExisting_ctl]
          exact hfree

/-! ## REF_CONTROL -/

/-- The frame a control event reads. -/
def ControlIo.received (b : Build) (m : Monocypher) (io : ControlIo) (c : CtControl) :
    Option (CtFrameHeader × Bytes) :=
  (ctControlRecv b m b.controlBufferSize ⟨io.queued.inbox io.more, io.alloc, io.now⟩ c).value

/-- The frame of a control event on the channel `c` is the request `r` to register a service. -/
def ControlIo.Asks (b : Build) (m : Monocypher) (io : ControlIo) (c : CtControl)
    (r : RegisterRequest) : Prop :=
  ∃ h payload, io.received b m c = some (h, payload) ∧
    h.type = CtMsgType.registerService.toByte ∧
    ctRegisterRequestDecode payload (b.maxServiceIdLength + 1) (b.maxAddressLength + 1) = some r

/-- A service that a control event on the channel `c` may add. -/
def ControlIo.Adds (b : Build) (m : Monocypher) (io : ControlIo) (c : CtControl)
    (s : ServerService) : Prop :=
  ∃ r, io.Asks b m c r ∧ Requested b r io.register.bind s

theorem serverControl_walks (hi : i < b.maxClients) (io : ControlIo) (c : CtControl)
    (hG : ∀ s c', io.Adds b m c s → G (st.setPeer i { st.peers i with ctl := c' }) s)
    (h : Walk (ServerMove b m cfg G) st₀ tr₀ (st.setPeer i { st.peers i with ctl := c }) tr) :
    (serverControl b m cfg st.control st.peers io { st.peers i with ctl := c }).Ends tr
      (fun _ p' => Walk (ServerMove b m cfg G) st₀ tr₀ (st.setPeer i p'))
      (fun p' => Walk (ServerMove b m cfg G) st₀ tr₀ (st.setPeer i p')) := by
  have hrecv : ∀ v c' tr', ControlReceived b m c tr v c' tr' → Walk (ServerMove b m cfg G) st₀ tr₀
      (st.setPeer i { st.peers i with ctl := c' }) tr' := by
    intro v c' tr' hr
    obtain ⟨hsince, hmove, hfd⟩ := hr.since
    refine h.since hsince fun es hes => ?_
    have hpeer : ServerMove b m cfg G (st.setPeer i { st.peers i with ctl := c }) es _ :=
      .peer i hi (.answer (p := (st.setPeer i { st.peers i with ctl := c }).peers i) (c := c') hes
        (by simpa using hmove) (by simpa using hfd))
    simpa using hpeer
  have hends := ctControlRecv_ends b m b.controlBufferSize
    ⟨io.queued.inbox io.more, io.alloc, io.now⟩ c tr
  refine .bind (Q := fun v p' tr' => io.received b m c = some v ∧ ∃ c',
    p' = { st.peers i with ctl := c' } ∧
    Walk (ServerMove b m cfg G) st₀ tr₀ (st.setPeer i p') tr') (.zoom (.mk ?_ ?_)) ?_
  · exact fun v hv => ⟨hv, _, rfl, hrecv (some v) _ _ (hends.of_some hv)⟩
  · exact fun hv => hrecv none _ _ (hends.of_none hv)
  · rintro ⟨hd, payload⟩ p' tr' ⟨hv, c', rfl, h'⟩
    refine .ite (fun htype => registerService_walks hi payload io.register c' ?_ h') (fun _ => ?_)
    · exact fun r s hr hs => hG s c' ⟨r, ⟨hd, payload, hv, htype, hr⟩, hs⟩
    refine .ite (fun _ => (serverUdpFromClient_walks payload io.now io.sendTo).lift hi h') (fun _ => ?_)
    refine .ite (fun _ => onControl_answer_walks.lift hi h') (fun _ => ?_)
    refine .ite (fun _ => .ret h') (fun _ => ?_)
    exact .of_bind_pure (.need (fun _ hn => absurd hn (by simp)) (fun _ => h'))

theorem controlEvent_walks (hi : i < b.maxClients) (io : ControlIo)
    (hG : ∀ s c, io.Adds b m { (st.peers i).ctl with readRetryAfterMs := 0 } s →
      G (st.setPeer i { st.peers i with ctl := c }) s)
    (h : Walk (ServerMove b m cfg G) st₀ tr₀ st tr) :
    (controlEvent b m cfg i io st).Ends tr (fun _ => Walk (ServerMove b m cfg G) st₀ tr₀)
      (Walk (ServerMove b m cfg G) st₀ tr₀) := by
  unfold controlEvent
  cases ctFrameAvailable b (b.controlBufferSize + ctAeadTag) ctFlagEncrypted io.queued with
  | failed => exact onPeer_walks hi (peerClose_walks io.goaway) st₀ tr₀ st tr h
  | later => exact onPeer_walks hi (setReadRetry_walks _) st₀ tr₀ st tr h
  | frame _ =>
      refine .get (.zoom (.modify (.bind (Q := fun _ p' =>
        Walk (ServerMove b m cfg G) st₀ tr₀ (st.setPeer i p')) (.attempt ?_) ?_)))
      · refine serverControl_walks hi io _ hG (h.silent (.peer i hi (.answer ⟨rfl, rfl⟩ ?_ rfl)))
        exact (ControlMove.quiet (.refl _) (Nat.le_refl _)).timed _ _ 0
      · intro handled p' tr' h'
        cases handled with
        | some _ => exact .ret h'
        | none => exact (peerClose_walks io.goaway).lift hi h'

/-! ## REF_ACCEPT -/

theorem acceptEvent_walks (io : AcceptIo) : ServerWalks b m cfg G (acceptEvent b cfg io) := by
  intro st₀ tr₀ st tr h
  unfold acceptEvent
  cases io.accepted with
  | none => exact .ret h
  | some x =>
      have hopen : Since tr [.socketOpen x.1] []
          (tr ++ [.socketOpen x.1, .inc .connectionsAcceptedTotal]) :=
        (Since.refl tr).add ⟨rfl, rfl⟩
      refine .tell (.get (.ite (fun _ => ?_) (fun hlimit => ?_)))
      · exact .of_bind_pure (.tell (.ret (h.since (hopen.add ⟨rfl, rfl⟩) fun _ => .refused x.1)))
      · rw [not_or, Nat.not_le] at hlimit
        refine .of_bind_pure (.modify (.ret (h.since hopen fun es hes => ?_)))
        exact .accepted _ rfl hlimit.1 hlimit.2 hes

/-! ## REF_INCOMING -/

theorem removeIncoming_walks (index : Nat) :
    ServerWalks b m cfg G (removeIncoming index true) := by
  intro st₀ tr₀ st tr h
  refine .get ?_
  cases hc : st.incoming.conns[index]? with
  | none => exact .ret h
  | some c =>
      exact .tell (.of_bind_pure (.modify (.ret (h.step (.removed index c hc ⟨rfl, rfl⟩)))))

/-- `remove_incoming` without the close: the socket has a new owner. -/
theorem removeIncoming_ends {index : Nat} {c : IncomingConn}
    (hc : st.incoming.conns[index]? = some c) {Q : ServerState → List Effect → Prop}
    {W : ServerState → List Effect → Prop}
    (h : Q { st with incoming := st.incoming.remove index } tr) :
    (removeIncoming index false st).Ends tr (fun _ => Q) W := by
  refine .get ?_
  rw [hc]
  exact .of_bind_pure (.modify (.ret h))

theorem authFailed_walks (index slot : Nat) (now : UInt64) :
    ServerWalks b m cfg G (authFailed index slot now) := by
  intro st₀ tr₀ st tr h
  refine .tell (.modify (removeIncoming_walks index st₀ tr₀ _ _ ?_))
  exact (server_idle h (by simp)).silent (.rated _)

theorem incomingHello_walks (index : Nat) (c : IncomingConn) (hd : CtFrameHeader)
    (io : IncomingIo) : ServerWalks b m cfg G (incomingHello b m cfg index c hd io) := by
  intro st₀ tr₀ st tr h
  refine .get (.modify ?_)
  have hrated : Walk (ServerMove b m cfg G) st₀ tr₀
      { st with rates := (authRateSlot st.rates c.remote).1 } tr := h.silent (.rated _)
  refine .ite (fun _ => .tell (removeIncoming_walks index _ _ _ _ (server_idle hrated (by simp))))
    (fun _ => ?_)
  refine .bind (.attempt (Q := fun _ => Walk (ServerMove b m cfg G) st₀ tr₀)
    (.check (fun _ => .zoom ((ctHandshakeServerBegin_since c.fd cfg _ _ tr).mono ?_ ?_))
      (fun _ => hrated))) ?_
  · rintro - hs tr' ⟨hsince, hauth⟩
    refine hrated.since hsince fun es hes => ?_
    exact .heard index _ (fun _ => rfl) (fun _ => rfl) (fun _ a ha => .inr (hauth a ha)) hes
  · rintro hs tr' ⟨hsince, rfl⟩
    refine hrated.since hsince fun es hes => ?_
    exact .heard index _ (fun _ => rfl) (fun _ => rfl) (fun _ a ha => by cases ha) hes
  · intro begun st' tr' h'
    cases begun with
    | none => exact authFailed_walks index _ io.after _ _ _ _ h'
    | some _ =>
        refine .of_bind_pure (.modify (.ret (h'.silent ?_)))
        exact .heard index _ (fun _ => rfl) (fun _ => rfl) (fun _ a ha => .inl ha) ⟨rfl, rfl⟩

theorem findSession_some {peers : Nat → ServerPeer} {sid : UInt64}
    (h : findSession b peers sid = some i) :
    i < b.maxClients ∧ (peers i).active = true ∧ (peers i).ctl.keys.sessionId = sid := by
  refine ⟨List.mem_range.mp (List.mem_of_find?_eq_some h), ?_⟩
  simpa using List.find?_some h

theorem incomingBind_walks (index : Nat) (c : IncomingConn) (hd : CtFrameHeader) (io : IncomingIo)
    (hc : st.incoming.conns[index]? = some c) (h : Walk (ServerMove b m cfg G) st₀ tr₀ st tr) :
    (incomingBind b m cfg index c hd io st).Ends tr (fun _ => Walk (ServerMove b m cfg G) st₀ tr₀)
      (Walk (ServerMove b m cfg G) st₀ tr₀) := by
  refine .get ?_
  cases hfind : findSession b st.peers hd.sessionId with
  | none => exact removeIncoming_walks index st₀ tr₀ st tr h
  | some i =>
      obtain ⟨hi, hactive, -⟩ := findSession_some hfind
      refine .bind (Q := fun v st' tr' => (v = none ∧ Walk (ServerMove b m cfg G) st₀ tr₀ st' tr') ∨
        (v = some () ∧ ∃ w ctl K, Since tr [] K tr' ∧
          WorkBound m c.fd (st.peers i).ctl (some w) ctl K ∧
          (st.peers i).work.length ≠ b.maxStreams ∧
          st' = st.setPeer i { st.peers i with ctl := ctl, work := (st.peers i).work ++ [w] }))
        (.attempt (.check ?_ (fun _ => .inl ⟨rfl, h⟩))) ?_
      · rintro ⟨-, -, -, hroom⟩
        refine .zoom (.bind (Q := fun w p' tr' => ∃ ctl K, Since tr [] K tr' ∧
          WorkBound m c.fd (st.peers i).ctl (some w) ctl K ∧ p' = { st.peers i with ctl := ctl })
          (.zoom ((ctWorkAcceptBind_ends c.fd _ (st.peers i).ctl tr).mono ?_ ?_)) ?_)
        · rintro w ctl tr' ⟨K, hK, hbound⟩
          exact ⟨ctl, K, hK, hbound, rfl⟩
        · rintro ctl tr' ⟨K, hK, hbound⟩
          obtain rfl : ctl = (st.peers i).ctl := by cases hbound <;> rfl
          refine .inl ⟨rfl, ?_⟩
          rw [show (st.setPeer i { st.peers i with ctl := (st.peers i).ctl }) = st from
            st.setPeer_peers i]
          exact h.since hK fun es hes => .unbound c.fd i hbound hes
        · rintro w p' tr' ⟨ctl, K, hK, hbound, rfl⟩
          refine .modify (.of_bind_pure (.tell (.ret (.inr ⟨rfl, w, ctl, K, ?_, hbound, hroom, rfl⟩))))
          exact hK.idle (by simp)
      · rintro v st' tr' (⟨rfl, h'⟩ | ⟨rfl, w, ctl, K, hK, hbound, hroom, hst⟩)
        · refine .ite (fun _ => .tell ?_) (fun _ => removeIncoming_walks index _ _ _ _ h')
          exact removeIncoming_walks index _ _ _ _ (server_idle h' (by simp))
        · have hc' : st'.incoming.conns[index]? = some c := by
            rw [hst]
            exact hc
          have hbind : Walk (ServerMove b m cfg G) st₀ tr₀
              { st' with incoming := st'.incoming.remove index } tr' := by
            rw [hst]
            exact h.since hK fun es hes => .bound index c i w hc hi hactive hroom hbound hes
          refine .bind (Q := fun _ => Walk (ServerMove b m cfg G) st₀ tr₀)
            (removeIncoming_ends hc' hbind) ?_
          exact fun _ st'' tr'' h'' => onPeer_walks hi (matchPending_walks io.starts) _ _ _ _ h''

theorem freeSlot_some {peers : Nat → ServerPeer} (h : freeSlot b cfg peers = some i) :
    i < min cfg.maxClients b.maxClients ∧ (peers i).active = false := by
  refine ⟨List.mem_range.mp (List.mem_of_find?_eq_some h), ?_⟩
  simpa using List.find?_some h

theorem IncomingTable.remove_conns (t : IncomingTable) (index : Nat) :
    (t.remove index).conns = swapRemove t.conns index := by
  unfold IncomingTable.remove
  dsimp only
  split
  · exact swapRemove_modify _ _ _
  · rename_i hnone
    have hnil : t.conns = [] := by
      have hlen := congrArg List.length (List.getLast?_eq_none_iff.mp hnone)
      rw [List.length_modify] at hlen
      exact List.eq_nil_of_length_eq_zero hlen
    simp [hnil, swapRemove]

/-- `remove_incoming` aborts the handshake anyway. -/
theorem IncomingTable.remove_modify (t : IncomingTable) (index : Nat) :
    ({ t with conns := t.conns.modify index fun c => { c with handshake := .zero } } :
      IncomingTable).remove index = t.remove index := by
  have htwice : (t.conns.modify index fun c => { c with handshake := .zero }).modify index
      (fun c => { c with handshake := .zero }) =
      t.conns.modify index fun c => { c with handshake := .zero } := List.modify_modify_eq ..
  unfold IncomingTable.remove
  dsimp only
  rw [htwice]
  cases hlast : (t.conns.modify index fun c => { c with handshake := .zero }).getLast? with
  | some last => rfl
  | none =>
      have hnil : t.conns = [] := by
        have hlen := congrArg List.length (List.getLast?_eq_none_iff.mp hlast)
        rw [List.length_modify] at hlen
        exact List.eq_nil_of_length_eq_zero hlen
      show ({ t with conns := t.conns.modify index _ } : IncomingTable) = t
      rw [hnil, List.modify_nil, ← hnil]

theorem incomingAuth_walks (index : Nat) (c : IncomingConn) (io : IncomingIo)
    (hc : st.incoming.conns[index]? = some c) (h : Walk (ServerMove b m cfg G) st₀ tr₀ st tr) :
    (incomingAuth b m cfg index c io st).Ends tr (fun _ => Walk (ServerMove b m cfg G) st₀ tr₀)
      (Walk (ServerMove b m cfg G) st₀ tr₀) := by
  refine .get (.modify ?_)
  have hrated : Walk (ServerMove b m cfg G) st₀ tr₀
      { st with rates := (authRateSlot st.rates c.remote).1 } tr := h.silent (.rated _)
  let zeroed : IncomingTable := { st.incoming with
    conns := st.incoming.conns.modify index fun c => { c with handshake := .zero } }
  refine .bind (Q := fun v st' tr' => (v = none ∧ Walk (ServerMove b m cfg G) st₀ tr₀ st' tr') ∨
    (v = some () ∧ ∃ i a ctl K, freeSlot b cfg st.peers = some i ∧ Since tr [] K tr' ∧
      FinishMove b m c.fd c.handshake (st.peers i).ctl (some a) ctl K ∧
      st' = { st.setPeer i { st.peers i with
        ctl := ctl
        auth := some a
        active := true
        nextStream := io.after } with
        incoming := zeroed
        rates := (authRateSlot st.rates c.remote).1 }))
    (.attempt (.need ?_ (fun _ => .inl ⟨rfl, hrated⟩))) ?_
  · intro i hi
    refine .bind (Q := fun a st' tr' => ∃ ctl K, Since tr [] K tr' ∧
      FinishMove b m c.fd c.handshake (st.peers i).ctl (some a) ctl K ∧
      st' = { st.setPeer i { st.peers i with ctl := ctl } with
        incoming := zeroed
        rates := (authRateSlot st.rates c.remote).1 })
      (.zoom ((ctHandshakeServerFinish_since c.fd _ _ tr).mono ?_ ?_)) ?_
    · rintro a ⟨hs, ctl⟩ tr' ⟨rfl, K, hK, hfinish⟩
      exact ⟨ctl, K, hK, by simpa [hc] using hfinish, rfl⟩
    · rintro ⟨hs, ctl⟩ tr' ⟨rfl, K, hK, hfinish⟩
      refine .inl ⟨rfl, hrated.since hK fun es hes => ?_⟩
      exact .unjoined index c i hc hi (by simpa [hc] using hfinish) hes
    · rintro a st' tr' ⟨ctl, K, hK, hfinish, rfl⟩
      refine .of_bind_pure (.modify (.ret (.inr ⟨rfl, i, a, ctl, K, hi, hK, hfinish, ?_⟩)))
      simp [ServerState.setPeer]
  · rintro v st' tr' (⟨rfl, h'⟩ | ⟨rfl, i, a, ctl, K, hi, hK, hfinish, hst⟩)
    · exact authFailed_walks index _ io.after _ _ _ _ h'
    · have hjoined : ∀ rates, Walk (ServerMove b m cfg G) st₀ tr₀
          { st' with rates := rates, incoming := st'.incoming.remove index } tr' := by
        intro rates
        have hremove : st'.incoming.remove index = st.incoming.remove index := by
          rw [hst]
          exact st.incoming.remove_modify index
        rw [hremove, hst]
        exact (h.silent (.rated rates)).since hK fun es hes =>
          .joined index c i a io.after hc hi hfinish hes
      have hremoved : ∀ rates, (removeIncoming index false { st' with rates := rates }).Ends tr'
          (fun _ => Walk (ServerMove b m cfg G) st₀ tr₀) (Walk (ServerMove b m cfg G) st₀ tr₀) := by
        intro rates
        obtain ⟨c', hc'⟩ : ∃ c', st'.incoming.conns[index]? = some c' := by
          rw [hst]
          exact ⟨{ c with handshake := .zero }, by simp [zeroed, hc]⟩
        have hmid : ({ st' with rates := rates } : ServerState).incoming.conns[index]? = some c' := hc'
        exact removeIncoming_ends hmid (hjoined rates)
      exact .modify (hremoved _)

theorem incomingEvent_walks (fd : Socket) (io : IncomingIo) :
    ServerWalks b m cfg G (incomingEvent b m cfg fd io) := by
  intro st₀ tr₀ st tr h
  refine .get ?_
  cases hindex : findIncoming st.incoming fd with
  | none => exact .ret h
  | some index =>
      obtain ⟨hlt, -⟩ := List.findIdx?_eq_some_iff_getElem.mp hindex
      have hc : st.incoming.conns[index]? = some (st.incoming.conns.getD index .zero) := by
        rw [List.getD_eq_getElem?_getD, List.getElem?_eq_getElem hlt]
        rfl
      dsimp only
      cases ctPlainFrameAvailable b b.controlBufferSize io.queued with
      | failed => exact removeIncoming_walks index st₀ tr₀ st tr h
      | later =>
          refine .of_bind_pure (.modify (.ret (h.silent ?_)))
          exact .heard index _ (fun _ => rfl) (fun _ => rfl) (fun _ a ha => .inl ha) ⟨rfl, rfl⟩
      | frame hd =>
          refine .ite (fun _ => incomingHello_walks index _ hd io st₀ tr₀ st tr h) (fun _ => ?_)
          refine .ite (fun _ => incomingBind_walks index _ hd io hc h) (fun _ => ?_)
          refine .ite (fun _ => incomingAuth_walks index _ io hc h) (fun _ => ?_)
          exact removeIncoming_walks index st₀ tr₀ st tr h

/-! ## The sweep and the end -/

theorem eachPeer_walks {f : Nat → Call Effect ServerPeer Unit}
    (hf : ∀ i, PeerWalks b m cfg (f i)) (is : List Nat) (his : ∀ i ∈ is, i < b.maxClients) :
    ServerWalks b m cfg G (eachPeer f is) := by
  induction is with
  | nil => exact fun st₀ tr₀ st tr h => .ret h
  | cons i is ih =>
      intro st₀ tr₀ st tr h
      refine .bind (onPeer_walks (his i List.mem_cons_self) (hf i) st₀ tr₀ st tr h) ?_
      exact fun _ st' tr' h' => ih (fun j hj => his j (List.mem_cons_of_mem i hj)) st₀ tr₀ st' tr' h'

/-- A sweep of the incoming connections. -/
theorem sweepIncoming_walks (expired : IncomingConn → Bool)
    (h : Walk (ServerMove b m cfg G) st₀ tr₀ st tr) :
    let swept := sweepTable (fun t i => t.conns[i]?) IncomingTable.remove expired
      st.incoming.conns.length 0 st.incoming
    Walk (ServerMove b m cfg G) st₀ tr₀ { st with incoming := swept.1 }
      (tr ++ swept.2.map fun c => .socketClose c.fd) := by
  intro swept
  rw [List.map_eq_flatMap]
  refine sweepTable_keeps (I := fun t tr => Walk (ServerMove b m cfg G) st₀ tr₀
    { st with incoming := t } tr) ?_ _ 0 st.incoming tr h
  exact fun t tr' index c hc h' => h'.step (.removed index c hc ⟨rfl, rfl⟩)

theorem sweep_walks (io : SweepIo) : ServerWalks b m cfg G (sweep b m cfg io) := by
  intro st₀ tr₀ st tr h
  refine .get (.modify (.tell ?_))
  exact eachPeer_walks (fun i => sweepPeer_walks i io) _ (fun i hi => List.mem_range.mp hi) st₀ tr₀ _ _
    (sweepIncoming_walks _ h)

theorem shutdown_walks (goaway : Nat → SendIo) : ServerWalks b m cfg G (shutdown b m goaway) := by
  intro st₀ tr₀ st tr h
  refine .bind (eachPeer_walks (fun i => peerClose_walks (goaway i)) _
    (fun i hi => List.mem_range.mp hi) st₀ tr₀ st tr h) ?_
  intro _ st' tr' h'
  refine .get (.tell (.of_bind_pure (.modify (.ret ?_))))
  rw [← List.append_assoc, closeSet_eq]
  exact (sweepIncoming_walks _ h').step (.stopped (does_closes _))

/-! ## The loop -/

/-- The slot an event is about. -/
def ServerEvent.slot : ServerEvent → Option Nat
  | .control i _ | .service i _ _ | .udpService i _ _ | .starting i _ _ | .relay i _ _ _ _ => some i
  | _ => none

/-- The services an event may add to the state `st` it finds. -/
def ServerEvent.Adds (b : Build) (m : Monocypher) (st : ServerState) :
    ServerEvent → ServerService → Prop
  | .control i io => io.Adds b m { (st.peers i).ctl with readRetryAfterMs := 0 }
  | _ => fun _ => False

/-- The state is `st` but for control channels. -/
def SameButControl (st st' : ServerState) : Prop :=
  st'.control = st.control ∧ ∀ i, ∃ c, st'.peers i = { st.peers i with ctl := c }

theorem SameButControl.setPeer (st : ServerState) (i : Nat) (c : CtControl) :
    SameButControl st (st.setPeer i { st.peers i with ctl := c }) := by
  refine ⟨rfl, fun j => ?_⟩
  by_cases hj : j = i
  · subst hj
    exact ⟨c, st.setPeer_self j _⟩
  · exact ⟨(st.peers j).ctl, st.setPeer_other _ hj⟩

/-- The registrations of an event: a service it may add, before anything but a
control channel changed. -/
def ServerEvent.Registers (b : Build) (m : Monocypher) (st : ServerState) (ev : ServerEvent)
    (st' : ServerState) (s : ServerService) : Prop :=
  SameButControl st st' ∧ ev.Adds b m st s

/-- Every event is a chain of moves. -/
theorem serverCall_walks (ev : ServerEvent) (hev : ∀ i ∈ ev.slot, i < b.maxClients)
    (st : ServerState) (tr : List Effect) :
    (serverCall b m cfg ev st).Ends tr (fun _ => Walk (ServerMove b m cfg (ev.Registers b m st)) st tr)
      (Walk (ServerMove b m cfg (ev.Registers b m st)) st tr) := by
  cases ev with
  | accept io => exact acceptEvent_walks io st tr st tr .start
  | incoming fd io => exact incomingEvent_walks fd io st tr st tr .start
  | control i io =>
      exact controlEvent_walks (hev i rfl) io (fun _ c h => ⟨.setPeer st i c, h⟩) .start
  | service i svc io => exact onPeer_walks (hev i rfl) (serviceEvent_walks svc io) st tr st tr .start
  | udpService i svc io =>
      exact onPeer_walks (hev i rfl) (udpServiceEvent_walks svc io) st tr st tr .start
  | starting i fd io => exact onPeer_walks (hev i rfl) (startingEvent_walks fd io) st tr st tr .start
  | relay i k side ev io =>
      exact onPeer_walks (hev i rfl) (relayEvent_walks k side ev io) st tr st tr .start
  | sweep io => exact sweep_walks io st tr st tr .start
  | stop goaway => exact shutdown_walks goaway st tr st tr .start

/-- The slot a reference is about. -/
def ServerRef.slot : ServerRef → Option Nat
  | .control i | .service i _ | .udpService i _ | .starting i _ | .relay i _ _ => some i
  | _ => none

/-- The references of a batch are about slots of the table. -/
def SlotsBounded (b : Build) (s : ServerLoop) : Prop := ∀ ref ∈ s.refs, ∀ i ∈ ref.slot, i < b.maxClients

theorem peerRefs_slot {now : UInt64} {p : ServerPeer} {ref : ServerRef}
    (h : ref ∈ peerRefs b now i p) : ref.slot = some i := by
  unfold peerRefs at h
  split at h
  · simp only [List.mem_append, List.mem_flatMap, List.mem_map] at h
    rcases h with ((h | ⟨j, -, h⟩) | ⟨s, -, rfl⟩) | ⟨k, -, h⟩
    · split at h
      · rw [List.mem_singleton.mp h]
        rfl
      · exact absurd h (by simp)
    · rcases h with ⟨s, -, rfl⟩ | h
      · rfl
      · split at h
        · obtain ⟨s, -, rfl⟩ := List.mem_map.mp h
          rfl
        · exact absurd h (by simp)
    · rfl
    · split at h
      · exact absurd h (by simp)
      · simp only [List.mem_cons, List.not_mem_nil, or_false] at h
        rcases h with rfl | rfl <;> rfl
  · exact absurd h (by simp)

theorem serverRefs_slots (now : UInt64) (st : ServerState) :
    ∀ ref ∈ serverRefs b now st, ∀ i ∈ ref.slot, i < b.maxClients := by
  intro ref href i hi
  simp only [serverRefs, List.mem_append, List.mem_map, List.mem_flatMap] at href
  rcases href with (⟨s, -, rfl⟩ | ⟨c, -, rfl⟩) | ⟨j, hj, href⟩
  · exact absurd hi (by simp [ServerRef.slot])
  · exact absurd hi (by simp [ServerRef.slot])
  · rw [peerRefs_slot href] at hi
    obtain rfl : j = i := Option.some.inj hi
    exact List.mem_range.mp hj

theorem ServerEvent.slot_ref (ev : ServerEvent) (hi : i ∈ ev.slot) :
    ∃ ref, ev.ref = some ref ∧ i ∈ ref.slot := by
  cases ev <;> first | exact ⟨_, rfl, hi⟩ | exact absurd hi (by simp [ServerEvent.slot])

/-- One event of the loop is a chain of moves, and the next references are about
slots of the table again. -/
theorem serverStep_walks (m : Monocypher) (cfg : CtConfig) {s : ServerLoop} {ev : ServerEvent}
    (hslots : SlotsBounded b s) (hrep : Reported s ev) (tr : List Effect) :
    Walk (ServerMove b m cfg (ev.Registers b m s.state)) s.state tr (serverStep b m cfg ev s).state.state
        (tr ++ (serverStep b m cfg ev s).effects) ∧
      SlotsBounded b (serverStep b m cfg ev s).state := by
  have hev : ∀ i ∈ ev.slot, i < b.maxClients := by
    intro i hi
    obtain ⟨ref, href, hmem⟩ := ev.slot_ref hi
    exact hslots ref (hrep ref href) i hmem
  have hcall : (serverCall b m cfg ev s.state).Ends tr _ _ := serverCall_walks ev hev s.state tr
  constructor
  · cases hv : (serverCall b m cfg ev s.state).value with
    | some _ => exact hcall.of_some hv
    | none => exact hcall.of_none hv
  · show ∀ ref ∈ nextRefs b s.refs (serverCall b m cfg ev s.state).state ev, _
    cases ev with
    | sweep io => exact serverRefs_slots io.poll _
    | stop goaway => exact fun ref href => absurd href (by simp [nextRefs])
    | accept | incoming | control | service | udpService | starting | relay => exact hslots

/-- A run of the server: every event is reported for a reference of its batch. -/
def ServerRun (b : Build) (m : Monocypher) (cfg : CtConfig) (control : List BoundSocket)
    (now : UInt64) (evs : List ServerEvent) : Prop :=
  Along (serverStep b m cfg) Reported (.start b control now) evs

instance (b : Build) (m : Monocypher) (cfg : CtConfig) (control : List BoundSocket) (now : UInt64)
    (evs : List ServerEvent) : Decidable (ServerRun b m cfg control now evs) :=
  inferInstanceAs (Decidable (Along (serverStep b m cfg) Reported (.start b control now) evs))

/-- The server after a list of events. -/
def serverAfter (b : Build) (m : Monocypher) (cfg : CtConfig) (control : List BoundSocket)
    (now : UInt64) (evs : List ServerEvent) : ServerLoop :=
  (runs (serverStep b m cfg) (.start b control now) evs).1

/-- What every move keeps holds after every run. -/
theorem serverRun_keeps {I : ServerState → List Effect → Prop} {control : List BoundSocket}
    {now : UInt64} {evs : List ServerEvent}
    (hmove : ∀ G st tr es st', ServerMove b m cfg G st es st' → I st tr → I st' (tr ++ es))
    (h : I (.start b control) []) (hrun : ServerRun b m cfg control now evs) :
    I (runs (serverStep b m cfg) (.start b control now) evs).1.state
      (runs (serverStep b m cfg) (.start b control now) evs).2 := by
  have hstep : ∀ (s : ServerLoop) tr ev, Reported s ev → (SlotsBounded b s ∧ I s.state tr) →
      SlotsBounded b (serverStep b m cfg ev s).state ∧
        I (serverStep b m cfg ev s).state.state (tr ++ (serverStep b m cfg ev s).effects) := by
    rintro s tr ev hrep ⟨hslots, hI⟩
    obtain ⟨hwalk, hslots'⟩ := serverStep_walks m cfg hslots hrep tr
    exact ⟨hslots', hwalk.keeps (hmove _) hI⟩
  have hend := runs_along (I := fun s tr => SlotsBounded b s ∧ I s.state tr) hstep hrun
    ⟨serverRefs_slots now _, h⟩
  simpa using hend.2

end Server

end Ctunnel
