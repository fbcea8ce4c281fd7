import Ctunnel.Server.Ready
import Ctunnel.Server.Sockets
import Ctunnel.Theorems.PendingMatch

/-!
# Owners of the sockets of the server

A socket the server has opened and not closed is held by one slot: the control
listeners, `incoming[]`, or a peer's control channel, services, `work`, `pending`,
`starting` or open relays. Hand-overs between them neither close it nor leave it
behind, with one exception: when `ct_relay_init` fails it closes both sockets of
the stream, and `remove_starting` closes them again. In every run in which it does
not fail, each socket is closed once (`sockets_owned`).
-/

namespace Ctunnel

open Lib

variable {b : Build} {m : Monocypher} {cfg : CtConfig} {p : ServerPeer} {tr : List Effect}

/-! ## Opening a relay -/

/-- The buffers of `ct_relay_init` are allocated and its keys derived. -/
def relayInitable (b : Build) (m : Monocypher) (alloc : RelayAlloc) (master : Octets 32)
    (c : StreamContext) : Bool :=
  alloc.toDirect && alloc.toWork && (!b.dataEncryption || alloc.workInput) &&
    (c.mode == .disabled || b.dataEncryption && (ctDeriveData b m master c .s2c).isSome &&
      (ctDeriveData b m master c .c2s).isSome)

theorem relayRing_isSome (b : Build) : (relayRing b true).isSome = true := rfl

theorem relayInitBuffers_ok {alloc : RelayAlloc} {cipher : CtCipher} {master : Octets 32}
    {c : StreamContext} {direct work : Socket} (h : relayInitable b m alloc master c = true) :
    (relayInitBuffers b m alloc cipher master c (.zero direct work false)).ok = true := by
  obtain ⟨ring, hring⟩ := Option.isSome_iff_exists.mp (relayRing_isSome b)
  simp only [relayInitable, Bool.and_eq_true, Bool.or_eq_true, Bool.not_eq_true'] at h
  obtain ⟨⟨⟨hdirect, hwork⟩, hinput⟩, hkeys⟩ := h
  unfold relayInitBuffers
  by_cases hb : b.dataEncryption = true
  · have hinput' : alloc.workInput = true := hinput.resolve_left (by simp [hb])
    rw [if_pos hb]
    simp only [hdirect, hwork, hinput', hring]
    split
    · rename_i hmode
      obtain ⟨⟨-, hs2c⟩, hc2s⟩ := hkeys.resolve_left (by
        intro hdisabled
        rw [beq_iff_eq.mp hdisabled] at hmode
        exact absurd hmode (by decide))
      obtain ⟨⟨sendKey, sendNonce⟩, hsend⟩ := Option.isSome_iff_exists.mp hs2c
      obtain ⟨⟨recvKey, recvNonce⟩, hrecv⟩ := Option.isSome_iff_exists.mp hc2s
      split
      · rfl
      · rename_i hno
        exact (hno _ _ _ _ hsend hrecv).elim
    · rfl
  · have hdisabled : c.mode = .disabled := by
      rcases hkeys with hmode | ⟨⟨hno, -⟩, -⟩
      · exact beq_iff_eq.mp hmode
      · exact absurd hno hb
    rw [if_neg hb, if_neg (by simp [hdisabled])]
    simp only [hdirect, hwork, hring]
    rfl

theorem ctRelayInit_initable {alloc : RelayAlloc} {cipher : CtCipher} {master : Octets 32}
    {c : StreamContext} {direct work : Socket} (h : relayInitable b m alloc master c = true) :
    (ctRelayInit b m alloc direct work false cipher master c none).ok = true := by
  unfold ctRelayInit
  rw [Outcome.andThen_of_ok _ (relayInitBuffers_ok h)]
  rfl

theorem relayInit_value {c : CtControl} {x : RelayIn} {r : CtRelay} (hmetadata : x.metadata = none)
    (h : relayInitable b m x.alloc c.keys.dataMaster x.context = true) :
    (relayInit b m .server c x r).value = some () := by
  have hok : (ctRelayInit b m x.alloc x.direct x.work End.server.isClient c.cipher
      c.keys.dataMaster x.context x.metadata).ok = true := by
    rw [hmetadata]
    exact ctRelayInit_initable h
  unfold relayInit
  split <;> exact if_pos hok

/-! ## The answer of a client -/

/-- The stream for which the event of a starting connection calls `ct_relay_init`: there
is a frame and a free slot, and the frame is a READY of this stream. -/
def startedRelay (b : Build) (m : Monocypher) (p : ServerPeer) (fd : Socket) (io : StartingIo) :
    Option StartingConn :=
  (p.starting.find? fun s => s.work.fd == fd).filter fun s =>
    (match ctPlainFrameAvailable b b.controlBufferSize io.queued with
      | .frame _ => true
      | _ => false) &&
    ((List.range b.maxStreams).any fun k =>
      (p.relays k).closed || (p.relays k).direct == invalidSocket) &&
    ((ctStreamReadyRecv b m s.work p.ctl (p.service s.pending.svc).cfg.id
      (p.service s.pending.svc).cfg.encryption s.streamId s.random (io.queued.inbox io.more) :
      Call Effect ServerPeer Bool) p).value == some true

/-- Whenever the event calls `ct_relay_init`, the buffers are allocated and the keys derived. -/
def ServerEvent.RelaysInit (b : Build) (m : Monocypher) (st : ServerState) : ServerEvent → Prop
  | .starting i fd io => ∀ s ∈ startedRelay b m (st.peers i) fd io,
      relayInitable b m io.alloc (st.peers i).ctl.keys.dataMaster ((st.peers i).context s) = true
  | _ => True

instance (b : Build) (m : Monocypher) (st : ServerState) :
    ∀ ev : ServerEvent, Decidable (ev.RelaysInit b m st)
  | .starting i fd io => inferInstanceAs (Decidable (∀ s ∈ startedRelay b m (st.peers i) fd io,
      relayInitable b m io.alloc (st.peers i).ctl.keys.dataMaster ((st.peers i).context s) = true))
  | .accept _ | .incoming .. | .control .. | .service .. | .udpService .. | .relay .. | .sweep _
  | .stop _ => .isTrue trivial

/-- What `start_relay_finish` leaves when `ct_relay_init` does not fail. -/
theorem startRelayFinish_opens (s : StartingConn) (io : FinishIo)
    (hinit : ∀ k, (List.range b.maxStreams).find? (fun k =>
        (p.relays k).closed || (p.relays k).direct == invalidSocket) = some k →
      ((ctStreamReadyRecv b m s.work p.ctl (p.service s.pending.svc).cfg.id
        (p.service s.pending.svc).cfg.encryption s.streamId s.random io.inbox :
        Call Effect ServerPeer Bool) p).value = some true →
      relayInitable b m io.alloc p.ctl.keys.dataMaster (p.context s) = true) :
    (startRelayFinish b m s io p).Ends tr (fun a => FinishEnds b m p s tr (some a))
      (fun p' tr' => p' = p ∧ ∃ K, Since tr [] K tr') := by
  refine .get (.need ?_ (fun _ => ⟨rfl, [], .refl tr⟩))
  intro k hk
  have hfree : (p.relays k).closed = true ∨ (p.relays k).direct = invalidSocket := by
    simpa using List.find?_some hk
  have hlt : k < b.maxStreams := List.mem_range.mp (List.mem_of_find?_eq_some hk)
  refine .bind ((ctStreamReadyRecv_ends s.work p.ctl _ _ s.streamId s.random io.inbox p
    tr).valued.mono (fun _ _ _ h => h) ?_) ?_
  · rintro p' tr' ⟨rfl, K, hK, -⟩
    exact ⟨rfl, K, hK⟩
  · rintro ok p' tr' ⟨hvalue, rfl, K, hK, hcheck⟩
    refine .check ?_ (fun _ => ⟨rfl, K, hK⟩)
    rintro rfl
    have hopen := hinit k hk hvalue
    refine .zoom (.mk (fun _ hdone => ?_) fun hno => ?_)
    · obtain ⟨hsince, hr⟩ := (relayInit_ends .server p'.ctl _ _ tr').of_some hdone
      exact .done hlt hfree hcheck hr (hK.trans hsince)
    · exact absurd (hno.symm.trans (relayInit_value rfl hopen)) (by simp)

/-- The sockets of a peer and the trace since `p` and `tr`. -/
def Moved (b : Build) (p : ServerPeer) (tr : List Effect) (p' : ServerPeer) (tr' : List Effect) :
    Prop :=
  ∃ es, tr' = tr ++ es ∧ Books (peerHolds b p) (socketLedger es) (peerHolds b p') ∧
    RelaysBelow b p'

theorem Moved.refl (hbelow : RelaysBelow b p) : Moved b p tr p tr :=
  ⟨[], by simp, .perm .rfl, hbelow⟩

/-- A stream is given up, and its sockets are closed. -/
theorem moved_unfinished {tr' K : List Effect} {index : Nat} {s : StartingConn}
    (hbelow : RelaysBelow b p) (hs : p.starting[index]? = some s) (h : Since tr [] K tr') :
    Moved b p tr { p with starting := swapRemove p.starting index }
      (tr' ++ closes [s.pending.fd, s.work.fd]) := by
  obtain ⟨es, heq, hes⟩ := h.add (does_closes [s.pending.fd, s.work.fd])
  refine ⟨es, heq, hes.books [] [s.pending.fd, s.work.fd] ?_, hbelow⟩
  exact (slotHolds_starting (swapRemove_perm hs)).append_right _

theorem startingEvent_moved (fd : Socket) (io : StartingIo) (hbelow : RelaysBelow b p)
    (hvalid : invalidSocket ∉ peerHolds b p)
    (hinit : ∀ s ∈ startedRelay b m p fd io,
      relayInitable b m io.alloc p.ctl.keys.dataMaster (p.context s) = true) :
    (startingEvent b m fd io p).Ends tr (fun _ => Moved b p tr) (Moved b p tr) := by
  refine .get ?_
  cases hindex : p.starting.findIdx? fun s => s.work.fd == fd with
  | none => exact .ret (.refl hbelow)
  | some index =>
      obtain ⟨hlt, hfd, -⟩ := List.findIdx?_eq_some_iff_getElem.mp hindex
      have hs : p.starting[index]? = some p.starting[index] := List.getElem?_eq_getElem hlt
      have hfound : (p.starting.find? fun s => s.work.fd == fd) = some p.starting[index] := by
        rw [List.find?_eq_some_iff_getElem]
        obtain ⟨-, hfirst⟩ := (List.findIdx?_eq_some_iff_getElem.mp hindex).2
        exact ⟨hfd, index, hlt, rfl, fun j hj => by simpa using hfirst j hj⟩
      have hremove : ∀ tr' K, Since tr [] K tr' → (removeStarting index true p).Ends tr'
          (fun _ => Moved b p tr) (Moved b p tr) := fun tr' K hK =>
        removeStarting_ends index _ true hs (moved_unfinished hbelow hs hK)
      dsimp only
      rw [hs]
      cases hframe : ctPlainFrameAvailable b b.controlBufferSize io.queued with
      | failed => exact hremove tr [] (.refl tr)
      | later =>
          refine .of_bind_pure (.modify (.ret ⟨[], by simp, ?_, hbelow⟩))
          rw [peerHolds_waited]
          exact .perm .rfl
      | frame hd =>
          refine .bind (.attempt (Q := fun v p' tr' => (v = none ∧ p' = p ∧ ∃ K, Since tr [] K tr') ∨
            v = some () ∧ FinishEnds b m p p.starting[index] tr (some ()) p' tr') ?_) ?_
          · refine (startRelayFinish_opens p.starting[index] _ fun k hk hvalue => hinit _ ?_).mono
              (fun _ _ _ h => .inr ⟨rfl, h⟩) (fun _ _ h => .inl ⟨rfl, h⟩)
            have hslot : ((List.range b.maxStreams).any fun k =>
                (p.relays k).closed || (p.relays k).direct == invalidSocket) = true :=
              List.any_eq_true.mpr ⟨k, List.mem_of_find?_eq_some hk,
                List.find?_some (p := fun k => (p.relays k).closed ||
                  (p.relays k).direct == invalidSocket) hk⟩
            unfold startedRelay
            rw [hfound, hframe, hslot]
            exact Option.mem_filter_iff.mpr ⟨rfl, by simpa using hvalue⟩
          · rintro v p' tr' (⟨rfl, rfl, K, hK⟩ | ⟨rfl, hends⟩)
            · exact hremove tr' K hK
            · cases hends with
              | @done _ _ k r hk hfree hK hr htr =>
                  refine removeStarting_ends (p := { p with
                    relays := Function.update p.relays k r }) index _ false hs ?_
                  rw [if_neg (by simp), List.append_nil]
                  obtain ⟨es, heq, hes⟩ := htr
                  refine ⟨es, heq, finished_books hvalid hs hk hfree hr.isOpen hr.direct hr.work hes,
                    ?_⟩
                  exact RelaysBelow.update hbelow fun hge => absurd hk (Nat.not_lt.mpr hge)

/-! ## Every run -/

/-- The owners hold what the trace leaves open. -/
structure Accounted (b : Build) (fds : List Socket) (st : ServerState) (tr : List Effect) : Prop where
  below : ∀ i, RelaysBelow b (st.peers i)
  books : Books fds (socketLedger tr) (serverHolds b st)

theorem Accounted.start (control : List BoundSocket) :
    Accounted b (control.map BoundSocket.fd) (.start b control) [] := by
  refine ⟨fun _ _ _ => rfl, .perm (.of_eq ?_)⟩
  simp [serverHolds, ServerState.start, peerHolds_zero]

variable {fds : List Socket} {G : ServerState → ServerService → Prop}

theorem ServerMove.below {st st' : ServerState} {es : List Effect}
    (h : ServerMove b m cfg G st es st') (hst : ∀ i, RelaysBelow b (st.peers i)) :
    ∀ i, RelaysBelow b (st'.peers i) := by
  have hupdate : ∀ i p, RelaysBelow b p → ∀ j, RelaysBelow b ((st.setPeer i p).peers j) := by
    intro i p hp j
    by_cases hj : j = i
    · subst hj
      rwa [st.setPeer_self]
    · rw [st.setPeer_other p hj]
      exact hst j
  cases h with
  | peer i hi h => exact hupdate i _ (h.below (hst i))
  | bound index c i w hc hi hactive hroom hK hes => exact hupdate i _ (hst i)
  | joined index c i a next hc hi hK hes => exact hupdate i _ (hst i)
  | unjoined index c i hc hi hK hes => exact hupdate i _ (hst i)
  | registered i s a hi ha hadmitted hset hs hfree hS hes => exact hupdate i _ (hst i)
  | idle | rated | refused | accepted | heard | removed | unbound | unregistered | stopped =>
      exact hst

theorem ServerMove.accounted {st st' : ServerState} {es : List Effect}
    (h : ServerMove b m cfg G st es st') (hready : ∀ e ∈ es, e.Unready)
    (hst : Accounted b fds st tr) : Accounted b fds st' (tr ++ es) := by
  refine ⟨h.below hst.below, ?_⟩
  rw [socketLedger_append]
  exact hst.books.trans (h.books hst.below hready)

/-- One event of the loop. -/
theorem serverStep_accounted {s : ServerLoop} {ev : ServerEvent} (hslots : SlotsBounded b s)
    (hrep : Reported s ev) (hinit : ev.RelaysInit b m s.state) (hvalid : invalidSocket ∉ fds)
    (hopened : .opened invalidSocket ∉ socketLedger tr) (hs : Accounted b fds s.state tr) :
    Accounted b fds (serverStep b m cfg ev s).state.state
      (tr ++ (serverStep b m cfg ev s).effects) := by
  by_cases hstarting : ∃ i fd io, ev = .starting i fd io
  · obtain ⟨i, fd, io, rfl⟩ := hstarting
    have hi : i < b.maxClients := hslots _ (hrep _ rfl) i rfl
    obtain ⟨rest, hrest⟩ := serverHolds_peers (b := b) s.state hi
    have hheld := hrest (s.state.peers i)
    rw [s.state.setPeer_peers] at hheld
    have hpeer : invalidSocket ∉ peerHolds b (s.state.peers i) := fun hmem =>
      hs.books.absent hvalid hopened (hheld.mem_iff.mpr (List.mem_append_left rest hmem))
    have hends : (startingEvent b m fd io (s.state.peers i)).Ends tr _ _ :=
      startingEvent_moved fd io (hs.below i) hpeer hinit
    have hmoved : Moved b (s.state.peers i) tr (startingEvent b m fd io (s.state.peers i)).state
        (tr ++ (startingEvent b m fd io (s.state.peers i)).effects) := by
      cases hv : (startingEvent b m fd io (s.state.peers i)).value with
      | some _ => exact hends.of_some hv
      | none => exact hends.of_none hv
    obtain ⟨es, heq, hbooks, hbelow⟩ := hmoved
    rw [← List.append_cancel_left heq] at hbooks
    refine ⟨fun j => ?_, ?_⟩
    · show RelaysBelow b ((s.state.setPeer i _).peers j)
      by_cases hj : j = i
      · subst hj
        rw [s.state.setPeer_self]
        exact hbelow
      · rw [s.state.setPeer_other _ hj]
        exact hs.below j
    · rw [socketLedger_append]
      exact hs.books.trans (serverHolds_onPeer hi hbooks)
  · have hunready := @serverCall_unready b m cfg ev
      fun i fd io heq => hstarting ⟨i, fd, io, heq⟩
    have hwalk := (serverStep_walks m cfg hslots hrep tr).1.restrict (P := Effect.Unready)
      fun es heq e he => hunready s.state e (by rwa [← List.append_cancel_left heq] at he)
    exact hwalk.keeps (fun _ _ _ _ h hst => ServerMove.accounted h.1 h.2 hst) hs

/-- What the operating system promises: the control listeners are open, distinct and
valid, and it opens no descriptor that is open already or not valid. -/
def SocketsGranted (fds : List Socket) (tr : List Effect) : Prop :=
  fds.Nodup ∧ invalidSocket ∉ fds ∧ Granted fds (socketLedger tr) ∧
    .opened invalidSocket ∉ socketLedger tr

instance (fds : List Socket) (tr : List Effect) : Decidable (SocketsGranted fds tr) :=
  inferInstanceAs (Decidable (_ ∧ _ ∧ _ ∧ _))

/-- Each open socket has one owner, and each socket was closed once when its owner is gone. -/
structure SocketsOwned (b : Build) (fds : List Socket) (st : ServerState) (tr : List Effect) :
    Prop where
  held : (serverHolds b st).Perm (openAfter fds tr)
  single : (serverHolds b st).Nodup
  once : ClosedOnce fds (socketLedger tr)
  gone : ∀ fd, fds.count fd + (socketLedger tr).count (.opened fd) =
    (socketLedger tr).count (.closed fd) + (serverHolds b st).count fd

theorem Accounted.owned {st : ServerState} (h : Accounted b fds st tr)
    (hgranted : SocketsGranted fds tr) : SocketsOwned b fds st tr := by
  obtain ⟨hnodup, -, hfresh, -⟩ := hgranted
  obtain ⟨honce, hperm⟩ := h.books.settle
  refine ⟨?_, hperm.nodup_iff.mpr (hfresh.nodup hnodup), honce, h.books.count⟩
  rwa [outstanding_socketLedger] at hperm

/-- In every run in which `ct_relay_init` does not fail, each socket the server has
opened and not closed is held by one owner, no socket is closed twice, and a socket
that nothing holds any more was closed as often as it was opened. -/
theorem sockets_owned {control : List BoundSocket} {now : UInt64} {evs : List ServerEvent}
    (hrun : ServerRun b m cfg control now evs)
    (hinit : Along (serverStep b m cfg) (fun s ev => ev.RelaysInit b m s.state)
      (.start b control now) evs)
    (hgranted : SocketsGranted (control.map BoundSocket.fd)
      (runs (serverStep b m cfg) (.start b control now) evs).2) :
    SocketsOwned b (control.map BoundSocket.fd)
      (runs (serverStep b m cfg) (.start b control now) evs).1.state
      (runs (serverStep b m cfg) (.start b control now) evs).2 := by
  have hstep : ∀ (s : ServerLoop) tr ev, (Reported s ev ∧ ev.RelaysInit b m s.state) →
      (SlotsBounded b s ∧ (.opened invalidSocket ∉ socketLedger tr →
        Accounted b (control.map BoundSocket.fd) s.state tr)) →
      SlotsBounded b (serverStep b m cfg ev s).state ∧
        (.opened invalidSocket ∉ socketLedger (tr ++ (serverStep b m cfg ev s).effects) →
          Accounted b (control.map BoundSocket.fd) (serverStep b m cfg ev s).state.state
            (tr ++ (serverStep b m cfg ev s).effects)) := by
    rintro s tr ev ⟨hrep, hev⟩ ⟨hslots, hI⟩
    refine ⟨(serverStep_walks m cfg hslots hrep tr).2, fun hopened => ?_⟩
    have hbefore : .opened invalidSocket ∉ socketLedger tr := by
      intro hmem
      rw [socketLedger_append] at hopened
      exact hopened (List.mem_append_left _ hmem)
    exact serverStep_accounted hslots hrep hev hgranted.2.1 hbefore (hI hbefore)
  have hend := runs_along (I := fun s tr => SlotsBounded b s ∧
    (.opened invalidSocket ∉ socketLedger tr →
      Accounted b (control.map BoundSocket.fd) s.state tr)) hstep (hrun.and hinit)
    ⟨serverRefs_slots now _, fun _ => .start control⟩
  rw [List.nil_append] at hend
  exact (hend.2 hgranted.2.2.2).owned hgranted

/-! ## A stream of `edge` -/

/-- The first stream, over the first work connection. -/
def firstStream : StreamContext := ⟨1, miniRandom, miniWorkId 1, miniService.id, .disabled⟩

/-- What the primitives return in a session with one stream. -/
def readyLog : CryptoLog :=
  { miniLog with
    hashes := miniLog.hashes ++
      [startTag 1 1 0x3bccc4ecbdf15f53047cdd51234cfcd089f5b7541b9bf960f40e037afac1a1d7,
        ⟨32, edgeKeys.streamAuthKey.toList,
          (streammacInput edgeChannel (readyMessageType true) .client firstStream none 1).bytes,
          beBytes 32 0xd14b9a1cb3eb5597183d8f4bc45a447a0967f7a8fb1d3ef65233f52e8f3250a1⟩] }

/-- The READY of the client. -/
def readyFrame : Bytes :=
  (frameHeaderBytes ⟨readyMessageType true, 0, 111, edgeKeys.sessionId, 1, 0⟩).toList ++
    ((streamReadyPayload miniBuild firstStream true).map WriteBuf.bytes).getD [] ++
    beBytes 32 0xd14b9a1cb3eb5597183d8f4bc45a447a0967f7a8fb1d3ef65233f52e8f3250a1

/-- `edge` registers a service and binds a work connection, a connection arrives, and
the client answers READY; `memory` is there for the first buffer of the relay or not. -/
def readyRun (memory : Bool) : List ServerEvent :=
  miniRun.take 8 ++
    miniWork 1 11 0x1db6329e06930fb1ec1e69e951fdff4a51a84dfe04752d507e8798f64db3528d ++
    miniExternal 21 ++ [.starting 0 11 ⟨.bytes readyFrame, [], ⟨memory, true, true⟩, 0⟩, hubTurn]

def readyEnd (memory : Bool) : ServerLoop × List Effect :=
  runs (serverStep miniBuild readyLog.monocypher miniConfig)
    (.start miniBuild [⟨3, loopbackName6 7000⟩] 0) (readyRun memory)

theorem readyEnd_eq (memory : Bool) :
    readyEnd memory = runs (serverStep miniBuild readyLog.monocypher miniConfig)
      (.start miniBuild [⟨3, loopbackName6 7000⟩] 0) (readyRun memory) := rfl

/-- One evaluation of both runs. -/
theorem ready_runs :
    (∀ memory, ServerRun miniBuild readyLog.monocypher miniConfig [⟨3, loopbackName6 7000⟩] 0
        (readyRun memory) ∧ SocketsGranted [3] (readyEnd memory).2) ∧
    ((socketLedger (readyEnd false).2).count (.opened 21) = 1 ∧
      (socketLedger (readyEnd false).2).count (.closed 21) = 2 ∧
      ¬ ClosedOnce [3] (socketLedger (readyEnd false).2)) ∧
    Along (serverStep miniBuild readyLog.monocypher miniConfig)
      (fun s ev => ev.RelaysInit miniBuild readyLog.monocypher s.state)
      (.start miniBuild [⟨3, loopbackName6 7000⟩] 0) (readyRun true) ∧
    relayHolds (((readyEnd true).1.state.peers 0).relays 0) = [21, 11] := by
  decide +kernel

/-- Without memory for the relay both sockets of the stream are closed twice. -/
theorem failed_relay_closes_twice :
    ServerRun miniBuild readyLog.monocypher miniConfig [⟨3, loopbackName6 7000⟩] 0
        (readyRun false) ∧
      SocketsGranted [3] (readyEnd false).2 ∧
      (socketLedger (readyEnd false).2).count (.opened 21) = 1 ∧
      (socketLedger (readyEnd false).2).count (.closed 21) = 2 ∧
      ¬ SocketsOwned miniBuild [3] (readyEnd false).1.state (readyEnd false).2 := by
  obtain ⟨hruns, ⟨hopened, hclosed, htwice⟩, -⟩ := ready_runs
  obtain ⟨hrun, hgranted⟩ := hruns false
  exact ⟨hrun, hgranted, hopened, hclosed, mt SocketsOwned.once htwice⟩

/-- With memory for it the relay owns the two sockets. -/
theorem opened_relay_owned :
    relayHolds (((readyEnd true).1.state.peers 0).relays 0) = [21, 11] ∧
      SocketsOwned miniBuild [3] (readyEnd true).1.state (readyEnd true).2 := by
  obtain ⟨hruns, -, hinit, hholds⟩ := ready_runs
  obtain ⟨hrun, hgranted⟩ := hruns true
  refine ⟨hholds, ?_⟩
  rw [readyEnd_eq] at hgranted ⊢
  exact sockets_owned hrun hinit hgranted

end Ctunnel
