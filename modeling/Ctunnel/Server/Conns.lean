import Ctunnel.Server.Parts
import Ctunnel.Server.Walks

/-!
# Calls that leave the connections of a peer where they are

The pending, idle and starting connections of a peer change when a connection
arrives, is paired, answered or swept. Every other call of the server leaves them
alone or closes the peer.
-/

namespace Ctunnel

open Lib

/-- `I` depends on the connections of a peer only. -/
def OfConns (I : ServerPeer → Prop) : Prop :=
  ∀ p q, q.active = p.active → q.pending = p.pending → q.work = p.work →
    q.starting = p.starting → I p → I q

variable {b : Build} {m : Monocypher} {cfg : CtConfig}

section Peers

variable {I : ServerPeer → Prop}

theorem onControl_conns (hI : OfConns I) {α : Type} {x : Call Effect CtControl α} :
    Call.Keeps I (onControl x) := .zoom fun p _ h => hI p _ rfl rfl rfl rfl h

theorem setReadRetry_conns (hI : OfConns I) (ms : UInt64) : Call.Keeps I (setReadRetry ms) :=
  .modify fun p h => hI p _ rfl rfl rfl rfl h

theorem peerClose_conns (hI : OfConns I) (hzero : I .zero) (io : SendIo) :
    Call.Keeps I (peerClose b m io) :=
  peerClose_keeps (fun p _ h => hI p _ rfl rfl rfl rfl h) hzero

theorem serverUdpCreate_conns (hI : OfConns I) (svc : Nat) (peer : CtEndpoint) (listener : Socket)
    (now : UInt64) : Call.Keeps I (serverUdpCreate b svc peer listener now) := by
  refine .bind .get fun _ => .bind (.onFail .check) fun _ => .bind (.onFail .need) fun _ => ?_
  refine .bind (.modify fun p h => hI p _ rfl rfl rfl rfl h) fun _ => ?_
  exact .bind (.modify fun p h => hI p _ rfl rfl rfl rfl h) fun _ => .bind .tell fun _ => .pure

theorem serverUdpFromExternal_conns (hI : OfConns I) (svc : Nat) (listener : Socket) (now : UInt64)
    (io : UdpExternalIo) : Call.Keeps I (serverUdpFromExternal b m svc listener now io) := by
  refine .bind .get fun p => ?_
  cases ctUdpRecv b b.maxUdpDatagramSize io.recv with
  | failed => exact .need
  | nothing => exact .pure
  | datagram peer payload =>
      refine .ite (fun _ => .tell) (fun _ => .bind .get fun q => .bind (.attempt ?_) fun found => ?_)
      · cases serverUdpFind b q svc peer with
        | some i => exact .pure
        | none => exact serverUdpCreate_conns hI svc peer listener now
      · cases found with
        | none => exact .tell
        | some i =>
            refine .bind (.modify fun p h => hI p _ rfl rfl rfl rfl h) fun _ => .bind .get fun _ => ?_
            exact .bind (.onFail (.bind .need fun _ => onControl_conns hI)) fun _ => .tell

theorem udpServiceEvent_conns (hI : OfConns I) (hzero : I .zero) (svc : Nat) (io : UdpServiceIo) :
    Call.Keeps I (udpServiceEvent b m svc io) := by
  have hloop : ∀ fuel i, Call.Keeps I (udpServiceLoop b m svc io fuel i) := by
    intro fuel
    induction fuel with
    | zero => exact fun i => .pure
    | succ fuel ih =>
        intro i
        refine .bind .get fun p => ?_
        cases (p.service svc).udpFd[i]? with
        | none => exact .pure
        | some s =>
            refine .bind (.attempt (serverUdpFromExternal_conns hI svc s.fd io.now _)) fun v => ?_
            cases v with
            | some _ => exact ih (i + 1)
            | none => exact .bind (peerClose_conns hI hzero _) fun _ => ih (i + 1)
  exact .bind .get fun p => hloop _ 0

theorem serverUdpFromClient_conns (hI : OfConns I) (payload : Bytes) (now : UInt64) (io : SendTo) :
    Call.Keeps I (serverUdpFromClient b payload now io) := by
  refine .bind (.onFail .need) fun f => .bind .get fun p => ?_
  cases (serverUdpFindId b p f.id).filter fun i =>
      (p.service (p.udp i).svc).cfg.id == f.service && endpointEqual (p.udp i).peer f.peer with
  | none => exact .tell
  | some i =>
      dsimp only
      cases udpReplayAccept b.udpReplayWindow (p.udp i).rxHigh (p.udp i).rxBitmap f.seq with
      | none => exact .tell
      | some window =>
          refine .bind (.modify fun p h => hI p _ rfl rfl rfl rfl h) fun _ => ?_
          refine .bind (.onFail (.bind .check fun _ => ?_)) fun _ => .tell
          cases io with
          | sent n => exact .bind .tell fun _ => .check
          | wouldBlock => exact .pure
          | failed => exact .need

theorem registerService_conns (hI : OfConns I) (control : List BoundSocket)
    (peers : Nat → ServerPeer) (payload : Bytes) (io : RegisterIo) :
    Call.Keeps I (registerService b m cfg control peers payload io) := by
  refine .bind .need fun r => .bind ?_ fun result => ?_
  · intro p hp
    refine Reply.Ends.state [] (I := I) ((registerChecks_ends control peers r io.bind p).mono ?_ ?_)
    · rintro _ _ _ ⟨rfl, -⟩
      exact hp
    · rintro _ _ ⟨rfl, -⟩
      exact hp
  · cases result with
    | ok service =>
        exact .bind (.modify fun p h => hI p _ rfl rfl rfl rfl h) fun _ => onControl_conns hI
    | error why => exact onControl_conns hI

theorem serverControl_conns (hI : OfConns I) (control : List BoundSocket)
    (peers : Nat → ServerPeer) (io : ControlIo) :
    Call.Keeps I (serverControl b m cfg control peers io) := by
  refine .bind (onControl_conns hI) fun (h, payload) => ?_
  refine .ite (fun _ => registerService_conns hI control peers payload io.register) fun _ => ?_
  refine .ite (fun _ => serverUdpFromClient_conns hI payload io.now io.sendTo) fun _ => ?_
  exact .ite (fun _ => onControl_conns hI) fun _ => .ite (fun _ => .pure) fun _ => .need

theorem serverUdpExpire_conns (hI : OfConns I) (now : UInt64) :
    Call.Keeps I (serverUdpExpire b now) :=
  .bind .get fun _ => .bind (.modify fun p h => hI p _ rfl rfl rfl rfl h) fun _ => .tell

theorem sweepHeartbeat_conns (hI : OfConns I) (hzero : I .zero) (i : Nat) (io : SweepIo) :
    Call.Keeps I (sweepHeartbeat b m cfg i io) := by
  refine .bind .get fun q => .ite (fun _ => peerClose_conns hI hzero _) fun _ => ?_
  refine .ite (fun _ => .bind (.attempt (onControl_conns hI)) fun sent => ?_) fun _ => .pure
  cases sent with
  | some _ => exact .pure
  | none => exact peerClose_conns hI hzero _

theorem relayEvent_conns (hI : OfConns I) (k : Nat) (side : Side) (ev : EvMask) (io : RelayIo) :
    Call.Keeps I (onRelay k (Call.ofOutcome fun r =>
      ctRelayProcess b m (match side with | .direct => r.direct | .work => r.work) ev io r)) :=
  .zoom fun p _ h => hI p _ rfl rfl rfl rfl h

end Peers

/-! ## The peers of the server -/

/-- Each peer has its `I`. -/
def AllPeers (I : Nat → ServerPeer → Prop) (st : ServerState) : Prop := ∀ i, I i (st.peers i)

section Server

variable {I : Nat → ServerPeer → Prop} {st : ServerState}

theorem AllPeers.setPeer (h : AllPeers I st) {i : Nat} {p : ServerPeer} (hp : I i p) :
    AllPeers I (st.setPeer i p) := by
  intro j
  by_cases hj : j = i
  · subst hj
    rwa [st.setPeer_self]
  · rw [st.setPeer_other p hj]
    exact h j

theorem onPeer_all {α : Type} {i : Nat} {x : Call Effect ServerPeer α}
    (hx : Call.Keeps (I i) x) : Call.Keeps (AllPeers I) (onPeer i x) :=
  fun _ h => h.setPeer (hx _ (h i))

/-- `remove_incoming` always succeeds. -/
theorem removeIncoming_keeps {I : ServerState → Prop} {tr : List Effect}
    (hI : ∀ st t, I st → I { st with incoming := t }) (index : Nat) (closing : Bool) (h : I st) :
    (removeIncoming index closing st).Ends tr (fun _ st' _ => I st') (fun _ _ => False) := by
  refine .get ?_
  cases st.incoming.conns[index]? with
  | none => exact .ret h
  | some c =>
      have hremove : ∀ tr', (Call.modify (fun st : ServerState =>
          { st with incoming := st.incoming.remove index }) st : Reply Effect ServerState Unit).Ends
            tr' (fun _ st' _ => I st') (fun _ _ => False) :=
        fun _ => .of_bind_pure (.modify (.ret (hI st _ h)))
      exact .ite (fun _ => .tell (hremove _)) (fun _ => hremove _)

theorem removeIncoming_all (index : Nat) (closing : Bool) :
    Call.Keeps (AllPeers I) (removeIncoming index closing) := fun _ h =>
  Reply.Ends.state [] ((removeIncoming_keeps (fun _ _ h => h) index closing h).mono
    (fun _ _ _ h => h) (fun _ _ h => h.elim))

theorem authFailed_all (index slot : Nat) (now : UInt64) :
    Call.Keeps (AllPeers I) (authFailed index slot now) :=
  .bind .tell fun _ => .bind (.modify fun _ h => h) fun _ => removeIncoming_all index true

theorem incomingHello_all (index : Nat) (c : IncomingConn) (h : CtFrameHeader)
    (io : IncomingIo) : Call.Keeps (AllPeers I) (incomingHello b m cfg index c h io) := by
  refine .bind .get fun st => .bind (.modify fun _ h => h) fun _ => .ite (fun _ => ?_) (fun _ => ?_)
  · exact .bind .tell fun _ => removeIncoming_all index true
  · refine .bind (.attempt (.bind .check fun _ => .zoom fun _ _ h => h)) fun begun => ?_
    cases begun with
    | none => exact authFailed_all index _ io.after
    | some _ => exact .modify fun _ h => h

/-- A client takes a slot. -/
theorem incomingAuth_all (hctl : ∀ i p c, I i p → I i { p with ctl := c })
    (hjoin : ∀ i p a n, I i p → I i { p with auth := a, active := true, nextStream := n })
    (index : Nat) (c : IncomingConn) (io : IncomingIo) :
    Call.Keeps (AllPeers I) (incomingAuth b m cfg index c io) := by
  refine .bind .get fun st => .bind (.modify fun _ h => h) fun _ => .bind (.attempt ?_) ?_
  · refine .bind .need fun i => .bind (.zoom fun st y h => ?_) fun _ => .modify fun st h => ?_
    · exact h.setPeer (hctl i _ y.2 (h i))
    · exact h.setPeer (hjoin i _ _ _ (h i))
  · intro finished
    cases finished with
    | none => exact authFailed_all index _ io.after
    | some _ => exact .bind (.modify fun _ h => h) fun _ => removeIncoming_all index false

theorem acceptEvent_all (io : AcceptIo) : Call.Keeps (AllPeers I) (acceptEvent b cfg io) := by
  intro st h i
  rw [acceptEvent_peers]
  exact h i

/-- The handlers of an incoming connection, `incomingBind` given. -/
theorem incomingEvent_all (hctl : ∀ i p c, I i p → I i { p with ctl := c })
    (hjoin : ∀ i p a n, I i p → I i { p with auth := a, active := true, nextStream := n })
    {fd : Socket} (hbind : ∀ index c h io, c.fd = fd →
      Call.Keeps (AllPeers I) (incomingBind b m cfg index c h io))
    (io : IncomingIo) : Call.Keeps (AllPeers I) (incomingEvent b m cfg fd io) := by
  refine .bind .get fun st => ?_
  cases hfound : findIncoming st.incoming fd with
  | none => exact .pure
  | some index =>
      have hfd : (st.incoming.conns.getD index .zero).fd = fd := by
        obtain ⟨hlt, hfd, -⟩ := List.findIdx?_eq_some_iff_getElem.mp hfound
        rw [List.getD_eq_getElem _ _ hlt]
        exact beq_iff_eq.mp hfd
      dsimp only
      cases ctPlainFrameAvailable b b.controlBufferSize io.queued with
      | failed => exact removeIncoming_all index true
      | later => exact .modify fun _ h => h
      | frame h =>
          refine .ite (fun _ => incomingHello_all index _ h io) fun _ => ?_
          refine .ite (fun _ => hbind index _ h io hfd) fun _ => ?_
          exact .ite (fun _ => incomingAuth_all hctl hjoin index _ io)
            fun _ => removeIncoming_all index true

theorem controlEvent_all {i : Nat} (hI : OfConns (I i)) (hzero : I i .zero) (io : ControlIo) :
    Call.Keeps (AllPeers I) (controlEvent b m cfg i io) := by
  unfold controlEvent
  cases ctFrameAvailable b (b.controlBufferSize + ctAeadTag) ctFlagEncrypted io.queued with
  | failed => exact onPeer_all (peerClose_conns hI hzero io.goaway)
  | later => exact onPeer_all (setReadRetry_conns hI _)
  | frame _ =>
      refine .bind .get fun st => onPeer_all (.bind (setReadRetry_conns hI 0) fun _ => ?_)
      refine .bind (.attempt (serverControl_conns hI st.control st.peers io)) fun handled => ?_
      cases handled with
      | some _ => exact .pure
      | none => exact peerClose_conns hI hzero io.goaway

/-- Each peer of the list goes through `f` once. -/
theorem eachPeer_peers (f : Nat → Call Effect ServerPeer Unit) {is : List Nat} (hnodup : is.Nodup)
    (st : ServerState) (i : Nat) :
    (i ∉ is → (eachPeer f is st).state.peers i = st.peers i) ∧
      ((eachPeer f is st).state.peers i = st.peers i ∨
        (eachPeer f is st).state.peers i = (f i (st.peers i)).state) := by
  induction is generalizing st with
  | nil => exact ⟨fun _ => rfl, .inl rfl⟩
  | cons k is ih =>
      obtain ⟨hk, hrest⟩ := List.nodup_cons.mp hnodup
      let st₁ : ServerState := st.setPeer k (f k (st.peers k)).state
      have hstate : (eachPeer f (k :: is) st).state = (eachPeer f is st₁).state ∨
          (eachPeer f (k :: is) st).state = st₁ := by
        refine Reply.Ends.state [] (I := fun s => s = (eachPeer f is st₁).state ∨ s = st₁)
          (.bind (Q := fun _ s _ => s = st₁) (.mk (fun _ _ => rfl) fun _ => .inr rfl) ?_)
        rintro _ s tr' rfl
        exact .mk (fun _ _ => .inl rfl) fun _ => .inl rfl
      obtain ⟨hout, hcases⟩ := ih hrest st₁
      by_cases hik : i = k
      · subst hik
        have hsame : (eachPeer f (i :: is) st).state.peers i = (f i (st.peers i)).state := by
          rcases hstate with heq | heq <;> rw [heq]
          · rw [hout hk, st.setPeer_self]
          · rw [st.setPeer_self]
        exact ⟨fun hno => absurd List.mem_cons_self hno, .inr hsame⟩
      · have hother : st₁.peers i = st.peers i := st.setPeer_other _ hik
        rw [hother] at hout hcases
        rcases hstate with heq | heq <;> rw [heq]
        · exact ⟨fun hno => hout fun h => hno (List.mem_cons_of_mem k h), hcases⟩
        · exact ⟨fun _ => hother, .inl hother⟩

theorem eachPeer_all {f : Nat → Call Effect ServerPeer Unit} {is : List Nat} (hnodup : is.Nodup)
    (h : AllPeers I st) (hf : ∀ i ∈ is, I i (f i (st.peers i)).state) :
    AllPeers I (eachPeer f is st).state := by
  intro i
  obtain ⟨hout, hcases⟩ := eachPeer_peers f hnodup st i
  by_cases hi : i ∈ is
  · rcases hcases with heq | heq <;> rw [heq]
    · exact h i
    · exact hf i hi
  · rw [hout hi]
    exact h i

theorem sweep_all (io : SweepIo) (h : AllPeers I st)
    (hpeer : ∀ i < b.maxClients, I i (sweepPeer b m cfg i io (st.peers i)).state) :
    AllPeers I (sweep b m cfg io st).state := by
  refine Reply.Ends.state [] (I := AllPeers I) (.get (.modify (.tell ?_)))
  have hstate : ∀ t, AllPeers I (eachPeer (fun i => sweepPeer b m cfg i io)
      (List.range b.maxClients) { st with incoming := t }).state := fun t =>
    @eachPeer_all I { st with incoming := t } _ _ List.nodup_range h fun i hi =>
      hpeer i (List.mem_range.mp hi)
  exact .mk (fun _ _ => hstate _) fun _ => hstate _

theorem shutdown_all (hI : ∀ i, OfConns (I i)) (hzero : ∀ i, I i .zero) (goaway : Nat → SendIo) :
    Call.Keeps (AllPeers I) (shutdown b m goaway) := by
  refine .bind (fun st h => ?_) fun _ => .bind .get fun _ => .bind .tell fun _ => .modify fun _ h => h
  exact eachPeer_all List.nodup_range h fun i _ =>
    peerClose_conns (hI i) (hzero i) (goaway i) _ (h i)

end Server

end Ctunnel
