import Ctunnel.Server.Parts
import Ctunnel.Server.Walks

/-!
# Where the server accepts a READY

The answer of a client to START_STREAM is read when a starting work connection is
readable, and nowhere else: no other event accepts a READY.
-/

namespace Ctunnel

open Lib

variable {b : Build} {m : Monocypher} {cfg : CtConfig}

/-! ## Control frames -/

theorem ctControlSend_unready {type : UInt8} {stream : UInt64} {p : Bytes} {io : SendIo} :
    Call.Emits Effect.Unready (ctControlSend b m type stream p io) :=
  ctControlSend_framing.mono fun _ h => h.unready

theorem ctControlRecv_unready {cap : Nat} {io : RecvIo} :
    Call.Emits Effect.Unready (ctControlRecv b m cap io) := by
  refine .bind .get fun _ => .bind .need fun _ => .bind .need fun _ => .bind .check fun _ => ?_
  refine .bind .check fun _ => .bind .need fun _ => ?_
  refine .bind (.tell (by simp [Effect.Unready])) fun _ => .bind .need fun _ => ?_
  exact .bind .modify fun _ => .bind (.tell (by simp [Effect.Unready])) fun _ => .pure

theorem ctHandshakeServerFinish_unready {fd : Socket} {io : ServerFinishIo} :
    Call.Emits Effect.Unready (ctHandshakeServerFinish b m fd io) := by
  intro s
  have hbody : Call.Emits Effect.Unready (serverFinishBody b m fd s.1 io) := by
    refine .bind .need fun _ => .bind .need fun _ => .bind .check fun _ => ?_
    refine .bind (.tell (by simp [Effect.Unready])) fun _ => .bind .check fun _ => ?_
    refine .bind .check fun _ => .bind .need fun _ => .bind .modify fun _ => .bind .need fun _ => ?_
    refine .bind (.tell (by simp [Effect.Unready])) fun _ => .bind .modify fun _ => ?_
    refine .bind ctControlSend_unready fun _ => .bind .modify fun _ => ?_
    exact .bind (.tell (by simp [Effect.Unready])) fun _ => .pure
  exact Call.Emits.rollback hbody s.2

theorem ctUdpSend_unready {σ : Type} {fd : Socket} {destination : CtEndpoint} {bytes : Bytes}
    {io : SendTo} :
    Call.Emits Effect.Unready (ctUdpSend b fd destination bytes io : Call Effect σ Unit) := by
  refine .bind .check fun _ => ?_
  cases io with
  | sent n => exact .bind (.tell (by simp [Effect.Unready])) fun _ => .check
  | wouldBlock => exact .pure
  | failed => exact .need

/-! ## Calls on a peer -/

theorem unready_of_unkeyed {e : Effect} (h : e.keyed = false) : e.Unready := by
  rintro keys clientId x rfl
  exact absurd h (by simp [Effect.keyed])

theorem peerClose_unready {io : SendIo} : Call.Emits Effect.Unready (peerClose b m io) := by
  refine .bind .get fun p => .ite (fun _ => ?_) fun _ => .pure
  refine .bind (.attempt (.zoom ctControlSend_unready)) fun _ => .bind .get fun q => ?_
  refine .bind (.tell fun e he => unready_of_unkeyed ?_) fun _ => .modify
  have hnone := (peerCloseEffects_does b q).keyed
  exact by simpa using List.filter_eq_nil_iff.mp hnone e he

theorem serverUdpCreate_unready {svc : Nat} {peer : CtEndpoint} {listener : Socket} {now : UInt64} :
    Call.Emits Effect.Unready (serverUdpCreate b svc peer listener now) := by
  refine .bind .get fun _ => .bind (.onFail (by simp [Effect.Unready]) .check) fun _ => ?_
  refine .bind (.onFail (by simp [Effect.Unready]) .need) fun _ => .bind .modify fun _ => ?_
  exact .bind .modify fun _ => .bind (.tell (by simp [Effect.Unready])) fun _ => .pure

theorem serverUdpFromExternal_unready {svc : Nat} {listener : Socket} {now : UInt64}
    {io : UdpExternalIo} :
    Call.Emits Effect.Unready (serverUdpFromExternal b m svc listener now io) := by
  refine .bind .get fun p => ?_
  cases ctUdpRecv b b.maxUdpDatagramSize io.recv with
  | failed => exact .need
  | nothing => exact .pure
  | datagram peer payload =>
      refine .ite (fun _ => .tell (by simp [Effect.Unready])) fun _ => ?_
      refine .bind .get fun q => .bind (.attempt ?_) fun found => ?_
      · cases serverUdpFind b q svc peer with
        | some i => exact .pure
        | none => exact serverUdpCreate_unready
      · cases found with
        | none => exact .tell (by simp [Effect.Unready])
        | some i =>
            refine .bind .modify fun _ => .bind .get fun _ => ?_
            refine .bind (.onFail (by simp [Effect.Unready]) (.bind .need fun _ => ?_)) fun _ =>
              .tell (by simp [Effect.Unready])
            exact .zoom ctControlSend_unready

theorem udpServiceEvent_unready {svc : Nat} {io : UdpServiceIo} :
    Call.Emits Effect.Unready (udpServiceEvent b m svc io) := by
  have hloop : ∀ fuel i, Call.Emits Effect.Unready (udpServiceLoop b m svc io fuel i) := by
    intro fuel
    induction fuel with
    | zero => exact fun i => .pure
    | succ fuel ih =>
        intro i
        refine .bind .get fun p => ?_
        cases (p.service svc).udpFd[i]? with
        | none => exact .pure
        | some s =>
            refine .bind (.attempt serverUdpFromExternal_unready) fun handled => ?_
            cases handled with
            | some _ => exact ih (i + 1)
            | none => exact .bind peerClose_unready fun _ => ih (i + 1)
  exact .bind .get fun p => hloop _ 0

theorem serverUdpFromClient_unready {payload : Bytes} {now : UInt64} {io : SendTo} :
    Call.Emits Effect.Unready (serverUdpFromClient b payload now io) := by
  refine .bind (.onFail (by simp [Effect.Unready]) .need) fun f => .bind .get fun p => ?_
  cases (serverUdpFindId b p f.id).filter fun i =>
      (p.service (p.udp i).svc).cfg.id == f.service && endpointEqual (p.udp i).peer f.peer with
  | none => exact .tell (by simp [Effect.Unready])
  | some i =>
      dsimp only
      cases udpReplayAccept b.udpReplayWindow (p.udp i).rxHigh (p.udp i).rxBitmap f.seq with
      | none => exact .tell (by simp [Effect.Unready])
      | some window =>
          refine .bind .modify fun _ => ?_
          refine .bind (.onFail (by simp [Effect.Unready]) ctUdpSend_unready) fun _ => ?_
          exact .tell (by simp [Effect.Unready])

theorem registerService_unready {control : List BoundSocket} {peers : Nat → ServerPeer}
    {payload : Bytes} {io : RegisterIo} :
    Call.Emits Effect.Unready (registerService b m cfg control peers payload io) := by
  refine .bind .need fun r => .bind (registerChecks_sockets.mono fun e h => ?_) fun result => ?_
  · cases e <;> first | exact unready_of_unkeyed rfl | exact absurd h (by simp [Effect.onSocket])
  · cases result with
    | ok service => exact .bind .modify fun _ => .zoom ctControlSend_unready
    | error why => exact .zoom ctControlSend_unready

theorem serverControl_unready {control : List BoundSocket} {peers : Nat → ServerPeer}
    {io : ControlIo} : Call.Emits Effect.Unready (serverControl b m cfg control peers io) := by
  refine .bind (.zoom ctControlRecv_unready) fun (h, payload) => ?_
  refine .ite (fun _ => registerService_unready) fun _ => ?_
  refine .ite (fun _ => serverUdpFromClient_unready) fun _ => ?_
  exact .ite (fun _ => .zoom ctControlSend_unready) fun _ => .ite (fun _ => .pure) fun _ => .need

theorem serviceEvent_unready {svc : Nat} {io : ServiceIo} :
    Call.Emits Effect.Unready (serviceEvent b m cfg svc io) := by
  refine .bind .get fun p => ?_
  cases (if (p.service svc).listenFd = [] then none else io.accepted) with
  | none => exact .pure
  | some fd =>
      refine .bind (.tell (by simp [Effect.Unready])) fun _ => ?_
      cases connectionMetadata b (p.service svc) io.names with
      | none => exact .tell (by simp [Effect.Unready])
      | some md =>
          refine .ite (fun _ => .tell (by simp [Effect.Unready])) fun _ => .bind .modify fun _ => ?_
          refine .bind (.tell (by simp [Effect.Unready])) fun _ => .bind .get fun q => ?_
          have hmatch := (@matchPending_routine b m cfg io.starts).mono fun _ h => h.unready
          exact .ite (fun _ => .bind (.attempt (.zoom ctControlSend_unready)) fun _ => hmatch)
            fun _ => hmatch

theorem relayEvent_unready {k : Nat} {side : Side} {ev : EvMask} {io : RelayIo} :
    Call.Emits Effect.Unready (onRelay k (Call.ofOutcome fun r =>
      ctRelayProcess b m (match side with | .direct => r.direct | .work => r.work) ev io r)) := by
  refine .zoom (.ofOutcome fun r e he => ?_)
  rintro keys clientId x rfl
  generalize (match side with | .direct => r.direct | .work => r.work) = fd at he
  obtain ⟨K, ⟨es, hes, hkeyed⟩, hmove⟩ := ctRelayProcess_move (b := b) (m := m) fd ev io r []
  rw [← List.append_cancel_left hes] at hkeyed
  have hmem : Effect.readyRecv keys clientId x true ∈ K := by
    rw [← hkeyed]
    exact List.mem_filter.mpr ⟨he, rfl⟩
  cases hmove with
  | quiet h => exact absurd hmem (by simp)
  | sealed hopen henc hseq h ad box plain => exact absurd hmem (by simp)

theorem sweepHeartbeat_unready {i : Nat} {io : SweepIo} :
    Call.Emits Effect.Unready (sweepHeartbeat b m cfg i io) := by
  refine .bind .get fun p => .ite (fun _ => peerClose_unready) fun _ => ?_
  refine .ite (fun _ => .bind (.attempt (.zoom ctControlSend_unready)) fun sent => ?_) fun _ => .pure
  cases sent with
  | some _ => exact .pure
  | none => exact peerClose_unready

/-- The effects of a sweep over a list, entry by entry. -/
theorem unready_flatMap {α : Type} {l : List α} {f : α → List Effect}
    (h : ∀ a, ∀ e ∈ f a, e.Unready) : ∀ e ∈ l.flatMap f, e.Unready := by
  intro e he
  obtain ⟨a, -, he⟩ := List.mem_flatMap.mp he
  exact h a e he

theorem sweepPeer_unready {i : Nat} {io : SweepIo} :
    Call.Emits Effect.Unready (sweepPeer b m cfg i io) := by
  refine .bind .get fun p => .ite (fun _ => .bind .modify fun _ => ?_) fun _ => .pure
  refine .bind (.tell (unready_flatMap (by simp [Effect.Unready]))) fun _ => .bind .modify fun _ => ?_
  refine .bind (.tell (unready_flatMap (by simp [Effect.Unready]))) fun _ => ?_
  refine .ite (fun _ => .bind ?_ fun _ => sweepHeartbeat_unready) fun _ => sweepHeartbeat_unready
  refine .bind .get fun q => .bind .modify fun _ => .tell (unready_flatMap fun j e he => ?_)
  split at he
  · simp only [List.mem_cons, List.not_mem_nil, or_false] at he
    rcases he with rfl | rfl <;> exact unready_of_unkeyed rfl
  · exact absurd he (by simp)

/-! ## The loop -/

theorem incomingAuth_unready {index : Nat} {c : IncomingConn} {io : IncomingIo} :
    Call.Emits Effect.Unready (incomingAuth b m cfg index c io) := by
  refine .bind .get fun st => .bind .modify fun _ => .bind (.attempt ?_) fun finished => ?_
  · refine .bind .need fun i => .bind (.zoom ctHandshakeServerFinish_unready) fun _ => .modify
  · cases finished with
    | none => exact authFailed_routine.mono fun _ h => h.unready
    | some _ => exact .bind .modify fun _ => removeIncoming_routine.mono fun _ h => h.unready

theorem incomingEvent_unready {fd : Socket} {io : IncomingIo} :
    Call.Emits Effect.Unready (incomingEvent b m cfg fd io) := by
  have hremove : ∀ index, Call.Emits Effect.Unready (removeIncoming index true) := fun _ =>
    removeIncoming_routine.mono fun _ h => h.unready
  refine .bind .get fun st => ?_
  cases findIncoming st.incoming fd with
  | none => exact .pure
  | some index =>
      dsimp only
      cases ctPlainFrameAvailable b b.controlBufferSize io.queued with
      | failed => exact hremove index
      | later => exact .modify
      | frame hd =>
          refine .ite (fun _ => incomingHello_routine.mono fun _ h => h.unready) fun _ => ?_
          refine .ite (fun _ => incomingBind_routine.mono fun _ h => h.unready) fun _ => ?_
          exact .ite (fun _ => incomingAuth_unready) fun _ => hremove index

theorem acceptEvent_unready {io : AcceptIo} : Call.Emits Effect.Unready (acceptEvent b cfg io) := by
  unfold acceptEvent
  cases io.accepted with
  | none => exact .pure
  | some x =>
      obtain ⟨fd, remote⟩ := x
      refine .bind (.tell (by simp [Effect.Unready])) fun _ => .bind .get fun _ => ?_
      exact .ite (fun _ => .tell (by simp [Effect.Unready])) fun _ => .modify

theorem controlEvent_unready {i : Nat} {io : ControlIo} :
    Call.Emits Effect.Unready (controlEvent b m cfg i io) := by
  unfold controlEvent
  cases ctFrameAvailable b (b.controlBufferSize + ctAeadTag) ctFlagEncrypted io.queued with
  | failed => exact .zoom peerClose_unready
  | later => exact .zoom .modify
  | frame hd =>
      refine .bind .get fun st => .zoom (.bind .modify fun _ => ?_)
      refine .bind (.attempt serverControl_unready) fun handled => ?_
      cases handled with
      | some _ => exact .pure
      | none => exact peerClose_unready

theorem eachPeer_unready {f : Nat → Call Effect ServerPeer Unit}
    (hf : ∀ i, Call.Emits Effect.Unready (f i)) (is : List Nat) :
    Call.Emits Effect.Unready (eachPeer f is) := by
  induction is with
  | nil => exact .pure
  | cons i is ih => exact .bind (.zoom (hf i)) fun _ => ih

theorem unready_closes {α : Type} (l : List α) (fd : α → Socket) :
    ∀ e ∈ l.map (fun x => Effect.socketClose (fd x)), e.Unready := by
  intro e he
  obtain ⟨x, -, rfl⟩ := List.mem_map.mp he
  exact unready_of_unkeyed rfl

/-- No event but that of a starting stream accepts a READY. -/
theorem serverCall_unready {ev : ServerEvent} (hev : ∀ i fd io, ev ≠ .starting i fd io) :
    Call.Emits Effect.Unready (serverCall b m cfg ev) := by
  cases ev with
  | accept io => exact acceptEvent_unready
  | incoming fd io => exact incomingEvent_unready
  | control i io => exact controlEvent_unready
  | service i svc io => exact .zoom serviceEvent_unready
  | udpService i svc io => exact .zoom udpServiceEvent_unready
  | starting i fd io => exact absurd rfl (hev i fd io)
  | relay i k side ev io => exact .zoom relayEvent_unready
  | sweep io =>
      refine .bind .get fun st => .bind .modify fun _ => .bind (.tell (unready_closes _ _)) fun _ => ?_
      exact eachPeer_unready (fun i => sweepPeer_unready) _
  | stop goaway =>
      refine .bind (eachPeer_unready (fun i => peerClose_unready) _) fun _ => .bind .get fun st => ?_
      refine .bind (.tell fun e he => ?_) fun _ => .modify
      rcases List.mem_append.mp he with he | he
      · exact unready_closes _ _ e he
      · exact unready_closes _ _ e he

end Ctunnel
