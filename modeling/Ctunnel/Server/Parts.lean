import Ctunnel.Net.Inert
import Ctunnel.Server.Loop

/-!
# What the calls of the server leave alone

Control frames are sent and datagrams handed out in few places. For every other
call of the server two things are stated once: that it does neither, and which
parts of a peer it writes, as the predicates on peers it keeps.
-/

namespace Ctunnel

open Lib

/-- `I` says nothing of the streams of a peer. -/
structure StreamFree (I : ServerPeer → Prop) : Prop where
  pending : ∀ p l, I p → I { p with pending := l }
  work : ∀ p l, I p → I { p with work := l }
  starting : ∀ p l, I p → I { p with starting := l }
  relays : ∀ p r, I p → I { p with relays := r }

variable {b : Build} {m : Monocypher} {cfg : CtConfig} {I : ServerPeer → Prop}

/-! ## The control channel -/

theorem onControl_keeps {α : Type} {x : Call Effect CtControl α}
    (hctl : ∀ p c, I p → I { p with ctl := c }) : Call.Keeps I (onControl x) :=
  .zoom fun p _ h => hctl p _ h

theorem onControl_undelivered {type : UInt8} {stream : UInt64} {payload : Bytes} {io : SendIo} :
    Call.Emits Effect.Undelivered (onControl (ctControlSend b m type stream payload io)) :=
  .zoom (ctControlSend_framing.mono fun _ h => h.undelivered)

theorem setReadRetry_keeps {ms : UInt64} (hctl : ∀ p c, I p → I { p with ctl := c }) :
    Call.Keeps I (setReadRetry ms) :=
  .modify fun p h => hctl p _ h

/-! ## Closing -/

theorem peerCloseEffects_local (p : ServerPeer) :
    ∀ e ∈ peerCloseEffects b p, e.Local := by
  have hset : ∀ set : List BoundSocket, ∀ e ∈ closeSet set, e.Local := by
    intro set e he
    obtain ⟨s, -, rfl⟩ := List.mem_map.mp he
    trivial
  have hrelay : ∀ r, ∀ e ∈ (ctRelayClose b r).effects, e.Local := by
    intro r e he
    have hquiet := ctRelayClose_quiet b r e he
    cases e <;> trivial
  intro e he
  simp only [peerCloseEffects, List.mem_append, List.mem_flatMap, List.mem_map,
    List.mem_singleton] at he
  rcases he with (((((((((rfl | ⟨s, -, he⟩) | ⟨s, -, he⟩) | ⟨w, -, rfl⟩) | ⟨w, -, rfl⟩) |
    ⟨c, -, rfl⟩) | ⟨c, -, rfl⟩) | ⟨s, -, he⟩) | ⟨k, -, he⟩) | he)
  · trivial
  · exact hset _ e he
  · exact hset _ e he
  · trivial
  · trivial
  · trivial
  · trivial
  · simp only [List.mem_cons, List.not_mem_nil, or_false] at he
    rcases he with rfl | rfl <;> trivial
  · split at he
    · exact absurd he (by simp)
    · exact hrelay _ e he
  · split at he
    · obtain ⟨i, -, he⟩ := List.mem_flatMap.mp he
      split at he
      · rw [List.mem_singleton.mp he]
        trivial
      · exact absurd he (by simp)
    · exact absurd he (by simp)

theorem peerClose_undelivered {io : SendIo} :
    Call.Emits Effect.Undelivered (peerClose b m io) := by
  refine .bind .get fun p => .ite (fun _ => ?_) fun _ => .pure
  refine .bind (.attempt onControl_undelivered) fun _ => .bind .get fun q => ?_
  exact .bind (.tell fun e he => (peerCloseEffects_local q e he).plain.undelivered) fun _ => .modify

theorem peerClose_keeps {io : SendIo} (hctl : ∀ p c, I p → I { p with ctl := c }) (hzero : I .zero) :
    Call.Keeps I (peerClose b m io) := by
  refine .bind .get fun p => .ite (fun _ => ?_) fun _ => .pure
  refine .bind (.attempt (onControl_keeps hctl)) fun _ => .bind .get fun q => ?_
  exact .bind .tell fun _ => .modify fun _ _ => hzero

/-! ## Registering -/

/-- It only opens or closes sockets. -/
def Call.OnSockets {σ α : Type} (x : Call Effect σ α) : Prop :=
  Call.Emits (fun e => e.onSocket = true) x

theorem bindFirst_sockets {σ : Type} {attempts : List BindAttempt} :
    Call.OnSockets (bindFirst attempts : Call Effect σ BoundSocket) := by
  induction attempts with
  | nil => exact .need
  | cons a rest ih =>
      unfold bindFirst
      cases a.fd with
      | none => exact ih
      | some fd =>
          refine .bind (.tell (by simp [Effect.onSocket])) fun _ => .ite (fun _ => .pure) fun _ => ?_
          exact .bind (.tell (by simp [Effect.onSocket])) fun _ => ih

theorem bindSetOpen_sockets {σ : Type} {addr : CString} {io : BindIo} :
    Call.OnSockets (bindSetOpen b bindFirst addr io : Call Effect σ (List BoundSocket)) := by
  refine .ite (fun _ => ?_) fun _ => .bind bindFirst_sockets fun _ => .pure
  refine .bind (.attempt (.ite (fun _ => bindFirst_sockets) fun _ => .need)) fun v4 => ?_
  refine .bind (.attempt (.ite (fun _ => bindFirst_sockets) fun _ => .need)) fun v6 => ?_
  exact .bind .check fun _ => .pure

theorem registerChecks_sockets {control : List BoundSocket} {peers : Nat → ServerPeer}
    {r : RegisterRequest} {io : BindIo} :
    Call.OnSockets (registerChecks b cfg control peers r io) := by
  unfold registerChecks
  cases requestRefusal b r with
  | some why => exact .pure
  | none =>
      refine .bind .need fun s => .bind .get fun p => ?_
      cases configRefusal b p s with
      | some why => exact .pure
      | none =>
          refine .bind .need fun a => ?_
          cases authRefusal cfg a p s with
          | some why => exact .pure
          | none =>
              refine .ite (fun _ => .bind (.attempt bindSetOpen_sockets) fun v => ?_) fun _ =>
                .bind (.attempt bindSetOpen_sockets) fun v => ?_
              · cases v with
                | none => exact .pure
                | some set =>
                    refine .ite (fun _ => .bind (.tell ?_) fun _ => .pure) fun _ => .pure
                    intro e he
                    obtain ⟨s, -, rfl⟩ := List.mem_map.mp he
                    rfl
              · cases v <;> exact .pure

theorem Effect.local_of_onSocket {e : Effect} (h : e.onSocket = true) : e.Local := by
  cases e <;> trivial

theorem registerChecks_local {control : List BoundSocket} {peers : Nat → ServerPeer}
    {r : RegisterRequest} {io : BindIo} :
    Call.Emits Effect.Local (registerChecks b cfg control peers r io) :=
  registerChecks_sockets.mono fun _ => Effect.local_of_onSocket

theorem registerService_undelivered {control : List BoundSocket} {peers : Nat → ServerPeer}
    {payload : Bytes} {io : RegisterIo} :
    Call.Emits Effect.Undelivered (registerService b m cfg control peers payload io) := by
  refine .bind .need fun r => .bind (registerChecks_local.mono fun _ h => h.plain.undelivered) ?_
  intro result
  cases result with
  | ok service => exact .bind .modify fun _ => onControl_undelivered
  | error why => exact onControl_undelivered

/-! ## Streams -/

section Routine

variable {σ : Type}

theorem ctPlainSend_routine {fd : Socket} {type : UInt8} {session stream : UInt64} {q : Bytes}
    {io : SendIo} :
    Call.Emits Effect.Routine (ctPlainSend b fd type session stream q io : Call Effect σ Unit) := by
  have hwrite : ∀ (q : Bytes) (taken : Nat),
      Call.Emits Effect.Routine (sendall fd q taken : Call Effect σ Unit) :=
    fun _ _ => .bind (.tell (by simp [Effect.Routine])) fun _ => .check
  exact .bind .check fun _ => .bind .need fun _ => .bind (hwrite _ _) fun _ => hwrite _ _

end Routine

theorem startRelayBegin_routine {pending : PendingConn} {work : CtWork} {timeout : UInt64}
    {io : StartIo} :
    Call.Emits Effect.Routine (startRelayBegin b m pending work timeout io) := by
  refine .bind .get fun q => .bind .check fun _ => .bind .modify fun _ => ?_
  refine .bind ?_ fun _ => .modify
  refine .bind .need fun rnd => .bind .need fun w => .bind .need fun mac => ?_
  exact .bind (.tell (by simp [Effect.Routine])) fun _ => .bind ctPlainSend_routine fun _ => .pure

theorem matchOne_routine {pc : PendingConn} {w : CtWork} {io : StartIo} :
    Call.Emits Effect.Routine (matchOne b m cfg pc w io) := by
  refine .bind .modify fun _ => .bind (.tell (by simp [Effect.Routine])) fun _ => ?_
  refine .bind (.attempt startRelayBegin_routine) fun started => ?_
  cases started with
  | some _ => exact .pure
  | none => exact .tell (by simp [Effect.Routine])

theorem matchPending_routine {io : Nat → StartIo} :
    Call.Emits Effect.Routine (matchPending b m cfg io) := by
  have hloop : ∀ fuel, Call.Emits Effect.Routine (matchLoop b m cfg io fuel) := by
    intro fuel
    induction fuel with
    | zero => exact .pure
    | succ fuel ih =>
        unfold matchLoop
        refine .bind .get fun q => ?_
        cases q.pending.head? with
        | none => exact .pure
        | some pc =>
            cases q.work.getLast? with
            | none => exact .pure
            | some w =>
                exact .ite (fun _ => .bind matchOne_routine fun _ => ih) fun _ => .pure
  exact .bind .get fun q => hloop _

theorem startRelayBegin_keeps {pending : PendingConn} {work : CtWork} {timeout : UInt64}
    {io : StartIo} (hstarting : ∀ p l, I p → I { p with starting := l })
    (hnext : ∀ p n, I p → I { p with nextStream := n }) :
    Call.Keeps I (startRelayBegin b m pending work timeout io) := by
  refine .bind .get fun q => .bind .check fun _ => .bind (.modify fun p h => hnext p _ h) fun _ => ?_
  refine .bind ?_ fun _ => .modify fun p h => hstarting p _ h
  refine .bind .need fun rnd => .bind .need fun w => .bind .need fun mac => ?_
  exact .bind .tell fun _ => .bind ctPlainSend_keeps fun _ => .pure

theorem matchOne_keeps {pc : PendingConn} {w : CtWork} {io : StartIo} (hI : StreamFree I)
    (hnext : ∀ p n, I p → I { p with nextStream := n }) :
    Call.Keeps I (matchOne b m cfg pc w io) := by
  refine .bind (.modify fun p h => ?_) fun _ => .bind .tell fun _ => ?_
  · exact hI.work { p with pending := p.pending.tail } p.work.dropLast (hI.pending p _ h)
  · refine .bind (.attempt (startRelayBegin_keeps hI.starting hnext)) fun started => ?_
    cases started with
    | some _ => exact .pure
    | none => exact .tell

theorem matchPending_keeps {io : Nat → StartIo} (hI : StreamFree I)
    (hnext : ∀ p n, I p → I { p with nextStream := n }) :
    Call.Keeps I (matchPending b m cfg io) := by
  have hloop : ∀ fuel, Call.Keeps I (matchLoop b m cfg io fuel) := by
    intro fuel
    induction fuel with
    | zero => exact .pure
    | succ fuel ih =>
        unfold matchLoop
        refine .bind .get fun q => ?_
        cases q.pending.head? with
        | none => exact .pure
        | some pc =>
            cases q.work.getLast? with
            | none => exact .pure
            | some w => exact .ite (fun _ => .bind (matchOne_keeps hI hnext) fun _ => ih) fun _ => .pure
  exact .bind .get fun q => hloop _

theorem removeStarting_routine {index : Nat} {closing : Bool} :
    Call.Emits Effect.Routine (removeStarting index closing) := by
  refine .bind .get fun q => ?_
  cases q.starting[index]? with
  | none => exact .pure
  | some s =>
      cases closing with
      | true =>
          have hcloses : ∀ e ∈ [Effect.socketClose s.pending.fd, .socketClose s.work.fd], e.Routine := by
            simp [Effect.Routine]
          exact .bind (.tell hcloses) fun _ => .modify
      | false => exact .modify

theorem removeStarting_keeps {index : Nat} {closing : Bool}
    (hstarting : ∀ p l, I p → I { p with starting := l }) :
    Call.Keeps I (removeStarting index closing) := by
  refine .bind .get fun q => ?_
  cases q.starting[index]? with
  | none => exact .pure
  | some s =>
      cases closing with
      | true => exact .bind .tell fun _ => .modify fun p h => hstarting p _ h
      | false => exact .modify fun p h => hstarting p _ h

theorem startingEvent_plain {fd : Socket} {io : StartingIo} :
    Call.Emits Effect.Plain (startingEvent b m fd io) := by
  have hremove : ∀ {index closing}, Call.Emits Effect.Plain (removeStarting index closing) :=
    removeStarting_routine.mono fun _ h => h.plain
  refine .bind .get fun q => ?_
  cases q.starting.findIdx? fun s => s.work.fd == fd with
  | none => exact .pure
  | some index =>
      dsimp only
      cases ctPlainFrameAvailable b b.controlBufferSize io.queued with
      | failed => exact hremove
      | later => exact .modify
      | frame hd =>
          cases q.starting[index]? with
          | none => exact hremove
          | some s =>
              refine .bind (.attempt ?_) fun _ => hremove
              refine .bind .get fun q => .bind .need fun k => .bind ?_ fun ok => .bind .check fun _ => ?_
              · refine .bind .need fun _ => .bind .check fun _ => .bind .need fun _ => ?_
                refine .bind .check fun _ => .bind .need fun _ => ?_
                refine .bind (.tell (by simp [Effect.Plain])) fun _ => .bind .check fun _ => ?_
                exact .bind (.tell (by simp [Effect.Plain])) fun _ => .pure
              · exact .zoom fun r e he => (relayInit_relaying _ _ _ r e he).plain

theorem startingEvent_keeps {fd : Socket} {io : StartingIo}
    (hstarting : ∀ p l, I p → I { p with starting := l })
    (hrelays : ∀ p r, I p → I { p with relays := r }) :
    Call.Keeps I (startingEvent b m fd io) := by
  refine .bind .get fun q => ?_
  cases q.starting.findIdx? fun s => s.work.fd == fd with
  | none => exact .pure
  | some index =>
      dsimp only
      cases ctPlainFrameAvailable b b.controlBufferSize io.queued with
      | failed => exact removeStarting_keeps hstarting
      | later => exact .modify fun p h => hstarting p _ h
      | frame hd =>
          cases q.starting[index]? with
          | none => exact removeStarting_keeps hstarting
          | some s =>
              refine .bind (.attempt ?_) fun _ => removeStarting_keeps hstarting
              refine .bind .get fun q => .bind .need fun k => .bind ?_ fun ok => .bind .check fun _ => ?_
              · refine .bind .need fun _ => .bind .check fun _ => .bind .need fun _ => ?_
                refine .bind .check fun _ => .bind .need fun _ => .bind .tell fun _ => ?_
                exact .bind .check fun _ => .bind .tell fun _ => .pure
              · exact .zoom fun p _ h => hrelays p _ h

theorem relayEvent_plain {k : Nat} {side : Side} {ev : EvMask} {io : RelayIo} :
    Call.Emits Effect.Plain (onRelay k (Call.ofOutcome fun r =>
      ctRelayProcess b m (match side with | .direct => r.direct | .work => r.work) ev io r)) :=
  .zoom (.ofOutcome fun r e he => (ctRelayProcess_relaying _ ev io r e he).plain)

theorem relayEvent_keeps {k : Nat} {side : Side} {ev : EvMask} {io : RelayIo} (hI : StreamFree I) :
    Call.Keeps I (onRelay k (Call.ofOutcome fun r =>
      ctRelayProcess b m (match side with | .direct => r.direct | .work => r.work) ev io r)) :=
  .zoom fun p _ h => hI.relays p _ h

/-! ## Incoming connections -/

theorem acceptEvent_local {io : AcceptIo} : Call.Emits Effect.Local (acceptEvent b cfg io) := by
  unfold acceptEvent
  cases io.accepted with
  | none => exact .pure
  | some x =>
      obtain ⟨fd, remote⟩ := x
      refine .bind (.tell (by simp [Effect.Local])) fun _ => .bind .get fun _ => ?_
      exact .ite (fun _ => .tell (by simp [Effect.Local])) fun _ => .modify

theorem acceptEvent_peers {io : AcceptIo} (st : ServerState) :
    (acceptEvent b cfg io st).state.peers = st.peers := by
  have hkeep : Call.Keeps (fun st' => st'.peers = st.peers) (acceptEvent b cfg io) := by
    unfold acceptEvent
    cases io.accepted with
    | none => exact .pure
    | some x =>
        obtain ⟨fd, remote⟩ := x
        exact .bind .tell fun _ => .bind .get fun _ =>
          .ite (fun _ => .tell) fun _ => .modify fun _ h => h
  exact hkeep st rfl

theorem removeIncoming_routine {index : Nat} {closing : Bool} :
    Call.Emits Effect.Routine (removeIncoming index closing) := by
  refine .bind .get fun st => ?_
  cases st.incoming.conns[index]? with
  | none => exact .pure
  | some c =>
      cases closing with
      | true => exact .bind (.tell (by simp [Effect.Routine])) fun _ => .modify
      | false => exact .modify

theorem authFailed_routine {index slot : Nat} {now : UInt64} :
    Call.Emits Effect.Routine (authFailed index slot now) :=
  .bind (.tell (by simp [Effect.Routine])) fun _ => .bind .modify fun _ => removeIncoming_routine

theorem ctHandshakeServerBegin_routine {fd : Socket} {io : ServerBeginIo} :
    Call.Emits Effect.Routine (ctHandshakeServerBegin b m fd cfg io) := by
  refine .rollback (.bind .modify fun _ => .bind .need fun _ => .bind .check fun _ => ?_)
  refine .bind .need fun _ => .bind .check fun _ => .bind .need fun _ => .bind .need fun _ => ?_
  refine .bind .need fun _ => .bind .check fun _ => .bind .need fun _ => .bind .need fun _ => ?_
  refine .bind .need fun _ => .bind (.tell (by simp [Effect.Routine])) fun _ => ?_
  exact .bind (.tell (by simp [Effect.Routine])) fun _ => .bind ctPlainSend_routine fun _ => .modify

theorem incomingHello_routine {index : Nat} {c : IncomingConn} {hd : CtFrameHeader}
    {io : IncomingIo} : Call.Emits Effect.Routine (incomingHello b m cfg index c hd io) := by
  refine .bind .get fun st => .bind .modify fun _ => .ite (fun _ => ?_) fun _ => ?_
  · exact .bind (.tell (by simp [Effect.Routine])) fun _ => removeIncoming_routine
  · refine .bind (.attempt (.bind .check fun _ => .zoom ctHandshakeServerBegin_routine)) fun begun => ?_
    cases begun with
    | none => exact authFailed_routine
    | some _ => exact .modify

theorem incomingBind_routine {index : Nat} {c : IncomingConn} {hd : CtFrameHeader}
    {io : IncomingIo} : Call.Emits Effect.Routine (incomingBind b m cfg index c hd io) := by
  refine .bind .get fun st => ?_
  cases findSession b st.peers hd.sessionId with
  | none => exact removeIncoming_routine
  | some i =>
      have haccept : Call.Emits Effect.Routine
          (ctWorkAcceptBind b m c.fd (io.queued.inbox io.more)) := by
        refine .bind .get fun _ => .bind .need fun _ => .bind .check fun _ => ?_
        refine .bind (.tell (by simp [Effect.Routine])) fun _ => .bind .check fun _ => ?_
        refine .bind .need fun _ => .bind .modify fun _ => ?_
        exact .bind (.tell (by simp [Effect.Routine])) fun _ => .pure
      refine .bind (.attempt (.bind .check fun _ => .zoom ?_)) fun bound => ?_
      · exact .bind (.zoom haccept) fun _ => .bind .modify fun _ => .tell (by simp [Effect.Routine])
      · cases bound with
        | none =>
            refine .ite (fun _ => ?_) fun _ => removeIncoming_routine
            exact .bind (.tell (by simp [Effect.Routine])) fun _ => removeIncoming_routine
        | some _ => exact .bind removeIncoming_routine fun _ => .zoom matchPending_routine

end Ctunnel
