import Ctunnel.Client.Moves
import Ctunnel.Net.StreamTrace

/-!
# The stream set-ups of the client

The client answers only a START_STREAM it has accepted, on the work connection it
came from, and its other calls leave the trace justified.
-/

namespace Ctunnel

open Lib

variable {b : Build} {m : Monocypher} {cfg : CtConfig} {tr : List Effect}

theorem unkeyed_kept {σ α : Type} {x : Call Effect σ α} (hx : Call.Emits Effect.Unkeyed x) :
    Call.Extends (AllStreamJustified m) x :=
  unbound_kept (hx.mono fun _ h => .of_not_keyed h)

/-! ## Opening a session -/

theorem registerReplies_unbound {id : CString} {replies : List (RecvIo × SendIo)} :
    Call.Emits Effect.Unbound (registerReplies b m id replies) := by
  induction replies with
  | nil => exact .need
  | cons x rest ih =>
      obtain ⟨recv, pong⟩ := x
      refine .bind ctControlRecv_unbound fun _ => .ite (fun _ => ?_) fun _ => ?_
      · exact .bind ctControlSend_unbound fun _ => ih
      · exact .ite (fun _ => ih) fun _ => .bind .check fun _ => .bind .need fun _ => .check

theorem clientRegister_unbound {io : Nat → ClientRegisterIo} {i : Nat}
    {services : List CtServiceConfig} :
    Call.Emits Effect.Unbound (clientRegister b m io i services) := by
  induction services generalizing i with
  | nil => exact .pure
  | cons x rest ih =>
      exact .bind .need fun _ => .bind ctControlSend_unbound fun _ =>
        .bind registerReplies_unbound fun _ => ih

theorem addWork_kept {io : WorkConnectIo} :
    Call.Extends (AllStreamJustified m) (addWork b m io) := by
  refine .bind (unbound_kept (.tell (by simp [Effect.Unbound]))) fun _ => .get fun s => ?_
  refine .bind (unbound_kept .check) fun _ => .bind (.onFail ?_ (.zoom ctWorkConnect_kept)) fun w => ?_
  · exact fun tr h => h.unbound (by simp [Effect.Unbound])
  · exact .bind (unbound_kept .modify) fun _ => unbound_kept (.tell (by simp [Effect.Unbound]))

theorem fillPool_kept {target : Nat} {io : Nat → WorkConnectIo} (fuel : Nat) :
    Call.Extends (AllStreamJustified m) (fillPool b m target io fuel) := by
  induction fuel with
  | zero => exact .pure
  | succ fuel ih =>
      unfold fillPool
      refine .get fun s => .ite (fun _ => .bind (.attempt addWork_kept) fun added => ?_) fun _ => .pure
      cases added with
      | some _ => exact ih
      | none => exact .pure

theorem clientConnect_kept {io : ClientConnectIo} :
    Call.Extends (AllStreamJustified m) (clientConnect b m cfg io) := by
  refine .bind (unbound_kept .need) fun fd => ?_
  refine .bind (unbound_kept (.tell (by simp [Effect.Unbound]))) fun _ => .bind (.onFail ?_ ?_) fun _ => ?_
  · exact fun tr h => h.unbound (by simp [Effect.Unbound])
  · refine unbound_kept (.bind (.zoom ctHandshakeClient_unbound) fun _ => ?_)
    exact .bind (.zoom clientRegister_unbound) fun _ => .check
  · exact fillPool_kept _

/-! ## UDP -/

theorem clientUdpFromLocal_unbound {i : Nat} {io : UdpLocalIo} :
    Call.Emits Effect.Unbound (clientUdpFromLocal b m i io) := by
  refine .bind .get fun s => ?_
  split
  · exact .need
  · exact .pure
  · refine .ite (fun _ => .tell (by simp [Effect.Unbound])) fun _ => .bind .modify fun _ => ?_
    refine .bind (.onFail (by simp [Effect.Unbound]) ?_) fun _ => .tell (by simp [Effect.Unbound])
    exact .bind .need fun _ => .zoom ctControlSend_unbound

/-! ## Streams -/

theorem relayInit_kept (e : End) (c : CtControl) (x : RelayIn) :
    Call.Extends (AllStreamJustified m) (relayInit b m e c x) := by
  have hK : ∀ f ∈ relayDerives b e c x.context, f.Unbound := relayDerives_unbound _ _ _
  refine .of_ends fun r tr h => (relayInit_ends e c x r tr).mono ?_ ?_
  · rintro _ r' tr' ⟨hsince, -⟩
    exact hsince.added.justified hK h
  · rintro r' tr' ⟨-, hsince⟩
    exact hsince.added.justified hK h

/-- A START_STREAM is answered once it is accepted. -/
theorem clientStream_kept {w : CtWork} {io : ClientWorkIo} :
    Call.Extends (AllStreamJustified m) (clientStream b m cfg w io) := by
  refine .of_ends fun s tr h => .get ?_
  have hcloses : ∀ {tr es : List Effect}, AllStreamJustified m tr →
      (∀ e ∈ es, ∃ fd, e = .socketClose fd) → AllStreamJustified m (tr ++ es) := by
    intro tr es h hes
    refine h.unbound fun e he => ?_
    obtain ⟨fd, rfl⟩ := hes e he
    trivial
  refine .bind (.onFail ((ctStartStreamRecv_justified w s.ctl (io.queued.inbox io.more) io.stale s
    h).mono (fun _ _ _ => id) fun _ _ h' => hcloses h' (by simp))) ?_
  rintro ⟨x, md⟩ s' tr' ⟨hs, h', hwork, hrecv⟩
  have hoffered := offeredService_unkeyed cfg x md
  dsimp only
  generalize offeredService cfg x md = offered at hoffered ⊢
  obtain ⟨service, mismatch⟩ := offered
  refine .tell ?_
  replace h' := h'.unbound fun e he => .of_not_keyed (hoffered e he)
  replace hrecv := List.mem_append_left mismatch hrecv
  cases service.bind fun _ => io.connected with
  | none =>
      refine .bind (Q := fun _ _ => AllStreamJustified m) (.attempt
        ((ctStreamReadySend_justified w s.ctl x md false io.ready s' h' hwork hrecv).mono
          (fun _ _ _ hsent => hsent.2) fun _ _ => id)) fun _ s'' tr'' h'' => ?_
      exact .of_bind_pure (.tell (.ret (hcloses h'' (by simp))))
  | some localFd =>
      have hopen : AllStreamJustified m (_ ++ [.socketOpen localFd]) :=
        h'.unbound (by simp [Effect.Unbound])
      refine .tell (.bind (Q := fun _ _ => AllStreamJustified m) (.attempt (.onFail ?_))
        fun _ _ _ hend => .ret hend)
      -- the session has not moved since the frame was received
      have hclosed : ∀ {tr}, AllStreamJustified m tr →
          AllStreamJustified m (tr ++ [.socketClose localFd, .socketClose w.fd]) :=
        fun h => hcloses h (by simp)
      refine .get (.need (fun k _ => ?_) fun _ => hclosed hopen)
      refine .bind ((ctStreamReadySend_justified w s'.ctl x md true io.ready s' hopen hwork ?_).mono
        (fun _ _ _ => id) fun _ _ => hclosed) ?_
      · rw [hs]
        exact List.mem_append_left _ hrecv
      · rintro _ s'' tr'' ⟨-, hsent⟩
        exact .zoom (((relayInit_kept _ _ _).ends hsent).mono (fun _ _ _ => id) fun _ _ => hclosed)

theorem clientWorkEvent_kept {fd : Socket} {io : ClientWorkIo} :
    Call.Extends (AllStreamJustified m) (clientWorkEvent b m cfg fd io) := by
  refine .get fun s => ?_
  have hdrop : ∀ {es : List Effect}, (∀ e ∈ es, e.Unbound) →
      Call.Extends (AllStreamJustified m) (Call.tell es : Call Effect ClientSession Unit) :=
    fun hes => unbound_kept (.tell hes)
  split
  · exact .pure
  · split
    · refine .bind (unbound_kept .modify) fun _ => .bind (hdrop (by simp [Effect.Unbound])) fun _ => ?_
      refine .bind (.attempt clientStream_kept) fun received => ?_
      cases received with
      | some _ => exact fillPool_kept _
      | none => exact .pure
    · exact unbound_kept .modify
    · exact .bind (unbound_kept .modify) fun _ => hdrop (by simp [Effect.Unbound])

/-! ## Events -/

theorem clientControlEvent_kept {io : ClientControlIo} :
    Call.Extends (AllStreamJustified m) (clientControlEvent b m cfg io) := by
  unfold clientControlEvent
  split
  · exact unbound_kept .need
  · exact unbound_kept .modify
  · refine .bind (unbound_kept .modify) fun _ => .bind (unbound_kept (.zoom ctControlRecv_unbound)) ?_
    intro v
    refine .ite (fun _ => unbound_kept (.zoom ctControlSend_unbound)) fun _ => ?_
    refine .ite (fun _ => .pure) fun _ => .ite (fun _ => ?_) fun _ => ?_
    · exact .bind (.attempt addWork_kept) fun _ => .pure
    · exact .ite (fun _ => unkeyed_kept (.zoom clientUdpFromServer_unkeyed)) fun _ => unbound_kept .need

theorem clientTick_kept {io : ClientTickIo} :
    Call.Extends (AllStreamJustified m) (clientTick b m cfg io) := by
  refine .ite (fun _ => .bind (unkeyed_kept (.zoom clientUdpExpire_unkeyed)) fun _ => ?_) fun _ => ?_
  all_goals
    refine unbound_kept (.bind .get fun s => .bind .check fun _ => .ite (fun _ => ?_) fun _ => .pure)
    exact .zoom ctControlSend_unbound

/-- An event on a relay, on the socket that `fd` picks. -/
theorem clientRelay_kept (k : Nat) (fd : CtRelay → Socket) (ev : EvMask) (io : RelayIo) :
    Call.Extends (AllStreamJustified m)
      (onClientRelay k (Call.ofOutcome fun r => ctRelayProcess b m (fd r) ev io r)) := by
  refine .zoom fun r tr h => ?_
  obtain ⟨L, hadded, hmove⟩ := ctRelayProcess_move (b := b) (m := m) (fd r) ev io r tr
  exact hadded.justified hmove.unbound h

theorem sessionEvent_kept (ev : ClientEvent) :
    Call.Extends (AllStreamJustified m) (sessionEvent b m cfg ev) := by
  cases ev with
  | connect io => exact .pure
  | control io => exact clientControlEvent_kept
  | work fd io => exact clientWorkEvent_kept
  | udpLocal i io => exact unbound_kept clientUdpFromLocal_unbound
  | relay k side ev io => exact .bind (.attempt (clientRelay_kept k _ ev io)) fun _ => .pure
  | tick io => exact clientTick_kept
  | stop goaway => exact unbound_kept .need

theorem sayGoaway_unbound (io : Option SendIo) : Call.Emits Effect.Unbound (sayGoaway b m io) := by
  cases io with
  | none => exact .pure
  | some io => exact .bind (.attempt (.zoom ctControlSend_unbound)) fun _ => .pure

theorem sessionCall_kept (ev : ClientEvent) :
    Call.Extends (AllStreamJustified m) (sessionCall b m cfg ev) := by
  refine .bind (.attempt (sessionEvent_kept ev)) fun handled => ?_
  cases handled with
  | some _ => exact .pure
  | none => exact unbound_kept (.bind (sayGoaway_unbound _) fun _ => .need)

/-- What one event of the client keeps. -/
theorem clientStep_streams (ev : ClientEvent) (s : Option ClientSession)
    (h : AllStreamJustified m tr) :
    AllStreamJustified m (tr ++ (clientStep b m cfg ev s).effects) := by
  cases s with
  | none =>
      cases ev with
      | connect io => exact clientConnect_kept .blank tr h
      | _ => exact (List.append_nil tr).symm ▸ h
  | some s =>
      have hcall := @sessionCall_kept b m cfg ev s tr h
      unfold clientStep
      dsimp only
      split
      · exact hcall
      · rw [Outcome.fail_effects, ← List.append_assoc]
        exact hcall.unbound fun e he => .of_not_keyed (clientDoneEffects_unkeyed _ e he)

end Ctunnel
