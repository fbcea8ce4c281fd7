import Ctunnel.Client.Session
import Ctunnel.Net.Inert
import Ctunnel.Theorems.HandshakeAgreement
import Ctunnel.Theorems.Registration

/-!
# Requests for work connections

The server asks for a work connection once per external connection that finds no
idle one. Without a pool the client opens work connections for these requests
only. Its main loop answers every REQUEST_WORK_CONNECTION with one `add_work`;
`client_register` passes over the requests that arrive before a REGISTER_OK.

* `requests_answered` — in every run in which no request arrives before the main
  loop, each accepted request is followed by its own attempt.
-/

namespace Ctunnel

open Lib

/-! ## Requests and attempts in a trace -/

inductive WorkStep
  | request
  | attempt
  deriving DecidableEq, Repr

def Effect.workStep : Effect → Option WorkStep
  | .controlRecv type _ _ =>
      if type = CtMsgType.requestWorkConnection.toByte then some .request else none
  | .addWork => some .attempt
  | _ => none

/-- The accepted requests and the calls of `add_work`, in order. -/
def workSteps (tr : List Effect) : List WorkStep := tr.filterMap Effect.workStep

/-- Every request is followed by its attempt, and there is no other one. -/
inductive Answered : List WorkStep → Prop
  | none : Answered []
  | next {steps : List WorkStep} : Answered steps → Answered (.request :: .attempt :: steps)

theorem workSteps_append (es es' : List Effect) :
    workSteps (es ++ es') = workSteps es ++ workSteps es' := List.filterMap_append ..

theorem Answered.append {steps steps' : List WorkStep} (h : Answered steps)
    (h' : Answered steps') : Answered (steps ++ steps') := by
  induction h with
  | none => exact h'
  | next _ ih => exact .next ih

/-- Neither a request nor an attempt. -/
def Effect.Aside (e : Effect) : Prop := e.workStep = none

theorem workSteps_aside {es : List Effect} (h : ∀ e ∈ es, e.Aside) : workSteps es = [] :=
  List.filterMap_eq_nil_iff.mpr h

theorem Effect.Inert.aside {e : Effect} (h : e.Inert) : e.Aside := by
  cases e <;> first | rfl | exact absurd h id

theorem Effect.Relaying.aside {e : Effect} (h : e.Relaying) : e.Aside := by
  rcases h with h | ⟨fd, rfl⟩
  · exact h.inert.aside
  · rfl

/-! ## Calls without a request or an attempt -/

section Aside

variable {b : Build} {m : Monocypher} {cfg : CtConfig}

/-- The frame at the front of the bytes is no REQUEST_WORK_CONNECTION. -/
def NoRequest (b : Build) (inbox : Bytes) : Prop :=
  ∀ h, ctFrameHeaderDecode b (sliceOctets inbox 0 36) = some h →
    h.type ≠ CtMsgType.requestWorkConnection.toByte

/-- A received frame is a request or nothing of interest. -/
theorem ctControlRecv_steps {cap : Nat} {io : RecvIo} (c : CtControl) (tr : List Effect) :
    (ctControlRecv b m cap io c).Ends tr
      (fun v _ tr' => workSteps tr' = workSteps tr ++
          (if v.1.type = CtMsgType.requestWorkConnection.toByte then [.request] else []) ∧
        ctFrameHeaderDecode b (sliceOctets io.inbox 0 36) = some v.1)
      (fun _ tr' => workSteps tr' = workSteps tr) := by
  refine .get (.need ?_ (fun _ => rfl))
  rintro ⟨start, rest⟩ hrecv
  have hstart : sliceOctets start 0 36 = sliceOctets io.inbox 0 36 := by
    simp only [recvall] at hrecv
    split at hrecv
    · exact absurd hrecv (by simp)
    · rename_i hlen
      obtain ⟨rfl, -⟩ := Prod.mk.inj (Option.some.inj hrecv)
      simp only [ctFrameHeaderSize, not_lt] at hlen
      apply List.Vector.eq
      rw [sliceOctets_toList (by simpa [ctFrameHeaderSize] using hlen),
        sliceOctets_toList (by omega)]
      simp [slice, ctFrameHeaderSize]
  refine .need ?_ (fun _ => rfl)
  intro h hh
  refine .check (fun _ => .check (fun _ => .need ?_ (fun _ => rfl)) (fun _ => rfl)) (fun _ => rfl)
  rintro ⟨box, rest'⟩ -
  refine .tell (.need (fun p _ => ?_) ?_)
  · refine .modify (.tell (.ret ⟨?_, ?_⟩))
    · by_cases htype : h.type = CtMsgType.requestWorkConnection.toByte
      · rw [if_pos htype, htype, List.append_assoc, workSteps_append]
        rfl
      · simp [workSteps, Effect.workStep, htype]
    · rw [← hstart]
      exact hh
  · intro _
    simp [workSteps, Effect.workStep]

theorem ctControlRecv_aside {cap : Nat} {io : RecvIo} (h : NoRequest b io.inbox) :
    Call.Emits Effect.Aside (ctControlRecv b m cap io) := by
  intro c e he
  have hend := @ctControlRecv_steps b m cap io c []
  have hnil : workSteps (ctControlRecv b m cap io c).effects = [] := by
    cases hv : (ctControlRecv b m cap io c).value with
    | none => exact hend.of_none hv
    | some v =>
        obtain ⟨hsteps, hdecode⟩ := hend.of_some hv
        rw [List.nil_append] at hsteps
        rw [hsteps, if_neg (h _ hdecode)]
        rfl
  exact List.filterMap_eq_nil_iff.mp hnil e he

theorem inert_aside {σ α : Type} {x : Call Effect σ α} (h : Call.Emits Effect.Inert x) :
    Call.Emits Effect.Aside x := fun s e he => (h s e he).aside

theorem ctHandshakeClient_aside {fd : Socket} {io : ClientHandshakeIo}
    (h : NoRequest b io.authOk.inbox) :
    Call.Emits Effect.Aside (ctHandshakeClient b m fd cfg io) := by
  refine .rollback (.bind ?_ fun k => ?_)
  · refine .bind .modify fun _ => .bind .need fun _ => .bind .need fun _ => .bind .need fun _ => ?_
    refine .bind .need fun _ => .bind .need fun _ => .bind (inert_aside ctPlainSend_inert) fun _ => ?_
    refine .bind .need fun _ => .bind .check fun _ => .bind .check fun _ => .bind .need fun _ => ?_
    exact .bind (.tell (by simp [Effect.Aside, Effect.workStep])) fun _ => .pure
  · refine .bind (.tell (by simp [Effect.Aside, Effect.workStep])) fun _ => .bind .check fun _ => ?_
    refine .bind (.tell (by simp [Effect.Aside, Effect.workStep])) fun _ => ?_
    refine .bind (inert_aside ctPlainSend_inert) fun _ => .bind .need fun _ => .bind .modify fun _ => ?_
    refine .bind .check fun _ => .bind .need fun _ => ?_
    refine .bind (.tell (by simp [Effect.Aside, Effect.workStep])) fun _ => .bind .modify fun _ => ?_
    refine .bind (ctControlRecv_aside h) fun _ => .bind .check fun _ => ?_
    exact .bind (.tell (by simp [Effect.Aside, Effect.workStep])) fun _ => .modify

theorem registerReplies_aside {id : CString} {replies : List (RecvIo × SendIo)}
    (h : ∀ reply ∈ replies, NoRequest b reply.1.inbox) :
    Call.Emits Effect.Aside (registerReplies b m id replies) := by
  induction replies with
  | nil => exact .need
  | cons reply replies ih =>
      have hrest := ih fun r hr => h r (List.mem_cons_of_mem _ hr)
      refine .bind (ctControlRecv_aside (h reply (List.mem_cons_self ..))) fun v => ?_
      refine .ite (fun _ => .bind (inert_aside ctControlSend_inert) fun _ => hrest) fun _ => ?_
      refine .ite (fun _ => hrest) fun _ => ?_
      exact .bind .check fun _ => .bind .need fun _ => .check

theorem clientRegister_aside {io : Nat → ClientRegisterIo} {i : Nat}
    {services : List CtServiceConfig}
    (h : ∀ i, ∀ reply ∈ (io i).replies, NoRequest b reply.1.inbox) :
    Call.Emits Effect.Aside (clientRegister b m io i services) := by
  induction services generalizing i with
  | nil => exact .pure
  | cons s services ih =>
      refine .bind .need fun _ => .bind (inert_aside ctControlSend_inert) fun _ => ?_
      exact .bind (registerReplies_aside (h i)) fun _ => ih

theorem ctWorkConnect_aside {io : WorkConnectIo} :
    Call.Emits Effect.Aside (ctWorkConnect b m io) := by
  refine .bind .need fun _ => .bind (.tell (by simp [Effect.Aside, Effect.workStep])) fun _ => ?_
  refine .onFail (by simp [Effect.Aside, Effect.workStep]) ?_
  refine .bind .get fun _ => .bind .check fun _ => .bind .modify fun _ => .bind .need fun _ => ?_
  refine .bind (.tell (by simp [Effect.Aside, Effect.workStep])) fun _ => ?_
  exact .bind (inert_aside ctPlainSend_inert) fun _ => .pure

theorem clientUdpCreate_aside {d : UdpFrame} {now : UInt64} {io : UdpCreateIo} :
    Call.Emits Effect.Aside (clientUdpCreate b cfg d now io) := by
  refine .bind .need fun _ => .bind .get fun _ => ?_
  refine .bind (.onFail (by simp [Effect.Aside, Effect.workStep]) .check) fun _ => ?_
  refine .bind .need fun _ => .bind .need fun _ => ?_
  refine .bind (.tell (by simp [Effect.Aside, Effect.workStep])) fun _ => ?_
  refine .bind (.onFail (by simp [Effect.Aside, Effect.workStep]) .need) fun _ => ?_
  refine .bind .modify fun _ => .bind (.tell (by simp [Effect.Aside, Effect.workStep])) fun _ => ?_
  exact .pure

theorem clientUdpFromServer_aside {payload : Bytes} {now : UInt64} {io : UdpFromServerIo} :
    Call.Emits Effect.Aside (clientUdpFromServer b cfg payload now io) := by
  refine .bind (.onFail (by simp [Effect.Aside, Effect.workStep]) .need) fun d => ?_
  refine .bind .get fun t => .bind (.attempt ?_) fun found => .bind .get fun t => ?_
  · split
    · exact .pure
    · exact clientUdpCreate_aside
  · split
    · exact .tell (by simp [Effect.Aside, Effect.workStep])
    · refine .bind .get fun _ => .ite (fun _ => .tell (by simp [Effect.Aside, Effect.workStep])) ?_
      intro _
      split
      · exact .tell (by simp [Effect.Aside, Effect.workStep])
      · refine .bind .modify fun _ => .bind ?_ fun _ => ?_
        · exact .onFail (by simp [Effect.Aside, Effect.workStep]) (inert_aside ctUdpSend_inert)
        · exact .tell (by simp [Effect.Aside, Effect.workStep])

theorem clientUdpExpire_aside {now : UInt64} :
    Call.Emits Effect.Aside (clientUdpExpire b now) := by
  refine .bind .get fun t => .bind .modify fun _ => .tell ?_
  intro e he
  obtain ⟨i, -, he⟩ := List.mem_flatMap.mp he
  split at he
  · simp only [clientUdpCloseEffects, if_true] at he
    split at he
    · simp only [List.mem_append, List.mem_cons, List.not_mem_nil, or_false] at he
      rcases he with (rfl | rfl) | rfl <;> rfl
    · exact absurd he (by simp)
  · exact absurd he (by simp)

theorem clientUdpFromLocal_aside {i : Nat} {io : UdpLocalIo} :
    Call.Emits Effect.Aside (clientUdpFromLocal b m i io) := by
  refine .bind .get fun s => ?_
  split
  · exact .need
  · exact .pure
  · refine .ite (fun _ => .tell (by simp [Effect.Aside, Effect.workStep])) fun _ => ?_
    refine .bind .modify fun _ => .bind (.onFail (by simp [Effect.Aside, Effect.workStep]) ?_) ?_
    · exact .bind .need fun _ => .zoom (inert_aside ctControlSend_inert)
    · exact fun _ => .tell (by simp [Effect.Aside, Effect.workStep])

theorem offeredService_aside (cfg : CtConfig) (x : StreamContext) (md : CtStreamMetadata) :
    ∀ e ∈ (offeredService cfg x md).2, e.Aside := by
  intro e he
  unfold offeredService at he
  split at he
  · exact absurd he (by simp)
  · split at he
    · exact absurd he (by simp)
    · rw [List.mem_singleton.mp he]
      rfl

theorem clientStream_aside {w : CtWork} {io : ClientWorkIo} :
    Call.Emits Effect.Aside (clientStream b m cfg w io) := by
  refine .bind .get fun s => .bind ?_ fun x => ?_
  · exact .onFail (by simp [Effect.Aside, Effect.workStep]) (inert_aside ctStartStreamRecv_inert)
  · obtain ⟨x, md⟩ := x
    have hoffered := offeredService_aside cfg x md
    dsimp only
    generalize offeredService cfg x md = offered at hoffered ⊢
    obtain ⟨service, mismatch⟩ := offered
    refine .bind (.tell hoffered) fun _ => ?_
    split
    · refine .bind (.attempt (inert_aside ctStreamReadySend_inert)) fun _ => ?_
      exact .tell (by simp [Effect.Aside, Effect.workStep])
    · refine .bind (.tell (by simp [Effect.Aside, Effect.workStep])) fun _ => ?_
      refine .bind (.attempt (.onFail (by simp [Effect.Aside, Effect.workStep]) ?_)) fun _ => .pure
      refine .bind .get fun _ => .bind .need fun _ => .bind (inert_aside ctStreamReadySend_inert) ?_
      intro _
      exact .zoom fun r e he => (relayInit_relaying _ _ _ r e he).aside

end Aside

/-! ## Events -/

section Events

variable {b : Build} {m : Monocypher} {cfg : CtConfig}

/-- Nothing happens between a request and its attempt, nor without one. -/
def Paired (es : List Effect) : Prop :=
  workSteps es = [] ∨ workSteps es = [.request, .attempt]

theorem Paired.answered {es : List Effect} (h : Paired es) : Answered (workSteps es) := by
  rcases h with h | h
  · rw [h]
    exact .none
  · rw [h]
    exact .next .none

theorem Paired.aside {es es' : List Effect} (h : Paired es) (h' : ∀ e ∈ es', e.Aside) :
    Paired (es ++ es') := by
  unfold Paired
  rw [workSteps_append, workSteps_aside h', List.append_nil]
  exact h

theorem paired_of_aside {σ α : Type} {x : Call Effect σ α} (h : Call.Emits Effect.Aside x) (s : σ) :
    Paired (x s).effects := .inl (workSteps_aside (h s))

theorem addWork_attempts {io : WorkConnectIo} (s : ClientSession) :
    workSteps (addWork b m io s).effects = [.attempt] := by
  have hrest : Call.Emits Effect.Aside (do
      let s ← Call.get
      Call.check (s.work.length < b.maxStreams)
      let w ← Call.onFail [.inc .workConnectFailuresTotal] (onClientControl (ctWorkConnect b m io))
      Call.modify fun s => { s with work := s.work ++ [⟨w, 0⟩] }
      Call.tell [.inc .workIdle] : Call Effect ClientSession Unit) := by
    refine .bind .get fun _ => .bind .check fun _ => .bind ?_ fun _ => ?_
    · exact .onFail (by simp [Effect.Aside, Effect.workStep]) (.zoom ctWorkConnect_aside)
    · exact .bind .modify fun _ => .tell (by simp [Effect.Aside, Effect.workStep])
  have heffects : (addWork b m io s).effects = [.addWork] ++ _ := rfl
  rw [heffects, workSteps_append, workSteps_aside (hrest s)]
  rfl

/-- Without a pool nothing is added to it. -/
theorem fillPool_nothing {target : Nat} {io : Nat → WorkConnectIo} {fuel : Nat}
    (h : target = 0) : Call.Emits Effect.Aside (fillPool b m target io fuel) := by
  subst h
  cases fuel with
  | zero => exact .pure
  | succ fuel => exact .bind .get fun s => .ite (fun hlt => absurd hlt (by omega)) fun _ => .pure

theorem aside_ends {σ α : Type} {x : Call Effect σ α} (h : Call.Emits Effect.Aside x) (s : σ)
    {tr : List Effect} {steps : List WorkStep} (htr : workSteps tr = steps) :
    (x s).Ends tr (fun _ _ tr' => workSteps tr' = steps) (fun _ tr' => workSteps tr' = steps) := by
  have hsame : workSteps (tr ++ (x s).effects) = steps := by
    rw [workSteps_append, workSteps_aside (h s), List.append_nil, htr]
  exact .mk (fun _ _ => hsame) (fun _ => hsame)

theorem clientControl_paired {io : ClientControlIo} (s : ClientSession) :
    Paired (clientControl b m cfg io s).effects := by
  have hrecv := @ctControlRecv_steps b m b.controlBufferSize
    ⟨io.queued.inbox io.more, io.alloc, io.now⟩ s.ctl []
  have hend : (clientControl b m cfg io s).Ends [] (fun _ _ tr => Paired tr)
      (fun _ tr => Paired tr) := by
    refine .bind (Q := fun (v : CtFrameHeader × Bytes) _ tr => workSteps tr =
      if v.1.type = CtMsgType.requestWorkConnection.toByte then [.request] else [])
      (.zoom (hrecv.mono (fun v c tr h => h.1) (fun c tr h => .inl h))) ?_
    rintro ⟨h, payload⟩ s' tr (htr : workSteps tr = ite (h.type = _) _ _)
    by_cases hwork : h.type = CtMsgType.requestWorkConnection.toByte
    · rw [if_pos hwork] at htr
      have hping : h.type ≠ CtMsgType.ping.toByte := by
        rw [hwork]
        decide
      have hpong : h.type ≠ CtMsgType.pong.toByte := by
        rw [hwork]
        decide
      show (ite _ _ _ : Call Effect ClientSession Unit) s' |>.Ends _ _ _
      rw [if_neg hping, if_neg hpong, if_pos hwork]
      refine .bind (Q := fun _ _ tr' => Paired tr') (.attempt ?_) fun _ _ _ h => .ret h
      have hsteps : Paired (tr ++ (addWork b m io.work s').effects) := by
        right
        rw [workSteps_append, htr, addWork_attempts]
        rfl
      exact .mk (fun _ _ => hsteps) (fun _ => hsteps)
    · rw [if_neg hwork] at htr
      have hrest : ∀ x : Call Effect ClientSession Unit, Call.Emits Effect.Aside x →
          (x s').Ends tr (fun _ _ tr => Paired tr) (fun _ tr => Paired tr) := fun x hx =>
        (aside_ends hx s' htr).mono (fun _ _ _ h => .inl h) (fun _ _ h => .inl h)
      refine hrest _ (.ite (fun _ => .zoom (inert_aside ctControlSend_inert)) fun _ => ?_)
      refine .ite (fun _ => .pure) fun _ => .ite (fun h => absurd h hwork) fun _ => ?_
      exact .ite (fun _ => .zoom clientUdpFromServer_aside) fun _ => .need
  cases hv : (clientControl b m cfg io s).value with
  | none => exact hend.of_none hv
  | some u => exact hend.of_some hv

theorem clientWorkEvent_aside {fd : Socket} {io : ClientWorkIo} (hpool : cfg.poolCount = 0) :
    Call.Emits Effect.Aside (clientWorkEvent b m cfg fd io) := by
  refine .bind .get fun s => ?_
  split
  · exact .pure
  · split
    · refine .bind .modify fun _ => ?_
      refine .bind (.tell (by simp [Effect.Aside, Effect.workStep])) fun _ => ?_
      refine .bind (.attempt clientStream_aside) fun received => ?_
      split
      · exact fillPool_nothing (by rw [hpool, Nat.zero_min])
      · exact .pure
    · exact .modify
    · exact .bind .modify fun _ => .tell (by simp [Effect.Aside, Effect.workStep])

theorem clientDoneEffects_aside (s : ClientSession) :
    ∀ e ∈ clientDoneEffects b s, e.Aside := by
  intro e he
  simp only [clientDoneEffects, List.mem_append, List.mem_map, List.mem_flatMap,
    List.mem_singleton] at he
  rcases he with (((⟨w, -, rfl⟩ | ⟨w, -, rfl⟩) | ⟨k, -, he⟩) | he) | rfl
  · rfl
  · rfl
  · split at he
    · exact absurd he (by simp)
    · exact (ctRelayClose_relaying _ e he).aside
  · split at he
    · obtain ⟨i, -, he⟩ := List.mem_flatMap.mp he
      simp only [clientUdpCloseEffects] at he
      split at he
      · simp only [Bool.false_eq_true, if_false, List.append_nil, List.mem_cons, List.not_mem_nil,
          or_false] at he
        rcases he with rfl | rfl <;> rfl
      · exact absurd he (by simp)
    · exact absurd he (by simp)
  · rfl

/-- Before the main loop no frame that arrives is a request. -/
def ClientConnectIo.NoRequests (b : Build) (io : ClientConnectIo) : Prop :=
  NoRequest b io.handshake.authOk.inbox ∧
    ∀ i, ∀ reply ∈ (io.register i).replies, NoRequest b reply.1.inbox

theorem clientConnect_aside {io : ClientConnectIo} (hpool : cfg.poolCount = 0)
    (h : io.NoRequests b) : Call.Emits Effect.Aside (clientConnect b m cfg io) := by
  refine .bind .need fun _ => ?_
  refine .bind (.tell (by simp [Effect.Aside, Effect.workStep])) fun _ => ?_
  refine .bind (.onFail (by simp [Effect.Aside, Effect.workStep]) ?_) fun _ => fillPool_nothing hpool
  refine .bind (.zoom (ctHandshakeClient_aside h.1)) fun _ => ?_
  exact .bind (.zoom (clientRegister_aside h.2)) fun _ => .check

/-- One event of an open session. -/
theorem sessionEvent_paired (hpool : cfg.poolCount = 0) (ev : ClientEvent) (s : ClientSession) :
    Paired (sessionEvent b m cfg ev s).effects := by
  cases ev with
  | connect io => exact .inl rfl
  | control io goaway =>
      show Paired (clientControlEvent b m cfg io s).effects
      unfold clientControlEvent
      cases ctFrameAvailable b (b.controlBufferSize + ctAeadTag) ctFlagEncrypted io.queued with
      | failed => exact .inl rfl
      | later => exact .inl rfl
      | frame h => exact clientControl_paired _
  | work fd io => exact paired_of_aside (clientWorkEvent_aside hpool) s
  | udpLocal i io => exact paired_of_aside clientUdpFromLocal_aside s
  | relay k side ev io =>
      refine paired_of_aside (.bind (.attempt (.zoom (.ofOutcome ?_))) fun _ => .pure) s
      exact fun r e he => (ctRelayProcess_relaying _ _ _ r e he).aside
  | tick io =>
      have hlast : Call.Emits Effect.Aside (do
          let s ← Call.get
          Call.check ((io.now - s.ctl.lastRxMs).toNat ≤ cfg.heartbeatTimeout * 1000)
          if (io.now - s.ctl.lastTxMs).toNat > cfg.heartbeatInterval * 1000 then
            onClientControl (ctControlSend b m CtMsgType.ping.toByte 0
              (ctPutU64 (s.ctl.txSeq + 1) ++ ctPutU64 io.now) io.ping) :
          Call Effect ClientSession Unit) := by
        refine .bind .get fun s => .bind .check fun _ => .ite (fun _ => ?_) fun _ => .pure
        exact .zoom (inert_aside ctControlSend_inert)
      have htick : Call.Emits Effect.Aside (clientTick b m cfg io) := by
        unfold clientTick
        cases b.udp with
        | true => exact .bind (.zoom clientUdpExpire_aside) fun _ => hlast
        | false => exact hlast
      exact paired_of_aside htick s
  | stop goaway => exact .inl rfl

theorem sayGoaway_aside (io : Option SendIo) : Call.Emits Effect.Aside (sayGoaway b m io) := by
  cases io with
  | none => exact .pure
  | some io => exact .bind (.attempt (.zoom (inert_aside ctControlSend_inert))) fun _ => .pure

/-- What follows a call whose result is looked at leaves its steps alone. -/
theorem Paired.attempt {σ α β : Type} {x : Call Effect σ α} {f : Option α → Call Effect σ β} {s : σ}
    (h : Paired (x s).effects) (hf : ∀ a, Call.Emits Effect.Aside (f a)) :
    Paired ((Call.attempt x >>= f) s).effects :=
  h.aside (hf (x s).value (x s).state)

theorem sessionCall_paired (hpool : cfg.poolCount = 0) (ev : ClientEvent) (s : ClientSession) :
    Paired (sessionCall b m cfg ev s).effects := by
  refine Paired.attempt (sessionEvent_paired hpool ev s) fun handled => ?_
  -- after the event there is GOAWAY at most
  cases handled with
  | some _ => exact .pure
  | none => exact .bind (sayGoaway_aside _) fun _ => .need

theorem clientStep_paired (hpool : cfg.poolCount = 0) {ev : ClientEvent}
    (hev : ∀ io, ev = .connect io → io.NoRequests b) (s : Option ClientSession) :
    Paired (clientStep b m cfg ev s).effects := by
  cases s with
  | none =>
      cases ev with
      | connect io => exact paired_of_aside (clientConnect_aside hpool (hev io rfl)) .blank
      | control io goaway => exact .inl rfl
      | work fd io => exact .inl rfl
      | udpLocal i io goaway => exact .inl rfl
      | relay k side ev io => exact .inl rfl
      | tick io goaway => exact .inl rfl
      | stop goaway => exact .inl rfl
  | some s =>
      have hcall := sessionCall_paired (b := b) (m := m) hpool ev s
      unfold clientStep
      cases hv : (sessionCall b m cfg ev s).value with
      | some u =>
          simp only [hv]
          exact hcall
      | none =>
          simp only [hv, Outcome.fail_effects]
          exact hcall.aside (clientDoneEffects_aside _)

/-! ## Runs -/

/-- Over every run of a client without a pool, sessions and reconnects included: if
no request arrives before a main loop, every accepted REQUEST_WORK_CONNECTION is
answered by one `add_work` of its own. -/
theorem requests_answered (hpool : cfg.poolCount = 0) (events : List ClientEvent)
    (hearly : ∀ io, ClientEvent.connect io ∈ events → io.NoRequests b) :
    Answered (workSteps (runs (clientStep b m cfg) none events).2) := by
  generalize (none : Option ClientSession) = s
  induction events generalizing s with
  | nil => exact .none
  | cons ev events ih =>
      have hconnect : ∀ io, ev = .connect io → io.NoRequests b := fun io h =>
        hearly io (h ▸ List.mem_cons_self ..)
      have hfirst := clientStep_paired (m := m) hpool hconnect s
      have hrest := ih (fun io h => hearly io (List.mem_cons_of_mem _ h))
        (clientStep b m cfg ev s).state
      show Answered (workSteps ((clientStep b m cfg ev s).effects ++ _))
      rw [workSteps_append]
      exact hfirst.answered.append hrest

end Events

/-! ## The client `edge` without a pool -/

def sshService : CtServiceConfig :=
  { CtServiceConfig.zero with
    id := CString.ofBytes (ascii "ssh")
    remoteAddr := loopback
    remotePort := 2222
    encryption := .disabled
    type := 1 }

/-- The second control frame of the server answers for `web`. -/
def webOk : BoxEntry := frameBox edgeKeys.sessionId edgeKeys.controlS2c edgeKeys.nonceS2c 11 0 2
  (registerReply defaultBuild webService.id) 0xbd23a95ffa 0x2ec7215c5e5687e33719f703f9079d05

/-- The third asks for a work connection. -/
def workRequest : BoxEntry := frameBox edgeKeys.sessionId edgeKeys.controlS2c edgeKeys.nonceS2c 20 0 3
  [] 0 0x39a70d902c069a56f68b6497c8113840

/-- The fourth answers for `ssh`. -/
def sshOk : BoxEntry := frameBox edgeKeys.sessionId edgeKeys.controlS2c edgeKeys.nonceS2c 11 0 4
  (registerReply defaultBuild sshService.id) 0x55aa901594 0x115c4f68fa380826a7f569fbf6ea5b10

def edgeWorkId : Octets 32 := ⟨ctPutU64 1 ++ List.replicate 24 0x77, by simp⟩

/-- The channel on which the work connection is bound. -/
def edgeChannel : CtControl := { CtControl.zero with keys := edgeKeys, clientId := edgeId }

/-- What the primitives return in the sessions of `edge`. -/
def edgeWorkLog : CryptoLog :=
  { edgeLog with
    hashes := edgeHashes ++ [⟨32, edgeKeys.workAuthKey.toList,
      (workmacInput edgeChannel edgeWorkId).bytes,
      beBytes 32 0x1db6329e06930fb1ec1e69e951fdff4a51a84dfe04752d507e8798f64db3528d⟩]
    boxes := edgeLog.boxes ++
      [frameBox edgeKeys.sessionId edgeKeys.controlC2s edgeKeys.nonceC2s 10 0 1
          ((registerPayload defaultBuild webService).getD [])
          0x9dc899f32b787cef65d973ffe9a9a6ff87880d48f1 0x930f07b660f5485c4e97dbe1e85f0395,
        frameBox edgeKeys.sessionId edgeKeys.controlC2s edgeKeys.nonceC2s 10 0 2
          ((registerPayload defaultBuild sshService).getD [])
          0x857c7f2a8a84bf847b87cf72c5153761e55d71e987 0x4e1c774072fca623de0e6ff6c3bedc59,
        webOk, workRequest, sshOk] }

def edgeWorkConfig (services : List CtServiceConfig) : CtConfig :=
  { edgeConfig with poolCount := 0, services := services }

/-- The work connection opens. -/
def edgeWorkIo : WorkConnectIo := ⟨some 9, some (.replicate 24 0x77), sendAll⟩

/-- `edge` connects; `replies` are the frames that answer each registration. -/
def edgeConnect (replies : Nat → List Bytes) : ClientEvent :=
  .connect
    { connected := some 4
      handshake := edgeClientIo
      register := fun i => ⟨sendAll, (replies i).map fun frame => (⟨frame, true, 0⟩, sendAll)⟩
      alloc := true
      pool := fun _ => edgeWorkIo }

def edgeControl (frame : Bytes) : ClientEvent :=
  .control ⟨.bytes frame, [], true, sendAll, edgeWorkIo, ⟨⟨none, none⟩, .failed⟩, 0⟩

/-- An external connection on `web` while `ssh` is being registered: the session
opens, and its request is never answered. -/
theorem early_request_unanswered :
    (edgeWorkConfig [webService, sshService]).poolCount = 0 ∧
      (clientStep defaultBuild edgeWorkLog.monocypher (edgeWorkConfig [webService, sshService])
        (edgeConnect fun i => if i = 0 then [webOk.frame] else [workRequest.frame, sshOk.frame])
        none).ok = true ∧
      ¬ Answered (workSteps (runs (clientStep defaultBuild edgeWorkLog.monocypher
        (edgeWorkConfig [webService, sshService])) none [edgeConnect fun i =>
          if i = 0 then [webOk.frame] else [workRequest.frame, sshOk.frame]]).2) := by
  have hfacts : (clientStep defaultBuild edgeWorkLog.monocypher
        (edgeWorkConfig [webService, sshService]) (edgeConnect fun i =>
          if i = 0 then [webOk.frame] else [workRequest.frame, sshOk.frame]) none).ok = true ∧
      workSteps (runs (clientStep defaultBuild edgeWorkLog.monocypher
        (edgeWorkConfig [webService, sshService])) none [edgeConnect fun i =>
          if i = 0 then [webOk.frame] else [workRequest.frame, sshOk.frame]]).2 = [.request] := by
    decide +kernel
  obtain ⟨hok, hsteps⟩ := hfacts
  refine ⟨rfl, hok, ?_⟩
  rw [hsteps]
  intro h
  cases h

/-- The same request in the main loop. -/
def edgeWorkRun : List ClientEvent :=
  [edgeConnect fun _ => [webOk.frame], edgeControl workRequest.frame]

theorem edgeWorkRun_no_early : ∀ io, ClientEvent.connect io ∈ edgeWorkRun →
    io.NoRequests defaultBuild := by
  have hauth : NoRequest defaultBuild edgeClientIo.authOk.inbox := by
    intro h hh
    have hdecode : ctFrameHeaderDecode defaultBuild (sliceOctets edgeClientIo.authOk.inbox 0 36) =
        some (controlHeader 4 edgeKeys.sessionId 0 1 []) := by decide +kernel
    rw [hdecode] at hh
    rw [← Option.some.inj hh]
    decide
  have hok : NoRequest defaultBuild webOk.frame := by
    intro h hh
    have hdecode : ctFrameHeaderDecode defaultBuild (sliceOctets webOk.frame 0 36) =
        some (controlHeader 11 edgeKeys.sessionId 0 2 (registerReply defaultBuild webService.id)) := by
      decide +kernel
    rw [hdecode] at hh
    rw [← Option.some.inj hh]
    decide
  intro io hio
  simp only [edgeWorkRun, edgeConnect, edgeControl, List.mem_cons, ClientEvent.connect.injEq,
    reduceCtorEq, List.not_mem_nil, or_false] at hio
  subst hio
  refine ⟨hauth, ?_⟩
  intro i reply hreply
  simp only [List.map_cons, List.map_nil, List.mem_singleton] at hreply
  rw [hreply]
  exact hok

theorem request_answered_in_loop :
    workSteps (runs (clientStep defaultBuild edgeWorkLog.monocypher (edgeWorkConfig [webService]))
        none edgeWorkRun).2 = [.request, .attempt] ∧
      Answered (workSteps (runs (clientStep defaultBuild edgeWorkLog.monocypher
        (edgeWorkConfig [webService])) none edgeWorkRun).2) :=
  ⟨by decide +kernel, requests_answered rfl edgeWorkRun edgeWorkRun_no_early⟩

end Ctunnel
