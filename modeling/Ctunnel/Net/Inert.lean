import Ctunnel.Net.Datagram
import Ctunnel.Net.RelayDrain
import Ctunnel.Net.RelayOpen
import Ctunnel.Net.Stream

/-!
# What the network functions leave alone

Sockets are opened and closed in few places, and control frames are accepted only
by `ct_control_recv`. Every other call has effects that matter to neither.
-/

namespace Ctunnel

open Lib

/-- Opens and closes no socket, accepts no control frame, is no `add_work`. -/
def Effect.Inert : Effect → Prop
  | .socketOpen _ | .socketClose _ | .controlRecv .. | .addWork => False
  | _ => True

instance : DecidablePred Effect.Inert := fun e => by
  unfold Effect.Inert
  split <;> infer_instance

section Calls

variable {σ : Type} {b : Build} {m : Monocypher}

theorem sendall_inert {fd : Socket} {p : Bytes} {taken : Nat} :
    Call.Emits Effect.Inert (sendall fd p taken : Call Effect σ Unit) :=
  .bind (.tell (by simp [Effect.Inert])) fun _ => .check

theorem ctPlainSend_inert {fd : Socket} {type : UInt8} {session stream : UInt64} {p : Bytes}
    {io : SendIo} :
    Call.Emits Effect.Inert (ctPlainSend b fd type session stream p io : Call Effect σ Unit) :=
  .bind .check fun _ => .bind .need fun _ => .bind (sendall_inert) fun _ => sendall_inert

/-- What a control frame leaves in the trace. -/
def Effect.Framing : Effect → Prop
  | .controlSend .. | .aeadEncrypt .. | .wire .. => True
  | _ => False

/-- No call of `ct_control_send`. -/
def Effect.Unsent (e : Effect) : Prop := ∀ type stream p, e ≠ .controlSend type stream p

/-- No datagram. -/
def Effect.Undelivered (e : Effect) : Prop := ∀ fd destination bytes, e ≠ .datagram fd destination bytes

/-- Neither a control frame nor a datagram. -/
def Effect.Plain : Effect → Prop
  | .controlSend .. | .datagram .. => False
  | _ => True

/-- No READY of a client is accepted. -/
def Effect.Unready (e : Effect) : Prop := ∀ keys clientId x, e ≠ .readyRecv keys clientId x true

/-- Plain, and no READY of a client is accepted. -/
def Effect.Routine : Effect → Prop
  | .controlSend .. | .datagram .. | .readyRecv _ _ _ true => False
  | _ => True

/-- Nothing leaves through a socket. -/
def Effect.Local : Effect → Prop
  | .controlSend .. | .aeadEncrypt .. | .wire .. | .datagram .. => False
  | _ => True

theorem Effect.Plain.unsent {e : Effect} (h : e.Plain) : e.Unsent := by
  rintro type stream p rfl
  exact h

theorem Effect.Plain.undelivered {e : Effect} (h : e.Plain) : e.Undelivered := by
  rintro fd destination bytes rfl
  exact h

theorem Effect.Routine.plain {e : Effect} (h : e.Routine) : e.Plain := by
  cases e <;> trivial

theorem Effect.Routine.unsent {e : Effect} (h : e.Routine) : e.Unsent := h.plain.unsent

theorem Effect.Routine.unready {e : Effect} (h : e.Routine) : e.Unready := by
  rintro keys clientId x rfl
  exact h

theorem Effect.Framing.unready {e : Effect} (h : e.Framing) : e.Unready := by
  rintro keys clientId x rfl
  exact h

theorem Effect.Local.plain {e : Effect} (h : e.Local) : e.Plain := by
  cases e <;> trivial

theorem Effect.Local.off {e : Effect} (h : e.Local) : ¬ e.Framing := by
  cases e <;> first | exact id | exact absurd h id

theorem Effect.Framing.undelivered {e : Effect} (h : e.Framing) : e.Undelivered := by
  rintro fd destination bytes rfl
  exact h

theorem ctControlSend_framing {type : UInt8} {stream : UInt64} {p : Bytes} {io : SendIo} :
    Call.Emits Effect.Framing (ctControlSend b m type stream p io) := by
  have hwire : ∀ (fd : Socket) (p : Bytes) (taken : Nat),
      Call.Emits Effect.Framing (sendall fd p taken : Call Effect CtControl Unit) := fun _ _ _ =>
    .bind (.tell (by simp [Effect.Framing])) fun _ => .check
  refine .bind (.tell (by simp [Effect.Framing])) fun _ => .bind .get fun c => ?_
  refine .bind .check fun _ => .bind .modify fun _ => .bind .check fun _ => ?_
  refine .bind .need fun head => .bind .need fun box => ?_
  refine .bind (.tell (by simp [Effect.Framing])) fun _ => ?_
  exact .bind (hwire _ _ _) fun _ => .bind (hwire _ _ _) fun _ => .modify

theorem ctControlSend_inert {type : UInt8} {stream : UInt64} {p : Bytes} {io : SendIo} :
    Call.Emits Effect.Inert (ctControlSend b m type stream p io) := by
  intro c e he
  have hframing := ctControlSend_framing c e he
  cases e <;> trivial

theorem ctStartStreamRecv_inert {work : CtWork} {c : CtControl} {inbox stale : Bytes} :
    Call.Emits Effect.Inert
      (ctStartStreamRecv b m work c inbox stale : Call Effect σ (StreamContext × CtStreamMetadata)) := by
  refine .bind .need fun _ => .bind .check fun _ => .bind .need fun _ => ?_
  refine .bind .need fun _ => .bind (.tell (by simp [Effect.Inert])) fun _ => ?_
  exact .bind .check fun _ => .bind (.tell (by simp [Effect.Inert])) fun _ => .pure

theorem ctStreamReadySend_inert {work : CtWork} {c : CtControl} {serviceId : CString}
    {mode : CtEncMode} {sid : UInt64} {rnd : Octets 32} {ok : Bool} {io : SendIo} :
    Call.Emits Effect.Inert
      (ctStreamReadySend b m work c serviceId mode sid rnd ok io : Call Effect σ Unit) := by
  refine .bind .need fun _ => .bind .need fun _ => ?_
  exact .bind (.tell (by simp [Effect.Inert])) fun _ => ctPlainSend_inert

theorem ctUdpSend_inert {fd : Socket} {destination : CtEndpoint} {bytes : Bytes} {io : SendTo} :
    Call.Emits Effect.Inert (ctUdpSend b fd destination bytes io : Call Effect σ Unit) := by
  refine .bind .check fun _ => ?_
  cases io with
  | sent n => exact .bind (.tell (by simp [Effect.Inert])) fun _ => .check
  | wouldBlock => exact .pure
  | failed => exact .need

theorem ctPlainSend_keeps {I : σ → Prop} {fd : Socket} {type : UInt8} {session stream : UInt64}
    {q : Bytes} {io : SendIo} :
    Call.Keeps I (ctPlainSend b fd type session stream q io : Call Effect σ Unit) := by
  refine .bind .check fun _ => .bind .need fun _ => ?_
  exact .bind (.bind .tell fun _ => .check) fun _ => .bind .tell fun _ => .check

end Calls

/-! ## Relays -/

section Relays

variable {b : Build} {m : Monocypher}

/-- An effect on the bytes of a relay: no life of a socket, no frame of another kind. -/
def Effect.Streaming : Effect → Prop
  | .socketOpen _ | .socketClose _ | .controlRecv .. | .addWork | .controlSend .. | .wire ..
  | .datagram .. => False
  | _ => True

theorem Effect.Streaming.inert {e : Effect} (h : e.Streaming) : e.Inert := by
  cases e <;> trivial

/-- `ct_relay_close` closes the two sockets of an open relay. -/
theorem ctRelayClose_effects (r : CtRelay) : ∀ e ∈ (ctRelayClose b r).effects,
    e.Streaming ∨ r.closed = false ∧ (e = .socketClose r.direct ∨ e = .socketClose r.work) := by
  intro e he
  simp only [ctRelayClose, syncBufferMetric, Outcome.emit_effects, List.mem_append] at he
  rcases he with he | he
  · split at he
    · simp only [List.mem_append, List.mem_cons, List.not_mem_nil, or_false] at he
      left
      rcases he with rfl | rfl | rfl | rfl | rfl
      · split <;> trivial
      all_goals trivial
    · exact absurd he (by simp)
  · split at he
    · rename_i hopen
      simp only [List.mem_cons, List.not_mem_nil, or_false] at he
      exact .inr ⟨by simpa using hopen, he⟩
    · exact absurd he (by simp)

theorem relayShutdowns_streaming (r : CtRelay) : ∀ e ∈ relayShutdowns r, e.Streaming := by
  intro e he
  simp only [relayShutdowns, List.mem_append] at he
  rcases he with he | he
  all_goals
    split at he
    · rw [List.mem_singleton.mp he]
      trivial
    · exact absurd he (by simp)

theorem Effect.Moving.streaming {e : Effect} (h : e.Moving b) : e.Streaming := by
  cases e <;> trivial

/-- An effect of a relay: on its bytes, or the close of a socket. -/
def Effect.Relaying (e : Effect) : Prop := e.Streaming ∨ ∃ fd, e = .socketClose fd

theorem Effect.Relaying.plain {e : Effect} (h : e.Relaying) : e.Plain := by
  rcases h with h | ⟨fd, rfl⟩
  · cases e <;> trivial
  · trivial

theorem ctRelayClose_relaying (r : CtRelay) : ∀ e ∈ (ctRelayClose b r).effects, e.Relaying := by
  intro e he
  rcases ctRelayClose_effects r e he with h | ⟨-, h | h⟩
  · exact .inl h
  · exact .inr ⟨_, h⟩
  · exact .inr ⟨_, h⟩

theorem ctRelayProcess_relaying (fd : Socket) (ev : EvMask) (io : RelayIo) (r : CtRelay) :
    ∀ e ∈ (ctRelayProcess b m fd ev io r).effects, e.Relaying := by
  have hbody := relayBody_moving (b := b) (m := m) fd ev io r
  intro e he
  unfold ctRelayProcess at he
  split at he
  · exact absurd he (by simp)
  · simp only at he
    split at he
    · split at he
      · simp only [Outcome.fail_effects, List.mem_append] at he
        rcases he with (he | he) | he
        · exact .inl (hbody e he).streaming
        · exact .inl (relayShutdowns_streaming _ e he)
        · exact ctRelayClose_relaying _ e he
      · simp only [Outcome.emit_effects, List.mem_append] at he
        rcases he with he | he
        · exact .inl (hbody e he).streaming
        · exact .inl (relayShutdowns_streaming _ e he)
    · simp only [Outcome.fail_effects, List.mem_append, List.mem_singleton] at he
      rcases he with (he | rfl) | he
      · exact .inl (hbody e he).streaming
      · exact .inl trivial
      · exact ctRelayClose_relaying _ e he

theorem relayInitBuffers_quiet (alloc : RelayAlloc) (cipher : CtCipher) (master : Octets 32)
    (c : StreamContext) (r : CtRelay) :
    (relayInitBuffers b m alloc cipher master c r).effects = [] := by
  simp only [relayInitBuffers]
  repeat' split
  all_goals rfl

/-- `ct_relay_init` queues a PROXY header and counts it. -/
theorem relayInitProxy_effects (metadata : Option CtStreamMetadata) (r : CtRelay) :
    ∀ e ∈ (relayInitProxy b metadata r).effects,
      (∃ id, e = .inc id) ∨ ∃ src taken, e = .append .toDirect src taken := by
  have hdisabled : ∀ e ∈ (if r.isClient then
      [Effect.inc .proxyProtocolDisabledConnectionsTotal] else []), ∃ id, e = Effect.inc id := by
    intro e he
    split at he
    · exact ⟨_, List.mem_singleton.mp he⟩
    · exact absurd he (by simp)
  intro e he
  cases metadata with
  | none => exact .inl (hdisabled e he)
  | some md =>
      simp only [relayInitProxy] at he
      split at he
      · split at he
        · exact .inl ⟨_, List.mem_singleton.mp he⟩
        · split at he
          all_goals
            simp only [Outcome.emit_effects, Outcome.fail_effects, List.mem_append,
              Ctunnel.append, List.mem_singleton] at he
            rcases he with he | he
            · exact .inr ⟨_, _, he⟩
            · exact .inl ⟨_, he⟩
      · exact .inl (hdisabled e he)

theorem ctRelayInit_relaying {alloc : RelayAlloc} {direct work : Socket} {client : Bool}
    {cipher : CtCipher} {master : Octets 32} {c : StreamContext}
    {metadata : Option CtStreamMetadata} :
    ∀ e ∈ (ctRelayInit b m alloc direct work client cipher master c metadata).effects,
      e.Relaying := by
  have hopen : ∀ e ∈ ((relayInitBuffers b m alloc cipher master c (.zero direct work client)).andThen
      (relayInitProxy b metadata)).effects, e.Streaming := by
    intro e he
    cases hok : (relayInitBuffers b m alloc cipher master c (.zero direct work client)).ok with
    | true =>
        rw [Outcome.andThen_of_ok _ hok, relayInitBuffers_quiet] at he
        rcases relayInitProxy_effects metadata _ e he with ⟨id, rfl⟩ | ⟨src, taken, rfl⟩ <;> trivial
    | false =>
        rw [Outcome.andThen_of_not_ok _ hok, relayInitBuffers_quiet] at he
        exact absurd he (by simp)
  intro e he
  simp only [ctRelayInit, relayInitFailed] at he
  split at he
  · simp only [Outcome.emit_effects, List.mem_append, List.mem_cons, List.not_mem_nil,
      or_false] at he
    rcases he with he | rfl | rfl | rfl
    · exact .inl (hopen e he)
    all_goals exact .inl trivial
  · simp only [Outcome.fail_effects, List.mem_append] at he
    rcases he with he | he
    · exact .inl (hopen e he)
    · exact ctRelayClose_relaying _ e he

theorem relayInit_relaying (e : End) (c : CtControl) (x : RelayIn) :
    Call.Emits Effect.Relaying (relayInit b m e c x) := by
  unfold relayInit
  split
  · refine .bind (.tell ?_) fun _ => .ofOutcome fun _ => ctRelayInit_relaying
    intro e he
    rw [List.mem_singleton.mp he]
    exact .inl trivial
  · exact .ofOutcome fun _ => ctRelayInit_relaying

end Relays

end Ctunnel
