import Ctunnel.Net.Account
import Ctunnel.Net.Inert
import Ctunnel.Util.Metrics

/-!
# Gauges and the network functions

The network functions count failures but touch no gauge, but for `relay.c`: an
open relay is one active stream, one active work connection and the bytes it has
accounted for. `ct_relay_close` gives back exactly that, whatever the stage in
which an event failed.
-/

namespace Ctunnel

open Lib

/-! ## Calls that leave the gauges alone -/

section Calls

variable {σ : Type} {b : Build} {m : Monocypher} {cfg : CtConfig}

theorem Effect.Framing.ungauged {e : Effect} (h : e.Framing) : e.Ungauged := by
  cases e <;> first | exact trivial | exact absurd h id

theorem sendall_ungauged {fd : Socket} {p : Bytes} {taken : Nat} :
    Call.Emits Effect.Ungauged (sendall fd p taken : Call Effect σ Unit) :=
  .bind (.tell (by simp [Effect.Ungauged])) fun _ => .check

theorem ctPlainSend_ungauged {fd : Socket} {type : UInt8} {session stream : UInt64} {p : Bytes}
    {io : SendIo} :
    Call.Emits Effect.Ungauged (ctPlainSend b fd type session stream p io : Call Effect σ Unit) :=
  .bind .check fun _ => .bind .need fun _ => .bind sendall_ungauged fun _ => sendall_ungauged

theorem ctControlSend_ungauged {type : UInt8} {stream : UInt64} {p : Bytes} {io : SendIo} :
    Call.Emits Effect.Ungauged (ctControlSend b m type stream p io) :=
  ctControlSend_framing.mono fun _ h => h.ungauged

theorem ctControlRecv_ungauged {cap : Nat} {io : RecvIo} :
    Call.Emits Effect.Ungauged (ctControlRecv b m cap io) := by
  refine .bind .get fun _ => .bind .need fun _ => .bind .need fun _ => .bind .check fun _ => ?_
  refine .bind .check fun _ => .bind .need fun _ => ?_
  refine .bind (.tell (by simp [Effect.Ungauged])) fun _ => .bind .need fun _ => ?_
  exact .bind .modify fun _ => .bind (.tell (by simp [Effect.Ungauged])) fun _ => .pure

theorem ctHandshakeClient_ungauged {fd : Socket} {io : ClientHandshakeIo} :
    Call.Emits Effect.Ungauged (ctHandshakeClient b m fd cfg io) := by
  refine .rollback (.bind ?_ fun k => ?_)
  · refine .bind .modify fun _ => .bind .need fun _ => .bind .need fun _ => .bind .need fun _ => ?_
    refine .bind .need fun _ => .bind .need fun _ => .bind ctPlainSend_ungauged fun _ => ?_
    refine .bind .need fun _ => .bind .check fun _ => .bind .check fun _ => .bind .need fun _ => ?_
    exact .bind (.tell (by simp [Effect.Ungauged])) fun _ => .pure
  · refine .bind (.tell (by simp [Effect.Ungauged])) fun _ => .bind .check fun _ => ?_
    refine .bind (.tell (by simp [Effect.Ungauged])) fun _ => .bind ctPlainSend_ungauged fun _ => ?_
    refine .bind .need fun _ => .bind .modify fun _ => .bind .check fun _ => .bind .need fun _ => ?_
    refine .bind (.tell (by simp [Effect.Ungauged])) fun _ => .bind .modify fun _ => ?_
    refine .bind ctControlRecv_ungauged fun _ => .bind .check fun _ => ?_
    exact .bind (.tell (by simp [Effect.Ungauged])) fun _ => .modify

theorem ctHandshakeServerBegin_ungauged {fd : Socket} {io : ServerBeginIo} :
    Call.Emits Effect.Ungauged (ctHandshakeServerBegin b m fd cfg io) := by
  refine .rollback (.bind .modify fun _ => .bind .need fun _ => .bind .check fun _ => ?_)
  refine .bind .need fun _ => .bind .check fun _ => .bind .need fun _ => .bind .need fun _ => ?_
  refine .bind .need fun _ => .bind .check fun _ => .bind .need fun _ => .bind .need fun _ => ?_
  refine .bind .need fun _ => .bind (.tell (by simp [Effect.Ungauged])) fun _ => ?_
  exact .bind (.tell (by simp [Effect.Ungauged])) fun _ => .bind ctPlainSend_ungauged fun _ => .modify

theorem ctHandshakeServerFinish_ungauged {fd : Socket} {io : ServerFinishIo} :
    Call.Emits Effect.Ungauged (ctHandshakeServerFinish b m fd io) := by
  intro s
  have hbody : Call.Emits Effect.Ungauged (serverFinishBody b m fd s.1 io) := by
    refine .bind .need fun _ => .bind .need fun _ => .bind .check fun _ => ?_
    refine .bind (.tell (by simp [Effect.Ungauged])) fun _ => .bind .check fun _ => ?_
    refine .bind .check fun _ => .bind .need fun _ => .bind .modify fun _ => .bind .need fun _ => ?_
    refine .bind (.tell (by simp [Effect.Ungauged])) fun _ => .bind .modify fun _ => ?_
    refine .bind ctControlSend_ungauged fun _ => .bind .modify fun _ => ?_
    exact .bind (.tell (by simp [Effect.Ungauged])) fun _ => .pure
  exact Call.Emits.rollback hbody s.2

theorem ctWorkConnect_ungauged {io : WorkConnectIo} :
    Call.Emits Effect.Ungauged (ctWorkConnect b m io) := by
  refine .bind .need fun _ => .bind (.tell (by simp [Effect.Ungauged])) fun _ => ?_
  refine .onFail (by simp [Effect.Ungauged]) (.bind .get fun _ => .bind .check fun _ => ?_)
  refine .bind .modify fun _ => .bind .need fun _ => ?_
  exact .bind (.tell (by simp [Effect.Ungauged])) fun _ => .bind ctPlainSend_ungauged fun _ => .pure

theorem ctWorkAcceptBind_ungauged {fd : Socket} {inbox : Bytes} :
    Call.Emits Effect.Ungauged (ctWorkAcceptBind b m fd inbox) := by
  refine .bind .get fun _ => .bind .need fun _ => .bind .check fun _ => ?_
  refine .bind (.tell (by simp [Effect.Ungauged])) fun _ => .bind .check fun _ => ?_
  refine .bind .need fun _ => .bind .modify fun _ => ?_
  exact .bind (.tell (by simp [Effect.Ungauged])) fun _ => .pure

theorem ctStartStreamSend_ungauged {work : CtWork} {c : CtControl} {id : CString} {sid : UInt64}
    {mode : CtEncMode} {metadata : Option CtStreamMetadata} {random : Option (Octets 32)}
    {io : SendIo} :
    Call.Emits Effect.Ungauged
      (ctStartStreamSend b m work c id sid mode metadata random io : Call Effect σ (Octets 32)) := by
  refine .bind .need fun _ => .bind .need fun _ => .bind .need fun _ => ?_
  exact .bind (.tell (by simp [Effect.Ungauged])) fun _ => .bind ctPlainSend_ungauged fun _ => .pure

theorem ctStartStreamRecv_ungauged {work : CtWork} {c : CtControl} {inbox stale : Bytes} :
    Call.Emits Effect.Ungauged
      (ctStartStreamRecv b m work c inbox stale : Call Effect σ (StreamContext × CtStreamMetadata)) := by
  refine .bind .need fun _ => .bind .check fun _ => .bind .need fun _ => .bind .need fun _ => ?_
  refine .bind (.tell (by simp [Effect.Ungauged])) fun _ => .bind .check fun _ => ?_
  exact .bind (.tell (by simp [Effect.Ungauged])) fun _ => .pure

theorem ctStreamReadySend_ungauged {work : CtWork} {c : CtControl} {id : CString}
    {mode : CtEncMode} {sid : UInt64} {rnd : Octets 32} {ok : Bool} {io : SendIo} :
    Call.Emits Effect.Ungauged
      (ctStreamReadySend b m work c id mode sid rnd ok io : Call Effect σ Unit) := by
  refine .bind .need fun _ => .bind .need fun _ => ?_
  exact .bind (.tell (by simp [Effect.Ungauged])) fun _ => ctPlainSend_ungauged

theorem ctStreamReadyRecv_ungauged {work : CtWork} {c : CtControl} {id : CString}
    {mode : CtEncMode} {sid : UInt64} {rnd : Octets 32} {inbox : Bytes} :
    Call.Emits Effect.Ungauged
      (ctStreamReadyRecv b m work c id mode sid rnd inbox : Call Effect σ Bool) := by
  refine .bind .need fun _ => .bind .check fun _ => .bind .need fun _ => .bind .check fun _ => ?_
  refine .bind .need fun _ => .bind (.tell (by simp [Effect.Ungauged])) fun _ => .bind .check fun _ => ?_
  exact .bind (.tell (by simp [Effect.Ungauged])) fun _ => .pure

theorem ctUdpSend_ungauged {fd : Socket} {destination : CtEndpoint} {bytes : Bytes} {io : SendTo} :
    Call.Emits Effect.Ungauged (ctUdpSend b fd destination bytes io : Call Effect σ Unit) := by
  refine .bind .check fun _ => ?_
  cases io with
  | sent n => exact .bind (.tell (by simp [Effect.Ungauged])) fun _ => .check
  | wouldBlock => exact .pure
  | failed => exact .need

theorem ctUdpSend_keeps {I : σ → Prop} {fd : Socket} {destination : CtEndpoint} {bytes : Bytes}
    {io : SendTo} : Call.Keeps I (ctUdpSend b fd destination bytes io) := by
  refine .bind .check fun _ => ?_
  cases io with
  | sent n => exact .bind .tell fun _ => .check
  | wouldBlock => exact .pure
  | failed => exact .need

end Calls

/-! ## What a relay counts for -/

/-- An open relay is an active stream on an active work connection. -/
def CtRelay.gauge (r : CtRelay) : Gauge → Nat
  | .activeStreams | .workActive => if r.closed then 0 else 1
  | .bufferBytesCurrent => if r.closed then 0 else r.accountedBufferBytes
  | _ => 0

theorem CtRelay.gauge_closed {r : CtRelay} (h : r.closed = true) : r.gauge = 0 := by
  funext g
  cases g <;> simp [CtRelay.gauge, h]

/-- The accounted bytes are those in the rings. -/
def CtRelay.Balanced (b : Build) (r : CtRelay) : Prop := r.accountedBufferBytes = bufferedBytes b r

section Relays

variable {b : Build} {m : Monocypher}

/-- What the accounting of a relay depends on. -/
structure SameAccount (r r' : CtRelay) : Prop where
  closed : r'.closed = r.closed
  streamAccounted : r'.streamAccounted = r.streamAccounted
  accountedBufferBytes : r'.accountedBufferBytes = r.accountedBufferBytes

theorem SameAccount.refl (r : CtRelay) : SameAccount r r := ⟨rfl, rfl, rfl⟩

theorem SameAccount.gauge {r r' : CtRelay} (h : SameAccount r r') : r'.gauge = r.gauge := by
  funext g
  cases g <;> simp [CtRelay.gauge, h.closed, h.accountedBufferBytes]

theorem setRing_account (r : CtRelay) (ring : RingId) (q : CtRing) :
    SameAccount r (r.setRing ring q) := by
  cases ring <;> exact ⟨rfl, rfl, rfl⟩

theorem syncBufferMetric_shifts {r : CtRelay} (hopen : r.closed = false) :
    Shifts r.gauge (syncBufferMetric b r).effects (syncBufferMetric b r).state.gauge := by
  intro g
  by_cases hmore : bufferedBytes b r ≥ r.accountedBufferBytes
  · have heffects : (syncBufferMetric b r).effects =
        [.metricAdd .bufferBytesCurrent (bufferedBytes b r - r.accountedBufferBytes)] := by
      rw [syncBufferMetric, Outcome.emit_effects, if_pos hmore]
    rw [heffects]
    cases g <;> simp [Leads, Effect.raises, Effect.lowers, Gauge.metric, CtRelay.gauge,
      syncBufferMetric, hopen]
    omega
  · have heffects : (syncBufferMetric b r).effects =
        [.metricSub .bufferBytesCurrent (r.accountedBufferBytes - bufferedBytes b r)] := by
      rw [syncBufferMetric, Outcome.emit_effects, if_neg hmore]
    rw [heffects]
    cases g <;> simp [Leads, Effect.raises, Effect.lowers, Gauge.metric, CtRelay.gauge,
      syncBufferMetric, hopen]
    omega

/-- Closing an accounted relay gives back what it counted for. -/
theorem ctRelayClose_shifts {r : CtRelay} (hopen : r.closed = false)
    (haccounted : r.streamAccounted = true) : Shifts r.gauge (ctRelayClose b r).effects 0 := by
  have heffects : (ctRelayClose b r).effects = (syncBufferMetric b r).effects ++
      ([.metricSub .bufferBytesCurrent (bufferedBytes b r), .inc .streamsClosedTotal,
        .dec .activeStreams, .dec .workActive] ++ [.socketClose r.direct, .socketClose r.work]) := by
    simp [ctRelayClose, hopen, haccounted]
  rw [heffects]
  refine (syncBufferMetric_shifts hopen).trans (.quiet (fun g => ?_) (by simp [Effect.Ungauged]))
  cases g <;> simp [Leads, Effect.raises, Effect.lowers, Gauge.metric, CtRelay.gauge,
    syncBufferMetric, hopen]

theorem ctRelayClose_gauge (r : CtRelay) : (ctRelayClose b r).state.gauge = 0 :=
  CtRelay.gauge_closed rfl

/-- A relay that was never accounted for only closes its sockets. -/
theorem ctRelayClose_ungauged {r : CtRelay} (hunaccounted : r.streamAccounted = false) :
    ∀ e ∈ (ctRelayClose b r).effects, e.Ungauged := by
  have heffects : (ctRelayClose b r).effects =
      if !r.closed then [.socketClose r.direct, .socketClose r.work] else [] := by
    simp [ctRelayClose, hunaccounted]
  rw [heffects]
  intro e he
  split at he
  · simp only [List.mem_cons, List.not_mem_nil, or_false] at he
    rcases he with rfl | rfl <;> trivial
  · exact absurd he (by simp)

/-! ## One event of a relay -/

/-- An accounted relay, and the trace leads the gauges from those of `r₀` to its own. -/
structure Levelled (r₀ r : CtRelay) (tr : List Effect) : Prop where
  isOpen : r.closed = false
  accounted : r.streamAccounted = true
  shifts : Shifts r₀.gauge tr r.gauge

variable {r₀ : CtRelay}

theorem Levelled.same {r r' : CtRelay} {tr : List Effect} (h : Levelled r₀ r tr)
    (hsame : SameAccount r r') : Levelled r₀ r' tr :=
  ⟨hsame.closed.trans h.isOpen, hsame.streamAccounted.trans h.accounted, hsame.gauge ▸ h.shifts⟩

theorem Levelled.step {r r' : CtRelay} {tr es : List Effect} (h : Levelled r₀ r tr)
    (hsame : SameAccount r r') (hes : ∀ e ∈ es, e.Ungauged) : Levelled r₀ r' (tr ++ es) :=
  { h.same hsame with shifts := (h.same hsame).shifts.quiet hes }

/-- A stage of an event after which the relay is accounted for, whether it succeeds or not. -/
abbrev KeepsLevelled (r₀ : CtRelay) (op : CtRelay → RelayOutcome) : Prop :=
  Triple (Levelled r₀) op (Levelled r₀) (Levelled r₀)

theorem syncBufferMetric_levelled : KeepsLevelled r₀ (syncBufferMetric b) :=
  fun _ _ h => .emit ⟨h.isOpen, h.accounted, h.shifts.trans (syncBufferMetric_shifts h.isOpen)⟩

theorem append_levelled (ring : RingId) (src : Bytes) : KeepsLevelled r₀ (append ring src) := by
  intro r tr h
  have hall : Levelled r₀ (append ring src r).state (tr ++ (append ring src r).effects) :=
    h.step (setRing_account r ring _) (by simp [append, Effect.Ungauged])
  unfold Outcome.Ends
  split <;> exact hall

theorem flushRelay_levelled (fd : Socket) (res : SendResult) :
    KeepsLevelled r₀ (flushRelay fd res) := by
  intro r tr h
  have hflush : Levelled r₀ (flush (r.flushRing fd) res r).state
      (tr ++ (flush (r.flushRing fd) res r).effects) := by
    rcases flush_cases (r.flushRing fd) res r with heq | heq | ⟨z, heq⟩ <;> rw [heq]
    · exact h.step (.refl r) (by simp)
    · exact h.step (.refl r) (by simp)
    · exact h.step (setRing_account r _ _) (by simp [Effect.Ungauged])
  rcases flushRelay_cases fd res r with ⟨-, pending, remaining, heq⟩ | ⟨-, es, heq, hes⟩
  · rw [heq]
    exact .emit (hflush.same ⟨rfl, rfl, rfl⟩)
  · rw [heq]
    refine .fail ?_
    rw [← List.append_assoc]
    refine hflush.step (.refl _) fun e he => ?_
    rw [hes e he]
    simp [Effect.Ungauged]

theorem decryptRecord_levelled (n : UInt32) (seq : UInt64) :
    KeepsLevelled r₀ (decryptRecord m n seq) := by
  intro r tr h
  unfold decryptRecord
  dsimp only
  split
  · exact .fail (h.step ⟨rfl, rfl, rfl⟩ (by simp [Effect.Ungauged]))
  · refine Outcome.Ends.andThen (Outcome.Ends.andThen (Q := Levelled r₀)
      (.emit (h.step ⟨rfl, rfl, rfl⟩ (by simp [Effect.Ungauged]))) (append_levelled _ _)) ?_
    exact fun r' tr' h' => .done (h'.same ⟨rfl, rfl, rfl⟩)

theorem decryptLoop_levelled (fuel : Nat) : KeepsLevelled r₀ (decryptLoop b m fuel) := by
  induction fuel with
  | zero => exact fun r tr h => .done h
  | succ fuel ih =>
      intro r tr h
      unfold decryptLoop
      split
      · exact .done h
      · dsimp only
        split
        · exact .fail (h.step (.refl r) (by simp [Effect.Ungauged]))
        · split
          · exact .done h
          · split
            · exact .done h
            · exact (decryptRecord_levelled _ _ r tr h).andThen ih

theorem metricBytes_ungauged (r : CtRelay) (source : Socket) (n : Nat) :
    (metricBytes r source n).Ungauged := by
  unfold metricBytes
  dsimp only
  split <;> split <;> simp [Effect.Ungauged]

theorem encryptChunk_levelled (p : Bytes) : KeepsLevelled r₀ (encryptChunk m p) := by
  intro r tr h
  unfold encryptChunk
  split
  · exact .fail (h.step (.refl r) (by simp))
  · dsimp only
    split
    · exact .fail (h.step ⟨rfl, rfl, rfl⟩ (by simp [Effect.Ungauged]))
    · exact Outcome.Ends.andThen (Q := Levelled r₀)
        (.emit (h.step ⟨rfl, rfl, rfl⟩ (by simp [Effect.Ungauged]))) (append_levelled _ _)

theorem readDirect_levelled (res : RecvResult) : KeepsLevelled r₀ (readDirect b m res) := by
  intro r tr h
  unfold readDirect
  split
  · refine Outcome.Ends.andThen (Q := Levelled r₀) (.emit (h.step (.refl r) fun e he => ?_)) ?_
    · simp only [List.mem_cons, List.not_mem_nil, or_false] at he
      rcases he with rfl | rfl
      · trivial
      · exact metricBytes_ungauged r _ _
    · split
      · exact encryptChunk_levelled _
      · exact append_levelled _ _
  · exact .done (h.same ⟨rfl, rfl, rfl⟩)
  · exact .done h
  · exact .fail (h.step (.refl r) (by simp))

theorem readWork_levelled (res : RecvResult) : KeepsLevelled r₀ (readWork b m res) := by
  intro r tr h
  unfold readWork
  split
  · refine Outcome.Ends.andThen (Q := Levelled r₀) (.emit (h.step (.refl r) fun e he => ?_)) ?_
    · simp only [List.mem_cons, List.not_mem_nil, or_false] at he
      rcases he with rfl | rfl
      · trivial
      · exact metricBytes_ungauged r _ _
    · split
      · exact fun r' tr' h' => (append_levelled _ _ r' tr' h').andThen
          fun s t hs => decryptLoop_levelled _ s t hs
      · exact append_levelled _ _
  · exact .done (h.same ⟨rfl, rfl, rfl⟩)
  · exact .done h
  · exact .fail (h.step (.refl r) (by simp))

theorem relayBody_levelled (fd : Socket) (ev : EvMask) (io : RelayIo) :
    KeepsLevelled r₀ (relayBody b m fd ev io) := by
  refine relayBody_ends syncBufferMetric_levelled (fun _ => flushRelay_levelled fd io.send) ?_ ?_
    (fun _ _ _ h => h) syncBufferMetric_levelled
  · intro _ r tr h
    unfold drainRelay
    split
    · exact decryptLoop_levelled _ r tr h
    · exact .done h
  · intro _ r tr h
    beta_reduce
    split
    · exact readDirect_levelled io.recv r tr h
    · exact readWork_levelled io.recv r tr h

/-- The last stage of an event that did not fail accounts for the bytes in the rings. -/
theorem relayBody_balanced {fd : Socket} {ev : EvMask} {io : RelayIo} {r : CtRelay}
    (hok : (relayBody b m fd ev io r).ok = true) :
    (relayBody b m fd ev io r).state.Balanced b := by
  have hlast : ∃ o : RelayOutcome, relayBody b m fd ev io r = o.andThen (syncBufferMetric b) :=
    ⟨_, rfl⟩
  obtain ⟨o, heq⟩ := hlast
  rw [heq] at hok ⊢
  cases ho : o.ok with
  | true =>
      rw [Outcome.andThen_of_ok _ ho]
      rfl
  | false =>
      rw [Outcome.andThen_of_not_ok _ ho, ho] at hok
      exact absurd hok (by simp)

theorem relayShutdowns_ungauged (r : CtRelay) : ∀ e ∈ relayShutdowns r, e.Ungauged := by
  intro e he
  simp only [relayShutdowns, List.mem_append] at he
  rcases he with he | he
  all_goals
    split at he
    · rw [List.mem_singleton.mp he]
      trivial
    · exact absurd he (by simp)

/-- An event shifts the gauges by what it makes of the relay; one that is still open has
accounted for the bytes in its rings. -/
theorem ctRelayProcess_shifts (fd : Socket) (ev : EvMask) (io : RelayIo) {r : CtRelay}
    (haccounted : r.closed = false → r.streamAccounted = true) :
    let o := ctRelayProcess b m fd ev io r
    Shifts r.gauge o.effects o.state.gauge ∧
      (o.state.closed = false →
        o.state.streamAccounted = true ∧ o.state.Balanced b ∧ o.state.direct = r.direct) := by
  intro o
  have ho : ctRelayProcess b m fd ev io r = o := rfl
  cases hclosed : r.closed with
  | true =>
      rw [ctRelayProcess, if_pos hclosed] at ho
      rw [← ho]
      exact ⟨.refl _, fun hopen => absurd (hclosed.symm.trans hopen) (by simp)⟩
  | false =>
      rw [ctRelayProcess, if_neg (by simp [hclosed])] at ho
      have hbody : (relayBody b m fd ev io r).Ends [] (Levelled r) (Levelled r) :=
        relayBody_levelled fd ev io r [] ⟨hclosed, haccounted hclosed, .refl _⟩
      dsimp only at ho
      by_cases hok : (relayBody b m fd ev io r).ok = true
      · obtain ⟨hopen, haccounted', hshifts⟩ := hbody.of_ok hok
        have hquiet := hshifts.quiet (relayShutdowns_ungauged (relayBody b m fd ev io r).state)
        rw [if_pos hok] at ho
        split at ho
        · rw [← ho]
          refine ⟨?_, fun h => absurd h (by simp [ctRelayClose])⟩
          show Shifts _ _ (ctRelayClose b _).state.gauge
          rw [ctRelayClose_gauge]
          exact hquiet.trans (ctRelayClose_shifts hopen haccounted')
        · rw [← ho]
          exact ⟨hquiet, fun _ => ⟨haccounted', relayBody_balanced hok,
            (relayBody_wiring fd ev io r).direct⟩⟩
      · obtain ⟨hopen, haccounted', hshifts⟩ := hbody.of_not_ok (by simpa using hok)
        rw [if_neg hok] at ho
        rw [← ho]
        refine ⟨?_, fun h => absurd h (by simp [ctRelayClose])⟩
        have hfailed := hshifts.quiet (l := [.inc .streamsFailedTotal]) (by simp [Effect.Ungauged])
        show Shifts _ _ (ctRelayClose b _).state.gauge
        rw [ctRelayClose_gauge]
        exact hfailed.trans (ctRelayClose_shifts hopen haccounted')

/-- An event after which the relay is open has accounted for the bytes in its rings. -/
theorem ctRelayProcess_balanced (fd : Socket) (ev : EvMask) (io : RelayIo) (r : CtRelay)
    (hopen : (ctRelayProcess b m fd ev io r).state.closed = false) :
    (ctRelayProcess b m fd ev io r).state.Balanced b := by
  unfold ctRelayProcess at hopen ⊢
  split at hopen
  · rename_i hclosed
    exact absurd (hclosed.symm.trans hopen) (by simp)
  · rename_i hclosed
    rw [if_neg hclosed]
    dsimp only at hopen ⊢
    split at hopen
    · rename_i hok
      rw [if_pos hok]
      split at hopen
      · exact absurd hopen (by simp [ctRelayClose])
      · rename_i hstill
        rw [if_neg hstill]
        exact relayBody_balanced hok
    · exact absurd hopen (by simp [ctRelayClose])

/-! ## Opening a relay -/

/-- `ct_relay_init` has not accounted for the relay yet. -/
structure Unaccounted (r : CtRelay) : Prop where
  isOpen : r.closed = false
  streamAccounted : r.streamAccounted = false
  accountedBufferBytes : r.accountedBufferBytes = 0

/-- Nothing but a PROXY header is in its rings. -/
def OnlyHeader (b : Build) (r : CtRelay) : Prop :=
  Unaccounted r ∧ (r.proxyHeaderPending = false → bufferedBytes b r = 0)

theorem relayInitBuffers_unaccounted (alloc : RelayAlloc) (direct work : Socket) (client : Bool)
    (cipher : CtCipher) (master : Octets 32) (c : StreamContext) (tr : List Effect) :
    (relayInitBuffers b m alloc cipher master c (.zero direct work client)).Ends tr
      (fun r _ => Unaccounted r ∧ r.proxyHeaderPending = false ∧ bufferedBytes b r = 0)
      (fun r _ => Unaccounted r) := by
  have hzero : Unaccounted (.zero direct work client) := ⟨rfl, rfl, rfl⟩
  unfold relayInitBuffers
  by_cases hb : b.dataEncryption = true
  · rw [if_pos hb]
    dsimp only
    split
    · exact .fail { hzero with }
    · rename_i toDirect hd
      split
      · exact .fail { hzero with }
      · rename_i toWork hw
        split
        · exact .fail { hzero with }
        · rename_i workInput hi
          have hempty : toDirect.len + toWork.len + workInput.len = 0 := by
            rw [(relayRing_some hd).1, (relayRing_some hw).1, (relayRing_some hi).1]
          split
          · split
            · exact .done ⟨{ hzero with }, rfl, by simpa [bufferedBytes, hb] using hempty⟩
            · exact .fail { hzero with }
          · exact .done ⟨{ hzero with }, rfl, by simpa [bufferedBytes, hb] using hempty⟩
  · rw [if_neg hb]
    split
    · exact .fail hzero
    · dsimp only
      split
      · exact .fail hzero
      · rename_i toDirect hd
        split
        · exact .fail { hzero with }
        · rename_i toWork hw
          have hempty : toDirect.len + toWork.len = 0 := by
            rw [(relayRing_some hd).1, (relayRing_some hw).1]
          exact .done ⟨{ hzero with }, rfl, by simpa [bufferedBytes, hb] using hempty⟩

theorem relayInitProxy_unaccounted (metadata : Option CtStreamMetadata) {r : CtRelay}
    (h : Unaccounted r) (hpending : r.proxyHeaderPending = false) (hempty : bufferedBytes b r = 0)
    (tr : List Effect) :
    (relayInitProxy b metadata r).Ends tr (fun r' _ => OnlyHeader b r' ∧
      (metadata = none → r'.proxyHeaderPending = false)) (fun r' _ => Unaccounted r') := by
  unfold relayInitProxy
  cases metadata with
  | none => exact .emit ⟨⟨h, fun _ => hempty⟩, fun _ => hpending⟩
  | some md =>
      dsimp only
      split
      · split
        · exact .fail h
        · split
          · exact .emit ⟨⟨{ h with }, fun hno => absurd hno (by simp)⟩, fun hno => absurd hno (by simp)⟩
          · exact .fail { h with }
      · exact .emit ⟨⟨h, fun _ => hempty⟩, fun hno => absurd hno (by simp)⟩

theorem relayInitProxy_ungauged (metadata : Option CtStreamMetadata) (r : CtRelay) :
    ∀ e ∈ (relayInitProxy b metadata r).effects, e.Ungauged := by
  have hdisabled : ∀ e ∈ (if r.isClient then
      [Effect.inc .proxyProtocolDisabledConnectionsTotal] else []), e.Ungauged := by
    intro e he
    split at he
    · rw [List.mem_singleton.mp he]
      simp [Effect.Ungauged]
    · exact absurd he (by simp)
  unfold relayInitProxy
  cases metadata with
  | none => exact hdisabled
  | some md =>
      dsimp only
      split
      · split
        · simp [Effect.Ungauged]
        · split
          · split <;> simp [append, Effect.Ungauged]
          · simp [append, Effect.Ungauged]
      · exact hdisabled

/-- `ct_relay_init` opens an accounted relay, or leaves a closed one. -/
theorem ctRelayInit_shifts (alloc : RelayAlloc) (direct work : Socket) (client : Bool)
    (cipher : CtCipher) (master : Octets 32) (c : StreamContext)
    (metadata : Option CtStreamMetadata) :
    let o := ctRelayInit b m alloc direct work client cipher master c metadata
    Shifts 0 o.effects o.state.gauge ∧ (o.state.closed = false →
      o.state.streamAccounted = true ∧ (o.state.proxyHeaderPending = false → o.state.Balanced b) ∧
        (metadata = none → o.state.proxyHeaderPending = false)) := by
  let o := (relayInitBuffers b m alloc cipher master c (.zero direct work client)).andThen
    (relayInitProxy b metadata)
  have hends : o.Ends [] (fun r' _ => OnlyHeader b r' ∧
      (metadata = none → r'.proxyHeaderPending = false)) (fun r' _ => Unaccounted r') :=
    (relayInitBuffers_unaccounted alloc direct work client cipher master c []).andThen
      fun r tr ⟨h, hpending, hempty⟩ => relayInitProxy_unaccounted metadata h hpending hempty tr
  have hquiet : ∀ e ∈ o.effects, e.Ungauged := by
    intro e he
    simp only [o, Outcome.andThen] at he
    split at he
    · rw [relayInitBuffers_quiet, List.nil_append] at he
      exact relayInitProxy_ungauged metadata _ e he
    · rw [relayInitBuffers_quiet] at he
      exact absurd he (by simp)
  have hinit : ctRelayInit b m alloc direct work client cipher master c metadata =
      if o.ok then .emit { o.state with streamAccounted := true }
        (o.effects ++ [.inc .streamsOpenedTotal, .inc .activeStreams, .inc .workActive])
      else relayInitFailed b o.state o.effects := rfl
  rw [hinit]
  cases hok : o.ok with
  | true =>
      obtain ⟨⟨⟨hopen, -, hbytes⟩, hempty⟩, hplain⟩ := hends.of_ok hok
      rw [if_pos rfl]
      refine ⟨(Shifts.still hquiet 0).trans fun g => ?_, fun _ => ⟨rfl, fun hpending => ?_, hplain⟩⟩
      · cases g <;> simp [Leads, Effect.raises, Effect.lowers, Gauge.metric, CtRelay.gauge, hopen,
          hbytes]
      · exact hbytes.trans (hempty hpending).symm
  | false =>
      have hun := hends.of_not_ok hok
      rw [if_neg (by simp)]
      refine ⟨?_, fun h => absurd h (by simp [relayInitFailed, ctRelayClose])⟩
      show Shifts _ _ (ctRelayClose b _).state.gauge
      rw [ctRelayClose_gauge]
      exact (Shifts.still hquiet 0).quiet (ctRelayClose_ungauged hun.streamAccounted)

/-- `ct_relay_init` as the two ends call it. -/
theorem relayInit_shifts (e : End) (c : CtControl) (x : RelayIn) (r : CtRelay) :
    let o := relayInit b m e c x r
    Shifts 0 o.effects o.state.gauge ∧ (o.state.closed = false →
      o.state.streamAccounted = true ∧ (o.state.proxyHeaderPending = false → o.state.Balanced b) ∧
        (x.metadata = none → o.state.proxyHeaderPending = false) ∧ o.state.direct = x.direct) := by
  intro o
  let i := ctRelayInit b m x.alloc x.direct x.work e.isClient c.cipher c.keys.dataMaster x.context
    x.metadata
  have hdirect : i.state.closed = false → i.state.direct = x.direct := by
    intro hopen
    have hends : i.Ends [] (fun r _ => FreshRelay b m x.direct x.work e.isClient c.cipher
        c.keys.dataMaster x.context r) (fun r _ => r.closed = true) := ctRelayInit_ends x.metadata []
    cases hok : i.ok with
    | true => exact (hends.of_ok hok).direct
    | false => exact absurd ((hends.of_not_ok hok).symm.trans hopen) (by simp)
  obtain ⟨hshifts, hopened⟩ := ctRelayInit_shifts (b := b) (m := m) x.alloc x.direct x.work e.isClient
    c.cipher c.keys.dataMaster x.context x.metadata
  have hstate : o.state = i.state ∧ ∃ es, (∀ e ∈ es, e.Ungauged) ∧ o.effects = es ++ i.effects := by
    show (relayInit b m e c x r).state = _ ∧ ∃ es, _ ∧ (relayInit b m e c x r).effects = _
    unfold relayInit
    split
    · exact ⟨rfl, [.deriveData e c.keys x.context], by simp [Effect.Ungauged], rfl⟩
    · exact ⟨rfl, [], by simp, rfl⟩
  obtain ⟨hstate, es, hes, heffects⟩ := hstate
  rw [hstate, heffects]
  refine ⟨(Shifts.still hes 0).trans hshifts, fun hopen => ?_⟩
  obtain ⟨haccounted, hbalanced, hplain⟩ := hopened hopen
  exact ⟨haccounted, hbalanced, hplain, hdirect hopen⟩

end Relays

/-! ## The tables of one end -/

/-- The slots whose relays are open. -/
def openSlots (b : Build) (relays : Nat → CtRelay) : Finset Nat :=
  {k ∈ Finset.range b.maxStreams | (relays k).closed = false}

/-- The UDP sessions that are active; a build without UDP has no table for them. -/
def activeSlots (b : Build) (active : Nat → Bool) : Finset Nat :=
  {i ∈ Finset.range (if b.udp then b.maxUdpSessions else 0) | active i = true}

/-- What waiting streams, idle work connections, relays and UDP sessions count for. -/
def tableGauge (b : Build) (pending work : Nat) (relays : Nat → CtRelay) (udp : Nat → Bool) :
    Gauge → Nat
  | .activeStreams | .workActive => (openSlots b relays).card
  | .pendingStreams => pending
  | .workIdle => work
  | .udpSessionsActive => (activeSlots b udp).card
  | .bufferBytesCurrent => ∑ k ∈ openSlots b relays, (relays k).accountedBufferBytes

section Tables

variable {b : Build} {pending work : Nat} {relays : Nat → CtRelay} {udp : Nat → Bool}

/-- The queues by themselves. -/
def queueGauge (pending work : Nat) : Gauge → Nat
  | .pendingStreams => pending
  | .workIdle => work
  | _ => 0

/-- A UDP session by itself. -/
def sessionGauge (active : Bool) : Gauge → Nat
  | .udpSessionsActive => if active then 1 else 0
  | _ => 0

theorem tableGauge_eq (g : Gauge) : tableGauge b pending work relays udp g =
    queueGauge pending work g + ∑ k ∈ Finset.range b.maxStreams, (relays k).gauge g +
      ∑ i ∈ Finset.range (if b.udp then b.maxUdpSessions else 0), sessionGauge (udp i) g := by
  have hopen : ∀ f : Nat → Nat, ∑ k ∈ openSlots b relays, f k =
      ∑ k ∈ Finset.range b.maxStreams, if (relays k).closed then 0 else f k := by
    intro f
    rw [openSlots, Finset.sum_filter]
    refine Finset.sum_congr rfl fun k _ => ?_
    cases (relays k).closed <;> rfl
  have hcard : (openSlots b relays).card =
      ∑ k ∈ Finset.range b.maxStreams, if (relays k).closed then 0 else 1 := by
    rw [Finset.card_eq_sum_ones]
    exact hopen fun _ => 1
  have hactive : (activeSlots b udp).card =
      ∑ i ∈ Finset.range (if b.udp then b.maxUdpSessions else 0), if udp i then 1 else 0 :=
    Finset.card_filter _ _
  cases g with
  | activeStreams | workActive =>
      simpa [tableGauge, queueGauge, sessionGauge, CtRelay.gauge] using hcard
  | pendingStreams | workIdle =>
      simp [tableGauge, queueGauge, sessionGauge, CtRelay.gauge]
  | udpSessionsActive =>
      simpa [tableGauge, queueGauge, sessionGauge, CtRelay.gauge] using hactive
  | bufferBytesCurrent =>
      simpa [tableGauge, queueGauge, sessionGauge, CtRelay.gauge] using hopen _

theorem Shifts.queues {pending' work' : Nat} {es : List Effect}
    (h : Shifts (queueGauge pending work) es (queueGauge pending' work')) :
    Shifts (tableGauge b pending work relays udp) es (tableGauge b pending' work' relays udp) := by
  intro g
  rw [tableGauge_eq, tableGauge_eq]
  exact ((h g).add _).add _

theorem Shifts.relay {k : Nat} {r : CtRelay} {es : List Effect} (hk : k < b.maxStreams)
    (h : Shifts (relays k).gauge es r.gauge) :
    Shifts (tableGauge b pending work relays udp) es
      (tableGauge b pending work (Function.update relays k r) udp) := by
  intro g
  obtain ⟨rest, hrest⟩ := sum_range_update hk relays fun r => r.gauge g
  have hself := hrest (relays k)
  rw [Function.update_eq_self] at hself
  rw [tableGauge_eq, tableGauge_eq, hself, hrest r, Nat.add_comm _ (_ + rest),
    Nat.add_comm _ (_ + rest)]
  exact (((h g).add _).add _).add _

theorem Shifts.session {i : Nat} {active : Bool} {es : List Effect} (hb : b.udp = true)
    (hi : i < b.maxUdpSessions) (h : Shifts (sessionGauge (udp i)) es (sessionGauge active)) :
    Shifts (tableGauge b pending work relays udp) es
      (tableGauge b pending work relays (Function.update udp i active)) := by
  intro g
  rw [← if_pos (α := Nat) (c := b.udp = true) hb (t := b.maxUdpSessions) (e := 0)] at hi
  obtain ⟨rest, hrest⟩ := sum_range_update hi udp fun active => sessionGauge active g
  have hself := hrest (udp i)
  rw [Function.update_eq_self] at hself
  rw [tableGauge_eq, tableGauge_eq, hself, hrest active, Nat.add_comm, Nat.add_comm _ (_ + rest)]
  exact ((h g).add _).add _

/-- Every session changes, one after the other. -/
theorem Shifts.eachSession (udp' : Nat → Bool) (f : Nat → List Effect)
    (h : ∀ i < b.maxUdpSessions, Shifts (sessionGauge (udp i)) (f i) (sessionGauge (udp' i))) :
    Shifts (tableGauge b pending work relays udp)
      (if b.udp then (List.range b.maxUdpSessions).flatMap f else [])
      (tableGauge b pending work relays udp') := by
  intro g
  rw [tableGauge_eq, tableGauge_eq, Nat.add_comm, Nat.add_comm (_ + _) (Finset.sum _ _)]
  refine Leads.add ?_ _
  by_cases hb : b.udp = true
  · simp only [hb, if_true]
    exact Leads.flatMap_range fun i hi => h i hi g
  · simp only [if_neg hb]
    exact .refl 0

/-- Every relay changes, one after the other. -/
theorem Shifts.eachRelay (relays' : Nat → CtRelay) (f : Nat → List Effect)
    (h : ∀ k < b.maxStreams, Shifts (relays k).gauge (f k) (relays' k).gauge) :
    Shifts (tableGauge b pending work relays udp) ((List.range b.maxStreams).flatMap f)
      (tableGauge b pending work relays' udp) := by
  intro g
  rw [tableGauge_eq, tableGauge_eq, Nat.add_comm (queueGauge _ _ g)]
  refine Leads.add ?_ _
  have hrelays := Leads.flatMap_range fun k hk => h k hk g
  rw [Nat.add_comm (queueGauge _ _ g)]
  exact hrelays.add _

/-! ## Entries that come and go -/

theorem Shifts.pushPending :
    Shifts (queueGauge pending work) [.inc .pendingStreams] (queueGauge (pending + 1) work) := by
  intro g
  cases g <;> simp [Leads, Effect.raises, Effect.lowers, Gauge.metric, queueGauge]

theorem Shifts.popPending :
    Shifts (queueGauge (pending + 1) work) [.dec .pendingStreams] (queueGauge pending work) := by
  intro g
  cases g <;> simp [Leads, Effect.raises, Effect.lowers, Gauge.metric, queueGauge]

theorem Shifts.pushWork :
    Shifts (queueGauge pending work) [.inc .workIdle] (queueGauge pending (work + 1)) := by
  intro g
  cases g <;> simp [Leads, Effect.raises, Effect.lowers, Gauge.metric, queueGauge]

theorem Shifts.popWork :
    Shifts (queueGauge pending (work + 1)) [.dec .workIdle] (queueGauge pending work) := by
  intro g
  cases g <;> simp [Leads, Effect.raises, Effect.lowers, Gauge.metric, queueGauge]

theorem Shifts.clearPending {α : Type} (l : List α) :
    Shifts (queueGauge l.length work) (l.map fun _ => .dec .pendingStreams) (queueGauge 0 work) := by
  induction l with
  | nil => exact .refl _
  | cons x l ih => exact Shifts.popPending.trans ih

theorem Shifts.clearWork {α : Type} (l : List α) :
    Shifts (queueGauge pending l.length) (l.map fun _ => .dec .workIdle) (queueGauge pending 0) := by
  induction l with
  | nil => exact .refl _
  | cons x l ih => exact Shifts.popWork.trans ih

theorem Shifts.openSession : Shifts (sessionGauge false)
    [.inc .udpSessionsActive, .inc .udpSessionsCreatedTotal] (sessionGauge true) := by
  intro g
  cases g <;> simp [Leads, Effect.raises, Effect.lowers, Gauge.metric, sessionGauge]

theorem Shifts.closeSession :
    Shifts (sessionGauge true) [.dec .udpSessionsActive] (sessionGauge false) := by
  intro g
  cases g <;> simp [Leads, Effect.raises, Effect.lowers, Gauge.metric, sessionGauge]

end Tables

end Ctunnel
