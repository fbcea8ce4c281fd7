import Ctunnel.Lib.Preamble
import Ctunnel.Net.RelayFlow
import Ctunnel.Theorems.Backpressure

/-!
# The PROXY header comes first

The header of a client relay is queued in `to_direct` before any application byte
and is sent from there like them, however little a `send` takes. What is sent on
the direct socket is the header followed by what came from the work side, cut off
somewhere, and `proxy_header_remaining` is what is missing of the header
(`proxy_header_first`). Raw and encrypted relays differ only in how a byte of the
work side gets into `to_direct`.
-/

namespace Ctunnel

open Lib

/-! ## What moves towards the direct socket -/

/-- Effects that do not show in what was read from the work socket or forwarded to
the direct one. -/
def Effect.elsewhere : Effect → Bool
  | .recv .work _ | .sent .toDirect _ | .append .toDirect _ _ | .aeadDecrypt _ (some _) => false
  | _ => true

/-- The part of a ledger about the direction from the work to the direct socket. -/
structure SameInbound (L L' : Ledger) : Prop where
  readWork : L'.readWork = L.readWork
  sentDirect : L'.sentDirect = L.sentDirect
  delivered : L'.delivered = L.delivered
  opened : L'.opened = L.opened

theorem ledger_elsewhere (tr : List Effect) {es : List Effect}
    (h : ∀ e ∈ es, e.elsewhere = true) : SameInbound (ledger tr) (ledger (tr ++ es)) := by
  have hone : ∀ e ∈ es, e.readBytes .work = [] ∧ e.sentBytes .toDirect = [] ∧
      e.deliveredBytes = [] ∧ e.openedRecord = none := by
    intro e he
    have hel := h e he
    cases e with
    | recv side bytes => cases side <;> simp_all [Effect.elsewhere]
    | sent ring bytes => cases ring <;> simp_all [Effect.elsewhere]
    | append ring src taken => cases ring <;> simp_all [Effect.elsewhere]
    | aeadDecrypt call plain => cases plain <;> simp_all [Effect.elsewhere]
    | _ => exact ⟨rfl, rfl, rfl, rfl⟩
  rw [ledger_append]
  refine ⟨?_, ?_, ?_, ?_⟩
  · simp [Ledger.append, ledger]
    exact fun e he => (hone e he).1
  · simp [Ledger.append, ledger]
    exact fun e he => (hone e he).2.1
  · simp [Ledger.append, ledger]
    exact fun e he => (hone e he).2.2.1
  · simp [Ledger.append, ledger]
    exact fun e he => (hone e he).2.2.2

theorem Effect.elsewhere_of_quiet {e : Effect} (h : e.quiet = true) : e.elsewhere = true := by
  cases e <;> first | rfl | exact absurd h (by simp [Effect.quiet])

/-- The part of a relay about that direction. -/
structure SameInboundSide (r r' : CtRelay) : Prop where
  closed : r'.closed = r.closed
  encrypted : r'.encrypted = r.encrypted
  pending : r'.proxyHeaderPending = r.proxyHeaderPending
  remaining : r'.proxyHeaderRemaining = r.proxyHeaderRemaining
  toDirect : r'.toDirect = r.toDirect
  workInput : r'.workInput = r.workInput

/-- From `r` and `tr`, a call that has to do with the other direction only. -/
def Outbound (r : CtRelay) (tr : List Effect) (r' : CtRelay) (tr' : List Effect) : Prop :=
  SameInboundSide r r' ∧ ∃ es, tr' = tr ++ es ∧ ∀ e ∈ es, e.elsewhere = true

section Outbound

variable {b : Build} {m : Monocypher} {r₀ r : CtRelay} {tr₀ tr : List Effect}

theorem Outbound.refl (r : CtRelay) (tr : List Effect) : Outbound r tr r tr :=
  ⟨⟨rfl, rfl, rfl, rfl, rfl, rfl⟩, [], (List.append_nil tr).symm, by simp⟩

/-- The next step of such a call. -/
theorem Outbound.step (h : Outbound r₀ tr₀ r tr) {r' : CtRelay} {es : List Effect}
    (hr : SameInboundSide r r') (hes : ∀ e ∈ es, e.elsewhere = true) :
    Outbound r₀ tr₀ r' (tr ++ es) := by
  obtain ⟨hside, es₀, rfl, hes₀⟩ := h
  refine ⟨⟨hr.closed.trans hside.closed, hr.encrypted.trans hside.encrypted,
    hr.pending.trans hside.pending, hr.remaining.trans hside.remaining,
    hr.toDirect.trans hside.toDirect, hr.workInput.trans hside.workInput⟩,
    es₀ ++ es, List.append_assoc _ _ _, ?_⟩
  intro e he
  rcases List.mem_append.mp he with he | he
  · exact hes₀ e he
  · exact hes e he

theorem Outbound.silent (h : Outbound r₀ tr₀ r tr) {r' : CtRelay} (hr : SameInboundSide r r') :
    Outbound r₀ tr₀ r' tr := by
  have hstep := h.step hr (fun e he => absurd he List.not_mem_nil)
  rwa [List.append_nil] at hstep

theorem append_toWork_outbound {p : Bytes} (h : Outbound r₀ tr₀ r tr) :
    (append .toWork p r).Ends tr (Outbound r₀ tr₀) (Outbound r₀ tr₀) := by
  have hend : Outbound r₀ tr₀ (append .toWork p r).state (tr ++ (append .toWork p r).effects) :=
    h.step ⟨rfl, rfl, rfl, rfl, rfl, rfl⟩ (by simp [append, Effect.elsewhere])
  exact .mk (fun _ => hend) (fun _ => hend)

theorem encryptChunk_outbound {p : Bytes} (h : Outbound r₀ tr₀ r tr) :
    (encryptChunk m p r).Ends tr (Outbound r₀ tr₀) (Outbound r₀ tr₀) := by
  unfold encryptChunk
  dsimp only
  split
  · exact .fail (h.step ⟨rfl, rfl, rfl, rfl, rfl, rfl⟩ (by simp))
  · split
    · exact .fail (h.step ⟨rfl, rfl, rfl, rfl, rfl, rfl⟩ (by simp [Effect.elsewhere]))
    · exact Outcome.Ends.andThen (Q := Outbound r₀ tr₀)
        (.emit (h.step ⟨rfl, rfl, rfl, rfl, rfl, rfl⟩ (by simp [Effect.elsewhere])))
        (fun _ _ h => append_toWork_outbound h)

/-- `read_direct` is about the other direction. -/
theorem readDirect_outbound {res : RecvResult} (h : Outbound r₀ tr₀ r tr) :
    (readDirect b m res r).Ends tr (Outbound r₀ tr₀) (Outbound r₀ tr₀) := by
  unfold readDirect
  split
  case h_2 => exact .done (h.silent ⟨rfl, rfl, rfl, rfl, rfl, rfl⟩)
  case h_3 => exact .done h
  case h_4 => exact .fail (h.step ⟨rfl, rfl, rfl, rfl, rfl, rfl⟩ (by simp))
  case h_1 bytes _ =>
    refine Outcome.Ends.andThen (Q := Outbound r₀ tr₀) (.emit ?_) ?_
    · refine h.step ⟨rfl, rfl, rfl, rfl, rfl, rfl⟩ ?_
      intro e he
      rcases List.mem_cons.mp he with rfl | he
      · rfl
      · rw [List.mem_singleton.mp he]
        exact Effect.elsewhere_of_quiet (metricBytes_quiet _ _ _)
    · intro r' tr' h'
      split
      · exact encryptChunk_outbound h'
      · exact append_toWork_outbound h'

theorem flush_toWork_outbound {res : SendResult} (h : Outbound r₀ tr₀ r tr) :
    (flush .toWork res r).Ends tr (Outbound r₀ tr₀) (Outbound r₀ tr₀) := by
  rcases flush_cases .toWork res r with he | he | ⟨z, he⟩ <;> rw [he]
  · exact .done h
  · exact .fail (h.step ⟨rfl, rfl, rfl, rfl, rfl, rfl⟩ (by simp))
  · exact .emit (h.step ⟨rfl, rfl, rfl, rfl, rfl, rfl⟩ (by simp [Effect.elsewhere]))

theorem syncBufferMetric_outbound (h : Outbound r₀ tr₀ r tr) :
    (syncBufferMetric b r).Ends tr (Outbound r₀ tr₀) (Outbound r₀ tr₀) :=
  .emit (h.step ⟨rfl, rfl, rfl, rfl, rfl, rfl⟩ fun e he =>
    Effect.elsewhere_of_quiet (syncBufferMetric_quiet b r e he))

end Outbound

/-! ## The invariant -/

/-- What came from the work side for the direct socket: the bytes read, or the
plaintext of the records they hold. -/
def inbound (mode : CtEncMode) (L : Ledger) : Bytes :=
  if mode = .required then plaintext L.opened else L.readWork

/-- An open relay, and the header that precedes what it forwards. -/
structure HeaderFlow (b : Build) (mode : CtEncMode) (header : Bytes) (r : CtRelay) (L : Ledger) :
    Prop where
  isOpen : r.closed = false
  encrypted : r.encrypted = true ↔ mode = .required
  available : mode = .required → b.dataEncryption = true
  preceded : Preceded header L.delivered L.sentDirect r.toDirect.queue r.proxyHeaderRemaining
    r.proxyHeaderPending
  received : L.delivered = inbound mode L
  inflow : mode = .required → L.readWork = wireBytes L.opened ++ r.workInput.queue

/-- What stays of it when the relay fails and is closed. -/
structure HeaderShown (mode : CtEncMode) (header : Bytes) (r : CtRelay) (L : Ledger) : Prop where
  sent : L.sentDirect <+: header ++ L.delivered
  remaining : r.proxyHeaderRemaining = header.length - L.sentDirect.length
  pending : r.proxyHeaderPending = decide (0 < r.proxyHeaderRemaining)
  received : L.delivered <+: inbound mode L
  inflow : mode = .required → wireBytes L.opened <+: L.readWork

section Steps

variable {b : Build} {m : Monocypher} {mode : CtEncMode} {header : Bytes} {r r' : CtRelay} {tr tr' : List Effect}

theorem HeaderFlow.shown {L : Ledger} (h : HeaderFlow b mode header r L) : HeaderShown mode header r L where
  sent := h.preceded.sent_prefix
  remaining := h.preceded.countdown
  pending := h.preceded.flag
  received := h.received ▸ List.prefix_refl _
  inflow := fun henc => h.inflow henc ▸ List.prefix_append _ _

theorem HeaderFlow.outbound (h : HeaderFlow b mode header r (ledger tr)) (hout : Outbound r tr r' tr') :
    HeaderFlow b mode header r' (ledger tr') := by
  obtain ⟨hside, es, rfl, hes⟩ := hout
  have hL := ledger_elsewhere tr hes
  refine ⟨hside.closed.trans h.isOpen, ?_, h.available, ?_, ?_, ?_⟩
  · rw [hside.encrypted]
    exact h.encrypted
  · rw [hL.delivered, hL.sentDirect, hside.toDirect, hside.remaining, hside.pending]
    exact h.preceded
  · rw [hL.delivered, inbound, hL.opened, hL.readWork]
    exact h.received
  · rw [hL.readWork, hL.opened, hside.workInput]
    exact h.inflow

/-- Closing a relay, and accounting for it. -/
theorem HeaderShown.quiet (h : HeaderShown mode header r (ledger tr)) {es : List Effect}
    (hes : ∀ e ∈ es, e.quiet = true)
    (hpending : r'.proxyHeaderPending = r.proxyHeaderPending)
    (hremaining : r'.proxyHeaderRemaining = r.proxyHeaderRemaining) :
    HeaderShown mode header r' (ledger (tr ++ es)) := by
  rw [ledger_append, ledger_quiet hes, Ledger.append_empty]
  refine ⟨h.sent, hremaining ▸ h.remaining, ?_, h.received, h.inflow⟩
  rw [hpending, hremaining]
  exact h.pending

/-- A call keeps the invariant of an open relay; if it fails, what it shows stays
right. -/
abbrev KeepsHeader (b : Build) (mode : CtEncMode) (header : Bytes) (op : CtRelay → RelayOutcome) : Prop :=
  Triple (fun r tr => HeaderFlow b mode header r (ledger tr)) op
    (fun r tr => HeaderFlow b mode header r (ledger tr)) (fun r tr => HeaderShown mode header r (ledger tr))

theorem keepsHeader_of_outbound {op : CtRelay → RelayOutcome}
    (hop : ∀ r tr, (op r).Ends tr (Outbound r tr) (Outbound r tr)) : KeepsHeader b mode header op :=
  fun r tr h => (hop r tr).weaken (fun _ _ hout => h.outbound hout)
    (fun _ _ hout => (h.outbound hout).shown)

/-- What a flush of `to_direct` sends of the header is taken off the counter. -/
theorem HeaderFlow.sent {z : Nat} (h : HeaderFlow b mode header r (ledger tr)) {remaining : Nat}
    {pending : Bool} (hrem : remaining =
      r.proxyHeaderRemaining - (r.toDirect.len - (ctRingConsume r.toDirect z).len))
    (hpend : pending = decide (0 < remaining)) :
    HeaderFlow b mode header
      { r with toDirect := ctRingConsume r.toDirect z
               proxyHeaderRemaining := remaining
               proxyHeaderPending := pending }
      (ledger (tr ++ [.sent .toDirect (r.toDirect.queue.take z)])) := by
  have hL : ledger (tr ++ [.sent .toDirect (r.toDirect.queue.take z)]) =
      { ledger tr with sentDirect := (ledger tr).sentDirect ++ r.toDirect.queue.take z } := by
    simp [ledger]
  have hsent : r.toDirect.len - (ctRingConsume r.toDirect z).len =
      min z r.toDirect.queue.length := by
    have hmin : min z r.toDirect.len ≤ r.toDirect.len := Nat.min_le_right _ _
    rw [ctRingConsume_len, r.toDirect.queue_length]
    omega
  have hdrain := h.preceded.drain z
  rw [← hsent, ← hrem, ← hpend, ← ctRingConsume_queue] at hdrain
  rw [hL]
  exact { h with preceded := hdrain }

theorem flushRelay_header (fd : Socket) (res : SendResult) :
    KeepsHeader b mode header (flushRelay fd res) := by
  intro r tr h
  have hflag := h.preceded.flag
  unfold flushRelay
  dsimp only
  by_cases hfd : fd = r.direct
  · have hring : r.flushRing fd = .toDirect := if_pos hfd
    rw [hring]
    cases hpending : r.proxyHeaderPending with
    | false =>
        have hrem : r.proxyHeaderRemaining = 0 := by
          rw [hpending] at hflag
          simpa using hflag.symm
        rw [Bool.false_and, if_neg (by decide)]
        rcases flush_cases .toDirect res r with he | he | ⟨z, he⟩ <;> rw [he]
        · exact .done h
        · exact .fail (by simpa using h.shown)
        · exact .emit (h.sent (by rw [hrem, Nat.zero_sub]) hflag)
    | true =>
        have hrem : 0 < r.proxyHeaderRemaining := by
          rw [hpending] at hflag
          simpa using hflag.symm
        rw [Bool.true_and, if_pos (by simpa using hfd)]
        rcases flush_cases .toDirect res r with he | he | ⟨z, he⟩ <;> rw [he]
        · have hnone : (r.ring .toDirect).len - (r.ring .toDirect).len = 0 := Nat.sub_self _
          show (if true = true then _ else _ : RelayOutcome).Ends _ _ _
          rw [if_pos rfl]
          show (if (r.ring .toDirect).len - (r.ring .toDirect).len ≥ _ then _ else _ :
            RelayOutcome).Ends _ _ _
          rw [hnone, if_neg (by omega)]
          exact .emit (by simpa using h)
        · exact .fail (h.shown.quiet (by simp [Effect.quiet]) rfl rfl)
        · show (if true = true then _ else _ : RelayOutcome).Ends _ _ _
          rw [if_pos rfl]
          show (if r.toDirect.len - (ctRingConsume r.toDirect z).len ≥ _ then _ else _ :
            RelayOutcome).Ends _ _ _
          split
          · exact .emit (h.sent (by omega) (by simp))
          · rename_i hmore
            have hleft : 0 < r.proxyHeaderRemaining -
                (r.toDirect.len - (ctRingConsume r.toDirect z).len) := by omega
            exact .emit (h.sent rfl (hpending.trans (decide_eq_true hleft).symm))
  · have hring : r.flushRing fd = .toWork := if_neg hfd
    rw [hring, if_neg (by simp [hfd])]
    exact keepsHeader_of_outbound (fun r tr => flush_toWork_outbound (.refl r tr)) r tr h

/-- A record that is opened is queued behind the header. -/
theorem decryptRecord_header {n : UInt32} {seq : UInt64} (h : HeaderFlow b mode header r (ledger tr))
    (henc : mode = .required) (hlen : 12 + n.toNat ≤ r.workInput.len)
    (hroom : n.toNat - ctAeadTag ≤ r.toDirect.room) :
    (decryptRecord m n seq r).Ends tr
      (fun r tr => HeaderFlow b mode header r (ledger tr) ∧ mode = .required)
      (fun r tr => HeaderShown mode header r (ledger tr)) := by
  have hreceived : (ledger tr).delivered = plaintext (ledger tr).opened := by
    rw [h.received, inbound, if_pos henc]
  cases hdec : ctAeadDecrypt m r.cipher r.recvKey r.recvNonce seq (r.recordCall n seq).ad
      (r.recordCall n seq).box with
  | none =>
      rw [decryptRecord_rejected hdec]
      refine .fail ?_
      have hL := @ledger_elsewhere tr
        [.aeadDecrypt (r.recordCall n seq) none, .inc .aeadFailuresTotal]
        (by simp [Effect.elsewhere])
      have hshown := h.shown
      refine ⟨?_, ?_, hshown.pending, ?_, ?_⟩
      · rw [hL.sentDirect, hL.delivered]
        exact hshown.sent
      · rw [hL.sentDirect]
        exact hshown.remaining
      · rw [hL.delivered, inbound, hL.opened, hL.readWork]
        exact hshown.received
      · rw [hL.opened, hL.readWork]
        exact hshown.inflow
  | some plain =>
      have hplain : plain.length ≤ r.toDirect.room :=
        Nat.le_trans (Nat.le_of_eq (CtRelay.recordCall_plain hlen hdec)) hroom
      rw [decryptRecord_opened hdec hplain]
      have hL : ledger (tr ++ [.aeadDecrypt (r.recordCall n seq) (some plain),
          .append .toDirect plain plain.length]) = { ledger tr with
            delivered := (ledger tr).delivered ++ plain
            opened := (ledger tr).opened ++ [(r.recordCall n seq, plain)] } := by
        simp [ledger]
      have hwire : (r.recordCall n seq).ad ++ (r.recordCall n seq).box ++
          (r.workInput.queue.drop 12).drop n.toNat = r.workInput.queue := by
        simp only [CtRelay.recordCall]
        rw [List.append_assoc, List.take_append_drop, List.take_append_drop]
      refine .emit ⟨?_, henc⟩
      rw [hL]
      refine { h with preceded := ?_, received := ?_, inflow := fun _ => ?_ }
      · have hpush := h.preceded.push plain
        rwa [← ctRingWrite_queue_of_room hplain] at hpush
      · show (ledger tr).delivered ++ plain =
          if mode = .required then plaintext ((ledger tr).opened ++ [_]) else _
        rw [if_pos henc, plaintext_snoc, hreceived]
      · show (ledger tr).readWork = wireBytes ((ledger tr).opened ++ [_]) ++ _
        rw [wireBytes_snoc, ctRingRead_queue, ctRingRead_queue, List.append_assoc, hwire]
        exact h.inflow henc

theorem decryptLoop_header (fuel : Nat) :
    Triple (fun r tr => HeaderFlow b mode header r (ledger tr) ∧ mode = .required)
      (decryptLoop b m fuel) (fun r tr => HeaderFlow b mode header r (ledger tr))
      (fun r tr => HeaderShown mode header r (ledger tr)) := by
  induction fuel with
  | zero => exact fun r tr h => .done h.1
  | succ fuel ih =>
      intro r tr h
      obtain ⟨h, henc⟩ := h
      unfold decryptLoop
      split
      · exact .done h
      · dsimp only
        split
        · exact .fail (h.outbound ((Outbound.refl r tr).step ⟨rfl, rfl, rfl, rfl, rfl, rfl⟩
            (by simp [Effect.elsewhere]))).shown
        · split
          · exact .done h
          · split
            · exact .done h
            · exact (decryptRecord_header h henc (by omega) (by omega)).andThen ih

theorem decryptReady_header :
    Triple (fun r tr => HeaderFlow b mode header r (ledger tr) ∧ mode = .required)
      (decryptReady b m) (fun r tr => HeaderFlow b mode header r (ledger tr))
      (fun r tr => HeaderShown mode header r (ledger tr)) :=
  fun r tr h => decryptLoop_header r.workInput.len r tr h

theorem drainRelay_header (fd : Socket) : KeepsHeader b mode header (drainRelay b m fd) := by
  intro r tr h
  unfold drainRelay
  split
  · rename_i hdrain
    simp only [Bool.and_eq_true] at hdrain
    exact decryptReady_header r tr ⟨h, h.encrypted.mp hdrain.1.2⟩
  · exact .done h

/-- What a read from the work socket adds to the ledger. -/
theorem ledger_readWork (tr : List Effect) (r : CtRelay) (bytes : Bytes) (source : Socket) (n : Nat) :
    ledger (tr ++ [.recv .work bytes, metricBytes r source n]) =
      { ledger tr with readWork := (ledger tr).readWork ++ bytes } := by
  rw [ledger_recv]
  simp [ledger, Ledger.append]

/-- Bytes of an encrypted stream wait in `work_input`. -/
theorem queueWork_header {bytes : Bytes} {L : Ledger} (h : HeaderFlow b mode header r L)
    (henc : mode = .required) (htr : ledger tr = { L with readWork := L.readWork ++ bytes }) :
    (append .workInput bytes r).Ends tr
      (fun r tr => HeaderFlow b mode header r (ledger tr) ∧ mode = .required)
      (fun r tr => HeaderShown mode header r (ledger tr)) := by
  have hL : ∀ taken, ledger (tr ++ [.append .workInput bytes taken]) = ledger tr := by
    intro taken
    rw [ledger_append]
    simp [ledger, Ledger.append]
  have hreceived : L.delivered = plaintext L.opened := by
    rw [h.received, inbound, if_pos henc]
  rcases Nat.lt_or_ge (r.ring .workInput).room bytes.length with hroom | hroom
  · rw [append_of_no_room hroom]
    refine .fail ?_
    rw [hL, htr]
    refine ⟨h.preceded.sent_prefix, h.preceded.countdown, h.preceded.flag, ?_, fun _ => ?_⟩
    · show L.delivered <+: if mode = .required then plaintext L.opened else _
      rw [if_pos henc, hreceived]
    · show wireBytes L.opened <+: L.readWork ++ bytes
      rw [h.inflow henc, List.append_assoc]
      exact List.prefix_append _ _
  · rw [append_of_room hroom]
    refine .emit ⟨?_, henc⟩
    rw [hL, htr]
    refine { h with received := ?_, inflow := fun _ => ?_ }
    · show L.delivered = if mode = .required then plaintext L.opened else _
      rw [if_pos henc, hreceived]
    · have hq : (ctRingWrite r.workInput bytes).1.queue = r.workInput.queue ++ bytes :=
        ctRingWrite_queue_of_room hroom
      show L.readWork ++ bytes = wireBytes L.opened ++ (ctRingWrite r.workInput bytes).1.queue
      rw [hq, h.inflow henc, List.append_assoc]

/-- Bytes of a raw stream go behind the header. -/
theorem queueDirect_header {bytes : Bytes} {L : Ledger} (h : HeaderFlow b mode header r L)
    (hraw : mode ≠ .required) (htr : ledger tr = { L with readWork := L.readWork ++ bytes }) :
    (append .toDirect bytes r).Ends tr (fun r tr => HeaderFlow b mode header r (ledger tr))
      (fun r tr => HeaderShown mode header r (ledger tr)) := by
  have hL : ∀ taken, ledger (tr ++ [.append .toDirect bytes taken]) =
      { L with readWork := L.readWork ++ bytes, delivered := L.delivered ++ bytes.take taken } := by
    intro taken
    rw [ledger_append, htr]
    simp [ledger, Ledger.append]
  have hreceived : L.delivered = L.readWork := by
    rw [h.received, inbound, if_neg hraw]
  rcases Nat.lt_or_ge (r.ring .toDirect).room bytes.length with hroom | hroom
  · rw [append_of_no_room hroom]
    refine .fail ?_
    rw [hL]
    refine ⟨?_, h.preceded.countdown, h.preceded.flag, ?_, fun henc => ?_⟩
    · show L.sentDirect <+: header ++ (L.delivered ++ _)
      rw [← List.append_assoc]
      exact h.preceded.sent_prefix.trans (List.prefix_append _ _)
    · show L.delivered ++ _ <+: if mode = .required then _ else L.readWork ++ bytes
      rw [if_neg hraw, hreceived]
      exact (List.prefix_append_right_inj _).mpr (List.take_prefix _ _)
    · exact absurd henc hraw
  · rw [append_of_room hroom]
    refine .emit ?_
    rw [hL, List.take_length]
    refine { h with preceded := ?_, received := ?_, inflow := fun henc => ?_ }
    · have hq : (ctRingWrite r.toDirect bytes).1.queue = r.toDirect.queue ++ bytes :=
        ctRingWrite_queue_of_room hroom
      have hpush := h.preceded.push bytes
      rwa [← hq] at hpush
    · show L.delivered ++ bytes = if mode = .required then _ else L.readWork ++ bytes
      rw [if_neg hraw, hreceived]
    · exact absurd henc hraw

theorem readWork_header (res : RecvResult) : KeepsHeader b mode header (readWork b m res) := by
  intro r tr h
  unfold readWork
  split
  case h_2 => exact .done { h with }
  case h_3 => exact .done h
  case h_4 => exact .fail (by simpa using h.shown)
  case h_1 bytes _ =>
    refine Outcome.Ends.andThen (Q := fun r' tr' => r' = r ∧
      ledger tr' = { ledger tr with readWork := (ledger tr).readWork ++ bytes })
      (.emit ⟨rfl, ledger_readWork tr r bytes r.work bytes.length⟩) ?_
    rintro r' tr' ⟨rfl, htr'⟩
    cases henc : r'.encrypted with
    | true =>
        have hmode := h.encrypted.mp henc
        rw [h.available hmode, Bool.and_self, if_pos rfl]
        exact (queueWork_header h hmode htr').andThen decryptReady_header
    | false =>
        rw [Bool.and_false, if_neg (by decide)]
        have hmode : mode ≠ .required := fun hmode =>
          absurd (henc.symm.trans (h.encrypted.mpr hmode)) (by decide)
        exact queueDirect_header h hmode htr'

theorem relayBody_header (fd : Socket) (ev : EvMask) (io : RelayIo) :
    KeepsHeader b mode header (relayBody b m fd ev io) := by
  have hsync : KeepsHeader b mode header (syncBufferMetric b) :=
    keepsHeader_of_outbound (fun r tr => syncBufferMetric_outbound (.refl r tr))
  refine relayBody_ends hsync (fun _ => flushRelay_header fd io.send)
    (fun _ => drainRelay_header fd) ?_ (fun _ r tr h => h) hsync
  intro _ r tr h
  beta_reduce
  split
  · exact keepsHeader_of_outbound (fun r tr => readDirect_outbound (.refl r tr)) r tr h
  · exact readWork_header io.recv r tr h

end Steps

/-! ## Runs -/

/-- The invariant of a relay over its whole life. -/
def HeaderInv (b : Build) (mode : CtEncMode) (header : Bytes) (r : CtRelay)
    (tr : List Effect) : Prop :=
  HeaderFlow b mode header r (ledger tr) ∨ r.closed = true ∧ HeaderShown mode header r (ledger tr)

section Runs

variable {b : Build} {m : Monocypher} {mode : CtEncMode} {header : Bytes} {r : CtRelay} {tr : List Effect}

theorem HeaderInv.shown (h : HeaderInv b mode header r tr) : HeaderShown mode header r (ledger tr) := by
  rcases h with h | ⟨-, h⟩
  · exact h.shown
  · exact h

theorem HeaderShown.close (h : HeaderShown mode header r (ledger tr)) :
    HeaderInv b mode header (ctRelayClose b r).state (tr ++ (ctRelayClose b r).effects) :=
  .inr ⟨rfl, h.quiet (ctRelayClose_quiet b r) rfl rfl⟩

theorem relayCall_header (r : CtRelay) (tr : List Effect) (call : RelayCall)
    (h : HeaderInv b mode header r tr) :
    HeaderInv b mode header (relayCall b m call r).state (tr ++ (relayCall b m call r).effects) := by
  cases call with
  | close => exact h.shown.close
  | process fd ev io =>
      simp only [relayCall, ctRelayProcess]
      rcases h with h | ⟨hclosed, h⟩
      · rw [h.isOpen, if_neg (by decide)]
        have hbody := relayBody_header (m := m) fd ev io r tr h
        generalize relayBody b m fd ev io r = o at hbody
        cases hok : o.ok with
        | true =>
            have hflow := hbody.of_ok hok
            have hquiet := relayShutdowns_quiet o.state
            have hL : ledger (tr ++ (o.effects ++ relayShutdowns o.state)) =
                ledger (tr ++ o.effects) := by
              rw [← List.append_assoc, ledger_append _ (relayShutdowns _), ledger_quiet hquiet,
                Ledger.append_empty]
            rw [if_pos rfl]
            split
            · simp only [Outcome.fail_state, Outcome.fail_effects]
              rw [← List.append_assoc]
              exact HeaderShown.close (hL ▸ hflow.shown)
            · exact .inl (hL ▸ hflow)
        | false =>
            rw [if_neg (by decide)]
            simp only [Outcome.fail_state, Outcome.fail_effects]
            rw [← List.append_assoc, ← List.append_assoc]
            exact HeaderShown.close ((hbody.of_not_ok hok).quiet (by simp [Effect.quiet]) rfl rfl)
      · rw [hclosed, if_pos rfl]
        refine .inr ⟨hclosed, ?_⟩
        simpa using h

theorem relayRuns_header (calls : List RelayCall) (h : HeaderInv b mode header r []) :
    HeaderInv b mode header (runs (relayCall b m) r calls).1 (runs (relayCall b m) r calls).2 :=
  runs_keeps (fun r tr call => relayCall_header r tr call) calls h

end Runs

/-! ## The header of a new relay -/

/-- A header is never empty. -/
theorem ctProxyProtocolBuildV1_ne_nil {b : Build} {cap : Nat} {md : CtStreamMetadata}
    {header : Bytes} (h : ctProxyProtocolBuildV1 b cap md = some header) : header ≠ [] := by
  obtain ⟨-, h⟩ := Option.ite_none_left_eq_some.mp h
  cases hpair : normalizePair md with
  | none =>
      rw [hpair] at h
      exact absurd h (by simp)
  | some pair =>
      rw [hpair] at h
      obtain ⟨-, h⟩ := Option.ite_none_left_eq_some.mp h
      injection h with h
      rw [← h]
      exact List.append_ne_nil_of_right_ne_nil _ (by simp)

theorem ctProxyProtocolBuildV2_ne_nil {b : Build} {cap : Nat} {md : CtStreamMetadata}
    {header : Bytes} (h : ctProxyProtocolBuildV2 b cap md = some header) : header ≠ [] := by
  obtain ⟨-, h⟩ := Option.ite_none_left_eq_some.mp h
  cases hpair : normalizePair md with
  | none =>
      rw [hpair] at h
      exact absurd h (by simp)
  | some pair =>
      rw [hpair] at h
      obtain ⟨-, h⟩ := Option.ite_none_left_eq_some.mp h
      injection h with h
      rw [← h]
      exact List.append_ne_nil_of_right_ne_nil _ (List.ne_nil_of_length_pos (by simp))

theorem ctProxyProtocolBuild_ne_nil {b : Build} {cap : Nat} {md : CtStreamMetadata} {header : Bytes}
    (hmode : md.proxyProtocol ≠ .off)
    (h : ctProxyProtocolBuild b cap (some md) = some header) : header ≠ [] := by
  unfold ctProxyProtocolBuild at h
  dsimp only at h
  cases hm : md.proxyProtocol with
  | off => exact absurd hm hmode
  | v1 =>
      rw [hm] at h
      exact ctProxyProtocolBuildV1_ne_nil h
  | v2 =>
      rw [hm] at h
      exact ctProxyProtocolBuildV2_ne_nil h

/-- The header `ct_relay_init` makes for a client's stream. Without the feature
there is no code for one. -/
def relayHeader (b : Build) (md : CtStreamMetadata) : Option Bytes :=
  if b.proxyProtocol then ctProxyProtocolBuild b ctProxyProtocolMaxHeader (some md) else some []

section Init

variable {b : Build} {m : Monocypher} {alloc : RelayAlloc} {cipher : CtCipher}
  {master : Octets 32} {c : StreamContext} {direct work : Socket} {md : CtStreamMetadata}

/-- The rings of a new relay are empty, and nothing has happened yet. -/
theorem relayInitBuffers_unsent :
    (relayInitBuffers b m alloc cipher master c (.zero direct work true)).Ends []
      (fun r tr => tr = [] ∧ r.isClient = true ∧ r.toDirect.queue = [] ∧
        r.proxyHeaderRemaining = 0 ∧ r.proxyHeaderPending = false)
      (fun _ tr => tr = []) := by
  unfold relayInitBuffers
  split
  · dsimp only
    split
    · exact .fail rfl
    · rename_i toDirect hd
      have hblank := (ctRingInit_queue hd).1
      split
      · exact .fail rfl
      · split
        · exact .fail rfl
        · split
          · split
            · exact .done ⟨rfl, rfl, hblank, rfl, rfl⟩
            · exact .fail rfl
          · exact .done ⟨rfl, rfl, hblank, rfl, rfl⟩
  · split
    · exact .fail rfl
    · split
      · exact .fail rfl
      · rename_i toDirect hd
        dsimp only
        split
        · exact .fail rfl
        · exact .done ⟨rfl, rfl, (ctRingInit_queue hd).1, rfl, rfl⟩

/-- The header is queued, or the relay is not opened. -/
theorem relayInitProxy_header {r : CtRelay} (hmode : md.proxyProtocol ≠ .off)
    (hr : HeaderFlow b c.mode [] r (ledger [])) (hclient : r.isClient = true) :
    (relayInitProxy b (some md) r).Ends []
      (fun r tr => (ledger tr).sentDirect = [] ∧
        ∃ header, relayHeader b md = some header ∧ HeaderFlow b c.mode header r (ledger []))
      (fun _ tr => (ledger tr).sentDirect = []) := by
  have hqueue : r.toDirect.queue = [] := hr.preceded.content.symm
  unfold relayInitProxy relayHeader
  dsimp only
  cases hb : b.proxyProtocol with
  | false =>
      rw [if_neg (by simp)]
      exact .emit ⟨by split <;> rfl, [], rfl, hr⟩
  | true =>
      rw [if_pos (by simp [hclient, hmode]), if_pos rfl]
      cases hbuild : ctProxyProtocolBuild b ctProxyProtocolMaxHeader (some md) with
      | none => exact .fail rfl
      | some header =>
          dsimp only
          split
          · rename_i hok
            refine .emit ⟨rfl, header, rfl, ?_⟩
            have hroom : header.length ≤ r.toDirect.room := by
              have htaken : min header.length r.toDirect.room = header.length :=
                beq_iff_eq.mp hok
              omega
            have hpos : 0 < header.length :=
              List.length_pos_of_ne_nil (ctProxyProtocolBuild_ne_nil hmode hbuild)
            refine { hr with preceded := ?_ }
            show Preceded header [] [] (ctRingWrite r.toDirect header).1.queue header.length true
            rw [ctRingWrite_queue_of_room hroom, hqueue, List.nil_append]
            exact .start header (decide_eq_true hpos).symm
          · exact .fail rfl

theorem ctRelayInit_header (hmode : md.proxyProtocol ≠ .off) :
    (ctRelayInit b m alloc direct work true cipher master c (some md)).Ends []
      (fun r tr => (ledger tr).sentDirect = [] ∧
        ∃ header, relayHeader b md = some header ∧ HeaderInv b c.mode header r [])
      (fun r tr => (ledger tr).sentDirect = [] ∧ r.closed = true) := by
  have hfresh : (relayInitBuffers b m alloc cipher master c (.zero direct work true)).Ends []
      (fun r _ => FreshRelay b m direct work true cipher master c r) (fun _ _ => True) :=
    relayInitBuffers_ends []
  have hunsent : (relayInitBuffers b m alloc cipher master c (.zero direct work true)).Ends []
      (fun r tr => tr = [] ∧ r.isClient = true ∧ r.toDirect.queue = [] ∧
        r.proxyHeaderRemaining = 0 ∧ r.proxyHeaderPending = false)
      (fun _ tr => tr = []) := relayInitBuffers_unsent
  have hclosed : ∀ (r : CtRelay) {es : List Effect}, (ledger es).sentDirect = [] →
      (ledger ([] ++ (es ++ (ctRelayClose b r).effects))).sentDirect = [] := by
    intro r es hes
    rw [List.nil_append, ledger_append, ledger_quiet (ctRelayClose_quiet b r),
      Ledger.append_empty]
    exact hes
  unfold ctRelayInit
  generalize relayInitBuffers b m alloc cipher master c (.zero direct work true) = o
    at hfresh hunsent
  cases hok : o.ok with
  | false =>
      have hnone : o.effects = [] := hunsent.of_not_ok hok
      rw [Outcome.andThen_of_not_ok _ hok]
      dsimp only
      rw [hok]
      exact .fail ⟨hclosed o.state (by rw [hnone]; rfl), rfl⟩
  | true =>
      obtain ⟨hnone, hclient, hqueue, hrem, hpend⟩ := hunsent.of_ok hok
      have hnew := hfresh.of_ok hok
      rw [List.nil_append] at hnone
      rw [Outcome.andThen_of_ok _ hok, hnone, List.nil_append]
      have hblank : HeaderFlow b c.mode [] o.state (ledger []) :=
        { isOpen := hnew.isOpen
          encrypted := by
            rw [hnew.encrypted, Bool.and_eq_true, beq_iff_eq]
            exact ⟨fun henc => henc.2, fun hreq => ⟨hnew.available hreq, hreq⟩⟩
          available := hnew.available
          preceded := by
            rw [hqueue, hrem, hpend]
            exact .start [] rfl
          received := by
            unfold inbound
            split <;> rfl
          inflow := fun _ => by
            have hempty : o.state.workInput.queue = [] :=
              List.eq_nil_of_length_eq_zero (by simp [hnew.workInput.1])
            rw [hempty]
            rfl }
      have hproxy := relayInitProxy_header hmode hblank hclient
      generalize relayInitProxy b (some md) o.state = x at hproxy
      dsimp only
      cases hx : x.ok with
      | false => exact .fail ⟨hclosed x.state (hproxy.of_not_ok hx), rfl⟩
      | true =>
          obtain ⟨hsent, header, hheader, hflow⟩ := hproxy.of_ok hx
          refine .emit ⟨?_, header, hheader, .inl { hflow with }⟩
          have hquiet : ledger [.inc .streamsOpenedTotal, .inc .activeStreams, .inc .workActive] =
              .empty := ledger_quiet (by simp [Effect.quiet])
          rw [← List.append_assoc, ledger_append, hquiet, Ledger.append_empty]
          exact hsent

end Init

/-- `ct_relay_init` of a client relay with a PROXY Protocol mode, and any calls after
it. If the relay is opened, what is sent on the direct socket is a front part of
the header followed by what came from the work side, and the counter is what is
missing of the header. If the header cannot be built or queued, nothing is sent. -/
theorem proxy_header_first (b : Build) (m : Monocypher) (alloc : RelayAlloc) (direct work : Socket)
    (cipher : CtCipher) (master : Octets 32) (c : StreamContext) (md : CtStreamMetadata)
    (hmode : md.proxyProtocol ≠ .off) (calls : List RelayCall) :
    let o := ctRelayInit b m alloc direct work true cipher master c (some md)
    let run := runs (relayCall b m) o.state calls
    let L := ledger run.2
    (ledger o.effects).sentDirect = [] ∧ (relayHeader b md = none → o.ok = false) ∧
    (o.ok = false → L.sentDirect = []) ∧
    (o.ok = true → ∃ header, relayHeader b md = some header ∧
      L.sentDirect <+: header ++ inbound c.mode L ∧
      run.1.proxyHeaderRemaining = header.length - L.sentDirect.length ∧
      (run.1.proxyHeaderPending = true ↔ 0 < run.1.proxyHeaderRemaining) ∧
      (c.mode = .required → wireBytes L.opened <+: L.readWork ∧
        ∀ x ∈ L.opened, OpenedUnder m o.state.keys x)) := by
  have hinit : (ctRelayInit b m alloc direct work true cipher master c (some md)).Ends []
      (fun r tr => (ledger tr).sentDirect = [] ∧
        ∃ header, relayHeader b md = some header ∧ HeaderInv b c.mode header r [])
      (fun r tr => (ledger tr).sentDirect = [] ∧ r.closed = true) :=
    ctRelayInit_header hmode
  have hfresh : (ctRelayInit b m alloc direct work true cipher master c (some md)).Ends []
      (fun r _ => FreshRelay b m direct work true cipher master c r) (fun r _ => r.closed = true) :=
    ctRelayInit_ends (some md) []
  dsimp only
  generalize ctRelayInit b m alloc direct work true cipher master c (some md) = o at hinit hfresh
  cases hok : o.ok with
  | false =>
      obtain ⟨hsent, hclosed⟩ := hinit.of_not_ok hok
      have hnone : (runs (relayCall b m) o.state calls).2 = [] := relayRuns_closed hclosed calls
      exact ⟨hsent, fun _ => rfl, fun _ => by rw [hnone]; rfl, fun h => absurd h (by decide)⟩
  | true =>
      obtain ⟨hsent, header, hheader, hinv⟩ := hinit.of_ok hok
      have hshown := (relayRuns_header (m := m) calls hinv).shown
      refine ⟨hsent, fun hno => absurd (hheader.symm.trans hno) (by simp),
        fun h => absurd h (by decide), fun _ => ⟨header, hheader, ?_, hshown.remaining, ?_, ?_⟩⟩
      · obtain ⟨rest, hrest⟩ := hshown.received
        rw [← hrest, ← List.append_assoc]
        exact hshown.sent.trans (List.prefix_append _ _)
      · rw [hshown.pending]
        exact decide_eq_true_iff
      · intro hreq
        have hflow := relayRuns_inv calls ((hfresh.of_ok hok).relayInv hreq)
        exact ⟨hshown.inflow hreq, hflow.afterFailure.1.openedUnder⟩

/-! ## A proxied stream -/

/-- A v2 header from 192.0.2.1:4000 to 192.0.2.2:443. -/
def proxiedMetadata : CtStreamMetadata where
  proxyProtocol := .v2
  source := ⟨4, octets 16 0xc0000201000000000000000000000000, 4000⟩
  destination := ⟨4, octets 16 0xc0000202000000000000000000000000, 443⟩

/-- The mini build with v2 headers. -/
def proxiedBuild : Build :=
  { miniBuild with
    proxyProtocol := true
    proxyProtocolV2 := true
    proxyV1_depends := fun _ => rfl
    proxyV2_depends := fun _ => rfl }

def proxiedOpen : RelayOutcome :=
  ctRelayInit proxiedBuild noCrypto ⟨true, true, true⟩ 3 4 true .none (.replicate 32 0)
    (webContext .disabled) (some proxiedMetadata)

/-- A send of 20 bytes, a read from the work socket, a send of 9 more. -/
def proxiedCalls : List RelayCall :=
  [.process 3 ⟨false, true, false, false⟩ ⟨.sent 20, .wouldBlock⟩,
    .process 4 ⟨true, false, false, false⟩ ⟨.wouldBlock, .data (ascii "hi")⟩,
    .process 3 ⟨false, true, false, false⟩ ⟨.sent 9, .wouldBlock⟩]

theorem proxied_header_first :
    let run := runs (relayCall proxiedBuild noCrypto) proxiedOpen.state proxiedCalls
    ∃ header, relayHeader proxiedBuild proxiedMetadata = some header ∧ header.length = 28 ∧
      (ledger run.2).sentDirect <+: header ++ inbound .disabled (ledger run.2) ∧
      run.1.proxyHeaderRemaining = 28 - (ledger run.2).sentDirect.length := by
  have hall := proxy_header_first proxiedBuild noCrypto ⟨true, true, true⟩ 3 4 .none
    (.replicate 32 0) (webContext .disabled) proxiedMetadata (by decide) proxiedCalls
  have hok : proxiedOpen.ok = true := by decide +kernel
  have hlength : (relayHeader proxiedBuild proxiedMetadata).map List.length = some 28 := by
    decide +kernel
  unfold proxiedOpen at *
  obtain ⟨-, -, -, hopened⟩ := hall
  obtain ⟨header, hheader, hprefix, hremaining, -⟩ := hopened hok
  rw [hheader] at hlength
  have hlen : header.length = 28 := Option.some.inj hlength
  exact ⟨header, hheader, hlen, hprefix, hlen ▸ hremaining⟩

end Ctunnel
