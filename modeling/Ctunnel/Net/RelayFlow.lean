import Ctunnel.Lib.Numbered
import Ctunnel.Net.Relay

/-!
# Byte flow through an encrypted relay

The invariant behind every statement about what an encrypted relay forwards.
It relates the three rings and the two sequence counters to the trace:

* what was read from the direct socket is the plaintext of the sealed records,
  and the sealed records are what was sent on the work socket followed by the
  content of `to_work`;
* what was read from the work socket is the opened records followed by the
  content of `work_input`, and their plaintext (behind the PROXY header) is what
  was sent on the direct socket followed by the content of `to_direct`;
* sealed and opened records are numbered `1, 2, 3, …` up to `send_seq` and
  `recv_seq`.

`RecordFlow` is what remains true of the trace once the relay has failed and is
closed; `RelayFlow` is the whole invariant of an open relay.
-/

namespace Ctunnel

open Lib

/-! ## What a trace shows -/

/-- A DATA record as the AEAD saw it: the call and the plaintext. -/
abbrev Record := AeadCall × Bytes

@[simp] def Effect.readBytes (side : Side) : Effect → Bytes
  | .recv s bytes => if s = side then bytes else []
  | _ => []

@[simp] def Effect.sentBytes (ring : RingId) : Effect → Bytes
  | .sent g bytes => if g = ring then bytes else []
  | _ => []

/-- The application bytes an effect puts into `to_direct`. -/
@[simp] def Effect.deliveredBytes : Effect → Bytes
  | .append .toDirect src taken => src.take taken
  | _ => []

@[simp] def Effect.sealedRecord : Effect → Option Record
  | .aeadEncrypt call plain => some (call, plain)
  | _ => none

@[simp] def Effect.openedRecord : Effect → Option Record
  | .aeadDecrypt call (some plain) => some (call, plain)
  | _ => none

/-- The mark every rejected record leaves in the trace. -/
@[simp] def Effect.isRejection : Effect → Bool
  | .metricAdd .aeadFailuresTotal _ => true
  | _ => false

/-- A trace, summed up. -/
structure Ledger where
  readDirect : Bytes
  readWork : Bytes
  sentDirect : Bytes
  sentWork : Bytes
  delivered : Bytes
  sealed : List Record
  opened : List Record
  rejections : Nat

def ledger (tr : List Effect) : Ledger where
  readDirect := tr.flatMap (Effect.readBytes .direct)
  readWork := tr.flatMap (Effect.readBytes .work)
  sentDirect := tr.flatMap (Effect.sentBytes .toDirect)
  sentWork := tr.flatMap (Effect.sentBytes .toWork)
  delivered := tr.flatMap Effect.deliveredBytes
  sealed := tr.filterMap Effect.sealedRecord
  opened := tr.filterMap Effect.openedRecord
  rejections := tr.countP Effect.isRejection

/-- Two stretches of a trace, one after the other. -/
def Ledger.append (L L' : Ledger) : Ledger where
  readDirect := L.readDirect ++ L'.readDirect
  readWork := L.readWork ++ L'.readWork
  sentDirect := L.sentDirect ++ L'.sentDirect
  sentWork := L.sentWork ++ L'.sentWork
  delivered := L.delivered ++ L'.delivered
  sealed := L.sealed ++ L'.sealed
  opened := L.opened ++ L'.opened
  rejections := L.rejections + L'.rejections

def Ledger.empty : Ledger := ⟨[], [], [], [], [], [], [], 0⟩

theorem ledger_append (a b : List Effect) : ledger (a ++ b) = (ledger a).append (ledger b) := by
  simp [ledger, Ledger.append]

@[simp] theorem Ledger.append_empty (L : Ledger) : L.append .empty = L := by
  simp [Ledger.append, Ledger.empty]

def plaintext (l : List Record) : Bytes := l.flatMap fun x => x.2

/-- The records as they travel: header and box. -/
def wireBytes (l : List Record) : Bytes := l.flatMap fun x => x.1.ad ++ x.1.box

@[simp] theorem plaintext_snoc (l : List Record) (x : Record) :
    plaintext (l ++ [x]) = plaintext l ++ x.2 := by
  simp [plaintext]

theorem plaintext_prefix {l l' : List Record} (h : l <+: l') : plaintext l <+: plaintext l' := by
  obtain ⟨rest, rfl⟩ := h
  simp [plaintext]

@[simp] theorem wireBytes_snoc (l : List Record) (x : Record) :
    wireBytes (l ++ [x]) = wireBytes l ++ (x.1.ad ++ x.1.box) := by
  simp [wireBytes]

/-! ## Effects that move no bytes -/

/-- Accounting and closing. -/
def Effect.quiet : Effect → Bool
  | .metricAdd id _ => id != .aeadFailuresTotal
  | .metricSub .. => true
  | .socketClose _ => true
  | .shutdownWrite _ => true
  | _ => false

/-- Quiet effects do not show in the ledger. -/
theorem ledger_quiet {es : List Effect} (h : ∀ e ∈ es, e.quiet = true) : ledger es = .empty := by
  induction es with
  | nil => rfl
  | cons e es ih =>
      have he := h e List.mem_cons_self
      have hes := ih fun e' he' => h e' (List.mem_cons_of_mem _ he')
      have hone : ledger [e] = .empty := by
        cases e with
        | metricAdd id value => cases id <;> first | rfl | exact absurd he (by simp [Effect.quiet])
        | metricSub | socketClose | shutdownWrite => rfl
        | _ => exact absurd he (by simp [Effect.quiet])
      have happ := ledger_append [e] es
      rw [hone, hes] at happ
      simpa using happ

theorem metricBytes_quiet (r : CtRelay) (source : Socket) (n : Nat) :
    (metricBytes r source n).quiet = true := by
  simp only [metricBytes, Effect.quiet]
  split <;> split <;> rfl

/-- The effects of a read, of which only the bytes show. -/
theorem ledger_recv (tr : List Effect) (side : Side) (bytes : Bytes) (r : CtRelay)
    (source : Socket) (n : Nat) :
    ledger (tr ++ [.recv side bytes, metricBytes r source n]) =
      (ledger tr).append (ledger [.recv side bytes]) := by
  have hquiet : ∀ e ∈ [metricBytes r source n], e.quiet = true := by
    intro e he
    rw [List.mem_singleton.mp he]
    exact metricBytes_quiet r source n
  rw [← List.singleton_append, ledger_append, ledger_append, ledger_quiet hquiet,
    Ledger.append_empty]

theorem syncBufferMetric_quiet (b : Build) (r : CtRelay) :
    ∀ e ∈ (syncBufferMetric b r).effects, e.quiet = true := by
  intro e he
  simp only [syncBufferMetric, Outcome.emit_effects, List.mem_singleton] at he
  subst he
  split <;> rfl

theorem ctRelayClose_quiet (b : Build) (r : CtRelay) :
    ∀ e ∈ (ctRelayClose b r).effects, e.quiet = true := by
  intro e he
  simp only [ctRelayClose, Outcome.emit_effects, List.mem_append] at he
  rcases he with he | he
  · split at he
    · simp only [List.mem_append, List.mem_cons, List.not_mem_nil, or_false] at he
      rcases he with he | rfl | rfl | rfl | rfl
      · exact syncBufferMetric_quiet b r e he
      all_goals rfl
    · exact absurd he (by simp)
  · split at he
    · simp only [List.mem_cons, List.not_mem_nil, or_false] at he
      rcases he with rfl | rfl <;> rfl
    · exact absurd he (by simp)

theorem relayShutdowns_quiet (r : CtRelay) : ∀ e ∈ relayShutdowns r, e.quiet = true := by
  intro e he
  simp only [relayShutdowns, List.mem_append] at he
  rcases he with he | he <;> split at he <;> simp_all [Effect.quiet]

/-! ## The invariant -/

/-- The keys of one relay end. -/
structure RelayKeys where
  cipher : CtCipher
  sendKey : Octets 32
  sendNonce : Octets 16
  recvKey : Octets 32
  recvNonce : Octets 16

def CtRelay.keys (r : CtRelay) : RelayKeys :=
  ⟨r.cipher, r.sendKey, r.sendNonce, r.recvKey, r.recvNonce⟩

/-- The number a record carries. -/
def seqNo (x : Record) : Nat := x.1.sequence.toNat

/-- A record is a box made under the sending keys. -/
def SealedUnder (m : Monocypher) (K : RelayKeys) (x : Record) : Prop :=
  x.1.key = K.sendKey ∧ x.1.base = K.sendNonce ∧
    ctAeadEncrypt m K.cipher x.1.key x.1.base x.1.sequence x.1.ad x.2 = some x.1.box

/-- A record is a box opened under the receiving keys. -/
def OpenedUnder (m : Monocypher) (K : RelayKeys) (x : Record) : Prop :=
  x.1.key = K.recvKey ∧ x.1.base = K.recvNonce ∧
    ctAeadDecrypt m K.cipher x.1.key x.1.base x.1.sequence x.1.ad x.1.box = some x.2

/-- Nothing is delivered after a rejected record. -/
def SilentAfterRejection (tr : List Effect) : Prop :=
  ∀ before e after, tr = before ++ e :: after → e.isRejection = true →
    (ledger after).delivered = []

/-- What the ledger of a relay shows, whether or not the relay is still open. -/
structure RecordFlow (m : Monocypher) (K : RelayKeys) (L : Ledger) : Prop where
  sealedNumbered : Numbered seqNo L.sealed
  sealedUnder : ∀ x ∈ L.sealed, SealedUnder m K x
  openedNumbered : Numbered seqNo L.opened
  openedUnder : ∀ x ∈ L.opened, OpenedUnder m K x
  fed : plaintext L.sealed <+: L.readDirect
  delivered : L.delivered <+: plaintext L.opened

/-- The invariant of an open encrypted relay; `header` is the PROXY header
queued before the first application byte. -/
structure RelayFlow (m : Monocypher) (K : RelayKeys) (header : Bytes) (r : CtRelay)
    (L : Ledger) : Prop where
  isOpen : r.closed = false
  encrypted : r.encrypted = true
  keys : r.keys = K
  sealedNumbered : Numbered seqNo L.sealed
  sealedUnder : ∀ x ∈ L.sealed, SealedUnder m K x
  openedNumbered : Numbered seqNo L.opened
  openedUnder : ∀ x ∈ L.opened, OpenedUnder m K x
  sendSeq : L.sealed.length = r.sendSeq.toNat
  recvSeq : L.opened.length = r.recvSeq.toNat
  intake : L.readDirect = plaintext L.sealed
  outflow : wireBytes L.sealed = L.sentWork ++ r.toWork.queue
  inflow : L.readWork = wireBytes L.opened ++ r.workInput.queue
  handed : L.delivered = plaintext L.opened
  delivery : header ++ plaintext L.opened = L.sentDirect ++ r.toDirect.queue
  unrejected : L.rejections = 0

theorem RelayFlow.recordFlow {m : Monocypher} {K : RelayKeys} {header : Bytes} {r : CtRelay}
    {L : Ledger} (h : RelayFlow m K header r L) : RecordFlow m K L where
  sealedNumbered := h.sealedNumbered
  sealedUnder := h.sealedUnder
  openedNumbered := h.openedNumbered
  openedUnder := h.openedUnder
  fed := h.intake ▸ List.prefix_rfl
  delivered := h.handed ▸ List.prefix_rfl

/-! ## Silence after a rejection -/

theorem silent_of_unrejected {tr : List Effect} (h : (ledger tr).rejections = 0) :
    SilentAfterRejection tr := by
  have hno : ∀ e ∈ tr, ¬ e.isRejection = true := List.countP_eq_zero.mp h
  intro before e after heq he
  exact absurd he (hno e (by simp [heq]))

/-- The first rejection is the last effect. -/
theorem silent_rejection {tr : List Effect} (h : (ledger tr).rejections = 0) (e' : Effect) :
    SilentAfterRejection (tr ++ [e']) := by
  have hno : ∀ e ∈ tr, ¬ e.isRejection = true := List.countP_eq_zero.mp h
  intro before e after heq he
  rcases List.eq_nil_or_concat after with rfl | ⟨init, last, rfl⟩
  · rfl
  · rw [List.concat_eq_append, ← List.cons_append, ← List.append_assoc] at heq
    have hinit := (List.append_inj' heq rfl).1
    exact absurd he (hno e (by simp [hinit]))

theorem SilentAfterRejection.quiet {tr es : List Effect} (h : SilentAfterRejection tr)
    (hes : ∀ e ∈ es, e.quiet = true) : SilentAfterRejection (tr ++ es) := by
  have hledger := ledger_quiet hes
  have hno : ∀ e ∈ es, ¬ e.isRejection = true :=
    List.countP_eq_zero.mp (congrArg Ledger.rejections hledger)
  intro before e after heq he
  rcases List.append_eq_append_iff.mp heq with ⟨mid, rfl, hmid⟩ | ⟨mid, htr, hafter⟩
  · exact absurd he (hno e (by simp [hmid]))
  · cases mid with
    | nil =>
        rw [List.nil_append] at hafter
        exact absurd he (hno e (by simp [← hafter]))
    | cons e' mid =>
        rw [List.cons_append] at hafter
        injection hafter with hhead hmid
        subst hhead
        rw [hmid, ledger_append, hledger, Ledger.append_empty]
        exact h before e mid htr he

/-! ## One call -/

section Steps

variable {b : Build} {m : Monocypher} {K : RelayKeys} {header : Bytes}

/-- What the trace of a failed call shows. -/
def FlowAfterFailure (m : Monocypher) (K : RelayKeys) (tr : List Effect) : Prop :=
  RecordFlow m K (ledger tr) ∧ SilentAfterRejection tr

/-- A call keeps the invariant of an open relay; if it fails, what the trace
shows stays right. -/
abbrev KeepsFlow (m : Monocypher) (K : RelayKeys) (header : Bytes)
    (op : CtRelay → RelayOutcome) : Prop :=
  Triple (fun r tr => RelayFlow m K header r (ledger tr)) op
    (fun r tr => RelayFlow m K header r (ledger tr)) (fun _ tr => FlowAfterFailure m K tr)

theorem RelayFlow.afterFailure {r : CtRelay} {tr : List Effect}
    (h : RelayFlow m K header r (ledger tr)) : FlowAfterFailure m K tr :=
  ⟨h.recordFlow, silent_of_unrejected h.unrejected⟩

theorem FlowAfterFailure.quiet {tr es : List Effect} (h : FlowAfterFailure m K tr)
    (hes : ∀ e ∈ es, e.quiet = true) : FlowAfterFailure m K (tr ++ es) := by
  refine ⟨?_, h.2.quiet hes⟩
  rw [ledger_append, ledger_quiet hes, Ledger.append_empty]
  exact h.1

theorem syncBufferMetric_flow : KeepsFlow m K header (syncBufferMetric b) := by
  intro r tr h
  apply Outcome.Ends.emit
  show RelayFlow m K header _ (ledger (tr ++ (syncBufferMetric b r).effects))
  rw [ledger_append, ledger_quiet (syncBufferMetric_quiet b r), Ledger.append_empty]
  exact { h with }

/-- What `flush` sends leaves the ring. -/
theorem flush_flow (ring : RingId) (hring : ring ≠ .workInput) (res : SendResult) :
    KeepsFlow m K header (flush ring res) := by
  intro r tr h
  rcases flush_cases ring res r with he | he | ⟨z, he⟩ <;> rw [he]
  · exact .done h
  · exact .fail (by simpa using h.afterFailure)
  · apply Outcome.Ends.emit
    have hsplit : (r.ring ring).queue.take z ++ (ctRingConsume (r.ring ring) z).queue =
        (r.ring ring).queue := by
      rw [ctRingConsume_queue, List.take_append_drop]
    cases ring with
    | workInput => exact absurd rfl hring
    | toDirect =>
        have hL : ledger (tr ++ [.sent .toDirect (r.toDirect.queue.take z)]) =
            { ledger tr with
              sentDirect := (ledger tr).sentDirect ++ r.toDirect.queue.take z } := by
          simp [ledger]
        refine hL ▸ { h with delivery := ?_ }
        show _ = (_ ++ _) ++ _
        rw [List.append_assoc]
        exact h.delivery.trans (congrArg _ hsplit.symm)
    | toWork =>
        have hL : ledger (tr ++ [.sent .toWork (r.toWork.queue.take z)]) =
            { ledger tr with sentWork := (ledger tr).sentWork ++ r.toWork.queue.take z } := by
          simp [ledger]
        refine hL ▸ { h with outflow := ?_ }
        show _ = (_ ++ _) ++ _
        rw [List.append_assoc]
        exact h.outflow.trans (congrArg _ hsplit.symm)

theorem flushRelay_flow (fd : Socket) (res : SendResult) :
    KeepsFlow m K header (flushRelay fd res) := by
  intro r tr h
  have hring : r.flushRing fd ≠ .workInput := by
    unfold CtRelay.flushRing
    split <;> decide
  have hflush := flush_flow _ hring res r tr h
  rcases flushRelay_cases fd res r with ⟨hok, pending, remaining, he⟩ | ⟨hok, es, he, hes⟩
  · rw [he]
    exact .emit { hflush.of_ok hok with }
  · rw [he]
    apply Outcome.Ends.fail
    rw [← List.append_assoc]
    refine FlowAfterFailure.quiet (hflush.of_not_ok hok) ?_
    intro e hmem
    rw [hes e hmem]
    rfl

/-- One complete record: opened and delivered, or rejected. -/
theorem decryptRecord_flow {n : UInt32} {seq : UInt64} {r : CtRelay} {tr : List Effect}
    (h : RelayFlow m K header r (ledger tr))
    (hlen : 12 + n.toNat ≤ r.workInput.len) (hroom : n.toNat - ctAeadTag ≤ r.toDirect.room)
    (hmax : r.recvSeq ≠ uint64Max) (hseq : seq = r.recvSeq + 1) :
    (decryptRecord m n seq r).Ends tr (fun r tr => RelayFlow m K header r (ledger tr))
      (fun _ tr => FlowAfterFailure m K tr) := by
  cases hdec : ctAeadDecrypt m r.cipher r.recvKey r.recvNonce seq (r.recordCall n seq).ad
      (r.recordCall n seq).box with
  | none =>
      rw [decryptRecord_rejected hdec]
      apply Outcome.Ends.fail
      rw [← List.singleton_append, ← List.append_assoc]
      have hL : ledger (tr ++ [.aeadDecrypt (r.recordCall n seq) none] ++
          [.inc .aeadFailuresTotal]) = { ledger tr with
            rejections := (ledger tr).rejections + 1 } := by simp [ledger]
      refine ⟨hL ▸ { h.recordFlow with }, silent_rejection ?_ _⟩
      have := h.unrejected
      simpa [ledger] using this
  | some plain =>
      have hplain : plain.length ≤ r.toDirect.room :=
        Nat.le_trans (Nat.le_of_eq (CtRelay.recordCall_plain hlen hdec)) hroom
      rw [decryptRecord_opened hdec hplain]
      have hL : ledger (tr ++ [.aeadDecrypt (r.recordCall n seq) (some plain),
          .append .toDirect plain plain.length]) = { ledger tr with
            delivered := (ledger tr).delivered ++ plain
            opened := (ledger tr).opened ++ [(r.recordCall n seq, plain)] } := by
        simp [ledger]
      have hnum : seq.toNat = (ledger tr).opened.length + 1 := by
        rw [hseq, toNat_succ_of_ne_max hmax, h.recvSeq]
      have hkeys : (r.recordCall n seq).key = K.recvKey ∧ (r.recordCall n seq).base = K.recvNonce ∧
          r.cipher = K.cipher := by
        rw [← h.keys]
        exact ⟨rfl, rfl, rfl⟩
      have hwire : (r.recordCall n seq).ad ++ (r.recordCall n seq).box ++
          (r.workInput.queue.drop 12).drop n.toNat = r.workInput.queue := by
        simp only [CtRelay.recordCall]
        rw [List.append_assoc, List.take_append_drop, List.take_append_drop]
      apply Outcome.Ends.emit
      rw [hL]
      refine
        { h with
          openedNumbered := h.openedNumbered.snoc hnum
          openedUnder := ?_
          recvSeq := ?_
          inflow := ?_
          handed := ?_
          delivery := ?_ }
      · intro x hx
        rcases List.mem_append.mp hx with hx | hx
        · exact h.openedUnder x hx
        · rw [List.mem_singleton.mp hx]
          refine ⟨hkeys.1, hkeys.2.1, ?_⟩
          rw [← hkeys.2.2]
          exact hdec
      · show ((ledger tr).opened ++ [_]).length = seq.toNat
        simp [hnum]
      · show (ledger tr).readWork = wireBytes ((ledger tr).opened ++ [_]) ++ _
        rw [wireBytes_snoc, ctRingRead_queue, ctRingRead_queue, List.append_assoc, hwire]
        exact h.inflow
      · show (ledger tr).delivered ++ plain = plaintext ((ledger tr).opened ++ [_])
        rw [plaintext_snoc, h.handed]
      · show header ++ plaintext ((ledger tr).opened ++ [_]) = _ ++ (ctRingWrite _ _).1.queue
        rw [plaintext_snoc, ctRingWrite_queue_of_room hplain, ← List.append_assoc, h.delivery,
          List.append_assoc]

theorem decryptLoop_flow (fuel : Nat) : KeepsFlow m K header (decryptLoop b m fuel) := by
  induction fuel with
  | zero => exact fun r tr h => .done h
  | succ fuel ih =>
      intro r tr h
      unfold decryptLoop
      split
      · exact .done h
      · dsimp only
        split
        · -- a header out of range or out of sequence
          apply Outcome.Ends.fail
          have hL : ledger (tr ++ [.inc .aeadFailuresTotal]) = { ledger tr with
              rejections := (ledger tr).rejections + 1 } := by simp [ledger]
          exact ⟨hL ▸ { h.recordFlow with }, silent_rejection h.unrejected _⟩
        · rename_i n seq hhead
          obtain ⟨-, -, hmax, hseq⟩ := ctDataRecordHeaderDecode_some hhead
          split
          · exact .done h
          · split
            · exact .done h
            · exact (decryptRecord_flow h (by omega) (by omega) hmax hseq).andThen ih

theorem decryptReady_flow : KeepsFlow m K header (decryptReady b m) :=
  fun r tr h => decryptLoop_flow r.workInput.len r tr h

/-- The chunk just read becomes one record. -/
theorem encryptChunk_flow {r : CtRelay} {L : Ledger} {tr : List Effect} {p : Bytes}
    (h : RelayFlow m K header r L)
    (htr : ledger tr = { L with readDirect := L.readDirect ++ p }) :
    (encryptChunk m p r).Ends tr (fun r tr => RelayFlow m K header r (ledger tr))
      (fun _ tr => FlowAfterFailure m K tr) := by
  have hfed : plaintext L.sealed <+: L.readDirect ++ p :=
    h.recordFlow.fed.trans (List.prefix_append _ _)
  have hclean : (ledger tr).rejections = 0 := by rw [htr]; exact h.unrejected
  unfold encryptChunk
  dsimp only
  split
  · -- the counter is exhausted
    apply Outcome.Ends.fail
    rw [List.append_nil]
    exact ⟨htr ▸ { h.recordFlow with fed := hfed }, silent_of_unrejected hclean⟩
  · rename_i hmax
    split
    · apply Outcome.Ends.fail
      have hL : ledger (tr ++ [.inc .aeadFailuresTotal]) =
          { L with readDirect := L.readDirect ++ p, rejections := L.rejections + 1 } := by
        rw [ledger_append, htr]
        simp [ledger, Ledger.append]
      exact ⟨hL ▸ { h.recordFlow with fed := hfed }, silent_rejection hclean _⟩
    · rename_i box henc
      generalize hhead :
        (recordHeader (UInt32.ofNat (p.length + ctAeadTag)) (r.sendSeq + 1)).toList = head at henc ⊢
      let x : Record := (⟨r.sendKey, r.sendNonce, r.sendSeq + 1, head, box⟩, p)
      -- the record is numbered and sealed whether or not it still fits
      have hnum : (r.sendSeq + 1).toNat = L.sealed.length + 1 := by
        rw [toNat_succ_of_ne_max hmax, h.sendSeq]
      have hunder : ∀ y ∈ L.sealed ++ [x], SealedUnder m K y := by
        intro y hy
        rcases List.mem_append.mp hy with hy | hy
        · exact h.sealedUnder y hy
        · rw [List.mem_singleton.mp hy, ← h.keys]
          exact ⟨rfl, rfl, henc⟩
      have hintake : L.readDirect ++ p = plaintext (L.sealed ++ [x]) := by
        rw [plaintext_snoc, h.intake]
      have hL : ∀ taken, ledger (tr ++ ([.aeadEncrypt x.1 p] ++
          [.append .toWork (head ++ box) taken])) =
          { L with readDirect := L.readDirect ++ p, sealed := L.sealed ++ [x] } := by
        intro taken
        rw [ledger_append, htr]
        simp [ledger, Ledger.append, x]
      rw [Outcome.emit_andThen]
      rcases Nat.lt_or_ge (CtRelay.ring { r with sendSeq := r.sendSeq + 1 } .toWork).room
          (head ++ box).length with hroom | hroom
      · rw [append_of_no_room hroom]
        apply Outcome.Ends.fail
        refine ⟨hL _ ▸ ?_, silent_of_unrejected ?_⟩
        · exact
            { h.recordFlow with
              sealedNumbered := h.sealedNumbered.snoc hnum
              sealedUnder := hunder
              fed := hintake ▸ List.prefix_rfl }
        · rw [hL]
          exact h.unrejected
      · rw [append_of_room hroom]
        apply Outcome.Ends.emit
        rw [hL]
        refine
          { h with
            sealedNumbered := h.sealedNumbered.snoc hnum
            sealedUnder := hunder
            sendSeq := ?_
            intake := hintake
            outflow := ?_ }
        · show (L.sealed ++ [x]).length = (r.sendSeq + 1).toNat
          simp [hnum]
        · have hq : (ctRingWrite r.toWork (head ++ box)).1.queue = r.toWork.queue ++ (head ++ box) :=
            ctRingWrite_queue_of_room hroom
          show wireBytes (L.sealed ++ [x]) = L.sentWork ++ (ctRingWrite r.toWork _).1.queue
          rw [wireBytes_snoc, hq, h.outflow, List.append_assoc]

theorem readDirect_flow (hb : b.dataEncryption = true) (res : RecvResult) :
    KeepsFlow m K header (readDirect b m res) := by
  intro r tr h
  unfold readDirect
  split
  case h_2 => exact .done { h with }
  case h_3 => exact .done h
  case h_4 => exact .fail (by simpa using h.afterFailure)
  case h_1 bytes _ =>
    rw [hb, h.encrypted, Bool.and_self, if_pos rfl]
    refine Outcome.Ends.andThen (Q := fun r' tr' => r' = r ∧
      ledger tr' = { ledger tr with readDirect := (ledger tr).readDirect ++ bytes })
      (.emit ⟨rfl, ?_⟩) ?_
    · rw [ledger_recv]
      simp [ledger, Ledger.append]
    · rintro r' tr' ⟨rfl, htr'⟩
      exact encryptChunk_flow h htr'

/-- Bytes from the work socket are queued in `work_input`. -/
theorem queueWork_flow {r : CtRelay} {L : Ledger} {tr : List Effect} {bytes : Bytes}
    (h : RelayFlow m K header r L)
    (htr : ledger tr = { L with readWork := L.readWork ++ bytes }) :
    (append .workInput bytes r).Ends tr
      (fun r' tr' => RelayFlow m K header r' (ledger tr') ∧ ledger tr' = ledger tr)
      (fun _ tr' => FlowAfterFailure m K tr' ∧ ledger tr' = ledger tr) := by
  have hL : ∀ taken, ledger (tr ++ [.append .workInput bytes taken]) = ledger tr := by
    intro taken
    rw [ledger_append]
    simp [ledger, Ledger.append]
  rcases Nat.lt_or_ge (r.ring .workInput).room bytes.length with hroom | hroom
  · rw [append_of_no_room hroom]
    refine .fail ⟨⟨?_, silent_of_unrejected ?_⟩, hL _⟩
    · rw [hL, htr]
      exact { h.recordFlow with }
    · rw [hL, htr]
      exact h.unrejected
  · rw [append_of_room hroom]
    refine .emit ⟨?_, hL _⟩
    rw [hL, htr]
    refine { h with inflow := ?_ }
    have hq : (ctRingWrite r.workInput bytes).1.queue = r.workInput.queue ++ bytes :=
      ctRingWrite_queue_of_room hroom
    show L.readWork ++ bytes = wireBytes L.opened ++ _
    rw [h.inflow, List.append_assoc, ← hq]
    rfl

/-- Bytes from the work socket wait in `work_input` until a record is complete. -/
theorem readWork_flow (hb : b.dataEncryption = true) (res : RecvResult) :
    KeepsFlow m K header (readWork b m res) := by
  intro r tr h
  unfold readWork
  split
  case h_2 => exact .done { h with }
  case h_3 => exact .done h
  case h_4 => exact .fail (by simpa using h.afterFailure)
  case h_1 bytes _ =>
    rw [hb, h.encrypted, Bool.and_self, if_pos rfl]
    refine Outcome.Ends.andThen (Q := fun r' tr' => r' = r ∧
      ledger tr' = { ledger tr with readWork := (ledger tr).readWork ++ bytes })
      (.emit ⟨rfl, ?_⟩) ?_
    · rw [ledger_recv]
      simp [ledger, Ledger.append]
    · rintro r' tr' ⟨rfl, htr'⟩
      have hqueued := queueWork_flow h htr'
      exact (hqueued.weaken (fun _ _ h => h.1) (fun _ _ h => h.1)).andThen decryptReady_flow

theorem drainRelay_flow (fd : Socket) : KeepsFlow m K header (drainRelay b m fd) := by
  intro r tr h
  unfold drainRelay
  split
  · exact decryptReady_flow r tr h
  · exact .done h

theorem relayBody_flow (hb : b.dataEncryption = true) (fd : Socket) (ev : EvMask)
    (io : RelayIo) : KeepsFlow m K header (relayBody b m fd ev io) := by
  refine relayBody_ends syncBufferMetric_flow (fun _ => flushRelay_flow fd io.send)
    (fun _ => drainRelay_flow fd) ?_ (fun _ r tr h => h) syncBufferMetric_flow
  intro _ r tr h
  beta_reduce
  split
  · exact readDirect_flow hb io.recv r tr h
  · exact readWork_flow hb io.recv r tr h

end Steps

/-! ## Runs -/

/-- The calls a relay's owner makes. -/
inductive RelayCall
  | process (fd : Socket) (ev : EvMask) (io : RelayIo)
  | close

def relayCall (b : Build) (m : Monocypher) : RelayCall → CtRelay → RelayOutcome
  | .process fd ev io, r => ctRelayProcess b m fd ev io r
  | .close, r => ctRelayClose b r

/-- The invariant of a relay over its whole life. -/
def RelayInv (b : Build) (m : Monocypher) (K : RelayKeys) (header : Bytes) (r : CtRelay)
    (tr : List Effect) : Prop :=
  b.dataEncryption = true ∧ RelayFlow m K header r (ledger tr) ∨
    r.closed = true ∧ FlowAfterFailure m K tr

theorem RelayInv.close {b : Build} {m : Monocypher} {K : RelayKeys} {r : CtRelay}
    {tr : List Effect} (header : Bytes) (h : FlowAfterFailure m K tr) :
    RelayInv b m K header (ctRelayClose b r).state (tr ++ (ctRelayClose b r).effects) :=
  .inr ⟨rfl, h.quiet (ctRelayClose_quiet b r)⟩

theorem relayCall_inv {b : Build} {m : Monocypher} {K : RelayKeys} {header : Bytes}
    (r : CtRelay) (tr : List Effect) (call : RelayCall) (h : RelayInv b m K header r tr) :
    RelayInv b m K header (relayCall b m call r).state
      (tr ++ (relayCall b m call r).effects) := by
  cases call with
  | close =>
      rcases h with ⟨-, h⟩ | ⟨-, h⟩
      · exact RelayInv.close header h.afterFailure
      · exact RelayInv.close header h
  | process fd ev io =>
      simp only [relayCall, ctRelayProcess]
      rcases h with ⟨hb, h⟩ | ⟨hclosed, h⟩
      · rw [h.isOpen, if_neg (by decide)]
        have hbody := relayBody_flow hb fd ev io r tr h
        generalize relayBody b m fd ev io r = o at hbody
        cases hok : o.ok with
        | true =>
            have hflow := hbody.of_ok hok
            have hquiet := relayShutdowns_quiet o.state
            have hL : ledger (tr ++ (o.effects ++ relayShutdowns o.state)) =
                ledger (tr ++ o.effects) := by
              rw [← List.append_assoc, ledger_append _ (relayShutdowns _), ledger_quiet hquiet,
                Ledger.append_empty]
            rw [if_pos rfl]
            split
            · simp only [Outcome.fail_state, Outcome.fail_effects]
              rw [← List.append_assoc]
              exact RelayInv.close header (RelayFlow.afterFailure (hL ▸ hflow))
            · exact .inl ⟨hb, hL ▸ hflow⟩
        | false =>
            rw [if_neg (by decide)]
            simp only [Outcome.fail_state, Outcome.fail_effects]
            rw [← List.append_assoc, ← List.append_assoc]
            exact RelayInv.close header ((hbody.of_not_ok hok).quiet (by simp [Effect.quiet]))
      · rw [hclosed, if_pos rfl]
        refine .inr ⟨hclosed, ?_⟩
        simpa using h

theorem RelayInv.afterFailure {b : Build} {m : Monocypher} {K : RelayKeys} {header : Bytes}
    {r : CtRelay} {tr : List Effect} (h : RelayInv b m K header r tr) :
    FlowAfterFailure m K tr := by
  rcases h with ⟨-, h⟩ | ⟨-, h⟩
  · exact h.afterFailure
  · exact h

theorem relayRuns_inv {b : Build} {m : Monocypher} {K : RelayKeys} {header : Bytes}
    {r : CtRelay} (calls : List RelayCall) (h : RelayInv b m K header r []) :
    RelayInv b m K header (runs (relayCall b m) r calls).1 (runs (relayCall b m) r calls).2 :=
  runs_keeps (fun r tr call => relayCall_inv r tr call) calls h

/-- A closed relay does nothing. -/
theorem relayRuns_closed {b : Build} {m : Monocypher} {r : CtRelay} (h : r.closed = true)
    (calls : List RelayCall) : (runs (relayCall b m) r calls).2 = [] := by
  induction calls generalizing r with
  | nil => rfl
  | cons call calls ih =>
      have hstep : (relayCall b m call r).state.closed = true ∧
          (relayCall b m call r).effects = [] := by
        cases call with
        | close => exact ⟨rfl, by simp [relayCall, ctRelayClose, h]⟩
        | process fd ev io => simp [relayCall, ctRelayProcess, h]
      rw [runs, hstep.2, ih hstep.1]
      rfl

/-- An encrypted relay starts with nothing read, sealed or opened. -/
theorem FreshRelay.relayInv {b : Build} {m : Monocypher} {direct work : Socket} {client : Bool}
    {cipher : CtCipher} {master : Octets 32} {c : StreamContext} {r : CtRelay}
    (h : FreshRelay b m direct work client cipher master c r) (hmode : c.mode = .required) :
    RelayInv b m r.keys r.toDirect.queue r [] := by
  have hb := h.available hmode
  have hwork : r.toWork.queue = [] := List.eq_nil_of_length_eq_zero (by simp [h.toWork.1])
  have hinput : r.workInput.queue = [] := List.eq_nil_of_length_eq_zero (by simp [h.workInput.1])
  refine .inl ⟨hb, ?_⟩
  exact
    { isOpen := h.isOpen
      encrypted := h.required hmode
      keys := rfl
      sealedNumbered := .nil
      sealedUnder := by simp [ledger]
      openedNumbered := .nil
      openedUnder := by simp [ledger]
      sendSeq := by simp [ledger, h.sendSeq]
      recvSeq := by simp [ledger, h.recvSeq]
      intake := rfl
      outflow := by simp [ledger, wireBytes, hwork]
      inflow := by simp [ledger, wireBytes, hinput]
      handed := rfl
      delivery := by simp [ledger, plaintext]
      unrejected := rfl }

end Ctunnel
