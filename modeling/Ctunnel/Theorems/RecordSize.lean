import Ctunnel.Theorems.AuthenticatedBoxes
import Ctunnel.Theorems.RecordProgress
import Ctunnel.Theorems.StreamPrefix

/-!
# Record sizes between two builds

The largest plaintext of a record is `CHUNK`, which each build derives from its
own buffer size. A receiver takes every record its peer produces exactly if its
`CHUNK` is at least the sender's (`records_accepted_iff`): with 4096-byte buffers
it refuses the records of a default build (`small_receiver_rejects`).
-/

namespace Ctunnel

open Lib

/-! ## What the sender produces -/

/-- The sealed records of a trace fit the sender's limit. -/
def RecordsFit (b : Build) (tr : List Effect) : Prop :=
  ∀ call plain, Effect.aeadEncrypt call plain ∈ tr →
    call.ad = (recordHeader (UInt32.ofNat (plain.length + ctAeadTag)) call.sequence).toList ∧
      plain.length ≤ b.chunk

theorem RecordsFit.append {b : Build} {tr es : List Effect} (h : RecordsFit b tr)
    (hes : RecordsFit b es) : RecordsFit b (tr ++ es) := by
  intro call plain hmem
  rcases List.mem_append.mp hmem with hmem | hmem
  · exact h call plain hmem
  · exact hes call plain hmem

theorem RecordsFit.of_quiet {b : Build} {es : List Effect} (h : ∀ e ∈ es, e.quiet = true) :
    RecordsFit b es := by
  intro call plain hmem
  exact absurd (h _ hmem) (by simp [Effect.quiet])

theorem relayCall_fits {b : Build} {m : Monocypher} (r : CtRelay) (call : RelayCall) :
    RecordsFit b (relayCall b m call r).effects := by
  cases call with
  | close => exact .of_quiet (ctRelayClose_quiet b r)
  | process fd ev io =>
      have hbody : RecordsFit b (relayBody b m fd ev io r).effects :=
        fun call plain hmem => relayBody_moving fd ev io r _ hmem
      simp only [relayCall, ctRelayProcess]
      split
      · exact .of_quiet (by simp)
      · split
        · have hshut := hbody.append (.of_quiet
            (relayShutdowns_quiet (relayBody b m fd ev io r).state))
          split
          · exact hshut.append (.of_quiet (ctRelayClose_quiet b _))
          · exact hshut
        · exact (hbody.append (.of_quiet (by simp [Effect.quiet]))).append
            (.of_quiet (ctRelayClose_quiet b _))

theorem relayRuns_fit {b : Build} {m : Monocypher} (r : CtRelay) (calls : List RelayCall) :
    RecordsFit b (runs (relayCall b m) r calls).2 := by
  have hrun : RecordsFit b ([] ++ (runs (relayCall b m) r calls).2) :=
    runs_keeps (I := fun _ tr => RecordsFit b tr)
      (fun r tr call h => h.append (relayCall_fits r call)) calls (by simp [RecordsFit])
  exact hrun

/-! ## What the receiver makes of it -/

section Receiver

variable {b : Build} {m : Monocypher} {K : RelayKeys} {header : Bytes} {S : List Record}
  {r : CtRelay} {tr : List Effect}

/-- If what was read is the front of the records `S`, what was opened is too. -/
def Accepting (m : Monocypher) (K : RelayKeys) (header : Bytes) (S : List Record) (r : CtRelay)
    (tr : List Effect) : Prop :=
  RelayFlow m K header r (ledger tr) ∧
    ((ledger tr).readWork <+: wireBytes S → (ledger tr).opened <+: S)

/-- If what was read is the front of the records `S`, no record was rejected. -/
def Unrejected (S : List Record) (_ : CtRelay) (tr : List Effect) : Prop :=
  (ledger tr).readWork <+: wireBytes S → (ledger tr).rejections = 0

theorem Accepting.unrejected (h : Accepting m K header S r tr) (r' : CtRelay) :
    Unrejected S r' tr :=
  fun _ => h.1.unrejected

/-- The bytes in `work_input` start with the next record of `S`. -/
theorem Accepting.next (h : Accepting m K header S r tr)
    (hread : (ledger tr).readWork <+: wireBytes S) (hlen : r.workInput.len ≠ 0) :
    ∃ x rest, S = (ledger tr).opened ++ x :: rest ∧
      r.workInput.queue <+: x.1.ad ++ x.1.box ++ wireBytes rest := by
  obtain ⟨rest, hS⟩ := h.2 hread
  have hwire : wireBytes S = wireBytes (ledger tr).opened ++ wireBytes rest := by
    rw [← hS]
    simp [wireBytes]
  rw [h.1.inflow, hwire, List.prefix_append_right_inj] at hread
  cases rest with
  | nil =>
      have hnil : r.workInput.queue = [] := List.prefix_nil.mp hread
      have := r.workInput.queue_length
      rw [hnil] at this
      exact absurd this.symm hlen
  | cons x rest => exact ⟨x, rest, hS.symm, by simpa [wireBytes] using hread⟩

theorem take_of_prefix {a c q : Bytes} {n : Nat} (h : q <+: a ++ c) (hn : a.length = n)
    (hlen : n ≤ q.length) : q.take n = a := by
  obtain ⟨t, ht⟩ := h
  have htake := congrArg (List.take n) ht
  rw [List.take_append_of_le_length hlen, List.take_left' hn] at htake
  exact htake

/-- The records `S` are what a peer with the limit of `b` can send. -/
structure FromPeer (b : Build) (m : Monocypher) (K : RelayKeys) (S : List Record) : Prop where
  inverse : AeadInverse m
  numbered : Numbered seqNo S
  valid : ∀ x ∈ S, ValidRecord m K b.chunk x

/-- The next record of the peer has the header the receiver waits for. -/
theorem Accepting.frontRecord (h : Accepting m K header S r tr) (hS : FromPeer b m K S)
    (hread : (ledger tr).readWork <+: wireBytes S) (hlen : 12 ≤ r.workInput.len) :
    ∃ x rest, S = (ledger tr).opened ++ x :: rest ∧
      r.workInput.queue <+: x.1.ad ++ x.1.box ++ wireBytes rest ∧
      r.workInput.queue.take 12 = x.1.ad ∧ x.1.sequence = r.recvSeq + 1 ∧
      ctDataRecordHeaderDecode (sliceOctets (ctRingRead r.workInput 12).2 0 12) b.chunk r.recvSeq =
        some (UInt32.ofNat (x.2.length + ctAeadTag), r.recvSeq + 1) ∧
      (UInt32.ofNat (x.2.length + ctAeadTag)).toNat = x.1.box.length := by
  obtain ⟨x, rest, hsplit, hqueue⟩ := h.next hread (by omega)
  have hx := hS.valid x (hsplit ▸ List.mem_append_right _ List.mem_cons_self)
  have hchunk := b.chunk_le
  have hsize := hx.size
  have hrange := b.streamBufferSize_range
  have htag : ctAeadTag = 16 := rfl
  have hn : (UInt32.ofNat (x.2.length + ctAeadTag)).toNat = x.2.length + ctAeadTag := by
    rw [UInt32.toNat_ofNat_of_lt']
    show x.2.length + ctAeadTag < 2 ^ 32
    omega
  -- the record behind the opened ones carries the next number
  have hnum : x.1.sequence.toNat = r.recvSeq.toNat + 1 := by
    have hpos : (ledger tr).opened.length < S.length := by
      rw [hsplit]
      simp
    have hget := hS.numbered _ hpos
    rw [← h.1.recvSeq]
    simpa [seqNo, hsplit] using hget
  have hmax : r.recvSeq ≠ uint64Max := by
    intro hmax
    rw [hmax] at hnum
    have hbound := x.1.sequence.toNat_lt
    have : uint64Max.toNat = 2 ^ 64 - 1 := by decide
    omega
  have hseq : x.1.sequence = r.recvSeq + 1 := by
    apply UInt64.toNat_inj.mp
    rw [hnum, toNat_succ_of_ne_max hmax]
  have had : x.1.ad.length = 12 := by
    rw [hx.head]
    simp
  have hfront : r.workInput.queue.take 12 = x.1.ad := by
    rw [List.append_assoc] at hqueue
    exact take_of_prefix hqueue had (by rw [CtRing.queue_length]; exact hlen)
  refine ⟨x, rest, hsplit, hqueue, hfront, hseq, ?_, ?_⟩
  · have hcut : r.workInput.queue = (recordHeader (UInt32.ofNat (x.2.length + ctAeadTag))
        (r.recvSeq + 1)).toList ++ r.workInput.queue.drop 12 := by
      rw [← hseq, ← hx.head, ← hfront, List.take_append_drop]
    rw [ctRingRead_header hcut, recordHeader_decode _ (by omega) hmax, if_neg (by omega)]
  · rw [hn, ctAeadEncrypt_length hx.box]

/-- A whole record of the peer opens to its plaintext. -/
theorem Accepting.opens (h : Accepting m K header S r tr) (hS : FromPeer b m K S)
    (hread : (ledger tr).readWork <+: wireBytes S) {n : UInt32} {seq : UInt64}
    (hdecode : ctDataRecordHeaderDecode (sliceOctets (ctRingRead r.workInput 12).2 0 12) b.chunk
      r.recvSeq = some (n, seq)) (hlen : 12 + n.toNat ≤ r.workInput.len) :
    ∃ x rest, S = (ledger tr).opened ++ x :: rest ∧ r.recordCall n seq = x.1 ∧
      ctAeadDecrypt m r.cipher r.recvKey r.recvNonce seq (r.recordCall n seq).ad
        (r.recordCall n seq).box = some x.2 := by
  obtain ⟨x, rest, hsplit, hqueue, hfront, hnext, hsome, hbox⟩ :=
    h.frontRecord hS hread (by omega)
  have hx := hS.valid x (hsplit ▸ List.mem_append_right _ List.mem_cons_self)
  rw [hsome] at hdecode
  obtain ⟨rfl, rfl⟩ := Prod.mk.inj (Option.some.inj hdecode)
  have hkeys : r.recvKey = x.1.key ∧ r.recvNonce = x.1.base ∧ r.cipher = K.cipher := by
    rw [hx.key, hx.base, ← h.1.keys]
    exact ⟨rfl, rfl, rfl⟩
  have hdrop : r.workInput.queue.drop 12 <+: x.1.box ++ wireBytes rest := by
    have hcut := List.take_append_drop 12 r.workInput.queue
    rw [hfront] at hcut
    rw [← hcut, List.append_assoc] at hqueue
    exact (List.prefix_append_right_inj _).mp hqueue
  have htake : (r.workInput.queue.drop 12).take x.1.box.length = x.1.box := by
    refine take_of_prefix hdrop rfl ?_
    rw [List.length_drop, CtRing.queue_length]
    omega
  have hcall : r.recordCall (UInt32.ofNat (x.2.length + ctAeadTag)) (r.recvSeq + 1) = x.1 := by
    rw [CtRelay.recordCall, hkeys.1, hkeys.2.1, hfront, hbox, htake, ← hnext]
  refine ⟨x, rest, hsplit, hcall, ?_⟩
  rw [hcall, ← hnext, hkeys.1, hkeys.2.1, hkeys.2.2]
  exact ctAeadDecrypt_sealed hS.inverse hx.box

theorem decryptRecord_accepts (hS : FromPeer b m K S) (h : Accepting m K header S r tr)
    {n : UInt32} {seq : UInt64}
    (hdecode : ctDataRecordHeaderDecode (sliceOctets (ctRingRead r.workInput 12).2 0 12) b.chunk
      r.recvSeq = some (n, seq)) (hlen : 12 + n.toNat ≤ r.workInput.len)
    (hroom : n.toNat - ctAeadTag ≤ r.toDirect.room) :
    (decryptRecord m n seq r).Ends tr (Accepting m K header S) (Unrejected S) := by
  obtain ⟨-, -, hmax, hseq⟩ := ctDataRecordHeaderDecode_some hdecode
  have hflow := decryptRecord_flow h.1 hlen hroom hmax hseq
  cases hdec : ctAeadDecrypt m r.cipher r.recvKey r.recvNonce seq (r.recordCall n seq).ad
      (r.recordCall n seq).box with
  | none =>
      rw [decryptRecord_rejected hdec]
      refine .fail ?_
      intro hread
      have hsame : (ledger (tr ++ [.aeadDecrypt (r.recordCall n seq) none,
          .inc .aeadFailuresTotal])).readWork = (ledger tr).readWork := by simp [ledger]
      obtain ⟨x, rest, -, -, hsome⟩ := h.opens hS (hsame ▸ hread) hdecode hlen
      rw [hdec] at hsome
      exact absurd hsome (by simp)
  | some plain =>
      have hplain : plain.length ≤ r.toDirect.room :=
        Nat.le_trans (Nat.le_of_eq (CtRelay.recordCall_plain hlen hdec)) hroom
      rw [decryptRecord_opened hdec hplain] at hflow ⊢
      refine .emit ⟨hflow, ?_⟩
      intro hread
      have hsame : (ledger (tr ++ [.aeadDecrypt (r.recordCall n seq) (some plain),
          .append .toDirect plain plain.length])).readWork = (ledger tr).readWork := by
        simp [ledger]
      have hopened : (ledger (tr ++ [.aeadDecrypt (r.recordCall n seq) (some plain),
          .append .toDirect plain plain.length])).opened =
            (ledger tr).opened ++ [(r.recordCall n seq, plain)] := by
        simp [ledger]
      obtain ⟨x, rest, hsplit, hcall, hsome⟩ := h.opens hS (hsame ▸ hread) hdecode hlen
      rw [hdec] at hsome
      rw [hopened, hsplit, hcall, Option.some.inj hsome, List.prefix_append_right_inj]
      exact ⟨rest, rfl⟩

/-- `decrypt_ready` opens what the peer sent. -/
theorem decryptLoop_accepts (hS : FromPeer b m K S) (fuel : Nat) :
    Triple (Accepting m K header S) (decryptLoop b m fuel) (Accepting m K header S)
      (Unrejected S) := by
  induction fuel with
  | zero => exact fun r tr h => .done h
  | succ fuel ih =>
      intro r tr h
      unfold decryptLoop
      split
      · exact .done h
      · dsimp only
        split
        · rename_i hdecode
          refine .fail ?_
          intro hread
          have hsame : (ledger (tr ++ [.inc .aeadFailuresTotal])).readWork =
              (ledger tr).readWork := by simp [ledger]
          obtain ⟨x, rest, -, -, -, -, hsome, -⟩ := h.frontRecord hS (hsame ▸ hread) (by omega)
          rw [hsome] at hdecode
          exact absurd hdecode (by simp)
        · rename_i n seq hdecode
          split
          · exact .done h
          · split
            · exact .done h
            · exact (decryptRecord_accepts hS h hdecode (by omega) (by omega)).andThen ih

/-! ### The other stages -/

/-- Effects of the sending direction. -/
def Effect.Outbound (e : Effect) : Prop :=
  e.readBytes .work = [] ∧ e.openedRecord = none ∧ e.isRejection = false

theorem ledger_outbound (tr : List Effect) {es : List Effect} (h : ∀ e ∈ es, e.Outbound) :
    (ledger (tr ++ es)).readWork = (ledger tr).readWork ∧
      (ledger (tr ++ es)).opened = (ledger tr).opened ∧
      (ledger (tr ++ es)).rejections = (ledger tr).rejections := by
  have hread : es.flatMap (Effect.readBytes .work) = [] :=
    List.flatMap_eq_nil_iff.mpr fun e he => (h e he).1
  have hopened : es.filterMap Effect.openedRecord = [] :=
    List.filterMap_eq_nil_iff.mpr fun e he => (h e he).2.1
  have hrejected : es.countP Effect.isRejection = 0 :=
    List.countP_eq_zero.mpr fun e he => by rw [(h e he).2.2]; decide
  refine ⟨?_, ?_, ?_⟩
  · simp only [ledger, List.flatMap_append, hread, List.append_nil]
  · simp only [ledger, List.filterMap_append, hopened, List.append_nil]
  · simp only [ledger, List.countP_append, hrejected, Nat.add_zero]

/-- A stage of the sending direction leaves the receiving one as it is. -/
theorem accepts_of_outbound {op : CtRelay → RelayOutcome} (hflow : KeepsFlow m K header op)
    (hout : ∀ r, r.keys = K → ∀ e ∈ (op r).effects, e.Outbound) :
    Triple (Accepting m K header S) op (Accepting m K header S) (Unrejected S) := by
  intro r tr h
  have hends := hflow r tr h.1
  obtain ⟨hread, hopened, hrejected⟩ := ledger_outbound tr (hout r h.1.keys)
  unfold Outcome.Ends
  split
  · rename_i hok
    refine ⟨hends.of_ok hok, ?_⟩
    rw [hread, hopened]
    exact h.2
  · intro _
    rw [hrejected]
    exact h.1.unrejected

theorem Effect.Outbound.of_quiet {e : Effect} (h : e.quiet = true) : e.Outbound := by
  cases e with
  | metricAdd id value =>
      refine ⟨rfl, rfl, ?_⟩
      cases id <;> first | rfl | exact absurd h (by simp [Effect.quiet])
  | metricSub | socketClose | shutdownWrite => exact ⟨rfl, rfl, rfl⟩
  | _ => exact absurd h (by simp [Effect.quiet])

theorem syncBufferMetric_accepts :
    Triple (Accepting m K header S) (syncBufferMetric b) (Accepting m K header S) (Unrejected S) :=
  accepts_of_outbound syncBufferMetric_flow
    fun r _ e he => .of_quiet (syncBufferMetric_quiet b r e he)

theorem flushRelay_accepts (fd : Socket) (res : SendResult) :
    Triple (Accepting m K header S) (flushRelay fd res) (Accepting m K header S)
      (Unrejected S) := by
  refine accepts_of_outbound (flushRelay_flow fd res) ?_
  intro r _ e he
  have hflush : ∀ e ∈ (flush (r.flushRing fd) res r).effects, e.Outbound := by
    intro e he
    rcases flush_cases (r.flushRing fd) res r with heq | heq | ⟨z, heq⟩ <;> rw [heq] at he
    · exact absurd he (by simp)
    · exact absurd he (by simp)
    · rw [List.mem_singleton.mp he]
      exact ⟨rfl, rfl, rfl⟩
  rcases flushRelay_cases fd res r with ⟨-, pending, remaining, heq⟩ | ⟨-, es, heq, hes⟩
  · rw [heq] at he
    exact hflush e he
  · rw [heq] at he
    rcases List.mem_append.mp he with he | he
    · exact hflush e he
    · rw [hes e he]
      exact ⟨rfl, rfl, rfl⟩

theorem readDirect_accepts (hb : b.dataEncryption = true) (hcipher : K.cipher = .chacha)
    (res : RecvResult) :
    Triple (Accepting m K header S) (readDirect b m res) (Accepting m K header S)
      (Unrejected S) := by
  refine accepts_of_outbound (readDirect_flow hb res) ?_
  intro r hkeys
  have hchacha : r.cipher = .chacha := by
    rw [← hcipher, ← hkeys]
    rfl
  have happend : ∀ (ring : RingId) (src : Bytes) (r' : CtRelay),
      ∀ e ∈ (append ring src r').effects, e.Outbound := by
    intro ring src r' e he
    rw [List.mem_singleton.mp he]
    exact ⟨rfl, rfl, rfl⟩
  unfold readDirect
  split
  · rename_i bytes hdata
    have hsize := RecvResult.into_length hdata
    have hchunk := b.chunk_le
    have hrange := b.streamBufferSize_range
    have hsealed : ∀ e ∈ (encryptChunk m bytes r).effects, e.Outbound := by
      unfold encryptChunk
      split
      · simp
      · have hfits : bytes.length ≤ sizeMax - ctAeadTag := by
          have : sizeMax = 2 ^ 32 - 1 := rfl
          have : ctAeadTag = 16 := rfl
          omega
        obtain ⟨box, hbox⟩ := ctAeadEncrypt_some m r.sendKey r.sendNonce (r.sendSeq + 1)
          (recordHeader (UInt32.ofNat (bytes.length + ctAeadTag)) (r.sendSeq + 1)).toList hfits
        simp only [hchacha, hbox, Outcome.emit_andThen]
        intro e he
        rcases List.mem_append.mp he with he | he
        · rw [List.mem_singleton.mp he]
          exact ⟨rfl, rfl, rfl⟩
        · exact happend _ _ _ e he
    rw [Outcome.emit_andThen]
    intro e he
    rcases List.mem_append.mp he with he | he
    · simp only [List.mem_cons, List.not_mem_nil, or_false] at he
      rcases he with rfl | rfl
      · exact ⟨rfl, rfl, rfl⟩
      · exact .of_quiet (metricBytes_quiet r _ _)
    · split at he
      · exact hsealed e he
      · exact happend _ _ _ e he
  all_goals simp

theorem readWork_accepts (hb : b.dataEncryption = true) (hS : FromPeer b m K S)
    (res : RecvResult) :
    Triple (Accepting m K header S) (readWork b m res) (Accepting m K header S)
      (Unrejected S) := by
  intro r tr h
  unfold readWork
  split
  case h_2 => exact .done ⟨{ h.1 with }, h.2⟩
  case h_3 => exact .done h
  case h_4 => exact .fail (by simpa using h.unrejected r)
  case h_1 bytes _ =>
    rw [hb, h.1.encrypted, Bool.and_self, if_pos rfl]
    refine Outcome.Ends.andThen (Q := fun r' tr' => r' = r ∧
      ledger tr' = { ledger tr with readWork := (ledger tr).readWork ++ bytes })
      (.emit ⟨rfl, ?_⟩) ?_
    · rw [ledger_recv]
      simp [ledger, Ledger.append]
    · rintro r' tr' ⟨rfl, htr'⟩
      have hqueued := queueWork_flow h.1 htr'
      refine Outcome.Ends.andThen (hqueued.weaken (R := Accepting m K header S)
        (X := Unrejected S) ?_ ?_) fun r'' tr'' h'' => decryptLoop_accepts hS _ r'' tr'' h''
      · rintro r'' tr'' ⟨hflow, hsame⟩
        refine ⟨hflow, ?_⟩
        rw [hsame, htr']
        exact fun hread => h.2 ((List.prefix_append _ _).trans hread)
      · rintro r'' tr'' ⟨-, hsame⟩ -
        rw [hsame, htr']
        exact h.1.unrejected

theorem relayBody_accepts (hb : b.dataEncryption = true) (hcipher : K.cipher = .chacha)
    (hS : FromPeer b m K S) (fd : Socket) (ev : EvMask) (io : RelayIo) :
    Triple (Accepting m K header S) (relayBody b m fd ev io) (Accepting m K header S)
      (Unrejected S) := by
  refine relayBody_ends syncBufferMetric_accepts (fun _ => flushRelay_accepts fd io.send) ?_ ?_
    (fun _ _ _ h => h) syncBufferMetric_accepts
  · intro _ r tr h
    unfold drainRelay
    split
    · exact decryptLoop_accepts hS _ r tr h
    · exact .done h
  · intro _ r tr h
    beta_reduce
    split
    · exact readDirect_accepts hb hcipher io.recv r tr h
    · exact readWork_accepts hb hS io.recv r tr h

/-- What a relay keeps that is fed by the peer of `S`. -/
def RelayAccepts (b : Build) (m : Monocypher) (K : RelayKeys) (header : Bytes) (S : List Record)
    (r : CtRelay) (tr : List Effect) : Prop :=
  (r.closed = true ∨ b.dataEncryption = true ∧ Accepting m K header S r tr) ∧ Unrejected S r tr

theorem Unrejected.quiet {r' : CtRelay} {es : List Effect} (h : Unrejected S r tr)
    (hes : ∀ e ∈ es, e.quiet = true) : Unrejected S r' (tr ++ es) := by
  obtain ⟨hread, -, hrejected⟩ := ledger_outbound tr fun e he => .of_quiet (hes e he)
  intro hprefix
  rw [hrejected]
  exact h (hread ▸ hprefix)

theorem relayCall_accepts (hcipher : K.cipher = .chacha) (hS : FromPeer b m K S)
    (call : RelayCall) (h : RelayAccepts b m K header S r tr) :
    RelayAccepts b m K header S (relayCall b m call r).state
      (tr ++ (relayCall b m call r).effects) := by
  cases call with
  | close => exact ⟨.inl rfl, h.2.quiet (ctRelayClose_quiet b r)⟩
  | process fd ev io =>
      simp only [relayCall, ctRelayProcess]
      rcases h with ⟨hclosed | ⟨hb, hacc⟩, hunrej⟩
      · rw [hclosed, if_pos rfl]
        exact ⟨.inl hclosed, by simpa using hunrej⟩
      · rw [hacc.1.isOpen, if_neg (by decide)]
        have hbody : (relayBody b m fd ev io r).Ends tr (Accepting m K header S) (Unrejected S) :=
          relayBody_accepts hb hcipher hS fd ev io r tr hacc
        generalize relayBody b m fd ev io r = o at hbody
        have hclose : ∀ tr', Unrejected S r tr' →
            Unrejected S r (tr' ++ (ctRelayClose b o.state).effects) :=
          fun tr' h => h.quiet (ctRelayClose_quiet b o.state)
        split
        · rename_i hok
          have hacc' := hbody.of_ok hok
          have hshut : Unrejected S r (tr ++ (o.effects ++ relayShutdowns o.state)) := by
            rw [← List.append_assoc]
            exact (hacc'.unrejected r).quiet (relayShutdowns_quiet o.state)
          split
          · refine ⟨.inl rfl, ?_⟩
            rw [Outcome.fail_effects, ← List.append_assoc]
            exact hclose _ hshut
          · refine ⟨.inr ⟨hb, ?_⟩, hshut⟩
            have hledger : ledger (tr ++ (o.effects ++ relayShutdowns o.state)) =
                ledger (tr ++ o.effects) := by
              rw [← List.append_assoc, ledger_append _ (relayShutdowns _),
                ledger_quiet (relayShutdowns_quiet _), Ledger.append_empty]
            show RelayFlow m K header o.state (ledger (tr ++ (o.effects ++ _))) ∧ _
            rw [Outcome.emit_effects, hledger]
            exact hacc'
        · rename_i hok
          refine ⟨.inl rfl, ?_⟩
          rw [Outcome.fail_effects, ← List.append_assoc, ← List.append_assoc]
          exact hclose _ ((hbody.of_not_ok (by simpa using hok)).quiet (by simp [Effect.quiet]))

end Receiver

/-! ## The two ends -/

theorem sendDirection_peer (e : End) :
    (sendDirection e.peer.isClient).opposite = sendDirection e.isClient := by
  cases e <;> rfl

section Ends

variable {m : Monocypher} {master : Octets 32} {c : StreamContext} {setup : End → EndSetup}

/-- What the sender sealed is what the receiver expects, if the sender's limit is
within the receiver's. -/
theorem sealed_fromPeer (hinv : AeadInverse m) (hmode : c.mode = .required)
    (e : End) (calls : List (End × RelayCall))
    (hlimit : (setup e).build.chunk ≤ (setup e.peer).build.chunk) {K : RelayKeys}
    (hK : K.cipher = .chacha) (hrecv : ctDeriveData (setup e.peer).build m master c
      (sendDirection e.peer.isClient).opposite = some (K.recvKey, K.recvNonce)) :
    FromPeer (setup e.peer).build m K
      (ledger (ofMachine e (streamTrace m master c setup calls))).sealed := by
  rw [streamTrace_end]
  have hfit : RecordsFit (setup e).build (runs (relayCall (setup e).build m)
      ((setup e).relay m master c e) (ofMachine e calls)).2 :=
    relayRuns_fit ((setup e).relay m master c e) (ofMachine e calls)
  have hends : (runs (relayCall (setup e).build m) ((setup e).relay m master c e)
      (ofMachine e calls)).2 = [] ∨ _ := EndSetup.flow hmode e (setup e) (ofMachine e calls)
  rcases hends with hnil | ⟨K', hsend, -, hflow⟩
  · rw [hnil]
    exact ⟨hinv, .nil, by simp [ledger]⟩
  · refine ⟨hinv, hflow.1.sealedNumbered, ?_⟩
    intro x hx
    obtain ⟨hkey, hbase, hbox⟩ := hflow.1.sealedUnder x hx
    obtain ⟨hhead, hsize⟩ := hfit x.1 x.2 (mem_sealed.mp hx)
    rw [sendDirection_peer] at hrecv
    have hsame := Prod.mk.inj (ctDeriveData_build hsend hrecv)
    refine ⟨hkey.trans hsame.1, hbase.trans hsame.2, hhead, ?_, Nat.le_trans hsize hlimit⟩
    rw [hK, ← ctAeadEncrypt_cipher hbox]
    exact hbox

/-- A receiver with at least the sender's limit rejects none of its records. -/
theorem records_accepted (hinv : AeadInverse m) (hmode : c.mode = .required)
    (e : End) (hcipher : (setup e.peer).cipher = .chacha) (calls : List (End × RelayCall))
    (hlimit : (setup e).build.chunk ≤ (setup e.peer).build.chunk)
    (hfed : (ledger (ofMachine e.peer (streamTrace m master c setup calls))).readWork <+:
      wireBytes (ledger (ofMachine e (streamTrace m master c setup calls))).sealed) :
    (ledger (ofMachine e.peer (streamTrace m master c setup calls))).rejections = 0 := by
  generalize hS : (ledger (ofMachine e (streamTrace m master c setup calls))).sealed = S at hfed
  rw [streamTrace_end] at hfed ⊢
  have hinit : (ctRelayInit (setup e.peer).build m (setup e.peer).alloc (setup e.peer).direct
      (setup e.peer).work e.peer.isClient (setup e.peer).cipher master c
      (setup e.peer).metadata).Ends [] _ _ := ctRelayInit_ends (setup e.peer).metadata []
  unfold EndSetup.relay at hfed ⊢
  generalize ctRelayInit (setup e.peer).build m (setup e.peer).alloc (setup e.peer).direct
    (setup e.peer).work e.peer.isClient (setup e.peer).cipher master c
    (setup e.peer).metadata = o at hinit hfed ⊢
  cases hok : o.ok with
  | false =>
      rw [relayRuns_closed (hinit.of_not_ok hok)]
      rfl
  | true =>
      have hfresh := hinit.of_ok hok
      have hb := hfresh.available hmode
      have henc := hfresh.required hmode
      obtain ⟨hchacha, -, hrecv⟩ := hfresh.keys henc
      have hK : o.state.keys.cipher = .chacha := hchacha.trans hcipher
      have hfrom := sealed_fromPeer hinv hmode e calls hlimit hK hrecv
      rw [hS] at hfrom
      have hstart : RelayAccepts (setup e.peer).build m o.state.keys o.state.toDirect.queue S
          o.state [] := by
        rcases hfresh.relayInv hmode with ⟨-, hflow⟩ | ⟨hclosed, -⟩
        · exact ⟨.inr ⟨hb, hflow, fun _ => List.nil_prefix⟩, fun _ => rfl⟩
        · exact absurd hclosed (by simp [hfresh.isOpen])
      exact (runs_keeps (fun r tr call => relayCall_accepts hK hfrom call) (ofMachine e.peer calls)
        hstart).2 hfed

end Ends

/-! ## Builds that do not match -/

/-- A stream of `web` between two builds; the server is the sender. -/
def mixedSetup (b₁ b₂ : Build) : End → EndSetup
  | .server => ⟨b₁, ⟨true, true, true⟩, 3, 4, .chacha, none⟩
  | .client => ⟨b₂, ⟨true, true, true⟩, 5, 6, .chacha, none⟩

/-- The server reads a chunk, and the client the header of its record. -/
def mixedCalls (b₁ : Build) : List (End × RelayCall) :=
  [(.server, .process 3 ⟨true, false, false, false⟩
      ⟨.wouldBlock, .data (List.replicate b₁.chunk 0x61)⟩),
    (.client, .process 6 ⟨true, false, false, false⟩
      ⟨.wouldBlock, .data (recordHeader (UInt32.ofNat (b₁.chunk + ctAeadTag)) 1).toList⟩)]

def mixedTrace (m : Monocypher) (b₁ b₂ : Build) : List (End × Effect) :=
  streamTrace m (.replicate 32 0) (webContext .required) (mixedSetup b₁ b₂) (mixedCalls b₁)

section Mixed

variable {m : Monocypher}

theorem mixed_sealed {b₁ : Build} (b₂ : Build) (h₁ : b₁.dataEncryption = true) :
    ∃ box, wireBytes (ledger (ofMachine End.server (mixedTrace m b₁ b₂))).sealed =
      (recordHeader (UInt32.ofNat (b₁.chunk + ctAeadTag)) 1).toList ++ box := by
  have hfresh := webRelay_fresh m h₁ 3 4 false
  have htrace : ofMachine End.server (mixedTrace m b₁ b₂) = (ctRelayProcess b₁ m 3
      ⟨true, false, false, false⟩ ⟨.wouldBlock, .data (List.replicate b₁.chunk 0x61)⟩
      (ctRelayInit b₁ m ⟨true, true, true⟩ 3 4 false .chacha (.replicate 32 0)
        (webContext .required) none).state).effects := by
    rw [mixedTrace, streamTrace_end]
    exact List.append_nil _
  rw [htrace]
  generalize (ctRelayInit b₁ m ⟨true, true, true⟩ 3 4 false .chacha (.replicate 32 0)
    (webContext .required) none).state = r at hfresh ⊢
  have henc : r.encrypted = true := by
    rw [hfresh.encrypted, h₁]
    rfl
  have hchunk := b₁.chunk_le
  have hrange := b₁.streamBufferSize_range
  have htag : ctAeadTag = 16 := rfl
  have hpos : 0 < b₁.chunk ∧ b₁.chunk + 28 ≤ b₁.streamBufferSize := by
    unfold Build.chunk
    split <;> omega
  generalize hp : List.replicate b₁.chunk (0x61 : UInt8) = p
  have hplen : p.length = b₁.chunk := by rw [← hp, List.length_replicate]
  have hfits : p.length ≤ sizeMax - ctAeadTag := by
    have : sizeMax = 2 ^ 32 - 1 := rfl
    omega
  obtain ⟨box, hbox⟩ : ∃ box, ctAeadEncrypt m r.cipher r.sendKey r.sendNonce
      (r.sendSeq + 1) (r.sealedCall p []).ad p = some box := by
    rw [(hfresh.keys henc).1]
    exact ctAeadEncrypt_some _ _ _ _ _ hfits
  have hdata : (RecvResult.data p).into b₁.chunk = .data p :=
    RecvResult.into_data (List.ne_nil_of_length_pos (by omega)) (by omega)
  obtain ⟨-, hledger⟩ : _ ∧ ledger (ctRelayProcess b₁ m 3 ⟨true, false, false, false⟩
      ⟨.wouldBlock, .data p⟩ r).effects = _ :=
    ctRelayProcess_seals h₁ hfresh.isOpen henc hfresh.direct.symm rfl rfl hfresh.workInput.1 hdata
      (by rw [hfresh.sendSeq]; decide) hbox (by
        rw [CtRing.room, hfresh.toWork.1, hfresh.toWork.2, ctAeadEncrypt_length hbox]
        omega)
  refine ⟨box, ?_⟩
  rw [hledger]
  simp [wireBytes, CtRelay.sealedCall, hplen, hfresh.sendSeq]

/-- The client reads the header as the server sent it, and rejects the record of a
larger chunk. -/
theorem mixed_header_read {b₁ b₂ : Build} (h₁ : b₁.dataEncryption = true)
    (h₂ : b₂.dataEncryption = true) :
    (ledger (ofMachine End.client (mixedTrace m b₁ b₂))).readWork <+:
        wireBytes (ledger (ofMachine End.server (mixedTrace m b₁ b₂))).sealed ∧
      (b₂.chunk < b₁.chunk →
        (ledger (ofMachine End.client (mixedTrace m b₁ b₂))).rejections ≠ 0) := by
  obtain ⟨box, hwire⟩ := mixed_sealed b₂ h₁
  have hfresh := webRelay_fresh m h₂ 5 6 true
  have hblank := ctRelayInit_blank (webRelay_ok m h₂ 5 6 true)
  have htrace : ofMachine End.client (mixedTrace m b₁ b₂) = (ctRelayProcess b₂ m 6
      ⟨true, false, false, false⟩ ⟨.wouldBlock,
        .data (recordHeader (UInt32.ofNat (b₁.chunk + ctAeadTag)) 1).toList⟩
      (ctRelayInit b₂ m ⟨true, true, true⟩ 5 6 true .chacha (.replicate 32 0)
        (webContext .required) none).state).effects := by
    rw [mixedTrace, streamTrace_end]
    exact List.append_nil _
  rw [hwire, htrace]
  generalize (ctRelayInit b₂ m ⟨true, true, true⟩ 5 6 true .chacha (.replicate 32 0)
    (webContext .required) none).state = r at hfresh hblank ⊢
  have henc : r.encrypted = true := by
    rw [hfresh.encrypted, h₂]
    rfl
  have hchunk := b₁.chunk_le
  have hchunk₂ := b₂.chunk_le
  have hrange := b₁.streamBufferSize_range
  have hrange₂ := b₂.streamBufferSize_range
  have htag : ctAeadTag = 16 := rfl
  have hn : (UInt32.ofNat (b₁.chunk + ctAeadTag)).toNat = b₁.chunk + ctAeadTag := by
    rw [UInt32.toNat_ofNat_of_lt']
    show b₁.chunk + ctAeadTag < 2 ^ 32
    omega
  have hdecode : ctDataRecordHeaderDecode
      (recordHeader (UInt32.ofNat (b₁.chunk + ctAeadTag)) 1) b₂.chunk r.recvSeq =
        if b₂.chunk < b₁.chunk then none else some (UInt32.ofNat (b₁.chunk + ctAeadTag), 1) := by
    have hone : (1 : UInt64) = r.recvSeq + 1 := by
      rw [hfresh.recvSeq]
      rfl
    rw [hone, recordHeader_decode _ (by omega) (by rw [hfresh.recvSeq]; decide), hn]
    exact if_congr (by omega) rfl rfl
  have hdata : (RecvResult.data (recordHeader (UInt32.ofNat (b₁.chunk + ctAeadTag)) 1).toList).into
      (b₂.chunk + 32) = .data (recordHeader (UInt32.ofNat (b₁.chunk + ctAeadTag)) 1).toList := by
    refine RecvResult.into_data (List.ne_nil_of_length_pos ?_) ?_ <;>
      rw [List.Vector.toList_length] <;> omega
  have hne : (6 : Socket) ≠ r.direct := by
    rw [hfresh.direct]
    decide
  have hroom : 12 ≤ r.workInput.room := by
    rw [CtRing.room, hfresh.workInput.1, hfresh.workInput.2 h₂]
    omega
  by_cases hlimit : b₂.chunk < b₁.chunk
  · obtain ⟨hread, hrejected⟩ : (ledger (ctRelayProcess b₂ m 6 ⟨true, false, false, false⟩
        ⟨.wouldBlock, .data (recordHeader (UInt32.ofNat (b₁.chunk + ctAeadTag)) 1).toList⟩
        r).effects).readWork = _ ∧ _ :=
      ctRelayProcess_rejects h₂ hfresh.isOpen henc hne rfl rfl hfresh.workInput.1 hdata hroom
        (by rw [hdecode, if_pos hlimit])
    refine ⟨?_, fun _ => hrejected⟩
    rw [hread]
    exact List.prefix_append _ _
  · obtain ⟨-, hledger⟩ : _ ∧ ledger (ctRelayProcess b₂ m 6 ⟨true, false, false, false⟩
        ⟨.wouldBlock, .data (recordHeader (UInt32.ofNat (b₁.chunk + ctAeadTag)) 1).toList⟩
        r).effects = _ :=
      ctRelayProcess_collects h₂ hfresh.isOpen henc hne rfl rfl hfresh.workInput.1 hblank.1
        (by rw [hdata, List.append_nil]) (show 12 + ([] : Bytes).length ≤ _ from hroom)
        (by rw [hdecode, if_neg hlimit]) (by rw [hn, List.length_nil]; omega)
    refine ⟨?_, fun h => absurd h hlimit⟩
    rw [hledger]
    show _ ++ [] <+: _
    rw [List.append_nil]
    exact List.prefix_append _ _

/-- Between a sender built with `b₁` and a receiver built with `b₂`, over any
primitives that open what they seal: no run, with the records arriving in any
fragments, has a record rejected, exactly if the chunk of `b₁` is at most that of
`b₂`. -/
theorem records_accepted_iff {b₁ b₂ : Build} (h₁ : b₁.dataEncryption = true)
    (h₂ : b₂.dataEncryption = true) (hinv : AeadInverse m) :
    (∀ (master : Octets 32) (c : StreamContext) (setup : End → EndSetup)
      (calls : List (End × RelayCall)) (e : End),
      c.mode = .required → (setup e.peer).cipher = .chacha →
      (setup e).build = b₁ → (setup e.peer).build = b₂ →
      (ledger (ofMachine e.peer (streamTrace m master c setup calls))).readWork <+:
        wireBytes (ledger (ofMachine e (streamTrace m master c setup calls))).sealed →
      (ledger (ofMachine e.peer (streamTrace m master c setup calls))).rejections = 0) ↔
    b₁.chunk ≤ b₂.chunk := by
  constructor
  · intro hall
    by_contra hlimit
    obtain ⟨hfed, hrejected⟩ := mixed_header_read (m := m) h₁ h₂
    exact hrejected (by omega) (hall _ _ (mixedSetup b₁ b₂) (mixedCalls b₁) .server
      rfl rfl rfl rfl hfed)
  · rintro hlimit master c setup calls e hmode hcipher rfl rfl hfed
    exact records_accepted hinv hmode e hcipher calls hlimit hfed

end Mixed

/-- A receiver with 4096-byte buffers rejects a record of a default build, both
with ctunnel's own ChaCha20-Poly1305. -/
theorem small_receiver_rejects :
    (ledger (ofMachine End.client (mixedTrace noCrypto.withSource defaultBuild
        smallBuild))).readWork <+: wireBytes (ledger (ofMachine End.server
          (mixedTrace noCrypto.withSource defaultBuild smallBuild))).sealed ∧
      (ledger (ofMachine End.client (mixedTrace noCrypto.withSource defaultBuild
        smallBuild))).rejections ≠ 0 :=
  (mixed_header_read rfl rfl).imp_right fun h => h (by decide)

/-- A receiver with the default buffers takes the header of a smaller build. -/
theorem default_receiver_accepts :
    (ledger (ofMachine End.client (mixedTrace noCrypto.withSource smallBuild
        defaultBuild))).readWork <+: wireBytes (ledger (ofMachine End.server
          (mixedTrace noCrypto.withSource smallBuild defaultBuild))).sealed ∧
      (ledger (ofMachine End.client (mixedTrace noCrypto.withSource smallBuild
        defaultBuild))).rejections = 0 := by
  have hinv : AeadInverse noCrypto.withSource := aeadInverse_withSource noCrypto
  generalize noCrypto.withSource = m at hinv ⊢
  have hfed := (@mixed_header_read m smallBuild defaultBuild rfl rfl).1
  refine ⟨hfed, ?_⟩
  exact (@records_accepted_iff m smallBuild defaultBuild rfl rfl hinv).mpr (by decide) _ _
    (mixedSetup smallBuild defaultBuild) (mixedCalls smallBuild) .server rfl rfl rfl rfl hfed

end Ctunnel
