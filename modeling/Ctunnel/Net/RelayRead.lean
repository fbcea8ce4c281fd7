import Ctunnel.Net.RelayFlow

/-!
# A single read of a relay

What one event does to an open relay when it only reads and no record is
waiting: on the direct side one record is sealed and queued, or cut short for
lack of room; on the work side the bytes are queued as they are (unencrypted),
cut short, or, if they are exactly one record, opened and delivered. These are
the steps concrete runs are built from.
-/

namespace Ctunnel

open Lib

variable {b : Build} {m : Monocypher} {fd : Socket} {ev : EvMask} {io : RelayIo} {r : CtRelay}

/-- A relay but for the accounting of its buffers. -/
def CtRelay.accounted (r : CtRelay) (n : Nat) : CtRelay := { r with accountedBufferBytes := n }

/-- An event that only reads, with nothing to drain, is the read. -/
theorem relayBody_read {J W : CtRelay → List Effect → Prop} (hread : ev.read = true)
    (hwrite : ev.write = false) (hidle : fd = r.direct → r.workInput.len = 0)
    (h : ∀ n tr, ledger tr = .empty →
      (if fd = r.direct then readDirect b m io.recv (r.accounted n)
        else readWork b m io.recv (r.accounted n)).Ends tr J W)
    (hsync : Triple J (syncBufferMetric b) J W) : (relayBody b m fd ev io r).Ends [] J W := by
  refine relayBody_ends (I := fun r' tr => (∃ n, r' = r.accounted n) ∧ ledger tr = .empty)
    ?_ (fun hev => absurd hev (by simp [hwrite])) ?_ ?_ (fun hev => absurd hev (by simp [hread]))
    hsync r [] ⟨⟨r.accountedBufferBytes, rfl⟩, rfl⟩
  · rintro r' tr ⟨⟨n, rfl⟩, htr⟩
    refine .emit ⟨⟨_, rfl⟩, ?_⟩
    show ledger (tr ++ (syncBufferMetric b (r.accounted n)).effects) = .empty
    rw [ledger_append, htr, ledger_quiet (syncBufferMetric_quiet b _), Ledger.append_empty]
  · rintro - r' tr ⟨⟨n, rfl⟩, htr⟩
    unfold drainRelay
    split
    · rename_i hcond
      simp only [Bool.and_eq_true, decide_eq_true_eq] at hcond
      exact absurd (hidle hcond.1.1) hcond.2
    · exact .done ⟨⟨n, rfl⟩, htr⟩
  · rintro - r' tr ⟨⟨n, rfl⟩, htr⟩
    exact h n tr htr

/-- An event that only writes, and leaves nothing to drain, is the flush. -/
theorem relayBody_write {J W : CtRelay → List Effect → Prop} (hread : ev.read = false)
    (hwrite : ev.write = true) (h : (flushRelay fd io.send r).Ends [] J W)
    (hidle : ∀ r' tr, J r' tr → r'.workInput.len = 0) (hsync : Triple J (syncBufferMetric b) J W) :
    (relayBody b m fd ev io r).Ends [] J W := by
  have hfirst : (if ev.write then flushRelay fd io.send r else .done r).Ends [] J W := by
    rw [if_pos hwrite]
    exact h
  refine (((hfirst.andThen hsync).andThen (R := J) ?_).andThen (R := J) ?_).andThen hsync
  · intro r' tr h'
    have hdrain : drainRelay b m fd r' = .done r' := by simp [drainRelay, hidle r' tr h']
    split
    · rw [hdrain]
      exact (Outcome.Ends.done h').andThen hsync
    · exact .done h'
  · intro r' tr h'
    rw [hread]
    exact .done h'

theorem ctRelayProcess_failed (hopen : r.closed = false)
    (h : (relayBody b m fd ev io r).ok = false) :
    (ctRelayProcess b m fd ev io r).state.closed = true ∧
      ∀ e ∈ (relayBody b m fd ev io r).effects, e ∈ (ctRelayProcess b m fd ev io r).effects := by
  simp only [ctRelayProcess, hopen, h, Bool.false_eq_true, if_false]
  exact ⟨rfl, fun e he => List.mem_append_left _ (List.mem_append_left _ he)⟩

/-- An event that leaves bytes queued does not close the relay. -/
theorem ctRelayProcess_ok (hopen : r.closed = false) (h : (relayBody b m fd ev io r).ok = true)
    (hqueued : (relayBody b m fd ev io r).state.toDirect.len ≠ 0 ∨
      (relayBody b m fd ev io r).state.toWork.len ≠ 0) :
    (ctRelayProcess b m fd ev io r).state = (relayBody b m fd ev io r).state ∧
      ledger (ctRelayProcess b m fd ev io r).effects =
        ledger (relayBody b m fd ev io r).effects := by
  simp only [ctRelayProcess, hopen, h, Bool.false_eq_true, if_false, if_true]
  split
  · rename_i hdone
    simp only [Bool.and_eq_true, beq_iff_eq] at hdone
    omega
  · refine ⟨rfl, ?_⟩
    show ledger (_ ++ _) = _
    rw [ledger_append, ledger_quiet (relayShutdowns_quiet _), Ledger.append_empty]

/-- An event before the direct side has reached its end does not close the
relay. -/
theorem ctRelayProcess_half_open (hopen : r.closed = false)
    (h : (relayBody b m fd ev io r).ok = true)
    (heof : (relayBody b m fd ev io r).state.directEof = false) :
    (ctRelayProcess b m fd ev io r).state = (relayBody b m fd ev io r).state ∧
      ledger (ctRelayProcess b m fd ev io r).effects =
        ledger (relayBody b m fd ev io r).effects := by
  simp only [ctRelayProcess, hopen, h, heof, Bool.false_eq_true, if_false, if_true,
    Bool.false_and, Outcome.emit_state, Outcome.emit_effects, true_and]
  rw [ledger_append, ledger_quiet (relayShutdowns_quiet _), Ledger.append_empty]

/-- The call that seals the next record. -/
def CtRelay.sealedCall (r : CtRelay) (p box : Bytes) : AeadCall :=
  ⟨r.sendKey, r.sendNonce, r.sendSeq + 1,
    (recordHeader (UInt32.ofNat (p.length + ctAeadTag)) (r.sendSeq + 1)).toList, box⟩

/-- `encrypt_chunk` up to its `append`. -/
theorem encryptChunk_append {p box : Bytes} (hmax : r.sendSeq ≠ uint64Max)
    (hbox : ctAeadEncrypt m r.cipher r.sendKey r.sendNonce (r.sendSeq + 1)
      (r.sealedCall p box).ad p = some box) :
    encryptChunk m p r =
      (Outcome.emit { r with sendSeq := r.sendSeq + 1 } [.aeadEncrypt (r.sealedCall p box) p]).andThen
        (append .toWork ((r.sealedCall p box).ad ++ box)) := by
  simp only [CtRelay.sealedCall] at hbox
  simp only [encryptChunk, hmax, if_false, hbox, CtRelay.sealedCall]

/-- A read from the direct socket of an encrypted relay, up to its `append`. -/
theorem readDirect_append (hb : b.dataEncryption = true) (henc : r.encrypted = true)
    {res : RecvResult} {p box : Bytes} (hrecv : res.into b.chunk = .data p)
    (hmax : r.sendSeq ≠ uint64Max)
    (hbox : ctAeadEncrypt m r.cipher r.sendKey r.sendNonce (r.sendSeq + 1)
      (r.sealedCall p box).ad p = some box) :
    readDirect b m res r =
      (Outcome.emit { r with sendSeq := r.sendSeq + 1 }
        [.recv .direct p, metricBytes r r.direct p.length,
          .aeadEncrypt (r.sealedCall p box) p]).andThen
        (append .toWork ((r.sealedCall p box).ad ++ box)) := by
  simp only [readDirect, hrecv, hb, henc, Bool.and_self, if_true, Outcome.emit_andThen,
    encryptChunk_append hmax hbox]
  rfl

theorem ledger_sealing {tr : List Effect} (htr : ledger tr = .empty) (p : Bytes) (n : Nat)
    (call : AeadCall) (src : Bytes) (taken : Nat) :
    ledger (tr ++ ([.recv .direct p, metricBytes r r.direct n, .aeadEncrypt call p] ++
      [.append .toWork src taken])) =
      { Ledger.empty with readDirect := p, sealed := [(call, p)] } := by
  have hsplit : ([.recv .direct p, metricBytes r r.direct n, .aeadEncrypt call p] ++
      [.append .toWork src taken] : List Effect) =
      ([.recv .direct p, metricBytes r r.direct n] ++ [.aeadEncrypt call p]) ++
        [.append .toWork src taken] := rfl
  rw [hsplit, ← List.append_assoc, ← List.append_assoc, ledger_append, ledger_append,
    ledger_recv, htr]
  simp [ledger, Ledger.append, Ledger.empty, List.filterMap_cons]

/-- With room, one read from the direct socket becomes one queued record. -/
theorem ctRelayProcess_seals (hb : b.dataEncryption = true) (hopen : r.closed = false)
    (henc : r.encrypted = true) (hfd : fd = r.direct) (hread : ev.read = true)
    (hwrite : ev.write = false) (hidle : r.workInput.len = 0) {p box : Bytes}
    (hrecv : io.recv.into b.chunk = .data p) (hmax : r.sendSeq ≠ uint64Max)
    (hbox : ctAeadEncrypt m r.cipher r.sendKey r.sendNonce (r.sendSeq + 1)
      (r.sealedCall p box).ad p = some box) (hroom : 12 + box.length ≤ r.toWork.room) :
    (∃ n, (ctRelayProcess b m fd ev io r).state = CtRelay.accounted
      { r with
        sendSeq := r.sendSeq + 1
        toWork := (ctRingWrite r.toWork ((r.sealedCall p box).ad ++ box)).1 } n) ∧
      ledger (ctRelayProcess b m fd ev io r).effects =
        { Ledger.empty with readDirect := p, sealed := [(r.sealedCall p box, p)] } := by
  have hlen : ((r.sealedCall p box).ad ++ box).length = 12 + box.length := by
    simp [CtRelay.sealedCall]
  have hfits : ((r.sealedCall p box).ad ++ box).length ≤ r.toWork.room := by
    rw [hlen]
    exact hroom
  have hbody : (relayBody b m fd ev io r).Ends []
      (fun r' tr => (∃ n, r' = CtRelay.accounted
        { r with
          sendSeq := r.sendSeq + 1
          toWork := (ctRingWrite r.toWork ((r.sealedCall p box).ad ++ box)).1 } n) ∧
        ledger tr =
          { Ledger.empty with readDirect := p, sealed := [(r.sealedCall p box, p)] })
      (fun _ _ => False) := by
    refine relayBody_read hread hwrite (fun _ => hidle) ?_ ?_
    · intro n tr htr
      rw [if_pos hfd, readDirect_append (r := r.accounted n) hb henc hrecv hmax hbox,
        Outcome.emit_andThen, append_of_room (by exact hfits)]
      exact .emit ⟨⟨n, rfl⟩, ledger_sealing htr p _ _ _ _⟩
    · rintro r' tr ⟨⟨n, rfl⟩, htr⟩
      refine .emit ⟨⟨_, rfl⟩, ?_⟩
      show ledger (tr ++ (syncBufferMetric b _).effects) = _
      rw [ledger_append, htr, ledger_quiet (syncBufferMetric_quiet b _), Ledger.append_empty]
  cases hok : (relayBody b m fd ev io r).ok with
  | false => exact absurd (hbody.of_not_ok hok) id
  | true =>
      obtain ⟨⟨n, hstate⟩, hledger⟩ := hbody.of_ok hok
      have hqueued : (relayBody b m fd ev io r).state.toWork.len ≠ 0 := by
        rw [hstate]
        show r.toWork.len + _ ≠ 0
        rw [hlen]
        omega
      obtain ⟨hstate', hledger'⟩ := ctRelayProcess_ok hopen hok (.inr hqueued)
      exact ⟨⟨n, hstate'.trans hstate⟩, hledger'.trans hledger⟩

/-- Without room the record is cut short and the relay closed. -/
theorem ctRelayProcess_cuts (hb : b.dataEncryption = true) (hopen : r.closed = false)
    (henc : r.encrypted = true) (hfd : fd = r.direct) (hread : ev.read = true)
    (hwrite : ev.write = false) (hidle : r.workInput.len = 0) {p box : Bytes}
    (hrecv : io.recv.into b.chunk = .data p) (hmax : r.sendSeq ≠ uint64Max)
    (hbox : ctAeadEncrypt m r.cipher r.sendKey r.sendNonce (r.sendSeq + 1)
      (r.sealedCall p box).ad p = some box) (hroom : r.toWork.room < 12 + box.length) :
    (ctRelayProcess b m fd ev io r).state.closed = true ∧
      Effect.append .toWork ((r.sealedCall p box).ad ++ box) r.toWork.room ∈
        (ctRelayProcess b m fd ev io r).effects := by
  have hcut : r.toWork.room < ((r.sealedCall p box).ad ++ box).length := by
    simpa [CtRelay.sealedCall] using hroom
  have hbody : (relayBody b m fd ev io r).Ends [] (fun _ _ => False)
      (fun _ tr => Effect.append .toWork ((r.sealedCall p box).ad ++ box) r.toWork.room ∈ tr) := by
    refine relayBody_read hread hwrite (fun _ => hidle) ?_ (fun _ _ h => h.elim)
    intro n tr htr
    rw [if_pos hfd, readDirect_append (r := r.accounted n) hb henc hrecv hmax hbox,
      Outcome.emit_andThen, append_of_no_room (by exact hcut)]
    refine .fail ?_
    simp [CtRelay.accounted, CtRelay.ring, CtRelay.sealedCall]
  cases hok : (relayBody b m fd ev io r).ok with
  | true => exact absurd (hbody.of_ok hok) id
  | false =>
      obtain ⟨hclosed, hmem⟩ := ctRelayProcess_failed hopen hok
      exact ⟨hclosed, hmem _ (by simpa using hbody.of_not_ok hok)⟩

/-- A read from the work socket of an unencrypted relay, up to its `append`. -/
theorem readWork_append (henc : r.encrypted = false) {res : RecvResult} {p : Bytes}
    (hrecv : res.into (b.chunk + 32) = .data p) :
    readWork b m res r =
      (Outcome.emit r [.recv .work p, metricBytes r r.work p.length]).andThen
        (append .toDirect p) := by
  simp [readWork, hrecv, henc]

/-- With room, the bytes are queued for the direct socket. -/
theorem ctRelayProcess_queues (hopen : r.closed = false) (henc : r.encrypted = false)
    (hfd : fd ≠ r.direct) (hread : ev.read = true) (hwrite : ev.write = false) {p : Bytes}
    (hrecv : io.recv.into (b.chunk + 32) = .data p) (hsome : p ≠ [])
    (hroom : p.length ≤ r.toDirect.room) :
    ∃ n, (ctRelayProcess b m fd ev io r).state =
      CtRelay.accounted { r with toDirect := (ctRingWrite r.toDirect p).1 } n := by
  have hbody : (relayBody b m fd ev io r).Ends []
      (fun r' _ => ∃ n, r' = CtRelay.accounted { r with toDirect := (ctRingWrite r.toDirect p).1 } n)
      (fun _ _ => False) := by
    refine relayBody_read hread hwrite (fun h => absurd h hfd) ?_ ?_
    · intro n tr _
      rw [if_neg hfd, readWork_append (r := r.accounted n) henc hrecv, Outcome.emit_andThen,
        append_of_room (by exact hroom)]
      exact .emit ⟨n, rfl⟩
    · rintro r' tr ⟨n, rfl⟩
      exact .emit ⟨_, rfl⟩
  cases hok : (relayBody b m fd ev io r).ok with
  | false => exact absurd (hbody.of_not_ok hok) id
  | true =>
      obtain ⟨n, hstate⟩ := hbody.of_ok hok
      have hqueued : (relayBody b m fd ev io r).state.toDirect.len ≠ 0 := by
        have hpos := List.length_pos_of_ne_nil hsome
        rw [hstate]
        show r.toDirect.len + min p.length _ ≠ 0
        rw [Nat.min_eq_left hroom]
        omega
      exact ⟨n, (ctRelayProcess_ok hopen hok (.inl hqueued)).1.trans hstate⟩

/-- Without room they are cut short and the relay closed. -/
theorem ctRelayProcess_overruns (hopen : r.closed = false) (henc : r.encrypted = false)
    (hfd : fd ≠ r.direct) (hread : ev.read = true) (hwrite : ev.write = false) {p : Bytes}
    (hrecv : io.recv.into (b.chunk + 32) = .data p) (hroom : r.toDirect.room < p.length) :
    (ctRelayProcess b m fd ev io r).state.closed = true ∧
      Effect.append .toDirect p r.toDirect.room ∈ (ctRelayProcess b m fd ev io r).effects := by
  have hbody : (relayBody b m fd ev io r).Ends [] (fun _ _ => False)
      (fun _ tr => Effect.append .toDirect p r.toDirect.room ∈ tr) := by
    refine relayBody_read hread hwrite (fun h => absurd h hfd) ?_ (fun _ _ h => h.elim)
    intro n tr _
    rw [if_neg hfd, readWork_append (r := r.accounted n) henc hrecv, Outcome.emit_andThen,
      append_of_no_room (by exact hroom)]
    refine .fail ?_
    simp [CtRelay.accounted, CtRelay.ring]
  cases hok : (relayBody b m fd ev io r).ok with
  | true => exact absurd (hbody.of_ok hok) id
  | false =>
      obtain ⟨hclosed, hmem⟩ := ctRelayProcess_failed hopen hok
      exact ⟨hclosed, hmem _ (by simpa using hbody.of_not_ok hok)⟩

/-- The header `decrypt_ready` peeks at. -/
theorem ctRingRead_header {q : CtRing} {head : Octets 12} {rest : Bytes}
    (hqueue : q.queue = head.toList ++ rest) : sliceOctets (ctRingRead q 12).2 0 12 = head := by
  have hlen : 12 ≤ q.len := by
    rw [← CtRing.queue_length, hqueue]
    simp
  apply List.Vector.eq
  rw [sliceOctets_toList (by simp [ctRingRead_bytes, hlen]), ctRingRead_bytes, hqueue, slice,
    List.drop_zero, List.take_take, List.take_left' (by simp)]

/-- `decrypt_ready` on exactly one record. -/
theorem decryptReady_single {head : Octets 12} {box plain : Bytes} {n : UInt32} {seq : UInt64}
    (hqueue : r.workInput.queue = head.toList ++ box)
    (hhead : ctDataRecordHeaderDecode head b.chunk r.recvSeq = some (n, seq))
    (hn : n.toNat = box.length)
    (hdec : ctAeadDecrypt m r.cipher r.recvKey r.recvNonce seq head.toList box = some plain)
    (hplain : plain.length ≤ r.toDirect.room) :
    decryptReady b m r =
      .emit
        { r with
          workInput := (ctRingRead (ctRingRead r.workInput 12).1 n.toNat).1
          toDirect := (ctRingWrite r.toDirect plain).1
          recvSeq := seq }
        [.aeadDecrypt ⟨r.recvKey, r.recvNonce, seq, head.toList, box⟩ (some plain),
          .append .toDirect plain plain.length] := by
  have hlen : r.workInput.len = 12 + box.length := by
    rw [← CtRing.queue_length, hqueue]
    simp
  have hpeek := ctRingRead_header hqueue
  have hcall : r.recordCall n seq = ⟨r.recvKey, r.recvNonce, seq, head.toList, box⟩ := by
    simp only [CtRelay.recordCall, hqueue]
    rw [List.take_left' (by simp), List.drop_left' (by simp), hn, List.take_length]
  have hdec' : ctAeadDecrypt m r.cipher r.recvKey r.recvNonce seq (r.recordCall n seq).ad
      (r.recordCall n seq).box = some plain := by
    rw [hcall]
    exact hdec
  have hopened := decryptRecord_opened hdec' hplain
  have hplainLen := CtRelay.recordCall_plain (by omega) hdec'
  rw [decryptReady_loop, if_neg (by omega), hpeek, hhead]
  dsimp only
  rw [if_neg (by omega), if_neg (by omega), hopened, Outcome.emit_andThen, decryptReady_loop,
    if_pos, hcall]
  · rfl
  · simp only [ctRingRead_len]
    omega

/-- One complete record in an empty `work_input` is opened and delivered. -/
theorem ctRelayProcess_opens (hb : b.dataEncryption = true) (hopen : r.closed = false)
    (henc : r.encrypted = true) (hfd : fd ≠ r.direct) (hread : ev.read = true)
    (hwrite : ev.write = false) (hempty : r.workInput.len = 0) {head : Octets 12} {box plain : Bytes}
    {n : UInt32} {seq : UInt64} (hrecv : io.recv.into (b.chunk + 32) = .data (head.toList ++ box))
    (hroom : 12 + box.length ≤ r.workInput.room)
    (hhead : ctDataRecordHeaderDecode head b.chunk r.recvSeq = some (n, seq))
    (hn : n.toNat = box.length)
    (hdec : ctAeadDecrypt m r.cipher r.recvKey r.recvNonce seq head.toList box = some plain)
    (hplain : plain.length ≤ r.toDirect.room) (hsome : plain ≠ []) :
    (∃ a, (ctRelayProcess b m fd ev io r).state = CtRelay.accounted
      { r with
        workInput := (ctRingRead (ctRingRead (ctRingWrite r.workInput
          (head.toList ++ box)).1 12).1 n.toNat).1
        toDirect := (ctRingWrite r.toDirect plain).1
        recvSeq := seq } a) ∧
      ledger (ctRelayProcess b m fd ev io r).effects =
        { Ledger.empty with
          readWork := head.toList ++ box
          delivered := plain
          opened := [(⟨r.recvKey, r.recvNonce, seq, head.toList, box⟩, plain)] } := by
  have hfits : (head.toList ++ box).length ≤ r.workInput.room := by simpa using hroom
  have hqueue : (ctRingWrite r.workInput (head.toList ++ box)).1.queue = head.toList ++ box := by
    have hnil : r.workInput.queue = [] :=
      List.eq_nil_of_length_eq_zero (by rw [CtRing.queue_length, hempty])
    rw [ctRingWrite_queue_of_room hfits, hnil, List.nil_append]
  have hbody : (relayBody b m fd ev io r).Ends []
      (fun r' tr => (∃ a, r' = CtRelay.accounted
          { r with
            workInput := (ctRingRead (ctRingRead (ctRingWrite r.workInput
              (head.toList ++ box)).1 12).1 n.toNat).1
            toDirect := (ctRingWrite r.toDirect plain).1
            recvSeq := seq } a) ∧ ledger tr =
        { Ledger.empty with
          readWork := head.toList ++ box
          delivered := plain
          opened := [(⟨r.recvKey, r.recvNonce, seq, head.toList, box⟩, plain)] })
      (fun _ _ => False) := by
    refine relayBody_read hread hwrite (fun h => absurd h hfd) ?_ ?_
    · intro n' tr htr
      rw [if_neg hfd]
      simp only [readWork, hrecv, hb, Bool.true_and]
      rw [if_pos (by exact henc), Outcome.emit_andThen, append_of_room (by exact hfits),
        Outcome.andThen_of_ok _ rfl, decryptReady_single (by exact hqueue) (by exact hhead) hn
          (by exact hdec) (by exact hplain)]
      refine .emit ⟨⟨n', rfl⟩, ?_⟩
      · rw [← List.append_assoc, ledger_append, ledger_recv, htr]
        simp [ledger, Ledger.append, Ledger.empty, CtRelay.accounted, CtRelay.setRing,
          List.filterMap_cons]
    · rintro r' tr ⟨⟨n', rfl⟩, htr⟩
      refine .emit ⟨⟨_, rfl⟩, ?_⟩
      show ledger (tr ++ (syncBufferMetric b _).effects) = _
      rw [ledger_append, htr, ledger_quiet (syncBufferMetric_quiet b _), Ledger.append_empty]
  cases hok : (relayBody b m fd ev io r).ok with
  | false => exact absurd (hbody.of_not_ok hok) id
  | true =>
      obtain ⟨hstate, hledger⟩ := hbody.of_ok hok
      have hqueued : (relayBody b m fd ev io r).state.toDirect.len ≠ 0 := by
        obtain ⟨a, ha⟩ := hstate
        have hpos := List.length_pos_of_ne_nil hsome
        rw [ha]
        show r.toDirect.len + min plain.length r.toDirect.room ≠ 0
        rw [Nat.min_eq_left hplain]
        omega
      obtain ⟨hsame, hsame'⟩ := ctRelayProcess_ok hopen hok (.inl hqueued)
      exact ⟨hsame ▸ hstate, hsame'.trans hledger⟩

/-- The end of the work socket, before that of the direct socket. -/
theorem ctRelayProcess_work_ends (hopen : r.closed = false) (hfd : fd ≠ r.direct)
    (hread : ev.read = true) (hwrite : ev.write = false) (heof : r.directEof = false)
    (hrecv : io.recv = .eof) :
    (∃ a, (ctRelayProcess b m fd ev io r).state = CtRelay.accounted { r with workEof := true } a) ∧
      ledger (ctRelayProcess b m fd ev io r).effects = .empty := by
  have hbody : (relayBody b m fd ev io r).Ends []
      (fun r' tr => (∃ a, r' = CtRelay.accounted { r with workEof := true } a) ∧ ledger tr = .empty)
      (fun _ _ => False) := by
    refine relayBody_read hread hwrite (fun h => absurd h hfd) ?_ ?_
    · intro a tr htr
      rw [if_neg hfd]
      simp only [readWork, hrecv, RecvResult.into]
      exact .done ⟨⟨a, rfl⟩, htr⟩
    · rintro r' tr ⟨⟨a, rfl⟩, htr⟩
      refine .emit ⟨⟨_, rfl⟩, ?_⟩
      show ledger (tr ++ (syncBufferMetric b _).effects) = _
      rw [ledger_append, htr, ledger_quiet (syncBufferMetric_quiet b _), Ledger.append_empty]
  cases hok : (relayBody b m fd ev io r).ok with
  | false => exact absurd (hbody.of_not_ok hok) id
  | true =>
      obtain ⟨hstate, hledger⟩ := hbody.of_ok hok
      have hsame := ctRelayProcess_half_open hopen hok (by
        obtain ⟨a, ha⟩ := hstate
        rw [ha]
        exact heof)
      exact ⟨hsame.1 ▸ hstate, hsame.2.trans hledger⟩

/-- A `send` that takes all of an unwrapped ring. -/
theorem flush_all {ring : RingId} (hsome : (r.ring ring).len ≠ 0)
    (hpeek : (ctRingPeek (r.ring ring)).length = (r.ring ring).len) :
    flush ring (.sent (r.ring ring).len) r =
      .emit (r.setRing ring (ctRingConsume (r.ring ring) (r.ring ring).len))
        [.sent ring (r.ring ring).queue] := by
  have hall : ctRingPeek (r.ring ring) = (r.ring ring).queue := by
    rw [ctRingPeek_queue, hpeek, List.take_of_length_le (by simp)]
  have hne : ¬ (r.ring ring).queue.isEmpty = true := by
    rw [List.isEmpty_iff_length_eq_zero, CtRing.queue_length]
    exact hsome
  simp only [flush, hall, CtRing.queue_length, Nat.min_self]
  rw [if_neg hne, if_neg hsome, List.take_of_length_le (by simp)]

/-- A flush that empties `to_direct` after the end of the work socket half-closes
the direct socket. -/
theorem ctRelayProcess_half_closes (hopen : r.closed = false) (hfd : fd = r.direct) (hread : ev.read = false) (hwrite : ev.write = true)
    (hidle : r.workInput.len = 0) (heof : r.directEof = false) (hended : r.workEof = true)
    (hheader : r.proxyHeaderPending = false) (hsome : r.toDirect.len ≠ 0)
    (hpeek : (ctRingPeek r.toDirect).length = r.toDirect.len)
    (hsend : io.send = .sent r.toDirect.len) :
    Effect.shutdownWrite r.direct ∈ (ctRelayProcess b m fd ev io r).effects ∧
      ledger (ctRelayProcess b m fd ev io r).effects =
        { Ledger.empty with sentDirect := r.toDirect.queue } := by
  have hflush : flushRelay fd io.send r = .emit
      (r.setRing .toDirect (ctRingConsume r.toDirect r.toDirect.len))
      [.sent .toDirect r.toDirect.queue] := by
    have hring : r.flushRing fd = .toDirect := by rw [CtRelay.flushRing, if_pos hfd]
    have hflush : flush .toDirect (.sent r.toDirect.len) r = _ := flush_all hsome hpeek
    simp only [flushRelay, hheader, hring, hsend, hflush, Bool.false_and, Bool.false_eq_true,
      if_false]
    rfl
  have hbody : (relayBody b m fd ev io r).Ends []
      (fun r' tr => (∃ a, r' = CtRelay.accounted
        (r.setRing .toDirect (ctRingConsume r.toDirect r.toDirect.len)) a) ∧
        ledger tr = { Ledger.empty with sentDirect := r.toDirect.queue })
      (fun _ _ => False) := by
    refine relayBody_write hread hwrite ?_ ?_ ?_
    · rw [hflush]
      exact .emit ⟨⟨r.accountedBufferBytes, rfl⟩, by simp [ledger, Ledger.empty]⟩
    · rintro r' tr ⟨⟨a, rfl⟩, -⟩
      exact hidle
    · rintro r' tr ⟨⟨a, rfl⟩, htr⟩
      refine .emit ⟨⟨_, rfl⟩, ?_⟩
      show ledger (tr ++ (syncBufferMetric b _).effects) = _
      rw [ledger_append, htr, ledger_quiet (syncBufferMetric_quiet b _), Ledger.append_empty]
  cases hok : (relayBody b m fd ev io r).ok with
  | false => exact absurd (hbody.of_not_ok hok) id
  | true =>
      obtain ⟨⟨a, hstate⟩, hledger⟩ := hbody.of_ok hok
      have hhalf : (relayBody b m fd ev io r).state.directEof = false := by
        rw [hstate]
        exact heof
      refine ⟨?_, (ctRelayProcess_half_open hopen hok hhalf).2.trans hledger⟩
      simp [ctRelayProcess, hopen, hok, hstate, relayShutdowns, CtRelay.accounted, CtRelay.setRing,
        heof, hended]

/-- The front of a record in an empty `work_input` waits for the rest. -/
theorem ctRelayProcess_collects (hb : b.dataEncryption = true) (hopen : r.closed = false)
    (henc : r.encrypted = true) (hfd : fd ≠ r.direct) (hread : ev.read = true)
    (hwrite : ev.write = false) (hempty : r.workInput.len = 0) (heof : r.directEof = false)
    {head : Octets 12} {part : Bytes} {n : UInt32} {seq : UInt64}
    (hrecv : io.recv.into (b.chunk + 32) = .data (head.toList ++ part))
    (hroom : 12 + part.length ≤ r.workInput.room)
    (hhead : ctDataRecordHeaderDecode head b.chunk r.recvSeq = some (n, seq))
    (hpart : part.length < n.toNat) :
    (∃ a, (ctRelayProcess b m fd ev io r).state =
        CtRelay.accounted { r with workInput := (ctRingWrite r.workInput (head.toList ++ part)).1 } a) ∧
      ledger (ctRelayProcess b m fd ev io r).effects =
        { Ledger.empty with readWork := head.toList ++ part } := by
  have hfits : (head.toList ++ part).length ≤ r.workInput.room := by simpa using hroom
  have hnil : r.workInput.queue = [] :=
    List.eq_nil_of_length_eq_zero (by rw [CtRing.queue_length, hempty])
  have hqueue : (ctRingWrite r.workInput (head.toList ++ part)).1.queue = head.toList ++ part := by
    rw [ctRingWrite_queue_of_room hfits, hnil, List.nil_append]
  have hlen : (ctRingWrite r.workInput (head.toList ++ part)).1.len = 12 + part.length := by
    rw [← CtRing.queue_length, hqueue]
    simp
  have hpeek := ctRingRead_header hqueue
  have hbody : (relayBody b m fd ev io r).Ends []
      (fun r' tr => (∃ a, r' = CtRelay.accounted
        { r with workInput := (ctRingWrite r.workInput (head.toList ++ part)).1 } a) ∧
          ledger tr = { Ledger.empty with readWork := head.toList ++ part })
      (fun _ _ => False) := by
    refine relayBody_read hread hwrite (fun h => absurd h hfd) ?_ ?_
    · intro a tr htr
      rw [if_neg hfd]
      simp only [readWork, hrecv, hb, Bool.true_and]
      rw [if_pos (by exact henc), Outcome.emit_andThen, append_of_room (by exact hfits),
        Outcome.andThen_of_ok _ rfl, decryptReady_loop]
      simp only [CtRelay.setRing, CtRelay.ring, CtRelay.accounted, hlen, hpeek, hhead]
      rw [if_neg (by omega), if_pos (by omega)]
      refine .emit ⟨⟨a, rfl⟩, ?_⟩
      rw [Outcome.done_effects, List.append_nil, ← List.append_assoc, ledger_append, ledger_recv,
        htr]
      simp [ledger, Ledger.append, Ledger.empty]
    · rintro r' tr ⟨⟨a, rfl⟩, htr⟩
      refine .emit ⟨⟨_, rfl⟩, ?_⟩
      show ledger (tr ++ (syncBufferMetric b _).effects) = _
      rw [ledger_append, htr, ledger_quiet (syncBufferMetric_quiet b _), Ledger.append_empty]
  cases hok : (relayBody b m fd ev io r).ok with
  | false => exact absurd (hbody.of_not_ok hok) id
  | true =>
      obtain ⟨hstate, hledger⟩ := hbody.of_ok hok
      have hsame := ctRelayProcess_half_open hopen hok (by
        obtain ⟨a, ha⟩ := hstate
        rw [ha]
        exact heof)
      exact ⟨hsame.1 ▸ hstate, hsame.2.trans hledger⟩

/-- A header out of range at the front of an empty `work_input` is rejected. -/
theorem ctRelayProcess_rejects (hb : b.dataEncryption = true) (hopen : r.closed = false)
    (henc : r.encrypted = true) (hfd : fd ≠ r.direct) (hread : ev.read = true)
    (hwrite : ev.write = false) (hempty : r.workInput.len = 0) {head : Octets 12}
    (hrecv : io.recv.into (b.chunk + 32) = .data head.toList) (hroom : 12 ≤ r.workInput.room)
    (hhead : ctDataRecordHeaderDecode head b.chunk r.recvSeq = none) :
    (ledger (ctRelayProcess b m fd ev io r).effects).readWork = head.toList ∧
      (ledger (ctRelayProcess b m fd ev io r).effects).rejections ≠ 0 := by
  have hfits : head.toList.length ≤ r.workInput.room := by simpa using hroom
  have hqueue : (ctRingWrite r.workInput head.toList).1.queue = head.toList ++ [] := by
    have hnil : r.workInput.queue = [] :=
      List.eq_nil_of_length_eq_zero (by rw [CtRing.queue_length, hempty])
    rw [ctRingWrite_queue_of_room hfits, hnil, List.nil_append, List.append_nil]
  have hlen : (ctRingWrite r.workInput head.toList).1.len = 12 := by
    rw [← CtRing.queue_length, hqueue]
    simp
  have hpeek := ctRingRead_header hqueue
  have hbody : (relayBody b m fd ev io r).Ends [] (fun _ _ => False)
      (fun _ tr => (ledger tr).readWork = head.toList ∧ (ledger tr).rejections ≠ 0) := by
    refine relayBody_read hread hwrite (fun h => absurd h hfd) ?_ (fun _ _ h => h.elim)
    intro a tr htr
    rw [if_neg hfd]
    simp only [readWork, hrecv, hb, Bool.true_and]
    rw [if_pos (by exact henc), Outcome.emit_andThen, append_of_room (by exact hfits),
      Outcome.andThen_of_ok _ rfl, decryptReady_loop]
    simp only [CtRelay.setRing, CtRelay.ring, CtRelay.accounted, hlen, hpeek, hhead]
    rw [if_neg (by omega)]
    refine .fail ?_
    rw [Outcome.fail_effects, ← List.append_assoc, ledger_append, ledger_recv, htr]
    simp [ledger, Ledger.append, Ledger.empty]
  cases hok : (relayBody b m fd ev io r).ok with
  | true => exact absurd (hbody.of_ok hok) id
  | false =>
      have hfail := hbody.of_not_ok hok
      have hquiet : ∀ e ∈ [Effect.inc .streamsFailedTotal] ++
          (ctRelayClose b (relayBody b m fd ev io r).state).effects, e.quiet = true := by
        intro e he
        rcases List.mem_append.mp he with he | he
        · rw [List.mem_singleton.mp he]
          rfl
        · exact ctRelayClose_quiet b _ e he
      simp only [ctRelayProcess, hopen, hok, Bool.false_eq_true, if_false, Outcome.fail_effects]
      rw [List.append_assoc, ledger_append, ledger_quiet hquiet, Ledger.append_empty]
      exact hfail

end Ctunnel
