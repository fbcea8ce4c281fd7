import Ctunnel.Net.RelayFlow
import Ctunnel.Net.RelayOpen

/-!
# What calls do to keys and sequence numbers

For everything that seals boxes, the one view both ends share: a control channel
moves by `ControlMove`, a relay by `RelayMove`. A move seals at most one box, under
the next sequence number.
-/

namespace Ctunnel

open Lib

/-! ## Keyed effects of a trace -/

/-- The trace `tr'` continues `tr`, and its new keyed effects are `L`. -/
def Added (tr : List Effect) (L : List Effect) (tr' : List Effect) : Prop :=
  ∃ es, tr' = tr ++ es ∧ keyed es = L

namespace Added

variable {tr tr' tr'' es L L' : List Effect}

theorem refl (tr : List Effect) : Added tr [] tr := ⟨[], by simp, rfl⟩

theorem trans (h : Added tr L tr') (h' : Added tr' L' tr'') : Added tr (L ++ L') tr'' := by
  obtain ⟨es, rfl, rfl⟩ := h
  obtain ⟨es', rfl, rfl⟩ := h'
  exact ⟨es ++ es', by simp, keyed_append es es'⟩

theorem append (h : Added tr L tr') (es : List Effect) : Added tr (L ++ keyed es) (tr' ++ es) :=
  h.trans ⟨es, rfl, rfl⟩

theorem plain (h : Added tr L tr') (hes : ∀ e ∈ es, e.keyed = false) :
    Added tr L (tr' ++ es) := by
  simpa [keyed_eq_nil hes] using h.append es

end Added

theorem keyed_of_quiet {e : Effect} (h : e.quiet = true) : e.keyed = false := by
  cases e <;> first | rfl | exact absurd h (by simp [Effect.quiet])

/-! ## Control channels -/

/-- The parts of a control channel that no traffic changes. -/
structure SameChannel (c c' : CtControl) : Prop where
  keys : c'.keys = c.keys
  cipher : c'.cipher = c.cipher
  isClient : c'.isClient = c.isClient
  clientId : c'.clientId = c.clientId
  workTxSeq : c'.workTxSeq = c.workTxSeq
  workRxHigh : c'.workRxHigh = c.workRxHigh
  workRxBitmap : c'.workRxBitmap = c.workRxBitmap

theorem SameChannel.refl (c : CtControl) : SameChannel c c := ⟨rfl, rfl, rfl, rfl, rfl, rfl, rfl⟩

/-- What a send or a receive does to its channel. -/
inductive ControlMove (c : CtControl) : List Effect → CtControl → Prop
  | quiet {c' : CtControl} (h : SameChannel c c') (hseq : c.txSeq.toNat ≤ c'.txSeq.toNat) :
      ControlMove c [] c'
  | sealed {c' : CtControl} (h : SameChannel c c') (hcipher : c.cipher ≠ .none)
      (hseq : c'.txSeq.toNat = c.txSeq.toNat + 1) (ad box plain : Bytes) :
      ControlMove c [.aeadEncrypt ⟨c.txKey, c.txNonce, c'.txSeq, ad, box⟩ plain] c'

theorem ControlMove.same {c c' : CtControl} {L : List Effect} (h : ControlMove c L c') :
    SameChannel c c' := by
  cases h with
  | quiet h hseq => exact h
  | sealed h hcipher hseq ad box plain => exact h

/-- The times of a channel are not part of its moves. -/
theorem ControlMove.timed {c c' : CtControl} {L : List Effect} (h : ControlMove c L c')
    (rx tx retry : UInt64) :
    ControlMove c L { c' with lastRxMs := rx, lastTxMs := tx, readRetryAfterMs := retry } := by
  cases h with
  | quiet h hseq => exact .quiet { h with } hseq
  | sealed h hcipher hseq ad box plain =>
      exact @ControlMove.sealed c { c' with lastRxMs := rx, lastTxMs := tx, readRetryAfterMs := retry }
        { h with } hcipher hseq ad box plain

theorem ControlSent.move {b : Build} {m : Monocypher} {type : UInt8} {stream : UInt64} {p : Bytes}
    {c c' : CtControl} {tr tr' : List Effect} (h : ControlSent b m type stream p c tr c' tr') :
    ∃ L, Added tr L tr' ∧ ControlMove c L c' := by
  cases h with
  | refused hor =>
      exact ⟨[], (Added.refl tr).plain (by simp [Effect.keyed]), .quiet (.refl c) (Nat.le_refl _)⟩
  | dropped hseq hlen =>
      refine ⟨[], (Added.refl tr).plain (by simp [Effect.keyed]),
        .quiet ⟨rfl, rfl, rfl, rfl, rfl, rfl, rfl⟩ ?_⟩
      show c.txSeq.toNat ≤ (c.txSeq + 1).toNat
      rw [toNat_succ_of_ne_max hseq]
      omega
  | sealed hseq hlen head box hhead hbox last sent =>
      have hcipher : c.cipher ≠ .none := by
        rw [ctAeadEncrypt_cipher hbox]
        decide
      have hcall : Added tr [] (tr ++ [.controlSend type stream p]) :=
        (Added.refl tr).plain (by simp [Effect.keyed])
      have hseal := hcall.append [.aeadEncrypt ⟨c.txKey, c.txNonce, c.txSeq + 1, head.toList, box⟩ p]
      refine ⟨[.aeadEncrypt ⟨c.txKey, c.txNonce, c.txSeq + 1, head.toList, box⟩ p],
        hseal.plain ?_, ?_⟩
      · intro e he
        obtain ⟨x, -, rfl⟩ := List.mem_map.mp he
        rfl
      · exact @ControlMove.sealed c { c with txSeq := c.txSeq + 1, lastTxMs := last }
          ⟨rfl, rfl, rfl, rfl, rfl, rfl, rfl⟩ hcipher (toNat_succ_of_ne_max hseq) head.toList box p

theorem ControlReceived.move {b : Build} {m : Monocypher} {c c' : CtControl} {tr tr' : List Effect}
    {v : Option (CtFrameHeader × Bytes)} (h : ControlReceived b m c tr v c' tr') :
    Added tr [] tr' ∧ ControlMove c [] c' := by
  cases h with
  | refused => exact ⟨Added.refl tr, .quiet (.refl c) (Nat.le_refl _)⟩
  | rejected call =>
      exact ⟨(Added.refl tr).plain (by simp [Effect.keyed]), .quiet (.refl c) (Nat.le_refl _)⟩
  | accepted h head box p hhead hflags hsession hmax hseq hopen last =>
      refine ⟨?_, .quiet ⟨rfl, rfl, rfl, rfl, rfl, rfl, rfl⟩ (Nat.le_refl _)⟩
      exact ((Added.refl tr).plain (by simp [Effect.keyed])).plain (by simp [Effect.keyed])

/-- A received frame was opened with the channel's cipher. -/
theorem ControlReceived.cipher {b : Build} {m : Monocypher} {c c' : CtControl}
    {tr tr' : List Effect} {v : CtFrameHeader × Bytes}
    (h : ControlReceived b m c tr (some v) c' tr') : c.cipher ≠ .none := by
  cases h with
  | accepted h head box p hhead hflags hsession hmax hseq hopen last =>
      rw [ctAeadDecrypt_cipher hopen]
      decide

/-! ## Relays -/

/-- The parts of a relay that sealing depends on. -/
structure SameSealing (r r' : CtRelay) : Prop where
  closed : r'.closed = r.closed
  encrypted : r'.encrypted = r.encrypted
  sendKey : r'.sendKey = r.sendKey
  sendNonce : r'.sendNonce = r.sendNonce
  sendSeq : r'.sendSeq = r.sendSeq

theorem SameSealing.refl (r : CtRelay) : SameSealing r r := ⟨rfl, rfl, rfl, rfl, rfl⟩

/-- What one event does to a relay. -/
inductive RelayMove (r : CtRelay) : List Effect → CtRelay → Prop
  | quiet {r' : CtRelay} (h : r'.closed = true ∨ SameSealing r r') : RelayMove r [] r'
  | sealed {r' : CtRelay} (hopen : r.closed = false) (henc : r.encrypted = true)
      (hseq : (r.sendSeq + 1).toNat = r.sendSeq.toNat + 1)
      (h : r'.closed = true ∨ SameSealing { r with sendSeq := r.sendSeq + 1 } r')
      (ad box plain : Bytes) :
      RelayMove r [.aeadEncrypt ⟨r.sendKey, r.sendNonce, r.sendSeq + 1, ad, box⟩ plain] r'

/-- Nothing was sealed since `r` and `tr`. -/
def Unsealed (r : CtRelay) (tr : List Effect) (r' : CtRelay) (tr' : List Effect) : Prop :=
  SameSealing r r' ∧ Added tr [] tr'

section Process

variable {b : Build} {m : Monocypher} {r : CtRelay} {tr : List Effect}

theorem setRing_sealing (r : CtRelay) (ring : RingId) (q : CtRing) :
    SameSealing r (r.setRing ring q) := by
  cases ring <;> exact ⟨rfl, rfl, rfl, rfl, rfl⟩

theorem SameSealing.trans {r' r'' : CtRelay} (h : SameSealing r r') (h' : SameSealing r' r'') :
    SameSealing r r'' :=
  ⟨h'.closed.trans h.closed, h'.encrypted.trans h.encrypted, h'.sendKey.trans h.sendKey,
    h'.sendNonce.trans h.sendNonce, h'.sendSeq.trans h.sendSeq⟩

theorem syncBufferMetric_unsealed :
    Triple (Unsealed r tr) (syncBufferMetric b) (Unsealed r tr) (fun _ => Added tr []) := by
  intro r' tr' h
  refine .emit ⟨h.1.trans ⟨rfl, rfl, rfl, rfl, rfl⟩, h.2.plain ?_⟩
  exact fun e he => keyed_of_quiet (syncBufferMetric_quiet b r' e he)

theorem append_unsealed (ring : RingId) (src : Bytes) :
    Triple (Unsealed r tr) (append ring src) (Unsealed r tr) (fun _ => Added tr []) := by
  intro r' tr' h
  have hadd : Added tr [] (tr' ++ (append ring src r').effects) :=
    h.2.plain (by simp [append, Effect.keyed])
  unfold Outcome.Ends
  split
  · exact ⟨h.1.trans (setRing_sealing r' ring _), hadd⟩
  · exact hadd

theorem flushRelay_unsealed (fd : Socket) (res : SendResult) :
    Triple (Unsealed r tr) (flushRelay fd res) (Unsealed r tr) (fun _ => Added tr []) := by
  intro r' tr' h
  have hflush : (flush (r'.flushRing fd) res r').Ends tr' (Unsealed r tr) (Unsealed r tr) := by
    rcases flush_cases (r'.flushRing fd) res r' with heq | heq | ⟨z, heq⟩
    · rw [heq]
      exact .done h
    · rw [heq]
      exact .fail (by simpa using h)
    · rw [heq]
      exact .emit ⟨h.1.trans (setRing_sealing r' _ _), h.2.plain (by simp [Effect.keyed])⟩
  rcases flushRelay_cases fd res r' with ⟨hok, pending, remaining, heq⟩ | ⟨hok, es, heq, hes⟩
  · have hdone := hflush.of_ok hok
    rw [heq]
    exact .emit ⟨hdone.1.trans ⟨rfl, rfl, rfl, rfl, rfl⟩, hdone.2⟩
  · have hfail := hflush.of_not_ok hok
    rw [heq]
    refine .fail ?_
    rw [← List.append_assoc]
    refine hfail.2.plain ?_
    intro e he
    rw [hes e he]
    rfl

theorem decryptRecord_unsealed (n : UInt32) (seq : UInt64) :
    Triple (Unsealed r tr) (decryptRecord m n seq) (Unsealed r tr) (fun _ => Added tr []) := by
  intro r' tr' h
  simp only [decryptRecord]
  split
  · exact .fail (h.2.plain (by simp [Effect.keyed]))
  · refine Outcome.Ends.andThen (Outcome.Ends.andThen (Q := Unsealed r tr)
      (.emit ⟨h.1.trans ⟨rfl, rfl, rfl, rfl, rfl⟩, h.2.plain (by simp [Effect.keyed])⟩)
      (append_unsealed _ _)) ?_
    intro r'' tr'' h''
    exact .done ⟨h''.1.trans ⟨rfl, rfl, rfl, rfl, rfl⟩, h''.2⟩

theorem decryptLoop_unsealed (fuel : Nat) :
    Triple (Unsealed r tr) (decryptLoop b m fuel) (Unsealed r tr) (fun _ => Added tr []) := by
  induction fuel with
  | zero => exact fun r' tr' h => .done h
  | succ fuel ih =>
      intro r' tr' h
      unfold decryptLoop
      split
      · exact .done h
      · dsimp only
        split
        · exact .fail (h.2.plain (by simp [Effect.keyed]))
        · split
          · exact .done h
          · split
            · exact .done h
            · exact (decryptRecord_unsealed _ _ r' tr' h).andThen ih

theorem drainRelay_unsealed (fd : Socket) :
    Triple (Unsealed r tr) (drainRelay b m fd) (Unsealed r tr) (fun _ => Added tr []) := by
  intro r' tr' h
  unfold drainRelay
  split
  · exact decryptLoop_unsealed _ r' tr' h
  · exact .done h

/-- One record was sealed since `r` and `tr`, under the next sequence number. -/
def Sealed (r : CtRelay) (tr tr' : List Effect) : Prop :=
  r.encrypted = true ∧ (r.sendSeq + 1).toNat = r.sendSeq.toNat + 1 ∧ ∃ ad box plain,
    Added tr [.aeadEncrypt ⟨r.sendKey, r.sendNonce, r.sendSeq + 1, ad, box⟩ plain] tr'

theorem Sealed.plain {tr' es : List Effect} (h : Sealed r tr tr')
    (hes : ∀ e ∈ es, e.keyed = false) : Sealed r tr (tr' ++ es) := by
  obtain ⟨henc, hseq, ad, box, plain, hadd⟩ := h
  exact ⟨henc, hseq, ad, box, plain, hadd.plain hes⟩

/-- At most one record was sealed, and the counter agrees. -/
def Counted (r : CtRelay) (tr : List Effect) (r' : CtRelay) (tr' : List Effect) : Prop :=
  Unsealed r tr r' tr' ∨ Sealed r tr tr' ∧ SameSealing { r with sendSeq := r.sendSeq + 1 } r'

/-- At most one record was sealed. -/
def SealedOnce (r : CtRelay) (tr : List Effect) (_ : CtRelay) (tr' : List Effect) : Prop :=
  Added tr [] tr' ∨ Sealed r tr tr'

theorem SealedOnce.plain {r' : CtRelay} {tr' es : List Effect} (h : SealedOnce r tr r' tr')
    (hes : ∀ e ∈ es, e.keyed = false) : SealedOnce r tr r' (tr' ++ es) :=
  h.elim (fun h => .inl (h.plain hes)) (fun h => .inr (h.plain hes))

theorem Counted.plain {r' : CtRelay} {tr' es : List Effect} (h : Counted r tr r' tr')
    (hes : ∀ e ∈ es, e.keyed = false) : Counted r tr r' (tr' ++ es) :=
  h.elim (fun h => .inl ⟨h.1, h.2.plain hes⟩) (fun h => .inr ⟨h.1.plain hes, h.2⟩)

theorem Counted.once {r' : CtRelay} {tr' : List Effect} (h : Counted r tr r' tr') :
    SealedOnce r tr r' tr' :=
  h.elim (fun h => .inl h.2) (fun h => .inr h.1)

theorem encryptChunk_counted (p : Bytes) {r' : CtRelay} {tr' : List Effect}
    (henc : r.encrypted = true) (h : Unsealed r tr r' tr') :
    (encryptChunk m p r').Ends tr' (Counted r tr) (SealedOnce r tr) := by
  unfold encryptChunk
  split
  · exact .fail (.inl (by simpa using h.2))
  · rename_i hmax
    rw [h.1.sendSeq] at hmax
    dsimp only
    split
    · exact .fail (.inl (h.2.plain (by simp [Effect.keyed])))
    · rename_i box hbox
      rw [h.1.sendKey, h.1.sendNonce, h.1.sendSeq]
      refine Outcome.Ends.andThen
        (Q := fun r'' tr'' => Sealed r tr tr'' ∧ SameSealing { r with sendSeq := r.sendSeq + 1 } r'')
        (.emit ⟨⟨henc, toNat_succ_of_ne_max hmax, _, box, p, h.2.append _⟩,
          ⟨h.1.closed, h.1.encrypted, rfl, rfl, rfl⟩⟩) ?_
      rintro r'' tr'' ⟨hseal, hsame⟩
      have hring : ∀ src, SameSealing r'' (append .toWork src r'').state :=
        fun src => setRing_sealing r'' .toWork _
      unfold Outcome.Ends
      split
      · exact .inr ⟨hseal.plain (by simp [append, Effect.keyed]), hsame.trans (hring _)⟩
      · exact .inr (hseal.plain (by simp [append, Effect.keyed]))

theorem readDirect_counted (res : RecvResult) {r' : CtRelay} {tr' : List Effect}
    (h : Unsealed r tr r' tr') :
    (readDirect b m res r').Ends tr' (Counted r tr) (SealedOnce r tr) := by
  unfold readDirect
  split
  · rename_i bytes _
    refine Outcome.Ends.andThen (Q := fun r'' tr'' => r'' = r' ∧ Added tr [] tr'')
      (.emit ⟨rfl, h.2.plain (by simp [Effect.keyed, metricBytes])⟩) ?_
    rintro r'' tr'' ⟨rfl, hadd⟩
    split
    · rename_i henc
      simp only [Bool.and_eq_true] at henc
      exact encryptChunk_counted bytes (h.1.encrypted ▸ henc.2) ⟨h.1, hadd⟩
    · have happ := append_unsealed (r := r) RingId.toWork bytes r'' tr'' ⟨h.1, hadd⟩
      exact happ.weaken (fun _ _ => .inl) (fun _ _ => .inl)
  · exact .done (.inl ⟨h.1.trans ⟨rfl, rfl, rfl, rfl, rfl⟩, h.2⟩)
  · exact .done (.inl h)
  · exact .fail (.inl (by simpa using h.2))

theorem readWork_unsealed (res : RecvResult) :
    Triple (Unsealed r tr) (readWork b m res) (Unsealed r tr) (fun _ => Added tr []) := by
  intro r' tr' h
  unfold readWork
  split
  · refine Outcome.Ends.andThen (Q := Unsealed r tr)
      (.emit ⟨h.1, h.2.plain (by simp [Effect.keyed, metricBytes])⟩) ?_
    intro r'' tr'' h''
    split
    · exact (append_unsealed _ _ r'' tr'' h'').andThen fun s t h => decryptLoop_unsealed _ s t h
    · exact append_unsealed _ _ r'' tr'' h''
  · exact .done ⟨h.1.trans ⟨rfl, rfl, rfl, rfl, rfl⟩, h.2⟩
  · exact .done h
  · exact .fail (by simpa using h.2)

theorem relayBody_counted (fd : Socket) (ev : EvMask) (io : RelayIo) :
    Triple (Unsealed r tr) (relayBody b m fd ev io) (Counted r tr) (SealedOnce r tr) := by
  have hweak : ∀ {op : CtRelay → RelayOutcome}, Triple (Unsealed r tr) op (Unsealed r tr)
      (fun _ => Added tr []) → Triple (Unsealed r tr) op (Unsealed r tr) (SealedOnce r tr) :=
    fun hop r' tr' h => (hop r' tr' h).weaken (fun _ _ => id) (fun _ _ => .inl)
  refine relayBody_ends (hweak syncBufferMetric_unsealed)
    (fun _ => hweak (flushRelay_unsealed fd io.send)) (fun _ => hweak (drainRelay_unsealed fd))
    ?_ (fun _ r' tr' => .inl) ?_
  · intro _ r' tr' h
    dsimp only
    split
    · exact readDirect_counted io.recv h
    · exact (readWork_unsealed io.recv r' tr' h).weaken (fun _ _ => .inl) (fun _ _ => .inl)
  · rintro r' tr' (h | ⟨hseal, hsame⟩)
    · exact (syncBufferMetric_unsealed r' tr' h).weaken (fun _ _ => .inl) (fun _ _ => .inl)
    · refine .emit (.inr ⟨hseal.plain ?_, hsame.trans ⟨rfl, rfl, rfl, rfl, rfl⟩⟩)
      exact fun e he => keyed_of_quiet (syncBufferMetric_quiet b r' e he)

/-- One event of a relay. -/
theorem ctRelayProcess_move (fd : Socket) (ev : EvMask) (io : RelayIo) (r : CtRelay)
    (tr : List Effect) : ∃ L, Added tr L (tr ++ (ctRelayProcess b m fd ev io r).effects) ∧
      RelayMove r L (ctRelayProcess b m fd ev io r).state := by
  have hbody := relayBody_counted (b := b) (m := m) fd ev io r tr ⟨.refl r, .refl tr⟩
  have hclose : ∀ r' tr', SealedOnce r tr r' tr' → r.closed = false →
      ∃ L, Added tr L (tr' ++ (ctRelayClose b r').effects) ∧
        RelayMove r L (ctRelayClose b r').state := by
    intro r' tr' h hopen
    have hquiet : ∀ e ∈ (ctRelayClose b r').effects, e.keyed = false :=
      fun e he => keyed_of_quiet (ctRelayClose_quiet b r' e he)
    rcases h with h | ⟨henc, hseq, ad, box, plain, h⟩
    · exact ⟨[], h.plain hquiet, .quiet (.inl rfl)⟩
    · exact ⟨_, h.plain hquiet, .sealed hopen henc hseq (.inl rfl) ad box plain⟩
  unfold ctRelayProcess
  split
  · exact ⟨[], by simpa using Added.refl tr, .quiet (.inr (.refl r))⟩
  · rename_i hclosed
    have hopen : r.closed = false := by simpa using hclosed
    dsimp only
    have hshut : ∀ r', ∀ e ∈ relayShutdowns r', Effect.keyed e = false :=
      fun r' e he => keyed_of_quiet (relayShutdowns_quiet r' e he)
    split
    · rename_i hok
      have hcount := (hbody.of_ok hok).plain (hshut (relayBody b m fd ev io r).state)
      split
      · simpa [← List.append_assoc] using hclose _ _ hcount.once hopen
      · rcases hcount with ⟨hsame, hadd⟩ | ⟨⟨henc, hseq, ad, box, plain, hadd⟩, hsame⟩
        · exact ⟨[], by simpa using hadd, .quiet (.inr hsame)⟩
        · exact ⟨_, by simpa using hadd, .sealed hopen henc hseq (.inr hsame) ad box plain⟩
    · rename_i hok
      have honce : SealedOnce r tr (relayBody b m fd ev io r).state
          (tr ++ (relayBody b m fd ev io r).effects ++ [.inc .streamsFailedTotal]) :=
        (hbody.of_not_ok (by simpa using hok)).plain (by simp [Effect.keyed])
      simpa [← List.append_assoc] using hclose _ _ honce hopen

end Process

end Ctunnel
