import Ctunnel.Net.RelayFlow

/-!
# Records that wait in `work_input`

`decrypt_ready` stops at a record that is incomplete or whose plaintext has no
room in `to_direct`. An event that makes room there, or adds bytes to
`work_input`, opens what it can before it returns, so between two events
`decrypt_ready` has nothing left to do (`Drained`).
-/

namespace Ctunnel

open Lib

/-! ## The record at the front -/

/-- The length field of a record header. -/
def recordLength (bytes : Bytes) : Nat := (ctGetU32 bytes 0).toNat

/-- The bytes start with a whole record. -/
def CompleteRecord (bytes : Bytes) : Prop :=
  12 ≤ bytes.length ∧ 12 + recordLength bytes ≤ bytes.length

instance (bytes : Bytes) : Decidable (CompleteRecord bytes) :=
  inferInstanceAs (Decidable (_ ∧ _))

/-- The header `decrypt_ready` peeks at. -/
def CtRelay.frontHeader (r : CtRelay) : Octets 12 := sliceOctets (r.workInput.queue.take 12) 0 12

/-- `decrypt_ready` has nothing to do: less than a header, part of a record, or a
record whose plaintext has no room. -/
def Drained (b : Build) (r : CtRelay) : Prop :=
  12 ≤ r.workInput.len → ∃ n seq,
    ctDataRecordHeaderDecode r.frontHeader b.chunk r.recvSeq = some (n, seq) ∧
      (r.workInput.len < 12 + n.toNat ∨ r.toDirect.room < n.toNat - ctAeadTag)

theorem frontHeader_length {r : CtRelay} {b : Build} {n : UInt32} {seq : UInt64}
    (hlen : 12 ≤ r.workInput.len)
    (h : ctDataRecordHeaderDecode r.frontHeader b.chunk r.recvSeq = some (n, seq)) :
    n.toNat = recordLength r.workInput.queue := by
  have hn : n = ctGetU32 r.frontHeader.toList 0 := by
    simp only [ctDataRecordHeaderDecode] at h
    split at h
    · exact absurd h (by simp)
    · simp only [Option.some.injEq, Prod.mk.injEq] at h
      exact h.1.symm
  have htake : r.frontHeader.toList = r.workInput.queue.take 12 := by
    rw [CtRelay.frontHeader, sliceOctets_toList (by simp; omega)]
    simp [slice]
  rw [hn, htake]
  simp [recordLength, ctGetU32, slice, List.take_take]

/-- A record that waits does so for room in `to_direct`. -/
theorem Drained.no_room {b : Build} {r : CtRelay} (h : Drained b r)
    (hfront : CompleteRecord r.workInput.queue) :
    r.toDirect.room < recordLength r.workInput.queue - ctAeadTag ∧
      recordLength r.workInput.queue ≤ b.chunk + ctAeadTag := by
  obtain ⟨hlen, hfull⟩ := hfront
  rw [r.workInput.queue_length] at hlen hfull
  obtain ⟨n, seq, hdecode, hwait⟩ := h hlen
  have hn := frontHeader_length hlen hdecode
  have hmax := (ctDataRecordHeaderDecode_some hdecode).2.1
  omega

/-! ## One event -/

section Stages

variable {b : Build} {m : Monocypher} {fds : Socket × Socket}

/-- An encrypted relay between two sockets, with rings of the configured size. -/
structure Sized (b : Build) (fds : Socket × Socket) (r : CtRelay) : Prop where
  sockets : (r.direct, r.work) = fds
  encrypted : r.encrypted = true
  toDirect : r.toDirect.cap = b.streamBufferSize
  workInput : r.workInput.cap = b.streamBufferSize

/-- It has nothing to decrypt. -/
def Settled (b : Build) (fds : Socket × Socket) (r : CtRelay) (_ : List Effect) : Prop :=
  Sized b fds r ∧ Drained b r

/-- As `Settled`, but the event may have made room in `to_direct`. -/
def Flushed (b : Build) (fds : Socket × Socket) (fd : Socket) (r : CtRelay) (_ : List Effect) : Prop :=
  Sized b fds r ∧ (fd = r.direct ∨ Drained b r)

theorem Sized.append {r : CtRelay} (h : Sized b fds r) (ring : RingId) (src : Bytes) :
    Sized b fds (append ring src r).state := by
  cases ring with
  | toDirect => exact { h with toDirect := (ctRingWrite_cap _ _).trans h.toDirect }
  | toWork => exact { h with }
  | workInput => exact { h with workInput := (ctRingWrite_cap _ _).trans h.workInput }

theorem Sized.decryptRecord {r : CtRelay} (h : Sized b fds r) (n : UInt32) (seq : UInt64) :
    Sized b fds (decryptRecord m n seq r).state := by
  have hread : Sized b fds
      { r with workInput := (ctRingRead (ctRingRead r.workInput 12).1 n.toNat).1 } :=
    { h with }
  unfold Ctunnel.decryptRecord
  dsimp only
  split
  · exact hread
  · rename_i plain _
    rw [Outcome.emit_andThen]
    unfold Outcome.andThen
    split
    · exact { hread.append .toDirect plain with }
    · exact hread.append .toDirect plain

theorem decryptLoop_settled (fuel : Nat) (r : CtRelay) (tr : List Effect)
    (hfuel : r.workInput.len ≤ fuel) (hsize : Sized b fds r) :
    (decryptLoop b m fuel r).Ends tr (Settled b fds) (fun _ _ => True) := by
  induction fuel generalizing r tr with
  | zero => exact .done ⟨hsize, fun hlen => by omega⟩
  | succ fuel ih =>
      unfold decryptLoop
      split
      · exact .done ⟨hsize, fun h => by omega⟩
      · rw [ctRingRead_bytes]
        dsimp only
        split
        · exact .fail trivial
        · rename_i n seq hdecode
          split
          · rename_i hpart
            exact .done ⟨hsize, fun _ => ⟨n, seq, hdecode, .inl hpart⟩⟩
          · split
            · rename_i hroom
              exact .done ⟨hsize, fun _ => ⟨n, seq, hdecode, .inr hroom⟩⟩
            · have hrecord : (decryptRecord m n seq r).Ends tr
                  (fun r' _ => r'.workInput.len ≤ fuel ∧ Sized b fds r') (fun _ _ => True) := by
                unfold Outcome.Ends
                split
                · rename_i hok
                  have hshrink := decryptRecord_shrinks (by omega) hok
                  exact ⟨by omega, hsize.decryptRecord n seq⟩
                · trivial
              exact hrecord.andThen fun r' tr' h => ih r' tr' h.1 h.2

theorem decryptReady_settled (r : CtRelay) (tr : List Effect) (hsize : Sized b fds r) :
    (decryptReady b m r).Ends tr (Settled b fds) (fun _ _ => True) :=
  decryptLoop_settled _ r tr (Nat.le_refl _) hsize

theorem syncBufferMetric_settled :
    Triple (Settled b fds) (syncBufferMetric b) (Settled b fds) (fun _ _ => True) :=
  fun _ _ h => .emit ⟨{ h.1 with }, h.2⟩

theorem syncBufferMetric_flushed (fd : Socket) :
    Triple (Flushed b fds fd) (syncBufferMetric b) (Flushed b fds fd) (fun _ _ => True) :=
  fun _ _ h => .emit ⟨{ h.1 with }, h.2⟩

/-- Only a flush of the direct socket makes room in `to_direct`. -/
theorem flushRelay_flushed (fd : Socket) (res : SendResult) :
    Triple (Flushed b fds fd) (flushRelay fd res) (Flushed b fds fd) (fun _ _ => True) := by
  rintro r tr ⟨hsize, h⟩
  have hflush : (flush (r.flushRing fd) res r).Ends tr (Flushed b fds fd) (fun _ _ => True) := by
    rcases flush_cases (r.flushRing fd) res r with heq | heq | ⟨z, heq⟩
    · rw [heq]
      exact .done ⟨hsize, h⟩
    · rw [heq]
      exact .fail trivial
    · rw [heq]
      unfold CtRelay.flushRing
      split
      · rename_i hfd
        exact .emit ⟨{ hsize with }, .inl hfd⟩
      · rename_i hfd
        exact .emit ⟨{ hsize with }, .inr (h.resolve_left hfd)⟩
  rcases flushRelay_cases fd res r with ⟨hok, pending, remaining, heq⟩ | ⟨hok, es, heq, -⟩
  · rw [heq]
    obtain ⟨hsize', h'⟩ := hflush.of_ok hok
    exact .emit ⟨{ hsize' with }, h'⟩
  · rw [heq]
    exact .fail trivial

/-- The drain restores what the flush may have broken. -/
theorem drainRelay_settled (fd : Socket) :
    Triple (Flushed b fds fd) (drainRelay b m fd) (Settled b fds) (fun _ _ => True) := by
  rintro r tr ⟨hsize, h⟩
  unfold drainRelay
  split
  · exact decryptReady_settled r tr hsize
  · rename_i hskip
    simp only [hsize.encrypted, Bool.and_true, Bool.and_eq_true, decide_eq_true_eq, not_and,
      Decidable.not_not] at hskip
    refine .done ⟨hsize, ?_⟩
    rcases h with hfd | h
    · intro hlen
      have := hskip hfd
      omega
    · exact h

theorem readDirect_settled (res : RecvResult) :
    Triple (Settled b fds) (readDirect b m res) (Settled b fds) (fun _ _ => True) := by
  rintro r tr h
  have happend : ∀ src r' tr', Settled b fds r' tr' →
      (append .toWork src r').Ends tr' (Settled b fds) (fun _ _ => True) := by
    intro src r' tr' h'
    unfold Outcome.Ends
    split
    · exact ⟨h'.1.append .toWork src, h'.2⟩
    · trivial
  unfold readDirect
  split
  · refine Outcome.Ends.andThen (Q := Settled b fds) (.emit h) ?_
    intro r' tr' h'
    split
    · unfold encryptChunk
      split
      · exact .fail trivial
      · dsimp only
        split
        · exact .fail trivial
        · exact Outcome.Ends.andThen (Q := Settled b fds) (.emit ⟨{ h'.1 with }, h'.2⟩) (happend _)
    · exact happend _ r' tr' h'
  · exact .done ⟨{ h.1 with }, h.2⟩
  · exact .done h
  · exact .fail trivial

theorem readWork_settled (hb : b.dataEncryption = true) (res : RecvResult) :
    Triple (Settled b fds) (readWork b m res) (Settled b fds) (fun _ _ => True) := by
  rintro r tr ⟨hsize, h⟩
  unfold readWork
  split
  · rename_i bytes _
    refine Outcome.Ends.andThen (Q := fun r' _ => Sized b fds r') (.emit hsize) ?_
    intro r' tr' hsize'
    rw [hb, hsize.encrypted, Bool.and_true, if_pos rfl]
    refine Outcome.Ends.andThen (Q := fun r'' _ => Sized b fds r'') ?_
      fun r'' tr'' h'' => decryptReady_settled r'' tr'' h''
    unfold Outcome.Ends
    split
    · exact hsize'.append .workInput bytes
    · trivial
  · exact .done ⟨{ hsize with }, h⟩
  · exact .done ⟨hsize, h⟩
  · exact .fail trivial

theorem relayBody_settled (hb : b.dataEncryption = true) (fd : Socket) (ev : EvMask)
    (io : RelayIo) :
    Triple (Settled b fds) (relayBody b m fd ev io) (Settled b fds) (fun _ _ => True) := by
  have hstages : Triple (Flushed b fds fd) (relayBody b m fd ev io) (Settled b fds)
      (fun _ _ => True) := by
    refine relayBody_stages (syncBufferMetric_flushed fd)
      (fun _ => flushRelay_flushed fd io.send) (fun _ => drainRelay_settled fd)
      (fun hplain => absurd hb (by simp [hplain])) syncBufferMetric_settled ?_
      (fun _ _ _ h => h) syncBufferMetric_settled
    intro _ r tr h
    beta_reduce
    split
    · exact readDirect_settled io.recv r tr h
    · exact readWork_settled hb io.recv r tr h
  exact fun r tr h => hstages r tr ⟨h.1, .inr h.2⟩

end Stages

/-! ## Effects before the half-closes -/

/-- The effects of moving bytes; a record carries its length and number in its
header, and at most a chunk. -/
def Effect.Moving (b : Build) : Effect → Prop
  | .aeadEncrypt call plain =>
      call.ad = (recordHeader (UInt32.ofNat (plain.length + ctAeadTag)) call.sequence).toList ∧
        plain.length ≤ b.chunk
  | .metricAdd .. | .metricSub .. | .recv .. | .sent .. | .append .. | .aeadDecrypt .. => True
  | _ => False

theorem RecvResult.into_length {res : RecvResult} {cap : Nat} {bytes : Bytes}
    (h : res.into cap = .data bytes) : bytes.length ≤ cap := by
  cases res with
  | data p =>
      simp only [RecvResult.into] at h
      split at h
      · exact absurd h (by simp)
      · injection h with h
        rw [← h, List.length_take]
        exact Nat.min_le_left _ _
  | eof => exact absurd h (by simp [RecvResult.into])
  | wouldBlock => exact absurd h (by simp [RecvResult.into])
  | failed => exact absurd h (by simp [RecvResult.into])

section Moving

variable {b : Build} {m : Monocypher}

/-- Only bytes were moved so far. -/
def OnlyMoving (b : Build) (_ : CtRelay) (tr : List Effect) : Prop := ∀ e ∈ tr, e.Moving b

theorem OnlyMoving.append {r r' : CtRelay} {tr es : List Effect} (h : OnlyMoving b r tr)
    (hes : ∀ e ∈ es, e.Moving b) : OnlyMoving b r' (tr ++ es) := by
  intro e he
  rcases List.mem_append.mp he with he | he
  · exact h e he
  · exact hes e he

abbrev KeepsMoving (b : Build) (op : CtRelay → RelayOutcome) : Prop :=
  Triple (OnlyMoving b) op (OnlyMoving b) (OnlyMoving b)

theorem syncBufferMetric_moving : KeepsMoving b (syncBufferMetric b) := by
  intro r tr h
  refine .emit (h.append ?_)
  intro e he
  rw [List.mem_singleton.mp he]
  split <;> trivial

theorem append_moving (ring : RingId) (src : Bytes) : KeepsMoving b (append ring src) := by
  intro r tr h
  have hall : ∀ r', OnlyMoving b r' (tr ++ (append ring src r).effects) :=
    fun r' => h.append (by simp [Ctunnel.append, Effect.Moving])
  unfold Outcome.Ends
  split <;> exact hall _

theorem flushRelay_moving (fd : Socket) (res : SendResult) : KeepsMoving b (flushRelay fd res) := by
  intro r tr h
  have hflush : ∀ r' es, (∀ e ∈ es, e = Effect.inc .proxyProtocolLocalWriteFailuresTotal) →
      OnlyMoving b r' (tr ++ ((flush (r.flushRing fd) res r).effects ++ es)) := by
    intro r' es hes
    refine h.append ?_
    intro e he
    rcases List.mem_append.mp he with he | he
    · rcases flush_cases (r.flushRing fd) res r with heq | heq | ⟨z, heq⟩ <;> rw [heq] at he
      · exact absurd he (by simp)
      · exact absurd he (by simp)
      · rw [List.mem_singleton.mp he]
        trivial
    · rw [hes e he]
      trivial
  rcases flushRelay_cases fd res r with ⟨-, pending, remaining, heq⟩ | ⟨-, es, heq, hes⟩
  · rw [heq]
    refine .emit ?_
    simpa using hflush _ [] (by simp)
  · rw [heq]
    exact .fail (hflush _ es hes)

theorem decryptLoop_moving (fuel : Nat) : KeepsMoving b (decryptLoop b m fuel) := by
  induction fuel with
  | zero => exact fun r tr h => .done h
  | succ fuel ih =>
      intro r tr h
      unfold decryptLoop
      split
      · exact .done h
      · dsimp only
        split
        · exact .fail (h.append (by simp [Effect.Moving]))
        · split
          · exact .done h
          · split
            · exact .done h
            · refine Outcome.Ends.andThen (Q := OnlyMoving b) ?_ ih
              unfold decryptRecord
              dsimp only
              split
              · exact .fail (h.append (by simp [Effect.Moving]))
              · refine Outcome.Ends.andThen (Outcome.Ends.andThen (Q := OnlyMoving b)
                  (.emit (h.append (by simp [Effect.Moving]))) (append_moving _ _)) ?_
                exact fun r' tr' h' => .done h'

theorem readDirect_moving (res : RecvResult) : KeepsMoving b (readDirect b m res) := by
  intro r tr h
  unfold readDirect
  split
  · rename_i bytes hdata
    refine Outcome.Ends.andThen (Q := OnlyMoving b)
      (.emit (h.append (by simp [Effect.Moving, metricBytes]))) ?_
    split
    · intro r' tr' h'
      unfold encryptChunk
      split
      · exact .fail (by simpa using h')
      · dsimp only
        split
        · exact .fail (h'.append (by simp [Effect.Moving]))
        · refine Outcome.Ends.andThen (Q := OnlyMoving b) (.emit (h'.append ?_))
            (append_moving _ _)
          intro e he
          rw [List.mem_singleton.mp he]
          exact ⟨rfl, RecvResult.into_length hdata⟩
    · exact append_moving _ _
  · exact .done h
  · exact .done h
  · exact .fail (by simpa using h)

theorem readWork_moving (res : RecvResult) : KeepsMoving b (readWork b m res) := by
  intro r tr h
  unfold readWork
  split
  · refine Outcome.Ends.andThen (Q := OnlyMoving b)
      (.emit (h.append (by simp [Effect.Moving, metricBytes]))) ?_
    split
    · exact fun r' tr' h' => (append_moving _ _ r' tr' h').andThen
        fun r'' tr'' h'' => decryptLoop_moving _ r'' tr'' h''
    · exact append_moving _ _
  · exact .done h
  · exact .done h
  · exact .fail (by simpa using h)

theorem relayBody_moving (fd : Socket) (ev : EvMask) (io : RelayIo) (r : CtRelay) :
    ∀ e ∈ (relayBody b m fd ev io r).effects, e.Moving b := by
  have hbody : KeepsMoving b (relayBody b m fd ev io) := by
    refine relayBody_ends syncBufferMetric_moving (fun _ => flushRelay_moving fd io.send) ?_ ?_
      (fun _ _ _ h => h) syncBufferMetric_moving
    · intro _ r' tr h
      unfold drainRelay
      split
      · exact decryptLoop_moving _ r' tr h
      · exact .done h
    · intro _ r' tr h
      beta_reduce
      split
      · exact readDirect_moving io.recv r' tr h
      · exact readWork_moving io.recv r' tr h
  have hends := hbody r [] (by simp [OnlyMoving])
  cases hok : (relayBody b m fd ev io r).ok with
  | true => simpa [OnlyMoving] using hends.of_ok hok
  | false => simpa [OnlyMoving] using hends.of_not_ok hok

end Moving

/-! ## Runs -/

/-- Between two events a relay is closed or has nothing to decrypt. -/
def RelaySettled (b : Build) (fds : Socket × Socket) (r : CtRelay) (tr : List Effect) : Prop :=
  r.closed = true ∨ Settled b fds r tr

theorem relayCall_settled {b : Build} {m : Monocypher} {fds : Socket × Socket}
    (hb : b.dataEncryption = true) (r : CtRelay) (tr : List Effect) (call : RelayCall) (h : RelaySettled b fds r tr) :
    RelaySettled b fds (relayCall b m call r).state (tr ++ (relayCall b m call r).effects) := by
  cases call with
  | close => exact .inl rfl
  | process fd ev io =>
      simp only [relayCall, ctRelayProcess]
      split
      · rename_i hclosed
        exact .inl hclosed
      · rename_i hopen
        have hbody : (relayBody b m fd ev io r).Ends tr (Settled b fds) (fun _ _ => True) :=
          relayBody_settled hb fd ev io r tr (h.resolve_left hopen)
        split
        · rename_i hok
          split
          · exact .inl rfl
          · exact .inr (hbody.of_ok hok)
        · exact .inl rfl

theorem relayRuns_settled {b : Build} {m : Monocypher} {fds : Socket × Socket}
    (hb : b.dataEncryption = true) {r : CtRelay} (calls : List RelayCall)
    (h : RelaySettled b fds r []) :
    RelaySettled b fds (runs (relayCall b m) r calls).1 (runs (relayCall b m) r calls).2 :=
  runs_keeps (fun r tr call => relayCall_settled hb r tr call) calls h

theorem FreshRelay.settled {b : Build} {m : Monocypher} {direct work : Socket} {client : Bool}
    {cipher : CtCipher} {master : Octets 32} {c : StreamContext} {r : CtRelay}
    (h : FreshRelay b m direct work client cipher master c r) (hmode : c.mode = .required) :
    RelaySettled b (direct, work) r [] := by
  have hb := h.available hmode
  refine .inr ⟨⟨by rw [h.direct, h.work], h.required hmode, h.toDirect,
    h.workInput.2 hb⟩, ?_⟩
  intro hlen
  have := h.workInput.1
  omega

end Ctunnel
