import Ctunnel.Net.RelayFlow

/-!
# Fill levels of a relay

Only a read can make `to_work` or `work_input` fuller; flushing and opening
records drain them. `Levels` bounds the three rings through the stages of one
event, and `ctRelayProcess_complete` turns a bound before a read into the
statement that the read is appended in full, so that an event that still fails
has another cause (`RelayIo.Fault`).
-/

namespace Ctunnel

open Lib

/-- Every `append` took all of its source. -/
def AppendsComplete (tr : List Effect) : Prop :=
  ∀ ring src taken, Effect.append ring src taken ∈ tr → taken = src.length

/-- The number of bytes `recv` returns into a buffer of `cap` bytes. -/
def RecvResult.count (res : RecvResult) (cap : Nat) : Nat :=
  match res.into cap with
  | .data bytes => bytes.length
  | _ => 0

/-- The size of the buffer a READ on `fd` receives into. -/
def CtRelay.readSize (b : Build) (r : CtRelay) (fd : Socket) : Nat :=
  if fd = r.direct then b.chunk else b.chunk + 32

/-- `n` bytes read from `fd` fit in the ring they are appended to, with the
header and the tag of the record they become. -/
def CtRelay.ReadRoom (r : CtRelay) (fd : Socket) (n : Nat) : Prop :=
  if fd = r.direct then r.toWork.len + (n + if r.encrypted then 12 + ctAeadTag else 0) ≤ r.toWork.cap
  else if r.encrypted then r.workInput.len + n ≤ r.workInput.cap
  else r.toDirect.len + n ≤ r.toDirect.cap

/-- What makes an event fail when no ring is short of room: a socket call fails,
the sequence numbers are used up, or a record is rejected or cannot be sealed. -/
def RelayIo.Fault (io : RelayIo) (r : CtRelay) (tr : List Effect) : Prop :=
  io.send = .failed ∨ io.send = .sent 0 ∨ io.recv = .failed ∨ r.sendSeq = uint64Max ∨
    Effect.inc .aeadFailuresTotal ∈ tr

theorem RelayIo.Fault.aead {io : RelayIo} {r : CtRelay} {tr : List Effect}
    (h : Effect.inc .aeadFailuresTotal ∈ tr) : io.Fault r tr :=
  .inr (.inr (.inr (.inr h)))

/-- Later effects do not remove the cause, nor does `ct_relay_close`. -/
theorem RelayIo.Fault.append {io : RelayIo} {r r' : CtRelay} {tr : List Effect}
    (h : io.Fault r tr) (hseq : r'.sendSeq = r.sendSeq) (es : List Effect) :
    io.Fault r' (tr ++ es) := by
  rcases h with h | h | h | h | h
  · exact .inl h
  · exact .inr (.inl h)
  · exact .inr (.inr (.inl h))
  · exact .inr (.inr (.inr (.inl (hseq.trans h))))
  · exact .aead (List.mem_append_left _ h)

/-- Bounds on the rings of a relay that was `r₀`. -/
structure Levels (r₀ : CtRelay) (work input direct : Nat) (r : CtRelay) : Prop where
  isOpen : r.closed = false
  sockets : r.direct = r₀.direct ∧ r.work = r₀.work
  encrypted : r.encrypted = r₀.encrypted
  caps : r.toWork.cap = r₀.toWork.cap ∧ r.workInput.cap = r₀.workInput.cap ∧
    r.toDirect.cap = r₀.toDirect.cap
  toWork : r.toWork.len ≤ work
  workInput : r.workInput.len ≤ input
  toDirect : r.toDirect.len ≤ direct

theorem Levels.mono {r₀ r : CtRelay} {work input direct work' input' direct' : Nat}
    (h : Levels r₀ work input direct r) (hwork : work ≤ work') (hinput : input ≤ input')
    (hdirect : direct ≤ direct') : Levels r₀ work' input' direct' r :=
  { h with
    toWork := Nat.le_trans h.toWork hwork
    workInput := Nat.le_trans h.workInput hinput
    toDirect := Nat.le_trans h.toDirect hdirect }

theorem AppendsComplete.append {tr es : List Effect} (h : AppendsComplete tr)
    (hes : AppendsComplete es) : AppendsComplete (tr ++ es) := by
  intro ring src taken hmem
  rcases List.mem_append.mp hmem with hmem | hmem
  · exact h ring src taken hmem
  · exact hes ring src taken hmem

theorem AppendsComplete.of_quiet {es : List Effect} (h : ∀ e ∈ es, e.quiet = true) :
    AppendsComplete es := by
  intro ring src taken hmem
  exact absurd (h _ hmem) (by simp [Effect.quiet])

section Stages

variable {b : Build} {m : Monocypher} {io : RelayIo} {r₀ : CtRelay} {work input direct : Nat}

/-- A stage keeps the bounds and appends in full, and fails only for a fault. -/
abbrev KeepsLevels (io : RelayIo) (r₀ : CtRelay) (work input direct : Nat)
    (op : CtRelay → RelayOutcome) : Prop :=
  Triple (fun r tr => Levels r₀ work input direct r ∧ AppendsComplete tr) op
    (fun r tr => Levels r₀ work input direct r ∧ AppendsComplete tr)
    (fun r tr => AppendsComplete tr ∧ io.Fault r tr)

theorem syncBufferMetric_levels : KeepsLevels io r₀ work input direct (syncBufferMetric b) := by
  rintro r tr ⟨h, hfull⟩
  exact .emit ⟨{ h with }, hfull.append (.of_quiet (syncBufferMetric_quiet b r))⟩

/-- `flush` fails when `send` does. -/
theorem flush_fails {ring : RingId} {res : SendResult} {r : CtRelay}
    (h : (flush ring res r).ok = false) : res = .failed ∨ res = .sent 0 := by
  unfold flush at h
  dsimp only at h
  split at h
  · exact absurd h (by simp)
  · rename_i hsome
    have hlen : (ctRingPeek (r.ring ring)).length ≠ 0 := by simpa using hsome
    split at h
    · rename_i n
      split at h
      · have hn : n = 0 := by omega
        exact .inr (congrArg _ hn)
      · exact absurd h (by simp)
    · exact absurd h (by simp)
    · exact .inl rfl

theorem flush_levels (ring : RingId) (hring : ring ≠ .workInput) :
    KeepsLevels io r₀ work input direct (flush ring io.send) := by
  rintro r tr ⟨h, hfull⟩
  rcases flush_cases ring io.send r with he | he | ⟨z, he⟩ <;> rw [he]
  · exact .done ⟨h, hfull⟩
  · have hfails : io.send = .failed ∨ io.send = .sent 0 := flush_fails (by rw [he]; rfl)
    exact .fail ⟨by simpa using hfull, hfails.elim .inl fun h => .inr (.inl h)⟩
  · refine .emit ⟨?_, hfull.append (by simp [AppendsComplete])⟩
    cases ring with
    | workInput => exact absurd rfl hring
    | toDirect =>
        exact { h with toDirect := Nat.le_trans (Nat.sub_le _ _) h.toDirect }
    | toWork => exact { h with toWork := Nat.le_trans (Nat.sub_le _ _) h.toWork }

theorem flushRelay_levels (fd : Socket) :
    KeepsLevels io r₀ work input direct (flushRelay fd io.send) := by
  intro r tr h
  have hring : r.flushRing fd ≠ .workInput := by
    unfold CtRelay.flushRing
    split <;> decide
  have hflush : (flush (r.flushRing fd) io.send r).Ends tr
      (fun r tr => Levels r₀ work input direct r ∧ AppendsComplete tr)
      (fun r tr => AppendsComplete tr ∧ io.Fault r tr) :=
    flush_levels _ hring r tr h
  rcases flushRelay_cases fd io.send r with ⟨hok, pending, remaining, he⟩ | ⟨hok, es, he, hes⟩
  · rw [he]
    obtain ⟨hlevels, hfull⟩ := hflush.of_ok hok
    exact .emit ⟨{ hlevels with }, hfull⟩
  · rw [he]
    apply Outcome.Ends.fail
    rw [← List.append_assoc]
    obtain ⟨hfull, hfault⟩ := hflush.of_not_ok hok
    refine ⟨hfull.append ?_, hfault.append rfl es⟩
    intro ring src taken hmem
    exact absurd (hes _ hmem) (by simp)

/-- Records move bytes out of `work_input`, and only when they fit. -/
theorem decryptLoop_levels (hdirect : r₀.toDirect.cap ≤ direct) (fuel : Nat) :
    KeepsLevels io r₀ work input direct (decryptLoop b m fuel) := by
  -- on the records it may open; the room of each is checked before it is appended
  induction fuel with
  | zero => exact fun r tr h => .done h
  | succ fuel ih =>
      rintro r tr ⟨h, hfull⟩
      unfold decryptLoop
      split
      · exact .done ⟨h, hfull⟩
      · dsimp only
        split
        · exact .fail ⟨hfull.append (by simp [AppendsComplete]), .aead (by simp)⟩
        · rename_i n seq _
          split
          · exact .done ⟨h, hfull⟩
          · split
            · exact .done ⟨h, hfull⟩
            · refine Outcome.Ends.andThen ?_ ih
              have hshrink : (ctRingRead (ctRingRead r.workInput 12).1 n.toNat).1.len ≤ input :=
                Nat.le_trans (Nat.sub_le _ _) (Nat.le_trans (Nat.sub_le _ _) h.workInput)
              cases hdec : ctAeadDecrypt m r.cipher r.recvKey r.recvNonce seq
                  (r.recordCall n seq).ad (r.recordCall n seq).box with
              | none =>
                  rw [decryptRecord_rejected hdec]
                  exact .fail ⟨hfull.append (by simp [AppendsComplete]), .aead (by simp)⟩
              | some plain =>
                  have hlen := CtRelay.recordCall_plain (by omega) hdec
                  have hplain : plain.length ≤ r.toDirect.room := by omega
                  rw [decryptRecord_opened hdec hplain]
                  refine .emit ⟨?_, hfull.append ?_⟩
                  · have hcap := (ctRingWrite_cap r.toDirect plain).trans h.caps.2.2
                    exact
                      { h with
                        caps := ⟨h.caps.1, h.caps.2.1, hcap⟩
                        workInput := hshrink
                        toDirect := Nat.le_trans (CtRing.len_le_cap _) (hcap ▸ hdirect) }
                  · intro ring src taken hmem
                    simp only [List.mem_cons, reduceCtorEq, List.not_mem_nil, or_false,
                      Effect.append.injEq, false_or] at hmem
                    obtain ⟨-, rfl, rfl⟩ := hmem
                    rfl

theorem drainRelay_levels (hdirect : r₀.encrypted = true → r₀.toDirect.cap ≤ direct)
    (fd : Socket) : KeepsLevels io r₀ work input direct (drainRelay b m fd) := by
  rintro r tr ⟨h, hfull⟩
  unfold drainRelay
  split
  · rename_i hcond
    simp only [Bool.and_eq_true] at hcond
    exact decryptLoop_levels (hdirect (h.encrypted ▸ hcond.1.2)) _ r tr ⟨h, hfull⟩
  · exact .done ⟨h, hfull⟩

theorem append_levels {ring : RingId} {src : Bytes} {r : CtRelay} {tr : List Effect}
    {work' input' direct' : Nat} (hfull : AppendsComplete tr)
    (hroom : (r.ring ring).len + src.length ≤ (r.ring ring).cap)
    (hlevels : Levels r₀ work' input' direct'
      (r.setRing ring (ctRingWrite (r.ring ring) src).1)) :
    (append ring src r).Ends tr
      (fun r tr => Levels r₀ work' input' direct' r ∧ AppendsComplete tr)
      (fun r tr => AppendsComplete tr ∧ io.Fault r tr) := by
  have hfits : src.length ≤ (r.ring ring).room := by
    unfold CtRing.room
    omega
  rw [append_of_room hfits]
  refine .emit ⟨hlevels, hfull.append ?_⟩
  intro ring' src' taken hmem
  simp only [List.mem_singleton, Effect.append.injEq] at hmem
  obtain ⟨-, rfl, rfl⟩ := hmem
  rfl

/-- The bytes of a read are as many as `count` says. -/
theorem RecvResult.count_data {res : RecvResult} {cap : Nat} {bytes : Bytes}
    (h : res.into cap = .data bytes) : res.count cap = bytes.length := by
  simp [RecvResult.count, h]

theorem RecvResult.into_failed {res : RecvResult} {cap : Nat} (h : res.into cap = .failed) :
    res = .failed := by
  unfold RecvResult.into at h
  split at h
  · split at h <;> exact absurd h (by simp)
  · exact h

/-- Only a build with data encryption has encrypted relays. -/
theorem relayMode (hb : r₀.encrypted = true → b.dataEncryption = true) :
    (b.dataEncryption && r₀.encrypted) = r₀.encrypted := by
  cases henc : r₀.encrypted with
  | true => rw [hb henc, Bool.true_and]
  | false => rw [Bool.and_false]

/-- A read of the direct socket with room for its record. -/
theorem readDirect_levels (hb : r₀.encrypted = true → b.dataEncryption = true)
    (hroom : work + (io.recv.count b.chunk + if r₀.encrypted then 12 + ctAeadTag else 0) ≤
      r₀.toWork.cap) :
    Triple (fun r tr => Levels r₀ work input direct r ∧ AppendsComplete tr)
      (readDirect b m io.recv)
      (fun r tr => Levels r₀ r₀.toWork.cap input direct r ∧ AppendsComplete tr)
      (fun r tr => AppendsComplete tr ∧ io.Fault r tr) := by
  rintro r tr ⟨h, hfull⟩
  have hle := h.toWork
  have hcap := h.caps.1
  have hwide : Levels r₀ r₀.toWork.cap input direct r :=
    { h with toWork := hcap ▸ CtRing.len_le_cap _ }
  unfold readDirect
  split
  case h_2 => exact .done ⟨{ hwide with }, hfull⟩
  case h_3 => exact .done ⟨hwide, hfull⟩
  case h_4 hfailed =>
    exact .fail ⟨by simpa using hfull, .inr (.inr (.inl (RecvResult.into_failed hfailed)))⟩
  case h_1 bytes hbytes =>
    rw [RecvResult.count_data hbytes] at hroom
    refine Outcome.Ends.andThen (Q := fun r' tr' => r' = r ∧ AppendsComplete tr')
      (.emit ⟨rfl, hfull.append (by simp [AppendsComplete, metricBytes])⟩) ?_
    rintro r tr ⟨rfl, hfull⟩
    rw [h.encrypted, relayMode hb]
    split
    · rename_i henc
      rw [if_pos henc] at hroom
      unfold encryptChunk
      dsimp only
      split
      · rename_i hmax
        exact .fail ⟨by simpa using hfull, .inr (.inr (.inr (.inl hmax)))⟩
      · split
        · exact .fail ⟨hfull.append (by simp [AppendsComplete]), .aead (by simp)⟩
        · -- the record needs room for its header and tag as well
          rename_i box hbox
          refine Outcome.Ends.andThen (Q := fun r' tr' => r' = { r with sendSeq := r.sendSeq + 1 } ∧
            AppendsComplete tr') (.emit ⟨rfl, hfull.append (by simp [AppendsComplete])⟩) ?_
          rintro r' tr' ⟨rfl, hfull'⟩
          refine append_levels hfull' ?_
            { hwide with
              caps := ⟨(ctRingWrite_cap _ _).trans hcap, h.caps.2⟩
              toWork := ((ctRingWrite_cap _ _).trans hcap) ▸ CtRing.len_le_cap _ }
          have hlen := ctAeadEncrypt_length hbox
          show r.toWork.len + _ ≤ r.toWork.cap
          rw [List.length_append, List.Vector.toList_length, hlen]
          omega
    · rename_i henc
      rw [if_neg henc] at hroom
      refine append_levels hfull ?_
        { hwide with
          caps := ⟨(ctRingWrite_cap _ _).trans hcap, h.caps.2⟩
          toWork := ((ctRingWrite_cap _ _).trans hcap) ▸ CtRing.len_le_cap _ }
      show r.toWork.len + _ ≤ r.toWork.cap
      omega

/-- A read of the work socket with room in the ring its mode uses. -/
theorem readWork_levels (hb : r₀.encrypted = true → b.dataEncryption = true)
    (hinput : r₀.encrypted = true →
      input + io.recv.count (b.chunk + 32) ≤ r₀.workInput.cap)
    (hdirect : r₀.encrypted = false →
      direct + io.recv.count (b.chunk + 32) ≤ r₀.toDirect.cap) :
    Triple (fun r tr => Levels r₀ work input direct r ∧ AppendsComplete tr)
      (readWork b m io.recv)
      (fun r tr => Levels r₀ work r₀.workInput.cap r₀.toDirect.cap r ∧ AppendsComplete tr)
      (fun r tr => AppendsComplete tr ∧ io.Fault r tr) := by
  rintro r tr ⟨h, hfull⟩
  obtain ⟨-, hcapInput, hcapDirect⟩ := h.caps
  have hle := h.workInput
  have hle' := h.toDirect
  have hwide : Levels r₀ work r₀.workInput.cap r₀.toDirect.cap r :=
    { h with
      workInput := hcapInput ▸ CtRing.len_le_cap _
      toDirect := hcapDirect ▸ CtRing.len_le_cap _ }
  unfold readWork
  split
  case h_2 => exact .done ⟨{ hwide with }, hfull⟩
  case h_3 => exact .done ⟨hwide, hfull⟩
  case h_4 hfailed =>
    exact .fail ⟨by simpa using hfull, .inr (.inr (.inl (RecvResult.into_failed hfailed)))⟩
  case h_1 bytes hbytes =>
    rw [RecvResult.count_data hbytes] at hinput hdirect
    refine Outcome.Ends.andThen (Q := fun r' tr' => r' = r ∧ AppendsComplete tr')
      (.emit ⟨rfl, hfull.append (by simp [AppendsComplete, metricBytes])⟩) ?_
    rintro r tr ⟨rfl, hfull⟩
    rw [h.encrypted, relayMode hb]
    split
    · -- the bytes of an encrypted relay wait for their record to be complete
      rename_i henc
      have hcap := (ctRingWrite_cap r.workInput bytes).trans hcapInput
      refine Outcome.Ends.andThen (o := append .workInput bytes r) (append_levels hfull ?_
        { hwide with
          caps := ⟨h.caps.1, hcap, hcapDirect⟩
          workInput := hcap ▸ CtRing.len_le_cap _ })
        fun r tr h => decryptLoop_levels (Nat.le_refl _) r.workInput.len r tr h
      have := hinput henc
      show r.workInput.len + _ ≤ r.workInput.cap
      omega
    · -- those of a plain one go straight to `to_direct`
      rename_i henc
      have hcap := (ctRingWrite_cap r.toDirect bytes).trans hcapDirect
      refine append_levels hfull ?_
        { hwide with
          caps := ⟨h.caps.1, hcapInput, hcap⟩
          toDirect := hcap ▸ CtRing.len_le_cap _ }
      have := hdirect (by simpa using henc)
      show r.toDirect.len + _ ≤ r.toDirect.cap
      omega

end Stages

/-! ## One event -/

/-- The bounds after an event: only the ring a READ fills can have grown. -/
def CtRelay.workLevel (r : CtRelay) (fd : Socket) (ev : EvMask) : Nat :=
  if ev.read = true ∧ fd = r.direct then r.toWork.cap else r.toWork.len

def CtRelay.inputLevel (r : CtRelay) (fd : Socket) (ev : EvMask) : Nat :=
  if ev.read = true ∧ fd ≠ r.direct then r.workInput.cap else r.workInput.len

/-- Opened records fill `to_direct` at any event. -/
def CtRelay.directLevel (r : CtRelay) (fd : Socket) (ev : EvMask) : Nat :=
  if r.encrypted = true ∨ (ev.read = true ∧ fd ≠ r.direct) then r.toDirect.cap else r.toDirect.len

/-- At the end of both directions both sockets are half-closed. -/
theorem relayShutdowns_done {r : CtRelay} (h : (r.directEof && r.workEof && r.toDirect.len == 0 &&
    r.toWork.len == 0) = true) :
    Effect.shutdownWrite r.work ∈ relayShutdowns r ∧
      Effect.shutdownWrite r.direct ∈ relayShutdowns r := by
  simp only [Bool.and_eq_true, beq_iff_eq] at h
  obtain ⟨⟨⟨hdirect, hwork⟩, hto⟩, hfrom⟩ := h
  simp [relayShutdowns, hdirect, hwork, hto, hfrom]

/-- With room for what its READ returns, an event appends in full and leaves the
relay closed or within its levels; it closes the relay only at the end of both
directions or for a fault. -/
theorem ctRelayProcess_complete {b : Build} {m : Monocypher} {fd : Socket} {ev : EvMask}
    {io : RelayIo} {r : CtRelay} (hb : r.encrypted = true → b.dataEncryption = true)
    (hopen : r.closed = false)
    (hroom : ev.read = true → r.ReadRoom fd (io.recv.count (r.readSize b fd))) :
    AppendsComplete (ctRelayProcess b m fd ev io r).effects ∧
      ((ctRelayProcess b m fd ev io r).state.closed = true ∨
        Levels r (r.workLevel fd ev) (r.inputLevel fd ev) (r.directLevel fd ev)
          (ctRelayProcess b m fd ev io r).state) ∧
      ((ctRelayProcess b m fd ev io r).ok = false →
        (Effect.shutdownWrite r.work ∈ (ctRelayProcess b m fd ev io r).effects ∧
          Effect.shutdownWrite r.direct ∈ (ctRelayProcess b m fd ev io r).effects) ∨
        io.Fault (ctRelayProcess b m fd ev io r).state (ctRelayProcess b m fd ev io r).effects) := by
  -- an encrypted relay fills `to_direct` only by opening records, which is checked
  let direct := if r.encrypted then r.toDirect.cap else r.toDirect.len
  have hdirect : direct ≤ r.directLevel fd ev := by
    have := r.toDirect.len_le_cap
    simp only [direct, CtRelay.directLevel]
    by_cases henc : r.encrypted = true
    · rw [if_pos henc, if_pos (.inl henc)]
    · rw [if_neg henc]
      split <;> omega
  have hstart : Levels r r.toWork.len r.workInput.len direct r :=
    { isOpen := hopen
      sockets := ⟨rfl, rfl⟩
      encrypted := rfl
      caps := ⟨rfl, rfl, rfl⟩
      toWork := Nat.le_refl _
      workInput := Nat.le_refl _
      toDirect := by
        have := r.toDirect.len_le_cap
        simp only [direct]
        split <;> omega }
  have hbody : (relayBody b m fd ev io r).Ends []
      (fun r' tr => Levels r (r.workLevel fd ev) (r.inputLevel fd ev) (r.directLevel fd ev) r' ∧
        AppendsComplete tr) (fun r' tr => AppendsComplete tr ∧ io.Fault r' tr) := by
    refine relayBody_ends
      (I := fun r' tr => Levels r r.toWork.len r.workInput.len direct r' ∧ AppendsComplete tr)
      syncBufferMetric_levels (fun _ => flushRelay_levels fd)
      (fun _ => drainRelay_levels (fun henc => by simp [direct, henc]) fd) ?_ ?_
      syncBufferMetric_levels r [] ⟨hstart, by simp [AppendsComplete]⟩
    · rintro hev r' tr ⟨h, hfull⟩
      beta_reduce
      rw [h.sockets.1]
      have hfits := hroom hev
      unfold CtRelay.ReadRoom CtRelay.readSize at hfits
      by_cases hfd : fd = r.direct
      · rw [if_pos hfd, if_pos hfd] at hfits
        rw [if_pos hfd]
        refine (readDirect_levels hb hfits r' tr ⟨h, hfull⟩).mono ?_
        rintro r'' tr'' ⟨h'', hfull''⟩
        exact ⟨h''.mono (by simp [CtRelay.workLevel, hev, hfd])
          (by simp [CtRelay.inputLevel, hfd]) hdirect, hfull''⟩
      · rw [if_neg hfd, if_neg hfd] at hfits
        rw [if_neg hfd]
        refine (readWork_levels hb ?_ ?_ r' tr ⟨h, hfull⟩).mono ?_
        · intro henc
          rwa [if_pos henc] at hfits
        · intro henc
          rw [henc] at hfits
          simpa [direct, henc] using hfits
        · rintro r'' tr'' ⟨h'', hfull''⟩
          exact ⟨h''.mono (by simp [CtRelay.workLevel, hfd])
            (by simp [CtRelay.inputLevel, hev, hfd]) (by simp [CtRelay.directLevel, hev, hfd]), hfull''⟩
    · rintro hev r' tr ⟨h, hfull⟩
      exact ⟨h.mono (by simp [CtRelay.workLevel, hev]) (by simp [CtRelay.inputLevel, hev])
        hdirect, hfull⟩
  have hclose : ∀ r' : CtRelay, AppendsComplete (ctRelayClose b r').effects :=
    fun r' => .of_quiet (ctRelayClose_quiet b r')
  unfold ctRelayProcess
  rw [hopen, if_neg (by decide)]
  dsimp only
  generalize relayBody b m fd ev io r = o at hbody
  cases hok : o.ok with
  | true =>
      obtain ⟨hlevels, hfull⟩ := hbody.of_ok hok
      rw [List.nil_append] at hfull
      have hshut : AppendsComplete (relayShutdowns o.state) :=
        .of_quiet (relayShutdowns_quiet o.state)
      rw [if_pos rfl]
      split
      · rename_i hdone
        refine ⟨(hfull.append hshut).append (hclose _), .inl rfl, fun _ => .inl ?_⟩
        obtain ⟨hwork, hdirect⟩ := relayShutdowns_done hdone
        rw [hlevels.sockets.2] at hwork
        rw [hlevels.sockets.1] at hdirect
        exact ⟨List.mem_append_left _ (List.mem_append_right _ hwork),
          List.mem_append_left _ (List.mem_append_right _ hdirect)⟩
      · exact ⟨hfull.append hshut, .inr hlevels, fun hok' => absurd hok' (by simp)⟩
  | false =>
      obtain ⟨hfull, hfault⟩ := hbody.of_not_ok hok
      rw [List.nil_append] at hfull hfault
      rw [if_neg (by decide)]
      refine ⟨(hfull.append (by simp [AppendsComplete])).append (hclose _), .inl rfl, fun _ => .inr ?_⟩
      show io.Fault (ctRelayClose b o.state).state (o.effects ++ _ ++ _)
      rw [List.append_assoc]
      exact hfault.append rfl _

end Ctunnel
