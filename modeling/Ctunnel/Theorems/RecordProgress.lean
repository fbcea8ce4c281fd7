import Ctunnel.Monocypher.Aead
import Ctunnel.Net.RelayDrain
import Ctunnel.Net.RelayRead
import Ctunnel.Net.RelayRoom
import Ctunnel.Theorems.Backpressure

/-!
# Records on their way to the direct socket

Encrypted bytes wait in `work_input` until their record is complete and its
plaintext has room in `to_direct`.

* `records_sent_before_shutdown` — a complete record waits only for room, so the
  direct socket is not half-closed and the relay not closed at the end of the
  stream before every complete record has been sent;
* `inbound_progress_iff` — READ on the work socket or WRITE on the direct socket
  is always requested while bytes wait, exactly if the buffers have at least
  32828 bytes: in smaller ones the level that pauses READ is below the size of a
  full record (`stranded_small`).
-/

namespace Ctunnel

open Lib

/-! ## Open relays -/

section Relay

variable {b : Build} {m : Monocypher} {alloc : RelayAlloc} {direct work : Socket} {client : Bool}
  {cipher : CtCipher} {master : Octets 32} {c : StreamContext}
  {metadata : Option CtStreamMetadata} {r : CtRelay}

/-- After any calls an encrypted relay is closed, or keeps its flow of records and
has nothing to decrypt. -/
theorem relayRuns_open
    (hr : r = (ctRelayInit b m alloc direct work client cipher master c metadata).state)
    (hmode : c.mode = .required) (calls : List RelayCall) :
    (runs (relayCall b m) r calls).1.closed = true ∨
      b.dataEncryption = true ∧
        RelayFlow m r.keys r.toDirect.queue (runs (relayCall b m) r calls).1
          (ledger (runs (relayCall b m) r calls).2) ∧
        Settled b (direct, work) (runs (relayCall b m) r calls).1 (runs (relayCall b m) r calls).2 := by
  cases hok : (ctRelayInit b m alloc direct work client cipher master c metadata).ok with
  | false =>
      -- a relay that could not be set up is closed and stays so
      have hclosed : r.closed = true := hr ▸ ctRelayInit_closed hok
      have hstep : ∀ (r' : CtRelay) (tr : List Effect) (call : RelayCall), r'.closed = true →
          (relayCall b m call r').state.closed = true := by
        intro r' tr call h
        cases call with
        | close => rfl
        | process fd ev io => simp [relayCall, ctRelayProcess, h]
      exact .inl (@runs_keeps Effect CtRelay RelayCall (relayCall b m) (fun r _ => r.closed = true)
        hstep r [] calls hclosed)
  | true =>
      have hfresh : FreshRelay b m direct work client cipher master c r := hr ▸ ctRelayInit_fresh hok
      have hb := hfresh.available hmode
      rcases relayRuns_inv (m := m) calls (hfresh.relayInv hmode) with ⟨-, hflow⟩ | ⟨hclosed, -⟩
      · rcases relayRuns_settled (m := m) hb calls (hfresh.settled hmode) with hclosed | hsettled
        · exact .inl hclosed
        · exact .inr ⟨hb, hflow, hsettled⟩
      · exact .inl hclosed

theorem Build.chunk_le (b : Build) : b.chunk ≤ b.streamBufferSize := by
  unfold Build.chunk
  split <;> omega

/-- A record that waits finds bytes in `to_direct`. -/
theorem Settled.waits {tr : List Effect} {fds : Socket × Socket}
    (h : Settled b fds r tr)
    (hfront : CompleteRecord r.workInput.queue) :
    r.toDirect.room < recordLength r.workInput.queue - ctAeadTag ∧ 0 < r.toDirect.len := by
  obtain ⟨hroom, hmax⟩ := h.2.no_room hfront
  have hchunk := b.chunk_le
  have hcap := h.1.toDirect
  refine ⟨hroom, ?_⟩
  rw [CtRing.room] at hroom
  omega

/-! ## The end of a stream -/

theorem not_moving_shutdown {es : List Effect} (hes : ∀ e ∈ es, e.Moving b) (fd : Socket) :
    Effect.shutdownWrite fd ∉ es := by
  intro hmem
  exact hes _ hmem

theorem ctRelayClose_no_shutdown (b : Build) (r : CtRelay) (fd : Socket) :
    Effect.shutdownWrite fd ∉ (ctRelayClose b r).effects := by
  intro hmem
  simp only [ctRelayClose, syncBufferMetric, Outcome.emit_effects, List.mem_append] at hmem
  rcases hmem with hmem | hmem
  · split at hmem
    · simp only [List.mem_append, List.mem_cons, List.not_mem_nil, or_false] at hmem
      rcases hmem with hmem | hmem
      · split at hmem <;> exact absurd hmem (by simp)
      · exact absurd hmem (by simp)
    · exact absurd hmem (by simp)
  · split at hmem <;> exact absurd hmem (by simp)

/-- The direct socket is half-closed, or the relay closed without an error, only
after the work socket has ended and `to_direct` is empty. -/
theorem ctRelayProcess_ended {fd : Socket} {ev : EvMask} {io : RelayIo} (hopen : r.closed = false)
    (hfd : work ≠ direct) (hsock : (relayBody b m fd ev io r).ok = true →
      (relayBody b m fd ev io r).state.direct = direct ∧
        (relayBody b m fd ev io r).state.work = work)
    (h : Effect.shutdownWrite direct ∈ (ctRelayProcess b m fd ev io r).effects ∨
      (ctRelayProcess b m fd ev io r).ok = false ∧
        Effect.inc .streamsFailedTotal ∉ (ctRelayProcess b m fd ev io r).effects) :
    (relayBody b m fd ev io r).ok = true ∧
      (relayBody b m fd ev io r).state.toDirect.len = 0 ∧
      ledger (ctRelayProcess b m fd ev io r).effects =
        ledger (relayBody b m fd ev io r).effects := by
  have hmoving := not_moving_shutdown (relayBody_moving (b := b) (m := m) fd ev io r)
  generalize ho : relayBody b m fd ev io r = o at hsock h hmoving ⊢
  have hclose := ctRelayClose_no_shutdown b o.state
  have hshut : o.ok = true → Effect.shutdownWrite direct ∈ relayShutdowns o.state →
      o.state.toDirect.len = 0 := by
    intro hok hmem
    simp only [relayShutdowns, List.mem_append] at hmem
    rcases hmem with hmem | hmem
    · split at hmem
      · simp only [List.mem_singleton, Effect.shutdownWrite.injEq] at hmem
        exact absurd (hmem.trans (hsock hok).2).symm hfd
      · exact absurd hmem (by simp)
    · split at hmem
      · rename_i hend
        simp only [Bool.and_eq_true, beq_iff_eq] at hend
        exact hend.2
      · exact absurd hmem (by simp)
  have hquiet : ledger (relayShutdowns o.state) = .empty :=
    ledger_quiet (relayShutdowns_quiet o.state)
  have hquiet' : ledger (ctRelayClose b o.state).effects = .empty :=
    ledger_quiet (ctRelayClose_quiet b o.state)
  unfold ctRelayProcess at h ⊢
  rw [hopen, if_neg (by decide), ho] at h ⊢
  dsimp only at h ⊢
  cases hok : o.ok with
  | false =>
      rw [hok, if_neg (by decide)] at h
      rcases h with h | ⟨-, h⟩
      · simp only [Outcome.fail_effects, List.mem_append, List.mem_singleton] at h
        rcases h with (h | h) | h
        · exact absurd h (hmoving _)
        · exact absurd h (by simp)
        · exact absurd h (hclose _)
      · exact absurd h (by simp)
  | true =>
      rw [hok, if_pos rfl] at h
      rw [if_pos rfl]
      split at h
      · rename_i hdone
        rw [if_pos hdone]
        simp only [Bool.and_eq_true, beq_iff_eq] at hdone
        refine ⟨rfl, hdone.1.2, ?_⟩
        rw [Outcome.fail_effects, ledger_append, ledger_append, hquiet, hquiet',
          Ledger.append_empty, Ledger.append_empty]
      · rename_i hdone
        rw [if_neg hdone]
        rcases h with h | ⟨h, -⟩
        · simp only [Outcome.emit_effects, List.mem_append] at h
          refine ⟨rfl, hshut hok (h.resolve_left (hmoving _)), ?_⟩
          rw [Outcome.emit_effects, ledger_append, hquiet, Ledger.append_empty]
        · exact absurd h (by simp)

/-- After every event a complete record waits only for room in `to_direct`; and
when an event half-closes the direct socket, or closes the relay at the end of
the stream, every complete record of the bytes received has been opened and its
plaintext sent, behind the PROXY header. -/
theorem records_sent_before_shutdown
    (hr : r = (ctRelayInit b m alloc direct work client cipher master c metadata).state)
    (hmode : c.mode = .required) (hfd : work ≠ direct) (calls : List RelayCall) (fd : Socket)
    (ev : EvMask) (io : RelayIo) {s : CtRelay} {tr : List Effect} {o : RelayOutcome} {L : Ledger}
    (hs : (s, tr) = runs (relayCall b m) r calls) (ho : o = ctRelayProcess b m fd ev io s)
    (hL : L = ledger (tr ++ o.effects)) :
    (o.ok = true → CompleteRecord o.state.workInput.queue →
      o.state.toDirect.room < recordLength o.state.workInput.queue - ctAeadTag ∧
        0 < o.state.toDirect.len) ∧
    ((Effect.shutdownWrite direct ∈ o.effects ∨
        s.closed = false ∧ o.ok = false ∧ Effect.inc .streamsFailedTotal ∉ o.effects) →
      ∃ rest, L.readWork = wireBytes L.opened ++ rest ∧ ¬ CompleteRecord rest ∧
        L.sentDirect = r.toDirect.queue ++ plaintext L.opened) := by
  obtain ⟨rfl, rfl⟩ := Prod.mk.inj hs
  generalize hrun : runs (relayCall b m) r calls = run at ho hL ⊢
  have hopen := relayRuns_open hr hmode calls
  rw [hrun] at hopen
  rcases hopen with hclosed | ⟨hb, hflow, hsettled⟩
  · have hnone : o = .fail run.1 [] := by rw [ho, ctRelayProcess, if_pos hclosed]
    rw [hnone]
    refine ⟨fun hok => absurd hok (by simp), ?_⟩
    rintro (hmem | ⟨hopen, -⟩)
    · exact absurd hmem (by simp)
    · exact absurd hclosed (by simp [hopen])
  have hbody := relayBody_flow (m := m) (b := b) hb fd ev io run.1 run.2 hflow
  have hbody' := relayBody_settled (m := m) hb fd ev io run.1 run.2 hsettled
  refine ⟨?_, ?_⟩
  · intro hok hfront
    rw [ho] at hok hfront ⊢
    unfold ctRelayProcess at hok hfront ⊢
    rw [hflow.isOpen, if_neg (by decide)] at hok hfront ⊢
    dsimp only at hok hfront ⊢
    split at hok
    · rename_i hbodyok
      rw [if_pos hbodyok] at hfront ⊢
      split at hok
      · exact absurd hok (by simp)
      · rename_i hdone
        rw [if_neg hdone] at hfront ⊢
        exact (hbody'.of_ok hbodyok).waits hfront
    · exact absurd hok (by simp)
  · intro hend
    obtain ⟨hok, hempty, hledger⟩ : (relayBody b m fd ev io run.1).ok = true ∧ _ ∧ _ :=
      ctRelayProcess_ended hflow.isOpen hfd
        (fun hok => Prod.mk.inj (hbody'.of_ok hok).1.sockets)
        (ho ▸ hend.imp_right fun h => h.2)
    have hflow' := hbody.of_ok hok
    have hsame : L = ledger (run.2 ++ (relayBody b m fd ev io run.1).effects) := by
      rw [hL, ho, ledger_append, hledger, ← ledger_append]
    rw [← hsame] at hflow'
    refine ⟨_, hflow'.inflow, ?_, ?_⟩
    · intro hfront
      have := ((hbody'.of_ok hok).waits hfront).2
      omega
    · have hnil : (relayBody b m fd ev io run.1).state.toDirect.queue = [] :=
        List.eq_nil_of_length_eq_zero (by rw [CtRing.queue_length, hempty])
      rw [hflow'.delivery, hnil, List.append_nil]

end Relay

def helloHead : Octets 12 := recordHeader 21 1

/-- The box of `hello` without recorded boxes: the text and a zero tag. -/
def helloBox : Bytes := ascii "hello" ++ List.replicate ctAeadTag 0

/-- The record of `hello` arrives, then the end of the tunnel. -/
def helloCalls : List RelayCall :=
  [.process 4 ⟨true, false, false, false⟩ ⟨.wouldBlock, .data (helloHead.toList ++ helloBox)⟩,
    .process 4 ⟨true, false, false, false⟩ ⟨.wouldBlock, .eof⟩]

/-- The direct socket takes five bytes. -/
def helloFlush (r : CtRelay) : RelayOutcome :=
  ctRelayProcess smallBuild noCrypto 3 ⟨false, true, false, false⟩ ⟨.sent 5, .wouldBlock⟩ r

/-- What the relay does over `helloCalls` and the flush. -/
def helloTrace (r : CtRelay) : List Effect :=
  (runs (relayCall smallBuild noCrypto) r helloCalls).2 ++
    (helloFlush (runs (relayCall smallBuild noCrypto) r helloCalls).1).effects

/-- `hello` is opened, queued over the end of the tunnel and sent; the flush that
sends it half-closes the direct socket. -/
theorem hello_half_closes {r₀ : CtRelay} (hfresh : FreshRelay smallBuild noCrypto 3 4 client .chacha
      master c r₀) (henc : r₀.encrypted = true)
    (hblank : r₀.directEof = false ∧ r₀.proxyHeaderPending = false ∧ r₀.toDirect.len = 0 ∧
      r₀.toDirect.head = 0)
    (hdec : ctAeadDecrypt noCrypto r₀.cipher r₀.recvKey r₀.recvNonce 1 helloHead.toList helloBox =
      some (ascii "hello")) :
    Effect.shutdownWrite 3 ∈ (helloFlush (runs (relayCall smallBuild noCrypto) r₀
        helloCalls).1).effects ∧
      plaintext (ledger (helloTrace r₀)).opened = ascii "hello" := by
  have hwork : (4 : Socket) ≠ r₀.direct := by
    rw [hfresh.direct]
    decide
  obtain ⟨heof, hheader, hempty, hhead⟩ := hblank
  have hdecode : ctDataRecordHeaderDecode helloHead smallBuild.chunk r₀.recvSeq = some (21, 1) := by
    rw [hfresh.recvSeq]
    decide
  have hroom : 12 + helloBox.length ≤ r₀.workInput.room := by
    rw [CtRing.room, hfresh.workInput.1, hfresh.workInput.2 rfl]
    decide
  have hplain : (ascii "hello").length ≤ r₀.toDirect.room := by
    rw [CtRing.room, hempty, hfresh.toDirect]
    decide
  obtain ⟨⟨a, hfirst⟩, hledger⟩ : (∃ a, (ctRelayProcess smallBuild noCrypto 4
      ⟨true, false, false, false⟩ ⟨.wouldBlock, .data (helloHead.toList ++ helloBox)⟩
      r₀).state = _) ∧ _ :=
    ctRelayProcess_opens rfl hfresh.isOpen henc hwork rfl rfl hfresh.workInput.1 rfl
      hroom hdecode rfl hdec hplain (by decide)
  -- the end of the tunnel leaves the text queued
  generalize hr : CtRelay.accounted _ a = r at hfirst
  have hr' : r.closed = false ∧ r.direct = r₀.direct ∧ r.directEof = false ∧
      r.proxyHeaderPending = false ∧ r.workInput.len = 0 ∧
      r.toDirect = (ctRingWrite r₀.toDirect (ascii "hello")).1 := by
    rw [← hr]
    refine ⟨hfresh.isOpen, rfl, heof, hheader, ?_, rfl⟩
    have hlen : (ctRingWrite r₀.workInput (helloHead.toList ++ helloBox)).1.len = 33 := by
      rw [ctRingWrite_len, hfresh.workInput.1, List.length_append, List.Vector.toList_length,
        Nat.min_eq_left hroom]
      decide
    show (ctRingRead (ctRingRead (ctRingWrite r₀.workInput _).1 12).1 21).1.len = 0
    rw [ctRingRead_len, ctRingRead_len, hlen]
    rfl
  obtain ⟨hopen, hdirect, heof', hheader', hidle, hqueued⟩ := hr'
  obtain ⟨⟨a', hsecond⟩, hledger'⟩ : (∃ a, (ctRelayProcess smallBuild noCrypto 4
      ⟨true, false, false, false⟩ ⟨.wouldBlock, .eof⟩ r).state = _) ∧ _ :=
    ctRelayProcess_work_ends hopen (hdirect ▸ hwork) rfl rfl heof' rfl
  have hlen : r.toDirect.len = 5 := by
    rw [hqueued, ctRingWrite_len, hempty, Nat.min_eq_left hplain]
    rfl
  have hpeek : (ctRingPeek r.toDirect).length = r.toDirect.len := by
    have hcap : r.toDirect.cap = 4096 := by
      rw [hqueued, ctRingWrite_cap, hfresh.toDirect]
      rfl
    have hhead' : r.toDirect.head = 0 := by
      rw [hqueued]
      exact hhead
    rw [ctRingPeek, List.length_take, List.length_drop, hhead', hlen]
    show min (min (r.toDirect.cap - 0) 5) (r.toDirect.cap - 0) = 5
    rw [hcap]
    rfl
  obtain ⟨hshut, hledger''⟩ : Effect.shutdownWrite r.direct ∈ (ctRelayProcess smallBuild noCrypto 3
      ⟨false, true, false, false⟩ ⟨.sent 5, .wouldBlock⟩
      (CtRelay.accounted { r with workEof := true } a')).effects ∧ _ :=
    ctRelayProcess_half_closes hopen (hdirect.trans hfresh.direct).symm rfl rfl hidle heof' rfl
      hheader' (by show r.toDirect.len ≠ 0; omega) hpeek (by show SendResult.sent 5 = _; rw [← hlen]; rfl)
  have hstate : (runs (relayCall smallBuild noCrypto) r₀ helloCalls).1 =
      CtRelay.accounted { r with workEof := true } a' := by
    simp only [helloCalls, runs, relayCall, hfirst, hsecond]
  have htrace : ledger (runs (relayCall smallBuild noCrypto) r₀ helloCalls).2 =
      ledger (ctRelayProcess smallBuild noCrypto 4 ⟨true, false, false, false⟩
        ⟨.wouldBlock, .data (helloHead.toList ++ helloBox)⟩ r₀).effects := by
    simp only [helloCalls, runs, relayCall, hfirst, ledger_append, hledger', List.append_nil,
      Ledger.append_empty]
  refine ⟨?_, ?_⟩
  · have hthree : r.direct = 3 := hdirect.trans hfresh.direct
    rw [hstate, ← hthree]
    exact hshut
  · rw [helloTrace, ledger_append, htrace, hledger, hstate, helloFlush, hledger'']
    rfl

/-- The record that came before the end of the tunnel is sent before the direct
socket is half-closed. -/
theorem hello_sent_before_shutdown :
    plaintext (ledger (helloTrace encryptedRelay)).opened = ascii "hello" ∧
      ∃ rest, (ledger (helloTrace encryptedRelay)).readWork =
          wireBytes (ledger (helloTrace encryptedRelay)).opened ++ rest ∧ ¬ CompleteRecord rest ∧
        (ledger (helloTrace encryptedRelay)).sentDirect = ascii "hello" := by
  have hinit : encryptedRelay = (ctRelayInit smallBuild noCrypto ⟨true, true, true⟩ 3 4 true
    .chacha (.replicate 32 0) (webContext .required) none).state := rfl
  have hrelay : encryptedRelay.encrypted = true ∧ (encryptedRelay.directEof = false ∧
      encryptedRelay.proxyHeaderPending = false ∧ encryptedRelay.toDirect.len = 0 ∧
      encryptedRelay.toDirect.head = 0) ∧ ctAeadDecrypt noCrypto encryptedRelay.cipher
        encryptedRelay.recvKey encryptedRelay.recvNonce 1 helloHead.toList helloBox =
          some (ascii "hello") := by
    decide +kernel
  obtain ⟨henc, hblank, hdec⟩ := hrelay
  have hempty : encryptedRelay.toDirect.queue = [] :=
    List.eq_nil_of_length_eq_zero (by rw [CtRing.queue_length, hblank.2.2.1])
  obtain ⟨hshut, hopened⟩ := hello_half_closes encryptedRelay_fresh henc hblank hdec
  unfold helloTrace at hopened ⊢
  generalize hrun : runs (relayCall smallBuild noCrypto) encryptedRelay helloCalls = run at *
  obtain ⟨s, tr⟩ := run
  obtain ⟨rest, hread, hpart, hsent⟩ := (records_sent_before_shutdown hinit rfl (by decide) helloCalls
    3 ⟨false, true, false, false⟩ ⟨.sent 5, .wouldBlock⟩ hrun.symm rfl rfl).2 (.inl hshut)
  refine ⟨hopened, rest, hread, hpart, hsent.trans ?_⟩
  rw [hempty, List.nil_append]
  exact hopened

/-! ## Progress -/

section Progress

variable {b : Build} {m : Monocypher} {r : CtRelay}

/-- Bytes wait in `work_input`, more may come, and no event is requested that
would move them. -/
def Stranded (b : Build) (r : CtRelay) : Prop :=
  r.closed = false ∧ r.workInput.len ≠ 0 ∧ r.workEof = false ∧
    (ctRelayEvents b r r.work).read = false ∧ (ctRelayEvents b r r.direct).write = false

/-- A record of the peer: sealed under the receiving keys, with its length and
number in the header, and of at most `limit` plaintext bytes. -/
structure ValidRecord (m : Monocypher) (K : RelayKeys) (limit : Nat) (x : Record) : Prop where
  key : x.1.key = K.recvKey
  base : x.1.base = K.recvNonce
  head : x.1.ad = (recordHeader (UInt32.ofNat (x.2.length + ctAeadTag)) x.1.sequence).toList
  box : ctAeadEncrypt m K.cipher x.1.key x.1.base x.1.sequence x.1.ad x.2 = some x.1.box
  size : x.2.length ≤ limit

/-- The bytes are the front of a sequence of valid records. -/
def ValidFeed (m : Monocypher) (K : RelayKeys) (limit : Nat) (bytes : Bytes) : Prop :=
  ∃ records, bytes <+: wireBytes records ∧ Numbered seqNo records ∧
    ∀ x ∈ records, ValidRecord m K limit x

/-- Bytes that wait are the front of a record or wait for room; with large enough
buffers the first are less than what pauses READ. -/
theorem Settled.not_stranded {fds : Socket × Socket} {tr : List Effect}
    (h : Settled b fds r tr) (hb : b.dataEncryption = true) (hfd : fds.2 ≠ fds.1)
    (hsize : 32828 ≤ b.streamBufferSize) : ¬ Stranded b r := by
  rintro ⟨hopen, hlen, heof, hread, hwrite⟩
  have hchunk : b.chunk = 16384 := by
    unfold Build.chunk
    rw [if_neg (by omega)]
  have hsock := Prod.mk.inj h.1.sockets
  have hne : r.work ≠ r.direct := by
    rw [hsock.1, hsock.2]
    exact hfd
  have hempty : r.toDirect.len = 0 := by
    simpa [ctRelayEvents, hopen] using hwrite
  have hpaused : r.workInput.cap - b.chunk - 32 ≤ r.workInput.len := by
    by_contra hlow
    rw [ctRelayEvents_work_read hb hopen hne heof (by omega)] at hread
    exact absurd hread (by simp)
  have hcap := h.1.workInput
  have hfull : CompleteRecord r.workInput.queue := by
    obtain ⟨n, seq, hdecode, -⟩ := h.2 (by omega)
    have hn := frontHeader_length (by omega) hdecode
    have hmax := (ctDataRecordHeaderDecode_some hdecode).2.1
    rw [CompleteRecord, r.workInput.queue_length, ← hn]
    have htag : ctAeadTag = 16 := rfl
    omega
  have := (h.waits hfull).2
  omega

/-- The first record the peer can send, with the plaintext `p`. -/
def CtRelay.peerRecord (m : Monocypher) (r : CtRelay) (p : Bytes) : Record :=
  let head := (recordHeader (UInt32.ofNat (p.length + ctAeadTag)) 1).toList
  (⟨r.recvKey, r.recvNonce, 1, head,
    (ctAeadEncrypt m r.cipher r.recvKey r.recvNonce 1 head p).getD []⟩, p)

/-- A full record but for its last byte. -/
def CtRelay.fullRecordFront (b : Build) (m : Monocypher) (r : CtRelay) : Bytes :=
  (wireBytes [r.peerRecord m (List.replicate b.chunk 0)]).take (b.chunk + 27)

/-- One read of the front of a full record. -/
def frontRead (b : Build) (m : Monocypher) (r : CtRelay) : List RelayCall :=
  [.process r.work ⟨true, false, false, false⟩ ⟨.wouldBlock, .data (r.fullRecordFront b m)⟩]

theorem front_strands {direct work : Socket} {client : Bool} {master : Octets 32}
    {c : StreamContext} (h : FreshRelay b m direct work client .chacha master c r)
    (hmode : c.mode = .required) (hfd : work ≠ direct)
    (hblank : r.directEof = false ∧ r.workEof = false ∧ r.toDirect.len = 0) :
    ValidFeed m r.keys b.chunk
        (ledger (runs (relayCall b m) r (frontRead b m r)).2).readWork ∧
      (b.streamBufferSize < 32828 → Stranded b (runs (relayCall b m) r (frontRead b m r)).1) := by
  have hb := h.available hmode
  have henc := h.required hmode
  have hcipher : r.cipher = .chacha := (h.keys henc).1
  have hrange := b.streamBufferSize_range
  have htag : ctAeadTag = 16 := rfl
  have hchunk : b.chunk ≤ 16384 ∧ b.chunk + 28 ≤ b.streamBufferSize ∧
      (b.streamBufferSize < 32828 → b.streamBufferSize ≤ 2 * b.chunk + 59) := by
    unfold Build.chunk
    split <;> omega
  -- the record and its front
  generalize hp : List.replicate b.chunk (0 : UInt8) = p
  have hplen : p.length = b.chunk := by rw [← hp, List.length_replicate]
  generalize hhead : recordHeader (UInt32.ofNat (p.length + ctAeadTag)) 1 = head
  obtain ⟨box, hbox⟩ : ∃ box, ctAeadEncrypt m r.cipher r.recvKey r.recvNonce 1 head.toList p =
      some box := by
    rw [hcipher]
    refine ctAeadEncrypt_some m _ _ _ _ ?_
    have : sizeMax = 2 ^ 32 - 1 := rfl
    omega
  have hrecord : r.peerRecord m p = (⟨r.recvKey, r.recvNonce, 1, head.toList, box⟩, p) := by
    simp only [CtRelay.peerRecord, hhead, hbox, Option.getD_some]
  have hboxLen : box.length = b.chunk + 16 := by rw [ctAeadEncrypt_length hbox, hplen, htag]
  have hfront : r.fullRecordFront b m = head.toList ++ box.take (b.chunk + 15) := by
    rw [CtRelay.fullRecordFront, hp, hrecord]
    have hwire : wireBytes [(⟨r.recvKey, r.recvNonce, 1, head.toList, box⟩, p)] =
        head.toList ++ box := by simp [wireBytes]
    rw [hwire, List.take_append, List.take_of_length_le (by simp)]
    simp
  have hn : (UInt32.ofNat (p.length + ctAeadTag)).toNat = b.chunk + 16 := by
    rw [UInt32.toNat_ofNat_of_lt' (by
      show p.length + ctAeadTag < 2 ^ 32
      omega), hplen, htag]
  have hdecode : ctDataRecordHeaderDecode head b.chunk r.recvSeq =
      some (UInt32.ofNat (p.length + ctAeadTag), 1) := by
    have hone : (1 : UInt64) = r.recvSeq + 1 := by
      rw [h.recvSeq]
      rfl
    rw [← hhead, hone, recordHeader_decode _ (by omega) (by rw [h.recvSeq]; decide),
      if_neg (by omega)]
  have hpart : (box.take (b.chunk + 15)).length = b.chunk + 15 := by
    rw [List.length_take]
    omega
  have hcap := h.workInput.2 hb
  have hroom : 12 + (box.take (b.chunk + 15)).length ≤ r.workInput.room := by
    rw [CtRing.room, h.workInput.1, hcap]
    omega
  have hne : r.work ≠ r.direct := by
    rw [h.work, h.direct]
    exact hfd
  have hdata : (RecvResult.data (head.toList ++ box.take (b.chunk + 15))).into (b.chunk + 32) =
      .data (head.toList ++ box.take (b.chunk + 15)) := by
    have hlen : (head.toList ++ box.take (b.chunk + 15)).length = b.chunk + 27 := by
      rw [List.length_append, List.Vector.toList_length, hpart]
      omega
    exact RecvResult.into_data (List.ne_nil_of_length_pos (by omega)) (by omega)
  obtain ⟨⟨a, hstate⟩, hledger⟩ : (∃ a, (ctRelayProcess b m r.work ⟨true, false, false, false⟩
      ⟨.wouldBlock, .data (head.toList ++ box.take (b.chunk + 15))⟩ r).state = _) ∧ _ :=
    ctRelayProcess_collects hb h.isOpen henc hne rfl rfl h.workInput.1 hblank.1 hdata hroom hdecode
      (by omega)
  have hrun : runs (relayCall b m) r (frontRead b m r) =
      ((ctRelayProcess b m r.work ⟨true, false, false, false⟩
        ⟨.wouldBlock, .data (head.toList ++ box.take (b.chunk + 15))⟩ r).state,
      (ctRelayProcess b m r.work ⟨true, false, false, false⟩
        ⟨.wouldBlock, .data (head.toList ++ box.take (b.chunk + 15))⟩ r).effects) := by
    simp [frontRead, runs, relayCall, hfront]
  rw [hrun]
  refine ⟨?_, ?_⟩
  · refine ⟨[r.peerRecord m p], ?_, ?_, ?_⟩
    · rw [hledger, ← hfront, CtRelay.fullRecordFront, hp]
      exact List.take_prefix _ _
    · rw [hrecord]
      exact Numbered.nil.snoc rfl
    · intro x hx
      rw [List.mem_singleton.mp hx, hrecord]
      exact ⟨rfl, rfl, by rw [hhead], hbox, Nat.le_of_eq hplen⟩
  · intro hsize
    rw [hstate]
    have hlen : (ctRingWrite r.workInput (head.toList ++ box.take (b.chunk + 15))).1.len =
        b.chunk + 27 := by
      rw [ctRingWrite_len, h.workInput.1, List.length_append, List.Vector.toList_length, hpart,
        Nat.min_eq_left (by omega)]
      omega
    refine ⟨h.isOpen, ?_, hblank.2.1, ?_, ?_⟩
    · show (ctRingWrite r.workInput _).1.len ≠ 0
      omega
    · have hpaused : ¬ (ctRingWrite r.workInput (head.toList ++ box.take (b.chunk + 15))).1.len <
          (ctRingWrite r.workInput (head.toList ++ box.take (b.chunk + 15))).1.cap - b.chunk - 32 := by
        rw [ctRingWrite_cap, hcap, hlen]
        omega
      simp only [ctRelayEvents, CtRelay.accounted, h.isOpen, hne, hb, Bool.false_eq_true, if_false,
        if_true, decide_eq_false hpaused, Bool.and_false]
    · simp [ctRelayEvents, CtRelay.accounted, h.isOpen, hblank.2.2]

/-- A relay of `web` opens in every build with encryption. -/
theorem webRelay_ok (m : Monocypher) {b : Build} (hb : b.dataEncryption = true)
    (direct work : Socket) (client : Bool) :
    (ctRelayInit b m ⟨true, true, true⟩ direct work client .chacha (.replicate 32 0)
      (webContext .required) none).ok = true := by
  have hid : (webContext .required).serviceId.length ≤ b.maxServiceIdLength := by
    have hthree : (webContext .required).serviceId.length = 3 := by decide +kernel
    have := b.maxServiceIdLength_range
    omega
  exact ctRelayInit_ok ⟨rfl, rfl, rfl⟩ hid fun _ => hb

theorem webRelay_fresh (m : Monocypher) {b : Build} (hb : b.dataEncryption = true)
    (direct work : Socket) (client : Bool) :
    FreshRelay b m direct work client .chacha (.replicate 32 0) (webContext .required)
      (ctRelayInit b m ⟨true, true, true⟩ direct work client .chacha (.replicate 32 0)
        (webContext .required) none).state :=
  ctRelayInit_fresh (webRelay_ok m hb direct work client)

/-- The relay of `web` on the server. -/
def webRelay (b : Build) (m : Monocypher) : CtRelay :=
  (ctRelayInit b m ⟨true, true, true⟩ 3 4 false .chacha (.replicate 32 0)
    (webContext .required) none).state

/-- Whatever the primitives: while bytes wait in `work_input`, an event that moves
them is requested, for every relay fed with valid records and in every state it
reaches, exactly if the buffers have at least 32828 bytes. -/
theorem inbound_progress_iff (m : Monocypher) (hb : b.dataEncryption = true) :
    (∀ (alloc : RelayAlloc) (direct work : Socket) (client : Bool)
      (cipher : CtCipher) (master : Octets 32) (c : StreamContext)
      (metadata : Option CtStreamMetadata) (r : CtRelay) (calls : List RelayCall),
      r = (ctRelayInit b m alloc direct work client cipher master c metadata).state →
      c.mode = .required → work ≠ direct →
      ValidFeed m r.keys b.chunk (ledger (runs (relayCall b m) r calls).2).readWork →
      ¬ Stranded b (runs (relayCall b m) r calls).1) ↔ 32828 ≤ b.streamBufferSize := by
  constructor
  · intro hall
    by_contra hsize
    obtain ⟨hfeed, hstranded⟩ := front_strands (webRelay_fresh m hb 3 4 false) rfl (by decide)
      (ctRelayInit_blank (webRelay_ok m hb 3 4 false))
    exact hall _ _ _ _ _ _ _ none _ _ rfl rfl (by decide) hfeed (hstranded (by omega))
  · rintro hsize alloc direct work client cipher master c metadata r calls hr hmode hfd - hstranded
    rcases relayRuns_open hr hmode calls with hclosed | ⟨-, -, hsettled⟩
    · exact absurd hclosed (by simp [hstranded.1])
    · exact hsettled.not_stranded hb hfd hsize hstranded

/-- With the smallest buffers, 2075 bytes of a record of 2076 are stranded. -/
theorem stranded_small :
    ValidFeed noCrypto encryptedRelay.keys smallBuild.chunk
        (ledger (runs (relayCall smallBuild noCrypto) encryptedRelay
          (frontRead smallBuild noCrypto encryptedRelay)).2).readWork ∧
      Stranded smallBuild (runs (relayCall smallBuild noCrypto) encryptedRelay
        (frontRead smallBuild noCrypto encryptedRelay)).1 :=
  (front_strands encryptedRelay_fresh rfl (by decide) (by decide +kernel)).imp_right
    fun h => h (by decide)

/-- With ctunnel's own ChaCha20-Poly1305, the default buffers hold the same front of
a record with READ requested. -/
theorem default_progress :
    ValidFeed noCrypto.withSource (webRelay defaultBuild noCrypto.withSource).keys
        defaultBuild.chunk (ledger (runs (relayCall defaultBuild noCrypto.withSource)
          (webRelay defaultBuild noCrypto.withSource) (frontRead defaultBuild noCrypto.withSource
            (webRelay defaultBuild noCrypto.withSource))).2).readWork ∧
      ¬ Stranded defaultBuild (runs (relayCall defaultBuild noCrypto.withSource)
        (webRelay defaultBuild noCrypto.withSource) (frontRead defaultBuild noCrypto.withSource
          (webRelay defaultBuild noCrypto.withSource))).1 := by
  generalize noCrypto.withSource = m
  have hfeed := (front_strands (webRelay_fresh m (b := defaultBuild) rfl 3 4 false) rfl (by decide)
    (ctRelayInit_blank (webRelay_ok m rfl 3 4 false))).1
  refine ⟨hfeed, ?_⟩
  exact (inbound_progress_iff m rfl).mpr (by decide) _ _ _ _ _ _ _ none _ _ rfl rfl (by decide) hfeed

end Progress

end Ctunnel
