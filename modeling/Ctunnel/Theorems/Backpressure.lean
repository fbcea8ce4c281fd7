import Ctunnel.Crypto.Recorded
import Ctunnel.Net.RelayRead
import Ctunnel.Net.RelayRoom
import Ctunnel.Platform.Event

/-!
# Backpressure

A relay inside its event loop: each round registers what `ct_relay_events` asks
for, waits, and hands what the backend reports to `ct_relay_process`. A ring
that is too full for another read must not be read into; whether it ever is
depends on the ring `ct_relay_events` looks at and on READ being reported only
when it was asked for.

* `requested_reads_complete` — reads that were asked for fit at any size, except
  on the work socket of an unencrypted relay whose `to_direct` has room for less
  than a full read: `ct_relay_events` looks at `work_input` while the bytes go to
  `to_direct` (`disabled_stream_overruns`);
* `reported_reads_complete` — READ that a backend makes out of a hang-up fits at
  any size exactly if the ring has room for a full read, which nothing guarantees
  (`hangup_overruns`).

Where the reads fit, the relay is closed only at the end of its stream or for a
fault of its sockets or its records.
-/

namespace Ctunnel

open Lib

/-! ## The loop -/

/-- A relay and what is registered for its sockets; READ is taken off when it is
processed, as a round reports it once. -/
structure RelayLoop where
  relay : CtRelay
  interest : Socket → EvMask

inductive LoopCall
  /-- Rebuild the event loop from `ct_relay_events`. -/
  | register
  /-- One reported event of one of the two sockets. -/
  | event (side : Side) (report : Report) (io : RelayIo)
  /-- The owner closes the relay. -/
  | close

def RelayLoop.start (r : CtRelay) : RelayLoop := ⟨r, fun _ => ⟨false, false, false, false⟩⟩

def CtRelay.socket (r : CtRelay) : Side → Socket
  | .direct => r.direct
  | .work => r.work

def loopCall (b : Build) (m : Monocypher) (call : LoopCall) (s : RelayLoop) :
    Outcome Effect RelayLoop :=
  match call with
  | .register => .done { s with interest := ctRelayEvents b s.relay }
  | .event side report io =>
      let fd := s.relay.socket side
      let o := ctRelayProcess b m fd report.mask io s.relay
      ⟨{ relay := o.state
         interest := if report.mask.read then
             Function.update s.interest fd { s.interest fd with read := false }
           else s.interest }, o.ok, o.effects⟩
  | .close =>
      let o := ctRelayClose b s.relay
      ⟨{ s with relay := o.state }, o.ok, o.effects⟩

/-- A read of any size that the code can ask `recv` for fits. -/
def RelayLoop.ReadsFit (b : Build) (s : RelayLoop) (side : Side) : Prop :=
  ∀ n ≤ s.relay.readSize b (s.relay.socket side), s.relay.ReadRoom (s.relay.socket side) n

/-- The reads of a call fit. -/
def LoopCall.Fits (b : Build) (s : RelayLoop) : LoopCall → Prop
  | .event side report _ => s.relay.closed = false → report.mask.read = true → s.ReadsFit b side
  | _ => True

/-- READ is reported only if it was asked for. -/
def LoopCall.Requested (s : RelayLoop) : LoopCall → Prop
  | .event side report _ =>
      report.mask.read = true → (s.interest (s.relay.socket side)).read = true
  | _ => True

/-- What the kernel can report for the registered interest. -/
def LoopCall.Possible (s : RelayLoop) : LoopCall → Prop
  | .event side report _ => report.possible (s.interest (s.relay.socket side)) = true
  | _ => True

/-- READ of the work socket. -/
def LoopCall.readsWork (s : RelayLoop) : LoopCall → Bool
  | .event side report _ =>
      report.mask.read && decide (s.relay.socket side ≠ s.relay.direct)
  | _ => false

/-- `to_direct` has no room for a full read from the work socket, and the relay
does not collect its bytes in `work_input` first. -/
def CtRelay.DirectTight (b : Build) (r : CtRelay) : Prop :=
  r.encrypted = false ∧ r.toDirect.cap < r.toDirect.len + (b.chunk + 32)

instance (r : CtRelay) : Decidable (r.DirectTight b) := by
  unfold CtRelay.DirectTight
  infer_instance

/-- READ is processed on the work socket while `to_direct` is tight. -/
def LoopCall.ReadsTight (b : Build) (s : RelayLoop) (call : LoopCall) : Prop :=
  call.readsWork s = true ∧ s.relay.DirectTight b

/-- The ring an encrypted relay reads `fd` into has no room for a full read: a
chunk from the direct socket becomes a record in `to_work`. -/
def CtRelay.InputTight (b : Build) (r : CtRelay) (fd : Socket) : Prop :=
  if fd = r.direct then r.toWork.cap < r.toWork.len + (b.chunk + (12 + ctAeadTag))
  else r.workInput.cap < r.workInput.len + (b.chunk + 32)

/-- A hang-up or an error is reported where READ is not registered and the ring is
tight. -/
def LoopCall.HangsUpTight (b : Build) (s : RelayLoop) : LoopCall → Prop
  | .event side report _ =>
      (report.mask.hangup = true ∨ report.mask.error = true) ∧
        (s.interest (s.relay.socket side)).read = false ∧
        s.relay.InputTight b (s.relay.socket side)
  | _ => False

/-- If an event closes an open relay, both directions have ended and everything
was sent, or a socket call or a record failed. -/
def LoopCall.ClosesForCause (b : Build) (m : Monocypher) (s : RelayLoop) : LoopCall → Prop
  | .event side report io =>
      let o := ctRelayProcess b m (s.relay.socket side) report.mask io s.relay
      s.relay.closed = false → o.ok = false →
        (Effect.shutdownWrite s.relay.work ∈ o.effects ∧
          Effect.shutdownWrite s.relay.direct ∈ o.effects) ∨ io.Fault o.state o.effects
  | _ => True

/-! ## Room for what was asked for -/

/-- READ is registered only with room for a full read and its record. -/
structure Registered (b : Build) (encrypted : Bool) (s : RelayLoop) : Prop where
  encrypted : s.relay.encrypted = encrypted
  direct : (s.interest s.relay.direct).read = true →
    s.relay.toWork.len + (b.chunk + 32) ≤ s.relay.toWork.cap
  work : s.relay.work ≠ s.relay.direct → (s.interest s.relay.work).read = true →
    s.relay.workInput.len + (b.chunk + 32) ≤ s.relay.workInput.cap

/-- A relay is closed, or what is registered for it has room. -/
def RelayLoop.Guarded (b : Build) (encrypted : Bool) (s : RelayLoop) : Prop :=
  s.relay.closed = true ∨ Registered b encrypted s

theorem RecvResult.count_le (res : RecvResult) (cap : Nat) : res.count cap ≤ cap := by
  unfold RecvResult.count RecvResult.into
  cases res with
  | data bytes =>
      dsimp only
      split
      · rename_i bytes' heq
        split at heq
        · exact absurd heq (by simp)
        · injection heq with heq
          rw [← heq, List.length_take]
          omega
      · exact Nat.zero_le _
  | eof => exact Nat.zero_le _
  | wouldBlock => exact Nat.zero_le _
  | failed => exact Nat.zero_le _

theorem ctRelayEvents_direct {b : Build} {r : CtRelay}
    (h : (ctRelayEvents b r r.direct).read = true) :
    r.toWork.len + (b.chunk + 32) ≤ r.toWork.cap := by
  unfold ctRelayEvents at h
  split at h
  · exact absurd h (by simp)
  · rw [if_pos rfl] at h
    simp only [Bool.and_eq_true, decide_eq_true_eq] at h
    omega

theorem ctRelayEvents_work {b : Build} (hb : b.dataEncryption = true) {r : CtRelay}
    (hfd : r.work ≠ r.direct) (h : (ctRelayEvents b r r.work).read = true) :
    r.workInput.len + (b.chunk + 32) ≤ r.workInput.cap := by
  unfold ctRelayEvents at h
  split at h
  · exact absurd h (by simp)
  · rw [if_pos rfl] at h
    simp only [Bool.and_eq_true, decide_eq_true_eq] at h
    omega

/-- The socket of a side that is not the direct one. -/
theorem CtRelay.socket_work {r : CtRelay} {side : Side} (h : r.socket side ≠ r.direct) :
    r.socket side = r.work := by
  cases side with
  | direct => exact absurd rfl h
  | work => rfl

/-- Registered READ fits at any size exactly if `to_direct` is not tight. -/
theorem Registered.readsFit_iff {b : Build} {s : RelayLoop} {encrypted : Bool}
    (h : Registered b encrypted s) {side : Side}
    (hread : (s.interest (s.relay.socket side)).read = true) :
    s.ReadsFit b side ↔ (s.relay.socket side ≠ s.relay.direct → ¬ s.relay.DirectTight b) := by
  have htag : ctAeadTag = 16 := rfl
  unfold RelayLoop.ReadsFit CtRelay.readSize CtRelay.ReadRoom CtRelay.DirectTight
  by_cases hfd : s.relay.socket side = s.relay.direct
  · have hroom := h.direct (hfd ▸ hread)
    simp only [hfd, if_true]
    refine ⟨fun _ hne => absurd rfl hne, fun _ n hn => ?_⟩
    split <;> omega
  · have hwork := CtRelay.socket_work hfd
    have hroom := h.work (hwork ▸ hfd) (hwork ▸ hread)
    simp only [hfd, if_false]
    cases henc : s.relay.encrypted with
    | true =>
        -- the bytes go to `work_input`, which was looked at
        refine ⟨fun _ _ htight => absurd htight.1 (by decide), fun _ n hn => ?_⟩
        show s.relay.workInput.len + n ≤ s.relay.workInput.cap
        omega
    | false =>
        simp only [Bool.false_eq_true, if_false]
        constructor
        · intro hfit _ htight
          have hmax := hfit (b.chunk + 32) (Nat.le_refl _)
          omega
        · intro htight n hn
          refine Nat.le_of_not_lt fun hlt => htight hfd ⟨trivial, ?_⟩
          omega

/-- An encrypted relay takes a read of any size exactly if the ring is not tight. -/
theorem RelayLoop.readsFit_encrypted {b : Build} {s : RelayLoop} {side : Side}
    (henc : s.relay.encrypted = true) :
    s.ReadsFit b side ↔ ¬ s.relay.InputTight b (s.relay.socket side) := by
  unfold RelayLoop.ReadsFit CtRelay.readSize CtRelay.ReadRoom CtRelay.InputTight
  simp only [henc, if_true]
  split
  · constructor
    · intro hfit
      have hmax := hfit b.chunk (Nat.le_refl _)
      omega
    · intro hroom n hn
      omega
  · constructor
    · intro hfit
      have hmax := hfit (b.chunk + 32) (Nat.le_refl _)
      omega
    · intro hroom n hn
      omega

/-- What is registered after an event was registered before, and not processed. -/
theorem interest_after {interest : Socket → EvMask} {fd fd' : Socket} {ev : EvMask}
    (h : ((if ev.read then Function.update interest fd { interest fd with read := false }
      else interest) fd').read = true) :
    (interest fd').read = true ∧ ¬ (ev.read = true ∧ fd = fd') := by
  cases hev : ev.read with
  | false =>
      rw [hev] at h
      exact ⟨by simpa using h, fun hboth => absurd hboth.1 (by decide)⟩
  | true =>
      rw [hev, if_pos rfl] at h
      by_cases hfd : fd = fd'
      · rw [hfd, Function.update_self] at h
        exact absurd h (by simp)
      · rw [Function.update_of_ne (Ne.symm hfd)] at h
        exact ⟨h, fun hboth => hfd hboth.2⟩

/-- READ that stays registered on the direct socket keeps its room. -/
theorem Levels.directRoom {s : RelayLoop} {r : CtRelay} {side : Side} {ev : EvMask}
    {input direct n : Nat}
    (hlevels : Levels s.relay (s.relay.workLevel (s.relay.socket side) ev) input direct r)
    (hroom : (s.interest s.relay.direct).read = true → s.relay.toWork.len + n ≤ s.relay.toWork.cap)
    (hread : ((if ev.read then Function.update s.interest (s.relay.socket side)
        { s.interest (s.relay.socket side) with read := false } else s.interest) r.direct).read = true) :
    r.toWork.len + n ≤ r.toWork.cap := by
  rw [hlevels.sockets.1] at hread
  obtain ⟨hwas, hnot⟩ := interest_after hread
  have hlen := hlevels.toWork
  have hcap := hlevels.caps.1
  have hleft := hroom hwas
  rw [CtRelay.workLevel, if_neg hnot] at hlen
  omega

/-- READ that stays registered on the work socket was not processed. -/
theorem Levels.workLeft {s : RelayLoop} {r : CtRelay} {side : Side} {ev : EvMask}
    {work input direct : Nat} (hlevels : Levels s.relay work input direct r)
    (hread : ((if ev.read then Function.update s.interest (s.relay.socket side)
        { s.interest (s.relay.socket side) with read := false } else s.interest) r.work).read = true) :
    (s.interest s.relay.work).read = true ∧
      ¬ (ev.read = true ∧ s.relay.socket side ≠ s.relay.direct) := by
  rw [hlevels.sockets.2] at hread
  obtain ⟨hwas, hnot⟩ := interest_after hread
  exact ⟨hwas, fun hboth => hnot ⟨hboth.1, CtRelay.socket_work hboth.2⟩⟩

/-- An event leaves only READ registered for which there is room. -/
theorem Registered.event {b : Build} {s : RelayLoop} {encrypted : Bool} {r : CtRelay}
    (h : Registered b encrypted s) {side : Side} {ev : EvMask} {direct : Nat}
    (hlevels : Levels s.relay (s.relay.workLevel (s.relay.socket side) ev)
      (s.relay.inputLevel (s.relay.socket side) ev) direct r) :
    Registered b encrypted
      ⟨r, if ev.read then Function.update s.interest (s.relay.socket side)
          { s.interest (s.relay.socket side) with read := false }
        else s.interest⟩ := by
  refine ⟨hlevels.encrypted.trans h.encrypted, fun hread => hlevels.directRoom h.direct hread, ?_⟩
  intro hne hread
  obtain ⟨hwas, hnot⟩ := hlevels.workLeft hread
  obtain ⟨hdirect, hwork⟩ := hlevels.sockets
  have hinput := hlevels.workInput
  have hcap := hlevels.caps.2.1
  have hroom := h.work (hdirect ▸ hwork ▸ hne) hwas
  rw [CtRelay.inputLevel, if_neg hnot] at hinput
  show r.workInput.len + (b.chunk + 32) ≤ r.workInput.cap
  omega

/-- One call of the loop whose reads fit. -/
theorem loopCall_fits {b : Build} {m : Monocypher} (hb : b.dataEncryption = true)
    {encrypted : Bool} {s : RelayLoop} {call : LoopCall} (hfits : call.Fits b s)
    (h : s.Guarded b encrypted) :
    AppendsComplete (loopCall b m call s).effects ∧
      (loopCall b m call s).state.Guarded b encrypted ∧ call.ClosesForCause b m s := by
  cases call with
  | register =>
      refine ⟨by simp [loopCall, AppendsComplete], ?_, trivial⟩
      rcases h with hclosed | hreg
      · exact .inl hclosed
      · exact .inr ⟨hreg.encrypted, ctRelayEvents_direct, ctRelayEvents_work hb⟩
  | close => exact ⟨.of_quiet (ctRelayClose_quiet b s.relay), .inl rfl, trivial⟩
  | event side report io =>
      cases hopen : s.relay.closed with
      | true =>
          refine ⟨?_, .inl ?_, fun hno => absurd (hopen.symm.trans hno) (by decide)⟩
          · simp [loopCall, ctRelayProcess, hopen, AppendsComplete]
          · simp [loopCall, ctRelayProcess, hopen]
      | false =>
          have hreg := h.resolve_left (by simp [hopen])
          obtain ⟨hcomplete, hafter, hcause⟩ : AppendsComplete (ctRelayProcess b m
              (s.relay.socket side) report.mask io s.relay).effects ∧ _ ∧ _ :=
            ctRelayProcess_complete (fun _ => hb) hopen
              fun hread => hfits hopen hread _ (io.recv.count_le _)
          refine ⟨hcomplete, ?_, fun _ => hcause⟩
          rcases hafter with hclosed | hlevels
          · exact .inl hclosed
          · exact .inr (hreg.event hlevels)

/-- A run whose reads fit appends in full, and closes the relay only for a cause. -/
theorem loopRuns_fit {b : Build} {m : Monocypher} (hb : b.dataEncryption = true) {encrypted : Bool}
    {C : RelayLoop → LoopCall → Prop}
    (hfits : ∀ s call, C s call → s.Guarded b encrypted → call.Fits b s) {s : RelayLoop}
    {calls : List LoopCall} (hcalls : Along (loopCall b m) C s calls) (h : s.Guarded b encrypted) :
    AppendsComplete (runs (loopCall b m) s calls).2 ∧
      (runs (loopCall b m) s calls).1.Guarded b encrypted ∧
      Along (loopCall b m) (fun s call => call.ClosesForCause b m s) s calls := by
  -- `Guarded` carries the run: it turns the condition on a call into room for its read
  have hstart : s.Guarded b encrypted ∧ AppendsComplete [] := ⟨h, by simp [AppendsComplete]⟩
  have hrun := runs_along (I := fun s tr => s.Guarded b encrypted ∧ AppendsComplete tr)
    (fun s tr call hC hI => ?_) hcalls hstart
  · refine ⟨by simpa using hrun.2, hrun.1, ?_⟩
    refine Along.of_inv (fun s call hC hI => ?_) hcalls h
    obtain ⟨-, hnext, hcause⟩ := loopCall_fits (m := m) hb (hfits s call hC hI) hI
    exact ⟨hcause, hnext⟩
  · obtain ⟨hcomplete, hnext, -⟩ := loopCall_fits (m := m) hb (hfits s call hC hI.1) hI.1
    exact ⟨hnext, hI.2.append hcomplete⟩

/-- A loop starts with nothing registered. -/
theorem RelayLoop.Guarded.start {b : Build} (r : CtRelay) :
    (RelayLoop.start r).Guarded b r.encrypted :=
  .inr ⟨rfl, by simp [RelayLoop.start], by simp [RelayLoop.start]⟩

/-! ## Reads that were asked for -/

/-- If READ is processed only where it was asked for, and never on the work socket
of an unencrypted relay while `to_direct` is tight, no read is cut short and the
relay is closed only for a cause; and where READ is asked for in the state
reached, a read of any size fits exactly if `to_direct` is not tight. -/
theorem requested_reads_complete {b : Build} {m : Monocypher} (hb : b.dataEncryption = true)
    (r : CtRelay) {calls : List LoopCall}
    (hcalls : Along (loopCall b m) (fun s call => call.Requested s ∧ ¬ call.ReadsTight b s)
      (.start r) calls) {s : RelayLoop} {tr : List Effect}
    (hrun : runs (loopCall b m) (.start r) calls = (s, tr)) :
    AppendsComplete tr ∧
      Along (loopCall b m) (fun s call => call.ClosesForCause b m s) (.start r) calls ∧
      ∀ side, s.relay.closed = false → (s.interest (s.relay.socket side)).read = true →
        (s.ReadsFit b side ↔ (s.relay.socket side ≠ s.relay.direct → ¬ s.relay.DirectTight b)) := by
  have hfits : ∀ (s : RelayLoop) (call : LoopCall), call.Requested s ∧ ¬ call.ReadsTight b s →
      s.Guarded b r.encrypted → call.Fits b s := by
    rintro s (- | ⟨side, report, io⟩ | -) ⟨hreq, htight⟩ hguard
    · trivial
    · intro hopen hread
      have hreg := hguard.resolve_left (by simp [hopen])
      refine (hreg.readsFit_iff (hreq hread)).mpr fun hfd hfull => htight ⟨?_, hfull⟩
      simp [LoopCall.readsWork, hread, hfd]
    · trivial
  obtain ⟨hcomplete, hguard, hcause⟩ := loopRuns_fit hb hfits hcalls (.start r)
  rw [hrun] at hcomplete hguard
  refine ⟨hcomplete, hcause, fun side hopen hread => ?_⟩
  exact (hguard.resolve_left (by simp [hopen])).readsFit_iff hread

/-- The smallest buffers Kconfig admits: 4096 bytes, and reads of up to 2048 and
2080 bytes. -/
def smallBuild : Build :=
  { defaultBuild with streamBufferSize := 4096, streamBufferSize_range := by decide }

def noCrypto : Monocypher := CryptoLog.monocypher ⟨[], [], [], []⟩

/-- A stream of the service `web` in the given mode. -/
def webContext (mode : CtEncMode) : StreamContext where
  stream := 1
  random := .replicate 32 0x22
  workId := .replicate 32 0x33
  serviceId := .ofBytes (ascii "web")
  mode := mode

/-- READ as asked for, returning `bytes`. -/
def readyRead (side : Side) (bytes : Bytes) : LoopCall :=
  .event side (.epoll true false false false false) ⟨.wouldBlock, .data bytes⟩

/-- A relay is read from its work socket whenever `work_input` has room. -/
theorem ctRelayEvents_work_read {b : Build} (hb : b.dataEncryption = true) {r : CtRelay}
    (hopen : r.closed = false) (hfd : r.work ≠ r.direct) (heof : r.workEof = false)
    (hroom : r.workInput.len < r.workInput.cap - b.chunk - 32) :
    (ctRelayEvents b r r.work).read = true := by
  simp [ctRelayEvents, hopen, hfd, hb, heof, hroom]

/-- Two reads from the work socket, both asked for, with nothing taken from
`to_direct` in between. -/
def slowReaderCalls (bytes : Bytes) : List LoopCall :=
  [.register, readyRead .work bytes, .register, readyRead .work bytes]

/-- Two reads that were asked for, the second larger than the room the first leaves. -/
theorem second_read_overruns {b : Build} {m : Monocypher} {r : CtRelay} (hopen : r.closed = false)
    (henc : r.encrypted = false) (hfd : r.work ≠ r.direct) (heof : r.workEof = false)
    (hempty : r.toDirect.len = 0) {p q : Bytes} (hp : p ≠ [] ∧ p.length ≤ b.chunk + 32)
    (hq : q ≠ [] ∧ q.length ≤ b.chunk + 32) (hfirst : p.length ≤ r.toDirect.cap)
    (hsecond : r.toDirect.cap < p.length + q.length)
    (hasked : ∀ r' : CtRelay, r'.closed = false → r'.work ≠ r'.direct → r'.workEof = false →
      r'.workInput = r.workInput → r'.toDirect.cap = r.toDirect.cap → r'.toDirect.len ≤ p.length →
      (ctRelayEvents b r' r'.work).read = true) :
    Along (loopCall b m) (fun s call => call.Requested s) (.start r)
        [.register, readyRead .work p, .register, readyRead .work q] ∧
      ¬ AppendsComplete (runs (loopCall b m) (.start r)
        [.register, readyRead .work p, .register, readyRead .work q]).2 ∧
      (runs (loopCall b m) (.start r)
        [.register, readyRead .work p, .register, readyRead .work q]).1.relay.closed = true := by
  have hdata : (RecvResult.data p).into (b.chunk + 32) = .data p := RecvResult.into_data hp.1 hp.2
  have hdata' : (RecvResult.data q).into (b.chunk + 32) = .data q := RecvResult.into_data hq.1 hq.2
  obtain ⟨n, hstep⟩ : ∃ n, (ctRelayProcess b m r.work
      (Report.mask (.epoll true false false false false)) ⟨.wouldBlock, .data p⟩ r).state = CtRelay.accounted
        { r with toDirect := (ctRingWrite r.toDirect p).1 } n :=
    ctRelayProcess_queues hopen henc hfd rfl rfl hdata hp.1 (by rw [CtRing.room, hempty]; omega)
  generalize hr' : CtRelay.accounted { r with toDirect := (ctRingWrite r.toDirect p).1 } n = r'
    at hstep
  have hlevel : r'.toDirect.cap = r.toDirect.cap ∧ r'.toDirect.len = p.length := by
    rw [← hr']
    show (ctRingWrite r.toDirect p).1.cap = _ ∧ (ctRingWrite r.toDirect p).1.len = _
    rw [ctRingWrite_cap, ctRingWrite_len, CtRing.room, hempty]
    exact ⟨rfl, by omega⟩
  have hsame : r'.closed = false ∧ r'.encrypted = false ∧ r'.direct = r.direct ∧
      r'.work = r.work ∧ r'.workEof = false ∧ r'.workInput = r.workInput := by
    rw [← hr']
    exact ⟨hopen, henc, rfl, rfl, heof, rfl⟩
  obtain ⟨hopen', henc', hdirect', hwork', heof', hinput'⟩ := hsame
  have hfd' : r'.work ≠ r'.direct := by
    rw [hwork', hdirect']
    exact hfd
  have hroom : r'.toDirect.room < q.length := by
    rw [CtRing.room, hlevel.1, hlevel.2]
    omega
  obtain ⟨hclosed, hcut⟩ : _ ∧ Effect.append .toDirect q r'.toDirect.room ∈
      (ctRelayProcess b m r'.work (Report.mask (.epoll true false false false false))
        ⟨.wouldBlock, .data q⟩ r').effects :=
    ctRelayProcess_overruns hopen' henc' hfd' rfl rfl hdata' hroom
  refine ⟨⟨trivial, fun _ => ?_, trivial, fun _ => ?_, trivial⟩, ?_, ?_⟩
  · exact hasked r hopen hfd heof rfl rfl (by omega)
  · show (ctRelayEvents b (ctRelayProcess b m r.work _ _ r).state
      (ctRelayProcess b m r.work _ _ r).state.work).read = true
    rw [hstep]
    exact hasked r' hopen' hfd' heof' hinput' hlevel.1 (by omega)
  · intro hall
    rw [← hstep] at hcut
    have htaken := hall .toDirect q _ (List.mem_append_right _ (List.mem_append_right _
      (List.mem_append_right _ (List.mem_append_left _ hcut))))
    rw [hstep] at htaken
    omega
  · rw [← hstep] at hclosed
    exact hclosed

def disabledRelay : CtRelay :=
  (ctRelayInit smallBuild noCrypto ⟨true, true, true⟩ 3 4 false .none (.replicate 32 0)
    (webContext .disabled) none).state

theorem disabledRelay_fresh :
    FreshRelay smallBuild noCrypto 3 4 false .none (.replicate 32 0) (webContext .disabled)
      disabledRelay :=
  ctRelayInit_fresh (by decide +kernel)

/-- Every READ was asked for, and still the second one is cut short and closes the
stream. -/
theorem disabled_stream_overruns :
    Along (loopCall smallBuild noCrypto) (fun s call => call.Requested s) (.start disabledRelay)
        (slowReaderCalls (List.replicate 2080 0)) ∧
      ¬ AppendsComplete (runs (loopCall smallBuild noCrypto) (.start disabledRelay)
        (slowReaderCalls (List.replicate 2080 0))).2 ∧
      (runs (loopCall smallBuild noCrypto) (.start disabledRelay)
        (slowReaderCalls (List.replicate 2080 0))).1.relay.closed = true := by
  have hfresh := disabledRelay_fresh
  have hfd : disabledRelay.work ≠ disabledRelay.direct := by
    rw [hfresh.work, hfresh.direct]
    decide
  have hcap : disabledRelay.toDirect.cap = 4096 := hfresh.toDirect
  have hread : List.replicate 2080 (0 : UInt8) ≠ [] ∧
      (List.replicate 2080 (0 : UInt8)).length ≤ smallBuild.chunk + 32 := by
    refine ⟨List.ne_nil_of_length_pos ?_, ?_⟩
    · rw [List.length_replicate]
      omega
    · rw [List.length_replicate]
      decide
  exact @second_read_overruns smallBuild noCrypto disabledRelay hfresh.isOpen
    (by decide +kernel) hfd (by decide +kernel) (by decide +kernel) _ _ hread hread
    (by rw [hcap, List.length_replicate]; omega) (by rw [hcap, List.length_replicate]; omega)
    (fun r' hopen hne heof hinput _ _ => ctRelayEvents_work_read rfl hopen hne heof
      (by rw [hinput, hfresh.workInput.1, hfresh.workInput.2 rfl]; decide))

/-- With a fast reader the same relay takes what it reads, which fits at any size. -/
theorem disabled_stream_reads :
    AppendsComplete (runs (loopCall smallBuild noCrypto) (.start disabledRelay)
        [.register, readyRead .work (ascii "hello")]).2 ∧
      RelayLoop.ReadsFit smallBuild
        (loopCall smallBuild noCrypto .register (.start disabledRelay)).state .work := by
  have hread : (ctRelayEvents smallBuild disabledRelay disabledRelay.work).read = true :=
    ctRelayEvents_work_read rfl disabledRelay_fresh.isOpen (by decide +kernel) (by decide +kernel)
      (by decide +kernel)
  have htight : ¬ disabledRelay.DirectTight smallBuild := by decide +kernel
  have hread' := @requested_reads_complete smallBuild noCrypto rfl disabledRelay
    [.register, readyRead .work (ascii "hello")]
    ⟨⟨trivial, fun h => absurd h.1 (by decide)⟩, ⟨fun _ => hread, fun h => htight h.2⟩, trivial⟩ _ _ rfl
  have hasked := @requested_reads_complete smallBuild noCrypto rfl disabledRelay [.register]
    ⟨⟨trivial, fun h => absurd h.1 (by decide)⟩, trivial⟩ _ _ rfl
  exact ⟨hread'.1, (hasked.2.2 .work disabledRelay_fresh.isOpen hread).mpr fun _ => htight⟩

/-! ## Reads the backends report -/

theorem loopRuns_closed {b : Build} {m : Monocypher} {s : RelayLoop}
    (h : s.relay.closed = true) (calls : List LoopCall) :
    (runs (loopCall b m) s calls).1.relay.closed = true ∧
      (runs (loopCall b m) s calls).2 = [] := by
  induction calls generalizing s with
  | nil => exact ⟨h, rfl⟩
  | cons call calls ih =>
      have hstep : (loopCall b m call s).state.relay.closed = true ∧
          (loopCall b m call s).effects = [] := by
        cases call with
        | register => exact ⟨h, rfl⟩
        | close => exact ⟨rfl, by simp [loopCall, ctRelayClose, h]⟩
        | event side report io => simp [loopCall, ctRelayProcess, h]
      obtain ⟨hclosed, htrace⟩ := ih hstep.1
      refine ⟨hclosed, ?_⟩
      rw [runs, hstep.2, htrace]
      rfl

/-- The loop calls the relay like any other owner. -/
theorem loopCall_relayInv {b : Build} {m : Monocypher} {K : RelayKeys} {header : Bytes}
    {s : RelayLoop} {tr : List Effect} (call : LoopCall)
    (h : RelayInv b m K header s.relay tr) :
    RelayInv b m K header (loopCall b m call s).state.relay
      (tr ++ (loopCall b m call s).effects) := by
  cases call with
  | register => simpa [loopCall] using h
  | close => exact relayCall_inv s.relay tr .close h
  | event side report io => exact relayCall_inv s.relay tr (.process _ report.mask io) h

/-- An encrypted relay under any event backend: if no hang-up or error is reported
where READ is not registered and the ring is tight, no read is cut short, the
relay is closed only for a cause, and while it is open every byte read is sent,
queued or in a record still incomplete; and in the state reached a read of any
size fits exactly if the ring is not tight. -/
theorem reported_reads_complete {b : Build} {m : Monocypher} {alloc : RelayAlloc}
    {direct work : Socket} {client : Bool} {cipher : CtCipher} {master : Octets 32}
    {c : StreamContext} {metadata : Option CtStreamMetadata} {r : CtRelay}
    (hr : r = (ctRelayInit b m alloc direct work client cipher master c metadata).state)
    (hmode : c.mode = .required) {calls : List LoopCall}
    (hcalls : Along (loopCall b m) (fun s call => call.Possible s ∧ ¬ call.HangsUpTight b s)
      (.start r) calls) {s : RelayLoop} {tr : List Effect}
    (hrun : runs (loopCall b m) (.start r) calls = (s, tr)) :
    AppendsComplete tr ∧
      Along (loopCall b m) (fun s call => call.ClosesForCause b m s) (.start r) calls ∧
      (s.relay.closed = false →
        RelayFlow m r.keys r.toDirect.queue s.relay (ledger tr) ∧
          ∀ side, s.ReadsFit b side ↔ ¬ s.relay.InputTight b (s.relay.socket side)) := by
  cases hok : (ctRelayInit b m alloc direct work client cipher master c metadata).ok with
  | false =>
      -- `ct_relay_init` failed: the relay is closed, and every call leaves it so
      have hclosed : (RelayLoop.start r).relay.closed = true := hr ▸ ctRelayInit_closed hok
      obtain ⟨hstill, htrace⟩ := loopRuns_closed (m := m) (b := b) hclosed calls
      rw [hrun] at hstill htrace
      subst htrace
      refine ⟨by simp [AppendsComplete], ?_, fun hopen => absurd (hstill.symm.trans hopen) (by decide)⟩
      refine Along.of_inv (I := fun s => s.relay.closed = true) (fun s call _ h => ⟨?_, ?_⟩) hcalls
        hclosed
      · cases call with
        | event side report io => exact fun hopen => absurd hopen (by simp [h])
        | _ => trivial
      · exact (loopRuns_closed h [call]).1
  | true =>
      have hfresh : FreshRelay b m direct work client cipher master c r := hr ▸ ctRelayInit_fresh hok
      have hb := hfresh.available hmode
      have henc := hfresh.required hmode
      have hfits : ∀ (s : RelayLoop) (call : LoopCall), call.Possible s ∧ ¬ call.HangsUpTight b s →
          s.Guarded b true → call.Fits b s := by
        rintro s (- | ⟨side, report, io⟩ | -) ⟨hpossible, htight⟩ hguard
        · trivial
        · intro hopen hread
          have hreg := hguard.resolve_left (by simp [hopen])
          cases hwanted : (s.interest (s.relay.socket side)).read with
          | true =>
              -- READ was asked for, and an encrypted relay asks with room
              exact (hreg.readsFit_iff hwanted).mpr fun _ h => absurd (hreg.encrypted.symm.trans h.1)
                (by decide)
          | false =>
              -- the backend made it out of a hang-up, so the ring is not tight
              refine (RelayLoop.readsFit_encrypted hreg.encrypted).mpr fun hfull => htight ?_
              exact ⟨report.unrequested_read hpossible hread hwanted, hwanted, hfull⟩
        · trivial
      obtain ⟨hcomplete, hguard, hcause⟩ := loopRuns_fit hb hfits hcalls (henc ▸ .start r)
      have hflow := runs_along (I := fun s tr => RelayInv b m r.keys r.toDirect.queue s.relay tr)
        (fun s tr call _ h => loopCall_relayInv call h) hcalls (hfresh.relayInv hmode)
      rw [hrun] at hcomplete hguard hflow
      rw [List.nil_append] at hflow
      refine ⟨hcomplete, hcause, fun hopen => ⟨?_, fun side => ?_⟩⟩
      · rcases hflow with ⟨-, hflow⟩ | ⟨hclosed, -⟩
        · exact hflow
        · exact absurd hclosed (by simp [hopen])
      · exact RelayLoop.readsFit_encrypted (hguard.resolve_left (by simp [hopen])).encrypted

/-- READ made out of a hang-up of the peer. -/
def hangupRead (side : Side) (bytes : Bytes) : LoopCall :=
  .event side (.epoll false false true false false) ⟨.wouldBlock, .data bytes⟩

/-- A peer writes two chunks and half-closes while the tunnel is stalled. -/
def halfCloseCalls (bytes : Bytes) : List LoopCall :=
  [.register, readyRead .direct bytes, .register, hangupRead .direct bytes]

theorem ctRelayEvents_direct_read {b : Build} {r : CtRelay} (hopen : r.closed = false)
    (heof : r.directEof = false) (hroom : r.toWork.len < r.toWork.cap - b.chunk - 32) :
    (ctRelayEvents b r r.direct).read = true := by
  simp [ctRelayEvents, hopen, heof, hroom]

/-- The relay after it sealed `p`, read from the direct socket. -/
structure SealedRead (r : CtRelay) (p : Bytes) (r' : CtRelay) : Prop where
  isOpen : r'.closed = false
  encrypted : r'.encrypted = true
  direct : r'.direct = r.direct
  idle : r'.workInput.len = 0
  cipher : r'.cipher = r.cipher
  sendSeq : r'.sendSeq = r.sendSeq + 1
  cap : r'.toWork.cap = r.toWork.cap
  len : r'.toWork.len = r.toWork.len + (p.length + 28)

/-- A read from the direct socket becomes a record if it has room with its header and
tag. -/
theorem ctRelayProcess_sealedRead {b : Build} {m : Monocypher} {r : CtRelay} {ev : EvMask}
    {io : RelayIo} (hb : b.dataEncryption = true) (hopen : r.closed = false)
    (henc : r.encrypted = true) (hread : ev.read = true) (hwrite : ev.write = false)
    (hidle : r.workInput.len = 0) (hcipher : r.cipher = .chacha) (hmax : r.sendSeq ≠ uint64Max)
    {p : Bytes} (hrecv : io.recv.into b.chunk = .data p) (hsize : p.length ≤ sizeMax - ctAeadTag)
    (hroom : p.length + 28 ≤ r.toWork.room) :
    SealedRead r p (ctRelayProcess b m r.direct ev io r).state := by
  obtain ⟨box, hbox⟩ : ∃ box, ctAeadEncrypt m r.cipher r.sendKey r.sendNonce (r.sendSeq + 1)
      (r.sealedCall p []).ad p = some box := hcipher ▸ ctAeadEncrypt_some m _ _ _ _ hsize
  have hboxLen : box.length = p.length + 16 := ctAeadEncrypt_length hbox
  have hadLen : (r.sealedCall p box).ad.length = 12 := by simp [CtRelay.sealedCall]
  obtain ⟨⟨n, hstate⟩, -⟩ : (∃ n, (ctRelayProcess b m r.direct ev io r).state =
      CtRelay.accounted _ n) ∧ _ :=
    ctRelayProcess_seals hb hopen henc rfl hread hwrite hidle hrecv hmax hbox
      (by rw [hboxLen]; omega)
  rw [hstate]
  refine ⟨hopen, henc, rfl, hidle, rfl, rfl, ctRingWrite_cap _ _, ?_⟩
  show (ctRingWrite r.toWork _).1.len = _
  rw [ctRingWrite_len, List.length_append, hadLen, hboxLen]
  omega

/-- The first read of a fresh relay with the smallest buffers. -/
theorem FreshRelay.sealedRead {m : Monocypher} {client : Bool} {master : Octets 32}
    {c : StreamContext} {r : CtRelay} (h : FreshRelay smallBuild m 3 4 client .chacha master c r)
    (hmode : c.mode = .required) {p : Bytes} (hsome : p ≠ []) (hp : p.length ≤ smallBuild.chunk) :
    SealedRead r p (ctRelayProcess smallBuild m r.direct
      (Report.mask (.epoll true false false false false)) ⟨.wouldBlock, .data p⟩ r).state := by
  have henc := h.required hmode
  have hchunk : smallBuild.chunk = 2048 := rfl
  have hsize : p.length ≤ sizeMax - ctAeadTag := Nat.le_trans hp (by decide)
  have hroom : p.length + 28 ≤ r.toWork.room := by
    rw [CtRing.room, h.toWork.1, h.toWork.2]
    show p.length + 28 ≤ 4096 - 0
    omega
  exact ctRelayProcess_sealedRead rfl h.isOpen henc rfl rfl h.workInput.1 (h.keys henc).1
    (by rw [h.sendSeq]; decide) (RecvResult.into_data hsome hp) hsize hroom

theorem halfClose_cuts {m : Monocypher} {client : Bool} {master : Octets 32} {c : StreamContext}
    {r : CtRelay} (h : FreshRelay smallBuild m 3 4 client .chacha master c r)
    (hmode : c.mode = .required) (heof : r.directEof = false) {p : Bytes} (hp : p.length = 2048) :
    Along (loopCall smallBuild m) (fun s call => call.Possible s) (.start r) (halfCloseCalls p) ∧
      ¬ AppendsComplete (runs (loopCall smallBuild m) (.start r) (halfCloseCalls p)).2 ∧
      (runs (loopCall smallBuild m) (.start r) (halfCloseCalls p)).1.relay.closed = true := by
  have henc := h.required hmode
  have hcap : r.toWork.cap = 4096 := h.toWork.2
  have hsome : p ≠ [] := List.ne_nil_of_length_pos (by omega)
  have hdata : (RecvResult.data p).into smallBuild.chunk = .data p :=
    RecvResult.into_data hsome (Nat.le_of_eq hp)
  have hsize : p.length ≤ sizeMax - ctAeadTag := by
    rw [hp]
    decide
  -- the first record takes more than half of the ring
  have hsealed := h.sealedRead hmode hsome (Nat.le_of_eq hp)
  generalize hfirst : (ctRelayProcess smallBuild m r.direct
    (Report.mask (.epoll true false false false false)) ⟨.wouldBlock, .data p⟩ r).state = r' at hsealed
  have hroom : r'.toWork.room = 2020 := by
    rw [CtRing.room, hsealed.cap, hsealed.len, hcap, h.toWork.1, hp]
  obtain ⟨box, hbox⟩ : ∃ box, ctAeadEncrypt m r'.cipher r'.sendKey r'.sendNonce
      (r'.sendSeq + 1) (r'.sealedCall p []).ad p = some box :=
    hsealed.cipher.trans (h.keys henc).1 ▸ ctAeadEncrypt_some m _ _ _ _ hsize
  have hboxLen : box.length = 2064 := by
    rw [ctAeadEncrypt_length hbox, hp]
    rfl
  -- the second one, read because of the hang-up, no longer fits
  obtain ⟨hclosed, hcut⟩ : _ ∧ Effect.append .toWork ((r'.sealedCall p box).ad ++ box) _ ∈
      (ctRelayProcess smallBuild m r'.direct (Report.mask (.epoll false false true false false))
        ⟨.wouldBlock, .data p⟩ r').effects :=
    ctRelayProcess_cuts rfl hsealed.isOpen hsealed.encrypted rfl rfl rfl hsealed.idle hdata
      (by rw [hsealed.sendSeq, h.sendSeq]; decide) hbox (by rw [hroom, hboxLen]; decide)
  refine ⟨⟨trivial, ?_, trivial, rfl, trivial⟩, ?_, ?_⟩
  · have hread : (ctRelayEvents smallBuild r r.direct).read = true :=
      ctRelayEvents_direct_read h.isOpen heof (by rw [h.toWork.1, hcap]; decide)
    show ((!true || (ctRelayEvents smallBuild r r.direct).read) && _) = true
    rw [hread]
    rfl
  · intro hall
    have hadLen : (r'.sealedCall p box).ad.length = 12 := by simp [CtRelay.sealedCall]
    rw [← hfirst] at hcut
    have htaken := hall .toWork _ _ (List.mem_append_right _ (List.mem_append_right _
      (List.mem_append_right _ (List.mem_append_left _ hcut))))
    rw [hfirst, hroom, List.length_append, hadLen, hboxLen] at htaken
    exact absurd htaken (by decide)
  · rw [← hfirst] at hclosed
    exact hclosed

def encryptedRelay : CtRelay :=
  (ctRelayInit smallBuild noCrypto ⟨true, true, true⟩ 3 4 true .chacha (.replicate 32 0)
    (webContext .required) none).state

theorem encryptedRelay_fresh :
    FreshRelay smallBuild noCrypto 3 4 true .chacha (.replicate 32 0) (webContext .required)
      encryptedRelay :=
  ctRelayInit_fresh (by decide +kernel)

/-- The peer wrote two chunks and half-closed; the second is cut short and the
stream closed. -/
theorem hangup_overruns :
    Along (loopCall smallBuild noCrypto) (fun s call => call.Possible s) (.start encryptedRelay)
        (halfCloseCalls (List.replicate 2048 0)) ∧
      ¬ AppendsComplete (runs (loopCall smallBuild noCrypto) (.start encryptedRelay)
        (halfCloseCalls (List.replicate 2048 0))).2 ∧
      (runs (loopCall smallBuild noCrypto) (.start encryptedRelay)
        (halfCloseCalls (List.replicate 2048 0))).1.relay.closed = true :=
  halfClose_cuts encryptedRelay_fresh rfl (by decide +kernel) List.length_replicate

/-- A write that leaves 2078 bytes of `to_work`, two more than a read needs. -/
def backedUpCalls : List LoopCall :=
  [.register, readyRead .direct (List.replicate 1990 0), .register]

/-- The peer writes its last bytes and half-closes. -/
def lateHangupCalls : List LoopCall := backedUpCalls ++ [hangupRead .direct (ascii "bye")]

/-- READ is not asked for when the hang-up comes, the ring is not tight, and the
relay stays open. -/
theorem lateHangup_fits {m : Monocypher} {client : Bool} {master : Octets 32} {c : StreamContext}
    {r : CtRelay} (h : FreshRelay smallBuild m 3 4 client .chacha master c r)
    (hmode : c.mode = .required) (heof : r.directEof = false) :
    Along (loopCall smallBuild m) (fun s call => call.Possible s ∧ ¬ call.HangsUpTight smallBuild s)
        (.start r) lateHangupCalls ∧
      ((runs (loopCall smallBuild m) (.start r) backedUpCalls).1.interest r.direct).read = false ∧
      (runs (loopCall smallBuild m) (.start r) lateHangupCalls).1.relay.closed = false := by
  have henc := h.required hmode
  have hcap : r.toWork.cap = 4096 := h.toWork.2
  have hlen : (List.replicate 1990 (0 : UInt8)).length = 1990 := List.length_replicate
  have hsealed := h.sealedRead hmode (p := List.replicate 1990 0)
    (List.ne_nil_of_length_pos (by omega)) (by rw [hlen]; decide)
  have hread : (ctRelayEvents smallBuild r r.direct).read = true :=
    ctRelayEvents_direct_read h.isOpen heof (by rw [h.toWork.1, hcap]; decide)
  simp only [lateHangupCalls, backedUpCalls, List.cons_append, List.nil_append, Along, runs, loopCall,
    readyRead, hangupRead, RelayLoop.start, CtRelay.socket, Outcome.done_state]
  generalize (ctRelayProcess smallBuild m r.direct (Report.mask (.epoll true false false false false))
    ⟨.wouldBlock, .data (List.replicate 1990 0)⟩ r).state = r' at hsealed ⊢
  have hcap' : r'.toWork.cap = 4096 := hsealed.cap.trans hcap
  have hlen' : r'.toWork.len = 2018 := by rw [hsealed.len, h.toWork.1, hlen]
  refine ⟨⟨⟨trivial, id⟩, ⟨?_, ?_⟩, ⟨trivial, id⟩, ⟨rfl, ?_⟩, trivial⟩, ?_, ?_⟩
  · show ((!true || (ctRelayEvents smallBuild r r.direct).read) && _) = true
    rw [hread]
    rfl
  · exact fun htight => absurd htight.1 (by decide)
  · -- 2018 bytes wait, and the largest record has 2076
    intro htight
    have hfull : r'.toWork.cap < r'.toWork.len + (smallBuild.chunk + (12 + ctAeadTag)) := by
      simpa [CtRelay.InputTight, CtRelay.socket] using htight.2.2
    rw [hcap', hlen'] at hfull
    exact absurd hfull (by decide)
  · rw [← hsealed.direct, ctRelayEvents, if_neg (by rw [hsealed.isOpen]; decide), if_pos rfl, hcap', hlen']
    exact Bool.and_false _
  · have hdata' : (RecvResult.data (ascii "bye")).into smallBuild.chunk = .data (ascii "bye") := by
      decide
    exact (ctRelayProcess_sealedRead rfl hsealed.isOpen hsealed.encrypted rfl rfl hsealed.idle
      (hsealed.cipher.trans (h.keys henc).1) (by rw [hsealed.sendSeq, h.sendSeq]; decide) hdata'
      (by decide) (by rw [CtRing.room, hcap', hlen']; decide)).isOpen

/-- What the peer wrote before the half-close is read with the relay still open,
although READ was not asked for. -/
theorem hangup_reads :
    ((runs (loopCall smallBuild noCrypto) (.start encryptedRelay) backedUpCalls).1.interest 3).read =
        false ∧
      AppendsComplete (runs (loopCall smallBuild noCrypto) (.start encryptedRelay) lateHangupCalls).2 ∧
      (runs (loopCall smallBuild noCrypto) (.start encryptedRelay)
        lateHangupCalls).1.relay.closed = false ∧
      RelayFlow noCrypto encryptedRelay.keys encryptedRelay.toDirect.queue
        (runs (loopCall smallBuild noCrypto) (.start encryptedRelay) lateHangupCalls).1.relay
        (ledger (runs (loopCall smallBuild noCrypto) (.start encryptedRelay) lateHangupCalls).2) := by
  have hinit : encryptedRelay = (ctRelayInit smallBuild noCrypto ⟨true, true, true⟩ 3 4 true
    .chacha (.replicate 32 0) (webContext .required) none).state := rfl
  obtain ⟨hcalls, hunasked, hopen⟩ :=
    lateHangup_fits (m := noCrypto) encryptedRelay_fresh rfl (by decide +kernel)
  obtain ⟨hcomplete, -, hflow⟩ := reported_reads_complete hinit rfl hcalls Prod.mk.eta.symm
  rw [encryptedRelay_fresh.direct] at hunasked
  exact ⟨hunasked, hcomplete, hopen, (hflow hopen).1⟩

end Ctunnel
