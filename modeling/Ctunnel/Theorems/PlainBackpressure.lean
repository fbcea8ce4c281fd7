import Ctunnel.Theorems.Backpressure

/-!
# Backpressure without data encryption

In a build without data encryption `ct_relay_events` asks for READ on the work
socket while `to_direct` has more than `CHUNK` bytes of room, but the read takes
up to `CHUNK + 32`. Reads that were asked for fit unless the room is between the
two (`plain_reads_complete`); with room for one byte less than a full read the
stream is closed (`mini_read_overruns`).
-/

namespace Ctunnel

open Lib

variable {b : Build} {m : Monocypher}

/-- READ can be asked for, and a full read does not fit. -/
def CtRelay.NearlyFull (b : Build) (r : CtRelay) : Prop :=
  r.toDirect.len + b.chunk < r.toDirect.cap ∧ r.toDirect.cap < r.toDirect.len + (b.chunk + 32)

instance (r : CtRelay) : Decidable (r.NearlyFull b) := by
  unfold CtRelay.NearlyFull
  infer_instance

/-- READ is processed on the work socket while `to_direct` is nearly full. -/
def LoopCall.ReadsNearlyFull (b : Build) (s : RelayLoop) (call : LoopCall) : Prop :=
  call.readsWork s = true ∧ s.relay.NearlyFull b

/-- What registered READ says about the rings of an unencrypted relay. -/
structure PlainRegistered (b : Build) (s : RelayLoop) : Prop where
  plain : s.relay.encrypted = false
  direct : (s.interest s.relay.direct).read = true →
    s.relay.toWork.len + (b.chunk + 32) ≤ s.relay.toWork.cap
  work : s.relay.work ≠ s.relay.direct → (s.interest s.relay.work).read = true →
    s.relay.toDirect.len + b.chunk < s.relay.toDirect.cap

def PlainInv (b : Build) (s : RelayLoop) (tr : List Effect) : Prop :=
  (s.relay.closed = true ∨ PlainRegistered b s) ∧ AppendsComplete tr

theorem ctRelayEvents_plain (hb : b.dataEncryption = false) {r : CtRelay} (hfd : r.work ≠ r.direct)
    (h : (ctRelayEvents b r r.work).read = true) : r.toDirect.len + b.chunk < r.toDirect.cap := by
  unfold ctRelayEvents at h
  split at h
  · exact absurd h (by simp)
  · rw [if_pos rfl, hb] at h
    simp only [Bool.and_eq_true, Bool.false_eq_true, if_false, decide_eq_true_eq] at h
    omega

/-- Registered READ fits at any size exactly if `to_direct` is not nearly full. -/
theorem PlainRegistered.readsFit_iff {s : RelayLoop} (h : PlainRegistered b s) {side : Side}
    (hread : (s.interest (s.relay.socket side)).read = true) :
    s.ReadsFit b side ↔ (s.relay.socket side ≠ s.relay.direct → ¬ s.relay.NearlyFull b) := by
  unfold RelayLoop.ReadsFit CtRelay.readSize CtRelay.ReadRoom CtRelay.NearlyFull
  rw [h.plain]
  by_cases hfd : s.relay.socket side = s.relay.direct
  · have hroom := h.direct (hfd ▸ hread)
    simp only [hfd, if_true, Bool.false_eq_true, if_false]
    refine ⟨fun _ hne => absurd rfl hne, fun _ n hn => ?_⟩
    omega
  · have hwork := CtRelay.socket_work hfd
    have hroom := h.work (hwork ▸ hfd) (hwork ▸ hread)
    simp only [hfd, if_false, Bool.false_eq_true]
    constructor
    · intro hfit _
      have hmax := hfit (b.chunk + 32) (Nat.le_refl _)
      omega
    · intro hfull n hn
      have hnot := hfull hfd
      omega

/-- An event leaves only READ registered for which there is room. -/
theorem PlainRegistered.event {s : RelayLoop} {r : CtRelay} (h : PlainRegistered b s) {side : Side}
    {ev : EvMask} {input : Nat}
    (hlevels : Levels s.relay (s.relay.workLevel (s.relay.socket side) ev) input
      (s.relay.directLevel (s.relay.socket side) ev) r) :
    PlainRegistered b
      ⟨r, if ev.read then Function.update s.interest (s.relay.socket side)
          { s.interest (s.relay.socket side) with read := false }
        else s.interest⟩ := by
  refine ⟨hlevels.encrypted.trans h.plain, fun hread => hlevels.directRoom h.direct hread, ?_⟩
  intro hne hread
  obtain ⟨hwas, hnot⟩ := hlevels.workLeft hread
  obtain ⟨hdirect, hwork⟩ := hlevels.sockets
  have hlen := hlevels.toDirect
  have hcap := hlevels.caps.2.2
  have hroom := h.work (hdirect ▸ hwork ▸ hne) hwas
  rw [CtRelay.directLevel, h.plain, if_neg (by simpa using hnot)] at hlen
  show r.toDirect.len + b.chunk < r.toDirect.cap
  omega

/-- One call of the loop, if READ is asked for and `to_direct` is not nearly full. -/
theorem loopCall_plain (hb : b.dataEncryption = false) {s : RelayLoop} {tr : List Effect}
    {call : LoopCall} (hreq : call.Requested s) (hfull : ¬ call.ReadsNearlyFull b s)
    (h : PlainInv b s tr) :
    PlainInv b (loopCall b m call s).state (tr ++ (loopCall b m call s).effects) := by
  obtain ⟨hreg, hcomplete⟩ := h
  cases call with
  | register =>
      refine ⟨?_, by simpa [loopCall] using hcomplete⟩
      rcases hreg with hclosed | hreg
      · exact .inl hclosed
      · exact .inr ⟨hreg.plain, ctRelayEvents_direct, ctRelayEvents_plain hb⟩
  | close => exact ⟨.inl rfl, hcomplete.append (.of_quiet (ctRelayClose_quiet b s.relay))⟩
  | event side report io =>
      cases hopen : s.relay.closed with
      | true =>
          refine ⟨.inl ?_, ?_⟩
          · simp [loopCall, ctRelayProcess, hopen]
          · simpa [loopCall, ctRelayProcess, hopen] using hcomplete
      | false =>
          have hreg := hreg.resolve_left (by simp [hopen])
          have hroom : report.mask.read = true → s.relay.ReadRoom (s.relay.socket side)
              (io.recv.count (s.relay.readSize b (s.relay.socket side))) := by
            intro hread
            refine (hreg.readsFit_iff (hreq hread)).mpr (fun hfd hnear => hfull ⟨?_, hnear⟩) _
              (io.recv.count_le _)
            simp [LoopCall.readsWork, hread, hfd]
          obtain ⟨hall, hafter, -⟩ : AppendsComplete (ctRelayProcess b m
              (s.relay.socket side) report.mask io s.relay).effects ∧ _ ∧ _ :=
            ctRelayProcess_complete (fun henc => absurd henc (by simp [hreg.plain])) hopen hroom
          refine ⟨?_, hcomplete.append hall⟩
          rcases hafter with hclosed | hlevels
          · exact .inl hclosed
          · exact .inr (hreg.event hlevels)

/-- A relay starts unencrypted, with nothing registered. -/
theorem PlainInv.start {r : CtRelay} (h : r.encrypted = false) : PlainInv b (.start r) [] :=
  ⟨.inr ⟨h, by simp [RelayLoop.start], by simp [RelayLoop.start]⟩, by simp [AppendsComplete]⟩

/-- If READ is processed only where it was asked for, and never on the work socket
while `to_direct` is nearly full, no read is cut short; and where READ is asked for
in the state reached, a read of any size fits exactly if `to_direct` is not nearly
full. -/
theorem plain_reads_complete (hb : b.dataEncryption = false) {alloc : RelayAlloc}
    {direct work : Socket} {client : Bool} {cipher : CtCipher} {master : Octets 32}
    {c : StreamContext} {metadata : Option CtStreamMetadata} {r : CtRelay}
    (hr : r = (ctRelayInit b m alloc direct work client cipher master c metadata).state)
    {calls : List LoopCall}
    (hcalls : Along (loopCall b m) (fun s call => call.Requested s ∧ ¬ call.ReadsNearlyFull b s)
      (.start r) calls) {s : RelayLoop} {tr : List Effect}
    (hrun : runs (loopCall b m) (.start r) calls = (s, tr)) :
    AppendsComplete tr ∧ ∀ side, s.relay.closed = false →
      (s.interest (s.relay.socket side)).read = true →
      (s.ReadsFit b side ↔ (s.relay.socket side ≠ s.relay.direct → ¬ s.relay.NearlyFull b)) := by
  have hstart : PlainInv b (.start r) [] := by
    cases hok : (ctRelayInit b m alloc direct work client cipher master c metadata).ok with
    | false =>
        have hclosed : (RelayLoop.start r).relay.closed = true := hr ▸ ctRelayInit_closed hok
        exact ⟨.inl hclosed, by simp [AppendsComplete]⟩
    | true =>
        have hfresh : FreshRelay b m direct work client cipher master c r := hr ▸ ctRelayInit_fresh hok
        refine PlainInv.start ?_
        rw [hfresh.encrypted, hb]
        rfl
  have hinv := runs_along (I := PlainInv b)
    (fun s tr call hstep h => loopCall_plain hb hstep.1 hstep.2 h) hcalls hstart
  rw [List.nil_append, hrun] at hinv
  obtain ⟨hreg, hcomplete⟩ := hinv
  refine ⟨hcomplete, fun side hopen hread => ?_⟩
  exact (hreg.resolve_left (by simp [hopen])).readsFit_iff hread

/-- A relay is read from its work socket whenever `to_direct` has room for a chunk. -/
theorem ctRelayEvents_plain_read (hb : b.dataEncryption = false) {r : CtRelay}
    (hopen : r.closed = false) (hfd : r.work ≠ r.direct) (heof : r.workEof = false)
    (hroom : r.toDirect.len < r.toDirect.cap - b.chunk) :
    (ctRelayEvents b r r.work).read = true := by
  simp [ctRelayEvents, hopen, hfd, hb, heof, hroom]

/-! ## The mini build -/

/-- A first read leaves `to_direct` nearly full, the second is as large as it can be. -/
def nearlyFullCalls : List LoopCall :=
  [.register, readyRead .work (List.replicate 8161 0), .register,
    readyRead .work (List.replicate 8224 0)]

def miniRelay : CtRelay :=
  (ctRelayInit miniBuild noCrypto ⟨true, true, true⟩ 3 4 false .none (.replicate 32 0)
    (webContext .disabled) none).state

theorem miniRelay_fresh :
    FreshRelay miniBuild noCrypto 3 4 false .none (.replicate 32 0) (webContext .disabled)
      miniRelay :=
  ctRelayInit_fresh (by decide +kernel)

/-- Every READ was asked for, and the second one is cut short and closes the stream. -/
theorem mini_read_overruns :
    Along (loopCall miniBuild noCrypto) (fun s call => call.Requested s) (.start miniRelay)
        nearlyFullCalls ∧
      ¬ AppendsComplete (runs (loopCall miniBuild noCrypto) (.start miniRelay) nearlyFullCalls).2 ∧
      (runs (loopCall miniBuild noCrypto) (.start miniRelay) nearlyFullCalls).1.relay.closed = true := by
  have hfresh := miniRelay_fresh
  have hfd : miniRelay.work ≠ miniRelay.direct := by
    rw [hfresh.work, hfresh.direct]
    decide
  have hcap : miniRelay.toDirect.cap = 16384 := hfresh.toDirect
  have hchunk : miniBuild.chunk = 8192 := by decide
  refine @second_read_overruns miniBuild noCrypto miniRelay hfresh.isOpen (by decide +kernel) hfd
    (by decide +kernel) (by decide +kernel) _ _ ⟨List.ne_nil_of_length_pos ?_, ?_⟩
    ⟨List.ne_nil_of_length_pos ?_, ?_⟩ ?_ ?_ ?_
  · rw [List.length_replicate]
    omega
  · rw [List.length_replicate, hchunk]
    omega
  · rw [List.length_replicate]
    omega
  · rw [List.length_replicate, hchunk]
  · rw [List.length_replicate, hcap]
    omega
  · rw [List.length_replicate, List.length_replicate, hcap]
    omega
  · intro r' hopen hne heof _ hcap' hlen
    rw [List.length_replicate] at hlen
    exact ctRelayEvents_plain_read rfl hopen hne heof (by rw [hcap', hcap, hchunk]; omega)

/-- A short read fits. -/
theorem mini_reads :
    AppendsComplete (runs (loopCall miniBuild noCrypto) (.start miniRelay)
      [.register, readyRead .work (ascii "hello")]).2 := by
  have hfresh := miniRelay_fresh
  have hfd : miniRelay.work ≠ miniRelay.direct := by
    rw [hfresh.work, hfresh.direct]
    decide
  have hempty : miniRelay.toDirect.len = 0 := by decide +kernel
  have hcap : miniRelay.toDirect.cap = 16384 := hfresh.toDirect
  have hread : (ctRelayEvents miniBuild miniRelay miniRelay.work).read = true :=
    ctRelayEvents_plain_read rfl hfresh.isOpen hfd (by decide +kernel)
      (by rw [hempty, hcap]; decide)
  refine (@plain_reads_complete miniBuild noCrypto rfl ⟨true, true, true⟩ 3 4 false .none
    (.replicate 32 0) (webContext .disabled) none miniRelay rfl
    [.register, readyRead .work (ascii "hello")] ⟨⟨trivial, fun h => ?_⟩,
      ⟨fun _ => hread, fun h => ?_⟩, trivial⟩ _ _ rfl).1
  · exact absurd h.1 (by decide)
  · have hfull : miniRelay.NearlyFull miniBuild := h.2
    unfold CtRelay.NearlyFull at hfull
    rw [hempty, hcap] at hfull
    exact absurd hfull (by decide)

end Ctunnel
