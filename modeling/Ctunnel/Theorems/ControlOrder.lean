import Ctunnel.Crypto.Recorded
import Ctunnel.Lib.Interleave
import Ctunnel.Net.Control

/-!
# The control channel accepts a prefix of what was sent

The two ends of a session call `ct_control_send` and `ct_control_recv` in any
order, while a network adversary decides every byte either socket delivers. A
payload too long for a frame is refused before it takes a sequence number, so it
leaves no gap; every other message takes the next number whether or not its
frame gets out, and the receiver accepts exact successors only. Hence the
messages one end accepts are a prefix of those of admissible length that the
other end passed to `ct_control_send`.
-/

namespace Ctunnel

open Lib

/-! ## Both ends -/

inductive ControlCall
  | send (type : UInt8) (stream : UInt64) (payload : Bytes) (io : SendIo)
  | recv (cap : Nat) (io : RecvIo)
  deriving DecidableEq

def controlCall (b : Build) (m : Monocypher) : ControlCall → CtControl → Outcome Effect CtControl
  | .send type stream p io, c => (ctControlSend b m type stream p io c).outcome
  | .recv cap io, c => (ctControlRecv b m cap io c).outcome

/-- The trace of both ends after `calls`. -/
def controlTrace (m : Monocypher) (build : End → Build) (start : End → CtControl)
    (calls : List (End × ControlCall)) : List (End × Effect) :=
  (runs (interleave fun e => controlCall (build e) m) start calls).2

/-- Type, stream id and payload. -/
abbrev ControlMessage : Type := UInt8 × UInt64 × Bytes

/-- The messages passed to `ct_control_send`. -/
def passed (tr : List Effect) : List ControlMessage :=
  tr.filterMap fun
    | .controlSend type stream p => some (type, stream, p)
    | _ => none

/-- The messages `ct_control_recv` returned. -/
def accepted (tr : List Effect) : List ControlMessage :=
  tr.filterMap fun
    | .controlRecv type stream p => some (type, stream, p)
    | _ => none

/-- The payload fits into a frame with its tag. -/
def fitsFrame (b : Build) (x : ControlMessage) : Bool :=
  decide (x.2.2.length ≤ b.maxFrameSize - ctAeadTag)

/-- Both ends as `ct_derive_session` leaves them. -/
structure Established (start : End → CtControl) : Prop where
  keys : (start .client).keys = (start .server).keys
  role : ∀ e, (start e).isClient = e.isClient
  txSeq : ∀ e, (start e).txSeq = 0
  rxSeq : ∀ e, (start e).rxSeq = 0
  directions : (start .client).keys.controlC2s ≠ (start .client).keys.controlS2c

/-! ## One end -/

/-- A box that one end made holds the message at its sequence number. -/
structure SealedFrame (b : Build) (m : Monocypher) (c : CtControl) (sent : List ControlMessage)
    (call : AeadCall) (plain : Bytes) : Prop where
  key : call.key = c.txKey
  base : call.base = c.txNonce
  box : ∃ cipher, ctAeadEncrypt m cipher call.key call.base call.sequence call.ad plain =
    some call.box
  message : ∃ type stream head, call.sequence.toNat ≠ 0 ∧
    sent[call.sequence.toNat - 1]? = some (type, stream, plain) ∧
    ctFrameHeaderEncode b (controlHeader type c.keys.sessionId stream call.sequence plain) =
      some head ∧ call.ad = head.toList

/-- A box that one end opened holds the message it accepted as number `n`. -/
structure OpenedFrame (b : Build) (m : Monocypher) (c : CtControl) (n : Nat) (x : ControlMessage)
    (call : AeadCall) : Prop where
  key : call.key = c.rxKey
  base : call.base = c.rxNonce
  sequence : call.sequence.toNat = n
  opens : ∃ cipher, ctAeadDecrypt m cipher call.key call.base call.sequence call.ad call.box =
    some x.2.2
  header : ∃ h head, ctFrameHeaderDecode b head = some h ∧ call.ad = head.toList ∧
    h.type = x.1 ∧ h.streamId = x.2.1

/-- What the sending half of an end keeps: every message that fits took the next
number, and a box holds the message of its number. `c₀` is the end at the
start. -/
structure SenderInv (b : Build) (m : Monocypher) (c₀ c : CtControl) (tr : List Effect) : Prop where
  keys : c.txKey = c₀.txKey ∧ c.txNonce = c₀.txNonce ∧ c.keys.sessionId = c₀.keys.sessionId
  sent_le : c.txSeq.toNat ≤ ((passed tr).filter (fitsFrame b)).length
  sent_eq : c.txSeq ≠ uint64Max → c.txSeq.toNat = ((passed tr).filter (fitsFrame b)).length
  sealed : ∀ call plain, Effect.aeadEncrypt call plain ∈ tr →
    SealedFrame b m c₀ ((passed tr).filter (fitsFrame b)) call plain

/-- What the receiving half keeps: the counter counts the accepted messages,
each of which came out of a box of its number. -/
structure ReceiverInv (b : Build) (m : Monocypher) (c₀ c : CtControl) (tr : List Effect) :
    Prop where
  keys : c.rxKey = c₀.rxKey ∧ c.rxNonce = c₀.rxNonce
  received : c.rxSeq.toNat = (accepted tr).length
  opened : ∀ i x, (accepted tr)[i]? = some x →
    ∃ call, Effect.aeadDecrypt call (some x.2.2) ∈ tr ∧ OpenedFrame b m c₀ (i + 1) x call

theorem passed_append (tr tr' : List Effect) : passed (tr ++ tr') = passed tr ++ passed tr' :=
  List.filterMap_append ..

theorem accepted_append (tr tr' : List Effect) :
    accepted (tr ++ tr') = accepted tr ++ accepted tr' :=
  List.filterMap_append ..

theorem SealedFrame.mono {b : Build} {m : Monocypher} {c : CtControl}
    {sent : List ControlMessage} {call : AeadCall} {plain : Bytes}
    (h : SealedFrame b m c sent call plain) (more : List ControlMessage) :
    SealedFrame b m c (sent ++ more) call plain := by
  obtain ⟨type, stream, head, hpos, hmem, hhead, had⟩ := h.message
  refine ⟨h.key, h.base, h.box, type, stream, head, hpos, ?_, hhead, had⟩
  obtain ⟨hlt, -⟩ := List.getElem?_eq_some_iff.mp hmem
  rw [List.getElem?_append_left hlt]
  exact hmem

section Steps

variable {b : Build} {m : Monocypher} {c₀ c c' : CtControl} {tr tr' es : List Effect}

theorem SenderInv.start (htx : c.txSeq = 0) : SenderInv b m c c [] where
  keys := ⟨rfl, rfl, rfl⟩
  sent_le := by simp [htx]
  sent_eq := by simp [htx, passed]
  sealed := by simp

theorem ReceiverInv.start (hrx : c.rxSeq = 0) : ReceiverInv b m c c [] where
  keys := ⟨rfl, rfl⟩
  received := by simp [hrx, accepted]
  opened := by simp [accepted]

/-- Effects that neither pass a message nor seal a box. -/
theorem SenderInv.quiet (h : SenderInv b m c₀ c tr) (hkeys : c'.keys = c.keys)
    (hrole : c'.isClient = c.isClient) (htx : c'.txSeq = c.txSeq) (hpassed : passed es = [])
    (hseal : ∀ call plain, Effect.aeadEncrypt call plain ∉ es) :
    SenderInv b m c₀ c' (tr ++ es) := by
  have hp : passed (tr ++ es) = passed tr := by
    rw [passed_append, hpassed, List.append_nil]
  refine ⟨?_, ?_, ?_, ?_⟩
  · simpa only [CtControl.txKey, CtControl.txNonce, hkeys, hrole] using h.keys
  · rw [hp, htx]
    exact h.sent_le
  · rw [hp, htx]
    exact h.sent_eq
  · intro call plain hmem
    rw [hp]
    exact h.sealed call plain ((List.mem_append.mp hmem).resolve_right (hseal call plain))

/-- Effects that accept nothing. -/
theorem ReceiverInv.quiet (h : ReceiverInv b m c₀ c tr) (hkeys : c'.keys = c.keys)
    (hrole : c'.isClient = c.isClient) (hrx : c'.rxSeq = c.rxSeq) (haccepted : accepted es = []) :
    ReceiverInv b m c₀ c' (tr ++ es) := by
  have ha : accepted (tr ++ es) = accepted tr := by
    rw [accepted_append, haccepted, List.append_nil]
  refine ⟨?_, ?_, ?_⟩
  · simpa only [CtControl.rxKey, CtControl.rxNonce, hkeys, hrole] using h.keys
  · rw [ha, hrx]
    exact h.received
  · intro i x hx
    rw [ha] at hx
    obtain ⟨call, hmem, hcall⟩ := h.opened i x hx
    exact ⟨call, List.mem_append_left _ hmem, hcall⟩

/-- A message that takes a sequence number becomes the last one that fits. -/
theorem SenderInv.pass (h : SenderInv b m c₀ c tr) {type : UInt8} {stream : UInt64} {p : Bytes}
    (hseq : c.txSeq ≠ uint64Max) (hlen : p.length ≤ b.maxFrameSize - ctAeadTag) (last : UInt64) :
    SenderInv b m c₀ { c with txSeq := c.txSeq + 1, lastTxMs := last }
      (tr ++ [.controlSend type stream p]) := by
  have hfit : (passed (tr ++ [.controlSend type stream p])).filter (fitsFrame b) =
      (passed tr).filter (fitsFrame b) ++ [(type, stream, p)] := by
    rw [passed_append, List.filter_append]
    simp [passed, fitsFrame, hlen]
  have hcount : (c.txSeq + 1).toNat = ((passed tr).filter (fitsFrame b)).length + 1 := by
    rw [toNat_succ_of_ne_max hseq, h.sent_eq hseq]
  refine ⟨h.keys, ?_, ?_, ?_⟩
  · rw [hfit, List.length_append]
    exact hcount.le
  · intro _
    rw [hfit, List.length_append]
    exact hcount
  · intro call plain hmem
    rw [hfit]
    refine SealedFrame.mono (h.sealed call plain ?_) _
    simpa using hmem

/-- A box made for the message of its number. -/
theorem SenderInv.seal (h : SenderInv b m c₀ c tr) {call : AeadCall} {plain : Bytes}
    (hcall : SealedFrame b m c₀ ((passed tr).filter (fitsFrame b)) call plain) :
    SenderInv b m c₀ c (tr ++ [.aeadEncrypt call plain]) := by
  have hp : passed (tr ++ [.aeadEncrypt call plain]) = passed tr := by simp [passed]
  refine ⟨h.keys, hp ▸ h.sent_le, hp ▸ h.sent_eq, ?_⟩
  intro call' plain' hmem
  rw [hp]
  rcases List.mem_append.mp hmem with hold | hnew
  · exact h.sealed call' plain' hold
  · rw [List.mem_singleton] at hnew
    injection hnew with hc hpl
    subst hc hpl
    exact hcall

theorem SenderInv.sent {type : UInt8} {stream : UInt64} {p : Bytes}
    (h : SenderInv b m c₀ c tr) (hs : ControlSent b m type stream p c tr c' tr') :
    SenderInv b m c₀ c' tr' := by
  cases hs with
  | refused hor =>
      by_cases hlen : p.length ≤ b.maxFrameSize - ctAeadTag
      · -- the counter is exhausted: the message fits but takes no number
        have hmax : c.txSeq = uint64Max := hor.resolve_right (by omega)
        refine ⟨h.keys, ?_, fun hne => absurd hmax hne, ?_⟩
        · rw [passed_append, List.filter_append, List.length_append]
          exact le_trans h.sent_le (Nat.le_add_right _ _)
        · intro call plain hmem
          rw [passed_append, List.filter_append]
          exact SealedFrame.mono (h.sealed call plain (by simpa using hmem)) _
      · have hfit : (passed (tr ++ [.controlSend type stream p])).filter (fitsFrame b) =
            (passed tr).filter (fitsFrame b) := by
          rw [passed_append, List.filter_append]
          simp [passed, fitsFrame, hlen]
        refine ⟨h.keys, hfit ▸ h.sent_le, hfit ▸ h.sent_eq, ?_⟩
        intro call plain hmem
        rw [hfit]
        exact h.sealed call plain (by simpa using hmem)
  | dropped hseq hlen => exact h.pass hseq hlen c.lastTxMs
  | sealed hseq hlen head box hhead hbox last sent =>
      have hpass : SenderInv b m c₀ { c with txSeq := c.txSeq + 1, lastTxMs := last }
          (tr ++ [.controlSend type stream p]) := h.pass hseq hlen last
      refine (hpass.seal ?_).quiet rfl rfl rfl (by simp [passed]) (by simp)
      obtain ⟨hkey, hnonce, hsession⟩ := h.keys
      refine ⟨hkey, hnonce, ⟨_, hbox⟩, type, stream, head, ?_, ?_, hsession ▸ hhead, rfl⟩
      · show (c.txSeq + 1).toNat ≠ 0
        rw [toNat_succ_of_ne_max hseq]
        omega
      · show _[(c.txSeq + 1).toNat - 1]? = _
        rw [toNat_succ_of_ne_max hseq, Nat.add_sub_cancel, h.sent_eq hseq, passed_append,
          List.filter_append, List.getElem?_append_right (le_refl _), Nat.sub_self]
        simp [passed, fitsFrame, hlen]

theorem ReceiverInv.sent {type : UInt8} {stream : UInt64} {p : Bytes}
    (h : ReceiverInv b m c₀ c tr) (hs : ControlSent b m type stream p c tr c' tr') :
    ReceiverInv b m c₀ c' tr' := by
  cases hs with
  | refused hor => exact h.quiet rfl rfl rfl rfl
  | dropped hseq hlen => exact h.quiet rfl rfl rfl rfl
  | sealed hseq hlen head box hhead hbox last sent =>
      rw [List.append_assoc, List.append_assoc]
      exact h.quiet rfl rfl rfl (by simp [accepted])

theorem SenderInv.recv {v : Option (CtFrameHeader × Bytes)}
    (h : SenderInv b m c₀ c tr) (hr : ControlReceived b m c tr v c' tr') :
    SenderInv b m c₀ c' tr' := by
  cases hr with
  | refused => exact h
  | rejected call => exact h.quiet rfl rfl rfl rfl (by simp)
  | accepted hd head box p hhead hflags hsession hmax hseq hopen last =>
      rw [List.append_assoc]
      exact h.quiet rfl rfl rfl rfl (by simp)

theorem ReceiverInv.recv {v : Option (CtFrameHeader × Bytes)}
    (h : ReceiverInv b m c₀ c tr) (hr : ControlReceived b m c tr v c' tr') :
    ReceiverInv b m c₀ c' tr' := by
  cases hr with
  | refused => exact h
  | rejected call => exact h.quiet rfl rfl rfl rfl
  | accepted hd head box p hhead hflags hsession hmax hseq hopen last =>
      obtain ⟨hkey, hnonce⟩ := h.keys
      have ha : ∀ call, accepted (tr ++ [.aeadDecrypt call (some p)] ++
          [.controlRecv hd.type hd.streamId p]) = accepted tr ++ [(hd.type, hd.streamId, p)] := by
        intro call
        simp [accepted]
      have hcount : hd.sequence.toNat = (accepted tr).length + 1 := by
        rw [hseq, toNat_succ_of_ne_max hmax, h.received]
      refine ⟨⟨hkey, hnonce⟩, ?_, ?_⟩
      · rw [ha, List.length_append]
        exact hcount
      · intro i x hx
        rw [ha] at hx
        rcases Nat.lt_or_ge i (accepted tr).length with hi | hi
        · rw [List.getElem?_append_left hi] at hx
          obtain ⟨call, hmem, hcall⟩ := h.opened i x hx
          exact ⟨call, List.mem_append_left _ (List.mem_append_left _ hmem), hcall⟩
        · -- the message just accepted
          rw [List.getElem?_append_right hi, List.getElem?_singleton] at hx
          split at hx
          · rename_i hzero
            injection hx with hx
            subst hx
            have hidx : i = (accepted tr).length := by omega
            subst hidx
            exact ⟨_, List.mem_append_left _ (List.mem_append_right _
              (List.mem_singleton.mpr rfl)), hkey, hnonce, hcount, ⟨_, hopen⟩, hd, head, hhead, rfl,
              rfl, rfl⟩
          · exact absurd hx (by simp)

end Steps

/-- Both halves of an end. -/
def ChannelInv (b : Build) (m : Monocypher) (c₀ c : CtControl) (tr : List Effect) : Prop :=
  SenderInv b m c₀ c tr ∧ ReceiverInv b m c₀ c tr

/-- One call keeps the invariant. -/
theorem controlCall_inv {b : Build} {m : Monocypher} {c₀ c : CtControl} {tr : List Effect}
    (x : ControlCall) (h : ChannelInv b m c₀ c tr) :
    ChannelInv b m c₀ (controlCall b m x c).state (tr ++ (controlCall b m x c).effects) := by
  cases x with
  | send type stream p io =>
      have hend := ctControlSend_ends b m type stream p io c tr
      show ChannelInv b m c₀ (ctControlSend b m type stream p io c).state
        (tr ++ (ctControlSend b m type stream p io c).effects)
      cases hv : (ctControlSend b m type stream p io c).value with
      | some v => exact ⟨h.1.sent (hend.of_some hv), h.2.sent (hend.of_some hv)⟩
      | none => exact ⟨h.1.sent (hend.of_none hv), h.2.sent (hend.of_none hv)⟩
  | recv cap io =>
      have hend := ctControlRecv_ends b m cap io c tr
      show ChannelInv b m c₀ (ctControlRecv b m cap io c).state
        (tr ++ (ctControlRecv b m cap io c).effects)
      cases hv : (ctControlRecv b m cap io c).value with
      | some v => exact ⟨h.1.recv (hend.of_some hv), h.2.recv (hend.of_some hv)⟩
      | none => exact ⟨h.1.recv (hend.of_none hv), h.2.recv (hend.of_none hv)⟩

/-! ## Both directions -/

section Both

variable {m : Monocypher} {build : End → Build} {start : End → CtControl}
variable {calls : List (End × ControlCall)}

variable (m build calls) in
theorem controlTrace_inv (hest : Established start) (e : End) :
    ∃ c, ChannelInv (build e) m (start e) c
      (ofMachine e (controlTrace m build start calls)) := by
  have hrun := runs_keeps (I := ChannelInv (build e) m (start e))
    (fun _ _ x h => controlCall_inv (m := m) x h) (ofMachine e calls)
    ⟨SenderInv.start (hest.txSeq e), ReceiverInv.start (hest.rxSeq e)⟩
  have htrace := (runs_interleave (fun e => controlCall (build e) m) e start calls).2
  rw [List.nil_append, ← htrace] at hrun
  exact ⟨_, hrun⟩

/-- What one end receives under is what the other sends under, and nothing the
first sends under. -/
theorem Established.keys_of_end (hest : Established start) (e : End) :
    (start e).rxKey = (start e.peer).txKey ∧ (start e).rxNonce = (start e.peer).txNonce ∧
      (start e).txKey ≠ (start e).rxKey := by
  have hk := hest.keys
  have hd := hest.directions
  cases e <;>
    simp only [CtControl.rxKey, CtControl.txKey, CtControl.rxNonce, CtControl.txNonce, hest.role,
      End.peer, End.isClient, if_true, Bool.false_eq_true, if_false]
  · rw [← hk]
    exact ⟨rfl, rfl, hd⟩
  · rw [← hk]
    exact ⟨rfl, rfl, hd.symm⟩

/-- An opened box holds the message of the same number at the other end. -/
theorem opened_is_passed (hest : Established start) (hinv : AeadInverse m)
    (hauth : Authentic (controlTrace m build start calls)) {e : End} {n : Nat}
    {x : ControlMessage} {call : AeadCall}
    (hmem : Effect.aeadDecrypt call (some x.2.2) ∈ ofMachine e (controlTrace m build start calls))
    (hcall : OpenedFrame (build e) m (start e) (n + 1) x call) :
    ((passed (ofMachine e.peer (controlTrace m build start calls))).filter
      (fitsFrame (build e.peer)))[n]? = some x := by
  obtain ⟨hrx, hrxNonce, hdiff⟩ := hest.keys_of_end e
  obtain ⟨e', call', plain', hseal, hkey, hseq, had, hbox⟩ :=
    hauth e call x.2.2 (mem_ofMachine.mp hmem)
  obtain ⟨c', hinv', -⟩ := controlTrace_inv m build calls hest e'
  have hframe := hinv'.sealed call' plain' (mem_ofMachine.mpr hseal)
  -- the end that sealed the box is not the one that opened it
  have hpeer : e' = e.peer := by
    have hne : e' ≠ e := by
      rintro rfl
      exact hdiff (hframe.key.symm.trans (hkey.trans hcall.key))
    cases e <;> cases e' <;> first | rfl | exact absurd rfl hne
  subst hpeer
  obtain ⟨type, stream, head', -, hget, hhead', had'⟩ := hframe.message
  obtain ⟨h, head, hhead, hcallad, htype, hstream⟩ := hcall.header
  -- the header is part of what the box authenticates
  have hheads : head' = head := List.Vector.eq _ _ (had'.symm.trans (had.trans hcallad))
  subst hheads
  have hh : h = controlHeader type _ stream call'.sequence plain' :=
    ctFrameHeaderDecode_build hhead (ctFrameHeaderDecode_encode hhead')
  obtain ⟨cipher', hlock⟩ := hframe.box
  obtain ⟨cipher, hopen⟩ := hcall.opens
  have hplain : x.2.2 = plain' := by
    rw [← hkey, ← hseq, ← had, ← hbox, hcall.base, hrxNonce, ← hframe.base] at hopen
    exact ctAeadDecrypt_encrypt hinv hlock hopen
  have hx : x = (type, stream, plain') := by
    rw [← hplain]
    rw [hh] at htype hstream
    exact Prod.ext htype.symm (Prod.ext hstream.symm rfl)
  rw [hseq, hcall.sequence, Nat.add_sub_cancel] at hget
  rw [hx]
  exact hget

/-- In every run of both ends, whatever the network does, each end accepts a
prefix of the messages that the other end passed with a payload that fits a
frame. A receive that fails leaves the sequence number alone, and after the last
sequence number nothing is accepted. -/
theorem control_accepts_in_order (hest : Established start) (hinv : AeadInverse m)
    (hauth : Authentic (controlTrace m build start calls)) :
    (∀ e, accepted (ofMachine e (controlTrace m build start calls)) <+:
      (passed (ofMachine e.peer (controlTrace m build start calls))).filter
        (fitsFrame (build e.peer))) ∧
    (∀ e cap io c, (ctControlRecv (build e) m cap io c).value = none →
      (ctControlRecv (build e) m cap io c).state.rxSeq = c.rxSeq) ∧
    (∀ e cap io c, c.rxSeq = uint64Max → (ctControlRecv (build e) m cap io c).value = none) := by
  refine ⟨?_, ?_, ?_⟩
  · intro e
    obtain ⟨c, -, hrecv⟩ := controlTrace_inv m build calls hest e
    rw [List.prefix_iff_getElem?]
    intro i hi
    obtain ⟨call, hmem, hcall⟩ := hrecv.opened i _ (List.getElem?_eq_getElem hi)
    exact opened_is_passed hest hinv hauth hmem hcall
  · intro e cap io c hfail
    have hend := (ctControlRecv_ends (build e) m cap io c []).of_none hfail
    generalize (ctControlRecv (build e) m cap io c).state = c' at hend
    generalize [] ++ (ctControlRecv (build e) m cap io c).effects = tr' at hend
    cases hend with
    | refused => rfl
    | rejected call => rfl
  · intro e cap io c hmax
    cases hv : (ctControlRecv (build e) m cap io c).value with
    | none => rfl
    | some v =>
        have hend := (ctControlRecv_ends (build e) m cap io c []).of_some hv
        generalize (ctControlRecv (build e) m cap io c).state = c' at hend
        generalize [] ++ (ctControlRecv (build e) m cap io c).effects = tr' at hend
        cases hend with
        | accepted h head box p hhead hflags hsession hne => exact absurd hmax hne

end Both

/-! ## A message that never takes a number -/

/-- `CONFIG_MAX_FRAME_SIZE=4096`. -/
def smallFrameBuild : Build :=
  { defaultBuild with maxFrameSize := 4096, maxFrameSize_range := by decide }

def goawayKey : Octets 32 :=
  octets 32 0x000102030405060708090a0b0c0d0e0f101112131415161718191a1b1c1d1e1f

def goawayNonce : Octets 16 := octets 16 0x000102030405060708090a0b0c0d0e0f

def goawayHead : Octets 36 := frameHeaderBytes (controlHeader 33 7 0 1 [])

def goawayTag : Octets 16 := octets 16 0x56d1beaac7162fad86bc43a29f7c4fc3

/-- What XChaCha20-Poly1305 returns for the server's first GOAWAY. -/
def goawayLog : CryptoLog where
  hashes := []
  boxes := [⟨goawayKey, makeNonce goawayNonce 1, goawayHead.toList, [], [], goawayTag⟩]
  signatures := []
  exchanges := []

def goawayStart (e : End) : CtControl :=
  { CtControl.zero with
    fd := 3
    cipher := .chacha
    isClient := e.isClient
    keys := { CtSessionKeys.zero with
      controlS2c := goawayKey, nonceS2c := goawayNonce, sessionId := 7 } }

/-- The server passes GOAWAY, and the client receives a frame. -/
def goawayExchange : List (End × ControlCall) :=
  [(.server, .send 33 0 [] ⟨true, 36, 5000, 0⟩),
    (.client, .recv 4096 ⟨goawayHead.toList ++ goawayTag.toList, true, 0⟩)]

/-- Before that, the server passes another message. -/
def goawayCalls (p : Bytes) : List (End × ControlCall) :=
  (.server, .send 26 5 p ⟨true, 36, 5000, 0⟩) :: goawayExchange

def goawayCall : AeadCall := ⟨goawayKey, goawayNonce, 1, goawayHead.toList, goawayTag.toList⟩

theorem ctControlSend_too_long {b : Build} {m : Monocypher} {type : UInt8} {stream : UInt64}
    {p : Bytes} (hlen : b.maxFrameSize - ctAeadTag < p.length) (io : SendIo) (c : CtControl) :
    ctControlSend b m type stream p io c = ⟨c, none, [.controlSend type stream p]⟩ := by
  have hno : ¬(c.txSeq ≠ uint64Max ∧ p.length ≤ b.maxFrameSize - ctAeadTag) := by omega
  simp only [ctControlSend, bind, Call.bind, Call.tell, Call.get, Call.check, if_neg hno]
  rfl

theorem goaway_established : Established goawayStart where
  keys := rfl
  role := fun _ => rfl
  txSeq := fun _ => rfl
  rxSeq := fun _ => rfl
  directions := by decide +kernel

/-- The first message leaves nothing but its call. -/
theorem goaway_trace {p : Bytes} (hlen : 4080 < p.length) :
    controlTrace goawayLog.monocypher (fun _ => smallFrameBuild) goawayStart (goawayCalls p) =
      [(.server, .controlSend 26 5 p), (.server, .controlSend 33 0 []),
        (.server, .aeadEncrypt goawayCall []), (.server, .wire 3 goawayHead.toList),
        (.server, .wire 3 goawayTag.toList), (.client, .aeadDecrypt goawayCall (some [])),
        (.client, .controlRecv 33 0 [])] := by
  have hrest : controlTrace goawayLog.monocypher (fun _ => smallFrameBuild) goawayStart
      goawayExchange =
      [(.server, .controlSend 33 0 []),
        (.server, .aeadEncrypt goawayCall []), (.server, .wire 3 goawayHead.toList),
        (.server, .wire 3 goawayTag.toList), (.client, .aeadDecrypt goawayCall (some [])),
        (.client, .controlRecv 33 0 [])] := by
    decide +kernel
  have hfirst : interleave (fun _ : End => controlCall smallFrameBuild goawayLog.monocypher)
      (.server, .send 26 5 p ⟨true, 36, 5000, 0⟩) goawayStart =
      ⟨goawayStart, false, [(.server, .controlSend 26 5 p)]⟩ := by
    have hlong : smallFrameBuild.maxFrameSize - ctAeadTag < p.length := hlen
    simp only [interleave, controlCall, ctControlSend_too_long hlong]
    rw [Reply.outcome, Function.update_eq_self]
    rfl
  show (interleave _ _ _).effects ++ (runs _ (interleave _ _ _).state goawayExchange).2 = _
  rw [hfirst]
  exact congrArg _ hrest

theorem goaway_authentic {p : Bytes} (hlen : 4080 < p.length) :
    Authentic (controlTrace goawayLog.monocypher (fun _ => smallFrameBuild) goawayStart
      (goawayCalls p)) := by
  rw [goaway_trace hlen]
  intro e call plain hmem
  simp only [List.mem_cons, Prod.mk.injEq, Effect.aeadDecrypt.injEq, reduceCtorEq, and_false,
    false_or, List.not_mem_nil, or_false] at hmem
  obtain ⟨-, rfl, -⟩ := hmem
  exact ⟨.server, goawayCall, [], by simp, rfl, rfl, rfl, rfl⟩

/-- One byte more than a frame of `smallFrameBuild` takes. -/
def oversizedPayload : Bytes := List.replicate 4081 0

theorem oversizedPayload_length : 4080 < oversizedPayload.length := by
  rw [oversizedPayload, List.length_replicate]
  omega

/-- The oversized message is passed first and never accepted; GOAWAY, passed
after it, is accepted. -/
theorem oversized_message_skipped :
    Established goawayStart ∧ AeadInverse goawayLog.monocypher ∧
      Authentic (controlTrace goawayLog.monocypher (fun _ => smallFrameBuild) goawayStart
        (goawayCalls oversizedPayload)) ∧
      ¬ accepted (ofMachine .client (controlTrace goawayLog.monocypher (fun _ => smallFrameBuild)
          goawayStart (goawayCalls oversizedPayload))) <+:
        passed (ofMachine .server (controlTrace goawayLog.monocypher (fun _ => smallFrameBuild)
          goawayStart (goawayCalls oversizedPayload))) := by
  refine ⟨goaway_established, CryptoLog.aeadInverse (by decide +kernel),
    goaway_authentic oversizedPayload_length, ?_⟩
  rw [goaway_trace oversizedPayload_length]
  simp [ofMachine, accepted, passed, List.cons_prefix_cons]

/-- In the same run the client accepts a prefix of the messages that fit. -/
theorem goaway_accepted :
    accepted (ofMachine .client (controlTrace goawayLog.monocypher (fun _ => smallFrameBuild)
        goawayStart (goawayCalls oversizedPayload))) <+:
      (passed (ofMachine .server (controlTrace goawayLog.monocypher (fun _ => smallFrameBuild)
        goawayStart (goawayCalls oversizedPayload)))).filter (fitsFrame smallFrameBuild) :=
  (control_accepts_in_order goaway_established (CryptoLog.aeadInverse (by decide +kernel))
    (goaway_authentic oversizedPayload_length)).1 .client

end Ctunnel
