import Ctunnel.Net.Fields
import Ctunnel.Theorems.PendingMatch
import Ctunnel.Theorems.SlotReuse

/-!
# The window of the work connections

Along a session, whatever frames `ct_work_accept_bind` is handed, it accepts a
frame exactly if it is the bind frame of its work id and the sequence number of
the id is above all accepted ones, or among the 64 last ones and not accepted
yet (`work_accept_exact`).
-/

namespace Ctunnel

open Lib

section Frames

variable {b : Build} {m : Monocypher} {c : CtControl} {inbox : Bytes}

/-- The bind frame of a work id in a session: header, id and MAC. -/
def bindFrame (m : Monocypher) (c : CtControl) (id : Octets 32) : Bytes :=
  (frameHeaderBytes ⟨CtMsgType.workConnectionBind.toByte, 0, 64, c.keys.sessionId, 0, 0⟩).toList ++
    (id.toList ++ (workmac m c id).toList)

/-- A bind frame is received as such. -/
theorem ctPlainRecv_bindFrame {id : Octets 32} (h : bindFrame m c id <+: inbox) :
    ctPlainRecv b inbox 64 =
      some (⟨CtMsgType.workConnectionBind.toByte, 0, 64, c.keys.sessionId, 0, 0⟩,
        id.toList ++ (workmac m c id).toList) := by
  obtain ⟨rest, rfl⟩ := h
  have hlen : (id.toList ++ (workmac m c id).toList).length = 64 := by simp
  have hframe := b.maxFrameSize_range
  have hhead : plainHeader CtMsgType.workConnectionBind.toByte c.keys.sessionId 0
      (id.toList ++ (workmac m c id).toList) =
        ⟨CtMsgType.workConnectionBind.toByte, 0, 64, c.keys.sessionId, 0, 0⟩ := by
    rw [plainHeader, hlen]
    rfl
  have henc : ctFrameHeaderEncode b (plainHeader CtMsgType.workConnectionBind.toByte
      c.keys.sessionId 0 (id.toList ++ (workmac m c id).toList)) =
        some (frameHeaderBytes ⟨CtMsgType.workConnectionBind.toByte, 0, 64, c.keys.sessionId, 0, 0⟩) := by
    have hsize : ¬ b.maxFrameSize < (64 : UInt32).toNat := by
      show ¬ b.maxFrameSize < 64
      omega
    rw [hhead, ctFrameHeaderEncode, if_neg]
    simp only [Bool.or_eq_true, decide_eq_true_eq, hsize, or_false]
    decide
  have hrecv := @ctPlainRecv_sent b _ _ _ 64 _ c.keys.sessionId rest (by omega) henc
  rw [if_pos (by omega), hhead] at hrecv
  exact hrecv

/-- A socket holds at most one bind frame. -/
theorem bindFrame_inj {id id' : Octets 32} (h : bindFrame m c id <+: inbox)
    (h' : bindFrame m c id' <+: inbox) : id = id' := by
  have hsame : bindFrame m c id = bindFrame m c id' := by
    refine List.IsPrefix.eq_of_length (List.prefix_of_prefix_length_le h h' ?_) ?_ <;>
      simp [bindFrame]
  exact (append_field_inj (append_field_inj hsame).2).1

/-- What `ct_work_accept_bind` accepts is the bind frame of the id it returns; a frame it rejects
is none, or its number is rejected. -/
theorem ctWorkAcceptBind_frame (f : Socket) (inbox : Bytes) (c : CtControl) (tr : List Effect) :
    (ctWorkAcceptBind b m f inbox c).Ends tr
      (fun w c' _ => w.fd = f ∧ bindFrame m c w.id <+: inbox ∧
        acceptWorkSequence c (workSequence w.id) = some c')
      (fun c' _ => c' = c ∧ ∀ id, bindFrame m c id <+: inbox →
        acceptWorkSequence c (workSequence id) = none) := by
  refine .get (.need ?_ ?_)
  · rintro ⟨h, p⟩ hrecv
    have hbound : ∀ id, bindFrame m c id <+: inbox →
        h = ⟨CtMsgType.workConnectionBind.toByte, 0, 64, c.keys.sessionId, 0, 0⟩ ∧
          p = id.toList ++ (workmac m c id).toList := by
      intro id hid
      rw [ctPlainRecv_bindFrame hid] at hrecv
      injection hrecv with hrecv
      injection hrecv with hh hp
      exact ⟨hh.symm, hp.symm⟩
    have hslices : ∀ id, bindFrame m c id <+: inbox →
        sliceOctets p 0 32 = id ∧ sliceOctets p 32 32 = workmac m c id := by
      intro id hid
      obtain ⟨-, rfl⟩ := hbound id hid
      have hlen : id.toList.length = 32 := id.2
      have h0 : (id.toList ++ (workmac m c id).toList).drop 0 =
          id.toList ++ (workmac m c id).toList := List.drop_zero
      have h32 := drop_of_drop h0
      rw [Nat.zero_add, hlen] at h32
      exact ⟨sliceOctets_of_drop h0 (Nat.zero_le _),
        sliceOctets_of_drop (h32.trans (List.append_nil _).symm) (by simp)⟩
    refine .check ?_ ?_
    · rintro ⟨htype, hsession, hstream, hsequence, hlen⟩
      refine .tell (.check ?_ ?_)
      · intro hmac
        refine .need ?_ ?_
        · intro c' hc'
          refine .modify (.tell (.ret ⟨rfl, ?_, hc'⟩))
          obtain ⟨hflags, hpayload, hfront⟩ := ctPlainRecv_front hrecv
          have hsize : h.payloadLen = 64 := UInt32.toNat_inj.mp (hpayload.trans hlen)
          have hhead : h =
              ⟨CtMsgType.workConnectionBind.toByte, 0, 64, c.keys.sessionId, 0, 0⟩ := by
            cases h
            simp_all
          have hp : p = (sliceOctets p 0 32).toList ++ (sliceOctets p 32 32).toList := by
            have h0 := @drop_sliceOctets p 0 32 (by omega)
            have h32 := @drop_sliceOctets p 32 32 (by omega)
            have hend : p.drop (32 + 32) = [] := List.drop_eq_nil_of_le (by omega)
            rw [hend, List.append_nil] at h32
            rwa [List.drop_zero, Nat.zero_add, h32] at h0
          show bindFrame m c (sliceOctets p 0 32) <+: inbox
          rw [bindFrame, hmac, ← hp, ← hhead]
          exact hfront
        · intro hreject
          refine ⟨rfl, fun id hid => ?_⟩
          rw [(hslices id hid).1] at hreject
          exact hreject
      · intro hmac
        refine ⟨rfl, fun id hid => absurd ?_ hmac⟩
        rw [(hslices id hid).1, (hslices id hid).2]
    · intro hwrong
      refine ⟨rfl, fun id hid => absurd ?_ hwrong⟩
      obtain ⟨rfl, rfl⟩ := hbound id hid
      exact ⟨rfl, rfl, rfl, rfl, by simp⟩
  · intro hnone
    refine ⟨rfl, fun id hid => ?_⟩
    rw [ctPlainRecv_bindFrame hid] at hnone
    exact absurd hnone (by simp)

end Frames

/-! ## Sessions -/

/-- The work sequence numbers a session has accepted, newest first: it starts with the channel
that `ct_handshake_server_finish` returns, traffic leaves the window alone, and every frame is
handed to `ct_work_accept_bind`. -/
inductive WorkSession (b : Build) (m : Monocypher) : List UInt64 → CtControl → Prop
  | established {fd : Socket} {io : ServerFinishIo} {s : CtServerHandshake × CtControl}
      (h : (ctHandshakeServerFinish b m fd io s).value.isSome = true) :
      WorkSession b m [] (ctHandshakeServerFinish b m fd io s).state.2
  | traffic {A : List UInt64} {c c' : CtControl} (h : WorkSession b m A c)
      (hsame : SameChannel c c') : WorkSession b m A c'
  | accepted {A : List UInt64} {c : CtControl} (h : WorkSession b m A c) (f : Socket)
      (inbox : Bytes) {w : CtWork} (hw : (ctWorkAcceptBind b m f inbox c).value = some w) :
      WorkSession b m (workSequence w.id :: A) (ctWorkAcceptBind b m f inbox c).state
  | rejected {A : List UInt64} {c : CtControl} (h : WorkSession b m A c) (f : Socket)
      (inbox : Bytes) (hw : (ctWorkAcceptBind b m f inbox c).value = none) :
      WorkSession b m A (ctWorkAcceptBind b m f inbox c).state

/-- The window knows the accepted numbers. -/
structure WindowHolds (A : List UInt64) (c : CtControl) : Prop where
  tracks : c.workWindow.Tracks A
  high : c.workRxHigh.toNat = ReplayWindow.highest A
  nodup : A.Nodup

variable {b : Build} {m : Monocypher} {A : List UInt64} {c c' : CtControl}

theorem acceptWorkSequence_some {s : UInt64} (h : acceptWorkSequence c s = some c') :
    c.workWindow.accept s = some c'.workWindow := by
  obtain ⟨w, hw, rfl⟩ := Option.map_eq_some_iff.mp h
  exact hw

theorem WindowHolds.same (h : WindowHolds A c) (hhigh : c'.workRxHigh = c.workRxHigh)
    (hbitmap : c'.workRxBitmap = c.workRxBitmap) : WindowHolds A c' where
  tracks := by
    rw [CtControl.workWindow, hhigh, hbitmap]
    exact h.tracks
  high := by
    rw [hhigh]
    exact h.high
  nodup := h.nodup

theorem WorkSession.holds (h : WorkSession b m A c) : WindowHolds A c := by
  induction h with
  | @established fd io s hok =>
      obtain ⟨a, ha⟩ := Option.isSome_iff_exists.mp hok
      have hchannel := @ctHandshakeServerFinish_channel b m [] fd io s
      obtain ⟨-, keys, -, hc⟩ := hchannel.of_some ha
      rw [hc]
      exact ⟨ReplayWindow.tracks_empty, rfl, List.nodup_nil⟩
  | traffic h hsame ih => exact ih.same hsame.workRxHigh hsame.workRxBitmap
  | @accepted A c h f inbox w hw ih =>
      obtain ⟨-, -, hnext⟩ := (ctWorkAcceptBind_frame f inbox c []).of_some hw
      have haccept := acceptWorkSequence_some hnext
      obtain ⟨hnew, htracks⟩ := ih.tracks.accept haccept
      exact ⟨htracks, ReplayWindow.accept_highest ih.high haccept, List.nodup_cons.mpr ⟨hnew, ih.nodup⟩⟩
  | @rejected A c h f inbox hw ih =>
      obtain ⟨hkeep, -⟩ := (ctWorkAcceptBind_frame f inbox c []).of_none hw
      rw [hkeep]
      exact ih

/-! ## The theorem -/

/-- After any session in which the numbers `A` were accepted, with the maximum `highest A`: a
frame is accepted exactly if it is the bind frame of an id whose number is not 0 and is above
the maximum or among the 64 last ones and not in `A`; a rejected frame leaves the window as it
is; and no number is in `A` twice. -/
theorem work_accept_exact (h : WorkSession b m A c) (f : Socket) (inbox : Bytes) :
    (∀ id, (ctWorkAcceptBind b m f inbox c).value.map CtWork.id = some id ↔
      bindFrame m c id <+: inbox ∧ workSequence id ≠ 0 ∧
        (ReplayWindow.highest A < (workSequence id).toNat ∨
          (ReplayWindow.highest A - (workSequence id).toNat < 64 ∧ workSequence id ∉ A))) ∧
    ((ctWorkAcceptBind b m f inbox c).value = none →
      (ctWorkAcceptBind b m f inbox c).state.workRxHigh = c.workRxHigh ∧
        (ctWorkAcceptBind b m f inbox c).state.workRxBitmap = c.workRxBitmap) ∧
    A.Nodup := by
  have hends := ctWorkAcceptBind_frame (b := b) (m := m) f inbox c []
  have hholds := h.holds
  have hnumber : ∀ s, (acceptWorkSequence c s).isSome = true ↔ s ≠ 0 ∧
      (ReplayWindow.highest A < s.toNat ∨ (ReplayWindow.highest A - s.toNat < 64 ∧ s ∉ A)) := by
    intro s
    rw [acceptWorkSequence, Option.isSome_map, hholds.tracks.accept_iff, ← hholds.high]
    rfl
  refine ⟨fun id => ?_, fun hnone => ?_, hholds.nodup⟩
  · rw [← hnumber]
    constructor
    · intro hsome
      obtain ⟨w, hw, rfl⟩ := Option.map_eq_some_iff.mp hsome
      obtain ⟨-, hframe, hnext⟩ := hends.of_some hw
      exact ⟨hframe, Option.isSome_iff_exists.mpr ⟨_, hnext⟩⟩
    · rintro ⟨hframe, hnext⟩
      cases hvalue : (ctWorkAcceptBind b m f inbox c).value with
      | none =>
          rw [(hends.of_none hvalue).2 id hframe] at hnext
          exact absurd hnext (by simp)
      | some w =>
          obtain ⟨-, hframe', -⟩ := hends.of_some hvalue
          exact congrArg some (bindFrame_inj hframe' hframe)
  · rw [(hends.of_none hnone).1]
    exact ⟨rfl, rfl⟩

/-- The server's session with `edge`. -/
def miniSession : CtControl :=
  (ctHandshakeServerFinish miniBuild miniLog.monocypher 5 hubFinishIo
    ((ctHandshakeServerBegin miniBuild miniLog.monocypher 5 miniConfig hubBeginIo .zero).state,
      .zero)).state.2

/-- The bind frame of its `n`th work connection. -/
def miniBind (n : UInt64) : Bytes := bindFrame miniLog.monocypher miniSession (miniWorkId n)

def bindState (c : CtControl) (n : UInt64) : CtControl :=
  (ctWorkAcceptBind miniBuild miniLog.monocypher 11 (miniBind n) c).state

/-- The numbers 2 and 1 are accepted, and 1 is not accepted again. -/
theorem replayed_bind_rejected :
    (ctWorkAcceptBind miniBuild miniLog.monocypher 11 (miniBind 1)
      (bindState (bindState miniSession 2) 1)).value.map CtWork.id ≠ some (miniWorkId 1) := by
  have hstart : WorkSession miniBuild miniLog.monocypher [] miniSession :=
    .established (by decide +kernel)
  have hsecond : (ctWorkAcceptBind miniBuild miniLog.monocypher 11 (miniBind 2)
      miniSession).value = some ⟨11, miniWorkId 2⟩ := by decide +kernel
  have hfirst : (ctWorkAcceptBind miniBuild miniLog.monocypher 11 (miniBind 1)
      (bindState miniSession 2)).value = some ⟨11, miniWorkId 1⟩ := by decide +kernel
  have hrun := (hstart.accepted 11 (miniBind 2) hsecond).accepted 11 (miniBind 1) hfirst
  intro hagain
  obtain ⟨-, -, hnumber⟩ := ((work_accept_exact hrun 11 (miniBind 1)).1 (miniWorkId 1)).mp hagain
  revert hnumber
  decide +kernel

end Ctunnel
