import Ctunnel.Net.ControlLink
import Ctunnel.Net.Fields
import Ctunnel.Theorems.HandshakeAgreement

/-!
# The peer key of the handshake

`ct_handshake_server_begin` finds the fields of CLIENT_HELLO behind the length it
read, `ct_handshake_server_finish` behind the `strlen` of the id it stored. Both
mean the same 32 bytes exactly if the id field has no NUL (`peer_key_iff`).
-/

namespace Ctunnel

open Lib

variable {b : Build} {m : Monocypher} {fd : Socket} {cfg : CtConfig}

/-- The client_ephemeral field of a CLIENT_HELLO. -/
def clientEphemeral (ch : Bytes) : Octets 32 := sliceOctets ch (2 + (idField ch).length + 32) 32

/-- Where it stands in the transcript. -/
def ephemeralOffset (ch : Bytes) : Nat := 25 + (2 + (idField ch).length + 32)

/-- What `ct_handshake_server_begin` leaves of the CLIENT_HELLO `ch`. -/
structure Greeted (ch : Bytes) (hs : CtServerHandshake) : Prop where
  clientId : hs.clientId = CString.ofBytes (idField ch)
  length : ch.length = 2 + (idField ch).length + 68
  transcript : ascii "ctunnel-handshake-v3" ++ ctPutU32 ctMagic ++ [ctProtocolVersion] ++ ch <+:
    hs.transcript

theorem ctHandshakeServerBegin_greets {io : ServerBeginIo} {hs : CtServerHandshake} :
    (ctHandshakeServerBegin b m fd cfg io hs).Ends []
      (fun _ hs' _ => ∃ h ch, ctPlainRecv b io.hello b.controlBufferSize = some (h, ch) ∧
        Greeted ch hs')
      (fun _ _ => True) := by
  refine .rollback (.modify (.need ?_ (fun _ => trivial)))
  rintro ⟨h, ch⟩ hrecv
  refine .check (fun _ => .need ?_ (fun _ => trivial)) (fun _ => trivial)
  rintro ⟨id, o⟩ hid
  refine .check (fun hrest => ?_) (fun _ => trivial)
  refine .need (fun a _ => .need (fun clientPublic _ => .need (fun idsk _ => ?_) (fun _ => trivial))
    (fun _ => trivial)) (fun _ => trivial)
  refine .check (fun _ => .need (fun xsk _ => .need (fun sr _ => ?_) (fun _ => trivial))
    (fun _ => trivial)) (fun _ => trivial)
  refine .need (fun t ht => .tell (.tell ?_)) (fun _ => trivial)
  refine ctPlainSend_ends (fun _ => .of_bind_pure (.modify (.ret ⟨h, ch, hrecv, ?_⟩))) (fun _ => trivial)
  obtain ⟨rfl, rfl, hle, -⟩ := idField_of_unpack_self hid
  refine ⟨rfl, by omega, ?_⟩
  unfold transcript at ht
  split at ht
  · exact absurd ht (by simp)
  · rw [← Option.some.inj ht]
    exact ((((List.prefix_append _ _).trans (List.prefix_append _ _)).trans
      (List.prefix_append _ _)).trans (List.prefix_append _ _)).trans (List.prefix_append _ _)

/-- The offset of `ct_handshake_server_finish` is that of the field exactly if the
id is as long as its field. -/
theorem Greeted.offset_iff {ch : Bytes} {hs : CtServerHandshake} (h : Greeted ch hs) :
    peerOffset hs.clientId = ephemeralOffset ch ↔ (0 : UInt8) ∉ idField ch := by
  rw [h.clientId, peerOffset, ephemeralOffset, CString.length]
  constructor
  · intro hoff
    rw [← CString.ofBytes_eq_iff]
    refine (List.takeWhile_prefix _).eq_of_length ?_
    show (CString.ofBytes (idField ch)).bytes.length = _
    omega
  · intro hnul
    rw [CString.ofBytes_noNul hnul]
    omega

/-- At the offset of the field stands the field. -/
theorem Greeted.ephemeral {ch : Bytes} {hs : CtServerHandshake} (h : Greeted ch hs) :
    sliceOctets hs.transcript (ephemeralOffset ch) 32 = clientEphemeral ch := by
  have hlen := h.length
  obtain ⟨rest, htr⟩ := h.transcript
  have hlabel : (ascii "ctunnel-handshake-v3" ++ ctPutU32 ctMagic ++ [ctProtocolVersion]).length = 25 := by
    simp only [List.length_append, ctPutU32_length, List.length_singleton]
    rfl
  have hdrop : hs.transcript.drop (ephemeralOffset ch) =
      (clientEphemeral ch).toList ++ (ch.drop (2 + (idField ch).length + 32 + 32) ++ rest) := by
    rw [← htr, List.append_assoc, ephemeralOffset, ← hlabel, ← List.drop_drop, List.drop_left,
      List.drop_append_of_le_length (by omega), drop_sliceOctets _ 32 (by omega), List.append_assoc]
    rfl
  refine sliceOctets_of_drop hdrop ?_
  rw [← htr, List.length_append, List.length_append, hlabel, ephemeralOffset]
  omega

/-- A finished handshake derives its keys from the 32 bytes at the peer's offset. -/
theorem ctHandshakeServerFinish_shares {io : ServerFinishIo} {hs : CtServerHandshake} {c : CtControl} :
    (ctHandshakeServerFinish b m fd io (hs, c)).Ends []
      (fun _ _ tr => ∃ shared, ctXShared m hs.ephemeralPrivate
          (sliceOctets hs.transcript (peerOffset hs.clientId) 32) = some shared ∧
        Effect.deriveSession .server shared hs.transcript ∈ tr)
      (fun _ _ => True) := by
  have hbody : (Call.rollback (fun c => { c with keys := .zero })
      (serverFinishBody b m fd hs io) c).Ends [] (fun _ _ tr => ∃ shared,
        ctXShared m hs.ephemeralPrivate
          (sliceOctets hs.transcript (peerOffset hs.clientId) 32) = some shared ∧
        Effect.deriveSession .server shared hs.transcript ∈ tr) (fun _ _ => True) := by
    refine .rollback (.need (fun a _ => .need ?_ (fun _ => trivial)) (fun _ => trivial))
    rintro ⟨h, reply⟩ _
    refine .check (fun _ => .tell (.check (fun _ => ?_) (fun _ => trivial))) (fun _ => trivial)
    refine .check (fun _ => .need ?_ (fun _ => trivial)) (fun _ => trivial)
    intro shared hshared
    refine .modify (.need (fun keys _ => .tell (.modify ?_)) (fun _ => trivial))
    refine .bind ((ctControlSend_ends b m CtMsgType.authOk.toByte 0 [] io.authOk _ _).mono
      (fun _ c' tr' hr => hr.subset) (fun _ _ _ => trivial)) ?_
    rintro - c' tr' hsub
    refine .modify (.tell (.ret ⟨shared, hshared, ?_⟩))
    exact List.mem_append_left _ (hsub (List.mem_append_right _ (List.mem_singleton.mpr rfl)))
  exact .mk (fun a ha => hbody.of_some ha) (fun _ => trivial)

/-- After every successful `ct_handshake_server_begin`: the peer's key is the
client_ephemeral field of the CLIENT_HELLO exactly if the id field has no NUL, and
it is what a `ct_handshake_server_finish` that succeeds puts into X25519. -/
theorem peer_key_iff {io : ServerBeginIo} {hs : CtServerHandshake}
    (hbegin : (ctHandshakeServerBegin b m fd cfg io hs).value = some ()) :
    ∃ h ch, ctPlainRecv b io.hello b.controlBufferSize = some (h, ch) ∧
      ((peerOffset (ctHandshakeServerBegin b m fd cfg io hs).state.clientId = ephemeralOffset ch ∧
          sliceOctets (ctHandshakeServerBegin b m fd cfg io hs).state.transcript
            (peerOffset (ctHandshakeServerBegin b m fd cfg io hs).state.clientId) 32 =
              clientEphemeral ch) ↔ (0 : UInt8) ∉ idField ch) ∧
      ∀ fd' io' c a,
        (ctHandshakeServerFinish b m fd' io' ((ctHandshakeServerBegin b m fd cfg io hs).state, c)).value =
          some a →
        ∃ shared, ctXShared m (ctHandshakeServerBegin b m fd cfg io hs).state.ephemeralPrivate
            (sliceOctets (ctHandshakeServerBegin b m fd cfg io hs).state.transcript
              (peerOffset (ctHandshakeServerBegin b m fd cfg io hs).state.clientId) 32) = some shared ∧
          Effect.deriveSession .server shared
            (ctHandshakeServerBegin b m fd cfg io hs).state.transcript ∈
            (ctHandshakeServerFinish b m fd' io'
              ((ctHandshakeServerBegin b m fd cfg io hs).state, c)).effects := by
  obtain ⟨h, ch, hrecv, hgreeted⟩ := ctHandshakeServerBegin_greets.of_some hbegin
  refine ⟨h, ch, hrecv, ⟨fun hkey => hgreeted.offset_iff.mp hkey.1, fun hnul => ?_⟩, ?_⟩
  · have hoff := hgreeted.offset_iff.mpr hnul
    rw [hoff]
    exact ⟨rfl, hgreeted.ephemeral⟩
  · intro fd' io' c a hfinish
    exact ctHandshakeServerFinish_shares.of_some hfinish

/-! ## An id with a NUL -/

/-- The id field is `edge`, a NUL and `x`; the id that is looked up is `edge`. -/
def paddedFields : HandshakeFields := { edgeFields with clientId := edgeId.bytes ++ [0, 120] }

def paddedHash : Octets 32 := octets 32
  0x33a26bac3e2c8a3bace8e9290401488477dd81e76df3058e21c3b91ff0137ed4

def paddedSignature : Octets 64 := octets64
  0x70dd70bd03467eaf4566023b21a0fe861fdc22d9834c14d896d648f1d1120375
  0x1e5379c606aa9d70e9a180f3b045a808c33f4890ec7109f820cc07130a572d09

def paddedLog : CryptoLog :=
  { edgeLog with
    hashes := ⟨32, [], transcriptBytes paddedFields, paddedHash.toList⟩ :: edgeHashes
    signatures := [⟨hubSecret, hubPublic, End.server.signatureRole ++ paddedHash.toList,
      paddedSignature⟩] }

def paddedBegin : Reply Effect CtServerHandshake Unit :=
  ctHandshakeServerBegin defaultBuild paddedLog.monocypher 5 edgeConfig
    { hubBeginIo with hello := handshakeFrame .clientHello (helloBytes paddedFields) } .zero

/-- The hello is answered, and the key is read two bytes before its field. -/
theorem padded_hello_shifts : paddedBegin.value = some () ∧
    sliceOctets paddedBegin.state.transcript (peerOffset paddedBegin.state.clientId) 32 ≠
      clientEphemeral (helloBytes paddedFields) := by
  decide +kernel

/-- The handshake of `edge` is about the key it sent. -/
theorem edge_key_taken :
    sliceOctets (ctHandshakeServerBegin defaultBuild edgeLog.monocypher 5 edgeConfig hubBeginIo
        .zero).state.transcript (peerOffset edgeId) 32 = edgeFields.clientEphemeral := by
  obtain ⟨h, ch, hrecv, hkey, -⟩ := @peer_key_iff defaultBuild edgeLog.monocypher 5 edgeConfig
    hubBeginIo .zero (by decide +kernel)
  have hch : ctPlainRecv defaultBuild hubBeginIo.hello defaultBuild.controlBufferSize =
      some (plainHeader CtMsgType.clientHello.toByte 0 0 (helloBytes edgeFields),
        helloBytes edgeFields) := by decide +kernel
  obtain ⟨rfl, rfl⟩ := Prod.mk.inj (Option.some.inj (hrecv.symm.trans hch))
  have hfield : clientEphemeral (helloBytes edgeFields) = edgeFields.clientEphemeral := by
    decide +kernel
  have hid : (ctHandshakeServerBegin defaultBuild edgeLog.monocypher 5 edgeConfig hubBeginIo
      .zero).state.clientId = edgeId := by decide +kernel
  rw [← hfield, ← hid]
  exact (hkey.mpr (by decide +kernel)).2

end Ctunnel
