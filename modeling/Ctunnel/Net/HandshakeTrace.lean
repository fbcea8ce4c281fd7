import Ctunnel.Net.Handshake

/-!
# What the trace of a handshake says

A transcript determines its fields (`transcriptBytes_inj`). Every signature,
every transcript and every session in the trace of an end is `Justified` by what
stands in the trace with it, and a handshake the server has begun (`Begun`) is
one whose transcript is in the trace. One lemma per handshake function; the
invariant of a slot follows by induction over its calls.
-/

namespace Ctunnel

open Lib

/-! ## Transcripts -/

theorem transcriptBytes_eq (f : HandshakeFields) :
    transcriptBytes f = ascii "ctunnel-handshake-v3" ++ (ctPutU32 ctMagic ++ ([ctProtocolVersion] ++
      (ctPutU16 (UInt16.ofNat f.clientId.length) ++ (f.clientId ++ (f.clientRandom.toList ++
      (f.clientEphemeral.toList ++ (ctPutU32 f.offered ++ (f.serverRandom.toList ++
      (f.serverEphemeral.toList ++ ([f.cipher] ++ (f.clientIdentity.toList ++
      (f.serverIdentity.toList ++ [])))))))))))) := by
  simp [transcriptBytes, helloBytes]

/-- A transcript determines its fields. -/
theorem transcriptBytes_inj {f f' : HandshakeFields} (hf : f.clientId.length ≤ 65535)
    (hf' : f'.clientId.length ≤ 65535) (h : transcriptBytes f = transcriptBytes f') : f = f' := by
  rw [transcriptBytes_eq, transcriptBytes_eq] at h
  have h := List.append_cancel_left h
  have h := List.append_cancel_left h
  have h := List.append_cancel_left h
  obtain ⟨hid, h⟩ := append_string_inj hf hf' h
  obtain ⟨hrandom, h⟩ := append_field_inj h
  obtain ⟨hephemeral, h⟩ := append_field_inj h
  obtain ⟨hoffered, h⟩ := append_u32_inj h
  obtain ⟨hsrandom, h⟩ := append_field_inj h
  obtain ⟨hsephemeral, h⟩ := append_field_inj h
  obtain ⟨hcipher, h⟩ := List.append_inj h rfl
  obtain ⟨hci, h⟩ := append_field_inj h
  obtain ⟨hsi, -⟩ := append_field_inj h
  exact HandshakeFields.ext hid hrandom hephemeral hoffered hsrandom hsephemeral
    (List.cons.inj hcipher).1 hci hsi

theorem transcript_some {cap : Nat} {ch tr : Bytes} {f : HandshakeFields} (hch : ch = helloBytes f)
    (h : transcript cap ch f.serverRandom f.serverEphemeral f.cipher f.clientIdentity
      f.serverIdentity = some tr) : tr = transcriptBytes f := by
  unfold transcript at h
  split at h
  · exact absurd h (by simp)
  · injection h with h
    rw [← h, hch]
    rfl

/-- The peer's ephemeral key stands behind the id and the client random. -/
theorem transcript_peer {f : HandshakeFields} {id : CString} (hid : f.clientId = id.bytes) :
    sliceOctets (transcriptBytes f) (peerOffset id) 32 = f.clientEphemeral := by
  have hlabel : (ascii "ctunnel-handshake-v3").length = 20 := rfl
  have hlen : id.bytes.length = id.length := rfl
  apply List.Vector.eq
  rw [sliceOctets_toList, transcriptBytes_eq, hid]
  · simp only [peerOffset]
    rw [slice_append_right (by omega), slice_append_right (by simp; omega),
      slice_append_right (by simp; omega), slice_append_right (by simp; omega),
      slice_append_right (by simp; omega), slice_append_right (by simp; omega)]
    simp only [hlabel, ctPutU32_length, List.length_singleton, ctPutU16_length, hlen,
      List.Vector.toList_length]
    have hzero : 25 + 2 + id.length + 32 - 20 - 4 - 1 - 2 - id.length - 32 = 0 := by omega
    rw [hzero, slice_append_left (by simp)]
  · rw [transcriptBytes_eq, hid]
    simp [peerOffset, hlabel, hlen]
    omega

/-- What the server read as CLIENT_HELLO is the encoding of the fields it took
from it. -/
theorem hello_parsed {ch id : Bytes} {o cap : Nat}
    (h : ctUnpackString ch ch.length 0 cap = some (id, o)) (hrest : ch.length - o = 68)
    (sr sep : Octets 32) (cipher : UInt8) (ci si : Octets 32) :
    ch = helloBytes ⟨id, sliceOctets ch o 32, sliceOctets ch (o + 32) 32, ctGetU32 ch (o + 64), sr,
      sep, cipher, ci, si⟩ := by
  obtain ⟨-, -, ho, hle, hslice⟩ := ctUnpackString_some h (le_refl _)
  have hlen : ch.length = o + 68 := by omega
  rw [helloBytes, ctPutU32_get (by omega), sliceOctets_toList (by omega),
    sliceOctets_toList (by omega), ← hslice]
  simp only [slice, List.drop_zero]
  have hcut : o = 2 + id.length := by omega
  rw [← hcut]
  calc ch = ch.take o ++ ch.drop o := (List.take_append_drop o ch).symm
    _ = ch.take o ++ ((ch.drop o).take 32 ++ ((ch.drop (o + 32)).take 32 ++
          (ch.drop (o + 64)).take 4)) := by
        congr 1
        have hfield : ∀ i, ch.drop i = (ch.drop i).take 32 ++ ch.drop (i + 32) := by
          intro i
          have hsplit := List.take_append_drop 32 (ch.drop i)
          rw [List.drop_drop] at hsplit
          exact hsplit.symm
        have h3 : (ch.drop (o + 64)).take 4 = ch.drop (o + 64) := by
          apply List.take_of_length_le
          rw [List.length_drop]
          omega
        rw [h3, ← hfield (o + 32), ← hfield o]
    _ = _ := by simp only [List.append_assoc]

/-- Signatures of the two roles are over different messages, and one of a role
is over the hash of its transcript. -/
theorem signatureMessage_inj {m : Monocypher} {e e' : End} {tr tr' : Bytes}
    (h : signatureMessage m e tr = signatureMessage m e' tr') :
    e = e' ∧ ctCryptoHash m tr = ctCryptoHash m tr' := by
  have hlen : ∀ e : End, e.signatureRole.length = 27 := by
    intro e
    cases e <;> rfl
  obtain ⟨hrole, hhash⟩ := List.append_inj h ((hlen e).trans (hlen e').symm)
  refine ⟨?_, List.Vector.eq _ _ hhash⟩
  cases e <;> cases e' <;> first | rfl | exact absurd hrole (by decide +kernel)

/-! ## Justified effects -/

/-- What has to stand in the trace `tr` of an end for an effect of its
handshakes. -/
def Justified (b : Build) (m : Monocypher) (tr : List Effect) : Effect → Prop
  | .sign _ message =>
      (∃ xsk f, Effect.clientHandshake xsk f ∈ tr ∧
        message = signatureMessage m .client (transcriptBytes f)) ∨
      (∃ xsk f, Effect.serverHandshake xsk f ∈ tr ∧
        message = signatureMessage m .server (transcriptBytes f))
  | .clientHandshake xsk f =>
      f.clientEphemeral = m.x25519PublicKey xsk ∧ f.clientId.length ≤ 65535 ∧ 0 ∉ f.clientId
  | .serverHandshake xsk f =>
      f.serverEphemeral = m.x25519PublicKey xsk ∧ f.clientId.length ≤ 65535
  | .clientSession serverPublic xsk f keys =>
      Effect.clientHandshake xsk f ∈ tr ∧
      Effect.verify serverPublic (signatureMessage m .server (transcriptBytes f)) true ∈ tr ∧
      ∃ shared, ctXShared m xsk f.serverEphemeral = some shared ∧
        ctDeriveSession b m shared (transcriptBytes f) = some keys
  | .serverSession clientPublic xsk id t keys =>
      Effect.verify clientPublic (signatureMessage m .client t) true ∈ tr ∧
      (∃ f, Effect.serverHandshake xsk f ∈ tr ∧ t = transcriptBytes f ∧
        id = CString.ofBytes f.clientId) ∧
      ∃ shared, ctXShared m xsk (sliceOctets t (peerOffset id) 32) = some shared ∧
        ctDeriveSession b m shared t = some keys
  | _ => True

/-- The effects that need no justification. -/
def Effect.plain : Effect → Bool
  | .sign .. | .clientHandshake .. | .serverHandshake .. | .clientSession ..
  | .serverSession .. => false
  | _ => true

def AllJustified (b : Build) (m : Monocypher) (tr : List Effect) : Prop :=
  ∀ e ∈ tr, Justified b m tr e

section Justification

variable {b : Build} {m : Monocypher} {tr tr' es : List Effect}

theorem Justified.mono (hsub : tr ⊆ tr') {e : Effect} (h : Justified b m tr e) :
    Justified b m tr' e := by
  cases e with
  | sign secret message =>
      rcases h with ⟨xsk, f, hmem, hmsg⟩ | ⟨xsk, f, hmem, hmsg⟩
      · exact .inl ⟨xsk, f, hsub hmem, hmsg⟩
      · exact .inr ⟨xsk, f, hsub hmem, hmsg⟩
  | clientHandshake xsk f => exact h
  | serverHandshake xsk f => exact h
  | clientSession serverPublic xsk f keys => exact ⟨hsub h.1, hsub h.2.1, h.2.2⟩
  | serverSession clientPublic xsk id t keys =>
      obtain ⟨hver, ⟨f, hmem, hf⟩, hkeys⟩ := h
      exact ⟨hsub hver, ⟨f, hsub hmem, hf⟩, hkeys⟩
  | _ => trivial

theorem Justified.of_plain {e : Effect} (h : e.plain = true) : Justified b m tr e := by
  cases e <;> trivial

theorem AllJustified.nil : AllJustified b m [] := by
  intro e he
  exact absurd he (by simp)

theorem AllJustified.append (h : AllJustified b m tr)
    (hes : ∀ e ∈ es, Justified b m (tr ++ es) e) : AllJustified b m (tr ++ es) := by
  intro e he
  rcases List.mem_append.mp he with hold | hnew
  · exact (h e hold).mono (List.subset_append_left _ _)
  · exact hes e hnew

theorem AllJustified.snoc (h : AllJustified b m tr) {e : Effect} (he : Justified b m tr e) :
    AllJustified b m (tr ++ [e]) := by
  refine h.append ?_
  intro e' he'
  rw [List.mem_singleton.mp he']
  exact he.mono (List.subset_append_left _ _)

theorem AllJustified.plain (h : AllJustified b m tr) (hes : ∀ e ∈ es, e.plain = true) :
    AllJustified b m (tr ++ es) :=
  h.append fun e he => .of_plain (hes e he)

end Justification

/-! ## Frames -/

theorem ctPlainSend_ends {σ α : Type} {b : Build} {fd : Socket} {type : UInt8}
    {session stream : UInt64} {p : Bytes} {io : SendIo} {s : σ} {tr : List Effect}
    {k : Unit → Call Effect σ α} {Q : α → σ → List Effect → Prop} {W : σ → List Effect → Prop}
    (h : ∀ sent : List Bytes, (k () s).Ends (tr ++ sent.map (Effect.wire fd)) Q W)
    (hW : ∀ sent : List Bytes, W s (tr ++ sent.map (Effect.wire fd))) :
    ((ctPlainSend b fd type session stream p io >>= k) s).Ends tr Q W := by
  refine .bind (Q := fun _ s' tr' => s' = s ∧ ∃ sent : List Bytes,
    tr' = tr ++ sent.map (Effect.wire fd)) ?_ ?_
  · have hnone : W s tr := by simpa using hW []
    refine .check ?_ (fun _ => hnone)
    rintro -
    refine .need ?_ (fun _ => hnone)
    intro head _
    refine sendall_ends (.of_bind_pure (sendall_ends (.ret ⟨rfl, ?_⟩) ?_)) ?_
    · exact ⟨[head.toList.take io.head, p.take io.body], by simp⟩
    · simpa using hW [head.toList.take io.head, p.take io.body]
    · simpa using hW [head.toList.take io.head]
  · rintro - s' tr' ⟨rfl, sent, rfl⟩
    exact h sent

theorem wires_plain (fd : Socket) (sent : List Bytes) :
    ∀ e ∈ sent.map (Effect.wire fd), e.plain = true := by
  intro e he
  obtain ⟨x, -, rfl⟩ := List.mem_map.mp he
  rfl

theorem ControlSent.justified {b b' : Build} {m : Monocypher} {type : UInt8} {stream : UInt64}
    {p : Bytes} {c c' : CtControl} {tr tr' : List Effect}
    (h : ControlSent b m type stream p c tr c' tr') (hj : AllJustified b' m tr) :
    AllJustified b' m tr' := by
  cases h with
  | refused hor => exact hj.plain (by simp [Effect.plain])
  | dropped hseq hlen => exact hj.plain (by simp [Effect.plain])
  | sealed hseq hlen head box hhead hbox last sent =>
      exact ((hj.plain (by simp [Effect.plain])).plain (by simp [Effect.plain])).plain
        (wires_plain _ _)

theorem ControlSent.subset {b : Build} {m : Monocypher} {type : UInt8} {stream : UInt64}
    {p : Bytes} {c c' : CtControl} {tr tr' : List Effect}
    (h : ControlSent b m type stream p c tr c' tr') : tr ⊆ tr' := by
  cases h with
  | refused hor => exact List.subset_append_left _ _
  | dropped hseq hlen => exact List.subset_append_left _ _
  | sealed hseq hlen head box hhead hbox last sent =>
      rw [List.append_assoc, List.append_assoc]
      exact List.subset_append_left _ _

theorem ControlReceived.justified {b b' : Build} {m : Monocypher} {c c' : CtControl}
    {tr tr' : List Effect} {v : Option (CtFrameHeader × Bytes)}
    (h : ControlReceived b m c tr v c' tr') (hj : AllJustified b' m tr) :
    AllJustified b' m tr' ∧ tr ⊆ tr' := by
  cases h with
  | refused => exact ⟨hj, List.Subset.refl _⟩
  | rejected call =>
      exact ⟨hj.plain (by simp [Effect.plain]), List.subset_append_left _ _⟩
  | accepted hd head box p hhead hflags hsession hmax hseq hopen last =>
      rw [List.append_assoc]
      exact ⟨hj.plain (by simp [Effect.plain]), List.subset_append_left _ _⟩

/-! ## The three calls -/

section Calls

variable {b : Build} {m : Monocypher} {tr : List Effect}

/-- The transcript the client computed is that of its fields. -/
theorem clientHello_ends (fd : Socket) (cfg : CtConfig) (io : ClientHandshakeIo)
    (c : CtControl) (hj : AllJustified b m tr) :
    (clientHello b m fd cfg io c).Ends tr
      (fun k _ tr' => AllJustified b m tr' ∧ k.tr = transcriptBytes k.fields ∧
        Effect.clientHandshake k.xsk k.fields ∈ tr')
      (fun _ tr' => AllJustified b m tr') := by
  refine .modify (.need ?_ (fun _ => hj))
  intro idsk _
  refine .need ?_ (fun _ => hj)
  intro serverpk _
  refine .need ?_ (fun _ => hj)
  intro xsk _
  refine .need ?_ (fun _ => hj)
  intro cr _
  refine .need ?_ (fun _ => hj)
  intro id hid
  obtain ⟨hlen, hch⟩ : cfg.clientId.bytes.length ≤ 65535 ∧
      id = ctPutU16 (UInt16.ofNat cfg.clientId.length) ++ cfg.clientId.bytes := by
    unfold ctPackString at hid
    split at hid
    · exact absurd hid (by simp)
    · rename_i hok
      simp only [gt_iff_lt, not_or, not_lt] at hok
      injection hid with hid
      exact ⟨hok.2.1, by simpa using hid.symm⟩
  refine ctPlainSend_ends (fun sent => ?_) (fun sent => hj.plain (wires_plain _ _))
  replace hj := hj.plain (wires_plain fd sent)
  refine .need ?_ (fun _ => hj)
  rintro ⟨h, reply⟩ _
  refine .check ?_ (fun _ => hj)
  rintro -
  refine .check ?_ (fun _ => hj)
  rintro -
  refine .need ?_ (fun _ => hj)
  intro t ht
  refine .tell (.ret ⟨hj.snoc ⟨rfl, hlen, cfg.clientId.noNul⟩, ?_, ?_⟩)
  · exact transcript_some (by rw [hch]; rfl) ht
  · exact List.mem_append_right _ (List.mem_singleton.mpr rfl)

theorem clientAuth_ends (fd : Socket) (cfg : CtConfig) (io : ClientHandshakeIo) {k : ClientHello}
    (c : CtControl) (hj : AllJustified b m tr) (hk : k.tr = transcriptBytes k.fields)
    (hmem : Effect.clientHandshake k.xsk k.fields ∈ tr) :
    (clientAuth b m fd cfg io k c).Ends tr (fun _ _ tr' => AllJustified b m tr')
      (fun _ tr' => AllJustified b m tr') := by
  refine .tell (.check ?_ (fun _ => hj.snoc trivial))
  intro hok
  rw [hok]
  replace hj := hj.snoc (e := .verify k.serverpk (signatureMessage m .server k.tr) true) trivial
  have hver : Effect.verify k.serverpk (signatureMessage m .server k.tr) true ∈
      tr ++ [.verify k.serverpk (signatureMessage m .server k.tr) true] :=
    List.mem_append_right _ (List.mem_singleton.mpr rfl)
  replace hmem := List.mem_append_left
    [.verify k.serverpk (signatureMessage m .server k.tr) true] hmem
  generalize tr ++ [.verify k.serverpk (signatureMessage m .server k.tr) true] = tr at hj hver hmem
  refine .tell ?_
  replace hj := hj.snoc (e := .sign k.idsk (signatureMessage m .client k.tr))
    (.inl ⟨k.xsk, k.fields, hmem, by rw [hk]⟩)
  refine ctPlainSend_ends (fun sent => ?_) (fun sent => hj.plain (wires_plain _ _))
  replace hj := hj.plain (wires_plain fd sent)
  have hsub : tr ⊆ tr ++ [.sign k.idsk (signatureMessage m .client k.tr)] ++
      sent.map (Effect.wire fd) := by
    rw [List.append_assoc]
    exact List.subset_append_left _ _
  replace hmem := hsub hmem
  replace hver := hsub hver
  generalize tr ++ [.sign k.idsk (signatureMessage m .client k.tr)] ++
    sent.map (Effect.wire fd) = tr at hj hver hmem
  refine .need ?_ (fun _ => hj)
  intro shared hshared
  refine .modify (.check ?_ (fun _ => hj))
  rintro -
  refine .need ?_ (fun _ => hj)
  intro keys hkeys
  refine .tell (.modify ?_)
  replace hj := hj.snoc (e := .deriveSession .client shared k.tr) trivial
  refine .bind ((ctControlRecv_ends b m b.controlBufferSize io.authOk _ _).mono
    (fun v c' tr' hr => hr.justified hj) (fun c' tr' hr => (hr.justified hj).1)) ?_
  rintro ⟨h, p⟩ c' tr' ⟨hj, hsub'⟩
  refine .check ?_ (fun _ => hj)
  rintro -
  replace hsub := List.Subset.trans
    (List.subset_append_left tr [.deriveSession .client shared k.tr]) hsub'
  refine .tell (.of_bind_pure (.modify (.ret (hj.snoc ?_))))
  rw [hk] at hver hkeys
  exact ⟨hsub hmem, hsub hver, shared, hshared, hkeys⟩

theorem ctHandshakeClient_ends (fd : Socket) (cfg : CtConfig) (io : ClientHandshakeIo)
    (c : CtControl) (hj : AllJustified b m tr) :
    (ctHandshakeClient b m fd cfg io c).Ends tr (fun _ _ tr' => AllJustified b m tr')
      (fun _ tr' => AllJustified b m tr') := by
  refine .rollback (.bind (clientHello_ends fd cfg io c hj) ?_)
  rintro k c' tr' ⟨hj, hk, hmem⟩
  exact clientAuth_ends fd cfg io c' hj hk hmem

/-- A handshake that waits for CLIENT_AUTH is one whose transcript is in the
trace. -/
def Begun (tr : List Effect) (hs : CtServerHandshake) : Prop :=
  hs.authorized.isSome = true → ∃ f, Effect.serverHandshake hs.ephemeralPrivate f ∈ tr ∧
    hs.transcript = transcriptBytes f ∧ hs.clientId = CString.ofBytes f.clientId

theorem Begun.zero : Begun tr .zero := fun h => absurd h (by simp [CtServerHandshake.zero])

theorem Begun.mono {tr' : List Effect} {hs : CtServerHandshake} (h : Begun tr hs) (hsub : tr ⊆ tr') :
    Begun tr' hs := by
  intro ha
  obtain ⟨f, hmem, hf⟩ := h ha
  exact ⟨f, hsub hmem, hf⟩

theorem ctHandshakeServerBegin_ends (fd : Socket) (cfg : CtConfig) (io : ServerBeginIo)
    (hs : CtServerHandshake) (hj : AllJustified b m tr) :
    (ctHandshakeServerBegin b m fd cfg io hs).Ends tr
      (fun _ hs' tr' => AllJustified b m tr' ∧ Begun tr' hs')
      (fun hs' tr' => AllJustified b m tr' ∧ Begun tr' hs') := by
  have hz : ∀ {tr'}, AllJustified b m tr' → AllJustified b m tr' ∧ Begun tr' .zero :=
    fun h => ⟨h, Begun.zero⟩
  refine .rollback (.modify (.need ?_ (fun _ => hz hj)))
  rintro ⟨h, ch⟩ _
  refine .check ?_ (fun _ => hz hj)
  rintro -
  refine .need ?_ (fun _ => hz hj)
  rintro ⟨id, o⟩ hid
  refine .check ?_ (fun _ => hz hj)
  intro hrest
  refine .need ?_ (fun _ => hz hj)
  intro a _
  refine .need ?_ (fun _ => hz hj)
  intro clientPublic _
  refine .need ?_ (fun _ => hz hj)
  intro idsk _
  refine .check ?_ (fun _ => hz hj)
  rintro -
  refine .need ?_ (fun _ => hz hj)
  intro xsk _
  refine .need ?_ (fun _ => hz hj)
  intro sr _
  refine .need ?_ (fun _ => hz hj)
  intro t ht
  have hlen := (ctUnpackString_some hid (le_refl _)).2.1
  refine .tell ?_
  set f : HandshakeFields := ⟨id, sliceOctets ch o 32, sliceOctets ch (o + 32) 32,
    ctGetU32 ch (o + 64), sr, m.x25519PublicKey xsk,
    (choose (ctGetU32 ch (o + 64)) cfg.cipherMask cfg.preferredCipher).toByte,
    ctCryptoHash m clientPublic.toList, ctCryptoHash m (publicHalf idsk).toList⟩ with hf
  have htf : t = transcriptBytes f := transcript_some (f := f) (hello_parsed hid hrest ..) ht
  replace hj := hj.snoc (e := .serverHandshake xsk f) ⟨rfl, hlen⟩
  have hmem : Effect.serverHandshake xsk f ∈ tr ++ [.serverHandshake xsk f] :=
    List.mem_append_right _ (List.mem_singleton.mpr rfl)
  refine .tell ?_
  replace hj := hj.snoc (e := .sign idsk (signatureMessage m .server t))
    (.inr ⟨xsk, f, hmem, by rw [htf]⟩)
  refine ctPlainSend_ends (fun sent => ?_) (fun sent => hz (hj.plain (wires_plain _ _)))
  replace hj := hj.plain (wires_plain fd sent)
  refine .of_bind_pure (.modify (.ret ⟨hj, ?_⟩))
  intro _
  exact ⟨f, List.mem_append_left _ (List.mem_append_left _ hmem), htf, rfl⟩

theorem ctHandshakeServerFinish_ends (fd : Socket) (io : ServerFinishIo)
    (s : CtServerHandshake × CtControl) (hj : AllJustified b m tr) (hbegun : Begun tr s.1) :
    (ctHandshakeServerFinish b m fd io s).Ends tr
      (fun _ s' tr' => AllJustified b m tr' ∧ Begun tr' s'.1)
      (fun s' tr' => AllJustified b m tr' ∧ Begun tr' s'.1) := by
  obtain ⟨hs, c⟩ := s
  have hbody : (Call.rollback (fun c => { c with keys := .zero })
      (serverFinishBody b m fd hs io) c).Ends tr (fun _ _ tr' => AllJustified b m tr')
      (fun _ tr' => AllJustified b m tr') := by
    refine .rollback (.need ?_ (fun _ => hj))
    intro a ha
    obtain ⟨f, hmem, htr, hid⟩ := hbegun (by rw [ha]; rfl)
    refine .need ?_ (fun _ => hj)
    rintro ⟨h, reply⟩ _
    refine .check ?_ (fun _ => hj)
    rintro -
    refine .tell (.check ?_ (fun _ => hj.snoc trivial))
    intro hok
    rw [hok]
    replace hj := hj.snoc
      (e := .verify hs.clientPublic (signatureMessage m .client hs.transcript) true) trivial
    have hver : Effect.verify hs.clientPublic (signatureMessage m .client hs.transcript) true ∈
        tr ++ [.verify hs.clientPublic (signatureMessage m .client hs.transcript) true] :=
      List.mem_append_right _ (List.mem_singleton.mpr rfl)
    refine .check ?_ (fun _ => hj)
    rintro -
    refine .need ?_ (fun _ => hj)
    intro shared hshared
    refine .modify (.need ?_ (fun _ => hj))
    intro keys hkeys
    refine .tell (.modify ?_)
    replace hj := hj.snoc (e := .deriveSession .server shared hs.transcript) trivial
    refine .bind ((ctControlSend_ends b m CtMsgType.authOk.toByte 0 [] io.authOk _ _).mono
      (fun _ c' tr' hr => And.intro (hr.justified hj) hr.subset) (fun c' tr' hr => hr.justified hj)) ?_
    rintro - c' tr' ⟨hj, hsub⟩
    refine .modify (.tell (.ret (hj.snoc ?_)))
    exact ⟨hsub (List.mem_append_left _ hver),
      ⟨f, hsub (List.mem_append_left _ (List.mem_append_left _ hmem)), htr, hid⟩, shared, hshared,
      hkeys⟩
  refine .mk (fun a ha => ⟨hbody.of_some ha, Begun.zero⟩)
    (fun hn => ⟨hbody.of_none hn, Begun.zero⟩)

end Calls

end Ctunnel
