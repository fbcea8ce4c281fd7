import Ctunnel.Lib.TraceKeeps
import Ctunnel.Net.Account
import Ctunnel.Net.Authenticators

/-!
# What the trace of a stream set-up says

Every authenticator that is sent, every START_STREAM and every answer that is
accepted, and every answer that is sent is `StreamJustified` by what stands in the
trace of its end with it. One lemma per function of a stream set-up; the other
calls of the two ends have no such effect.
-/

namespace Ctunnel

open Lib

/-! ## Justified effects -/

/-- A tag was checked, and it was the authenticator of the message. -/
def TagAccepted (m : Monocypher) (tr : List Effect) (key : Octets 32) (message : Bytes) : Prop :=
  Effect.macCheck key message (ctCryptoMac m key message) ∈ tr

/-- The authenticated bytes of START_STREAM. -/
def startInput (c : CtControl) (x : StreamContext) (md : Option CtStreamMetadata) : Bytes :=
  (streammacInput c CtMsgType.startStream.toByte .server x md 1).bytes

/-- The authenticated bytes of STREAM_READY, or of STREAM_FAILED. -/
def readyInput (c : CtControl) (x : StreamContext) (ok : Bool) : Bytes :=
  (streammacInput c (readyMessageType ok) .client x none (okByte ok)).bytes

/-- The ids of a message are as short as `streammac` demands. -/
structure IdsBounded (id : CString) (x : StreamContext) : Prop where
  client : id.length ≤ 256
  service : x.serviceId.length ≤ 256

/-- What has to stand in the trace `tr` of an end for an effect of its stream set-ups. -/
def StreamJustified (m : Monocypher) (tr : List Effect) : Effect → Prop
  | .macSend key message =>
      (∃ c id, message = (workmacInput c id).bytes) ∨
      (∃ c x md, key = c.keys.streamAuthKey ∧ message = startInput c x md ∧
        Effect.startSend c.keys c.clientId x md ∈ tr) ∨
      (∃ c x ok, key = c.keys.streamAuthKey ∧ message = readyInput c x ok ∧
        Effect.readySend c.keys c.clientId x ok ∈ tr)
  | .startRecv keys id x md =>
      IdsBounded id x ∧ ∃ c : CtControl, c.keys = keys ∧ c.clientId = id ∧
        TagAccepted m tr keys.streamAuthKey (startInput c x (some md))
  | .readySend keys id x _ => ∃ md, Effect.startRecv keys id x md ∈ tr
  | .readyRecv keys id x ok =>
      (∃ (c : CtControl) (type okb : UInt8), c.keys = keys ∧ c.clientId = id ∧
        ok = decide (okb ≠ 0 ∧ type = CtMsgType.streamReady.toByte) ∧
        TagAccepted m tr keys.streamAuthKey (streammacInput c type .client x none okb).bytes) ∧
      ∃ md, Effect.startSend keys id x (some md) ∈ tr
  | _ => True

/-- Every effect of the trace is justified in it. -/
def AllStreamJustified (m : Monocypher) (tr : List Effect) : Prop :=
  ∀ e ∈ tr, StreamJustified m tr e

/-- An effect that needs no justification. -/
def Effect.Unbound : Effect → Prop
  | .macSend .. | .startRecv .. | .readySend .. | .readyRecv .. => False
  | _ => True

instance : DecidablePred Effect.Unbound := fun e => by
  unfold Effect.Unbound
  split <;> infer_instance

variable {b : Build} {m : Monocypher} {tr tr' es K : List Effect}

theorem StreamJustified.mono {e : Effect} (h : StreamJustified m tr e) (hsub : tr ⊆ tr') :
    StreamJustified m tr' e := by
  cases e with
  | macSend key message =>
      rcases h with h | ⟨c, x, md, hkey, hmessage, hmem⟩ | ⟨c, x, ok, hkey, hmessage, hmem⟩
      · exact .inl h
      · exact .inr (.inl ⟨c, x, md, hkey, hmessage, hsub hmem⟩)
      · exact .inr (.inr ⟨c, x, ok, hkey, hmessage, hsub hmem⟩)
  | startRecv keys id x md =>
      obtain ⟨hids, c, hkeys, hid, hmem⟩ := h
      exact ⟨hids, c, hkeys, hid, hsub hmem⟩
  | readySend keys id x ok =>
      obtain ⟨md, hmem⟩ := h
      exact ⟨md, hsub hmem⟩
  | readyRecv keys id x ok =>
      obtain ⟨⟨c, type, okb, hkeys, hid, hok, hmem⟩, md, hstart⟩ := h
      exact ⟨⟨c, type, okb, hkeys, hid, hok, hsub hmem⟩, md, hsub hstart⟩
  | _ => trivial

theorem Effect.Unbound.justified {e : Effect} (h : e.Unbound) : StreamJustified m tr e := by
  cases e <;> first | exact trivial | exact absurd h id

theorem Effect.Unbound.of_not_keyed {e : Effect} (h : e.keyed = false) : e.Unbound := by
  cases e <;> first | exact trivial | exact absurd h (by simp [Effect.keyed])

theorem AllStreamJustified.nil : AllStreamJustified m [] := fun _ he => absurd he (by simp)

/-- New effects may be justified by each other. -/
theorem AllStreamJustified.add (h : AllStreamJustified m tr)
    (hes : ∀ e ∈ es, StreamJustified m (tr ++ es) e) : AllStreamJustified m (tr ++ es) := by
  intro e he
  rcases List.mem_append.mp he with he | he
  · exact (h e he).mono (List.subset_append_left _ _)
  · exact hes e he

theorem AllStreamJustified.unbound (h : AllStreamJustified m tr) (hes : ∀ e ∈ es, e.Unbound) :
    AllStreamJustified m (tr ++ es) := h.add fun e he => (hes e he).justified

/-- Only keyed effects need a justification. -/
theorem AllStreamJustified.keyed (h : AllStreamJustified m tr)
    (hes : ∀ e ∈ Ctunnel.keyed es, StreamJustified m (tr ++ es) e) :
    AllStreamJustified m (tr ++ es) := by
  refine h.add fun e he => ?_
  cases hk : e.keyed with
  | true => exact hes e (List.mem_filter.mpr ⟨he, hk⟩)
  | false => exact (Effect.Unbound.of_not_keyed hk).justified

theorem mem_of_keyed {e : Effect} (hK : Ctunnel.keyed es = K) (he : e ∈ K) : e ∈ es :=
  (List.mem_filter.mp (hK ▸ he)).1

/-- A continuation whose keyed effects need no justification. -/
theorem Added.justified (h : Added tr K tr') (hK : ∀ e ∈ K, e.Unbound)
    (htr : AllStreamJustified m tr) : AllStreamJustified m tr' := by
  obtain ⟨es, rfl, hes⟩ := h
  exact htr.keyed fun e he => (hK e (hes ▸ he)).justified

/-! ## What an authenticator tells -/

section Inputs

variable {c c' : CtControl} {x x' : StreamContext} {md md' : Option CtStreamMetadata}
variable {type type' ok ok' : UInt8} {role role' : SenderRole}

/-- The role stands at a fixed place from the end, whatever the ids are. -/
theorem streammacInput_role (h : (streammacInput c type role x md ok).bytes =
    (streammacInput c' type' role' x' md' ok').bytes) : role = role' := by
  simp only [streammacInput, WriteBuf.new_putAll_bytes, List.flatten_append] at h
  have htail := (List.append_inj' h (by simp)).2
  simp only [List.flatten_cons, List.flatten_nil, List.append_nil, List.cons_append, List.nil_append,
    List.cons.injEq] at htail
  exact SenderRole.toByte_inj htail.2.1

theorem streammacMetadata_bounds (md : Option CtStreamMetadata) :
    38 ≤ (streammacMetadata md).flatten.length ∧ (streammacMetadata md).flatten.length ≤ 39 := by
  cases md <;> simp [streammacMetadata]

/-- One end that keeps its ids short is enough. -/
theorem streammacInput_same (hids : IdsBounded c.clientId x)
    (h : (streammacInput c type role x md ok).bytes =
      (streammacInput c' type' role' x' md' ok').bytes) :
    SameStreamMessage c c' type type' role role' x x' md md' ok ok' := by
  have hlen := congrArg List.length h
  have hmd := streammacMetadata_bounds md
  have hmd' := streammacMetadata_bounds md'
  simp only [streammacInput, WriteBuf.new_putAll_bytes, List.flatten_append, List.length_append,
    List.flatten_cons, List.flatten_nil, List.length_cons, List.length_nil, ctPutU64_length,
    ctPutU16_length, List.Vector.toList_length] at hlen
  have hclient := hids.client
  have hservice := hids.service
  have hsum : c'.clientId.length + x'.serviceId.length ≤ 513 := by
    simp only [CString.length] at *
    omega
  exact streammacInput_inj ⟨by omega, by omega⟩ ⟨by omega, by omega⟩ h

end Inputs

/-! ## The server's calls -/

theorem startSent_justified {c : CtControl} {x : StreamContext} {md : Option CtStreamMetadata}
    (hsub : startSent c x md ⊆ tr) : ∀ e ∈ startSent c x md, StreamJustified m tr e := by
  intro e he
  simp only [startSent, List.mem_cons, List.not_mem_nil, or_false] at he
  rcases he with rfl | rfl
  · exact .inr (.inl ⟨c, x, md, rfl, rfl, hsub (by simp [startSent])⟩)
  · trivial

/-- An answer is accepted for a stream that was started. -/
theorem AnswerChecked.justified {c : CtControl} {x : StreamContext} {ok : Option Bool}
    {md : CtStreamMetadata} (h : AnswerChecked m c x ok K) (hsub : K ⊆ tr)
    (hstart : Effect.startSend c.keys c.clientId x (some md) ∈ tr) :
    ∀ e ∈ K, StreamJustified m tr e := by
  cases h with
  | unread => exact fun e he => absurd he (by simp)
  | rejected type okb tag =>
      intro e he
      rw [List.mem_singleton.mp he]
      trivial
  | accepted type okb =>
      intro e he
      simp only [List.mem_cons, List.not_mem_nil, or_false] at he
      rcases he with rfl | rfl
      · trivial
      · exact ⟨⟨c, type, okb, rfl, rfl, rfl, hsub (by simp)⟩, md, hstart⟩

theorem WorkBound.unbound {f : Socket} {c c' : CtControl} {w : Option CtWork}
    (h : WorkBound m f c w c' K) : ∀ e ∈ K, e.Unbound := by
  cases h <;> simp [Effect.Unbound]

theorem ControlMove.unbound {c c' : CtControl} (h : ControlMove c K c') : ∀ e ∈ K, e.Unbound := by
  cases h <;> simp [Effect.Unbound]

theorem RelayMove.unbound {r r' : CtRelay} (h : RelayMove r K r') : ∀ e ∈ K, e.Unbound := by
  cases h <;> simp [Effect.Unbound]

theorem FinishMove.unbound {fd : Socket} {hs : CtServerHandshake} {c c' : CtControl}
    {a : Option CtAuthorizedClient} (h : FinishMove b m fd hs c a c' K) : ∀ e ∈ K, e.Unbound := by
  cases h with
  | early | underived => simp
  | unsent hkeys hsend hfd | done ha hkeys hsend hfd =>
      rw [List.forall_mem_cons]
      exact ⟨trivial, hsend.unbound⟩

theorem relayDerives_unbound (e : End) (c : CtControl) (x : StreamContext) :
    ∀ f ∈ relayDerives b e c x, f.Unbound := by
  unfold relayDerives
  split <;> simp [Effect.Unbound]

/-! ## The client's calls -/

section Client

variable {σ : Type}

/-- A call without such effects leaves the trace justified. -/
theorem unbound_kept {α : Type} {x : Call Effect σ α} (hx : Call.Emits Effect.Unbound x) :
    Call.Extends (AllStreamJustified m) x :=
  .of_emits hx fun _ _ h hes => h.unbound hes

theorem ctPlainSend_unbound {fd : Socket} {type : UInt8} {session stream : UInt64} {p : Bytes}
    {io : SendIo} :
    Call.Emits Effect.Unbound (ctPlainSend b fd type session stream p io : Call Effect σ Unit) := by
  have hwrite : ∀ (q : Bytes) (taken : Nat),
      Call.Emits Effect.Unbound (sendall fd q taken : Call Effect σ Unit) :=
    fun _ _ => .bind (.tell (by simp [Effect.Unbound])) fun _ => .check
  exact .bind .check fun _ => .bind .need fun _ => .bind (hwrite _ _) fun _ => hwrite _ _

theorem ctControlSend_unbound {type : UInt8} {stream : UInt64} {p : Bytes} {io : SendIo} :
    Call.Emits Effect.Unbound (ctControlSend b m type stream p io) :=
  ctControlSend_framing.mono fun e h => by cases e <;> first | exact trivial | exact absurd h id

theorem ctControlRecv_unbound {cap : Nat} {io : RecvIo} :
    Call.Emits Effect.Unbound (ctControlRecv b m cap io) := by
  refine .bind .get fun c => .bind .need fun _ => .bind .need fun _ => .bind .check fun _ => ?_
  refine .bind .check fun _ => .bind .need fun _ => .bind (.tell (by simp [Effect.Unbound])) fun _ => ?_
  exact .bind .need fun _ => .bind .modify fun _ =>
    .bind (.tell (by simp [Effect.Unbound])) fun _ => .pure

theorem ctHandshakeClient_unbound {fd : Socket} {cfg : CtConfig} {io : ClientHandshakeIo} :
    Call.Emits Effect.Unbound (ctHandshakeClient b m fd cfg io) := by
  refine .rollback (.bind ?_ fun k => ?_)
  · refine .bind .modify fun _ => .bind .need fun _ => .bind .need fun _ => .bind .need fun _ => ?_
    refine .bind .need fun _ => .bind .need fun _ => .bind ctPlainSend_unbound fun _ => ?_
    refine .bind .need fun _ => .bind .check fun _ => .bind .check fun _ => .bind .need fun _ => ?_
    exact .bind (.tell (by simp [Effect.Unbound])) fun _ => .pure
  · refine .bind (.tell (by simp [Effect.Unbound])) fun _ => .bind .check fun _ => ?_
    refine .bind (.tell (by simp [Effect.Unbound])) fun _ => .bind ctPlainSend_unbound fun _ => ?_
    refine .bind .need fun _ => .bind .modify fun _ => .bind .check fun _ => .bind .need fun _ => ?_
    refine .bind (.tell (by simp [Effect.Unbound])) fun _ => .bind .modify fun _ => ?_
    refine .bind ctControlRecv_unbound fun _ => .bind .check fun _ => ?_
    exact .bind (.tell (by simp [Effect.Unbound])) fun _ => .modify

theorem ctWorkConnect_kept {io : WorkConnectIo} :
    Call.Extends (AllStreamJustified m) (ctWorkConnect b m io) := by
  refine .bind (unbound_kept .need) fun fd => .bind (unbound_kept (.tell ?_)) fun _ => .onFail ?_ ?_
  · simp [Effect.Unbound]
  · exact fun tr h => h.unbound (by simp [Effect.Unbound])
  · refine .get fun c => .bind (unbound_kept .check) fun _ => .bind (unbound_kept .modify) fun _ => ?_
    refine .bind (unbound_kept .need) fun random => .bind ?_ fun _ => ?_
    · intro s tr h
      refine h.add fun e he => ?_
      rw [List.mem_singleton.mp he]
      exact .inl ⟨_, _, rfl⟩
    · exact .bind (unbound_kept ctPlainSend_unbound) fun _ => .pure

theorem startStreamParse_work {w : CtWork} {h : CtFrameHeader} {p : Bytes} {n o : Nat}
    {x : StreamContext} {md : CtStreamMetadata}
    (hparse : startStreamParse b w h p n = some (x, md, o)) : x.workId = w.id := by
  simp only [startStreamParse, Option.bind_eq_bind, Option.bind_eq_some_iff, Option.pure_def] at hparse
  obtain ⟨id, hid, mode, hmode, hparse⟩ := hparse
  split at hparse
  · exact absurd hparse (by simp)
  · split at hparse
    · exact absurd hparse (by simp)
    · simp only [Option.bind_eq_some_iff] at hparse
      obtain ⟨proxy, hproxy, source, hsource, destination, hdestination, hparse⟩ := hparse
      split at hparse
      · exact absurd hparse (by simp)
      · simp only [Option.some.injEq, Prod.mk.injEq] at hparse
        rw [← hparse.1]

/-- The client accepts a START_STREAM under an authenticator. -/
theorem ctStartStreamRecv_justified (w : CtWork) (c : CtControl) (inbox stale : Bytes) (s : σ)
    (h : AllStreamJustified m tr) :
    (ctStartStreamRecv b m w c inbox stale s).Ends tr
      (fun v s' tr' => s' = s ∧ AllStreamJustified m tr' ∧ v.1.workId = w.id ∧
        Effect.startRecv c.keys c.clientId v.1 v.2 ∈ tr')
      (fun _ tr' => AllStreamJustified m tr') := by
  refine .need (fun v _ => .check (fun _ => .need (fun y hy => .need (fun mac hmac => ?_)
    fun _ => h) fun _ => h) fun _ => h) fun _ => h
  obtain ⟨x, md, o⟩ := y
  have hids : IdsBounded c.clientId x := by
    unfold streammac at hmac
    split at hmac
    · exact absurd hmac (by simp)
    · rename_i hids
      rw [not_or, Nat.not_lt, Nat.not_lt] at hids
      exact ⟨hids.1.trans b.maxClientIdLength_range.2, hids.2.trans b.maxServiceIdLength_range.2⟩
  have hwork : x.workId = w.id := startStreamParse_work hy
  have hchecked : ∀ tag, AllStreamJustified m (tr ++ [.macCheck c.keys.streamAuthKey
      (streammacInput c CtMsgType.startStream.toByte .server x (some md) 1).bytes tag]) :=
    fun tag => h.unbound (by simp [Effect.Unbound])
  refine .tell (.check (fun htag => .tell (.ret ⟨rfl, ?_, hwork, by simp⟩)) fun _ => hchecked _)
  refine (hchecked _).add fun e he => ?_
  rw [List.mem_singleton.mp he]
  refine ⟨hids, c, rfl, rfl, ?_⟩
  rw [← htag, streammac_some hmac]
  simp [TagAccepted, startInput]

/-- The client answers a START_STREAM it has accepted. -/
theorem ctStreamReadySend_justified (w : CtWork) (c : CtControl) (x : StreamContext)
    (md : CtStreamMetadata) (ok : Bool) (io : SendIo) (s : σ) (h : AllStreamJustified m tr)
    (hwork : x.workId = w.id) (hrecv : Effect.startRecv c.keys c.clientId x md ∈ tr) :
    (ctStreamReadySend b m w c x.serviceId x.mode x.stream x.random ok io s).Ends tr
      (fun _ s' tr' => s' = s ∧ AllStreamJustified m tr') (fun _ tr' => AllStreamJustified m tr') := by
  have hx : (⟨x.stream, x.random, w.id, x.serviceId, x.mode⟩ : StreamContext) = x := by
    rw [← hwork]
  unfold ctStreamReadySend
  rw [hx]
  refine .need (fun p _ => .need (fun mac hmac => .tell ?_) fun _ => h) fun _ => h
  have hsent : AllStreamJustified m (tr ++ [.macSend c.keys.streamAuthKey
      (streammacInput c (readyMessageType ok) .client x none (okByte ok)).bytes,
      .readySend c.keys c.clientId x ok]) := by
    refine h.add fun e he => ?_
    simp only [List.mem_cons, List.not_mem_nil, or_false] at he
    rcases he with rfl | rfl
    · exact .inr (.inr ⟨c, x, ok, rfl, rfl, by simp⟩)
    · exact ⟨md, List.mem_append_left _ hrecv⟩
  have hwire : ∀ sent : List Bytes, ∀ e ∈ sent.map (Effect.wire w.fd), e.Unbound := by
    intro sent e he
    obtain ⟨y, -, rfl⟩ := List.mem_map.mp he
    trivial
  exact .of_bind_pure (ctPlainSend_ends (fun sent => .ret ⟨rfl, hsent.unbound (hwire sent)⟩)
    fun sent => hsent.unbound (hwire sent))

end Client

end Ctunnel
