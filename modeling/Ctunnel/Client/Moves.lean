import Ctunnel.Client.Session
import Ctunnel.Net.KeyUses

/-!
# The moves of the client

Everything `client_session` does to its locals is a chain of the moves listed here. A
move carries what was checked before it and the keyed effects it has, so an
invariant of the client is checked once per move.
-/

namespace Ctunnel

open Lib

/-- An effect that neither makes nor uses a key. -/
def Effect.Unkeyed (e : Effect) : Prop := e.keyed = false

theorem Effect.Unkeyed.keyless {e : Effect} (h : e.Unkeyed) : e.Keyless := by
  refine ⟨?_, ?_⟩
  · cases e <;> first | rfl | exact absurd h (by simp [Effect.Unkeyed, Effect.keyed])
  · rintro call plain rfl
    exact absurd h (by simp [Effect.Unkeyed, Effect.keyed])

/-- What a call on a control channel does. -/
def ChannelMove (c : CtControl) (es : List Effect) (c' : CtControl) : Prop :=
  ControlMove c (keyed es) c'

inductive ClientMove (b : Build) (m : Monocypher) (s : ClientSession) :
    List Effect → ClientSession → Prop
  | idle {es : List Effect} (hes : ∀ e ∈ es, e.Keyless) : ClientMove b m s es s
  | sessions {es : List Effect} (udp : ClientUdpTable) (hes : ∀ e ∈ es, e.Keyless) :
      ClientMove b m s es { s with udp := udp }
  | channel {es : List Effect} {c : CtControl} (hmove : ChannelMove s.ctl es c) :
      ClientMove b m s es { s with ctl := c }
  /-- `ct_work_connect` succeeded. -/
  | connected {es : List Effect} (w : IdleWork) (hseq : s.ctl.workTxSeq ≠ uint64Max)
      (hid : workSequence w.connection.id = s.ctl.workTxSeq + 1) (hes : ∀ e ∈ es, e.Keyless) :
      ClientMove b m s es { s with
        ctl := { s.ctl with workTxSeq := s.ctl.workTxSeq + 1 }
        work := s.work ++ [w] }
  /-- `ct_work_connect` failed once it had a sequence number. -/
  | unconnected {es : List Effect} (hseq : s.ctl.workTxSeq ≠ uint64Max)
      (hes : ∀ e ∈ es, e.Keyless) :
      ClientMove b m s es { s with ctl := { s.ctl with workTxSeq := s.ctl.workTxSeq + 1 } }
  | waited (index : Nat) (ms : UInt64) :
      ClientMove b m s [] { s with
        work := s.work.modify index fun w => { w with readRetryAfterMs := ms } }
  /-- A work connection is given up, or its stream is refused. -/
  | dropped {es : List Effect} (index : Nat) (hes : ∀ e ∈ es, e.Keyless) :
      ClientMove b m s es { s with work := swapRemove s.work index }
  /-- A stream is accepted; `ct_relay_init` may fail. -/
  | opened {es K : List Effect} (index : Nat) (w : IdleWork) (k : Nat) (x : StreamContext)
      {r : CtRelay} (hw : s.work[index]? = some w) (hx : x.workId = w.connection.id)
      (hK : ∀ e ∈ K, e.Keyless) (hes : keyed es = K ++ relayDerives b .client s.ctl x)
      (hr : r.closed = true ∨ ∃ direct work,
        FreshRelay b m direct work true s.ctl.cipher s.ctl.keys.dataMaster x r) :
      ClientMove b m s es { s with
        work := swapRemove s.work index
        relays := Function.update s.relays k r }
  | relayed {es : List Effect} (k : Nat) {r : CtRelay}
      (hmove : RelayMove (s.relays k) (keyed es) r) :
      ClientMove b m s es { s with relays := Function.update s.relays k r }

/-- A session was derived after `tr`, and moved on from there. -/
inductive SessionOpened (b : Build) (m : Monocypher) (tr : List Effect) (s : ClientSession)
    (tr' : List Effect) : Prop
  | opened {es : List Effect} {shared : Octets 32} {t : Bytes} {keys : CtSessionKeys} (c : CtControl)
      (hkeys : ctDeriveSession b m shared t = some keys) (hc : c.keys = keys)
      (hclient : c.isClient = true) (hes : keyed es = [.deriveSession .client shared t])
      (hwalk : Walk (ClientMove b m) { ClientSession.blank with ctl := c } (tr ++ es) s tr')

variable {b : Build} {m : Monocypher} {cfg : CtConfig}

/-! ## Quiet calls -/

section Quiet

variable {σ α : Type}

theorem ctPlainSend_unkeyed {fd : Socket} {type : UInt8} {session stream : UInt64} {p : Bytes}
    {io : SendIo} :
    Call.Emits Effect.Unkeyed (ctPlainSend b fd type session stream p io : Call Effect σ Unit) := by
  have hwrite : ∀ (q : Bytes) (taken : Nat),
      Call.Emits Effect.Unkeyed (sendall fd q taken : Call Effect σ Unit) :=
    fun _ _ => .bind (.tell (by simp [Effect.Unkeyed, Effect.keyed])) fun _ => .check
  exact .bind .check fun _ => .bind .need fun _ => .bind (hwrite _ _) fun _ => hwrite _ _

theorem ctUdpSend_unkeyed {fd : Socket} {destination : CtEndpoint} {bytes : Bytes} {io : SendTo} :
    Call.Emits Effect.Unkeyed (ctUdpSend b fd destination bytes io : Call Effect σ Unit) := by
  refine .bind .check fun _ => ?_
  cases io with
  | sent n => exact .bind (.tell (by simp [Effect.Unkeyed, Effect.keyed])) fun _ => .check
  | wouldBlock => exact .pure
  | failed => exact .need

theorem clientUdpCloseEffects_unkeyed (x : ClientUdpSession) (expired : Bool) :
    ∀ e ∈ clientUdpCloseEffects x expired, e.Unkeyed := by
  unfold clientUdpCloseEffects
  cases x.active <;> cases expired <;> simp [Effect.Unkeyed, Effect.keyed]

theorem clientUdpCreate_unkeyed {d : UdpFrame} {now : UInt64} {io : UdpCreateIo} :
    Call.Emits Effect.Unkeyed (clientUdpCreate b cfg d now io) := by
  refine .bind .need fun _ => .bind .get fun _ => ?_
  refine .bind (.onFail (by simp [Effect.Unkeyed, Effect.keyed]) .check) fun _ => .bind .need fun _ => ?_
  refine .bind .need fun _ => .bind (.tell (by simp [Effect.Unkeyed, Effect.keyed])) fun _ => ?_
  refine .bind (.onFail (by simp [Effect.Unkeyed, Effect.keyed]) .need) fun _ => .bind .modify fun _ => ?_
  exact .bind (.tell (by simp [Effect.Unkeyed, Effect.keyed])) fun _ => .pure

theorem clientUdpFromServer_unkeyed {payload : Bytes} {now : UInt64} {io : UdpFromServerIo} :
    Call.Emits Effect.Unkeyed (clientUdpFromServer b cfg payload now io) := by
  refine .bind (.onFail (by simp [Effect.Unkeyed, Effect.keyed]) .need) fun d => ?_
  refine .bind .get fun t => .bind (.attempt ?_) fun found => .bind .get fun t => ?_
  · split
    · exact .pure
    · exact clientUdpCreate_unkeyed
  · split
    · exact .tell (by simp [Effect.Unkeyed, Effect.keyed])
    · refine .bind .get fun _ => .ite (fun _ => .tell (by simp [Effect.Unkeyed, Effect.keyed])) fun _ => ?_
      split
      · exact .tell (by simp [Effect.Unkeyed, Effect.keyed])
      · refine .bind .modify fun _ => .bind (.onFail ?_ ctUdpSend_unkeyed) fun _ => ?_
        · simp [Effect.Unkeyed, Effect.keyed]
        · exact .tell (by simp [Effect.Unkeyed, Effect.keyed])

theorem clientUdpExpire_unkeyed {now : UInt64} :
    Call.Emits Effect.Unkeyed (clientUdpExpire b now) := by
  refine .bind .get fun t => .bind .modify fun _ => .tell fun e he => ?_
  obtain ⟨i, -, he⟩ := List.mem_flatMap.mp he
  split at he
  · exact clientUdpCloseEffects_unkeyed _ _ e he
  · exact absurd he (by simp)

theorem offeredService_unkeyed (cfg : CtConfig) (x : StreamContext) (md : CtStreamMetadata) :
    ∀ e ∈ (offeredService cfg x md).2, e.Unkeyed := by
  unfold offeredService
  split
  · simp
  · split <;> simp [Effect.Unkeyed, Effect.keyed]

theorem clientDoneEffects_unkeyed (s : ClientSession) :
    ∀ e ∈ clientDoneEffects b s, e.Unkeyed := by
  intro e he
  simp only [clientDoneEffects, List.mem_append, List.mem_map, List.mem_flatMap,
    List.mem_singleton] at he
  rcases he with (((⟨w, -, rfl⟩ | ⟨w, -, rfl⟩) | ⟨k, -, he⟩) | he) | rfl
  · rfl
  · rfl
  · split at he
    · exact absurd he (by simp)
    · exact keyed_of_quiet (ctRelayClose_quiet b _ e he)
  · split at he
    · obtain ⟨i, -, he⟩ := List.mem_flatMap.mp he
      exact clientUdpCloseEffects_unkeyed _ _ e he
    · exact absurd he (by simp)
  · rfl

end Quiet

/-! ## The control channel -/

theorem ctControlSend_channel {type : UInt8} {stream : UInt64} {p : Bytes} {io : SendIo} :
    Call.Walks ChannelMove (ctControlSend b m type stream p io) := by
  intro c₀ tr₀ c tr h
  have hsent : ∀ c' tr', ControlSent b m type stream p c tr c' tr' →
      Walk ChannelMove c₀ tr₀ c' tr' := by
    intro c' tr' hs
    obtain ⟨K, ⟨es, rfl, hes⟩, hmove, -⟩ := hs.since
    exact h.step (show ControlMove c (keyed es) c' from hes.keyed ▸ hmove)
  exact (ctControlSend_ends b m type stream p io c tr).mono (fun _ c' tr' => hsent c' tr') hsent

theorem ctControlRecv_channel {cap : Nat} {io : RecvIo} :
    Call.Walks ChannelMove (ctControlRecv b m cap io) := by
  intro c₀ tr₀ c tr h
  have hreceived : ∀ v c' tr', ControlReceived b m c tr v c' tr' →
      Walk ChannelMove c₀ tr₀ c' tr' := by
    intro v c' tr' hr
    obtain ⟨⟨es, rfl, hes⟩, hmove, -⟩ := hr.since
    exact h.step (show ControlMove c (keyed es) c' from hes.keyed ▸ hmove)
  exact (ctControlRecv_ends b m cap io c tr).mono (fun v c' tr' => hreceived (some v) c' tr')
    (hreceived none)

theorem registerReplies_channel {id : CString} {replies : List (RecvIo × SendIo)} :
    Call.Walks ChannelMove (registerReplies b m id replies) := by
  induction replies with
  | nil => exact .need
  | cons x rest ih =>
      obtain ⟨recv, pong⟩ := x
      refine .bind ctControlRecv_channel fun _ => .ite (fun _ => ?_) fun _ => ?_
      · exact .bind ctControlSend_channel fun _ => ih
      · exact .ite (fun _ => ih) fun _ => .bind .check fun _ => .bind .need fun _ => .check

theorem clientRegister_channel {io : Nat → ClientRegisterIo} {i : Nat}
    {services : List CtServiceConfig} :
    Call.Walks ChannelMove (clientRegister b m io i services) := by
  induction services generalizing i with
  | nil => exact .pure
  | cons x rest ih =>
      exact .bind .need fun _ => .bind ctControlSend_channel fun _ =>
        .bind registerReplies_channel fun _ => ih

/-! ## The handshake -/

theorem clientHello_unkeyed {fd : Socket} {io : ClientHandshakeIo} :
    Call.Emits Effect.Unkeyed (clientHello b m fd cfg io) := by
  refine .bind .modify fun _ => .bind .need fun _ => .bind .need fun _ => .bind .need fun _ => ?_
  refine .bind .need fun _ => .bind .need fun _ => .bind ctPlainSend_unkeyed fun _ => ?_
  refine .bind .need fun _ => .bind .check fun _ => .bind .check fun _ => .bind .need fun _ => ?_
  exact .bind (.tell (by simp [Effect.Unkeyed, Effect.keyed])) fun _ => .pure

/-- The keyed effects of a handshake that got as far as its keys. -/
def SessionDerived (b : Build) (m : Monocypher) (tr : List Effect) (keys : CtSessionKeys)
    (tr' : List Effect) : Prop :=
  ∃ shared t, ctDeriveSession b m shared t = some keys ∧
    Added tr [.deriveSession .client shared t] tr'

theorem clientAuth_derives (fd : Socket) (io : ClientHandshakeIo) (k : ClientHello) (c : CtControl)
    (tr : List Effect) :
    (clientAuth b m fd cfg io k c).Ends tr
      (fun _ c' tr' => c'.isClient = true ∧ SessionDerived b m tr c'.keys tr')
      (fun _ tr' => Added tr [] tr' ∨ ∃ keys, SessionDerived b m tr keys tr') := by
  have hquiet : ∀ (es : List Effect) {tr' : List Effect}, Added tr [] tr' →
      (∀ e ∈ es, e.Unkeyed) → Added tr [] (tr' ++ es) := fun _ _ h hes => h.plain hes
  refine .tell ?_
  have hver := hquiet [.verify k.serverpk (signatureMessage m .server k.tr)
    (m.eddsaCheck k.signature k.serverpk (signatureMessage m .server k.tr))] (.refl tr)
    (by simp [Effect.Unkeyed, Effect.keyed])
  refine .check (fun _ => .tell ?_) fun _ => .inl hver
  have hsign := hquiet [.sign k.idsk (signatureMessage m .client k.tr)] hver
    (by simp [Effect.Unkeyed, Effect.keyed])
  have hsent := fun sent : List Bytes => hquiet (sent.map (Effect.wire fd)) hsign fun e he => by
    obtain ⟨x, -, rfl⟩ := List.mem_map.mp he
    rfl
  refine ctPlainSend_ends (fun sent => ?_) fun sent => .inl (hsent sent)
  refine .need (fun shared _ => .modify ?_) fun _ => .inl (hsent sent)
  refine .check (fun _ => .need (fun keys hkeys => .tell (.modify ?_)) fun _ => .inl (hsent sent))
    fun _ => .inl (hsent sent)
  have hderived : Added tr [.deriveSession .client shared k.tr] _ :=
    (hsent sent).append [.deriveSession .client shared k.tr]
  refine .bind (Q := fun _ c' tr' => c'.isClient = true ∧ SessionDerived b m tr c'.keys tr')
    ((ctControlRecv_ends b m b.controlBufferSize io.authOk _ _).mono ?_ ?_) ?_
  · intro v c' tr' hr
    obtain ⟨hadded, hmove⟩ := hr.move
    refine ⟨hmove.same.isClient, shared, k.tr, ?_, ?_⟩
    · rw [hmove.same.keys]
      exact hkeys
    · simpa using hderived.trans hadded
  · intro c' tr' hr
    exact .inr ⟨keys, shared, k.tr, hkeys, by simpa using hderived.trans hr.move.1⟩
  · rintro ⟨h, reply⟩ c' tr' ⟨hclient, hs⟩
    refine .check (fun _ => .tell ?_) fun _ => .inr ⟨c'.keys, hs⟩
    refine .of_bind_pure (.modify (.ret ⟨hclient, ?_⟩))
    obtain ⟨shared', t', hkeys', hadded⟩ := hs
    exact ⟨shared', t', hkeys', hadded.plain (by simp [Effect.keyed])⟩

theorem ctHandshakeClient_derives (fd : Socket) (io : ClientHandshakeIo) (c : CtControl)
    (tr : List Effect) :
    (ctHandshakeClient b m fd cfg io c).Ends tr
      (fun _ c' tr' => c'.isClient = true ∧ SessionDerived b m tr c'.keys tr')
      (fun _ tr' => Added tr [] tr' ∨ ∃ keys, SessionDerived b m tr keys tr') := by
  have hhello : Added tr [] (tr ++ (clientHello b m fd cfg io c).effects) :=
    (Added.refl tr).plain (clientHello_unkeyed c)
  refine .rollback (.bind (Q := fun _ _ tr' => Added tr [] tr') ?_ ?_)
  · exact .mk (fun _ _ => hhello) fun _ => .inl hhello
  · intro k c' tr' h
    have hderived : ∀ {keys tr''}, SessionDerived b m tr' keys tr'' →
        SessionDerived b m tr keys tr'' := by
      rintro keys tr'' ⟨shared, t, hkeys, hadded⟩
      exact ⟨shared, t, hkeys, by simpa using h.trans hadded⟩
    refine (clientAuth_derives fd io k c' tr').mono ?_ ?_
    · rintro - c'' tr'' ⟨hclient, hs⟩
      exact ⟨hclient, hderived hs⟩
    · rintro - tr'' (hadded | ⟨keys, hs⟩)
      · exact .inl (by simpa using h.trans hadded)
      · exact .inr ⟨keys, hderived hs⟩

end Ctunnel
