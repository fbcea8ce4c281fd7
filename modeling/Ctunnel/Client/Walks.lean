import Ctunnel.Client.Moves
import Ctunnel.Net.StreamTrace

/-!
# Every call of the client is a walk

One lemma per function of the client: it goes on with moves, whether it succeeds or
fails. `clientStep_walks` puts the events together: a session that opens was
derived, and moved on from there.
-/

namespace Ctunnel

open Lib

variable {b : Build} {m : Monocypher} {cfg : CtConfig} {tr : List Effect}

/-- What a call adds has `P`. -/
theorem Lib.Call.Emits.added {σ α : Type} {P : Effect → Prop} {x : Call Effect σ α}
    (hx : Call.Emits P x) (s : σ) (tr : List Effect) :
    (x s).Ends tr (fun _ _ tr' => ∃ es, tr' = tr ++ es ∧ ∀ e ∈ es, P e)
      (fun _ tr' => ∃ es, tr' = tr ++ es ∧ ∀ e ∈ es, P e) :=
  .mk (fun _ _ => ⟨_, rfl, hx s⟩) fun _ => ⟨_, rfl, hx s⟩

theorem Lib.Walk.keyless {s s' : ClientSession} {tr' es : List Effect}
    (h : Walk (ClientMove b m) s tr s' tr') (hes : ∀ e ∈ es, e.Unkeyed) :
    Walk (ClientMove b m) s tr s' (tr' ++ es) :=
  h.step (.idle fun e he => (hes e he).keyless)

theorem onClientControl_walks {α : Type} {x : Call Effect CtControl α}
    (hx : Call.Walks ChannelMove x) : Call.Walks (ClientMove b m) (onClientControl x) :=
  .zoom hx (fun _ => rfl) fun s c es c' hmove =>
    (.channel hmove : ClientMove b m { s with ctl := c } es { s with ctl := c' })

theorem onClientUdp_walks {α : Type} {x : Call Effect ClientUdpTable α}
    (hx : Call.Emits Effect.Unkeyed x) : Call.Walks (ClientMove b m) (onClientUdp x) :=
  .of_step fun s => .sessions _ fun e he => (hx s.udp e he).keyless

theorem tell_walks {es : List Effect} (hes : ∀ e ∈ es, e.Unkeyed) :
    Call.Walks (ClientMove b m) (Call.tell es) :=
  .tell fun _ => .idle fun e he => (hes e he).keyless

theorem readRetry_walks (ms : UInt64) :
    Call.Walks (ClientMove b m)
      (Call.modify fun s => { s with ctl := { s.ctl with readRetryAfterMs := ms } }) :=
  .modify fun s => .channel ((ControlMove.quiet (.refl s.ctl) (Nat.le_refl _)).timed
    s.ctl.lastRxMs s.ctl.lastTxMs ms)

/-! ## Work connections -/

theorem ctWorkConnect_keyless {io : WorkConnectIo} :
    Call.Emits Effect.Keyless (ctWorkConnect b m io) := by
  refine .bind .need fun fd => .bind (.tell (by simp [Effect.Keyless, Effect.sealInput])) fun _ => ?_
  refine .onFail (by simp [Effect.Keyless, Effect.sealInput]) (.bind .get fun c => ?_)
  refine .bind .check fun _ => .bind .modify fun _ => .bind .need fun random => ?_
  refine .bind (.tell (by simp [Effect.Keyless, Effect.sealInput])) fun _ => ?_
  exact .bind (ctPlainSend_unkeyed.mono fun _ h => h.keyless) fun _ => .pure

/-- The sequence number of a work connection is the next one. -/
theorem ctWorkConnect_counts (io : WorkConnectIo) (c : CtControl) (tr : List Effect) :
    (ctWorkConnect b m io c).Ends tr
      (fun w c' _ => c.workTxSeq ≠ uint64Max ∧ workSequence w.id = c.workTxSeq + 1 ∧
        c' = { c with workTxSeq := c.workTxSeq + 1 })
      (fun c' _ => c' = c ∨
        c.workTxSeq ≠ uint64Max ∧ c' = { c with workTxSeq := c.workTxSeq + 1 }) := by
  refine .need (fun fd _ => .tell (.onFail (.get (.check (fun hseq => .modify ?_) fun _ => .inl rfl))))
    fun _ => .inl rfl
  have hcounted : c.workTxSeq ≠ uint64Max ∧ ({ c with workTxSeq := c.workTxSeq + 1 } : CtControl) =
      { c with workTxSeq := c.workTxSeq + 1 } := ⟨hseq, rfl⟩
  refine .need (fun random _ => .tell (ctPlainSend_ends (fun sent => .ret ?_) fun _ => .inr hcounted))
    fun _ => .inr hcounted
  exact ⟨hseq, ctGetU64_put _ _, rfl⟩

theorem addWork_walks {io : WorkConnectIo} : Call.Walks (ClientMove b m) (addWork b m io) := by
  refine .bind (tell_walks (by simp [Effect.Unkeyed, Effect.keyed])) fun _ => .get fun _ => ?_
  refine .bind .check fun _ => fun s₀ tr₀ s tr h => ?_
  have hfailed : ∀ {s' tr'}, Walk (ClientMove b m) s₀ tr₀ s' tr' →
      Walk (ClientMove b m) s₀ tr₀ s' (tr' ++ [.inc .workConnectFailuresTotal]) :=
    fun h => h.keyless (by simp [Effect.Unkeyed, Effect.keyed])
  refine .bind (Q := fun w s' tr' => s.ctl.workTxSeq ≠ uint64Max ∧
      workSequence w.id = s.ctl.workTxSeq + 1 ∧
      s' = { s with ctl := { s.ctl with workTxSeq := s.ctl.workTxSeq + 1 } } ∧
      ∃ es, tr' = tr ++ es ∧ ∀ e ∈ es, e.Keyless) (.onFail (.zoom
    (((ctWorkConnect_counts io s.ctl tr).and (ctWorkConnect_keyless.added s.ctl tr)).mono ?_ ?_))) ?_
  · rintro w c' tr' ⟨⟨hseq, hid, rfl⟩, hadded⟩
    exact ⟨hseq, hid, rfl, hadded⟩
  · rintro c' tr' ⟨rfl | ⟨hseq, rfl⟩, es, rfl, hes⟩
    · exact hfailed (h.step (.idle hes))
    · exact hfailed (h.step (.unconnected hseq hes))
  · rintro w s' tr' ⟨hseq, hid, rfl, es, rfl, hes⟩
    have hconnected : Walk (ClientMove b m) s₀ tr₀ _ (tr ++ es) :=
      h.step (.connected ⟨w, 0⟩ hseq hid hes)
    refine .modify (.of_bind_pure (.tell (.ret ?_)))
    exact hconnected.keyless (by simp [Effect.Unkeyed, Effect.keyed])

theorem fillPool_walks {target : Nat} {io : Nat → WorkConnectIo} (fuel : Nat) :
    Call.Walks (ClientMove b m) (fillPool b m target io fuel) := by
  induction fuel with
  | zero => exact .pure
  | succ fuel ih =>
      unfold fillPool
      refine .get fun s => .ite (fun _ => .bind (.attempt addWork_walks) fun added => ?_) fun _ => .pure
      cases added with
      | some _ => exact ih
      | none => exact .pure

/-! ## Streams -/

section Streams

variable {σ : Type}

theorem ctStartStreamRecv_accepts (w : CtWork) (c : CtControl) (inbox stale : Bytes) (s : σ)
    (tr : List Effect) :
    (ctStartStreamRecv b m w c inbox stale s).Ends tr
      (fun v s' tr' => s' = s ∧ v.1.workId = w.id ∧ ∃ es, tr' = tr ++ es ∧ ∀ e ∈ es, e.Keyless)
      (fun s' tr' => s' = s ∧ ∃ es, tr' = tr ++ es ∧ ∀ e ∈ es, e.Keyless) := by
  have hnone : s = s ∧ ∃ es, tr = tr ++ es ∧ ∀ e ∈ es, e.Keyless := ⟨rfl, [], by simp⟩
  refine .need (fun v _ => .check (fun _ => .need (fun y hy => .need (fun mac hmac => ?_)
    fun _ => hnone) fun _ => hnone) fun _ => hnone) fun _ => hnone
  obtain ⟨x, md, o⟩ := y
  refine .tell (.check (fun _ => .tell (.ret ⟨rfl, startStreamParse_work hy, ?_⟩)) fun _ => ⟨rfl, ?_⟩)
  · exact ⟨_, List.append_assoc .., by simp [Effect.Keyless, Effect.sealInput]⟩
  · exact ⟨_, rfl, by simp [Effect.Keyless, Effect.sealInput]⟩

theorem ctStreamReadySend_answers (w : CtWork) (c : CtControl) (id : CString) (mode : CtEncMode)
    (stream : UInt64) (rnd : Octets 32) (ok : Bool) (io : SendIo) (s : σ) (tr : List Effect) :
    (ctStreamReadySend b m w c id mode stream rnd ok io s).Ends tr
      (fun _ s' tr' => s' = s ∧ ∃ es, tr' = tr ++ es ∧ ∀ e ∈ es, e.Keyless)
      (fun s' tr' => s' = s ∧ ∃ es, tr' = tr ++ es ∧ ∀ e ∈ es, e.Keyless) := by
  have hkeyless : Call.Emits Effect.Keyless
      (ctStreamReadySend b m w c id mode stream rnd ok io : Call Effect σ Unit) := by
    refine .bind .need fun _ => .bind .need fun _ => ?_
    refine .bind (.tell (by simp [Effect.Keyless, Effect.sealInput])) fun _ => ?_
    exact ctPlainSend_unkeyed.mono fun _ h => h.keyless
  have hsame : Call.Keeps (fun s' => s' = s)
      (ctStreamReadySend b m w c id mode stream rnd ok io : Call Effect σ Unit) :=
    .bind .need fun _ => .bind .need fun _ => .bind .tell fun _ => ctPlainSend_keeps
  exact ((hsame.ends rfl tr).and (hkeyless.added s tr)).mono (fun _ _ _ h => h) fun _ _ h => h

end Streams

/-- What `clientStream` does with a work connection that was taken out of the pool. -/
def StreamTaken (b : Build) (m : Monocypher) (w : CtWork) (s : ClientSession) (tr : List Effect)
    (s' : ClientSession) (tr' : List Effect) : Prop :=
  (s' = s ∧ ∃ es, tr' = tr ++ es ∧ ∀ e ∈ es, e.Keyless) ∨
    ∃ K k x r es, tr' = tr ++ es ∧ x.workId = w.id ∧ (∀ e ∈ K, e.Keyless) ∧
      keyed es = K ++ relayDerives b .client s.ctl x ∧
      (r.closed = true ∨ ∃ direct work,
        FreshRelay b m direct work true s.ctl.cipher s.ctl.keys.dataMaster x r) ∧
      s' = { s with relays := Function.update s.relays k r }

theorem StreamTaken.quiet {w : CtWork} {s s' : ClientSession} {tr' es : List Effect}
    (h : StreamTaken b m w s tr s' tr') (hes : ∀ e ∈ es, e.Unkeyed) :
    StreamTaken b m w s tr s' (tr' ++ es) := by
  rcases h with ⟨rfl, es', rfl, hes'⟩ | ⟨K, k, x, r, es', rfl, hx, hK, hkeyed, hr, rfl⟩
  · refine .inl ⟨rfl, es' ++ es, List.append_assoc .., fun e he => ?_⟩
    exact (List.mem_append.mp he).elim (hes' e) fun he => (hes e he).keyless
  · refine .inr ⟨K, k, x, r, es' ++ es, List.append_assoc .., hx, hK, ?_, hr, rfl⟩
    rw [keyed_append, keyed_eq_nil hes, List.append_nil, hkeyed]

theorem clientStream_taken (w : CtWork) (io : ClientWorkIo) (s : ClientSession) (tr : List Effect) :
    (clientStream b m cfg w io s).Ends tr (fun _ => StreamTaken b m w s tr)
      (StreamTaken b m w s tr) := by
  have hidle : ∀ {s' tr'}, (s' = s ∧ ∃ es, tr' = tr ++ es ∧ ∀ e ∈ es, e.Keyless) →
      StreamTaken b m w s tr s' tr' := .inl
  refine .get (.bind (.onFail ((ctStartStreamRecv_accepts w s.ctl (io.queued.inbox io.more) io.stale s
    tr).mono (fun _ _ _ => id) fun _ _ h => ?_)) ?_)
  · exact (hidle h).quiet (by simp [Effect.Unkeyed, Effect.keyed])
  rintro ⟨x, md⟩ s' tr' ⟨rfl, hx, hadded⟩
  have hoffered := offeredService_unkeyed cfg x md
  dsimp only
  generalize offeredService cfg x md = offered at hoffered ⊢
  obtain ⟨service, mismatch⟩ := offered
  refine .tell ?_
  obtain ⟨es₀, rfl, hes₀⟩ := hadded
  have hes₁ : ∀ e ∈ es₀ ++ mismatch, e.Keyless := fun e he =>
    (List.mem_append.mp he).elim (hes₀ e) fun he => (hoffered e he).keyless
  rw [List.append_assoc]
  generalize es₀ ++ mismatch = es₁ at hes₁ ⊢
  cases service.bind fun _ => io.connected with
  | none =>
      refine .bind (Q := fun _ => StreamTaken b m w s' tr) (.attempt
        ((ctStreamReadySend_answers w s'.ctl x.serviceId x.mode x.stream x.random false io.ready s' _).mono
          ?_ ?_)) fun _ s'' tr'' h'' => ?_
      · rintro _ s'' tr'' ⟨rfl, es, rfl, hes⟩
        refine hidle ⟨rfl, es₁ ++ es, List.append_assoc .., fun e he => ?_⟩
        exact (List.mem_append.mp he).elim (hes₁ e) (hes e)
      · rintro s'' tr'' ⟨rfl, es, rfl, hes⟩
        refine hidle ⟨rfl, es₁ ++ es, List.append_assoc .., fun e he => ?_⟩
        exact (List.mem_append.mp he).elim (hes₁ e) (hes e)
      · exact .of_bind_pure (.tell (.ret (h''.quiet (by simp [Effect.Unkeyed, Effect.keyed]))))
  | some localFd =>
      have hes₂ : ∀ e ∈ es₁ ++ [.socketOpen localFd], e.Keyless := fun e he =>
        (List.mem_append.mp he).elim (hes₁ e) fun he => by
          rw [List.mem_singleton.mp he]
          exact ⟨rfl, by simp⟩
      refine .tell ?_
      rw [List.append_assoc]
      generalize es₁ ++ [.socketOpen localFd] = es₂ at hes₂ ⊢
      have hclosed : ∀ {s'' tr''}, StreamTaken b m w s' tr s'' tr'' →
          StreamTaken b m w s' tr s'' (tr'' ++ [.socketClose localFd, .socketClose w.fd]) :=
        fun h => h.quiet (by simp [Effect.Unkeyed, Effect.keyed])
      refine .bind (Q := fun _ => StreamTaken b m w s' tr) (.attempt (.onFail ?_))
        fun _ _ _ hend => .ret hend
      refine .get (.need (fun k _ => ?_) fun _ => hclosed (hidle ⟨rfl, es₂, rfl, hes₂⟩))
      refine .bind ((ctStreamReadySend_answers w s'.ctl x.serviceId x.mode x.stream x.random true
        io.ready s' _).mono (fun _ _ _ => id) ?_) ?_
      · rintro s'' tr'' ⟨rfl, es, rfl, hes⟩
        refine hclosed (hidle ⟨rfl, es₂ ++ es, List.append_assoc .., fun e he => ?_⟩)
        exact (List.mem_append.mp he).elim (hes₂ e) (hes e)
      · rintro _ s'' tr'' ⟨rfl, es, rfl, hes⟩
        have htaken : ∀ {S : List Effect} {r : CtRelay} {tr'' : List Effect},
            Since (tr ++ es₂ ++ es) S (relayDerives b .client s''.ctl x) tr'' →
            (r.closed = true ∨ ∃ direct work,
              FreshRelay b m direct work true s''.ctl.cipher s''.ctl.keys.dataMaster x r) →
            StreamTaken b m w s'' tr { s'' with relays := Function.update s''.relays k r } tr'' := by
          rintro S r tr'' ⟨es', rfl, hdoes⟩ hr
          refine .inr ⟨keyed (es₂ ++ es), k, x, r, es₂ ++ es ++ es', by simp, hx, ?_, ?_, hr, rfl⟩
          · intro e he
            exact (List.mem_append.mp (List.mem_of_mem_filter he)).elim (hes₂ e) (hes e)
          · rw [keyed_append, hdoes.keyed]
        refine .zoom ((relayInit_ends .client s''.ctl _ _ _).mono ?_ ?_)
        · rintro _ r tr'' ⟨hsince, hr⟩
          exact htaken hsince (.inr ⟨_, _, hr⟩)
        · rintro r tr'' ⟨hr, hsince⟩
          exact hclosed (htaken hsince (.inl hr))

theorem clientWorkEvent_walks {fd : Socket} {io : ClientWorkIo} :
    Call.Walks (ClientMove b m) (clientWorkEvent b m cfg fd io) := by
  intro s₀ tr₀ s tr h
  refine .get ?_
  cases hindex : s.work.findIdx? fun w => w.connection.fd == fd with
  | none => exact .ret h
  | some index =>
      obtain ⟨hlt, -⟩ := List.findIdx?_eq_some_iff_getElem.mp hindex
      have hw : s.work[index]? = some s.work[index] := List.getElem?_eq_getElem hlt
      dsimp only
      rw [hw]
      cases ctPlainFrameAvailable b b.controlBufferSize io.queued with
      | failed =>
          refine .modify (.of_bind_pure (.tell (.ret (h.step (.dropped index ?_)))))
          simp [Effect.Keyless, Effect.sealInput]
      | later => exact .of_bind_pure (.modify (.ret (h.silent (.waited index (io.now + 50)))))
      | frame hd =>
          have htaken : ∀ {s' tr'}, StreamTaken b m s.work[index].connection
              { s with work := swapRemove s.work index } (tr ++ [.dec .workIdle]) s' tr' →
              Walk (ClientMove b m) s₀ tr₀ s' tr' := by
            rintro s' tr' (⟨rfl, es, rfl, hes⟩ | ⟨K, k, x, r, es, rfl, hx, hK, hkeyed, hr, rfl⟩)
            · rw [List.append_assoc]
              refine h.step (.dropped index fun e he => ?_)
              exact (List.mem_cons.mp he).elim (fun he => by rw [he]; exact ⟨rfl, by simp⟩) (hes e)
            · rw [List.append_assoc]
              exact h.step (.opened index s.work[index] k x hw hx hK hkeyed hr)
          refine .modify (.tell (.bind (Q := fun _ => Walk (ClientMove b m) s₀ tr₀)
            (.attempt ((clientStream_taken s.work[index].connection io _ _).mono
              (fun _ _ _ => htaken) fun _ _ => htaken)) fun received s' tr' h' => ?_))
          cases received with
          | some _ => exact fillPool_walks _ _ _ _ _ h'
          | none => exact .ret h'

/-! ## Events -/

theorem clientUdpFromLocal_walks {i : Nat} {io : UdpLocalIo} :
    Call.Walks (ClientMove b m) (clientUdpFromLocal b m i io) := by
  refine .get fun s => ?_
  split
  · exact .need
  · exact .pure
  · refine .ite (fun _ => tell_walks (by simp [Effect.Unkeyed, Effect.keyed])) fun _ => ?_
    refine .bind (.modify fun _ => .sessions _ (by simp)) fun _ => ?_
    refine .bind (.onFail (fun _ => .idle (by simp [Effect.Keyless, Effect.sealInput])) ?_) fun _ => ?_
    · exact .bind .need fun _ => onClientControl_walks ctControlSend_channel
    · exact tell_walks (by simp [Effect.Unkeyed, Effect.keyed])

theorem clientControlEvent_walks {io : ClientControlIo} :
    Call.Walks (ClientMove b m) (clientControlEvent b m cfg io) := by
  unfold clientControlEvent
  split
  · exact .need
  · exact readRetry_walks _
  · refine .bind (readRetry_walks 0) fun _ => .bind (onClientControl_walks ctControlRecv_channel) ?_
    intro v
    refine .ite (fun _ => onClientControl_walks ctControlSend_channel) fun _ => ?_
    refine .ite (fun _ => .pure) fun _ => .ite (fun _ => ?_) fun _ => ?_
    · exact .bind (.attempt addWork_walks) fun _ => .pure
    · exact .ite (fun _ => onClientUdp_walks clientUdpFromServer_unkeyed) fun _ => .need

theorem clientTick_walks {io : ClientTickIo} :
    Call.Walks (ClientMove b m) (clientTick b m cfg io) := by
  refine .ite (fun _ => .bind (onClientUdp_walks clientUdpExpire_unkeyed) fun _ => ?_) fun _ => ?_
  all_goals
    refine .get fun s => .bind .check fun _ => .ite (fun _ => ?_) fun _ => .pure
    exact onClientControl_walks ctControlSend_channel

/-- An event on a relay, on the socket that `fd` picks. -/
theorem clientRelay_walks (k : Nat) (fd : CtRelay → Socket) (ev : EvMask) (io : RelayIo) :
    Call.Walks (ClientMove b m)
      (onClientRelay k (Call.ofOutcome fun r => ctRelayProcess b m (fd r) ev io r)) := by
  refine .of_step fun s => ?_
  obtain ⟨L, ⟨es, hes, hL⟩, hmove⟩ := ctRelayProcess_move (b := b) (m := m) (fd (s.relays k)) ev io
    (s.relays k) []
  rw [List.nil_append, List.nil_append] at hes
  rw [← hes] at hL
  rw [← hL] at hmove
  exact .relayed k hmove

theorem sessionEvent_walks (ev : ClientEvent) :
    Call.Walks (ClientMove b m) (sessionEvent b m cfg ev) := by
  cases ev with
  | connect io => exact .pure
  | control io => exact clientControlEvent_walks
  | work fd io => exact clientWorkEvent_walks
  | udpLocal i io => exact clientUdpFromLocal_walks
  | relay k side ev io => exact .bind (.attempt (clientRelay_walks k _ ev io)) fun _ => .pure
  | tick io => exact clientTick_walks
  | stop goaway => exact .need

theorem sayGoaway_walks (io : Option SendIo) : Call.Walks (ClientMove b m) (sayGoaway b m io) := by
  cases io with
  | none => exact .pure
  | some io => exact .bind (.attempt (onClientControl_walks ctControlSend_channel)) fun _ => .pure

theorem sessionCall_walks (ev : ClientEvent) :
    Call.Walks (ClientMove b m) (sessionCall b m cfg ev) := by
  refine .bind (.attempt (sessionEvent_walks ev)) fun handled => ?_
  cases handled with
  | some _ => exact .pure
  | none => exact .bind (sayGoaway_walks _) fun _ => .need

/-! ## Sessions that come and go -/

theorem clientConnect_opens {io : ClientConnectIo} :
    (clientConnect b m cfg io .blank).Ends tr (fun _ s' tr' => SessionOpened b m tr s' tr')
      (fun _ tr' => Added tr [] tr' ∨ ∃ s', SessionOpened b m tr s' tr') := by
  refine .need (fun fd _ => .tell ?_) fun _ => .inl (.refl tr)
  have hopen : Added tr [] (tr ++ [.socketOpen fd]) := (Added.refl tr).plain (by simp [Effect.keyed])
  -- the session with its keys, before its first frame
  have hderived : ∀ {c : CtControl} {tr' : List Effect}, c.isClient = true →
      SessionDerived b m (tr ++ [.socketOpen fd]) c.keys tr' →
      SessionOpened b m tr { ClientSession.blank with ctl := c } tr' := by
    rintro c tr' hclient ⟨shared, t, hkeys, hadded⟩
    obtain ⟨es, rfl, hes⟩ := hopen.trans hadded
    exact .opened c hkeys rfl hclient hes .start
  have hclosed : ∀ {s' tr'}, SessionOpened b m tr s' tr' →
      SessionOpened b m tr s' (tr' ++ [.socketClose fd]) := by
    rintro s' tr' ⟨c, hkeys, hc, hclient, hes, hwalk⟩
    exact .opened c hkeys hc hclient hes (hwalk.keyless (by simp [Effect.Unkeyed, Effect.keyed]))
  have hwalks : ∀ {α : Type} {x : Call Effect ClientSession α} {s' tr'},
      Call.Walks (ClientMove b m) x → SessionOpened b m tr s' tr' →
      (x s').Ends tr' (fun _ => SessionOpened b m tr) (SessionOpened b m tr) := by
    rintro α x s' tr' hx ⟨c, hkeys, hc, hclient, hes, hwalk⟩
    exact (hx _ _ _ _ hwalk).mono (fun _ _ _ h => .opened c hkeys hc hclient hes h)
      fun _ _ h => .opened c hkeys hc hclient hes h
  refine .bind (Q := fun _ => SessionOpened b m tr) (.onFail (.bind
    (Q := fun _ => SessionOpened b m tr) (.zoom ((ctHandshakeClient_derives fd io.handshake _ _).mono
      ?_ ?_)) ?_)) ?_
  · rintro _ c tr' ⟨hclient, hs⟩
    exact hderived hclient hs
  · rintro _ tr' (hadded | ⟨keys, hs⟩)
    · exact .inl ((hopen.trans hadded).plain (by simp [Effect.keyed]))
    · refine .inr ⟨_, hclosed (hderived (c := { CtControl.zero with
        isClient := true
        keys := keys }) rfl hs)⟩
  · intro _ s' tr' h
    refine .bind ((hwalks (onClientControl_walks clientRegister_channel) h).mono (fun _ _ _ => id)
      fun _ _ h' => .inr ⟨_, hclosed h'⟩) fun _ s'' tr'' h' => ?_
    exact .of_bind_pure (.check (fun _ => .ret h') fun _ => .inr ⟨_, hclosed h'⟩)
  · intro _ s' tr' h
    exact (hwalks (fillPool_walks _) h).mono (fun _ _ _ => id) fun _ _ h' => .inr ⟨_, h'⟩

/-- Everything an event can do to the client: `s` and `s'` are its session, if it has one. -/
inductive ClientStepped (b : Build) (m : Monocypher) (tr : List Effect) :
    Option ClientSession → Option ClientSession → List Effect → Prop
  | idle {s : Option ClientSession} {tr' : List Effect} (h : Added tr [] tr') :
      ClientStepped b m tr s s tr'
  | opened {s : ClientSession} {tr' : List Effect} (h : SessionOpened b m tr s tr') :
      ClientStepped b m tr none (some s) tr'
  | unopened {s : ClientSession} {tr' : List Effect} (h : SessionOpened b m tr s tr') :
      ClientStepped b m tr none none tr'
  | moved {s s' : ClientSession} {tr' : List Effect} (h : Walk (ClientMove b m) s tr s' tr') :
      ClientStepped b m tr (some s) (some s') tr'
  | ended {s s' : ClientSession} {tr' : List Effect} (h : Walk (ClientMove b m) s tr s' tr') :
      ClientStepped b m tr (some s) none tr'

theorem clientStep_walks (ev : ClientEvent) (s : Option ClientSession) (tr : List Effect) :
    ClientStepped b m tr s (clientStep b m cfg ev s).state
      (tr ++ (clientStep b m cfg ev s).effects) := by
  have hstill : ClientStepped b m tr s s (tr ++ []) := .idle ((Added.refl tr).plain (by simp))
  cases s with
  | none =>
      cases ev with
      | connect io =>
          have hend := @clientConnect_opens b m cfg tr io
          unfold clientStep
          dsimp only
          cases hv : (clientConnect b m cfg io .blank).value with
          | some _ => exact .opened (hend.of_some hv)
          | none =>
              rcases hend.of_none hv with hadded | ⟨s', hopened⟩
              · exact .idle hadded
              · exact .unopened hopened
      | _ => exact hstill
  | some s =>
      have hend := @sessionCall_walks b m cfg ev s tr s tr .start
      unfold clientStep
      dsimp only
      cases hv : (sessionCall b m cfg ev s).value with
      | some _ => exact .moved (hend.of_some hv)
      | none =>
          rw [Outcome.fail_effects, ← List.append_assoc]
          exact .ended ((hend.of_none hv).keyless (clientDoneEffects_unkeyed _))

end Ctunnel
