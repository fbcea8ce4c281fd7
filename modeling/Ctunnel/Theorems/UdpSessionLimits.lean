import Ctunnel.Lib.Quota
import Ctunnel.Server.Parts
import Ctunnel.Theorems.ListenerIsolation
import Ctunnel.Client.Session
import Ctunnel.Theorems.WorkRequests

/-!
# The session limits of UDP services

`udp_max_sessions` is the allowance of one service, but `server_udp_create` and
`client_udp_create` compare it with the sessions of all services. No service ever
has more sessions than its allowance, and a session is refused for another reason
exactly when the sessions of the other services do not leave the allowance free
(`udp_session_limits`).
-/

namespace Ctunnel

open Lib

/-- The owner of a slot of the server's table: the index of the service. -/
def ServerUdpSession.owner (s : ServerUdpSession) : Option Nat :=
  if s.active then some s.svc else none

/-- The owner of a slot of the client's table. -/
def ClientUdpSession.owner (s : ClientUdpSession) : Option CtServiceConfig :=
  if s.active then some s.svc else none

/-- The sessions of the other owners leave the limit of `k` free while it is not reached and the
table is not full. -/
def LeavesFree {κ : Type} [DecidableEq κ] (n : Nat) (owner : Nat → Option κ) (k : κ)
    (limit : Nat) : Prop :=
  held n owner k < limit → taken n owner < n → held n owner k + heldByOthers n owner k < limit

section Refusals

variable {b : Build}

/-- A table with a limit on all its slots refuses an owner for its own sake only, exactly if the
others leave its limit free. -/
theorem refuses_iff {κ : Type} [DecidableEq κ] (n : Nat) (owner : Nat → Option κ) (k : κ)
    (limit : Nat) :
    ((limit ≤ taken n owner ∨ taken n owner = n) → limit ≤ held n owner k ∨ taken n owner = n) ↔
      LeavesFree n owner k limit := by
  have hsplit := taken_eq n owner k
  have hle : taken n owner ≤ n := by
    simpa [taken] using
      List.countP_le_length (p := fun i => (owner i).isSome) (l := List.range n)
  unfold LeavesFree
  constructor
  · intro h hown hroom
    by_contra hlimit
    obtain hmax | hfull := h (.inl (by omega))
    · omega
    · omega
  · rintro h (hlimit | hfull)
    · by_contra hneither
      rw [not_or] at hneither
      have hfree := h (by omega) (by omega)
      omega
    · exact .inr hfull

/-- No slot is free exactly if all are taken. -/
theorem find?_free {κ : Type} [DecidableEq κ] (n : Nat) (owner : Nat → Option κ) {p : Nat → Bool}
    (hp : ∀ i, p i = !(owner i).isSome) :
    (List.range n).find? p = none ↔ taken n owner = n := by
  rw [taken_full, List.find?_eq_none]
  refine forall_congr' fun i => ?_
  rw [List.mem_range, hp, Bool.not_eq_true', Bool.not_eq_false]

/-- A call refuses exactly if it ends in `W`, where `Q` excludes `W`. -/
theorem refuses_of_ends {σ α : Type} {r : Reply Effect σ α} {W : Prop}
    (h : r.Ends [] (fun _ _ _ => ¬ W) (fun _ _ => W)) : r.value = none ↔ W := by
  cases hr : r.value with
  | none => exact ⟨fun _ => h.of_none hr, fun _ => rfl⟩
  | some a => exact ⟨fun hno => absurd hno (by simp), fun hW => absurd hW (h.of_some hr)⟩

theorem serverUdpCreate_refuses (svc : Nat) (peer : CtEndpoint) (listener : Socket) (now : UInt64)
    (p : ServerPeer) :
    (serverUdpCreate b svc peer listener now p).value = none ↔
      (p.service svc).cfg.udpMaxSessions ≤ taken b.maxUdpSessions (fun i => (p.udp i).owner) ∨
        taken b.maxUdpSessions (fun i => (p.udp i).owner) = b.maxUdpSessions := by
  have howner : ∀ i, ((p.udp i).owner).isSome = (p.udp i).active := by
    intro i
    rw [ServerUdpSession.owner]
    cases (p.udp i).active <;> rfl
  have hcount : (List.range b.maxUdpSessions).countP (fun i => (p.udp i).active) =
      taken b.maxUdpSessions (fun i => (p.udp i).owner) := by
    rw [taken]
    exact congrArg (List.countP · _) (funext fun i => (howner i).symm)
  have hfree := find?_free b.maxUdpSessions (fun i => (p.udp i).owner)
    (p := fun i => !(p.udp i).active) (fun i => by rw [howner])
  refine refuses_of_ends (.get (.bind (Q := fun _ p' _ => p' = p ∧
    taken b.maxUdpSessions (fun i => (p.udp i).owner) < (p.service svc).cfg.udpMaxSessions)
    (.onFail (.of_bind_pure (.check (fun hroom => .ret ⟨rfl, hcount ▸ hroom⟩) fun hroom => ?_))) ?_))
  · exact .inl (by omega)
  · rintro - p' tr' ⟨rfl, hroom⟩
    refine .bind (Q := fun _ _ _ => taken b.maxUdpSessions (fun i => (p'.udp i).owner) ≠
      b.maxUdpSessions) (.onFail (.of_bind_pure (.need (fun i hi => .ret ?_) ?_))) ?_
    · rw [ne_eq, ← hfree, hi]
      simp
    · exact fun hnone => .inr (hfree.mp hnone)
    · intro i p'' tr'' hopen
      refine .modify (.modify (.tell (.ret ?_)))
      rw [not_or]
      exact ⟨by omega, hopen⟩

theorem clientUdpCreate_refuses {cfg : CtConfig} {t : ClientUdpTable} {d : UdpFrame}
    {svc : CtServiceConfig} (now : UInt64) {io : UdpCreateIo}
    (hsvc : clientSvc cfg d.service = some svc) (htype : svc.type = 2)
    (hlocal : (io.localName.bind (endpointFromSockaddr b)).isSome = true)
    (hopened : io.opened.isSome = true) :
    (clientUdpCreate b cfg d now io t).value = none ↔
      svc.udpMaxSessions ≤ taken b.maxUdpSessions (fun i => (t i).owner) ∨
        taken b.maxUdpSessions (fun i => (t i).owner) = b.maxUdpSessions := by
  have howner : ∀ i, ((t i).owner).isSome = (t i).active := by
    intro i
    rw [ClientUdpSession.owner]
    cases (t i).active <;> rfl
  have hcount : (List.range b.maxUdpSessions).countP (fun i => (t i).active) =
      taken b.maxUdpSessions (fun i => (t i).owner) := by
    rw [taken]
    exact congrArg (List.countP · _) (funext fun i => (howner i).symm)
  have hfree := find?_free b.maxUdpSessions (fun i => (t i).owner)
    (p := fun i => !(t i).active) (fun i => by rw [howner])
  have hfound : (clientSvc cfg d.service).filter (fun s => s.type == 2) = some svc := by
    rw [hsvc, Option.filter_some, if_pos (by simpa using htype)]
  obtain ⟨localEnd, hlocalEnd⟩ := Option.isSome_iff_exists.mp hlocal
  obtain ⟨fd, hfd⟩ := Option.isSome_iff_exists.mp hopened
  refine refuses_of_ends (.need (fun svc' hsvc' => ?_) (fun hnone => ?_))
  · obtain rfl : svc = svc' := Option.some.inj (hfound.symm.trans hsvc')
    refine .get (.bind (Q := fun _ t' _ => t' = t ∧
      taken b.maxUdpSessions (fun i => (t i).owner) < svc.udpMaxSessions)
      (.onFail (.of_bind_pure (.check (fun hroom => .ret ⟨rfl, hcount ▸ hroom⟩) fun hroom => ?_))) ?_)
    · exact .inl (by omega)
    · rintro - t' tr' ⟨rfl, hroom⟩
      refine .need (fun _ _ => .need (fun _ _ => .tell ?_) fun hnone => ?_) fun hnone => ?_
      · refine .bind (Q := fun _ _ _ => taken b.maxUdpSessions (fun i => (t' i).owner) ≠
          b.maxUdpSessions) (.onFail (.of_bind_pure (.need (fun i hi => .ret ?_) ?_))) ?_
        · rw [ne_eq, ← hfree, hi]
          simp
        · exact fun hnone => .inr (hfree.mp hnone)
        · intro i t'' tr'' hopen
          refine .modify (.tell (.ret ?_))
          rw [not_or]
          exact ⟨by omega, hopen⟩
      · exact absurd (hfd.symm.trans hnone) (by simp)
      · exact absurd (hlocalEnd.symm.trans hnone) (by simp)
  · exact absurd (hfound.symm.trans hnone) (by simp)

end Refusals

/-! ## The server -/

section Server

variable {b : Build} {m : Monocypher} {cfg : CtConfig} {G : ServerState → ServerService → Prop}

/-- The sessions of a table belong to services of a peer, and no service has more than its
allowance. -/
structure UdpWithin (b : Build) (udp : Nat → ServerUdpSession) (svc : List ServerService) :
    Prop where
  known : ∀ i, (udp i).active = true → (udp i).svc < svc.length
  within : Within b.maxUdpSessions (fun k => (svc.getD k .zero).cfg.udpMaxSessions)
    fun i => (udp i).owner

theorem UdpWithin.zero (svc : List ServerService) : UdpWithin b (fun _ => .zero) svc :=
  ⟨fun _ h => absurd h (by simp [ServerUdpSession.zero]), .empty fun _ => rfl⟩

/-- A service with an allowance is in the table. -/
theorem service_lt {p : ServerPeer} {svc n : Nat}
    (h : n < (p.service svc).cfg.udpMaxSessions) : svc < p.svc.length := by
  by_contra hout
  rw [ServerPeer.service, List.getD_eq_default _ _ (Nat.le_of_not_lt hout)] at h
  exact absurd h (by simp [ServerService.zero, CtServiceConfig.zero])

theorem UdpMove.within {p : ServerPeer} {udp : Nat → ServerUdpSession} {next : UInt64}
    (h : UdpMove b p udp next) (hp : UdpWithin b p.udp p.svc) : UdpWithin b udp p.svc := by
  cases h with
  | @created i svc peer listener now hi hfree hnew hroom hlistener =>
      have htaken : taken b.maxUdpSessions (fun i => (p.udp i).owner) <
          (p.service svc).cfg.udpMaxSessions := by
        refine Nat.lt_of_le_of_lt (Nat.le_of_eq ?_) hroom
        rw [taken]
        refine congrArg (List.countP · _) (funext fun i => ?_)
        rw [ServerUdpSession.owner]
        cases (p.udp i).active <;> rfl
      refine ⟨fun j hj => ?_, (hp.within.give i (k := svc) htaken).free fun j => .inl ?_⟩
      · by_cases hji : j = i
        · rw [hji, Function.update_self]
          exact service_lt hroom
        · rw [Function.update_of_ne hji] at hj ⊢
          exact hp.known j hj
      · by_cases hji : j = i
        · rw [hji, Function.update_self, Function.update_self]
          rfl
        · rw [Function.update_of_ne hji, Function.update_of_ne hji]
  | @used i s hactive hsame =>
      refine ⟨fun j hj => ?_, hp.within.free fun j => .inl ?_⟩
      · by_cases hji : j = i
        · rw [hji, Function.update_self, hsame.svc]
          exact hp.known i hactive
        · rw [Function.update_of_ne hji] at hj ⊢
          exact hp.known j hj
      · by_cases hji : j = i
        · rw [hji, Function.update_self, ServerUdpSession.owner, hsame.active, hsame.svc]
          rfl
        · rw [Function.update_of_ne hji]
  | expired gone =>
      refine ⟨fun j hj => ?_, hp.within.free fun j => ?_⟩
      · by_cases hgone : gone j = true
        · rw [if_pos hgone] at hj
          exact absurd hj (by simp [ServerUdpSession.zero])
        · rw [if_neg hgone] at hj ⊢
          exact hp.known j hj
      · by_cases hgone : gone j = true
        · rw [if_pos hgone]
          exact .inr rfl
        · rw [if_neg hgone]
          exact .inl rfl

theorem PeerMove.udpWithin {p p' : ServerPeer} {es : List Effect} (h : PeerMove b m cfg p es p')
    (hp : UdpWithin b p.udp p.svc) : UdpWithin b p'.udp p'.svc := by
  cases h with
  | sessions hudp => exact hudp.within hp
  | closed hactive hes => exact .zero _
  | _ => exact hp

/-- A service that is new in the table has no sessions yet. -/
theorem UdpWithin.registered {udp : Nat → ServerUdpSession} {svc : List ServerService}
    (h : UdpWithin b udp svc) (s : ServerService) : UdpWithin b udp (svc ++ [s]) := by
  refine ⟨fun i hi => ?_, fun k => ?_⟩
  · have hold := h.known i hi
    rw [List.length_append]
    omega
  · by_cases hk : k < svc.length
    · show _ ≤ ((svc ++ [s]).getD k .zero).cfg.udpMaxSessions
      rw [List.getD_append _ _ _ _ hk]
      exact h.within k
    · have hnone : held b.maxUdpSessions (fun i => (udp i).owner) k = 0 := by
        refine List.countP_eq_zero.mpr fun i _ => ?_
        dsimp only [ServerUdpSession.owner]
        by_cases hactive : (udp i).active = true
        · have hknown := h.known i hactive
          rw [if_pos hactive]
          simp only [beq_iff_eq, Option.some.injEq]
          omega
        · rw [if_neg hactive]
          simp
      omega

theorem ServerMove.udpWithin {st st' : ServerState} {es : List Effect}
    (h : ServerMove b m cfg G st es st')
    (hst : ∀ i, UdpWithin b (st.peers i).udp (st.peers i).svc) :
    ∀ i, UdpWithin b (st'.peers i).udp (st'.peers i).svc := by
  have hupdate : ∀ (i : Nat) {p : ServerPeer}, UdpWithin b p.udp p.svc →
      ∀ j, UdpWithin b (Function.update st.peers i p j).udp (Function.update st.peers i p j).svc := by
    intro i p hp j
    by_cases hj : j = i
    · rw [hj, Function.update_self]
      exact hp
    · rw [Function.update_of_ne hj]
      exact hst j
  cases h with
  | peer i hi h => exact hupdate i (h.udpWithin (hst i))
  | idle | rated | refused | accepted | heard | removed | unbound | unregistered | stopped => exact hst
  | bound index c i w hc hi hactive hroom hK hes => exact hupdate i (hst i)
  | joined index c i a next hc hi hK hes => exact hupdate i (hst i)
  | unjoined index c i hc hi hK hes => exact hupdate i (hst i)
  | registered i s a hi ha hadmitted hset hs hfree hS hes => exact hupdate i ((hst i).registered s)

theorem serverRun_udpWithin {control : List BoundSocket} {now : UInt64} {evs : List ServerEvent}
    (hrun : ServerRun b m cfg control now evs) (i : Nat) :
    UdpWithin b ((runs (serverStep b m cfg) (.start b control now) evs).1.state.peers i).udp
      ((runs (serverStep b m cfg) (.start b control now) evs).1.state.peers i).svc :=
  serverRun_keeps (I := fun st _ => ∀ i, UdpWithin b (st.peers i).udp (st.peers i).svc)
    (fun _ _ _ _ _ h hst => h.udpWithin hst) (fun _ => .zero _) hrun i

end Server

/-! ## The client -/

section Client

variable {b : Build} {m : Monocypher} {cfg : CtConfig}

/-- No service of the client has more sessions than its allowance. -/
def ClientWithin (b : Build) (t : ClientUdpTable) : Prop :=
  Within b.maxUdpSessions CtServiceConfig.udpMaxSessions fun i => (t i).owner

theorem ClientWithin.update {t : ClientUdpTable} (h : ClientWithin b t) {i : Nat}
    {s : ClientUdpSession} (howner : s.owner = (t i).owner) :
    ClientWithin b (Function.update t i s) := by
  refine h.free fun j => .inl ?_
  by_cases hji : j = i
  · rw [hji, Function.update_self, howner]
  · rw [Function.update_of_ne hji]

theorem clientUdpCreate_within {d : UdpFrame} {now : UInt64} {io : UdpCreateIo} :
    Call.Keeps (ClientWithin b) (clientUdpCreate b cfg d now io) := by
  intro t h
  have hend : (clientUdpCreate b cfg d now io t).Ends [] (fun _ t' _ => ClientWithin b t')
      (fun t' _ => ClientWithin b t') := by
    refine .need (fun svc _ => .get ?_) fun _ => h
    refine .bind (Q := fun _ t' _ => t' = t ∧
      (List.range b.maxUdpSessions).countP (fun i => (t i).active) < svc.udpMaxSessions)
      (.onFail (.of_bind_pure (.check (fun hroom => .ret ⟨rfl, hroom⟩) fun _ => h))) ?_
    rintro - t' tr' ⟨rfl, hroom⟩
    refine .need (fun localEnd _ => .need (fun fd _ => .tell ?_) fun _ => h) fun _ => h
    refine .bind (Q := fun _ t'' _ => t'' = t')
      (.onFail (.of_bind_pure (.need (fun i _ => .ret rfl) fun _ => h))) ?_
    rintro i t'' tr'' rfl
    refine .modify (.tell (.ret ?_))
    have htaken : taken b.maxUdpSessions (fun i => (t'' i).owner) < svc.udpMaxSessions := by
      refine Nat.lt_of_le_of_lt (Nat.le_of_eq ?_) hroom
      rw [taken]
      refine congrArg (List.countP · _) (funext fun i => ?_)
      rw [ClientUdpSession.owner]
      cases (t'' i).active <;> rfl
    refine (Within.give h i (k := svc) htaken).free fun j => .inl ?_
    by_cases hji : j = i
    · rw [hji, Function.update_self, Function.update_self]
      rfl
    · rw [Function.update_of_ne hji, Function.update_of_ne hji]
  exact hend.state

theorem clientUdpDeliver_within {i : Nat} {d : UdpFrame} {now : UInt64} {io : SendTo} :
    Call.Keeps (ClientWithin b) (clientUdpDeliver b i d now io) := by
  refine .bind .get fun t => .ite (fun _ => .tell) fun _ => ?_
  cases udpReplayAccept b.udpReplayWindow (t i).rxHigh (t i).rxBitmap d.seq with
  | none => exact .tell
  | some w =>
      refine .bind (.modify fun t h => h.update rfl) fun _ => .bind (.onFail ?_) fun _ => .tell
      refine .bind .check fun _ => ?_
      cases io with
      | sent n => exact .bind .tell fun _ => .check
      | wouldBlock => exact .pure
      | failed => exact .need

theorem clientUdpFromServer_within {payload : Bytes} {now : UInt64} {io : UdpFromServerIo} :
    Call.Keeps (ClientWithin b) (clientUdpFromServer b cfg payload now io) := by
  refine .bind (.onFail .need) fun d => .bind .get fun t => .bind (.attempt ?_) fun found =>
    .bind .get fun t' => ?_
  · cases clientUdpFind b t d.id with
    | some i => exact .pure
    | none => exact clientUdpCreate_within
  · cases found.filter fun i => (t' i).svc.id == d.service && endpointEqual (t' i).peer d.peer with
    | none => exact .tell
    | some i => exact clientUdpDeliver_within

theorem clientUdpExpire_within {now : UInt64} :
    Call.Keeps (ClientWithin b) (clientUdpExpire b now) := by
  refine .bind .get fun t => .bind (.modify fun t' h => h.free fun i => ?_) fun _ => .tell
  dsimp only
  split
  · exact .inr rfl
  · exact .inl rfl

/-- A session within the allowances. -/
def ClientSession.UdpWithin (b : Build) (s : ClientSession) : Prop := ClientWithin b s.udp

theorem onClientControl_within {α : Type} {x : Call Effect CtControl α} :
    Call.Keeps (ClientSession.UdpWithin b) (onClientControl x) := .zoom fun _ _ h => h

theorem onClientUdp_within {α : Type} {x : Call Effect ClientUdpTable α}
    (hx : Call.Keeps (ClientWithin b) x) : Call.Keeps (ClientSession.UdpWithin b) (onClientUdp x) :=
  fun s h => hx s.udp h

theorem addWork_within {io : WorkConnectIo} :
    Call.Keeps (ClientSession.UdpWithin b) (addWork b m io) :=
  .bind .tell fun _ => .bind .get fun _ => .bind .check fun _ =>
    .bind (.onFail onClientControl_within) fun _ => .bind (.modify fun _ h => h) fun _ => .tell

theorem fillPool_within {target : Nat} {io : Nat → WorkConnectIo} (fuel : Nat) :
    Call.Keeps (ClientSession.UdpWithin b) (fillPool b m target io fuel) := by
  induction fuel with
  | zero => exact .pure
  | succ fuel ih =>
      refine .bind .get fun s => .ite (fun _ => ?_) fun _ => .pure
      refine .bind (.attempt addWork_within) fun added => ?_
      cases added with
      | some _ => exact ih
      | none => exact .pure

theorem clientConnect_within {io : ClientConnectIo} :
    Call.Keeps (ClientSession.UdpWithin b) (clientConnect b m cfg io) :=
  .bind .need fun _ => .bind .tell fun _ =>
    .bind (.onFail (.bind onClientControl_within fun _ => .bind onClientControl_within fun _ =>
      .check)) fun _ => fillPool_within _

theorem clientControlEvent_within {io : ClientControlIo} :
    Call.Keeps (ClientSession.UdpWithin b) (clientControlEvent b m cfg io) := by
  unfold clientControlEvent
  cases ctFrameAvailable b (b.controlBufferSize + ctAeadTag) ctFlagEncrypted io.queued with
  | failed => exact .need
  | later => exact .modify fun _ h => h
  | frame hd =>
      refine .bind (.modify fun _ h => h) fun _ => .bind onClientControl_within fun _ => ?_
      refine .ite (fun _ => onClientControl_within) fun _ => .ite (fun _ => .pure) fun _ => ?_
      refine .ite (fun _ => .bind (.attempt addWork_within) fun _ => .pure) fun _ => ?_
      exact .ite (fun _ => onClientUdp_within clientUdpFromServer_within) fun _ => .need

theorem ctStreamReadySend_keeps {σ : Type} {I : σ → Prop} {w : CtWork} {c : CtControl}
    {id : CString} {mode : CtEncMode} {stream : UInt64} {rnd : Octets 32} {ok : Bool} {io : SendIo} :
    Call.Keeps I (ctStreamReadySend b m w c id mode stream rnd ok io) :=
  .bind .need fun _ => .bind .need fun _ => .bind .tell fun _ => ctPlainSend_keeps

theorem ctStartStreamRecv_keeps {σ : Type} {I : σ → Prop} {w : CtWork} {c : CtControl}
    {inbox stale : Bytes} : Call.Keeps I (ctStartStreamRecv b m w c inbox stale) :=
  .bind .need fun _ => .bind .check fun _ => .bind .need fun _ => .bind .need fun _ =>
    .bind .tell fun _ => .bind .check fun _ => .bind .tell fun _ => .pure

theorem clientStream_within {w : CtWork} {io : ClientWorkIo} :
    Call.Keeps (ClientSession.UdpWithin b) (clientStream b m cfg w io) := by
  refine .bind .get fun s => .bind (.onFail ctStartStreamRecv_keeps) fun received => ?_
  refine .bind .tell fun _ => ?_
  split
  · exact .bind (.attempt ctStreamReadySend_keeps) fun _ => .tell
  · refine .bind .tell fun _ => .bind (.attempt (.onFail ?_)) fun _ => .pure
    exact .bind .get fun _ => .bind .need fun _ => .bind ctStreamReadySend_keeps fun _ =>
      .zoom fun _ _ h => h

theorem clientWorkEvent_within {fd : Socket} {io : ClientWorkIo} :
    Call.Keeps (ClientSession.UdpWithin b) (clientWorkEvent b m cfg fd io) := by
  refine .bind .get fun s => ?_
  split
  · exact .pure
  · split
    · refine .bind (.modify fun _ h => h) fun _ => .bind .tell fun _ => ?_
      refine .bind (.attempt clientStream_within) fun received => ?_
      split
      · exact fillPool_within _
      · exact .pure
    · exact .modify fun _ h => h
    · exact .bind (.modify fun _ h => h) fun _ => .tell

theorem clientUdpFromLocal_within {i : Nat} {io : UdpLocalIo} :
    Call.Keeps (ClientSession.UdpWithin b) (clientUdpFromLocal b m i io) := by
  intro s h
  have hend : (clientUdpFromLocal b m i io s).Ends [] (fun _ s' _ => s'.UdpWithin b)
      (fun s' _ => s'.UdpWithin b) := by
    refine .get ?_
    cases ctUdpRecv b b.maxUdpDatagramSize io.recv with
    | failed => exact Call.Keeps.need.ends h _
    | nothing => exact .ret h
    | datagram source payload =>
        refine .ite (fun _ => Call.Keeps.tell.ends h _) fun _ => .modify ?_
        let used : ClientUdpSession := { s.udp i with lastMs := io.now, txSeq := (s.udp i).txSeq + 1 }
        have hused : ClientSession.UdpWithin b { s with udp := Function.update s.udp i used } :=
          ClientWithin.update h rfl
        exact (Call.Keeps.bind (.onFail (.bind .need fun _ => onClientControl_within))
          fun _ => .tell).ends hused _
  exact hend.state

theorem clientTick_within {io : ClientTickIo} :
    Call.Keeps (ClientSession.UdpWithin b) (clientTick b m cfg io) := by
  unfold clientTick
  split
  · refine .bind (onClientUdp_within clientUdpExpire_within) fun _ => .bind .get fun _ => ?_
    exact .bind .check fun _ => .ite (fun _ => onClientControl_within) fun _ => .pure
  · refine .bind .get fun _ => .bind .check fun _ => ?_
    exact .ite (fun _ => onClientControl_within) fun _ => .pure

theorem sessionEvent_within (ev : ClientEvent) :
    Call.Keeps (ClientSession.UdpWithin b) (sessionEvent b m cfg ev) := by
  cases ev with
  | connect io => exact .pure
  | control io => exact clientControlEvent_within
  | work fd io => exact clientWorkEvent_within
  | udpLocal i io => exact clientUdpFromLocal_within
  | relay k side ev io => exact .bind (.attempt (.zoom fun _ _ h => h)) fun _ => .pure
  | tick io => exact clientTick_within
  | stop goaway => exact .need

theorem sayGoaway_within (io : Option SendIo) :
    Call.Keeps (ClientSession.UdpWithin b) (sayGoaway b m io) := by
  cases io with
  | none => exact .pure
  | some io => exact .bind (.attempt onClientControl_within) fun _ => .pure

theorem sessionCall_within (ev : ClientEvent) :
    Call.Keeps (ClientSession.UdpWithin b) (sessionCall b m cfg ev) := by
  refine .bind (.attempt (sessionEvent_within ev)) fun handled => ?_
  cases handled with
  | some _ => exact .pure
  | none => exact .bind (sayGoaway_within _) fun _ => .need

theorem clientStep_within (ev : ClientEvent) {s : Option ClientSession}
    (h : ∀ t ∈ s, ClientSession.UdpWithin b t) :
    ∀ t ∈ (clientStep b m cfg ev s).state, ClientSession.UdpWithin b t := by
  intro t ht
  cases s with
  | none =>
      cases ev with
      | connect io =>
          have hconnect : Call.Keeps (ClientSession.UdpWithin b) (clientConnect b m cfg io) :=
            clientConnect_within
          have hend := hconnect .blank (Within.empty fun _ => rfl)
          obtain ⟨_, -, rfl⟩ := Option.map_eq_some_iff.mp ht
          exact hend
      | _ => exact absurd ht (by simp [clientStep])
  | some s =>
      have hcall : Call.Keeps (ClientSession.UdpWithin b) (sessionCall b m cfg ev) :=
        sessionCall_within ev
      have hend := hcall s (h s rfl)
      unfold clientStep at ht
      dsimp only at ht
      split at ht
      · rw [← Option.some.inj ht]
        exact hend
      · exact absurd ht (by simp)

theorem clientRun_within (evs : List ClientEvent) :
    ∀ s ∈ (runs (clientStep b m cfg) none evs).1, ClientSession.UdpWithin b s :=
  @runs_keeps Effect (Option ClientSession) ClientEvent (clientStep b m cfg)
    (fun s _ => ∀ t ∈ s, ClientSession.UdpWithin b t)
    (fun _ _ ev h => clientStep_within ev h) none [] evs fun _ ht => absurd ht (by simp)

end Client

/-! ## Both tables -/

/-- The sessions of an owner in the table of the server. -/
def ServerPeer.sessionsOf (b : Build) (p : ServerPeer) (svc : Nat) : Nat :=
  held b.maxUdpSessions (fun i => (p.udp i).owner) svc

/-- All sessions of the server's table. -/
def ServerPeer.sessions (b : Build) (p : ServerPeer) : Nat :=
  taken b.maxUdpSessions fun i => (p.udp i).owner

/-- The same of the client. -/
def ClientSession.sessionsOf (b : Build) (s : ClientSession) (svc : CtServiceConfig) : Nat :=
  held b.maxUdpSessions (fun i => (s.udp i).owner) svc

def ClientSession.sessions (b : Build) (s : ClientSession) : Nat :=
  taken b.maxUdpSessions fun i => (s.udp i).owner

/-- In every state of every run no service has more sessions than its allowance,
and it is refused one for its own sake or for a full table only, exactly when the
others leave its allowance free. -/
theorem udp_session_limits (b : Build) (m : Monocypher) (cfg : CtConfig) :
    (∀ control now evs, ServerRun b m cfg control now evs → ∀ i svc,
      let p := (runs (serverStep b m cfg) (.start b control now) evs).1.state.peers i
      p.sessionsOf b svc ≤ (p.service svc).cfg.udpMaxSessions ∧
        ∀ peer listener now,
          ((serverUdpCreate b svc peer listener now p).value = none →
            (p.service svc).cfg.udpMaxSessions ≤ p.sessionsOf b svc ∨
              p.sessions b = b.maxUdpSessions) ↔
            LeavesFree b.maxUdpSessions (fun i => (p.udp i).owner) svc
              (p.service svc).cfg.udpMaxSessions) ∧
    ∀ evs s, (runs (clientStep b m cfg) none evs).1 = some s → ∀ svc : CtServiceConfig,
      s.sessionsOf b svc ≤ svc.udpMaxSessions ∧
        ∀ d now io, clientSvc cfg d.service = some svc → svc.type = 2 →
          (io.localName.bind (endpointFromSockaddr b)).isSome = true → io.opened.isSome = true →
          (((clientUdpCreate b cfg d now io s.udp).value = none →
            svc.udpMaxSessions ≤ s.sessionsOf b svc ∨ s.sessions b = b.maxUdpSessions) ↔
            LeavesFree b.maxUdpSessions (fun i => (s.udp i).owner) svc svc.udpMaxSessions) := by
  refine ⟨fun control now evs hrun i svc => ?_, fun evs s hs svc => ?_⟩
  · refine ⟨(serverRun_udpWithin hrun i).within svc, fun peer listener now' => ?_⟩
    rw [serverUdpCreate_refuses]
    exact refuses_iff _ _ _ _
  · refine ⟨clientRun_within evs s hs svc, fun d now io hsvc htype hlocal hopened => ?_⟩
    rw [clientUdpCreate_refuses now hsvc htype hlocal hopened]
    exact refuses_iff _ _ _ _

/-! ## Two services of `edge` -/

/-- `mdns` on an endpoint of its own, for one session. -/
def mdnsSingle : CtServiceConfig := { mdnsService with remotePort := 5353, udpMaxSessions := 1 }

def mdnsSingleRegister : BoxEntry :=
  edgeFrame 10 2 ((registerPayload defaultBuild mdnsSingle).getD [])
    0x857b613d8cf7b6bc7882d66cdb0b297edce799ea867fb01c3c2da08a05964625c419f6cd3cf4
    0xe3470ab21646e7505dcb65676ab0dcc8

/-- The frame of `dnsQuery`. -/
def dnsQueryFrame : BoxEntry :=
  frameBox edgeKeys.sessionId edgeKeys.controlS2c edgeKeys.nonceS2c 26 1 4
    ((ctUdpDatagramPack defaultBuild defaultBuild.controlBufferSize dnsQuery).getD [])
    0x55a9e366fcdba0c273e990b1d86ba9a4cf6bce2ec764be177f337e6319e04d0b674a
    0x4e82b42eae40d12467d4db0eb41a42da

def sessionLog : CryptoLog :=
  { hubLog with boxes := hubLog.boxes ++ [mdnsSingleRegister, dnsQueryFrame] }

/-- `dnsQuery` arrives at the first service. -/
def dnsArrives : ServerEvent :=
  .udpService 0 0
    { external := fun _ => ⟨.datagram (.inet 40000 (octets 4 0xc0000207)) dnsQuery.payload, sendAll⟩
      goaway := fun _ => sendAll
      now := 0 }

/-- `edge` registers both, and `dns` gets a session. -/
def sessionRun : List ServerEvent :=
  hubJoin ++ [hubControl dnsRegister 6 5300, hubTurn, hubControl mdnsSingleRegister 7 5353,
    hubTurn, dnsArrives]

def sessionPeer : ServerPeer :=
  (runs (serverStep defaultBuild sessionLog.monocypher edgeConfig)
    (.start defaultBuild [hubListener] 0) sessionRun).1.state.peers 0

theorem sessionPeer_eq : sessionPeer =
    (runs (serverStep defaultBuild sessionLog.monocypher edgeConfig)
      (.start defaultBuild [hubListener] 0) sessionRun).1.state.peers 0 := rfl

def sessionConfig : CtConfig := edgeWorkConfig [dnsService, mdnsSingle]

/-- The other end: `edge` connects, and `dnsQuery` opens a session. -/
def edgeSessionRun : List ClientEvent :=
  [edgeConnect fun i => if i = 0 then
      [(hubFrame 11 2 (registerReply defaultBuild dnsService.id) 0xbd23ba54eb
        0xd4807c0890f8f5b720d6176615f8c503).frame]
    else [(hubFrame 11 3 (registerReply defaultBuild mdnsService.id) 0x6456323a83bf
      0xe1a144808244cd8910886f0ae4cdd270).frame],
    .control
      { queued := .bytes dnsQueryFrame.frame
        more := []
        alloc := true
        reply := sendAll
        work := edgeWorkIo
        udp := ⟨⟨some (loopbackName 53), some 11⟩, .sent 3⟩
        now := 0 }]

def edgeSession : Option ClientSession :=
  (runs (clientStep defaultBuild sessionLog.monocypher sessionConfig) none edgeSessionRun).1

/-- A datagram for `mdns` finds no session, and the system has a socket for one. -/
def mdnsCreate : Call Effect ClientUdpTable Nat :=
  clientUdpCreate defaultBuild sessionConfig { dnsQuery with service := mdnsSingle.id } 0
    ⟨some (loopbackName 53), some 11⟩

/-- One evaluation of both runs. -/
theorem session_runs :
    (ServerRun defaultBuild sessionLog.monocypher edgeConfig [hubListener] 0 sessionRun ∧
      (serverUdpCreate defaultBuild 1 dnsQuery.peer 7 0 sessionPeer).value = none ∧
      sessionPeer.sessionsOf defaultBuild 1 = 0 ∧
      (sessionPeer.service 1).cfg.udpMaxSessions = 1 ∧
      sessionPeer.sessions defaultBuild < defaultBuild.maxUdpSessions) ∧
    edgeSession.map (fun s => ((mdnsCreate s.udp).value, s.sessionsOf defaultBuild dnsService,
      s.sessionsOf defaultBuild mdnsSingle, s.sessions defaultBuild)) = some (none, 1, 0, 1) := by
  decide +kernel

/-- The session of `dns` is within its allowance, and at either end it takes that of `mdns`. -/
theorem dns_crowds_mdns :
    ¬ LeavesFree defaultBuild.maxUdpSessions (fun i => (sessionPeer.udp i).owner) 1
        (sessionPeer.service 1).cfg.udpMaxSessions ∧
      ∃ s ∈ edgeSession, s.sessionsOf defaultBuild dnsService = 1 ∧
        s.sessionsOf defaultBuild dnsService ≤ dnsService.udpMaxSessions ∧
        ¬ LeavesFree defaultBuild.maxUdpSessions (fun i => (s.udp i).owner) mdnsSingle
          mdnsSingle.udpMaxSessions := by
  obtain ⟨⟨hrun, hrefused, hnone, hlimit, hroom⟩, hclient⟩ := session_runs
  obtain ⟨s, hs, hfacts⟩ := Option.map_eq_some_iff.mp hclient
  simp only [Prod.mk.injEq] at hfacts
  obtain ⟨hcreate, hdns, hmdns, htable⟩ := hfacts
  have hserver := (udp_session_limits defaultBuild sessionLog.monocypher edgeConfig).1
    [hubListener] 0 sessionRun hrun 0 1
  have hlimits := (udp_session_limits defaultBuild sessionLog.monocypher sessionConfig).2
    edgeSessionRun s hs
  dsimp only at hserver
  rw [← sessionPeer_eq] at hserver
  refine ⟨fun hfree => ?_, s, hs, hdns, (hlimits dnsService).1, fun hfree => ?_⟩
  · rcases (hserver.2 dnsQuery.peer 7 0).mpr hfree hrefused with hown | hfull
    · omega
    · exact absurd hfull (Nat.ne_of_lt hroom)
  · have hiff := (hlimits mdnsSingle).2 { dnsQuery with service := mdnsSingle.id } 0
      ⟨some (loopbackName 53), some 11⟩ (by decide) (by decide) (by decide) (by decide)
    rcases hiff.mpr hfree hcreate with hown | hfull
    · rw [hmdns] at hown
      exact absurd hown (by decide)
    · rw [htable] at hfull
      exact absurd hfull (by decide)

/-- `mdns` has no session and the table is nearly empty, but `mdns` gets none. -/
theorem idle_service_refused :
    ServerRun defaultBuild sessionLog.monocypher edgeConfig [hubListener] 0 sessionRun ∧
      (serverUdpCreate defaultBuild 1 dnsQuery.peer 7 0 sessionPeer).value = none ∧
      sessionPeer.sessionsOf defaultBuild 1 = 0 ∧
      (sessionPeer.service 1).cfg.udpMaxSessions = 1 ∧
      sessionPeer.sessions defaultBuild < defaultBuild.maxUdpSessions :=
  session_runs.1

end Ctunnel
