import Ctunnel.Net.Fields
import Ctunnel.Server.ControlCalls
import Ctunnel.Server.Slots
import Ctunnel.Theorems.ListenerIsolation

/-!
# The service tables

Every service of an active peer passed the checks of `register_service` against
the authorization record of that peer, and a refused registration leaves the
tables and the open sockets as they were (`services_accepted`).
-/

namespace Ctunnel

open Lib

/-! ## What a service table holds -/

/-- The four UDP limits are in their ranges. -/
structure CtServiceConfig.Limited (b : Build) (s : CtServiceConfig) : Prop where
  idleTimeout : 1 ≤ s.udpIdleTimeout ∧ s.udpIdleTimeout ≤ 86400
  replyTimeout : 1 ≤ s.udpReplyTimeout ∧ s.udpReplyTimeout ≤ 86400
  maxSessions : 1 ≤ s.udpMaxSessions ∧ s.udpMaxSessions ≤ b.maxUdpSessions
  maxDatagramSize : 512 ≤ s.udpMaxDatagramSize ∧ s.udpMaxDatagramSize ≤ b.maxUdpDatagramSize

/-- What `register_service` accepts of a client with the record `a`. -/
structure CtServiceConfig.Accepted (b : Build) (a : CtAuthorizedClient) (s : CtServiceConfig) :
    Prop where
  port : ctAuthorizedPort a s.remoteAddr s.remotePort = true
  type : s.type = 1 ∨ s.type = 2 ∧ b.udp = true ∧ s.Limited b
  encryption : s.encryption = .required ∧ b.dataEncryption = true ∨ s.encryption = .disabled
  proxyProtocol : proxySupported b s.proxyProtocol.toByte = true
  udp : s.type = 2 → s.proxyProtocol = .off

/-- The service table of an active peer. -/
structure ServerPeer.TableAccepted (b : Build) (cfg : CtConfig) (p : ServerPeer)
    (a : CtAuthorizedClient) : Prop where
  auth : p.auth = some a
  entries : ∀ s ∈ p.svc, s.cfg.Accepted b a
  distinct : (p.svc.map fun s => s.cfg.id).Nodup
  limit : p.svc.length ≤ min a.maxServices cfg.maxServicesPerClient

variable {b : Build} {m : Monocypher} {cfg : CtConfig} {G : ServerState → ServerService → Prop}

theorem requestRefusal_none {r : RegisterRequest} {s : CtServiceConfig}
    (h : requestRefusal b r = none) (hs : r.config b = some s) :
    (s.type = 1 ∨ s.type = 2 ∧ b.udp = true) ∧
      proxySupported b s.proxyProtocol.toByte = true ∧ (s.type ≠ 1 → s.proxyProtocol = .off) := by
  obtain ⟨htype, hproxy⟩ := r.config_some hs
  rw [htype, CtProxyProtocolMode.toByte_of_ofByte hproxy]
  unfold requestRefusal at h
  split at h
  · exact absurd h (by simp)
  · rename_i hknown
    split at h
    · exact absurd h (by simp)
    · split at h
      · exact absurd h (by simp)
      · rename_i hsupported
        split at h
        · exact absurd h (by simp)
        · rename_i hoff
          refine ⟨?_, by simpa using hsupported, fun hudp => ?_⟩
          · by_cases htcp : r.type = 1
            · exact .inl htcp
            · rw [not_and_not_right] at hknown
              exact .inr (hknown htcp).symm
          · have hzero : r.proxyProtocol = CtProxyProtocolMode.off.toByte := by
              by_contra hne
              exact hoff ⟨hudp, hne⟩
            rw [hzero, CtProxyProtocolMode.ofByte_toByte] at hproxy
            exact (Option.some.inj hproxy).symm

theorem configRefusal_none {p : ServerPeer} {s : CtServiceConfig}
    (h : configRefusal b p s = none) :
    (s.type = 2 → s.Limited b) ∧
      (s.encryption = .required ∧ b.dataEncryption = true ∨ s.encryption = .disabled) ∧
      ∀ t ∈ p.svc, t.cfg.id ≠ s.id := by
  unfold configRefusal at h
  split at h
  · exact absurd h (by simp)
  · rename_i hlimits
    split at h
    · exact absurd h (by simp)
    · rename_i hmode
      split at h
      · exact absurd h (by simp)
      · rename_i hfind
        refine ⟨fun hudp => ?_, ?_, fun t ht heq => ?_⟩
        · have hvalid : udpLimitsValid b s = true := by
            by_contra hno
            exact hlimits ⟨hudp, by simpa using hno⟩
          simp only [udpLimitsValid, decide_eq_true_eq] at hvalid
          obtain ⟨h₁, h₂, h₃, h₄, h₅, h₆, h₇, h₈⟩ := hvalid
          exact ⟨⟨h₁, h₂⟩, ⟨h₃, h₄⟩, ⟨h₅, h₆⟩, h₇, h₈⟩
        · cases hs : s.encryption with
          | disabled => exact .inr rfl
          | required =>
              refine .inl ⟨rfl, ?_⟩
              by_contra hno
              exact hmode ⟨by simpa using hno, hs⟩
        · have hnone : findService p s.id = none := by simpa using hfind
          exact absurd heq (by simpa using List.find?_eq_none.mp hnone t ht)

/-- What was checked is what is accepted. -/
theorem Admitted.accepted {p : ServerPeer} {a : CtAuthorizedClient} {s : CtServiceConfig}
    (h : Admitted b cfg p a s) : s.Accepted b a := by
  obtain ⟨r, hconfig, hrequest⟩ := h.request
  obtain ⟨htype, hproxy, hoff⟩ := requestRefusal_none hrequest hconfig
  obtain ⟨hlimits, hmode, -⟩ := configRefusal_none h.config
  refine ⟨(authRefusal_none h.auth).2, ?_, hmode, hproxy, fun hudp => hoff (by rw [hudp]; decide)⟩
  rcases htype with htcp | ⟨hudp, hb⟩
  · exact .inl htcp
  · exact .inr ⟨hudp, hb, hlimits hudp⟩

/-- A service that is admitted joins an accepted table. -/
theorem ServerPeer.TableAccepted.add {p : ServerPeer} {a : CtAuthorizedClient} {s : ServerService}
    (h : p.TableAccepted b cfg a) (hs : Admitted b cfg p a s.cfg) :
    ({ p with svc := p.svc ++ [s] } : ServerPeer).TableAccepted b cfg a := by
  refine ⟨h.auth, ?_, ?_, ?_⟩
  · intro t ht
    rcases List.mem_append.mp ht with ht | ht
    · exact h.entries t ht
    · rw [List.mem_singleton.mp ht]
      exact hs.accepted
  · have hnew := (configRefusal_none hs.config).2.2
    rw [List.map_append, List.nodup_append]
    refine ⟨h.distinct, List.nodup_singleton _, ?_⟩
    rintro id hid id' hid' rfl
    obtain ⟨t, ht, rfl⟩ := List.mem_map.mp hid
    exact hnew t ht (by simpa using hid')
  · have hroom := (authRefusal_none hs.auth).1
    show (p.svc ++ [s]).length ≤ _
    rw [List.length_append, List.length_singleton]
    exact hroom

/-! ## Every move keeps the tables -/

/-- The table of an active peer is accepted. -/
def ServerPeer.Governed (b : Build) (cfg : CtConfig) (p : ServerPeer) : Prop :=
  p.active = true → ∃ a, p.TableAccepted b cfg a

theorem PeerMove.governed {p p' : ServerPeer} {es : List Effect} (h : PeerMove b m cfg p es p')
    (hp : p.Governed b cfg) : p'.Governed b cfg := by
  intro hactive
  have hsame : p'.auth = p.auth ∧ p'.svc = p.svc := by
    cases h with
    | closed hactive' hes => exact absurd hactive (by simp [ServerPeer.zero])
    | _ => exact ⟨rfl, rfl⟩
  obtain ⟨a, ha⟩ := hp (h.active hactive)
  exact ⟨a, hsame.1.trans ha.auth, hsame.2 ▸ ha.entries, hsame.2 ▸ ha.distinct, hsame.2 ▸ ha.limit⟩

theorem ServerMove.governed {st st' : ServerState} {es : List Effect}
    (h : ServerMove b m cfg G st es st') (hsettled : st.SlotsSettled b)
    (hst : ∀ i, (st.peers i).Governed b cfg) (i : Nat) : (st'.peers i).Governed b cfg := by
  have hupdate : ∀ {j : Nat} {p : ServerPeer}, st'.peers = Function.update st.peers j p →
      p.Governed b cfg → (st'.peers i).Governed b cfg := by
    intro j p hpeers hp
    rw [hpeers]
    by_cases hij : i = j
    · subst hij
      rw [Function.update_self]
      exact hp
    · rw [Function.update_of_ne hij]
      exact hst i
  cases h with
  | peer j hj h => exact hupdate rfl (h.governed (hst j))
  | idle | rated | refused | accepted | heard | removed | unbound | unregistered | stopped =>
      exact hst i
  | bound index c j w hc hj hactive hroom hK hes =>
      refine hupdate rfl fun hlive => ?_
      obtain ⟨a, ha⟩ := hst j hlive
      exact ⟨a, ha.auth, ha.entries, ha.distinct, ha.limit⟩
  | joined index c j a next hc hj hK hes =>
      have hempty := (hsettled.settled j (freeSlot_some hj).2).svc
      refine hupdate rfl fun _ => ⟨a, rfl, fun s hs => ?_, ?_, ?_⟩
      · rw [show _ = [] from hempty] at hs
        exact absurd hs (by simp)
      · show (List.map _ (st.peers j).svc).Nodup
        simp [hempty]
      · show (st.peers j).svc.length ≤ _
        simp [hempty]
  | unjoined index c j hc hj hK hes =>
      refine hupdate rfl fun hlive => ?_
      exact absurd ((freeSlot_some hj).2.symm.trans hlive) (by simp)
  | registered j s a hj ha hadmitted hset hs hfree hS hes =>
      refine hupdate rfl fun hlive => ?_
      obtain ⟨a', ha'⟩ := hst j hlive
      obtain rfl : a' = a := Option.some.inj (ha'.auth.symm.trans ha)
      exact ⟨a', ha'.add hadmitted⟩

/-! ## Refused registrations -/

/-- A control event in which REGISTER_FAILED goes out leaves the tables and the open
sockets alone. -/
theorem controlEvent_refusal {st : ServerState} {i : Nat} {io : ControlIo} {tr : List Effect} :
    (controlEvent b m cfg i io st).Ends tr
      (fun _ st' tr' => ∃ calls, Calls tr calls tr' ∧
        (⟨CtMsgType.registerFailed.toByte, true⟩ ∈ calls →
          (∀ j, (st'.peers j).svc = (st.peers j).svc) ∧
            ∀ held, openAfter held tr' = openAfter held tr))
      (fun _ _ => False) := by
  refine controlEvent_calls.mono ?_ (fun _ _ h => h)
  rintro - st' tr' ⟨p', calls, rfl, htally, hrefusal⟩
  refine ⟨calls, htally.sent, fun hmem => ⟨fun j => ?_, (hrefusal hmem).2⟩⟩
  by_cases hij : j = i
  · subst hij
    rw [ServerState.setPeer_self]
    exact (hrefusal hmem).1
  · rw [st.setPeer_other p' hij]

/-- In every state of every run the service table of an active peer is what
`register_service` accepts of that peer, and an event in which REGISTER_FAILED goes
out changes no table and no open socket. -/
theorem services_accepted {control : List BoundSocket} {now : UInt64} {evs : List ServerEvent}
    (hrun : ServerRun b m cfg control now evs) :
    let r := runs (serverStep b m cfg) (.start b control now) evs
    (∀ i, (r.1.state.peers i).active = true → ∃ a, (r.1.state.peers i).TableAccepted b cfg a) ∧
      ∀ i io, let o := serverStep b m cfg (.control i io) r.1
        ⟨CtMsgType.registerFailed.toByte, true⟩ ∈ controlCalls o.effects →
          (∀ j, (o.state.state.peers j).svc = (r.1.state.peers j).svc) ∧
            openAfter [] (r.2 ++ o.effects) = openAfter [] r.2 := by
  intro r
  constructor
  · have hkeep : r.1.state.SlotsSettled b ∧ ∀ i, (r.1.state.peers i).Governed b cfg := by
      refine serverRun_keeps (I := fun st _ => st.SlotsSettled b ∧ ∀ i, (st.peers i).Governed b cfg)
        ?_ ⟨.start control, fun i hlive => absurd hlive (by simp [ServerState.start, ServerPeer.zero])⟩
        hrun
      rintro G st tr es st' hmove ⟨hsettled, hst⟩
      exact ⟨hmove.settled hsettled, hmove.governed hsettled hst⟩
    exact hkeep.2
  · intro i io o hsent
    have hends : (controlEvent b m cfg i io r.1.state).Ends [] _ _ := controlEvent_refusal
    have hcall : ∃ calls, Calls [] calls o.effects ∧
        (⟨CtMsgType.registerFailed.toByte, true⟩ ∈ calls →
          (∀ j, (o.state.state.peers j).svc = (r.1.state.peers j).svc) ∧
            ∀ held, openAfter held o.effects = held) := by
      cases hv : (controlEvent b m cfg i io r.1.state).value with
      | some _ => exact hends.of_some hv
      | none => exact absurd (hends.of_none hv) id
    obtain ⟨calls, hcalls, hrefusal⟩ := hcall
    rw [hcalls.eq] at hsent
    obtain ⟨hsvc, hheld⟩ := hrefusal hsent
    exact ⟨hsvc, by rw [openAfter_append, hheld]⟩

/-- `edge` has registered `web`. -/
theorem web_accepted :
    (((hubState (hubJoin ++ [hubControl webRegister 6 8080])).peers 0).svc.map fun s => s.cfg.id) =
        [webService.id] ∧
      ∃ a, ((hubState (hubJoin ++ [hubControl webRegister 6 8080])).peers 0).TableAccepted
        defaultBuild edgeConfig a := by
  have hfacts : ServerRun defaultBuild hubLog.monocypher edgeConfig [hubListener] 0
        (hubJoin ++ [hubControl webRegister 6 8080]) ∧
      ((hubState (hubJoin ++ [hubControl webRegister 6 8080])).peers 0).active = true ∧
      (((hubState (hubJoin ++ [hubControl webRegister 6 8080])).peers 0).svc.map fun s =>
        s.cfg.id) = [webService.id] := by decide +kernel
  obtain ⟨hrun, hactive, hids⟩ := hfacts
  refine ⟨hids, ?_⟩
  rw [hubState_eq] at hactive ⊢
  exact (services_accepted hrun).1 0 hactive

end Ctunnel
