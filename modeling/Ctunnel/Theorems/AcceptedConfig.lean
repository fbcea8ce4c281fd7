import Ctunnel.Client.Reconnect
import Ctunnel.Config.Accepted
import Ctunnel.Config.Authorized
import Ctunnel.Lib.IniOrder

/-!
# What an accepted configuration guarantees

The running program does not look again at what `ct_config_load` has let through. The
ranges come from the parsers of the keys, the rest from `ct_config_validate`; the two meet
in `accepted_sound`.
-/

namespace Ctunnel

open Lib

variable {b : LoaderBuild} {lib : HostLibrary} {env : LoaderEnv}

/-! ## The guarantees -/

/-- A service of an accepted configuration. -/
structure ServiceSound (b : LoaderBuild) (s : LoadedService) : Prop where
  id : s.id ≠ .empty
  type : s.type = 1 ∨ s.type = 2
  remotePort : 1 ≤ s.remotePort.toNat ∧ s.remotePort.toNat ≤ 65535
  localPort : 1 ≤ s.localPort.toNat ∧ s.localPort.toNat ≤ 65535
  proxyProtocol : s.proxyProtocol ≠ .off → s.type = 1
  udpOptions : s.udpOptionsSeen = true → s.type = 2
  udpRanges : s.type = 2 → ∀ k : UdpKey, (k.range b.toBuild).1 ≤ k.field s.toCtServiceConfig ∧
    k.field s.toCtServiceConfig ≤ (k.range b.toBuild).2

/-- An accepted configuration, from a file with these sections. -/
structure ConfigSound (b : LoaderBuild) (secs : List (Bytes × Pairs)) (c : LoadedConfig) : Prop where
  mode : c.mode = .server ∨ c.mode = .client
  identity : c.str .identityPrivateKey ≠ .empty
  server : c.mode = .server → c.str .authorizedClientsFile ≠ .empty ∧ c.services = []
  client : c.mode = .client → c.str .serverAddr ≠ .empty ∧ c.str .clientId ≠ .empty ∧
    c.str .serverPublicKey ≠ .empty
  ports : ∀ k, 1 ≤ (c.port k).toNat ∧ (c.port k).toNat ≤ 65535
  heartbeat : 1 ≤ c.int .heartbeatInterval ∧ c.int .heartbeatInterval < c.int .heartbeatTimeout
  maxClients : 1 ≤ c.int .maxClients ∧ c.int .maxClients ≤ b.maxClients
  maxServices : 1 ≤ c.int .maxServicesPerClient ∧ c.int .maxServicesPerClient ≤ b.maxServices
  maxStreams : 1 ≤ c.int .maxStreamsPerClient ∧ c.int .maxStreamsPerClient ≤ b.maxStreams
  maxPending : 1 ≤ c.int .maxPendingStreams ∧ c.int .maxPendingStreams ≤ b.maxPendingStreams
  count : c.services.length ≤ b.maxServices
  ids : (c.services.map (·.id)).Nodup
  services : ∀ s ∈ c.services, ServiceSound b s
  /-- A section with an option of UDP is that of a UDP service. -/
  options : List.Forall₂ (fun sec s =>
    (∃ kv ∈ sec.2, ∃ k, serviceKey b.toBuild kv.1 = some (.udp k)) → s.type = 2)
    (serviceSections secs) c.services
  once : ((commonPairs secs).map Prod.fst).Nodup ∧ ∀ sec ∈ secs, (sec.2.map Prod.fst).Nodup

/-! ## The lines of a service -/

variable {bd : Build} {l : CLibrary}

/-- What every line of a service section keeps. -/
structure ServiceInRange (b : Build) (s : LoadedService) : Prop where
  udp : b.udp = true → ∀ k : UdpKey, (k.range b).1 ≤ k.field s.toCtServiceConfig ∧
    k.field s.toCtServiceConfig ≤ (k.range b).2
  options : b.udp = false → s.udpOptionsSeen = false
  proxyProtocol : b.proxyProtocol = false → s.proxyProtocol = .off

theorem serviceInRange_new (id : Bytes) (e : CtEncMode) : ServiceInRange bd (newService bd id e) where
  udp := by
    intro hudp k
    have hsessions := bd.maxUdpSessions_range
    have hsize := bd.maxUdpDatagramSize_range
    cases k <;> simp only [UdpKey.range, UdpKey.field, newService, hudp, if_true] <;> omega
  options := fun _ => rfl
  proxyProtocol := fun _ => rfl

/-- The keys of the PROXY protocol are known only where it is compiled in. -/
theorem serviceKey_proxy {k : Bytes} (h : serviceKey bd k = some .proxyProtocol) :
    bd.proxyProtocol = true := by
  have hmem := List.mem_of_find?_eq_some h
  by_contra hoff
  simp [serviceKeys, hoff] at hmem

theorem ServiceInRange.line {kv : Bytes × Bytes} {s s' : LoadedService} (h : ServiceInRange bd s)
    (hline : serviceLine bd l s kv = some s') : ServiceInRange bd s' := by
  obtain ⟨key, hkey, hup⟩ := serviceLine_some.mp hline
  cases key with
  | type =>
      obtain ⟨t, -, rfl⟩ := except_map_ok hup
      exact ⟨fun hudp k => by cases k <;> exact h.udp hudp _, h.options, h.proxyProtocol⟩
  | remoteAddr =>
      obtain ⟨a, -, rfl⟩ := except_map_ok hup
      exact ⟨fun hudp k => by cases k <;> exact h.udp hudp _, h.options, h.proxyProtocol⟩
  | localAddr =>
      obtain ⟨a, -, rfl⟩ := except_map_ok hup
      exact ⟨fun hudp k => by cases k <;> exact h.udp hudp _, h.options, h.proxyProtocol⟩
  | remotePort =>
      obtain ⟨p, -, rfl⟩ := except_map_ok hup
      exact ⟨fun hudp k => by cases k <;> exact h.udp hudp _, h.options, h.proxyProtocol⟩
  | localPort =>
      obtain ⟨p, -, rfl⟩ := except_map_ok hup
      exact ⟨fun hudp k => by cases k <;> exact h.udp hudp _, h.options, h.proxyProtocol⟩
  | dataEncryption =>
      obtain ⟨e, -, rfl⟩ := except_map_ok hup
      exact ⟨fun hudp k => by cases k <;> exact h.udp hudp _, h.options, h.proxyProtocol⟩
  | proxyProtocol =>
      obtain ⟨m, -, rfl⟩ := except_map_ok hup
      refine ⟨fun hudp k => by cases k <;> exact h.udp hudp _, h.options, fun hoff => ?_⟩
      rw [serviceKey_proxy hkey] at hoff
      cases hoff
  | proxyProtocolTlv =>
      simp only [serviceUpdate] at hup
      split at hup <;> cases hup
      exact h
  | udp k =>
      have hudp : bd.udp = true := by
        by_contra hoff
        simp [serviceUpdate, hoff] at hup
      obtain ⟨n, hn, rfl⟩ := serviceUpdate_udp hup
      have hrange := integer_range hn
      refine ⟨fun _ k' => ?_, fun hoff => ?_, fun hoff => ?_⟩
      · by_cases hk : k' = k
        · subst hk
          rw [UdpKey.field_store]
          have hpos : 0 < (k'.range bd).1 := by cases k' <;> simp [UdpKey.range]
          omega
        · rw [UdpKey.field_store_of_ne hk]
          exact h.udp hudp k'
      · rw [hudp] at hoff
        cases hoff
      · cases k <;> exact h.proxyProtocol hoff

/-- The id of a service is the name of its section. -/
theorem serviceOf_id {e : CtEncMode} {sec : Bytes × Pairs} {s : LoadedService}
    (h : serviceOf bd l e sec = some s) : s.id = CString.ofBytes sec.1 := by
  refine serviceLines_inv (P := fun s => s.id = CString.ofBytes sec.1)
    (fun kv _ t t' ht hid => ?_) h rfl
  obtain ⟨key, -, hup⟩ := serviceLine_some.mp ht
  cases key with
  | proxyProtocolTlv =>
      simp only [serviceUpdate] at hup
      split at hup <;> cases hup
      exact hid
  | udp k =>
      obtain ⟨n, -, rfl⟩ := serviceUpdate_udp hup
      cases k <;> exact hid
  | _ =>
      obtain ⟨a, -, rfl⟩ := except_map_ok hup
      exact hid

/-- A section without a name sets no type. -/
theorem serviceOf_name {e : CtEncMode} {sec : Bytes × Pairs} {s : LoadedService}
    (hsec : 0 ∉ sec.1) (hempty : sec.1 = [] → sec.2 = []) (h : serviceOf bd l e sec = some s)
    (htype : s.type = 1 ∨ s.type = 2) : s.id ≠ .empty := by
  intro hid
  rw [serviceOf_id h] at hid
  have hname : sec.1 = [] := by
    have hbytes := congrArg CString.bytes hid
    rw [show (CString.ofBytes sec.1).bytes = sec.1 from cutNul_of_noNul hsec] at hbytes
    exact hbytes
  have hnew : s = newService bd sec.1 e := by
    rw [serviceOf, hempty hname] at h
    exact (Option.some.inj h).symm
  have hzero : s.type = 0 := by rw [hnew]; rfl
  rw [hzero] at htype
  revert htype
  decide

theorem toNat_pos {p : UInt16} (h : p ≠ 0) : 1 ≤ p.toNat ∧ p.toNat ≤ 65535 := by
  have hlt := p.toNat_lt
  refine ⟨Nat.one_le_iff_ne_zero.mpr fun hzero => h (UInt16.toNat_inj.mp hzero), by omega⟩

/-- A service that was read and that `ct_config_validate` lets pass. -/
theorem service_sound {e : CtEncMode} {sec : Bytes × Pairs} {s : LoadedService}
    (hsec : 0 ∉ sec.1) (hempty : sec.1 = [] → sec.2 = [])
    (h : serviceOf b.toBuild l e sec = some s) (hvalid : ServiceValid b s) : ServiceSound b s := by
  have hrange : ServiceInRange b.toBuild s :=
    serviceLines_inv (P := fun s => ServiceInRange b.toBuild s)
      (fun kv _ t t' ht hr => hr.line ht) h (serviceInRange_new sec.1 e)
  refine ⟨serviceOf_name hsec hempty h hvalid.type, hvalid.type, toNat_pos hvalid.remotePort,
    toNat_pos hvalid.localPort, fun hproxy => ?_, fun hseen => ?_, fun htype => ?_⟩
  · by_contra hother
    cases hbuilt : b.proxyProtocol with
    | true => exact hproxy (hvalid.proxyProtocol hbuilt hother)
    | false => exact hproxy (hrange.proxyProtocol hbuilt)
  · cases hbuilt : b.udp with
    | true =>
        refine hvalid.type.resolve_left fun htcp => ?_
        rw [hvalid.udpOptions hbuilt htcp] at hseen
        cases hseen
    | false =>
        rw [hrange.options hbuilt] at hseen
        cases hseen
  · exact hrange.udp (hvalid.udp htype)

/-- The options of UDP that a section sets are seen. -/
theorem options_seen {e : CtEncMode} {sec : Bytes × Pairs} {s : LoadedService}
    (hnodup : (sec.2.map Prod.fst).Nodup) (h : serviceOf bd l e sec = some s)
    (hset : ∃ kv ∈ sec.2, ∃ k, serviceKey bd kv.1 = some (.udp k)) : s.udpOptionsSeen = true := by
  obtain ⟨kv, hkv, k, hk⟩ := hset
  obtain ⟨key, hkey, hstored⟩ := serviceLines_stored hnodup h hkv
  rw [hk] at hkey
  obtain rfl := Option.some.inj hkey
  exact hstored.1

/-! ## The whole configuration -/

/-- The keys of a `[common]` section are among those of all of them. -/
theorem section_keys_nodup {secs : List (Bytes × Pairs)} {sec : Bytes × Pairs} (hsec : sec ∈ secs)
    (hfits : SectionFits b sec) (hnodup : ((commonPairs secs).map Prod.fst).Nodup) :
    (sec.2.map Prod.fst).Nodup := by
  by_cases hname : sec.1 = ascii "common"
  · have hmem : sec.2 ∈ (secs.filter fun sec => decide (sec.1 = ascii "common")).map Prod.snd :=
      List.mem_map_of_mem (List.mem_filter.mpr ⟨hsec, by simpa using hname⟩)
    exact hnodup.sublist ((List.sublist_flatten_of_mem hmem).map Prod.fst)
  · exact (hfits.2 hname).2.nodup

/-- A configuration that `ct_config_load` accepts is sound, whatever the file, the environment
and the C library. -/
theorem accepted_sound {path : CString} {file : Bytes} {c : LoadedConfig}
    (h : ctConfigLoad b lib env path file = .ok c) : ConfigSound b (fileSections file) c := by
  obtain ⟨p, hsaid, hafter, hrefused⟩ := load_accepted h
  have hvalid := configRefused_valid hrefused
  have hrange := load_inRange h
  have hclient : c.mode = .client → c.mode ≠ .server := fun heq => by
    rw [heq]
    decide
  have hmode : c.mode = .server ∨ c.mode = .client := by
    cases hm : c.mode with
    | none => exact absurd hm hvalid.mode
    | server => exact .inl rfl
    | client => exact .inr rfl
  -- what the sections of the services made of them, and what was checked afterwards
  have hread := (List.forall₂_and_left _ _).mpr
    ⟨fun sec (hsec : sec ∈ serviceSections (fileSections file)) => hsec,
      servicesOf_forall₂ hsaid.services⟩
  rw [← hafter.services] at hread
  have hchecked : ∀ s ∈ c.services, ServiceValid b s := by
    intro s hs
    rcases hmode with hm | hm
    · rw [(hvalid.server hm).2] at hs
      cases hs
    · exact serviceRefused_valid
        ((servicesRefused_none.mp (hvalid.client (hclient hm)).2.2.2).1 s hs)
  have hfits : ∀ {sec}, sec ∈ serviceSections (fileSections file) → sec ∈ fileSections file ∧
      (sec.1 = [] → sec.2 = []) ∧ KeysTaken 16 32 [] (sec.2.map Prod.fst) := by
    intro sec hsec
    obtain ⟨hmem, hname⟩ := List.mem_filter.mp hsec
    exact ⟨hmem, (hsaid.fits sec hmem).2 (by simpa using hname)⟩
  have hsound : ∀ s ∈ c.services, ServiceSound b s := by
    intro s hs
    obtain ⟨sec, -, hsec, e, hof⟩ := (forall₂_partner hread).2 s hs
    obtain ⟨hmem, hempty, -⟩ := hfits hsec
    exact service_sound (fileSections_noNul hmem).1 hempty hof (hchecked s hs)
  have hheart := hrange.int .heartbeatInterval (by decide)
  refine ⟨hmode, hvalid.identity, hvalid.server,
    fun hm => ⟨(hvalid.client (hclient hm)).1, (hvalid.client (hclient hm)).2.1,
      (hvalid.client (hclient hm)).2.2.1⟩,
    fun k => toNat_pos (hrange.port k), ⟨hheart.1, hvalid.heartbeat⟩,
    hrange.int .maxClients (by decide), hrange.int .maxServicesPerClient (by decide),
    hrange.int .maxStreamsPerClient (by decide), hrange.int .maxPendingStreams (by decide),
    hafter.services ▸ hsaid.count, ?_, hsound, ?_, hsaid.keys.nodup,
    fun sec hsec => section_keys_nodup hsec (hsaid.fits sec hsec) hsaid.keys.nodup⟩
  · rcases hmode with hm | hm
    · rw [(hvalid.server hm).2]
      exact List.nodup_nil
    · exact List.pairwise_map.mpr (servicesRefused_none.mp (hvalid.client (hclient hm)).2.2.2).2.1
  · refine List.forall₂_iff_zip.mpr ⟨hread.length_eq, fun {sec s} hzip hset => ?_⟩
    obtain ⟨hsec, e, hof⟩ := List.forall₂_zip hread hzip
    obtain ⟨-, -, hkeys⟩ := hfits hsec
    exact (hsound s (List.of_mem_zip hzip).2).udpOptions (options_seen hkeys.nodup hof hset)

/-! ## What the running program assumes -/

/-- The limits that the server relies on. -/
theorem load_limitsValid {path : CString} {file : Bytes} {c : LoadedConfig}
    (h : ctConfigLoad b lib env path file = .ok c) : limitsValid b.toBuild c.toCtConfig = true := by
  have hrange := load_inRange h
  have hclients := (hrange.int .maxClients (by decide)).2
  have hservices := (hrange.int .maxServicesPerClient (by decide)).2
  have hstreams := (hrange.int .maxStreamsPerClient (by decide)).2
  have hpending := (hrange.int .maxPendingStreams (by decide)).2
  simp only [IntKey.range] at hclients hservices hstreams hpending
  unfold limitsValid
  rw [Bool.and_eq_true, decide_eq_true_eq, decide_eq_true_eq]
  show (c.int .maxClients).toNat ≤ _ ∧ (c.int .maxServicesPerClient).toNat ≤ _ ∧
    (c.int .maxStreamsPerClient).toNat ≤ _ ∧ (c.int .maxPendingStreams).toNat ≤ _
  omega

/-- The delays of the client, with their ranges. -/
def LoadedConfig.toReconnectConfig (c : LoadedConfig) (h : InRange b c) : ReconnectConfig where
  initialDelay := c.int .reconnectInitialDelay
  maxDelay := c.int .reconnectMaxDelay
  jitterPercent := c.int .reconnectJitterPercent
  initialDelay_range := h.int .reconnectInitialDelay (by decide)
  maxDelay_range := h.int .reconnectMaxDelay (by decide)
  jitterPercent_range := h.int .reconnectJitterPercent (by decide)

/-! ## A client with two services -/

def twoServicesFile : Bytes :=
  ascii "[common]\nmode=client\nidentity_private_key=k\nserver_addr=s\nclient_id=c\n" ++
    ascii "server_public_key=p\n[web]\ntype=tcp\nremote_port=80\nlocal_port=80\n" ++
    ascii "proxy_protocol=v2\n[dns]\ntype=udp\nremote_port=53\nlocal_port=53\n" ++
    ascii "udp_idle_timeout=30\n"

def twoServicesHost : HostLibrary :=
  ⟨⟨2147483647, true, by decide⟩, fun _ => false, fun _ => false⟩

theorem two_services_sound :
    ∃ c, ctConfigLoad defaultLoaderBuild twoServicesHost ⟨none, none⟩ .empty twoServicesFile = .ok c ∧
      ConfigSound defaultLoaderBuild (fileSections twoServicesFile) c := by
  have hok : (ctConfigLoad defaultLoaderBuild twoServicesHost ⟨none, none⟩ .empty
      twoServicesFile).toBool = true := by decide +kernel
  obtain ⟨c, hc⟩ := exists_of_toBool hok
  exact ⟨c, hc, accepted_sound hc⟩

end Ctunnel
