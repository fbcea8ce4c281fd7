import Ctunnel.Config.Stored

/-!
# Accepted files

Between the last line of the file and the checks of `ct_config_validate`, the
environment can override two fields, and the log file gets its default name. Everything
else of an accepted configuration is what the file says.
-/

namespace Ctunnel

open Lib

variable {b : LoaderBuild} {lib : HostLibrary} {env : LoaderEnv}

/-- The four steps of an accepted load. -/
theorem ctConfigLoad_ok {path : CString} {file : Bytes} {c : LoadedConfig} :
    ctConfigLoad b lib env path file = .ok c ↔
      ∃ p q, readConfig b lib.toCLibrary path file = .ok p ∧
        applyEnvironment b lib.toCLibrary env p = .ok q ∧ setDefaultLogFile b q = .ok c ∧
        configRefused b lib c = none := by
  unfold ctConfigLoad
  rw [except_bind_ok]
  constructor
  · rintro ⟨p, hp, h⟩
    obtain ⟨q, hq, h⟩ := except_bind_ok.mp h
    obtain ⟨r, hr, h⟩ := except_bind_ok.mp h
    cases hrefused : configRefused b lib r with
    | some e =>
        rw [hrefused] at h
        cases h
    | none =>
        rw [hrefused] at h
        cases h
        exact ⟨p, q, hp, hq, hr, hrefused⟩
  · rintro ⟨p, q, hp, hq, hr, hrefused⟩
    refine ⟨p, hp, except_bind_ok.mpr ⟨q, hq, except_bind_ok.mpr ⟨c, hr, ?_⟩⟩⟩
    rw [hrefused]
    rfl

/-- A load that succeeds has a result. -/
theorem exists_of_toBool {ε α : Type} {x : Except ε α} (h : x.toBool = true) : ∃ a, x = .ok a := by
  cases x with
  | ok a => exact ⟨a, rfl⟩
  | error e => cases h

/-- The environment sets the field of the key. -/
def Overridden (b : LoaderBuild) (env : LoaderEnv) (k : IntKey) : Prop :=
  k = .poolCount ∧ b.envOverride = true ∧ env.poolCount ≠ none

/-- What `c` has of `p`, the configuration of the file. -/
structure AfterFile (b : LoaderBuild) (env : LoaderEnv) (p c : LoadedConfig) : Prop where
  mode : c.mode = p.mode
  str : ∀ k, k ≠ .logFile → c.str k = p.str k
  port : c.port = p.port
  int : ∀ k, ¬ Overridden b env k → c.int k = p.int k
  defaultDataEncryption : c.defaultDataEncryption = p.defaultDataEncryption
  services : c.services = p.services
  clients : c.clients = p.clients

theorem applyEnvironment_after {p q : LoadedConfig}
    (h : applyEnvironment b lib.toCLibrary env p = .ok q) : AfterFile b env p q := by
  unfold applyEnvironment at h
  by_cases henv : b.envOverride = true
  · rw [if_pos henv] at h
    obtain ⟨m, hm, h⟩ := except_bind_ok.mp h
    have hlevel : ∃ level, m = { p with logLevel := level } := by
      unfold overrideLogLevel at hm
      split at hm
      · cases hm
        exact ⟨p.logLevel, rfl⟩
      · split at hm <;> cases hm
        exact ⟨_, rfl⟩
    obtain ⟨level, rfl⟩ := hlevel
    unfold overridePoolCount at h
    split at h
    · cases h
      exact ⟨rfl, fun _ _ => rfl, rfl, fun _ _ => rfl, rfl, rfl, rfl⟩
    · rename_i v hpool
      split at h <;> cases h
      refine ⟨rfl, fun _ _ => rfl, rfl, fun k hk => ?_, rfl, rfl, rfl⟩
      have hother : k ≠ .poolCount := fun heq => hk ⟨heq, henv, by simp [hpool]⟩
      exact Function.update_of_ne hother _ _
  · rw [if_neg henv] at h
    cases h
    exact ⟨rfl, fun _ _ => rfl, rfl, fun _ _ => rfl, rfl, rfl, rfl⟩

theorem setDefaultLogFile_after {q c : LoadedConfig} (h : setDefaultLogFile b q = .ok c) :
    ∃ path, c = { q with str := Function.update q.str .logFile path } := by
  unfold setDefaultLogFile at h
  split at h
  · split at h <;> cases h
    exact ⟨_, rfl⟩
  · cases h
    exact ⟨q.str .logFile, by rw [Function.update_eq_self]⟩

/-- An accepted file says a configuration, and the result has it. -/
theorem load_accepted {path : CString} {file : Bytes} {c : LoadedConfig}
    (h : ctConfigLoad b lib env path file = .ok c) :
    ∃ p, Says b lib.toCLibrary (initialConfig b path) (fileSections file) p ∧
      AfterFile b env p c ∧ configRefused b lib c = none := by
  obtain ⟨p, q, hp, hq, hc, hrefused⟩ := ctConfigLoad_ok.mp h
  obtain ⟨-, -, -, hsaid⟩ := readConfig_said hp
  have hafter := applyEnvironment_after hq
  obtain ⟨log, rfl⟩ := setDefaultLogFile_after hc
  refine ⟨p, hsaid, ⟨hafter.mode, fun k hk => ?_, hafter.port, hafter.int,
    hafter.defaultDataEncryption, hafter.services, hafter.clients⟩, hrefused⟩
  rw [← hafter.str k hk]
  exact Function.update_of_ne hk _ _

/-! ## The services do not matter for it -/

theorem overrideLogLevel_services (value : Option CString) (c : LoadedConfig)
    (services : List LoadedService) :
    overrideLogLevel b value { c with services := services } =
      (overrideLogLevel b value c).map fun c => { c with services := services } := by
  cases value with
  | none => rfl
  | some v =>
      simp only [overrideLogLevel]
      cases ctLogParseLevel b v.bytes <;> rfl

theorem overridePoolCount_services (value : Option CString) (c : LoadedConfig)
    (services : List LoadedService) :
    overridePoolCount b lib.toCLibrary value { c with services := services } =
      (overridePoolCount b lib.toCLibrary value c).map fun c => { c with services := services } := by
  cases value with
  | none => rfl
  | some v =>
      simp only [overridePoolCount]
      cases integer lib.toCLibrary v.bytes (0, b.maxStreams) <;> rfl

theorem applyEnvironment_services (c : LoadedConfig) (services : List LoadedService) :
    applyEnvironment b lib.toCLibrary env { c with services := services } =
      (applyEnvironment b lib.toCLibrary env c).map fun c => { c with services := services } := by
  unfold applyEnvironment
  by_cases henv : b.envOverride = true
  · rw [if_pos henv, if_pos henv, overrideLogLevel_services]
    cases overrideLogLevel b env.logLevel c with
    | error e => rfl
    | ok m => exact overridePoolCount_services env.poolCount m services
  · rw [if_neg henv, if_neg henv]
    rfl

theorem setDefaultLogFile_services (c : LoadedConfig) (services : List LoadedService) :
    setDefaultLogFile b { c with services := services } =
      (setDefaultLogFile b c).map fun c => { c with services := services } := by
  unfold setDefaultLogFile
  by_cases hlog : c.str .logFile = .empty
  · rw [if_pos hlog, if_pos hlog]
    cases cp b.maxPathLength (directoryOf c.configPath.bytes ++ defaultLogName b c.mode) <;> rfl
  · rw [if_neg hlog, if_neg hlog]
    rfl

/-! ## What `ct_config_validate` has seen -/

theorem refuses_none {α : Type} {p : Prop} [Decidable p] {e : α} {x : Option α} :
    (if p then some e else x) = none ↔ ¬ p ∧ x = none := by
  by_cases hp : p <;> simp [hp]

/-- What holds of every service of a client. -/
structure ServiceValid (b : LoaderBuild) (s : LoadedService) : Prop where
  type : s.type = 1 ∨ s.type = 2
  proxyProtocol : b.proxyProtocol = true → s.type ≠ 1 → s.proxyProtocol = .off
  udp : s.type = 2 → b.udp = true
  udpOptions : b.udp = true → s.type = 1 → s.udpOptionsSeen = false
  remotePort : s.remotePort ≠ 0
  localPort : s.localPort ≠ 0

theorem serviceRefused_none {before : List LoadedService} {s : LoadedService} :
    serviceRefused b lib before s = none ↔
      serviceRefused b lib [] s = none ∧ ∀ t ∈ before, t.id ≠ s.id := by
  unfold serviceRefused
  cases (addressFamilyUnavailable b.toBuild lib s.remoteAddr).or
      (addressFamilyUnavailable b.toBuild lib s.localAddr) with
  | some family => simp
  | none =>
      simp only [refuses_none, List.not_mem_nil, false_and, exists_false, not_false_eq_true,
        and_true, not_exists, not_and, and_assoc]

theorem serviceRefused_valid {before : List LoadedService} {s : LoadedService}
    (h : serviceRefused b lib before s = none) : ServiceValid b s := by
  unfold serviceRefused at h
  split at h
  · cases h
  · simp only [refuses_none] at h
    obtain ⟨htype, hproxy, hudp, hoption, -, hports, -⟩ := h
    have htypes : s.type = 1 ∨ s.type = 2 := by
      by_contra hne
      push Not at hne
      exact htype hne
    push Not at hproxy hudp hoption hports
    refine ⟨htypes, hproxy, fun h2 => ?_, fun hu h1 => ?_, hports.1, hports.2⟩
    · by_contra hoff
      exact hudp (by simpa using hoff) h2
    · simpa using hoption hu h1

/-- The services are accepted exactly if each one is and their ids are distinct. -/
theorem servicesRefused_none {before services : List LoadedService} :
    servicesRefused b lib before services = none ↔
      (∀ s ∈ services, serviceRefused b lib [] s = none) ∧
        services.Pairwise (fun s t => s.id ≠ t.id) ∧
        ∀ t ∈ before, ∀ s ∈ services, t.id ≠ s.id := by
  induction services generalizing before with
  | nil => simp [servicesRefused]
  | cons s services ih =>
      rw [servicesRefused, Option.or_eq_none_iff, serviceRefused_none, ih, List.forall_mem_cons,
        List.pairwise_cons]
      constructor
      · rintro ⟨⟨hs, hbefore⟩, hrest, hpairs, hnew⟩
        refine ⟨⟨hs, hrest⟩, ⟨fun t ht => ?_, hpairs⟩, fun t ht => ?_⟩
        · exact hnew s (List.mem_append_right before List.mem_cons_self) t ht
        · refine List.forall_mem_cons.mpr ⟨hbefore t ht, fun t' ht' => ?_⟩
          exact hnew t (List.mem_append_left [s] ht) t' ht'
      · rintro ⟨⟨hs, hrest⟩, ⟨hhead, hpairs⟩, hnew⟩
        refine ⟨⟨hs, fun t ht => hnew t ht s List.mem_cons_self⟩, hrest, hpairs, fun t ht t' ht' => ?_⟩
        rcases List.mem_append.mp ht with ht | ht
        · exact hnew t ht t' (List.mem_cons_of_mem s ht')
        · rw [List.mem_singleton.mp ht]
          exact hhead t' ht'

/-- Their order does not matter. -/
theorem servicesRefused_perm {services services' : List LoadedService}
    (hperm : services.Perm services') (h : servicesRefused b lib [] services = none) :
    servicesRefused b lib [] services' = none := by
  obtain ⟨hvalid, hpairs, -⟩ := servicesRefused_none.mp h
  refine servicesRefused_none.mpr ⟨fun s hs => hvalid s (hperm.mem_iff.mpr hs), ?_, by simp⟩
  exact (hperm.pairwise_iff fun hne => hne.symm).mp hpairs

/-- What holds of an accepted configuration. -/
structure ConfigValid (b : LoaderBuild) (lib : HostLibrary) (c : LoadedConfig) : Prop where
  mode : c.mode ≠ .none
  identity : c.str .identityPrivateKey ≠ .empty
  heartbeat : c.int .heartbeatInterval < c.int .heartbeatTimeout
  pool : b.workPool = false → c.int .poolCount = 0
  server : c.mode = .server → c.str .authorizedClientsFile ≠ .empty ∧ c.services = []
  client : c.mode ≠ .server → c.str .serverAddr ≠ .empty ∧ c.str .clientId ≠ .empty ∧
    c.str .serverPublicKey ≠ .empty ∧ servicesRefused b lib [] c.services = none

theorem configRefused_valid {c : LoadedConfig} (h : configRefused b lib c = none) :
    ConfigValid b lib c := by
  unfold configRefused at h
  simp only [refuses_none] at h
  obtain ⟨hmode, -, -, hidentity, -, h⟩ := h
  split at h
  · cases h
  · simp only [refuses_none] at h
    obtain ⟨hbeat, -, -, hpool, -, h⟩ := h
    refine ⟨hmode, hidentity, by omega, fun hwork => ?_, fun hserver => ?_, fun hclient => ?_⟩
    · by_contra hne
      exact hpool ⟨hwork, hne⟩
    · rw [if_pos hserver] at h
      simp only [refuses_none] at h
      exact ⟨h.1, by simpa using h.2.1⟩
    · rw [if_neg hclient] at h
      simp only [refuses_none] at h
      obtain ⟨hfields, hservices⟩ := h
      push Not at hfields
      exact ⟨hfields.1, hfields.2.1, hfields.2.2, hservices⟩

/-- A client may have other services. -/
theorem configRefused_services {c : LoadedConfig} {services : List LoadedService}
    (hclient : c.mode = .client) (h : configRefused b lib c = none)
    (hservices : servicesRefused b lib [] services = none) :
    configRefused b lib { c with services := services } = none := by
  unfold configRefused at h ⊢
  simp only [refuses_none] at h ⊢
  obtain ⟨hmode, hserver, hbuilt, hidentity, hcipher, h⟩ := h
  refine ⟨hmode, hserver, hbuilt, hidentity, hcipher, ?_⟩
  split at h
  · cases h
  · simp only [refuses_none] at h ⊢
    obtain ⟨hbeat, hclients, hlimits, hpool, hdata, h⟩ := h
    refine ⟨hbeat, hclients, hlimits, hpool, hdata, ?_⟩
    rw [if_neg (by rw [hclient]; decide)] at h ⊢
    simp only [refuses_none] at h ⊢
    exact ⟨h.1, hservices⟩

/-! ## Fields in range -/

/-- What every line of `[common]` keeps. -/
structure InRange (b : LoaderBuild) (c : LoadedConfig) : Prop where
  int : ∀ k, k ≠ .poolCount → (k.range b).1 ≤ c.int k ∧ c.int k ≤ (k.range b).2
  port : ∀ k, c.port k ≠ 0
  clients : c.clients = []

theorem integer_range {l : CLibrary} {v : Bytes} {range : Int × Int} {n : Int}
    (h : integer l v range = some n) : range.1 ≤ n ∧ n ≤ range.2 := by
  unfold integer at h
  simp only at h
  split at h
  · cases h
  · rename_i hok
    push Not at hok
    obtain rfl := Option.some.inj h
    exact hok.2.2

theorem port_ne_zero {l : CLibrary} {v : Bytes} {p : UInt16} (h : port l v = some p) : p ≠ 0 := by
  obtain ⟨n, hn, rfl⟩ := Option.map_eq_some_iff.mp h
  have hrange := integer_range hn
  simp only at hrange
  intro hzero
  have hvalue := congrArg UInt16.toNat hzero
  rw [UInt16.toNat_ofNat_of_lt' (show n.toNat < 65536 by omega)] at hvalue
  have hnat : n.toNat = 0 := hvalue
  omega

theorem inRange_initial (path : CString) : InRange b (initialConfig b path) where
  int := by
    have hclients := b.maxClients_range
    have hservices := b.maxServices_range
    have hstreams := b.defaultMaxStreams_range
    have hpending := b.defaultMaxPendingStreams_range
    intro k hk
    show (k.range b).1 ≤ IntKey.initial b k ∧ IntKey.initial b k ≤ (k.range b).2
    cases k with
    | poolCount => exact absurd rfl hk
    | _ => constructor <;> simp only [IntKey.range, IntKey.initial] <;> omega
  port := fun _ => by
    show (7000 : UInt16) ≠ 0
    decide
  clients := rfl

theorem InRange.apply {l : CLibrary} {kv : Bytes × Bytes} {u : CommonUpdate} {c : LoadedConfig}
    (h : InRange b c) (hu : lineUpdate b l kv = some u) : InRange b (u.apply c) := by
  obtain ⟨key, -, hup⟩ := lineUpdate_some.mp hu
  cases u with
  | int k n =>
      refine ⟨fun k' hk' => ?_, h.port, h.clients⟩
      by_cases heq : k' = k
      · subst heq
        have hkey : key = .int k' := by
          rcases commonUpdate_key hup with hset | hset
          · exact (Option.some.inj hset).symm
          · cases hset
        subst hkey
        simp only [commonUpdate, hk', false_and, if_false] at hup
        obtain ⟨m, hm, heq⟩ := except_map_ok hup
        obtain rfl : n = m := by injection heq
        simp only [CommonUpdate.apply, Function.update_self]
        exact integer_range (orInvalid_ok hm)
      · simp only [CommonUpdate.apply, Function.update_of_ne heq]
        exact h.int k' hk'
  | port k p =>
      refine ⟨h.int, fun k' => ?_, h.clients⟩
      by_cases heq : k' = k
      · subst heq
        have hkey : key = .port k' := by
          rcases commonUpdate_key hup with hset | hset
          · exact (Option.some.inj hset).symm
          · cases hset
        subst hkey
        obtain ⟨m, hm, heq⟩ := except_map_ok hup
        obtain rfl : p = m := by injection heq
        simp only [CommonUpdate.apply, Function.update_self]
        exact port_ne_zero (orInvalid_ok hm)
      · simp only [CommonUpdate.apply, Function.update_of_ne heq]
        exact h.port k'
  | _ => exact ⟨h.int, h.port, h.clients⟩

/-- An accepted configuration is in range. -/
theorem load_inRange {path : CString} {file : Bytes} {c : LoadedConfig}
    (h : ctConfigLoad b lib env path file = .ok c) : InRange b c := by
  obtain ⟨p, hsaid, hafter, -⟩ := load_accepted h
  have hp : InRange b { p with services := [] } :=
    commonLines_inv (P := fun c => InRange b c) (fun kv _ u hu c hc => hc.apply hu) hsaid.common
      (inRange_initial path)
  refine ⟨fun k hk => ?_, fun k => ?_, ?_⟩
  · rw [hafter.int k fun hover => hk hover.1]
    exact hp.int k hk
  · rw [hafter.port]
    exact hp.port k
  · rw [hafter.clients]
    exact hp.clients

end Ctunnel
