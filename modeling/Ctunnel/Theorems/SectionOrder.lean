import Ctunnel.Config.Accepted

/-!
# The order of the sections of a configuration file

The lines of `[common]` commute and every service has a section of its own, so the
sections of a client's file could stand in any order. One line is in the way: a service
is given the default encryption when its header is read, and so it has the value that the
`[common]` lines before it have set.
-/

namespace Ctunnel

open Lib

variable {b : LoaderBuild} {lib : HostLibrary} {env : LoaderEnv}

/-! ## Files whose sections stand in any order -/

/-- The `default_data_encryption` of a file: what the key is set to, or the compiled one. -/
def DefaultEncryption (b : LoaderBuild) (secs : List (Bytes × Pairs)) (e : CtEncMode) : Prop :=
  (∃ v, (ascii "default_data_encryption", v) ∈ commonPairs secs ∧ enc b.toBuild v = .ok e) ∨
    (∀ v, (ascii "default_data_encryption", v) ∉ commonPairs secs) ∧
      e = compiledEncryption b.toBuild

/-- A service section without a `data_encryption` line. -/
def LeavesEncryption (sec : Bytes × Pairs) : Prop :=
  ascii "data_encryption" ∉ sec.2.map Prod.fst

/-- The configurations differ in the order of the services only. -/
def SameButOrder (c c' : LoadedConfig) : Prop :=
  c' = { c with services := c'.services } ∧ c.services.Perm c'.services

/-- Every order of the sections of the file is accepted with the same configuration, and the
services without a `data_encryption` line have the default of the file. -/
def OrderFree (b : LoaderBuild) (lib : HostLibrary) (env : LoaderEnv) (path : CString)
    (file : Bytes) (c : LoadedConfig) : Prop :=
  ∀ ls', Reordered (fileLines [] file) ls' →
    ∃ c', ctConfigLoad b lib env path (joinLines ls') = .ok c' ∧ SameButOrder c c' ∧
      ∀ e, DefaultEncryption b (fileSections (joinLines ls')) e →
        List.Forall₂ (fun sec s => LeavesEncryption sec → s.encryption = e)
          (serviceSections (fileSections (joinLines ls'))) c'.services

/-- The file has no NUL, and either no service relies on the default or the default is the
compiled one. -/
def OrderSafe (b : LoaderBuild) (file : Bytes) : Prop :=
  0 ∉ file ∧ ((∀ sec ∈ serviceSections (fileSections file), ¬ LeavesEncryption sec) ∨
    DefaultEncryption b (fileSections file) (compiledEncryption b.toBuild))

/-! ## The default of a file -/

theorem DefaultEncryption.unique {secs : List (Bytes × Pairs)} {e e' : CtEncMode}
    (hnodup : ((commonPairs secs).map Prod.fst).Nodup) (h : DefaultEncryption b secs e)
    (h' : DefaultEncryption b secs e') : e = e' := by
  rcases h with ⟨v, hv, he⟩ | ⟨hnone, rfl⟩
  · rcases h' with ⟨v', hv', he'⟩ | ⟨hnone, -⟩
    · have hsame := List.inj_on_of_nodup_map hnodup hv hv' rfl
      have hvalue : v = v' := congrArg Prod.snd hsame
      rw [hvalue, he'] at he
      exact (Except.ok.inj he).symm
    · exact absurd hv (hnone v)
  · rcases h' with ⟨v', hv', -⟩ | ⟨-, rfl⟩
    · exact absurd hv' (hnone v')
    · rfl

theorem commonPairs_perm {secs secs' : List (Bytes × Pairs)} (h : secs.Perm secs') :
    (commonPairs secs).Perm (commonPairs secs') :=
  (h.filter _).flatMap_right _

theorem DefaultEncryption.perm {secs secs' : List (Bytes × Pairs)} {e : CtEncMode}
    (h : DefaultEncryption b secs e) (hperm : secs.Perm secs') : DefaultEncryption b secs' e := by
  have hpairs := commonPairs_perm hperm
  rcases h with ⟨v, hv, he⟩ | ⟨hnone, rfl⟩
  · exact .inl ⟨v, hpairs.mem_iff.mp hv, he⟩
  · exact .inr ⟨fun v hv => hnone v (hpairs.mem_iff.mpr hv), rfl⟩

/-- The line of the default. -/
theorem defaultLine {l : CLibrary} {v : Bytes} {u : CommonUpdate}
    (h : lineUpdate b l (ascii "default_data_encryption", v) = some u) :
    ∃ e, enc b.toBuild v = .ok e ∧ u = .defaultDataEncryption e := by
  obtain ⟨key, hkey, hup⟩ := lineUpdate_some.mp h
  have hdefault : commonKey (ascii "default_data_encryption") = some .defaultDataEncryption := by
    decide
  rw [hdefault] at hkey
  obtain rfl := Option.some.inj hkey
  exact except_map_ok hup

/-- No other line touches the default. -/
theorem apply_default {l : CLibrary} {kv : Bytes × Bytes} {u : CommonUpdate}
    (hu : lineUpdate b l kv = some u) (hkv : kv.1 ≠ ascii "default_data_encryption")
    (c : LoadedConfig) : (u.apply c).defaultDataEncryption = c.defaultDataEncryption := by
  obtain ⟨key, hkey, hup⟩ := lineUpdate_some.mp hu
  cases u with
  | defaultDataEncryption e =>
      rcases commonUpdate_key hup with hset | hset
      · obtain rfl := Option.some.inj hset
        exact absurd (commonKey_name hkey).symm hkv
      · cases hset
  | _ => rfl

/-- The default that has been stored is that of the file. -/
theorem stored_default {l : CLibrary} {secs : List (Bytes × Pairs)} {c c' : LoadedConfig}
    (hnodup : ((commonPairs secs).map Prod.fst).Nodup)
    (hstart : c.defaultDataEncryption = compiledEncryption b.toBuild)
    (h : (commonPairs secs).foldlM (commonLine b l) c = some c') :
    DefaultEncryption b secs c'.defaultDataEncryption := by
  by_cases hset : ∃ v, (ascii "default_data_encryption", v) ∈ commonPairs secs
  · obtain ⟨v, hv⟩ := hset
    obtain ⟨u, hu, hholds⟩ := commonLines_holds hnodup h hv
    obtain ⟨e, he, rfl⟩ := defaultLine hu
    exact .inl ⟨v, hv, (show c'.defaultDataEncryption = e from hholds) ▸ he⟩
  · push Not at hset
    refine .inr ⟨hset, ?_⟩
    refine commonLines_inv (P := fun c => c.defaultDataEncryption = compiledEncryption b.toBuild)
      (fun kv hkv u hu c hc => ?_) h hstart
    rw [apply_default hu (fun heq => hset kv.2 (heq ▸ hkv))]
    exact hc

/-! ## The encryption of a service -/

def LoadedService.withEncryption (s : LoadedService) (e : CtEncMode) : LoadedService :=
  { s with encryption := e }

theorem serviceUpdate_encryption {bd : Build} {l : CLibrary} {key : ServiceKey}
    (hne : key ≠ .dataEncryption) (v : Bytes) (s : LoadedService) (e : CtEncMode) :
    serviceUpdate bd l v (s.withEncryption e) key =
      (serviceUpdate bd l v s key).map (·.withEncryption e) := by
  cases key with
  | type =>
      simp only [serviceUpdate]
      cases serviceType bd v <;> rfl
  | remoteAddr =>
      simp only [serviceUpdate]
      cases orInvalid (cp (bd.maxAddressLength + 1) v) <;> rfl
  | localAddr =>
      simp only [serviceUpdate]
      cases orInvalid (cp (bd.maxAddressLength + 1) v) <;> rfl
  | remotePort =>
      simp only [serviceUpdate]
      cases orInvalid (port l v) <;> rfl
  | localPort =>
      simp only [serviceUpdate]
      cases orInvalid (port l v) <;> rfl
  | dataEncryption => exact absurd rfl hne
  | proxyProtocol =>
      simp only [serviceUpdate]
      cases proxyMode bd v <;> rfl
  | proxyProtocolTlv =>
      simp only [serviceUpdate]
      split <;> rfl
  | udp k =>
      simp only [serviceUpdate]
      split
      · cases orInvalid (integer l v (k.range bd)) with
        | error err => rfl
        | ok n => cases k <;> rfl
      · rfl

theorem dataEncryption_name {key : ServiceKey} (h : ascii key.name = ascii "data_encryption") :
    key = .dataEncryption := by
  cases key with
  | dataEncryption => rfl
  | udp k => cases k <;> exact absurd h (by decide)
  | _ => exact absurd h (by decide)

/-- Only the line of the encryption sets it, and no line reads it. -/
theorem serviceLine_encryption {bd : Build} {l : CLibrary} (kv : Bytes × Bytes)
    (s : LoadedService) (e : CtEncMode) :
    serviceLine bd l (s.withEncryption e) kv =
      if kv.1 = ascii "data_encryption" then serviceLine bd l s kv
      else (serviceLine bd l s kv).map (·.withEncryption e) := by
  unfold serviceLine setService
  cases hkey : serviceKey bd kv.1 with
  | none => simp [Except.toOption]
  | some key =>
      have hname := serviceKey_name hkey
      by_cases henc : key = .dataEncryption
      · subst henc
        have hline : kv.1 = ascii "data_encryption" := hname.symm
        rw [if_pos hline]
        rfl
      · rw [if_neg fun heq => henc (dataEncryption_name (hname.trans heq))]
        simp only [serviceUpdate_encryption henc]
        cases serviceUpdate bd l kv.2 s key <;> rfl

/-- A section that sets the encryption does so whatever the default is. -/
theorem serviceLines_encryption {bd : Build} {l : CLibrary} {kvs : Pairs}
    (hset : ascii "data_encryption" ∈ kvs.map Prod.fst) (s : LoadedService) (e : CtEncMode) :
    kvs.foldlM (serviceLine bd l) (s.withEncryption e) = kvs.foldlM (serviceLine bd l) s := by
  induction kvs generalizing s with
  | nil => cases hset
  | cons kv kvs ih =>
      rw [List.foldlM_cons, List.foldlM_cons, serviceLine_encryption]
      by_cases hkv : kv.1 = ascii "data_encryption"
      · rw [if_pos hkv]
      · rw [if_neg hkv]
        have hrest : ascii "data_encryption" ∈ kvs.map Prod.fst :=
          (List.mem_cons.mp hset).resolve_left fun heq => hkv heq.symm
        cases serviceLine bd l s kv with
        | none => rfl
        | some m => exact ih hrest m

theorem serviceOf_explicit {bd : Build} {l : CLibrary} {sec : Bytes × Pairs}
    (h : ¬ LeavesEncryption sec) (e e' : CtEncMode) : serviceOf bd l e sec = serviceOf bd l e' sec :=
  serviceLines_encryption (not_not.mp h) (newService bd sec.1 e') e

/-- A section that does not set it leaves it as it was. -/
theorem serviceOf_left {bd : Build} {l : CLibrary} {sec : Bytes × Pairs} {e : CtEncMode}
    {s : LoadedService} (h : serviceOf bd l e sec = some s) (hleaves : LeavesEncryption sec) :
    s.encryption = e := by
  refine serviceLines_inv (P := fun s => s.encryption = e) (fun kv hkv t t' ht hs => ?_) h rfl
  have hother : kv.1 ≠ ascii "data_encryption" := fun heq =>
    hleaves (heq ▸ List.mem_map_of_mem hkv)
  have hsame : serviceLine bd l (t.withEncryption e) kv = _ := serviceLine_encryption kv t e
  have ht' : t.withEncryption e = t := by
    rw [← hs]
    rfl
  rw [if_neg hother, ht', ht] at hsame
  have heq : t' = t'.withEncryption e := Option.some.inj hsame
  rw [heq]
  rfl

/-! ## The services of the sections -/

/-- Where the default is `e` throughout, or no service relies on it, the services are those
of the sections with `e`. -/
theorem servicesOf_mapM {l : CLibrary} {e : CtEncMode} {secs : List (Bytes × Pairs)}
    {c c' : LoadedConfig} (hc : (commonPairs secs).foldlM (commonLine b l) c = some c')
    (hsafe : (∀ sec ∈ serviceSections secs, ¬ LeavesEncryption sec) ∨
      c.defaultDataEncryption = e ∧ ∀ v,
        (ascii "default_data_encryption", v) ∈ commonPairs secs → enc b.toBuild v = .ok e) :
    servicesOf b l c secs = (serviceSections secs).mapM (serviceOf b.toBuild l e) := by
  induction secs generalizing c with
  | nil => rfl
  | cons sec secs ih =>
      unfold servicesOf
      by_cases hsec : sec.1 = ascii "common"
      · have hpairs : commonPairs (sec :: secs) = sec.2 ++ commonPairs secs := by
          simp [commonPairs, hsec]
        have hservices : serviceSections (sec :: secs) = serviceSections secs := by
          simp [serviceSections, hsec]
        rw [hpairs] at hc hsafe
        rw [hservices] at hsafe ⊢
        rw [List.foldlM_append, Option.bind_eq_bind, Option.bind_eq_some_iff] at hc
        obtain ⟨m, hm, hc⟩ := hc
        rw [if_pos hsec, hm]
        refine ih hc (hsafe.imp_right fun hsame => ⟨?_, fun v hv => ?_⟩)
        · -- the lines of this section leave the default at `e`
          refine commonLines_inv (P := fun c => c.defaultDataEncryption = e)
            (fun kv hkv u hu c hc => ?_) hm hsame.1
          by_cases hkey : kv.1 = ascii "default_data_encryption"
          · obtain ⟨k, v⟩ := kv
            obtain rfl : k = ascii "default_data_encryption" := hkey
            obtain ⟨e', he', rfl⟩ := defaultLine hu
            rw [hsame.2 v (List.mem_append_left _ hkv)] at he'
            exact (Except.ok.inj he').symm
          · rw [apply_default hu hkey]
            exact hc
        · exact hsame.2 v (List.mem_append_right _ hv)
      · have hpairs : commonPairs (sec :: secs) = commonPairs secs := by
          simp [commonPairs, hsec]
        have hservices : serviceSections (sec :: secs) = sec :: serviceSections secs := by
          simp [serviceSections, hsec]
        rw [hpairs] at hc hsafe
        rw [hservices, List.forall_mem_cons] at hsafe
        rw [if_neg hsec, hservices, List.mapM_cons, ih hc (hsafe.imp_left And.right)]
        have hhead : serviceOf b.toBuild l c.defaultDataEncryption sec =
            serviceOf b.toBuild l e sec := by
          rcases hsafe with hexplicit | ⟨hstart, -⟩
          · exact serviceOf_explicit hexplicit.1 _ _
          · rw [hstart]
        rw [hhead]

/-- Services that come before all `[common]` sections have the default the reader starts
with. -/
theorem servicesOf_first {l : CLibrary} {secs commons : List (Bytes × Pairs)} {c : LoadedConfig}
    {services : List LoadedService} (hsecs : ∀ sec ∈ secs, sec.1 ≠ ascii "common")
    (hcommons : ∀ sec ∈ commons, sec.1 = ascii "common")
    (h : servicesOf b l c (secs ++ commons) = some services) :
    List.Forall₂ (fun sec s => serviceOf b.toBuild l c.defaultDataEncryption sec = some s) secs
      services := by
  induction secs generalizing services with
  | nil =>
      have hnone := (servicesOf_forall₂ h).length_eq
      have hempty : serviceSections ([] ++ commons) = [] := by
        rw [List.nil_append]
        refine List.filter_eq_nil_iff.mpr fun sec hsec => ?_
        simpa using hcommons sec hsec
      rw [hempty] at hnone
      rw [List.length_eq_zero_iff.mp hnone.symm]
      exact .nil
  | cons sec secs ih =>
      rw [List.forall_mem_cons] at hsecs
      rw [List.cons_append, servicesOf, if_neg hsecs.1] at h
      simp only [Option.pure_def, Option.bind_eq_bind, Option.bind_eq_some_iff] at h
      obtain ⟨s, hs, rest, hrest, heq⟩ := h
      obtain rfl := Option.some.inj heq
      exact .cons hs (ih hsecs.2 hrest)

/-! ## The exact condition -/

theorem reordered_newline {file : Bytes} {ls' : List Bytes}
    (h : Reordered (fileLines [] file) ls') : ∀ l ∈ ls', 10 ∉ l := fun l hl =>
  fileLines_newline (by simp) l (h.sections.1.mem_iff.mpr hl)

/-- Another order of the sections of a file that says `p`. -/
theorem says_reordered {l : CLibrary} {path : CString} {secs secs' : List (Bytes × Pairs)}
    {p : LoadedConfig} (hsaid : Says b l (initialConfig b path) secs p) (hperm : secs.Perm secs')
    (hsafe : (∀ sec ∈ serviceSections secs, ¬ LeavesEncryption sec) ∨
      DefaultEncryption b secs (compiledEncryption b.toBuild)) :
    ∃ services, p.services.Perm services ∧
      (serviceSections secs').mapM (serviceOf b.toBuild l (compiledEncryption b.toBuild)) =
        some services ∧
      Says b l (initialConfig b path) secs' { p with services := services } := by
  have hpairs := commonPairs_perm hperm
  have hnodup := hsaid.keys.nodup
  have hdefault : (∀ sec ∈ serviceSections secs, ¬ LeavesEncryption sec) ∨
      (initialConfig b path).defaultDataEncryption = compiledEncryption b.toBuild ∧ ∀ v,
        (ascii "default_data_encryption", v) ∈ commonPairs secs →
          enc b.toBuild v = .ok (compiledEncryption b.toBuild) := by
    refine hsafe.imp_right fun hcompiled => ⟨rfl, fun v hv => ?_⟩
    rcases hcompiled with ⟨v', hv', he'⟩ | ⟨hnone, -⟩
    · have hsame := List.inj_on_of_nodup_map hnodup hv hv' rfl
      have hvalue : v = v' := congrArg Prod.snd hsame
      rw [hvalue]
      exact he'
    · exact absurd hv (hnone v)
  have hservices := hsaid.services
  rw [servicesOf_mapM hsaid.common hdefault] at hservices
  obtain ⟨services, hmap, hsame⟩ := mapM_perm (hperm.filter _) hservices
  have hcommon : (commonPairs secs').foldlM (commonLine b l) (initialConfig b path) =
      some { p with services := [] } := by
    rw [← commonLines_perm hpairs hnodup]
    exact hsaid.common
  have hdefault' := hdefault.imp
    (fun hexplicit sec hsec => hexplicit sec ((hperm.filter _).mem_iff.mpr hsec))
    (fun ⟨hstart, hv⟩ => And.intro hstart fun v hmem => hv v (hpairs.mem_iff.mpr hmem))
  refine ⟨services, hsame, hmap, fun sec hsec => hsaid.fits sec (hperm.mem_iff.mpr hsec),
    hsaid.keys.perm (hpairs.map _), hcommon, ?_, ?_⟩
  · rw [servicesOf_mapM hcommon hdefault']
    exact hmap
  · rw [← hsame.length_eq]
    exact hsaid.count

/-- Another order of the sections is accepted, with the services in another order. -/
theorem reordered_accepted {path : CString} {file : Bytes} {c : LoadedConfig}
    (h : ctConfigLoad b lib env path file = .ok c) (hclient : c.mode = .client)
    (hsafe : OrderSafe b file) {ls' : List Bytes} (hls' : Reordered (fileLines [] file) ls') :
    ∃ services, c.services.Perm services ∧
      (serviceSections (sections (ls'.map readLine))).mapM
        (serviceOf b.toBuild lib.toCLibrary (compiledEncryption b.toBuild)) = some services ∧
      ctConfigLoad b lib env path (joinLines ls') = .ok { c with services := services } := by
  obtain ⟨p, q, hp, hq, hc, hrefused⟩ := ctConfigLoad_ok.mp h
  obtain ⟨hlens, hwell, hempty, hsaid⟩ := readConfig_said hp
  obtain ⟨hperm, hbody, hsecs⟩ := hls'.sections
  obtain ⟨services, hsame, hmap, hsaid'⟩ := says_reordered hsaid hsecs hsafe.2
  have hkept : c.services = p.services := by
    obtain ⟨log, rfl⟩ := setDefaultLogFile_after hc
    exact (applyEnvironment_after hq).services
  refine ⟨services, hkept ▸ hsame, hmap, ctConfigLoad_ok.mpr ?_⟩
  refine ⟨{ p with services := services }, { q with services := services }, ?_, ?_, ?_, ?_⟩
  · refine (readConfig_joinLines (reordered_newline hls')
      (fun l hl => hlens l (hperm.mem_iff.mpr hl))).mpr ⟨?_, ?_, ?_, hsaid'⟩
    · intro l hl hnul
      have hmem := (mem_fileLines (by decide)).mp ⟨l, hperm.mem_iff.mpr hl, hnul⟩
      exact hsafe.1 (by simpa using hmem)
    · exact fun l hl => hwell l ((hperm.map readLine).mem_iff.mpr hl)
    · rw [← hbody]
      exact hempty
  · rw [applyEnvironment_services, hq]
    rfl
  · rw [setDefaultLogFile_services, hc]
    rfl
  · have hnot : c.mode ≠ .server := by
      rw [hclient]
      decide
    have hvalid := ((configRefused_valid hrefused).client hnot).2.2.2
    exact configRefused_services hclient hrefused (servicesRefused_perm (hkept ▸ hsame) hvalid)

/-- The sections with those of `[common]` at the end. -/
theorem commons_last (secs : List (Bytes × Pairs)) :
    ∃ commons, secs.Perm (serviceSections secs ++ commons) ∧
      ∀ sec ∈ commons, sec.1 = ascii "common" := by
  refine ⟨secs.filter fun sec => !decide (sec.1 ≠ ascii "common"),
    (List.filter_append_perm _ secs).symm, fun sec hsec => ?_⟩
  simpa using (List.mem_filter.mp hsec).2

theorem serviceSections_last {secs commons : List (Bytes × Pairs)}
    (hcommons : ∀ sec ∈ commons, sec.1 = ascii "common") :
    serviceSections (serviceSections secs ++ commons) = serviceSections secs := by
  have hnone : commons.filter (fun sec => decide (sec.1 ≠ ascii "common")) = [] :=
    List.filter_eq_nil_iff.mpr fun sec hsec => by simpa using hcommons sec hsec
  unfold serviceSections
  rw [List.filter_append, hnone, List.append_nil, List.filter_filter]
  simp only [Bool.and_self]

/-- An accepted file of a client can have its sections in any order exactly if it has no NUL
and, unless every service sets its own encryption, its default is the compiled one. -/
theorem section_order_iff {path : CString} {file : Bytes} {c : LoadedConfig}
    (h : ctConfigLoad b lib env path file = .ok c) (hclient : c.mode = .client) :
    OrderFree b lib env path file c ↔ OrderSafe b file := by
  obtain ⟨p, hsaid, hafter, -⟩ := load_accepted h
  have hnodup := hsaid.keys.nodup
  constructor
  · intro hfree
    refine ⟨fun hnul => ?_, ?_⟩
    · -- the last line can have a NUL in it only as long as it is the last
      obtain ⟨p₁, -, hp₁, -⟩ := ctConfigLoad_ok.mp h
      obtain ⟨c', h', -⟩ := hfree _ (.refl _)
      obtain ⟨p₂, -, hp₂, -⟩ := ctConfigLoad_ok.mp h'
      obtain ⟨hlens, -⟩ := readConfig_said hp₁
      obtain ⟨hnone, -⟩ := (readConfig_joinLines (fileLines_newline (by simp)) hlens).mp hp₂
      obtain ⟨l, hl, hmem⟩ := (mem_fileLines (by decide)).mpr (.inr hnul)
      exact hnone l hl hmem
    · by_cases hexplicit : ∀ sec ∈ serviceSections (fileSections file), ¬ LeavesEncryption sec
      · exact .inl hexplicit
      · right
        push Not at hexplicit
        obtain ⟨sec, hsec, hleaves⟩ := hexplicit
        obtain ⟨commons, hperm, hcommons⟩ := commons_last (fileSections file)
        obtain ⟨ls', hls', hsecs'⟩ := Reordered.exists hperm
        obtain ⟨c', h', -, hall⟩ := hfree ls' hls'
        have hfile' := fileSections_joinLines (reordered_newline hls')
        rw [hsecs'] at hfile'
        obtain ⟨p', hsaid', hafter', -⟩ := load_accepted h'
        rw [hfile'] at hsaid'
        have hdefault : DefaultEncryption b (fileSections file)
            ({ p with services := [] } : LoadedConfig).defaultDataEncryption :=
          stored_default hnodup rfl hsaid.common
        have hgiven := hall _ (by rw [hfile']; exact hdefault.perm hperm)
        rw [hfile', serviceSections_last hcommons, hafter'.services] at hgiven
        have hread := servicesOf_first
          (fun sec hsec => by simpa using (List.mem_filter.mp hsec).2) hcommons hsaid'.services
        have hsame : List.Forall₂ (fun sec (_ : LoadedService) =>
            (LeavesEncryption sec → compiledEncryption b.toBuild = p.defaultDataEncryption) ∧ True)
            (serviceSections (fileSections file)) p'.services :=
          .mp (fun sec s hs hgiven =>
            ⟨fun hleaves => (serviceOf_left hs hleaves).symm.trans (hgiven hleaves), trivial⟩)
            hread hgiven
        rw [((List.forall₂_and_left _ _).mp hsame).1 sec hsec hleaves]
        exact hdefault
  · rintro hsafe ls' hls'
    obtain ⟨services, hsame, hmap, h'⟩ := reordered_accepted h hclient hsafe hls'
    have hfile' := fileSections_joinLines (reordered_newline hls')
    refine ⟨_, h', ⟨rfl, hsame⟩, fun e he => ?_⟩
    rw [hfile'] at he ⊢
    have hsections := (List.forall₂_and_left _ _).mpr
      ⟨fun sec (hsec : sec ∈ serviceSections (sections (ls'.map readLine))) => hsec,
        forall₂_of_mapM hmap⟩
    refine hsections.imp fun sec s ⟨hsec, hs⟩ hleaves => ?_
    have hperm := hls'.sections.2.2
    rcases hsafe.2 with hexplicit | hcompiled
    · exact absurd hleaves (hexplicit sec ((hperm.filter _).mem_iff.mpr hsec))
    · rw [serviceOf_left hs hleaves]
      exact (hcompiled.perm hperm).unique
        (((commonPairs_perm hperm).map Prod.fst).nodup_iff.mp hnodup) he

/-! ## Two files -/

/-- The `[common]` section of a client that wants its data in the clear. -/
def clearCommon : List Bytes :=
  [ascii "[common]", ascii "mode=client", ascii "identity_private_key=k", ascii "server_addr=s",
    ascii "client_id=c", ascii "server_public_key=p", ascii "default_data_encryption=off"]

def webSection : List Bytes :=
  [ascii "[web]", ascii "type=tcp", ascii "remote_port=80", ascii "local_port=80"]

def clearHost : HostLibrary :=
  ⟨⟨9223372036854775807, true, long_of_64⟩, fun _ => false, fun _ => false⟩

theorem section_order_explicit :
    ∃ c, ctConfigLoad defaultLoaderBuild clearHost ⟨none, none⟩ .empty
        (joinLines (clearCommon ++ webSection ++ [ascii "data_encryption=off"])) = .ok c ∧
      c.mode = .client ∧
      (OrderFree defaultLoaderBuild clearHost ⟨none, none⟩ .empty
          (joinLines (clearCommon ++ webSection ++ [ascii "data_encryption=off"])) c ↔
        OrderSafe defaultLoaderBuild
          (joinLines (clearCommon ++ webSection ++ [ascii "data_encryption=off"]))) := by
  have hfacts : ((ctConfigLoad defaultLoaderBuild clearHost ⟨none, none⟩ .empty
      (joinLines (clearCommon ++ webSection ++ [ascii "data_encryption=off"]))).map fun c =>
        c.mode) = .ok .client := by
    decide +kernel
  obtain ⟨c, hc, hmode⟩ := except_map_ok hfacts
  exact ⟨c, hc, hmode.symm, section_order_iff hc hmode.symm⟩

/-- With the service in front of `[common]` its data is encrypted. -/
theorem service_before_common :
    ∃ c, ctConfigLoad defaultLoaderBuild clearHost ⟨none, none⟩ .empty
        (joinLines (clearCommon ++ webSection)) = .ok c ∧ c.mode = .client ∧
      ¬ OrderFree defaultLoaderBuild clearHost ⟨none, none⟩ .empty
          (joinLines (clearCommon ++ webSection)) c := by
  have hfacts : ((ctConfigLoad defaultLoaderBuild clearHost ⟨none, none⟩ .empty
        (joinLines (clearCommon ++ webSection))).map fun c => c.mode) = .ok .client ∧
      ((ctConfigLoad defaultLoaderBuild clearHost ⟨none, none⟩ .empty
        (joinLines (webSection ++ clearCommon))).map fun c => c.services.map (·.encryption)) =
          .ok [.required] ∧
      fileLines [] (joinLines (clearCommon ++ webSection)) = clearCommon ++ webSection ∧
      (ascii "default_data_encryption", ascii "off") ∈
        commonPairs (fileSections (joinLines (webSection ++ clearCommon))) ∧
      serviceSections (fileSections (joinLines (webSection ++ clearCommon))) =
        [(ascii "web", [(ascii "type", ascii "tcp"), (ascii "remote_port", ascii "80"),
          (ascii "local_port", ascii "80")])] := by
    decide +kernel
  obtain ⟨hload, hload', hlines, hdefault, hsections⟩ := hfacts
  obtain ⟨c, hc, hmode⟩ := except_map_ok hload
  obtain ⟨c₁, hc₁, hencryption⟩ := except_map_ok hload'
  refine ⟨c, hc, hmode.symm, fun hfree => ?_⟩
  have hreordered : Reordered (fileLines [] (joinLines (clearCommon ++ webSection)))
      (webSection ++ clearCommon) := by
    refine ⟨[], [clearCommon, webSection], [webSection, clearCommon], ?_, by simp, .swap _ _ _,
      by simp, List.forall_mem_cons.mpr ⟨?_, List.forall_mem_cons.mpr ⟨?_, by simp⟩⟩⟩
    · rw [hlines]
      simp
    · exact ⟨_, _, ascii "common", rfl, by decide +kernel, by decide +kernel⟩
    · exact ⟨_, _, ascii "web", rfl, by decide +kernel, by decide +kernel⟩
  obtain ⟨c', h', -, hall⟩ := hfree _ hreordered
  rw [hc₁] at h'
  obtain rfl := Except.ok.inj h'
  have hgiven := hall .disabled (.inl ⟨_, hdefault, by decide⟩)
  rw [hsections] at hgiven
  cases hservices : c₁.services with
  | nil =>
      rw [hservices] at hencryption
      cases hencryption
  | cons s services =>
      rw [hservices] at hgiven hencryption
      cases hgiven with
      | cons hs _ =>
          have hclear := hs (by unfold LeavesEncryption; decide)
          have hsealed : CtEncMode.required = s.encryption := (List.cons.inj hencryption).1
          rw [hclear] at hsealed
          cases hsealed

end Ctunnel
