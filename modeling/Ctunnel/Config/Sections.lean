import Ctunnel.Config.Load
import Ctunnel.Lib.IniKeys

/-!
# What the loader makes of the sections of a file

The loop of `ct_config_load` succeeds exactly if the sections of the file can be loaded,
and then the configuration is the defaults with the lines of all `[common]` sections
stored into them, and one service for each other section. `sections_loaded` says so;
nothing in it depends on how the reader got there.
-/

namespace Ctunnel

open Lib

variable {b : LoaderBuild} {lib : CLibrary}

/-! ## Lines -/

theorem takeKey_ok {seen seen' : List Bytes} {capacity : Nat} {k : Bytes} :
    takeKey seen capacity k = .ok seen' ↔
      (k ∉ seen ∧ seen.length ≠ capacity ∧ k.length < 32) ∧ seen' = seen ++ [k] := by
  unfold takeKey keySeen
  by_cases hseen : k ∈ seen
  · simp [hseen]
  · by_cases hfull : seen.length = capacity ∨ k.length ≥ 32
    · simp only [hseen, hfull, if_false, if_true, not_false_eq_true, true_and]
      constructor
      · intro h
        cases h
      · rintro ⟨⟨hroom, hshort⟩, -⟩
        rcases hfull with hfull | hlong
        · exact absurd hfull hroom
        · omega
    · simp only [hseen, hfull, if_false, not_false_eq_true, true_and, Except.ok.injEq]
      push Not at hfull
      constructor
      · exact fun h => ⟨hfull, h.symm⟩
      · exact fun h => h.2.symm

theorem withLine_ok {α : Type} {k v : Bytes} {x : Except SetError α} {a : α} :
    withLine k v x = .ok a ↔ x.toOption = some a := by
  cases x with
  | ok a => simp [withLine, Except.toOption]
  | error e => simp [withLine, Except.toOption]

/-- What a line of a `[common]` section stores. -/
def lineUpdate (b : LoaderBuild) (lib : CLibrary) (kv : Bytes × Bytes) : Option CommonUpdate :=
  (commonKey kv.1).bind fun key => (commonUpdate b lib kv.2 key).toOption

/-- A line of a `[common]` section. -/
def commonLine (b : LoaderBuild) (lib : CLibrary) (c : LoadedConfig) (kv : Bytes × Bytes) :
    Option LoadedConfig :=
  (lineUpdate b lib kv).map (CommonUpdate.apply c)

theorem setCommon_toOption (k v : Bytes) (c : LoadedConfig) :
    (setCommon b lib k v c).toOption = commonLine b lib c (k, v) := by
  unfold setCommon commonLine lineUpdate
  cases commonKey k with
  | none => rfl
  | some key =>
      cases hu : commonUpdate b lib v key with
      | error e => simp [hu, Except.map, Except.toOption]
      | ok u => simp [hu, Except.map, Except.toOption]

/-- A line of a service section. -/
def serviceLine (b : Build) (lib : CLibrary) (s : LoadedService) (kv : Bytes × Bytes) :
    Option LoadedService :=
  (setService b lib kv.1 kv.2 s).toOption

/-- The service of a section that was entered when `encryption` was the default. -/
def serviceOf (b : Build) (lib : CLibrary) (encryption : CtEncMode) (sec : Bytes × Pairs) :
    Option LoadedService :=
  sec.2.foldlM (serviceLine b lib) (newService b sec.1 encryption)

/-! ## One section -/

/-- Every key. -/
def sectionKeys (kvs : Pairs) : List Bytes := trackedKeys (fun _ => true) kvs

@[simp] theorem sectionKeys_eq (kvs : Pairs) : sectionKeys kvs = kvs.map Prod.fst := by
  simp [sectionKeys, trackedKeys]

theorem commonBody_ok {kvs : Pairs} (st : LoadState) {st' : LoadState} (hsvc : st.svc = false)
    (hname : st.sectionName ≠ []) (hroom : st.commonSeen.length ≤ 40) :
    (configReader b lib).body kvs st = .ok st' ↔
      KeysTaken 40 32 st.commonSeen (kvs.map Prod.fst) ∧
        ∃ c, kvs.foldlM (commonLine b lib) st.config = some c ∧
          st' = { st with config := c, commonSeen := st.commonSeen ++ kvs.map Prod.fst } := by
  have hset : ∀ k v seen c m, (configReader b lib).set k v
      { st with config := c, commonSeen := seen } = .ok m ↔
        (true = true → k ∉ seen ∧ seen.length ≠ 40 ∧ k.length < 32) ∧
          ∃ c', commonLine b lib c (k, v) = some c' ∧
            m = { st with config := c', commonSeen := if true = true then seen ++ [k] else seen } := by
    intro k v seen c m
    show configSet b lib k v _ = _ ↔ _
    unfold configSet
    rw [if_neg hname, if_neg (by simp [hsvc])]
    constructor
    · intro h
      obtain ⟨seen', hseen, h⟩ := except_bind_ok.mp h
      obtain ⟨c', hc, h⟩ := except_bind_ok.mp h
      obtain ⟨hfresh, rfl⟩ := takeKey_ok.mp hseen
      rw [withLine_ok, setCommon_toOption] at hc
      cases h
      exact ⟨fun _ => hfresh, c', hc, rfl⟩
    · rintro ⟨hfresh, c', hc, rfl⟩
      refine except_bind_ok.mpr ⟨_, takeKey_ok.mpr ⟨hfresh rfl, rfl⟩, ?_⟩
      refine except_bind_ok.mpr ⟨c', ?_, rfl⟩
      rw [withLine_ok, setCommon_toOption]
      exact hc
  rw [← sectionKeys_eq]
  exact IniReader.body_ok (fun _ => true)
    (fun seen c => { st with config := c, commonSeen := seen }) (commonLine b lib) hset hroom

theorem serviceBody_ok {kvs : Pairs} {st st' : LoadState} {front : List LoadedService}
    {s : LoadedService} (hsvc : st.svc = true) (hname : st.sectionName ≠ [])
    (hservices : st.config.services = front ++ [s]) (hroom : st.sectionSeen.length ≤ 16) :
    (configReader b lib).body kvs st = .ok st' ↔
      KeysTaken 16 32 st.sectionSeen (kvs.map Prod.fst) ∧
        ∃ s', kvs.foldlM (serviceLine b.toBuild lib) s = some s' ∧
          st' = { st with config := { st.config with services := front ++ [s'] }
                          sectionSeen := st.sectionSeen ++ kvs.map Prod.fst } := by
  have hset : ∀ k v seen s m, (configReader b lib).set k v
      { st with config := { st.config with services := front ++ [s] }, sectionSeen := seen } =
          .ok m ↔
        (true = true → k ∉ seen ∧ seen.length ≠ 16 ∧ k.length < 32) ∧
          ∃ s', serviceLine b.toBuild lib s (k, v) = some s' ∧
            m = { st with config := { st.config with services := front ++ [s'] }
                          sectionSeen := if true = true then seen ++ [k] else seen } := by
    intro k v seen s m
    show configSet b lib k v _ = _ ↔ _
    unfold configSet
    rw [if_neg hname, if_pos hsvc]
    simp only [LoadState.service, List.getLastD_concat, List.dropLast_concat]
    constructor
    · intro h
      obtain ⟨seen', hseen, h⟩ := except_bind_ok.mp h
      obtain ⟨s', hs, h⟩ := except_bind_ok.mp h
      obtain ⟨hfresh, rfl⟩ := takeKey_ok.mp hseen
      cases h
      exact ⟨fun _ => hfresh, s', withLine_ok.mp hs, rfl⟩
    · rintro ⟨hfresh, s', hs, rfl⟩
      refine except_bind_ok.mpr ⟨_, takeKey_ok.mpr ⟨hfresh trivial, rfl⟩, ?_⟩
      exact except_bind_ok.mpr ⟨s', withLine_ok.mpr hs, rfl⟩
  have hstart : ({ st with config := { st.config with services := front ++ [s] } } : LoadState) =
      st := by
    rw [← hservices]
  rw [← sectionKeys_eq]
  refine Iff.trans ?_ (IniReader.body_ok (fun _ => true)
    (fun seen s =>
      { st with config := { st.config with services := front ++ [s] }, sectionSeen := seen })
    (serviceLine b.toBuild lib) hset hroom)
  rw [hstart]

/-- A section that is not refused for its name and its keys. -/
def SectionFits (b : LoaderBuild) (sec : Bytes × Pairs) : Prop :=
  sec.1.length ≤ b.maxServiceIdLength ∧
    (sec.1 ≠ ascii "common" → (sec.1 = [] → sec.2 = []) ∧ KeysTaken 16 32 [] (sec.2.map Prod.fst))

theorem load_common {sec : Bytes × Pairs} {st st' : LoadState} (hsec : sec.1 = ascii "common")
    (hroom : st.commonSeen.length ≤ 40) :
    (configReader b lib).load st sec = .ok st' ↔
      SectionFits b sec ∧ KeysTaken 40 32 st.commonSeen (sec.2.map Prod.fst) ∧
        ∃ c, sec.2.foldlM (commonLine b lib) st.config = some c ∧
          st' = { config := c, sectionName := sec.1, svc := false, sectionSeen := []
                  commonSeen := st.commonSeen ++ sec.2.map Prod.fst } := by
  have hname : sec.1 ≠ [] := by
    rw [hsec]
    decide
  have hfits : SectionFits b sec ↔ sec.1.length ≤ b.maxServiceIdLength :=
    ⟨And.left, fun h => ⟨h, fun hne => absurd hsec hne⟩⟩
  show ((configEnter b sec.1 st) >>= (configReader b lib).body sec.2) = _ ↔ _
  rw [except_bind_ok, hfits]
  unfold configEnter
  by_cases hlong : sec.1.length ≥ b.maxServiceIdLength + 1
  · rw [if_pos hlong]
    constructor
    · rintro ⟨m, hm, -⟩
      cases hm
    · rintro ⟨hshort, -⟩
      omega
  · rw [if_neg hlong, if_pos hsec]
    have hshort : sec.1.length ≤ b.maxServiceIdLength := by omega
    constructor
    · rintro ⟨m, hm, hbody⟩
      cases hm
      exact ⟨hshort, (commonBody_ok ⟨_, sec.1, _, _, _⟩ rfl hname hroom).mp hbody⟩
    · rintro ⟨-, hbody⟩
      exact ⟨_, rfl, (commonBody_ok ⟨_, sec.1, _, _, _⟩ rfl hname hroom).mpr hbody⟩

theorem load_service {sec : Bytes × Pairs} {st st' : LoadState} (hsec : sec.1 ≠ ascii "common") :
    (configReader b lib).load st sec = .ok st' ↔
      SectionFits b sec ∧ st.config.services.length ≠ b.maxServices ∧
        ∃ s, serviceOf b.toBuild lib st.config.defaultDataEncryption sec = some s ∧
          st' = { config := { st.config with services := st.config.services ++ [s] }
                  sectionName := sec.1, svc := true, commonSeen := st.commonSeen
                  sectionSeen := sec.2.map Prod.fst } := by
  show ((configEnter b sec.1 st) >>= (configReader b lib).body sec.2) = _ ↔ _
  rw [except_bind_ok]
  unfold configEnter
  by_cases hlong : sec.1.length ≥ b.maxServiceIdLength + 1
  · rw [if_pos hlong]
    constructor
    · rintro ⟨m, hm, -⟩
      cases hm
    · rintro ⟨hfits, -⟩
      have hshort := hfits.1
      omega
  · rw [if_neg hlong, if_neg hsec]
    have hshort : sec.1.length ≤ b.maxServiceIdLength := by omega
    by_cases hfull : st.config.services.length = b.maxServices
    · rw [if_pos hfull]
      constructor
      · rintro ⟨m, hm, -⟩
        cases hm
      · rintro ⟨-, hroom, -⟩
        exact absurd hfull hroom
    · rw [if_neg hfull]
      by_cases hname : sec.1 = []
      · -- no key can be set in a section without a name
        cases hkvs : sec.2 with
        | nil =>
            have hfits : SectionFits b sec := by
              refine ⟨hshort, fun _ => ⟨fun _ => hkvs, ?_⟩⟩
              rw [hkvs]
              exact keysTaken_nil (by simp)
            simp only [serviceOf, hkvs]
            constructor
            · rintro ⟨m, hm, hbody⟩
              cases hm
              cases hbody
              exact ⟨hfits, hfull, _, rfl, rfl⟩
            · rintro ⟨-, -, s, hs, rfl⟩
              cases hs
              exact ⟨_, rfl, rfl⟩
        | cons kv kvs =>
            constructor
            · rintro ⟨m, hm, hbody⟩
              cases hm
              obtain ⟨m', hset, -⟩ := foldlM_cons_ok.mp hbody
              have hrefused : configSet b lib kv.1 kv.2 _ = .ok m' := hset
              unfold configSet at hrefused
              rw [if_pos hname] at hrefused
              cases hrefused
            · rintro ⟨hfits, -⟩
              have hempty := (hfits.2 hsec).1 hname
              rw [hkvs] at hempty
              cases hempty
      · have hfits : SectionFits b sec ↔ KeysTaken 16 32 [] (sec.2.map Prod.fst) :=
          ⟨fun h => (h.2 hsec).2, fun h => ⟨hshort, fun _ => ⟨fun h => absurd h hname, h⟩⟩⟩
        rw [hfits]
        constructor
        · rintro ⟨m, hm, hbody⟩
          cases hm
          obtain ⟨hkeys, s, hs, rfl⟩ := (serviceBody_ok rfl hname rfl (by simp)).mp hbody
          exact ⟨hkeys, hfull, s, hs, rfl⟩
        · rintro ⟨hkeys, -, s, hs, rfl⟩
          exact ⟨_, rfl, (serviceBody_ok rfl hname rfl (by simp)).mpr ⟨hkeys, s, hs, rfl⟩⟩

/-! ## All sections -/

/-- The lines of the `[common]` sections. -/
def commonPairs (secs : List (Bytes × Pairs)) : Pairs :=
  (secs.filter fun sec => decide (sec.1 = ascii "common")).flatMap Prod.snd

/-- The other sections. -/
def serviceSections (secs : List (Bytes × Pairs)) : List (Bytes × Pairs) :=
  secs.filter fun sec => decide (sec.1 ≠ ascii "common")

/-- The services of the sections, for a configuration whose default encryption is known when
the first of them is entered. -/
def servicesOf (b : LoaderBuild) (lib : CLibrary) :
    LoadedConfig → List (Bytes × Pairs) → Option (List LoadedService)
  | _, [] => some []
  | c, sec :: secs =>
      if sec.1 = ascii "common" then do
        let c ← sec.2.foldlM (commonLine b lib) c
        servicesOf b lib c secs
      else do
        let s ← serviceOf b.toBuild lib c.defaultDataEncryption sec
        let services ← servicesOf b lib c secs
        return s :: services

/-- The lines of `[common]` do not touch the services. -/
theorem apply_services (c : LoadedConfig) (services : List LoadedService) (u : CommonUpdate) :
    u.apply { c with services := services } = { u.apply c with services := services } := by
  cases u <;> rfl

theorem commonLine_services (c : LoadedConfig) (services : List LoadedService)
    (kv : Bytes × Bytes) :
    commonLine b lib { c with services := services } kv =
      (commonLine b lib c kv).map fun c => { c with services := services } := by
  unfold commonLine
  cases lineUpdate b lib kv with
  | none => rfl
  | some u => exact congrArg some (apply_services c services u)

theorem commonLines_services (kvs : Pairs) (c : LoadedConfig) (services : List LoadedService) :
    kvs.foldlM (commonLine b lib) { c with services := services } =
      (kvs.foldlM (commonLine b lib) c).map fun c => { c with services := services } := by
  induction kvs generalizing c with
  | nil => rfl
  | cons kv kvs ih =>
      rw [List.foldlM_cons, List.foldlM_cons, commonLine_services]
      cases commonLine b lib c kv with
      | none => rfl
      | some c' => exact ih c'

theorem servicesOf_services (secs : List (Bytes × Pairs)) (c : LoadedConfig)
    (services : List LoadedService) :
    servicesOf b lib { c with services := services } secs = servicesOf b lib c secs := by
  induction secs generalizing c with
  | nil => rfl
  | cons sec secs ih =>
      unfold servicesOf
      by_cases hsec : sec.1 = ascii "common"
      · rw [if_pos hsec, if_pos hsec, commonLines_services]
        cases sec.2.foldlM (commonLine b lib) c with
        | none => rfl
        | some c' => exact ih c'
      · rw [if_neg hsec, if_neg hsec, ih]

theorem commonLines_keep {kvs : Pairs} {c c' : LoadedConfig}
    (h : kvs.foldlM (commonLine b lib) c = some c') : c'.services = c.services := by
  have hsame : kvs.foldlM (commonLine b lib) c = _ := commonLines_services kvs c c.services
  rw [h] at hsame
  have heq : c' = { c' with services := c.services } := Option.some.inj hsame
  have hservices := congrArg LoadedConfig.services heq
  exact hservices

/-- Loading sections, one after the other. -/
theorem sections_loaded {secs : List (Bytes × Pairs)} (st : LoadState) {c' : LoadedConfig}
    (hroom : st.commonSeen.length ≤ 40) (hcount : st.config.services.length ≤ b.maxServices) :
    (∃ st', (configReader b lib).loadAll secs st = .ok st' ∧ st'.config = c') ↔
      (∀ sec ∈ secs, SectionFits b sec) ∧
        KeysTaken 40 32 st.commonSeen ((commonPairs secs).map Prod.fst) ∧
        ∃ c services, (commonPairs secs).foldlM (commonLine b lib) st.config = some c ∧
          servicesOf b lib st.config secs = some services ∧
          st.config.services.length + services.length ≤ b.maxServices ∧
          c' = { c with services := st.config.services ++ services } := by
  induction secs generalizing st with
  | nil =>
      constructor
      · rintro ⟨st', hst, rfl⟩
        cases hst
        exact ⟨by simp, keysTaken_nil hroom, st.config, [], rfl, rfl, by simpa using hcount, by simp⟩
      · rintro ⟨-, -, c, services, hc, hservices, -, rfl⟩
        cases hc
        cases hservices
        exact ⟨st, rfl, by simp⟩
  | cons sec secs ih =>
      rw [List.forall_mem_cons]
      have hsplit : (∃ st', (configReader b lib).loadAll (sec :: secs) st = .ok st' ∧
          st'.config = c') ↔ ∃ m, (configReader b lib).load st sec = .ok m ∧
            ∃ st', (configReader b lib).loadAll secs m = .ok st' ∧ st'.config = c' := by
        constructor
        · rintro ⟨st', h, hc⟩
          obtain ⟨m, hm, hrest⟩ := foldlM_cons_ok.mp h
          exact ⟨m, hm, st', hrest, hc⟩
        · rintro ⟨m, hm, st', hrest, hc⟩
          exact ⟨st', foldlM_cons_ok.mpr ⟨m, hm, hrest⟩, hc⟩
      rw [hsplit]
      by_cases hsec : sec.1 = ascii "common"
      · have hpairs : commonPairs (sec :: secs) = sec.2 ++ commonPairs secs := by
          simp [commonPairs, hsec]
        rw [hpairs, List.map_append, keysTaken_append, List.foldlM_append, servicesOf, if_pos hsec]
        constructor
        · rintro ⟨m, hm, hrest⟩
          obtain ⟨hfits, hkeys, c₁, hc₁, rfl⟩ := (load_common hsec hroom).mp hm
          have hkept := commonLines_keep hc₁
          have hroom' := hkeys.room
          obtain ⟨hfits', hkeys', c, services, hc, hservices, hlen, rfl⟩ :=
            (ih _ (by simpa using hroom') (by simpa [hkept] using hcount)).mp hrest
          refine ⟨⟨hfits, hfits'⟩, ⟨hkeys, hkeys'⟩, c, services, ?_, ?_, by rwa [hkept] at hlen, ?_⟩
          · simpa [hc₁] using hc
          · simpa [hc₁] using hservices
          · rw [hkept]
        · rintro ⟨⟨hfits, hfits'⟩, ⟨hkeys, hkeys'⟩, c, services, hc, hservices, hlen, rfl⟩
          rw [Option.bind_eq_bind, Option.bind_eq_some_iff] at hc
          obtain ⟨c₁, hc₁, hc⟩ := hc
          have hkept := commonLines_keep hc₁
          have hroom' := hkeys.room
          rw [hc₁] at hservices
          refine ⟨_, (load_common hsec hroom).mpr ⟨hfits, hkeys, c₁, hc₁, rfl⟩, ?_⟩
          refine (ih _ (by simpa using hroom') (by simpa [hkept] using hcount)).mpr ?_
          exact ⟨hfits', hkeys', c, services, hc, hservices, by simpa [hkept] using hlen, by
            simp [hkept]⟩
      · have hpairs : commonPairs (sec :: secs) = commonPairs secs := by
          simp [commonPairs, hsec]
        rw [hpairs, servicesOf, if_neg hsec]
        constructor
        · rintro ⟨m, hm, hrest⟩
          obtain ⟨hfits, hfree, s, hs, rfl⟩ := (load_service hsec).mp hm
          have hcount' : (st.config.services ++ [s]).length ≤ b.maxServices := by
            rw [List.length_append, List.length_singleton]
            omega
          obtain ⟨hfits', hkeys', c, services, hc, hservices, hlen, rfl⟩ :=
            (ih ⟨{ st.config with services := st.config.services ++ [s] }, _, _, _, _⟩ hroom hcount').mp
              hrest
          rw [commonLines_services, Option.map_eq_some_iff] at hc
          obtain ⟨c₁, hc₁, rfl⟩ := hc
          rw [servicesOf_services] at hservices
          refine ⟨⟨hfits, hfits'⟩, hkeys', c₁, s :: services, hc₁, ?_, ?_, ?_⟩
          · simp [hs, hservices]
          · rw [List.length_append, List.length_singleton] at hlen
            rw [List.length_cons]
            omega
          · simp
        · rintro ⟨⟨hfits, hfits'⟩, hkeys', c, services, hc, hservices, hlen, rfl⟩
          simp only [Option.pure_def, Option.bind_eq_bind, Option.bind_eq_some_iff] at hservices
          obtain ⟨s, hs, services', hservices', heq⟩ := hservices
          obtain rfl := Option.some.inj heq
          rw [List.length_cons] at hlen
          have hcount' : (st.config.services ++ [s]).length ≤ b.maxServices := by
            rw [List.length_append, List.length_singleton]
            omega
          refine ⟨_, (load_service hsec).mpr ⟨hfits, by omega, s, hs, rfl⟩, ?_⟩
          refine (ih ⟨{ st.config with services := st.config.services ++ [s] }, _, _, _, _⟩ hroom
            hcount').mpr ⟨hfits', hkeys', { c with services := st.config.services ++ [s] },
              services', ?_, ?_, ?_, ?_⟩
          · rw [commonLines_services, hc]
            rfl
          · rw [servicesOf_services]
            exact hservices'
          · rw [List.length_append, List.length_singleton]
            omega
          · simp

/-! ## Whole files -/

/-- The sections say the configuration `p`, over the defaults `c`. -/
structure Says (b : LoaderBuild) (lib : CLibrary) (c : LoadedConfig)
    (secs : List (Bytes × Pairs)) (p : LoadedConfig) : Prop where
  fits : ∀ sec ∈ secs, SectionFits b sec
  keys : KeysTaken 40 32 [] ((commonPairs secs).map Prod.fst)
  common : (commonPairs secs).foldlM (commonLine b lib) c = some { p with services := [] }
  services : servicesOf b lib c secs = some p.services
  count : p.services.length ≤ b.maxServices

/-- What `readConfig` starts with. -/
def initialConfig (b : LoaderBuild) (path : CString) : LoadedConfig :=
  (LoadState.start b path).config

theorem sections_said {path : CString} {secs : List (Bytes × Pairs)} {p : LoadedConfig} :
    (∃ st', (configReader b lib).loadAll secs (.start b path) = .ok st' ∧ st'.config = p) ↔
      Says b lib (initialConfig b path) secs p := by
  rw [sections_loaded _ (Nat.zero_le _) (Nat.zero_le _)]
  constructor
  · rintro ⟨hfits, hkeys, c, services, hc, hservices, hcount, rfl⟩
    have hempty : c.services = [] := commonLines_keep hc
    refine ⟨hfits, hkeys, ?_, hservices, by simpa using hcount⟩
    have hsame : c = { c with services := [] } := by rw [← hempty]
    exact hsame ▸ hc
  · intro h
    exact ⟨h.fits, h.keys, _, p.services, h.common, h.services,
      (Nat.zero_add _).le.trans h.count, rfl⟩

/-- No key can be set before the first header. -/
theorem body_start {path : CString} {kvs : Pairs} {m : LoadState} :
    (configReader b lib).body kvs (.start b path) = .ok m ↔ kvs = [] ∧ m = .start b path := by
  cases kvs with
  | nil =>
      constructor
      · intro h
        cases h
        exact ⟨rfl, rfl⟩
      · rintro ⟨-, rfl⟩
        rfl
  | cons kv kvs =>
      constructor
      · intro h
        obtain ⟨m', hset, -⟩ := foldlM_cons_ok.mp h
        cases hset
      · rintro ⟨h, -⟩
        cases h

theorem readConfig_ok {path : CString} {file : Bytes} {p : LoadedConfig} :
    readConfig b lib path file = .ok p ↔ ∃ st,
      (configReader b lib).run 0 (.start b path) (fgetsAll b.lineSize [] file) = .ok st ∧
        st.config = p := by
  unfold readConfig
  cases (configReader b lib).run 0 (.start b path) (fgetsAll b.lineSize [] file) with
  | ok st => simp
  | error e => simp

theorem LoaderBuild.lineSize_ge (b : LoaderBuild) : 2 ≤ b.lineSize := by
  have hrange := b.maxPathLength_range
  unfold LoaderBuild.lineSize
  omega

/-- What an accepted file says. -/
theorem readConfig_said {path : CString} {file : Bytes} {p : LoadedConfig}
    (h : readConfig b lib path file = .ok p) :
    (∀ l ∈ fileLines [] file, l.length + 2 ≤ b.lineSize) ∧
      IniReader.WellFormed (fileText file) ∧ bodyOf (fileText file) = [] ∧
      Says b lib (initialConfig b path) (fileSections file) p := by
  obtain ⟨st, hrun, hp⟩ := readConfig_ok.mp h
  obtain ⟨hlens, hwell, m, hbody, hload⟩ := IniReader.run_file b.lineSize_ge hrun
  obtain ⟨hempty, rfl⟩ := body_start.mp hbody
  exact ⟨hlens, hwell, hempty, sections_said.mp ⟨st, hload, hp⟩⟩

/-- A file of terminated lines that are not too long. -/
theorem readConfig_joinLines {path : CString} {ls : List Bytes} {p : LoadedConfig}
    (hls : ∀ l ∈ ls, 10 ∉ l) (hlen : ∀ l ∈ ls, l.length + 2 ≤ b.lineSize) :
    readConfig b lib path (joinLines ls) = .ok p ↔
      (∀ l ∈ ls, 0 ∉ l) ∧ IniReader.WellFormed (ls.map readLine) ∧ bodyOf (ls.map readLine) = [] ∧
        Says b lib (initialConfig b path) (sections (ls.map readLine)) p := by
  rw [readConfig_ok]
  constructor
  · rintro ⟨st, hrun, hp⟩
    obtain ⟨hnul, hwell, m, hbody, hload⟩ :=
      (IniReader.run_joinLines b.lineSize_ge hls hlen).mp hrun
    obtain ⟨hempty, rfl⟩ := body_start.mp hbody
    exact ⟨hnul, hwell, hempty, sections_said.mp ⟨st, hload, hp⟩⟩
  · rintro ⟨hnul, hwell, hempty, hsaid⟩
    obtain ⟨st, hload, hp⟩ := sections_said.mpr hsaid
    refine ⟨st, (IniReader.run_joinLines b.lineSize_ge hls hlen).mpr ⟨hnul, hwell, _, ?_, hload⟩, hp⟩
    exact body_start.mpr ⟨hempty, rfl⟩

end Ctunnel
