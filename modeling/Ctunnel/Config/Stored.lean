import Ctunnel.Config.Sections
import Ctunnel.Lib.IniOrder

/-!
# What the lines of a file store

Every key of a section is set at most once, so the field of a key is what its line says,
whatever stands before it and after it. For `[common]` this makes the lines commute.
-/

namespace Ctunnel

open Lib

variable {b : LoaderBuild} {lib : CLibrary}

/-! ## `[common]` -/

/-- The key whose field is stored. -/
def CommonUpdate.key : CommonUpdate → Option CommonKey
  | .str k _ => some (.str k)
  | .mode _ => some .mode
  | .port k _ => some (.port k)
  | .cipherMask _ => some .allowedCiphers
  | .preferredCipher _ => some .preferredCipher
  | .defaultDataEncryption _ => some .defaultDataEncryption
  | .logLevel _ => some .logLevel
  | .int k _ => some (.int k)
  | .nothing => none

/-- The configuration has what is stored. -/
def CommonUpdate.Holds (c : LoadedConfig) : CommonUpdate → Prop
  | .str k s => c.str k = s
  | .mode m => c.mode = m
  | .port k p => c.port k = p
  | .cipherMask mask => c.cipherMask = mask
  | .preferredCipher cipher => c.preferredCipher = cipher
  | .defaultDataEncryption e => c.defaultDataEncryption = e
  | .logLevel level => c.logLevel = level
  | .int k v => c.int k = v
  | .nothing => True

theorem CommonUpdate.holds_apply (u : CommonUpdate) (c : LoadedConfig) : u.Holds (u.apply c) := by
  cases u <;> simp [CommonUpdate.Holds, CommonUpdate.apply]

/-- Another key leaves it alone. -/
theorem CommonUpdate.Holds.keep {u u' : CommonUpdate} {c : LoadedConfig} (h : u.Holds c)
    (hkey : u.key ≠ u'.key) : u.Holds (u'.apply c) := by
  cases u <;> cases u' <;>
    simp_all [CommonUpdate.Holds, CommonUpdate.apply, CommonUpdate.key]

/-- Lines of different keys commute. -/
theorem CommonUpdate.apply_comm {u u' : CommonUpdate} (h : u.key = u'.key → u = u')
    (c : LoadedConfig) : u'.apply (u.apply c) = u.apply (u'.apply c) := by
  by_cases hkey : u.key = u'.key
  · rw [h hkey]
  · cases u <;> cases u' <;> first | rfl | exact absurd rfl hkey | skip
    · rename_i k s k' s'
      have hne : k ≠ k' := fun heq => hkey (by rw [heq]; rfl)
      simp only [CommonUpdate.apply, Function.update_comm hne]
    · rename_i k p k' p'
      have hne : k ≠ k' := fun heq => hkey (by rw [heq]; rfl)
      simp only [CommonUpdate.apply, Function.update_comm hne]
    · rename_i k v k' v'
      have hne : k ≠ k' := fun heq => hkey (by rw [heq]; rfl)
      simp only [CommonUpdate.apply, Function.update_comm hne]

theorem commonKey_name {k : Bytes} {key : CommonKey} (h : commonKey k = some key) :
    ascii key.name = k := by
  have hname := List.find?_some h
  simpa using hname

theorem except_map_ok {ε α β : Type} {f : α → β} {x : Except ε α} {y : β}
    (h : x.map f = .ok y) : ∃ a, x = .ok a ∧ y = f a := by
  cases x with
  | error e => cases h
  | ok a =>
      cases h
      exact ⟨a, rfl, rfl⟩

theorem orInvalid_ok {α : Type} {x : Option α} {a : α} (h : orInvalid x = .ok a) : x = some a := by
  cases x with
  | none => cases h
  | some a' =>
      cases h
      rfl

/-- The field a line sets is that of its key. -/
theorem commonUpdate_key {v : Bytes} {key : CommonKey} {u : CommonUpdate}
    (h : commonUpdate b lib v key = .ok u) : u.key = some key ∨ u = .nothing := by
  have hmap : ∀ {α : Type} {x : Except SetError α} {f : α → CommonUpdate},
      x.map f = .ok u → (∀ a, (f a).key = some key) → u.key = some key ∨ u = .nothing := by
    intro α x f hx hf
    obtain ⟨a, -, rfl⟩ := except_map_ok hx
    exact .inl (hf a)
  cases key with
  | str k => exact hmap h fun _ => rfl
  | port k => exact hmap h fun _ => rfl
  | allowedCiphers => exact hmap h fun _ => rfl
  | defaultDataEncryption => exact hmap h fun _ => rfl
  | logLevel => exact hmap h fun _ => rfl
  | mode =>
      simp only [commonUpdate] at h
      left
      split at h
      · split at h <;> cases h
        rfl
      · split at h
        · split at h <;> cases h
          rfl
        · cases h
  | preferredCipher =>
      simp only [commonUpdate] at h
      split at h <;> cases h
      exact .inl rfl
  | int k =>
      simp only [commonUpdate] at h
      split at h
      · split at h <;> cases h
        exact .inr rfl
      · exact hmap h fun _ => rfl
  | controlEncryption =>
      simp only [commonUpdate, onlyValue] at h
      split at h <;> cases h
      exact .inr rfl
  | authMode =>
      simp only [commonUpdate, onlyValue] at h
      split at h <;> cases h
      exact .inr rfl

theorem lineUpdate_some {kv : Bytes × Bytes} {u : CommonUpdate} :
    lineUpdate b lib kv = some u ↔
      ∃ key, commonKey kv.1 = some key ∧ commonUpdate b lib kv.2 key = .ok u := by
  unfold lineUpdate
  rw [Option.bind_eq_some_iff]
  have hok : ∀ x : Except SetError CommonUpdate, x.toOption = some u ↔ x = .ok u := by
    intro x
    cases x <;> simp [Except.toOption]
  simp only [hok]

/-- What holds of the configuration and is kept by every line holds in the end. -/
theorem commonLines_inv {P : LoadedConfig → Prop} {kvs : Pairs} {c c' : LoadedConfig}
    (hstep : ∀ kv ∈ kvs, ∀ u, lineUpdate b lib kv = some u → ∀ c, P c → P (u.apply c))
    (h : kvs.foldlM (commonLine b lib) c = some c') (hc : P c) : P c' := by
  induction kvs generalizing c with
  | nil =>
      cases h
      exact hc
  | cons kv kvs ih =>
      rw [List.forall_mem_cons] at hstep
      rw [List.foldlM_cons, Option.bind_eq_bind, Option.bind_eq_some_iff] at h
      obtain ⟨m, hm, h⟩ := h
      obtain ⟨u, hu, rfl⟩ := Option.map_eq_some_iff.mp hm
      exact ih hstep.2 h (hstep.1 u hu c hc)

/-- Two lines that set one field are lines of one key. -/
theorem key_of_update {kv kv' : Bytes × Bytes} {u u' : CommonUpdate}
    (hu : lineUpdate b lib kv = some u) (hu' : lineUpdate b lib kv' = some u')
    (hkey : u.key = u'.key) (hset : u ≠ .nothing) : kv.1 = kv'.1 := by
  obtain ⟨key, hk, hup⟩ := lineUpdate_some.mp hu
  obtain ⟨key', hk', hup'⟩ := lineUpdate_some.mp hu'
  have hsome : u.key = some key := (commonUpdate_key hup).resolve_right hset
  have hsome' : u'.key = some key' := by
    refine (commonUpdate_key hup').resolve_right fun hnothing => ?_
    rw [hsome, hnothing] at hkey
    cases hkey
  rw [hsome, hsome'] at hkey
  rw [← commonKey_name hk, ← commonKey_name hk', Option.some.inj hkey]

/-- The field of a line is what the line says. -/
theorem commonLines_holds {kvs : Pairs} {c c' : LoadedConfig} (hnodup : (kvs.map Prod.fst).Nodup)
    (h : kvs.foldlM (commonLine b lib) c = some c') {kv : Bytes × Bytes} (hkv : kv ∈ kvs) :
    ∃ u, lineUpdate b lib kv = some u ∧ u.Holds c' := by
  induction kvs generalizing c with
  | nil => cases hkv
  | cons head kvs ih =>
      rw [List.map_cons, List.nodup_cons] at hnodup
      rw [List.foldlM_cons, Option.bind_eq_bind, Option.bind_eq_some_iff] at h
      obtain ⟨m, hm, h⟩ := h
      rcases List.mem_cons.mp hkv with rfl | hkv
      · obtain ⟨u, hu, rfl⟩ := Option.map_eq_some_iff.mp hm
        refine ⟨u, hu, commonLines_inv (P := fun c => u.Holds c) ?_ h (u.holds_apply c)⟩
        intro kv' hkv' u' hu' c hc
        by_cases hset : u = .nothing
        · rw [hset]
          trivial
        · refine hc.keep fun hkey => hnodup.1 ?_
          rw [key_of_update hu hu' hkey hset]
          exact List.mem_map_of_mem hkv'
      · exact ih hnodup.2 h hkv

/-- Two lines of different keys can change places. -/
theorem commonLines_swap {kv kv' : Bytes × Bytes} (hne : kv.1 ≠ kv'.1) (kvs : Pairs)
    (c : LoadedConfig) :
    (kv :: kv' :: kvs).foldlM (commonLine b lib) c = (kv' :: kv :: kvs).foldlM (commonLine b lib) c := by
  simp only [List.foldlM_cons, commonLine, Option.bind_eq_bind]
  cases hu : lineUpdate b lib kv with
  | none => cases lineUpdate b lib kv' <;> rfl
  | some u =>
      cases hu' : lineUpdate b lib kv' with
      | none => rfl
      | some u' =>
          have hkey : u.key = u'.key → u = u' := by
            intro heq
            by_cases hset : u = .nothing
            · by_cases hset' : u' = .nothing
              · rw [hset, hset']
              · exact absurd (key_of_update hu' hu heq.symm hset').symm hne
            · exact absurd (key_of_update hu hu' heq hset) hne
          simp only [Option.map_some, Option.bind_some, CommonUpdate.apply_comm hkey]

/-- The lines of distinct keys store the same in any order. -/
theorem commonLines_perm {kvs kvs' : Pairs} (hperm : kvs.Perm kvs')
    (hnodup : (kvs.map Prod.fst).Nodup) (c : LoadedConfig) :
    kvs.foldlM (commonLine b lib) c = kvs'.foldlM (commonLine b lib) c := by
  induction hperm generalizing c with
  | nil => rfl
  | cons kv _ ih =>
      rw [List.map_cons, List.nodup_cons] at hnodup
      rw [List.foldlM_cons, List.foldlM_cons]
      exact congrArg _ (funext (ih hnodup.2))
  | swap kv kv' kvs =>
      refine commonLines_swap (fun heq => ?_) kvs c
      rw [List.map_cons, List.map_cons, List.nodup_cons] at hnodup
      exact hnodup.1 (heq ▸ List.mem_cons_self)
  | trans hperm _ ih ih' =>
      rw [ih hnodup]
      exact ih' ((hperm.map Prod.fst).nodup_iff.mp hnodup) c

/-! ## Services -/

/-- The service has what the line `key = v` says. -/
def ServiceKey.Stored (b : Build) (lib : CLibrary) (v : Bytes) (s : LoadedService) :
    ServiceKey → Prop
  | .type => serviceType b v = .ok s.type
  | .remoteAddr => cp (b.maxAddressLength + 1) v = some s.remoteAddr
  | .localAddr => cp (b.maxAddressLength + 1) v = some s.localAddr
  | .remotePort => port lib v = some s.remotePort
  | .localPort => port lib v = some s.localPort
  | .dataEncryption => enc b v = .ok s.encryption
  | .proxyProtocol => proxyMode b v = .ok s.proxyProtocol
  | .proxyProtocolTlv => v = ascii "off"
  | .udp k => s.udpOptionsSeen = true ∧
      ∃ n, integer lib v (k.range b) = some n ∧ k.field s.toCtServiceConfig = n.toNat

@[simp] theorem UdpKey.field_store (k : UdpKey) (v : Nat) (s : CtServiceConfig) :
    k.field (k.store v s) = v := by
  cases k <;> rfl

theorem UdpKey.field_store_of_ne {k k' : UdpKey} (hne : k' ≠ k) (v : Nat) (s : CtServiceConfig) :
    k'.field (k.store v s) = k'.field s := by
  cases k <;> cases k' <;> first | rfl | exact absurd rfl hne

variable {bd : Build}

/-- What the line of a UDP key does. -/
theorem serviceUpdate_udp {v : Bytes} {s s' : LoadedService} {k : UdpKey}
    (h : serviceUpdate bd lib v s (.udp k) = .ok s') :
    ∃ n, integer lib v (k.range bd) = some n ∧ s' = ⟨k.store n.toNat s.toCtServiceConfig, true⟩ := by
  simp only [serviceUpdate] at h
  split at h
  · obtain ⟨n, hn, rfl⟩ := except_map_ok h
    exact ⟨n, orInvalid_ok hn, rfl⟩
  · cases h

theorem serviceUpdate_stored {v : Bytes} {s s' : LoadedService} {key : ServiceKey}
    (h : serviceUpdate bd lib v s key = .ok s') : key.Stored bd lib v s' := by
  cases key with
  | type =>
      obtain ⟨t, ht, rfl⟩ := except_map_ok h
      exact ht
  | remoteAddr =>
      obtain ⟨a, ha, rfl⟩ := except_map_ok h
      exact orInvalid_ok ha
  | localAddr =>
      obtain ⟨a, ha, rfl⟩ := except_map_ok h
      exact orInvalid_ok ha
  | remotePort =>
      obtain ⟨p, hp, rfl⟩ := except_map_ok h
      exact orInvalid_ok hp
  | localPort =>
      obtain ⟨p, hp, rfl⟩ := except_map_ok h
      exact orInvalid_ok hp
  | dataEncryption =>
      obtain ⟨e, he, rfl⟩ := except_map_ok h
      exact he
  | proxyProtocol =>
      obtain ⟨m, hm, rfl⟩ := except_map_ok h
      exact hm
  | proxyProtocolTlv =>
      simp only [serviceUpdate] at h
      split at h
      · rename_i hv
        exact hv
      · cases h
  | udp k =>
      obtain ⟨n, hn, rfl⟩ := serviceUpdate_udp h
      exact ⟨rfl, n, hn, k.field_store _ _⟩

/-- Another key leaves it alone. -/
theorem ServiceKey.Stored.keep {v v' : Bytes} {s s' : LoadedService} {key key' : ServiceKey}
    (hs : key'.Stored bd lib v' s) (h : serviceUpdate bd lib v s key = .ok s') (hne : key' ≠ key) :
    key'.Stored bd lib v' s' := by
  cases key with
  | type =>
      obtain ⟨t, -, rfl⟩ := except_map_ok h
      cases key' <;> first | exact hs | exact absurd rfl hne
  | remoteAddr =>
      obtain ⟨a, -, rfl⟩ := except_map_ok h
      cases key' <;> first | exact hs | exact absurd rfl hne
  | localAddr =>
      obtain ⟨a, -, rfl⟩ := except_map_ok h
      cases key' <;> first | exact hs | exact absurd rfl hne
  | remotePort =>
      obtain ⟨p, -, rfl⟩ := except_map_ok h
      cases key' <;> first | exact hs | exact absurd rfl hne
  | localPort =>
      obtain ⟨p, -, rfl⟩ := except_map_ok h
      cases key' <;> first | exact hs | exact absurd rfl hne
  | dataEncryption =>
      obtain ⟨e, -, rfl⟩ := except_map_ok h
      cases key' <;> first | exact hs | exact absurd rfl hne
  | proxyProtocol =>
      obtain ⟨m, -, rfl⟩ := except_map_ok h
      cases key' <;> first | exact hs | exact absurd rfl hne
  | proxyProtocolTlv =>
      simp only [serviceUpdate] at h
      split at h <;> cases h
      exact hs
  | udp k =>
      obtain ⟨n, -, rfl⟩ := serviceUpdate_udp h
      cases key' with
      | udp k' =>
          obtain ⟨-, n', hn', hfield⟩ := hs
          have hother : k' ≠ k := fun heq => hne (heq ▸ rfl)
          refine ⟨rfl, n', hn', ?_⟩
          rw [UdpKey.field_store_of_ne hother]
          exact hfield
      | _ => cases k <;> exact hs

theorem serviceKey_name {k : Bytes} {key : ServiceKey} (h : serviceKey bd k = some key) :
    ascii key.name = k := by
  have hname := List.find?_some h
  simpa using hname

theorem serviceLine_some {kv : Bytes × Bytes} {s s' : LoadedService} :
    serviceLine bd lib s kv = some s' ↔
      ∃ key, serviceKey bd kv.1 = some key ∧ serviceUpdate bd lib kv.2 s key = .ok s' := by
  unfold serviceLine setService
  cases serviceKey bd kv.1 with
  | none => simp [Except.toOption]
  | some key => cases hup : serviceUpdate bd lib kv.2 s key <;> simp [hup, Except.toOption]

/-- What holds of a service and is kept by every line holds in the end. -/
theorem serviceLines_inv {P : LoadedService → Prop} {kvs : Pairs} {s s' : LoadedService}
    (hstep : ∀ kv ∈ kvs, ∀ s s', serviceLine bd lib s kv = some s' → P s → P s')
    (h : kvs.foldlM (serviceLine bd lib) s = some s') (hs : P s) : P s' := by
  induction kvs generalizing s with
  | nil =>
      cases h
      exact hs
  | cons kv kvs ih =>
      rw [List.forall_mem_cons] at hstep
      rw [List.foldlM_cons, Option.bind_eq_bind, Option.bind_eq_some_iff] at h
      obtain ⟨m, hm, h⟩ := h
      exact ih hstep.2 h (hstep.1 s m hm hs)

/-- The field of a line is what the line says. -/
theorem serviceLines_stored {kvs : Pairs} {s s' : LoadedService}
    (hnodup : (kvs.map Prod.fst).Nodup) (h : kvs.foldlM (serviceLine bd lib) s = some s')
    {kv : Bytes × Bytes} (hkv : kv ∈ kvs) :
    ∃ key, serviceKey bd kv.1 = some key ∧ key.Stored bd lib kv.2 s' := by
  induction kvs generalizing s with
  | nil => cases hkv
  | cons head kvs ih =>
      rw [List.map_cons, List.nodup_cons] at hnodup
      rw [List.foldlM_cons, Option.bind_eq_bind, Option.bind_eq_some_iff] at h
      obtain ⟨m, hm, h⟩ := h
      rcases List.mem_cons.mp hkv with rfl | hkv
      · obtain ⟨key, hkey, hup⟩ := serviceLine_some.mp hm
        refine ⟨key, hkey, ?_⟩
        refine serviceLines_inv (P := fun t => key.Stored bd lib kv.2 t) ?_ h (serviceUpdate_stored hup)
        intro kv' hkv' t t' ht hstored
        obtain ⟨key', hkey', hup'⟩ := serviceLine_some.mp ht
        refine hstored.keep hup' fun heq => hnodup.1 ?_
        rw [← serviceKey_name hkey, heq, serviceKey_name hkey']
        exact List.mem_map_of_mem hkv'
      · exact ih hnodup.2 h hkv

/-- Every service is that of its section, for some default. -/
theorem servicesOf_forall₂ {secs : List (Bytes × Pairs)} {c : LoadedConfig}
    {services : List LoadedService} (h : servicesOf b lib c secs = some services) :
    List.Forall₂ (fun sec s => ∃ e, serviceOf b.toBuild lib e sec = some s) (serviceSections secs)
      services := by
  induction secs generalizing c services with
  | nil =>
      cases h
      exact .nil
  | cons sec secs ih =>
      unfold servicesOf at h
      by_cases hsec : sec.1 = ascii "common"
      · rw [if_pos hsec, Option.bind_eq_bind, Option.bind_eq_some_iff] at h
        obtain ⟨c', -, h⟩ := h
        have hskip : serviceSections (sec :: secs) = serviceSections secs := by
          simp [serviceSections, hsec]
        rw [hskip]
        exact ih h
      · rw [if_neg hsec] at h
        simp only [Option.pure_def, Option.bind_eq_bind, Option.bind_eq_some_iff] at h
        obtain ⟨s, hs, services', hservices, heq⟩ := h
        obtain rfl := Option.some.inj heq
        have hkeep : serviceSections (sec :: secs) = sec :: serviceSections secs := by
          simp [serviceSections, hsec]
        rw [hkeep]
        exact .cons ⟨_, hs⟩ (ih hservices)

/-! ## Numbers -/

/-- What `integer` accepts of a trimmed text: a numeral in the range, or nothing at all where
0 is in the range. -/
theorem integer_some {v : Bytes} {range : Int × Int} {n : Int}
    (hv : ∀ c ∈ v.head?, isspace c = false) (h : integer lib v range = some n) :
    (v = [] ∨ Numeral v n) ∧ range.1 ≤ n ∧ n ≤ range.2 := by
  unfold integer at h
  simp only at h
  split at h
  · cases h
  · rename_i hok
    push Not at hok
    obtain ⟨herrno, hrest, hlow, hhigh⟩ := hok
    obtain rfl := Option.some.inj h
    refine ⟨?_, hlow, hhigh⟩
    rcases strtol_cases lib v with hnone | ⟨t, r, m, rfl, ⟨ws, u, rfl, hws, hu⟩, -, hread⟩
    · left
      rw [hnone] at hrest
      exact hrest
    · right
      rw [hread] at herrno hrest ⊢
      obtain rfl : r = [] := hrest
      have hvalue : lib.clamp m = m := CLibrary.clamp_eq (by simpa using herrno)
      -- nothing stands before the numeral
      cases ws with
      | nil =>
          simpa [hvalue] using hu
      | cons c ws =>
          have hspace := hws c List.mem_cons_self
          rw [hv c rfl] at hspace
          cases hspace

end Ctunnel
