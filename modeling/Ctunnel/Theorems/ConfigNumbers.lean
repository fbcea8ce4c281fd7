import Ctunnel.Config.Accepted

/-!
# Numbers in an accepted configuration file

Every integer and every port goes through `integer`: `strtol`, and then `errno`, the
character at the end pointer and the range. For a text that is not empty the three tests
leave only a numeral in range. They do not see an empty text: where the library reports
no error for it, `strtol` returns 0 with the end pointer at the end, so a key whose range
starts at 0 can be set to nothing.
-/

namespace Ctunnel

open Lib

variable {b : LoaderBuild} {lib : HostLibrary} {env : LoaderEnv}

/-! ## Files of numerals in range -/

/-- The text is a numeral of `n`, and `n` is in the range. -/
def IsNumber (v : Bytes) (range : Int × Int) (n : Int) : Prop :=
  Numeral v n ∧ range.1 ≤ n ∧ n ≤ range.2

/-- The line of a `[common]` section is a number, if its key is one; `pool_count` is not
looked at where the environment has set it. -/
def CommonNumber (b : LoaderBuild) (env : LoaderEnv) (c : LoadedConfig) (kv : Bytes × Bytes) :
    Prop :=
  match commonKey kv.1 with
  | some (.int k) => ∃ n, IsNumber kv.2 (k.range b) n ∧ (¬ Overridden b env k → c.int k = n)
  | some (.port k) => IsNumber kv.2 (1, 65535) (c.port k).toNat
  | _ => True

/-- The line of a service section is a number, if its key is one. -/
def ServiceNumber (b : LoaderBuild) (s : LoadedService) (kv : Bytes × Bytes) : Prop :=
  match serviceKey b.toBuild kv.1 with
  | some .remotePort => IsNumber kv.2 (1, 65535) s.remotePort.toNat
  | some .localPort => IsNumber kv.2 (1, 65535) s.localPort.toNat
  | some (.udp k) => IsNumber kv.2 (k.range b.toBuild) (k.field s.toCtServiceConfig)
  | _ => True

/-- Every integer and every port in the sections. -/
def NumbersStored (b : LoaderBuild) (env : LoaderEnv) (secs : List (Bytes × Pairs))
    (c : LoadedConfig) : Prop :=
  (∀ kv ∈ commonPairs secs, CommonNumber b env c kv) ∧
    List.Forall₂ (fun sec s => ∀ kv ∈ sec.2, ServiceNumber b s kv) (serviceSections secs) c.services

/-- No integer key of a `[common]` section is set to an empty text. -/
def NoEmptyNumber (secs : List (Bytes × Pairs)) : Prop :=
  ∀ kv ∈ commonPairs secs, ∀ k, commonKey kv.1 = some (.int k) → kv.2 ≠ []

/-! ## Ports and UDP options -/

/-- An empty text is no number above 0. -/
theorem integer_empty {l : CLibrary} {range : Int × Int} {n : Int}
    (h : integer l [] range = some n) : n = 0 := by
  unfold integer at h
  simp only at h
  split at h
  · cases h
  · exact (Option.some.inj h).symm

/-- Where 0 is out of range, `integer` accepts numerals only. -/
theorem integer_numeral {l : CLibrary} {v : Bytes} {range : Int × Int} {n : Int}
    (hv : ∀ c ∈ v.head?, isspace c = false) (hne : v ≠ [] ∨ 0 < range.1)
    (h : integer l v range = some n) : Numeral v n ∧ range.1 ≤ n ∧ n ≤ range.2 := by
  obtain ⟨hnumeral | hnumeral, hrange⟩ := integer_some hv h
  · subst hnumeral
    have hzero := integer_empty h
    rcases hne with hne | hpos
    · exact absurd rfl hne
    · omega
  · exact ⟨hnumeral, hrange⟩

theorem port_number {l : CLibrary} {v : Bytes} {p : UInt16}
    (hv : ∀ c ∈ v.head?, isspace c = false) (h : port l v = some p) :
    IsNumber v (1, 65535) p.toNat := by
  obtain ⟨n, hn, rfl⟩ := Option.map_eq_some_iff.mp h
  have hnumber : IsNumber v (1, 65535) n := integer_numeral hv (.inr (by decide)) hn
  have hlow : 1 ≤ n := hnumber.2.1
  have hhigh : n ≤ 65535 := hnumber.2.2
  have hstored : ((UInt16.ofNat n.toNat).toNat : Int) = n := by
    rw [UInt16.toNat_ofNat_of_lt' (show n.toNat < 65536 by omega)]
    omega
  rw [hstored]
  exact hnumber

theorem UdpKey.range_pos (k : UdpKey) : 0 < (k.range b.toBuild).1 := by
  cases k <;> simp [UdpKey.range]

theorem stored_number {v : Bytes} {s : LoadedService} {key : ServiceKey} {k : Bytes}
    (hv : ∀ c ∈ v.head?, isspace c = false) (hkey : serviceKey b.toBuild k = some key)
    (h : key.Stored b.toBuild lib.toCLibrary v s) : ServiceNumber b s (k, v) := by
  unfold ServiceNumber
  rw [hkey]
  cases key with
  | remotePort => exact port_number hv h
  | localPort => exact port_number hv h
  | udp u =>
      obtain ⟨-, n, hn, hfield⟩ := h
      have hnumber : IsNumber v (u.range b.toBuild) n := integer_numeral hv (.inr u.range_pos) hn
      have hstored : (u.field s.toCtServiceConfig : Int) = n := by
        have hpos := u.range_pos (b := b)
        have hlow := hnumber.2.1
        omega
      show IsNumber v _ (u.field s.toCtServiceConfig : Int)
      rw [hstored]
      exact hnumber
  | type => trivial
  | remoteAddr => trivial
  | localAddr => trivial
  | dataEncryption => trivial
  | proxyProtocol => trivial
  | proxyProtocolTlv => trivial

/-! ## The keys of `[common]` -/

/-- What a line of an integer key stores; without the work pool `pool_count` is 0 or not
accepted. -/
theorem intLine_number {v k : Bytes} {key : IntKey} {u : CommonUpdate} {p c : LoadedConfig}
    (hv : ∀ d ∈ v.head?, isspace d = false) (hne : v ≠ [])
    (hkey : commonKey k = some (.int key)) (hu : lineUpdate b lib.toCLibrary (k, v) = some u)
    (hholds : u.Holds p) (hint : ∀ k, ¬ Overridden b env k → c.int k = p.int k)
    (hpool : b.workPool = false → c.int .poolCount = 0) :
    ∃ n, IsNumber v (key.range b) n ∧ (¬ Overridden b env key → c.int key = n) := by
  obtain ⟨key', hkey', hup⟩ := lineUpdate_some.mp hu
  rw [hkey] at hkey'
  obtain rfl := Option.some.inj hkey'
  simp only [commonUpdate] at hup
  split at hup
  · rename_i hoff
    obtain ⟨rfl, hwork⟩ := hoff
    split at hup
    · rename_i hzero
      refine ⟨0, ?_, fun _ => hpool hwork⟩
      rw [hzero]
      have hdigit : ∀ c ∈ ascii "0", isdigit c = true := List.forall_mem_singleton.mpr (by decide)
      exact ⟨.plain (by decide) hdigit, by simp [IntKey.range], by simp [IntKey.range]⟩
    · cases hup
  · obtain ⟨n, hn, rfl⟩ := except_map_ok hup
    refine ⟨n, integer_numeral hv (.inl hne) (orInvalid_ok hn), fun hown => ?_⟩
    rw [hint key hown]
    exact hholds

theorem portLine_number {v k : Bytes} {key : PortKey} {u : CommonUpdate} {p : LoadedConfig}
    (hv : ∀ d ∈ v.head?, isspace d = false) (hkey : commonKey k = some (.port key))
    (hu : lineUpdate b lib.toCLibrary (k, v) = some u) (hholds : u.Holds p) :
    IsNumber v (1, 65535) (p.port key).toNat := by
  obtain ⟨key', hkey', hup⟩ := lineUpdate_some.mp hu
  rw [hkey] at hkey'
  obtain rfl := Option.some.inj hkey'
  obtain ⟨n, hn, rfl⟩ := except_map_ok hup
  have hstored : p.port key = n := hholds
  rw [hstored]
  exact port_number hv (orInvalid_ok hn)

theorem mem_commonPairs {secs : List (Bytes × Pairs)} {kv : Bytes × Bytes} :
    kv ∈ commonPairs secs ↔ ∃ sec ∈ secs, sec.1 = ascii "common" ∧ kv ∈ sec.2 := by
  simp only [commonPairs, List.mem_flatMap, List.mem_filter, decide_eq_true_eq, and_assoc]

/-! ## The exact condition -/

/-- In every accepted file the integers and the ports are numerals in their ranges and are
stored, exactly if no integer key is set to an empty text. -/
theorem config_numbers_iff {path : CString} {file : Bytes} {c : LoadedConfig}
    (h : ctConfigLoad b lib env path file = .ok c) :
    NumbersStored b env (fileSections file) c ↔ NoEmptyNumber (fileSections file) := by
  obtain ⟨p, hsaid, hafter, hrefused⟩ := load_accepted h
  constructor
  · rintro ⟨hcommon, -⟩ kv hkv k hk hempty
    have hnumber := hcommon kv hkv
    unfold CommonNumber at hnumber
    rw [hk] at hnumber
    obtain ⟨n, ⟨hnumeral, -, -⟩, -⟩ := hnumber
    rw [hempty] at hnumeral
    -- there is no empty numeral
    cases hnumeral with
    | plain hne => exact hne rfl
  · intro hne
    refine ⟨fun kv hkv => ?_, ?_⟩
    · obtain ⟨sec, hsec, -, hmem⟩ := mem_commonPairs.mp hkv
      have hv := fileSections_value hsec hmem
      obtain ⟨u, hu, hholds⟩ := commonLines_holds hsaid.keys.nodup hsaid.common hkv
      unfold CommonNumber
      cases hkey : commonKey kv.1 with
      | none => trivial
      | some key =>
          cases key with
          | int k =>
              exact intLine_number hv (hne kv hkv k hkey) hkey hu hholds hafter.int
                (configRefused_valid hrefused).pool
          | port k =>
              have hnumber := portLine_number hv hkey hu hholds
              rw [hafter.port]
              exact hnumber
          | str k => trivial
          | mode => trivial
          | allowedCiphers => trivial
          | preferredCipher => trivial
          | defaultDataEncryption => trivial
          | logLevel => trivial
          | controlEncryption => trivial
          | authMode => trivial
    · rw [hafter.services]
      have hsections := (List.forall₂_and_left _ _).mpr
        ⟨fun sec (hsec : sec ∈ serviceSections (fileSections file)) => hsec,
          servicesOf_forall₂ hsaid.services⟩
      refine hsections.imp fun sec s ⟨hmem, e, hs⟩ kv hkv => ?_
      obtain ⟨hsec, hname⟩ := List.mem_filter.mp hmem
      have hkeys := ((hsaid.fits sec hsec).2 (by simpa using hname)).2
      obtain ⟨key, hkey, hstored⟩ := serviceLines_stored hkeys.nodup hs hkv
      exact stored_number (fileSections_value hsec hkv) hkey hstored

/-! ## Two files -/

/-- A C library with a 64-bit `long` that reports no error for an empty text. -/
def plainHost : HostLibrary :=
  ⟨⟨9223372036854775807, false, long_of_64⟩, fun _ => false, fun _ => false⟩

/-- A client whose jitter is what `text` says. -/
def jitterFile (text : String) : Bytes :=
  ascii "[common]\nmode=client\nidentity_private_key=k\nserver_addr=s\nclient_id=c\n" ++
    ascii "server_public_key=p\nreconnect_jitter_percent=" ++ ascii text ++
    ascii "\n[web]\ntype=tcp\nremote_port=8080\nlocal_port=+80\n"

theorem config_numbers_seven :
    ∃ c, ctConfigLoad defaultLoaderBuild plainHost ⟨none, none⟩ .empty (jitterFile "7") = .ok c ∧
      (NumbersStored defaultLoaderBuild ⟨none, none⟩ (fileSections (jitterFile "7")) c ↔
        NoEmptyNumber (fileSections (jitterFile "7"))) := by
  have hok : (ctConfigLoad defaultLoaderBuild plainHost ⟨none, none⟩ .empty
      (jitterFile "7")).toBool = true := by decide +kernel
  obtain ⟨c, hc⟩ := exists_of_toBool hok
  exact ⟨c, hc, config_numbers_iff hc⟩

/-- `reconnect_jitter_percent=` is accepted, and nothing is no numeral. -/
theorem empty_jitter_accepted :
    ∃ c, ctConfigLoad defaultLoaderBuild plainHost ⟨none, none⟩ .empty (jitterFile "") = .ok c ∧
      ¬ NumbersStored defaultLoaderBuild ⟨none, none⟩ (fileSections (jitterFile "")) c := by
  have hfacts : (ctConfigLoad defaultLoaderBuild plainHost ⟨none, none⟩ .empty
      (jitterFile "")).toBool = true ∧
      (ascii "reconnect_jitter_percent", []) ∈ commonPairs (fileSections (jitterFile "")) ∧
      commonKey (ascii "reconnect_jitter_percent") = some (.int .reconnectJitterPercent) := by
    decide +kernel
  obtain ⟨hok, hmem, hkey⟩ := hfacts
  obtain ⟨c, hc⟩ := exists_of_toBool hok
  refine ⟨c, hc, fun hstored => ?_⟩
  have hnumber := hstored.1 _ hmem
  unfold CommonNumber at hnumber
  rw [hkey] at hnumber
  obtain ⟨n, ⟨hnumeral, -, -⟩, -⟩ := hnumber
  cases hnumeral with
  | plain hne => exact hne rfl

end Ctunnel
