import Ctunnel.Lib.ProxyHeader
import Ctunnel.Net.ProxyProtocol

/-!
# Version 2 headers

`ct_proxy_protocol_build_v2` against a parser of version 2 headers. It gives the
header that the two endpoints call for, except when they denote IPv4 addresses in
two different forms, one native and one mapped (`proxy_v2_iff`).
-/

namespace Ctunnel

open Lib

variable {b : Build} {cap : Nat} {md : CtStreamMetadata} {e source destination : CtEndpoint}

/-- The IPv4 address that an endpoint denotes, its own or one of ::ffff:0:0/96. -/
def CtEndpoint.ipv4 (e : CtEndpoint) : Option (Octets 4) :=
  if e.family = 4 then some (sliceOctets e.addr.toList 0 4)
  else if e.family = 6 ∧
      e.addr.toList.take 12 = [0, 0, 0, 0, 0, 0, 0, 0, 0, 0, 0xff, 0xff] then
    some (sliceOctets e.addr.toList 12 4)
  else none

/-- The size of the header that a pair of endpoints calls for. -/
def CtStreamMetadata.v2Size (md : CtStreamMetadata) : Nat :=
  if md.source.ipv4.isSome = true ∧ md.destination.ipv4.isSome = true then 28 else 52

/-- The header is right: TCP over IPv4 for two IPv4 addresses, TCP over IPv6 for
two of family 6 of which one is no IPv4 address, and its length field counts it. -/
structure V2Right (b : Build) (cap : Nat) (md : CtStreamMetadata) : Prop where
  tcp4 : ∀ s d, md.source.ipv4 = some s → md.destination.ipv4 = some d →
    ∃ header, ctProxyProtocolBuildV2 b cap md = some header ∧
      ∀ rest, ProxyHeader.parse (header ++ rest) =
        some (.tcp4 s d md.source.port.toNat md.destination.port.toNat, rest)
  tcp6 : md.source.family = 6 → md.destination.family = 6 →
    (md.source.ipv4 = none ∨ md.destination.ipv4 = none) →
      ∃ header, ctProxyProtocolBuildV2 b cap md = some header ∧
        ∀ rest, ProxyHeader.parse (header ++ rest) =
          some (.tcp6 md.source.addr md.destination.addr md.source.port.toNat
            md.destination.port.toNat, rest)
  length : ∀ header, ctProxyProtocolBuildV2 b cap md = some header →
    ProxyHeader.lengthField header + 16 = header.length

/-- One endpoint is a native IPv4 address, the other a mapped one. -/
def CtStreamMetadata.MixedPair (md : CtStreamMetadata) : Prop :=
  md.source.family ≠ md.destination.family ∧ md.source.ipv4.isSome = true ∧
    md.destination.ipv4.isSome = true

/-! ## Normalised pairs -/

theorem isV4Mapped_iff : isV4Mapped e = true ↔ e.family ≠ 4 ∧ e.ipv4.isSome = true := by
  unfold isV4Mapped CtEndpoint.ipv4
  by_cases h4 : e.family = 4
  · simp [h4]
  · rw [if_neg h4]
    by_cases h6 : e.family = 6 ∧
        e.addr.toList.take 12 = [0, 0, 0, 0, 0, 0, 0, 0, 0, 0, 0xff, 0xff]
    · simp [h6]
    · rw [if_neg h6]
      simp only [Bool.and_eq_true, beq_iff_eq, h6, Option.isSome_none, Bool.false_eq_true, and_false]

theorem ipv4_native (h : e.family = 4) : e.ipv4 = some (sliceOctets e.addr.toList 0 4) := by
  unfold CtEndpoint.ipv4
  exact if_pos h

theorem ipv4_mapped {s : Octets 4} (h : e.family = 6) (hs : e.ipv4 = some s) :
    s = sliceOctets e.addr.toList 12 4 := by
  have hne : e.family ≠ 4 := by
    rw [h]
    decide
  unfold CtEndpoint.ipv4 at hs
  rw [if_neg hne] at hs
  split at hs
  · exact (Option.some.inj hs).symm
  · exact absurd hs (by simp)

theorem ipv4_family {s : Octets 4} (hs : e.ipv4 = some s) : e.family = 4 ∨ e.family = 6 := by
  unfold CtEndpoint.ipv4 at hs
  split at hs
  · rename_i h4
    exact .inl h4
  · split at hs
    · rename_i h6
      exact .inr h6.1
    · exact absurd hs (by simp)

theorem unmapV4_take (e : CtEndpoint) :
    (unmapV4 e).addr.toList.take 4 = (sliceOctets e.addr.toList 12 4).toList := by
  have hlen : e.addr.toList.length = 16 := e.addr.2
  have hslice : (slice e.addr.toList 12 4).length = 4 := slice_length (by omega)
  rw [unmapV4, sliceOctets_toList (by simp [hlen, hslice]), slice, List.drop_zero, List.take_take,
    List.take_append_of_le_length (by omega), List.take_of_length_le (by omega),
    sliceOctets_toList (by omega)]

/-- The two ways a pair is normalised. -/
theorem normalizePair_same (hsource : md.source.family = 4 ∨ md.source.family = 6)
    (hsame : md.source.family = md.destination.family) :
    normalizePair md =
      if md.source.family = 6 ∧ md.source.ipv4.isSome = true ∧ md.destination.ipv4.isSome = true then
        some (unmapV4 md.source, unmapV4 md.destination)
      else some (md.source, md.destination) := by
  unfold normalizePair
  by_cases h6 : md.source.family = 6
  · have h6' : md.destination.family = 6 := hsame ▸ h6
    have hmapped : ∀ e : CtEndpoint, e.family = 6 → (isV4Mapped e = true ↔ e.ipv4.isSome = true) := by
      intro e he
      rw [isV4Mapped_iff, he]
      simp
    simp only [h6, h6', hmapped md.source h6, hmapped md.destination h6', true_and]
    by_cases hboth : md.source.ipv4.isSome = true ∧ md.destination.ipv4.isSome = true
    · simp [hboth, unmapV4]
    · simp only [hboth, if_false, h6, h6']
      simp
  · have h4 : md.source.family = 4 := hsource.resolve_right h6
    have h4' : md.destination.family = 4 := hsame ▸ h4
    simp [h4, h4']

/-- Endpoints of two families, or of one that is neither 4 nor 6, are no pair. -/
theorem normalizePair_none (h : ¬ (md.source.family = md.destination.family ∧
    (md.source.family = 4 ∨ md.source.family = 6))) : normalizePair md = none := by
  unfold normalizePair
  have hno : ¬ (md.source.family = 6 ∧ md.destination.family = 6 ∧ isV4Mapped md.source = true ∧
      isV4Mapped md.destination = true) := fun hm => h ⟨hm.1.trans hm.2.1.symm, .inr hm.1⟩
  simp only [hno, if_false]
  rw [if_pos]
  by_cases hsame : md.source.family = md.destination.family
  · exact .inr (not_or.mp fun hfamily => h ⟨hsame, hfamily⟩)
  · exact .inl hsame

/-! ## The header of a pair -/

theorem buildV2_some {n : Nat} {family : UInt8} (hv2 : b.proxyProtocolV2 = true)
    (hpair : normalizePair md = some (source, destination)) (hcap : 16 + (2 * n + 4) ≤ cap)
    (hn : source.family = 4 ∧ n = 4 ∧ family = 0x11 ∨ source.family ≠ 4 ∧ n = 16 ∧ family = 0x21) :
    ctProxyProtocolBuildV2 b cap md = some (ProxyHeader.render family (source.addr.toList.take n)
      (destination.addr.toList.take n) source.port.toNat destination.port.toNat) := by
  have hlen : source.addr.toList.length = 16 := source.addr.2
  have hlen' : destination.addr.toList.length = 16 := destination.addr.2
  unfold ctProxyProtocolBuildV2
  rw [hv2, hpair]
  rcases hn with ⟨h4, rfl, rfl⟩ | ⟨h6, rfl, rfl⟩
  · have htake : (source.addr.toList.take 4).length = 4 := by rw [List.length_take, hlen]; rfl
    have htake' : (destination.addr.toList.take 4).length = 4 := by rw [List.length_take, hlen']; rfl
    simp only [h4, Bool.not_true, Bool.false_eq_true, if_false, if_true]
    rw [if_neg (by omega), ProxyHeader.render, htake, htake']
    simp [ProxyHeader.signature, ctPutU16]
  · have htake : (source.addr.toList.take 16).length = 16 := by rw [List.length_take, hlen]; rfl
    have htake' : (destination.addr.toList.take 16).length = 16 := by rw [List.length_take, hlen']; rfl
    simp only [h6, Bool.not_true, Bool.false_eq_true, if_false]
    rw [if_neg (by omega), ProxyHeader.render, htake, htake']
    simp [ProxyHeader.signature, ctPutU16]

theorem port_lt (port : UInt16) : port.toNat < 65536 := port.toNat_lt

/-- The length field of a header counts what follows its first 16 bytes. -/
theorem render_lengthField {n : Nat} {family : UInt8} {s d : Bytes} {sp dp : UInt16}
    (hs : s.length = n) (hd : d.length = n) (hn : n ≤ 16) :
    ProxyHeader.lengthField (ProxyHeader.render family s d sp.toNat dp.toNat) + 16 =
      (ProxyHeader.render family s d sp.toNat dp.toNat).length := by
  obtain ⟨hlen, -, -, -, hfield, -⟩ := @ProxyHeader.render_fields family s d [] sp.toNat dp.toNat n
    hs hd hn (port_lt sp) (port_lt dp)
  rw [List.append_nil] at hlen hfield
  rw [hfield, hlen, List.length_nil]
  omega

/-- Two IPv4 addresses of one form. -/
theorem v2Right_tcp4 {s d : Octets 4} (hs : md.source.ipv4 = some s)
    (hd : md.destination.ipv4 = some d)
    (hheader : ctProxyProtocolBuildV2 b cap md = some (ProxyHeader.render 0x11 s.toList d.toList
      md.source.port.toNat md.destination.port.toNat)) : V2Right b cap md where
  tcp4 s' d' hs' hd' := by
    obtain rfl := Option.some.inj (hs.symm.trans hs')
    obtain rfl := Option.some.inj (hd.symm.trans hd')
    exact ⟨_, hheader, fun rest => ProxyHeader.parse_tcp4 (port_lt _) (port_lt _)⟩
  tcp6 _ _ hno := by
    rw [hs, hd] at hno
    exact absurd hno (by simp)
  length header h := by
    obtain rfl := Option.some.inj (hheader.symm.trans h)
    exact render_lengthField s.2 d.2 (by omega)

/-- Two addresses of family 6, not both mapped. -/
theorem v2Right_tcp6 (hno : ¬ (md.source.ipv4.isSome = true ∧ md.destination.ipv4.isSome = true))
    (hheader : ctProxyProtocolBuildV2 b cap md = some (ProxyHeader.render 0x21 md.source.addr.toList
      md.destination.addr.toList md.source.port.toNat md.destination.port.toNat)) :
    V2Right b cap md where
  tcp4 s d hs hd := by
    rw [hs, hd] at hno
    exact absurd hno (by simp)
  tcp6 _ _ _ := ⟨_, hheader, fun rest => ProxyHeader.parse_tcp6 (port_lt _) (port_lt _)⟩
  length header h := by
    obtain rfl := Option.some.inj (hheader.symm.trans h)
    exact render_lengthField md.source.addr.2 md.destination.addr.2 (by omega)

theorem take_slice (e : CtEndpoint) :
    e.addr.toList.take 4 = (sliceOctets e.addr.toList 0 4).toList := by
  have hlen : e.addr.toList.length = 16 := e.addr.2
  rw [sliceOctets_toList (by omega), slice, List.drop_zero]

/-- The header is right unless the two endpoints denote IPv4 addresses in two forms,
one native and one mapped. -/
theorem proxy_v2_iff (hv2 : b.proxyProtocolV2 = true) (hcap : md.v2Size ≤ cap) :
    V2Right b cap md ↔ ¬ md.MixedPair := by
  constructor
  · rintro hright ⟨hdiffer, hs, hd⟩
    obtain ⟨s, hs⟩ := Option.isSome_iff_exists.mp hs
    obtain ⟨d, hd⟩ := Option.isSome_iff_exists.mp hd
    obtain ⟨header, hheader, -⟩ := hright.tcp4 s d hs hd
    unfold ctProxyProtocolBuildV2 at hheader
    rw [hv2, normalizePair_none fun h => hdiffer h.1] at hheader
    exact absurd hheader (by simp)
  · intro hpure
    by_cases hfamily : md.source.family = md.destination.family ∧
        (md.source.family = 4 ∨ md.source.family = 6)
    · obtain ⟨hsame, hsource⟩ := hfamily
      have hpair := normalizePair_same hsource hsame
      unfold CtStreamMetadata.v2Size at hcap
      rcases hsource with h4 | h6
      · -- both are native
        have h4' : md.destination.family = 4 := hsame ▸ h4
        have hs := ipv4_native h4
        have hd := ipv4_native h4'
        rw [hs, hd, if_pos ⟨rfl, rfl⟩] at hcap
        rw [if_neg (by rw [h4]; simp)] at hpair
        refine v2Right_tcp4 hs hd ?_
        rw [buildV2_some hv2 hpair (by omega) (.inl ⟨h4, rfl, rfl⟩), take_slice, take_slice]
      · have h6' : md.destination.family = 6 := hsame ▸ h6
        by_cases hboth : md.source.ipv4.isSome = true ∧ md.destination.ipv4.isSome = true
        · -- both are mapped
          obtain ⟨s, hs⟩ := Option.isSome_iff_exists.mp hboth.1
          obtain ⟨d, hd⟩ := Option.isSome_iff_exists.mp hboth.2
          rw [if_pos hboth] at hcap
          rw [if_pos ⟨h6, hboth⟩] at hpair
          refine v2Right_tcp4 hs hd ?_
          rw [buildV2_some hv2 hpair (by omega) (.inl ⟨rfl, rfl, rfl⟩), unmapV4_take, unmapV4_take,
            ← ipv4_mapped h6 hs, ← ipv4_mapped h6' hd]
          rfl
        · rw [if_neg hboth] at hcap
          rw [if_neg (fun h => hboth h.2)] at hpair
          refine v2Right_tcp6 hboth ?_
          have hs : md.source.addr.toList.length = 16 := md.source.addr.2
          have hd : md.destination.addr.toList.length = 16 := md.destination.addr.2
          rw [buildV2_some hv2 hpair (by omega) (.inr ⟨by rw [h6]; decide, rfl, rfl⟩),
            List.take_of_length_le (Nat.le_of_eq hs), List.take_of_length_le (Nat.le_of_eq hd)]
    · -- there is no header, and none is called for
      have hnone : ctProxyProtocolBuildV2 b cap md = none := by
        unfold ctProxyProtocolBuildV2
        rw [hv2, normalizePair_none hfamily]
        rfl
      refine ⟨?_, fun h6 h6' => absurd ⟨h6.trans h6'.symm, .inr h6⟩ hfamily, ?_⟩
      · intro s d hs hd
        refine absurd ⟨fun hsame => hfamily ⟨hsame, ipv4_family hs⟩, ?_, ?_⟩ hpure
        · rw [hs]
          rfl
        · rw [hd]
          rfl
      · intro header h
        rw [hnone] at h
        exact absurd h (by simp)

/-! ## Two forms of an IPv4 address -/

/-- 192.0.2.10:12345 to 198.51.100.20:8443, the latter mapped. -/
def mixedPair : CtStreamMetadata where
  proxyProtocol := .v2
  source := ⟨4, ⟨[192, 0, 2, 10, 0, 0, 0, 0, 0, 0, 0, 0, 0, 0, 0, 0], rfl⟩, 12345⟩
  destination := ⟨6, ⟨[0, 0, 0, 0, 0, 0, 0, 0, 0, 0, 0xff, 0xff, 198, 51, 100, 20], rfl⟩, 8443⟩

theorem mixed_pair_refused :
    mixedPair.source.ipv4 = some ⟨[192, 0, 2, 10], rfl⟩ ∧
      mixedPair.destination.ipv4 = some ⟨[198, 51, 100, 20], rfl⟩ ∧
      ctProxyProtocolBuildV2 defaultBuild ctProxyProtocolMaxHeader mixedPair = none ∧
      ¬ V2Right defaultBuild ctProxyProtocolMaxHeader mixedPair := by
  have hsource : mixedPair.source.ipv4 = some ⟨[192, 0, 2, 10], rfl⟩ := by decide
  have hdestination : mixedPair.destination.ipv4 = some ⟨[198, 51, 100, 20], rfl⟩ := by decide
  have hnone : ctProxyProtocolBuildV2 defaultBuild ctProxyProtocolMaxHeader mixedPair = none := by
    decide
  refine ⟨hsource, hdestination, hnone, fun h => ?_⟩
  obtain ⟨header, hheader, -⟩ := h.tcp4 _ _ hsource hdestination
  rw [hnone] at hheader
  exact absurd hheader (by simp)

/-- The pair with both addresses mapped. -/
def mappedPair : CtStreamMetadata :=
  { mixedPair with
    source := ⟨6, ⟨[0, 0, 0, 0, 0, 0, 0, 0, 0, 0, 0xff, 0xff, 192, 0, 2, 10], rfl⟩, 12345⟩ }

theorem mapped_pair_right : V2Right defaultBuild ctProxyProtocolMaxHeader mappedPair :=
  (proxy_v2_iff rfl (by decide)).mpr fun h => h.1 rfl

end Ctunnel
