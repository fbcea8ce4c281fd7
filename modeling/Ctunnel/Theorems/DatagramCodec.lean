import Ctunnel.Net.Fields
import Ctunnel.Server.Udp

/-!
# The two UDP datagram codecs

`server.c` and `net.c` have a copy each of the UDP_DATAGRAM encoder and decoder.
The copies agree, a packed datagram is unpacked by either, and a decoder consumes
its input exactly (`datagram_codecs_agree`).
-/

namespace Ctunnel

open Lib

/-- What both encoders write. -/
def datagramField (direction : UInt8) (id seq : UInt64) (service : Bytes) (peer : CtEndpoint)
    (payload : Bytes) : Bytes :=
  [direction] ++ ctPutU64 id ++ ctPutU64 seq ++ stringField service ++ endpointField peer ++
    ctPutU16 (UInt16.ofNat payload.length) ++ payload

theorem ctUdpDatagramPack_eq {b : Build} {cap : Nat} {d : UdpFrame} {p : Bytes}
    (h : ctUdpDatagramPack b cap d = some p) :
    p = datagramField d.direction d.id d.seq d.service.bytes d.peer d.payload ∧
      d.service.length ≤ b.maxServiceIdLength ∧ d.service.length ≤ 65535 ∧
      addressLength d.peer.family ≠ 0 ∧ d.payload.length ≤ 65535 := by
  unfold ctUdpDatagramPack at h
  split at h
  · exact absurd h (by simp)
  · rename_i hfit
    simp only [not_or, not_lt] at hfit
    simp only [Option.bind_eq_bind, Option.bind_eq_some_iff] at h
    obtain ⟨out, hout, endpoint, hendpoint, h⟩ := h
    obtain ⟨rfl, hmax, hlen, -⟩ := ctPackString_eq hout
    obtain ⟨rfl, hfamily, -⟩ := ctUdpEndpointEncode_eq hendpoint
    split at h
    · exact absurd h (by simp)
    · injection h with h
      subst h
      exact ⟨by simp [datagramField], hmax, hlen, hfamily, hfit.1⟩

/-- The decoder reads back what an encoder wrote. -/
theorem ctUdpDatagramUnpack_field {b : Build} {direction : UInt8} {id seq : UInt64}
    {service payload : Bytes} {peer : CtEndpoint} (hservice : service.length ≤ b.maxServiceIdLength)
    (hlen : service.length ≤ 65535) (hfamily : addressLength peer.family ≠ 0)
    (hpayload : payload.length ≤ 65535) :
    ctUdpDatagramUnpack b (datagramField direction id seq service peer payload) =
      some ⟨direction, id, seq, CString.ofBytes service, peer.trimmed, payload⟩ := by
  let p := datagramField direction id seq service peer payload
  have h0 : p.drop 0 = [direction] ++ (ctPutU64 id ++ (ctPutU64 seq ++ (stringField service ++
      (endpointField peer ++ (ctPutU16 (UInt16.ofNat payload.length) ++ payload))))) := by
    simp [p, datagramField]
  have h1 := drop_of_drop h0
  have h9 := drop_of_drop h1
  have h17 := drop_of_drop h9
  have hpeer := drop_of_drop h17
  have hcount := drop_of_drop hpeer
  have hrest := drop_of_drop hcount
  simp only [List.length_singleton, ctPutU64_length, ctPutU16_length, stringField_length,
    Nat.zero_add] at h1 h9 h17 hpeer hcount hrest
  have hlength : p.length = 17 + (2 + service.length) + (endpointField peer).length + 2 +
      payload.length := by
    have := le_of_drop h0 (Nat.zero_le _)
    simp only [List.length_append, List.length_singleton, ctPutU64_length, ctPutU16_length,
      stringField_length] at this
    omega
  have hcounted : (ctGetU16 p (17 + (2 + service.length) + (endpointField peer).length)).toNat =
      payload.length := by
    rw [ctGetU16_of_drop hcount, UInt16.toNat_ofNat', Nat.mod_eq_of_lt (by omega)]
  show ctUdpDatagramUnpack b p = _
  unfold ctUdpDatagramUnpack
  rw [if_neg (by omega), ctUnpackString_of_drop h17 hlen (by omega) (by omega)]
  simp only [Option.bind_eq_bind, Option.bind_some]
  rw [Nat.add_assoc 17, ctUdpEndpointDecode_of_drop hpeer hfamily (by omega)]
  simp only [Option.bind_some]
  rw [if_neg (by omega), hcounted, if_neg (by omega), hrest, getD_of_drop h0, ctGetU64_of_drop h1,
    ctGetU64_of_drop h9]

/-- The decoder consumes what it accepts exactly. -/
theorem ctUdpDatagramUnpack_exact {b : Build} {p : Bytes} {f : UdpFrame}
    (h : ctUdpDatagramUnpack b p = some f) :
    ∃ service, f.service = CString.ofBytes service ∧
      p = datagramField f.direction f.id f.seq service f.peer f.payload := by
  unfold ctUdpDatagramUnpack at h
  split at h
  · exact absurd h (by simp)
  · rename_i hlen
    simp only [Option.bind_eq_bind, Option.bind_eq_some_iff] at h
    obtain ⟨⟨service, o⟩, hservice, ⟨peer, o'⟩, hpeer, h⟩ := h
    obtain ⟨-, -, -, ho, -⟩ := ctUnpackString_some hservice (Nat.le_refl _)
    obtain ⟨hfield, -, ho', -, -⟩ := ctUdpEndpointDecode_drop hpeer (Nat.le_refl _)
    split at h
    · exact absurd h (by simp)
    · split at h
      · exact absurd h (by simp)
      · rename_i hroom hcount
        injection h with h
        subst h
        rw [Decidable.not_not] at hcount
        refine ⟨service, rfl, ?_⟩
        have hcounted : ctPutU16 (UInt16.ofNat (p.drop (o' + 2)).length) = ctPutU16 (ctGetU16 p o') := by
          rw [List.length_drop, hcount, UInt16.ofNat_toNat]
        calc p = [p.getD 0 0] ++ p.drop 1 := drop_getD 0 (by omega)
          _ = [p.getD 0 0] ++ (ctPutU64 (ctGetU64 p 1) ++ p.drop 9) := by rw [drop_u64 _ (by omega)]
          _ = [p.getD 0 0] ++ (ctPutU64 (ctGetU64 p 1) ++ (ctPutU64 (ctGetU64 p 9) ++
                p.drop 17)) := by rw [drop_u64 9 (by omega)]
          _ = [p.getD 0 0] ++ (ctPutU64 (ctGetU64 p 1) ++ (ctPutU64 (ctGetU64 p 9) ++
                (stringField service ++ (endpointField peer ++ (ctPutU16 (ctGetU16 p o') ++
                  p.drop (o' + 2)))))) := by
              rw [ctUnpackString_drop hservice (Nat.le_refl _), hfield, drop_u16 _ (by omega)]
          _ = _ := by
              rw [← hcounted]
              simp [datagramField]

theorem endpointEqual_trimmed {e : CtEndpoint} (h : addressLength e.family ≠ 0) :
    endpointEqual e.trimmed e = true := by
  have hle := addressLength_le e.family
  have hlen : (e.addr.toList.take (addressLength e.family)).length = addressLength e.family := by
    rw [List.length_take, List.Vector.toList_length]
    omega
  have htake := @take_padded (e.addr.toList.take (addressLength e.family)) (by omega)
  rw [hlen] at htake
  simp only [endpointEqual, CtEndpoint.trimmed, htake]
  simp [h]

/-- A control buffer of a UDP build holds every datagram. -/
theorem ctUdpDatagramPack_fits {b : Build} (hudp : b.udp = true) {d : UdpFrame}
    (hservice : d.service.length ≤ b.maxServiceIdLength) (hfamily : addressLength d.peer.family ≠ 0)
    (hpayload : d.payload.length ≤ b.maxUdpDatagramSize) :
    ∃ p, ctUdpDatagramPack b b.controlBufferSize d = some p := by
  have hcap := b.controlBufferSize_udp hudp
  have hids := b.maxServiceIdLength_range
  have hudpMax := b.maxUdpDatagramSize_range
  have haddr := addressLength_le d.peer.family
  have hlen := endpointField_length d.peer
  have hout := @ctPackString_fits b.controlBufferSize
    ([d.direction] ++ ctPutU64 d.id ++ ctPutU64 d.seq) d.service b.maxServiceIdLength hservice
    (by omega) (by simp; omega)
  have hpeer := @ctUdpEndpointEncode_fits ([d.direction] ++ ctPutU64 d.id ++ ctPutU64 d.seq ++
    stringField d.service.bytes).length b.controlBufferSize d.peer hfamily (by
      simp only [CString.length] at hservice
      simp
      omega)
  unfold ctUdpDatagramPack
  rw [if_neg (by omega), hout]
  simp only [Option.bind_eq_bind, Option.bind_some]
  rw [hpeer]
  simp only [Option.bind_some]
  rw [if_neg (by simp only [CString.length] at hservice; simp; omega)]
  exact ⟨_, rfl⟩

/-- The encoders agree on every datagram, either decoder reads back what was
packed, they accept the same strings and consume them to the end, and in a UDP
build a control buffer holds every datagram. -/
theorem datagram_codecs_agree (b : Build) :
    (∀ cap direction id seq service peer payload,
      udpPack b cap direction id seq service peer payload =
        ctUdpDatagramPack b cap ⟨direction, id, seq, service, peer, payload⟩) ∧
    (∀ cap d p, ctUdpDatagramPack b cap d = some p →
      ∃ peer, endpointEqual peer d.peer = true ∧
        ctUdpDatagramUnpack b p = some { d with peer := peer } ∧
        udpUnpack p (b.maxServiceIdLength + 1) = some { d with peer := peer }) ∧
    (∀ p, udpUnpack p (b.maxServiceIdLength + 1) = ctUdpDatagramUnpack b p) ∧
    (∀ p f, ctUdpDatagramUnpack b p = some f → ∃ service, f.service = CString.ofBytes service ∧
      p = datagramField f.direction f.id f.seq service f.peer f.payload) ∧
    (b.udp = true → ∀ d : UdpFrame, d.service.length ≤ b.maxServiceIdLength →
      (d.peer.family = 4 ∨ d.peer.family = 6) → d.payload.length ≤ b.maxUdpDatagramSize →
      ∃ p, ctUdpDatagramPack b b.controlBufferSize d = some p) := by
  have hsame : ∀ p, udpUnpack p (b.maxServiceIdLength + 1) = ctUdpDatagramUnpack b p := fun _ => rfl
  refine ⟨fun _ _ _ _ _ _ _ => rfl, fun cap d p h => ?_, hsame,
    fun p f h => ctUdpDatagramUnpack_exact h, fun hudp d hservice hfamily hpayload => ?_⟩
  · obtain ⟨rfl, hservice, hlen, hfamily, hpayload⟩ := ctUdpDatagramPack_eq h
    have hunpack : ctUdpDatagramUnpack b (datagramField d.direction d.id d.seq d.service.bytes d.peer
        d.payload) = some { d with peer := d.peer.trimmed } := by
      rw [ctUdpDatagramUnpack_field hservice hlen hfamily hpayload, CString.ofBytes_bytes]
    exact ⟨d.peer.trimmed, endpointEqual_trimmed hfamily, hunpack, (hsame _).trans hunpack⟩
  · refine ctUdpDatagramPack_fits hudp hservice ?_ hpayload
    rcases hfamily with h | h <;> rw [h] <;> decide

/-- A question of 192.0.2.7:40000. -/
def askDatagram : UdpFrame where
  direction := 0
  id := 1
  seq := 1
  service := CString.ofBytes (ascii "dns")
  peer := ⟨4, ⟨[192, 0, 2, 7] ++ List.replicate 12 0, rfl⟩, 40000⟩
  payload := ascii "ask"

theorem ask_unpacked : ∃ p peer, ctUdpDatagramPack defaultBuild 4096 askDatagram = some p ∧
    endpointEqual peer askDatagram.peer = true ∧
    ctUdpDatagramUnpack defaultBuild p = some { askDatagram with peer := peer } := by
  obtain ⟨-, hback, -, -, hfits⟩ := datagram_codecs_agree defaultBuild
  obtain ⟨p, hp⟩ := hfits rfl askDatagram (by decide) (.inl rfl) (by decide)
  obtain ⟨peer, hpeer, hunpack, -⟩ := hback _ _ _ hp
  exact ⟨p, peer, hp, hpeer, hunpack⟩

end Ctunnel
