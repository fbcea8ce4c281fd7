import Ctunnel.Lib.Cursor
import Ctunnel.Net.Stream

/-!
# Fields of a payload

The decoders of integers, strings and endpoints against what their encoders
write, at any position of a payload: what an encoder put there is read back, and
what a decoder accepted stands there, up to the bytes it does not look at.
-/

namespace Ctunnel

open Lib

variable {p s rest : Bytes} {n off cap o : Nat}

/-! ## Integers -/

theorem ctGetU16_of_drop {v : UInt16} (h : p.drop off = ctPutU16 v ++ rest) : ctGetU16 p off = v := by
  have hslice := slice_of_drop h
  have hv := v.toNat_lt
  rw [ctPutU16_length] at hslice
  rw [ctGetU16, hslice, ctPutU16, beNat_beBytes, Nat.mod_eq_of_lt (by omega), UInt16.ofNat_toNat]

theorem ctGetU64_of_drop {v : UInt64} (h : p.drop off = ctPutU64 v ++ rest) : ctGetU64 p off = v := by
  have hslice := slice_of_drop h
  have hv := v.toNat_lt
  rw [ctPutU64_length] at hslice
  rw [ctGetU64, hslice, ctPutU64, beNat_beBytes, Nat.mod_eq_of_lt (by omega), UInt64.ofNat_toNat]

theorem drop_u16 (off : Nat) (h : off + 2 ≤ p.length) :
    p.drop off = ctPutU16 (ctGetU16 p off) ++ p.drop (off + 2) := by
  rw [ctPutU16_get h]
  exact drop_slice p off 2

theorem drop_u64 (off : Nat) (h : off + 8 ≤ p.length) :
    p.drop off = ctPutU64 (ctGetU64 p off) ++ p.drop (off + 8) := by
  have hlen := slice_length h
  have hlt := beNat_lt (slice p off 8)
  have hbytes := beBytes_beNat (slice p off 8)
  rw [hlen] at hlt hbytes
  have hback : (UInt64.ofNat (beNat (slice p off 8))).toNat = beNat (slice p off 8) := by
    rw [UInt64.toNat_ofNat']
    exact Nat.mod_eq_of_lt hlt
  rw [ctPutU64, ctGetU64, hback, hbytes]
  exact drop_slice p off 8

/-! ## Modes -/

theorem CtEncMode.ofByte_toByte (mode : CtEncMode) : CtEncMode.ofByte mode.toByte = some mode := by
  cases mode <;> rfl

theorem CtEncMode.toByte_of_ofByte {v : UInt8} {mode : CtEncMode} (h : CtEncMode.ofByte v = some mode) :
    mode.toByte = v := by
  unfold CtEncMode.ofByte at h
  split at h
  · rename_i hv
    obtain rfl := Option.some.inj h
    exact hv.symm
  · split at h
    · rename_i hv
      obtain rfl := Option.some.inj h
      exact hv.symm
    · exact absurd h (by simp)

theorem CtProxyProtocolMode.ofByte_toByte (mode : CtProxyProtocolMode) :
    CtProxyProtocolMode.ofByte mode.toByte = some mode := by
  cases mode <;> rfl

theorem CtProxyProtocolMode.toByte_of_ofByte {v : UInt8} {mode : CtProxyProtocolMode}
    (h : CtProxyProtocolMode.ofByte v = some mode) : mode.toByte = v := by
  unfold CtProxyProtocolMode.ofByte at h
  split at h
  · rename_i hv
    obtain rfl := Option.some.inj h
    exact hv.symm
  · split at h
    · rename_i hv
      obtain rfl := Option.some.inj h
      exact hv.symm
    · split at h
      · rename_i hv
        obtain rfl := Option.some.inj h
        exact hv.symm
      · exact absurd h (by simp)

/-! ## Strings -/

/-- A string field. -/
def stringField (s : Bytes) : Bytes := ctPutU16 (UInt16.ofNat s.length) ++ s

@[simp] theorem stringField_length (s : Bytes) : (stringField s).length = 2 + s.length := by
  simp [stringField]

theorem stringField_inj {s t x y : Bytes} (hs : s.length ≤ 65535) (ht : t.length ≤ 65535)
    (h : stringField s ++ x = stringField t ++ y) : s = t ∧ x = y := by
  simp only [stringField, List.append_assoc] at h
  exact append_string_inj hs ht h

theorem ctPackString_eq {buf q : Bytes} {t : CString} {max : Nat}
    (h : ctPackString cap buf t max = some q) :
    q = buf ++ stringField t.bytes ∧ t.length ≤ max ∧ t.length ≤ 65535 ∧ q.length ≤ cap := by
  unfold ctPackString at h
  split at h
  · exact absurd h (by simp)
  · rename_i hfit
    simp only [not_or, not_lt] at hfit
    injection h with h
    subst h
    simp only [stringField, List.append_assoc, List.length_append, ctPutU16_length, CString.length] at *
    exact ⟨trivial, by omega, by omega, by omega⟩

theorem ctPackString_fits {buf : Bytes} {t : CString} {max : Nat} (hmax : t.length ≤ max)
    (hlen : t.length ≤ 65535) (hcap : buf.length + 2 + t.length ≤ cap) :
    ctPackString cap buf t max = some (buf ++ stringField t.bytes) := by
  unfold ctPackString
  rw [if_neg (by omega)]
  simp [stringField, CString.length]

/-- The string that stands at a position is read. -/
theorem ctUnpackString_of_drop (h : p.drop off = stringField s ++ rest) (hs : s.length ≤ 65535)
    (hcap : s.length < cap) (hn : off + 2 + s.length ≤ n) :
    ctUnpackString p n off cap = some (s, off + 2 + s.length) := by
  have hlen : (ctGetU16 p off).toNat = s.length := by
    rw [stringField, List.append_assoc] at h
    rw [ctGetU16_of_drop h, UInt16.toNat_ofNat', Nat.mod_eq_of_lt (by omega)]
  have hbytes : slice p (off + 2) s.length = s := by
    rw [stringField, List.append_assoc] at h
    have hnext := drop_of_drop h
    rw [ctPutU16_length] at hnext
    exact slice_of_drop hnext
  unfold ctUnpackString
  rw [if_neg (by omega)]
  simp only [hlen]
  rw [if_neg (by omega), hbytes]

/-- The string that was read stands there. -/
theorem ctUnpackString_drop (h : ctUnpackString p n off cap = some (s, o)) (hn : n ≤ p.length) :
    p.drop off = stringField s ++ p.drop o := by
  obtain ⟨-, -, rfl, hle, hslice⟩ := ctUnpackString_some h hn
  rw [stringField, ← hslice, Nat.add_assoc]
  exact drop_slice p off (2 + s.length)

/-- The string field at the front of a payload. -/
def idField (p : Bytes) : Bytes := slice p 2 (ctGetU16 p 0).toNat

theorem idField_of_unpack (hread : ctUnpackString (p ++ rest) n 0 cap = some (s, o))
    (hn : n ≤ p.length) : idField p = s ∧ o = 2 + s.length ∧ o ≤ n ∧ s.length < cap := by
  have hstands := ctUnpackString_some hread (by rw [List.length_append]; omega)
  obtain ⟨hcap, hlen, rfl, hle, hslice⟩ := hstands
  have hdrop : p.drop 0 = stringField s ++ p.drop (2 + s.length) := by
    rw [drop_slice p 0 (2 + s.length), stringField, ← hslice, Nat.zero_add]
    congr 1
    simp only [slice, List.drop_zero]
    rw [List.take_append_of_le_length (by omega)]
  have hread' := @ctUnpackString_of_drop p s _ n 0 cap hdrop hlen hcap (by omega)
  unfold ctUnpackString at hread'
  split at hread'
  · exact absurd hread' (by simp)
  · simp only at hread'
    split at hread'
    · exact absurd hread' (by simp)
    · simp only [Option.some.injEq, Prod.mk.injEq, Nat.zero_add] at hread'
      exact ⟨hread'.1, by omega, by omega, hcap⟩

theorem idField_of_unpack_self (hread : ctUnpackString p p.length 0 cap = some (s, o)) :
    idField p = s ∧ o = 2 + s.length ∧ o ≤ p.length ∧ s.length < cap := by
  refine @idField_of_unpack p s [] p.length cap o ?_ (Nat.le_refl _)
  rw [List.append_nil]
  exact hread

theorem CString.ofBytes_noNul (h : (0 : UInt8) ∉ s) : (CString.ofBytes s).bytes = s :=
  congrArg CString.bytes (CString.ofBytes_bytes ⟨s, h⟩)

/-- Only a NUL makes a string shorter than its field. -/
theorem CString.ofBytes_eq_iff (s : Bytes) : (CString.ofBytes s).bytes = s ↔ (0 : UInt8) ∉ s := by
  constructor
  · intro h hmem
    rw [← h] at hmem
    exact (CString.ofBytes s).noNul hmem
  · exact CString.ofBytes_noNul

/-! ## Endpoints -/

/-- An endpoint field. -/
def endpointField (e : CtEndpoint) : Bytes :=
  [e.family] ++ e.addr.toList.take (addressLength e.family) ++ ctPutU16 e.port

/-- The endpoint without the address bytes its family does not use. -/
def CtEndpoint.trimmed (e : CtEndpoint) : CtEndpoint :=
  { e with addr := sliceOctets (e.addr.toList.take (addressLength e.family) ++ List.replicate 16 0) 0 16 }

theorem addressLength_le (family : UInt8) : addressLength family ≤ 16 := by
  unfold addressLength
  split
  · omega
  · split <;> omega

theorem endpointField_length (e : CtEndpoint) :
    (endpointField e).length = 1 + addressLength e.family + 2 := by
  have hle := addressLength_le e.family
  simp only [endpointField, List.length_append, List.length_singleton, List.length_take,
    List.Vector.toList_length, ctPutU16_length]
  omega

theorem ctUdpEndpointEncode_eq {e : CtEndpoint} {q : Bytes}
    (h : ctUdpEndpointEncode cap off e = some q) :
    q = endpointField e ∧ addressLength e.family ≠ 0 ∧ off + q.length ≤ cap := by
  unfold ctUdpEndpointEncode at h
  simp only at h
  split at h
  · exact absurd h (by simp)
  · rename_i hfit
    injection h with h
    subst h
    have hlen := endpointField_length e
    rw [endpointField] at hlen
    exact ⟨rfl, by omega, by omega⟩

theorem ctUdpEndpointEncode_fits {e : CtEndpoint} (hfamily : addressLength e.family ≠ 0)
    (hcap : off + (endpointField e).length ≤ cap) :
    ctUdpEndpointEncode cap off e = some (endpointField e) := by
  rw [endpointField_length] at hcap
  unfold ctUdpEndpointEncode
  simp only
  rw [if_neg (by omega)]
  rfl

theorem take_padded {a : Bytes} (h : a.length ≤ 16) :
    (sliceOctets (a ++ List.replicate 16 0) 0 16).toList.take a.length = a := by
  rw [sliceOctets_toList (by simp), slice, List.drop_zero, List.take_take, Nat.min_eq_left h,
    List.take_left']
  rfl

/-- The endpoint that stands at a position is read, without its unused bytes. -/
theorem ctUdpEndpointDecode_of_drop {e : CtEndpoint} (h : p.drop off = endpointField e ++ rest)
    (hfamily : addressLength e.family ≠ 0) (hn : off + (endpointField e).length ≤ n) :
    ctUdpEndpointDecode p n off = some (e.trimmed, off + (endpointField e).length) := by
  have hlen := endpointField_length e
  have hle := addressLength_le e.family
  have htake : (e.addr.toList.take (addressLength e.family)).length = addressLength e.family := by
    rw [List.length_take, List.Vector.toList_length]
    omega
  simp only [endpointField, List.append_assoc] at h
  have hget : p.getD off 0 = e.family := getD_of_drop h
  have haddr := drop_of_drop h
  rw [List.length_singleton] at haddr
  have hslice := slice_of_drop haddr
  have hport := drop_of_drop haddr
  rw [htake] at hslice hport
  unfold ctUdpEndpointDecode
  rw [if_neg (by omega)]
  simp only [hget]
  rw [if_neg (by omega), hslice, ctGetU16_of_drop hport, hlen, Nat.add_assoc (off + 1),
    Nat.add_assoc off, ← Nat.add_assoc 1]
  rfl

/-- The endpoint that was read stands there. -/
theorem ctUdpEndpointDecode_drop {e : CtEndpoint} (h : ctUdpEndpointDecode p n off = some (e, o))
    (hn : n ≤ p.length) :
    p.drop off = endpointField e ++ p.drop o ∧ o = off + (endpointField e).length ∧ o ≤ n ∧
      addressLength e.family ≠ 0 ∧ e.trimmed = e := by
  unfold ctUdpEndpointDecode at h
  split at h
  · exact absurd h (by simp)
  · simp only at h
    split at h
    · exact absurd h (by simp)
    · rename_i hoff hfit
      simp only [Option.some.injEq, Prod.mk.injEq] at h
      obtain ⟨rfl, rfl⟩ := h
      have hle := addressLength_le (p.getD off 0)
      have hroom : off + 1 + addressLength (p.getD off 0) + 2 ≤ p.length := by omega
      have hlen : (slice p (off + 1) (addressLength (p.getD off 0))).length =
          addressLength (p.getD off 0) := slice_length (by omega)
      have htake := take_padded (a := slice p (off + 1) (addressLength (p.getD off 0))) (by omega)
      rw [hlen] at htake
      have hfield : endpointField ⟨p.getD off 0, sliceOctets (slice p (off + 1)
          (addressLength (p.getD off 0)) ++ List.replicate 16 0) 0 16,
          ctGetU16 p (off + 1 + addressLength (p.getD off 0))⟩ =
          [p.getD off 0] ++ slice p (off + 1) (addressLength (p.getD off 0)) ++
            ctPutU16 (ctGetU16 p (off + 1 + addressLength (p.getD off 0))) := by
        simp only [endpointField, htake]
      rw [endpointField_length]
      refine ⟨?_, by dsimp only; omega, by omega, by dsimp only; omega, ?_⟩
      · rw [hfield, drop_getD _ (by omega), drop_slice p (off + 1) (addressLength (p.getD off 0)),
          drop_u16 _ hroom]
        simp
      · simp only [CtEndpoint.trimmed, htake]

/-! ## Frame headers -/

/-- A header that is decoded is the encoding of what it is decoded to. -/
theorem ctFrameHeaderDecode_bytes {b : Build} {head : Octets 36} {h : CtFrameHeader}
    (hdec : ctFrameHeaderDecode b head = some h) : head = frameHeaderBytes h := by
  have hlen : head.toList.length = 36 := head.2
  unfold ctFrameHeaderDecode at hdec
  split at hdec
  · exact absurd hdec (by simp)
  · rename_i hok
    simp only [not_or, ne_eq, not_not, Bool.not_eq_false] at hok
    obtain ⟨hmagic, hversion, hsize, -⟩ := hok
    dsimp only at hdec
    split at hdec
    · exact absurd hdec (by simp)
    · injection hdec with hdec
      subst hdec
      apply List.Vector.eq
      have h0 : head.toList = ctPutU32 ctMagic ++ head.toList.drop 4 := by
        rw [← hmagic, ctPutU32_get (by omega)]
        exact drop_slice head.toList 0 4
      have h4 := @drop_getD head.toList 4 (by omega)
      have h5 := @drop_getD head.toList 5 (by omega)
      have h6 := @drop_getD head.toList 6 (by omega)
      have h7 := @drop_getD head.toList 7 (by omega)
      have h8 : head.toList.drop 8 = ctPutU32 (ctGetU32 head.toList 8) ++ head.toList.drop 12 := by
        rw [ctPutU32_get (by omega)]
        exact drop_slice head.toList 8 4
      have h12 := drop_u64 (p := head.toList) 12 (by omega)
      have h20 := drop_u64 (p := head.toList) 20 (by omega)
      have h28 := drop_u64 (p := head.toList) 28 (by omega)
      have hend : head.toList.drop 36 = [] := List.drop_eq_nil_of_le (by omega)
      refine h0.trans ?_
      rw [h4, hversion, h5, h6, h7, hsize, h8, h12, h20, h28, hend]
      simp [frameHeaderBytes, List.Vector.toList]

/-- A plain frame that is received stands at the front of what was queued. -/
theorem ctPlainRecv_front {b : Build} {inbox p : Bytes} {cap : Nat} {h : CtFrameHeader}
    (hrecv : ctPlainRecv b inbox cap = some (h, p)) :
    h.flags = 0 ∧ h.payloadLen.toNat = p.length ∧ (frameHeaderBytes h).toList ++ p <+: inbox := by
  unfold ctPlainRecv at hrecv
  simp only [Option.bind_eq_bind, Option.bind_eq_some_iff] at hrecv
  obtain ⟨⟨head, rest⟩, hhead, h', hdec, hrecv⟩ := hrecv
  unfold recvall at hhead
  split at hhead
  · exact absurd hhead (by simp)
  · rename_i hlong
    injection hhead with hhead
    obtain ⟨rfl, rfl⟩ := Prod.mk.inj hhead
    split at hrecv
    · exact absurd hrecv (by simp)
    · rename_i hfits
      simp only [Option.bind_eq_some_iff, recvall, Option.pure_def, Option.some.injEq,
        Prod.mk.injEq] at hrecv
      obtain ⟨⟨q, tail⟩, hbody, rfl, rfl⟩ := hrecv
      split at hbody
      · exact absurd hbody (by simp)
      · rename_i hshort
        injection hbody with hbody
        obtain ⟨rfl, rfl⟩ := Prod.mk.inj hbody
        have hsize : (inbox.take ctFrameHeaderSize).length = 36 := by
          rw [List.length_take]
          exact Nat.min_eq_left (by simpa [ctFrameHeaderSize] using hlong)
        dsimp only at hdec hshort ⊢
        refine ⟨by simpa using (not_or.mp hfits).2, by rw [List.length_take]; omega, ?_⟩
        rw [← ctFrameHeaderDecode_bytes hdec, sliceOctets_toList (by omega), slice, List.drop_zero,
          List.take_of_length_le (by omega)]
        refine ⟨(inbox.drop ctFrameHeaderSize).drop h'.payloadLen.toNat, ?_⟩
        rw [List.append_assoc, List.take_append_drop, List.take_append_drop]

end Ctunnel
