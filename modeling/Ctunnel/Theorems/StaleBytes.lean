import Ctunnel.Theorems.MessageCodecs
import Ctunnel.Theorems.StreamFrames

/-!
# START_STREAM in a stale buffer

`ct_start_stream_recv` parses a stack buffer of which only the received payload is
set, and reads four fields before it knows that the payload holds them. The bytes
behind the payload decide nothing, an accepted payload is parsed to its end, and
the reads stay in the buffer (`start_stream_stale`).
-/

namespace Ctunnel

open Lib

variable {b : Build} {work : CtWork} {h : CtFrameHeader} {p : Bytes} {off cap : Nat}

/-! ## Fields inside the payload -/

theorem ctGetU16_append (stale : Bytes) (hoff : off + 2 ≤ p.length) :
    ctGetU16 (p ++ stale) off = ctGetU16 p off := by
  rw [ctGetU16, ctGetU16, slice_append_inside stale hoff]

theorem ctGetU64_append (stale : Bytes) (hoff : off + 8 ≤ p.length) :
    ctGetU64 (p ++ stale) off = ctGetU64 p off := by
  rw [ctGetU64, ctGetU64, slice_append_inside stale hoff]

theorem ctUnpackString_append (p stale : Bytes) (off cap : Nat) :
    ctUnpackString (p ++ stale) p.length off cap = ctUnpackString p p.length off cap := by
  unfold ctUnpackString
  by_cases hshort : off > p.length ∨ p.length - off < 2
  · rw [if_pos hshort, if_pos hshort]
  · rw [if_neg hshort, if_neg hshort, ctGetU16_append stale (by omega)]
    dsimp only
    by_cases hlong : (ctGetU16 p off).toNat ≥ cap ∨ p.length - off - 2 < (ctGetU16 p off).toNat
    · rw [if_pos hlong, if_pos hlong]
    · rw [if_neg hlong, if_neg hlong, slice_append_inside stale (by omega)]

theorem ctUdpEndpointDecode_append (p stale : Bytes) (off : Nat) :
    ctUdpEndpointDecode (p ++ stale) p.length off = ctUdpEndpointDecode p p.length off := by
  unfold ctUdpEndpointDecode
  by_cases hend : off ≥ p.length
  · rw [if_pos hend, if_pos hend]
  · rw [if_neg hend, if_neg hend, List.getD_append _ _ _ _ (by omega)]
    dsimp only
    by_cases hshort : addressLength (p.getD off 0) = 0 ∨
        p.length - (off + 1) < addressLength (p.getD off 0) + 2
    · rw [if_pos hshort, if_pos hshort]
    · rw [if_neg hshort, if_neg hshort, slice_append_inside stale (by omega),
        ctGetU16_append stale (by omega)]

/-! ## The parser -/

/-- A payload that ends before its proxy mode is refused, whatever stands behind it. -/
theorem startStreamParse_short {buf id : Bytes} {n o : Nat}
    (hid : ctUnpackString buf n 0 (b.maxServiceIdLength + 1) = some (id, o)) (hshort : o + 73 ≥ n) :
    startStreamParse b work h buf n = none := by
  unfold startStreamParse
  rw [hid]
  simp only [Option.bind_eq_bind, Option.bind_some]
  cases CtEncMode.ofByte (buf.getD o 0) with
  | none => rfl
  | some mode =>
      simp only [Option.bind_some]
      by_cases hwork : sliceOctets buf (o + 1) 32 ≠ work.id
      · rw [if_pos hwork]
      · rw [if_neg hwork, if_pos (.inr hshort)]

/-- The parser does not depend on the bytes behind the payload. -/
theorem startStreamParse_stale (p stale : Bytes) :
    startStreamParse b work h (p ++ stale) p.length = startStreamParse b work h p p.length := by
  have hstring := ctUnpackString_append p stale 0 (b.maxServiceIdLength + 1)
  cases hid : ctUnpackString p p.length 0 (b.maxServiceIdLength + 1) with
  | none =>
      rw [hid] at hstring
      unfold startStreamParse
      rw [hstring, hid]
      rfl
  | some v =>
      obtain ⟨id, o⟩ := v
      rw [hid] at hstring
      by_cases hshort : o + 73 ≥ p.length
      · rw [startStreamParse_short hstring hshort, startStreamParse_short hid hshort]
      · -- from here every read is inside the payload
        unfold startStreamParse
        rw [hstring, hid]
        simp only [Option.bind_eq_bind, Option.bind_some]
        rw [List.getD_append _ _ _ _ (by omega), List.getD_append _ _ _ _ (by omega),
          sliceOctets_append_inside stale (by omega), sliceOctets_append_inside stale (by omega),
          ctGetU64_append stale (by omega)]
        simp only [ctUdpEndpointDecode_append]

theorem startStreamParse_length {x : StreamContext} {md : CtStreamMetadata} {n o : Nat}
    {buf : Bytes} (hparse : startStreamParse b work h buf n = some (x, md, o)) : n = o + 32 := by
  unfold startStreamParse at hparse
  simp only [Option.bind_eq_bind, Option.bind_eq_some_iff] at hparse
  obtain ⟨⟨id, o₁⟩, hid, mode, hmode, hparse⟩ := hparse
  split at hparse
  · exact absurd hparse (by simp)
  · split at hparse
    · exact absurd hparse (by simp)
    · simp only [Option.bind_eq_some_iff] at hparse
      obtain ⟨proxy, hproxy, ⟨source, o₂⟩, hsource, ⟨destination, o₃⟩, hdestination, hparse⟩ := hparse
      split at hparse
      · exact absurd hparse (by simp)
      · rename_i htail
        simp only [Option.pure_def, Option.some.injEq, Prod.mk.injEq] at hparse
        obtain ⟨-, -, rfl⟩ := hparse
        omega

/-! ## Reads of the buffer -/

/-- `ct_udp_endpoint_decode`, with every read of the buffer. -/
def ctUdpEndpointFetch (buffer : Bytes) (length offset : Nat) : Fetch (CtEndpoint × Nat) := do
  Fetch.check (¬ offset ≥ length)
  let family ← Fetch.read buffer.length offset 1 (buffer.getD offset 0)
  let n := addressLength family
  Fetch.check (¬ (n = 0 ∨ length - (offset + 1) < n + 2))
  let addr ← Fetch.read buffer.length (offset + 1) n (slice buffer (offset + 1) n)
  let port ← Fetch.read buffer.length (offset + 1 + n) 2 (ctGetU16 buffer (offset + 1 + n))
  return (⟨family, sliceOctets (addr ++ List.replicate 16 0) 0 16, port⟩, offset + 1 + n + 2)

/-- The parser of `ct_start_stream_recv`, with every read of the buffer. -/
def startStreamFetch (b : Build) (work : CtWork) (h : CtFrameHeader) (buf : Bytes) (n : Nat) :
    Fetch (StreamContext × CtStreamMetadata × Nat) := do
  let (id, o) ← ctUnpackStringFetch buf n 0 (b.maxServiceIdLength + 1)
  let mode ← Fetch.read buf.length o 1 (CtEncMode.ofByte (buf.getD o 0))
  let mode ← Fetch.ofOption mode
  let workId ← Fetch.read buf.length (o + 1) 32 (sliceOctets buf (o + 1) 32)
  Fetch.check (¬ workId ≠ work.id)
  let rnd ← Fetch.read buf.length (o + 33) 32 (sliceOctets buf (o + 33) 32)
  let sid ← Fetch.read buf.length (o + 65) 8 (ctGetU64 buf (o + 65))
  Fetch.check (¬ (sid ≠ h.streamId ∨ o + 73 ≥ n))
  let proxy ← Fetch.read buf.length (o + 73) 1 (CtProxyProtocolMode.ofByte (buf.getD (o + 73) 0))
  let proxy ← Fetch.ofOption proxy
  let (source, o) ← ctUdpEndpointFetch buf n (o + 74)
  let (destination, o) ← ctUdpEndpointFetch buf n o
  Fetch.check (¬ n - o ≠ 32)
  return (⟨sid, rnd, work.id, CString.ofBytes id, mode⟩, ⟨proxy, source, destination⟩, o)

theorem ctUdpEndpointFetch_eq {buffer : Bytes} {length : Nat} (hbuf : length ≤ buffer.length)
    (offset : Nat) : ctUdpEndpointFetch buffer length offset =
      Fetch.ofOption (ctUdpEndpointDecode buffer length offset) := by
  unfold ctUdpEndpointFetch ctUdpEndpointDecode
  by_cases hend : offset ≥ length
  · rw [if_pos hend, Fetch.check_neg (not_not.mpr hend)]
    rfl
  · rw [if_neg hend, Fetch.check_pos hend, Fetch.bind_accepted, Fetch.read_inside (by omega),
      Fetch.bind_accepted]
    dsimp only
    by_cases hshort : addressLength (buffer.getD offset 0) = 0 ∨
        length - (offset + 1) < addressLength (buffer.getD offset 0) + 2
    · rw [if_pos hshort, Fetch.check_neg (not_not.mpr hshort)]
      rfl
    · rw [if_neg hshort, Fetch.check_pos hshort, Fetch.bind_accepted, Fetch.read_inside (by omega),
        Fetch.bind_accepted, Fetch.read_inside (by omega)]
      rfl

/-- A buffer that holds the longest id and 75 bytes is never left. -/
theorem startStreamFetch_eq {buf : Bytes} {n : Nat} (hn : n ≤ buf.length)
    (hroom : b.maxServiceIdLength + 75 ≤ buf.length) :
    startStreamFetch b work h buf n = Fetch.ofOption (startStreamParse b work h buf n) := by
  unfold startStreamFetch startStreamParse
  rw [ctUnpackStringFetch_eq]
  cases hid : ctUnpackString buf n 0 (b.maxServiceIdLength + 1) with
  | none => rfl
  | some v =>
      obtain ⟨id, o⟩ := v
      obtain ⟨hlen, -, ho, -, -⟩ := ctUnpackString_some hid hn
      simp only [Fetch.ofOption, Fetch.bind_accepted, Option.bind_eq_bind, Option.bind_some]
      rw [Fetch.read_inside (by omega), Fetch.bind_accepted]
      cases CtEncMode.ofByte (buf.getD o 0) with
      | none => rfl
      | some mode =>
          simp only [Fetch.bind_accepted, Option.bind_some]
          rw [Fetch.read_inside (by omega), Fetch.bind_accepted]
          by_cases hwork : sliceOctets buf (o + 1) 32 ≠ work.id
          · rw [if_pos hwork, Fetch.check_neg (not_not.mpr hwork)]
            rfl
          · rw [if_neg hwork, Fetch.check_pos hwork, Fetch.bind_accepted,
              Fetch.read_inside (by omega), Fetch.bind_accepted, Fetch.read_inside (by omega),
              Fetch.bind_accepted]
            by_cases hshort : ctGetU64 buf (o + 65) ≠ h.streamId ∨ o + 73 ≥ n
            · rw [if_pos hshort, Fetch.check_neg (not_not.mpr hshort)]
              rfl
            · rw [if_neg hshort, Fetch.check_pos hshort, Fetch.bind_accepted,
                Fetch.read_inside (by omega), Fetch.bind_accepted]
              cases CtProxyProtocolMode.ofByte (buf.getD (o + 73) 0) with
              | none => rfl
              | some proxy =>
                  simp only [Fetch.bind_accepted, Option.bind_some, ctUdpEndpointFetch_eq hn]
                  cases ctUdpEndpointDecode buf n (o + 74) with
                  | none => rfl
                  | some source =>
                      simp only [Fetch.ofOption, Fetch.bind_accepted, Option.bind_some]
                      cases ctUdpEndpointDecode buf n source.2 with
                      | none => rfl
                      | some destination =>
                          simp only [Fetch.bind_accepted, Option.bind_some]
                          by_cases htail : n - destination.2 ≠ 32
                          · rw [if_pos htail, Fetch.check_neg (not_not.mpr htail)]
                            rfl
                          · rw [if_neg htail, Fetch.check_pos htail]
                            rfl

/-! ## The whole call -/

/-- The call does what it does in a buffer that ends with the payload. -/
theorem ctStartStreamRecv_stale {σ : Type} {m : Monocypher} {c : CtControl} (inbox stale : Bytes) :
    (ctStartStreamRecv b m work c inbox stale : Call Effect σ (StreamContext × CtStreamMetadata)) =
      ctStartStreamRecv b m work c inbox [] := by
  unfold ctStartStreamRecv
  refine Call.bind_congr fun ⟨h, p⟩ => Call.bind_congr fun _ => ?_
  dsimp only
  rw [startStreamParse_stale, startStreamParse_stale]
  refine Call.need_congr fun ⟨x, md, o⟩ hparse => ?_
  -- the authenticator is the end of the payload
  have hend := startStreamParse_length hparse
  dsimp only
  rw [sliceOctets_append_inside stale (by omega), sliceOctets_append_inside [] (by omega)]

/-- The bytes behind the payload change neither the result nor an output of an
accepted frame, an accepted payload is parsed to its end, and no read leaves the
buffer. -/
theorem start_stream_stale {σ : Type} {m : Monocypher}
    (hroom : b.maxServiceIdLength + 75 ≤ b.controlBufferSize) (work : CtWork) (c : CtControl)
    (inbox : Bytes) (s : σ) :
    (∀ stale stale', ctStartStreamRecv b m work c inbox stale s =
      ctStartStreamRecv b m work c inbox stale' s) ∧
    (∀ stale x md, (ctStartStreamRecv b m work c inbox stale s).value = some (x, md) →
      ∃ h p o, ctPlainRecv b inbox b.controlBufferSize = some (h, p) ∧
        startStreamParse b work h (p ++ stale) p.length = some (x, md, o) ∧ p.length = o + 32) ∧
    ∀ stale h p, ctPlainRecv b inbox b.controlBufferSize = some (h, p) →
      p.length + stale.length = b.controlBufferSize →
        startStreamFetch b work h (p ++ stale) p.length =
          Fetch.ofOption (startStreamParse b work h (p ++ stale) p.length) ∧
        startStreamFetch b work h (p ++ stale) p.length ≠ .outside := by
  refine ⟨?_, ?_, ?_⟩
  · intro stale stale'
    rw [ctStartStreamRecv_stale inbox stale, ctStartStreamRecv_stale inbox stale']
  · intro stale x md haccept
    obtain ⟨h, p, hrecv, -, o, hparse, -⟩ := ctStartStreamRecv_value_iff.mp haccept
    exact ⟨h, p, o, hrecv, hparse, startStreamParse_length hparse⟩
  · intro stale h p _ hbuf
    have hlen : (p ++ stale).length = b.controlBufferSize := by rw [List.length_append, hbuf]
    have heq := @startStreamFetch_eq b work h (p ++ stale) p.length (by omega) (by omega)
    refine ⟨heq, ?_⟩
    rw [heq]
    exact Fetch.ofOption_stays _

/-- The server's START_STREAM is accepted in a buffer that ends in ones. -/
theorem web_start_stale :
    webStarted (wireOut (webStart (some webMetadata)).effects) = some (webStream, webMetadata) ∧
      (ctStartStreamRecv defaultBuild streamLog.monocypher streamWork streamEnd
        (wireOut (webStart (some webMetadata)).effects) (List.replicate 64 0xff) ()).value =
        webStarted (wireOut (webStart (some webMetadata)).effects) :=
  ⟨by decide +kernel,
    congrArg Reply.value ((start_stream_stale (by decide) streamWork streamEnd _ ()).1 _ _)⟩

end Ctunnel
