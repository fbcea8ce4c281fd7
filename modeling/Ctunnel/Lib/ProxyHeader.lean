import Ctunnel.Lib.Cursor

/-!
# The binary PROXY header, version 2

A parser as a receiver of version 2 headers has it: the signature, the PROXY
command over TCP, the length field, and the two addresses and ports of the family
the header names. It returns what stands behind the header.
-/

namespace Ctunnel.Lib.ProxyHeader

/-- The twelve bytes a version 2 header starts with. -/
def signature : Bytes :=
  [0x0d, 0x0a, 0x0d, 0x0a, 0x00, 0x0d, 0x0a, 0x51, 0x55, 0x49, 0x54, 0x0a]

/-- The endpoints that a header gives. -/
inductive Header
  | tcp4 (source destination : Octets 4) (sourcePort destinationPort : Nat)
  | tcp6 (source destination : Octets 16) (sourcePort destinationPort : Nat)
  deriving DecidableEq

/-- The length field. -/
def lengthField (bs : Bytes) : Nat := beNat (slice bs 14 2)

/-- The block of addresses and ports, of two addresses of `n` bytes. -/
def addressBlock (n : Nat) (bs : Bytes) : Octets n × Octets n × Nat × Nat :=
  (sliceOctets bs 16 n, sliceOctets bs (16 + n) n, beNat (slice bs (16 + 2 * n) 2),
    beNat (slice bs (16 + 2 * n + 2) 2))

/-- The parser: the endpoints, and the bytes behind the header. -/
def parse (bs : Bytes) : Option (Header × Bytes) :=
  if bs.length < 16 ∨ bs.take 12 ≠ signature ∨ bs.getD 12 0 ≠ 0x21 ∨
      bs.length < 16 + lengthField bs then none
  else if bs.getD 13 0 = 0x11 ∧ 12 ≤ lengthField bs then
    let (source, destination, sourcePort, destinationPort) := addressBlock 4 bs
    some (.tcp4 source destination sourcePort destinationPort, bs.drop (16 + lengthField bs))
  else if bs.getD 13 0 = 0x21 ∧ 36 ≤ lengthField bs then
    let (source, destination, sourcePort, destinationPort) := addressBlock 16 bs
    some (.tcp6 source destination sourcePort destinationPort, bs.drop (16 + lengthField bs))
  else none

/-- A header over addresses of `n` bytes, of the family byte `family`. -/
def render (family : UInt8) (source destination : Bytes) (sourcePort destinationPort : Nat) : Bytes :=
  signature ++ ([0x21, family] ++ (beBytes 2 (source.length + destination.length + 4) ++
    (source ++ (destination ++ (beBytes 2 sourcePort ++ beBytes 2 destinationPort)))))

variable {family : UInt8} {source destination rest : Bytes} {sourcePort destinationPort n : Nat}

theorem beNat_port {port : Nat} (h : port < 65536) : beNat (beBytes 2 port) = port := by
  rw [beNat_beBytes]
  exact Nat.mod_eq_of_lt h

/-- What a receiver sees of a header over addresses of `n` bytes. -/
theorem render_fields (hsource : source.length = n) (hdestination : destination.length = n)
    (hn : n ≤ 16) (hsp : sourcePort < 65536) (hdp : destinationPort < 65536) :
    let bs := render family source destination sourcePort destinationPort ++ rest
    bs.length = 16 + (2 * n + 4) + rest.length ∧ bs.take 12 = signature ∧ bs.getD 12 0 = 0x21 ∧
      bs.getD 13 0 = family ∧ lengthField bs = 2 * n + 4 ∧ slice bs 16 n = source ∧
      slice bs (16 + n) n = destination ∧ beNat (slice bs (16 + 2 * n) 2) = sourcePort ∧
      beNat (slice bs (16 + 2 * n + 2) 2) = destinationPort ∧ bs.drop (16 + (2 * n + 4)) = rest := by
  intro bs
  have hsig : signature.length = 12 := rfl
  have h0 : bs.drop 0 = signature ++ ([0x21, family] ++
      (beBytes 2 (source.length + destination.length + 4) ++ (source ++ (destination ++
        (beBytes 2 sourcePort ++ (beBytes 2 destinationPort ++ rest)))))) := by
    simp [bs, render]
  have h12 := drop_of_drop h0
  rw [hsig, Nat.zero_add] at h12
  have h13 : bs.drop 13 = [family] ++ _ := drop_of_drop (show _ = [0x21] ++ _ from h12)
  have h14 := drop_of_drop h12
  have h16 := drop_of_drop h14
  have hdest := drop_of_drop h16
  have hsrcPort := drop_of_drop hdest
  have hdstPort := drop_of_drop hsrcPort
  have hrest := drop_of_drop hdstPort
  have hlen := le_of_drop h0 (Nat.zero_le _)
  simp only [List.length_cons, List.length_nil, beBytes_length, List.length_append, hsource,
    hdestination, hsig, Nat.zero_add, Nat.reduceAdd] at h14 h16 hdest hsrcPort hdstPort hrest hlen
  have htwo : 16 + n + n = 16 + 2 * n := by omega
  have hend : 16 + n + n + 2 + 2 = 16 + (2 * n + 4) := by omega
  rw [htwo] at hsrcPort hdstPort
  rw [hend] at hrest
  have hslice16 := slice_of_drop h16
  have hsliceDest := slice_of_drop hdest
  have hsliceLen := slice_of_drop h14
  have hslicePort := slice_of_drop hsrcPort
  have hslicePort' := slice_of_drop hdstPort
  rw [hsource] at hslice16
  rw [hdestination] at hsliceDest
  rw [beBytes_length] at hsliceLen hslicePort hslicePort'
  refine ⟨by omega, ?_, getD_of_drop h12, getD_of_drop h13, ?_, hslice16, hsliceDest, ?_, ?_, hrest⟩
  · have hslice := slice_of_drop h0
    rwa [slice, List.drop_zero] at hslice
  · rw [lengthField, hsliceLen, beNat_port (by omega)]
    omega
  · rw [hslicePort, beNat_port hsp]
  · rw [hslicePort', beNat_port hdp]

/-- A header for TCP over IPv4 is read as such, whatever follows it. -/
theorem parse_tcp4 {source destination : Octets 4} (hsp : sourcePort < 65536)
    (hdp : destinationPort < 65536) :
    parse (render 0x11 source.toList destination.toList sourcePort destinationPort ++ rest) =
      some (.tcp4 source destination sourcePort destinationPort, rest) := by
  obtain ⟨hlen, hsig, hcommand, hfamily, hfield, hsource, hdestination, hport, hport', hrest⟩ :=
    @render_fields 0x11 source.toList destination.toList rest sourcePort destinationPort 4 source.2
      destination.2 (by omega) hsp hdp
  have hsource' := List.Vector.eq _ _ ((sliceOctets_toList (by omega)).trans hsource)
  have hdestination' := List.Vector.eq _ _ ((sliceOctets_toList (by omega)).trans hdestination)
  unfold parse
  rw [if_neg (by simp only [hsig, hcommand, hfield, ne_eq, not_true, false_or, not_or]; omega),
    if_pos ⟨hfamily, by omega⟩]
  simp only [addressBlock, hsource', hdestination', hport, hport', hfield, hrest]

/-- A header for TCP over IPv6. -/
theorem parse_tcp6 {source destination : Octets 16} (hsp : sourcePort < 65536)
    (hdp : destinationPort < 65536) :
    parse (render 0x21 source.toList destination.toList sourcePort destinationPort ++ rest) =
      some (.tcp6 source destination sourcePort destinationPort, rest) := by
  obtain ⟨hlen, hsig, hcommand, hfamily, hfield, hsource, hdestination, hport, hport', hrest⟩ :=
    @render_fields 0x21 source.toList destination.toList rest sourcePort destinationPort 16 source.2
      destination.2 (by omega) hsp hdp
  have hsource' := List.Vector.eq _ _ ((sliceOctets_toList (by omega)).trans hsource)
  have hdestination' := List.Vector.eq _ _ ((sliceOctets_toList (by omega)).trans hdestination)
  unfold parse
  rw [if_neg (by simp only [hsig, hcommand, hfield, ne_eq, not_true, false_or, not_or]; omega),
    if_neg (by rw [hfamily]; simp), if_pos ⟨hfamily, by omega⟩]
  simp only [addressBlock, hsource', hdestination', hport, hport', hfield, hrest]

end Ctunnel.Lib.ProxyHeader
