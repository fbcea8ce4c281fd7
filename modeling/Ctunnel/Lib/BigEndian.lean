import Mathlib.Data.Vector.Basic
import Mathlib.Data.List.GetD
import Mathlib.Data.List.Induction

/-!
# Big-endian numerals over bytes

`beBytes w v` is the `w`-byte big-endian numeral of `v` (taken modulo
`256 ^ w`) and `beNat` reads one back. The two are inverse on numerals of a
fixed width in both directions, so a fixed-width numeral field of a message
determines its value and the other way round.

`Octets n` is a byte string of fixed length `n`; the length is part of the
value, so concatenations of such fields can be taken apart again.
-/

namespace Ctunnel.Lib

/-- Byte strings. -/
abbrev Bytes := List UInt8

/-- Byte strings of length `n`. -/
abbrev Octets (n : Nat) := List.Vector UInt8 n

/-- The `w`-byte big-endian numeral of `v`. -/
def beBytes : Nat → Nat → Bytes
  | 0, _ => []
  | w + 1, v => UInt8.ofNat (v / 256 ^ w) :: beBytes w v

/-- The value of a big-endian numeral. -/
def beNat (bs : Bytes) : Nat := bs.foldl (fun v b => v * 256 + b.toNat) 0

@[simp] theorem beBytes_length (w v : Nat) : (beBytes w v).length = w := by
  induction w generalizing v with
  | zero => rfl
  | succ w ih => simp [beBytes, ih]

/-- The last byte is the lowest. -/
theorem beBytes_concat (w v : Nat) : beBytes (w + 1) v = beBytes w (v / 256) ++ [UInt8.ofNat v] := by
  induction w with
  | zero => simp [beBytes]
  | succ w ih =>
      have hhigh : v / 256 ^ (w + 1) = v / 256 / 256 ^ w := by
        rw [Nat.div_div_eq_div_mul, Nat.pow_succ, Nat.mul_comm]
      rw [beBytes, ih, hhigh]
      rfl

theorem beNat_concat (bs : Bytes) (b : UInt8) :
    beNat (bs ++ [b]) = beNat bs * 256 + b.toNat := by
  simp [beNat]

/-- A numeral reads back as the value modulo its width. -/
theorem beNat_beBytes (w v : Nat) : beNat (beBytes w v) = v % 256 ^ w := by
  induction w generalizing v with
  | zero => simp [beBytes, beNat, Nat.mod_one]
  | succ w ih =>
      have hlow : (UInt8.ofNat v).toNat = v % 256 := by simp
      rw [beBytes_concat, beNat_concat, ih, hlow, Nat.pow_succ, Nat.mul_comm (256 ^ w), Nat.mod_mul]
      omega

theorem beNat_lt (bs : Bytes) : beNat bs < 256 ^ bs.length := by
  induction bs using List.reverseRecOn with
  | nil => simp [beNat]
  | append_singleton bs b ih =>
      rw [beNat_concat, List.length_append, List.length_singleton, pow_succ]
      have hb := b.toNat_lt
      omega

/-- A numeral is determined by the value it reads as. -/
theorem beBytes_beNat (bs : Bytes) : beBytes bs.length (beNat bs) = bs := by
  induction bs using List.reverseRecOn with
  | nil => rfl
  | append_singleton bs b ih =>
      have hb := b.toNat_lt
      rw [List.length_append, List.length_singleton, beBytes_concat, beNat_concat]
      have hhigh : (beNat bs * 256 + b.toNat) / 256 = beNat bs := by omega
      have hlow : UInt8.ofNat (beNat bs * 256 + b.toNat) = b := by
        apply UInt8.toNat_inj.mp
        rw [UInt8.toNat_ofNat']
        omega
      rw [hhigh, hlow, ih]

/-- Values below the width have distinct numerals. -/
theorem beBytes_inj {w v v' : Nat} (hv : v < 256 ^ w) (hv' : v' < 256 ^ w)
    (h : beBytes w v = beBytes w v') : v = v' := by
  have := congrArg beNat h
  rwa [beNat_beBytes, beNat_beBytes, Nat.mod_eq_of_lt hv, Nat.mod_eq_of_lt hv'] at this

/-! ## Fields of fixed length -/

/-- Two concatenations that start with fields of one length agree field by
field. -/
theorem append_field_inj {n : Nat} {a b : Octets n} {x y : Bytes}
    (h : a.toList ++ x = b.toList ++ y) : a = b ∧ x = y := by
  obtain ⟨hab, hxy⟩ := List.append_inj h (by simp)
  exact ⟨List.Vector.eq a b hab, hxy⟩

/-- The same for a numeral field. -/
theorem append_beBytes_inj {w v v' : Nat} {x y : Bytes} (hv : v < 256 ^ w)
    (hv' : v' < 256 ^ w) (h : beBytes w v ++ x = beBytes w v' ++ y) : v = v' ∧ x = y := by
  obtain ⟨hvv, hxy⟩ := List.append_inj h (by simp)
  exact ⟨beBytes_inj hv hv' hvv, hxy⟩

/-- Byte strings that differ at a position differ whatever follows them. -/
theorem append_ne_of_getD {a b x y : Bytes} {i : Nat} (ha : i < a.length) (hb : i < b.length)
    (hne : a.getD i 0 ≠ b.getD i 0) : a ++ x ≠ b ++ y := by
  intro h
  have hbyte := congrArg (fun l => l.getD i 0) h
  simp only [List.getD_append _ _ _ _ ha, List.getD_append _ _ _ _ hb] at hbyte
  exact hne hbyte

/-! ## Slices -/

/-- The `n` bytes at offset `off`. -/
def slice (bs : Bytes) (off n : Nat) : Bytes := (bs.drop off).take n

theorem slice_length {bs : Bytes} {off n : Nat} (h : off + n ≤ bs.length) :
    (slice bs off n).length = n := by
  simp only [slice, List.length_take, List.length_drop]
  omega

/-- A slice past the first field is a slice of the rest. -/
theorem slice_append_right {a rest : Bytes} {off n : Nat} (h : a.length ≤ off) :
    slice (a ++ rest) off n = slice rest (off - a.length) n := by
  rw [slice, List.drop_append, List.drop_eq_nil_of_le h, List.nil_append, slice]

/-- The first field itself. -/
theorem slice_append_left {a rest : Bytes} {n : Nat} (h : a.length = n) :
    slice (a ++ rest) 0 n = a := by
  subst h
  simp [slice]

/-- The slice at offset `off`, as a field of fixed length; short input is
padded with zeros. -/
def sliceOctets (bs : Bytes) (off n : Nat) : Octets n :=
  ⟨(bs.drop off ++ List.replicate n 0).take n, by simp⟩

/-- Inside the input no padding happens. -/
theorem sliceOctets_toList {bs : Bytes} {off n : Nat} (h : off + n ≤ bs.length) :
    (sliceOctets bs off n).toList = slice bs off n := by
  have hlen : n ≤ (bs.drop off).length := by
    rw [List.length_drop]
    omega
  show (bs.drop off ++ List.replicate n 0).take n = slice bs off n
  rw [List.take_append_of_le_length hlen, slice]

end Ctunnel.Lib
