import Ctunnel.Lib.BigEndian
import Mathlib.Data.List.GetD

/-!
# Reading fields at a position

A decoder keeps an offset into its input. What is left to read at `off` is
`bs.drop off`; reading a field splits it off, and a field that stands there is
what is read. The first half turns a successful decoder into an equation for its
input, the second half an encoded input into the result of a decoder.
-/

namespace Ctunnel.Lib

variable {bs field rest : Bytes} {off n : Nat} {x : UInt8}

/-! ## What was read -/

theorem drop_slice (bs : Bytes) (off n : Nat) : bs.drop off = slice bs off n ++ bs.drop (off + n) := by
  rw [slice, ← List.drop_drop, List.take_append_drop]

theorem drop_getD (off : Nat) (h : off < bs.length) : bs.drop off = [bs.getD off 0] ++ bs.drop (off + 1) := by
  rw [List.drop_eq_getElem_cons h, List.getD_eq_getElem _ _ h]
  rfl

theorem drop_sliceOctets (off n : Nat) (h : off + n ≤ bs.length) :
    bs.drop off = (sliceOctets bs off n).toList ++ bs.drop (off + n) := by
  rw [sliceOctets_toList h]
  exact drop_slice bs off n

/-! ## Inside the first part -/

theorem slice_append_inside (rest : Bytes) (h : off + n ≤ bs.length) :
    slice (bs ++ rest) off n = slice bs off n := by
  rw [slice, slice, List.drop_append_of_le_length (by omega),
    List.take_append_of_le_length (by rw [List.length_drop]; omega)]

theorem sliceOctets_append_inside (rest : Bytes) (h : off + n ≤ bs.length) :
    sliceOctets (bs ++ rest) off n = sliceOctets bs off n := by
  apply List.Vector.eq
  rw [sliceOctets_toList h, sliceOctets_toList (by rw [List.length_append]; omega),
    slice_append_inside rest h]

/-! ## What stands at a position -/

theorem slice_of_drop (h : bs.drop off = field ++ rest) : slice bs off field.length = field := by
  rw [slice, h, List.take_left']
  rfl

theorem drop_of_drop (h : bs.drop off = field ++ rest) : bs.drop (off + field.length) = rest := by
  rw [← List.drop_drop, h, List.drop_left']
  rfl

theorem le_of_drop (h : bs.drop off = field ++ rest) (hoff : off ≤ bs.length) :
    bs.length = off + field.length + rest.length := by
  have hlen := congrArg List.length h
  rw [List.length_drop, List.length_append] at hlen
  omega

theorem getD_of_drop (h : bs.drop off = x :: rest) : bs.getD off 0 = x := by
  have hget := congrArg (fun l => l.getD 0 0) h
  simpa [List.getD_eq_getElem?_getD, List.getElem?_drop] using hget

theorem sliceOctets_of_drop {v : Octets n} (h : bs.drop off = v.toList ++ rest)
    (hoff : off ≤ bs.length) : sliceOctets bs off n = v := by
  have hlen := le_of_drop h hoff
  have hv : v.toList.length = n := v.2
  apply List.Vector.eq
  rw [sliceOctets_toList (by omega), ← slice_of_drop h, hv]

end Ctunnel.Lib
