import Mathlib.Data.Nat.Bitwise

/-!
# Three bytes as four six-bit digits

A 24-bit value put together with shifts and a bitwise or, from three bytes
(`joinBytes`) or from four digits below 64 (`joinSextets`), as the sum it is, so
that a codec built on it closes its cases with `omega`.
-/

namespace Ctunnel.Lib

/-- The value of three bytes. -/
def joinBytes (x y z : Nat) : Nat := x <<< 16 ||| y <<< 8 ||| z

/-- The value of four digits. -/
def joinSextets (a b c d : Nat) : Nat := a <<< 18 ||| b <<< 12 ||| c <<< 6 ||| d

/-- Below a shifted value there is room for a smaller one. -/
theorem shiftLeft_or {v n : Nat} (u : Nat) (h : v < 2 ^ n) : u <<< n ||| v = u * 2 ^ n + v := by
  rw [← Nat.shiftLeft_add_eq_or_of_lt h, Nat.shiftLeft_eq]

theorem joinBytes_eq {y z : Nat} (x : Nat) (hy : y < 256) (hz : z < 256) :
    joinBytes x y z = x * 65536 + y * 256 + z := by
  have hyx : x <<< 16 ||| y <<< 8 = (x * 2 ^ 8 + y) <<< 8 := by
    rw [show (x : Nat) <<< 16 = (x <<< 8) <<< 8 from Nat.shiftLeft_add x 8 8,
      ← Nat.shiftLeft_or_distrib, shiftLeft_or x hy]
  rw [joinBytes, hyx, shiftLeft_or _ hz]
  omega

theorem joinSextets_eq {b c d : Nat} (a : Nat) (hb : b < 64) (hc : c < 64) (hd : d < 64) :
    joinSextets a b c d = a * 262144 + b * 4096 + c * 64 + d := by
  have hba : a <<< 18 ||| b <<< 12 = (a * 2 ^ 6 + b) <<< 12 := by
    rw [show (a : Nat) <<< 18 = (a <<< 6) <<< 12 from Nat.shiftLeft_add a 6 12,
      ← Nat.shiftLeft_or_distrib, shiftLeft_or a hb]
  have hcb : (a * 2 ^ 6 + b) <<< 12 ||| c <<< 6 = ((a * 2 ^ 6 + b) * 2 ^ 6 + c) <<< 6 := by
    rw [show (a * 2 ^ 6 + b) <<< 12 = ((a * 2 ^ 6 + b) <<< 6) <<< 6 from Nat.shiftLeft_add _ 6 6,
      ← Nat.shiftLeft_or_distrib, shiftLeft_or _ hc]
  rw [joinSextets, hba, hcb, shiftLeft_or _ hd]
  omega

end Ctunnel.Lib
