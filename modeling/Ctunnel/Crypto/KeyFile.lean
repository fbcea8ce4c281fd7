import Ctunnel.Lib.Sextets
import Ctunnel.Types

/-!
# Key files (`src/crypto/crypto_monocypher.c`)

The base64 codec of the key files and the two functions that store and load
them. What the system calls answer is the record `KeyFile`; a file is loaded
with the prefix, the length and the permission check of its `KeyFormat`.
-/

namespace Ctunnel

open Lib

/-! ## Base64 -/

/-- `b64_alphabet`. -/
def b64Alphabet : Bytes :=
  ascii "ABCDEFGHIJKLMNOPQRSTUVWXYZabcdefghijklmnopqrstuvwxyz0123456789+/"

/-- `b64_alphabet[value & 63]`. -/
def b64Char (value : Nat) : UInt8 := b64Alphabet.getD (value &&& 63) 0

/-- The loop of `b64_encode`, one turn for three bytes or what is left of them. -/
def b64Groups : Bytes → Bytes
  | [] => []
  | [x] =>
      let value := x.toNat <<< 16
      [b64Char (value >>> 18), b64Char (value >>> 12), 61, 61]
  | [x, y] =>
      let value := x.toNat <<< 16 ||| y.toNat <<< 8
      [b64Char (value >>> 18), b64Char (value >>> 12), b64Char (value >>> 6), 61]
  | x :: y :: z :: rest =>
      let value := x.toNat <<< 16 ||| y.toNat <<< 8 ||| z.toNat
      [b64Char (value >>> 18), b64Char (value >>> 12), b64Char (value >>> 6), b64Char value] ++
        b64Groups rest

/-- `b64_encode`. -/
def b64Encode (cap : Nat) (input : Bytes) : Option Bytes :=
  if cap < (input.length + 2) / 3 * 4 + 1 then none else some (b64Groups input)

/-- `b64_value`. -/
def b64Value (c : UInt8) : Int :=
  if 65 ≤ c ∧ c ≤ 90 then c.toNat - 65
  else if 97 ≤ c ∧ c ≤ 122 then c.toNat - 97 + 26
  else if 48 ≤ c ∧ c ≤ 57 then c.toNat - 48 + 52
  else if c = 43 then 62
  else if c = 47 then 63
  else -1

/-- The third and the fourth character of a quantum: -2 for a padding character. -/
def b64Padded (c : UInt8) : Int := if c = 61 then -2 else b64Value c

/-- The tests on one quantum; `last` is `i + 4 == length`. -/
def b64Rejects (last : Bool) (a b c d : Int) : Bool :=
  a < 0 || b < 0 || c == -1 || d == -1 || (c == -2 && d != -2) ||
    ((c == -2 || d == -2) && !last) || (c == -2 && b.toNat &&& 15 != 0) ||
    (d == -2 && decide (0 ≤ c) && c.toNat &&& 3 != 0)

/-- `if (o >= expected) return -1; out[o++] = (uint8_t)value`. -/
def b64Out (expected : Nat) (out : Bytes) (value : Nat) : Option Bytes :=
  if expected ≤ out.length then none else some (out ++ [UInt8.ofNat value])

/-- What the loop of `b64_decode` writes for one quantum. -/
def b64Quantum (expected : Nat) (out : Bytes) (a b c d : Int) : Option Bytes := do
  let value := a.toNat <<< 18 ||| b.toNat <<< 12
  let value := if 0 ≤ c then value ||| c.toNat <<< 6 else value
  let value := if 0 ≤ d then value ||| d.toNat else value
  let out ← b64Out expected out (value >>> 16)
  let out ← if 0 ≤ c then b64Out expected out (value >>> 8) else some out
  if 0 ≤ d then b64Out expected out value else some out

/-- The loop of `b64_decode` and the test after it. -/
def b64Quanta (expected : Nat) (out : Bytes) : Bytes → Option Bytes
  | a :: b :: c :: d :: rest =>
      if b64Rejects rest.isEmpty (b64Value a) (b64Value b) (b64Padded c) (b64Padded d) then none
      else
        (b64Quantum expected out (b64Value a) (b64Value b) (b64Padded c) (b64Padded d)).bind
          fun out => b64Quanta expected out rest
  | _ => if out.length = expected then some out else none

/-- `b64_decode`. -/
def b64Decode (expected : Nat) (input : Bytes) : Option Bytes :=
  if input.length = 0 ∨ input.length &&& 3 ≠ 0 then none else b64Quanta expected [] input

/-! ## The codec is exact -/

theorem b64Value_char {v : Nat} (h : v < 64) : b64Value (b64Char v) = v := by
  revert v
  decide +kernel

theorem b64Char_ne_pad {v : Nat} (h : v < 64) : b64Char v ≠ 61 := by
  revert v
  decide +kernel

theorem b64Char_mod (v : Nat) : b64Char v = b64Char (v % 64) := by
  have hmask : v &&& 63 = v % 64 := Nat.and_two_pow_sub_one_eq_mod v 6
  have hagain : v % 64 &&& 63 = v % 64 % 64 := Nat.and_two_pow_sub_one_eq_mod (v % 64) 6
  rw [b64Char, b64Char, hmask, hagain, Nat.mod_mod]

/-- A character with a value is the alphabet's character for it. -/
theorem b64Char_value (c : UInt8) : b64Value c = -1 ∨
    (0 ≤ b64Value c ∧ b64Value c < 64 ∧ b64Char (b64Value c).toNat = c) := by
  have hall : ∀ n < 256, b64Value (UInt8.ofNat n) = -1 ∨
      (0 ≤ b64Value (UInt8.ofNat n) ∧ b64Value (UInt8.ofNat n) < 64 ∧
        b64Char (b64Value (UInt8.ofNat n)).toNat = UInt8.ofNat n) := by
    decide +kernel
  have hc := hall c.toNat c.toNat_lt
  rwa [UInt8.ofNat_toNat] at hc

theorem b64Padded_char {v : Nat} (h : v < 64) : b64Padded (b64Char v) = v := by
  rw [b64Padded, if_neg (b64Char_ne_pad h), b64Value_char h]

theorem b64Char_shift (v n : Nat) : b64Char (v >>> n) = b64Char (v / 2 ^ n % 64) := by
  rw [b64Char_mod, Nat.shiftRight_eq_div_pow]

/-- Three bytes become the four digits of their value. -/
theorem b64Groups_three (x y z : UInt8) (rest : Bytes) :
    b64Groups (x :: y :: z :: rest) =
      b64Char (x.toNat / 4) :: b64Char (x.toNat % 4 * 16 + y.toNat / 16) ::
        b64Char (y.toNat % 16 * 4 + z.toNat / 64) :: b64Char (z.toNat % 64) ::
          b64Groups rest := by
  have hx := x.toNat_lt
  have hy := y.toNat_lt
  have hz := z.toNat_lt
  have hv := joinBytes_eq x.toNat hy hz
  rw [joinBytes] at hv
  show b64Char _ :: b64Char _ :: b64Char _ :: b64Char _ :: b64Groups rest = _
  rw [hv, b64Char_shift, b64Char_shift, b64Char_shift,
    b64Char_mod (x.toNat * 65536 + y.toNat * 256 + z.toNat)]
  simp only [List.cons.injEq, and_true]
  refine ⟨congrArg b64Char ?_, congrArg b64Char ?_, congrArg b64Char ?_, congrArg b64Char ?_⟩ <;>
    omega

/-- Two bytes become the upper three digits of their value. -/
theorem b64Groups_two (x y : UInt8) :
    b64Groups [x, y] =
      [b64Char (x.toNat / 4), b64Char (x.toNat % 4 * 16 + y.toNat / 16),
        b64Char (y.toNat % 16 * 4), 61] := by
  have hx := x.toNat_lt
  have hy := y.toNat_lt
  have hv := joinBytes_eq x.toNat hy (show 0 < 256 by omega)
  rw [joinBytes, Nat.or_zero] at hv
  show [b64Char _, b64Char _, b64Char _, 61] = _
  rw [hv, b64Char_shift, b64Char_shift, b64Char_shift]
  simp only [List.cons.injEq, and_true]
  refine ⟨congrArg b64Char ?_, congrArg b64Char ?_, congrArg b64Char ?_⟩ <;> omega

/-- One byte becomes the upper two digits of its value. -/
theorem b64Groups_one (x : UInt8) :
    b64Groups [x] = [b64Char (x.toNat / 4), b64Char (x.toNat % 4 * 16), 61, 61] := by
  have hx := x.toNat_lt
  show [b64Char _, b64Char _, 61, 61] = _
  rw [Nat.shiftLeft_eq, b64Char_shift, b64Char_shift]
  simp only [List.cons.injEq, and_true]
  refine ⟨congrArg b64Char ?_, congrArg b64Char ?_⟩ <;> omega

theorem b64Out_eq {expected : Nat} {out out' : Bytes} {value : Nat} :
    b64Out expected out value = some out' ↔
      out.length + 1 ≤ expected ∧ out' = out ++ [UInt8.ofNat value] := by
  unfold b64Out
  by_cases h : expected ≤ out.length
  · rw [if_pos h]
    simp only [reduceCtorEq, false_iff, not_and]
    omega
  · rw [if_neg h]
    simp only [Option.some.injEq]
    constructor
    · rintro rfl
      exact ⟨by omega, rfl⟩
    · rintro ⟨-, rfl⟩
      rfl

theorem octet_congr {m n : Nat} (h : m % 256 = n % 256) : UInt8.ofNat m = UInt8.ofNat n :=
  UInt8.toNat_inj.mp (by simpa using h)

/-- Four digits become three bytes. -/
theorem b64Quantum_three {expected : Nat} {out out' : Bytes} {a b c d : Nat} (hb : b < 64)
    (hc : c < 64) (hd : d < 64) :
    b64Quantum expected out a b c d = some out' ↔ out.length + 3 ≤ expected ∧
      out' = out ++ [UInt8.ofNat (a * 4 + b / 16), UInt8.ofNat (b % 16 * 16 + c / 4),
        UInt8.ofNat (c % 4 * 64 + d)] := by
  have hv := joinSextets_eq a hb hc hd
  rw [joinSextets] at hv
  have h16 : UInt8.ofNat ((a * 262144 + b * 4096 + c * 64 + d) >>> 16) =
      UInt8.ofNat (a * 4 + b / 16) := by
    rw [Nat.shiftRight_eq_div_pow]
    exact octet_congr (by omega)
  have h8 : UInt8.ofNat ((a * 262144 + b * 4096 + c * 64 + d) >>> 8) =
      UInt8.ofNat (b % 16 * 16 + c / 4) := by
    rw [Nat.shiftRight_eq_div_pow]
    exact octet_congr (by omega)
  have h0 : UInt8.ofNat (a * 262144 + b * 4096 + c * 64 + d) = UInt8.ofNat (c % 4 * 64 + d) :=
    octet_congr (by omega)
  have hc0 : (0 : Int) ≤ c := Int.natCast_nonneg c
  have hd0 : (0 : Int) ≤ d := Int.natCast_nonneg d
  unfold b64Quantum
  simp only [if_pos hc0, if_pos hd0, Int.toNat_natCast, hv, Option.bind_eq_bind,
    Option.bind_eq_some_iff, b64Out_eq, h16, h8, h0]
  constructor
  · rintro ⟨_, ⟨hlen, rfl⟩, _, ⟨hlen', rfl⟩, hlen'', rfl⟩
    simp only [List.length_append, List.length_singleton] at hlen''
    exact ⟨by omega, by simp⟩
  · rintro ⟨hlen, rfl⟩
    refine ⟨_, ⟨by omega, rfl⟩, _, ⟨?_, rfl⟩, ?_, by simp⟩ <;> simp <;> omega

/-- Three digits and a padding character become two bytes. -/
theorem b64Quantum_two {expected : Nat} {out out' : Bytes} {a b c : Nat} (hb : b < 64)
    (hc : c < 64) :
    b64Quantum expected out a b c (-2) = some out' ↔ out.length + 2 ≤ expected ∧
      out' = out ++ [UInt8.ofNat (a * 4 + b / 16), UInt8.ofNat (b % 16 * 16 + c / 4)] := by
  have hv := joinSextets_eq a hb hc (show 0 < 64 by omega)
  rw [joinSextets, Nat.or_zero, Nat.add_zero] at hv
  have h16 : UInt8.ofNat ((a * 262144 + b * 4096 + c * 64) >>> 16) =
      UInt8.ofNat (a * 4 + b / 16) := by
    rw [Nat.shiftRight_eq_div_pow]
    exact octet_congr (by omega)
  have h8 : UInt8.ofNat ((a * 262144 + b * 4096 + c * 64) >>> 8) =
      UInt8.ofNat (b % 16 * 16 + c / 4) := by
    rw [Nat.shiftRight_eq_div_pow]
    exact octet_congr (by omega)
  have hc0 : (0 : Int) ≤ c := Int.natCast_nonneg c
  have hd0 : ¬ (0 : Int) ≤ -2 := by decide
  unfold b64Quantum
  simp only [if_pos hc0, if_neg hd0, Int.toNat_natCast, hv, Option.bind_eq_bind,
    Option.bind_eq_some_iff, b64Out_eq, h16, h8, Option.some.injEq]
  constructor
  · rintro ⟨_, ⟨hlen, rfl⟩, _, ⟨hlen', rfl⟩, rfl⟩
    simp only [List.length_append, List.length_singleton] at hlen'
    exact ⟨by omega, by simp⟩
  · rintro ⟨hlen, rfl⟩
    refine ⟨_, ⟨by omega, rfl⟩, _, ⟨?_, rfl⟩, by simp⟩
    simp
    omega

/-- Two digits and two padding characters become one byte. -/
theorem b64Quantum_one {expected : Nat} {out out' : Bytes} {a b : Nat} (hb : b < 64) :
    b64Quantum expected out a b (-2) (-2) = some out' ↔ out.length + 1 ≤ expected ∧
      out' = out ++ [UInt8.ofNat (a * 4 + b / 16)] := by
  have hv := joinSextets_eq a hb (show 0 < 64 by omega) (show 0 < 64 by omega)
  rw [joinSextets, Nat.zero_shiftLeft, Nat.or_zero, Nat.or_zero] at hv
  simp only [Nat.zero_mul, Nat.add_zero] at hv
  have h16 : UInt8.ofNat ((a * 262144 + b * 4096) >>> 16) = UInt8.ofNat (a * 4 + b / 16) := by
    rw [Nat.shiftRight_eq_div_pow]
    exact octet_congr (by omega)
  have hd0 : ¬ (0 : Int) ≤ -2 := by decide
  unfold b64Quantum
  simp only [if_neg hd0, Int.toNat_natCast, hv, Option.bind_eq_bind, Option.bind_eq_some_iff,
    b64Out_eq, h16, Option.some.injEq, exists_eq_left']
  constructor
  · rintro ⟨_, ⟨hlen, rfl⟩, rfl⟩
    exact ⟨hlen, rfl⟩
  · rintro ⟨hlen, rfl⟩
    exact ⟨_, ⟨hlen, rfl⟩, rfl⟩

theorem b64Rejects_three {last : Bool} (a b c d : Nat) : b64Rejects last a b c d = false := by
  have ha : ¬ (a : Int) < 0 := by omega
  have hb : ¬ (b : Int) < 0 := by omega
  have hne : ∀ n : Nat, ((n : Int) == -1) = false ∧ ((n : Int) == -2) = false := by
    intro n
    constructor <;> rw [beq_eq_false_iff_ne] <;> omega
  simp [b64Rejects, ha, hb, hne c, hne d]

theorem b64Rejects_two {a b c : Nat} (h : c % 4 = 0) : b64Rejects true a b c (-2) = false := by
  have ha : ¬ (a : Int) < 0 := by omega
  have hb : ¬ (b : Int) < 0 := by omega
  have hne : ((c : Int) == -1) = false ∧ ((c : Int) == -2) = false := by
    constructor <;> rw [beq_eq_false_iff_ne] <;> omega
  have hmask : c &&& 3 = 0 := (Nat.and_two_pow_sub_one_eq_mod c 2).trans h
  simp [b64Rejects, ha, hb, hne, hmask]

theorem b64Rejects_one {a b : Nat} (h : b % 16 = 0) : b64Rejects true a b (-2) (-2) = false := by
  have ha : ¬ (a : Int) < 0 := by omega
  have hb : ¬ (b : Int) < 0 := by omega
  have hmask : b &&& 15 = 0 := (Nat.and_two_pow_sub_one_eq_mod b 4).trans h
  simp [b64Rejects, ha, hb, hmask]

/-- A character is a padding character, one of the alphabet or has no value. -/
theorem b64Padded_cases (c : UInt8) : (c = 61 ∧ b64Padded c = -2) ∨ b64Padded c = -1 ∨
    ∃ v < 64, c = b64Char v ∧ b64Padded c = (v : Int) := by
  by_cases hpad : c = 61
  · exact .inl ⟨hpad, if_pos hpad⟩
  · rw [b64Padded, if_neg hpad]
    obtain hnone | ⟨hlow, hhigh, hchar⟩ := b64Char_value c
    · exact .inr (.inl hnone)
    · exact .inr (.inr ⟨(b64Value c).toNat, by omega, hchar.symm, by omega⟩)

/-- The three shapes of a quantum that passes the tests. -/
theorem of_b64Rejects {last : Bool} {c0 c1 c2 c3 : UInt8}
    (h : b64Rejects last (b64Value c0) (b64Value c1) (b64Padded c2) (b64Padded c3) = false) :
    ∃ a < 64, ∃ b < 64, c0 = b64Char a ∧ c1 = b64Char b ∧
      ((∃ c < 64, ∃ d < 64, c2 = b64Char c ∧ c3 = b64Char d) ∨
        (last = true ∧ ∃ c < 64, c % 4 = 0 ∧ c2 = b64Char c ∧ c3 = 61) ∨
        (last = true ∧ b % 16 = 0 ∧ c2 = 61 ∧ c3 = 61)) := by
  simp only [b64Rejects, Bool.or_eq_false_iff, decide_eq_false_iff_not, Bool.and_eq_false_imp,
    beq_iff_eq, beq_eq_false_iff_ne, bne_eq_false_iff_eq, Bool.or_eq_true, Bool.and_eq_true,
    decide_eq_true_eq, Bool.not_eq_eq_eq_not] at h
  obtain ⟨⟨⟨⟨⟨⟨⟨ha, hb⟩, hc⟩, hd⟩, horder⟩, hlast⟩, hlow⟩, hlow'⟩ := h
  obtain hnone | ⟨-, ha', hchar⟩ := b64Char_value c0
  · omega
  obtain hnone | ⟨-, hb', hchar'⟩ := b64Char_value c1
  · omega
  refine ⟨_, by omega, (b64Value c1).toNat, by omega, hchar.symm, hchar'.symm, ?_⟩
  obtain ⟨hpad, hval⟩ | hval | ⟨c, hclt, hcc, hval⟩ := b64Padded_cases c2
  · -- two padding characters
    obtain ⟨hpad', -⟩ | hval' | ⟨d, -, -, hval'⟩ := b64Padded_cases c3
    · have hmod := Nat.and_two_pow_sub_one_eq_mod (b64Value c1).toNat 4
      exact .inr (.inr ⟨hlast (.inl hval), by rw [← hmod]; exact hlow hval, hpad, hpad'⟩)
    · exact absurd hval' hd
    · have := horder hval
      omega
  · exact absurd hval hc
  · obtain ⟨hpad', hval'⟩ | hval' | ⟨d, hdlt, hdc, -⟩ := b64Padded_cases c3
    · -- one padding character
      have hmod := Nat.and_two_pow_sub_one_eq_mod c 2
      refine .inr (.inl ⟨hlast (.inr hval'), c, hclt, ?_, hcc, hpad'⟩)
      have hzero := hlow' ⟨hval', by omega⟩
      rw [hval, Int.toNat_natCast] at hzero
      rw [← hmod]
      exact hzero
    · exact absurd hval' hd
    · exact .inl ⟨c, hclt, d, hdlt, hcc, hdc⟩

theorem b64Quanta_three {expected : Nat} {out r rest : Bytes} {a b c d : Nat} (ha : a < 64)
    (hb : b < 64) (hc : c < 64) (hd : d < 64) :
    b64Quanta expected out (b64Char a :: b64Char b :: b64Char c :: b64Char d :: rest) = some r ↔
      out.length + 3 ≤ expected ∧
        b64Quanta expected (out ++ [UInt8.ofNat (a * 4 + b / 16),
          UInt8.ofNat (b % 16 * 16 + c / 4), UInt8.ofNat (c % 4 * 64 + d)]) rest = some r := by
  rw [b64Quanta, b64Value_char ha, b64Value_char hb, b64Padded_char hc, b64Padded_char hd,
    b64Rejects_three, if_neg Bool.false_ne_true, Option.bind_eq_some_iff]
  simp only [b64Quantum_three hb hc hd, and_assoc, exists_and_left, exists_eq_left]

theorem b64Quanta_two {expected : Nat} {out r : Bytes} {a b c : Nat} (ha : a < 64) (hb : b < 64)
    (hc : c < 64) (hlow : c % 4 = 0) :
    b64Quanta expected out [b64Char a, b64Char b, b64Char c, 61] = some r ↔
      out.length + 2 = expected ∧
        r = out ++ [UInt8.ofNat (a * 4 + b / 16), UInt8.ofNat (b % 16 * 16 + c / 4)] := by
  rw [b64Quanta, b64Value_char ha, b64Value_char hb, b64Padded_char hc,
    show b64Padded 61 = -2 from rfl, List.isEmpty_nil, b64Rejects_two hlow,
    if_neg Bool.false_ne_true, Option.bind_eq_some_iff]
  simp only [b64Quantum_two hb hc, and_assoc, exists_and_left, exists_eq_left, b64Quanta,
    List.length_append, List.length_cons, List.length_nil]
  split
  · simp only [Option.some.injEq]
    constructor
    · rintro ⟨-, rfl⟩
      exact ⟨by omega, rfl⟩
    · rintro ⟨-, rfl⟩
      exact ⟨by omega, rfl⟩
  · simp only [reduceCtorEq, and_false, false_iff, not_and]
    omega

theorem b64Quanta_one {expected : Nat} {out r : Bytes} {a b : Nat} (ha : a < 64) (hb : b < 64)
    (hlow : b % 16 = 0) :
    b64Quanta expected out [b64Char a, b64Char b, 61, 61] = some r ↔
      out.length + 1 = expected ∧ r = out ++ [UInt8.ofNat (a * 4 + b / 16)] := by
  rw [b64Quanta, b64Value_char ha, b64Value_char hb, show b64Padded 61 = -2 from rfl,
    List.isEmpty_nil, b64Rejects_one hlow, if_neg Bool.false_ne_true, Option.bind_eq_some_iff]
  simp only [b64Quantum_one hb, and_assoc, exists_and_left, exists_eq_left, b64Quanta,
    List.length_append, List.length_cons, List.length_nil]
  split
  · simp only [Option.some.injEq]
    constructor
    · rintro ⟨-, rfl⟩
      exact ⟨by omega, rfl⟩
    · rintro ⟨-, rfl⟩
      exact ⟨by omega, rfl⟩
  · simp only [reduceCtorEq, and_false, false_iff, not_and]
    omega

/-- What `b64_encode` writes is decoded to the bytes it was written for. -/
theorem b64Quanta_groups {expected : Nat} {key : Bytes} {out : Bytes}
    (h : out.length + key.length = expected) :
    b64Quanta expected out (b64Groups key) = some (out ++ key) := by
  have hbyte : ∀ (v : UInt8) (n : Nat), n = v.toNat → UInt8.ofNat n = v := by
    rintro v _ rfl
    exact UInt8.ofNat_toNat
  induction key using b64Groups.induct generalizing out with
  | case1 =>
      rw [b64Groups, b64Quanta, if_pos (by simpa using h), List.append_nil]
      simp
  | case2 x =>
      have hx := x.toNat_lt
      rw [b64Groups_one, b64Quanta_one (by omega) (by omega) (by omega)]
      refine ⟨h, congrArg (out ++ ·) ?_⟩
      simp only [List.cons.injEq, and_true]
      exact (hbyte x _ (by omega)).symm
  | case3 x y =>
      have hx := x.toNat_lt
      have hy := y.toNat_lt
      rw [b64Groups_two, b64Quanta_two (by omega) (by omega) (by omega) (by omega)]
      refine ⟨h, congrArg (out ++ ·) ?_⟩
      simp only [List.cons.injEq, and_true]
      exact ⟨(hbyte x _ (by omega)).symm, (hbyte y _ (by omega)).symm⟩
  | case4 x y z rest ih =>
      have hx := x.toNat_lt
      have hy := y.toNat_lt
      have hz := z.toNat_lt
      simp only [List.length_cons] at h
      rw [b64Groups_three, b64Quanta_three (by omega) (by omega) (by omega) (by omega)]
      refine ⟨by omega, ?_⟩
      rw [hbyte x _ (by omega), hbyte y _ (by omega), hbyte z _ (by omega),
        ih (by simp only [List.length_append, List.length_cons, List.length_nil]; omega)]
      simp

/-- A text that is decoded is what `b64_encode` writes for the bytes it is decoded to. -/
theorem of_b64Quanta {expected : Nat} {out text r : Bytes} (hquad : text.length % 4 = 0)
    (h : b64Quanta expected out text = some r) :
    ∃ key, text = b64Groups key ∧ r = out ++ key ∧ r.length = expected := by
  have hnat : ∀ n < 256, (UInt8.ofNat n).toNat = n := by
    intro n hn
    simp only [UInt8.toNat_ofNat']
    omega
  fun_induction b64Quanta expected out text with
  | case1 out c0 c1 c2 c3 rest hrejects => exact absurd h (by simp)
  | case2 out c0 c1 c2 c3 rest hrejects ih =>
      have hstep : b64Quanta expected out (c0 :: c1 :: c2 :: c3 :: rest) = some r := by
        rw [b64Quanta, if_neg hrejects]
        exact h
      obtain ⟨a, ha, b, hb, rfl, rfl, hshape⟩ := of_b64Rejects (Bool.eq_false_iff.mpr hrejects)
      obtain ⟨c, hc, d, hd, rfl, rfl⟩ | ⟨hlast, c, hc, hlow, rfl, rfl⟩ | ⟨hlast, hlow, rfl, rfl⟩ :=
        hshape
      · -- a full quantum: the rest is decoded after its three bytes
        obtain ⟨hroom, hrest⟩ := (b64Quanta_three ha hb hc hd).mp hstep
        obtain ⟨key, rfl, rfl, hlen⟩ := ih _ (by simp only [List.length_cons] at hquad; omega) hrest
        refine ⟨_ :: _ :: _ :: key, ?_, List.append_assoc _ _ _, hlen⟩
        rw [b64Groups_three, hnat _ (by omega), hnat _ (by omega), hnat _ (by omega)]
        simp only [List.cons.injEq, and_true]
        refine ⟨congrArg b64Char ?_, congrArg b64Char ?_, congrArg b64Char ?_,
          congrArg b64Char ?_⟩ <;> omega
      · rw [List.isEmpty_iff] at hlast
        subst hlast
        obtain ⟨hlen, rfl⟩ := (b64Quanta_two ha hb hc hlow).mp hstep
        refine ⟨[_, _], ?_, rfl, by simpa using hlen⟩
        rw [b64Groups_two, hnat _ (by omega), hnat _ (by omega)]
        simp only [List.cons.injEq, and_true]
        refine ⟨congrArg b64Char ?_, congrArg b64Char ?_, congrArg b64Char ?_⟩ <;> omega
      · rw [List.isEmpty_iff] at hlast
        subst hlast
        obtain ⟨hlen, rfl⟩ := (b64Quanta_one ha hb hlow).mp hstep
        refine ⟨[_], ?_, rfl, by simpa using hlen⟩
        rw [b64Groups_one, hnat _ (by omega)]
        simp only [List.cons.injEq, and_true]
        refine ⟨congrArg b64Char ?_, congrArg b64Char ?_⟩ <;> omega
  | case3 text out hlen hshort =>
      injection h with h
      subst h
      refine ⟨[], ?_, by simp, hlen⟩
      -- fewer than four characters are left, and their number is a multiple of four
      match text, hshort, hquad with
      | [], _, _ => rfl
      | [_], _, hquad => exact absurd hquad (by simp)
      | [_, _], _, hquad => exact absurd hquad (by simp)
      | [_, _, _], _, hquad => exact absurd hquad (by simp)
      | a :: b :: c :: d :: rest, hshort, _ => exact absurd rfl (hshort a b c d rest)
  | case4 text out hlen hshort => exact absurd h (by simp)

/-- The text of `n` bytes. -/
theorem b64Groups_length (key : Bytes) : (b64Groups key).length = (key.length + 2) / 3 * 4 := by
  fun_induction b64Groups key with
  | case1 => rfl
  | case2 x value => simp
  | case3 x y value => simp
  | case4 x y z rest value ih =>
      simp only [List.length_append, List.length_cons, List.length_nil, ih]
      omega

/-- `b64_decode` accepts the standard text of each key of the expected length, and nothing
else. -/
theorem b64Decode_iff {expected : Nat} (hpos : 0 < expected) (text key : Bytes) :
    b64Decode expected text = some key ↔ text = b64Groups key ∧ key.length = expected := by
  have hmask : text.length &&& 3 = text.length % 4 := Nat.and_two_pow_sub_one_eq_mod _ 2
  unfold b64Decode
  rw [hmask]
  constructor
  · intro h
    split at h
    · exact absurd h (by simp)
    · rename_i hquad
      obtain ⟨key', rfl, hkey, hlen⟩ := of_b64Quanta (by omega) h
      rw [List.nil_append] at hkey
      subst hkey
      exact ⟨rfl, hlen⟩
  · rintro ⟨rfl, hlen⟩
    have hlength := b64Groups_length key
    rw [if_neg (by omega), b64Quanta_groups (by simpa using hlen), List.nil_append]

example : b64Decode 5 (ascii "Zm9vYmE=") = some (ascii "fooba") := by decide +kernel

/-! ## Files -/

/-- The two kinds of key file. -/
inductive KeyFormat where
  /-- `ct_load_public_key`. -/
  | publicKey
  /-- `ct_load_private_key`. -/
  | privateKey
  deriving DecidableEq

namespace KeyFormat

/-- `PUB_PREFIX` and `SEC_PREFIX`. -/
def keyPrefix : KeyFormat → Bytes
  | .publicKey => ascii "CTUNNEL-EDDSA-BLAKE2B-PUBLIC-v1:"
  | .privateKey => ascii "CTUNNEL-EDDSA-BLAKE2B-PRIVATE-v1:"

/-- The length of the key. -/
def keyLength : KeyFormat → Nat
  | .publicKey => 32
  | .privateKey => 64

/-- `private_file`. -/
def privateFile : KeyFormat → Bool
  | .publicKey => false
  | .privateKey => true

end KeyFormat

/-- What `load_key` finds at a path. -/
structure KeyFile where
  /-- `open` and `fstat` succeed. -/
  opened : Bool
  /-- `S_ISREG(status.st_mode)`. -/
  regular : Bool
  /-- The permission bits of `st_mode`. -/
  mode : UInt32
  /-- `fdopen` succeeds. -/
  stream : Bool
  /-- `ferror(file)`. -/
  readError : Bool
  content : Bytes
  deriving DecidableEq

namespace KeyFile

/-- The file-type and permission checks. -/
def passes (file : KeyFile) (privateFile : Bool) : Bool :=
  file.regular && (!privateFile || file.mode &&& 0o77 == 0)

/-- The system calls on the file succeed. -/
def readable (file : KeyFile) : Bool := file.opened && file.stream && !file.readError

end KeyFile

/-- One line end at the end of what was read goes. -/
def dropLineEnd (encoded : Bytes) : Bytes :=
  if encoded.getLast? = some 10 then
    if encoded.dropLast.getLast? = some 13 then encoded.dropLast.dropLast else encoded.dropLast
  else encoded

/-- `load_key`, with `char encoded[512]`. -/
def loadKey (file : KeyFile) (keyPrefix : Bytes) (expected : Nat) (privateFile : Bool) :
    Option Bytes :=
  if file.opened && file.passes privateFile && file.stream then
    let encoded := file.content.take 511
    -- a read of the 511 bytes asked for has not met the end of the file yet
    if file.readError ∨ encoded.length = 511 then none
    else
      let encoded := dropLineEnd encoded
      if keyPrefix.length < encoded.length ∧ encoded.take keyPrefix.length = keyPrefix then
        b64Decode expected (encoded.drop keyPrefix.length)
      else none
  else none

/-- What the system calls of `write_key` answer. -/
structure KeyFileIo where
  /-- `open` with `O_EXCL` and `fdopen` succeed. -/
  created : Bool
  /-- `fwrite` takes everything and `fclose` succeeds. -/
  written : Bool
  /-- The process's file mode creation mask. -/
  umask : UInt32
  deriving DecidableEq

/-- `write_key`, with `char encoded[256]`: mode and content of the file it leaves. -/
def writeKey (io : KeyFileIo) (keyPrefix key : Bytes) (privateFile : Bool) :
    Option (UInt32 × Bytes) :=
  if 256 ≤ keyPrefix.length then none
  else do
    let text ← b64Encode (256 - keyPrefix.length) key
    if io.created && io.written then
      some ((if privateFile then 0o600 else 0o644) &&& ~~~io.umask, keyPrefix ++ text ++ [10])
    else none

namespace KeyFormat

/-- `ct_load_public_key` and `ct_load_private_key`. -/
def load (t : KeyFormat) (file : KeyFile) : Option Bytes :=
  loadKey file t.keyPrefix t.keyLength t.privateFile

/-- The two calls of `write_key` in `ct_keygen_files`. -/
def store (t : KeyFormat) (io : KeyFileIo) (key : Bytes) : Option (UInt32 × Bytes) :=
  writeKey io t.keyPrefix key t.privateFile

end KeyFormat

end Ctunnel
