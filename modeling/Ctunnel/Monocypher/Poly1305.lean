import Ctunnel.Lib.Blocks
import Ctunnel.Monocypher.Words
import Mathlib.Data.Nat.ModEq

/-!
# Poly1305 (`third_party/monocypher/src/monocypher.c`)

The accumulator of the authenticator is kept in five 32-bit limbs, multiplied by
the clamped key in 64-bit sums without carries and reduced in part.
`polyBlock_value` is the contract the comment over `poly_blocks` states: inside
its bounds no sum overflows, and the limbs stand for `(h + c) * r` modulo
`2^130 - 5`.
-/

namespace Ctunnel

open Lib

/-- `crypto_poly1305_ctx`. -/
structure CryptoPoly1305Ctx where
  c : Bytes
  cIdx : Nat
  r : Vector UInt32 4
  pad : Vector UInt32 4
  h : Vector UInt32 5

/-- The partial reduction modulo `2^130 - 5` in the loop of `poly_blocks`. -/
def polyReduce (x0 x1 x2 x3 : UInt64) (x4 : UInt32) : Vector UInt32 5 :=
  let u5 := (x3 >>> 32).toUInt32 + x4
  let u0 := ((u5 >>> 2) * 5).toUInt64 + (x0 &&& (0xffffffff : UInt64))
  let u1 := (u0 >>> 32).toUInt32.toUInt64 + (x1 &&& (0xffffffff : UInt64)) + (x0 >>> 32)
  let u2 := (u1 >>> 32).toUInt32.toUInt64 + (x2 &&& (0xffffffff : UInt64)) + (x1 >>> 32)
  let u3 := (u2 >>> 32).toUInt32.toUInt64 + (x3 &&& (0xffffffff : UInt64)) + (x2 >>> 32)
  let u4 := (u3 >>> 32).toUInt32 + (u5 &&& 3)
  #v[(u0 &&& (0xffffffff : UInt64)).toUInt32, (u1 &&& (0xffffffff : UInt64)).toUInt32, (u2 &&& (0xffffffff : UInt64)).toUInt32,
    (u3 &&& (0xffffffff : UInt64)).toUInt32, u4]

/-- One round of the loop of `poly_blocks`. -/
def polyBlock (r : Vector UInt32 4) (h : Vector UInt32 5) (block : Bytes) (fin : UInt32) :
    Vector UInt32 5 :=
  let rr0 := (r[0] >>> 2) * 5
  let rr1 := (r[1] >>> 2) + r[1]
  let rr2 := (r[2] >>> 2) + r[2]
  let rr3 := (r[3] >>> 2) + r[3]
  let rr4 := r[0] &&& 3
  -- h + c, without carry propagation
  let s0 := h[0].toUInt64 + (load32Le block).toUInt64
  let s1 := h[1].toUInt64 + (load32Le (block.drop 4)).toUInt64
  let s2 := h[2].toUInt64 + (load32Le (block.drop 8)).toUInt64
  let s3 := h[3].toUInt64 + (load32Le (block.drop 12)).toUInt64
  let s4 := h[4] + fin
  -- (h + c) * r, without carry propagation; the products of s4 are 32-bit ones
  let x0 := s0 * r[0].toUInt64 + s1 * rr3.toUInt64 + s2 * rr2.toUInt64 + s3 * rr1.toUInt64 +
    (s4 * rr0).toUInt64
  let x1 := s0 * r[1].toUInt64 + s1 * r[0].toUInt64 + s2 * rr3.toUInt64 + s3 * rr2.toUInt64 +
    (s4 * rr1).toUInt64
  let x2 := s0 * r[2].toUInt64 + s1 * r[1].toUInt64 + s2 * r[0].toUInt64 + s3 * rr3.toUInt64 +
    (s4 * rr2).toUInt64
  let x3 := s0 * r[3].toUInt64 + s1 * r[2].toUInt64 + s2 * r[1].toUInt64 + s3 * r[0].toUInt64 +
    (s4 * rr3).toUInt64
  let x4 := s4 * rr4
  polyReduce x0 x1 x2 x3 x4

/-- `poly_blocks`. -/
def polyBlocks (ctx : CryptoPoly1305Ctx) (input : Bytes) (nbBlocks : Nat) (fin : UInt32) :
    CryptoPoly1305Ctx :=
  { ctx with h := foldBlocks 16 (fun h block => polyBlock ctx.r h block fin) nbBlocks ctx.h input }

/-- `crypto_poly1305_init`. -/
def cryptoPoly1305Init (key : Octets 32) : CryptoPoly1305Ctx where
  c := List.replicate 16 0
  cIdx := 0
  r := #v[load32Le key.toList &&& 0x0fffffff, load32Le (key.toList.drop 4) &&& 0x0ffffffc,
    load32Le (key.toList.drop 8) &&& 0x0ffffffc, load32Le (key.toList.drop 12) &&& 0x0ffffffc]
  pad := #v[load32Le (key.toList.drop 16), load32Le (key.toList.drop 20),
    load32Le (key.toList.drop 24), load32Le (key.toList.drop 28)]
  h := #v[0, 0, 0, 0, 0]

/-- `ctx->c[ctx->c_idx] = b; ctx->c_idx++`. -/
def CryptoPoly1305Ctx.put (ctx : CryptoPoly1305Ctx) (b : UInt8) : CryptoPoly1305Ctx :=
  { ctx with c := ctx.c.set ctx.cIdx b, cIdx := ctx.cIdx + 1 }

/-- `crypto_poly1305_update`. -/
def cryptoPoly1305Update (ctx : CryptoPoly1305Ctx) (message : Bytes) : CryptoPoly1305Ctx :=
  if message.length = 0 then ctx
  else
    -- align with block boundaries
    let aligned := min (gap ctx.cIdx 16) message.length
    let ctx := (message.take aligned).foldl CryptoPoly1305Ctx.put ctx
    let message := message.drop aligned
    -- if the block is complete, process it
    let ctx := if ctx.cIdx = 16 then { polyBlocks ctx ctx.c 1 1 with cIdx := 0 } else ctx
    let nbBlocks := message.length >>> 4
    let ctx := polyBlocks ctx message nbBlocks 1
    (message.drop (nbBlocks <<< 4)).foldl CryptoPoly1305Ctx.put ctx

/-- The carry loop over the limbs that tells whether `2^130 - 5` has to be
subtracted. -/
def polyCarry (h : Vector UInt32 5) : UInt64 :=
  let c := ((5 : UInt64) + h[0].toUInt64) >>> 32
  let c := (c + h[1].toUInt64) >>> 32
  let c := (c + h[2].toUInt64) >>> 32
  let c := (c + h[3].toUInt64) >>> 32
  let c := c + h[4].toUInt64
  (c >>> 2) * 5

/-- The last loop of `crypto_poly1305_final`. -/
def polyTag (h : Vector UInt32 5) (pad : Vector UInt32 4) (c : UInt64) : Bytes :=
  let c0 := c + (h[0].toUInt64 + pad[0].toUInt64)
  let c1 := (c0 >>> 32) + (h[1].toUInt64 + pad[1].toUInt64)
  let c2 := (c1 >>> 32) + (h[2].toUInt64 + pad[2].toUInt64)
  let c3 := (c2 >>> 32) + (h[3].toUInt64 + pad[3].toUInt64)
  store32Le c0.toUInt32 ++ store32Le c1.toUInt32 ++ store32Le c2.toUInt32 ++ store32Le c3.toUInt32

/-- `crypto_poly1305_final`. -/
def cryptoPoly1305Final (ctx : CryptoPoly1305Ctx) : Octets 16 :=
  let ctx :=
    if ctx.cIdx ≠ 0 then
      -- the final 1 stands behind the bytes that are left
      let c := ctx.c.take ctx.cIdx ++ List.replicate (16 - ctx.cIdx) 0
      polyBlocks ctx (c.set ctx.cIdx 1) 1 0
    else ctx
  ⟨polyTag ctx.h ctx.pad (polyCarry ctx.h), by simp [polyTag]⟩

/-! ## Limbs -/

/-- The number the limbs of the accumulator stand for. -/
def limbs (h : Vector UInt32 5) : Nat :=
  h[0].toNat + 2 ^ 32 * h[1].toNat + 2 ^ 64 * h[2].toNat + 2 ^ 96 * h[3].toNat +
    2 ^ 128 * h[4].toNat

/-- The number four words stand for. -/
def words (r : Vector UInt32 4) : Nat :=
  r[0].toNat + 2 ^ 32 * r[1].toNat + 2 ^ 64 * r[2].toNat + 2 ^ 96 * r[3].toNat

/-- `2^130 - 5`. -/
def polyPrime : Nat := 2 ^ 130 - 5

/-- The key is clamped. -/
structure Clamped (r : Vector UInt32 4) : Prop where
  low : r[0].toNat < 2 ^ 28
  high1 : r[1].toNat < 2 ^ 28
  high2 : r[2].toNat < 2 ^ 28
  high3 : r[3].toNat < 2 ^ 28
  quarter1 : 4 ∣ r[1].toNat
  quarter2 : 4 ∣ r[2].toNat
  quarter3 : 4 ∣ r[3].toNat

theorem mul_lt_row {a b : Nat} (ha : a < 2 ^ 33) (hb : b < 5 * 2 ^ 26) : a * b < 5 * 2 ^ 59 := by
  have h := Nat.mul_le_mul (Nat.le_of_lt_succ ha) (Nat.le_of_lt_succ hb)
  calc a * b ≤ (2 ^ 33 - 1) * (5 * 2 ^ 26 - 1) := h
    _ < 5 * 2 ^ 59 := by decide

/-- A row of the product does not overflow, nor does its 32-bit product of the top
limb. -/
theorem row_toNat {s0 s1 s2 s3 : UInt64} {s4 b0 b1 b2 b3 rr : UInt32}
    (h0 : s0.toNat < 2 ^ 33) (h1 : s1.toNat < 2 ^ 33) (h2 : s2.toNat < 2 ^ 33)
    (h3 : s3.toNat < 2 ^ 33) (h4 : s4.toNat ≤ 5) (hb0 : b0.toNat < 5 * 2 ^ 26)
    (hb1 : b1.toNat < 5 * 2 ^ 26) (hb2 : b2.toNat < 5 * 2 ^ 26) (hb3 : b3.toNat < 5 * 2 ^ 26)
    (hrr : rr.toNat < 5 * 2 ^ 26) :
    (s0 * b0.toUInt64 + s1 * b1.toUInt64 + s2 * b2.toUInt64 + s3 * b3.toUInt64 +
          (s4 * rr).toUInt64).toNat =
        s0.toNat * b0.toNat + s1.toNat * b1.toNat + s2.toNat * b2.toNat + s3.toNat * b3.toNat +
          s4.toNat * rr.toNat ∧
      (s0 * b0.toUInt64 + s1 * b1.toUInt64 + s2 * b2.toUInt64 + s3 * b3.toUInt64 +
          (s4 * rr).toUInt64).toNat < 25 * 2 ^ 59 := by
  have p0 := mul_lt_row h0 hb0
  have p1 := mul_lt_row h1 hb1
  have p2 := mul_lt_row h2 hb2
  have p3 := mul_lt_row h3 hb3
  have p4 : s4.toNat * rr.toNat < 2 ^ 32 :=
    calc s4.toNat * rr.toNat ≤ 5 * (5 * 2 ^ 26) := Nat.mul_le_mul h4 (Nat.le_of_lt hrr)
      _ < 2 ^ 32 := by decide
  simp only [UInt64.toNat_add, UInt64.toNat_mul, UInt32.toNat_toUInt64, UInt32.toNat_mul]
  generalize s0.toNat * b0.toNat = m0 at *
  generalize s1.toNat * b1.toNat = m1 at *
  generalize s2.toNat * b2.toNat = m2 at *
  generalize s3.toNat * b3.toNat = m3 at *
  generalize s4.toNat * rr.toNat = m4 at *
  omega

/-- The reduction replaces multiples of `2^130` by multiples of 5. -/
theorem polyReduce_value {x0 x1 x2 x3 : UInt64} {x4 : UInt32} (h0 : x0.toNat < 25 * 2 ^ 59)
    (h1 : x1.toNat < 25 * 2 ^ 59) (h2 : x2.toNat < 25 * 2 ^ 59) (h3 : x3.toNat < 25 * 2 ^ 59)
    (h4 : x4.toNat ≤ 15) :
    (∃ q, x0.toNat + 2 ^ 32 * x1.toNat + 2 ^ 64 * x2.toNat + 2 ^ 96 * x3.toNat +
        2 ^ 128 * x4.toNat = limbs (polyReduce x0 x1 x2 x3 x4) + q * polyPrime) ∧
      (polyReduce x0 x1 x2 x3 x4)[4].toNat ≤ 4 := by
  have hmask : ∀ x : UInt64, (x &&& (0xffffffff : UInt64)).toNat = x.toNat % 2 ^ 32 := by
    intro x
    rw [UInt64.toNat_and]
    exact Nat.and_two_pow_sub_one_eq_mod x.toNat 32
  have hhigh : ∀ x : UInt64, (x >>> (32 : UInt64)).toNat = x.toNat / 2 ^ 32 := by
    intro x
    rw [UInt64.toNat_shiftRight]
    exact Nat.shiftRight_eq_div_pow ..
  have hquarter : ∀ x : UInt32, (x >>> (2 : UInt32)).toNat = x.toNat / 4 := by
    intro x
    rw [UInt32.toNat_shiftRight]
    exact Nat.shiftRight_eq_div_pow ..
  have hrest : ∀ x : UInt32, (x &&& (3 : UInt32)).toNat = x.toNat % 4 := by
    intro x
    rw [UInt32.toNat_and]
    exact Nat.and_two_pow_sub_one_eq_mod x.toNat 2
  simp only [polyReduce, limbs, Vector.getElem_mk, List.getElem_toArray, List.getElem_cons_zero,
    List.getElem_cons_succ]
  generalize hu5 : (x3 >>> 32).toUInt32 + x4 = u5
  have e5 : u5.toNat = x3.toNat / 2 ^ 32 + x4.toNat := by
    rw [← hu5, UInt32.toNat_add, UInt64.toNat_toUInt32, hhigh]
    omega
  generalize hu0 : ((u5 >>> 2) * 5).toUInt64 + (x0 &&& (0xffffffff : UInt64)) = u0
  have e0 : u0.toNat = u5.toNat / 4 * 5 + x0.toNat % 2 ^ 32 := by
    have hfive : ((u5 >>> 2) * 5).toNat = u5.toNat / 4 * 5 := by
      rw [UInt32.toNat_mul, hquarter]
      show u5.toNat / 4 * 5 % 2 ^ 32 = _
      omega
    rw [← hu0, UInt64.toNat_add, UInt32.toNat_toUInt64, hfive, hmask]
    omega
  have hcarry : ∀ u x y : UInt64, u.toNat < 2 ^ 34 → y.toNat < 25 * 2 ^ 59 →
      ((u >>> 32).toUInt32.toUInt64 + (x &&& (0xffffffff : UInt64)) + (y >>> 32)).toNat =
        u.toNat / 2 ^ 32 + x.toNat % 2 ^ 32 + y.toNat / 2 ^ 32 := by
    intro u x y hu hy
    rw [UInt64.toNat_add, UInt64.toNat_add, UInt32.toNat_toUInt64, UInt64.toNat_toUInt32, hmask,
      hhigh, hhigh]
    omega
  generalize hu1 : (u0 >>> 32).toUInt32.toUInt64 + (x1 &&& (0xffffffff : UInt64)) + (x0 >>> 32) = u1
  have e1 := hcarry u0 x1 x0 (by omega) h0
  rw [hu1] at e1
  generalize hu2 : (u1 >>> 32).toUInt32.toUInt64 + (x2 &&& (0xffffffff : UInt64)) + (x1 >>> 32) = u2
  have e2 := hcarry u1 x2 x1 (by omega) h1
  rw [hu2] at e2
  generalize hu3 : (u2 >>> 32).toUInt32.toUInt64 + (x3 &&& (0xffffffff : UInt64)) + (x2 >>> 32) = u3
  have e3 := hcarry u2 x3 x2 (by omega) h2
  rw [hu3] at e3
  have e4 : ((u3 >>> 32).toUInt32 + (u5 &&& 3)).toNat = u3.toNat / 2 ^ 32 + u5.toNat % 4 := by
    rw [UInt32.toNat_add, UInt64.toNat_toUInt32, hhigh, hrest]
    omega
  rw [UInt64.toNat_toUInt32, UInt64.toNat_toUInt32, UInt64.toNat_toUInt32, UInt64.toNat_toUInt32,
    hmask, hmask, hmask, hmask, e4]
  clear hu5 hu0 hu1 hu2 hu3 hcarry hmask hhigh hquarter hrest e4
  refine ⟨⟨u5.toNat / 4, ?_⟩, by omega⟩
  rw [polyPrime]
  omega

/-- A block of sixteen bytes is read in four words. -/
theorem leNat_block {block : Bytes} (h : block.length = 16) :
    leNat block = (load32Le block).toNat + 2 ^ 32 * (load32Le (block.drop 4)).toNat +
      2 ^ 64 * (load32Le (block.drop 8)).toNat + 2 ^ 96 * (load32Le (block.drop 12)).toNat := by
  have hdrop : ∀ k, (block.drop k).length = 16 - k := by
    intro k
    rw [List.length_drop, h]
  have hpart : ∀ k, k ≤ 12 → leNat (block.drop k) =
      (load32Le (block.drop k)).toNat + 2 ^ 32 * leNat (block.drop (k + 4)) := by
    intro k hk
    have hlen : ((block.drop k).take 4).length = 4 := by
      rw [List.length_take, hdrop]
      omega
    rw [load32Le_toNat (by rw [hdrop]; omega), ← List.drop_drop]
    calc leNat (block.drop k) = leNat ((block.drop k).take 4 ++ (block.drop k).drop 4) := by
          rw [List.take_append_drop]
      _ = _ := by rw [leNat_append, hlen, show 256 ^ 4 = 2 ^ 32 from rfl]
  have hnil : leNat (block.drop 16) = 0 := by
    rw [List.drop_eq_nil_of_le (by omega), leNat_nil]
  have h0 : leNat block = (load32Le block).toNat + 2 ^ 32 * leNat (block.drop 4) :=
    hpart 0 (by omega)
  have h4 : leNat (block.drop 4) = _ + 2 ^ 32 * leNat (block.drop 8) := hpart 4 (by omega)
  have h8 : leNat (block.drop 8) = _ + 2 ^ 32 * leNat (block.drop 12) := hpart 8 (by omega)
  have h12 : leNat (block.drop 12) = _ + 2 ^ 32 * leNat (block.drop 16) := hpart 12 (by omega)
  omega

/-- The product of two numbers in limbs of 32 bits, the second one clamped, in which multiples of
`2^130` are replaced by multiples of 5. -/
theorem product_reduced (s0 s1 s2 s3 s4 r0 q1 q2 q3 : Nat) :
    (s0 + 2 ^ 32 * s1 + 2 ^ 64 * s2 + 2 ^ 96 * s3 + 2 ^ 128 * s4) *
        (r0 + 2 ^ 32 * (4 * q1) + 2 ^ 64 * (4 * q2) + 2 ^ 96 * (4 * q3)) =
      (s0 * r0 + s1 * (5 * q3) + s2 * (5 * q2) + s3 * (5 * q1) + s4 * (r0 / 4 * 5)) +
        2 ^ 32 * (s0 * (4 * q1) + s1 * r0 + s2 * (5 * q3) + s3 * (5 * q2) + s4 * (5 * q1)) +
        2 ^ 64 * (s0 * (4 * q2) + s1 * (4 * q1) + s2 * r0 + s3 * (5 * q3) + s4 * (5 * q2)) +
        2 ^ 96 * (s0 * (4 * q3) + s1 * (4 * q2) + s2 * (4 * q1) + s3 * r0 + s4 * (5 * q3)) +
        2 ^ 128 * (s4 * (r0 % 4)) +
        (s1 * q3 + s2 * q2 + s3 * q1 + s4 * (r0 / 4) + 2 ^ 32 * (s2 * q3 + s3 * q2 + s4 * q1) +
          2 ^ 64 * (s3 * q3 + s4 * q2) + 2 ^ 96 * (s4 * q3)) * polyPrime := by
  have hprime : polyPrime = 1361129467683753853853498429727072845819 := rfl
  obtain ⟨a, c, ha, hc, hr⟩ : ∃ a c, r0 / 4 = a ∧ r0 % 4 = c ∧ r0 = 4 * a + c :=
    ⟨_, _, rfl, rfl, (Nat.div_add_mod r0 4).symm⟩
  rw [ha, hc, hr, hprime]
  ring

/-- The rows of the product and its reduction, over the words of a clamped key. -/
theorem polyProduct_value {s0 s1 s2 s3 : UInt64} {s4 r0 r1 r2 r3 rr0 rr1 rr2 rr3 rr4 : UInt32}
    {q1 q2 q3 : Nat} (h0 : s0.toNat < 2 ^ 33) (h1 : s1.toNat < 2 ^ 33) (h2 : s2.toNat < 2 ^ 33)
    (h3 : s3.toNat < 2 ^ 33) (h4 : s4.toNat ≤ 5) (hr0 : r0.toNat < 2 ^ 28)
    (hr1 : r1.toNat = 4 * q1) (hr2 : r2.toNat = 4 * q2) (hr3 : r3.toNat = 4 * q3)
    (hq1 : q1 < 2 ^ 26) (hq2 : q2 < 2 ^ 26) (hq3 : q3 < 2 ^ 26)
    (hrr0 : rr0.toNat = r0.toNat / 4 * 5) (hrr1 : rr1.toNat = 5 * q1) (hrr2 : rr2.toNat = 5 * q2)
    (hrr3 : rr3.toNat = 5 * q3) (hrr4 : rr4.toNat = r0.toNat % 4) {h : Vector UInt32 5}
    (hh : polyReduce
      (s0 * r0.toUInt64 + s1 * rr3.toUInt64 + s2 * rr2.toUInt64 + s3 * rr1.toUInt64 +
        (s4 * rr0).toUInt64)
      (s0 * r1.toUInt64 + s1 * r0.toUInt64 + s2 * rr3.toUInt64 + s3 * rr2.toUInt64 +
        (s4 * rr1).toUInt64)
      (s0 * r2.toUInt64 + s1 * r1.toUInt64 + s2 * r0.toUInt64 + s3 * rr3.toUInt64 +
        (s4 * rr2).toUInt64)
      (s0 * r3.toUInt64 + s1 * r2.toUInt64 + s2 * r1.toUInt64 + s3 * r0.toUInt64 +
        (s4 * rr3).toUInt64)
      (s4 * rr4) = h) :
    limbs h ≡ (s0.toNat + 2 ^ 32 * s1.toNat + 2 ^ 64 * s2.toNat + 2 ^ 96 * s3.toNat +
        2 ^ 128 * s4.toNat) *
        (r0.toNat + 2 ^ 32 * (4 * q1) + 2 ^ 64 * (4 * q2) + 2 ^ 96 * (4 * q3)) [MOD polyPrime] ∧
      h[4].toNat ≤ 4 := by
  have hx4 : (s4 * rr4).toNat = s4.toNat * (r0.toNat % 4) ∧ (s4 * rr4).toNat ≤ 15 := by
    have hle : s4.toNat * (r0.toNat % 4) ≤ 5 * 3 := Nat.mul_le_mul h4 (by omega)
    rw [UInt32.toNat_mul, hrr4]
    omega
  have hk0 : r0.toNat < 5 * 2 ^ 26 := by omega
  have hk1 : r1.toNat < 5 * 2 ^ 26 := by omega
  have hk2 : r2.toNat < 5 * 2 ^ 26 := by omega
  have hk3 : r3.toNat < 5 * 2 ^ 26 := by omega
  have hkk0 : rr0.toNat < 5 * 2 ^ 26 := by omega
  have hkk1 : rr1.toNat < 5 * 2 ^ 26 := by omega
  have hkk2 : rr2.toNat < 5 * 2 ^ 26 := by omega
  have hkk3 : rr3.toNat < 5 * 2 ^ 26 := by omega
  obtain ⟨hx0, hl0⟩ := row_toNat h0 h1 h2 h3 h4 hk0 hkk3 hkk2 hkk1 hkk0
  obtain ⟨hx1, hl1⟩ := row_toNat h0 h1 h2 h3 h4 hk1 hk0 hkk3 hkk2 hkk1
  obtain ⟨hx2, hl2⟩ := row_toNat h0 h1 h2 h3 h4 hk2 hk1 hk0 hkk3 hkk2
  obtain ⟨hx3, hl3⟩ := row_toNat h0 h1 h2 h3 h4 hk3 hk2 hk1 hk0 hkk3
  obtain ⟨⟨q, hq⟩, hbound⟩ := polyReduce_value hl0 hl1 hl2 hl3 hx4.2
  rw [hh] at hq hbound
  refine ⟨?_, hbound⟩
  rw [hx0, hx1, hx2, hx3, hx4.1, hrr0, hrr1, hrr2, hrr3, hr1, hr2, hr3] at hq
  rw [product_reduced, hq, Nat.add_assoc, ← Nat.add_mul]
  exact (Nat.add_mul_mod_self_right ..).symm

/-- `poly_blocks`, one block: inside the bounds of its comment no sum overflows, the limbs stand
for `(h + c) * r` and keep the bound. -/
theorem polyBlock_value {r : Vector UInt32 4} {h : Vector UInt32 5} {block : Bytes} {fin : UInt32}
    (hr : Clamped r) (hh : h[4].toNat ≤ 4) (hlen : block.length = 16) (hfin : fin.toNat ≤ 1) :
    limbs (polyBlock r h block fin) ≡
        (limbs h + leNat block + 2 ^ 128 * fin.toNat) * words r [MOD polyPrime] ∧
      (polyBlock r h block fin)[4].toNat ≤ 4 := by
  obtain ⟨q1, hq1⟩ := hr.quarter1
  obtain ⟨q2, hq2⟩ := hr.quarter2
  obtain ⟨q3, hq3⟩ := hr.quarter3
  have hr0 := hr.low
  have hr1 := hr.high1
  have hr2 := hr.high2
  have hr3 := hr.high3
  have hsum : ∀ x y : UInt32, (x.toUInt64 + y.toUInt64).toNat = x.toNat + y.toNat := by
    intro x y
    have hx := x.toNat_lt
    have hy := y.toNat_lt
    rw [UInt64.toNat_add, UInt32.toNat_toUInt64, UInt32.toNat_toUInt64]
    omega
  have hsum_lt : ∀ x y : UInt32, (x.toUInt64 + y.toUInt64).toNat < 2 ^ 33 := by
    intro x y
    have hx := x.toNat_lt
    have hy := y.toNat_lt
    rw [hsum]
    omega
  have hquarter : ∀ x : UInt32, (x >>> (2 : UInt32)).toNat = x.toNat / 4 := by
    intro x
    rw [UInt32.toNat_shiftRight]
    exact Nat.shiftRight_eq_div_pow ..
  -- the five key words of the rows
  have hrr0 : ((r[0] >>> 2) * 5).toNat = r[0].toNat / 4 * 5 := by
    rw [UInt32.toNat_mul, hquarter]
    show r[0].toNat / 4 * 5 % 2 ^ 32 = _
    omega
  have hrr : ∀ (x : UInt32) (q : Nat), x.toNat = 4 * q → x.toNat < 2 ^ 28 →
      ((x >>> 2) + x).toNat = 5 * q := by
    intro x q hx hlt
    rw [UInt32.toNat_add, hquarter]
    omega
  have hrr4 : (r[0] &&& (3 : UInt32)).toNat = r[0].toNat % 4 := by
    rw [UInt32.toNat_and]
    exact Nat.and_two_pow_sub_one_eq_mod r[0].toNat 2
  have hs4 : (h[4] + fin).toNat = h[4].toNat + fin.toNat := by
    rw [UInt32.toNat_add]
    omega
  obtain ⟨hvalue, hbound⟩ := polyProduct_value (hsum_lt h[0] (load32Le block))
    (hsum_lt h[1] (load32Le (block.drop 4))) (hsum_lt h[2] (load32Le (block.drop 8)))
    (hsum_lt h[3] (load32Le (block.drop 12))) (show (h[4] + fin).toNat ≤ 5 by omega) hr0 hq1 hq2 hq3
    (by omega) (by omega) (by omega) hrr0 (hrr r[1] q1 hq1 hr1) (hrr r[2] q2 hq2 hr2)
    (hrr r[3] q3 hq3 hr3) hrr4 (h := polyBlock r h block fin) rfl
  refine ⟨?_, hbound⟩
  have hleft : (limbs h + leNat block + 2 ^ 128 * fin.toNat) * words r =
      (h[0].toNat + (load32Le block).toNat +
        2 ^ 32 * (h[1].toNat + (load32Le (block.drop 4)).toNat) +
        2 ^ 64 * (h[2].toNat + (load32Le (block.drop 8)).toNat) +
        2 ^ 96 * (h[3].toNat + (load32Le (block.drop 12)).toNat) +
        2 ^ 128 * (h[4].toNat + fin.toNat)) *
      (r[0].toNat + 2 ^ 32 * (4 * q1) + 2 ^ 64 * (4 * q2) + 2 ^ 96 * (4 * q3)) := by
    rw [limbs, words, leNat_block hlen, hq1, hq2, hq3]
    congr 1
    ring
  rw [hleft]
  rw [hsum, hsum, hsum, hsum, hs4] at hvalue
  exact hvalue

/-! ## The accumulator of a message -/

/-- The number a block stands for: its value with a 1 above it. -/
def blockNumber (block : Bytes) : Nat := leNat block + 2 ^ (8 * block.length)

/-- One step of the evaluation. -/
def polyStep (r acc : Nat) (block : Bytes) : Nat := (acc + blockNumber block) * r % polyPrime

theorem cryptoPoly1305Init_clamped (key : Octets 32) : Clamped (cryptoPoly1305Init key).r := by
  have hlow : ∀ x : UInt32, (x &&& 0x0fffffff).toNat < 2 ^ 28 := by
    intro x
    rw [UInt32.toNat_and]
    exact Nat.and_lt_two_pow _ (by decide)
  have hhigh : ∀ x : UInt32, (x &&& 0x0ffffffc).toNat < 2 ^ 28 := by
    intro x
    rw [UInt32.toNat_and]
    exact Nat.and_lt_two_pow _ (by decide)
  have hquarter : ∀ x : UInt32, 4 ∣ (x &&& 0x0ffffffc).toNat := by
    intro x
    rw [UInt32.toNat_and, Nat.dvd_iff_mod_eq_zero, show 4 = 2 ^ 2 from rfl, Nat.and_mod_two_pow]
    exact Nat.and_zero _
  exact ⟨hlow _, hhigh _, hhigh _, hhigh _, hquarter _, hquarter _, hquarter _⟩

/-- Whole blocks keep the bound and are evaluated one after the other. -/
theorem polyBlocks_value {ctx : CryptoPoly1305Ctx} (hr : Clamped ctx.r) (hh : ctx.h[4].toNat ≤ 4)
    {input : Bytes} {k : Nat} (hk : 16 * k ≤ input.length) {acc : Nat}
    (hacc : limbs ctx.h ≡ acc [MOD polyPrime]) :
    limbs (polyBlocks ctx input k 1).h ≡
        foldBlocks 16 (polyStep (words ctx.r)) k acc input [MOD polyPrime] ∧
      (polyBlocks ctx input k 1).h[4].toNat ≤ 4 := by
  refine foldBlocks_simulates
    (R := fun h a => limbs h ≡ a [MOD polyPrime] ∧ h[4].toNat ≤ 4) ?_ hk ⟨hacc, hh⟩
  intro h a block hlen hha
  obtain ⟨hvalue, hbound⟩ := polyBlock_value hr hha.2 hlen
    (show (1 : UInt32).toNat ≤ 1 by decide)
  refine ⟨hvalue.trans ?_, hbound⟩
  have hnumber : limbs h + leNat block + 2 ^ 128 * (1 : UInt32).toNat =
      limbs h + blockNumber block := by
    have hone : (1 : UInt32).toNat = 1 := rfl
    rw [blockNumber, hlen, hone]
    omega
  rw [hnumber, polyStep]
  exact (Nat.ModEq.mul_right _ (hha.1.add_right _)).trans (Nat.mod_modEq _ _).symm

/-! ## The context -/

/-- What `put` leaves alone, and what it writes. -/
theorem foldl_put (m : Bytes) (ctx : CryptoPoly1305Ctx) (h : ctx.cIdx + m.length ≤ ctx.c.length) :
    (m.foldl CryptoPoly1305Ctx.put ctx).r = ctx.r ∧
      (m.foldl CryptoPoly1305Ctx.put ctx).pad = ctx.pad ∧
      (m.foldl CryptoPoly1305Ctx.put ctx).h = ctx.h ∧
      (m.foldl CryptoPoly1305Ctx.put ctx).c.length = ctx.c.length ∧
      (m.foldl CryptoPoly1305Ctx.put ctx).cIdx = ctx.cIdx + m.length ∧
      (m.foldl CryptoPoly1305Ctx.put ctx).c.take (ctx.cIdx + m.length) =
        ctx.c.take ctx.cIdx ++ m := by
  induction m generalizing ctx with
  | nil => simp
  | cons b m ih =>
      rw [List.length_cons] at h
      have hlen : (ctx.put b).c.length = ctx.c.length := List.length_set ..
      have hidx : (ctx.put b).cIdx = ctx.cIdx + 1 := rfl
      obtain ⟨hr, hpad, hh, hsize, hcount, htake⟩ := ih (ctx.put b) (by rw [hlen, hidx]; omega)
      have hput : (ctx.put b).c.take (ctx.cIdx + 1) = ctx.c.take ctx.cIdx ++ [b] := by
        show (ctx.c.set ctx.cIdx b).take (ctx.cIdx + 1) = _
        rw [List.take_add_one, List.take_set_of_le (Nat.le_refl _), List.getElem?_set_self (by omega)]
        rfl
      rw [List.foldl_cons, List.length_cons]
      refine ⟨hr, hpad, hh, hsize.trans hlen, ?_, ?_⟩
      · rw [hcount, hidx]
        omega
      · rw [hidx, Nat.add_assoc, Nat.add_comm 1] at htake
        rw [htake, hput, List.append_assoc]
        rfl

/-- The context has absorbed the message `m`. -/
structure CryptoPoly1305Ctx.Absorbed (ctx : CryptoPoly1305Ctx) (key : Octets 32) (m : Bytes) :
    Prop where
  r : ctx.r = (cryptoPoly1305Init key).r
  pad : ctx.pad = (cryptoPoly1305Init key).pad
  size : ctx.c.length = 16
  idx : ctx.cIdx = m.length % 16
  buffered : ctx.c.take ctx.cIdx = m.drop (16 * (m.length / 16))
  bound : ctx.h[4].toNat ≤ 4
  value : limbs ctx.h ≡
    foldBlocks 16 (polyStep (words ctx.r)) (m.length / 16) 0 m [MOD polyPrime]

namespace CryptoPoly1305Ctx.Absorbed

variable {ctx : CryptoPoly1305Ctx} {key : Octets 32} {m : Bytes}

theorem init (key : Octets 32) : (cryptoPoly1305Init key).Absorbed key [] where
  r := rfl
  pad := rfl
  size := rfl
  idx := rfl
  buffered := rfl
  bound := by
    show 0 ≤ 4
    omega
  value := rfl

/-- Bytes that do not complete a block are buffered. -/
theorem fill (h : ctx.Absorbed key m) {part : Bytes} (hpart : m.length % 16 + part.length < 16) :
    (part.foldl CryptoPoly1305Ctx.put ctx).Absorbed key (m ++ part) := by
  obtain ⟨hr, hpad, hh, hsize, hcount, htake⟩ :=
    foldl_put part ctx (by rw [h.idx, h.size]; omega)
  have hquot : (m ++ part).length / 16 = m.length / 16 := by
    rw [List.length_append]
    omega
  have hle : 16 * (m.length / 16) ≤ m.length := by omega
  constructor
  · exact hr.trans h.r
  · exact hpad.trans h.pad
  · exact hsize.trans h.size
  · rw [hcount, h.idx, List.length_append]
    omega
  · rw [hcount, htake, hquot, h.buffered, List.drop_append_of_le_length hle]
  · rw [hh]
    exact h.bound
  · rw [hh, hr, hquot, foldBlocks_append part hle]
    exact h.value

/-- Whole blocks behind whole blocks. -/
theorem blocks (h : ctx.Absorbed key m) (hwhole : m.length % 16 = 0) {part : Bytes} {k : Nat}
    (hk : part.length = 16 * k) (rest : Bytes) :
    (polyBlocks ctx (part ++ rest) k 1).Absorbed key (m ++ part) := by
  have hclamped : Clamped ctx.r := h.r ▸ cryptoPoly1305Init_clamped key
  have hquot : (m ++ part).length / 16 = m.length / 16 + k := by
    rw [List.length_append]
    omega
  have hall : 16 * (m.length / 16) = m.length := by omega
  have hfits : 16 * k ≤ (part ++ rest).length := by
    rw [List.length_append]
    omega
  obtain ⟨hvalue, hbound⟩ := polyBlocks_value hclamped h.bound hfits h.value
  constructor
  · exact h.r
  · exact h.pad
  · exact h.size
  · show ctx.cIdx = _
    rw [h.idx, List.length_append]
    omega
  · show ctx.c.take ctx.cIdx = _
    have hnone : (m ++ part).drop (16 * ((m ++ part).length / 16)) = [] := by
      apply List.drop_eq_nil_of_le
      rw [List.length_append]
      omega
    rw [hnone, h.idx, hwhole, List.take_zero]
  · exact hbound
  · rw [hquot, foldBlocks_add, foldBlocks_append part (by omega), hall, List.drop_left,
      ← foldBlocks_append rest (by omega)]
    exact hvalue

/-- The block that the buffer completes. -/
theorem complete (h : ctx.Absorbed key m) {part : Bytes} (hpart : m.length % 16 + part.length = 16) :
    ({ polyBlocks (part.foldl CryptoPoly1305Ctx.put ctx) (part.foldl CryptoPoly1305Ctx.put ctx).c
        1 1 with cIdx := 0 } : CryptoPoly1305Ctx).Absorbed key (m ++ part) := by
  obtain ⟨hr, hpad, hh, hsize, hcount, htake⟩ :=
    foldl_put part ctx (by rw [h.idx, h.size]; omega)
  have hclamped : Clamped (part.foldl CryptoPoly1305Ctx.put ctx).r := by
    rw [hr, h.r]
    exact cryptoPoly1305Init_clamped key
  have hle : 16 * (m.length / 16) ≤ m.length := by omega
  have hquot : (m ++ part).length / 16 = m.length / 16 + 1 := by
    rw [List.length_append]
    omega
  have hblock : (part.foldl CryptoPoly1305Ctx.put ctx).c = m.drop (16 * (m.length / 16)) ++ part := by
    have hfull : ctx.cIdx + part.length = 16 := by
      rw [h.idx]
      exact hpart
    rw [← h.buffered, ← htake, hfull, List.take_of_length_le (by rw [hsize, h.size])]
  have hlen : (m.drop (16 * (m.length / 16)) ++ part).length = 16 := by
    rw [← hblock, hsize, h.size]
  have hfits : 16 * 1 ≤ (part.foldl CryptoPoly1305Ctx.put ctx).c.length := by rw [hsize, h.size]
  have hold : limbs (part.foldl CryptoPoly1305Ctx.put ctx).h ≡
      foldBlocks 16 (polyStep (words ctx.r)) (m.length / 16) 0 m [MOD polyPrime] := by
    rw [hh]
    exact h.value
  obtain ⟨hvalue, hbound⟩ := polyBlocks_value hclamped (by rw [hh]; exact h.bound) hfits hold
  constructor
  · exact hr.trans h.r
  · exact hpad.trans h.pad
  · exact hsize.trans h.size
  · show 0 = _
    rw [List.length_append]
    omega
  · show List.take 0 _ = _
    rw [List.take_zero, List.drop_eq_nil_of_le]
    rw [List.length_append]
    omega
  · exact hbound
  · have hfold : foldBlocks 16 (polyStep (words (part.foldl CryptoPoly1305Ctx.put ctx).r)) 1
        (foldBlocks 16 (polyStep (words ctx.r)) (m.length / 16) 0 m)
        (part.foldl CryptoPoly1305Ctx.put ctx).c =
        foldBlocks 16 (polyStep (words ctx.r)) ((m ++ part).length / 16) 0 (m ++ part) := by
      rw [hquot, foldBlocks_concat (m.length / 16), foldBlocks_append part hle, List.drop_append_of_le_length hle,
        hblock, hr, foldBlocks_succ]
      rfl
    rw [hfold] at hvalue
    have hr' : words ctx.r = words (part.foldl CryptoPoly1305Ctx.put ctx).r := by rw [hr]
    rw [hr'] at hvalue
    exact hvalue

/-- `crypto_poly1305_update` absorbs its message, however the blocks lie. -/
theorem update (h : ctx.Absorbed key m) (part : Bytes) :
    (cryptoPoly1305Update ctx part).Absorbed key (m ++ part) := by
  have hgap : gap ctx.cIdx 16 = (16 - m.length % 16) % 16 := by
    rw [show 16 = 2 ^ 4 from rfl, gap_eq _ (by omega), h.idx]
    omega
  unfold cryptoPoly1305Update
  by_cases hempty : part.length = 0
  · rw [if_pos hempty, List.eq_nil_of_length_eq_zero hempty, List.append_nil]
    exact h
  · rw [if_neg hempty, hgap]
    dsimp only
    generalize haligned : min ((16 - m.length % 16) % 16) part.length = aligned
    have hfront : (part.take aligned).length = aligned := by
      rw [List.length_take]
      omega
    obtain ⟨-, -, -, -, hcount, -⟩ := foldl_put (part.take aligned) ctx (by
      rw [h.idx, h.size, hfront]
      omega)
    rw [hfront, h.idx] at hcount
    have hback : (part.drop aligned).length = part.length - aligned := List.length_drop ..
    -- after the alignment the message so far ends in a whole block, or nothing is left
    obtain ⟨ctx', hctx', habsorbed, hrest⟩ : ∃ ctx',
        (if (List.foldl CryptoPoly1305Ctx.put ctx (part.take aligned)).cIdx = 16 then
          { polyBlocks (List.foldl CryptoPoly1305Ctx.put ctx (part.take aligned))
              (List.foldl CryptoPoly1305Ctx.put ctx (part.take aligned)).c 1 1 with cIdx := 0 }
        else List.foldl CryptoPoly1305Ctx.put ctx (part.take aligned)) = ctx' ∧
        ctx'.Absorbed key (m ++ part.take aligned) ∧
        ((m ++ part.take aligned).length % 16 = 0 ∨ part.drop aligned = []) := by
      refine ⟨_, rfl, ?_, ?_⟩
      · by_cases hfull : m.length % 16 + aligned = 16
        · rw [if_pos (by rw [hcount, hfull])]
          exact h.complete (by rw [hfront, hfull])
        · rw [if_neg (by rw [hcount]; exact hfull)]
          exact h.fill (by rw [hfront]; omega)
      · rw [List.length_append, hfront]
        by_cases hleft : part.length ≤ aligned
        · exact .inr (List.drop_eq_nil_of_le hleft)
        · left
          omega
    rw [hctx']
    have hwhole : m ++ part = (m ++ part.take aligned) ++ part.drop aligned := by
      rw [List.append_assoc, List.take_append_drop]
    rw [hwhole]
    generalize m ++ part.take aligned = m' at habsorbed hrest
    generalize part.drop aligned = part' at hrest
    rw [Nat.shiftRight_eq_div_pow, Nat.shiftLeft_eq, Nat.mul_comm _ (2 ^ 4)]
    show (List.foldl CryptoPoly1305Ctx.put (polyBlocks ctx' part' (part'.length / 16) 1)
      (part'.drop (16 * (part'.length / 16)))).Absorbed key (m' ++ part')
    obtain hrest | hnil := hrest
    · have hlen : (part'.take (16 * (part'.length / 16))).length = 16 * (part'.length / 16) := by
        rw [List.length_take]
        omega
      have hblocks := habsorbed.blocks hrest hlen (part'.drop (16 * (part'.length / 16)))
      rw [List.take_append_drop] at hblocks
      have hshort : (m' ++ part'.take (16 * (part'.length / 16))).length % 16 +
          (part'.drop (16 * (part'.length / 16))).length < 16 := by
        rw [List.length_append, hlen, List.length_drop]
        omega
      have hfill := hblocks.fill hshort
      rwa [List.append_assoc, List.take_append_drop] at hfill
    · subst hnil
      rw [List.append_nil]
      exact habsorbed

end CryptoPoly1305Ctx.Absorbed

/-! ## The tag -/

/-- The accumulator after the last block, complete or not. -/
def polyAccumulator (r : Nat) (m : Bytes) : Nat :=
  foldBlocks 16 (polyStep r) ((m.length + 15) / 16) 0 m

theorem polyAccumulator_lt (r : Nat) (m : Bytes) : polyAccumulator r m < polyPrime := by
  unfold polyAccumulator
  generalize (m.length + 15) / 16 = k
  cases k with
  | zero =>
      show 0 < polyPrime
      decide
  | succ k =>
      rw [foldBlocks_concat]
      exact Nat.mod_lt _ (by decide)

/-- The bytes left in the buffer, with the final 1 behind them. -/
theorem leNat_lastBlock {c rest : Bytes} {n : Nat} (hc : c.take n = rest) (hrest : rest.length = n)
    (hn : n < 16) :
    ((c.take n ++ List.replicate (16 - n) 0).set n 1).length = 16 ∧
      leNat ((c.take n ++ List.replicate (16 - n) 0).set n 1) = blockNumber rest := by
  obtain ⟨z, hz⟩ : ∃ z, 16 - n = z + 1 := ⟨15 - n, by omega⟩
  have hset : (c.take n ++ List.replicate (16 - n) 0).set n 1 =
      rest ++ (1 :: List.replicate z 0) := by
    rw [hc, hz, List.replicate_succ, List.set_append_right _ _ (Nat.le_of_eq hrest), hrest,
      Nat.sub_self, List.set_cons_zero]
  rw [hset]
  constructor
  · rw [List.length_append, List.length_cons, List.length_replicate, hrest]
    omega
  · have hone : (1 : UInt8).toNat = 1 := rfl
    rw [leNat_append, leNat_cons, leNat_zeros, hone, blockNumber, Nat.mul_zero, Nat.add_zero,
      Nat.mul_one, Nat.pow_mul]

/-- The carry of the last reduction. -/
theorem polyCarry_value {h : Vector UInt32 5} (hh : h[4].toNat ≤ 4) :
    (polyCarry h).toNat = (limbs h + 5) / 2 ^ 130 * 5 := by
  have hhigh : ∀ x : UInt64, (x >>> (32 : UInt64)).toNat = x.toNat / 2 ^ 32 := by
    intro x
    rw [UInt64.toNat_shiftRight]
    exact Nat.shiftRight_eq_div_pow ..
  have hadd : ∀ (x : UInt64) (y : UInt32), x.toNat < 2 ^ 32 →
      (x + y.toUInt64).toNat = x.toNat + y.toNat := by
    intro x y hx
    have hy := y.toNat_lt
    rw [UInt64.toNat_add, UInt32.toNat_toUInt64]
    omega
  have h0 := h[0].toNat_lt
  have h1 := h[1].toNat_lt
  have h2 := h[2].toNat_lt
  have h3 := h[3].toNat_lt
  simp only [polyCarry]
  generalize e0 : ((5 : UInt64) + h[0].toUInt64) >>> (32 : UInt64) = c0
  have v0 : c0.toNat = (5 + h[0].toNat) / 2 ^ 32 := by
    rw [← e0, hhigh, hadd _ _ (by decide)]
    rfl
  generalize e1 : (c0 + h[1].toUInt64) >>> (32 : UInt64) = c1
  have v1 : c1.toNat = (c0.toNat + h[1].toNat) / 2 ^ 32 := by
    rw [← e1, hhigh, hadd _ _ (by omega)]
  generalize e2 : (c1 + h[2].toUInt64) >>> (32 : UInt64) = c2
  have v2 : c2.toNat = (c1.toNat + h[2].toNat) / 2 ^ 32 := by
    rw [← e2, hhigh, hadd _ _ (by omega)]
  generalize e3 : (c2 + h[3].toUInt64) >>> (32 : UInt64) = c3
  have v3 : c3.toNat = (c2.toNat + h[3].toNat) / 2 ^ 32 := by
    rw [← e3, hhigh, hadd _ _ (by omega)]
  have v4 : ((c3 + h[4].toUInt64) >>> (2 : UInt64)).toNat = (c3.toNat + h[4].toNat) / 4 := by
    rw [UInt64.toNat_shiftRight, hadd _ _ (by omega)]
    exact Nat.shiftRight_eq_div_pow ..
  rw [UInt64.toNat_mul, v4]
  show (c3.toNat + h[4].toNat) / 4 * 5 % 2 ^ 64 = _
  rw [limbs]
  clear e0 e1 e2 e3 hhigh hadd v4
  omega

/-- The low word of a number in limbs of 32 bits with a carry, and the rest with its
own. -/
theorem leBytes_carry (n c a w : Nat) :
    leBytes (4 + n) (c + (a + 2 ^ 32 * w)) =
      leBytes 4 (c + a) ++ leBytes n ((c + a) / 2 ^ 32 + w) := by
  rw [← Nat.add_assoc, leBytes_append, ← leBytes_mod 4 (c + a + 2 ^ 32 * w), ← leBytes_mod 4 (c + a),
    show 256 ^ 4 = 2 ^ 32 from rfl, Nat.add_mul_mod_self_left, Nat.add_mul_div_left _ _ (by decide)]

/-- The tag loop adds the pad and drops what is above 128 bits. -/
theorem polyTag_value {h : Vector UInt32 5} {pad : Vector UInt32 4} {c : UInt64}
    (hc : c.toNat ≤ 5) :
    polyTag h pad c = leBytes 16 (limbs h + c.toNat + words pad) := by
  have hhigh : ∀ x : UInt64, (x >>> (32 : UInt64)).toNat = x.toNat / 2 ^ 32 := by
    intro x
    rw [UInt64.toNat_shiftRight]
    exact Nat.shiftRight_eq_div_pow ..
  have hadd : ∀ (x : UInt64) (y z : UInt32), x.toNat < 2 ^ 32 →
      (x + (y.toUInt64 + z.toUInt64)).toNat = x.toNat + (y.toNat + z.toNat) := by
    intro x y z hx
    have hy := y.toNat_lt
    have hz := z.toNat_lt
    rw [UInt64.toNat_add, UInt64.toNat_add, UInt32.toNat_toUInt64, UInt32.toNat_toUInt64]
    omega
  have hnext : ∀ (x : UInt64) (y z : UInt32), ((x >>> (32 : UInt64)) +
      (y.toUInt64 + z.toUInt64)).toNat = x.toNat / 2 ^ 32 + (y.toNat + z.toNat) := by
    intro x y z
    have hx := x.toNat_lt
    rw [hadd _ _ _ (by rw [hhigh]; omega), hhigh]
  have hword : ∀ x : UInt64, store32Le x.toUInt32 = leBytes 4 x.toNat := by
    intro x
    rw [store32Le_eq, UInt64.toNat_toUInt32]
    exact leBytes_mod 4 x.toNat
  have hsum : limbs h + c.toNat + words pad = c.toNat + (h[0].toNat + pad[0].toNat +
      2 ^ 32 * (h[1].toNat + pad[1].toNat + 2 ^ 32 * (h[2].toNat + pad[2].toNat +
        2 ^ 32 * (h[3].toNat + pad[3].toNat + 2 ^ 32 * h[4].toNat)))) := by
    rw [limbs, words]
    ring
  rw [hsum, show 16 = 4 + (4 + (4 + (4 + 0))) from rfl, leBytes_carry, leBytes_carry,
    leBytes_carry, leBytes_carry]
  have hnone : ∀ v, leBytes 0 v = [] :=
    fun v => List.eq_nil_of_length_eq_zero (leBytes_length 0 v)
  simp only [polyTag, hword, hnext, hadd c _ _ (by omega), hnone, List.append_nil, List.append_assoc]

/-- The reduced accumulator, plus the pad. -/
theorem polyTag_reduced {h : Vector UInt32 5} {pad : Vector UInt32 4} (hh : h[4].toNat ≤ 4) :
    polyTag h pad (polyCarry h) = leBytes 16 (limbs h % polyPrime + words pad) := by
  have hcarry := polyCarry_value hh
  have h0 := h[0].toNat_lt
  have h1 := h[1].toNat_lt
  have h2 := h[2].toNat_lt
  have h3 := h[3].toNat_lt
  have hlt : limbs h < 5 * 2 ^ 128 := by
    rw [limbs]
    omega
  have hc : (polyCarry h).toNat ≤ 5 := by omega
  rw [polyTag_value hc, ← leBytes_mod 16, ← leBytes_mod 16 (limbs h % polyPrime + words pad), hcarry]
  congr 1
  generalize limbs h = x at hlt ⊢
  generalize words pad = w
  have hprime : polyPrime + 5 = 2 ^ 130 := rfl
  have hwidth : 2 ^ 130 = 256 ^ 16 * 4 := rfl
  -- `x + 5` reaches `2 ^ 130` exactly if `x` reaches the prime
  by_cases hsmall : x < polyPrime
  · rw [Nat.mod_eq_of_lt hsmall, Nat.div_eq_of_lt (by omega), Nat.zero_mul, Nat.add_zero]
  · obtain ⟨y, rfl⟩ : ∃ y, x = polyPrime + y := ⟨x - polyPrime, by omega⟩
    have hy : y < polyPrime := by omega
    have hone : (polyPrime + y + 5) / 2 ^ 130 = 1 := by omega
    have hsum : polyPrime + y + 1 * 5 + w = y + w + 256 ^ 16 * 4 := by omega
    rw [hone, hsum, Nat.add_mul_mod_self_left, Nat.add_mod_left, Nat.mod_eq_of_lt hy]

/-- The tag after the last block, which is empty or completed. -/
theorem cryptoPoly1305Final_toList (ctx : CryptoPoly1305Ctx) :
    (cryptoPoly1305Final ctx).toList =
      (fun last : CryptoPoly1305Ctx => polyTag last.h last.pad (polyCarry last.h))
        (if ctx.cIdx ≠ 0 then polyBlocks ctx
          ((ctx.c.take ctx.cIdx ++ List.replicate (16 - ctx.cIdx) 0).set ctx.cIdx 1) 1 0
        else ctx) := rfl

theorem polyBlocks_one (ctx : CryptoPoly1305Ctx) (input : Bytes) (fin : UInt32) :
    (polyBlocks ctx input 1 fin).h = polyBlock ctx.r ctx.h (input.take 16) fin := rfl

/-- `crypto_poly1305_final`. -/
theorem CryptoPoly1305Ctx.Absorbed.final {ctx : CryptoPoly1305Ctx} {key : Octets 32} {m : Bytes}
    (h : ctx.Absorbed key m) :
    (cryptoPoly1305Final ctx).toList =
      leBytes 16 (polyAccumulator (words ctx.r) m + words ctx.pad) := by
  have hclamped : Clamped ctx.r := h.r ▸ cryptoPoly1305Init_clamped key
  have hmod : ∀ h' : Vector UInt32 5, limbs h' ≡ polyAccumulator (words ctx.r) m [MOD polyPrime] →
      limbs h' % polyPrime = polyAccumulator (words ctx.r) m := by
    intro h' hcongr
    rw [hcongr, Nat.mod_eq_of_lt (polyAccumulator_lt _ _)]
  rw [cryptoPoly1305Final_toList]
  by_cases hidx : ctx.cIdx ≠ 0
  · -- the last block is incomplete
    have hrest : (m.drop (16 * (m.length / 16))).length = ctx.cIdx := by
      rw [List.length_drop, h.idx]
      omega
    obtain ⟨hlen, hnumber⟩ := leNat_lastBlock h.buffered hrest (by rw [h.idx]; omega)
    obtain ⟨hvalue, hbound⟩ := polyBlock_value hclamped h.bound hlen
      (show (0 : UInt32).toNat ≤ 1 by decide)
    have hcount : (m.length + 15) / 16 = m.length / 16 + 1 := by
      have := h.idx
      omega
    rw [if_pos hidx]
    dsimp only
    rw [polyBlocks_one, List.take_of_length_le (Nat.le_of_eq hlen), polyTag_reduced hbound, hmod]
    · rfl
    refine hvalue.trans ?_
    have hzero : (0 : UInt32).toNat = 0 := rfl
    rw [hnumber, hzero, Nat.mul_zero, Nat.add_zero, polyAccumulator, hcount, foldBlocks_concat,
      List.take_of_length_le (by rw [hrest, h.idx]; omega), polyStep]
    exact (Nat.ModEq.mul_right _ (h.value.add_right _)).trans (Nat.mod_modEq _ _).symm
  · have hcount : (m.length + 15) / 16 = m.length / 16 := by
      have := h.idx
      omega
    rw [if_neg hidx]
    dsimp only
    rw [polyTag_reduced h.bound, hmod]
    rw [polyAccumulator, hcount]
    exact h.value

end Ctunnel
