import Ctunnel.Lib.BigEndian
import Mathlib.Data.List.TakeWhile

/-!
# Decimal numerals and `strtol`

`Numeral` says what a decimal numeral is and which integer it denotes. `strtol` is
the function of the C library in base 10: it skips white space, reads the longest
numeral, and reports where it stopped; a value outside `long` is clamped and sets
`errno`. The two ways it ends are `strtol_numeral` and `strtol_cases`.
-/

namespace Ctunnel.Lib

/-- `isspace` of the C locale. -/
def isspace (c : UInt8) : Bool := c == 32 || decide (9 ≤ c ∧ c ≤ 13)

def isdigit (c : UInt8) : Bool := decide (48 ≤ c ∧ c ≤ 57)

/-- The value of a string of digits. -/
def decimalValue (ds : Bytes) : Nat := ds.foldl (fun v c => v * 10 + (c.toNat - 48)) 0

/-- A decimal numeral with an optional sign, and its value. -/
inductive Numeral : Bytes → Int → Prop
  | plain {ds : Bytes} (hne : ds ≠ []) (hds : ∀ c ∈ ds, isdigit c = true) :
      Numeral ds (decimalValue ds)
  | plus {ds : Bytes} (hne : ds ≠ []) (hds : ∀ c ∈ ds, isdigit c = true) :
      Numeral (43 :: ds) (decimalValue ds)
  | minus {ds : Bytes} (hne : ds ≠ []) (hds : ∀ c ∈ ds, isdigit c = true) :
      Numeral (45 :: ds) (-(decimalValue ds))

/-- A numeral with white space before it. -/
def SpacedNumeral (t : Bytes) (n : Int) : Prop :=
  ∃ ws u, t = ws ++ u ∧ (∀ c ∈ ws, isspace c = true) ∧ Numeral u n

/-- What a C library decides for itself: the range of `long`, and whether `strtol` sets
`errno` when there is no numeral. -/
structure CLibrary where
  longMax : Int
  einval : Bool
  longMax_ge : 2147483647 ≤ longMax

/-- A `long` of 64 bits. -/
theorem long_of_64 : (2147483647 : Int) ≤ 9223372036854775807 := by decide

/-- What `strtol` returns, the text from `*endptr` on, and whether `errno` is set. -/
structure StrtolResult where
  value : Int
  rest : Bytes
  errno : Bool
  deriving DecidableEq

/-- The sign, and what follows it. -/
def strtolSign : Bytes → Bool × Bytes
  | 45 :: t => (true, t)
  | 43 :: t => (false, t)
  | t => (false, t)

/-- The nearest `long`. -/
def CLibrary.clamp (lib : CLibrary) (n : Int) : Int :=
  if n > lib.longMax then lib.longMax else if n < -lib.longMax - 1 then -lib.longMax - 1 else n

/-- The value is no `long`. -/
def CLibrary.overflows (lib : CLibrary) (n : Int) : Bool :=
  decide (n > lib.longMax ∨ n < -lib.longMax - 1)

/-- `strtol(s, &e, 10)`. -/
def strtol (lib : CLibrary) (s : Bytes) : StrtolResult :=
  let signed := strtolSign (s.dropWhile isspace)
  let digits := signed.2.takeWhile isdigit
  let n : Int := if signed.1 then -(decimalValue digits) else decimalValue digits
  if digits = [] then ⟨0, s, lib.einval⟩
  else ⟨lib.clamp n, signed.2.dropWhile isdigit, lib.overflows n⟩

/-! ## The text it reads -/

theorem isspace_of_isdigit {c : UInt8} (h : isdigit c = true) : isspace c = false := by
  simp only [isdigit, isspace, decide_eq_true_eq, UInt8.le_iff_toNat_le] at h ⊢
  have hne : c ≠ 32 := by
    intro heq
    subst heq
    exact absurd h.1 (by decide)
  simp only [Bool.or_eq_false_iff, beq_eq_false_iff_ne, decide_eq_false_iff_not, ne_eq]
  refine ⟨hne, fun hrange => ?_⟩
  have hlow : (48 : UInt8).toNat = 48 := rfl
  have hhigh : (13 : UInt8).toNat = 13 := rfl
  omega

theorem strtolSign_of_digit {c : UInt8} {t : Bytes} (h : isdigit c = true) :
    strtolSign (c :: t) = (false, c :: t) := by
  unfold strtolSign
  split
  · rename_i heq
    injection heq with heq
    subst heq
    exact absurd h (by decide)
  · rename_i heq
    injection heq with heq
    subst heq
    exact absurd h (by decide)
  · rfl

/-- A numeral splits into a sign and digits. -/
theorem Numeral.sign {t : Bytes} {n : Int} (h : Numeral t n) :
    ∃ neg ds, (∀ r, strtolSign (t ++ r) = (neg, ds ++ r)) ∧ ds ≠ [] ∧
      (∀ c ∈ ds, isdigit c = true) ∧ n = (if neg then -(decimalValue ds : Int) else decimalValue ds) ∧
      ∀ c ∈ t.head?, isspace c = false := by
  cases h with
  | plain hne hds =>
      cases t with
      | nil => exact absurd rfl hne
      | cons c ds =>
          have hc := hds c List.mem_cons_self
          refine ⟨false, c :: ds, fun r => strtolSign_of_digit hc, hne, hds, rfl, ?_⟩
          intro d hd
          obtain rfl := Option.some.inj hd
          exact isspace_of_isdigit hc
  | @plus ds hne hds => exact ⟨false, ds, fun _ => rfl, hne, hds, rfl, by simp [isspace]⟩
  | @minus ds hne hds => exact ⟨true, ds, fun _ => rfl, hne, hds, rfl, by simp [isspace]⟩

theorem takeWhile_digits {ds r : Bytes} (hds : ∀ c ∈ ds, isdigit c = true)
    (hr : ∀ c ∈ r.head?, isdigit c = false) :
    (ds ++ r).takeWhile isdigit = ds ∧ (ds ++ r).dropWhile isdigit = r := by
  have hstop : r.takeWhile isdigit = [] ∧ r.dropWhile isdigit = r := by
    cases r with
    | nil => exact ⟨rfl, rfl⟩
    | cons c t =>
        have hc := hr c rfl
        simp [hc]
  constructor
  · rw [List.takeWhile_append_of_pos hds, hstop.1, List.append_nil]
  · rw [List.dropWhile_append_of_pos hds, hstop.2]

/-- White space, a numeral and something that does not go on with a digit. -/
theorem strtol_numeral (lib : CLibrary) {ws t r : Bytes} {n : Int}
    (hws : ∀ c ∈ ws, isspace c = true) (ht : Numeral t n) (hr : ∀ c ∈ r.head?, isdigit c = false) :
    strtol lib (ws ++ t ++ r) = ⟨lib.clamp n, r, lib.overflows n⟩ := by
  obtain ⟨neg, ds, hsign, hne, hds, rfl, hhead⟩ := ht.sign
  have hskip : (ws ++ t ++ r).dropWhile isspace = t ++ r := by
    rw [List.append_assoc, List.dropWhile_append_of_pos hws]
    cases t with
    | nil =>
        obtain ⟨c, tail, rfl⟩ := List.exists_cons_of_ne_nil hne
        have hempty := hsign []
        cases hempty
    | cons c t => simp [hhead c rfl]
  obtain ⟨htake, hdrop⟩ := takeWhile_digits hds hr
  unfold strtol
  simp only [hskip, hsign, htake, hdrop, hne, if_false]

/-- What `strtol` has read: nothing, or white space and a numeral. -/
theorem strtol_cases (lib : CLibrary) (s : Bytes) :
    strtol lib s = ⟨0, s, lib.einval⟩ ∨
      ∃ t r n, s = t ++ r ∧ SpacedNumeral t n ∧ (∀ c ∈ r.head?, isdigit c = false) ∧
        strtol lib s = ⟨lib.clamp n, r, lib.overflows n⟩ := by
  obtain ⟨u, hu⟩ : ∃ u, u = s.dropWhile isspace := ⟨_, rfl⟩
  obtain ⟨ds, hds⟩ : ∃ ds, ds = (strtolSign u).2.takeWhile isdigit := ⟨_, rfl⟩
  obtain ⟨r, hr⟩ : ∃ r, r = (strtolSign u).2.dropWhile isdigit := ⟨_, rfl⟩
  by_cases hne : ds = []
  · left
    unfold strtol
    simp only [← hu, ← hds, hne, if_true]
  · right
    have hdigits : ∀ c ∈ ds, isdigit c = true := fun c hc => by
      rw [hds] at hc
      exact List.mem_takeWhile_imp hc
    have hrest : ∀ c ∈ r.head?, isdigit c = false := by
      intro c hc
      rw [hr] at hc
      have := List.head?_dropWhile_not isdigit (strtolSign u).2
      rw [hc] at this
      simpa using this
    have hsplit : (strtolSign u).2 = ds ++ r := by
      rw [hds, hr, List.takeWhile_append_dropWhile]
    have hs : s = s.takeWhile isspace ++ u := by rw [hu, List.takeWhile_append_dropWhile]
    have hspaces : ∀ c ∈ s.takeWhile isspace, isspace c = true := fun c => List.mem_takeWhile_imp
    -- the numeral is the digits with the sign before them
    have hnumeral : ∃ t n, u = t ++ r ∧ Numeral t n ∧
        n = (if (strtolSign u).1 then -(decimalValue ds : Int) else decimalValue ds) := by
      unfold strtolSign at hsplit ⊢
      split at hsplit
      · exact ⟨45 :: ds, _, by rw [List.cons_append]; exact congrArg _ hsplit,
          .minus hne hdigits, rfl⟩
      · exact ⟨43 :: ds, _, by rw [List.cons_append]; exact congrArg _ hsplit,
          .plus hne hdigits, rfl⟩
      · exact ⟨ds, _, hsplit, .plain hne hdigits, rfl⟩
    obtain ⟨t, n, hut, ht, hn⟩ := hnumeral
    refine ⟨s.takeWhile isspace ++ t, r, n, ?_, ⟨_, t, rfl, hspaces, ht⟩, hrest, ?_⟩
    · rw [List.append_assoc, ← hut]
      exact hs
    · unfold strtol
      simp only [← hu, ← hds, hne, if_false, ← hr, hn]

/-! ## Values in range -/

theorem CLibrary.clamp_eq {lib : CLibrary} {n : Int} (h : lib.overflows n = false) :
    lib.clamp n = n := by
  simp only [CLibrary.overflows, decide_eq_false_iff_not, not_or, not_lt] at h
  unfold CLibrary.clamp
  rw [if_neg (by omega), if_neg (by omega)]

/-- A value that is clamped is no 32-bit `int`. -/
theorem CLibrary.eq_of_clamp {lib : CLibrary} {n : Int}
    (h : -2147483648 < lib.clamp n ∧ lib.clamp n < 2147483647) : lib.clamp n = n := by
  have hmax := lib.longMax_ge
  unfold CLibrary.clamp at h ⊢
  by_cases hover : n > lib.longMax
  · rw [if_pos hover] at h
    omega
  · rw [if_neg hover] at h ⊢
    by_cases hunder : n < -lib.longMax - 1
    · rw [if_pos hunder] at h
      omega
    · rw [if_neg hunder]

/-- The value of a numeral. -/
theorem Numeral.unique {t : Bytes} {n n' : Int} (h : Numeral t n) (h' : Numeral t n') : n = n' := by
  obtain ⟨neg, ds, hsign, -, -, rfl, -⟩ := h.sign
  obtain ⟨neg', ds', hsign', -, -, rfl, -⟩ := h'.sign
  have heq := (hsign []).symm.trans (hsign' [])
  simp only [List.append_nil, Prod.mk.injEq] at heq
  rw [heq.1, heq.2]

end Ctunnel.Lib
