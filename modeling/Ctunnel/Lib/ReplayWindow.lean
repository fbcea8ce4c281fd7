import Mathlib.Data.List.Basic

/-!
# Sliding replay windows

The 64-bit window that remembers the highest accepted sequence number and, in
bit `n` of a bitmap, whether the number `n` below it was accepted. The window
`Tracks` the numbers accepted so far, a number it accepts is not one of them
(`Tracks.accept`), and `Tracks.accept_iff` says which numbers it accepts.
-/

namespace Ctunnel.Lib

structure ReplayWindow where
  high : UInt64
  bitmap : UInt64
  deriving DecidableEq

namespace ReplayWindow

/-- The window after `s`, if it takes `s`. -/
def accept (w : ReplayWindow) (s : UInt64) : Option ReplayWindow :=
  if s = 0 then none
  else if w.high < s then
    let advance := s - w.high
    some ⟨s, if 64 ≤ advance then 1 else (w.bitmap <<< advance) ||| 1⟩
  else
    let age := w.high - s
    if 64 ≤ age then none
    else if w.bitmap &&& ((1 : UInt64) <<< age) ≠ 0 then none
    else some ⟨w.high, w.bitmap ||| ((1 : UInt64) <<< age)⟩

/-- Bit `n` of the bitmap. -/
def seen (w : ReplayWindow) (n : Nat) : Bool := w.bitmap.toBitVec.getLsbD n

/-- `A` are the numbers accepted so far. -/
structure Tracks (w : ReplayWindow) (A : List UInt64) : Prop where
  le : ∀ s ∈ A, s.toNat ≤ w.high.toNat
  bits : ∀ n < 64, w.seen n = true ↔ ∃ s ∈ A, s.toNat + n = w.high.toNat

theorem tracks_empty : (⟨0, 0⟩ : ReplayWindow).Tracks [] where
  le := by simp
  bits := by simp [seen]

/-! ## Single bits -/

theorem getLsbD_bit {age : UInt64} (h : age.toNat < 64) {n : Nat} (hn : n < 64) :
    ((1 : UInt64) <<< age).toBitVec.getLsbD n = decide (n = age.toNat) := by
  have hage : (age.toBitVec % 64).toNat = age.toNat := by
    rw [BitVec.toNat_umod]
    exact Nat.mod_eq_of_lt h
  rw [UInt64.toBitVec_shiftLeft, BitVec.shiftLeft_eq', hage, BitVec.getLsbD_shiftLeft]
  by_cases heq : n = age.toNat
  · subst heq
    simp [hn]
  · have hone : (1 : UInt64).toBitVec.getLsbD (n - age.toNat) = decide (n - age.toNat = 0) := by
      rw [UInt64.toBitVec_one, BitVec.getLsbD_one]
      simp
    rw [hone]
    simp only [hn, decide_true, Bool.true_and, heq, decide_false, Bool.and_eq_false_iff,
      Bool.not_eq_false', decide_eq_true_eq, decide_eq_false_iff_not]
    omega

theorem getLsbD_advance {bitmap advance : UInt64} (h : advance.toNat < 64) {n : Nat} (hn : n < 64) :
    ((bitmap <<< advance) ||| 1).toBitVec.getLsbD n =
      (decide (advance.toNat ≤ n) && bitmap.toBitVec.getLsbD (n - advance.toNat) ||
        decide (n = 0)) := by
  have hadv : (advance.toBitVec % 64).toNat = advance.toNat := by
    rw [BitVec.toNat_umod]
    exact Nat.mod_eq_of_lt h
  have hle : (!decide (n < advance.toNat)) = decide (advance.toNat ≤ n) := by
    rw [← decide_not, decide_eq_decide, Nat.not_lt]
  rw [UInt64.toBitVec_or, BitVec.getLsbD_or, UInt64.toBitVec_shiftLeft, BitVec.shiftLeft_eq', hadv,
    BitVec.getLsbD_shiftLeft, UInt64.toBitVec_one, BitVec.getLsbD_one, hle]
  simp [hn]

/-- A single bit is set exactly if masking with it leaves something. -/
theorem seen_iff_mask (w : ReplayWindow) {age : UInt64} (h : age.toNat < 64) :
    w.seen age.toNat = true ↔ w.bitmap &&& ((1 : UInt64) <<< age) ≠ 0 := by
  have hbit : ∀ n, n < 64 → (w.bitmap &&& ((1 : UInt64) <<< age)).toBitVec.getLsbD n =
      (w.seen n && decide (n = age.toNat)) := by
    intro n hn
    rw [UInt64.toBitVec_and, BitVec.getLsbD_and, getLsbD_bit h hn]
    rfl
  constructor
  · intro hseen hzero
    have := hbit age.toNat h
    rw [hzero, hseen] at this
    simp at this
  · intro hne
    by_contra hno
    apply hne
    rw [← UInt64.toBitVec_inj]
    apply BitVec.eq_of_getLsbD_eq
    intro n hn
    rw [hbit n hn]
    by_cases heq : n = age.toNat
    · subst heq
      simpa using hno
    · simp [heq]

/-! ## Acceptance -/

/-- A window accepts only numbers it has not accepted yet. -/
theorem Tracks.accept {w w' : ReplayWindow} {A : List UInt64} {s : UInt64} (h : w.Tracks A)
    (ha : w.accept s = some w') : s ∉ A ∧ w'.Tracks (s :: A) := by
  unfold ReplayWindow.accept at ha
  split at ha
  · exact absurd ha (by simp)
  split at ha
  · rename_i hnew
    injection ha with ha
    subst ha
    have hlt : w.high.toNat < s.toNat := UInt64.lt_iff_toNat_lt.mp hnew
    have hadv : (s - w.high).toNat = s.toNat - w.high.toNat :=
      UInt64.toNat_sub_of_le _ _ (UInt64.le_iff_toNat_le.mpr (Nat.le_of_lt hlt))
    refine ⟨fun hmem => absurd (h.le s hmem) (by omega), ?_, ?_⟩
    · intro t ht
      rcases List.mem_cons.mp ht with rfl | ht
      · exact Nat.le_refl _
      · exact Nat.le_trans (h.le t ht) (Nat.le_of_lt hlt)
    · intro n hn
      -- an older number is `n` below the new one exactly if it is `n - advance`
      -- below the old one
      have hold : (∃ t ∈ A, t.toNat + n = s.toNat) ↔
          s.toNat - w.high.toNat ≤ n ∧ ∃ t ∈ A, t.toNat + (n - (s.toNat - w.high.toNat)) =
            w.high.toNat := by
        constructor
        · rintro ⟨t, ht, hsum⟩
          have := h.le t ht
          exact ⟨by omega, t, ht, by omega⟩
        · rintro ⟨hle, t, ht, hsum⟩
          exact ⟨t, ht, by omega⟩
      have hcons : (∃ t ∈ s :: A, t.toNat + n = s.toNat) ↔
          n = 0 ∨ ∃ t ∈ A, t.toNat + n = s.toNat := by
        simp only [List.mem_cons, exists_eq_or_imp, Nat.add_eq_left]
      show (UInt64.toBitVec (if 64 ≤ s - w.high then 1 else _)).getLsbD n = true ↔ _
      rw [hcons, hold]
      split
      · rename_i hfar
        have hfar' : 64 ≤ s.toNat - w.high.toNat := by
          have := UInt64.le_iff_toNat_le.mp hfar
          rw [hadv] at this
          simpa using this
        rw [UInt64.toBitVec_one, BitVec.getLsbD_one]
        simp only [Nat.zero_lt_succ, decide_true, Bool.true_and, decide_eq_true_eq]
        omega
      · rename_i hnear
        have hnear' : (s - w.high).toNat < 64 := by
          have := UInt64.lt_iff_toNat_lt.mp (UInt64.not_le.mp hnear)
          simpa using this
        rw [getLsbD_advance hnear' hn, hadv, Bool.or_eq_true, Bool.and_eq_true, decide_eq_true_eq,
          decide_eq_true_eq, ← h.bits _ (by omega), or_comm]
        rfl
  · rename_i hold
    simp only at ha
    split at ha
    · exact absurd ha (by simp)
    · rename_i hnear
      split at ha
      · exact absurd ha (by simp)
      · rename_i hmask
        injection ha with ha
        subst ha
        have hle : s.toNat ≤ w.high.toNat := UInt64.le_iff_toNat_le.mp (UInt64.not_lt.mp hold)
        have hage : (w.high - s).toNat = w.high.toNat - s.toNat :=
          UInt64.toNat_sub_of_le _ _ (UInt64.le_iff_toNat_le.mpr hle)
        have hnear' : (w.high - s).toNat < 64 := by
          have := UInt64.lt_iff_toNat_lt.mp (UInt64.not_le.mp hnear)
          simpa using this
        have hunseen : ¬ w.seen (w.high - s).toNat = true := by
          rw [seen_iff_mask w hnear']
          exact hmask
        refine ⟨fun hmem => hunseen ((h.bits _ hnear').mpr ⟨s, hmem, by omega⟩), ?_, ?_⟩
        · intro t ht
          rcases List.mem_cons.mp ht with rfl | ht
          · exact hle
          · exact h.le t ht
        · intro n hn
          have hor : (⟨w.high, w.bitmap ||| ((1 : UInt64) <<< (w.high - s))⟩ :
              ReplayWindow).seen n = (w.seen n || decide (n = (w.high - s).toNat)) := by
            show (w.bitmap ||| _).toBitVec.getLsbD n = _
            rw [UInt64.toBitVec_or, BitVec.getLsbD_or, getLsbD_bit hnear' hn]
            rfl
          rw [hor, Bool.or_eq_true, decide_eq_true_eq, h.bits n hn]
          simp only [List.mem_cons, exists_eq_or_imp]
          rw [or_comm, hage]
          exact or_congr_left (by omega)

/-- The largest number of a list. -/
def highest (A : List UInt64) : Nat := A.foldr (fun s n => max s.toNat n) 0

theorem accept_highest {w w' : ReplayWindow} {A : List UInt64} {s : UInt64}
    (h : w.high.toNat = highest A) (ha : w.accept s = some w') :
    w'.high.toNat = highest (s :: A) := by
  show w'.high.toNat = max s.toNat (highest A)
  unfold ReplayWindow.accept at ha
  split at ha
  · exact absurd ha (by simp)
  split at ha
  · rename_i hnew
    injection ha with ha
    subst ha
    have hlt : w.high.toNat < s.toNat := UInt64.lt_iff_toNat_lt.mp hnew
    show s.toNat = _
    omega
  · rename_i hold
    have hle : s.toNat ≤ w.high.toNat := UInt64.le_iff_toNat_le.mp (UInt64.not_lt.mp hold)
    simp only at ha
    split at ha
    · exact absurd ha (by simp)
    split at ha
    · exact absurd ha (by simp)
    · injection ha with ha
      subst ha
      show w.high.toNat = _
      omega

/-- A window accepts a number exactly if it is above all accepted ones, or among the 64 last
ones and not accepted yet. -/
theorem Tracks.accept_iff {w : ReplayWindow} {A : List UInt64} (h : w.Tracks A) (s : UInt64) :
    (w.accept s).isSome = true ↔
      s ≠ 0 ∧ (w.high.toNat < s.toNat ∨ (w.high.toNat - s.toNat < 64 ∧ s ∉ A)) := by
  unfold ReplayWindow.accept
  by_cases hzero : s = 0
  · simp [hzero]
  rw [if_neg hzero]
  by_cases hnew : w.high < s
  · rw [if_pos hnew]
    simp [hzero, UInt64.lt_iff_toNat_lt.mp hnew]
  rw [if_neg hnew]
  have hle : s.toNat ≤ w.high.toNat := UInt64.le_iff_toNat_le.mp (UInt64.not_lt.mp hnew)
  have hage : (w.high - s).toNat = w.high.toNat - s.toNat :=
    UInt64.toNat_sub_of_le _ _ (UInt64.le_iff_toNat_le.mpr hle)
  have hfar : 64 ≤ w.high - s ↔ 64 ≤ w.high.toNat - s.toNat := by
    rw [UInt64.le_iff_toNat_le, hage]
    rfl
  dsimp only
  by_cases hold : 64 ≤ w.high.toNat - s.toNat
  · rw [if_pos (hfar.mpr hold)]
    simp only [Option.isSome_none, Bool.false_eq_true, false_iff, not_and, not_or]
    omega
  · rw [if_neg (fun hc => hold (hfar.mp hc))]
    have hnear : (w.high - s).toNat < 64 := by omega
    -- the bit of an age is set exactly for the accepted number of that age
    have hmem : w.seen (w.high - s).toNat = true ↔ s ∈ A := by
      rw [h.bits _ hnear]
      constructor
      · rintro ⟨t, ht, hsum⟩
        have hts : t = s := UInt64.toNat_inj.mp (by omega)
        exact hts ▸ ht
      · intro hs
        exact ⟨s, hs, by omega⟩
    by_cases hmask : w.bitmap &&& ((1 : UInt64) <<< (w.high - s)) ≠ 0
    · rw [if_pos hmask]
      have hs : s ∈ A := hmem.mp ((seen_iff_mask w hnear).mpr hmask)
      simp only [Option.isSome_none, Bool.false_eq_true, false_iff, not_and, not_or]
      exact fun _ => ⟨by omega, fun _ hno => hno hs⟩
    · rw [if_neg hmask]
      have hs : s ∉ A := fun hs => hmask ((seen_iff_mask w hnear).mp (hmem.mpr hs))
      simp only [Option.isSome_some, true_iff]
      exact ⟨hzero, .inr ⟨by omega, hs⟩⟩

theorem accept_high_le {w w' : ReplayWindow} {s : UInt64} (h : w.accept s = some w') :
    w.high.toNat ≤ w'.high.toNat := by
  unfold ReplayWindow.accept at h
  split at h
  · exact absurd h (by simp)
  split at h
  · rename_i hnew
    injection h with h
    subst h
    exact Nat.le_of_lt (UInt64.lt_iff_toNat_lt.mp hnew)
  · simp only at h
    split at h
    · exact absurd h (by simp)
    split at h
    · exact absurd h (by simp)
    · injection h with h
      subst h
      exact Nat.le_refl _

/-- What is accepted next was acceptable before. -/
theorem Tracks.accept_before {w w' : ReplayWindow} {A : List UInt64} {s t : UInt64} (h : w.Tracks A)
    (ha : w.accept s = some w') (ht : (w'.accept t).isSome = true) :
    (w.accept t).isSome = true ∧ t ≠ s := by
  obtain ⟨-, htracks⟩ := h.accept ha
  have hhigh := accept_high_le ha
  obtain ⟨hzero, hnew⟩ := (htracks.accept_iff t).mp ht
  have hle := htracks.le s List.mem_cons_self
  rw [h.accept_iff]
  rcases hnew with habove | ⟨hnear, hmem⟩
  · refine ⟨⟨hzero, .inl (by omega)⟩, ?_⟩
    rintro rfl
    omega
  · rw [List.mem_cons, not_or] at hmem
    obtain ⟨hne, hmem⟩ := hmem
    refine ⟨⟨hzero, ?_⟩, hne⟩
    by_cases habove : w.high.toNat < t.toNat
    · exact .inl habove
    · exact .inr ⟨by omega, hmem⟩

end ReplayWindow

end Ctunnel.Lib
