import Ctunnel.Lib.BigEndian

/-!
# Folding a byte string block by block

`foldBlocks n f k s bs` feeds the first `k` blocks of `n` bytes of `bs` to the
step `f`, as a loop over a buffer does. A fold is taken apart at any block
(`foldBlocks_add`), bytes behind the blocks do not count (`foldBlocks_append`), and
a step that another one simulates folds to a simulated state.
-/

namespace Ctunnel.Lib

variable {σ : Type}

/-- The first `k` blocks of `n` bytes. -/
def foldBlocks (n : Nat) (f : σ → Bytes → σ) : Nat → σ → Bytes → σ
  | 0, s, _ => s
  | k + 1, s, bs => foldBlocks n f k (f s (bs.take n)) (bs.drop n)

variable {n : Nat} {f : σ → Bytes → σ}

theorem foldBlocks_succ (k : Nat) (s : σ) (bs : Bytes) :
    foldBlocks n f (k + 1) s bs = foldBlocks n f k (f s (bs.take n)) (bs.drop n) := rfl

/-- The bytes behind the blocks do not count. -/
theorem foldBlocks_append {k : Nat} {bs : Bytes} (cs : Bytes) (h : n * k ≤ bs.length) (s : σ) :
    foldBlocks n f k s (bs ++ cs) = foldBlocks n f k s bs := by
  induction k generalizing s bs with
  | zero => rfl
  | succ k ih =>
      have hn : n ≤ bs.length := Nat.le_trans (by rw [Nat.mul_succ]; omega) h
      rw [foldBlocks_succ, foldBlocks_succ, List.take_append_of_le_length hn,
        List.drop_append_of_le_length hn]
      apply ih
      rw [List.length_drop]
      rw [Nat.mul_succ] at h
      omega

theorem foldBlocks_add (j k : Nat) (s : σ) (bs : Bytes) :
    foldBlocks n f (j + k) s bs =
      foldBlocks n f k (foldBlocks n f j s bs) (bs.drop (n * j)) := by
  induction j generalizing s bs with
  | zero => simp [foldBlocks]
  | succ j ih =>
      rw [Nat.succ_add, foldBlocks_succ, ih, foldBlocks_succ, List.drop_drop, Nat.mul_succ,
        Nat.add_comm n]

/-- The last block on its own. -/
theorem foldBlocks_concat (k : Nat) (s : σ) (bs : Bytes) :
    foldBlocks n f (k + 1) s bs =
      f (foldBlocks n f k s bs) ((bs.drop (n * k)).take n) := by
  rw [foldBlocks_add]
  rfl

/-- A step that another one simulates. -/
theorem foldBlocks_simulates {τ : Type} {g : τ → Bytes → τ} {R : σ → τ → Prop}
    (hstep : ∀ s t block, block.length = n → R s t → R (f s block) (g t block))
    {k : Nat} {bs : Bytes} (h : n * k ≤ bs.length) {s : σ} {t : τ} (hR : R s t) :
    R (foldBlocks n f k s bs) (foldBlocks n g k t bs) := by
  induction k generalizing s t bs with
  | zero => exact hR
  | succ k ih =>
      rw [Nat.mul_succ] at h
      rw [foldBlocks_succ, foldBlocks_succ]
      apply ih
      · rw [List.length_drop]
        omega
      · apply hstep _ _ _ _ hR
        rw [List.length_take]
        omega

end Ctunnel.Lib
