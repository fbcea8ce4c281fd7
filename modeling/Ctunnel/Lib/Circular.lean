import Mathlib.Data.List.GetD

/-!
# Circular storage

A queue of at most `cells.length` elements stored in an array that wraps:
element `i` lives in cell `(head + i) % cells.length`. `blit` is the bounded
copy of a segment into an array (`memcpy`), and the three facts proved here
are what a ring buffer built from two copies and an index needs:

* `queued_write` — two copies, one up to the end of the array and one from its
  start, append to the queue;
* `queued_advance` — moving the head drops from the front;
* `segment_queued` — the two contiguous segments at the head are the front of
  the queue.
-/

namespace Ctunnel.Lib

variable {α : Type}

/-- Copy `src` over `dst` from position `off` on, staying inside `dst`. -/
def blit (dst : List α) (off : Nat) (src : List α) : List α :=
  dst.mapIdx fun i x => if off ≤ i then src.getD (i - off) x else x

@[simp] theorem blit_length (dst : List α) (off : Nat) (src : List α) :
    (blit dst off src).length = dst.length := by
  simp [blit]

theorem blit_getD (dst src : List α) (off i : Nat) (d : α) (hi : i < dst.length) :
    (blit dst off src).getD i d =
      if off ≤ i ∧ i - off < src.length then src.getD (i - off) d else dst.getD i d := by
  have hi' : i < (blit dst off src).length := by simpa using hi
  rw [List.getD_eq_getElem _ _ hi', List.getD_eq_getElem _ _ hi]
  simp only [blit, List.getElem_mapIdx]
  by_cases hoff : off ≤ i
  · by_cases hsrc : i - off < src.length
    · rw [if_pos hoff, if_pos ⟨hoff, hsrc⟩, List.getD_eq_getElem _ _ hsrc,
        List.getD_eq_getElem _ _ hsrc]
    · rw [if_pos hoff, if_neg (fun h => hsrc h.2), List.getD_eq_default _ _ (by omega)]
  · rw [if_neg hoff, if_neg (fun h => hoff h.1)]

/-- The two copies of a write: `src` from the first free cell up to the end of
the array, the rest from its start. -/
def writeCells (cells : List α) (head len : Nat) (src : List α) : List α :=
  let tail := (head + len) % cells.length
  let a := min (cells.length - tail) src.length
  blit (blit cells tail (src.take a)) 0 (src.drop a)

@[simp] theorem writeCells_length (cells : List α) (head len : Nat) (src : List α) :
    (writeCells cells head len src).length = cells.length := by
  simp [writeCells]

variable [Inhabited α]

/-- The queue of `len` elements that starts at cell `head`. -/
def queued (cells : List α) (head len : Nat) : List α :=
  (List.range len).map fun i => cells.getD ((head + i) % cells.length) default

@[simp] theorem queued_length (cells : List α) (head len : Nat) :
    (queued cells head len).length = len := by
  simp [queued]

theorem queued_getElem (cells : List α) (head len i : Nat) (hi : i < (queued cells head len).length) :
    (queued cells head len)[i] = cells.getD ((head + i) % cells.length) default := by
  simp [queued]

/-- Position of the `j`-th free cell relative to the first one. -/
private theorem wrap_index (head len : Nat) {cap j : Nat} (hcap : 0 < cap) (hj : j < cap) :
    (head + (len + j)) % cap =
      if (head + len) % cap + j < cap then (head + len) % cap + j
      else (head + len) % cap + j - cap := by
  have htail := Nat.mod_lt (head + len) hcap
  have hsplit : (head + (len + j)) % cap = ((head + len) % cap + j) % cap := by
    rw [← Nat.add_assoc, Nat.mod_add_mod]
  rw [hsplit]
  split
  · exact Nat.mod_eq_of_lt ‹_›
  · rw [Nat.mod_eq_sub_mod (by omega), Nat.mod_eq_of_lt (by omega)]

/-- Occupied and free cells are different cells. -/
private theorem wrap_ne {cap head i len j : Nat} (hi : i < len) (hj : len + j < cap) :
    (head + i) % cap ≠ (head + (len + j)) % cap := by
  intro h
  have hdvd : cap ∣ (head + (len + j)) - (head + i) :=
    Nat.dvd_of_mod_eq_zero (Nat.sub_mod_eq_zero_of_mod_eq h.symm)
  have hzero := Nat.eq_zero_of_dvd_of_lt hdvd (by omega)
  omega

/-- Which cell holds what after the two copies. -/
private theorem writeCells_getD {cells src : List α} {head len : Nat}
    (hfit : len + src.length ≤ cells.length) {j : Nat} (hj : j < src.length) :
    (writeCells cells head len src).getD ((head + (len + j)) % cells.length) default =
      src.getD j default := by
  have hcap : 0 < cells.length := by omega
  have htail := Nat.mod_lt (head + len) hcap
  have hidx := wrap_index head len hcap (by omega : j < cells.length)
  simp only [writeCells]
  rw [hidx, blit_getD _ _ _ _ _ (by rw [blit_length]; split <;> omega)]
  simp only [Nat.zero_le, Nat.sub_zero, true_and, List.length_drop]
  by_cases hin : (head + len) % cells.length + j < cells.length
  · -- before the end of the array: the first copy put it there
    rw [if_pos hin]
    have hmin : j < min (cells.length - (head + len) % cells.length) src.length := by omega
    rw [if_neg (by omega), blit_getD _ _ _ _ _ (by omega)]
    rw [if_pos ⟨by omega, by rw [List.length_take]; omega⟩]
    rw [Nat.add_sub_cancel_left, List.getD_eq_getElem _ _ (by rw [List.length_take]; omega),
      List.getD_eq_getElem _ _ hj, List.getElem_take]
  · -- wrapped: the second copy put it there
    rw [if_neg hin]
    have hmin : min (cells.length - (head + len) % cells.length) src.length =
        cells.length - (head + len) % cells.length := by omega
    rw [hmin, if_pos (by omega)]
    rw [List.getD_eq_getElem _ _ (by rw [List.length_drop]; omega),
      List.getD_eq_getElem _ _ hj, List.getElem_drop]
    congr 1
    omega

/-- A cell outside the written region keeps its content. -/
private theorem writeCells_getD_old {cells src : List α} {head len : Nat}
    (hfit : len + src.length ≤ cells.length) {i : Nat} (hi : i < len) :
    (writeCells cells head len src).getD ((head + i) % cells.length) default =
      cells.getD ((head + i) % cells.length) default := by
  have hcap : 0 < cells.length := by omega
  have htail := Nat.mod_lt (head + len) hcap
  have hpos := Nat.mod_lt (head + i) hcap
  -- no written position is the position of an occupied cell
  have hfree : ∀ j, j < src.length →
      (head + i) % cells.length ≠ (head + (len + j)) % cells.length :=
    fun j hj => wrap_ne hi (by omega)
  simp only [writeCells]
  rw [blit_getD _ _ _ _ _ (by rw [blit_length]; exact hpos)]
  simp only [Nat.zero_le, Nat.sub_zero, true_and, List.length_drop]
  have hsecond : ¬ (head + i) % cells.length <
      src.length - min (cells.length - (head + len) % cells.length) src.length := by
    intro hlt
    have hj := hfree ((head + i) % cells.length + (cells.length - (head + len) % cells.length))
      (by omega)
    rw [wrap_index _ _ hcap (by omega)] at hj
    rw [if_neg (by omega)] at hj
    omega
  rw [if_neg hsecond, blit_getD _ _ _ _ _ hpos]
  have hfirst : ¬ ((head + len) % cells.length ≤ (head + i) % cells.length ∧
      (head + i) % cells.length - (head + len) % cells.length <
        (src.take (min (cells.length - (head + len) % cells.length) src.length)).length) := by
    rintro ⟨hle, hlt⟩
    rw [List.length_take] at hlt
    have hj := hfree ((head + i) % cells.length - (head + len) % cells.length) (by omega)
    rw [wrap_index _ _ hcap (by omega)] at hj
    rw [if_pos (by omega)] at hj
    omega
  rw [if_neg hfirst]

/-- A write that fits appends to the queue. -/
theorem queued_write {cells src : List α} (head : Nat) {len : Nat}
    (hfit : len + src.length ≤ cells.length) :
    queued (writeCells cells head len src) head (len + src.length) =
      queued cells head len ++ src := by
  apply List.ext_getElem
  · simp
  · intro i hi hi'
    rw [queued_getElem, writeCells_length]
    by_cases hold : i < len
    · rw [List.getElem_append_left (by simpa using hold), queued_getElem]
      exact writeCells_getD_old hfit hold
    · obtain ⟨j, rfl⟩ : ∃ j, i = len + j := ⟨i - len, by omega⟩
      have hj : j < src.length := by
        simp only [queued_length] at hi
        omega
      rw [List.getElem_append_right (by simp), writeCells_getD hfit hj,
        List.getD_eq_getElem _ _ hj]
      simp

/-- Moving the head drops from the front. -/
theorem queued_advance (cells : List α) (head len n : Nat) :
    queued cells ((head + n) % cells.length) (len - n) = (queued cells head len).drop n := by
  apply List.ext_getElem
  · simp
  · intro i hi hi'
    rw [queued_getElem, List.getElem_drop, queued_getElem, Nat.mod_add_mod, Nat.add_assoc]

/-- The two segments at the head, read in order, are the front of the queue. -/
theorem segment_queued {cells : List α} {head len n : Nat} (hhead : head < cells.length)
    (hlen : len ≤ cells.length) (hn : n ≤ len) :
    ((cells.drop head).take (min (cells.length - head) n)) ++
        cells.take (n - min (cells.length - head) n) = (queued cells head len).take n := by
  apply List.ext_getElem
  · simp only [List.length_append, List.length_take, List.length_drop, queued_length]
    omega
  · intro i hi hi'
    have hi'' : i < n := by
      simp only [List.length_take, queued_length] at hi'
      omega
    rw [List.getElem_take, queued_getElem]
    by_cases hin : i < min (cells.length - head) n
    · rw [List.getElem_append_left (by rw [List.length_take, List.length_drop]; omega),
        List.getElem_take, List.getElem_drop]
      rw [Nat.mod_eq_of_lt (by omega), List.getD_eq_getElem _ _ (by omega)]
    · rw [List.getElem_append_right (by rw [List.length_take, List.length_drop]; omega),
        List.getElem_take]
      have hwrap : (head + i) % cells.length = head + i - cells.length := by
        rw [Nat.mod_eq_sub_mod (by omega), Nat.mod_eq_of_lt (by omega)]
      rw [hwrap, List.getD_eq_getElem _ _ (by omega)]
      congr 1
      rw [List.length_take, List.length_drop]
      omega

end Ctunnel.Lib
