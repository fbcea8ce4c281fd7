import Mathlib.Data.List.Infix

/-!
# Numbered sequences

The ordering argument of every channel that numbers its messages `1, 2, 3, …`
and accepts only the exact successor: if what was sent and what was accepted
are both numbered this way, and every accepted message was sent, then what was
accepted is a prefix of what was sent (`Numbered.isPrefix`).
-/

namespace Ctunnel.Lib

variable {α : Type*} {num : α → Nat}

/-- The `i`-th element (from 0) carries the number `i + 1`. -/
def Numbered (num : α → Nat) (l : List α) : Prop :=
  ∀ (i : Nat) (h : i < l.length), num (l.get ⟨i, h⟩) = i + 1

theorem Numbered.nil : Numbered num [] := by
  intro i h
  exact absurd h (Nat.not_lt_zero i)

/-- The next element carries the next number. -/
theorem Numbered.snoc {l : List α} (hl : Numbered num l) {a : α} (ha : num a = l.length + 1) :
    Numbered num (l ++ [a]) := by
  intro i h
  rcases Nat.lt_or_ge i l.length with hi | hi
  · have hget := hl i hi
    simp only [List.get_eq_getElem] at hget ⊢
    rw [List.getElem_append_left hi]
    exact hget
  · have hlast : i = l.length := by
      simp only [List.length_append, List.length_cons, List.length_nil] at h
      omega
    subst hlast
    simpa using ha

/-- What was accepted in order, and only from what was sent in order, is a
prefix of it. -/
theorem Numbered.isPrefix {sent accepted : List α} (hs : Numbered num sent)
    (ha : Numbered num accepted) (hmem : ∀ a ∈ accepted, a ∈ sent) : accepted <+: sent := by
  -- the number of an accepted element is its position, and the sent element
  -- with this number stands at the same position
  have hpos : ∀ (i : Nat) (h : i < accepted.length),
      ∃ h' : i < sent.length, sent.get ⟨i, h'⟩ = accepted.get ⟨i, h⟩ := by
    intro i h
    obtain ⟨j, hj⟩ := List.get_of_mem (hmem _ (List.get_mem accepted ⟨i, h⟩))
    have hnum : num (sent.get j) = i + 1 := hj ▸ ha i h
    have hji : j.1 = i := by
      have hsent : num (sent.get j) = j.1 + 1 := hs j.1 j.2
      omega
    subst hji
    exact ⟨j.2, hj⟩
  rw [List.prefix_iff_getElem]
  refine ⟨?_, ?_⟩
  · rcases Nat.eq_zero_or_pos accepted.length with h0 | h0
    · omega
    · obtain ⟨h', _⟩ := hpos (accepted.length - 1) (by omega)
      omega
  · intro i h
    obtain ⟨h', heq⟩ := hpos i h
    exact heq.symm

end Ctunnel.Lib
