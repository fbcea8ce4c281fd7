import Mathlib.Data.List.Count
import Mathlib.Data.List.Nodup
import Mathlib.Logic.Function.Basic

/-!
# A table shared by owners with limits

Of the first `n` slots of a table each is free or has an owner. `held` counts the
slots of one owner and `taken` all of them; an owner `Within` its limit stays so
whenever a free slot is given to an owner whose limit exceeds the number of all
taken slots, and whenever slots are freed.
-/

namespace Ctunnel.Lib

variable {κ : Type} [DecidableEq κ] {n : Nat} {owner : Nat → Option κ}

/-- The slots of the owner `k`. -/
def held (n : Nat) (owner : Nat → Option κ) (k : κ) : Nat :=
  (List.range n).countP fun i => owner i == some k

/-- The slots of the other owners. -/
def heldByOthers (n : Nat) (owner : Nat → Option κ) (k : κ) : Nat :=
  (List.range n).countP fun i => (owner i).isSome && owner i != some k

/-- The slots that are not free. -/
def taken (n : Nat) (owner : Nat → Option κ) : Nat :=
  (List.range n).countP fun i => (owner i).isSome

theorem taken_eq (n : Nat) (owner : Nat → Option κ) (k : κ) :
    taken n owner = held n owner k + heldByOthers n owner k := by
  unfold taken held heldByOthers
  induction List.range n with
  | nil => rfl
  | cons i rest ih =>
      simp only [List.countP_cons, ih]
      by_cases hk : owner i = some k
      · simp [hk]
        omega
      · cases howner : owner i with
        | none => simp
        | some k' =>
            rw [howner] at hk
            simp only [Option.isSome_some, if_true, beq_iff_eq, hk, if_false, Bool.true_and,
              bne_iff_ne, ne_eq, not_false_eq_true]
            omega

omit [DecidableEq κ] in
/-- All slots are taken. -/
theorem taken_full : taken n owner = n ↔ ∀ i < n, (owner i).isSome = true := by
  have hlen : taken n owner = (List.range n).length ↔ ∀ i ∈ List.range n, (owner i).isSome = true :=
    List.countP_eq_length
  simpa using hlen

theorem held_le_taken (n : Nat) (owner : Nat → Option κ) (k : κ) :
    held n owner k ≤ taken n owner := by
  rw [taken_eq n owner k]
  exact Nat.le_add_right _ _

theorem countP_or_le {α : Type} (p q : α → Bool) (l : List α) :
    l.countP (fun x => p x || q x) ≤ l.countP p + l.countP q := by
  induction l with
  | nil => simp
  | cons x rest ih =>
      simp only [List.countP_cons]
      cases p x <;> cases q x <;> simp <;> omega

/-- A slot is given to `k`. -/
theorem held_update (n : Nat) (owner : Nat → Option κ) (i : Nat) (k k' : κ) :
    held n (Function.update owner i (some k)) k' ≤ held n owner k' + if k = k' then 1 else 0 := by
  by_cases hk : k = k'
  · rw [if_pos hk]
    have hone : (List.range n).countP (fun j => j == i) ≤ 1 :=
      List.nodup_iff_count_le_one.mp List.nodup_range i
    refine Nat.le_trans (List.countP_mono_left fun j _ hj => ?_)
      (Nat.le_trans (countP_or_le (fun j => owner j == some k') (· == i) _)
        (Nat.add_le_add_left hone _))
    by_cases hji : j = i
    · simp only [hji, beq_self_eq_true, Bool.or_true]
    · rw [Function.update_of_ne hji] at hj
      simp only [hj, Bool.true_or]
  · rw [if_neg hk, Nat.add_zero]
    refine List.countP_mono_left fun j _ hj => ?_
    by_cases hji : j = i
    · subst hji
      rw [Function.update_self, beq_iff_eq, Option.some.injEq] at hj
      exact absurd hj hk
    · rwa [Function.update_of_ne hji] at hj

/-- Slots are freed, and no slot changes its owner. -/
theorem held_free {owner' : Nat → Option κ} (h : ∀ i, owner' i = owner i ∨ owner' i = none)
    (k : κ) : held n owner' k ≤ held n owner k := by
  refine List.countP_mono_left fun i _ hi => ?_
  obtain hsame | hnone := h i
  · rwa [hsame] at hi
  · rw [hnone] at hi
    exact absurd hi (by simp)

/-- Every owner is within its limit. -/
def Within (n : Nat) (limit : κ → Nat) (owner : Nat → Option κ) : Prop :=
  ∀ k, held n owner k ≤ limit k

theorem Within.free {limit : κ → Nat} {owner' : Nat → Option κ} (hw : Within n limit owner)
    (h : ∀ i, owner' i = owner i ∨ owner' i = none) : Within n limit owner' :=
  fun k => Nat.le_trans (held_free h k) (hw k)

/-- A slot may go to an owner whose limit is above the number of all taken slots. -/
theorem Within.give {limit : κ → Nat} (hw : Within n limit owner) (i : Nat) {k : κ}
    (hroom : taken n owner < limit k) : Within n limit (Function.update owner i (some k)) := by
  intro k'
  have hstep := held_update n owner i k k'
  by_cases hk : k = k'
  · subst hk
    rw [if_pos rfl] at hstep
    have hown := held_le_taken n owner k
    omega
  · rw [if_neg hk] at hstep
    exact Nat.le_trans hstep (hw k')

theorem Within.empty {limit : κ → Nat} (h : ∀ i, owner i = none) : Within n limit owner := by
  intro k
  have hzero : held n owner k = 0 := List.countP_eq_zero.mpr fun i _ => by simp [h i]
  omega

end Ctunnel.Lib
