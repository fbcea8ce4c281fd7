import Mathlib.Algebra.BigOperators.Group.Finset.Piecewise
import Mathlib.Algebra.GroupWithZero.Nat
import Mathlib.Data.List.Basic

/-!
# Levels that updates raise and lower

A level is raised and lowered by the updates of a list. `Leads` says that the list
takes it from `n` to `n'` and never takes out more than there is, so a level that
is cut off at zero is led the same way. What leads from `n` to `n'` leads from
`n + k` to `n' + k`: the parts of a sum are led one by one.
-/

namespace Ctunnel.Lib

variable {ε : Type} {up down : ε → Nat}

/-- The updates lead from the level `n` to `n'`, and none takes more than there is. -/
def Leads (up down : ε → Nat) : Nat → List ε → Nat → Prop
  | n, [], n' => n = n'
  | n, e :: es, n' => down e ≤ n ∧ Leads up down (n - down e + up e) es n'

namespace Leads

variable {n n' n'' : Nat} {es es' : List ε}

theorem refl (n : Nat) : Leads up down n [] n := rfl

theorem trans (h : Leads up down n es n') (h' : Leads up down n' es' n'') :
    Leads up down n (es ++ es') n'' := by
  induction es generalizing n with
  | nil =>
      obtain rfl : n = n' := h
      exact h'
  | cons e es ih => exact ⟨h.1, ih h.2⟩

theorem add (h : Leads up down n es n') (k : Nat) : Leads up down (n + k) es (n' + k) := by
  induction es generalizing n with
  | nil =>
      obtain rfl : n = n' := h
      exact .refl _
  | cons e es ih =>
      obtain ⟨hle, hrest⟩ := h
      refine ⟨Nat.le_trans hle (Nat.le_add_right n k), ?_⟩
      have heq : n + k - down e + up e = n - down e + up e + k := by omega
      rw [heq]
      exact ih hrest

theorem still (h : ∀ e ∈ es, up e = 0 ∧ down e = 0) (n : Nat) : Leads up down n es n := by
  induction es generalizing n with
  | nil => exact .refl n
  | cons e es ih =>
      obtain ⟨hup, hdown⟩ := h e List.mem_cons_self
      refine ⟨by omega, ?_⟩
      have heq : n - down e + up e = n := by omega
      rw [heq]
      exact ih (fun e' he' => h e' (List.mem_cons_of_mem e he')) n

/-- Entries that change one after the other. -/
theorem flatMap {α : Type} {l : List α} {weight weight' : α → Nat} {f : α → List ε}
    (h : ∀ x ∈ l, Leads up down (weight x) (f x) (weight' x)) :
    Leads up down (l.map weight).sum (l.flatMap f) (l.map weight').sum := by
  induction l with
  | nil => exact .refl 0
  | cons x l ih =>
      have hfirst := (h x List.mem_cons_self).add (l.map weight).sum
      have hrest := (ih fun y hy => h y (List.mem_cons_of_mem x hy)).add (weight' x)
      rw [Nat.add_comm, Nat.add_comm _ (weight' x)] at hrest
      rw [List.map_cons, List.sum_cons, List.map_cons, List.sum_cons, List.flatMap_cons]
      exact hfirst.trans hrest

theorem flatMap_range {n : Nat} {weight weight' : Nat → Nat} {f : Nat → List ε}
    (h : ∀ i < n, Leads up down (weight i) (f i) (weight' i)) :
    Leads up down (∑ i ∈ Finset.range n, weight i) ((List.range n).flatMap f)
      (∑ i ∈ Finset.range n, weight' i) := by
  have hsum : ∀ w : Nat → Nat, ∑ i ∈ Finset.range n, w i = ((List.range n).map w).sum :=
    fun _ => rfl
  rw [hsum, hsum]
  exact .flatMap fun i hi => h i (List.mem_range.mp hi)

end Leads

/-! ## One part of a sum -/

/-- A sum over a table, as a function of one of its entries. -/
theorem sum_range_update {α : Type} {n i : Nat} (hi : i < n) (table : Nat → α) (f : α → Nat) :
    ∃ rest, ∀ a, ∑ j ∈ Finset.range n, f (Function.update table i a j) = f a + rest := by
  refine ⟨∑ j ∈ Finset.range n \ {i}, f (table j), fun a => ?_⟩
  have hcomp : (fun j => f (Function.update table i a j)) =
      Function.update (fun j => f (table j)) i (f a) := by
    funext j
    by_cases hj : j = i
    · rw [hj, Function.update_self, Function.update_self]
    · rw [Function.update_of_ne hj, Function.update_of_ne hj]
  rw [hcomp, Finset.sum_update_of_mem (Finset.mem_range.mpr hi)]

end Ctunnel.Lib
