import Ctunnel.Lib.Traced
import Mathlib.Data.List.Pairwise
import Mathlib.Logic.Function.Basic

/-!
# Interleaved machines

Any number of machines that share no state, one per index, run in an arbitrary
order. The trace of the whole says which machine performed which effect, and
each machine's part of it (`ofMachine`) is the trace of that machine run alone
(`runs_interleave`): a result about every run of one machine holds of its part
of every interleaving.
-/

namespace Ctunnel.Lib

variable {κ ε σ ι : Type} [DecidableEq κ]

/-- One call of the machine `k`, as a call of the whole. -/
def interleave (op : κ → ι → σ → Outcome ε σ) (c : κ × ι) (s : κ → σ) :
    Outcome (κ × ε) (κ → σ) :=
  let o := op c.1 c.2 (s c.1)
  ⟨Function.update s c.1 o.state, o.ok, o.effects.map fun e => (c.1, e)⟩

/-- The entries that belong to machine `k`. -/
def ofMachine {α : Type} (k : κ) (l : List (κ × α)) : List α :=
  l.filterMap fun x => if x.1 = k then some x.2 else none

theorem mem_ofMachine {α : Type} {k : κ} {l : List (κ × α)} {a : α} :
    a ∈ ofMachine k l ↔ (k, a) ∈ l := by
  simp only [ofMachine, List.mem_filterMap, Prod.exists]
  constructor
  · rintro ⟨k', a', hmem, heq⟩
    split at heq
    · rename_i hk
      injection heq with ha
      exact hk ▸ ha ▸ hmem
    · exact absurd heq (by simp)
  · intro hmem
    exact ⟨k, a, hmem, by simp⟩

private theorem ofMachine_append {α : Type} (k : κ) (l l' : List (κ × α)) :
    ofMachine k (l ++ l') = ofMachine k l ++ ofMachine k l' :=
  List.filterMap_append ..

private theorem ofMachine_map_self {α : Type} (k : κ) (l : List α) :
    ofMachine k (l.map fun a => (k, a)) = l := by
  simp [ofMachine, List.filterMap_map]

private theorem ofMachine_map_other {α : Type} {k k' : κ} (h : k' ≠ k) (l : List α) :
    ofMachine k (l.map fun a => (k', a)) = [] := by
  simp [ofMachine, List.filterMap_map, h]

/-- In every interleaving each machine does what it does alone. -/
theorem runs_interleave (op : κ → ι → σ → Outcome ε σ) (k : κ) (s : κ → σ)
    (cs : List (κ × ι)) :
    (runs (interleave op) s cs).1 k = (runs (op k) (s k) (ofMachine k cs)).1 ∧
      ofMachine k (runs (interleave op) s cs).2 = (runs (op k) (s k) (ofMachine k cs)).2 := by
  induction cs generalizing s with
  | nil => exact ⟨rfl, rfl⟩
  | cons c cs ih =>
      obtain ⟨k', i⟩ := c
      obtain ⟨hstate, htrace⟩ := ih (Function.update s k' (op k' i (s k')).state)
      by_cases hk : k' = k
      · subst hk
        have hcs : ofMachine k' ((k', i) :: cs) = i :: ofMachine k' cs := by simp [ofMachine]
        rw [Function.update_self] at hstate htrace
        rw [hcs]
        refine ⟨hstate, ?_⟩
        simp only [runs, interleave, ofMachine_append, ofMachine_map_self]
        rw [htrace]
      · have hcs : ofMachine k ((k', i) :: cs) = ofMachine k cs := by simp [ofMachine, hk]
        rw [Function.update_of_ne (Ne.symm hk)] at hstate htrace
        rw [hcs]
        refine ⟨hstate, ?_⟩
        simp only [runs, interleave, ofMachine_append, ofMachine_map_other hk, List.nil_append]
        exact htrace

/-- A side condition that the calls of every machine meet in an interleaving is met by the
machine alone. -/
theorem along_interleave {op : κ → ι → σ → Outcome ε σ} {C : κ → σ → ι → Prop} (k : κ)
    {s : κ → σ} {cs : List (κ × ι)}
    (h : Along (interleave op) (fun s c => C c.1 (s c.1) c.2) s cs) :
    Along (op k) (C k) (s k) (ofMachine k cs) := by
  induction cs generalizing s with
  | nil => exact trivial
  | cons c cs ih =>
      obtain ⟨k', i⟩ := c
      have hrest := ih h.2
      by_cases hk : k' = k
      · subst hk
        have hcs : ofMachine k' ((k', i) :: cs) = i :: ofMachine k' cs := by simp [ofMachine]
        have hself : (interleave op (k', i) s).state k' = (op k' i (s k')).state :=
          Function.update_self ..
        rw [hself] at hrest
        rw [hcs]
        exact ⟨h.1, hrest⟩
      · have hcs : ofMachine k ((k', i) :: cs) = ofMachine k cs := by simp [ofMachine, hk]
        have hother : (interleave op (k', i) s).state k = s k := Function.update_of_ne (Ne.symm hk) _ _
        rw [hother] at hrest
        rw [hcs]
        exact hrest

/-! ## Images that occur once -/

/-- Two elements with one image are one, if no image occurs twice. -/
theorem eq_of_filterMap_nodup {α β : Type} {f : α → Option β} {l : List α} {a a' : α} {y : β}
    (h : (l.filterMap f).Nodup) (ha : a ∈ l) (ha' : a' ∈ l) (hfa : f a = some y)
    (hfa' : f a' = some y) : a = a' := by
  by_contra hne
  have hsymm : Std.Symm fun c c' : α => ∀ z, f c = some z → ∀ z', f c' = some z' → z ≠ z' :=
    ⟨fun c c' hcc z hz z' hz' heq => hcc z' hz' z hz heq.symm⟩
  exact (List.pairwise_filterMap.mp h).forall ha ha' hne y hfa y hfa' rfl

/-- What holds between any two entries of one machine holds of the whole for those. -/
theorem pairwise_ofMachine {α : Type} {R : α → α → Prop} {l : List (κ × α)}
    (h : ∀ k, (ofMachine k l).Pairwise R) : l.Pairwise fun a a' => a.1 = a'.1 → R a.2 a'.2 := by
  induction l with
  | nil => exact .nil
  | cons c l ih =>
      have hcons : ∀ k, ofMachine k (c :: l) = if c.1 = k then c.2 :: ofMachine k l else ofMachine k l := by
        intro k
        unfold ofMachine
        rw [List.filterMap_cons]
        split <;> simp_all
      refine .cons (fun a ha hk => ?_) (ih fun k => ?_)
      · have hself := h c.1
        rw [hcons, if_pos rfl] at hself
        refine (List.pairwise_cons.mp hself).1 a.2 (mem_ofMachine.mpr ?_)
        rw [hk]
        exact ha
      · have hk := h k
        rw [hcons] at hk
        split at hk
        · exact (List.pairwise_cons.mp hk).2
        · exact hk

end Ctunnel.Lib
