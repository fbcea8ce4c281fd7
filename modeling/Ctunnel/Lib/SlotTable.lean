import Mathlib.Data.List.Basic
import Mathlib.Order.Lattice

/-!
# A table of slots that evicts

A fixed number of slots, each free or holding the record of one key. A key that
has no record claims a free slot, and when there is none the slot of least
priority; the record that was there is evicted.

* `Distinct` — no key holds two slots, with the rule for one write;
* `Claims` — the slot a key may claim, with what a write there evicts;
* `leastIndex` — the first slot of least priority.
-/

namespace Ctunnel.Lib

variable {α κ π : Type}

/-- No key has two slots. -/
def Distinct (key : α → Option κ) (t : List α) : Prop :=
  ∀ (i j : Nat) (a b : α), t[i]? = some a → t[j]? = some b → key a = key b →
    (key a).isSome → i = j

/-- The slot `i` may be claimed for `k`: it holds `k`, it is free and no slot holds
`k`, or every slot holds another key and it has the least priority. -/
inductive Claims [LE π] (key : α → Option κ) (priority : α → π) (t : List α) (k : κ) (i : Nat) : Prop
  | held (a : α) (h : t[i]? = some a) (hk : key a = some k)
  | free (a : α) (h : t[i]? = some a) (hfree : key a = none) (hnew : ∀ b ∈ t, key b ≠ some k)
  | evicts (h : i < t.length) (hfull : ∀ b ∈ t, (key b).isSome)
      (hleast : ∀ a, t[i]? = some a → ∀ b ∈ t, priority a ≤ priority b)
      (hnew : ∀ b ∈ t, key b ≠ some k)

/-! ## One write -/

theorem mem_set_of_other {t : List α} {i : Nat} {a x : α} (ha : a ∈ t) (hi : t[i]? ≠ some a) :
    a ∈ t.set i x := by
  obtain ⟨j, hj⟩ := List.mem_iff_getElem?.mp ha
  have hne : i ≠ j := by
    intro heq
    subst heq
    exact hi hj
  refine List.mem_iff_getElem?.mpr ⟨j, ?_⟩
  rw [List.getElem?_set_ne hne]
  exact hj

theorem Distinct.replicate {key : α → Option κ} {a : α} (h : key a = none) (n : Nat) :
    Distinct key (List.replicate n a) := by
  intro i j b c hb hc heq hsome
  have hmem : b ∈ List.replicate n a := List.mem_of_getElem? hb
  rw [List.eq_of_mem_replicate hmem, h] at hsome
  cases hsome

/-- A write keeps the keys distinct when no other slot holds the key written. -/
theorem Distinct.set {key : α → Option κ} {t : List α} (h : Distinct key t) {i : Nat} {x : α}
    (hx : (key x).isSome → ∀ j b, t[j]? = some b → key b = key x → j = i) :
    Distinct key (t.set i x) := by
  intro j k a b ha hb heq hsome
  rw [List.getElem?_set] at ha hb
  by_cases hij : i = j
  · by_cases hik : i = k
    · rw [← hij, ← hik]
    · rw [if_pos hij] at ha
      rw [if_neg hik] at hb
      split at ha
      · injection ha with ha
        subst ha
        rw [← hij]
        exact (hx hsome k b hb heq.symm).symm
      · cases ha
  · rw [if_neg hij] at ha
    by_cases hik : i = k
    · rw [if_pos hik] at hb
      split at hb
      · injection hb with hb
        subst hb
        rw [← hik]
        exact hx (heq ▸ hsome) j a ha heq
      · cases hb
    · rw [if_neg hik] at hb
      exact h j k a b ha hb heq hsome

/-- Two records of a key are one. -/
theorem Distinct.eq {key : α → Option κ} {t : List α} (h : Distinct key t) {a b : α} {k : κ}
    (ha : a ∈ t) (hb : b ∈ t) (hka : key a = some k) (hkb : key b = some k) : a = b := by
  obtain ⟨i, hi⟩ := List.mem_iff_getElem?.mp ha
  obtain ⟨j, hj⟩ := List.mem_iff_getElem?.mp hb
  have hij := h i j a b hi hj (hka.trans hkb.symm) (by rw [hka]; rfl)
  subst hij
  exact Option.some.inj (hi.symm.trans hj)

section Claims

variable [LE π] {key : α → Option κ} {priority : α → π} {t : List α} {k : κ} {i : Nat}

theorem Claims.lt (h : Claims key priority t k i) : i < t.length := by
  cases h with
  | held a h _ => exact (List.getElem?_eq_some_iff.mp h).1
  | free a h _ _ => exact (List.getElem?_eq_some_iff.mp h).1
  | evicts h _ _ _ => exact h

/-- The claimed slot is the only one that may hold the key. -/
theorem Claims.only (h : Claims key priority t k i) (hd : Distinct key t) {j : Nat} {b : α}
    (hb : t[j]? = some b) (hk : key b = some k) : j = i := by
  cases h with
  | held a ha hka => exact hd j i b a hb ha (hk.trans hka.symm) (by rw [hk]; rfl)
  | free _ _ _ hnew => exact absurd hk (hnew b (List.mem_of_getElem? hb))
  | evicts _ _ _ hnew => exact absurd hk (hnew b (List.mem_of_getElem? hb))

/-- Writing a record of the key, or a free record, to the claimed slot keeps the
keys distinct. -/
theorem Claims.distinct (h : Claims key priority t k i) (hd : Distinct key t) {x : α}
    (hx : ∀ k', key x = some k' → k' = k) : Distinct key (t.set i x) := by
  refine hd.set fun hsome j b hb heq => ?_
  obtain ⟨k', hk'⟩ := Option.isSome_iff_exists.mp hsome
  have hk : k' = k := hx k' hk'
  subst hk
  exact h.only hd hb (heq.trans hk')

/-- A record of another key that a write to the claimed slot removes had the least
priority of a full table. -/
theorem Claims.evicted (h : Claims key priority t k i) {a x : α} {k' : κ} (ha : a ∈ t)
    (hka : key a = some k') (hne : k' ≠ k) (hgone : a ∉ t.set i x) :
    ∀ b ∈ t, (key b).isSome ∧ priority a ≤ priority b := by
  have hi : t[i]? = some a := by
    by_contra hi
    exact hgone (mem_set_of_other ha hi)
  cases h with
  | held c hc hkc =>
      rw [hi] at hc
      injection hc with hc
      subst hc
      rw [hka] at hkc
      exact absurd (Option.some.inj hkc) hne
  | free c hc hfree _ =>
      rw [hi] at hc
      injection hc with hc
      subst hc
      rw [hka] at hfree
      cases hfree
  | evicts _ hfull hleast _ => exact fun b hb => ⟨hfull b hb, hleast a hi b hb⟩

end Claims

/-! ## The slot of least priority -/

/-- The first index of least priority, found by one scan. -/
def leastIndex [LT π] [DecidableLT π] (priority : Nat → π) (n : Nat) : Nat :=
  (List.range n).foldl (fun least i => if priority i < priority least then i else least) 0

theorem leastIndex_succ [LT π] [DecidableLT π] (priority : Nat → π) (n : Nat) :
    leastIndex priority (n + 1) =
      if priority n < priority (leastIndex priority n) then n else leastIndex priority n := by
  unfold leastIndex
  rw [List.range_succ, List.foldl_append]
  rfl

theorem leastIndex_lt [LT π] [DecidableLT π] (priority : Nat → π) {n : Nat} (hn : 0 < n) :
    leastIndex priority n < n := by
  induction n with
  | zero => cases hn
  | succ n ih =>
      rw [leastIndex_succ]
      split
      · exact Nat.lt_succ_self n
      · rcases Nat.eq_zero_or_pos n with hzero | hpos
        · subst hzero
          exact Nat.zero_lt_one
        · exact Nat.lt_succ_of_lt (ih hpos)

theorem leastIndex_le [LinearOrder π] (priority : Nat → π) {n j : Nat} (hj : j < n) :
    priority (leastIndex priority n) ≤ priority j := by
  induction n with
  | zero => cases hj
  | succ n ih =>
      rw [leastIndex_succ]
      rcases Nat.lt_succ_iff_lt_or_eq.mp hj with hlt | heq
      · have hbefore := ih hlt
        split
        · rename_i hless
          exact le_trans (le_of_lt hless) hbefore
        · exact hbefore
      · subst heq
        split
        · exact le_refl _
        · rename_i hnot
          exact not_lt.mp hnot

end Ctunnel.Lib
