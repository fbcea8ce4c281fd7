import Mathlib.Data.List.Perm.Basic

/-!
# Removal that does not keep the order

The entry at an index is overwritten with the last one, and the list gets shorter
by one; a sweep removes every expired entry in this way. Neither invents nor
duplicates an entry.
-/

namespace Ctunnel.Lib

variable {α : Type}

/-- `a[i] = a[--n]`. -/
def swapRemove (l : List α) (i : Nat) : List α :=
  match l.getLast? with
  | some last => (l.set i last).dropLast
  | none => l

theorem swapRemove_concat (l : List α) (last : α) (i : Nat) :
    swapRemove (l ++ [last]) i = l.set i last := by
  unfold swapRemove
  rw [List.getLast?_concat]
  simp only
  by_cases hi : i < l.length
  · rw [List.set_append_left _ _ hi, List.dropLast_concat]
  · rw [List.set_eq_of_length_le (l := l) (by omega)]
    by_cases heq : i = l.length
    · subst heq
      simp
    · rw [List.set_eq_of_length_le (by simp; omega), List.dropLast_concat]

theorem swapRemove_perm {l : List α} {i : Nat} {a : α} (h : l[i]? = some a) :
    List.Perm l (a :: swapRemove l i) := by
  rcases List.eq_nil_or_concat l with rfl | ⟨front, last, rfl⟩
  · simp at h
  · rw [List.concat_eq_append] at h ⊢
    rw [swapRemove_concat]
    rcases Nat.lt_or_ge i front.length with hi | hi
    · rw [List.getElem?_append_left hi, List.getElem?_eq_getElem hi] at h
      injection h with h
      subst h
      have hset : List.Perm (front.set i last) (last :: front.eraseIdx i) :=
        List.set_perm_cons_eraseIdx hi last
      have hget : List.Perm front (front[i] :: front.eraseIdx i) :=
        (List.getElem_cons_eraseIdx_perm hi).symm
      calc List.Perm (front ++ [last]) (last :: front) := List.perm_append_singleton last front
        _ |>.Perm (last :: front[i] :: front.eraseIdx i) := hget.cons last
        _ |>.Perm _ := List.Perm.swap _ _ _
        _ |>.Perm _ := (hset.symm).cons _
    · have hlast : i = front.length := by
        have := (List.getElem?_eq_some_iff.mp h).1
        simp at this
        omega
      subst hlast
      simp at h
      subst h
      rw [List.set_eq_of_length_le (Nat.le_refl _)]
      exact List.perm_append_singleton _ _

theorem swapRemove_length {l : List α} {i : Nat} {a : α} (h : l[i]? = some a) :
    (swapRemove l i).length + 1 = l.length := by
  have hlen := (swapRemove_perm h).length_eq
  simp only [List.length_cons] at hlen
  omega

/-- What the entry was changed to before is gone. -/
theorem swapRemove_modify (l : List α) (i : Nat) (f : α → α) :
    swapRemove (l.modify i f) i = swapRemove l i := by
  rcases List.eq_nil_or_concat l with rfl | ⟨front, last, rfl⟩
  · rw [List.modify_nil]
  · rw [List.concat_eq_append]
    rcases Nat.lt_trichotomy i front.length with hi | rfl | hi
    · have hfront : (front ++ [last]).modify i f = front.modify i f ++ [last] := by
        refine List.ext_getElem? fun j => ?_
        grind
      rw [hfront, swapRemove_concat, swapRemove_concat]
      refine List.ext_getElem? fun j => ?_
      simp only [List.getElem?_set, List.length_modify, List.getElem?_modify]
      split <;> simp_all
    · have hlast : (front ++ [last]).modify front.length f = front ++ [f last] := by
        refine List.ext_getElem? fun j => ?_
        grind
      rw [hlast, swapRemove_concat, swapRemove_concat]
      rw [List.set_eq_of_length_le (Nat.le_refl _), List.set_eq_of_length_le (Nat.le_refl _)]
    · rw [List.modify_eq_self (by simp; omega)]

theorem swapRemove_subperm (l : List α) (i : Nat) : List.Subperm (swapRemove l i) l := by
  rcases List.eq_nil_or_concat l with rfl | ⟨front, last, rfl⟩
  · exact List.Subperm.refl _
  · cases hget : (front.concat last)[i]? with
    | some a => exact (List.sublist_cons_self a _).subperm.trans (swapRemove_perm hget).symm.subperm
    | none =>
        rw [List.concat_eq_append] at hget ⊢
        rw [List.getElem?_eq_none_iff, List.length_append, List.length_singleton] at hget
        rw [swapRemove_concat, List.set_eq_of_length_le (by omega)]
        exact (List.sublist_append_left front [last]).subperm

/-! ## Sweeps -/

/-- A sweep over a table whose removals move the last entry: what is left, and
the entries removed. -/
def sweepTable {α β : Type} (get : β → Nat → Option α) (remove : β → Nat → β)
    (expired : α → Bool) : (fuel i : Nat) → β → β × List α
  | 0, _, t => (t, [])
  | fuel + 1, i, t =>
      match get t i with
      | none => (t, [])
      | some a =>
          if expired a then
            let rest := sweepTable get remove expired fuel i (remove t i)
            (rest.1, a :: rest.2)
          else sweepTable get remove expired fuel (i + 1) t

/-- A sweep keeps what every removal keeps; `f` lists the effects of one. -/
theorem sweepTable_keeps {α β ε : Type} {get : β → Nat → Option α} {remove : β → Nat → β}
    {expired : α → Bool} {f : α → List ε} {I : β → List ε → Prop}
    (hremove : ∀ t tr i a, get t i = some a → I t tr → I (remove t i) (tr ++ f a))
    (fuel i : Nat) (t : β) (tr : List ε) (h : I t tr) :
    I (sweepTable get remove expired fuel i t).1
      (tr ++ (sweepTable get remove expired fuel i t).2.flatMap f) := by
  induction fuel generalizing i t tr with
  | zero => simpa [sweepTable] using h
  | succ fuel ih =>
      unfold sweepTable
      split
      · simpa using h
      · rename_i a ha
        split
        · have hrest := ih i (remove t i) (tr ++ f a) (hremove t tr i a ha h)
          simpa using hrest
        · exact ih (i + 1) t tr h

/-- A sweep over a counted array. -/
def sweepList {α : Type} (expired : α → Bool) (l : List α) : List α × List α :=
  sweepTable (fun l i => l[i]?) swapRemove expired l.length 0 l

/-- What a sweep makes of a list, front to back. -/
inductive SweptInto (expired : α → Bool) : List α → List α → Prop
  | nil : SweptInto expired [] []
  | live {a : α} {l l' : List α} (ha : expired a = false) (hrest : SweptInto expired l l') :
      SweptInto expired (a :: l) (a :: l')
  | last {a : α} (ha : expired a = true) : SweptInto expired [a] []
  /-- The last entry takes the place of an expired one, and is looked at next. -/
  | moved {a z : α} {l l' : List α} (ha : expired a = true)
      (hrest : SweptInto expired (z :: l) l') : SweptInto expired (a :: (l ++ [z])) l'

theorem sweepTable_swept (expired : α → Bool) (fuel : Nat) (done rest : List α)
    (hfuel : rest.length ≤ fuel) :
    ∃ l, SweptInto expired rest l ∧
      (sweepTable (fun l i => l[i]?) swapRemove expired fuel done.length (done ++ rest)).1 =
        done ++ l := by
  induction fuel generalizing done rest with
  | zero =>
      rw [List.eq_nil_of_length_eq_zero (Nat.le_zero.mp hfuel)]
      exact ⟨[], .nil, rfl⟩
  | succ fuel ih =>
      unfold sweepTable
      cases rest with
      | nil =>
          refine ⟨[], .nil, ?_⟩
          simp only [List.append_nil, List.getElem?_length]
      | cons a rest =>
          simp only [List.length_cons, Nat.succ_le_succ_iff] at hfuel
          have hget : (done ++ a :: rest)[done.length]? = some a := by simp
          simp only [hget]
          split
          · rename_i ha
            dsimp only
            rcases List.eq_nil_or_concat rest with rfl | ⟨front, z, rfl⟩
            · have hremove : swapRemove (done ++ [a]) done.length = done ++ [] := by
                rw [swapRemove_concat, List.set_eq_of_length_le (Nat.le_refl _), List.append_nil]
              obtain ⟨l, hl, heq⟩ := ih done [] (Nat.zero_le _)
              rw [hremove]
              cases hl
              exact ⟨[], .last ha, heq⟩
            · have hremove : swapRemove (done ++ a :: (front ++ [z])) done.length =
                  done ++ z :: front := by
                rw [show done ++ a :: (front ++ [z]) = (done ++ a :: front) ++ [z] by simp,
                  swapRemove_concat]
                simp
              rw [List.concat_eq_append] at hfuel ⊢
              rw [List.length_append, List.length_singleton] at hfuel
              obtain ⟨l, hl, heq⟩ := ih done (z :: front) (by simpa using hfuel)
              rw [hremove]
              exact ⟨l, .moved ha hl, heq⟩
          · rename_i ha
            obtain ⟨l, hl, heq⟩ := ih (done ++ [a]) rest hfuel
            refine ⟨a :: l, .live (by simpa using ha) hl, ?_⟩
            simpa using heq

theorem sweepList_swept (expired : α → Bool) (l : List α) :
    SweptInto expired l (sweepList expired l).1 := by
  obtain ⟨l', hl, heq⟩ := sweepTable_swept expired l.length [] l (Nat.le_refl _)
  rw [List.nil_append, List.length_nil, List.nil_append] at heq
  rw [sweepList, heq]
  exact hl

/-- What is not expired stays, in some order. -/
theorem SweptInto.perm {expired : α → Bool} {l l' : List α} (h : SweptInto expired l l') :
    List.Perm l' (l.filter fun a => !expired a) := by
  induction h with
  | nil => exact .nil
  | live ha hrest ih =>
      rw [List.filter_cons_of_pos (by simp [ha])]
      exact ih.cons _
  | last ha => simp [ha]
  | @moved a z l l' ha hrest ih =>
      rw [List.filter_cons_of_neg (by simp [ha])]
      exact ih.trans ((List.perm_append_singleton z l).symm.filter _)

/-- At most one entry that is not expired stands behind an expired one. -/
def OneBehind (expired : α → Bool) (l : List α) : Prop :=
  ((l.dropWhile fun a => !expired a).filter fun a => !expired a).length ≤ 1

instance (expired : α → Bool) (l : List α) : Decidable (OneBehind expired l) :=
  inferInstanceAs (Decidable (_ ≤ 1))

theorem OneBehind.cons_live {expired : α → Bool} {a : α} {l : List α} (ha : expired a = false) :
    OneBehind expired (a :: l) ↔ OneBehind expired l := by
  unfold OneBehind
  rw [List.dropWhile_cons_of_pos (by simp [ha])]

theorem OneBehind.cons_expired {expired : α → Bool} {a : α} {l : List α} (ha : expired a = true) :
    OneBehind expired (a :: l) ↔ (l.filter fun a => !expired a).length ≤ 1 := by
  unfold OneBehind
  rw [List.dropWhile_cons_of_neg (by simp [ha]), List.filter_cons_of_neg (by simp [ha])]

/-- A list without an entry to keep is in order. -/
theorem OneBehind.of_none {expired : α → Bool} {l : List α}
    (h : (l.filter fun a => !expired a) = []) : OneBehind expired l := by
  have hsub : List.Sublist ((l.dropWhile fun a => !expired a).filter fun a => !expired a)
      (l.filter fun a => !expired a) := (List.dropWhile_sublist _).filter _
  unfold OneBehind
  rw [h] at hsub
  rw [List.sublist_nil.mp hsub]
  exact Nat.zero_le _

/-- Then the order is kept. -/
theorem SweptInto.filter {expired : α → Bool} {l l' : List α} (h : SweptInto expired l l')
    (hone : OneBehind expired l) : l' = l.filter fun a => !expired a := by
  induction h with
  | nil => rfl
  | live ha hrest ih =>
      rw [List.filter_cons_of_pos (by simp [ha]), ← ih ((OneBehind.cons_live ha).mp hone)]
  | last ha => simp [ha]
  | @moved a z l l' ha hrest ih =>
      rw [OneBehind.cons_expired ha, List.filter_append, List.length_append] at hone
      rw [List.filter_cons_of_neg (by simp [ha]), List.filter_append]
      cases hz : expired z with
      | true =>
          rw [ih ((OneBehind.cons_expired hz).mpr (by omega))]
          simp [hz]
      | false =>
          simp only [hz, Bool.not_false, List.filter_cons_of_pos, List.filter_nil,
            List.length_singleton] at hone
          have hnone : (l.filter fun a => !expired a) = [] :=
            List.eq_nil_of_length_eq_zero (by omega)
          rw [ih ((OneBehind.cons_live hz).mpr (.of_none hnone)),
            List.filter_cons_of_pos (by simp [hz]), hnone]
          simp [hz]

/-- And only then, if the entries are different ones. -/
theorem SweptInto.oneBehind {expired : α → Bool} {l l' : List α} (h : SweptInto expired l l')
    (hnodup : l.Nodup) (hfilter : l' = l.filter fun a => !expired a) : OneBehind expired l := by
  induction h with
  | nil => exact .of_none rfl
  | live ha hrest ih =>
      rw [List.filter_cons_of_pos (by simp [ha]), List.cons.injEq] at hfilter
      exact (OneBehind.cons_live ha).mpr (ih (List.nodup_cons.mp hnodup).2 hfilter.2)
  | last ha => exact .of_none (by simp [ha])
  | @moved a z l l' ha hrest ih =>
      rw [OneBehind.cons_expired ha]
      rw [List.filter_cons_of_neg (by simp [ha]), List.filter_append] at hfilter
      have hdistinct : (z :: l).Nodup :=
        (List.perm_append_singleton z l).nodup_iff.mp (List.nodup_cons.mp hnodup).2
      cases hz : expired z with
      | true =>
          have hone := ih hdistinct (by simpa [hz] using hfilter)
          rw [OneBehind.cons_expired hz] at hone
          simpa [hz] using hone
      | false =>
          -- the entry that moved comes first, and was the last
          cases hrest with
          | live _ hrest =>
              cases hkept : l.filter fun a => !expired a with
              | nil => simp [hkept, hz]
              | cons y ys =>
                  rw [hkept, List.cons_append, List.cons.injEq] at hfilter
                  have hmem : y ∈ l := (List.mem_filter.mp (hkept ▸ List.mem_cons_self)).1
                  exact absurd (hfilter.1 ▸ hmem) (List.nodup_cons.mp hdistinct).1
          | last hexpired => exact absurd hexpired (by simp [hz])
          | moved hexpired _ => exact absurd hexpired (by simp [hz])

/-- Nothing expired. -/
theorem sweepList_none {expired : α → Bool} {l : List α} (h : ∀ a ∈ l, expired a = false) :
    (sweepList expired l).1 = l := by
  have hsweep : ∀ (fuel i : Nat),
      (sweepTable (fun l i => l[i]?) swapRemove expired fuel i l).1 = l := by
    intro fuel
    induction fuel with
    | zero => exact fun i => rfl
    | succ fuel ih =>
        intro i
        unfold sweepTable
        split
        · rfl
        · rename_i a ha
          rw [h a (List.mem_of_getElem? ha)]
          exact ih (i + 1)
  exact hsweep l.length 0

/-- Everything expired. -/
theorem sweepList_all {expired : α → Bool} {l : List α} (h : ∀ a ∈ l, expired a = true) :
    (sweepList expired l).1 = [] := by
  have hsweep : ∀ (fuel : Nat) (l : List α), (∀ a ∈ l, expired a = true) → l.length ≤ fuel →
      (sweepTable (fun l i => l[i]?) swapRemove expired fuel 0 l).1 = [] := by
    intro fuel
    induction fuel with
    | zero => exact fun l _ hlen => List.eq_nil_of_length_eq_zero (Nat.le_zero.mp hlen)
    | succ fuel ih =>
        intro l hl hlen
        unfold sweepTable
        split
        · rename_i hnone
          exact List.eq_nil_of_length_eq_zero (Nat.le_zero.mp (List.getElem?_eq_none_iff.mp hnone))
        · rename_i a ha
          rw [hl a (List.mem_of_getElem? ha)]
          refine ih (swapRemove l 0) (fun x hx => hl x ((swapRemove_subperm l 0).subset hx)) ?_
          have := swapRemove_length ha
          omega
  exact hsweep l.length l h (Nat.le_refl _)

end Ctunnel.Lib
