import Ctunnel.Lib.Interleave
import Mathlib.Data.List.Nodup
import Mathlib.Data.Set.Basic

/-!
# Keys whose numbers are used once

A key is derived, and then used with numbers. Its holder knows which numbers it may
still use: a counter those above it, a pool those it has. If no key is derived twice
and every key has at most one holder, no number is used twice with a key
(`KeysHeld.once`), whatever holders come and go.
-/

namespace Ctunnel.Lib

/-- An entry of the log of a run. -/
inductive KeyUse (κ ν : Type)
  | derived (k : κ)
  | used (k : κ) (n : ν)
  deriving DecidableEq

variable {κ ν ι : Type}

def KeyUse.derivedKey : KeyUse κ ν → Option κ
  | .derived k => some k
  | .used _ _ => none

def KeyUse.usedNumber : KeyUse κ ν → Option (κ × ν)
  | .derived _ => none
  | .used k n => some (k, n)

/-- The keys that were derived. -/
def derivedKeys (log : List (KeyUse κ ν)) : List κ := log.filterMap KeyUse.derivedKey

/-- The keys and numbers that were used. -/
def usedNumbers (log : List (KeyUse κ ν)) : List (κ × ν) := log.filterMap KeyUse.usedNumber

theorem derivedKeys_append (log log' : List (KeyUse κ ν)) :
    derivedKeys (log ++ log') = derivedKeys log ++ derivedKeys log' := List.filterMap_append

theorem usedNumbers_append (log log' : List (KeyUse κ ν)) :
    usedNumbers (log ++ log') = usedNumbers log ++ usedNumbers log' := List.filterMap_append

/-- A key that is derived after a log without duplicates was not derived in it. -/
theorem not_mem_of_derivedKeys_nodup {k : κ} {log log' : List (KeyUse κ ν)}
    (h : (derivedKeys (log ++ .derived k :: log')).Nodup) : k ∉ derivedKeys log := by
  rw [derivedKeys_append] at h
  exact fun hmem => (List.nodup_append.mp h).2.2 _ hmem _ List.mem_cons_self rfl

/-- What holders and log have to do with each other: `holds i` is the key of the holder `i`, with
the numbers it may still use. -/
structure KeysHeld (holds : ι → Option (κ × Set ν)) (log : List (KeyUse κ ν)) : Prop where
  once : (usedNumbers log).Nodup
  known : ∀ k n, (k, n) ∈ usedNumbers log → k ∈ derivedKeys log
  held : ∀ i k A, holds i = some (k, A) → k ∈ derivedKeys log
  unused : ∀ i k A, holds i = some (k, A) → ∀ n, (k, n) ∈ usedNumbers log → n ∉ A
  apart : ∀ i j k A A', holds i = some (k, A) → holds j = some (k, A') → i = j

/-- The other holders keep their keys, or give them up. -/
def Beyond (i : ι) (holds holds' : ι → Option (κ × Set ν)) : Prop :=
  ∀ j, j ≠ i → holds' j = holds j ∨ holds' j = none

namespace KeysHeld

variable {holds holds' : ι → Option (κ × Set ν)} {log : List (KeyUse κ ν)} {i : ι} {k : κ}
variable {A : Set ν} {n : ν}

theorem nil (h : ∀ i, holds i = none) : KeysHeld holds ([] : List (KeyUse κ ν)) where
  once := List.nodup_nil
  known _ _ h := absurd h (by simp [usedNumbers])
  held i _ _ hi := absurd ((h i).symm.trans hi) (by simp)
  unused i _ _ hi := absurd ((h i).symm.trans hi) (by simp)
  apart i _ _ _ _ hi := absurd ((h i).symm.trans hi) (by simp)

/-- Holders give up numbers, or their keys. -/
theorem keep (h : KeysHeld holds log)
    (hkeep : ∀ j k A', holds' j = some (k, A') → ∃ A, holds j = some (k, A) ∧ A' ⊆ A) :
    KeysHeld holds' log where
  once := h.once
  known := h.known
  held j k A' hj := by
    obtain ⟨A, hA, -⟩ := hkeep j k A' hj
    exact h.held j k A hA
  unused j k A' hj n hn hmem := by
    obtain ⟨A, hA, hsub⟩ := hkeep j k A' hj
    exact h.unused j k A hA n hn (hsub hmem)
  apart j j' k A A' hj hj' := by
    obtain ⟨B, hB, -⟩ := hkeep j k A hj
    obtain ⟨B', hB', -⟩ := hkeep j' k A' hj'
    exact h.apart j j' k B B' hB hB'

/-- Some holders give up their keys. -/
theorem fewer (h : KeysHeld holds log) (hfewer : ∀ j, holds' j = holds j ∨ holds' j = none) :
    KeysHeld holds' log := by
  refine h.keep fun j k A hA => ⟨A, ?_, Set.Subset.refl A⟩
  rcases hfewer j with hsame | hnone
  · exact hsame ▸ hA
  · rw [hnone] at hA
    exact absurd hA (by simp)

/-- One holder gives up numbers. -/
theorem keep_one (h : KeysHeld holds log) (hrest : Beyond i holds holds')
    (hi : ∀ k A', holds' i = some (k, A') → ∃ A, holds i = some (k, A) ∧ A' ⊆ A) :
    KeysHeld holds' log := by
  refine h.keep fun j k A' hj => ?_
  by_cases hji : j = i
  · subst hji
    exact hi k A' hj
  · rcases hrest j hji with hsame | hnone
    · exact ⟨A', hsame ▸ hj, Set.Subset.refl A'⟩
    · rw [hnone] at hj
      exact absurd hj (by simp)

/-- A key that is new is derived, and the holder `i` may have it. -/
theorem derive (h : KeysHeld holds log) (hnew : k ∉ derivedKeys log) (hrest : Beyond i holds holds')
    (hi : ∀ k' A', holds' i = some (k', A') → k' = k) :
    KeysHeld holds' (log ++ [.derived k]) := by
  have hderived : derivedKeys (log ++ [.derived k]) = derivedKeys log ++ [k] := derivedKeys_append ..
  have hused : usedNumbers (log ++ [.derived k]) = usedNumbers log := by
    rw [usedNumbers_append]
    exact List.append_nil _
  have hold : ∀ j, j ≠ i → ∀ k' A', holds' j = some (k', A') → holds j = some (k', A') := by
    intro j hj k' A' heq
    rcases hrest j hj with hsame | hnone
    · exact hsame ▸ heq
    · rw [hnone] at heq
      exact absurd heq (by simp)
  refine ⟨hused ▸ h.once, fun k' n hn => ?_, fun j k' A' hj => ?_, fun j k' A' hj n hn => ?_,
    fun j j' k' A' B hj hj' => ?_⟩
  · rw [hused] at hn
    rw [hderived]
    exact List.mem_append_left _ (h.known k' n hn)
  · rw [hderived]
    by_cases hji : j = i
    · subst hji
      rw [hi k' A' hj]
      simp
    · exact List.mem_append_left _ (h.held j k' A' (hold j hji k' A' hj))
  · rw [hused] at hn
    by_cases hji : j = i
    · subst hji
      -- nothing was used with a new key
      rw [hi k' A' hj] at hn
      exact absurd (h.known k n hn) hnew
    · exact h.unused j k' A' (hold j hji k' A' hj) n hn
  · have hother : ∀ {j B}, j ≠ i → holds' j = some (k, B) → False := fun hji hj =>
      hnew (h.held _ k _ (hold _ hji k _ hj))
    by_cases hji : j = i <;> by_cases hji' : j' = i
    · rw [hji, hji']
    · subst hji
      rw [hi k' A' hj] at hj'
      exact (hother hji' hj').elim
    · subst hji'
      rw [hi k' B hj'] at hj
      exact (hother hji hj).elim
    · exact h.apart j j' k' A' B (hold j hji k' A' hj) (hold j' hji' k' B hj')

/-- A holder uses one of its numbers. -/
theorem use (h : KeysHeld holds log) (hi : holds i = some (k, A)) (hn : n ∈ A)
    (hrest : Beyond i holds holds')
    (hi' : ∀ k' A', holds' i = some (k', A') → k' = k ∧ A' ⊆ A ∧ n ∉ A') :
    KeysHeld holds' (log ++ [.used k n]) := by
  have hderived : derivedKeys (log ++ [.used k n]) = derivedKeys log := by
    rw [derivedKeys_append]
    exact List.append_nil _
  have hused : usedNumbers (log ++ [.used k n]) = usedNumbers log ++ [(k, n)] :=
    usedNumbers_append ..
  have hkeep : ∀ j k' A', holds' j = some (k', A') → ∃ B, holds j = some (k', B) ∧ A' ⊆ B := by
    intro j k' A' hj
    by_cases hji : j = i
    · subst hji
      obtain ⟨rfl, hsub, -⟩ := hi' k' A' hj
      exact ⟨A, hi, hsub⟩
    · rcases hrest j hji with hsame | hnone
      · exact ⟨A', hsame ▸ hj, Set.Subset.refl A'⟩
      · rw [hnone] at hj
        exact absurd hj (by simp)
  have hnew := h.keep hkeep
  refine ⟨?_, fun k' n' hn' => ?_, hderived ▸ hnew.held, fun j k' A' hj n' hn' => ?_, hnew.apart⟩
  · rw [hused]
    refine h.once.append (List.nodup_singleton _) ?_
    intro x hx hx'
    rw [List.mem_singleton.mp hx'] at hx
    exact h.unused i k A hi n hx hn
  · rw [hused] at hn'
    rw [hderived]
    rcases List.mem_append.mp hn' with hn' | hn'
    · exact h.known k' n' hn'
    · obtain ⟨rfl, rfl⟩ := Prod.mk.inj (List.mem_singleton.mp hn')
      exact h.held i k' A hi
  · rw [hused] at hn'
    rcases List.mem_append.mp hn' with hn' | hn'
    · exact hnew.unused j k' A' hj n' hn'
    · obtain ⟨rfl, rfl⟩ := Prod.mk.inj (List.mem_singleton.mp hn')
      obtain ⟨B, hB, -⟩ := hkeep j k' A' hj
      obtain rfl := h.apart j i k' B A hB hi
      exact (hi' k' A' hj).2.2

end KeysHeld

/-! ## Several machines -/

section Machines

variable {ε μ : Type} [DecidableEq μ] {T : List (μ × ε)} {f : ε → Option (KeyUse κ ν)}

theorem derivedKeys_filterMap (l : List ε) :
    derivedKeys (l.filterMap f) = l.filterMap fun e => (f e).bind KeyUse.derivedKey :=
  List.filterMap_filterMap

theorem usedNumbers_filterMap (l : List ε) :
    usedNumbers (l.filterMap f) = l.filterMap fun e => (f e).bind KeyUse.usedNumber :=
  List.filterMap_filterMap

/-- A part of a log without duplicates has none. -/
theorem derivedKeys_ofMachine (i : μ) (h : (derivedKeys (T.filterMap fun e => f e.2)).Nodup) :
    (derivedKeys ((ofMachine i T).filterMap f)).Nodup := by
  rw [derivedKeys_filterMap] at h ⊢
  rw [ofMachine, List.filterMap_filterMap]
  refine List.pairwise_filterMap.mpr ((List.pairwise_filterMap.mp h).imp ?_)
  intro a a' hne x hx y hy
  split at hx
  · split at hy
    · exact hne x hx y hy
    · exact absurd hy (by simp)
  · exact absurd hx (by simp)

/-- If no key is derived twice, not even by two machines, and each machine uses its numbers once,
and with keys it derived, then all of them use them once. -/
theorem interleaved_once (hnew : (derivedKeys (T.filterMap fun e => f e.2)).Nodup)
    (honce : ∀ i, (usedNumbers ((ofMachine i T).filterMap f)).Nodup)
    (hknown : ∀ i k n, (k, n) ∈ usedNumbers ((ofMachine i T).filterMap f) →
      k ∈ derivedKeys ((ofMachine i T).filterMap f)) :
    (usedNumbers (T.filterMap fun e => f e.2)).Nodup := by
  -- the keys of a machine are derived by it
  have hderived : ∀ {a : μ × ε} {k : κ} {n : ν}, a ∈ T →
      (f a.2).bind KeyUse.usedNumber = some (k, n) →
      ∃ e, (a.1, e) ∈ T ∧ (f e).bind KeyUse.derivedKey = some k := by
    intro a k n ha hused
    have hmem : (k, n) ∈ usedNumbers ((ofMachine a.1 T).filterMap f) := by
      rw [usedNumbers_filterMap]
      exact List.mem_filterMap.mpr ⟨a.2, mem_ofMachine.mpr ha, hused⟩
    have hkey := hknown a.1 k n hmem
    rw [derivedKeys_filterMap] at hkey
    obtain ⟨e, he, hk⟩ := List.mem_filterMap.mp hkey
    exact ⟨e, mem_ofMachine.mp he, hk⟩
  have hown : T.Pairwise fun a a' => a.1 = a'.1 →
      ∀ x, (f a.2).bind KeyUse.usedNumber = some x →
        ∀ y, (f a'.2).bind KeyUse.usedNumber = some y → x ≠ y := by
    refine pairwise_ofMachine (R := fun e e' => ∀ x, (f e).bind KeyUse.usedNumber = some x →
      ∀ y, (f e').bind KeyUse.usedNumber = some y → x ≠ y) fun i => ?_
    have hi := honce i
    rw [usedNumbers_filterMap] at hi
    exact List.pairwise_filterMap.mp hi
  rw [derivedKeys_filterMap (ε := μ × ε)] at hnew
  rw [usedNumbers_filterMap (ε := μ × ε)]
  refine List.pairwise_filterMap.mpr (hown.imp_of_mem fun {a a'} ha ha' hne x hx y hy => ?_)
  by_cases hi : a.1 = a'.1
  · exact hne hi x hx y hy
  · rintro rfl
    obtain ⟨k, n⟩ := x
    obtain ⟨e, he, hk⟩ := hderived ha hx
    obtain ⟨e', he', hk'⟩ := hderived ha' hy
    exact hi (Prod.mk.inj (eq_of_filterMap_nodup hnew he he' hk hk')).1

end Machines

/-! ## Pools -/

/-- The numbers of a pool: those in hand and those that may still be issued. -/
def poolNumbers (held : List ν) (fresh : Set ν) : Set ν := {n | n ∈ held ∨ n ∈ fresh}

/-- Nothing is in hand twice, or issued again. -/
structure PoolSound (held : List ν) (fresh : Set ν) : Prop where
  nodup : held.Nodup
  apart : ∀ n ∈ held, n ∉ fresh

section Pools

variable {held held' : List ν} {fresh fresh' : Set ν} {n : ν}

theorem poolNumbers_mono (hheld : held' ⊆ held) (hfresh : fresh' ⊆ fresh) :
    poolNumbers held' fresh' ⊆ poolNumbers held fresh :=
  fun _ h => h.imp (fun h => hheld h) fun h => hfresh h

theorem PoolSound.nil : PoolSound [] fresh := ⟨List.nodup_nil, fun _ h => absurd h (by simp)⟩

/-- Numbers are given up. -/
theorem PoolSound.fewer (h : PoolSound held fresh) (hheld : held'.Subperm held)
    (hfresh : fresh' ⊆ fresh) : PoolSound held' fresh' := by
  obtain ⟨l, hperm, hsub⟩ := hheld
  refine ⟨hperm.nodup_iff.mp (hsub.nodup h.nodup), fun n hn hmem => ?_⟩
  exact h.apart n (hsub.subset (hperm.mem_iff.mpr hn)) (hfresh hmem)

/-- A number is issued. -/
theorem PoolSound.issue (h : PoolSound held fresh) (hn : n ∈ fresh) (hfresh : fresh' ⊆ fresh)
    (hn' : n ∉ fresh') : PoolSound (held ++ [n]) fresh' := by
  refine ⟨h.nodup.append (List.nodup_singleton n) ?_, fun k hk hmem => ?_⟩
  · intro k hk hkn
    rw [List.mem_singleton.mp hkn] at hk
    exact h.apart n hk hn
  · rcases List.mem_append.mp hk with hk | hk
    · exact h.apart k hk (hfresh hmem)
    · rw [List.mem_singleton.mp hk] at hmem
      exact hn' hmem

theorem poolNumbers_issue (hn : n ∈ fresh) (hfresh : fresh' ⊆ fresh) :
    poolNumbers (held ++ [n]) fresh' ⊆ poolNumbers held fresh := by
  rintro k (hk | hk)
  · rcases List.mem_append.mp hk with hk | hk
    · exact .inl hk
    · rw [List.mem_singleton.mp hk]
      exact .inr hn
  · exact .inr (hfresh hk)

/-- A number that is taken out of the pool is gone. -/
theorem PoolSound.taken (h : PoolSound held fresh) (hperm : held.Perm (n :: held')) :
    n ∈ poolNumbers held fresh ∧ poolNumbers held' fresh ⊆ poolNumbers held fresh ∧
      n ∉ poolNumbers held' fresh := by
  have hmem : n ∈ held := hperm.mem_iff.mpr List.mem_cons_self
  refine ⟨.inl hmem, poolNumbers_mono ?_ (fun _ h => h), ?_⟩
  · exact fun k hk => hperm.mem_iff.mpr (List.mem_cons_of_mem n hk)
  · rintro (hk | hk)
    · exact (List.nodup_cons.mp (hperm.nodup_iff.mp h.nodup)).1 hk
    · exact h.apart n hmem hk

end Pools

end Ctunnel.Lib
