import Ctunnel.Lib.IniText

/-!
# Keys that can be set once

A reader that keeps the keys of a section in a table of fixed capacity, and refuses a
key that is in it. What the lines of a section do then is `IniReader.body_ok`: the keys
are distinct and fit, and the values are stored one after the other.
-/

namespace Ctunnel.Lib

/-- The keys can be put into a table, behind those in `seen`. -/
structure KeysTaken (capacity size : Nat) (seen ks : List Bytes) : Prop where
  nodup : ks.Nodup
  fresh : ∀ k ∈ ks, k ∉ seen
  room : seen.length + ks.length ≤ capacity
  short : ∀ k ∈ ks, k.length < size

variable {capacity size : Nat} {seen : List Bytes}

theorem keysTaken_nil (hroom : seen.length ≤ capacity) : KeysTaken capacity size seen [] where
  nodup := List.nodup_nil
  fresh := by simp
  room := by simpa using hroom
  short := by simp

/-- One key more. -/
theorem keysTaken_cons {k : Bytes} {ks : List Bytes} :
    KeysTaken capacity size seen (k :: ks) ↔
      (k ∉ seen ∧ seen.length ≠ capacity ∧ k.length < size) ∧
        KeysTaken capacity size (seen ++ [k]) ks := by
  constructor
  · intro h
    have hnodup := List.nodup_cons.mp h.nodup
    have hlen := h.room
    rw [List.length_cons] at hlen
    refine ⟨⟨h.fresh k List.mem_cons_self, by omega, h.short k List.mem_cons_self⟩, hnodup.2, ?_,
      ?_, fun k' hk' => h.short k' (List.mem_cons_of_mem k hk')⟩
    · intro k' hk' hmem
      rcases List.mem_append.mp hmem with hmem | hmem
      · exact h.fresh k' (List.mem_cons_of_mem k hk') hmem
      · rw [List.mem_singleton.mp hmem] at hk'
        exact hnodup.1 hk'
    · rw [List.length_append, List.length_singleton]
      omega
  · rintro ⟨⟨hfresh, hcap, hshort⟩, h⟩
    have hlen := h.room
    rw [List.length_append, List.length_singleton] at hlen
    refine ⟨List.nodup_cons.mpr ⟨?_, h.nodup⟩, ?_, ?_, List.forall_mem_cons.mpr ⟨hshort, h.short⟩⟩
    · intro hmem
      exact h.fresh k hmem (List.mem_append_right seen (List.mem_singleton.mpr rfl))
    · refine List.forall_mem_cons.mpr ⟨hfresh, fun k' hk' hmem => ?_⟩
      exact h.fresh k' hk' (List.mem_append_left [k] hmem)
    · rw [List.length_cons]
      omega

theorem keysTaken_append {ks ks' : List Bytes} :
    KeysTaken capacity size seen (ks ++ ks') ↔
      KeysTaken capacity size seen ks ∧ KeysTaken capacity size (seen ++ ks) ks' := by
  induction ks generalizing seen with
  | nil =>
      rw [List.nil_append, List.append_nil]
      refine ⟨fun h => ⟨keysTaken_nil ?_, h⟩, And.right⟩
      have hlen := h.room
      omega
  | cons k ks ih =>
      rw [List.cons_append, keysTaken_cons, ih, keysTaken_cons, List.append_assoc,
        List.singleton_append]
      exact and_assoc.symm

/-- The order of the keys does not matter. -/
theorem KeysTaken.perm {ks ks' : List Bytes} (h : KeysTaken capacity size seen ks)
    (hks : ks.Perm ks') : KeysTaken capacity size seen ks' where
  nodup := hks.nodup_iff.mp h.nodup
  fresh := fun k hk => h.fresh k (hks.mem_iff.mpr hk)
  room := by
    rw [← hks.length_eq]
    exact h.room
  short := fun k hk => h.short k (hks.mem_iff.mpr hk)

/-- The keys of the lines that go into the table. -/
def trackedKeys (tracked : Bytes → Bool) (kvs : Pairs) : List Bytes :=
  (kvs.map Prod.fst).filter tracked

/-- The lines of a section, for a state `mk seen a` of which every line stores something
into `a` and its key, if it is tracked, into `seen`. -/
theorem IniReader.body_ok {σ ε α : Type} {r : IniReader σ ε} (tracked : Bytes → Bool)
    (mk : List Bytes → α → σ) (f : α → Bytes × Bytes → Option α)
    (hset : ∀ k v seen a m, r.set k v (mk seen a) = .ok m ↔
      (tracked k = true → k ∉ seen ∧ seen.length ≠ capacity ∧ k.length < size) ∧
        ∃ a', f a (k, v) = some a' ∧ m = mk (if tracked k then seen ++ [k] else seen) a')
    (hroom : seen.length ≤ capacity) {kvs : Pairs} {a : α} {m : σ} :
    r.body kvs (mk seen a) = .ok m ↔
      KeysTaken capacity size seen (trackedKeys tracked kvs) ∧
        ∃ a', kvs.foldlM f a = some a' ∧ m = mk (seen ++ trackedKeys tracked kvs) a' := by
  induction kvs generalizing seen a with
  | nil =>
      constructor
      · intro h
        cases h
        exact ⟨keysTaken_nil hroom, a, rfl, by simp [trackedKeys]⟩
      · rintro ⟨-, a', ha, rfl⟩
        obtain rfl := Option.some.inj ha
        simp only [trackedKeys, List.map_nil, List.filter_nil, List.append_nil]
        rfl
  | cons kv kvs ih =>
      obtain ⟨k, v⟩ := kv
      show ((k, v) :: kvs).foldlM _ _ = _ ↔ _
      rw [foldlM_cons_ok]
      by_cases hk : tracked k = true
      · have hkeys : trackedKeys tracked ((k, v) :: kvs) = k :: trackedKeys tracked kvs := by
          simp [trackedKeys, hk]
        rw [hkeys, keysTaken_cons]
        have hnext : seen.length ≠ capacity → (seen ++ [k]).length ≤ capacity := by
          intro hne
          rw [List.length_append, List.length_singleton]
          omega
        constructor
        · rintro ⟨s, hs, hrest⟩
          obtain ⟨hfresh, a', ha', rfl⟩ := (hset _ _ _ _ _).mp hs
          rw [if_pos hk] at hrest
          obtain ⟨htaken, a'', ha'', rfl⟩ := (ih (hnext (hfresh hk).2.1)).mp hrest
          refine ⟨⟨hfresh hk, htaken⟩, a'', by simp [ha', ha''], by simp⟩
        · rintro ⟨⟨hfresh, htaken⟩, a'', ha, rfl⟩
          rw [List.foldlM_cons, Option.bind_eq_bind, Option.bind_eq_some_iff] at ha
          obtain ⟨a', ha', ha''⟩ := ha
          refine ⟨_, (hset _ _ _ _ _).mpr ⟨fun _ => hfresh, a', ha', rfl⟩, ?_⟩
          rw [if_pos hk]
          exact (ih (hnext hfresh.2.1)).mpr ⟨htaken, a'', ha'', by simp⟩
      · have hkeys : trackedKeys tracked ((k, v) :: kvs) = trackedKeys tracked kvs := by
          simp [trackedKeys, hk]
        rw [hkeys]
        constructor
        · rintro ⟨s, hs, hrest⟩
          obtain ⟨-, a', ha', rfl⟩ := (hset _ _ _ _ _).mp hs
          rw [if_neg hk] at hrest
          obtain ⟨htaken, a'', ha'', rfl⟩ := (ih hroom).mp hrest
          exact ⟨htaken, a'', by simp [ha', ha''], rfl⟩
        · rintro ⟨htaken, a'', ha, rfl⟩
          rw [List.foldlM_cons, Option.bind_eq_bind, Option.bind_eq_some_iff] at ha
          obtain ⟨a', ha', ha''⟩ := ha
          refine ⟨_, (hset _ _ _ _ _).mpr ⟨fun h => absurd h hk, a', ha', rfl⟩, ?_⟩
          rw [if_neg hk]
          exact (ih hroom).mpr ⟨htaken, a'', ha'', rfl⟩

end Ctunnel.Lib
