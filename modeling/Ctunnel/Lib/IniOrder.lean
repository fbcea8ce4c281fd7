import Ctunnel.Lib.IniText
import Mathlib.Data.List.Perm.Basic

/-!
# Files whose sections change places

A file is what stands before its first header and its blocks, one header each with the
lines up to the next. Another order of the blocks says the same sections in another
order.
-/

namespace Ctunnel.Lib

/-- A header and lines that are none. -/
def IsBlock (blk : List Bytes) : Prop :=
  ∃ h t name, blk = h :: t ∧ readLine h = .header name ∧ ∀ l ∈ t, (readLine l).isHeader = false

/-- The blocks of `ls` stand in another order in `ls'`. -/
def Reordered (ls ls' : List Bytes) : Prop :=
  ∃ (front : List Bytes) (blocks blocks' : List (List Bytes)), ls = front ++ blocks.flatten ∧
    ls' = front ++ blocks'.flatten ∧ blocks.Perm blocks' ∧
    (∀ l ∈ front, (readLine l).isHeader = false) ∧ ∀ blk ∈ blocks, IsBlock blk

/-- The section of a block. -/
def blockSection (blk : List Bytes) : Bytes × Pairs :=
  match blk.map readLine with
  | .header name :: t => (name, t.filterMap TextLine.toPair)
  | _ => ([], [])

theorem takeWhile_noHeader {t : List TextLine} {name : Bytes} {rest : List TextLine}
    (ht : ∀ l ∈ t, l.isHeader = false) :
    (t ++ .header name :: rest).takeWhile (fun l => !l.isHeader) = t := by
  rw [List.takeWhile_append_of_pos (by simpa using ht)]
  simp [TextLine.isHeader]

theorem takeWhile_noHeader_all {t : List TextLine} (ht : ∀ l ∈ t, l.isHeader = false) :
    t.takeWhile (fun l => !l.isHeader) = t := by
  rw [List.takeWhile_eq_self_iff]
  simpa using ht

theorem sections_append_front {front ls : List TextLine} (h : ∀ l ∈ front, l.isHeader = false) :
    sections (front ++ ls) = sections ls := by
  induction front with
  | nil => rfl
  | cons l front ih =>
      rw [List.forall_mem_cons] at h
      cases l with
      | header name => exact absurd h.1 (by simp [TextLine.isHeader])
      | blank => exact ih h.2
      | badHeader => exact ih h.2
      | pair k v => exact ih h.2
      | other => exact ih h.2

/-- What stands before the blocks ends where the first of them starts. -/
theorem bodyOf_append_blocks {t : List TextLine} {blocks : List (List Bytes)}
    (ht : ∀ l ∈ t, l.isHeader = false) (hblocks : ∀ blk ∈ blocks, IsBlock blk) :
    bodyOf (t ++ blocks.flatten.map readLine) = t.filterMap TextLine.toPair := by
  unfold bodyOf
  cases blocks with
  | nil =>
      rw [List.flatten_nil, List.map_nil, List.append_nil, takeWhile_noHeader_all ht]
  | cons blk blocks =>
      obtain ⟨h, tail, name, rfl, hname, -⟩ := hblocks blk List.mem_cons_self
      rw [List.flatten_cons, List.cons_append, List.map_cons, hname, takeWhile_noHeader ht]

theorem sections_blocks {blocks : List (List Bytes)} (hblocks : ∀ blk ∈ blocks, IsBlock blk) :
    sections (blocks.flatten.map readLine) = blocks.map blockSection := by
  induction blocks with
  | nil => rfl
  | cons blk blocks ih =>
      rw [List.forall_mem_cons] at hblocks
      obtain ⟨h, t, name, rfl, hname, ht⟩ := hblocks.1
      have htail : ∀ l ∈ t.map readLine, l.isHeader = false := by simpa using ht
      have hsection : blockSection (h :: t) = (name, (t.map readLine).filterMap TextLine.toPair) := by
        simp only [blockSection, List.map_cons, hname]
      rw [List.map_cons, hsection, List.flatten_cons, List.cons_append, List.map_cons, hname,
        List.map_append]
      show (name, bodyOf _) :: sections _ = _
      rw [bodyOf_append_blocks htail hblocks.2, sections_append_front htail, ih hblocks.2]

/-- The same sections, in another order. -/
theorem Reordered.sections {ls ls' : List Bytes} (h : Reordered ls ls') :
    ls.Perm ls' ∧ bodyOf (ls.map readLine) = bodyOf (ls'.map readLine) ∧
      (sections (ls.map readLine)).Perm (sections (ls'.map readLine)) := by
  obtain ⟨front, blocks, blocks', rfl, rfl, hperm, hfront, hblocks⟩ := h
  have hblocks' : ∀ blk ∈ blocks', IsBlock blk := fun blk hblk =>
    hblocks blk (hperm.mem_iff.mpr hblk)
  have hlines : ∀ l ∈ front.map readLine, l.isHeader = false := by simpa using hfront
  refine ⟨hperm.flatten.append_left front, ?_, ?_⟩
  · rw [List.map_append, List.map_append, bodyOf_append_blocks hlines hblocks,
      bodyOf_append_blocks hlines hblocks']
  · rw [List.map_append, List.map_append, sections_append_front hlines,
      sections_append_front hlines, sections_blocks hblocks, sections_blocks hblocks']
    exact hperm.map blockSection

/-- Every file has its blocks. -/
theorem blocks_exist (ls : List Bytes) :
    ∃ front blocks, ls = front ++ List.flatten blocks ∧
      (∀ l ∈ front, (readLine l).isHeader = false) ∧ ∀ blk ∈ blocks, IsBlock blk := by
  induction ls with
  | nil => exact ⟨[], [], rfl, by simp, by simp⟩
  | cons l ls ih =>
      obtain ⟨front, blocks, rfl, hfront, hblocks⟩ := ih
      by_cases hl : (readLine l).isHeader = false
      · exact ⟨l :: front, blocks, rfl, List.forall_mem_cons.mpr ⟨hl, hfront⟩, hblocks⟩
      · obtain ⟨name, hname⟩ : ∃ name, readLine l = .header name := by
          cases hread : readLine l with
          | header name => exact ⟨name, rfl⟩
          | blank => exact absurd (by rw [hread]; rfl) hl
          | badHeader => exact absurd (by rw [hread]; rfl) hl
          | pair k v => exact absurd (by rw [hread]; rfl) hl
          | other => exact absurd (by rw [hread]; rfl) hl
        refine ⟨[], (l :: front) :: blocks, by simp, by simp, ?_⟩
        exact List.forall_mem_cons.mpr ⟨⟨l, front, name, rfl, hname, hfront⟩, hblocks⟩

theorem Reordered.refl (ls : List Bytes) : Reordered ls ls := by
  obtain ⟨front, blocks, hls, hfront, hblocks⟩ := blocks_exist ls
  exact ⟨front, blocks, blocks, hls, hls, .refl _, hfront, hblocks⟩

/-- Any order of the sections is that of some file. -/
theorem Reordered.exists {ls : List Bytes} {secs : List (Bytes × Pairs)}
    (h : (Lib.sections (ls.map readLine)).Perm secs) :
    ∃ ls', Reordered ls ls' ∧ Lib.sections (ls'.map readLine) = secs := by
  obtain ⟨front, blocks, rfl, hfront, hblocks⟩ := blocks_exist ls
  have hlines : ∀ l ∈ front.map readLine, l.isHeader = false := by simpa using hfront
  rw [List.map_append, sections_append_front hlines, sections_blocks hblocks] at h
  have hsplit : Relation.Comp (fun l l' => l = List.map blockSection l') List.Perm secs blocks := by
    rw [List.eq_map_comp_perm]
    exact h.symm
  obtain ⟨blocks', hsecs, hperm⟩ := hsplit
  have hblocks' : ∀ blk ∈ blocks', IsBlock blk := fun blk hblk =>
    hblocks blk (hperm.mem_iff.mp hblk)
  refine ⟨front ++ blocks'.flatten, ⟨front, blocks, blocks', rfl, rfl, hperm.symm, hfront, hblocks⟩,
    ?_⟩
  rw [List.map_append, sections_append_front hlines, sections_blocks hblocks', hsecs]

/-- What is made of each element in a list can be made of it in any other order. -/
theorem mapM_perm {α β : Type} {f : α → Option β} {xs xs' : List α} (hperm : xs.Perm xs')
    {ys : List β} (h : xs.mapM f = some ys) : ∃ ys', xs'.mapM f = some ys' ∧ ys.Perm ys' := by
  induction hperm generalizing ys with
  | nil => exact ⟨ys, h, .refl ys⟩
  | cons x _ ih =>
      simp only [List.mapM_cons, Option.pure_def, Option.bind_eq_bind,
        Option.bind_eq_some_iff] at h ⊢
      obtain ⟨y, hy, zs, hzs, heq⟩ := h
      obtain rfl := Option.some.inj heq
      obtain ⟨zs', hzs', hperm⟩ := ih hzs
      exact ⟨y :: zs', ⟨y, hy, zs', hzs', rfl⟩, hperm.cons y⟩
  | swap x x' l =>
      simp only [List.mapM_cons, Option.pure_def, Option.bind_eq_bind,
        Option.bind_eq_some_iff] at h ⊢
      obtain ⟨y', hy', zs, ⟨y, hy, ws, hws, heq⟩, heq'⟩ := h
      obtain rfl := Option.some.inj heq
      obtain rfl := Option.some.inj heq'
      exact ⟨y :: y' :: ws, ⟨y, hy, y' :: ws, ⟨y', hy', ws, hws, rfl⟩, rfl⟩, .swap y y' ws⟩
  | trans _ _ ih ih' =>
      obtain ⟨zs, hzs, hperm⟩ := ih h
      obtain ⟨ws, hws, hperm'⟩ := ih' hzs
      exact ⟨ws, hws, hperm.trans hperm'⟩

theorem forall₂_of_mapM {α β : Type} {f : α → Option β} {xs : List α} {ys : List β}
    (h : xs.mapM f = some ys) : List.Forall₂ (fun x y => f x = some y) xs ys := by
  induction xs generalizing ys with
  | nil =>
      cases h
      exact .nil
  | cons x xs ih =>
      simp only [List.mapM_cons, Option.pure_def, Option.bind_eq_bind,
        Option.bind_eq_some_iff] at h
      obtain ⟨y, hy, zs, hzs, heq⟩ := h
      obtain rfl := Option.some.inj heq
      exact .cons hy (ih hzs)

/-- Related lists have a partner for each of their elements. -/
theorem forall₂_partner {α β : Type} {R : α → β → Prop} {xs : List α} {ys : List β}
    (h : List.Forall₂ R xs ys) :
    (∀ x ∈ xs, ∃ y ∈ ys, R x y) ∧ ∀ y ∈ ys, ∃ x ∈ xs, R x y := by
  induction h with
  | nil => exact ⟨fun x hx => (by cases hx), fun y hy => (by cases hy)⟩
  | cons hxy _ ih =>
      constructor
      · refine List.forall_mem_cons.mpr ⟨⟨_, List.mem_cons_self, hxy⟩, fun x hx => ?_⟩
        obtain ⟨y, hy, hR⟩ := ih.1 x hx
        exact ⟨y, List.mem_cons_of_mem _ hy, hR⟩
      · refine List.forall_mem_cons.mpr ⟨⟨_, List.mem_cons_self, hxy⟩, fun y hy => ?_⟩
        obtain ⟨x, hx, hR⟩ := ih.2 y hy
        exact ⟨x, List.mem_cons_of_mem _ hx, hR⟩

theorem fileSections_joinLines {ls : List Bytes} (hls : ∀ l ∈ ls, 10 ∉ l) :
    fileSections (joinLines ls) = sections (ls.map readLine) := by
  unfold fileSections fileText
  rw [fileLines_joinLines hls]

end Ctunnel.Lib
