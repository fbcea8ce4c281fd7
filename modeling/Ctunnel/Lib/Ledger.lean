import Ctunnel.Lib.Level
import Mathlib.Data.List.Perm.Basic

/-!
# A ledger of what is opened and closed

The entries of a ledger open and close things that have owners. `Books` compares it
with what the owners held before and hold after: the entries lead every count from
the one to the other. Then nothing is closed that is not open (`Books.closedOnce`),
the owners hold what the ledger leaves open (`Books.outstanding`), and if nothing is
opened that is open already, no two of them hold the same thing (`Granted.nodup`).
-/

namespace Ctunnel.Lib

inductive Entry (α : Type)
  | opened (a : α)
  | closed (a : α)
  deriving DecidableEq

/-- What all owners hold, as a function of what one of them holds. -/
theorem flatMap_update_perm {α ι : Type} [DecidableEq ι] {owners : List ι} (hnodup : owners.Nodup)
    {i : ι} (hi : i ∈ owners) (f : ι → List α) :
    ∃ rest, ∀ x, (owners.flatMap (Function.update f i x)).Perm (x ++ rest) := by
  refine ⟨(owners.erase i).flatMap f, fun x => ?_⟩
  refine ((List.perm_cons_erase hi).flatMap_right _).trans ?_
  have hothers : (owners.erase i).flatMap (Function.update f i x) = (owners.erase i).flatMap f := by
    refine List.flatMap_congr fun j hj => ?_
    exact Function.update_of_ne (hnodup.mem_erase_iff.mp hj).1 _ _
  rw [List.flatMap_cons, Function.update_self, hothers]

variable {α : Type} [DecidableEq α]

/-- What is open after the entries, if `held` was before. -/
def outstanding : List α → List (Entry α) → List α
  | held, [] => held
  | held, .opened a :: es => outstanding (a :: held) es
  | held, .closed a :: es => outstanding (held.erase a) es

/-- Nothing is opened that is open already. -/
def Granted : List α → List (Entry α) → Prop
  | _, [] => True
  | held, .opened a :: es => a ∉ held ∧ Granted (a :: held) es
  | held, .closed a :: es => Granted (held.erase a) es

/-- Nothing is closed that is not open. -/
def ClosedOnce : List α → List (Entry α) → Prop
  | _, [] => True
  | held, .opened a :: es => ClosedOnce (a :: held) es
  | held, .closed a :: es => a ∈ held ∧ ClosedOnce (held.erase a) es

instance Granted.decidable : ∀ (held : List α) es, Decidable (Granted held es)
  | _, [] => .isTrue trivial
  | held, .opened a :: es =>
      have := Granted.decidable (a :: held) es
      inferInstanceAs (Decidable (a ∉ held ∧ Granted (a :: held) es))
  | held, .closed a :: es => Granted.decidable (held.erase a) es

instance ClosedOnce.decidable : ∀ (held : List α) es, Decidable (ClosedOnce held es)
  | _, [] => .isTrue trivial
  | held, .opened a :: es => ClosedOnce.decidable (a :: held) es
  | held, .closed a :: es =>
      have := ClosedOnce.decidable (held.erase a) es
      inferInstanceAs (Decidable (a ∈ held ∧ ClosedOnce (held.erase a) es))

theorem Granted.nodup {held : List α} {es : List (Entry α)} (h : Granted held es)
    (hheld : held.Nodup) : (outstanding held es).Nodup := by
  induction es generalizing held with
  | nil => exact hheld
  | cons e es ih =>
      cases e with
      | opened a => exact ih h.2 (List.nodup_cons.mpr ⟨h.1, hheld⟩)
      | closed a => exact ih h (hheld.erase a)

theorem Granted.of_append {held : List α} {es es' : List (Entry α)} (h : Granted held (es ++ es')) :
    Granted held es := by
  induction es generalizing held with
  | nil => trivial
  | cons e es ih =>
      cases e with
      | opened a => exact ⟨h.1, ih h.2⟩
      | closed a => exact ih h

/-! ## Owners -/

def Entry.opens (a : α) : Entry α → Nat
  | .opened a' => if a' = a then 1 else 0
  | .closed _ => 0

def Entry.closes (a : α) : Entry α → Nat
  | .opened _ => 0
  | .closed a' => if a' = a then 1 else 0

/-- The entries turn what is held into `held'`, and close only what is held. -/
def Books (held : List α) (es : List (Entry α)) (held' : List α) : Prop :=
  ∀ a, Leads (Entry.opens a) (Entry.closes a) (held.count a) es (held'.count a)

namespace Books

variable {held held' held'' : List α} {es es' : List (Entry α)}

theorem perm (h : held.Perm held') : Books held [] held' := fun a => h.count_eq a

theorem trans (h : Books held es held') (h' : Books held' es' held'') :
    Books held (es ++ es') held'' := fun a => (h a).trans (h' a)

theorem to_perm (h : Books held es held') (hperm : held'.Perm held'') : Books held es held'' := by
  have h' := h.trans (.perm hperm)
  rwa [List.append_nil] at h'

theorem of_perm (hperm : held.Perm held') (h : Books held' es held'') : Books held es held'' := by
  have h' := (perm hperm).trans h
  rwa [List.nil_append] at h'

/-- What the entries do not touch stays where it is. -/
theorem frame (h : Books held es held') (rest : List α) :
    Books (held ++ rest) es (held' ++ rest) := by
  intro a
  rw [List.count_append, List.count_append]
  exact (h a).add (rest.count a)

theorem beside (h : Books held es held') (rest : List α) :
    Books (rest ++ held) es (rest ++ held') :=
  .of_perm List.perm_append_comm ((h.frame rest).to_perm List.perm_append_comm)

/-- Owners with books of their own. -/
theorem flatMap {ι : Type} (owners : List ι) {held held' : ι → List α} {es : ι → List (Entry α)}
    (h : ∀ i ∈ owners, Books (held i) (es i) (held' i)) :
    Books (owners.flatMap held) (owners.flatMap es) (owners.flatMap held') := by
  induction owners with
  | nil => exact .perm .rfl
  | cons i owners ih =>
      have hfirst := (h i List.mem_cons_self).frame (owners.flatMap held)
      have hrest := ih fun j hj => h j (List.mem_cons_of_mem i hj)
      exact hfirst.trans (hrest.beside (held' i))

theorem opening (a : α) (held : List α) : Books held [.opened a] (a :: held) := by
  intro x
  refine ⟨Nat.zero_le _, ?_⟩
  show held.count x - 0 + (if a = x then 1 else 0) = (a :: held).count x
  simp only [List.count_cons, Nat.sub_zero, beq_iff_eq]

theorem closing (a : α) (held : List α) : Books (a :: held) [.closed a] held := by
  intro x
  simp only [List.count_cons, beq_iff_eq]
  refine ⟨?_, ?_⟩
  · show (if a = x then 1 else 0) ≤ _
    omega
  · show held.count x + (if a = x then 1 else 0) - (if a = x then 1 else 0) + 0 = held.count x
    omega

theorem closeAll (as held : List α) : Books (as ++ held) (as.map .closed) held := by
  induction as with
  | nil => exact .perm .rfl
  | cons a as ih => exact (closing a (as ++ held)).trans ih

/-- What is opened and closed at once. -/
theorem passing (a : α) (held : List α) : Books held [.opened a, .closed a] held :=
  (opening a held).trans (closing a held)

/-- What is never opened is not held in the end if it was not before. -/
theorem absent (h : Books held es held') {a : α} (ha : a ∉ held) (hes : .opened a ∉ es) :
    a ∉ held' := by
  have hlead := h a
  rw [List.count_eq_zero.mpr ha] at hlead
  rw [← List.count_eq_zero]
  clear h ha
  induction es with
  | nil => exact hlead.symm
  | cons e es ih =>
      obtain ⟨hle, hrest⟩ := hlead
      have hup : Entry.opens a e = 0 := by
        cases e with
        | opened a' =>
            have hne : a' ≠ a := fun heq => hes (heq ▸ List.mem_cons_self)
            exact if_neg hne
        | closed a' => rfl
      rw [hup, Nat.zero_sub] at hrest
      exact ih (fun hmem => hes (List.mem_cons_of_mem e hmem)) hrest

theorem openAll (as held : List α) : Books held (as.map .opened) (as ++ held) := by
  induction as generalizing held with
  | nil => exact .perm .rfl
  | cons a as ih => exact ((opening a held).trans (ih (a :: held))).to_perm List.perm_middle

/-- What comes in is opened first, what goes out is closed last. -/
theorem exchange {opens closes : List α} (h : (opens ++ held).Perm (closes ++ held')) :
    Books held (opens.map .opened ++ closes.map .closed) held' :=
  ((openAll opens held).to_perm h).trans (closeAll closes held')

theorem of_opened {a : α} (h : Books held (.opened a :: es) held') :
    Books (a :: held) es held' := by
  intro x
  obtain ⟨-, hrest⟩ := h x
  simp only [List.count_cons, beq_iff_eq]
  exact hrest

theorem of_closed {a : α} (h : Books held (.closed a :: es) held') :
    a ∈ held ∧ Books (held.erase a) es held' := by
  constructor
  · have hone : Entry.closes a (.closed a) ≤ held.count a := (h a).1
    rw [Entry.closes, if_pos rfl] at hone
    exact List.count_pos_iff.mp hone
  · intro x
    obtain ⟨-, hrest⟩ := h x
    have hcount : (held.erase a).count x = held.count x - Entry.closes x (.closed a) := by
      simp only [List.count_erase, Entry.closes, beq_iff_eq]
    rw [hcount]
    exact hrest

/-- What was held or opened was closed or is held. -/
theorem count (h : Books held es held') (a : α) :
    held.count a + es.count (.opened a) = es.count (.closed a) + held'.count a := by
  induction es generalizing held with
  | nil =>
      have heq : held.count a = held'.count a := h a
      simp [heq]
  | cons e es ih =>
      cases e with
      | opened x =>
          have hmid := ih h.of_opened
          have hother : (Entry.opened x :: es).count (.closed a) = es.count (.closed a) :=
            List.count_cons_of_ne (by simp)
          rw [hother]
          by_cases hx : x = a
          · subst hx
            rw [List.count_cons_self] at hmid ⊢
            omega
          · rw [List.count_cons_of_ne hx] at hmid
            rw [List.count_cons_of_ne (by simp [hx])]
            exact hmid
      | closed x =>
          obtain ⟨hmem, hrest⟩ := h.of_closed
          have hmid := ih hrest
          have hother : (Entry.closed x :: es).count (.opened a) = es.count (.opened a) :=
            List.count_cons_of_ne (by simp)
          rw [hother]
          by_cases hx : x = a
          · subst hx
            have hpos := List.count_pos_iff.mpr hmem
            rw [List.count_erase_self] at hmid
            rw [List.count_cons_self]
            omega
          · rw [List.count_erase_of_ne (Ne.symm hx)] at hmid
            rw [List.count_cons_of_ne (by simp [hx])]
            exact hmid

/-- What is open in the end is what the owners hold, and nothing was closed but what was open. -/
theorem settle (h : Books held es held') :
    ClosedOnce held es ∧ held'.Perm (outstanding held es) := by
  induction es generalizing held with
  | nil => exact ⟨trivial, List.perm_iff_count.mpr fun a => (h a).symm⟩
  | cons e es ih =>
      cases e with
      | opened a => exact ih h.of_opened
      | closed a =>
          obtain ⟨hmem, hrest⟩ := h.of_closed
          obtain ⟨honce, hperm⟩ := ih hrest
          exact ⟨⟨hmem, honce⟩, hperm⟩

end Books

end Ctunnel.Lib
