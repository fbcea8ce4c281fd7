import Ctunnel.Lib.BigEndian

/-!
# Buffers filled by successive writes

`WriteBuf` is a stack buffer of fixed size that code fills front to back
(`memcpy(b + offset, src, n); offset += n;`). The bytes written are recorded
whether or not they fit, and `inside` remembers whether every write so far
stayed inside the buffer: an overrun is an observable fact, not a refusal.
-/

namespace Ctunnel.Lib

/-- A buffer of `cap` bytes: what was written and whether it stayed inside. -/
structure WriteBuf where
  cap : Nat
  bytes : Bytes
  inside : Bool
  deriving DecidableEq

namespace WriteBuf

/-- An untouched buffer. -/
def new (cap : Nat) : WriteBuf := ⟨cap, [], true⟩

/-- One write at the current offset. -/
def put (w : WriteBuf) (src : Bytes) : WriteBuf :=
  ⟨w.cap, w.bytes ++ src, w.inside && decide (w.bytes.length + src.length ≤ w.cap)⟩

/-- Successive writes. -/
def putAll (w : WriteBuf) (fields : List Bytes) : WriteBuf := fields.foldl put w

theorem putAll_bytes (w : WriteBuf) (fields : List Bytes) :
    (w.putAll fields).bytes = w.bytes ++ fields.flatten := by
  induction fields generalizing w with
  | nil => simp [putAll]
  | cons f fs ih =>
      have := ih (w.put f)
      simp only [putAll, List.foldl_cons, List.flatten_cons] at this ⊢
      rw [this]
      simp [put]

/-- All writes stay inside exactly if the last one ends inside. -/
theorem putAll_inside (w : WriteBuf) (fields : List Bytes)
    (hw : w.inside = true → w.bytes.length ≤ w.cap) :
    (w.putAll fields).inside = true ↔
      w.inside = true ∧ w.bytes.length + fields.flatten.length ≤ w.cap := by
  induction fields generalizing w with
  | nil =>
      simp only [putAll, List.foldl_nil, List.flatten_nil, List.length_nil, Nat.add_zero]
      exact ⟨fun h => ⟨h, hw h⟩, fun h => h.1⟩
  | cons f fs ih =>
      have hput : (w.put f).inside = true → (w.put f).bytes.length ≤ (w.put f).cap := by
        simp only [put, Bool.and_eq_true, decide_eq_true_eq, List.length_append]
        exact fun h => h.2
      have := ih (w.put f) hput
      simp only [putAll, List.foldl_cons] at this ⊢
      rw [this]
      simp only [put, Bool.and_eq_true, decide_eq_true_eq, List.length_append, List.flatten_cons]
      constructor
      · rintro ⟨⟨hin, _⟩, hlen⟩
        exact ⟨hin, by omega⟩
      · rintro ⟨hin, hlen⟩
        exact ⟨⟨hin, by omega⟩, by omega⟩

@[simp] theorem new_putAll_bytes (cap : Nat) (fields : List Bytes) :
    ((new cap).putAll fields).bytes = fields.flatten := by
  rw [putAll_bytes]
  rfl

theorem new_putAll_inside (cap : Nat) (fields : List Bytes) :
    ((new cap).putAll fields).inside = true ↔ fields.flatten.length ≤ cap := by
  rw [putAll_inside _ _ (fun _ => Nat.zero_le _)]
  simp [new]

/-! ## What has been written says whether it fits -/

/-- The writes stayed inside exactly if their bytes fit. -/
def Exact (w : WriteBuf) : Prop := w.inside = true ↔ w.bytes.length ≤ w.cap

theorem Exact.inside_iff {w : WriteBuf} (h : w.Exact) :
    w.inside = true ↔ w.bytes.length ≤ w.cap := h

theorem Exact.new (cap : Nat) : (new cap).Exact := by simp [Exact, WriteBuf.new]

theorem Exact.put {w : WriteBuf} (h : w.Exact) (src : Bytes) : (w.put src).Exact := by
  unfold Exact at h ⊢
  simp only [WriteBuf.put, Bool.and_eq_true, decide_eq_true_eq, List.length_append, h]
  omega

theorem Exact.putAll {w : WriteBuf} (h : w.Exact) (fields : List Bytes) :
    (w.putAll fields).Exact := by
  induction fields generalizing w with
  | nil => exact h
  | cons f fs ih => exact ih (h.put f)

@[simp] theorem new_cap (cap : Nat) : (new cap).cap = cap := rfl

@[simp] theorem put_cap (w : WriteBuf) (src : Bytes) : (w.put src).cap = w.cap := rfl

@[simp] theorem putAll_cap (w : WriteBuf) (fields : List Bytes) : (w.putAll fields).cap = w.cap := by
  induction fields generalizing w with
  | nil => rfl
  | cons f fs ih => exact ih (w.put f)

end WriteBuf

end Ctunnel.Lib
