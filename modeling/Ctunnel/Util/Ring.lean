import Ctunnel.Lib.BigEndian
import Ctunnel.Lib.Circular

/-!
# Ring buffers (`src/util/ring.c`)

A `CtRing` carries the assertion every operation of `ring.c` makes: the head
lies inside the array and the fill level does not exceed it. A freed ring
(`ct_ring_free` zeroes the struct) has no cells. `CtRing.queue` is the byte
queue a ring stands for; each operation has one lemma that says what it does to
the queue, and callers reason with these and with the fill level only.
-/

namespace Ctunnel

open Lib

/-- `ct_ring`; `cap` is the length of the allocation. -/
structure CtRing where
  data : Bytes
  head : Nat
  len : Nat
  headOk : head < data.length ∨ data = []
  fits : len ≤ data.length

namespace CtRing

/-- `r->cap`. -/
def cap (r : CtRing) : Nat := r.data.length

/-- `r->cap - r->len`. -/
def room (r : CtRing) : Nat := r.cap - r.len

/-- The queued bytes, oldest first. -/
def queue (r : CtRing) : Bytes := queued r.data r.head r.len

@[simp] theorem queue_length (r : CtRing) : r.queue.length = r.len := by
  simp [queue]

theorem len_le_cap (r : CtRing) : r.len ≤ r.cap := r.fits

/-- `memset(r, 0, sizeof *r)`: the ring of a zeroed relay and of a freed one. -/
def freed : CtRing := ⟨[], 0, 0, .inr rfl, Nat.le_refl 0⟩

/-- The head after consuming `n` bytes stays inside the array. -/
private theorem headOk_advance (r : CtRing) (n : Nat) :
    (r.head + n) % r.data.length < r.data.length ∨ r.data = [] := by
  rcases List.eq_nil_or_concat r.data with hnil | ⟨l, x, hx⟩
  · exact .inr hnil
  · exact .inl (Nat.mod_lt _ (by simp [hx]))

end CtRing

/-- `ct_ring_init`, with the result of `malloc`. -/
def ctRingInit (alloc : Bool) (cap : Nat) (hcap : 0 < cap) : Option CtRing :=
  if alloc then
    some ⟨List.replicate cap 0, 0, 0, .inl (by simpa using hcap), Nat.zero_le _⟩
  else none

/-- `ct_ring_write`: the ring and the number of bytes taken. -/
def ctRingWrite (r : CtRing) (src : Bytes) : CtRing × Nat :=
  let n := min src.length r.room
  (⟨writeCells r.data r.head r.len (src.take n), r.head, r.len + n,
    by
      rcases r.headOk with h | h
      · exact .inl (by simpa using h)
      · exact .inr (List.eq_nil_of_length_eq_zero (by simp [h])),
    by
      have hfits := r.fits
      simp only [writeCells_length, CtRing.room, CtRing.cap, n]
      omega⟩, n)

/-- `ct_ring_read`: the ring and the bytes handed out. -/
def ctRingRead (r : CtRing) (want : Nat) : CtRing × Bytes :=
  let n := min want r.len
  let a := min (r.cap - r.head) n
  (⟨r.data, (r.head + n) % r.data.length, r.len - n, r.headOk_advance n,
    Nat.le_trans (Nat.sub_le _ _) r.fits⟩,
    (r.data.drop r.head).take a ++ r.data.take (n - a))

/-- `ct_ring_peek`: the contiguous bytes at the head. -/
def ctRingPeek (r : CtRing) : Bytes :=
  (r.data.drop r.head).take (min (r.cap - r.head) r.len)

/-- `ct_ring_consume`. -/
def ctRingConsume (r : CtRing) (want : Nat) : CtRing :=
  let n := min want r.len
  ⟨r.data, (r.head + n) % r.data.length, r.len - n, r.headOk_advance n,
    Nat.le_trans (Nat.sub_le _ _) r.fits⟩

/-! ## The ring as a bounded FIFO queue -/

theorem ctRingInit_queue {alloc : Bool} {cap : Nat} {hcap : 0 < cap} {r : CtRing}
    (h : ctRingInit alloc cap hcap = some r) : r.queue = [] ∧ r.len = 0 ∧ r.cap = cap := by
  unfold ctRingInit at h
  split at h
  · injection h with h
    subst h
    exact ⟨rfl, rfl, by simp [CtRing.cap]⟩
  · exact absurd h (by simp)

@[simp] theorem ctRingWrite_cap (r : CtRing) (src : Bytes) :
    (ctRingWrite r src).1.cap = r.cap := by
  simp [ctRingWrite, CtRing.cap]

@[simp] theorem ctRingWrite_len (r : CtRing) (src : Bytes) :
    (ctRingWrite r src).1.len = r.len + min src.length r.room := rfl

@[simp] theorem ctRingWrite_taken (r : CtRing) (src : Bytes) :
    (ctRingWrite r src).2 = min src.length r.room := rfl

/-- A write appends as much of the source as there is room for. -/
theorem ctRingWrite_queue (r : CtRing) (src : Bytes) :
    (ctRingWrite r src).1.queue = r.queue ++ src.take (ctRingWrite r src).2 := by
  have hfits := r.fits
  have hroom : r.room = r.data.length - r.len := rfl
  have hlen : (src.take (min src.length r.room)).length = min src.length r.room := by
    rw [List.length_take]
    omega
  have hfit : r.len + (src.take (min src.length r.room)).length ≤ r.data.length := by omega
  have hw := queued_write r.head hfit
  rw [hlen] at hw
  exact hw

/-- A write with room appends all of the source. -/
theorem ctRingWrite_queue_of_room {r : CtRing} {src : Bytes} (h : src.length ≤ r.room) :
    (ctRingWrite r src).1.queue = r.queue ++ src := by
  rw [ctRingWrite_queue, ctRingWrite_taken, Nat.min_eq_left h, List.take_length]

@[simp] theorem ctRingRead_cap (r : CtRing) (n : Nat) : (ctRingRead r n).1.cap = r.cap := rfl

@[simp] theorem ctRingRead_len (r : CtRing) (n : Nat) :
    (ctRingRead r n).1.len = r.len - min n r.len := rfl

/-- A read hands out the front of the queue. -/
theorem ctRingRead_bytes (r : CtRing) (n : Nat) : (ctRingRead r n).2 = r.queue.take n := by
  have hfits := r.fits
  have htake : r.queue.take n = r.queue.take (min n r.len) := by
    rw [← List.take_take]
    congr 1
    rw [List.take_of_length_le (by simp)]
  rw [htake]
  rcases r.headOk with hhead | hnil
  · exact segment_queued hhead hfits (Nat.min_le_right _ _)
  · have hlen : r.len = 0 := by
      rw [hnil] at hfits
      simpa using hfits
    simp [ctRingRead, hlen, hnil]

/-- A read removes the front of the queue. -/
theorem ctRingRead_queue (r : CtRing) (n : Nat) : (ctRingRead r n).1.queue = r.queue.drop n := by
  have hadv := queued_advance r.data r.head r.len (min n r.len)
  have hdrop : r.queue.drop (min n r.len) = r.queue.drop n := by
    rcases Nat.le_total n r.len with h | h
    · rw [Nat.min_eq_left h]
    · rw [Nat.min_eq_right h, List.drop_eq_nil_of_le (by simp),
        List.drop_eq_nil_of_le (by simpa using h)]
  rw [← hdrop]
  exact hadv

@[simp] theorem ctRingConsume_cap (r : CtRing) (n : Nat) : (ctRingConsume r n).cap = r.cap := rfl

@[simp] theorem ctRingConsume_len (r : CtRing) (n : Nat) :
    (ctRingConsume r n).len = r.len - min n r.len := rfl

/-- Consuming drops from the front of the queue. -/
theorem ctRingConsume_queue (r : CtRing) (n : Nat) : (ctRingConsume r n).queue = r.queue.drop n :=
  ctRingRead_queue r n

/-- A peek exposes a front part of the queue. -/
theorem ctRingPeek_queue (r : CtRing) : ctRingPeek r = r.queue.take (ctRingPeek r).length := by
  have hfits := r.fits
  rcases r.headOk with hhead | hnil
  · have hcap : r.cap = r.data.length := rfl
    have hlen : (ctRingPeek r).length = min (r.cap - r.head) r.len := by
      simp only [ctRingPeek, List.length_take, List.length_drop]
      omega
    have hseg := segment_queued hhead hfits
      (Nat.min_le_right (r.cap - r.head) r.len : min (r.cap - r.head) r.len ≤ r.len)
    rw [hlen]
    have hall : min (r.data.length - r.head) (min (r.cap - r.head) r.len) =
        min (r.cap - r.head) r.len := by omega
    rw [hall, Nat.sub_self, List.take_zero, List.append_nil] at hseg
    exact hseg
  · simp [ctRingPeek, hnil]

end Ctunnel
