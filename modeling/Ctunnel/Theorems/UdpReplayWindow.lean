import Ctunnel.Lib.ReplayWindow
import Ctunnel.Net.Datagram

/-!
# The replay window of a UDP session

`udp_replay_accept` remembers `CONFIG_UDP_REPLAY_WINDOW` numbers, 64 to 128, in a
64-bit bitmap. It works as it should on exactly the sequences in which no number
comes 64 or more behind the highest one and still inside the window
(`udp_replay_exact_iff`); there it is the window of `Lib.ReplayWindow`. C leaves a
shift by 64 or more undefined; `<<<` takes the count modulo 64, as the common
processors do.
-/

namespace Ctunnel

open Lib

/-! ## Sequences of numbers -/

/-- A window and the numbers accepted so far, newest first, when `seq` arrives. -/
def udpReplayNext (window : Nat) (st : ReplayWindow × List UInt64) (seq : UInt64) :
    ReplayWindow × List UInt64 :=
  match udpReplayAccept window st.1.high st.1.bitmap seq with
  | some (high, bitmap) => (⟨high, bitmap⟩, seq :: st.2)
  | none => st

/-- The numbers arrive one after the other at `high = bitmap = 0`. -/
def udpReplays (window : Nat) (seqs : List UInt64) : ReplayWindow × List UInt64 :=
  seqs.foldl (udpReplayNext window) (⟨0, 0⟩, [])

/-- The counts by which `udp_replay_accept` shifts, besides the constant branch. -/
def udpReplayShifts (window : Nat) (high seq : UInt64) : List Nat :=
  if seq = 0 then []
  else if high < seq then if 64 ≤ seq - high then [] else [(seq - high).toNat]
  else if window ≤ (high - seq).toNat then [] else [(high - seq).toNat]

/-- What the window is for, on one sequence: no number is accepted twice, a number is accepted if
it is above all accepted ones or is not accepted yet and less than `window` behind the highest of
them, and no shift is by 64 or more. -/
structure ReplayExact (window : Nat) (seqs : List UInt64) : Prop where
  once : (udpReplays window seqs).2.Nodup
  takes : ∀ before seq after, seqs = before ++ seq :: after → seq ≠ 0 →
    (ReplayWindow.highest (udpReplays window before).2 < seq.toNat ∨
      (seq ∉ (udpReplays window before).2 ∧
        ReplayWindow.highest (udpReplays window before).2 - seq.toNat < window)) →
    (udpReplays window (before ++ [seq])).2 = seq :: (udpReplays window before).2
  shifts : ∀ before seq after, seqs = before ++ seq :: after →
    ∀ n ∈ udpReplayShifts window (udpReplays window before).1.high seq, n < 64

/-- No number arrives 64 or more behind the highest number before it and still inside the
window. -/
def ReplayNear (window : Nat) (seqs : List UInt64) : Prop :=
  ∀ before seq after, seqs = before ++ seq :: after → seq ≠ 0 →
    ReplayWindow.highest before - seq.toNat < window →
      ReplayWindow.highest before - seq.toNat < 64

variable {window : Nat}

theorem udpReplays_concat (seqs : List UInt64) (seq : UInt64) :
    udpReplays window (seqs ++ [seq]) = udpReplayNext window (udpReplays window seqs) seq := by
  rw [udpReplays, List.foldl_append]
  rfl

theorem highest_concat (seqs : List UInt64) (seq : UInt64) :
    ReplayWindow.highest (seqs ++ [seq]) = max (ReplayWindow.highest seqs) seq.toNat := by
  induction seqs with
  | nil => simp [ReplayWindow.highest]
  | cons s seqs ih =>
      show max s.toNat (ReplayWindow.highest (seqs ++ [seq])) =
        max (max s.toNat (ReplayWindow.highest seqs)) seq.toNat
      rw [ih]
      omega

/-- Whatever the window decides, its high end moves up to a higher number. -/
theorem udpReplayNext_high (st : ReplayWindow × List UInt64) (seq : UInt64) :
    (udpReplayNext window st seq).1.high.toNat = max st.1.high.toNat seq.toNat := by
  unfold udpReplayNext udpReplayAccept
  by_cases hzero : seq = 0
  · rw [if_pos hzero, hzero]
    show st.1.high.toNat = max _ 0
    omega
  rw [if_neg hzero]
  by_cases hnew : st.1.high < seq
  · rw [if_pos hnew]
    have hlt := UInt64.lt_iff_toNat_lt.mp hnew
    show seq.toNat = _
    omega
  · rw [if_neg hnew]
    have hle := UInt64.le_iff_toNat_le.mp (UInt64.not_lt.mp hnew)
    dsimp only
    by_cases hold : window ≤ (st.1.high - seq).toNat
    · rw [if_pos hold]
      show st.1.high.toNat = _
      omega
    · rw [if_neg hold]
      by_cases hmask : st.1.bitmap &&& ((1 : UInt64) <<< (st.1.high - seq)) ≠ 0
      · rw [if_pos hmask]
        show st.1.high.toNat = _
        omega
      · rw [if_neg hmask]
        show st.1.high.toNat = _
        omega

/-- The high end of the window is the highest number that arrived. -/
theorem udpReplays_high (seqs : List UInt64) :
    (udpReplays window seqs).1.high.toNat = ReplayWindow.highest seqs := by
  induction seqs using List.reverseRecOn with
  | nil => rfl
  | append_singleton seqs seq ih =>
      rw [udpReplays_concat, udpReplayNext_high, ih, highest_concat]

/-! ## Near numbers -/

/-- A number that is not between 64 and `window` behind is decided as by the 64-bit window. -/
theorem udpReplayAccept_near (hwindow : 64 ≤ window) (w : ReplayWindow) {seq : UInt64}
    (hnear : seq ≠ 0 → w.high.toNat - seq.toNat < window → w.high.toNat - seq.toNat < 64) :
    udpReplayAccept window w.high w.bitmap seq =
      (w.accept seq).map fun w' => (w'.high, w'.bitmap) := by
  unfold udpReplayAccept ReplayWindow.accept
  by_cases hzero : seq = 0
  · rw [if_pos hzero, if_pos hzero]
    rfl
  rw [if_neg hzero, if_neg hzero]
  by_cases hnew : w.high < seq
  · rw [if_pos hnew, if_pos hnew]
    rfl
  rw [if_neg hnew, if_neg hnew]
  have hle := UInt64.le_iff_toNat_le.mp (UInt64.not_lt.mp hnew)
  have hage : (w.high - seq).toNat = w.high.toNat - seq.toNat :=
    UInt64.toNat_sub_of_le _ _ (UInt64.le_iff_toNat_le.mpr hle)
  have hfar : 64 ≤ w.high - seq ↔ window ≤ (w.high - seq).toNat := by
    rw [UInt64.le_iff_toNat_le, hage]
    show 64 ≤ _ ↔ _
    have hthis := hnear hzero
    omega
  dsimp only
  by_cases hold : 64 ≤ w.high - seq
  · rw [if_pos hold, if_pos (hfar.mp hold)]
    rfl
  · rw [if_neg hold, if_neg (fun h => hold (hfar.mpr h))]
    by_cases hmask : w.bitmap &&& ((1 : UInt64) <<< (w.high - seq)) ≠ 0
    · rw [if_pos hmask, if_pos hmask]
      rfl
    · rw [if_neg hmask, if_neg hmask]
      rfl

/-- One near number keeps the window right: it is accepted exactly if the window takes it. -/
theorem udpReplayNext_near (hwindow : 64 ≤ window) {st : ReplayWindow × List UInt64} {seq : UInt64}
    (htracks : st.1.Tracks st.2) (hhigh : st.1.high.toNat = ReplayWindow.highest st.2)
    (hnodup : st.2.Nodup)
    (hnear : seq ≠ 0 → st.1.high.toNat - seq.toNat < window → st.1.high.toNat - seq.toNat < 64) :
    (udpReplayNext window st seq).1.Tracks (udpReplayNext window st seq).2 ∧
      (udpReplayNext window st seq).1.high.toNat =
        ReplayWindow.highest (udpReplayNext window st seq).2 ∧
      (udpReplayNext window st seq).2.Nodup ∧
      ((st.1.accept seq).isSome = true → (udpReplayNext window st seq).2 = seq :: st.2) := by
  unfold udpReplayNext
  rw [udpReplayAccept_near hwindow st.1 hnear]
  cases haccept : st.1.accept seq with
  | none => exact ⟨htracks, hhigh, hnodup, fun h => absurd h (by simp)⟩
  | some w =>
      obtain ⟨hnew, htracks'⟩ := htracks.accept haccept
      exact ⟨htracks', ReplayWindow.accept_highest hhigh haccept,
        List.nodup_cons.mpr ⟨hnew, hnodup⟩, fun _ => rfl⟩

theorem ReplayNear.front {before after : List UInt64} (h : ReplayNear window (before ++ after)) :
    ReplayNear window before := by
  rintro front seq rest rfl
  exact h front seq (rest ++ after) (by simp)

/-- Along a near sequence the window knows the accepted numbers. -/
theorem udpReplays_near (hwindow : 64 ≤ window) {seqs : List UInt64}
    (h : ReplayNear window seqs) :
    (udpReplays window seqs).1.Tracks (udpReplays window seqs).2 ∧
      (udpReplays window seqs).1.high.toNat = ReplayWindow.highest (udpReplays window seqs).2 ∧
      (udpReplays window seqs).2.Nodup := by
  induction seqs using List.reverseRecOn with
  | nil => exact ⟨ReplayWindow.tracks_empty, rfl, List.nodup_nil⟩
  | append_singleton seqs seq ih =>
      obtain ⟨htracks, hhigh, hnodup⟩ := ih h.front
      have hnear := h seqs seq [] rfl
      rw [← @udpReplays_high window] at hnear
      rw [udpReplays_concat]
      obtain ⟨htracks', hhigh', hnodup', -⟩ := udpReplayNext_near hwindow htracks hhigh hnodup hnear
      exact ⟨htracks', hhigh', hnodup'⟩

/-! ## The theorem -/

/-- For every admitted window length the window does on a sequence what it is for exactly if no
number comes 64 or more behind the highest one before it and still inside the window. -/
theorem udp_replay_exact_iff (b : Build) (seqs : List UInt64) :
    ReplayExact b.udpReplayWindow seqs ↔ ReplayNear b.udpReplayWindow seqs := by
  have hwindow : 64 ≤ b.udpReplayWindow := b.udpReplayWindow_range.1
  constructor
  · intro h before seq after hsplit hzero hinside
    have hhigh := @udpReplays_high b.udpReplayWindow before
    by_cases hnew : (udpReplays b.udpReplayWindow before).1.high < seq
    · have hlt := UInt64.lt_iff_toNat_lt.mp hnew
      omega
    · have hle := UInt64.le_iff_toNat_le.mp (UInt64.not_lt.mp hnew)
      have hage := UInt64.toNat_sub_of_le _ _ (UInt64.le_iff_toNat_le.mpr hle)
      have hshift : (udpReplays b.udpReplayWindow before).1.high.toNat - seq.toNat ∈
          udpReplayShifts b.udpReplayWindow (udpReplays b.udpReplayWindow before).1.high seq := by
        rw [udpReplayShifts, if_neg hzero, if_neg hnew, if_neg (by omega), hage]
        exact List.mem_singleton.mpr rfl
      rw [← hhigh]
      exact h.shifts before seq after hsplit _ hshift
  · intro h
    refine ⟨(udpReplays_near hwindow h).2.2, ?_, ?_⟩
    · intro before seq after hsplit hzero htake
      subst hsplit
      obtain ⟨htracks, hhigh, hnodup⟩ := udpReplays_near hwindow h.front
      have hnear := h before seq after rfl
      rw [← @udpReplays_high b.udpReplayWindow] at hnear
      rw [udpReplays_concat]
      refine (udpReplayNext_near hwindow htracks hhigh hnodup hnear).2.2.2 ?_
      rw [htracks.accept_iff, hhigh]
      obtain hnew | ⟨hunseen, hinside⟩ := htake
      · exact ⟨hzero, .inl hnew⟩
      · exact ⟨hzero, .inr ⟨hhigh ▸ hnear hzero (hhigh ▸ hinside), hunseen⟩⟩
    · intro before seq after hsplit n hn
      have hhigh := @udpReplays_high b.udpReplayWindow before
      have hnear := h before seq after hsplit
      rw [← hhigh] at hnear
      unfold udpReplayShifts at hn
      by_cases hzero : seq = 0
      · rw [if_pos hzero] at hn
        exact absurd hn (by simp)
      rw [if_neg hzero] at hn
      by_cases hnew : (udpReplays b.udpReplayWindow before).1.high < seq
      · rw [if_pos hnew] at hn
        by_cases hfar : 64 ≤ seq - (udpReplays b.udpReplayWindow before).1.high
        · rw [if_pos hfar] at hn
          exact absurd hn (by simp)
        · rw [if_neg hfar, List.mem_singleton] at hn
          have hlt := UInt64.lt_iff_toNat_lt.mp (UInt64.not_le.mp hfar)
          exact hn ▸ hlt
      · rw [if_neg hnew] at hn
        have hle := UInt64.le_iff_toNat_le.mp (UInt64.not_lt.mp hnew)
        have hage := UInt64.toNat_sub_of_le _ _ (UInt64.le_iff_toNat_le.mpr hle)
        by_cases hold : b.udpReplayWindow ≤
            ((udpReplays b.udpReplayWindow before).1.high - seq).toNat
        · rw [if_pos hold] at hn
          exact absurd hn (by simp)
        · rw [if_neg hold, List.mem_singleton] at hn
          rw [hn, hage]
          exact hnear hzero (by omega)

/-- The longest window Kconfig admits. -/
def wideWindowBuild : Build :=
  { defaultBuild with udpReplayWindow := 128, udpReplayWindow_range := by decide }

/-- With 128 numbers, the number 1 is accepted a second time after 66. -/
theorem wide_window_replays :
    (udpReplays wideWindowBuild.udpReplayWindow [1, 66, 1]).2 = [1, 66, 1] ∧
      ¬ ReplayExact wideWindowBuild.udpReplayWindow [1, 66, 1] := by
  have htwice : (udpReplays wideWindowBuild.udpReplayWindow [1, 66, 1]).2 = [1, 66, 1] := by
    decide +kernel
  refine ⟨htwice, fun h => ?_⟩
  have honce := h.once
  rw [htwice] at honce
  revert honce
  decide

end Ctunnel
