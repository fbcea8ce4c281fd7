import Ctunnel.Net.KeyUses

/-!
# One stream for each work connection

An end of a session derives the keys of a stream from the master key of the session
and from a context with the id of a work connection. The ids it may still use are a
pool: those of its work connections, and those it may yet issue or accept.
-/

namespace Ctunnel

open Lib

variable {b : Build} {m : Monocypher} {e : End} {K : List Effect}

/-- The master key of an end that has a session, and the work ids left to it. -/
def masterHolder (b : Build) (e : End) (live : Bool) (c : CtControl) (A : Set (Octets 32)) :
    Option ((End × Octets 32) × Set (Octets 32)) :=
  if b.dataEncryption = true ∧ live = true then some ((e, c.keys.dataMaster), A) else none

theorem masterHolder_dead (c : CtControl) (A : Set (Octets 32)) :
    masterHolder b e false c A = none := by
  simp [masterHolder]

theorem masterHolder_some {live : Bool} {c : CtControl} {A A' : Set (Octets 32)}
    {k : End × Octets 32} (h : masterHolder b e live c A = some (k, A')) :
    b.dataEncryption = true ∧ live = true ∧ k = (e, c.keys.dataMaster) ∧ A' = A := by
  unfold masterHolder at h
  split at h
  · rename_i hlive
    simp only [Option.some.injEq, Prod.mk.injEq] at h
    exact ⟨hlive.1, hlive.2, h.1.symm, h.2.symm⟩
  · exact absurd h (by simp)

/-- The session goes on with fewer ids, or ends. -/
theorem masterHolder_kept {live live' : Bool} {c c' : CtControl} {A A' : Set (Octets 32)}
    (hkeys : c'.keys = c.keys) (hlive : live' = true → live = true) (hA : A' ⊆ A)
    (k : End × Octets 32) (B : Set (Octets 32)) (h : masterHolder b e live' c' A' = some (k, B)) :
    ∃ B', masterHolder b e live c A = some (k, B') ∧ B ⊆ B' := by
  obtain ⟨hdata, hlive', rfl, rfl⟩ := masterHolder_some h
  refine ⟨A, ?_, hA⟩
  rw [masterHolder, if_pos ⟨hdata, hlive hlive'⟩, hkeys]

section Logs

variable {ι : Type} {holds holds' : ι → Option ((End × Octets 32) × Set (Octets 32))}
variable {log : List (KeyUse (End × Octets 32) (Octets 32))} {i : ι}

theorem ctDeriveSession_master {shared : Octets 32} {t : Bytes} {keys : CtSessionKeys}
    (h : ctDeriveSession b m shared t = some keys) (hdata : b.dataEncryption = true) :
    keys.dataMaster = (masterInput shared t).key m := by
  rw [ctDeriveSession_eq, hdata] at h
  rw [← Option.some.inj h]
  rfl

/-- A session is derived; the end may have it. -/
theorem session_mastered {shared : Octets 32} {t : Bytes} {keys : CtSessionKeys} {c : CtControl}
    {l : Bool} {A : Set (Octets 32)} (hkeys : ctDeriveSession b m shared t = some keys)
    (hc : l = true → c.keys = keys) (hK : ∀ f ∈ K, f.sealInput = none) (h : KeysHeld holds log)
    (hnew : (derivedKeys (log ++ workLog m (.deriveSession e shared t :: K))).Nodup)
    (hrest : Beyond i holds holds') (hi : holds' i = masterHolder b e l c A) :
    KeysHeld holds' (log ++ workLog m (.deriveSession e shared t :: K)) := by
  have hone : workLog m (.deriveSession e shared t :: K) =
      [.derived (e, (masterInput shared t).key m)] := by
    show .derived (e, (masterInput shared t).key m) :: workLog m K = _
    rw [workLog_underived hK]
  rw [hone] at hnew ⊢
  refine h.derive (i := i) (not_mem_of_derivedKeys_nodup hnew) hrest fun k B hB => ?_
  rw [hi] at hB
  obtain ⟨hdata, hlive, rfl, -⟩ := masterHolder_some hB
  rw [hc hlive, ctDeriveSession_master hkeys hdata]

/-- The keys of a stream are derived, and its work id is gone. -/
theorem relayDerives_mastered {c : CtControl} {x : StreamContext} {l : Bool} {c' : CtControl}
    {A A' : Set (Octets 32)} (h : KeysHeld holds log) (hi : holds i = masterHolder b e true c A)
    (hrest : Beyond i holds holds') (hi' : holds' i = masterHolder b e l c' A')
    (hkeys : c'.keys = c.keys) (hx : x.workId ∈ A) (hA : A' ⊆ A) (hx' : x.workId ∉ A') :
    KeysHeld holds' (log ++ workLog m (relayDerives b e c x)) := by
  unfold relayDerives
  split
  · rename_i hdata
    have hheld : holds i = some ((e, c.keys.dataMaster), A) := by
      rw [hi, masterHolder, if_pos ⟨hdata.1, rfl⟩]
    refine h.use (n := x.workId) hheld hx hrest fun k B hB => ?_
    obtain ⟨-, -, rfl, rfl⟩ := masterHolder_some (hi'.symm.trans hB)
    exact ⟨by rw [hkeys], hA, hx'⟩
  · show KeysHeld holds' (log ++ [])
    rw [List.append_nil]
    refine h.keep_one hrest fun k B hB => ?_
    rw [hi]
    exact masterHolder_kept hkeys (fun _ => rfl) hA k B (hi'.symm.trans hB)

end Logs

end Ctunnel
