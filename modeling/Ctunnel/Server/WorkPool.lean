import Ctunnel.Net.WorkPool
import Ctunnel.Server.KeyUses

/-!
# The work connections of the server

The ids of a peer's idle work connections and of those of its starting streams are
different and will not be accepted again, and a stream takes its id out of them. So
no two streams of a session are set up on one work connection.
-/

namespace Ctunnel

open Lib

/-- The ids `ct_work_accept_bind` may yet accept. -/
def CtControl.acceptable (c : CtControl) : Set (Octets 32) :=
  {id | (c.workWindow.accept (workSequence id)).isSome = true}

/-- The ids of the work connections that no stream has taken for good. -/
def ServerPeer.workIds (p : ServerPeer) : List (Octets 32) :=
  p.work.map CtWork.id ++ p.starting.map fun s => s.work.id

structure ServerPeer.WorkSound (p : ServerPeer) : Prop where
  tracked : ∃ A, p.ctl.workWindow.Tracks A
  pool : PoolSound p.workIds p.ctl.acceptable

/-- The master key of a peer's session. -/
def ServerPeer.master (b : Build) (p : ServerPeer) (_ : Unit) :
    Option ((End × Octets 32) × Set (Octets 32)) :=
  masterHolder b .server p.active p.ctl (poolNumbers p.workIds p.ctl.acceptable)

variable {b : Build} {m : Monocypher} {cfg : CtConfig} {G : ServerState → ServerService → Prop}
variable {tr es : List Effect} {ρ : Type}
variable {rest : ρ → Option ((End × Octets 32) × Set (Octets 32))}

/-- The holders of master keys: the peers and the rest. -/
abbrev withMasters (b : Build) (peers : Nat → ServerPeer)
    (rest : ρ → Option ((End × Octets 32) × Set (Octets 32))) :
    (Nat × Unit) ⊕ ρ → Option ((End × Octets 32) × Set (Octets 32)) :=
  withSlots (ServerPeer.master b) peers rest

theorem workSound_empty {p : ServerPeer} {A : List UInt64} (htracked : p.ctl.workWindow.Tracks A)
    (hwork : p.work = []) (hstarting : p.starting = []) : p.WorkSound := by
  refine ⟨⟨A, htracked⟩, ?_⟩
  rw [ServerPeer.workIds, hwork, hstarting]
  exact .nil

theorem ControlMove.window {c c' : CtControl} {K : List Effect} (h : ControlMove c K c') :
    c'.workWindow = c.workWindow := by
  unfold CtControl.workWindow
  rw [h.same.workRxHigh, h.same.workRxBitmap]

section Peers

variable {peers : Nat → ServerPeer} {i : Nat} {p : ServerPeer}

/-- The masters of the other slots. -/
theorem beyond_master : Beyond (.inl (i, ())) (withMasters b peers rest)
    (withMasters b (Function.update peers i p) rest) := by
  refine fun j hj => withSlots_update (P := fun j => j = .inl (i, ())) (fun l hl => ?_) j hj
  exact absurd rfl hl

/-- A peer that is not active has no session. -/
theorem master_inactive (h : p.active = false) :
    withMasters b (Function.update peers i p) rest (.inl (i, ())) = none := by
  refine (withSlots_self ()).trans ?_
  rw [ServerPeer.master, h, masterHolder_dead]

theorem unmastered {log : List (KeyUse (End × Octets 32) (Octets 32))}
    (hc : KeysHeld (withMasters b peers rest) log) (h : p.active = false) :
    KeysHeld (withMasters b (Function.update peers i p) rest) log := by
  refine hc.keep_one (i := .inl (i, ())) beyond_master fun k B hB => ?_
  rw [master_inactive h] at hB
  exact absurd hB (by simp)

/-- A peer keeps its session, and no more work connections than it had. -/
theorem peer_mastered {log : List (KeyUse (End × Octets 32) (Octets 32))}
    (hp : (peers i).WorkSound) (hc : KeysHeld (withMasters b peers rest) log)
    (hkeys : p.ctl.keys = (peers i).ctl.keys) (hwindow : p.ctl.workWindow = (peers i).ctl.workWindow)
    (hactive : p.active = true → (peers i).active = true)
    (hids : p.workIds.Subperm (peers i).workIds) :
    p.WorkSound ∧ KeysHeld (withMasters b (Function.update peers i p) rest) log := by
  have hacceptable : p.ctl.acceptable = (peers i).ctl.acceptable := by
    unfold CtControl.acceptable
    rw [hwindow]
  refine ⟨⟨hwindow ▸ hp.tracked, hp.pool.fewer hids hacceptable.subset⟩, ?_⟩
  refine hc.keep_one (i := .inl (i, ())) beyond_master fun k B hB => ?_
  refine masterHolder_kept hkeys hactive ?_ k B ((withSlots_self ()).symm.trans hB)
  exact poolNumbers_mono hids.subset hacceptable.subset

theorem workIds_begun {q : ServerPeer} {w : CtWork} {s : StartingConn}
    (hwork : q.work.getLast? = some w) (hs : s.work = w) :
    ({ q with work := q.work.dropLast, starting := q.starting ++ [s] } : ServerPeer).workIds.Perm
      q.workIds := by
  obtain ⟨ws, hws⟩ := List.getLast?_eq_some_iff.mp hwork
  have hids : q.workIds = ws.map CtWork.id ++ ([w.id] ++ q.starting.map fun s => s.work.id) := by
    rw [ServerPeer.workIds, hws, List.map_append, List.append_assoc]
    rfl
  rw [hids]
  show (q.work.dropLast.map CtWork.id ++ (q.starting ++ [s]).map fun s => s.work.id).Perm _
  rw [hws, List.dropLast_concat, List.map_append, ← hs]
  exact (List.perm_append_comm).append_left _

theorem workIds_unbegun {q : ServerPeer} :
    (q.work.dropLast.map CtWork.id ++ q.starting.map fun s => s.work.id).Subperm q.workIds :=
  ((List.dropLast_sublist q.work).map _ |>.append (List.Sublist.refl _)).subperm

theorem workIds_taken {q : ServerPeer} {index : Nat} {s : StartingConn}
    (hs : q.starting[index]? = some s) :
    q.workIds.Perm (s.work.id :: ({ q with
      starting := swapRemove q.starting index } : ServerPeer).workIds) := by
  have hperm := (swapRemove_perm hs).map fun s => s.work.id
  calc q.workIds
      |>.Perm (q.work.map CtWork.id ++
        (s.work.id :: (swapRemove q.starting index).map fun s => s.work.id)) := hperm.append_left _
    _ |>.Perm _ := List.perm_middle

/-- What a move of a peer does to its session. -/
theorem PeerMove.mastered (h : PeerMove b m cfg (peers i) es p) (hp : (peers i).WorkSound)
    (hsettled : (peers i).Settled) (hc : KeysHeld (withMasters b peers rest) (workLog m tr)) :
    p.WorkSound ∧
      KeysHeld (withMasters b (Function.update peers i p) rest) (workLog m (tr ++ es)) := by
  rw [workLog_append]
  have hkept : ∀ {S K : List Effect}, Does es S K → (∀ e ∈ K, e.sealInput = none) →
      p.ctl.keys = (peers i).ctl.keys → p.ctl.workWindow = (peers i).ctl.workWindow →
      (p.active = true → (peers i).active = true) → p.workIds.Subperm (peers i).workIds →
      p.WorkSound ∧ KeysHeld (withMasters b (Function.update peers i p) rest)
        (workLog m tr ++ workLog m es) := by
    intro S K hes hK hkeys hwindow hactive hids
    rw [workLog_of_keyed hes.keyed, workLog_underived hK, List.append_nil]
    exact peer_mastered hp hc hkeys hwindow hactive hids
  have hsame : ∀ {S K : List Effect}, Does es S K → (∀ e ∈ K, e.sealInput = none) →
      p.ctl = (peers i).ctl → (p.active = true → (peers i).active = true) →
      p.workIds.Subperm (peers i).workIds →
      p.WorkSound ∧ KeysHeld (withMasters b (Function.update peers i p) rest)
        (workLog m tr ++ workLog m es) := by
    intro S K hes hK hctl hactive hids
    exact hkept hes hK (by rw [hctl]) (by rw [hctl]) hactive hids
  -- a stream is set up, or fails to be, and its work connection is gone
  have hstream : ∀ {S K : List Effect} {index : Nat} {s : StartingConn},
      (peers i).starting[index]? = some s → (∀ e ∈ K, e.sealInput = none) →
      Does es S (K ++ relayDerives b .server (peers i).ctl ((peers i).context s)) →
      p.ctl = (peers i).ctl → p.workIds = ({ peers i with
        starting := swapRemove (peers i).starting index } : ServerPeer).workIds →
      p.WorkSound ∧ KeysHeld (withMasters b (Function.update peers i p) rest)
        (workLog m tr ++ workLog m es) := by
    intro S K index s hs hK hes hctl hids
    have hperm := workIds_taken hs
    rw [← hids] at hperm
    obtain ⟨hmem, hsub, hgone⟩ := hp.pool.taken hperm
    have hactive : (peers i).active = true := by
      by_contra hno
      rw [(hsettled (by simpa using hno)).starting] at hs
      exact absurd hs (by simp)
    refine ⟨⟨hctl ▸ hp.tracked, hp.pool.fewer ?_ ?_⟩, ?_⟩
    · exact (List.sublist_cons_self _ _).subperm.trans hperm.symm.subperm
    · rw [hctl]
    · rw [workLog_of_keyed hes.keyed, workLog_append, workLog_underived hK, List.nil_append]
      refine relayDerives_mastered (i := .inl (i, ())) hc ?_ beyond_master (withSlots_self ())
        (congrArg _ hctl) hmem ?_ ?_
      · show masterHolder b .server (peers i).active (peers i).ctl _ = _
        rw [hactive]
      · rw [hctl]
        exact hsub
      · rw [hctl]
        exact hgone
  cases h with
  | idle hes | refused fd hes | accepted c hlisten hlimit hes | expired index c hpending hes =>
      exact hsame hes (by simp) rfl id (List.Subperm.refl _)
  | answer hes hmove hfd | channel hlive hes hmove hfd =>
      exact hkept hes hmove.underived hmove.same.keys hmove.window id (List.Subperm.refl _)
  | sessions hudp =>
      exact hsame (S := []) (K := []) ⟨rfl, rfl⟩ (by simp) rfl id (List.Subperm.refl _)
  | closed hactive hes =>
      refine ⟨workSound_empty ReplayWindow.tracks_empty rfl rfl, ?_⟩
      rw [workLog_of_keyed hes.keyed, show workLog m [] = [] from rfl, List.append_nil]
      exact unmastered hc rfl
  | begun s hpending hwork hroom hid hes =>
      refine hsame hes (fun e he => (startSent_keyless _ _ _ e he).1) rfl id ?_
      exact (workIds_begun hwork rfl).subperm
  | unbegun c w hpending hwork hK hes =>
      refine hsame hes (fun e he => ?_) rfl id workIds_unbegun
      rcases hK with rfl | ⟨rnd, rfl⟩
      · exact absurd he (by simp)
      · exact (startSent_keyless _ _ _ e he).1
  | waited index ms =>
      refine hsame (S := []) (K := []) ⟨rfl, rfl⟩ (by simp) rfl id (List.Perm.subperm ?_)
      refine List.Perm.of_eq (congrArg ((peers i).work.map CtWork.id ++ ·) ?_)
      show ((peers i).starting.modify index _).map _ = _
      refine List.ext_getElem? fun j => ?_
      simp only [List.getElem?_map, List.getElem?_modify]
      split <;> cases (peers i).starting[j]? <;> rfl
  | finished index s k r hs hk hfree hK hr hes =>
      exact hstream hs (fun e he => (hK.keyless e he).1) hes rfl rfl
  | unfinished index s ok hs hok hK hes =>
      refine hsame hes (fun e he => (hK.keyless e he).1) rfl id ?_
      exact (List.sublist_cons_self _ _).subperm.trans (workIds_taken hs).symm.subperm
  | spoiled index s k r hs hk hfree hK hr hes =>
      exact hstream hs (fun e he => (hK.keyless e he).1) hes rfl rfl
  | relayed k hS hK hrest hes => exact hsame hes hK.underived rfl id (List.Subperm.refl _)

end Peers

theorem WorkBound.window {f : Socket} {c c' : CtControl} {w : CtWork} {K : List Effect}
    (h : WorkBound m f c (some w) c' K) :
    c'.keys = c.keys ∧ c.workWindow.accept (workSequence w.id) = some c'.workWindow := by
  cases h with
  | accepted id h =>
      obtain ⟨v, hv, rfl⟩ := Option.map_eq_some_iff.mp h
      exact ⟨rfl, hv⟩

theorem FinishMove.window {fd : Socket} {hs : CtServerHandshake} {c c' : CtControl}
    {a : Option CtAuthorizedClient} {K : List Effect} (h : FinishMove b m fd hs c a c' K)
    {A : List UInt64} (hc : c.workWindow.Tracks A) : ∃ A, c'.workWindow.Tracks A := by
  cases h with
  | early => exact ⟨A, hc⟩
  | underived => exact ⟨[], ReplayWindow.tracks_empty⟩
  | unsent hkeys hsend hfd => exact ⟨[], hsend.window ▸ ReplayWindow.tracks_empty⟩
  | done ha hkeys hsend hfd => exact ⟨[], hsend.window ▸ ReplayWindow.tracks_empty⟩

theorem ServerMove.mastered {st st' : ServerState} (h : ServerMove b m cfg G st es st')
    (hsettled : st.SlotsSettled b) (hsound : ∀ i, (st.peers i).WorkSound)
    (hc : KeysHeld (withMasters b st.peers rest) (workLog m tr))
    (hnew : (derivedKeys (workLog m (tr ++ es))).Nodup) :
    (∀ i, (st'.peers i).WorkSound) ∧
      KeysHeld (withMasters b st'.peers rest) (workLog m (tr ++ es)) := by
  have hupdate : ∀ (i : Nat) {p : ServerPeer}, p.WorkSound →
      ∀ j, (Function.update st.peers i p j).WorkSound := by
    intro i p hp j
    by_cases hj : j = i
    · rw [hj, Function.update_self]
      exact hp
    · rw [Function.update_of_ne hj]
      exact hsound j
  have hquiet : ∀ {S K : List Effect}, Does es S K → (∀ e ∈ K, e.sealInput = none) →
      workLog m (tr ++ es) = workLog m tr := by
    intro S K hes hK
    rw [workLog_append, workLog_of_keyed hes.keyed, workLog_underived hK, List.append_nil]
  -- a free slot has no work connections
  have hfree : ∀ {i : Nat}, freeSlot b cfg st.peers = some i →
      (st.peers i).active = false ∧ (st.peers i).work = [] ∧ (st.peers i).starting = [] := by
    intro i hi
    have hp := hsettled.settled i (freeSlot_some hi).2
    exact ⟨(freeSlot_some hi).2, hp.work, hp.starting⟩
  cases h with
  | peer i hi hmove =>
      obtain ⟨hp, hheld⟩ := hmove.mastered (hsound i) (hsettled.settled i) hc
      exact ⟨hupdate i hp, hheld⟩
  | idle hes | refused fd hes | heard index f hfd hremote hauth hes | removed index c hconn hes
  | accepted c hzero hroom hremote hes | unregistered hS hes | stopped hes =>
      rw [hquiet hes (by simp)]
      exact ⟨hsound, hc⟩
  | rated rates => exact ⟨hsound, by rwa [List.append_nil]⟩
  | bound index c i w hcs hi hactive hroom hK hes =>
      obtain ⟨hkeys, haccept⟩ := hK.window
      obtain ⟨A, htracks⟩ := (hsound i).tracked
      have hbefore := fun t => htracks.accept_before (t := t) haccept
      rw [hquiet hes fun e he => (hK.keyless e he).1]
      -- the id is accepted once
      have hfresh : w.id ∈ (st.peers i).ctl.acceptable := by
        show ((st.peers i).ctl.workWindow.accept (workSequence w.id)).isSome = true
        rw [haccept]
        rfl
      have hsub := fun id h => (hbefore (workSequence id) h).1
      have hgone := fun h => (hbefore (workSequence w.id) h).2 rfl
      have hperm : ((st.peers i).workIds ++ [w.id]).Perm (((st.peers i).work ++ [w]).map CtWork.id ++
          (st.peers i).starting.map fun s => s.work.id) := by
        rw [ServerPeer.workIds, List.map_append, List.append_assoc, List.append_assoc]
        exact List.perm_append_comm.append_left _
      refine ⟨hupdate i ⟨⟨_, (htracks.accept haccept).2⟩, ?_⟩, ?_⟩
      · exact ((hsound i).pool.issue hfresh hsub hgone).fewer hperm.symm.subperm (fun _ h => h)
      · refine hc.keep_one (i := .inl (i, ())) beyond_master fun k B hB => ?_
        refine masterHolder_kept hkeys id ?_ k B ((withSlots_self ()).symm.trans hB)
        exact (poolNumbers_mono hperm.symm.subset (fun _ h => h)).trans
          (poolNumbers_issue hfresh hsub)
  | unbound fd i hK hes =>
      rw [hquiet hes fun e he => (hK.keyless e he).1]
      exact ⟨hsound, hc⟩
  | @joined _ _ index c i a next ctl hcs hi hK hes =>
      obtain ⟨-, hwork, hstarting⟩ := hfree hi
      obtain ⟨A, htracks⟩ := (hsound i).tracked
      obtain ⟨A', htracks'⟩ := hK.window htracks
      refine ⟨hupdate i (workSound_empty htracks' hwork hstarting), ?_⟩
      rw [workLog_append, workLog_of_keyed hes.keyed] at hnew ⊢
      cases hK with
      | done ha hkeys hsend hfd =>
          exact session_mastered (i := .inl (i, ())) (l := true)
            (A := poolNumbers (st.peers i).workIds ctl.acceptable) hkeys (fun _ => hsend.same.keys)
            hsend.underived hc hnew beyond_master (withSlots_self ())
  | unjoined index c i hcs hi hK hes =>
      obtain ⟨hfreed, hwork, hstarting⟩ := hfree hi
      obtain ⟨A, htracks⟩ := (hsound i).tracked
      obtain ⟨A', htracks'⟩ := hK.window htracks
      refine ⟨hupdate i (workSound_empty htracks' hwork hstarting), ?_⟩
      rw [workLog_append, workLog_of_keyed hes.keyed] at hnew ⊢
      cases hK with
      | early | underived =>
          rw [show workLog m [] = [] from rfl, List.append_nil]
          exact unmastered hc hfreed
      | unsent hkeys hsend hfd =>
          refine session_mastered (i := .inl (i, ())) (l := false) (c := .zero) (A := ∅) hkeys
            (by simp) hsend.underived hc hnew beyond_master ?_
          refine (master_inactive ?_).trans (masterHolder_dead _ _).symm
          exact hfreed
  | registered i s a hi ha hadmitted hset hs hfree hS hes =>
      rw [hquiet hes (by simp)]
      obtain ⟨hp, hheld⟩ := peer_mastered (p := { st.peers i with svc := (st.peers i).svc ++ [s] })
        (hsound i) hc rfl rfl id (List.Subperm.refl _)
      exact ⟨hupdate i hp, hheld⟩

end Ctunnel
