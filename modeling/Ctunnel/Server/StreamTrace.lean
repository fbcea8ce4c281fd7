import Ctunnel.Net.StreamTrace
import Ctunnel.Server.Slots

/-!
# The stream set-ups of the server

Every connection that waits for the answer of a client was announced to it: its
START_STREAM, with the metadata of the connection, is in the trace under the keys
of the session. With that, every effect of a run of the server is justified.
-/

namespace Ctunnel

open Lib

variable {b : Build} {m : Monocypher} {cfg : CtConfig} {G : ServerState → ServerService → Prop}
variable {tr tr' es K : List Effect}

/-- What the trace has of the connections of a peer. -/
structure StreamsAnnounced (tr : List Effect) (p : ServerPeer) : Prop where
  /-- A connection that waits was accepted for a service of the peer. -/
  pending : ∀ c ∈ p.pending, c.svc < p.svc.length
  starting : ∀ s ∈ p.starting, s.pending.svc < p.svc.length
  announced : ∀ s ∈ p.starting, Effect.startSend p.ctl.keys p.ctl.clientId (p.context s)
    (some s.pending.metadata) ∈ tr

theorem StreamsAnnounced.empty {p : ServerPeer} (hpending : p.pending = [])
    (hstarting : p.starting = []) : StreamsAnnounced tr p := by
  refine ⟨?_, ?_, ?_⟩
  · rw [hpending]
    exact fun c hc => absurd hc (by simp)
  all_goals
    rw [hstarting]
    exact fun s hs => absurd hs (by simp)

theorem StreamsAnnounced.mono {p : ServerPeer} (h : StreamsAnnounced tr p) (hsub : tr ⊆ tr') :
    StreamsAnnounced tr' p :=
  { h with announced := fun s hs => hsub (h.announced s hs) }

/-- The channel goes on with the same session. -/
theorem StreamsAnnounced.channel {p : ServerPeer} (h : StreamsAnnounced tr p) {c : CtControl}
    (hkeys : c.keys = p.ctl.keys) (hid : c.clientId = p.ctl.clientId) :
    StreamsAnnounced tr { p with ctl := c } := by
  refine { h with announced := fun s hs => ?_ }
  show Effect.startSend c.keys c.clientId (p.context s) _ ∈ tr
  rw [hkeys, hid]
  exact h.announced s hs

/-- Another service does not change what the streams are for. -/
theorem StreamsAnnounced.service {p : ServerPeer} (h : StreamsAnnounced tr p) (s : ServerService) :
    StreamsAnnounced tr { p with svc := p.svc ++ [s] } := by
  have hlen : p.svc.length ≤ (p.svc ++ [s]).length := by simp
  refine ⟨fun c hc => (h.pending c hc).trans_le hlen, fun t ht => (h.starting t ht).trans_le hlen, ?_⟩
  intro t ht
  have hsame : ({ p with svc := p.svc ++ [s] } : ServerPeer).context t = p.context t := by
    unfold ServerPeer.context ServerPeer.service
    rw [List.getD_append _ _ _ _ (h.starting t ht)]
  rw [hsame]
  exact h.announced t ht

/-- Streams are given up, or taken to a relay. -/
theorem StreamsAnnounced.subset {p p' : ServerPeer} (h : StreamsAnnounced tr p)
    (hctl : p'.ctl = p.ctl) (hsvc : p'.svc = p.svc) (hpending : p'.pending ⊆ p.pending)
    (hstarting : p'.starting ⊆ p.starting) : StreamsAnnounced tr p' := by
  refine ⟨fun c hc => ?_, fun s hs => ?_, fun s hs => ?_⟩
  · rw [hsvc]
    exact h.pending c (hpending hc)
  · rw [hsvc]
    exact h.starting s (hstarting hs)
  · have hold := h.announced s (hstarting hs)
    unfold ServerPeer.context ServerPeer.service at hold ⊢
    rw [hctl, hsvc]
    exact hold

/-! ## The moves -/

theorem acceptWorkSequence_channel {c c' : CtControl} {sequence : UInt64}
    (h : acceptWorkSequence c sequence = some c') : c'.keys = c.keys ∧ c'.clientId = c.clientId := by
  obtain ⟨w, -, rfl⟩ := Option.map_eq_some_iff.mp h
  exact ⟨rfl, rfl⟩

theorem WorkBound.channel {f : Socket} {c c' : CtControl} {w : Option CtWork}
    (h : WorkBound m f c w c' K) : c'.keys = c.keys ∧ c'.clientId = c.clientId := by
  cases h with
  | unread | rejected => exact ⟨rfl, rfl⟩
  | accepted id h => exact acceptWorkSequence_channel h

/-- A move justifies its effects and announces the streams it begins. -/
theorem PeerMove.streams {p p' : ServerPeer} (h : PeerMove b m cfg p es p')
    (hp : StreamsAnnounced tr p) (htr : AllStreamJustified m tr) :
    AllStreamJustified m (tr ++ es) ∧ StreamsAnnounced (tr ++ es) p' := by
  have hp' : StreamsAnnounced (tr ++ es) p := hp.mono (List.subset_append_left _ _)
  have hunbound : ∀ {S K : List Effect}, Does es S K → (∀ e ∈ K, e.Unbound) →
      AllStreamJustified m (tr ++ es) := fun hes hK =>
    htr.keyed fun e he => (hK e (hes.keyed ▸ he)).justified
  have hnone : ∀ {S : List Effect}, Does es S [] → AllStreamJustified m (tr ++ es) :=
    fun hes => hunbound hes (by simp)
  -- an answer is for the stream of a connection that waits for it
  have hanswer : ∀ {S K L : List Effect} {index : Nat} {s : StartingConn} {ok : Option Bool},
      p.starting[index]? = some s → AnswerChecked m p.ctl (p.context s) ok K →
      (∀ e ∈ L, e.Unbound) → Does es S (K ++ L) → AllStreamJustified m (tr ++ es) := by
    intro S K L index s ok hs hK hL hes
    refine htr.keyed fun e he => ?_
    rw [hes.keyed] at he
    have hsub : K ⊆ tr ++ es := fun e he =>
      List.mem_append_right _ (mem_of_keyed hes.keyed (List.mem_append_left _ he))
    rcases List.mem_append.mp he with he | he
    · exact hK.justified hsub (hp'.announced s (List.mem_of_getElem? hs)) e he
    · exact (hL e he).justified
  cases h with
  | idle hes => exact ⟨hnone hes, hp'⟩
  | answer hes hmove hfd =>
      exact ⟨hunbound hes hmove.unbound, hp'.channel hmove.same.keys hmove.same.clientId⟩
  | channel hlive hes hmove hfd =>
      exact ⟨hunbound hes hmove.unbound, hp'.channel hmove.same.keys hmove.same.clientId⟩
  | sessions hudp =>
      refine ⟨by rwa [List.append_nil], ?_⟩
      exact hp'.subset rfl rfl (List.Subset.refl _) (List.Subset.refl _)
  | closed hactive hes => exact ⟨hnone hes, .empty rfl rfl⟩
  | refused fd hes => exact ⟨hnone hes, hp'⟩
  | accepted c hlisten hlimit hes =>
      refine ⟨hnone hes, ⟨fun d hd => ?_, hp'.starting, hp'.announced⟩⟩
      rcases List.mem_append.mp hd with hd | hd
      · exact hp'.pending d hd
      · rw [List.mem_singleton.mp hd]
        by_contra hge
        refine hlisten ?_
        rw [ServerPeer.service, List.getD_eq_default _ _ (Nat.not_lt.mp hge)]
        rfl
  | expired index c hc hes =>
      refine ⟨hnone hes, hp'.subset rfl rfl ?_ (List.Subset.refl _)⟩
      exact (swapRemove_subperm p.pending index).subset
  | begun s hpending hwork hroom hid hes =>
      have hsent : startSent p.ctl (p.context s) (some s.pending.metadata) ⊆ tr ++ es := fun e he =>
        List.mem_append_right _ (mem_of_keyed hes.keyed he)
      have hmem : s.pending ∈ p.pending := List.mem_of_head? hpending
      refine ⟨htr.keyed fun e he => startSent_justified hsent e (hes.keyed ▸ he), ⟨?_, ?_, ?_⟩⟩
      · exact fun c hc => hp'.pending c (List.mem_of_mem_tail hc)
      · intro t ht
        rcases List.mem_append.mp ht with ht | ht
        · exact hp'.starting t ht
        · rw [List.mem_singleton.mp ht]
          exact hp'.pending _ hmem
      · intro t ht
        rcases List.mem_append.mp ht with ht | ht
        · exact hp'.announced t ht
        · rw [List.mem_singleton.mp ht]
          exact hsent (by simp [startSent, ServerPeer.context, ServerPeer.service])
  | unbegun c w hpending hwork hK hes =>
      refine ⟨?_, hp'.subset rfl rfl (List.tail_subset _) (List.Subset.refl _)⟩
      rcases hK with rfl | ⟨rnd, rfl⟩
      · exact hnone hes
      · refine htr.keyed fun e he => startSent_justified (fun e he => ?_) e (hes.keyed ▸ he)
        exact List.mem_append_right _ (mem_of_keyed hes.keyed he)
  | waited index ms =>
      refine ⟨by rwa [List.append_nil], ⟨hp'.pending, fun s hs => ?_, fun s hs => ?_⟩⟩
      all_goals
        obtain ⟨j, hj⟩ := List.mem_iff_getElem?.mp hs
        simp only [List.getElem?_modify, Option.map_eq_map, Option.map_eq_some_iff] at hj
        obtain ⟨t, ht, rfl⟩ := hj
        have hmem : t ∈ p.starting := List.mem_of_getElem? ht
        split
      · exact hp'.starting t hmem
      · exact hp'.starting t hmem
      · exact hp'.announced t hmem
      · exact hp'.announced t hmem
  | finished index s k r hs hk hfree hK hr hes =>
      refine ⟨hanswer hs hK (relayDerives_unbound _ _ _) hes, hp'.subset rfl rfl (List.Subset.refl _) ?_⟩
      exact (swapRemove_subperm p.starting index).subset
  | unfinished index s ok hs hok hK hes =>
      refine ⟨hanswer (L := []) hs hK (by simp) (by simpa using hes),
        hp'.subset rfl rfl (List.Subset.refl _) ?_⟩
      exact (swapRemove_subperm p.starting index).subset
  | spoiled index s k r hs hk hfree hK hr hes =>
      refine ⟨hanswer hs hK (relayDerives_unbound _ _ _) hes, hp'.subset rfl rfl (List.Subset.refl _) ?_⟩
      exact (swapRemove_subperm p.starting index).subset
  | relayed k hS hK hrest hes =>
      exact ⟨hunbound hes hK.unbound, hp'.subset rfl rfl (List.Subset.refl _) (List.Subset.refl _)⟩

/-- The trace is justified, and the streams of every peer are announced in it. -/
structure StreamsSound (m : Monocypher) (st : ServerState) (tr : List Effect) : Prop where
  justified : AllStreamJustified m tr
  announced : ∀ i, StreamsAnnounced tr (st.peers i)

theorem StreamsSound.start (b : Build) (control : List BoundSocket) :
    StreamsSound m (.start b control) [] := ⟨.nil, fun _ => .empty rfl rfl⟩

theorem ServerMove.streams {st st' : ServerState} (h : ServerMove b m cfg G st es st')
    (hst : StreamsSound m st tr) (hsettled : st.SlotsSettled b) : StreamsSound m st' (tr ++ es) := by
  have hannounced : ∀ i, StreamsAnnounced (tr ++ es) (st.peers i) :=
    fun i => (hst.announced i).mono (List.subset_append_left _ _)
  have hkeyed : ∀ {S K : List Effect}, Does es S K → (∀ e ∈ K, e.Unbound) →
      AllStreamJustified m (tr ++ es) := fun hes hK =>
    hst.justified.keyed fun e he => (hK e (hes.keyed ▸ he)).justified
  have hupdate : ∀ (i : Nat) {p : ServerPeer}, StreamsAnnounced (tr ++ es) p →
      ∀ j, StreamsAnnounced (tr ++ es) (Function.update st.peers i p j) := by
    intro i p hp j
    by_cases hj : j = i
    · rw [hj, Function.update_self]
      exact hp
    · rw [Function.update_of_ne hj]
      exact hannounced j
  have hquiet : ∀ {S : List Effect}, Does es S [] → AllStreamJustified m (tr ++ es) :=
    fun hes => hkeyed hes (by simp)
  -- a free slot has no streams, whatever session it gets
  have hfree : ∀ {i : Nat}, freeSlot b cfg st.peers = some i →
      (st.peers i).pending = [] ∧ (st.peers i).starting = [] := by
    intro i hi
    have hp := hsettled.settled i (freeSlot_some hi).2
    exact ⟨hp.pending, hp.starting⟩
  cases h with
  | peer i hi hmove =>
      obtain ⟨hjustified, hp⟩ := hmove.streams (hst.announced i) hst.justified
      exact ⟨hjustified, hupdate i hp⟩
  | idle hes | refused fd hes | heard index f hfd hremote hauth hes | removed index c hc hes
  | accepted c hc hroom hremote hes | unregistered hS hes | stopped hes =>
      exact ⟨hquiet hes, hannounced⟩
  | rated rates => exact ⟨by rw [List.append_nil]; exact hst.justified, hannounced⟩
  | bound index c i w hc hi hactive hroom hK hes =>
      obtain ⟨hkeys, hid⟩ := hK.channel
      refine ⟨hkeyed hes hK.unbound, hupdate i ?_⟩
      exact ((hannounced i).channel hkeys hid).subset rfl rfl (List.Subset.refl _) (List.Subset.refl _)
  | unbound fd i hK hes => exact ⟨hkeyed hes hK.unbound, hannounced⟩
  | joined index c i a next hc hi hK hes =>
      obtain ⟨hpending, hstarting⟩ := hfree hi
      exact ⟨hkeyed hes hK.unbound, hupdate i (.empty hpending hstarting)⟩
  | unjoined index c i hc hi hK hes =>
      obtain ⟨hpending, hstarting⟩ := hfree hi
      exact ⟨hkeyed hes hK.unbound, hupdate i (.empty hpending hstarting)⟩
  | registered i s a hi ha hadmitted hset hs hfree hS hes =>
      exact ⟨hquiet hes, hupdate i ((hannounced i).service s)⟩

/-- What one event of the loop keeps. -/
theorem serverStep_streams {s : ServerLoop} {ev : ServerEvent} (hslots : SlotsBounded b s)
    (hrep : Reported s ev) (hsettled : s.state.SlotsSettled b) (h : StreamsSound m s.state tr) :
    StreamsSound m (serverStep b m cfg ev s).state.state (tr ++ (serverStep b m cfg ev s).effects) ∧
      (serverStep b m cfg ev s).state.state.SlotsSettled b := by
  obtain ⟨hwalk, -⟩ := serverStep_walks m cfg hslots hrep tr
  refine hwalk.keeps (I := fun st tr => StreamsSound m st tr ∧ st.SlotsSettled b) ?_ ⟨h, hsettled⟩
  rintro st tr es st' hmove ⟨hsound, hset⟩
  exact ⟨hmove.streams hsound hset, hmove.settled hset⟩

end Ctunnel
