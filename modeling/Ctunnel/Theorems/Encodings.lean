import Ctunnel.Net.Authenticators
import Ctunnel.Net.HandshakeTrace

/-!
# The encodings that are hashed and MACed

`transcript`, `workmac` and `ct_derive_data` concatenate a label, fields of fixed
length and ids behind their two-byte lengths. An id within its build-time limit
fits its length, so each encoding determines what went into it, and the labels
keep the encodings apart.
-/

namespace Ctunnel

open Lib

variable {b b' : Build}

theorem Build.clientId_short {n : Nat} (h : n ≤ b.maxClientIdLength) : n ≤ 65535 := by
  have hlimit := b.maxClientIdLength_range.2
  omega

theorem Build.serviceId_short {n : Nat} (h : n ≤ b.maxServiceIdLength) : n ≤ 65535 := by
  have hlimit := b.maxServiceIdLength_range.2
  omega

/-! ## The transcript -/

/-- The transcript that the handshake functions compute for the fields `f`. -/
def fieldsTranscript (b : Build) (f : HandshakeFields) : Option Bytes :=
  transcript (b.controlBufferSize * 2) (helloBytes f) f.serverRandom f.serverEphemeral f.cipher
    f.clientIdentity f.serverIdentity

/-- The buffers have room for the transcript of every admitted id. -/
theorem fieldsTranscript_eq {f : HandshakeFields} (hf : f.clientId.length ≤ b.maxClientIdLength) :
    fieldsTranscript b f = some (transcriptBytes f) := by
  have hroom := b.controlBufferSize_ids.1
  have hhello : (helloBytes f).length = 70 + f.clientId.length := by
    simp [helloBytes]
    omega
  have hfits : ¬ 20 + 5 + (helloBytes f).length + 65 + 64 > b.controlBufferSize * 2 := by omega
  rw [fieldsTranscript, transcript, if_neg hfits]
  rfl

theorem fieldsTranscript_inj {f f' : HandshakeFields}
    (hf : f.clientId.length ≤ b.maxClientIdLength)
    (hf' : f'.clientId.length ≤ b'.maxClientIdLength)
    (h : fieldsTranscript b f = fieldsTranscript b' f') : f = f' := by
  rw [fieldsTranscript_eq hf, fieldsTranscript_eq hf'] at h
  exact transcriptBytes_inj (Build.clientId_short hf) (Build.clientId_short hf')
    (Option.some.inj h)

/-! ## Work connections and stream keys -/

theorem workmacInput_inj {c c' : CtControl} {workId workId' : Octets 32}
    (hc : c.clientId.length ≤ 65535) (hc' : c'.clientId.length ≤ 65535)
    (h : (workmacInput c workId).bytes = (workmacInput c' workId').bytes) :
    c.keys.sessionId = c'.keys.sessionId ∧ c.clientId = c'.clientId ∧ workId = workId' := by
  simp only [workmacInput, WriteBuf.new_putAll_bytes, List.flatten_cons, List.flatten_nil,
    List.append_nil] at h
  have hrest := List.append_cancel_left h
  obtain ⟨hsession, hrest⟩ := append_u64_inj hrest
  obtain ⟨hclient, hrest⟩ := append_string_inj hc hc' hrest
  have hwork := List.append_cancel_left hrest
  exact ⟨hsession, CString.ext hclient, List.Vector.eq _ _ hwork⟩

theorem Direction.toByte_inj {d d' : Direction} (h : d.toByte = d'.toByte) : d = d' := by
  cases d with
  | c2s =>
      cases d' with
      | c2s => rfl
      | s2c => exact absurd h (by decide)
  | s2c =>
      cases d' with
      | c2s => exact absurd h (by decide)
      | s2c => rfl

theorem deriveDataContext_inj {x x' : StreamContext} {d d' : Direction}
    (hx : x.serviceId.length ≤ 65535) (hx' : x'.serviceId.length ≤ 65535)
    (h : (deriveDataContext x d).bytes = (deriveDataContext x' d').bytes) : x = x' ∧ d = d' := by
  simp only [deriveDataContext, WriteBuf.new_putAll_bytes, List.flatten_cons, List.flatten_nil,
    List.append_nil] at h
  have hrest := List.append_cancel_left h
  obtain ⟨hstream, hrest⟩ := append_u64_inj hrest
  obtain ⟨hrandom, hrest⟩ := append_field_inj hrest
  obtain ⟨hwork, hrest⟩ := append_field_inj hrest
  obtain ⟨hservice, hrest⟩ := append_string_inj hx hx' hrest
  simp only [List.cons_append, List.nil_append, List.cons.injEq] at hrest
  obtain ⟨hmode, hdir, -⟩ := hrest
  refine ⟨?_, Direction.toByte_inj hdir⟩
  cases x
  cases x'
  simp only [StreamContext.mk.injEq]
  exact ⟨hstream, hrandom, hwork, CString.ext hservice, CtEncMode.toByte_inj hmode⟩

theorem workmacInput_ne_context {c : CtControl} {workId : Octets 32} {x : StreamContext}
    {d : Direction} : (workmacInput c workId).bytes ≠ (deriveDataContext x d).bytes := by
  simp only [workmacInput, deriveDataContext, WriteBuf.new_putAll_bytes, List.flatten_cons]
  exact append_ne_of_getD (i := 11) (by decide) (by decide) (by decide)

/-! ## All of them -/

/-- For ids within the limits of the builds that encode them. -/
theorem encodings_inj (b b' : Build) :
    (∀ f f' : HandshakeFields, f.clientId.length ≤ b.maxClientIdLength →
      f'.clientId.length ≤ b'.maxClientIdLength →
      fieldsTranscript b f = fieldsTranscript b' f' → f = f') ∧
    (∀ (c c' : CtControl) (workId workId' : Octets 32),
      c.clientId.length ≤ b.maxClientIdLength → c'.clientId.length ≤ b'.maxClientIdLength →
      (workmacInput c workId).bytes = (workmacInput c' workId').bytes →
      c.keys.sessionId = c'.keys.sessionId ∧ c.clientId = c'.clientId ∧ workId = workId') ∧
    (∀ (x x' : StreamContext) (d d' : Direction), x.serviceId.length ≤ b.maxServiceIdLength →
      x'.serviceId.length ≤ b'.maxServiceIdLength →
      (deriveDataContext x d).bytes = (deriveDataContext x' d').bytes → x = x' ∧ d = d') ∧
    (∀ (c c' : CtControl) (workId : Octets 32) (type : UInt8) (role : SenderRole)
      (x : StreamContext) (md : Option CtStreamMetadata) (ok : UInt8),
      (workmacInput c workId).bytes ≠ (streammacInput c' type role x md ok).bytes) ∧
    ∀ (c : CtControl) (workId : Octets 32) (x : StreamContext) (d : Direction),
      (workmacInput c workId).bytes ≠ (deriveDataContext x d).bytes := by
  refine ⟨?_, ?_, ?_, ?_, ?_⟩
  · intro f f' hf hf' h
    exact fieldsTranscript_inj hf hf' h
  · intro c c' workId workId' hc hc' h
    exact workmacInput_inj (Build.clientId_short hc) (Build.clientId_short hc') h
  · intro x x' d d' hx hx' h
    exact deriveDataContext_inj (Build.serviceId_short hx) (Build.serviceId_short hx') h
  · intro c c' workId type role x md ok
    exact workmacInput_ne
  · intro c workId x d
    exact workmacInput_ne_context

/-- Handshake fields of a client, zero but for the id and the one cipher. -/
def namedFields (id : Bytes) : HandshakeFields :=
  ⟨id, .replicate 32 0, .replicate 32 0, 1, .replicate 32 0, .replicate 32 0, 1, .replicate 32 0,
    .replicate 32 0⟩

/-- An id and its first half are kept apart, whichever builds encode them. -/
theorem encodings_apart :
    fieldsTranscript defaultBuild (namedFields [97, 98]) ≠
      fieldsTranscript miniBuild (namedFields [97]) := by
  intro h
  have hfields := (encodings_inj defaultBuild miniBuild).1 _ _ (by decide) (by decide) h
  have hid : ([97, 98] : Bytes) = [97] := congrArg HandshakeFields.clientId hfields
  exact absurd hid (by decide)

end Ctunnel
