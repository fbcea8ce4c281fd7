import Ctunnel.Net.Stream

/-!
# What authenticators bind

The input of `streammac` determines the session id, the client, the stream, the
metadata, the message type, the role and the result, although NULL metadata and
given metadata make blocks of different lengths; and no input of `workmac` is one
of `streammac`.
-/

namespace Ctunnel

open Lib

variable {c c' : CtControl}

theorem endpoint_block_inj {e e' : CtEndpoint} {r r' : Bytes}
    (h : e.family :: (e.addr.toList ++ (ctPutU16 e.port ++ r)) =
      e'.family :: (e'.addr.toList ++ (ctPutU16 e'.port ++ r'))) : e = e' ∧ r = r' := by
  obtain ⟨hfamily, hrest⟩ := List.cons.inj h
  obtain ⟨haddr, hrest⟩ := List.append_inj hrest (by simp)
  obtain ⟨hport, hrest⟩ := append_u16_inj hrest
  refine ⟨?_, hrest⟩
  cases e
  cases e'
  simp only [CtEndpoint.mk.injEq]
  exact ⟨hfamily, List.Vector.eq _ _ haddr, hport⟩

/-- The two forms of the metadata block are told apart by their lengths. -/
theorem streammacMetadata_inj {md md' : Option CtStreamMetadata} {r r' : Bytes}
    (hlen : r.length = r'.length)
    (h : (streammacMetadata md).flatten ++ r = (streammacMetadata md').flatten ++ r') :
    md = md' ∧ r = r' := by
  have htotal := congrArg List.length h
  cases md with
  | none =>
      cases md' with
      | none => exact ⟨rfl, List.append_cancel_left h⟩
      | some v' =>
          simp [streammacMetadata] at htotal
          omega
  | some v =>
      cases md' with
      | none =>
          simp [streammacMetadata] at htotal
          omega
      | some v' =>
          simp only [streammacMetadata, List.flatten_cons, List.flatten_nil, List.append_nil,
            List.append_assoc, List.cons_append, List.nil_append] at h
          obtain ⟨hproxy, hrest⟩ := List.cons.inj h
          obtain ⟨hsource, hrest⟩ := endpoint_block_inj hrest
          obtain ⟨hdestination, hrest⟩ := endpoint_block_inj hrest
          refine ⟨?_, hrest⟩
          cases v
          cases v'
          simp only [Option.some.injEq, CtStreamMetadata.mk.injEq]
          exact ⟨CtProxyProtocolMode.toByte_inj hproxy, hsource, hdestination⟩

theorem SenderRole.toByte_inj {role role' : SenderRole} (h : role.toByte = role'.toByte) :
    role = role' := by
  cases role <;> cases role' <;> first | rfl | exact absurd h (by decide)

/-- What two authenticated stream messages have in common. -/
structure SameStreamMessage (c c' : CtControl) (type type' : UInt8) (role role' : SenderRole)
    (x x' : StreamContext) (md md' : Option CtStreamMetadata) (ok ok' : UInt8) : Prop where
  session : c.keys.sessionId = c'.keys.sessionId
  client : c.clientId = c'.clientId
  context : x = x'
  metadata : md = md'
  type : type = type'
  role : role = role'
  ok : ok = ok'

/-- The strings that `streammac` writes fit their two-byte lengths. -/
structure IdsShort (c : CtControl) (x : StreamContext) : Prop where
  client : c.clientId.length ≤ 65535
  service : x.serviceId.length ≤ 65535

theorem streammacInput_inj {type type' : UInt8} {role role' : SenderRole} {x x' : StreamContext}
    {md md' : Option CtStreamMetadata} {ok ok' : UInt8} (hids : IdsShort c x) (hids' : IdsShort c' x')
    (h : (streammacInput c type role x md ok).bytes = (streammacInput c' type' role' x' md' ok').bytes) :
    SameStreamMessage c c' type type' role role' x x' md md' ok ok' := by
  simp only [streammacInput, WriteBuf.new_putAll_bytes, List.flatten_append, List.flatten_cons,
    List.flatten_nil, List.append_nil, List.append_assoc] at h
  have hrest := List.append_cancel_left h
  obtain ⟨hsession, hrest⟩ := append_u64_inj hrest
  obtain ⟨hclient, hrest⟩ := append_string_inj hids.client hids'.client hrest
  obtain ⟨hwork, hrest⟩ := List.append_inj hrest (by simp)
  obtain ⟨hservice, hrest⟩ := append_string_inj hids.service hids'.service hrest
  obtain ⟨hstream, hrest⟩ := append_u64_inj hrest
  obtain ⟨hrandom, hrest⟩ := List.append_inj hrest (by simp)
  obtain ⟨hmode, hrest⟩ := List.append_inj hrest (by simp)
  obtain ⟨hmetadata, hrest⟩ := streammacMetadata_inj (by simp) hrest
  simp only [List.cons_append, List.nil_append, List.cons.injEq] at hrest
  obtain ⟨htype, hrole, hok, -⟩ := hrest
  exact {
    session := hsession
    client := CString.ext hclient
    context := by
      have hmode' := CtEncMode.toByte_inj (List.head_eq_of_cons_eq hmode)
      cases x
      cases x'
      simp only [StreamContext.mk.injEq]
      exact ⟨hstream, List.Vector.eq _ _ hrandom, List.Vector.eq _ _ hwork, CString.ext hservice,
        hmode'⟩
    metadata := hmetadata
    type := htype
    role := SenderRole.toByte_inj hrole
    ok := hok }

/-- The labels of the two authenticators differ. -/
theorem workmacInput_ne {workId : Octets 32} {type : UInt8} {role : SenderRole} {x : StreamContext}
    {md : Option CtStreamMetadata} {ok : UInt8} :
    (workmacInput c workId).bytes ≠ (streammacInput c' type role x md ok).bytes := by
  simp only [workmacInput, streammacInput, WriteBuf.new_putAll_bytes, List.flatten_append,
    List.flatten_cons, List.append_assoc]
  exact append_ne_of_getD (i := 11) (by decide) (by decide) (by decide)

end Ctunnel
