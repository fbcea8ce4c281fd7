import Ctunnel.Net.Stream

/-!
# The stack buffers of the authenticated encodings

`streammac`, `workmac` and `ct_derive_data` fill buffers of 256, 160 and 192
bytes with fixed fields and the client and service ids. Each id is checked
against its own build-time limit only; whether the writes stay inside the
buffers depends on the ids' lengths together.
-/

namespace Ctunnel

open Lib

theorem streammacMetadata_length (metadata : Option CtStreamMetadata) :
    (streammacMetadata metadata).flatten.length = if metadata.isSome then 39 else 38 := by
  cases metadata with
  | some md => simp [streammacMetadata]
  | none => simp [streammacMetadata]

theorem streammacInput_inside (c : CtControl) (messageType : UInt8) (senderRole : SenderRole)
    (x : StreamContext) (metadata : Option CtStreamMetadata) (ok : UInt8) :
    (streammacInput c messageType senderRole x metadata ok).inside = true ↔
      c.clientId.length + x.serviceId.length ≤ if metadata.isSome then 104 else 105 := by
  have hlabel : (ascii "ctunnel-v3/stream-binding").length = 25 := rfl
  rw [streammacInput, WriteBuf.new_putAll_inside, List.flatten_append, List.flatten_append,
    List.length_append, List.length_append, streammacMetadata_length]
  simp only [List.flatten_cons, List.flatten_nil, List.length_append, hlabel, ctPutU64_length,
    ctPutU16_length, List.Vector.toList_length, List.length_cons, List.length_nil,
    CString.length]
  split <;> omega

theorem workmacInput_inside (c : CtControl) (workId : Octets 32) :
    (workmacInput c workId).inside = true ↔ c.clientId.length ≤ 80 := by
  have hlabel : (ascii "ctunnel-v3/work-bind/client-to-server").length = 37 := rfl
  rw [workmacInput, WriteBuf.new_putAll_inside]
  simp only [List.flatten_cons, List.flatten_nil, List.length_append, hlabel, ctPutU64_length,
    ctPutU16_length, List.Vector.toList_length, List.length_cons, List.length_nil, CString.length]
  omega

theorem deriveDataContext_inside (x : StreamContext) (dir : Direction) :
    (deriveDataContext x dir).inside = true ↔ x.serviceId.length ≤ 94 := by
  have hlabel : (ascii "ctunnel-v3/data-stream").length = 22 := rfl
  rw [deriveDataContext, WriteBuf.new_putAll_inside]
  simp only [List.flatten_cons, List.flatten_nil, List.length_append, hlabel, ctPutU64_length,
    ctPutU16_length, List.Vector.toList_length, List.length_cons, List.length_nil, CString.length]
  omega

/-- Every write stays inside its buffer exactly if the two ids are at most 104
bytes together (105 without metadata), the client id at most 80 and the service
id at most 94. -/
theorem stack_writes_inside_iff (c : CtControl) (messageType : UInt8) (senderRole : SenderRole)
    (x : StreamContext) (metadata : Option CtStreamMetadata) (ok : UInt8) (dir : Direction) :
    ((streammacInput c messageType senderRole x metadata ok).inside = true ∧
      (workmacInput c x.workId).inside = true ∧ (deriveDataContext x dir).inside = true) ↔
    (c.clientId.length + x.serviceId.length ≤ if metadata.isSome then 104 else 105) ∧
      c.clientId.length ≤ 80 ∧ x.serviceId.length ≤ 94 := by
  rw [streammacInput_inside, workmacInput_inside, deriveDataContext_inside]

/-! ## Two ids within the default limits -/

/-- 64 times the letter `a`. -/
def longId : CString := ⟨List.replicate 64 97, by simp⟩

/-- `::1`, port 443. -/
def loopback6 : CtEndpoint := ⟨6, ⟨List.replicate 15 0 ++ [1], by simp⟩, 443⟩

/-- In the default build a client id and a service id of the longest admitted
length pass the checks of `streammac`, and a START_STREAM with metadata is
written past the end of its buffer. -/
theorem default_ids_overrun :
    longId.length ≤ defaultBuild.maxClientIdLength ∧
      longId.length ≤ defaultBuild.maxServiceIdLength ∧
      (streammacInput { CtControl.zero with clientId := longId }
        CtMsgType.startStream.toByte .server
        ⟨1, .replicate 32 0, .replicate 32 0, longId, .required⟩
        (some ⟨.off, loopback6, loopback6⟩) 1).inside = false := by
  have hlen : longId.length = 64 := by simp [longId, CString.length]
  refine ⟨hlen.le, hlen.le, ?_⟩
  rw [← Bool.not_eq_true, streammacInput_inside]
  show ¬ longId.length + longId.length ≤ 104
  omega

end Ctunnel
