import Misokube.Wire.Codec

/-!
# Payloads that end by themselves

`BinaryCodec.Unmarshal` into any request or response.  It stores one field after the other, so what
it has stored stays when a later field cannot be read.  A payload of the codec ends by itself
(`binary_delimited`): no beginning of it is accepted, and what follows it is ignored.
-/

namespace Wire

open Decoder

/-! ### Destinations -/

/-- A response as a value of Go, in which the result may be nil. -/
structure GoResponse where
  ok : Bool
  code : Str
  message : Str
  result : Option Str
deriving DecidableEq

/-- The response that is written: a nil result has no bytes. -/
def GoResponse.written (r : GoResponse) : Response :=
  ⟨r.ok, r.code, r.message, r.result.getD .empty⟩

/-- The response that is read back: its result is not nil. -/
def Response.read (r : Response) : GoResponse :=
  ⟨r.ok, r.code, r.message, some r.result⟩

/-- `BinaryCodec.Unmarshal` into a request.  Some fields are assigned together with the error, and
then a string that cannot be read is empty. -/
def fillRequest : Filler Error Request Unit := do
  fill readVersion fun _ o => o
  fill readString fun cmd o => { o with cmd := cmd }
  assign readString .empty fun s o => { o with traceID := s }
  assign readString .empty fun s o => { o with cniVersion := s }
  assign readString .empty fun s o => { o with containerID := s }
  assign readString .empty fun s o => { o with netNS := s }
  assign readString .empty fun s o => { o with ifName := s }
  fill readUvar fun tsec o => { o with timeoutSeconds := tsec.toInt64 }
  assign readString .empty fun s o => { o with idemKey := s }
  pure ()

/-- `BinaryCodec.Unmarshal` into a response. -/
def fillResponse : Filler Error GoResponse Unit := do
  fill readVersion fun _ o => o
  fill (readByte .eof) fun okb o => { o with ok := okb = 1 }
  assign readString .empty fun s o => { o with code := s }
  assign readString .empty fun s o => { o with message := s }
  fill readBytes fun raw o => { o with result := some raw }
  pure ()

/-! ### Reading -/

/-- A request is filled with what is read; the names of the pod are not read. -/
theorem fillRequest_follows :
  Follows fillRequest readRequestPayload id fun r o =>
    { r with podName := o.podName, podNamespace := o.podNamespace, podUID := o.podUID }
  := by
  apply Follows.fill
  intro _
  apply Follows.fill
  intro cmd
  apply Follows.assign
  intro traceID
  apply Follows.assign
  intro cniVersion
  apply Follows.assign
  intro containerID
  apply Follows.assign
  intro netNS
  apply Follows.assign
  intro ifName
  apply Follows.fill
  intro tsec
  apply Follows.assign
  intro idemKey
  apply Follows.pure
  intro o
  rfl

theorem fillResponse_follows :
  Follows fillResponse readResponsePayload id fun r _ => r.read
  := by
  apply Follows.fill
  intro _
  apply Follows.fill
  intro okb
  apply Follows.assign
  intro code
  apply Follows.assign
  intro message
  apply Follows.fill
  intro raw
  apply Follows.pure
  intro o
  rfl

/-- A response is read back. -/
theorem readResponsePayload_reads (r : Response) :
  Reads readResponsePayload (marshalResponse r) r
  := by
  have hok : (decide ((if r.ok then 1 else 0 : UInt8) = 1)) = r.ok := by
    cases r.ok <;> rfl
  apply readVersion_reads.bind
  apply (readByte_reads .eof (if r.ok then 1 else 0)).bind
  apply (readString_reads r.code).bind
  apply (readString_reads r.message).bind
  have hraw : Reads (readBytes >>= fun raw => pure
      (⟨decide ((if r.ok then 1 else 0 : UInt8) = 1), r.code, r.message, raw⟩ : Response))
      (writeBytes r.result ++ []) r := by
    apply (readBytes_reads r.result).bind
    rw [hok]
    apply Reads.pure
  exact hraw

/-- Every response is read back, with an empty result for a nil one, and the payloads of requests
and responses end by themselves. -/
theorem binary_delimited :
  (∀ v out : GoResponse, unmarshal fillResponse (marshalResponse v.written) out
      = (none, { v with result := some (v.result.getD .empty) }))
    ∧ (∀ v : Request, SelfDelimiting fillRequest (marshalRequest v))
    ∧ ∀ v : GoResponse, SelfDelimiting fillResponse (marshalResponse v.written)
  := by
  refine ⟨?_, ?_, ?_⟩
  · intro v out
    have hread := fillResponse_follows.unmarshal_append (readResponsePayload_reads v.written) [] out
    rw [List.append_nil] at hread
    exact hread
  · intro v
    apply fillRequest_follows.selfDelimiting (readRequestPayload_reads v)
  · intro v
    apply fillResponse_follows.selfDelimiting (readResponsePayload_reads v.written)

end Wire
