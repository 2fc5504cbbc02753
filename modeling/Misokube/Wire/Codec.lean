import Misokube.Wire.Framing

/-!
# The binary codec and the names of the pod

The binary codec reads back what it writes of a request (`readRequestPayload_reads`).  It writes
neither the name, the namespace nor the UID of the pod, so a request survives exactly if these are
empty, and exactly then a client with the binary codec is understood as one with the JSON codec.
-/

namespace Wire

open Decoder Binary

/-! ### Fields -/

theorem readUvar_reads (v : UInt64) :
  Reads readUvar (writeUvar v) v
  := readUvarint_reads v

theorem readLength_reads (s : Str) :
  Reads (readLength (UInt64.ofNat s.bytes.length)) s.bytes s
  := by
  have hlength : (UInt64.ofNat s.bytes.length).toNat = s.bytes.length :=
    UInt64.toNat_ofNat_of_lt' s.fits
  constructor
  · intro rest
    have htake : Str.take (UInt64.ofNat s.bytes.length) (s.bytes ++ rest) = s := by
      ext1
      change (s.bytes ++ rest).take (UInt64.ofNat s.bytes.length).toNat = s.bytes
      rw [hlength, List.take_left' rfl]
    rw [StateT.run, readLength, hlength, htake, List.drop_left' rfl, if_neg]
    rw [List.length_append]
    omega
  · intro k hk
    use .format .lengthExceedsBuffer
    rw [StateT.run, readLength, hlength, if_pos]
    rw [List.length_take]
    omega

theorem readBytes_reads (s : Str) :
  Reads readBytes (writeBytes s) s
  := by
  apply (readUvar_reads _).bind
  split
  case isFalse => apply readLength_reads
  case isTrue hzero =>
    -- the empty string has no bytes
    have hlength := congrArg UInt64.toNat hzero
    rw [UInt64.toNat_ofNat_of_lt' s.fits] at hlength
    have hnil : s.bytes = [] := List.eq_nil_of_length_eq_zero hlength
    obtain rfl : Str.empty = s := by
      ext1
      exact hnil.symm
    apply Reads.pure

theorem readString_reads (s : Str) :
  Reads readString (writeString s) s
  := readBytes_reads s

theorem readVersion_reads :
  Reads readVersion [1] ()
  := by
  apply Reads.cons
  apply Reads.pure

/-! ### Requests -/

/-- The request without the names of the pod. -/
def Request.unnamed (r : Request) : Request :=
  { r with podName := .empty, podNamespace := .empty, podUID := .empty }

/-- The names of the pod are empty. -/
def Request.Unnamed (r : Request) : Prop :=
  r.podName = .empty ∧ r.podNamespace = .empty ∧ r.podUID = .empty

theorem unnamed_eq_iff {r : Request} :
  r.unnamed = r ↔ r.Unnamed
  := by
  rw [Request.unnamed, Request.Unnamed]
  constructor
  · intro h
    rw [← h]
    exact ⟨rfl, rfl, rfl⟩
  · rintro ⟨hname, hnamespace, huid⟩
    cases r
    dsimp only at hname hnamespace huid
    subst hname hnamespace huid
    rfl

/-- A request is read without the names of the pod. -/
theorem readRequestPayload_reads (r : Request) :
  Reads readRequestPayload (marshalRequest r) r.unnamed
  := by
  apply readVersion_reads.bind
  apply (readString_reads r.cmd).bind
  apply (readString_reads r.traceID).bind
  apply (readString_reads r.cniVersion).bind
  apply (readString_reads r.containerID).bind
  apply (readString_reads r.netNS).bind
  apply (readString_reads r.ifName).bind
  apply (readUvar_reads r.timeoutSeconds.toUInt64).bind
  apply (readString_reads r.idemKey).bind
  rw [Int64.toInt64_toUInt64]
  apply Reads.pure

theorem unmarshalRequest_marshalRequest (r : Request) :
  unmarshalRequest (marshalRequest r) = .ok r.unnamed
  := by
  have hread := (readRequestPayload_reads r).whole []
  rw [List.append_nil] at hread
  rw [unmarshalRequest, hread]
  rfl

/-! ### Clients -/

/-- The request that the server reads from a client. -/
def delivered (j : JSONCodec) (codec : Codec) (r : Request) :
    Except (Decoder.Error Error) Request :=
  ((readRequest j).run (callRequest j codec r)).map fun p => p.1.2

section

variable {j : JSONCodec} {codec : Codec} {r : Request}

theorem decodeRequest_json {body : List UInt8} (h : j.unmarshalRequest body = some r) :
  decodeRequest j (detectFlags .json) body = .ok r
  := by
  rw [decodeRequest, if_pos (by decide), h]

theorem decodeRequest_binary (j : JSONCodec) (body : List UInt8) :
  decodeRequest j (detectFlags .binary) body = unmarshalRequest body
  := by
  rw [decodeRequest, if_neg (by decide), if_pos (by decide)]

/-- The server decodes the body of the frame it reads. -/
theorem delivered_of_frame {h : Header} {body rest : List UInt8}
    (hframe : readFrame.run (callRequest j codec r) = .ok ((h, body), rest)) :
  delivered j codec r = decodeRequest j h.flags body
  := by
  rw [delivered, readRequest, StateT.run_bind, hframe]
  change Except.map _ ((liftM (decodeRequest j h.flags body) >>= fun r => pure (h, r) :
    Reader _).run rest) = _
  cases decodeRequest j h.flags body with
  | error e => rfl
  | ok r' => rfl

theorem delivered_of_length_le (codec : Codec)
    (h : (codec.marshalRequest j r).length ≤ maxPayload) :
  delivered j codec r = decodeRequest j (detectFlags codec) (codec.marshalRequest j r)
  := by
  have hread := (readFrame_reads
    ⟨1, commandToHeader r.cmd, detectFlags codec, codec.marshalRequest j r, h⟩).whole []
  rw [List.append_nil] at hread
  apply delivered_of_frame hread

/-- A body that is too long is not read, or only a part of it is. -/
theorem binary_not_delivered (hlong : maxPayload < (marshalRequest r).length) (r' : Request) :
  delivered j .binary r ≠ .ok r'
  := by
  set n := UInt32.ofNat (marshalRequest r).length with hn
  set h : Header := ⟨1, commandToHeader r.cmd, detectFlags .binary, n⟩ with hh
  have hcall : callRequest j .binary r = writeHeader h ++ marshalRequest r := rfl
  rcases Nat.lt_or_ge maxPayload n.toNat with hlarge | hsmall
  · -- the header is refused
    have hheader : readFrame.run (callRequest j .binary r)
        = .error (.format (.payloadTooLarge n)) := by
      rw [readFrame, StateT.run_bind, hcall, readHeader_tooLarge hlarge]
      rfl
    rw [delivered, readRequest, StateT.run_bind, hheader]
    rintro ⟨⟩
  · -- the length does not fit into the header, and the body is cut off
    have hcut : n.toNat < (marshalRequest r).length := by omega
    have hframe : readFrame.run (callRequest j .binary r)
        = .ok ((h, (marshalRequest r).take n.toNat), (marshalRequest r).drop n.toNat) := by
      rw [readFrame, StateT.run_bind, hcall, (readHeader_reads hsmall).whole]
      change ((readFull n.toNat >>= fun body => pure (h, body) : Reader _).run _) = _
      rw [StateT.run_bind, StateT.run, readFull, if_pos hcut.le]
      rfl
    obtain ⟨e, he⟩ := (readRequestPayload_reads r).cut n.toNat hcut
    rw [delivered_of_frame hframe, hh, decodeRequest_binary, unmarshalRequest, he]
    rintro ⟨⟩

end

/-- A request survives the binary codec exactly if the names of the pod are empty.  If the JSON
codec reads back the request and its body is not too long, then the server reads the same request
from a client with the binary codec exactly if moreover the binary body is not too long. -/
theorem binary_lossless_iff (r : Request) :
  (unmarshalRequest (marshalRequest r) = .ok r ↔ r.Unnamed)
    ∧ ∀ j : JSONCodec, j.unmarshalRequest (j.marshalRequest r) = some r →
      (j.marshalRequest r).length ≤ maxPayload →
        (delivered j .binary r = delivered j .json r
          ↔ r.Unnamed ∧ (marshalRequest r).length ≤ maxPayload)
  := by
  constructor
  · rw [unmarshalRequest_marshalRequest, Except.ok.injEq, unnamed_eq_iff]
  · intro j hjson hlength
    have hdelivered : delivered j .json r = .ok r := by
      rw [delivered_of_length_le .json hlength]
      apply decodeRequest_json hjson
    rw [hdelivered]
    rcases Nat.lt_or_ge maxPayload (marshalRequest r).length with hlong | hshort
    · apply iff_of_false (binary_not_delivered hlong r)
      omega
    · have hbinary : delivered j .binary r = .ok r.unnamed := by
        rw [delivered_of_length_le .binary hshort, decodeRequest_binary]
        apply unmarshalRequest_marshalRequest
      rw [hbinary, Except.ok.injEq, unnamed_eq_iff]
      apply (and_iff_left hshort).symm

/-- A request to add a pod. -/
def addRequest (podName podNamespace podUID : Str) : Request :=
  ⟨cmdADD, .empty, .empty, .empty, .empty, .empty, podName, podNamespace, podUID, -1, .empty⟩

/-- The bytes of a text. -/
def textBytes (s : String) : List UInt8 :=
  s.toUTF8.data.toList

/-- The JSON text of a request to add a pod, which leaves out the names of the pod if they are
empty. -/
def addText (podUID : String) : String :=
  "\x7b\"cmd\":\"ADD\",\"trace_id\":\"\",\"cniVersion\":\"\",\"container_id\":\"\"," ++
    "\"netns\":\"\",\"ifname\":\"\"," ++
    (if podUID = "" then "" else "\"pod_uid\":\"" ++ podUID ++ "\",") ++
    "\"timeout_seconds\":-1,\"idem_key\":\"\"\x7d"

/-- The JSON codec for the requests to add a pod without names and with the UID `u`, and for
responses without code, message and result. -/
def addCodec : JSONCodec where
  marshalRequest r := textBytes (addText (if r.podUID = .empty then "" else "u"))
  unmarshalRequest body :=
    if body = textBytes (addText "") then some (addRequest .empty .empty .empty)
    else if body = textBytes (addText "u") then
      some (addRequest .empty .empty ⟨[0x75], by decide⟩)
    else none
  marshalResponse r :=
    textBytes (if r.ok then "\x7b\"ok\":true\x7d" else "\x7b\"ok\":false\x7d")

/-- A request without the names of the pod, and with a negative timeout. -/
theorem binary_lossless_iff_unnamed :
  unmarshalRequest (marshalRequest (addRequest .empty .empty .empty))
      = .ok (addRequest .empty .empty .empty)
    ∧ delivered addCodec .binary (addRequest .empty .empty .empty)
      = delivered addCodec .json (addRequest .empty .empty .empty)
  := by
  have hunnamed : (addRequest .empty .empty .empty).Unnamed := ⟨rfl, rfl, rfl⟩
  obtain ⟨htrip, hdelivered⟩ := binary_lossless_iff (addRequest .empty .empty .empty)
  use htrip.mpr hunnamed
  apply (hdelivered addCodec (by decide +kernel) (by decide +kernel)).mpr
  use hunnamed
  decide +kernel

/-- A request loses the UID of its pod. -/
theorem podUID_lost :
  ∃ uid : Str, unmarshalRequest (marshalRequest (addRequest .empty .empty uid))
      = .ok (addRequest .empty .empty .empty)
    ∧ addRequest .empty .empty .empty ≠ addRequest .empty .empty uid
    ∧ addCodec.unmarshalRequest (addCodec.marshalRequest (addRequest .empty .empty uid))
      = some (addRequest .empty .empty uid)
    ∧ delivered addCodec .binary (addRequest .empty .empty uid)
      ≠ delivered addCodec .json (addRequest .empty .empty uid)
  := by
  use ⟨[0x75], by decide⟩
  decide +kernel

end Wire
