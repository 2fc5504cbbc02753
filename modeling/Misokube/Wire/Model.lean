import Misokube.Lib.Binary

/-!
# Requests, responses and their encoding

The packages `pkg/wire` and `pkg/transport/uds`: the messages between the CNI plugin and the daemon,
their binary codec, the header of a frame, and how a client sends a request and the server reads it.
A connection is the list of the bytes that are still to be read.  The JSON codec is a parameter.
-/

namespace Wire

/-- A Go string or slice of bytes: its length fits into 64 bits. -/
structure Str where
  bytes : List UInt8
  fits : bytes.length < 2 ^ 64
deriving DecidableEq

namespace Str

/-- The empty string. -/
def empty : Str := ⟨[], by decide⟩

/-- The first bytes of a list, as many as a 64-bit number says. -/
def take (n : UInt64) (bs : List UInt8) : Str :=
  ⟨bs.take n.toNat, by
    have hn := n.toNat_lt
    rw [List.length_take]
    omega⟩

@[ext]
theorem ext {s t : Str} (h : s.bytes = t.bytes) :
  s = t
  := by
  cases s
  cases t
  rw [mk.injEq]
  exact h

end Str

/-! ### Messages -/

/-- The name of a command. -/
abbrev Command := Str

def cmdADD : Command := ⟨[0x41, 0x44, 0x44], by decide⟩

def cmdDEL : Command := ⟨[0x44, 0x45, 0x4c], by decide⟩

def cmdCHECK : Command := ⟨[0x43, 0x48, 0x45, 0x43, 0x4b], by decide⟩

def cmdSTATUS : Command := ⟨[0x53, 0x54, 0x41, 0x54, 0x55, 0x53], by decide⟩

def cmdGC : Command := ⟨[0x47, 0x43], by decide⟩

structure Request where
  cmd : Command
  traceID : Str
  cniVersion : Str
  containerID : Str
  netNS : Str
  ifName : Str
  podName : Str
  podNamespace : Str
  podUID : Str
  timeoutSeconds : Int64
  idemKey : Str
deriving DecidableEq

structure Response where
  ok : Bool
  code : Str
  message : Str
  result : Str
deriving DecidableEq

/-! ### The binary codec -/

/-- The errors of the codec and of the header. -/
inductive Error where
  | lengthExceedsBuffer
  | unknownPayloadVersion
  | magicMismatch (a b c d : UInt8)
  | payloadTooLarge (length : UInt32)
  | unsupportedCodec (flags : UInt8)
  | json
deriving DecidableEq

/-- Reads from a connection or a buffer. -/
abbrev Reader := Decoder Error

open Decoder Binary

def writeUvar (v : UInt64) : List UInt8 :=
  putUvarint v

def writeBytes (data : Str) : List UInt8 :=
  writeUvar (UInt64.ofNat data.bytes.length) ++ data.bytes

def writeString (s : Str) : List UInt8 :=
  writeBytes s

def readUvar : Reader UInt64 :=
  readUvarint

/-- Reads a number of bytes that the buffer must have. -/
def readLength (ln : UInt64) : Reader Str := fun bs =>
  if bs.length < ln.toNat then .error (.format .lengthExceedsBuffer)
  else .ok (.take ln bs, bs.drop ln.toNat)

def readBytes : Reader Str := do
  let ln ← readUvar
  if ln = 0 then pure .empty else readLength ln

def readString : Reader Str :=
  readBytes

def marshalRequest (r : Request) : List UInt8 :=
  [[1], writeString r.cmd, writeString r.traceID, writeString r.cniVersion,
    writeString r.containerID, writeString r.netNS, writeString r.ifName,
    writeUvar r.timeoutSeconds.toUInt64, writeString r.idemKey].flatten

def marshalResponse (r : Response) : List UInt8 :=
  [[1], [if r.ok then 1 else 0], writeString r.code, writeString r.message,
    writeBytes r.result].flatten

/-- Reads the version of the layout. -/
def readVersion : Reader Unit := do
  let v ← readByte .eof
  if v ≠ 1 then throw (.format .unknownPayloadVersion) else pure ()

/-- Reads a request; what is not read is zero. -/
def readRequestPayload : Reader Request := do
  readVersion
  let cmd ← readString
  let traceID ← readString
  let cniVersion ← readString
  let containerID ← readString
  let netNS ← readString
  let ifName ← readString
  let tsec ← readUvar
  let idemKey ← readString
  pure ⟨cmd, traceID, cniVersion, containerID, netNS, ifName, .empty, .empty, .empty, tsec.toInt64,
    idemKey⟩

def readResponsePayload : Reader Response := do
  readVersion
  let okb ← readByte .eof
  let code ← readString
  let message ← readString
  let raw ← readBytes
  pure ⟨okb = 1, code, message, raw⟩

/-- `BinaryCodec.Unmarshal` into a zero request; what follows the request is ignored. -/
def unmarshalRequest (data : List UInt8) : Except (Decoder.Error Error) Request :=
  (readRequestPayload.run data).map Prod.fst

/-- `BinaryCodec.Unmarshal` into a zero response. -/
def unmarshalResponse (data : List UInt8) : Except (Decoder.Error Error) Response :=
  (readResponsePayload.run data).map Prod.fst

/-! ### Headers -/

def headerLen : ℕ := 12

def maxPayload : ℕ := 10 * 2 ^ 20

structure Header where
  version : UInt8
  cmd : UInt8
  flags : UInt8
  length : UInt32
deriving DecidableEq

def flagJSON : UInt8 := 0x01

def flagBIN : UInt8 := 0x08

def writeHeader (h : Header) : List UInt8 :=
  [0x53, 0x54, 0x52, 0x41, h.version, h.cmd, h.flags, 0] ++ putUint32 h.length

/-- Checks the 12 bytes of a header. -/
def parseHeader : List UInt8 → Except (Decoder.Error Error) Header
  | [b0, b1, b2, b3, b4, b5, b6, _, b8, b9, b10, b11] =>
    if b0 ≠ 0x53 ∨ b1 ≠ 0x54 ∨ b2 ≠ 0x52 ∨ b3 ≠ 0x41 then
      .error (.format (.magicMismatch b0 b1 b2 b3))
    else if maxPayload < (uint32 b8 b9 b10 b11).toNat then
      .error (.format (.payloadTooLarge (uint32 b8 b9 b10 b11)))
    else .ok ⟨b4, b5, b6, uint32 b8 b9 b10 b11⟩
  | _ => .error .unexpectedEOF -- there are 12 bytes

def readHeader : Reader Header := do
  let b ← readFull headerLen
  liftM (parseHeader b)

def commandToHeader (cmd : Command) : UInt8 :=
  if cmd = cmdADD then 1
  else if cmd = cmdDEL then 2
  else if cmd = cmdCHECK then 3
  else if cmd = cmdSTATUS then 4
  else 0

/-! ### Frames -/

/-- The JSON codec of the messages. -/
structure JSONCodec where
  marshalRequest : Request → List UInt8
  unmarshalRequest : List UInt8 → Option Request
  marshalResponse : Response → List UInt8

/-- The codecs of a client. -/
inductive Codec where
  | json
  | binary
deriving DecidableEq

def detectFlags : Codec → UInt8
  | .json => flagJSON
  | .binary => flagBIN

def Codec.marshalRequest (j : JSONCodec) : Codec → Request → List UInt8
  | .json, r => j.marshalRequest r
  | .binary, r => Wire.marshalRequest r

/-- A header and as many bytes as it says. -/
def readFrame : Reader (Header × List UInt8) := do
  let h ← readHeader
  let body ← readFull h.length.toNat
  pure (h, body)

/-- What `Client.Call` writes. -/
def callRequest (j : JSONCodec) (codec : Codec) (req : Request) : List UInt8 :=
  let body := codec.marshalRequest j req
  writeHeader ⟨1, commandToHeader req.cmd, detectFlags codec, UInt32.ofNat body.length⟩ ++ body

/-- Decodes a body with the codec that the flags name. -/
def decodeRequest (j : JSONCodec) (flags : UInt8) (body : List UInt8) :
    Except (Decoder.Error Error) Request :=
  if flags &&& flagJSON ≠ 0 then
    match j.unmarshalRequest body with
    | none => .error (.format .json)
    | some r => .ok r
  else if flags &&& flagBIN ≠ 0 then unmarshalRequest body
  else .error (.format (.unsupportedCodec flags))

def readRequest (j : JSONCodec) : Reader (Header × Request) := do
  let (h, body) ← readFrame
  let r ← liftM (decodeRequest j h.flags body)
  pure (h, r)

def writeResponse (j : JSONCodec) (cmd flags : UInt8) (resp : Response) :
    Except (Decoder.Error Error) (List UInt8) :=
  let frame := fun body : List UInt8 =>
    writeHeader ⟨1, cmd, flags, UInt32.ofNat body.length⟩ ++ body
  if flags &&& flagJSON ≠ 0 then .ok (frame (j.marshalResponse resp))
  else if flags &&& flagBIN ≠ 0 then .ok (frame (marshalResponse resp))
  else .error (.format (.unsupportedCodec flags))

end Wire
