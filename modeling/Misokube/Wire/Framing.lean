import Misokube.Wire.Model

/-!
# Streams of frames

A stream of frames is read back frame by frame (`readFrames_stream`): the whole stream gives all
frames, and a stream that is cut off anywhere gives the frames that are complete and then an error.
A frame on the wire determines where it ends, so its body may be any bytes, those of a header
included.
-/

namespace Wire

open Decoder Binary

/-- A body and what its header says, apart from the length; the body is not too long. -/
structure Frame where
  version : UInt8
  cmd : UInt8
  flags : UInt8
  body : List UInt8
  bounded : body.length ≤ maxPayload

namespace Frame

/-- The header, with the length of the body. -/
def header (f : Frame) : Header :=
  ⟨f.version, f.cmd, f.flags, UInt32.ofNat f.body.length⟩

/-- The frame on the wire. -/
def bytes (f : Frame) : List UInt8 :=
  writeHeader f.header ++ f.body

/-- What is read of a frame. -/
def content (f : Frame) : Header × List UInt8 :=
  (f.header, f.body)

/-- The header has the length of the body. -/
theorem toNat_length (f : Frame) :
  f.header.length.toNat = f.body.length
  := by
  have hbounded := f.bounded
  rw [maxPayload] at hbounded
  apply UInt32.toNat_ofNat_of_lt'
  rw [UInt32.size]
  omega

end Frame

/-! ### One frame -/

/-- A header is parsed as it was written, if its length is allowed. -/
theorem parseHeader_writeHeader (h : Header) :
  parseHeader (writeHeader h)
    = if maxPayload < h.length.toNat then .error (.format (.payloadTooLarge h.length)) else .ok h
  := by
  have hbytes : writeHeader h = [0x53, 0x54, 0x52, 0x41, h.version, h.cmd, h.flags, 0,
      (h.length >>> 24).toUInt8, (h.length >>> 16).toUInt8, (h.length >>> 8).toUInt8,
      h.length.toUInt8] := rfl
  rw [hbytes, parseHeader, uint32_putUint32]
  rfl

/-- The reader takes a header and nothing more. -/
theorem readHeader_reads {h : Header} (hlength : h.length.toNat ≤ maxPayload) :
  Reads readHeader (writeHeader h) h
  := by
  have hread : Reads readHeader (writeHeader h ++ []) h := by
    apply (readFull_reads (writeHeader h)).bind
    apply Reads.lift
    rw [parseHeader_writeHeader, if_neg (by omega)]
  rw [List.append_nil] at hread
  exact hread

/-- A header with a length that is too large is refused, whatever follows. -/
theorem readHeader_tooLarge {h : Header} (hlength : maxPayload < h.length.toNat)
    (rest : List UInt8) :
  readHeader.run (writeHeader h ++ rest) = .error (.format (.payloadTooLarge h.length))
  := by
  have hfull : (readFull headerLen : Reader (List UInt8)).run (writeHeader h ++ rest)
      = .ok (writeHeader h, rest) := (readFull_reads (writeHeader h)).whole rest
  rw [readHeader, StateT.run_bind, hfull]
  change (liftM (parseHeader (writeHeader h)) : Reader Header).run rest = _
  rw [parseHeader_writeHeader, if_pos hlength]
  rfl

/-- The reader takes a frame and nothing more. -/
theorem readFrame_reads (f : Frame) :
  Reads readFrame f.bytes f.content
  := by
  have hbody : Reads (readFull f.header.length.toNat : Reader (List UInt8)) f.body f.body := by
    rw [f.toNat_length]
    apply readFull_reads
  have hread : Reads readFrame (writeHeader f.header ++ (f.body ++ [])) f.content := by
    apply Reads.bind (readHeader_reads _)
    · apply hbody.bind
      apply Reads.pure
    · rw [f.toNat_length]
      exact f.bounded
  rw [List.append_nil] at hread
  exact hread

/-- A frame that is read has at least the bytes of a header. -/
theorem length_of_readFrame {bs rest : List UInt8} {p : Header × List UInt8}
    (h : readFrame.run bs = .ok (p, rest)) :
  rest.length < bs.length
  := by
  obtain ⟨hd, bs', hheader, hbody⟩ := run_bind_eq_ok h
  obtain ⟨b, bs'', hfull, hparse⟩ := run_bind_eq_ok hheader
  obtain ⟨body, rest', hfull', hpure⟩ := run_bind_eq_ok hbody
  have hlength := length_of_readFull hfull
  have hlength' := length_of_readFull hfull'
  rw [headerLen] at hlength
  have hsame : bs'' = bs' := by
    cases hb : parseHeader b with
    | error e =>
      rw [hb] at hparse
      cases hparse
    | ok hd' =>
      rw [hb] at hparse
      cases hparse
      rfl
  cases hpure
  rw [hsame] at hlength
  omega

/-! ### Many frames -/

/-- The frames that are read until there is an error, the bytes after them, and the error. -/
structure Received where
  frames : List (Header × List UInt8)
  rest : List UInt8
  error : Decoder.Error Error

/-- Reads frames until there is an error. -/
def readFrames (bs : List UInt8) : Received :=
  match _h : readFrame.run bs with
  | .error e => ⟨[], bs, e⟩
  | .ok (p, rest) =>
    let r := readFrames rest
    { r with frames := p :: r.frames }
termination_by bs.length
decreasing_by apply length_of_readFrame _h

/-- The frames on the wire, one after the other. -/
def stream (fs : List Frame) : List UInt8 :=
  fs.flatMap Frame.bytes

/-- The frames that are complete in the first `k` bytes. -/
def complete : List Frame → ℕ → List Frame
  | [], _ => []
  | f :: fs, k => if f.bytes.length ≤ k then f :: complete fs (k - f.bytes.length) else []

theorem stream_nil :
  stream [] = []
  := rfl

theorem stream_cons (f : Frame) (fs : List Frame) :
  stream (f :: fs) = f.bytes ++ stream fs
  := rfl

/-- Reading ends with the first error; what is left is not touched. -/
theorem readFrames_of_error {bs : List UInt8} {e : Decoder.Error Error}
    (h : readFrame.run bs = .error e) :
  readFrames bs = ⟨[], bs, e⟩
  := by
  rw [readFrames]
  split
  case h_1 e' he =>
    rw [h] at he
    cases he
    rfl
  case h_2 p rest hok =>
    rw [h] at hok
    cases hok

/-- A frame at the beginning is read first. -/
theorem readFrames_append (f : Frame) (bs : List UInt8) :
  readFrames (f.bytes ++ bs) = { readFrames bs with frames := f.content :: (readFrames bs).frames }
  := by
  have hread := (readFrame_reads f).whole bs
  rw [readFrames]
  split
  case h_1 e he =>
    rw [hread] at he
    cases he
  case h_2 p rest hok =>
    rw [hread] at hok
    cases hok
    rfl

/-- The frames of a stream are read and nothing is left.  Of a stream that is cut off, exactly those
that are complete are read, and then there is an error. -/
theorem readFrames_stream (fs : List Frame) :
  readFrames (stream fs) = ⟨fs.map Frame.content, [], .eof⟩
    ∧ ∀ k, ∃ rest e, readFrames ((stream fs).take k)
        = ⟨(complete fs k).map Frame.content, rest, e⟩
      ∧ (stream fs).take k = stream (complete fs k) ++ rest
  := by
  constructor
  · induction fs with
    | nil => apply readFrames_of_error rfl
    | cons f fs ih =>
      rw [stream_cons, readFrames_append, ih]
      rfl
  · induction fs with
    | nil =>
      intro k
      use [], .eof
      rw [stream_nil, List.take_nil, readFrames_of_error rfl]
      exact ⟨rfl, rfl⟩
    | cons f fs ih =>
      intro k
      rw [stream_cons, complete]
      split
      case isTrue hk =>
        obtain ⟨rest, e, hread, htake⟩ := ih (k - f.bytes.length)
        use rest, e
        rw [List.take_append, List.take_of_length_le hk, readFrames_append, hread, stream_cons,
          List.append_assoc, ← htake]
        exact ⟨rfl, rfl⟩
      case isFalse hk =>
        -- the stream is cut off inside of the first frame
        obtain ⟨e, he⟩ := (readFrame_reads f).cut k (by omega)
        use f.bytes.take k, e
        rw [List.take_append_of_le_length (by omega), readFrames_of_error he]
        exact ⟨rfl, rfl⟩

end Wire
