import SessionEngine.Frame

/-!
# Load test messages

A load test is announced by a start frame, consists of numbered data frames
and is answered by a result frame. The measured quantities of a result are
32-bit floating-point numbers and travel as their bits.
-/

namespace SessionEngine

namespace Stress

/-- Marks the start of a run. -/
def startId : UInt16 := 10

/-- Marks one message of a run. -/
def dataId : UInt16 := 11

/-- Marks the result of a run. -/
def resultId : UInt16 := 12

def maxPayload : Nat := 4000

/-- What a run consists of. -/
structure Start where
  messageCount : UInt32
  messageSize : UInt32
  /-- The pause between two messages, in milliseconds. -/
  interval : UInt32
deriving DecidableEq

/-- What identifies one message of a run. -/
structure Data where
  sequence : UInt32
  /-- When it was sent, in milliseconds. -/
  timestamp : UInt32
deriving DecidableEq

/-- What the receiver measured. -/
structure Result where
  total : UInt32
  received : UInt32
  lost : UInt32
  /-- Latencies in milliseconds, as bits. -/
  average : UInt32
  maximum : UInt32
  minimum : UInt32
  /-- Megabytes per second, as bits. -/
  rate : UInt32
deriving DecidableEq

namespace Start

def bodyLength : Nat := 12

/-- The payload that each message of the run carries. -/
def payloadLength (s : Start) : Nat := min s.messageSize.toNat maxPayload

def body (s : Start) : Bytes :=
  Bytes.ofWord32 s.messageCount ++ Bytes.ofWord32 s.messageSize ++ Bytes.ofWord32 s.interval

def decode (frame : Bytes) : Except FrameError Start :=
  (Frame.body bodyLength frame).map fun (_, body) =>
    ⟨Bytes.word32 0 body, Bytes.word32 4 body, Bytes.word32 8 body⟩

end Start

namespace Data

/-- The length of the body without the payload. -/
def headLength : Nat := 8

/-- The payload: each byte is its own place, modulo 256. -/
def payload (length : Nat) : Bytes := (List.range length).map UInt8.ofNat

/-- The body of a data frame with a payload of this length, but at most the
longest. -/
def body (d : Data) (payloadLength : Nat) : Bytes :=
  Bytes.ofWord32 d.sequence ++ Bytes.ofWord32 d.timestamp ++
    payload (min payloadLength maxPayload)

/-- Opens a data frame: what identifies it, and the length of its payload. -/
def decode (frame : Bytes) : Except FrameError (Data × Nat) :=
  (Frame.body headLength frame).map fun (_, body) =>
    (⟨Bytes.word32 0 body, Bytes.word32 4 body⟩, body.length - headLength)

end Data

namespace Result

def bodyLength : Nat := 28

def body (r : Result) : Bytes :=
  Bytes.ofWord32 r.total ++ Bytes.ofWord32 r.received ++ Bytes.ofWord32 r.lost ++
    Bytes.ofWord32 r.average ++ Bytes.ofWord32 r.maximum ++ Bytes.ofWord32 r.minimum ++
    Bytes.ofWord32 r.rate

def decode (frame : Bytes) : Except FrameError Result :=
  (Frame.body bodyLength frame).map fun (_, body) =>
    ⟨Bytes.word32 0 body, Bytes.word32 4 body, Bytes.word32 8 body, Bytes.word32 12 body,
      Bytes.word32 16 body, Bytes.word32 20 body, Bytes.word32 24 body⟩

end Result

end Stress

end SessionEngine
