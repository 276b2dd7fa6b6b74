import SessionEngine.Frame
import SessionEngine.Text.Utf8

/-!
# Chat messages

A chat frame has a body of 100 bytes: the text, and zero bytes behind it. At
least one zero byte is written, so a text of more than 99 bytes is cut, at a
character boundary. A reader takes the text up to the first zero byte.
-/

namespace SessionEngine

namespace Chat

/-- Marks what somebody says. -/
def messageId : UInt16 := 1

/-- Marks the answer to what somebody said. -/
def replyId : UInt16 := 2

def fieldLength : Nat := 100

def body (text : String) : Bytes :=
  Bytes.padTo fieldLength (Utf8.encode (Utf8.truncate (fieldLength - 1) text))

def textOf (field : Bytes) : String :=
  Utf8.decodeLossy (Bytes.beforeNul field)

def decode (frame : Bytes) : Except FrameError (UInt16 × String) :=
  (Frame.body fieldLength frame).map fun (header, body) =>
    (header.id, textOf (body.take fieldLength))

@[simp] theorem length_body (text : String) : (body text).length = 100 := by
  simp [body, fieldLength]

end Chat

end SessionEngine
