import SessionEngine.Chat.Message
import SessionEngine.Session.Handler

/-!
# Chat

The echo answers every message with one reply. The client says something
when it is connected and keeps the replies. Both ignore frames that are not
theirs and close the connection over a frame that is too short for a text.
-/

namespace SessionEngine

namespace Chat

/-- The action that sends a frame, if there is one to send. -/
def sending (frame : Option Bytes) : List Action := frame.toList.map .send

/-- What is put in front of a message that is answered. -/
def echoMark : String := "echo: "

def echo (frame : Bytes) : List Action :=
  match decode frame with
  | .error _ => [.disconnect]
  | .ok (id, text) =>
      if id = messageId then sending (Frame.build? replyId (body (echoMark ++ text))) else []

/-- Answers every message, and counts the answers. -/
def echoHandler : PacketHandler Nat :=
  { PacketHandler.silent with
    packet := fun frame answers => (answers + (Action.frames (echo frame)).length, echo frame) }

/-- What a client says, and the replies it has got. -/
structure Client where
  greeting : String
  replies : List String
deriving DecidableEq

namespace Client

def new (greeting : String) : Client := ⟨greeting, []⟩

def hello (c : Client) : List Action := sending (Frame.build? messageId (body c.greeting))

def packet (frame : Bytes) (c : Client) : Client × List Action :=
  match decode frame with
  | .error _ => (c, [.disconnect])
  | .ok (id, text) =>
      if id = replyId then ({ c with replies := c.replies ++ [text] }, []) else (c, [])

def handler : PacketHandler Client :=
  { PacketHandler.silent with
    connected := fun c => (c, c.hello)
    packet := packet }

end Client

end Chat

end SessionEngine
