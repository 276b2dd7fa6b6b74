import SessionEngine.Frame

/-!
# Handlers

A session tells its handler what happens on the connection, and the handler
answers with what the session is to do: frames to send, and whether to close.
A handler is a state and four reactions; it never acts by itself.

A handler is not told when bytes that it asked to send have been written, and
how many they were. No handler here does anything about that, and what is
written when is the matter of the send queue (`SessionEngine.Session.SendQueue`).

Most handlers want whole frames and nothing else. `PacketHandler.session`
turns such a handler into one for raw bytes: frames are taken off the front of
the unread bytes, one after the other, until the handler closes the
connection or no whole frame is left. Bytes that can be no frame are answered
with a negative count, which no session accepts.
-/

namespace SessionEngine

/-- What a handler asks of its session. -/
inductive Action where
  | send (frame : Bytes)
  | disconnect
deriving DecidableEq

namespace Action

def closes (actions : List Action) : Bool := actions.contains .disconnect

/-- The frames that are sent before the connection is closed, if it is. -/
def frames : List Action → List Bytes
  | [] => []
  | .send frame :: rest => frame :: frames rest
  | .disconnect :: _ => []

end Action

/-- Why a connection could not be opened. -/
inductive ConnectFailure where
  /-- Nobody listens there. -/
  | refused
  /-- There is no way there. -/
  | unreachable
deriving DecidableEq, Repr

namespace ConnectFailure

def message : ConnectFailure → String
  | refused => "Connection refused (os error 111)"
  | unreachable => "Network is unreachable (os error 101)"

end ConnectFailure

/-- Reacts to what happens on a connection. -/
structure SessionHandler (σ : Type) where
  /-- The connection is open. -/
  connected : σ → σ × List Action
  /-- The connection could not be opened. -/
  connectFailed : ConnectFailure → σ → σ
  /-- Bytes have not been read yet. Says how many of them it has consumed now;
  the rest is shown again, with more behind it. -/
  received : Bytes → σ → σ × List Action × Int
  /-- The connection is closed. Nothing can be sent any more. -/
  disconnected : σ → σ

/-- Reacts to whole frames. -/
structure PacketHandler (σ : Type) where
  /-- The connection is open. -/
  connected : σ → σ × List Action
  /-- The connection could not be opened. -/
  connectFailed : ConnectFailure → σ → σ
  /-- A whole frame has arrived. -/
  packet : Bytes → σ → σ × List Action
  /-- The connection is closed. Nothing can be sent any more. -/
  disconnected : σ → σ

namespace PacketHandler

variable {σ : Type}

def silent : PacketHandler σ where
  connected s := (s, [])
  connectFailed _ s := s
  packet _ s := (s, [])
  disconnected s := s

/-- Shows one frame to the handler and goes on unless it closes the
connection. -/
def dispatch (h : PacketHandler σ) (acc : σ × List Action) (frame : Bytes) :
    (σ × List Action) × Bool :=
  let (s, actions) := h.packet frame acc.1
  ((s, acc.2 ++ actions), !Action.closes actions)

/-- Shows whole frames from the front of the unread bytes to the handler. -/
def received (h : PacketHandler σ) (data : Bytes) (s : σ) : σ × List Action × Int :=
  match Frame.split h.dispatch (s, []) data with
  | ((s, actions), .ok consumed) => (s, actions, consumed)
  | ((s, actions), .error _) => (s, actions, -1)

/-- A handler for whole frames as a handler for bytes. -/
def session (h : PacketHandler σ) : SessionHandler σ where
  connected := h.connected
  connectFailed := h.connectFailed
  received := h.received
  disconnected := h.disconnected

end PacketHandler

end SessionEngine
