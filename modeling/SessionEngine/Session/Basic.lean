import SessionEngine.ReceiveBuffer
import SessionEngine.Session.Handler

/-!
# Sessions

A session is one connection from its first attempt to its end:

    new -> connecting -> connected -> disconnected

The state never goes back, and each hook of the handler is called by the step
that makes the transition it tells of. Whatever is to be sent while the
session is not connected is dropped without a word.

Bytes arrive in reads that are never longer than the free tail of the receive
buffer. After each read the handler sees all unread bytes; what it claims to
have consumed must be a number of bytes that were there. When the buffer is
full and still nobody wants its bytes, waiting for more is pointless and the
session ends.
-/

namespace SessionEngine

/-- The state of a connection. -/
inductive Phase where
  | new
  | connecting
  | connected
  | disconnected
deriving DecidableEq, Repr

/-- The hooks that a session has called, but for the one that is told of bytes
that have been written. -/
inductive Hook where
  | connected
  | connectFailed (failure : ConnectFailure)
  /-- Unread bytes were shown to the handler. -/
  | received
  | disconnected
deriving DecidableEq, Repr

/-- One connection, with a handler state `σ`. -/
structure Session (σ : Type) where
  phase : Phase
  buffer : ReceiveBuffer
  state : σ
  /-- The frames accepted for sending, in order. -/
  sent : List Bytes
  /-- The hooks called so far, in order. -/
  hooks : List Hook

namespace Session

variable {σ : Type}

/-- The nominal length of a read if nothing else is asked for. -/
def defaultReadLength : Nat := 65536

def create (readLength : Nat) (state : σ) : Session σ where
  phase := .new
  buffer := ReceiveBuffer.empty readLength
  state := state
  sent := []
  hooks := []

/-- Whether frames can be sent and bytes received. -/
def isConnected (s : Session σ) : Bool := s.phase = .connected

def note (hook : Hook) (s : Session σ) : Session σ := { s with hooks := s.hooks ++ [hook] }

/-! ## Sending and closing -/

/-- Sends frames, or drops them. -/
def send (frames : List Bytes) (s : Session σ) : Session σ :=
  if s.isConnected then { s with sent := s.sent ++ frames } else s

def disconnect (h : SessionHandler σ) (s : Session σ) : Session σ :=
  if s.isConnected then
    { s with phase := .disconnected, state := h.disconnected s.state }.note .disconnected
  else s

/-- Does what a handler asks for. Nothing happens after it has closed the
connection. -/
def perform (h : SessionHandler σ) (actions : List Action) (s : Session σ) : Session σ :=
  let s := s.send (Action.frames actions)
  if Action.closes actions then s.disconnect h else s

/-- Lets somebody use the handler from outside of its hooks. What comes of it
may depend on whether the session is connected. -/
def act {α : Type} (h : SessionHandler σ) (f : Bool → σ → σ × List Action × α)
    (s : Session σ) : Session σ × α :=
  let (state, actions, result) := f s.isConnected s.state
  ({ s with state }.perform h actions, result)

/-! ## Opening -/

/-- Ends a session that could never read anything. -/
def settle (h : SessionHandler σ) (s : Session σ) : Session σ :=
  if s.buffer.free = 0 then s.disconnect h else s

/-- Starts to open a connection, which works once. -/
def connect (s : Session σ) : Bool × Session σ :=
  if s.phase = .new then (true, { s with phase := .connecting }) else (false, s)

/-- The connection that was being opened is there. If there is no room for
the session, it ends at once and nobody is told. -/
def opened (h : SessionHandler σ) (admitted : Bool) (s : Session σ) : Session σ :=
  if s.phase = .connecting then
    if admitted then
      let s := { s with phase := .connected }.note .connected
      let (state, actions) := h.connected s.state
      ({ s with state }.perform h actions).settle h
    else { s with phase := .disconnected }
  else s

/-- The connection that was being opened could not be. -/
def openFailed (h : SessionHandler σ) (failure : ConnectFailure) (s : Session σ) : Session σ :=
  if s.phase = .connecting then
    { s with phase := .disconnected, state := h.connectFailed failure s.state }.note
      (.connectFailed failure)
  else s

/-! ## Receiving -/

/-- Shows the unread bytes to the handler and drops what it consumes. -/
def deliver (h : SessionHandler σ) (s : Session σ) : Session σ :=
  let unread := s.buffer.size
  let (state, actions, consumed) := h.received s.buffer.data s.state
  let s := ({ s with state }.note .received).perform h actions
  if 0 ≤ consumed ∧ consumed ≤ unread then
    match s.buffer.consume? consumed.toNat with
    | some buffer => { s with buffer := buffer.compact }.settle h
    | none => s.disconnect h
  else s.disconnect h

/-- One read has brought these bytes. -/
def receive (h : SessionHandler σ) (bytes : Bytes) (s : Session σ) : Session σ :=
  if s.isConnected then
    match s.buffer.write? bytes with
    | some buffer => { s with buffer }.deliver h
    | none => s.disconnect h
  else s

/-- The other side has closed the connection, or it broke. -/
def endOfStream (h : SessionHandler σ) (s : Session σ) : Session σ := s.disconnect h

/-- All of these bytes arrive, in reads as long as the buffer allows. What
arrives after the end is lost. -/
def feed (h : SessionHandler σ) (bytes : Bytes) (s : Session σ) : Session σ :=
  if bytes = [] ∨ s.buffer.free = 0 ∨ !s.isConnected then s
  else
    feed h (bytes.drop s.buffer.free) (s.receive h (bytes.take s.buffer.free))
termination_by bytes.length
decreasing_by
  simp only [List.length_drop]
  have : bytes.length ≠ 0 := by simp_all
  omega

end Session

end SessionEngine
