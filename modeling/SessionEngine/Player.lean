import SessionEngine.Server
import SessionEngine.Session.Sink

/-!
# Players

A session of the program plays one of several parts. Whatever the part, there
are files beside it, and an account is kept of the frames that it was shown.

Each part is played by a handler of its own; a `Role` is such a handler
together with its place in the state of the player.
-/

namespace SessionEngine

/-- The part that a session plays. -/
inductive Part where
  /-- Speaks all protocols. -/
  | server (stress : Stress.Receiver)
  | files
  | chatEcho (answers : Nat)
  | chatClient (client : Chat.Client)
  | stressReceiver (receiver : Stress.Receiver)
  | stressClient (client : Stress.Client)
  /-- Takes frames and does nothing. -/
  | collector
  /-- Takes bytes and does nothing. -/
  | sink (rule : Sink)

/-- A part, the files beside it, and the frames that it was shown. -/
structure Player where
  endpoint : Transfer.Endpoint
  part : Part
  /-- Id and length of each frame that the part was shown. -/
  shown : List (UInt16 × Nat)

/-- A handler for frames, and its place in the state of a player. -/
structure Role where
  σ : Type
  handler : PacketHandler σ
  state : σ
  put : σ → Player

namespace Player

def role (p : Player) : Role :=
  match p.part with
  | .server stress =>
      ⟨Server, Server.handler, ⟨p.endpoint, stress⟩,
        fun s => { p with endpoint := s.files, part := .server s.stress }⟩
  | .files =>
      ⟨Transfer.Endpoint, Transfer.Endpoint.handler, p.endpoint,
        fun endpoint => { p with endpoint }⟩
  | .chatEcho answers =>
      ⟨Nat, Chat.echoHandler, answers, fun n => { p with part := .chatEcho n }⟩
  | .chatClient client =>
      ⟨Chat.Client, Chat.Client.handler, client, fun c => { p with part := .chatClient c }⟩
  | .stressReceiver receiver =>
      ⟨Stress.Receiver, Stress.Receiver.handler, receiver,
        fun r => { p with part := .stressReceiver r }⟩
  | .stressClient client =>
      ⟨Stress.Client, Stress.Client.handler, client,
        fun c => { p with part := .stressClient c }⟩
  | .collector | .sink _ => ⟨Unit, PacketHandler.silent, (), fun _ => p⟩

def noteFrame (frame : Bytes) (p : Player) : Player :=
  match Header.parse? frame with
  | some header => { p with shown := p.shown ++ [(header.id, frame.length)] }
  | none => p

/-- Plays the part with whole frames. -/
def packets : PacketHandler Player where
  connected p :=
    let (state, actions) := p.role.handler.connected p.role.state
    (p.role.put state, actions)
  connectFailed failure p := p.role.put (p.role.handler.connectFailed failure p.role.state)
  packet frame p :=
    let p := p.noteFrame frame
    let (state, actions) := p.role.handler.packet frame p.role.state
    (p.role.put state, actions)
  disconnected p := p.role.put (p.role.handler.disconnected p.role.state)

/-- Plays the part with bytes. -/
def handler : SessionHandler Player :=
  { packets.session with
    received := fun data p =>
      match p.part with
      | .sink rule => rule.handler.received data p
      | _ => packets.session.received data p }

/-- Lets somebody use the files beside the part. -/
def onFiles {α : Type} (f : Bool → Transfer.Endpoint → Transfer.Endpoint × List Action × α)
    (connected : Bool) (p : Player) : Player × List Action × α :=
  let (endpoint, rest) := f connected p.endpoint
  ({ p with endpoint }, rest)

end Player

end SessionEngine
